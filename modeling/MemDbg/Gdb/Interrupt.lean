import MemDbg.Gdb.Rsp

/-!
# Interrupts

While the target runs the bridge polls the connection for the byte of an interrupt.  A byte that
is something else goes back to where the reader of packets finds it, and so does the next poll.
-/

namespace MemDbg.Gdb

open List

/-! ## The connection -/

structure Conn where
  rxBuf : List UInt8
  wire : List UInt8
  gone : Bool
deriving DecidableEq

inductive ReadByte where
  | byte (b : UInt8)
  | timedOut
  | failed
deriving DecidableEq

namespace Conn

variable (c : Conn)

def readByte : ReadByte × Conn :=
  match c.rxBuf with
  | b :: rest => (.byte b, { c with rxBuf := rest })
  | [] =>
    match c.wire with
    | b :: rest => (.byte b, { c with wire := rest })
    | [] => (if c.gone then .failed else .timedOut, c)

def unread : List UInt8 := c.rxBuf ++ c.wire

end Conn

/-! ## Waiting for a stop -/

structure Turn where
  shutdown : Bool
  arriving : List UInt8
  events : Option Bool
deriving DecidableEq

inductive Waited where
  | waiting
  | shutdown
  | interrupted
  | failed
  | stopped
deriving DecidableEq

inductive Place where
  | between
  | body
  | digit₁
  | digit₂
deriving DecidableEq

def Turn.Quiet (t : Turn) : Prop := t.shutdown = false ∧ t.events = some false

def Waited.taken : Waited → List UInt8
  | .interrupted => [3]
  | _ => []

end MemDbg.Gdb
