import MemDbg.Daemon.Command

/-!
# Responses

`packet_builder.c`: a response is a header that repeats the command and the id of
its request and announces the bytes behind it.  A handler either sends one and
returns `MEMDBG_OK`, or returns an error that `handle_client` sends for it; a
`Reply` records both.  Writes to the socket succeed throughout, so the branches
that return `MEMDBG_ERR_NET` are not taken.
-/

namespace MemDbg.Daemon.Wire

open Lib

structure Frame where
  command : Command
  requestId : UInt32
  status : Status
  length : Nat
  payload : List UInt8
deriving DecidableEq

structure Frame.Answers (f : Frame) (req : Request) : Prop where
  command_eq : f.command = req.command
  requestId_eq : f.requestId = req.requestId
  length_eq : f.length = f.payload.length

structure Reply where
  frames : List Frame
  status : Status
deriving DecidableEq

def fail (st : Status) : Reply := ⟨[], st⟩

def sendResponse (req : Request) (st : Status) (payload : List UInt8) : Reply :=
  let len := wrap32 payload.length
  ⟨[⟨req.command, req.requestId, st, len, payload.take len⟩], .ok⟩

def lz4Threshold : Nat := 4096

def intMax : Nat := 2 ^ 31 - 1

def worthwhile (dataLen : Nat) (compressed : List UInt8) : Bool :=
  0 < compressed.length && compressed.length < dataLen - dataLen / 8

def compressedPayload (dataLen : Nat) (compressed : List UInt8) : List UInt8 :=
  0x01 :: (leBytes 4 dataLen ++ compressed)

def sendFramedResponse (compress : List UInt8 → List UInt8) (malloc : Bool) (req : Request)
    (st : Status) (data : List UInt8) : Reply :=
  let dataLen := wrap32 data.length
  let bytes := data.take dataLen
  let raw : Frame := ⟨req.command, req.requestId, st, wrap32 (dataLen + 1), 0x00 :: bytes⟩
  if dataLen < lz4Threshold ∨ intMax < dataLen then ⟨[raw], .ok⟩
  else if malloc = true ∧ worthwhile dataLen (compress bytes) = true then
    let blocks := compressedPayload dataLen (compress bytes)
    ⟨[⟨req.command, req.requestId, st, (compress bytes).length + 5, blocks⟩], .ok⟩
  else ⟨[raw], .ok⟩

def buildFramedPayload (compress : List UInt8 → List UInt8) (mallocCompressed mallocRaw : Bool)
    (data : List UInt8) : Option (List UInt8) :=
  let dataLen := wrap32 data.length
  let bytes := data.take dataLen
  let raw := if mallocRaw then some ((0x00 :: bytes).take (wrap32 (dataLen + 1))) else none
  if dataLen < lz4Threshold ∨ intMax < dataLen then raw
  else if mallocCompressed = true ∧ worthwhile dataLen (compress bytes) = true then
    some (compressedPayload dataLen (compress bytes))
  else raw

/-! ## One response per request -/

def Reply.Single (req : Request) (r : Reply) : Prop :=
  (r.status = .ok ∧ ∃ f, r.frames = [f] ∧ f.Answers req) ∨ (r.status ≠ .ok ∧ r.frames = [])

namespace Reply

variable {req : Request} {st : Status}

@[simp] theorem single_fail : (fail st).Single req ↔ st ≠ .ok := by
  simp [Single, fail]

@[simp] theorem single_sendResponse (payload : List UInt8) :
    (sendResponse req st payload).Single req := by
  refine .inl ⟨rfl, _, rfl, rfl, rfl, ?_⟩
  have : wrap32 payload.length ≤ payload.length := Nat.mod_le _ _
  simp [this]

theorem Single.ite {c : Prop} [Decidable c] {r r' : Reply} (h : c → r.Single req)
    (h' : ¬c → r'.Single req) : (if c then r else r').Single req := by
  split
  · exact h ‹_›
  · exact h' ‹_›

theorem Single.check {c : Prop} [Decidable c] {r : Reply} (hst : st ≠ .ok)
    (h : ¬c → r.Single req) : (if c then fail st else r).Single req :=
  .ite (fun _ => single_fail.mpr hst) h

theorem Single.forward {r : Reply} (h : st = .ok → r.Single req) :
    (if st ≠ .ok then fail st else r).Single req :=
  .ite (fun hst => single_fail.mpr hst) fun hst => h (not_not.mp hst)

theorem wrap32_succ_eq {n : Nat} (h : n < 2 ^ 32) :
    wrap32 (n + 1) = n + 1 ↔ n ≠ 2 ^ 32 - 1 := by
  constructor
  · rintro hwrap rfl
    exact absurd hwrap (by decide)
  · intro hn
    exact wrap32_of_lt (by omega)

theorem single_sendFramedResponse_iff (compress : List UInt8 → List UInt8) (malloc : Bool)
    {data : List UInt8} (hdata : data.length < 2 ^ 32) :
    (sendFramedResponse compress malloc req st data).Single req ↔ data.length ≠ 2 ^ 32 - 1 := by
  have hlen : wrap32 data.length = data.length := wrap32_of_lt hdata
  have hraw : ∀ f : Frame, f = ⟨req.command, req.requestId, st, wrap32 (data.length + 1),
      0x00 :: data⟩ → ((⟨[f], .ok⟩ : Reply).Single req ↔ data.length ≠ 2 ^ 32 - 1) := by
    rintro f rfl
    rw [← wrap32_succ_eq hdata]
    constructor
    · rintro (⟨-, f, hf, hans⟩ | ⟨hst, -⟩)
      · obtain rfl := List.singleton_inj.mp hf
        simpa using hans.length_eq
      · exact absurd rfl hst
    · intro h
      exact .inl ⟨rfl, _, rfl, rfl, rfl, by simpa using h⟩
  simp only [sendFramedResponse, hlen, List.take_length]
  split_ifs with hsmall hworth
  · exact hraw _ rfl
  · refine iff_of_true (.inl ⟨rfl, _, rfl, rfl, rfl, ?_⟩) ?_
    · simp [compressedPayload, leBytes]
    · simp only [intMax, not_or, not_lt] at hsmall
      omega
  · exact hraw _ rfl

theorem frames_sendFramedResponse_ne_nil (compress : List UInt8 → List UInt8) (malloc : Bool)
    (data : List UInt8) : (sendFramedResponse compress malloc req st data).frames ≠ [] := by
  simp only [sendFramedResponse]
  split_ifs <;> exact List.cons_ne_nil _ _

end Reply

end MemDbg.Daemon.Wire
