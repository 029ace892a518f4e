import MemDbg.Core.Status
import Mathlib.Logic.Function.Basic

/-!
# The debugger and its target

The state behind the debugger lock, and the process it is attached to.  An
instruction is known by its address.  Executing the byte of a software breakpoint
stops the thread with its instruction pointer one past it; every other instruction
does what the program says.  What can go wrong outside is given as the status of
each system call.
-/

namespace MemDbg.Debug

open Function

/-! ## The state of the debugger -/

def maxBreakpoints : Nat := 16

def maxWatchpoints : Nat := 4

def maxThreads : Nat := 256

def int3Opcode : UInt8 := 0xCC

inductive BpKind where
  | software
  | hardware
deriving DecidableEq

def bpKindOf : Nat → Option BpKind
  | 0 => some .software
  | 1 => some .hardware
  | _ => none

structure Breakpoint where
  address : Nat
  kind : BpKind
  originalByte : UInt8
  installed : Bool
  active : Bool
  condReg : Nat
  condOp : Nat
  condValue : Int
deriving DecidableEq

def Breakpoint.zero : Breakpoint := ⟨0, .software, 0, false, false, 0, 0, 0⟩

structure Watchpoint where
  address : Nat
  length : Nat
  type : Nat
  slot : Nat
  installed : Bool
deriving DecidableEq

def Watchpoint.zero : Watchpoint := ⟨0, 0, 0, 0, false⟩

abbrev Dbregs := Nat → Nat

structure Dbg where
  attached : Bool
  stopped : Bool
  stopLwp : Nat
  breakpoints : Nat → Breakpoint
  watchpoints : Nat → Watchpoint
  dbregs : Dbregs
  dbregsValid : Bool

def Dbg.zero : Dbg where
  attached := false
  stopped := false
  stopLwp := 0
  breakpoints _ := Breakpoint.zero
  watchpoints _ := Watchpoint.zero
  dbregs _ := 0
  dbregsValid := false

def Dbg.attach : Dbg := { Dbg.zero with attached := true, stopped := true }

/-! ## The target -/

structure Regs where
  rip : Nat
  gpr : Nat → Int

abbrev Program := Nat → Nat → Regs → Regs

structure Target where
  mem : Nat → UInt8
  own : Nat → UInt8
  lwps : List Nat
  regs : Nat → Regs
  dr : Nat → Dbregs
  executed : Nat → List Nat
  trapped : Nat → Option Nat
  running : Bool

def Target.idle (lwps : List Nat) : Target where
  mem _ := 0
  own _ := 0
  lwps := lwps
  regs _ := ⟨0, fun _ => 0⟩
  dr _ _ := 0
  executed _ := []
  trapped _ := none
  running := false

def Target.poke (t : Target) (a : Nat) (b : UInt8) : Target :=
  { t with mem := update t.mem a b }

def Target.exec (prog : Program) (t : Target) (lwp : Nat) : Target :=
  if (t.trapped lwp).isSome then t
  else
    let r := t.regs lwp
    if t.mem r.rip ≠ t.own r.rip then
      { t with
        regs := update t.regs lwp { r with rip := wrap64 (r.rip + 1) }
        trapped := update t.trapped lwp (some r.rip) }
    else
      { t with
        regs := update t.regs lwp (prog lwp (t.executed lwp).length r)
        executed := update t.executed lwp (t.executed lwp ++ [r.rip]) }

def Target.execAll (prog : Program) (t : Target) (runs : List Nat) : Target :=
  runs.foldl (Target.exec prog) t

def Target.resume (t : Target) : Target := { t with trapped := fun _ => none, running := true }

def Target.ptStep (prog : Program) (t : Target) (runs : List Nat) : Target :=
  { t.resume.execAll prog runs with running := false }

structure Machine where
  dbg : Dbg
  target : Target

def Machine.setBp (m : Machine) (i : Nat) (bp : Breakpoint) : Machine :=
  { m with dbg := { m.dbg with breakpoints := update m.dbg.breakpoints i bp } }

def Machine.setWp (m : Machine) (i : Nat) (wp : Watchpoint) : Machine :=
  { m with dbg := { m.dbg with watchpoints := update m.dbg.watchpoints i wp } }

def Machine.threads (m : Machine) : List Nat := m.target.lwps.take maxThreads

end MemDbg.Debug
