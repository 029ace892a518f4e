import MemDbg.Debug.Breakpoints

/-!
# Running the target

A stop at a software breakpoint is recognised by the instruction pointer alone: one
past the address of an active entry.  Stepping over it takes the byte out, moves the
thread back, lets the process execute and puts the byte in again.
-/

namespace MemDbg.Debug

open Function

section

variable (prog : Program)

/-! ## Conditions -/

def Regs.condValue (r : Regs) (condReg : Nat) : Int :=
  if condReg = bpCondRip then r.rip else if condReg = 0 ∨ condReg > bpCondRip then 0
  else r.gpr condReg

def evaluateBpCondition (bp : Breakpoint) (r : Regs) : Bool :=
  if bp.condReg = 0 then true
  else
    let rv := r.condValue bp.condReg
    match bp.condOp with
    | 0 => rv == bp.condValue
    | 1 => rv != bp.condValue
    | 2 => decide (rv < bp.condValue)
    | 3 => decide (rv ≤ bp.condValue)
    | 4 => decide (rv > bp.condValue)
    | 5 => decide (rv ≥ bp.condValue)
    | _ => true

def Machine.slotBehind (m : Machine) (lwp : Nat) : Option Nat :=
  m.dbg.findBreakpointSlot (sub64 (m.target.regs lwp).rip 1)

/-! ## Stepping over a breakpoint -/

structure StepOutcome where
  statusGet : Status
  statusSet : Status
  getRegs : Status
  write : Status
  setRegs : Status
  step : Status
  runs : List Nat
  waited : Bool
  forced : Bool
  read : Status
  rewrite : Status
  dbregsGet : Status
  dr6 : Nat

structure StepResult where
  status : Status
  stopConsumed : Bool
  watchHit : Bool

def finishStepOver (lwp slot : Nat) (o : StepOutcome) (m : Machine) : StepResult × Machine :=
  if !o.waited && !o.forced then (⟨.errState, false, false⟩, m)
  else
    let (st, m) := installSwBreakpoint o.read o.rewrite slot m
    if st ≠ .ok then (⟨st, false, false⟩, m)
    else if !o.waited then (⟨.errState, false, false⟩, m)
    else
      let m := { m with target := { m.target with
        dr := update m.target.dr lwp (update (m.target.dr lwp) 6 o.dr6) } }
      let hit := (List.range maxWatchpoints).any fun i =>
        (m.dbg.watchpoints i).installed && o.dr6.testBit i
      (⟨.ok, true, decide (o.dbregsGet = .ok) && !o.dr6.testBit 14 && hit⟩, m)

def plainStep (o : StepOutcome) (m : Machine) : StepResult × Machine :=
  if o.step ≠ .ok then (⟨o.step, false, false⟩, m)
  else (⟨.ok, false, false⟩, { m with target := m.target.ptStep prog o.runs })

def Machine.moveBack (m : Machine) (lwp : Nat) : Machine :=
  { m with target := { m.target with
    regs := update m.target.regs lwp
      { m.target.regs lwp with rip := sub64 (m.target.regs lwp).rip 1 }
    trapped := update m.target.trapped lwp none } }

def repairedStep (lwp slot : Nat) (o : StepOutcome) (m : Machine) : StepResult × Machine :=
  match uninstallSwBreakpoint o.write slot m with
  | (.ok, m) =>
    if o.setRegs ≠ .ok then
      (⟨o.setRegs, false, false⟩, (installSwBreakpoint o.read o.rewrite slot m).2)
    else if o.step ≠ .ok then
      (⟨o.step, false, false⟩, (installSwBreakpoint o.read o.rewrite slot (m.moveBack lwp)).2)
    else
      finishStepOver lwp slot o
        { m with target := (m.moveBack lwp).target.ptStep prog o.runs }
  | (st, m) => (⟨st, false, false⟩, m)

def stepOverSwBreakpoint (lwp : Nat) (o : StepOutcome) (m : Machine) : StepResult × Machine :=
  let m := clearHardwareStatus o.statusGet o.statusSet lwp m
  if o.getRegs ≠ .ok then (⟨o.getRegs, false, false⟩, m)
  else
    match m.slotBehind lwp with
    | none => plainStep prog o m
    | some slot =>
      if (m.dbg.breakpoints slot).kind ≠ .software then plainStep prog o m
      else repairedStep prog lwp slot o m

/-! ## Resuming -/

structure ContinueOutcome where
  hw : HwOutcome
  getRegs : Nat → Status
  steps : Nat → StepOutcome
  cont : Status

def continueThreads (o : ContinueOutcome) : List Nat → Machine → Option Status × Machine
  | [], m => (none, m)
  | lwp :: rest, m =>
    if o.getRegs lwp ≠ .ok then continueThreads o rest m
    else
      match m.slotBehind lwp with
      | none => continueThreads o rest m
      | some _ =>
        let (r, m) := stepOverSwBreakpoint prog lwp (o.steps lwp) m
        if r.status ≠ .ok then (some r.status, m)
        else if r.watchHit then
          (some .ok, { m with dbg := { m.dbg with stopped := true, stopLwp := lwp } })
        else continueThreads o rest m

def rearm (hw : HwOutcome) (m : Machine) : Machine :=
  if (List.range maxWatchpoints).any fun i => (m.dbg.watchpoints i).installed then
    (syncHardwareDbregs true hw m).2
  else m

def debuggerContinue (o : ContinueOutcome) (m : Machine) : Status × Machine :=
  if !m.dbg.attached then (.errState, m)
  else
    match continueThreads prog o (rearm o.hw m).threads (rearm o.hw m) with
    | (some st, m) => (st, m)
    | (none, m) =>
      if o.cont ≠ .ok then (o.cont, m)
      else
        (.ok, { dbg := { m.dbg with stopped := false, stopLwp := 0 }, target := m.target.resume })

def debuggerStep (lwp : Nat) (o : StepOutcome) (m : Machine) : Status × Machine :=
  if !m.dbg.attached then (.errState, m)
  else
    let (r, m) := stepOverSwBreakpoint prog lwp o m
    (r.status,
      if r.status = .ok then
        { m with dbg := { m.dbg with
          stopped := r.stopConsumed
          stopLwp := if r.stopConsumed then lwp else 0 } }
      else m)

/-! ## Events -/

inductive WaitResult where
  | nothing
  | stopped
  | exited
  | failed (status : Status)
deriving DecidableEq

structure PollOutcome where
  wait : WaitResult
  getRegs : Nat → Status
  dbregsGet : Nat → Status
  cont : Status

def Machine.stoppedThread (o : PollOutcome) (m : Machine) : Option (Nat × Nat) :=
  m.threads.findSome? fun lwp =>
    if o.getRegs lwp ≠ .ok then none else (m.slotBehind lwp).map fun slot => (lwp, slot)

def Machine.watchedThread (o : PollOutcome) (m : Machine) : Option Nat :=
  m.threads.find? fun lwp => decide (o.dbregsGet lwp = .ok) &&
    (List.range maxWatchpoints).any fun slot =>
      (m.target.dr lwp 6).testBit slot && (m.dbg.watchpoints slot).installed

def pollEvents (o : PollOutcome) (m : Machine) : Status × Machine :=
  if !m.dbg.attached then (.errState, m)
  else
    match o.wait with
    | .nothing => (.ok, m)
    | .failed st => (st, m)
    | .exited =>
      (.errNotFound, { dbg := .zero, target := { m.target with mem := m.target.own, lwps := [] } })
    | .stopped =>
      if m.target.running then (.ok, m)
      else
        match m.stoppedThread o with
        | some (lwp, slot) =>
          if evaluateBpCondition (m.dbg.breakpoints slot) (m.target.regs lwp) then
            (.ok, { m with dbg := { m.dbg with stopped := true, stopLwp := lwp } })
          else
            (.ok, { dbg := { m.dbg with stopped := false, stopLwp := 0 }
                    target := if o.cont = .ok then m.target.resume else m.target })
        | none =>
          (.ok, { m with dbg := { m.dbg with
            stopped := true
            stopLwp := (m.watchedThread o).getD 0 } })

/-! ## Stopping and detaching -/

structure StopPoll where
  runs : List Nat
  halts : Bool
  poll : PollOutcome

def Target.advance (t : Target) (runs : List Nat) (halts : Bool) : Target :=
  if t.running then { t.execAll prog runs with running := !halts } else t

def stopLoop : List StopPoll → Machine → Status × Machine
  | [], m => (.errState, m)
  | o :: rest, m =>
    match pollEvents o.poll { m with target := m.target.advance prog o.runs o.halts } with
    | (.ok, m) =>
      if m.dbg.stopped then (.ok, m)
      else if !m.dbg.attached then (.errState, m)
      else stopLoop rest m
    | (st, m) => (st, m)

structure DetachOutcome where
  stop : Status
  polls : List StopPoll
  write : Nat → Status
  hw : HwOutcome
  detach : Status

def detachStop (o : DetachOutcome) (m : Machine) : Status × Machine :=
  if m.dbg.stopped then (.ok, m)
  else if o.stop ≠ .ok then (o.stop, m)
  else stopLoop prog o.polls m

def restoreEntry (write : Nat → Status) (p : Status × Machine) (i : Nat) : Status × Machine :=
  let bp := p.2.dbg.breakpoints i
  if bp.active && bp.kind = .software then
    let (st, m) := uninstallSwBreakpoint (write i) i p.2
    (if st ≠ .ok ∧ p.1 = .ok then st else p.1, m)
  else p

def clearDbregs (hw : HwOutcome) (m : Machine) : Machine :=
  let m := { m with dbg := { m.dbg with dbregs := fun _ => 0 } }
  if m.dbg.dbregsValid then (applyDbregsToAll false hw m).2 else m

def debuggerDetach (o : DetachOutcome) (m : Machine) : Status × Machine :=
  if !m.dbg.attached then (.errState, m)
  else
    match detachStop prog o m with
    | (.ok, m) =>
      match (List.range maxBreakpoints).foldl (restoreEntry o.write) (.ok, m) with
      | (.ok, m) =>
        if o.detach ≠ .ok then (o.detach, clearDbregs o.hw m)
        else (.ok, { dbg := .zero, target := (clearDbregs o.hw m).target.resume })
      | (st, m) => (st, m)
    | (st, m) => (st, m)

/-! ## Operations -/

inductive Operation where
  | setBreakpoint (address kind condReg condOp : Nat) (condValue : Int) (o : SetOutcome)
  | clearBreakpoint (address : Nat) (write : Status) (hw : HwOutcome)
  | clearAllBreakpoints (write : Nat → Status) (hw : HwOutcome)
  | setWatchpoint (address length type : Nat) (hw : HwOutcome)
  | clearWatchpoint (address : Nat) (hw : HwOutcome)
  | clearAllWatchpoints (hw : HwOutcome)
  | continue (o : ContinueOutcome)
  | step (lwp : Nat) (o : StepOutcome)
  | pollEvents (o : PollOutcome)
  | detach (o : DetachOutcome)

def Operation.serve (m : Machine) : Operation → Status × Machine
  | setBreakpoint address kind condReg condOp condValue o =>
    setBreakpointCond address kind condReg condOp condValue o m
  | clearBreakpoint address write hw => Debug.clearBreakpoint address write hw m
  | clearAllBreakpoints write hw => Debug.clearAllBreakpoints write hw m
  | setWatchpoint address length type hw => Debug.setWatchpoint address length type hw m
  | clearWatchpoint address hw => Debug.clearWatchpoint address hw m
  | clearAllWatchpoints hw => Debug.clearAllWatchpoints hw m
  | .continue o => debuggerContinue prog o m
  | step lwp o => debuggerStep prog lwp o m
  | pollEvents o => Debug.pollEvents o m
  | detach o => debuggerDetach prog o m

end

end MemDbg.Debug
