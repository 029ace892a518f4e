import MemDbg.Debug.Undo
import MemDbg.Lib.LittleEndian

/-!
# Borrowing the debugger

`PROCESS_CALL` and `PROCESS_DUMP` need a stopped target.  They attach the debugger to it unless
it is, and detach it again when they are done.  A call also borrows a thread, the memory below
its stack pointer and a page of the target.
-/

namespace MemDbg.Debug

open List Lib Function

/-! ## All processes -/

structure World where
  pid : Int
  dbg : Dbg
  targets : Int → Target
  pages : List (Int × Nat)

open World

namespace World

def machine (w : World) : Machine := ⟨w.dbg, w.targets w.pid⟩

def put (w : World) (m : Machine) : World where
  pid := if m.dbg.attached then w.pid else 0
  dbg := m.dbg
  targets := update w.targets w.pid m.target
  pages := w.pages

def run (w : World) (f : Machine → Status × Machine) : Status × World :=
  ((f w.machine).1, w.put (f w.machine).2)

def setTarget (w : World) (pid : Int) (t : Target) : World :=
  { w with targets := update w.targets pid t }

def attachTo (w : World) (pid : Int) : World where
  pid := pid
  dbg := .attach
  targets := update w.targets pid { w.targets pid with running := false }
  pages := w.pages

end World

/-! ## Attaching and stopping -/

structure AttachOutcome where
  supported : Bool
  attach : Status

def debuggerAttach (pid : Int) (o : AttachOutcome) (w : World) : Status × World :=
  if !o.supported then (.errUnsupported, w)
  else if pid ≤ 1 then (.errPermission, w)
  else if w.dbg.attached then (if w.pid = pid then .ok else .errState, w)
  else if o.attach ≠ .ok then (o.attach, { w with pid := 0, dbg := .zero })
  else (.ok, w.attachTo pid)

structure StopOutcome where
  poll : PollOutcome
  stop : Status
  polls : List StopPoll

section

variable (prog : Program)

def debuggerStop (o : StopOutcome) (m : Machine) : Status × Machine :=
  if !m.dbg.attached then (.errState, m)
  else if m.dbg.stopped then pollEvents o.poll m
  else if o.stop ≠ .ok then (o.stop, m)
  else stopLoop prog o.polls m

def conditionalAttach (pid : Int) (o : AttachOutcome) (other : DetachOutcome) (w : World) :
    Status × Bool × World :=
  if w.dbg.attached ∧ w.pid = pid then (.ok, false, w)
  else
    let w := if w.dbg.attached then (w.run (debuggerDetach prog other)).2 else w
    let (st, w) := debuggerAttach pid o w
    (st, st = .ok, w)

def World.detachIf (w : World) (need : Bool) (o : DetachOutcome) : World :=
  if need then (w.run (debuggerDetach prog o)).2 else w

/-! ## Dumping a process -/

structure DumpOutcome where
  attach : AttachOutcome
  other : DetachOutcome
  stop : StopOutcome
  poll : PollOutcome
  arena : Bool
  cont : ContinueOutcome
  detach : DetachOutcome
  send : Status

def dumpAttached (need : Bool) (o : DumpOutcome) (w : World) : Status × World :=
  match w.run (debuggerStop prog o.stop) with
  | (.ok, w) =>
    let w := (w.run (pollEvents o.poll)).2
    if !o.arena then (.errNomem, w.detachIf prog need o.detach)
    else (o.send, (w.run (debuggerContinue prog o.cont)).2.detachIf prog need o.detach)
  | (st, w) => (st, w.detachIf prog need o.detach)

def handleProcessDump (bodyLen : Nat) (pid : Int) (o : DumpOutcome) (w : World) :
    Status × World :=
  if bodyLen ≠ 8 then (.errProtocol, w)
  else if pid ≤ 0 then (.errParam, w)
  else
    match conditionalAttach prog pid o.attach o.other w with
    | (.ok, need, w) => dumpAttached prog need o w
    | (st, _, w) => (st, w)

/-! ## Calling a function -/

structure CallRequest where
  pid : Int
  functionAddress : Nat
  args : Nat → Nat

def toInt64 (n : Nat) : Int := (BitVec.ofNat 64 n).toInt

def Regs.rsp (r : Regs) : Nat := (r.gpr 8 % 2 ^ 64).toNat

def Regs.callRsp (r : Regs) : Nat := sub64 (r.rsp / 16 * 16) 8

def Regs.call (r : Regs) (req : CallRequest) : Regs where
  rip := req.functionAddress
  gpr i :=
    match i with
    | 8 => toInt64 r.callRsp
    | 6 => toInt64 (req.args 0)
    | 5 => toInt64 (req.args 1)
    | 4 => toInt64 (req.args 2)
    | 3 => toInt64 (req.args 3)
    | 9 => toInt64 (req.args 4)
    | 10 => toInt64 (req.args 5)
    | _ => r.gpr i

structure CallPoll where
  stores : List (Nat × UInt8)
  poll : StopPoll

structure CallOutcome where
  attach : AttachOutcome
  other : DetachOutcome
  stop : StopOutcome
  threads : Status
  getRegs : Status
  alloc : Status
  stub : Nat
  writeStub : Status
  stubWritten : Nat
  writeReturn : Status
  returnWritten : Nat
  setRegs : Status
  cont : ContinueOutcome
  polls : List CallPoll
  late : StopOutcome
  getResult : Status
  restore : Status
  free : Status
  detach : DetachOutcome
  send : Status

def Target.store (t : Target) (a : Nat) : List UInt8 → Target
  | [] => t
  | b :: rest =>
    Target.store { t with mem := update t.mem a b, own := update t.own a b } (a + 1) rest

def Target.zeroPage (t : Target) (a : Nat) : Target where
  __ := t
  mem := fun b => if a ≤ b ∧ b < a + 4096 then 0 else t.mem b
  own := fun b => if a ≤ b ∧ b < a + 4096 then 0 else t.own b

namespace World

def firstThread (w : World) (st : Status) : Option Nat :=
  if !w.dbg.attached then some 0
  else
    match st with
    | .ok => (w.targets w.pid).lwps.head?
    | .errIo => some w.pid.toNat
    | _ => some 0

def sessionStatus (w : World) (st : Status) : Status := if w.dbg.attached then st else .errState

def setRegs (w : World) (lwp : Nat) (r : Regs) (st : Status) : Status × World :=
  if w.sessionStatus st ≠ .ok then (w.sessionStatus st, w)
  else
    (.ok, w.setTarget w.pid { w.targets w.pid with
      regs := update (w.targets w.pid).regs lwp r
      trapped := update (w.targets w.pid).trapped lwp none })

def alloc (w : World) (pid : Int) (a : Nat) : World :=
  { w.setTarget pid ((w.targets pid).zeroPage a) with pages := (pid, a) :: w.pages }

def writeStub (w : World) (pid : Int) (a written : Nat) : World :=
  if written = 0 then w else w.setTarget pid ((w.targets pid).poke a int3Opcode)

def writeBytes (w : World) (pid : Int) (a : Nat) (bytes : List UInt8) : World :=
  w.setTarget pid ((w.targets pid).store a bytes)

def free (w : World) (pid : Int) (a : Nat) (st : Status) : World :=
  if st ≠ .ok then w else { w with pages := w.pages.erase (pid, a) }

def callPoll (w : World) (pid : Int) (c : CallPoll) : World :=
  let stored := c.stores.foldl (fun t p => t.store p.1 [p.2]) (w.targets pid)
  let w := w.setTarget pid (stored.advance prog c.poll.runs c.poll.halts)
  (w.run (pollEvents c.poll.poll)).2

def callLoop (pid : Int) : List CallPoll → World → World
  | [], w => w
  | c :: rest, w => if w.dbg.stopped then w else callLoop pid rest (w.callPoll prog pid c)

end World

abbrev CallResult := Status × Option Nat × World

def finishCall (pid : Int) (lwp : Nat) (orig : Regs) (need : Bool) (o : CallOutcome) (w : World) :
    CallResult :=
  match w.run (debuggerContinue prog o.cont) with
  | (.ok, w) =>
    let w := w.callLoop prog pid o.polls
    if !w.dbg.stopped then
      let w := (w.run (debuggerStop prog o.late)).2
      let w := ((w.setRegs lwp orig o.restore).2).free pid o.stub o.free
      (.errState, none, w.detachIf prog need o.detach)
    else
      let st := w.sessionStatus o.getResult
      let rax := ((w.targets w.pid).regs lwp).gpr 1
      let w := ((w.setRegs lwp orig o.restore).2).free pid o.stub o.free
      (if o.send ≠ .ok then o.send else st, if st = .ok then some (rax % 2 ^ 64).toNat else none,
        w.detachIf prog need o.detach)
  | (st, w) =>
    let w := ((w.free pid o.stub o.free).setRegs lwp orig o.restore).2
    (st, none, w.detachIf prog need o.detach)

def startCall (req : CallRequest) (lwp : Nat) (need : Bool) (o : CallOutcome) (w : World) :
    CallResult :=
  let orig := (w.targets w.pid).regs lwp
  let w := (w.alloc req.pid o.stub).writeStub req.pid o.stub o.stubWritten
  if o.writeStub ≠ .ok ∨ o.stubWritten ≠ 1 then
    (.errIo, none, (w.free req.pid o.stub o.free).detachIf prog need o.detach)
  else
    let w := w.writeBytes req.pid orig.callRsp ((leBytes 8 o.stub).take o.returnWritten)
    if o.writeReturn ≠ .ok ∨ o.returnWritten ≠ 8 then
      let w := ((w.free req.pid o.stub o.free).setRegs lwp orig o.restore).2
      (.errIo, none, w.detachIf prog need o.detach)
    else
      match w.setRegs lwp (orig.call req) o.setRegs with
      | (.ok, w) => finishCall prog req.pid lwp orig need o w
      | (st, w) => (st, none, (w.free req.pid o.stub o.free).detachIf prog need o.detach)

def callAttached (req : CallRequest) (need : Bool) (o : CallOutcome) (w : World) : CallResult :=
  match w.run (debuggerStop prog o.stop) with
  | (.ok, w) =>
    match w.firstThread o.threads with
    | none => (.errState, none, w.detachIf prog need o.detach)
    | some lwp =>
      if w.sessionStatus o.getRegs ≠ .ok then
        (w.sessionStatus o.getRegs, none, w.detachIf prog need o.detach)
      else if o.alloc ≠ .ok then (.errNomem, none, w.detachIf prog need o.detach)
      else startCall prog req lwp need o w
  | (st, w) => (st, none, w.detachIf prog need o.detach)

def handleProcessCall (daemon : Int) (bodyLen : Nat) (req : CallRequest) (o : CallOutcome)
    (w : World) : CallResult :=
  if bodyLen ≠ 64 then (.errProtocol, none, w)
  else if req.pid ≤ 1 ∨ req.functionAddress = 0 then (.errParam, none, w)
  else if req.pid = daemon then (.errPermission, none, w)
  else
    match conditionalAttach prog req.pid o.attach o.other w with
    | (.ok, need, w) => callAttached prog req need o w
    | (st, _, w) => (st, none, w)

end

/-! ## Traces -/

structure Session where
  pid : Int
  stopped : Bool
  breakpoints : Nat → Option Breakpoint
  watchpoints : Nat → Option Watchpoint

def World.session (w : World) : Option Session :=
  if w.dbg.attached then
    some ⟨w.pid, w.dbg.stopped, fun i => (w.dbg.breakpoints i).entry,
      fun i => (w.dbg.watchpoints i).entry⟩
  else none

def SeesStop : List StopPoll → Prop
  | [] => False
  | o :: rest =>
    (o.halts = true ∧ o.poll.wait = .stopped) ∨ (o.poll.wait = .nothing ∧ SeesStop rest)

structure DetachOutcome.Succeeds (o : DetachOutcome) : Prop where
  stop : o.stop = .ok
  polls : SeesStop o.polls
  write : ∀ i, o.write i = .ok
  detach : o.detach = .ok

/-- A dump leaves no trace, whatever fails but the detach at its end. -/
def DumpTraceless (prog : Program) (pid : Int) (w : World) : Prop :=
  ∀ o : DumpOutcome, o.detach.Succeeds → (handleProcessDump prog 8 pid o w).2.session = w.session

structure CallOutcome.Fair (o : CallOutcome) (rsp : Nat) : Prop where
  restore : o.restore = .ok
  free : o.free = .ok
  detach : o.detach.Succeeds
  quiet : ∀ p ∈ o.stop.polls ++ o.late.polls ++ o.detach.polls, p.runs = []
  stores : ∀ c ∈ o.polls, ∀ p ∈ c.stores, p.1 < rsp

def CallOutcome.Stack (o : CallOutcome) (r : Regs) (a : Nat) : Prop :=
  (r.rsp : Int) - 128 ≤ a ∧ ¬(o.stub ≤ a ∧ a < o.stub + 4096)

/-- A call leaves no trace, whatever fails but what undoes it. -/
def CallTraceless (prog : Program) (daemon : Int) (req : CallRequest) (w : World) : Prop :=
  ∀ (o : CallOutcome) (lwp : Nat), (w.targets req.pid).lwps.head? = some lwp →
    o.Fair ((w.targets req.pid).regs lwp).callRsp →
    let w' := (handleProcessCall prog daemon 64 req o w).2.2
    w'.session = w.session ∧ w'.pages = w.pages ∧
      (w'.targets req.pid).regs lwp = (w.targets req.pid).regs lwp ∧
      ∀ a, o.Stack ((w.targets req.pid).regs lwp) a →
        (w'.targets req.pid).mem a = (w.targets req.pid).mem a

/-! ## Sessions without breakpoints -/

def Machine.Unarmed (m : Machine) : Prop := ∀ i, (m.dbg.breakpoints i).active = false

section

variable {prog : Program} {m m₁ : Machine}

theorem Machine.Unarmed.slotBehind (h : m.Unarmed) (lwp : Nat) : m.slotBehind lwp = none := by
  refine find?_eq_none.mpr fun i _ => ?_
  rw [h i]
  simp

theorem Machine.Unarmed.stoppedThread (h : m.Unarmed) (o : PollOutcome) :
    m.stoppedThread o = none := by
  refine findSome?_eq_none_iff.mpr fun lwp _ => ?_
  rw [h.slotBehind]
  split_ifs
  · rfl
  · rfl

theorem Machine.Unarmed.congr (h : m.Unarmed) (hkept : Kept m m₁) : m₁.Unarmed := by
  intro i
  rw [show m₁.dbg.breakpoints = m.dbg.breakpoints from congrArg Patches.bps hkept.patches]
  exact h i

theorem Machine.unarmed_of_zero (h : m.dbg = .zero) : m.Unarmed := by
  intro i
  rw [h]
  rfl

theorem pollEvents_unarmed (h : m.Unarmed) (o : PollOutcome) : (pollEvents o m).2.Unarmed := by
  by_cases hexit : m.dbg.attached = true ∧ o.wait = .exited
  · exact Machine.unarmed_of_zero (pollEvents_exited hexit).2.dbg
  · exact h.congr (pollEvents_kept hexit)

theorem debuggerStop_unarmed (h : m.Unarmed) (o : StopOutcome) :
    (debuggerStop prog o m).2.Unarmed := by
  rw [debuggerStop]
  split_ifs
  · exact h
  · exact pollEvents_unarmed h o.poll
  · exact h
  · obtain ⟨hkept, hexit⟩ := stopLoop_spec prog o.polls m
    by_cases hseen : ExitSeen prog o.polls m
    · exact Machine.unarmed_of_zero (hexit hseen).2.dbg
    · exact h.congr (hkept hseen)

theorem continueThreads_of_none {o : ContinueOutcome} {lwps : List Nat}
    (h : ∀ lwp ∈ lwps, o.getRegs lwp = .ok → m.slotBehind lwp = none) :
    continueThreads prog o lwps m = (none, m) := by
  induction lwps with
  | nil => rfl
  | cons lwp rest ih =>
    have hrest := ih fun l hl => h l (mem_cons_of_mem _ hl)
    rw [continueThreads]
    split_ifs with hget
    · exact hrest
    · rw [h lwp mem_cons_self (not_not.mp hget)]
      exact hrest

theorem debuggerContinue_unarmed (h : m.Unarmed) (o : ContinueOutcome) :
    (debuggerContinue prog o m).2.Unarmed := by
  have hrearm : (rearm o.hw m).Unarmed := by
    intro i
    rw [show (rearm o.hw m).dbg.breakpoints = m.dbg.breakpoints from
      congrArg Patches.bps (rearm_patches o.hw m)]
    exact h i
  rw [debuggerContinue, continueThreads_of_none fun lwp _ _ => hrearm.slotBehind lwp]
  split_ifs
  · exact h
  · exact hrearm
  · exact hrearm

theorem pollEvents_stops {o : PollOutcome} (hattached : m.dbg.attached = true)
    (hrunning : m.target.running = false) (hwait : o.wait = .stopped)
    (hnone : m.stoppedThread o = none) :
    pollEvents o m = (.ok, { m with dbg := { m.dbg with
      stopped := true, stopLwp := (m.watchedThread o).getD 0 } }) := by
  rw [pollEvents, hattached, hwait, hrunning, hnone]
  rfl

theorem pollEvents_nothing {o : PollOutcome} (hattached : m.dbg.attached = true)
    (hwait : o.wait = .nothing) : pollEvents o m = (.ok, m) := by
  rw [pollEvents, hattached, hwait]
  rfl

theorem running_advance (t : Target) (runs : List Nat) :
    (t.advance prog runs true).running = false := by
  rw [Target.advance]
  split_ifs with hrunning
  · rfl
  · exact Bool.eq_false_iff.mpr hrunning

theorem stopLoop_of_seesStop (h : m.Unarmed) (hattached : m.dbg.attached = true)
    {polls : List StopPoll} (hsees : SeesStop polls) :
    ∃ m₁, stopLoop prog polls m = (.ok, m₁) ∧ m₁.Unarmed := by
  induction polls generalizing m with
  | nil => exact hsees.elim
  | cons o rest ih =>
    rw [stopLoop]
    rcases hsees with ⟨hhalts, hwait⟩ | ⟨hwait, hrest⟩
    · have hrunning := @running_advance prog m.target o.runs
      rw [hhalts]
      generalize m.target.advance prog o.runs true = t at hrunning
      have hu : (⟨m.dbg, t⟩ : Machine).Unarmed := h
      rw [pollEvents_stops (m := ⟨m.dbg, t⟩) hattached hrunning hwait (hu.stoppedThread o.poll)]
      dsimp only
      rw [if_pos rfl]
      exact ⟨_, rfl, h⟩
    · generalize m.target.advance prog o.runs o.halts = t
      have hu : (⟨m.dbg, t⟩ : Machine).Unarmed := h
      rw [pollEvents_nothing (m := ⟨m.dbg, t⟩) hattached hwait]
      dsimp only
      rw [hattached, Bool.not_true, if_neg Bool.false_ne_true]
      split_ifs
      · exact ⟨_, rfl, hu⟩
      · exact ih hu hattached hrest

theorem debuggerDetach_of_stop {o : DetachOutcome} (hattached : m.dbg.attached = true)
    (hstop : detachStop prog o m = (.ok, m₁)) (hwrite : ∀ i, o.write i = .ok)
    (hdetach : o.detach = .ok) :
    (debuggerDetach prog o m).2.dbg = .zero ∧
      (m₁.Unarmed → (debuggerDetach prog o m).2.target.mem = m₁.target.mem) := by
  have htaken := restoreEntries_taken o.write m₁ (le_refl maxBreakpoints)
  rw [debuggerDetach, hattached, hstop, Bool.not_true, if_neg Bool.false_ne_true]
  dsimp only
  generalize (List.range maxBreakpoints).foldl (restoreEntry o.write) (.ok, m₁) = p at htaken ⊢
  have hok := htaken.status.mpr fun i _ _ => hwrite i
  have hmem := htaken.mem
  obtain ⟨st, m₂⟩ := p
  subst hok
  rw [hdetach]
  refine ⟨rfl, fun h => ?_⟩
  have hclear : (clearDbregs o.hw m₂).target.mem = m₂.target.mem :=
    congrArg Patches.mem (patches_clearDbregs o.hw m₂)
  refine hclear.trans (hmem fun i _ hheld => ?_)
  cases (h i).symm.trans hheld.2.1.1

theorem debuggerDetach_unarmed (h : m.Unarmed) {o : DetachOutcome} (ho : o.Succeeds) :
    (debuggerDetach prog o m).2.dbg.attached = false := by
  cases hattached : m.dbg.attached with
  | false =>
    rw [debuggerDetach, hattached]
    exact hattached
  | true =>
    have hstop : ∃ m₁, detachStop prog o m = (.ok, m₁) ∧ m₁.Unarmed := by
      rw [detachStop, ho.stop]
      split_ifs
      · exact ⟨m, rfl, h⟩
      · exact absurd rfl ‹_›
      · exact stopLoop_of_seesStop h hattached ho.polls
    obtain ⟨m₁, hstop, -⟩ := hstop
    rw [(debuggerDetach_of_stop hattached hstop ho.write ho.detach).1]
    rfl

/-! ## Dumps -/

variable {w w₁ : World} {pid : Int}

theorem World.session_eq_none : w.session = none ↔ w.dbg.attached = false := by
  rw [session]
  cases w.dbg.attached <;> simp

theorem World.session_eq (h : w₁.session = w.session) (hattached : w.dbg.attached = true) :
    w₁.dbg.attached = true ∧ w₁.dbg.stopped = w.dbg.stopped := by
  rw [session, session, hattached, if_pos rfl] at h
  split_ifs at h with hattached₁
  exact ⟨hattached₁, congrArg Session.stopped (Option.some.inj h)⟩

theorem debuggerAttach_of_detached (h : w.dbg.attached = false) (o : AttachOutcome) :
    debuggerAttach pid o w = (.ok, w.attachTo pid) ∨
      (debuggerAttach pid o w).1 ≠ .ok ∧ (debuggerAttach pid o w).2.dbg.attached = false := by
  have hno : ¬w.dbg.attached = true := Bool.eq_false_iff.mp h
  rw [debuggerAttach, if_neg hno]
  split_ifs with _ _ hattach
  · exact .inr ⟨nofun, h⟩
  · exact .inr ⟨nofun, h⟩
  · exact .inr ⟨hattach, rfl⟩
  · exact .inl rfl

theorem conditionalAttach_of_detached (h : w.dbg.attached = false) (o : AttachOutcome)
    (other : DetachOutcome) :
    conditionalAttach prog pid o other w =
      ((debuggerAttach pid o w).1, decide ((debuggerAttach pid o w).1 = .ok),
        (debuggerAttach pid o w).2) := by
  have hno : ¬w.dbg.attached = true := Bool.eq_false_iff.mp h
  rw [conditionalAttach, if_neg fun h => hno h.1, if_neg hno]

theorem handleProcessDump_of_attach {o : DumpOutcome} {need : Bool} (hpid : 0 < pid)
    (h : conditionalAttach prog pid o.attach o.other w = (.ok, need, w₁)) :
    handleProcessDump prog 8 pid o w = dumpAttached prog need o w₁ := by
  rw [handleProcessDump, if_neg (not_not_intro rfl), if_neg (not_le.mpr hpid), h]

theorem handleProcessDump_of_fail {o : DumpOutcome} {need : Bool} {st : Status} (hpid : 0 < pid)
    (h : conditionalAttach prog pid o.attach o.other w = (st, need, w₁)) (hst : st ≠ .ok) :
    handleProcessDump prog 8 pid o w = (st, w₁) := by
  rw [handleProcessDump, if_neg (not_not_intro rfl), if_neg (not_le.mpr hpid), h]
  cases st
  all_goals first | exact absurd rfl hst | rfl

theorem dumpAttached_true (h : w.machine.Unarmed) {o : DumpOutcome} (ho : o.detach.Succeeds) :
    (dumpAttached prog true o w).2.dbg.attached = false := by
  have hend {w : World} (hw : w.machine.Unarmed) :
      (w.detachIf prog true o.detach).dbg.attached = false :=
    debuggerDetach_unarmed hw ho
  have hstop := @debuggerStop_unarmed prog _ h o.stop
  rw [dumpAttached]
  dsimp only [run]
  generalize debuggerStop prog o.stop w.machine = r at hstop ⊢
  obtain ⟨st, m₁⟩ := r
  by_cases hst : st = .ok
  · subst hst
    have hpoll := pollEvents_unarmed (m := (w.put m₁).machine) hstop o.poll
    cases o.arena with
    | false => exact hend hpoll
    | true => exact hend (debuggerContinue_unarmed (m := (put _ _).machine) hpoll o.cont)
  · cases st
    all_goals first | exact absurd rfl hst | exact hend hstop

theorem handleProcessDump_of_detached (h : w.dbg.attached = false) {o : DumpOutcome}
    (hpid : 0 < pid) (ho : o.detach.Succeeds) :
    (handleProcessDump prog 8 pid o w).2.dbg.attached = false := by
  have hattach := @conditionalAttach_of_detached prog w pid h o.attach o.other
  rcases @debuggerAttach_of_detached w pid h o.attach with heq | ⟨hst, hdetached⟩
  · rw [heq] at hattach
    rw [handleProcessDump_of_attach hpid hattach]
    exact dumpAttached_true (fun _ => rfl) ho
  · rw [handleProcessDump_of_fail hpid hattach hst]
    exact hdetached

/-! ## Outcomes that leave a trace -/

def haltPoll : StopPoll := ⟨[], true, ⟨.stopped, fun _ => .errIo, fun _ => .errIo, .ok⟩⟩

def StopOutcome.plain : StopOutcome :=
  ⟨⟨.nothing, fun _ => .errIo, fun _ => .errIo, .ok⟩, .ok, [haltPoll]⟩

def DetachOutcome.plain : DetachOutcome := ⟨.ok, [haltPoll], fun _ => .ok, .fine, .ok⟩

def ContinueOutcome.plain : ContinueOutcome :=
  ⟨.fine, fun _ => .errIo,
    fun _ => ⟨.ok, .ok, .ok, .ok, .ok, .ok, [], true, true, .ok, .ok, .ok, 0⟩, .ok⟩

def DumpOutcome.plain (arena : Bool) : DumpOutcome where
  attach := ⟨true, .errPermission⟩
  other := .plain
  stop := .plain
  poll := ⟨.nothing, fun _ => .errIo, fun _ => .errIo, .ok⟩
  arena := arena
  cont := .plain
  detach := .plain
  send := .ok

theorem DetachOutcome.succeeds_plain : DetachOutcome.plain.Succeeds :=
  ⟨rfl, .inl ⟨rfl, rfl⟩, fun _ => rfl, rfl⟩

theorem World.put_machine (h : w.dbg.attached = true) : w.put w.machine = w := by
  rw [put, machine, h, if_pos rfl, update_eq_self]

theorem stopLoop_halt (h : m.dbg.attached = true) :
    ∃ m₁, stopLoop prog [haltPoll] m = (.ok, m₁) ∧ m₁.dbg.stopped = true ∧
      m₁.dbg.attached = true := by
  have hrunning := @running_advance prog m.target []
  have hnone : Machine.stoppedThread haltPoll.poll
      ⟨m.dbg, m.target.advance prog haltPoll.runs haltPoll.halts⟩ = none :=
    findSome?_eq_none_iff.mpr fun _ _ => rfl
  rw [stopLoop, pollEvents_stops
    (m := ⟨m.dbg, m.target.advance prog haltPoll.runs haltPoll.halts⟩) h hrunning rfl hnone]
  exact ⟨_, rfl, rfl, h⟩

theorem debuggerStop_plain (h : m.dbg.attached = true) :
    ∃ m₁, debuggerStop prog .plain m = (.ok, m₁) ∧ m₁.dbg.stopped = true ∧
      m₁.dbg.attached = true ∧ (m.dbg.stopped = true → m₁ = m) := by
  rw [debuggerStop, h, Bool.not_true, if_neg Bool.false_ne_true]
  by_cases hstopped : m.dbg.stopped = true
  · rw [if_pos hstopped, pollEvents_nothing h rfl]
    exact ⟨m, rfl, hstopped, h, fun _ => rfl⟩
  · obtain ⟨m₁, heq, hstopped₁, hattached₁⟩ := @stopLoop_halt prog m h
    rw [if_neg hstopped, if_neg (show ¬StopOutcome.plain.stop ≠ .ok from not_not_intro rfl)]
    exact ⟨m₁, heq, hstopped₁, hattached₁, fun h => absurd h hstopped⟩

theorem debuggerDetach_plain (h : m.dbg.attached = true) :
    (debuggerDetach prog .plain m).2.dbg = .zero := by
  have hstop : ∃ m₁, detachStop prog .plain m = (.ok, m₁) := by
    obtain ⟨m₁, heq, -⟩ := @stopLoop_halt prog m h
    rw [detachStop]
    split_ifs with hstopped hno
    · exact ⟨m, rfl⟩
    · exact absurd rfl hno
    · exact ⟨m₁, heq⟩
  obtain ⟨m₁, hstop⟩ := hstop
  exact (debuggerDetach_of_stop h hstop (fun _ => rfl) rfl).1

theorem debuggerContinue_plain (h : m.dbg.attached = true) :
    (debuggerContinue prog .plain m).2.dbg.stopped = false := by
  rw [debuggerContinue, h, Bool.not_true, if_neg Bool.false_ne_true,
    continueThreads_of_none (fun _ _ (hget : Status.errIo = .ok) => by cases hget)]
  rfl

theorem conditionalAttach_refused (h : w.dbg.attached = true) (hne : w.pid ≠ pid)
    (hpid : 1 < pid) : ∃ w₁, conditionalAttach prog pid ⟨true, .errPermission⟩ .plain w =
      (.errPermission, false, w₁) ∧ w₁.dbg.attached = false := by
  have hgone : (w.run (debuggerDetach prog .plain)).2.dbg = .zero :=
    debuggerDetach_plain (m := w.machine) h
  rw [conditionalAttach, if_neg fun hsame => hne hsame.2, if_pos h]
  generalize (w.run (debuggerDetach prog .plain)).2 = w₂ at hgone
  have hno : ¬w₂.dbg.attached = true := by
    rw [hgone]
    exact Bool.false_ne_true
  have hattach : debuggerAttach pid ⟨true, .errPermission⟩ w₂ =
      (.errPermission, { w₂ with pid := 0, dbg := .zero }) := by
    rw [debuggerAttach, Bool.not_true, if_neg Bool.false_ne_true, if_neg (not_le.mpr hpid),
      if_neg hno]
    rfl
  dsimp only
  rw [hattach]
  exact ⟨_, rfl, rfl⟩

theorem conditionalAttach_same (h : w.dbg.attached = true) (hsame : w.pid = pid)
    (o : AttachOutcome) (other : DetachOutcome) :
    conditionalAttach prog pid o other w = (.ok, false, w) := by
  rw [conditionalAttach, if_pos ⟨h, hsame⟩]

theorem not_dumpTraceless (hpid : 1 < pid) (h : w.dbg.attached = true) :
    ¬DumpTraceless prog pid w := by
  intro htraceless
  have hpos : 0 < pid := Int.lt_trans Int.zero_lt_one hpid
  have hsame (arena : Bool) := session_eq
    (htraceless (.plain arena) DetachOutcome.succeeds_plain) h
  by_cases hpid' : w.pid = pid
  · obtain ⟨m₁, hstop, hstopped₁, hattached₁, hm₁⟩ := @debuggerStop_plain prog w.machine h
    have hrun : w.run (debuggerStop prog .plain) = (.ok, w.put m₁) := by
      rw [run, hstop]
    have hpoll (arena : Bool) :
        ((w.put m₁).run (pollEvents (DumpOutcome.plain arena).poll)).2 = w.put m₁ := by
      rw [run, pollEvents_nothing (m := (w.put m₁).machine) hattached₁ rfl]
      exact put_machine hattached₁
    have heq (arena : Bool) := @handleProcessDump_of_attach prog w w pid (.plain arena) false hpos
      (conditionalAttach_same h hpid' _ _)
    cases hstopped : w.dbg.stopped with
    | true =>
      -- the target of the client is resumed
      have hafter := (hsame true).2
      rw [heq, dumpAttached, show (DumpOutcome.plain true).stop = .plain from rfl, hrun] at hafter
      dsimp only at hafter
      rw [hpoll, hstopped] at hafter
      cases hafter.symm.trans (@debuggerContinue_plain prog (w.put m₁).machine hattached₁)
    | false =>
      -- it is stopped and stays so
      have hafter := (hsame false).2
      rw [heq, dumpAttached, show (DumpOutcome.plain false).stop = .plain from rfl, hrun] at hafter
      dsimp only at hafter
      rw [hpoll, hstopped] at hafter
      cases hafter.symm.trans hstopped₁
  · obtain ⟨w₁, hrefused, hdetached⟩ := @conditionalAttach_refused prog w pid h hpid' hpid
    have hattached := (hsame true).1
    rw [handleProcessDump_of_fail (o := .plain true) hpos hrefused nofun] at hattached
    cases hdetached.symm.trans hattached

theorem dumpTraceless_iff (hpid : 1 < pid) :
    DumpTraceless prog pid w ↔ w.dbg.attached = false := by
  constructor
  · intro htraceless
    by_contra h
    exact not_dumpTraceless hpid (Bool.not_eq_false _ ▸ h) htraceless
  · intro h o ho
    rw [session_eq_none.mpr h, session_eq_none]
    exact handleProcessDump_of_detached h (Int.lt_trans Int.zero_lt_one hpid) ho

/-! ## Calls -/

def CallOutcome.plain (attach getRegs : Status) (stub : Nat) : CallOutcome where
  attach := ⟨true, attach⟩
  other := .plain
  stop := .plain
  threads := .ok
  getRegs := getRegs
  alloc := .ok
  stub := stub
  writeStub := .ok
  stubWritten := 1
  writeReturn := .ok
  returnWritten := 8
  setRegs := .errIo
  cont := .plain
  polls := []
  late := .plain
  getResult := .ok
  restore := .ok
  free := .ok
  detach := .plain
  send := .ok

theorem CallOutcome.fair_plain (attach getRegs : Status) (stub rsp : Nat) :
    (CallOutcome.plain attach getRegs stub).Fair rsp := by
  refine ⟨rfl, rfl, DetachOutcome.succeeds_plain, fun p hp => ?_, nofun⟩
  have hp : p ∈ [haltPoll] ++ [haltPoll] ++ [haltPoll] := hp
  simp only [cons_append, nil_append, mem_cons, not_mem_nil, or_false,
    or_self] at hp
  rw [hp]
  rfl

theorem mem_store (bytes : List UInt8) (t : Target) (a : Nat) :
    (∀ x < a, (t.store a bytes).mem x = t.mem x) ∧
      ∀ k < bytes.length, bytes[k]? = some ((t.store a bytes).mem (a + k)) := by
  induction bytes generalizing t a with
  | nil => exact ⟨fun _ _ => rfl, nofun⟩
  | cons b rest ih =>
    rw [Target.store]
    obtain ⟨hbelow, hbytes⟩ :=
      ih { t with mem := update t.mem a b, own := update t.own a b } (a + 1)
    refine ⟨fun x hx => ?_, fun k hk => ?_⟩
    · rw [hbelow x (Nat.lt_succ_of_lt hx)]
      exact update_of_ne (Nat.ne_of_lt hx) ..
    · cases k with
      | zero =>
        have hself := (hbelow a (Nat.lt_succ_self a)).trans (update_self ..)
        exact congrArg some hself.symm
      | succ k =>
        rw [Nat.add_comm k 1, ← Nat.add_assoc, ← hbytes k (Nat.lt_of_succ_lt_succ hk),
          Nat.add_comm 1 k, getElem?_cons_succ]

theorem exists_stub (b : UInt8) (x : Nat) : ∃ stub, (leBytes 8 stub)[2]? ≠ some b ∧
    ¬(stub ≤ x ∧ x < stub + 4096) := by
  have hbytes : (leBytes 8 0x10000)[2]? = some 1 ∧ (leBytes 8 0x20000)[2]? = some 2 ∧
      (leBytes 8 0x30000)[2]? = some 3 := by decide
  obtain ⟨h₁, h₂, h₃⟩ := hbytes
  by_contra h
  push Not at h
  have hfirst := h 0x10000
  have hsecond := h 0x20000
  have hthird := h 0x30000
  rw [h₁] at hfirst
  rw [h₂] at hsecond
  rw [h₃] at hthird
  -- one of the three pages has the byte, and one the address
  by_cases hb : b = 1
  · subst hb
    have hx := hsecond (by decide)
    have hx' := hthird (by decide)
    omega
  · have hx := hfirst fun heq => hb (Option.some.inj heq).symm
    by_cases hb' : b = 2
    · subst hb'
      have hx' := hthird (by decide)
      omega
    · have hx' := hsecond fun heq => hb' (Option.some.inj heq).symm
      omega

theorem Regs.callRsp_add_two (r : Regs) : (r.rsp : Int) - 128 ≤ (r.callRsp + 2 : Nat) := by
  have hrsp : r.rsp < 2 ^ 64 := by
    rw [Regs.rsp]
    omega
  rw [Regs.callRsp, sub64]
  omega

variable {req : CallRequest} {lwp : Nat}

def World.prepared (w : World) (pid : Int) (lwp stub : Nat) : World :=
  ((w.alloc pid stub).writeStub pid stub 1).writeBytes pid ((w.targets w.pid).regs lwp).callRsp
    (leBytes 8 stub)

theorem startCall_of_fail (h : w.dbg.attached = true) (need : Bool) {o : CallOutcome}
    (hstub : o.writeStub = .ok ∧ o.stubWritten = 1)
    (hreturn : o.writeReturn = .ok ∧ o.returnWritten = 8) (hset : o.setRegs ≠ .ok) :
    startCall prog req lwp need o w =
      (o.setRegs, none, ((w.prepared req.pid lwp o.stub).free req.pid o.stub o.free).detachIf prog
        need o.detach) := by
  have htake : (leBytes 8 o.stub).take 8 = leBytes 8 o.stub :=
    take_of_length_le (Nat.le_of_eq (length_leBytes 8 o.stub))
  have hfail (r : Regs) : (w.prepared req.pid lwp o.stub).setRegs lwp r o.setRegs =
      (o.setRegs, w.prepared req.pid lwp o.stub) := by
    have hst : (w.prepared req.pid lwp o.stub).sessionStatus o.setRegs = o.setRegs := if_pos h
    rw [setRegs, hst, if_pos hset]
  rw [startCall, hstub.1, hstub.2, hreturn.1, hreturn.2, htake]
  rw [if_neg (by decide), if_neg (by decide), ← prepared, hfail]
  cases hst : o.setRegs
  all_goals first | exact absurd hst hset | rfl

theorem targets_prepared (hpid : w.pid = req.pid) (stub : Nat) :
    (w.prepared req.pid lwp stub).targets req.pid =
      (((w.alloc req.pid stub).writeStub req.pid stub 1).targets req.pid).store
        ((w.targets req.pid).regs lwp).callRsp (leBytes 8 stub) := by
  rw [prepared, hpid]
  exact update_self ..

theorem mem_detachIf (need : Bool) {o : DetachOutcome} (h : w.dbg.attached = true)
    (hneed : need = true → w.dbg.stopped = true ∧ w.machine.Unarmed ∧ o.Succeeds) :
    ((w.detachIf prog need o).targets w.pid).mem = (w.targets w.pid).mem := by
  cases need with
  | false => rfl
  | true =>
    obtain ⟨hstopped, hunarmed, ho⟩ := hneed rfl
    have hstop : detachStop prog o w.machine = (.ok, w.machine) := if_pos hstopped
    have hmem := (debuggerDetach_of_stop (m := w.machine) h hstop ho.write ho.detach).2 hunarmed
    have htarget : (w.detachIf prog true o).targets w.pid =
        (debuggerDetach prog o w.machine).2.target := update_self ..
    rw [htarget]
    exact hmem

theorem World.free_eq (w : World) (p : Int) (a : Nat) (st : Status) :
    (w.free p a st).targets = w.targets ∧ (w.free p a st).dbg = w.dbg ∧
      (w.free p a st).pid = w.pid := by
  rw [free]
  split_ifs
  · exact ⟨rfl, rfl, rfl⟩
  · exact ⟨rfl, rfl, rfl⟩

theorem mem_startCall (need : Bool) {o : CallOutcome} (h : w.dbg.attached = true)
    (hpid : w.pid = req.pid) (hneed : need = true → w.dbg.stopped = true ∧ w.machine.Unarmed)
    (hstub : o.writeStub = .ok ∧ o.stubWritten = 1)
    (hreturn : o.writeReturn = .ok ∧ o.returnWritten = 8) (hset : o.setRegs ≠ .ok)
    (hdetach : o.detach.Succeeds) :
    (leBytes 8 o.stub)[2]? =
      some (((startCall prog req lwp need o w).2.2.targets req.pid).mem
        (((w.targets req.pid).regs lwp).callRsp + 2)) := by
  have hwritten := (mem_store (leBytes 8 o.stub)
    (((w.alloc req.pid o.stub).writeStub req.pid o.stub 1).targets req.pid)
    ((w.targets req.pid).regs lwp).callRsp).2 2 (by rw [length_leBytes]; decide)
  rw [← targets_prepared hpid] at hwritten
  rw [startCall_of_fail h need hstub hreturn hset, hwritten]
  obtain ⟨htargets, hdbg, hpid'⟩ :=
    (w.prepared req.pid lwp o.stub).free_eq req.pid o.stub o.free
  generalize (w.prepared req.pid lwp o.stub).free req.pid o.stub o.free = w₁
    at htargets hdbg hpid' ⊢
  have hdbg' : w₁.dbg = w.dbg := hdbg
  have hsame : w₁.pid = req.pid := Eq.trans hpid' hpid
  have hmem := @mem_detachIf prog w₁ need o.detach (by rw [hdbg']; exact h) fun htrue => by
    obtain ⟨hstopped, hunarmed⟩ := hneed htrue
    refine ⟨by rw [hdbg']; exact hstopped, fun i => ?_, hdetach⟩
    rw [machine, hdbg']
    exact hunarmed i
  rw [hsame] at hmem
  rw [hmem, htargets]

theorem callAttached_of_stopped {need : Bool} {o : CallOutcome} (h : w.dbg.attached = true)
    (hstop : debuggerStop prog o.stop w.machine = (.ok, w.machine))
    (hthreads : o.threads = .ok) (hlwp : (w.targets w.pid).lwps.head? = some lwp)
    (hget : o.getRegs = .ok) (halloc : o.alloc = .ok) :
    callAttached prog req need o w = startCall prog req lwp need o w := by
  have hrun : w.run (debuggerStop prog o.stop) = (.ok, w) := by
    rw [run, hstop, put_machine h]
  have hfirst : w.firstThread o.threads = some lwp := by
    rw [hthreads, firstThread, h]
    exact hlwp
  have hst : w.sessionStatus o.getRegs = .ok := by
    rw [sessionStatus, if_pos h, hget]
  rw [callAttached, hrun]
  dsimp only
  rw [hfirst]
  rw [hst, halloc]
  rfl

theorem callAttached_of_unread {o : CallOutcome}
    (hrun : w.run (debuggerStop prog o.stop) = (.ok, w₁)) (hget : o.getRegs ≠ .ok) :
    (callAttached prog req false o w).2.2 = w₁ := by
  have hst : w₁.sessionStatus o.getRegs ≠ .ok := by
    rw [sessionStatus]
    split_ifs
    · exact hget
    · exact nofun
  rw [callAttached, hrun]
  dsimp only
  cases w₁.firstThread o.threads with
  | none => rfl
  | some lwp =>
    dsimp only
    rw [if_pos hst]
    rfl

theorem handleProcessCall_of_attach {daemon : Int} {o : CallOutcome} {need : Bool}
    (hpid : 1 < req.pid) (hfunction : req.functionAddress ≠ 0) (hdaemon : req.pid ≠ daemon)
    (h : conditionalAttach prog req.pid o.attach o.other w = (.ok, need, w₁)) :
    handleProcessCall prog daemon 64 req o w = callAttached prog req need o w₁ := by
  rw [handleProcessCall, if_neg (not_not_intro rfl),
    if_neg (not_or.mpr ⟨not_le.mpr hpid, hfunction⟩), if_neg hdaemon, h]

theorem handleProcessCall_of_fail {daemon : Int} {o : CallOutcome} {need : Bool} {st : Status}
    (hpid : 1 < req.pid) (hfunction : req.functionAddress ≠ 0) (hdaemon : req.pid ≠ daemon)
    (h : conditionalAttach prog req.pid o.attach o.other w = (st, need, w₁)) (hst : st ≠ .ok) :
    handleProcessCall prog daemon 64 req o w = (st, none, w₁) := by
  rw [handleProcessCall, if_neg (not_not_intro rfl),
    if_neg (not_or.mpr ⟨not_le.mpr hpid, hfunction⟩), if_neg hdaemon, h]
  cases st
  all_goals first | exact absurd rfl hst | rfl

theorem not_callTraceless_of_attach {daemon : Int} {need : Bool} (hpid : 1 < req.pid)
    (hfunction : req.functionAddress ≠ 0) (hdaemon : req.pid ≠ daemon)
    (hattach : conditionalAttach prog req.pid ⟨true, .ok⟩ .plain w = (.ok, need, w₁))
    (h : w₁.dbg.attached = true) (hsame : w₁.pid = req.pid) (hstopped : w₁.dbg.stopped = true)
    (hneed : need = true → w₁.machine.Unarmed)
    (hlwps : (w₁.targets req.pid).lwps = (w.targets req.pid).lwps)
    (hregs : (w₁.targets req.pid).regs = (w.targets req.pid).regs)
    (hlwp : (w.targets req.pid).lwps.head? = some lwp) :
    ¬CallTraceless prog daemon req w := by
  intro htraceless
  obtain ⟨stub, hbyte, hpage⟩ := exists_stub
    ((w.targets req.pid).mem (((w.targets req.pid).regs lwp).callRsp + 2))
    (((w.targets req.pid).regs lwp).callRsp + 2)
  obtain ⟨m₁, hstop, -, -, hm₁⟩ := @debuggerStop_plain prog w₁.machine h
  have hstop' : debuggerStop prog .plain w₁.machine = (.ok, w₁.machine) := by
    rw [hstop, hm₁ hstopped]
  have hsame' := (htraceless (.plain .ok .ok stub) lwp hlwp (CallOutcome.fair_plain ..)).2.2.2
    _ ⟨Regs.callRsp_add_two _, hpage⟩
  rw [handleProcessCall_of_attach (o := .plain .ok .ok stub) hpid hfunction hdaemon hattach,
    callAttached_of_stopped (o := .plain .ok .ok stub) h hstop' rfl
      (by rw [hsame, hlwps]; exact hlwp) rfl rfl] at hsame'
  have hwritten := @mem_startCall prog w₁ req lwp need (.plain .ok .ok stub) h hsame
    (fun htrue => ⟨hstopped, hneed htrue⟩) ⟨rfl, rfl⟩ ⟨rfl, rfl⟩ nofun
    DetachOutcome.succeeds_plain
  rw [hregs, hsame'] at hwritten
  exact hbyte hwritten

theorem not_callTraceless {daemon : Int} (hpid : 1 < req.pid) (hfunction : req.functionAddress ≠ 0)
    (hdaemon : req.pid ≠ daemon) (hlwps : (w.targets req.pid).lwps ≠ []) :
    ¬CallTraceless prog daemon req w := by
  obtain ⟨lwp, hlwp⟩ : ∃ lwp, (w.targets req.pid).lwps.head? = some lwp := by
    rw [← Option.isSome_iff_exists, isSome_head?]
    exact hlwps
  cases hattached : w.dbg.attached with
  | false =>
    have hattach : debuggerAttach req.pid ⟨true, .ok⟩ w = (.ok, w.attachTo req.pid) := by
      rw [debuggerAttach, Bool.not_true, if_neg Bool.false_ne_true, if_neg (not_le.mpr hpid),
        if_neg (Bool.eq_false_iff.mp hattached)]
      rfl
    have hcond := @conditionalAttach_of_detached prog w req.pid hattached ⟨true, .ok⟩ .plain
    rw [hattach] at hcond
    have htarget : (w.attachTo req.pid).targets req.pid =
        { w.targets req.pid with running := false } := update_self ..
    exact not_callTraceless_of_attach hpid hfunction hdaemon hcond rfl rfl rfl
      (fun _ _ => rfl) (by rw [htarget]) (by rw [htarget]) hlwp
  | true =>
    by_cases hsame : w.pid = req.pid
    · cases hstopped : w.dbg.stopped with
      | true =>
        exact not_callTraceless_of_attach hpid hfunction hdaemon
          (conditionalAttach_same hattached hsame _ _) hattached hsame hstopped nofun rfl rfl
          hlwp
      | false =>
        intro htraceless
        obtain ⟨m₁, hstop, hstopped₁, -⟩ := @debuggerStop_plain prog w.machine hattached
        have hrun : w.run (debuggerStop prog .plain) = (.ok, w.put m₁) := by
          rw [run, hstop]
        have hsession := session_eq (htraceless (.plain .ok .errIo 0) lwp hlwp
          (CallOutcome.fair_plain ..)).1 hattached
        rw [handleProcessCall_of_attach (o := .plain .ok .errIo 0) hpid hfunction hdaemon
          (conditionalAttach_same hattached hsame _ _),
          callAttached_of_unread (o := .plain .ok .errIo 0) hrun nofun, hstopped] at hsession
        cases hsession.2.symm.trans hstopped₁
    · intro htraceless
      obtain ⟨w₁, hrefused, hdetached⟩ :=
        @conditionalAttach_refused prog w req.pid hattached hsame hpid
      have hsession := (htraceless (.plain .errPermission .ok 0) lwp hlwp
        (CallOutcome.fair_plain ..)).1
      rw [handleProcessCall_of_fail (o := .plain .errPermission .ok 0) hpid hfunction hdaemon
        hrefused nofun, session_eq_none.mpr hdetached] at hsession
      cases hattached.symm.trans (session_eq_none.mp hsession.symm)

/-- There is no state that every call leaves as it was, and a dump leaves every session as it
was exactly if there is none. -/
theorem call_dump_traceless_iff (prog : Program) (daemon : Int) (req : CallRequest) (w : World)
    (hpid : 1 < req.pid) (hfunction : req.functionAddress ≠ 0) (hdaemon : req.pid ≠ daemon)
    (hlwps : (w.targets req.pid).lwps ≠ []) :
    ¬CallTraceless prog daemon req w ∧
      (DumpTraceless prog req.pid w ↔ w.dbg.attached = false) :=
  ⟨not_callTraceless hpid hfunction hdaemon hlwps, dumpTraceless_iff hpid⟩

end

def World.idle : World where
  pid := 0
  dbg := .zero
  targets _ :=
    { Target.idle [1] with regs := fun _ => ⟨0x5000, fun i => if i = 8 then 0x8000 else 0⟩ }
  pages := []

def plainCall : CallRequest := ⟨7, 0x4000, fun _ => 0⟩

theorem call_dump_traceless_iff_idle :
    ¬CallTraceless (fun _ _ r => r) 2 plainCall .idle ∧
      (DumpTraceless (fun _ _ r => r) 7 .idle ↔ idle.dbg.attached = false) :=
  call_dump_traceless_iff (fun _ _ r => r) 2 plainCall .idle (by decide) (by decide) (by decide)
    (by decide)

def returnsAtOnce : Program := fun _ _ r =>
  { rip := 0x10000, gpr := update r.gpr 8 (r.gpr 8 + 8) }

def CallOutcome.returned : CallOutcome :=
  { CallOutcome.plain .ok .ok 0x10000 with
    setRegs := .ok
    polls := [⟨[], [1, 1], true, ⟨.stopped, fun _ => .ok, fun _ => .ok, .ok⟩⟩] }

theorem returned_leaves_address : ¬∀ (prog : Program) (daemon : Int) (req : CallRequest)
    (w : World), 1 < req.pid → req.functionAddress ≠ 0 → req.pid ≠ daemon →
      (w.targets req.pid).lwps ≠ [] →
        CallTraceless prog daemon req w ∧ DumpTraceless prog req.pid w := by
  intro h
  have htraceless := (h returnsAtOnce 2 plainCall .idle (by decide) (by decide) (by decide)
    (by decide)).1 .returned 1 rfl ⟨rfl, rfl, DetachOutcome.succeeds_plain, ?_, ?_⟩
  · have hword := htraceless.2.2.2 0x7FFA ⟨by decide, by decide⟩
    revert hword
    decide
  · decide
  · decide

end MemDbg.Debug
