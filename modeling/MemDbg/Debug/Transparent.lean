import MemDbg.Debug.InStep

/-!
# Transparent breakpoints

The instruction pointer of a thread that sits on a breakpoint is repaired only by a step
over it.  A request leaves the program alone if every thread that it lets go on is where
the program has it, and if it moves back no other thread.
-/

namespace MemDbg.Debug

open Lib Function

/-! ## When requests leave the program alone -/

section

variable (prog : Program)

structure StepApt (lwp : Nat) (m : Machine) : Prop where
  alone : ∀ l ∈ m.target.lwps, l ≠ lwp → m.target.trapped l = none
  sits : ∀ slot, m.slotBehind lwp = some slot → (m.dbg.breakpoints slot).kind = .software →
    lwp ∈ m.target.lwps → m.target.trapped lwp ≠ none

def ContinueApt (o : ContinueOutcome) : List Nat → Machine → Prop
  | [], m => m.Unseated
  | lwp :: rest, m =>
    if o.getRegs lwp ≠ .ok ∨ m.slotBehind lwp = none then ContinueApt o rest m
    else
      StepApt lwp m ∧
        let (r, m) := stepOverSwBreakpoint prog lwp (o.steps lwp) m
        r.status = .ok → r.watchHit = false → ContinueApt o rest m

def PollApt (o : PollOutcome) (m : Machine) : Prop :=
  ∀ lwp slot, o.wait = .stopped → m.target.running = false →
    m.stoppedThread o = some (lwp, slot) →
    evaluateBpCondition (m.dbg.breakpoints slot) (m.target.regs lwp) = false → o.cont = .ok →
    m.Unseated

def PollsApt : List StopPoll → Machine → Prop
  | [], _ => True
  | o :: rest, m =>
    let m := { m with target := m.target.advance prog o.runs o.halts }
    m.Unseated ∧
      let (st, m) := pollEvents o.poll m
      st = .ok → m.dbg.stopped = false → PollsApt rest m

def DetachApt (o : DetachOutcome) (m : Machine) : Prop :=
  if m.dbg.stopped then m.Unseated else PollsApt prog o.polls m

variable {prog} {start : Nat → Regs} {m : Machine}

/-! ## Stepping -/

theorem finishStepOver_following (h : Following prog start m) {slot : Nat}
    (hsoft : (m.dbg.breakpoints slot).IsSoft) (lwp : Nat) (o : StepOutcome) :
    Following prog start (finishStepOver lwp slot o m).2 := by
  have hinstall := h.install hsoft o.read o.rewrite
  rw [finishStepOver]
  dsimp only
  split_ifs
  · exact h
  · exact hinstall
  · exact hinstall
  · exact hinstall.of_patches ⟨rfl, rfl, rfl, rfl⟩ rfl

theorem plainStep_following (h : Following prog start m) (hunseated : m.Unseated)
    (o : StepOutcome) : Following prog start (plainStep prog o m).2 := by
  rw [plainStep]
  split_ifs
  · exact h
  · exact h.ptStep hunseated o.runs

theorem repairedStep_following (hwide : Wide prog start) (h : Following prog start m)
    {lwp slot : Nat} (hsoft : (m.dbg.breakpoints slot).IsSoft)
    (halone : ∀ l ∈ m.target.lwps, l ≠ lwp → m.target.trapped l = none)
    (hsits : lwp ∈ m.target.lwps → m.target.trapped lwp ≠ none) (o : StepOutcome) :
    Following prog start (repairedStep prog lwp slot o m).2 := by
  have huninstall := h.uninstall hsoft o.write
  have hstill := uninstallSwBreakpoint_still m o.write slot
  have hsoft' := (isSoft_uninstallSwBreakpoint o.write slot slot m).2 hsoft
  rw [repairedStep]
  split
  · rename_i m' hm'
    rw [hm'] at huninstall hstill hsoft'
    have hback : Following prog start (m'.moveBack lwp) := by
      refine huninstall.moveBack hwide fun hlwp => ?_
      rw [hstill.trapped]
      rw [hstill.lwps] at hlwp
      exact hsits hlwp
    split_ifs
    · exact huninstall.install hsoft' o.read o.rewrite
    · exact hback.install (m := m'.moveBack lwp) hsoft' o.read o.rewrite
    · have hunseated : (m'.moveBack lwp).Unseated := by
        intro l hl
        dsimp only [Machine.moveBack] at hl ⊢
        rcases eq_or_ne l lwp with rfl | hne
        · exact update_self ..
        · rw [update_of_ne hne, hstill.trapped]
          rw [hstill.lwps] at hl
          exact halone l hl hne
      exact finishStepOver_following (hback.ptStep hunseated o.runs) hsoft' lwp o
  · rename_i st m' _ hm'
    rw [hm'] at huninstall
    exact huninstall

theorem slotBehind_clearHardwareStatus (get set : Status) (lwp l : Nat) (m : Machine) :
    (clearHardwareStatus get set lwp m).slotBehind l = m.slotBehind l ∧
      (clearHardwareStatus get set lwp m).dbg = m.dbg := by
  rw [clearHardwareStatus]
  split_ifs
  all_goals exact ⟨rfl, rfl⟩

theorem stepOverSwBreakpoint_following (hwide : Wide prog start) (h : Following prog start m)
    {lwp : Nat} (hapt : StepApt lwp m) (o : StepOutcome) :
    Following prog start (stepOverSwBreakpoint prog lwp o m).2 := by
  obtain ⟨halone, hsits⟩ := hapt
  have hstill := clearHardwareStatus_still m o.statusGet o.statusSet lwp
  have h' := h.of_patches hstill (patches_clearHardwareStatus o.statusGet o.statusSet lwp m)
  obtain ⟨hbehind, hdbg⟩ := slotBehind_clearHardwareStatus o.statusGet o.statusSet lwp lwp m
  rw [← hbehind, ← hdbg, ← hstill.lwps, ← hstill.trapped] at hsits
  rw [← hstill.lwps, ← hstill.trapped] at halone
  rw [stepOverSwBreakpoint]
  generalize clearHardwareStatus o.statusGet o.statusSet lwp m = m at h' halone hsits ⊢
  -- a thread that sits on a breakpoint is taken to be stopped at it
  have hplain (hnot : ∀ slot, m.slotBehind lwp = some slot →
      (m.dbg.breakpoints slot).kind ≠ .software) : m.Unseated := by
    intro l hl
    rcases eq_or_ne l lwp with rfl | hne
    · by_contra htrapped
      obtain ⟨slot, hslot, hkind⟩ := h'.slotBehind_of_trapped hwide hl htrapped
      exact hnot slot hslot hkind
    · exact halone l hl hne
  split
  · exact h'
  · split
    · rename_i hnone
      refine plainStep_following h' (hplain fun slot hslot => ?_) o
      rw [hnone] at hslot
      cases hslot
    · rename_i slot hslot
      split
      · rename_i hkind
        refine plainStep_following h' (hplain fun slot' hslot' => ?_) o
        rw [hslot] at hslot'
        cases hslot'
        exact hkind
      · rename_i hkind
        rw [ne_eq, not_not] at hkind
        exact repairedStep_following hwide h' ⟨(Dbg.findBreakpointSlot_active hslot).2, hkind⟩
          halone (hsits slot hslot hkind) o

theorem debuggerStep_following (hwide : Wide prog start) (h : Following prog start m)
    {lwp : Nat} (hapt : StepApt lwp m) (o : StepOutcome) :
    Following prog start (debuggerStep prog lwp o m).2 := by
  have hstep := stepOverSwBreakpoint_following hwide h hapt o
  rw [debuggerStep]
  dsimp only
  split_ifs
  · exact h
  · exact hstep.of_patches ⟨rfl, rfl, rfl, rfl⟩ rfl
  · exact hstep.of_patches ⟨rfl, rfl, rfl, rfl⟩ rfl
  · exact hstep

/-! ## Resuming -/

theorem continueThreads_following (hwide : Wide prog start) (o : ContinueOutcome)
    (lwps : List Nat) :
    ∀ m : Machine, Following prog start m → ContinueApt prog o lwps m →
      Following prog start (continueThreads prog o lwps m).2 ∧
        ((continueThreads prog o lwps m).1 = none →
          (continueThreads prog o lwps m).2.Unseated) := by
  induction lwps with
  | nil => exact fun m h hapt => ⟨h, fun _ => hapt⟩
  | cons lwp rest ih =>
    intro m h hapt
    rw [ContinueApt] at hapt
    rw [continueThreads]
    split
    · rename_i hregs
      rw [if_pos (.inl hregs)] at hapt
      exact ih m h hapt
    · rename_i hregs
      split
      · rename_i hnone
        rw [if_pos (.inr hnone)] at hapt
        exact ih m h hapt
      · rename_i slot hslot
        rw [if_neg (by
          rintro (hfail | hnone)
          · exact hregs hfail
          · rw [hslot] at hnone
            cases hnone)] at hapt
        have hstep := stepOverSwBreakpoint_following hwide h hapt.1 (o.steps lwp)
        have hrest := hapt.2
        dsimp only at hrest ⊢
        split_ifs with hst hhit
        · exact ⟨hstep, fun hnone => by cases hnone⟩
        · exact ⟨hstep.of_patches ⟨rfl, rfl, rfl, rfl⟩ rfl, fun hnone => by cases hnone⟩
        · rw [ne_eq, not_not] at hst
          rw [Bool.not_eq_true] at hhit
          exact ih _ hstep (hrest hst hhit)

theorem debuggerContinue_following (hwide : Wide prog start) (h : Following prog start m)
    {o : ContinueOutcome} (hapt : ContinueApt prog o (rearm o.hw m).threads (rearm o.hw m)) :
    Following prog start (debuggerContinue prog o m).2 := by
  have hrearm := h.of_patches (rearm_still m o.hw) (rearm_patches o.hw m)
  obtain ⟨hthreads, hdone⟩ := continueThreads_following hwide o _ _ hrearm hapt
  rw [debuggerContinue]
  split
  · exact h
  · split
    · rename_i st m' heq
      rw [heq] at hthreads
      exact hthreads
    · rename_i m' heq
      rw [heq] at hthreads hdone
      split_ifs
      · exact hthreads
      · exact (hthreads.resume (hdone rfl)).of_patches ⟨rfl, rfl, rfl, rfl⟩ rfl

/-! ## Polls and detaching -/

theorem pollEvents_following (h : Following prog start m) {o : PollOutcome}
    (hapt : PollApt o m) : Following prog start (pollEvents o m).2 := by
  have hcode := pollEvents_patches h.code o
  rw [pollEvents] at hcode ⊢
  split
  · exact h
  · rename_i hattached
    rw [if_neg hattached] at hcode
    split
    · exact h
    · exact h
    · rename_i hexited
      rw [hexited] at hcode
      exact ⟨hcode, fun _ hlwp => (by cases hlwp), fun _ hlwp => (by cases hlwp)⟩
    · rename_i hstopped
      split
      · exact h
      · rename_i hrunning
        rw [Bool.not_eq_true] at hrunning
        split
        · rename_i lwp slot hthread
          split
          · exact h.of_patches ⟨rfl, rfl, rfl, rfl⟩ rfl
          · rename_i hcondition
            rw [Bool.not_eq_true] at hcondition
            split_ifs with hcont
            · exact (h.resume (hapt lwp slot hstopped hrunning hthread hcondition
                hcont)).of_patches ⟨rfl, rfl, rfl, rfl⟩ rfl
            · exact h.of_patches ⟨rfl, rfl, rfl, rfl⟩ rfl
        · exact h.of_patches ⟨rfl, rfl, rfl, rfl⟩ rfl

theorem pollEvents_unseated (hunseated : m.Unseated) (o : PollOutcome) :
    (pollEvents o m).2.Unseated := by
  rw [pollEvents]
  split
  · exact hunseated
  · split
    · exact hunseated
    · exact hunseated
    · exact fun _ hlwp => by cases hlwp
    · split
      · exact hunseated
      · split
        · dsimp only
          split_ifs
          · exact hunseated
          · exact fun _ _ => rfl
          · exact hunseated
        · exact hunseated

theorem stopLoop_following (polls : List StopPoll) :
    ∀ m : Machine, Following prog start m → PollsApt prog polls m →
      Following prog start (stopLoop prog polls m).2 ∧
        ((stopLoop prog polls m).1 = .ok → (stopLoop prog polls m).2.Unseated) := by
  induction polls with
  | nil => exact fun m h _ => ⟨h, fun hst => by cases hst⟩
  | cons o rest ih =>
    intro m h hapt
    obtain ⟨hunseated, hrest⟩ := hapt
    have hpoll := pollEvents_following (h.advance o.runs o.halts) (o := o.poll)
      fun _ _ _ _ _ _ _ => hunseated
    have hafter := pollEvents_unseated hunseated o.poll
    rw [stopLoop]
    split
    · rename_i m' heq
      rw [heq] at hpoll hafter hrest
      split_ifs with hstopped
      · exact ⟨hpoll, fun _ => hafter⟩
      · exact ⟨hpoll, fun hst => by cases hst⟩
      · rw [Bool.not_eq_true] at hstopped
        exact ih m' hpoll (hrest rfl hstopped)
    · rename_i st m' hne heq
      rw [heq] at hpoll
      exact ⟨hpoll, fun hst => (hne hst).elim⟩

theorem restoreEntry_still (write : Nat → Status) (is : List Nat) (p : Status × Machine) :
    Still p.2.target (is.foldl (restoreEntry write) p).2.target := by
  refine List.foldlRecOn (motive := fun p' : Status × Machine => Still p.2.target p'.2.target) is
    (restoreEntry write) (Still.refl _) fun p' hp' i _ => ?_
  rw [restoreEntry]
  dsimp only
  split_ifs
  · exact hp'.trans (uninstallSwBreakpoint_still p'.2 (write i) i)
  · exact hp'.trans (uninstallSwBreakpoint_still p'.2 (write i) i)
  · exact hp'

theorem debuggerDetach_following (h : Following prog start m) {o : DetachOutcome}
    (hapt : DetachApt prog o m) : Following prog start (debuggerDetach prog o m).2 := by
  have hcode := debuggerDetach_patches prog h.code o
  have hstop : Following prog start (detachStop prog o m).2 ∧
      ((detachStop prog o m).1 = .ok → (detachStop prog o m).2.Unseated) := by
    rw [DetachApt] at hapt
    rw [detachStop]
    split_ifs at hapt ⊢
    · exact ⟨h, fun _ => hapt⟩
    · exact ⟨h, fun hst => absurd hst ‹_›⟩
    · exact stopLoop_following o.polls m h hapt
  obtain ⟨hfollow, hdone⟩ := hstop
  rw [debuggerDetach] at hcode ⊢
  split
  · exact h
  · rename_i hattached
    rw [if_neg hattached] at hcode
    split
    · rename_i m₁ hm₁
      rw [hm₁] at hcode hfollow hdone
      have hrestore := restoreEntry_still o.write (List.range maxBreakpoints) (.ok, m₁)
      dsimp only at hcode hfollow hdone hrestore
      split
      · rename_i m₂ hm₂
        rw [hm₂] at hcode hrestore
        have hstill := hrestore.trans (clearDbregs_still m₂ o.hw)
        split_ifs at hcode ⊢
        · exact hfollow.of_unseated hcode hstill (hdone rfl)
        · -- the process goes on from where the threads are
          have hclear : Following prog start
              { dbg := m₁.dbg, target := { (clearDbregs o.hw m₂).target with
                mem := m₁.target.mem, own := m₁.target.own } } :=
            hfollow.of_unseated hfollow.code
              ⟨hstill.lwps, hstill.regs, hstill.executed, hstill.trapped⟩ (hdone rfl)
          have hresume := hclear.resume (by
            intro lwp hlwp
            rw [hstill.lwps] at hlwp
            rw [hstill.trapped]
            exact hdone rfl lwp hlwp)
          exact hresume.of_unseated hcode ⟨rfl, rfl, rfl, rfl⟩ fun _ _ => rfl
      · rename_i st m₂ _ hm₂
        have hinv := (restoreEntry_patches hfollow.code o.write maxBreakpoints).1
        rw [hm₂] at hinv hrestore
        exact hfollow.of_unseated hinv hrestore (hdone rfl)
    · rename_i st m₁ _ hm₁
      rw [hm₁] at hfollow
      exact hfollow

end

/-! ## Every run -/

section

variable (prog : Program) (start : Nat → Regs)

inductive ProgramEvent where
  | serve (op : Operation)
  | attach
  | advance (runs : List Nat) (halts : Bool)
  | spawn (lwp : Nat)
  | leave (lwp : Nat)

def programStep (m : Machine) : ProgramEvent → Option Machine
  | .serve op => some (op.serve prog m).2
  | .attach =>
    if m.dbg.attached then none
    else some { dbg := .attach, target := { m.target with running := false } }
  | .advance runs halts => some { m with target := m.target.advance prog runs halts }
  | .spawn lwp =>
    if lwp ∈ m.target.lwps then none
    else
      some { m with target := { m.target with
        lwps := m.target.lwps ++ [lwp]
        regs := update m.target.regs lwp (start lwp)
        executed := update m.target.executed lwp []
        trapped := update m.target.trapped lwp none } }
  | .leave lwp =>
    some { m with target := { m.target with lwps := m.target.lwps.filter (· ≠ lwp) } }

/-- The debugger lets no thread go on from one past a breakpoint, moves no other thread
back, and can write back what it has to. -/
def LeavesAlone (m : Machine) : ProgramEvent → Prop
  | .serve (.clearBreakpoint address _ _) =>
    ∀ lwp ∈ m.target.lwps, m.target.trapped lwp ≠ some address
  | .serve (.clearAllBreakpoints write _) => Restorable write m ∧ m.Unseated
  | .serve (.continue o) => ContinueApt prog o (rearm o.hw m).threads (rearm o.hw m)
  | .serve (.step lwp _) => StepApt lwp m
  | .serve (.pollEvents o) => PollApt o m
  | .serve (.detach o) => DetachApt prog o m
  | _ => True

variable {prog start}

theorem programStep_following (hwide : Wide prog start) {m m' : Machine} {e : ProgramEvent}
    (h : Following prog start m) (hguard : LeavesAlone prog m e)
    (hstep : programStep prog start m e = some m') : Following prog start m' := by
  cases e with
  | serve op =>
    cases hstep
    cases op with
    | setBreakpoint address kind condReg condOp condValue o =>
      exact h.of_still (setBreakpointCond_inv h.code address kind condReg condOp condValue o)
        (setBreakpointCond_still m address kind condReg condOp condValue o)
        fun _ _ _ _ hat => hat.setBreakpointCond address kind condReg condOp condValue o
    | clearBreakpoint address write hw =>
      refine h.of_still (clearBreakpoint_inv h.code address write hw)
        (clearBreakpoint_still m address write hw) fun lwp hlwp a htrapped hat => ?_
      refine hat.clearBreakpoint ?_ write hw
      rintro rfl
      exact hguard lwp hlwp htrapped
    | clearAllBreakpoints write hw =>
      exact h.of_unseated (clearAllBreakpoints_patches h.code hguard.1 hw)
        (clearAllBreakpoints_still m write hw) hguard.2
    | setWatchpoint address length type hw =>
      exact h.of_patches (setWatchpoint_still m address length type hw)
        (patches_setWatchpoint address length type hw m)
    | clearWatchpoint address hw =>
      exact h.of_patches (clearWatchpoint_still m address hw)
        (patches_clearWatchpoint address hw m)
    | clearAllWatchpoints hw =>
      exact h.of_patches (clearAllWatchpoints_still m hw) (patches_clearAllWatchpoints hw m)
    | «continue» o => exact debuggerContinue_following hwide h hguard
    | step lwp o => exact debuggerStep_following hwide h hguard o
    | pollEvents o => exact pollEvents_following h hguard
    | detach o => exact debuggerDetach_following h hguard
  | attach =>
    rw [programStep] at hstep
    split_ifs at hstep with hattached
    cases hstep
    have hnone (i : Nat) : ¬ (m.dbg.breakpoints i).IsSoft :=
      fun hsoft => hattached (h.code.session i hsoft.1)
    refine h.of_unseated (Patches.Inv.of_eq (funext fun a => ?_) fun _ => rfl)
      ⟨rfl, rfl, rfl, rfl⟩ fun lwp hlwp => ?_
    · by_contra hne
      obtain ⟨i, -, hsoft, -⟩ := h.code.held a hne
      exact hnone i hsoft
    · rw [Option.eq_none_iff_forall_ne_some]
      intro a ha
      obtain ⟨i, hsoft, -⟩ := h.seat lwp hlwp a ha
      exact hnone i hsoft
  | advance runs halts =>
    cases hstep
    exact h.advance runs halts
  | spawn lwp =>
    rw [programStep] at hstep
    split_ifs at hstep with hmem
    cases hstep
    have hmem' {l : Nat} (hl : l ∈ m.target.lwps ++ [lwp]) (hne : l ≠ lwp) :
        l ∈ m.target.lwps := by
      rw [List.mem_append, List.mem_singleton] at hl
      exact hl.resolve_right hne
    refine ⟨h.code, fun l hl => ?_, fun l hl a ha => ?_⟩
    · rcases eq_or_ne l lwp with rfl | hne
      · constructor
        · simp [update_self]
        · simp [update_self, reference]
        · simp [update_self]
      · have hin := h.inStep l (hmem' hl hne)
        constructor
        all_goals
          dsimp only
          rw [update_of_ne hne]
        · exact hin.executed
        · rw [update_of_ne hne, update_of_ne hne]
          exact hin.awake
        · rw [update_of_ne hne, update_of_ne hne]
          exact hin.seated
    · dsimp only at hl ha
      rcases eq_or_ne l lwp with rfl | hne
      · rw [update_self] at ha
        cases ha
      · rw [update_of_ne hne] at ha
        exact h.seat l (hmem' hl hne) a ha
  | leave lwp =>
    cases hstep
    refine ⟨h.code, fun l hl => ?_, fun l hl => h.seat l (List.mem_filter.1 hl).1⟩
    have hin := h.inStep l (List.mem_filter.1 hl).1
    exact ⟨hin.executed, hin.awake, hin.seated⟩

/-- In every run in which the requests leave the program alone, each thread executes what
it would execute by itself. -/
theorem inStep_of_leavesAlone_run (hwide : Wide prog start) {t : Target} (ht : t.mem = t.own)
    (hstart : ∀ lwp ∈ t.lwps, InStep prog start t lwp ∧ t.trapped lwp = none)
    {es : List ProgramEvent} {m : Machine}
    (h : Run (programStep prog start) (LeavesAlone prog) ⟨Dbg.attach, t⟩ es m) :
    ∀ lwp ∈ m.target.lwps, InStep prog start m.target lwp := by
  refine Following.inStep (h.invariant (P := fun m => Following prog start m) ?_ ?_)
  · exact fun m e m' hm hguard hstep => programStep_following hwide hm hguard hstep
  · refine ⟨Patches.Inv.of_eq ht fun _ => rfl, fun lwp hlwp => (hstart lwp hlwp).1, ?_⟩
    intro lwp hlwp a ha
    rw [(hstart lwp hlwp).2] at ha
    cases ha

end

def straight : Program := fun _ _ r => { r with rip := wrap64 (r.rip + 1) }

def origin : Nat → Regs := fun _ => ⟨0, fun _ => 0⟩

theorem wide_straight : Wide straight origin :=
  ⟨fun _ => Nat.pow_pos (by decide), fun _ _ _ => Nat.mod_lt _ (Nat.pow_pos (by decide))⟩

def StepOutcome.fine (runs : List Nat) : StepOutcome :=
  ⟨.ok, .ok, .ok, .ok, .ok, .ok, runs, true, false, .ok, .ok, .ok, 0x4000⟩

def seatedMachine : Machine :=
  let m := (setBreakpointCond 2 0 bpCondRip 0 0 ⟨.ok, .ok, .fine⟩ ⟨Dbg.attach, .idle [1]⟩).2
  let m := (debuggerContinue straight ⟨.fine, fun _ => .ok, fun _ => .fine [], .ok⟩ m).2
  { m with target := m.target.advance straight [1, 1, 1] true }

def seatedEvents : List ProgramEvent :=
  [.serve (.setBreakpoint 2 0 bpCondRip 0 0 ⟨.ok, .ok, .fine⟩),
    .serve (.continue ⟨.fine, fun _ => .ok, fun _ => .fine [], .ok⟩), .advance [1, 1, 1] true]

theorem inStep_of_leavesAlone_run_step :
    InStep straight origin (debuggerStep straight 1 (.fine [1]) seatedMachine).2.target 1 := by
  have hrun : Run (programStep straight origin) (LeavesAlone straight)
      ⟨Dbg.attach, .idle [1]⟩ (seatedEvents ++ [.serve (.step 1 (.fine [1]))])
      (debuggerStep straight 1 (.fine [1]) seatedMachine).2 := by
    refine .cons trivial rfl (.cons ?_ rfl (.cons trivial rfl (.cons ?_ rfl (.nil _))))
    · change ContinueApt straight _ [1] _
      rw [ContinueApt, if_pos (.inr (by decide)), ContinueApt, Machine.Unseated]
      decide
    · refine ⟨?_, fun _ _ _ _ => ?_⟩
      · decide
      · decide
  refine inStep_of_leavesAlone_run wide_straight rfl ?_ hrun 1 (by decide)
  exact fun lwp _ => ⟨⟨rfl, fun _ => rfl, fun _ ha => nomatch ha⟩, rfl⟩

theorem pollEvents_skips :
    ¬ ∀ es m, Run (programStep straight origin) (fun _ _ => True) ⟨Dbg.attach, .idle [1]⟩ es m →
      ∀ lwp ∈ m.target.lwps, InStep straight origin m.target lwp := by
  intro hall
  have hrun : Run (programStep straight origin) (fun _ _ => True) ⟨Dbg.attach, .idle [1]⟩
      (seatedEvents ++ [.serve (.pollEvents ⟨.stopped, fun _ => .ok, fun _ => .ok, .ok⟩),
        .advance [1] false]) _ :=
    .cons trivial rfl (.cons trivial rfl (.cons trivial rfl (.cons trivial rfl
      (.cons trivial rfl (.nil _)))))
  have hexecuted := (hall _ _ hrun 1 (by decide)).executed
  revert hexecuted
  decide

end MemDbg.Debug
