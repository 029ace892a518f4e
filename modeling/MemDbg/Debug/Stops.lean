import MemDbg.Debug.Tracked
import MemDbg.Debug.Registers

/-!
# Stops that are not lost

A target stops because a thread has executed the byte of a breakpoint or has made a watched
access.  Several threads may have done so at once, and the debugger reports one of them.  A
stop is lost if the debugger lets the target go on and has reported none.
-/

namespace MemDbg.Debug

open List

/-! ## What a target stops for -/

def Machine.AtBreakpoint (m : Machine) (lwp : Nat) : Prop :=
  ∃ slot, m.slotBehind lwp = some slot ∧ (m.dbg.breakpoints slot).installed = true ∧
    evaluateBpCondition (m.dbg.breakpoints slot) (m.target.regs lwp) = true

def Machine.HitsWatchpoint (m : Machine) (lwp : Nat) : Prop :=
  ∃ slot < maxWatchpoints, (m.target.dr lwp 6).testBit slot = true ∧
    (m.dbg.watchpoints slot).installed = true

def Machine.Causes (m : Machine) (lwp : Nat) : Prop :=
  lwp ∈ m.target.lwps ∧ (m.AtBreakpoint lwp ∨ m.HitsWatchpoint lwp)

def Machine.Unreported (m : Machine) (lwp : Nat) : Prop := m.Causes lwp ∧ lwp ≠ m.dbg.stopLwp

/-! ## Polls -/

def StopsAt (o : PollOutcome) (m : Machine) : Prop :=
  m.dbg.attached = true ∧ o.wait = .stopped ∧ m.target.running = false

/-- A poll of a stop reports it unless there is no cause, and reports a cause. -/
def PollFaithful (o : PollOutcome) (m : Machine) : Prop :=
  StopsAt o m →
    ((pollEvents o m).2.dbg.stopped = false → ∀ lwp, ¬m.Causes lwp) ∧
      ((pollEvents o m).2.dbg.stopLwp ≠ 0 → m.Causes (pollEvents o m).2.dbg.stopLwp)

/-- The first thread that is found behind an entry decides for all: if the condition holds it
is a cause, and otherwise there is none. -/
def FirstDecides (o : PollOutcome) (m : Machine) : Prop :=
  StopsAt o m → ∀ lwp slot, m.stoppedThread o = some (lwp, slot) →
    if evaluateBpCondition (m.dbg.breakpoints slot) (m.target.regs lwp) then
      lwp ≠ 0 → (m.dbg.breakpoints slot).installed = true ∨ m.HitsWatchpoint lwp
    else ∀ l, ¬m.Causes l

section Poll

variable {o : PollOutcome} {m : Machine}

theorem mem_lwps_of_mem_threads {lwp : Nat} (h : lwp ∈ m.threads) : lwp ∈ m.target.lwps :=
  mem_of_mem_take h

theorem stoppedThread_spec {lwp slot : Nat} (h : m.stoppedThread o = some (lwp, slot)) :
    lwp ∈ m.target.lwps ∧ m.slotBehind lwp = some slot := by
  obtain ⟨l, hl, hfound⟩ := exists_of_findSome?_eq_some h
  split_ifs at hfound with hregs
  obtain ⟨slot', hslot', heq⟩ := Option.map_eq_some_iff.mp hfound
  cases heq
  exact ⟨mem_lwps_of_mem_threads hl, hslot'⟩

theorem watchedThread_causes {lwp : Nat} (h : m.watchedThread o = some lwp) : m.Causes lwp := by
  have hmem := mem_of_find?_eq_some h
  have hhit := find?_some h
  rw [Bool.and_eq_true, any_eq_true] at hhit
  obtain ⟨slot, hslot, hbits⟩ := hhit.2
  rw [Bool.and_eq_true] at hbits
  exact ⟨mem_lwps_of_mem_threads hmem, .inr ⟨slot, mem_range.mp hslot, hbits.1, hbits.2⟩⟩

theorem pollEvents_of_stopsAt (h : StopsAt o m) :
    (pollEvents o m).2.dbg.stopped =
        ((m.stoppedThread o).all fun p =>
          evaluateBpCondition (m.dbg.breakpoints p.2) (m.target.regs p.1)) ∧
      (pollEvents o m).2.dbg.stopLwp =
        match m.stoppedThread o with
        | some (lwp, slot) =>
          if evaluateBpCondition (m.dbg.breakpoints slot) (m.target.regs lwp) then lwp else 0
        | none => (m.watchedThread o).getD 0 := by
  obtain ⟨hattached, hwait, hrunning⟩ := h
  rw [pollEvents, hattached, hwait, hrunning]
  cases hfound : m.stoppedThread o with
  | none => exact ⟨rfl, rfl⟩
  | some p =>
    obtain ⟨lwp, slot⟩ := p
    cases hcond : evaluateBpCondition (m.dbg.breakpoints slot) (m.target.regs lwp) <;>
      simp [hcond]

theorem pollFaithful_iff : PollFaithful o m ↔ FirstDecides o m := by
  refine imp_congr_right fun hstops => ?_
  obtain ⟨hstopped, hlwp⟩ := pollEvents_of_stopsAt hstops
  rw [hstopped, hlwp]
  cases hfound : m.stoppedThread o with
  | none =>
    refine iff_of_true ⟨nofun, fun h => ?_⟩ nofun
    cases hwatched : m.watchedThread o with
    | none =>
      rw [hwatched] at h
      exact absurd rfl h
    | some lwp => exact watchedThread_causes hwatched
  | some p =>
    obtain ⟨lwp, slot⟩ := p
    obtain ⟨hmem, hbehind⟩ := stoppedThread_spec hfound
    have hat : evaluateBpCondition (m.dbg.breakpoints slot) (m.target.regs lwp) = true →
        (m.AtBreakpoint lwp ↔ (m.dbg.breakpoints slot).installed = true) := by
      intro hcond
      refine ⟨fun ⟨slot', hslot', hinstalled, _⟩ => ?_, fun hinstalled => ?_⟩
      · cases hbehind.symm.trans hslot'
        exact hinstalled
      · exact ⟨slot, hbehind, hinstalled, hcond⟩
    rw [Option.all_some]
    dsimp only
    constructor
    · rintro ⟨hlost, hreported⟩ lwp' slot' heq
      obtain ⟨rfl, rfl⟩ := Prod.mk.inj (Option.some.inj heq)
      split_ifs with hcond
      · intro hne
        rw [if_pos hcond] at hreported
        exact (hreported hne).2.imp_left (hat hcond).mp
      · exact hlost (Bool.eq_false_iff.mpr hcond)
    · intro hfirst
      have hdecides := hfirst lwp slot rfl
      split_ifs at hdecides ⊢ with hcond
      · refine ⟨fun hstopped => ?_, fun hne => ⟨hmem, ?_⟩⟩
        · cases hcond.symm.trans hstopped
        · exact (hdecides hne).imp_left (hat hcond).mpr
      · exact ⟨fun _ => hdecides, fun h => absurd rfl h⟩

end Poll

/-! ## Resuming -/

def StepOutcome.Hits (o : StepOutcome) (wps : Nat → Watchpoint) : Prop :=
  ∃ i < maxWatchpoints, (wps i).installed = true ∧ o.dr6.testBit i = true

def StepOutcome.Hides (o : StepOutcome) (wps : Nat → Watchpoint) (kind : BpKind) : Prop :=
  o.Hits wps ∧ (kind ≠ .software ∨ o.dbregsGet ≠ .ok ∨ o.dr6.testBit 14 = true)

section Continue

variable (prog : Program)

def steppedOver (o : ContinueOutcome) : List Nat → Machine → List (Nat × BpKind)
  | [], _ => []
  | lwp :: rest, m =>
    if o.getRegs lwp ≠ .ok then steppedOver o rest m
    else
      match m.slotBehind lwp with
      | none => steppedOver o rest m
      | some slot =>
        let r := stepOverSwBreakpoint prog lwp (o.steps lwp) m
        (lwp, (m.dbg.breakpoints slot).kind) ::
          if r.1.status = .ok ∧ r.1.watchHit = false then steppedOver o rest r.2 else []

def StepsThrough (o : ContinueOutcome) : List Nat → Machine → Prop
  | [], _ => True
  | lwp :: rest, m =>
    if o.getRegs lwp ≠ .ok then StepsThrough o rest m
    else
      match m.slotBehind lwp with
      | none => StepsThrough o rest m
      | some _ =>
        let r := stepOverSwBreakpoint prog lwp (o.steps lwp) m
        r.1.status = .ok ∧ r.1.watchHit = false ∧ StepsThrough o rest r.2

def Machine.stepped (m : Machine) (o : ContinueOutcome) : List (Nat × BpKind) :=
  steppedOver prog o (rearm o.hw m).threads (rearm o.hw m)

/-- `memdbg_debugger_continue` resumes the target only if there is no cause that was not
reported and none of its steps has made a watched access, and if it reports a stop then for
such an access of the thread it names. -/
def ContinueFaithful (o : ContinueOutcome) (m : Machine) : Prop :=
  let r := debuggerContinue prog o m
  (r.1 = .ok → r.2.dbg.stopped = false → (∀ lwp, ¬m.Unreported lwp) ∧
    ∀ p ∈ m.stepped prog o, ¬(o.steps p.1).Hits m.dbg.watchpoints) ∧
  (r.1 = .ok → r.2.dbg.stopped = true → ∃ p ∈ m.stepped prog o, p.1 = r.2.dbg.stopLwp ∧
    (o.steps p.1).Hits m.dbg.watchpoints)

/-- If all steps and the call that resumes the target succeed, there is no cause that was not
reported and no step hides a watched access. -/
def NothingPending (o : ContinueOutcome) (m : Machine) : Prop :=
  m.dbg.attached = true → StepsThrough prog o (rearm o.hw m).threads (rearm o.hw m) →
    o.cont = .ok → (∀ lwp, ¬m.Unreported lwp) ∧
      ∀ p ∈ m.stepped prog o, ¬(o.steps p.1).Hides m.dbg.watchpoints p.2

variable {prog} {m : Machine}

theorem watchpoints_installSwBreakpoint (read write : Status) (i : Nat) (m : Machine) :
    (installSwBreakpoint read write i m).2.dbg.watchpoints = m.dbg.watchpoints :=
  congrArg Arming.wps (arming_installSwBreakpoint read write i m)

theorem watchpoints_uninstallSwBreakpoint (write : Status) (i : Nat) (m : Machine) :
    (uninstallSwBreakpoint write i m).2.dbg.watchpoints = m.dbg.watchpoints :=
  congrArg Arming.wps (arming_uninstallSwBreakpoint write i m)

theorem dbg_clearHardwareStatus (get set : Status) (lwp : Nat) (m : Machine) :
    (clearHardwareStatus get set lwp m).dbg = m.dbg ∧
      (clearHardwareStatus get set lwp m).target.regs = m.target.regs := by
  rw [clearHardwareStatus]
  split_ifs
  all_goals exact ⟨rfl, rfl⟩

theorem hits_iff {o : StepOutcome} {wps : Nat → Watchpoint} :
    ((List.range maxWatchpoints).any fun i => (wps i).installed && o.dr6.testBit i) = true ↔
      o.Hits wps := by
  rw [any_eq_true, StepOutcome.Hits]
  refine exists_congr fun i => ?_
  rw [mem_range, Bool.and_eq_true]

def StepResult.Shows (r : StepResult) (o : StepOutcome) (wps : Nat → Watchpoint)
    (kind : BpKind) : Prop :=
  r.status = .ok → (r.watchHit = true ↔ o.Hits wps ∧ ¬o.Hides wps kind)

theorem finishStepOver_spec (lwp slot : Nat) (o : StepOutcome) (m : Machine) :
    (finishStepOver lwp slot o m).2.dbg.watchpoints = m.dbg.watchpoints ∧
      (finishStepOver lwp slot o m).1.Shows o m.dbg.watchpoints .software := by
  have hinstall := watchpoints_installSwBreakpoint o.read o.rewrite slot m
  rw [finishStepOver]
  dsimp only
  split_ifs with hwait hst hwaited
  · exact ⟨rfl, (by rintro ⟨⟩)⟩
  · exact ⟨hinstall, fun h => absurd h hst⟩
  · exact ⟨hinstall, (by rintro ⟨⟩)⟩
  · refine ⟨hinstall, fun _ => ?_⟩
    rw [hinstall, Bool.and_eq_true, Bool.and_eq_true, decide_eq_true_iff, Bool.not_eq_true',
      hits_iff, StepOutcome.Hides]
    constructor
    · rintro ⟨⟨hget, hbs⟩, hhits⟩
      refine ⟨hhits, ?_⟩
      rintro ⟨-, hkind | hget' | hbs'⟩
      · exact hkind rfl
      · exact hget' hget
      · cases hbs.symm.trans hbs'
    · rintro ⟨hhits, hnot⟩
      refine ⟨⟨?_, ?_⟩, hhits⟩
      · by_contra hget
        exact hnot ⟨hhits, .inr (.inl hget)⟩
      · rw [← Bool.not_eq_true]
        exact fun hbs => hnot ⟨hhits, .inr (.inr hbs)⟩

theorem repairedStep_spec (lwp slot : Nat) (o : StepOutcome) (m : Machine) :
    (repairedStep prog lwp slot o m).2.dbg.watchpoints = m.dbg.watchpoints ∧
      (repairedStep prog lwp slot o m).1.Shows o m.dbg.watchpoints .software := by
  have huninstall := watchpoints_uninstallSwBreakpoint o.write slot m
  rw [repairedStep]
  split
  · rename_i m₁ hm₁
    rw [hm₁] at huninstall
    split_ifs with hset hstep
    · exact ⟨(watchpoints_installSwBreakpoint ..).trans huninstall, fun h => absurd h hset⟩
    · exact ⟨(watchpoints_installSwBreakpoint ..).trans huninstall, fun h => absurd h hstep⟩
    · obtain ⟨hwps, hshows⟩ := finishStepOver_spec lwp slot o
        { m₁ with target := (m₁.moveBack lwp).target.ptStep prog o.runs }
      rw [← huninstall]
      exact ⟨hwps, hshows⟩
  · rename_i st m₁ hst hm₁
    rw [hm₁] at huninstall
    exact ⟨huninstall, fun h => absurd h hst⟩

theorem plainStep_spec (o : StepOutcome) (m : Machine) :
    (plainStep prog o m).2.dbg = m.dbg ∧ (plainStep prog o m).1.watchHit = false := by
  rw [plainStep]
  split_ifs
  · exact ⟨rfl, rfl⟩
  · exact ⟨rfl, rfl⟩

theorem stepOverSwBreakpoint_spec {lwp slot : Nat} (hslot : m.slotBehind lwp = some slot)
    (o : StepOutcome) :
    (stepOverSwBreakpoint prog lwp o m).2.dbg.watchpoints = m.dbg.watchpoints ∧
      (stepOverSwBreakpoint prog lwp o m).1.Shows o m.dbg.watchpoints
        (m.dbg.breakpoints slot).kind := by
  obtain ⟨hdbg, hregs⟩ := dbg_clearHardwareStatus o.statusGet o.statusSet lwp m
  have hsame : (clearHardwareStatus o.statusGet o.statusSet lwp m).slotBehind lwp =
      some slot := by
    rw [Machine.slotBehind, hdbg, hregs]
    exact hslot
  rw [stepOverSwBreakpoint]
  generalize clearHardwareStatus o.statusGet o.statusSet lwp m = m₁ at hdbg hsame ⊢
  rw [hsame, ← hdbg]
  dsimp only
  split_ifs with hget hkind
  · exact ⟨rfl, fun h => absurd h hget⟩
  · obtain ⟨hdbg', hnothing⟩ := @plainStep_spec prog o m₁
    refine ⟨congrArg Dbg.watchpoints hdbg', fun _ => ?_⟩
    rw [hnothing]
    exact iff_of_false (by rintro ⟨⟩) fun h => h.2 ⟨h.1, .inl hkind⟩
  · rw [ne_eq, not_not] at hkind
    rw [hkind]
    exact repairedStep_spec lwp slot o m₁

theorem continueThreads_spec (o : ContinueOutcome) (lwps : List Nat) (m : Machine) :
    ((continueThreads prog o lwps m).1 = none ↔ StepsThrough prog o lwps m) ∧
      (StepsThrough prog o lwps m → ∀ p ∈ steppedOver prog o lwps m,
        (o.steps p.1).Hits m.dbg.watchpoints → (o.steps p.1).Hides m.dbg.watchpoints p.2) ∧
      ((continueThreads prog o lwps m).1 = some .ok →
        (continueThreads prog o lwps m).2.dbg.stopped = true ∧
          ∃ p ∈ steppedOver prog o lwps m,
            p.1 = (continueThreads prog o lwps m).2.dbg.stopLwp ∧
              (o.steps p.1).Hits m.dbg.watchpoints) := by
  induction lwps generalizing m with
  | nil => exact ⟨iff_of_true rfl trivial, fun _ => (by rintro _ ⟨⟩), (by rintro ⟨⟩)⟩
  | cons lwp rest ih =>
    rw [continueThreads, StepsThrough, steppedOver]
    by_cases hget : o.getRegs lwp ≠ .ok
    · rw [if_pos hget, if_pos hget, if_pos hget]
      exact ih m
    rw [if_neg hget, if_neg hget, if_neg hget]
    cases hslot : m.slotBehind lwp with
    | none => exact ih m
    | some slot =>
      obtain ⟨hwps, hshows⟩ := @stepOverSwBreakpoint_spec prog m lwp slot hslot (o.steps lwp)
      generalize stepOverSwBreakpoint prog lwp (o.steps lwp) m = r at hwps hshows ⊢
      obtain ⟨r, m₁⟩ := r
      dsimp only at hwps hshows ⊢
      by_cases hst : r.status = .ok
      · rw [if_neg (not_not_intro hst)]
        cases hhit : r.watchHit with
        | true =>
          rw [if_pos rfl]
          refine ⟨iff_of_false (by rintro ⟨⟩) ?_, ?_, ?_⟩
          · rintro ⟨-, hno, -⟩
            cases hno
          · rintro ⟨-, hno, -⟩
            cases hno
          refine fun _ => ⟨rfl, _, mem_cons_self, rfl, ?_⟩
          exact ((hshows hst).mp hhit).1
        | false =>
          obtain ⟨hnone, hhidden, hstopped⟩ := ih m₁
          rw [hwps] at hhidden hstopped
          rw [if_neg (by rintro ⟨⟩), if_pos ⟨hst, rfl⟩]
          refine ⟨hnone.trans ⟨fun h => ⟨hst, rfl, h⟩, fun h => h.2.2⟩, fun h p hp => ?_,
            fun h => ?_⟩
          · rcases mem_cons.mp hp with rfl | hp
            · intro hhits
              by_contra hnot
              cases hhit.symm.trans ((hshows hst).mpr ⟨hhits, hnot⟩)
            · exact hhidden h.2.2 p hp
          · obtain ⟨htrue, p, hp, hlwp, hhits⟩ := hstopped h
            exact ⟨htrue, p, mem_cons_of_mem _ hp, hlwp, hhits⟩
      · rw [if_pos hst]
        exact ⟨iff_of_false (by rintro ⟨⟩) fun h => hst h.1, fun h => absurd h.1 hst,
          fun h => absurd (Option.some.inj h) hst⟩

theorem watchpoints_rearm (hw : HwOutcome) (m : Machine) :
    (rearm hw m).dbg.watchpoints = m.dbg.watchpoints := by
  rw [rearm]
  split_ifs
  · obtain ⟨dbregs, valid, dr, heq⟩ := syncHardwareDbregs_eq true hw m
    rw [heq]
    rfl
  · rfl

theorem continueFaithful_iff {o : ContinueOutcome} :
    ContinueFaithful prog o m ↔ NothingPending prog o m := by
  obtain ⟨hnone, hhidden, hstopped⟩ :=
    @continueThreads_spec prog o (rearm o.hw m).threads (rearm o.hw m)
  rw [watchpoints_rearm] at hhidden hstopped
  rw [ContinueFaithful, NothingPending, Machine.stepped, debuggerContinue]
  cases hattached : m.dbg.attached with
  | false => exact iff_of_true ⟨(by rintro ⟨⟩), (by rintro ⟨⟩)⟩ (by rintro ⟨⟩)
  | true =>
    generalize continueThreads prog o (rearm o.hw m).threads (rearm o.hw m) = r
      at hnone hstopped ⊢
    obtain ⟨_ | st, m₁⟩ := r
    · have hthrough := hnone.mp rfl
      dsimp only
      by_cases hcont : o.cont = .ok
      · rw [if_neg (by rintro ⟨⟩), if_neg (not_not_intro hcont)]
        refine ⟨fun hfaithful _ _ _ => ?_, fun hpending => ⟨fun _ _ => ?_, (by rintro - ⟨⟩)⟩⟩
        · obtain ⟨hreported, hhits⟩ := hfaithful.1 rfl rfl
          exact ⟨hreported, fun p hp hhides => hhits p hp hhides.1⟩
        · obtain ⟨hreported, hhides⟩ := hpending rfl hthrough hcont
          exact ⟨hreported, fun p hp hhits => hhides p hp (hhidden hthrough p hp hhits)⟩
      · rw [if_neg (by rintro ⟨⟩), if_pos hcont]
        exact iff_of_true ⟨fun h => absurd h hcont, fun h => absurd h hcont⟩
          fun _ _ h => absurd h hcont
    · have hthrough : ¬StepsThrough prog o (rearm o.hw m).threads (rearm o.hw m) :=
        fun h => by cases hnone.mpr h
      refine iff_of_true ⟨fun hok hfalse => ?_, fun hok _ => ?_⟩ fun _ h => absurd h hthrough
      · dsimp only at hok hfalse
        cases hok
        cases hfalse.symm.trans (hstopped rfl).1
      · dsimp only at hok
        cases hok
        exact (hstopped rfl).2

end Continue

/-! ## Both -/

/-- A poll reports what it must exactly if the first thread it finds decides rightly, and
`memdbg_debugger_continue` loses no stop exactly if nothing is pending. -/
theorem stops_faithful_iff (prog : Program) (m : Machine) (o : PollOutcome)
    (o' : ContinueOutcome) : (PollFaithful o m ↔ FirstDecides o m) ∧
      (ContinueFaithful prog o' m ↔ NothingPending prog o' m) :=
  ⟨pollFaithful_iff, continueFaithful_iff⟩

def twoStopped : Machine where
  dbg := { Dbg.attach with
    stopped := false
    breakpoints := fun i =>
      match i with
      | 0 => ⟨0x1000, .software, 0, true, true, 1, 0, 7⟩
      | 1 => ⟨0x2000, .software, 0, true, true, 0, 0, 0⟩
      | _ => Breakpoint.zero }
  target := { Target.idle [1, 2] with
    mem := fun a => if a = 0x1000 ∨ a = 0x2000 then int3Opcode else 0
    regs := fun lwp => ⟨if lwp = 1 then 0x1001 else 0x2001, fun _ => 0⟩
    trapped := fun lwp => if lwp = 1 then some 0x1000 else some 0x2000 }

theorem twoStopped_lost : ¬∀ (prog : Program) (m : Machine) (o : PollOutcome)
    (o' : ContinueOutcome), PollFaithful o m ∧ ContinueFaithful prog o' m := by
  intro h
  have hstops : StopsAt ⟨.stopped, fun _ => .ok, fun _ => .ok, .ok⟩ twoStopped := ⟨rfl, rfl, rfl⟩
  have hpoll := (h (fun _ _ r => r) twoStopped ⟨.stopped, fun _ => .ok, fun _ => .ok, .ok⟩
    ⟨.fine, fun _ => .ok, fun _ => ⟨.ok, .ok, .ok, .ok, .ok, .ok, [], true, true, .ok, .ok, .ok,
      0⟩, .ok⟩).1 hstops
  have hresumed : (pollEvents ⟨.stopped, fun _ => .ok, fun _ => .ok, .ok⟩
      twoStopped).2.dbg.stopped = false := by
    rw [(pollEvents_of_stopsAt hstops).1]
    rfl
  refine hpoll.1 hresumed 2 ⟨by decide, .inl ⟨1, ?_, rfl, rfl⟩⟩
  decide

end MemDbg.Debug
