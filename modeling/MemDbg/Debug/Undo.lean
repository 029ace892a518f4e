import MemDbg.Debug.Registers
import MemDbg.Debug.Tracked

/-!
# Operations that fail

A request changes the tables, the bytes of the target and the registers of its threads one
after the other, and each of these steps may be the one that fails.  What went before has to
be undone by then.
-/

namespace MemDbg.Debug

open List Function

/-! ## Sessions that are as they were -/

def Breakpoint.entry (bp : Breakpoint) : Option Breakpoint := if bp.active then some bp else none

def Watchpoint.entry (wp : Watchpoint) : Option Watchpoint :=
  if wp.installed then some wp else none

theorem Breakpoint.entry_eq_none {bp : Breakpoint} : bp.entry = none ↔ bp.active = false := by
  rw [Breakpoint.entry]
  cases bp.active <;> simp

theorem Watchpoint.entry_eq_none {wp : Watchpoint} : wp.entry = none ↔ wp.installed = false := by
  rw [Watchpoint.entry]
  cases wp.installed <;> simp

/-- The tables, the bytes of the target, the debug registers of all threads and their cached
copy are as before. -/
structure Restored (m m' : Machine) : Prop where
  breakpoints : ∀ i < maxBreakpoints,
    (m'.dbg.breakpoints i).entry = (m.dbg.breakpoints i).entry
  watchpoints : ∀ i < maxWatchpoints,
    (m'.dbg.watchpoints i).entry = (m.dbg.watchpoints i).entry
  mem : m'.target.mem = m.target.mem
  dr : m'.target.dr = m.target.dr
  dbregs : m'.dbg.dbregs = m.dbg.dbregs
  dbregsValid : m'.dbg.dbregsValid = m.dbg.dbregsValid

theorem Restored.refl (m : Machine) : Restored m m :=
  ⟨fun _ _ => rfl, fun _ _ => rfl, rfl, rfl, rfl, rfl⟩

variable {m m' m'' : Machine}

theorem Restored.trans (h : Restored m m') (h' : Restored m' m'') : Restored m m'' where
  breakpoints i hi := (h'.breakpoints i hi).trans (h.breakpoints i hi)
  watchpoints i hi := (h'.watchpoints i hi).trans (h.watchpoints i hi)
  mem := h'.mem.trans h.mem
  dr := h'.dr.trans h.dr
  dbregs := h'.dbregs.trans h.dbregs
  dbregsValid := h'.dbregsValid.trans h.dbregsValid

theorem Restored.symm (h : Restored m m') : Restored m' m :=
  ⟨fun i hi => (h.breakpoints i hi).symm, fun i hi => (h.watchpoints i hi).symm, h.mem.symm,
    h.dr.symm, h.dbregs.symm, h.dbregsValid.symm⟩

theorem Restored.setBp {slot : Nat} (hfree : (m.dbg.breakpoints slot).active = false)
    {bp : Breakpoint} (hbp : bp.active = false) : Restored m (m.setBp slot bp) := by
  refine ⟨fun i _ => ?_, fun _ _ => rfl, rfl, rfl, rfl, rfl⟩
  rw [Machine.setBp]
  rcases eq_or_ne i slot with rfl | hne
  · simp [Breakpoint.entry, hfree, hbp]
  · simp only [update_of_ne hne]

theorem Restored.setWp {slot : Nat} (hfree : (m.dbg.watchpoints slot).installed = false)
    {wp : Watchpoint} (hwp : wp.installed = false) : Restored m (m.setWp slot wp) := by
  refine ⟨fun _ _ => rfl, fun i _ => ?_, rfl, rfl, rfl, rfl⟩
  rw [Machine.setWp]
  rcases eq_or_ne i slot with rfl | hne
  · simp [Watchpoint.entry, hfree, hwp]
  · simp only [update_of_ne hne]

@[simp] theorem Machine.setBp_setBp (m : Machine) (slot : Nat) (bp bp' : Breakpoint) :
    (m.setBp slot bp).setBp slot bp' = m.setBp slot bp' := by
  simp only [Machine.setBp, update_idem]

@[simp] theorem Machine.setWp_setWp (m : Machine) (slot : Nat) (wp wp' : Watchpoint) :
    (m.setWp slot wp).setWp slot wp' = m.setWp slot wp' := by
  simp only [Machine.setWp, update_idem]

@[simp] theorem Machine.setWp_self (m : Machine) (slot : Nat) :
    m.setWp slot (m.dbg.watchpoints slot) = m := by
  simp only [Machine.setWp, update_eq_self]

theorem Machine.setBp_setWp (m : Machine) (i j : Nat) (bp : Breakpoint) (wp : Watchpoint) :
    (m.setBp i bp).setWp j wp = (m.setWp j wp).setBp i bp := rfl

/-! ## Updates of the debug registers -/

def HwOutcome.takes (hw : HwOutcome) (lwp : Nat) : Bool :=
  decide (hw.get lwp = .ok ∧ hw.set lwp = .ok)

def HwOutcome.applies (hw : HwOutcome) (allowPartial : Bool) (threads : List Nat) : Bool :=
  if threads = [] then !allowPartial
  else hw.calloc && (threads.all hw.takes || allowPartial && threads.any hw.takes)

theorem applyThread_eq (dbregs : Dbregs) (hw : HwOutcome) (a : Applied) (lwp : Nat) :
    (applyThread dbregs hw a lwp).skipped = a.skipped + (if hw.takes lwp then 0 else 1) ∧
      ((applyThread dbregs hw a lwp).changed = [] ↔ a.changed = [] ∧ hw.takes lwp = false) ∧
      (applyThread dbregs hw a lwp).dr =
        if hw.takes lwp then update a.dr lwp dbregs else a.dr := by
  rw [applyThread, HwOutcome.takes]
  split_ifs with hget hset <;> simp_all

theorem applyThreads_eq (dbregs : Dbregs) (hw : HwOutcome) (lwps : List Nat) (a : Applied) :
    let a' := lwps.foldl (applyThread dbregs hw) a
    (a'.skipped = 0 ↔ a.skipped = 0 ∧ lwps.all hw.takes = true) ∧
      (a'.changed = [] ↔ a.changed = [] ∧ lwps.any hw.takes = false) ∧
      ∀ lwp, a'.dr lwp = if lwp ∈ lwps ∧ hw.takes lwp = true then dbregs else a.dr lwp := by
  induction lwps generalizing a with
  | nil => simp
  | cons lwp lwps ih =>
    obtain ⟨hskipped, hchanged, hdr⟩ := applyThread_eq dbregs hw a lwp
    obtain ⟨ihs, ihc, ihd⟩ := ih (applyThread dbregs hw a lwp)
    rw [foldl_cons]
    refine ⟨?_, ?_, fun l => ?_⟩
    · rw [ihs, hskipped, all_cons, Bool.and_eq_true]
      cases hw.takes lwp <;> simp
    · rw [ihc, hchanged, any_cons, Bool.or_eq_false_iff, and_assoc]
    · rw [ihd, hdr]
      by_cases hl : l ∈ lwps ∧ hw.takes l = true
      · rw [if_pos hl, if_pos ⟨mem_cons_of_mem _ hl.1, hl.2⟩]
      · rw [if_neg hl]
        rcases eq_or_ne l lwp with rfl | hne
        · cases htakes : hw.takes l <;> simp
        · simp only [mem_cons, hne, false_or, hl, if_false]
          split_ifs
          · rw [update_of_ne hne]
          · rfl

theorem applyDbregsToAll_applies (allowPartial : Bool) (hw : HwOutcome) (m : Machine)
    (hnodup : m.threads.Nodup) :
    ((applyDbregsToAll allowPartial hw m).1 = .ok ↔ hw.applies allowPartial m.threads = true) ∧
      ∀ lwp, (applyDbregsToAll allowPartial hw m).2.target.dr lwp =
        if hw.applies allowPartial m.threads = true ∧ lwp ∈ m.threads ∧ hw.takes lwp = true
        then m.dbg.dbregs else m.target.dr lwp := by
  have hover := applyThreads_over m.dbg.dbregs hw m.target.dr hnodup
  obtain ⟨hskipped, hchanged, hdr⟩ := applyThreads_eq m.dbg.dbregs hw m.threads
    ⟨m.target.dr, [], 0, .ok⟩
  rw [applyDbregsToAll, HwOutcome.applies]
  by_cases hnil : m.threads = []
  · rw [if_pos (by rw [hnil, length_nil]), if_pos hnil]
    cases allowPartial <;> simp [hnil]
  rw [if_neg (mt eq_nil_of_length_eq_zero hnil), if_neg hnil]
  cases hw.calloc with
  | false => simp
  | true =>
    rw [Bool.not_true, if_neg Bool.false_ne_true, Bool.true_and]
    dsimp only at hskipped hchanged hdr ⊢
    generalize m.threads.foldl (applyThread m.dbg.dbregs hw) ⟨m.target.dr, [], 0, .ok⟩ = a
      at hover hskipped hchanged hdr ⊢
    have hdone : (decide (a.skipped = 0) || allowPartial && decide (a.changed ≠ [])) =
        (m.threads.all hw.takes || allowPartial && m.threads.any hw.takes) := by
      congr 1
      · rw [Bool.eq_iff_iff, decide_eq_true_eq, hskipped]
        exact and_iff_right rfl
      · rw [Bool.eq_iff_iff, Bool.and_eq_true, Bool.and_eq_true, decide_eq_true_eq, ne_eq,
          hchanged, ← Bool.not_eq_true (m.threads.any hw.takes), not_and_not_right]
        exact and_congr_right fun _ => ⟨fun h => h rfl, fun h _ => h⟩
    rw [hdone]
    by_cases hok : (m.threads.all hw.takes || allowPartial && m.threads.any hw.takes) = true
    · rw [if_pos hok]
      exact ⟨iff_of_true rfl hok, fun lwp => by simp only [hdr, hok, true_and]⟩
    · have hfailed : a.lastError ≠ .ok := by
        refine hover.failed fun hzero => hok ?_
        rw [(hskipped.mp hzero).2, Bool.true_or]
      rw [if_neg hok]
      refine ⟨iff_of_false hfailed hok, fun lwp => ?_⟩
      rw [hover.rollback_eq, if_neg fun h => hok h.1]

def SyncUndone (allowPartial : Bool) (hw : HwOutcome) (m : Machine) : Prop :=
  m.dbg.dbregsValid = true ∨ m.threads = [] ∨ hw.refresh ≠ .ok ∨
    hw.applies allowPartial m.threads = true

variable {allowPartial : Bool} {hw : HwOutcome}

theorem applyDbregsToAll_of_fail
    (hnodup : m.threads.Nodup) (h : (applyDbregsToAll allowPartial hw m).1 ≠ .ok) :
    (applyDbregsToAll allowPartial hw m).2 = m := by
  obtain ⟨dr, heq⟩ := applyDbregsToAll_eq allowPartial hw m
  obtain ⟨hok, hdr⟩ := applyDbregsToAll_applies allowPartial hw m hnodup
  have hsame : dr = m.target.dr := by
    funext lwp
    have hlwp := hdr lwp
    rw [heq, if_neg fun hall => h (hok.mpr hall.1)] at hlwp
    exact hlwp
  rw [heq, hsame]
  rfl

variable {m₁ : Machine}

theorem syncHardwareDbregs_of_refresh
    (hnodup : m₁.threads.Nodup) (hrefresh : refreshDbregs hw m = (.ok, m₁)) :
    ((syncHardwareDbregs allowPartial hw m).1 = .ok ↔
      hw.applies allowPartial m₁.threads = true) ∧
      ((syncHardwareDbregs allowPartial hw m).1 ≠ .ok →
        (syncHardwareDbregs allowPartial hw m).2 = m₁) := by
  have hok := (applyDbregsToAll_applies allowPartial hw { m₁ with dbg := { m₁.dbg with
    dbregs := configured m₁.dbg.watchpoints m₁.dbg.dbregs } } hnodup).1
  have hfail := @applyDbregsToAll_of_fail { m₁ with dbg := { m₁.dbg with
    dbregs := configured m₁.dbg.watchpoints m₁.dbg.dbregs } } allowPartial hw hnodup
  rw [syncHardwareDbregs, hrefresh]
  dsimp only
  generalize applyDbregsToAll allowPartial hw { m₁ with dbg := { m₁.dbg with
    dbregs := configured m₁.dbg.watchpoints m₁.dbg.dbregs } } = r at hok hfail ⊢
  obtain ⟨st, m₂⟩ := r
  by_cases hst : st = .ok
  · subst hst
    exact ⟨hok, fun h => absurd rfl h⟩
  · have hsame := hfail hst
    subst hsame
    -- the statuses that are errors all go the same way
    cases st
    all_goals first | exact absurd rfl hst | exact ⟨hok, fun _ => rfl⟩

theorem syncHardwareDbregs_of_refresh_fail {st : Status} (hst : st ≠ .ok)
    (hrefresh : refreshDbregs hw m = (st, m₁)) :
    syncHardwareDbregs allowPartial hw m = (st, m₁) := by
  rw [syncHardwareDbregs, hrefresh]
  cases st
  all_goals first | exact absurd rfl hst | rfl

theorem refreshDbregs_of_nil (hvalid : ¬m.dbg.dbregsValid = true)
    (h : m.threads = []) : refreshDbregs hw m = (.errIo, m) := by
  rw [refreshDbregs, if_neg hvalid, h]

def Machine.refreshed (m : Machine) (lwp : Nat) : Machine :=
  m.withDbregs (Function.update (m.target.dr lwp) 6 0) true m.target.dr

theorem refreshDbregs_of_cons {lwp : Nat} {rest : List Nat}
    (hvalid : ¬m.dbg.dbregsValid = true) (h : m.threads = lwp :: rest) :
    refreshDbregs hw m =
      if hw.refresh ≠ .ok then (hw.refresh, m) else (.ok, m.refreshed lwp) := by
  rw [refreshDbregs, if_neg hvalid, h]
  rfl

theorem syncHardwareDbregs_of_undone
    (hnodup : m.threads.Nodup) (hundone : SyncUndone allowPartial hw m)
    (hst : (syncHardwareDbregs allowPartial hw m).1 ≠ .ok) :
    (syncHardwareDbregs allowPartial hw m).2 = m := by
  by_cases hvalid : m.dbg.dbregsValid = true
  · have hrefresh : refreshDbregs hw m = (.ok, m) := by rw [refreshDbregs, if_pos hvalid]
    exact (syncHardwareDbregs_of_refresh hnodup hrefresh).2 hst
  cases hthreads : m.threads with
  | nil =>
    rw [syncHardwareDbregs_of_refresh_fail (by decide) (refreshDbregs_of_nil hvalid hthreads)]
  | cons lwp rest =>
    have hrefresh := @refreshDbregs_of_cons m hw lwp rest hvalid hthreads
    by_cases hread : hw.refresh = .ok
    · rw [if_neg (not_not.mpr hread)] at hrefresh
      have hsync := @syncHardwareDbregs_of_refresh m allowPartial hw (m.refreshed lwp) hnodup
        hrefresh
      refine absurd (hsync.1.mpr ?_) hst
      rcases hundone with h | h | h | h
      · exact absurd h hvalid
      · rw [hthreads] at h
        cases h
      · exact absurd hread h
      · exact h
    · rw [if_pos hread] at hrefresh
      rw [syncHardwareDbregs_of_refresh_fail hread hrefresh]

theorem syncHardwareDbregs_of_not_undone
    (hnodup : m.threads.Nodup) (hundone : ¬SyncUndone allowPartial hw m) :
    (syncHardwareDbregs allowPartial hw m).1 ≠ .ok ∧ m.dbg.dbregsValid = false ∧
      (syncHardwareDbregs allowPartial hw m).2.dbg.dbregsValid = true := by
  rw [SyncUndone, not_or, not_or, not_or, not_not] at hundone
  obtain ⟨hvalid, hne, hread, hfails⟩ := hundone
  obtain ⟨lwp, rest, hthreads⟩ := exists_cons_of_ne_nil hne
  have hrefresh := @refreshDbregs_of_cons m hw lwp rest hvalid hthreads
  rw [if_neg (not_not.mpr hread)] at hrefresh
  obtain ⟨hok, hsame⟩ := @syncHardwareDbregs_of_refresh m allowPartial hw (m.refreshed lwp)
    hnodup hrefresh
  have hst := mt hok.mp hfails
  refine ⟨hst, Bool.eq_false_iff.mpr hvalid, ?_⟩
  rw [hsame hst]
  rfl

/-! ## Requests -/

def FailsClean (m : Machine) (r : Status × Machine) : Prop := r.1 ≠ .ok → Restored m r.2

theorem failsClean_of_ok (h : r.1 = .ok) : FailsClean m r := fun hst => absurd h hst

theorem failsClean_same (m : Machine) (st : Status) : FailsClean m (st, m) := fun _ => .refl m

theorem failsClean_sync_iff
    (back : Machine → Machine) (hnodup : m.threads.Nodup) (hthreads : m₁.threads = m.threads)
    (hvalid : m₁.dbg.dbregsValid = m.dbg.dbregsValid)
    (hkeeps : ∀ m₂, (back m₂).dbg.dbregsValid = m₂.dbg.dbregsValid)
    (hback : Restored m (back m₁)) :
    FailsClean m (match syncHardwareDbregs allowPartial hw m₁ with
      | (.ok, m) => (.ok, m)
      | (st, m) => (st, back m)) ↔ SyncUndone allowPartial hw m := by
  have hiff : SyncUndone allowPartial hw m₁ ↔ SyncUndone allowPartial hw m := by
    rw [SyncUndone, SyncUndone, hthreads, hvalid]
  rw [← hthreads] at hnodup
  have hundone := @syncHardwareDbregs_of_undone m₁ allowPartial hw hnodup
  have hnot := @syncHardwareDbregs_of_not_undone m₁ allowPartial hw hnodup
  rw [hiff] at hundone hnot
  generalize syncHardwareDbregs allowPartial hw m₁ = r at hundone hnot ⊢
  obtain ⟨st, m₂⟩ := r
  by_cases hst : st = .ok
  · subst hst
    refine iff_of_true (failsClean_of_ok rfl) ?_
    by_contra h
    exact (hnot h).1 rfl
  · have hout : (match ((st, m₂) : Status × Machine) with
        | (.ok, m) => (Status.ok, m)
        | (st, m) => (st, back m)) = (st, back m₂) := by
      cases st
      all_goals first | exact absurd rfl hst | rfl
    rw [hout]
    constructor
    · intro h
      by_contra hfails
      obtain ⟨-, hbefore, hafter⟩ := hnot hfails
      have hcached := (h hst).dbregsValid
      rw [hkeeps, hafter, ← hvalid, hbefore] at hcached
      cases hcached
    · intro h _
      rw [show m₂ = m₁ from hundone h hst]
      exact hback

theorem installed_allocHwSlot {g : Dbg} {slot : Nat} (h : g.allocHwSlot = some slot) :
    (g.watchpoints slot).installed = false := by
  simpa using find?_some h

def SetsWatchpoint (m : Machine) (address length type : Nat) : Prop :=
  m.dbg.attached = true ∧ (length = 1 ∨ length = 2 ∨ length = 4 ∨ length = 8) ∧ type ≤ 3 ∧
    m.dbg.findWatchpointSlot address = none ∧ m.dbg.allocHwSlot ≠ none

theorem setWatchpoint_failsClean (hnodup : m.threads.Nodup) (address length type : Nat)
    (hw : HwOutcome) :
    FailsClean m (setWatchpoint address length type hw m) ↔
      (SetsWatchpoint m address length type → SyncUndone true hw m) := by
  rw [setWatchpoint]
  split_ifs with hattached hlength htype hfound
  · exact iff_of_true (failsClean_same m _) fun h => absurd h.1 (by simpa using hattached)
  · exact iff_of_true (failsClean_same m _) fun h => absurd h.2.1 (by omega)
  · exact iff_of_true (failsClean_same m _) fun h => absurd h.2.2.1 (by omega)
  · refine iff_of_true (failsClean_same m _) fun h => ?_
    rw [h.2.2.2.1] at hfound
    cases hfound
  cases hslot : m.dbg.allocHwSlot with
  | none => exact iff_of_true (failsClean_same m _) fun h => absurd hslot h.2.2.2.2
  | some slot =>
    have hsets : SetsWatchpoint m address length type := by
      refine ⟨by simpa using hattached, by omega, by omega, by simpa using hfound, ?_⟩
      rw [hslot]
      rintro ⟨⟩
    rw [forall_prop_of_true hsets]
    refine failsClean_sync_iff (fun m => m.setWp slot Watchpoint.zero) hnodup rfl rfl
      (fun _ => rfl) ?_
    rw [Machine.setWp_setWp]
    exact Restored.setWp (installed_allocHwSlot hslot) rfl

theorem clearHardwareSlot_failsClean (hnodup : m.threads.Nodup) (slot : Nat) (hw : HwOutcome) :
    FailsClean m (clearHardwareSlot slot hw m) ↔ SyncUndone false hw m := by
  rw [clearHardwareSlot]
  refine failsClean_sync_iff (fun m' => m'.setWp slot (m.dbg.watchpoints slot)) hnodup rfl rfl
    (fun _ => rfl) ?_
  rw [Machine.setWp_setWp, Machine.setWp_self]
  exact .refl m

def ClearsWatchpoint (m : Machine) (address : Nat) : Prop :=
  m.dbg.attached = true ∧ m.dbg.findWatchpointSlot address ≠ none

theorem clearWatchpoint_failsClean (hnodup : m.threads.Nodup) (address : Nat) (hw : HwOutcome) :
    FailsClean m (clearWatchpoint address hw m) ↔
      (ClearsWatchpoint m address → SyncUndone false hw m) := by
  rw [clearWatchpoint]
  split_ifs with hattached
  · exact iff_of_true (failsClean_same m _) fun h => absurd h.1 (by simpa using hattached)
  cases hslot : m.dbg.findWatchpointSlot address with
  | none => exact iff_of_true (failsClean_same m _) fun h => absurd hslot h.2
  | some slot =>
    have hclears : ClearsWatchpoint m address :=
      ⟨by simpa using hattached, by rw [hslot]; rintro ⟨⟩⟩
    rw [forall_prop_of_true hclears]
    exact clearHardwareSlot_failsClean hnodup slot hw

def ClearsAllWatchpoints (m : Machine) : Prop :=
  m.dbg.attached = true ∧ ∃ i < maxWatchpoints, (m.dbg.watchpoints i).installed = true

theorem clearAllWatchpoints_failsClean (hnodup : m.threads.Nodup) (hw : HwOutcome) :
    FailsClean m (clearAllWatchpoints hw m) ↔
      (ClearsAllWatchpoints m → SyncUndone false hw m) := by
  rw [clearAllWatchpoints]
  split_ifs with hattached hany
  · exact iff_of_true (failsClean_same m _) fun h => absurd h.1 (by simpa using hattached)
  · obtain ⟨i, hi, hinstalled⟩ := any_eq_true.mp hany
    rw [forall_prop_of_true ⟨by simpa using hattached, i, mem_range.mp hi, hinstalled⟩]
    exact failsClean_sync_iff (fun m' => { m' with dbg := { m'.dbg with
      watchpoints := m.dbg.watchpoints } }) hnodup rfl rfl (fun _ => rfl) (.refl m)
  · refine iff_of_true (failsClean_of_ok rfl) ?_
    rintro ⟨-, i, hi, hinstalled⟩
    exact absurd (any_eq_true.mpr ⟨i, mem_range.mpr hi, hinstalled⟩) hany

def SetsHardwareBreakpoint (m : Machine) (address kind condReg condOp : Nat) : Prop :=
  m.dbg.attached = true ∧ condReg ≤ bpCondRip ∧ condOp ≤ bpCondGe ∧
    m.dbg.findBreakpointSlot address = none ∧ m.dbg.allocBreakpointSlot ≠ none ∧
      bpKindOf kind = some .hardware ∧ m.dbg.allocHwSlot ≠ none

theorem active_allocBreakpointSlot {g : Dbg} {slot : Nat} (h : g.allocBreakpointSlot = some slot) :
    (g.breakpoints slot).active = false := by
  simpa using find?_some h

theorem installSwBreakpoint_of_fail {read write : Status} {i : Nat}
    (h : (installSwBreakpoint read write i m).1 ≠ .ok) :
    ∃ bp, (installSwBreakpoint read write i m).2 = m.setBp i bp := by
  rw [installSwBreakpoint] at h ⊢
  split_ifs at h ⊢
  · exact absurd rfl h
  · exact ⟨m.dbg.breakpoints i, by simp only [Machine.setBp, update_eq_self]⟩
  · exact ⟨_, rfl⟩
  · exact absurd rfl h

theorem setHardwareBreakpoint_failsClean (hnodup : m.threads.Nodup) {slot : Nat}
    (hfree : (m.dbg.breakpoints slot).active = false) (bp : Breakpoint) (address : Nat)
    (hw : HwOutcome) :
    let r := setHardwareBreakpoint address hw (m.setBp slot bp)
    FailsClean m (r.1, if r.1 = .ok then r.2 else r.2.setBp slot Breakpoint.zero) ↔
      (m.dbg.allocHwSlot ≠ none → SyncUndone true hw m) := by
  generalize hr : setHardwareBreakpoint address hw (m.setBp slot bp) = r
  rw [setHardwareBreakpoint,
    show (m.setBp slot bp).dbg.allocHwSlot = m.dbg.allocHwSlot from rfl] at hr
  cases hhw : m.dbg.allocHwSlot with
  | none =>
    rw [hhw] at hr
    subst hr
    refine iff_of_true (fun _ => ?_) fun h => absurd rfl h
    dsimp only
    rw [if_neg (by decide), Machine.setBp_setBp]
    exact Restored.setBp hfree rfl
  | some hwSlot =>
    rw [hhw] at hr
    dsimp only at hr
    have hback : Restored m ((((m.setBp slot bp).setWp hwSlot
        (fakeWatchpoint address hwSlot)).setWp hwSlot Watchpoint.zero).setBp slot
          Breakpoint.zero) := by
      rw [Machine.setWp_setWp, Machine.setBp_setWp, Machine.setBp_setBp]
      exact (Restored.setBp hfree rfl).trans
        (@Restored.setWp (m.setBp slot Breakpoint.zero) hwSlot (installed_allocHwSlot hhw) _ rfl)
    rw [forall_prop_of_true (Option.some_ne_none hwSlot), ← @failsClean_sync_iff m true hw
      ((m.setBp slot bp).setWp hwSlot (fakeWatchpoint address hwSlot))
      (fun m => (m.setWp hwSlot Watchpoint.zero).setBp slot Breakpoint.zero) hnodup rfl rfl
      (fun _ => rfl) hback]
    generalize syncHardwareDbregs true hw
      ((m.setBp slot bp).setWp hwSlot (fakeWatchpoint address hwSlot)) = q at hr ⊢
    obtain ⟨st, m₂⟩ := q
    cases st
    all_goals
      subst hr
      exact Iff.rfl

theorem setBreakpointCond_failsClean (hnodup : m.threads.Nodup) (address kind condReg condOp : Nat)
    (condValue : Int) (o : SetOutcome) :
    FailsClean m (setBreakpointCond address kind condReg condOp condValue o m) ↔
      (SetsHardwareBreakpoint m address kind condReg condOp → SyncUndone true o.hw m) := by
  rw [setBreakpointCond]
  split_ifs with hattached hreg hop hfound
  · exact iff_of_true (failsClean_same m _) fun h => absurd h.1 (by simpa using hattached)
  · exact iff_of_true (failsClean_same m _) fun h => absurd h.2.1 (not_le.mpr hreg)
  · exact iff_of_true (failsClean_same m _) fun h => absurd h.2.2.1 (not_le.mpr hop)
  · refine iff_of_true (failsClean_same m _) fun h => ?_
    rw [h.2.2.2.1] at hfound
    cases hfound
  cases hslot : m.dbg.allocBreakpointSlot with
  | none => exact iff_of_true (failsClean_same m _) fun h => absurd hslot h.2.2.2.2.1
  | some slot =>
    have hfree := active_allocBreakpointSlot hslot
    cases hkind : bpKindOf kind with
    | none =>
      refine iff_of_true (fun _ => Restored.setBp hfree rfl) fun h => ?_
      cases hkind.symm.trans h.2.2.2.2.2.1
    | some k =>
      cases k with
      | software =>
        refine iff_of_true (fun hst => ?_) fun h => ?_
        · obtain ⟨bp, hbp⟩ := installSwBreakpoint_of_fail hst
          dsimp only at hst ⊢
          rw [if_neg hst, hbp, Machine.setBp_setBp, Machine.setBp_setBp]
          exact Restored.setBp hfree rfl
        · cases hkind.symm.trans h.2.2.2.2.2.1
      | hardware =>
        refine (setHardwareBreakpoint_failsClean hnodup hfree _ address o.hw).trans ?_
        refine imp_congr_left ⟨fun hhw => ?_, fun h => h.2.2.2.2.2.2⟩
        refine ⟨by simpa using hattached, not_lt.mp hreg, not_lt.mp hop,
          by simpa using hfound, ?_, hkind, hhw⟩
        rw [hslot]
        rintro ⟨⟩

def ClearsHardwareBreakpoint (m : Machine) (address : Nat) : Prop :=
  m.dbg.attached = true ∧ (∃ slot, m.dbg.findBreakpointSlot address = some slot ∧
    (m.dbg.breakpoints slot).kind = .hardware) ∧ m.dbg.findWatchpointSlot address ≠ none

theorem clearBreakpoint_failsClean (hnodup : m.threads.Nodup) (address : Nat) (write : Status)
    (hw : HwOutcome) :
    FailsClean m (clearBreakpoint address write hw m) ↔
      (ClearsHardwareBreakpoint m address → SyncUndone false hw m) := by
  rw [clearBreakpoint]
  split_ifs with hattached
  · exact iff_of_true (failsClean_same m _) fun h => absurd h.1 (by simpa using hattached)
  cases hslot : m.dbg.findBreakpointSlot address with
  | none =>
    refine iff_of_true (failsClean_same m _) fun h => ?_
    obtain ⟨slot, hfound, -⟩ := h.2.1
    cases hslot.symm.trans hfound
  | some slot =>
    dsimp only
    cases hkind : (m.dbg.breakpoints slot).kind with
    | software =>
      refine iff_of_true (fun hst => ?_) fun h => ?_
      · dsimp only at hst ⊢
        rw [if_neg hst, (uninstallSwBreakpoint_fail hst).1]
        exact .refl m
      · obtain ⟨slot', hfound, hhw⟩ := h.2.1
        cases hslot.symm.trans hfound
        cases hkind.symm.trans hhw
    | hardware =>
      cases hhw : m.dbg.findWatchpointSlot address with
      | none => exact iff_of_true (failsClean_of_ok rfl) fun h => absurd hhw h.2.2
      | some hwSlot =>
        have hclears : ClearsHardwareBreakpoint m address := by
          refine ⟨by simpa using hattached, ⟨slot, hslot, hkind⟩, ?_⟩
          rw [hhw]
          rintro ⟨⟩
        rw [forall_prop_of_true hclears, ← clearHardwareSlot_failsClean hnodup hwSlot hw]
        refine imp_congr_right fun hst => ?_
        rw [if_neg hst]

/-! ## Detaching -/

def ExitSeen (prog : Program) : List StopPoll → Machine → Prop
  | [], _ => False
  | o :: rest, m =>
    let m₁ := { m with target := m.target.advance prog o.runs o.halts }
    (m.dbg.attached = true ∧ o.poll.wait = .exited) ∨
      (pollEvents o.poll m₁).1 = .ok ∧ (pollEvents o.poll m₁).2.dbg.stopped = false ∧
        (pollEvents o.poll m₁).2.dbg.attached = true ∧ ExitSeen prog rest (pollEvents o.poll m₁).2

structure Kept (m m' : Machine) : Prop where
  patches : m'.patches = m.patches
  arming : m'.arming = m.arming
  dbregs : m'.dbg.dbregs = m.dbg.dbregs

theorem Kept.trans (h : Kept m m') (h' : Kept m' m'') : Kept m m'' where
  patches := h'.patches.trans h.patches
  arming := h'.arming.trans h.arming
  dbregs := h'.dbregs.trans h.dbregs

theorem Kept.restored (h : Kept m m') : Restored m m' where
  breakpoints i _ := congrArg Breakpoint.entry (congrFun (congrArg Patches.bps h.patches) i)
  watchpoints i _ := congrArg Watchpoint.entry (congrFun (congrArg Arming.wps h.arming) i)
  mem := congrArg Patches.mem h.patches
  dr := congrArg Arming.dr h.arming
  dbregs := h.dbregs
  dbregsValid := congrArg Arming.valid h.arming

theorem kept_advance (prog : Program) (m : Machine) (runs : List Nat) (halts : Bool) :
    Kept m { m with target := m.target.advance prog runs halts } :=
  ⟨Machine.patches_advance prog m runs halts, Machine.arming_advance prog m runs halts, rfl⟩

theorem pollEvents_kept {o : PollOutcome} (h : ¬(m.dbg.attached = true ∧ o.wait = .exited)) :
    Kept m (pollEvents o m).2 := by
  rw [pollEvents]
  split
  · exact ⟨rfl, rfl, rfl⟩
  · rename_i hattached
    have hwait : o.wait ≠ .exited := fun hwait => h ⟨by simpa using hattached, hwait⟩
    split
    · exact ⟨rfl, rfl, rfl⟩
    · exact ⟨rfl, rfl, rfl⟩
    · exact absurd (by assumption) hwait
    · split
      · exact ⟨rfl, rfl, rfl⟩
      · split
        · split_ifs
          all_goals exact ⟨rfl, rfl, rfl⟩
        · exact ⟨rfl, rfl, rfl⟩

structure Exited (m m' : Machine) : Prop where
  dbg : m'.dbg = .zero
  mem : m'.target.mem = m.target.own
  dr : m'.target.dr = m.target.dr

theorem pollEvents_exited {o : PollOutcome} (h : m.dbg.attached = true ∧ o.wait = .exited) :
    (pollEvents o m).1 = .errNotFound ∧ Exited m (pollEvents o m).2 := by
  rw [pollEvents, h.1, h.2]
  exact ⟨rfl, rfl, rfl, rfl⟩

theorem stopLoop_spec (prog : Program) (polls : List StopPoll) (m : Machine) :
    (¬ExitSeen prog polls m → Kept m (stopLoop prog polls m).2) ∧
      (ExitSeen prog polls m → (stopLoop prog polls m).1 = .errNotFound ∧
        Exited m (stopLoop prog polls m).2) := by
  induction polls generalizing m with
  | nil => exact ⟨fun _ => ⟨rfl, rfl, rfl⟩, False.elim⟩
  | cons o rest ih =>
    have hadvance := kept_advance prog m o.runs o.halts
    rw [ExitSeen, stopLoop]
    generalize { m with target := m.target.advance prog o.runs o.halts } = m₁ at hadvance ⊢
    have hattached : m₁.dbg.attached = m.dbg.attached :=
      congrArg Patches.attached hadvance.patches
    rw [← hattached]
    by_cases hexit : m₁.dbg.attached = true ∧ o.poll.wait = .exited
    · obtain ⟨hst, hexited⟩ := pollEvents_exited hexit
      refine ⟨fun h => absurd (.inl hexit) h, fun _ => ?_⟩
      generalize pollEvents o.poll m₁ = r at hst hexited ⊢
      obtain ⟨st, m₂⟩ := r
      subst hst
      refine ⟨rfl, hexited.dbg, hexited.mem.trans ?_, hexited.dr.trans ?_⟩
      · exact congrArg Patches.own hadvance.patches
      · exact congrArg Arming.dr hadvance.arming
    · have hkept := hadvance.trans (pollEvents_kept hexit)
      rw [or_iff_right hexit]
      generalize pollEvents o.poll m₁ = r at hkept ⊢
      obtain ⟨st, m₂⟩ := r
      by_cases hst : st = .ok
      · subst hst
        dsimp only at hkept ⊢
        split_ifs with hstopped hdetached
        · refine ⟨fun _ => hkept, fun h => ?_⟩
          rw [h.2.1] at hstopped
          cases hstopped
        · refine ⟨fun _ => hkept, fun h => ?_⟩
          rw [h.2.2.1] at hdetached
          cases hdetached
        · obtain ⟨ihkept, ihexit⟩ := ih m₂
          have hgoes : Status.ok = .ok ∧ m₂.dbg.stopped = false ∧ m₂.dbg.attached = true :=
            ⟨rfl, by simpa using hstopped, by simpa using hdetached⟩
          refine ⟨fun h => hkept.trans (ihkept fun hrest => h ?_), fun h => ?_⟩
          · exact ⟨hgoes.1, hgoes.2.1, hgoes.2.2, hrest⟩
          · obtain ⟨hnot, hexited⟩ := ihexit h.2.2.2
            refine ⟨hnot, hexited.dbg, hexited.mem.trans ?_, hexited.dr.trans ?_⟩
            · exact congrArg Patches.own hkept.patches
            · exact congrArg Arming.dr hkept.arming
      · cases st
        all_goals
          first
          | exact absurd rfl hst
          | exact ⟨fun _ => hkept, fun h => absurd h.1 hst⟩

def Machine.Held (m : Machine) (i : Nat) : Prop :=
  i < maxBreakpoints ∧ (m.dbg.breakpoints i).IsSoft ∧ (m.dbg.breakpoints i).installed = true

structure Taken (write : Nat → Status) (m : Machine) (n : Nat) (p : Status × Machine) : Prop where
  status : p.1 = .ok ↔ ∀ i < n, m.Held i → write i = .ok
  kept : ∀ i, n ≤ i ∨ ¬(m.Held i ∧ write i = .ok) →
    p.2.dbg.breakpoints i = m.dbg.breakpoints i
  taken : ∀ i < n, m.Held i → write i = .ok →
    p.2.dbg.breakpoints i = { m.dbg.breakpoints i with installed := false }
  mem : (∀ i < n, m.Held i → write i ≠ .ok) → p.2.target.mem = m.target.mem
  arming : p.2.arming = m.arming
  dbregs : p.2.dbg.dbregs = m.dbg.dbregs

theorem restoreEntry_eq (write : Nat → Status) (st : Status) (m : Machine) {i : Nat}
    (hi : i < maxBreakpoints) :
    (¬m.Held i → restoreEntry write (st, m) i = (st, m)) ∧
      (m.Held i → write i ≠ .ok →
        restoreEntry write (st, m) i = (if st = .ok then write i else st, m)) ∧
      (m.Held i → write i = .ok → restoreEntry write (st, m) i =
        (st, { m.setBp i { m.dbg.breakpoints i with installed := false } with
          target := m.target.poke (m.dbg.breakpoints i).address
            (m.dbg.breakpoints i).originalByte })) := by
  rw [restoreEntry, uninstallSwBreakpoint, Machine.Held, Breakpoint.IsSoft]
  cases hactive : (m.dbg.breakpoints i).active <;>
    cases hkind : (m.dbg.breakpoints i).kind <;>
      cases hinstalled : (m.dbg.breakpoints i).installed <;>
        by_cases hwrite : write i = .ok <;> simp_all

theorem restoreEntries_taken (write : Nat → Status) (m : Machine) {n : Nat}
    (hn : n ≤ maxBreakpoints) :
    Taken write m n ((List.range n).foldl (restoreEntry write) (.ok, m)) := by
  induction n with
  | zero => exact ⟨by simp, fun _ _ => rfl, nofun, fun _ => rfl, rfl, rfl⟩
  | succ n ih =>
    have htaken := ih (Nat.le_of_succ_le hn)
    rw [range_succ, foldl_append, foldl_cons, foldl_nil]
    generalize (List.range n).foldl (restoreEntry write) (.ok, m) = p at htaken ⊢
    obtain ⟨st, m₁⟩ := p
    have hsame : m₁.dbg.breakpoints n = m.dbg.breakpoints n := htaken.kept n (.inl le_rfl)
    have hheld : m₁.Held n ↔ m.Held n := by rw [Machine.Held, Machine.Held, hsame]
    obtain ⟨hfree, hfails, htakes⟩ := restoreEntry_eq write st m₁ hn
    rw [hheld] at hfree hfails htakes
    by_cases hn' : m.Held n
    · by_cases hwrite : write n = .ok
      · rw [htakes hn' hwrite, hsame]
        constructor
        · dsimp only
          rw [htaken.status, Nat.forall_lt_succ_right]
          exact ⟨fun h => ⟨h, fun _ => hwrite⟩, fun h => h.1⟩
        · intro i hi
          have hne : i ≠ n := by
            rintro rfl
            rcases hi with hi | hi
            · exact absurd hi (Nat.not_succ_le_self i)
            · exact hi ⟨hn', hwrite⟩
          dsimp only [Machine.setBp]
          rw [update_of_ne hne]
          exact htaken.kept i (hi.imp_left Nat.le_of_succ_le)
        · intro i hi hi' hok
          dsimp only [Machine.setBp]
          rcases Nat.lt_succ_iff_lt_or_eq.mp hi with hlt | rfl
          · rw [update_of_ne (Nat.ne_of_lt hlt)]
            exact htaken.taken i hlt hi' hok
          · rw [update_self]
        · intro h
          exact absurd hwrite (h n (Nat.lt_succ_self n) hn')
        · exact htaken.arming
        · exact htaken.dbregs
      · rw [hfails hn' hwrite]
        refine ⟨?_, fun i hi ↦ htaken.kept i (hi.imp_left Nat.le_of_succ_le), fun i hi hi' hok ↦ ?_,
          fun h => htaken.mem fun i hi => h i (Nat.lt_succ_of_lt hi), htaken.arming, htaken.dbregs⟩
        · refine iff_of_false ?_ fun h => hwrite (h n (Nat.lt_succ_self n) hn')
          split_ifs with hst
          · exact hwrite
          · exact hst
        · rcases Nat.lt_succ_iff_lt_or_eq.mp hi with hlt | rfl
          · exact htaken.taken i hlt hi' hok
          · exact absurd hok hwrite
    · rw [hfree hn']
      refine ⟨?_, fun i hi => htaken.kept i (hi.imp_left Nat.le_of_succ_le), fun i hi hi' => ?_,
        fun h => htaken.mem fun i hi => h i (Nat.lt_succ_of_lt hi), htaken.arming, htaken.dbregs⟩
      · rw [htaken.status, Nat.forall_lt_succ_right]
        exact ⟨fun h => ⟨h, fun h' => absurd h' hn'⟩, fun h => h.1⟩
      · rcases Nat.lt_succ_iff_lt_or_eq.mp hi with hlt | rfl
        · exact htaken.taken i hlt hi'
        · exact absurd hi' hn'

theorem HwOutcome.takes_of_applies {threads : List Nat}
    (h : hw.applies false threads = true) {lwp : Nat} (hlwp : lwp ∈ threads) :
    hw.takes lwp = true := by
  rw [HwOutcome.applies, if_neg (ne_nil_of_mem hlwp), Bool.false_and, Bool.or_false,
    Bool.and_eq_true, all_eq_true] at h
  exact h.2 lwp hlwp

theorem clearDbregs_eq (hw : HwOutcome) (hnodup : m.threads.Nodup) :
    ∃ dr, clearDbregs hw m = m.withDbregs (fun _ => 0) m.dbg.dbregsValid dr ∧
      (dr = m.target.dr ↔ (m.dbg.dbregsValid = true → hw.applies false m.threads = true →
        ∀ lwp ∈ m.threads, m.target.dr lwp = fun _ => 0)) := by
  rw [clearDbregs]
  split_ifs with hvalid
  · obtain ⟨dr, heq⟩ := applyDbregsToAll_eq false hw
      { m with dbg := { m.dbg with dbregs := fun _ => 0 } }
    have hdr := (applyDbregsToAll_applies false hw
      { m with dbg := { m.dbg with dbregs := fun _ => 0 } } hnodup).2
    rw [heq] at hdr
    refine ⟨dr, heq, ?_⟩
    constructor
    · rintro rfl _ happlies lwp hlwp
      have hlwp' := hdr lwp
      rwa [if_pos ⟨happlies, hlwp, HwOutcome.takes_of_applies happlies hlwp⟩] at hlwp'
    · intro h
      funext lwp
      refine (hdr lwp).trans ?_
      split_ifs with hcleared
      · exact (h hvalid hcleared.1 lwp hcleared.2.1).symm
      · rfl
  · exact ⟨m.target.dr, rfl, iff_of_true rfl fun h => absurd h hvalid⟩

structure Machine.Bare (m : Machine) : Prop where
  breakpoints : ∀ i < maxBreakpoints, (m.dbg.breakpoints i).active = false
  watchpoints : ∀ i < maxWatchpoints, (m.dbg.watchpoints i).installed = false
  mem : m.target.mem = m.target.own
  dbregs : m.dbg.dbregs = fun _ => 0
  dbregsValid : m.dbg.dbregsValid = false

theorem restored_exited_iff (h : Exited m m') : Restored m m' ↔ m.Bare := by
  constructor
  · rintro ⟨hbps, hwps, hmem, -, hdbregs, hvalid⟩
    rw [h.dbg] at hbps hwps hdbregs hvalid
    refine ⟨fun i hi => ?_, fun i hi => ?_, hmem.symm.trans h.mem, hdbregs.symm, hvalid.symm⟩
    · exact Breakpoint.entry_eq_none.mp (hbps i hi).symm
    · exact Watchpoint.entry_eq_none.mp (hwps i hi).symm
  · intro hbare
    refine ⟨fun i hi => ?_, fun i hi => ?_, h.mem.trans hbare.mem.symm, h.dr, ?_, ?_⟩
    · rw [h.dbg, Breakpoint.entry_eq_none.mpr (hbare.breakpoints i hi)]
      rfl
    · rw [h.dbg, Watchpoint.entry_eq_none.mpr (hbare.watchpoints i hi)]
      rfl
    · rw [h.dbg, hbare.dbregs]
      rfl
    · rw [h.dbg, hbare.dbregsValid]
      rfl

structure DetachUndone (prog : Program) (o : DetachOutcome) (m : Machine) : Prop where
  exit : m.dbg.stopped = false → o.stop = .ok → ExitSeen prog o.polls m → m.Bare
  restore : (detachStop prog o m).1 = .ok → (∃ i, m.Held i ∧ o.write i ≠ .ok) →
    ∀ i, m.Held i → o.write i ≠ .ok
  detach : (detachStop prog o m).1 = .ok → (∀ i, m.Held i → o.write i = .ok) →
    o.detach ≠ .ok → (∀ i, ¬m.Held i) ∧ (m.dbg.dbregs = fun _ => 0) ∧
      (m.dbg.dbregsValid = true → o.hw.applies false m.threads = true →
        ∀ lwp ∈ m.threads, m.target.dr lwp = fun _ => 0)

theorem Taken.restored_iff {write : Nat → Status} {p : Status × Machine}
    (h : Taken write m maxBreakpoints p) :
    Restored m p.2 ↔ ∀ i, m.Held i → write i ≠ .ok := by
  constructor
  · intro hres i hheld hok
    have hentry := hres.breakpoints i hheld.1
    rw [h.taken i hheld.1 hheld hok, Breakpoint.entry, Breakpoint.entry, hheld.2.1.1] at hentry
    have hinstalled := congrArg Breakpoint.installed (Option.some.inj hentry)
    rw [hheld.2.2] at hinstalled
    cases hinstalled
  · intro hnone
    refine ⟨fun i _ => ?_, fun i _ => ?_, h.mem fun i _ => hnone i, congrArg Arming.dr h.arming,
      h.dbregs, congrArg Arming.valid h.arming⟩
    · rw [h.kept i (.inr fun hi => hnone i hi.1 hi.2)]
    · exact congrArg Watchpoint.entry (congrFun (congrArg Arming.wps h.arming) i)

def DetachOutcome.Exits (prog : Program) (o : DetachOutcome) (m : Machine) : Prop :=
  m.dbg.stopped = false ∧ o.stop = .ok ∧ ExitSeen prog o.polls m

theorem detachStop_spec (prog : Program) (o : DetachOutcome) (m : Machine) :
    (¬o.Exits prog m → Kept m (detachStop prog o m).2) ∧
      (o.Exits prog m → (detachStop prog o m).1 = .errNotFound ∧
        Exited m (detachStop prog o m).2) := by
  rw [detachStop]
  split_ifs with hstopped hstop
  · refine ⟨fun _ => ⟨rfl, rfl, rfl⟩, fun h => ?_⟩
    rw [h.1] at hstopped
    cases hstopped
  · exact ⟨fun _ => ⟨rfl, rfl, rfl⟩, fun h => absurd h.2.1 hstop⟩
  · obtain ⟨hkept, hexit⟩ := stopLoop_spec prog o.polls m
    refine ⟨fun h => hkept fun hseen => h ?_, fun h => hexit h.2.2⟩
    exact ⟨by simpa using hstopped, not_not.mp hstop, hseen⟩

theorem debuggerDetach_of_stopped {prog : Program} {o : DetachOutcome}
    (hnodup : m₁.threads.Nodup) (hattached : m.dbg.attached = true)
    (hstop : detachStop prog o m = (.ok, m₁)) :
    FailsClean m₁ (debuggerDetach prog o m) ↔
      ((∃ i, m₁.Held i ∧ o.write i ≠ .ok) → ∀ i, m₁.Held i → o.write i ≠ .ok) ∧
      ((∀ i, m₁.Held i → o.write i = .ok) → o.detach ≠ .ok →
        (∀ i, ¬m₁.Held i) ∧ (m₁.dbg.dbregs = fun _ => 0) ∧
          (m₁.dbg.dbregsValid = true → o.hw.applies false m₁.threads = true →
            ∀ lwp ∈ m₁.threads, m₁.target.dr lwp = fun _ => 0)) := by
  have htaken := restoreEntries_taken o.write m₁ le_rfl
  rw [debuggerDetach, hattached, hstop, Bool.not_true, if_neg Bool.false_ne_true]
  dsimp only
  generalize (List.range maxBreakpoints).foldl (restoreEntry o.write) (.ok, m₁) = p
    at htaken ⊢
  have hall : p.1 = .ok ↔ ∀ i, m₁.Held i → o.write i = .ok :=
    htaken.status.trans ⟨fun h i hi => h i hi.1 hi, fun h i _ => h i⟩
  have hres := htaken.restored_iff
  obtain ⟨st, m₂⟩ := p
  by_cases hst : st = .ok
  · subst hst
    have hok := hall.mp rfl
    rw [and_iff_right (fun h => by obtain ⟨i, hi, hne⟩ := h; exact absurd (hok i hi) hne)]
    rw [forall_prop_of_true hok]
    dsimp only at hres ⊢
    split_ifs with hdetach
    · rw [forall_prop_of_true hdetach]
      have harming : m₂.arming = m₁.arming := htaken.arming
      have hthreads : m₂.threads = m₁.threads :=
        congrArg (List.take maxThreads) (congrArg Arming.lwps harming)
      have hdr : m₂.target.dr = m₁.target.dr := congrArg Arming.dr harming
      have hvalid : m₂.dbg.dbregsValid = m₁.dbg.dbregsValid := congrArg Arming.valid harming
      obtain ⟨dr, heq, hclear⟩ := @clearDbregs_eq m₂ o.hw (by rwa [hthreads])
      rw [hthreads, hdr, hvalid] at hclear
      rw [heq, ← hclear]
      constructor
      · intro h
        obtain ⟨hbps, hwps, hmem, hdr', hdbregs, -⟩ := h hdetach
        have hnone := hres.mp ⟨hbps, hwps, hmem, hdr, htaken.dbregs, hvalid⟩
        exact ⟨fun i hi => hnone i hi (hok i hi), hdbregs.symm, hdr'⟩
      · rintro ⟨hnone, hdbregs, hdr'⟩ _
        obtain ⟨hbps, hwps, hmem, -, -, -⟩ := hres.mpr fun i hi => absurd hi (hnone i)
        exact ⟨hbps, hwps, hmem, hdr', hdbregs.symm, hvalid⟩
    · exact iff_of_true (failsClean_of_ok rfl) fun h => absurd h hdetach
  · have hsome : ∃ i, m₁.Held i ∧ o.write i ≠ .ok := by
      by_contra h
      push Not at h
      exact hst (hall.mpr h)
    have hfails : ¬∀ i, m₁.Held i → o.write i = .ok := fun h => hst (hall.mpr h)
    rw [forall_prop_of_true hsome, and_iff_left fun h => absurd h hfails, ← hres]
    cases st
    all_goals first | exact absurd rfl hst | exact forall_prop_of_true hst

theorem debuggerDetach_failsClean (prog : Program) (hnodup : m.threads.Nodup) (o : DetachOutcome) :
    FailsClean m (debuggerDetach prog o m) ↔
      (m.dbg.attached = true → DetachUndone prog o m) := by
  by_cases hattached : m.dbg.attached = true
  swap
  · refine iff_of_true (fun _ => ?_) fun h => absurd h hattached
    rw [debuggerDetach, Bool.eq_false_iff.mpr hattached]
    exact .refl m
  rw [forall_prop_of_true hattached]
  obtain ⟨hkept, hexit⟩ := detachStop_spec prog o m
  by_cases hexits : o.Exits prog m
  · obtain ⟨hst, hexited⟩ := hexit hexits
    have hout : debuggerDetach prog o m = detachStop prog o m := by
      rw [debuggerDetach, hattached, Bool.not_true, if_neg Bool.false_ne_true]
      generalize detachStop prog o m = r at hst ⊢
      obtain ⟨st, m₁⟩ := r
      subst hst
      rfl
    rw [hout, FailsClean, hst, forall_prop_of_true (by decide), restored_exited_iff hexited]
    refine ⟨fun h => ⟨fun _ _ _ => h, fun hok => ?_, fun hok => ?_⟩,
      fun h => h.exit hexits.1 hexits.2.1 hexits.2.2⟩
    · cases hst.symm.trans hok
    · cases hst.symm.trans hok
  · have hsame := hkept hexits
    have hexit' : m.dbg.stopped = false → o.stop = .ok → ExitSeen prog o.polls m → m.Bare :=
      fun hstopped hstop hseen => absurd ⟨hstopped, hstop, hseen⟩ hexits
    obtain ⟨st, m₁, hstop⟩ : ∃ st m₁, detachStop prog o m = (st, m₁) := ⟨_, _, rfl⟩
    rw [hstop] at hsame
    by_cases hst : st = .ok
    · subst hst
      have hthreads : m₁.threads = m.threads :=
        congrArg (List.take maxThreads) (congrArg Arming.lwps hsame.arming)
      have hdr : m₁.target.dr = m.target.dr := congrArg Arming.dr hsame.arming
      have hvalid : m₁.dbg.dbregsValid = m.dbg.dbregsValid := congrArg Arming.valid hsame.arming
      have hbps : m₁.dbg.breakpoints = m.dbg.breakpoints := congrArg Patches.bps hsame.patches
      have hheld : ∀ i, m₁.Held i ↔ m.Held i := fun i => by rw [Machine.Held, Machine.Held, hbps]
      have hdetach := debuggerDetach_of_stopped (by rwa [hthreads]) hattached hstop
      rw [hthreads, hdr, hvalid, hsame.dbregs] at hdetach
      simp only [hheld] at hdetach
      have hclean : FailsClean m (debuggerDetach prog o m) ↔
          FailsClean m₁ (debuggerDetach prog o m) :=
        imp_congr_right fun _ => ⟨hsame.restored.symm.trans, hsame.restored.trans⟩
      rw [hclean, hdetach]
      constructor
      · rintro ⟨hrestore, hlast⟩
        exact ⟨hexit', fun _ => hrestore, fun _ => hlast⟩
      · intro h
        have hok : (detachStop prog o m).1 = .ok := by rw [hstop]
        exact ⟨h.restore hok, h.detach hok⟩
    · have hnot : (detachStop prog o m).1 ≠ .ok := by rwa [hstop]
      refine iff_of_true (fun _ => ?_) ⟨hexit', fun h => absurd h hnot, fun h => absurd h hnot⟩
      have hout : debuggerDetach prog o m = (st, m₁) := by
        rw [debuggerDetach, hattached, Bool.not_true, if_neg Bool.false_ne_true, hstop]
        cases st
        all_goals first | exact absurd rfl hst | rfl
      rw [hout]
      exact hsame.restored

/-! ## All requests -/

/-- The requests that undo what they have done if they fail. -/
def Operation.Undoing : Operation → Prop
  | .setBreakpoint .. | .clearBreakpoint .. | .setWatchpoint .. | .clearWatchpoint .. |
    .clearAllWatchpoints .. | .detach .. => True
  | _ => False

/-- A failure of the request can be undone. -/
def Operation.Undone (prog : Program) (m : Machine) : Operation → Prop
  | .setBreakpoint address kind condReg condOp _ o =>
    SetsHardwareBreakpoint m address kind condReg condOp → SyncUndone true o.hw m
  | .clearBreakpoint address _ hw => ClearsHardwareBreakpoint m address → SyncUndone false hw m
  | .setWatchpoint address length type hw =>
    SetsWatchpoint m address length type → SyncUndone true hw m
  | .clearWatchpoint address hw => ClearsWatchpoint m address → SyncUndone false hw m
  | .clearAllWatchpoints hw => ClearsAllWatchpoints m → SyncUndone false hw m
  | .detach o => m.dbg.attached = true → DetachUndone prog o m
  | _ => True

/-- A failed request leaves the session as it was exactly if its failure can be undone. -/
theorem serve_restored_iff (prog : Program) (m : Machine) (op : Operation) (hop : op.Undoing)
    (hlwps : m.target.lwps.Nodup) :
    ((op.serve prog m).1 ≠ .ok → Restored m (op.serve prog m).2) ↔ op.Undone prog m := by
  have hnodup : m.threads.Nodup := hlwps.sublist (take_sublist _ _)
  cases op with
  | setBreakpoint address kind condReg condOp condValue o =>
    exact setBreakpointCond_failsClean hnodup address kind condReg condOp condValue o
  | clearBreakpoint address write hw => exact clearBreakpoint_failsClean hnodup address write hw
  | clearAllBreakpoints write hw => exact hop.elim
  | setWatchpoint address length type hw =>
    exact setWatchpoint_failsClean hnodup address length type hw
  | clearWatchpoint address hw => exact clearWatchpoint_failsClean hnodup address hw
  | clearAllWatchpoints hw => exact clearAllWatchpoints_failsClean hnodup hw
  | «continue» o => exact hop.elim
  | step lwp o => exact hop.elim
  | pollEvents o => exact hop.elim
  | detach o => exact debuggerDetach_failsClean prog hnodup o

def oneWatchpoint : Machine := (setWatchpoint 0x2000 8 1 .fine ⟨Dbg.attach, .idle [1, 2]⟩).2

def HwOutcome.gone : HwOutcome := ⟨true, .ok, fun _ => .errNotFound, fun _ => .errNotFound⟩

theorem serve_restored_iff_setWatchpoint :
    Restored oneWatchpoint (setWatchpoint 0x3000 4 1 .gone oneWatchpoint).2 :=
  (serve_restored_iff (fun _ _ r => r) oneWatchpoint (.setWatchpoint 0x3000 4 1 .gone) trivial
    (by decide)).mpr (fun _ => .inl (by decide)) (by decide)

def DetachOutcome.refused : DetachOutcome := ⟨.ok, [], fun _ => .ok, .fine, .errPermission⟩

theorem detach_not_restored : ¬∀ (prog : Program) (m : Machine) (op : Operation), op.Undoing →
    m.target.lwps.Nodup → (op.serve prog m).1 ≠ .ok → Restored m (op.serve prog m).2 := by
  intro h
  have hentry := (h (fun _ _ r => r) oneBreakpoint (.detach .refused) trivial (by decide)
    (by decide)).breakpoints 0 (by decide)
  revert hentry
  decide

end MemDbg.Debug
