import MemDbg.Debug.Session
import Mathlib.Data.List.Induction
import Mathlib.Data.Nat.Bitwise

/-!
# The debug registers of the threads

The watchpoint table, the cached registers and the registers of every thread are three
copies of one thing.  No thread may have a slot enabled that the table does not have.
-/

namespace MemDbg.Debug

open List Lib Function

/-! ## The bits of DR7 -/

def Watchpoint.bits (wp : Watchpoint) (i : Nat) : Nat :=
  (wp.rw <<< (16 + i * 4) ||| wp.len <<< (16 + i * 4 + 2)) ||| 1 <<< (i * 2) ||| 1 <<< (i * 2 + 1)

theorem testBit_buildDr7 (wps : Nat → Watchpoint) (n : Nat) :
    (buildDr7 wps).testBit n = (List.range maxWatchpoints).any fun i =>
      (wps i).installed && ((wps i).bits i).testBit n := by
  have hfold : ∀ (l : List Nat) (dr7 : Nat), (l.foldl (fun dr7 i =>
      let wp := wps i
      if wp.installed then
        let shift := 16 + i * 4
        dr7 ||| (wp.rw <<< shift ||| wp.len <<< (shift + 2)) ||| 1 <<< (i * 2) |||
          1 <<< (i * 2 + 1)
      else dr7) dr7).testBit n =
      (dr7.testBit n || l.any fun i => (wps i).installed && ((wps i).bits i).testBit n) := by
    intro l
    induction l with
    | nil =>
      intro dr7
      rw [foldl_nil, any_nil, Bool.or_false]
    | cons i l ih =>
      intro dr7
      rw [foldl_cons, any_cons, ih]
      dsimp only
      split_ifs with hinstalled
      · simp only [Watchpoint.bits, Nat.testBit_or, hinstalled, Bool.true_and, Bool.or_assoc]
      · rw [Bool.not_eq_true] at hinstalled
        rw [hinstalled, Bool.false_and, Bool.false_or]
  rw [buildDr7, hfold, Nat.zero_testBit, Bool.false_or]

theorem Watchpoint.rw_lt (wp : Watchpoint) : wp.rw < 4 := by
  rw [Watchpoint.rw]
  split
  all_goals decide

theorem Watchpoint.len_lt (wp : Watchpoint) : wp.len < 4 := by
  rw [Watchpoint.len]
  split
  all_goals decide

def places (i : Nat) : List Nat :=
  [i * 2, i * 2 + 1, 16 + i * 4, 16 + i * 4 + 1, 16 + i * 4 + 2, 16 + i * 4 + 3]

theorem Watchpoint.testBit_bits_of_ne (wp : Watchpoint) {i j n : Nat} (hi : i < maxWatchpoints)
    (hj : j < maxWatchpoints) (hne : j ≠ i) (hn : n ∈ places i) :
    (wp.bits j).testBit n = false := by
  have hall : ∀ rw len i j : Fin 4, j ≠ i → ∀ n ∈ places i, Nat.testBit
      ((rw.1 <<< (16 + j.1 * 4) ||| len.1 <<< (16 + j.1 * 4 + 2)) ||| 1 <<< (j.1 * 2) |||
        1 <<< (j.1 * 2 + 1)) n = false := by decide
  exact hall ⟨wp.rw, wp.rw_lt⟩ ⟨wp.len, wp.len_lt⟩ ⟨i, hi⟩ ⟨j, hj⟩
    (fun h => hne (congrArg Fin.val h)) n hn

theorem testBit_buildDr7_places (wps : Nat → Watchpoint) {i n : Nat} (hi : i < maxWatchpoints)
    (hn : n ∈ places i) :
    (buildDr7 wps).testBit n = ((wps i).installed && ((wps i).bits i).testBit n) := by
  rw [testBit_buildDr7, Bool.eq_iff_iff, any_eq_true]
  constructor
  · rintro ⟨j, hj, hbit⟩
    rcases eq_or_ne j i with rfl | hne
    · exact hbit
    · rw [(wps j).testBit_bits_of_ne hi (mem_range.1 hj) hne hn, Bool.and_false] at hbit
      cases hbit
  · intro hbit
    exact ⟨i, mem_range.2 hi, hbit⟩

/-! ## Registers that agree with the table -/

def Agrees (wps : Nat → Watchpoint) (d : Dbregs) : Prop :=
  ∀ i < maxWatchpoints, (d 7).testBit (i * 2) = true ∨ (d 7).testBit (i * 2 + 1) = true →
    (wps i).installed = true ∧ d i = (wps i).address ∧
      ∀ n ∈ places i, (d 7).testBit n = (buildDr7 wps).testBit n

/-- DR0 to DR3 and DR7 are zero. -/
def Clear (d : Dbregs) : Prop := (∀ i < maxWatchpoints, d i = 0) ∧ d 7 = 0

theorem Clear.agrees {d : Dbregs} (h : Clear d) (wps : Nat → Watchpoint) : Agrees wps d := by
  intro i _ hbit
  rw [h.2, Nat.zero_testBit, Nat.zero_testBit] at hbit
  rcases hbit with hbit | hbit
  all_goals cases hbit

section

variable {wps : Nat → Watchpoint} {d d' : Dbregs}

theorem Agrees.congr (h : Agrees wps d) (heq : ∀ r ≠ 6, d' r = d r) : Agrees wps d' := by
  intro i hi hbit
  rw [heq 7 (by decide)] at hbit ⊢
  rw [heq i (Nat.ne_of_lt (Nat.lt_trans hi (by decide)))]
  exact h i hi hbit

theorem Clear.congr (h : Clear d) (heq : ∀ r ≠ 6, d' r = d r) : Clear d' := by
  refine ⟨fun i hi => ?_, ?_⟩
  · rw [heq i (Nat.ne_of_lt (Nat.lt_trans hi (by decide)))]
    exact h.1 i hi
  · rw [heq 7 (by decide)]
    exact h.2

theorem agrees_configured (wps : Nat → Watchpoint) (d : Dbregs) :
    Agrees wps (configured wps d) := by
  intro i hi hbit
  have hdr7 : configured wps d 7 = buildDr7 wps := rfl
  have hinstalled : (wps i).installed = true := by
    rw [hdr7, testBit_buildDr7_places wps hi (by simp [places]),
      testBit_buildDr7_places wps hi (by simp [places]), Bool.and_eq_true, Bool.and_eq_true] at hbit
    rcases hbit with hbit | hbit
    · exact hbit.1
    · exact hbit.1
  refine ⟨hinstalled, ?_, fun n _ => by rw [hdr7]⟩
  rw [configured, if_pos hi, if_pos hinstalled]

theorem clear_configured (hnone : ∀ i, (wps i).installed = false) (d : Dbregs) :
    Clear (configured wps d) := by
  refine ⟨fun i hi => ?_, ?_⟩
  · rw [configured, if_pos hi, if_neg (by rw [hnone i]; decide)]
  · refine Nat.zero_of_testBit_eq_false fun n => ?_
    rw [show configured wps d 7 = buildDr7 wps from rfl, testBit_buildDr7]
    simp [hnone]

theorem Agrees.update_of_free (h : Agrees wps d) {slot : Nat} (hfree : (wps slot).installed = false)
    (w : Watchpoint) : Agrees (update wps slot w) d := by
  intro i hi hbit
  obtain ⟨hinstalled, haddress, hplaces⟩ := h i hi hbit
  have hne : i ≠ slot := by
    rintro rfl
    rw [hfree] at hinstalled
    cases hinstalled
  rw [update_of_ne hne]
  refine ⟨hinstalled, haddress, fun n hn => ?_⟩
  rw [hplaces n hn, testBit_buildDr7_places _ hi hn, testBit_buildDr7_places _ hi hn,
    update_of_ne hne]

end

/-! ## One update of all threads -/

structure Applied.Over (dbregs : Dbregs) (hw : HwOutcome) (dr : Nat → Dbregs) (lwps : List Nat)
    (a : Applied) : Prop where
  saved : ∀ p ∈ a.changed, p.1 ∈ lwps ∧ p.2 = dr p.1
  written : ∀ lwp ∈ a.changed.map Prod.fst, a.dr lwp = dbregs
  kept : ∀ lwp ∉ a.changed.map Prod.fst, a.dr lwp = dr lwp
  complete : a.skipped = 0 → ∀ lwp ∈ lwps, lwp ∈ a.changed.map Prod.fst
  failed : a.skipped ≠ 0 → a.lastError ≠ .ok
  fine : (∀ lwp ∈ lwps, hw.get lwp = .ok ∧ hw.set lwp = .ok) → a.skipped = 0

section

variable {dbregs : Dbregs} {hw : HwOutcome} {dr : Nat → Dbregs} {lwps : List Nat} {a : Applied}

variable {st : Status}

theorem Applied.Over.skip (h : a.Over dbregs hw dr lwps) {lwp : Nat} (hst : st ≠ .ok)
    (hnot : ¬ (hw.get lwp = .ok ∧ hw.set lwp = .ok)) :
    Applied.Over dbregs hw dr (lwps ++ [lwp])
      { a with skipped := a.skipped + 1, lastError := st } where
  saved p hp := ⟨mem_append_left _ (h.saved p hp).1, (h.saved p hp).2⟩
  written := h.written
  kept := h.kept
  complete h0 := by cases h0
  failed _ := hst
  fine hall := absurd (hall lwp (mem_append_right _ (mem_singleton_self lwp))) hnot

theorem applyThread_over (h : a.Over dbregs hw dr lwps) {lwp : Nat} (hlwp : lwp ∉ lwps) :
    (applyThread dbregs hw a lwp).Over dbregs hw dr (lwps ++ [lwp]) := by
  rw [applyThread]
  split_ifs with hget hset
  · exact h.skip hget fun hok => hget hok.1
  · exact h.skip hset fun hok => hset hok.2
  · have hfresh : lwp ∉ a.changed.map Prod.fst := by
      intro hmem
      obtain ⟨p, hp, rfl⟩ := mem_map.1 hmem
      exact hlwp (h.saved p hp).1
    have hkeys :
      (a.changed ++ [(lwp, a.dr lwp)]).map Prod.fst = a.changed.map Prod.fst ++ [lwp] := by
      rw [map_append, map_cons, map_nil]
    constructor
    · intro p hp
      rcases mem_append.1 hp with hp | hp
      · exact ⟨mem_append_left _ (h.saved p hp).1, (h.saved p hp).2⟩
      · rw [mem_singleton] at hp
        subst hp
        exact ⟨mem_append_right _ (mem_singleton_self lwp), h.kept lwp hfresh⟩
    · intro l hl
      dsimp only at hl ⊢
      rcases eq_or_ne l lwp with rfl | hne
      · rw [update_self]
      · rw [hkeys, mem_append, mem_singleton] at hl
        rw [update_of_ne hne]
        exact h.written l (hl.resolve_right hne)
    · intro l hl
      dsimp only at hl ⊢
      rw [hkeys, mem_append, mem_singleton, not_or] at hl
      rw [update_of_ne hl.2]
      exact h.kept l hl.1
    · intro h0 l hl
      rw [hkeys]
      rcases mem_append.1 hl with hl | hl
      · exact mem_append_left _ (h.complete h0 l hl)
      · exact mem_append_right _ hl
    · exact h.failed
    · exact fun hall => h.fine fun l hl => hall l (mem_append_left _ hl)

theorem applyThreads_over (dbregs : Dbregs) (hw : HwOutcome) (dr : Nat → Dbregs) {lwps : List Nat}
    (hnodup : lwps.Nodup) :
    (lwps.foldl (applyThread dbregs hw) ⟨dr, [], 0, .ok⟩).Over dbregs hw dr lwps := by
  induction lwps using List.reverseRecOn with
  | nil =>
    constructor
    · exact fun p hp => absurd hp not_mem_nil
    · exact fun lwp hlwp => absurd hlwp not_mem_nil
    · exact fun _ _ => rfl
    · exact fun _ lwp hlwp => absurd hlwp not_mem_nil
    · exact fun h0 => absurd rfl h0
    · exact fun _ => rfl
  | append_singleton lwps lwp ih =>
    rw [foldl_append, foldl_cons, foldl_nil]
    rw [nodup_append] at hnodup
    refine applyThread_over (ih hnodup.1) fun hmem => ?_
    exact hnodup.2.2 lwp hmem lwp (mem_singleton_self lwp) rfl

theorem Applied.Over.rollback_eq (h : a.Over dbregs hw dr lwps) :
    rollback a.dr a.changed = dr := by
  have hall : ∀ (changed : List (Nat × Dbregs)) (dr' : Nat → Dbregs),
      (∀ p ∈ changed, p.2 = dr p.1) → (∀ lwp ∉ changed.map Prod.fst, dr' lwp = dr lwp) →
        rollback dr' changed = dr := by
    intro changed
    induction changed with
    | nil =>
      intro dr' _ hkept
      exact funext fun lwp => hkept lwp not_mem_nil
    | cons p changed ih =>
      intro dr' hsaved hkept
      refine ih _ (fun q hq => hsaved q (mem_cons_of_mem p hq)) fun lwp hlwp => ?_
      dsimp only
      rcases eq_or_ne lwp p.1 with rfl | hne
      · rw [update_self]
        exact hsaved p mem_cons_self
      · rw [update_of_ne hne]
        refine hkept lwp ?_
        rw [map_cons, mem_cons, not_or]
        exact ⟨hne, hlwp⟩
  exact hall a.changed a.dr (fun p hp => (h.saved p hp).2) h.kept

end

theorem applyDbregsToAll_spec (allowPartial : Bool) (hw : HwOutcome) {m : Machine}
    (hnodup : m.threads.Nodup) {m' : Machine}
    (h : applyDbregsToAll allowPartial hw m = (st, m')) :
    (∀ lwp, m'.target.dr lwp = m.target.dr lwp ∨ m'.target.dr lwp = m.dbg.dbregs) ∧
      (st ≠ .ok → m'.target.dr = m.target.dr) ∧
      (allowPartial = false → st = .ok → ∀ lwp ∈ m.threads, m'.target.dr lwp = m.dbg.dbregs) ∧
      (allowPartial = false → hw.calloc = true →
        (∀ lwp ∈ m.threads, hw.get lwp = .ok ∧ hw.set lwp = .ok) → st = .ok) := by
  have hover := applyThreads_over m.dbg.dbregs hw m.target.dr hnodup
  rw [applyDbregsToAll] at h
  dsimp only at h
  split at h
  · rename_i hzero
    cases h
    refine ⟨fun _ => .inl rfl, fun _ => rfl, fun _ _ lwp hlwp => ?_, fun hstrict _ _ => ?_⟩
    · rw [eq_nil_of_length_eq_zero hzero] at hlwp
      exact absurd hlwp not_mem_nil
    · rw [hstrict]
      rfl
  · split at h
    · rename_i hcalloc
      cases h
      refine ⟨fun _ => .inl rfl, fun _ => rfl, fun _ hst => (by cases hst), fun _ hc => ?_⟩
      rw [hc] at hcalloc
      cases hcalloc
    · split at h
      · rename_i hdone
        cases h
        refine ⟨fun lwp => ?_, fun hst => absurd rfl hst, fun hstrict _ lwp hlwp => ?_,
          fun _ _ _ => rfl⟩
        · by_cases hlwp : lwp ∈ (m.threads.foldl (applyThread m.dbg.dbregs hw)
            ⟨m.target.dr, [], 0, .ok⟩).changed.map Prod.fst
          · exact .inr (hover.written lwp hlwp)
          · exact .inl (hover.kept lwp hlwp)
        · rw [hstrict, Bool.false_and, Bool.or_false, decide_eq_true_eq] at hdone
          exact hover.written lwp (hover.complete hdone lwp hlwp)
      · rename_i hnot
        cases h
        have hskipped : (m.threads.foldl (applyThread m.dbg.dbregs hw)
            ⟨m.target.dr, [], 0, .ok⟩).skipped ≠ 0 := by
          intro h0
          rw [h0] at hnot
          exact hnot rfl
        rw [hover.rollback_eq]
        refine ⟨fun _ => .inl rfl, fun _ => rfl, fun _ hst => ?_, fun _ _ hall => ?_⟩
        · exact absurd hst (hover.failed hskipped)
        · exact absurd (hover.fine hall) hskipped

def HwOutcome.Succeeds (hw : HwOutcome) (m : Machine) : Prop :=
  hw.calloc = true ∧ ∀ lwp ∈ m.threads, hw.get lwp = .ok ∧ hw.set lwp = .ok

structure Synced (allowPartial : Bool) (hw : HwOutcome) (m : Machine) (st : Status) (m' : Machine) :
    Prop where
  table : m'.dbg.watchpoints = m.dbg.watchpoints
  lwps : m'.target.lwps = m.target.lwps
  valid : m'.dbg.dbregsValid = false → m.dbg.dbregsValid = false
  rewritten : ∀ lwp, m'.target.dr lwp = m.target.dr lwp ∨
    ∃ d, m'.target.dr lwp = configured m.dbg.watchpoints d
  failed : st ≠ .ok → m'.target.dr = m.target.dr
  done : st = .ok → m'.dbg.dbregsValid = true
  all : allowPartial = false → st = .ok → ∀ lwp ∈ m.threads,
    ∃ d, m'.target.dr lwp = configured m.dbg.watchpoints d
  fine : allowPartial = false → m.dbg.dbregsValid = true → hw.Succeeds m → st = .ok

theorem refreshDbregs_spec {hw : HwOutcome} {m m' : Machine} (h : refreshDbregs hw m = (st, m')) :
    ∃ dbregs valid, m' = m.withDbregs dbregs valid m.target.dr ∧
      (valid = false → m.dbg.dbregsValid = false) ∧ (st = .ok → valid = true) ∧
      (m.dbg.dbregsValid = true → st = .ok) := by
  rw [refreshDbregs] at h
  split at h
  · rename_i hvalid
    cases h
    exact ⟨m.dbg.dbregs, m.dbg.dbregsValid, rfl, fun h => h, fun _ => hvalid, fun _ => rfl⟩
  · rename_i hvalid
    split at h
    · cases h
      exact ⟨m.dbg.dbregs, m.dbg.dbregsValid, rfl, fun h => h, fun hst => (by cases hst),
        fun hv => absurd hv hvalid⟩
    · split at h
      · rename_i hrefresh
        cases h
        exact ⟨m.dbg.dbregs, m.dbg.dbregsValid, rfl, fun h => h, fun hst => absurd hst hrefresh,
          fun hv => absurd hv hvalid⟩
      · cases h
        exact ⟨_, true, rfl, fun h => (by cases h), fun _ => rfl, fun _ => rfl⟩

theorem syncHardwareDbregs_spec {allowPartial : Bool} {hw : HwOutcome} {m m' : Machine}
    (hnodup : m.threads.Nodup) (h : syncHardwareDbregs allowPartial hw m = (st, m')) :
    Synced allowPartial hw m st m' := by
  obtain ⟨st₁, m₁, hrefresh⟩ : ∃ st₁ m₁, refreshDbregs hw m = (st₁, m₁) := ⟨_, _, rfl⟩
  obtain ⟨dbregs, valid, rfl, hvalid, hok, hfine⟩ := refreshDbregs_spec hrefresh
  rw [syncHardwareDbregs, hrefresh] at h
  by_cases hst₁ : st₁ = .ok
  · subst hst₁
    cases hok rfl
    obtain ⟨st₂, m₂, happly⟩ : ∃ st₂ m₂, applyDbregsToAll allowPartial hw
        (m.withDbregs (configured m.dbg.watchpoints dbregs) true m.target.dr) = (st₂, m₂) :=
      ⟨_, _, rfl⟩
    obtain ⟨hrewritten, hfailed, hall, hsucceeds⟩ := applyDbregsToAll_spec
      (m := m.withDbregs (configured m.dbg.watchpoints dbregs) true m.target.dr)
      allowPartial hw hnodup happly
    obtain ⟨dr, heq⟩ := applyDbregsToAll_eq allowPartial hw
      (m.withDbregs (configured m.dbg.watchpoints dbregs) true m.target.dr)
    rw [happly] at heq
    cases heq
    dsimp only [Machine.withDbregs] at h happly
    rw [happly] at h
    by_cases hst₂ : st₂ = .ok
    · subst hst₂
      cases h
      exact ⟨rfl, rfl, fun hv => (by cases hv), fun lwp => (hrewritten lwp).imp id fun h => ⟨_, h⟩,
        hfailed, fun _ => rfl, fun hp hst lwp hlwp => ⟨_, hall hp hst lwp hlwp⟩, fun _ _ _ => rfl⟩
    · have hres : (st, m') = (st₂, m.withDbregs dbregs true dr) := by
        rw [← h]
        cases st₂
        all_goals first | exact absurd rfl hst₂ | rfl
      cases hres
      exact ⟨rfl, rfl, fun hv => (by cases hv), fun lwp => (hrewritten lwp).imp id fun h => ⟨_, h⟩,
        hfailed, fun _ => rfl, fun hp hst lwp hlwp => ⟨_, hall hp hst lwp hlwp⟩,
        fun hp _ hs => hsucceeds hp hs.1 hs.2⟩
  · have hres : (st, m') = (st₁, m.withDbregs dbregs valid m.target.dr) := by
      rw [← h]
      cases st₁
      all_goals first | exact absurd rfl hst₁ | rfl
    cases hres
    exact ⟨rfl, rfl, hvalid, fun lwp => .inl rfl, fun _ => rfl, hok, fun _ hst => absurd hst hst₁,
      fun _ hv _ => hfine hv⟩

/-! ## The invariant -/

structure Arming where
  wps : Nat → Watchpoint
  valid : Bool
  lwps : List Nat
  dr : Nat → Dbregs

def Machine.arming (m : Machine) : Arming :=
  ⟨m.dbg.watchpoints, m.dbg.dbregsValid, m.target.lwps, m.target.dr⟩

namespace Arming

structure Inv (r : Arming) : Prop where
  nodup : r.lwps.Nodup
  length : r.lwps.length ≤ maxThreads
  agrees : ∀ lwp ∈ r.lwps, Agrees r.wps (r.dr lwp)
  unread : r.valid = false →
    (∀ i, (r.wps i).installed = false) ∧ ∀ lwp ∈ r.lwps, Clear (r.dr lwp)

variable {r : Arming} {valid : Bool} {dr : Nat → Dbregs}

theorem Inv.rewrite (h : r.Inv) (hvalid : valid = false → r.valid = false)
    (hdr : ∀ lwp, (∀ q ≠ 6, dr lwp q = r.dr lwp q) ∨
      ∃ d, ∀ q ≠ 6, dr lwp q = configured r.wps d q) :
    Inv ⟨r.wps, valid, r.lwps, dr⟩ where
  nodup := h.nodup
  length := h.length
  agrees lwp hlwp := by
    rcases hdr lwp with hsame | ⟨d, hconf⟩
    · exact (h.agrees lwp hlwp).congr hsame
    · exact (agrees_configured r.wps d).congr hconf
  unread hv := by
    obtain ⟨hnone, hclear⟩ := h.unread (hvalid hv)
    refine ⟨hnone, fun lwp hlwp => ?_⟩
    rcases hdr lwp with hsame | ⟨d, hconf⟩
    · exact (hclear lwp hlwp).congr hsame
    · exact (clear_configured hnone d).congr hconf

theorem Inv.arm (h : r.Inv) {slot : Nat} (hfree : (r.wps slot).installed = false) (w : Watchpoint)
    (hdr : ∀ lwp, dr lwp = r.dr lwp ∨ ∃ d, dr lwp = configured (update r.wps slot w) d) :
    Inv ⟨update r.wps slot w, true, r.lwps, dr⟩ where
  nodup := h.nodup
  length := h.length
  agrees lwp hlwp := by
    dsimp only
    rcases hdr lwp with hsame | ⟨d, hconf⟩
    · rw [hsame]
      exact (h.agrees lwp hlwp).update_of_free hfree w
    · rw [hconf]
      exact agrees_configured _ d
  unread hv := by cases hv

theorem Inv.forget (h : r.Inv) (hvalid : valid = false → r.valid = false) {slot : Nat}
    (hfree : (r.wps slot).installed = false) :
    Inv ⟨update r.wps slot Watchpoint.zero, valid, r.lwps, r.dr⟩ where
  nodup := h.nodup
  length := h.length
  agrees lwp hlwp := (h.agrees lwp hlwp).update_of_free hfree Watchpoint.zero
  unread hv := by
    obtain ⟨hnone, hclear⟩ := h.unread (hvalid hv)
    refine ⟨fun i => ?_, hclear⟩
    dsimp only
    rcases eq_or_ne i slot with rfl | hne
    · rw [update_self]
      rfl
    · rw [update_of_ne hne]
      exact hnone i

theorem Inv.all (h : r.Inv) {wps : Nat → Watchpoint}
    (hdr : ∀ lwp ∈ r.lwps, ∃ d, dr lwp = configured wps d) : Inv ⟨wps, true, r.lwps, dr⟩ where
  nodup := h.nodup
  length := h.length
  agrees lwp hlwp := by
    obtain ⟨d, hconf⟩ := hdr lwp hlwp
    dsimp only
    rw [hconf]
    exact agrees_configured wps d
  unread hv := by cases hv

end Arming

section

variable {m : Machine} {hw : HwOutcome}

theorem Arming.Inv.threads_eq (h : m.arming.Inv) : m.threads = m.target.lwps :=
  take_of_length_le h.length

theorem Arming.Inv.threads_nodup (h : m.arming.Inv) : m.threads.Nodup := by
  rw [h.threads_eq]
  exact h.nodup

theorem syncHardwareDbregs_arming (h : m.arming.Inv) (allowPartial : Bool) (hw : HwOutcome) :
    (syncHardwareDbregs allowPartial hw m).2.arming.Inv := by
  obtain ⟨st, m', hres⟩ : ∃ st m', syncHardwareDbregs allowPartial hw m = (st, m') := ⟨_, _, rfl⟩
  have hsync := syncHardwareDbregs_spec h.threads_nodup hres
  rw [hres, Machine.arming, hsync.table, hsync.lwps]
  refine h.rewrite hsync.valid fun lwp => ?_
  rcases hsync.rewritten lwp with hsame | ⟨d, hconf⟩
  · exact .inl fun q _ => congrFun hsame q
  · exact .inr ⟨d, fun q _ => congrFun hconf q⟩

theorem arm_arming (h : m.arming.Inv) {slot : Nat} (hslot : m.dbg.allocHwSlot = some slot)
    (w : Watchpoint) {m' : Machine}
    (hres : syncHardwareDbregs true hw (m.setWp slot w) = (st, m')) :
    (if st = .ok then m' else m'.setWp slot Watchpoint.zero).arming.Inv := by
  have hfree : (m.dbg.watchpoints slot).installed = false := by
    have hfound := find?_some hslot
    rwa [Bool.not_eq_true'] at hfound
  have hsync := syncHardwareDbregs_spec (m := m.setWp slot w) h.threads_nodup hres
  split_ifs with hst
  · rw [Machine.arming, hsync.table, hsync.lwps, hsync.done hst]
    exact h.arm hfree w hsync.rewritten
  · have harming : (m'.setWp slot Watchpoint.zero).arming =
        ⟨update m.dbg.watchpoints slot Watchpoint.zero, m'.dbg.dbregsValid, m.target.lwps,
          m.target.dr⟩ := by
      rw [Machine.arming]
      dsimp only [Machine.setWp]
      rw [hsync.table, hsync.lwps, hsync.failed hst]
      dsimp only [Machine.setWp]
      rw [update_idem]
    rw [harming]
    exact h.forget hsync.valid hfree

theorem disarm_arming (h : m.arming.Inv) (wps : Nat → Watchpoint) {m' : Machine}
    (hres : syncHardwareDbregs false hw { m with dbg := { m.dbg with watchpoints := wps } } =
      (st, m')) :
    (if st = .ok then m'
      else { m' with dbg := { m'.dbg with watchpoints := m.dbg.watchpoints } }).arming.Inv := by
  have hsync := syncHardwareDbregs_spec
    (m := { m with dbg := { m.dbg with watchpoints := wps } }) h.threads_nodup hres
  split_ifs with hst
  · rw [Machine.arming, hsync.table, hsync.lwps, hsync.done hst]
    refine h.all fun lwp hlwp => hsync.all rfl hst lwp ?_
    have hmem : lwp ∈ m.threads := by
      rw [h.threads_eq]
      exact hlwp
    exact hmem
  · rw [Machine.arming]
    rw [hsync.lwps, hsync.failed hst]
    exact h.rewrite hsync.valid fun lwp => .inl fun _ _ => rfl

end

/-! ## The requests -/

@[simp]
theorem Machine.arming_setBp (m : Machine) (i : Nat) (bp : Breakpoint) :
    (m.setBp i bp).arming = m.arming := rfl

@[simp]
theorem arming_installSwBreakpoint (read write : Status) (i : Nat) (m : Machine) :
    (installSwBreakpoint read write i m).2.arming = m.arming := by
  rw [installSwBreakpoint]
  split_ifs
  all_goals rfl

@[simp]
theorem arming_uninstallSwBreakpoint (write : Status) (i : Nat) (m : Machine) :
    (uninstallSwBreakpoint write i m).2.arming = m.arming := by
  rw [uninstallSwBreakpoint]
  split_ifs
  all_goals rfl

section

variable {m : Machine}

theorem setHardwareBreakpoint_arming (h : m.arming.Inv) (address : Nat) (hw : HwOutcome) :
    (setHardwareBreakpoint address hw m).2.arming.Inv := by
  rw [setHardwareBreakpoint]
  split
  · exact h
  · rename_i slot hslot
    split
    · rename_i m' hres
      exact arm_arming h hslot _ hres
    · rename_i st m' hst hres
      have harm := arm_arming h hslot _ hres
      rwa [if_neg (fun h => hst h)] at harm

theorem setBreakpointCond_arming (h : m.arming.Inv) (address kind condReg condOp : Nat)
    (condValue : Int) (o : SetOutcome) :
    (setBreakpointCond address kind condReg condOp condValue o m).2.arming.Inv := by
  rw [setBreakpointCond]
  split_ifs
  · exact h
  · exact h
  · exact h
  · exact h
  · split
    · exact h
    · rename_i slot _
      have hdrop (p : Status × Machine) (hp : p.2.arming.Inv) :
          (if p.1 = .ok then p.2 else p.2.setBp slot Breakpoint.zero).arming.Inv := by
        split_ifs
        · exact hp
        · exact hp
      cases hkind : bpKindOf kind with
      | none => exact hdrop (.errParam, m) h
      | some k =>
        cases k with
        | software =>
          refine hdrop (installSwBreakpoint o.read o.write slot _) ?_
          rw [arming_installSwBreakpoint]
          exact h
        | hardware =>
          exact hdrop (setHardwareBreakpoint address o.hw _)
            (setHardwareBreakpoint_arming (m := m.setBp slot _) h address o.hw)

theorem clearHardwareSlot_arming (h : m.arming.Inv) (slot : Nat) (hw : HwOutcome) :
    (clearHardwareSlot slot hw m).2.arming.Inv := by
  rw [clearHardwareSlot]
  split
  · rename_i m' hres
    exact disarm_arming h _ hres
  · rename_i st m' hst hres
    have hdisarm := disarm_arming h _ hres
    rw [if_neg (fun h => hst h)] at hdisarm
    have hsync := syncHardwareDbregs_spec (m := m.setWp slot Watchpoint.zero) h.threads_nodup hres
    have hback : (m'.setWp slot (m.dbg.watchpoints slot)).dbg.watchpoints = m.dbg.watchpoints := by
      dsimp only [Machine.setWp]
      rw [hsync.table]
      dsimp only [Machine.setWp]
      rw [update_idem, update_eq_self]
    rw [Machine.arming, hback]
    exact hdisarm

theorem clearBreakpoint_arming (h : m.arming.Inv) (address : Nat) (write : Status)
    (hw : HwOutcome) : (clearBreakpoint address write hw m).2.arming.Inv := by
  rw [clearBreakpoint]
  split_ifs
  · exact h
  · split
    · exact h
    · rename_i slot _
      have hdrop (p : Status × Machine) (hp : p.2.arming.Inv) :
          (if p.1 = .ok then p.2.setBp slot Breakpoint.zero else p.2).arming.Inv := by
        split_ifs
        · exact hp
        · exact hp
      refine hdrop _ ?_
      split
      · rw [arming_uninstallSwBreakpoint]
        exact h
      · split
        · exact clearHardwareSlot_arming h _ hw
        · exact h

theorem setWatchpoint_arming (h : m.arming.Inv) (address length type : Nat) (hw : HwOutcome) :
    (setWatchpoint address length type hw m).2.arming.Inv := by
  rw [setWatchpoint]
  split_ifs
  · exact h
  · exact h
  · exact h
  · exact h
  · split
    · exact h
    · rename_i slot hslot
      split
      · rename_i m' hres
        exact arm_arming h hslot _ hres
      · rename_i st m' hst hres
        have harm := arm_arming h hslot _ hres
        rwa [if_neg (fun h => hst h)] at harm

theorem clearWatchpoint_arming (h : m.arming.Inv) (address : Nat) (hw : HwOutcome) :
    (clearWatchpoint address hw m).2.arming.Inv := by
  rw [clearWatchpoint]
  split_ifs
  · exact h
  · split
    · exact h
    · exact clearHardwareSlot_arming h _ hw

theorem clearAllWatchpoints_arming (h : m.arming.Inv) (hw : HwOutcome) :
    (clearAllWatchpoints hw m).2.arming.Inv := by
  rw [clearAllWatchpoints]
  split_ifs
  · exact h
  · split
    · rename_i m' hres
      exact disarm_arming h _ hres
    · rename_i st m' hst hres
      have hdisarm := disarm_arming h _ hres
      rwa [if_neg (fun h => hst h)] at hdisarm
  · exact h

end

def Machine.FreesSlot (m : Machine) : Prop :=
  ∃ i, (m.dbg.breakpoints i).active = true ∧ (m.dbg.breakpoints i).kind = .hardware ∧
    (m.dbg.findWatchpointSlot (m.dbg.breakpoints i).address).isSome

theorem clearEntry_arming (write : Nat → Status) (m : Machine) (i : Nat) :
    ∃ wps, (clearEntry write m i).arming = { m.arming with wps := wps } ∧
      (¬ m.FreesSlot → wps = m.dbg.watchpoints) := by
  rw [clearEntry]
  split_ifs with hactive
  · exact ⟨_, rfl, fun _ => rfl⟩
  · rw [Machine.arming_setBp]
    split
    · rw [arming_uninstallSwBreakpoint]
      exact ⟨_, rfl, fun _ => rfl⟩
    · rename_i hkind
      split
      · rename_i slot hfind
        refine ⟨_, rfl, fun hnot => absurd ⟨i, by simpa using hactive, hkind, ?_⟩ hnot⟩
        rw [hfind]
        rfl
      · exact ⟨_, rfl, fun _ => rfl⟩

theorem breakpoints_clearEntry (write : Nat → Status) (m : Machine) (i j : Nat) :
    (clearEntry write m i).dbg.breakpoints j = m.dbg.breakpoints j ∨
      (clearEntry write m i).dbg.breakpoints j = Breakpoint.zero := by
  rw [clearEntry]
  split_ifs
  · exact .inl rfl
  · rcases eq_or_ne j i with rfl | hne
    · exact .inr (update_self ..)
    · left
      dsimp only [Machine.setBp]
      rw [update_of_ne hne]
      split
      · rw [uninstallSwBreakpoint]
        split_ifs
        · rfl
        · rfl
        · exact update_of_ne hne ..
      · split
        · rfl
        · rfl

theorem not_freesSlot_clearEntry {m : Machine} (h : ¬ m.FreesSlot) (write : Nat → Status)
    (i : Nat) :
    ¬ (clearEntry write m i).FreesSlot := by
  rintro ⟨j, hactive, hkind, hfind⟩
  rcases breakpoints_clearEntry write m i j with heq | heq
  · rw [heq] at hactive hkind hfind
    refine h ⟨j, hactive, hkind, ?_⟩
    obtain ⟨wps, harming, hwps⟩ := clearEntry_arming write m i
    rw [hwps h] at harming
    have htable : (clearEntry write m i).dbg.watchpoints = m.dbg.watchpoints :=
      congrArg Arming.wps harming
    rwa [Dbg.findWatchpointSlot, htable] at hfind
  · rw [heq] at hactive
    cases hactive

theorem clearAllBreakpoints_arming {m : Machine} (h : m.arming.Inv) (write : Nat → Status)
    {hw : HwOutcome} (hall : m.FreesSlot → hw.Succeeds m) :
    (clearAllBreakpoints write hw m).2.arming.Inv := by
  have hfold := List.foldlRecOn (motive := fun m' : Machine =>
    ∃ wps, m'.arming = { m.arming with wps := wps } ∧
      (¬ m.FreesSlot → wps = m.dbg.watchpoints ∧ ¬ m'.FreesSlot))
    (List.range maxBreakpoints) (clearEntry write)
    ⟨_, rfl, fun hnot => ⟨rfl, hnot⟩⟩ (by
      rintro m' ⟨wps, harming, hwps⟩ i -
      obtain ⟨wps', harming', hwps'⟩ := clearEntry_arming write m' i
      refine ⟨wps', by rw [harming', harming], fun hnot => ?_⟩
      obtain ⟨heq, hnot'⟩ := hwps hnot
      refine ⟨?_, not_freesSlot_clearEntry hnot' write i⟩
      rw [hwps' hnot', ← heq]
      exact congrArg Arming.wps harming)
  rw [clearAllBreakpoints]
  dsimp only
  split_ifs with hattached hany
  · exact h
  · obtain ⟨wps, harming, hwps⟩ := hfold
    generalize (List.range maxBreakpoints).foldl (clearEntry write) m = m' at harming ⊢
    have hthreads : m'.threads = m.threads := by
      rw [Machine.threads, show m'.target.lwps = m.target.lwps from congrArg Arming.lwps harming]
      rfl
    by_cases hfrees : m.FreesSlot
    · -- a slot that is freed was installed, so the registers were read
      have hvalid : m'.dbg.dbregsValid = true := by
        rw [show m'.dbg.dbregsValid = m.dbg.dbregsValid from congrArg Arming.valid harming]
        by_contra hnot
        obtain ⟨i, -, -, hfind⟩ := hfrees
        obtain ⟨slot, hslot⟩ := Option.isSome_iff_exists.1 hfind
        have hfound := find?_some hslot
        rw [Bool.and_eq_true] at hfound
        rw [Bool.not_eq_true] at hnot
        have hfree := (h.unread hnot).1 slot
        cases hfree.symm.trans hfound.1
      obtain ⟨st, m'', hres⟩ : ∃ st m'', syncHardwareDbregs false hw m' = (st, m'') := ⟨_, _, rfl⟩
      have hsync := syncHardwareDbregs_spec (hthreads ▸ h.threads_nodup) hres
      have hst : st = .ok := by
        refine hsync.fine rfl hvalid ⟨(hall hfrees).1, fun lwp hlwp => (hall hfrees).2 lwp ?_⟩
        rwa [hthreads] at hlwp
      rw [hres, Machine.arming, hsync.done hst, hsync.lwps,
        show m'.target.lwps = m.target.lwps from congrArg Arming.lwps harming]
      refine h.all fun lwp hlwp => ?_
      rw [hsync.table]
      refine hsync.all rfl hst lwp ?_
      rw [hthreads, h.threads_eq]
      exact hlwp
    · refine syncHardwareDbregs_arming ?_ false hw
      rw [harming, (hwps hfrees).1]
      exact h
  · -- no entry is active
    have hsame : (List.range maxBreakpoints).foldl (clearEntry write) m = m := by
      refine List.foldlRecOn (motive := fun m' : Machine => m' = m) (List.range maxBreakpoints)
        (clearEntry write) rfl fun m' hm' i hi => ?_
      subst hm'
      rw [clearEntry]
      refine if_pos ?_
      by_contra hactive
      refine hany (any_eq_true.2 ⟨i, hi, ?_⟩)
      simpa using hactive
    rw [hsame]
    exact h

/-! ## Running and detaching -/

section

variable (prog : Program) {m : Machine}

theorem clearHardwareStatus_arming (h : m.arming.Inv) (get set : Status) (lwp : Nat) :
    (clearHardwareStatus get set lwp m).arming.Inv := by
  rw [clearHardwareStatus]
  split_ifs
  · exact h
  · exact h
  · exact h
  · refine h.rewrite (fun hv => hv) fun l => ?_
    dsimp only
    rcases eq_or_ne l lwp with rfl | hne
    · rw [update_self]
      exact .inr ⟨_, fun q hq => update_of_ne hq ..⟩
    · rw [update_of_ne hne]
      exact .inl fun _ _ => rfl

theorem Target.execAll_threads (t : Target) (runs : List Nat) :
    (t.execAll prog runs).lwps = t.lwps ∧ (t.execAll prog runs).dr = t.dr := by
  refine List.foldlRecOn (motive := fun t' : Target => t'.lwps = t.lwps ∧ t'.dr = t.dr) runs
    (Target.exec prog) ⟨rfl, rfl⟩ fun t' ht' lwp _ => ?_
  rw [Target.exec]
  dsimp only
  split_ifs
  all_goals exact ht'

theorem Machine.arming_ptStep (m : Machine) (g : Dbg) (runs : List Nat) :
    (Machine.mk g (m.target.ptStep prog runs)).arming =
      ⟨g.watchpoints, g.dbregsValid, m.target.lwps, m.target.dr⟩ := by
  obtain ⟨hlwps, hdr⟩ := Target.execAll_threads prog m.target.resume runs
  dsimp only [Machine.arming, Target.ptStep]
  rw [hlwps, hdr]
  rfl

theorem finishStepOver_arming (h : m.arming.Inv) (lwp slot : Nat) (o : StepOutcome) :
    (finishStepOver lwp slot o m).2.arming.Inv := by
  have hinstall : (installSwBreakpoint o.read o.rewrite slot m).2.arming.Inv := by
    rw [arming_installSwBreakpoint]
    exact h
  rw [finishStepOver]
  dsimp only
  split_ifs
  · exact h
  · exact hinstall
  · exact hinstall
  · refine hinstall.rewrite (fun hv => hv) fun l => .inl fun q hq => ?_
    dsimp only
    rcases eq_or_ne l lwp with rfl | hne
    · rw [update_self, update_of_ne hq]
      rfl
    · rw [update_of_ne hne]
      rfl

theorem plainStep_arming (h : m.arming.Inv) (o : StepOutcome) :
    (plainStep prog o m).2.arming.Inv := by
  rw [plainStep]
  split_ifs
  · exact h
  · rw [Machine.arming_ptStep]
    exact h

theorem repairedStep_arming (h : m.arming.Inv) (lwp slot : Nat) (o : StepOutcome) :
    (repairedStep prog lwp slot o m).2.arming.Inv := by
  have huninstall := arming_uninstallSwBreakpoint o.write slot m
  rw [repairedStep]
  split
  · rename_i m' hm'
    rw [hm'] at huninstall
    rw [← huninstall] at h
    split_ifs
    · rw [arming_installSwBreakpoint]
      exact h
    · rw [arming_installSwBreakpoint]
      exact h
    · refine finishStepOver_arming ?_ lwp slot o
      rw [Machine.arming_ptStep]
      exact h
  · rename_i st m' _ hm'
    rw [hm'] at huninstall
    rw [← huninstall] at h
    exact h

theorem stepOverSwBreakpoint_arming (h : m.arming.Inv) (lwp : Nat) (o : StepOutcome) :
    (stepOverSwBreakpoint prog lwp o m).2.arming.Inv := by
  have hstatus := clearHardwareStatus_arming h o.statusGet o.statusSet lwp
  rw [stepOverSwBreakpoint]
  generalize clearHardwareStatus o.statusGet o.statusSet lwp m = m at hstatus ⊢
  split
  · exact hstatus
  · split
    · exact plainStep_arming prog hstatus o
    · split
      · exact plainStep_arming prog hstatus o
      · exact repairedStep_arming prog hstatus lwp _ o

theorem continueThreads_arming (o : ContinueOutcome) (lwps : List Nat) :
    ∀ m : Machine, m.arming.Inv → (continueThreads prog o lwps m).2.arming.Inv := by
  induction lwps with
  | nil =>
    intro m h
    exact h
  | cons lwp rest ih =>
    intro m h
    rw [continueThreads]
    split
    · exact ih m h
    · split
      · exact ih m h
      · have hstep := stepOverSwBreakpoint_arming prog h lwp (o.steps lwp)
        dsimp only
        split_ifs
        · exact hstep
        · exact hstep
        · exact ih _ hstep

theorem debuggerContinue_arming (h : m.arming.Inv) (o : ContinueOutcome) :
    (debuggerContinue prog o m).2.arming.Inv := by
  rw [debuggerContinue]
  split
  · exact h
  · have hrearm : (rearm o.hw m).arming.Inv := by
      rw [rearm]
      split_ifs
      · exact syncHardwareDbregs_arming h true o.hw
      · exact h
    have hinv := continueThreads_arming prog o (rearm o.hw m).threads _ hrearm
    split
    · rename_i st m' heq
      rw [heq] at hinv
      exact hinv
    · rename_i m' heq
      rw [heq] at hinv
      split_ifs
      · exact hinv
      · exact hinv

theorem debuggerStep_arming (h : m.arming.Inv) (lwp : Nat) (o : StepOutcome) :
    (debuggerStep prog lwp o m).2.arming.Inv := by
  have hstep := stepOverSwBreakpoint_arming prog h lwp o
  rw [debuggerStep]
  dsimp only
  split_ifs
  · exact h
  · exact hstep
  · exact hstep
  · exact hstep

theorem Arming.inv_exited (dr : Nat → Dbregs) : Inv ⟨Dbg.zero.watchpoints, false, [], dr⟩ where
  nodup := nodup_nil
  length := Nat.zero_le _
  agrees _ hlwp := absurd hlwp not_mem_nil
  unread _ := ⟨fun _ => rfl, fun _ hlwp => absurd hlwp not_mem_nil⟩

theorem pollEvents_arming (h : m.arming.Inv) (o : PollOutcome) :
    (pollEvents o m).2.arming.Inv := by
  rw [pollEvents]
  split
  · exact h
  · split
    · exact h
    · exact h
    · exact Arming.inv_exited m.target.dr
    · split
      · exact h
      · split
        · split_ifs
          · exact h
          · exact h
          · exact h
        · exact h

theorem Machine.arming_advance (m : Machine) (runs : List Nat) (halts : Bool) :
    ({ m with target := m.target.advance prog runs halts } : Machine).arming = m.arming := by
  obtain ⟨hlwps, hdr⟩ := Target.execAll_threads prog m.target runs
  dsimp only [Machine.arming]
  rw [Target.advance]
  split_ifs
  · dsimp only
    rw [hlwps, hdr]
  · rfl

theorem stopLoop_arming (polls : List StopPoll) :
    ∀ m : Machine, m.arming.Inv → (stopLoop prog polls m).2.arming.Inv := by
  induction polls with
  | nil =>
    intro m h
    exact h
  | cons o rest ih =>
    intro m h
    rw [← Machine.arming_advance prog m o.runs o.halts] at h
    have hpoll := pollEvents_arming h o.poll
    rw [stopLoop]
    split
    · rename_i m' heq
      rw [heq] at hpoll
      split_ifs
      · exact hpoll
      · exact hpoll
      · exact ih m' hpoll
    · rename_i st m' _ heq
      rw [heq] at hpoll
      exact hpoll

theorem detachStop_arming (h : m.arming.Inv) (o : DetachOutcome) :
    (detachStop prog o m).2.arming.Inv := by
  rw [detachStop]
  split_ifs
  · exact h
  · exact h
  · exact stopLoop_arming prog o.polls m h

theorem restoreEntry_arming (write : Nat → Status) (l : List Nat) (p : Status × Machine) :
    (l.foldl (restoreEntry write) p).2.arming = p.2.arming := by
  refine List.foldlRecOn (motive := fun q : Status × Machine => q.2.arming = p.2.arming) l
    (restoreEntry write) rfl fun q hq i _ => ?_
  rw [restoreEntry]
  split_ifs
  all_goals first | exact hq | rw [arming_uninstallSwBreakpoint, hq]

theorem arming_pollEvents_of_ok {o : PollOutcome} (h : (pollEvents o m).1 = .ok) :
    (pollEvents o m).2.arming = m.arming := by
  rw [pollEvents] at h ⊢
  split
  · rfl
  · rename_i hattached
    rw [if_neg hattached] at h
    split
    · rfl
    · rfl
    · rename_i hwait
      rw [hwait] at h
      cases h
    · split
      · rfl
      · split
        · split_ifs
          · rfl
          · rfl
          · rfl
        · rfl

theorem arming_stopLoop_of_ok (polls : List StopPoll) :
    ∀ m : Machine, (stopLoop prog polls m).1 = .ok →
      (stopLoop prog polls m).2.arming = m.arming := by
  induction polls with
  | nil =>
    intro m h
    cases h
  | cons o rest ih =>
    intro m h
    rw [← Machine.arming_advance prog m o.runs o.halts]
    generalize hm : ({ m with target := m.target.advance prog o.runs o.halts } : Machine) = m₀
    rw [stopLoop, hm] at h ⊢
    have hpoll := arming_pollEvents_of_ok (o := o.poll) (m := m₀)
    obtain ⟨st, m', hres⟩ : ∃ st m', pollEvents o.poll m₀ = (st, m') := ⟨_, _, rfl⟩
    rw [hres] at hpoll h ⊢
    by_cases hst : st = .ok
    · subst hst
      dsimp only at h ⊢
      rw [← hpoll rfl]
      split_ifs at h ⊢
      · rfl
      · exact ih m' h
    · cases st
      all_goals first | exact absurd rfl hst | cases h

theorem arming_detachStop_of_ok {o : DetachOutcome} (h : (detachStop prog o m).1 = .ok) :
    (detachStop prog o m).2.arming = m.arming := by
  rw [detachStop] at h ⊢
  split_ifs at h ⊢
  · rfl
  · rfl
  · exact arming_stopLoop_of_ok prog o.polls m h

theorem clearDbregs_arming (h : m.arming.Inv) (hw : HwOutcome) :
    (clearDbregs hw m).arming.Inv ∧ (clearDbregs hw m).target.lwps = m.target.lwps ∧
      ((m.dbg.dbregsValid = true → hw.Succeeds m) →
        ∀ lwp ∈ m.target.lwps, Clear ((clearDbregs hw m).target.dr lwp)) := by
  rw [clearDbregs]
  split_ifs with hvalid
  · obtain ⟨st, m', hres⟩ : ∃ st m', applyDbregsToAll false hw
        { m with dbg := { m.dbg with dbregs := fun _ => 0 } } = (st, m') := ⟨_, _, rfl⟩
    obtain ⟨hrewritten, -, hall, hfine⟩ := applyDbregsToAll_spec
      (m := { m with dbg := { m.dbg with dbregs := fun _ => 0 } }) false hw h.threads_nodup hres
    obtain ⟨dr, heq⟩ := applyDbregsToAll_eq false hw
      { m with dbg := { m.dbg with dbregs := fun _ => 0 } }
    rw [hres] at heq ⊢
    cases heq
    have hzero : Clear fun _ => 0 := ⟨fun _ _ => rfl, rfl⟩
    refine ⟨⟨h.nodup, h.length, fun lwp hlwp ↦ ?_, fun hv ↦ ?_⟩, rfl, fun hsucceeds lwp hlwp ↦ ?_⟩
    · change Agrees m.dbg.watchpoints (dr lwp)
      rcases hrewritten lwp with hsame | hcleared
      · rw [show dr lwp = m.target.dr lwp from hsame]
        exact h.agrees lwp hlwp
      · rw [show dr lwp = fun _ => 0 from hcleared]
        exact hzero.agrees _
    · cases hvalid.symm.trans hv
    · obtain ⟨hcalloc, hok⟩ := hsucceeds hvalid
      have hmem : lwp ∈ m.threads := by
        rw [h.threads_eq]
        exact hlwp
      change Clear (dr lwp)
      rw [show dr lwp = fun _ => 0 from hall rfl (hfine rfl hcalloc hok) lwp hmem]
      exact hzero
  · rw [Bool.not_eq_true] at hvalid
    exact ⟨h, rfl, fun _ lwp hlwp => (h.unread hvalid).2 lwp hlwp⟩

theorem debuggerDetach_arming (h : m.arming.Inv) {o : DetachOutcome}
    (hall : o.detach = .ok → m.dbg.dbregsValid = true → o.hw.Succeeds m) :
    (debuggerDetach prog o m).2.arming.Inv ∧
      ((debuggerDetach prog o m).1 = .ok → (debuggerDetach prog o m).2.dbg = .zero) := by
  have hstop := detachStop_arming prog h o
  rw [debuggerDetach]
  split
  · exact ⟨h, fun hst => (nomatch hst)⟩
  · split
    · rename_i m₁ hm₁
      have hsame := arming_detachStop_of_ok prog (show (detachStop prog o m).1 = .ok by rw [hm₁])
      rw [hm₁] at hstop hsame
      have hrestore := restoreEntry_arming o.write (List.range maxBreakpoints) (.ok, m₁)
      split
      · rename_i m₂ hm₂
        rw [hm₂] at hrestore
        rw [← hrestore] at hstop hsame
        obtain ⟨hclear, hlwps, hzero⟩ := clearDbregs_arming hstop o.hw
        split_ifs with hdetach
        · exact ⟨hclear, fun hst => absurd hst hdetach⟩
        · rw [ne_eq, not_not] at hdetach
          have hlwps₂ : m₂.target.lwps = m.target.lwps := congrArg Arming.lwps hsame
          have hthreads : m₂.threads = m.threads := by
            rw [Machine.threads, hlwps₂]
            rfl
          have hcleared := hzero fun hvalid => by
            rw [show m₂.dbg.dbregsValid = m.dbg.dbregsValid from congrArg Arming.valid
              hsame] at hvalid
            obtain ⟨hcalloc, hok⟩ := hall hdetach hvalid
            refine ⟨hcalloc, fun lwp hlwp => hok lwp ?_⟩
            rwa [hthreads] at hlwp
          refine ⟨⟨hclear.nodup, hclear.length, fun lwp hlwp => ?_, fun _ => ⟨fun _ => rfl, ?_⟩⟩,
            fun _ => rfl⟩
          · refine (hcleared lwp ?_).agrees _
            rw [← hlwps]
            exact hlwp
          · intro lwp hlwp
            refine hcleared lwp ?_
            rw [← hlwps]
            exact hlwp
      · rename_i st m₂ hst hm₂
        rw [hm₂] at hrestore
        rw [← hrestore] at hstop
        exact ⟨hstop, fun h => absurd h fun h => hst h⟩
    · rename_i st m₁ hst hm₁
      rw [hm₁] at hstop
      exact ⟨hstop, fun h => absurd h fun h => hst h⟩

end

/-! ## Every run -/

inductive ThreadEvent where
  | serve (op : Operation)
  | threads (lwps : List Nat) (isNew : Nat → Bool) (t : Target)

def threadStep (prog : Program) (m : Machine) : ThreadEvent → Option Machine
  | .serve op => some (op.serve prog m).2
  | .threads lwps isNew t =>
    if lwps.Nodup ∧ lwps.length ≤ maxThreads then
      some { m with target := { t with
        lwps := lwps
        dr := fun lwp r => if r = 6 then t.dr lwp 6
          else if isNew lwp || lwp ∉ m.target.lwps then 0 else m.target.dr lwp r } }
    else none

/-- The updates whose failure nobody looks at succeed. -/
def Heeded (m : Machine) : ThreadEvent → Prop
  | .serve (.clearAllBreakpoints _ hw) => m.FreesSlot → hw.Succeeds m
  | .serve (.detach o) => o.detach = .ok → m.dbg.dbregsValid = true → o.hw.Succeeds m
  | _ => True

section

variable (prog : Program)

theorem threadStep_arming {m m' : Machine} {e : ThreadEvent} (h : m.arming.Inv)
    (hheeded : Heeded m e) (hstep : threadStep prog m e = some m') : m'.arming.Inv := by
  cases e with
  | serve op =>
    cases hstep
    cases op with
    | setBreakpoint address kind condReg condOp condValue o =>
      exact setBreakpointCond_arming h address kind condReg condOp condValue o
    | clearBreakpoint address write hw => exact clearBreakpoint_arming h address write hw
    | clearAllBreakpoints write hw => exact clearAllBreakpoints_arming h write hheeded
    | setWatchpoint address length type hw => exact setWatchpoint_arming h address length type hw
    | clearWatchpoint address hw => exact clearWatchpoint_arming h address hw
    | clearAllWatchpoints hw => exact clearAllWatchpoints_arming h hw
    | «continue» o => exact debuggerContinue_arming prog h o
    | step lwp o => exact debuggerStep_arming prog h lwp o
    | pollEvents o => exact pollEvents_arming h o
    | detach o => exact (debuggerDetach_arming prog h hheeded).1
  | threads lwps isNew t =>
    rw [threadStep] at hstep
    split_ifs at hstep with hlwps
    cases hstep
    have hcases (lwp : Nat) : Clear (fun r => if r = 6 then t.dr lwp 6
        else if isNew lwp || lwp ∉ m.target.lwps then 0 else m.target.dr lwp r) ∨
        lwp ∈ m.target.lwps ∧ ∀ r ≠ 6, (if r = 6 then t.dr lwp 6
          else if isNew lwp || lwp ∉ m.target.lwps then 0 else m.target.dr lwp r) =
            m.target.dr lwp r := by
      by_cases hnew : (isNew lwp || lwp ∉ m.target.lwps) = true
      · refine .inl ⟨fun i hi => ?_, ?_⟩
        · dsimp only
          rw [if_neg (Nat.ne_of_lt (Nat.lt_trans hi (by decide))), if_pos hnew]
        · dsimp only
          rw [if_neg (by decide), if_pos hnew]
      · refine .inr ⟨?_, fun r hr => by rw [if_neg hr, if_neg hnew]⟩
        by_contra hnot
        exact hnew (by simp [hnot])
    refine ⟨hlwps.1, hlwps.2, fun lwp _ => ?_, fun hvalid => ?_⟩
    · rcases hcases lwp with hclear | ⟨hold, hsame⟩
      · exact hclear.agrees _
      · exact (h.agrees lwp hold).congr hsame
    · obtain ⟨hnone, hold⟩ := h.unread hvalid
      refine ⟨hnone, fun lwp _ => ?_⟩
      rcases hcases lwp with hclear | ⟨hmem, hsame⟩
      · exact hclear
      · exact (hold lwp hmem).congr hsame

/-- No thread has a slot enabled that the table does not have, and a detach that reports
success leaves all threads clear. -/
structure Ghostless (m : Machine) : Prop where
  agrees : ∀ lwp ∈ m.target.lwps, Agrees m.dbg.watchpoints (m.target.dr lwp)
  detached : ∀ o, Heeded m (.serve (.detach o)) → (debuggerDetach prog o m).1 = .ok →
    ∀ lwp ∈ (debuggerDetach prog o m).2.target.lwps,
      Clear ((debuggerDetach prog o m).2.target.dr lwp)

/-- In every run in which the updates succeed whose failure nobody looks at, there are no
ghosts. -/
theorem ghostless_of_heeded_run {t : Target} (hnodup : t.lwps.Nodup)
    (hlength : t.lwps.length ≤ maxThreads) (hclear : ∀ lwp ∈ t.lwps, Clear (t.dr lwp))
    {es : List ThreadEvent} {m : Machine}
    (h : Run (threadStep prog) Heeded ⟨Dbg.attach, t⟩ es m) : Ghostless prog m := by
  have hinv : m.arming.Inv := by
    refine h.invariant (P := fun m => m.arming.Inv) ?_ ?_
    · intro m e m' hm hheeded hstep
      exact threadStep_arming prog hm hheeded hstep
    · exact ⟨hnodup, hlength, fun lwp hlwp => (hclear lwp hlwp).agrees _,
        fun _ => ⟨fun _ => rfl, hclear⟩⟩
  refine ⟨hinv.agrees, fun o hheeded hst => ?_⟩
  obtain ⟨hdetached, hzero⟩ := debuggerDetach_arming prog hinv hheeded
  exact (hdetached.unread (congrArg Dbg.dbregsValid (hzero hst))).2

end

def oneHardware : Machine :=
  (setBreakpointCond 0x1000 1 0 0 0 ⟨.ok, .ok, .fine⟩ ⟨Dbg.attach, .idle [1]⟩).2

theorem ghostless_of_heeded_run_clear :
    Ghostless (fun _ _ r => r) (clearAllBreakpoints (fun _ => .ok) .fine oneHardware).2 := by
  have hrun : Run (threadStep fun _ _ r => r) Heeded ⟨Dbg.attach, .idle [1]⟩
      [.serve (.setBreakpoint 0x1000 1 0 0 0 ⟨.ok, .ok, .fine⟩),
        .serve (.clearAllBreakpoints (fun _ => .ok) .fine)]
      (clearAllBreakpoints (fun _ => .ok) .fine oneHardware).2 :=
    .cons trivial rfl (.cons (fun _ => ⟨rfl, fun _ _ => ⟨rfl, rfl⟩⟩) rfl (.nil _))
  exact ghostless_of_heeded_run _ (by decide) (by decide)
    (fun _ _ => ⟨fun _ _ => rfl, rfl⟩) hrun

theorem clearAllBreakpoints_ghost :
    ¬ Ghostless (fun _ _ r => r) (clearAllBreakpoints (fun _ => .ok)
      ⟨true, .ok, fun _ => .ok, fun _ => .errIo⟩ oneHardware).2 := by
  intro h
  have hagrees := h.agrees 1 (by decide) 0 (by decide) (.inl (by decide))
  exact absurd hagrees.1 (by decide)

end MemDbg.Debug
