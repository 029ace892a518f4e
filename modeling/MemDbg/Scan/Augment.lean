import MemDbg.Scan.Enumerate
import Mathlib.Data.List.FinRange

/-!
# Augmented maps

`ptw_augment_maps` merges the entries of the vm_map with those found in the page table,
and records the latter for later checks of addresses.  The merge only looks at where
entries start: a page-table entry that starts with an entry of the vm_map is dropped,
whatever it covers.
-/

namespace MemDbg.Scan

open List Function Lib

/-! ## The merge -/

def ptwMergeLoop : List MapRegion → List MapRegion → List MapRegion
  | [], e => e
  | v, [] => v
  | r :: v, s :: e =>
    if r.start = s.start then r :: ptwMergeLoop v e
    else if r.start < s.start then r :: ptwMergeLoop v (s :: e)
    else s :: ptwMergeLoop (r :: v) e
termination_by v e => v.length + e.length

def ptwMerge (v e : List MapRegion) (heap : Bool) : Option (List MapRegion) :=
  if v.length + e.length = 0 then none else if !heap then none else some (ptwMergeLoop v e)

/-- The order that `ptw_merge` relies on. -/
def SortedByStart (l : List MapRegion) : Prop := l.Pairwise fun r s => r.start ≤ s.start

def unpaired : List Nat → List MapRegion → List MapRegion
  | _, [] => []
  | starts, s :: e =>
    if s.start ∈ starts then unpaired (starts.erase s.start) e else s :: unpaired starts e

def pairedOff : List Nat → List MapRegion → List MapRegion
  | _, [] => []
  | starts, s :: e =>
    if s.start ∈ starts then s :: pairedOff (starts.erase s.start) e else pairedOff starts e

def keptEntries (v e : List MapRegion) : List MapRegion :=
  List.merge v (unpaired (v.map (·.start)) e) fun r s => r.start ≤ s.start

theorem mem_iff_unpaired_or_pairedOff {starts : List Nat} {e : List MapRegion} {r : MapRegion} :
    r ∈ e ↔ r ∈ unpaired starts e ∨ r ∈ pairedOff starts e := by
  induction e generalizing starts with
  | nil => simp [unpaired, pairedOff]
  | cons s e ih =>
    rw [unpaired, pairedOff]
    split_ifs with hmem
    · rw [mem_cons, mem_cons, @ih (starts.erase s.start)]
      exact or_left_comm
    · rw [mem_cons, mem_cons, @ih starts, or_assoc]

theorem unpaired_sublist (starts : List Nat) (e : List MapRegion) :
    (unpaired starts e).Sublist e := by
  induction e generalizing starts with
  | nil => exact List.Sublist.refl _
  | cons s e ih =>
    rw [unpaired]
    split_ifs
    · exact (ih _).cons s
    · exact (ih _).cons_cons s

theorem unpaired_cons_of_lt {a : Nat} {starts : List Nat} {e : List MapRegion}
    (h : ∀ s ∈ e, a < s.start) : unpaired (a :: starts) e = unpaired starts e := by
  induction e generalizing starts with
  | nil => rfl
  | cons s e ih =>
    have hne : s.start ≠ a := (h s mem_cons_self).ne'
    have htail := fun s hs => h s (mem_cons_of_mem _ hs)
    simp only [unpaired, mem_cons, or_iff_right hne]
    split_ifs
    · rw [erase_cons_tail (by simpa using hne.symm), ih htail]
    · rw [ih htail]

theorem merge_cons_of_le {r : MapRegion} {v w : List MapRegion}
    (h : ∀ s ∈ w, r.start ≤ s.start) :
    List.merge (r :: v) w (fun r s => r.start ≤ s.start) =
      r :: List.merge v w fun r s => r.start ≤ s.start := by
  cases w with
  | nil => simp
  | cons s w =>
    exact cons_merge_cons_pos _ _ _ (decide_eq_true (h s mem_cons_self))

theorem ptwMergeLoop_eq {v e : List MapRegion} (hv : SortedByStart v) (he : SortedByStart e) :
    ptwMergeLoop v e = keptEntries v e := by
  rw [keptEntries]
  induction v, e using ptwMergeLoop.induct with
  | case1 e =>
    have hnone (e : List MapRegion) : unpaired [] e = e := by
      induction e with
      | nil => rfl
      | cons s e ih => rw [unpaired, if_neg not_mem_nil, ih]
    rw [ptwMergeLoop, map_nil, hnone, nil_merge]
  | case2 v hne => simp [ptwMergeLoop, unpaired]
  | case3 r v s e heq ih =>
    obtain ⟨-, hv⟩ := pairwise_cons.mp hv
    obtain ⟨hs, he⟩ := pairwise_cons.mp he
    rw [ptwMergeLoop, if_pos heq, ih hv he, map_cons, unpaired,
      if_pos (by rw [heq]; exact mem_cons_self), heq, erase_cons_head,
      merge_cons_of_le fun t ht => heq.trans_le (hs t ((unpaired_sublist _ _).subset ht))]
  | case4 r v s e hne hlt ih =>
    obtain ⟨-, hv⟩ := pairwise_cons.mp hv
    have hall : ∀ t ∈ s :: e, r.start < t.start := by
      intro t ht
      rcases mem_cons.mp ht with rfl | ht
      · exact hlt
      · exact hlt.trans_le ((pairwise_cons.mp he).1 t ht)
    rw [ptwMergeLoop, if_neg hne, if_pos hlt, ih hv he, map_cons,
      unpaired_cons_of_lt hall,
      merge_cons_of_le fun t ht => (hall t ((unpaired_sublist _ _).subset ht)).le]
  | case5 r v s e hne hnlt ih =>
    have hnot : s.start ∉ (r :: v).map (·.start) := by
      rw [map_cons, mem_cons]
      rintro (heq | hmem)
      · exact hne heq.symm
      · obtain ⟨t, ht, heq⟩ := mem_map.mp hmem
        exact hnlt (((pairwise_cons.mp hv).1 t ht).trans_eq heq |>.lt_of_ne hne)
    rw [ptwMergeLoop, if_neg hne, if_neg hnlt, ih hv (pairwise_cons.mp he).2, unpaired,
      if_neg hnot]
    exact (cons_merge_cons_neg _ _ _ (by simp only [decide_eq_true_eq]; omega)).symm

theorem sortedByStart_keptEntries {v e : List MapRegion} (hv : SortedByStart v)
    (he : SortedByStart e) : SortedByStart (keptEntries v e) := by
  refine (@pairwise_merge MapRegion (fun r s => decide (r.start ≤ s.start))
    (fun a b c hab hbc => ?_) (fun a b => ?_) v _ ?_ ?_).imp of_decide_eq_true
  · simp only [decide_eq_true_eq] at *
    exact hab.trans hbc
  · simp only [Bool.or_eq_true, decide_eq_true_eq]
    exact le_total _ _
  · exact hv.imp decide_eq_true
  · exact (he.sublist (unpaired_sublist _ _)).imp decide_eq_true

theorem mem_keptEntries {v e : List MapRegion} {r : MapRegion} :
    r ∈ keptEntries v e ↔ r ∈ v ∨ r ∈ unpaired (v.map (·.start)) e := mem_merge

/-! ## The cache of auxiliary ranges -/

def auxCacheMax : Nat := 4096

structure AuxSlot where
  ranges : List (Nat × Nat)
  pid : Nat
deriving DecidableEq

structure AuxCache where
  slots : Fin 4 → AuxSlot
  next : Nat
  distinct : ∀ i j, (slots i).pid = (slots j).pid → (slots i).pid = 0 ∨ i = j

def AuxCache.clear : AuxCache where
  slots _ := ⟨[], 0⟩
  next := 0
  distinct _ _ _ := .inl rfl

def isAux (r : MapRegion) : Bool := r.name.take 7 == ptauxText && decide (r.start < r.stop)

def auxRangesLoop : Nat → List MapRegion → List (Nat × Nat)
  | 0, _ => []
  | _, [] => []
  | k + 1, r :: m =>
    if isAux r then (r.start, r.stop) :: auxRangesLoop k m else auxRangesLoop (k + 1) m

def AuxCache.slotOf (c : AuxCache) (pid : Nat) : Option (Fin 4) :=
  (List.finRange 4).find? fun i => (c.slots i).pid == pid

def AuxCache.slotFor (c : AuxCache) (pid : Nat) : Fin 4 × Nat :=
  match c.slotOf pid with
  | some i => (i, c.next)
  | none =>
    match c.slotOf 0 with
    | some i => (i, c.next)
    | none => (⟨c.next % 4, Nat.mod_lt _ (by decide)⟩, wrap32 (c.next + 1))

theorem AuxCache.pid_ne_of_ne_slotFor {c : AuxCache} {pid : Nat} {j : Fin 4}
    (hj : j ≠ (c.slotFor pid).1) (hpid : (c.slots j).pid = pid) : pid = 0 := by
  rw [slotFor] at hj
  cases hfind : c.slotOf pid with
  | none =>
    have hnone := find?_eq_none.mp hfind j (mem_finRange j)
    exact absurd (beq_iff_eq.mpr hpid) hnone
  | some i =>
    rw [hfind] at hj
    have hi : (c.slots i).pid = pid :=
      beq_iff_eq.mp (find?_some (p := fun i => (c.slots i).pid == pid) hfind)
    rcases c.distinct j i (hpid.trans hi.symm) with hzero | heq
    · exact hpid.symm.trans hzero
    · exact absurd heq hj

def auxCacheRebuild (pid : Nat) (m : List MapRegion) (c : AuxCache) : AuxCache where
  slots := update c.slots (c.slotFor pid).1 ⟨auxRangesLoop auxCacheMax m, pid⟩
  next := (c.slotFor pid).2
  distinct i j h := by
    by_cases hi : i = (c.slotFor pid).1 <;> by_cases hj : j = (c.slotFor pid).1
    · exact .inr (hi.trans hj.symm)
    · rw [hi, update_self, update_of_ne hj] at h
      rw [hi, update_self]
      exact .inl (AuxCache.pid_ne_of_ne_slotFor hj h.symm)
    · rw [hj, update_self, update_of_ne hi] at h
      rw [update_of_ne hi, h]
      exact .inl (AuxCache.pid_ne_of_ne_slotFor hi h)
    · rw [update_of_ne hi, update_of_ne hj] at h
      rw [update_of_ne hi]
      exact c.distinct i j h

theorem auxCacheRebuild_slots (pid : Nat) (m : List MapRegion) (c : AuxCache) :
    (auxCacheRebuild pid m c).slots =
      update c.slots (c.slotFor pid).1 ⟨auxRangesLoop auxCacheMax m, pid⟩ := rfl

def ptwAuxContains (c : AuxCache) (pid addr len : Nat) : Bool :=
  if len = 0 then false
  else if wrap64 (addr + len) < addr then false
  else
    (List.finRange 4).any fun i => (c.slots i).pid == pid &&
      (c.slots i).ranges.any fun r => decide (r.1 ≤ addr) && decide (wrap64 (addr + len) ≤ r.2)

def InAuxRange (c : AuxCache) (pid lo hi : Nat) : Prop :=
  ∃ i, (c.slots i).pid = pid ∧ ∃ r ∈ (c.slots i).ranges, r.1 ≤ lo ∧ hi ≤ r.2

theorem inAuxRange_rebuild {c : AuxCache} {m : List MapRegion} {pid lo hi : Nat} (hpid : pid ≠ 0) :
    InAuxRange (auxCacheRebuild pid m c) pid lo hi ↔
      ∃ r ∈ auxRangesLoop auxCacheMax m, r.1 ≤ lo ∧ hi ≤ r.2 := by
  rw [InAuxRange, auxCacheRebuild_slots]
  constructor
  · rintro ⟨i, hi, hr⟩
    by_cases heq : i = (c.slotFor pid).1
    · rwa [heq, update_self] at hr
    · rw [update_of_ne heq] at hi
      exact absurd (AuxCache.pid_ne_of_ne_slotFor heq hi) hpid
  · intro hr
    refine ⟨(c.slotFor pid).1, ?_⟩
    rw [update_self]
    exact ⟨rfl, hr⟩

theorem auxRangesLoop_eq (k : Nat) (m : List MapRegion) :
    auxRangesLoop k m = ((m.filter isAux).take k).map fun r => (r.start, r.stop) := by
  induction m generalizing k with
  | nil => cases k <;> simp [auxRangesLoop]
  | cons r m ih =>
    cases k with
    | zero => simp [auxRangesLoop]
    | succ k =>
      rw [auxRangesLoop, filter_cons]
      split_ifs
      · rw [ih, take_succ_cons, map_cons]
      · exact ih _

/-! ## Augmenting -/

def MapRegion.Holds (r : MapRegion) (x : Nat) : Prop := r.start ≤ x ∧ x < r.stop

def MapRegion.HasPage (r : MapRegion) (p : Nat) : Prop := r.start ≤ p ∧ p + 0x1000 ≤ r.stop

def PageFree (l : List MapRegion) (p : Nat) : Prop :=
  ∀ r ∈ l, ∀ x, p ≤ x → x < p + 0x1000 → ¬r.Holds x

/-- What augmenting a map has to keep: the order, every address of the two lists, and
every page of the page table outside the vm_map in the cache. -/
structure MergeFaithful (v e out : List MapRegion) (c : AuxCache) (pid : Nat) : Prop where
  sorted : SortedByStart out
  covers : ∀ r ∈ v ++ e, ∀ x, r.Holds x → ∃ s ∈ out, s.Holds x
  recorded : ∀ r ∈ e, ∀ p, 0x1000 ∣ p → r.HasPage p → PageFree v p →
    InAuxRange (auxCacheRebuild pid out c) pid p (p + 0x1000)

def auxEntries (v e : List MapRegion) : List MapRegion := (keptEntries v e).filter isAux

/-- Nothing is lost with the page-table entries that are paired off, and with the
auxiliary entries for which the cache has no room. -/
structure NothingLost (v e : List MapRegion) : Prop where
  paired : ∀ r ∈ pairedOff (v.map (·.start)) e, ∀ x, r.Holds x →
    ∃ s ∈ v ++ unpaired (v.map (·.start)) e, s.Holds x
  recorded : ∀ r ∈ pairedOff (v.map (·.start)) e ++ (auxEntries v e).drop auxCacheMax,
    ∀ p, 0x1000 ∣ p → r.HasPage p → PageFree v p →
      ∃ s ∈ (auxEntries v e).take auxCacheMax, s.HasPage p

section Faithful

variable {v e : List MapRegion} {c : AuxCache} {pid p : Nat}

theorem inAuxRange_keptEntries (hpid : pid ≠ 0) :
    InAuxRange (auxCacheRebuild pid (keptEntries v e) c) pid p (p + 0x1000) ↔
      ∃ s ∈ (auxEntries v e).take auxCacheMax, s.HasPage p := by
  rw [inAuxRange_rebuild hpid, auxRangesLoop_eq, ← auxEntries]
  constructor
  · rintro ⟨r, hr, hp⟩
    obtain ⟨s, hs, rfl⟩ := mem_map.mp hr
    exact ⟨s, hs, hp⟩
  · rintro ⟨s, hs, hp⟩
    exact ⟨_, mem_map_of_mem hs, hp⟩

theorem mergeFaithful_keptEntries (hv : SortedByStart v) (he : SortedByStart e)
    (haux : ∀ r ∈ e, r.name.take 7 = ptauxText) (hpid : pid ≠ 0) :
    MergeFaithful v e (keptEntries v e) c pid ↔ NothingLost v e := by
  constructor
  · intro h
    refine ⟨fun r hr x hx => ?_, fun r hr p hdvd hp hfree => ?_⟩
    · obtain ⟨s, hs, hsx⟩ := h.covers r
        (mem_append_right _ (mem_iff_unpaired_or_pairedOff.mpr (.inr hr))) x hx
      exact ⟨s, mem_append.mpr (mem_keptEntries.mp hs), hsx⟩
    · refine (inAuxRange_keptEntries hpid).mp (h.recorded r ?_ p hdvd hp hfree)
      rcases mem_append.mp hr with hr | hr
      · exact mem_iff_unpaired_or_pairedOff.mpr (.inr hr)
      · rcases mem_keptEntries.mp (mem_filter.mp (mem_of_mem_drop hr)).1 with hr | hr
        · exact absurd ⟨hp.1, Nat.lt_of_lt_of_le (Nat.lt_add_of_pos_right (by decide)) hp.2⟩
            (hfree r hr p le_rfl (Nat.lt_add_of_pos_right (by decide)))
        · exact (unpaired_sublist _ _).subset hr
  · intro h
    refine ⟨sortedByStart_keptEntries hv he, fun r hr x hx => ?_, fun r hr p hdvd hp hfree => ?_⟩
    · rcases mem_append.mp hr with hr | hr
      · exact ⟨r, mem_keptEntries.mpr (.inl hr), hx⟩
      · rcases (@mem_iff_unpaired_or_pairedOff (v.map (·.start)) _ _).mp hr with hr | hr
        · exact ⟨r, mem_keptEntries.mpr (.inr hr), hx⟩
        · obtain ⟨s, hs, hsx⟩ := h.paired r hr x hx
          exact ⟨s, mem_keptEntries.mpr (mem_append.mp hs), hsx⟩
    · rw [inAuxRange_keptEntries hpid]
      rcases (@mem_iff_unpaired_or_pairedOff (v.map (·.start)) _ _).mp hr with hkept | hpaired
      · have hmem : r ∈ auxEntries v e := by
          refine mem_filter.mpr ⟨mem_keptEntries.mpr (.inr hkept), ?_⟩
          rw [isAux, haux r hr, beq_self_eq_true, Bool.true_and, decide_eq_true_eq]
          exact hp.1.trans_lt ((Nat.lt_add_of_pos_right (by decide)).trans_le hp.2)
        rw [← take_append_drop auxCacheMax (auxEntries v e), mem_append] at hmem
        rcases hmem with hfirst | hrest
        · exact ⟨r, hfirst, hp⟩
        · exact h.recorded r (mem_append_right _ hrest) p hdvd hp hfree
      · exact h.recorded r (mem_append_left _ hpaired) p hdvd hp hfree

/-- **Augmented maps.** Whatever `ptw_merge` makes of sorted lists keeps the order, every
address and every page outside the vm_map, exactly if nothing is lost with the entries
that are paired off and those for which the cache has no room. -/
theorem mergeFaithful_iff (hv : SortedByStart v) (he : SortedByStart e)
    (haux : ∀ r ∈ e, r.name.take 7 = ptauxText) (hpid : pid ≠ 0) :
    (∀ heap out, ptwMerge v e heap = some out → MergeFaithful v e out c pid) ↔
      NothingLost v e := by
  rw [← mergeFaithful_keptEntries hv he haux hpid (c := c)]
  constructor
  · intro h
    by_cases hnil : v.length + e.length = 0
    · obtain rfl := eq_nil_of_length_eq_zero (Nat.eq_zero_of_add_eq_zero_right hnil)
      obtain rfl := eq_nil_of_length_eq_zero (Nat.eq_zero_of_add_eq_zero_left hnil)
      exact ⟨sortedByStart_keptEntries hv he, nofun, nofun⟩
    · refine h true _ ?_
      rw [ptwMerge, if_neg hnil, if_neg (by decide), ptwMergeLoop_eq hv he]
  · intro h heap out hout
    rw [ptwMerge] at hout
    split_ifs at hout
    obtain rfl := Option.some.inj hout
    rwa [ptwMergeLoop_eq hv he]

end Faithful

def vmEntry (lo hi : Nat) : MapRegion := ⟨lo, hi, 1, 0, []⟩

theorem mergeFaithful_iff_same :
    MergeFaithful [vmEntry 0x1000 0x2000]
      [ptauxEntry ⟨0x1000, 0x2000, 1⟩, ptauxEntry ⟨0x3000, 0x4000, 1⟩]
      [vmEntry 0x1000 0x2000, ptauxEntry ⟨0x3000, 0x4000, 1⟩] AuxCache.clear 100 := by
  have hout : ptwMerge [vmEntry 0x1000 0x2000]
      [ptauxEntry ⟨0x1000, 0x2000, 1⟩, ptauxEntry ⟨0x3000, 0x4000, 1⟩] true =
        some [vmEntry 0x1000 0x2000, ptauxEntry ⟨0x3000, 0x4000, 1⟩] := by
    simp [ptwMerge, ptwMergeLoop, vmEntry, ptauxEntry]
  have hoff : pairedOff ([vmEntry 0x1000 0x2000].map (·.start))
      [ptauxEntry ⟨0x1000, 0x2000, 1⟩, ptauxEntry ⟨0x3000, 0x4000, 1⟩] =
        [ptauxEntry ⟨0x1000, 0x2000, 1⟩] := by decide
  refine (mergeFaithful_iff (by simp [SortedByStart]) (by simp [SortedByStart, ptauxEntry])
    (by simp [ptauxEntry, ptauxText]) (by decide)).mpr
      ⟨fun r hr x hx => ?_, fun r hr p _ hp hfree => ?_⟩ _ _ hout
  · rw [hoff, mem_singleton] at hr
    subst hr
    exact ⟨_, mem_cons_self, hx⟩
  · have hdrop : (auxEntries [vmEntry 0x1000 0x2000]
        [ptauxEntry ⟨0x1000, 0x2000, 1⟩, ptauxEntry ⟨0x3000, 0x4000, 1⟩]).drop
          auxCacheMax = [] := by
      refine drop_eq_nil_of_le ?_
      refine (length_filter_le _ _).trans ?_
      rw [keptEntries, length_merge]
      decide
    rw [hoff, hdrop, append_nil, mem_singleton] at hr
    subst hr
    have hlt : p < p + 0x1000 := Nat.lt_add_of_pos_right (by decide)
    exact absurd ⟨hp.1, hlt.trans_le hp.2⟩ (hfree _ mem_cons_self p le_rfl hlt)

theorem longerEntry_lost : ¬∀ (v e out : List MapRegion) (c : AuxCache) (pid : Nat),
    SortedByStart v → SortedByStart e → (∀ r ∈ e, r.name.take 7 = ptauxText) → pid ≠ 0 →
      ptwMerge v e true = some out → MergeFaithful v e out c pid := by
  intro h
  have hout : ptwMerge [vmEntry 0x1000 0x2000] [ptauxEntry ⟨0x1000, 0x3000, 1⟩] true =
      some [vmEntry 0x1000 0x2000] := by
    simp [ptwMerge, ptwMergeLoop, vmEntry, ptauxEntry]
  obtain ⟨s, hs, hx⟩ := (h _ _ _ AuxCache.clear 100 (by simp [SortedByStart])
    (by simp [SortedByStart]) (by simp [ptauxEntry, ptauxText]) (by decide) hout).covers
      (ptauxEntry ⟨0x1000, 0x3000, 1⟩) (by simp) 0x2000 (by simp [MapRegion.Holds, ptauxEntry])
  obtain rfl := mem_singleton.mp hs
  exact absurd hx.2 (by decide)

/-! ## The whole call -/

def ptwAugmentMaps (k : KernelMemory) (available : Bool) (cr3 : Option Nat) (heap : Bool)
    (pid : Nat) (vmaps : List MapRegion) (c : AuxCache) : Option (List MapRegion) × AuxCache :=
  if pid = 0 ∨ 2 ^ 31 ≤ pid ∨ vmaps = [] then (none, c)
  else if !available then (none, c)
  else
    match cr3.bind fun cr3 => ptwEnumerate k cr3 heap with
    | none => (none, c)
    | some e =>
      match ptwMerge vmaps e heap with
      | none => (none, c)
      | some out => (some out, auxCacheRebuild pid out c)

end MemDbg.Scan
