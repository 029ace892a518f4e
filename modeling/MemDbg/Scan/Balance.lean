import Mathlib.Algebra.BigOperators.Group.List.Basic
import MemDbg.Scan.Partition

/-!
# What the slots of the partitioner cover and carry

The slots `partition_maps_by_bytes` fills lie end to end over the effective maps, so
each effective map is in exactly one of them.  `total_bytes` is summed with saturation,
the bytes of the open slot modulo `2 ^ 64`; a slot whose sum wraps carries more than its
share (`partition_isCover`).
-/

namespace MemDbg.Scan

open List Lib

def clampedThreads (effectiveCount numThreads : Nat) : Nat :=
  if numThreads ≤ 1 ∨ effectiveCount < 4 then numThreads
  else slotThreads effectiveCount numThreads

def slotArray (mapCount numThreads clamped : Nat) (slots : List (Nat × Nat)) : List (Nat × Nat) :=
  slots ++ .replicate (clamped - slots.length) (mapCount, mapCount)
    ++ .replicate (numThreads - clamped) (0, 0)

def inSlot (effective : List (Nat × Nat)) (s : Nat × Nat) : List (Nat × Nat) :=
  effective.filter fun e => s.1 ≤ e.1 ∧ e.1 < s.2

def byteSum (effective : List (Nat × Nat)) : Nat :=
  (effective.map Prod.snd).sum

/-- What the callers of `partition_maps_by_bytes` rely on, of the array and the count
it returns. -/
structure IsCover (f : MapFilter) (maps : List MapEntry) (clamped : Nat)
    (array : List (Nat × Nat)) (used : Nat) : Prop where
  nonempty : ∀ s ∈ array.take used, s.1 < s.2
  contiguous : (array.take used).IsChain fun s t => s.2 = t.1
  once : ∀ e ∈ effectiveMaps f 0 maps,
    (array.take used).countP (fun s => s.1 ≤ e.1 ∧ e.1 < s.2) = 1
  unused : ∀ s ∈ array.drop used, s.2 ≤ s.1
  balanced : ∀ s ∈ (array.take used).dropLast, 2 ≤ (inSlot (effectiveMaps f 0 maps) s).length →
    byteSum (inSlot (effectiveMaps f 0 maps) s) ≤ totalBytes (effectiveMaps f 0 maps) / clamped

def ClosedSumsFit (numThreads bytesPerThread : Nat) : List (Nat × Nat) → Nat → Nat → Bool → Prop
  | [], _, _, _ => True
  | (_, bytes) :: rest, t, tBytes, wrapped =>
    if t + 1 < numThreads ∧ wrap64 (tBytes + bytes) > bytesPerThread ∧ tBytes > 0 then
      wrapped = false ∧ ClosedSumsFit numThreads bytesPerThread rest (t + 1) (wrap64 bytes) false
    else
      ClosedSumsFit numThreads bytesPerThread rest t (wrap64 (tBytes + bytes))
        (wrapped || decide (2 ^ 64 ≤ tBytes + bytes))

instance decidableClosedSumsFit (numThreads bytesPerThread : Nat) :
    ∀ (effective : List (Nat × Nat)) (t tBytes : Nat) (wrapped : Bool),
      Decidable (ClosedSumsFit numThreads bytesPerThread effective t tBytes wrapped)
  | [], _, _, _ => isTrue trivial
  | (_, bytes) :: rest, t, tBytes, _ =>
    have := decidableClosedSumsFit numThreads bytesPerThread rest
    if h : t + 1 < numThreads ∧ wrap64 (tBytes + bytes) > bytesPerThread ∧ tBytes > 0 then
      decidable_of_iff _ (iff_of_eq (if_pos h)).symm
    else decidable_of_iff _ (iff_of_eq (if_neg h)).symm

/-- The sums of the slots fit, over the whole loop. -/
def SlotSumsFit (f : MapFilter) (maps : List MapEntry) (numThreads : Nat) : Prop :=
  let effective := effectiveMaps f 0 maps
  let numThreads := slotThreads effective.length numThreads
  ClosedSumsFit numThreads (bytesPerThread effective numThreads) effective 0 0 false

instance (f : MapFilter) (maps : List MapEntry) (numThreads : Nat) :
    Decidable (SlotSumsFit f maps numThreads) :=
  decidableClosedSumsFit _ _ _ _ _ _

/-! ## The bytes of the effective maps -/

@[simp]
theorem byteSum_nil : byteSum [] = 0 := rfl

@[simp]
theorem byteSum_append (xs ys : List (Nat × Nat)) :
    byteSum (xs ++ ys) = byteSum xs + byteSum ys := by
  simp [byteSum]

@[simp]
theorem byteSum_singleton (e : Nat × Nat) : byteSum [e] = e.2 := by
  simp [byteSum]

theorem effectiveMaps_pos {f : MapFilter} {maps : List MapEntry}
    (hend : ∀ map ∈ maps, map.endAddr < 2 ^ 64) (i : Nat) :
    ∀ e ∈ effectiveMaps f i maps, 0 < e.2 ∧ e.2 < 2 ^ 64 := by
  induction maps generalizing i with
  | nil => exact fun e he => absurd he not_mem_nil
  | cons map maps ih =>
    obtain ⟨hmap, hmaps⟩ := forall_mem_cons.mp hend
    rw [effectiveMaps]
    cases hclip : f.clip map with
    | none => exact ih hmaps (i + 1)
    | some r =>
      obtain ⟨-, hle, hpos, -⟩ := clip_bounds hclip
      exact forall_mem_cons.mpr ⟨⟨hpos, by dsimp only; omega⟩, ih hmaps (i + 1)⟩

theorem totalBytes_eq (effective : List (Nat × Nat)) :
    totalBytes effective = min (byteSum effective) (2 ^ 64 - 1) := by
  suffices h : ∀ total ≤ 2 ^ 64 - 1,
      effective.foldl (fun total e =>
        if 2 ^ 64 - 1 - total < e.2 then 2 ^ 64 - 1 else total + e.2) total =
        min (total + byteSum effective) (2 ^ 64 - 1) by
    rw [totalBytes, h 0 (Nat.zero_le _), Nat.zero_add]
  induction effective with
  | nil => exact fun total htotal => (Nat.min_eq_left htotal).symm
  | cons e rest ih =>
    intro total htotal
    rw [foldl_cons, ← singleton_append, byteSum_append, byteSum_singleton]
    split_ifs with hsat
    · rw [ih _ (Nat.le_refl _)]
      omega
    · rw [ih _ (by omega)]
      omega

theorem bytesPerThread_eq {f : MapFilter} {maps : List MapEntry}
    (hend : ∀ map ∈ maps, map.endAddr < 2 ^ 64) {numThreads : Nat} (hthreads : numThreads < 2 ^ 64)
    (hfour : 4 ≤ (effectiveMaps f 0 maps).length) :
    let clamped := slotThreads (effectiveMaps f 0 maps).length numThreads
    bytesPerThread (effectiveMaps f 0 maps) clamped =
      totalBytes (effectiveMaps f 0 maps) / clamped := by
  intro clamped
  have hpos : 0 < clamped ∧ clamped ≤ (effectiveMaps f 0 maps).length ∧ clamped < 2 ^ 64 := by
    simp only [clamped, slotThreads]
    split_ifs <;> omega
  have hsum : (effectiveMaps f 0 maps).length ≤ byteSum (effectiveMaps f 0 maps) := by
    have h := length_le_sum_of_one_le ((effectiveMaps f 0 maps).map Prod.snd) fun n hn => by
      obtain ⟨e, he, rfl⟩ := mem_map.mp hn
      exact (effectiveMaps_pos hend 0 e he).1
    rwa [length_map] at h
  have htotal : clamped ≤ totalBytes (effectiveMaps f 0 maps) := by
    rw [totalBytes_eq]
    omega
  have hshare := Nat.div_pos htotal hpos.1
  rw [bytesPerThread]
  exact if_neg (Nat.ne_of_gt hshare)

/-! ## What the used slots carry -/

section Loop

variable {numThreads bytesPerThread mapCount : Nat}

theorem slotLoop_last (effective : List (Nat × Nat)) {t : Nat} (ht : ¬ t + 1 < numThreads)
    (tBytes start : Nat) :
    slotLoop numThreads bytesPerThread mapCount effective t tBytes start =
      [(start, mapCount)] := by
  induction effective generalizing tBytes with
  | nil => rfl
  | cons e rest ih => rw [slotLoop, if_neg (fun h => ht h.1), ih]

theorem closedSumsFit_last (effective : List (Nat × Nat)) {t : Nat} (ht : ¬ t + 1 < numThreads)
    (tBytes : Nat) (wrapped : Bool) :
    ClosedSumsFit numThreads bytesPerThread effective t tBytes wrapped := by
  induction effective generalizing tBytes wrapped with
  | nil => trivial
  | cons e rest ih =>
    rw [ClosedSumsFit, if_neg (fun h => ht h.1)]
    exact ih _ _

theorem slotLoop_length (effective : List (Nat × Nat)) (t tBytes start : Nat)
    (ht : t < numThreads) :
    let slots := slotLoop numThreads bytesPerThread mapCount effective t tBytes start
    slots ≠ [] ∧ t + slots.length ≤ numThreads := by
  induction effective generalizing t tBytes start with
  | nil => exact ⟨cons_ne_nil _ _, ht⟩
  | cons e rest ih =>
    rw [slotLoop]
    split_ifs with hopen
    · obtain ⟨-, hlength⟩ := ih (t + 1) (wrap64 e.2) e.1 hopen.1
      refine ⟨cons_ne_nil _ _, ?_⟩
      rw [length_cons]
      omega
    · exact ih _ _ _ ht

theorem inSlot_middle {done cur rest : List (Nat × Nat)} {start stop : Nat}
    (hdone : ∀ e ∈ done, e.1 < start) (hcur : ∀ e ∈ cur, start ≤ e.1 ∧ e.1 < stop)
    (hrest : ∀ e ∈ rest, stop ≤ e.1) : inSlot (done ++ cur ++ rest) (start, stop) = cur := by
  have hdone' : inSlot done (start, stop) = [] := by
    refine filter_eq_nil_iff.mpr fun e he => ?_
    simpa only [decide_eq_true_eq] using fun h => Nat.not_lt.mpr h.1 (hdone e he)
  have hcur' : inSlot cur (start, stop) = cur :=
    filter_eq_self.mpr fun e he => by simpa only [decide_eq_true_eq] using hcur e he
  have hrest' : inSlot rest (start, stop) = [] := by
    refine filter_eq_nil_iff.mpr fun e he => ?_
    simpa only [decide_eq_true_eq] using fun h => Nat.not_lt.mpr (hrest e he) h.2
  unfold inSlot at *
  rw [filter_append, filter_append, hdone', hcur', hrest', nil_append,
    append_nil]

def OpenSlot (bytesPerThread : Nat) (cur : List (Nat × Nat)) (tBytes : Nat) : Bool → Prop
  | false => tBytes = byteSum cur ∧ (2 ≤ cur.length → byteSum cur ≤ bytesPerThread)
  | true => 2 ≤ cur.length ∧ 2 ^ 64 ≤ byteSum cur

theorem byteSum_pos {cur : List (Nat × Nat)} (hpos : ∀ e ∈ cur, 0 < e.2) (hcur : cur ≠ []) :
    0 < byteSum cur := by
  obtain ⟨e, cur, rfl⟩ := exists_cons_of_ne_nil hcur
  rw [← singleton_append, byteSum_append, byteSum_singleton]
  exact Nat.add_pos_left (hpos e mem_cons_self) _

theorem OpenSlot.opened {e : Nat × Nat} (he : e.2 < 2 ^ 64) :
    OpenSlot bytesPerThread [e] (wrap64 e.2) false :=
  ⟨(Nat.mod_eq_of_lt he).trans (byteSum_singleton e).symm,
    fun h => absurd h (by rw [length_singleton]; decide)⟩

theorem OpenSlot.merge {cur : List (Nat × Nat)} {tBytes : Nat} {wrapped : Bool}
    (h : OpenSlot bytesPerThread cur tBytes wrapped) (hpos : ∀ x ∈ cur, 0 < x.2) {e : Nat × Nat}
    (he : e.2 < 2 ^ 64) (hjoin : ¬ (wrap64 (tBytes + e.2) > bytesPerThread ∧ tBytes > 0)) :
    OpenSlot bytesPerThread (cur ++ [e]) (wrap64 (tBytes + e.2))
      (wrapped || decide (2 ^ 64 ≤ tBytes + e.2)) := by
  have hlength : (cur ++ [e]).length = cur.length + 1 := by rw [length_append]; rfl
  have hsum : byteSum (cur ++ [e]) = byteSum cur + e.2 := by
    rw [byteSum_append, byteSum_singleton]
  cases wrapped with
  | true =>
    obtain ⟨htwo, hover⟩ := h
    refine ⟨?_, ?_⟩
    · rw [hlength]
      exact Nat.le_succ_of_le htwo
    · rw [hsum]
      exact Nat.le_add_right_of_le hover
  | false =>
    obtain ⟨rfl, hshare⟩ := h
    rw [Bool.false_or]
    rcases Nat.lt_or_ge (byteSum cur + e.2) (2 ^ 64) with hfits | hover
    · have hwrap : wrap64 (byteSum cur + e.2) = byteSum cur + e.2 := Nat.mod_eq_of_lt hfits
      rw [decide_eq_false (Nat.not_le.mpr hfits), hwrap]
      refine ⟨hsum.symm, fun htwo => ?_⟩
      have hcur : cur ≠ [] := by
        rintro rfl
        rw [hlength] at htwo
        exact absurd htwo (by decide)
      rw [hsum]
      rw [hwrap] at hjoin
      exact Nat.not_lt.mp fun hmore => hjoin ⟨hmore, byteSum_pos hpos hcur⟩
    · rw [decide_eq_true hover]
      refine ⟨?_, hsum ▸ hover⟩
      -- a single map does not overflow
      have hcur : cur ≠ [] := by
        rintro rfl
        rw [byteSum_nil, Nat.zero_add] at hover
        exact absurd he (Nat.not_lt.mpr hover)
      rw [hlength]
      exact Nat.succ_le_succ (length_pos_iff.mpr hcur)

theorem OpenSlot.share_iff {cur : List (Nat × Nat)} {tBytes : Nat} {wrapped : Bool}
    (h : OpenSlot bytesPerThread cur tBytes wrapped) (hshare : bytesPerThread < 2 ^ 64) :
    (2 ≤ cur.length → byteSum cur ≤ bytesPerThread) ↔ wrapped = false := by
  cases wrapped with
  | true =>
    refine ⟨fun hle => absurd (hle h.1) ?_, fun hfalse => absurd hfalse.symm Bool.false_ne_true⟩
    exact Nat.not_le.mpr (Nat.lt_of_lt_of_le hshare h.2)
  | false => exact ⟨fun _ => rfl, fun _ => h.2⟩

theorem slotLoop_balanced {effective : List (Nat × Nat)} (hshare : bytesPerThread < 2 ^ 64)
    (hbytes : ∀ e ∈ effective, 0 < e.2 ∧ e.2 < 2 ^ 64)
    (hsorted : effective.Pairwise fun x y => x.1 < y.1) {done cur rest : List (Nat × Nat)}
    (hall : effective = done ++ cur ++ rest) {t tBytes start : Nat} {wrapped : Bool}
    (hdone : ∀ e ∈ done, e.1 < start) (hfrom : ∀ e ∈ cur ++ rest, start ≤ e.1)
    (hopen : t + 1 < numThreads → OpenSlot bytesPerThread cur tBytes wrapped) :
    (∀ s ∈ (slotLoop numThreads bytesPerThread mapCount rest t tBytes start).dropLast,
      2 ≤ (inSlot effective s).length → byteSum (inSlot effective s) ≤ bytesPerThread) ↔
      ClosedSumsFit numThreads bytesPerThread rest t tBytes wrapped := by
  induction rest generalizing done cur t tBytes start wrapped with
  | nil => exact ⟨fun _ => trivial, fun _ s hs => absurd hs not_mem_nil⟩
  | cons e rest ih =>
    have he := hbytes e (by rw [hall]; simp)
    rcases Nat.lt_or_ge (t + 1) numThreads with ht | ht
    · have hsorted' := pairwise_append.mp (hall ▸ hsorted)
      have hcur : ∀ x ∈ cur, start ≤ x.1 ∧ x.1 < e.1 := fun x hx =>
        ⟨hfrom x (mem_append_left _ hx),
          hsorted'.2.2 x (mem_append_right _ hx) e mem_cons_self⟩
      have hrest : ∀ x ∈ e :: rest, e.1 ≤ x.1 :=
        forall_mem_cons.mpr ⟨Nat.le_refl _,
          fun x hx => Nat.le_of_lt (rel_of_pairwise_cons hsorted'.2.1 hx)⟩
      rw [slotLoop, ClosedSumsFit]
      by_cases hsplit : t + 1 < numThreads ∧ wrap64 (tBytes + e.2) > bytesPerThread ∧ tBytes > 0
      · rw [if_pos hsplit, if_pos hsplit,
          dropLast_cons_of_ne_nil (slotLoop_length _ _ _ _ ht).1, forall_mem_cons]
        have hin : inSlot effective (start, e.1) = cur := by
          rw [hall]
          exact inSlot_middle hdone hcur hrest
        refine and_congr ?_ ?_
        · rw [hin]
          exact (hopen ht).share_iff hshare
        · refine ih (hall.trans (append_cons _ _ _)) ?_ hrest fun _ => OpenSlot.opened he.2
          have hstart : start ≤ e.1 := hfrom e (mem_append_right _ mem_cons_self)
          intro x hx
          rcases mem_append.mp hx with hx | hx
          · exact Nat.lt_of_lt_of_le (hdone x hx) hstart
          · exact (hcur x hx).2
      · rw [if_neg hsplit, if_neg hsplit]
        have hpos : ∀ x ∈ cur, 0 < x.2 := fun x hx => (hbytes x (by rw [hall]; simp [hx])).1
        refine ih (hall.trans ?_) hdone ?_ fun _ =>
          (hopen ht).merge hpos he.2 fun hjoin => hsplit ⟨ht, hjoin⟩
        · rw [append_cons, append_assoc done cur [e]]
        · rwa [← append_cons]
    · rw [slotLoop_last _ (Nat.not_lt.mpr ht)]
      exact ⟨fun _ => closedSumsFit_last _ (Nat.not_lt.mpr ht) _ _,
        fun _ s hs => absurd hs not_mem_nil⟩

end Loop

/-! ## The cover -/

section Cover

variable {env : Env} {f : MapFilter} {maps : List MapEntry} {numThreads : Nat}
  {slots : List (Nat × Nat)}

theorem partition_length (hthreads : 1 ≤ numThreads)
    (h : partitionMapsByBytes env (some maps) f numThreads = .ok slots) :
    slots.length ≤ clampedThreads (effectiveMaps f 0 maps).length numThreads ∧
      clampedThreads (effectiveMaps f 0 maps).length numThreads ≤ numThreads := by
  rw [partitionMapsByBytes] at h
  rw [clampedThreads]
  split_ifs at h with h₀ h₁ h₂
  · rw [if_pos h₁, ← Except.ok.inj h]
    exact ⟨hthreads, Nat.le_refl _⟩
  · rw [if_neg h₁, ← Except.ok.inj h]
    have hclamp : 0 < slotThreads (effectiveMaps f 0 maps).length numThreads ∧
        slotThreads (effectiveMaps f 0 maps).length numThreads ≤ numThreads := by
      simp only [slotThreads]
      split_ifs <;> omega
    refine ⟨?_, hclamp.2⟩
    refine Nat.le_trans (Nat.le_of_eq (Nat.zero_add _).symm) ?_
    exact (slotLoop_length (effectiveMaps f 0 maps) 0 0 _ hclamp.1).2

theorem mem_effectiveMaps {i : Nat} {e : Nat × Nat} (he : e ∈ effectiveMaps f i maps) :
    i ≤ e.1 ∧ ∃ map, maps[e.1 - i]? = some map ∧ f.clip map ≠ none := by
  induction maps generalizing i with
  | nil => exact absurd he not_mem_nil
  | cons map maps ih =>
    rw [effectiveMaps] at he
    have hlater : e ∈ effectiveMaps f (i + 1) maps →
        i ≤ e.1 ∧ ∃ map', (map :: maps)[e.1 - i]? = some map' ∧ f.clip map' ≠ none := by
      intro he
      obtain ⟨hi, map', hmap', hclip⟩ := ih he
      refine ⟨Nat.le_of_succ_le hi, map', ?_, hclip⟩
      rwa [show e.1 - i = (e.1 - (i + 1)) + 1 by omega, getElem?_cons_succ]
    cases hclip : f.clip map with
    | none =>
      rw [hclip] at he
      exact hlater he
    | some r =>
      rw [hclip] at he
      rcases mem_cons.mp he with rfl | he
      · refine ⟨Nat.le_refl _, map, ?_, by rw [hclip]; exact Option.some_ne_none r⟩
        rw [Nat.sub_self, getElem?_cons_zero]
      · exact hlater he

theorem partition_span_effective (hmaps : maps ≠ [])
    (h : partitionMapsByBytes env (some maps) f numThreads = .ok slots) :
    ∃ first, Span first slots maps.length ∧
      ∀ e ∈ effectiveMaps f 0 maps, first ≤ e.1 ∧ e.1 < maps.length := by
  have hbound : ∀ e ∈ effectiveMaps f 0 maps, e.1 < maps.length := fun e he => by
    simpa only [Nat.zero_add] using ((effectiveMaps_sorted f 0 maps).2 e he).2
  rcases partition_span h with rfl | ⟨first, hspan, hbefore⟩
  · exact ⟨0, .cons (length_pos_iff.mpr hmaps) (.nil _),
      fun e he => ⟨Nat.zero_le _, hbound e he⟩⟩
  · refine ⟨first, hspan, fun e he => ⟨?_, hbound e he⟩⟩
    obtain ⟨-, map, hmap, hclip⟩ := mem_effectiveMaps he
    refine Nat.le_of_not_lt fun hlt => hclip (hbefore map ?_)
    rw [Nat.sub_zero] at hmap
    exact mem_of_getElem? (i := e.1) (by rwa [getElem?_take_of_lt hlt])

theorem slotArray_unused {mapCount clamped : Nat} :
    ∀ s ∈ (slotArray mapCount numThreads clamped slots).drop slots.length, s.2 ≤ s.1 := by
  intro s hs
  rw [slotArray, append_assoc, drop_left] at hs
  rcases mem_append.mp hs with hs | hs
  · exact Nat.le_of_eq (by rw [eq_of_mem_replicate hs])
  · exact Nat.le_of_eq (by rw [eq_of_mem_replicate hs])

theorem slotArray_take {mapCount clamped : Nat} :
    (slotArray mapCount numThreads clamped slots).take slots.length = slots := by
  rw [slotArray, append_assoc, take_left]

theorem head_le_of_sorted {effective : List (Nat × Nat)}
    (hsorted : effective.Pairwise fun x y => x.1 < y.1) {e : Nat × Nat} (he : e ∈ effective) :
    (effective.head?.getD (0, 0)).1 ≤ e.1 := by
  cases effective with
  | nil => exact absurd he not_mem_nil
  | cons head rest =>
    rcases mem_cons.mp he with rfl | he
    · exact Nat.le_refl _
    · exact Nat.le_of_lt (rel_of_pairwise_cons hsorted he)

theorem partition_balanced (hend : ∀ map ∈ maps, map.endAddr < 2 ^ 64)
    (hwidth : numThreads < 2 ^ 64)
    (h : partitionMapsByBytes env (some maps) f numThreads = .ok slots) :
    (∀ s ∈ slots.dropLast, 2 ≤ (inSlot (effectiveMaps f 0 maps) s).length →
      byteSum (inSlot (effectiveMaps f 0 maps) s) ≤ totalBytes (effectiveMaps f 0 maps) /
        clampedThreads (effectiveMaps f 0 maps).length numThreads) ↔
      SlotSumsFit f maps numThreads := by
  rw [partitionMapsByBytes] at h
  rw [clampedThreads, SlotSumsFit]
  split_ifs at h with h₀ h₁ h₂
  · rw [← Except.ok.inj h]
    refine ⟨fun _ => closedSumsFit_last _ ?_ _ _, fun _ s hs => absurd hs not_mem_nil⟩
    simp only [slotThreads]
    split_ifs <;> omega
  · have hfour : 4 ≤ (effectiveMaps f 0 maps).length := Nat.le_of_not_lt fun hlt => h₁ (.inr hlt)
    have hshare := bytesPerThread_eq hend hwidth hfour
    have htotal : totalBytes (effectiveMaps f 0 maps) < 2 ^ 64 := by
      rw [totalBytes_eq]
      omega
    rw [if_neg h₁, ← Except.ok.inj h, ← hshare]
    refine slotLoop_balanced ?_ (effectiveMaps_pos hend 0) (effectiveMaps_sorted f 0 maps).1
      (nil_append _).symm (fun e he => absurd he not_mem_nil) ?_
      fun _ => ⟨rfl, fun h => absurd h (by decide)⟩
    · rw [hshare]
      exact Nat.lt_of_le_of_lt (Nat.div_le_self _ _) htotal
    · exact fun e he => head_le_of_sorted (effectiveMaps_sorted f 0 maps).1 he

/-- **The partition is a cover, if the sums fit.** -/
theorem partition_isCover (hindices : env.alloc .partitionIndices = true)
    (hbytes : env.alloc .partitionBytes = true) (hend : ∀ map ∈ maps, map.endAddr < 2 ^ 64)
    (hthreads : 1 ≤ numThreads) (hwidth : numThreads < 2 ^ 64) :
    ∃ slots, partitionMapsByBytes env (some maps) f numThreads = .ok slots ∧
      let clamped := clampedThreads (effectiveMaps f 0 maps).length numThreads
      (IsCover f maps clamped (slotArray maps.length numThreads clamped slots) slots.length ↔
        maps ≠ [] ∧ SlotSumsFit f maps numThreads) := by
  obtain ⟨slots, hslots⟩ := partition_ok hindices hbytes maps f hthreads
  refine ⟨slots, hslots, fun h => ⟨?_, ?_⟩, fun ⟨hmaps, hfit⟩ => ?_⟩
  · rintro rfl
    have hnone : slots = [(0, 0)] := by
      rw [partitionMapsByBytes] at hslots
      rw [if_neg (Nat.not_lt.mpr hthreads), if_pos (.inr (Nat.zero_lt_succ 3))] at hslots
      exact (Except.ok.inj hslots).symm
    have hempty := h.nonempty (0, 0) (by rw [slotArray_take, hnone]; exact mem_cons_self)
    exact Nat.lt_irrefl 0 hempty
  · have hbalanced := h.balanced
    rw [slotArray_take] at hbalanced
    exact (partition_balanced hend hwidth hslots).mp hbalanced
  · obtain ⟨first, hspan, heffective⟩ := partition_span_effective hmaps hslots
    constructor
    · rw [slotArray_take]
      exact fun s hs => hspan.lt_of_mem hs
    · rw [slotArray_take]
      exact hspan.isChain
    · rw [slotArray_take]
      exact fun e he => hspan.countP_eq_one (heffective e he).1 (heffective e he).2
    · exact slotArray_unused
    · rw [slotArray_take]
      exact (partition_balanced hend hwidth hslots).mpr hfit

def mixedMaps : List MapEntry :=
  [⟨0, 8, 1⟩, ⟨8, 9, 1⟩, ⟨16, 20, 0⟩, ⟨32, 36, 1⟩, ⟨36, 38, 1⟩]

theorem partition_isCover_mixed :
    ∃ slots, partitionMapsByBytes (.readable .host (fun _ => 0) fun _ len => len) (some mixedMaps)
        ⟨1, 0, 0, 1⟩ 2 = .ok slots ∧
      IsCover ⟨1, 0, 0, 1⟩ mixedMaps 2 (slotArray 5 2 2 slots) slots.length := by
  obtain ⟨slots, hslots, hcover⟩ :=
    @partition_isCover (.readable .host (fun _ => 0) fun _ len => len) ⟨1, 0, 0, 1⟩ mixedMaps 2
      rfl rfl (by decide) (by decide) (by decide)
  exact ⟨slots, hslots, hcover.mpr ⟨cons_ne_nil _ _, by decide⟩⟩

def halfMaps : List MapEntry :=
  [⟨0, 2 ^ 63, 1⟩, ⟨0, 2 ^ 63, 1⟩, ⟨0, 2 ^ 63, 1⟩, ⟨0, 4096, 1⟩]

theorem partition_not_isCover :
    let env := Env.readable .host (fun _ => 0) fun _ len => len
    (partitionMapsByBytes env (some halfMaps) ⟨1, 0, 0, 1⟩ 2 = .ok [(0, 3), (3, 4)] ∧
      ¬ IsCover ⟨1, 0, 0, 1⟩ halfMaps 2 (slotArray 4 2 2 [(0, 3), (3, 4)]) 2) ∧
    partitionMapsByBytes env (some []) ⟨1, 0, 0, 1⟩ 2 = .ok [(0, 0)] ∧
      ¬ IsCover ⟨1, 0, 0, 1⟩ [] 2 (slotArray 0 2 2 [(0, 0)]) 1 := by
  refine ⟨⟨by decide, fun h => ?_⟩, by decide, fun h => ?_⟩
  · exact absurd (h.balanced (0, 3) (by decide)) (by decide)
  · exact absurd (h.nonempty (0, 0) (by decide)) (by decide)

end Cover

end MemDbg.Scan
