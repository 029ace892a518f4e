import MemDbg.FlashScan.Recorded

/-!
# Slots, addresses and bits

`slot_to_addr` and `bitmap_next_set` as the machine runs them: with counters of a fixed width, with
reads that have to lie in the table or in the bitmap, and with loops that have to end.
-/

namespace MemDbg.FlashScan

open List Lib

/-! ## The search for a bit -/

def wordAt (bm : List UInt8) (k : Nat) : Option Nat :=
  if k + 8 ≤ bm.length then some (leNat ((bm.drop k).take 8)) else none

def skipZeroWords (bm : List UInt8) (n : Nat) : Nat → Nat → Option Nat
  | 0, _ => none
  | fuel + 1, i =>
    if wrap64 (i + 64) ≤ n then
      match wordAt bm (i / 8) with
      | none => none
      | some word => if word = 0 then skipZeroWords bm n fuel (wrap64 (i + 64)) else some i
    else some i

def bitmapNextSet? (bm : List UInt8) (n : Nat) : Nat → Nat → Option Nat
  | 0, _ => none
  | fuel + 1, i =>
    if i < n then
      match if i % 64 = 0 then skipZeroWords bm n fuel i else some i with
      | none => none
      | some i =>
        if n ≤ i then some n
        else
          match bm[i / 8]? with
          | none => none
          | some byte =>
            if byte.toNat.testBit (i % 8) then some i
            else bitmapNextSet? bm n fuel (wrap64 (i + 1))
    else some n

/-- `r` is the least index from `start` on and below `n` whose bit is set, or `n`. -/
structure NextSet (bm : List UInt8) (start n r : Nat) : Prop where
  found : r = n ∨ start ≤ r ∧ r < n ∧ bitAt bm r = true
  least : ∀ j, start ≤ j → j < r → bitAt bm j = false

section Bits

variable {bm : List UInt8} {n i : Nat}

theorem skipZeroWords_spec (hn : n ≤ 8 * bm.length) (hwidth : n + 64 < 2 ^ 64) (fuel : Nat)
    (hi : i % 64 = 0) (hin : i ≤ n) (hfuel : n < i + 64 * fuel) :
    ∃ r, skipZeroWords bm n fuel i = some r ∧ i ≤ r ∧ r ≤ n ∧
      ∀ j, i ≤ j → j < r → bitAt bm j = false := by
  induction fuel generalizing i with
  | zero => omega
  | succ fuel ih =>
    have hstop : i ≤ i ∧ i ≤ n ∧ ∀ j, i ≤ j → j < i → bitAt bm j = false :=
      ⟨le_rfl, hin, fun j h₁ h₂ => absurd h₂ (Nat.not_lt.mpr h₁)⟩
    rw [skipZeroWords, wrap64_of_lt (by omega)]
    split_ifs with hmore
    · rw [wordAt, if_pos (by omega)]
      dsimp only
      split_ifs with hzero
      · obtain ⟨r, hr, hle, hrn, hclear⟩ := ih (i := i + 64) (by omega) hmore (by omega)
        refine ⟨r, hr, by omega, hrn, fun j hij hj => ?_⟩
        rcases Nat.lt_or_ge j (i + 64) with hlt | hge
        · exact bitAt_of_word_eq_zero hi hij hlt hzero
        · exact hclear j hge hj
      · exact ⟨i, rfl, hstop⟩
    · exact ⟨i, rfl, hstop⟩

theorem bitmapNextSet?_spec (hn : n ≤ 8 * bm.length) (hwidth : n + 64 < 2 ^ 64) (fuel : Nat)
    (hpos : 0 < fuel) (hfuel : n < i + fuel) :
    ∃ r, bitmapNextSet? bm n fuel i = some r ∧ NextSet bm i n r := by
  induction fuel generalizing i with
  | zero => exact absurd hpos (Nat.lt_irrefl 0)
  | succ fuel ih =>
    rw [bitmapNextSet?]
    by_cases hlt : i < n
    · have hskip : ∃ r, (if i % 64 = 0 then skipZeroWords bm n fuel i else some i) = some r ∧
          i ≤ r ∧ r ≤ n ∧ ∀ j, i ≤ j → j < r → bitAt bm j = false := by
        split_ifs with hmod
        · exact skipZeroWords_spec hn hwidth fuel hmod hlt.le (by omega)
        · exact ⟨i, rfl, le_rfl, hlt.le, fun j h₁ h₂ => absurd h₂ (Nat.not_lt.mpr h₁)⟩
      obtain ⟨r, hr, hir, hrn, hclear⟩ := hskip
      rw [if_pos hlt, hr]
      dsimp only
      split_ifs with hend
      · obtain rfl : r = n := hrn.antisymm hend
        exact ⟨r, rfl, .inl rfl, hclear⟩
      · have hbyte : r / 8 < bm.length := by omega
        have hbit : bm[r / 8].toNat.testBit (r % 8) = bitAt bm r := by
          rw [bitAt, getD_eq_getElem _ _ hbyte]
        rw [getElem?_eq_getElem hbyte]
        dsimp only
        rw [hbit]
        split_ifs with hset
        · exact ⟨r, rfl, .inr ⟨hir, Nat.lt_of_not_le hend, hset⟩, hclear⟩
        · rw [wrap64_of_lt (by omega)]
          obtain ⟨r', hr', hfound, hleast⟩ := ih (i := r + 1) (by omega) (by omega)
          refine ⟨r', hr', ?_, fun j hij hj => ?_⟩
          · exact hfound.imp_right fun h => ⟨Nat.le_trans (Nat.le_succ_of_le hir) h.1, h.2⟩
          · rcases Nat.lt_trichotomy j r with hjr | rfl | hjr
            · exact hclear j hij hjr
            · exact Bool.eq_false_iff.mpr hset
            · exact hleast j hjr hj
    · rw [if_neg hlt]
      exact ⟨n, rfl, .inl rfl, fun j hij hj => absurd (hij.trans_lt hj) hlt⟩

end Bits

/-! ## The search for a segment -/

def segSearch? (seg : List FsSeg) (i : Nat) : Nat → Nat → Nat → Option Nat
  | 0, _, _ => none
  | fuel + 1, lo, hi =>
    if wrap32 (lo + 1) < hi then
      let mid := wrap32 (lo + hi) / 2
      match seg[mid]? with
      | none => none
      | some g => if g.slotStart ≤ i then segSearch? seg i fuel mid hi
        else segSearch? seg i fuel lo mid
    else some lo

def slotToAddr? (seg : List FsSeg) (stride fuel i : Nat) : Option Nat :=
  (segSearch? seg i fuel 0 seg.length).bind fun lo =>
    seg[lo]?.map fun g => wrap64 (g.addr + wrap64 (sub64 i g.slotStart * stride))

def quickscanMaxSegments : Nat := 2 ^ 20

section Segments

variable {seg : List FsSeg} {i stride : Nat}

theorem segSearch?_eq (hwidth : seg.length < 2 ^ 31) (fuel : Nat) {lo hi : Nat} (hlt : lo < hi)
    (hhi : hi ≤ seg.length) (hfuel : hi ≤ lo + fuel) :
    segSearch? seg i fuel lo hi = some (segSearch seg i fuel lo hi) := by
  induction fuel generalizing lo hi with
  | zero => omega
  | succ fuel ih =>
    rw [segSearch?, segSearch, wrap32_of_lt (by omega), wrap32_of_lt (by omega)]
    dsimp only
    split_ifs with hmore hmid
    · have hin : (lo + hi) / 2 < seg.length := by omega
      rw [getD_eq_getElem _ _ hin] at hmid
      rw [getElem?_eq_getElem hin]
      dsimp only
      rw [if_pos hmid]
      exact ih (by omega) hhi (by omega)
    · have hin : (lo + hi) / 2 < seg.length := by omega
      rw [getD_eq_getElem _ _ hin] at hmid
      rw [getElem?_eq_getElem hin]
      dsimp only
      rw [if_neg hmid]
      exact ih (by omega) (by omega) (by omega)
    · rfl

theorem nslots_le (g : Segment) (vlen step : Nat) : g.nslots vlen step ≤ 2 ^ 32 := by
  have hlen := g.length.toNat_lt
  have hdiv := Nat.div_le_self (g.length.toNat - vlen) step
  rw [Segment.nslots]
  split_ifs <;> omega

theorem range'_segTable (vlen step start : Nat) (gs : List Segment) :
    List.range' start ((segTable vlen step start gs).map FsSeg.nslots).sum =
      (segTable vlen step start gs).flatMap fun g =>
        (List.range g.nslots).map (g.slotStart + ·) := by
  induction gs generalizing start with
  | nil => rfl
  | cons g gs ih =>
    rw [segTable, map_cons, sum_cons, flatMap_cons, ← ih, ← range'_append_1]
    congr 1
    rw [range'_eq_map_range]

theorem sum_nslots_le (vlen step start : Nat) (gs : List Segment) :
    ((segTable vlen step start gs).map FsSeg.nslots).sum ≤ gs.length * 2 ^ 32 := by
  induction gs generalizing start with
  | nil => exact Nat.zero_le _
  | cons g gs ih =>
    have hle := nslots_le g vlen step
    have hrest := ih (start + g.nslots vlen step)
    rw [segTable, map_cons, sum_cons, length_cons]
    dsimp only
    omega

theorem length_segTable (vlen step start : Nat) (gs : List Segment) :
    (segTable vlen step start gs).length = gs.length := by
  induction gs generalizing start with
  | nil => rfl
  | cons g gs ih => rw [segTable, length_cons, length_cons, ih]

end Segments

namespace CreateRequest

variable {req : CreateRequest}

theorem slotCount_lt (hsegs : req.segs.length ≤ quickscanMaxSegments) : req.slotCount < 2 ^ 53 := by
  have hsum := sum_nslots_le req.vlen req.step 0 req.segs
  rw [quickscanMaxSegments] at hsegs
  rw [slotCount, CreateRequest.seg]
  omega

theorem slotToAddr?_eq (hsegs : req.segs.length ≤ quickscanMaxSegments) (hne : req.seg ≠ [])
    (i : Nat) : slotToAddr? req.seg req.step req.seg.length i = some (req.slotAddr i) := by
  have hlen : req.seg.length = req.segs.length := length_segTable _ _ _ _
  have hpos : 0 < req.seg.length := length_pos_iff.mpr hne
  have hzero : (req.seg.getD 0 ⟨0, 0, 0⟩).slotStart ≤ i := by
    rw [CreateRequest.seg]
    cases req.segs with
    | nil => exact Nat.zero_le i
    | cons g gs => exact Nat.zero_le i
  obtain ⟨hin, -, -⟩ := segSearch_spec req.seg.length hzero hpos (.inl rfl) (by omega)
  have hget : req.seg[segSearch req.seg i req.seg.length 0 req.seg.length]? =
      some (req.seg.getD (segSearch req.seg i req.seg.length 0 req.seg.length) ⟨0, 0, 0⟩) := by
    rw [getElem?_eq_getElem hin, getD_eq_getElem _ _ hin]
  rw [quickscanMaxSegments] at hsegs
  rw [slotToAddr?, segSearch?_eq (by omega) _ hpos le_rfl (by omega), Option.bind_some, hget,
    Option.map_some, slotAddr, wrap64, wrap64, Nat.add_mod_mod, wrap64]

theorem map_slotToAddr? (hsegs : req.segs.length ≤ quickscanMaxSegments) :
    (List.range req.slotCount).map (slotToAddr? req.seg req.step req.seg.length) =
      req.seg.flatMap fun g => (List.range g.nslots).map fun k =>
        some (wrap64 (g.addr + k * req.step)) := by
  have hslots : List.range req.slotCount =
      req.seg.flatMap fun g => (List.range g.nslots).map (g.slotStart + ·) := by
    rw [range_eq_range']
    exact range'_segTable req.vlen req.step 0 req.segs
  have hlt := slotCount_lt hsegs
  rw [hslots, map_flatMap]
  refine flatMap_congr fun g hg => ?_
  rw [map_map]
  refine map_congr_left fun k hk => ?_
  have hslot : g.slotStart + k ∈ List.range req.slotCount := by
    rw [hslots]
    exact mem_flatMap.mpr ⟨g, hg, mem_map_of_mem hk⟩
  rw [mem_range] at hslot hk
  rw [Function.comp_apply, slotToAddr?_eq hsegs (ne_nil_of_mem hg),
    slotAddr_of_mem hg hk (by omega)]

end CreateRequest

/-- Slots are numbered in order, one number for each value of each segment, and the search for a set
bit finds the least one.  The table has as many segments as a request may have, and the bitmap fewer
than `2 ^ 64 - 64` bits (`snapshot_create` makes none of more than 448 MiB). -/
theorem slots_exact (req : CreateRequest) (hsegs : req.segs.length ≤ quickscanMaxSegments)
    (bm : List UInt8) (start n : Nat) (hn : n ≤ 8 * bm.length) (hwidth : n + 64 < 2 ^ 64) :
    (List.range req.slotCount).map (slotToAddr? req.seg req.step req.seg.length) =
        (req.seg.flatMap fun g => (List.range g.nslots).map fun k =>
          some (wrap64 (g.addr + k * req.step))) ∧
      ∃ r, bitmapNextSet? bm n (n + 1) start = some r ∧ NextSet bm start n r :=
  ⟨CreateRequest.map_slotToAddr? hsegs,
    bitmapNextSet?_spec hn hwidth (n + 1) (Nat.succ_pos n) (by omega)⟩

def gappedRequest : CreateRequest where
  segs := [⟨16, 3⟩, ⟨32, 8⟩, ⟨64, 0⟩, ⟨128, 7⟩]
  vlen := 4
  step := 4
  includeZeros := true
  keepFirst := false
  keepPrev := false
  pid := 7
  valueType := .u32
  vlen_pos := fourBytes_pos
  vlen_le := fourBytes_le
  step_pos := fourBytes_pos

theorem slots_exact_gapped :
    (List.range 3).map (slotToAddr? gappedRequest.seg 4 4) = [some 32, some 36, some 128] ∧
      ∃ r, bitmapNextSet? [0, 0, 4] 24 25 3 = some r ∧ NextSet [0, 0, 4] 3 24 r := by
  have h := slots_exact gappedRequest (by decide) [0, 0, 4] 3 24 (by decide) (by decide)
  exact ⟨h.1.trans (by decide), h.2⟩

end MemDbg.FlashScan
