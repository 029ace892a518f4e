import MemDbg.FlashScan.StreamExact
import MemDbg.Lib.Span

/-!
# The chunks of a streamed range

`scan_range_stream` cuts a range into chunks.  On the vector path, what it reports is
what the chunks report, and that depends on the chunk through the values the build
compares and the bytes the read delivers.
-/

namespace MemDbg.FlashScan

open List Lib Scan

/-! ## Cuts -/

def chunkCut (chunkSize : Nat) : Nat → Nat → Nat → List (Nat × Nat)
  | 0, _, _ => []
  | fuel + 1, o, stop =>
    if o < stop then
      (o, min (o + chunkSize) stop) :: chunkCut chunkSize fuel (min (o + chunkSize) stop) stop
    else []

def cutRange (chunkSize o stop : Nat) : List (Nat × Nat) := chunkCut chunkSize (stop - o) o stop

section Cut

variable {chunkSize o stop : Nat}

theorem chunkCut_of_ge (h : stop ≤ o) (fuel : Nat) : chunkCut chunkSize fuel o stop = [] := by
  cases fuel with
  | zero => rfl
  | succ fuel => rw [chunkCut, if_neg (by omega)]

theorem cutRange_of_ge (h : stop ≤ o) : cutRange chunkSize o stop = [] := chunkCut_of_ge h _

variable (hchunk : 0 < chunkSize)

include hchunk

theorem chunkCut_fuel {fuel : Nat} (hfuel : stop - o ≤ fuel) :
    chunkCut chunkSize fuel o stop = cutRange chunkSize o stop := by
  induction hn : stop - o using Nat.strongRecOn generalizing fuel o with
  | ind n ih =>
    rcases Nat.lt_or_ge o stop with hlt | hge
    · obtain ⟨fuel, rfl⟩ : ∃ k, fuel = k + 1 := ⟨fuel - 1, by omega⟩
      obtain ⟨m, hm⟩ : ∃ m, stop - o = m + 1 := ⟨stop - o - 1, by omega⟩
      rw [cutRange, hm, chunkCut, chunkCut, if_pos hlt, if_pos hlt]
      congr 1
      rw [ih (stop - min (o + chunkSize) stop) (by omega) (by omega) rfl,
        ih (stop - min (o + chunkSize) stop) (by omega) (by omega) rfl]
    · rw [chunkCut_of_ge hge, cutRange_of_ge hge]

theorem cutRange_of_lt (h : o < stop) :
    cutRange chunkSize o stop =
      (o, min (o + chunkSize) stop) :: cutRange chunkSize (min (o + chunkSize) stop) stop := by
  obtain ⟨m, hm⟩ : ∃ m, stop - o = m + 1 := ⟨stop - o - 1, by omega⟩
  rw [cutRange, hm, chunkCut, if_pos h, chunkCut_fuel hchunk (by omega)]

theorem span_cutRange (h : o ≤ stop) : Span o (cutRange chunkSize o stop) stop := by
  induction hn : stop - o using Nat.strongRecOn generalizing o with
  | ind n ih =>
    rcases h.lt_or_eq with hlt | rfl
    · rw [cutRange_of_lt hchunk hlt]
      exact .cons (by omega) (ih _ (by omega) (Nat.min_le_right _ _) rfl)
    · rw [cutRange_of_ge le_rfl]
      exact .nil _

variable {c : Nat × Nat}

theorem mem_cutRange (hc : c ∈ cutRange chunkSize o stop) :
    ∃ k, c.1 = o + k * chunkSize ∧ c.2 = min (c.1 + chunkSize) stop := by
  induction hn : stop - o using Nat.strongRecOn generalizing o with
  | ind n ih =>
    rcases Nat.lt_or_ge o stop with hlt | hge
    · rw [cutRange_of_lt hchunk hlt] at hc
      rcases mem_cons.mp hc with rfl | hc
      · exact ⟨0, by rw [Nat.zero_mul, Nat.add_zero], rfl⟩
      rcases Nat.lt_or_ge (o + chunkSize) stop with hmore | hend
      · rw [Nat.min_eq_left hmore.le] at hc
        obtain ⟨k, hk, hstop⟩ := ih _ (by omega) hc rfl
        exact ⟨k + 1, by rw [hk, Nat.succ_mul]; omega, hstop⟩
      · rw [Nat.min_eq_right hend, cutRange_of_ge le_rfl] at hc
        cases hc
    · rw [cutRange_of_ge hge] at hc
      cases hc

theorem cutRange_append (k : Nat) (h : o + k * chunkSize ≤ stop) :
    cutRange chunkSize o (o + k * chunkSize) ++ cutRange chunkSize (o + k * chunkSize) stop =
      cutRange chunkSize o stop := by
  induction k generalizing o with
  | zero => rw [Nat.zero_mul, Nat.add_zero, cutRange_of_ge le_rfl, nil_append]
  | succ k ih =>
    rw [Nat.succ_mul, ← Nat.add_assoc, Nat.add_right_comm] at h ⊢
    rw [cutRange_of_lt hchunk (show o < o + chunkSize + k * chunkSize by omega),
      cutRange_of_lt hchunk (show o < stop by omega), Nat.min_eq_left (by omega),
      Nat.min_eq_left (by omega), cons_append, ih h]

end Cut

/-! ## Finds -/

def Compares (build : Option SimdVariant) (vlen : Nat) (c : Nat × Nat) (y : Nat) : Prop :=
  c.1 + buildStart build vlen (c.2 - c.1) ≤ y ∧
    (y - (c.1 + buildStart build vlen (c.2 - c.1))) % vlen = 0 ∧ y + vlen ≤ c.2

instance (build : Option SimdVariant) (vlen : Nat) (c : Nat × Nat) (y : Nat) :
    Decidable (Compares build vlen c y) := inferInstanceAs (Decidable (_ ∧ _ ∧ _))

def chunkValue (env : FsEnv) (req : StartRequest) (vlen : Nat) (c : Nat × Nat) (y : Nat) :
    List UInt8 :=
  ((env.chunkBytes (wrap64 (req.address + c.1)) (c.2 - c.1)).drop (y - c.1)).take vlen

def finds (env : FsEnv) (req : StartRequest) (vlen : Nat) (p : List UInt8) (c : Nat × Nat) :
    List Nat :=
  hits (fun y => decide (Compares env.build vlen c y) && chunkValue env req vlen c y == p) c.1
    (c.2 - c.1)

section Finds

variable {env : FsEnv} {req : StartRequest} {plan : ScanPlan} {p : List UInt8} {vlen : Nat}

theorem mem_finds {y : Nat} (hvl : 0 < vlen) :
    y ∈ finds env req vlen p c ↔
      Compares env.build vlen c y ∧ chunkValue env req vlen c y = p := by
  rw [finds, mem_hits, Bool.and_eq_true, decide_eq_true_iff, beq_iff_eq]
  constructor
  · exact fun h => h.2
  · rintro ⟨⟨hge, hmod, hle⟩, hvalue⟩
    exact ⟨⟨by omega, by omega⟩, ⟨hge, hmod, hle⟩, hvalue⟩

theorem pairwise_finds (c : Nat × Nat) : (finds env req vlen p c).Pairwise (· < ·) :=
  pairwise_hits _ _

theorem finds_bounds {y : Nat} (h : y ∈ finds env req vlen p c) :
    c.1 ≤ y ∧ y < c.2 := by
  obtain ⟨⟨hge, hlt⟩, -⟩ := mem_hits.mp h
  omega

theorem map_occurrencesFrom (hvl : 0 < vlen) (hc : c.1 ≤ c.2) :
    (occurrencesFrom (env.chunkBytes (wrap64 (req.address + c.1)) (c.2 - c.1)) p vlen
        (buildStart env.build vlen (c.2 - c.1))).map (c.1 + ·) = finds env req vlen p c := by
  let q : Nat → Bool := fun x => decide (Compares env.build vlen c (c.1 + x)) &&
    chunkValue env req vlen c (c.1 + x) == p
  have hshift : (hits q 0 (c.2 - c.1)).map (c.1 + ·) = finds env req vlen p c :=
    hits_shift (fun y => decide (Compares env.build vlen c y) && chunkValue env req vlen c y == p)
      c.1 (c.2 - c.1)
  generalize hstart : buildStart env.build vlen (c.2 - c.1) = start
  have hcmp (x : Nat) : Compares env.build vlen c (c.1 + x) ↔
      start ≤ x ∧ (x - start) % vlen = 0 ∧ x + vlen ≤ c.2 - c.1 := by
    rw [Compares, hstart, show c.1 + x - (c.1 + start) = x - start by omega]
    exact and_congr (by omega) (and_congr Iff.rfl (by omega))
  rw [← hshift, occurrencesFrom, length_chunkBytes]
  congr 1
  -- nothing is compared before the start, and nothing where a value has no room
  have hbefore : hits q 0 (c.2 - c.1) = hits q start (c.2 - c.1 - start) := by
    have hskip := hits_skip (p := q) (a := 0) (n := c.2 - c.1) (k := start) fun x _ hx _ => by
      have : ¬ Compares env.build vlen c (c.1 + x) := fun h => by
        have := ((hcmp x).mp h).1
        omega
      simp only [q, decide_eq_false this, Bool.false_and]
    rwa [Nat.zero_add] at hskip
  have hafter : hits q start (c.2 - c.1 - start) = hits q start (c.2 - c.1 + 1 - vlen - start) := by
    rw [show c.2 - c.1 - start = c.2 - c.1 + 1 - vlen - start +
      (c.2 - c.1 - start - (c.2 - c.1 + 1 - vlen - start)) by omega, hits_add,
      hits_eq_nil (a := start + (c.2 - c.1 + 1 - vlen - start)) (fun x hx _ => ?_), append_nil]
    have : ¬ Compares env.build vlen c (c.1 + x) := fun h => by
      have := ((hcmp x).mp h).2.2
      omega
    simp only [q, decide_eq_false this, Bool.false_and]
  rw [hbefore, hafter]
  refine hits_congr fun x hx hx' => ?_
  have hle : x + vlen ≤ c.2 - c.1 := by omega
  simp only [q, chunkValue, Nat.add_sub_cancel_left, occursAt]
  rw [Bool.eq_iff_iff]
  simp only [Bool.and_eq_true, decide_eq_true_iff, beq_iff_eq, hcmp]
  exact and_congr_left' ⟨fun h => ⟨hx, h, hle⟩, fun h => h.2.1⟩

theorem map_chunkOffsets (hplan : plan.Valid) (hsimd : plan.simdOk = true)
    (haddr : req.address < 2 ^ 64) (hc : c.1 ≤ c.2) (hstop : c.2 < 2 ^ 64)
    (hsmall : c.2 - c.1 ≤ 2 ^ 20) (buf : List UInt8) :
    (chunkOffsets env plan p (readChunk env (wrap64 (req.address + c.1)) (c.2 - c.1) buf).1
        (c.2 - c.1)).map
          (fun coff => sub64 (wrap64 (wrap64 (req.address + c.1) + coff)) req.address) =
      (finds env req plan.vlen p c).take simdMaxOffsets := by
  rw [chunkOffsets_simd hplan hsimd, push, nil_append, ← map_occurrencesFrom hplan.vlen_pos hc,
    ← map_take, ← map_take, map_map]
  refine map_congr_left fun x hx => ?_
  obtain ⟨⟨hge, hlt⟩, -⟩ := mem_hits.mp (mem_of_mem_take hx)
  rw [length_chunkBytes] at hlt
  rw [Function.comp_apply, wrap32_of_lt (by omega)]
  unfold sub64 wrap64
  omega

theorem offsetsLoop_eq (hplan : plan.Valid) (hsimd : plan.simdOk = true)
    (haddr : req.address < 2 ^ 64) {fuel o stop : Nat} (buf : List UInt8) (ho : o ≤ stop)
    (hstop : stop < 2 ^ 64) :
    offsetsLoop env req plan p fuel (wrap64 (req.address + o)) (stop - o) buf =
      (chunkCut plan.chunkSize fuel o stop).flatMap fun c =>
        (finds env req plan.vlen p c).take simdMaxOffsets := by
  have hgt := hplan.chunk_gt
  have hle := hplan.chunk_le
  induction fuel generalizing o buf with
  | zero => rfl
  | succ fuel ih =>
    rcases ho.lt_or_eq with hlt | rfl
    · have hadv := chunkAdvance_of_le hplan (hplan.simd_step hsimd).ge
        (show 0 < min (stop - o) plan.chunkSize by omega) (by omega)
      have hcut : min (stop - o) plan.chunkSize = min (o + plan.chunkSize) stop - o := by omega
      have hnext : wrap64 (wrap64 (req.address + o) + (min (o + plan.chunkSize) stop - o)) =
          wrap64 (req.address + min (o + plan.chunkSize) stop) := by
        unfold wrap64
        omega
      rw [offsetsLoop_succ (by omega), hadv, chunkCut, if_pos hlt, flatMap_cons, hcut, hnext,
        show stop - o - (min (o + plan.chunkSize) stop - o) = stop - min
          (o + plan.chunkSize) stop by
          omega, ih _ (Nat.min_le_right _ _)]
      congr 1
      exact map_chunkOffsets hplan hsimd haddr (c := (o, min (o + plan.chunkSize) stop))
        (by dsimp only; omega) (by dsimp only; omega) (by dsimp only; omega) buf
    · rw [Nat.sub_self, offsetsLoop_zero, chunkCut_of_ge le_rfl, flatMap_nil]

end Finds

end MemDbg.FlashScan
