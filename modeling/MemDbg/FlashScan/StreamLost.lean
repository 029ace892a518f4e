import MemDbg.FlashScan.StreamExact

/-!
# Streamed scans that are not exact

The converse of the exactness of `scan_range_stream`: for every request outside
the condition there are a memory and a pattern for which the scan invents, shifts
or drops a value.  Most of these memories are zero except for one byte, so that a
pattern that contains it can occur in one place only.
-/

namespace MemDbg.FlashScan

open List Lib Scan

def FsEnv.withMem (env : FsEnv) (mem : Nat → UInt8) : FsEnv :=
  env.withMemory mem fun _ _ => none

def spot (a x : Nat) : UInt8 := if x = a then 1 else 0

section Lost

variable {env : FsEnv} {req : StartRequest} {plan : ScanPlan}

/-! ## Too short a chunk -/

def EndsShort (plan : ScanPlan) (remaining : Nat) : Prop :=
  plan.step < plan.vlen ∨
    remaining % plan.chunkSize ≠ 0 ∧ remaining % plan.chunkSize < plan.vlen

theorem EndsShort.next (hplan : plan.Valid) {remaining : Nat} (h : EndsShort plan remaining)
    (hlen : plan.vlen ≤ remaining) :
    let advance := chunkAdvance plan (min remaining plan.chunkSize)
    0 < advance ∧ advance < remaining ∧ EndsShort plan (remaining - advance) := by
  have hgt := hplan.chunk_gt
  have hle := hplan.chunk_le
  have hvl16 := hplan.vlen_le
  have hpos := hplan.step_pos
  by_cases hstep : plan.step < plan.vlen
  · dsimp only
    rw [chunkAdvance_of_lt hplan hstep (by omega) (by omega)]
    exact ⟨by omega, by omega, .inl hstep⟩
  · -- a range that ends short and has room for a value is longer than a chunk
    obtain ⟨hne, hlt⟩ := h.resolve_left hstep
    have hmore : plan.chunkSize < remaining := by
      by_contra hle'
      rcases (not_lt.mp hle').lt_or_eq with hlt' | heq
      · rw [Nat.mod_eq_of_lt hlt'] at hlt
        omega
      · rw [heq, Nat.mod_self] at hne
        exact hne rfl
    rw [Nat.min_eq_right hmore.le, chunkAdvance_of_le hplan (by omega) (by omega) (by omega)]
    refine ⟨by omega, hmore, .inr ?_⟩
    rw [← Nat.mod_eq_sub_mod hmore.le]
    exact ⟨hne, hlt⟩

end Lost

/-! ## Requests outside the condition -/

section Request

variable {env : FsEnv} {req : StartRequest} {mask : Ptr} (hexact : req.compareType = 0)
  (hplan : (scanPlan env req mask).Valid) (hfit : req.address + req.length ≤ 2 ^ 64)

include hexact hplan

theorem startExact_iff_offsets :
    StartExact env req mask ↔ ∀ mem aliasTail p buf, p.length = (scanPlan env req mask).vlen →
      buf.length = (scanPlan env req mask).chunkSize →
      (offsetsLoop (env.withMemory mem aliasTail) req (scanPlan env req mask) p
          req.length req.address req.length buf).map wrap32 =
        rangeHits mem req.address req.length (scanPlan env req mask).step
          (scanPlan env req mask).vlen p := by
  have hchunk := hplan.chunk_le
  refine forall₄_congr fun mem aliasTail p buf => forall₂_congr fun hp hbuf => ?_
  obtain ⟨packets, hrun, hdecode⟩ := scanRangeStream_decoded
    (env.withMemory mem aliasTail) hplan.vlen_pos hp (by omega) hexact
    mask req.address req.length buf
  have hinj : Function.Injective fun x => (req.address + x, p) := by
    intro x y hxy
    have := (Prod.mk.inj hxy).1
    omega
  constructor
  · rintro ⟨packets', hrun', hdecode'⟩
    obtain rfl : packets = packets' := by
      simpa [hrun] using hrun'
    rw [hdecode] at hdecode'
    refine map_injective_iff.mpr hinj ?_
    rw [← hdecode', map_map]
    rfl
  · intro hoff
    refine ⟨packets, hrun, ?_⟩
    rw [hdecode, ← hoff, map_map]
    rfl

theorem StartExact.offsets (h : StartExact env req mask) (mem : Nat → UInt8) {p : List UInt8}
    (hp : p.length = (scanPlan env req mask).vlen) :
    (offsetsLoop (env.withMem mem) req (scanPlan env req mask) p req.length req.address req.length
        (List.replicate (scanPlan env req mask).chunkSize 0)).map wrap32 =
      rangeHits mem req.address req.length (scanPlan env req mask).step
        (scanPlan env req mask).vlen p :=
  (startExact_iff_offsets hexact hplan).mp h mem (fun _ _ => none) p _ hp length_replicate

include hfit

end Request

def calmEnv (build : Option SimdVariant) : FsEnv where
  mem _ := 0
  copied _ n := n
  aliasTail _ _ := none
  build := build
  alloc _ := true
  cancelled _ := false
  pread _ _ := true
  pwrite _ n := n
  workerBuffers _ := true
  fresh _ := []

end MemDbg.FlashScan
