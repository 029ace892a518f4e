import MemDbg.FlashScan.Workers
import MemDbg.FlashScan.Target
import MemDbg.FlashScan.StreamLost
import Mathlib.Data.List.Perm.Subperm

/-!
# When a parallel stream is the serial one

Workers cut the range at other places than the serial scan.  A chunk reports at most
8192 values, some builds compare the end of a chunk only, and a read fails chunk by
chunk; so a cut shows in the stream unless the spans of the workers are whole chunks,
or no chunk is crowded and every value is compared in a chunk on the same pages.
-/

namespace MemDbg.FlashScan

open List Lib Scan

/-! ## The two streams -/

theorem length_le_length_flatMap {α β : Type*} {l : List α} {a : α} (h : a ∈ l)
    (f : α → List β) : (f a).length ≤ (l.flatMap f).length := by
  rw [flatMap_def]
  exact (sublist_flatten_of_mem (mem_map_of_mem (f := f) h)).length_le

section Streams

variable {env : FsEnv} {req : StartRequest} {plan : ScanPlan} {p : List UInt8} {mask : Ptr}

theorem parallelStart_congr {env' : FsEnv} (h : env'.alloc = env.alloc) (req : StartRequest)
    (plan : ScanPlan) :
    parallelStart env' req plan = parallelStart env req plan := by
  unfold parallelStart
  rw [h]

theorem parallelStart_eq_some {spans : List (Nat × Nat)}
    (h : parallelStart env req plan = some spans) :
    plan.simdOk = true ∧ parallelSpans req plan.vlen = some spans := by
  rw [parallelStart] at h
  split_ifs at h with hskip halloc
  simp only [Bool.or_eq_true, Bool.not_eq_true', decide_eq_true_eq, not_or] at hskip
  exact ⟨by simpa using hskip.1.2, h⟩

theorem reported_parallelCut (env : FsEnv) (req : StartRequest) (vlen : Nat) (p : List UInt8)
    (chunkSize span length : Nat) :
    reported env req vlen p (parallelCut chunkSize span length) =
      (workerRanges span length).flatMap fun r =>
        reported env req vlen p (cutRange chunkSize r.1 r.2) :=
  flatMap_assoc

variable (hplan : plan.Valid) (hp : p.length = plan.vlen) (hexact : req.compareType = 0)
  (haddr : req.address < 2 ^ 64) (hlength : req.length < 2 ^ 64)

include hplan hp hexact haddr hlength

theorem flashscanParallelStream_of_start (mask : Ptr)
    (hstart : (parallelStart env req plan).isSome = true) :
    let offs := reported env req plan.vlen p
      (parallelCut plan.chunkSize (parallelSpan req.length plan.vlen) req.length)
    ((∃ sent, flashscanParallelStream env req plan (some p) mask none = some (true, sent) ∧
        env.alloc .parallelOutput = true ∧ sent.flatten = encodeAll p offs) ∨
      flashscanParallelStream env req plan (some p) mask none = some (false, []) ∧
        (env.alloc .parallelOutput = true → 8 * 2 ^ 20 < offs.length * (8 + plan.vlen))) := by
  obtain ⟨spans, hspans⟩ := Option.isSome_iff_exists.mp hstart
  obtain ⟨hsimd, hparallel⟩ := parallelStart_eq_some hspans
  obtain ⟨hfits, rfl⟩ := parallelSpans_eq_some hplan.vlen_pos hplan.vlen_le hlength hparallel
  have hsame : { plan with simdOk := true } = plan := by
    rw [← hsimd]
  have hranges : ∀ r ∈ workerRanges (parallelSpan req.length plan.vlen) req.length,
      r.1 ≤ r.2 ∧ r.2 < 2 ^ 64 := by
    intro r hr
    have hspan := span_workerRanges req.length hfits.pos
    exact ⟨(hspan.lt_of_mem hr).le, (hspan.bounds_of_mem hr).2.trans_lt hlength⟩
  obtain ⟨results, hresults, hall⟩ := parallelResults_stored env hplan hsimd hp hexact haddr
    mask hranges 1
  obtain ⟨hrecords, hsome⟩ := collectRecords_stored rfl hall
  rw [flashscanParallelStream, hspans]
  dsimp only
  rw [hsame, hresults, Option.map_some, reported_parallelCut]
  cases hcollect : collectRecords results with
  | none =>
    refine .inr ⟨by rw [parallelSend, hcollect], fun _ => ?_⟩
    by_contra hfit
    have hcap := hsome fun r hr => by
      refine le_trans (Nat.mul_le_mul_right _ ?_) (not_lt.mp hfit)
      exact length_le_length_flatMap hr fun r =>
        reported env req plan.vlen p (cutRange plan.chunkSize r.1 r.2)
    rw [hcollect] at hcap
    cases hcap
  | some records =>
    cases halloc : env.alloc .parallelOutput with
    | false =>
      refine .inr ⟨?_, fun h => by cases h⟩
      rw [parallelSend, hcollect]
      dsimp only
      rw [if_pos halloc]
    | true =>
      obtain ⟨sent, hsend, hflat⟩ := parallelSend_records hcollect (hrecords _ hcollect) halloc
        plan.vlen
      exact .inl ⟨sent, by rw [hsend], rfl, hflat⟩

end Streams

/-! ## Targets -/

def Touches (mode : FaultMode) (page address : Nat) (c : Nat × Nat) (z g : Nat) : Prop :=
  ∃ j, j < mode.needs (c.2 - c.1) (z - c.1) ∧ wrap64 (address + c.1 + j) / page = g

instance (mode : FaultMode) (page address : Nat) (c : Nat × Nat) (z g : Nat) :
    Decidable (Touches mode page address c z g) :=
  inferInstanceAs (Decidable (∃ j, j < mode.needs (c.2 - c.1) (z - c.1) ∧ _))

section Target

variable {page : Nat} {t : Target page} {mode : FaultMode} {env : FsEnv} {req : StartRequest}
  {p : List UInt8} {vlen : Nat}

variable {c : Nat × Nat}

theorem copies_iff {z : Nat} :
    t.Copies mode (wrap64 (req.address + c.1)) (c.2 - c.1) (z - c.1) ↔
      ∀ x, Touches mode page req.address c z (x / page) → t.readable x = true := by
  have hwrap (j : Nat) :
    wrap64 (wrap64 (req.address + c.1) + j) = wrap64 (req.address + c.1 + j) := by
    unfold wrap64
    omega
  constructor
  · rintro h x ⟨j, hj, hx⟩
    rw [← t.paged _ _ hx, ← hwrap]
    exact h j hj
  · intro h j hj
    rw [hwrap]
    exact h _ ⟨j, hj, rfl⟩

theorem chunkValue_eq_iff (h : env.Sees mode t) (hp : p.length = vlen) {y : Nat}
    (hy : c.1 ≤ y) (hfit : y + vlen ≤ c.2) :
    chunkValue env req vlen c y = p ↔ ∀ k, k < vlen →
      t.byte mode (wrap64 (req.address + c.1)) (c.2 - c.1) (y + k - c.1) = p.getD k 0 := by
  have hlen : (chunkValue env req vlen c y).length = vlen := by
    rw [chunkValue, length_take, length_drop, length_chunkBytes]
    omega
  have hget {k : Nat} (hk : k < vlen) : (chunkValue env req vlen c y).getD k 0 =
      t.byte mode (wrap64 (req.address + c.1)) (c.2 - c.1) (y + k - c.1) := by
    rw [← getD_read (show y + k - c.1 < c.2 - c.1 by omega), chunkValue, h.chunkBytes,
      getD_eq_getElem?_getD, getD_eq_getElem?_getD, getElem?_take, if_pos hk,
      getElem?_drop, show y - c.1 + k = y + k - c.1 by omega]
  constructor
  · rintro rfl k hk
    rw [hget hk]
  · intro hbytes
    refine ext_getElem (hlen.trans hp.symm) fun k hk hk' => ?_
    have := hbytes k (hk.trans_eq hlen)
    rw [← hget (hk.trans_eq hlen), getD_eq_getElem _ _ hk, getD_eq_getElem _ _ hk'] at this
    exact this

theorem byte_eq {z : Nat} (hz : c.1 ≤ z) :
    t.byte mode (wrap64 (req.address + c.1)) (c.2 - c.1) (z - c.1) =
      if t.Copies mode (wrap64 (req.address + c.1)) (c.2 - c.1) (z - c.1) then
        t.mem (wrap64 (req.address + z)) else 0 := by
  rw [Target.byte,
    show wrap64 (wrap64 (req.address + c.1) + (z - c.1)) = wrap64 (req.address + z) by
    unfold wrap64
    omega]

theorem finds_congr {env' : FsEnv} (h : env.Sees mode t) (h' : env'.Sees mode t)
    (hbuild : env'.build = env.build) : finds env' req vlen p = finds env req vlen p := by
  funext c
  unfold finds chunkValue
  rw [h.chunkBytes, h'.chunkBytes, hbuild]

/-! ### Agreement -/

def CutsAgree (build : Option SimdVariant) (vlen : Nat) (mode : FaultMode) (page address : Nat)
    (cut cut' : List (Nat × Nat)) : Prop :=
  ∀ c ∈ cut, ∀ c' ∈ cut', ∀ y, c.1 ≤ y → y < c.2 → c'.1 ≤ y → y < c'.2 →
    (Compares build vlen c y ↔ Compares build vlen c' y) ∧
      (Compares build vlen c y → ∀ k, k < vlen → ∀ g,
        Touches mode page address c (y + k) g ↔ Touches mode page address c' (y + k) g)

theorem CutsAgree.flatMap_finds {cut cut' : List (Nat × Nat)} {n : Nat}
    (h : CutsAgree env.build vlen mode page req.address cut cut') (hcut : Span 0 cut n)
    (hcut' : Span 0 cut' n) (hsees : env.Sees mode t) (hp : p.length = vlen) :
    cut.flatMap (finds env req vlen p) = cut'.flatMap (finds env req vlen p) := by
  refine hcut.flatMap_hits_congr hcut' fun c hc c' hc' y hcy hyc hcy' hyc' => ?_
  obtain ⟨hcmp, hpages⟩ := h c hc c' hc' y hcy hyc hcy' hyc'
  rw [Bool.eq_iff_iff]
  simp only [Bool.and_eq_true, decide_eq_true_iff, beq_iff_eq]
  rw [← hcmp]
  refine and_congr_right fun hy => ?_
  have hfit := hy.2.2
  have hfit' := (hcmp.mp hy).2.2
  rw [chunkValue_eq_iff hsees hp hcy hfit, chunkValue_eq_iff hsees hp hcy' hfit']
  refine forall₂_congr fun k hk => ?_
  have hcopies : t.Copies mode (wrap64 (req.address + c.1)) (c.2 - c.1) (y + k - c.1) ↔
      t.Copies mode (wrap64 (req.address + c'.1)) (c'.2 - c'.1) (y + k - c'.1) := by
    rw [copies_iff, copies_iff]
    exact forall_congr' fun x => imp_congr_left (hpages hy k hk _)
  rw [byte_eq (show c.1 ≤ y + k by omega), byte_eq (show c'.1 ≤ y + k by omega)]
  simp only [hcopies]

/-! ### Room for the hits of a chunk -/

theorem length_finds_le (hvl : 0 < vlen) (c : Nat × Nat) :
    (finds env req vlen p c).length ≤
      (c.2 - c.1 - buildStart env.build vlen (c.2 - c.1)) / vlen := by
  generalize hstart : buildStart env.build vlen (c.2 - c.1) = start
  have hfound : ∀ y ∈ finds env req vlen p c,
      c.1 + start ≤ y ∧ (y - (c.1 + start)) % vlen = 0 ∧ y + vlen ≤ c.2 := by
    intro y hy
    have := ((mem_finds hvl).mp hy).1
    rwa [Compares, hstart] at this
  have hindex : ((finds env req vlen p c).map fun y => (y - (c.1 + start)) / vlen).Nodup := by
    refine List.Nodup.map_on ?_ ((pairwise_finds c).imp Nat.ne_of_lt)
    intro x hx y hy hxy
    obtain ⟨hx₁, hx₂, -⟩ := hfound x hx
    obtain ⟨hy₁, hy₂, -⟩ := hfound y hy
    have hdivx := Nat.div_add_mod (x - (c.1 + start)) vlen
    have hdivy := Nat.div_add_mod (y - (c.1 + start)) vlen
    rw [hxy] at hdivx
    omega
  have hrange : ((finds env req vlen p c).map fun y => (y - (c.1 + start)) / vlen) ⊆
      List.range ((c.2 - c.1 - start) / vlen) := by
    intro i hi
    obtain ⟨y, hy, rfl⟩ := mem_map.mp hi
    obtain ⟨hy₁, -, hy₃⟩ := hfound y hy
    rw [mem_range, Nat.lt_iff_add_one_le, Nat.le_div_iff_mul_le hvl, Nat.succ_mul]
    have := Nat.div_mul_le_self (y - (c.1 + start)) vlen
    omega
  have := (subperm_of_subset hindex hrange).length_le
  rwa [length_map, length_range] at this

theorem compared_le {build : Option SimdVariant} {n m : Nat} (hnm : n ≤ m)
    (h : (m - buildStart build vlen m) / vlen ≤ simdMaxOffsets) :
    (n - buildStart build vlen n) / vlen ≤ simdMaxOffsets := by
  cases build with
  | none => exact (Nat.div_le_div_right (Nat.sub_le_sub_right hnm 0)).trans h
  | some v =>
    have hwidth : v.width ≤ 64 := by
      cases v <;> decide
    simp only [buildStart, simdStart] at h ⊢
    split_ifs at h ⊢ with hlanes
    · exact (Nat.div_le_div_right (Nat.sub_le_sub_right hnm 0)).trans h
    · have hrest : n - v.width * (n / v.width) ≤ 64 := by
        have := Nat.mod_lt n (show 0 < v.width by have := width_pos v; omega)
        rw [Nat.mod_eq_sub_mul_div] at this
        omega
      exact (Nat.div_le_self _ _).trans (hrest.trans (by decide))

end Target

/-! ## Faithful requests -/

/-- For every target, every content of the buffers, every pattern and every order in
which the workers run, `flashscan_parallel_stream` sends the bytes the serial scan
would send, or nothing if it does not handle the request.  The two need not map the
same chunks. -/
def ParallelFaithful (env : FsEnv) (mode : FaultMode) (page : Nat) (req : StartRequest)
    (mask : Ptr) : Prop :=
  ∀ (t : Target page) (serial parallel : FsEnv), serial.Sees mode t → parallel.Sees mode t →
    serial.build = env.build → parallel.build = env.build → parallel.alloc = env.alloc →
    ∀ p, p.length = (scanPlan env req mask).vlen → ∀ schedule handled sent,
      flashscanParallelTurns parallel req (scanPlan env req mask) (some p) mask none schedule =
          some (handled, sent) →
        if handled then
          ∃ packets, scanRangeStream serial req (scanPlan env req mask) (some p) mask none
              req.address req.length (serial.fresh 0) (.stream [] []) =
                some (.ok (.stream packets [])) ∧
            sent.flatten = packets.flatten
        else sent = []

/-- The condition: no workers are started or their output has no buffer, the spans are
whole chunks, or no chunk is crowded and the cuts agree. -/
def ParallelOk (env : FsEnv) (mode : FaultMode) (page : Nat) (req : StartRequest)
    (plan : ScanPlan) : Prop :=
  (parallelStart env req plan).isSome = true → env.alloc .parallelOutput = true →
    plan.chunkSize ∣ parallelSpan req.length plan.vlen ∨
      (min plan.chunkSize req.length -
          buildStart env.build plan.vlen (min plan.chunkSize req.length)) / plan.vlen ≤
        simdMaxOffsets ∧
      CutsAgree env.build plan.vlen mode page req.address (cutRange plan.chunkSize 0 req.length)
        (parallelCut plan.chunkSize (parallelSpan req.length plan.vlen) req.length)

section Request

variable {env : FsEnv} {mode : FaultMode} {page : Nat} {req : StartRequest} {plan : ScanPlan}
  {mask : Ptr} {p : List UInt8}

theorem reported_eq_flatMap {vlen : Nat} {cut : List (Nat × Nat)}
    (h : ∀ c ∈ cut, (finds env req vlen p c).length ≤ simdMaxOffsets) :
    reported env req vlen p cut = cut.flatMap (finds env req vlen p) :=
  flatMap_congr fun c hc => take_of_length_le (h c hc)

theorem length_of_mem_cutRange (hchunk : 0 < plan.chunkSize) {o stop : Nat}
    (hc : c ∈ cutRange plan.chunkSize o stop) : c.2 - c.1 ≤ plan.chunkSize := by
  obtain ⟨k, -, hstop⟩ := mem_cutRange hchunk hc
  omega

theorem mem_parallelCut {chunkSize span length : Nat} (hc : c ∈ parallelCut chunkSize span length) :
    ∃ i, c ∈ cutRange chunkSize (i * span) (min (i * span + span) length) := by
  obtain ⟨r, hr, hc⟩ := mem_flatMap.mp hc
  obtain ⟨i, -, rfl⟩ := mem_map.mp hr
  exact ⟨i, hc⟩

theorem pairwise_reported {vlen n : Nat} {cut : List (Nat × Nat)} (hcut : Span 0 cut n) :
    (reported env req vlen p cut).Pairwise (· < ·) :=
  hcut.pairwise_flatMap fun c _ => ⟨(pairwise_finds c).sublist (take_sublist _ _),
    fun _ hy => finds_bounds (mem_of_mem_take hy)⟩

theorem length_reported_le {vlen n : Nat} {cut : List (Nat × Nat)} (hcut : Span 0 cut n)
    {offs : List Nat} (h : reported env req vlen p cut ⊆ offs) :
    (reported env req vlen p cut).length ≤ offs.length :=
  (List.Nodup.subperm ((pairwise_reported hcut).imp Nat.ne_of_lt) h).length_le

theorem reported_eq_of_ok {t : Target page} {serial parallel : FsEnv} (hplan : plan.Valid)
    (hserial : serial.Sees mode t) (hparallel : parallel.Sees mode t)
    (hbuild : serial.build = env.build) (hbuild' : parallel.build = env.build)
    (hp : p.length = plan.vlen) (hpos : 0 < parallelSpan req.length plan.vlen)
    (hok : plan.chunkSize ∣ parallelSpan req.length plan.vlen ∨
      (min plan.chunkSize req.length -
          buildStart env.build plan.vlen (min plan.chunkSize req.length)) / plan.vlen ≤
        simdMaxOffsets ∧
      CutsAgree env.build plan.vlen mode page req.address (cutRange plan.chunkSize 0 req.length)
        (parallelCut plan.chunkSize (parallelSpan req.length plan.vlen) req.length)) :
    reported parallel req plan.vlen p
        (parallelCut plan.chunkSize (parallelSpan req.length plan.vlen) req.length) =
      reported serial req plan.vlen p (cutRange plan.chunkSize 0 req.length) := by
  have hchunk : 0 < plan.chunkSize := by
    have := hplan.chunk_gt
    omega
  have hsame : finds parallel req plan.vlen p = finds serial req plan.vlen p :=
    finds_congr hserial hparallel (hbuild'.trans hbuild.symm)
  have hreported (cut : List (Nat × Nat)) :
      reported parallel req plan.vlen p cut = reported serial req plan.vlen p cut := by
    unfold reported
    rw [hsame]
  rw [hreported]
  rcases hok with hdvd | ⟨hroom, hagree⟩
  · rw [parallelCut_of_dvd hchunk hpos hdvd]
  · have hspan := span_cutRange hchunk (Nat.zero_le req.length)
    have hspan' := span_parallelCut req.length hchunk hpos
    have hfew {c : Nat × Nat} (hlen : c.2 - c.1 ≤ plan.chunkSize) (hstop : c.2 ≤ req.length) :
        (finds serial req plan.vlen p c).length ≤ simdMaxOffsets := by
      refine (length_finds_le hplan.vlen_pos c).trans ?_
      rw [hbuild]
      exact compared_le (by omega) hroom
    rw [reported_eq_flatMap, reported_eq_flatMap]
    · rw [← hbuild] at hagree
      exact (hagree.flatMap_finds hspan hspan' hserial hp).symm
    · intro c hc
      exact hfew (length_of_mem_cutRange hchunk hc) (hspan.bounds_of_mem hc).2
    · intro c hc
      obtain ⟨i, hi⟩ := mem_parallelCut hc
      exact hfew (length_of_mem_cutRange hchunk hi) (hspan'.bounds_of_mem hc).2

variable (hexact : req.compareType = 0) (hplan : (scanPlan env req mask).Valid)
  (haddr : req.address < 2 ^ 64) (hlength : req.length < 2 ^ 64)

include hexact hplan haddr hlength

theorem parallelFaithful_of_ok (hok : ParallelOk env mode page req (scanPlan env req mask)) :
    ParallelFaithful env mode page req mask := by
  intro t serial parallel hserial hparallel hbuild hbuild' halloc p hp schedule handled sent hturns
  have hchunk : 0 < (scanPlan env req mask).chunkSize := by
    have := hplan.chunk_gt
    omega
  have hrun := flashscanParallelTurns_eq hchunk hturns
  have hstart := parallelStart_congr halloc req (scanPlan env req mask)
  cases hspans : parallelStart parallel req (scanPlan env req mask) with
  | none =>
    rw [flashscanParallelStream, hspans] at hrun
    cases hrun
    rfl
  | some spans =>
    obtain ⟨hsimd, hranges⟩ := parallelStart_eq_some hspans
    obtain ⟨hfits, -⟩ := parallelSpans_eq_some hplan.vlen_pos hplan.vlen_le hlength hranges
    rcases flashscanParallelStream_of_start hplan hp hexact haddr hlength mask
      (Option.isSome_iff_exists.mpr ⟨spans, hspans⟩) with ⟨sent', hsent, hout, hflat⟩ | ⟨hnone, -⟩
    · rw [hsent] at hrun
      cases hrun
      obtain ⟨packets, hserve, hpackets⟩ := scanRangeStream_reported serial hplan hsimd hp
        hexact haddr hlength mask (serial.fresh 0)
      refine ⟨packets, hserve, ?_⟩
      rw [hflat, hpackets, reported_eq_of_ok hplan hserial hparallel hbuild hbuild' hp hfits.pos]
      exact hok (by rw [← hstart, hspans]; rfl) (by rwa [← halloc])
    · rw [hnone] at hrun
      cases hrun
      rfl

theorem not_faithful_of_length (t : Target page) (hp : p.length = (scanPlan env req mask).vlen)
    (hstart : (parallelStart env req (scanPlan env req mask)).isSome = true)
    (halloc : env.alloc .parallelOutput = true)
    (hfit : (reported (env.facing mode t) req (scanPlan env req mask).vlen p
      (parallelCut (scanPlan env req mask).chunkSize
        (parallelSpan req.length (scanPlan env req mask).vlen) req.length)).length ≤ 8193)
    (hne : (reported (env.facing mode t) req (scanPlan env req mask).vlen p
        (parallelCut (scanPlan env req mask).chunkSize
          (parallelSpan req.length (scanPlan env req mask).vlen) req.length)).length ≠
      (reported (env.facing mode t) req (scanPlan env req mask).vlen p
        (cutRange (scanPlan env req mask).chunkSize 0 req.length)).length) :
    ¬ ParallelFaithful env mode page req mask := by
  intro h
  have hchunk : 0 < (scanPlan env req mask).chunkSize := by
    have := hplan.chunk_gt
    omega
  obtain ⟨spans, hspans⟩ := Option.isSome_iff_exists.mp hstart
  obtain ⟨hsimd, -⟩ := parallelStart_eq_some hspans
  obtain ⟨schedule, hschedule⟩ := exists_flashscanParallelTurns (env.facing mode t) req
    hchunk (some p) mask none
  have hfacing : (parallelStart (env.facing mode t) req (scanPlan env req mask)).isSome = true :=
    hstart
  rcases flashscanParallelStream_of_start hplan hp hexact haddr hlength mask hfacing with
    ⟨sent, hsent, -, hflat⟩ | ⟨-, hroom⟩
  · obtain ⟨packets, hserve, hsame⟩ := h t _ _ (sees_facing env mode t) (sees_facing env mode t) rfl
      rfl rfl p hp schedule true sent (hschedule.trans hsent)
    obtain ⟨packets', hserve', hpackets⟩ := scanRangeStream_reported (env.facing mode t) hplan
      hsimd hp hexact haddr hlength mask ((env.facing mode t).fresh 0)
    rw [hserve] at hserve'
    cases hserve'
    have hlens := congrArg List.length ((hflat.symm.trans hsame).trans hpackets)
    rw [length_encodeAll, length_encodeAll] at hlens
    exact hne (Nat.eq_of_mul_eq_mul_right (by omega) hlens)
  · have hvl16 := hplan.vlen_le
    have := hroom halloc
    have := Nat.mul_le_mul hfit (show 8 + (scanPlan env req mask).vlen ≤ 24 by omega)
    omega

end Request

/-! ## One value on few pages -/

def spotTarget (mode : FaultMode) (page address : Nat) (c : Nat × Nat) (z : Nat) : Target page where
  mem := spot (wrap64 (address + z))
  readable x := decide (Touches mode page address c z (x / page))
  paged x y h := by rw [h]

def spotPattern (vlen k : Nat) : List UInt8 := (List.range vlen).map fun i => if i = k then 1 else 0

section Spot

variable {env : FsEnv} {mode : FaultMode} {page : Nat} {req : StartRequest} {vlen n y k : Nat}
  {c d : Nat × Nat} {cut cut' : List (Nat × Nat)}

theorem getD_spotPattern {i : Nat} (hi : i < vlen) :
    (spotPattern vlen k).getD i 0 = if i = k then 1 else 0 := by
  rw [getD_eq_getElem _ _ (by simpa [spotPattern] using hi)]
  simp [spotPattern]

theorem length_spotPattern (vlen k : Nat) : (spotPattern vlen k).length = vlen := by
  simp [spotPattern]

theorem mem_finds_spot (mode : FaultMode) (page : Nat) (req : StartRequest) (hk : k < vlen)
    (hn : c.2 ≤ n) (hn64 : n < 2 ^ 64) (hcmp : Compares env.build vlen c y) :
    y ∈ finds (env.facing mode (spotTarget mode page req.address c (y + k))) req vlen
      (spotPattern vlen k) c := by
  have hsees := sees_facing env mode (spotTarget mode page req.address c (y + k))
  have hy := hcmp.1
  have hfit := hcmp.2.2
  refine (mem_finds (by omega)).mpr ⟨hcmp, ?_⟩
  rw [chunkValue_eq_iff hsees (length_spotPattern _ _) (by omega) hfit]
  intro i hi
  rw [byte_eq (show c.1 ≤ y + i by omega), getD_spotPattern hi]
  by_cases hik : i = k
  · subst hik
    rw [if_pos rfl, if_pos]
    · exact if_pos rfl
    · rw [copies_iff]
      exact fun x hx => decide_eq_true hx
  · have hzero : (spotTarget mode page req.address c (y + k)).mem (wrap64 (req.address + (y + i))) =
        0 := by
      refine if_neg ?_
      unfold wrap64
      omega
    rw [hzero, ite_self, if_neg hik]

theorem finds_spot (hk : k < vlen) (hd : d.2 ≤ n) (hn64 : n < 2 ^ 64) (hz : y + k < 2 ^ 64)
    {x : Nat}
    (hx : x ∈ finds (env.facing mode (spotTarget mode page req.address c (y + k))) req vlen
      (spotPattern vlen k) d) :
    x = y ∧ Compares env.build vlen d y ∧ ∀ g, Touches mode page req.address d (y + k) g →
      Touches mode page req.address c (y + k) g := by
  have hsees := sees_facing env mode (spotTarget mode page req.address c (y + k))
  obtain ⟨hcmp, hvalue⟩ := (mem_finds (by omega)).mp hx
  have hge := hcmp.1
  have hfit := hcmp.2.2
  rw [chunkValue_eq_iff hsees (length_spotPattern _ _) (by omega) hfit] at hvalue
  have hbyte := hvalue k hk
  rw [byte_eq (show d.1 ≤ x + k by omega), getD_spotPattern hk, if_pos rfl] at hbyte
  have hcopies : (spotTarget mode page req.address c (y + k)).Copies mode
      (wrap64 (req.address + d.1)) (d.2 - d.1) (x + k - d.1) := by
    by_contra hnot
    rw [if_neg hnot] at hbyte
    exact absurd hbyte (by decide)
  rw [if_pos hcopies] at hbyte
  have hxy : x = y := by
    by_contra hne
    have hzero : (spotTarget mode page req.address c (y + k)).mem (wrap64 (req.address + (x + k))) =
        0 := by
      refine if_neg ?_
      unfold wrap64
      omega
    rw [hzero] at hbyte
    exact absurd hbyte (by decide)
  subst hxy
  refine ⟨rfl, hcmp, fun g hg => ?_⟩
  obtain ⟨j, hj, rfl⟩ := hg
  exact of_decide_eq_true (copies_iff.mp hcopies _ ⟨j, hj, rfl⟩)

theorem length_reported_spot_le (hk : k < vlen) (hn64 : n < 2 ^ 64) (hz : y + k < 2 ^ 64)
    (hcut : Span 0 cut n) :
    (reported (env.facing mode (spotTarget mode page req.address c (y + k))) req vlen
      (spotPattern vlen k) cut).length ≤ 1 := by
  have hsub : reported (env.facing mode (spotTarget mode page req.address c (y + k))) req vlen
      (spotPattern vlen k) cut ⊆ [y] := by
    intro x hx
    obtain ⟨d, hd, hx⟩ := mem_flatMap.mp hx
    exact mem_singleton.mpr
      (finds_spot hk (hcut.bounds_of_mem hd).2 hn64 hz (mem_of_mem_take hx)).1
  exact length_reported_le hcut hsub

theorem reported_spot (mode : FaultMode) (page : Nat) (req : StartRequest) (hk : k < vlen)
    (hn64 : n < 2 ^ 64) (hcut : Span 0 cut n)
    (hcut' : Span 0 cut' n) (hc : c ∈ cut) (hd : d ∈ cut') (hyd : d.1 ≤ y) (hdy : y < d.2)
    (hcmp : Compares env.build vlen c y)
    (hother : ¬ Compares env.build vlen d y ∨ ∃ g, Touches mode page req.address d (y + k) g ∧
      ¬ Touches mode page req.address c (y + k) g) :
    reported (env.facing mode (spotTarget mode page req.address c (y + k))) req vlen
        (spotPattern vlen k) cut ≠ [] ∧
      reported (env.facing mode (spotTarget mode page req.address c (y + k))) req vlen
        (spotPattern vlen k) cut' = [] := by
  have hbounds := (hcut.bounds_of_mem hc).2
  have hz : y + k < 2 ^ 64 := by
    have := hcmp.2.2
    omega
  constructor
  · intro hnil
    have hfound := mem_finds_spot mode page req hk hbounds hn64 hcmp
    have hchunk := flatMap_eq_nil_iff.mp hnil c hc
    rw [take_eq_nil_iff] at hchunk
    rcases hchunk with hzero | hnone
    · exact absurd hzero (by decide)
    · rw [hnone] at hfound
      cases hfound
  · refine flatMap_eq_nil_iff.mpr fun e he => ?_
    rw [eq_nil_iff_forall_not_mem]
    intro x hx
    have hx := mem_of_mem_take hx
    obtain ⟨rfl, hcmp', hpages⟩ := finds_spot hk (hcut'.bounds_of_mem he).2 hn64 hz hx
    have hbounds := finds_bounds hx
    obtain rfl := hcut'.eq_of_mem he hd hbounds.1 hbounds.2 hyd hdy
    rcases hother with hnot | ⟨g, hg, hnot⟩
    · exact hnot hcmp'
    · exact hnot (hpages g hg)

end Spot

/-! ## Many values side by side -/

def stripeTarget (page address start len : Nat) : Target page where
  mem x := if start ≤ sub64 x address ∧ sub64 x address < start + len then 1 else 0
  readable _ := true
  paged _ _ _ := rfl

def stripe (start vlen count : Nat) : List Nat := (List.range count).map fun i => start + i * vlen

theorem add_le_of_dvd {a b v : Nat} (ha : v ∣ a) (hb : v ∣ b) (h : a < b) : a + v ≤ b := by
  have := Nat.le_of_dvd (by omega) (Nat.dvd_sub hb ha)
  omega

section Stripe

variable {env : FsEnv} {mode : FaultMode} {page : Nat} {req : StartRequest}
  {vlen start count n : Nat} {c : Nat × Nat} {cut : List (Nat × Nat)}

theorem mem_stripe (hvl : 0 < vlen) (hstart : vlen ∣ start) {y : Nat} :
    y ∈ stripe start vlen count ↔ vlen ∣ y ∧ start ≤ y ∧ y + vlen ≤ start + count * vlen := by
  rw [stripe, mem_map]
  constructor
  · rintro ⟨i, hi, rfl⟩
    have := Nat.mul_le_mul_right vlen (mem_range.mp hi)
    rw [Nat.succ_mul] at this
    exact ⟨(Nat.dvd_add_right hstart).mpr (Nat.dvd_mul_left _ _), by omega, by omega⟩
  · rintro ⟨hdvd, hle, hlt⟩
    obtain ⟨i, hi⟩ := Nat.dvd_sub hdvd hstart
    rw [Nat.mul_comm] at hi
    refine ⟨i, mem_range.mpr ?_, by omega⟩
    exact Nat.lt_of_mul_lt_mul_right (show i * vlen < count * vlen by omega)

theorem nodup_stripe (hvl : 0 < vlen) : (stripe start vlen count).Nodup := by
  refine List.Nodup.map_on (fun i _ j _ hij => ?_) nodup_range
  exact Nat.eq_of_mul_eq_mul_right hvl (Nat.add_left_cancel hij)

@[simp] theorem length_stripe (start vlen count : Nat) :
    (stripe start vlen count).length = count := by
  simp [stripe]

theorem mem_finds_stripe (mode : FaultMode) (page count : Nat) (hvl : 0 < vlen)
    (hlanes : ∀ n, buildStart env.build vlen n = 0) (haddr : req.address < 2 ^ 64) (hc : vlen ∣ c.1)
    (hstop : c.2 < 2 ^ 64) (hstart : vlen ∣ start) {y : Nat} :
    y ∈ finds (env.facing mode (stripeTarget page req.address start (count * vlen))) req vlen
        (List.replicate vlen 1) c ↔
      y ∈ stripe start vlen count ∧ c.1 ≤ y ∧ y + vlen ≤ c.2 := by
  have hsees := sees_facing env mode (stripeTarget page req.address start (count * vlen))
  have hcmp : Compares (env.facing mode (stripeTarget page req.address start (count * vlen))).build
      vlen c y ↔ vlen ∣ y ∧ c.1 ≤ y ∧ y + vlen ≤ c.2 := by
    change Compares env.build vlen c y ↔ _
    rw [Compares, hlanes, Nat.add_zero, ← Nat.dvd_iff_mod_eq_zero]
    constructor
    · rintro ⟨hge, hdvd, hle⟩
      exact ⟨(Nat.dvd_sub_iff_left hge hc).mp hdvd, hge, hle⟩
    · rintro ⟨hdvd, hge, hle⟩
      exact ⟨hge, Nat.dvd_sub hdvd hc, hle⟩
  have hbyte {z : Nat} (hz : c.1 ≤ z) (hz64 : z < 2 ^ 64) :
      (stripeTarget page req.address start (count * vlen)).byte mode (wrap64 (req.address + c.1))
        (c.2 - c.1) (z - c.1) = if start ≤ z ∧ z < start + count * vlen then 1 else 0 := by
    have hoffset : sub64 (wrap64 (req.address + z)) req.address = z := by
      unfold sub64 wrap64
      omega
    have hcopies : (stripeTarget page req.address start (count * vlen)).Copies mode
        (wrap64 (req.address + c.1)) (c.2 - c.1) (z - c.1) := fun _ _ => rfl
    rw [byte_eq hz, if_pos hcopies, stripeTarget]
    simp only [hoffset]
  rw [mem_finds hvl, mem_stripe hvl hstart, hcmp]
  constructor
  · rintro ⟨⟨hdvd, hge, hle⟩, hvalue⟩
    rw [chunkValue_eq_iff hsees length_replicate hge hle] at hvalue
    have hin {k : Nat} (hk : k < vlen) : start ≤ y + k ∧ y + k < start + count * vlen := by
      have := hvalue k hk
      rw [hbyte (by omega) (by omega), getD_replicate _ hk] at this
      by_contra hnot
      rw [if_neg hnot] at this
      exact absurd this (by decide)
    have hfirst := hin hvl
    have hlast := hin (show vlen - 1 < vlen by omega)
    exact ⟨⟨hdvd, by omega, by omega⟩, hge, hle⟩
  · rintro ⟨⟨hdvd, hfirst, hlast⟩, hge, hle⟩
    refine ⟨⟨hdvd, hge, hle⟩, ?_⟩
    rw [chunkValue_eq_iff hsees length_replicate hge hle]
    intro k hk
    rw [hbyte (by omega) (by omega), getD_replicate _ hk]
    exact if_pos ⟨by omega, by omega⟩

theorem length_reported_stripe_le (mode : FaultMode) (page count : Nat) (hvl : 0 < vlen)
    (hlanes : ∀ n, buildStart env.build vlen n = 0) (haddr : req.address < 2 ^ 64)
    (hcut : Span 0 cut n) (hn : n < 2 ^ 64)
    (hdvd : ∀ d ∈ cut, vlen ∣ d.1) (hc : c ∈ cut) (hstart : vlen ∣ start) (hfirst : c.1 ≤ start)
    (hlast : start + count * vlen ≤ c.2) :
    (reported (env.facing mode (stripeTarget page req.address start (count * vlen))) req vlen
      (List.replicate vlen 1) cut).length ≤ simdMaxOffsets := by
  have hsub :
    reported (env.facing mode (stripeTarget page req.address start (count * vlen))) req vlen
      (List.replicate vlen 1) cut ⊆ (finds (env.facing mode (stripeTarget page req.address start
        (count * vlen))) req vlen (List.replicate vlen 1) c).take simdMaxOffsets := by
    intro y hy
    obtain ⟨d, hd, hyd⟩ := mem_flatMap.mp hy
    have hfound := mem_of_mem_take hyd
    have hbounds := finds_bounds hfound
    have hin := ((mem_finds_stripe mode page count hvl hlanes haddr (hdvd d hd)
      ((hcut.bounds_of_mem hd).2.trans_lt hn) hstart).mp hfound).1
    rw [mem_stripe hvl hstart] at hin
    obtain rfl := hcut.eq_of_mem hd hc hbounds.1 hbounds.2 (by omega) (by omega)
    exact hyd
  exact (length_reported_le hcut hsub).trans (length_take_le _ _)

theorem length_reported_stripe (mode : FaultMode) (page : Nat) (hvl : 0 < vlen)
    (hlanes : ∀ n, buildStart env.build vlen n = 0) (haddr : req.address < 2 ^ 64)
    (hcut : Span 0 cut n) (hn : n < 2 ^ 64)
    (hdvd : ∀ d ∈ cut, vlen ∣ d.1 ∧ (vlen ∣ d.2 ∨ d.2 = n)) (hstart : vlen ∣ start)
    (hlast : start + (simdMaxOffsets + 1) * vlen ≤ n)
    (hsplit : ∀ d ∈ cut, ∃ y ∈ stripe start vlen (simdMaxOffsets + 1), y < d.1 ∨ d.2 ≤ y) :
    (reported (env.facing mode (stripeTarget page req.address start ((simdMaxOffsets + 1) * vlen)))
      req vlen (List.replicate vlen 1) cut).length = simdMaxOffsets + 1 := by
  have hfinds {d : Nat × Nat} (hd : d ∈ cut) {y : Nat} :=
    @mem_finds_stripe env req vlen start d mode
    page (simdMaxOffsets + 1) hvl hlanes haddr (hdvd d hd).1
    ((hcut.bounds_of_mem hd).2.trans_lt hn) hstart y
  refine le_antisymm ?_ ?_
  · refine (length_reported_le hcut ?_).trans_eq (length_stripe start vlen _)
    intro y hy
    obtain ⟨d, hd, hyd⟩ := mem_flatMap.mp hy
    exact ((hfinds hd).mp (mem_of_mem_take hyd)).1
  · have hsub : stripe start vlen (simdMaxOffsets + 1) ⊆
        reported (env.facing mode
          (stripeTarget page req.address start ((simdMaxOffsets + 1) * vlen)))
          req vlen (List.replicate vlen 1) cut := by
      intro y hy
      have hyin := (mem_stripe hvl hstart).mp hy
      obtain ⟨d, hd, hdy, hyd⟩ := hcut.exists_mem (Nat.zero_le y) (show y < n by omega)
      have hend : y + vlen ≤ d.2 := by
        rcases (hdvd d hd).2 with hmul | hstop
        · exact add_le_of_dvd hyin.1 hmul hyd
        · omega
      refine mem_flatMap.mpr ⟨d, hd, ?_⟩
      rw [take_of_length_le]
      · exact (hfinds hd).mpr ⟨hy, hdy, hend⟩
      · -- some value of the stripe is not in the chunk
        obtain ⟨z, hz, hout⟩ := hsplit d hd
        have hrest : finds (env.facing mode (stripeTarget page req.address start
            ((simdMaxOffsets + 1) * vlen))) req vlen (List.replicate vlen 1) d ⊆
            (stripe start vlen (simdMaxOffsets + 1)).erase z := by
          intro x hx
          obtain ⟨hxs, hdx, hxd⟩ := (hfinds hd).mp hx
          exact (mem_erase_of_ne (by omega)).mpr hxs
        have hnodup : (finds (env.facing mode (stripeTarget page req.address start
            ((simdMaxOffsets + 1) * vlen))) req vlen (List.replicate vlen 1) d).Nodup :=
          (pairwise_finds d).imp Nat.ne_of_lt
        have := (hnodup.subperm hrest).length_le
        rwa [length_erase_of_mem hz, length_stripe] at this
    have := ((nodup_stripe hvl).subperm hsub).length_le
    rwa [length_stripe] at this

end Stripe

/-! ## Requests outside the condition -/

theorem buildStart_of_crowded {build : Option SimdVariant} {vlen m : Nat}
    (h : simdMaxOffsets < (m - buildStart build vlen m) / vlen) (n : Nat) :
    buildStart build vlen n = 0 := by
  cases build with
  | none => rfl
  | some v =>
    have hwidth : v.width ≤ 64 := by
      cases v <;> decide
    simp only [buildStart, simdStart] at h ⊢
    split_ifs at h ⊢ with hlanes
    · rfl
    · have hrest : m - v.width * (m / v.width) ≤ 64 := by
        have := Nat.mod_lt m (show 0 < v.width by have := width_pos v; omega)
        rw [Nat.mod_eq_sub_mul_div] at this
        omega
      have hfew := (Nat.div_le_self _ vlen).trans (hrest.trans (by decide : 64 ≤ simdMaxOffsets))
      exact absurd h (not_lt.mpr hfew)

section Outside

variable {env : FsEnv} {mode : FaultMode} {page : Nat} {req : StartRequest} {mask : Ptr}
  (hexact : req.compareType = 0) (hplan : (scanPlan env req mask).Valid)
  (haddr : req.address < 2 ^ 64) (hlength : req.length < 2 ^ 64)
  (hstart : (parallelStart env req (scanPlan env req mask)).isSome = true)
  (halloc : env.alloc .parallelOutput = true)

include hexact hplan haddr hlength hstart halloc

theorem not_faithful_of_not_agree
    (h : ¬ CutsAgree env.build (scanPlan env req mask).vlen mode page req.address
      (cutRange (scanPlan env req mask).chunkSize 0 req.length)
      (parallelCut (scanPlan env req mask).chunkSize
        (parallelSpan req.length (scanPlan env req mask).vlen) req.length)) :
    ¬ ParallelFaithful env mode page req mask := by
  have hchunk : 0 < (scanPlan env req mask).chunkSize := by
    have := hplan.chunk_gt
    omega
  have hvl := hplan.vlen_pos
  obtain ⟨spans, hspans⟩ := Option.isSome_iff_exists.mp hstart
  obtain ⟨-, hparallel⟩ := parallelStart_eq_some hspans
  obtain ⟨hfits, -⟩ := parallelSpans_eq_some hvl hplan.vlen_le hlength hparallel
  have hcut := span_cutRange hchunk (Nat.zero_le req.length)
  have hcut' := span_parallelCut req.length hchunk hfits.pos
  -- one of the cuts manages with a value where the other does not
  have hserial {c d : Nat × Nat} {y k : Nat}
      (hc : c ∈ cutRange (scanPlan env req mask).chunkSize 0 req.length)
      (hd : d ∈ parallelCut (scanPlan env req mask).chunkSize
        (parallelSpan req.length (scanPlan env req mask).vlen) req.length)
      (hdy : d.1 ≤ y) (hyd : y < d.2) (hk : k < (scanPlan env req mask).vlen)
      (hcmp : Compares env.build (scanPlan env req mask).vlen c y)
      (hother : ¬ Compares env.build (scanPlan env req mask).vlen d y ∨
        ∃ g, Touches mode page req.address d (y + k) g ∧
          ¬ Touches mode page req.address c (y + k) g) :
      ¬ ParallelFaithful env mode page req mask := by
    obtain ⟨hsome, hnone⟩ := reported_spot mode page req hk hlength hcut hcut' hc hd hdy hyd hcmp
      hother
    refine not_faithful_of_length hexact hplan haddr hlength
      (spotTarget mode page req.address c (y + k)) (length_spotPattern _ k) hstart halloc ?_ ?_
    · rw [hnone]
      exact Nat.zero_le _
    · rw [hnone]
      exact fun h => hsome (length_eq_zero_iff.mp h.symm)
  have hworkers {c d : Nat × Nat} {y k : Nat}
      (hc : c ∈ cutRange (scanPlan env req mask).chunkSize 0 req.length)
      (hd : d ∈ parallelCut (scanPlan env req mask).chunkSize
        (parallelSpan req.length (scanPlan env req mask).vlen) req.length)
      (hcy : c.1 ≤ y) (hyc : y < c.2) (hk : k < (scanPlan env req mask).vlen)
      (hcmp : Compares env.build (scanPlan env req mask).vlen d y)
      (hother : ¬ Compares env.build (scanPlan env req mask).vlen c y ∨
        ∃ g, Touches mode page req.address c (y + k) g ∧
          ¬ Touches mode page req.address d (y + k) g) :
      ¬ ParallelFaithful env mode page req mask := by
    obtain ⟨hsome, hnone⟩ := reported_spot mode page req hk hlength hcut' hcut hd hc hcy hyc hcmp
      hother
    refine not_faithful_of_length hexact hplan haddr hlength
      (spotTarget mode page req.address d (y + k)) (length_spotPattern _ k) hstart halloc ?_ ?_
    · have hz : y + k < 2 ^ 64 := by
        have := hcmp.2.2
        have := (hcut'.bounds_of_mem hd).2
        omega
      exact (length_reported_spot_le hk hlength hz hcut').trans (by decide)
    · rw [hnone]
      exact fun h => hsome (length_eq_zero_iff.mp h)
  unfold CutsAgree at h
  push Not at h
  obtain ⟨c, hc, d, hd, y, hcy, hyc, hdy, hyd, h⟩ := h
  by_cases hcmp : Compares env.build (scanPlan env req mask).vlen c y <;>
    by_cases hcmp' : Compares env.build (scanPlan env req mask).vlen d y
  · obtain ⟨-, k, hk, g, hpages⟩ := h (iff_of_true hcmp hcmp')
    rcases hpages with ⟨hin, hout⟩ | ⟨hout, hin⟩
    · exact hworkers hc hd hcy hyc hk hcmp' (.inr ⟨g, hin, hout⟩)
    · exact hserial hc hd hdy hyd hk hcmp (.inr ⟨g, hin, hout⟩)
  · exact hserial hc hd hdy hyd hvl hcmp (.inl hcmp')
  · exact hworkers hc hd hcy hyc hvl hcmp' (.inl hcmp)
  · exact absurd (h (iff_of_false hcmp hcmp')).1 hcmp

theorem not_faithful_of_crowded
    (hdvd : ¬ (scanPlan env req mask).chunkSize ∣
      parallelSpan req.length (scanPlan env req mask).vlen)
    (hcrowd : simdMaxOffsets < (min (scanPlan env req mask).chunkSize req.length -
      buildStart env.build (scanPlan env req mask).vlen
        (min (scanPlan env req mask).chunkSize req.length)) / (scanPlan env req mask).vlen) :
    ¬ ParallelFaithful env mode page req mask := by
  obtain ⟨spans, hspans⟩ := Option.isSome_iff_exists.mp hstart
  obtain ⟨-, hparallel⟩ := parallelStart_eq_some hspans
  obtain ⟨hfits, -⟩ := parallelSpans_eq_some hplan.vlen_pos hplan.vlen_le hlength hparallel
  have hlanes := buildStart_of_crowded hcrowd
  rw [hlanes, Nat.sub_zero, ← Nat.succ_le_iff, Nat.le_div_iff_mul_le hplan.vlen_pos] at hcrowd
  have hlen := @not_faithful_of_length env mode page req mask
    (List.replicate (scanPlan env req mask).vlen 1) hexact hplan haddr hlength
  generalize scanPlan env req mask = plan at *
  generalize parallelSpan req.length plan.vlen = span at *
  have hvl := hplan.vlen_pos
  have hgt := hplan.chunk_gt
  have hchunk : 0 < plan.chunkSize := by omega
  have hvchunk : plan.vlen ∣ plan.chunkSize := Nat.dvd_of_mod_eq_zero hplan.chunk_mod
  have hspan := hfits.dvd
  have hcut := span_cutRange hchunk (Nat.zero_le req.length)
  have hcut' := span_parallelCut req.length hchunk hfits.pos
  have hrounded := hfits.rounded
  -- the serial chunk in which the second worker starts
  obtain ⟨c, hc, hcspan, hspanc⟩ := hcut.exists_mem (Nat.zero_le span) hfits.lt
  obtain ⟨j, hj, hstop⟩ := mem_cutRange hchunk hc
  rw [Nat.zero_add] at hj
  have hcdvd : plan.vlen ∣ c.1 := hj ▸ Dvd.dvd.mul_left hvchunk j
  have hinside : c.1 + plan.vlen ≤ span := by
    refine add_le_of_dvd hcdvd hspan (hcspan.lt_of_ne ?_)
    rintro hsame
    exact hdvd (hsame ▸ hj ▸ Nat.dvd_mul_left _ _)
  have htotal : (simdMaxOffsets + 1) * plan.vlen = 8192 * plan.vlen + plan.vlen := by
    rw [Nat.succ_mul, simdMaxOffsets]
  rw [Nat.succ_eq_add_one, htotal] at hcrowd
  -- a stripe around that place that does not leave the chunk
  obtain ⟨start, hstartdvd, hfirst, hbefore, hafter, hchunkend, hrangeend⟩ : ∃ start,
      plan.vlen ∣ start ∧ c.1 ≤ start ∧ start + plan.vlen ≤ span ∧
        span ≤ start + 8192 * plan.vlen ∧
        start + (8192 * plan.vlen + plan.vlen) ≤ c.1 + plan.chunkSize ∧
        start + (8192 * plan.vlen + plan.vlen) ≤ req.length := by
    rcases Nat.lt_or_ge (c.1 + 8192 * plan.vlen) span with hfar | hnear
    · refine ⟨span - 8192 * plan.vlen, Nat.dvd_sub hspan (Nat.dvd_mul_left _ _), by omega, by omega,
        by omega, ?_, by omega⟩
      have := add_le_of_dvd hspan (Nat.dvd_add hcdvd hvchunk) (show span < c.1 + plan.chunkSize by
        omega)
      omega
    · refine ⟨c.1, hcdvd, le_rfl, hinside, hnear, by omega, ?_⟩
      cases j with
      | zero => omega
      | succ j =>
        rw [Nat.succ_mul] at hj
        omega
  have hserial := length_reported_stripe_le mode page (simdMaxOffsets + 1) hvl hlanes haddr hcut
    hlength (fun d hd => by
      obtain ⟨k, hk, -⟩ := mem_cutRange hchunk hd
      rw [hk, Nat.zero_add]
      exact Dvd.dvd.mul_left hvchunk k) hc hstartdvd hfirst (by rw [htotal]; omega)
  have hmem {y : Nat} := @mem_stripe plan.vlen start (simdMaxOffsets + 1) hvl hstartdvd y
  rw [htotal] at hmem
  have hparallel := length_reported_stripe mode page hvl hlanes haddr hcut' hlength (fun d hd => by
      obtain ⟨i, hi⟩ := mem_parallelCut hd
      obtain ⟨k, hk, hend⟩ := mem_cutRange hchunk hi
      have hd₁ : plan.vlen ∣ d.1 := by
        rw [hk]
        exact Nat.dvd_add (Dvd.dvd.mul_left hspan i) (Dvd.dvd.mul_left hvchunk k)
      refine ⟨hd₁, ?_⟩
      have hd₂ : d.2 = d.1 + plan.chunkSize ∨ d.2 = i * span + span ∨ d.2 = req.length := by omega
      rcases hd₂ with h | h | h
      · exact .inl (h ▸ Nat.dvd_add hd₁ hvchunk)
      · exact .inl (h ▸ Nat.dvd_add (Dvd.dvd.mul_left hspan i) hspan)
      · exact .inr h) hstartdvd (by omega) (fun d hd => by
      obtain ⟨i, hi⟩ := mem_parallelCut hd
      obtain ⟨k, hk, hend⟩ := mem_cutRange hchunk hi
      cases i with
      | zero => exact ⟨span, hmem.mpr ⟨hspan, by omega, by omega⟩, .inr (by omega)⟩
      | succ i =>
        rw [Nat.succ_mul] at hk
        exact ⟨span - plan.vlen, hmem.mpr ⟨Nat.dvd_sub hspan (Nat.dvd_refl _), by omega, by omega⟩,
          .inl (by omega)⟩)
  refine hlen (stripeTarget page req.address start ((simdMaxOffsets + 1) * plan.vlen))
    length_replicate hstart halloc hparallel.le ?_
  rw [hparallel]
  omega

end Outside

/-- **Parallel FlashScan streaming.** For every target and every order in which the
workers run, an exact START request that `flashscan_parallel_stream` handles is
answered with the bytes the serial scan would send, and one it does not handle with
nothing, if and only if: no workers start, their spans are whole chunks, or no chunk
holds more than 8192 compared values and every value one cut compares is compared in
the other, in a chunk that needs the same pages. -/
theorem parallelFaithful_iff (env : FsEnv) (mode : FaultMode) (page : Nat) {req : StartRequest}
    (mask : Ptr) (hexact : req.compareType = 0) (hvl : 1 ≤ req.valueLength)
    (hvl16 : req.valueLength ≤ 16) (halign : req.alignment < 2 ^ 32) (haddr : req.address < 2 ^ 64)
    (hlength : req.length < 2 ^ 64) :
    ParallelFaithful env mode page req mask ↔
      ParallelOk env mode page req (scanPlan env req mask) := by
  have hplan := scanPlan_valid env mask hvl hvl16 halign
  refine ⟨fun h hstart halloc => ?_, parallelFaithful_of_ok hexact hplan haddr hlength⟩
  by_contra hnot
  rw [not_or, not_and_or, not_le] at hnot
  obtain ⟨hdvd, hcrowd | hagree⟩ := hnot
  · exact not_faithful_of_crowded hexact hplan haddr hlength hstart halloc hdvd hcrowd h
  · exact not_faithful_of_not_agree hexact hplan haddr hlength hstart halloc hagree h

def fourChunks : StartRequest := ⟨2, .u32, 0, 0, 4, 0x80, 0x10000, 0x400000⟩

theorem parallelFaithful_iff_fourChunks :
    ParallelFaithful (calmEnv none) .whole 0x1000 fourChunks none := by
  refine (parallelFaithful_iff (calmEnv none) .whole 0x1000 none rfl (by decide) (by decide)
    (by decide) (by decide) (by decide)).mpr fun _ _ => .inl ?_
  decide

def crowdedChunk : StartRequest := ⟨2, .u8, 0, 0, 1, 0x80, 0x10000, 40000⟩

theorem crowdedChunk_not_faithful :
    ¬ ∀ env mode page req mask, req.compareType = 0 → 1 ≤ req.valueLength →
      req.valueLength ≤ 16 → req.alignment < 2 ^ 32 → req.address < 2 ^ 64 →
      req.length < 2 ^ 64 → ParallelFaithful env mode page req mask := by
  intro h
  have hfaithful := h (calmEnv none) .whole 0x1000 crowdedChunk none rfl (by decide) (by decide)
    (by decide) (by decide) (by decide)
  exact not_faithful_of_crowded rfl (scanPlan_valid _ _ (by decide) (by decide) (by decide))
    (by decide) (by decide) (by decide) rfl (by decide) (by decide) hfaithful

end MemDbg.FlashScan
