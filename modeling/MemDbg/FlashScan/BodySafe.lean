import MemDbg.FlashScan.Handler
import MemDbg.FlashScan.StreamLost

/-!
# Reads of the request body

Dispatch decides by a bitmap which compare types come with compare data.  Six
types that are compared with the pattern all the same are missing from it:
their pattern is `NULL`, and every comparison reads through it.
-/

namespace MemDbg.FlashScan

open List Lib Scan Option

/-! ## Compare types -/

theorem not_needsData_cases {compareType : Nat} (hle : compareType ≤ 12)
    (h : needsData compareType = false) :
    compareType = 4 ∨ compareType = 5 ∨ compareType = 7 ∨ compareType = 9 ∨ compareType = 10 ∨
      compareType = 11 := by
  have hall : ∀ t, t < 13 → needsData t = false →
      t = 4 ∨ t = 5 ∨ t = 7 ∨ t = 9 ∨ t = 10 ∨ t = 11 := by
    decide
  exact hall compareType (by omega) h

theorem needsData_ne_four {compareType : Nat} (h : needsData compareType = true) :
    compareType ≠ 4 := by
  rintro rfl
  exact absurd h (by decide)

/-! ## Single comparisons -/

theorem comparePattern_isSome (test : Ordering → Bool) (mem : List UInt8) {p : List UInt8}
    {vlen : Nat} (h : vlen ≤ p.length) : (comparePattern test mem (some p) vlen).isSome = true := by
  rw [comparePattern, Ptr.read_some h]
  rfl

theorem comparePattern_null (test : Ordering → Bool) (mem : List UInt8) (vlen : Nat) :
    comparePattern test mem none vlen = none := rfl

theorem snapCompare_isSome {mem p base : List UInt8} {mask : Ptr} {compareType vlen : Nat}
    {prev : Ptr} (hp : vlen ≤ p.length)
    (hprev : compareType = 3 → prev = some base ∧ vlen ≤ base.length) :
    (snapCompare mem (some p) prev mask none compareType vlen).isSome = true := by
  have hints : (snapCompareInts mem (some p) compareType vlen).isSome = true := by
    rw [snapCompareInts, Ptr.read_some hp]
    split_ifs <;> simp only [map_some, bind_eq_bind, bind_some] <;>
      split <;> rfl
  unfold snapCompare
  rw [if_neg (c := compareType = 4 ∧ _) (by simp)]
  by_cases h3 : compareType = 3
  · obtain ⟨rfl, hbase⟩ := hprev h3
    rw [if_neg (by omega), if_neg (by omega), if_neg (by omega), if_pos ⟨h3, rfl⟩]
    exact comparePattern_isSome _ _ hbase
  · rw [if_neg (c := compareType = 3 ∧ _) (fun h => h3 h.1)]
    split_ifs
    · exact comparePattern_isSome _ _ hp
    · exact comparePattern_isSome _ _ hp
    · exact comparePattern_isSome _ _ hp
    · exact hints

theorem snapCompare_null {mem : List UInt8} {prev mask : Ptr} {compareType vlen : Nat}
    (hle : compareType ≤ 12) (hneeds : needsData compareType = false) (hvlen : vlen ≤ 8) :
    snapCompare mem none prev mask none compareType vlen = none := by
  have hcases := not_needsData_cases hle hneeds
  unfold snapCompare
  rw [if_neg (by omega), if_neg (by simp), if_neg (by omega), if_neg (by omega), if_neg (by omega),
    snapCompareInts, if_pos hvlen]
  rfl

theorem streamCompare_isSome {value p : List UInt8} {mask : Ptr} {compareType vlen : Nat}
    (hp : vlen ≤ p.length) :
    (streamCompare value (some p) mask none compareType vlen).isSome = true := by
  unfold streamCompare
  rw [if_neg (c := compareType = 4 ∧ _) (by simp)]
  split_ifs <;> exact comparePattern_isSome _ _ hp

theorem streamCompare_null {value : List UInt8} {mask : Ptr} {compareType vlen : Nat} :
    streamCompare value none mask none compareType vlen = none := by
  unfold streamCompare
  rw [if_neg (c := compareType = 4 ∧ _) (by simp)]
  split_ifs <;> rfl

/-! ## Rescans -/

structure CompareArgs.Supplied (args : CompareArgs) : Prop where
  needs : needsData args.compareType = true
  pattern : ∃ p, args.pattern = some p ∧ args.vlen ≤ p.length
  betweenHi : args.betweenHi = none
  includesPrev : args.compareType = 3 → args.includesPrev = true

structure CompareArgs.Null (args : CompareArgs) : Prop where
  le : args.compareType ≤ 12
  needs : needsData args.compareType = false
  pattern : args.pattern = none
  betweenHi : args.betweenHi = none

variable {args : CompareArgs}

theorem CompareArgs.Supplied.snapCompare_isSome (h : args.Supplied)
    (mem : List UInt8) {base : List UInt8} (hbase : args.vlen ≤ base.length) :
    (snapCompare mem args.pattern (if args.includesPrev then some base else args.betweenHi)
      args.mask args.betweenHi args.compareType args.vlen).isSome = true := by
  obtain ⟨p, hp, hplen⟩ := h.pattern
  rw [hp, h.betweenHi]
  exact FlashScan.snapCompare_isSome hplen fun h3 => ⟨if_pos (h.includesPrev h3), hbase⟩

theorem CompareArgs.Null.snapCompare (h : args.Null) (hvlen : args.vlen ≤ 8)
    (mem : List UInt8) (prev : Ptr) :
    FlashScan.snapCompare mem args.pattern prev args.mask args.betweenHi args.compareType
      args.vlen = none := by
  rw [h.pattern, h.betweenHi]
  exact snapCompare_null h.le h.needs hvlen

theorem listCompare_isSome (h : args.Supplied) (mem : List UInt8) :
    (listCompare mem args).isSome = true := by
  obtain ⟨p, hp, hlen⟩ := h.pattern
  obtain ⟨matched, hmatched⟩ := isSome_iff_exists.mp
    (comparePattern_isSome (· == .eq) mem hlen)
  rw [listCompare, hp, hmatched]
  simp only [bind_eq_bind, bind_some]
  rw [if_neg fun h4 => needsData_ne_four h.needs h4.1]
  rfl

theorem listCompare_null (h : args.Null) (mem : List UInt8) :
    listCompare mem args = none := by
  rw [listCompare, h.pattern, comparePattern_null]
  rfl

theorem listRescanLoop_isSome (h : args.Supplied) (env : FsEnv)
    (s : ListSession) (rs : List ListRecord) (i : Nat) (win : Window) (out : List ListRecord) :
    (listRescanLoop env args s rs i win out).isSome = true := by
  induction rs generalizing i win out with
  | nil => rfl
  | cons r rest ih =>
    rw [listRescanLoop]
    obtain ⟨matched, hmatched⟩ := isSome_iff_exists.mp (listCompare_isSome h
      ((win.seek env args.vlen r.addr (rest.map ListRecord.addr)).value args.vlen r.addr))
    simp only [hmatched, bind_eq_bind, bind_some]
    exact ih _ _ _

theorem streamRescanLoop_isSome (h : args.Supplied) (env : FsEnv)
    (baseAddress : Nat) (offs : List Nat) (win : Window) (out : List (Nat × List UInt8)) :
    (streamRescanLoop env args baseAddress offs win out).isSome = true := by
  obtain ⟨p, hp, hlen⟩ := h.pattern
  induction offs generalizing win out with
  | nil => rfl
  | cons off rest ih =>
    rw [streamRescanLoop]
    generalize win.seek env args.vlen (wrap64 (baseAddress + off))
      (rest.map fun off => wrap64 (baseAddress + off)) = win'
    obtain ⟨matched, hmatched⟩ := isSome_iff_exists.mp (comparePattern_isSome (· == .eq)
      (win'.value args.vlen (wrap64 (baseAddress + off))) hlen)
    rw [hp, hmatched]
    exact ih _ _

theorem countStream_isSome (h : args.Supplied) (env : FsEnv)
    (req : CountRequest) (chunks : List (List UInt8)) :
    (countStream env req args chunks).isSome = true := by
  induction chunks with
  | nil => rfl
  | cons chunk rest ih =>
    rw [countStream]
    split_ifs
    · rfl
    · obtain ⟨matched, hmatched⟩ := isSome_iff_exists.mp (streamRescanLoop_isSome h env
        req.baseAddress (entryOffsets args.vlen chunk) ⟨0, 0, []⟩ [])
      obtain ⟨others, hothers⟩ := isSome_iff_exists.mp ih
      rw [hmatched, hothers]
      rfl

/-! ### Snapshots -/

theorem compareWindow_isSome (h : args.Supplied) (env : FsEnv)
    (win : List UInt8) (winStart : Nat) {chunkEnd i last : Nat} (hi : i ≤ chunkEnd) (fuel : Nat)
    {k : Nat}
    {w : WindowState} (hik : i ≤ k) (hbase : (last - i + 1) * args.vlen ≤ w.baseline.length) :
    (compareWindow env args win chunkEnd winStart i last fuel k w).isSome = true := by
  induction fuel generalizing k w with
  | zero => rfl
  | succ fuel ih =>
    rw [compareWindow]
    by_cases hk : k ≤ last
    · rw [if_pos hk]
      have hin : (k - i) * args.vlen + args.vlen ≤ w.baseline.length := by
        calc
          (k - i) * args.vlen + args.vlen = (k - i + 1) * args.vlen := by ring
          _ ≤ (last - i + 1) * args.vlen := Nat.mul_le_mul_right _ (by omega)
          _ ≤ _ := hbase
      have hlen : args.vlen ≤
          ((w.baseline.drop ((k - i) * args.vlen)).take args.vlen).length := by
        rw [length_take, length_drop]
        omega
      obtain ⟨matched, hmatched⟩ := isSome_iff_exists.mp (h.snapCompare_isSome
        ((win.drop (sub64 (slotToAddr w.s k) winStart)).take args.vlen) hlen)
      simp only [hmatched, bind_eq_bind, bind_some]
      refine ih (le_bitmapNextSet (by omega) hi) ?_
      cases matched
      · exact hbase
      · exact hbase.trans (length_le_overwrite _ _ _)
    · rw [if_neg hk]
      rfl

theorem rescanLoop_isSome (h : args.Supplied) (env : FsEnv)
    (chunkEnd fuel i survivors : Nat) (s : SnapshotSession) :
    (rescanLoop env args chunkEnd fuel i survivors s).isSome = true := by
  induction fuel generalizing i survivors s with
  | zero => rfl
  | succ fuel ih =>
    rw [rescanLoop]
    split_ifs with hi hcancel
    · rfl
    · dsimp only
      generalize coalesceSlots s args.vlen chunkEnd (slotToAddr s i) chunkEnd
        (bitmapNextSet s.bitmap (i + 1) chunkEnd) (wrap64 (slotToAddr s i + args.vlen)) i = window
      obtain ⟨covered, last⟩ := window
      split
      · rfl
      · rename_i baseline hread
        have hbase : (last - i + 1) * args.vlen ≤ baseline.length := by
          split_ifs at hread with hbuffered
          · exact (length_snapshotStoreRead hread).ge
          · cases hread
            simp only [decide_eq_true_eq, length_take, length_drop] at hbuffered ⊢
            omega
        obtain ⟨w, hw⟩ := isSome_iff_exists.mp (compareWindow_isSome h env
          (flashscanWindowRead env (slotToAddr s i) (sub64 covered (slotToAddr s i)))
          (slotToAddr s i) hi.le chunkEnd le_rfl (w := ⟨s, baseline, false, survivors⟩) hbase)
        simp only [hw, bind_eq_bind, bind_some]
        exact ih _ _ _
    · rfl

theorem isSome_snapshotRescan (env : FsEnv) (args : CompareArgs) (s : SnapshotSession) :
    (snapshotRescan env args s).isSome = (rescanLoop env args s.slotCount s.slotCount
      (bitmapNextSet s.bitmap 0 s.slotCount) 0 s).isSome := by
  rw [snapshotRescan]
  split_ifs with hcount
  · rw [rescanLoop_of_ge env (by omega)]
    rfl
  · cases rescanLoop env args s.slotCount s.slotCount (bitmapNextSet s.bitmap 0 s.slotCount) 0 s <;>
      rfl

variable {env : FsEnv} {s : SnapshotSession}

theorem isSome_snapshotRescanParallel (hseq : (snapshotRescan env args s).isSome = true)
    (hpar : parallelWorkers * 64 ≤ s.slotCount → (rescanWorkers env args s.slotCount
      ((s.slotCount + parallelWorkers - 1) / parallelWorkers) (List.range parallelWorkers) 0
        s).isSome = true) :
    (snapshotRescanParallel env args s).isSome = true := by
  have hfallback : (rescanFallback env args s).isSome = true := by
    rw [rescanFallback]
    split_ifs
    · exact hseq
    · rfl
  rw [snapshotRescanParallel]
  dsimp only
  split_ifs with hzero hsmall halloc
  · rfl
  · exact hfallback
  · exact hfallback
  · obtain ⟨⟨total, s'⟩, hworkers⟩ := isSome_iff_exists.mp (hpar (by omega))
    rw [hworkers]
    rfl

theorem rescanWorkers_isSome (h : args.Supplied) (env : FsEnv)
    (n chunkSize : Nat) (ws : List Nat) (total : Nat) (s : SnapshotSession) :
    (rescanWorkers env args n chunkSize ws total s).isSome = true := by
  induction ws generalizing total s with
  | nil => rfl
  | cons w ws ih =>
    rw [rescanWorkers]
    generalize (if w + 1 = parallelWorkers then n else (w + 1) * chunkSize) = chunkEnd
    have hthread : (rescanWorkerThread env args w (w * chunkSize) chunkEnd s).isSome = true := by
      rw [rescanWorkerThread]
      split_ifs
      · exact rescanLoop_isSome h env _ _ _ _ _
      · rfl
    obtain ⟨⟨survivors, s'⟩, hs'⟩ := isSome_iff_exists.mp hthread
    rw [hs']
    exact ih _ _

/-! ### Windows that are opened -/

def SnapshotSession.windowLast (s : SnapshotSession) (vlen chunkEnd i : Nat) : Nat :=
  (coalesceSlots s vlen chunkEnd (slotToAddr s i) chunkEnd (bitmapNextSet s.bitmap (i + 1) chunkEnd)
    (wrap64 (slotToAddr s i + vlen)) i).2

def SnapshotSession.Opens (s : SnapshotSession) (vlen start chunkEnd : Nat) : Prop :=
  bitmapNextSet s.bitmap start chunkEnd < chunkEnd ∧
    (s.windowLast vlen chunkEnd (bitmapNextSet s.bitmap start chunkEnd) + 1) * vlen ≤ s.stored

theorem SnapshotSession.le_windowLast (s : SnapshotSession) (vlen : Nat) {chunkEnd i : Nat}
    (hi : i < chunkEnd) : i ≤ s.windowLast vlen chunkEnd i := by
  generalize hwin : coalesceSlots s vlen chunkEnd (slotToAddr s i) chunkEnd
    (bitmapNextSet s.bitmap (i + 1) chunkEnd) (wrap64 (slotToAddr s i + vlen)) i = window
  obtain ⟨covered, last⟩ := window
  have hlast : s.windowLast vlen chunkEnd i = last := by rw [windowLast, hwin]
  rw [hlast]
  exact (coalesceSlots_last (le_bitmapNextSet i.le_succ hi.le) (le_refl i) hi hwin).1

theorem le_stored_of_isSome {off len : Nat}
    (h : (snapshotStoreRead env s off len).isSome = true) : off + len ≤ s.stored := by
  rw [SnapshotSession.stored]
  rw [snapshotStoreRead] at h
  split_ifs at h with hfile hram
  · rw [preadAll] at h
    split_ifs at h with hread
    · omega
    · cases h
  · omega
  · rw [isSome_map, preadAll] at h
    split_ifs at h with hread
    · omega
    · cases h

theorem windowEnd_eq {i last vlen : Nat} (hi : i ≤ last) :
    i * vlen + (last - i + 1) * vlen = (last + 1) * vlen := by
  rw [← Nat.add_mul, ← Nat.add_assoc, Nat.add_sub_cancel' hi]

theorem rescanLoop_of_not_opens {start chunkEnd : Nat}
    (h : ¬s.Opens args.vlen start chunkEnd) (env : FsEnv) (fuel survivors : Nat) :
    rescanLoop env args chunkEnd fuel (bitmapNextSet s.bitmap start chunkEnd) survivors s =
      some (survivors, s) := by
  rcases Nat.lt_or_ge (bitmapNextSet s.bitmap start chunkEnd) chunkEnd with hi | hge
  · have hstored : ¬(s.windowLast args.vlen chunkEnd (bitmapNextSet s.bitmap start chunkEnd) + 1) *
        args.vlen ≤ s.stored := fun hle => h ⟨hi, hle⟩
    have hlast := s.le_windowLast args.vlen hi
    generalize bitmapNextSet s.bitmap start chunkEnd = i at hi hstored hlast ⊢
    cases fuel with
    | zero => rfl
    | succ fuel =>
      rw [rescanLoop, if_pos hi]
      split_ifs
      · rfl
      · rw [SnapshotSession.windowLast] at hstored hlast
        dsimp only
        generalize coalesceSlots s args.vlen chunkEnd (slotToAddr s i) chunkEnd
          (bitmapNextSet s.bitmap (i + 1) chunkEnd) (wrap64 (slotToAddr s i + args.vlen)) i = window
          at hstored hlast ⊢
        obtain ⟨covered, last⟩ := window
        dsimp only at hstored hlast ⊢
        rw [← windowEnd_eq hlast] at hstored
        have hbuffered : i * args.vlen + (last - i + 1) * args.vlen > s.snapRam.length := by
          rw [SnapshotSession.stored] at hstored
          omega
        have hread :
          snapshotStoreRead env s (i * args.vlen) ((last - i + 1) * args.vlen) = none := by
          rw [← not_isSome_iff_eq_none]
          exact fun hsome => hstored (le_stored_of_isSome hsome)
        rw [if_pos (decide_eq_true hbuffered), hread]
  · exact rescanLoop_of_ge env hge fuel survivors s

def SnapshotSession.WorkerOpens (s : SnapshotSession) (vlen w : Nat) : Prop :=
  let chunkSize := (s.slotCount + parallelWorkers - 1) / parallelWorkers
  s.Opens vlen (w * chunkSize)
    (if w + 1 = parallelWorkers then s.slotCount else (w + 1) * chunkSize)

def SnapshotSession.Compares (s : SnapshotSession) (vlen : Nat) (parallel : Bool) : Prop :=
  s.Opens vlen 0 s.slotCount ∨ (parallel = true ∧ parallelWorkers * 64 ≤ s.slotCount ∧
    ∃ w, w < parallelWorkers ∧ s.WorkerOpens vlen w)

theorem rescanWorkers_of_not_opens (env : FsEnv)
    {ws : List Nat} (h : ∀ w ∈ ws, ¬s.WorkerOpens args.vlen w) (total : Nat) :
    rescanWorkers env args s.slotCount ((s.slotCount + parallelWorkers - 1) / parallelWorkers) ws
      total s = some (total, s) := by
  induction ws generalizing total with
  | nil => rfl
  | cons w ws ih =>
    have hshut := h w mem_cons_self
    rw [SnapshotSession.WorkerOpens] at hshut
    rw [rescanWorkers]
    rw [rescanWorkerThread, rescanLoop_of_not_opens hshut, ite_self]
    exact ih (fun w' hw' => h w' (mem_cons_of_mem _ hw')) _

theorem snapshotRescan_isSome (h : args.Supplied ∨ ¬s.Opens args.vlen 0 s.slotCount) (env : FsEnv) :
    (snapshotRescan env args s).isSome = true := by
  rw [isSome_snapshotRescan]
  rcases h with h | h
  · exact rescanLoop_isSome h env _ _ _ _ _
  · rw [rescanLoop_of_not_opens h]
    rfl

theorem snapshotRescanParallel_isSome
    (h : args.Supplied ∨ ¬s.Compares args.vlen true) (env : FsEnv) :
    (snapshotRescanParallel env args s).isSome = true := by
  have hseq : args.Supplied ∨ ¬s.Opens args.vlen 0 s.slotCount := h.imp_right fun h ho ↦ h (.inl ho)
  refine isSome_snapshotRescanParallel (snapshotRescan_isSome hseq env) fun hn => ?_
  rcases h with h | h
  · exact rescanWorkers_isSome h env _ _ _ _ _
  · rw [rescanWorkers_of_not_opens]
    · rfl
    · intro w hw ho
      exact h (.inr ⟨rfl, hn, w, mem_range.mp hw, ho⟩)

/-! ### Snapshots and a `NULL` pattern -/

structure FsEnv.Obliging (env : FsEnv) : Prop where
  cancelled : ∀ i, env.cancelled i = false
  pread : ∀ off len, env.pread off len = true
  workerBuffers : ∀ w, env.workerBuffers w = true

theorem calmEnv_obliging (build : Option SimdVariant) : (calmEnv build).Obliging :=
  ⟨fun _ => rfl, fun _ _ => rfl, fun _ => rfl⟩

theorem compareWindow_null (h : args.Null) (hvlen : args.vlen ≤ 8) (env : FsEnv)
    (win : List UInt8) (chunkEnd winStart : Nat) {i last fuel : Nat} (hlast : i ≤ last)
    (hfuel : 0 < fuel) (w : WindowState) :
    compareWindow env args win chunkEnd winStart i last fuel i w = none := by
  cases fuel with
  | zero => cases hfuel
  | succ fuel =>
    rw [compareWindow, if_pos hlast]
    simp only [h.snapCompare hvlen]
    rfl

theorem rescanLoop_null (h : args.Null) (hvlen : args.vlen ≤ 8)
    (henv : env.Obliging) {start chunkEnd fuel : Nat}
    (hopens : s.Opens args.vlen start chunkEnd) (hfuel : 0 < fuel) (survivors : Nat) :
    rescanLoop env args chunkEnd fuel
      (bitmapNextSet s.bitmap start chunkEnd) survivors s = none := by
  obtain ⟨hi, hstored⟩ := hopens
  have hlast := s.le_windowLast args.vlen hi
  generalize bitmapNextSet s.bitmap start chunkEnd = i at hi hstored hlast ⊢
  cases fuel with
  | zero => cases hfuel
  | succ fuel =>
    rw [SnapshotSession.windowLast] at hstored hlast
    rw [rescanLoop, if_pos hi, henv.cancelled, if_neg Bool.false_ne_true]
    dsimp only
    generalize coalesceSlots s args.vlen chunkEnd (slotToAddr s i) chunkEnd
      (bitmapNextSet s.bitmap (i + 1) chunkEnd) (wrap64 (slotToAddr s i + args.vlen)) i = window
      at hstored hlast ⊢
    obtain ⟨covered, last⟩ := window
    rw [← windowEnd_eq hlast] at hstored
    obtain ⟨stored, hread⟩ := isSome_iff_exists.mp
      (isSome_snapshotStoreRead henv.pread hstored)
    rw [hread]
    split
    · rename_i hnone
      split_ifs at hnone
    · rw [compareWindow_null h hvlen _ _ _ _ hlast (by omega)]
      rfl

theorem rescanWorkers_null (h : args.Null) (hvlen : args.vlen ≤ 8)
    (henv : env.Obliging) {ws : List Nat} {w : Nat} (hw : w ∈ ws)
    (hopens : s.WorkerOpens args.vlen w) (total : Nat) :
    rescanWorkers env args s.slotCount ((s.slotCount + parallelWorkers - 1) / parallelWorkers) ws
      total s = none := by
  induction ws generalizing total with
  | nil => cases hw
  | cons v vs ih =>
    rw [rescanWorkers]
    rw [rescanWorkerThread, if_pos (henv.workerBuffers v)]
    by_cases hv : s.WorkerOpens args.vlen v
    · rw [SnapshotSession.WorkerOpens] at hv
      rw [rescanLoop_null h hvlen henv hv (Nat.lt_of_le_of_lt (Nat.zero_le _) hv.1)]
      rfl
    · -- a worker that opens no window leaves the session to the next one
      have hmem : w ∈ vs := by
        rcases mem_cons.mp hw with rfl | hmem
        · exact absurd hopens hv
        · exact hmem
      rw [SnapshotSession.WorkerOpens] at hv
      rw [rescanLoop_of_not_opens hv]
      exact ih hmem _

theorem snapshotRescan_null (h : args.Null) (hvlen : args.vlen ≤ 8) (henv : env.Obliging)
    (hopens : s.Opens args.vlen 0 s.slotCount) : snapshotRescan env args s = none := by
  rw [← isNone_iff_eq_none, ← not_isSome, isSome_snapshotRescan,
    rescanLoop_null h hvlen henv hopens (Nat.lt_of_le_of_lt (Nat.zero_le _) hopens.1)]
  rfl

def tightEnv : FsEnv := { calmEnv none with alloc := fun site => decide (site ≠ .rescanWorkers) }

theorem snapshotRescanParallel_null (h : args.Null) (hvlen : args.vlen ≤ 8)
    (hcompares : s.Compares args.vlen true) :
    ∃ env, snapshotRescanParallel env args s = none := by
  rcases hcompares with hopens | ⟨-, hn, w, hw, hopens⟩
  · -- the workers have no room, so the sequential rescan runs
    have hpos : s.slotCount ≠ 0 := fun hzero => by
      have := hopens.1
      omega
    have hfallback : rescanFallback tightEnv args s = none := by
      rw [rescanFallback, if_pos (by decide)]
      exact snapshotRescan_null h hvlen ⟨fun _ => rfl, fun _ _ => rfl, fun _ => rfl⟩ hopens
    refine ⟨tightEnv, ?_⟩
    rw [snapshotRescanParallel]
    rw [if_neg hpos, hfallback]
    split_ifs with hsmall halloc
    · rfl
    · rfl
    · exact absurd (by decide) halloc
  · refine ⟨calmEnv none, ?_⟩
    rw [snapshotRescanParallel]
    dsimp only
    rw [if_neg (by rw [parallelWorkers] at hn; omega), if_neg (Nat.not_lt.mpr hn), if_neg
      (by decide),
      rescanWorkers_null h hvlen (calmEnv_obliging none) (mem_range.mpr hw) hopens]
    rfl

/-! ## Streamed scans -/

theorem testedHits_isSome {test : Nat → Option Bool} (h : ∀ j, (test j).isSome = true)
    (js : List Nat) : (testedHits test js).isSome = true := by
  induction js with
  | nil => rfl
  | cons j js ih =>
    obtain ⟨matched, hmatched⟩ := isSome_iff_exists.mp (h j)
    obtain ⟨rest, hrest⟩ := isSome_iff_exists.mp ih
    rw [testedHits, hmatched, hrest]
    rfl

section Stream

variable {env : FsEnv} {req : StartRequest} {plan : ScanPlan} {p : List UInt8} {mask : Ptr}

theorem chunkHits_isSome (env : FsEnv) (mask : Ptr) (hvl : 0 < plan.vlen)
    (hp : p.length = plan.vlen) (compareType : Nat)
    (src : List UInt8) (toRead : Nat) :
    (chunkHits env plan compareType (some p) mask none src toRead).isSome = true := by
  unfold chunkHits
  by_cases hsimd : plan.simdOk = true
  · rw [if_pos hsimd]
    split_ifs
    · rfl
    · rw [Ptr.read_some hp.ge, take_of_length_le hp.le]
      exact isSome_of_eq_some (memdbgSimdFindExact_eq env.build hvl hp plan.simdMax)
  · rw [if_neg hsimd]
    exact testedHits_isSome (fun j => streamCompare_isSome hp.ge) _

theorem scanLoop_isSome (hvl : 0 < plan.vlen) (hp : p.length = plan.vlen)
    (fuel addr remaining : Nat) (buf : List UInt8) (sink : Sink) :
    (scanLoop env req plan (some p) mask none fuel addr remaining buf sink).isSome = true := by
  induction fuel generalizing addr remaining buf sink with
  | zero => rfl
  | succ fuel ih =>
    rw [scanLoop]
    by_cases hpos : remaining > 0
    · rw [if_pos hpos]
      dsimp only
      generalize (if remaining > plan.chunkSize then plan.chunkSize else remaining) = toRead
      obtain ⟨offs, hoffs⟩ := isSome_iff_exists.mp (chunkHits_isSome env mask hvl hp
        req.compareType (readChunk env addr toRead buf).1 toRead)
      rw [hoffs]
      simp only [bind_eq_bind, bind_some]
      split
      · rfl
      · exact ih _ _ _ _
    · rw [if_neg hpos]
      rfl

theorem scanRangeStream_isSome (hvl : 0 < plan.vlen) (hp : p.length = plan.vlen)
    (scanAddr scanLen : Nat) (buf : List UInt8) (sink : Sink) :
    (scanRangeStream env req plan (some p) mask none scanAddr scanLen buf sink).isSome = true := by
  rw [scanRangeStream, isSome_map]
  exact scanLoop_isSome hvl hp _ _ _ _ _

theorem parallelResults_isSome (hvl : 0 < plan.vlen) (hp : p.length = plan.vlen)
    (spans : List (Nat × Nat)) (i : Nat) :
    (parallelResults env req plan (some p) mask none spans i).isSome = true := by
  induction spans generalizing i with
  | nil => rfl
  | cons span rest ih =>
    obtain ⟨addr, len⟩ := span
    have hstream : (scanRangeStream env req plan (some p) mask none addr len (env.fresh i)
        (.session (parallelSession req plan.vlen))).isSome = true :=
      scanRangeStream_isSome hvl hp addr len (env.fresh i) _
    obtain ⟨result, hresult⟩ := isSome_iff_exists.mp hstream
    obtain ⟨others, hothers⟩ := isSome_iff_exists.mp (ih (i + 1))
    rw [parallelResults, hresult, hothers]
    rfl

theorem flashscanParallelStream_isSome (hvl : 0 < plan.vlen) (hp : p.length = plan.vlen) :
    (flashscanParallelStream env req plan (some p) mask none).isSome = true := by
  unfold flashscanParallelStream
  cases parallelStart env req plan with
  | none => rfl
  | some spans =>
    rw [isSome_map]
    exact @parallelResults_isSome env req { plan with simdOk := true } p mask hvl hp spans 1

end Stream

/-! ### Streams and a `NULL` pattern -/

variable {plan : ScanPlan}

theorem chunkHits_null (hsimd : plan.simdOk = false) (env : FsEnv) (mask : Ptr)
    (compareType : Nat) (src : List UInt8) (toRead : Nat) :
    chunkHits env plan compareType none mask none src toRead = none := by
  rw [chunkHits, if_neg (by rw [hsimd]; exact Bool.false_ne_true)]
  dsimp only
  rw [positions, range_succ_eq_map, map_cons, testedHits, streamCompare_null]
  rfl

theorem scanRangeStream_null (hsimd : plan.simdOk = false) (env : FsEnv)
    (req : StartRequest) (mask : Ptr) (scanAddr : Nat) {scanLen : Nat} (hlen : 0 < scanLen)
    (buf : List UInt8) (sink : Sink) :
    scanRangeStream env req plan none mask none scanAddr scanLen buf sink = none := by
  rw [scanRangeStream]
  cases scanLen with
  | zero => cases hlen
  | succ n =>
    rw [scanLoop, if_pos hlen]
    dsimp only
    rw [chunkHits_null hsimd]
    rfl

theorem flashscanParallelStream_of_not_simd (hsimd : plan.simdOk = false)
    (env : FsEnv) (req : StartRequest) (pattern mask betweenHi : Ptr) :
    flashscanParallelStream env req plan pattern mask betweenHi = some (false, []) := by
  have hnone : parallelStart env req plan = none := by
    rw [parallelStart, if_pos]
    rw [hsimd, Bool.not_false, Bool.or_true, Bool.true_or]
  rw [flashscanParallelStream, hnone]

theorem simdOk_scanPlan {req : StartRequest} {mask : Ptr}
    (hneeds : needsData req.compareType = false) : (scanPlan env req mask).simdOk = false := by
  have hne : req.compareType ≠ 0 := fun h => by
    rw [h] at hneeds
    exact absurd hneeds (by decide)
  rw [scanPlan]
  rw [decide_eq_false hne, Bool.false_and, Bool.false_and, Bool.false_and]

/-! ## Requests -/

def QuickscanCommand.compareType : QuickscanCommand → Nat
  | start req => req.compareType
  | count req _ => req.compareType

/-- `dispatch_packet` hands the request to its handler. -/
def QuickscanCommand.Accepted (data : List UInt8) : QuickscanCommand → Prop
  | start req => paramsValid req.pid req.compareType req.valueLength = true ∧
      qsSnapSegments req.requestFlags = false ∧
      (bodyPointers req.compareType req.valueLength req.valueType data).isSome = true
  | count req _ => paramsValid req.pid req.compareType req.valueLength = true ∧
      (bodyPointers req.compareType req.valueLength req.valueType data).isSome = true

/-- No value is compared: the request is for a snapshot or an empty range, or the session has
none of its length, none that survives, or none that is stored. -/
def QuickscanCommand.Uncompared : QuickscanCommand → Prop
  | start req => qsSnapshot req.requestFlags = true ∨ req.length = 0
  | count req session => qsServerKeep req.requestFlags = true ∧
      match session with
      | .free => True
      | .snapshot s => s.valueLen = req.valueLength →
          ¬s.Compares req.valueLength (qsParallel req.requestFlags)
      | .list s => s.valueLen = req.valueLength → s.records = []

/-- Whatever happens, the handler reads no byte outside the body. -/
def QuickscanCommand.Inside (data : List UInt8) (cmd : QuickscanCommand) : Prop :=
  ∀ env chunks r, dispatchQuickscan env chunks data cmd = .ok r → r.isSome = true

theorem paramsValid_iff {pid : Int} {compareType valueLength : Nat} :
    paramsValid pid compareType valueLength = true ↔
      1 < pid ∧ compareType ≤ 12 ∧ valueLength ≠ 0 ∧ valueLength ≤ 16 := by
  rw [paramsValid, Bool.and_eq_true, Bool.and_eq_true, Bool.and_eq_true, decide_eq_true_iff,
    decide_eq_true_iff, decide_eq_true_iff, decide_eq_true_iff, and_assoc, and_assoc]

theorem bodyPointers_some {compareType valueLength : Nat} {valueType : ValueType}
    {data : List UInt8} {compareData mask : Ptr}
    (h : bodyPointers compareType valueLength valueType data = some (compareData, mask)) :
    compareData = (if needsData compareType then some data else none) ∧
      (needsData compareType = true → valueLength ≤ data.length) := by
  rw [bodyPointers, bodyLengths] at h
  dsimp only at h
  generalize hlen : (if needsData compareType = true then
    valueLength * if compareType = 4 then 2 else 1 else 0) = compareLen at h
  generalize (if valueType = .aob then valueLength else 0) = maskLen at h
  split at h
  · cases h
  · rename_i hfits
    rw [not_or] at hfits
    cases h
    refine ⟨rfl, fun hneeds => ?_⟩
    rw [if_pos hneeds, if_neg (needsData_ne_four hneeds), Nat.mul_one] at hlen
    rw [hlen]
    exact Nat.not_lt.mp hfits.1

/-! ### START -/

section

variable {env : FsEnv} {req : StartRequest} {compareData mask : Ptr}

theorem vlen_scanPlan (hvlen : req.valueLength ≠ 0) :
    (scanPlan env req mask).vlen = req.valueLength :=
  if_neg hvlen

theorem startStream_isSome {pattern betweenHi : Ptr}
    (hpar : (flashscanParallelStream env req plan pattern mask betweenHi).isSome = true)
    (hstream : ∀ sink, (scanRangeStream env req plan pattern mask betweenHi req.address req.length
      (env.fresh 0) sink).isSome = true) :
    (startStream env req plan pattern mask betweenHi).isSome = true := by
  obtain ⟨⟨handled, sent⟩, hparallel⟩ := isSome_iff_exists.mp hpar
  obtain ⟨result, hresult⟩ := isSome_iff_exists.mp (hstream (.stream [] []))
  rw [startStream, hparallel]
  simp only [bind_eq_bind, bind_some]
  cases handled with
  | true => rfl
  | false =>
    rw [if_neg Bool.false_ne_true, hresult]
    cases result <;> rfl

theorem flashscanHandleStart_isSome {pattern : Ptr}
    (hpattern : startPattern req (scanPlan env req mask).vlen compareData = some pattern)
    (hpar : ∀ betweenHi, betweenHi = (if req.compareType = 4 ∧ pattern.isSome then
        pattern.advance (scanPlan env req mask).vlen else none) →
      (flashscanParallelStream env req (scanPlan env req mask) pattern mask
        betweenHi).isSome = true ∧
      ∀ sink, (scanRangeStream env req (scanPlan env req mask) pattern mask betweenHi req.address
        req.length (env.fresh 0) sink).isSome = true) :
    (flashscanHandleStart env req compareData mask).isSome = true := by
  rw [flashscanHandleStart]
  rw [hpattern]
  simp only [bind_eq_bind, bind_some]
  obtain ⟨hparallel, hstream⟩ := hpar _ rfl
  generalize (if req.compareType = 4 ∧ pattern.isSome then
    pattern.advance (scanPlan env req mask).vlen else none) = betweenHi at hparallel hstream ⊢
  have hstart := startStream_isSome hparallel hstream
  split
  · rfl
  split
  · rfl
  split
  · rfl
  split
  · split
    · rfl
    · rfl
  split
  · exact hstart
  · rename_i s _
    obtain ⟨result, hresult⟩ := isSome_iff_exists.mp (hstream (.session s))
    rw [hresult]
    simp only [bind_some]
    split
    · rfl
    · exact hstart


theorem flashscanHandleStart_isSome_of_needs {data : List UInt8}
    (hneeds : needsData req.compareType = true) (hvlen : req.valueLength ≠ 0)
    (hdata : req.valueLength ≤ data.length) :
    (flashscanHandleStart env req (some data) mask).isSome = true := by
  have hne : req.compareType ≠ 4 := needsData_ne_four hneeds
  have hplan : (scanPlan env req mask).vlen = req.valueLength := vlen_scanPlan hvlen
  have hpos : 0 < (scanPlan env req mask).vlen := by
    rw [hplan]
    exact Nat.pos_of_ne_zero hvlen
  have hlen : (data.take (scanPlan env req mask).vlen).length = (scanPlan env req mask).vlen := by
    rw [hplan, length_take, Nat.min_eq_left hdata]
  have hpattern : startPattern req (scanPlan env req mask).vlen (some data) =
      some (some (data.take (scanPlan env req mask).vlen)) := by
    rw [startPattern, if_pos hneeds, if_neg hne, Nat.mul_one, hplan, Ptr.read_some hdata]
    rfl
  refine flashscanHandleStart_isSome hpattern fun betweenHi hhi => ?_
  rw [if_neg fun h => hne h.1] at hhi
  subst hhi
  exact ⟨flashscanParallelStream_isSome hpos hlen, scanRangeStream_isSome hpos hlen _ _ _⟩

theorem flashscanHandleStart_isSome_of_snapshot (hneeds : needsData req.compareType = false)
    (hsnapshot : qsSnapshot req.requestFlags = true) :
    (flashscanHandleStart env req compareData mask).isSome = true := by
  have hpattern : startPattern req (scanPlan env req mask).vlen compareData = some none :=
    if_neg (by rw [hneeds]; exact Bool.false_ne_true)
  rw [flashscanHandleStart]
  rw [hpattern]
  simp only [bind_eq_bind, bind_some, if_pos hsnapshot]
  split
  · rfl
  split
  · rfl
  split
  · rfl
  · split <;> rfl

theorem flashscanHandleStart_isSome_of_empty (hneeds : needsData req.compareType = false)
    (hlength : req.length = 0) : (flashscanHandleStart env req compareData mask).isSome = true := by
  have hpattern : startPattern req (scanPlan env req mask).vlen compareData = some none :=
    if_neg (by rw [hneeds]; exact Bool.false_ne_true)
  refine flashscanHandleStart_isSome hpattern fun betweenHi _ => ⟨?_, fun sink => ?_⟩
  · rw [flashscanParallelStream_of_not_simd (simdOk_scanPlan hneeds)]
    rfl
  · rw [hlength]
    rfl

theorem flashscanHandleStart_null (hneeds : needsData req.compareType = false)
    (hvlen : req.valueLength ≠ 0) (hle : req.valueLength ≤ 16)
    (hsnapshot : qsSnapshot req.requestFlags = false) (hlength : 0 < req.length) :
    flashscanHandleStart (calmEnv none) req none mask = none := by
  have hsimd : (scanPlan (calmEnv none) req mask).simdOk = false := simdOk_scanPlan hneeds
  have hplan : (scanPlan (calmEnv none) req mask).vlen = req.valueLength := vlen_scanPlan hvlen
  have hpattern : startPattern req (scanPlan (calmEnv none) req mask).vlen none = some none :=
    if_neg (by rw [hneeds]; exact Bool.false_ne_true)
  have hbetween : (if req.compareType = 4 ∧ (none : Ptr).isSome = true then
      Ptr.advance none (scanPlan (calmEnv none) req mask).vlen else none) = none :=
    if_neg fun h => Bool.false_ne_true h.2
  have hstream (sink : Sink) : scanRangeStream (calmEnv none) req (scanPlan (calmEnv none) req mask)
      none mask none req.address req.length ((calmEnv none).fresh 0) sink = none :=
    scanRangeStream_null hsimd _ _ _ _ hlength _ _
  rw [flashscanHandleStart]
  rw [if_neg (by rw [hplan]; exact Nat.not_lt.mpr hle), hneeds, Bool.false_and,
    if_neg Bool.false_ne_true, hpattern]
  simp only [bind_eq_bind, bind_some]
  rw [if_neg (by decide), hsnapshot, if_neg Bool.false_ne_true, hbetween, startStream,
    flashscanParallelStream_of_not_simd hsimd]
  simp only [hstream, bind_eq_bind, bind_some, bind_none, Bool.false_eq_true,
    if_false]
  split <;> rfl

end

/-! ### COUNT -/

section

variable {req : CountRequest} {data : List UInt8} {mask : Ptr}

theorem countArgs_supplied (hneeds : needsData req.compareType = true)
    (hdata : req.valueLength ≤ data.length) :
    (countArgs req req.valueLength (some data) mask).Supplied where
  needs := hneeds
  pattern := ⟨data, rfl, hdata⟩
  betweenHi := if_neg fun h => needsData_ne_four hneeds h.1
  includesPrev h3 := by
    have h3 : req.compareType = 3 := h3
    rw [countArgs, h3]
    rfl

theorem countArgs_null (hle : req.compareType ≤ 12) (hneeds : needsData req.compareType = false) :
    (countArgs req req.valueLength none mask).Null where
  le := hle
  needs := hneeds
  pattern := rfl
  betweenHi := if_neg fun h => Bool.false_ne_true h.2

theorem listRescan_null (h : args.Null)
    (halloc : env.alloc .rescanList = true) {s : ListSession} (hrecords : s.records ≠ []) :
    listRescan env args s = none := by
  obtain ⟨r, rest, hcons⟩ := exists_cons_of_ne_nil hrecords
  rw [listRescan, if_pos halloc, hcons, listRescanLoop, listCompare_null h]
  rfl

theorem listRescan_isSome {s : ListSession}
    (h : args.Supplied ∨ s.records = []) (env : FsEnv) : (listRescan env args s).isSome = true := by
  have hloop : (listRescanLoop env args s s.records 0 ⟨0, 0, []⟩ []).isSome = true := by
    rcases h with h | h
    · exact listRescanLoop_isSome h env s _ _ _ _
    · rw [h]
      rfl
  obtain ⟨out, hout⟩ := isSome_iff_exists.mp hloop
  rw [listRescan, hout]
  split <;> rfl

theorem countStream_null (h : args.Null) (env : FsEnv) (req : CountRequest)
    {chunk : List UInt8} (hsize : chunk.length ≤ 0x40000)
    (hentry : entryOffsets args.vlen chunk ≠ [])
    (rest : List (List UInt8)) : countStream env req args (chunk :: rest) = none := by
  obtain ⟨off, offs, hcons⟩ := exists_cons_of_ne_nil hentry
  rw [countStream, if_neg (Nat.not_lt.mpr hsize), hcons, streamRescanLoop, h.pattern]
  rfl

theorem flashscanHandleCount_isSome {session : Session} {compareData : Ptr}
    (hvlen : req.valueLength ≠ 0)
    (h : (countArgs req req.valueLength compareData mask).Supplied ∨
      (QuickscanCommand.count req session).Uncompared)
    (env : FsEnv) (chunks : List (List UInt8)) :
    (flashscanHandleCount env req compareData mask session chunks).isSome = true := by
  simp only [flashscanHandleCount, if_neg hvlen]
  by_cases hlarge : req.valueLength > 0x1000
  · rw [if_pos hlarge]
    rfl
  rw [if_neg hlarge]
  by_cases hkeep : qsServerKeep req.requestFlags = true
  · rw [if_pos hkeep]
    cases session with
    | free => rfl
    | snapshot s =>
      dsimp only
      by_cases hlength : s.valueLen = req.valueLength
      · rw [if_neg (not_not.mpr hlength), isSome_map]
        have hshut : (countArgs req req.valueLength compareData mask).Supplied ∨
            ¬s.Compares req.valueLength (qsParallel req.requestFlags) :=
          h.imp_right fun h => h.2 hlength
        by_cases hparallel : qsParallel req.requestFlags = true
        · rw [if_pos hparallel]
          rw [hparallel] at hshut
          exact snapshotRescanParallel_isSome hshut env
        · rw [if_neg hparallel]
          exact snapshotRescan_isSome (hshut.imp_right fun h ho => h (.inl ho)) env
      · rw [if_pos hlength]
        rfl
    | list s =>
      dsimp only
      by_cases hlength : s.valueLen = req.valueLength
      · rw [if_neg (not_not.mpr hlength), isSome_map]
        exact listRescan_isSome (h.imp_right fun h => h.2 hlength) env
      · rw [if_pos hlength]
        rfl
  · rw [if_neg hkeep]
    split
    · rfl
    · rw [isSome_map]
      rcases h with h | h
      · exact countStream_isSome h env req chunks
      · exact absurd h.1 hkeep

theorem entryOffsets_ne_nil {vlen : Nat} {entry : List UInt8} (h : entry.length = 4 + vlen) :
    entryOffsets vlen entry ≠ [] := by
  have hrecords : records (4 + vlen) [entry].flatten = [entry] :=
    records_flatten (by omega) fun r hr => by rw [mem_singleton.mp hr, h]
  rw [flatten_singleton] at hrecords
  rw [entryOffsets, hrecords]
  exact cons_ne_nil _ _

theorem flashscanHandleCount_null {session : Session} (hle : req.compareType ≤ 12)
    (hneeds : needsData req.compareType = false) (hvlen : req.valueLength ≠ 0)
    (hlen : req.valueLength ≤ 16) (h : ¬(QuickscanCommand.count req session).Uncompared) :
    ∃ env chunks, flashscanHandleCount env req none mask session chunks = none := by
  have hnull : (countArgs req req.valueLength none mask).Null := countArgs_null hle hneeds
  have hsmall : ¬req.valueLength > 0x1000 := by omega
  simp only [flashscanHandleCount, if_neg hvlen, if_neg hsmall]
  by_cases hkeep : qsServerKeep req.requestFlags = true
  · simp only [if_pos hkeep]
    cases session with
    | free => exact absurd ⟨hkeep, trivial⟩ h
    | snapshot s =>
      obtain ⟨hlength, hcompares⟩ : s.valueLen = req.valueLength ∧
          s.Compares req.valueLength (qsParallel req.requestFlags) := by
        by_contra hshut
        exact h ⟨hkeep, fun hlength hcompares => hshut ⟨hlength, hcompares⟩⟩
      have hvlen8 : req.valueLength ≤ 8 := hlength ▸ s.valueLen_le
      simp only [if_neg (not_not.mpr hlength)]
      by_cases hparallel : qsParallel req.requestFlags = true
      · rw [hparallel] at hcompares
        obtain ⟨env, henv⟩ := snapshotRescanParallel_null hnull hvlen8 hcompares
        exact ⟨env, [], by rw [if_pos hparallel, henv]; rfl⟩
      · rcases hcompares with hopens | ⟨hpar, -⟩
        · refine ⟨calmEnv none, [], ?_⟩
          rw [if_neg hparallel, snapshotRescan_null hnull hvlen8 (calmEnv_obliging none) hopens]
          rfl
        · exact absurd hpar hparallel
    | list s =>
      obtain ⟨hlength, hrecords⟩ : s.valueLen = req.valueLength ∧ s.records ≠ [] := by
        by_contra hshut
        exact h ⟨hkeep, fun hlength => not_not.mp fun hrecords => hshut ⟨hlength, hrecords⟩⟩
      refine ⟨calmEnv none, [], ?_⟩
      dsimp only
      rw [if_neg (not_not.mpr hlength), listRescan_null hnull rfl hrecords]
      rfl
  · -- the client streams one entry
    refine ⟨calmEnv none, [List.replicate (4 + req.valueLength) 0], ?_⟩
    rw [if_neg hkeep, if_neg (by decide), countStream_null hnull]
    · rfl
    · rw [length_replicate]
      omega
    · exact entryOffsets_ne_nil length_replicate

end

/-! ### Accepted requests -/

theorem QuickscanCommand.inside_start_iff {data : List UInt8} {req : StartRequest}
    (h : (start req).Accepted data) : (start req).Inside data ↔
      needsData req.compareType = true ∨ (start req).Uncompared := by
  obtain ⟨hparams, hsegments, hpointers⟩ := h
  obtain ⟨⟨compareData, mask⟩, hbody⟩ := isSome_iff_exists.mp hpointers
  obtain ⟨-, -, hvlen, hle⟩ := paramsValid_iff.mp hparams
  obtain ⟨rfl, hdata⟩ := bodyPointers_some hbody
  have hdispatch (env : FsEnv) (chunks : List (List UInt8)) :
      dispatchQuickscan env chunks data (start req) = .ok ((flashscanHandleStart env req
        (if needsData req.compareType = true then some data else none) mask).map .inl) := by
    simp only [dispatchQuickscan, hparams, hsegments, hbody]
    rfl
  constructor
  · intro hinside
    by_contra hnot
    obtain ⟨hneeds, hcompared⟩ := not_or.mp hnot
    obtain ⟨hsnapshot, hlength⟩ := not_or.mp hcompared
    rw [Bool.not_eq_true] at hneeds hsnapshot
    have hsome := hinside (calmEnv none) [] _ (hdispatch _ _)
    rw [if_neg (by rw [hneeds]; exact Bool.false_ne_true),
      flashscanHandleStart_null hneeds hvlen hle
      hsnapshot (Nat.pos_of_ne_zero hlength)] at hsome
    cases hsome
  · intro hsafe env chunks r hr
    rw [hdispatch] at hr
    cases hr
    rw [isSome_map]
    by_cases hneeds : needsData req.compareType = true
    · rw [if_pos hneeds]
      exact flashscanHandleStart_isSome_of_needs hneeds hvlen (hdata hneeds)
    · rcases hsafe.resolve_left hneeds with hsnapshot | hlength
      · exact flashscanHandleStart_isSome_of_snapshot (Bool.not_eq_true _ ▸ hneeds) hsnapshot
      · exact flashscanHandleStart_isSome_of_empty (Bool.not_eq_true _ ▸ hneeds) hlength

theorem QuickscanCommand.inside_count_iff {data : List UInt8} {req : CountRequest}
    {session : Session} (h : (count req session).Accepted data) : (count req session).Inside data ↔
      needsData req.compareType = true ∨ (count req session).Uncompared := by
  obtain ⟨hparams, hpointers⟩ := h
  obtain ⟨⟨compareData, mask⟩, hbody⟩ := isSome_iff_exists.mp hpointers
  obtain ⟨-, htype, hvlen, hle⟩ := paramsValid_iff.mp hparams
  obtain ⟨rfl, hdata⟩ := bodyPointers_some hbody
  have hdispatch (env : FsEnv) (chunks : List (List UInt8)) :
      dispatchQuickscan env chunks data (count req session) = .ok ((flashscanHandleCount env req
        (if needsData req.compareType = true then some data else none) mask session chunks).map
          .inr) := by
    simp only [dispatchQuickscan, hparams, hbody]
    rfl
  constructor
  · intro hinside
    by_contra hnot
    obtain ⟨hneeds, hcompared⟩ := not_or.mp hnot
    rw [Bool.not_eq_true] at hneeds
    obtain ⟨env, chunks, hnull⟩ : ∃ env chunks,
        flashscanHandleCount env req none mask session chunks = none :=
      flashscanHandleCount_null htype hneeds hvlen hle hcompared
    have hsome := hinside env chunks _ (hdispatch _ _)
    rw [if_neg (by rw [hneeds]; exact Bool.false_ne_true), hnull] at hsome
    cases hsome
  · intro hsafe env chunks r hr
    rw [hdispatch] at hr
    cases hr
    rw [isSome_map]
    refine flashscanHandleCount_isSome hvlen (hsafe.imp_left fun hneeds => ?_) env chunks
    rw [if_pos hneeds]
    exact countArgs_supplied hneeds (hdata hneeds)

/-- An accepted request is compared inside its body exactly if its compare type comes with
compare data, or nothing is compared. -/
theorem QuickscanCommand.inside_iff {cmd : QuickscanCommand} {data : List UInt8}
    (h : cmd.Accepted data) :
    cmd.Inside data ↔ needsData cmd.compareType = true ∨ cmd.Uncompared := by
  cases cmd with
  | start req => exact inside_start_iff h
  | count req session => exact inside_count_iff h

def sixteenBytes (compareType : Nat) : StartRequest := ⟨2, .u32, compareType, 4, 4, 0, 0x10000, 16⟩

theorem accepted_sixteenBytes_exact :
    (QuickscanCommand.start (sixteenBytes 0)).Accepted [1, 0, 0, 0] :=
  ⟨by decide, by decide, by decide⟩

theorem accepted_sixteenBytes_between : (QuickscanCommand.start (sixteenBytes 4)).Accepted [] :=
  ⟨by decide, by decide, by decide⟩

theorem inside_exact : (QuickscanCommand.start (sixteenBytes 0)).Inside [1, 0, 0, 0] :=
  (QuickscanCommand.inside_iff accepted_sixteenBytes_exact).mpr (.inl (by decide))

theorem not_inside_between :
    ¬ ∀ (cmd : QuickscanCommand) (data : List UInt8), cmd.Accepted data → cmd.Inside data := by
  intro h
  have hinside := h _ _ accepted_sixteenBytes_between
  have hnull : dispatchQuickscan (calmEnv none) [] [] (.start (sixteenBytes 4)) = .ok none := by
    rfl
  have hsome := hinside _ _ _ hnull
  cases hsome

end MemDbg.FlashScan
