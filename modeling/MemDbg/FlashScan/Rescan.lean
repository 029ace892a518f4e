import MemDbg.FlashScan.Bitmap

/-!
# Rescanning a session

A COUNT request compares the survivors of a session with the memory of now.  Near
survivors are read in one window.
-/

namespace MemDbg.FlashScan

open List Lib Scan

structure CompareArgs where
  compareType : Nat
  vlen : Nat
  pattern : Ptr
  mask : Ptr
  betweenHi : Ptr
  includesPrev : Bool

def flashscanWindowRead (env : FsEnv) (winStart readSize : Nat) : List UInt8 :=
  if rescanAliasMin ≤ readSize ∧ (env.aliasTail winStart readSize).isSome then
    slice env.mem winStart readSize
  else env.memoryRead winStart readSize

/-! ## Snapshots -/

def coalesceSlots (s : SnapshotSession) (vlen chunkEnd winStart : Nat) :
    Nat → Nat → Nat → Nat → Nat × Nat
  | 0, _, covered, last => (covered, last)
  | fuel + 1, j, covered, last =>
    if j < chunkEnd then
      let na := slotToAddr s j
      let gap := if na > covered then na - covered else 0
      let ne := wrap64 (na + vlen)
      if gap > rescanGapMax then (covered, last)
      else if sub64 ne winStart > rescanWinCap then (covered, last)
      else coalesceSlots s vlen chunkEnd winStart fuel
        (bitmapNextSet s.bitmap (j + 1) chunkEnd) ne j
    else (covered, last)

structure WindowState where
  s : SnapshotSession
  baseline : List UInt8
  dirty : Bool
  survivors : Nat

def WindowState.keep (w : WindowState) (env : FsEnv) (vlen i k : Nat) (mem : List UInt8) :
    WindowState :=
  let base := (w.baseline.drop ((k - i) * vlen)).take vlen
  { s := if w.s.hasPrev then
        { w.s with prevFile := (pwriteAll env w.s.prevFile base (k * vlen)).2 }
      else w.s
    baseline := overwrite w.baseline ((k - i) * vlen) mem
    dirty := true
    survivors := w.survivors + 1 }

def WindowState.drop (w : WindowState) (k : Nat) : WindowState :=
  { w with s := { w.s with bitmap := bitmapClear w.s.bitmap k } }

def compareWindow (env : FsEnv) (args : CompareArgs) (win : List UInt8)
    (chunkEnd winStart i last : Nat) : Nat → Nat → WindowState → Option WindowState
  | 0, _, w => some w
  | fuel + 1, k, w =>
    if k ≤ last then
      let addr := slotToAddr w.s k
      let mem := (win.drop (sub64 addr winStart)).take args.vlen
      let base := (w.baseline.drop ((k - i) * args.vlen)).take args.vlen
      let prev := if args.includesPrev then some base else args.betweenHi
      do
        let matched ← snapCompare mem args.pattern prev args.mask args.betweenHi args.compareType
          args.vlen
        let w := if matched then w.keep env args.vlen i k mem else w.drop k
        compareWindow env args win chunkEnd winStart i last fuel
          (bitmapNextSet w.s.bitmap (k + 1) chunkEnd) w
    else some w

def WindowState.store (w : WindowState) (env : FsEnv) (off : Nat) (buffered : Bool) :
    SnapshotSession :=
  if buffered then if w.dirty then snapshotStoreWrite env w.s w.baseline off else w.s
  else { w.s with snapRam := overwrite w.s.snapRam off w.baseline }

def rescanLoop (env : FsEnv) (args : CompareArgs) (chunkEnd : Nat) :
    Nat → Nat → Nat → SnapshotSession → Option (Nat × SnapshotSession)
  | 0, _, survivors, s => some (survivors, s)
  | fuel + 1, i, survivors, s =>
    if i < chunkEnd then
      if env.cancelled i then some (survivors, s)
      else
        let winStart := slotToAddr s i
        let (covered, last) := coalesceSlots s args.vlen chunkEnd winStart chunkEnd
          (bitmapNextSet s.bitmap (i + 1) chunkEnd) (wrap64 (winStart + args.vlen)) i
        let win := flashscanWindowRead env winStart (sub64 covered winStart)
        let off := i * args.vlen
        let len := (last - i + 1) * args.vlen
        let buffered : Bool := off + len > s.snapRam.length
        match if buffered then snapshotStoreRead env s off len
            else some ((s.snapRam.drop off).take len) with
        | none => some (survivors, s)
        | some baseline => do
          let w ← compareWindow env args win chunkEnd winStart i last chunkEnd i
            ⟨s, baseline, false, survivors⟩
          let s := w.store env off buffered
          rescanLoop env args chunkEnd fuel (bitmapNextSet s.bitmap (last + 1) chunkEnd)
            w.survivors s
    else some (survivors, s)

def snapshotRescan (env : FsEnv) (args : CompareArgs) (s : SnapshotSession) :
    Option (Nat × SnapshotSession) :=
  if s.slotCount = 0 then some (0, { s with survivorCount := 0 })
  else do
    let (survivors, s') ← rescanLoop env args s.slotCount s.slotCount
      (bitmapNextSet s.bitmap 0 s.slotCount) 0 s
    some (survivors, { s' with survivorCount := survivors })

def rescanWorkerThread (env : FsEnv) (args : CompareArgs) (worker chunkStart chunkEnd : Nat)
    (s : SnapshotSession) : Option (Nat × SnapshotSession) :=
  if env.workerBuffers worker then
    rescanLoop env args chunkEnd chunkEnd (bitmapNextSet s.bitmap chunkStart chunkEnd) 0 s
  else some (0, s)

def parallelWorkers : Nat := 4

def rescanWorkers (env : FsEnv) (args : CompareArgs) (n chunkSize : Nat) :
    List Nat → Nat → SnapshotSession → Option (Nat × SnapshotSession)
  | [], total, s => some (total, s)
  | w :: ws, total, s => do
    let chunkEnd := if w + 1 = parallelWorkers then n else (w + 1) * chunkSize
    let (survivors, s) ← rescanWorkerThread env args w (w * chunkSize) chunkEnd s
    rescanWorkers env args n chunkSize ws (total + survivors) s

def rescanFallback (env : FsEnv) (args : CompareArgs) (s : SnapshotSession) :
    Option (Nat × SnapshotSession) :=
  if env.alloc .rescanRead && env.alloc .rescanBaseline then snapshotRescan env args s
  else some (0, { s with survivorCount := 0 })

def snapshotRescanParallel (env : FsEnv) (args : CompareArgs) (s : SnapshotSession) :
    Option (Nat × SnapshotSession) :=
  let n := s.slotCount
  if n = 0 then some (0, { s with survivorCount := 0 })
  else if n < parallelWorkers * 64 then rescanFallback env args s
  else if env.alloc .rescanWorkers = false then rescanFallback env args s
  else do
    let chunkSize := (n + parallelWorkers - 1) / parallelWorkers
    let (total, s) ← rescanWorkers env args n chunkSize (List.range parallelWorkers) 0 s
    some (total, { s with survivorCount := total })

/-! ## Lists and streams -/

def extendWindow (vlen winStart : Nat) : List Nat → Nat → Nat
  | [], covered => covered
  | na :: rest, covered =>
    let gap := if na > covered then na - covered else 0
    let ne := wrap64 (na + vlen)
    if gap > rescanGapMax then covered
    else if sub64 ne winStart > rescanWinCap then covered
    else extendWindow vlen winStart rest (if ne > covered then ne else covered)

structure Window where
  start : Nat
  stop : Nat
  bytes : List UInt8

def Window.seek (w : Window) (env : FsEnv) (vlen addr : Nat) (rest : List Nat) : Window :=
  if addr < w.start ∨ wrap64 (addr + vlen) > w.stop then
    let covered := extendWindow vlen addr rest (wrap64 (addr + vlen))
    let size := sub64 covered addr
    ⟨addr, wrap64 (addr + size), flashscanWindowRead env addr size⟩
  else w

def Window.value (w : Window) (vlen addr : Nat) : List UInt8 :=
  (w.bytes.drop (sub64 addr w.start)).take vlen

def listCompare (mem : List UInt8) (args : CompareArgs) : Option Bool := do
  let matched ← comparePattern (· == .eq) mem args.pattern args.vlen
  if args.compareType = 4 ∧ args.betweenHi.isSome then
    compareBetween mem args.pattern args.betweenHi args.vlen
  else some matched

def ListSession.survivor (s : ListSession) (r : ListRecord) (i newCount : Nat)
    (mem : List UInt8) : ListRecord where
  addr := r.addr
  value := mem
  prev := if s.hasPrev then if newCount = i then mem else r.value else r.prev
  first := r.first

def listRescanLoop (env : FsEnv) (args : CompareArgs) (s : ListSession) :
    List ListRecord → Nat → Window → List ListRecord → Option (List ListRecord)
  | [], _, _, out => some out
  | r :: rest, i, win, out => do
    let win := win.seek env args.vlen r.addr (rest.map ListRecord.addr)
    let mem := win.value args.vlen r.addr
    let matched ← listCompare mem args
    listRescanLoop env args s rest (i + 1) win
      (if matched then out ++ [s.survivor r i out.length mem] else out)

def listRescan (env : FsEnv) (args : CompareArgs) (s : ListSession) :
    Option (Nat × ListSession) :=
  if env.alloc .rescanList then do
    let out ← listRescanLoop env args s s.records 0 ⟨0, 0, []⟩ []
    some (out.length, { s with records := out })
  else some (0, { s with records := [] })

def streamRescanLoop (env : FsEnv) (args : CompareArgs) (baseAddress : Nat) :
    List Nat → Window → List (Nat × List UInt8) → Option (List (Nat × List UInt8))
  | [], _, out => some out
  | eoff :: rest, win, out => do
    let addr := wrap64 (baseAddress + eoff)
    let win := win.seek env args.vlen addr (rest.map fun off => wrap64 (baseAddress + off))
    let mem := win.value args.vlen addr
    let matched ← comparePattern (· == .eq) mem args.pattern args.vlen
    streamRescanLoop env args baseAddress rest win (if matched then out ++ [(eoff, mem)] else out)

/-! ## Lengths and ranges -/

theorem length_le_overwrite (l : List UInt8) (off : Nat) (src : List UInt8) :
    l.length ≤ (overwrite l off src).length := by
  simp only [overwrite, length_append, length_take, length_replicate,
    length_drop]
  omega

theorem length_preadAll {env : FsEnv} {file bytes : List UInt8} {len off : Nat}
    (h : preadAll env file len off = some bytes) : bytes.length = len := by
  unfold preadAll at h
  split_ifs at h with hread
  cases h
  rw [length_take, length_drop]
  omega

theorem length_snapshotStoreRead {env : FsEnv} {s : SnapshotSession} {off len : Nat}
    {bytes : List UInt8} (h : snapshotStoreRead env s off len = some bytes) :
    bytes.length = len := by
  unfold snapshotStoreRead at h
  split_ifs at h with hfile hram
  · exact length_preadAll h
  · cases h
    rw [length_take, length_drop]
    omega
  · obtain ⟨tail, htail, rfl⟩ := Option.map_eq_some_iff.mp h
    rw [length_append, length_drop, length_preadAll htail]
    omega

def SnapshotSession.stored (s : SnapshotSession) : Nat := s.snapRam.length + s.snapFile.length

theorem isSome_snapshotStoreRead {env : FsEnv} (hread : ∀ off len, env.pread off len = true)
    {s : SnapshotSession} {off len : Nat} (hlen : off + len ≤ s.stored) :
    (snapshotStoreRead env s off len).isSome = true := by
  rw [SnapshotSession.stored] at hlen
  unfold snapshotStoreRead
  split_ifs with hfile hram
  · rw [preadAll, if_pos ⟨hread _ _, by omega⟩]
    rfl
  · rfl
  · dsimp only
    rw [Option.isSome_map, preadAll, if_pos ⟨hread _ _, by omega⟩]
    rfl

theorem coalesceSlots_last {s : SnapshotSession}
    {vlen chunkEnd winStart fuel i j covered last : Nat}
    (hij : i ≤ j) (hilast : i ≤ last) (hlast : last < chunkEnd) {covered' last' : Nat}
    (h : coalesceSlots s vlen chunkEnd winStart fuel j covered last = (covered', last')) :
    i ≤ last' ∧ last' < chunkEnd := by
  induction fuel generalizing j covered last with
  | zero =>
    cases h
    exact ⟨hilast, hlast⟩
  | succ fuel ih =>
    have hstop : (covered, last) = (covered', last') → i ≤ last' ∧ last' < chunkEnd := by
      rintro ⟨⟩
      exact ⟨hilast, hlast⟩
    rw [coalesceSlots] at h
    by_cases hj : j < chunkEnd
    · have hnext : i ≤ bitmapNextSet s.bitmap (j + 1) chunkEnd :=
        le_bitmapNextSet (by omega) (by omega)
      rw [if_pos hj] at h
      by_cases hgap : (if slotToAddr s j > covered then slotToAddr s j - covered else 0) >
          rescanGapMax
      · rw [if_pos hgap] at h
        exact hstop h
      rw [if_neg hgap] at h
      by_cases hcap : sub64 (wrap64 (slotToAddr s j + vlen)) winStart > rescanWinCap
      · rw [if_pos hcap] at h
        exact hstop h
      rw [if_neg hcap] at h
      exact ih hnext hij hj h
    · rw [if_neg hj] at h
      exact hstop h

theorem rescanLoop_of_ge {args : CompareArgs} (env : FsEnv) {chunkEnd i : Nat} (hi : chunkEnd ≤ i)
    (fuel survivors : Nat) (s : SnapshotSession) :
    rescanLoop env args chunkEnd fuel i survivors s = some (survivors, s) := by
  cases fuel with
  | zero => rfl
  | succ fuel => rw [rescanLoop, if_neg (by omega)]

theorem chunkEnd_le {n w : Nat} (hn : parallelWorkers * 64 ≤ n) (hw : w < parallelWorkers) :
    (if w + 1 = parallelWorkers then n
      else (w + 1) * ((n + parallelWorkers - 1) / parallelWorkers)) ≤ n := by
  unfold parallelWorkers at *
  split_ifs with hlast
  · exact le_rfl
  · calc
      (w + 1) * ((n + 4 - 1) / 4) ≤ 3 * ((n + 4 - 1) / 4) := Nat.mul_le_mul_right _ (by omega)
      _ ≤ n := by omega

end MemDbg.FlashScan
