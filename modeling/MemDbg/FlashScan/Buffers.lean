import MemDbg.FlashScan.Server

/-!
# The buffers of snapshots and rescans

The buffers of `snapshot_create` are sized by the step, and what is written to them by the
value length; the buffers of a rescan have a fixed size, and what is written to them is
bounded by the distance of addresses.  Both bounds hold for values that do not overlap.
-/

namespace MemDbg.FlashScan

open List Lib Scan

/-! ## Windows of a snapshot -/

def processedWindows (env : CreateEnv) (req : CreateRequest) : List SnapWindow → List SnapWindow
  | [] => []
  | win :: rest =>
    win :: if win.fits req && win.written env req then processedWindows env req rest else []

def CreateRequest.fills (req : CreateRequest) (env : CreateEnv) : Bool :=
  req.admissible env && !req.crashes env && req.ready env

def CreateRequest.processed (req : CreateRequest) (env : CreateEnv) : List SnapWindow :=
  if req.fills env then processedWindows env req req.windows else []

variable {win : SnapWindow}

theorem segWindows_winSlots {step fuel s0 : Nat} {seg : FsSeg}
    (h : win ∈ segWindows step seg fuel s0) :
    0 < win.winSlots ∧ win.winSlots ≤ seg.nslots ∧
      (win.winSlots ≤ 1 ∨ win.winSlots ≤ chunkSizeFor step / step) := by
  induction fuel generalizing s0 with
  | zero => exact absurd h not_mem_nil
  | succ fuel ih =>
    rw [segWindows] at h
    split at h
    next hlt =>
      rcases mem_cons.mp h with rfl | hrest
      · generalize chunkSizeFor step / step = c
        dsimp only
        split_ifs <;> omega
      · exact ih hrest
    next => exact absurd h not_mem_nil

variable {req : CreateRequest}

theorem mem_of_mem_processedWindows {env : CreateEnv}
    {wins : List SnapWindow} (h : win ∈ processedWindows env req wins) : win ∈ wins := by
  induction wins with
  | nil => exact h
  | cons first rest ih =>
    rw [processedWindows] at h
    rcases mem_cons.mp h with rfl | hrest
    · exact mem_cons_self
    · split at hrest
      next => exact mem_cons_of_mem _ (ih hrest)
      next => exact absurd hrest not_mem_nil

theorem chunkSizeFor_eq {step : Nat} (h : 0 < step) :
    chunkSizeFor step = if step ≤ 0x100000 then 0x100000 / step * step else step := by
  have hmod := Nat.div_add_mod' 0x100000 step
  rw [chunkSizeFor]
  generalize (0x100000 : Nat) = m at hmod ⊢
  by_cases hle : step ≤ m
  · have hpos : 0 < m / step := Nat.div_pos hle h
    have hne : m / step * step ≠ 0 := Nat.mul_ne_zero hpos.ne' h.ne'
    rw [if_pos hle]
    split_ifs <;> omega
  · rw [Nat.div_eq_of_lt (Nat.not_le.mp hle), Nat.zero_mul] at hmod ⊢
    rw [if_neg hle]
    split_ifs <;> omega

theorem chunkSizeFor_div_mul {step : Nat} (h : 0 < step) :
    chunkSizeFor step / step * step = chunkSizeFor step := by
  rw [chunkSizeFor_eq h]
  split
  next => rw [Nat.mul_div_cancel _ h]
  next => rw [Nat.div_self h, Nat.one_mul]

theorem step_le_chunkSizeFor {step : Nat} (h : 0 < step) : step ≤ chunkSizeFor step := by
  rw [chunkSizeFor_eq h]
  split
  next hle => exact Nat.le_mul_of_pos_left step (Nat.div_pos hle h)
  next => exact Nat.le_refl _

theorem chunkSizeFor_le {step : Nat} (h : 0 < step) (hle : step ≤ 0x100000) :
    chunkSizeFor step ≤ 0x100000 := by
  rw [chunkSizeFor_eq h, if_pos hle]
  exact Nat.div_mul_le_self _ _

theorem SnapWindow.fits_of_le {n : Nat} (hpos : 0 < win.winSlots) (hn : win.winSlots ≤ n)
    (hslots : win.winSlots ≤ 1 ∨ win.winSlots ≤ chunkSizeFor req.step / req.step)
    (h : req.vlen ≤ req.step ∨ n * req.vlen ≤ chunkSizeFor req.step) : win.fits req = true := by
  have hstep := req.step_pos
  -- The slots take as many steps as values, and the chunk takes them either way.
  obtain ⟨m, hvlen, hle, hchunk⟩ : ∃ m, req.vlen ≤ m ∧ req.step ≤ m ∧
      win.winSlots * m ≤ chunkSizeFor req.step := by
    rcases Nat.lt_or_ge req.step req.vlen with hlt | hge
    · have hfew : n * req.vlen ≤ chunkSizeFor req.step := h.resolve_left (Nat.not_le.mpr hlt)
      exact ⟨req.vlen, Nat.le_refl _, hlt.le, Nat.le_trans (Nat.mul_le_mul_right _ hn) hfew⟩
    · refine ⟨req.step, hge, Nat.le_refl _, ?_⟩
      rcases hslots with h1 | hc
      · calc
          win.winSlots * req.step ≤ 1 * req.step := Nat.mul_le_mul_right _ h1
          _ ≤ chunkSizeFor req.step := by
            rw [Nat.one_mul]
            exact step_le_chunkSizeFor hstep
      · calc
          win.winSlots * req.step ≤ chunkSizeFor req.step / req.step * req.step :=
            Nat.mul_le_mul_right _ hc
          _ = chunkSizeFor req.step := chunkSizeFor_div_mul hstep
  have hpack : win.winSlots * req.vlen ≤ chunkSizeFor req.step :=
    Nat.le_trans (Nat.mul_le_mul_left _ hvlen) hchunk
  have hread : (win.winSlots - 1) * req.step + req.vlen ≤ chunkSizeFor req.step := by
    obtain ⟨k, hk⟩ := Nat.exists_eq_succ_of_ne_zero hpos.ne'
    rw [hk, Nat.succ_mul] at hchunk
    rw [hk, Nat.succ_sub_one]
    exact Nat.le_trans (Nat.add_le_add (Nat.mul_le_mul_left k hle) hvlen) hchunk
  rw [SnapWindow.fits, decide_eq_true hread, decide_eq_true hpack, Bool.or_true]
  rfl

theorem SnapWindow.not_fits (hlt : req.step < req.vlen)
    (h : chunkSizeFor req.step < win.winSlots * req.vlen) : win.fits req = false := by
  rw [SnapWindow.fits, decide_eq_false (Nat.not_le.mpr h), decide_eq_false (Nat.ne_of_lt hlt)]
  exact Bool.and_false _

/-! ## One segment -/

section

variable {req : CreateRequest} {g : Segment}

theorem CreateRequest.seg_single (hsegs : req.segs = [g]) :
    req.seg = [⟨g.address.toNat, 0, req.slotCount⟩] := by
  have hslots : req.slotCount = g.nslots req.vlen req.step := by
    rw [slotCount, seg, hsegs]
    exact sum_singleton
  rw [hslots, seg, hsegs]
  rfl

theorem CreateRequest.windows_single (hsegs : req.segs = [g]) :
    req.windows =
      segWindows req.step ⟨g.address.toNat, 0, req.slotCount⟩ req.slotCount 0 := by
  rw [windows, seg_single hsegs]
  exact append_nil _

theorem CreateRequest.processed_head {env : CreateEnv} (hsegs : req.segs = [g])
    (hfills : req.fills env = true) : ∃ win ∈ req.processed env,
      win.winSlots = min (chunkSizeFor req.step / req.step) req.slotCount := by
  have hslots : req.slotCount ≠ 0 := by
    rw [fills, admissible] at hfills
    simp only [Bool.and_eq_true, decide_eq_true_eq] at hfills
    exact hfills.1.1.1.2
  have hchunk : chunkSizeFor req.step / req.step ≠ 0 :=
    (Nat.div_pos (step_le_chunkSizeFor req.step_pos) req.step_pos).ne'
  obtain ⟨n, hn⟩ := Nat.exists_eq_succ_of_ne_zero hslots
  rw [processed, if_pos hfills, windows_single hsegs, hn, segWindows, if_pos (Nat.succ_pos n),
    processedWindows]
  refine ⟨_, mem_cons_self, ?_⟩
  generalize chunkSizeFor req.step / req.step = c at hchunk
  dsimp only
  rw [if_neg hchunk]
  split_ifs <;> omega

theorem CreateRequest.processed_fits_iff {env : CreateEnv} (hsegs : req.segs = [g]) :
    (∀ win ∈ req.processed env, win.fits req = true) ↔
      (req.fills env = true →
        req.vlen ≤ req.step ∨ req.slotCount * req.vlen ≤ chunkSizeFor req.step) := by
  constructor
  · intro h hfills
    by_contra hnot
    rw [not_or] at hnot
    obtain ⟨win, hmem, hslots⟩ := processed_head hsegs hfills
    have hlt := Nat.not_le.mp hnot.1
    have hlarge : chunkSizeFor req.step < win.winSlots * req.vlen := by
      rw [hslots]
      rcases Nat.le_total (chunkSizeFor req.step / req.step) req.slotCount with hle | hle
      · rw [Nat.min_eq_left hle]
        calc
          chunkSizeFor req.step = chunkSizeFor req.step / req.step * req.step :=
            (chunkSizeFor_div_mul req.step_pos).symm
          _ < chunkSizeFor req.step / req.step * req.vlen := by
            refine Nat.mul_lt_mul_of_pos_left hlt ?_
            exact Nat.div_pos (step_le_chunkSizeFor req.step_pos) req.step_pos
      · rw [Nat.min_eq_right hle]
        exact Nat.not_le.mp hnot.2
    have hfits := h win hmem
    rw [SnapWindow.not_fits hlt hlarge] at hfits
    cases hfits
  · intro h win hmem
    rw [processed] at hmem
    split at hmem
    next hfills =>
      have hwin := mem_of_mem_processedWindows hmem
      rw [windows_single hsegs] at hwin
      obtain ⟨hpos, hn, hslots⟩ := segWindows_winSlots hwin
      exact SnapWindow.fits_of_le hpos hn hslots (h hfills)
    next => exact absurd hmem not_mem_nil

end

/-! ## Windows of a rescan -/

structure RescanWindow where
  i : Nat
  last : Nat
  winStart : Nat
  covered : Nat
  buffered : Bool

def SnapshotSession.rescanWindow (s : SnapshotSession) (vlen chunkEnd i : Nat) : RescanWindow :=
  let winStart := slotToAddr s i
  let (covered, last) := coalesceSlots s vlen chunkEnd winStart chunkEnd
    (bitmapNextSet s.bitmap (i + 1) chunkEnd) (wrap64 (winStart + vlen)) i
  ⟨i, last, winStart, covered, i * vlen + (last - i + 1) * vlen > s.snapRam.length⟩

def rescanWindows (env : FsEnv) (args : CompareArgs) (chunkEnd : Nat) :
    Nat → Nat → Nat → SnapshotSession → List RescanWindow
  | 0, _, _, _ => []
  | fuel + 1, i, survivors, s =>
    if i < chunkEnd then
      if env.cancelled i then []
      else
        let window := s.rescanWindow args.vlen chunkEnd i
        let win := flashscanWindowRead env window.winStart (sub64 window.covered window.winStart)
        let off := i * args.vlen
        let len := (window.last - i + 1) * args.vlen
        window ::
          match if window.buffered then snapshotStoreRead env s off len
              else some ((s.snapRam.drop off).take len) with
          | none => []
          | some baseline =>
            match compareWindow env args win chunkEnd window.winStart i window.last chunkEnd i
                ⟨s, baseline, false, survivors⟩ with
            | none => []
            | some w =>
              let s := w.store env off window.buffered
              rescanWindows env args chunkEnd fuel
                (bitmapNextSet s.bitmap (window.last + 1) chunkEnd) w.survivors s
    else []

structure RescanWindow.Fits (win : RescanWindow) (vlen : Nat) : Prop where
  read : sub64 win.covered win.winStart ≤ rescanWinCap
  baseline : win.buffered = true → (win.last - win.i + 1) * vlen ≤ rescanWinCap

structure SnapshotSession.Laid (s : SnapshotSession) (req : CreateRequest) : Prop where
  seg : s.seg = req.seg
  stride : s.stride = req.step
  slotCount : s.slotCount = req.slotCount

section

variable {s s' : SnapshotSession} {req : CreateRequest} {g : Segment} {args : CompareArgs}
  {env : FsEnv} {w w' : WindowState}

theorem SnapshotSession.Laid.congr (h : s.Laid req) (hseg : s'.seg = s.seg)
    (hstride : s'.stride = s.stride) (hslots : s'.slotCount = s.slotCount) : s'.Laid req :=
  ⟨hseg.trans h.seg, hstride.trans h.stride, hslots.trans h.slotCount⟩

theorem laid_keep (h : w.s.Laid req) (vlen i k : Nat) (mem : List UInt8) :
    (w.keep env vlen i k mem).s.Laid req := by
  rw [WindowState.keep]
  split
  · exact h.congr rfl rfl rfl
  · exact h

theorem laid_compareWindow {win : List UInt8} {chunkEnd winStart i last fuel k : Nat}
    (h : w.s.Laid req)
    (hrun : compareWindow env args win chunkEnd winStart i last fuel k w = some w') :
    w'.s.Laid req := by
  induction fuel generalizing k w with
  | zero =>
    cases hrun
    exact h
  | succ fuel ih =>
    rw [compareWindow] at hrun
    split at hrun
    · obtain ⟨matched, -, hrest⟩ := Option.bind_eq_some_iff.mp hrun
      refine ih ?_ hrest
      cases matched
      · exact h.congr rfl rfl rfl
      · exact laid_keep h _ _ _ _
    · cases hrun
      exact h

theorem laid_store (h : w.s.Laid req) (env : FsEnv) (off : Nat) (buffered : Bool) :
    (w.store env off buffered).Laid req := by
  unfold WindowState.store snapshotStoreWrite
  split_ifs
  all_goals exact h.congr rfl rfl rfl

theorem laid_rescanLoop {chunkEnd fuel i survivors n : Nat} (h : s.Laid req)
    (hrun : rescanLoop env args chunkEnd fuel i survivors s = some (n, s')) : s'.Laid req := by
  induction fuel generalizing i survivors s with
  | zero =>
    cases hrun
    exact h
  | succ fuel ih =>
    rw [rescanLoop] at hrun
    split at hrun
    · split at hrun
      · cases hrun
        exact h
      · dsimp only at hrun
        split at hrun
        · cases hrun
          exact h
        · obtain ⟨w, hw, hrest⟩ := Option.bind_eq_some_iff.mp hrun
          exact ih (laid_store (laid_compareWindow h hw) _ _ _) hrest
    · cases hrun
      exact h

theorem laid_snapshotRescan {n : Nat} (h : s.Laid req)
    (hrun : snapshotRescan env args s = some (n, s')) : s'.Laid req := by
  rw [snapshotRescan] at hrun
  split at hrun
  · cases hrun
    exact h.congr rfl rfl rfl
  · obtain ⟨⟨m, s₁⟩, hloop, hrest⟩ := Option.bind_eq_some_iff.mp hrun
    cases hrest
    exact (laid_rescanLoop h hloop).congr rfl rfl rfl

theorem laid_rescanWorkers {n chunkSize total m : Nat} {ws : List Nat} (h : s.Laid req)
    (hrun : rescanWorkers env args n chunkSize ws total s = some (m, s')) : s'.Laid req := by
  induction ws generalizing total s with
  | nil =>
    cases hrun
    exact h
  | cons k ws ih =>
    obtain ⟨⟨survivors, s₁⟩, hworker, hrest⟩ := Option.bind_eq_some_iff.mp hrun
    refine ih ?_ hrest
    rw [rescanWorkerThread] at hworker
    split at hworker
    · exact laid_rescanLoop h hworker
    · cases hworker
      exact h

theorem laid_snapshotRescanParallel {n : Nat} (h : s.Laid req)
    (hrun : snapshotRescanParallel env args s = some (n, s')) : s'.Laid req := by
  have hfallback : rescanFallback env args s = some (n, s') → s'.Laid req := fun hrun => by
    rw [rescanFallback] at hrun
    split at hrun
    · exact laid_snapshotRescan h hrun
    · cases hrun
      exact h.congr rfl rfl rfl
  rw [snapshotRescanParallel] at hrun
  split at hrun
  · cases hrun
    exact h.congr rfl rfl rfl
  · split at hrun
    · exact hfallback hrun
    · split at hrun
      · exact hfallback hrun
      · obtain ⟨⟨m, s₁⟩, hworkers, hrest⟩ := Option.bind_eq_some_iff.mp hrun
        cases hrest
        exact (laid_rescanWorkers h hworkers).congr rfl rfl rfl

theorem laid_snapshotCreate {cenv : CreateEnv} (h : snapshotCreate cenv req = .created s) :
    s.Laid req := by
  rw [snapshotCreate] at h
  split_ifs at h
  split at h
  · cases h
  · cases h
  · cases h
    exact ⟨rfl, rfl, rfl⟩

theorem coalesceSlots_covered {vlen chunkEnd winStart fuel j covered last covered' last' : Nat}
    (hcovered : covered = wrap64 (slotToAddr s last + vlen))
    (hcap : sub64 covered winStart ≤ rescanWinCap)
    (h : coalesceSlots s vlen chunkEnd winStart fuel j covered last = (covered', last')) :
    covered' = wrap64 (slotToAddr s last' + vlen) ∧ sub64 covered' winStart ≤ rescanWinCap := by
  induction fuel generalizing j covered last with
  | zero =>
    cases h
    exact ⟨hcovered, hcap⟩
  | succ fuel ih =>
    rw [coalesceSlots] at h
    split at h
    · dsimp only at h
      generalize (if slotToAddr s j > covered then slotToAddr s j - covered else 0) = gap at h
      split at h
      · cases h
        exact ⟨hcovered, hcap⟩
      · split at h
        · cases h
          exact ⟨hcovered, hcap⟩
        next hle => exact ih rfl (Nat.not_lt.mp hle) h
    · cases h
      exact ⟨hcovered, hcap⟩

theorem CreateRequest.slot_le (hsegs : req.segs = [g]) {k : Nat} (hk : k < req.slotCount) :
    k * req.step + req.vlen ≤ g.length.toNat := by
  have hslots : req.slotCount = g.nslots req.vlen req.step := by
    rw [CreateRequest.slotCount, CreateRequest.seg, hsegs]
    exact sum_singleton
  rw [hslots, Segment.nslots] at hk
  split at hk
  next hle =>
    have hsteps := Nat.div_mul_le_self (g.length.toNat - req.vlen) req.step
    have hk' : k * req.step ≤ (g.length.toNat - req.vlen) / req.step * req.step :=
      Nat.mul_le_mul_right _ (Nat.le_of_lt_succ hk)
    omega
  next => exact absurd hk (Nat.not_lt_zero k)

theorem slotToAddr_single (h : s.Laid req) (hsegs : req.segs = [g]) {k : Nat}
    (hk : k < s.slotCount) : slotToAddr s k = wrap64 (g.address.toNat + k * req.step) := by
  have hsub : sub64 k 0 = k := by
    rw [h.slotCount] at hk
    have hin := CreateRequest.slot_le hsegs hk
    have hlen := g.length.toNat_lt
    have hsteps : k ≤ k * req.step := Nat.le_mul_of_pos_right k req.step_pos
    rw [sub64_of_le (Nat.zero_le k) (by omega), Nat.sub_zero]
  rw [slotToAddr, h.seg, h.stride, CreateRequest.seg_single hsegs]
  exact congrArg (fun n => wrap64 (g.address.toNat + n * req.step)) hsub

theorem sub64_wrap64_add (a d v : Nat) (h : d + v < 2 ^ 64) :
    sub64 (wrap64 (wrap64 (a + d) + v)) (wrap64 a) = d + v := by
  unfold sub64 wrap64
  omega

theorem rescanWindow_fits (h : s.Laid req) (hsegs : req.segs = [g])
    (hfew : req.vlen ≤ req.step ∨ req.slotCount * req.vlen ≤ chunkSizeFor req.step)
    {chunkEnd i : Nat} (hi : i < chunkEnd) (hend : chunkEnd ≤ s.slotCount) :
    (s.rescanWindow req.vlen chunkEnd i).Fits req.vlen := by
  have hvlen := req.vlen_le
  have hstart : sub64 (wrap64 (slotToAddr s i + req.vlen)) (slotToAddr s i) ≤ rescanWinCap := by
    have hone := sub64_wrap64_add (g.address.toNat + i * req.step) 0 req.vlen (by omega)
    rw [Nat.add_zero, Nat.zero_add] at hone
    rw [slotToAddr_single h hsegs (by omega), hone, rescanWinCap]
    omega
  rw [SnapshotSession.rescanWindow]
  generalize hwin : coalesceSlots s req.vlen chunkEnd (slotToAddr s i) chunkEnd
    (bitmapNextSet s.bitmap (i + 1) chunkEnd) (wrap64 (slotToAddr s i + req.vlen)) i = window
  obtain ⟨covered, last⟩ := window
  obtain ⟨hlo, hhi⟩ := coalesceSlots_last (le_bitmapNextSet i.le_succ hi.le) (le_refl i) hi hwin
  obtain ⟨hcovered, hcap⟩ := coalesceSlots_covered rfl hstart hwin
  refine ⟨hcap, fun _ => ?_⟩
  rcases Nat.lt_or_ge req.step req.vlen with hlt | hge
  · have hall : req.slotCount * req.vlen ≤ chunkSizeFor req.step :=
      hfew.resolve_left (Nat.not_le.mpr hlt)
    have hchunk := chunkSizeFor_le req.step_pos (by omega)
    rw [h.slotCount] at hend
    calc
      (last - i + 1) * req.vlen ≤ req.slotCount * req.vlen := Nat.mul_le_mul_right _ (by omega)
      _ ≤ chunkSizeFor req.step := hall
      _ ≤ rescanWinCap := hchunk
  · have hlast : last * req.step = i * req.step + (last - i) * req.step := by
      rw [← Nat.add_mul, Nat.add_sub_cancel' hlo]
    have hspan : (last - i) * req.step + req.vlen < 2 ^ 64 := by
      have hin := CreateRequest.slot_le hsegs (k := last - i) (by rw [← h.slotCount]; omega)
      have hlen := g.length.toNat_lt
      omega
    have hdist := sub64_wrap64_add (g.address.toNat + i * req.step) _ req.vlen hspan
    rw [Nat.add_assoc, ← hlast, ← slotToAddr_single h hsegs (by omega),
      ← slotToAddr_single h hsegs (by omega), ← hcovered] at hdist
    calc
      (last - i + 1) * req.vlen = (last - i) * req.vlen + req.vlen := Nat.succ_mul _ _
      _ ≤ (last - i) * req.step + req.vlen := Nat.add_le_add_right (Nat.mul_le_mul_left _ hge) _
      _ = sub64 covered (slotToAddr s i) := hdist.symm
      _ ≤ rescanWinCap := hcap

theorem rescanWindows_fits (hsegs : req.segs = [g])
    (hfew : req.vlen ≤ req.step ∨ req.slotCount * req.vlen ≤ chunkSizeFor req.step)
    (hvlen : args.vlen = req.vlen) {chunkEnd fuel i survivors : Nat} (h : s.Laid req)
    (hend : chunkEnd ≤ req.slotCount) :
    ∀ win ∈ rescanWindows env args chunkEnd fuel i survivors s, win.Fits req.vlen := by
  induction fuel generalizing i survivors s with
  | zero => exact fun win hwin => absurd hwin not_mem_nil
  | succ fuel ih =>
    rw [rescanWindows]
    split
    next hi =>
      split
      next => exact fun win hwin => absurd hwin not_mem_nil
      next =>
        rw [forall_mem_cons, hvlen]
        refine ⟨rescanWindow_fits h hsegs hfew hi (h.slotCount ▸ hend), ?_⟩
        split
        next => exact fun win hwin => absurd hwin not_mem_nil
        next baseline _ =>
          split
          next => exact fun win hwin => absurd hwin not_mem_nil
          next w hw => exact ih (laid_store (laid_compareWindow h hw) _ _ _)
    next => exact fun win hwin => absurd hwin not_mem_nil

end

/-! ## Requests -/

inductive CreateRequest.Reaches (env : CreateEnv) (req : CreateRequest) : SnapshotSession → Prop
  | created {s : SnapshotSession} : snapshotCreate env req = .created s → Reaches env req s
  | rescanned {s s' : SnapshotSession} {n : Nat} {fs : FsEnv} {args : CompareArgs} :
      Reaches env req s → args.vlen = req.vlen → snapshotRescan fs args s = some (n, s') →
      Reaches env req s'
  | rescannedParallel {s s' : SnapshotSession} {n : Nat} {fs : FsEnv} {args : CompareArgs} :
      Reaches env req s → args.vlen = req.vlen → snapshotRescanParallel fs args s = some (n, s') →
      Reaches env req s'

theorem CreateRequest.Reaches.laid {env : CreateEnv} {s : SnapshotSession}
    (h : req.Reaches env s) : s.Laid req := by
  induction h with
  | created h => exact laid_snapshotCreate h
  | rescanned _ _ hrun ih => exact laid_snapshotRescan ih hrun
  | rescannedParallel _ _ hrun ih => exact laid_snapshotRescanParallel ih hrun

/-- No buffer is overrun for a request: not by the windows of its snapshot, and not by those of a
rescan of any range of slots, whatever bits other workers clear meanwhile. -/
structure CreateRequest.BuffersHold (req : CreateRequest) (env : CreateEnv) : Prop where
  snapshot : ∀ win ∈ req.processed env, win.fits req = true
  rescan : ∀ s, req.Reaches env s → ∀ bm (fs : FsEnv) (args : CompareArgs), args.vlen = req.vlen →
    ∀ chunkStart chunkEnd, chunkEnd ≤ s.slotCount →
      ∀ win ∈ rescanWindows fs args chunkEnd chunkEnd (bitmapNextSet bm chunkStart chunkEnd) 0
        { s with bitmap := bm }, win.Fits req.vlen

theorem fills_of_created {env : CreateEnv} {s : SnapshotSession}
    (h : snapshotCreate env req = .created s) : req.fills env = true := by
  rw [snapshotCreate] at h
  split_ifs at h with hadmissible hcrashes hready
  rw [CreateRequest.fills, eq_true_of_ne_false hadmissible, eq_false_of_ne_true hcrashes,
    eq_true_of_ne_false hready]
  rfl

theorem CreateRequest.Reaches.fills {env : CreateEnv} {s : SnapshotSession}
    (h : req.Reaches env s) : req.fills env = true := by
  induction h with
  | created h => exact fills_of_created h
  | rescanned _ _ _ ih => exact ih
  | rescannedParallel _ _ _ ih => exact ih

/-- The buffers hold just if the values do not overlap, or are so few that they fit into one
chunk, or the window loop does not run at all. -/
theorem buffersHold_iff (env : CreateEnv) (req : StartRequest) {vlen step : Nat} (hpos : 0 < vlen)
    (hle : vlen ≤ 8) (hstep : 0 < step) :
    (req.createRequest hpos hle hstep).BuffersHold env ↔
      ((req.createRequest hpos hle hstep).fills env = true →
        vlen ≤ step ∨ (req.createRequest hpos hle hstep).slotCount * vlen ≤ chunkSizeFor step) := by
  have hsegs : (req.createRequest hpos hle hstep).segs =
      [⟨UInt64.ofNat req.address, UInt32.ofNat req.length⟩] := rfl
  have hsnapshot := @CreateRequest.processed_fits_iff _ _ env hsegs
  refine ⟨fun h => hsnapshot.mp h.snapshot, fun h => ⟨hsnapshot.mpr h, ?_⟩⟩
  intro s hs bm fs args hvlen chunkStart chunkEnd hend
  have hlaid := hs.laid
  rw [hlaid.slotCount] at hend
  exact rescanWindows_fits hsegs (h hs.fills) hvlen (hlaid.congr rfl rfl rfl) hend

def plainEnv : CreateEnv where
  mem _ := 0
  ramLimit := 512 * 2 ^ 20
  segTable := true
  bitmap := true
  ram := true
  cache := true
  spillFd := none
  firstOpen := true
  prevOpen := true
  readBuf := true
  packBuf := true
  write0 _ _ := true

def fourBytes : StartRequest := ⟨2, .u32, 0, 4, 4, 4, 0x10000, 16⟩

theorem buffersHold_iff_fourBytes :
    (fourBytes.createRequest (show 0 < 4 by decide) (by decide)
      (show 0 < 4 by decide)).BuffersHold plainEnv :=
  (buffersHold_iff plainEnv fourBytes (by decide) (by decide) (by decide)).mpr
    fun _ => .inl (Nat.le_refl 4)

def overlapping : StartRequest := ⟨2, .u64, 0, 1, 8, 4, 0x10000, 0x20008⟩

theorem overlapping_not_buffersHold :
    ¬(overlapping.createRequest (show 0 < 8 by decide) (by decide)
      (show 0 < 1 by decide)).BuffersHold plainEnv := by
  intro h
  have hfits := (@CreateRequest.processed_fits_iff _ _ plainEnv rfl).mp h.snapshot (by decide)
  exact absurd hfits (by decide)

end MemDbg.FlashScan
