import MemDbg.FlashScan.Server
import MemDbg.FlashScan.StreamLost
import MemDbg.Lib.Transition

/-!
# Survivor accounting

The survivor count of a snapshot is computed anew by every rescan, in a counter that
follows the window loop.  A rescan that runs to its end leaves the number of set bits;
one that ends early, because the cancel flag is up, a read of the store fails or a
worker has no buffers, leaves the bits it did not get to and does not count them.
-/

namespace MemDbg.FlashScan

open Function Lib Scan

def SnapshotSession.popcount (s : SnapshotSession) : Nat := countIn (bitAt s.bitmap) 0 s.slotCount

def SnapshotSession.Counted (s : SnapshotSession) : Prop := s.survivorCount = s.popcount

structure SnapshotSession.Tallied (calm : Prop) (n : Nat) (s : SnapshotSession) : Prop where
  survivorCount : s.survivorCount = n
  le : n ≤ s.popcount
  eq : calm → n = s.popcount

theorem SnapshotSession.Counted.tallied {s : SnapshotSession} (h : s.Counted) (calm : Prop) :
    s.Tallied calm s.survivorCount :=
  ⟨rfl, Nat.le_of_eq h, fun _ => h⟩

theorem SnapshotSession.Tallied.self {calm : Prop} {n : Nat} {s : SnapshotSession}
    (h : s.Tallied calm n) : s.Tallied calm s.survivorCount := by
  rw [h.survivorCount]
  exact h

/-! ## Windows -/

structure WindowState.Scanned (lo hi : Nat) (w w' : WindowState) : Prop where
  session : ∃ bm prev, w'.s = { w.s with bitmap := bm, prevFile := prev }
  bits : ∀ j, j < lo ∨ hi ≤ j → bitAt w'.s.bitmap j = bitAt w.s.bitmap j
  count : w'.survivors = w.survivors + countIn (bitAt w'.s.bitmap) lo hi

theorem WindowState.Scanned.of_le {lo hi : Nat} (h : hi ≤ lo) (w : WindowState) :
    w.Scanned lo hi w where
  session := ⟨_, _, rfl⟩
  bits _ _ := rfl
  count := by rw [countIn_of_le h, Nat.add_zero]

structure WindowState.Decided (k : Nat) (matched : Bool) (w w' : WindowState) : Prop where
  session : ∃ bm prev, w'.s = { w.s with bitmap := bm, prevFile := prev }
  bits : ∀ j, j ≠ k → bitAt w'.s.bitmap j = bitAt w.s.bitmap j
  bit : bitAt w'.s.bitmap k = matched
  count : w'.survivors = w.survivors + if matched then 1 else 0

theorem WindowState.decided_keep {w : WindowState} {k : Nat} (hbit : bitAt w.s.bitmap k = true)
    (env : FsEnv) (vlen i : Nat) (mem : List UInt8) :
    w.Decided k true (w.keep env vlen i k mem) := by
  have hs : (w.keep env vlen i k mem).s.bitmap = w.s.bitmap := by
    rw [WindowState.keep]
    split_ifs <;> rfl
  refine ⟨?_, fun j _ => by rw [hs], by rw [hs, hbit], rfl⟩
  rw [WindowState.keep]
  split_ifs
  · exact ⟨_, _, rfl⟩
  · exact ⟨_, _, rfl⟩

theorem WindowState.decided_drop (w : WindowState) (k : Nat) : w.Decided k false (w.drop k) where
  session := ⟨_, _, rfl⟩
  bits _ hj := bitAt_bitmapClear_of_ne hj
  bit := bitAt_bitmapClear_self k
  count := rfl

theorem WindowState.Decided.scanned {k next hi : Nat} {matched : Bool} {w w₁ w' : WindowState}
    (h : w.Decided k matched w₁) (hrest : w₁.Scanned next hi w') (hk : k < hi) (hnext : k < next)
    (hclear : ∀ j, k < j → j < next → j < hi → bitAt w₁.s.bitmap j = false) :
    w.Scanned k hi w' := by
  obtain ⟨bm₁, prev₁, hs₁⟩ := h.session
  obtain ⟨bm', prev', hs'⟩ := hrest.session
  refine ⟨⟨bm', prev', by rw [hs', hs₁]⟩, fun j hj => ?_, ?_⟩
  · rw [hrest.bits j (by omega), h.bits j (by omega)]
  · have hbit : bitAt w'.s.bitmap k = matched := by rw [hrest.bits k (.inl hnext), h.bit]
    have hskip : countIn (bitAt w'.s.bitmap) (k + 1) hi = countIn (bitAt w'.s.bitmap) next hi := by
      refine countIn_skip hnext fun j hj hlt hhi => ?_
      rw [hrest.bits j (.inl hlt)]
      exact hclear j hj hlt hhi
    rw [hrest.count, h.count, countIn_succ hk, hbit, hskip, Nat.add_assoc]

theorem compareWindow_scanned {env : FsEnv} {args : CompareArgs} {win : List UInt8}
    {chunkEnd winStart i last fuel k : Nat} {w w' : WindowState} (hlast : last < chunkEnd)
    (hfuel : last < k + fuel) (hbit : k ≤ last → bitAt w.s.bitmap k = true)
    (h : compareWindow env args win chunkEnd winStart i last fuel k w = some w') :
    w.Scanned k (last + 1) w' := by
  induction fuel generalizing k w with
  | zero =>
    cases h
    exact .of_le (by omega) w'
  | succ fuel ih =>
    rw [compareWindow] at h
    by_cases hk : k ≤ last
    · rw [if_pos hk] at h
      obtain ⟨matched, -, hrest⟩ := Option.bind_eq_some_iff.mp h
      generalize hw₁ : (if matched then w.keep env args.vlen i k
        ((win.drop (sub64 (slotToAddr w.s k) winStart)).take args.vlen) else w.drop k) = w₁ at hrest
      have hdecided : w.Decided k matched w₁ := by
        rw [← hw₁]
        cases matched
        · exact w.decided_drop k
        · exact WindowState.decided_keep (hbit hk) env _ _ _
      have hnext : k + 1 ≤ bitmapNextSet w₁.s.bitmap (k + 1) chunkEnd :=
        le_bitmapNextSet le_rfl (by omega)
      refine hdecided.scanned (ih (by omega) (fun hle => ?_) hrest) (by omega) hnext ?_
      · exact bitAt_bitmapNextSet (by omega)
      · exact fun j hj hlt hhi => bitAt_of_lt_bitmapNextSet hj hlt (by omega)
    · rw [if_neg hk] at h
      cases h
      exact .of_le (by omega) w'

/-! ## Ranges of slots -/

structure SnapshotSession.Rescanned (calm : Prop) (lo hi n : Nat)
    (s s' : SnapshotSession) : Prop where
  slotCount : s'.slotCount = s.slotCount
  valueLen : s'.valueLen = s.valueLen
  stored : s.stored ≤ s'.stored
  bits : ∀ j, j < lo ∨ hi ≤ j → bitAt s'.bitmap j = bitAt s.bitmap j
  le : n ≤ countIn (bitAt s'.bitmap) lo hi
  count : calm → n = countIn (bitAt s'.bitmap) lo hi

section

variable {calm : Prop} {lo hi : Nat}

theorem SnapshotSession.Rescanned.of_le (h : hi ≤ lo) (s : SnapshotSession) :
    s.Rescanned calm lo hi 0 s where
  slotCount := rfl
  valueLen := rfl
  stored := le_rfl
  bits _ _ := rfl
  le := Nat.zero_le _
  count _ := (countIn_of_le h).symm

theorem SnapshotSession.Rescanned.stopped (h : ¬ calm) (s : SnapshotSession) :
    s.Rescanned calm lo hi 0 s where
  slotCount := rfl
  valueLen := rfl
  stored := le_rfl
  bits _ _ := rfl
  le := Nat.zero_le _
  count hcalm := (h hcalm).elim

theorem SnapshotSession.Rescanned.trans {mid next n₁ n₂ : Nat} {s s₁ s' : SnapshotSession}
    (h₁ : s.Rescanned calm lo mid n₁ s₁) (h₂ : s₁.Rescanned calm next hi n₂ s') (hlo : lo ≤ mid)
    (hmid : mid ≤ next) (hhi : mid ≤ hi)
    (hclear : ∀ j, mid ≤ j → j < next → j < hi → bitAt s₁.bitmap j = false) :
    s.Rescanned calm lo hi (n₁ + n₂) s' := by
  have hsplit : countIn (bitAt s'.bitmap) lo hi =
      countIn (bitAt s₁.bitmap) lo mid + countIn (bitAt s'.bitmap) next hi := by
    have hfirst : countIn (bitAt s₁.bitmap) lo mid = countIn (bitAt s'.bitmap) lo mid :=
      countIn_congr fun j _ hj => (h₂.bits j (.inl (by omega))).symm
    have hskip : countIn (bitAt s'.bitmap) mid hi = countIn (bitAt s'.bitmap) next hi := by
      refine countIn_skip hmid fun j hj hlt hj' => ?_
      rw [h₂.bits j (.inl hlt)]
      exact hclear j hj hlt hj'
    rw [countIn_split hlo hhi, hskip, ← hfirst]
  refine ⟨h₂.slotCount.trans h₁.slotCount, h₂.valueLen.trans h₁.valueLen,
    h₁.stored.trans h₂.stored, fun j hj => ?_, ?_, fun hcalm => ?_⟩
  · have hj₂ : j < next ∨ hi ≤ j := by omega
    rw [h₂.bits j hj₂, h₁.bits j (by omega)]
  · rw [hsplit]
    exact Nat.add_le_add h₁.le h₂.le
  · rw [hsplit, ← h₁.count hcalm, ← h₂.count hcalm]

end

theorem WindowState.store_spec (w : WindowState) (env : FsEnv) (off : Nat) (buffered : Bool) :
    (w.store env off buffered).bitmap = w.s.bitmap ∧
      (w.store env off buffered).slotCount = w.s.slotCount ∧
      (w.store env off buffered).valueLen = w.s.valueLen ∧
      w.s.stored ≤ (w.store env off buffered).stored := by
  have hram := fun src => length_le_overwrite w.s.snapRam off src
  have hfile := fun off src => length_le_overwrite w.s.snapFile off src
  unfold WindowState.store snapshotStoreWrite pwriteAll SnapshotSession.stored
  split_ifs
  · exact ⟨rfl, rfl, rfl, Nat.add_le_add_left (hfile _ _) _⟩
  · exact ⟨rfl, rfl, rfl, Nat.add_le_add_right (hram _) _⟩
  · exact ⟨rfl, rfl, rfl, Nat.add_le_add (hram _) (hfile _ _)⟩
  · exact ⟨rfl, rfl, rfl, le_rfl⟩
  · exact ⟨rfl, rfl, rfl, Nat.add_le_add_right (hram _) _⟩

structure Unstopped (env : FsEnv) (chunkEnd vlen : Nat) (s : SnapshotSession) : Prop where
  cancelled : ∀ j, j < chunkEnd → env.cancelled j = false
  pread : ∀ off len, env.pread off len = true
  stored : chunkEnd * vlen ≤ s.stored

theorem rescanLoop_rescanned {env : FsEnv} {args : CompareArgs} {calm : Prop}
    {chunkEnd fuel i survivors n : Nat} {s s' : SnapshotSession}
    (hcalm : calm → Unstopped env chunkEnd args.vlen s)
    (hfuel : chunkEnd ≤ i + fuel) (hbit : i < chunkEnd → bitAt s.bitmap i = true)
    (h : rescanLoop env args chunkEnd fuel i survivors s = some (n, s')) :
    ∃ m, n = survivors + m ∧ s.Rescanned calm i chunkEnd m s' := by
  induction fuel generalizing i survivors s with
  | zero =>
    cases h
    exact ⟨0, rfl, .of_le (by omega) s'⟩
  | succ fuel ih =>
    by_cases hi : i < chunkEnd
    · rw [rescanLoop, if_pos hi] at h
      by_cases hcancelled : env.cancelled i = true
      · rw [if_pos hcancelled] at h
        cases h
        refine ⟨0, rfl, .stopped (fun hc => ?_) s'⟩
        cases hcancelled.symm.trans ((hcalm hc).cancelled i hi)
      rw [if_neg hcancelled] at h
      dsimp only at h
      generalize hwin : coalesceSlots s args.vlen chunkEnd (slotToAddr s i) chunkEnd
        (bitmapNextSet s.bitmap (i + 1) chunkEnd) (wrap64 (slotToAddr s i + args.vlen))
          i = window at h
      obtain ⟨covered, last⟩ := window
      obtain ⟨hlo, hhi⟩ := coalesceSlots_last (le_bitmapNextSet i.le_succ hi.le) (le_refl i) hi hwin
      split at h
      · rename_i hnone
        cases h
        refine ⟨0, rfl, .stopped (fun hc => ?_) s'⟩
        have hlen : i * args.vlen + (last - i + 1) * args.vlen ≤ s'.stored := by
          calc
            i * args.vlen + (last - i + 1) * args.vlen = (i + (last - i + 1)) * args.vlen := by ring
            _ ≤ chunkEnd * args.vlen := Nat.mul_le_mul_right _ (by omega)
            _ ≤ _ := (hcalm hc).stored
        split_ifs at hnone
        have hsome := isSome_snapshotStoreRead (hcalm hc).pread hlen
        rw [hnone] at hsome
        cases hsome
      · rename_i baseline _
        obtain ⟨w, hw, hrest⟩ := Option.bind_eq_some_iff.mp h
        have hscan : WindowState.Scanned i (last + 1) ⟨s, baseline, false, survivors⟩ w :=
          compareWindow_scanned hhi (by omega) (fun _ => hbit hi) hw
        obtain ⟨bm, prev, hws⟩ := hscan.session
        obtain ⟨hbitmap, hslots, hvlen, hle⟩ := w.store_spec env (i * args.vlen)
          (decide (i * args.vlen + (last - i + 1) * args.vlen > s.snapRam.length))
        generalize w.store env (i * args.vlen)
          (decide (i * args.vlen + (last - i + 1) * args.vlen > s.snapRam.length)) = s₁
          at hrest hbitmap hslots hvlen hle
        have hfirst :
          s.Rescanned calm i (last + 1) (countIn (bitAt s₁.bitmap) i (last + 1)) s₁ := by
          refine ⟨by rw [hslots, hws], by rw [hvlen, hws], ?_, fun j hj => ?_, le_rfl, fun _ => rfl⟩
          · rw [hws] at hle
            exact hle
          · rw [hbitmap, hscan.bits j hj]
        have hnext : last + 1 ≤ bitmapNextSet s₁.bitmap (last + 1) chunkEnd :=
          le_bitmapNextSet le_rfl hhi
        have hfuel' : chunkEnd ≤ bitmapNextSet s₁.bitmap (last + 1) chunkEnd + fuel := by omega
        obtain ⟨m, rfl, hm⟩ := ih
          (fun hc =>
            ⟨(hcalm hc).cancelled, (hcalm hc).pread, (hcalm hc).stored.trans hfirst.stored⟩)
          hfuel' (fun hlt => bitAt_bitmapNextSet hlt) hrest
        refine ⟨_, ?_, hfirst.trans hm (by omega) hnext hhi
          fun j hj hlt hj' => bitAt_of_lt_bitmapNextSet hj hlt hj'⟩
        rw [hscan.count, hbitmap, Nat.add_assoc]
    · rw [rescanLoop_of_ge env (not_lt.mp hi)] at h
      cases h
      exact ⟨0, rfl, .of_le (not_lt.mp hi) s'⟩

/-! ## Rescans -/

structure Undisturbed (env : FsEnv) (parallel : Bool) (s : SnapshotSession) : Prop where
  cancelled : ∀ j, j < s.slotCount → env.cancelled j = false
  pread : ∀ off len, env.pread off len = true
  stored : s.slotCount * s.valueLen ≤ s.stored
  fallback : parallel = true → s.slotCount < parallelWorkers * 64 ∨
    env.alloc .rescanWorkers = false →
    env.alloc .rescanRead = true ∧ env.alloc .rescanBaseline = true
  workers : parallel = true → ∀ w, w < parallelWorkers → env.workerBuffers w = true

theorem SnapshotSession.Rescanned.fromNext {calm : Prop} {lo hi n : Nat} {s s' : SnapshotSession}
    (hle : lo ≤ hi) (h : s.Rescanned calm (bitmapNextSet s.bitmap lo hi) hi n s') :
    s.Rescanned calm lo hi n s' := by
  have hnext : lo ≤ bitmapNextSet s.bitmap lo hi := le_bitmapNextSet le_rfl hle
  have hskip := SnapshotSession.Rescanned.trans (.of_le le_rfl s) h le_rfl hnext hle
    fun j hj hlt hhi => bitAt_of_lt_bitmapNextSet hj hlt hhi
  rwa [Nat.zero_add] at hskip

section Rescan

variable {env : FsEnv} {args : CompareArgs} {s s' : SnapshotSession} {n : Nat} {parallel : Bool}
  {calm : Prop}

theorem SnapshotSession.Rescanned.tallied (h : s.Rescanned calm 0 s.slotCount n s') :
    ({ s' with survivorCount := n } : SnapshotSession).Tallied calm n where
  survivorCount := rfl
  le := by
    have hle := h.le
    rwa [← h.slotCount] at hle
  eq hcalm := by
    have hcount := h.count hcalm
    rwa [← h.slotCount] at hcount

theorem tallied_zero (h : calm → s.slotCount = 0) :
    ({ s with survivorCount := 0 } : SnapshotSession).Tallied calm 0 where
  survivorCount := rfl
  le := Nat.zero_le _
  eq hcalm := (countIn_of_le (by rw [h hcalm])).symm

theorem Undisturbed.unstopped (h : Undisturbed env parallel s) {vlen : Nat}
    (hvlen : vlen = s.valueLen) : Unstopped env s.slotCount vlen s :=
  ⟨h.cancelled, h.pread, hvlen ▸ h.stored⟩

theorem snapshotRescan_tallied (hu : calm → Undisturbed env parallel s)
    (hvlen : args.vlen = s.valueLen) (h : snapshotRescan env args s = some (n, s')) :
    s'.Tallied calm n := by
  rw [snapshotRescan] at h
  split_ifs at h with hzero
  · cases h
    exact tallied_zero fun _ => hzero
  · obtain ⟨⟨m, s₁⟩, hloop, hrest⟩ := Option.bind_eq_some_iff.mp h
    cases hrest
    obtain ⟨k, hk, hres⟩ := rescanLoop_rescanned (fun hc => (hu hc).unstopped hvlen)
      (by omega) (fun hlt => bitAt_bitmapNextSet hlt) hloop
    rw [Nat.zero_add] at hk
    rw [hk]
    exact (hres.fromNext (Nat.zero_le _)).tallied

theorem rescanWorkerThread_rescanned {worker chunkStart chunkEnd : Nat}
    (hcalm : calm → Unstopped env chunkEnd args.vlen s)
    (hbuffers : calm → env.workerBuffers worker = true) (hle : chunkStart ≤ chunkEnd)
    (h : rescanWorkerThread env args worker chunkStart chunkEnd s = some (n, s')) :
    s.Rescanned calm chunkStart chunkEnd n s' := by
  rw [rescanWorkerThread] at h
  split_ifs at h with hworker
  · obtain ⟨m, hm, hres⟩ := rescanLoop_rescanned hcalm (by omega)
      (fun hlt => bitAt_bitmapNextSet hlt) h
    rw [Nat.zero_add] at hm
    rw [hm]
    exact hres.fromNext hle
  · cases h
    exact .stopped (fun hc => hworker (hbuffers hc)) _

theorem rescanWorkers_rescanned {chunkSize w k total : Nat}
    (hcalm : calm → Unstopped env n args.vlen s)
    (hbuffers : calm → ∀ w, w < parallelWorkers → env.workerBuffers w = true)
    (hn : parallelWorkers * 64 ≤ n)
    (hsize : (n + parallelWorkers - 1) / parallelWorkers = chunkSize)
    (hwk : w + k = parallelWorkers) {m : Nat}
    (h : rescanWorkers env args n chunkSize (List.range' w k) total s = some (m, s')) :
    ∃ more, m = total + more ∧ s.Rescanned calm (w * chunkSize) n more s' := by
  have hcover : n ≤ parallelWorkers * chunkSize := by
    unfold parallelWorkers at hsize ⊢
    omega
  induction k generalizing w total s with
  | zero =>
    cases h
    rw [Nat.add_zero] at hwk
    rw [hwk]
    exact ⟨0, rfl, .of_le hcover s'⟩
  | succ k ih =>
    rw [List.range'_succ, rescanWorkers] at h
    have hend := chunkEnd_le hn (show w < parallelWorkers by omega)
    rw [hsize] at hend
    generalize hchunk : (if w + 1 = parallelWorkers then n else (w + 1) * chunkSize) = chunkEnd
      at h hend
    have hstart : w * chunkSize ≤ chunkEnd ∧ chunkEnd ≤ (w + 1) * chunkSize := by
      have hsucc : (w + 1) * chunkSize = w * chunkSize + chunkSize := Nat.succ_mul _ _
      unfold parallelWorkers at hchunk hcover hn hsize hwk
      split_ifs at hchunk with hlast
      · have hw : w = 3 := by omega
        rw [hw] at hsucc ⊢
        omega
      · omega
    obtain ⟨⟨found, s₁⟩, hthread, hrest⟩ := Option.bind_eq_some_iff.mp h
    have hfirst : s.Rescanned calm (w * chunkSize) chunkEnd found s₁ :=
      rescanWorkerThread_rescanned
        (fun hc => ⟨fun j hj => (hcalm hc).cancelled j (by omega), (hcalm hc).pread,
          (Nat.mul_le_mul_right _ hend).trans (hcalm hc).stored⟩)
        (fun hc => hbuffers hc w (by omega)) hstart.1 hthread
    obtain ⟨more, rfl, hmore⟩ := ih
      (fun hc => ⟨(hcalm hc).cancelled, (hcalm hc).pread, (hcalm hc).stored.trans hfirst.stored⟩)
      (by omega) hrest
    refine ⟨found + more, by rw [Nat.add_assoc], hfirst.trans hmore hstart.1 hstart.2 hend ?_⟩
    -- only behind the last worker do the chunks overlap the end
    intro j hj hlt hjn
    split_ifs at hchunk with hlast <;> omega

theorem snapshotRescanParallel_tallied (hu : calm → Undisturbed env true s)
    (hvlen : args.vlen = s.valueLen) (h : snapshotRescanParallel env args s = some (n, s')) :
    s'.Tallied calm n := by
  have hfallback : s.slotCount < parallelWorkers * 64 ∨ env.alloc .rescanWorkers = false →
      rescanFallback env args s = some (n, s') → s'.Tallied calm n := by
    intro hcase hrescan
    rw [rescanFallback] at hrescan
    split_ifs at hrescan with hbuffers
    · exact snapshotRescan_tallied hu hvlen hrescan
    · cases hrescan
      refine tallied_zero fun hc => absurd ?_ hbuffers
      obtain ⟨hbuf, hbase⟩ := (hu hc).fallback rfl hcase
      rw [hbuf, hbase]
      rfl
  rw [snapshotRescanParallel] at h
  dsimp only at h
  split_ifs at h with hzero hsmall halloc
  · cases h
    exact tallied_zero fun _ => hzero
  · exact hfallback (.inl hsmall) h
  · exact hfallback (.inr halloc) h
  · obtain ⟨⟨m, s₁⟩, hworkers, hrest⟩ := Option.bind_eq_some_iff.mp h
    cases hrest
    rw [List.range_eq_range'] at hworkers
    obtain ⟨more, hmore, hres⟩ := rescanWorkers_rescanned (fun hc => (hu hc).unstopped hvlen)
      (fun hc => (hu hc).workers rfl) (not_lt.mp hsmall) rfl (Nat.zero_add _) hworkers
    rw [Nat.zero_mul] at hres
    rw [Nat.zero_add] at hmore
    rw [hmore]
    exact hres.tallied

end Rescan

/-! ## Requests -/

theorem bitAt_replicate_ones {n i : Nat} (h : i / 8 < n) :
    bitAt (List.replicate n 0xFF) i = true := by
  have hbyte : (List.replicate n (0xFF : UInt8)).getD (i / 8) 0 = 0xFF := by
    rw [List.getD_eq_getElem?_getD, List.getElem?_replicate, if_pos h, Option.getD_some]
  have hall : ∀ k : Fin 8, ((0xFF : UInt8).toNat.testBit k) = true := by decide
  rw [bitAt, hbyte]
  exact hall ⟨i % 8, Nat.mod_lt _ (by decide)⟩

theorem fillWindow_bitmap {env : CreateEnv} {req : CreateRequest} (h : req.includeZeros = true)
    {f f' : Filling} {win : SnapWindow} (hf : fillWindow env req f win = .ok f') :
    f'.bitmap = f.bitmap := by
  obtain ⟨-, -, rfl⟩ := fillWindow_ok hf
  exact if_pos h

theorem snapshotCreate_counted {env : CreateEnv} {req : CreateRequest} {s : SnapshotSession}
    (h : snapshotCreate env req = .created s) : s.Counted := by
  rw [snapshotCreate] at h
  split_ifs at h
  split at h
  · cases h
  · cases h
  · rename_i f hfill
    cases h
    unfold SnapshotSession.Counted SnapshotSession.popcount CreateRequest.session
    by_cases hzeros : req.includeZeros = true
    · have hbitmap : f.bitmap = (req.emptyFilling env).bitmap :=
        foldlM_invariant (P := fun _ f => f.bitmap = (req.emptyFilling env).bitmap)
          (fun _ _ _ _ hb hstep => (fillWindow_bitmap hzeros hstep).trans hb) hfill rfl
      have hall : ∀ j, 0 ≤ j → j < req.slotCount → bitAt f.bitmap j = true := by
        intro j _ hj
        rw [hbitmap, CreateRequest.emptyFilling]
        exact bitAt_replicate_ones (by omega)
      rw [if_pos hzeros, countIn_eq_length hall, Nat.sub_zero]
    · rw [if_neg hzeros]

structure Served.Accounted (calm : Prop) (served : Served) : Prop where
  session : ∀ s, served.slot.session = .snapshot s → s.Tallied calm s.survivorCount
  counted : ∀ n s, served.counted = some (n, s) → calm → n = s.popcount

section Requests

variable {calm : Prop} {slot : Slot} {served : Served} {fs : FsEnv}
  {compareData mask : Ptr}

theorem Served.accounted_of_slot {reply : QsReply}
    (h : ∀ s, slot.session = .snapshot s → s.Tallied calm s.survivorCount) :
    (⟨reply, slot, none⟩ : Served).Accounted calm :=
  ⟨h, fun _ _ hnone => nomatch hnone⟩

theorem Served.accounted_clear (reply : QsReply) :
    (⟨reply, .clear, none⟩ : Served).Accounted calm :=
  Served.accounted_of_slot fun _ hs => nomatch hs

theorem startSnapshot_accounted {env : CreateEnv} {req : StartRequest} {vlen step : Nat}
    (hslot : ∀ s, slot.session = .snapshot s → s.Tallied calm s.survivorCount)
    (h : startSnapshot env req vlen step slot = some served) : served.Accounted calm := by
  rw [startSnapshot] at h
  split_ifs at h
  · split at h
    · cases h
    · cases h
    · cases h
      exact Served.accounted_clear _
    · rename_i s hcreate
      cases h
      have hs := snapshotCreate_counted hcreate
      constructor
      · rintro _ ⟨⟩
        exact hs.tallied calm
      · rintro _ _ ⟨⟩ _
        exact hs
  · cases h
    exact Served.accounted_of_slot hslot

theorem handleStart_accounted {env : RequestEnv} {ramLimit : Nat} {req : StartRequest}
    (hslot : ∀ s, slot.session = .snapshot s → s.Tallied calm s.survivorCount)
    (h : handleStart fs env ramLimit req compareData mask slot = some served) :
    served.Accounted calm := by
  obtain ⟨outcome, -, hrest⟩ := Option.bind_eq_some_iff.mp h
  cases outcome with
  | rejected =>
    cases hrest
    exact Served.accounted_of_slot hslot
  | snapshot vlen step => exact startSnapshot_accounted hslot hrest
  | stored s =>
    cases hrest
    exact Served.accounted_of_slot fun _ hs => nomatch hs
  | streamed packets =>
    cases hrest
    refine Served.accounted_of_slot fun s hs => ?_
    by_cases hkeep : qsServerKeep req.requestFlags = true
    · rw [if_pos hkeep] at hs
      cases hs
    · rw [if_neg hkeep] at hs
      exact hslot s hs

theorem flashscanHandleCount_tallied {req : CountRequest}
    {session : Session} {chunks : List (List UInt8)} {n : Nat} {s' : SnapshotSession}
    (hsession : ∀ s, session = .snapshot s → s.Tallied calm s.survivorCount)
    (hguard : ∀ s, session = .snapshot s → qsServerKeep req.requestFlags = true →
      s.valueLen = (if req.valueLength = 0 then 4 else req.valueLength) →
      calm → Undisturbed fs (qsParallel req.requestFlags) s)
    (h : flashscanHandleCount fs req compareData mask session chunks =
      some (.counted n (.snapshot s'))) : s'.Tallied calm n := by
  rw [flashscanHandleCount] at h
  generalize hvlen : (if req.valueLength = 0 then 4 else req.valueLength) = vlen at h hguard
  by_cases hlong : vlen > 0x1000
  · rw [if_pos hlong] at h
    cases h
  rw [if_neg hlong] at h
  by_cases hkeep : qsServerKeep req.requestFlags = true
  · rw [if_pos hkeep] at h
    cases session with
    | free => cases h
    | list s =>
      dsimp only at h
      split_ifs at h
      · cases h
      · obtain ⟨_, -, hr⟩ := Option.map_eq_some_iff.mp h
        cases hr
    | snapshot s =>
      dsimp only at h
      by_cases hlen : s.valueLen ≠ vlen
      · rw [if_pos hlen] at h
        cases h
        exact hsession _ rfl
      rw [if_neg hlen] at h
      have hu := hguard s rfl hkeep (not_not.mp hlen)
      have hargs : (countArgs req vlen compareData mask).vlen = s.valueLen := (not_not.mp hlen).symm
      obtain ⟨⟨m, s₁⟩, hrescan, hr⟩ := Option.map_eq_some_iff.mp h
      cases hr
      by_cases hpar : qsParallel req.requestFlags = true
      · rw [if_pos hpar] at hrescan
        rw [hpar] at hu
        exact snapshotRescanParallel_tallied hu hargs hrescan
      · rw [if_neg hpar] at hrescan
        exact snapshotRescan_tallied hu hargs hrescan
  · rw [if_neg hkeep] at h
    split_ifs at h
    · cases h
    · obtain ⟨_, -, hr⟩ := Option.map_eq_some_iff.mp h
      cases hr

theorem SnapshotSession.settle_snapshot {env : FsEnv} {nc : Nat} {s s' : SnapshotSession}
    (h : s.settle env nc = .snapshot s') : s' = s := by
  rw [SnapshotSession.settle] at h
  split_ifs at h
  · cases hmat : snapshotMaterialize env s with
    | none =>
      rw [hmat] at h
      cases h
      rfl
    | some l =>
      rw [hmat] at h
      cases h
  · cases h
    rfl

theorem handleCount_accounted {env : RequestEnv} {req : CountRequest} {chunks : List (List UInt8)}
    (hslot : ∀ s, slot.session = .snapshot s → s.Tallied calm s.survivorCount)
    (hguard : ∀ s, slot.session = .snapshot s → qsServerKeep req.requestFlags = true →
      s.valueLen = (if req.valueLength = 0 then 4 else req.valueLength) →
      calm → Undisturbed fs (qsParallel req.requestFlags) s)
    (h : handleCount fs env req compareData mask chunks slot = some served) :
    served.Accounted calm := by
  obtain ⟨before, hbefore, h⟩ := Option.bind_eq_some_iff.mp h
  obtain ⟨outcome, houtcome, h⟩ := Option.bind_eq_some_iff.mp h
  rw [countAndSettle, hbefore] at houtcome
  simp only [Option.bind_eq_bind, Option.bind_some] at houtcome
  cases before with
  | rejected =>
    cases houtcome
    cases h
    exact Served.accounted_of_slot hslot
  | streamed entries =>
    cases houtcome
    cases h
    exact Served.accounted_of_slot hslot
  | counted nc session =>
    cases session with
    | free =>
      cases houtcome
      cases h
      exact Served.accounted_of_slot fun _ hs => nomatch hs
    | list l =>
      cases houtcome
      cases h
      exact Served.accounted_of_slot fun _ hs => nomatch hs
    | snapshot s =>
      have hs := flashscanHandleCount_tallied hslot hguard hbefore
      cases houtcome
      cases h
      constructor
      · intro s' hs'
        have heq : s' = s := by
          generalize (if req.valueLength = 0 then 4 else req.valueLength) = vlen at hs'
          split_ifs at hs'
          · exact SnapshotSession.settle_snapshot hs'
          · cases hs'
            rfl
        rw [heq]
        exact hs.self
      · rintro _ _ ⟨⟩
        exact hs.eq

theorem QsRequest.handle_accounted {env : RequestEnv} {ramLimit : Nat} {request : QsRequest}
    (hslot : ∀ s, slot.session = .snapshot s → s.Tallied calm s.survivorCount)
    (hguard : ∀ req data chunks s, request = .count req data chunks → slot.session = .snapshot s →
      qsServerKeep req.requestFlags = true →
      s.valueLen = (if req.valueLength = 0 then 4 else req.valueLength) →
      calm → Undisturbed fs (qsParallel req.requestFlags) s)
    (h : request.handle fs env ramLimit compareData mask slot = some served) :
    served.Accounted calm := by
  cases request with
  | start req data => exact handleStart_accounted hslot h
  | count req data chunks =>
    exact handleCount_accounted hslot (fun s => hguard req data chunks s rfl) h
  | fetch req =>
    rw [QsRequest.handle] at h
    split at h
    · cases h
      exact Served.accounted_of_slot hslot
    · cases h
      exact Served.accounted_of_slot hslot
  | endSession =>
    cases h
    exact Served.accounted_clear _
  | cancel =>
    cases h
    exact Served.accounted_clear _
  | config mb =>
    cases h
    exact Served.accounted_of_slot hslot

theorem QsRequest.handle_survivorCount_le {env : RequestEnv} {ramLimit : Nat} {request : QsRequest}
    (hslot : ∀ s, slot.session = .snapshot s → s.survivorCount ≤ s.popcount)
    (h : request.handle fs env ramLimit compareData mask slot = some served) :
    ∀ s, served.slot.session = .snapshot s → s.survivorCount ≤ s.popcount := by
  have hserved : served.Accounted False :=
    QsRequest.handle_accounted (fun s hs => ⟨rfl, hslot s hs, False.elim⟩)
      (fun _ _ _ _ _ _ _ _ => False.elim) h
  exact fun s hs => (hserved.session s hs).le

end Requests

/-! ## Runs -/

def Server.found (sv : Server) (c : Call) : Session :=
  match sv.slotForClient c.client with
  | some (slot, sv) => ((sv.cancelAll c.cancels).slots slot).session
  | none => .free

/-- A COUNT request that rescans a snapshot is undisturbed. -/
def Server.Calm (sv : Server) (c : Call) : Prop :=
  ∀ req data chunks s, c.request = .count req data chunks → sv.found c = .snapshot s →
    qsServerKeep req.requestFlags = true →
    s.valueLen = (if req.valueLength = 0 then 4 else req.valueLength) →
    Undisturbed c.fsEnv (qsParallel req.requestFlags) s

def Server.Accounted (sv : Server) : Prop :=
  ∀ slot s, (sv.slots slot).session = .snapshot s → s.Counted

abbrev Server.Snapshots (P : SnapshotSession → Prop) (sv : Server) : Prop :=
  ∀ slot s, (sv.slots slot).session = .snapshot s → P s

theorem Server.slots_slotForClient {sv sv' : Server} {fd slot : Nat}
    (h : sv.slotForClient fd = some (slot, sv')) : sv'.slots = sv.slots := by
  rw [Server.slotForClient] at h
  split at h
  · cases h
    rfl
  · split at h
    · cases h
      rfl
    · cases h

theorem Server.serve_cases {sv : Server} {c : Call} {a : Answer} (h : sv.serve c = some a) :
    (a.server.slots = (sv.cancelAll c.cancels).slots ∧ a.counted = none) ∨
    ∃ slot sv' compareData mask served, sv.slotForClient c.client = some (slot, sv') ∧
      c.request.handle c.fsEnv c.env (sv'.cancelAll c.cancels).ramLimit compareData mask
        ((sv'.cancelAll c.cancels).slots slot) = some served ∧
      a.server.slots = update (sv'.cancelAll c.cancels).slots slot served.slot ∧
      a.counted = served.counted := by
  rw [Server.serve] at h
  split at h
  · cases h
    exact .inl ⟨rfl, rfl⟩
  · split at h
    · cases h
      exact .inl ⟨rfl, rfl⟩
    · split at h
      · cases h
        exact .inl ⟨rfl, rfl⟩
      · rename_i hslot
        obtain ⟨served, hserved, h⟩ := Option.bind_eq_some_iff.mp h
        cases h
        exact .inr ⟨_, _, _, _, served, hslot, hserved, rfl, rfl⟩

section Snapshots

variable {P : SnapshotSession → Prop} {sv sv' : Server}

theorem Server.Snapshots.update (h : sv.Snapshots P) {slot : Nat} {x : Slot}
    (hx : ∀ s, x.session = .snapshot s → P s)
    (hslots : sv'.slots = update sv.slots slot x) : sv'.Snapshots P := by
  intro j s hs
  rw [hslots] at hs
  by_cases hj : j = slot
  · subst hj
    rw [update_self] at hs
    exact hx s hs
  · rw [update_of_ne hj] at hs
    exact h j s hs

theorem Server.Snapshots.of_slots (h : sv.Snapshots P) (hslots : sv'.slots = sv.slots) :
    sv'.Snapshots P := by
  intro j s hs
  rw [hslots] at hs
  exact h j s hs

theorem Server.Snapshots.cancelAll (h : sv.Snapshots P) (cancels : List OverlappingCancel) :
    (sv.cancelAll cancels).Snapshots P := by
  induction cancels generalizing sv with
  | nil => exact h
  | cons k rest ih =>
    apply ih
    show (sv.cancel k.client).Snapshots P
    rw [Server.cancel]
    split
    · rename_i slot sv' hslot
      have hclear : ∀ s, Slot.clear.session = .snapshot s → P s := by
        rintro s ⟨⟩
      exact (h.of_slots (Server.slots_slotForClient hslot)).update hclear rfl
    · exact h

end Snapshots

/-- The server, and the count sent last with the snapshot it was sent for. -/
structure World where
  server : Server
  counted : Option (Nat × SnapshotSession)

def World.step (w : World) (c : Call) : Option World :=
  (w.server.serve c).map fun a => ⟨a.server, a.counted⟩

/-- Every snapshot is counted, and so is the one the last count was sent for. -/
structure World.Accounted (w : World) : Prop where
  server : w.server.Accounted
  counted : ∀ n s, w.counted = some (n, s) → n = s.popcount

theorem World.Accounted.step {w w' : World} {c : Call} (h : w.Accounted) (hc : w.server.Calm c)
    (hstep : w.step c = some w') : w'.Accounted := by
  obtain ⟨a, ha, rfl⟩ := Option.map_eq_some_iff.mp hstep
  have haccounted : w.server.Snapshots SnapshotSession.Counted := h.server
  obtain ⟨hslots, hcounted⟩ |
    ⟨slot, sv', compareData, mask, served, hslot, hserved, hslots, hcounted⟩ :=
      Server.serve_cases ha
  · refine ⟨(haccounted.cancelAll c.cancels).of_slots hslots, fun n s hn => ?_⟩
    dsimp only at hn
    rw [hcounted] at hn
    cases hn
  · have hsv := (haccounted.of_slots (Server.slots_slotForClient hslot)).cancelAll c.cancels
    have hfound : w.server.found c = ((sv'.cancelAll c.cancels).slots slot).session := by
      rw [Server.found, hslot]
    have hdone : served.Accounted True := QsRequest.handle_accounted
      (fun s hs => (hsv slot s hs).tallied True)
      (fun req data chunks s hreq hs hkeep hvlen _ =>
        hc req data chunks s hreq (hfound.trans hs) hkeep hvlen) hserved
    refine ⟨hsv.update (fun s hs => (hdone.session s hs).eq trivial) hslots, fun n s hn => ?_⟩
    exact hdone.counted n s (hcounted.symm.trans hn) trivial

theorem survivorCount_le_of_run {calls : List Call} {w : World}
    (h : Run World.step (fun _ _ => True) ⟨Server.init, none⟩ calls w) :
    w.server.Snapshots fun s => s.survivorCount ≤ s.popcount := by
  refine h.invariant
    (P := fun w : World => w.server.Snapshots fun s => s.survivorCount ≤ s.popcount)
    (fun w c w' hw _ hstep => ?_) (by rintro slot s ⟨⟩)
  obtain ⟨a, ha, rfl⟩ := Option.map_eq_some_iff.mp hstep
  obtain ⟨hslots, -⟩ | ⟨slot, sv', compareData, mask, served, hslot, hserved, hslots, -⟩ :=
    Server.serve_cases ha
  · exact (hw.cancelAll c.cancels).of_slots hslots
  · have hsv := (hw.of_slots (Server.slots_slotForClient hslot)).cancelAll c.cancels
    exact hsv.update (QsRequest.handle_survivorCount_le (hsv slot) hserved) hslots

/-- In a run in which every rescan of a snapshot is undisturbed, the survivor counts and
the counts sent are those of the bitmaps. -/
theorem accounted_of_calm_run {calls : List Call} {w : World}
    (h : Run World.step (fun w c ↦ w.server.Calm c) ⟨Server.init, none⟩ calls w) : w.Accounted := by
  refine h.invariant (P := World.Accounted) (fun w c w' hw hc hstep => hw.step hc hstep) ?_
  exact ⟨fun _ _ hs => (nomatch hs), fun _ _ hnone => (nomatch hnone)⟩

/-! ### One client that counts, another one that cancels -/

def quietEnv : RequestEnv where
  fs := calmEnv none
  create := {
    mem := fun _ => 0
    ramLimit := 0
    segTable := true
    bitmap := true
    ram := true
    cache := true
    spillFd := some 3
    firstOpen := true
    prevOpen := true
    readBuf := true
    packBuf := true
    write0 := fun _ _ => true }
  aliasBegin := true

def startOne : Call where
  client := 5
  request := .start ⟨2, .u32, 0, 0, 4, 4, 0x1000, 4⟩ [0, 0, 0, 0]
  env := quietEnv
  cancels := []

def countZeros (cancels : List OverlappingCancel) : Call where
  client := 5
  request := .count ⟨2, .u32, 0, 4, 2, 0⟩ [0, 0, 0, 0] []
  env := quietEnv
  cancels := cancels

def storeSizes : Session → Option (Nat × Nat)
  | .snapshot s => some (s.slotCount * s.valueLen, s.stored)
  | _ => none

def worldAfter (cancels : Option (List OverlappingCancel)) : World :=
  let w := (World.step ⟨Server.init, none⟩ startOne).getD ⟨Server.init, none⟩
  (cancels.bind fun cancels => w.step (countZeros cancels)).getD w

theorem step_startOne : World.step ⟨Server.init, none⟩ startOne = some (worldAfter none) := by
  have hsome : (World.step ⟨Server.init, none⟩ startOne).isSome = true := by decide
  obtain ⟨w, hw⟩ := Option.isSome_iff_exists.mp hsome
  rw [worldAfter, hw]
  rfl

theorem step_countZeros {cancels : List OverlappingCancel}
    (h : ((worldAfter none).step (countZeros cancels)).isSome = true) :
    (worldAfter none).step (countZeros cancels) = some (worldAfter (some cancels)) := by
  obtain ⟨w, hw⟩ := Option.isSome_iff_exists.mp h
  have hworld : worldAfter (some cancels) =
      ((worldAfter none).step (countZeros cancels)).getD (worldAfter none) := rfl
  rw [hworld, hw]
  rfl

theorem accounted_of_calm_run_count :
    Run World.step (fun w c => w.server.Calm c) ⟨Server.init, none⟩ [startOne, countZeros []]
        (worldAfter (some [])) ∧
      (worldAfter (some [])).Accounted := by
  have hsizes : storeSizes ((worldAfter none).server.found (countZeros [])) = some (4, 4) := by
    decide
  have hrun : Run World.step (fun w c => w.server.Calm c) ⟨Server.init, none⟩
      [startOne, countZeros []] (worldAfter (some [])) := by
    refine .cons ?_ step_startOne (.cons ?_ (step_countZeros (by decide)) (.nil _))
    · rintro _ _ _ _ ⟨⟩
    · intro req data chunks s hreq hfound hkeep _
      cases hreq
      rw [hfound, storeSizes, Option.some_inj, Prod.mk.injEq] at hsizes
      refine ⟨fun _ _ => rfl, fun _ _ => rfl, hsizes.1.le.trans hsizes.2.ge, ?_, ?_⟩
      · rintro ⟨⟩
      · rintro ⟨⟩
  exact ⟨hrun, accounted_of_calm_run hrun⟩

def World.countRight (w : World) : Bool := w.counted.all fun p => p.1 = p.2.popcount

theorem World.Accounted.countRight {w : World} (h : w.Accounted) : w.countRight = true := by
  rw [World.countRight, Option.all_eq_true]
  exact fun p hp => decide_eq_true (h.counted p.1 p.2 hp)

theorem cancelled_count_short :
    Run World.step (fun _ _ => True) ⟨Server.init, none⟩ [startOne, countZeros [⟨6, fun _ => true⟩]]
        (worldAfter (some [⟨6, fun _ => true⟩])) ∧
      ¬(worldAfter (some [⟨6, fun _ => true⟩])).Accounted := by
  refine ⟨.cons trivial step_startOne (.cons trivial (step_countZeros (by decide)) (.nil _)),
    fun h => ?_⟩
  have hwrong : (worldAfter (some [⟨6, fun _ => true⟩])).countRight = false := by decide
  rw [h.countRight] at hwrong
  cases hwrong

end MemDbg.FlashScan
