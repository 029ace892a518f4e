import MemDbg.FlashScan.Target
import MemDbg.FlashScan.Accounting
import MemDbg.FlashScan.BodySafe

/-!
# The windows of a rescan

A rescan reads near survivors with one read, and compares each with the bytes of the
window at its place.  Which read a survivor is compared after follows from the
addresses of the survivors alone.  The bytes are those at its own address if the
window covers the survivor and the read gets that far.
-/

namespace MemDbg.FlashScan

open List Lib Scan

/-! ## Survivors and reads -/

structure Comparison where
  slot : Nat
  addr : Nat
  bytes : List UInt8

structure SlotRead where
  slot : Nat
  addr : Nat
  start : Nat
  size : Nat
deriving DecidableEq

section Target

variable {page : Nat} (t : Target page)

def Target.Reads (vlen addr : Nat) : Prop :=
  ∀ k, k < vlen → t.readable (wrap64 (addr + k)) = true

instance (vlen addr : Nat) : Decidable (t.Reads vlen addr) :=
  inferInstanceAs (Decidable (∀ k, k < vlen → t.readable (wrap64 (addr + k)) = true))

def Target.value (vlen addr : Nat) : List UInt8 :=
  (List.range vlen).map fun k => t.mem (wrap64 (addr + k))

def Comparison.Faithful (c : Comparison) (vlen : Nat) : Prop :=
  t.Reads vlen c.addr → c.bytes = t.value vlen c.addr

def SlotRead.comparison (r : SlotRead) (mode : FaultMode) (vlen : Nat) : Comparison :=
  ⟨r.slot, r.addr, ((t.read mode r.start r.size).drop (sub64 r.addr r.start)).take vlen⟩

/-- The read covers the survivor if that can be read, and copies its bytes as far as
they are not zero. -/
def SlotRead.Ok (r : SlotRead) (mode : FaultMode) (vlen : Nat) : Prop :=
  t.Reads vlen r.addr →
    sub64 r.addr r.start + vlen ≤ r.size ∧
      ∀ k, k < vlen → t.Copies mode r.start r.size (sub64 r.addr r.start + k) ∨
        t.mem (wrap64 (r.addr + k)) = 0

variable {t} {mode : FaultMode} {vlen : Nat}

theorem SlotRead.byte_eq (r : SlotRead) (hstart : r.start < 2 ^ 64) (k : Nat) :
    t.byte mode r.start r.size (sub64 r.addr r.start + k) =
      if t.Copies mode r.start r.size (sub64 r.addr r.start + k) then
        t.mem (wrap64 (r.addr + k)) else 0 := by
  have hplace : wrap64 (r.start + (sub64 r.addr r.start + k)) = wrap64 (r.addr + k) := by
    unfold wrap64 sub64
    omega
  rw [Target.byte, hplace]

theorem SlotRead.faithful_iff (r : SlotRead) (hvlen : 0 < vlen) (hstart : r.start < 2 ^ 64) :
    (r.comparison t mode vlen).Faithful t vlen ↔ r.Ok t mode vlen := by
  refine imp_congr_right fun hreads => ?_
  change ((t.read mode r.start r.size).drop (sub64 r.addr r.start)).take vlen = t.value vlen
    r.addr ↔ _
  have hlength : (((t.read mode r.start r.size).drop (sub64 r.addr r.start)).take vlen).length =
      min vlen (r.size - sub64 r.addr r.start) := by
    rw [length_take, length_drop, length_read]
  have hget {k : Nat} (hk : k < vlen) (hfit : sub64 r.addr r.start + vlen ≤ r.size) :
      (((t.read mode r.start r.size).drop (sub64 r.addr r.start)).take vlen).getD k 0 =
        t.byte mode r.start r.size (sub64 r.addr r.start + k) := by
    rw [← getD_read (show sub64 r.addr r.start + k < r.size by omega), getD_eq_getElem?_getD,
      getD_eq_getElem?_getD, getElem?_take, if_pos hk, getElem?_drop]
  have hvalue {k : Nat} (hk : k < vlen) :
      (t.value vlen r.addr).getD k 0 = t.mem (wrap64 (r.addr + k)) := by
    rw [getD_eq_getElem _ _ (by simpa [Target.value] using hk)]
    simp [Target.value]
  constructor
  · intro h
    have hfit : sub64 r.addr r.start + vlen ≤ r.size := by
      have := congrArg List.length h
      rw [hlength, Target.value, length_map, length_range] at this
      omega
    refine ⟨hfit, fun k hk => ?_⟩
    have hbyte := hget hk hfit
    rw [h, hvalue hk, r.byte_eq hstart] at hbyte
    by_cases hcopies : t.Copies mode r.start r.size (sub64 r.addr r.start + k)
    · exact .inl hcopies
    · rw [if_neg hcopies] at hbyte
      exact .inr hbyte
  · rintro ⟨hfit, hcopies⟩
    refine ext_getElem ?_ fun k hk hk' => ?_
    · rw [hlength, Target.value, length_map, length_range]
      omega
    have hk₁ : k < vlen := by
      rw [hlength] at hk
      omega
    rw [← getD_eq_getElem _ 0 hk, ← getD_eq_getElem _ 0 hk', hget hk₁ hfit, hvalue hk₁,
      r.byte_eq hstart]
    rcases hcopies k hk₁ with h | h
    · exact if_pos h
    · rw [h, ite_self]

end Target

/-! ## Snapshots -/

def SnapshotSession.readsFrom (s : SnapshotSession) (vlen chunkEnd : Nat) :
    Nat → Nat → List SlotRead
  | 0, _ => []
  | fuel + 1, i =>
    if i < chunkEnd then
      let winStart := slotToAddr s i
      let (covered, last) := coalesceSlots s vlen chunkEnd winStart chunkEnd
        (bitmapNextSet s.bitmap (i + 1) chunkEnd) (wrap64 (winStart + vlen)) i
      (pointsIn (bitAt s.bitmap) i (last + 1)).map
          (fun k => ⟨k, slotToAddr s k, winStart, sub64 covered winStart⟩) ++
        s.readsFrom vlen chunkEnd fuel (bitmapNextSet s.bitmap (last + 1) chunkEnd)
    else []

def SnapshotSession.reads (s : SnapshotSession) (vlen lo hi : Nat) : List SlotRead :=
  s.readsFrom vlen hi hi (bitmapNextSet s.bitmap lo hi)

/-! ### Logs -/

def compareWindowLog (env : FsEnv) (args : CompareArgs) (win : List UInt8)
    (chunkEnd winStart i last : Nat) :
    Nat → Nat → WindowState → List Comparison × Option WindowState
  | 0, _, w => ([], some w)
  | fuel + 1, k, w =>
    if k ≤ last then
      let addr := slotToAddr w.s k
      let mem := (win.drop (sub64 addr winStart)).take args.vlen
      let base := (w.baseline.drop ((k - i) * args.vlen)).take args.vlen
      let prev := if args.includesPrev then some base else args.betweenHi
      match snapCompare mem args.pattern prev args.mask args.betweenHi args.compareType
          args.vlen with
      | none => ([⟨k, addr, mem⟩], none)
      | some matched =>
        let w := if matched then w.keep env args.vlen i k mem else w.drop k
        let rest := compareWindowLog env args win chunkEnd winStart i last fuel
          (bitmapNextSet w.s.bitmap (k + 1) chunkEnd) w
        (⟨k, addr, mem⟩ :: rest.1, rest.2)
    else ([], some w)

def rescanLoopLog (env : FsEnv) (args : CompareArgs) (chunkEnd : Nat) :
    Nat → Nat → Nat → SnapshotSession → List Comparison × Option (Nat × SnapshotSession)
  | 0, _, survivors, s => ([], some (survivors, s))
  | fuel + 1, i, survivors, s =>
    if i < chunkEnd then
      if env.cancelled i then ([], some (survivors, s))
      else
        let winStart := slotToAddr s i
        let (covered, last) := coalesceSlots s args.vlen chunkEnd winStart chunkEnd
          (bitmapNextSet s.bitmap (i + 1) chunkEnd) (wrap64 (winStart + args.vlen)) i
        let win := flashscanWindowRead env winStart (sub64 covered winStart)
        let off := i * args.vlen
        let len := (last - i + 1) * args.vlen
        let buffered : Bool := off + len > s.snapRam.length
        match if buffered then snapshotStoreRead env s off len
            else some ((s.snapRam.drop off).take len) with
        | none => ([], some (survivors, s))
        | some baseline =>
          let window := compareWindowLog env args win chunkEnd winStart i last chunkEnd i
            ⟨s, baseline, false, survivors⟩
          match window.2 with
          | none => (window.1, none)
          | some w =>
            let s := w.store env off buffered
            let rest := rescanLoopLog env args chunkEnd fuel
              (bitmapNextSet s.bitmap (last + 1) chunkEnd) w.survivors s
            (window.1 ++ rest.1, rest.2)
    else ([], some (survivors, s))

def rescanRangeLog (env : FsEnv) (args : CompareArgs) (lo hi : Nat) (s : SnapshotSession) :
    List Comparison × Option (Nat × SnapshotSession) :=
  rescanLoopLog env args hi hi (bitmapNextSet s.bitmap lo hi) 0 s

section Snapshot

variable {env : FsEnv} {args : CompareArgs} {s s' : SnapshotSession}

theorem compareWindowLog_snd (env : FsEnv) (args : CompareArgs) (win : List UInt8)
    (chunkEnd winStart i last fuel k : Nat) (w : WindowState) :
    (compareWindowLog env args win chunkEnd winStart i last fuel k w).2 =
      compareWindow env args win chunkEnd winStart i last fuel k w := by
  induction fuel generalizing k w with
  | zero => rfl
  | succ fuel ih =>
    rw [compareWindowLog, compareWindow]
    by_cases hk : k ≤ last
    · rw [if_pos hk, if_pos hk]
      dsimp only
      split
      next hnone =>
        rw [hnone]
        rfl
      next matched hsome =>
        rw [hsome]
        exact ih _ _
    · rw [if_neg hk, if_neg hk]

/-! ### What is compared -/

structure SnapshotSession.SameFrom (s s' : SnapshotSession) (i : Nat) : Prop where
  seg : s'.seg = s.seg
  stride : s'.stride = s.stride
  bits : ∀ j, i ≤ j → bitAt s'.bitmap j = bitAt s.bitmap j

theorem SnapshotSession.SameFrom.slotToAddr_eq {i : Nat} (h : s.SameFrom s' i) :
    slotToAddr s' = slotToAddr s := by
  funext k
  rw [slotToAddr, slotToAddr, h.seg, h.stride]

theorem SnapshotSession.SameFrom.next_eq {i j : Nat} (h : s.SameFrom s' i) (hij : i ≤ j)
    (n : Nat) : bitmapNextSet s'.bitmap j n = bitmapNextSet s.bitmap j n :=
  bitmapNextSet_congr fun k hk _ => h.bits k (hij.trans hk)

theorem coalesceSlots_congr {vlen chunkEnd winStart fuel i j covered last : Nat}
    (h : s.SameFrom s' i) (hij : i ≤ j) :
    coalesceSlots s' vlen chunkEnd winStart fuel j covered last =
      coalesceSlots s vlen chunkEnd winStart fuel j covered last := by
  induction fuel generalizing j covered last with
  | zero => rfl
  | succ fuel ih =>
    rw [coalesceSlots, coalesceSlots, h.slotToAddr_eq]
    by_cases hj : j < chunkEnd
    · rw [if_pos hj, if_pos hj, h.next_eq (hij.trans j.le_succ)]
      dsimp only
      rw [ih (le_bitmapNextSet (hij.trans j.le_succ) (hij.trans hj.le))]
    · rw [if_neg hj, if_neg hj]

theorem readsFrom_congr {vlen chunkEnd fuel i : Nat} (h : s.SameFrom s' i) :
    s'.readsFrom vlen chunkEnd fuel i = s.readsFrom vlen chunkEnd fuel i := by
  induction fuel generalizing i with
  | zero => rfl
  | succ fuel ih =>
    rw [SnapshotSession.readsFrom, SnapshotSession.readsFrom]
    by_cases hi : i < chunkEnd
    · have hsucc : i ≤ i + 1 := i.le_succ
      rw [if_pos hi, if_pos hi, h.slotToAddr_eq, h.next_eq hsucc]
      dsimp only
      rw [coalesceSlots_congr h (le_bitmapNextSet hsucc hi.le)]
      generalize hwin : coalesceSlots s vlen chunkEnd (slotToAddr s i) chunkEnd
        (bitmapNextSet s.bitmap (i + 1) chunkEnd) (wrap64 (slotToAddr s i + vlen)) i = window
      obtain ⟨covered, last⟩ := window
      obtain ⟨hlo, hhi⟩ := coalesceSlots_last (le_bitmapNextSet i.le_succ hi.le) (le_refl i) hi hwin
      have hpoints :
        pointsIn (bitAt s'.bitmap) i (last + 1) = pointsIn (bitAt s.bitmap) i (last + 1) :=
        pointsIn_congr fun j hj _ => h.bits j hj
      have hnext : i ≤ bitmapNextSet s.bitmap (last + 1) chunkEnd :=
        le_bitmapNextSet (by omega) hi.le
      rw [hpoints, h.next_eq (by omega), ih ⟨h.seg, h.stride, fun j hj ↦ h.bits j (hnext.trans hj)⟩]
    · rw [if_neg hi, if_neg hi]

theorem compareWindowLog_spec {win : List UInt8} {chunkEnd winStart i last fuel k : Nat}
    {w : WindowState} (hlast : last < chunkEnd) (hfuel : last < k + fuel)
    (hbit : k ≤ last → bitAt w.s.bitmap k = true) :
    let compared := (pointsIn (bitAt w.s.bitmap) k (last + 1)).map fun j => (⟨j, slotToAddr w.s j,
      (win.drop (sub64 (slotToAddr w.s j) winStart)).take args.vlen⟩ : Comparison)
    (compareWindowLog env args win chunkEnd winStart i last fuel k w).1 <+: compared ∧
      ((compareWindowLog env args win chunkEnd winStart i last fuel k w).2.isSome = true →
        (compareWindowLog env args win chunkEnd winStart i last fuel k w).1 = compared) := by
  induction fuel generalizing k w with
  | zero =>
    rw [pointsIn_of_le (by omega)]
    exact ⟨List.nil_prefix, fun _ => rfl⟩
  | succ fuel ih =>
    rw [compareWindowLog]
    by_cases hk : k ≤ last
    · rw [if_pos hk, pointsIn_cons (by omega) (hbit hk)]
      dsimp only
      split
      next hnone => exact ⟨⟨_, rfl⟩, fun h => absurd h (by simp)⟩
      next matched hsome =>
        generalize hw₁ : (if matched then w.keep env args.vlen i k
          ((win.drop (sub64 (slotToAddr w.s k) winStart)).take args.vlen) else w.drop k) = w₁
        have hdecided : w.Decided k matched w₁ := by
          rw [← hw₁]
          cases matched
          · exact w.decided_drop k
          · exact WindowState.decided_keep (hbit hk) env _ _ _
        obtain ⟨bm, prev, hs⟩ := hdecided.session
        have hsame : w.s.SameFrom w₁.s (k + 1) := by
          refine ⟨by rw [hs], by rw [hs], fun j hj => hdecided.bits j (by omega)⟩
        have hnext : k + 1 ≤ bitmapNextSet w₁.s.bitmap (k + 1) chunkEnd :=
          le_bitmapNextSet le_rfl (by omega)
        have hpoints : pointsIn (bitAt w.s.bitmap) (k + 1) (last + 1) =
            pointsIn (bitAt w₁.s.bitmap) (bitmapNextSet w₁.s.bitmap (k + 1) chunkEnd)
              (last + 1) := by
          rw [← pointsIn_bitmapNextSet (by omega) hlast]
          exact (pointsIn_congr fun j hj _ => hsame.bits j hj).symm
        have hrest := ih (w := w₁) (k := bitmapNextSet w₁.s.bitmap (k + 1) chunkEnd) (by omega)
          (fun hle => bitAt_bitmapNextSet (by omega))
        rw [hsame.slotToAddr_eq, ← hpoints] at hrest
        rw [map_cons]
        exact ⟨cons_prefix_cons.mpr ⟨rfl, hrest.1⟩, fun h => congrArg _ (hrest.2 h)⟩
    · rw [if_neg hk, pointsIn_of_le (by omega)]
      exact ⟨List.nil_prefix, fun _ => rfl⟩

theorem length_baseline {off len : Nat} {baseline : List UInt8}
    (h : (if decide (off + len > s.snapRam.length) = true then snapshotStoreRead env s off len
      else some ((s.snapRam.drop off).take len)) = some baseline) : baseline.length = len := by
  split_ifs at h with hbuffered
  · exact length_snapshotStoreRead h
  · cases h
    rw [decide_eq_true_iff] at hbuffered
    rw [length_take, length_drop]
    omega

theorem store_layout (w : WindowState) (env : FsEnv) (off : Nat) (buffered : Bool) :
    (w.store env off buffered).seg = w.s.seg ∧ (w.store env off buffered).stride = w.s.stride := by
  unfold WindowState.store snapshotStoreWrite
  split_ifs <;> exact ⟨rfl, rfl⟩

theorem WindowState.Scanned.sameFrom_store {lo hi : Nat} {w w' : WindowState}
    (h : w.Scanned lo hi w') (env : FsEnv) (off : Nat) (buffered : Bool) :
    w.s.SameFrom (w'.store env off buffered) hi ∧
      w.s.stored ≤ (w'.store env off buffered).stored := by
  obtain ⟨bm, prev, hs⟩ := h.session
  obtain ⟨hbitmap, -, -, hstored⟩ := w'.store_spec env off buffered
  obtain ⟨hseg, hstride⟩ := store_layout w' env off buffered
  refine ⟨⟨by rw [hseg, hs], by rw [hstride, hs], fun j hj => ?_⟩, ?_⟩
  · rw [hbitmap, h.bits j (.inr hj)]
  · rw [hs] at hstored
    exact hstored

theorem rescanLoopLog_spec {page : Nat} {t : Target page} {mode : FaultMode}
    (hsees : env.Sees mode t) {chunkEnd fuel i survivors : Nat}
    (hbit : i < chunkEnd → bitAt s.bitmap i = true) :
    let compared := (s.readsFrom args.vlen chunkEnd fuel i).map
      fun r => r.comparison t mode args.vlen
    (rescanLoopLog env args chunkEnd fuel i survivors s).1 <+: compared ∧
      (env.Obliging → args.Supplied → chunkEnd * args.vlen ≤ s.stored →
        (rescanLoopLog env args chunkEnd fuel i survivors s).1 = compared) := by
  induction fuel generalizing i survivors s with
  | zero => exact ⟨List.nil_prefix, fun _ _ _ => rfl⟩
  | succ fuel ih =>
    rw [rescanLoopLog, SnapshotSession.readsFrom]
    by_cases hi : i < chunkEnd
    · rw [if_pos hi, if_pos hi]
      by_cases hcancel : env.cancelled i = true
      · rw [if_pos hcancel]
        exact ⟨List.nil_prefix, fun h => absurd hcancel (by rw [h.cancelled]; decide)⟩
      rw [if_neg hcancel]
      dsimp only
      generalize hwin : coalesceSlots s args.vlen chunkEnd (slotToAddr s i) chunkEnd
        (bitmapNextSet s.bitmap (i + 1) chunkEnd) (wrap64 (slotToAddr s i + args.vlen)) i = window
      obtain ⟨covered, last⟩ := window
      obtain ⟨hlo, hhi⟩ := coalesceSlots_last (le_bitmapNextSet i.le_succ hi.le) (le_refl i) hi hwin
      rw [hsees.windowRead]
      have hlen : chunkEnd * args.vlen ≤ s.stored →
          i * args.vlen + (last - i + 1) * args.vlen ≤ s.stored := by
        intro hstored
        calc
          i * args.vlen + (last - i + 1) * args.vlen = (i + (last - i + 1)) * args.vlen := by ring
          _ ≤ chunkEnd * args.vlen := Nat.mul_le_mul_right _ (by omega)
          _ ≤ _ := hstored
      split
      next hnone =>
        refine ⟨List.nil_prefix, fun h _ hstored => ?_⟩
        split_ifs at hnone
        have hsome := isSome_snapshotStoreRead h.pread (hlen hstored)
        rw [hnone] at hsome
        cases hsome
      next baseline hbase =>
        have hwindow := @compareWindowLog_spec env args
          (t.read mode (slotToAddr s i) (sub64 covered (slotToAddr s i))) chunkEnd
            (slotToAddr s i) i
          last chunkEnd i ⟨s, baseline, false, survivors⟩ hhi (by omega) (fun _ => hbit hi)
        have hsnd := compareWindowLog_snd env args
          (t.read mode (slotToAddr s i) (sub64 covered (slotToAddr s i))) chunkEnd
            (slotToAddr s i) i
          last chunkEnd i ⟨s, baseline, false, survivors⟩
        generalize compareWindowLog env args
          (t.read mode (slotToAddr s i) (sub64 covered (slotToAddr s i))) chunkEnd
            (slotToAddr s i) i
          last chunkEnd i ⟨s, baseline, false, survivors⟩ = window at hwindow hsnd ⊢
        obtain ⟨log, result⟩ := window
        rw [map_append, map_map]
        cases result with
        | none =>
          refine ⟨hwindow.1.trans (prefix_append _ _), fun _ hargs _ => ?_⟩
          have hsome := @compareWindow_isSome args hargs env
            (t.read mode (slotToAddr s i) (sub64 covered (slotToAddr s i))) (slotToAddr s i)
            chunkEnd i last hi.le chunkEnd i ⟨s, baseline, false, survivors⟩ le_rfl
            (length_baseline hbase).ge
          rw [← hsnd] at hsome
          cases hsome
        | some w =>
          have hscan : WindowState.Scanned i (last + 1) ⟨s, baseline, false, survivors⟩ w :=
            compareWindow_scanned hhi (by omega) (fun _ => hbit hi) hsnd.symm
          obtain ⟨hsame, hstored⟩ := hscan.sameFrom_store env (i * args.vlen)
            (decide (i * args.vlen + (last - i + 1) * args.vlen > s.snapRam.length))
          dsimp only at hsame hstored ⊢
          generalize w.store env (i * args.vlen)
            (decide (i * args.vlen + (last - i + 1) * args.vlen > s.snapRam.length)) = s₁
            at hsame hstored ⊢
          have hrest := @ih s₁ (bitmapNextSet s₁.bitmap (last + 1) chunkEnd) w.survivors
            (fun hlt => bitAt_bitmapNextSet hlt)
          rw [hsame.next_eq le_rfl] at hrest ⊢
          rw [readsFrom_congr (s := s) ⟨hsame.seg, hsame.stride, fun j hj =>
            hsame.bits j ((le_bitmapNextSet le_rfl hhi).trans hj)⟩] at hrest
          have hfirst := hwindow.2 rfl
          dsimp only at hfirst
          rw [hfirst]
          refine ⟨(prefix_append_right_inj _).mpr hrest.1, fun h hargs hfit => ?_⟩
          rw [hrest.2 h hargs (hfit.trans hstored)]
          rfl
    · rw [if_neg hi, if_neg hi]
      exact ⟨List.nil_prefix, fun _ _ _ => rfl⟩

theorem start_lt_of_mem_readsFrom {vlen chunkEnd fuel i : Nat} {r : SlotRead}
    (h : r ∈ s.readsFrom vlen chunkEnd fuel i) : r.start < 2 ^ 64 := by
  induction fuel generalizing i with
  | zero => cases h
  | succ fuel ih =>
    rw [SnapshotSession.readsFrom] at h
    split_ifs at h with hi
    · dsimp only at h
      rcases mem_append.mp h with hr | hr
      · obtain ⟨k, -, rfl⟩ := mem_map.mp hr
        exact Nat.mod_lt _ (by decide)
      · exact ih hr
    · cases h

def zeroArgs (vlen : Nat) :
    CompareArgs := ⟨0, vlen, some (List.replicate vlen 0), none, none, false⟩

theorem zeroArgs_supplied (vlen : Nat) : (zeroArgs vlen).Supplied where
  needs := show needsData 0 = true by decide
  pattern := ⟨_, rfl, length_replicate.ge⟩
  betweenHi := rfl
  includesPrev h := absurd h (Nat.zero_ne_add_one 2)

/-- Every survivor of a range is compared by the bytes at its own address, whatever the
store holds and the request asks for, and wherever the rescan is stopped. -/
def SnapshotSession.RescanFaithful {page : Nat} (s : SnapshotSession) (lo hi : Nat)
    (mode : FaultMode) (t : Target page) : Prop :=
  ∀ env args s', env.Sees mode t → args.vlen = s.valueLen → s.SameFrom s' 0 →
    ∀ c ∈ (rescanRangeLog env args lo hi s').1, c.Faithful t s.valueLen

theorem rescanFaithful_iff {page : Nat} (s : SnapshotSession) (lo hi : Nat) (mode : FaultMode)
    (t : Target page) :
    s.RescanFaithful lo hi mode t ↔ ∀ r ∈ s.reads s.valueLen lo hi, r.Ok t mode s.valueLen := by
  have hreads {s' : SnapshotSession} (h : s.SameFrom s' 0) :
      s'.readsFrom s.valueLen hi hi (bitmapNextSet s'.bitmap lo hi) = s.reads s.valueLen lo hi := by
    rw [SnapshotSession.reads, h.next_eq (Nat.zero_le lo)]
    exact readsFrom_congr ⟨h.seg, h.stride, fun j _ => h.bits j (Nat.zero_le j)⟩
  constructor
  · intro h r hr
    have hsame : s.SameFrom { s with snapRam := List.replicate (hi * s.valueLen) 0 } 0 :=
      ⟨rfl, rfl, fun _ _ => rfl⟩
    have hlog := (@rescanLoopLog_spec _ _ { s with snapRam := List.replicate (hi * s.valueLen) 0 }
      page t mode (sees_facing (calmEnv none) mode t) hi hi _ 0
      (fun hlt => @bitAt_bitmapNextSet _ _ lo hlt)).2
      ⟨fun _ => rfl, fun _ _ => rfl, fun _ => rfl⟩ (zeroArgs_supplied s.valueLen) (by
        rw [SnapshotSession.stored, length_replicate]
        exact Nat.le_add_right _ _)
    rw [← r.faithful_iff s.valueLen_pos (start_lt_of_mem_readsFrom hr)]
    refine h _ (zeroArgs s.valueLen) _ (sees_facing (calmEnv none) mode t) rfl hsame _ ?_
    rw [rescanRangeLog, hlog]
    change _ ∈ (SnapshotSession.readsFrom _ s.valueLen hi hi _).map _
    rw [hreads hsame]
    exact mem_map_of_mem hr
  · intro h env args s' hsees hvlen hsame c hc
    have hlog := (@rescanLoopLog_spec env args s' page t mode hsees hi hi
      (bitmapNextSet s'.bitmap lo hi) 0 (fun hlt => bitAt_bitmapNextSet hlt)).1
    have hmem := hlog.subset hc
    rw [hvlen, hreads hsame] at hmem
    obtain ⟨r, hr, rfl⟩ := mem_map.mp hmem
    exact (r.faithful_iff s.valueLen_pos (start_lt_of_mem_readsFrom hr)).mpr (h r hr)

end Snapshot

/-! ## Lists -/

structure Extent where
  start : Nat
  stop : Nat
  size : Nat

def Extent.seek (e : Extent) (vlen addr : Nat) (rest : List Nat) : Extent :=
  if addr < e.start ∨ wrap64 (addr + vlen) > e.stop then
    let size := sub64 (extendWindow vlen addr rest (wrap64 (addr + vlen))) addr
    ⟨addr, wrap64 (addr + size), size⟩
  else e

def listReads (vlen : Nat) : List Nat → Nat → Extent → List SlotRead
  | [], _, _ => []
  | addr :: rest, i, e =>
    let e := e.seek vlen addr rest
    ⟨i, addr, e.start, e.size⟩ :: listReads vlen rest (i + 1) e

def listRescanLog (env : FsEnv) (args : CompareArgs) (s : ListSession) :
    List ListRecord → Nat → Window → List ListRecord → List Comparison × Option (List ListRecord)
  | [], _, _, out => ([], some out)
  | r :: rest, i, win, out =>
    let win := win.seek env args.vlen r.addr (rest.map ListRecord.addr)
    let mem := win.value args.vlen r.addr
    match listCompare mem args with
    | none => ([⟨i, r.addr, mem⟩], none)
    | some matched =>
      let log := listRescanLog env args s rest (i + 1) win
        (if matched then out ++ [s.survivor r i out.length mem] else out)
      (⟨i, r.addr, mem⟩ :: log.1, log.2)

section Lists

variable {env : FsEnv} {args : CompareArgs} {page : Nat} {t : Target page} {mode : FaultMode}

structure Window.Holds (w : Window) (e : Extent) (mode : FaultMode) (t : Target page) : Prop where
  start : w.start = e.start
  stop : w.stop = e.stop
  bytes : w.bytes = t.read mode e.start e.size

theorem Window.Holds.seek {w : Window} {e : Extent} (h : w.Holds e mode t)
    (hsees : env.Sees mode t) (vlen addr : Nat) (rest : List Nat) :
    (w.seek env vlen addr rest).Holds (e.seek vlen addr rest) mode t := by
  rw [Window.seek, Extent.seek, h.start, h.stop]
  split_ifs
  · exact ⟨rfl, rfl, hsees.windowRead _ _⟩
  · exact h

theorem listRescanLog_spec (hsees : env.Sees mode t) (s : ListSession) {rs : List ListRecord}
    {i : Nat} {win : Window} {e : Extent} (hwin : win.Holds e mode t) (out : List ListRecord) :
    let compared := (listReads args.vlen (rs.map ListRecord.addr) i e).map
      fun r => r.comparison t mode args.vlen
    (listRescanLog env args s rs i win out).1 <+: compared ∧
      (args.Supplied → (listRescanLog env args s rs i win out).1 = compared) := by
  induction rs generalizing i win e out with
  | nil => exact ⟨List.nil_prefix, fun _ => rfl⟩
  | cons r rest ih =>
    have hseek := hwin.seek hsees args.vlen r.addr (rest.map ListRecord.addr)
    rw [listRescanLog, map_cons, listReads]
    have hfirst : (⟨i, r.addr, (win.seek env args.vlen r.addr (rest.map ListRecord.addr)).value
        args.vlen r.addr⟩ : Comparison) = SlotRead.comparison t ⟨i, r.addr,
          (e.seek args.vlen r.addr (rest.map ListRecord.addr)).start,
          (e.seek args.vlen r.addr (rest.map ListRecord.addr)).size⟩ mode args.vlen := by
      rw [Window.value, hseek.bytes, hseek.start]
      rfl
    split
    next hnone =>
      rw [map_cons, hfirst]
      refine ⟨⟨_, rfl⟩, fun hargs => ?_⟩
      have hsome := listCompare_isSome hargs
        ((win.seek env args.vlen r.addr (rest.map ListRecord.addr)).value args.vlen r.addr)
      rw [hnone] at hsome
      cases hsome
    next matched hsome =>
      have hrest := ih (i := i + 1) hseek (if matched then out ++ [s.survivor r i out.length
        ((win.seek env args.vlen r.addr (rest.map ListRecord.addr)).value args.vlen r.addr)]
          else out)
      rw [map_cons, hfirst]
      exact ⟨cons_prefix_cons.mpr ⟨rfl, hrest.1⟩, fun hargs => congrArg _ (hrest.2 hargs)⟩

theorem start_lt_of_mem_listReads {vlen i : Nat} {addrs : List Nat} {e : Extent}
    (hstart : e.start < 2 ^ 64) (haddrs : ∀ a ∈ addrs, a < 2 ^ 64) {r : SlotRead}
    (h : r ∈ listReads vlen addrs i e) : r.start < 2 ^ 64 := by
  induction addrs generalizing i e with
  | nil => cases h
  | cons addr rest ih =>
    have hseek : (e.seek vlen addr rest).start < 2 ^ 64 := by
      rw [Extent.seek]
      split_ifs
      · exact haddrs addr mem_cons_self
      · exact hstart
    rw [listReads] at h
    rcases mem_cons.mp h with rfl | hr
    · exact hseek
    · exact ih hseek (fun a ha => haddrs a (mem_cons_of_mem _ ha)) hr

/-- Every record of a list is compared by the bytes at its own address, whatever the
request asks for. -/
def ListSession.RescanFaithful (s : ListSession) (mode : FaultMode) (t : Target page) : Prop :=
  ∀ env args, env.Sees mode t → args.vlen = s.valueLen →
    ∀ c ∈ (listRescanLog env args s s.records 0 ⟨0, 0, []⟩ []).1, c.Faithful t s.valueLen

def ListSession.reads (s : ListSession) : List SlotRead :=
  listReads s.valueLen (s.records.map ListRecord.addr) 0 ⟨0, 0, 0⟩

theorem listRescanFaithful_iff {s : ListSession} (hvlen : 0 < s.valueLen)
    (haddrs : ∀ r ∈ s.records, r.addr < 2 ^ 64) (mode : FaultMode) (t : Target page) :
    s.RescanFaithful mode t ↔ ∀ r ∈ s.reads, r.Ok t mode s.valueLen := by
  have hempty : Window.Holds ⟨0, 0, []⟩ ⟨0, 0, 0⟩ mode t := ⟨rfl, rfl, rfl⟩
  have hstart {r : SlotRead} (hr : r ∈ s.reads) : r.start < 2 ^ 64 := by
    refine start_lt_of_mem_listReads (by decide) (fun a ha => ?_) hr
    obtain ⟨r, hr, rfl⟩ := mem_map.mp ha
    exact haddrs r hr
  constructor
  · intro h r hr
    have hlog :=
      (@listRescanLog_spec _ _ page t mode (sees_facing (calmEnv none) mode t) s s.records
      0 _ _ hempty []).2 (zeroArgs_supplied s.valueLen)
    rw [← r.faithful_iff hvlen (hstart hr)]
    refine h _ (zeroArgs s.valueLen) (sees_facing (calmEnv none) mode t) rfl _ ?_
    rw [hlog]
    exact mem_map_of_mem hr
  · intro h env args hsees hargs c hc
    have hmem := (@listRescanLog_spec env args page t mode hsees s s.records 0 _ _ hempty
      []).1.subset hc
    rw [hargs] at hmem
    obtain ⟨r, hr, rfl⟩ := mem_map.mp hmem
    exact (r.faithful_iff hvlen (hstart hr)).mpr (h r hr)

end Lists

/-! ## Rescans -/

/-- **Rescan windows.** For every target, every session and every range of its slots, or
every list of records: each survivor is compared by the bytes at its own address whenever
these can be read, if and only if every read that is made for a survivor covers it and
copies its bytes. -/
theorem windowsFaithful_iff {page : Nat} (mode : FaultMode) (t : Target page) :
    (∀ (s : SnapshotSession) (lo hi : Nat), s.RescanFaithful lo hi mode t ↔
        ∀ r ∈ s.reads s.valueLen lo hi, r.Ok t mode s.valueLen) ∧
      ∀ s : ListSession, 0 < s.valueLen → (∀ r ∈ s.records, r.addr < 2 ^ 64) →
        (s.RescanFaithful mode t ↔ ∀ r ∈ s.reads, r.Ok t mode s.valueLen) :=
  ⟨fun s lo hi => rescanFaithful_iff s lo hi mode t,
    fun _ hvlen haddrs => listRescanFaithful_iff hvlen haddrs mode t⟩

def holeTarget : Target 0x1000 where
  mem _ := 1
  readable x := decide (x / 0x1000 ≠ 0x11)
  paged x y h := by rw [h]

def twoSlots (stride : Nat) : SnapshotSession where
  bitmap := [0xFF]
  slotCount := 2
  survivorCount := 2
  stride := stride
  snapRam := [1, 0, 0, 0, 1, 0, 0, 0]
  snapFile := []
  hasFirst := false
  firstFile := []
  hasPrev := false
  prevFile := []
  seg := [⟨0x10000, 0, 2⟩]
  valueLen := 4
  pid := 2
  valueType := .u32
  valueLen_pos := fourBytes_pos
  valueLen_le := fourBytes_le

def oneRecord : ListSession where
  records := [⟨0x10000, [1, 0, 0, 0], [], []⟩]
  recSize := 12
  bufCap := 0x200000
  valueLen := 4
  pid := 2
  valueType := .u32
  hasPrev := false
  hasFirst := false

theorem SlotRead.ok_alone {page : Nat} (t : Target page) (mode : FaultMode) (slot addr : Nat)
    {vlen : Nat} (haddr : addr < 2 ^ 64) :
    (⟨slot, addr, addr, vlen⟩ : SlotRead).Ok t mode vlen := by
  have hself : sub64 addr addr = 0 := by rw [sub64_of_le le_rfl haddr, Nat.sub_self]
  intro hreads
  rw [hself, Nat.zero_add]
  refine ⟨le_rfl, fun k hk => .inl fun j hj => hreads j ?_⟩
  rw [Nat.zero_add] at hj
  exact hj.trans_le (mode.needs_le hk).2

theorem windowsFaithful_iff_apart :
    (twoSlots 0x9000).RescanFaithful 0 2 .whole holeTarget ∧
      oneRecord.RescanFaithful .whole holeTarget := by
  obtain ⟨hsnapshot, hlist⟩ := windowsFaithful_iff .whole holeTarget
  refine ⟨(hsnapshot (twoSlots 0x9000) 0 2).mpr ?_,
    (hlist oneRecord (by decide) (by decide)).mpr ?_⟩
  · have hreads : (twoSlots 0x9000).reads (twoSlots 0x9000).valueLen 0 2 =
        [⟨0, 0x10000, 0x10000, 4⟩, ⟨1, 0x19000, 0x19000, 4⟩] := by decide
    rw [hreads]
    simp only [forall_mem_cons]
    exact ⟨SlotRead.ok_alone _ _ _ _ (by decide), SlotRead.ok_alone _ _ _ _ (by decide), by simp⟩
  · have hreads : oneRecord.reads = [⟨0, 0x10000, 0x10000, 4⟩] := by decide
    rw [hreads]
    simp only [forall_mem_cons]
    exact ⟨SlotRead.ok_alone _ _ _ _ (by decide), by simp⟩

theorem windows_not_faithful :
    ¬ ((∀ (page : Nat) (mode : FaultMode) (t : Target page) (s : SnapshotSession) (lo hi : Nat),
        s.RescanFaithful lo hi mode t) ∧
      ∀ (page : Nat) (mode : FaultMode) (t : Target page) (s : ListSession), 0 < s.valueLen →
        (∀ r ∈ s.records, r.addr < 2 ^ 64) → s.RescanFaithful mode t) := by
  rintro ⟨h, -⟩
  have hok := (rescanFaithful_iff (twoSlots 0x2000) 0 2 .whole holeTarget).mp
    (h 0x1000 .whole holeTarget (twoSlots 0x2000) 0 2) ⟨0, 0x10000, 0x10000, 0x2004⟩ (by decide)
  obtain ⟨-, hcopies⟩ := hok (by decide)
  rcases hcopies 0 (by decide) with hcopied | hzero
  · exact absurd (hcopied 0x1000 (by decide)) (by decide)
  · exact absurd hzero (by decide)

end MemDbg.FlashScan
