import MemDbg.FlashScan.Accounting

/-!
# What a snapshot has recorded

The values of a snapshot are read window by window and packed.  Where they all fit into memory they
are found there again.  Where they do not, the store is written before the session knows where it
is, and what is read from it later is something else.
-/

namespace MemDbg.FlashScan

open List Lib Scan

/-! ## Values by slots -/

def slotAt (v : Nat) (bytes : List UInt8) (i : Nat) : List UInt8 := (bytes.drop (i * v)).take v

section Slots

variable {v m n i k : Nat} {bytes src : List UInt8}

theorem slotAt_append_left {rest : List UInt8} (h : i * v + v ≤ bytes.length) :
    slotAt v (bytes ++ rest) i = slotAt v bytes i := by
  rw [slotAt, slotAt, drop_append_of_le_length (by omega),
    take_append_of_le_length (by rw [length_drop]; omega)]

theorem slotAt_append_right {rest : List UInt8} (h : bytes.length = m * v) :
    slotAt v (bytes ++ rest) (m + i) = slotAt v rest i := by
  rw [slotAt, slotAt, Nat.add_mul, ← h, ← drop_drop, drop_left]

theorem slot_end_le (h : i < m) : i * v + v ≤ m * v := by
  rw [← Nat.succ_mul]
  exact Nat.mul_le_mul_right v h

theorem slotAt_flatMap {f : Nat → List UInt8} (hf : ∀ j, j < n → (f j).length = v) (hk : k < n) :
    ((List.range n).flatMap f).length = n * v ∧ slotAt v ((List.range n).flatMap f) k = f k := by
  have hlen : ∀ n', n' ≤ n → ((List.range n').flatMap f).length = n' * v := by
    intro n' hn'
    induction n' with
    | zero => rw [Nat.zero_mul]; rfl
    | succ n' ih =>
      rw [range_succ, flatMap_append, length_append, ih (by omega),
        flatMap_singleton, hf n' hn', Nat.succ_mul]
  refine ⟨hlen n le_rfl, ?_⟩
  have hslot : ∀ n', n' ≤ n → k < n' → slotAt v ((List.range n').flatMap f) k = f k := by
    intro n' hn' hk'
    induction n' with
    | zero => exact absurd hk' (Nat.not_lt_zero k)
    | succ n' ih =>
      rw [range_succ, flatMap_append, flatMap_singleton]
      rcases Nat.lt_succ_iff_lt_or_eq.mp hk' with hlt | rfl
      · rw [slotAt_append_left (by rw [hlen n' (by omega)]; exact slot_end_le hlt)]
        exact ih (by omega) hlt
      · have hself := @slotAt_append_right v k 0 _ (f k) (hlen k (by omega))
        rw [Nat.add_zero] at hself
        rw [hself, slotAt, Nat.zero_mul, drop_zero, take_of_length_le (hf k hn').le]
  exact hslot n le_rfl hk

theorem length_overwrite_of_le {off : Nat} (h : off ≤ bytes.length) :
    (overwrite bytes off src).length = max bytes.length (off + src.length) := by
  rw [overwrite, Nat.sub_eq_zero_of_le h, replicate_zero, append_nil, length_append,
    length_append, length_take, length_drop]
  omega

theorem slotAt_overwrite_of_lt (h : m * v ≤ bytes.length) (hi : i < m) :
    slotAt v (overwrite bytes (m * v) src) i = slotAt v bytes i := by
  have hle := @slot_end_le v m i hi
  rw [overwrite, Nat.sub_eq_zero_of_le h, replicate_zero, append_nil, append_assoc,
    slotAt_append_left (by rw [length_take, Nat.min_eq_left h]; exact hle)]
  conv_rhs => rw [← take_append_drop (m * v) bytes]
  rw [slotAt_append_left (by rw [length_take, Nat.min_eq_left h]; exact hle)]

theorem slotAt_overwrite_of_ge (h : m * v ≤ bytes.length) (hsrc : src.length = n * v) (hi : i < n) :
    slotAt v (overwrite bytes (m * v) src) (m + i) = slotAt v src i := by
  rw [overwrite, Nat.sub_eq_zero_of_le h, replicate_zero, append_nil, append_assoc,
    slotAt_append_right (by rw [length_take, Nat.min_eq_left h]),
    slotAt_append_left (by rw [hsrc]; exact slot_end_le hi)]

end Slots

/-! ## Addresses -/

section Search

variable {segs : List FsSeg} {i : Nat}

theorem segSearch_spec (fuel : Nat) {lo hi : Nat}
    (hlo : (segs.getD lo ⟨0, 0, 0⟩).slotStart ≤ i) (hlt : lo < hi)
    (hhi : hi = segs.length ∨ i < (segs.getD hi ⟨0, 0, 0⟩).slotStart) (hfuel : hi ≤ lo + fuel + 1) :
    segSearch segs i fuel lo hi < hi ∧
      (segs.getD (segSearch segs i fuel lo hi) ⟨0, 0, 0⟩).slotStart ≤ i ∧
        (segSearch segs i fuel lo hi + 1 = segs.length ∨
          i < (segs.getD (segSearch segs i fuel lo hi + 1) ⟨0, 0, 0⟩).slotStart) := by
  induction fuel generalizing lo hi with
  | zero =>
    obtain rfl : hi = lo + 1 := by omega
    exact ⟨hlt, hlo, hhi⟩
  | succ fuel ih =>
    rw [segSearch]
    dsimp only
    split_ifs with hmore hmid
    · exact ih hmid (by omega) hhi (by omega)
    · have hmore : lo < (lo + hi) / 2 := by omega
      obtain ⟨hend, hstart, hnext⟩ := ih hlo hmore (.inr (Nat.lt_of_not_le hmid)) (by omega)
      exact ⟨by omega, hstart, hnext⟩
    · obtain rfl : hi = lo + 1 := by omega
      exact ⟨hlt, hlo, hhi⟩

theorem le_slotStart {vlen step slotCount : Nat} {gs : List Segment} {seg : FsSeg}
    (h : seg ∈ segTable vlen step slotCount gs) : slotCount ≤ seg.slotStart := by
  induction gs generalizing slotCount with
  | nil => cases h
  | cons g gs ih =>
    rw [segTable] at h
    rcases mem_cons.mp h with rfl | h
    · exact le_rfl
    · exact (Nat.le_add_right _ _).trans (ih h)

theorem pairwise_segTable (vlen step slotCount : Nat) (gs : List Segment) :
    (segTable vlen step slotCount gs).Pairwise fun a b => a.slotStart + a.nslots ≤ b.slotStart := by
  induction gs generalizing slotCount with
  | nil => exact .nil
  | cons g gs ih => exact .cons (fun seg hseg => le_slotStart hseg) (ih _)

theorem segSearch_eq (hsegs : segs.Pairwise fun a b => a.slotStart + a.nslots ≤ b.slotStart)
    (hzero : (segs.getD 0 ⟨0, 0, 0⟩).slotStart = 0) {j : Nat} {seg : FsSeg}
    (hj : segs[j]? = some seg) (hle : seg.slotStart ≤ i) (hlt : i < seg.slotStart + seg.nslots) :
    segSearch segs i segs.length 0 segs.length = j := by
  obtain ⟨hjlt, hseg⟩ := List.getElem?_eq_some_iff.mp hj
  obtain ⟨hend, hstart, hnext⟩ := @segSearch_spec segs i segs.length 0 segs.length
    (by rw [hzero]; exact Nat.zero_le i) (by omega) (.inl rfl) (by omega)
  generalize segSearch segs i segs.length 0 segs.length = r at hend hstart hnext
  have hget : ∀ {k : Nat} (hk : k < segs.length), segs.getD k ⟨0, 0, 0⟩ = segs[k] := by
    intro k hk
    rw [getD_eq_getElem?_getD, getElem?_eq_getElem hk, Option.getD_some]
  rcases Nat.lt_trichotomy r j with hrj | heq | hjr
  · rcases hnext with hnext | hnext
    · omega
    · rw [hget (by omega)] at hnext
      rcases Nat.lt_or_ge (r + 1) j with hrj' | hrj'
      · have hpair := pairwise_iff_getElem.mp hsegs (r + 1) j (by omega) hjlt hrj'
        rw [hseg] at hpair
        omega
      · obtain rfl : r + 1 = j := by omega
        rw [hseg] at hnext
        omega
  · exact heq
  · have hpair := pairwise_iff_getElem.mp hsegs j r hjlt hend hjr
    rw [hget hend] at hstart
    rw [hseg] at hpair
    omega

end Search

namespace CreateRequest

variable {req : CreateRequest} {env : CreateEnv}

def slotAddr (req : CreateRequest) (i : Nat) : Nat :=
  let seg := req.seg.getD (segSearch req.seg i req.seg.length 0 req.seg.length) ⟨0, 0, 0⟩
  wrap64 (seg.addr + sub64 i seg.slotStart * req.step)

def value (req : CreateRequest) (env : CreateEnv) (i : Nat) : List UInt8 :=
  readTarget env.mem (req.slotAddr i) req.vlen

@[simp] theorem length_value (i : Nat) : (req.value env i).length = req.vlen := by
  rw [value, readTarget, length_map, length_range]

theorem slotAddr_of_mem {seg : FsSeg} (hseg : seg ∈ req.seg) {k : Nat} (hk : k < seg.nslots)
    (hsmall : seg.slotStart + k < 2 ^ 64) :
    req.slotAddr (seg.slotStart + k) = wrap64 (seg.addr + k * req.step) := by
  obtain ⟨j, hj⟩ := getElem?_of_mem hseg
  have hzero : (req.seg.getD 0 ⟨0, 0, 0⟩).slotStart = 0 := by
    rw [CreateRequest.seg]
    cases req.segs with
    | nil => rfl
    | cons g gs => rfl
  have hsearch : segSearch req.seg (seg.slotStart + k) req.seg.length 0 req.seg.length = j :=
    segSearch_eq (pairwise_segTable _ _ _ _) hzero hj
      (Nat.le_add_right seg.slotStart k) (Nat.add_lt_add_left hk _)
  rw [slotAddr, hsearch, getD_eq_getElem?_getD, hj, Option.getD_some]
  rw [sub64_of_le (Nat.le_add_right _ _) hsmall, Nat.add_sub_cancel_left]

/-! ## Windows -/

inductive Consecutive (req : CreateRequest) : Nat → List SnapWindow → Nat → Prop
  | nil (m : Nat) : Consecutive req m [] m
  | cons {m m' : Nat} {win : SnapWindow} {rest : List SnapWindow} (gslot : win.gslot = m)
      (pos : 0 < win.winSlots)
      (addr : ∀ k < win.winSlots, req.slotAddr (m + k) = wrap64 (win.waddr + k * req.step))
      (next : Consecutive req (m + win.winSlots) rest m') : Consecutive req m (win :: rest) m'

theorem Consecutive.append {a b c : Nat} {xs ys : List SnapWindow} (h : req.Consecutive a xs b)
    (h' : req.Consecutive b ys c) : req.Consecutive a (xs ++ ys) c := by
  induction h with
  | nil _ => exact h'
  | cons gslot pos addr _ ih => exact .cons gslot pos addr (ih h')

theorem Consecutive.le {a b : Nat} {xs : List SnapWindow} (h : req.Consecutive a xs b) : a ≤ b := by
  induction h with
  | nil _ => exact le_rfl
  | cons _ _ _ _ ih => omega

theorem wrap64_add_wrap64 (a b : Nat) : wrap64 (wrap64 a + b) = wrap64 (a + b) := by
  rw [wrap64, wrap64, wrap64, Nat.mod_add_mod]

theorem consecutive_segWindows {seg : FsSeg} (hseg : seg ∈ req.seg)
    (hsmall : seg.slotStart + seg.nslots ≤ 2 ^ 64) (fuel : Nat) {s0 : Nat} (hs0 : s0 ≤ seg.nslots)
    (hfuel : seg.nslots ≤ s0 + fuel) :
    req.Consecutive (seg.slotStart + s0) (segWindows req.step seg fuel s0)
      (seg.slotStart + seg.nslots) := by
  induction fuel generalizing s0 with
  | zero =>
    obtain rfl : s0 = seg.nslots := by omega
    exact .nil _
  | succ fuel ih =>
    rw [segWindows]
    dsimp only
    by_cases hmore : s0 < seg.nslots
    · rw [if_pos hmore]
      generalize hslots : (if s0 + (if chunkSizeFor req.step / req.step = 0 then 1
        else chunkSizeFor req.step / req.step) > seg.nslots then seg.nslots - s0
        else if chunkSizeFor req.step / req.step = 0 then 1
        else chunkSizeFor req.step / req.step) = winSlots
      have hbounds : 0 < winSlots ∧ s0 + winSlots ≤ seg.nslots := by
        rw [← hslots]
        generalize chunkSizeFor req.step / req.step = c
        split_ifs <;> omega
      refine .cons rfl hbounds.1 (fun k hk => ?_) ?_
      · dsimp only at hk ⊢
        rw [Nat.add_assoc, slotAddr_of_mem hseg (by omega) (by omega), wrap64_add_wrap64,
          Nat.add_mul, Nat.add_assoc]
      · rw [Nat.add_assoc]
        exact ih hbounds.2 (by dsimp only; omega)
    · rw [if_neg hmore]
      obtain rfl : s0 = seg.nslots := by omega
      exact .nil _

theorem consecutive_flatMap {gs : List Segment} {slotCount : Nat}
    (hsub : ∀ seg ∈ segTable req.vlen req.step slotCount gs, seg ∈ req.seg)
    (hsmall : slotCount +
      ((segTable req.vlen req.step slotCount gs).map FsSeg.nslots).sum ≤ 2 ^ 64) :
    req.Consecutive slotCount
      ((segTable req.vlen req.step slotCount gs).flatMap fun seg =>
        segWindows req.step seg seg.nslots 0)
      (slotCount + ((segTable req.vlen req.step slotCount gs).map FsSeg.nslots).sum) := by
  induction gs generalizing slotCount with
  | nil => exact .nil _
  | cons g gs ih =>
    rw [segTable, flatMap_cons, map_cons, sum_cons] at *
    dsimp only at hsmall ⊢
    obtain ⟨hseg, hrest⟩ := forall_mem_cons.mp hsub
    have hfirst := consecutive_segWindows hseg (by dsimp only; omega) (g.nslots req.vlen req.step)
      (Nat.zero_le _) (by dsimp only; omega)
    rw [← Nat.add_assoc] at hsmall ⊢
    exact hfirst.append (ih hrest hsmall)

theorem consecutive_windows (h : req.slotCount ≤ 2 ^ 64) :
    req.Consecutive 0 req.windows req.slotCount := by
  have hall := @consecutive_flatMap req req.segs 0 (fun _ hseg => hseg)
    (by rw [Nat.zero_add]; exact h)
  rw [Nat.zero_add] at hall
  exact hall

theorem slotAt_psrc {win : SnapWindow} {m : Nat} (hpos : 0 < win.winSlots)
    (haddr : ∀ k < win.winSlots, req.slotAddr (m + k) = wrap64 (win.waddr + k * req.step)) :
    (win.psrc env.mem req).length = win.winSlots * req.vlen ∧
      ∀ k < win.winSlots, slotAt req.vlen (win.psrc env.mem req) k = req.value env (m + k) := by
  have hread : ∀ k < win.winSlots,
      ((readTarget env.mem win.waddr ((win.winSlots - 1) * req.step + req.vlen)).drop
        (k * req.step)).take req.vlen = req.value env (m + k) := by
    intro k hk
    have hle : k * req.step ≤ (win.winSlots - 1) * req.step := Nat.mul_le_mul_right _ (by omega)
    rw [value, haddr k hk]
    refine ext_getElem ?_ fun j hj _ => ?_
    · rw [length_take, length_drop, readTarget, readTarget, length_map,
        length_map, length_range, length_range]
      omega
    · rw [getElem_take, getElem_drop]
      simp only [readTarget, getElem_map, getElem_range]
      rw [wrap64_add_wrap64, Nat.add_assoc]
  rw [SnapWindow.psrc]
  split_ifs with hstep
  · refine ⟨?_, fun k hk => ?_⟩
    · rw [readTarget, length_map, length_range, hstep, ← Nat.succ_mul]
      congr 1
      omega
    · rw [slotAt, ← hread k hk, hstep]
  · have hlen : ∀ k < win.winSlots,
        (((readTarget env.mem win.waddr ((win.winSlots - 1) * req.step + req.vlen)).drop
          (k * req.step)).take req.vlen).length = req.vlen := by
      intro k hk
      rw [hread k hk, length_value]
    refine ⟨(slotAt_flatMap hlen hpos).1, fun k hk => ?_⟩
    rw [(slotAt_flatMap hlen hk).2, hread k hk]

/-! ## Filling -/

def isZero (bytes : List UInt8) : Bool := bytes.all (· == 0)

def data (req : CreateRequest) (env : CreateEnv) (f : Filling) : List UInt8 :=
  if req.useFile env then f.file0 else f.snapRam

structure Filled (req : CreateRequest) (env : CreateEnv) (m : Nat) (f : Filling) : Prop where
  ram : f.snapRam.length = req.ramBytes env
  zeros : req.useFile env = true → f.snapRam = List.replicate (req.ramBytes env) 0
  file : req.useFile env = true → f.file0.length = m * req.vlen
  values : ∀ i < m, slotAt req.vlen (req.data env f) i = req.value env i
  bits : ∀ i < req.slotCount, bitAt f.bitmap i =
    (req.includeZeros || decide (m ≤ i) || !isZero (req.value env i))

theorem filled_empty : req.Filled env 0 (req.emptyFilling env) where
  ram := length_replicate
  zeros _ := rfl
  file _ := (Nat.zero_mul _).symm
  values i hi := absurd hi (Nat.not_lt_zero i)
  bits i hi := by
    rw [emptyFilling, bitAt_replicate_ones (by omega), decide_eq_true (Nat.zero_le i), Bool.or_true,
      Bool.true_or]

theorem bitAt_clearZeros (vlen gslot : Nat) (psrc bm : List UInt8) (n j : Nat) :
    bitAt (clearZeros vlen gslot psrc bm n) j =
      (bitAt bm j && !(decide (gslot ≤ j) && decide (j < gslot + n) &&
        isZero (slotAt vlen psrc (j - gslot)))) := by
  induction n with
  | zero =>
    have hnone : (decide (gslot ≤ j) && decide (j < gslot + 0)) = false := by
      rw [Bool.and_eq_false_imp]
      intro hle
      exact decide_eq_false (by have := of_decide_eq_true hle; omega)
    rw [hnone, Bool.false_and, Bool.not_false, Bool.and_true]
    rfl
  | succ n ih =>
    have hstep : clearZeros vlen gslot psrc bm (n + 1) =
        if isZero (slotAt vlen psrc n) then
          bitmapClear (clearZeros vlen gslot psrc bm n) (gslot + n)
        else clearZeros vlen gslot psrc bm n := by
      rw [clearZeros, range_succ, foldl_append]
      rfl
    rw [hstep]
    by_cases hj : j = gslot + n
    · subst hj
      have hsub : gslot + n - gslot = n := by omega
      have hout : decide (gslot + n < gslot + n) = false := decide_eq_false (lt_irrefl _)
      have hin : (decide (gslot ≤ gslot + n) && decide (gslot + n < gslot + (n + 1))) = true := by
        rw [decide_eq_true (by omega), decide_eq_true (by omega)]
        rfl
      rw [hsub] at ih
      rw [hsub, hin, Bool.true_and]
      rw [hout, Bool.and_false, Bool.false_and, Bool.not_false, Bool.and_true] at ih
      cases hzero : isZero (slotAt vlen psrc n) with
      | true => rw [if_pos rfl, bitAt_bitmapClear_self, Bool.not_true, Bool.and_false]
      | false => rw [if_neg Bool.false_ne_true, ih, Bool.not_false, Bool.and_true]
    · have hsame : decide (j < gslot + (n + 1)) = decide (j < gslot + n) :=
        decide_eq_decide.mpr (by omega)
      rw [hsame]
      split_ifs
      · rw [bitAt_bitmapClear_of_ne hj, ih]
      · exact ih

theorem Filled.put {m : Nat} {f : Filling} {win : SnapWindow} (h : req.Filled env m f)
    (hgslot : win.gslot = m) (hpos : 0 < win.winSlots)
    (haddr : ∀ k < win.winSlots, req.slotAddr (m + k) = wrap64 (win.waddr + k * req.step))
    (hle : m + win.winSlots ≤ req.slotCount) :
    req.Filled env (m + win.winSlots) (f.put env req win) := by
  obtain ⟨hlen, hslots⟩ := @slotAt_psrc req env win m hpos haddr
  have hbits : ∀ i < req.slotCount, bitAt (f.put env req win).bitmap i =
      (req.includeZeros || decide (m + win.winSlots ≤ i) || !isZero (req.value env i)) := by
    intro i hi
    have hold := h.bits i hi
    rw [Filling.put]
    cases hzeros : req.includeZeros with
    | true =>
      rw [hzeros, Bool.true_or, Bool.true_or] at hold
      rw [if_pos rfl, hold, Bool.true_or, Bool.true_or]
    | false =>
      rw [hzeros, Bool.false_or] at hold
      rw [if_neg Bool.false_ne_true, bitAt_clearZeros, hold, hgslot, Bool.false_or]
      rcases Nat.lt_or_ge i m with hlt | hge
      · have hbefore : decide (m ≤ i) = false := decide_eq_false (by omega)
        have hnext : decide (m + win.winSlots ≤ i) = false := decide_eq_false (by omega)
        rw [hbefore, hnext, Bool.false_and, Bool.false_and, Bool.not_false, Bool.and_true]
      · have hfrom : decide (m ≤ i) = true := decide_eq_true hge
        rcases Nat.lt_or_ge i (m + win.winSlots) with hin | hout
        · have hvalue := hslots (i - m) (by omega)
          rw [Nat.add_sub_cancel' hge] at hvalue
          have hnext : decide (m + win.winSlots ≤ i) = false := decide_eq_false (by omega)
          rw [hfrom, decide_eq_true hin, hvalue, hnext, Bool.true_or, Bool.true_and,
            Bool.true_and, Bool.true_and, Bool.false_or]
        · have hin : decide (i < m + win.winSlots) = false := decide_eq_false (by omega)
          rw [hfrom, hin, decide_eq_true hout, Bool.and_false, Bool.false_and, Bool.not_false,
            Bool.and_true]
  have hput : ∀ {bytes : List UInt8}, m * req.vlen ≤ bytes.length →
      (∀ i < m, slotAt req.vlen bytes i = req.value env i) →
        ∀ i < m + win.winSlots,
          slotAt req.vlen (overwrite bytes (m * req.vlen) (win.psrc env.mem req)) i =
            req.value env i := by
    intro bytes hbytes hold i hi
    rcases Nat.lt_or_ge i m with hlt | hge
    · rw [slotAt_overwrite_of_lt hbytes hlt, hold i hlt]
    · obtain ⟨k, rfl⟩ := Nat.exists_eq_add_of_le hge
      rw [slotAt_overwrite_of_ge hbytes hlen (by omega), hslots k (by omega)]
  have hvalues := h.values
  rw [data] at hvalues
  cases hfile : req.useFile env with
  | true =>
    rw [hfile, if_pos rfl] at hvalues
    have hsize := h.file hfile
    refine ⟨?_, fun _ => ?_, fun _ => ?_, ?_, hbits⟩
    · rw [Filling.put, hfile]
      exact h.ram
    · rw [Filling.put, hfile]
      exact h.zeros hfile
    · rw [Filling.put, hfile, hgslot]
      dsimp only
      rw [if_pos rfl, length_overwrite_of_le hsize.ge, hlen, hsize, ← Nat.add_mul]
      exact Nat.max_eq_right (Nat.mul_le_mul_right _ (Nat.le_add_right _ _))
    · rw [data, hfile, if_pos rfl, Filling.put, hfile, hgslot]
      exact hput hsize.ge hvalues
  | false =>
    rw [hfile, if_neg Bool.false_ne_true] at hvalues
    have hram := h.ram
    have hbytes : req.ramBytes env = req.slotCount * req.vlen := by
      rw [ramBytes, hfile, if_neg Bool.false_ne_true, snapBytes]
    have hfits : (m + win.winSlots) * req.vlen ≤ f.snapRam.length := by
      rw [hram, hbytes]
      exact Nat.mul_le_mul_right _ hle
    have hroom : m * req.vlen ≤ f.snapRam.length :=
      (Nat.mul_le_mul_right _ (Nat.le_add_right _ _)).trans hfits
    refine ⟨?_, fun h => ?_, fun h => ?_, ?_, hbits⟩
    · rw [Filling.put, hfile, hgslot]
      rw [if_neg Bool.false_ne_true, length_overwrite_of_le hroom, hlen, ← Nat.add_mul,
        Nat.max_eq_left hfits, hram]
    · rw [hfile] at h
      cases h
    · rw [hfile] at h
      cases h
    · rw [data, hfile, if_neg Bool.false_ne_true, Filling.put, hfile, hgslot]
      exact hput hroom hvalues

theorem Consecutive.filled {m m' : Nat} {windows : List SnapWindow} {f f' : Filling}
    (h : req.Consecutive m windows m') (hf : req.Filled env m f) (hm' : m' ≤ req.slotCount)
    (hfill : windows.foldlM (fillWindow env req) f = .ok f') : req.Filled env m' f' := by
  induction h generalizing f with
  | nil m =>
    cases hfill
    exact hf
  | cons gslot pos addr next ih =>
    obtain ⟨f₁, hfirst, hrest⟩ := foldlM_cons_ok hfill
    obtain ⟨-, -, rfl⟩ := fillWindow_ok hfirst
    exact ih (hf.put gslot pos addr (next.le.trans hm')) hm' hrest

/-! ## Reading back -/

def firstStop (req : CreateRequest) (env : CreateEnv) : Option CreateStop :=
  req.windows.findSome? fun win =>
    if win.fits req = false then some .overflow
    else if win.written env req = false then some .fail
    else none

theorem foldlM_fillWindow (windows : List SnapWindow) (f : Filling) :
    (∀ e, windows.foldlM (fillWindow env req) f = .error e → (windows.findSome? fun win =>
      if win.fits req = false then some CreateStop.overflow
      else if win.written env req = false then some .fail
      else none) = some e) ∧
    ∀ f', windows.foldlM (fillWindow env req) f = .ok f' → (windows.findSome? fun win =>
      if win.fits req = false then some CreateStop.overflow
      else if win.written env req = false then some .fail
      else none) = none := by
  induction windows generalizing f with
  | nil => exact ⟨(by rintro _ ⟨⟩), fun _ _ => rfl⟩
  | cons win windows ih =>
    rw [foldlM_cons, findSome?_cons, fillWindow]
    split_ifs
    · exact ⟨fun e h => congrArg some (Except.error.inj h), (by rintro _ ⟨⟩)⟩
    · exact ⟨fun e h => congrArg some (Except.error.inj h), (by rintro _ ⟨⟩)⟩
    · exact ih _

/-- The values fit into memory, or else what is not in the cache went to the spill file by chance
and the values repeat themselves. -/
def Kept (req : CreateRequest) (env : CreateEnv) : Prop :=
  req.useFile env = false ∨ ∀ i < req.slotCount,
    if i < req.ramBytes env / req.vlen then req.value env i = List.replicate req.vlen 0
    else env.spillFd = some 0 ∧ req.value env i = req.value env (i - req.ramBytes env / req.vlen)

end CreateRequest

structure SnapshotSession.Records (s : SnapshotSession) (fs : FsEnv) (env : CreateEnv)
    (includeZeros : Bool) : Prop where
  values : ∀ i < s.slotCount, snapshotStoreRead fs s (i * s.valueLen) s.valueLen =
    some (readTarget env.mem (slotToAddr s i) s.valueLen)
  bits : ∀ i < s.slotCount, bitAt s.bitmap i = true ↔
    includeZeros = true ∨ ∃ b ∈ readTarget env.mem (slotToAddr s i) s.valueLen, b ≠ 0
  count : s.survivorCount = countIn (bitAt s.bitmap) 0 s.slotCount

/-- A snapshot that is reported has been recorded, and nothing has been written past a buffer. -/
def CreateRequest.Recorded (req : CreateRequest) (fs : FsEnv) (env : CreateEnv) : Prop :=
  match snapshotCreate env req with
  | .created s => s.Records fs env req.includeZeros
  | .overflowed => False
  | _ => True

namespace CreateRequest

variable {req : CreateRequest} {env : CreateEnv} {fs : FsEnv} {f : Filling}

theorem ramBytes_mul (h : req.useFile env = true) :
    req.ramBytes env / req.vlen * req.vlen = req.ramBytes env := by
  rw [ramBytes, if_pos h]
  dsimp only
  split_ifs
  · rw [Nat.mul_div_cancel _ req.vlen_pos]
  · rw [Nat.zero_div, Nat.zero_mul]

theorem storeRead_iff (hread : ∀ off len, fs.pread off len = true)
    (h : req.Filled env req.slotCount f) {i : Nat} (hi : i < req.slotCount) :
    snapshotStoreRead fs (req.session env f) (i * req.vlen) req.vlen = some (req.value env i) ↔
      (req.useFile env = false ∨
        if i < req.ramBytes env / req.vlen then req.value env i = List.replicate req.vlen 0
        else env.spillFd = some 0 ∧
          req.value env i = req.value env (i - req.ramBytes env / req.vlen)) := by
  have hpos := req.vlen_pos
  have hram : (req.session env f).snapRam = f.snapRam := rfl
  rw [snapshotStoreRead, hram, h.ram]
  have hvalue := h.values i hi
  rw [data] at hvalue
  cases hfile : req.useFile env with
  | false =>
    have hbytes : req.ramBytes env = req.slotCount * req.vlen := by
      rw [ramBytes, hfile, if_neg Bool.false_ne_true, snapBytes]
    have hle := @slot_end_le req.vlen req.slotCount i hi
    rw [hfile, if_neg Bool.false_ne_true] at hvalue
    rw [hbytes, if_neg (by omega), if_pos hle]
    exact ⟨fun _ => .inl rfl, fun _ => congrArg some hvalue⟩
  | true =>
    have hmul := ramBytes_mul hfile
    generalize hcache : req.ramBytes env / req.vlen = c at hmul ⊢
    by_cases hin : i < c
    · have hle := @slot_end_le req.vlen c i hin
      rw [if_neg (by omega), if_pos (by omega), if_pos hin, h.zeros hfile, drop_replicate,
        take_replicate, Option.some_inj, Nat.min_eq_left (by omega)]
      exact ⟨fun heq => .inr heq.symm, fun heq => (heq.resolve_left (by rintro ⟨⟩)).symm⟩
    · have hout : c * req.vlen ≤ i * req.vlen := Nat.mul_le_mul_right _ (Nat.le_of_not_lt hin)
      have hoff : i * req.vlen - req.ramBytes env = (i - c) * req.vlen := by
        rw [← hmul, Nat.sub_mul]
      rw [if_pos (hmul ▸ hout), if_neg hin, hoff]
      have hsnap : (req.session env f).snapFile = if env.spillFd = some 0 then f.file0 else [] :=
        rfl
      rw [hsnap, preadAll, hread]
      by_cases hfd : env.spillFd = some 0
      · have hkept := h.values (i - c) (by omega)
        have hsize := @slot_end_le req.vlen req.slotCount (i - c) (by omega)
        rw [data, hfile, if_pos rfl] at hkept
        rw [if_pos hfd, h.file hfile, if_pos ⟨rfl, hsize⟩]
        rw [slotAt] at hkept
        rw [hkept, Option.some_inj]
        exact ⟨fun heq => .inr ⟨hfd, heq.symm⟩, fun heq => (heq.resolve_left (by rintro ⟨⟩)).2.symm⟩
      · rw [if_neg hfd, if_neg (by rw [length_nil]; omega)]
        exact ⟨(by rintro ⟨⟩), fun heq => absurd (heq.resolve_left (by rintro ⟨⟩)).1 hfd⟩

theorem records_iff (hread : ∀ off len, fs.pread off len = true)
    (h : req.Filled env req.slotCount f)
    (hcounted : (req.session env f).Counted) :
    (req.session env f).Records fs env req.includeZeros ↔ req.Kept env := by
  constructor
  · intro hrecords
    by_cases hfile : req.useFile env = false
    · exact .inl hfile
    · refine .inr fun i hi => ?_
      exact ((storeRead_iff hread h hi).mp (hrecords.values i hi)).resolve_left hfile
  · intro hkept
    refine ⟨fun i hi => (storeRead_iff hread h hi).mpr (hkept.imp_right fun hall => hall i hi), ?_,
      hcounted⟩
    intro i hi
    have hout : ¬ req.slotCount ≤ i := Nat.not_le.mpr hi
    have hbit : bitAt (req.session env f).bitmap i = _ := h.bits i hi
    have hvalue : readTarget env.mem (slotToAddr (req.session env f) i)
        (req.session env f).valueLen = req.value env i := rfl
    rw [hbit, hvalue, decide_eq_false hout, Bool.or_false, Bool.or_eq_true,
      Bool.not_eq_true', isZero, all_eq_false]
    simp only [beq_iff_eq]

/-- A snapshot is recorded exactly if no window is reached that does not fit, and, where all are
stored, the values are kept. -/
theorem recorded_iff (req : CreateRequest) (fs : FsEnv) (env : CreateEnv)
    (hread : ∀ off len, fs.pread off len = true) :
    req.Recorded fs env ↔
      (req.admissible env = true → req.crashes env = false → req.ready env = true →
        req.firstStop env ≠ some .overflow ∧ (req.firstStop env = none → req.Kept env)) := by
  rw [Recorded]
  have hcounted := @snapshotCreate_counted env req
  rw [snapshotCreate] at hcounted ⊢
  by_cases hadmissible : req.admissible env = false
  · rw [if_pos hadmissible]
    exact ⟨fun _ h => absurd h (Bool.eq_false_iff.mp hadmissible), fun _ => trivial⟩
  · rw [if_neg hadmissible] at hcounted ⊢
    rw [Bool.not_eq_false] at hadmissible
    by_cases hcrashes : req.crashes env = true
    · rw [if_pos hcrashes]
      exact ⟨fun _ _ h => absurd hcrashes (Bool.eq_false_iff.mp h), fun _ => trivial⟩
    · rw [if_neg hcrashes] at hcounted ⊢
      rw [Bool.not_eq_true] at hcrashes
      by_cases hready : req.ready env = false
      · rw [if_pos hready]
        exact ⟨fun _ _ _ h => absurd h (Bool.eq_false_iff.mp hready), fun _ => trivial⟩
      · rw [if_neg hready] at hcounted ⊢
        rw [Bool.not_eq_false] at hready
        have hsmall : req.slotCount ≤ 2 ^ 64 := by
          rw [admissible, Bool.and_eq_true, decide_eq_true_iff] at hadmissible
          have := hadmissible.2
          unfold snapshotBitmapMax at this
          omega
        have hstop := @foldlM_fillWindow req env req.windows (req.emptyFilling env)
        have hfilled : ∀ f', req.windows.foldlM (fillWindow env req) (req.emptyFilling env) =
            .ok f' → req.Filled env req.slotCount f' := fun _ =>
          (consecutive_windows hsmall).filled filled_empty le_rfl
        generalize req.windows.foldlM (fillWindow env req) (req.emptyFilling env) = result
          at hcounted hstop hfilled ⊢
        cases result with
        | error e =>
          have hfirst : req.firstStop env = some e := hstop.1 e rfl
          cases e with
          | overflow =>
            exact ⟨False.elim, fun h => (h hadmissible hcrashes hready).1 hfirst⟩
          | fail =>
            refine ⟨fun _ _ _ _ => ⟨?_, ?_⟩, fun _ => trivial⟩
            · rw [hfirst]
              rintro ⟨⟩
            · rw [hfirst]
              rintro ⟨⟩
        | ok f =>
          have hfirst : req.firstStop env = none := hstop.2 f rfl
          have hrecords := records_iff hread (hfilled f rfl) (hcounted rfl)
          refine ⟨fun h _ _ _ => ⟨?_, fun _ => hrecords.mp h⟩, fun h => ?_⟩
          · rw [hfirst]
            rintro ⟨⟩
          · exact hrecords.mpr ((h hadmissible hcrashes hready).2 hfirst)

end CreateRequest

/-! ## A snapshot of two values -/

def twoValues : CreateRequest where
  segs := [⟨0x1000, 8⟩]
  vlen := 4
  step := 4
  includeZeros := false
  keepFirst := false
  keepPrev := false
  pid := 5
  valueType := .u32
  vlen_pos := fourBytes_pos
  vlen_le := fourBytes_le
  step_pos := fourBytes_pos

def limitedEnv (ramLimit : Nat) : CreateEnv :=
  { quietEnv.create with
    mem := fun a => if a = 0x1004 then 7 else 0
    ramLimit := ramLimit }

theorem recorded_twoValues : twoValues.Recorded quietEnv.fs (limitedEnv 8) :=
  (twoValues.recorded_iff quietEnv.fs (limitedEnv 8) fun _ _ => rfl).mpr fun _ _ _ =>
    ⟨by decide, fun _ => .inl (by decide)⟩

def CreateOutcome.readBack (fs : FsEnv) : CreateOutcome → List (Option (List UInt8))
  | .created s => (List.range s.slotCount).map fun i =>
    snapshotStoreRead fs s (i * s.valueLen) s.valueLen
  | _ => []

theorem not_recorded_twoValues :
    (snapshotCreate (limitedEnv 4) twoValues).readBack quietEnv.fs = [some [0, 0, 0, 0], none] ∧
      ¬ twoValues.Recorded quietEnv.fs (limitedEnv 4) := by
  have hread : (snapshotCreate (limitedEnv 4) twoValues).readBack quietEnv.fs =
      [some [0, 0, 0, 0], none] := by decide
  refine ⟨hread, fun h => ?_⟩
  rw [CreateRequest.Recorded] at h
  generalize snapshotCreate (limitedEnv 4) twoValues = outcome at h hread
  cases outcome with
  | crashed => cases hread
  | overflowed => cases hread
  | refused => cases hread
  | created s =>
    rw [CreateOutcome.readBack] at hread
    have hcount : s.slotCount = 2 := by
      have hlength := congrArg List.length hread
      rwa [length_map, length_range] at hlength
    have hvalue := h.values 1 (by omega)
    rw [hcount] at hread
    obtain ⟨-, hnone⟩ := cons_eq_cons.mp hread
    cases hvalue.symm.trans (cons_eq_cons.mp hnone).1

end MemDbg.FlashScan
