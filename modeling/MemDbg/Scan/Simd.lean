import MemDbg.Scan.Match
import MemDbg.Lib.Bits
import MemDbg.Lib.Search
import Mathlib.Data.List.Basic

/-!
# The vector search for an exact value

`memdbg_simd_find_exact` exists in five vector variants and one scalar loop.  The
vector variants have lane code for the value lengths 1, 2, 4 and 8; for the other
lengths up to 8 their window loop runs and compares nothing.
-/

namespace MemDbg.Scan

open List Lib

/-! ## The search -/

inductive SimdVariant where
  | neon
  | avx512
  | avx2
  | sse41
  | sse2
deriving DecidableEq

def SimdVariant.width : SimdVariant → Nat
  | neon | sse41 | sse2 => 16
  | avx2 => 32
  | avx512 => 64

def hasLanes (valueLength : Nat) : Bool :=
  valueLength = 1 || valueLength = 2 || valueLength = 4 || valueLength = 8

def load (haystack : List UInt8) (i n : Nat) : Option (List UInt8) :=
  if i + n ≤ haystack.length then some ((haystack.drop i).take n) else none

def broadcastValue (width : Nat) (needle : List UInt8) (valueLength : Nat) : List UInt8 :=
  if hasLanes valueLength then
    (List.replicate (width / valueLength) (needle.take valueLength)).flatten
  else List.replicate width 0

def lane (register : List UInt8) (valueLength k : Nat) : List UInt8 :=
  (register.drop (k * valueLength)).take valueLength

def cmpeq (width : Nat) (a b : List UInt8) (valueLength : Nat) : List Bool :=
  (List.range (width / valueLength)).map fun k =>
    leNat (lane a valueLength k) == leNat (lane b valueLength k)

def emit (limit idx : Nat) (offsets : List Nat) : List Nat :=
  if idx < limit then offsets ++ [wrap32 idx] else offsets

def laneLoop (valueLength i limit maxOffsets : Nat) : List Bool → Nat → List Nat → List Nat
  | [], _, offsets => offsets
  | eq :: lanes, k, offsets =>
    laneLoop valueLength i limit maxOffsets lanes (k + 1)
      (if eq && offsets.length < maxOffsets then emit limit (i + k * valueLength) offsets
      else offsets)

def maskLoop (width : Nat) (index : Nat → Option Nat) (limit maxOffsets : Nat) :
    Nat → Nat → List Nat → List Nat
  | 0, _, offsets => offsets
  | fuel + 1, mask, offsets =>
    if mask ≠ 0 ∧ offsets.length < maxOffsets then
      maskLoop width index limit maxOffsets fuel (mask &&& (mask - 1))
        (match index (ctz width mask) with
          | some idx => emit limit idx offsets
          | none => offsets)
    else offsets

def laneMaskLoop (valueLength i limit maxOffsets : Nat) (lanes : List Bool)
    (offsets : List Nat) : List Nat :=
  maskLoop lanes.length (fun bit => some (i + bit * valueLength)) limit maxOffsets lanes.length
    (maskOf lanes) offsets

def byteMaskLoop (valueLength i limit maxOffsets : Nat) (lanes : List Bool)
    (offsets : List Nat) : List Nat :=
  maskLoop (lanes.length * valueLength)
    (fun bit => if bit &&& (valueLength - 1) = 0 then some (i + bit) else none)
    limit maxOffsets (lanes.length * valueLength)
    (maskOf ((List.range (lanes.length * valueLength)).map fun b =>
      lanes.getD (b / valueLength) false)) offsets

def SimdVariant.lanes (v : SimdVariant) (valueLength i limit maxOffsets : Nat) (eqs : List Bool)
    (offsets : List Nat) : List Nat :=
  match v, valueLength with
  | neon, _ | sse41, 8 | sse2, 8 => laneLoop valueLength i limit maxOffsets eqs 0 offsets
  | avx512, _ => laneMaskLoop valueLength i limit maxOffsets eqs offsets
  | avx2, _ | sse41, _ | sse2, _ => byteMaskLoop valueLength i limit maxOffsets eqs offsets

def windowLoop (v : SimdVariant) (haystack pat : List UInt8) (valueLength limit maxOffsets : Nat) :
    Nat → Nat → List Nat → Option (Nat × List Nat)
  | 0, i, offsets => some (i, offsets)
  | fuel + 1, i, offsets =>
    if i + (v.width - valueLength) < limit ∧ offsets.length < maxOffsets then
      if hasLanes valueLength then do
        let chunk ← load haystack i v.width
        windowLoop v haystack pat valueLength limit maxOffsets fuel (i + v.width)
          (v.lanes valueLength i limit maxOffsets (cmpeq v.width chunk pat valueLength) offsets)
      else windowLoop v haystack pat valueLength limit maxOffsets fuel (i + v.width) offsets
    else some (i, offsets)

def stridedLoop (matched : List UInt8 → Bool) (haystack : List UInt8)
    (valueLength limit maxOffsets : Nat) : Nat → Nat → List Nat → Option (List Nat)
  | 0, _, offsets => some offsets
  | fuel + 1, i, offsets =>
    if i < limit ∧ offsets.length < maxOffsets then do
      let value ← load haystack i valueLength
      stridedLoop matched haystack valueLength limit maxOffsets fuel (i + valueLength)
        (if matched value then offsets ++ [wrap32 i] else offsets)
    else some offsets

def scalarMatch (needle : List UInt8) (valueLength : Nat) (value : List UInt8) : Bool :=
  match valueLength with
  | 1 => matchU8 value needle 1
  | 2 => matchU16 value needle 2
  | 4 => matchU32 value needle 4
  | 8 => matchU64 value needle 8
  | _ => value.take valueLength == needle.take valueLength

def scalarFindExact (haystack needle : List UInt8) (valueLength maxOffsets : Nat) :
    Option (List Nat) :=
  if haystack.length < valueLength ∨ maxOffsets = 0 then some []
  else
    let limit := haystack.length - valueLength + 1
    stridedLoop (scalarMatch needle valueLength) haystack valueLength limit maxOffsets limit 0 []

def simdFindExact (v : SimdVariant) (haystack needle : List UInt8)
    (valueLength maxOffsets : Nat) : Option (List Nat) :=
  if haystack.length < valueLength ∨ maxOffsets = 0 then some []
  else if valueLength ≤ 8 then
    let pat := broadcastValue v.width needle valueLength
    let limit := haystack.length - valueLength + 1
    do
      let (i, offsets) ← windowLoop v haystack pat valueLength limit maxOffsets limit 0 []
      -- the tail after the last whole window
      stridedLoop (fun value => value.take valueLength == needle.take valueLength) haystack
        valueLength limit maxOffsets limit i offsets
  else scalarFindExact haystack needle valueLength maxOffsets

/-! ## Bounded output -/

def push (maxOffsets : Nat) (offsets idxs : List Nat) : List Nat :=
  (offsets ++ idxs.map wrap32).take maxOffsets

variable {maxOffsets : Nat} {offsets : List Nat}

theorem length_push_le (idxs : List Nat) : (push maxOffsets offsets idxs).length ≤ maxOffsets := by
  simp [push]

theorem push_nil (h : offsets.length ≤ maxOffsets) : push maxOffsets offsets [] = offsets := by
  simp [push, take_of_length_le h]

theorem push_push (xs ys : List Nat) :
    push maxOffsets (push maxOffsets offsets xs) ys = push maxOffsets offsets (xs ++ ys) := by
  simp only [push, map_append, ← append_assoc]
  generalize offsets ++ _ = stored
  rw [take_append, take_append]
  simp only [take_take, Nat.min_self, length_take]
  congr 2
  omega

theorem push_full (h : offsets.length = maxOffsets) (idxs : List Nat) :
    push maxOffsets offsets idxs = offsets := by
  rw [push, take_append_of_le_length h.ge, take_of_length_le h.le]

theorem push_singleton (h : offsets.length < maxOffsets) (idx : Nat) :
    push maxOffsets offsets [idx] = offsets ++ [wrap32 idx] := by
  rw [push, take_of_length_le]
  · rfl
  · simpa [Nat.succ_le_iff] using h

theorem push_emit {limit idx : Nat} (hidx : idx < limit) (h : offsets.length ≤ maxOffsets)
    (eq : Bool) (rest : List Nat) :
    push maxOffsets
        (if eq && offsets.length < maxOffsets then emit limit idx offsets else offsets) rest =
      push maxOffsets offsets ((if eq then [idx] else []) ++ rest) := by
  rcases h.lt_or_eq with hlt | heq
  · cases eq with
    | true =>
      rw [← push_push, if_pos (by simp [hlt]), emit, if_pos hidx, if_pos rfl,
        push_singleton hlt]
    | false => simp
  · rw [push_full heq, if_neg (by simp [heq]), push_full heq]

/-! ## Occurrences -/

def occursAt (haystack needle : List UInt8) (valueLength x : Nat) : Bool :=
  (haystack.drop x).take valueLength == needle

def occurrences (haystack needle : List UInt8) (valueLength : Nat) : List Nat :=
  hits (fun x => x % valueLength == 0 && occursAt haystack needle valueLength x) 0
    (haystack.length + 1 - valueLength)

section Search

variable {haystack needle : List UInt8} {valueLength : Nat}

theorem occursAt_eq_false {x : Nat} (hneedle : needle.length = valueLength)
    (hvl : 0 < valueLength) (hx : haystack.length < x + valueLength) :
    occursAt haystack needle valueLength x = false := by
  rw [occursAt, beq_eq_false_iff_ne]
  intro heq
  have hlen := congrArg List.length heq
  rw [length_take, length_drop, hneedle] at hlen
  omega

theorem load_of_le {i n : Nat} (h : i + n ≤ haystack.length) :
    load haystack i n = some ((haystack.drop i).take n) := if_pos h

theorem stridedLoop_eq {matched : List UInt8 → Bool} {limit fuel i : Nat}
    (hvl : 0 < valueLength) (hlimit : limit + valueLength ≤ haystack.length + 1)
    (hmatched : ∀ x, x + valueLength ≤ haystack.length →
      matched ((haystack.drop x).take valueLength) = occursAt haystack needle valueLength x)
    (hfuel : limit ≤ i + fuel) (hoff : offsets.length ≤ maxOffsets) :
    stridedLoop matched haystack valueLength limit maxOffsets fuel i offsets =
      some (push maxOffsets offsets
        (hits (fun x => (x - i) % valueLength == 0 && occursAt haystack needle valueLength x) i
          (limit - i))) := by
  induction fuel generalizing i offsets with
  | zero =>
    rw [show limit - i = 0 by omega, hits_zero, push_nil hoff]
    rfl
  | succ fuel ih =>
    rw [stridedLoop]
    by_cases hlt : i < limit
    · rcases hoff.lt_or_eq with hroom | hfull
      · rw [if_pos ⟨hlt, hroom⟩, load_of_le (by omega)]
        have hskip := hits_skip (p := fun x =>
          (x - i) % valueLength == 0 && occursAt haystack needle valueLength x)
          (a := i + 1) (n := limit - i - 1) (k := valueLength - 1) (by
            intro x hx₁ hx₂ _
            have hmod : (x - i) % valueLength = x - i := Nat.mod_eq_of_lt (by omega)
            simp [hmod, show x - i ≠ 0 by omega])
        have hnext := hits_congr (a := i + valueLength) (n := limit - (i + valueLength))
          (p := fun x => (x - i) % valueLength == 0 && occursAt haystack needle valueLength x)
          (q := fun x => (x - (i + valueLength)) % valueLength == 0 &&
            occursAt haystack needle valueLength x) (by
            intro x hx _
            rw [show x - i = x - (i + valueLength) + valueLength by omega, Nat.add_mod_right])
        rw [show i + 1 + (valueLength - 1) = i + valueLength by omega,
          show limit - i - 1 - (valueLength - 1) = limit - (i + valueLength) by omega] at hskip
        have hsplit : limit - i = limit - i - 1 + 1 := by omega
        rw [hsplit, hits_succ, hskip, hnext]
        simp only [Option.bind_eq_bind, Option.bind_some, hmatched i (by omega), Nat.sub_self,
          Nat.zero_mod, beq_self_eq_true, Bool.true_and]
        rw [← push_push]
        split_ifs with hocc
        · rw [push_singleton hroom]
          exact ih (by omega) (by simpa [Nat.succ_le_iff] using hroom)
        · rw [push_nil hoff]
          exact ih (by omega) hoff
      · rw [if_neg (by omega), push_full hfull]
    · rw [if_neg (by omega), show limit - i = 0 by omega, hits_zero, push_nil hoff]

/-! ## Lanes -/

theorem laneLoop_eq {i limit : Nat} (lanes : List Bool) (k : Nat)
    (hlimit : ∀ j, j < k + lanes.length → i + j * valueLength < limit)
    (hoff : offsets.length ≤ maxOffsets) :
    laneLoop valueLength i limit maxOffsets lanes k offsets =
      push maxOffsets offsets
        ((hits (fun j => lanes.getD (j - k) false) k lanes.length).map
          fun j => i + j * valueLength) := by
  induction lanes generalizing k offsets with
  | nil => rw [laneLoop, length_nil, hits_zero, map_nil, push_nil hoff]
  | cons eq lanes ih =>
    have hk : i + k * valueLength < limit := hlimit k (by simp)
    have hnext := hits_congr (a := k + 1) (n := lanes.length)
      (p := fun j => (eq :: lanes).getD (j - k) false)
      (q := fun j => lanes.getD (j - (k + 1)) false) (by
        intro j hj _
        rw [show j - k = j - (k + 1) + 1 by omega, getD_cons_succ])
    rw [laneLoop, ih (k + 1) (fun j hj => hlimit j (by rw [length_cons]; omega)) ?_,
      push_emit hk hoff, length_cons, hits_succ, hnext, Nat.sub_self, getD_cons_zero,
      map_append]
    · cases eq <;> rfl
    · split_ifs with hroom
      · simp only [Bool.and_eq_true, decide_eq_true_eq] at hroom
        rw [emit, if_pos hk]
        simpa [Nat.succ_le_iff] using hroom.2
      · exact hoff

theorem maskLoop_eq {width limit fuel mask : Nat} {index : Nat → Option Nat}
    (hmask : mask < 2 ^ width) (hfuel : (setBits width mask).length ≤ fuel)
    (hlimit : ∀ bit ∈ setBits width mask, ∀ idx, index bit = some idx → idx < limit)
    (hoff : offsets.length ≤ maxOffsets) :
    maskLoop width index limit maxOffsets fuel mask offsets =
      push maxOffsets offsets ((setBits width mask).filterMap index) := by
  induction fuel generalizing mask offsets with
  | zero =>
    rw [eq_nil_of_length_eq_zero (Nat.le_zero.mp hfuel), filterMap_nil, push_nil hoff]
    rfl
  | succ fuel ih =>
    rw [maskLoop]
    by_cases hzero : mask = 0
    · rw [if_neg (by simp [hzero])]
      have hnil : setBits width mask = [] := by
        simp [setBits, hzero]
      rw [hnil, filterMap_nil, push_nil hoff]
    · rcases hoff.lt_or_eq with hroom | hfull
      · have hcons := setBits_eq_cons hzero hmask
        rw [if_pos ⟨hzero, hroom⟩, hcons, filterMap_cons]
        rw [hcons] at hfuel hlimit
        have hrest : ∀ offsets' : List Nat, offsets'.length ≤ maxOffsets →
            maskLoop width index limit maxOffsets fuel (mask &&& (mask - 1)) offsets' =
              push maxOffsets offsets'
                ((setBits width (mask &&& (mask - 1))).filterMap index) := by
          intro offsets' hoff'
          refine ih (Nat.and_le_left.trans_lt hmask) ?_ ?_ hoff'
          · simpa using hfuel
          · exact fun bit hbit => hlimit bit (mem_cons_of_mem _ hbit)
        cases hindex : index (ctz width mask) with
        | none => exact hrest offsets hoff
        | some idx =>
          have hidx : idx < limit := hlimit _ mem_cons_self idx hindex
          dsimp only
          rw [emit, if_pos hidx, hrest _ (by simpa [Nat.succ_le_iff] using hroom),
            ← push_singleton hroom, push_push]
          rfl
      · rw [if_neg (by omega), push_full hfull]

theorem hits_value {p : Nat → Bool} {a : Nat} (hvl : 0 < valueLength) (ha : a % valueLength = 0) :
    hits (fun x => x % valueLength == 0 && p x) a valueLength = if p a then [a] else [] := by
  have hrest : ∀ x, a + 1 ≤ x → x < a + 1 + (valueLength - 1) →
      (x % valueLength == 0 && p x) = false := by
    intro x hx₁ hx₂
    have hmod : x % valueLength = x - a := by
      obtain ⟨d, rfl⟩ := Nat.exists_eq_add_of_le (Nat.le_of_succ_le hx₁)
      rw [Nat.add_mod, ha, Nat.zero_add, Nat.mod_mod, Nat.mod_eq_of_lt (by omega)]
      omega
    simp [hmod, show x - a ≠ 0 by omega]
  obtain ⟨n, hn⟩ : ∃ n, valueLength = n + 1 := ⟨valueLength - 1, by omega⟩
  calc hits (fun x => x % valueLength == 0 && p x) a valueLength
      = hits (fun x => x % valueLength == 0 && p x) a (n + 1) := by rw [← hn]
    _ = if p a then [a] else [] := by
        rw [hits_succ, hits_eq_nil (by simpa [hn] using hrest)]
        simp [ha]

theorem hits_mul {p : Nat → Bool} {i : Nat} (hvl : 0 < valueLength) (hi : i % valueLength = 0)
    (n : Nat) :
    hits (fun x => x % valueLength == 0 && p x) i (n * valueLength) =
      (hits (fun k => p (i + k * valueLength)) 0 n).map fun k => i + k * valueLength := by
  induction n with
  | zero => simp
  | succ n ih =>
    have hstart : (i + n * valueLength) % valueLength = 0 := by
      rw [Nat.add_mul_mod_self_right, hi]
    rw [Nat.succ_mul, hits_add, ih, hits_value hvl hstart, hits_add, map_append]
    congr 1
    by_cases h : p (i + n * valueLength) <;> simp [hits, h]

theorem hasLanes_iff : hasLanes valueLength = true ↔
    valueLength = 1 ∨ valueLength = 2 ∨ valueLength = 4 ∨ valueLength = 8 := by
  simp [hasLanes, or_assoc]

theorem hasLanes_pos (h : hasLanes valueLength = true) : 0 < valueLength := by
  rw [hasLanes_iff] at h
  omega

theorem and_sub_one_eq_mod (h : hasLanes valueLength = true) (bit : Nat) :
    bit &&& (valueLength - 1) = bit % valueLength := by
  obtain ⟨e, rfl⟩ : ∃ e, valueLength = 2 ^ e := by
    rcases hasLanes_iff.mp h with rfl | rfl | rfl | rfl
    exacts [⟨0, rfl⟩, ⟨1, rfl⟩, ⟨2, rfl⟩, ⟨3, rfl⟩]
  exact Nat.and_two_pow_sub_one_eq_mod bit e

section Lanes

variable {m : Nat → Bool} {i limit : Nat} {lanes : List Bool} (hlanes : hasLanes valueLength = true)
  (hi : i % valueLength = 0)
  (hlimit : ∀ k, k < lanes.length → i + k * valueLength < limit)
  (heq : ∀ k, k < lanes.length → lanes.getD k false = m (i + k * valueLength))
  (hoff : offsets.length ≤ maxOffsets)

include hlanes hi hlimit heq hoff

theorem laneLoop_hits :
    laneLoop valueLength i limit maxOffsets lanes 0 offsets =
      push maxOffsets offsets
        (hits (fun x => x % valueLength == 0 && m x) i (lanes.length * valueLength)) := by
  rw [laneLoop_eq lanes 0 (by simpa using hlimit) hoff, hits_mul (hasLanes_pos hlanes) hi]
  congr 2
  exact hits_congr fun k _ hk => heq k (by simpa using hk)

theorem laneMaskLoop_hits :
    laneMaskLoop valueLength i limit maxOffsets lanes offsets =
      push maxOffsets offsets
        (hits (fun x => x % valueLength == 0 && m x) i (lanes.length * valueLength)) := by
  have hbits : setBits lanes.length (maskOf lanes) =
      hits (fun k => m (i + k * valueLength)) 0 lanes.length := by
    rw [setBits, hits, range_eq_range']
    refine filter_congr fun k hk => ?_
    rw [testBit_maskOf]
    exact heq k (by simpa [mem_range'_1] using hk)
  rw [laneMaskLoop, maskLoop_eq (maskOf_lt lanes) ?_ ?_ hoff, hbits,
    hits_mul (hasLanes_pos hlanes) hi]
  · congr 1
    exact congrFun filterMap_eq_map' _
  · simpa [setBits] using length_filter_le (maskOf lanes).testBit (List.range lanes.length)
  · intro bit hbit idx hidx
    obtain rfl := Option.some.inj hidx
    exact hlimit bit (by simpa using (mem_filter.mp hbit).1)

theorem byteMaskLoop_hits :
    byteMaskLoop valueLength i limit maxOffsets lanes offsets =
      push maxOffsets offsets
        (hits (fun x => x % valueLength == 0 && m x) i (lanes.length * valueLength)) := by
  have hbyte : ∀ b, b ∈ List.range (lanes.length * valueLength) →
      (maskOf ((List.range (lanes.length * valueLength)).map fun b =>
        lanes.getD (b / valueLength) false)).testBit b = lanes.getD (b / valueLength) false := by
    intro b hb
    rw [testBit_maskOf, getD_eq_getElem _ _ (by simpa using hb)]
    simp
  -- the first byte of a lane stands for the lane
  have hindex : ∀ b, b < lanes.length * valueLength → b % valueLength = 0 →
      lanes.getD (b / valueLength) false = m (i + b) ∧ i + b < limit := by
    intro b hb hmod
    have hdiv : b / valueLength < lanes.length := Nat.div_lt_of_lt_mul (by rwa [Nat.mul_comm])
    have hb' : b / valueLength * valueLength = b := by
      rw [Nat.div_mul_cancel (Nat.dvd_of_mod_eq_zero hmod)]
    have heq' := heq _ hdiv
    have hlimit' := hlimit _ hdiv
    rw [hb'] at heq' hlimit'
    exact ⟨heq', hlimit'⟩
  have hlen : ((List.range (lanes.length * valueLength)).map fun b =>
      lanes.getD (b / valueLength) false).length = lanes.length * valueLength := by simp
  rw [byteMaskLoop, maskLoop_eq ?_ ?_ ?_ hoff]
  · congr 1
    rw [setBits, filterMap_filter, hits, range'_eq_map_range, filter_map,
      ← filterMap_eq_filter, map_filterMap]
    refine filterMap_congr fun b hb => ?_
    rw [hbyte b hb, and_sub_one_eq_mod hlanes]
    have hmod : (i + b) % valueLength = b % valueLength := by
      rw [Nat.add_mod, hi, Nat.zero_add, Nat.mod_mod]
    by_cases hzero : b % valueLength = 0
    · rw [(hindex b (mem_range.mp hb) hzero).1]
      by_cases hm : m (i + b) <;> simp [hmod, hzero, hm, Option.guard]
    · simp [hmod, hzero, Option.guard]
  · simpa only [hlen] using maskOf_lt ((List.range (lanes.length * valueLength)).map fun b =>
      lanes.getD (b / valueLength) false)
  · exact (length_filter_le _ _).trans (by simp)
  · intro bit hbit idx hidx
    rw [and_sub_one_eq_mod hlanes] at hidx
    split_ifs at hidx with hzero
    obtain rfl := Option.some.inj hidx
    exact (hindex bit (by simpa using (mem_filter.mp hbit).1) hzero).2

theorem SimdVariant.lanes_hits (v : SimdVariant) :
    v.lanes valueLength i limit maxOffsets lanes offsets =
      push maxOffsets offsets
        (hits (fun x => x % valueLength == 0 && m x) i (lanes.length * valueLength)) := by
  unfold SimdVariant.lanes
  split
  · exact laneLoop_hits hlanes hi hlimit heq hoff
  · exact laneLoop_hits hlanes hi hlimit heq hoff
  · exact laneLoop_hits hlanes hi hlimit heq hoff
  · exact laneMaskLoop_hits hlanes hi hlimit heq hoff
  · exact byteMaskLoop_hits hlanes hi hlimit heq hoff
  · exact byteMaskLoop_hits hlanes hi hlimit heq hoff
  · exact byteMaskLoop_hits hlanes hi hlimit heq hoff

end Lanes

/-! ## Registers -/

theorem drop_flatten_replicate {α : Type*} (l : List α) (n k : Nat) :
    (List.replicate n l).flatten.drop (k * l.length) = (List.replicate (n - k) l).flatten := by
  induction k generalizing n with
  | zero => simp
  | succ k ih =>
    cases n with
    | zero => simp
    | succ n =>
      rw [replicate_succ, flatten_cons, Nat.succ_mul, Nat.add_comm,
        ← drop_drop, drop_left, ih, Nat.succ_sub_succ]

theorem lane_broadcastValue {width k : Nat} (hlanes : hasLanes valueLength = true)
    (hneedle : needle.length = valueLength) (hk : k < width / valueLength) :
    lane (broadcastValue width needle valueLength) valueLength k = needle := by
  subst hneedle
  rw [broadcastValue, if_pos hlanes, lane, take_length, drop_flatten_replicate,
    show width / needle.length - k = width / needle.length - k - 1 + 1 by omega,
    replicate_succ, flatten_cons, take_left]

theorem lane_load {i width k : Nat} (hk : (k + 1) * valueLength ≤ width) :
    lane ((haystack.drop i).take width) valueLength k =
      (haystack.drop (i + k * valueLength)).take valueLength := by
  rw [lane, drop_take, take_take, drop_drop]
  congr 1
  rw [Nat.succ_mul] at hk
  omega

theorem getD_cmpeq {i width k : Nat} (hlanes : hasLanes valueLength = true)
    (hneedle : needle.length = valueLength) (hk : k < width / valueLength)
    (hload : i + width ≤ haystack.length) :
    (cmpeq width ((haystack.drop i).take width) (broadcastValue width needle valueLength)
      valueLength).getD k false = occursAt haystack needle valueLength (i + k * valueLength) := by
  have hfit : (k + 1) * valueLength ≤ width :=
    (Nat.mul_le_mul_right _ hk).trans (Nat.div_mul_le_self _ _)
  rw [cmpeq, getD_eq_getElem _ _ (by simpa using hk), getElem_map, getElem_range,
    lane_load hfit, lane_broadcastValue hlanes hneedle hk, Bool.eq_iff_iff, beq_iff_eq, occursAt,
    beq_iff_eq]
  refine leNat_inj ?_
  rw [length_take, length_drop, hneedle]
  rw [Nat.succ_mul] at hfit
  omega

/-! ## Windows -/

theorem width_mod (v : SimdVariant) (hlanes : hasLanes valueLength = true) :
    v.width % valueLength = 0 := by
  rcases hasLanes_iff.mp hlanes with rfl | rfl | rfl | rfl <;> cases v <;> rfl

theorem width_pos (v : SimdVariant) : 16 ≤ v.width := by
  cases v <;> decide

theorem windowLoop_lanes (v : SimdVariant) (fuel : Nat) {i : Nat}
    (hlanes : hasLanes valueLength = true)
    (hneedle : needle.length = valueLength) (hlen : valueLength ≤ haystack.length)
    (hi : i % valueLength = 0) (hoff : offsets.length ≤ maxOffsets) :
    ∃ n, (i + n) % valueLength = 0 ∧
      windowLoop v haystack (broadcastValue v.width needle valueLength) valueLength
          (haystack.length - valueLength + 1) maxOffsets fuel i offsets =
        some (i + n, push maxOffsets offsets
          (hits (fun x ↦ x % valueLength == 0 && occursAt haystack needle valueLength x) i n)) := by
  induction fuel generalizing i offsets with
  | zero =>
    refine ⟨0, hi, ?_⟩
    rw [hits_zero, push_nil hoff]
    rfl
  | succ fuel ih =>
    rw [windowLoop]
    by_cases hwin : i + (v.width - valueLength) < haystack.length - valueLength + 1 ∧
        offsets.length < maxOffsets
    · have hload : i + v.width ≤ haystack.length := by omega
      have hmul : v.width / valueLength * valueLength = v.width :=
        Nat.div_mul_cancel (Nat.dvd_of_mod_eq_zero (width_mod v hlanes))
      have hcount : (cmpeq v.width ((haystack.drop i).take v.width)
          (broadcastValue v.width needle valueLength) valueLength).length =
          v.width / valueLength := by
        simp [cmpeq]
      have hfound : v.lanes valueLength i (haystack.length - valueLength + 1) maxOffsets
          (cmpeq v.width ((haystack.drop i).take v.width)
            (broadcastValue v.width needle valueLength) valueLength) offsets =
          push maxOffsets offsets (hits (fun x => x % valueLength == 0 &&
            occursAt haystack needle valueLength x) i (v.width / valueLength * valueLength)) := by
        rw [← hcount]
        refine SimdVariant.lanes_hits hlanes hi ?_ ?_ hoff v
        · intro k hk
          have hfit : (k + 1) * valueLength ≤ v.width :=
            (Nat.mul_le_mul_right _ (hcount ▸ hk)).trans hmul.le
          rw [Nat.succ_mul] at hfit
          omega
        · intro k hk
          exact getD_cmpeq hlanes hneedle (hcount ▸ hk) hload
      rw [hmul] at hfound
      rw [if_pos hwin, if_pos hlanes, load_of_le hload]
      simp only [Option.bind_eq_bind, Option.bind_some, hfound]
      obtain ⟨n, hn, hloop⟩ := ih (i := i + v.width)
        (by rw [Nat.add_mod, hi, width_mod v hlanes, Nat.add_zero, Nat.zero_mod])
        (@length_push_le maxOffsets offsets (hits (fun x => x % valueLength == 0 &&
          occursAt haystack needle valueLength x) i v.width))
      refine ⟨v.width + n, by rwa [← Nat.add_assoc], ?_⟩
      rw [hloop, push_push, hits_add, Nat.add_assoc]
    · rw [if_neg hwin]
      exact ⟨0, hi, by rw [hits_zero, push_nil hoff, Nat.add_zero]⟩

theorem windowLoop_noLanes (v : SimdVariant) (pat : List UInt8) {fuel i : Nat}
    (hlanes : hasLanes valueLength = false) (hvl8 : valueLength ≤ 8)
    (hlen : valueLength ≤ haystack.length)
    (hfuel : haystack.length - valueLength + 1 ≤ i + fuel) (hroom : offsets.length < maxOffsets) :
    windowLoop v haystack pat valueLength (haystack.length - valueLength + 1) maxOffsets fuel i
        offsets =
      some (i + v.width * ((haystack.length - i) / v.width), offsets) := by
  have hwidth := width_pos v
  induction fuel generalizing i with
  | zero =>
    rw [Nat.div_eq_of_lt (by omega), Nat.mul_zero]
    rfl
  | succ fuel ih =>
    rw [windowLoop]
    by_cases hload : i + v.width ≤ haystack.length
    · have hdiv : (haystack.length - i) / v.width =
          (haystack.length - (i + v.width)) / v.width + 1 := by
        rw [show haystack.length - i = haystack.length - (i + v.width) + v.width by omega,
          Nat.add_div_right _ (by omega)]
      rw [if_pos ⟨by omega, hroom⟩, if_neg (by simp [hlanes]), ih (by omega), hdiv,
        Nat.mul_add, Nat.mul_one]
      congr 2
      omega
    · rw [if_neg (by omega), Nat.div_eq_of_lt (by omega), Nat.mul_zero, Nat.add_zero]

def simdStart (v : SimdVariant) (valueLength length : Nat) : Nat :=
  if hasLanes valueLength || decide (8 < valueLength) then 0
  else v.width * (length / v.width)

def occurrencesFrom (haystack needle : List UInt8) (valueLength e : Nat) : List Nat :=
  hits (fun x => (x - e) % valueLength == 0 && occursAt haystack needle valueLength x) e
    (haystack.length + 1 - valueLength - e)

theorem occurrencesFrom_zero :
    occurrencesFrom haystack needle valueLength 0 = occurrences haystack needle valueLength := rfl

theorem occurrences_split {n : Nat} (hvl : 0 < valueLength) (hneedle : needle.length = valueLength)
    (hn : n % valueLength = 0) :
    hits (fun x => x % valueLength == 0 && occursAt haystack needle valueLength x) 0 n ++
      occurrencesFrom haystack needle valueLength n = occurrences haystack needle valueLength := by
  have hsame : occurrencesFrom haystack needle valueLength n =
      hits (fun x => x % valueLength == 0 && occursAt haystack needle valueLength x) n
        (haystack.length + 1 - valueLength - n) := by
    refine hits_congr fun x hx _ => ?_
    obtain ⟨d, rfl⟩ := Nat.exists_eq_add_of_le hx
    rw [Nat.add_sub_cancel_left, Nat.add_mod, hn, Nat.zero_add, Nat.mod_mod]
  rw [hsame, occurrences]
  rcases Nat.le_total n (haystack.length + 1 - valueLength) with hle | hle
  · conv_rhs => rw [show haystack.length + 1 - valueLength =
      n + (haystack.length + 1 - valueLength - n) by omega, hits_add, Nat.zero_add]
  · -- past the limit there is no room for the needle
    have hnil : ∀ x, 0 + (haystack.length + 1 - valueLength) ≤ x → x < n →
        (x % valueLength == 0 && occursAt haystack needle valueLength x) = false := by
      intro x hx _
      rw [occursAt_eq_false hneedle hvl (by omega), Bool.and_false]
    conv_lhs => rw [show n = haystack.length + 1 - valueLength +
      (n - (haystack.length + 1 - valueLength)) by omega, hits_add]
    rw [hits_eq_nil (a := 0 + (haystack.length + 1 - valueLength)) fun x h₁ h₂ =>
      hnil x h₁ (by omega)]
    simp

theorem occurrencesFrom_of_short {e : Nat} (h : haystack.length < valueLength) :
    occurrencesFrom haystack needle valueLength e = [] := by
  rw [occurrencesFrom, show haystack.length + 1 - valueLength - e = 0 by omega, hits_zero]

theorem scalarMatch_eq (hvl : 0 < valueLength) (hneedle : needle.length = valueLength) {x : Nat}
    (hx : x + valueLength ≤ haystack.length) :
    scalarMatch needle valueLength ((haystack.drop x).take valueLength) =
      occursAt haystack needle valueLength x := by
  have hvalue : ((haystack.drop x).take valueLength).length = valueLength := by
    rw [length_take, length_drop]
    omega
  have hboth : ((haystack.drop x).take valueLength).take valueLength =
      needle.take valueLength ↔ occursAt haystack needle valueLength x = true := by
    rw [occursAt, beq_iff_eq, take_of_length_le hneedle.le, take_of_length_le hvalue.le]
  unfold scalarMatch
  rw [Bool.eq_iff_iff, ← hboth]
  split
  · rw [matchU8_eq hvalue.ge hneedle.ge, decide_eq_true_iff]
  · rw [matchU16, matchWord_eq hvalue.ge hneedle.ge, decide_eq_true_iff]
  · rw [matchU32, matchWord_eq hvalue.ge hneedle.ge, decide_eq_true_iff]
  · rw [matchU64, matchWord_eq hvalue.ge hneedle.ge, decide_eq_true_iff]
  · rw [beq_iff_eq]

theorem scalarFindExact_eq (hvl : 0 < valueLength) (hneedle : needle.length = valueLength)
    (maxOffsets : Nat) :
    scalarFindExact haystack needle valueLength maxOffsets =
      some (push maxOffsets [] (occurrences haystack needle valueLength)) := by
  unfold scalarFindExact
  split_ifs with hnone
  · rcases hnone with hshort | rfl
    · rw [← occurrencesFrom_zero, occurrencesFrom_of_short hshort, push_nil (by simp)]
    · rfl
  · rw [stridedLoop_eq hvl (by omega) (fun x hx => scalarMatch_eq hvl hneedle hx) (by omega)
      (by simp), occurrences,
      show haystack.length - valueLength + 1 = haystack.length + 1 - valueLength by omega]
    rfl

theorem simdFindExact_eq (v : SimdVariant) (hvl : 0 < valueLength)
    (hneedle : needle.length = valueLength) (maxOffsets : Nat) :
    simdFindExact v haystack needle valueLength maxOffsets =
      some (push maxOffsets [] (occurrencesFrom haystack needle valueLength
        (simdStart v valueLength haystack.length))) := by
  unfold simdFindExact
  split_ifs with hnone hvl8
  · rcases hnone with hshort | rfl
    · rw [occurrencesFrom_of_short hshort, push_nil (by simp)]
    · rfl
  · have htail : ∀ x, x + valueLength ≤ haystack.length →
        (((haystack.drop x).take valueLength).take valueLength == needle.take valueLength) =
          occursAt haystack needle valueLength x := by
      intro x hx
      rw [take_take, Nat.min_self, take_of_length_le hneedle.le, occursAt]
    have hlimit : haystack.length - valueLength + 1 = haystack.length + 1 - valueLength := by omega
    have hlen : valueLength ≤ haystack.length := by omega
    cases hlanes : hasLanes valueLength with
    | true =>
      obtain ⟨n, hn, hloop⟩ := windowLoop_lanes v (haystack.length - valueLength + 1) hlanes
        hneedle hlen (Nat.zero_mod _) (show ([] : List Nat).length ≤ maxOffsets by simp)
      rw [Nat.zero_add] at hn
      simp only [hloop, Option.bind_eq_bind, Option.bind_some, Nat.zero_add]
      rw [stridedLoop_eq hvl (by omega) htail (by omega) (length_push_le _), push_push,
        simdStart, hlanes, Bool.true_or, if_pos rfl, occurrencesFrom_zero, hlimit,
        ← occurrences_split hvl hneedle hn]
      rfl
    | false =>
      have hroom : ([] : List Nat).length < maxOffsets := by
        rw [length_nil]
        omega
      have hloop := windowLoop_noLanes v (broadcastValue v.width needle valueLength)
        (i := 0) hlanes hvl8 hlen (Nat.le_add_left _ 0) hroom
      simp only [hloop, Option.bind_eq_bind, Option.bind_some, Nat.zero_add, Nat.sub_zero]
      rw [stridedLoop_eq hvl (by omega) htail (by omega) (by simp), hlimit, simdStart, hlanes,
        if_neg (by simp; omega)]
      rfl
  · rw [simdStart, if_pos (by simp [Nat.lt_of_not_le hvl8]), occurrencesFrom_zero]
    exact scalarFindExact_eq hvl hneedle maxOffsets

/-! ## Agreement with the scalar loop -/

theorem push_occurrencesFrom {e : Nat} (hvl : 0 < valueLength)
    (hlen : haystack.length ≤ 2 ^ 32)
    (hmax : (occurrencesFrom haystack needle valueLength e).length ≤ maxOffsets) :
    push maxOffsets [] (occurrencesFrom haystack needle valueLength e) =
      occurrencesFrom haystack needle valueLength e := by
  have hwrap : (occurrencesFrom haystack needle valueLength e).map wrap32 =
      occurrencesFrom haystack needle valueLength e := by
    refine (map_congr_left fun x hx => ?_).trans (map_id _)
    obtain ⟨⟨hge, hlt⟩, -⟩ := mem_hits.mp hx
    exact wrap32_of_lt (by omega)
  rw [push, nil_append, hwrap, take_of_length_le hmax]

end Search

/-- On every buffer of `n` bytes, a vector variant and the scalar loop return the
multiples of the value length at which the value occurs, without a load outside
the buffer. -/
def SimdExact (v : SimdVariant) (valueLength n : Nat) : Prop :=
  ∀ haystack needle maxOffsets, haystack.length = n → needle.length = valueLength →
    (occurrences haystack needle valueLength).length ≤ maxOffsets →
    simdFindExact v haystack needle valueLength maxOffsets =
        some (occurrences haystack needle valueLength) ∧
      scalarFindExact haystack needle valueLength maxOffsets =
        some (occurrences haystack needle valueLength)

theorem simdFindExact_misses_first (v : SimdVariant) {valueLength n : Nat} (hvl : 0 < valueLength)
    (hn : valueLength ≤ n) (hn' : n ≤ 2 ^ 32) (hstart : 0 < simdStart v valueLength n) :
    ¬ SimdExact v valueLength n := by
  intro h
  let needle : List UInt8 := List.replicate valueLength 1
  let haystack := needle ++ List.replicate (n - valueLength) 0
  have hneedle : needle.length = valueLength := length_replicate
  have hlen : haystack.length = n := by
    simp only [haystack, length_append, hneedle, length_replicate]
    omega
  have hfirst : 0 ∈ occurrences haystack needle valueLength := by
    refine mem_hits.mpr ⟨⟨Nat.le_refl 0, by omega⟩, ?_⟩
    have htake : haystack.take valueLength = needle := by
      rw [← hneedle]
      exact take_left
    simp [occursAt, htake]
  obtain ⟨hsimd, -⟩ := h haystack needle _ hlen hneedle le_rfl
  rw [simdFindExact_eq v hvl hneedle, Option.some_inj] at hsimd
  rw [← hsimd, push, nil_append] at hfirst
  obtain ⟨x, hx, hzero⟩ := mem_map.mp (mem_of_mem_take hfirst)
  obtain ⟨⟨hge, hlt⟩, -⟩ := mem_hits.mp hx
  rw [hlen] at hge hlt
  rw [wrap32_of_lt (by omega)] at hzero
  omega

/-- **Vector and scalar search.** They agree on all buffers of `n` bytes exactly
if the value length has lane code or is left to the scalar loop, or if the buffer
is shorter than one register. -/
theorem simdExact_iff (v : SimdVariant) {valueLength n : Nat} (hvl : 1 ≤ valueLength)
    (hvl16 : valueLength ≤ 16) (hn : n ≤ 2 ^ 32) :
    SimdExact v valueLength n ↔
      (valueLength = 3 ∨ valueLength = 5 ∨ valueLength = 6 ∨ valueLength = 7 → n < v.width) := by
  have hwidth := width_pos v
  constructor
  · intro h hodd
    by_contra hge
    have hlanes : ¬ (hasLanes valueLength || decide (8 < valueLength)) = true := by
      rcases hodd with rfl | rfl | rfl | rfl <;> decide
    refine simdFindExact_misses_first v hvl (by omega) hn ?_ h
    rw [simdStart, if_neg hlanes]
    exact Nat.mul_pos (by omega) (Nat.div_pos (by omega) (by omega))
  · intro hcond haystack needle maxOffsets hlen hneedle hmax
    have hstart : simdStart v valueLength haystack.length = 0 := by
      rw [simdStart]
      split_ifs with hlanes
      · rfl
      · have hodd : valueLength = 3 ∨ valueLength = 5 ∨ valueLength = 6 ∨ valueLength = 7 := by
          rw [Bool.or_eq_true, hasLanes_iff, decide_eq_true_iff] at hlanes
          omega
        rw [Nat.div_eq_of_lt (hlen ▸ hcond hodd), Nat.mul_zero]
    rw [← occurrencesFrom_zero] at hmax ⊢
    rw [simdFindExact_eq v hvl hneedle, scalarFindExact_eq hvl hneedle, hstart,
      ← occurrencesFrom_zero, push_occurrencesFrom hvl (by omega) hmax]
    exact ⟨rfl, rfl⟩

theorem simdExact_iff_u32 : (∀ v, SimdExact v 4 100) ∧ SimdExact .avx2 3 31 :=
  ⟨fun v => (simdExact_iff v (by decide) (by decide) (by decide)).mpr (by omega),
    (simdExact_iff .avx2 (by decide) (by decide) (by decide)).mpr (by decide)⟩

theorem simdExact_three_bytes_lost :
    ¬ ∀ v valueLength n, 1 ≤ valueLength → valueLength ≤ 16 → n ≤ 2 ^ 20 →
      SimdExact v valueLength n := by
  intro h
  have hsimd := (h .neon 3 16 (by decide) (by decide) (by decide)
    ([1, 1, 1] ++ List.replicate 13 0) [1, 1, 1] 8 rfl rfl (by decide)).1
  exact absurd hsimd (by decide)

end MemDbg.Scan
