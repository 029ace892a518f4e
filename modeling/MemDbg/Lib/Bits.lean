import Mathlib.Data.Nat.Bitwise

/-!
# Set bits of a machine word

A loop that takes the lowest set bit of a mask with `ctz` and clears it with
`mask &= mask - 1` visits the set bits of the mask in increasing order, each once
(`setBits_eq_cons`).
-/

namespace MemDbg.Lib

open List

def ctz (w m : Nat) : Nat := ((List.range w).find? m.testBit).getD w

def setBits (w m : Nat) : List Nat := (List.range w).filter m.testBit

def maskOf : List Bool → Nat
  | [] => 0
  | b :: bs => Nat.bit b (maskOf bs)

theorem testBit_maskOf (bs : List Bool) (k : Nat) : (maskOf bs).testBit k = bs.getD k false := by
  induction bs generalizing k with
  | nil => simp [maskOf]
  | cons b bs ih =>
    cases k with
    | zero => simp [maskOf]
    | succ k => simp [maskOf, Nat.testBit_bit_succ, ih]

theorem maskOf_lt (bs : List Bool) : maskOf bs < 2 ^ bs.length := by
  refine Nat.lt_pow_two_of_testBit _ fun k hk => ?_
  rw [testBit_maskOf, getD_eq_default _ _ hk]

variable {w m : Nat}

theorem ctz_spec (hm : m ≠ 0) (hw : m < 2 ^ w) :
    ctz w m < w ∧ m.testBit (ctz w m) = true ∧ ∀ j, j < ctz w m → m.testBit j = false := by
  obtain ⟨k, hk, -⟩ := Nat.exists_most_significant_bit hm
  have hkw : k < w := by
    by_contra hle
    have hlow := Nat.testBit_eq_false_of_lt (hw.trans_le (Nat.pow_le_pow_right (by omega)
      (not_lt.mp hle)))
    rw [hlow] at hk
    cases hk
  cases hfind : (List.range w).find? m.testBit with
  | none =>
    have := find?_eq_none.mp hfind k (mem_range.mpr hkw)
    exact absurd hk this
  | some i =>
    have hctz : ctz w m = i := by
      rw [ctz, hfind, Option.getD_some]
    obtain ⟨hi, hmem, hlow⟩ := find?_range_eq_some.mp hfind
    rw [hctz]
    refine ⟨mem_range.mp hmem, hi, fun j hj => ?_⟩
    simpa using hlow j hj

theorem testBit_and_sub_one (hm : m ≠ 0) (hw : m < 2 ^ w) (j : Nat) :
    (m &&& (m - 1)).testBit j = (m.testBit j && decide (j ≠ ctz w m)) := by
  obtain ⟨-, hset, hlow⟩ := ctz_spec hm hw
  generalize ctz w m = k at hset hlow
  have hmod : m % 2 ^ (k + 1) = 2 ^ k := by
    refine Nat.eq_of_testBit_eq fun i => ?_
    rw [Nat.testBit_mod_two_pow, Nat.testBit_two_pow]
    rcases lt_trichotomy i k with hik | rfl | hik
    · simp [hlow i hik, hik.ne']
    · simp [hset]
    · simp [hik.ne, show ¬ i < k + 1 by omega]
  have hpow : 2 ^ k < 2 ^ (k + 1) := Nat.pow_lt_pow_right (by omega) (by omega)
  have hm' : m = 2 ^ (k + 1) * (m / 2 ^ (k + 1)) + 2 ^ k := by
    conv_lhs => rw [← Nat.div_add_mod m (2 ^ (k + 1)), hmod]
  have hpred : m - 1 = 2 ^ (k + 1) * (m / 2 ^ (k + 1)) + (2 ^ k - 1) := by
    have := Nat.two_pow_pos k
    omega
  have hbit : (m - 1).testBit j =
      if j < k + 1 then decide (j < k) else m.testBit j := by
    rw [hpred, Nat.testBit_two_pow_mul_add _ (by omega)]
    split_ifs with hj
    · exact Nat.testBit_two_pow_sub_one k j
    · conv_rhs => rw [hm', Nat.testBit_two_pow_mul_add _ hpow, if_neg hj]
  rw [Nat.testBit_and, hbit]
  rcases lt_trichotomy j k with hjk | rfl | hjk
  · simp [hlow j hjk]
  · simp
  · simp [hjk.ne', show ¬ j < k + 1 by omega]

theorem setBits_eq_cons (hm : m ≠ 0) (hw : m < 2 ^ w) :
    setBits w m = ctz w m :: setBits w (m &&& (m - 1)) := by
  obtain ⟨hlt, hset, hlow⟩ := ctz_spec hm hw
  have hclear : setBits w (m &&& (m - 1)) =
      (List.range w).filter fun j => m.testBit j && decide (j ≠ ctz w m) :=
    filter_congr fun j _ => testBit_and_sub_one hm hw j
  rw [hclear, setBits]
  generalize ctz w m = k at *
  obtain ⟨n, rfl⟩ := Nat.exists_eq_add_of_le hlt
  have hrange : List.range (k + 1 + n) =
      List.range k ++ k :: List.range' (k + 1) n := by
    rw [range_eq_range', range_eq_range', show k + 1 + n = k + (1 + n) by omega,
      ← range'_append_1, Nat.zero_add, Nat.add_comm 1 n, range'_succ]
  have hbelow : ∀ q : Nat → Bool, (List.range k).filter (fun j => m.testBit j && q j) = [] := by
    intro q
    refine filter_eq_nil_iff.mpr fun j hj => ?_
    simp [hlow j (mem_range.mp hj)]
  have hnil : (List.range k).filter m.testBit = [] := by
    simpa using hbelow fun _ => true
  rw [hrange, filter_append, filter_append, hnil, hbelow, filter_cons_of_pos hset,
    filter_cons_of_neg (by simp)]
  simp only [nil_append, List.cons.injEq, true_and]
  refine filter_congr fun j hj => ?_
  rw [mem_range'_1] at hj
  simp [show j ≠ k by omega]

end MemDbg.Lib
