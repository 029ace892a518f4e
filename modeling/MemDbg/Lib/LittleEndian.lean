import Mathlib.Data.Nat.Digits.Defs
import Mathlib.Data.List.GetD

/-!
# Little-endian words

The number a little-endian load of a byte list yields, and the one fact a
word-wise comparison rests on: words of equal width are equal exactly when
their bytes are.
-/

namespace MemDbg.Lib

open List

def leNat (bytes : List UInt8) : Nat := Nat.ofDigits 256 (bytes.map UInt8.toNat)

theorem leNat_cons (b : UInt8) (bs : List UInt8) : leNat (b :: bs) = b.toNat + 256 * leNat bs := by
  simp [leNat, Nat.ofDigits_cons]

private theorem digits_lt (bytes : List UInt8) : ∀ d ∈ bytes.map UInt8.toNat, d < 256 := by
  intro d hd
  obtain ⟨b, -, rfl⟩ := mem_map.mp hd
  exact b.toNat_lt

theorem leNat_lt (bytes : List UInt8) : leNat bytes < 256 ^ bytes.length := by
  have := Nat.ofDigits_lt_base_pow_length (b := 256) (by decide) (digits_lt bytes)
  rwa [length_map] at this

theorem leNat_inj {xs ys : List UInt8} (h : xs.length = ys.length) :
    leNat xs = leNat ys ↔ xs = ys := by
  constructor
  · intro heq
    have := Nat.ofDigits_inj_of_len_eq (b := 256) (by decide) (by simpa using h)
      (digits_lt xs) (digits_lt ys) heq
    exact map_inj_right (fun _ _ h => UInt8.toNat_inj.mp h) |>.mp this
  · rintro rfl
    rfl

theorem leNat_take (bytes : List UInt8) (n : Nat) :
    leNat (bytes.take n) = leNat bytes % 256 ^ n := by
  induction bytes generalizing n with
  | nil => simp [leNat]
  | cons b bs ih =>
    cases n with
    | zero => simp [leNat, Nat.mod_one]
    | succ n =>
      rw [take_succ_cons, leNat_cons, leNat_cons, ih, Nat.pow_succ', Nat.mod_mul]
      have hbyte := b.toNat_lt
      rw [Nat.add_mul_mod_self_left, Nat.add_mul_div_left _ _ (by decide),
        Nat.mod_eq_of_lt hbyte, Nat.div_eq_of_lt hbyte, Nat.zero_add]

theorem take_eq_of_testBit_xor {xs ys : List UInt8} (h : xs.length = ys.length) {n : Nat}
    (hbits : ∀ j, j < 8 * n → (leNat xs ^^^ leNat ys).testBit j = false) :
    xs.take n = ys.take n := by
  have hlen : (xs.take n).length = (ys.take n).length := by
    rw [length_take, length_take, h]
  have hpow : 256 ^ n = 2 ^ (8 * n) := by
    rw [Nat.pow_mul]
  rw [← leNat_inj hlen, leNat_take, leNat_take, hpow]
  refine Nat.eq_of_testBit_eq fun j => ?_
  rw [Nat.testBit_mod_two_pow, Nat.testBit_mod_two_pow]
  by_cases hj : j < 8 * n
  · have := hbits j hj
    rw [Nat.testBit_xor, bne_eq_false_iff_eq] at this
    rw [this]
  · rw [decide_eq_false hj, Bool.false_and, Bool.false_and]

def leBytes : Nat → Nat → List UInt8
  | 0, _ => []
  | w + 1, n => UInt8.ofNat (n % 256) :: leBytes w (n / 256)

@[simp] theorem length_leBytes (w n : Nat) : (leBytes w n).length = w := by
  induction w generalizing n with
  | zero => rfl
  | succ w ih => simp [leBytes, ih]

theorem leNat_leBytes (w n : Nat) : leNat (leBytes w n) = n % 256 ^ w := by
  induction w generalizing n with
  | zero => simp [leNat, leBytes, Nat.mod_one]
  | succ w ih =>
    have hbyte : (UInt8.ofNat (n % 256)).toNat = n % 256 := by
      simp
    rw [leBytes, leNat_cons, hbyte, ih, Nat.pow_succ', Nat.mod_mul]

end MemDbg.Lib
