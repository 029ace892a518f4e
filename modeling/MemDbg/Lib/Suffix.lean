import Mathlib.Data.Nat.Find
import Mathlib.Tactic.Common

/-!
# Common suffixes of a word and its prefixes

For a word `P` of length `m`, `commonSuffix P m i` is the length of the longest
suffix of `P[0..i]` that is also a suffix of `P`.  Good-suffix shifts of
Boyer-Moore type searches are minima over this function; `GoodShift` states which
shifts are worth trying after a mismatch, and `goodShift_iff` reads the condition
off the common suffixes.
-/

namespace MemDbg.Lib

variable {α : Type*} [DecidableEq α]

def commonSuffix (P : Nat → α) (m i : Nat) : Nat :=
  Nat.findGreatest (fun r => ∀ t < r, P (i - t) = P (m - 1 - t)) (i + 1)

variable {P : Nat → α} {m i r : Nat}

theorem commonSuffix_le : commonSuffix P m i ≤ i + 1 := Nat.findGreatest_le _

theorem eq_of_lt_commonSuffix {t : Nat} (ht : t < commonSuffix P m i) :
    P (i - t) = P (m - 1 - t) := by
  have h : ∀ t < commonSuffix P m i, P (i - t) = P (m - 1 - t) :=
    Nat.findGreatest_spec (P := fun r => ∀ t < r, P (i - t) = P (m - 1 - t)) (m := 0)
      (Nat.zero_le _) (fun _ h => absurd h (Nat.not_lt_zero _))
  exact h t ht

theorem ne_at_commonSuffix (h : commonSuffix P m i < i + 1) :
    P (i - commonSuffix P m i) ≠ P (m - 1 - commonSuffix P m i) := by
  intro heq
  have hnext : ∀ t < commonSuffix P m i + 1, P (i - t) = P (m - 1 - t) := by
    intro t ht
    rcases Nat.lt_succ_iff_lt_or_eq.mp ht with h | rfl
    · exact eq_of_lt_commonSuffix h
    · exact heq
  have := Nat.le_findGreatest (P := fun r => ∀ t < r, P (i - t) = P (m - 1 - t)) h hnext
  exact absurd this (Nat.not_le_of_lt (Nat.lt_succ_self _))

theorem commonSuffix_eq (hle : r ≤ i + 1) (hin : ∀ t < r, P (i - t) = P (m - 1 - t))
    (hend : r < i + 1 → P (i - r) ≠ P (m - 1 - r)) : commonSuffix P m i = r := by
  rcases Nat.lt_trichotomy (commonSuffix P m i) r with h | h | h
  · exact absurd (hin _ h) (ne_at_commonSuffix (by omega))
  · exact h
  · have := commonSuffix_le (P := P) (m := m) (i := i)
    exact absurd (eq_of_lt_commonSuffix h) (hend (by omega))

def GoodShift (P : Nat → α) (m p s : Nat) : Prop :=
  (∀ k, p < k → k < m → s ≤ k → P (k - s) = P k) ∧ (s ≤ p → P (p - s) ≠ P p)

theorem goodShift_iff {p s : Nat} (hp : p < m) (hs : 0 < s) (hsm : s < m) :
    GoodShift P m p s ↔ commonSuffix P m (m - 1 - s) = m - 1 - p ∨
      (commonSuffix P m (m - 1 - s) = m - s ∧ p < s) := by
  have hle := commonSuffix_le (P := P) (m := m) (i := m - 1 - s)
  constructor
  · rintro ⟨hin, hend⟩
    rcases Nat.lt_or_ge p s with h | h
    · refine .inr ⟨commonSuffix_eq (by omega) (fun t ht => ?_) (by omega), h⟩
      have := hin (m - 1 - t) (by omega) (by omega) (by omega)
      rwa [show m - 1 - t - s = m - 1 - s - t by omega] at this
    · refine .inl (commonSuffix_eq (by omega) (fun t ht => ?_) fun _ => ?_)
      · have := hin (m - 1 - t) (by omega) (by omega) (by omega)
        rwa [show m - 1 - t - s = m - 1 - s - t by omega] at this
      · have := hend h
        rwa [show m - 1 - s - (m - 1 - p) = p - s by omega,
          show m - 1 - (m - 1 - p) = p by omega]
  · intro h
    have hin : ∀ k, p < k → k < m → s ≤ k → P (k - s) = P k := by
      intro k h₁ h₂ h₃
      have := eq_of_lt_commonSuffix (P := P) (m := m) (i := m - 1 - s) (t := m - 1 - k) (by omega)
      rwa [show m - 1 - s - (m - 1 - k) = k - s by omega,
        show m - 1 - (m - 1 - k) = k by omega] at this
    refine ⟨hin, fun hsp => ?_⟩
    have heq : commonSuffix P m (m - 1 - s) = m - 1 - p := by omega
    have := ne_at_commonSuffix (P := P) (m := m) (i := m - 1 - s) (by omega)
    rwa [heq, show m - 1 - s - (m - 1 - p) = p - s by omega,
      show m - 1 - (m - 1 - p) = p by omega] at this

end MemDbg.Lib
