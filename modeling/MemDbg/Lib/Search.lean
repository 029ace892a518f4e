import Mathlib.Data.List.GetD
import Mathlib.Tactic.Common

/-!
# Ordered occurrence lists

`hits p a n` lists the positions of the interval `[a, a + n)` at which `p` holds,
in increasing order and without repetition.  It is the specification every
search of this development is measured against; the lemmas say how the list
splits along the interval and how a search may skip positions.
-/

namespace MemDbg.Lib

open List

def hits (p : Nat → Bool) (a n : Nat) : List Nat := (List.range' a n).filter p

variable {p : Nat → Bool}

@[simp] theorem hits_zero (a : Nat) : hits p a 0 = [] := rfl

theorem mem_hits {a n x : Nat} : x ∈ hits p a n ↔ (a ≤ x ∧ x < a + n) ∧ p x = true := by
  simp [hits, mem_range'_1]

theorem pairwise_hits (a n : Nat) : (hits p a n).Pairwise (· < ·) :=
  List.Pairwise.filter _ pairwise_lt_range'

theorem length_hits_le (a n : Nat) : (hits p a n).length ≤ n := by
  simpa [hits] using length_filter_le p (List.range' a n)

theorem hits_add (a n k : Nat) : hits p a (n + k) = hits p a n ++ hits p (a + n) k := by
  simp only [hits, ← filter_append]
  simp

theorem hits_succ (a n : Nat) :
    hits p a (n + 1) = (if p a then [a] else []) ++ hits p (a + 1) n := by
  rw [Nat.add_comm n 1, hits_add]
  congr 1
  by_cases h : p a <;> simp [hits, h]

theorem hits_eq_nil {a n : Nat} (h : ∀ x, a ≤ x → x < a + n → p x = false) :
    hits p a n = [] := by
  rw [eq_nil_iff_forall_not_mem]
  intro x hx
  obtain ⟨⟨h₁, h₂⟩, hp⟩ := mem_hits.mp hx
  rw [h x h₁ h₂] at hp
  exact absurd hp (by decide)

theorem hits_skip {a n k : Nat} (h : ∀ x, a ≤ x → x < a + k → x < a + n → p x = false) :
    hits p a n = hits p (a + k) (n - k) := by
  by_cases hk : k ≤ n
  · conv_lhs => rw [show n = k + (n - k) by omega, hits_add]
    rw [hits_eq_nil fun x h₁ h₂ => h x h₁ h₂ (by omega), nil_append]
  · rw [show n - k = 0 by omega, hits_zero]
    exact hits_eq_nil fun x h₁ h₂ => h x h₁ (by omega) h₂

theorem hits_shift (p : Nat → Bool) (o n : Nat) :
    (hits (fun x => p (o + x)) 0 n).map (o + ·) = hits p o n := by
  rw [hits, hits, ← range_eq_range', range'_eq_map_range, filter_map]
  rfl

theorem hits_congr {q : Nat → Bool} {a n : Nat}
    (h : ∀ x, a ≤ x → x < a + n → p x = q x) : hits p a n = hits q a n := by
  refine filter_congr fun x hx => ?_
  rw [mem_range'_1] at hx
  exact h x hx.1 hx.2

theorem hits_stride {base al a n : Nat} (hal : 0 < al)
    (hp : ∀ {x}, p x = true → (x - base) % al = 0) (hbase : base ≤ a)
    (ha : (a - base) % al = 0) (hn : 0 < n) :
    hits p a n = (if p a then [a] else []) ++ hits p (a + al) (n - al) := by
  have hbetween : ∀ x, a + 1 ≤ x → x < a + 1 + (al - 1) → x < a + 1 + (n - 1) → p x = false := by
    intro x hlo hhi _
    have hx : (x - base) % al ≠ 0 := by
      rw [show x - base = (a - base) + (x - a) by omega, Nat.add_mod, ha, Nat.zero_add,
        Nat.mod_mod, Nat.mod_eq_of_lt (by omega)]
      omega
    exact Bool.eq_false_iff.mpr fun h => hx (hp h)
  rw [show n = n - 1 + 1 by omega, hits_succ, hits_skip hbetween,
    show a + 1 + (al - 1) = a + al by omega, show n - 1 - (al - 1) = n - 1 + 1 - al by omega]

theorem hits_window {p : Nat → Bool} {start scanned k m : Nat} (hm : 0 < m) :
    hits p start (scanned + 1 - m) ++
        hits p (start + scanned - min scanned (m - 1)) (min scanned (m - 1) + k + 1 - m) =
      hits p start (scanned + k + 1 - m) := by
  by_cases h : scanned < m
  · rw [show scanned + 1 - m = 0 + (scanned + 1 - m) by omega]
    rcases Nat.lt_or_ge scanned (m - 1) with hlt | hge
    · rw [show scanned + 1 - m = 0 by omega, Nat.min_eq_left (by omega)]
      simp
    · obtain rfl : scanned = m - 1 := by omega
      rw [Nat.min_self, show m - 1 + 1 - m = 0 by omega]
      simp
  · rw [Nat.min_eq_right (by omega), ← show scanned + 1 - m + k = scanned + k + 1 - m by omega,
      hits_add]
    congr 2 <;> omega

theorem head?_hits_congr {q : Nat → Bool} {a n : Nat}
    (h : ∀ x, a ≤ x → x < a + n → (∀ c, a ≤ c → c < x → p c = false ∧ q c = false) → p x = q x) :
    (hits p a n).head? = (hits q a n).head? := by
  induction n generalizing a with
  | zero => rfl
  | succ n ih =>
    have hfirst := h a (Nat.le_refl a) (Nat.lt_add_of_pos_right (Nat.succ_pos n))
      fun c hle hlt => absurd hle (Nat.not_le.2 hlt)
    rw [hits_succ, hits_succ, ← hfirst]
    cases hp : p a with
    | true => rfl
    | false =>
      rw [hp] at hfirst
      refine ih fun x hle hlt hnone => h x (Nat.le_of_succ_le hle) (by omega) fun c hc hcx => ?_
      rcases Nat.eq_or_lt_of_le hc with rfl | hgt
      · exact ⟨hp, hfirst.symm⟩
      · exact hnone c hgt hcx

theorem head?_hits_eq_some {a n x : Nat} :
    (hits p a n).head? = some x ↔
      (a ≤ x ∧ x < a + n) ∧ p x = true ∧ ∀ y, a ≤ y → y < x → p y = false := by
  induction n generalizing a with
  | zero => exact ⟨nofun, fun h => absurd h.1 (by omega)⟩
  | succ n ih =>
    rw [hits_succ]
    cases hp : p a with
    | true =>
      refine ⟨fun h => ?_, fun ⟨⟨hle, _⟩, _, hleast⟩ => ?_⟩
      · obtain rfl := Option.some.inj h
        exact ⟨by omega, hp, fun y hy hlt => absurd hy (by omega)⟩
      · obtain rfl | hlt := Nat.eq_or_lt_of_le hle
        · rfl
        · cases hp.symm.trans (hleast a (Nat.le_refl a) hlt)
    | false =>
      refine (Iff.of_eq rfl : _ ↔ (hits p (a + 1) n).head? = some x).trans (ih.trans ?_)
      refine ⟨fun ⟨hin, hx, hleast⟩ => ⟨by omega, hx, fun y hle hlt => ?_⟩,
        fun ⟨hin, hx, hleast⟩ => ⟨⟨?_, by omega⟩, hx, fun y hle => hleast y (by omega)⟩⟩
      · obtain rfl | hbehind := Nat.eq_or_lt_of_le hle
        · exact hp
        · exact hleast y hbehind hlt
      · refine Nat.lt_of_le_of_ne hin.1 fun heq => ?_
        rw [← heq, hp] at hx
        cases hx

end MemDbg.Lib
