import Mathlib.Tactic.Common

/-!
# Indices for slots

Two tables of the same addresses: the slots of one party, and the indices under which another
remembers what it put there.  An index that holds 0 is empty.
-/

namespace MemDbg.Lib

open Function

structure Mirrors (n : Nat) (held : Nat → Nat) (k : Nat) (slots : Nat → Option Nat) : Prop where
  exact : ∀ a, (∃ j < k, slots j = some a) ↔ a ≠ 0 ∧ ∃ i < n, held i = a
  once : ∀ i < n, ∀ i' < n, held i = held i' → held i ≠ 0 → i = i'
  distinct : ∀ j < k, ∀ j' < k, ∀ a, slots j = some a → slots j' = some a → j = j'

namespace Mirrors

variable {n k : Nat} {held : Nat → Nat} {slots : Nat → Option Nat}

theorem empty : Mirrors n (fun _ => 0) k (fun _ => none) where
  exact _ := ⟨fun ⟨_, _, h⟩ => (nomatch h), fun ⟨hne, _, _, h⟩ => absurd h.symm hne⟩
  once _ _ _ _ _ hne := absurd rfl hne
  distinct _ _ _ _ _ h := (nomatch h)

theorem set (h : Mirrors n held k slots) {i j a : Nat} (hi : i < n) (hj : j < k)
    (hfree : slots j = none) (hfresh : ∀ j' < k, slots j' ≠ some a) (ha : a ≠ 0)
    (hempty : held i = 0) : Mirrors n (update held i a) k (update slots j (some a)) where
  exact b := by
    constructor
    · rintro ⟨j', hj', hb⟩
      rcases eq_or_ne j' j with rfl | hne
      · rw [update_self] at hb
        cases hb
        exact ⟨ha, i, hi, update_self ..⟩
      · rw [update_of_ne hne] at hb
        obtain ⟨hb0, i', hi', hheld⟩ := (h.exact b).mp ⟨j', hj', hb⟩
        refine ⟨hb0, i', hi', ?_⟩
        rw [update_of_ne, hheld]
        rintro rfl
        exact hb0 (hheld.symm.trans hempty)
    · rintro ⟨hb0, i', hi', hb⟩
      rcases eq_or_ne i' i with rfl | hne
      · rw [update_self] at hb
        exact ⟨j, hj, by rw [update_self, hb]⟩
      · rw [update_of_ne hne] at hb
        obtain ⟨j', hj', hslot⟩ := (h.exact b).mpr ⟨hb0, i', hi', hb⟩
        refine ⟨j', hj', ?_⟩
        rw [update_of_ne, hslot]
        rintro rfl
        rw [hfree] at hslot
        cases hslot
  once i₁ hi₁ i₂ hi₂ heq hne := by
    have hother : ∀ i' < n, held i' ≠ a := fun i' hi' hheld => by
      obtain ⟨j', hj', hslot⟩ := (h.exact a).mpr ⟨ha, i', hi', hheld⟩
      exact hfresh j' hj' hslot
    rcases eq_or_ne i₁ i with rfl | h₁
    · rcases eq_or_ne i₂ i₁ with rfl | h₂
      · rfl
      · rw [update_self, update_of_ne h₂] at heq
        exact absurd heq.symm (hother i₂ hi₂)
    · rw [update_of_ne h₁] at heq hne
      rcases eq_or_ne i₂ i with rfl | h₂
      · rw [update_self] at heq
        exact absurd heq (hother i₁ hi₁)
      · rw [update_of_ne h₂] at heq
        exact h.once i₁ hi₁ i₂ hi₂ heq hne
  distinct j₁ hj₁ j₂ hj₂ b hb₁ hb₂ := by
    rcases eq_or_ne j₁ j with rfl | h₁
    · rcases eq_or_ne j₂ j₁ with rfl | h₂
      · rfl
      · rw [update_self] at hb₁
        rw [update_of_ne h₂] at hb₂
        cases hb₁
        exact absurd hb₂ (hfresh j₂ hj₂)
    · rw [update_of_ne h₁] at hb₁
      rcases eq_or_ne j₂ j with rfl | h₂
      · rw [update_self] at hb₂
        cases hb₂
        exact absurd hb₁ (hfresh j₁ hj₁)
      · rw [update_of_ne h₂] at hb₂
        exact h.distinct j₁ hj₁ j₂ hj₂ b hb₁ hb₂

theorem clear (h : Mirrors n held k slots) {i j : Nat} (hi : i < n) (hj : j < k)
    (hslot : slots j = some (held i)) :
    Mirrors n (update held i 0) k (update slots j none) where
  exact b := by
    constructor
    · rintro ⟨j', hj', hb⟩
      rcases eq_or_ne j' j with rfl | hne
      · rw [update_self] at hb
        cases hb
      · rw [update_of_ne hne] at hb
        obtain ⟨hb0, i', hi', hheld⟩ := (h.exact b).mp ⟨j', hj', hb⟩
        refine ⟨hb0, i', hi', ?_⟩
        rw [update_of_ne, hheld]
        rintro rfl
        exact hne (h.distinct j' hj' j hj b hb (hheld ▸ hslot))
    · rintro ⟨hb0, i', hi', hb⟩
      rcases eq_or_ne i' i with rfl | hne
      · rw [update_self] at hb
        exact absurd hb.symm hb0
      · rw [update_of_ne hne] at hb
        obtain ⟨j', hj', hslot'⟩ := (h.exact b).mpr ⟨hb0, i', hi', hb⟩
        refine ⟨j', hj', ?_⟩
        rw [update_of_ne, hslot']
        rintro rfl
        rw [hslot] at hslot'
        exact hne (h.once i' hi' i hi (hb.trans (Option.some.inj hslot').symm) (hb.symm ▸ hb0))
  once i₁ hi₁ i₂ hi₂ heq hne := by
    rcases eq_or_ne i₁ i with rfl | h₁
    · rw [update_self] at hne
      exact absurd rfl hne
    · rw [update_of_ne h₁] at heq hne
      rcases eq_or_ne i₂ i with rfl | h₂
      · rw [update_self] at heq
        exact absurd heq hne
      · rw [update_of_ne h₂] at heq
        exact h.once i₁ hi₁ i₂ hi₂ heq hne
  distinct j₁ hj₁ j₂ hj₂ b hb₁ hb₂ := by
    have hin : ∀ {j' : Nat}, update slots j none j' = some b → slots j' = some b := by
      intro j' hb
      rcases eq_or_ne j' j with rfl | hne
      · rw [update_self] at hb
        cases hb
      · rwa [update_of_ne hne] at hb
    exact h.distinct j₁ hj₁ j₂ hj₂ b (hin hb₁) (hin hb₂)

theorem not_mem_clear (h : Mirrors n held k slots) {j a : Nat} (hj : j < k)
    (hslot : slots j = some a) : ∀ j' < k, update slots j none j' ≠ some a := by
  intro j' hj' hb
  rcases eq_or_ne j' j with rfl | hne
  · rw [update_self] at hb
    cases hb
  · rw [update_of_ne hne] at hb
    exact hne (h.distinct j' hj' j hj a hb hslot)

end Mirrors

end MemDbg.Lib
