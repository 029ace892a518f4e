import MemDbg.Lib.Search

/-!
# Consecutive intervals

`Span a slots c` says that the intervals in `slots` are nonempty and lie end to
end from `a` to `c`.  Cutting a list along such intervals loses nothing and keeps
the order, and what is found piece by piece does not depend on the pieces if what
a piece finds at a number does not.
-/

namespace MemDbg.Lib

inductive Span : Nat → List (Nat × Nat) → Nat → Prop
  | nil (a : Nat) : Span a [] a
  | cons {a b c : Nat} {slots : List (Nat × Nat)} :
      a < b → Span b slots c → Span a ((a, b) :: slots) c

namespace Span

open List

variable {a c : Nat} {slots : List (Nat × Nat)}

theorem le (h : Span a slots c) : a ≤ c := by
  induction h with
  | nil a => exact Nat.le_refl a
  | cons hab _ ih => omega

theorem lt_of_mem (h : Span a slots c) {s : Nat × Nat} (hs : s ∈ slots) : s.1 < s.2 := by
  induction h with
  | nil a => exact absurd hs not_mem_nil
  | cons hab _ ih =>
    rcases mem_cons.mp hs with rfl | hs
    · exact hab
    · exact ih hs

theorem bounds_of_mem (h : Span a slots c) {s : Nat × Nat} (hs : s ∈ slots) :
    a ≤ s.1 ∧ s.2 ≤ c := by
  induction h with
  | nil a => exact absurd hs not_mem_nil
  | cons hab hspan ih =>
    rcases mem_cons.mp hs with rfl | hs
    · exact ⟨Nat.le_refl _, hspan.le⟩
    · exact ⟨Nat.le_trans (Nat.le_of_lt hab) (ih hs).1, (ih hs).2⟩

theorem append {b : Nat} {slots' : List (Nat × Nat)} (h : Span a slots b)
    (h' : Span b slots' c) : Span a (slots ++ slots') c := by
  induction h with
  | nil _ => exact h'
  | cons hab _ ih => exact .cons hab (ih h')

theorem exists_mem (h : Span a slots c) {i : Nat} (ha : a ≤ i) (hc : i < c) :
    ∃ s ∈ slots, s.1 ≤ i ∧ i < s.2 := by
  induction h with
  | nil a => exact absurd hc (Nat.not_lt.mpr ha)
  | @cons a b c slots hab hspan ih =>
    rcases Nat.lt_or_ge i b with hb | hb
    · exact ⟨(a, b), mem_cons_self, ha, hb⟩
    · obtain ⟨s, hs, hi⟩ := ih hb hc
      exact ⟨s, mem_cons_of_mem _ hs, hi⟩

theorem eq_of_mem (h : Span a slots c) {s t : Nat × Nat} (hs : s ∈ slots) (ht : t ∈ slots)
    {i : Nat} (his : s.1 ≤ i) (hsi : i < s.2) (hit : t.1 ≤ i) (hti : i < t.2) : s = t := by
  induction h with
  | nil a => exact absurd hs not_mem_nil
  | @cons a b c slots hab hspan ih =>
    rcases mem_cons.mp hs with rfl | hs <;> rcases mem_cons.mp ht with rfl | ht
    · rfl
    · have := (hspan.bounds_of_mem ht).1
      omega
    · have := (hspan.bounds_of_mem hs).1
      omega
    · exact ih hs ht

theorem pairwise_flatMap {f : Nat × Nat → List Nat} (h : Span a slots c)
    (hf : ∀ s ∈ slots, (f s).Pairwise (· < ·) ∧ ∀ x ∈ f s, s.1 ≤ x ∧ x < s.2) :
    (slots.flatMap f).Pairwise (· < ·) := by
  induction h with
  | nil a => exact .nil
  | @cons a b c slots hab hspan ih =>
    obtain ⟨hfirst, hrest⟩ := forall_mem_cons.mp hf
    rw [flatMap_cons, pairwise_append]
    refine ⟨hfirst.1, ih hrest, fun x hx y hy => ?_⟩
    obtain ⟨s, hs, hys⟩ := mem_flatMap.mp hy
    have hxb := (hfirst.2 x hx).2
    have hby := (hspan.bounds_of_mem hs).1
    have hsy := ((hrest s hs).2 y hys).1
    exact Nat.lt_of_lt_of_le hxb (Nat.le_trans hby hsy)

theorem flatMap_hits {p : Nat × Nat → Nat → Bool} {q : Nat → Bool} (h : Span a slots c)
    (hpq : ∀ s ∈ slots, ∀ x, s.1 ≤ x → x < s.2 → p s x = q x) :
    slots.flatMap (fun s => hits (p s) s.1 (s.2 - s.1)) = hits q a (c - a) := by
  induction h with
  | nil a => rw [Nat.sub_self, hits_zero, flatMap_nil]
  | @cons a b c slots hab hspan ih =>
    obtain ⟨hfirst, hrest⟩ := forall_mem_cons.mp hpq
    have hbc := hspan.le
    rw [flatMap_cons, ih hrest, hits_congr fun x hx hx' => hfirst x hx (by omega),
      show c - a = (b - a) + (c - b) by omega, hits_add, Nat.add_sub_cancel' (Nat.le_of_lt hab)]

theorem flatMap_hits_congr {p : Nat × Nat → Nat → Bool} {slots' : List (Nat × Nat)}
    (h : Span a slots c) (h' : Span a slots' c)
    (hp : ∀ s ∈ slots, ∀ t ∈ slots', ∀ x, s.1 ≤ x → x < s.2 → t.1 ≤ x → x < t.2 → p s x = p t x) :
    slots.flatMap (fun s => hits (p s) s.1 (s.2 - s.1)) =
      slots'.flatMap fun t => hits (p t) t.1 (t.2 - t.1) := by
  let q : Nat → Bool := fun x => slots.any fun s => decide (s.1 ≤ x ∧ x < s.2) && p s x
  have hq : ∀ s ∈ slots, ∀ x, s.1 ≤ x → x < s.2 → p s x = q x := by
    intro s hs x hsx hxs
    rw [Bool.eq_iff_iff]
    simp only [q, any_eq_true, Bool.and_eq_true, decide_eq_true_eq]
    constructor
    · intro hpx
      exact ⟨s, hs, ⟨hsx, hxs⟩, hpx⟩
    · rintro ⟨t, ht, ⟨htx, hxt⟩, hpx⟩
      rwa [h.eq_of_mem hs ht hsx hxs htx hxt]
  rw [h.flatMap_hits hq, h'.flatMap_hits]
  intro t ht x htx hxt
  have hbounds := h'.bounds_of_mem ht
  obtain ⟨s, hs, hsx, hxs⟩ := h.exists_mem (Nat.le_trans hbounds.1 htx)
    (Nat.lt_of_lt_of_le hxt hbounds.2)
  rw [← hp s hs t ht x hsx hxs htx hxt, hq s hs x hsx hxs]

theorem flatMap_extract {α : Type*} (l : List α) (h : Span a slots c) :
    slots.flatMap (fun s => l.extract s.1 s.2) = l.extract a c := by
  induction h with
  | nil a => simp
  | @cons a b c slots hab hspan ih =>
    have hbc := hspan.le
    rw [flatMap_cons, ih]
    simp only [extract_eq_take_drop]
    rw [show c - a = (b - a) + (c - b) by omega, take_add, drop_drop,
      show a + (b - a) = b by omega]

theorem isChain (h : Span a slots c) : slots.IsChain fun s t => s.2 = t.1 := by
  induction h with
  | nil a => exact .nil
  | cons _ hspan ih =>
    cases hspan with
    | nil => exact .singleton _
    | cons => exact .cons_cons rfl ih

theorem countP_eq_zero (h : Span a slots c) {i : Nat} (hi : i < a) :
    slots.countP (fun s => s.1 ≤ i ∧ i < s.2) = 0 := by
  induction h with
  | nil a => rfl
  | cons hab _ ih =>
    rw [countP_cons_of_neg (by simp only [decide_eq_true_eq]; omega), ih (Nat.lt_trans hi hab)]

theorem countP_eq_one (h : Span a slots c) {i : Nat} (ha : a ≤ i) (hc : i < c) :
    slots.countP (fun s => s.1 ≤ i ∧ i < s.2) = 1 := by
  induction h with
  | nil a => exact absurd hc (Nat.not_lt.mpr ha)
  | @cons a b c slots hab hspan ih =>
    rcases Nat.lt_or_ge i b with hb | hb
    · rw [countP_cons_of_pos (by simpa only [decide_eq_true_eq] using ⟨ha, hb⟩),
        hspan.countP_eq_zero hb]
    · rw [countP_cons_of_neg (by simp only [decide_eq_true_eq]; omega), ih hb hc]

end Span

end MemDbg.Lib
