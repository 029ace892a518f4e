import Mathlib.Data.List.Forall2

/-!
# Patterns with a wildcard

A pattern is a list of letters, one of which is a wildcard that stands for any piece of a text.  The
other letters stand for the letters of the text they are related to.  A matcher that goes through a
text from the left need only remember the last wildcard it has met: that is `glob_star_append`.
-/

namespace MemDbg.Lib

open List

variable {α β : Type*} {star : α} {rel : α → β → Prop}

inductive Glob (star : α) (rel : α → β → Prop) : List α → List β → Prop
  | nil : Glob star rel [] []
  | star {p : List α} {s : List β} (piece : List β) :
      Glob star rel p s → Glob star rel (star :: p) (piece ++ s)
  | letter {c : α} {d : β} {p : List α} {s : List β} :
      c ≠ star → rel c d → Glob star rel p s → Glob star rel (c :: p) (d :: s)

section

variable {p q : List α} {s m : List β} {c : α} {d : β}

theorem glob_nil_iff : Glob star rel [] s ↔ s = [] := by
  constructor
  · rintro ⟨⟩
    rfl
  · rintro rfl
    exact .nil

theorem glob_star_iff :
    Glob star rel (star :: p) s ↔ ∃ piece t, s = piece ++ t ∧ Glob star rel p t := by
  constructor
  · intro h
    cases h with
    | star piece h => exact ⟨piece, _, rfl, h⟩
    | letter hne _ _ => exact absurd rfl hne
  · rintro ⟨piece, t, rfl, h⟩
    exact .star piece h

theorem glob_letter_iff (hc : c ≠ star) :
    Glob star rel (c :: p) (d :: s) ↔ rel c d ∧ Glob star rel p s := by
  constructor
  · intro h
    generalize hs : d :: s = t at h
    cases h with
    | star piece h => exact absurd rfl hc
    | letter _ hrel h =>
      obtain ⟨rfl, rfl⟩ := cons_eq_cons.mp hs
      exact ⟨hrel, h⟩
  · rintro ⟨hrel, h⟩
    exact .letter hc hrel h

theorem not_glob_letter_nil (hc : c ≠ star) : ¬ Glob star rel (c :: p) [] := by
  intro h
  generalize hs : ([] : List β) = t at h
  cases h with
  | star piece h => exact hc rfl
  | letter _ _ _ => cases hs

theorem glob_nil_right_iff : Glob star rel p [] ↔ ∀ c ∈ p, c = star := by
  induction p with
  | nil => simpa using Glob.nil
  | cons c p ih =>
    by_cases hc : c = star
    · rw [hc, glob_star_iff, forall_mem_cons]
      constructor
      · rintro ⟨piece, t, hnil, h⟩
        obtain ⟨rfl, rfl⟩ := append_eq_nil_iff.mp hnil.symm
        exact ⟨rfl, ih.mp h⟩
      · rintro ⟨-, h⟩
        exact ⟨[], [], rfl, ih.mpr h⟩
    · rw [forall_mem_cons]
      exact ⟨fun h => absurd h (not_glob_letter_nil hc), fun h => absurd h.1 hc⟩

theorem Glob.star_append (h : Glob star rel (star :: p) s) (piece : List β) :
    Glob star rel (star :: p) (piece ++ s) := by
  obtain ⟨piece', t, rfl, ht⟩ := glob_star_iff.mp h
  rw [← append_assoc]
  exact .star _ ht

theorem glob_append_iff (hq : star ∉ q) :
    Glob star rel (q ++ p) s ↔ ∃ m t, s = m ++ t ∧ List.Forall₂ rel q m ∧ Glob star rel p t := by
  induction q generalizing s with
  | nil =>
    constructor
    · intro h
      exact ⟨[], s, rfl, .nil, h⟩
    · rintro ⟨m, t, rfl, hm, h⟩
      cases hm
      exact h
  | cons c q ih =>
    obtain ⟨hc, hq⟩ := not_or.mp (mem_cons.not.mp hq)
    rw [cons_append]
    constructor
    · intro h
      cases s with
      | nil => exact absurd h (not_glob_letter_nil (Ne.symm hc))
      | cons d s =>
        obtain ⟨hrel, h⟩ := (glob_letter_iff (Ne.symm hc)).mp h
        obtain ⟨m, t, rfl, hm, h⟩ := (ih hq).mp h
        exact ⟨d :: m, t, rfl, .cons hrel hm, h⟩
    · rintro ⟨m, t, rfl, hm, h⟩
      cases hm with
      | cons hrel hm => exact .letter (Ne.symm hc) hrel ((ih hq).mpr ⟨_, t, rfl, hm, h⟩)

theorem glob_append_append_iff (hq : star ∉ q) (hm : List.Forall₂ rel q m) :
    Glob star rel (q ++ p) (m ++ s) ↔ Glob star rel p s := by
  rw [glob_append_iff hq]
  constructor
  · rintro ⟨m', t, hs, hm', h⟩
    obtain ⟨rfl, rfl⟩ := append_inj hs (hm.length_eq.symm.trans hm'.length_eq)
    exact h
  · intro h
    exact ⟨m, s, rfl, hm, h⟩

theorem glob_star_append (hq : star ∉ q) (hm : List.Forall₂ rel q m) :
    Glob star rel (star :: (q ++ star :: p)) (m ++ s) ↔ Glob star rel (star :: p) s := by
  constructor
  · intro h
    obtain ⟨piece, rest, hs, h⟩ := glob_star_iff.mp h
    obtain ⟨m', t, rfl, hm', ht⟩ := (glob_append_iff hq).mp h
    have hlen : m.length = m'.length := hm.length_eq.symm.trans hm'.length_eq
    have hsuffix : t <:+ s := by
      refine suffix_of_suffix_length_le ?_ (suffix_append m s) ?_
      · rw [hs, ← append_assoc]
        exact suffix_append _ t
      · have := congrArg List.length hs
        simp only [length_append] at this
        omega
    obtain ⟨piece', rfl⟩ := hsuffix
    exact ht.star_append piece'
  · intro h
    exact .star [] ((glob_append_append_iff hq hm).mpr h)

theorem glob_star_letters_iff (hq : star ∉ q) (hm : List.Forall₂ rel q m) :
    Glob star rel (star :: (q ++ p)) m ↔ Glob star rel p [] := by
  constructor
  · intro h
    obtain ⟨piece, rest, hs, h⟩ := glob_star_iff.mp h
    obtain ⟨m', t, rfl, hm', ht⟩ := (glob_append_iff hq).mp h
    have hlen : m.length = m'.length := hm.length_eq.symm.trans hm'.length_eq
    have hnil : t = [] := by
      rw [← length_eq_zero_iff]
      have := congrArg List.length hs
      simp only [length_append] at this
      omega
    exact hnil ▸ ht
  · intro h
    have hwhole : Glob star rel (q ++ p) (m ++ []) := (glob_append_append_iff hq hm).mpr h
    exact .star [] (by rwa [append_nil] at hwhole)

theorem glob_star_cons_iff (h : ¬ Glob star rel p (d :: s)) :
    Glob star rel (star :: p) (d :: s) ↔ Glob star rel (star :: p) s := by
  constructor
  · intro hstar
    obtain ⟨piece, t, hs, ht⟩ := glob_star_iff.mp hstar
    cases piece with
    | nil => exact absurd (hs ▸ ht) h
    | cons e piece =>
      obtain ⟨-, rfl⟩ := cons_eq_cons.mp hs
      exact .star piece ht
  · intro hstar
    exact hstar.star_append [d]

end

end MemDbg.Lib
