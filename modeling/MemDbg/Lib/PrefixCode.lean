import Mathlib.Data.List.Basic

/-!
# Prefix codes

A text is encoded letter by letter.  If no code word is the beginning of another one, the text can
be told from its encoding.
-/

namespace MemDbg.Lib

open List

variable {α β : Type*}

def PrefixCode (f : α → List β) : Prop := ∀ a b, f a <+: f b → a = b

namespace PrefixCode

variable {f : α → List β}

theorem eq_of_append (h : PrefixCode f) {a b : α} {u v : List β} (heq : f a ++ u = f b ++ v) :
    a = b := by
  rcases prefix_or_prefix_of_prefix (prefix_append (f a) u)
    (heq ▸ prefix_append (f b) v) with hab | hba
  · exact h a b hab
  · exact (h b a hba).symm

theorem flatMap_injective (h : PrefixCode f) (hne : ∀ a, f a ≠ []) :
    Function.Injective fun l : List α => l.flatMap f := by
  intro l l' heq
  dsimp only at heq
  induction l generalizing l' with
  | nil =>
    cases l' with
    | nil => rfl
    | cons b l' =>
      rw [flatMap_nil, flatMap_cons] at heq
      exact absurd (append_eq_nil_iff.mp heq.symm).1 (hne b)
  | cons a l ih =>
    cases l' with
    | nil =>
      rw [flatMap_nil, flatMap_cons] at heq
      exact absurd (append_eq_nil_iff.mp heq).1 (hne a)
    | cons b l' =>
      rw [flatMap_cons, flatMap_cons] at heq
      obtain rfl := h.eq_of_append heq
      rw [ih (append_cancel_left heq)]

end PrefixCode

end MemDbg.Lib
