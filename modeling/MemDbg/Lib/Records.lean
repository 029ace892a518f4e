import Mathlib.Tactic.Common

/-!
# Records of one width

A stream of records of one width, cut back into the records.
-/

namespace MemDbg.Lib

open List

variable {α : Type*}

def pieces (w : Nat) : Nat → List α → List (List α)
  | 0, _ => []
  | n + 1, l => l.take w :: pieces w n (l.drop w)

def records (w : Nat) (l : List α) : List (List α) := pieces w (l.length / w) l

theorem pieces_flatten {w : Nat} {rs : List (List α)} (h : ∀ r ∈ rs, r.length = w) :
    pieces w rs.length rs.flatten = rs := by
  induction rs with
  | nil => rfl
  | cons r rs ih =>
    have hr : r.length = w := h r mem_cons_self
    rw [length_cons, pieces, flatten_cons, take_left' hr, drop_left' hr,
      ih fun q hq => h q (mem_cons_of_mem _ hq)]

theorem length_flatten_of_width {w : Nat} {rs : List (List α)} (h : ∀ r ∈ rs, r.length = w) :
    rs.flatten.length = rs.length * w := by
  have hwidths : rs.map List.length = List.replicate rs.length w :=
    eq_replicate_iff.mpr ⟨by simp, by simpa using h⟩
  rw [length_flatten, hwidths]
  simp

theorem length_pieces (w n : Nat) (l : List α) : (pieces w n l).length = n := by
  induction n generalizing l with
  | zero => rfl
  | succ n ih => rw [pieces, length_cons, ih]

theorem records_flatten {w : Nat} (hw : 0 < w) {rs : List (List α)}
    (h : ∀ r ∈ rs, r.length = w) : records w rs.flatten = rs := by
  rw [records, length_flatten_of_width h, Nat.mul_div_cancel _ hw, pieces_flatten h]

end MemDbg.Lib
