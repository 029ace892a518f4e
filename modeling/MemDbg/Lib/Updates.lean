import Mathlib.Order.Nat

/-!
# Sequences of updates

A function changed at one argument after the other.  Where several updates meet, the last
one counts.
-/

namespace MemDbg.Lib

open Function

variable {α β : Type*} [DecidableEq α]

def updates (f : α → β) (key : Nat → α) (val : Nat → β) : Nat → α → β
  | 0 => f
  | n + 1 => update (updates f key val n) (key n) (val n)

variable {f : α → β} {key : Nat → α} {val : Nat → β} {n i : Nat} {q : α}

theorem updates_of_ne (h : ∀ i, i < n → key i ≠ q) : updates f key val n q = f q := by
  induction n with
  | zero => rfl
  | succ n ih =>
    rw [updates, update_of_ne (h n (Nat.lt_succ_self n)).symm]
    exact ih fun i hi => h i (Nat.lt_succ_of_lt hi)

theorem updates_last (hi : i < n) (h : ∀ j, i < j → j < n → key j ≠ key i) :
    updates f key val n (key i) = val i := by
  induction n with
  | zero => exact absurd hi (Nat.not_lt_zero i)
  | succ n ih =>
    rw [updates]
    rcases Nat.lt_succ_iff_lt_or_eq.mp hi with hlt | rfl
    · rw [update_of_ne (h n hlt (Nat.lt_succ_self n)).symm]
      exact ih hlt fun j hij hj => h j hij (Nat.lt_succ_of_lt hj)
    · exact update_self _ _ _

theorem updates_congr {key' : Nat → α} {val' : Nat → β}
    (h : ∀ i, i < n → key i = key' i ∧ val i = val' i) :
    updates f key val n = updates f key' val' n := by
  induction n with
  | zero => rfl
  | succ n ih =>
    obtain ⟨hkey, hval⟩ := h n (Nat.lt_succ_self n)
    rw [updates, updates, hkey, hval, ih fun i hi => h i (Nat.lt_succ_of_lt hi)]

theorem updates_add (m n : Nat) :
    updates (updates f key val m) (fun i => key (m + i)) (fun i => val (m + i)) n =
      updates f key val (m + n) := by
  induction n with
  | zero => rfl
  | succ n ih => rw [updates, ih, ← Nat.add_assoc, updates]

end MemDbg.Lib
