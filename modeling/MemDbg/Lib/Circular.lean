import Mathlib.Data.List.Basic
import Mathlib.Data.Nat.ModEq

/-!
# Circular arrays

A circular array keeps a window of a history: entry `i` of the history is in the slot whose index is
`i` modulo the length of the array.  The two ends of the window are counted modulo a number that the
length of the array divides, and the difference of two such counters is the number of entries
between them.
-/

namespace MemDbg.Lib

open List

def Circular {α : Type} (slots history : List α) (lo hi : Nat) : Prop :=
  ∀ i, lo ≤ i → i < hi → slots[i % slots.length]? = history[i]?

def counterSub (m a b : Nat) : Nat := (a + m - b) % m

section Counters

variable {m n lo : Nat}

theorem counterSub_mod (h : n < m) : counterSub m ((lo + n) % m) (lo % m) = n := by
  have hlt : lo % m < m := Nat.mod_lt _ (by omega)
  rw [counterSub, Nat.add_sub_assoc hlt.le, Nat.mod_add_mod]
  have hsum : lo + n + (m - lo % m) = n + m * (lo / m + 1) := by
    have hdiv := Nat.div_add_mod lo m
    rw [Nat.mul_add, Nat.mul_one]
    omega
  rw [hsum, Nat.add_mul_mod_self_left, Nat.mod_eq_of_lt h]

end Counters

section Windows

variable {α : Type} {slots history : List α} {lo hi : Nat}

theorem Circular.mono (h : Circular slots history lo hi) {lo' hi' : Nat} (hlo : lo ≤ lo')
    (hhi : hi' ≤ hi) : Circular slots history lo' hi' :=
  fun i hi₁ hi₂ => h i (hlo.trans hi₁) (hi₂.trans_le hhi)

theorem Circular.of_le (h : hi ≤ lo) (slots history : List α) : Circular slots history lo hi :=
  fun _ hi₁ hi₂ => absurd (hi₁.trans_lt hi₂) (Nat.not_lt.mpr h)

theorem mod_ne_of_lt {i j n : Nat} (hij : i < j) (hj : j < i + n) : i % n ≠ j % n := by
  intro heq
  have hdvd := (Nat.modEq_iff_dvd' hij.le).mp heq
  have := Nat.le_of_dvd (by omega) hdvd
  omega

theorem Circular.push (h : Circular slots history lo history.length) (hlo : lo ≤ history.length)
    (hroom : history.length < lo + slots.length) (e : α) :
    Circular (slots.set (history.length % slots.length) e) (history ++ [e]) lo
      (history.length + 1) := by
  intro i hi₁ hi₂
  rw [length_set]
  rcases Nat.lt_succ_iff_lt_or_eq.mp hi₂ with hlt | rfl
  · rw [getElem?_set_ne (mod_ne_of_lt hlt (by omega)).symm, h i hi₁ hlt,
      getElem?_append_left hlt]
  · rw [getElem?_set_self (Nat.mod_lt _ (by omega)), getElem?_append_right le_rfl,
      Nat.sub_self]
    rfl

theorem Circular.read (h : Circular slots history lo hi) (hhi : hi ≤ history.length) {n : Nat}
    (hn : lo + n ≤ hi) (d : α) :
    (List.range n).map (fun i => slots.getD ((lo + i) % slots.length) d) =
      (history.drop lo).take n := by
  refine ext_getElem? fun i => ?_
  rw [getElem?_map]
  rcases Nat.lt_or_ge i n with hlt | hge
  · rw [getElem?_range hlt, Option.map_some, getD_eq_getElem?_getD,
      h (lo + i) (Nat.le_add_right _ _) (by omega), getElem?_take_of_lt hlt, getElem?_drop,
      getElem?_eq_getElem (by omega), Option.getD_some]
  · rw [getElem?_eq_none (by rw [length_range]; exact hge), Option.map_none,
      getElem?_eq_none (by rw [length_take]; omega)]

end Windows

end MemDbg.Lib
