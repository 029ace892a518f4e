import Mathlib.Data.List.Nodup

/-!
# Linked queues

Nodes that are chained by a `next` pointer each.  A queue is appended to at its last node
and taken from at its first.
-/

namespace MemDbg.Lib

open List Function

variable {α : Type*}

def Linked (next : α → Option α) : Option α → List α → Prop
  | head, [] => head = none
  | head, a :: q => head = some a ∧ Linked next (next a) q

variable {next : α → Option α} {head : Option α} {q : List α} {a b : α}

theorem Linked.head_eq (h : Linked next head q) : head = q.head? := by
  cases q with
  | nil => exact h
  | cons a q => exact h.1

theorem Linked.eq_nil_iff (h : Linked next head q) : q = [] ↔ head = none := by
  rw [h.head_eq, head?_eq_none_iff]

theorem Linked.singleton (hnext : next a = none) : Linked next (some a) [a] := ⟨rfl, hnext⟩

variable [DecidableEq α]

theorem Linked.append (h : Linked next head q) (hnodup : q.Nodup) (hlast : q.getLast? = some b)
    (ha : a ∉ q) (hnext : next a = none) :
    Linked (update next b (some a)) head (q ++ [a]) := by
  induction q generalizing head with
  | nil => cases hlast
  | cons c q ih =>
    obtain ⟨rfl, hrest⟩ := h
    obtain ⟨hc, hnodup⟩ := nodup_cons.mp hnodup
    obtain ⟨hac, ha⟩ := not_or.mp (mt mem_cons.mpr ha)
    refine ⟨rfl, ?_⟩
    cases q with
    | nil =>
      obtain rfl : c = b := by simpa using hlast
      rw [update_self]
      refine ⟨rfl, ?_⟩
      rw [update_of_ne hac]
      exact hnext
    | cons d q =>
      rw [getLast?_cons_cons] at hlast
      have hcb : c ≠ b := fun heq => hc (heq ▸ mem_of_getLast? hlast)
      rw [update_of_ne hcb]
      exact ih hrest hnodup hlast ha

end MemDbg.Lib
