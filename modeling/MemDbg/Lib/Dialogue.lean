import Mathlib.Logic.Relation
import Mathlib.Tactic.Common

/-!
# A party that talks to a peer

A party sends items and receives elements, one thing after another, until it returns.
Its peer has sent some elements ahead and holds others back until the party has sent it
something; what it holds back it sends, or drops, depending on what it was sent.  The
connection may be lost at any time.

`Talk.Ensures` is the weakest precondition of a talk: it holds in every state the talk
goes through, the party never waits for an element that does not come, and where the
talk ends its postcondition holds.
-/

namespace MemDbg.Lib.Dialogue

open List

variable {α ω ρ : Type*}

inductive Talk (α ω ρ : Type*) where
  | done (result : ρ)
  | send (items : List ω) (next : Bool → Talk α ω ρ)
  | recv (n : Nat) (next : Option (List α) → Talk α ω ρ)
  | stuck

structure Line (α ω : Type*) where
  input : List α
  held : List α
  received : List ω
  lost : Bool

namespace Line

def deliver (accepts : List ω → Bool) (l : Line α ω) (items : List ω) : Line α ω where
  input := l.input ++ if accepts items then l.held else []
  held := []
  received := l.received ++ items
  lost := l.lost

def lose (l : Line α ω) : Line α ω := { l with lost := true }

def consume (l : Line α ω) (n : Nat) : Line α ω := { l with input := l.input.drop n }

variable {accepts : List ω → Bool} {l : Line α ω}

@[simp] theorem received_deliver (items : List ω) :
    (l.deliver accepts items).received = l.received ++ items := rfl

@[simp] theorem input_consume (n : Nat) : (l.consume n).input = l.input.drop n := rfl

theorem input_deliver_of_held (h : l.held = []) (items : List ω) :
    (l.deliver accepts items).input = l.input := by
  change l.input ++ (if accepts items then l.held else []) = l.input
  rw [h, ite_self, append_nil]

theorem input_deliver_of_refused {items : List ω} (h : accepts items = false) :
    (l.deliver accepts items).input = l.input := by
  change l.input ++ (if accepts items then l.held else []) = l.input
  rw [h, if_neg Bool.false_ne_true, append_nil]

theorem input_deliver_of_accepted {items : List ω} (h : accepts items = true) :
    (l.deliver accepts items).input = l.input ++ l.held := by
  change l.input ++ (if accepts items then l.held else []) = _
  rw [if_pos h]

theorem foldl_deliver_of_held (h : l.held = []) (writes : List (List ω)) :
    writes.foldl (deliver accepts) l = { l with received := l.received ++ writes.flatten } := by
  induction writes generalizing l with
  | nil =>
    rw [flatten_nil, append_nil]
    rfl
  | cons items writes ih =>
    have hfirst : l.deliver accepts items = { l with received := l.received ++ items } := by
      obtain ⟨input, held, received, lost⟩ := l
      obtain rfl : held = [] := h
      change Line.mk (input ++ if accepts items then [] else []) [] (received ++ items) lost = _
      rw [ite_self, append_nil]
    have hrest := @ih { l with received := l.received ++ items } h
    rw [foldl_cons, hfirst, hrest, flatten_cons, ← append_assoc]

theorem consume_consume (m n : Nat) : (l.consume m).consume n = l.consume (m + n) := by
  change { l with input := (l.input.drop m).drop n } = { l with input := l.input.drop (m + n) }
  rw [drop_drop]

end Line

/-! ## Steps -/

inductive Step (accepts : List ω → Bool) :
    Talk α ω ρ × Line α ω → Talk α ω ρ × Line α ω → Prop
  | sent {items : List ω} {next : Bool → Talk α ω ρ} {l : Line α ω} :
      Step accepts (.send items next, l) (next true, l.deliver accepts items)
  | cut {items received : List ω} {next : Bool → Talk α ω ρ} {l : Line α ω} :
      received <+: items →
      Step accepts (.send items next, l) (next false, (l.deliver accepts received).lose)
  | got {n : Nat} {next : Option (List α) → Talk α ω ρ} {l : Line α ω} :
      l.lost = false → n ≤ l.input.length →
      Step accepts (.recv n next, l) (next (some (l.input.take n)), l.consume n)
  | failed {n : Nat} {next : Option (List α) → Talk α ω ρ} {l : Line α ω} :
      Step accepts (.recv n next, l) (next none, l.lose)

theorem Step.got_append {accepts : List ω → Bool} {elements rest held : List α} {received : List ω}
    {n : Nat} (hn : elements.length = n) {next : Option (List α) → Talk α ω ρ} :
    Step accepts (.recv n next, ⟨elements ++ rest, held, received, false⟩)
      (next (some elements), ⟨rest, held, received, false⟩) := by
  have hgot : Step accepts (.recv n next, ⟨elements ++ rest, held, received, false⟩) _ :=
    .got rfl (by rw [length_append, hn]; exact Nat.le_add_right _ _)
  rw [take_left' hn, Line.consume, drop_left' hn] at hgot
  exact hgot

def Waits : Talk α ω ρ × Line α ω → Prop
  | (.recv n _, l) => l.lost = false ∧ l.input.length < n
  | (.stuck, _) => True
  | _ => False

/-! ## The weakest precondition -/

def Talk.Ensures (accepts : List ω → Bool) (inv : Line α ω → Prop) (post : ρ → Line α ω → Prop) :
    Talk α ω ρ → Line α ω → Prop
  | .done result, l => inv l ∧ post result l
  | .send items next, l => inv l ∧
      (next true).Ensures accepts inv post (l.deliver accepts items) ∧
      ∀ received, received <+: items →
        (next false).Ensures accepts inv post (l.deliver accepts received).lose
  | .recv n next, l => inv l ∧
      (l.lost = false → n ≤ l.input.length ∧
        (next (some (l.input.take n))).Ensures accepts inv post (l.consume n)) ∧
      (next none).Ensures accepts inv post l.lose
  | .stuck, _ => False

namespace Talk.Ensures

variable {accepts : List ω → Bool} {inv : Line α ω → Prop} {post : ρ → Line α ω → Prop}
  {t t' : Talk α ω ρ} {l l' : Line α ω}

theorem invariant (h : t.Ensures accepts inv post l) : inv l := by
  cases t with
  | done _ => exact h.1
  | send _ _ => exact h.1
  | recv _ _ => exact h.1
  | stuck => exact h.elim

theorem not_waits (h : t.Ensures accepts inv post l) : ¬ Waits (t, l) := by
  intro hwaits
  cases t with
  | done _ => exact hwaits
  | send _ _ => exact hwaits
  | recv n next => exact Nat.not_lt.mpr (h.2.1 hwaits.1).1 hwaits.2
  | stuck => exact h

theorem step (h : t.Ensures accepts inv post l) (hstep : Step accepts (t, l) (t', l')) :
    t'.Ensures accepts inv post l' := by
  cases hstep with
  | sent => exact h.2.1
  | cut hpre => exact h.2.2 _ hpre
  | got hlost hn => exact (h.2.1 hlost).2
  | failed => exact h.2.2

end Talk.Ensures

end MemDbg.Lib.Dialogue
