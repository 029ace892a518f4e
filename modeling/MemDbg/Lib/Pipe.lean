import Mathlib.Order.Nat
import Mathlib.Tactic.Common

/-!
# A writer into a bounded pipe

A party with a script of writes and reads on one end of a pair of FIFOs of a fixed
capacity, while nobody uses the other end.  A write waits while the FIFO is full; a
read waits for ever.  The result is `never_waits_iff`: the party never waits exactly
when it does not read and everything it writes fits at once.
-/

namespace MemDbg.Lib.Pipe

open List

variable {α : Type*} {C : Nat}

inductive Action (α : Type*) where
  | write (items : List α)
  | read
deriving DecidableEq

def written : List (Action α) → List α
  | [] => []
  | .write items :: script => items ++ written script
  | .read :: script => written script

structure State (α : Type*) where
  fifo : List α
  script : List (Action α)

inductive Step (C : Nat) : State α → State α → Prop
  | put {fifo items : List α} {x : α} {script : List (Action α)} : fifo.length < C →
      Step C ⟨fifo, .write (x :: items) :: script⟩ ⟨fifo ++ [x], .write items :: script⟩
  | next {fifo : List α} {script : List (Action α)} :
      Step C ⟨fifo, .write [] :: script⟩ ⟨fifo, script⟩

abbrev Reaches (C : Nat) : State α → State α → Prop := Relation.ReflTransGen (Step C)

def Waits (C : Nat) (s : State α) : Prop := s.script ≠ [] ∧ ∀ s', ¬ Step C s s'

structure Fits (C : Nat) (s : State α) : Prop where
  read : Action.read ∉ s.script
  length : s.fifo.length + (written s.script).length ≤ C

instance [DecidableEq α] (s : State α) : Decidable (Fits C s) :=
  decidable_of_iff (Action.read ∉ s.script ∧ s.fifo.length + (written s.script).length ≤ C)
    ⟨fun h => ⟨h.1, h.2⟩, fun h => ⟨h.read, h.length⟩⟩

theorem Step.written {s s' : State α} (h : Step C s s') :
    s'.fifo ++ written s'.script = s.fifo ++ Pipe.written s.script := by
  cases h with
  | put _ => exact (append_assoc _ _ _)
  | next => rfl

theorem Step.fits {s s' : State α} (h : Step C s s') (hfits : Fits C s) : Fits C s' := by
  have hlength := congrArg List.length h.written
  rw [length_append, length_append] at hlength
  refine ⟨?_, hlength.trans_le hfits.length⟩
  cases h with
  | put _ => exact fun hmem => hfits.read (by simpa using hmem)
  | next => exact fun hmem => hfits.read (mem_cons_of_mem _ hmem)

theorem Reaches.written {s s' : State α} (h : Reaches C s s') :
    s'.fifo ++ Pipe.written s'.script = s.fifo ++ Pipe.written s.script := by
  induction h with
  | refl => rfl
  | tail _ hstep ih => exact hstep.written.trans ih

theorem Reaches.fits {s s' : State α} (h : Reaches C s s') (hfits : Fits C s) : Fits C s' := by
  induction h with
  | refl => exact hfits
  | tail _ hstep ih => exact hstep.fits ih

theorem Fits.not_waits {s : State α} (h : Fits C s) : ¬ Waits C s := by
  obtain ⟨fifo, script⟩ := s
  rintro ⟨hscript, hstuck⟩
  cases script with
  | nil => exact hscript rfl
  | cons action script =>
    cases action with
    | read => exact h.read (mem_cons_self ..)
    | write items =>
      cases items with
      | nil => exact hstuck _ .next
      | cons x items =>
        exact hstuck _ (.put ((Nat.lt_add_of_pos_right (Nat.succ_pos _)).trans_le h.length))

theorem reaches_write (items : List α) {fifo : List α} {script : List (Action α)}
    (h : fifo.length + items.length ≤ C) :
    Reaches C ⟨fifo, .write items :: script⟩ ⟨fifo ++ items, script⟩ := by
  induction items generalizing fifo with
  | nil =>
    rw [append_nil]
    exact .single .next
  | cons x items ih =>
    rw [length_cons] at h
    have hput : Step C ⟨fifo, .write (x :: items) :: script⟩
        ⟨fifo ++ [x], .write items :: script⟩ := .put (by omega)
    rw [append_cons]
    exact (ih (by rw [length_append, length_singleton]; omega)).head hput

theorem waits_write (items : List α) {fifo : List α} {script : List (Action α)}
    (hfifo : fifo.length ≤ C) (h : C < fifo.length + items.length) :
    ∃ s, Reaches C ⟨fifo, .write items :: script⟩ s ∧ Waits C s := by
  induction items generalizing fifo with
  | nil => exact absurd h hfifo.not_gt
  | cons x items ih =>
    rcases hfifo.lt_or_eq with hlt | heq
    · have hmore : (fifo ++ [x]).length ≤ C := by
        rw [length_append, length_singleton]
        exact hlt
      obtain ⟨s, hreach, hwaits⟩ := ih hmore (by
        rw [length_append, length_singleton]
        rw [length_cons] at h
        omega)
      exact ⟨s, hreach.head (.put hlt), hwaits⟩
    · refine ⟨_, .refl, nofun, fun s' hstep => ?_⟩
      cases hstep with
      | put hroom => exact hroom.ne heq

theorem Fits.reaches {fifo : List α} {script : List (Action α)} (h : Fits C ⟨fifo, script⟩) :
    Reaches C ⟨fifo, script⟩ ⟨fifo ++ Pipe.written script, []⟩ := by
  induction script generalizing fifo with
  | nil =>
    rw [Pipe.written, append_nil]
  | cons action script ih =>
    cases action with
    | read => exact absurd (mem_cons_self ..) h.read
    | write items =>
      have hlength : fifo.length + (items ++ Pipe.written script).length ≤ C := h.length
      rw [length_append] at hlength
      have hrest : Fits C ⟨fifo ++ items, script⟩ :=
        ⟨fun hmem => h.read (mem_cons_of_mem _ hmem),
          by dsimp only; rw [length_append]; omega⟩
      rw [Pipe.written, ← append_assoc]
      exact (reaches_write items (by omega)).trans (ih hrest)

theorem waits_of_not_fits {fifo : List α} {script : List (Action α)} (hfifo : fifo.length ≤ C)
    (h : ¬ Fits C ⟨fifo, script⟩) : ∃ s, Reaches C ⟨fifo, script⟩ s ∧ Waits C s := by
  induction script generalizing fifo with
  | nil => exact absurd ⟨not_mem_nil, hfifo⟩ h
  | cons action script ih =>
    cases action with
    | read => exact ⟨_, .refl, nofun, nofun⟩
    | write items =>
      rcases Nat.lt_or_ge C (fifo.length + items.length) with hover | hroom
      · exact waits_write items hfifo hover
      · have hrest : ¬ Fits C ⟨fifo ++ items, script⟩ := fun hfits => h
          ⟨fun hmem => hfits.read (by simpa using hmem), by
            have hlength := hfits.length
            dsimp only at hlength ⊢
            rw [length_append] at hlength
            rw [Pipe.written, length_append]
            omega⟩
        obtain ⟨s, hreach, hwaits⟩ := ih (by rwa [length_append]) hrest
        exact ⟨s, (reaches_write items hroom).trans hreach, hwaits⟩

theorem never_waits_iff {script : List (Action α)} :
    (∀ s, Reaches C ⟨[], script⟩ s → ¬ Waits C s) ↔ Fits C ⟨[], script⟩ := by
  constructor
  · intro h
    by_contra hfits
    obtain ⟨s, hreach, hwaits⟩ := waits_of_not_fits (Nat.zero_le C) hfits
    exact h s hreach hwaits
  · intro h s hreach
    exact (hreach.fits h).not_waits

theorem Reaches.fifo_of_done {script : List (Action α)} {fifo : List α}
    (h : Reaches C ⟨[], script⟩ ⟨fifo, []⟩) : fifo = Pipe.written script := by
  have hwritten := h.written
  rwa [Pipe.written, append_nil, nil_append] at hwritten

end MemDbg.Lib.Pipe
