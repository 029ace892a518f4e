import MemDbg.Daemon.Command
import MemDbg.Lib.Transition
import Mathlib.Data.Set.Card

/-!
# The last client detaches

When a connection closes, its handler reads the number of connections, and if there is
no other it detaches the debugger; only then does it take itself out of that number.
A handler is between any two of these steps when others take theirs.
-/

namespace MemDbg.Daemon

open Lib Function

/-! ## Connections -/

inductive Stage where
  | counted
  | serving (cookie budget : Nat)
  | leaving
  | last
  | detaching
  | cleaning
deriving DecidableEq

def Stage.ahead : Stage → Bool
  | .serving _ _ | .leaving | .last | .detaching => true
  | _ => false

/-- The connections, `g_active_connections` and `g_dbg.attached`. -/
structure Attachment where
  conns : Nat → Option Stage
  active : Nat
  attached : Bool

inductive AttachmentLabel where
  | accept (c : Nat)
  | reject (c : Nat)
  | start (c : Nat)
  | request (c : Nat) (command : Command) (cookie : Nat) (attached : Bool)
  | leave (c : Nat)
  | check (c : Nat)
  | probe (c : Nat)
  | detach (c : Nat)
  | close (c : Nat)

namespace Attachment

def init : Attachment := ⟨fun _ => none, 0, false⟩

def goto (d : Attachment) (c : Nat) (st : Option Stage) : Attachment :=
  { d with conns := update d.conns c st }

def serve (d : Attachment) (c cookie budget : Nat) (command : Command) (cookie' : Nat)
    (attached : Bool) : Attachment :=
  match chargeBudget cookie budget command with
  | none => d.goto c (some .cleaning)
  | some budget =>
    { d.goto c (some (.serving (if command = .hello ∧ cookie = 0 then cookie' else cookie) budget))
      with attached := attached }

def drop (d : Attachment) (c : Nat) : Attachment :=
  { d.goto c none with active := (d.active + 2 ^ 32 - 1) % 2 ^ 32 }

def step (d : Attachment) : AttachmentLabel → Option Attachment
  | .accept c =>
    match d.conns c with
    | none => some { d.goto c (some .counted) with active := (d.active + 1) % 2 ^ 32 }
    | _ => none
  | .reject c =>
    match d.conns c with
    | some .counted => some (d.drop c)
    | _ => none
  | .start c =>
    match d.conns c with
    | some .counted => some (d.goto c (some (.serving 0 preAuthCmdBudget)))
    | _ => none
  | .request c command cookie' attached =>
    match d.conns c with
    | some (.serving cookie budget) => some (d.serve c cookie budget command cookie' attached)
    | _ => none
  | .leave c =>
    match d.conns c with
    | some (.serving _ _) => some (d.goto c (some .leaving))
    | _ => none
  | .check c =>
    match d.conns c with
    | some .leaving => some (d.goto c (some (if d.active ≤ 1 then .last else .cleaning)))
    | _ => none
  | .probe c =>
    match d.conns c with
    | some .last => some (d.goto c (some (if d.attached then .detaching else .cleaning)))
    | _ => none
  | .detach c =>
    match d.conns c with
    | some .detaching => some { d.goto c (some .cleaning) with attached := false }
    | _ => none
  | .close c =>
    match d.conns c with
    | some .cleaning => some (d.drop c)
    | _ => none

/-! ## The invariant -/

def present (d : Attachment) : Set Nat := {c | (d.conns c).isSome}

def OtherAhead (d : Attachment) (c : Nat) : Prop :=
  ∃ c' st, c' ≠ c ∧ d.conns c' = some st ∧ st.ahead = true

structure Inv (d : Attachment) : Prop where
  finite : d.present.Finite
  active : d.active = d.present.ncard % 2 ^ 32
  ahead : d.attached = true → ∃ c st, d.conns c = some st ∧ st.ahead = true

/-- While the debugger is attached, a connection that finds another one at its check, or
that skips the check, is not the last that has it ahead. -/
def Watched (d : Attachment) : AttachmentLabel → Prop
  | .check c => d.attached = true → (∃ c', c' ≠ c ∧ c' ∈ d.present) → d.OtherAhead c
  | .request c command _ _ => d.attached = true → ∀ cookie budget,
    d.conns c = some (.serving cookie budget) → chargeBudget cookie budget command = none →
      d.OtherAhead c
  | _ => True

variable {d : Attachment} {c : Nat} {st : Stage}

theorem present_goto_some (hc : c ∈ d.present) (st : Stage) :
    (d.goto c (some st)).present = d.present := by
  ext c'
  rcases eq_or_ne c' c with rfl | hne
  · simp [present, goto] at hc ⊢
    exact hc
  · simp [present, goto, hne]

theorem present_accept (hc : d.conns c = none) (st : Stage) :
    (d.goto c (some st)).present = insert c d.present ∧ c ∉ d.present := by
  refine ⟨?_, by simp [present, hc]⟩
  ext c'
  rcases eq_or_ne c' c with rfl | hne
  · simp [present, goto]
  · simp [present, goto, hne]

theorem present_drop (d : Attachment) (c : Nat) : (d.drop c).present = d.present \ {c} := by
  ext c'
  rcases eq_or_ne c' c with rfl | hne
  · simp [present, drop, goto]
  · simp [present, drop, goto, hne]

theorem mem_present (hc : d.conns c = some st) : c ∈ d.present := by simp [present, hc]

theorem OtherAhead.goto (h : d.OtherAhead c) (st : Option Stage) :
    ∃ c' st', (d.goto c st).conns c' = some st' ∧ st'.ahead = true := by
  obtain ⟨c', st', hne, hconn, hahead⟩ := h
  exact ⟨c', st', (update_of_ne hne ..).trans hconn, hahead⟩

theorem Inv.goto (h : d.Inv) {st : Stage} (hc : d.conns c = some st) (st' : Stage) {attached : Bool}
    (hahead : attached = true → st'.ahead = true ∨ d.OtherAhead c) :
    Inv { d.goto c (some st') with attached := attached } where
  finite := by
    have hpresent := present_goto_some (mem_present hc) st'
    change (d.goto c (some st')).present.Finite
    rw [hpresent]
    exact h.finite
  active := by
    have hpresent := present_goto_some (mem_present hc) st'
    change d.active = (d.goto c (some st')).present.ncard % 2 ^ 32
    rw [hpresent]
    exact h.active
  ahead hattached := by
    rcases hahead hattached with hst' | hother
    · exact ⟨c, st', update_self .., hst'⟩
    · exact hother.goto _

theorem Inv.drop (h : d.Inv) (hc : d.conns c = some st) (hst : st.ahead = false) :
    (d.drop c).Inv := by
  have hmem := mem_present hc
  constructor
  · rw [present_drop]
    exact h.finite.sdiff
  · have hpos : 0 < d.present.ncard := (Set.ncard_pos h.finite).2 ⟨c, hmem⟩
    rw [present_drop, Set.ncard_sdiff_singleton_of_mem hmem]
    dsimp only [Attachment.drop]
    rw [h.active]
    omega
  · intro hattached
    obtain ⟨c', st', hconn, hahead⟩ := h.ahead hattached
    have hne : c' ≠ c := by
      rintro rfl
      cases hc.symm.trans hconn
      rw [hst] at hahead
      cases hahead
    refine ⟨c', st', ?_, hahead⟩
    dsimp only [Attachment.drop, Attachment.goto]
    rw [update_of_ne hne, hconn]

theorem Inv.other_present (h : d.Inv) (hactive : ¬ d.active ≤ 1) (c : Nat) :
    ∃ c', c' ≠ c ∧ c' ∈ d.present := by
  have hlt : 1 < d.present.ncard := by
    have hactive' := h.active
    omega
  obtain ⟨c', hmem, hne⟩ := Set.exists_ne_of_one_lt_ncard hlt c
  exact ⟨c', hne, hmem⟩

theorem inv_step {d d' : Attachment} {l : AttachmentLabel} (h : d.Inv) (hwatched : d.Watched l)
    (hstep : d.step l = some d') : d'.Inv := by
  cases l with
  | accept c =>
    rw [step] at hstep
    split at hstep
    · rename_i hc
      cases hstep
      obtain ⟨hpresent, hnot⟩ := present_accept hc .counted
      have hsame : present { d.goto c (some .counted) with active := (d.active + 1) % 2 ^ 32 } =
          insert c d.present := hpresent
      constructor
      · rw [hsame]
        exact h.finite.insert c
      · rw [hsame, Set.ncard_insert_of_notMem hnot h.finite]
        dsimp only
        rw [h.active]
        omega
      · intro hattached
        obtain ⟨c', st, hconn, hahead⟩ := h.ahead hattached
        have hne : c' ≠ c := by
          rintro rfl
          rw [hc] at hconn
          cases hconn
        exact ⟨c', st, (update_of_ne hne ..).trans hconn, hahead⟩
    · cases hstep
  | reject c =>
    rw [step] at hstep
    split at hstep
    · rename_i hc
      cases hstep
      exact h.drop hc rfl
    · cases hstep
  | start c =>
    rw [step] at hstep
    split at hstep
    · rename_i hc
      cases hstep
      exact h.goto hc _ fun _ => .inl rfl
    · cases hstep
  | request c command cookie' attached =>
    rw [step] at hstep
    split at hstep
    · rename_i cookie budget hc
      cases hstep
      rw [serve]
      split
      · rename_i hcharge
        exact h.goto hc _ fun hattached => .inr (hwatched hattached cookie budget hc hcharge)
      · exact h.goto hc _ fun _ => .inl rfl
    · cases hstep
  | leave c =>
    rw [step] at hstep
    split at hstep
    · rename_i hc
      cases hstep
      exact h.goto hc _ fun _ => .inl rfl
    · cases hstep
  | check c =>
    rw [step] at hstep
    split at hstep
    · rename_i hc
      cases hstep
      split_ifs with hactive
      · exact h.goto hc _ fun _ => .inl rfl
      · exact h.goto hc _ fun hattached =>
          .inr (hwatched hattached (h.other_present hactive c))
    · cases hstep
  | probe c =>
    rw [step] at hstep
    split at hstep
    · rename_i hc
      cases hstep
      split_ifs with hattached
      · exact h.goto hc _ fun _ => .inl rfl
      · exact h.goto hc _ fun hattached' => absurd hattached' hattached
    · cases hstep
  | detach c =>
    rw [step] at hstep
    split at hstep
    · rename_i hc
      cases hstep
      exact h.goto hc _ fun hattached => (nomatch hattached)
    · cases hstep
  | close c =>
    rw [step] at hstep
    split at hstep
    · rename_i hc
      cases hstep
      exact h.drop hc rfl
    · cases hstep

theorem inv_init : init.Inv where
  finite := by simp [present, init]
  active := by simp [present, init]
  ahead hattached := by cases hattached

/-- In every run in which the last connection with its check ahead makes it alone, nobody
leaves the debugger attached. -/
theorem detached_of_watched_run {labels : List AttachmentLabel} {d : Attachment}
    (h : Run step Watched init labels d) (hnone : ∀ c, d.conns c = none) : d.attached = false := by
  have hinv : d.Inv := h.invariant (P := Inv) (fun _ _ _ hd hw hs => inv_step hd hw hs) inv_init
  by_contra hattached
  obtain ⟨c, st, hconn, -⟩ := hinv.ahead (by simpa using hattached)
  rw [hnone c] at hconn
  cases hconn

def after (labels : List AttachmentLabel) : Attachment := (labels.foldlM step init).getD init

def inTurn : List AttachmentLabel :=
  [.accept 0, .accept 1, .start 0, .start 1, .request 0 .debugAttach 0 true, .leave 0, .check 0,
    .request 1 .debugAttach 0 true, .close 0, .leave 1, .check 1, .probe 1, .detach 1, .close 1]

theorem detached_of_watched_run_inTurn : (after inTurn).attached = false := by
  have hrun : Run step Watched init inTurn (after inTurn) := by
    refine .cons trivial rfl (.cons trivial rfl (.cons trivial rfl (.cons trivial rfl
      (.cons ?_ rfl (.cons trivial rfl (.cons ?_ rfl (.cons ?_ rfl (.cons trivial rfl
        (.cons trivial rfl (.cons ?_ rfl (.cons trivial rfl (.cons trivial rfl
          (.cons trivial rfl (.nil _))))))))))))))
    · rintro ⟨⟩
    · exact fun _ _ => ⟨1, _, by decide, rfl, rfl⟩
    · rintro - cookie budget ⟨⟩ hbudget
      cases hbudget
    · rintro - ⟨c', hne, hmem⟩
      match c' with
      | 0 => cases hmem
      | 1 => exact absurd rfl hne
      | n + 2 => cases hmem
  refine detached_of_watched_run hrun fun c => ?_
  match c with
  | 0 => rfl
  | 1 => rfl
  | n + 2 => rfl

def twoLeave : List AttachmentLabel :=
  [.accept 0, .accept 1, .start 0, .start 1, .request 0 .debugAttach 0 true, .leave 0, .leave 1,
    .check 0, .check 1, .close 0, .close 1]

theorem twoLeave_attached : (twoLeave.foldlM step init).isSome = true ∧
    (∀ c, (after twoLeave).conns c = none) ∧ (after twoLeave).attached = true := by
  refine ⟨by decide, fun c => ?_, by decide⟩
  match c with
  | 0 => rfl
  | 1 => rfl
  | n + 2 => rfl

end Attachment

end MemDbg.Daemon
