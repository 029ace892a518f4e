import Mathlib.Tactic.Common

/-!
# A table of descriptors

Opening a file takes the lowest free number of a table, and closing gives the number
back.  What was opened under a number is told apart by an instance that is never used
again; owners hold the instances they have opened, and close what they mean to close.
-/

namespace MemDbg.Lib

open Function

variable {File Owner : Type*}

structure FdTable (File : Type*) where
  slots : Nat → Option (Nat × File)
  opened : Nat
  closes : Nat → Nat

namespace FdTable

def empty : FdTable File := ⟨fun _ => none, 0, fun _ => 0⟩

def Lowest (t : FdTable File) (k : Nat) : Prop :=
  (t.slots k).isNone = true ∧ ∀ j < k, (t.slots j).isSome = true

instance (t : FdTable File) (k : Nat) : Decidable (t.Lowest k) :=
  inferInstanceAs (Decidable (_ ∧ _))

def openAs (t : FdTable File) (k : Nat) (f : File) : FdTable File :=
  { t with slots := update t.slots k (some (t.opened, f)), opened := t.opened + 1 }

def close (t : FdTable File) (k e : Nat) : FdTable File :=
  { t with slots := update t.slots k none, closes := update t.closes e (t.closes e + 1) }

structure Owned (t : FdTable File) (own : Owner → Option (Nat × Nat × File)) : Prop where
  fresh : ∀ k e f, t.slots k = some (e, f) → e < t.opened ∧ t.closes e = 0
  unused : ∀ e, t.opened ≤ e → t.closes e = 0
  once : ∀ e, t.closes e ≤ 1
  distinct : ∀ k k' e f f', t.slots k = some (e, f) → t.slots k' = some (e, f') → k = k'
  held : ∀ o k e f, own o = some (k, e, f) → t.slots k = some (e, f)
  apart : ∀ o o' k e e' f f', own o = some (k, e, f) → own o' = some (k, e', f') → o = o'

variable {t : FdTable File} {own : Owner → Option (Nat × Nat × File)} {o : Owner} {k e : Nat}
  {f : File}

theorem owned_empty : (empty : FdTable File).Owned fun _ : Owner => none where
  fresh := nofun
  unused _ _ := rfl
  once _ := Nat.zero_le 1
  distinct := nofun
  held := nofun
  apart := nofun

theorem Lowest.slots (h : t.Lowest k) : t.slots k = none := Option.isNone_iff_eq_none.1 h.1

theorem slots_openAs (t : FdTable File) (k : Nat) (f : File) (j : Nat) :
    (t.openAs k f).slots j = if j = k then some (t.opened, f) else t.slots j :=
  update_apply ..

theorem slots_close (t : FdTable File) (k e j : Nat) :
    (t.close k e).slots j = if j = k then none else t.slots j :=
  update_apply ..

theorem Owned.openFree (h : t.Owned own) (hk : t.slots k = none) (f : File) :
    (t.openAs k f).Owned own where
  fresh j e f' hj := by
    rw [slots_openAs] at hj
    split_ifs at hj
    · cases hj
      exact ⟨Nat.lt_succ_self _, h.unused _ (Nat.le_refl _)⟩
    · obtain ⟨hlt, hzero⟩ := h.fresh j e f' hj
      exact ⟨Nat.lt_succ_of_lt hlt, hzero⟩
  unused e he := h.unused e (Nat.le_of_succ_le he)
  once := h.once
  distinct j j' e f₁ f₂ hj hj' := by
    rw [slots_openAs] at hj hj'
    split_ifs at hj hj' with heq heq' heq'
    · rw [heq, heq']
    · cases hj
      exact absurd (h.fresh j' _ f₂ hj').1 (Nat.lt_irrefl _)
    · cases hj'
      exact absurd (h.fresh j _ f₁ hj).1 (Nat.lt_irrefl _)
    · exact h.distinct j j' e f₁ f₂ hj hj'
  held o j e f' ho := by
    have hj := h.held o j e f' ho
    rw [slots_openAs, if_neg]
    · exact hj
    · rintro rfl
      rw [hk] at hj
      cases hj
  apart := h.apart

theorem Owned.drop [DecidableEq Owner] (h : t.Owned own) (o : Owner) :
    t.Owned (update own o none) where
  fresh := h.fresh
  unused := h.unused
  once := h.once
  distinct := h.distinct
  held o' k e f ho' := by
    rw [update_apply] at ho'
    split_ifs at ho'
    exact h.held o' k e f ho'
  apart o₁ o₂ k e e' f f' h₁ h₂ := by
    rw [update_apply] at h₁ h₂
    split_ifs at h₁ h₂
    exact h.apart o₁ o₂ k e e' f f' h₁ h₂

theorem Owned.openAs [DecidableEq Owner] (h : t.Owned own) (hk : t.slots k = none) (o : Owner)
    (f : File) : (t.openAs k f).Owned (update own o (some (k, t.opened, f))) := by
  have hopen := h.openFree hk f
  refine ⟨hopen.fresh, hopen.unused, hopen.once, hopen.distinct, ?_, ?_⟩
  · intro o' j e f' ho'
    rw [update_apply] at ho'
    split_ifs at ho'
    · cases ho'
      rw [slots_openAs, if_pos rfl]
    · exact hopen.held o' j e f' ho'
  · intro o₁ o₂ j e e' f₁ f₂ h₁ h₂
    have hnot (o' : Owner) (e : Nat) (f' : File) : own o' ≠ some (k, e, f') := by
      intro ho'
      rw [h.held o' k e f' ho'] at hk
      cases hk
    rw [update_apply] at h₁ h₂
    split_ifs at h₁ h₂ with heq heq' heq'
    · rw [heq, heq']
    · cases h₁
      exact absurd h₂ (hnot o₂ e' f₂)
    · cases h₂
      exact absurd h₁ (hnot o₁ e f₁)
    · exact h.apart o₁ o₂ j e e' f₁ f₂ h₁ h₂

theorem Owned.closeFree (h : t.Owned own) (hk : t.slots k = some (e, f))
    (hnot : ∀ o e f, own o ≠ some (k, e, f)) : (t.close k e).Owned own where
  fresh j e' f' hj := by
    rw [slots_close] at hj
    split_ifs at hj with heq
    obtain ⟨hlt, hzero⟩ := h.fresh j e' f' hj
    refine ⟨hlt, ?_⟩
    dsimp only [close]
    rw [update_of_ne]
    · exact hzero
    · rintro rfl
      exact heq (h.distinct j k _ f' f hj hk)
  unused e' he' := by
    dsimp only [close] at he' ⊢
    rw [update_of_ne]
    · exact h.unused e' he'
    · rintro rfl
      exact absurd (h.fresh k e' f hk).1 (Nat.not_lt.2 he')
  once e' := by
    dsimp only [close]
    rw [update_apply]
    split_ifs
    · exact Nat.le_of_eq (congrArg (· + 1) (h.fresh k e f hk).2)
    · exact h.once e'
  distinct j j' e' f₁ f₂ hj hj' := by
    rw [slots_close] at hj hj'
    split_ifs at hj hj'
    exact h.distinct j j' e' f₁ f₂ hj hj'
  held o j e' f' ho := by
    rw [slots_close, if_neg]
    · exact h.held o j e' f' ho
    · rintro rfl
      exact hnot o e' f' ho
  apart := h.apart

theorem Owned.close [DecidableEq Owner] (h : t.Owned own) (ho : own o = some (k, e, f)) :
    (t.close k e).Owned (update own o none) := by
  refine (h.drop o).closeFree (h.held o k e f ho) fun o' e' f' ho' => ?_
  rw [update_apply] at ho'
  split_ifs at ho' with heq
  exact heq (h.apart o' o k e' e f' f ho' ho)

end FdTable

end MemDbg.Lib
