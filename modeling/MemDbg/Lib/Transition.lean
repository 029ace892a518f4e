import Mathlib.Algebra.GroupWithZero.Nat
import Mathlib.Tactic.Common

/-!
# Runs of a partial step function

A run is a list of labels, each of which is enabled and satisfies a guard in the
state it is taken from.  What every guarded step preserves, every run preserves.
-/

namespace MemDbg.Lib

open List

variable {σ α : Type*}

/-- `Run step guard s labels s'`: the labels lead from `s` to `s'`. -/
inductive Run (step : σ → α → Option σ) (guard : σ → α → Prop) : σ → List α → σ → Prop
  | nil (s : σ) : Run step guard s [] s
  | cons {s s' s'' : σ} {a : α} {labels : List α} : guard s a → step s a = some s' →
      Run step guard s' labels s'' → Run step guard s (a :: labels) s''

namespace Run

variable {step : σ → α → Option σ} {guard : σ → α → Prop} {s s' s₀ : σ} {labels : List α}

theorem of_foldlM (h : labels.foldlM step s = some s') :
    Run step (fun _ _ => True) s labels s' := by
  induction labels generalizing s with
  | nil =>
    cases h
    exact .nil _
  | cons a labels ih =>
    rw [foldlM_cons] at h
    obtain ⟨s₁, hstep, hrest⟩ := Option.bind_eq_some_iff.1 h
    exact .cons trivial hstep (ih hrest)

theorem of_isSome (h : (labels.foldlM step s).isSome = true) :
    Run step (fun _ _ => True) s labels ((labels.foldlM step s).getD s₀) := by
  obtain ⟨s', hs'⟩ := Option.isSome_iff_exists.1 h
  rw [hs']
  exact of_foldlM hs'

theorem invariant {P : σ → Prop}
    (hstep : ∀ s a s', P s → guard s a → step s a = some s' → P s')
    (h : Run step guard s labels s') (hs : P s) : P s' := by
  induction h with
  | nil _ => exact hs
  | cons ha hstep' _ ih => exact ih (hstep _ _ _ hs ha hstep')

theorem mono {guard' : σ → α → Prop} (h : Run step guard s labels s')
    (hguard : ∀ s a, guard s a → guard' s a) : Run step guard' s labels s' := by
  induction h with
  | nil _ => exact .nil _
  | cons ha hstep _ ih => exact .cons (hguard _ _ ha) hstep ih

theorem guarded {p : α → Prop} (h : Run step guard s labels s') (hp : ∀ a ∈ labels, p a) :
    Run step (fun _ a => p a) s labels s' := by
  induction h with
  | nil _ => exact .nil _
  | cons _ hstep _ ih =>
    obtain ⟨ha, hrest⟩ := forall_mem_cons.mp hp
    exact .cons ha hstep (ih hrest)

end Run

/-! ## Pools

A pool is a list of parties.  A step replaces one of them, and a sum over the pool
changes by what the sum says of that one. -/

theorem sum_map_set {pool : List α} {t : Nat} {a b : α} (h : pool[t]? = some a) (g : α → Nat) :
    ((pool.set t b).map g).sum + g a = (pool.map g).sum + g b := by
  induction pool generalizing t with
  | nil => cases h
  | cons c pool ih =>
    cases t with
    | zero =>
      obtain rfl := Option.some.inj h
      rw [set_cons_zero, map_cons, map_cons, sum_cons, sum_cons]
      omega
    | succ t =>
      have hrest := ih h
      rw [set_cons_succ, map_cons, map_cons, sum_cons, sum_cons]
      omega

/-! ## Folds that may fail -/

section Fold

variable {ε β : Type*} {f : β → α → Except ε β}

theorem foldlM_cons_ok {a : α} {l : List α} {b b' : β} (h : (a :: l).foldlM f b = .ok b') :
    ∃ c, f b a = .ok c ∧ l.foldlM f c = .ok b' := by
  rw [foldlM_cons] at h
  cases hstep : f b a with
  | error e =>
    rw [hstep] at h
    cases h
  | ok c =>
    rw [hstep] at h
    exact ⟨c, rfl, h⟩

theorem foldlM_invariant {P : List α → β → Prop}
    (hstep : ∀ pre a b b', P pre b → f b a = .ok b' → P (pre ++ [a]) b') {l : List α} {b b' : β}
    (h : l.foldlM f b = .ok b') (hb : P [] b) : P l b' := by
  have hpre : ∀ (l : List α) (pre : List α) (b : β), P pre b → l.foldlM f b = .ok b' →
      P (pre ++ l) b' := by
    intro l
    induction l with
    | nil =>
      rintro pre b hb ⟨⟩
      rwa [append_nil]
    | cons a l ih =>
      intro pre b hb h
      obtain ⟨c, hc, hl⟩ := foldlM_cons_ok h
      have hrest := ih (pre ++ [a]) c (hstep pre a b c hb hc) hl
      rwa [append_assoc] at hrest
  exact hpre l [] b hb h

end Fold

end MemDbg.Lib
