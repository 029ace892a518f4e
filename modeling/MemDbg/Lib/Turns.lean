import Mathlib.Data.List.Nodup
import Mathlib.Logic.Function.Iterate

/-!
# Threads that take turns

Threads that share nothing have one state each and a step that is undefined once a
thread has ended.  A schedule says whose turn it is.  Whatever the schedule, a
thread that has ended has ended in the same state.
-/

namespace MemDbg.Lib

open List Function

variable {σ : Type*} (step : σ → Option σ)

def advance (s : σ) : σ := (step s).getD s

def Ends (s s' : σ) : Prop := step s' = none ∧ ∃ k, (advance step)^[k] s = s'

def turns (pool : List σ) (schedule : List Nat) : List σ :=
  schedule.foldl (fun pool i => pool.modify i (advance step)) pool

def Settled (pool : List σ) : Prop := ∀ s ∈ pool, step s = none

variable {step} {s s' s'' : σ} {pool final : List σ}

theorem advance_of_none (h : step s = none) : advance step s = s := by
  rw [advance, h]
  rfl

theorem advance_of_some (h : step s = some s') : advance step s = s' := by
  rw [advance, h]
  rfl

theorem iterate_advance_of_none (h : step s = none) (k : Nat) : (advance step)^[k] s = s :=
  iterate_fixed (advance_of_none h) k

theorem Ends.unique (h : Ends step s s') (h' : Ends step s s'') : s' = s'' := by
  obtain ⟨hdone, k, rfl⟩ := h
  obtain ⟨hdone', k', rfl⟩ := h'
  rcases Nat.le_total k k' with hle | hle
  · rw [← Nat.sub_add_cancel hle, iterate_add_apply, iterate_advance_of_none hdone]
  · rw [← Nat.sub_add_cancel hle, iterate_add_apply, iterate_advance_of_none hdone']

theorem ends_of_none (h : step s = none) : Ends step s s := ⟨h, 0, rfl⟩

theorem Ends.of_step (hstep : step s = some s') (h : Ends step s' s'') : Ends step s s'' := by
  obtain ⟨hdone, k, hk⟩ := h
  refine ⟨hdone, k + 1, ?_⟩
  rw [iterate_succ_apply, advance_of_some hstep, hk]

theorem getElem?_turns (schedule : List Nat) (i : Nat) :
    (turns step pool schedule)[i]? = pool[i]?.map (advance step)^[schedule.count i] := by
  induction schedule generalizing pool with
  | nil => simp [turns]
  | cons j schedule ih =>
    have hturn : (pool.modify j (advance step))[i]? =
        pool[i]?.map fun s => if j = i then advance step s else s := getElem?_modify ..
    rw [turns, foldl_cons, ← turns, ih, hturn, Option.map_map]
    congr 1
    funext s
    by_cases hj : j = i
    · subst hj
      rw [comp_apply, if_pos rfl, count_cons_self, iterate_succ_apply]
    · rw [comp_apply, if_neg hj, count_cons_of_ne hj]

@[simp] theorem length_turns (pool : List σ) (schedule : List Nat) :
    (turns step pool schedule).length = pool.length := by
  induction schedule generalizing pool with
  | nil => rfl
  | cons j schedule ih =>
    rw [turns, foldl_cons, ← turns, ih, length_modify]

theorem getElem_turns (schedule : List Nat) {i : Nat}
    (hi : i < (turns step pool schedule).length) (hpool : i < pool.length) :
    (turns step pool schedule)[i] = (advance step)^[schedule.count i] pool[i] := by
  have hget := @getElem?_turns σ step pool schedule i
  rwa [getElem?_eq_getElem hi, getElem?_eq_getElem hpool, Option.map_some,
    Option.some_inj] at hget

theorem turns_eq_of_settled (h : List.Forall₂ (Ends step) pool final) {schedule : List Nat}
    (hsettled : Settled step (turns step pool schedule)) : turns step pool schedule = final := by
  refine ext_getElem ((length_turns pool schedule).trans h.length_eq) fun i hi hi' => ?_
  have hpool : i < pool.length := by rwa [length_turns] at hi
  refine Ends.unique ⟨hsettled _ (getElem_mem hi), schedule.count i, ?_⟩
    (h.get hpool hi')
  exact (getElem_turns schedule hi hpool).symm

theorem exists_settled (h : List.Forall₂ (Ends step) pool final) :
    ∃ schedule, Settled step (turns step pool schedule) := by
  have hbound : ∃ k, ∀ s ∈ pool, step ((advance step)^[k] s) = none := by
    induction h with
    | nil => exact ⟨0, fun s hs => absurd hs not_mem_nil⟩
    | @cons s s' pool final hs _ ih =>
      obtain ⟨k, hk⟩ := ih
      obtain ⟨hdone, k', rfl⟩ := hs
      have hmore {t : σ} {m : Nat} (ht : step ((advance step)^[m] t) = none) (extra : Nat) :
          step ((advance step)^[extra + m] t) = none := by
        rw [iterate_add_apply, iterate_advance_of_none ht, ht]
      refine ⟨k + k', fun t ht => ?_⟩
      rcases mem_cons.mp ht with rfl | ht
      · exact hmore hdone k
      · rw [Nat.add_comm]
        exact hmore (hk t ht) k'
  obtain ⟨k, hk⟩ := hbound
  -- everybody has the same number of turns
  refine ⟨(List.replicate k (List.range pool.length)).flatten, fun t ht => ?_⟩
  obtain ⟨i, hi, rfl⟩ := getElem_of_mem ht
  have hpool : i < pool.length := by rwa [length_turns] at hi
  have hcount : (List.replicate k (List.range pool.length)).flatten.count i = k := by
    rw [count_flatten, map_replicate,
      count_eq_one_of_mem nodup_range (mem_range.mpr hpool), sum_replicate_nat,
      Nat.mul_one]
  rw [getElem_turns _ hi hpool, hcount]
  exact hk _ (getElem_mem hpool)

end MemDbg.Lib
