import Mathlib.Data.List.Nodup

/-!
# Lists by groups

A list can be worked off group by group, by a key of its elements, and every group in runs of a
bounded length.  What is done to a row of a table stays with that row, whichever group and run it
comes in.
-/

namespace MemDbg.Lib

open List

variable {α β γ κ : Type*}

/-! ## Runs -/

def chunks (k : Nat) : Nat → List α → List (List α)
  | 0, _ => []
  | fuel + 1, xs => if xs.isEmpty then [] else xs.take k :: chunks k fuel (xs.drop k)

variable {k : Nat}

theorem flatten_chunks (hk : 0 < k) {fuel : Nat} {xs : List α} (h : xs.length ≤ fuel) :
    (chunks k fuel xs).flatten = xs := by
  induction fuel generalizing xs with
  | zero => exact (length_eq_zero_iff.mp (Nat.le_zero.mp h)).symm
  | succ fuel ih =>
    rw [chunks]
    cases xs with
    | nil => rfl
    | cons x xs =>
      have hlen : ((x :: xs).drop k).length ≤ fuel := by
        rw [length_drop]
        rw [length_cons] at h ⊢
        omega
      rw [isEmpty_cons, if_neg Bool.false_ne_true, flatten_cons, ih hlen,
        take_append_drop]

theorem mem_chunks_bounds (hk : 0 < k) {fuel : Nat} {xs run : List α}
    (h : run ∈ chunks k fuel xs) : run ≠ [] ∧ run.length ≤ k := by
  induction fuel generalizing xs with
  | zero => exact absurd h not_mem_nil
  | succ fuel ih =>
    rw [chunks] at h
    cases xs with
    | nil => exact absurd h not_mem_nil
    | cons x xs =>
      rw [isEmpty_cons, if_neg Bool.false_ne_true] at h
      rcases mem_cons.mp h with rfl | h
      · refine ⟨fun hnil => ?_, length_take_le _ _⟩
        rcases take_eq_nil_iff.mp hnil with rfl | hnil
        · exact absurd hk (Nat.lt_irrefl 0)
        · exact cons_ne_nil _ _ hnil
      · exact ih h

/-! ## Groups -/

theorem nodup_eraseDups [DecidableEq κ] (keys : List κ) : keys.eraseDups.Nodup := by
  induction hn : keys.length using Nat.strongRecOn generalizing keys with
  | ind n ih =>
    cases keys with
    | nil => exact nodup_nil
    | cons key keys =>
      rw [eraseDups_cons]
      refine nodup_cons.mpr ⟨fun hmem => ?_, ?_⟩
      · have h := (mem_filter.mp (mem_eraseDups.mp hmem)).2
        rw [beq_self_eq_true] at h
        exact absurd h (by decide)
      · refine ih _ ?_ _ rfl
        rw [← hn, length_cons]
        exact Nat.lt_succ_of_le (length_filter_le _ _)

def regroup [DecidableEq κ] (key : α → κ) (keys : List κ) (xs : List α) : List α :=
  keys.flatMap fun k => xs.filter fun x => key x = k

section

variable [DecidableEq κ] {key : α → κ} {keys : List κ} {xs : List α}

@[simp] theorem mem_regroup {x : α} : x ∈ regroup key keys xs ↔ x ∈ xs ∧ key x ∈ keys := by
  simp only [regroup, mem_flatMap, mem_filter, decide_eq_true_eq]
  constructor
  · rintro ⟨_, hk, hx, rfl⟩
    exact ⟨hx, hk⟩
  · rintro ⟨hx, hk⟩
    exact ⟨_, hk, hx, rfl⟩

theorem nodup_regroup (hkeys : keys.Nodup) (hxs : xs.Nodup) : (regroup key keys xs).Nodup := by
  rw [regroup, nodup_flatMap]
  refine ⟨fun _ _ => hxs.filter _, hkeys.imp fun {k k'} hne => ?_⟩
  rintro x hx hx'
  simp only [mem_filter, decide_eq_true_eq] at hx hx'
  exact hne (hx.2.symm.trans hx'.2)

theorem filter_regroup (hkeys : keys.Nodup) {k : κ} (hk : k ∈ keys) :
    (regroup key keys xs).filter (fun x => key x = k) = xs.filter fun x => key x = k := by
  induction keys with
  | nil => exact absurd hk not_mem_nil
  | cons k' keys ih =>
    obtain ⟨hnot, hkeys⟩ := nodup_cons.mp hkeys
    rw [regroup, flatMap_cons, filter_append]
    change _ ++ (regroup key keys xs).filter _ = _
    rcases mem_cons.mp hk with rfl | hk
    · have hrest : (regroup key keys xs).filter (fun x => key x = k) = [] := by
        refine filter_eq_nil_iff.mpr fun x hx heq => ?_
        rw [decide_eq_true_eq] at heq
        exact hnot (heq ▸ (mem_regroup.mp hx).2)
      rw [hrest, append_nil, filter_filter]
      exact filter_congr fun x _ => Bool.and_self _
    · have hfirst : (xs.filter fun x => key x = k').filter (fun x => key x = k) = [] := by
        refine filter_eq_nil_iff.mpr fun x hx heq => ?_
        simp only [mem_filter, decide_eq_true_eq] at hx heq
        exact hnot ((hx.2.symm.trans heq) ▸ hk)
      rw [hfirst, nil_append, ih hkeys hk]

end

theorem getElem?_filter_countP {p : α → Bool} {xs : List α} {i : Nat} {x : α}
    (h : xs[i]? = some x) (hx : p x = true) : (xs.filter p)[(xs.take i).countP p]? = some x := by
  induction xs generalizing i with
  | nil => exact nomatch h
  | cons y xs ih =>
    cases i with
    | zero =>
      rw [getElem?_cons_zero, Option.some.injEq] at h
      subst h
      rw [take_zero, countP_nil, filter_cons_of_pos hx, getElem?_cons_zero]
    | succ i =>
      rw [getElem?_cons_succ] at h
      rw [take_succ_cons, countP_cons]
      by_cases hy : p y = true
      · rw [if_pos hy, filter_cons_of_pos hy, getElem?_cons_succ]
        exact ih h
      · rw [if_neg hy, filter_cons_of_neg hy, Nat.add_zero]
        exact ih h

/-! ## Tables -/

def modifyRows (f : β → α → α) (xs : List α) (marks : List (Nat × β)) : List α :=
  marks.foldl (fun xs m => xs.modify m.1 (f m.2)) xs

variable {f : β → α → α}

theorem modifyRows_append (xs : List α) (marks marks' : List (Nat × β)) :
    modifyRows f xs (marks ++ marks') = modifyRows f (modifyRows f xs marks) marks' :=
  foldl_append

theorem modifyRows_congr {g : β → α → α} {key : γ → Nat} {val val' : γ → β} {ms : List γ}
    (h : ∀ m ∈ ms, f (val m) = g (val' m)) (xs : List α) :
    modifyRows f xs (ms.map fun m => (key m, val m)) =
      modifyRows g xs (ms.map fun m => (key m, val' m)) := by
  induction ms generalizing xs with
  | nil => rfl
  | cons m ms ih =>
    have hm : f (val m) = g (val' m) := h m mem_cons_self
    change modifyRows f (xs.modify (key m) (f (val m))) _ = modifyRows g (xs.modify (key m) _) _
    rw [hm]
    exact ih (fun m' hm' => h m' (mem_cons_of_mem _ hm')) _

theorem modifyRows_of_fixed {marks : List (Nat × β)} (h : ∀ m ∈ marks, f m.2 = id) (xs : List α) :
    modifyRows f xs marks = xs := by
  induction marks generalizing xs with
  | nil => rfl
  | cons m marks ih =>
    change modifyRows f (xs.modify m.1 (f m.2)) marks = xs
    rw [h m mem_cons_self, modify_id]
    exact ih (fun m' hm' => h m' (mem_cons_of_mem _ hm')) _

theorem getElem?_modifyRows_of_notMem {marks : List (Nat × β)} {i : Nat}
    (h : i ∉ marks.map Prod.fst) (xs : List α) : (modifyRows f xs marks)[i]? = xs[i]? := by
  induction marks generalizing xs with
  | nil => rfl
  | cons m marks ih =>
    rw [map_cons, mem_cons, not_or] at h
    exact (ih h.2 _).trans (getElem?_modify_ne _ _ (Ne.symm h.1))

theorem getElem?_modifyRows_of_mem {marks : List (Nat × β)} (hnodup : (marks.map Prod.fst).Nodup)
    {i : Nat} {b : β} (h : (i, b) ∈ marks) (xs : List α) :
    (modifyRows f xs marks)[i]? = xs[i]?.map (f b) := by
  induction marks generalizing xs with
  | nil => exact absurd h not_mem_nil
  | cons m marks ih =>
    obtain ⟨hnot, hnodup⟩ := nodup_cons.mp hnodup
    rcases mem_cons.mp h with rfl | h
    · exact (getElem?_modifyRows_of_notMem hnot _).trans (getElem?_modify_eq _ _ _)
    · have hne : m.1 ≠ i := fun heq => hnot (heq ▸ mem_map_of_mem h)
      refine (ih hnodup h _).trans ?_
      rw [getElem?_modify_ne _ _ hne]

end MemDbg.Lib
