import Mathlib.Order.Nat
import Mathlib.Data.List.Induction

/-!
# Coalescing tagged ranges

Ranges that come in ascending order are merged while they touch and have the same tag.
The last run is held back, since the next range may extend it.
-/

namespace MemDbg.Lib

open List

structure Tagged (α : Type*) where
  lo : Nat
  hi : Nat
  tag : α
deriving DecidableEq

variable {α : Type*}

def Covers (rs : List (Tagged α)) (x : Nat) (tag : α) : Prop :=
  ∃ r ∈ rs, r.lo ≤ x ∧ x < r.hi ∧ r.tag = tag

structure Ascending (rs : List (Tagged α)) : Prop where
  nonempty : ∀ r ∈ rs, r.lo < r.hi
  apart : rs.Pairwise fun r s => r.hi ≤ s.lo

structure Canonical (rs : List (Tagged α)) : Prop extends Ascending rs where
  maximal : rs.Pairwise fun r s => r.hi = s.lo → r.tag ≠ s.tag

@[simp] theorem covers_nil (x : Nat) (tag : α) : ¬Covers ([] : List (Tagged α)) x tag :=
  fun ⟨_, h, _⟩ => nomatch h

theorem covers_append {rs rs' : List (Tagged α)} {x : Nat} {tag : α} :
    Covers (rs ++ rs') x tag ↔ Covers rs x tag ∨ Covers rs' x tag := by
  constructor
  · rintro ⟨r, hr, hx⟩
    exact (mem_append.mp hr).imp (fun hr => ⟨r, hr, hx⟩) fun hr => ⟨r, hr, hx⟩
  · rintro (⟨r, hr, hx⟩ | ⟨r, hr, hx⟩)
    · exact ⟨r, mem_append_left _ hr, hx⟩
    · exact ⟨r, mem_append_right _ hr, hx⟩

theorem covers_singleton {r : Tagged α} {x : Nat} {tag : α} :
    Covers [r] x tag ↔ r.lo ≤ x ∧ x < r.hi ∧ r.tag = tag := by
  simp [Covers]

theorem covers_flatMap {β : Type*} {l : List β} {f : β → List (Tagged α)} {x : Nat} {tag : α} :
    Covers (l.flatMap f) x tag ↔ ∃ b ∈ l, Covers (f b) x tag := by
  constructor
  · rintro ⟨r, hr, hx⟩
    obtain ⟨b, hb, hr⟩ := mem_flatMap.mp hr
    exact ⟨b, hb, r, hr, hx⟩
  · rintro ⟨b, hb, r, hr, hx⟩
    exact ⟨r, mem_flatMap.mpr ⟨b, hb, hr⟩, hx⟩

theorem ascending_nil : Ascending ([] : List (Tagged α)) := ⟨fun _ h => absurd h not_mem_nil, .nil⟩

theorem ascending_singleton {r : Tagged α} (h : r.lo < r.hi) : Ascending [r] :=
  ⟨by simpa using h, pairwise_singleton _ _⟩

theorem ascending_flatMap {l : List Nat} {f : Nat → List (Tagged α)} (bound : Nat → Nat)
    (hl : l.Pairwise (· < ·)) (hf : ∀ i ∈ l, Ascending (f i))
    (hin : ∀ i ∈ l, ∀ r ∈ f i, bound i ≤ r.lo ∧ r.hi ≤ bound (i + 1))
    (hmono : ∀ i j, i < j → bound (i + 1) ≤ bound j) : Ascending (l.flatMap f) := by
  refine ⟨fun r hr => ?_, pairwise_flatMap.mpr ⟨fun i hi => (hf i hi).apart, ?_⟩⟩
  · obtain ⟨i, hi, hr⟩ := mem_flatMap.mp hr
    exact (hf i hi).nonempty r hr
  · refine hl.imp_of_mem fun {i j} hi hj hij r hr s hs => ?_
    exact ((hin i hi r hr).2.trans (hmono i j hij)).trans (hin j hj s hs).1

/-! ## The coalescer -/

structure Coal (α : Type*) where
  done : List (Tagged α)
  cur : Option (Tagged α)
deriving DecidableEq

def Coal.flush (c : Coal α) : List (Tagged α) := c.done ++ c.cur.toList

variable [DecidableEq α]

def Coal.emit (c : Coal α) (r : Tagged α) : Coal α :=
  match c.cur with
  | none => ⟨c.done, some r⟩
  | some cur =>
    if r.lo = cur.hi ∧ r.tag = cur.tag then ⟨c.done, some { cur with hi := r.hi }⟩
    else ⟨c.done ++ [cur], some r⟩

def runsOf (rs : List (Tagged α)) : List (Tagged α) := (rs.foldl Coal.emit ⟨[], none⟩).flush

theorem Coal.length_done_emit (c : Coal α) (r : Tagged α) :
    c.done.length ≤ (c.emit r).done.length := by
  rw [Coal.emit]
  split
  · exact le_rfl
  · split_ifs
    · exact le_rfl
    · simp

theorem Coal.length_done_foldl (c : Coal α) (rs : List (Tagged α)) :
    c.done.length ≤ (rs.foldl Coal.emit c).done.length := by
  induction rs generalizing c with
  | nil => exact le_rfl
  | cons r rs ih => exact (c.length_done_emit r).trans (ih _)

theorem Coal.cur_emit_isSome (c : Coal α) (r : Tagged α) : (c.emit r).cur.isSome = true := by
  rw [Coal.emit]
  split
  · rfl
  · split_ifs <;> rfl

theorem Coal.cur_foldl_isSome {c : Coal α} {rs : List (Tagged α)} (h : rs ≠ []) :
    (rs.foldl Coal.emit c).cur.isSome = true := by
  induction rs using List.reverseRecOn with
  | nil => exact absurd rfl h
  | append_singleton rs r _ =>
    rw [foldl_append]
    exact Coal.cur_emit_isSome _ _

theorem runsOf_eq_nil_iff {rs : List (Tagged α)} : runsOf rs = [] ↔ rs = [] := by
  constructor
  · intro h
    by_contra hne
    obtain ⟨cur, hcur⟩ := Option.isSome_iff_exists.mp (Coal.cur_foldl_isSome (c := ⟨[], none⟩) hne)
    rw [runsOf, Coal.flush, hcur] at h
    simp at h
  · rintro rfl
    rfl

structure Coal.Runs (c : Coal α) (rs : List (Tagged α)) : Prop where
  canonical : Canonical c.flush
  covers : ∀ x tag, Covers c.flush x tag ↔ Covers rs x tag
  cur : c.cur = none → rs = []
  bound : ∀ s : Tagged α, (∀ r ∈ rs, r.hi ≤ s.lo) → ∀ r ∈ c.flush, r.hi ≤ s.lo

omit [DecidableEq α] in
theorem Coal.runs_nil : (⟨[], none⟩ : Coal α).Runs [] :=
  ⟨⟨ascending_nil, .nil⟩, fun _ _ ↦ Iff.rfl, fun _ ↦ rfl, fun _ _ _ h ↦ absurd h not_mem_nil⟩

theorem Coal.Runs.emit {c : Coal α} {rs : List (Tagged α)} {r : Tagged α} (h : c.Runs rs)
    (hne : r.lo < r.hi) (hr : ∀ s ∈ rs, s.hi ≤ r.lo) : (c.emit r).Runs (rs ++ [r]) := by
  have hbefore := h.bound r hr
  rw [Coal.emit]
  cases hcur : c.cur with
  | none =>
    obtain rfl := h.cur hcur
    have hdone : c.done = [] := by
      have hcovers := h.covers
      have hnonempty := h.canonical.nonempty
      rw [Coal.flush, hcur, Option.toList_none, append_nil] at hcovers hnonempty
      rw [eq_nil_iff_forall_not_mem]
      intro s hs
      exact covers_nil _ _ ((hcovers s.lo s.tag).mp ⟨s, hs, le_rfl, hnonempty s hs, rfl⟩)
    rw [hdone]
    refine ⟨⟨ascending_singleton hne, pairwise_singleton _ _⟩, fun _ _ => Iff.rfl,
      fun hnone => absurd hnone (Option.some_ne_none _), fun s hs => hs⟩
  | some cur =>
    obtain ⟨⟨hnonempty, hapart⟩, hmaximal⟩ := h.canonical
    have hcovers := h.covers
    have hbound := h.bound
    rw [Coal.flush, hcur, Option.toList_some] at hnonempty hapart hmaximal hcovers hbound hbefore
    have hcurne := hnonempty cur (by simp)
    have hcurle := hbefore cur (by simp)
    obtain ⟨hdone, -, hcross⟩ := pairwise_append.mp hapart
    obtain ⟨hdonemax, -, hcrossmax⟩ := pairwise_append.mp hmaximal
    dsimp only
    split_ifs with hjoin
    · -- the run grows
      obtain ⟨htouch, htag⟩ := hjoin
      refine ⟨⟨⟨?_, ?_⟩, ?_⟩, ?_, fun hnone => absurd hnone (Option.some_ne_none _), ?_⟩
      · intro s hs
        rcases mem_append.mp hs with hs | hs
        · exact hnonempty s (mem_append_left _ hs)
        · obtain rfl := mem_singleton.mp hs
          exact hcurne.trans (htouch ▸ hne)
      · refine pairwise_append.mpr ⟨hdone, pairwise_singleton _ _, fun s hs t ht => ?_⟩
        obtain rfl := mem_singleton.mp ht
        exact hcross s hs cur (by simp)
      · refine pairwise_append.mpr ⟨hdonemax, pairwise_singleton _ _, fun s hs t ht => ?_⟩
        obtain rfl := mem_singleton.mp ht
        exact hcrossmax s hs cur (by simp)
      · intro x tag
        rw [covers_append, ← hcovers, Coal.flush, Option.toList_some, covers_append, covers_append,
          covers_singleton, covers_singleton, covers_singleton]
        rw [← htouch, htag]
        constructor
        · rintro (hx | ⟨hlo, hhi, rfl⟩)
          · exact .inl (.inl hx)
          · rcases Nat.lt_or_ge x r.lo with hlt | hge
            · exact .inl (.inr ⟨hlo, hlt, rfl⟩)
            · exact .inr ⟨hge, hhi, rfl⟩
        · rintro ((hx | ⟨hlo, hhi, rfl⟩) | ⟨hlo, hhi, rfl⟩)
          · exact .inl hx
          · exact .inr ⟨hlo, hhi.trans hne, rfl⟩
          · exact .inr ⟨hcurne.le.trans (hcurle.trans hlo), hhi, rfl⟩
      · intro s hs t ht
        rcases mem_append.mp ht with ht | ht
        · exact hbound s (fun r' hr' => hs r' (mem_append_left _ hr')) t
            (mem_append_left _ ht)
        · obtain rfl := mem_singleton.mp ht
          exact hs r (by simp)
    · -- the run is complete
      refine ⟨⟨⟨?_, ?_⟩, ?_⟩, ?_, fun hnone => absurd hnone (Option.some_ne_none _), ?_⟩
      · intro s hs
        rcases mem_append.mp hs with hs | hs
        · exact hnonempty s hs
        · obtain rfl := mem_singleton.mp hs
          exact hne
      · refine pairwise_append.mpr ⟨hapart, pairwise_singleton _ _, fun s hs t ht => ?_⟩
        obtain rfl := mem_singleton.mp ht
        exact hbefore s hs
      · refine pairwise_append.mpr ⟨hmaximal, pairwise_singleton _ _,
          fun s hs t ht htouch htag => ?_⟩
        obtain rfl := mem_singleton.mp ht
        rcases mem_append.mp hs with hs | hs
        · have := hcross s hs cur (by simp)
          omega
        · obtain rfl := mem_singleton.mp hs
          exact hjoin ⟨htouch.symm, htag.symm⟩
      · intro x tag
        rw [covers_append, ← hcovers]
        exact covers_append
      · intro s hs t ht
        rcases mem_append.mp ht with ht | ht
        · exact hbound s (fun r' hr' => hs r' (mem_append_left _ hr')) t ht
        · obtain rfl := mem_singleton.mp ht
          exact hs t (by simp)

theorem runsOf_spec {rs : List (Tagged α)} (h : Ascending rs) :
    Canonical (runsOf rs) ∧ ∀ x tag, Covers (runsOf rs) x tag ↔ Covers rs x tag := by
  have hruns : (rs.foldl Coal.emit ⟨[], none⟩).Runs rs := by
    induction rs using List.reverseRecOn with
    | nil => exact Coal.runs_nil
    | append_singleton rs r ih =>
      obtain ⟨hne, hapart⟩ := h
      obtain ⟨hinit, -, hcross⟩ := pairwise_append.mp hapart
      rw [foldl_append]
      exact (ih ⟨fun s hs => hne s (mem_append_left _ hs), hinit⟩).emit (hne r (by simp))
        fun s hs => hcross s hs r (by simp)
  exact ⟨hruns.canonical, hruns.covers⟩

end MemDbg.Lib
