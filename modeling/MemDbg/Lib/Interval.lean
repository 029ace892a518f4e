import Mathlib.Tactic.Common

/-!
# Points of an interval

The points of an interval of numbers at which a predicate holds, and their number.
-/

namespace MemDbg.Lib

open List

def countIn (p : Nat → Bool) (lo hi : Nat) : Nat := (List.range' lo (hi - lo)).countP p

variable {p q : Nat → Bool} {lo mid hi : Nat}

theorem countIn_of_le (h : hi ≤ lo) : countIn p lo hi = 0 := by
  simp [countIn, Nat.sub_eq_zero_of_le h]

theorem range'_split (hlo : lo ≤ mid) (hhi : mid ≤ hi) :
    List.range' lo (hi - lo) = List.range' lo (mid - lo) ++ List.range' mid (hi - mid) := by
  obtain ⟨a, rfl⟩ := Nat.exists_eq_add_of_le hlo
  obtain ⟨b, rfl⟩ := Nat.exists_eq_add_of_le hhi
  rw [show lo + a + b - lo = a + b by omega, show lo + a - lo = a by omega,
    show lo + a + b - (lo + a) = b by omega, ← range'_append, Nat.one_mul]

theorem countIn_split (hlo : lo ≤ mid) (hhi : mid ≤ hi) :
    countIn p lo hi = countIn p lo mid + countIn p mid hi := by
  rw [countIn, range'_split hlo hhi, countP_append]
  rfl

theorem countIn_congr (h : ∀ j, lo ≤ j → j < hi → p j = q j) :
    countIn p lo hi = countIn q lo hi := by
  refine countP_congr fun j hj => ?_
  rw [mem_range'_1] at hj
  rw [h j hj.1 (by omega)]

theorem countIn_eq_zero (h : ∀ j, lo ≤ j → j < hi → p j = false) : countIn p lo hi = 0 := by
  rw [countIn, countP_eq_zero]
  intro j hj
  rw [mem_range'_1] at hj
  simp [h j hj.1 (by omega)]

theorem countIn_eq_length (h : ∀ j, lo ≤ j → j < hi → p j = true) : countIn p lo hi = hi - lo := by
  rw [countIn, countP_eq_length.mpr]
  · simp
  · intro j hj
    rw [mem_range'_1] at hj
    exact h j hj.1 (by omega)

theorem countIn_succ (h : lo < hi) :
    countIn p lo hi = (if p lo then 1 else 0) + countIn p (lo + 1) hi := by
  rw [countIn_split (Nat.le_succ lo) h]
  simp [countIn, countP_cons]

theorem countIn_skip (hle : lo ≤ mid) (h : ∀ j, lo ≤ j → j < mid → j < hi → p j = false) :
    countIn p lo hi = countIn p mid hi := by
  rcases Nat.le_total mid hi with hmid | hmid
  · have hzero : countIn p lo mid = 0 :=
      countIn_eq_zero fun j hj hlt => h j hj hlt (Nat.lt_of_lt_of_le hlt hmid)
    rw [countIn_split hle hmid, hzero, Nat.zero_add]
  · rw [countIn_of_le hmid]
    exact countIn_eq_zero fun j hj hlt => h j hj (Nat.lt_of_lt_of_le hlt hmid) hlt

/-! ## The points -/

def pointsIn (p : Nat → Bool) (lo hi : Nat) : List Nat := (List.range' lo (hi - lo)).filter p

theorem mem_pointsIn {j : Nat} : j ∈ pointsIn p lo hi ↔ lo ≤ j ∧ j < hi ∧ p j = true := by
  rw [pointsIn, mem_filter, mem_range'_1]
  constructor
  · rintro ⟨⟨hlo, hhi⟩, hp⟩
    exact ⟨hlo, by omega, hp⟩
  · rintro ⟨hlo, hhi, hp⟩
    exact ⟨⟨hlo, by omega⟩, hp⟩

theorem pointsIn_of_le (h : hi ≤ lo) : pointsIn p lo hi = [] := by
  simp [pointsIn, Nat.sub_eq_zero_of_le h]

theorem pointsIn_split (hlo : lo ≤ mid) (hhi : mid ≤ hi) :
    pointsIn p lo hi = pointsIn p lo mid ++ pointsIn p mid hi := by
  rw [pointsIn, range'_split hlo hhi, filter_append]
  rfl

theorem pointsIn_congr (h : ∀ j, lo ≤ j → j < hi → p j = q j) :
    pointsIn p lo hi = pointsIn q lo hi := by
  refine filter_congr fun j hj => ?_
  rw [mem_range'_1] at hj
  exact h j hj.1 (by omega)

theorem pointsIn_eq_nil (h : ∀ j, lo ≤ j → j < hi → p j = false) : pointsIn p lo hi = [] := by
  rw [eq_nil_iff_forall_not_mem]
  intro j hj
  obtain ⟨hlo, hhi, hp⟩ := mem_pointsIn.mp hj
  rw [h j hlo hhi] at hp
  cases hp

theorem pointsIn_cons (h : lo < hi) (hp : p lo = true) :
    pointsIn p lo hi = lo :: pointsIn p (lo + 1) hi := by
  rw [pointsIn_split (Nat.le_succ lo) h]
  simp [pointsIn, hp]

theorem pointsIn_skip (hle : lo ≤ mid) (h : ∀ j, lo ≤ j → j < mid → j < hi → p j = false) :
    pointsIn p lo hi = pointsIn p mid hi := by
  rcases Nat.le_total mid hi with hmid | hmid
  · rw [pointsIn_split hle hmid, pointsIn_eq_nil fun j hj hlt => h j hj hlt (by omega)]
    rfl
  · rw [pointsIn_of_le hmid]
    exact pointsIn_eq_nil fun j hj hlt => h j hj (by omega) hlt

end MemDbg.Lib
