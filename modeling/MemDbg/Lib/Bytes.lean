import Mathlib.Data.List.GetD
import Mathlib.Tactic.Common

/-!
# Slices of a byte memory

A memory is a total function from addresses to bytes.  A *slice* is the list of
the bytes of one interval of it; every buffer a reader fills is one, so the
lemmas below (splitting, dropping, indexing) are all a window search needs to
know about the buffer it works on.
-/

namespace MemDbg.Lib

open List

def slice (mem : Nat → UInt8) (a n : Nat) : List UInt8 := (List.range' a n).map mem

variable (mem : Nat → UInt8)

@[simp] theorem slice_zero (a : Nat) : slice mem a 0 = [] := rfl

@[simp] theorem length_slice (a n : Nat) : (slice mem a n).length = n := by
  simp [slice]

theorem slice_append (a n k : Nat) :
    slice mem a n ++ slice mem (a + n) k = slice mem a (n + k) := by
  simp only [slice, ← map_append]
  congr 1
  simp

theorem drop_slice (a n k : Nat) : (slice mem a n).drop k = slice mem (a + k) (n - k) := by
  simp [slice, ← map_drop]

theorem take_slice {a n k : Nat} (h : k ≤ n) : (slice mem a n).take k = slice mem a k := by
  rw [show n = k + (n - k) by omega, ← slice_append]
  simp

theorem getD_slice {a n i : Nat} (h : i < n) (d : UInt8) :
    (slice mem a n).getD i d = mem (a + i) := by
  rw [getD_eq_getElem _ _ (by simpa using h)]
  simp [slice]

theorem slice_eq_nil {a n : Nat} : slice mem a n = [] ↔ n = 0 := by
  rw [← length_eq_zero_iff, length_slice]

theorem slice_eq_iff {a n : Nat} {bs : List UInt8} :
    slice mem a n = bs ↔ bs.length = n ∧ ∀ i, i < n → mem (a + i) = bs.getD i 0 := by
  constructor
  · rintro rfl
    exact ⟨length_slice mem a n, fun i hi => (getD_slice mem hi 0).symm⟩
  · rintro ⟨hlen, h⟩
    refine ext_getElem (by simp [hlen]) fun i hi hi' => ?_
    have hin : i < n := by simpa using hi
    have := h i hin
    rw [getD_eq_getElem _ _ hi'] at this
    rw [← this]
    simp [slice]

/-! ## Writing -/

def store (mem : Nat → UInt8) (addr : Nat) (data : List UInt8) : Nat → UInt8 := fun a =>
  if addr ≤ a ∧ a < addr + data.length then data.getD (a - addr) 0 else mem a

theorem slice_congr {mem' : Nat → UInt8} {a n : Nat} (h : ∀ x, a ≤ x → x < a + n → mem x = mem' x) :
    slice mem a n = slice mem' a n := by
  refine map_congr_left fun x hx => ?_
  rw [mem_range'_1] at hx
  exact h x hx.1 hx.2

theorem slice_store_of_le {a n addr : Nat} (h : a + n ≤ addr) (data : List UInt8) :
    slice (store mem addr data) a n = slice mem a n := by
  refine slice_congr _ fun x _ hx => if_neg ?_
  omega

theorem slice_store_of_ge {a addr : Nat} {data : List UInt8} (h : addr + data.length ≤ a)
    (n : Nat) :
    slice (store mem addr data) a n = slice mem a n := by
  refine slice_congr _ fun x hx _ => if_neg ?_
  omega

theorem slice_store_self (addr : Nat) (data : List UInt8) {n : Nat} (h : n ≤ data.length) :
    slice (store mem addr data) addr n = data.take n := by
  rw [slice_eq_iff]
  refine ⟨length_take_of_le h, fun i hi => ?_⟩
  have hin : addr ≤ addr + i ∧ addr + i < addr + data.length := by omega
  rw [store, if_pos hin, Nat.add_sub_cancel_left, getD_eq_getElem?_getD,
    getD_eq_getElem?_getD, getElem?_take, if_pos hi]

theorem slice_store_append (a n : Nat) (data : List UInt8) {k : Nat} (h : k ≤ data.length) :
    slice (store mem (a + n) data) a (n + k) = slice mem a n ++ data.take k := by
  rw [← slice_append, slice_store_of_le _ (Nat.le_refl _), slice_store_self _ _ _ h]

theorem slice_store_zero (n : Nat) (data : List UInt8) :
    slice (store mem n data) 0 (n + data.length) = slice mem 0 n ++ data := by
  have := slice_store_append mem 0 n data (Nat.le_refl _)
  rwa [Nat.zero_add, take_length] at this

theorem apply_of_slice_eq {a b n : Nat} (h : slice mem a n = slice mem b n) {i : Nat} (hi : i < n) :
    mem (a + i) = mem (b + i) := by
  rw [← getD_slice mem hi 0, h, getD_slice mem hi]

/-! ## Bytes at an address -/

def HasBytes (a : Nat) (bs : List UInt8) : Prop := slice mem a bs.length = bs

theorem hasBytes_slice (a n : Nat) : HasBytes mem a (slice mem a n) := by
  rw [HasBytes, length_slice]

@[simp] theorem hasBytes_nil (a : Nat) : HasBytes mem a [] := rfl

theorem hasBytes_cons {a : Nat} {b : UInt8} {bs : List UInt8} :
    HasBytes mem a (b :: bs) ↔ mem a = b ∧ HasBytes mem (a + 1) bs := by
  rw [HasBytes, HasBytes, length_cons, Nat.add_comm bs.length 1, ← slice_append]
  exact cons_eq_cons

theorem hasBytes_append {a : Nat} {xs ys : List UInt8} :
    HasBytes mem a (xs ++ ys) ↔ HasBytes mem a xs ∧ HasBytes mem (a + xs.length) ys := by
  rw [HasBytes, length_append, ← slice_append]
  exact ⟨fun h => append_inj h (length_slice _ _ _), fun h => by rw [h.1, h.2]⟩

theorem HasBytes.slice_eq {a n : Nat} {bs : List UInt8} (h : HasBytes mem a bs)
    (hle : bs.length ≤ n) :
    slice mem a n = bs ++ slice mem (a + bs.length) (n - bs.length) := by
  rw [HasBytes] at h
  have := slice_append mem a bs.length (n - bs.length)
  rwa [h, Nat.add_sub_cancel' hle, eq_comm] at this

def atZero (bs : List UInt8) : Nat → UInt8 := fun i => bs.getD i 0

@[simp] theorem slice_atZero (bs : List UInt8) : slice (atZero bs) 0 bs.length = bs := by
  rw [slice_eq_iff]
  refine ⟨rfl, fun i _ => ?_⟩
  rw [Nat.zero_add, atZero]

end MemDbg.Lib
