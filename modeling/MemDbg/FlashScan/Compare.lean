import MemDbg.Core.Status
import MemDbg.Lib.LittleEndian

/-!
# Comparing values

The comparisons of FlashScan work on pointers into the request body.  A pointer
is modelled by the bytes of the body that lie behind it, and a comparison that
reads more than these, or reads through `NULL`, is `none`.
-/

namespace MemDbg.FlashScan

open Lib

abbrev Ptr := Option (List UInt8)

def Ptr.read (p : Ptr) (n : Nat) : Option (List UInt8) :=
  match p with
  | none => none
  | some bytes => if n ≤ bytes.length then some (bytes.take n) else none

def Ptr.advance (p : Ptr) (n : Nat) : Ptr := p.map (·.drop n)

theorem Ptr.read_some {bytes : List UInt8} {n : Nat} (h : n ≤ bytes.length) :
    Ptr.read (some bytes) n = some (bytes.take n) := if_pos h

def memcmp : List UInt8 → List UInt8 → Ordering
  | [], [] => .eq
  | [], _ :: _ => .lt
  | _ :: _, [] => .gt
  | x :: xs, y :: ys => if x = y then memcmp xs ys else if x < y then .lt else .gt

theorem memcmp_eq_iff {a b : List UInt8} : memcmp a b = .eq ↔ a = b := by
  induction a generalizing b with
  | nil => cases b <;> simp [memcmp]
  | cons x xs ih =>
    cases b with
    | nil => simp [memcmp]
    | cons y ys =>
      rw [memcmp]
      split_ifs with hxy hlt
      · simp [ih, hxy]
      · simp [hxy]
      · simp [hxy]

def int64Of (value : List UInt8) : Int :=
  let n := leNat (value.take 8)
  if n < 2 ^ 63 then n else (n : Int) - 2 ^ 64

/-- The compare types for which dispatch passes compare data: the bitmap
`0x114F`.  The shift `1u << compare_type` takes its count modulo 32, as the target
does; C leaves it open from 32 on. -/
def needsData (compareType : Nat) : Bool := (0x114F : Nat).testBit (compareType % 32)

def compareInts (compareType : Nat) (dv pv : Int) : Option Bool :=
  match compareType with
  | 5 => some (dv == pv)
  | 6 => some (decide (dv > pv))
  | 7 => some (decide (dv < pv))
  | 8 => some (dv != pv)
  | 9 => some (decide (dv < pv) || decide (dv > pv))
  | 10 => some (dv == pv)
  | 11 => some (decide (dv > pv))
  | 12 => some (decide (dv < pv))
  | _ => none

def snapCompareInts (mem : List UInt8) (pattern : Ptr) (compareType vlen : Nat) : Option Bool := do
  let pv ← if vlen ≤ 8 then (pattern.read vlen).map int64Of else some 0
  let dv := if vlen ≤ 8 then int64Of (mem.take vlen) else 0
  match compareInts compareType dv pv with
  | some matched => some matched
  | none =>
    let p ← pattern.read vlen
    some (memcmp (mem.take vlen) p == .eq)

def comparePattern (test : Ordering → Bool) (mem : List UInt8) (pattern : Ptr) (vlen : Nat) :
    Option Bool :=
  (pattern.read vlen).map fun p => test (memcmp (mem.take vlen) p)

def compareBetween (mem : List UInt8) (pattern betweenHi : Ptr) (vlen : Nat) : Option Bool := do
  let low ← comparePattern (· != .lt) mem pattern vlen
  if low then comparePattern (· != .gt) mem betweenHi vlen else some false

def snapCompare (mem : List UInt8) (pattern prev mask betweenHi : Ptr) (compareType vlen : Nat) :
    Option Bool :=
  if compareType = 0 ∧ mask.isNone then comparePattern (· == .eq) mem pattern vlen
  else if compareType = 4 ∧ betweenHi.isSome then compareBetween mem pattern betweenHi vlen
  else if compareType = 1 then comparePattern (· == .gt) mem pattern vlen
  else if compareType = 2 then comparePattern (· == .lt) mem pattern vlen
  else if compareType = 3 ∧ prev.isSome then comparePattern (· != .eq) mem prev vlen
  else snapCompareInts mem pattern compareType vlen

def streamCompare (value : List UInt8) (pattern mask betweenHi : Ptr) (compareType vlen : Nat) :
    Option Bool :=
  if compareType = 0 ∧ mask.isNone then comparePattern (· == .eq) value pattern vlen
  else if compareType = 4 ∧ betweenHi.isSome then compareBetween value pattern betweenHi vlen
  else comparePattern (· == .eq) value pattern vlen

end MemDbg.FlashScan
