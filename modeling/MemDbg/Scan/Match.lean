import MemDbg.Core.Status
import MemDbg.Lib.LittleEndian

/-!
# Value types and match functions

The value-length table and the unrolled comparisons of `match.c`.  All of them
decide the same thing, equality of the first `len` bytes, which is
`matchFnFor_eq`.
-/

namespace MemDbg.Scan

open Lib

inductive ValueType where
  | bytes
  | u8
  | u16
  | u32
  | u64
  | f32
  | f64
  | pointer
  | aob
  | other (code : Nat)
deriving DecidableEq

def ValueType.ofCode : Nat → ValueType
  | 0 => .bytes
  | 1 => .u8
  | 2 => .u16
  | 3 => .u32
  | 4 => .u64
  | 5 => .f32
  | 6 => .f64
  | 7 => .pointer
  | 10 => .aob
  | n => .other n

def expectedValueLength (valueType : ValueType) (requestedLength : Nat) : Nat :=
  match valueType with
  | .u8 => 1
  | .u16 => 2
  | .u32 | .f32 => 4
  | .u64 | .f64 | .pointer => 8
  | .bytes | .aob | .other _ => requestedLength

abbrev MatchFn := List UInt8 → List UInt8 → Nat → Bool

def matchU8 : MatchFn := fun c n _ => c.getD 0 0 == n.getD 0 0

def matchWord (width : Nat) : MatchFn := fun c n _ => leNat (c.take width) == leNat (n.take width)

def matchU16 : MatchFn := matchWord 2

def matchU32 : MatchFn := matchWord 4

def matchU64 : MatchFn := matchWord 8

def matchBytes : MatchFn := fun c n len => c.getD 0 0 == n.getD 0 0 && c.take len == n.take len

def matchFnFor (valueLen : Nat) : MatchFn :=
  match valueLen with
  | 1 => matchU8
  | 2 => matchU16
  | 4 => matchU32
  | 8 => matchU64
  | _ => matchBytes

theorem matchWord_eq {width : Nat} {c n : List UInt8} (hc : width ≤ c.length)
    (hn : width ≤ n.length)
    (len : Nat) : matchWord width c n len = decide (c.take width = n.take width) := by
  rw [matchWord, Bool.eq_iff_iff, beq_iff_eq, decide_eq_true_iff]
  exact leNat_inj (by simp [hc, hn])

theorem matchU8_eq {c n : List UInt8} (hc : 1 ≤ c.length) (hn : 1 ≤ n.length) (len : Nat) :
    matchU8 c n len = decide (c.take 1 = n.take 1) := by
  cases c with
  | nil => simp at hc
  | cons x xs =>
    cases n with
    | nil => simp at hn
    | cons y ys =>
      rw [matchU8, Bool.eq_iff_iff, beq_iff_eq, decide_eq_true_iff]
      simp

theorem matchBytes_eq {len : Nat} (hlen : 0 < len) (c n : List UInt8) :
    matchBytes c n len = decide (c.take len = n.take len) := by
  rw [matchBytes, Bool.eq_iff_iff, Bool.and_eq_true, beq_iff_eq, beq_iff_eq, decide_eq_true_iff]
  refine ⟨And.right, fun h => ⟨?_, h⟩⟩
  have := congrArg (fun l : List UInt8 => l.getD 0 0) h
  simpa [List.getD_eq_getElem?_getD, List.getElem?_take, hlen] using this

theorem matchFnFor_eq {len : Nat} (hlen : 0 < len) {c n : List UInt8} (hc : len ≤ c.length)
    (hn : len ≤ n.length) : matchFnFor len c n len = decide (c.take len = n.take len) := by
  unfold matchFnFor
  split
  · exact matchU8_eq hc hn 1
  · exact matchWord_eq hc hn 2
  · exact matchWord_eq hc hn 4
  · exact matchWord_eq hc hn 8
  · exact matchBytes_eq hlen c n

end MemDbg.Scan
