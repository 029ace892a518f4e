import Mathlib.Tactic.IntervalCases
import MemDbg.Core.Status
import MemDbg.Lib.LittleEndian

/-!
# The status words of the legacy protocol

A legacy client reads 32-bit status words whose neighbouring bits are swapped.
The helpers of `legacy/common.c` every handler of the compatibility layer uses.
-/

namespace MemDbg.Legacy

open Lib

def cmdSuccess : UInt32 := 0x40000000

def cmdDataNull : UInt32 := 0xF0000003

def cmdError : UInt32 := 0xF0000002

def cmdAlreadyDebug : UInt32 := 0xF0000008

def cmdInvalidIndex : UInt32 := 0xF000000A

def legacyBitswap32 (value : UInt32) : UInt32 :=
  ((value >>> 1) &&& (0x55555555 : UInt32)) ||| ((value <<< 1) &&& (0xAAAAAAAA : UInt32))

theorem legacyBitswap32_legacyBitswap32 (value : UInt32) :
    legacyBitswap32 (legacyBitswap32 value) = value := by
  apply UInt32.eq_of_toBitVec_eq
  unfold legacyBitswap32
  simp only [UInt32.toBitVec_or, UInt32.toBitVec_and, UInt32.toBitVec_shiftLeft,
    UInt32.toBitVec_shiftRight]
  ext i hi
  simp
  interval_cases i <;> simp

theorem legacyBitswap32_injective : Function.Injective legacyBitswap32 :=
  Function.LeftInverse.injective legacyBitswap32_legacyBitswap32

def legacyStatusFromMemdbg : Status → UInt32
  | .ok => cmdSuccess
  | .errNomem | .errNotFound => cmdDataNull
  | _ => cmdError

def field (body : List UInt8) (offset width : Nat) : Nat := leNat ((body.drop offset).take width)

theorem field_lt (body : List UInt8) (offset width : Nat) :
    field body offset width < 256 ^ width := by
  have hlen : ((body.drop offset).take width).length ≤ width := List.length_take_le _ _
  exact (leNat_lt _).trans_le (Nat.pow_le_pow_right (by decide) hlen)

end MemDbg.Legacy
