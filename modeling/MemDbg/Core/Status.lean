import Mathlib.Algebra.Group.Int.Defs
import Mathlib.Algebra.GroupWithZero.Nat

/-!
# Status codes and wire constants

The `memdbg_status_t` enumeration and the constants the modelled functions
share.  Machine integers are natural numbers throughout; `wrap32` and `wrap64`
mark the places where the source's fixed width can be felt.
-/

namespace MemDbg

/-- `memdbg_status_t`. -/
inductive Status where
  | ok
  | errParam
  | errNomem
  | errIo
  | errNet
  | errProtocol
  | errUnsupported
  | errNotFound
  | errPermission
  | errOverflow
  | errState
deriving DecidableEq

abbrev ErrorStatus := { st : Status // st ≠ .ok }

theorem errParam_ne_ok : Status.errParam ≠ .ok := by decide

theorem errNomem_ne_ok : Status.errNomem ≠ .ok := by decide

theorem errIo_ne_ok : Status.errIo ≠ .ok := by decide

def wrap32 (n : Nat) : Nat := n % 2 ^ 32

def wrap64 (n : Nat) : Nat := n % 2 ^ 64

theorem one_lt_word : 1 < 2 ^ 32 := by decide

theorem four_lt_word : 4 < 2 ^ 32 := by decide

theorem eight_lt_word : 8 < 2 ^ 32 := by decide

theorem fourBytes_pos : 0 < 4 := by decide

theorem fourBytes_le : 4 ≤ 8 := by decide

def sub64 (a b : Nat) : Nat := (a + 2 ^ 64 - b) % 2 ^ 64

theorem wrap32_of_lt {n : Nat} (h : n < 2 ^ 32) : wrap32 n = n := Nat.mod_eq_of_lt h

theorem wrap64_of_lt {n : Nat} (h : n < 2 ^ 64) : wrap64 n = n := Nat.mod_eq_of_lt h

theorem sub64_of_le {a b : Nat} (h : b ≤ a) (ha : a < 2 ^ 64) : sub64 a b = a - b := by
  unfold sub64
  omega

def protocolMaxRead : Nat := 1024 * 1024

def protocolMaxPacket : Nat := 1024 * 1024

def scanValueMax : Nat := 16

def scanMinReadChunk : Nat := 4096

def scanMaxLength : Nat := 32 * 1024 * 1024 * 1024

def scanInitialCapacity : Nat := 256

def mapProtRead : Nat := 1

end MemDbg
