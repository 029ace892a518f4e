import MemDbg.FlashScan.Rescan
import MemDbg.FlashScan.StreamExact
import Mathlib.Data.List.TakeWhile

/-!
# The memory of a target

A target has bytes and pages that cannot be read.  What a read of a range leaves in
the cleared buffer is decided by the target and by how the platform gives up a read
that meets such a page.
-/

namespace MemDbg.FlashScan

open List Lib Scan

/-! ## Faults -/

inductive FaultMode where
  | whole
  | leading
deriving DecidableEq

def FaultMode.copied (mode : FaultMode) (readable : Nat → Bool) (addr len : Nat) : Nat :=
  match mode with
  | whole => if (List.range len).all fun j => readable (addr + j) then len else 0
  | leading => ((List.range len).takeWhile fun j => readable (addr + j)).length

def FaultMode.needs (mode : FaultMode) (len i : Nat) : Nat :=
  match mode with
  | whole => len
  | leading => i + 1

theorem lt_length_takeWhile_range {p : Nat → Bool} {n i : Nat} (hi : i < n) :
    i < ((List.range n).takeWhile p).length ↔ ∀ j, j < i + 1 → p j = true := by
  constructor
  · intro h j hj
    have hmem := getElem_mem (show j < ((List.range n).takeWhile p).length by omega)
    have hget : ((List.range n).takeWhile p)[j] = j := by
      rw [(List.takeWhile_prefix p).getElem]
      exact getElem_range _
    rw [hget] at hmem
    exact mem_takeWhile_imp hmem
  · intro h
    have hrange : List.range n = List.range (i + 1) ++ (List.range (n - (i + 1))).map
      (i + 1 + ·) := by
      rw [← range_add, Nat.add_sub_cancel' hi]
    rw [hrange, takeWhile_append_of_pos fun j hj => h j (mem_range.mp hj),
      length_append, length_range]
    omega

theorem FaultMode.lt_copied_iff (mode : FaultMode) {readable : Nat → Bool} {addr len i : Nat}
    (hi : i < len) :
    i < mode.copied readable addr len ↔
      ∀ j, j < mode.needs len i → readable (addr + j) = true := by
  cases mode with
  | whole =>
    rw [copied, needs]
    split_ifs with hall
    · rw [all_eq_true] at hall
      exact ⟨fun _ j hj => hall j (mem_range.mpr hj), fun _ => hi⟩
    · refine ⟨fun h => absurd h (Nat.not_lt_zero i), fun h => absurd ?_ hall⟩
      rw [all_eq_true]
      exact fun j hj => h j (mem_range.mp hj)
  | leading => exact lt_length_takeWhile_range hi

theorem FaultMode.needs_le (mode : FaultMode) {len i : Nat} (hi : i < len) :
    i < mode.needs len i ∧ mode.needs len i ≤ len := by
  cases mode with
  | whole => exact ⟨hi, le_rfl⟩
  | leading => exact ⟨Nat.lt_succ_self i, hi⟩

/-! ## Targets -/

structure Target (page : Nat) where
  mem : Nat → UInt8
  readable : Nat → Bool
  paged : ∀ x y, x / page = y / page → readable x = readable y

def Target.Copies {page : Nat} (t : Target page) (mode : FaultMode) (addr len i : Nat) : Prop :=
  ∀ j, j < mode.needs len i → t.readable (wrap64 (addr + j)) = true

instance {page : Nat} (t : Target page) (mode : FaultMode) (addr len i : Nat) :
    Decidable (t.Copies mode addr len i) :=
  inferInstanceAs (Decidable (∀ j, j < mode.needs len i → t.readable (wrap64 (addr + j)) = true))

def Target.byte {page : Nat} (t : Target page) (mode : FaultMode) (addr len i : Nat) : UInt8 :=
  if t.Copies mode addr len i then t.mem (wrap64 (addr + i)) else 0

def Target.read {page : Nat} (t : Target page) (mode : FaultMode) (addr len : Nat) : List UInt8 :=
  (List.range len).map (t.byte mode addr len)

structure FsEnv.Sees {page : Nat} (env : FsEnv) (mode : FaultMode) (t : Target page) : Prop where
  mem : ∀ x, env.mem x = t.mem (wrap64 x)
  copied : env.copied = mode.copied fun x => t.readable (wrap64 x)
  mapped : ∀ addr len, (env.aliasTail addr len).isSome = true →
    ∀ j, j < len → t.readable (wrap64 (addr + j)) = true

def FsEnv.facing {page : Nat} (env : FsEnv) (mode : FaultMode) (t : Target page) : FsEnv :=
  { env with
    mem := fun x => t.mem (wrap64 x)
    copied := mode.copied fun x => t.readable (wrap64 x)
    aliasTail := fun _ _ => none }

section Target

variable {page : Nat} {t : Target page} {mode : FaultMode} {env : FsEnv}

theorem sees_facing (env : FsEnv) (mode : FaultMode) (t : Target page) :
    (env.facing mode t).Sees mode t :=
  ⟨fun _ => rfl, rfl, fun _ _ h => absurd h Bool.false_ne_true⟩

@[simp] theorem length_read (t : Target page) (mode : FaultMode) (addr len : Nat) :
    (t.read mode addr len).length = len := by
  simp [Target.read]

theorem getD_read {addr len i : Nat} (hi : i < len) :
    (t.read mode addr len).getD i 0 = t.byte mode addr len i := by
  rw [getD_eq_getElem _ _ (by simpa using hi)]
  simp [Target.read]

theorem FsEnv.Sees.slice_eq (h : env.Sees mode t) {addr len : Nat}
    (hread : ∀ j, j < len → t.readable (wrap64 (addr + j)) = true) :
    slice env.mem addr len = t.read mode addr len := by
  refine (slice_eq_iff _).mpr ⟨length_read .., fun i hi => ?_⟩
  rw [getD_read hi, h.mem, Target.byte, if_pos]
  exact fun j hj => hread j (hj.trans_le (mode.needs_le hi).2)

theorem FsEnv.Sees.memoryRead (h : env.Sees mode t) (addr len : Nat) :
    env.memoryRead addr len = t.read mode addr len := by
  refine ext_getElem (by simp) fun i hi hi' => ?_
  rw [length_memoryRead] at hi
  have hread : (t.read mode addr len)[i] = t.byte mode addr len i := by
    rw [← getD_read hi, getD_eq_getElem _ _ hi']
  have hiff : i < env.copied addr len ↔ t.Copies mode addr len i := by
    rw [h.copied]
    exact mode.lt_copied_iff hi
  rw [hread, Target.byte]
  simp only [FsEnv.memoryRead]
  split_ifs with hcopied
  · have hlt := hiff.mpr hcopied
    rw [getElem_append_left (by rw [length_slice]; omega), ← h.mem,
      ← getD_slice env.mem (show i < min (env.copied addr len) len by omega) 0,
      getD_eq_getElem]
  · have hge := mt hiff.mp hcopied
    rw [getElem_append_right (by rw [length_slice]; omega), getElem_replicate]

theorem FsEnv.Sees.chunkBytes (h : env.Sees mode t) (addr len : Nat) :
    env.chunkBytes addr len = t.read mode addr len := by
  rw [FsEnv.chunkBytes, h.memoryRead]
  split_ifs with hmapped
  · exact h.slice_eq (h.mapped addr len hmapped)
  · rfl

theorem FsEnv.Sees.windowRead (h : env.Sees mode t) (winStart readSize : Nat) :
    flashscanWindowRead env winStart readSize = t.read mode winStart readSize := by
  rw [flashscanWindowRead, h.memoryRead]
  split_ifs with hmapped
  · exact h.slice_eq (h.mapped _ _ hmapped.2)
  · rfl

end Target

end MemDbg.FlashScan
