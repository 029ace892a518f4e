import MemDbg.Scan.Simd
import MemDbg.FlashScan.Compare
import MemDbg.Lib.Bytes

/-!
# FlashScan sessions

A session is a list of records or a snapshot of one value per slot, with a bitmap
of the slots that have survived so far.  The values of a snapshot live in memory
up to a limit and in a spill file beyond it.
-/

namespace MemDbg.FlashScan

open List Lib Scan

/-! ## Environment -/

inductive FsAllocSite where
  | pattern
  | readBuf
  | resultBuf
  | simdOffs
  | sessionBuf
  | rescanRead
  | rescanBaseline
  | rescanWorkers
  | rescanList
  | rescanStream
  | parallelWorkers
  | parallelBuffers
  | parallelOutput
  | materialized
  | fetchBuf
deriving DecidableEq

structure FsEnv where
  mem : Nat → UInt8
  copied : Nat → Nat → Nat
  aliasTail : Nat → Nat → Option (List UInt8)
  build : Option SimdVariant
  alloc : FsAllocSite → Bool
  cancelled : Nat → Bool
  pread : Nat → Nat → Bool
  pwrite : Nat → Nat → Nat
  workerBuffers : Nat → Bool
  fresh : Nat → List UInt8

def FsEnv.memoryRead (env : FsEnv) (addr len : Nat) : List UInt8 :=
  slice env.mem addr (min (env.copied addr len) len) ++
    List.replicate (len - env.copied addr len) 0

@[simp] theorem length_memoryRead (env : FsEnv) (addr len : Nat) :
    (env.memoryRead addr len).length = len := by
  rw [FsEnv.memoryRead, length_append, length_slice, length_replicate]
  omega

theorem memoryRead_of_copied {env : FsEnv} {addr len : Nat} (h : len ≤ env.copied addr len) :
    env.memoryRead addr len = slice env.mem addr len := by
  rw [FsEnv.memoryRead, Nat.min_eq_right h, Nat.sub_eq_zero_of_le h, replicate_zero,
    append_nil]

/-! ## Records -/

structure ListRecord where
  addr : Nat
  value : List UInt8
  prev : List UInt8
  first : List UInt8
deriving DecidableEq

structure ListSession where
  records : List ListRecord
  recSize : Nat
  bufCap : Nat
  valueLen : Nat
  pid : Nat
  valueType : ValueType
  hasPrev : Bool
  hasFirst : Bool
deriving DecidableEq

def rescanWinCap : Nat := 0x100000

def rescanGapMax : Nat := 0x8000

def rescanAliasMin : Nat := 0x10000

def sessionAlloc (env : FsEnv) (pid : Nat) (valueType : ValueType) (vlen : Nat) :
    Option ListSession :=
  if env.alloc .sessionBuf then
    some {
      records := []
      recSize := 8 + vlen
      bufCap := rescanWinCap * 2
      valueLen := vlen
      pid := pid
      valueType := valueType
      hasPrev := false
      hasFirst := false }
  else none

/-! ## Snapshots -/

/-- `struct fs_seg`. -/
structure FsSeg where
  addr : Nat
  slotStart : Nat
  nslots : Nat
deriving DecidableEq

structure SnapshotSession where
  bitmap : List UInt8
  slotCount : Nat
  survivorCount : Nat
  stride : Nat
  snapRam : List UInt8
  snapFile : List UInt8
  hasFirst : Bool
  firstFile : List UInt8
  hasPrev : Bool
  prevFile : List UInt8
  seg : List FsSeg
  valueLen : Nat
  pid : Nat
  valueType : ValueType
  valueLen_pos : 0 < valueLen
  valueLen_le : valueLen ≤ 8

inductive Session where
  | free
  | list (s : ListSession)
  | snapshot (s : SnapshotSession)

def Session.valueLen : Session → Nat
  | free => 0
  | list s => s.valueLen
  | snapshot s => s.valueLen

def bitAt (bm : List UInt8) (i : Nat) : Bool := (bm.getD (i / 8) 0).toNat.testBit (i % 8)

def bitmapClear (bm : List UInt8) (i : Nat) : List UInt8 :=
  bm.modify (i / 8) fun byte => byte &&& ~~~(1 <<< (UInt8.ofNat (i % 8)))

def bitmapSkip (bm : List UInt8) (n : Nat) : Nat → Nat → Nat
  | 0, i => i
  | fuel + 1, i =>
    if i + 64 ≤ n ∧ leNat ((bm.drop (i / 8)).take 8) = 0 then bitmapSkip bm n fuel (i + 64) else i

def bitmapNextLoop (bm : List UInt8) (n : Nat) : Nat → Nat → Nat
  | 0, _ => n
  | fuel + 1, i =>
    if i < n then
      let i := if i % 64 = 0 then bitmapSkip bm n (n / 64 + 1) i else i
      if n ≤ i then n
      else if bitAt bm i then i
      else bitmapNextLoop bm n fuel (i + 1)
    else n

def bitmapNextSet (bm : List UInt8) (start n : Nat) : Nat := bitmapNextLoop bm n (n + 1) start

def segSearch (seg : List FsSeg) (i : Nat) : Nat → Nat → Nat → Nat
  | 0, lo, _ => lo
  | fuel + 1, lo, hi =>
    if lo + 1 < hi then
      let mid := (lo + hi) / 2
      if (seg.getD mid ⟨0, 0, 0⟩).slotStart ≤ i then segSearch seg i fuel mid hi
      else segSearch seg i fuel lo mid
    else lo

def slotToAddr (s : SnapshotSession) (i : Nat) : Nat :=
  let seg := s.seg.getD (segSearch s.seg i s.seg.length 0 s.seg.length) ⟨0, 0, 0⟩
  wrap64 (seg.addr + sub64 i seg.slotStart * s.stride)

/-! ## The two-tier store -/

def overwrite (l : List UInt8) (off : Nat) (src : List UInt8) : List UInt8 :=
  l.take off ++ List.replicate (off - l.length) 0 ++ src ++ l.drop (off + src.length)

def preadAll (env : FsEnv) (file : List UInt8) (len off : Nat) : Option (List UInt8) :=
  if env.pread off len ∧ off + len ≤ file.length then some ((file.drop off).take len) else none

def pwriteAll (env : FsEnv) (file src : List UInt8) (off : Nat) : Bool × List UInt8 :=
  let written := env.pwrite off src.length
  (decide (src.length ≤ written), overwrite file off (src.take written))

def snapshotStoreRead (env : FsEnv) (s : SnapshotSession) (off len : Nat) : Option (List UInt8) :=
  if s.snapRam.length ≤ off then preadAll env s.snapFile len (off - s.snapRam.length)
  else if off + len ≤ s.snapRam.length then some ((s.snapRam.drop off).take len)
  else
    let a := s.snapRam.length - off
    (preadAll env s.snapFile (len - a) 0).map (s.snapRam.drop off ++ ·)

def snapshotStoreWrite (env : FsEnv) (s : SnapshotSession) (src : List UInt8) (off : Nat) :
    SnapshotSession :=
  if s.snapRam.length ≤ off then
    { s with snapFile := (pwriteAll env s.snapFile src (off - s.snapRam.length)).2 }
  else if off + src.length ≤ s.snapRam.length then
    { s with snapRam := overwrite s.snapRam off src }
  else
    let a := s.snapRam.length - off
    { s with
      snapRam := overwrite s.snapRam off (src.take a)
      snapFile := (pwriteAll env s.snapFile (src.drop a) 0).2 }

/-! ## Bitmap search -/

section Bitmap

variable {bm : List UInt8} {n : Nat}

theorem eq_zero_of_leNat_eq_zero {bytes : List UInt8} (h : leNat bytes = 0) (i : Nat) :
    bytes.getD i 0 = 0 := by
  induction bytes generalizing i with
  | nil => simp
  | cons b bs ih =>
    rw [leNat_cons] at h
    cases i with
    | zero => simpa using UInt8.toNat_inj.mp (show b.toNat = (0 : UInt8).toNat by simp; omega)
    | succ i => simpa using ih (by omega) i

theorem bitAt_of_word_eq_zero {i j : Nat} (hi : i % 64 = 0) (hij : i ≤ j) (hj : j < i + 64)
    (h : leNat ((bm.drop (i / 8)).take 8) = 0) : bitAt bm j = false := by
  have hbyte := eq_zero_of_leNat_eq_zero h (j / 8 - i / 8)
  rw [getD_eq_getElem?_getD, getElem?_take, if_pos (by omega), getElem?_drop,
    show i / 8 + (j / 8 - i / 8) = j / 8 by omega, ← getD_eq_getElem?_getD] at hbyte
  rw [bitAt, hbyte]
  simp

theorem bitmapSkip_spec (fuel : Nat) {i : Nat} (hi : i % 64 = 0) :
    i ≤ bitmapSkip bm n fuel i ∧ ∀ j, i ≤ j → j < bitmapSkip bm n fuel i → bitAt bm j = false := by
  induction fuel generalizing i with
  | zero => exact ⟨le_rfl, fun j h₁ h₂ => absurd h₂ (by simpa [bitmapSkip] using h₁)⟩
  | succ fuel ih =>
    rw [bitmapSkip]
    split_ifs with hzero
    · obtain ⟨hle, hunset⟩ := ih (i := i + 64) (by omega)
      refine ⟨by omega, fun j hij hj => ?_⟩
      rcases Nat.lt_or_ge j (i + 64) with hlt | hge
      · exact bitAt_of_word_eq_zero hi hij hlt hzero.2
      · exact hunset j hge hj
    · exact ⟨le_rfl, fun j h₁ h₂ => absurd h₂ (by omega)⟩

theorem bitmapNextLoop_spec (bm : List UInt8) (fuel : Nat) {i : Nat} (hfuel : n < i + fuel) :
    (bitmapNextLoop bm n fuel i < n →
      i ≤ bitmapNextLoop bm n fuel i ∧ bitAt bm (bitmapNextLoop bm n fuel i) = true) ∧
      ∀ j, i ≤ j → j < bitmapNextLoop bm n fuel i → j < n → bitAt bm j = false := by
  induction fuel generalizing i with
  | zero => exact ⟨fun h => absurd h (by simp [bitmapNextLoop]), fun j _ _ hj => by omega⟩
  | succ fuel ih =>
    rw [bitmapNextLoop]
    by_cases hlt : i < n
    · have hskip : i ≤ (if i % 64 = 0 then bitmapSkip bm n (n / 64 + 1) i else i) ∧
          ∀ j, i ≤ j → j < (if i % 64 = 0 then bitmapSkip bm n (n / 64 + 1) i else i) →
            bitAt bm j = false := by
        by_cases hmod : i % 64 = 0
        · simpa only [if_pos hmod] using bitmapSkip_spec (n / 64 + 1) hmod
        · rw [if_neg hmod]
          exact ⟨le_rfl, fun j h₁ h₂ => absurd h₂ (by omega)⟩
      rw [if_pos hlt]
      dsimp only
      generalize (if i % 64 = 0 then bitmapSkip bm n (n / 64 + 1) i else i) = i' at hskip ⊢
      obtain ⟨hle, hunset⟩ := hskip
      split_ifs with hend hbit
      · exact ⟨fun h => absurd h (lt_irrefl n), fun j hij _ hj => hunset j hij (by omega)⟩
      · exact ⟨fun _ => ⟨hle, hbit⟩, fun j hij hj _ => hunset j hij hj⟩
      · obtain ⟨hset, hrest⟩ := ih (i := i' + 1) (by omega)
        refine ⟨fun h => ⟨?_, (hset h).2⟩, fun j hij hj hjn => ?_⟩
        · have := (hset h).1
          omega
        rcases lt_trichotomy j i' with h | rfl | h
        · exact hunset j hij h
        · simpa using hbit
        · exact hrest j h hj hjn
    · rw [if_neg hlt]
      exact ⟨fun h => absurd h (lt_irrefl n), fun j hij hj hjn => by omega⟩

end Bitmap

end MemDbg.FlashScan
