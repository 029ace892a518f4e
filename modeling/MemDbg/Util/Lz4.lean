import MemDbg.Core.Status
import MemDbg.Lib.Bits
import MemDbg.Lib.LittleEndian
import MemDbg.Lib.Lz4Block

/-!
# LZ4

The compressor looks for earlier occurrences with a table that survives from call to
call.  What it reads there is a guess only: a candidate counts if it lies before the
cursor and its bytes are the same.
-/

namespace MemDbg.Util

open Lib Function

/-! ## The table -/

def lz4MinMatch : Nat := 4

def lz4MfLimit : Nat := 12

def lz4LastLiterals : Nat := 5

def lz4MinCinput : Nat := 0x20

def lz4StepSize : Nat := 8

def lz4PosMask : Nat := 2 ^ 20 - 1

def lz4GenMask : Nat := 2 ^ 12 - 1

structure HashTable where
  entries : Nat → Nat
  gen : Nat

def lz4HashPosition (src : Nat → UInt8) (p : Nat) : Nat :=
  wrap32 (leNat (slice src p 4) * 2654435761) >>> 20

def HashTable.put (t : HashTable) (h pos : Nat) : HashTable :=
  { t with entries := update t.entries h (wrap32 (t.gen <<< 20) ||| (pos &&& lz4PosMask)) }

def HashTable.get (t : HashTable) (h : Nat) : Option Nat :=
  if t.entries h >>> 20 ≠ t.gen then none else some (t.entries h &&& lz4PosMask)

def HashTable.clear (t : HashTable) : HashTable := { t with entries := fun _ => 0xFFFFFFFF }

def HashTable.renew (t : HashTable) (srcSize : Nat) : HashTable :=
  let gen := wrap32 (t.gen + 1) &&& lz4GenMask
  let t := { t with gen := gen }
  let t := if gen = 0 then t.clear else t
  if srcSize ≤ lz4PosMask then t else { t.clear with gen := 0 }

/-! ## Finding a match -/

def HashTable.candidate (src : Nat → UInt8) (t : HashTable) (forward : Nat) : Option Nat :=
  (t.get (lz4HashPosition src forward)).filter fun candidate =>
    candidate < forward && forward - candidate ≤ 65535 &&
      leNat (slice src candidate 4) == leNat (slice src forward 4)

def HashTable.record (src : Nat → UInt8) (t : HashTable) (p : Nat) : HashTable :=
  t.put (lz4HashPosition src p) p

structure Stride where
  step : Nat
  searchNb : Nat
  step_pos : 0 < step
  le_searchNb : 2 ^ lz4StepSize ≤ searchNb

def Stride.first : Stride := ⟨1, 1 <<< lz4StepSize, Nat.one_pos, by decide⟩

def Stride.next (s : Stride) : Stride where
  step := s.searchNb >>> lz4StepSize
  searchNb := s.searchNb + 1
  step_pos := by
    rw [Nat.shiftRight_eq_div_pow]
    exact Nat.div_pos s.le_searchNb (Nat.two_pow_pos _)
  le_searchNb := Nat.le_succ_of_le s.le_searchNb

def searchLoop {τ : Type} (candidate : τ → Nat → Option Nat) (record : τ → Nat → τ) (srcMf : Nat)
    (t : τ) (forward : Nat) (s : Stride) : τ × Option (Nat × Nat) :=
  match candidate t forward with
  | some start => (record t forward, some (forward, start))
  | none =>
    if forward + s.step ≤ srcMf then
      searchLoop candidate record srcMf (record t forward) (forward + s.step) s.next
    else (record t forward, none)
termination_by srcMf - forward
decreasing_by
  have := s.step_pos
  omega

def findMatch (src : Nat → UInt8) (srcMf : Nat) (t : HashTable) (ip : Nat) :
    HashTable × Option (Nat × Nat) :=
  searchLoop (HashTable.candidate src) (HashTable.record src) srcMf t ip .first

def fillTable (src : Nat → UInt8) (srcMf : Nat) (t : HashTable) (ip forward : Nat) : HashTable :=
  (List.range' ip (min forward (srcMf + 1) - ip)).foldl
    (HashTable.record src) t

def lz4FirstDiffByte (diff : Nat) : Nat := ctz 64 diff >>> 3

def extendWords (src : Nat → UInt8) (srcLimit matchEnd matchCursor : Nat) : Nat × Nat × Bool :=
  if 8 ≤ srcLimit - matchEnd then
    let a := leNat (slice src matchEnd 8)
    let b := leNat (slice src matchCursor 8)
    if a ≠ b then (matchEnd + lz4FirstDiffByte (a ^^^ b), matchCursor, true)
    else extendWords src srcLimit (matchEnd + 8) (matchCursor + 8)
  else (matchEnd, matchCursor, false)
termination_by srcLimit - matchEnd

def extendBytes (src : Nat → UInt8) (srcLimit matchEnd matchCursor : Nat) : Nat :=
  if matchEnd < srcLimit ∧ src matchEnd = src matchCursor then
    extendBytes src srcLimit (matchEnd + 1) (matchCursor + 1)
  else matchEnd
termination_by srcLimit - matchEnd

def extendMatch (src : Nat → UInt8) (srcLimit ip start : Nat) : Nat :=
  match extendWords src srcLimit (ip + lz4MinMatch) (start + lz4MinMatch) with
  | (matchEnd, _, true) => matchEnd
  | (matchEnd, matchCursor, false) => extendBytes src srcLimit matchEnd matchCursor

/-! ## Writing a block -/

structure Writer where
  dst : Nat → UInt8
  op : Nat

def Writer.push (w : Writer) (b : UInt8) : Writer := ⟨store w.dst w.op [b], w.op + 1⟩

def lz4LenBytes (length base : Nat) : Nat :=
  if length < base then 0 else 1 + (length - base) / 255

def writeRem (w : Writer) (rem : Nat) : Writer :=
  if 255 ≤ rem then writeRem (w.push 255) (rem - 255) else w.push (UInt8.ofNat rem)
termination_by rem

def lz4WriteLen (w : Writer) (length base : Nat) : Writer := writeRem w (length - base)

def writeLiterals (src : Nat → UInt8) (oend anchor literalLen : Nat) (w : Writer) : Writer :=
  if literalLen ≤ 8 ∧ 8 ≤ oend - w.op then
    ⟨store w.dst w.op (slice src anchor 8), w.op + literalLen⟩
  else ⟨store w.dst w.op (slice src anchor literalLen), w.op + literalLen⟩

def writeToken (literalLen : Nat) (w : Writer) : Writer :=
  if 15 ≤ literalLen then lz4WriteLen (w.push 0xF0) literalLen 15
  else w.push (UInt8.ofNat (literalLen <<< 4))

def literalsNeeded (literalLen : Nat) : Nat :=
  1 + literalLen + (if 15 ≤ literalLen then lz4LenBytes literalLen 15 else 0)

def sequenceNeeded (literalLen matchToken : Nat) : Nat :=
  literalsNeeded literalLen + 2 + (if 15 ≤ matchToken then lz4LenBytes matchToken 15 else 0)

def writeSequence (src : Nat → UInt8) (oend anchor ip start matchEnd : Nat) (w : Writer) :
    Option Writer :=
  let literalLen := ip - anchor
  let matchToken := matchEnd - ip - lz4MinMatch
  if oend - w.op < sequenceNeeded literalLen matchToken then none
  else
    let token := w.op
    let w := writeToken literalLen w
    let w := if 0 < literalLen then writeLiterals src oend anchor literalLen w else w
    let offset := ip - start
    let w := (w.push (UInt8.ofNat (offset &&& 0xFF))).push (UInt8.ofNat ((offset >>> 8) &&& 0xFF))
    if 15 ≤ matchToken then
      some (lz4WriteLen { w with dst := store w.dst token [w.dst token ||| 0x0F] } matchToken 15)
    else
      some { w with dst := store w.dst token [w.dst token ||| UInt8.ofNat matchToken] }

def writeLast (src : Nat → UInt8) (oend anchor srcEnd : Nat) (w : Writer) : Option Writer :=
  let last := srcEnd - anchor
  if oend - w.op < literalsNeeded last then none
  else
    let w := writeToken last w
    some ⟨store w.dst w.op (slice src anchor last), w.op + last⟩

/-! ## The compressor -/

section

variable {τ : Type} {candidate : τ → Nat → Option Nat} {record : τ → Nat → τ} {srcMf forward : Nat}
  {t t' : τ} {s : Stride} {ip start : Nat}

theorem searchLoop_spec
    (h : searchLoop candidate record srcMf t forward s = (t', some (ip, start))) :
    forward ≤ ip ∧ (forward ≤ srcMf → ip ≤ srcMf) ∧ ∃ t₀, candidate t₀ ip = some start := by
  induction t, forward, s using searchLoop.induct candidate record srcMf with
  | case1 t forward s start' hcandidate =>
    rw [searchLoop, hcandidate] at h
    cases h
    exact ⟨Nat.le_refl _, id, t, hcandidate⟩
  | case2 t forward s hnone hle ih =>
    rw [searchLoop, hnone] at h
    simp only [if_pos hle] at h
    obtain ⟨hfrom, hto, hfound⟩ := ih h
    exact ⟨Nat.le_trans (Nat.le_add_right _ _) hfrom, fun _ => hto hle, hfound⟩
  | case3 t forward s hnone hgt =>
    rw [searchLoop, hnone] at h
    simp only [if_neg hgt] at h
    cases h

end

theorem le_extendWords (src : Nat → UInt8) (srcLimit matchEnd matchCursor : Nat) :
    matchEnd ≤ (extendWords src srcLimit matchEnd matchCursor).1 := by
  induction matchEnd, matchCursor using extendWords.induct src srcLimit with
  | case1 matchEnd matchCursor hle a b hne =>
    rw [extendWords, if_pos hle, if_pos hne]
    exact Nat.le_add_right _ _
  | case2 matchEnd matchCursor hle a b heq ih =>
    rw [extendWords, if_pos hle, if_neg heq]
    exact Nat.le_trans (Nat.le_add_right _ _) ih
  | case3 matchEnd matchCursor hgt =>
    rw [extendWords, if_neg hgt]

theorem le_extendBytes (src : Nat → UInt8) (srcLimit matchEnd matchCursor : Nat) :
    matchEnd ≤ extendBytes src srcLimit matchEnd matchCursor := by
  induction matchEnd, matchCursor using extendBytes.induct src srcLimit with
  | case1 matchEnd matchCursor heq ih =>
    rw [extendBytes, if_pos heq]
    exact Nat.le_trans (Nat.le_add_right _ _) ih
  | case2 matchEnd matchCursor hne =>
    rw [extendBytes, if_neg hne]

theorem le_extendMatch (src : Nat → UInt8) (srcLimit ip start : Nat) :
    ip + lz4MinMatch ≤ extendMatch src srcLimit ip start := by
  have hwords := le_extendWords src srcLimit (ip + lz4MinMatch) (start + lz4MinMatch)
  rw [extendMatch]
  split
  next heq =>
    rw [heq] at hwords
    exact hwords
  next heq =>
    rw [heq] at hwords
    exact Nat.le_trans hwords (le_extendBytes _ _ _ _)

def compressLoop (src : Nat → UInt8) (srcEnd oend : Nat) (t : HashTable) (ip anchor : Nat)
    (w : Writer) : HashTable × Writer × Option Nat :=
  match _h : findMatch src (srcEnd - lz4MfLimit) t ip with
  | (t, none) => (t, w, some anchor)
  | (t, some (forward, start)) =>
    let t := fillTable src (srcEnd - lz4MfLimit) t ip forward
    let matchEnd := extendMatch src (srcEnd - lz4LastLiterals) forward start
    match writeSequence src oend anchor forward start matchEnd w with
    | none => (t, w, none)
    | some w =>
      if srcEnd - lz4MfLimit < matchEnd then (t, w, some matchEnd)
      else compressLoop src srcEnd oend t matchEnd matchEnd w
termination_by srcEnd - lz4MfLimit - ip
decreasing_by
  have hfound := (searchLoop_spec _h).1
  have hmatch := le_extendMatch src (srcEnd - lz4LastLiterals) forward start
  rw [lz4MinMatch] at hmatch
  omega

def lz4CompressDefault (t : HashTable) (src dst : Nat → UInt8) (srcSize dstCapacity : Int) :
    HashTable × Nat × (Nat → UInt8) :=
  if srcSize < lz4MinCinput ∨ dstCapacity ≤ 0 then (t, 0, dst)
  else
    let srcEnd := srcSize.toNat
    let oend := dstCapacity.toNat
    let t := HashTable.record src (t.renew srcEnd) 0
    match compressLoop src srcEnd oend t 1 0 ⟨dst, 0⟩ with
    | (t, w, none) => (t, 0, w.dst)
    | (t, w, some anchor) =>
      match writeLast src oend anchor srcEnd w with
      | none => (t, 0, w.dst)
      | some w => (t, w.op, w.dst)

def lz4MaxInputSize : Int := 0x7E000000

def lz4CompressBound (inputSize : Int) : Int :=
  if inputSize < 0 ∨ inputSize > lz4MaxInputSize then 0 else inputSize + inputSize / 255 + 16

def lz4Block (t : HashTable) (scratch : Nat → UInt8) (bytes : List UInt8) : List UInt8 :=
  let r := lz4CompressDefault t (atZero bytes) scratch bytes.length (lz4CompressBound bytes.length)
  slice r.2.2 0 r.2.1

end MemDbg.Util
