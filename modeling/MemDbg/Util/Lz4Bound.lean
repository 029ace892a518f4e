import MemDbg.Util.Lz4Encode

/-!
# The bound on a block

A sequence spends at most three bytes and the bytes that extend its lengths besides its
literals, and a match stands for four bytes at least.  So what is written exceeds what it
stands for by one byte in 255, and a buffer of `lz4_compress_bound` bytes is never full.
-/

namespace MemDbg.Util

open Lib

variable {src : Nat → UInt8}

/-! ## Room -/

theorem op_writeRem (w : Writer) (rem : Nat) : (writeRem w rem).op = w.op + (1 + rem / 255) := by
  have h := congrArg List.length (bytes_writeRem w rem)
  rw [List.length_append, List.length_append, List.length_replicate, Writer.length_bytes,
    Writer.length_bytes, List.length_singleton, Nat.add_comm (rem / 255)] at h
  exact h

theorem lz4LenBytes_of_le {length base : Nat} (h : base ≤ length) :
    lz4LenBytes length base = 1 + (length - base) / 255 :=
  if_neg (Nat.not_lt.mpr h)

theorem op_lz4WriteLen (w : Writer) {length base : Nat} (h : base ≤ length) :
    (lz4WriteLen w length base).op = w.op + lz4LenBytes length base := by
  rw [lz4LenBytes_of_le h, lz4WriteLen, op_writeRem]

theorem op_writeToken (literalLen : Nat) (w : Writer) :
    (writeToken literalLen w).op + literalLen = w.op + literalsNeeded literalLen := by
  rw [writeToken, literalsNeeded]
  split
  next h =>
    rw [op_lz4WriteLen _ h, Writer.push]
    dsimp only
    omega
  next =>
    rw [Writer.push]
    dsimp only
    omega

theorem op_writeLiterals (src : Nat → UInt8) (oend anchor literalLen : Nat) (w : Writer) :
    (writeLiterals src oend anchor literalLen w).op = w.op + literalLen := by
  rw [writeLiterals]
  split <;> rfl

theorem op_writeSequence (src : Nat → UInt8) (start : Nat) {oend anchor ip matchEnd : Nat}
    {w : Writer}
    (h : w.op + sequenceNeeded (ip - anchor) (matchEnd - ip - lz4MinMatch) ≤ oend) :
    ∃ w', writeSequence src oend anchor ip start matchEnd w = some w' ∧
      w'.op = w.op + sequenceNeeded (ip - anchor) (matchEnd - ip - lz4MinMatch) := by
  have hroom : ¬ oend - w.op < sequenceNeeded (ip - anchor) (matchEnd - ip - lz4MinMatch) := by
    omega
  have htoken := op_writeToken (ip - anchor) w
  have hlits : (if 0 < ip - anchor then
      writeLiterals src oend anchor (ip - anchor) (writeToken (ip - anchor) w)
      else writeToken (ip - anchor) w).op = w.op + literalsNeeded (ip - anchor) := by
    split
    next => rw [op_writeLiterals, htoken]
    next hzero =>
      rwa [Nat.eq_zero_of_not_pos hzero] at htoken ⊢
  rw [writeSequence]
  dsimp only
  rw [if_neg hroom, sequenceNeeded]
  split
  next hlong =>
    refine ⟨_, rfl, ?_⟩
    rw [op_lz4WriteLen _ hlong, Writer.push, Writer.push]
    dsimp only
    rw [hlits, Nat.add_assoc (literalsNeeded _) 2, ← Nat.add_assoc _ (literalsNeeded _)]
    omega
  next =>
    refine ⟨_, rfl, ?_⟩
    rw [Writer.push, Writer.push]
    dsimp only
    rw [hlits]
    omega

theorem op_writeLast (src : Nat → UInt8) {oend anchor srcEnd : Nat} {w : Writer}
    (h : w.op + literalsNeeded (srcEnd - anchor) ≤ oend) :
    ∃ w', writeLast src oend anchor srcEnd w = some w' ∧
      w'.op = w.op + literalsNeeded (srcEnd - anchor) := by
  have hroom : ¬ oend - w.op < literalsNeeded (srcEnd - anchor) := by
    omega
  rw [writeLast]
  rw [if_neg hroom]
  exact ⟨_, rfl, op_writeToken (srcEnd - anchor) w⟩

/-! ## What is spent -/

theorem extension_le (length : Nat) :
    255 * (if 15 ≤ length then lz4LenBytes length 15 else 0) ≤ length + 240 := by
  split
  next h =>
    rw [lz4LenBytes_of_le h]
    omega
  next => omega

def Spent (anchor : Nat) (w : Writer) : Prop :=
  255 * w.op ≤ 256 * anchor

theorem Spent.sequence {anchor ip matchEnd : Nat} {w w' : Writer} (h : Spent anchor w)
    (hanchor : anchor ≤ ip) (hmatch : ip + lz4MinMatch ≤ matchEnd)
    (hop : w'.op = w.op + sequenceNeeded (ip - anchor) (matchEnd - ip - lz4MinMatch)) :
    Spent matchEnd w' := by
  have hlits := extension_le (ip - anchor)
  have hlen := extension_le (matchEnd - ip - lz4MinMatch)
  rw [Spent] at h ⊢
  rw [lz4MinMatch] at hmatch hlen hop
  rw [sequenceNeeded, literalsNeeded] at hop
  -- A match too short for a longer length has no such bytes.
  omega

theorem Spent.found {srcEnd oend ip anchor forward start : Nat} {t t' : HashTable} {w : Writer}
    (h : Spent anchor w) (hanchor : anchor ≤ ip) (hip : ip ≤ srcEnd - lz4MfLimit)
    (hend : lz4MfLimit ≤ srcEnd) (hroom : 256 * srcEnd ≤ 255 * oend)
    (hfind : findMatch src (srcEnd - lz4MfLimit) t ip = (t', some (forward, start))) :
    ∃ w', writeSequence src oend anchor forward start
        (extendMatch src (srcEnd - lz4LastLiterals) forward start) w = some w' ∧
      Spent (extendMatch src (srcEnd - lz4LastLiterals) forward start) w' ∧
      extendMatch src (srcEnd - lz4LastLiterals) forward start ≤ srcEnd := by
  obtain ⟨hle, -⟩ := extendMatch_of_found hip hend hfind
  obtain ⟨hfrom, -, -⟩ := searchLoop_spec hfind
  have hmatch := le_extendMatch src (srcEnd - lz4LastLiterals) forward start
  have hspent : Spent (extendMatch src (srcEnd - lz4LastLiterals) forward start)
      ⟨w.dst, w.op + sequenceNeeded (forward - anchor)
        (extendMatch src (srcEnd - lz4LastLiterals) forward start - forward - lz4MinMatch)⟩ :=
    h.sequence (Nat.le_trans hanchor hfrom) hmatch rfl
  have hle' := Nat.le_trans hle (Nat.sub_le srcEnd lz4LastLiterals)
  have hfits : w.op + sequenceNeeded (forward - anchor)
      (extendMatch src (srcEnd - lz4LastLiterals) forward start - forward - lz4MinMatch)
        ≤ oend := by
    rw [Spent] at hspent
    dsimp only at hspent
    omega
  obtain ⟨w', hwrite, hop⟩ := op_writeSequence src start hfits
  exact ⟨w', hwrite, h.sequence (Nat.le_trans hanchor hfrom) hmatch hop, hle'⟩

theorem compressLoop_spent (src : Nat → UInt8) (t : HashTable) {srcEnd oend ip anchor : Nat}
    {w : Writer}
    (h : Spent anchor w) (hanchor : anchor ≤ ip) (hip : ip ≤ srcEnd - lz4MfLimit)
    (hend : lz4MfLimit ≤ srcEnd) (hroom : 256 * srcEnd ≤ 255 * oend) :
    ∃ t' w' anchor', compressLoop src srcEnd oend t ip anchor w = (t', w', some anchor') ∧
      Spent anchor' w' ∧ anchor' ≤ srcEnd := by
  induction t, ip, anchor, w using compressLoop.induct src srcEnd oend with
  | case1 t ip anchor w t₁ hfind =>
    rw [compressLoop, hfind]
    exact ⟨_, _, _, rfl, h, by omega⟩
  | case2 t ip anchor w t₁ forward start hfind matchEnd hfull =>
    obtain ⟨w', hwrite, -, -⟩ := h.found hanchor hip hend hroom hfind
    cases hfull.symm.trans hwrite
  | case3 t ip anchor w t₁ forward start hfind matchEnd w₁ hwrite hlast =>
    obtain ⟨w', hwrite', hspent, hle⟩ := h.found hanchor hip hend hroom hfind
    cases hwrite.symm.trans hwrite'
    rw [compressLoop, hfind]
    dsimp only
    rw [hwrite]
    dsimp only
    rw [if_pos hlast]
    exact ⟨_, _, _, rfl, hspent, hle⟩
  | case4 t ip anchor w t₁ forward start hfind t₂ matchEnd w₁ hwrite hgo ih =>
    obtain ⟨w', hwrite', hspent, hle⟩ := h.found hanchor hip hend hroom hfind
    cases hwrite.symm.trans hwrite'
    rw [compressLoop, hfind]
    dsimp only
    rw [hwrite]
    dsimp only
    rw [if_neg hgo]
    exact ih hspent (Nat.le_refl _) (Nat.not_lt.mp hgo)

theorem Spent.last (src : Nat → UInt8) {srcEnd oend anchor : Nat} {w : Writer}
    (h : Spent anchor w) (hanchor : anchor ≤ srcEnd) (hroom : srcEnd + srcEnd / 255 + 16 ≤ oend) :
    ∃ w', writeLast src oend anchor srcEnd w = some w' ∧ 0 < w'.op ∧
      w'.op ≤ srcEnd + srcEnd / 255 + 16 := by
  have hext := extension_le (srcEnd - anchor)
  rw [Spent] at h
  have hle : w.op + literalsNeeded (srcEnd - anchor) ≤ srcEnd + srcEnd / 255 + 16 := by
    rw [literalsNeeded]
    omega
  obtain ⟨w', hwrite, hop⟩ := op_writeLast src (Nat.le_trans hle hroom)
  refine ⟨w', hwrite, ?_, hop ▸ hle⟩
  rw [hop, literalsNeeded]
  omega

theorem lz4CompressBound_eq {srcSize : Int} (h0 : 0 ≤ srcSize) (hmax : srcSize ≤ lz4MaxInputSize) :
    lz4CompressBound srcSize = srcSize + srcSize / 255 + 16 :=
  if_neg (not_or.mpr ⟨Int.not_lt.mpr h0, Int.not_lt.mpr hmax⟩)

/-- A buffer of `lz4_compress_bound` bytes is enough for every source, whatever the table was
before. -/
theorem lz4CompressBound_sufficient (t : HashTable) (src dst : Nat → UInt8) {srcSize : Int}
    (hmin : 32 ≤ srcSize) (hmax : srcSize ≤ lz4MaxInputSize) :
    0 < (lz4CompressDefault t src dst srcSize (lz4CompressBound srcSize)).2.1 ∧
      ((lz4CompressDefault t src dst srcSize (lz4CompressBound srcSize)).2.1 : Int) ≤
        srcSize + srcSize / 255 + 16 := by
  obtain ⟨n, rfl⟩ := Int.eq_ofNat_of_zero_le (Int.le_trans (by decide) hmin)
  have hbound : lz4CompressBound n = ((n + n / 255 + 16 : Nat) : Int) :=
    lz4CompressBound_eq (Int.natCast_nonneg n) hmax
  have hlarge : ¬ ((n : Int) < lz4MinCinput ∨ ((n + n / 255 + 16 : Nat) : Int) ≤ 0) := by
    rw [lz4MinCinput]
    omega
  have hstart : Spent 0 ⟨dst, 0⟩ := Nat.zero_le _
  have hend : lz4MfLimit ≤ n := by
    rw [lz4MfLimit]
    omega
  have hip : 1 ≤ n - lz4MfLimit := by
    rw [lz4MfLimit]
    omega
  have hroom : 256 * n ≤ 255 * (n + n / 255 + 16) := by omega
  obtain ⟨t', w, anchor, hloop, hspent, hanchor⟩ :=
    compressLoop_spent src (HashTable.record src (t.renew n) 0) hstart
      (Nat.zero_le 1) hip hend hroom
  obtain ⟨w', hlast, hpos, hle⟩ := hspent.last src hanchor (Nat.le_refl _)
  have hle' : (w'.op : Int) ≤ (n : Int) + n / 255 + 16 := by omega
  rw [hbound, lz4CompressDefault, if_neg hlarge]
  dsimp only [Int.toNat_natCast]
  rw [hloop]
  dsimp only
  rw [hlast]
  exact ⟨hpos, hle'⟩

theorem lz4CompressBound_sufficient_largest :
    0 < (lz4CompressDefault ⟨id, 4095⟩ (fun _ => 0) (fun _ => 1) 0x7E000000
        (lz4CompressBound 0x7E000000)).2.1 ∧
      ((lz4CompressDefault ⟨id, 4095⟩ (fun _ => 0) (fun _ => 1) 0x7E000000
        (lz4CompressBound 0x7E000000)).2.1 : Int) ≤ 0x7E000000 + 0x7E000000 / 255 + 16 :=
  lz4CompressBound_sufficient ⟨id, 4095⟩ (fun _ => 0) (fun _ => 1) (by decide) (by decide)

end MemDbg.Util
