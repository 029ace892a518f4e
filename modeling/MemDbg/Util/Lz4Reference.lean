import MemDbg.Util.Lz4Decode

/-!
# The decompressor and the block format

`lz4_decompress_safe` keeps its lengths in 32 bits, and compares them with what is left of
its buffers only when they have been read to the end.  No access lies outside of the
buffers for that.  But a run that extends a length to 2^32 is taken for a short one: what is
returned then is no reading of the block.
-/

namespace MemDbg.Util

open List Lib

/-! ## Accesses -/

inductive Lz4Access where
  | readSrc (off len : Nat)
  | readDst (off : Int) (len : Nat)
  | writeDst (off len : Nat)

def Lz4Access.Inside (iend oend : Nat) : Lz4Access → Prop
  | readSrc off len => off + len ≤ iend
  | readDst off len => 0 ≤ off ∧ off + len ≤ oend
  | writeDst off len => off + len ≤ oend

def readLenAccesses (src : Nat → UInt8) (iend ip : Nat) : List Lz4Access :=
  if iend ≤ ip then []
  else if src ip = 255 then .readSrc ip 1 :: readLenAccesses src iend (ip + 1)
  else [.readSrc ip 1]
termination_by iend - ip

def readLengthAccesses (src : Nat → UInt8) (iend ip half : Nat) : List Lz4Access :=
  if half = 15 then readLenAccesses src iend ip else []

def copyBytesAccesses (op : Nat) (start : Int) : Nat → List Lz4Access
  | 0 => []
  | matchLen + 1 =>
    .readDst start 1 :: .writeDst op 1 :: copyBytesAccesses (op + 1) (start + 1) matchLen

def copyWordsAccesses (op : Nat) (start : Int) (matchLen : Nat) : List Lz4Access :=
  if 8 ≤ matchLen then
    .readDst start 8 :: .writeDst op 8 :: copyWordsAccesses (op + 8) (start + 8) (matchLen - 8)
  else copyBytesAccesses op start matchLen
termination_by matchLen

def copyMatchAccesses (op offset matchLen : Nat) : List Lz4Access :=
  let start : Int := op - offset
  if 8 ≤ offset then copyWordsAccesses op start matchLen
  else if offset = 1 then [.readDst start 1, .writeDst op matchLen]
  else copyBytesAccesses op start matchLen

def decompressMatchAccesses (src : Nat → UInt8) (iend oend token ip op : Nat) : List Lz4Access :=
  if iend ≤ ip then []
  else if iend - ip < 2 then []
  else
    .readSrc ip 1 :: .readSrc (ip + 1) 1 ::
      let offset := (src ip).toNat ||| (src (ip + 1)).toNat <<< 8
      if offset = 0 ∨ op < offset then []
      else
        readLengthAccesses src iend (ip + 2) (token &&& 0x0F) ++
          match readLength src iend (ip + 2) (token &&& 0x0F) ((token &&& 0x0F) + lz4MinMatch) with
          | none => []
          | some (matchLen, _) =>
            if oend - op < matchLen then [] else copyMatchAccesses op offset matchLen

def decompressPassAccesses (src : Nat → UInt8) (iend oend ip op : Nat) : List Lz4Access :=
  if iend ≤ ip then []
  else
    let token := (src ip).toNat
    .readSrc ip 1 :: (readLengthAccesses src iend (ip + 1) (token >>> 4) ++
      match readLength src iend (ip + 1) (token >>> 4) (token >>> 4) with
      | none => []
      | some (litLen, ip) =>
        if iend - ip < litLen ∨ oend - op < litLen then []
        else .readSrc ip litLen :: .writeDst op litLen ::
          decompressMatchAccesses src iend oend token (ip + litLen) (op + litLen))

def decompressLoopAccesses (src : Nat → UInt8) (iend oend ip op : Nat) (dst : Nat → UInt8) :
    List Lz4Access :=
  decompressPassAccesses src iend oend ip op ++
    match _h : decompressPass src iend oend ip op dst with
    | .done _ _ => []
    | .again ip op dst => decompressLoopAccesses src iend oend ip op dst
termination_by iend - ip
decreasing_by
  obtain ⟨ext, lits, n, o₁, o₂, ext', len, -, hip, hle, -⟩ := decompressPass_again _h
  rw [length_cons] at hip
  omega

def lz4DecompressSafeAccesses (src dst : Nat → UInt8) (compressedSize dstCapacity : Int) :
    List Lz4Access :=
  if compressedSize < 0 ∨ dstCapacity < 0 then []
  else decompressLoopAccesses src compressedSize.toNat dstCapacity.toNat 0 0 dst

section

variable {src dst : Nat → UInt8} {iend oend token ip op half len : Nat}

theorem readLenAccesses_inside (src : Nat → UInt8) (iend oend ip : Nat) :
    ∀ a ∈ readLenAccesses src iend ip, a.Inside iend oend := by
  induction ip using readLenAccesses.induct src iend with
  | case1 ip hend =>
    rw [readLenAccesses, if_pos hend]
    exact fun a ha => absurd ha not_mem_nil
  | case2 ip hin hmore ih =>
    rw [readLenAccesses, if_neg hin, if_pos hmore, forall_mem_cons]
    exact ⟨Nat.not_le.mp hin, ih⟩
  | case3 ip hin hlast =>
    rw [readLenAccesses, if_neg hin, if_neg hlast, forall_mem_singleton]
    exact Nat.not_le.mp hin

theorem readLengthAccesses_inside (src : Nat → UInt8) (iend oend ip half : Nat) :
    ∀ a ∈ readLengthAccesses src iend ip half, a.Inside iend oend := by
  rw [readLengthAccesses]
  split
  next => exact readLenAccesses_inside src iend oend ip
  next => exact fun a ha => absurd ha not_mem_nil

theorem copyBytesAccesses_inside {start : Int} {n : Nat} (hstart : 0 ≤ start) (hle : start ≤ op)
    (hroom : op + n ≤ oend) : ∀ a ∈ copyBytesAccesses op start n, a.Inside iend oend := by
  induction n generalizing op start with
  | zero => exact fun a ha => absurd ha not_mem_nil
  | succ n ih =>
    rw [copyBytesAccesses, forall_mem_cons, forall_mem_cons]
    refine ⟨⟨hstart, by omega⟩, ?_, ih (by omega) (by omega) (by omega)⟩
    rw [Lz4Access.Inside]
    omega

theorem copyWordsAccesses_inside {start : Int} {n : Nat} (hstart : 0 ≤ start) (hle : start ≤ op)
    (hroom : op + n ≤ oend) : ∀ a ∈ copyWordsAccesses op start n, a.Inside iend oend := by
  induction op, start, n using copyWordsAccesses.induct with
  | case1 op start n hge ih =>
    rw [copyWordsAccesses, if_pos hge, forall_mem_cons, forall_mem_cons]
    refine ⟨⟨hstart, by omega⟩, ?_, ih (by omega) (by omega) (by omega)⟩
    rw [Lz4Access.Inside]
    omega
  | case2 op start n hlt =>
    rw [copyWordsAccesses, if_neg hlt]
    exact copyBytesAccesses_inside hstart hle hroom

theorem copyMatchAccesses_inside {offset n : Nat} (hpos : 0 < offset) (hle : offset ≤ op)
    (hroom : op + n ≤ oend) : ∀ a ∈ copyMatchAccesses op offset n, a.Inside iend oend := by
  have hstart : (0 : Int) ≤ op - offset := by omega
  have hstart' : (op : Int) - offset ≤ op := by omega
  rw [copyMatchAccesses]
  split
  next => exact copyWordsAccesses_inside hstart hstart' hroom
  next =>
    split
    next =>
      rw [forall_mem_cons, forall_mem_singleton]
      exact ⟨⟨hstart, by omega⟩, hroom⟩
    next => exact copyBytesAccesses_inside hstart hstart' hroom

theorem decompressMatchAccesses_inside (hop : op ≤ oend) :
    ∀ a ∈ decompressMatchAccesses src iend oend token ip op, a.Inside iend oend := by
  rw [decompressMatchAccesses]
  split
  next => exact fun a ha => absurd ha not_mem_nil
  next =>
  split
  next => exact fun a ha => absurd ha not_mem_nil
  next hin htwo =>
  rw [forall_mem_cons, forall_mem_cons]
  refine ⟨show ip + 1 ≤ iend by omega, show ip + 1 + 1 ≤ iend by omega, ?_⟩
  dsimp only
  split
  next => exact fun a ha => absurd ha not_mem_nil
  next hoff =>
  rw [not_or] at hoff
  rw [forall_mem_append]
  refine ⟨readLengthAccesses_inside _ _ _ _ _, ?_⟩
  split
  next => exact fun a ha => absurd ha not_mem_nil
  next =>
  split
  next => exact fun a ha => absurd ha not_mem_nil
  next hfit =>
    exact copyMatchAccesses_inside (Nat.pos_of_ne_zero hoff.1) (Nat.not_lt.mp hoff.2)
      (Nat.add_le_of_le_sub' hop (Nat.not_lt.mp hfit))

theorem decompressPassAccesses_inside (hop : op ≤ oend) :
    ∀ a ∈ decompressPassAccesses src iend oend ip op, a.Inside iend oend := by
  rw [decompressPassAccesses]
  split
  next => exact fun a ha => absurd ha not_mem_nil
  next hin =>
  rw [forall_mem_cons, forall_mem_append]
  refine ⟨Nat.not_le.mp hin, readLengthAccesses_inside _ _ _ _ _, ?_⟩
  split
  next => exact fun a ha => absurd ha not_mem_nil
  next litLen ip' hlen =>
  split
  next => exact fun a ha => absurd ha not_mem_nil
  next hroom =>
  rw [not_or] at hroom
  have hhalf : (src ip).toNat >>> 4 ≤ 15 := by
    have := (src ip).toNat_lt
    rw [shiftRight_halfByte]
    omega
  obtain ⟨ext, n, -, -, -, hle, -⟩ :=
    (readLength_half_eq_some_iff hhalf (Nat.not_le.mp hin)).mp hlen
  have hop' : op + litLen ≤ oend := Nat.add_le_of_le_sub' hop (Nat.not_lt.mp hroom.2)
  rw [forall_mem_cons, forall_mem_cons]
  exact ⟨Nat.add_le_of_le_sub' hle (Nat.not_lt.mp hroom.1), hop',
    decompressMatchAccesses_inside hop'⟩

theorem decompressLoopAccesses_inside (hop : op ≤ oend) :
    ∀ a ∈ decompressLoopAccesses src iend oend ip op dst, a.Inside iend oend := by
  induction ip, op, dst using decompressLoop.induct src iend oend with
  | case1 ip op dst r dst' hpass =>
    rw [decompressLoopAccesses, hpass, append_nil]
    exact decompressPassAccesses_inside hop
  | case2 ip op dst ip' op' dst' hpass ih =>
    obtain ⟨_, _, _, _, _, _, _, -, -, -, -, -, -, -, -, hfit, -⟩ := decompressPass_again hpass
    rw [decompressLoopAccesses, hpass, forall_mem_append]
    exact ⟨decompressPassAccesses_inside hop, ih (hfit hop)⟩

end

theorem lz4DecompressSafeAccesses_inside (src dst : Nat → UInt8)
    (compressedSize dstCapacity : Int) :
    ∀ a ∈ lz4DecompressSafeAccesses src dst compressedSize dstCapacity,
      a.Inside compressedSize.toNat dstCapacity.toNat := by
  rw [lz4DecompressSafeAccesses]
  split
  next => exact fun a ha => absurd ha not_mem_nil
  next => exact decompressLoopAccesses_inside (Nat.zero_le _)

/-! ## What is written -/

def SameFrom (oend : Nat) (dst dst' : Nat → UInt8) : Prop :=
  ∀ i, oend ≤ i → dst' i = dst i

section

variable {src dst dst₁ dst₂ : Nat → UInt8} {iend oend token ip op start : Nat}

theorem SameFrom.refl (oend : Nat) (dst : Nat → UInt8) : SameFrom oend dst dst :=
  fun _ _ => rfl

theorem SameFrom.trans (h : SameFrom oend dst dst₁) (h' : SameFrom oend dst₁ dst₂) :
    SameFrom oend dst dst₂ :=
  fun i hi => (h' i hi).trans (h i hi)

theorem sameFrom_store (dst : Nat → UInt8) {data : List UInt8} (h : op + data.length ≤ oend) :
    SameFrom oend dst (store dst op data) := by
  intro i hi
  refine if_neg fun hin => ?_
  omega

theorem copyBytes_sameFrom {n : Nat} (h : op + n ≤ oend) :
    SameFrom oend dst (copyBytes dst op start n) := by
  induction n generalizing dst op start with
  | zero => exact .refl oend dst
  | succ n ih =>
    have hone : op + [dst start].length ≤ oend := by
      rw [length_singleton]
      omega
    exact (sameFrom_store dst hone).trans (ih (by omega))

theorem copyWords_sameFrom {n : Nat} (h : op + n ≤ oend) :
    SameFrom oend dst (copyWords dst op start n) := by
  induction dst, op, start, n using copyWords.induct with
  | case1 dst op start n hge ih =>
    have hword : op + (slice dst start 8).length ≤ oend := by
      rw [length_slice]
      omega
    rw [copyWords, if_pos hge]
    exact (sameFrom_store dst hword).trans (ih (by omega))
  | case2 dst op start n hlt =>
    rw [copyWords, if_neg hlt]
    exact copyBytes_sameFrom h

theorem copyMatch_sameFrom {offset n : Nat} (h : op + n ≤ oend) :
    SameFrom oend dst (copyMatch dst op offset n) := by
  rw [copyMatch]
  split
  next => exact copyWords_sameFrom h
  next =>
    split
    next => exact sameFrom_store dst (by rwa [length_replicate])
    next => exact copyBytes_sameFrom h

def Pass.output : Pass → Nat → UInt8
  | .done _ dst => dst
  | .again _ _ dst => dst

theorem decompressMatch_sameFrom (hop : op ≤ oend) :
    SameFrom oend dst (decompressMatch src iend oend token ip op dst).output := by
  rw [decompressMatch]
  split
  next => exact .refl oend dst
  next =>
  split
  next => exact .refl oend dst
  next =>
  dsimp only
  split
  next => exact .refl oend dst
  next =>
  split
  next => exact .refl oend dst
  next =>
  split
  next => exact .refl oend dst
  next hfit => exact copyMatch_sameFrom (Nat.add_le_of_le_sub' hop (Nat.not_lt.mp hfit))

theorem decompressPass_sameFrom (hop : op ≤ oend) :
    SameFrom oend dst (decompressPass src iend oend ip op dst).output := by
  rw [decompressPass]
  split
  next => exact .refl oend dst
  next =>
  dsimp only
  split
  next => exact .refl oend dst
  next litLen ip' hlen =>
  split
  next => exact .refl oend dst
  next hroom =>
  rw [not_or] at hroom
  have hop' : op + litLen ≤ oend := Nat.add_le_of_le_sub' hop (Nat.not_lt.mp hroom.2)
  have hlits : op + (slice src ip' litLen).length ≤ oend := by rwa [length_slice]
  exact (sameFrom_store dst hlits).trans (decompressMatch_sameFrom hop')

theorem decompressLoop_sameFrom (hop : op ≤ oend) :
    SameFrom oend dst (decompressLoop src iend oend ip op dst).2 := by
  induction ip, op, dst using decompressLoop.induct src iend oend with
  | case1 ip op dst r dst' hpass =>
    have hsame := @decompressPass_sameFrom src dst iend oend ip op hop
    rw [hpass] at hsame
    rw [decompressLoop_done hpass]
    exact hsame
  | case2 ip op dst ip' op' dst' hpass ih =>
    obtain ⟨_, _, _, _, _, _, _, -, -, -, -, -, -, -, -, hfit, -⟩ := decompressPass_again hpass
    have hsame := @decompressPass_sameFrom src dst iend oend ip op hop
    rw [hpass] at hsame
    rw [decompressLoop_again hpass]
    exact hsame.trans (ih (hfit hop))

end

/-! ## What is returned -/

theorem decompressMatch_neg {src dst dst' : Nat → UInt8} {iend oend token ip op : Nat} {r : Int}
    (h : decompressMatch src iend oend token ip op dst = .done r dst') : r = op ∨ r = -1 := by
  rw [decompressMatch] at h
  split at h
  next => cases h; exact .inl rfl
  next =>
  split at h
  next => cases h; exact .inr rfl
  next =>
  dsimp only at h
  split at h
  next => cases h; exact .inr rfl
  next =>
  split at h
  next => cases h; exact .inr rfl
  next =>
  split at h
  next => cases h; exact .inr rfl
  next => cases h

theorem decompressPass_result {src dst dst' : Nat → UInt8} {iend oend ip op : Nat} {r : Int}
    (h : decompressPass src iend oend ip op dst = .done r dst') : 0 ≤ r ∨ r = -1 := by
  rw [decompressPass] at h
  split at h
  next => cases h; exact .inl (Int.natCast_nonneg op)
  next =>
  dsimp only at h
  split at h
  next => cases h; exact .inr rfl
  next =>
  split at h
  next => cases h; exact .inr rfl
  next litLen _ _ _ =>
    rcases decompressMatch_neg h with rfl | rfl
    · exact .inl (Int.natCast_nonneg _)
    · exact .inr rfl

theorem decompressLoop_result (src : Nat → UInt8) (iend oend ip op : Nat) (dst : Nat → UInt8) :
    0 ≤ (decompressLoop src iend oend ip op dst).1 ∨
      (decompressLoop src iend oend ip op dst).1 = -1 := by
  induction ip, op, dst using decompressLoop.induct src iend oend with
  | case1 ip op dst r dst' hpass =>
    rw [decompressLoop_done hpass]
    exact decompressPass_result hpass
  | case2 ip op dst ip' op' dst' hpass ih =>
    rw [decompressLoop_again hpass]
    exact ih

/-- The decompressor does what the block format says: no access lies outside of the `n` bytes of
the block or of the buffer, and what is returned is the code for a malformed block, or the length
of what the block decodes to, which the buffer holds. -/
structure FollowsReference (src dst : Nat → UInt8) (n : Nat) (dstCapacity : Int) : Prop where
  inside : ∀ a ∈ lz4DecompressSafeAccesses src dst n dstCapacity, a.Inside n dstCapacity.toNat
  untouched : SameFrom dstCapacity.toNat dst (lz4DecompressSafe src dst n dstCapacity).2
  result : (lz4DecompressSafe src dst n dstCapacity).1 = -1 ∨
    ∃ final, Decodes [] (slice src 0 n) final ∧
      (lz4DecompressSafe src dst n dstCapacity).1 = final.length ∧
      slice (lz4DecompressSafe src dst n dstCapacity).2 0 final.length = final

/-- The block, read with its lengths wrapped to 32 bits, is malformed, or too long for the
buffer, or no length stands in it that is wrapped. -/
def NoLengthWraps (src : Nat → UInt8) (n room : Nat) : Prop :=
  ∀ lens, BlockLengths wrap32 room 0 (slice src 0 n) lens → ∀ l ∈ lens, l < 2 ^ 32

theorem followsReference_of_noLengthWraps {src dst : Nat → UInt8} {n : Nat} {dstCapacity : Int}
    (h : dstCapacity < 0 ∨ NoLengthWraps src n dstCapacity.toNat) :
    FollowsReference src dst n dstCapacity := by
  refine ⟨lz4DecompressSafeAccesses_inside src dst n dstCapacity, ?_, ?_⟩
  · rw [lz4DecompressSafe]
    split
    next => exact .refl _ dst
    next => exact decompressLoop_sameFrom (Nat.zero_le _)
  · rcases h with hneg | h
    · rw [lz4DecompressSafe_of_neg hneg]
      exact .inl rfl
    rw [lz4DecompressSafe]
    split
    next => exact .inl rfl
    next hsize =>
    rw [Int.toNat_natCast]
    generalize hrun : decompressLoop src n dstCapacity.toNat 0 0 dst = run
    have hresult := decompressLoop_result src n dstCapacity.toNat 0 0 dst
    obtain ⟨r, dst'⟩ := run
    rw [hrun] at hresult
    refine hresult.symm.imp_right fun hr => ?_
    obtain ⟨lens, hlengths, -, hdecodes⟩ := decompressLoop_lengths (Nat.zero_le _) hrun hr
    exact hdecodes (h lens hlengths)

theorem FollowsReference.noLengthWraps {src dst : Nat → UInt8} {n : Nat} {dstCapacity : Int}
    (h : FollowsReference src dst n dstCapacity) (hcap : dstCapacity < 2 ^ 31)
    (hpos : 0 ≤ dstCapacity) : NoLengthWraps src n dstCapacity.toNat := by
  intro lens hlengths
  have hloop : lz4DecompressSafe src dst n dstCapacity =
      decompressLoop src n dstCapacity.toNat 0 0 dst := by
    rw [lz4DecompressSafe, if_neg (by omega), Int.toNat_natCast]
  have hend : 0 + (slice src 0 n).length = n := by
    rw [length_slice, Nat.zero_add]
  have hr := @decompressLoop_of_lengths dst src n dstCapacity.toNat 0 0 _ lens hlengths
    (hasBytes_slice src 0 n) hend
  obtain ⟨-, -, hle, -⟩ := decompressLoop_lengths (Nat.zero_le _) (Prod.mk.eta (p :=
    decompressLoop src n dstCapacity.toNat 0 0 dst)).symm hr
  have hresult := h.result
  rw [hloop] at hresult
  rcases hresult with hneg | ⟨final, hdecodes, hlen, -⟩
  · omega
  · exact hlengths.lt_of_decodes hdecodes (fun m hm => wrap32_of_lt hm) (by omega)

/-- The decompressor does what the block format says, except on a block that is taken for one
with a shorter length. -/
theorem followsReference_iff (src dst : Nat → UInt8) (n : Nat) {dstCapacity : Int}
    (hcap : dstCapacity < 2 ^ 31) :
    FollowsReference src dst n dstCapacity ↔
      dstCapacity < 0 ∨ NoLengthWraps src n dstCapacity.toNat := by
  refine ⟨fun h => ?_, followsReference_of_noLengthWraps⟩
  rcases Int.lt_or_le dstCapacity 0 with hneg | hpos
  · exact .inl hneg
  · exact .inr (h.noLengthWraps hcap hpos)

theorem followsReference_iff_literals :
    FollowsReference (atZero [0x20, 7, 8]) (fun _ => 0) 3 2 ↔
      (2 : Int) < 0 ∨ NoLengthWraps (atZero [0x20, 7, 8]) 3 2 :=
  followsReference_iff (atZero [0x20, 7, 8]) (fun _ => 0) 3 (by decide)

def longRun : List UInt8 := 0xF0 :: (List.replicate 16843008 255 ++ [UInt8.ofNat 241])

theorem length_longRun : longRun.length = 16843010 := by
  rw [longRun, length_cons, length_append, length_replicate, length_singleton]

theorem longRun_not_followsReference :
    ¬FollowsReference (atZero longRun) (fun _ => 0) 16843010 16 := by
  intro h
  have hext : Extends ((0xF0 : UInt8).toNat / 16) (List.replicate 16843008 255 ++ [UInt8.ofNat 241])
      (15 + 255 * 16843008 + 241) :=
    .long 16843008 (by decide)
  have hlengths : BlockLengths wrap32 16 0 (slice (atZero longRun) 0 16843010)
      [15 + 255 * 16843008 + 241] := by
    rw [← length_longRun, slice_atZero, longRun, ← append_nil (List.replicate _ _ ++ _)]
    exact .last hext (by decide) (by decide)
  have hlt := h.noLengthWraps (by decide) (by decide) _ hlengths _ (mem_singleton_self _)
  exact absurd hlt (by decide)

end MemDbg.Util
