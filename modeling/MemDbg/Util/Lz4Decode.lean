import MemDbg.Util.Lz4Encode

/-!
# What the decompressor reads

The decompressor follows the block format: what it returns is what the block decodes to,
and a block that decodes to something the output buffer has room for is decoded.
-/

namespace MemDbg.Util

open List Lib

/-! ## The decompressor -/

def readLen (src : Nat → UInt8) (iend ip len : Nat) : Option (Nat × Nat) :=
  if iend ≤ ip then none
  else if src ip = 255 then readLen src iend (ip + 1) (wrap32 (len + (src ip).toNat))
  else some (wrap32 (len + (src ip).toNat), ip + 1)
termination_by iend - ip

def readLength (src : Nat → UInt8) (iend ip half len : Nat) : Option (Nat × Nat) :=
  if half = 15 then readLen src iend ip len else some (len, ip)

def copyBytes (dst : Nat → UInt8) (op start : Nat) : Nat → Nat → UInt8
  | 0 => dst
  | matchLen + 1 => copyBytes (store dst op [dst start]) (op + 1) (start + 1) matchLen

def copyWords (dst : Nat → UInt8) (op start matchLen : Nat) : Nat → UInt8 :=
  if 8 ≤ matchLen then copyWords (store dst op (slice dst start 8)) (op + 8) (start + 8)
    (matchLen - 8)
  else copyBytes dst op start matchLen
termination_by matchLen

def copyMatch (dst : Nat → UInt8) (op offset matchLen : Nat) : Nat → UInt8 :=
  let start := op - offset
  if 8 ≤ offset then copyWords dst op start matchLen
  else if offset = 1 then store dst op (List.replicate matchLen (dst start))
  else copyBytes dst op start matchLen

inductive Pass where
  | done (result : Int) (dst : Nat → UInt8)
  | again (ip op : Nat) (dst : Nat → UInt8)

def decompressMatch (src : Nat → UInt8) (iend oend token ip op : Nat) (dst : Nat → UInt8) : Pass :=
  if iend ≤ ip then .done op dst
  else if iend - ip < 2 then .done (-1) dst
  else
    let offset := (src ip).toNat ||| (src (ip + 1)).toNat <<< 8
    if offset = 0 ∨ op < offset then .done (-1) dst
    else
      match readLength src iend (ip + 2) (token &&& 0x0F) ((token &&& 0x0F) + lz4MinMatch) with
      | none => .done (-1) dst
      | some (matchLen, ip) =>
        if oend - op < matchLen then .done (-1) dst
        else .again ip (op + matchLen) (copyMatch dst op offset matchLen)

def decompressPass (src : Nat → UInt8) (iend oend ip op : Nat) (dst : Nat → UInt8) : Pass :=
  if iend ≤ ip then .done op dst
  else
    let token := (src ip).toNat
    match readLength src iend (ip + 1) (token >>> 4) (token >>> 4) with
    | none => .done (-1) dst
    | some (litLen, ip) =>
      if iend - ip < litLen ∨ oend - op < litLen then .done (-1) dst
      else decompressMatch src iend oend token (ip + litLen) (op + litLen)
        (store dst op (slice src ip litLen))

/-! ## Lengths -/

theorem wrap32_more (len k r : Nat) :
    wrap32 (wrap32 (len + 255) + 255 * k + r) = wrap32 (len + 255 * (k + 1) + r) := by
  have hsum : len + 255 * (k + 1) + r = len + 255 + (255 * k + r) := by omega
  rw [Nat.add_assoc, hsum]
  exact Nat.mod_add_mod _ _ _

section

variable {src : Nat → UInt8} {iend ip len len' ip' : Nat}

theorem readLen_eq_some_iff :
    readLen src iend ip len = some (len', ip') ↔ ∃ k r, r < 255 ∧
      HasBytes src ip (List.replicate k 255 ++ [UInt8.ofNat r]) ∧ ip' = ip + (k + 1) ∧ ip' ≤ iend ∧
        len' = wrap32 (len + 255 * k + r) := by
  constructor
  · intro h
    induction ip, len using readLen.induct src iend with
    | case1 ip len hend =>
      rw [readLen, if_pos hend] at h
      cases h
    | case2 ip len hin hmore ih =>
      rw [readLen, if_neg hin, if_pos hmore] at h
      obtain ⟨k, r, hr, hbytes, hip, hle, hlen⟩ := ih h
      refine ⟨k + 1, r, hr, (hasBytes_cons src).mpr ⟨hmore, hbytes⟩, by omega, hle, ?_⟩
      rw [hlen, hmore]
      exact wrap32_more len k r
    | case3 ip len hin hlast =>
      rw [readLen, if_neg hin, if_neg hlast] at h
      cases h
      have hr : (src ip).toNat ≠ 255 := fun h => hlast (UInt8.toNat_inj.mp h)
      have hlt := (src ip).toNat_lt
      refine ⟨0, (src ip).toNat, by omega, ?_, rfl, Nat.not_le.mp hin, rfl⟩
      rw [UInt8.ofNat_toNat]
      exact (hasBytes_cons src).mpr ⟨rfl, hasBytes_nil src _⟩
  · rintro ⟨k, r, hr, hbytes, rfl, hle, rfl⟩
    induction k generalizing ip len with
    | zero =>
      have hbyte := ((hasBytes_cons src).mp hbytes).1
      have hval : (UInt8.ofNat r).toNat = r := UInt8.toNat_ofNat_of_lt' (Nat.lt_succ_of_lt hr)
      have hne : src ip ≠ 255 := fun h => by
        rw [hbyte] at h
        rw [h] at hval
        exact absurd hval.symm (Nat.ne_of_lt hr)
      rw [readLen, if_neg (by omega), if_neg hne, hbyte, hval]
      rfl
    | succ k ih =>
      rw [replicate_succ, cons_append, hasBytes_cons] at hbytes
      have hrest := @ih (ip + 1) (wrap32 (len + 255)) hbytes.2 (by omega)
      have hval : (255 : UInt8).toNat = 255 := rfl
      have hnext : ip + 1 + (k + 1) = ip + (k + 1 + 1) := by omega
      rw [readLen, if_neg (by omega), if_pos hbytes.1, hbytes.1, hval, hrest, wrap32_more, hnext]

theorem readLength_eq_some_iff {half c : Nat} (hhalf : half ≤ 15) (hc : c ≤ 4) (hip : ip ≤ iend) :
    readLength src iend ip half (half + c) = some (len', ip') ↔ ∃ ext n, Extends half ext n ∧
      HasBytes src ip ext ∧ ip' = ip + ext.length ∧ ip' ≤ iend ∧ len' = wrap32 (n + c) := by
  rw [readLength]
  split
  next heq =>
    rw [heq, readLen_eq_some_iff]
    constructor
    · rintro ⟨k, r, hr, hbytes, rfl, hle, rfl⟩
      refine ⟨_, _, .long k hr, hbytes, ?_, hle, congrArg wrap32 (by omega)⟩
      rw [length_append, length_replicate, length_singleton]
    · rintro ⟨ext, n, hext, hbytes, rfl, hle, rfl⟩
      cases hext with
      | short hlt => exact absurd hlt (Nat.lt_irrefl 15)
      | long k hr =>
        rw [length_append, length_replicate, length_singleton] at hle ⊢
        exact ⟨k, _, hr, hbytes, rfl, hle, congrArg wrap32 (by omega)⟩
  next hne =>
    have hwrap : wrap32 (half + c) = half + c := wrap32_of_lt (by omega)
    constructor
    · intro h
      cases h
      exact ⟨[], half, .short (by omega), hasBytes_nil src ip, rfl, hip, hwrap.symm⟩
    · rintro ⟨ext, n, hext, hbytes, rfl, hle, rfl⟩
      cases hext with
      | short hlt => rw [hwrap]; rfl
      | long k hr => exact absurd rfl hne

theorem readLength_half_eq_some_iff {half : Nat} (hhalf : half ≤ 15) (hip : ip ≤ iend) :
    readLength src iend ip half half = some (len', ip') ↔ ∃ ext n, Extends half ext n ∧
      HasBytes src ip ext ∧ ip' = ip + ext.length ∧ ip' ≤ iend ∧ len' = wrap32 n :=
  readLength_eq_some_iff (c := 0) hhalf (Nat.zero_le 4) hip

end

/-! ## Copies -/

variable {dst : Nat → UInt8} {op start offset : Nat}

theorem copyBytes_spec (hstart : start + offset = op) (hpos : 0 < offset) (n : Nat) :
    slice (copyBytes dst op start n) 0 (op + n) = copyBack offset n (slice dst 0 op) := by
  induction n generalizing dst op start with
  | zero => rfl
  | succ n ih =>
    have hnext := slice_store_zero dst op [dst start]
    have hread : (slice dst 0 op).getD (op - offset) 0 = dst start := by
      rw [getD_slice dst (by omega), Nat.zero_add, ← hstart, Nat.add_sub_cancel]
    rw [copyBytes, copyBack, length_slice, hread, Nat.add_comm n 1, ← Nat.add_assoc,
      ih (by omega)]
    exact congrArg _ hnext

theorem copyWords_spec (hstart : start + offset = op) (hoff : 8 ≤ offset) (n : Nat) :
    slice (copyWords dst op start n) 0 (op + n) = copyBack offset n (slice dst 0 op) := by
  induction dst, op, start, n using copyWords.induct with
  | case1 dst op start n hge ih =>
    have hnext := slice_store_zero dst op (slice dst start 8)
    rw [length_slice] at hnext
    have hword : copyBack offset 8 (slice dst 0 op) = slice dst 0 op ++ slice dst start 8 := by
      have hroom : 8 ≤ op - (op - offset) := by omega
      rw [copyBack_of_le hoff (by rw [length_slice]; omega), length_slice, drop_slice,
        take_slice _ hroom, Nat.zero_add, ← hstart, Nat.add_sub_cancel]
    have hn : op + n = op + 8 + (n - 8) := by omega
    rw [copyWords, if_pos hge, hn, ih (by omega), hnext, ← hword, ← copyBack_add,
      Nat.add_sub_cancel' hge]
  | case2 dst op start n hlt =>
    rw [copyWords, if_neg hlt]
    exact copyBytes_spec hstart (by omega) n

theorem copyMatch_spec (hpos : 0 < offset) (hle : offset ≤ op) (n : Nat) :
    slice (copyMatch dst op offset n) 0 (op + n) = copyBack offset n (slice dst 0 op) := by
  have hstart : op - offset + offset = op := Nat.sub_add_cancel hle
  rw [copyMatch]
  split
  next hge => exact copyWords_spec hstart hge n
  next =>
    split
    next hone =>
      have hset := slice_store_zero dst op (List.replicate n (dst (op - offset)))
      rw [length_replicate] at hset
      rw [hset, hone, copyBack_one, length_slice, getD_slice dst (by omega), Nat.zero_add]
    next => exact copyBytes_spec hstart hpos n

/-! ## A pass -/

theorem and_halfByte (n : Nat) : n &&& 0x0F = n % 16 := Nat.and_two_pow_sub_one_eq_mod n 4

theorem shiftRight_halfByte (n : Nat) : n >>> 4 = n / 16 := Nat.shiftRight_eq_div_pow n 4

theorem pairValue_eq (o₁ o₂ : UInt8) : o₁.toNat ||| o₂.toNat <<< 8 = pairValue o₁ o₂ := by
  have h : 2 ^ 8 * o₂.toNat + o₁.toNat = 2 ^ 8 * o₂.toNat ||| o₁.toNat :=
    Nat.two_pow_add_eq_or_of_lt o₁.toNat_lt _
  rw [pairValue, Nat.shiftLeft_eq, Nat.mul_comm, Nat.or_comm, ← h, Nat.add_comm]
  rfl

variable {src : Nat → UInt8} {iend oend token ip : Nat} {b : UInt8}

theorem decompressMatch_again {ip' op' : Nat} {dst' : Nat → UInt8}
    (h : decompressMatch src iend oend token ip op dst = .again ip' op' dst') :
    ∃ o₁ o₂ ext' len, HasBytes src ip (o₁ :: o₂ :: ext') ∧ ip' = ip + 2 + ext'.length ∧
      ip' ≤ iend ∧ 0 < pairValue o₁ o₂ ∧ pairValue o₁ o₂ ≤ op ∧ Extends (token % 16) ext' len ∧
        op' = op + wrap32 (len + 4) ∧ (op ≤ oend → op' ≤ oend) ∧
          slice dst' 0 op' = copyBack (pairValue o₁ o₂) (wrap32 (len + 4)) (slice dst 0 op) := by
  rw [decompressMatch] at h
  split at h
  next => cases h
  split at h
  next => cases h
  next hroom =>
  dsimp only at h
  rw [pairValue_eq, and_halfByte] at h
  split at h
  next => cases h
  next hoff =>
  rw [not_or] at hoff
  split at h
  next => cases h
  next matchLen ip₁ hlen =>
  split at h
  next => cases h
  next hfit =>
  cases h
  have hhalf : token % 16 ≤ 15 := Nat.le_of_lt_succ (Nat.mod_lt _ (by decide))
  obtain ⟨ext', len, hext, hbytes, rfl, hle, rfl⟩ :=
    (readLength_eq_some_iff hhalf (Nat.le_refl 4) (by omega)).mp hlen
  have hpos := Nat.pos_of_ne_zero hoff.1
  have hle' := Nat.not_lt.mp hoff.2
  refine ⟨src ip, src (ip + 1), ext', len, ?_, rfl, hle, hpos, hle', hext, rfl, ?_, ?_⟩
  · exact (hasBytes_cons src).mpr ⟨rfl, (hasBytes_cons src).mpr ⟨rfl, hbytes⟩⟩
  · omega
  · exact copyMatch_spec hpos hle' _

theorem decompressMatch_done {r : Int} {dst' : Nat → UInt8}
    (h : decompressMatch src iend oend token ip op dst = .done r dst') (hr : 0 ≤ r) :
    iend ≤ ip ∧ r = op ∧ dst' = dst := by
  rw [decompressMatch] at h
  split at h
  next hend =>
    cases h
    exact ⟨hend, rfl, rfl⟩
  next =>
  split at h
  next => cases h; cases hr
  dsimp only at h
  split at h
  next => cases h; cases hr
  split at h
  next => cases h; cases hr
  split at h
  next => cases h; cases hr
  next => cases h

theorem decompressMatch_of_hasBytes {o₁ o₂ : UInt8} {ext' : List UInt8} {len : Nat}
    (hbytes : HasBytes src ip (o₁ :: o₂ :: ext')) (hin : ip + 2 + ext'.length ≤ iend)
    (hpos : 0 < pairValue o₁ o₂) (hext : Extends (token % 16) ext' len) :
    decompressMatch src iend oend token ip op dst =
      if op < pairValue o₁ o₂ then .done (-1) dst
      else if oend - op < wrap32 (len + 4) then .done (-1) dst
      else .again (ip + 2 + ext'.length) (op + wrap32 (len + 4))
        (copyMatch dst op (pairValue o₁ o₂) (wrap32 (len + 4))) := by
  rw [hasBytes_cons, hasBytes_cons] at hbytes
  obtain ⟨ho₁, ho₂, hbytes⟩ := hbytes
  have hhalf : token % 16 ≤ 15 := Nat.le_of_lt_succ (Nat.mod_lt _ (by decide))
  have hlen : readLength src iend (ip + 2) (token % 16) (token % 16 + 4) =
      some (wrap32 (len + 4), ip + 2 + ext'.length) :=
    (readLength_eq_some_iff hhalf (Nat.le_refl 4) (by omega)).mpr
      ⟨ext', len, hext, hbytes, rfl, hin, rfl⟩
  rw [decompressMatch, if_neg (by omega), if_neg (by omega)]
  rw [pairValue_eq, and_halfByte, ho₁, ho₂, lz4MinMatch, hlen]
  simp only [or_iff_right hpos.ne']

theorem decompressPass_again {ip' op' : Nat} {dst' : Nat → UInt8}
    (h : decompressPass src iend oend ip op dst = .again ip' op' dst') :
    ∃ ext lits n o₁ o₂ ext' len,
      HasBytes src ip (src ip :: (ext ++ (lits ++ o₁ :: o₂ :: ext'))) ∧
      ip' = ip + (src ip :: (ext ++ (lits ++ o₁ :: o₂ :: ext'))).length ∧ ip' ≤ iend ∧
      Extends ((src ip).toNat / 16) ext n ∧ lits.length = wrap32 n ∧
      0 < pairValue o₁ o₂ ∧ pairValue o₁ o₂ ≤ (slice dst 0 op ++ lits).length ∧
      Extends ((src ip).toNat % 16) ext' len ∧ (op ≤ oend → op' ≤ oend) ∧
      slice dst' 0 op' = copyBack (pairValue o₁ o₂) (wrap32 (len + 4))
        (slice dst 0 op ++ lits) := by
  rw [decompressPass] at h
  split at h
  next => cases h
  next hin =>
  dsimp only at h
  rw [shiftRight_halfByte] at h
  split at h
  next => cases h
  next litLen ip₁ hlen =>
  split at h
  next => cases h
  next hroom =>
  rw [not_or] at hroom
  have hhalf : (src ip).toNat / 16 ≤ 15 := by
    have := (src ip).toNat_lt
    omega
  obtain ⟨ext, n, hext, hbytes, rfl, hle, rfl⟩ :=
    (readLength_half_eq_some_iff hhalf (by omega)).mp hlen
  obtain ⟨o₁, o₂, ext', len, hbytes', rfl, hle', hpos, hoff, hext', rfl, hfit, hcopy⟩ :=
    decompressMatch_again h
  have hlits := slice_store_zero dst op (slice src (ip + 1 + ext.length) (wrap32 n))
  rw [length_slice] at hlits
  refine ⟨ext, slice src (ip + 1 + ext.length) (wrap32 n), n, o₁, o₂, ext', len, ?_, ?_, hle', hext,
    length_slice _ _ _, hpos, ?_, hext', ?_, ?_⟩
  · refine (hasBytes_cons src).mpr ⟨rfl, (hasBytes_append src).mpr ⟨hbytes, ?_⟩⟩
    refine (hasBytes_append src).mpr ⟨hasBytes_slice src _ _, ?_⟩
    rwa [length_slice]
  · simp only [length_cons, length_append, length_slice]
    omega
  · rwa [length_append, length_slice, length_slice]
  · intro hop
    have hroom' : op + wrap32 n ≤ oend := Nat.add_le_of_le_sub' hop (Nat.not_lt.mp hroom.2)
    exact hfit hroom'
  · rw [hcopy]
    exact congrArg _ hlits

theorem decompressPass_done {r : Int} {dst' : Nat → UInt8}
    (h : decompressPass src iend oend ip op dst = .done r dst') (hr : 0 ≤ r) :
    (iend ≤ ip ∧ r = op ∧ dst' = dst) ∨
    ∃ ext lits n, HasBytes src ip (src ip :: (ext ++ lits)) ∧
      ip + (src ip :: (ext ++ lits)).length = iend ∧ Extends ((src ip).toNat / 16) ext n ∧
      lits.length = wrap32 n ∧ r = (op + lits.length : Nat) ∧
      (op ≤ oend → op + lits.length ≤ oend) ∧
      slice dst' 0 (op + lits.length) = slice dst 0 op ++ lits := by
  rw [decompressPass] at h
  split at h
  next hend =>
    cases h
    exact .inl ⟨hend, rfl, rfl⟩
  next hin =>
  dsimp only at h
  rw [shiftRight_halfByte] at h
  split at h
  next => cases h; cases hr
  next litLen ip₁ hlen =>
  split at h
  next => cases h; cases hr
  next hroom =>
  rw [not_or] at hroom
  have hhalf : (src ip).toNat / 16 ≤ 15 := by
    have := (src ip).toNat_lt
    omega
  obtain ⟨ext, n, hext, hbytes, rfl, hle, rfl⟩ :=
    (readLength_half_eq_some_iff hhalf (by omega)).mp hlen
  obtain ⟨hend, rfl, rfl⟩ := decompressMatch_done h hr
  have hlits := slice_store_zero dst op (slice src (ip + 1 + ext.length) (wrap32 n))
  rw [length_slice] at hlits
  refine .inr ⟨ext, slice src (ip + 1 + ext.length) (wrap32 n), n, ?_, ?_, hext,
    length_slice _ _ _, ?_, ?_, ?_⟩
  · exact (hasBytes_cons src).mpr ⟨rfl, (hasBytes_append src).mpr ⟨hbytes, hasBytes_slice src _ _⟩⟩
  · rw [length_cons, length_append, length_slice]
    omega
  · rw [length_slice]
  · rw [length_slice]
    omega
  · rwa [length_slice]

theorem decompressPass_of_hasBytes {ext lits rest : List UInt8} {n : Nat}
    (hbytes : HasBytes src ip (b :: (ext ++ (lits ++ rest))))
    (hin : ip + 1 + ext.length + lits.length ≤ iend) (hext : Extends (b.toNat / 16) ext n)
    (hlits : lits.length = wrap32 n) :
    decompressPass src iend oend ip op dst =
      if oend - op < lits.length then .done (-1) dst
      else decompressMatch src iend oend b.toNat (ip + 1 + ext.length + lits.length)
        (op + lits.length) (store dst op lits) := by
  rw [hasBytes_cons, hasBytes_append, hasBytes_append] at hbytes
  obtain ⟨rfl, hbytes, hslice, -⟩ := hbytes
  have hhalf : (src ip).toNat / 16 ≤ 15 := by
    have := (src ip).toNat_lt
    omega
  have hlen : readLength src iend (ip + 1) ((src ip).toNat / 16) ((src ip).toNat / 16) =
      some (lits.length, ip + 1 + ext.length) :=
    (readLength_half_eq_some_iff hhalf (by omega)).mpr
      ⟨ext, n, hext, hbytes, rfl, by omega, hlits⟩
  have hroom : ¬iend - (ip + 1 + ext.length) < lits.length := by omega
  rw [decompressPass, if_neg (by omega)]
  dsimp only
  rw [shiftRight_halfByte, hlen]
  dsimp only
  rw [hslice]
  simp only [or_iff_right hroom]

/-! ## The loop -/

def decompressLoop (src : Nat → UInt8) (iend oend ip op : Nat) (dst : Nat → UInt8) :
    Int × (Nat → UInt8) :=
  match _h : decompressPass src iend oend ip op dst with
  | .done r dst => (r, dst)
  | .again ip op dst => decompressLoop src iend oend ip op dst
termination_by iend - ip
decreasing_by
  obtain ⟨ext, lits, n, o₁, o₂, ext', len, -, hip, hle, -⟩ := decompressPass_again _h
  rw [length_cons] at hip
  omega

def lz4DecompressSafe (src dst : Nat → UInt8) (compressedSize dstCapacity : Int) :
    Int × (Nat → UInt8) :=
  if compressedSize < 0 ∨ dstCapacity < 0 then (-1, dst)
  else decompressLoop src compressedSize.toNat dstCapacity.toNat 0 0 dst

theorem decompressLoop_done {r : Int} {dst' : Nat → UInt8}
    (h : decompressPass src iend oend ip op dst = .done r dst') :
    decompressLoop src iend oend ip op dst = (r, dst') := by
  rw [decompressLoop, h]

theorem decompressLoop_again {ip' op' : Nat} {dst' : Nat → UInt8}
    (h : decompressPass src iend oend ip op dst = .again ip' op' dst') :
    decompressLoop src iend oend ip op dst = decompressLoop src iend oend ip' op' dst' := by
  rw [decompressLoop, h]

theorem decompressLoop_lengths {r : Int} {dst' : Nat → UInt8} (hop : op ≤ oend)
    (h : decompressLoop src iend oend ip op dst = (r, dst')) (hr : 0 ≤ r) :
    ∃ lens, BlockLengths wrap32 oend op (slice src ip (iend - ip)) lens ∧ r ≤ oend ∧
      ((∀ l ∈ lens, l < 2 ^ 32) → ∃ final,
        Decodes (slice dst 0 op) (slice src ip (iend - ip)) final ∧
        r = final.length ∧ slice dst' 0 final.length = final) := by
  induction ip, op, dst using decompressLoop.induct src iend oend with
  | case1 ip op dst r' dst₁ hpass =>
    rw [decompressLoop_done hpass] at h
    cases h
    rcases decompressPass_done hpass hr with ⟨hend, rfl, rfl⟩ |
      ⟨ext, lits, n, hbytes, hip, hext, hlits, rfl, hfit, hout⟩
    · rw [Nat.sub_eq_zero_of_le hend]
      refine ⟨[], .done hop, Int.ofNat_le.mpr hop, fun _ => ⟨_, .done _, ?_, ?_⟩⟩
      · rw [length_slice]
      · rw [length_slice]
    · have hblock : slice src ip (iend - ip) = src ip :: (ext ++ lits) := by
        rw [← hip, Nat.add_sub_cancel_left]
        exact hbytes
      rw [hblock]
      refine ⟨[n], .last hext hlits (hfit hop), Int.ofNat_le.mpr (hfit hop), fun hshort => ?_⟩
      rw [wrap32_of_lt (hshort n (mem_singleton_self n))] at hlits
      refine ⟨slice dst 0 op ++ lits, .last (hlits ▸ hext), ?_, ?_⟩
      · rw [length_append, length_slice]
      · rwa [length_append, length_slice]
  | case2 ip op dst ip' op' dst₁ hpass ih =>
    rw [decompressLoop_again hpass] at h
    obtain ⟨ext, lits, n, o₁, o₂, ext', len, hbytes, hip, hle, hext, hlits, hpos, hoff, hext',
      hfit, hcopy⟩ := decompressPass_again hpass
    obtain ⟨lens, hlengths, hroom, hdecodes⟩ := ih (hfit hop) h
    have hblock := hbytes.slice_eq src (n := iend - ip) (by omega)
    rw [← hip, Nat.sub_sub, ← hip] at hblock
    have hop' : op' = op + lits.length + wrap32 (len + 4) := by
      have hlen := congrArg List.length hcopy
      rwa [length_slice, length_copyBack, length_append, length_slice] at hlen
    rw [hblock]
    simp only [cons_append, append_assoc]
    refine ⟨n :: (len + 4) :: lens, .sequence hext hlits hpos ?_ hext' (hop' ▸ hlengths), hroom,
      fun hshort => ?_⟩
    · rwa [length_append, length_slice] at hoff
    · rw [forall_mem_cons, forall_mem_cons] at hshort
      obtain ⟨hn, hlen, hlens⟩ := hshort
      obtain ⟨final, hrest, hfinal⟩ := hdecodes hlens
      rw [hcopy, wrap32_of_lt hlen] at hrest
      rw [wrap32_of_lt hn] at hlits
      exact ⟨final, .sequence (hlits ▸ hext) hpos hoff hext' hrest, hfinal⟩

theorem decompressLoop_of_lengths {d : Nat} {block : List UInt8} {lens : List Nat}
    (h : BlockLengths wrap32 oend d block lens) (hbytes : HasBytes src ip block)
    (hend : ip + block.length = iend) : 0 ≤ (decompressLoop src iend oend ip d dst).1 := by
  induction h generalizing ip dst with
  | @done d _ =>
    have hpass : decompressPass src iend oend ip d dst = .done d dst := by
      rw [decompressPass, if_pos (show iend ≤ ip from Nat.le_of_eq hend.symm)]
    rw [decompressLoop_done hpass]
    exact Int.natCast_nonneg d
  | @last d n ext lits token hext hlits hroom =>
    rw [length_cons, length_append] at hend
    have hpass : decompressPass src iend oend ip d dst =
        .done (d + lits.length : Nat) (store dst d lits) := by
      rw [← append_nil lits] at hbytes
      rw [decompressPass_of_hasBytes hbytes (by omega) hext hlits, if_neg (by omega),
        decompressMatch, if_pos (by omega)]
    rw [decompressLoop_done hpass]
    exact Int.natCast_nonneg _
  | @sequence d n len ext lits ext' rest lens token o₁ o₂ hext hlits hpos hoff hext' hrest ih =>
    have hle := hrest.le
    simp only [length_cons, length_append] at hend
    have hpass := @decompressPass_of_hasBytes dst d src iend oend ip token ext lits _ n hbytes
      (by omega) hext hlits
    rw [hasBytes_cons, hasBytes_append, hasBytes_append, hasBytes_cons, hasBytes_cons,
      hasBytes_append] at hbytes
    obtain ⟨-, -, -, ho₁, ho₂, hbytes', hrest'⟩ := hbytes
    have hmatch : HasBytes src (ip + 1 + ext.length + lits.length) (o₁ :: o₂ :: ext') :=
      (hasBytes_cons src).mpr ⟨ho₁, (hasBytes_cons src).mpr ⟨ho₂, hbytes'⟩⟩
    rw [if_neg (by omega), decompressMatch_of_hasBytes hmatch (by omega) hpos hext',
      if_neg (by omega), if_neg (by omega)] at hpass
    rw [decompressLoop_again hpass]
    exact ih hrest' (by omega)

theorem decompressLoop_sound {r : Int} {dst' : Nat → UInt8} (hwrap : 255 * iend + 19 < 2 ^ 32)
    (hop : op ≤ oend) (h : decompressLoop src iend oend ip op dst = (r, dst')) (hr : 0 ≤ r) :
    ∃ final, Decodes (slice dst 0 op) (slice src ip (iend - ip)) final ∧ r = final.length ∧
      final.length ≤ oend ∧ slice dst' 0 final.length = final := by
  obtain ⟨lens, hlengths, hle, hdecodes⟩ := decompressLoop_lengths hop h hr
  have hshort : ∀ l ∈ lens, l < 2 ^ 32 := fun l hl => by
    have hl' := hlengths.length_le l hl
    rw [length_slice] at hl'
    omega
  obtain ⟨final, hfinal, rfl, hout⟩ := hdecodes hshort
  exact ⟨final, hfinal, rfl, Int.ofNat_le.mp hle, hout⟩

theorem decompressLoop_complete {out block final : List UInt8} (h : Decodes out block final)
    (hbytes : HasBytes src ip block) (hend : ip + block.length = iend)
    (hout : slice dst 0 op = out) (hfit : final.length ≤ oend) (hoend : oend < 2 ^ 32) :
    ∃ dst', decompressLoop src iend oend ip op dst = (↑final.length, dst') ∧
      slice dst' 0 final.length = final := by
  have hop : out.length = op := by rw [← hout, length_slice]
  have hlen := h.length_le
  have hwrap : ∀ n ≤ oend, wrap32 n = n := fun n hn => wrap32_of_lt (Nat.lt_of_le_of_lt hn hoend)
  obtain ⟨lens, hlengths⟩ := h.blockLengths hwrap hfit
  rw [hop] at hlengths
  have hr := @decompressLoop_of_lengths dst src iend oend ip op block lens hlengths hbytes hend
  have hblock : slice src ip (iend - ip) = block := by
    rw [← hend, Nat.add_sub_cancel_left]
    exact hbytes
  generalize hrun : decompressLoop src iend oend ip op dst = run at hr
  obtain ⟨r, dst'⟩ := run
  obtain ⟨lens', hlengths', -, hdecodes⟩ := decompressLoop_lengths (by omega) hrun hr
  rw [hblock] at hlengths' hdecodes
  have hshort := hlengths'.lt_of_decodes h (fun n hn => wrap32_of_lt hn)
    (Nat.lt_of_le_of_lt hfit hoend)
  obtain ⟨final', hfinal, rfl, hout'⟩ := hdecodes hshort
  rw [hout] at hfinal
  rw [h.unique hfinal]
  exact ⟨dst', rfl, hout'⟩

/-! ## What is refused -/

theorem decompressLoop_misdirected {d : Nat} {block : List UInt8} (h : Misdirected d block)
    (hbytes : HasBytes src ip block) (hend : ip + block.length = iend) (hop : op ≤ d)
    (hiend : iend < 2 ^ 32) : (decompressLoop src iend oend ip op dst).1 = -1 := by
  induction h generalizing ip op dst with
  | @here d ext lits rest token o₁ hext hoff =>
    simp only [length_cons, length_append] at hend
    have hwrap : lits.length = wrap32 lits.length := (wrap32_of_lt (by omega)).symm
    have hpass := @decompressPass_of_hasBytes dst op src iend oend ip token ext lits _ _ hbytes
      (by omega) hext hwrap
    rw [hasBytes_cons, hasBytes_append, hasBytes_append, hasBytes_cons] at hbytes
    obtain ⟨-, -, -, ho₁, hrest⟩ := hbytes
    have hdone : ∃ dst', decompressPass src iend oend ip op dst = .done (-1) dst' := by
      rw [hpass]
      split
      next => exact ⟨_, rfl⟩
      next =>
        rw [decompressMatch, if_neg (by omega)]
        split
        next => exact ⟨_, rfl⟩
        next htwo =>
          cases rest with
          | nil =>
            rw [length_nil] at hend
            omega
          | cons o₂ rest =>
            have ho₂ := ((hasBytes_cons src).mp hrest).1
            rw [headD_cons] at hoff
            rw [pairValue_eq, ho₁, ho₂, if_pos (by omega)]
            exact ⟨_, rfl⟩
    obtain ⟨dst', hdone⟩ := hdone
    rw [decompressLoop_done hdone]
  | @later d ext lits ext' rest token o₁ o₂ len hext hpos hoff hext' hrest ih =>
    simp only [length_cons, length_append] at hend
    have hwrap : lits.length = wrap32 lits.length := (wrap32_of_lt (by omega)).symm
    have hpass := @decompressPass_of_hasBytes dst op src iend oend ip token ext lits _ _ hbytes
      (by omega) hext hwrap
    rw [hasBytes_cons, hasBytes_append, hasBytes_append, hasBytes_cons, hasBytes_cons,
      hasBytes_append] at hbytes
    obtain ⟨-, -, -, ho₁, ho₂, hbytes', hrest'⟩ := hbytes
    have hmatch : HasBytes src (ip + 1 + ext.length + lits.length) (o₁ :: o₂ :: ext') :=
      (hasBytes_cons src).mpr ⟨ho₁, (hasBytes_cons src).mpr ⟨ho₂, hbytes'⟩⟩
    rw [decompressMatch_of_hasBytes hmatch (by omega) hpos hext'] at hpass
    split at hpass
    next => rw [decompressLoop_done hpass]
    next =>
      split at hpass
      next => rw [decompressLoop_done hpass]
      next =>
        split at hpass
        next => rw [decompressLoop_done hpass]
        next =>
          rw [decompressLoop_again hpass]
          have hwrap : wrap32 (len + 4) ≤ len + 4 := Nat.mod_le _ _
          exact ih hrest' (by omega) (by omega)

theorem lz4DecompressSafe_of_neg {src dst : Nat → UInt8} {compressedSize dstCapacity : Int}
    (h : dstCapacity < 0) : lz4DecompressSafe src dst compressedSize dstCapacity = (-1, dst) :=
  if_pos (.inr h)

theorem lz4DecompressSafe_misdirected {src : Nat → UInt8} (dst : Nat → UInt8) {n : Nat}
    (dstCapacity : Int) (h : Misdirected 0 (slice src 0 n)) (hn : n < 2 ^ 32) :
    (lz4DecompressSafe src dst n dstCapacity).1 = -1 := by
  rw [lz4DecompressSafe]
  split
  next => rfl
  next =>
    refine decompressLoop_misdirected h (hasBytes_slice src 0 n) ?_ (Nat.le_refl 0) (by omega)
    rw [length_slice, Nat.zero_add, Int.toNat_natCast]

theorem lz4DecompressSafe_sound {src dst dst' : Nat → UInt8} {compressedSize dstCapacity r : Int}
    (hwrap : 255 * compressedSize + 19 < 2 ^ 32)
    (h : lz4DecompressSafe src dst compressedSize dstCapacity = (r, dst')) (hr : 0 ≤ r) :
    0 ≤ dstCapacity ∧ ∃ final, Decodes [] (slice src 0 compressedSize.toNat) final ∧
      r = final.length ∧ final.length ≤ dstCapacity.toNat ∧ slice dst' 0 final.length = final := by
  rw [lz4DecompressSafe] at h
  split at h
  next => cases h; cases hr
  next hsize =>
    rw [not_or] at hsize
    have hwrap' : 255 * compressedSize.toNat + 19 < 2 ^ 32 := by omega
    exact ⟨Int.not_lt.mp hsize.2, decompressLoop_sound hwrap' (Nat.zero_le _) h hr⟩

theorem lz4DecompressSafe_complete {src : Nat → UInt8} (dst : Nat → UInt8) {n : Nat}
    {final : List UInt8} {dstCapacity : Int} (h : Decodes [] (slice src 0 n) final)
    (hfit : final.length ≤ dstCapacity) (hcap : dstCapacity < 2 ^ 31) :
    ∃ dst', lz4DecompressSafe src dst n dstCapacity = (↑final.length, dst') ∧
      slice dst' 0 final.length = final := by
  rw [lz4DecompressSafe, if_neg (by omega)]
  refine decompressLoop_complete h (hasBytes_slice src 0 n) ?_ rfl (by omega) (by omega)
  rw [length_slice, Nat.zero_add, Int.toNat_natCast]

/-- Whatever the table holds, what the compressor makes of a source is decompressed to it. -/
theorem lz4DecompressSafe_lz4CompressDefault {t t' : HashTable} {src dst dst' : Nat → UInt8}
    {srcSize dstCapacity : Int} {n : Nat}
    (h : lz4CompressDefault t src dst srcSize dstCapacity = (t', n, dst')) (hn : 0 < n)
    (out : Nat → UInt8) {capacity : Int} (hsize : srcSize ≤ capacity) (hcap : capacity < 2 ^ 31) :
    ∃ out', lz4DecompressSafe dst' out n capacity = (srcSize, out') ∧
      slice out' 0 srcSize.toNat = slice src 0 srcSize.toNat := by
  have hpos := le_srcSize_of_lz4CompressDefault h hn
  rw [lz4MinCinput] at hpos
  have hlen : ((slice src 0 srcSize.toNat).length : Int) = srcSize := by
    rw [length_slice]
    omega
  have hfit : ((slice src 0 srcSize.toNat).length : Int) ≤ capacity := by rwa [hlen]
  obtain ⟨out', hrun, hout⟩ :=
    lz4DecompressSafe_complete out (decodes_lz4CompressDefault h hn) hfit hcap
  rw [hlen] at hrun
  rw [length_slice] at hout
  exact ⟨out', hrun, hout⟩

theorem lz4DecompressSafe_lz4CompressDefault_zeros :
    0 < (lz4CompressDefault ⟨id, 4095⟩ (fun _ => 0) (fun _ => 1) 32 100).2.1 ∧
      ∃ out', lz4DecompressSafe
          (lz4CompressDefault ⟨id, 4095⟩ (fun _ => 0) (fun _ => 1) 32 100).2.2 (fun _ => 2)
          (lz4CompressDefault ⟨id, 4095⟩ (fun _ => 0) (fun _ => 1) 32 100).2.1 32 = (32, out') ∧
        slice out' 0 32 = slice (fun _ => 0) 0 32 :=
  have hn : 0 < (lz4CompressDefault ⟨id, 4095⟩ (fun _ => 0) (fun _ => 1) 32 100).2.1 := by
    decide +kernel
  ⟨hn, @lz4DecompressSafe_lz4CompressDefault ⟨id, 4095⟩ _ (fun _ ↦ 0) (fun _ ↦ 1) _ 32 100 _ rfl hn
    (fun _ => 2) 32 (Int.le_refl 32) (by decide)⟩

end MemDbg.Util
