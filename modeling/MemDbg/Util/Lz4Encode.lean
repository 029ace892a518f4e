import MemDbg.Util.Lz4
import Mathlib.Data.List.TakeDrop

/-!
# What the compressor writes

A match is a pair of positions whose bytes were compared, whatever the table said.  What is
written before the anchor is therefore a block of which any continuation that decodes
behind the bytes before the anchor decodes as a whole.
-/

namespace MemDbg.Util

open List Lib

variable {src : Nat → UInt8}

/-! ## Matches -/

theorem HashTable.candidate_spec {t : HashTable} {forward start : Nat}
    (h : t.candidate src forward = some start) :
    start < forward ∧ forward - start ≤ 65535 ∧ slice src start 4 = slice src forward 4 := by
  rw [HashTable.candidate, Option.filter_eq_some_iff] at h
  obtain ⟨-, h⟩ := h
  rw [Bool.and_eq_true, Bool.and_eq_true, beq_iff_eq, decide_eq_true_eq, decide_eq_true_eq] at h
  refine ⟨h.1.1, h.1.2, (leNat_inj ?_).mp h.2⟩
  rw [length_slice, length_slice]

theorem lz4FirstDiffByte_spec {a b : Nat} (hne : leNat (slice src a 8) ≠ leNat (slice src b 8)) :
    lz4FirstDiffByte (leNat (slice src a 8) ^^^ leNat (slice src b 8)) < 8 ∧
      ∀ i, i < lz4FirstDiffByte (leNat (slice src a 8) ^^^ leNat (slice src b 8)) →
        src (a + i) = src (b + i) := by
  have hlt : ∀ p, leNat (slice src p 8) < 2 ^ 64 := fun p => by
    have := leNat_lt (slice src p 8)
    rwa [length_slice] at this
  have hxor : leNat (slice src a 8) ^^^ leNat (slice src b 8) ≠ 0 := fun h =>
    hne (Nat.xor_eq_zero_iff.mp h)
  obtain ⟨hctz, -, hlow⟩ := ctz_spec hxor (Nat.xor_lt_two_pow (hlt a) (hlt b))
  rw [lz4FirstDiffByte, Nat.shiftRight_eq_div_pow]
  generalize ctz 64 (leNat (slice src a 8) ^^^ leNat (slice src b 8)) = k at hctz hlow
  have hlen : (slice src a 8).length = (slice src b 8).length := by
    rw [length_slice, length_slice]
  have htake := take_eq_of_testBit_xor hlen (n := k / 2 ^ 3) fun j hj => hlow j (by omega)
  have hle : k / 2 ^ 3 < 8 := by omega
  rw [take_slice src (Nat.le_of_lt hle), take_slice src (Nat.le_of_lt hle)] at htake
  exact ⟨hle, fun i hi => apply_of_slice_eq src htake hi⟩

def Repeats (src : Nat → UInt8) (e e' c : Nat) : Prop := ∀ i, e + i < e' → src (e + i) = src (c + i)

theorem Repeats.trans {e e' e'' c : Nat} (h : Repeats src e e' c) (hle : e ≤ e')
    (h' : Repeats src e' e'' (c + (e' - e))) : Repeats src e e'' c := by
  intro i hi
  rcases Nat.lt_or_ge (e + i) e' with hlt | hge
  · exact h i hlt
  · have := h' (e + i - e') (by omega)
    rw [Nat.add_sub_cancel' hge] at this
    rw [this]
    congr 1
    omega

theorem repeats_of_slice {e c n : Nat} (h : slice src e n = slice src c n) :
    Repeats src e (e + n) c :=
  fun _ hi => apply_of_slice_eq src h (Nat.lt_of_add_lt_add_left hi)

theorem extendWords_spec {srcLimit e c e' c' : Nat} {found : Bool}
    (h : extendWords src srcLimit e c = (e', c', found)) (hle : e ≤ srcLimit) :
    e' ≤ srcLimit ∧ Repeats src e e' c ∧ (found = false → c' = c + (e' - e)) := by
  induction e, c using extendWords.induct src srcLimit with
  | case1 e c hroom a b hne =>
    rw [extendWords, if_pos hroom, if_pos hne] at h
    cases h
    obtain ⟨hlt, hsame⟩ := lz4FirstDiffByte_spec hne
    refine ⟨by omega, fun i hi => hsame i (Nat.lt_of_add_lt_add_left hi), (by rintro ⟨⟩)⟩
  | case2 e c hroom a b heq ih =>
    rw [extendWords, if_pos hroom, if_neg heq] at h
    obtain ⟨hle', hsame, hcursor⟩ := ih h (by omega)
    have hlow := le_extendWords src srcLimit (e + 8) (c + 8)
    rw [h] at hlow
    have hslice : slice src e 8 = slice src c 8 := by
      refine (leNat_inj ?_).mp (not_not.mp heq)
      rw [length_slice, length_slice]
    refine ⟨hle', (repeats_of_slice hslice).trans (Nat.le_add_right _ _) ?_, fun hf => ?_⟩
    · rw [Nat.add_sub_cancel_left]
      exact hsame
    · rw [hcursor hf]
      omega
  | case3 e c hgt =>
    rw [extendWords, if_neg hgt] at h
    cases h
    refine ⟨hle, fun i hi => absurd hi (Nat.not_lt.mpr (Nat.le_add_right _ _)), fun _ => ?_⟩
    rw [Nat.sub_self, Nat.add_zero]

theorem extendBytes_spec (src : Nat → UInt8) {srcLimit e : Nat} (c : Nat) (hle : e ≤ srcLimit) :
    extendBytes src srcLimit e c ≤ srcLimit ∧ Repeats src e (extendBytes src srcLimit e c) c := by
  induction e, c using extendBytes.induct src srcLimit with
  | case1 e c heq ih =>
    obtain ⟨hle', hsame⟩ := ih heq.1
    rw [extendBytes, if_pos heq]
    have hslice : slice src e 1 = slice src c 1 := congrArg (· :: []) heq.2
    refine ⟨hle', (repeats_of_slice hslice).trans (Nat.le_add_right _ _) ?_⟩
    rw [Nat.add_sub_cancel_left]
    exact hsame
  | case2 e c hne =>
    rw [extendBytes, if_neg hne]
    exact ⟨hle, fun i hi => absurd hi (Nat.not_lt.mpr (Nat.le_add_right _ _))⟩

theorem extendMatch_spec {srcLimit ip start : Nat} (h : slice src start 4 = slice src ip 4)
    (hle : ip + 4 ≤ srcLimit) :
    extendMatch src srcLimit ip start ≤ srcLimit ∧
      Repeats src ip (extendMatch src srcLimit ip start) start := by
  have hfirst := repeats_of_slice h.symm
  have hlow := le_extendWords src srcLimit (ip + lz4MinMatch) (start + lz4MinMatch)
  rw [extendMatch]
  split
  next heq =>
    obtain ⟨hle', hsame, -⟩ := extendWords_spec heq hle
    refine ⟨hle', hfirst.trans (Nat.le_add_right _ _) ?_⟩
    rw [Nat.add_sub_cancel_left]
    exact hsame
  next matchEnd matchCursor heq =>
    obtain ⟨hle', hsame, hcursor⟩ := extendWords_spec heq hle
    obtain ⟨hle'', hsame'⟩ := extendBytes_spec src matchCursor hle'
    rw [heq] at hlow
    refine ⟨hle'', hfirst.trans (Nat.le_add_right _ _) ?_⟩
    rw [Nat.add_sub_cancel_left]
    refine hsame.trans hlow ?_
    rw [← hcursor rfl]
    exact hsame'

/-! ## Bytes written -/

namespace Writer

def bytes (w : Writer) : List UInt8 := slice w.dst 0 w.op

@[simp] theorem length_bytes (w : Writer) : w.bytes.length = w.op := length_slice _ _ _

theorem bytes_store (w : Writer) (data : List UInt8) {n : Nat} (h : n ≤ data.length) :
    (⟨store w.dst w.op data, w.op + n⟩ : Writer).bytes = w.bytes ++ data.take n := by
  have := slice_store_append w.dst 0 w.op data h
  rwa [Nat.zero_add] at this

@[simp] theorem bytes_push (w : Writer) (b : UInt8) : (w.push b).bytes = w.bytes ++ [b] :=
  w.bytes_store [b] (Nat.le_refl 1)

theorem bytes_patch {w : Writer} {pre post : List UInt8} {b : UInt8}
    (h : w.bytes = pre ++ b :: post) (b' : UInt8) :
    w.dst pre.length = b ∧
      ({ w with dst := store w.dst pre.length [b'] } : Writer).bytes = pre ++ b' :: post := by
  have hlen : w.op = pre.length + (1 + post.length) := by
    rw [← length_bytes, h, length_append, length_cons, Nat.add_comm 1]
  have hsplit : w.bytes =
      slice w.dst 0 pre.length ++ (slice w.dst pre.length 1 ++
        slice w.dst (pre.length + 1) post.length) := by
    rw [slice_append, bytes, hlen, ← slice_append, Nat.zero_add]
  obtain ⟨hpre, hrest⟩ := append_inj (hsplit.symm.trans h) (length_slice _ _ _)
  obtain ⟨hb, hpost⟩ := List.cons.inj hrest
  refine ⟨hb, ?_⟩
  have hpre' := slice_store_of_le w.dst (Nat.le_of_eq (Nat.zero_add pre.length)) [b']
  have hpost' := slice_store_of_ge w.dst (Nat.le_refl (pre.length + [b'].length)) post.length
  rw [bytes, hlen, ← slice_append, ← slice_append, Nat.zero_add, hpre', hpre,
    slice_store_self _ _ _ (Nat.le_refl 1)]
  exact congrArg (pre ++ b' :: ·) (hpost'.trans hpost)

end Writer

theorem bytes_writeRem (w : Writer) (rem : Nat) :
    (writeRem w rem).bytes =
      w.bytes ++ (List.replicate (rem / 255) 255 ++ [UInt8.ofNat (rem % 255)]) := by
  induction w, rem using writeRem.induct with
  | case1 w rem hge ih =>
    have hdiv : rem / 255 = (rem - 255) / 255 + 1 := by omega
    have hmod : (rem - 255) % 255 = rem % 255 := by omega
    rw [writeRem, if_pos hge, ih, Writer.bytes_push, hdiv, hmod, replicate_succ,
      append_assoc]
    rfl
  | case2 w rem hlt =>
    rw [writeRem, if_neg hlt, Writer.bytes_push, Nat.div_eq_of_lt (Nat.not_le.mp hlt),
      Nat.mod_eq_of_lt (Nat.not_le.mp hlt)]
    rfl

theorem bytes_lz4WriteLen (w : Writer) {length : Nat} (h : 15 ≤ length) :
    ∃ ext, (lz4WriteLen w length 15).bytes = w.bytes ++ ext ∧ Extends 15 ext length := by
  refine ⟨_, bytes_writeRem w (length - 15), ?_⟩
  have hext := Extends.long ((length - 15) / 255) (Nat.mod_lt (length - 15) (by decide : 0 < 255))
  rwa [Nat.add_assoc, Nat.div_add_mod, Nat.add_sub_cancel' h] at hext

theorem bytes_writeToken (literalLen : Nat) (w : Writer) :
    ∃ n ext, n < 16 ∧ (writeToken literalLen w).bytes = w.bytes ++ UInt8.ofNat (n <<< 4) :: ext ∧
      Extends n ext literalLen := by
  rw [writeToken]
  split
  next hge =>
    obtain ⟨ext, hbytes, hext⟩ := bytes_lz4WriteLen (w.push 0xF0) hge
    refine ⟨15, ext, by decide, ?_, hext⟩
    rw [hbytes, Writer.bytes_push, append_assoc]
    rfl
  next hlt =>
    refine ⟨literalLen, [], by omega, w.bytes_push _, .short (Nat.not_le.mp hlt)⟩

theorem bytes_writeLiterals (src : Nat → UInt8) (oend anchor literalLen : Nat) (w : Writer) :
    (writeLiterals src oend anchor literalLen w).bytes = w.bytes ++ slice src anchor
      literalLen := by
  rw [writeLiterals]
  split
  next h =>
    rw [w.bytes_store _ (by rw [length_slice]; exact h.1), take_slice _ h.1]
  next =>
    rw [w.bytes_store _ (by rw [length_slice]), take_slice _ (Nat.le_refl _)]

theorem token_halves : ∀ n, n < 16 → ∀ m, m < 16 →
    (UInt8.ofNat (n <<< 4) ||| UInt8.ofNat m).toNat / 16 = n ∧
      (UInt8.ofNat (n <<< 4) ||| UInt8.ofNat m).toNat % 16 = m := by
  decide

theorem pairValue_offset {offset : Nat} (h : offset ≤ 65535) :
    pairValue (UInt8.ofNat (offset &&& 0xFF)) (UInt8.ofNat ((offset >>> 8) &&& 0xFF)) = offset := by
  have hlow : offset &&& 0xFF = offset % 256 := Nat.and_two_pow_sub_one_eq_mod offset 8
  have hhigh : (offset >>> 8) &&& 0xFF = offset / 256 % 256 := by
    rw [Nat.shiftRight_eq_div_pow]
    exact Nat.and_two_pow_sub_one_eq_mod (offset / 256) 8
  rw [hlow, hhigh, pairValue, UInt8.toNat_ofNat', UInt8.toNat_ofNat', Nat.mod_mod, Nat.mod_mod,
    Nat.mod_eq_of_lt (by omega : offset / 256 < 256), Nat.mod_add_div]

theorem bytes_writeSequence {oend anchor ip start matchEnd : Nat} {w w' : Writer}
    (h : writeSequence src oend anchor ip start matchEnd w = some w') (hoff : ip - start ≤ 65535) :
    ∃ token ext o₁ o₂ ext', w'.bytes =
        w.bytes ++ token :: (ext ++ (slice src anchor (ip - anchor) ++ o₁ :: o₂ :: ext')) ∧
      Extends (token.toNat / 16) ext (ip - anchor) ∧ pairValue o₁ o₂ = ip - start ∧
      Extends (token.toNat % 16) ext' (matchEnd - ip - lz4MinMatch) := by
  obtain ⟨n, ext, hn, hbytes, hext⟩ := bytes_writeToken (ip - anchor) w
  have hlits : (if 0 < ip - anchor then
      writeLiterals src oend anchor (ip - anchor) (writeToken (ip - anchor) w)
      else writeToken (ip - anchor) w).bytes =
        (writeToken (ip - anchor) w).bytes ++ slice src anchor (ip - anchor) := by
    split
    next => exact bytes_writeLiterals _ _ _ _ _
    next hzero =>
      rw [Nat.eq_zero_of_not_pos hzero, slice_zero, append_nil]
  rw [writeSequence] at h
  dsimp only at h
  generalize (if 0 < ip - anchor then
      writeLiterals src oend anchor (ip - anchor) (writeToken (ip - anchor) w)
      else writeToken (ip - anchor) w) = w₁ at h hlits
  rw [hbytes, append_assoc, cons_append] at hlits
  obtain ⟨o₁, o₂, ho₁, ho₂⟩ : ∃ o₁ o₂, o₁ = UInt8.ofNat ((ip - start) &&& 0xFF) ∧
      o₂ = UInt8.ofNat (((ip - start) >>> 8) &&& 0xFF) := ⟨_, _, rfl, rfl⟩
  have hpair : pairValue o₁ o₂ = ip - start := by
    rw [ho₁, ho₂, pairValue_offset hoff]
  rw [← ho₁, ← ho₂] at h
  have hw₂ : ((w₁.push o₁).push o₂).bytes = w.bytes ++ UInt8.ofNat (n <<< 4) ::
      (ext ++ (slice src anchor (ip - anchor) ++ [o₁, o₂])) := by
    rw [Writer.bytes_push, Writer.bytes_push, hlits]
    simp only [append_assoc, cons_append, nil_append]
  generalize (w₁.push o₁).push o₂ = w₂ at h hw₂
  obtain ⟨hread, hpatch⟩ := Writer.bytes_patch hw₂ (UInt8.ofNat (n <<< 4) ||| UInt8.ofNat
    (if 15 ≤ matchEnd - ip - lz4MinMatch then 15 else matchEnd - ip - lz4MinMatch))
  rw [Writer.length_bytes] at hread hpatch
  have hhalves := token_halves n hn
    (if 15 ≤ matchEnd - ip - lz4MinMatch then 15 else matchEnd - ip - lz4MinMatch)
    (by split <;> omega)
  split at h
  · cases h
  · split at h
    next hge =>
      rw [if_pos hge] at hpatch hhalves
      cases h
      obtain ⟨ext', hbytes', hext'⟩ := bytes_lz4WriteLen
        { w₂ with dst := store w₂.dst w.op [UInt8.ofNat (n <<< 4) ||| UInt8.ofNat 15] } hge
      refine ⟨_, ext, o₁, o₂, ext', ?_, hhalves.1.symm ▸ hext, hpair, hhalves.2.symm ▸ hext'⟩
      rw [hread]
      refine hbytes'.trans ?_
      rw [hpatch]
      simp only [append_assoc, cons_append, nil_append]
    next hlt =>
      rw [if_neg hlt] at hpatch hhalves
      cases h
      refine ⟨_, ext, o₁, o₂, [], ?_, hhalves.1.symm ▸ hext, hpair,
        hhalves.2.symm ▸ .short (Nat.not_le.mp hlt)⟩
      rw [hread]
      exact hpatch

/-! ## The block -/

def EncodesStrictly (src : Nat → UInt8) (srcEnd anchor : Nat) (w : Writer) : Prop :=
  ∀ rest, DecodesStrictly (slice src 0 anchor) rest (slice src 0 srcEnd) →
    DecodesStrictly [] (w.bytes ++ rest) (slice src 0 srcEnd)

theorem encodesStrictly_zero (src dst : Nat → UInt8) (srcEnd : Nat) :
    EncodesStrictly src srcEnd 0 ⟨dst, 0⟩ :=
  fun _ h => h

theorem slice_literals (src : Nat → UInt8) {anchor ip : Nat} (h : anchor ≤ ip) :
    slice src 0 anchor ++ slice src anchor (ip - anchor) = slice src 0 ip := by
  have := slice_append src 0 anchor (ip - anchor)
  rwa [Nat.zero_add, Nat.add_sub_cancel' h] at this

theorem EncodesStrictly.sequence {srcEnd oend anchor ip start matchEnd : Nat} {w w' : Writer}
    (henc : EncodesStrictly src srcEnd anchor w) (hanchor : anchor ≤ ip) (hstart : start < ip)
    (hoff : ip - start ≤ 65535) (hip : ip + lz4MfLimit ≤ srcEnd)
    (hmatch : ip + lz4MinMatch ≤ matchEnd) (hsame : Repeats src ip matchEnd start)
    (h : writeSequence src oend anchor ip start matchEnd w = some w') :
    EncodesStrictly src srcEnd matchEnd w' := by
  obtain ⟨token, ext, o₁, o₂, ext', hbytes, hext, hpair, hext'⟩ := bytes_writeSequence h hoff
  intro rest hrest
  have hlits := slice_literals src hanchor
  have hcopy : copyBack (ip - start) (matchEnd - ip - lz4MinMatch + 4) (slice src 0 ip) =
      slice src 0 matchEnd := by
    have hlen : matchEnd - ip - lz4MinMatch + 4 = matchEnd - ip := by
      rw [lz4MinMatch] at hmatch ⊢
      omega
    rw [hlen, copyBack_slice (by omega) (by omega), Nat.add_sub_cancel' (by omega)]
    intro i hi
    rw [hsame i (by omega)]
    congr 1
    omega
  have hstep : DecodesStrictly (slice src 0 anchor)
      (token :: (ext ++ (slice src anchor (ip - anchor) ++ o₁ :: o₂ :: (ext' ++ rest))))
      (slice src 0 srcEnd) := by
    refine .sequence ?_ ?_ ?_ ?_ ?_ hext' ?_
    · rwa [length_slice]
    · omega
    · omega
    · rw [hlits, length_slice]
      omega
    · rw [hlits, length_slice, length_slice]
      exact hip
    · rwa [hpair, hlits, hcopy]
  have := henc _ hstep
  rw [hbytes]
  simpa only [append_assoc, cons_append] using this

theorem EncodesStrictly.last {oend anchor srcEnd : Nat} {w w' : Writer}
    (henc : EncodesStrictly src srcEnd anchor w) (hanchor : anchor + lz4LastLiterals ≤ srcEnd)
    (h : writeLast src oend anchor srcEnd w = some w') :
    DecodesStrictly [] w'.bytes (slice src 0 srcEnd) := by
  obtain ⟨n, ext, hn, hbytes, hext⟩ := bytes_writeToken (srcEnd - anchor) w
  have htoken : (UInt8.ofNat (n <<< 4)).toNat / 16 = n := by
    have := (token_halves n hn 0 (by decide)).1
    rwa [show UInt8.ofNat 0 = 0 from rfl, UInt8.or_zero] at this
  have hlits := slice_literals src (Nat.le_trans (Nat.le_add_right _ _) hanchor)
  rw [lz4LastLiterals] at hanchor
  have hlast : DecodesStrictly (slice src 0 anchor)
      (UInt8.ofNat (n <<< 4) :: (ext ++ slice src anchor (srcEnd - anchor)))
      (slice src 0 anchor ++ slice src anchor (srcEnd - anchor)) := by
    refine .last ?_ ?_
    · rwa [htoken, length_slice]
    · rw [length_slice]
      omega
  rw [writeLast] at h
  split at h
  · cases h
  · cases h
    rw [Writer.bytes_store _ _ (by rw [length_slice]), take_slice _ (Nat.le_refl _), hbytes,
      append_assoc, cons_append]
    rw [hlits] at hlast
    exact henc _ hlast

theorem extendMatch_of_found {srcEnd ip forward start : Nat} {t t' : HashTable}
    (hip : ip ≤ srcEnd - lz4MfLimit) (hend : lz4MfLimit ≤ srcEnd)
    (hfind : findMatch src (srcEnd - lz4MfLimit) t ip = (t', some (forward, start))) :
    extendMatch src (srcEnd - lz4LastLiterals) forward start ≤ srcEnd - lz4LastLiterals ∧
      Repeats src forward (extendMatch src (srcEnd - lz4LastLiterals) forward start) start := by
  obtain ⟨-, hto, t₀, hcandidate⟩ := searchLoop_spec hfind
  obtain ⟨-, -, hfour⟩ := HashTable.candidate_spec hcandidate
  have hforward := hto hip
  rw [lz4MfLimit] at hforward hend
  refine extendMatch_spec hfour ?_
  rw [lz4LastLiterals]
  omega

theorem EncodesStrictly.found {srcEnd oend ip anchor forward start : Nat} {t t' : HashTable}
    {w w' : Writer} (henc : EncodesStrictly src srcEnd anchor w) (hanchor : anchor ≤ ip)
    (hip : ip ≤ srcEnd - lz4MfLimit) (hend : lz4MfLimit ≤ srcEnd)
    (hfind : findMatch src (srcEnd - lz4MfLimit) t ip = (t', some (forward, start)))
    (hwrite : writeSequence src oend anchor forward start
      (extendMatch src (srcEnd - lz4LastLiterals) forward start) w = some w') :
    extendMatch src (srcEnd - lz4LastLiterals) forward start ≤ srcEnd - lz4LastLiterals ∧
      EncodesStrictly src srcEnd (extendMatch src (srcEnd - lz4LastLiterals) forward start) w' := by
  obtain ⟨hfrom, hto, t₀, hcandidate⟩ := searchLoop_spec hfind
  obtain ⟨hstart, hoff, -⟩ := HashTable.candidate_spec hcandidate
  obtain ⟨hle, hsame⟩ := extendMatch_of_found hip hend hfind
  exact ⟨hle, henc.sequence (Nat.le_trans hanchor hfrom) hstart hoff
    (Nat.add_le_of_le_sub hend (hto hip)) (le_extendMatch _ _ _ _) hsame hwrite⟩

theorem compressLoop_spec {srcEnd oend ip anchor anchor' : Nat} {t t' : HashTable}
    {w w' : Writer} (henc : EncodesStrictly src srcEnd anchor w) (hanchor : anchor ≤ ip)
    (hip : ip ≤ srcEnd - lz4MfLimit) (hend : lz4MfLimit ≤ srcEnd)
    (h : compressLoop src srcEnd oend t ip anchor w = (t', w', some anchor')) :
    EncodesStrictly src srcEnd anchor' w' ∧ anchor' ≤ srcEnd - lz4LastLiterals := by
  induction t, ip, anchor, w using compressLoop.induct src srcEnd oend with
  | case1 t ip anchor w t₁ hfind =>
    have hlimits : srcEnd - lz4MfLimit ≤ srcEnd - lz4LastLiterals :=
      Nat.sub_le_sub_left (by decide) srcEnd
    rw [compressLoop, hfind] at h
    cases h
    exact ⟨henc, Nat.le_trans hanchor (Nat.le_trans hip hlimits)⟩
  | case2 t ip anchor w t₁ forward start hfind matchEnd hfull =>
    rw [compressLoop, hfind] at h
    dsimp only at h
    rw [hfull] at h
    cases h
  | case3 t ip anchor w t₁ forward start hfind matchEnd w₁ hwrite hlast =>
    obtain ⟨hend', henc'⟩ := henc.found hanchor hip hend hfind hwrite
    rw [compressLoop, hfind] at h
    dsimp only at h
    rw [hwrite] at h
    dsimp only at h
    rw [if_pos hlast] at h
    cases h
    exact ⟨henc', hend'⟩
  | case4 t ip anchor w t₁ forward start hfind t₂ matchEnd w₁ hwrite hgo ih =>
    obtain ⟨hend', henc'⟩ := henc.found hanchor hip hend hfind hwrite
    rw [compressLoop, hfind] at h
    dsimp only at h
    rw [hwrite] at h
    dsimp only at h
    rw [if_neg hgo] at h
    exact ih henc' (Nat.le_refl _) (Nat.not_lt.mp hgo) h

theorem le_srcSize_of_lz4CompressDefault {t t' : HashTable} {src dst dst' : Nat → UInt8}
    {srcSize dstCapacity : Int} {n : Nat}
    (h : lz4CompressDefault t src dst srcSize dstCapacity = (t', n, dst')) (hn : 0 < n) :
    lz4MinCinput ≤ srcSize := by
  by_contra hlt
  rw [lz4CompressDefault, if_pos (.inl (Int.not_le.mp hlt))] at h
  cases h
  cases hn

theorem decodesStrictly_lz4CompressDefault {t t' : HashTable} {src dst dst' : Nat → UInt8}
    {srcSize dstCapacity : Int} {n : Nat}
    (h : lz4CompressDefault t src dst srcSize dstCapacity = (t', n, dst')) (hn : 0 < n) :
    DecodesStrictly [] (slice dst' 0 n) (slice src 0 srcSize.toNat) := by
  rw [lz4CompressDefault] at h
  split at h
  next => cases h; cases hn
  next hsize =>
    rw [lz4MinCinput, not_or] at hsize
    dsimp only at h
    split at h
    next => cases h; cases hn
    next hloop =>
      obtain ⟨henc, hanchor⟩ := compressLoop_spec (encodesStrictly_zero src dst _) (Nat.zero_le 1)
        (by rw [lz4MfLimit]; omega) (by rw [lz4MfLimit]; omega) hloop
      split at h
      next => cases h; cases hn
      next hlast =>
        cases h
        refine henc.last ?_ hlast
        rw [lz4LastLiterals] at hanchor ⊢
        omega

theorem decodes_lz4CompressDefault {t t' : HashTable} {src dst dst' : Nat → UInt8}
    {srcSize dstCapacity : Int} {n : Nat}
    (h : lz4CompressDefault t src dst srcSize dstCapacity = (t', n, dst')) (hn : 0 < n) :
    Decodes [] (slice dst' 0 n) (slice src 0 srcSize.toNat) :=
  (decodesStrictly_lz4CompressDefault h hn).decodes

theorem decodes_lz4Block {t : HashTable} {scratch : Nat → UInt8} {bytes : List UInt8}
    (h : 0 < (lz4Block t scratch bytes).length) :
    Decodes [] (lz4Block t scratch bytes) bytes := by
  rw [lz4Block, length_slice] at h
  have := decodes_lz4CompressDefault (Prod.mk.eta (p := (lz4CompressDefault t (atZero bytes) scratch
    bytes.length (lz4CompressBound bytes.length))).symm) h
  rwa [Int.toNat_natCast, slice_atZero] at this

end MemDbg.Util
