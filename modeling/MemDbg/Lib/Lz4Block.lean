import MemDbg.Lib.Bytes

/-!
# The LZ4 block format

A block is a list of sequences: literals, and a copy of bytes that are already there.
What a block decodes to is a relation between what is there, the rest of the block and
what there is in the end; the encoder follows it forwards, the decoder backwards.
-/

namespace MemDbg.Lib

open List

def copyBack (offset : Nat) : Nat → List UInt8 → List UInt8
  | 0, out => out
  | n + 1, out => copyBack offset n (out ++ [out.getD (out.length - offset) 0])

@[simp] theorem length_copyBack (offset n : Nat) (out : List UInt8) :
    (copyBack offset n out).length = out.length + n := by
  induction n generalizing out with
  | zero => rfl
  | succ n ih =>
    rw [copyBack, ih, length_append, length_singleton, Nat.add_assoc,
      Nat.add_comm 1 n]

theorem copyBack_slice {mem : Nat → UInt8} {offset p : Nat} (hpos : 0 < offset)
    (hle : offset ≤ p) (n : Nat) (h : ∀ i, i < n → mem (p + i) = mem (p + i - offset)) :
    copyBack offset n (slice mem 0 p) = slice mem 0 (p + n) := by
  induction n generalizing p with
  | zero => rfl
  | succ n ih =>
    have hfirst := h 0 (Nat.succ_pos n)
    rw [Nat.add_zero] at hfirst
    have hnext : slice mem 0 p ++ [(slice mem 0 p).getD (p - offset) 0] = slice mem 0 (p + 1) := by
      rw [getD_slice mem (by omega), Nat.zero_add, ← hfirst, ← slice_append, Nat.zero_add]
      rfl
    rw [copyBack, length_slice, hnext, Nat.add_comm n 1, ← Nat.add_assoc]
    refine ih (Nat.le_succ_of_le hle) fun i hi => ?_
    rw [Nat.add_assoc, Nat.add_comm 1 i]
    exact h (i + 1) (Nat.succ_lt_succ hi)

theorem copyBack_add (offset m n : Nat) (out : List UInt8) :
    copyBack offset (m + n) out = copyBack offset n (copyBack offset m out) := by
  induction m generalizing out with
  | zero => rw [Nat.zero_add]; rfl
  | succ m ih =>
    rw [Nat.succ_add, copyBack, copyBack, ih]

theorem copyBack_of_le {offset n : Nat} {out : List UInt8} (hn : n ≤ offset)
    (hle : offset ≤ out.length) :
    copyBack offset n out = out ++ (out.drop (out.length - offset)).take n := by
  induction n with
  | zero => rw [take_zero, append_nil]; rfl
  | succ n ih =>
    have hin : out.length - offset + n < out.length := by omega
    have hlen : (out ++ (out.drop (out.length - offset)).take n).length = out.length + n := by
      rw [length_append, length_take, length_drop]
      omega
    have hat : out.length + n - offset = out.length - offset + n := by omega
    rw [copyBack_add, ih (Nat.le_of_succ_le hn), copyBack, copyBack, hlen, hat,
      getD_append _ _ _ _ hin, getD_eq_getElem _ _ hin, append_assoc,
      take_add_one, getElem?_drop, getElem?_eq_getElem hin]
    rfl

theorem copyBack_one (n : Nat) (out : List UInt8) :
    copyBack 1 n out = out ++ List.replicate n (out.getD (out.length - 1) 0) := by
  induction n generalizing out with
  | zero => rw [replicate_zero, append_nil]; rfl
  | succ n ih =>
    have hlast : ∀ b, (out ++ [b]).getD ((out ++ [b]).length - 1) 0 = b := fun b => by
      rw [length_append, length_singleton, Nat.add_sub_cancel,
        getD_append_right _ _ _ _ (Nat.le_refl _), Nat.sub_self]
      rfl
    rw [copyBack, ih, hlast, append_assoc, replicate_succ]
    rfl

inductive Extends : Nat → List UInt8 → Nat → Prop
  | short {n : Nat} : n < 15 → Extends n [] n
  | long (k : Nat) {r : Nat} : r < 255 →
      Extends 15 (List.replicate k 255 ++ [UInt8.ofNat r]) (15 + 255 * k + r)

def pairValue (o₁ o₂ : UInt8) : Nat := o₁.toNat + 256 * o₂.toNat

/-- `Decodes out block final`: the block, read behind the bytes that are there, leaves the
final ones. -/
inductive Decodes : List UInt8 → List UInt8 → List UInt8 → Prop
  | done (out : List UInt8) : Decodes out [] out
  | last {out ext lits : List UInt8} {token : UInt8} :
      Extends (token.toNat / 16) ext lits.length →
      Decodes out (token :: (ext ++ lits)) (out ++ lits)
  | sequence {out ext lits ext' rest final : List UInt8} {token o₁ o₂ : UInt8} {len : Nat} :
      Extends (token.toNat / 16) ext lits.length →
      0 < pairValue o₁ o₂ → pairValue o₁ o₂ ≤ (out ++ lits).length →
      Extends (token.toNat % 16) ext' len →
      Decodes (copyBack (pairValue o₁ o₂) (len + 4) (out ++ lits)) rest final →
      Decodes out (token :: (ext ++ (lits ++ o₁ :: o₂ :: (ext' ++ rest)))) final

/-- `Misdirected d block`: behind `d` bytes, the block comes to a copy of bytes that are not
there.  Of its offset the second byte may be missing. -/
inductive Misdirected : Nat → List UInt8 → Prop
  | here {d : Nat} {ext lits rest : List UInt8} {token o₁ : UInt8} :
      Extends (token.toNat / 16) ext lits.length →
      pairValue o₁ (rest.headD 0) = 0 ∨ d + lits.length < pairValue o₁ (rest.headD 0) →
      Misdirected d (token :: (ext ++ (lits ++ o₁ :: rest)))
  | later {d : Nat} {ext lits ext' rest : List UInt8} {token o₁ o₂ : UInt8} {len : Nat} :
      Extends (token.toNat / 16) ext lits.length →
      0 < pairValue o₁ o₂ → pairValue o₁ o₂ ≤ d + lits.length →
      Extends (token.toNat % 16) ext' len →
      Misdirected (d + lits.length + (len + 4)) rest →
      Misdirected d (token :: (ext ++ (lits ++ o₁ :: o₂ :: (ext' ++ rest))))

/-- `DecodesStrictly out block final`: as `Decodes`, by the rules for the end of a block.  The
block ends with five literals at least, and a match starts twelve bytes before the end at the
latest. -/
inductive DecodesStrictly : List UInt8 → List UInt8 → List UInt8 → Prop
  | last {out ext lits : List UInt8} {token : UInt8} :
      Extends (token.toNat / 16) ext lits.length → 5 ≤ lits.length →
      DecodesStrictly out (token :: (ext ++ lits)) (out ++ lits)
  | sequence {out ext lits ext' rest final : List UInt8} {token o₁ o₂ : UInt8} {len : Nat} :
      Extends (token.toNat / 16) ext lits.length →
      1 ≤ pairValue o₁ o₂ → pairValue o₁ o₂ ≤ 65535 → pairValue o₁ o₂ ≤ (out ++ lits).length →
      (out ++ lits).length + 12 ≤ final.length →
      Extends (token.toNat % 16) ext' len →
      DecodesStrictly (copyBack (pairValue o₁ o₂) (len + 4) (out ++ lits)) rest final →
      DecodesStrictly out (token :: (ext ++ (lits ++ o₁ :: o₂ :: (ext' ++ rest)))) final

theorem DecodesStrictly.decodes {out block final : List UInt8}
    (h : DecodesStrictly out block final) : Decodes out block final := by
  induction h with
  | last hext _ => exact .last hext
  | sequence hext hpos _ hle _ hext' _ ih => exact .sequence hext hpos hle hext' ih

theorem Extends.le {nibble len : Nat} {ext : List UInt8} (h : Extends nibble ext len) :
    len ≤ 15 + 255 * ext.length := by
  cases h with
  | short hlt => omega
  | long k hr =>
    rw [length_append, length_replicate, length_singleton]
    omega

theorem replicate_append_inj {k k' : Nat} {c x y : UInt8} {a b : List UInt8} (hx : x ≠ c)
    (hy : y ≠ c) (h : List.replicate k c ++ x :: a = List.replicate k' c ++ y :: b) :
    k = k' ∧ x = y ∧ a = b := by
  induction k generalizing k' with
  | zero =>
    cases k' with
    | zero => exact ⟨rfl, List.cons.inj h⟩
    | succ k' => exact absurd (List.cons.inj h).1 hx
  | succ k ih =>
    cases k' with
    | zero => exact absurd (List.cons.inj h).1.symm hy
    | succ k' =>
      obtain ⟨hk, hrest⟩ := ih (List.cons.inj h).2
      exact ⟨congrArg Nat.succ hk, hrest⟩

theorem ofNat_ne_max {r : Nat} (h : r < 255) : UInt8.ofNat r ≠ 255 := by
  intro heq
  have hval := congrArg UInt8.toNat heq
  rw [UInt8.toNat_ofNat_of_lt' (Nat.lt_succ_of_lt h)] at hval
  exact absurd hval (Nat.ne_of_lt h)

theorem Extends.append_inj {nibble n n' : Nat} {ext ext' a b : List UInt8}
    (h : Extends nibble ext n) (h' : Extends nibble ext' n') (heq : ext ++ a = ext' ++ b) :
    ext = ext' ∧ n = n' ∧ a = b := by
  cases h with
  | short hlt =>
    cases h' with
    | short _ => exact ⟨rfl, rfl, heq⟩
    | long k _ => exact absurd hlt (Nat.lt_irrefl 15)
  | @long k r hr =>
    cases h' with
    | short hlt => exact absurd hlt (Nat.lt_irrefl 15)
    | @long k' r' hr' =>
      rw [append_assoc, append_assoc] at heq
      obtain ⟨rfl, hbyte, hrest⟩ :=
        replicate_append_inj (ofNat_ne_max hr) (ofNat_ne_max hr') heq
      have hval := congrArg UInt8.toNat hbyte
      rw [UInt8.toNat_ofNat_of_lt' (Nat.lt_succ_of_lt hr),
        UInt8.toNat_ofNat_of_lt' (Nat.lt_succ_of_lt hr')] at hval
      rw [hval]
      exact ⟨rfl, rfl, hrest⟩

theorem Decodes.length_le {out block final : List UInt8} (h : Decodes out block final) :
    out.length ≤ final.length := by
  induction h with
  | done => exact Nat.le_refl _
  | last =>
    rw [length_append]
    exact Nat.le_add_right _ _
  | sequence _ _ _ _ _ ih =>
    rw [length_copyBack, length_append] at ih
    omega

theorem Decodes.length_le_mul {out block final : List UInt8} (h : Decodes out block final) :
    final.length ≤ out.length + 255 * block.length := by
  induction h with
  | done => exact Nat.le_add_right _ _
  | last =>
    simp only [length_append, length_cons]
    omega
  | sequence hlits _ _ hlen _ ih =>
    have hle := hlen.le
    simp only [length_copyBack, length_append, length_cons] at ih ⊢
    omega

/-! ## Lengths that are wrapped -/

inductive BlockLengths (wrap : Nat → Nat) (room : Nat) : Nat → List UInt8 → List Nat → Prop
  | done {d : Nat} : d ≤ room → BlockLengths wrap room d [] []
  | last {d n : Nat} {ext lits : List UInt8} {token : UInt8} :
      Extends (token.toNat / 16) ext n → lits.length = wrap n → d + lits.length ≤ room →
      BlockLengths wrap room d (token :: (ext ++ lits)) [n]
  | sequence {d n len : Nat} {ext lits ext' rest : List UInt8} {lens : List Nat}
      {token o₁ o₂ : UInt8} :
      Extends (token.toNat / 16) ext n → lits.length = wrap n →
      0 < pairValue o₁ o₂ → pairValue o₁ o₂ ≤ d + lits.length →
      Extends (token.toNat % 16) ext' len →
      BlockLengths wrap room (d + lits.length + wrap (len + 4)) rest lens →
      BlockLengths wrap room d (token :: (ext ++ (lits ++ o₁ :: o₂ :: (ext' ++ rest))))
        (n :: (len + 4) :: lens)

section

variable {wrap : Nat → Nat} {room d bound : Nat} {out block final final' : List UInt8}
  {lens : List Nat}

theorem BlockLengths.le (h : BlockLengths wrap room d block lens) : d ≤ room := by
  induction h with
  | done hle => exact hle
  | last _ _ hle => exact Nat.le_trans (Nat.le_add_right _ _) hle
  | sequence _ _ _ _ _ _ ih => omega

theorem BlockLengths.length_le (h : BlockLengths wrap room d block lens) :
    ∀ l ∈ lens, l ≤ 19 + 255 * block.length := by
  induction h with
  | done => exact fun l hl => absurd hl not_mem_nil
  | @last d n ext lits token hext _ _ =>
    intro l hl
    rw [mem_singleton.mp hl, length_cons, length_append]
    have hle := hext.le
    omega
  | @sequence d n len ext lits ext' rest lens token o₁ o₂ hext _ _ _ hext' _ ih =>
    have hle := hext.le
    have hle' := hext'.le
    simp only [length_cons, length_append] at ih ⊢
    simp only [forall_mem_cons]
    refine ⟨by omega, by omega, fun l hl => ?_⟩
    have := ih l hl
    omega

theorem Decodes.cases_cons {tail : List UInt8} {token : UInt8}
    (h : Decodes out (token :: tail) final) :
    (∃ ext lits, tail = ext ++ lits ∧ Extends (token.toNat / 16) ext lits.length ∧
      final = out ++ lits) ∨
    ∃ ext lits ext' rest o₁ o₂ len, tail = ext ++ (lits ++ o₁ :: o₂ :: (ext' ++ rest)) ∧
      Extends (token.toNat / 16) ext lits.length ∧ Extends (token.toNat % 16) ext' len ∧
      Decodes (copyBack (pairValue o₁ o₂) (len + 4) (out ++ lits)) rest final := by
  cases h with
  | last hext => exact .inl ⟨_, _, rfl, hext, rfl⟩
  | sequence hext _ _ hext' hrest => exact .inr ⟨_, _, _, _, _, _, _, rfl, hext, hext', hrest⟩

theorem Decodes.literals_le {ext tail : List UInt8} {token : UInt8} {n : Nat}
    (h : Decodes out (token :: (ext ++ tail)) final) (hext : Extends (token.toNat / 16) ext n) :
    n ≤ final.length := by
  rcases h.cases_cons with ⟨ext₁, lits₁, htail, hext₁, rfl⟩ |
    ⟨ext₁, lits₁, ext', rest, o₁, o₂, len, htail, hext₁, -, hrest⟩
  · obtain ⟨-, rfl, -⟩ := hext.append_inj hext₁ htail
    rw [length_append]
    exact Nat.le_add_left _ _
  · obtain ⟨-, rfl, -⟩ := hext.append_inj hext₁ htail
    have hlen := hrest.length_le
    rw [length_copyBack, length_append] at hlen
    omega

theorem Decodes.of_last {ext lits : List UInt8} {token : UInt8}
    (h : Decodes out (token :: (ext ++ lits)) final)
    (hext : Extends (token.toNat / 16) ext lits.length) : final = out ++ lits := by
  rcases h.cases_cons with ⟨ext₁, lits₁, htail, hext₁, rfl⟩ |
    ⟨ext₁, lits₁, ext', rest, o₁, o₂, len, htail, hext₁, -, -⟩
  · obtain ⟨-, -, rfl⟩ := hext.append_inj hext₁ htail
    rfl
  · obtain ⟨-, hlen, rfl⟩ := hext.append_inj hext₁ htail
    rw [length_append, length_cons] at hlen
    omega

theorem Decodes.of_sequence {ext lits ext' rest : List UInt8} {token o₁ o₂ : UInt8} {len : Nat}
    (h : Decodes out (token :: (ext ++ (lits ++ o₁ :: o₂ :: (ext' ++ rest)))) final)
    (hext : Extends (token.toNat / 16) ext lits.length)
    (hext' : Extends (token.toNat % 16) ext' len) :
    Decodes (copyBack (pairValue o₁ o₂) (len + 4) (out ++ lits)) rest final := by
  rcases h.cases_cons with ⟨ext₁, lits₁, htail, hext₁, -⟩ |
    ⟨ext₁, lits₁, ext₂, rest₂, p₁, p₂, len₂, htail, hext₁, hext₂, hrest⟩
  · obtain ⟨-, hlen, rfl⟩ := hext.append_inj hext₁ htail
    rw [length_append, length_cons] at hlen
    omega
  · obtain ⟨-, hlen, hlits⟩ := hext.append_inj hext₁ htail
    obtain ⟨rfl, hpair⟩ := append_inj hlits hlen
    rw [cons_eq_cons, cons_eq_cons] at hpair
    obtain ⟨rfl, rfl, hmore⟩ := hpair
    obtain ⟨-, rfl, rfl⟩ := hext'.append_inj hext₂ hmore
    exact hrest

theorem Decodes.unique (h : Decodes out block final) (h' : Decodes out block final') :
    final = final' := by
  induction h with
  | done => cases h'; rfl
  | last hext => exact (h'.of_last hext).symm
  | sequence hext _ _ hext' _ ih => exact ih (h'.of_sequence hext hext')

theorem Decodes.blockLengths (h : Decodes out block final) (hwrap : ∀ n ≤ room, wrap n = n)
    (hroom : final.length ≤ room) : ∃ lens, BlockLengths wrap room out.length block lens := by
  induction h with
  | done => exact ⟨_, .done hroom⟩
  | @last out ext lits token hext =>
    rw [length_append] at hroom
    exact ⟨_, .last hext (hwrap _ (by omega)).symm hroom⟩
  | @sequence out ext lits ext' rest final token o₁ o₂ len hext hpos hle hext' hrest ih =>
    obtain ⟨lens, hlengths⟩ := ih hroom
    have hlen := hrest.length_le
    rw [length_copyBack, length_append] at hlengths hlen
    rw [length_append] at hle
    rw [← hwrap (len + 4) (by omega)] at hlengths
    exact ⟨_, .sequence hext (hwrap _ (by omega)).symm hpos hle hext' hlengths⟩

theorem BlockLengths.lt_of_decodes (h : BlockLengths wrap room d block lens)
    (hdecodes : Decodes out block final) (hwrap : ∀ n < bound, wrap n = n)
    (hfinal : final.length < bound) : ∀ l ∈ lens, l < bound := by
  induction h generalizing out with
  | done => exact fun l hl => absurd hl not_mem_nil
  | last hext _ _ =>
    intro l hl
    rw [mem_singleton.mp hl]
    exact Nat.lt_of_le_of_lt (hdecodes.literals_le hext) hfinal
  | @sequence d n len ext lits ext' rest lens token o₁ o₂ hext hlits _ _ hext' _ ih =>
    have hn := Nat.lt_of_le_of_lt (hdecodes.literals_le hext) hfinal
    rw [hwrap n hn] at hlits
    have hrest := hdecodes.of_sequence (hlits ▸ hext) hext'
    have hlen := hrest.length_le
    rw [length_copyBack, length_append] at hlen
    simp only [forall_mem_cons]
    exact ⟨hn, by omega, ih hrest⟩

end

end MemDbg.Lib
