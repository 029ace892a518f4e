import MemDbg.Util.Lz4Decode

/-!
# The client's block decoder

`lz4Decompress` reads and writes its arrays without looking at their ends: what is read
behind an end is `undefined`, what is written there is lost.  On a block that decodes to the
size asked for it agrees with `lz4_decompress_safe`; of the blocks that do not, it notices
those that copy bytes that are not there.
-/

namespace MemDbg.Tauri

open List Lib Util

/-! ## The decoder -/

def moreLength (src : List UInt8) (s len : Nat) : Option Nat × Nat :=
  match src[s]? with
  | none => (none, s + 1)
  | some b =>
    if b = 255 ∧ s + 1 < src.length then moreLength src (s + 1) (len + b.toNat)
    else (some (len + b.toNat), s + 1)
termination_by src.length - s

def tokenLength (src : List UInt8) (s half : Nat) : Option Nat × Nat :=
  if half = 15 then moreLength src s half else (some half, s)

def copyLiterals (src : List UInt8) (s d : Nat) (out : List UInt8) : Nat → List UInt8
  | 0 => out
  | litLen + 1 => copyLiterals src (s + 1) (d + 1) (out.set d (src.getD s 0)) litLen

def copyMatch (mStart d : Nat) (out : List UInt8) : Nat → List UInt8
  | 0 => out
  | matchLen + 1 => copyMatch (mStart + 1) (d + 1) (out.set d (out.getD mStart 0)) matchLen

inductive Lz4Pass where
  | thrown (message : String)
  | broken (d : Nat) (out : List UInt8)
  | again (s d : Nat) (out : List UInt8)

def lz4Match (src : List UInt8) (token s d : Nat) (out : List UInt8) : Lz4Pass :=
  if src.length ≤ s then .broken d out
  else
    let offset := (src.getD s 0).toNat ||| (src.getD (s + 1) 0).toNat <<< 8
    if offset = 0 then .thrown "lz4: invalid offset 0"
    else
      match tokenLength src (s + 2) (token &&& 0x0F) with
      | (matchLen, s) =>
        if d < offset then .thrown "lz4: match before dict"
        else
          -- no pass of a loop is made up to a length that is not a number
          let matchLen := matchLen.elim 0 (· + 4)
          .again s (d + matchLen) (copyMatch (d - offset) d out matchLen)

def lz4Pass (src : List UInt8) (s d : Nat) (out : List UInt8) : Lz4Pass :=
  let token := (src.getD s 0).toNat
  match tokenLength src (s + 1) (token >>> 4) with
  | (litLen, s) =>
    let litLen := litLen.getD 0
    lz4Match src token (s + litLen) (d + litLen) (copyLiterals src s d out litLen)

theorem le_tokenLength (src : List UInt8) (s half : Nat) : s ≤ (tokenLength src s half).2 := by
  have hmore : ∀ len, s ≤ (moreLength src s len).2 := fun len => by
    induction s, len using moreLength.induct src with
    | case1 s len hend =>
      rw [moreLength, hend]
      exact Nat.le_succ s
    | case2 s len b hb hmore ih =>
      rw [moreLength, hb]
      dsimp only
      rw [if_pos hmore]
      exact Nat.le_of_succ_le ih
    | case3 s len b hb hlast =>
      rw [moreLength, hb]
      dsimp only
      rw [if_neg hlast]
      exact Nat.le_succ s
  rw [tokenLength]
  split
  next => exact hmore half
  next => exact Nat.le_refl s

theorem lt_of_lz4Pass {src out out' : List UInt8} {s d s' d' : Nat}
    (h : lz4Pass src s d out = .again s' d' out') : s < s' := by
  have hlit := le_tokenLength src (s + 1) ((src.getD s 0).toNat >>> 4)
  rw [lz4Pass] at h
  dsimp only at h
  rw [lz4Match] at h
  split at h
  next => cases h
  dsimp only at h
  split at h
  next => cases h
  split at h
  next => cases h
  cases h
  exact Nat.lt_of_lt_of_le (by omega) (le_tokenLength src _ _)

def lz4Loop (src : List UInt8) (s d : Nat) (out : List UInt8) : Except String (Nat × List UInt8) :=
  if s < src.length then
    match _h : lz4Pass src s d out with
    | .thrown message => .error message
    | .broken d out => .ok (d, out)
    | .again s d out => lz4Loop src s d out
  else .ok (d, out)
termination_by src.length - s
decreasing_by
  have := lt_of_lz4Pass _h
  omega

def lz4Decompress (src : List UInt8) (uncompressedSize : Nat) : Except String (List UInt8) := do
  let (d, out) ← lz4Loop src 0 0 (List.replicate uncompressedSize 0)
  return if d = uncompressedSize then out else out.take d

/-! ## Places in the source -/

theorem drop_cons {src rest : List UInt8} {s : Nat} {b : UInt8} (h : src.drop s = b :: rest) :
    src[s]? = some b ∧ s < src.length ∧ src.drop (s + 1) = rest := by
  have hat : src[s]? = some b := by rw [← head?_drop, h, head?_cons]
  refine ⟨hat, (List.getElem?_eq_some_iff.mp hat).1, ?_⟩
  rw [← drop_drop, h]
  rfl

theorem drop_append {src xs ys : List UInt8} {s : Nat} (h : src.drop s = xs ++ ys) :
    src.drop (s + xs.length) = ys := by
  rw [← drop_drop, h, drop_left]

theorem getD_eq_headD_drop (src : List UInt8) (s : Nat) : src.getD s 0 = (src.drop s).headD 0 := by
  rw [headD_eq_head?_getD, head?_drop, getD_eq_getElem?_getD]

/-! ## Lengths -/

variable {src rest : List UInt8} {s : Nat}

theorem moreLength_eq {k r : Nat} (hr : r < 255) (len : Nat)
    (hdrop : src.drop s = List.replicate k 255 ++ UInt8.ofNat r :: rest) :
    moreLength src s len = (some (len + 255 * k + r), s + (k + 1)) := by
  induction k generalizing s len with
  | zero =>
    have hval : (UInt8.ofNat r).toNat = r := UInt8.toNat_ofNat_of_lt' (Nat.lt_succ_of_lt hr)
    have hne : UInt8.ofNat r ≠ 255 := fun h => by
      rw [h] at hval
      exact absurd hval.symm (Nat.ne_of_lt hr)
    rw [moreLength, (drop_cons hdrop).1]
    dsimp only
    rw [if_neg fun h => hne h.1, hval]
    rfl
  | succ k ih =>
    rw [replicate_succ, cons_append] at hdrop
    obtain ⟨hat, -, hnext⟩ := drop_cons hdrop
    have hin : s + 1 < src.length := by
      have := congrArg List.length hnext
      simp only [length_drop, length_append, length_replicate,
        length_cons] at this
      omega
    have hval : (255 : UInt8).toNat = 255 := rfl
    rw [moreLength, hat]
    dsimp only
    rw [if_pos ⟨rfl, hin⟩, ih _ hnext, hval]
    refine Prod.ext ?_ ?_
    · exact congrArg some (by omega)
    · exact Nat.add_right_comm s 1 (k + 1)

theorem moreLength_cases (src : List UInt8) (s len : Nat) :
    (∃ k r rest, r < 255 ∧ src.drop s = List.replicate k 255 ++ UInt8.ofNat r :: rest) ∨
      src.length ≤ (moreLength src s len).2 := by
  induction s, len using moreLength.induct src with
  | case1 s len hend =>
    refine .inr ?_
    rw [moreLength, hend]
    exact Nat.le_succ_of_le (getElem?_eq_none_iff.mp hend)
  | case2 s len b hb hmore ih =>
    rw [moreLength, hb]
    dsimp only
    rw [if_pos hmore]
    refine ih.imp_left ?_
    rintro ⟨k, r, rest, hr, hrest⟩
    obtain ⟨hin, hat⟩ := List.getElem?_eq_some_iff.mp hb
    refine ⟨k + 1, r, rest, hr, ?_⟩
    rw [← cons_getElem_drop_succ (h := hin), hrest, hat, hmore.1]
    rfl
  | case3 s len b hb hlast =>
    obtain ⟨hin, hat⟩ := List.getElem?_eq_some_iff.mp hb
    by_cases h255 : b = 255
    · refine .inr ?_
      rw [moreLength, hb]
      dsimp only
      rw [if_neg hlast]
      exact Nat.not_lt.mp fun h => hlast ⟨h255, h⟩
    · have hlt := b.toNat_lt
      have hne : b.toNat ≠ 255 := fun h => h255 (UInt8.toNat_inj.mp h)
      refine .inl ⟨0, b.toNat, src.drop (s + 1), by omega, ?_⟩
      rw [← cons_getElem_drop_succ (h := hin), hat, UInt8.ofNat_toNat]
      rfl

theorem tokenLength_eq {half n : Nat} {ext : List UInt8} (hext : Extends half ext n)
    (hdrop : src.drop s = ext ++ rest) : tokenLength src s half = (some n, s + ext.length) := by
  cases hext with
  | short hlt => exact if_neg (Nat.ne_of_lt hlt)
  | long k hr =>
    rw [append_assoc] at hdrop
    rw [tokenLength, if_pos rfl, moreLength_eq hr 15 hdrop, length_append,
      length_replicate, length_singleton]

theorem tokenLength_cases (src : List UInt8) (s : Nat) {half : Nat} (hhalf : half ≤ 15) :
    (∃ ext n rest, Extends half ext n ∧ src.drop s = ext ++ rest) ∨
      src.length ≤ (tokenLength src s half).2 := by
  rcases Nat.lt_or_eq_of_le hhalf with hlt | rfl
  · exact .inl ⟨[], half, src.drop s, .short hlt, rfl⟩
  · refine (moreLength_cases src s 15).imp_left ?_
    rintro ⟨k, r, rest, hr, hrest⟩
    refine ⟨_, _, rest, .long k hr, ?_⟩
    rw [append_assoc]
    exact hrest

/-! ## Copies -/

theorem copyLiterals_eq {lits v zs : List UInt8} (hdrop : src.drop s = lits ++ rest)
    (hfit : lits.length ≤ zs.length) :
    copyLiterals src s v.length (v ++ zs) lits.length = v ++ lits ++ zs.drop lits.length := by
  induction lits generalizing s v zs with
  | nil =>
    rw [append_nil]
    rfl
  | cons b lits ih =>
    cases zs with
    | nil => exact absurd hfit (Nat.not_succ_le_zero _)
    | cons z zs =>
      obtain ⟨hat, -, hnext⟩ := drop_cons hdrop
      have hset : (v ++ z :: zs).set v.length b = v ++ [b] ++ zs := by
        rw [set_append_right _ _ (Nat.le_refl _), Nat.sub_self, append_assoc]
        rfl
      have := @ih (s + 1) (v ++ [b]) zs hnext (Nat.le_of_succ_le_succ hfit)
      rw [length_append, length_singleton] at this
      rw [length_cons, copyLiterals, getD_eq_getElem?_getD, hat, Option.getD_some,
        hset, this, drop_succ_cons, append_assoc v]
      rfl

theorem copyMatch_eq {v zs : List UInt8} {offset n : Nat} (hpos : 0 < offset)
    (hle : offset ≤ v.length) (hfit : n ≤ zs.length) :
    copyMatch (v.length - offset) v.length (v ++ zs) n = copyBack offset n v ++ zs.drop n := by
  induction n generalizing v zs with
  | zero => rfl
  | succ n ih =>
    cases zs with
    | nil => exact absurd hfit (Nat.not_succ_le_zero _)
    | cons z zs =>
      have hin : v.length - offset < v.length := by omega
      have hset : ∀ b, (v ++ z :: zs).set v.length b = v ++ [b] ++ zs := fun b => by
        rw [set_append_right _ _ (Nat.le_refl _), Nat.sub_self, append_assoc]
        rfl
      have hnext : v.length - offset + 1 = v.length + 1 - offset := by omega
      have := @ih (v ++ [v.getD (v.length - offset) 0]) zs
      rw [length_append, length_singleton] at this
      rw [copyMatch, getD_append _ _ _ _ hin, hset, hnext, copyBack,
        this (Nat.le_succ_of_le hle) (Nat.le_of_succ_le_succ hfit), drop_succ_cons]

/-! ## A pass -/

variable {ext lits out : List UInt8} {token o₁ : UInt8} {d : Nat}

theorem lz4Pass_eq (hdrop : src.drop s = token :: (ext ++ (lits ++ rest)))
    (hext : Extends (token.toNat / 16) ext lits.length) :
    lz4Pass src s d out =
      lz4Match src token.toNat (s + 1 + ext.length + lits.length) (d + lits.length)
        (copyLiterals src (s + 1 + ext.length) d out lits.length) := by
  obtain ⟨hat, -, hnext⟩ := drop_cons hdrop
  rw [lz4Pass]
  rw [getD_eq_getElem?_getD, hat, Option.getD_some, shiftRight_halfByte,
    tokenLength_eq hext hnext]
  rfl

theorem lz4Match_eq {token : Nat} (hdrop : src.drop s = o₁ :: rest) :
    lz4Match src token s d out =
      if pairValue o₁ (rest.headD 0) = 0 then .thrown "lz4: invalid offset 0"
      else if d < pairValue o₁ (rest.headD 0) then .thrown "lz4: match before dict"
      else
        .again (tokenLength src (s + 2) (token % 16)).2
          (d + (tokenLength src (s + 2) (token % 16)).1.elim 0 (· + 4))
          (copyMatch (d - pairValue o₁ (rest.headD 0)) d out
            ((tokenLength src (s + 2) (token % 16)).1.elim 0 (· + 4))) := by
  obtain ⟨hat, hin, hnext⟩ := drop_cons hdrop
  rw [lz4Match, if_neg (Nat.not_le.mpr hin)]
  rw [pairValue_eq, and_halfByte, getD_eq_headD_drop, getD_eq_headD_drop, hdrop, hnext]
  rfl

theorem lz4Match_again {token len : Nat} {o₂ : UInt8} {ext' : List UInt8}
    (hdrop : src.drop s = o₁ :: o₂ :: (ext' ++ rest)) (hpos : 0 < pairValue o₁ o₂)
    (hle : pairValue o₁ o₂ ≤ d) (hext : Extends (token % 16) ext' len) :
    lz4Match src token s d out =
      .again (s + 2 + ext'.length) (d + (len + 4))
        (copyMatch (d - pairValue o₁ o₂) d out (len + 4)) := by
  have hnext := (drop_cons (drop_cons hdrop).2.2).2.2
  rw [lz4Match_eq hdrop, headD_cons, if_neg hpos.ne', if_neg (Nat.not_lt.mpr hle),
    tokenLength_eq hext hnext]
  rfl

theorem lz4Pass_cases (d : Nat) (out : List UInt8) (hin : s < src.length) :
    (∃ d' out', lz4Pass src s d out = .broken d' out') ∨
      ∃ token ext lits o₁ rest, src.drop s = token :: (ext ++ (lits ++ o₁ :: rest)) ∧
        Extends (token.toNat / 16) ext lits.length := by
  have hdrop := (cons_getElem_drop_succ (h := hin)).symm
  have hat : src.getD s 0 = src[s] := getD_eq_getElem _ _ hin
  have hhalf : (src[s]).toNat / 16 ≤ 15 := by
    have := (src[s]).toNat_lt
    omega
  by_cases hend : src.length ≤ (tokenLength src (s + 1) ((src[s]).toNat / 16)).2 +
      (tokenLength src (s + 1) ((src[s]).toNat / 16)).1.getD 0
  · left
    rw [lz4Pass]
    dsimp only
    rw [hat, shiftRight_halfByte, lz4Match, if_pos hend]
    exact ⟨_, _, rfl⟩
  · rcases tokenLength_cases src (s + 1) hhalf with ⟨ext, n, rest, hext, hrest⟩ | hover
    · rw [tokenLength_eq hext hrest, Option.getD_some] at hend
      have hlen := congrArg List.length hrest
      rw [length_drop, length_append] at hlen
      have hn : n < rest.length := by omega
      rw [hrest, ← take_append_drop n rest, ← cons_getElem_drop_succ (h := hn)] at hdrop
      refine .inr ⟨_, ext, rest.take n, _, _, hdrop, ?_⟩
      rwa [length_take_of_le (Nat.le_of_lt hn)]
    · exact absurd (Nat.le_add_right_of_le hover) hend

theorem lz4Pass_thrown {message : String} (hin : s < src.length)
    (h : lz4Pass src s d out = .thrown message) : Misdirected d (src.drop s) := by
  rcases lz4Pass_cases d out hin with ⟨d', out', hbroken⟩ |
    ⟨token, ext, lits, o₁, rest, hdrop, hext⟩
  · rw [hbroken] at h
    cases h
  · rw [lz4Pass_eq hdrop hext, lz4Match_eq (drop_append (drop_append (drop_cons hdrop).2.2))] at h
    rw [hdrop]
    refine .here hext ?_
    split at h
    next hzero => exact .inl hzero
    next =>
      split at h
      next hlt => exact .inr hlt
      next => cases h

theorem lz4Pass_again {s' d' : Nat} {out' : List UInt8} (hin : s < src.length)
    (h : lz4Pass src s d out = .again s' d' out') (hlater : Misdirected d' (src.drop s')) :
    Misdirected d (src.drop s) := by
  have hmore : s' < src.length := by
    by_contra hge
    rw [drop_eq_nil_of_le (Nat.not_lt.mp hge)] at hlater
    cases hlater
  rcases lz4Pass_cases d out hin with ⟨d', out', hbroken⟩ |
    ⟨token, ext, lits, o₁, rest, hdrop, hext⟩
  · rw [hbroken] at h
    cases h
  · have hmatch := drop_append (drop_append (drop_cons hdrop).2.2)
    rw [lz4Pass_eq hdrop hext, lz4Match_eq hmatch] at h
    split at h
    next => cases h
    next hzero =>
      split at h
      next => cases h
      next hlt =>
        cases h
        have hover := le_tokenLength src (s + 1 + ext.length + lits.length + 2) (token.toNat % 16)
        cases rest with
        | nil =>
          have := congrArg List.length hmatch
          rw [length_drop, length_singleton] at this
          omega
        | cons o₂ rest =>
          rw [headD_cons] at hzero hlt
          have hhalf : token.toNat % 16 ≤ 15 := Nat.le_of_lt_succ (Nat.mod_lt _ (by decide))
          have hnext := (drop_cons (drop_cons hmatch).2.2).2.2
          rcases tokenLength_cases src (s + 1 + ext.length + lits.length + 2) hhalf with
            ⟨ext', len, rest', hext', hrest'⟩ | hend
          · rw [tokenLength_eq hext' hrest', drop_append hrest'] at hlater
            rw [hdrop, ← hnext, hrest']
            exact .later hext (Nat.pos_of_ne_zero hzero) (Nat.not_lt.mp hlt) hext' hlater
          · exact absurd hmore (Nat.not_lt.mpr hend)

/-! ## The loop -/

theorem lz4Loop_thrown {message : String} (hin : s < src.length)
    (h : lz4Pass src s d out = .thrown message) : lz4Loop src s d out = .error message := by
  rw [lz4Loop, if_pos hin, h]

theorem lz4Loop_broken {d' : Nat} {out' : List UInt8} (hin : s < src.length)
    (h : lz4Pass src s d out = .broken d' out') : lz4Loop src s d out = .ok (d', out') := by
  rw [lz4Loop, if_pos hin, h]

theorem lz4Loop_again {s' d' : Nat} {out' : List UInt8} (hin : s < src.length)
    (h : lz4Pass src s d out = .again s' d' out') :
    lz4Loop src s d out = lz4Loop src s' d' out' := by
  rw [lz4Loop, if_pos hin, h]

theorem lz4Loop_eq_error_iff :
    (∃ message, lz4Loop src s d out = .error message) ↔ Misdirected d (src.drop s) := by
  constructor
  · rintro ⟨message, h⟩
    induction s, d, out using lz4Loop.induct src with
    | case1 s d out hin message' hpass => exact lz4Pass_thrown hin hpass
    | case2 s d out hin d' out' hpass =>
      rw [lz4Loop_broken hin hpass] at h
      cases h
    | case3 s d out hin s' d' out' hpass ih =>
      rw [lz4Loop_again hin hpass] at h
      exact lz4Pass_again hin hpass (ih h)
    | case4 s d out hend =>
      rw [lz4Loop, if_neg hend] at h
      cases h
  · intro h
    generalize hdrop : src.drop s = block at h
    induction h generalizing s out with
    | @here d ext lits rest token o₁ hext hoff =>
      have hpass := @lz4Pass_eq src (o₁ :: rest) s ext lits out token d hdrop hext
      rw [lz4Match_eq (drop_append (drop_append (drop_cons hdrop).2.2))] at hpass
      split at hpass
      next => exact ⟨_, lz4Loop_thrown (drop_cons hdrop).2.1 hpass⟩
      next hzero =>
        rw [if_pos (hoff.resolve_left hzero)] at hpass
        exact ⟨_, lz4Loop_thrown (drop_cons hdrop).2.1 hpass⟩
    | @later d ext lits ext' rest token o₁ o₂ len hext hpos hle hext' _ ih =>
      have hmatch := drop_append (drop_append (drop_cons hdrop).2.2)
      have hpass := @lz4Pass_eq src _ s ext lits out token d hdrop hext
      rw [lz4Match_again hmatch hpos hle hext'] at hpass
      rw [lz4Loop_again (drop_cons hdrop).2.1 hpass]
      exact ih (drop_append (drop_cons (drop_cons hmatch).2.2).2.2)

theorem lz4Loop_decodes {v block final zs : List UInt8} (h : Decodes v block final)
    (hdrop : src.drop s = block) (hfit : final.length ≤ v.length + zs.length) :
    lz4Loop src s v.length (v ++ zs) =
      .ok (final.length, final ++ zs.drop (final.length - v.length)) := by
  induction h generalizing s zs with
  | done v =>
    rw [lz4Loop, if_neg (Nat.not_lt.mpr (drop_eq_nil_iff.mp hdrop)), Nat.sub_self]
    rfl
  | @last v ext lits token hext =>
    have hend := @drop_append src lits [] (s + 1 + ext.length)
      (by rw [append_nil, drop_append (drop_cons hdrop).2.2])
    rw [length_append] at hfit
    rw [← append_nil lits] at hdrop
    have hpass := @lz4Pass_eq src [] s ext lits (v ++ zs) token v.length hdrop hext
    rw [lz4Match, if_pos (drop_eq_nil_iff.mp hend),
      copyLiterals_eq (drop_append (drop_cons hdrop).2.2) (by omega)] at hpass
    rw [lz4Loop_broken (drop_cons hdrop).2.1 hpass, length_append, Nat.add_sub_cancel_left]
  | @sequence v ext lits ext' rest final token o₁ o₂ len hext hpos hle hext' hrest ih =>
    have hlen := hrest.length_le
    rw [length_copyBack, length_append] at hlen
    have hmatch := drop_append (drop_append (drop_cons hdrop).2.2)
    have hpass := @lz4Pass_eq src _ s ext lits (v ++ zs) token v.length hdrop hext
    rw [copyLiterals_eq (drop_append (drop_cons hdrop).2.2) (by omega),
      ← length_append, lz4Match_again hmatch hpos hle hext',
      copyMatch_eq hpos hle (by rw [length_drop]; omega), drop_drop,
      ← length_copyBack (pairValue o₁ o₂)] at hpass
    have hrest' := drop_append (drop_cons (drop_cons hmatch).2.2).2.2
    rw [lz4Loop_again (drop_cons hdrop).2.1 hpass, ih hrest' ?_, drop_drop, length_copyBack,
      length_append]
    · congr 4
      omega
    · rw [length_copyBack, length_append, length_drop]
      omega

/-! ## The two decoders -/

theorem lz4Decompress_misdirected {n : Nat} (h : Misdirected 0 src) :
    ∃ message, lz4Decompress src n = .error message := by
  obtain ⟨message, hloop⟩ := (@lz4Loop_eq_error_iff src 0 (List.replicate n 0) 0).mpr h
  refine ⟨message, ?_⟩
  rw [lz4Decompress, hloop]
  rfl

theorem lz4Decompress_of_not_misdirected (n : Nat) (h : ¬Misdirected 0 src) :
    ∃ out, lz4Decompress src n = .ok out := by
  rw [lz4Decompress]
  cases hloop : lz4Loop src 0 0 (List.replicate n 0) with
  | error message => exact absurd (lz4Loop_eq_error_iff.mp ⟨message, hloop⟩) h
  | ok p => exact ⟨_, rfl⟩

theorem lz4Decompress_decodes {final : List UInt8} (h : Decodes [] src final) :
    lz4Decompress src final.length = .ok final := by
  have hfit :
    final.length ≤ ([] : List UInt8).length + (List.replicate final.length (0 : UInt8)).length := by
    rw [length_replicate]
    exact Nat.le_add_left _ _
  have hloop := lz4Loop_decodes h (drop_zero (l := src)) hfit
  rw [nil_append, length_nil, Nat.sub_zero, drop_replicate, Nat.sub_self,
    replicate_zero, append_nil] at hloop
  rw [lz4Decompress, hloop]
  exact congrArg Except.ok (if_pos rfl)

/-- The two decoders, given the same bytes and room for `n`: the client's returns `n` bytes
just when the daemon's does, then the same ones, and throws otherwise. -/
def Lz4Agrees (src : List UInt8) (n : Nat) : Prop :=
  ∀ mem dst : Nat → UInt8, HasBytes mem 0 src →
    ((∃ out, lz4Decompress src n = .ok out ∧ out.length = n) ↔
      (lz4DecompressSafe mem dst src.length n).1 = n) ∧
    ((lz4DecompressSafe mem dst src.length n).1 = n →
      lz4Decompress src n = .ok (slice (lz4DecompressSafe mem dst src.length n).2 0 n)) ∧
    ((lz4DecompressSafe mem dst src.length n).1 ≠ n →
      ∃ message, lz4Decompress src n = .error message)

theorem lz4Agrees_of_misdirected {n : Nat} (hsize : src.length < 2 ^ 31) (h : Misdirected 0 src) :
    Lz4Agrees src n := by
  intro mem dst hmem
  obtain ⟨message, herror⟩ := lz4Decompress_misdirected (n := n) h
  have hslice : slice mem 0 src.length = src := hmem
  rw [← hslice] at h
  have hsafe := lz4DecompressSafe_misdirected dst n h (Nat.lt_trans hsize (by decide))
  have hne : ((-1 : Int)) ≠ n := by omega
  rw [hsafe, herror]
  refine ⟨⟨?_, fun h => absurd h hne⟩, fun h => absurd h hne, fun _ => ⟨message, rfl⟩⟩
  rintro ⟨out, hout, -⟩
  cases hout

theorem lz4Agrees_of_decodes {final : List UInt8} (hn : final.length < 2 ^ 31)
    (h : Decodes [] src final) : Lz4Agrees src final.length := by
  intro mem dst hmem
  have hok := lz4Decompress_decodes h
  have hslice : slice mem 0 src.length = src := hmem
  rw [← hslice] at h
  obtain ⟨dst', hsafe, hfinal⟩ :=
    lz4DecompressSafe_complete dst h (Int.le_refl _) (by omega)
  rw [hsafe, hok]
  refine ⟨⟨fun _ => rfl, fun _ => ⟨final, rfl, rfl⟩⟩, fun _ => ?_, fun h => absurd rfl h⟩
  rw [hfinal]

theorem decodes_of_lz4Agrees {n : Nat} (hsize : 255 * src.length + 19 < 2 ^ 32)
    (h : Lz4Agrees src n) :
    Misdirected 0 src ∨ ∃ final, Decodes [] src final ∧ final.length = n := by
  by_cases hmis : Misdirected 0 src
  · exact .inl hmis
  · obtain ⟨-, -, hthrows⟩ := h (atZero src) (fun _ => 0) (slice_atZero src)
    obtain ⟨out, hout⟩ := lz4Decompress_of_not_misdirected n hmis
    have hsafe : (lz4DecompressSafe (atZero src) (fun _ => 0) src.length n).1 = n := by
      by_contra hne
      obtain ⟨message, herror⟩ := hthrows hne
      rw [hout] at herror
      cases herror
    have hwrap : 255 * (src.length : Int) + 19 < 2 ^ 32 := by omega
    obtain ⟨-, final, hdecodes, hlen, -⟩ :=
      lz4DecompressSafe_sound hwrap (Prod.ext hsafe rfl) (Int.natCast_nonneg n)
    rw [Int.toNat_natCast, slice_atZero] at hdecodes
    exact .inr ⟨final, hdecodes, Int.ofNat_inj.mp hlen.symm⟩

/-- The decoders agree on a block that decodes to the size asked for, on one that comes to a
copy of bytes that are not there, and, as long as no length of it could be lost in 32 bits,
on no other. -/
theorem lz4Agrees_iff (src : List UInt8) (n : Nat) (hsize : src.length < 2 ^ 31) (hn : n < 2 ^ 31) :
    ((Misdirected 0 src ∨ ∃ final, Decodes [] src final ∧ final.length = n) → Lz4Agrees src n) ∧
      (255 * src.length + 19 < 2 ^ 32 →
        (Lz4Agrees src n ↔ Misdirected 0 src ∨ ∃ final, Decodes [] src final ∧
          final.length = n)) := by
  have hgood : (Misdirected 0 src ∨ ∃ final, Decodes [] src final ∧ final.length = n) →
      Lz4Agrees src n := by
    rintro (hmis | ⟨final, hdecodes, rfl⟩)
    · exact lz4Agrees_of_misdirected hsize hmis
    · exact lz4Agrees_of_decodes hn hdecodes
  exact ⟨hgood, fun hshort => ⟨decodes_of_lz4Agrees hshort, hgood⟩⟩

theorem lz4Agrees_iff_literals :
    [0x20, 7, 8].length < 2 ^ 31 ∧ 2 < 2 ^ 31 ∧ Lz4Agrees [0x20, 7, 8] 2 :=
  have hdecodes : Decodes [] [0x20, 7, 8] [7, 8] :=
    @Decodes.last [] [] [7, 8] 0x20 (.short (by decide))
  ⟨by decide, by decide, (lz4Agrees_iff [0x20, 7, 8] 2 (by decide) (by decide)).1
    (.inr ⟨[7, 8], hdecodes, rfl⟩)⟩

theorem lz4Agrees_fails : ¬Lz4Agrees [0x10] 1 := by
  intro h
  obtain ⟨-, -, hthrows⟩ := h (atZero [0x10]) (fun _ => 0) (slice_atZero _)
  have hok : lz4Decompress [0x10] 1 = .ok [0] := by
    rw [lz4Decompress, lz4Loop]
    rfl
  have hsafe :
    (lz4DecompressSafe (atZero [0x10]) (fun _ => 0) ([0x10] : List UInt8).length 1).1 = -1 := by
    have hpass : decompressPass (atZero [0x10]) 1 1 0 0 (fun _ ↦ 0) = .done (-1) (fun _ ↦ 0) := rfl
    exact congrArg Prod.fst (decompressLoop_done hpass)
  obtain ⟨message, herror⟩ := hthrows (by rw [Nat.cast_one, hsafe]; decide)
  rw [hok] at herror
  cases herror

/-! ## What the compressor makes -/

/-- What the compressor returns keeps the rules for the end of a block, whatever the table was
before, and both decoders make its source of it. -/
theorem lz4CompressDefault_strict {t t' : HashTable} {src dst dst' : Nat → UInt8}
    {srcSize dstCapacity : Int} {n : Nat}
    (h : lz4CompressDefault t src dst srcSize dstCapacity = (t', n, dst')) (hn : 0 < n)
    (hsize : srcSize < 2 ^ 31) :
    DecodesStrictly [] (slice dst' 0 n) (slice src 0 srcSize.toNat) ∧
      lz4Decompress (slice dst' 0 n) srcSize.toNat = .ok (slice src 0 srcSize.toNat) ∧
      ∀ out, ∃ out', lz4DecompressSafe dst' out n srcSize = (srcSize, out') ∧
        slice out' 0 srcSize.toNat = slice src 0 srcSize.toNat := by
  have hstrict := decodesStrictly_lz4CompressDefault h hn
  have hmin := le_srcSize_of_lz4CompressDefault h hn
  obtain ⟨m, rfl⟩ := Int.eq_ofNat_of_zero_le (Int.le_trans (Int.natCast_nonneg _) hmin)
  refine ⟨hstrict, ?_, fun out => ?_⟩
  · have hclient := lz4Decompress_decodes hstrict.decodes
    rwa [length_slice] at hclient
  · rw [Int.toNat_natCast] at hstrict ⊢
    have hfit : ((slice src 0 m).length : Int) ≤ m := by rw [length_slice]
    have hsafe := lz4DecompressSafe_complete out hstrict.decodes hfit hsize
    rwa [length_slice] at hsafe

theorem lz4CompressDefault_strict_zeros :
    DecodesStrictly [] (slice (lz4CompressDefault ⟨id, 4095⟩ (fun _ => 0) (fun _ => 1) 32 100).2.2 0
        (lz4CompressDefault ⟨id, 4095⟩ (fun _ => 0) (fun _ => 1) 32 100).2.1)
      (slice (fun _ => 0) 0 32) :=
  have hn : 0 < (lz4CompressDefault ⟨id, 4095⟩ (fun _ => 0) (fun _ => 1) 32 100).2.1 := by
    decide +kernel
  (@lz4CompressDefault_strict ⟨id, 4095⟩ _ (fun _ => 0) (fun _ => 1) _ 32 100 _ rfl hn
    (by decide)).1

end MemDbg.Tauri
