import MemDbg.Core.Status
import Mathlib.Data.List.Basic

/-!
# Remote serial protocol frames

A frame is `$`, the escaped payload, `#` and two hexadecimal digits of checksum.  The
receiver also takes run-length encoded bodies, and asks for a frame again that it
cannot read.
-/

namespace MemDbg.Gdb

open List

/-! ## The wire format -/

def maxRspPacketBytes : Nat := 0x200000

def startByte : UInt8 := 0x24

def endByte : UInt8 := 0x23

def escapeByte : UInt8 := 0x7d

def repeatByte : UInt8 := 0x2a

def positiveAck : UInt8 := 0x2b

def negativeAck : UInt8 := 0x2d

def rspChecksum (payload : List UInt8) : Nat :=
  payload.foldl (fun sum c => (sum + c.toNat) % 256) 0

def isSpecial (c : UInt8) : Bool :=
  c == startByte || c == endByte || c == escapeByte || c == repeatByte

def rspEscape (payload : List UInt8) : List UInt8 :=
  payload.flatMap fun c => if isSpecial c then [escapeByte, c ^^^ 0x20] else [c]

def rspDecodeFrom : List UInt8 → List UInt8 → Option (List UInt8)
  | out, [] => some out
  | out, c :: rest =>
    if c = escapeByte then
      match rest with
      | [] => none
      | x :: rest => rspDecodeFrom (out ++ [x ^^^ 0x20]) rest
    else if c = repeatByte then
      match rest with
      | [] => none
      | n :: rest =>
        match out.getLast? with
        | none => none
        | some last =>
          if n < 32 ∨ 126 < n then none
          else if n.toNat - 29 > sub64 maxRspPacketBytes out.length then none
          else rspDecodeFrom (out ++ List.replicate (n.toNat - 29) last) rest
    else if out.length + 1 > maxRspPacketBytes then none
    else rspDecodeFrom (out ++ [c]) rest

theorem rspDecodeFrom_nil (out : List UInt8) : rspDecodeFrom out [] = some out := by
  rw [rspDecodeFrom.eq_def]

def rspDecode (encoded : List UInt8) : Option (List UInt8) := rspDecodeFrom [] encoded

def hexDigit (n : Nat) : UInt8 := if n < 10 then UInt8.ofNat (48 + n) else UInt8.ofNat (87 + n)

def hexNibble (c : UInt8) : Option Nat :=
  if 48 ≤ c.toNat ∧ c.toNat ≤ 57 then some (c.toNat - 48)
  else if 97 ≤ c.toNat ∧ c.toNat ≤ 102 then some (c.toNat - 87)
  else if 65 ≤ c.toNat ∧ c.toNat ≤ 70 then some (c.toNat - 55)
  else none

def sendPacket (payload : List UInt8) : List UInt8 :=
  let escaped := rspEscape payload
  let cs := rspChecksum escaped
  startByte :: escaped ++ [endByte, hexDigit (cs / 16), hexDigit (cs % 16)]

/-! ## Receiving -/

inductive Received where
  | packet (payload : List UInt8) (rest : List UInt8)
  | interrupt (rest : List UInt8)
  | failed (rest : List UInt8)
deriving DecidableEq

def readBody : List UInt8 → List UInt8 → Except (List UInt8) (List UInt8 × List UInt8)
  | _, [] => .error []
  | body, c :: rest =>
    if c = endByte then .ok (body, rest)
    else if body.length + 1 > maxRspPacketBytes then .error rest
    else readBody (body ++ [c]) rest

theorem readBody_length {body stream : List UInt8} {p : List UInt8 × List UInt8}
    (h : readBody body stream = .ok p) : p.2.length < stream.length := by
  induction stream generalizing body with
  | nil => cases h
  | cons c rest ih =>
    rw [readBody] at h
    split_ifs at h
    · cases h
      exact Nat.lt_succ_self _
    · exact Nat.lt_succ_of_lt (ih h)

def checksumMatches (body : List UInt8) (c₁ c₂ : UInt8) : Bool :=
  match hexNibble c₁, hexNibble c₂ with
  | some hi, some lo => hi * 16 + lo == rspChecksum body
  | _, _ => false

def recvPacket (stream : List UInt8) : Received :=
  match stream with
  | [] => .failed []
  | b :: rest =>
    if b = 3 then .interrupt rest
    else if b ≠ startByte then recvPacket rest
    else
      match _hbody : readBody [] rest with
      | .error rest => .failed rest
      | .ok (body, c₁ :: c₂ :: rest') =>
        if checksumMatches body c₁ c₂ then
          match rspDecode body with
          | some payload => .packet payload rest'
          | none => recvPacket rest'
        else recvPacket rest'
      | .ok (_, _) => .failed []
termination_by stream.length
decreasing_by
  · exact Nat.lt_succ_self _
  all_goals
    have hlength := readBody_length _hbody
    simp only [length_cons] at hlength ⊢
    omega

def recvPackets : Nat → List UInt8 → List (List UInt8) × List UInt8
  | 0, stream => ([], stream)
  | n + 1, stream =>
    match recvPacket stream with
    | .packet payload rest =>
      let (payloads, rest) := recvPackets n rest
      (payload :: payloads, rest)
    | _ => ([], stream)

/-! ## Round trip -/

theorem hexNibble_hexDigit {n : Nat} (h : n < 16) : hexNibble (hexDigit n) = some n := by
  have hall : ∀ n : Fin 16, hexNibble (hexDigit n) = some n.1 := by decide
  exact hall ⟨n, h⟩

theorem rspChecksum_lt (payload : List UInt8) : rspChecksum payload < 256 := by
  refine List.foldlRecOn (motive := fun sum => sum < 256) payload _ (by decide) fun sum _ c _ => ?_
  exact Nat.mod_lt _ (by decide)

theorem checksumMatches_self (body : List UInt8) :
    checksumMatches body (hexDigit (rspChecksum body / 16)) (hexDigit (rspChecksum body % 16)) =
      true := by
  have hlt := rspChecksum_lt body
  rw [checksumMatches, hexNibble_hexDigit (by omega), hexNibble_hexDigit (by omega), beq_iff_eq]
  omega

theorem rspDecodeFrom_escape (out : List UInt8) (x : UInt8) (rest : List UInt8) :
    rspDecodeFrom out (escapeByte :: x :: rest) = rspDecodeFrom (out ++ [x ^^^ 0x20]) rest := by
  rw [rspDecodeFrom.eq_def]
  dsimp only
  rw [if_pos rfl]

theorem rspDecodeFrom_repeat {out : List UInt8} {last : UInt8} (hlast : out.getLast? = some last)
    {n : UInt8} (hn : 32 ≤ n ∧ n ≤ 126)
    (hlimit : n.toNat - 29 ≤ sub64 maxRspPacketBytes out.length) (rest : List UInt8) :
    rspDecodeFrom out (repeatByte :: n :: rest) =
      rspDecodeFrom (out ++ List.replicate (n.toNat - 29) last) rest := by
  rw [rspDecodeFrom.eq_def]
  dsimp only
  rw [if_neg (by decide), if_pos rfl, hlast]
  dsimp only
  rw [if_neg, if_neg (Nat.not_lt.2 hlimit)]
  rintro (hlow | hhigh)
  · exact absurd hn.1 (UInt8.not_le.2 hlow)
  · exact absurd hn.2 (UInt8.not_le.2 hhigh)

theorem rspDecodeFrom_literal {out : List UInt8} {c : UInt8} (hc : c ≠ escapeByte ∧ c ≠ repeatByte)
    (hlimit : out.length < maxRspPacketBytes) (rest : List UInt8) :
    rspDecodeFrom out (c :: rest) = rspDecodeFrom (out ++ [c]) rest := by
  rw [rspDecodeFrom.eq_def]
  dsimp only
  rw [if_neg hc.1, if_neg hc.2, if_neg (Nat.not_lt.2 hlimit)]

theorem rspDecodeFrom_cons {out encoded decoded : List UInt8} {c : UInt8}
    (h : rspDecodeFrom out (c :: encoded) = some decoded) :
    (∃ x rest, c = escapeByte ∧ encoded = x :: rest ∧
        rspDecodeFrom (out ++ [x ^^^ 0x20]) rest = some decoded) ∨
      (∃ n rest last, c = repeatByte ∧ encoded = n :: rest ∧ out.getLast? = some last ∧
        (32 ≤ n ∧ n ≤ 126) ∧ n.toNat - 29 ≤ sub64 maxRspPacketBytes out.length ∧
        rspDecodeFrom (out ++ List.replicate (n.toNat - 29) last) rest = some decoded) ∨
      ((c ≠ escapeByte ∧ c ≠ repeatByte) ∧ out.length < maxRspPacketBytes ∧
        rspDecodeFrom (out ++ [c]) encoded = some decoded) := by
  rw [rspDecodeFrom.eq_def] at h
  dsimp only at h
  split_ifs at h with hescape hrepeat hlimit
  · cases encoded with
    | nil => cases h
    | cons x rest => exact .inl ⟨x, rest, hescape, rfl, h⟩
  · cases encoded with
    | nil => cases h
    | cons n rest =>
      cases hlast : out.getLast? with
      | none =>
        rw [hlast] at h
        cases h
      | some last =>
        rw [hlast] at h
        dsimp only at h
        split_ifs at h with hrange hfits
        rw [not_or, UInt8.not_lt, UInt8.not_lt] at hrange
        exact .inr (.inl ⟨n, rest, last, hrepeat, rfl, rfl, hrange, Nat.not_lt.1 hfits, h⟩)
  · exact .inr (.inr ⟨⟨hescape, hrepeat⟩, Nat.not_lt.1 hlimit, h⟩)

theorem isSpecial_iff (c : UInt8) : isSpecial c = true ↔
    c = startByte ∨ c = endByte ∨ c = escapeByte ∨ c = repeatByte := by
  simp [isSpecial, or_assoc]

theorem endByte_notMem_rspEscape (payload : List UInt8) : endByte ∉ rspEscape payload := by
  intro hmem
  obtain ⟨c, -, hc⟩ := mem_flatMap.1 hmem
  split_ifs at hc with hspecial
  · rw [isSpecial_iff] at hspecial
    rcases hspecial with rfl | rfl | rfl | rfl
    all_goals revert hc; decide
  · rw [mem_singleton] at hc
    exact hspecial (by rw [← hc]; decide)

theorem length_le_length_rspEscape (payload : List UInt8) :
    payload.length ≤ (rspEscape payload).length := by
  induction payload with
  | nil => exact Nat.le_refl _
  | cons c payload ih =>
    rw [rspEscape, flatMap_cons, length_append, length_cons]
    have hone : 1 ≤ (if isSpecial c then [escapeByte, c ^^^ 0x20] else [c]).length := by
      split_ifs
      · exact Nat.le_succ 1
      · exact Nat.le_refl 1
    rw [rspEscape] at ih
    omega

theorem rspDecodeFrom_rspEscape (payload : List UInt8) :
    ∀ out : List UInt8, out.length + payload.length ≤ maxRspPacketBytes →
      rspDecodeFrom out (rspEscape payload) = some (out ++ payload) := by
  induction payload with
  | nil =>
    intro out _
    rw [append_nil]
    exact rspDecodeFrom_nil out
  | cons c payload ih =>
    intro out hlength
    rw [length_cons] at hlength
    have hrest := ih (out ++ [c]) (by
      rw [length_append, length_singleton]
      omega)
    rw [append_assoc, singleton_append] at hrest
    rw [rspEscape, flatMap_cons, ← rspEscape]
    split_ifs with hspecial
    · have hback : c ^^^ 0x20 ^^^ 0x20 = c := by
        rw [UInt8.xor_assoc, UInt8.xor_self, UInt8.xor_zero]
      rw [cons_append, singleton_append, rspDecodeFrom_escape, hback]
      exact hrest
    · have hne : c ≠ escapeByte ∧ c ≠ repeatByte := by
        rw [isSpecial_iff, not_or, not_or, not_or] at hspecial
        exact hspecial.2.2
      rw [singleton_append, rspDecodeFrom_literal hne (by omega)]
      exact hrest

theorem readBody_append {stream : List UInt8} (hstream : endByte ∉ stream) (rest : List UInt8) :
    ∀ body : List UInt8, body.length + stream.length ≤ maxRspPacketBytes →
      readBody body (stream ++ endByte :: rest) = .ok (body ++ stream, rest) := by
  induction stream with
  | nil =>
    intro body _
    rw [nil_append, readBody, if_pos rfl, append_nil]
  | cons c stream ih =>
    intro body hlength
    rw [mem_cons, not_or] at hstream
    rw [length_cons] at hlength
    rw [cons_append, readBody, if_neg (Ne.symm hstream.1), if_neg (by omega),
      ih hstream.2 (body ++ [c]) (by
        rw [length_append, length_singleton]
        omega), append_assoc, singleton_append]

theorem recvPacket_sendPacket {payload : List UInt8}
    (hlength : (rspEscape payload).length ≤ maxRspPacketBytes) (rest : List UInt8) :
    recvPacket (sendPacket payload ++ rest) = .packet payload rest := by
  have hbody := readBody_append (endByte_notMem_rspEscape payload)
    (hexDigit (rspChecksum (rspEscape payload) / 16) ::
      hexDigit (rspChecksum (rspEscape payload) % 16) :: rest) [] (by simpa using hlength)
  have hdecode : rspDecode (rspEscape payload) = some payload :=
    rspDecodeFrom_rspEscape payload [] (by
      have hle := length_le_length_rspEscape payload
      rw [length_nil]
      omega)
  rw [nil_append] at hbody
  have hframe : sendPacket payload ++ rest = startByte :: (rspEscape payload ++ endByte ::
      hexDigit (rspChecksum (rspEscape payload) / 16) ::
        hexDigit (rspChecksum (rspEscape payload) % 16) :: rest) := by
    simp only [sendPacket, cons_append, append_assoc, nil_append]
  rw [hframe, recvPacket.eq_def]
  dsimp only
  rw [if_neg (by decide), if_neg (by decide)]
  split
  · rename_i herror
    rw [hbody] at herror
    cases herror
  · rename_i hok
    rw [hbody] at hok
    cases hok
    rw [if_pos (checksumMatches_self _), hdecode]
  · rename_i hshort hok
    rw [hbody] at hok
    cases hok
    exact (hshort _ _ _ rfl).elim

theorem recvPacket_append_of_ack {gap : List UInt8}
    (hgap : ∀ c ∈ gap, c = positiveAck ∨ c = negativeAck) (rest : List UInt8) :
    recvPacket (gap ++ rest) = recvPacket rest := by
  induction gap with
  | nil => rfl
  | cons c gap ih =>
    rw [forall_mem_cons] at hgap
    rw [cons_append, recvPacket.eq_def]
    dsimp only
    rw [if_neg, if_pos]
    · exact ih hgap.2
    · rcases hgap.1 with rfl | rfl
      · decide
      · decide
    · rcases hgap.1 with rfl | rfl
      · decide
      · decide

theorem recvPackets_flatMap_sendPacket (frames : List (List UInt8 × List UInt8))
    (hframes : ∀ f ∈ frames, (∀ c ∈ f.1, c = positiveAck ∨ c = negativeAck) ∧
      (rspEscape f.2).length ≤ maxRspPacketBytes) (rest : List UInt8) :
    recvPackets frames.length (frames.flatMap (fun f => f.1 ++ sendPacket f.2) ++ rest) =
      (frames.map Prod.snd, rest) := by
  induction frames with
  | nil => rfl
  | cons f frames ih =>
    rw [forall_mem_cons] at hframes
    have hfirst : recvPacket ((f :: frames).flatMap (fun f => f.1 ++ sendPacket f.2) ++ rest) =
        .packet f.2 (frames.flatMap (fun f => f.1 ++ sendPacket f.2) ++ rest) := by
      rw [flatMap_cons, append_assoc, append_assoc,
        recvPacket_append_of_ack hframes.1.1, recvPacket_sendPacket hframes.1.2]
    rw [length_cons, recvPackets, hfirst]
    dsimp only
    rw [ih hframes.2, map_cons]

/-! ## What a body means -/

/-- The standard meaning of a body, which knows no limit. -/
inductive Means : List UInt8 → List UInt8 → Prop
  | nil : Means [] []
  | literal {e o : List UInt8} {c : UInt8} : Means e o → c ≠ escapeByte → c ≠ repeatByte →
      Means (e ++ [c]) (o ++ [c])
  | escape {e o : List UInt8} {x : UInt8} : Means e o →
      Means (e ++ [escapeByte, x]) (o ++ [x ^^^ 0x20])
  | repeat {e o : List UInt8} {last n : UInt8} : Means e o → o.getLast? = some last →
      32 ≤ n ∧ n ≤ 126 → Means (e ++ [repeatByte, n]) (o ++ List.replicate (n.toNat - 29) last)

def literalFree : List UInt8 → Bool
  | [] => true
  | [_] => false
  | c :: x :: rest =>
    (c == escapeByte || (c == repeatByte && 32 ≤ x && x ≤ 126)) && literalFree rest

/-- A body that fills the limit to the byte, has an escape there, and no literal after it. -/
def Overruns (body : List UInt8) : Prop :=
  ∃ pre x post out, body = pre ++ escapeByte :: x :: post ∧ Means pre out ∧
    out.length = maxRspPacketBytes ∧ literalFree post = true

theorem toNat_sub_le {n : UInt8} (hn : 32 ≤ n ∧ n ≤ 126) : n.toNat - 29 ≤ 97 := by
  have hle : n.toNat ≤ 126 := UInt8.le_iff_toNat_le.1 hn.2
  omega

theorem Means.rspDecodeFrom_append {e o : List UInt8} (h : Means e o)
    (hlength : o.length ≤ maxRspPacketBytes) (rest : List UInt8) :
    rspDecodeFrom [] (e ++ rest) = rspDecodeFrom o rest := by
  induction h generalizing rest with
  | nil => rfl
  | literal _ hescape hrepeat ih =>
    rw [length_append, length_singleton] at hlength
    rw [append_assoc, ih (Nat.le_of_succ_le hlength), singleton_append,
      rspDecodeFrom_literal ⟨hescape, hrepeat⟩ hlength]
  | escape _ ih =>
    rw [length_append, length_singleton] at hlength
    rw [append_assoc, ih (Nat.le_of_succ_le hlength), cons_append,
      singleton_append, rspDecodeFrom_escape]
  | «repeat» _ hlast hn ih =>
    rw [length_append, length_replicate] at hlength
    have hle := Nat.le_trans (Nat.le_add_right _ _) hlength
    rw [append_assoc, ih hle, cons_append, singleton_append,
      rspDecodeFrom_repeat hlast hn]
    rw [sub64_of_le hle (by decide)]
    omega

theorem Means.append_of_rspDecodeFrom {e o : List UInt8} (h : Means e o) :
    ∀ {rest decoded : List UInt8}, rspDecodeFrom o rest = some decoded →
      Means (e ++ rest) decoded := by
  intro rest decoded hdecode
  induction hlen : rest.length using Nat.strongRecOn generalizing e o rest with
  | ind len ih =>
    cases rest with
    | nil =>
      rw [rspDecodeFrom_nil] at hdecode
      cases hdecode
      rwa [append_nil]
    | cons c rest =>
      subst hlen
      rcases rspDecodeFrom_cons hdecode with ⟨x, rest, rfl, rfl, hnext⟩ |
        ⟨n, rest, last, rfl, rfl, hlast, hn, -, hnext⟩ | ⟨hc, -, hnext⟩
      · have hmeans := ih _ (Nat.lt_succ_of_lt (Nat.lt_succ_self _)) h.escape hnext rfl
        rwa [append_assoc] at hmeans
      · have hmeans := ih _ (Nat.lt_succ_of_lt (Nat.lt_succ_self _)) (h.repeat hlast hn) hnext rfl
        rwa [append_assoc] at hmeans
      · have hmeans := ih _ (Nat.lt_succ_self _) (h.literal hc.1 hc.2) hnext rfl
        rwa [append_assoc] at hmeans

theorem literalFree_of_rspDecodeFrom :
    ∀ {rest o decoded : List UInt8}, maxRspPacketBytes < o.length →
      rspDecodeFrom o rest = some decoded → literalFree rest = true := by
  intro rest
  induction rest using literalFree.induct with
  | case1 => exact fun _ _ => rfl
  | case2 c =>
    intro o decoded hlimit hdecode
    rcases rspDecodeFrom_cons hdecode with ⟨_, _, _, h, _⟩ | ⟨_, _, _, _, h, _⟩ | ⟨_, hle, _⟩
    · cases h
    · cases h
    · exact absurd hle (Nat.lt_asymm hlimit)
  | case3 c x rest ih =>
    intro o decoded hlimit hdecode
    rcases rspDecodeFrom_cons hdecode with ⟨_, _, rfl, h, hnext⟩ |
      ⟨n, _, last, rfl, h, -, hn, -, hnext⟩ | ⟨_, hle, _⟩
    · cases h
      rw [literalFree, ih _ hnext, beq_self_eq_true, Bool.true_or, Bool.and_true]
      rw [length_append]
      exact Nat.lt_add_right _ hlimit
    · cases h
      rw [literalFree, ih _ hnext, Bool.and_true, Bool.or_eq_true]
      · refine .inr ?_
        rw [beq_self_eq_true, Bool.true_and, Bool.and_eq_true, decide_eq_true_iff,
          decide_eq_true_iff]
        exact hn
      · rw [length_append]
        exact Nat.lt_add_right _ hlimit
    · exact absurd hle (Nat.lt_asymm hlimit)

theorem rspDecodeFrom_of_literalFree :
    ∀ {rest o : List UInt8}, maxRspPacketBytes < o.length →
      o.length + 97 * rest.length ≤ 2 ^ 63 → literalFree rest = true →
        ∃ decoded, rspDecodeFrom o rest = some decoded ∧ maxRspPacketBytes < decoded.length := by
  intro rest
  induction rest using literalFree.induct with
  | case1 => exact fun hlimit _ _ => ⟨_, rspDecodeFrom_nil _, hlimit⟩
  | case2 c =>
    intro o _ _ hfree
    cases hfree
  | case3 c x rest ih =>
    intro o hlimit hbound hfree
    rw [length_cons, length_cons] at hbound
    rw [literalFree, Bool.and_eq_true, Bool.or_eq_true, beq_iff_eq] at hfree
    obtain ⟨rfl | hrepeat, hfree⟩ := hfree
    · rw [rspDecodeFrom_escape]
      refine ih ?_ ?_ hfree
      · rw [length_append]
        exact Nat.lt_add_right _ hlimit
      · rw [length_append, length_singleton]
        omega
    · rw [Bool.and_eq_true, Bool.and_eq_true, beq_iff_eq, decide_eq_true_iff,
        decide_eq_true_iff, and_assoc] at hrepeat
      obtain ⟨rfl, hn⟩ := hrepeat
      have hcount := toNat_sub_le hn
      have hlast : o.getLast? = some (o.getLast (ne_nil_of_length_pos
          (Nat.zero_lt_of_lt hlimit))) := getLast?_eq_some_getLast _
      rw [rspDecodeFrom_repeat hlast hn]
      · refine ih ?_ ?_ hfree
        · rw [length_append]
          exact Nat.lt_add_right _ hlimit
        · rw [length_append, length_replicate]
          omega
      · unfold sub64 maxRspPacketBytes
        rw [maxRspPacketBytes] at hlimit
        omega

theorem Means.length_le_or_overruns {e o : List UInt8} (h : Means e o)
    (hlength : o.length ≤ maxRspPacketBytes) :
    ∀ {rest decoded : List UInt8}, rspDecodeFrom o rest = some decoded →
      decoded.length ≤ maxRspPacketBytes ∨ Overruns (e ++ rest) := by
  intro rest decoded hdecode
  induction hlen : rest.length using Nat.strongRecOn generalizing e o rest with
  | ind len ih =>
    cases rest with
    | nil =>
      rw [rspDecodeFrom_nil] at hdecode
      cases hdecode
      exact .inl hlength
    | cons c rest =>
      subst hlen
      rcases rspDecodeFrom_cons hdecode with ⟨x, rest, rfl, rfl, hnext⟩ |
        ⟨n, rest, last, rfl, rfl, hlast, hn, hroom, hnext⟩ | ⟨hc, hroom, hnext⟩
      · rcases Nat.lt_or_eq_of_le hlength with hlt | heq
        · have hgo := ih _ (Nat.lt_succ_of_lt (Nat.lt_succ_self _)) h.escape (by
            rw [length_append]
            exact hlt) hnext rfl
          rwa [append_assoc] at hgo
        · refine .inr ⟨e, x, rest, o, rfl, h, heq, ?_⟩
          refine literalFree_of_rspDecodeFrom ?_ hnext
          rw [length_append, heq]
          exact Nat.lt_succ_self _
      · rw [sub64_of_le hlength (by decide)] at hroom
        have hgo := ih _ (Nat.lt_succ_of_lt (Nat.lt_succ_self _)) (h.repeat hlast hn) (by
          rw [length_append, length_replicate]
          omega) hnext rfl
        rwa [append_assoc] at hgo
      · have hgo := ih _ (Nat.lt_succ_self _) (h.literal hc.1 hc.2) (by
          rw [length_append]
          exact hroom) hnext rfl
        rwa [append_assoc] at hgo

theorem Overruns.rspDecode {body : List UInt8} (h : Overruns body)
    (hlength : body.length ≤ maxRspPacketBytes) :
    ∃ decoded, rspDecode body = some decoded ∧ maxRspPacketBytes < decoded.length := by
  obtain ⟨pre, x, post, out, rfl, hmeans, hfull, hfree⟩ := h
  rw [Gdb.rspDecode, hmeans.rspDecodeFrom_append (Nat.le_of_eq hfull), rspDecodeFrom_escape]
  rw [length_append, length_cons, length_cons] at hlength
  refine rspDecodeFrom_of_literalFree ?_ ?_ hfree
  · rw [length_append, hfull]
    exact Nat.lt_succ_self _
  · rw [length_append, hfull, length_singleton]
    rw [maxRspPacketBytes] at hlength ⊢
    omega

def runs (k : Nat) : List UInt8 := 97 :: (List.replicate k [repeatByte, 126]).flatten

theorem runs_succ (k : Nat) : runs (k + 1) = runs k ++ [repeatByte, 126] := by
  rw [runs, replicate_succ', flatten_append, flatten_singleton]
  rfl

theorem length_runs (k : Nat) : (runs k).length = 1 + 2 * k := by
  induction k with
  | zero => rfl
  | succ k ih =>
    rw [runs_succ, length_append, ih]
    simp only [length_cons, length_nil]
    omega

theorem endByte_notMem_runs (k : Nat) : endByte ∉ runs k := by
  induction k with
  | zero => decide
  | succ k ih =>
    rw [runs_succ, mem_append, not_or]
    exact ⟨ih, by decide⟩

theorem Means.repeat_replicate {e : List UInt8} {k : Nat} {c n : UInt8}
    (h : Means e (List.replicate (k + 1) c)) (hn : 32 ≤ n ∧ n ≤ 126) :
    Means (e ++ [repeatByte, n]) (List.replicate (k + 1 + (n.toNat - 29)) c) := by
  rw [← replicate_append_replicate]
  refine h.repeat ?_ hn
  rw [replicate_succ', getLast?_concat]

theorem means_runs (k : Nat) : Means (runs k) (List.replicate (97 * k + 1) 97) := by
  induction k with
  | zero => exact Means.nil.literal (by decide) (by decide)
  | succ k ih =>
    rw [runs_succ]
    have hnext := ih.repeat_replicate (n := 126) (by decide)
    rwa [show 97 * k + 1 + ((126 : UInt8).toNat - 29) = 97 * (k + 1) + 1 by
      rw [show (126 : UInt8).toNat = 126 by rfl]
      omega] at hnext

def overBody : List UInt8 := runs 21620 ++ [repeatByte, 40] ++ [escapeByte, 97]

theorem overruns_overBody : Overruns overBody := by
  refine ⟨runs 21620 ++ [repeatByte, 40], 97, [], List.replicate maxRspPacketBytes 97, rfl, ?_,
    length_replicate, rfl⟩
  have hfull : 97 * 21620 + 1 + ((40 : UInt8).toNat - 29) = maxRspPacketBytes := by decide
  rw [← hfull]
  exact (means_runs 21620).repeat_replicate (by decide)

theorem length_overBody : overBody.length = 43245 := by
  rw [overBody, length_append, length_append, length_runs]
  rfl

theorem endByte_notMem_overBody : endByte ∉ overBody := by
  rw [overBody, mem_append, mem_append, not_or, not_or]
  exact ⟨⟨endByte_notMem_runs _, by decide⟩, by decide⟩

/-- Every list of payloads comes through, whatever acknowledgements stand between the
frames; and a received body is refused or means what is returned, within the limit, unless
it overruns. -/
theorem rsp_roundTrip_and_decode_iff (frames : List (List UInt8 × List UInt8))
    (hframes : ∀ f ∈ frames, (∀ c ∈ f.1, c = positiveAck ∨ c = negativeAck) ∧
      (rspEscape f.2).length ≤ maxRspPacketBytes) (rest body : List UInt8)
    (hlength : body.length ≤ maxRspPacketBytes) :
    recvPackets frames.length
        (frames.flatMap (fun f => f.1 ++ sendPacket f.2) ++ rest) =
      (frames.map Prod.snd, rest) ∧
    ((∀ decoded, rspDecode body = some decoded →
      Means body decoded ∧ decoded.length ≤ maxRspPacketBytes) ↔ ¬ Overruns body) := by
  refine ⟨recvPackets_flatMap_sendPacket frames hframes rest, ?_, ?_⟩
  · intro hall hover
    obtain ⟨decoded, hdecode, hlong⟩ := hover.rspDecode hlength
    exact Nat.not_lt.2 (hall decoded hdecode).2 hlong
  · intro hover decoded hdecode
    refine ⟨Means.nil.append_of_rspDecodeFrom hdecode, ?_⟩
    exact (Means.nil.length_le_or_overruns (Nat.zero_le _) hdecode).resolve_right hover

theorem rsp_roundTrip_and_decode_iff_pair :
    recvPackets 2 (sendPacket [0x24, 0x2a] ++ [positiveAck, negativeAck] ++ sendPacket [7]) =
        ([[0x24, 0x2a], [7]], []) ∧
      Means [48, repeatByte, 32] [48, 48, 48, 48] := by
  have hframes : ∀ f ∈ [([], [0x24, 0x2a]), ([positiveAck, negativeAck], [7])],
      (∀ c ∈ f.1, c = positiveAck ∨ c = negativeAck) ∧
        (rspEscape f.2).length ≤ maxRspPacketBytes := by
    intro f hf
    rcases mem_pair.1 hf with rfl | rfl
    · exact ⟨nofun, by decide⟩
    · exact ⟨fun c hc => mem_pair.1 hc, by decide⟩
  obtain ⟨hframed, hdecoded⟩ := rsp_roundTrip_and_decode_iff _ hframes [] [48, repeatByte, 32]
    (by decide)
  refine ⟨hframed, (hdecoded.2 ?_ [48, 48, 48, 48] (by decide)).1⟩
  rintro ⟨pre, x, post, out, hbody, -, -, -⟩
  have hmem : escapeByte ∈ [48, repeatByte, 32] := by
    rw [hbody]
    exact mem_append_right _ mem_cons_self
  revert hmem
  decide

theorem rspDecode_over :
    ¬ ∀ body : List UInt8, body.length ≤ maxRspPacketBytes → endByte ∉ body →
      ∀ decoded, rspDecode body = some decoded →
        Means body decoded ∧ decoded.length ≤ maxRspPacketBytes := by
  intro hall
  have hlength : overBody.length ≤ maxRspPacketBytes := by
    rw [length_overBody]
    decide
  obtain ⟨decoded, hdecode, hlong⟩ := overruns_overBody.rspDecode hlength
  exact Nat.not_lt.2 (hall overBody hlength endByte_notMem_overBody decoded hdecode).2 hlong

end MemDbg.Gdb
