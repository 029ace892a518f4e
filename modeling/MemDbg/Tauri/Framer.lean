import MemDbg.Tauri.Codec

/-!
# Chunks and frames

The bridge hands on what it reads from the daemon as it comes, so a response may be cut anywhere.
The framer keeps what is incomplete, but bytes without a magic it throws away, and with them the
first bytes of a magic whose last ones are still to come.
-/

namespace MemDbg.Tauri

open List Lib

/-! ## The magic -/

def magicBytes : List UInt8 := [0x4D, 0x44, 0x42, 0x47]

/-- The magic lies at the place. -/
def MagicAt (buf : List Octet) (i : Nat) : Prop :=
  ((buf.drop i).take 4).map Octet.byte = magicBytes

instance (buf : List Octet) (i : Nat) : Decidable (MagicAt buf i) :=
  inferInstanceAs (Decidable (_ = _))

section

variable {buf a b : List Octet} {i j k n : Nat}

theorem MagicAt.le (h : MagicAt buf i) : i + 4 ≤ buf.length := by
  have hlen := congrArg List.length h
  rw [length_map, length_take, length_drop] at hlen
  have hmagic : magicBytes.length = 4 := rfl
  omega

theorem magicAt_iff : MagicAt buf i ↔ i + 4 ≤ buf.length ∧
    ∀ k < 4, (buf[i + k]?).map Octet.byte = magicBytes[k]? := by
  refine ⟨fun h => ⟨h.le, fun k hk => ?_⟩, fun ⟨hlen, h⟩ => ?_⟩
  · rw [← h, getElem?_map, getElem?_take_of_lt hk, getElem?_drop]
  · refine ext_getElem? fun k => ?_
    rw [getElem?_map]
    rcases Nat.lt_or_ge k 4 with hk | hk
    · rw [getElem?_take_of_lt hk, getElem?_drop]
      exact h k hk
    · rw [getElem?_take_eq_none hk, getElem?_eq_none (l := magicBytes) hk]
      rfl

theorem magicAt_drop : MagicAt (buf.drop k) i ↔ MagicAt buf (k + i) := by
  rw [MagicAt, MagicAt, drop_drop]

theorem magicAt_append_right : MagicAt (a ++ b) (a.length + i) ↔ MagicAt b i := by
  rw [← magicAt_drop, drop_left]

theorem magicAt_append_left (h : i + 4 ≤ a.length) : MagicAt (a ++ b) i ↔ MagicAt a i := by
  rw [MagicAt, MagicAt, drop_append_of_le_length (by omega),
    take_append_of_le_length (by rw [length_drop]; omega)]

theorem MagicAt.not_overlap (h : MagicAt buf i) (hij : i < j) (hji : j < i + 4) :
    ¬MagicAt buf j := by
  intro h'
  have hfirst := (magicAt_iff.mp h').2 0 (by decide)
  have hwithin := (magicAt_iff.mp h).2 (j - i) (by omega)
  rw [Nat.add_sub_of_le (Nat.le_of_lt hij)] at hwithin
  rw [Nat.add_zero, hwithin] at hfirst
  have hdiff : ∀ k < 4, 0 < k → magicBytes[k]? ≠ magicBytes[0]? := by decide
  exact hdiff (j - i) (by omega) (by omega) hfirst

theorem findMagic_eq_some : findMagic buf n = some i ↔
    n ≤ i ∧ MagicAt buf i ∧ ∀ j, n ≤ j → j < i → ¬MagicAt buf j := by
  rw [findMagic, find?_range'_eq_some, mem_range'_1, decide_eq_true_eq]
  refine ⟨fun ⟨hmagic, hin, hbefore⟩ => ⟨hin.1, hmagic, fun j hj hji hj' => ?_⟩,
    fun ⟨hle, hmagic, hbefore⟩ => ⟨hmagic, ⟨hle, ?_⟩, fun j hj hji => ?_⟩⟩
  · have hnot := hbefore j hj hji
    rw [Bool.not_eq_true', decide_eq_false_iff_not] at hnot
    exact hnot hj'
  · have hend := hmagic.le
    omega
  · rw [Bool.not_eq_true', decide_eq_false_iff_not]
    exact hbefore j hj hji

theorem findMagic_eq_none : findMagic buf n = none ↔ ∀ i, n ≤ i → ¬MagicAt buf i := by
  rw [findMagic, find?_eq_none]
  refine ⟨fun h i hi hmagic => ?_, fun h i hi => ?_⟩
  · have hend := hmagic.le
    exact h i (mem_range'_1.mpr ⟨hi, by omega⟩) (decide_eq_true hmagic)
  · rw [decide_eq_true_eq]
    exact h i (mem_range'_1.mp hi).1

theorem magic_headerAt (h : 4 ≤ buf.length) :
    (headerAt buf).magic = mdbgMagic ↔ MagicAt buf 0 := by
  have hmagic : mdbgMagic = leNat magicBytes := by decide
  have hlen : ((buf.map Octet.byte).take 4).length = magicBytes.length := by
    rw [length_take, length_map, Nat.min_eq_left h]
    rfl
  rw [headerAt, decodeResponseHeader, hmagic, leNat_inj hlen, MagicAt, drop_zero,
    map_take]

theorem headerAt_append (h : responseHeaderSize ≤ a.length) : headerAt (a ++ b) = headerAt a := by
  have htake : ∀ k n, k + n ≤ a.length → (((a ++ b).map Octet.byte).drop k).take n =
      ((a.map Octet.byte).drop k).take n := by
    intro k n hkn
    rw [map_append, drop_append_of_le_length (by rw [length_map]; omega),
      take_append_of_le_length (by rw [length_drop, length_map]; omega)]
  have hsize : responseHeaderSize = 20 := rfl
  have hmagic := htake 0 4 (by omega)
  rw [drop_zero, drop_zero] at hmagic
  simp only [headerAt, decodeResponseHeader, hmagic, htake 4 2 (by omega), htake 6 2 (by omega),
    htake 8 4 (by omega), htake 12 4 (by omega), htake 16 4 (by omega)]

/-! ## Turns of `drain` -/

theorem drain_of_short (h : buf.length < responseHeaderSize) : drain buf = ([], buf) := by
  rw [drain, if_pos h]

theorem drain_of_none (hlen : responseHeaderSize ≤ buf.length) (hmagic : ¬MagicAt buf 0)
    (hfind : findMagic buf 1 = none) : drain buf = ([], []) := by
  have hsize : responseHeaderSize = 20 := rfl
  rw [drain, if_neg (Nat.not_lt.mpr hlen),
    if_pos (fun h => hmagic ((magic_headerAt (by omega)).mp h))]
  split
  · rfl
  · next i hi => cases hfind.symm.trans hi

theorem drain_of_some (hlen : responseHeaderSize ≤ buf.length) (hmagic : ¬MagicAt buf 0)
    (hfind : findMagic buf 1 = some i) : drain buf = drain (buf.drop i) := by
  have hsize : responseHeaderSize = 20 := rfl
  rw [drain, if_neg (Nat.not_lt.mpr hlen),
    if_pos (fun h => hmagic ((magic_headerAt (by omega)).mp h))]
  split
  · next hi => cases hfind.symm.trans hi
  · next i' hi =>
      cases hfind.symm.trans hi
      rfl

theorem drain_of_part (hlen : responseHeaderSize ≤ buf.length) (hmagic : MagicAt buf 0)
    (hpart : buf.length < responseHeaderSize + (headerAt buf).length) : drain buf = ([], buf) := by
  have hsize : responseHeaderSize = 20 := rfl
  rw [drain, if_neg (Nat.not_lt.mpr hlen),
    if_neg (not_not_intro ((magic_headerAt (by omega)).mpr hmagic)), if_pos hpart]

theorem drain_of_frame (hlen : responseHeaderSize + (headerAt buf).length ≤ buf.length)
    (hmagic : MagicAt buf 0) :
    let total := responseHeaderSize + (headerAt buf).length
    drain buf = (⟨headerAt buf, buf.take total⟩ :: (drain (buf.drop total)).1,
      (drain (buf.drop total)).2) := by
  have hsize : responseHeaderSize = 20 := rfl
  rw [drain, if_neg (by omega), if_neg (not_not_intro ((magic_headerAt (by omega)).mpr hmagic)),
    if_neg (Nat.not_lt.mpr hlen)]

end

theorem drain_induction {P : List Octet → Prop}
    (short : ∀ buf, buf.length < responseHeaderSize → P buf)
    (none : ∀ buf, responseHeaderSize ≤ buf.length → ¬MagicAt buf 0 → findMagic buf 1 = none →
      P buf)
    (some : ∀ buf i, responseHeaderSize ≤ buf.length → ¬MagicAt buf 0 →
      findMagic buf 1 = some i → P (buf.drop i) → P buf)
    (part : ∀ buf, responseHeaderSize ≤ buf.length → MagicAt buf 0 →
      buf.length < responseHeaderSize + (headerAt buf).length → P buf)
    (frame : ∀ buf, responseHeaderSize + (headerAt buf).length ≤ buf.length → MagicAt buf 0 →
      P (buf.drop (responseHeaderSize + (headerAt buf).length)) → P buf)
    (buf : List Octet) : P buf := by
  have hsize : responseHeaderSize = 20 := rfl
  have hmagicAt : ∀ buf : List Octet, ¬buf.length < responseHeaderSize →
      ((headerAt buf).magic = mdbgMagic ↔ MagicAt buf 0) :=
    fun buf hlong => magic_headerAt (by omega)
  induction buf using drain.induct with
  | case1 buf hshort => exact short buf hshort
  | case2 buf hlong hmagic hfind =>
    exact none buf (Nat.not_lt.mp hlong) (fun h => hmagic ((hmagicAt buf hlong).mpr h)) hfind
  | case3 buf hlong hmagic i hfind ih =>
    exact some buf i (Nat.not_lt.mp hlong) (fun h => hmagic ((hmagicAt buf hlong).mpr h)) hfind ih
  | case4 buf hlong hmagic hpart =>
    exact part buf (Nat.not_lt.mp hlong) ((hmagicAt buf hlong).mp (not_not.mp hmagic)) hpart
  | case5 buf hlong hmagic hpart frames rest hdrain ih =>
    exact frame buf (Nat.not_lt.mp hpart) ((hmagicAt buf hlong).mp (not_not.mp hmagic)) ih

inductive Drops : List Octet → Prop
  | here {buf : List Octet} : responseHeaderSize ≤ buf.length → ¬MagicAt buf 0 →
      findMagic buf 1 = none → Drops buf
  | resync {buf : List Octet} {i : Nat} : responseHeaderSize ≤ buf.length → ¬MagicAt buf 0 →
      findMagic buf 1 = some i → Drops (buf.drop i) → Drops buf
  | frame {buf : List Octet} : responseHeaderSize + (headerAt buf).length ≤ buf.length →
      MagicAt buf 0 → Drops (buf.drop (responseHeaderSize + (headerAt buf).length)) → Drops buf

theorem Drops.rest {buf : List Octet} (h : Drops buf) : (drain buf).2 = [] := by
  induction h with
  | here hlen hmagic hfind => rw [drain_of_none hlen hmagic hfind]
  | resync hlen hmagic hfind _ ih => rw [drain_of_some hlen hmagic hfind, ih]
  | frame hlen hmagic _ ih => rw [drain_of_frame hlen hmagic, ih]

theorem drain_rest (buf : List Octet) : (drain (drain buf).2).1 = [] := by
  induction buf using drain_induction with
  | short buf hshort => rw [drain_of_short hshort, drain_of_short hshort]
  | none buf hlen hmagic hfind =>
    rw [drain_of_none hlen hmagic hfind, drain_of_short (by decide)]
  | some buf i hlen hmagic hfind ih => rw [drain_of_some hlen hmagic hfind, ih]
  | part buf hlen hmagic hpart =>
    rw [drain_of_part hlen hmagic hpart, drain_of_part hlen hmagic hpart]
  | frame buf hlen hmagic ih => rw [drain_of_frame hlen hmagic, ih]

/-! ## One cut -/

def Straddles (a b : List Octet) : Prop :=
  ∃ i, i < a.length ∧ a.length < i + 4 ∧ MagicAt (a ++ b) i

theorem Straddles.of_drop {a b : List Octet} {k : Nat} (hk : k ≤ a.length)
    (h : Straddles (a.drop k) b) : Straddles a b := by
  obtain ⟨i, hlt, hend, hmagic⟩ := h
  rw [length_drop] at hlt hend
  rw [← drop_append_of_le_length hk, magicAt_drop] at hmagic
  exact ⟨k + i, by omega, by omega, hmagic⟩

theorem magicAt_append_iff {a b : List Octet} (hnone : ∀ i, MagicAt a i → i = 0)
    (hcut : ¬Straddles a b) {i : Nat} (hi : 0 < i) :
    MagicAt (a ++ b) i ↔ a.length ≤ i ∧ MagicAt b (i - a.length) := by
  rcases Nat.lt_or_ge i a.length with hlt | hge
  · refine ⟨fun h => ?_, fun h => absurd h.1 (by omega)⟩
    rcases Nat.lt_or_ge a.length (i + 4) with hstraddle | hwithin
    · exact absurd ⟨i, hlt, hstraddle, h⟩ hcut
    · have hzero := hnone i ((magicAt_append_left hwithin).mp h)
      omega
  · obtain ⟨k, rfl⟩ := Nat.exists_eq_add_of_le hge
    rw [magicAt_append_right, Nat.add_sub_cancel_left]
    exact ⟨fun h => ⟨Nat.le_add_right _ _, h⟩, fun h => h.2⟩

theorem drain_append_none {a b : List Octet} (hlen : responseHeaderSize ≤ a.length)
    (hmagic : ¬MagicAt a 0) (hfind : findMagic a 1 = none) (hcut : ¬Straddles a b) :
    (drain (a ++ b)).1 = (drain b).1 := by
  have hsize : responseHeaderSize = 20 := rfl
  have hnone : ∀ i, MagicAt a i → i = 0 := fun i hi => by
    by_contra hpos
    exact findMagic_eq_none.mp hfind i (by omega) hi
  have hiff := @magicAt_append_iff a b hnone hcut
  have hlen' : responseHeaderSize ≤ (a ++ b).length := by
    rw [length_append]
    omega
  have hmagic' : ¬MagicAt (a ++ b) 0 := fun h => hmagic ((magicAt_append_left (by omega)).mp h)
  cases hnext : findMagic (a ++ b) 1 with
  | none =>
    rw [drain_of_none hlen' hmagic' hnext]
    have hb : ∀ i, ¬MagicAt b i := fun i hi =>
      findMagic_eq_none.mp hnext (a.length + i) (by omega) (magicAt_append_right.mpr hi)
    rcases Nat.lt_or_ge b.length responseHeaderSize with hshort | hlong
    · rw [drain_of_short hshort]
    · rw [drain_of_none hlong (hb 0) (findMagic_eq_none.mpr fun i _ => hb i)]
  | some i =>
    rw [drain_of_some hlen' hmagic' hnext]
    obtain ⟨hpos, hi, hleast⟩ := findMagic_eq_some.mp hnext
    obtain ⟨hge, hb⟩ := (hiff (by omega)).mp hi
    obtain ⟨k, rfl⟩ := Nat.exists_eq_add_of_le hge
    rw [Nat.add_sub_cancel_left] at hb
    rw [← drop_drop, drop_left]
    have hbefore : ∀ j, j < k → ¬MagicAt b j := fun j hj hj' =>
      hleast (a.length + j) (by omega) (by omega) (magicAt_append_right.mpr hj')
    rcases Nat.eq_zero_or_pos k with rfl | hk
    · rfl
    · rcases Nat.lt_or_ge b.length responseHeaderSize with hshort | hlong
      · rw [drain_of_short hshort, drain_of_short (by rw [length_drop]; omega)]
      · rw [drain_of_some hlong (hbefore 0 hk)
          (findMagic_eq_some.mpr ⟨hk, hb, fun j _ hj => hbefore j hj⟩)]

theorem drain_append {a b : List Octet} (h : Drops a → ¬Straddles a b) :
    (drain (a ++ b)).1 = (drain a).1 ++ (drain ((drain a).2 ++ b)).1 := by
  have hsize : responseHeaderSize = 20 := rfl
  induction a using drain_induction with
  | short a hshort => rw [drain_of_short hshort, nil_append]
  | none a hlen hmagic hfind =>
    rw [drain_append_none hlen hmagic hfind (h (.here hlen hmagic hfind)),
      drain_of_none hlen hmagic hfind, nil_append, nil_append]
  | some a i hlen hmagic hfind ih =>
    obtain ⟨hpos, hi, hleast⟩ := findMagic_eq_some.mp hfind
    have hend := hi.le
    have hfind' : findMagic (a ++ b) 1 = some i := findMagic_eq_some.mpr
      ⟨hpos, (magicAt_append_left hend).mpr hi, fun j hj hji hmagicj =>
        hleast j hj hji ((magicAt_append_left (by omega)).mp hmagicj)⟩
    rw [drain_of_some (by rw [length_append]; omega)
      (fun hzero => hmagic ((magicAt_append_left (by omega)).mp hzero)) hfind',
      drop_append_of_le_length (by omega), drain_of_some hlen hmagic hfind]
    exact ih fun hdrops hcut => h (.resync hlen hmagic hfind hdrops) (hcut.of_drop (by omega))
  | part a hlen hmagic hpart => rw [drain_of_part hlen hmagic hpart, nil_append]
  | frame a hlen hmagic ih =>
    have hhead : headerAt (a ++ b) = headerAt a := headerAt_append (by omega)
    rw [drain_of_frame (by rw [hhead, length_append]; omega)
      ((magicAt_append_left (by omega)).mpr hmagic), drain_of_frame hlen hmagic, hhead,
      take_append_of_le_length hlen, drop_append_of_le_length hlen,
      ih fun hdrops hcut => h (.frame hlen hmagic hdrops) (hcut.of_drop hlen), cons_append]

/-! ## Every cut -/

def pushAll : List Octet → List (List Octet) → List Frame × List Octet
  | buf, [] => ([], buf)
  | buf, c :: cs =>
    ((drain (buf ++ c)).1 ++ (pushAll (drain (buf ++ c)).2 cs).1,
      (pushAll (drain (buf ++ c)).2 cs).2)

/-- No magic loses its first bytes with what is thrown away. -/
def Lossless : List Octet → List (List Octet) → Prop
  | _, [] => True
  | buf, c :: cs =>
    (Drops (buf ++ c) → ¬Straddles (buf ++ c) cs.flatten) ∧ Lossless (drain (buf ++ c)).2 cs

def EndsInMagic (a : List Octet) (n : Nat) : Prop :=
  0 < n ∧ n < 4 ∧ n ≤ a.length ∧
    (a.drop (a.length - n)).map Octet.byte = magicBytes.take n

/-- Nothing is thrown away that ends in the first bytes of a magic. -/
def Safe : List Octet → List (List Octet) → Prop
  | _, [] => True
  | buf, c :: cs =>
    (Drops (buf ++ c) → ∀ n, ¬EndsInMagic (buf ++ c) n) ∧ Safe (drain (buf ++ c)).2 cs

theorem pushAll_eq {buf : List Octet} {cs : List (List Octet)} (hbuf : (drain buf).1 = [])
    (h : Lossless buf cs) : (pushAll buf cs).1 = (drain (buf ++ cs.flatten)).1 := by
  induction cs generalizing buf with
  | nil => rw [pushAll, flatten_nil, append_nil, hbuf]
  | cons c cs ih =>
    rw [pushAll, ih (drain_rest _) h.2, flatten_cons, ← append_assoc,
      drain_append h.1]

theorem Straddles.endsInMagic {a b : List Octet} (h : Straddles a b) :
    ∃ n, EndsInMagic a n := by
  obtain ⟨i, hlt, hend, hmagic⟩ := h
  refine ⟨a.length - i, by omega, by omega, by omega, ?_⟩
  rw [Nat.sub_sub_self (Nat.le_of_lt hlt), ← hmagic, drop_append_of_le_length (by omega),
    ← map_take, take_take, Nat.min_eq_left (by omega),
    take_append_of_le_length (by rw [length_drop]),
    take_of_length_le (by rw [length_drop])]

theorem not_straddles_nil (a : List Octet) : ¬Straddles a [] := by
  rintro ⟨i, hlt, hend, hmagic⟩
  rw [append_nil] at hmagic
  have hle := hmagic.le
  omega

theorem Safe.lossless {buf : List Octet} {cs : List (List Octet)} (h : Safe buf cs) (k : Nat)
    (more : List Octet) : Lossless buf (cs.take k ++ [more]) := by
  induction cs generalizing buf k with
  | nil =>
    rw [take_nil]
    exact ⟨fun _ => not_straddles_nil _, trivial⟩
  | cons c cs ih =>
    cases k with
    | zero => exact ⟨fun _ => not_straddles_nil _, trivial⟩
    | succ k =>
      refine ⟨fun hdrops hcut => ?_, ih h.2 k⟩
      obtain ⟨n, hn⟩ := hcut.endsInMagic
      exact h.1 hdrops n hn

def completion (n : Nat) : List Octet :=
  (magicBytes.drop n ++ List.replicate 16 0).map fun b => ⟨b, 0⟩

theorem EndsInMagic.magicAt {a : List Octet} {n : Nat} (h : EndsInMagic a n) :
    MagicAt (a ++ completion n) (a.length - n) := by
  obtain ⟨hpos, hlt, hle, hends⟩ := h
  rw [MagicAt, drop_append_of_le_length (by omega), map_take, map_append, hends,
    completion, map_map]
  have hbytes : (Octet.byte ∘ fun b : UInt8 => (⟨b, 0⟩ : Octet)) = id := rfl
  rw [hbytes, map_id, ← append_assoc, take_append_drop]
  rfl

theorem drain_header {buf : List Octet} (hlen : buf.length = responseHeaderSize)
    (hmagic : MagicAt buf 0) (hbody : (headerAt buf).length = 0) :
    drain buf = ([⟨headerAt buf, buf⟩], []) := by
  rw [drain_of_frame (by omega) hmagic, hbody, Nat.add_zero, ← hlen, take_length,
    drop_length, drain_of_short (by decide)]

theorem Drops.le {buf : List Octet} (h : Drops buf) : responseHeaderSize ≤ buf.length := by
  cases h with
  | here hlen => exact hlen
  | resync hlen => exact hlen
  | frame hlen => exact Nat.le_trans (Nat.le_add_right _ _) hlen

theorem EndsInMagic.drop {a : List Octet} {n k : Nat} (h : EndsInMagic a n)
    (hk : k + 4 ≤ a.length) : EndsInMagic (a.drop k) n := by
  obtain ⟨hpos, hlt, hle, hends⟩ := h
  refine ⟨hpos, hlt, by rw [length_drop]; omega, ?_⟩
  rw [drop_drop, length_drop, ← hends]
  congr 2
  omega

theorem drain_completion {a : List Octet} {n : Nat} (hdrops : Drops a) (hends : EndsInMagic a n) :
    ∃ f, (drain (a ++ completion n)).1 = (drain a).1 ++ [f] := by
  have hsize : responseHeaderSize = 20 := rfl
  induction hdrops with
  | @here a hlen hmagic hfind =>
    obtain ⟨hpos, hlt, hle, hbytes⟩ := id hends
    have hat := hends.magicAt
    have hfind' : findMagic (a ++ completion n) 1 = some (a.length - n) := by
      refine findMagic_eq_some.mpr ⟨by omega, hat, fun j hj hji hmagicj => ?_⟩
      rcases Nat.lt_or_ge a.length (j + 4) with hstraddle | hwithin
      · exact hmagicj.not_overlap hji (by omega) hat
      · exact findMagic_eq_none.mp hfind j hj ((magicAt_append_left hwithin).mp hmagicj)
    have hrest : ((a ++ completion n).drop (a.length - n)).map Octet.byte =
        magicBytes ++ List.replicate 16 0 := by
      rw [drop_append_of_le_length (by omega), map_append, hbytes, completion,
        map_map, show (Octet.byte ∘ fun b : UInt8 => (⟨b, 0⟩ : Octet)) = id from rfl,
        map_id, ← append_assoc, take_append_drop]
    have hlength : ((a ++ completion n).drop (a.length - n)).length = responseHeaderSize := by
      rw [← length_map (f := Octet.byte), hrest]
      rfl
    have hbody : (headerAt ((a ++ completion n).drop (a.length - n))).length = 0 := by
      rw [headerAt, hrest]
      decide
    refine ⟨⟨headerAt ((a ++ completion n).drop (a.length - n)),
      (a ++ completion n).drop (a.length - n)⟩, ?_⟩
    rw [drain_of_some (by rw [length_append]; omega)
      (fun h => hmagic ((magicAt_append_left (by omega)).mp h)) hfind',
      drain_header hlength (magicAt_drop.mpr hat) hbody, drain_of_none hlen hmagic hfind]
    rfl
  | @resync a i hlen hmagic hfind hdrops ih =>
    obtain ⟨hpos, hi, hleast⟩ := findMagic_eq_some.mp hfind
    have hend := hi.le
    have hfind' : findMagic (a ++ completion n) 1 = some i := findMagic_eq_some.mpr
      ⟨hpos, (magicAt_append_left hend).mpr hi, fun j hj hji hmagicj =>
        hleast j hj hji ((magicAt_append_left (by omega)).mp hmagicj)⟩
    rw [drain_of_some (by rw [length_append]; omega)
      (fun h => hmagic ((magicAt_append_left (by omega)).mp h)) hfind',
      drop_append_of_le_length (by omega), drain_of_some hlen hmagic hfind]
    exact ih (hends.drop hend)
  | @frame a hlen hmagic hdrops ih =>
    have hhead : headerAt (a ++ completion n) = headerAt a := headerAt_append (by omega)
    have hrest := hdrops.le
    rw [length_drop] at hrest
    obtain ⟨f, hf⟩ := ih (hends.drop (by omega))
    refine ⟨f, ?_⟩
    rw [drain_of_frame (by rw [hhead, length_append]; omega)
      ((magicAt_append_left (by omega)).mpr hmagic), drain_of_frame hlen hmagic, hhead,
      take_append_of_le_length hlen, drop_append_of_le_length hlen, hf,
      cons_append]

theorem safe_iff {buf : List Octet} {cs : List (List Octet)} (hbuf : (drain buf).1 = []) :
    Safe buf cs ↔ ∀ k more, (pushAll buf (cs.take k ++ [more])).1 =
      (drain (buf ++ ((cs.take k).flatten ++ more))).1 := by
  refine ⟨fun h k more => ?_, fun h => ?_⟩
  · rw [pushAll_eq hbuf (h.lossless k more), flatten_append, flatten_singleton]
  · induction cs generalizing buf with
    | nil => trivial
    | cons c cs ih =>
      have hsafe : Drops (buf ++ c) → ∀ n, ¬EndsInMagic (buf ++ c) n := by
        intro hdrops n hends
        obtain ⟨f, hf⟩ := drain_completion hdrops hends
        have hone := h 1 (completion n)
        have hshort : (completion n).length < responseHeaderSize := by
          have hpos := hends.1
          have hsize : responseHeaderSize = 20 := rfl
          have hmagic : magicBytes.length = 4 := rfl
          rw [completion, length_map, length_append, length_drop,
            length_replicate]
          omega
        have hpush : (pushAll buf [c, completion n]).1 = (drain (buf ++ c)).1 := by
          rw [pushAll, pushAll, pushAll, hdrops.rest, nil_append, drain_of_short hshort]
          exact append_nil _
        rw [take_succ_cons, take_zero, flatten_singleton, ← append_assoc, hf,
          singleton_append, hpush] at hone
        cases self_eq_append_right.mp hone
      refine ⟨hsafe, ih (drain_rest _) fun k more => ?_⟩
      have hnext := h (k + 1) more
      rw [take_succ_cons, cons_append, pushAll, flatten_cons, append_assoc,
        ← append_assoc buf, @drain_append (buf ++ c) _ fun hdrops hcut => by
          obtain ⟨n, hn⟩ := hcut.endsInMagic
          exact hsafe hdrops n hn] at hnext
      exact append_cancel_left hnext

/-! ## Responses and garbage -/

/-- A response as the daemon sends it. -/
structure Frame.Valid (f : Frame) : Prop where
  header : f.header = headerAt f.octets
  magic : MagicAt f.octets 0
  length : f.octets.length = responseHeaderSize + f.header.length

def sent (fs : List Frame) : List Octet := (fs.map Frame.octets).flatten

theorem sent_cons (f : Frame) (fs : List Frame) : sent (f :: fs) = f.octets ++ sent fs := rfl

theorem drain_append_valid {f : Frame} (hf : f.Valid) (b : List Octet) :
    drain (f.octets ++ b) = (f :: (drain b).1, (drain b).2) := by
  have hsize : responseHeaderSize = 20 := rfl
  have hlen := hf.length
  have hhead : headerAt (f.octets ++ b) = f.header := by
    rw [headerAt_append (by omega), ← hf.header]
  rw [drain_of_frame (by rw [hhead, length_append]; omega)
    ((magicAt_append_left (by omega)).mpr hf.magic), hhead, ← hlen, take_left, drop_left]

theorem drain_sent {fs : List Frame} (h : ∀ f ∈ fs, f.Valid) : drain (sent fs) = (fs, []) := by
  induction fs with
  | nil => exact drain_of_short (by decide)
  | cons f fs ih =>
    rw [sent_cons, drain_append_valid (h f mem_cons_self),
      ih fun f' hf' => h f' (mem_cons_of_mem _ hf')]

theorem not_drops_of_sent {fs : List Frame} (h : ∀ f ∈ fs, f.Valid) {a b : List Octet}
    (hab : a ++ b = sent fs) :
    ¬Drops a ∧ ∃ fs', (∀ f ∈ fs', f.Valid) ∧ (drain a).2 ++ b = sent fs' := by
  have hsize : responseHeaderSize = 20 := rfl
  induction fs generalizing a with
  | nil =>
    obtain ⟨rfl, rfl⟩ := append_eq_nil_iff.mp hab
    refine ⟨fun hdrops => absurd hdrops.le (by decide), [], h, ?_⟩
    rw [drain_of_short (by decide)]
    rfl
  | cons f fs ih =>
    have hf := h f mem_cons_self
    have hlen := hf.length
    rcases Nat.lt_or_ge a.length responseHeaderSize with hshort | hlong
    · refine ⟨fun hdrops => absurd hdrops.le (by omega), f :: fs, h, ?_⟩
      rw [drain_of_short hshort, hab]
    · have hhead : headerAt a = f.header := by
        rw [← headerAt_append (b := b) hlong, hab, sent_cons, headerAt_append (by omega),
          ← hf.header]
      have hmagic : MagicAt a 0 := by
        rw [← magicAt_append_left (b := b) (by omega), hab, sent_cons,
          magicAt_append_left (by omega)]
        exact hf.magic
      rcases Nat.lt_or_ge a.length f.octets.length with hpart | hwhole
      · refine ⟨fun hdrops => ?_, f :: fs, h, ?_⟩
        · cases hdrops with
          | here _ hnot => exact hnot hmagic
          | resync _ hnot => exact hnot hmagic
          | frame hle =>
            rw [hhead] at hle
            omega
        · rw [drain_of_part hlong hmagic (by rw [hhead]; omega), hab]
      · rw [sent_cons] at hab
        obtain ⟨a', rfl, hrest⟩ : ∃ a', a = f.octets ++ a' ∧ sent fs = a' ++ b := by
          obtain ⟨a', ha, hb⟩ | ⟨c, hc, hb⟩ := append_eq_append_iff.mp hab
          · obtain rfl : a' = [] := by
              have hlength := congrArg List.length ha
              rw [length_append] at hlength
              exact length_eq_zero_iff.mp (by omega)
            rw [append_nil] at ha
            exact ⟨[], by rw [append_nil, ha], by rw [hb, nil_append, nil_append]⟩
          · exact ⟨c, hc, hb⟩
        obtain ⟨hnot, fs', hfs', hsent⟩ :=
          ih (fun f' hf' => h f' (mem_cons_of_mem _ hf')) hrest.symm
        refine ⟨fun hdrops => ?_, fs', hfs', ?_⟩
        · cases hdrops with
          | here _ hnot' => exact hnot' hmagic
          | resync _ hnot' => exact hnot' hmagic
          | frame _ _ hdrops =>
            rw [hhead, ← hlen, drop_left] at hdrops
            exact hnot hdrops
        · rw [drain_append_valid hf]
          exact hsent

theorem lossless_of_sent {fs : List Frame} (h : ∀ f ∈ fs, f.Valid) {buf : List Octet}
    {cs : List (List Octet)} (hsent : buf ++ cs.flatten = sent fs) : Lossless buf cs := by
  induction cs generalizing buf fs with
  | nil => trivial
  | cons c cs ih =>
    rw [flatten_cons, ← append_assoc] at hsent
    obtain ⟨hnot, fs', hfs', hrest⟩ := not_drops_of_sent h hsent
    exact ⟨fun hdrops => absurd hdrops hnot, ih hfs' hrest⟩

theorem drain_garbage {g : List Octet} (hg : ∀ i, ¬MagicAt g i) {fs : List Frame}
    (h : ∀ f ∈ fs, f.Valid) : (drain (g ++ sent fs)).1 = fs := by
  have hsize : responseHeaderSize = 20 := rfl
  cases fs with
  | nil =>
    rw [sent, map_nil, flatten_nil, append_nil]
    rcases Nat.lt_or_ge g.length responseHeaderSize with hshort | hlong
    · rw [drain_of_short hshort]
    · rw [drain_of_none hlong (hg 0) (findMagic_eq_none.mpr fun i _ => hg i)]
  | cons f fs =>
    rcases Nat.eq_zero_or_pos g.length with hnil | hpos
    · rw [length_eq_zero_iff.mp hnil, nil_append, drain_sent h]
    · have hf := h f mem_cons_self
      have hlen := hf.length
      have hat : MagicAt (g ++ sent (f :: fs)) g.length := by
        have hmagic : MagicAt (sent (f :: fs)) 0 := by
          rw [sent_cons]
          exact (magicAt_append_left (by omega)).mpr hf.magic
        exact magicAt_append_right.mpr hmagic
      have hbefore : ∀ j, j < g.length → ¬MagicAt (g ++ sent (f :: fs)) j := by
        intro j hj hmagic
        rcases Nat.lt_or_ge g.length (j + 4) with hstraddle | hwithin
        · exact hmagic.not_overlap hj hstraddle hat
        · exact hg j ((magicAt_append_left hwithin).mp hmagic)
      rw [drain_of_some (by rw [length_append, sent_cons, length_append]; omega)
        (hbefore 0 hpos) (findMagic_eq_some.mpr ⟨hpos, hat, fun j _ hj => hbefore j hj⟩),
        drop_left, drain_sent h]

/-- The framer hands out what it would of the whole stream, unless bytes are thrown away of which
a magic needs the last ones; cuts are harmless whatever follows exactly if nothing is thrown away
that ends in the first bytes of a magic.  Responses, and responses behind garbage, are handed
out. -/
theorem framer_exact (cs : List (List Octet)) :
    (Lossless [] cs → (pushAll [] cs).1 = (drain cs.flatten).1) ∧
    (Safe [] cs ↔ ∀ k more, (pushAll [] (cs.take k ++ [more])).1 =
      (drain ((cs.take k).flatten ++ more)).1) ∧
    (∀ fs : List Frame, (∀ f ∈ fs, f.Valid) → cs.flatten = sent fs → (pushAll [] cs).1 = fs) ∧
    ∀ (g : List Octet) (fs : List Frame), (∀ i, ¬MagicAt g i) → (∀ f ∈ fs, f.Valid) →
      (drain (g ++ sent fs)).1 = fs ∧
        (cs.flatten = g ++ sent fs → Lossless [] cs → (pushAll [] cs).1 = fs) := by
  have hnil : (drain []).1 = [] := by rw [drain_of_short (by decide)]
  have hwhole : Lossless [] cs → (pushAll [] cs).1 = (drain cs.flatten).1 := pushAll_eq hnil
  refine ⟨hwhole, safe_iff hnil, fun fs h hsent => ?_, fun g fs hg h =>
    ⟨drain_garbage hg h, fun hcs hlossless => ?_⟩⟩
  · rw [hwhole (lossless_of_sent h hsent), hsent, drain_sent h]
  · rw [hwhole hlossless, hcs, drain_garbage hg h]

def emptyFrame : Frame := ⟨headerAt (completion 0), completion 0⟩

theorem framer_exact_two :
    (pushAll [] [(completion 0).take 2, (completion 0).drop 2]).1 = [emptyFrame] :=
  (framer_exact [(completion 0).take 2, (completion 0).drop 2]).2.2.1 [emptyFrame]
    (fun f hf => by
      rw [mem_singleton.mp hf]
      exact ⟨rfl, by decide, by decide⟩) (by decide)

def cutGarbage : List Octet := List.replicate 18 ⟨0, 0⟩ ++ (completion 0).take 2

theorem cutGarbage_loses : ¬∀ cs : List (List Octet), (∀ c ∈ cs, c ≠ []) →
    (pushAll [] cs).1 = (drain cs.flatten).1 := by
  intro h
  have hdrops : Drops cutGarbage := .here (by decide) (by decide) (by decide)
  obtain ⟨f, hf⟩ := @drain_completion cutGarbage 2 hdrops
    ⟨by decide, by decide, by decide, by decide⟩
  have hall := h [cutGarbage, completion 2] (by decide)
  have hpush : (pushAll [] [cutGarbage, completion 2]).1 = (drain cutGarbage).1 := by
    rw [pushAll, pushAll, pushAll, nil_append, hdrops.rest, nil_append,
      @drain_of_short (completion 2) (by decide)]
    exact append_nil _
  rw [hpush, show [cutGarbage, completion 2].flatten = cutGarbage ++ completion 2 by
    rw [flatten_cons, flatten_singleton], hf] at hall
  cases self_eq_append_right.mp hall

end MemDbg.Tauri
