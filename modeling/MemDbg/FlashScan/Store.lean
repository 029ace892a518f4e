import MemDbg.FlashScan.Session

/-!
# The two tiers of a snapshot as one array

The values of a snapshot lie in memory up to `snap_bytes` and behind that in the spill file, whose
reads and writes may be short.  To `snapshot_store_read` and `snapshot_store_write` the two are one
array: the bytes in memory followed by those of the file.
-/

namespace MemDbg.FlashScan

open List Lib

/-! ## Writing over an array -/

section Overwrite

variable {l xs ys src : List UInt8} {off i n : Nat}

theorem getElem?_overwrite (l : List UInt8) (off : Nat) (src : List UInt8) (i : Nat) :
    (overwrite l off src)[i]? =
      if i < off then (if i < l.length then l[i]? else some 0)
      else if i < off + src.length then src[i - off]? else l[i]? := by
  have htake : (l.take off).length = min off l.length := length_take
  have hfront : (l.take off ++ List.replicate (off - l.length) (0 : UInt8)).length = off := by
    rw [length_append, length_replicate, htake]
    omega
  rw [overwrite, append_assoc, getElem?_append, hfront]
  split_ifs with hi hl hsrc
  · rw [getElem?_append_left (by omega), getElem?_take_of_lt hi]
  · rw [getElem?_append_right (by omega), getElem?_replicate, if_pos (by omega)]
  · rw [getElem?_append_left (by omega)]
  · rw [getElem?_append_right (by omega), getElem?_drop]
    congr 1
    omega

theorem getD_overwrite (l : List UInt8) (off : Nat) (src : List UInt8) (i : Nat) :
    (overwrite l off src).getD i 0 =
      if off ≤ i ∧ i < off + src.length then src.getD (i - off) 0 else l.getD i 0 := by
  simp only [getD_eq_getElem?_getD, getElem?_overwrite]
  by_cases hi : i < off
  · have hout : ¬ (off ≤ i ∧ i < off + src.length) := fun h => absurd h.1 (Nat.not_le.mpr hi)
    rw [if_pos hi, if_neg hout]
    split_ifs with hl
    · rfl
    · rw [getElem?_eq_none (Nat.not_lt.mp hl)]
      rfl
  · rw [if_neg hi]
    simp only [Nat.not_lt.mp hi, true_and]
    split_ifs <;> rfl

theorem overwrite_overwrite (l : List UInt8) (off : Nat) (xs ys : List UInt8) :
    overwrite (overwrite l off xs) (off + xs.length) ys = overwrite l off (xs ++ ys) := by
  refine ext_getElem? fun i => ?_
  have hlength : off ≤ (overwrite l off xs).length := by
    simp only [overwrite, length_append, length_take, length_replicate]
    omega
  have hlength' : off + xs.length ≤ (overwrite l off xs).length := by
    simp only [overwrite, length_append, length_take, length_replicate]
    omega
  rw [getElem?_overwrite, getElem?_overwrite, getElem?_overwrite, length_append,
    getElem?_append]
  by_cases hi : i < off
  · rw [if_pos (by omega), if_pos (by omega), if_pos hi, if_pos hi]
  by_cases hxs : i < off + xs.length
  · rw [if_pos hxs, if_pos (by omega), if_neg hi, if_pos hxs, if_neg hi, if_pos (by omega),
      if_pos (by omega)]
  by_cases hys : i < off + xs.length + ys.length
  · rw [if_neg hxs, if_pos hys, if_neg hi, if_pos (by omega), if_neg (by omega)]
    congr 1
    omega
  · rw [if_neg hxs, if_neg hys, if_neg hi, if_neg hxs, if_neg hi, if_neg (by omega)]

theorem take_drop_overwrite {a : Nat} (ha : off ≤ a) (hn : a + n ≤ off + src.length) :
    ((overwrite l off src).drop a).take n = (src.drop (a - off)).take n := by
  refine ext_getElem? fun i => ?_
  rw [getElem?_take, getElem?_take, getElem?_drop, getElem?_drop]
  split_ifs with hi
  · rw [getElem?_overwrite, if_neg (by omega), if_pos (by omega)]
    congr 1
    omega
  · rfl

theorem length_overwrite_ge (l : List UInt8) (off : Nat) (src : List UInt8) :
    off + src.length ≤ (overwrite l off src).length := by
  simp only [overwrite, length_append, length_take, length_replicate]
  omega

theorem append_overwrite (xs l : List UInt8) (off : Nat) (src : List UInt8) :
    xs ++ overwrite l off src = overwrite (xs ++ l) (xs.length + off) src := by
  refine ext_getElem? fun i => ?_
  rw [getElem?_append, getElem?_overwrite, getElem?_overwrite, getElem?_append,
    length_append]
  by_cases hi : i < xs.length
  · rw [if_pos hi, if_pos (by omega), if_pos (by omega), if_pos hi]
  · rw [if_neg hi, if_neg hi]
    split_ifs <;> first | rfl | omega | (congr 1; omega)

theorem overwrite_append (h : off + src.length ≤ xs.length) (l : List UInt8) :
    overwrite xs off src ++ l = overwrite (xs ++ l) off src := by
  have hlength : (overwrite xs off src).length = xs.length := by
    simp only [overwrite, length_append, length_take, length_replicate,
      length_drop]
    omega
  refine ext_getElem? fun i => ?_
  rw [getElem?_append, hlength, getElem?_overwrite, getElem?_overwrite,
    getElem?_append, length_append]
  by_cases hi : i < off
  · rw [if_pos (by omega), if_pos hi, if_pos (by omega), if_pos hi, if_pos (by omega),
      if_pos (by omega)]
  by_cases hsrc : i < off + src.length
  · rw [if_pos (by omega), if_neg hi, if_pos hsrc, if_neg hi, if_pos hsrc]
  · rw [if_neg hi, if_neg hsrc, if_neg hi, if_neg hsrc]

def writeOver (l : List UInt8) (off : Nat) (src : List UInt8) : List UInt8 :=
  if src = [] then l else overwrite l off src

theorem writeOver_nil (l : List UInt8) (off : Nat) : writeOver l off [] = l := if_pos rfl

theorem writeOver_writeOver (l : List UInt8) (off : Nat) (xs ys : List UInt8) :
    writeOver (writeOver l off xs) (off + xs.length) ys = writeOver l off (xs ++ ys) := by
  rcases eq_or_ne xs [] with rfl | hxs
  · rw [writeOver_nil, length_nil, Nat.add_zero, nil_append]
  rcases eq_or_ne ys [] with rfl | hys
  · rw [writeOver_nil, append_nil]
  · rw [writeOver, writeOver, writeOver, if_neg hxs, if_neg hys,
      if_neg (append_ne_nil_of_left_ne_nil hxs ys), overwrite_overwrite]

theorem append_writeOver (xs l : List UInt8) (off : Nat) (src : List UInt8) :
    xs ++ writeOver l off src = writeOver (xs ++ l) (xs.length + off) src := by
  rw [writeOver, writeOver]
  split_ifs
  · rfl
  · exact append_overwrite xs l off src

theorem writeOver_append (h : off + src.length ≤ xs.length) (l : List UInt8) :
    writeOver xs off src ++ l = writeOver (xs ++ l) off src := by
  rw [writeOver, writeOver]
  split_ifs
  · rfl
  · exact overwrite_append h l

theorem length_writeOver_of_le (h : off + src.length ≤ l.length) :
    (writeOver l off src).length = l.length := by
  rw [writeOver]
  split_ifs
  · rfl
  · simp only [overwrite, length_append, length_take, length_replicate,
      length_drop]
    omega

theorem writeOver_append_writeOver (h : off + ys.length = xs.length)
    (l src : List UInt8) :
    writeOver xs off ys ++ writeOver l 0 src = writeOver (xs ++ l) off (ys ++ src) := by
  rw [append_writeOver, writeOver_append h.le, length_writeOver_of_le h.le, Nat.add_zero, ← h,
    writeOver_writeOver]

theorem getD_writeOver_of_outside (h : i < off ∨ off + src.length ≤ i) :
    (writeOver l off src).getD i 0 = l.getD i 0 := by
  rw [writeOver]
  split_ifs
  · rfl
  · rw [getD_overwrite, if_neg (by omega)]

theorem take_drop_writeOver {a : Nat} (ha : off ≤ a) (hn : a + n ≤ off + src.length) :
    ((writeOver l off src).drop a).take n = (src.drop (a - off)).take n := by
  rcases eq_or_ne src [] with rfl | hsrc
  · obtain rfl : n = 0 := by
      rw [length_nil] at hn
      omega
    rw [take_zero, take_zero]
  · rw [writeOver, if_neg hsrc, take_drop_overwrite ha hn]

theorem length_writeOver_ge (hsrc : src ≠ []) :
    off + src.length ≤ (writeOver l off src).length := by
  rw [writeOver, if_neg hsrc]
  exact length_overwrite_ge l off src

end Overwrite

/-! ## The file -/

abbrev IoReply := Option Nat

def moved (n count off : Nat) : Nat := min n (min count (2 ^ 63 - off))

def pread (file : List UInt8) (count off : Nat) : IoReply → List UInt8
  | none => []
  | some n => (file.drop off).take (moved n count off)

def pwrite (file data : List UInt8) (off : Nat) : IoReply → Nat × List UInt8
  | none => (0, file)
  | some n => (moved n data.length off, writeOver file off (data.take (moved n data.length off)))

def flashscanPreadAll (file : List UInt8) (len off : Nat) :
    List IoReply → List UInt8 → Option (Option (List UInt8))
  | [], buf => if buf.length < len then none else some (some buf)
  | reply :: replies, buf =>
    if buf.length < len then
      let r := pread file (len - buf.length) (wrap64 (off + buf.length)) reply
      if r = [] then some none else flashscanPreadAll file len off replies (buf ++ r)
    else some (some buf)

def flashscanPwriteAll (src : List UInt8) (off : Nat) :
    List IoReply → Nat → List UInt8 → Option (Bool × List UInt8)
  | [], pos, file => if pos < src.length then none else some (true, file)
  | reply :: replies, pos, file =>
    if pos < src.length then
      let w := pwrite file (src.drop pos) (wrap64 (off + pos)) reply
      if w.1 = 0 then some (false, w.2)
      else flashscanPwriteAll src off replies (pos + w.1) w.2
    else some (true, file)

/-! ## The store -/

structure Tiers where
  snapRam : List UInt8
  snapFile : List UInt8
deriving DecidableEq

def SnapshotSession.tiers (s : SnapshotSession) : Tiers := ⟨s.snapRam, s.snapFile⟩

namespace Tiers

def flat (s : Tiers) : List UInt8 := s.snapRam ++ s.snapFile

def snapshotStoreRead (replies : List IoReply) (s : Tiers) (off len : Nat) :
    Option (Option (List UInt8)) :=
  let snapBytes := s.snapRam.length
  if snapBytes ≤ off then flashscanPreadAll s.snapFile len (off - snapBytes) replies []
  else if wrap64 (off + len) ≤ snapBytes then
    if off + len ≤ snapBytes then some (some ((s.snapRam.drop off).take len)) else none
  else
    let a := snapBytes - off
    (flashscanPreadAll s.snapFile (len - a) 0 replies []).map
      (Option.map ((s.snapRam.drop off).take a ++ ·))

def snapshotStoreWrite (replies : List IoReply) (s : Tiers) (src : List UInt8) (off : Nat) :
    Option (Bool × Tiers) :=
  let snapBytes := s.snapRam.length
  if snapBytes ≤ off then
    (flashscanPwriteAll src (off - snapBytes) replies 0 s.snapFile).map
      (Prod.map id (Tiers.mk s.snapRam))
  else if wrap64 (off + src.length) ≤ snapBytes then
    if off + src.length ≤ snapBytes then some (true, ⟨writeOver s.snapRam off src, s.snapFile⟩)
    else none
  else
    let a := snapBytes - off
    (flashscanPwriteAll (src.drop a) 0 replies 0 s.snapFile).map
      (Prod.map id (Tiers.mk (writeOver s.snapRam off (src.take a))))

end Tiers

/-! ## The loops -/

section Loops

variable {file buf src : List UInt8} {off pos len n : Nat} {replies : List IoReply}

theorem moved_le (n count off : Nat) :
    moved n count off ≤ count ∧ moved n count off ≤ 2 ^ 63 - off :=
  ⟨(Nat.min_le_right _ _).trans (Nat.min_le_left _ _),
    (Nat.min_le_right _ _).trans (Nat.min_le_right _ _)⟩

theorem pwrite_eq (file data : List UInt8) (off : Nat) (reply : IoReply) :
    (pwrite file data off reply).2 = writeOver file off (data.take (pwrite file data off reply).1) ∧
      (pwrite file data off reply).1 ≤ data.length ∧
        (pwrite file data off reply).1 ≤ 2 ^ 63 - off := by
  cases reply with
  | none => exact ⟨(writeOver_nil file off).symm, Nat.zero_le _, Nat.zero_le _⟩
  | some n => exact ⟨rfl, moved_le n data.length off⟩

theorem pread_eq (file : List UInt8) (count off : Nat) (reply : IoReply) :
    pread file count off reply = (file.drop off).take (pread file count off reply).length ∧
      (pread file count off reply).length ≤ count ∧
        (pread file count off reply).length ≤ 2 ^ 63 - off := by
  cases reply with
  | none => exact ⟨rfl, Nat.zero_le _, Nat.zero_le _⟩
  | some n =>
    obtain ⟨hcount, hoff⟩ := moved_le n count off
    have hlen : (pread file count off (some n)).length ≤ moved n count off :=
      length_take_le _ _
    exact ⟨(take_eq_take_iff.mpr (by simp [pread])), hlen.trans hcount, hlen.trans hoff⟩

def Reached (off pos : Nat) : Prop := pos = 0 ∨ off + pos ≤ 2 ^ 63

theorem Reached.wrap64_eq (hoff : off < 2 ^ 64) (h : Reached off pos) :
    wrap64 (off + pos) = off + pos := by
  refine wrap64_of_lt ?_
  rcases h with rfl | h <;> omega

theorem Reached.add (h : Reached off pos) (hn : n ≤ 2 ^ 63 - (off + pos)) :
    Reached off (pos + n) := by
  rcases Nat.eq_zero_or_pos n with rfl | hpos
  · exact h
  · right
    omega

theorem flashscanPwriteAll_eq (hoff : off < 2 ^ 64) (hpos : pos ≤ src.length)
    (hreached : Reached off pos) {ok : Bool} {file' : List UInt8}
    (h : flashscanPwriteAll src off replies pos (writeOver file off (src.take pos)) =
      some (ok, file')) :
    ∃ n, n ≤ src.length ∧ file' = writeOver file off (src.take n) ∧
      (ok = true → n = src.length) := by
  induction replies generalizing pos with
  | nil =>
    rw [flashscanPwriteAll] at h
    split_ifs at h with hmore
    obtain ⟨rfl, rfl⟩ := Prod.mk.inj (Option.some.inj h)
    exact ⟨pos, hpos, rfl, fun _ => hpos.antisymm (Nat.not_lt.mp hmore)⟩
  | cons reply replies ih =>
    rw [flashscanPwriteAll] at h
    split_ifs at h with hmore
    · rw [hreached.wrap64_eq hoff] at h
      obtain ⟨hfile, hcount, hend⟩ :=
        pwrite_eq (writeOver file off (src.take pos)) (src.drop pos) (off + pos) reply
      dsimp only at h
      generalize pwrite (writeOver file off (src.take pos)) (src.drop pos) (off + pos) reply = w
        at h hfile hcount hend
      rw [length_drop] at hcount
      have htake : (src.take pos).length = pos := length_take_of_le hpos
      have hnext : w.2 = writeOver file off (src.take (pos + w.1)) := by
        rw [hfile, take_add, ← writeOver_writeOver, htake]
      rw [hnext] at h
      split_ifs at h with hzero
      · obtain ⟨rfl, rfl⟩ := Prod.mk.inj (Option.some.inj h)
        exact ⟨pos + w.1, by omega, rfl, fun hok => absurd hok Bool.false_ne_true⟩
      · exact ih (by omega) (hreached.add hend) h
    · obtain ⟨rfl, rfl⟩ := Prod.mk.inj (Option.some.inj h)
      exact ⟨pos, hpos, rfl, fun _ => hpos.antisymm (Nat.not_lt.mp hmore)⟩

theorem flashscanPreadAll_eq (hoff : off < 2 ^ 64) (hbuf : buf = (file.drop off).take buf.length)
    (hlen : buf.length ≤ len) (hreached : Reached off buf.length) {bytes : List UInt8}
    (h : flashscanPreadAll file len off replies buf = some (some bytes)) :
    bytes = (file.drop off).take len ∧ bytes.length = len := by
  induction replies generalizing buf with
  | nil =>
    rw [flashscanPreadAll] at h
    split_ifs at h with hmore
    obtain rfl := Option.some.inj (Option.some.inj h)
    have hfull : buf.length = len := hlen.antisymm (Nat.not_lt.mp hmore)
    rw [← hfull]
    exact ⟨hbuf, rfl⟩
  | cons reply replies ih =>
    rw [flashscanPreadAll] at h
    split_ifs at h with hmore
    · rw [hreached.wrap64_eq hoff] at h
      obtain ⟨hread, hcount, hend⟩ := pread_eq file (len - buf.length) (off + buf.length) reply
      dsimp only at h
      generalize pread file (len - buf.length) (off + buf.length) reply = r at h hread hcount hend
      split_ifs at h with hnone
      · exact absurd (Option.some.inj h) (Option.some_ne_none _).symm
      · refine ih ?_ ?_ ?_ h
        · rw [length_append, take_add, drop_drop, ← hread, ← hbuf]
        · rw [length_append]
          omega
        · rw [length_append]
          exact hreached.add hend
    · obtain rfl := Option.some.inj (Option.some.inj h)
      have hfull : buf.length = len := hlen.antisymm (Nat.not_lt.mp hmore)
      rw [← hfull]
      exact ⟨hbuf, rfl⟩

/-- The call moves something. -/
def IoReply.Positive (reply : IoReply) : Prop := ∃ n, reply = some n ∧ 0 < n

theorem moved_pos (hn : 0 < n) (hlen : 0 < len) (hoff : off < 2 ^ 63) : 0 < moved n len off := by
  rw [moved]
  omega

theorem flashscanPwriteAll_returns (hend : off + src.length ≤ 2 ^ 63)
    (hpositive : ∀ reply ∈ replies, IoReply.Positive reply)
    (hlen : src.length ≤ pos + replies.length) :
    ∃ file', flashscanPwriteAll src off replies pos file = some (true, file') := by
  induction replies generalizing pos file with
  | nil => exact ⟨file, if_neg (Nat.not_lt.mpr hlen)⟩
  | cons reply replies ih =>
    obtain ⟨⟨n, rfl, hn⟩, hrest⟩ := forall_mem_cons.mp hpositive
    rw [flashscanPwriteAll]
    split_ifs with hmore
    · rw [wrap64_of_lt (by omega)]
      have hw : 0 < (pwrite file (src.drop pos) (off + pos) (some n)).1 :=
        moved_pos hn (by rw [length_drop]; omega) (by omega)
      dsimp only
      rw [if_neg hw.ne']
      rw [length_cons] at hlen
      exact ih hrest (by omega)
    · exact ⟨file, rfl⟩

theorem flashscanPreadAll_returns (hend : off + len ≤ 2 ^ 63) (hfile : off + len ≤ file.length)
    (hpositive : ∀ reply ∈ replies, IoReply.Positive reply)
    (hlen : len ≤ buf.length + replies.length) :
    ∃ bytes, flashscanPreadAll file len off replies buf = some (some bytes) := by
  induction replies generalizing buf with
  | nil => exact ⟨buf, if_neg (Nat.not_lt.mpr hlen)⟩
  | cons reply replies ih =>
    obtain ⟨⟨n, rfl, hn⟩, hrest⟩ := forall_mem_cons.mp hpositive
    rw [flashscanPreadAll]
    split_ifs with hmore
    · rw [wrap64_of_lt (by omega)]
      have hr : 0 < (pread file (len - buf.length) (off + buf.length) (some n)).length := by
        have hmoved : 0 < moved n (len - buf.length) (off + buf.length) :=
          moved_pos hn (by omega) (by omega)
        rw [pread, length_take, length_drop]
        omega
      dsimp only
      rw [if_neg (ne_nil_of_length_pos hr)]
      rw [length_cons] at hlen
      exact ih hrest (by rw [length_append]; omega)
    · exact ⟨buf, rfl⟩

end Loops

/-! ## The two tiers are one array -/

namespace Tiers

variable {s s' : Tiers} {src bytes : List UInt8} {off len : Nat} {replies : List IoReply}

theorem snapshotStoreWrite_flat (hoff : off < 2 ^ 64) {ok : Bool}
    (h : snapshotStoreWrite replies s src off = some (ok, s')) :
    s'.snapRam.length = s.snapRam.length ∧
      ∃ n, n ≤ src.length ∧ s'.flat = writeOver s.flat off (src.take n) ∧
        (ok = true → n = src.length) := by
  have hstart (file : List UInt8) : writeOver file (off - s.snapRam.length) (src.take 0) = file :=
    writeOver_nil _ _
  rw [snapshotStoreWrite] at h
  dsimp only at h
  split_ifs at h with hfile hram hfits
  · -- the file
    obtain ⟨⟨ok', file'⟩, hloop, hresult⟩ := Option.map_eq_some_iff.mp h
    obtain ⟨rfl, rfl⟩ := Prod.mk.inj hresult
    rw [← hstart s.snapFile] at hloop
    obtain ⟨n, hn, rfl, hok⟩ := flashscanPwriteAll_eq (by omega) (Nat.zero_le _) (.inl rfl) hloop
    refine ⟨rfl, n, hn, ?_, hok⟩
    rw [flat, append_writeOver, Nat.add_sub_cancel' hfile, flat]
  · -- the memory
    obtain ⟨rfl, rfl⟩ := Prod.mk.inj (Option.some.inj h)
    have hflat : writeOver s.snapRam off src ++ s.snapFile = writeOver s.flat off src :=
      writeOver_append hfits s.snapFile
    refine ⟨?_, src.length, le_rfl, ?_, fun _ => rfl⟩
    · exact length_writeOver_of_le hfits
    · rw [take_length]
      exact hflat
  · -- both
    obtain ⟨⟨ok', file'⟩, hloop, hresult⟩ := Option.map_eq_some_iff.mp h
    obtain ⟨rfl, rfl⟩ := Prod.mk.inj hresult
    have hover : s.snapRam.length < off + src.length :=
      (Nat.lt_of_not_le hram).trans_le (Nat.mod_le _ _)
    have htake : off + (src.take (s.snapRam.length - off)).length = s.snapRam.length := by
      rw [length_take]
      omega
    rw [← writeOver_nil s.snapFile 0] at hloop
    obtain ⟨n, hn, rfl, hok⟩ :=
      flashscanPwriteAll_eq (by decide) (Nat.zero_le _) (.inl rfl) hloop
    rw [length_drop] at hn hok
    refine ⟨length_writeOver_of_le htake.le, s.snapRam.length - off + n, by omega, ?_, fun h => ?_⟩
    · rw [flat, writeOver_append_writeOver htake, ← take_add, flat]
    · have := hok h
      omega

theorem snapshotStoreRead_flat (hoff : off < 2 ^ 64)
    (h : snapshotStoreRead replies s off len = some (some bytes)) :
    bytes = (s.flat.drop off).take len ∧ bytes.length = len := by
  have hstart (file : List UInt8) (k : Nat) :
      [] = (file.drop k).take ([] : List UInt8).length := rfl
  rw [snapshotStoreRead] at h
  dsimp only at h
  split_ifs at h with hfile hram hfits
  · -- the file
    rw [flat, drop_append, drop_of_length_le hfile, nil_append]
    exact flashscanPreadAll_eq (by omega) (hstart _ _) (Nat.zero_le _) (.inl rfl) h
  · -- the memory
    obtain rfl := Option.some.inj (Option.some.inj h)
    have hlen : len ≤ (s.snapRam.drop off).length := by
      rw [length_drop]
      omega
    rw [flat, drop_append_of_le_length (by omega), take_append_of_le_length hlen]
    exact ⟨rfl, length_take_of_le hlen⟩
  · -- both
    obtain ⟨tail, hloop, hresult⟩ := Option.map_eq_some_iff.mp h
    obtain ⟨rest, rfl, rfl⟩ := Option.map_eq_some_iff.mp hresult
    have hover : s.snapRam.length < off + len := (Nat.lt_of_not_le hram).trans_le (Nat.mod_le _ _)
    obtain ⟨hrest, hlen⟩ :=
      flashscanPreadAll_eq (by decide) (hstart _ _) (Nat.zero_le _) (.inl rfl) hloop
    rw [drop_zero] at hrest
    have hdrop : (s.snapRam.drop off).length = s.snapRam.length - off := length_drop
    rw [take_of_length_le hdrop.le]
    constructor
    · rw [flat, drop_append_of_le_length (by omega), take_append,
        take_of_length_le (by omega), hdrop, hrest]
    · rw [length_append, hdrop, hlen]
      omega

theorem snapshotStoreWrite_returns (off : Nat) (hspace : s.snapRam.length + src.length ≤ 2 ^ 64)
    (hend : off + src.length ≤ s.snapRam.length + 2 ^ 63)
    (hpositive : ∀ reply ∈ replies, IoReply.Positive reply) (hlen : src.length ≤ replies.length) :
    ∃ s', snapshotStoreWrite replies s src off = some (true, s') := by
  have hmap {p : Option (Bool × List UInt8)} {store : List UInt8 → Tiers}
      (h : ∃ file', p = some (true, file')) : ∃ s',
        p.map (Prod.map id store) = some (true, s') := by
    obtain ⟨file', rfl⟩ := h
    exact ⟨_, rfl⟩
  rw [snapshotStoreWrite]
  dsimp only
  split_ifs with hfile hram hfits
  · exact hmap (flashscanPwriteAll_returns (by omega) hpositive (by omega))
  · exact ⟨_, rfl⟩
  · rw [wrap64_of_lt (by omega)] at hram
    exact absurd hram hfits
  · exact hmap (flashscanPwriteAll_returns (by rw [length_drop]; omega) hpositive
      (by rw [length_drop]; omega))

theorem snapshotStoreRead_returns (hspace : s.snapRam.length + len ≤ 2 ^ 64)
    (hend : off + len ≤ s.snapRam.length + 2 ^ 63) (hthere : off + len ≤ s.flat.length)
    (hpositive : ∀ reply ∈ replies, IoReply.Positive reply) (hlen : len ≤ replies.length) :
    ∃ bytes, snapshotStoreRead replies s off len = some (some bytes) := by
  rw [flat, length_append] at hthere
  rw [snapshotStoreRead]
  dsimp only
  split_ifs with hfile hram hfits
  · exact flashscanPreadAll_returns (by omega) (by omega) hpositive
      (by rw [length_nil]; omega)
  · exact ⟨_, rfl⟩
  · rw [wrap64_of_lt (by omega)] at hram
    exact absurd hram hfits
  · obtain ⟨rest, hloop⟩ : ∃ rest, flashscanPreadAll s.snapFile
        (len - (s.snapRam.length - off)) 0 replies [] = some (some rest) :=
      flashscanPreadAll_returns (by omega) (by omega) hpositive (by rw [length_nil]; omega)
    rw [hloop]
    exact ⟨_, rfl⟩

theorem snapshotStoreRead_zero (s : Tiers) (hoff : off < 2 ^ 64) :
    snapshotStoreRead [] s off 0 = some (some []) := by
  rw [snapshotStoreRead]
  dsimp only
  split_ifs with hfile hram hfits
  · rfl
  · rfl
  · exact absurd (Nat.le_of_not_le hfile) hfits
  · rw [Nat.add_zero, wrap64_of_lt hoff] at hram
    exact absurd (Nat.le_of_not_le hfile) hram

theorem eq_of_flat {t : Tiers} (hlen : s.snapRam.length = t.snapRam.length)
    (hflat : s.flat = t.flat) : s = t := by
  obtain ⟨hram, hfile⟩ := append_inj hflat hlen
  cases s
  cases t
  simp only at hram hfile
  rw [hram, hfile]

theorem tiers_snapshotStoreWrite {env : FsEnv} {s : SnapshotSession} {t : Tiers}
    (hfull : ∀ off len, len ≤ env.pwrite off len) (hsrc : src ≠ [])
    (hoff : off + src.length < 2 ^ 64)
    (h : snapshotStoreWrite replies s.tiers src off = some (true, t)) :
    (FlashScan.snapshotStoreWrite env s src off).tiers = t := by
  obtain ⟨hlen, n, hn, hflat, hok⟩ := snapshotStoreWrite_flat (by omega) h
  obtain rfl := hok rfl
  rw [take_length] at hflat
  have hpwrite (file data : List UInt8) (k : Nat) (hdata : data ≠ []) :
      (pwriteAll env file data k).2 = writeOver file k data := by
    rw [writeOver, if_neg hdata, pwriteAll]
    dsimp only
    rw [take_of_length_le (hfull _ _)]
  rw [FlashScan.snapshotStoreWrite]
  split_ifs with hfile hram
  · refine eq_of_flat hlen.symm ?_
    rw [hflat, hpwrite _ _ _ hsrc]
    simp only [flat, SnapshotSession.tiers]
    rw [append_writeOver, Nat.add_sub_cancel' hfile]
  · have hwrite : overwrite s.snapRam off src = writeOver s.snapRam off src := by
      rw [writeOver, if_neg hsrc]
    refine eq_of_flat ?_ ?_
    · rw [hlen]
      simp only [SnapshotSession.tiers]
      rw [hwrite, length_writeOver_of_le hram]
    · rw [hflat]
      simp only [flat, SnapshotSession.tiers]
      rw [hwrite, writeOver_append hram]
  · have htake : off + (src.take (s.snapRam.length - off)).length = s.snapRam.length := by
      rw [length_take]
      omega
    have hfront : src.take (s.snapRam.length - off) ≠ [] :=
      ne_nil_of_length_pos (by rw [length_take]; omega)
    have hback : src.drop (s.snapRam.length - off) ≠ [] :=
      ne_nil_of_length_pos (by rw [length_drop]; omega)
    have hwrite : overwrite s.snapRam off (src.take (s.snapRam.length - off)) =
        writeOver s.snapRam off (src.take (s.snapRam.length - off)) := by
      rw [writeOver, if_neg hfront]
    refine eq_of_flat ?_ ?_
    · rw [hlen]
      simp only [SnapshotSession.tiers]
      rw [hwrite, length_writeOver_of_le htake.le]
    · rw [hflat]
      simp only [flat, SnapshotSession.tiers]
      rw [hpwrite _ _ _ hback, hwrite, writeOver_append_writeOver htake, take_append_drop]

theorem snapshotStoreRead_tiers {env : FsEnv} {s : SnapshotSession}
    (hread : ∀ off len, env.pread off len = true) (hoff : off + len < 2 ^ 64)
    (hthere : off + len ≤ s.tiers.flat.length)
    (h : snapshotStoreRead replies s.tiers off len = some (some bytes)) :
    FlashScan.snapshotStoreRead env s off len = some bytes := by
  obtain ⟨rfl, -⟩ := snapshotStoreRead_flat (by omega) h
  simp only [flat, SnapshotSession.tiers, length_append] at hthere
  simp only [flat, SnapshotSession.tiers]
  rw [FlashScan.snapshotStoreRead]
  split_ifs with hfile hram
  · rw [preadAll, if_pos ⟨hread _ _, by omega⟩, drop_append, drop_of_length_le hfile,
      nil_append]
  · rw [drop_append_of_le_length (by omega),
      take_append_of_le_length (by rw [length_drop]; omega)]
  · have hram : (s.snapRam.drop off).take len = s.snapRam.drop off :=
      take_of_length_le (by rw [length_drop]; omega)
    dsimp only
    rw [preadAll, if_pos ⟨hread _ _, by omega⟩, Option.map_some, drop_zero,
      drop_append_of_le_length (by omega), take_append, hram, length_drop]

theorem snapshotStoreRead_of_write {replies' : List IoReply} {a n : Nat} (hoff : off < 2 ^ 64)
    (hwrite : snapshotStoreWrite replies s src off = some (true, s')) (ha : off ≤ a)
    (ha' : a < 2 ^ 64) (hn : a + n ≤ off + src.length)
    (hread : snapshotStoreRead replies' s' a n = some (some bytes)) :
    bytes = (src.drop (a - off)).take n := by
  obtain ⟨-, k, -, hflat, hok⟩ := snapshotStoreWrite_flat hoff hwrite
  obtain rfl := hok rfl
  obtain ⟨rfl, -⟩ := snapshotStoreRead_flat ha' hread
  rw [hflat, take_length, take_drop_writeOver ha hn]

/-- The store is an array.  A write changes nothing outside its range; what it has written, if it
returns 1, is what a read of any part of the range gives; and both return if the calls of `pwrite`
and `pread` move something, however little. -/
theorem snapshotStore_exact (s : Tiers) (src : List UInt8) (off : Nat) (hoff : off < 2 ^ 64) :
    (∀ (replies : List IoReply) (ok : Bool) (s' : Tiers),
      snapshotStoreWrite replies s src off = some (ok, s') →
        (∀ i, i < off ∨ off + src.length ≤ i → s'.flat.getD i 0 = s.flat.getD i 0) ∧
          (ok = true → ∀ a n, off ≤ a → a < 2 ^ 64 → a + n ≤ off + src.length →
            ∀ (replies' : List IoReply) (bytes : List UInt8),
              snapshotStoreRead replies' s' a n = some (some bytes) →
                bytes = (src.drop (a - off)).take n)) ∧
      (s.snapRam.length + src.length ≤ 2 ^ 64 → off + src.length ≤ s.snapRam.length + 2 ^ 63 →
        ∀ replies : Nat → IoReply, (∀ i, (replies i).Positive) →
          ∃ calls s', snapshotStoreWrite ((List.range calls).map replies) s src off =
              some (true, s') ∧
            ∀ a n, off ≤ a → a < 2 ^ 64 → a + n ≤ off + src.length →
              ∀ replies' : Nat → IoReply, (∀ i, (replies' i).Positive) →
                ∃ calls', snapshotStoreRead ((List.range calls').map replies') s' a n =
                  some (some ((src.drop (a - off)).take n))) := by
  have hpositive {replies : Nat → IoReply} (h : ∀ i, (replies i).Positive) (calls : Nat) :
      ∀ reply ∈ (List.range calls).map replies, IoReply.Positive reply := by
    intro reply hreply
    obtain ⟨i, -, rfl⟩ := mem_map.mp hreply
    exact h i
  constructor
  · intro replies ok s' hwrite
    constructor
    · intro i hi
      obtain ⟨-, n, hn, hflat, -⟩ := snapshotStoreWrite_flat hoff hwrite
      rw [hflat, getD_writeOver_of_outside]
      rw [length_take]
      omega
    · rintro rfl a n ha ha' hn replies' bytes hread
      exact snapshotStoreRead_of_write hoff hwrite ha ha' hn hread
  · intro hspace hend replies hreplies
    obtain ⟨s', hwrite⟩ := snapshotStoreWrite_returns off hspace hend
      (hpositive hreplies src.length) (by rw [length_map, length_range])
    refine ⟨src.length, s', hwrite, ?_⟩
    intro a n ha ha' hn replies' hreplies'
    rcases Nat.eq_zero_or_pos n with rfl | hpos
    · exact ⟨0, snapshotStoreRead_zero s' ha'⟩
    obtain ⟨hlen, k, -, hflat, hok⟩ := snapshotStoreWrite_flat hoff hwrite
    obtain rfl := hok rfl
    have hsrc : src ≠ [] := ne_nil_of_length_pos (by omega)
    have hthere : a + n ≤ s'.flat.length := by
      rw [hflat, take_length]
      exact hn.trans (length_writeOver_ge hsrc)
    have hcalls : n ≤ ((List.range n).map replies').length := by
      rw [length_map, length_range]
    obtain ⟨bytes, hread⟩ :=
      snapshotStoreRead_returns (by omega) (by omega) hthere (hpositive hreplies' n) hcalls
    refine ⟨n, ?_⟩
    rw [hread, snapshotStoreRead_of_write hoff hwrite ha ha' hn hread]

theorem snapshotStore_exact_straddling :
    ∃ calls s', snapshotStoreWrite ((List.range calls).map fun _ => some 1) ⟨[0, 0, 0, 0], []⟩
        [1, 2, 3, 4] 2 = some (true, s') ∧
      ∃ calls', snapshotStoreRead ((List.range calls').map fun _ => some 1) s' 3 2 =
        some (some [2, 3]) := by
  have hone (i : Nat) : IoReply.Positive ((fun _ => some 1) i) := ⟨1, rfl, Nat.one_pos⟩
  obtain ⟨calls, s', hwrite, hread⟩ :=
    (snapshotStore_exact ⟨[0, 0, 0, 0], []⟩ [1, 2, 3, 4] 2 (by decide)).2 (by decide) (by decide)
      (fun _ => some 1) hone
  exact ⟨calls, s', hwrite, hread 3 2 (by decide) (by decide) (by decide) _ hone⟩

/-! ## Runs of writes -/

structure StoreWrite where
  replies : List IoReply
  src : List UInt8
  off : Nat

def runWrites : Tiers → List StoreWrite → Option Tiers
  | s, [] => some s
  | s, w :: writes =>
    match snapshotStoreWrite w.replies s w.src w.off with
    | some (true, s') => runWrites s' writes
    | _ => none

def sessionWrites (env : FsEnv) (s : SnapshotSession) (writes : List StoreWrite) :
    SnapshotSession :=
  writes.foldl (fun s w => FlashScan.snapshotStoreWrite env s w.src w.off) s

/-- **Short reads and writes do not show.**  However the calls of `pwrite` and `pread` are cut, a
run of writes that return 1 leaves the two tiers that whole calls leave, which are the array on
which the writes are done one after the other, and what is read then is a part of it. -/
theorem runWrites_agrees {env : FsEnv} (hfull : ∀ off len, len ≤ env.pwrite off len)
    (hread : ∀ off len, env.pread off len = true) {s : SnapshotSession} {t : Tiers}
    {writes : List StoreWrite}
    (hwrites : ∀ w ∈ writes, w.src ≠ [] ∧ w.off + w.src.length < 2 ^ 64)
    (h : runWrites s.tiers writes = some t) :
    (sessionWrites env s writes).tiers = t ∧
      t.flat = writes.foldl (fun l w => writeOver l w.off w.src) s.tiers.flat ∧
      ∀ replies off len bytes, off + len < 2 ^ 64 → off + len ≤ t.flat.length →
        snapshotStoreRead replies t off len = some (some bytes) →
          bytes = (t.flat.drop off).take len ∧
            FlashScan.snapshotStoreRead env (sessionWrites env s writes) off len = some bytes := by
  induction writes generalizing s with
  | nil =>
    cases h
    refine ⟨rfl, rfl, fun replies off len bytes hoff hthere hbytes => ⟨?_, ?_⟩⟩
    · exact (snapshotStoreRead_flat (by omega) hbytes).1
    · exact snapshotStoreRead_tiers hread hoff hthere hbytes
  | cons w writes ih =>
    obtain ⟨⟨hsrc, hoff⟩, hrest⟩ := forall_mem_cons.mp hwrites
    rw [runWrites] at h
    split at h
    · rename_i t' hwrite
      have hflat : t'.flat = writeOver s.tiers.flat w.off w.src := by
        obtain ⟨-, n, -, hflat, hok⟩ := snapshotStoreWrite_flat (by omega) hwrite
        rw [hflat, hok rfl, take_length]
      have htiers := tiers_snapshotStoreWrite hfull hsrc hoff hwrite
      rw [← htiers] at h hflat
      rw [foldl_cons, ← hflat]
      exact ih hrest h
    · cases h

theorem runWrites_agrees_straddling :
    (sessionWrites ⟨fun _ => 0, fun _ len => len, fun _ _ => none, none, fun _ => true,
        fun _ => false, fun _ _ => true, fun _ len => len, fun _ => true, fun _ => []⟩
      ⟨[], 0, 0, 1, [0, 0, 0, 0], [], false, [], false, [], [], 4, 1, .u32, fourBytes_pos,
        fourBytes_le⟩
      [⟨[some 1, some 1], [1, 2, 3, 4], 2⟩]).tiers = ⟨[0, 0, 1, 2], [3, 4]⟩ :=
  (runWrites_agrees (fun _ _ => Nat.le_refl _) (fun _ _ => rfl)
    (forall_mem_singleton.mpr ⟨by decide, by decide⟩) rfl).1

end Tiers

end MemDbg.FlashScan
