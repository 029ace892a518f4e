import MemDbg.Core.Status
import MemDbg.Lib.Bytes
import Mathlib.Tactic.IntervalCases

/-!
# Writes to a process on the console

A write that the kernel's copy primitive refuses is tried through the page tables, and at last
region by region with a temporary protection.  The primitives belong to the console: what each of
their calls answers is part of a run here, and a call that fails changes nothing, except that a
write through the page tables may have stored some of its bytes.
-/

namespace MemDbg.Pal

open List Lib

/-! ## The primitives -/

structure Target where
  mem : Nat → UInt8
  prot : Nat → Nat

def eperm : Nat := 1

def enoent : Nat := 2

def esrch : Nat := 3

def eio : Nat := 5

def eacces : Nat := 13

def efault : Nat := 14

def einval : Nat := 22

def eoverflow : Nat := 84

def protRead : Nat := 1

def protWrite : Nat := 2

abbrev Answer := Option Nat

abbrev PtwAnswer := Option Nat

def Target.copyin (s : Target) (address : Nat) (data : List UInt8) : Answer → Target
  | none => { s with mem := store s.mem address data }
  | some _ => s

def Target.ptwWrite (s : Target) (address : Nat) (data : List UInt8) : PtwAnswer → Target
  | none => { s with mem := store s.mem address data }
  | some n => { s with mem := store s.mem address (data.take n) }

def InPages (page address length p : Nat) : Prop :=
  address / page ≤ p ∧ p ≤ (address + length - 1) / page

instance (page address length p : Nat) : Decidable (InPages page address length p) :=
  inferInstanceAs (Decidable (_ ∧ _))

def Target.protAt (s : Target) (page address : Nat) : Nat := s.prot (address / page)

def Target.setProt (s : Target) (page address length prot : Nat) : Target :=
  { s with prot := fun p => if InPages page address length p then prot else s.prot p }

def orElse (errno other : Nat) : Nat := if errno ≠ 0 then errno else other

/-! ## The region loop -/

structure PalMap where
  start : Nat
  stop : Nat
deriving DecidableEq

structure SegmentAnswers where
  get : Answer
  set : Answer
  copyin : Answer
  ptwAvailable : Bool
  ptw : PtwAnswer
  restore : Answer

def copySegment (a : SegmentAnswers) (cursor : Nat) (data : List UInt8) (s : Target) : Target :=
  let s₁ := s.copyin cursor data a.copyin
  if a.copyin.isSome ∧ a.ptwAvailable then s₁.ptwWrite cursor data a.ptw else s₁

def SegmentAnswers.copied (a : SegmentAnswers) : Bool :=
  a.copyin.isNone || (a.ptwAvailable && a.ptw.isNone)

def readOnly (prot : Nat) : Bool := prot &&& protWrite == 0

def writeSegment (page : Nat) (a : SegmentAnswers) (cursor length : Nat) (data : List UInt8)
    (s : Target) : Answer × Target :=
  match a.get with
  | some errno => (some (orElse errno eio), s)
  | none =>
    let originalProt := s.protAt page cursor
    let copyErrno := if a.copied then none else some (orElse (a.copyin.getD 0) eio)
    if readOnly originalProt then
      match a.set with
      | some errno => (some (orElse errno eacces), s)
      | none =>
        let s₁ := s.setProt page cursor length (originalProt ||| protRead ||| protWrite)
        let s₂ := copySegment a cursor data s₁
        match a.restore with
        | some errno => (some (orElse errno eio), s₂)
        | none => (copyErrno, s₂.setProt page cursor length originalProt)
    else (copyErrno, copySegment a cursor data s)

def mapAt (maps : List PalMap) (cursor : Nat) : Option PalMap :=
  maps.find? fun map => decide (map.start ≤ cursor) && decide (cursor < map.stop)

theorem lt_stop_of_mapAt {maps : List PalMap} {cursor : Nat} {map : PalMap}
    (h : mapAt maps cursor = some map) : cursor < map.stop := by
  have hmap := find?_some h
  rw [Bool.and_eq_true, decide_eq_true_eq, decide_eq_true_eq] at hmap
  exact hmap.2

def segmentEnd (map : PalMap) (stop : Nat) : Nat := if map.stop < stop then map.stop else stop

theorem lt_segmentEnd {maps : List PalMap} {cursor stop : Nat} {map : PalMap}
    (h : mapAt maps cursor = some map) (hcursor : cursor < stop) :
    cursor < segmentEnd map stop := by
  rw [segmentEnd]
  split_ifs
  · exact lt_stop_of_mapAt h
  · exact hcursor

theorem segmentEnd_le (map : PalMap) (stop : Nat) : segmentEnd map stop ≤ stop := by
  rw [segmentEnd]
  split_ifs with h
  · exact Nat.le_of_lt h
  · exact Nat.le_refl _

def regionLoop (page : Nat) (maps : List PalMap) (stop : Nat) (a : Nat → SegmentAnswers)
    (i cursor : Nat) (rest : List UInt8) (s : Target) : Answer × Target :=
  if _hcursor : cursor < stop then
    match _hmap : mapAt maps cursor with
    | none => (some efault, s)
    | some map =>
      let length := segmentEnd map stop - cursor
      match writeSegment page (a i) cursor length (rest.take length) s with
      | (some errno, s') => (some errno, s')
      | (none, s') =>
        regionLoop page maps stop a (i + 1) (segmentEnd map stop) (rest.drop length) s'
  else (none, s)
termination_by stop - cursor
decreasing_by
  have hlt := lt_segmentEnd _hmap _hcursor
  omega

/-! ## The write -/

structure WriteAnswers where
  fwNeedsDmap : Bool
  ptwAvailable : Bool
  ptw : PtwAnswer
  flush : Answer
  copyin : Answer
  fallbackAvailable : Bool
  fallback : PtwAnswer
  maps : Except Nat (List PalMap)
  segment : Nat → SegmentAnswers

def consoleMdbgCopyinPs5Regions (page : Nat) (a : WriteAnswers) (address : Nat)
    (data : List UInt8) (s : Target) : Answer × Target :=
  if data.length > 2 ^ 64 - 1 - address then (some eoverflow, s)
  else
    match a.maps with
    | .error errno => (some (orElse errno eio), s)
    | .ok maps => regionLoop page maps (address + data.length) a.segment 0 address data s

def consoleMdbgCopyin (page : Nat) (a : WriteAnswers) (address : Nat) (data : List UInt8)
    (s : Target) : Answer × Target :=
  match a.copyin with
  | none => (none, s.copyin address data none)
  | some firstErrno =>
    if firstErrno = eacces ∨ firstErrno = eperm then
      if a.fallbackAvailable then
        match a.fallback with
        | none => (none, s.ptwWrite address data none)
        | some n =>
          consoleMdbgCopyinPs5Regions page a address data (s.ptwWrite address data (some n))
      else consoleMdbgCopyinPs5Regions page a address data s
    else (some firstErrno, s)

def mdbgErrnoStatus (errno : Nat) : Status :=
  if errno = eacces ∨ errno = eperm then .errPermission
  else if errno = esrch ∨ errno = enoent then .errNotFound
  else if errno = einval then .errParam
  else .errIo

structure Written where
  status : Status
  writtenOut : Nat
  target : Target

def palMemoryWriteMdbg (page : Nat) (a : WriteAnswers) (address : Nat) (data : List UInt8)
    (s : Target) : Written :=
  match consoleMdbgCopyin page a address data s with
  | (none, s') => ⟨.ok, data.length, s'⟩
  | (some errno, s') => ⟨mdbgErrnoStatus errno, 0, s'⟩

def palMemoryWrite (page : Nat) (a : WriteAnswers) (pid : Int) (address : Nat)
    (buffer : Option (Nat → UInt8)) (length : Nat) (s : Target) : Written :=
  match buffer with
  | none =>
    if pid ≤ 0 ∨ length ≠ 0 then ⟨.errParam, 0, s⟩
    else if pid ≤ 1 then ⟨.errPermission, 0, s⟩
    else ⟨.ok, 0, s⟩
  | some source =>
    let data := slice source 0 length
    if pid ≤ 0 then ⟨.errParam, 0, s⟩
    else if pid ≤ 1 then ⟨.errPermission, 0, s⟩
    else if length = 0 then ⟨.ok, 0, s⟩
    else if a.fwNeedsDmap ∧ a.ptwAvailable then
      match a.ptw with
      | none => ⟨.ok, length, (s.ptwWrite address data none).copyin address data a.flush⟩
      | some n => palMemoryWriteMdbg page a address data (s.ptwWrite address data (some n))
    else palMemoryWriteMdbg page a address data s

/-! ## Exactness -/

/-- A write that succeeds has stored its bytes and nothing else, and every page has the protection
that it had. -/
structure Written.Exact (r : Written) (address : Nat) (data : List UInt8) (before : Target) :
    Prop where
  mem : r.status = .ok → r.target.mem = store before.mem address data
  prot : r.target.prot = before.prot

def SegmentAnswers.Passes (a : SegmentAnswers) (prot : Nat) : Prop :=
  a.get = none ∧ (readOnly prot = true → a.set = none) ∧ a.copied = true

def SegmentAnswers.Reprotects (a : SegmentAnswers) (prot : Nat) : Prop :=
  a.get = none ∧ readOnly prot = true ∧ a.set = none

/-- All segments that the loop gives a temporary protection have one protection to begin with. -/
def UniformSegments (page : Nat) (maps : List PalMap) (stop : Nat) (a : Nat → SegmentAnswers)
    (prot : Nat → Nat) (i cursor : Nat) : Prop :=
  if _hcursor : cursor < stop then
    match _hmap : mapAt maps cursor with
    | none => True
    | some map =>
      ((a i).Reprotects (prot (cursor / page)) → ∀ p,
        InPages page cursor (segmentEnd map stop - cursor) p → prot p = prot (cursor / page)) ∧
      ((a i).Passes (prot (cursor / page)) →
        UniformSegments page maps stop a prot (i + 1) (segmentEnd map stop))
  else True
termination_by stop - cursor
decreasing_by
  have hlt := lt_segmentEnd _hmap _hcursor
  omega

section Segments

variable {page cursor length stop : Nat} {a : SegmentAnswers} {data : List UInt8} {s : Target}

theorem store_store {mem : Nat → UInt8} {address : Nat} {xs ys : List UInt8}
    (h : xs.length ≤ ys.length) :
    store (store mem address xs) address ys = store mem address ys := by
  funext x
  simp only [store]
  split_ifs with hy hx
  · rfl
  · omega
  · rfl

theorem store_nil (mem : Nat → UInt8) (address : Nat) : store mem address [] = mem := by
  funext x
  rw [store, if_neg]
  rw [length_nil]
  omega

theorem store_append {mem : Nat → UInt8} {address : Nat} {xs ys : List UInt8} :
    store (store mem address xs) (address + xs.length) ys = store mem address (xs ++ ys) := by
  funext x
  rw [store, store, store, length_append]
  by_cases hys : address + xs.length ≤ x ∧ x < address + xs.length + ys.length
  · rw [if_pos hys, if_pos (by omega), getD_append_right _ _ _ _ (by omega)]
    congr 1
    omega
  · rw [if_neg hys]
    by_cases hxs : address ≤ x ∧ x < address + xs.length
    · rw [if_pos hxs, if_pos (by omega), getD_append _ _ _ _ (by omega)]
    · rw [if_neg hxs, if_neg (by omega)]

theorem copyin_prot (answer : Answer) : (s.copyin cursor data answer).prot = s.prot := by
  cases answer <;> rfl

theorem ptwWrite_prot (answer : PtwAnswer) : (s.ptwWrite cursor data answer).prot = s.prot := by
  cases answer <;> rfl

theorem copySegment_prot (a : SegmentAnswers) : (copySegment a cursor data s).prot = s.prot := by
  rw [copySegment]
  split_ifs
  · rw [ptwWrite_prot, copyin_prot]
  · exact copyin_prot _

theorem copySegment_mem (h : a.copied = true) :
    (copySegment a cursor data s).mem = store s.mem cursor data := by
  rw [SegmentAnswers.copied, Bool.or_eq_true, Bool.and_eq_true] at h
  rw [copySegment]
  cases hcopyin : a.copyin with
  | none => rfl
  | some errno =>
    rw [hcopyin] at h
    obtain ⟨havail, hptw⟩ := h.resolve_left Bool.false_ne_true
    rw [Option.isNone_iff_eq_none] at hptw
    rw [if_pos ⟨rfl, havail⟩, hptw]
    rfl

theorem writeSegment_none_iff (hrestore : a.restore = none) :
    (writeSegment page a cursor length data s).1 = none ↔ a.Passes (s.prot (cursor / page)) := by
  rw [writeSegment, SegmentAnswers.Passes, hrestore]
  cases a.get with
  | some errno => exact iff_of_false nofun nofun
  | none =>
    have hcopied : (if a.copied = true then none
        else some (orElse (a.copyin.getD 0) eio)) = none ↔ a.copied = true := by
      split_ifs with hcopied
      · exact iff_of_true rfl hcopied
      · exact iff_of_false nofun hcopied
    dsimp only
    rw [Target.protAt]
    by_cases hprot : readOnly (s.prot (cursor / page)) = true
    · rw [if_pos hprot]
      cases hset : a.set with
      | some errno => exact iff_of_false nofun fun h => nomatch h.2.1 hprot
      | none => exact hcopied.trans ⟨fun h => ⟨rfl, fun _ => rfl, h⟩, fun h => h.2.2⟩
    · rw [if_neg hprot]
      exact hcopied.trans ⟨fun h => ⟨rfl, fun hread => absurd hread hprot, h⟩, fun h => h.2.2⟩

theorem writeSegment_mem (h : a.Passes (s.prot (cursor / page))) (hrestore : a.restore = none) :
    (writeSegment page a cursor length data s).2.mem = store s.mem cursor data := by
  obtain ⟨hget, hset, hcopied⟩ := h
  rw [writeSegment, hget, hrestore]
  dsimp only
  rw [Target.protAt]
  split_ifs with hprot
  · rw [hset hprot]
    exact copySegment_mem hcopied
  · exact copySegment_mem hcopied

theorem writeSegment_prot (h : a.Reprotects (s.prot (cursor / page)))
    (hrestore : a.restore = none) (p : Nat) :
    (writeSegment page a cursor length data s).2.prot p =
      if InPages page cursor length p then s.prot (cursor / page) else s.prot p := by
  obtain ⟨hget, hprot, hset⟩ := h
  rw [writeSegment, hget, hrestore, hset]
  dsimp only
  rw [Target.protAt, if_pos hprot, Target.setProt]
  rw [copySegment_prot, Target.setProt]
  dsimp only
  split_ifs <;> rfl

theorem writeSegment_prot_of_not (h : ¬ a.Reprotects (s.prot (cursor / page))) :
    (writeSegment page a cursor length data s).2.prot = s.prot := by
  rw [writeSegment]
  cases hget : a.get with
  | some errno => rfl
  | none =>
    dsimp only
    rw [Target.protAt]
    by_cases hprot : readOnly (s.prot (cursor / page)) = true
    · rw [if_pos hprot]
      cases hset : a.set with
      | some errno => rfl
      | none => exact absurd ⟨hget, hprot, hset⟩ h
    · rw [if_neg hprot]
      exact copySegment_prot a

theorem writeSegment_prot_le (hrestore : a.restore = none) {p : Nat} (hp : p ≤ cursor / page) :
    (writeSegment page a cursor length data s).2.prot p = s.prot p := by
  by_cases h : a.Reprotects (s.prot (cursor / page))
  · rw [writeSegment_prot h hrestore]
    split_ifs with hin
    · rw [Nat.le_antisymm hin.1 hp]
    · rfl
  · rw [writeSegment_prot_of_not h]

theorem writeSegment_prot_iff (hrestore : a.restore = none) :
    (writeSegment page a cursor length data s).2.prot = s.prot ↔
      (a.Reprotects (s.prot (cursor / page)) → ∀ p, InPages page cursor length p →
        s.prot p = s.prot (cursor / page)) := by
  constructor
  · intro hkept h p hp
    have hprot := @writeSegment_prot page cursor length a data s h hrestore p
    rwa [hkept, if_pos hp] at hprot
  · intro huniform
    by_cases h : a.Reprotects (s.prot (cursor / page))
    · funext p
      rw [writeSegment_prot h hrestore]
      split_ifs with hp
      · exact (huniform h p hp).symm
      · rfl
    · exact writeSegment_prot_of_not h

theorem writeSegment_prot_ne (hrestore : a.restore = none) {p : Nat}
    (h : (writeSegment page a cursor length data s).2.prot p ≠ s.prot p) :
    InPages page cursor length p := by
  by_cases hreprotects : a.Reprotects (s.prot (cursor / page))
  · rw [writeSegment_prot hreprotects hrestore] at h
    by_contra hp
    exact h (if_neg hp)
  · rw [writeSegment_prot_of_not hreprotects] at h
    exact absurd rfl h

end Segments

section Loop

variable {page stop i cursor : Nat} {maps : List PalMap} {a : Nat → SegmentAnswers}
  {rest : List UInt8} {s : Target}

theorem regionLoop_prot_le (hrestore : ∀ i, (a i).restore = none) {p : Nat}
    (hp : p ≤ cursor / page) :
    (regionLoop page maps stop a i cursor rest s).2.prot p = s.prot p := by
  fun_induction regionLoop page maps stop a i cursor rest s with
  | case1 => rfl
  | case2 i cursor rest s hcursor map hmap length errno s' hseg =>
    have hkeeps := @writeSegment_prot_le page cursor length (a i) (rest.take length) s
      (hrestore i) p hp
    rwa [hseg] at hkeeps
  | case3 i cursor rest s hcursor map hmap length s' hseg ih =>
    have hkeeps := @writeSegment_prot_le page cursor length (a i) (rest.take length) s
      (hrestore i) p hp
    rw [hseg] at hkeeps
    have hnext := Nat.div_le_div_right (c := page) (Nat.le_of_lt (lt_segmentEnd hmap hcursor))
    rw [ih (Nat.le_trans hp hnext), hkeeps]
  | case4 => rfl

theorem uniformSegments_iff {prot : Nat → Nat} {map : PalMap} (hcursor : cursor < stop)
    (hmap : mapAt maps cursor = some map) : UniformSegments page maps stop a prot i cursor ↔
      ((a i).Reprotects (prot (cursor / page)) → ∀ p,
        InPages page cursor (segmentEnd map stop - cursor) p → prot p = prot (cursor / page)) ∧
      ((a i).Passes (prot (cursor / page)) →
        UniformSegments page maps stop a prot (i + 1) (segmentEnd map stop)) := by
  rw [UniformSegments, dif_pos hcursor]
  split
  · next hnone => cases hnone.symm.trans hmap
  · next map' hmap' =>
      cases hmap'.symm.trans hmap
      rfl

theorem regionLoop_prot_iff (hrestore : ∀ i, (a i).restore = none) :
    (regionLoop page maps stop a i cursor rest s).2.prot = s.prot ↔
      UniformSegments page maps stop a s.prot i cursor := by
  fun_induction regionLoop page maps stop a i cursor rest s with
  | case1 i cursor rest s hcursor hmap =>
    rw [UniformSegments, dif_pos hcursor]
    split
    · exact iff_of_true rfl trivial
    · next map hmap' => cases hmap.symm.trans hmap'
  | case2 i cursor rest s hcursor map hmap length errno s' hseg =>
    have hkept := @writeSegment_prot_iff page cursor length (a i) (rest.take length) s
      (hrestore i)
    have hpasses := @writeSegment_none_iff page cursor length (a i) (rest.take length) s
      (hrestore i)
    rw [hseg] at hkept hpasses
    rw [uniformSegments_iff hcursor hmap, hkept]
    exact ⟨fun h => ⟨h, fun hpass => nomatch hpasses.mpr hpass⟩, fun h => h.1⟩
  | case3 i cursor rest s hcursor map hmap length s' hseg ih =>
    have hkept := @writeSegment_prot_iff page cursor length (a i) (rest.take length) s
      (hrestore i)
    have hpasses := @writeSegment_none_iff page cursor length (a i) (rest.take length) s
      (hrestore i)
    have hchanged := @writeSegment_prot_ne page cursor length (a i) (rest.take length) s
      (hrestore i)
    rw [hseg] at hkept hpasses hchanged
    rw [uniformSegments_iff hcursor hmap, ← hkept]
    by_cases hsame : s'.prot = s.prot
    · rw [hsame] at ih
      rw [ih]
      exact ⟨fun h => ⟨hsame, fun _ => h⟩, fun h => h.2 (hpasses.mp rfl)⟩
    · -- a page that has changed is not before the cursor, and nobody changes it again
      obtain ⟨p, hp⟩ := Function.ne_iff.mp hsame
      have hlt := lt_segmentEnd hmap hcursor
      have hle : p ≤ segmentEnd map stop / page :=
        Nat.le_trans (hchanged hp).2 (Nat.div_le_div_right (by omega))
      refine iff_of_false (fun h => hp ?_) (fun h => hsame h.1)
      rw [← regionLoop_prot_le hrestore hle, h]
  | case4 i cursor rest s hcursor =>
    rw [UniformSegments, dif_neg hcursor]
    exact iff_of_true rfl trivial

theorem regionLoop_mem (hrestore : ∀ i, (a i).restore = none)
    (hlength : cursor + rest.length = stop)
    (h : (regionLoop page maps stop a i cursor rest s).1 = none) :
    (regionLoop page maps stop a i cursor rest s).2.mem = store s.mem cursor rest := by
  fun_induction regionLoop page maps stop a i cursor rest s with
  | case1 => cases h
  | case2 => cases h
  | case3 i cursor rest s hcursor map hmap length s' hseg ih =>
    have hlt := lt_segmentEnd hmap hcursor
    have hle := segmentEnd_le map stop
    have hpasses := @writeSegment_none_iff page cursor length (a i) (rest.take length) s
      (hrestore i)
    have hmem := @writeSegment_mem page cursor length (a i) (rest.take length) s
    rw [hseg] at hpasses hmem
    have htake : (rest.take length).length = length := length_take_of_le (by omega)
    rw [ih (by rw [length_drop]; omega) h, hmem (hpasses.mp rfl) (hrestore i),
      show segmentEnd map stop = cursor + (rest.take length).length by omega, store_append,
      take_append_drop]
  | case4 i cursor rest s hcursor =>
    obtain rfl : rest = [] := eq_nil_of_length_eq_zero (by omega)
    exact (store_nil _ _).symm

end Loop

/-! ## The write -/

def bufferBytes (buffer : Option (Nat → UInt8)) (length : Nat) : List UInt8 :=
  match buffer with
  | none => []
  | some source => slice source 0 length

structure CopyFallsBack (a : WriteAnswers) (address length : Nat) (maps : List PalMap) : Prop where
  refused : ∃ errno, a.copyin = some errno ∧ (errno = eacces ∨ errno = eperm)
  fallback : ¬ (a.fallbackAvailable = true ∧ a.fallback = none)
  inRange : length ≤ 2 ^ 64 - 1 - address
  listed : a.maps = .ok maps

/-- The write falls back on the region loop. -/
structure FallsBack (a : WriteAnswers) (pid : Int) (address : Nat) (buffer : Option (Nat → UInt8))
    (length : Nat) (maps : List PalMap) : Prop extends CopyFallsBack a address length maps where
  alive : 1 < pid
  present : buffer ≠ none
  nonempty : length ≠ 0
  firmware : ¬ (a.fwNeedsDmap = true ∧ a.ptwAvailable = true ∧ a.ptw = none)

section Write

variable {page : Nat} {a : WriteAnswers} {pid : Int} {address length : Nat} {data : List UInt8}
  {buffer : Option (Nat → UInt8)} {s : Target}

theorem mdbgErrnoStatus_ne_ok (errno : Nat) : mdbgErrnoStatus errno ≠ .ok := by
  rw [mdbgErrnoStatus]
  split_ifs <;> nofun

theorem store_ptwWrite (n : Nat) : store (s.ptwWrite address data (some n)).mem address data =
    store s.mem address data :=
  store_store (length_take_le' n data)

theorem regions_mem (hrestore : ∀ i, (a.segment i).restore = none)
    (h : (consoleMdbgCopyinPs5Regions page a address data s).1 = none) :
    (consoleMdbgCopyinPs5Regions page a address data s).2.mem = store s.mem address data := by
  rw [consoleMdbgCopyinPs5Regions] at h ⊢
  split at h
  · cases h
  · rw [if_neg ‹_›]
    cases hmaps : a.maps with
    | error errno =>
      rw [hmaps] at h
      cases h
    | ok maps =>
      rw [hmaps] at h
      exact regionLoop_mem hrestore rfl h

theorem regions_prot_iff (hrestore : ∀ i, (a.segment i).restore = none) :
    (consoleMdbgCopyinPs5Regions page a address data s).2.prot = s.prot ↔
      ∀ maps, data.length ≤ 2 ^ 64 - 1 - address → a.maps = .ok maps →
        UniformSegments page maps (address + data.length) a.segment s.prot 0 address := by
  rw [consoleMdbgCopyinPs5Regions]
  split
  · next hover => exact iff_of_true rfl fun maps hle => absurd hle (Nat.not_le.mpr hover)
  · next hover =>
    cases hmaps : a.maps with
    | error errno => exact iff_of_true rfl nofun
    | ok maps =>
      refine (regionLoop_prot_iff hrestore).trans ⟨fun h maps' _ hok => ?_, fun h => ?_⟩
      · cases hok
        exact h
      · exact h maps (Nat.not_lt.mp hover) rfl

theorem consoleMdbgCopyin_mem (hrestore : ∀ i, (a.segment i).restore = none)
    (h : (consoleMdbgCopyin page a address data s).1 = none) :
    (consoleMdbgCopyin page a address data s).2.mem = store s.mem address data := by
  rw [consoleMdbgCopyin] at h ⊢
  cases hcopyin : a.copyin with
  | none => rfl
  | some errno =>
    rw [hcopyin] at h
    dsimp only at h ⊢
    split_ifs at h ⊢
    · cases hfallback : a.fallback with
      | none => rfl
      | some n =>
        rw [hfallback] at h
        exact (regions_mem hrestore h).trans (store_ptwWrite n)
    · exact regions_mem hrestore h

theorem consoleMdbgCopyin_prot_iff (hrestore : ∀ i, (a.segment i).restore = none) :
    (consoleMdbgCopyin page a address data s).2.prot = s.prot ↔
      ∀ maps, CopyFallsBack a address data.length maps →
        UniformSegments page maps (address + data.length) a.segment s.prot 0 address := by
  rw [consoleMdbgCopyin]
  cases hcopyin : a.copyin with
  | none =>
    refine iff_of_true rfl fun maps h => ?_
    obtain ⟨errno, hsome, -⟩ := h.refused
    cases hcopyin.symm.trans hsome
  | some errno =>
    dsimp only
    split_ifs with herrno havail
    · cases hfallback : a.fallback with
      | none => exact iff_of_true rfl fun maps h => absurd ⟨havail, hfallback⟩ h.fallback
      | some n =>
        have hiff := @regions_prot_iff page a address data (s.ptwWrite address data (some n))
          hrestore
        rw [ptwWrite_prot] at hiff
        refine hiff.trans ⟨fun h maps hfalls => h maps hfalls.inRange hfalls.listed,
          fun h maps hle hmaps => h maps ⟨⟨errno, hcopyin, herrno⟩, fun hok => ?_, hle, hmaps⟩⟩
        cases hfallback.symm.trans hok.2
    · exact (regions_prot_iff hrestore).trans
        ⟨fun h maps hfalls => h maps hfalls.inRange hfalls.listed, fun h maps hle hmaps =>
          h maps ⟨⟨errno, hcopyin, herrno⟩, fun hok => havail hok.1, hle, hmaps⟩⟩
    · refine iff_of_true rfl fun maps h => ?_
      obtain ⟨errno', hsome, herrno'⟩ := h.refused
      cases hcopyin.symm.trans hsome
      exact absurd herrno' herrno

theorem palMemoryWriteMdbg_mem (hrestore : ∀ i, (a.segment i).restore = none)
    (h : (palMemoryWriteMdbg page a address data s).status = .ok) :
    (palMemoryWriteMdbg page a address data s).target.mem = store s.mem address data := by
  have hmem := @consoleMdbgCopyin_mem page a address data s hrestore
  rw [palMemoryWriteMdbg] at h ⊢
  split at h
  · next s' hcopy =>
    rw [hcopy] at hmem
    exact hmem rfl
  · exact absurd h (mdbgErrnoStatus_ne_ok _)

theorem palMemoryWriteMdbg_prot : (palMemoryWriteMdbg page a address data s).target.prot =
    (consoleMdbgCopyin page a address data s).2.prot := by
  rw [palMemoryWriteMdbg]
  split <;> next hcopy => rw [hcopy]

theorem palMemoryWrite_mem (hrestore : ∀ i, (a.segment i).restore = none)
    (h : (palMemoryWrite page a pid address buffer length s).status = .ok) :
    (palMemoryWrite page a pid address buffer length s).target.mem =
      store s.mem address (bufferBytes buffer length) := by
  cases buffer with
  | none =>
    rw [palMemoryWrite] at h ⊢
    split_ifs at h ⊢
    exact (store_nil _ _).symm
  | some source =>
    rw [palMemoryWrite] at h ⊢
    rw [bufferBytes]
    split_ifs at h ⊢ with hpid hinit hlength hfirmware
    · rw [hlength, slice_zero, store_nil]
    · cases hptw : a.ptw with
      | none =>
        -- the copy that flushes the caches stores the same bytes again
        cases a.flush with
        | none => exact store_store (Nat.le_refl _)
        | some errno => rfl
      | some n =>
        rw [hptw] at h
        exact (palMemoryWriteMdbg_mem hrestore h).trans (store_ptwWrite n)
    · exact palMemoryWriteMdbg_mem hrestore h

theorem palMemoryWrite_prot_iff (hrestore : ∀ i, (a.segment i).restore = none) :
    (palMemoryWrite page a pid address buffer length s).target.prot = s.prot ↔
      ∀ maps, FallsBack a pid address buffer length maps →
        UniformSegments page maps (address + length) a.segment s.prot 0 address := by
  cases buffer with
  | none =>
    refine iff_of_true ?_ fun maps h => absurd rfl h.present
    rw [palMemoryWrite]
    split_ifs <;> rfl
  | some source =>
    have hbytes : (slice source 0 length).length = length := length_slice source 0 length
    have hmdbg (t : Target) := @consoleMdbgCopyin_prot_iff page a address (slice source 0 length)
      t hrestore
    rw [hbytes] at hmdbg
    rw [palMemoryWrite]
    split_ifs with hpid hinit hlength hfirmware
    · exact iff_of_true rfl fun maps h => absurd h.alive (by omega)
    · exact iff_of_true rfl fun maps h => absurd h.alive (by omega)
    · exact iff_of_true rfl fun maps h => absurd hlength h.nonempty
    · cases hptw : a.ptw with
      | none =>
        refine iff_of_true ?_ fun maps h => absurd ⟨hfirmware.1, hfirmware.2, hptw⟩ h.firmware
        exact (copyin_prot _).trans (ptwWrite_prot none)
      | some n =>
        have hiff := hmdbg (s.ptwWrite address (slice source 0 length) (some n))
        rw [ptwWrite_prot] at hiff
        dsimp only
        rw [palMemoryWriteMdbg_prot, hiff]
        refine ⟨fun h maps hfalls => h maps hfalls.toCopyFallsBack, fun h maps hfalls =>
          h maps ⟨hfalls, by omega, nofun, hlength, fun hok => ?_⟩⟩
        cases hptw.symm.trans hok.2.2
    · rw [palMemoryWriteMdbg_prot, hmdbg s]
      exact ⟨fun h maps hfalls => h maps hfalls.toCopyFallsBack, fun h maps hfalls =>
        h maps ⟨hfalls, by omega, nofun, hlength, fun hok => hfirmware ⟨hok.1, hok.2.1⟩⟩⟩

/-- A write is exact, and restores the protections, exactly if the segments that the region loop
gives a temporary protection have one protection to begin with. -/
theorem palMemoryWrite_exact_iff (hrestore : ∀ i, (a.segment i).restore = none) :
    (palMemoryWrite page a pid address buffer length s).Exact address (bufferBytes buffer length)
        s ↔
      ∀ maps, FallsBack a pid address buffer length maps →
        UniformSegments page maps (address + length) a.segment s.prot 0 address :=
  ⟨fun h => (palMemoryWrite_prot_iff hrestore).mp h.prot,
    fun h => ⟨palMemoryWrite_mem hrestore, (palMemoryWrite_prot_iff hrestore).mpr h⟩⟩

end Write

/-! ### Two pages of one map -/

def refusedOnce : WriteAnswers where
  fwNeedsDmap := false
  ptwAvailable := false
  ptw := none
  flush := none
  copyin := some eacces
  fallbackAvailable := false
  fallback := none
  maps := .ok [⟨0, 65536⟩]
  segment := fun _ => ⟨none, none, none, false, none, none⟩

def textBehindData (executable : Nat) : Target where
  mem := fun _ => 0
  prot := fun p => if p = executable then 5 else 1

theorem refusedOnce_uniform_iff {prot : Nat → Nat} (hread : readOnly (prot 0) = true) :
    UniformSegments 16384 [⟨0, 65536⟩] (16383 + 2) refusedOnce.segment prot 0 16383 ↔
      prot 1 = prot 0 := by
  have hmap : mapAt [⟨0, 65536⟩] 16383 = some ⟨0, 65536⟩ := by decide
  have hreprotects : (refusedOnce.segment 0).Reprotects (prot (16383 / 16384)) := ⟨rfl, hread, rfl⟩
  rw [uniformSegments_iff (by decide) hmap]
  constructor
  · intro h
    exact h.1 hreprotects 1 (by decide)
  · intro h
    refine ⟨fun _ p hp => ?_, fun _ => ?_⟩
    · have hle : p ≤ 1 := hp.2
      interval_cases p
      · rfl
      · exact h
    · rw [UniformSegments, dif_neg (by decide)]
      trivial

theorem refusedOnce_fallsBack :
    FallsBack refusedOnce 2 16383 (some fun _ => 7) 2 [⟨0, 65536⟩] where
  refused := ⟨eacces, rfl, .inl rfl⟩
  fallback := nofun
  inRange := by decide
  listed := rfl
  alive := by decide
  present := nofun
  nonempty := by decide
  firmware := nofun

theorem palMemoryWrite_exact_uniform :
    (palMemoryWrite 16384 refusedOnce 2 16383 (some fun _ => 7) 2 (textBehindData 9)).Exact 16383
      (bufferBytes (some fun _ => 7) 2) (textBehindData 9) := by
  refine (palMemoryWrite_exact_iff fun _ => rfl).mpr fun maps h => ?_
  cases h.listed
  exact (refusedOnce_uniform_iff rfl).mpr rfl

theorem palMemoryWrite_not_exact :
    ¬ (palMemoryWrite 16384 refusedOnce 2 16383 (some fun _ => 7) 2 (textBehindData 1)).Exact 16383
      (bufferBytes (some fun _ => 7) 2) (textBehindData 1) := by
  intro h
  have huniform := (palMemoryWrite_prot_iff fun _ => rfl).mp h.prot _ refusedOnce_fallsBack
  exact absurd ((refusedOnce_uniform_iff rfl).mp huniform) (by decide)

end MemDbg.Pal
