import MemDbg.Lib.Records
import MemDbg.Daemon.Ops
import Mathlib.Data.List.Nodup

/-!
# The list of processes

Old daemons answer with records of 52 bytes, new ones with records of 56 that hold the parent as
well.  The parser decodes a response both ways and takes the decoding that scores higher.
-/

namespace MemDbg.Frontend.ProcessList

open List Lib Daemon.Dispatch

/-! ## The parser -/

structure ProcessEntry where
  pid : Int
  ppid : Int
  name : List UInt8
deriving DecidableEq

def processWireString (data : List UInt8) : List UInt8 := data.takeWhile (· ≠ 0)

def processNameIsPlausible (name : List UInt8) : Bool :=
  !name.isEmpty && name.all fun ch => !(ch < 0x20 || ch == 0x7f)

def recordSize (current : Bool) : Nat := if current then 56 else 52

def decodeRecord (current : Bool) (cursor : List UInt8) : ProcessEntry :=
  if current then
    ⟨int32 (leNat (cursor.take 4)), int32 (leNat ((cursor.drop 4).take 4)),
      processWireString ((cursor.drop 8).take 48)⟩
  else ⟨int32 (leNat (cursor.take 4)), 0, processWireString ((cursor.drop 4).take 48)⟩

structure Decoding where
  entries : List ProcessEntry
  seenPids : List Int
  score : Int

def pidName (pid : Int) : List UInt8 := s!"pid {pid}".toList.map fun c => UInt8.ofNat c.toNat

def Decoding.add (d : Decoding) (entry : ProcessEntry) : Decoding :=
  if entry.pid ≤ 0 then { d with score := d.score - 6 }
  else
    let score := d.score + (if entry.pid ≤ 0x00ffffff then 3 else -8) +
      if entry.pid ∈ d.seenPids then -3 else 1
    let readable := processNameIsPlausible entry.name
    let name := if !readable && entry.name.isEmpty then pidName entry.pid else entry.name
    { entries := d.entries ++ [{ entry with name := name }]
      seenPids := entry.pid :: d.seenPids
      score := if readable then score + 4 else score - 4 }

structure ProcessListCandidate where
  entries : List ProcessEntry
  score : Int
  complete : Bool

def decodeProcessCandidate (payload : List UInt8) (declaredCount : Nat) (current : Bool) :
    ProcessListCandidate :=
  let stride := recordSize current
  let decodeCount := min declaredCount (payload.length / stride)
  let complete := decodeCount = declaredCount ∧ payload.length = decodeCount * stride
  let d := ((pieces stride decodeCount payload).map (decodeRecord current)).foldl Decoding.add
    ⟨[], [], 0⟩
  { entries := d.entries
    score := (if complete then d.score + 4 else d.score) + d.entries.length
    complete := complete }

def protocolMaxPacket : Nat := 1024 * 1024

def maxEntries : Nat := (protocolMaxPacket - 4) / recordSize false

def parseProcessListResponse (response : List UInt8) : Except String (List ProcessEntry) :=
  if response.length < 4 then .error "short process list response"
  else
    let count := leNat (response.take 4)
    if count > maxEntries then .error "process list response has an invalid item count"
    else
      let payload := response.drop 4
      let currentExpected := count * recordSize true
      let legacyExpected := count * recordSize false
      if payload.length ≠ currentExpected ∧ payload.length ≠ legacyExpected then
        .error (if payload.length < currentExpected ∧ payload.length < legacyExpected then
            "truncated process list response"
          else "process list response has an unsupported record size")
      else
        let current := decodeProcessCandidate payload count true
        let legacy := decodeProcessCandidate payload count false
        let best := if current.score > legacy.score then current else legacy
        if best.entries.isEmpty ∧ count ≠ 0 then
          .error "process list response did not contain valid records"
        else .ok best.entries

/-! ## What is sent -/

def wireInt32 (n : Int) : List UInt8 := leBytes 4 (n % 2 ^ 32).toNat

def encodeRecord (current : Bool) (e : ProcessEntry) : List UInt8 :=
  wireInt32 e.pid ++ (if current then wireInt32 e.ppid else []) ++ e.name ++
    List.replicate (48 - e.name.length) 0

def encodeProcessList (current : Bool) (es : List ProcessEntry) : List UInt8 :=
  leBytes 4 es.length ++ (es.map (encodeRecord current)).flatten

def layoutView (current : Bool) (e : ProcessEntry) : ProcessEntry :=
  if current then e else { e with ppid := 0 }

/-- The lists that are sent: of distinct small pids, and of names that fit. -/
structure Sendable (es : List ProcessEntry) : Prop where
  nodup : (es.map ProcessEntry.pid).Nodup
  pid : ∀ e ∈ es, 1 ≤ e.pid ∧ e.pid ≤ 0x00ffffff
  ppid : ∀ e ∈ es, -2 ^ 31 ≤ e.ppid ∧ e.ppid < 2 ^ 31
  nonempty : ∀ e ∈ es, e.name ≠ []
  printable : ∀ e ∈ es, ∀ ch ∈ e.name, 0x20 ≤ ch ∧ ch ≠ 0x7f
  fits : ∀ e ∈ es, e.name.length ≤ 47

/-! ## Scores -/

theorem Decoding.add_score (d : Decoding) (e : ProcessEntry) :
    (d.add e).score + (d.add e).entries.length ≤ d.score + d.entries.length + 9 := by
  unfold Decoding.add
  split_ifs <;> simp only [length_append, length_singleton] <;> omega

theorem foldl_add_score (es : List ProcessEntry) (d : Decoding) :
    (es.foldl Decoding.add d).score + (es.foldl Decoding.add d).entries.length ≤
      d.score + d.entries.length + 9 * es.length := by
  induction es generalizing d with
  | nil =>
    rw [foldl_nil, length_nil]
    omega
  | cons e es ih =>
    have hstep := d.add_score e
    have hrest := ih (d.add e)
    rw [foldl_cons, length_cons]
    omega

theorem candidate_score_le {payload : List UInt8} {count : Nat} {current : Bool}
    (h : payload.length ≠ count * recordSize current) :
    (decodeProcessCandidate payload count current).score ≤ 9 * count := by
  unfold decodeProcessCandidate
  dsimp only
  have hcomplete : ¬(min count (payload.length / recordSize current) = count ∧
      payload.length = min count (payload.length / recordSize current) * recordSize current) := by
    rintro ⟨hcount, hlen⟩
    rw [hcount] at hlen
    exact h hlen
  rw [if_neg hcomplete]
  have hfold := foldl_add_score ((pieces (recordSize current)
    (min count (payload.length / recordSize current)) payload).map (decodeRecord current))
      ⟨[], [], 0⟩
  rw [length_map, length_pieces] at hfold
  dsimp only [length_nil] at hfold
  omega

theorem plausible_of_sendable {es : List ProcessEntry} (h : Sendable es) {e : ProcessEntry}
    (he : e ∈ es) : processNameIsPlausible e.name = true := by
  unfold processNameIsPlausible
  rw [Bool.and_eq_true, all_eq_true]
  refine ⟨?_, fun ch hch => ?_⟩
  · rw [Bool.not_eq_true', isEmpty_eq_false_iff]
    exact h.nonempty e he
  · obtain ⟨hlow, hdel⟩ := h.printable e he ch hch
    rw [Bool.not_eq_true', Bool.or_eq_false_iff]
    exact ⟨decide_eq_false (UInt8.not_lt.mpr hlow), beq_eq_false_iff_ne.mpr hdel⟩

theorem foldl_add_layoutView {es : List ProcessEntry} {d : Decoding}
    (hnodup : (es.map ProcessEntry.pid).Nodup) (hfresh : ∀ e ∈ es, e.pid ∉ d.seenPids)
    (hpid : ∀ e ∈ es, 1 ≤ e.pid ∧ e.pid ≤ 0x00ffffff)
    (hname : ∀ e ∈ es, processNameIsPlausible e.name = true) :
    (es.foldl Decoding.add d).entries = d.entries ++ es ∧
      (es.foldl Decoding.add d).score = d.score + 8 * es.length := by
  induction es generalizing d with
  | nil =>
    rw [foldl_nil, append_nil, length_nil]
    exact ⟨rfl, by omega⟩
  | cons e es ih =>
    obtain ⟨hlow, hhigh⟩ := hpid e mem_cons_self
    obtain ⟨hnew, hnodup⟩ := nodup_cons.mp hnodup
    have hadd : d.add e = ⟨d.entries ++ [e], e.pid :: d.seenPids, d.score + 3 + 1 + 4⟩ := by
      unfold Decoding.add
      rw [if_neg (by omega), if_pos hhigh, if_neg (hfresh e mem_cons_self),
        hname e mem_cons_self]
      rfl
    have hrest := @ih (d.add e) hnodup (fun e' he' hseen => by
      rw [hadd] at hseen
      obtain heq | hold := mem_cons.mp hseen
      · exact hnew (heq ▸ mem_map_of_mem he')
      · exact hfresh e' (mem_cons_of_mem _ he') hold)
      (fun e' he' => hpid e' (mem_cons_of_mem _ he'))
      fun e' he' => hname e' (mem_cons_of_mem _ he')
    rw [foldl_cons, hrest.1, hrest.2, hadd, append_assoc, length_cons]
    exact ⟨rfl, by dsimp only; omega⟩

/-! ## Records -/

theorem length_wireInt32 (n : Int) : (wireInt32 n).length = 4 := length_leBytes _ _

theorem int32_wireInt32 {n : Int} (hlow : -2 ^ 31 ≤ n) (hhigh : n < 2 ^ 31) :
    int32 (leNat (wireInt32 n)) = n := by
  rw [wireInt32, leNat_leBytes, int32]
  split_ifs <;> omega

theorem processWireString_padded {name : List UInt8} (h : ∀ ch ∈ name, ch ≠ 0) {n : Nat}
    (hn : 0 < n) : processWireString (name ++ List.replicate n 0) = name := by
  obtain ⟨n, rfl⟩ := Nat.exists_eq_succ_of_ne_zero (Nat.pos_iff_ne_zero.mp hn)
  unfold processWireString
  rw [takeWhile_append_of_pos fun ch hch => decide_eq_true (h ch hch), replicate_succ,
    takeWhile_cons_of_neg (by decide), append_nil]

theorem length_encodeRecord (current : Bool) {e : ProcessEntry} (h : e.name.length ≤ 47) :
    (encodeRecord current e).length = recordSize current := by
  unfold encodeRecord recordSize
  rw [length_append, length_append, length_append, length_wireInt32,
    length_replicate]
  cases current
  · rw [if_neg Bool.false_ne_true, if_neg Bool.false_ne_true, length_nil]
    omega
  · rw [if_pos rfl, if_pos rfl, length_wireInt32]
    omega

theorem decodeRecord_encodeRecord {es : List ProcessEntry} (h : Sendable es) {e : ProcessEntry}
    (he : e ∈ es) (current : Bool) :
    decodeRecord current (encodeRecord current e) = layoutView current e := by
  obtain ⟨hpid, hpid'⟩ := h.pid e he
  obtain ⟨hppid, hppid'⟩ := h.ppid e he
  have hfits := h.fits e he
  have hname : processWireString (e.name ++ List.replicate (48 - e.name.length) 0) = e.name := by
    refine processWireString_padded (fun ch hch hzero => ?_) (by omega)
    rw [hzero] at hch
    exact absurd (h.printable e he 0 hch).1 (by decide)
  have hlen : (e.name ++ List.replicate (48 - e.name.length) (0 : UInt8)).length = 48 := by
    rw [length_append, length_replicate]
    omega
  unfold decodeRecord encodeRecord layoutView
  cases current
  · rw [if_neg Bool.false_ne_true, if_neg Bool.false_ne_true, if_neg Bool.false_ne_true,
      append_nil, append_assoc, take_left' (length_wireInt32 _),
      List.drop_left' (length_wireInt32 _), take_of_length_le hlen.le, hname,
      int32_wireInt32 (by omega) (by omega)]
  · rw [if_pos rfl, if_pos rfl, if_pos rfl, append_assoc, append_assoc,
      take_left' (length_wireInt32 _), List.drop_left' (length_wireInt32 _),
      take_left' (length_wireInt32 _), ← append_assoc (wireInt32 e.pid),
      List.drop_left' (by rw [length_append, length_wireInt32, length_wireInt32]),
      take_of_length_le hlen.le, hname, int32_wireInt32 (by omega) (by omega),
      int32_wireInt32 hppid hppid']

theorem candidate_encoded {es : List ProcessEntry} (h : Sendable es) (current : Bool) :
    let c := decodeProcessCandidate (es.map (encodeRecord current)).flatten es.length current
    c.entries = es.map (layoutView current) ∧ c.score = 9 * es.length + 4 := by
  have hwidth : ∀ r ∈ es.map (encodeRecord current), r.length = recordSize current := by
    intro r hr
    obtain ⟨e, he, rfl⟩ := mem_map.mp hr
    exact length_encodeRecord current (h.fits e he)
  have hlen := length_flatten_of_width hwidth
  rw [length_map] at hlen
  have hpieces := pieces_flatten hwidth
  rw [length_map] at hpieces
  have hdecode : (es.map (encodeRecord current)).map (decodeRecord current) =
      es.map (layoutView current) := by
    rw [map_map]
    exact map_congr_left fun e he => decodeRecord_encodeRecord h he current
  have hsize : 0 < recordSize current := by
    cases current <;> decide
  have hview : ∀ e, (layoutView current e).pid = e.pid ∧ (layoutView current e).name = e.name := by
    intro e
    cases current <;> exact ⟨rfl, rfl⟩
  obtain ⟨hentries, hscore⟩ := @foldl_add_layoutView (es.map (layoutView current)) ⟨[], [], 0⟩
    (by
      rw [map_map, show ProcessEntry.pid ∘ layoutView current = ProcessEntry.pid from
        funext fun e => (hview e).1]
      exact h.nodup)
    (fun _ _ => not_mem_nil)
    (fun e he => by
      obtain ⟨e₀, he₀, rfl⟩ := mem_map.mp he
      rw [(hview e₀).1]
      exact h.pid e₀ he₀)
    fun e he => by
      obtain ⟨e₀, he₀, rfl⟩ := mem_map.mp he
      rw [(hview e₀).2]
      exact plausible_of_sendable h he₀
  unfold decodeProcessCandidate
  dsimp only
  rw [hlen, Nat.mul_div_cancel _ hsize, Nat.min_self, if_pos ⟨rfl, rfl⟩, hpieces, hdecode, hentries,
    hscore, nil_append, length_map]
  exact ⟨rfl, by dsimp only; omega⟩

/-! ## The parser on what is sent -/

theorem leNat_take_encode (current : Bool) {es : List ProcessEntry} (h : es.length < 2 ^ 32) :
    leNat ((encodeProcessList current es).take 4) = es.length := by
  rw [encodeProcessList, take_left' (length_leBytes _ _), leNat_leBytes,
    Nat.mod_eq_of_lt (show es.length < 256 ^ 4 from h)]

theorem length_encodeRecords {es : List ProcessEntry} (h : Sendable es) (current : Bool) :
    ((es.map (encodeRecord current)).flatten).length = es.length * recordSize current := by
  have hwidth := @length_flatten_of_width _ (recordSize current) (es.map (encodeRecord current))
  rw [length_map] at hwidth
  refine hwidth fun r hr => ?_
  obtain ⟨e, he, rfl⟩ := mem_map.mp hr
  exact length_encodeRecord current (h.fits e he)

theorem best_encoded {es : List ProcessEntry} (h : Sendable es) (current : Bool) :
    let payload := (es.map (encodeRecord current)).flatten
    let best := if (decodeProcessCandidate payload es.length true).score >
        (decodeProcessCandidate payload es.length false).score
      then decodeProcessCandidate payload es.length true
      else decodeProcessCandidate payload es.length false
    best.entries = es.map (layoutView current) := by
  rcases es.eq_nil_or_concat with rfl | hne
  · cases current <;> rfl
  have hpos : 0 < es.length := by
    obtain ⟨es', e, rfl⟩ := hne
    rw [length_concat]
    omega
  have hlen := length_encodeRecords h current
  obtain ⟨hentries, hscore⟩ := candidate_encoded h current
  cases current with
  | true =>
    have hother := @candidate_score_le (es.map (encodeRecord true)).flatten es.length false (by
      rw [hlen]
      exact fun heq => by cases Nat.eq_of_mul_eq_mul_left hpos heq)
    dsimp only
    rw [if_pos (by omega), hentries]
  | false =>
    have hother := @candidate_score_le (es.map (encodeRecord false)).flatten es.length true (by
      rw [hlen]
      exact fun heq => by cases Nat.eq_of_mul_eq_mul_left hpos heq)
    dsimp only
    rw [if_neg (by omega), hentries]

/-- What is sent in either layout is parsed as it was sent, as long as a packet holds it. -/
theorem parse_encode {es : List ProcessEntry} (h : Sendable es) (hcount : es.length ≤ maxEntries)
    (current : Bool) :
    parseProcessListResponse (encodeProcessList current es) =
      .ok (es.map (layoutView current)) := by
  have hmax : maxEntries < 2 ^ 32 := by decide
  have hdrop : (encodeProcessList current es).drop 4 = (es.map (encodeRecord current)).flatten :=
    List.drop_left' (length_leBytes _ _)
  have hbest := best_encoded h current
  unfold parseProcessListResponse
  rw [if_neg (by rw [encodeProcessList, length_append, length_leBytes]; omega)]
  dsimp only
  rw [leNat_take_encode current (by omega), if_neg (by omega), hdrop,
    if_neg (by rw [length_encodeRecords h]; cases current <;> omega), hbest, if_neg]
  rintro ⟨hempty, hne⟩
  rw [List.isEmpty_iff, List.map_eq_nil_iff] at hempty
  rw [hempty] at hne
  exact hne rfl

theorem parse_encode_long {es : List ProcessEntry} (hcount : maxEntries < es.length)
    (hlt : es.length < 2 ^ 32) (current : Bool) :
    parseProcessListResponse (encodeProcessList current es) =
      .error "process list response has an invalid item count" := by
  unfold parseProcessListResponse
  rw [if_neg (by rw [encodeProcessList, length_append, length_leBytes]; omega)]
  rw [leNat_take_encode current hlt, if_pos hcount]

def twoProcesses : List ProcessEntry := [⟨101, 1, [101, 98]⟩, ⟨202, 101, [101, 98]⟩]

theorem parse_encode_two :
    parseProcessListResponse (encodeProcessList false twoProcesses) =
      .ok (twoProcesses.map (layoutView false)) :=
  parse_encode ⟨by decide, by decide, by decide, by decide, by simp [twoProcesses], by decide⟩
    (by decide) false

def tooManyProcesses : List ProcessEntry :=
  (List.range (maxEntries + 1)).map fun i : Nat => ⟨(i : Int) + 1, 0, [97]⟩

theorem tooManyProcesses_sendable : Sendable tooManyProcesses where
  nodup := by
    rw [tooManyProcesses, map_map]
    refine List.Nodup.map (fun i j heq => ?_) nodup_range
    dsimp only [Function.comp_apply] at heq
    omega
  pid e he := by
    obtain ⟨i, hi, rfl⟩ := mem_map.mp he
    have hlt := mem_range.mp hi
    have hmax : maxEntries + 1 = 20165 := by decide
    dsimp only
    omega
  ppid e he := by
    obtain ⟨i, hi, rfl⟩ := mem_map.mp he
    dsimp only
    decide
  nonempty e he := by
    obtain ⟨i, hi, rfl⟩ := mem_map.mp he
    exact cons_ne_nil _ _
  printable e he := by
    obtain ⟨i, hi, rfl⟩ := mem_map.mp he
    simp
  fits e he := by
    obtain ⟨i, hi, rfl⟩ := mem_map.mp he
    dsimp only
    decide

theorem parse_encode_fails : ¬∀ es : List ProcessEntry, Sendable es → ∀ current : Bool,
    parseProcessListResponse (encodeProcessList current es) =
      .ok (es.map (layoutView current)) := by
  intro h
  have hlen : tooManyProcesses.length = 20165 := by
    rw [tooManyProcesses, length_map, length_range]
    decide
  have hmax : maxEntries = 20164 := by decide
  have herror := parse_encode_long (show maxEntries < tooManyProcesses.length by omega) (by omega)
    true
  cases herror.symm.trans (h _ tooManyProcesses_sendable true)

end MemDbg.Frontend.ProcessList
