import MemDbg.Scan.Match
import Mathlib.Data.List.Basic

/-!
# Refinements

A refinement reads the candidates of the snapshot again, in batches, and keeps those whose bytes
match.  A stop puts the session back that was there before the refinement.
-/

namespace MemDbg.Frontend.Refine

open List Lib Scan

structure ScanSnapshotEntry where
  address : Nat
  bytes : List UInt8
deriving DecidableEq

structure ScanResult where
  count : Nat
  truncated : Bool
  cancelled : Bool
  bytesScanned : Nat
  elapsedNs : Nat
  readCalls : Nat
  regionsScanned : Nat
  readErrors : Nat
  addresses : List Nat
deriving DecidableEq

inductive RefineMode where
  | exactValue
  | changed
  | unchanged
  | increased
  | decreased
deriving DecidableEq

def less (lessReal : List UInt8 → List UInt8 → Bool) (type : ValueType) (a b : List UInt8) : Bool :=
  let size := expectedValueLength type 0
  let enough := size ≤ a.length && size ≤ b.length
  match type with
  | .u8 | .u16 | .u32 | .u64 | .pointer => enough && leNat (a.take size) < leNat (b.take size)
  | .f32 | .f64 => enough && lessReal (a.take size) (b.take size)
  | .bytes | .aob | .other _ => false

def scanRefineMatch (lessReal : List UInt8 → List UInt8 → Bool) (type : ValueType)
    (mode : RefineMode) (oldBytes newBytes targetBytes : List UInt8) : Bool :=
  match mode with
  | .exactValue => newBytes == targetBytes
  | .changed => oldBytes != newBytes
  | .unchanged => oldBytes == newBytes
  | .increased => less lessReal type oldBytes newBytes
  | .decreased => less lessReal type newBytes oldBytes

/-! ## Batch reads -/

structure ResultEntry where
  address : Nat
  length : Nat
  status : Status

def batchRead (read : Nat → List UInt8) (dataCapacity i offset : Nat) :
    List (Nat × Nat) → List ResultEntry × List UInt8
  | [] => ([], [])
  | (address, len) :: items =>
    let next (length : Nat) (status : Status) (data : List UInt8) :=
      let rest := batchRead read dataCapacity (i + 1) (offset + data.length) items
      (⟨address, length, status⟩ :: rest.1, data ++ rest.2)
    if len = 0 then next 0 .ok []
    else if 64 * 1024 * 1024 < len then next 0 .errParam []
    else if dataCapacity < offset + len then next 0 .errOverflow []
    else
      let data := (read i).take len
      if data = [] then next 0 .errIo [] else next data.length .ok data

def takeEntries (valueLen : Nat) (data : List UInt8) (dataOffset : Nat) :
    List ResultEntry → List (Nat × List UInt8) × Nat
  | [] => ([], 0)
  | entry :: entries =>
    let fits := dataOffset ≤ data.length ∧ entry.length ≤ data.length - dataOffset
    if entry.status ≠ .ok ∨ entry.length ≠ valueLen ∨ ¬ fits then
      let rest := takeEntries valueLen data
        (if fits then dataOffset + entry.length else dataOffset) entries
      (rest.1, rest.2 + 1)
    else
      let rest := takeEntries valueLen data (dataOffset + entry.length) entries
      ((entry.address, (data.drop dataOffset).take entry.length) :: rest.1, rest.2)

structure Answers where
  reply : Nat → Option (Nat → List UInt8)
  elapsedNs : Nat
  stale : Bool

def readUnit (hasBatch : Bool) (valueLen : Nat) (d : Answers) (k : Nat) (unit : List Nat) :
    Option (List (Nat × List UInt8) × Nat) :=
  (d.reply k).bind fun read =>
    if hasBatch then
      let r := batchRead read (unit.length * valueLen) 0 0 (unit.map (·, valueLen))
      some (takeEntries valueLen r.2 0 r.1)
    else
      let current := (read 0).take valueLen
      if current.length ≠ valueLen then none else some (unit.map (·, current), 0)

/-! ## The worker -/

def units {α : Type} (n : Nat) : Nat → List α → List (List α)
  | 0, _ => []
  | fuel + 1, l => if l = [] then [] else l.take n :: units n fuel (l.drop n)

inductive Stop where
  | never
  | before (n : Nat)
  | late
deriving DecidableEq

def Stop.seen : Stop → Nat → Bool
  | .before n, look => decide (n ≤ look)
  | _, _ => false

structure Progress where
  next : List ScanSnapshotEntry
  bytesRead : Nat
  attemptedReads : Nat
  readErrors : Nat

def readLoop (seen : Nat → Bool) (read : Nat → List Nat → Option (List (Nat × List UInt8) × Nat))
    (accept : Nat × List UInt8 → Option ScanSnapshotEntry) (k : Nat) :
    List (List Nat) → Progress → Progress
  | [], p => p
  | unit :: rest, p =>
    if seen (2 * k) then p
    else
      let attemptedReads := p.attemptedReads + unit.length
      match read k unit with
      | none =>
        if seen (2 * k + 1) then { p with attemptedReads }
        else readLoop seen read accept (k + 1) rest
          { p with attemptedReads, readErrors := p.readErrors + unit.length }
      | some (values, errors) =>
        readLoop seen read accept (k + 1) rest
          ⟨p.next ++ values.filterMap accept, p.bytesRead + (values.map (·.2.length)).sum,
            attemptedReads, p.readErrors + errors⟩

structure Session where
  result : ScanResult
  snapshot : List ScanSnapshotEntry
  snapshotValueLen : Nat
  snapshotType : ValueType
  isUnknownSession : Bool
deriving DecidableEq

/-- The state of the user interface, with the type and the length of the value that is entered. -/
structure AppState where
  session : Session
  type : ValueType
  currentValueLen : Nat
  hasBatch : Bool
  lessReal : List UInt8 → List UInt8 → Bool
  snapshotValueLen_le : session.snapshotValueLen ≤ 16
  currentValueLen_pos : 0 < currentValueLen
  currentValueLen_le : currentValueLen ≤ 16

inductive Job where
  | refresh
  | refine (mode : RefineMode) (target : List UInt8)

/-- The checks of `capture_scan_snapshot` and `refine_scan` on the session. -/
def AppState.Starts (s : AppState) : Job → Prop
  | .refresh => s.session.result.addresses ≠ []
  | .refine _ _ => s.session.snapshot ≠ [] ∧ s.session.snapshotValueLen ≠ 0

namespace AppState

variable (s : AppState)

def valueLen : Nat :=
  if s.session.snapshotValueLen ≠ 0 then s.session.snapshotValueLen else s.currentValueLen

def valueType : ValueType :=
  if s.session.snapshotValueLen ≠ 0 then s.session.snapshotType else s.type

def addresses : List Nat :=
  if s.session.snapshot = [] then s.session.result.addresses else s.session.snapshot.map (·.address)

def unitSize : Nat := if s.hasBatch then 64 else 1

def refineMatch (mode : RefineMode) (target oldBytes newBytes : List UInt8) : Bool :=
  scanRefineMatch s.lessReal s.valueType mode oldBytes newBytes target

def acceptValue : Job → Nat × List UInt8 → Option ScanSnapshotEntry
  | .refresh, (address, current) => some ⟨address, current⟩
  | .refine mode target, (address, current) =>
    match s.session.snapshot.find? (·.address == address) with
    | none => none
    | some old => if s.refineMatch mode target old.bytes current then some ⟨address, current⟩
      else none

def worker (job : Job) (stop : Stop) (d : Answers) : Option Session :=
  let p := readLoop stop.seen (readUnit s.hasBatch s.valueLen d) (s.acceptValue job) 0
    (units s.unitSize s.addresses.length s.addresses) ⟨[], 0, 0, 0⟩
  match stop with
  | .before _ => some
    { s.session with snapshotValueLen := s.valueLen, snapshotType := s.valueType }
  | _ =>
    if s.addresses ≠ [] ∧ p.bytesRead = 0 then none
    else some {
      result := {
        count := p.next.length % 2 ^ 32
        truncated := false
        cancelled := false
        bytesScanned := p.bytesRead
        elapsedNs := d.elapsedNs
        readCalls := min p.attemptedReads (2 ^ 32 - 1)
        regionsScanned := 0
        readErrors := p.readErrors % 2 ^ 32
        addresses := p.next.map (·.address) }
      snapshot := p.next
      snapshotValueLen := s.valueLen
      snapshotType := s.valueType
      isUnknownSession := s.session.isUnknownSession }

def run (job : Job) (stop : Stop) (d : Answers) : Session :=
  if d.stale then s.session else (s.worker job stop d).getD s.session

/-! ## What a refinement is to do -/

def kept (mode : RefineMode) (target : List UInt8) (d : Answers) (k : Nat)
    (unit : List ScanSnapshotEntry) : List ScanSnapshotEntry :=
  match d.reply k with
  | none => []
  | some read => unit.zipIdx.filterMap fun (entry, i) =>
    let current := (read i).take s.valueLen
    if current.length = s.valueLen ∧ s.refineMatch mode target entry.bytes current then
      some ⟨entry.address, current⟩
    else none

/-- A refinement that finishes keeps the entries of all units that are to be kept; a refinement or a
refresh that is stopped leaves the session alone. -/
def Correct (job : Job) (stop : Stop) (d : Answers) : Prop :=
  match stop with
  | .never => ∀ mode target, job = .refine mode target → ∀ after, s.worker job stop d = some after →
    after.snapshot = (units s.unitSize s.session.snapshot.length s.session.snapshot).zipIdx.flatMap
      (fun (unit, k) => s.kept mode target d k unit) ∧
    after.result.addresses = after.snapshot.map (·.address)
  | _ => s.run job stop d = s.session

/-- A stop comes before the last look at the flag and finds the length of the values, and no entry
can be told from the first one of its address by the match. -/
def Tame (job : Job) : Stop → Prop
  | .never => ∀ mode target, job = .refine mode target → ∀ entry ∈ s.session.snapshot,
    ∀ first, s.session.snapshot.find? (·.address == entry.address) = some first →
      ∀ current, current.length = s.valueLen →
        s.refineMatch mode target first.bytes current = s.refineMatch mode target
          entry.bytes current
  | .before _ => s.session.snapshotValueLen ≠ 0
  | .late => False

end AppState

/-! ## The proof -/

def valuesOf (valueLen : Nat) (read : Nat → List UInt8) (unit : List (Nat × Nat)) :
    List (Nat × List UInt8) :=
  unit.filterMap fun (address, i) =>
    let current := (read i).take valueLen
    if current.length = valueLen then some (address, current) else none

theorem takeEntries_batchRead {len : Nat} (hpos : 0 < len) (hle : len ≤ 16)
    (read : Nat → List UInt8) (cap i : Nat) (unit : List Nat) (pre suf : List UInt8)
    (hcap : pre.length + unit.length * len ≤ cap) :
    let r := batchRead read cap i pre.length (unit.map (·, len))
    (takeEntries len (pre ++ (r.2 ++ suf)) pre.length r.1).1 =
      valuesOf len read (unit.zipIdx i) := by
  induction unit generalizing i pre with
  | nil => rfl
  | cons address unit ih =>
    have hlen : ((read i).take len).length ≤ len := length_take_le _ _
    rw [length_cons, Nat.add_mul, Nat.one_mul] at hcap
    specialize ih (i + 1) (pre ++ (read i).take len)
      (by rw [length_append]; omega)
    rw [length_append] at ih
    rw [map_cons, batchRead, zipIdx_cons, valuesOf, filterMap_cons, ← valuesOf]
    dsimp only at ih ⊢
    rw [if_neg (by omega), if_neg (by omega), if_neg (by omega)]
    generalize hdata : (read i).take len = data at *
    by_cases hnil : data = []
    · subst hnil
      have hshort : ¬ 0 = len := by omega
      simpa [takeEntries, hshort, hpos.ne'] using ih
    · rw [if_neg hnil]
      generalize batchRead read cap (i + 1) (pre.length + data.length) (unit.map (·, len)) = r at *
      rw [append_assoc, ← append_assoc data] at ih
      by_cases hfull : data.length = len
      · rw [takeEntries, if_neg (by simp [hfull]), if_pos hfull, ← ih]
        dsimp only
        rw [drop_left, append_assoc, take_left]
      · rw [takeEntries, if_pos (by simp [hfull]), if_pos (by simp), if_neg hfull, ← ih]

def unitValues (valueLen : Nat) (d : Answers) (k : Nat) (unit : List Nat) :
    List (Nat × List UInt8) :=
  ((d.reply k).map fun read => valuesOf valueLen read unit.zipIdx).getD []

theorem readUnit_eq {hasBatch : Bool} {valueLen : Nat} (hpos : 0 < valueLen) (hle : valueLen ≤ 16)
    (d : Answers) (k : Nat) {unit : List Nat} (hunit : hasBatch = false → unit.length = 1) :
    (readUnit hasBatch valueLen d k unit).elim [] (·.1) = unitValues valueLen d k unit := by
  rw [readUnit, unitValues]
  cases d.reply k with
  | none => rfl
  | some read =>
    cases hasBatch with
    | true =>
      have htake := takeEntries_batchRead hpos hle read (unit.length * valueLen) 0 unit [] []
        (by rw [length_nil, Nat.zero_add])
      dsimp only at htake
      rw [nil_append, append_nil] at htake
      exact htake
    | false =>
      obtain ⟨address, rfl⟩ := length_eq_one_iff.mp (hunit rfl)
      rw [Option.map_some, Option.getD_some, valuesOf, zipIdx_singleton, filterMap_cons]
      dsimp only [Option.bind_some]
      generalize (read 0).take valueLen = current
      by_cases hfull : current.length = valueLen <;> simp [hfull]

theorem readLoop_eq {seen : Nat → Bool} (hseen : ∀ look, seen look = false)
    (read : Nat → List Nat → Option (List (Nat × List UInt8) × Nat))
    (accept : Nat × List UInt8 → Option ScanSnapshotEntry) (k : Nat) (us : List (List Nat))
    (p : Progress) :
    let values := (us.zipIdx k).flatMap fun (unit, k) => (read k unit).elim [] (·.1)
    (readLoop seen read accept k us p).next = p.next ++ values.filterMap accept ∧
      (readLoop seen read accept k us p).bytesRead =
        p.bytesRead + (values.map (·.2.length)).sum := by
  induction us generalizing k p with
  | nil => exact ⟨(append_nil _).symm, rfl⟩
  | cons unit us ih =>
    rw [readLoop, hseen, hseen, if_neg Bool.false_ne_true]
    dsimp only
    rw [zipIdx_cons, flatMap_cons]
    cases hread : read k unit with
    | none =>
      obtain ⟨hnext, hbytes⟩ := ih (k + 1)
        { p with
          attemptedReads := p.attemptedReads + unit.length
          readErrors := p.readErrors + unit.length }
      exact ⟨hnext, hbytes⟩
    | some r =>
      obtain ⟨values, errors⟩ := r
      obtain ⟨hnext, hbytes⟩ := ih (k + 1)
        ⟨p.next ++ values.filterMap accept, p.bytesRead + (values.map (·.2.length)).sum,
          p.attemptedReads + unit.length, p.readErrors + errors⟩
      refine ⟨hnext.trans ?_, hbytes.trans ?_⟩
      · dsimp only [Option.elim]
        rw [filterMap_append, append_assoc]
      · dsimp only [Option.elim]
        rw [map_append, sum_append, Nat.add_assoc]

theorem units_map {α β : Type} (f : α → β) (n fuel : Nat) (l : List α) :
    units n fuel (l.map f) = (units n fuel l).map (List.map f) := by
  induction fuel generalizing l with
  | zero => rfl
  | succ fuel ih =>
    rw [units, units, ← map_take, ← map_drop, ih]
    by_cases hl : l = []
    · rw [if_pos hl, if_pos (by rw [hl]; rfl)]
      rfl
    · rw [if_neg hl, if_neg (mt map_eq_nil_iff.mp hl)]
      rfl

theorem units_flatten {α : Type} {n : Nat} (hn : 0 < n) {fuel : Nat} {l : List α}
    (h : l.length ≤ fuel) : (units n fuel l).flatten = l := by
  induction fuel generalizing l with
  | zero => exact (length_eq_zero_iff.mp (Nat.le_zero.mp h)).symm
  | succ fuel ih =>
    rw [units]
    split_ifs with hl
    · exact hl.symm
    · rw [flatten_cons, ih (by rw [length_drop]; omega), take_append_drop]

theorem flatMap_zipIdx {α β : Type} (us : List (List α)) {F : Nat → List α → List β}
    {f : List α → List β} (hF : ∀ k unit, F k unit = f (unit.zipIdx.map Prod.fst)) :
    (us.zipIdx.flatMap fun (unit, k) => F k unit) = us.flatMap f := by
  rw [← zipIdx_map_fst 0 us, flatMap_map, zipIdx_map_fst]
  exact flatMap_congr fun (unit, k) _ => (hF k unit).trans (by rw [zipIdx_map_fst])

theorem length_of_mem_units {α : Type} {fuel : Nat} {l unit : List α} (h : unit ∈ units 1 fuel l) :
    unit.length = 1 := by
  induction fuel generalizing l with
  | zero => cases h
  | succ fuel ih =>
    rw [units] at h
    split_ifs at h with hl
    · cases h
    · rcases mem_cons.mp h with rfl | h
      · have hlen := length_pos_iff.mpr hl
        rw [length_take]
        omega
      · exact ih h

namespace AppState

variable {s : AppState} {job : Job} {stop : Stop}

theorem valueLen_pos : 0 < s.valueLen := by
  rw [valueLen]
  split_ifs with h
  · exact Nat.pos_of_ne_zero h
  · exact s.currentValueLen_pos

theorem valueLen_le : s.valueLen ≤ 16 := by
  rw [valueLen]
  split_ifs
  · exact s.snapshotValueLen_le
  · exact s.currentValueLen_le

theorem unitSize_pos : 0 < s.unitSize := by
  rw [unitSize]
  split_ifs <;> decide

def read (s : AppState) (d : Answers) : List (Nat × List UInt8) :=
  (units s.unitSize s.addresses.length s.addresses).zipIdx.flatMap fun (unit, k) =>
    unitValues s.valueLen d k unit

theorem worker_eq (hstop : ∀ n, stop ≠ .before n) (d : Answers) :
    ∃ after : Session, s.worker job stop d =
        (if s.addresses ≠ [] ∧ ((s.read d).map (·.2.length)).sum = 0 then none else some after) ∧
      after.snapshot = (s.read d).filterMap (s.acceptValue job) ∧
      after.result.addresses = after.snapshot.map (·.address) ∧
      after.result.elapsedNs = d.elapsedNs := by
  have hseen : ∀ look, stop.seen look = false := by
    intro look
    cases stop with
    | before n => exact absurd rfl (hstop n)
    | _ => rfl
  obtain ⟨hnext, hbytes⟩ := readLoop_eq hseen (readUnit s.hasBatch s.valueLen d)
    (s.acceptValue job) 0 (units s.unitSize s.addresses.length s.addresses) ⟨[], 0, 0, 0⟩
  have hread : (units s.unitSize s.addresses.length s.addresses).zipIdx.flatMap
      (fun (unit, k) => (readUnit s.hasBatch s.valueLen d k unit).elim [] (·.1)) = s.read d := by
    refine flatMap_congr fun (unit, k) hmem => readUnit_eq valueLen_pos valueLen_le d k ?_
    intro hbatch
    rw [unitSize, hbatch] at hmem
    exact length_of_mem_units (fst_mem_of_mem_zipIdx hmem)
  rw [hread, nil_append] at hnext
  rw [hread, Nat.zero_add] at hbytes
  rw [← hbytes]
  cases stop with
  | before n => exact absurd rfl (hstop n)
  | _ => exact ⟨_, rfl, hnext, rfl, rfl⟩

def answering (current : List UInt8) (elapsedNs : Nat) : Answers :=
  ⟨fun _ => some fun _ => current, elapsedNs, false⟩

theorem read_answering {current : List UInt8} (hlen : current.length = s.valueLen)
    (elapsedNs : Nat) : s.read (answering current elapsedNs) = s.addresses.map (·, current) := by
  have hvalues (k : Nat) (unit : List Nat) :
      unitValues s.valueLen (answering current elapsedNs) k unit =
        (unit.zipIdx.map Prod.fst).map (·, current) := by
    dsimp only [unitValues, answering, Option.map_some, Option.getD_some]
    rw [valuesOf, ← hlen, take_length, map_map, ← filterMap_eq_map]
    exact filterMap_congr fun _ _ => if_pos rfl
  rw [read, flatMap_zipIdx _ hvalues, flatMap_def, ← map_flatten,
    units_flatten unitSize_pos le_rfl]

theorem worker_answering (hstop : ∀ n, stop ≠ .before n) (haddresses : s.addresses ≠ [])
    {current : List UInt8} (hlen : current.length = s.valueLen) (elapsedNs : Nat) :
    ∃ after, s.worker job stop (answering current elapsedNs) = some after ∧
      after.snapshot = s.addresses.filterMap (fun address => s.acceptValue job (address, current)) ∧
      after.result.elapsedNs = elapsedNs := by
  obtain ⟨after, hworker, hsnapshot, -, helapsed⟩ :=
    @worker_eq s job stop hstop (answering current elapsedNs)
  rw [read_answering hlen, filterMap_map] at hsnapshot
  refine ⟨after, hworker.trans (if_neg ?_), hsnapshot, helapsed⟩
  rintro ⟨-, hsum⟩
  obtain ⟨address, rest, hcons⟩ := exists_cons_of_ne_nil haddresses
  rw [read_answering hlen, hcons, map_cons, map_cons, sum_cons, hlen] at hsum
  have hpos := @valueLen_pos s
  omega

variable {mode : RefineMode} {target : List UInt8}

theorem filterMap_read (hsnapshot : s.session.snapshot ≠ [])
    (htame : s.Tame (.refine mode target) .never) (d : Answers) :
    (s.read d).filterMap (s.acceptValue (.refine mode target)) =
      (units s.unitSize s.session.snapshot.length s.session.snapshot).zipIdx.flatMap
        fun (unit, k) => s.kept mode target d k unit := by
  have haddresses : s.addresses = s.session.snapshot.map (·.address) := if_neg hsnapshot
  rw [read, haddresses, length_map, units_map, zipIdx_map, flatMap_map,
    filterMap_flatMap]
  refine flatMap_congr fun (unit, k) hunit => ?_
  dsimp only [Prod.map, id, unitValues, kept]
  cases d.reply k with
  | none => rfl
  | some read =>
    dsimp only [Option.map_some, Option.getD_some]
    rw [valuesOf, zipIdx_map, filterMap_map, filterMap_filterMap]
    refine filterMap_congr fun (entry, i) hentry => ?_
    have hmem : entry ∈ s.session.snapshot := by
      rw [← units_flatten (@unitSize_pos s) (le_refl s.session.snapshot.length)]
      exact mem_flatten_of_mem (fst_mem_of_mem_zipIdx hunit)
        (fst_mem_of_mem_zipIdx hentry)
    have hfound : (s.session.snapshot.find? (·.address == entry.address)).isSome = true :=
      find?_isSome.mpr ⟨entry, hmem, beq_self_eq_true _⟩
    obtain ⟨first, hfirst⟩ := Option.isSome_iff_exists.mp hfound
    dsimp only [Function.comp_apply, Prod.map, id]
    by_cases hfull : ((read i).take s.valueLen).length = s.valueLen
    · rw [if_pos hfull, Option.bind_some, acceptValue, hfirst]
      dsimp only
      rw [htame mode target rfl entry hmem first hfirst _ hfull]
      simp only [hfull, true_and]
    · rw [if_neg hfull, Option.bind_none, if_neg fun h => hfull h.1]

theorem kept_answering {current : List UInt8} (hlen : current.length = s.valueLen)
    (elapsedNs : Nat) :
    (units s.unitSize s.session.snapshot.length s.session.snapshot).zipIdx.flatMap
        (fun (unit, k) => s.kept mode target (answering current elapsedNs) k unit) =
      s.session.snapshot.filterMap fun entry =>
        if s.refineMatch mode target entry.bytes current then some ⟨entry.address, current⟩
        else none := by
  have hkept (k : Nat) (unit : List ScanSnapshotEntry) :
      s.kept mode target (answering current elapsedNs) k unit =
        (unit.zipIdx.map Prod.fst).filterMap fun entry =>
          if s.refineMatch mode target entry.bytes current then some ⟨entry.address, current⟩
          else none := by
    dsimp only [kept, answering]
    rw [← hlen, take_length, filterMap_map]
    exact filterMap_congr fun _ _ => by simp
  rw [flatMap_zipIdx _ hkept, flatMap_def, ← filterMap_flatten,
    units_flatten unitSize_pos le_rfl]

theorem refineMatch_eq (hstarts : s.Starts (.refine mode target))
    (h : ∀ d, s.Correct (.refine mode target) .never d) {entry first : ScanSnapshotEntry}
    (hentry : entry ∈ s.session.snapshot)
    (hfirst : s.session.snapshot.find? (·.address == entry.address) = some first)
    {current : List UInt8} (hlen : current.length = s.valueLen) :
    s.refineMatch mode target first.bytes current =
      s.refineMatch mode target entry.bytes current := by
  have haddresses : s.addresses = s.session.snapshot.map (·.address) := if_neg hstarts.1
  obtain ⟨after, hworker, hsnapshot, -⟩ := @worker_answering s (.refine mode target) .never
    nofun (by rw [haddresses]; exact mt map_eq_nil_iff.mp hstarts.1) current hlen 0
  have heq := hsnapshot.symm.trans (h (answering current 0) mode target rfl after hworker).1
  rw [kept_answering hlen, haddresses, filterMap_map] at heq
  have hcount := congrArg (List.countP (·.address == entry.address)) heq
  rw [countP_filterMap, countP_filterMap] at hcount
  have hcode : List.countP (fun e => e.address == entry.address &&
      s.refineMatch mode target first.bytes current) s.session.snapshot =
        List.countP (fun e => e.address == entry.address &&
          s.refineMatch mode target e.bytes current) s.session.snapshot := by
    refine Eq.trans (Eq.trans (countP_congr fun e _ => ?_) hcount)
      (countP_congr fun e _ => ?_)
    · by_cases hsame : e.address = entry.address
      · simp only [Function.comp_apply, acceptValue, hsame, hfirst]
        split_ifs with hmatch <;> simp [hmatch]
      · simp only [Function.comp_apply, acceptValue, beq_false_of_ne hsame, Bool.false_and]
        split <;> try split_ifs
        all_goals simp [hsame]
    · split_ifs with hmatch <;> simp [hmatch]
  cases hmatch : s.refineMatch mode target first.bytes current with
  | false =>
    rw [hmatch] at hcode
    have hnone := countP_eq_zero.mp (hcode.symm.trans (by simp)) entry hentry
    exact (by simpa using hnone : _ = false).symm
  | true =>
    rw [hmatch] at hcode
    -- the entries of this address that match are all entries of this address
    have hsub := monotone_filter_right s.session.snapshot
      (p := fun e => e.address == entry.address && s.refineMatch mode target e.bytes current)
      (q := fun e => e.address == entry.address && true) fun e he => by simp_all
    have hall := hsub.eq_of_length (by
      rw [← countP_eq_length_filter, ← countP_eq_length_filter, hcode])
    have hin : entry ∈ s.session.snapshot.filter (fun e => e.address == entry.address && true) :=
      mem_filter.mpr ⟨hentry, by simp⟩
    rw [← hall, mem_filter, Bool.and_eq_true] at hin
    exact hin.2.2.symm

end AppState

/-- A refinement or a refresh is correct whatever the daemon answers exactly if it is tame. -/
theorem correct_iff (s : AppState) (job : Job) (stop : Stop) (hstarts : s.Starts job) :
    (∀ d, s.Correct job stop d) ↔ s.Tame job stop := by
  have haddresses : s.addresses ≠ [] := by
    rw [AppState.addresses]
    split_ifs with hsnapshot
    · cases job with
      | refresh => exact hstarts
      | refine mode target => exact absurd hsnapshot hstarts.1
    · exact mt map_eq_nil_iff.mp hsnapshot
  cases stop with
  | never =>
    constructor
    · rintro h mode target rfl entry hentry first hfirst current hlen
      exact AppState.refineMatch_eq hstarts h hentry hfirst hlen
    · rintro htame d mode target rfl after hafter
      obtain ⟨after', hworker, hsnapshot, haddr, -⟩ :=
        @AppState.worker_eq s (.refine mode target) .never nofun d
      rw [hworker] at hafter
      split_ifs at hafter
      obtain rfl := Option.some.inj hafter
      exact ⟨hsnapshot.trans (AppState.filterMap_read hstarts.1 htame d), haddr⟩
  | before n =>
    constructor
    · intro h hzero
      have hrun := congrArg Session.snapshotValueLen (h ⟨fun _ => none, 0, false⟩)
      have hlen : s.valueLen = s.session.snapshotValueLen := hrun
      exact AppState.valueLen_pos.ne' (hlen.trans hzero)
    · intro h d
      have hlen : s.valueLen = s.session.snapshotValueLen := if_pos h
      have htype : s.valueType = s.session.snapshotType := if_pos h
      change s.run job (.before n) d = s.session
      rw [AppState.run, AppState.worker, hlen, htype]
      exact ite_self _
  | late =>
    refine iff_of_false (fun h => ?_) id
    obtain ⟨after, hworker, -, helapsed⟩ := @AppState.worker_answering s job .late nofun haddresses
      (List.replicate s.valueLen 0) length_replicate (s.session.result.elapsedNs + 1)
    have hrun : (s.worker job .late _).getD s.session = s.session := h
      (AppState.answering (List.replicate s.valueLen 0) (s.session.result.elapsedNs + 1))
    rw [hworker] at hrun
    rw [← show after = s.session from hrun] at helapsed
    omega

def baseline : AppState where
  session := ⟨⟨1, false, false, 64, 0, 1, 1, 0, [0x1000]⟩, [⟨0x1000, [1, 2]⟩], 2, .u16, false⟩
  type := .u16
  currentValueLen := 2
  hasBatch := true
  lessReal := fun _ _ => false
  snapshotValueLen_le := by decide
  currentValueLen_pos := by decide
  currentValueLen_le := by decide

theorem correct_iff_baseline :
    baseline.Correct (.refine .changed []) (.before 1) ⟨fun _ => none, 0, false⟩ :=
  (correct_iff baseline (.refine .changed []) (.before 1) ⟨nofun, by decide⟩).mpr
    (show (2 : Nat) ≠ 0 by decide) _

theorem correct_stoppedLate : ¬ ∀ (s : AppState) (job : Job) (stop : Stop), s.Starts job →
    ∀ d, s.Correct job stop d := by
  intro h
  have hsession :
    baseline.run (.refine .changed []) .late ⟨fun _ => some fun _ => [3, 4], 5, false⟩ =
      baseline.session := h baseline (.refine .changed []) .late ⟨nofun, by decide⟩ _
  exact absurd (congrArg Session.snapshot hsession) (by decide)

end MemDbg.Frontend.Refine
