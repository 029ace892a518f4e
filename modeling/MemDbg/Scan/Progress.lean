import MemDbg.Lib.Transition
import MemDbg.Scan.Balance
import MemDbg.Scan.Parallel

/-!
# The progress of a tracked scan

`memdbg_scan_process_exact_tracked` shares a progress record with its workers.
`scan_maps_parallel` fills in the totals, `parallel_worker_thread` and `scan_range`
add to the counters.  Each atomic update is a step here, and the workers step in any
order.
-/

namespace MemDbg.Scan

open List Lib

structure Counters where
  bytesDone : Nat
  bytesTotal : Nat
  mapsDone : Nat
  mapsTotal : Nat
  workersActive : Nat
  workersTotal : Nat
deriving DecidableEq

inductive CounterUpdate
  | none
  | workerStarted
  | workerStopped
  | bytes (n : Nat)
  | mapDone
deriving DecidableEq

def Counters.update (c : Counters) : CounterUpdate → Counters
  | .none => c
  | .workerStarted => { c with workersActive := wrap32 (c.workersActive + 1) }
  | .workerStopped => { c with workersActive := wrap32 (c.workersActive + (2 ^ 32 - 1)) }
  | .bytes n => { c with bytesDone := wrap64 (c.bytesDone + n) }
  | .mapDone => { c with mapsDone := wrap32 (c.mapsDone + 1) }

/-! ## A worker -/

inductive WorkerPoint
  | entry (maps : List MapEntry)
  | buffer (maps : List MapEntry)
  | mapHead (maps : List MapEntry)
  | segmentHead (maps : List MapEntry) (cursor remaining : Nat)
  | chunkHead (maps : List MapEntry) (cursor remaining segmentLen scanned : Nat)
  | segmentEnd (maps : List MapEntry) (cursor remaining segmentLen : Nat)
  | mapEnd (maps : List MapEntry)
  | exit (status : Status)
  | stopped (status : Status)
deriving DecidableEq

open WorkerPoint

inductive WorkerEvent
  | go
  | cancelled
  | outOfMemory
  | readFailed
  | read (n : Nat) (window : Status)
deriving DecidableEq

def workerStep (chunk : Nat) (f : MapFilter) :
    WorkerPoint → WorkerEvent → Option (WorkerPoint × CounterUpdate)
  | .entry maps, .go => some (.buffer maps, .workerStarted)
  | .buffer maps, .go => some (.mapHead maps, .none)
  | .buffer _, .outOfMemory => some (.stopped .errNomem, .workerStopped)
  | .mapHead [], .go => some (.exit .ok, .none)
  | .mapHead (_ :: _), .cancelled => some (.exit .ok, .none)
  | .mapHead (map :: maps), .go =>
    match f.clip map with
    | none => some (.mapHead maps, .none)
    | some (start, len) => some (.segmentHead maps start len, .none)
  | .segmentHead maps cursor remaining, .go =>
    let segmentLen := if remaining > scanMaxLength then scanMaxLength else remaining
    if remaining = 0 then some (.mapEnd maps, .none)
    else if segmentLen < f.minMapLen then some (.mapEnd maps, .none)
    else if scanBoundsValid cursor segmentLen f.minMapLen = false then
      some (.exit .errParam, .none)
    else some (.chunkHead maps cursor remaining segmentLen 0, .none)
  | .chunkHead maps cursor remaining segmentLen scanned, event =>
    if scanned < segmentLen then
      let toRead := scanReadSize (segmentLen - scanned) chunk
      match event with
      | .cancelled => some (.segmentEnd maps cursor remaining segmentLen, .none)
      | .readFailed =>
        some (.chunkHead maps cursor remaining segmentLen (scanned + scanFaultSkipSize toRead),
          .none)
      | .read n window =>
        if n = 0 then some (.segmentEnd maps cursor remaining segmentLen, .none)
        else if n > toRead then none
        else if window = .ok then
          some (.chunkHead maps cursor remaining segmentLen (scanned + n), .bytes n)
        else some (.exit window, .bytes n)
      | _ => none
    else if event = .go then some (.segmentEnd maps cursor remaining segmentLen, .none)
    else none
  | .segmentEnd _ _ _ _, .cancelled => some (.exit .ok, .none)
  | .segmentEnd maps cursor remaining segmentLen, .go =>
    some (.segmentHead maps (cursor + segmentLen) (remaining - segmentLen), .none)
  | .mapEnd _, .cancelled => some (.exit .ok, .none)
  | .mapEnd maps, .go => some (.mapHead maps, .mapDone)
  | .exit status, .go => some (.stopped status, .workerStopped)
  | _, _ => none

/-! ## The scan -/

inductive Stage
  | bytes
  | maps
  | workers
  | running
deriving DecidableEq

structure TrackedScan where
  stage : Stage
  counters : Counters
  workers : List WorkerPoint
deriving DecidableEq

def progressTotals (f : MapFilter) (maps : List MapEntry) : Nat × Nat :=
  maps.foldl (fun totals map =>
    match f.clip map with
    | none => totals
    | some (_, mapBytes) =>
      (if 2 ^ 64 - 1 - totals.1 < mapBytes then 2 ^ 64 - 1 else totals.1 + mapBytes,
        if totals.2 ≠ 2 ^ 32 - 1 then totals.2 + 1 else totals.2)) (0, 0)

inductive ScanStep
  | publish
  | worker (t : Nat) (event : WorkerEvent)
deriving DecidableEq

def trackedStep (chunk : Nat) (f : MapFilter) (maps : List MapEntry) (s : TrackedScan) :
    ScanStep → Option TrackedScan
  | .publish =>
    match s.stage with
    | .bytes => some { s with
        stage := .maps
        counters := { s.counters with bytesTotal := (progressTotals f maps).1 } }
    | .maps => some { s with
        stage := .workers
        counters := { s.counters with mapsTotal := (progressTotals f maps).2 } }
    | .workers => some { s with
        stage := .running
        counters := { s.counters with workersTotal := wrap32 s.workers.length } }
    | .running => none
  | .worker t event =>
    if s.stage = .running then
      match s.workers[t]? with
      | none => none
      | some point =>
        (workerStep chunk f point event).map fun r =>
          { s with counters := s.counters.update r.2, workers := s.workers.set t r.1 }
    else none

def TrackedScan.start (maps : List MapEntry) (slots : List (Nat × Nat)) : TrackedScan where
  stage := .bytes
  counters := ⟨0, 0, 0, 0, 0, 0⟩
  workers := slots.map fun s => .entry (maps.extract s.1 s.2)

/-- No counter is beyond its total. -/
structure Counters.InBounds (c : Counters) : Prop where
  bytes : c.bytesDone ≤ c.bytesTotal
  maps : c.mapsDone ≤ c.mapsTotal
  workers : c.workersActive ≤ c.workersTotal

def WorkerEvent.smooth : WorkerEvent → Bool
  | .go => true
  | .read n window => n ≠ 0 ∧ window = .ok
  | _ => false

def ScanStep.smooth : ScanStep → Bool
  | .publish => true
  | .worker _ event => event.smooth

/-- Every worker has returned. -/
def TrackedScan.Finished (s : TrackedScan) : Prop :=
  s.stage = .running ∧ ∀ point ∈ s.workers, ∃ status, point = .stopped status

/-! ## What a worker has left to count -/

def clippedLens (f : MapFilter) (maps : List MapEntry) : List Nat :=
  maps.filterMap fun map => (f.clip map).map Prod.snd

def scannedPart (f : MapFilter) (len : Nat) : Nat :=
  len - if len % scanMaxLength < f.minMapLen then len % scanMaxLength else 0

def scannedBytes (f : MapFilter) (maps : List MapEntry) : Nat :=
  ((clippedLens f maps).map (scannedPart f)).sum

def WorkerPoint.bytesLeft (f : MapFilter) : WorkerPoint → Nat
  | .entry maps | .buffer maps | .mapHead maps | .mapEnd maps => scannedBytes f maps
  | .segmentHead maps _ remaining => scannedPart f remaining + scannedBytes f maps
  | .chunkHead maps _ remaining segmentLen scanned =>
    segmentLen - scanned + scannedPart f (remaining - segmentLen) + scannedBytes f maps
  | .segmentEnd maps _ remaining segmentLen =>
    scannedPart f (remaining - segmentLen) + scannedBytes f maps
  | .exit _ | .stopped _ => 0

def WorkerPoint.mapsLeft (f : MapFilter) : WorkerPoint → Nat
  | .entry maps | .buffer maps | .mapHead maps => (clippedLens f maps).length
  | .segmentHead maps _ _ | .chunkHead maps _ _ _ _ | .segmentEnd maps _ _ _ | .mapEnd maps =>
    (clippedLens f maps).length + 1
  | .exit _ | .stopped _ => 0

def WorkerPoint.active : WorkerPoint → Nat
  | .entry _ | .stopped _ => 0
  | _ => 1

def CounterUpdate.bytesAdded : CounterUpdate → Nat
  | .bytes n => n
  | _ => 0

def CounterUpdate.mapsAdded : CounterUpdate → Nat
  | .mapDone => 1
  | _ => 0

def CounterUpdate.started : CounterUpdate → Nat
  | .workerStarted => 1
  | _ => 0

def CounterUpdate.stopped : CounterUpdate → Nat
  | .workerStopped => 1
  | _ => 0

def WorkerPoint.InRange : WorkerPoint → Prop
  | .entry maps | .buffer maps | .mapHead maps | .mapEnd maps =>
    ∀ map ∈ maps, map.endAddr < 2 ^ 64
  | .segmentHead maps cursor remaining =>
    cursor + remaining < 2 ^ 64 ∧ ∀ map ∈ maps, map.endAddr < 2 ^ 64
  | .chunkHead maps cursor remaining segmentLen _ | .segmentEnd maps cursor remaining segmentLen =>
    cursor + remaining < 2 ^ 64 ∧ 0 < segmentLen ∧ segmentLen ≤ remaining ∧
      ∀ map ∈ maps, map.endAddr < 2 ^ 64
  | .exit _ | .stopped _ => True

section Worker

variable {chunk : Nat} {f : MapFilter} {point point' : WorkerPoint} {event : WorkerEvent}
  {change : CounterUpdate}

theorem scannedPart_segment (hmin : f.minMapLen ≤ scanMaxLength) {remaining segmentLen : Nat}
    (hsegment : segmentLen = if remaining > scanMaxLength then scanMaxLength else remaining)
    (hlong : f.minMapLen ≤ segmentLen) :
    scannedPart f remaining = segmentLen + scannedPart f (remaining - segmentLen) := by
  simp only [scannedPart]
  generalize scanMaxLength = maxLength at *
  rcases Nat.lt_or_ge maxLength remaining with hlt | hle
  · rw [if_pos hlt] at hsegment
    have hsub := Nat.mod_le (remaining - maxLength) maxLength
    rw [hsegment, Nat.mod_eq_sub_mod (Nat.le_of_lt hlt)]
    split_ifs <;> omega
  · rw [if_neg (Nat.not_lt.mpr hle)] at hsegment
    subst hsegment
    rw [Nat.sub_self, Nat.zero_mod, Nat.zero_sub, Nat.add_zero]
    rcases Nat.lt_or_eq_of_le hle with hlt | rfl
    · rw [Nat.mod_eq_of_lt hlt, if_neg (Nat.not_lt.mpr hlong), Nat.sub_zero]
    · rw [Nat.mod_self, ite_self, Nat.sub_zero]

theorem scannedPart_short {remaining : Nat} (hmin : f.minMapLen ≤ scanMaxLength)
    (hshort : (if remaining > scanMaxLength then scanMaxLength else remaining) < f.minMapLen) :
    scannedPart f remaining = 0 := by
  simp only [scannedPart]
  generalize scanMaxLength = maxLength at *
  rcases Nat.lt_or_ge maxLength remaining with hlt | hle
  · rw [if_pos hlt] at hshort
    exact absurd hmin (Nat.not_le.mpr hshort)
  · rw [if_neg (Nat.not_lt.mpr hle)] at hshort
    rw [Nat.mod_eq_of_lt (Nat.lt_of_lt_of_le hshort hmin), if_pos hshort, Nat.sub_self]

structure StepCounts (f : MapFilter) (point : WorkerPoint) (event : WorkerEvent)
    (point' : WorkerPoint) (change : CounterUpdate) : Prop where
  bytes_le : point'.bytesLeft f + change.bytesAdded ≤ point.bytesLeft f
  maps_le : point'.mapsLeft f + change.mapsAdded ≤ point.mapsLeft f
  active_eq : point'.active + change.stopped = point.active + change.started
  inRange : point.InRange → point'.InRange
  bytes_eq : point.InRange → event.smooth = true →
    point'.bytesLeft f + change.bytesAdded = point.bytesLeft f
  maps_eq : point.InRange → event.smooth = true →
    point'.mapsLeft f + change.mapsAdded = point.mapsLeft f

theorem StepCounts.of_eq (hbytes : point'.bytesLeft f + change.bytesAdded = point.bytesLeft f)
    (hmaps : point'.mapsLeft f + change.mapsAdded = point.mapsLeft f)
    (hactive : point'.active + change.stopped = point.active + change.started)
    (hrange : point.InRange → point'.InRange) : StepCounts f point event point' change :=
  ⟨Nat.le_of_eq hbytes, Nat.le_of_eq hmaps, hactive, hrange, fun _ _ => hbytes, fun _ _ => hmaps⟩

theorem StepCounts.of_rough (hrough : event.smooth = false)
    (hbytes : point'.bytesLeft f + change.bytesAdded ≤ point.bytesLeft f)
    (hmaps : point'.mapsLeft f + change.mapsAdded ≤ point.mapsLeft f)
    (hactive : point'.active + change.stopped = point.active + change.started)
    (hrange : point.InRange → point'.InRange) : StepCounts f point event point' change :=
  ⟨hbytes, hmaps, hactive, hrange, fun _ h => absurd h (by rw [hrough]; exact Bool.false_ne_true),
    fun _ h => absurd h (by rw [hrough]; exact Bool.false_ne_true)⟩

theorem clippedLens_cons (map : MapEntry) (maps : List MapEntry) :
    clippedLens f (map :: maps) =
      ((f.clip map).map Prod.snd).toList ++ clippedLens f maps := by
  rw [clippedLens, filterMap_cons]
  cases f.clip map <;> rfl

theorem mapHead_counts {maps : List MapEntry}
    (h : workerStep chunk f (.mapHead maps) event = some (point', change)) :
    StepCounts f (.mapHead maps) event point' change := by
  cases maps with
  | nil =>
    cases event <;> cases h
    exact .of_eq rfl rfl rfl fun _ => trivial
  | cons map maps =>
    cases event with
    | go =>
      dsimp only [workerStep] at h
      have hlens := clippedLens_cons (f := f) map maps
      cases hclip : f.clip map with
      | none =>
        rw [hclip] at h hlens
        cases h
        refine .of_eq ?_ ?_ rfl fun hmaps => (forall_mem_cons.mp hmaps).2
        · dsimp only [bytesLeft, scannedBytes]
          rw [hlens]
          rfl
        · dsimp only [mapsLeft]
          rw [hlens]
          rfl
      | some range =>
        obtain ⟨start, len⟩ := range
        rw [hclip] at h hlens
        cases h
        refine .of_eq ?_ ?_ rfl fun hmaps => ?_
        · dsimp only [bytesLeft, scannedBytes]
          rw [hlens]
          rfl
        · dsimp only [mapsLeft]
          rw [hlens]
          rfl
        · obtain ⟨hmap, hmaps⟩ := forall_mem_cons.mp hmaps
          obtain ⟨-, hend, -, -⟩ := clip_bounds hclip
          exact ⟨Nat.lt_of_le_of_lt hend hmap, hmaps⟩
    | cancelled =>
      cases h
      exact .of_rough rfl (Nat.zero_le _) (Nat.zero_le _) rfl fun _ => trivial
    | _ => cases h

theorem segmentHead_counts (hmin : f.minMapLen ≤ scanMaxLength) (hpos : 0 < f.minMapLen)
    {maps : List MapEntry} {cursor remaining : Nat}
    (h : workerStep chunk f (.segmentHead maps cursor remaining) event = some (point', change)) :
    StepCounts f (.segmentHead maps cursor remaining) event point' change := by
  cases event with
  | go =>
    dsimp only [workerStep] at h
    have hshort : _ → scannedPart f remaining = 0 := scannedPart_short hmin
    have hsegment : ∀ segmentLen, _ → _ → scannedPart f remaining =
        segmentLen + scannedPart f (remaining - segmentLen) :=
      fun segmentLen => scannedPart_segment hmin
    have hbounds : ∀ segmentLen,
        segmentLen = (if remaining > scanMaxLength then scanMaxLength else remaining) →
        segmentLen ≤ remaining ∧ segmentLen ≤ scanMaxLength := by
      rintro _ rfl
      split <;> omega
    generalize (if remaining > scanMaxLength then scanMaxLength else remaining) = segmentLen at *
    obtain ⟨hle, hmax⟩ := hbounds segmentLen rfl
    split_ifs at h with hzero hless hvalid
    · cases h
      subst hzero
      have hnone : scannedPart f 0 = 0 := Nat.zero_sub _
      refine .of_eq ?_ rfl rfl fun hrange => hrange.2
      dsimp only [bytesLeft, CounterUpdate.bytesAdded]
      rw [hnone, Nat.zero_add, Nat.add_zero]
    · cases h
      refine .of_eq ?_ rfl rfl fun hrange => hrange.2
      dsimp only [bytesLeft, CounterUpdate.bytesAdded]
      rw [hshort hless, Nat.zero_add, Nat.add_zero]
    · -- a segment inside the address space is a range `scan_range` accepts
      cases h
      have hreject : ¬ (segmentHead maps cursor remaining).InRange := by
        rintro ⟨hend, -⟩
        rw [scanBoundsValid_iff.mpr ⟨by omega, by omega, hmax, by omega⟩] at hvalid
        exact Bool.noConfusion hvalid
      exact ⟨Nat.zero_le _, Nat.zero_le _, rfl, fun _ => trivial,
        fun hrange _ => absurd hrange hreject, fun hrange _ => absurd hrange hreject⟩
    · cases h
      refine .of_eq ?_ rfl rfl fun hrange => ⟨hrange.1, by omega, hle, hrange.2⟩
      dsimp only [bytesLeft, CounterUpdate.bytesAdded]
      rw [hsegment segmentLen rfl (Nat.le_of_not_lt hless), Nat.sub_zero, Nat.add_zero]
  | _ => cases h

theorem chunkHead_counts {maps : List MapEntry} {cursor remaining segmentLen scanned : Nat}
    (h : workerStep chunk f (.chunkHead maps cursor remaining segmentLen scanned) event =
      some (point', change)) :
    StepCounts f (.chunkHead maps cursor remaining segmentLen scanned) event point' change := by
  have hrange : ∀ scanned',
    (chunkHead maps cursor remaining segmentLen scanned).InRange →
      (chunkHead maps cursor remaining segmentLen scanned').InRange := fun _ h => h
  dsimp only [workerStep] at h
  split at h
  · have hread := scanReadSize_le_remaining (segmentLen - scanned) chunk
    cases event with
    | go => cases h
    | outOfMemory => cases h
    | cancelled =>
      cases h
      refine .of_rough rfl ?_ (Nat.le_refl _) rfl id
      dsimp only [bytesLeft, CounterUpdate.bytesAdded]
      omega
    | readFailed =>
      cases h
      refine .of_rough rfl ?_ (Nat.le_refl _) rfl (hrange _)
      dsimp only [bytesLeft, CounterUpdate.bytesAdded]
      omega
    | read n window =>
      dsimp only at h
      split_ifs at h with hzero hmore hok
      · cases h
        refine .of_rough ?_ ?_ (Nat.le_refl _) rfl id
        · rw [hzero]
          rfl
        · dsimp only [bytesLeft, CounterUpdate.bytesAdded]
          omega
      · cases h
        refine .of_eq ?_ rfl rfl (hrange _)
        dsimp only [bytesLeft, CounterUpdate.bytesAdded]
        omega
      · cases h
        refine .of_rough ?_ ?_ (Nat.zero_le _) rfl fun _ => trivial
        · rw [WorkerEvent.smooth, decide_eq_false fun h => hok h.2]
        · dsimp only [bytesLeft, CounterUpdate.bytesAdded]
          omega
  · rename_i hdone
    split_ifs at h
    cases h
    refine .of_eq ?_ rfl rfl id
    dsimp only [bytesLeft, CounterUpdate.bytesAdded]
    omega

theorem workerStep_counts (hmin : f.minMapLen ≤ scanMaxLength) (hpos : 0 < f.minMapLen)
    (h : workerStep chunk f point event = some (point', change)) :
    StepCounts f point event point' change := by
  cases point with
  | entry maps =>
    cases event <;> cases h
    exact .of_eq rfl rfl rfl id
  | buffer maps =>
    cases event <;> cases h
    · exact .of_eq rfl rfl rfl id
    · exact .of_rough rfl (Nat.zero_le _) (Nat.zero_le _) rfl fun _ => trivial
  | mapHead maps => exact mapHead_counts h
  | segmentHead maps cursor remaining => exact segmentHead_counts hmin hpos h
  | chunkHead maps cursor remaining segmentLen scanned => exact chunkHead_counts h
  | segmentEnd maps cursor remaining segmentLen =>
    cases event <;> cases h
    · refine .of_eq rfl rfl rfl ?_
      rintro ⟨hend, -, hle, hmaps⟩
      exact ⟨by omega, hmaps⟩
    · exact .of_rough rfl (Nat.zero_le _) (Nat.zero_le _) rfl fun _ => trivial
  | mapEnd maps =>
    cases event <;> cases h
    · exact .of_eq rfl rfl rfl id
    · exact .of_rough rfl (Nat.zero_le _) (Nat.zero_le _) rfl fun _ => trivial
  | exit status =>
    cases event <;> cases h
    exact .of_eq rfl rfl rfl id
  | stopped status => cases event <;> cases h

end Worker

/-! ## The totals -/

section Totals

variable {f : MapFilter} {maps : List MapEntry}

theorem progressTotals_eq : progressTotals f maps =
    (min (clippedLens f maps).sum (2 ^ 64 - 1), min (clippedLens f maps).length (2 ^ 32 - 1)) := by
  suffices h : ∀ b ≤ 2 ^ 64 - 1, ∀ n ≤ 2 ^ 32 - 1,
      maps.foldl (fun totals map =>
        match f.clip map with
        | none => totals
        | some (_, mapBytes) =>
          (if 2 ^ 64 - 1 - totals.1 < mapBytes then 2 ^ 64 - 1 else totals.1 + mapBytes,
            if totals.2 ≠ 2 ^ 32 - 1 then totals.2 + 1 else totals.2)) (b, n) =
      (min (b + (clippedLens f maps).sum) (2 ^ 64 - 1),
        min (n + (clippedLens f maps).length) (2 ^ 32 - 1)) by
    rw [progressTotals, h 0 (Nat.zero_le _) 0 (Nat.zero_le _), Nat.zero_add, Nat.zero_add]
  induction maps with
  | nil => exact fun b hb n hn => Prod.ext (Nat.min_eq_left hb).symm (Nat.min_eq_left hn).symm
  | cons map maps ih =>
    intro b hb n hn
    rw [foldl_cons, clippedLens_cons]
    cases hclip : f.clip map with
    | none => exact ih b hb n hn
    | some range =>
      obtain ⟨start, len⟩ := range
      dsimp only [Option.map_some, Option.toList_some, singleton_append, sum_cons,
        length_cons]
      rw [ih _ (by split <;> omega) _ (by split <;> omega)]
      refine Prod.ext ?_ ?_
      · dsimp only
        split <;> omega
      · dsimp only
        split <;> omega

theorem sum_slots (g : Nat → Nat) {env : Env} {numThreads : Nat} {slots : List (Nat × Nat)}
    (hslots : partitionMapsByBytes env (some maps) f numThreads = .ok slots) :
    (slots.map fun s => ((clippedLens f (maps.extract s.1 s.2)).map g).sum).sum =
      ((clippedLens f maps).map g).sum := by
  have hlens : clippedLens f maps =
      slots.flatMap fun s => clippedLens f (maps.extract s.1 s.2) := by
    simp only [clippedLens, filterMap_eq_flatMap_toList]
    refine (partition_flatMap hslots fun map hclip => ?_).symm
    rw [hclip]
    rfl
  rw [hlens, map_flatMap, flatMap_def, sum_flatten, map_map]
  rfl

end Totals

/-! ## Every step of the scan keeps the accounts -/

def TrackedScan.total (s : TrackedScan) (g : WorkerPoint → Nat) : Nat := (s.workers.map g).sum

structure Accounted (f : MapFilter) (maps : List MapEntry) (smooth : Prop) (s : TrackedScan) :
    Prop where
  few : s.workers.length < 2 ^ 32
  inRange : ∀ point ∈ s.workers, point.InRange
  bytes : ∃ n, s.counters.bytesDone = wrap64 n ∧
    n + s.total (·.bytesLeft f) ≤ scannedBytes f maps ∧
    (smooth → n + s.total (·.bytesLeft f) = scannedBytes f maps)
  mapCount : ∃ n, s.counters.mapsDone = wrap32 n ∧
    n + s.total (·.mapsLeft f) ≤ (clippedLens f maps).length ∧
    (smooth → n + s.total (·.mapsLeft f) = (clippedLens f maps).length)
  active : s.counters.workersActive = s.total (·.active)
  bytesTotal : s.stage ≠ .bytes → s.counters.bytesTotal = (progressTotals f maps).1
  mapsTotal : s.stage = .workers ∨ s.stage = .running →
    s.counters.mapsTotal = (progressTotals f maps).2
  workersTotal : s.stage = .running → s.counters.workersTotal = s.workers.length
  idle : s.stage ≠ .running →
    s.counters.bytesDone = 0 ∧ s.counters.mapsDone = 0 ∧ s.counters.workersActive = 0

section Accounts

variable {chunk : Nat} {f : MapFilter} {maps : List MapEntry} {smooth : Prop}
  {s s' : TrackedScan}

theorem total_set {t : Nat} {point : WorkerPoint} (hpoint : s.workers[t]? = some point)
    (point' : WorkerPoint) (c : Counters) (g : WorkerPoint → Nat) :
    ({ s with counters := c, workers := s.workers.set t point' } : TrackedScan).total g + g point =
      s.total g + g point' :=
  sum_map_set hpoint g

theorem active_le_one (point : WorkerPoint) : point.active ≤ 1 := by
  cases point <;> exact Nat.le_of_ble_eq_true rfl

theorem total_active_le (s : TrackedScan) : s.total (·.active) ≤ s.workers.length := by
  rw [TrackedScan.total]
  induction s.workers with
  | nil => exact Nat.le_refl 0
  | cons point workers ih =>
    rw [map_cons, sum_cons, length_cons, Nat.add_comm]
    exact Nat.add_le_add ih (active_le_one point)

theorem wrap64_wrap64_add (n k : Nat) : wrap64 (wrap64 n + k) = wrap64 (n + k) := by
  unfold wrap64
  rw [Nat.mod_add_mod]

theorem wrap32_wrap32_add (n k : Nat) : wrap32 (wrap32 n + k) = wrap32 (n + k) := by
  unfold wrap32
  rw [Nat.mod_add_mod]

theorem Counters.update_bytes (c : Counters) (change : CounterUpdate) {n : Nat}
    (h : c.bytesDone = wrap64 n) :
    (c.update change).bytesDone = wrap64 (n + change.bytesAdded) := by
  obtain ⟨bytesDone, bytesTotal, mapsDone, mapsTotal, workersActive, workersTotal⟩ := c
  subst h
  cases change with
  | bytes k => exact wrap64_wrap64_add n k
  | _ => rfl

theorem Counters.update_maps (c : Counters) (change : CounterUpdate) {n : Nat}
    (h : c.mapsDone = wrap32 n) : (c.update change).mapsDone = wrap32 (n + change.mapsAdded) := by
  obtain ⟨bytesDone, bytesTotal, mapsDone, mapsTotal, workersActive, workersTotal⟩ := c
  subst h
  cases change with
  | mapDone => exact wrap32_wrap32_add n 1
  | _ => rfl

theorem Counters.update_active (c : Counters) (change : CounterUpdate) {n : Nat}
    (hadd : n + change.stopped = c.workersActive + change.started) (hn : n < 2 ^ 32) :
    (c.update change).workersActive = n := by
  obtain ⟨bytesDone, bytesTotal, mapsDone, mapsTotal, workersActive, workersTotal⟩ := c
  cases change with
  | workerStarted =>
    have hadd : n = workersActive + 1 := hadd
    rw [hadd] at hn ⊢
    exact wrap32_of_lt hn
  | workerStopped =>
    have hadd : n + 1 = workersActive := hadd
    have hwrap : workersActive + (2 ^ 32 - 1) = n + 2 ^ 32 := by omega
    refine (congrArg wrap32 hwrap).trans ?_
    rw [wrap32, Nat.add_mod_right, Nat.mod_eq_of_lt hn]
  | _ => exact hadd.symm

theorem Counters.update_totals (c : Counters) (change : CounterUpdate) :
    (c.update change).bytesTotal = c.bytesTotal ∧ (c.update change).mapsTotal = c.mapsTotal ∧
      (c.update change).workersTotal = c.workersTotal := by
  obtain ⟨bytesDone, bytesTotal, mapsDone, mapsTotal, workersActive, workersTotal⟩ := c
  cases change <;> exact ⟨rfl, rfl, rfl⟩

theorem Accounted.worker (hmin : f.minMapLen ≤ scanMaxLength) (hpos : 0 < f.minMapLen)
    (h : Accounted f maps smooth s) (hrunning : s.stage = .running) {t : Nat}
    {event : WorkerEvent} (hsmooth : smooth → event.smooth = true) {point point' : WorkerPoint}
    {change : CounterUpdate} (hpoint : s.workers[t]? = some point)
    (hstep : workerStep chunk f point event = some (point', change)) :
    Accounted f maps smooth
      { s with counters := s.counters.update change, workers := s.workers.set t point' } := by
  have hcounts := workerStep_counts hmin hpos hstep
  have hin := h.inRange point (mem_of_getElem? hpoint)
  obtain ⟨hbytesTotal, hmapsTotal, hworkersTotal⟩ := s.counters.update_totals change
  have htotal := fun g => total_set hpoint point' (s.counters.update change) g
  obtain ⟨n, hn, hnle, hneq⟩ := h.bytes
  obtain ⟨m, hm, hmle, hmeq⟩ := h.mapCount
  constructor
  · rw [length_set]
    exact h.few
  · intro p hp
    rcases mem_or_eq_of_mem_set hp with hp | rfl
    · exact h.inRange p hp
    · exact hcounts.inRange hin
  · have hleft := htotal (·.bytesLeft f)
    refine ⟨n + change.bytesAdded, s.counters.update_bytes change hn, ?_, fun hs => ?_⟩
    · have hle := hcounts.bytes_le
      omega
    · have heq := hcounts.bytes_eq hin (hsmooth hs)
      have hall := hneq hs
      omega
  · have hleft := htotal (·.mapsLeft f)
    refine ⟨m + change.mapsAdded, s.counters.update_maps change hm, ?_, fun hs => ?_⟩
    · have hle := hcounts.maps_le
      omega
    · have heq := hcounts.maps_eq hin (hsmooth hs)
      have hall := hmeq hs
      omega
  · have hleft := htotal (·.active)
    have hactive := h.active
    have hle' := total_active_le { s with
      counters := s.counters.update change, workers := s.workers.set t point' }
    have hlength : (s.workers.set t point').length = s.workers.length := length_set
    have hfew := h.few
    refine s.counters.update_active change ?_ ?_
    · have hcount := hcounts.active_eq
      omega
    · dsimp only at hle'
      omega
  · exact fun hstage => hbytesTotal.trans (h.bytesTotal hstage)
  · exact fun hstage => hmapsTotal.trans (h.mapsTotal hstage)
  · intro hstage
    rw [length_set]
    exact hworkersTotal.trans (h.workersTotal hstage)
  · exact fun hstage => absurd hrunning hstage

theorem Accounted.publish (h : Accounted f maps smooth s)
    (hstep : trackedStep chunk f maps s .publish = some s') : Accounted f maps smooth s' := by
  obtain ⟨stage, ⟨bytesDone, bytesTotal, mapsDone, mapsTotal, active, total⟩, workers⟩ := s
  obtain ⟨hfew, hrange, hbytes, hmaps, hactive, hbytesTotal, hmapsTotal, hworkersTotal, hidle⟩ := h
  cases stage with
  | bytes =>
    cases hstep
    exact ⟨hfew, hrange, hbytes, hmaps, hactive, fun _ => rfl,
      fun hstage => hstage.elim Stage.noConfusion Stage.noConfusion, Stage.noConfusion,
      fun _ => hidle Stage.noConfusion⟩
  | maps =>
    cases hstep
    exact ⟨hfew, hrange, hbytes, hmaps, hactive, fun _ => hbytesTotal Stage.noConfusion,
      fun _ => rfl, Stage.noConfusion, fun _ => hidle Stage.noConfusion⟩
  | workers =>
    cases hstep
    exact ⟨hfew, hrange, hbytes, hmaps, hactive, fun _ => hbytesTotal Stage.noConfusion,
      fun _ => hmapsTotal (.inl rfl), fun _ => wrap32_of_lt hfew, fun hstage => absurd rfl hstage⟩
  | running => cases hstep

theorem Accounted.step (hmin : f.minMapLen ≤ scanMaxLength) (hpos : 0 < f.minMapLen)
    (h : Accounted f maps smooth s) {label : ScanStep} (hsmooth : smooth → label.smooth = true)
    (hstep : trackedStep chunk f maps s label = some s') : Accounted f maps smooth s' := by
  cases label with
  | publish => exact h.publish hstep
  | worker t event =>
    dsimp only [trackedStep] at hstep
    split at hstep
    · rename_i hrunning
      cases hpoint : s.workers[t]? with
      | none =>
        rw [hpoint] at hstep
        cases hstep
      | some point =>
        rw [hpoint] at hstep
        obtain ⟨r, hr, rfl⟩ := Option.map_eq_some_iff.mp hstep
        exact h.worker hmin hpos hrunning hsmooth hpoint hr
    · cases hstep

theorem Accounted.start {env : Env} {slots : List (Nat × Nat)}
    (hend : ∀ map ∈ maps, map.endAddr < 2 ^ 64)
    (hslots : partitionMapsByBytes env (some maps) f scanParallelThreads = .ok slots) :
    Accounted f maps smooth (.start maps slots) := by
  have hbytes : (TrackedScan.start maps slots).total (·.bytesLeft f) = scannedBytes f maps := by
    rw [scannedBytes, ← sum_slots (scannedPart f) hslots, TrackedScan.total, TrackedScan.start,
      map_map]
    rfl
  have hmaps : (TrackedScan.start maps slots).total (·.mapsLeft f) =
      (clippedLens f maps).length := by
    have hone : ∀ l : List Nat, (l.map fun _ => 1).sum = l.length := fun l => by
      rw [map_const', sum_replicate_nat, Nat.mul_one]
    rw [← hone, ← sum_slots (fun _ => 1) hslots, TrackedScan.total, TrackedScan.start,
      map_map]
    exact congrArg List.sum (map_congr_left fun s _ => (hone _).symm)
  have hactive : (TrackedScan.start maps slots).total (·.active) = 0 := by
    rw [TrackedScan.total, TrackedScan.start, map_map]
    refine sum_eq_zero fun n hn => ?_
    obtain ⟨s, -, rfl⟩ := mem_map.mp hn
    rfl
  constructor
  · obtain ⟨hused, hclamp⟩ := partition_length (by decide) hslots
    rw [TrackedScan.start, length_map]
    exact Nat.lt_of_le_of_lt (Nat.le_trans hused hclamp) (by decide)
  · intro point hpoint
    obtain ⟨s, -, rfl⟩ := mem_map.mp hpoint
    intro map hmap
    rw [extract_eq_take_drop] at hmap
    exact hend map (mem_of_mem_drop (mem_of_mem_take hmap))
  · refine ⟨0, rfl, ?_, fun _ => ?_⟩ <;> rw [hbytes, Nat.zero_add]
  · refine ⟨0, rfl, ?_, fun _ => ?_⟩ <;> rw [hmaps, Nat.zero_add]
  · exact hactive.symm
  · exact fun h => absurd rfl h
  · exact fun h => h.elim Stage.noConfusion Stage.noConfusion
  · exact Stage.noConfusion
  · exact fun _ => ⟨rfl, rfl, rfl⟩

theorem scannedPart_le (f : MapFilter) (len : Nat) : scannedPart f len ≤ len := Nat.sub_le _ _

theorem sum_scannedPart_le (f : MapFilter) (lens : List Nat) :
    (lens.map (scannedPart f)).sum ≤ lens.sum := by
  induction lens with
  | nil => exact Nat.le_refl 0
  | cons len lens ih =>
    rw [map_cons, sum_cons, sum_cons]
    exact Nat.add_le_add (scannedPart_le f len) ih

theorem Accounted.inBounds (h : Accounted f maps smooth s) : s.counters.InBounds := by
  by_cases hrunning : s.stage = .running
  · obtain ⟨n, hn, hnle, -⟩ := h.bytes
    obtain ⟨m, hm, hmle, -⟩ := h.mapCount
    have hbytes := h.bytesTotal (by rw [hrunning]; exact Stage.noConfusion)
    have hmaps := h.mapsTotal (.inr hrunning)
    have hsum : scannedBytes f maps ≤ _ := sum_scannedPart_le f (clippedLens f maps)
    rw [progressTotals_eq] at hbytes hmaps
    constructor
    · rw [hn, hbytes, wrap64]
      omega
    · rw [hm, hmaps, wrap32]
      omega
    · rw [h.active, h.workersTotal hrunning]
      exact total_active_le s
  · obtain ⟨hbytes, hmaps, hactive⟩ := h.idle hrunning
    constructor
    · rw [hbytes]
      exact Nat.zero_le _
    · rw [hmaps]
      exact Nat.zero_le _
    · rw [hactive]
      exact Nat.zero_le _

theorem TrackedScan.Finished.total_eq_zero (hdone : s.Finished) {g : WorkerPoint → Nat}
    (hg : ∀ status, g (.stopped status) = 0) : s.total g = 0 := by
  refine sum_eq_zero fun n hn => ?_
  obtain ⟨point, hpoint, rfl⟩ := mem_map.mp hn
  obtain ⟨status, rfl⟩ := hdone.2 point hpoint
  exact hg status

theorem Accounted.finished (h : Accounted f maps True s) (hdone : s.Finished) :
    s.counters.bytesDone = wrap64 (scannedBytes f maps) ∧
      s.counters.mapsDone = wrap32 (clippedLens f maps).length ∧
      s.counters.bytesTotal = min (clippedLens f maps).sum (2 ^ 64 - 1) ∧
      s.counters.mapsTotal = min (clippedLens f maps).length (2 ^ 32 - 1) := by
  obtain ⟨n, hn, -, hneq⟩ := h.bytes
  obtain ⟨m, hm, -, hmeq⟩ := h.mapCount
  have hneq := hneq trivial
  have hmeq := hmeq trivial
  rw [hdone.total_eq_zero fun _ => rfl, Nat.add_zero] at hneq hmeq
  have hbytes := h.bytesTotal (by rw [hdone.1]; exact Stage.noConfusion)
  have hmaps := h.mapsTotal (.inr hdone.1)
  rw [progressTotals_eq] at hbytes hmaps
  exact ⟨hneq ▸ hn, hmeq ▸ hm, hbytes, hmaps⟩

end Accounts

/-! ## When the totals are reached -/

/-- The totals are reached: no clipped map ends in a segment that is too short for a
value, and the sums fit their counters.  Sums that do not fit, which is out of reach of
a real list of maps, agree with a total of all ones only if they wrap to it. -/
structure TotalsReachable (f : MapFilter) (maps : List MapEntry) : Prop where
  bytes : if (clippedLens f maps).sum < 2 ^ 64 then
      ∀ len ∈ clippedLens f maps, len % scanMaxLength = 0 ∨ f.minMapLen ≤ len % scanMaxLength
    else scannedBytes f maps % 2 ^ 64 = 2 ^ 64 - 1
  mapCount : (clippedLens f maps).length < 2 ^ 32 ∨
    (clippedLens f maps).length % 2 ^ 32 = 2 ^ 32 - 1

section Reach

variable {f : MapFilter} {maps : List MapEntry}

theorem scannedPart_eq_iff (len : Nat) :
    scannedPart f len = len ↔
      len % scanMaxLength = 0 ∨ f.minMapLen ≤ len % scanMaxLength := by
  have hmod := Nat.mod_le len scanMaxLength
  rw [scannedPart]
  generalize len % scanMaxLength = rest at *
  split_ifs <;> omega

theorem scannedBytes_eq_iff (f : MapFilter) (maps : List MapEntry) :
    scannedBytes f maps = (clippedLens f maps).sum ↔
      ∀ len ∈ clippedLens f maps, scannedPart f len = len := by
  rw [scannedBytes]
  induction clippedLens f maps with
  | nil => exact iff_of_true rfl fun len hlen => absurd hlen not_mem_nil
  | cons len lens ih =>
    have hlen := scannedPart_le f len
    have hlens := sum_scannedPart_le f lens
    rw [map_cons, sum_cons, sum_cons, forall_mem_cons, ← ih]
    omega

theorem totalsReachable_iff :
    (wrap64 (scannedBytes f maps) = min (clippedLens f maps).sum (2 ^ 64 - 1) ∧
      wrap32 (clippedLens f maps).length = min (clippedLens f maps).length (2 ^ 32 - 1)) ↔
      TotalsReachable f maps := by
  have hle : scannedBytes f maps ≤ _ := sum_scannedPart_le f (clippedLens f maps)
  have hscanned := scannedBytes_eq_iff f maps
  simp only [scannedPart_eq_iff] at hscanned
  have hbytes : wrap64 (scannedBytes f maps) = min (clippedLens f maps).sum (2 ^ 64 - 1) ↔
      if (clippedLens f maps).sum < 2 ^ 64 then
        ∀ len ∈ clippedLens f maps, len % scanMaxLength = 0 ∨ f.minMapLen ≤ len % scanMaxLength
      else scannedBytes f maps % 2 ^ 64 = 2 ^ 64 - 1 := by
    split
    · rename_i hfits
      rw [← hscanned, wrap64_of_lt (Nat.lt_of_le_of_lt hle hfits), Nat.min_eq_left (by omega)]
    · rename_i hlarge
      rw [Nat.min_eq_right (by omega)]
      rfl
  have hcount : wrap32 (clippedLens f maps).length = min (clippedLens f maps).length (2 ^ 32 - 1) ↔
      (clippedLens f maps).length < 2 ^ 32 ∨
        (clippedLens f maps).length % 2 ^ 32 = 2 ^ 32 - 1 := by
    rw [wrap32]
    omega
  rw [hbytes, hcount]
  exact ⟨fun h => ⟨h.1, h.2⟩, fun h => ⟨h.1, h.2⟩⟩

variable {env : Env} {slots : List (Nat × Nat)} {chunk : Nat} {labels : List ScanStep}
  {s : TrackedScan}

theorem accounted_of_run (smooth : Prop) (hend : ∀ map ∈ maps, map.endAddr < 2 ^ 64)
    (hslots : partitionMapsByBytes env (some maps) f scanParallelThreads = .ok slots)
    (hmin : f.minMapLen ≤ scanMaxLength) (hpos : 0 < f.minMapLen)
    (hrun : Run (trackedStep chunk f maps) (fun _ label => smooth → label.smooth = true)
      (.start maps slots) labels s) : Accounted f maps smooth s :=
  hrun.invariant (fun _ _ _ h hsmooth hstep => h.step hmin hpos hsmooth hstep)
    (.start hend hslots)

theorem counters_of_smooth_run (hend : ∀ map ∈ maps, map.endAddr < 2 ^ 64)
    (hslots : partitionMapsByBytes env (some maps) f scanParallelThreads = .ok slots)
    (hmin : f.minMapLen ≤ scanMaxLength) (hpos : 0 < f.minMapLen)
    (hrun : Run (trackedStep chunk f maps) (fun _ _ => True) (.start maps slots) labels s)
    (hsmooth : ∀ label ∈ labels, label.smooth = true) (hdone : s.Finished) :
    (s.counters.bytesDone = s.counters.bytesTotal ∧ s.counters.mapsDone = s.counters.mapsTotal) ↔
      TotalsReachable f maps := by
  have h := accounted_of_run True hend hslots hmin hpos
    ((hrun.guarded hsmooth).mono fun _ _ h _ => h)
  obtain ⟨hbytes, hmaps, hbytesTotal, hmapsTotal⟩ := h.finished hdone
  rw [hbytes, hmaps, hbytesTotal, hmapsTotal]
  exact totalsReachable_iff

end Reach

/-! ## Every scan can end -/

def WorkerPoint.work (f : MapFilter) : WorkerPoint → Nat
  | .entry maps => mapsWork f maps + 2
  | .buffer maps => mapsWork f maps + 1
  | .mapHead maps => mapsWork f maps
  | .mapEnd maps => mapsWork f maps + 1
  | .segmentHead maps _ remaining => mapsWork f maps + 4 * remaining + 2
  | .chunkHead maps _ remaining segmentLen scanned =>
    mapsWork f maps + 4 * (remaining - segmentLen) + (segmentLen - scanned) + 4
  | .segmentEnd maps _ remaining segmentLen =>
    mapsWork f maps + 4 * (remaining - segmentLen) + 3
  | .exit _ => 1
  | .stopped _ => 0
where
  mapsWork (f : MapFilter) (maps : List MapEntry) : Nat :=
    4 * (clippedLens f maps).sum + 4 * maps.length + 2

section Ends

variable {chunk : Nat} {f : MapFilter} {maps : List MapEntry}

theorem workerStep_smooth (hchunk : 0 < chunk) (hpos : 0 < f.minMapLen) {point : WorkerPoint}
    (hin : point.InRange)
    (hpoint : ∀ status, point ≠ .stopped status) :
    ∃ event point' change, event.smooth = true ∧
      workerStep chunk f point event = some (point', change) ∧ point'.work f < point.work f := by
  cases point with
  | entry maps => exact ⟨.go, _, _, rfl, rfl, Nat.lt_succ_self _⟩
  | buffer maps => exact ⟨.go, _, _, rfl, rfl, Nat.lt_succ_self _⟩
  | mapHead maps =>
    cases maps with
    | nil => exact ⟨.go, _, _, rfl, rfl, Nat.le_refl 2⟩
    | cons map maps =>
      have hlens := clippedLens_cons (f := f) map maps
      cases hclip : f.clip map with
      | none =>
        refine ⟨.go, .mapHead maps, .none, rfl, by simp only [workerStep, hclip], ?_⟩
        rw [hclip] at hlens
        dsimp only [work, work.mapsWork]
        rw [hlens, length_cons]
        dsimp only [Option.map_none, Option.toList_none, nil_append]
        omega
      | some range =>
        obtain ⟨start, len⟩ := range
        refine ⟨.go, .segmentHead maps start len, .none, rfl, by
          simp only [workerStep, hclip], ?_⟩
        rw [hclip] at hlens
        dsimp only [work, work.mapsWork]
        rw [hlens, length_cons]
        dsimp only [Option.map_some, Option.toList_some, singleton_append]
        rw [sum_cons]
        omega
  | segmentHead maps cursor remaining =>
    obtain ⟨hend, -⟩ := hin
    have hbounds : ∃ segmentLen,
        (if remaining > scanMaxLength then scanMaxLength else remaining) = segmentLen ∧
        segmentLen ≤ remaining ∧ segmentLen ≤ scanMaxLength := by
      refine ⟨_, rfl, ?_⟩
      split <;> omega
    obtain ⟨segmentLen, hsegment, hle, hmax⟩ := hbounds
    by_cases hzero : remaining = 0
    · refine ⟨.go, .mapEnd maps, .none, rfl, by simp only [workerStep, hzero, if_true], ?_⟩
      dsimp only [work]
      omega
    by_cases hshort : segmentLen < f.minMapLen
    · refine ⟨.go, .mapEnd maps, .none, rfl, by
        simp only [workerStep, hsegment, hzero, if_false, hshort, if_true], ?_⟩
      dsimp only [work]
      omega
    have hvalid : scanBoundsValid cursor segmentLen f.minMapLen = true :=
      scanBoundsValid_iff.mpr ⟨by omega, by omega, hmax, by omega⟩
    refine ⟨.go, .chunkHead maps cursor remaining segmentLen 0, .none, rfl, by
      simp only [workerStep, hsegment, hzero, if_false, hshort, hvalid, Bool.true_eq_false], ?_⟩
    dsimp only [work]
    omega
  | chunkHead maps cursor remaining segmentLen scanned =>
    by_cases hlt : scanned < segmentLen
    · have hread : 0 < scanReadSize (segmentLen - scanned) chunk :=
        scanReadSize_pos (by omega) hchunk
      have hle := scanReadSize_le_remaining (segmentLen - scanned) chunk
      obtain ⟨n, hn⟩ : ∃ n, scanReadSize (segmentLen - scanned) chunk = n := ⟨_, rfl⟩
      rw [hn] at hread hle
      refine ⟨.read n .ok, .chunkHead maps cursor remaining segmentLen (scanned + n), .bytes n,
        ?_, ?_, ?_⟩
      · exact decide_eq_true ⟨Nat.ne_of_gt hread, rfl⟩
      · simp only [workerStep, hlt, if_true, hn, Nat.ne_of_gt hread, if_false, Nat.lt_irrefl]
      · dsimp only [work]
        omega
    · refine ⟨.go, .segmentEnd maps cursor remaining segmentLen, .none, rfl, by
        simp only [workerStep, hlt, if_false, if_true], ?_⟩
      dsimp only [work]
      omega
  | segmentEnd maps cursor remaining segmentLen => exact ⟨.go, _, _, rfl, rfl, Nat.lt_succ_self _⟩
  | mapEnd maps => exact ⟨.go, _, _, rfl, rfl, Nat.lt_succ_self _⟩
  | exit status => exact ⟨.go, _, _, rfl, rfl, Nat.lt_succ_self _⟩
  | stopped status => exact absurd rfl (hpoint status)

theorem exists_finished_of_running (hchunk : 0 < chunk) (hmin : f.minMapLen ≤ scanMaxLength)
    (hpos : 0 < f.minMapLen) (n : Nat) {s : TrackedScan} (hs : Accounted f maps True s)
    (hrunning : s.stage = .running) (hn : s.total (·.work f) = n) :
    ∃ labels s', Run (trackedStep chunk f maps) (fun _ _ => True) s labels s' ∧
      (∀ label ∈ labels, label.smooth = true) ∧ s'.Finished := by
  induction n using Nat.strong_induction_on generalizing s with
  | _ n ih =>
    by_cases hdone : ∀ point ∈ s.workers, ∃ status, point = .stopped status
    · exact ⟨[], s, .nil s, fun _ h => absurd h not_mem_nil, hrunning, hdone⟩
    push Not at hdone
    obtain ⟨point, hmem, hpoint⟩ := hdone
    obtain ⟨t, ht⟩ := getElem?_of_mem hmem
    obtain ⟨event, point', change, hsmooth, hstep, hless⟩ :=
      workerStep_smooth hchunk hpos (hs.inRange point hmem) hpoint
    have hscan : trackedStep chunk f maps s (.worker t event) = some
        { s with counters := s.counters.update change, workers := s.workers.set t point' } := by
      simp only [trackedStep, hrunning, if_true, ht, hstep, Option.map_some]
    have htotal := total_set ht point' (s.counters.update change) (·.work f)
    obtain ⟨labels, s', hrun, hall, hfinished⟩ := ih _ (by omega)
      (hs.worker hmin hpos hrunning (fun _ => hsmooth) ht hstep) hrunning rfl
    exact ⟨.worker t event :: labels, s', .cons trivial hscan hrun,
      forall_mem_cons.mpr ⟨hsmooth, hall⟩, hfinished⟩

theorem exists_finished_run {env : Env} {slots : List (Nat × Nat)} (hchunk : 0 < chunk)
    (hend : ∀ map ∈ maps, map.endAddr < 2 ^ 64)
    (hslots : partitionMapsByBytes env (some maps) f scanParallelThreads = .ok slots)
    (hmin : f.minMapLen ≤ scanMaxLength) (hpos : 0 < f.minMapLen) :
    ∃ labels s, Run (trackedStep chunk f maps) (fun _ _ => True) (.start maps slots) labels s ∧
      (∀ label ∈ labels, label.smooth = true) ∧ s.Finished := by
  have hstart : Accounted f maps True (.start maps slots) := .start hend hslots
  have h₁ := hstart.publish (rfl : trackedStep chunk f maps _ .publish = some _)
  have h₂ := h₁.publish (rfl : trackedStep chunk f maps _ .publish = some _)
  have h₃ := h₂.publish (rfl : trackedStep chunk f maps _ .publish = some _)
  obtain ⟨labels, s, hrun, hall, hfinished⟩ :=
    exists_finished_of_running hchunk hmin hpos _ h₃ rfl rfl
  refine ⟨.publish :: .publish :: .publish :: labels, s,
    .cons trivial rfl (.cons trivial rfl (.cons trivial rfl hrun)), ?_, hfinished⟩
  simpa only [forall_mem_cons] using ⟨rfl, rfl, rfl, hall⟩

end Ends

section Sound

variable {env : Env} {chunk : Nat} {f : MapFilter} {maps : List MapEntry}
  {slots : List (Nat × Nat)} {labels : List ScanStep} {s : TrackedScan}

/-- **The progress of a tracked scan.**  Whatever the reads deliver, whoever cancels and
however the workers take turns, the counters stay in bounds.  A scan that ends without
a cancel, a failure and an empty read has reached its totals exactly if they can be
reached. -/
theorem progress_sound (hend : ∀ map ∈ maps, map.endAddr < 2 ^ 64)
    (hslots : partitionMapsByBytes env (some maps) f scanParallelThreads = .ok slots)
    (hmin : f.minMapLen ≤ scanMaxLength) (hpos : 0 < f.minMapLen)
    (hrun : Run (trackedStep chunk f maps) (fun _ _ => True) (.start maps slots) labels s) :
    s.counters.InBounds ∧
      ((∀ label ∈ labels, label.smooth = true) → s.Finished →
        ((s.counters.bytesDone = s.counters.bytesTotal ∧
            s.counters.mapsDone = s.counters.mapsTotal) ↔ TotalsReachable f maps)) :=
  ⟨(accounted_of_run False hend hslots hmin hpos
      (hrun.mono fun _ _ _ h => h.elim)).inBounds,
    fun hsmooth hdone => counters_of_smooth_run hend hslots hmin hpos hrun hsmooth hdone⟩

theorem progress_sound_small :
    ∃ labels s, Run (trackedStep 4 ⟨1, 0, 0, 2⟩ [⟨16, 24, 1⟩]) (fun _ _ => True)
        (.start [⟨16, 24, 1⟩] [(0, 1)]) labels s ∧
      s.counters.InBounds ∧ s.counters.bytesDone = s.counters.bytesTotal ∧
      s.counters.mapsDone = s.counters.mapsTotal := by
  have hend : ∀ map ∈ [(⟨16, 24, 1⟩ : MapEntry)], map.endAddr < 2 ^ 64 := by decide
  have hslots : partitionMapsByBytes (.readable .host (fun _ => 0) fun _ n => n)
      (some [⟨16, 24, 1⟩]) ⟨1, 0, 0, 2⟩ scanParallelThreads = .ok [(0, 1)] := rfl
  obtain ⟨labels, s, hrun, hsmooth, hdone⟩ := exists_finished_run (by decide : 0 < 4) hend
    hslots (by decide) (by decide)
  obtain ⟨hbounds, hreached⟩ := progress_sound hend hslots (by decide) (by decide) hrun
  have hreachable : TotalsReachable ⟨1, 0, 0, 2⟩ [⟨16, 24, 1⟩] := ⟨by decide, by decide⟩
  exact ⟨labels, s, hrun, hbounds, (hreached hsmooth hdone).mpr hreachable⟩

def longMaps : List MapEntry := [⟨0, 2 ^ 35 + 1, 1⟩]

theorem progress_short :
    partitionMapsByBytes (.readable .host (fun _ => 0) fun _ n => n) (some longMaps) ⟨1, 0, 0, 4⟩
        scanParallelThreads = .ok [(0, 1)] ∧
    ∃ labels s, Run (trackedStep (scanChunk .host) ⟨1, 0, 0, 4⟩ longMaps) (fun _ _ => True)
        (.start longMaps [(0, 1)]) labels s ∧
      (∀ label ∈ labels, label.smooth = true) ∧ s.Finished ∧
      ¬ (s.counters.bytesDone = s.counters.bytesTotal ∧
        s.counters.mapsDone = s.counters.mapsTotal) := by
  have hend : ∀ map ∈ longMaps, map.endAddr < 2 ^ 64 := by decide
  have hslots : partitionMapsByBytes (.readable .host (fun _ => 0) fun _ n => n) (some longMaps)
      ⟨1, 0, 0, 4⟩ scanParallelThreads = .ok [(0, 1)] := rfl
  have hshort : ¬ TotalsReachable ⟨1, 0, 0, 4⟩ longMaps := fun h => absurd h.bytes (by decide)
  obtain ⟨labels, s, hrun, hsmooth, hdone⟩ := exists_finished_run
    (by decide : 0 < scanChunk .host) hend hslots (by decide) (by decide)
  exact ⟨hslots, labels, s, hrun, hsmooth, hdone, fun h => hshort
    ((counters_of_smooth_run hend hslots (by decide) (by decide) hrun hsmooth hdone).mp h)⟩

end Sound

end MemDbg.Scan
