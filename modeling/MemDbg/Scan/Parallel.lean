import MemDbg.Scan.Exact
import MemDbg.Scan.Partition
import Mathlib.Data.List.Forall2

/-!
# The parallel map scan

`parallel_worker_thread`, `merge_scan_results` and `scan_maps_parallel`.  The
workers share nothing but the counters of the progress record, which no worker
reads back, so a run of the workers is determined by what each does alone: a
schedule only decides the instants at which a worker starts.
-/

namespace MemDbg.Scan

open List Lib

abbrev ScanFn := Nat → Nat → ScanBuilder → Status × ScanBuilder

structure WorkerRun where
  builder : ScanBuilder
  regionsScanned : Nat
  status : Status

structure Worker where
  result : ScanResult
  regionsScanned : Nat
  status : Status

namespace WorkerRun

def scan (w : WorkerRun) (scanFn : ScanFn) (start len : Nat) : WorkerRun where
  builder := (scanFn start len w.builder).2
  regionsScanned := wrap32 (w.regionsScanned + 1)
  status := (scanFn start len w.builder).1

def tick (w : WorkerRun) : WorkerRun := { w with builder := w.builder.tick }

def mapDone (w : WorkerRun) : WorkerRun :=
  { w with builder := { w.builder with
      progress := w.builder.progress.map fun p => { p with mapsDone := wrap32 (p.mapsDone + 1) } } }

end WorkerRun

def segmentLoop (env : Env) (scanFn : ScanFn) (minMapLen : Nat) :
    Nat → Nat → Nat → WorkerRun → WorkerRun
  | 0, _, _, w => w
  | fuel + 1, cursor, remaining, w =>
    if remaining ≠ 0 then
      let segmentLen := if remaining > scanMaxLength then scanMaxLength else remaining
      if segmentLen < minMapLen then w
      else
        let w := w.scan scanFn cursor segmentLen
        if w.status ≠ .ok then w
        else if w.builder.pollCancel env then w
        else segmentLoop env scanFn minMapLen fuel (cursor + segmentLen) (remaining - segmentLen)
          w.tick
    else w

def segmentFuel (len : Nat) : Nat := len / scanMaxLength + 1

def mapLoop (env : Env) (scanFn : ScanFn) (f : MapFilter) : List MapEntry → WorkerRun → WorkerRun
  | [], w => w
  | map :: maps, w =>
    if w.builder.pollCancel env then w
    else
      match f.clip map with
      | none => mapLoop env scanFn f maps w.tick
      | some (start, len) =>
        let w := segmentLoop env scanFn f.minMapLen (segmentFuel len) start len w.tick
        if w.status ≠ .ok then w
        else if w.builder.pollCancel env then w
        else mapLoop env scanFn f maps w.tick.mapDone

def workerBuilder (maxResults : Nat) (progress : Option ScanProgress) (now : Nat) :
    ScanBuilder where
  result := .zero
  capacity := 0
  maxResults := maxResults
  progress := progress
  now := now

def parallelWorkerThread (env : Env) (scanFn : ScanFn) (f : MapFilter) (maxResults : Nat)
    (progress : Option ScanProgress) (t now : Nat) (maps : List MapEntry) : Worker :=
  if env.alloc (.workerBuffer t) = false then ⟨.zero, 0, .errNomem⟩
  else
    let w := mapLoop env scanFn f maps ⟨workerBuilder maxResults progress now, 0, .ok⟩
    ⟨w.builder.result, w.regionsScanned, w.status⟩

def mergeCopy (totalCount : Nat) : List Worker → Nat → List Nat → List Nat
  | [], _, cells => cells
  | w :: workers, pos, cells =>
    if pos < totalCount then
      if w.result.count = 0 then mergeCopy totalCount workers pos cells
      else
        let wc := if pos + w.result.count > totalCount then totalCount - pos else w.result.count
        mergeCopy totalCount workers (pos + wc) (cells ++ w.result.reported.take wc)
    else cells

def mergeMetrics (workers : List Worker) (out : ScanResult) : ScanResult :=
  workers.foldl (fun out w => { out with
    readCalls := wrap32 (out.readCalls + w.result.readCalls)
    readErrors := wrap32 (out.readErrors + w.result.readErrors)
    bytesScanned := wrap64 (out.bytesScanned + w.result.bytesScanned)
    regionsScanned := wrap32 (out.regionsScanned + w.regionsScanned) }) out

def mergeScanResults (workers : List Worker) (out : ScanResult) (maxResults : Nat) : ScanResult :=
  let total := (workers.map fun w => w.result.count).sum
  let anyTruncated := workers.any fun w => w.result.truncated
  let out := mergeMetrics workers out
  let totalCount := if total > maxResults then maxResults else total
  let anyTruncated := if total > maxResults then true else anyTruncated
  if totalCount = 0 then { out with count := 0 }
  else { out with
    entries := .owned (mergeCopy totalCount workers 0 [])
    count := totalCount
    truncated := anyTruncated }

def mergeTarget : ScanResult := { ScanResult.zero with entries := .owned [] }

def scanParallelThreads : Nat := 4

structure Threads where
  create : Nat → Bool
  fresh : Nat → Bool
  startsAt : Nat → Nat

structure ParallelRun where
  status : Status
  out : ScanResult
  created : List Nat
  joined : List Nat

def spawned (env : Env) (threads : Threads) (slots : List (Nat × Nat)) (t : Nat) : Bool :=
  env.alloc .threads && decide ((slots.getD t (0, 0)).1 < (slots.getD t (0, 0)).2) &&
    threads.create t

def createdThreads (env : Env) (threads : Threads) (slots : List (Nat × Nat)) : List Nat :=
  (List.range' 1 (slots.length - 1)).filter (spawned env threads slots)

def joinedThreads (env : Env) (threads : Threads) (slots : List (Nat × Nat)) : List Nat :=
  (List.range' 1 (slots.length - 1)).filter fun t =>
    if spawned env threads slots t then true else threads.fresh t

def firstErr : List Worker → Status
  | [] => .ok
  | w :: workers => if w.status ≠ .ok then w.status else firstErr workers

def scanMapsParallel (env : Env) (threads : Threads) (scanFn : ScanFn)
    (maps : Option (List MapEntry)) (maxResults : Nat) (f : MapFilter)
    (progress : Option ScanProgress) (out : ScanResult) : ParallelRun :=
  if env.alloc .slots = false then ⟨.errNomem, out, [], []⟩
  else
    match partitionMapsByBytes env maps f scanParallelThreads with
    | .error st => ⟨st, out, [], []⟩
    | .ok slots =>
      if env.alloc .workers = false then ⟨.errNomem, out, [], []⟩
      else if env.alloc .outEntries = false then ⟨.errNomem, .zero, [], []⟩
      else
        let workers := slots.mapIdx fun t slot => parallelWorkerThread env scanFn f maxResults
          progress t (threads.startsAt t) ((maps.getD []).extract slot.1 slot.2)
        let created := createdThreads env threads slots
        let joined := joinedThreads env threads slots
        if firstErr workers ≠ .ok then ⟨firstErr workers, .zero, created, joined⟩
        else ⟨.ok, mergeScanResults workers mergeTarget maxResults, created, joined⟩

/-! ## One worker -/

section Worker

variable {env : Env} {scanFn : ScanFn} {hitsOf : Nat → Nat → List Nat}
  {statusOf : Nat → Nat → Status}

/-- What is asked of a scan function: on a range it appends a list of hits and
returns a status, both decided by the range. -/
def Appends (env : Env) (scanFn : ScanFn) (hitsOf : Nat → Nat → List Nat)
    (statusOf : Nat → Nat → Status) : Prop :=
  ∀ start len b, b.Ready env →
    ∃ b', scanFn start len b = (statusOf start len, b') ∧ Grew b (hitsOf start len) b'

def runRanges (hitsOf : Nat → Nat → List Nat) (statusOf : Nat → Nat → Status) :
    List (Nat × Nat) → List Nat × Status
  | [] => ([], .ok)
  | (start, len) :: rest =>
    if statusOf start len ≠ .ok then (hitsOf start len, statusOf start len)
    else (hitsOf start len ++ (runRanges hitsOf statusOf rest).1,
      (runRanges hitsOf statusOf rest).2)

def segments (minMapLen : Nat) : Nat → Nat → Nat → List (Nat × Nat)
  | 0, _, _ => []
  | fuel + 1, cursor, remaining =>
    if remaining ≠ 0 then
      let segmentLen := if remaining > scanMaxLength then scanMaxLength else remaining
      if segmentLen < minMapLen then []
      else (cursor, segmentLen) ::
        segments minMapLen fuel (cursor + segmentLen) (remaining - segmentLen)
    else []

def MapFilter.ranges (f : MapFilter) (maps : List MapEntry) : List (Nat × Nat) :=
  maps.flatMap fun map =>
    match f.clip map with
    | none => []
    | some (start, len) => segments f.minMapLen (segmentFuel len) start len

theorem runRanges_append (xs ys : List (Nat × Nat)) :
    runRanges hitsOf statusOf (xs ++ ys) =
      if (runRanges hitsOf statusOf xs).2 ≠ .ok then runRanges hitsOf statusOf xs
      else ((runRanges hitsOf statusOf xs).1 ++ (runRanges hitsOf statusOf ys).1,
        (runRanges hitsOf statusOf ys).2) := by
  induction xs with
  | nil => simp [runRanges]
  | cons r rest ih =>
    obtain ⟨start, len⟩ := r
    rw [cons_append, runRanges, runRanges, ih]
    by_cases h : statusOf start len = .ok
    · simp only [h, ne_eq, not_true_eq_false, if_false]
      split_ifs <;> simp
    · simp [h]

def AppendsAt (env : Env) (scanFn : ScanFn) (outcome : Nat → Nat → List Nat × Status → Prop)
    (start len : Nat) : Prop :=
  ∀ b, b.Ready env →
    ∃ r b', outcome start len r ∧ scanFn start len b = (r.2, b') ∧ Grew b r.1 b'

inductive Outcomes (outcome : Nat → Nat → List Nat × Status → Prop) :
    List (Nat × Nat) → List Nat × Status → Prop
  | nil : Outcomes outcome [] ([], .ok)
  | stop {start len : Nat} {rest : List (Nat × Nat)} {r : List Nat × Status}
      (h : outcome start len r) (herr : r.2 ≠ .ok) : Outcomes outcome ((start, len) :: rest) r
  | step {start len : Nat} {rest : List (Nat × Nat)} {hs : List Nat} {r : List Nat × Status}
      (h : outcome start len (hs, .ok)) (hrest : Outcomes outcome rest r) :
      Outcomes outcome ((start, len) :: rest) (hs ++ r.1, r.2)

section Outcomes

variable {outcome : Nat → Nat → List Nat × Status → Prop} {xs ys : List (Nat × Nat)}
  {r r' : List Nat × Status}

theorem Outcomes.append_of_ne (h : Outcomes outcome xs r) (herr : r.2 ≠ .ok) :
    Outcomes outcome (xs ++ ys) r := by
  induction h with
  | nil => exact absurd rfl herr
  | stop h herr => exact .stop h herr
  | step h _ ih => exact .step h (ih herr)

theorem Outcomes.append (h : Outcomes outcome xs r) (hok : r.2 = .ok)
    (h' : Outcomes outcome ys r') : Outcomes outcome (xs ++ ys) (r.1 ++ r'.1, r'.2) := by
  induction h with
  | nil => exact h'
  | stop h herr => exact absurd hok herr
  | step h _ ih =>
    rw [append_assoc]
    exact .step h (ih hok)

theorem Outcomes.eq_runRanges
    (h : Outcomes (fun start len r => r = (hitsOf start len, statusOf start len)) xs r) :
    r = runRanges hitsOf statusOf xs := by
  induction h with
  | nil => rfl
  | stop h herr =>
    subst h
    rw [runRanges, if_pos herr]
  | step h _ ih =>
    obtain ⟨rfl, hst⟩ := Prod.mk.inj h
    rw [runRanges, if_neg (not_not_intro hst.symm), ← ih]

end Outcomes

structure Ran (w : WorkerRun) (r : List Nat × Status) (w' : WorkerRun) : Prop where
  grew : Grew w.builder r.1 w'.builder
  status_eq : w'.status = r.2

variable (hcancel : ∀ now, env.cancelRequested now = false)

include hcancel in
theorem pollCancel_eq_false (b : ScanBuilder) : b.pollCancel env = false := by
  simp [ScanBuilder.pollCancel, hcancel]

variable {outcome : Nat → Nat → List Nat × Status → Prop}

include hcancel in
theorem segmentLoop_ran (minMapLen fuel cursor remaining : Nat)
    (hscan : ∀ r ∈ segments minMapLen fuel cursor remaining,
      AppendsAt env scanFn outcome r.1 r.2) {w : WorkerRun}
    (hw : w.builder.Ready env) (hst : w.status = .ok) :
    ∃ r, Outcomes outcome (segments minMapLen fuel cursor remaining) r ∧
      Ran w r (segmentLoop env scanFn minMapLen fuel cursor remaining w) := by
  induction fuel generalizing cursor remaining w with
  | zero => exact ⟨_, .nil, .refl hw.toValid, hst⟩
  | succ fuel ih =>
    rw [segments] at hscan ⊢
    rw [segmentLoop]
    by_cases hrem : remaining = 0
    · rw [if_neg (by simp [hrem]), if_neg (by simp [hrem])]
      exact ⟨_, .nil, .refl hw.toValid, hst⟩
    · rw [if_pos hrem] at hscan
      rw [if_pos hrem, if_pos hrem]
      generalize (if remaining > scanMaxLength then scanMaxLength else remaining) = len at *
      by_cases hshort : len < minMapLen
      · rw [if_pos hshort, if_pos hshort]
        exact ⟨_, .nil, .refl hw.toValid, hst⟩
      · rw [if_neg hshort, forall_mem_cons] at hscan
        rw [if_neg hshort, if_neg hshort]
        obtain ⟨⟨hs, st⟩, b', hout, hrun, hgrew⟩ := hscan.1 w.builder hw
        have hw₁ : w.scan scanFn cursor len = ⟨b', wrap32 (w.regionsScanned + 1), st⟩ := by
          simp only [WorkerRun.scan, hrun]
        rw [hw₁]
        by_cases hok : st = .ok
        · subst hok
          simp only [ne_eq, not_true_eq_false, if_false, pollCancel_eq_false hcancel,
            Bool.false_eq_true]
          have hsame := SameHits.tick b'
          obtain ⟨r, hrest, hgrew', hst'⟩ := ih (cursor + len) (remaining - len) hscan.2
            (w := WorkerRun.tick ⟨b', wrap32 (w.regionsScanned + 1), .ok⟩)
            (hsame.ready (hgrew.ready hw)) rfl
          exact ⟨_, .step hout hrest,
            hgrew.trans ((hsame.grew hgrew.valid).of_nil_left hgrew'), hst'⟩
        · simp only [hok, ne_eq, not_false_eq_true, if_true]
          exact ⟨_, .stop hout hok, hgrew, rfl⟩

include hcancel in
theorem mapLoop_ran (f : MapFilter) (maps : List MapEntry)
    (hscan : ∀ r ∈ f.ranges maps, AppendsAt env scanFn outcome r.1 r.2) {w : WorkerRun}
    (hw : w.builder.Ready env) (hst : w.status = .ok) :
    ∃ r, Outcomes outcome (f.ranges maps) r ∧ Ran w r (mapLoop env scanFn f maps w) := by
  induction maps generalizing w with
  | nil => exact ⟨_, .nil, .refl hw.toValid, hst⟩
  | cons map maps ih =>
    have htick : w.tick.builder.Ready env := (SameHits.tick w.builder).ready hw
    have hstart : Grew w.builder [] w.tick.builder := (SameHits.tick w.builder).grew hw.toValid
    rw [MapFilter.ranges, flatMap_cons, forall_mem_append] at hscan
    rw [mapLoop, if_neg (by simp [pollCancel_eq_false hcancel]), MapFilter.ranges,
      flatMap_cons]
    cases hclip : f.clip map with
    | none =>
      obtain ⟨r, hrest, hgrew, hst'⟩ := ih hscan.2 htick hst
      exact ⟨r, hrest, hstart.of_nil_left hgrew, hst'⟩
    | some range =>
      obtain ⟨start, len⟩ := range
      rw [hclip] at hscan
      obtain ⟨r₁, hseg, hgrew, hst'⟩ := segmentLoop_ran hcancel f.minMapLen (segmentFuel len)
        start len hscan.1 htick hst
      dsimp only
      generalize segmentLoop env scanFn f.minMapLen (segmentFuel len) start len w.tick = w₁ at *
      rw [hst']
      by_cases hok : r₁.2 = .ok
      · simp only [hok, ne_eq, not_true_eq_false, if_false, pollCancel_eq_false hcancel,
          Bool.false_eq_true]
        have hsame : SameHits w₁.builder w₁.tick.mapDone.builder := ⟨rfl, rfl, rfl, rfl, rfl⟩
        have hready := hgrew.ready htick
        obtain ⟨r₂, hrest, hgrew', hst''⟩ := ih hscan.2 (w := w₁.tick.mapDone)
          (hsame.ready hready) (hst'.trans hok)
        exact ⟨_, hseg.append hok hrest, hstart.of_nil_left
          (hgrew.trans ((hsame.grew hready.toValid).of_nil_left hgrew')), hst''⟩
      · simp only [hok, ne_eq, not_false_eq_true, if_true]
        exact ⟨r₁, hseg.append_of_ne hok, hstart.of_nil_left hgrew, hst'⟩

structure WorkerSpec (w : Worker) (maxResults : Nat) (r : List Nat × Status) : Prop where
  reported_eq : w.result.reported = r.1.take maxResults
  count_eq : w.result.count = (r.1.take maxResults).length
  truncated_eq : w.result.truncated = decide (maxResults < r.1.length)
  status_eq : w.status = r.2

include hcancel in
theorem parallelWorkerThread_spec (halloc : ∀ site, site ≠ .threads → env.alloc site = true)
    (f : MapFilter) {maxResults : Nat} (hmax : maxResults < 2 ^ 64) (progress : Option ScanProgress)
    (t now : Nat) (maps : List MapEntry)
    (hscan : ∀ r ∈ f.ranges maps, AppendsAt env scanFn outcome r.1 r.2) :
    ∃ r, Outcomes outcome (f.ranges maps) r ∧
      WorkerSpec (parallelWorkerThread env scanFn f maxResults progress t now maps)
        maxResults r := by
  have hready : (workerBuilder maxResults progress now).Ready env :=
    ⟨⟨.inl ⟨rfl, rfl⟩, Nat.le_refl _, Nat.zero_le _, hmax⟩, .inr fun n => halloc _ (by simp)⟩
  obtain ⟨r, hr, hgrew, hst⟩ := mapLoop_ran hcancel f maps hscan
    (w := ⟨workerBuilder maxResults progress now, 0, .ok⟩) hready rfl
  have hstored := hgrew.stored_eq
  rw [show (workerBuilder maxResults progress now).stored = [] from rfl, nil_append,
    show (workerBuilder maxResults progress now).maxResults = maxResults from rfl] at hstored
  rw [parallelWorkerThread, if_neg (by simp [halloc])]
  refine ⟨r, hr, hstored, ?_, ?_, hst⟩
  · rw [← hstored]
    exact hgrew.valid.length_stored.symm
  · rw [hgrew.truncated_eq]
    rfl

include hcancel in
theorem parallelWorkerThread_appends (hscan : Appends env scanFn hitsOf statusOf)
    (halloc : ∀ site, site ≠ .threads → env.alloc site = true) (f : MapFilter) {maxResults : Nat}
    (hmax : maxResults < 2 ^ 64) (progress : Option ScanProgress) (t now : Nat)
    (maps : List MapEntry) :
    WorkerSpec (parallelWorkerThread env scanFn f maxResults progress t now maps) maxResults
      (runRanges hitsOf statusOf (f.ranges maps)) := by
  have hdecided : ∀ range ∈ f.ranges maps, AppendsAt env scanFn
      (fun start len r => r = (hitsOf start len, statusOf start len)) range.1 range.2 := by
    intro range _ b hb
    obtain ⟨b', hrun, hgrew⟩ := hscan range.1 range.2 b hb
    exact ⟨_, b', rfl, hrun, hgrew⟩
  obtain ⟨r, hr, hspec⟩ := parallelWorkerThread_spec hcancel halloc f hmax progress t now maps
    hdecided
  exact hr.eq_runRanges ▸ hspec

end Worker

/-! ## Merging -/

section Merge

variable {maxResults : Nat}

theorem take_append_take (m : Nat) (xs : List Nat) {ys zs : List Nat}
    (h : ys.take m = zs.take m) : (xs.take m ++ ys).take m = (xs ++ zs).take m := by
  rcases Nat.le_total xs.length m with hle | hge
  · rw [take_of_length_le hle, take_append, take_append,
      show m - xs.length = min (m - xs.length) m by omega, ← take_take, ← take_take, h]
  · have hlen : m ≤ (xs.take m).length := by
      rw [length_take]
      omega
    rw [take_append_of_le_length hlen, take_append_of_le_length hge, take_take,
      Nat.min_self]

theorem mergeCopy_eq (totalCount : Nat) (workers : List Worker)
    (hcount : ∀ w ∈ workers, w.result.count = w.result.reported.length) (pos : Nat)
    (cells : List Nat) :
    mergeCopy totalCount workers pos cells =
      cells ++ (workers.flatMap fun w => w.result.reported).take (totalCount - pos) := by
  induction workers generalizing pos cells with
  | nil => simp [mergeCopy]
  | cons w workers ih =>
    have hw := hcount w (by simp)
    have hrest := fun v hv => hcount v (mem_cons_of_mem w hv)
    rw [mergeCopy, flatMap_cons]
    by_cases hpos : pos < totalCount
    · rw [if_pos hpos]
      by_cases hzero : w.result.count = 0
      · have hnil : w.result.reported = [] := length_eq_zero_iff.mp (by omega)
        rw [if_pos hzero, ih hrest, hnil, nil_append]
      · rw [if_neg hzero]
        rw [ih hrest, append_assoc, take_append, ← hw]
        split_ifs with hover
        · rw [show totalCount - (pos + (totalCount - pos)) = 0 by omega,
            show totalCount - pos - w.result.count = 0 by omega]
        · have hall : ∀ n, w.result.count ≤ n → w.result.reported.take n = w.result.reported :=
            fun n hn => take_of_length_le (by omega)
          rw [hall _ (Nat.le_refl _), hall _ (by omega), Nat.sub_sub]
    · rw [if_neg hpos, show totalCount - pos = 0 by omega, take_zero, append_nil]

abbrev WorkerSpecs (workers : List Worker) (maxResults : Nat) (rs : List (List Nat × Status)) :
    Prop :=
  List.Forall₂ (fun w r => WorkerSpec w maxResults r) workers rs

theorem WorkerSpecs.count_eq {workers : List Worker} {rs : List (List Nat × Status)}
    (h : WorkerSpecs workers maxResults rs) :
    ∀ w ∈ workers, w.result.count = w.result.reported.length := by
  induction h with
  | nil => exact fun w hw => absurd hw not_mem_nil
  | cons hw _ ih =>
    intro v hv
    rcases mem_cons.mp hv with rfl | hv
    · rw [hw.count_eq, hw.reported_eq]
    · exact ih v hv

theorem WorkerSpecs.take_reported {workers : List Worker} {rs : List (List Nat × Status)}
    (h : WorkerSpecs workers maxResults rs) :
    (workers.flatMap fun w => w.result.reported).take maxResults =
      (rs.flatMap Prod.fst).take maxResults := by
  induction h with
  | nil => rfl
  | cons hw _ ih =>
    rw [flatMap_cons, flatMap_cons, hw.reported_eq]
    exact take_append_take _ _ ih

theorem WorkerSpecs.truncated_iff {workers : List Worker} {rs : List (List Nat × Status)}
    (h : WorkerSpecs workers maxResults rs) :
    ((workers.map fun w => w.result.count).sum > maxResults ∨
      (workers.any fun w => w.result.truncated) = true) ↔
      maxResults < (rs.flatMap Prod.fst).length := by
  -- either no worker dropped a hit and the counts add up, or one did
  suffices hcases : (workers.any fun w => w.result.truncated) = false ∧
      (workers.map fun w => w.result.count).sum = (rs.flatMap Prod.fst).length ∨
      (workers.any fun w => w.result.truncated) = true ∧
        maxResults < (rs.flatMap Prod.fst).length by
    rcases hcases with ⟨h₁, h₂⟩ | ⟨h₁, h₂⟩
    · rw [h₁, h₂]
      simp
    · exact ⟨fun _ => h₂, fun _ => .inr h₁⟩
  induction h with
  | nil => exact .inl ⟨rfl, rfl⟩
  | @cons w r ws rs hw _ ih =>
    rw [any_cons, map_cons, sum_cons, flatMap_cons, length_append,
      hw.truncated_eq, hw.count_eq, length_take]
    by_cases hlt : maxResults < r.1.length
    · exact .inr ⟨by simp [hlt], by omega⟩
    · rcases ih with ⟨h₁, h₂⟩ | ⟨h₁, h₂⟩
      · exact .inl ⟨by simp [hlt, h₁], by omega⟩
      · exact .inr ⟨by simp [h₁], by omega⟩

theorem mergeMetrics_entries (workers : List Worker) (out : ScanResult) :
    (mergeMetrics workers out).entries = out.entries ∧
      (mergeMetrics workers out).truncated = out.truncated := by
  induction workers generalizing out with
  | nil => exact ⟨rfl, rfl⟩
  | cons w workers ih => exact ih _

theorem WorkerSpecs.length_reported {workers : List Worker} {rs : List (List Nat × Status)}
    (h : WorkerSpecs workers maxResults rs) :
    (workers.flatMap fun w => w.result.reported).length =
      (workers.map fun w => w.result.count).sum := by
  rw [length_flatMap]
  congr 1
  exact map_congr_left fun w hw => (h.count_eq w hw).symm

theorem mergeScanResults_spec {workers : List Worker} {rs : List (List Nat × Status)}
    (h : WorkerSpecs workers maxResults rs) (hmax : 0 < maxResults) :
    (mergeScanResults workers mergeTarget maxResults).reported =
        (rs.flatMap Prod.fst).take maxResults ∧
      ((mergeScanResults workers mergeTarget maxResults).truncated = true ↔
        maxResults < (rs.flatMap Prod.fst).length) := by
  obtain ⟨hentries, htruncated⟩ := mergeMetrics_entries workers mergeTarget
  rw [show mergeTarget.entries = .owned [] from rfl] at hentries
  rw [show mergeTarget.truncated = false from rfl] at htruncated
  have htake := h.take_reported
  have hlen := h.length_reported
  have hiff := h.truncated_iff
  simp only [mergeScanResults]
  generalize (workers.map fun w => w.result.count).sum = total at *
  have hcount : (if total > maxResults then maxResults else total) = min total maxResults := by
    split_ifs <;> omega
  rw [hcount]
  by_cases hzero : min total maxResults = 0
  · -- nothing was found, so nothing was dropped
    have hnil : (workers.flatMap fun w => w.result.reported) = [] :=
      length_eq_zero_iff.mp (by omega)
    rw [hnil, take_nil] at htake
    have hhits : rs.flatMap Prod.fst = [] := by
      rcases take_eq_nil_iff.mp htake.symm with h | h
      · omega
      · exact h
    rw [if_pos hzero, hhits]
    simp [ScanResult.reported, hentries, htruncated]
  · rw [if_neg hzero]
    constructor
    · rw [ScanResult.reported]
      dsimp only
      rw [mergeCopy_eq _ _ h.count_eq, nil_append, Nat.sub_zero, take_take, Nat.min_self,
        ← htake]
      rcases Nat.le_total total maxResults with hle | hge
      · rw [Nat.min_eq_left hle, take_of_length_le (by omega),
          take_of_length_le (by omega)]
      · rw [Nat.min_eq_right hge]
    · rw [← hiff]
      by_cases hover : total > maxResults
      · simp [hover]
      · simp [hover]

end Merge

/-! ## The whole scan -/

section Parallel

variable {env : Env} {threads : Threads} {scanFn : ScanFn} {hitsOf : Nat → Nat → List Nat}
  {statusOf : Nat → Nat → Status} {f : MapFilter} {maps : List MapEntry} {maxResults : Nat}
  {slots : List (Nat × Nat)}

theorem firstErr_eq {workers : List Worker} {rss : List (List (Nat × Nat))}
    (h : WorkerSpecs workers maxResults (rss.map (runRanges hitsOf statusOf))) :
    firstErr workers = (runRanges hitsOf statusOf rss.flatten).2 ∧
      (firstErr workers = .ok → (runRanges hitsOf statusOf rss.flatten).1 =
        (rss.map (runRanges hitsOf statusOf)).flatMap Prod.fst) := by
  induction rss generalizing workers with
  | nil =>
    obtain rfl := forall₂_nil_right_iff.mp h
    exact ⟨rfl, fun _ => rfl⟩
  | cons rs rss ih =>
    rw [map_cons] at h
    obtain ⟨w, ws, hw, hws, rfl⟩ := forall₂_cons_right_iff.mp h
    rw [flatten_cons, runRanges_append, firstErr, ← hw.status_eq]
    by_cases hok : w.status = .ok
    · obtain ⟨hst, hhits⟩ := ih hws
      simp only [hok, ne_eq, not_true_eq_false, if_false, map_cons, flatMap_cons]
      exact ⟨hst, fun h => by rw [hhits h]⟩
    · simp only [hok, ne_eq, not_false_eq_true, if_true]
      exact ⟨hw.status_eq, fun h => h.elim⟩

theorem ranges_slots
    (hslots : partitionMapsByBytes env (some maps) f scanParallelThreads = .ok slots) :
    (slots.map fun s => f.ranges (maps.extract s.1 s.2)).flatten = f.ranges maps := by
  rw [← flatMap_def]
  refine partition_flatMap hslots fun map hclip => ?_
  rw [hclip]

theorem slot_nonempty
    (hslots : partitionMapsByBytes env (some maps) f scanParallelThreads = .ok slots)
    {t : Nat} (ht : 0 < t) (hlt : t < slots.length) :
    (slots.getD t (0, 0)).1 < (slots.getD t (0, 0)).2 := by
  rcases partition_span hslots with rfl | ⟨first, hspan, -⟩
  · rw [length_singleton] at hlt
    omega
  · rw [getD_eq_getElem _ _ hlt]
    exact hspan.lt_of_mem (getElem_mem hlt)

theorem joined_eq_created_iff
    (hslots : partitionMapsByBytes env (some maps) f scanParallelThreads = .ok slots) :
    joinedThreads env threads slots = createdThreads env threads slots ↔
      ∀ t, 0 < t → t < slots.length → env.alloc .threads = false ∨ threads.create t = false →
        threads.fresh t = false := by
  have hinline : ∀ t, 0 < t → t < slots.length → (spawned env threads slots t = false ↔
      env.alloc .threads = false ∨ threads.create t = false) := by
    intro t h₁ h₂
    have hne := slot_nonempty hslots h₁ h₂
    rw [spawned, decide_eq_true hne, Bool.and_true, Bool.and_eq_false_iff]
  constructor
  · intro heq t h₁ h₂ hfail
    have hrange : t ∈ List.range' 1 (slots.length - 1) := by
      rw [mem_range'_1]
      omega
    have hspawn := (hinline t h₁ h₂).mpr hfail
    have hnot : t ∉ joinedThreads env threads slots := by
      rw [heq, createdThreads, mem_filter, hspawn]
      simp
    rw [joinedThreads, mem_filter, hspawn] at hnot
    simpa [hrange] using hnot
  · intro hclean
    refine filter_congr fun t ht => ?_
    rw [mem_range'_1] at ht
    split_ifs with hspawn
    · exact hspawn.symm
    · rw [Bool.not_eq_true] at hspawn
      rw [hspawn]
      exact hclean t (by omega) (by omega) ((hinline t (by omega) (by omega)).mp hspawn)

def SingleWorker (env : Env) (scanFn : ScanFn) (f : MapFilter) (progress : Option ScanProgress)
    (maps : List MapEntry) (hs : List Nat) (st : Status) : Prop :=
  ∀ limit t now, limit < 2 ^ 64 →
    (parallelWorkerThread env scanFn f limit progress t now maps).result.reported = hs.take limit ∧
      (parallelWorkerThread env scanFn f limit progress t now maps).status = st

/-- The parallel scan does what a single worker over all maps would do, and joins
exactly the threads it created. -/
def ParallelExact (env : Env) (threads : Threads) (scanFn : ScanFn) (maps : List MapEntry)
    (maxResults : Nat) (f : MapFilter) (progress : Option ScanProgress) (out : ScanResult) : Prop :=
  let run := scanMapsParallel env threads scanFn (some maps) maxResults f progress out
  ∃ hs st, SingleWorker env scanFn f progress maps hs st ∧ run.status = st ∧
    (st = .ok → run.out.reported = hs.take maxResults ∧
      (run.out.truncated = true ↔ maxResults < hs.length)) ∧
    run.joined = run.created

def usedSlots (env : Env) (maps : List MapEntry) (f : MapFilter) : Nat :=
  match partitionMapsByBytes env (some maps) f scanParallelThreads with
  | .ok slots => slots.length
  | .error _ => 0

theorem scanMapsParallel_run (threads : Threads) (hscan : Appends env scanFn hitsOf statusOf)
    (hcancel : ∀ now, env.cancelRequested now = false)
    (halloc : ∀ site, site ≠ .threads → env.alloc site = true) (hpos : 0 < maxResults)
    (hmax : maxResults < 2 ^ 64) (progress : Option ScanProgress) (out : ScanResult)
    (hslots : partitionMapsByBytes env (some maps) f scanParallelThreads = .ok slots) :
    ∃ st out', scanMapsParallel env threads scanFn (some maps) maxResults f progress out =
        ⟨st, out', createdThreads env threads slots, joinedThreads env threads slots⟩ ∧
      st = (runRanges hitsOf statusOf (f.ranges maps)).2 ∧
      (st = .ok → out'.reported = (runRanges hitsOf statusOf (f.ranges maps)).1.take maxResults ∧
        (out'.truncated = true ↔
          maxResults < (runRanges hitsOf statusOf (f.ranges maps)).1.length)) := by
  have hspecs : WorkerSpecs (slots.mapIdx fun t slot => parallelWorkerThread env scanFn f maxResults
      progress t (threads.startsAt t) (maps.extract slot.1 slot.2)) maxResults
      ((slots.map fun s => f.ranges (maps.extract s.1 s.2)).map (runRanges hitsOf statusOf)) := by
    rw [WorkerSpecs, forall₂_iff_get]
    refine ⟨by simp, fun i h₁ h₂ => ?_⟩
    simp only [get_eq_getElem, getElem_mapIdx, getElem_map]
    exact parallelWorkerThread_appends hcancel hscan halloc f hmax progress _ _ _
  have hfirst := firstErr_eq hspecs
  rw [ranges_slots hslots] at hfirst
  rw [scanMapsParallel, if_neg (by simp [halloc]), hslots]
  dsimp only
  rw [if_neg (by simp [halloc]), if_neg (by simp [halloc])]
  simp only [Option.getD_some]
  generalize (slots.mapIdx fun t slot => parallelWorkerThread env scanFn f maxResults
    progress t (threads.startsAt t) (maps.extract slot.1 slot.2)) = workers at *
  by_cases hok : firstErr workers = .ok
  · rw [if_neg (by simp [hok])]
    refine ⟨_, _, rfl, hok.symm.trans hfirst.1, fun _ => ?_⟩
    rw [hfirst.2 hok]
    exact mergeScanResults_spec hspecs hpos
  · rw [if_pos hok]
    exact ⟨_, _, rfl, hfirst.1, fun h => absurd h hok⟩

/-- **When the parallel scan is the sequential one.**  Exactly when the `threaded`
field of every worker that runs inline for want of a thread happens to be clear
in the fresh allocation. -/
theorem parallelExact_iff (hscan : Appends env scanFn hitsOf statusOf)
    (hcancel : ∀ now, env.cancelRequested now = false)
    (halloc : ∀ site, site ≠ .threads → env.alloc site = true) (hpos : 0 < maxResults)
    (hmax : maxResults < 2 ^ 64) (progress : Option ScanProgress) (out : ScanResult) :
    ParallelExact env threads scanFn maps maxResults f progress out ↔
      ∀ t, 0 < t → t < usedSlots env maps f →
        env.alloc .threads = false ∨ threads.create t = false → threads.fresh t = false := by
  obtain ⟨slots, hslots⟩ := partition_ok (halloc .partitionIndices (by simp))
    (halloc .partitionBytes (by simp)) maps f (Nat.le_of_ble_eq_true rfl : 1 ≤ scanParallelThreads)
  have hused : usedSlots env maps f = slots.length := by rw [usedSlots, hslots]
  have hsingle :
    SingleWorker env scanFn f progress maps (runRanges hitsOf statusOf (f.ranges maps)).1
      (runRanges hitsOf statusOf (f.ranges maps)).2 := fun limit t now hlimit =>
    have hspec := parallelWorkerThread_appends hcancel hscan halloc f hlimit progress t now maps
    ⟨hspec.reported_eq, hspec.status_eq⟩
  obtain ⟨st, out', hrun, hst, hok⟩ := scanMapsParallel_run threads hscan hcancel halloc hpos hmax
    progress out hslots
  rw [hused, ← joined_eq_created_iff hslots, ParallelExact, hrun]
  constructor
  · rintro ⟨hs, st', -, -, -, hjoined⟩
    exact hjoined
  · exact fun hjoined => ⟨_, _, hsingle, hst, fun h => hok (hst.trans h), hjoined⟩

end Parallel

/-! ## The exact scan as a scan function -/

def scanRangeCb (env : Env) (ctx : ScanContext) : ScanFn := fun start len b =>
  scanRange env ctx b start len start true

theorem appends_scanRangeCb {env : Env} {ctx : ScanContext} {mem : Nat → UInt8}
    (hcancel : ∀ now, env.cancelRequested now = false)
    (hreads : ∀ lo hi, ShortReads env ctx.pid mem lo hi) :
    Appends env (scanRangeCb env ctx)
      (fun start len => if scanBoundsValid start len ctx.valueLen then
        hits (exactHit mem ctx start) start (len + 1 - ctx.valueLen) else [])
      (fun start len => if scanBoundsValid start len ctx.valueLen then .ok else .errParam) := by
  intro start len b hb
  by_cases hbounds : scanBoundsValid start len ctx.valueLen = true
  · simp only [hbounds, if_true]
    exact scanRange_grew true hb hcancel hbounds (Nat.le_refl start) (hreads _ _)
  · simp only [hbounds, Bool.false_eq_true, if_false]
    exact ⟨b, by rw [scanRangeCb, scanRange, if_neg hbounds], .refl hb.toValid⟩

def fourMaps : List MapEntry := [⟨0, 4, 1⟩, ⟨8, 12, 1⟩, ⟨16, 20, 1⟩, ⟨24, 28, 1⟩]

def readFilter : MapFilter := ⟨mapProtRead, 0, 0, 2⟩

def noThreads (stale : Bool) : Threads := ⟨fun _ => false, fun _ => stale, fun _ => 0⟩

def pairMemory (a : Nat) : UInt8 := if a % 2 = 0 then 7 else 9

theorem parallelExact_iff_inline :
    ParallelExact (.readable .host pairMemory fun _ n => n) (noThreads false)
      (scanRangeCb (.readable .host pairMemory fun _ n ↦ n) pairContext) fourMaps 16 readFilter none
      .zero :=
  (parallelExact_iff (appends_scanRangeCb (fun _ => rfl)
    fun lo hi => shortReads_readable .host pairMemory _ pairContext.pid_pos lo hi)
    (fun _ => rfl) (fun _ _ => rfl) (by decide) (by decide) none .zero).mpr fun _ _ _ _ => rfl

theorem parallelExact_stale_join :
    (scanMapsParallel (.readable .host pairMemory fun _ n => n) (noThreads true)
        (scanRangeCb (.readable .host pairMemory fun _ n => n) pairContext) (some fourMaps) 16
        readFilter none .zero).created = [] ∧
      (scanMapsParallel (.readable .host pairMemory fun _ n => n) (noThreads true)
        (scanRangeCb (.readable .host pairMemory fun _ n => n) pairContext) (some fourMaps) 16
        readFilter none .zero).joined = [1] ∧
      ¬ ParallelExact (.readable .host pairMemory fun _ n => n) (noThreads true)
        (scanRangeCb (.readable .host pairMemory fun _ n => n) pairContext) fourMaps 16
          readFilter none
        .zero := by
  have hslots : partitionMapsByBytes (.readable .host pairMemory fun _ n => n) (some fourMaps)
      readFilter scanParallelThreads = .ok [(0, 2), (2, 4)] := by rfl
  have hcreated : createdThreads (.readable .host pairMemory fun _ n => n) (noThreads true)
      [(0, 2), (2, 4)] = [] := by decide
  have hjoined : joinedThreads (.readable .host pairMemory fun _ n => n) (noThreads true)
      [(0, 2), (2, 4)] = [1] := by decide
  obtain ⟨st, out', hrun, -, -⟩ := scanMapsParallel_run (noThreads true)
    (appends_scanRangeCb (fun _ => rfl)
      fun lo hi => shortReads_readable .host pairMemory (fun _ n => n) pairContext.pid_pos lo hi)
    (fun _ => rfl) (fun _ _ => rfl) (show 0 < 16 by decide) (by decide) none .zero hslots
  rw [hcreated, hjoined] at hrun
  refine ⟨by rw [hrun], by rw [hrun], ?_⟩
  rintro ⟨hs, st', -, -, -, heq⟩
  rw [hrun] at heq
  exact absurd heq (by simp)

end MemDbg.Scan
