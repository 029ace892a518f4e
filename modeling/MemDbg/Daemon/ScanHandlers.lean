import MemDbg.Scan.Api

/-!
# The scan request handlers

Every scan handler declares a result struct on its stack without initialising
it, passes it to an entry point, and frees it whatever the entry point returned.
That is safe exactly if the entry point leaves the `entries` pointer assigned,
which `freeable_iff` decides for all seven of them.
-/

namespace MemDbg.Daemon

open Lib Scan

inductive ScanCall where
  | exact (request : ExactRequest)
  | processExact (request : ProcessExactRequest)
  | processExactTracked (request : ProcessExactRequest) (progress : ScanProgress)
  | aob (request : AobRequest) (pattern mask : List UInt8)
  | processAob (request : ProcessAobRequest) (pattern mask : List UInt8)
  | pointer (request : PointerRequest)
  | unknown (request : UnknownRequest)

namespace ScanCall

def run (w : World) (out : ScanResult) : ScanCall → Option (Status × ScanResult)
  | exact request => memdbgScanExact w.env request out
  | processExact request => memdbgScanProcessExact w request out
  | processExactTracked request progress => memdbgScanProcessExactTracked w request progress out
  | aob request pattern mask => memdbgScanAob w.env request pattern mask out
  | processAob request pattern mask => memdbgScanProcessAob w request pattern mask out
  | pointer request => memdbgScanPointer w request out
  | unknown request => memdbgScanUnknown w request out

/-- The checks of the handler before the call. -/
def Reaches : ScanCall → Prop
  | aob request _ _ => 0 < request.patternLength ∧ request.patternLength ≤ 256
  | processAob request _ _ => 0 < request.patternLength ∧ request.patternLength ≤ 256
  | pointer request => request.length ≠ 0 ∧ request.length ≤ 2 ^ 64 - 1 - request.start
  | _ => True

/-- The calls whose entry point assigns the result: always, except that the AOB and
the pointer scan check their arguments first, and that the tracked scan leaves
the clearing to `scan_maps_parallel`, behind its first allocations. -/
def Clears (w : World) : ScanCall → Prop
  | aob request _ _ =>
    scanBoundsValid request.start request.length request.patternLength = true
  | pointer request =>
    request.maxDepth ≠ 0 ∧ 0 < request.pid ∧
      scanBoundsValid request.start request.length 8 = true
  | processExactTracked request _ =>
    let valueLen := expectedValueLength request.value.valueType request.value.valueLength
    (0 < request.pid ∧ 0 < valueLen ∧ valueLen ≤ scanValueMax) ∧
      ∃ maps slots, w.processMaps request.pid = .ok maps ∧
        partitionMapsByBytes w.env maps (request.filter valueLen) scanParallelThreads = .ok slots ∧
        w.env.alloc .slots = true ∧ w.env.alloc .workers = true
  | _ => True

end ScanCall

def handleScan (w : World) (uninitialised : ScanResult) (sendScanResult : ScanResult → Status)
    (call : ScanCall) : Option Status :=
  match call.run w uninitialised with
  | none => none
  | some (st, out) =>
    let st := if st = .ok then sendScanResult out else st
    (scanResultFree out).map fun _ => st

/-! ## Assigned results -/

def Assigned (out : ScanResult) : Prop := out.entries ≠ .indeterminate

/-- The entry point returned, and left the result assigned. -/
def Freeable (r : Option (Status × ScanResult)) : Prop :=
  ∃ st out, r = some (st, out) ∧ Assigned out

theorem assigned_zero : Assigned .zero := by
  unfold Assigned
  decide

variable {out : ScanResult}

theorem freeable_some {st : Status} :
    Freeable (some (st, out)) ↔ Assigned out := by
  constructor
  · rintro ⟨st', out', heq, h⟩
    obtain ⟨-, rfl⟩ := Prod.mk.inj (Option.some.inj heq)
    exact h
  · exact fun h => ⟨st, out, rfl, h⟩

theorem assigned_setElapsed {startNs endNs : Nat} :
    Assigned (out.setElapsed startNs endNs) ↔ Assigned out := by
  rw [Assigned, ScanResult.entries_setElapsed, Assigned]

theorem assigned_markCancelled {cancelled : Bool} :
    Assigned (out.markCancelled cancelled) ↔ Assigned out := by
  unfold ScanResult.markCancelled
  split_ifs <;> rfl

theorem scanResultFree_of_assigned (h : Assigned out) :
    scanResultFree out = some .zero := by
  unfold scanResultFree
  split
  · exact absurd ‹_› h
  · rfl

theorem freeable_finishScan {st : Status} :
    Freeable (finishScan st out) ↔ Assigned out := by
  unfold finishScan
  split_ifs with hst
  · constructor
    · rintro ⟨st', out', heq, -⟩
      rintro hind
      simp [scanResultFree, hind] at heq
    · intro h
      rw [scanResultFree_of_assigned h]
      exact freeable_some.mpr assigned_zero
  · exact freeable_some

theorem handleScan_isSome_iff (w : World) (uninitialised : ScanResult)
    (sendScanResult : ScanResult → Status) (call : ScanCall) :
    (handleScan w uninitialised sendScanResult call).isSome = true ↔
      Freeable (call.run w uninitialised) := by
  unfold handleScan
  cases call.run w uninitialised with
  | none =>
    constructor
    · exact fun h => absurd h (by simp)
    · rintro ⟨st, out, heq, -⟩
      exact absurd heq (by simp)
  | some r =>
    obtain ⟨st, out⟩ := r
    rw [freeable_some]
    rw [Option.isSome_map]
    constructor
    · rintro h hind
      simp [scanResultFree, hind] at h
    · intro h
      rw [scanResultFree_of_assigned h]
      rfl

/-! ## The scans keep an assigned result assigned -/

def Keeps (f : ScanBuilder → Status × ScanBuilder) : Prop :=
  ∀ b, Assigned b.result → Assigned (f b).2.result

theorem assigned_of_sameHits {b b' : ScanBuilder} (h : SameHits b b') (hb : Assigned b.result) :
    Assigned b'.result := by
  rw [Assigned, h.entries_eq]
  exact hb

theorem keeps_scanBuilderAppend (env : Env) (address : Nat) :
    Keeps fun b => scanBuilderAppend env b address := by
  intro b hb
  have hstore : ∀ b' : ScanBuilder, Assigned (b'.store address).result := by
    intro b'
    unfold Assigned ScanBuilder.store
    cases b'.result.entries <;> simp
  have hnote : Assigned b.noteFound.result := hb
  unfold scanBuilderAppend
  dsimp only
  split_ifs
  · exact hnote
  · exact hnote
  · exact hstore _
  · exact hnote
  · exact hstore _

theorem Assigned.andThen {r : Status × ScanBuilder} {k : ScanBuilder → Status × ScanBuilder}
    (hr : Assigned r.2.result) (hk : Keeps k) :
    Assigned (match r with
      | (.ok, b) => k b
      | r => r).2.result := by
  obtain ⟨st, b⟩ := r
  cases st with
  | ok => exact hk b hr
  | _ => exact hr

section Loops

variable {env : Env}

theorem keeps_memchrLoop (buffer : List UInt8) (c : UInt8) (baseAddr searchable fuel pos : Nat) :
    Keeps (memchrLoop env buffer c baseAddr searchable fuel pos) := by
  induction fuel generalizing pos with
  | zero => exact fun b hb => hb
  | succ fuel ih =>
    intro b hb
    rw [memchrLoop]
    split_ifs
    · cases memchr buffer pos (searchable - pos) c with
      | none => exact hb
      | some i => exact .andThen (keeps_scanBuilderAppend env (baseAddr + i) b hb) (ih _)
    · exact hb

theorem keeps_alignedLoop (ctx : ScanContext) (buffer : List UInt8)
    (baseAddr rangeEnd searchable fuel i : Nat) :
    Keeps (alignedLoop env ctx buffer baseAddr rangeEnd searchable fuel i) := by
  induction fuel generalizing i with
  | zero => exact fun b hb => hb
  | succ fuel ih =>
    intro b hb
    rw [alignedLoop]
    dsimp only
    split_ifs
    · exact hb
    · exact .andThen (keeps_scanBuilderAppend env (baseAddr + i) b hb) (ih _)
    · exact ih _ _ hb
    · exact hb

theorem keeps_aobSearch (bm : BmTable) (pattern mask : List UInt8) (patLen : Nat)
    (hay : List UInt8) (baseAddr fuel i : Nat) :
    Keeps (aobSearch env bm pattern mask patLen hay baseAddr fuel i) := by
  induction fuel generalizing i with
  | zero => exact fun b hb => hb
  | succ fuel ih =>
    intro b hb
    rw [aobSearch]
    split_ifs
    · cases aobMismatch pattern mask hay patLen i patLen with
      | none =>
        exact .andThen (keeps_scanBuilderAppend env (baseAddr + (i + 1 - patLen)) b hb) (ih _)
      | some j => exact ih _ _ hb
    · exact hb

theorem keeps_unknownLoop (uc : UnknownScanContext) (buffer : List UInt8)
    (baseAddr rangeEnd fuel pos : Nat) :
    Keeps (unknownLoop env uc buffer baseAddr rangeEnd fuel pos) := by
  induction fuel generalizing pos with
  | zero => exact fun b hb => hb
  | succ fuel ih =>
    intro b hb
    have hnext : Keeps fun b => if 2 ^ 64 - 1 - pos < uc.alignment then (.ok, b)
        else unknownLoop env uc buffer baseAddr rangeEnd fuel (pos + uc.alignment) b := by
      intro b hb
      dsimp only
      by_cases hover : 2 ^ 64 - 1 - pos < uc.alignment
      · rw [if_pos hover]
        exact hb
      · rw [if_neg hover]
        exact ih _ _ hb
    rw [unknownLoop]
    by_cases hin : pos ≤ buffer.length ∧ uc.valueLen ≤ buffer.length - pos
    · rw [if_pos hin]
      by_cases hend : baseAddr + pos > rangeEnd ∨ uc.valueLen > rangeEnd - (baseAddr + pos)
      · rw [if_pos hend]
        exact hb
      · rw [if_neg hend]
        refine .andThen ?_ hnext
        by_cases hcand : unknownValueIsCandidate (buffer.drop pos) uc.valueLen uc.flags = true
        · rw [if_pos hcand]
          exact keeps_scanBuilderAppend env (baseAddr + pos) b hb
        · rw [if_neg hcand]
          exact hb
    · rw [if_neg hin]
      exact hb

theorem keeps_pointerLoop (target alignment mend : Nat) (buffer : List UInt8)
    (baseAddr fuel i : Nat) :
    Keeps (pointerLoop env target alignment mend buffer baseAddr fuel i) := by
  induction fuel generalizing i with
  | zero => exact fun b hb => hb
  | succ fuel ih =>
    intro b hb
    rw [pointerLoop]
    by_cases hin : i + 8 ≤ buffer.length
    · rw [if_pos hin]
      by_cases hend : baseAddr + i > mend ∨ 8 > mend - (baseAddr + i)
      · rw [if_pos hend]
        exact hb
      · rw [if_neg hend]
        refine .andThen ?_ (ih _)
        by_cases htarget : leNat ((buffer.drop i).take 8) = target
        · rw [if_pos htarget]
          exact keeps_scanBuilderAppend env (baseAddr + i) b hb
        · rw [if_neg htarget]
          exact hb
    · rw [if_neg hin]
      exact hb

theorem keeps_chunkLoop {c : ChunkScan}
    (hwindow : ∀ buffer base, Keeps fun b => c.window b buffer base)
    (start length fuel scanned : Nat) (carry : List UInt8) :
    Keeps (chunkLoop env c start length fuel scanned carry) := by
  induction fuel generalizing scanned carry with
  | zero => exact fun b hb => hb
  | succ fuel ih =>
    intro b hb
    rw [chunkLoop]
    by_cases hlt : scanned < length
    · rw [if_pos hlt]
      by_cases hpoll : (c.pollsCancel && b.pollCancel env) = true
      · rw [if_pos hpoll]
        exact hb
      · rw [if_neg hpoll]
        have hread : Assigned (scanMemoryReadResilient env c.pid (start + scanned)
            (scanReadSize (length - scanned) c.chunk) b.tick).1.result :=
          assigned_of_sameHits (SameHits.scanMemoryReadResilient env c.pid (start + scanned)
            (scanReadSize (length - scanned) c.chunk) b.tick) hb
        dsimp only
        generalize scanMemoryReadResilient env c.pid (start + scanned)
          (scanReadSize (length - scanned) c.chunk) b.tick = r at hread ⊢
        obtain ⟨b₁, outcome⟩ := r
        cases outcome with
        | failed st =>
          dsimp only
          split
          · exact ih _ _ _ hread
          · exact hread
        | done bytes =>
          dsimp only
          split
          · exact hread
          · exact .andThen (hwindow (carry ++ bytes) (start + scanned - carry.length)
              (b₁.countBytes c.reportsBytes bytes.length) hread) (ih _ _)
    · rw [if_neg hlt]
      exact hb

theorem keeps_scanRange (ctx : ScanContext) (rangeStart rangeLen alignmentBase : Nat)
    (skipReadErrors : Bool) :
    Keeps fun b => scanRange env ctx b rangeStart rangeLen alignmentBase skipReadErrors := by
  intro b hb
  dsimp only [scanRange]
  split_ifs
  · refine keeps_chunkLoop (fun buffer base b hb => ?_) _ _ _ _ _ b hb
    dsimp only [exactChunkScan, scanWindow]
    split_ifs
    · exact hb
    · exact keeps_memchrLoop _ _ _ _ _ _ b hb
    · exact hb
    · exact keeps_alignedLoop _ _ _ _ _ _ _ b hb
  · exact hb

theorem keeps_scanAobRange (bm : BmTable) (pattern mask : List UInt8) (patLen : Nat) (pid : Int)
    (rangeStart rangeLen : Nat) :
    Keeps (scanAobRange env bm pattern mask patLen pid rangeStart rangeLen) := by
  intro b hb
  rw [scanAobRange]
  split_ifs
  · exact hb
  · exact keeps_chunkLoop (fun buffer base b hb => keeps_aobSearch _ _ _ _ _ _ _ _ b hb) _ _
      _ _ _ b hb

theorem keeps_scanUnknownRange (uc : UnknownScanContext) (pid : Int)
    (start len alignmentBase : Nat) :
    Keeps (scanUnknownRange env uc pid start len alignmentBase) := by
  intro b hb
  rw [scanUnknownRange]
  split_ifs
  · exact hb
  · refine keeps_chunkLoop (fun buffer base b hb => ?_) _ _ _ _ _ b hb
    dsimp only [unknownChunkScan]
    split_ifs
    · exact hb
    · exact keeps_unknownLoop _ _ _ _ _ _ b hb

theorem keeps_unknownMapLoop (uc : UnknownScanContext) (request : UnknownRequest)
    (maps : List MapEntry) (budget : Nat) : Keeps (unknownMapLoop env uc request maps budget) := by
  induction maps generalizing budget with
  | nil => exact fun b hb => hb
  | cons map maps ih =>
    intro b hb
    rw [unknownMapLoop]
    split
    · exact ih _ b hb
    · next start len _ =>
      split
      · exact hb
      · generalize (if len < budget then len else budget) = unitLen
        have hcut : Assigned (if unitLen < len then b.setTruncated else b).result := by
          split
          · exact hb
          · exact hb
        refine .andThen (keeps_scanUnknownRange uc request.pid start unitLen map.start _ hcut)
          fun b hb => ?_
        split
        · split
          · exact hb
          · exact hb
        · exact ih _ b hb

theorem keeps_pointerMapLoop (env : Env) (request : PointerRequest) (alignment : Nat)
    (maps : List MapEntry) :
    Keeps (pointerMapLoop env request alignment maps) := by
  induction maps with
  | nil => exact fun b hb => hb
  | cons map maps ih =>
    intro b hb
    rw [pointerMapLoop]
    cases request.clip map with
    | none => exact ih b hb
    | some range =>
      obtain ⟨mstart, mend⟩ := range
      refine .andThen ?_ ih
      refine keeps_chunkLoop (fun buffer base b hb => ?_) _ _ _ _ _ b.countRegion hb
      dsimp only [pointerChunkScan]
      split
      · exact keeps_pointerLoop _ _ _ _ _ _ _ b hb
      · exact hb

end Loops

/-! ## The entry points -/

theorem assigned_mergeScanResults (workers : List Worker) (maxResults : Nat) :
    Assigned (mergeScanResults workers mergeTarget maxResults) := by
  have hentries := (mergeMetrics_entries workers mergeTarget).1
  rw [show mergeTarget.entries = .owned [] from rfl] at hentries
  unfold Assigned mergeScanResults
  by_cases hzero : (if (workers.map fun w => w.result.count).sum > maxResults then maxResults
      else (workers.map fun w => w.result.count).sum) = 0
  · rw [if_pos hzero]
    rw [hentries]
    simp
  · rw [if_neg hzero]
    simp

theorem assigned_scanMapsParallel (env : Env) (threads : Threads) (scanFn : ScanFn)
    (maps : Option (List MapEntry)) (maxResults : Nat) (f : MapFilter)
    (progress : Option ScanProgress) (out : ScanResult) :
    Assigned (scanMapsParallel env threads scanFn maps maxResults f progress out).out ↔
      Assigned out ∨ ∃ slots, partitionMapsByBytes env maps f scanParallelThreads = .ok slots ∧
        env.alloc .slots = true ∧ env.alloc .workers = true := by
  unfold scanMapsParallel
  cases hslots : env.alloc .slots with
  | false => simp
  | true =>
    cases hpart : partitionMapsByBytes env maps f scanParallelThreads with
    | error st => simp
    | ok slots =>
      cases hworkers : env.alloc .workers with
      | false => simp
      | true =>
        simp only [Bool.true_eq_false, if_false, and_self, and_true, Except.ok.injEq,
          exists_eq', or_true, iff_true]
        split
        · exact assigned_zero
        · split
          · exact assigned_zero
          · exact assigned_mergeScanResults _ _

theorem assigned_prealloc (env : Env) (maxResults : Nat) :
    Assigned (scanBuilderPrealloc env (.init .zero maxResults)).2.result := by
  unfold scanBuilderPrealloc Assigned
  split_ifs <;> simp [ScanBuilder.init, ScanResult.zero]

theorem Freeable.afterPrealloc {env : Env} {maxResults : Nat}
    {k : ScanBuilder → Option (Status × ScanResult)}
    (hk : ∀ b, Assigned b.result → Freeable (k b)) :
    Freeable (match scanBuilderPrealloc env (.init .zero maxResults) with
      | (.ok, b) => k b
      | (st, b) => some (st, b.result)) := by
  have hpre := assigned_prealloc env maxResults
  generalize scanBuilderPrealloc env (.init .zero maxResults) = r at hpre ⊢
  obtain ⟨st, b⟩ := r
  cases st with
  | ok => exact hk b hpre
  | _ => exact freeable_some.mpr hpre

theorem freeable_exact (env : Env) (request : ExactRequest) (out : ScanResult) :
    Freeable (memdbgScanExact env request out) := by
  unfold memdbgScanExact
  split
  · exact freeable_some.mpr assigned_zero
  · split
    · exact freeable_some.mpr assigned_zero
    · split
      · exact freeable_some.mpr assigned_zero
      · refine .afterPrealloc fun b hb => ?_
        rw [freeable_finishScan, assigned_setElapsed]
        exact keeps_scanRange _ _ _ _ _ _ hb

theorem freeable_processExact (w : World) (request : ProcessExactRequest) (out : ScanResult) :
    Freeable (memdbgScanProcessExact w request out) := by
  unfold memdbgScanProcessExact
  split
  · exact freeable_some.mpr assigned_zero
  · split
    · exact freeable_some.mpr assigned_zero
    · dsimp only
      rw [freeable_finishScan, assigned_setElapsed, assigned_scanMapsParallel]
      exact .inl assigned_zero

theorem freeable_processAob (w : World) {request : ProcessAobRequest}
    (hpos : 0 < request.patternLength) (hle : request.patternLength ≤ 256)
    (pattern mask : List UInt8) (out : ScanResult) :
    Freeable (memdbgScanProcessAob w request pattern mask out) := by
  unfold memdbgScanProcessAob
  rw [if_neg (by omega)]
  split
  · exact freeable_some.mpr assigned_zero
  · dsimp only
    rw [freeable_finishScan, assigned_setElapsed, assigned_scanMapsParallel]
    exact .inl assigned_zero

theorem freeable_unknown (w : World) (request : UnknownRequest) (out : ScanResult) :
    Freeable (memdbgScanUnknown w request out) := by
  have hzero : ∀ st, Freeable (some (st, .zero)) := fun st => freeable_some.mpr assigned_zero
  unfold memdbgScanUnknown
  dsimp only
  -- five early returns with a cleared result, then the maps
  split
  · exact hzero _
  · split
    · exact hzero _
    · split
      · exact hzero _
      · split
        · exact hzero _
        · split
          · exact hzero _
          · cases w.processMaps request.pid with
            | error st => exact hzero _
            | ok maps =>
              rw [freeable_finishScan, assigned_setElapsed]
              exact keeps_unknownMapLoop _ _ _ _ _ assigned_zero

theorem freeable_aob_iff (env : Env) {request : AobRequest} (hpos : 0 < request.patternLength)
    (pattern mask : List UInt8) (hout : ¬ Assigned out) :
    Freeable (memdbgScanAob env request pattern mask out) ↔
      scanBoundsValid request.start request.length request.patternLength = true := by
  unfold memdbgScanAob
  cases hbounds : scanBoundsValid request.start request.length request.patternLength with
  | false =>
    simp only [if_true, ite_self, freeable_some, Bool.false_eq_true, iff_false]
    exact hout
  | true =>
    obtain ⟨hlen, -, -, -⟩ := scanBoundsValid_iff.mp hbounds
    rw [if_neg (by omega), if_neg (by decide)]
    refine iff_of_true ?_ rfl
    split
    · exact freeable_some.mpr assigned_zero
    · refine .afterPrealloc fun b hb => ?_
      rw [freeable_finishScan]
      exact assigned_setElapsed.mpr (keeps_scanAobRange _ _ _ _ _ _ _ _ hb)

theorem freeable_pointer_iff (w : World) {request : PointerRequest} (hlen : request.length ≠ 0)
    (hout : ¬ Assigned out) :
    Freeable (memdbgScanPointer w request out) ↔ request.maxDepth ≠ 0 ∧ 0 < request.pid ∧
      scanBoundsValid request.start request.length 8 = true := by
  unfold memdbgScanPointer
  by_cases hdepth : request.maxDepth = 0
  · rw [if_pos (.inr hdepth), freeable_some]
    exact iff_of_false hout fun h => h.1 hdepth
  by_cases hpid : request.pid ≤ 0
  · rw [if_neg (by omega), if_pos hpid, freeable_some]
    exact iff_of_false hout fun h => absurd h.2.1 (by omega)
  rw [if_neg (by omega), if_neg hpid]
  cases hbounds : scanBoundsValid request.start request.length 8 with
  | false =>
    rw [if_pos rfl, freeable_some]
    exact iff_of_false hout fun h => absurd h.2.2 (by decide)
  | true =>
    rw [if_neg (by decide)]
    refine iff_of_true ?_ ⟨hdepth, by omega, rfl⟩
    split
    · exact freeable_some.mpr assigned_zero
    · split
      · exact freeable_some.mpr assigned_zero
      · split
        · exact freeable_some.mpr assigned_zero
        · refine .afterPrealloc fun b hb => ?_
          have hloop := keeps_pointerMapLoop w.env request
            (if request.alignment = 0 then 8 else request.alignment) (Option.getD ‹_› []) b.tick hb
          dsimp only
          generalize pointerMapLoop w.env request
            (if request.alignment = 0 then 8 else request.alignment) _ b.tick = r at hloop ⊢
          obtain ⟨st, b'⟩ := r
          cases st with
          | ok => exact freeable_some.mpr (assigned_setElapsed.mpr hloop)
          | _ => exact freeable_some.mpr hloop

theorem freeable_tracked_iff (w : World) (request : ProcessExactRequest) (progress : ScanProgress)
    (hout : ¬ Assigned out) :
    Freeable (memdbgScanProcessExactTracked w request progress out) ↔
      ScanCall.Clears w (.processExactTracked request progress) := by
  unfold memdbgScanProcessExactTracked ScanCall.Clears
  rcases scanContextInit_cases w.env request.pid request.value (scanChunk w.env.platform)
    (scanChunk_pos w.env.platform) with ⟨ctx, hctx, hlen, hvalid⟩ | ⟨st, hctx, hinvalid⟩
  · rw [hctx]
    dsimp only
    rw [and_iff_right hvalid]
    cases hmaps : w.processMaps request.pid with
    | error st =>
      rw [freeable_some]
      refine iff_of_false hout ?_
      rintro ⟨maps, slots, heq, -⟩
      exact absurd heq (by simp)
    | ok maps =>
      rw [freeable_finishScan, assigned_markCancelled, assigned_setElapsed,
        assigned_scanMapsParallel, or_iff_right hout, hlen]
      constructor
      · rintro ⟨slots, h⟩
        exact ⟨maps, slots, rfl, h⟩
      · rintro ⟨maps', slots, heq, h⟩
        obtain rfl := Except.ok.inj heq
        exact ⟨slots, h⟩
  · rw [hctx]
    rw [freeable_some]
    exact iff_of_false hout fun h => hinvalid h.1

/-- **When a scan result can be freed.**  An entry point called by its handler with
an uninitialised struct leaves a freeable result, and the handler's own free is
safe, exactly for the calls that clear the struct. -/
theorem freeable_iff (w : World) (call : ScanCall) (hreach : call.Reaches)
    {uninitialised : ScanResult} (hout : uninitialised.entries = .indeterminate)
    (sendScanResult : ScanResult → Status) :
    (Freeable (call.run w uninitialised) ∧
      (handleScan w uninitialised sendScanResult call).isSome = true) ↔ call.Clears w := by
  rw [handleScan_isSome_iff, and_self]
  have hnot : ¬ Assigned uninitialised := fun h => h hout
  cases call with
  | exact request => exact iff_of_true (freeable_exact w.env request uninitialised) trivial
  | processExact request =>
    exact iff_of_true (freeable_processExact w request uninitialised) trivial
  | processExactTracked request progress => exact freeable_tracked_iff w request progress hnot
  | aob request pattern mask => exact freeable_aob_iff w.env hreach.1 pattern mask hnot
  | processAob request pattern mask =>
    exact iff_of_true (freeable_processAob w hreach.1 hreach.2 pattern mask uninitialised) trivial
  | pointer request => exact freeable_pointer_iff w hreach.1 hnot
  | unknown request => exact iff_of_true (freeable_unknown w request uninitialised) trivial

def garbage : ScanResult := { ScanResult.zero with entries := .indeterminate }

def idleWorld : World :=
  ⟨.readable .host (fun _ => 0) fun _ n => n, noThreads false, none, fun _ => .ok none⟩

def pointerRequest (maxDepth : Nat) : PointerRequest := ⟨1, 4096, 64, 0, maxDepth, 8, 8⟩

theorem freeable_iff_pointer :
    Freeable ((ScanCall.pointer (pointerRequest 1)).run idleWorld garbage) ∧
      (handleScan idleWorld garbage (fun _ => .ok) (.pointer (pointerRequest 1))).isSome = true :=
  (freeable_iff idleWorld (.pointer (pointerRequest 1)) ⟨by decide, by decide⟩ rfl fun _ => .ok).mpr
    ⟨by decide, by decide, by decide⟩

def noProcessRequest : ProcessExactRequest :=
  ⟨0, ⟨.u32, 4, 4, List.replicate 16 0, four_lt_word, rfl⟩, 8, 0, 0, 0⟩

def emptyRangeRequest : AobRequest := ⟨1, 4096, 0, 8, 1, eight_lt_word, one_lt_word⟩

theorem freeable_garbage_freed :
    (ScanCall.pointer (pointerRequest 0)).Reaches ∧
      handleScan idleWorld garbage (fun _ => .ok) (.pointer (pointerRequest 0)) = none ∧
      handleScan idleWorld garbage (fun _ => .ok)
        (.processExactTracked noProcessRequest ⟨0, 0, 0, 0⟩) = none ∧
      (ScanCall.aob emptyRangeRequest [0] [0]).Reaches ∧
      handleScan idleWorld garbage (fun _ => .ok) (.aob emptyRangeRequest [0] [0]) = none := by
  exact ⟨⟨by decide, by decide⟩, rfl, rfl, ⟨by decide, by decide⟩, rfl⟩

end MemDbg.Daemon
