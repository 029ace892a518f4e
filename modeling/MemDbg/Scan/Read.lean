import MemDbg.Lib.Bytes
import MemDbg.Scan.Result

/-!
# Defensive memory reads

`memdbg_memory_read` and the helpers of `builder.c` that decide how much is read
and what happens when a read fails: the request is halved down to
`MEMDBG_SCAN_MIN_READ_CHUNK` bytes and given up after that.
-/

namespace MemDbg.Scan

open Lib

def memoryRead (env : Env) (pid : Int) (now address length : Nat) : ReadOutcome :=
  if pid ≤ 0 then .failed ⟨.errParam, errParam_ne_ok⟩
  else if length = 0 then .done []
  else env.palRead now address length

def scanReadSize (remaining chunkSize : Nat) : Nat :=
  if remaining > chunkSize then chunkSize else remaining

def scanFaultSkipSize (requested : Nat) : Nat :=
  if requested = 0 then 0
  else if requested < scanMinReadChunk then requested
  else scanMinReadChunk

def scanBoundsValid (start length minLength : Nat) : Bool :=
  if length = 0 ∨ length < minLength then false
  else if length > scanMaxLength then false
  else if 2 ^ 64 - 1 - start < length then false
  else true

theorem scanBoundsValid_iff {start length minLength : Nat} :
    scanBoundsValid start length minLength = true ↔
      0 < length ∧ minLength ≤ length ∧ length ≤ scanMaxLength ∧ length ≤ 2 ^ 64 - 1 - start := by
  unfold scanBoundsValid
  split_ifs <;> simp <;> omega

theorem scanReadSize_le_remaining (remaining chunkSize : Nat) :
    scanReadSize remaining chunkSize ≤ remaining := by
  unfold scanReadSize
  split_ifs <;> omega

theorem scanReadSize_le_chunk (remaining chunkSize : Nat) :
    scanReadSize remaining chunkSize ≤ chunkSize := by
  unfold scanReadSize
  split_ifs <;> omega

theorem scanReadSize_pos {remaining chunkSize : Nat} (hr : 0 < remaining) (hc : 0 < chunkSize) :
    0 < scanReadSize remaining chunkSize := by
  unfold scanReadSize
  split_ifs <;> omega

theorem scanFaultSkipSize_eq (requested : Nat) :
    scanFaultSkipSize requested = min requested scanMinReadChunk := by
  unfold scanFaultSkipSize
  split_ifs <;> omega

namespace ScanBuilder

def countRead (b : ScanBuilder) : ScanBuilder :=
  { b with
    result := { b.result with readCalls := scanMetricInc b.result.readCalls }
    now := b.now + 1 }

def countReadError (b : ScanBuilder) : ScanBuilder :=
  { b with
    result := { b.result with readErrors := scanMetricInc b.result.readErrors }
    progress := b.progress.map fun p => { p with readErrors := wrap32 (p.readErrors + 1) } }

def countBytes (reportsBytes : Bool) (n : Nat) (b : ScanBuilder) : ScanBuilder :=
  { b with
    result := { b.result with bytesScanned := wrap64 (b.result.bytesScanned + n) }
    progress := if reportsBytes then
        b.progress.map fun p => { p with bytesDone := wrap64 (p.bytesDone + n) }
      else b.progress }

end ScanBuilder

def nextAttempt (attempt : Nat) : Nat :=
  if attempt / 2 < scanMinReadChunk then scanMinReadChunk else attempt / 2

def resilientAttempts (env : Env) (pid : Int) (address : Nat) :
    Nat → Nat → ScanBuilder → ScanBuilder × ReadOutcome
  | 0, _, b => (b, .failed ⟨.errIo, errIo_ne_ok⟩)
  | fuel + 1, attempt, b =>
    match memoryRead env pid b.now address attempt with
    | .done bytes => (b.countRead, .done bytes)
    | .failed st =>
      let b := b.countRead.countReadError
      if attempt ≤ scanMinReadChunk then (b, .failed st)
      else if nextAttempt attempt ≥ attempt then (b, .failed st)
      else resilientAttempts env pid address fuel (nextAttempt attempt) b

def scanMemoryReadResilient (env : Env) (pid : Int) (address requested : Nat) (b : ScanBuilder) :
    ScanBuilder × ReadOutcome :=
  if requested = 0 then (b, .done [])
  else resilientAttempts env pid address requested requested b

theorem SameHits.countRead (b : ScanBuilder) : SameHits b b.countRead := ⟨rfl, rfl, rfl, rfl, rfl⟩

theorem SameHits.countReadError (b : ScanBuilder) : SameHits b b.countReadError :=
  ⟨rfl, rfl, rfl, rfl, rfl⟩

theorem SameHits.countBytes (reportsBytes : Bool) (n : Nat) (b : ScanBuilder) :
    SameHits b (b.countBytes reportsBytes n) := ⟨rfl, rfl, rfl, rfl, rfl⟩

theorem SameHits.resilientAttempts (env : Env) (pid : Int) (address fuel attempt : Nat)
    (b : ScanBuilder) : SameHits b (resilientAttempts env pid address fuel attempt b).1 := by
  induction fuel generalizing attempt b with
  | zero => exact .refl b
  | succ fuel ih =>
    rw [Scan.resilientAttempts]
    cases memoryRead env pid b.now address attempt with
    | done bytes => exact .countRead b
    | failed st =>
      have herr : SameHits b b.countRead.countReadError :=
        (SameHits.countRead b).trans (.countReadError _)
      split_ifs
      · exact herr
      · exact herr
      · exact herr.trans (ih _ _)

theorem SameHits.scanMemoryReadResilient (env : Env) (pid : Int) (address requested : Nat)
    (b : ScanBuilder) : SameHits b (scanMemoryReadResilient env pid address requested b).1 := by
  unfold Scan.scanMemoryReadResilient
  split_ifs
  · exact .refl b
  · exact .resilientAttempts env pid address requested requested b

/-- Every read inside `[lo, hi)` succeeds and delivers at least one byte of
`mem`, and at most the bytes it was asked for. -/
def ShortReads (env : Env) (pid : Int) (mem : Nat → UInt8) (lo hi : Nat) : Prop :=
  ∀ now address n, lo ≤ address → address + n ≤ hi → 0 < n →
    ∃ k, 0 < k ∧ k ≤ n ∧ memoryRead env pid now address n = .done (slice mem address k)

theorem ShortReads.mono {env : Env} {pid : Int} {mem : Nat → UInt8} {lo hi lo' hi' : Nat}
    (h : ShortReads env pid mem lo hi) (hlo : lo ≤ lo') (hhi : hi' ≤ hi) :
    ShortReads env pid mem lo' hi' := fun now address n hadr hend hn =>
  h now address n (Nat.le_trans hlo hadr) (Nat.le_trans hend hhi) hn

theorem scanMemoryReadResilient_of_done {env : Env} {pid : Int} {address n : Nat} (hn : 0 < n)
    {b : ScanBuilder} {bytes : List UInt8}
    (hread : memoryRead env pid b.now address n = .done bytes) :
    scanMemoryReadResilient env pid address n b = (b.countRead, .done bytes) := by
  obtain ⟨fuel, rfl⟩ : ∃ fuel, n = fuel + 1 := ⟨n - 1, by omega⟩
  simp only [scanMemoryReadResilient, Nat.succ_ne_zero, if_false, resilientAttempts, hread]

def Env.readable (platform : Platform) (mem : Nat → UInt8) (cut : Nat → Nat → Nat) : Env where
  platform := platform
  palRead _ address n := .done (slice mem address (max 1 (min n (cut address n))))
  alloc _ := true
  cancelRequested _ := false
  monotonicNs _ := 0

theorem memoryRead_readable (platform : Platform) (mem : Nat → UInt8) (cut : Nat → Nat → Nat)
    {pid : Int} (hpid : 0 < pid) (now address : Nat) {n : Nat} (hn : 0 < n) :
    memoryRead (.readable platform mem cut) pid now address n =
      .done (slice mem address (max 1 (min n (cut address n)))) := by
  rw [memoryRead, if_neg (by omega), if_neg (by omega)]
  rfl

theorem shortReads_readable (platform : Platform) (mem : Nat → UInt8) (cut : Nat → Nat → Nat)
    {pid : Int} (hpid : 0 < pid) (lo hi : Nat) :
    ShortReads (.readable platform mem cut) pid mem lo hi := fun now address n _ _ hn =>
  ⟨max 1 (min n (cut address n)), by omega, by omega,
    memoryRead_readable platform mem cut hpid now address hn⟩

end MemDbg.Scan
