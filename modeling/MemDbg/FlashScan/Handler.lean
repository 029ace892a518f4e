import MemDbg.FlashScan.Stream
import MemDbg.FlashScan.Rescan

/-!
# START and COUNT requests

`dispatch_packet` checks a request and decides which bytes of its body are compare
data and mask; the handlers derive the pattern and the upper end of a range from
these and run the scan.
-/

namespace MemDbg.FlashScan

open Lib Scan

/-! ## Flags -/

def qsServerKeep (flags : Nat) : Bool := flags.testBit 1

def qsSnapshot (flags : Nat) : Bool := flags.testBit 2

def qsSnapSegments (flags : Nat) : Bool := flags.testBit 4

def qsParallel (flags : Nat) : Bool := flags.testBit 7

/-! ## START -/

inductive StartOutcome where
  | rejected
  | snapshot (vlen step : Nat)
  | stored (s : ListSession)
  | streamed (packets : List (List UInt8))

def parallelSpan (length vlen : Nat) : Nat :=
  (wrap64 (length + parallelWorkers - 1) / parallelWorkers + vlen - 1) / vlen * vlen

def parallelSpans (req : StartRequest) (vlen : Nat) : Option (List (Nat × Nat)) :=
  let span := parallelSpan req.length vlen
  if span = 0 then none
  else
    let count := wrap64 (req.length + span - 1) / span
    if count ≤ 1 ∨ count > parallelWorkers then none
    else some ((List.range count).map fun i => (wrap64 (req.address + i * span),
      if i * span + span ≤ req.length then span else req.length - i * span))

def parallelSession (req : StartRequest) (vlen : Nat) : ListSession where
  records := []
  recSize := 8 + vlen
  bufCap := 8 * 2 ^ 20
  valueLen := vlen
  pid := 0
  valueType := req.valueType
  hasPrev := false
  hasFirst := false

def collectRecords : List (Except Sink Sink) → Option (List ListRecord)
  | [] => some []
  | .ok (.session s) :: rest => (collectRecords rest).map (s.records ++ ·)
  | _ :: _ => none

def parallelResults (env : FsEnv) (req : StartRequest) (plan : ScanPlan)
    (pattern mask betweenHi : Ptr) : List (Nat × Nat) → Nat → Option (List (Except Sink Sink))
  | [], _ => some []
  | (addr, len) :: rest, i => do
    let result ← scanRangeStream env req plan pattern mask betweenHi addr len (env.fresh i)
      (.session (parallelSession req plan.vlen))
    let others ← parallelResults env req plan pattern mask betweenHi rest (i + 1)
    some (result :: others)

def Sink.packets : Sink → List (List UInt8)
  | stream packets _ => packets
  | session _ => []

def parallelSend (env : FsEnv) (req : StartRequest) (vlen : Nat)
    (results : List (Except Sink Sink)) : Bool × List (List UInt8) :=
  match collectRecords results with
  | none => (false, [])
  | some records =>
    if env.alloc .parallelOutput = false then (false, [])
    else
      match records.foldlM (fun sink r => sink.put req vlen r.addr 0 r.value)
          (Sink.stream [] []) with
      | .ok sink | .error sink => (true, sink.flush.packets)

def parallelStart (env : FsEnv) (req : StartRequest) (plan : ScanPlan) :
    Option (List (Nat × Nat)) :=
  if !qsParallel req.requestFlags || !plan.simdOk || decide (req.length < plan.vlen * 2) then none
  else if env.alloc .parallelWorkers = false || env.alloc .parallelBuffers = false then none
  else parallelSpans req plan.vlen

def flashscanParallelStream (env : FsEnv) (req : StartRequest) (plan : ScanPlan)
    (pattern mask betweenHi : Ptr) : Option (Bool × List (List UInt8)) :=
  match parallelStart env req plan with
  | none => some (false, [])
  | some spans =>
    (parallelResults env req { plan with simdOk := true } pattern mask betweenHi spans 1).map
      (parallelSend env req plan.vlen)

def startPattern (req : StartRequest) (vlen : Nat) (compareData : Ptr) : Option Ptr :=
  if needsData req.compareType then
    (compareData.read (vlen * if req.compareType = 4 then 2 else 1)).map some
  else some none

def startStream (env : FsEnv) (req : StartRequest) (plan : ScanPlan)
    (pattern mask betweenHi : Ptr) : Option StartOutcome := do
  let (handled, sent) ← flashscanParallelStream env req plan pattern mask betweenHi
  if handled then some (.streamed sent)
  else
    let result ← scanRangeStream env req plan pattern mask betweenHi req.address req.length
      (env.fresh 0) (.stream [] [])
    match result with
    | .ok sink | .error sink => some (.streamed (sent ++ sink.packets))

def flashscanHandleStart (env : FsEnv) (req : StartRequest) (compareData mask : Ptr) :
    Option StartOutcome :=
  let plan := scanPlan env req mask
  if plan.vlen > 16 then some .rejected
  else if needsData req.compareType && !env.alloc .pattern then some .rejected
  else do
    let pattern ← startPattern req plan.vlen compareData
    if !env.alloc .readBuf || !env.alloc .resultBuf then some .rejected
    else if qsSnapshot req.requestFlags then
      if plan.vlen > 8 then some .rejected else some (.snapshot plan.vlen plan.step)
    else
      let betweenHi := if req.compareType = 4 ∧ pattern.isSome then pattern.advance plan.vlen
        else none
      match if qsServerKeep req.requestFlags then
          sessionAlloc env req.pid.toNat req.valueType plan.vlen else none with
      | none => startStream env req plan pattern mask betweenHi
      | some s => do
        let result ← scanRangeStream env req plan pattern mask betweenHi req.address req.length
          (env.fresh 0) (.session s)
        match result with
        | .ok (.session s) => some (.stored s)
        | _ => startStream env req plan pattern mask betweenHi

/-! ## COUNT -/

structure CountRequest where
  pid : Int
  valueType : ValueType
  compareType : Nat
  valueLength : Nat
  requestFlags : Nat
  baseAddress : Nat

inductive CountOutcome where
  | rejected
  | counted (count : Nat) (session : Session)
  | streamed (matched : List (List (Nat × List UInt8)))

def countArgs (req : CountRequest) (vlen : Nat) (compareData mask : Ptr) : CompareArgs where
  compareType := req.compareType
  vlen := vlen
  pattern := compareData
  mask := mask
  betweenHi := if req.compareType = 4 ∧ compareData.isSome then compareData.advance vlen else none
  includesPrev := decide (3 ≤ req.compareType) && decide (req.compareType ≤ 12)

def entryOffsets (vlen : Nat) (chunk : List UInt8) : List Nat :=
  (records (4 + vlen) chunk).map fun r => leNat (r.take 4)

def countStream (env : FsEnv) (req : CountRequest) (args : CompareArgs) :
    List (List UInt8) → Option (List (List (Nat × List UInt8)))
  | [] => some []
  | chunk :: rest => do
    if chunk.length > 0x40000 then some []
    else
      let matched ← streamRescanLoop env args req.baseAddress (entryOffsets args.vlen chunk)
        ⟨0, 0, []⟩ []
      let others ← countStream env req args rest
      some (matched :: others)

def flashscanHandleCount (env : FsEnv) (req : CountRequest) (compareData mask : Ptr)
    (session : Session) (chunks : List (List UInt8)) : Option CountOutcome :=
  let vlen := if req.valueLength = 0 then 4 else req.valueLength
  if vlen > 0x1000 then some .rejected
  else
    let args := countArgs req vlen compareData mask
    if qsServerKeep req.requestFlags then
      match session with
      | .free => some (.counted 0 .free)
      | .snapshot s =>
        if s.valueLen ≠ vlen then some (.counted s.survivorCount (.snapshot s))
        else
          (if qsParallel req.requestFlags then snapshotRescanParallel env args s
            else snapshotRescan env args s).map fun r => .counted r.1 (.snapshot r.2)
      | .list s =>
        if s.valueLen ≠ vlen then some (.counted 0 (.list s))
        else (listRescan env args s).map fun r => .counted r.1 (.list r.2)
    else if env.alloc .rescanStream = false then some .rejected
    else (countStream env req args chunks).map .streamed

/-! ## Dispatch -/

def bodyLengths (compareType valueLength : Nat) (valueType : ValueType) : Nat × Nat :=
  (if needsData compareType then valueLength * (if compareType = 4 then 2 else 1) else 0,
    if valueType = .aob then valueLength else 0)

def bodyPointers (compareType valueLength : Nat) (valueType : ValueType) (data : List UInt8) :
    Option (Ptr × Ptr) :=
  let (compareLen, maskLen) := bodyLengths compareType valueLength valueType
  if compareLen > data.length ∨ maskLen > data.length - compareLen then none
  else some (if needsData compareType then some data else none,
    if maskLen ≠ 0 then some (data.drop compareLen) else none)

def paramsValid (pid : Int) (compareType valueLength : Nat) : Bool :=
  decide (1 < pid) && decide (compareType ≤ 12) && decide (valueLength ≠ 0) &&
    decide (valueLength ≤ 16)

inductive QuickscanCommand where
  | start (req : StartRequest)
  | count (req : CountRequest) (session : Session)

def dispatchQuickscan (env : FsEnv) (chunks : List (List UInt8)) (data : List UInt8) :
    QuickscanCommand → Except Status (Option (StartOutcome ⊕ CountOutcome))
  | .start req =>
    if paramsValid req.pid req.compareType req.valueLength = false then .error .errParam
    else if qsSnapSegments req.requestFlags then .error .errUnsupported
    else
      match bodyPointers req.compareType req.valueLength req.valueType data with
      | none => .error .errProtocol
      | some (compareData, mask) =>
        .ok ((flashscanHandleStart env req compareData mask).map .inl)
  | .count req session =>
    if paramsValid req.pid req.compareType req.valueLength = false then .error .errParam
    else
      match bodyPointers req.compareType req.valueLength req.valueType data with
      | none => .error .errProtocol
      | some (compareData, mask) =>
        .ok ((flashscanHandleCount env req compareData mask session chunks).map .inr)

end MemDbg.FlashScan
