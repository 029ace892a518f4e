import MemDbg.Scan.Aob
import MemDbg.Scan.Parallel

/-!
# The scan entry points

The seven functions of `api.c` the request handlers call.  Each gets the result
struct of its caller, which is uninitialised there, and returns a status and the
struct as it leaves it; `none` stands for a free of a pointer that was never
assigned.
-/

namespace MemDbg.Scan

open Lib

/-! ## Requests -/

structure ScanValue where
  valueType : ValueType
  valueLength : Nat
  alignment : Nat
  value : List UInt8
  alignment_lt : alignment < 2 ^ 32
  length_value : value.length = scanValueMax

structure ExactRequest where
  pid : Int
  start : Nat
  length : Nat
  value : ScanValue
  maxResults : Nat

structure ProcessExactRequest where
  pid : Int
  value : ScanValue
  maxResults : Nat
  protectionMask : Nat
  start : Nat
  endAddr : Nat

structure ProcessAobRequest where
  pid : Int
  protectionMask : Nat
  maxResults : Nat
  patternLength : Nat
  start : Nat
  endAddr : Nat

structure PointerRequest where
  pid : Int
  start : Nat
  length : Nat
  targetAddress : Nat
  maxDepth : Nat
  maxResults : Nat
  alignment : Nat

structure UnknownRequest where
  abiMagic : Nat
  abiVersion : Nat
  structSize : Nat
  flags : Nat
  pid : Int
  valueType : ValueType
  valueLength : Nat
  alignment : Nat
  maxResults : Nat
  protectionMask : Nat
  reserved : Nat
  start : Nat
  endAddr : Nat
  maxBytes : Nat

structure World where
  env : Env
  threads : Threads
  processList : Option (List Int)
  processMaps : Int → Except ErrorStatus (Option (List MapEntry))

def scanContextInit (env : Env) (pid : Int) (v : ScanValue) (readChunk : Nat)
    (hchunk : 0 < readChunk) (allocateBuffer : Bool) : Except ErrorStatus ScanContext :=
  let valueLen := expectedValueLength v.valueType v.valueLength
  if hpid : 0 < pid then
    if hlen : 0 < valueLen ∧ valueLen ≤ scanValueMax then
      if allocateBuffer = true ∧
        env.alloc .scanBuffer = false then .error ⟨.errNomem, errNomem_ne_ok⟩
      else .ok {
        pid := pid
        valueType := v.valueType
        valueLen := valueLen
        alignment := if v.alignment = 0 then 1 else v.alignment
        needle := v.value
        readChunk := readChunk
        pid_pos := hpid
        valueLen_pos := hlen.1
        valueLen_le := hlen.2
        alignment_pos := by split <;> omega
        alignment_lt := by
          have := v.alignment_lt
          split <;> omega
        length_needle := by rw [v.length_value]; exact hlen.2
        readChunk_pos := hchunk }
    else .error ⟨.errParam, errParam_ne_ok⟩
  else .error ⟨.errParam, errParam_ne_ok⟩

theorem scanContextInit_cases (env : Env) (pid : Int) (v : ScanValue) (readChunk : Nat)
    (hchunk : 0 < readChunk) :
    (∃ ctx, scanContextInit env pid v readChunk hchunk false = .ok ctx ∧
      ctx.valueLen = expectedValueLength v.valueType v.valueLength ∧ 0 < pid ∧
      0 < expectedValueLength v.valueType v.valueLength ∧
      expectedValueLength v.valueType v.valueLength ≤ scanValueMax) ∨
    ∃ st, scanContextInit env pid v readChunk hchunk false = .error st ∧
      ¬ (0 < pid ∧ 0 < expectedValueLength v.valueType v.valueLength ∧
        expectedValueLength v.valueType v.valueLength ≤ scanValueMax) := by
  unfold scanContextInit
  by_cases hpid : 0 < pid
  · by_cases hlen : 0 < expectedValueLength v.valueType v.valueLength ∧
        expectedValueLength v.valueType v.valueLength ≤ scanValueMax
    · simp only [hpid, hlen, and_self, dite_true]
      exact .inl ⟨_, rfl, rfl, trivial⟩
    · simp only [hpid, hlen, dite_true, dite_false]
      exact .inr ⟨_, rfl, fun h => h.2⟩
  · simp only [hpid, dite_false]
    exact .inr ⟨_, rfl, fun h => h.1⟩

theorem scanExactRangeChunk_pos (platform : Platform) : 0 < scanExactRangeChunk platform := by
  cases platform <;> decide

def requestMask (protectionMask : Nat) : Nat :=
  if protectionMask = 0 then mapProtRead else protectionMask

/-! ## Exact scans -/

def memdbgScanExact (env : Env) (request : ExactRequest) (_out : ScanResult) :
    Option (Status × ScanResult) :=
  if request.length = 0 then some (.errParam, .zero)
  else
    match scanContextInit env request.pid request.value (scanExactRangeChunk env.platform)
        (scanExactRangeChunk_pos env.platform) true with
    | .error st => some (st, .zero)
    | .ok ctx =>
      if scanBoundsValid request.start request.length ctx.valueLen = false then
        some (.errParam, .zero)
      else
        match scanBuilderPrealloc env (.init .zero (requestLimit request.maxResults)) with
        | (.ok, b) =>
          let startNs := env.monotonicNs b.now
          let b := { b.tick with result := { b.result with regionsScanned := 1 } }
          let (st, b) := scanRange env ctx b request.start request.length request.start true
          let endNs := env.monotonicNs b.now
          finishScan st (b.result.setElapsed startNs endNs)
        | (st, b) => some (st, b.result)

def ProcessExactRequest.filter (request : ProcessExactRequest) (valueLen : Nat) : MapFilter where
  protMask := requestMask request.protectionMask
  startFilter := request.start
  endFilter := request.endAddr
  minMapLen := valueLen

def memdbgScanProcessExact (w : World) (request : ProcessExactRequest) (_out : ScanResult) :
    Option (Status × ScanResult) :=
  match scanContextInit w.env request.pid request.value (scanChunk w.env.platform)
      (scanChunk_pos w.env.platform) false with
  | .error st => some (st, .zero)
  | .ok ctx =>
    match w.processMaps request.pid with
    | .error st => some (st, .zero)
    | .ok maps =>
      let run := scanMapsParallel w.env w.threads (scanRangeCb w.env ctx) maps
        (requestLimit request.maxResults) (request.filter ctx.valueLen) none .zero
      finishScan run.status (run.out.setElapsed (w.env.monotonicNs 0) (w.env.monotonicNs 1))

def ScanResult.markCancelled (out : ScanResult) (cancelled : Bool) : ScanResult :=
  if cancelled then { out with truncated := true, cancelled := true } else out

def memdbgScanProcessExactTracked (w : World) (request : ProcessExactRequest)
    (progress : ScanProgress) (out : ScanResult) : Option (Status × ScanResult) :=
  match scanContextInit w.env request.pid request.value (scanChunk w.env.platform)
      (scanChunk_pos w.env.platform) false with
  | .error st => some (st, out)
  | .ok ctx =>
    match w.processMaps request.pid with
    | .error st => some (st, out)
    | .ok maps =>
      let run := scanMapsParallel w.env w.threads (scanRangeCb w.env ctx) maps
        (requestLimit request.maxResults) (request.filter ctx.valueLen) (some progress) out
      finishScan run.status
        ((run.out.setElapsed (w.env.monotonicNs 0) (w.env.monotonicNs 1)).markCancelled
          (w.env.cancelRequested 2))

/-! ## Process-wide AOB scan -/

def scanAobCb (env : Env) (bm : BmTable) (pattern mask : List UInt8) (patLen : Nat) (pid : Int) :
    ScanFn := fun start len b => scanAobRange env bm pattern mask patLen pid start len b

def memdbgScanProcessAob (w : World) (request : ProcessAobRequest) (pattern mask : List UInt8)
    (out : ScanResult) : Option (Status × ScanResult) :=
  if request.patternLength = 0 ∨ request.patternLength > 256 then some (.errParam, out)
  else
    match w.processMaps request.pid with
    | .error st => some (st, .zero)
    | .ok maps =>
      let bm := bmBuildTable w.env pattern mask request.patternLength
      let run := scanMapsParallel w.env w.threads
        (scanAobCb w.env bm pattern mask request.patternLength request.pid) maps
        (requestLimit request.maxResults)
        ⟨requestMask request.protectionMask, request.start, request.endAddr, request.patternLength⟩
        none .zero
      finishScan run.status (run.out.setElapsed (w.env.monotonicNs 0) (w.env.monotonicNs 1))

/-! ## Unknown-value scan -/

structure UnknownScanContext where
  valueLen : Nat
  alignment : Nat
  flags : Nat

def scanUnknownAbiMagic : Nat := 0x314e4b55

def scanUnknownAbiVersion : Nat := 1

def scanUnknownRequestSize : Nat := 64

def scanUnknownFlagNonzero : Nat := 1

def scanUnknownMaxUnitBytes : Nat := 8 * 1024 * 1024

def scanUnknownResultLimit : Nat := 1024 * 1024 / 8

def unknownValueIsCandidate (value : List UInt8) (valueLen flags : Nat) : Bool :=
  if flags &&& scanUnknownFlagNonzero = 0 then true
  else (value.take valueLen).any (· ≠ 0)

def unknownLoop (env : Env) (uc : UnknownScanContext) (buffer : List UInt8)
    (baseAddr rangeEnd : Nat) : Nat → Nat → ScanBuilder → Status × ScanBuilder
  | 0, _, b => (.ok, b)
  | fuel + 1, pos, b =>
    if pos ≤ buffer.length ∧ uc.valueLen ≤ buffer.length - pos then
      let addr := baseAddr + pos
      if addr > rangeEnd ∨ uc.valueLen > rangeEnd - addr then (.ok, b)
      else
        match if unknownValueIsCandidate (buffer.drop pos) uc.valueLen uc.flags then
            scanBuilderAppend env b addr else (.ok, b) with
        | (.ok, b) =>
          if 2 ^ 64 - 1 - pos < uc.alignment then (.ok, b)
          else unknownLoop env uc buffer baseAddr rangeEnd fuel (pos + uc.alignment) b
        | r => r
    else (.ok, b)

def unknownChunkScan (env : Env) (uc : UnknownScanContext) (pid : Int)
    (start rangeEnd alignmentBase : Nat) : ChunkScan where
  pid := pid
  chunk := scanChunk env.platform
  overlap := if uc.valueLen > 1 then uc.valueLen - 1 else 0
  pollsCancel := false
  reportsBytes := false
  skipReadErrors := true
  window b buffer baseAddr :=
    let first := firstAlignedOffset baseAddr alignmentBase start uc.alignment
    if first = 2 ^ 64 - 1 then (.errOverflow, b)
    else unknownLoop env uc buffer baseAddr rangeEnd (buffer.length + 1) first b

def scanUnknownRange (env : Env) (uc : UnknownScanContext) (pid : Int)
    (start len alignmentBase : Nat) (b : ScanBuilder) : Status × ScanBuilder :=
  if scanBoundsValid start len uc.valueLen = false then (.errParam, b)
  else chunkScan env (unknownChunkScan env uc pid start (start + len) alignmentBase) start len b

def ScanBuilder.countRegion (b : ScanBuilder) : ScanBuilder :=
  { b with result := { b.result with regionsScanned := scanMetricInc b.result.regionsScanned } }

def unknownMapLoop (env : Env) (uc : UnknownScanContext) (request : UnknownRequest) :
    List MapEntry → Nat → ScanBuilder → Status × ScanBuilder
  | [], _, b => (.ok, b)
  | map :: maps, budget, b =>
    let protMask := request.protectionMask ||| mapProtRead
    match MapFilter.clip ⟨protMask, request.start, request.endAddr, uc.valueLen⟩ map with
    | none => unknownMapLoop env uc request maps budget b
    | some (scanStart, mapLen) =>
      if budget < uc.valueLen then (.ok, b.setTruncated)
      else
        let unitLen := if mapLen < budget then mapLen else budget
        let b := if unitLen < mapLen then b.setTruncated else b
        match scanUnknownRange env uc request.pid scanStart unitLen map.start b.countRegion with
        | (.ok, b) =>
          if budget - unitLen = 0 then
            (.ok, if maps ≠ [] ∨ unitLen < mapLen then b.setTruncated else b)
          else unknownMapLoop env uc request maps (budget - unitLen) b
        | r => r

def memdbgScanUnknown (w : World) (request : UnknownRequest) (_out : ScanResult) :
    Option (Status × ScanResult) :=
  let valueLen := expectedValueLength request.valueType request.valueLength
  if request.abiMagic ≠ scanUnknownAbiMagic ∨ request.abiVersion ≠ scanUnknownAbiVersion ∨
      request.structSize ≠ scanUnknownRequestSize ∨ request.flags > scanUnknownFlagNonzero ∨
      request.reserved ≠ 0 ∨ request.pid ≤ 0 then some (.errParam, .zero)
  else if request.endAddr ≠ 0 ∧ request.endAddr ≤ request.start then some (.errParam, .zero)
  else if request.maxBytes = 0 ∨ request.maxBytes > scanUnknownMaxUnitBytes then
    some (.errParam, .zero)
  else if valueLen = 0 ∨ valueLen > scanValueMax then some (.errParam, .zero)
  else if w.env.alloc .scanBuffer = false then some (.errNomem, .zero)
  else
    match w.processMaps request.pid with
    | .error st => some (st, .zero)
    | .ok maps =>
      let uc : UnknownScanContext :=
        ⟨valueLen, if request.alignment = 0 then valueLen else request.alignment, request.flags⟩
      let maps := (maps.getD []).mergeSort fun a b =>
        decide (a.start < b.start ∨ a.start = b.start ∧ a.endAddr ≤ b.endAddr)
      let limit := min (requestLimit request.maxResults) scanUnknownResultLimit
      let b := ScanBuilder.init .zero limit
      let startNs := w.env.monotonicNs b.now
      let (st, b) := unknownMapLoop w.env uc request maps request.maxBytes b.tick
      finishScan st (b.result.setElapsed startNs (w.env.monotonicNs b.now))

/-! ## Pointer scan -/

def pointerLoop (env : Env) (target alignment mend : Nat) (buffer : List UInt8) (baseAddr : Nat) :
    Nat → Nat → ScanBuilder → Status × ScanBuilder
  | 0, _, b => (.ok, b)
  | fuel + 1, i, b =>
    if i + 8 ≤ buffer.length then
      let addr := baseAddr + i
      if addr > mend ∨ 8 > mend - addr then (.ok, b)
      else
        match if leNat ((buffer.drop i).take 8) = target then scanBuilderAppend env b addr
          else (.ok, b) with
        | (.ok, b) => pointerLoop env target alignment mend buffer baseAddr fuel (i + alignment) b
        | r => r
    else (.ok, b)

def pointerChunkScan (env : Env) (pid : Int) (target alignment mstart mend : Nat) : ChunkScan where
  pid := pid
  chunk := scanChunk env.platform
  overlap := 7
  pollsCancel := false
  reportsBytes := false
  skipReadErrors := true
  window b buffer baseAddr :=
    let first := firstAlignedOffset baseAddr mstart mstart alignment
    if first < buffer.length then
      pointerLoop env target alignment mend buffer baseAddr (buffer.length + 1) first b
    else (.ok, b)

def PointerRequest.clip (request : PointerRequest) (map : MapEntry) : Option (Nat × Nat) :=
  let scanEnd := request.start + request.length
  if map.endAddr ≤ map.start then none
  else if map.protection &&& mapProtRead ≠ mapProtRead then none
  else if map.start ≥ scanEnd ∨ map.endAddr ≤ request.start then none
  else
    let mstart := if map.start > request.start then map.start else request.start
    let mend := if map.endAddr < scanEnd then map.endAddr else scanEnd
    if mend ≤ mstart then none else some (mstart, mend)

def pointerMapLoop (env : Env) (request : PointerRequest) (alignment : Nat) :
    List MapEntry → ScanBuilder → Status × ScanBuilder
  | [], b => (.ok, b)
  | map :: maps, b =>
    match request.clip map with
    | none => pointerMapLoop env request alignment maps b
    | some (mstart, mend) =>
      match chunkScan env (pointerChunkScan env request.pid request.targetAddress alignment mstart
          mend) mstart (mend - mstart) b.countRegion with
      | (.ok, b) => pointerMapLoop env request alignment maps b
      | r => r

def memdbgScanPointer (w : World) (request : PointerRequest) (out : ScanResult) :
    Option (Status × ScanResult) :=
  if request.length = 0 ∨ request.maxDepth = 0 then some (.errParam, out)
  else if request.pid ≤ 0 then some (.errParam, out)
  else if scanBoundsValid request.start request.length 8 = false then some (.errParam, out)
  else if w.processList.any (fun pids => !pids.contains request.pid) then some (.errNotFound, .zero)
  else
    match w.processMaps request.pid with
    | .error st => some (st, .zero)
    | .ok maps =>
      if w.env.alloc .scanBuffer = false then some (.errNomem, .zero)
      else
        match scanBuilderPrealloc w.env (.init .zero (requestLimit request.maxResults)) with
        | (.ok, b) =>
          let alignment := if request.alignment = 0 then 8 else request.alignment
          let startNs := w.env.monotonicNs b.now
          match pointerMapLoop w.env request alignment (maps.getD []) b.tick with
          | (.ok, b) => some (.ok, b.result.setElapsed startNs (w.env.monotonicNs b.now))
          | (st, b) => some (st, b.result)
        | (st, b) => some (st, b.result)

end MemDbg.Scan
