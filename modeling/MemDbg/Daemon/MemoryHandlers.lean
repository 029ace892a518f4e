import MemDbg.Daemon.Ops

/-!
# Memory and process handlers

`handlers/memory.c`, `handlers/process.c` and `handlers/alloc.c`, each handler
followed by its contract: it sends the one response and returns `MEMDBG_OK`, or
it sends nothing and returns an error.
-/

namespace MemDbg.Daemon.Dispatch

open Lib Wire Wire.Reply

variable {ops : Ops} {cfg : Config} {req : Request}

/-! ## `handlers/memory.c` -/

def handleMemoryRead (ops : Ops) (cfg : Config) (req : Request) : Reply :=
  if req.body.length ≠ 16 then fail .errProtocol
  else if cfg.maxReadBytes < req.field 12 4 then fail .errOverflow
  else if req.field 12 4 = 0 then
    sendFramedResponse ops.compress (ops.malloc 1) req .ok []
  else if ops.malloc 0 = false then fail .errNomem
  else
    let r := ops.perform 0 (.memoryRead (pidAt req 0) (req.field 4 8) (req.field 12 4))
    if r.status = .ok then
      sendFramedResponse ops.compress (ops.malloc 1) req .ok (r.bytes.take (req.field 12 4))
    else fail r.status

def ReadsWrapping (ops : Ops) (cfg : Config) (req : Request) : Prop :=
  req.body.length = 16 ∧ req.field 12 4 ≤ cfg.maxReadBytes ∧ ops.malloc 0 = true ∧
    (ops.perform 0 (.memoryRead (pidAt req 0) (req.field 4 8) (req.field 12 4))).status = .ok ∧
    ((ops.perform 0 (.memoryRead (pidAt req 0) (req.field 4 8) (req.field 12 4))).bytes.take
      (req.field 12 4)).length = 2 ^ 32 - 1

theorem single_handleMemoryRead_iff :
    (handleMemoryRead ops cfg req).Single req ↔ ¬ReadsWrapping ops cfg req := by
  have hfield : req.field 12 4 < 2 ^ 32 := (leNat_lt _).trans_le
    (Nat.pow_le_pow_right (by decide) (List.length_take_le _ _))
  simp only [handleMemoryRead, ReadsWrapping]
  split_ifs with hlen hmax hzero hmalloc hst
  · exact iff_of_true (single_fail.mpr (by decide)) fun h => hlen h.1
  · exact iff_of_true (single_fail.mpr (by decide)) fun h => by omega
  · rw [hzero]
    exact iff_of_true ((single_sendFramedResponse_iff _ _ (by decide)).mpr (by decide))
      fun h => by simp at h
  · exact iff_of_true (single_fail.mpr (by decide)) fun h => by simp [hmalloc] at h
  · rw [single_sendFramedResponse_iff _ _
      ((List.length_take_le _ _).trans_lt hfield), ne_eq, not_iff_not]
    have hmalloc : ops.malloc 0 = true := by simpa using hmalloc
    exact ⟨fun h => ⟨not_not.mp hlen, not_lt.mp hmax, hmalloc, hst, h⟩, fun h => h.2.2.2.2⟩
  · exact iff_of_true (single_fail.mpr hst) fun h => hst h.2.2.2.1

theorem handleMemoryRead_writes (hnil : (handleMemoryRead ops cfg req).frames = []) :
    (handleMemoryRead ops cfg req).status ≠ .ok := by
  simp only [handleMemoryRead] at hnil ⊢
  split_ifs at hnil ⊢ with hlen hmax hzero hmalloc hst
  · exact nofun
  · exact nofun
  · exact absurd hnil (frames_sendFramedResponse_ne_nil _ _ _)
  · exact nofun
  · exact absurd hnil (frames_sendFramedResponse_ne_nil _ _ _)
  · exact hst

def handleMemoryWrite (ops : Ops) (cfg : Config) (req : Request) : Reply :=
  if req.body.length < 16 then fail .errProtocol
  else if cfg.maxReadBytes < req.field 12 4 ∨ req.body.length ≠ 16 + req.field 12 4 then
    fail .errProtocol
  else
    let r := ops.perform 0 (.memoryWrite (pidAt req 0) (req.field 4 8) (req.body.drop 16))
    if r.status ≠ .ok then fail r.status
    else sendResponse req .ok (leBytes 4 r.value)

@[simp] theorem single_handleMemoryWrite : (handleMemoryWrite ops cfg req).Single req := by
  refine .check (by decide) fun _ => .check (by decide) fun _ => ?_
  exact .forward fun _ => single_sendResponse _

def batchReadTotal (req : Request) (count : Nat) : Nat :=
  ((List.range count).map fun i => req.field (12 + 16 * i + 8) 4).sum

def handleBatchRead (ops : Ops) (cfg : Config) (req : Request) : Reply :=
  if req.body.length < 12 then fail .errProtocol
  else
    let count := req.field 4 4
    if count = 0 ∨ 64 < count then fail .errParam
    else if req.body.length < 12 + count * 16 then fail .errProtocol
    else if cfg.maxPacketBytes < batchReadTotal req count then fail .errOverflow
    else if 2 ^ 32 - 1 < batchReadTotal req count then fail .errOverflow
    else if ops.malloc 0 = false then fail .errNomem
    else if ops.malloc 1 = false then fail .errNomem
    else
      let r := ops.perform 0 (.memoryBatchRead (pidAt req 0) (bytesAt req 12 (count * 16)))
      if r.status = .ok ∨ r.status = .errOverflow then
        match buildFramedPayload ops.compress (ops.malloc 2) (ops.malloc 3) r.bytes with
        | none => fail .errNomem
        | some framed =>
          if ops.malloc 4 = false then fail .errNomem
          else sendResponse req .ok (cstruct (count * 16) r.records.flatten ++ framed)
      else fail r.status

@[simp] theorem single_handleBatchRead : (handleBatchRead ops cfg req).Single req := by
  refine .check (by decide) fun _ => .check (by decide) fun _ => .check (by decide) fun _ => ?_
  refine .check (by decide) fun _ => .check (by decide) fun _ => ?_
  refine .check (by decide) fun _ => .check (by decide) fun _ => .ite (fun _ => ?_) fun h => ?_
  · split
    · exact single_fail.mpr (by decide)
    · exact .check (by decide) fun _ => single_sendResponse _
  · exact single_fail.mpr fun hok => h (.inl hok)

def statusCode (st : Status) : Nat :=
  match st with
  | .ok => 0
  | .errParam => 2 ^ 32 - 1
  | .errNomem => 2 ^ 32 - 2
  | .errIo => 2 ^ 32 - 3
  | .errNet => 2 ^ 32 - 4
  | .errProtocol => 2 ^ 32 - 5
  | .errUnsupported => 2 ^ 32 - 6
  | .errNotFound => 2 ^ 32 - 7
  | .errPermission => 2 ^ 32 - 8
  | .errOverflow => 2 ^ 32 - 9
  | .errState => 2 ^ 32 - 10

structure BatchWriteResult where
  address : Nat
  written : Nat
  status : Nat
deriving DecidableEq

def BatchWriteResult.encode (r : BatchWriteResult) : List UInt8 :=
  leBytes 8 r.address ++ leBytes 4 r.written ++ leBytes 4 r.status

def BatchWriteResult.pending (address : Nat) : BatchWriteResult :=
  ⟨address, 0, statusCode .errIo⟩

def batchWriteParse (cfg : Config) :
    Nat → List UInt8 → Status → List BatchWriteResult × List (Nat × List UInt8) × Status
  | 0, _, overall => ([], [], overall)
  | n + 1, cursor, overall =>
    if cursor.length < 16 then
      (⟨0, 0, statusCode .errProtocol⟩ :: List.replicate n ⟨0, 0, 0⟩, [], .errProtocol)
    else
      let address := leNat (cursor.take 8)
      let dlen := leNat ((cursor.drop 8).take 4)
      let rest := cursor.drop 16
      if dlen = 0 then
        let (results, items, overall) := batchWriteParse cfg n rest overall
        (⟨address, 0, statusCode .ok⟩ :: results, items, overall)
      else if rest.length < dlen then
        (⟨address, 0, statusCode .errProtocol⟩ :: List.replicate n ⟨0, 0, 0⟩, [], .errProtocol)
      else if cfg.maxReadBytes < dlen then
        let (results, items, overall) := batchWriteParse cfg n (rest.drop dlen) .errOverflow
        (⟨address, 0, statusCode .errOverflow⟩ :: results, items, overall)
      else
        let (results, items, overall) := batchWriteParse cfg n (rest.drop dlen) overall
        (.pending address :: results, (address, rest.take dlen) :: items, overall)

def batchWriteMerge : List BatchWriteResult → List (List UInt8) → List BatchWriteResult
  | [], _ => []
  | results, [] => results
  | r :: results, w :: written =>
    if r.status = statusCode .errIo then
      ⟨r.address, leNat (w.take 4), leNat ((w.drop 4).take 4)⟩ :: batchWriteMerge results written
    else r :: batchWriteMerge results (w :: written)

def batchWriteMark (st : Status) (results : List BatchWriteResult) : List BatchWriteResult :=
  results.map fun r ↦ if r.status = statusCode .errIo then { r with status := statusCode st } else r

def handleBatchWrite (ops : Ops) (cfg : Config) (req : Request) : Reply :=
  if req.body.length < 12 then fail .errProtocol
  else
    let count := req.field 4 4
    if count = 0 ∨ 64 < count then fail .errParam
    else if ops.malloc 0 = false then fail .errNomem
    else
      let (results, items, overall) := batchWriteParse cfg count (req.body.drop 12) .ok
      let results :=
        if overall = .errProtocol ∨ items = [] then results
        else if cfg.maxPacketBytes < (items.map fun item => item.2.length).sum then
          batchWriteMark .errOverflow results
        else if ops.malloc 1 = false then batchWriteMark .errNomem results
        else
          let written := (ops.perform 0 (.memoryBatchWrite (pidAt req 0) items)).records
          batchWriteMerge results (written.take items.length)
      let headerStatus := if overall = .errProtocol then .errProtocol else .ok
      sendResponse req headerStatus (results.flatMap BatchWriteResult.encode)

@[simp] theorem single_handleBatchWrite : (handleBatchWrite ops cfg req).Single req := by
  refine .check (by decide) fun _ => .check (by decide) fun _ => .check (by decide) fun _ => ?_
  exact single_sendResponse _

/-! ## `handlers/process.c` -/

def handleProcessList (ops : Ops) (req : Request) : Reply :=
  let r := ops.perform 0 .processList
  if r.status ≠ .ok then fail r.status
  else
    let payload := leBytes 4 r.records.length ++ cstructs 56 r.records
    if 2 ^ 32 - 1 < r.records.length ∨ 2 ^ 32 - 1 < payload.length then fail .errOverflow
    else if ops.malloc 0 = false then fail .errNomem
    else sendResponse req .ok payload

@[simp] theorem single_handleProcessList : (handleProcessList ops req).Single req := by
  refine .forward fun _ => .check (by decide) fun _ => .check (by decide) fun _ => ?_
  exact single_sendResponse _

def protocolMaxMapResponse : Nat := 8 * 1024 * 1024

def handleProcessMapsImpl (ops : Ops) (req : Request) (framed : Bool) : Reply :=
  if req.body.length ≠ 4 then fail .errProtocol
  else
    let r := ops.perform 0 (.processMapsCached (pidAt req 0))
    if r.status ≠ .ok then fail r.status
    else
      let payload := leBytes 4 r.records.length ++ cstructs 88 r.records
      if 2 ^ 32 - 1 < r.records.length ∨ protocolMaxMapResponse < payload.length then
        fail .errOverflow
      else if ops.malloc 0 = false then fail .errNomem
      else if framed then sendFramedResponse ops.compress (ops.malloc 1) req .ok payload
      else sendResponse req .ok payload

@[simp] theorem single_handleProcessMapsImpl (framed : Bool) :
    (handleProcessMapsImpl ops req framed).Single req := by
  refine .check (by decide) fun _ => .forward fun _ => .check (by decide) fun hsize => ?_
  refine .check (by decide) fun _ => .ite (fun _ => ?_) fun _ => single_sendResponse _
  -- the list is far smaller than the length that wraps
  simp only [not_or, not_lt, protocolMaxMapResponse] at hsize
  exact (single_sendFramedResponse_iff _ _ (by omega)).mpr (by omega)

def handleProcessMaps (ops : Ops) (req : Request) : Reply := handleProcessMapsImpl ops req false

def handleProcessMapsV2 (ops : Ops) (req : Request) : Reply := handleProcessMapsImpl ops req true

def handleProcessInfo (ops : Ops) (req : Request) : Reply :=
  if req.body.length ≠ 4 then fail .errProtocol
  else
    let r := ops.perform 0 (.processInfo (pidAt req 0))
    sendIfOk req r.status (cstruct 260 r.bytes)

@[simp] theorem single_handleProcessInfo : (handleProcessInfo ops req).Single req := by
  exact .check (by decide) fun _ => single_sendIfOk _ _

def batchOverall (results : List OpResult) : Status :=
  results.foldl (fun overall r => if r.status = .ok then overall else r.status) .ok

def handleBatchProcessInfo (ops : Ops) (req : Request) : Reply :=
  if req.body.length < 8 then fail .errProtocol
  else
    let count := req.field 0 4
    if count = 0 ∨ 64 < count then fail .errParam
    else if req.body.length < 8 + count * 4 then fail .errProtocol
    else if ops.malloc 0 = false then fail .errNomem
    else
      let results := (List.range count).map fun i =>
        ops.perform i (.processInfo (pidAt req (8 + 4 * i)))
      sendResponse req (batchOverall results)
        (leBytes 4 count ++ leBytes 4 0 ++ cstructs 260 (results.map OpResult.bytes))

@[simp] theorem single_handleBatchProcessInfo : (handleBatchProcessInfo ops req).Single req := by
  refine .check (by decide) fun _ => .check (by decide) fun _ => ?_
  refine .check (by decide) fun _ => .check (by decide) fun _ => ?_
  exact single_sendResponse _

def isEboot (record : List UInt8) : Bool :=
  let name := ((record.drop 8).takeWhile (· ≠ 0))
  name = "eboot.bin".toUTF8.toList || name = "eboot".toUTF8.toList

def foregroundApp (info : List UInt8) : List UInt8 :=
  info.take 4 ++ (info.drop 52).take 16 ++ (info.drop 68).take 64 ++ (info.drop 4).take 48 ++
    List.replicate 16 0

def handleForegroundApp (ops : Ops) (req : Request) : Reply :=
  let list := ops.perform 0 .processList
  if list.status ≠ .ok then sendResponse req list.status []
  else
    match list.records.find? isEboot with
    | none => sendResponse req .errNotFound []
    | some record =>
      let info := ops.perform 1 (.processInfo (int32 (leNat (record.take 4))))
      sendIfOk req info.status (foregroundApp (cstruct 260 info.bytes))

@[simp] theorem single_handleForegroundApp : (handleForegroundApp ops req).Single req := by
  refine .ite (fun _ => single_sendResponse _) fun _ => ?_
  split
  · exact single_sendResponse _
  · exact single_sendIfOk _ _

def handleProcessControl (ops : Ops) (req : Request) (expectedAction : Nat) : Reply :=
  if req.body.length ≠ 8 then fail .errProtocol
  else if req.field 4 4 ≠ expectedAction then fail .errParam
  else if pidAt req 0 ≤ 0 then sendResponse req .errParam []
  else if expectedAction ≠ 3 ∧ (ops.perform 0 (.debuggerIsAttached (pidAt req 0))).value ≠ 0 then
    if expectedAction = 1 then sendResponse req (ops.perform 1 .debuggerStop).status []
    else if expectedAction = 2 then sendResponse req (ops.perform 1 .debuggerContinue).status []
    else sendResponse req .errParam []
  else if expectedAction = 1 ∨ expectedAction = 2 ∨ expectedAction = 3 then
    sendResponse req (ops.perform 1 (.kill (pidAt req 0) expectedAction)).status []
  else fail .errParam

@[simp] theorem single_handleProcessControl (action : Nat) :
    (handleProcessControl ops req action).Single req := by
  refine .check (by decide) fun _ => .check (by decide) fun _ => ?_
  refine .ite (fun _ => single_sendResponse _) fun _ => .ite (fun _ => ?_) fun _ => ?_
  · exact .ite (fun _ => single_sendResponse _) fun _ =>
      .ite (fun _ => single_sendResponse _) fun _ => single_sendResponse _
  · exact .ite (fun _ => single_sendResponse _) fun _ => single_fail.mpr (by decide)

def regAt (regs : List UInt8) (off : Nat) : Nat := leNat ((regs.drop off).take 8)

def setReg (regs : List UInt8) (off value : Nat) : List UInt8 :=
  regs.take off ++ leBytes 8 value ++ regs.drop (off + 8)

def callStackPointer (rsp : Nat) : Nat := sub64 (rsp / 16 * 16) 8

def callRegs (orig : List UInt8) (req : Request) : List UInt8 :=
  let regs := setReg orig 160 (callStackPointer (regAt orig 160))
  let regs := setReg regs 64 (req.field 16 8)
  let regs := setReg regs 72 (req.field 24 8)
  let regs := setReg regs 96 (req.field 32 8)
  let regs := setReg regs 104 (req.field 40 8)
  let regs := setReg regs 56 (req.field 48 8)
  let regs := setReg regs 48 (req.field 56 8)
  setReg regs 136 (req.field 8 8)

def handleProcessCall (ops : Ops) (req : Request) : Reply :=
  if req.body.length ≠ 64 then fail .errProtocol
  else if pidAt req 0 ≤ 1 ∨ req.field 8 8 = 0 then fail .errParam
  else if pidAt req 0 = ops.getpid then fail .errPermission
  else
    let pid := pidAt req 0
    let attach := ops.perform 0 (.debuggerConditionalAttach pid)
    if attach.status ≠ .ok then fail attach.status
    else
    let stop := ops.perform 1 .debuggerStop
    if stop.status ≠ .ok then fail stop.status
    else
    let threads := ops.perform 2 (.debuggerGetThreads 1)
    if threads.value = 0 then fail .errState
    else
    let lwp := int32 (leNat (threads.bytes.take 4))
    let orig := ops.perform 3 (.debuggerGet .regs lwp)
    if orig.status ≠ .ok then fail orig.status
    else
    let regs := callRegs (cstruct 176 orig.bytes) req
    let stub := ops.perform 4 (.memoryAlloc pid 0 4096 5 0)
    if stub.status ≠ .ok then fail .errNomem
    else
    let trap := ops.perform 5 (.memoryWrite pid stub.value [0xCC])
    if trap.status ≠ .ok ∨ trap.value ≠ 1 then fail .errIo
    else
    let ret := ops.perform 6 (.memoryWrite pid (regAt regs 160) (leBytes 8 stub.value))
    if ret.status ≠ .ok ∨ ret.value ≠ 8 then fail .errIo
    else
    let set := ops.perform 7 (.debuggerSet .regs lwp regs)
    if set.status ≠ .ok then fail set.status
    else
    let cont := ops.perform 8 .debuggerContinue
    if cont.status ≠ .ok then fail cont.status
    else if (ops.perform 9 .debuggerIsStopped).value = 0 then fail .errState
    else
    let result := ops.perform 10 (.debuggerGet .regs lwp)
    sendIfOk req result.status (leBytes 8 (regAt (cstruct 176 result.bytes) 112))

@[simp] theorem single_handleProcessCall : (handleProcessCall ops req).Single req := by
  refine .check (by decide) fun _ => .check (by decide) fun _ => .check (by decide) fun _ => ?_
  -- attach, stop, pick a thread and save its registers
  refine .forward fun _ => .forward fun _ => .check (by decide) fun _ => .forward fun _ => ?_
  -- the stub, its return address, the registers of the call
  refine .check (by decide) fun _ => .check (by decide) fun _ => .check (by decide) fun _ => ?_
  refine .forward fun _ => .forward fun _ => .check (by decide) fun _ => ?_
  exact single_sendIfOk _ _

/-! ## `handlers/alloc.c` -/

def handleProcessProtect (ops : Ops) (req : Request) : Reply :=
  if req.body.length ≠ 24 then fail .errProtocol
  else if pidAt req 0 ≤ 1 ∨ req.field 8 8 = 0 ∨ req.field 16 8 = 0 then fail .errParam
  -- a protection outside read, write and execute
  else if 8 ≤ req.field 4 4 then fail .errParam
  else
    let r := ops.perform 0
      (.memoryProtect (pidAt req 0) (req.field 8 8) (req.field 16 8) (req.field 4 4))
    sendIfOk req r.status (leBytes 4 r.value ++ leBytes 4 (req.field 4 4))

@[simp] theorem single_handleProcessProtect : (handleProcessProtect ops req).Single req := by
  refine .check (by decide) fun _ => .check (by decide) fun _ => ?_
  exact .check (by decide) fun _ => single_sendIfOk _ _

def handleProcessAlloc (ops : Ops) (req : Request) : Reply :=
  if req.body.length ≠ 32 then fail .errProtocol
  else if pidAt req 0 ≤ 1 ∨ req.field 16 8 = 0 then fail .errParam
  else
    let r := ops.perform 0 (.memoryAlloc (pidAt req 0) (req.field 8 8) (req.field 16 8)
      (req.field 4 4) (req.field 24 4))
    sendIfOk req r.status (leBytes 8 r.value ++ leBytes 8 (req.field 16 8))

@[simp] theorem single_handleProcessAlloc : (handleProcessAlloc ops req).Single req := by
  refine .check (by decide) fun _ => .check (by decide) fun _ => ?_
  exact single_sendIfOk _ _

def handleProcessFree (ops : Ops) (req : Request) : Reply :=
  if req.body.length ≠ 24 then fail .errProtocol
  else if pidAt req 0 ≤ 1 ∨ req.field 8 8 = 0 ∨ req.field 16 8 = 0 then fail .errParam
  else
    let r := ops.perform 0 (.memoryFree (pidAt req 0) (req.field 8 8) (req.field 16 8))
    sendResponse req r.status []

@[simp] theorem single_handleProcessFree : (handleProcessFree ops req).Single req := by
  refine .check (by decide) fun _ => .check (by decide) fun _ => ?_
  exact single_sendResponse _

def stackLimit (value default maximum : Nat) : Nat :=
  min (if value = 0 then default else value) maximum

def stackStart (ops : Ops) (req : Request) : Nat × Nat :=
  if req.field 8 8 = 0 ∧ req.field 4 4 ≠ 0 ∧
      (ops.perform 0 (.debuggerIsAttached (pidAt req 0))).value ≠ 0 ∧
      (ops.perform 1 (.debuggerGet .regs (pidAt req 4))).status = .ok then
    let regs := cstruct 176 (ops.perform 1 (.debuggerGet .regs (pidAt req 4))).bytes
    (regAt regs 80, regAt regs 160)
  else (req.field 8 8, req.field 16 8)

def handleProcessStack (ops : Ops) (req : Request) : Reply :=
  if req.body.length ≠ 40 then fail .errProtocol
  else if pidAt req 0 ≤ 1 then fail .errParam
  else
    let maxFrames := stackLimit (req.field 24 4) 64 64
    let maxFrameBytes := stackLimit (req.field 28 4) 256 4096
    let codeWindow := stackLimit (req.field 32 4) 200 200
    let (fp, sp) := stackStart ops req
    let blobCapacity := maxFrames * (maxFrameBytes + codeWindow)
    if fp = 0 then fail .errParam
    else if protocolMaxPacket / 2 < blobCapacity then fail .errOverflow
    else if ops.malloc 0 = false ∨ ops.malloc 1 = false then fail .errNomem
    else
      let walk := ops.perform 2
        (.stackWalk (pidAt req 0) fp sp maxFrames maxFrameBytes codeWindow)
      let frames := walk.records.take maxFrames
      let blob := walk.bytes.take blobCapacity
      let payload := leBytes 4 frames.length ++ leBytes 4 walk.value ++ leBytes 4 56 ++
        leBytes 4 blob.length ++ cstructs 56 frames ++ blob
      if protocolMaxPacket < payload.length then fail .errOverflow
      else if ops.malloc 2 = false then fail .errNomem
      else sendResponse req .ok payload

@[simp] theorem single_handleProcessStack : (handleProcessStack ops req).Single req := by
  refine .check (by decide) fun _ => .check (by decide) fun _ => .check (by decide) fun _ => ?_
  refine .check (by decide) fun _ => .check (by decide) fun _ => ?_
  refine .check (by decide) fun _ => .check (by decide) fun _ => ?_
  exact single_sendResponse _

def handleProcessElfLoad (ops : Ops) (req : Request) : Reply :=
  if req.body.length < 64 then fail .errProtocol
  else
    let elfSize := req.field 8 8
    if elfSize = 0 ∨ 64 * 2 ^ 20 < elfSize then fail .errParam
    else if req.body.length < 64 + elfSize then fail .errProtocol
    else if pidAt req 0 ≤ 1 ∨ pidAt req 0 = ops.getpid then fail .errPermission
    else
      let r := ops.perform 0 (.elfLoadEnhanced (pidAt req 0) (bytesAt req 64 elfSize)
        (bytesAt req 20 44) (req.field 16 4))
      if r.status ≠ .ok then fail .errIo
      else sendResponse req .ok (cstruct 16 r.bytes)

@[simp] theorem single_handleProcessElfLoad : (handleProcessElfLoad ops req).Single req := by
  refine .check (by decide) fun _ => .check (by decide) fun _ => ?_
  refine .check (by decide) fun _ => .check (by decide) fun _ => .check (by decide) fun _ => ?_
  exact single_sendResponse _

end MemDbg.Daemon.Dispatch
