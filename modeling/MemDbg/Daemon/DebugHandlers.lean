import MemDbg.Daemon.Ops

/-!
# Debugger, tracer, kernel and scan handlers

`handlers/debug.c`, `handlers/tracer.c`, `handlers/kernel.c`, `handlers/dump.c` and
`handlers/scan.c`, each handler with the same contract as the memory handlers.
-/

namespace MemDbg.Daemon.Dispatch

open Lib Scan Wire Wire.Reply

variable {ops : Ops} {cfg : Config} {req : Request}

/-! ## `handlers/debug.c` -/

def handleDebugAttach (ops : Ops) (req : Request) : Reply :=
  statusHandler ops req 8 (.debuggerAttach (pidAt req 0))

def handleDebugDetach (ops : Ops) (req : Request) : Reply := plainHandler ops req .debuggerDetach

def handleDebugStop (ops : Ops) (req : Request) : Reply := plainHandler ops req .debuggerStop

def handleDebugContinue (ops : Ops) (req : Request) : Reply :=
  plainHandler ops req .debuggerContinue

def handleDebugStep (ops : Ops) (req : Request) : Reply :=
  statusHandler ops req 8 (.debuggerStep (pidAt req 4))

def threadEntry (ops : Ops) (i : Nat) (record : List UInt8) : List UInt8 :=
  let thread := cstruct 32 record
  thread.take 8 ++ cstruct 48 (ops.perform (i + 2) (.threadStopInfo i)).bytes ++
    cstruct 20 ((ops.perform 1 .threadExtraInfo).bytes.drop (20 * i)) ++ thread.drop 8

def handleDebugGetThreads (ops : Ops) (req : Request) : Reply :=
  let r := ops.perform 0 (.debuggerGetThreads 256)
  if r.status ≠ .ok then sendResponse req r.status []
  else
    let threads := (r.records.take 256).take ((protocolMaxPacket - 8) / 100)
    if ops.malloc 0 = false then fail .errNomem
    else
      let entries := threads.zipIdx.flatMap fun (record, i) => threadEntry ops i record
      sendResponse req .ok (leBytes 4 threads.length ++ leBytes 4 100 ++ entries)

@[simp] theorem single_handleDebugGetThreads : (handleDebugGetThreads ops req).Single req := by
  refine .ite (fun _ => single_sendResponse _) fun _ => .check (by decide) fun _ => ?_
  exact single_sendResponse _

def getRegFile (ops : Ops) (req : Request) (file : RegFile) : Reply :=
  if req.body.length ≠ 8 then fail .errProtocol
  else
    let r := ops.perform 0 (.debuggerGet file (pidAt req 4))
    sendResponse req r.status (cstruct file.size r.bytes)

@[simp] theorem single_getRegFile (file : RegFile) : (getRegFile ops req file).Single req :=
  .check (by decide) fun _ => single_sendResponse _

def setRegFile (ops : Ops) (req : Request) (file : RegFile) : Reply :=
  statusHandler ops req (8 + file.size) (.debuggerSet file (pidAt req 4) (req.body.drop 8))

def handleDebugGetRegs (ops : Ops) (req : Request) : Reply := getRegFile ops req .regs

def handleDebugSetRegs (ops : Ops) (req : Request) : Reply := setRegFile ops req .regs

def handleDebugGetDbregs (ops : Ops) (req : Request) : Reply := getRegFile ops req .dbregs

def handleDebugSetDbregs (ops : Ops) (req : Request) : Reply := setRegFile ops req .dbregs

def handleDebugGetFpregs (ops : Ops) (req : Request) : Reply := getRegFile ops req .fpregs

def handleDebugSetFpregs (ops : Ops) (req : Request) : Reply := setRegFile ops req .fpregs

def handleDebugGetFsgsbase (ops : Ops) (req : Request) : Reply := getRegFile ops req .fsgsbase

def handleDebugSetFsgsbase (ops : Ops) (req : Request) : Reply := setRegFile ops req .fsgsbase

def handleDebugSetBreakpoint (ops : Ops) (req : Request) : Reply :=
  statusHandler ops req 16 (.debuggerSetBreakpoint (req.field 0 8) (req.field 8 4))

def handleDebugSetBreakpointCond (ops : Ops) (req : Request) : Reply :=
  statusHandler ops req 32 (.debuggerSetBreakpointCond req.body)

def handleDebugClearBreakpoint (ops : Ops) (req : Request) : Reply :=
  statusHandler ops req 16 (.debuggerClearBreakpoint (req.field 0 8))

def handleDebugSetWatchpoint (ops : Ops) (req : Request) : Reply :=
  statusHandler ops req 16
    (.debuggerSetWatchpoint (req.field 0 8) (req.field 8 4) (req.field 12 4))

def handleDebugClearWatchpoint (ops : Ops) (req : Request) : Reply :=
  statusHandler ops req 16 (.debuggerClearWatchpoint (req.field 0 8))

def handleDebugThreadControl (ops : Ops) (req : Request) (suspend : Bool) : Reply :=
  statusHandler ops req 8
    (if suspend then .debuggerSuspendThread (pidAt req 4) else .debuggerResumeThread (pidAt req 4))

def handleDebugPollEvents (ops : Ops) (req : Request) : Reply :=
  let stopped := (ops.perform 1 .debuggerIsStopped).value
  let lwp := if (ops.perform 2 .debuggerIsStopped).value ≠ 0
    then (ops.perform 3 .debuggerStopLwp).value else 0
  sendResponse req (ops.perform 0 .debuggerPollEvents).status
    (leBytes 4 (if stopped ≠ 0 then 1 else 0) ++ leBytes 4 lwp)

def listHandler (ops : Ops) (req : Request) (op : Op) (entrySize : Nat) : Reply :=
  let r := ops.perform 0 op
  if r.status ≠ .ok then sendResponse req r.status []
  else if ops.malloc 0 = false then fail .errNomem
  else sendResponse req .ok
    (leBytes 4 r.records.length ++ leBytes 4 0 ++ cstructs entrySize r.records)

@[simp] theorem single_listHandler (op : Op) (entrySize : Nat) :
    (listHandler ops req op entrySize).Single req := by
  refine .ite (fun _ => single_sendResponse _) fun _ => .check (by decide) fun _ => ?_
  exact single_sendResponse _

def handleDebugGetBreakpoints (ops : Ops) (req : Request) : Reply :=
  listHandler ops req .debuggerBreakpointsSnapshot 32

def handleDebugGetWatchpoints (ops : Ops) (req : Request) : Reply :=
  listHandler ops req .debuggerWatchpointsSnapshot 24

def clearAll (ops : Ops) (req : Request) (op : Op) : Reply :=
  let r := ops.perform 0 op
  sendResponse req r.status (leBytes 4 r.value ++ leBytes 4 0)

def handleDebugClearAllBreakpoints (ops : Ops) (req : Request) : Reply :=
  clearAll ops req .debuggerClearAllBreakpoints

def handleDebugClearAllWatchpoints (ops : Ops) (req : Request) : Reply :=
  clearAll ops req .debuggerClearAllWatchpoints

/-! ## `handlers/tracer.c` -/

def handleTracerAttach (ops : Ops) (req : Request) : Reply :=
  if req.body.length ≠ 4 then fail .errProtocol
  else
    let detach := ops.perform 0 .debuggerDetach
    if detach.status ≠ .ok then sendResponse req detach.status []
    else sendResponse req (ops.perform 1 (.tracerStart (pidAt req 0))).status []

@[simp] theorem single_handleTracerAttach : (handleTracerAttach ops req).Single req := by
  refine .check (by decide) fun _ => .ite (fun _ => single_sendResponse _) fun _ => ?_
  exact single_sendResponse _

def handleTracerDetach (req : Request) : Reply := sendResponse req .ok []

def handleTracerPoll (ops : Ops) (req : Request) : Reply :=
  if ops.malloc 0 = false then fail .errNomem
  else
    let events := (ops.perform 0 (.tracerPollEvents 256)).records.take 256
    if ops.malloc 1 = false then fail .errNomem
    else sendResponse req .ok (leBytes 4 events.length ++ leBytes 4 0 ++ cstructs 88 events)

@[simp] theorem single_handleTracerPoll : (handleTracerPoll ops req).Single req := by
  refine .check (by decide) fun _ => .check (by decide) fun _ => ?_
  exact single_sendResponse _

def handleTracerStatus (ops : Ops) (req : Request) : Reply :=
  sendResponse req .ok (cstruct 288 (ops.perform 0 .tracerStatus).bytes)

/-! ## `handlers/kernel.c` -/

def copyConsoleText (ops : Ops) (req : Request) : Status :=
  if req.body.length < 8 then .errProtocol
  else if 4096 < req.field 0 4 then .errParam
  else if req.body.length ≠ 8 + req.field 0 4 then .errProtocol
  else if ops.malloc 0 = false then .errNomem
  else .ok

def handleConsoleNotify (ops : Ops) (req : Request) : Reply :=
  sendResponse req (copyConsoleText ops req) []

def handleConsolePrint (ops : Ops) (req : Request) : Reply :=
  sendResponse req (copyConsoleText ops req) []

def handleConsoleReboot (ops : Ops) (req : Request) : Reply := plainHandler ops req .reboot

def handleKernelBase (ops : Ops) (req : Request) : Reply :=
  let r := ops.perform 0 .kernelBase
  sendIfOk req r.status (cstruct 16 r.bytes)

def kKernelMaxRange : Nat := 32 * 1024 * 1024

def kKernelGuardFirstPage : Nat := 0x4000

def inKernelRange (base address stop : Nat) : Bool :=
  wrap64 (base + kKernelGuardFirstPage) ≤ address && stop ≤ wrap64 (base + kKernelMaxRange)

def checkKernelRange (ops : Ops) (address length : Nat) : Status :=
  let base := ops.perform 0 .kernelBase
  if 2 ^ 64 - 1 - length < address then .errParam
  else if base.status ≠ .ok then .errUnsupported
  else if !inKernelRange (leNat (base.bytes.take 8)) address (address + length) &&
      !inKernelRange (leNat ((base.bytes.drop 8).take 8)) address (address + length) then .errParam
  else .ok

def handleKernelRead (ops : Ops) (req : Request) : Reply :=
  if req.body.length ≠ 16 then fail .errProtocol
  else if req.field 0 8 = 0 ∨ protocolMaxRead < req.field 8 4 then fail .errParam
  else if checkKernelRange ops (req.field 0 8) (req.field 8 4) ≠ .ok then
    fail (checkKernelRange ops (req.field 0 8) (req.field 8 4))
  else if ops.malloc 0 = false then fail .errNomem
  else
    let r := ops.perform 1 (.kernelRead (req.field 0 8) (req.field 8 4))
    sendIfOk req r.status (cstruct (req.field 8 4) r.bytes)

@[simp] theorem single_handleKernelRead : (handleKernelRead ops req).Single req := by
  refine .check (by decide) fun _ => .check (by decide) fun _ => .forward fun _ => ?_
  exact .check (by decide) fun _ => single_sendIfOk _ _

def handleKernelWrite (ops : Ops) (req : Request) : Reply :=
  if req.body.length < 16 then fail .errProtocol
  else if req.field 0 8 = 0 ∨ protocolMaxRead < req.field 8 4 then fail .errParam
  else if req.body.length ≠ 16 + req.field 8 4 then fail .errProtocol
  else if checkKernelRange ops (req.field 0 8) (req.field 8 4) ≠ .ok then
    fail (checkKernelRange ops (req.field 0 8) (req.field 8 4))
  else
    sendResponse req (ops.perform 1 (.kernelWrite (req.field 0 8) (req.body.drop 16))).status []

@[simp] theorem single_handleKernelWrite : (handleKernelWrite ops req).Single req := by
  refine .check (by decide) fun _ => .check (by decide) fun _ => .check (by decide) fun _ => ?_
  exact .forward fun _ => single_sendResponse _

/-! ## `handlers/dump.c` -/

def handleProcessDump (ops : Ops) (req : Request) : Reply :=
  if req.body.length ≠ 8 then fail .errProtocol
  else if pidAt req 0 ≤ 0 then fail .errParam
  else
    let attach := ops.perform 0 (.debuggerConditionalAttach (pidAt req 0))
    if attach.status ≠ .ok then fail attach.status
    else
    let stop := ops.perform 1 .debuggerStop
    if stop.status ≠ .ok then fail stop.status
    else if ops.malloc 0 = false then fail .errNomem
    else
    let measure := ops.perform 2 (.dumpJson (pidAt req 0) (req.field 4 4))
    if measure.status ≠ .ok then fail .errNomem
    else if ops.malloc 1 = false then fail .errNomem
    else
    let json := ops.perform 3 (.dumpJson (pidAt req 0) (req.field 4 4))
    if json.status ≠ .ok then fail .errNomem
    else sendResponse req .ok
      ((buildFramedPayload ops.compress (ops.malloc 2) (ops.malloc 3) json.bytes).getD json.bytes)

@[simp] theorem single_handleProcessDump : (handleProcessDump ops req).Single req := by
  refine .check (by decide) fun _ => .check (by decide) fun _ => ?_
  refine .forward fun _ => .forward fun _ => .check (by decide) fun _ => ?_
  refine .check (by decide) fun _ => .check (by decide) fun _ => .check (by decide) fun _ => ?_
  exact single_sendResponse _

/-! ## `handlers/scan.c` -/

def scanMaxResultsPerResponse : Nat := 50000

def scanResponseLimit : Nat := min ((protocolMaxPacket - 40) / 8) scanMaxResultsPerResponse

def scanPayload (result : ScanResult) : List UInt8 :=
  let count := min (wrap32 result.count) scanResponseLimit
  let truncated := result.truncated || scanResponseLimit < wrap32 result.count
  leBytes 4 count ++ leBytes 4 (if truncated then 1 else 0) ++ leBytes 8 result.bytesScanned ++
    leBytes 8 result.elapsedNs ++ leBytes 4 result.readCalls ++ leBytes 4 result.regionsScanned ++
    leBytes 4 result.readErrors ++ leBytes 4 (if result.cancelled then 1 else 0) ++
    cstruct (count * 8) (result.reported.flatMap (leBytes 8))

def sendScanResult (ops : Ops) (req : Request) (result : ScanResult) : Reply :=
  if 2 ^ 32 - 1 < (scanPayload result).length then fail .errOverflow
  else if ops.malloc 0 = false then fail .errNomem
  else sendResponse req .ok (scanPayload result)

def finishScan (ops : Ops) (req : Request) (scan : Status × ScanResult) : Reply :=
  if scan.1 ≠ .ok then fail scan.1 else sendScanResult ops req scan.2

@[simp] theorem single_finishScan (scan : Status × ScanResult) :
    (finishScan ops req scan).Single req := by
  refine .forward fun _ => .check (by decide) fun _ => .check (by decide) fun _ => ?_
  exact single_sendResponse _

def capResults (cfg : Config) (maxResults : Nat) : Nat :=
  if maxResults = 0 ∨ cfg.maxScanResults < maxResults then cfg.maxScanResults else maxResults

def handleScanExactV2 (ops : Ops) (cfg : Config) (req : Request) : Reply :=
  if req.body.length ≠ 52 then fail .errProtocol
  else finishScan ops req (ops.scan (.exact req.body (capResults cfg (req.field 32 4))))

@[simp] theorem single_handleScanExactV2 : (handleScanExactV2 ops cfg req).Single req :=
  .check (by decide) fun _ => single_finishScan _

def handleScanProcessExact (ops : Ops) (cfg : Config) (req : Request) : Reply :=
  if req.body.length ≠ 56 then fail .errProtocol
  else finishScan ops req (ops.scan (.processExact req.body (capResults cfg (req.field 16 4))))

@[simp] theorem single_handleScanProcessExact : (handleScanProcessExact ops cfg req).Single req :=
  .check (by decide) fun _ => single_finishScan _

def handleScanProcessExactTracked (ops : Ops) (cfg : Config) (req : Request) : Reply :=
  if req.body.length ≠ 64 then fail .errProtocol
  else if req.field 0 8 = 0 then fail .errParam
  else if (ops.perform 0 (.scanJobBegin (req.field 0 8))).value = 0 then fail .errState
  else
    finishScan ops req
      (ops.scan (.processExactTracked (req.body.drop 8) (capResults cfg (req.field 24 4))))

@[simp] theorem single_handleScanProcessExactTracked :
    (handleScanProcessExactTracked ops cfg req).Single req := by
  refine .check (by decide) fun _ => .check (by decide) fun _ => .check (by decide) fun _ => ?_
  exact single_finishScan _

def handleScanJobStatus (ops : Ops) (req : Request) (cancel : Bool) : Reply :=
  if req.body.length ≠ 8 then fail .errProtocol
  else if req.field 0 8 = 0 then fail .errParam
  else
    let slot := ops.perform 0 (.scanJobFind (req.field 0 8) cancel)
    if slot.value = 0 then fail .errNotFound
    else sendResponse req .ok (cstruct 56 slot.bytes)

@[simp] theorem single_handleScanJobStatus (cancel : Bool) :
    (handleScanJobStatus ops req cancel).Single req := by
  refine .check (by decide) fun _ => .check (by decide) fun _ => .check (by decide) fun _ => ?_
  exact single_sendResponse _

def scanUnknownRequestDecode (req : Request) : Status :=
  if req.body.length = 0 then .errParam
  else if req.body.length = 56 then .ok
  else if req.body.length < 8 then .errProtocol
  else if req.field 0 4 ≠ 0x314e4b55 then .errProtocol
  else if req.field 4 2 ≠ 1 then .errUnsupported
  else if req.field 6 2 ≠ 64 ∨ req.body.length ≠ req.field 6 2 then .errProtocol
  else if 2 ≤ req.field 8 4 then .errUnsupported
  else if req.field 36 4 ≠ 0 then .errProtocol
  else .ok

def scanUnknownLimit (cfg : Config) (maxResults : Nat) : Nat :=
  let limit := min (min scanResponseLimit (1024 * 1024 / 8)) cfg.maxScanResults
  if maxResults = 0 ∨ limit < maxResults then limit else maxResults

def handleScanUnknownBody (ops : Ops) (cfg : Config) (req : Request) : Reply :=
  if scanUnknownRequestDecode req ≠ .ok then fail (scanUnknownRequestDecode req)
  else
    let maxResults := if req.body.length = 56 then req.field 16 4 else req.field 28 4
    finishScan ops req (ops.scan (.unknown req.body (scanUnknownLimit cfg maxResults)))

@[simp] theorem single_handleScanUnknownBody : (handleScanUnknownBody ops cfg req).Single req :=
  .forward fun _ => single_finishScan _

def handleScanUnknown (ops : Ops) (cfg : Config) (req : Request) : Reply :=
  if req.body.length ≠ 56 then fail .errProtocol else handleScanUnknownBody ops cfg req

@[simp] theorem single_handleScanUnknown : (handleScanUnknown ops cfg req).Single req :=
  .check (by decide) fun _ => single_handleScanUnknownBody

def handleScanUnknownV2 (ops : Ops) (cfg : Config) (req : Request) : Reply :=
  if req.body.length ≠ 64 then fail .errProtocol else handleScanUnknownBody ops cfg req

@[simp] theorem single_handleScanUnknownV2 : (handleScanUnknownV2 ops cfg req).Single req :=
  .check (by decide) fun _ => single_handleScanUnknownBody

def handleScanPointer (ops : Ops) (cfg : Config) (req : Request) : Reply :=
  if req.body.length ≠ 44 then fail .errProtocol
  else if req.field 12 8 = 0 ∨ 2 ^ 64 - 1 - req.field 4 8 < req.field 12 8 then fail .errParam
  else finishScan ops req (ops.scan (.pointer req.body (capResults cfg (req.field 32 4))))

@[simp] theorem single_handleScanPointer : (handleScanPointer ops cfg req).Single req := by
  refine .check (by decide) fun _ => .check (by decide) fun _ => ?_
  exact single_finishScan _

def aobHandler (ops : Ops) (req : Request) (size patternLengthOff : Nat)
    (scan : List UInt8 → List UInt8 → ScanOp) : Reply :=
  if req.body.length < size then fail .errProtocol
  else
    let patLen := req.field patternLengthOff 4
    if patLen = 0 ∨ 256 < patLen then fail .errParam
    else if req.body.length < size + patLen + patLen then fail .errProtocol
    else
      finishScan ops req
        (ops.scan (scan (bytesAt req size patLen) (bytesAt req (size + patLen) patLen)))

@[simp] theorem single_aobHandler (size patternLengthOff : Nat)
    (scan : List UInt8 → List UInt8 → ScanOp) :
    (aobHandler ops req size patternLengthOff scan).Single req := by
  refine .check (by decide) fun _ => .check (by decide) fun _ => .check (by decide) fun _ => ?_
  exact single_finishScan _

def handleScanAob (ops : Ops) (cfg : Config) (req : Request) : Reply :=
  aobHandler ops req 32 24 fun pattern mask =>
    .aob (req.body.take 32) pattern mask (capResults cfg (req.field 20 4))

def handleScanProcessAob (ops : Ops) (cfg : Config) (req : Request) : Reply :=
  aobHandler ops req 40 12 fun pattern mask =>
    .processAob (req.body.take 40) pattern mask (capResults cfg (req.field 8 4))

end MemDbg.Daemon.Dispatch
