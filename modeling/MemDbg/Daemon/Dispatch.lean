import MemDbg.Daemon.MemoryHandlers
import MemDbg.Daemon.DebugHandlers

/-!
# Dispatch

`dispatch_packet` and the commands it serves itself.  Every command with a framed
response keeps the contract of the handlers, except for two: PTWALK_READ sends a
failed read and returns its status as well, and the frame of a MEMORY_READ of
`2 ^ 32 - 1` bytes announces no bytes at all.
-/

namespace MemDbg.Daemon

def Command.framed : Command → Bool
  | .processHijack | .asmEncode | .disasm | .xrefsTo | .quickscanCaps | .quickscanStart
  | .quickscanCount | .quickscanFetch | .quickscanEnd | .quickscanConfig | .quickscanRegions
  | .quickscanCancel => false
  | _ => true

namespace Dispatch

open Lib Wire Wire.Reply

variable {ops : Ops} {cfg : Config} {req : Request}

/-! ## Commands without a handler of their own -/

def handleHello (ops : Ops) (req : Request) : Reply :=
  sendResponse req .ok (cstruct 112 (ops.perform 0 .helloResponse).bytes)

def handleGoodbye (req : Request) : Reply :=
  if req.body.length ≠ 0 then fail .errProtocol else sendResponse req .ok []

@[simp] theorem single_handleGoodbye : (handleGoodbye req).Single req :=
  .check (by decide) fun _ => single_sendResponse _

def handleTelemetry (ops : Ops) (req : Request) : Reply :=
  sendResponse req .ok (cstruct 60 (ops.perform 0 .telemetry).bytes)

def handlePtwalkDiscover (ops : Ops) (req : Request) : Reply :=
  sendResponse req .ok (cstruct 20 (ops.perform 0 .ptwDiscover).bytes)

def handlePtwalkAugment (ops : Ops) (req : Request) : Reply :=
  if req.body.length < 8 then fail .errProtocol else handleProcessMaps ops req

@[simp] theorem single_handlePtwalkAugment : (handlePtwalkAugment ops req).Single req :=
  .check (by decide) fun _ => single_handleProcessMapsImpl _

def ptwalkBadArgs (req : Request) : Bool :=
  pidAt req 0 ≤ 1 || req.field 16 8 = 0 || protocolMaxRead < req.field 16 8 ||
    2 ^ 64 - 1 - req.field 16 8 < req.field 8 8

def ptwalkRead (ops : Ops) (req : Request) : OpResult :=
  ops.perform 0 (.ptwRead (pidAt req 0) (req.field 8 8) (req.field 16 8))

def handlePtwalkRead (ops : Ops) (req : Request) : Reply :=
  if req.body.length ≠ 24 then fail .errProtocol
  else if ptwalkBadArgs req then fail .errParam
  else if ops.malloc 0 = false then fail .errNomem
  else
    let st : Status := if (ptwalkRead ops req).status = .ok then .ok else .errIo
    { sendResponse req st (cstruct (req.field 16 8) (ptwalkRead ops req).bytes) with status := st }

def PtwalkReadFails (ops : Ops) (req : Request) : Prop :=
  req.body.length = 24 ∧ ptwalkBadArgs req = false ∧ ops.malloc 0 = true ∧
    (ptwalkRead ops req).status ≠ .ok

theorem single_handlePtwalkRead_iff :
    (handlePtwalkRead ops req).Single req ↔ ¬PtwalkReadFails ops req := by
  simp only [handlePtwalkRead, PtwalkReadFails]
  split_ifs with hlen hargs hmalloc hst
  · exact iff_of_true (single_fail.mpr (by decide)) fun h => hlen h.1
  · exact iff_of_true (single_fail.mpr (by decide)) fun h => by simp [hargs] at h
  · exact iff_of_true (single_fail.mpr (by decide)) fun h => by simp [hmalloc] at h
  · exact iff_of_true (single_sendResponse _) fun h => h.2.2.2 hst
  · refine iff_of_false ?_ (not_not.mpr ⟨not_not.mp hlen, by simpa using hargs,
      by simpa using hmalloc, hst⟩)
    -- a frame has been written and the status is an error
    rintro (⟨hok, -⟩ | ⟨-, hnil⟩)
    · cases hok
    · simp [sendResponse] at hnil

def handlePtwalkWrite (ops : Ops) (req : Request) : Reply :=
  if req.body.length < 24 then fail .errProtocol
  else if ptwalkBadArgs req then fail .errParam
  else if req.field 16 8 ≠ req.body.length - 24 then fail .errProtocol
  else
    let r := ops.perform 0 (.ptwWrite (pidAt req 0) (req.field 8 8) (req.body.drop 24))
    sendResponse req (if r.status = .ok then .ok else .errIo) []

@[simp] theorem single_handlePtwalkWrite : (handlePtwalkWrite ops req).Single req := by
  refine .check (by decide) fun _ => .check (by decide) fun _ => .check (by decide) fun _ => ?_
  exact single_sendResponse _

def handlePtwalkProbe (ops : Ops) (req : Request) : Reply :=
  if req.body.length < 16 then fail .errProtocol
  else
    let r := ops.perform 0 (.ptwProbe (pidAt req 0) (req.field 8 8))
    let resp := cstruct 28 r.bytes
    let cached := if r.status = .ok then leNat ((resp.drop 16).take 8) / 16 % 2 else 0
    sendResponse req (if r.status = .ok then .ok else .errIo) (resp ++ leBytes 4 cached)

@[simp] theorem single_handlePtwalkProbe : (handlePtwalkProbe ops req).Single req :=
  .check (by decide) fun _ => single_sendResponse _

def handleGetExtendedCaps (ops : Ops) (req : Request) : Reply :=
  if ops.malloc 0 = false then fail .errNomem
  else sendResponse req .ok (leBytes 4 1 ++ leBytes 4 0x3DF)

@[simp] theorem single_handleGetExtendedCaps : (handleGetExtendedCaps ops req).Single req :=
  .check (by decide) fun _ => single_sendResponse _

def handleAuthKey (req : Request) : Reply :=
  if req.body.length ≠ 8 then fail .errProtocol else sendResponse req .ok []

@[simp] theorem single_handleAuthKey : (handleAuthKey req).Single req :=
  .check (by decide) fun _ => single_sendResponse _

def handleArenaConfig (ops : Ops) (req : Request) : Reply :=
  statusHandler ops req 8 (.arenaConfig req.body)

def handleKlogConnect (cfg : Config) (req : Request) : Reply :=
  if req.body.length < 4 then fail .errProtocol
  else if cfg.ps5 then sendResponse req .ok (leBytes 4 0xA00C)
  else sendResponse req .errUnsupported []

@[simp] theorem single_handleKlogConnect : (handleKlogConnect cfg req).Single req :=
  .check (by decide) fun _ => .ite (fun _ => single_sendResponse _) fun _ => single_sendResponse _

/-! ### Batch write with statuses -/

def batchWriteAdvValidate : Nat → List UInt8 → Status
  | 0, cursor => if cursor = [] then .ok else .errProtocol
  | n + 1, cursor =>
    if cursor.length < 12 then .errProtocol
    else
      let len := leNat ((cursor.drop 8).take 4)
      let rest := cursor.drop 12
      if 0x100000 < len then .errOverflow
      else if rest.length < len then .errProtocol
      else batchWriteAdvValidate n (rest.drop len)

def batchWriteAdvRun (ops : Ops) (pid : Int) : Nat → Nat → List UInt8 → List UInt8 × Status
  | 0, _, _ => ([], .ok)
  | n + 1, i, cursor =>
    let len := leNat ((cursor.drop 8).take 4)
    let rest := cursor.drop 12
    let r := ops.perform i (.memoryWrite pid (leNat (cursor.take 8)) (rest.take len))
    let (statuses, overall) := batchWriteAdvRun ops pid n (i + 1) (rest.drop len)
    if r.status = .ok ∧ r.value = len then (0 :: statuses, overall)
    else (1 :: statuses, if r.status ≠ .ok then r.status else .errIo)

def batchWriteAdvHandle (ops : Ops) (req : Request) : Status × List UInt8 :=
  let count := req.field 4 4
  let flags := req.field 8 4
  if count = 0 ∨ 0xFFFF < count then (.errParam, [])
  else if 2 ≤ flags then (.errProtocol, [])
  else if flags = 1 ∧ ops.malloc 0 = false then (.errNomem, [])
  else if batchWriteAdvValidate count (req.body.drop 16) ≠ .ok then
    (batchWriteAdvValidate count (req.body.drop 16), [])
  else
    let (statuses, overall) := batchWriteAdvRun ops (pidAt req 0) count 0 (req.body.drop 16)
    (overall, if flags = 1 then statuses else [])

def handleBatchWriteAdv (ops : Ops) (req : Request) : Reply :=
  if req.body.length < 16 then fail .errProtocol
  else sendResponse req (batchWriteAdvHandle ops req).1 (batchWriteAdvHandle ops req).2

@[simp] theorem single_handleBatchWriteAdv : (handleBatchWriteAdv ops req).Single req :=
  .check (by decide) fun _ => single_sendResponse _

/-! ### Services -/

def servicesResponse (running configured : Bool) (ports : List UInt8) : List UInt8 :=
  leBytes 4 (if running then 1 else 0) ++ leBytes 4 (if configured then 1 else 0) ++ cstruct 4 ports

def handleGetServices (ops : Ops) (req : Request) : Reply :=
  if req.body.length ≠ 0 then fail .errProtocol
  else
    let snap := ops.perform 0 .configSnapshot
    let running := (ops.perform 1 .legacyIsRunning).value ≠ 0
    sendResponse req .ok (servicesResponse running (snap.value ≠ 0) snap.bytes)

@[simp] theorem single_handleGetServices : (handleGetServices ops req).Single req :=
  .check (by decide) fun _ => single_sendResponse _

def handleSetServices (ops : Ops) (req : Request) : Reply :=
  if req.body.length ≠ 8 then fail .errProtocol
  else if 2 ≤ req.field 0 4 then fail .errUnsupported
  else if req.field 0 4 = 0 then fail .errParam
  else
    let snap := ops.perform 0 .configSnapshot
    let want := req.field 4 4 % 2 = 1
    let st := if want ∧ (ops.perform 1 .legacyIsRunning).value = 0
      then (ops.perform 2 .legacyStart).status else .ok
    let st := if (ops.perform 3 .configSave).status ≠ .ok ∧ st = .ok then .errIo else st
    let running := (ops.perform 4 .legacyIsRunning).value ≠ 0
    sendResponse req st (servicesResponse running want snap.bytes)

@[simp] theorem single_handleSetServices : (handleSetServices ops req).Single req := by
  refine .check (by decide) fun _ => .check (by decide) fun _ => .check (by decide) fun _ => ?_
  exact single_sendResponse _

/-! ## `dispatch_packet` -/

def dispatchPacket (ops : Ops) (cfg : Config) (req : Request) : Reply :=
  match req.command with
  | .hello => handleHello ops req
  | .ping => sendResponse req .ok []
  | .goodbye => handleGoodbye req
  | .processList => handleProcessList ops req
  | .processMaps => handleProcessMaps ops req
  | .processMapsV2 => handleProcessMapsV2 ops req
  | .processInfo => handleProcessInfo ops req
  | .memoryRead => handleMemoryRead ops cfg req
  | .memoryWrite => handleMemoryWrite ops cfg req
  | .batchRead => handleBatchRead ops cfg req
  | .batchWrite => handleBatchWrite ops cfg req
  | .batchProcessInfo => handleBatchProcessInfo ops req
  | .scanExact => handleScanExactV2 ops cfg req
  | .scanProcessExact => handleScanProcessExact ops cfg req
  | .scanAob => handleScanAob ops cfg req
  | .scanProcessAob => handleScanProcessAob ops cfg req
  | .scanPointer => handleScanPointer ops cfg req
  | .scanUnknown => handleScanUnknown ops cfg req
  | .scanUnknownV2 => handleScanUnknownV2 ops cfg req
  | .scanProcessExactTracked => handleScanProcessExactTracked ops cfg req
  | .scanJobStatus => handleScanJobStatus ops req false
  | .scanJobCancel => handleScanJobStatus ops req true
  | .foregroundApp => handleForegroundApp ops req
  | .processStop => handleProcessControl ops req 1
  | .processContinue => handleProcessControl ops req 2
  | .processKill => handleProcessControl ops req 3
  | .processProtect => handleProcessProtect ops req
  | .processAlloc => handleProcessAlloc ops req
  | .processFree => handleProcessFree ops req
  | .processStack => handleProcessStack ops req
  | .processCall => handleProcessCall ops req
  | .processElfLoad => handleProcessElfLoad ops req
  | .processDump => handleProcessDump ops req
  | .kernelBase => handleKernelBase ops req
  | .kernelRead => handleKernelRead ops req
  | .kernelWrite => handleKernelWrite ops req
  | .consoleNotify => handleConsoleNotify ops req
  | .consolePrint => handleConsolePrint ops req
  | .consoleReboot => handleConsoleReboot ops req
  | .debugAttach => handleDebugAttach ops req
  | .debugDetach => handleDebugDetach ops req
  | .debugStop => handleDebugStop ops req
  | .debugContinue => handleDebugContinue ops req
  | .debugStep => handleDebugStep ops req
  | .debugGetThreads => handleDebugGetThreads ops req
  | .debugGetRegs => handleDebugGetRegs ops req
  | .debugSetRegs => handleDebugSetRegs ops req
  | .debugGetDbregs => handleDebugGetDbregs ops req
  | .debugSetDbregs => handleDebugSetDbregs ops req
  | .debugGetFpregs => handleDebugGetFpregs ops req
  | .debugSetFpregs => handleDebugSetFpregs ops req
  | .debugGetFsgsbase => handleDebugGetFsgsbase ops req
  | .debugSetFsgsbase => handleDebugSetFsgsbase ops req
  | .debugSetBreakpoint => handleDebugSetBreakpoint ops req
  | .debugSetBreakpointCond => handleDebugSetBreakpointCond ops req
  | .debugClearBreakpoint => handleDebugClearBreakpoint ops req
  | .debugSetWatchpoint => handleDebugSetWatchpoint ops req
  | .debugClearWatchpoint => handleDebugClearWatchpoint ops req
  | .debugSuspendThread => handleDebugThreadControl ops req true
  | .debugResumeThread => handleDebugThreadControl ops req false
  | .debugPollEvents => handleDebugPollEvents ops req
  | .debugGetBreakpoints => handleDebugGetBreakpoints ops req
  | .debugGetWatchpoints => handleDebugGetWatchpoints ops req
  | .debugClearAllBreakpoints => handleDebugClearAllBreakpoints ops req
  | .debugClearAllWatchpoints => handleDebugClearAllWatchpoints ops req
  | .tracerAttach => handleTracerAttach ops req
  | .tracerDetach => handleTracerDetach req
  | .tracerPoll => handleTracerPoll ops req
  | .tracerStatus => handleTracerStatus ops req
  | .telemetry => handleTelemetry ops req
  | .shutdown => sendResponse req .ok []
  | .ptwalkDiscover => handlePtwalkDiscover ops req
  | .ptwalkAugment => handlePtwalkAugment ops req
  | .ptwalkRead => handlePtwalkRead ops req
  | .ptwalkWrite => handlePtwalkWrite ops req
  | .ptwalkProbe => handlePtwalkProbe ops req
  | .getExtendedCaps => handleGetExtendedCaps ops req
  | .authKey => handleAuthKey req
  | .arenaConfig => handleArenaConfig ops req
  | .batchWriteAdv => handleBatchWriteAdv ops req
  | .klogConnect => handleKlogConnect cfg req
  | .getServices => handleGetServices ops req
  | .setServices => handleSetServices ops req
  | .processHijack | .asmEncode | .disasm | .xrefsTo | .quickscanCaps | .quickscanStart
  | .quickscanCount | .quickscanFetch | .quickscanEnd | .quickscanConfig | .quickscanRegions
  | .quickscanCancel => ops.raw req
  | .discovery | .undefined _ => fail .errProtocol

/-- A request that breaks the contract: a PTWALK_READ that fails behind its checks, or
a MEMORY_READ of `2 ^ 32 - 1` bytes. -/
def Breaks (ops : Ops) (cfg : Config) (req : Request) : Prop :=
  (req.command = .ptwalkRead ∧ PtwalkReadFails ops req) ∨
    (req.command = .memoryRead ∧ ReadsWrapping ops cfg req)

theorem dispatchPacket_single_iff (h : req.command.framed = true) :
    (dispatchPacket ops cfg req).Single req ↔ ¬Breaks ops cfg req := by
  unfold dispatchPacket Breaks
  cases hcmd : req.command <;> simp only [hcmd, Command.framed, Bool.false_eq_true] at h
  case ptwalkRead => simp [single_handlePtwalkRead_iff]
  case memoryRead => simp [single_handleMemoryRead_iff]
  -- what is left is a response or an instance of a family
  all_goals simp [
    handleHello, handleTelemetry, handlePtwalkDiscover, handleArenaConfig,
    handleProcessMaps, handleProcessMapsV2, handleDebugAttach, handleDebugDetach,
    handleDebugStop, handleDebugContinue, handleDebugStep, handleDebugGetRegs,
    handleDebugSetRegs, handleDebugGetDbregs, handleDebugSetDbregs, handleDebugGetFpregs,
    handleDebugSetFpregs, handleDebugGetFsgsbase, handleDebugSetFsgsbase, setRegFile,
    handleDebugSetBreakpoint, handleDebugSetBreakpointCond, handleDebugClearBreakpoint,
    handleDebugSetWatchpoint, handleDebugClearWatchpoint, handleDebugThreadControl,
    handleDebugPollEvents, handleDebugGetBreakpoints, handleDebugGetWatchpoints, clearAll,
    handleDebugClearAllBreakpoints, handleDebugClearAllWatchpoints, handleTracerDetach,
    handleTracerStatus, handleConsoleNotify, handleConsolePrint, handleConsoleReboot,
    handleKernelBase, handleScanAob, handleScanProcessAob]

theorem dispatchPacket_writes (h : req.command.framed = true)
    (hnil : (dispatchPacket ops cfg req).frames = []) :
    (dispatchPacket ops cfg req).status ≠ .ok := by
  by_cases hbreaks : Breaks ops cfg req
  · obtain ⟨hcmd, hlen, hargs, hmalloc, -⟩ | ⟨hcmd, -⟩ := hbreaks
    · simp [dispatchPacket, hcmd, handlePtwalkRead, hlen, hargs, hmalloc, sendResponse] at hnil
    · simp only [dispatchPacket, hcmd] at hnil ⊢
      exact handleMemoryRead_writes hnil
  · obtain ⟨-, f, hf, -⟩ | ⟨hst, -⟩ := (dispatchPacket_single_iff h).mpr hbreaks
    · simp [hf] at hnil
    · exact hst

theorem status_hello (h : req.command = .hello) : (dispatchPacket ops cfg req).status = .ok := by
  rw [dispatchPacket, h]
  rfl

end Dispatch

end MemDbg.Daemon
