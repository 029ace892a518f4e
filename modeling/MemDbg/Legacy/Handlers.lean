import MemDbg.Legacy.Quickscan
import MemDbg.Legacy.Scanner
import MemDbg.Lib.Dialogue

/-!
# The handlers of the legacy server

What every handler of `legacy/process.c`, `legacy/debugger.c`, `legacy/kernel.c`,
`legacy/console.c` and `legacy/analysis.c` writes to its client and reads from it, for
every outcome of the operations it calls; `legacy_dispatch`, and a turn of the loop of
`legacy_handle_client`.
-/

namespace MemDbg.Legacy

open Lib Lib.Dialogue

/-! ## Commands -/

inductive LegacyCommand where
  | version
  | fwVersion
  | branding
  | platformId
  | procNop
  | procAuth
  | procList
  | procRead
  | procWrite
  | procWriteMulti
  | procMaps
  | procInstall
  | procCall
  | procElfLoad
  | procProtect
  | procInfo
  | procAlloc
  | procFree
  | procFirstMap
  | procAllocHinted
  | scan
  | scanAob
  | scanFetch
  | debugAttach
  | debugDetach
  | debugSetBp
  | debugSetWp
  | debugGetThreads
  | debugSuspendTid
  | debugResumeTid
  | debugGetRegs
  | debugSetRegs
  | debugGetFpregs
  | debugSetFpregs
  | debugGetDbregs
  | debugSetDbregs
  | debugGetFsgsbase
  | debugSetFsgsbase
  | debugContinue
  | debugThreadInfo
  | debugStep
  | debugStepThread
  | debugProcessStop
  | kernBase
  | kernRead
  | kernWrite
  | consoleReboot
  | consoleEnd
  | consolePrint
  | consoleNotify
  | consoleInfo
  | consoleForeground
  | disasm
  | xrefs
  | quickscanCaps
  | quickscanStart
  | quickscanCount
  | quickscanFetch
  | quickscanEnd
  | quickscanConfig
  | quickscanRegions
deriving DecidableEq

namespace LegacyCommand

def table : List (Nat × LegacyCommand) :=
  [(0xBD000001, version), (0xBD000500, fwVersion), (0xBD000501, branding),
    (0xBD000502, platformId), (0xBDAACC06, procNop), (0xBDAACCFF, procAuth),
    (0xBDAA0001, procList), (0xBDAA0002, procRead), (0xBDAA0003, procWrite),
    (0xBDAACC04, procWriteMulti), (0xBDAA0004, procMaps), (0xBDAA0005, procInstall),
    (0xBDAA0006, procCall), (0xBDAA0007, procElfLoad), (0xBDAA0008, procProtect),
    (0xBDAA000A, procInfo), (0xBDAA000B, procAlloc), (0xBDAA000C, procFree),
    (0xBDAA000D, procFirstMap), (0xBDAA000E, procAllocHinted), (0xBDAA0009, scan),
    (0xBDAA0501, scanAob), (0xBDAACC03, scanFetch), (0xBDBB0001, debugAttach),
    (0xBDBB0002, debugDetach), (0xBDBB0003, debugSetBp), (0xBDBB0004, debugSetWp),
    (0xBDBB0005, debugGetThreads), (0xBDBB0006, debugSuspendTid), (0xBDBB0007, debugResumeTid),
    (0xBDBB0008, debugGetRegs), (0xBDBB0009, debugSetRegs), (0xBDBB000A, debugGetFpregs),
    (0xBDBB000B, debugSetFpregs), (0xBDBB000C, debugGetDbregs), (0xBDBB000D, debugSetDbregs),
    (0xBDBB000E, debugGetFsgsbase), (0xBDBB000F, debugSetFsgsbase), (0xBDBB0010, debugContinue),
    (0xBDBB0011, debugThreadInfo), (0xBDBB0012, debugStep), (0xBDBB0013, debugStepThread),
    (0xBDBB0500, debugProcessStop), (0xBDCC0001, kernBase), (0xBDCC0002, kernRead),
    (0xBDCC0003, kernWrite), (0xBDDD0001, consoleReboot), (0xBDDD0002, consoleEnd),
    (0xBDDD0003, consolePrint), (0xBDDD0004, consoleNotify), (0xBDDD0005, consoleInfo),
    (0xBDDD0006, consoleForeground), (0xBDAA0020, disasm), (0xBDAA0022, xrefs),
    (0xBDAACC10, quickscanCaps), (0xBDAACC11, quickscanStart), (0xBDAACC12, quickscanCount),
    (0xBDAACC13, quickscanFetch), (0xBDAACC14, quickscanEnd), (0xBDAACC15, quickscanConfig),
    (0xBDAACC16, quickscanRegions)]

def ofCode (code : Nat) : Option LegacyCommand := table.lookup code

end LegacyCommand

/-! ## Writing to the client -/

inductive Piece where
  | status (code word : UInt32)
  | blob (bytes : List UInt8)
deriving DecidableEq

abbrev LegacyTalk := Talk UInt8 Piece Status

def sendAll : List (List Piece) → LegacyTalk → LegacyTalk
  | [], next => next
  | write :: writes, next =>
    .send write fun sent => if sent then sendAll writes next else .done .errNet

def answer (writes : List (List Piece)) : LegacyTalk := sendAll writes (.done .ok)

def statusWord (code : UInt32) : List Piece := [.status code (legacyBitswap32 code)]

def sendBlob (bytes : List UInt8) : List (List Piece) := if bytes = [] then [] else [[.blob bytes]]

def sendStatus (code : UInt32) : LegacyTalk := answer [statusWord code]

def sendMemdbgStatus (st : Status) : LegacyTalk := sendStatus (legacyStatusFromMemdbg st)

def sendSuccess (bytes : List UInt8) :
    LegacyTalk := answer (statusWord cmdSuccess :: sendBlob bytes)

def sendCounted (count : Nat) (entries : List UInt8) : LegacyTalk :=
  answer ([statusWord cmdSuccess, [.blob (leBytes 4 count)]] ++ sendBlob entries)

def zeroed (n : Nat) (bytes : List UInt8) : List UInt8 := (bytes ++ List.replicate n 0).take n

def legacyCopyFixed (n : Nat) (text : List UInt8) : List UInt8 := zeroed n (text.take (n - 1))

def hasBody (body : List UInt8) (expected : Nat) : Bool :=
  decide (body ≠ []) && decide (body.length = expected)

/-! ## The operations -/

structure LegacyProcess where
  name : List UInt8
  pid : Int

structure LegacyMap where
  name : List UInt8
  start : Nat
  stop : Nat
  protection : Nat

structure LegacyProcessInfo where
  pid : Int
  name : List UInt8
  path : List UInt8
  titleId : List UInt8
  contentId : List UInt8

inductive NativeAnswer (width size : Nat) where
  | refused (code : UInt32) (refused : code ≠ 0 ∧ code ≠ cmdSuccess)
  | found (count : Nat) (entries : List UInt8) (count_lt : count < 256 ^ width)
    (length_entries : entries.length = size * count)

def NativeAnswer.bytes {width size : Nat} : NativeAnswer width size → List UInt8
  | refused code _ => leBytes 4 code.toNat
  | found count entries _ _ => leBytes 4 0 ++ leBytes width count ++ entries

structure DebugOps where
  supported : Bool
  isAttached : Bool
  attach : Nat → Status
  threads : Status × List (Nat × List UInt8)
  stopLwp : Int
  attachedPid : Int
  step : Int → Status
  go : Status
  stop : Status
  kill : Nat → Nat → Bool
  setBreakpoint : Nat → Status
  clearBreakpoint : Nat → Status
  setWatchpoint : Nat → Nat → Nat → Status
  clearWatchpoint : Nat → Status
  suspendThread : Nat → Status
  resumeThread : Nat → Status
  getRegisters : LegacyCommand → Nat → Status × List UInt8
  setRegisters : LegacyCommand → Nat → List UInt8 → Status
  breakpoints : Nat → Nat
  watchpoints : Nat → Nat

structure LegacyOps where
  requestBuffer : Bool
  buffer : Bool
  statusBytes : Bool
  pair : Bool
  entriesBuffer : Bool
  responseBuffer : Bool
  processList : Status × List LegacyProcess
  processMapsCached : Nat → Status × List LegacyMap
  processMaps : Nat → Status × List LegacyMap
  processInfo : Int → Status × LegacyProcessInfo
  memoryRead : Nat → Nat → Nat → List UInt8
  memoryWrite : Nat → Nat → List UInt8 → Bool
  memoryAlloc : Nat → Nat → Nat → Bool → Status × Nat
  memoryFree : Nat → Nat → Nat → Status
  memoryProtect : Nat → Nat → Nat → Nat → Status
  kernelSupported : Bool
  kernelBase : Status × Nat
  kernelRead : Nat → Nat → Status × List UInt8
  kernelWrite : Nat → List UInt8 → Status
  debug : DebugOps
  disasm : NativeAnswer 4 32
  xrefs : NativeAnswer 8 8
  call : Option (Status × List UInt8)
  elfLoad : Option (Status × List UInt8)
  scanEnv : Scan.Env
  scanAllocated : Bool
  scanSession : ScanSession
  scanned : ∃ maxScanResults steps, (ScanServer.run maxScanResults steps).session = scanSession
  quickscan : QuickscanEnv

structure LegacyConfig where
  maxPacketBytes : Nat
  maxReadBytes : Nat
  maxScanResults : Nat
  pairCapacity : Nat
  four_le_pairCapacity : 4 ≤ pairCapacity
  platformId : Nat
  hasReboot : Bool

def legacyRwChunk : Nat := 0x10000

def writeMultiMaxCount : Nat := 0xFFFF

def writeMultiMaxEntry : Nat := 0x100000

def LegacyConfig.rwAllowed (cfg : LegacyConfig) (length : Nat) : Bool :=
  decide (length ≤ cfg.maxReadBytes)

/-! ## Metadata -/

def sendSizedString (text : List UInt8) : LegacyTalk :=
  answer ([.blob (leBytes 4 text.length)] :: sendBlob text)

def legacyHandleVersion : LegacyTalk := sendSizedString [0x31, 0x2E, 0x33]

def brand : List UInt8 :=
  "MemDBG ps5debug-compat\x00MDBG-1".toList.map fun c => UInt8.ofNat c.toNat

def legacyHandleBranding : LegacyTalk := sendSizedString brand

def legacyHandlePlatformIdCmd (cfg : LegacyConfig) : LegacyTalk :=
  answer [[.blob (leBytes 2 cfg.platformId)]]

def legacyHandleFwVersion : LegacyTalk := answer [[.blob (leBytes 2 0)]]

/-! ## Processes -/

def int32Bytes (n : Int) : List UInt8 := leBytes 4 (n % 2 ^ 32).toNat

def procListEntry (e : LegacyProcess) : List UInt8 := legacyCopyFixed 32 e.name ++ int32Bytes e.pid

def procMapsEntry (e : LegacyMap) : List UInt8 :=
  legacyCopyFixed 32 e.name ++ leBytes 8 e.start ++ leBytes 8 e.stop ++ leBytes 8 0 ++
    leBytes 2 (e.protection % 2 ^ 16)

def sendList {ε : Type} (ops : LegacyOps) (list : Status × List ε) (entry : ε → List UInt8) :
    LegacyTalk :=
  if list.1 ≠ .ok ∨ list.2.length = 0 ∨ list.2.length > 2 ^ 32 - 1 then
    sendMemdbgStatus (if list.1 = .ok then .errNotFound else list.1)
  else if ops.buffer = false then sendStatus cmdDataNull
  else sendCounted list.2.length (list.2.flatMap entry)

def legacyHandleProcessList (ops : LegacyOps) : LegacyTalk :=
  sendList ops ops.processList procListEntry

def legacyHandleProcessMaps (ops : LegacyOps) (body : List UInt8) : LegacyTalk :=
  if hasBody body 4 = false then sendStatus cmdDataNull
  else sendList ops (ops.processMapsCached (field body 0 4)) procMapsEntry

def procInfoResponse (info : LegacyProcessInfo) : List UInt8 :=
  int32Bytes info.pid ++ legacyCopyFixed 40 info.name ++ legacyCopyFixed 64 info.path ++
    legacyCopyFixed 16 info.titleId ++ legacyCopyFixed 64 info.contentId

def legacyHandleProcessInfo (ops : LegacyOps) (body : List UInt8) : LegacyTalk :=
  if hasBody body 4 = false then sendStatus cmdDataNull
  else
    let info := ops.processInfo (Daemon.Dispatch.int32 (field body 0 4))
    if info.1 ≠ .ok then sendMemdbgStatus info.1 else sendSuccess (procInfoResponse info.2)

def legacyHandleProcessAlloc (ops : LegacyOps) (body : List UInt8) (hinted : Bool) : LegacyTalk :=
  if hasBody body (if hinted then 16 else 8) = false then sendStatus cmdDataNull
  else
    let pid := field body 0 4
    let hint := if hinted then field body 4 8 else 0
    let length := if hinted then field body 12 4 else field body 4 4
    if pid = 0 ∨ length = 0 then sendStatus cmdError
    else
      let result := ops.memoryAlloc pid hint length hinted
      answer (statusWord (legacyStatusFromMemdbg result.1) ::
        if result.1 = .ok ∨ hinted then [[.blob (leBytes 8 result.2)]] else [])

def legacyHandleProcessFree (ops : LegacyOps) (body : List UInt8) : LegacyTalk :=
  if hasBody body 16 = false then sendStatus cmdDataNull
  else if field body 0 4 = 0 ∨ field body 4 8 = 0 ∨ field body 12 4 = 0 then sendStatus cmdError
  else sendMemdbgStatus (ops.memoryFree (field body 0 4) (field body 4 8) (field body 12 4))

def legacyHandleProcessProtect (ops : LegacyOps) (body : List UInt8) : LegacyTalk :=
  if hasBody body 20 = false then sendStatus cmdDataNull
  else if field body 0 4 = 0 ∨ field body 4 8 = 0 ∨ field body 12 4 = 0 ∨ field body 16 4 ≥ 8 then
    sendStatus cmdError
  else sendMemdbgStatus (ops.memoryProtect (field body 0 4) (field body 4 8) (field body 12 4)
    (field body 16 4))

def legacyHandleFirstMap (ops : LegacyOps) (body : List UInt8) : LegacyTalk :=
  if hasBody body 4 = false then sendStatus cmdDataNull
  else
    let list := ops.processMaps (field body 0 4)
    match list.2 with
    | [] => sendMemdbgStatus (if list.1 = .ok then .errNotFound else list.1)
    | first :: _ =>
      if list.1 ≠ .ok then sendMemdbgStatus list.1 else sendSuccess (leBytes 8 first.start)

def legacyHandleInstall : LegacyTalk := sendSuccess (leBytes 8 0)

/-! ## Memory -/

def readChunks (read : Nat → Nat → List UInt8) (address rem : Nat) : List (List Piece) :=
  if _h : rem = 0 then []
  else
    let chunk := min rem legacyRwChunk
    [.blob (zeroed chunk (read address chunk))] ::
      readChunks read (wrap64 (address + chunk)) (rem - chunk)
termination_by rem
decreasing_by
  have hchunk : 0 < legacyRwChunk := by decide
  omega

def legacyHandleMemoryRead (cfg : LegacyConfig) (ops : LegacyOps) (body : List UInt8) :
    LegacyTalk :=
  if hasBody body 16 = false then sendStatus cmdDataNull
  else if cfg.rwAllowed (field body 12 4) = false then sendStatus cmdError
  else if ops.buffer = false then sendStatus cmdDataNull
  else answer (statusWord cmdSuccess ::
    readChunks (ops.memoryRead (field body 0 4)) (field body 4 8) (field body 12 4))

def recvChunks (write : Nat → List UInt8 → Bool) (address rem : Nat) (failed : Bool)
    (next : Bool → LegacyTalk) : LegacyTalk :=
  if _h : rem = 0 then next failed
  else
    let chunk := min rem legacyRwChunk
    .recv chunk fun
      | none => .done .errNet
      | some bytes => recvChunks write (wrap64 (address + chunk)) (rem - chunk)
          (failed || !write address bytes) next
termination_by rem
decreasing_by
  have hchunk : 0 < legacyRwChunk := by decide
  omega

def legacyHandleMemoryWrite (cfg : LegacyConfig) (ops : LegacyOps) (body : List UInt8) :
    LegacyTalk :=
  if hasBody body 16 = false then sendStatus cmdDataNull
  else if cfg.rwAllowed (field body 12 4) = false then sendStatus cmdError
  else if ops.buffer = false then sendStatus cmdDataNull
  else sendAll [statusWord cmdSuccess]
    (recvChunks (ops.memoryWrite (field body 0 4)) (field body 4 8) (field body 12 4) false
      fun failed => sendStatus (if failed then cmdError else cmdSuccess))

def recvEntries (cfg : LegacyConfig) (write : Nat → List UInt8 → Bool) :
    Nat → List Bool → (List Bool → LegacyTalk) → LegacyTalk
  | 0, failures, next => next failures
  | count + 1, failures, next => .recv 12 fun
      | none => .done .errNet
      | some entry =>
        let length := field entry 8 4
        if length > writeMultiMaxEntry ∨ cfg.rwAllowed length = false then sendStatus cmdError
        else recvChunks write (field entry 0 8) length false fun failed =>
          recvEntries cfg write count (failures ++ [failed]) next

def legacyHandleWriteMulti (cfg : LegacyConfig) (ops : LegacyOps) (body : List UInt8) :
    LegacyTalk :=
  if hasBody body 12 = false then sendStatus cmdDataNull
  else
    let count := field body 4 4
    let wantStatus := (field body 8 4).testBit 0
    if count > writeMultiMaxCount then sendStatus cmdError
    else if ops.buffer = false then sendStatus cmdDataNull
    else if wantStatus ∧ count ≠ 0 ∧ ops.statusBytes = false then sendStatus cmdDataNull
    else sendAll [statusWord cmdSuccess]
      (recvEntries cfg (ops.memoryWrite (field body 0 4)) count [] fun failures =>
        answer ((if wantStatus then sendBlob (failures.map fun failed => if failed then 1 else 0)
          else []) ++ [statusWord cmdSuccess]))

/-! ## Scans -/

def sendWrites : List (List Piece) → LegacyTalk
  | [] => .done .ok
  | write :: writes => .send write fun sent => if sent then sendWrites writes else .done .ok

def ScanSession.writes (session : ScanSession) : List (List Piece) :=
  if session.active = false then [[.blob (leBytes 4 0)]]
  else
    let chunk := min (session.total - session.cursor) scanChunkMax
    if chunk = 0 then [[.blob (leBytes 4 0)]]
    else
      [[.blob (leBytes 4 chunk)],
          [.blob (((session.addresses.drop session.cursor).take chunk).flatMap (leBytes 8))]] ++
        if session.cursor + chunk ≥ session.total then [[.blob (leBytes 4 0)]] else []

def sendScan (ops : LegacyOps) : Except UInt32 Scan.ScanResult → LegacyTalk
  | .error code => sendStatus code
  | .ok result =>
    let st := (scanSessionFromResult result ops.scanAllocated).1
    if st ≠ .ok then sendMemdbgStatus st else sendWrites ops.scanSession.writes

def legacyHandleScanExact (cfg : LegacyConfig) (ops : LegacyOps) (body : List UInt8) : LegacyTalk :=
  sendScan ops (scanExactOver rangeLength cfg.maxScanResults ops.scanEnv body)

def legacyHandleScanAobStart (cfg : LegacyConfig) (ops : LegacyOps) (body : List UInt8) :
    LegacyTalk :=
  sendScan ops (scanAobOver rangeLength cfg.maxScanResults ops.scanEnv body)

def legacyHandleScanCont (ops : LegacyOps) : LegacyTalk :=
  if ops.scanSession.active = false then answer [[.blob (leBytes 4 0)]]
  else sendWrites ops.scanSession.writes

/-! ## Debugger -/

def legacyHandleDebugAttach (ops : DebugOps) (body : List UInt8) : LegacyTalk :=
  if hasBody body 4 = false then sendStatus cmdDataNull
  else if ops.supported = false then sendStatus cmdError
  else if ops.isAttached then sendStatus cmdAlreadyDebug
  else sendMemdbgStatus (ops.attach (field body 0 4))

def legacyDebugGetBlob (ops : DebugOps) (command : LegacyCommand) (size lwp : Nat) : LegacyTalk :=
  let registers := ops.getRegisters command lwp
  if registers.1 = .ok then sendSuccess (zeroed size registers.2) else sendMemdbgStatus registers.1

def expectedBlob (command : LegacyCommand) (length : Nat) : Option Nat :=
  match command with
  | .debugSetRegs => some 176
  | .debugSetDbregs => some 128
  | .debugSetFpregs => if length ≠ 512 ∧ length ≠ 832 then none else some length
  | .debugSetFsgsbase => some 16
  | _ => none

def legacyDebugSetBlob (ops : LegacyOps) (command : LegacyCommand) (body : List UInt8) :
    LegacyTalk :=
  match expectedBlob command (field body 4 4) with
  | none => sendMemdbgStatus .errParam
  | some expected =>
    if field body 4 4 ≠ expected then sendMemdbgStatus .errParam
    else if ops.buffer = false then sendMemdbgStatus .errNomem
    else sendAll [statusWord cmdSuccess] (.recv expected fun
      | none => .done .errNet
      | some blob =>
        sendMemdbgStatus (ops.debug.setRegisters command (field body 0 4) blob))

def legacyDebugSetBp (ops : DebugOps) (body : List UInt8) : LegacyTalk :=
  if hasBody body 16 = false then sendMemdbgStatus .errParam
  else if field body 0 4 ≥ 30 then sendStatus cmdInvalidIndex
  else if field body 4 4 ≠ 0 then sendMemdbgStatus (ops.setBreakpoint (field body 8 8))
  else
    let address := ops.breakpoints (field body 0 4)
    sendMemdbgStatus (if address ≠ 0 then ops.clearBreakpoint address else .ok)

def legacyDebugSetWp (ops : DebugOps) (body : List UInt8) : LegacyTalk :=
  if hasBody body 24 = false then sendMemdbgStatus .errParam
  else if field body 0 4 ≥ 4 then sendStatus cmdInvalidIndex
  else if field body 4 4 ≠ 0 then
    let length := [1, 2, 8, 4].getD (field body 8 4 % 4) 0
    let type := if field body 12 4 = 0 then 0 else if field body 12 4 = 1 then 1 else 3
    sendMemdbgStatus (ops.setWatchpoint (field body 16 8) length type)
  else
    let address := ops.watchpoints (field body 0 4)
    sendMemdbgStatus (if address ≠ 0 then ops.clearWatchpoint address else .ok)

def legacyDebugContinue (ops : DebugOps) (body : List UInt8) : LegacyTalk :=
  if hasBody body 4 = false then sendMemdbgStatus .errParam
  else
    match field body 0 4 with
    | 0 => sendMemdbgStatus ops.go
    | 1 => sendMemdbgStatus ops.stop
    | 2 => sendMemdbgStatus
        (if 0 < ops.attachedPid ∧ ops.kill ops.attachedPid.toNat 2 then .ok else .errIo)
    | _ => sendMemdbgStatus .errParam

def legacyDebugProcessStop (ops : DebugOps) (body : List UInt8) : LegacyTalk :=
  if body.length ≠ 5 then sendMemdbgStatus .errParam
  else if field body 0 4 = 0 ∨ field body 4 1 > 2 then sendMemdbgStatus .errParam
  else sendMemdbgStatus (if ops.kill (field body 0 4) (field body 4 1) then .ok else .errIo)

def maxThreads : Nat := 256

def legacyDebugThreadInfo (ops : DebugOps) (lwp : Nat) : LegacyTalk :=
  if ops.threads.1 ≠ .ok then sendMemdbgStatus ops.threads.1
  else
    let name := ((ops.threads.2.take maxThreads).lookup lwp).getD []
    sendSuccess (leBytes 4 lwp ++ leBytes 4 0 ++ legacyCopyFixed 32 name)

def legacyDebugGetThreads (ops : DebugOps) : LegacyTalk :=
  if ops.threads.1 ≠ .ok then sendMemdbgStatus ops.threads.1
  else
    let lwps := ops.threads.2.take maxThreads
    sendCounted lwps.length (lwps.flatMap fun thread => leBytes 4 thread.1)

def legacyHandleDebugCommand (ops : LegacyOps) (command : LegacyCommand) (body : List UInt8) :
    LegacyTalk :=
  match command with
  | .debugDetach => sendStatus cmdSuccess
  | .debugGetThreads => legacyDebugGetThreads ops.debug
  | .debugStep => sendMemdbgStatus (ops.debug.step
      (if ops.debug.stopLwp ≤ 0 then ops.debug.attachedPid else ops.debug.stopLwp))
  | .debugSetBp => legacyDebugSetBp ops.debug body
  | .debugSetWp => legacyDebugSetWp ops.debug body
  | .debugContinue => legacyDebugContinue ops.debug body
  | .debugProcessStop => legacyDebugProcessStop ops.debug body
  | command =>
    let lwp := field body 0 4
    if hasBody body 4 = false then sendMemdbgStatus .errParam
    else
      match command with
      | .debugGetRegs => legacyDebugGetBlob ops.debug command 176 lwp
      | .debugGetFpregs => legacyDebugGetBlob ops.debug command 832 lwp
      | .debugGetDbregs => legacyDebugGetBlob ops.debug command 128 lwp
      | .debugGetFsgsbase => legacyDebugGetBlob ops.debug command 16 lwp
      | .debugSetRegs | .debugSetFpregs | .debugSetDbregs | .debugSetFsgsbase =>
        if hasBody body 8 = false then sendMemdbgStatus .errParam
        else legacyDebugSetBlob ops command body
      | .debugSuspendTid => sendMemdbgStatus (ops.debug.suspendThread lwp)
      | .debugResumeTid => sendMemdbgStatus (ops.debug.resumeThread lwp)
      | .debugStepThread => sendMemdbgStatus (ops.debug.step (Daemon.Dispatch.int32 lwp))
      | .debugThreadInfo => legacyDebugThreadInfo ops.debug lwp
      | _ => sendMemdbgStatus .errUnsupported

/-! ## Kernel -/

def legacyHandleKernBase (ops : LegacyOps) : LegacyTalk :=
  if ops.kernelSupported = false then sendStatus cmdError
  else if ops.kernelBase.1 ≠ .ok then sendMemdbgStatus ops.kernelBase.1
  else sendSuccess (leBytes 8 ops.kernelBase.2)

def legacyHandleKernRead (cfg : LegacyConfig) (ops : LegacyOps) (body : List UInt8) : LegacyTalk :=
  if ops.kernelSupported = false then sendStatus cmdError
  else if hasBody body 12 = false then sendStatus cmdDataNull
  else if field body 8 4 = 0 ∨ cfg.rwAllowed (field body 8 4) = false then sendStatus cmdError
  else if ops.buffer = false then sendStatus cmdDataNull
  else
    let data := ops.kernelRead (field body 0 8) (field body 8 4)
    if data.1 ≠ .ok then sendMemdbgStatus data.1 else sendSuccess (zeroed (field body 8 4) data.2)

def legacyHandleKernWrite (cfg : LegacyConfig) (ops : LegacyOps) (body : List UInt8) : LegacyTalk :=
  if ops.kernelSupported = false then sendStatus cmdError
  else if hasBody body 12 = false then sendStatus cmdDataNull
  else if field body 8 4 = 0 ∨ cfg.rwAllowed (field body 8 4) = false then sendStatus cmdError
  else if ops.buffer = false then sendStatus cmdDataNull
  else sendAll [statusWord cmdSuccess] (.recv (field body 8 4) fun
    | none => .done .errNet
    | some data => sendMemdbgStatus (ops.kernelWrite (field body 0 8) data))

/-! ## Console -/

def legacyConsoleText (ops : LegacyOps) (length : Nat) : LegacyTalk :=
  if length > 4096 then sendMemdbgStatus .errParam
  else if ops.buffer = false then sendMemdbgStatus .errNomem
  else if length = 0 then sendMemdbgStatus .ok
  else .recv length fun
    | none => sendMemdbgStatus .errNet
    | some _ => sendMemdbgStatus .ok

def ebootNames : List (List UInt8) :=
  [[0x65, 0x62, 0x6F, 0x6F, 0x74, 0x2E, 0x62, 0x69, 0x6E], [0x65, 0x62, 0x6F, 0x6F, 0x74]]

theorem lawfulBEq_bytes : LawfulBEq (List UInt8) := inferInstance

attribute [local instance] lawfulBEq_bytes in
def foregroundResponse (ops : LegacyOps) (list : List LegacyProcess) : List UInt8 :=
  match list.find? fun e => e.name ∈ ebootNames with
  | none => zeroed 140 []
  | some e =>
    let info := ops.processInfo e.pid
    if info.1 ≠ .ok then zeroed 140 []
    else int32Bytes info.2.pid ++ legacyCopyFixed 16 info.2.titleId ++
      legacyCopyFixed 64 info.2.contentId ++ legacyCopyFixed 40 info.2.name ++ zeroed 16 []

def legacyConsoleForeground (ops : LegacyOps) : LegacyTalk :=
  if ops.processList.1 ≠ .ok then sendMemdbgStatus ops.processList.1
  else sendSuccess (foregroundResponse ops ops.processList.2)

def legacyHandleConsoleCommand (cfg : LegacyConfig) (ops : LegacyOps) (command : LegacyCommand)
    (body : List UInt8) : LegacyTalk :=
  match command with
  | .consoleEnd | .consoleInfo => sendStatus cmdSuccess
  | .consoleForeground => legacyConsoleForeground ops
  | .consoleReboot => if cfg.hasReboot then .done .ok else sendStatus cmdError
  | .consolePrint =>
    if hasBody body 4 = false then sendStatus cmdDataNull
    else legacyConsoleText ops (field body 0 4)
  | .consoleNotify =>
    if hasBody body 8 = false then sendStatus cmdDataNull
    else legacyConsoleText ops (field body 4 4)
  | _ => sendStatus cmdError

/-! ## Analysis -/

def rawSuccess (bytes : List UInt8) : List Piece := [.status cmdSuccess cmdSuccess, .blob bytes]

def readNativeList (ops : LegacyOps) (width size cap : Nat) (countFirst : Bool)
    (native : List UInt8) : Except UInt32 (List UInt8) :=
  let nstatus := UInt32.ofNat (leNat (native.take 4))
  let count := leNat ((native.drop 4).take width)
  let entries := (native.drop (4 + width)).take (wrap32 (count * size))
  if native.length < 4 then .error cmdError
  else if countFirst ∧ native.length < 4 + width then .error cmdError
  else if nstatus ≠ 0 then .error nstatus
  else if native.length < 4 + width then .error cmdError
  else if count > cap then .error cmdError
  -- `legacy_read_exact_alloc` takes from 1 byte to 64 MiB
  else if 0 < count ∧ (wrap32 (count * size) = 0 ∨ wrap32 (count * size) > 64 * 2 ^ 20 ∨
      ops.entriesBuffer = false ∨ entries.length < wrap32 (count * size)) then .error cmdDataNull
  else if ops.responseBuffer = false then .error cmdDataNull
  else .ok (leBytes width count ++ entries)

def sendNativeList {width size : Nat} (cfg : LegacyConfig) (ops : LegacyOps) (cap : Nat)
    (countFirst : Bool) (native : NativeAnswer width size) : LegacyTalk :=
  if native.bytes.length > cfg.pairCapacity then .stuck
  else
    match readNativeList ops width size cap countFirst native.bytes with
    | .error code => sendStatus code
    | .ok bytes => answer [rawSuccess bytes]

def legacyHandleDisasm (cfg : LegacyConfig) (ops : LegacyOps) (body : List UInt8) : LegacyTalk :=
  if body.length < 16 then sendStatus cmdError
  else if ops.buffer = false then sendStatus cmdDataNull
  else if ops.pair = false then sendStatus cmdError
  else sendNativeList cfg ops 131072 false ops.disasm

def legacyHandleXrefs (cfg : LegacyConfig) (ops : LegacyOps) (body : List UInt8) : LegacyTalk :=
  if body.length < 28 then sendStatus cmdError
  else if ops.pair = false then sendStatus cmdError
  else sendNativeList cfg ops 32768 true ops.xrefs

def sendNativeResponse (size : Nat) : Option (Status × List UInt8) → LegacyTalk
  | none => sendStatus cmdError
  | some response =>
    if response.1 ≠ .ok ∨ response.2.length < size then sendMemdbgStatus response.1
    else answer [rawSuccess (response.2.take size)]

def legacyHandleProcCall (ops : LegacyOps) (body : List UInt8) : LegacyTalk :=
  if body.length < 60 then sendStatus cmdError
  else if ops.pair = false then sendStatus cmdError
  else sendNativeResponse 8 ops.call

def legacyHandleProcElfLoad (ops : LegacyOps) (body : List UInt8) : LegacyTalk :=
  if body.length < 16 then sendStatus cmdError
  else if field body 8 8 = 0 ∨ field body 8 8 > 64 * 2 ^ 20 then sendStatus cmdError
  else if body.length < 16 + field body 8 8 then sendStatus cmdError
  else if ops.buffer = false then sendStatus cmdDataNull
  else if ops.pair = false then sendStatus cmdError
  else sendNativeResponse 16 ops.elfLoad

/-! ## FlashScan -/

def capsIo : List FlashScan.Io :=
  [FlashScan.sendOk, .write (leBytes 4 1 ++ leBytes 4 0x3ED ++ leBytes 4 4 ++ leBytes 4 0)]

def quickscanCall (env : QuickscanEnv) (body : List UInt8) : LegacyCommand → BridgeCall
  | .quickscanCaps => if env.pair then .handler (some capsIo) else .refused
  | .quickscanConfig =>
    if body.length < 8 ∨ env.pair = false then .refused else .handler (some [FlashScan.sendOk])
  | .quickscanRegions => bridgeCall env .regions body
  | .quickscanStart => bridgeCall env .start body
  | .quickscanCount => bridgeCall env .count body
  | .quickscanFetch => bridgeCall env .fetch body
  | .quickscanEnd =>
    if env.pair = false ∨ env.slot = false then .refused else .handler (some [FlashScan.sendOk])
  | _ => .refused

def bridgeWrites (realloc : Nat → Bool) (fifo : List UInt8) : List (List Piece) :=
  if fifo.length < 4 then [statusWord cmdError]
  else if leNat (fifo.take 4) ≠ 0 then [statusWord cmdError]
  else statusWord cmdSuccess :: sendBlob ((readRemaining realloc (fifo.drop 4)).getD [])

def sendBridge (cfg : LegacyConfig) (env : QuickscanEnv) : BridgeCall → LegacyTalk
  | .refused => sendStatus cmdError
  | .handler none => .stuck
  | .handler (some script) =>
    if Pipe.Fits cfg.pairCapacity ⟨[], script⟩ then
      answer (bridgeWrites env.realloc (Pipe.written script))
    else .stuck

/-! ## Dispatch -/

def legacyHandle (cfg : LegacyConfig) (ops : LegacyOps) (body : List UInt8)
    (command : LegacyCommand) : LegacyTalk :=
  match command with
  | .version => legacyHandleVersion
  | .fwVersion => legacyHandleFwVersion
  | .branding => legacyHandleBranding
  | .platformId => legacyHandlePlatformIdCmd cfg
  | .procNop | .procAuth => sendStatus cmdSuccess
  | .procList => legacyHandleProcessList ops
  | .procRead => legacyHandleMemoryRead cfg ops body
  | .procWrite => legacyHandleMemoryWrite cfg ops body
  | .procWriteMulti => legacyHandleWriteMulti cfg ops body
  | .procMaps => legacyHandleProcessMaps ops body
  | .procInstall => legacyHandleInstall
  | .procCall => legacyHandleProcCall ops body
  | .procElfLoad => legacyHandleProcElfLoad ops body
  | .procProtect => legacyHandleProcessProtect ops body
  | .procInfo => legacyHandleProcessInfo ops body
  | .procAlloc => legacyHandleProcessAlloc ops body false
  | .procFree => legacyHandleProcessFree ops body
  | .procFirstMap => legacyHandleFirstMap ops body
  | .procAllocHinted => legacyHandleProcessAlloc ops body true
  | .scan => legacyHandleScanExact cfg ops body
  | .scanAob => legacyHandleScanAobStart cfg ops body
  | .scanFetch => legacyHandleScanCont ops
  | .debugAttach => legacyHandleDebugAttach ops.debug body
  | .debugDetach | .debugSetBp | .debugSetWp | .debugGetThreads | .debugSuspendTid
  | .debugResumeTid | .debugGetRegs | .debugSetRegs | .debugGetFpregs | .debugSetFpregs
  | .debugGetDbregs | .debugSetDbregs | .debugGetFsgsbase | .debugSetFsgsbase | .debugContinue
  | .debugThreadInfo | .debugStep | .debugStepThread | .debugProcessStop =>
    legacyHandleDebugCommand ops command body
  | .kernBase => legacyHandleKernBase ops
  | .kernRead => legacyHandleKernRead cfg ops body
  | .kernWrite => legacyHandleKernWrite cfg ops body
  | .consoleReboot | .consoleEnd | .consolePrint | .consoleNotify | .consoleInfo
  | .consoleForeground => legacyHandleConsoleCommand cfg ops command body
  | .disasm => legacyHandleDisasm cfg ops body
  | .xrefs => legacyHandleXrefs cfg ops body
  | .quickscanCaps | .quickscanStart | .quickscanCount | .quickscanFetch | .quickscanEnd
  | .quickscanConfig | .quickscanRegions =>
    sendBridge cfg ops.quickscan (quickscanCall ops.quickscan body command)

def legacyDispatch (cfg : LegacyConfig) (ops : LegacyOps) (command : Nat) (body : List UInt8) :
    LegacyTalk :=
  match LegacyCommand.ofCode command with
  | some command => legacyHandle cfg ops body command
  | none => sendStatus cmdError

def legacyPacketMagic : Nat := 0xFFAABBCC

def legacyHandlePacket (cfg : LegacyConfig) (ops : LegacyOps) (header : List UInt8) : LegacyTalk :=
  let command := field header 4 4
  let dataLen := field header 8 4
  if field header 0 4 ≠ legacyPacketMagic ∨ dataLen > cfg.maxPacketBytes then
    sendAll [statusWord cmdError] (.done .errNet)
  else if dataLen = 0 then legacyDispatch cfg ops command []
  else if ops.requestBuffer = false then sendAll [statusWord cmdDataNull] (.done .errNet)
  else .recv dataLen fun
    | none => .done .errNet
    | some body => legacyDispatch cfg ops command body

def legacyHandleClient (cfg : LegacyConfig) (ops : LegacyOps) : LegacyTalk :=
  .recv 12 fun
    | none => .done .errNet
    | some header => legacyHandlePacket cfg ops header

end MemDbg.Legacy
