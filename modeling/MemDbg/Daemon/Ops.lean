import MemDbg.Daemon.Packet
import MemDbg.Scan.Result

/-!
# What a handler calls

The handlers are modelled up to the operations they call: `Ops` gives the outcome
of every debugger, memory, scan and platform call, of every allocation and of the
compressor, so that a statement for all `Ops` is one for all outcomes.  A handler
asks for its operations by their position, since it may call one operation twice
and get two answers.
-/

namespace MemDbg.Daemon.Dispatch

open Lib Scan Wire

inductive RegFile where
  | regs
  | dbregs
  | fpregs
  | fsgsbase
deriving DecidableEq

def RegFile.size : RegFile → Nat
  | regs => 176
  | dbregs => 128
  | fpregs => 1032
  | fsgsbase => 16

inductive Op where
  | processList
  | processMaps (pid : Int)
  | processMapsCached (pid : Int)
  | processInfo (pid : Int)
  | kill (pid : Int) (action : Nat)
  | memoryRead (pid : Int) (address length : Nat)
  | memoryWrite (pid : Int) (address : Nat) (data : List UInt8)
  | memoryBatchRead (pid : Int) (items : List UInt8)
  | memoryBatchWrite (pid : Int) (items : List (Nat × List UInt8))
  | memoryProtect (pid : Int) (address length protection : Nat)
  | memoryAlloc (pid : Int) (hint length protection flags : Nat)
  | memoryFree (pid : Int) (address length : Nat)
  | elfLoadEnhanced (pid : Int) (image region : List UInt8) (matchFlags : Nat)
  | debuggerAttach (pid : Int)
  | debuggerConditionalAttach (pid : Int)
  | debuggerIsAttached (pid : Int)
  | debuggerDetach
  | debuggerStop
  | debuggerContinue
  | debuggerStep (lwp : Int)
  | debuggerIsStopped
  | debuggerPollEvents
  | debuggerStopLwp
  | debuggerGetThreads (limit : Nat)
  | debuggerGet (file : RegFile) (lwp : Int)
  | debuggerSet (file : RegFile) (lwp : Int) (bytes : List UInt8)
  | debuggerSetBreakpoint (address kind : Nat)
  | debuggerSetBreakpointCond (body : List UInt8)
  | debuggerClearBreakpoint (address : Nat)
  | debuggerSetWatchpoint (address length type : Nat)
  | debuggerClearWatchpoint (address : Nat)
  | debuggerSuspendThread (lwp : Int)
  | debuggerResumeThread (lwp : Int)
  | debuggerBreakpointsSnapshot
  | debuggerWatchpointsSnapshot
  | debuggerClearAllBreakpoints
  | debuggerClearAllWatchpoints
  | threadStopInfo (lwp : Nat)
  | threadExtraInfo
  | tracerStart (pid : Int)
  | tracerPollEvents (limit : Nat)
  | tracerStatus
  | kernelBase
  | kernelRead (address length : Nat)
  | kernelWrite (address : Nat) (data : List UInt8)
  | reboot
  | telemetry
  | scanJobBegin (jobId : Nat)
  | scanJobFind (jobId : Nat) (cancel : Bool)
  | stackWalk (pid : Int) (fp sp maxFrames maxFrameBytes codeWindow : Nat)
  | dumpJson (pid : Int) (flags : Nat)
  | ptwDiscover
  | ptwRead (pid : Int) (address length : Nat)
  | ptwWrite (pid : Int) (address : Nat) (data : List UInt8)
  | ptwProbe (pid : Int) (address : Nat)
  | arenaConfig (body : List UInt8)
  | helloResponse
  | configSnapshot
  | legacyIsRunning
  | legacyStart
  | configSave

structure OpResult where
  status : Status
  value : Nat
  bytes : List UInt8
  records : List (List UInt8)
deriving DecidableEq

inductive ScanOp where
  | exact (request : List UInt8) (maxResults : Nat)
  | processExact (request : List UInt8) (maxResults : Nat)
  | processExactTracked (request : List UInt8) (maxResults : Nat)
  | unknown (request : List UInt8) (maxResults : Nat)
  | pointer (request : List UInt8) (maxResults : Nat)
  | aob (request pattern mask : List UInt8) (maxResults : Nat)
  | processAob (request pattern mask : List UInt8) (maxResults : Nat)

structure Ops where
  perform : Nat → Op → OpResult
  scan : ScanOp → Status × ScanResult
  malloc : Nat → Bool
  compress : List UInt8 → List UInt8
  getpid : Int
  raw : Request → Reply

structure Config where
  ps5 : Bool
  maxPacketBytes : Nat
  maxReadBytes : Nat
  maxScanResults : Nat
  maxReadBytes_lt : maxReadBytes < 2 ^ 32

def int32 (n : Nat) : Int := if n < 2 ^ 31 then n else n - 2 ^ 32

def pidAt (req : Request) (off : Nat) : Int := int32 (req.field off 4)

def bytesAt (req : Request) (off len : Nat) : List UInt8 := (req.body.drop off).take len

def cstruct (size : Nat) (bytes : List UInt8) : List UInt8 :=
  (bytes ++ List.replicate size 0).take size

def cstructs (size : Nat) (records : List (List UInt8)) : List UInt8 :=
  records.flatMap (cstruct size)

/-! ## Families of handlers -/

def statusHandler (ops : Ops) (req : Request) (size : Nat) (op : Op) : Reply :=
  if req.body.length ≠ size then fail .errProtocol
  else sendResponse req (ops.perform 0 op).status []

def plainHandler (ops : Ops) (req : Request) (op : Op) : Reply :=
  sendResponse req (ops.perform 0 op).status []

def sendIfOk (req : Request) (st : Status) (payload : List UInt8) : Reply :=
  sendResponse req st (if st = .ok then payload else [])

open Wire.Reply

variable {req : Request}

@[simp] theorem single_statusHandler (ops : Ops) (size : Nat) (op : Op) :
    (statusHandler ops req size op).Single req :=
  .check (by decide) fun _ => single_sendResponse _

@[simp] theorem single_plainHandler (ops : Ops) (op : Op) : (plainHandler ops req op).Single req :=
  single_sendResponse _

@[simp] theorem single_sendIfOk (st : Status) (payload : List UInt8) :
    (sendIfOk req st payload).Single req :=
  single_sendResponse _

end MemDbg.Daemon.Dispatch
