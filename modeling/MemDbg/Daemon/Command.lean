import MemDbg.Core.Status
import MemDbg.Lib.LittleEndian

/-!
# Commands and requests

The commands of the native protocol and a request as `handle_client` holds it
after both reads: the header and the body it announces.
-/

namespace MemDbg.Daemon

open Lib

inductive Command where
  | hello
  | ping
  | goodbye
  | processList
  | processMaps
  | processInfo
  | foregroundApp
  | processStop
  | processContinue
  | processKill
  | batchProcessInfo
  | processProtect
  | processAlloc
  | processFree
  | processStack
  | processCall
  | processElfLoad
  | processHijack
  | processDump
  | processMapsV2
  | memoryRead
  | memoryWrite
  | batchRead
  | batchWrite
  | batchWriteAdv
  | scanExact
  | scanProcessExact
  | scanAob
  | scanPointer
  | scanUnknown
  | scanProcessAob
  | scanUnknownV2
  | scanProcessExactTracked
  | scanJobStatus
  | scanJobCancel
  | telemetry
  | discovery
  | debugAttach
  | debugDetach
  | debugStop
  | debugContinue
  | debugStep
  | debugGetThreads
  | debugGetRegs
  | debugSetRegs
  | debugGetDbregs
  | debugSetDbregs
  | debugSetBreakpoint
  | debugClearBreakpoint
  | debugSetWatchpoint
  | debugClearWatchpoint
  | debugSuspendThread
  | debugResumeThread
  | debugPollEvents
  | debugGetBreakpoints
  | debugGetWatchpoints
  | debugSetBreakpointCond
  | debugClearAllBreakpoints
  | debugClearAllWatchpoints
  | debugGetFpregs
  | debugSetFpregs
  | debugGetFsgsbase
  | debugSetFsgsbase
  | tracerAttach
  | tracerDetach
  | tracerPoll
  | tracerStatus
  | kernelBase
  | kernelRead
  | kernelWrite
  | consoleNotify
  | consolePrint
  | consoleReboot
  | asmEncode
  | disasm
  | xrefsTo
  | quickscanCaps
  | quickscanStart
  | quickscanCount
  | quickscanFetch
  | quickscanEnd
  | quickscanConfig
  | quickscanRegions
  | quickscanCancel
  | ptwalkDiscover
  | ptwalkAugment
  | ptwalkRead
  | ptwalkWrite
  | ptwalkProbe
  | authKey
  | arenaConfig
  | klogConnect
  | getExtendedCaps
  | getServices
  | setServices
  | shutdown
  | undefined (code : UInt16)
deriving DecidableEq

structure Request where
  command : Command
  requestId : UInt32
  body : List UInt8
deriving DecidableEq

def Request.field (req : Request) (off width : Nat) : Nat := leNat ((req.body.drop off).take width)

/-! ## The pre-auth command budget -/

def preAuthCmdBudget : Nat := 32

def Command.budgetExempt : Command → Bool
  | .hello | .ping | .authKey | .goodbye => true
  | _ => false

def chargeBudget (cookie budget : Nat) (command : Command) : Option Nat :=
  if cookie = 0 then
    if command.budgetExempt then some budget
    else if budget = 0 then none
    else some (budget - 1)
  else some budget

theorem chargeBudget_of_cookie {cookie : Nat} (h : cookie ≠ 0) (budget : Nat)
    (command : Command) : chargeBudget cookie budget command = some budget := if_neg h

/-! ## The identity in a HELLO -/

def helloRequestMagic : Nat := 0x31534553

def helloRequestVersion : Nat := 1

def helloSessionId (req : Request) : Nat :=
  if 16 ≤ req.body.length ∧ req.field 0 4 = helloRequestMagic ∧
      req.field 4 2 = helloRequestVersion ∧ req.field 8 8 ≠ 0 then
    req.field 8 8
  else 0

end MemDbg.Daemon
