import MemDbg.FlashScan.Create
import MemDbg.FlashScan.Materialize

/-!
# The clients of FlashScan

Every client has a slot with its session and its alias context.  Slots are found by
the descriptor of the client's connection and given back when the connection ends.
What all clients share is the RAM limit and the cancel flag, which is set while a
CANCEL request is served and polled by the rescans of all other clients.
-/

namespace MemDbg.FlashScan

open Function Lib Scan

/-! ## Slots -/

def maxSessions : Nat := 12

structure Slot where
  session : Session
  aliasPid : Option Nat

def Slot.clear : Slot := ⟨.free, none⟩

structure Server where
  owner : Nat → Option Nat
  slots : Nat → Slot
  ramLimit : Nat

def Server.init : Server where
  owner _ := none
  slots _ := Slot.clear
  ramLimit := 512 * 2 ^ 20

def Server.slotForClient (sv : Server) (fd : Nat) : Option (Nat × Server) :=
  match (List.range maxSessions).find? fun slot => sv.owner slot = some fd with
  | some slot => some (slot, sv)
  | none =>
    match (List.range maxSessions).find? fun slot => sv.owner slot = none with
    | some slot => some (slot, { sv with owner := update sv.owner slot (some fd) })
    | none => none

def Server.releaseClient (sv : Server) (fd : Nat) : Server :=
  match (List.range maxSessions).find? fun slot => sv.owner slot = some fd with
  | some slot =>
    { sv with
      owner := update sv.owner slot none
      slots := update sv.slots slot Slot.clear }
  | none => sv

/-! ## Requests -/

def qsAliasRead (flags : Nat) : Bool := flags.testBit 0

def qsSnapNozero (flags : Nat) : Bool := flags.testBit 3

def qsSnapFirst (flags : Nat) : Bool := flags.testBit 5

def qsSnapPrevious (flags : Nat) : Bool := flags.testBit 6

def qsAliasRescan (flags : Nat) : Bool := flags.testBit 8

inductive QsRequest where
  | start (req : StartRequest) (data : List UInt8)
  | count (req : CountRequest) (data : List UInt8) (chunks : List (List UInt8))
  | fetch (req : FetchRequest)
  | endSession
  | cancel
  | config (ramLimitMb : Nat)

inductive QsReply where
  | error (status : Status)
  | rejected
  | snapshot (survivorCount : Option Nat)
  | stored (hitCount : Nat)
  | streamed (packets : List (List UInt8))
  | counted (count : Nat)
  | matched (entries : List (List (Nat × List UInt8)))
  | fetched (reply : FetchReply)
  | done
deriving DecidableEq

structure RequestEnv where
  fs : FsEnv
  create : CreateEnv
  aliasBegin : Bool

structure OverlappingCancel where
  client : Nat
  covers : Nat → Bool

structure Call where
  client : Nat
  request : QsRequest
  env : RequestEnv
  cancels : List OverlappingCancel

def Call.fsEnv (c : Call) : FsEnv :=
  { c.env.fs with cancelled := fun i => c.cancels.any fun k => k.covers i }

/-! ## Handlers -/

def aliasContextGet (env : RequestEnv) (pid : Nat) : Option Nat → Option Nat
  | none => if env.aliasBegin then some pid else none
  | some _ => some pid

structure Served where
  reply : QsReply
  slot : Slot
  counted : Option (Nat × SnapshotSession)

def StartRequest.createRequest (req : StartRequest) {vlen step : Nat} (hpos : 0 < vlen)
    (hle : vlen ≤ 8) (hstep : 0 < step) : CreateRequest where
  segs := [⟨UInt64.ofNat req.address, UInt32.ofNat req.length⟩]
  vlen := vlen
  step := step
  includeZeros := !qsSnapNozero req.requestFlags
  keepFirst := qsSnapFirst req.requestFlags
  keepPrev := qsSnapPrevious req.requestFlags
  pid := req.pid.toNat
  valueType := req.valueType
  vlen_pos := hpos
  vlen_le := hle
  step_pos := hstep

section Chosen

variable {vlen step : Nat} (h : 0 < vlen ∧ vlen ≤ 8 ∧ 0 < step)

include h

theorem chosen_vlen_pos : 0 < vlen := h.1

theorem chosen_vlen_le : vlen ≤ 8 := h.2.1

theorem chosen_step_pos : 0 < step := h.2.2

end Chosen

def startSnapshot (env : CreateEnv) (req : StartRequest) (vlen step : Nat) (slot : Slot) :
    Option Served :=
  if h : 0 < vlen ∧ vlen ≤ 8 ∧ 0 < step then
    match snapshotCreate env (req.createRequest (chosen_vlen_pos h) (chosen_vlen_le h)
      (chosen_step_pos h)) with
    | .crashed => none
    | .overflowed => none
    | .refused => some ⟨.snapshot none, .clear, none⟩
    | .created s =>
      some ⟨.snapshot (some s.survivorCount), ⟨.snapshot s, none⟩, some (s.survivorCount, s)⟩
  else some ⟨.rejected, slot, none⟩

def handleStart (fs : FsEnv) (env : RequestEnv) (ramLimit : Nat) (req : StartRequest)
    (compareData mask : Ptr) (slot : Slot) : Option Served := do
  let outcome ← flashscanHandleStart fs req compareData mask
  match outcome with
  | .rejected => some ⟨.rejected, slot, none⟩
  | .snapshot vlen step =>
    startSnapshot { env.create with ramLimit := ramLimit } req vlen step slot
  | .stored s => some ⟨.stored s.records.length, ⟨.list s, none⟩, none⟩
  | .streamed packets =>
    let actx := if qsAliasRead req.requestFlags then
        aliasContextGet env req.pid.toNat slot.aliasPid
      else slot.aliasPid
    some ⟨.streamed packets, if qsServerKeep req.requestFlags then .clear else ⟨slot.session, actx⟩,
      none⟩

def countAlias (fs : FsEnv) (env : RequestEnv) (req : CountRequest) (slot : Slot) : Option Nat :=
  let vlen := if req.valueLength = 0 then 4 else req.valueLength
  if qsAliasRescan req.requestFlags = false then slot.aliasPid
  else if qsServerKeep req.requestFlags then
    match slot.session with
    | .free => slot.aliasPid
    | .snapshot s => if s.valueLen = vlen then aliasContextGet env s.pid slot.aliasPid
      else slot.aliasPid
    | .list s =>
      if s.valueLen = vlen ∧ fs.alloc .rescanList then aliasContextGet env s.pid slot.aliasPid
      else slot.aliasPid
  else if fs.alloc .rescanStream then aliasContextGet env req.pid.toNat slot.aliasPid
  else slot.aliasPid

def CountOutcome.snapshot : CountOutcome → Option (Nat × SnapshotSession)
  | .counted nc (.snapshot s) => some (nc, s)
  | _ => none

def handleCount (fs : FsEnv) (env : RequestEnv) (req : CountRequest) (compareData mask : Ptr)
    (chunks : List (List UInt8)) (slot : Slot) : Option Served := do
  let before ← flashscanHandleCount fs req compareData mask slot.session chunks
  let outcome ← countAndSettle fs req compareData mask slot.session chunks
  let actx := countAlias fs env req slot
  match outcome with
  | .rejected => some ⟨.rejected, slot, none⟩
  | .counted nc session => some ⟨.counted nc, ⟨session, actx⟩, before.snapshot⟩
  | .streamed entries => some ⟨.matched entries, ⟨slot.session, actx⟩, none⟩

def QsRequest.handle (fs : FsEnv) (env : RequestEnv) (ramLimit : Nat) (compareData mask : Ptr)
    (slot : Slot) : QsRequest → Option Served
  | .start req _ => handleStart fs env ramLimit req compareData mask slot
  | .count req _ chunks => handleCount fs env req compareData mask chunks slot
  | .fetch req =>
    match flashscanHandleFetch fs req slot.session with
    | some reply => some ⟨.fetched reply, slot, none⟩
    | none => some ⟨.rejected, slot, none⟩
  | .endSession => some ⟨.done, .clear, none⟩
  | .cancel => some ⟨.done, .clear, none⟩
  | .config _ => some ⟨.done, slot, none⟩

def QsRequest.check : QsRequest → Except Status (Ptr × Ptr)
  | .start req data =>
    if paramsValid req.pid req.compareType req.valueLength = false then .error .errParam
    else if qsSnapSegments req.requestFlags then .error .errUnsupported
    else
      match bodyPointers req.compareType req.valueLength req.valueType data with
      | none => .error .errProtocol
      | some pointers => .ok pointers
  | .count req data _ =>
    if paramsValid req.pid req.compareType req.valueLength = false then .error .errParam
    else
      match bodyPointers req.compareType req.valueLength req.valueType data with
      | none => .error .errProtocol
      | some pointers => .ok pointers
  | _ => .ok (none, none)

/-! ## Calls -/

def Server.cancel (sv : Server) (fd : Nat) : Server :=
  match sv.slotForClient fd with
  | some (slot, sv) => { sv with slots := update sv.slots slot Slot.clear }
  | none => sv

def Server.cancelAll (sv : Server) (cancels : List OverlappingCancel) : Server :=
  cancels.foldl (fun sv k => sv.cancel k.client) sv

structure Answer where
  reply : QsReply
  server : Server
  counted : Option (Nat × SnapshotSession)

def Server.serve (sv : Server) (c : Call) : Option Answer :=
  match c.request with
  | .config ramLimitMb =>
    let limit := if ramLimitMb = 0 then 512 * 2 ^ 20 else ramLimitMb * 2 ^ 20
    some ⟨.done, { sv.cancelAll c.cancels with ramLimit := limit }, none⟩
  | request =>
    match request.check with
    | .error status => some ⟨.error status, sv.cancelAll c.cancels, none⟩
    | .ok (compareData, mask) =>
      match sv.slotForClient c.client with
      | none => some ⟨.error .errState, sv.cancelAll c.cancels, none⟩
      | some (slot, sv) => do
        let sv := sv.cancelAll c.cancels
        let served ← request.handle c.fsEnv c.env sv.ramLimit compareData mask (sv.slots slot)
        some ⟨served.reply, { sv with slots := update sv.slots slot served.slot },
          served.counted⟩

end MemDbg.FlashScan
