import Mathlib.Tactic.Common

/-!
# The connection of the desktop shell

Four pollers drive the connection in every frame: the result of a connect attempt, the payload
that may have to be injected first, the health of the session and the automatic reconnect; a
fifth restores the session behind a reconnect.  Sockets fail and futures complete at any moment
between them.
-/

namespace MemDbg.Frontend

/-! ## State -/

inductive ConnectionPhase where
  | disconnected
  | connecting
  | online
  | connectionLost
  | waitingForWake
  | reconnecting
  | restoring
deriving DecidableEq

inductive ConnectIntent where
  | manualFreshConnection
  | automaticReconnect
deriving DecidableEq

inductive Future (α : Type) where
  | invalid
  | running
  | ready (result : α)
deriving DecidableEq

def Future.drain {α : Type} : Future α → Future α
  | ready _ => invalid
  | f => f

def Future.complete {α : Type} (result : α) : Future α → Future α
  | running => ready result
  | f => f

/-- The control connections of `ClientPool`: the client that was there at the start, to which
`AppState::client` is bound, and the one that has replaced it.  A client is what its
socket is: open or not. -/
structure Pool where
  first : Bool
  replacement : Option Bool
deriving DecidableEq

namespace Pool

def control (p : Pool) : Bool := p.replacement.getD p.first

def clientConnected (p : Pool) : Bool := p.first

def setControl (p : Pool) (open? : Bool) : Pool :=
  match p.replacement with
  | none => { p with first := open? }
  | some _ => { p with replacement := some open? }

def disconnect (p : Pool) : Pool := p.setControl false

def cancelAllPendingIo (p : Pool) : Pool := p.setControl false

def invalidateRoles (p : Pool) : Pool := p.cancelAllPendingIo

/-- `replace_control`, with a client that has taken an open socket. -/
def replaceControl (p : Pool) : Pool := { p.setControl false with replacement := some true }

end Pool

structure ProcessEntry where
  pid : Nat
  name : String
deriving DecidableEq

structure ProcessInfo where
  contentId : String
  titleId : String
  path : String
deriving DecidableEq

structure TargetIdentity where
  name : String
  titleId : String
  contentId : String
  executablePath : String
deriving DecidableEq

def TargetIdentity.empty : TargetIdentity := ⟨"", "", "", ""⟩

def TargetIdentity.valid (tid : TargetIdentity) : Bool := tid.name ≠ "" || tid.titleId ≠ ""

inductive RestoreStage where
  | idle
  | refreshingProcesses
  | refreshingMaps
  | failed
deriving DecidableEq

structure RestoreState where
  stage : RestoreStage
  processEpoch : Nat
  mapTriggered : Bool
  matchedPid : Nat
deriving DecidableEq

def RestoreState.fresh : RestoreState := ⟨.idle, 0, false, 0⟩

/-- The part of `AppState` the connection depends on.  Times are in milliseconds; a timer that is
not armed is `0.0` in the source.  The number of attempts started and of attempts adopted are only
said of the past. -/
structure Shell where
  phase : ConnectionPhase
  enabled : Bool
  manualDisconnect : Bool
  stale : Bool
  attempt : Nat
  epoch : Nat
  nextAttemptAt : Nat
  targetIdentity : TargetIdentity
  connectPending : Bool
  connectCancelRequested : Bool
  connectGeneration : Nat
  attemptGeneration : Nat
  connectFuture : Future (Option Nat)
  pool : Pool
  hasHello : Bool
  savedDaemonInstanceId : Nat
  heartbeatPending : Bool
  heartbeatFuture : Future Bool
  heartbeatFailures : Nat
  nextHeartbeat : Nat
  payloadAutoInjectProbe : Bool
  payloadAutoInjectWaiting : Bool
  payloadInjectPending : Bool
  payloadInjectFuture : Future Bool
  payloadConnectAfterInject : Bool
  payloadPostInjectConnect : Bool
  payloadConnectRetryAt : Option Nat
  payloadConnectRetryDeadline : Nat
  processes : List ProcessEntry
  resources : Nat → Option ProcessInfo
  selectedPid : Nat
  selectedProcessInfo : Option ProcessInfo
  restore : RestoreState
  attempts : Nat
  adoptions : Nat

def Shell.init : Shell where
  phase := .disconnected
  enabled := true
  manualDisconnect := false
  stale := false
  attempt := 0
  epoch := 0
  nextAttemptAt := 0
  targetIdentity := .empty
  connectPending := false
  connectCancelRequested := false
  connectGeneration := 0
  attemptGeneration := 0
  connectFuture := .invalid
  pool := ⟨false, none⟩
  hasHello := false
  savedDaemonInstanceId := 0
  heartbeatPending := false
  heartbeatFuture := .invalid
  heartbeatFailures := 0
  nextHeartbeat := 0
  payloadAutoInjectProbe := false
  payloadAutoInjectWaiting := false
  payloadInjectPending := false
  payloadInjectFuture := .invalid
  payloadConnectAfterInject := false
  payloadPostInjectConnect := false
  payloadConnectRetryAt := none
  payloadConnectRetryDeadline := 0
  processes := []
  resources _ := none
  selectedPid := 0
  selectedProcessInfo := none
  restore := .fresh
  attempts := 0
  adoptions := 0

inductive MapsRefresh where
  | pending
  | failed
  | loaded (count : Nat)
deriving DecidableEq

structure FrameEnv where
  now : Nat
  steady : Nat
  fetcherReady : Bool
  payloadCached : Bool
  busy : Bool
  processList : Option (Option (List ProcessEntry))
  maps : MapsRefresh

namespace Shell

/-! ## Connecting -/

def cancelled (s : Shell) : Bool :=
  s.connectCancelRequested || decide (s.attemptGeneration ≠ s.connectGeneration)

def connectSequencePending (s : Shell) : Bool :=
  s.connectPending || s.payloadAutoInjectWaiting ||
    (s.payloadInjectPending && s.payloadConnectAfterInject) || s.payloadPostInjectConnect ||
    s.payloadConnectRetryAt.isSome || decide (s.phase = .reconnecting) ||
    decide (s.phase = .waitingForWake)

def quiesceTransport (s : Shell) : Shell :=
  { s with
    pool := s.pool.cancelAllPendingIo.disconnect.invalidateRoles
    heartbeatFuture := s.heartbeatFuture.drain
    epoch := s.epoch + 1
    heartbeatPending := false
    heartbeatFailures := 0
    nextHeartbeat := 0
    hasHello := false
    stale := true
    phase := .connectionLost }

def resetRemoteSession (s : Shell) : Shell :=
  { s with
    processes := []
    resources := fun _ => none
    selectedPid := 0
    selectedProcessInfo := none }

def startAttempt (s : Shell) (phase : ConnectionPhase) : Shell :=
  { s with
    connectPending := true
    connectCancelRequested := false
    phase := phase
    connectGeneration := s.connectGeneration + 1
    attemptGeneration := s.connectGeneration + 1
    connectFuture := .running
    attempts := s.attempts + 1 }

def connectConsole (s : Shell) (intent : ConnectIntent) : Shell :=
  if s.connectPending then s
  else if s.connectFuture ≠ .invalid then s
  else
    match intent with
    | .manualFreshConnection =>
      let s := { s with pool := s.pool.disconnect }.quiesceTransport.resetRemoteSession
      { s with manualDisconnect := false, stale := false }.startAttempt .connecting
    | .automaticReconnect => s.quiesceTransport.startAttempt .reconnecting

def backoff (attempt : Nat) : Nat := [500, 1000, 2000, 4000, 8000, 10000].getD attempt 10000

def scheduleReconnectRetry (s : Shell) (env : FrameEnv) : Shell :=
  if s.manualDisconnect then s
  else
    { s with
      nextAttemptAt := env.steady + backoff s.attempt
      phase := .waitingForWake
      attempt := s.attempt + 1
      heartbeatFailures := 0 }

def cancelAttempt (s : Shell) : Shell :=
  if s.connectPending && !s.connectCancelRequested then
    { s with connectCancelRequested := true, connectGeneration := s.connectGeneration + 1 }
  else s

def stopReconnect (s : Shell) : Shell :=
  { s with
    manualDisconnect := true
    phase := .disconnected
    attempt := 0
    payloadAutoInjectProbe := false
    payloadAutoInjectWaiting := false
    payloadPostInjectConnect := false
    payloadConnectAfterInject := false
    payloadConnectRetryAt := none
    payloadConnectRetryDeadline := 0 }

def cancelConnect (s : Shell) : Shell :=
  if s.connectSequencePending = false then s else s.cancelAttempt.stopReconnect

def markDisconnected (s : Shell) : Shell :=
  { s with
    manualDisconnect := true
    attempt := 0
    phase := .disconnected
    stale := false }

def disconnectConsole (s : Shell) : Shell :=
  let s := if s.markDisconnected.connectPending then s.markDisconnected.cancelConnect
    else s.markDisconnected
  { s.quiesceTransport with pool := s.quiesceTransport.pool.disconnect }.resetRemoteSession

/-! ## Payload -/

def requestPayloadInject (s : Shell) (env : FrameEnv) (connectAfter : Bool) : Shell :=
  if s.payloadInjectPending || s.connectPending then s
  else if env.payloadCached = false then s
  else if s.payloadInjectFuture = .running then s
  else
    { s with
      payloadInjectPending := true
      payloadConnectAfterInject := connectAfter
      payloadInjectFuture := .running }

def pollAutoInject (s : Shell) (env : FrameEnv) : Shell :=
  if s.payloadAutoInjectWaiting && env.fetcherReady then
    { s with payloadAutoInjectWaiting := false }.requestPayloadInject env true
  else s

def pollPayloadInject (s : Shell) (env : FrameEnv) : Shell :=
  match s.payloadInjectPending, s.payloadInjectFuture with
  | true, .ready ok =>
    if ok && s.payloadConnectAfterInject then
      { s with
        payloadInjectPending := false
        payloadInjectFuture := .invalid
        payloadConnectAfterInject := false
        payloadPostInjectConnect := true
        payloadConnectRetryAt := some (env.now + 1000)
        payloadConnectRetryDeadline := env.now + 20000 }
    else
      { s with
        payloadInjectPending := false
        payloadInjectFuture := .invalid
        payloadConnectAfterInject := false }
  | _, _ => s

def pollPayloadRetry (s : Shell) (env : FrameEnv) : Shell :=
  match s.payloadConnectRetryAt with
  | none => s
  | some at_ =>
    if at_ ≤ env.now ∧ s.connectPending = false ∧ s.pool.clientConnected = false then
      { s with payloadConnectRetryAt := none }.connectConsole .manualFreshConnection
    else s

def pollPayloadLifecycle (s : Shell) (env : FrameEnv) : Shell :=
  ((s.pollAutoInject env).pollPayloadInject env).pollPayloadRetry env

/-! ## Health and reconnect -/

def currentIdentity (s : Shell) : TargetIdentity :=
  if s.selectedPid = 0 then .empty
  else
    let name := ((s.processes.find? fun p => p.pid = s.selectedPid).map ProcessEntry.name).getD ""
    match s.selectedProcessInfo with
    | none => { TargetIdentity.empty with name := name }
    | some info => ⟨name, info.titleId, info.contentId, info.path⟩

def beginReconnect (s : Shell) (env : FrameEnv) : Shell :=
  if s.manualDisconnect then s
  else if s.enabled = false then s
  else
    { s with
      targetIdentity := s.currentIdentity
      pool := s.pool.cancelAllPendingIo.disconnect.invalidateRoles
      epoch := s.epoch + 1
      attempt := 0
      nextAttemptAt := env.steady + 500
      stale := true
      phase := .waitingForWake
      restore := .fresh }

def pollReconnect (s : Shell) (env : FrameEnv) : Shell :=
  if s.enabled = false then s
  else if s.manualDisconnect then s
  else if s.connectPending then s
  else if s.pool.clientConnected then s
  else if env.steady < s.nextAttemptAt then s
  else if s.phase ≠ .waitingForWake ∧ s.phase ≠ .reconnecting then s
  else { s with phase := .reconnecting }.connectConsole .automaticReconnect

def pollHeartbeat (s : Shell) (env : FrameEnv) : Shell :=
  match s.heartbeatFuture with
  | .invalid => { s with heartbeatPending := false }
  | .running => s
  | .ready true =>
    { s with
      heartbeatPending := false
      heartbeatFuture := .invalid
      heartbeatFailures := 0
      nextHeartbeat := env.now + 2500 }
  | .ready false =>
    if 2 ≤ s.heartbeatFailures + 1 then
      { s with
        heartbeatPending := false
        heartbeatFuture := .invalid
        heartbeatFailures := s.heartbeatFailures + 1 }.beginReconnect env
    else
      { s with
        heartbeatPending := false
        heartbeatFuture := .invalid
        heartbeatFailures := s.heartbeatFailures + 1
        nextHeartbeat := env.now + 2500 }

def pollSessionHealth (s : Shell) (env : FrameEnv) : Shell :=
  if s.hasHello ∧ s.pool.clientConnected = false ∧ s.connectPending = false ∧ s.phase = .online then
    s.beginReconnect env
  else if s.heartbeatPending then s.pollHeartbeat env
  else if s.pool.clientConnected = false ∨ s.connectPending = true ∨ env.busy = true then s
  else if env.now < s.nextHeartbeat then s
  else { s with heartbeatPending := true, heartbeatFuture := .running }

def attemptFailed (s : Shell) (env : FrameEnv) : Shell :=
  if s.payloadAutoInjectProbe then
    { s with payloadAutoInjectProbe := false, payloadAutoInjectWaiting := true }
  else if s.payloadPostInjectConnect && decide (env.now < s.payloadConnectRetryDeadline) then
    { s with payloadConnectRetryAt := some (env.now + 1000) }
  else if s.phase = .reconnecting ∨ s.phase = .waitingForWake then s.scheduleReconnectRetry env
  else
    { s with
      payloadPostInjectConnect := false
      payloadConnectRetryAt := none
      payloadConnectRetryDeadline := 0 }

def takeControl (s : Shell) : Shell :=
  { s with
    pool := if s.phase = .reconnecting then s.pool.replaceControl.invalidateRoles
      else s.pool.setControl true
    payloadAutoInjectProbe := false
    payloadAutoInjectWaiting := false
    payloadPostInjectConnect := false
    payloadConnectRetryAt := none
    payloadConnectRetryDeadline := 0
    hasHello := true
    heartbeatFailures := 0
    adoptions := s.adoptions + 1 }

def adoptReconnect (s : Shell) (instanceId : Nat) : Shell :=
  let restarted := s.savedDaemonInstanceId ≠ 0 ∧ instanceId ≠ 0 ∧
    s.savedDaemonInstanceId ≠ instanceId
  { s with
    attempt := 0
    stale := true
    processes := if restarted then [] else s.processes
    selectedPid := if restarted then 0 else s.selectedPid
    selectedProcessInfo := if restarted then none else s.selectedProcessInfo
    savedDaemonInstanceId := instanceId
    restore := .fresh
    phase := .restoring
    epoch := s.epoch + 1 }

def attemptSucceeded (s : Shell) (instanceId : Nat) : Shell :=
  if s.phase = .reconnecting then s.takeControl.adoptReconnect instanceId
  else
    { s.takeControl with
      phase := .online
      savedDaemonInstanceId := instanceId
      resources := fun _ => none }

def endAttempt (s : Shell) : Shell :=
  { s with connectPending := false, connectCancelRequested := false, connectFuture := .invalid }

def pollConnect (s : Shell) (env : FrameEnv) : Shell :=
  match s.connectPending, s.connectFuture with
  | true, .ready result =>
    if s.cancelled then s.endAttempt
    else
      match result with
      | none => s.endAttempt.attemptFailed env
      | some instanceId => s.endAttempt.attemptSucceeded instanceId
  | _, _ => s

/-! ## Restoring the session -/

def matchTarget (tid : TargetIdentity) (resources : Nat → Option ProcessInfo)
    (processes : List ProcessEntry) : Option Nat :=
  let by_ (field : ProcessInfo → String) (value : String) : Option Nat :=
    if value = "" then none
    else processes.findIdx? fun p => (resources p.pid).any fun info => field info = value
  by_ ProcessInfo.contentId tid.contentId <|> by_ ProcessInfo.titleId tid.titleId <|>
    by_ ProcessInfo.path tid.executablePath <|>
    if tid.name = "" then none else processes.findIdx? fun p => p.name = tid.name

def restoreMatch (s : Shell) : Shell :=
  if s.targetIdentity.valid = false ∨ s.processes = [] then
    { s with phase := .online, stale := true, restore := { s.restore with stage := .idle } }
  else
    match matchTarget s.targetIdentity s.resources s.processes with
    | none => { s with selectedPid := 0, restore := { s.restore with stage := .failed } }
    | some row =>
      let pid := (s.processes.getD row ⟨0, ""⟩).pid
      { s with
        selectedPid := pid
        selectedProcessInfo := none
        restore := { s.restore with
          stage := .refreshingMaps
          matchedPid := pid
          mapTriggered := true } }

def restoreMaps (s : Shell) (env : FrameEnv) : Shell :=
  match env.maps with
  | .pending => s
  | .failed => { s with restore := { s.restore with stage := .failed } }
  | .loaded count =>
    if s.selectedPid ≠ s.restore.matchedPid ∨ count = 0 then
      { s with restore := { s.restore with stage := .failed } }
    else
      { s with
        phase := .online
        stale := false
        attempt := 0
        restore := { s.restore with stage := .idle } }

def pollRestoreSession (s : Shell) (env : FrameEnv) : Shell :=
  if s.phase ≠ .restoring then s
  else if s.pool.clientConnected = false ∨ s.hasHello = false then s
  else
    match s.restore.stage with
    | .idle => { s with restore := ⟨.refreshingProcesses, s.epoch, false, 0⟩ }
    | .refreshingProcesses =>
      match env.processList with
      | none => s
      | some result =>
        if s.restore.processEpoch ≠ s.epoch then
          { s with restore := { s.restore with stage := .idle } }
        else
          match result with
          | none => { s with restore := { s.restore with stage := .failed } }
          | some processes => { s with processes := processes }.restoreMatch
    | .refreshingMaps => s.restoreMaps env
    | .failed =>
      { s with
        phase := .online
        stale := true
        attempt := 0
        restore := { s.restore with stage := .idle } }

end Shell

/-! ## Runs -/

inductive AsyncEvent where
  | controlLost
  | connectDone (result : Option Nat)
  | heartbeatDone (ok : Bool)
  | injectDone (ok : Bool)
deriving DecidableEq

def AsyncEvent.apply (s : Shell) : AsyncEvent → Shell
  | controlLost => { s with pool := s.pool.disconnect }
  | connectDone result => { s with connectFuture := s.connectFuture.complete result }
  | heartbeatDone ok => { s with heartbeatFuture := s.heartbeatFuture.complete ok }
  | injectDone ok => { s with payloadInjectFuture := s.payloadInjectFuture.complete ok }

structure UiFrame where
  env : FrameEnv
  beforeConnect : List AsyncEvent
  beforePayload : List AsyncEvent
  beforeHealth : List AsyncEvent
  beforeReconnect : List AsyncEvent
  beforeRestore : List AsyncEvent

namespace Shell

def events (s : Shell) (es : List AsyncEvent) : Shell := es.foldl AsyncEvent.apply s

def frameHealth (s : Shell) (f : UiFrame) : Shell :=
  ((((s.events f.beforeConnect).pollConnect f.env).events f.beforePayload).pollPayloadLifecycle
    f.env |>.events f.beforeHealth).pollSessionHealth f.env

def frame (s : Shell) (f : UiFrame) : Shell :=
  (((s.frameHealth f).events f.beforeReconnect).pollReconnect f.env |>.events
    f.beforeRestore).pollRestoreSession f.env

end Shell

inductive UserAction where
  | connect
  | disconnect
  | cancel
  | inject (env : FrameEnv) (connectAfter : Bool)
  | selectProcess (row : Nat)
  | refreshProcesses (result : Option (List ProcessEntry))

def Shell.selectProcess (s : Shell) (row : Nat) : Shell :=
  match s.processes[row]? with
  | none => s
  | some p => { s with selectedPid := p.pid, selectedProcessInfo := none }

def Shell.refreshProcesses (s : Shell) (result : Option (List ProcessEntry)) : Shell :=
  match s.pool.clientConnected, result with
  | true, some processes =>
    if processes.any fun p => p.pid = s.selectedPid then
      { s with processes := processes, resources := fun _ => none }
    else
      { s with
        processes := processes
        resources := fun _ => none
        selectedPid := 0
        selectedProcessInfo := none }
  | _, _ => s

def UserAction.apply (s : Shell) : UserAction → Shell
  | connect => s.connectConsole .manualFreshConnection
  | disconnect => s.disconnectConsole
  | cancel => s.cancelConnect
  | inject env connectAfter => s.requestPayloadInject env connectAfter
  | selectProcess row => s.selectProcess row
  | refreshProcesses result => s.refreshProcesses result

def UserAction.stops : UserAction → Bool
  | disconnect => true
  | cancel => true
  | _ => false

def UserAction.asks : UserAction → Bool
  | connect => true
  | inject _ connectAfter => connectAfter
  | _ => false

structure Desktop where
  shell : Shell
  released : Bool
  stopped : Bool

/-- A step of a run. -/
inductive Step where
  | frame (f : UiFrame)
  | user (u : UserAction)

def Desktop.init (autoInject : Bool) : Desktop where
  shell := if autoInject then
      { Shell.init with payloadAutoInjectProbe := true }.connectConsole .manualFreshConnection
    else Shell.init
  released := false
  stopped := false

def Desktop.step (d : Desktop) : Step → Desktop
  | .frame f =>
    { shell := d.shell.frame f
      released := d.released && decide ((d.shell.frame f).adoptions = d.shell.adoptions)
      stopped := d.stopped }
  | .user u =>
    { shell := u.apply d.shell
      released := d.released || u.stops
      stopped := if u.stops then true else d.stopped && !u.asks }

end MemDbg.Frontend
