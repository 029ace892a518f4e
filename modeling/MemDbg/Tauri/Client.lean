import MemDbg.Tauri.Codec

/-!
# The client of the desktop application

`MdbgClient`, the `AutoTransport` under it, and the host that owns the direct sockets.  What runs
between two `await`s is one step: a call of `connect`, `disconnect` or `send`, a timer, a
candidate of a transport that opens or fails, bytes or a close of a connection, and the
continuation of a suspended `connect`.  A WebSocket reports to its own transport.  The host has
one handle for all direct sockets, and its events reach every transport that listens.
-/

namespace MemDbg.Tauri

open Function Lib

/-! ## Transports -/

inductive Kind where
  | ws
  | tauri
deriving DecidableEq

def Kind.name : Kind → String
  | .ws => "ws"
  | .tauri => "tauri"

structure Pipe where
  kind : Kind
  opened : Bool
  data : Bool
  close : Bool
deriving DecidableEq

inductive Opening where
  | pending
  | done
  | failed (message : String)
deriving DecidableEq

structure AutoTransport where
  host : String
  port : Nat
  chain : List Kind
  errors : List String
  dialing : Bool
  kind : Kind
  outcome : Opening
  pipe : Option Pipe
  inner : Bool
  dataHandlers : Bool
  closeHandlers : Bool
deriving DecidableEq

namespace AutoTransport

def fresh (tauri : Bool) (host : String) (port : Nat) : AutoTransport where
  host := host
  port := port
  chain := if tauri then [.tauri, .ws] else [.ws]
  errors := []
  dialing := false
  kind := .ws
  outcome := .pending
  pipe := none
  inner := false
  dataHandlers := false
  closeHandlers := false

def candidate (a : AutoTransport) (r : Except String Unit) : AutoTransport :=
  match a.outcome, a.chain with
  | .pending, kind :: chain =>
    match r with
    | .ok () =>
      { a with
        dialing := false
        pipe := some ⟨kind, true, a.dataHandlers, a.closeHandlers⟩
        inner := true
        kind := kind
        outcome := .done }
    | .error message =>
      let errors := a.errors ++ [kind.name ++ ": " ++ message]
      { a with
        chain := chain
        errors := errors
        dialing := false
        outcome :=
          if chain = [] then .failed ("no transport reachable — " ++ " | ".intercalate errors)
          else .pending }
  | _, _ => a

def asksHost (a : AutoTransport) : Bool := a.outcome = .pending && a.chain.head? = some .tauri

def direct (a : AutoTransport) : Bool := a.pipe.any (·.kind = .tauri)

def isOpen (a : AutoTransport) : Bool := a.inner && a.pipe.any (·.opened)

def hearsData (a : AutoTransport) : Bool :=
  a.pipe.any fun p => p.kind = .tauri && p.opened && p.data

def hearsClose (a : AutoTransport) : Bool :=
  a.pipe.any fun p => p.kind = .tauri && p.opened && p.close

def subscribe (a : AutoTransport) : AutoTransport :=
  { a with
    dataHandlers := true
    closeHandlers := true
    pipe := if a.inner then a.pipe.map ({ · with data := true, close := true }) else a.pipe }

def offData (a : AutoTransport) : AutoTransport :=
  { a with dataHandlers := false, pipe := a.pipe.map ({ · with data := false }) }

def offClose (a : AutoTransport) : AutoTransport :=
  { a with closeHandlers := false, pipe := a.pipe.map ({ · with close := false }) }

def closeFires (a : AutoTransport) : Bool :=
  a.inner && a.pipe.any fun p => p.close && (p.kind = .ws || p.opened)

def close (a : AutoTransport) : AutoTransport :=
  if a.inner then { a with inner := false, pipe := a.pipe.map ({ · with opened := false }) } else a

def hangUp (a : AutoTransport) : AutoTransport :=
  { a with pipe := a.pipe.map fun p => { p with opened := p.opened && p.kind = .tauri } }

end AutoTransport

/-! ## Requests -/

inductive Settlement where
  | resolved (response : Frame) (body : List UInt8)
  | rejected (message : String)
deriving DecidableEq

structure Promise where
  command : Nat
  requestId : Nat
  transport : Option Nat
  timer : Bool
  calls : List Settlement
deriving DecidableEq

def Promise.settle (p : Promise) (x : Settlement) : Promise :=
  { p with timer := false, calls := p.calls ++ [x] }

def Promise.result (p : Promise) : Option Settlement := p.calls.head?

def framedResponseCommands : List Nat := [0x0200, 0x0202, 0x0110, 0x010F]

def deliver (f : Frame) : Settlement :=
  if f.header.status = 0 ∧ f.header.command ∈ framedResponseCommands then
    match unwrapCompressed f.body with
    | .error message => .rejected message
    | .ok raw => .resolved f raw
  else .resolved f f.body

/-! ## The greeting -/

structure HelloInfo where
  protocolVersion : Nat
  platformId : Nat
  capabilities : Nat
  debugPort : Nat
  udpLogPort : Nat
  version : List UInt8
  name : List UInt8
  featureLevel : Nat
  daemonInstanceId : Nat
  daemonStartMonotonicNs : Nat
  extendedCaps : List Nat
deriving DecidableEq

def decodeHello (body : List UInt8) : Except String HelloInfo := do
  let (protocolVersion, r) ← readUint 2 body
  let (platformId, r) ← readUint 2 r
  let (capabilities, r) ← readUint 4 r
  let (debugPort, r) ← readUint 2 r
  let (udpLogPort, r) ← readUint 2 r
  let (version, r) ← readCString 16 r
  let (name, r) ← readCString 16 r
  let (featureLevel, r) ← readUint 2 r
  let r := r.drop 2
  let (daemonInstanceId, daemonStartMonotonicNs, r) ←
    if 16 ≤ r.length then do
      let (id, r) ← readUint 8 r
      let (start, r) ← readUint 8 r
      pure (id, start, r)
    else pure (0, 0, r)
  let version ←
    if 48 ≤ r.length then do
      let (full, _) ← readCString 48 r
      -- a byte order mark alone is decoded to nothing
      pure (if full = [] ∨ full = [0xEF, 0xBB, 0xBF] then version else full)
    else pure version
  return ⟨protocolVersion, platformId, capabilities, debugPort, udpLogPort, version, name,
    featureLevel, daemonInstanceId, daemonStartMonotonicNs, []⟩

def extendedWords : Nat → List UInt8 → List Nat
  | 0, _ => []
  | count + 1, body =>
    if body.length < 4 then [] else leNat (body.take 4) :: extendedWords count (body.drop 4)

def HelloInfo.extend (hello : HelloInfo) (status : Int) (body : List UInt8) : HelloInfo :=
  if status = 0 ∧ 4 ≤ body.length then
    { hello with
      extendedCaps := hello.extendedCaps ++ extendedWords (leNat (body.take 4)) (body.drop 4) }
  else hello

def cmdHello : Nat := 0x0001

def cmdGetExtendedCaps : Nat := 0x0D03

def statusEntries : List (String × Int) :=
  [("OK", 0), ("ERR_PARAM", -1), ("ERR_NOMEM", -2), ("ERR_IO", -3), ("ERR_NET", -4),
    ("ERR_PROTOCOL", -5), ("ERR_UNSUPPORTED", -6), ("ERR_NOT_FOUND", -7), ("ERR_PERMISSION", -8),
    ("ERR_OVERFLOW", -9), ("ERR_STATE", -10)]

def statusName (code : Int) : String :=
  match statusEntries.find? (·.2 = code) with
  | some entry => entry.1
  | none => "UNKNOWN(" ++ toString code ++ ")"

def hex (n : Nat) : String := String.ofList (Nat.toDigits 16 n)

def statusError (command : Nat) (status : Int) : String :=
  "mdbg 0x" ++ hex command ++ " → " ++ statusName status ++ " (" ++ toString status ++ ")"

/-! ## The client -/

inductive ConnState where
  | idle
  | connecting (host : String) (port : Nat)
  | handshaking (host : String) (port : Nat)
  | online (host : String) (port : Nat) (hello : HelloInfo)
  | error (message : String)
  | closed (reason : String)
deriving DecidableEq

def ConnState.isOnline : ConnState → Bool
  | .online _ _ _ => true
  | _ => false

inductive Await where
  | opening
  | hello (promise : Nat)
  | caps (hello : HelloInfo) (promise : Nat)
  | greeted (hello : HelloInfo)
  | failed (message : String)
deriving DecidableEq

structure Connect where
  transport : Nat
  host : String
  port : Nat
  awaits : Await
deriving DecidableEq

/-- A call of a command of the host that has not returned to its transport. -/
inductive HostCall where
  | send (transport : Nat)
  | refused (transport : Nat)
  | close
deriving DecidableEq

/-- `MdbgClient`, with every transport and every promise it has made, and the calls of
`connect` that are suspended.  `handle` is the one of the host: the transport whose connection
takes what is sent. -/
structure Client where
  tauri : Bool
  transports : List AutoTransport
  transport : Option Nat
  framer : List Octet
  pending : Nat → Option Nat
  nextReqId : Nat
  state : ConnState
  unsubData : Option Nat
  unsubClose : Option Nat
  promises : List Promise
  connects : List Connect
  handle : Option Nat
  calls : List HostCall

namespace Client

def init (tauri : Bool) : Client where
  tauri := tauri
  transports := []
  transport := none
  framer := []
  pending := fun _ => none
  nextReqId := 1
  state := .idle
  unsubData := none
  unsubClose := none
  promises := []
  connects := []
  handle := none
  calls := []

def isOpen (s : Client) : Bool :=
  s.transport.any fun t => s.transports[t]?.any AutoTransport.isOpen

def setClosed (s : Client) (reason : String) : Client :=
  { s with state := if s.state = .idle then .idle else .closed reason }

def rejectAll (s : Client) (message : String) : Client :=
  { s with
    promises := s.promises.mapIdx fun i p =>
      if s.pending p.requestId = some i then p.settle (.rejected message) else p
    pending := fun _ => none }

def onTransportClose (s : Client) (reason : String) : Client :=
  (s.rejectAll ("transport closed: " ++ reason)).setClosed reason

def invoke (s : Client) (call : Nat → HostCall) : List HostCall :=
  match s.transport with
  | none => s.calls
  | some t =>
    if s.transports[t]?.any fun a => a.isOpen && a.direct then s.calls ++ [call t] else s.calls

def goodbye (s : Client) : Client :=
  if s.isOpen ∧ s.state.isOnline then
    { s with nextReqId := s.nextReqId + 1, calls := s.invoke .send }
  else s

def unsubscribe (s : Client) : Client :=
  let transports := match s.unsubData with
    | some t => s.transports.modify t AutoTransport.offData
    | none => s.transports
  let transports := match s.unsubClose with
    | some t => transports.modify t AutoTransport.offClose
    | none => transports
  { s with transports := transports, unsubData := none, unsubClose := none }

def dropTransport (s : Client) (reason : String) : Client :=
  match s.transport with
  | none => s
  | some t =>
    let s' := if s.transports[t]?.any AutoTransport.closeFires then s.onTransportClose reason else s
    { s' with
      transports := s'.transports.modify t AutoTransport.close
      transport := none
      calls := s.invoke fun _ => .close }

def disconnect (s : Client) (reason : String) : Client :=
  let s := (s.goodbye.unsubscribe.dropTransport reason).rejectAll ("disconnected: " ++ reason)
  { s with framer := [] }.setClosed reason

def reject (s : Client) (command : Nat) (message : String) : Client :=
  { s with promises := s.promises ++ [⟨command, 0, none, false, [.rejected message]⟩] }

def send (s : Client) (command : Nat) (thrown : Option String) : Client :=
  if s.isOpen = false then s.reject command "not connected"
  else
    let requestId := s.nextReqId
    let nextReqId := if 0x7FFFFFFF < s.nextReqId + 1 then 1 else s.nextReqId + 1
    let promise : Promise := ⟨command, requestId, s.transport, true, []⟩
    match thrown with
    | none =>
      { s with
        nextReqId := nextReqId
        pending := update s.pending requestId (some s.promises.length)
        promises := s.promises ++ [promise]
        calls := s.invoke .send }
    | some message =>
      { s with
        nextReqId := nextReqId
        pending := update s.pending requestId none
        promises := s.promises ++ [promise.settle (.rejected message)] }

def timeout (s : Client) (i : Nat) : Client :=
  match s.promises[i]? with
  | none => s
  | some p =>
    if p.timer = false then s
    else
      { s with
        pending := update s.pending p.requestId none
        promises := s.promises.modify i
          (·.settle (.rejected ("request 0x" ++ hex p.command ++ " timed out"))) }

def onFrame (s : Client) (f : Frame) : Client :=
  match s.pending f.header.requestId with
  | none => s
  | some i =>
    { s with
      pending := update s.pending f.header.requestId none
      promises := s.promises.modify i (·.settle (deliver f)) }

def onData (s : Client) (chunk : List Octet) : Client :=
  let (frames, rest) := drain (s.framer ++ chunk)
  frames.foldl onFrame { s with framer := rest }

def connect (s : Client) (host : String) (port : Nat) : Client :=
  let s := s.disconnect "reconnecting"
  { s with
    transports := s.transports ++ [.fresh s.tauri host port]
    transport := some s.transports.length
    state := .connecting host port
    connects := s.connects ++ [⟨s.transports.length, host, port, .opening⟩] }

def setAwait (s : Client) (k : Nat) (w : Await) : Client :=
  { s with connects := s.connects.modify k ({ · with awaits := w }) }

def finish (s : Client) (k : Nat) : Client := { s with connects := s.connects.eraseIdx k }

def handshake (s : Client) (k : Nat) (c : Connect) (thrown : Option String) : Client :=
  let s : Client :=
    { s with
      transports := s.transports.modify c.transport AutoTransport.subscribe
      unsubData := some c.transport
      unsubClose := some c.transport
      state := .handshaking c.host c.port }
  (s.send cmdHello thrown).setAwait k (.hello s.promises.length)

def resume (s : Client) (k : Nat) (thrown : Option String) : Client :=
  match s.connects[k]? with
  | none => s
  | some c =>
    match c.awaits with
    | .opening =>
      match s.transports[c.transport]?.map AutoTransport.outcome with
      | some .done => s.handshake k c thrown
      | some (.failed message) =>
        { s with transport := none, state := .error message }.finish k
      | _ => s
    | .hello i =>
      match s.promises[i]?.bind Promise.result with
      | none => s
      | some (.rejected message) => s.setAwait k (.failed message)
      | some (.resolved f body) =>
        if f.header.status ≠ 0 then
          s.setAwait k (.failed (statusError cmdHello f.header.status))
        else
          match decodeHello body with
          | .error message => s.setAwait k (.failed message)
          | .ok hello =>
            (s.send cmdGetExtendedCaps thrown).setAwait k (.caps hello s.promises.length)
    | .caps hello i =>
      match s.promises[i]?.bind Promise.result with
      | none => s
      | some (.rejected _) => s.setAwait k (.greeted hello)
      | some (.resolved f body) => s.setAwait k (.greeted (hello.extend f.header.status body))
    | .greeted hello => { s with state := .online c.host c.port hello }.finish k
    | .failed message => (s.disconnect ("handshake: " ++ message)).finish k

/-! ## The host -/

def tcpOpen (s : Client) (t : Nat) : Client :=
  if s.transports[t]?.any AutoTransport.asksHost then
    match s.handle with
    | none => { s with transports := s.transports.modify t ({ · with dialing := true }) }
    | some c =>
      let peer := (s.transports[c]?.map fun a => a.host ++ ":" ++ toString a.port).getD ""
      let message := "tauri connect failed: already connected to " ++ peer
      { s with transports := s.transports.modify t (·.candidate (.error message)) }
  else s

def candidate (s : Client) (t : Nat) (r : Except String Unit) : Client :=
  match s.transports[t]? with
  | none => s
  | some a =>
    if a.asksHost && !a.dialing then s
    else
      { s with
        transports := s.transports.modify t (·.candidate r)
        handle := if a.asksHost && r.isOk then some t else s.handle }

/-- The host takes a call: what is sent goes out on the connection of the handle, and closing
drops the handle.  A refusal arrives at the transport that sent. -/
def call (s : Client) (i : Nat) : Client :=
  match s.calls[i]? with
  | none => s
  | some (.send t) =>
    { s with calls := if s.handle = none then s.calls.set i (.refused t) else s.calls.eraseIdx i }
  | some (.refused t) =>
    let s' : Client := { s with calls := s.calls.eraseIdx i }
    if (s.transports[t]?.bind AutoTransport.pipe).any (·.close) then
      s'.onTransportClose "send failed: not connected"
    else s'
  | some .close => { s with handle := none, calls := s.calls.eraseIdx i }

def dataListeners (s : Client) : List Nat :=
  (List.range s.transports.length).filter fun t => s.transports[t]?.any AutoTransport.hearsData

def closeListeners (s : Client) : List Nat :=
  (List.range s.transports.length).filter fun t => s.transports[t]?.any AutoTransport.hearsClose

def isDirect (s : Client) (t : Nat) : Bool := s.transports[t]?.any AutoTransport.direct

/-- Bytes of a connection: the host emits `mdbg://data` to all who listen, a WebSocket calls the
handlers of its own transport. -/
def receive (s : Client) (t : Nat) (chunk : List UInt8) : Client :=
  let octets : List Octet := chunk.map (⟨·, t⟩)
  if s.isDirect t then s.dataListeners.foldl (fun s _ => s.onData octets) s
  else if (s.transports[t]?.bind AutoTransport.pipe).any (·.data) then s.onData octets
  else s

def closeSocket (s : Client) (t : Nat) (reason : String) : Client :=
  let s' : Client := { s with transports := s.transports.modify t AutoTransport.hangUp }
  if (s.transports[t]?.bind AutoTransport.pipe).any fun p => p.kind = .ws && p.close then
    s'.onTransportClose reason
  else s'

def closeEvent (s : Client) (reason : String) : Client :=
  s.closeListeners.foldl
    (fun s _ => s.onTransportClose (if reason = "" then "remote closed" else reason)) s

/-! ## Steps -/

inductive Step where
  | connect (host : String) (port : Nat)
  | disconnect (reason : String)
  | send (command : Nat) (thrown : Option String)
  | timeout (promise : Nat)
  | tcpOpen (transport : Nat)
  | candidate (transport : Nat) (result : Except String Unit)
  | resume (connect : Nat) (thrown : Option String)
  | call (i : Nat)
  | data (transport : Nat) (chunk : List UInt8)
  | hangUp (transport : Nat)
  | closeSocket (transport : Nat) (reason : String)
  | ended (transport : Nat)
  | closeEvent (transport : Nat) (reason : String)

def apply (s : Client) : Step → Client
  | .connect host port => s.connect host port
  | .disconnect reason => s.disconnect reason
  | .send command thrown => s.send command thrown
  | .timeout i => s.timeout i
  | .tcpOpen t => s.tcpOpen t
  | .candidate t r => s.candidate t r
  | .resume k thrown => s.resume k thrown
  | .call i => s.call i
  | .data t chunk => s.receive t chunk
  | .hangUp t => { s with transports := s.transports.modify t AutoTransport.hangUp }
  | .closeSocket t reason => s.closeSocket t reason
  | .ended t => if s.isDirect t then { s with handle := none } else s
  | .closeEvent t reason => if s.isDirect t then s.closeEvent reason else s

end Client

end MemDbg.Tauri
