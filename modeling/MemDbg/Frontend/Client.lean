import MemDbg.Core.Status
import MemDbg.Lib.LittleEndian
import MemDbg.Lib.Transition

/-!
# The control connection of the desktop client

Three readers take responses off one socket: a request, the flush of a pipeline and the
connect of the kernel log.  What a reader does not read of a response, the next one takes
for a header, so each has to read all of it or to close the socket.
-/

namespace MemDbg.Frontend

open Lib Function

/-! ## Responses on the wire -/

def packetMagic : Nat := 0x4742444d

def protocolVersion : Nat := 1

def maxPacket : Nat := 1024 * 1024

def maxMapResponse : Nat := 8 * 1024 * 1024

def cmdProcessMaps : Nat := 0x0101

def cmdProcessMapsV2 : Nat := 0x0110

def cmdKlogConnect : Nat := 0x0D02

def maxResponseForCommand (command : Nat) : Nat :=
  if command = cmdProcessMaps ∨ command = cmdProcessMapsV2 then maxMapResponse
  else maxPacket + 1024 * 1024

structure ResponseHeader where
  magic : Nat
  version : Nat
  command : Nat
  requestId : Nat
  status : Int
  length : Nat
deriving DecidableEq

def responseHeaderSize : Nat := 20

def toInt32 (n : Nat) : Int := if n < 2 ^ 31 then n else (n : Int) - 2 ^ 32

def decodeResponseHeader (bytes : List UInt8) : ResponseHeader where
  magic := leNat (bytes.take 4)
  version := leNat ((bytes.drop 4).take 2)
  command := leNat ((bytes.drop 6).take 2)
  requestId := leNat ((bytes.drop 8).take 4)
  status := toInt32 (leNat ((bytes.drop 12).take 4))
  length := leNat ((bytes.drop 16).take 4)

/-- The header belongs to a response to the request. -/
def ResponseHeader.Matches (header : ResponseHeader) (command requestId : Nat) : Prop :=
  header.magic = packetMagic ∧ header.version = protocolVersion ∧ header.command = command ∧
    header.requestId = requestId

instance (header : ResponseHeader) (command requestId : Nat) :
    Decidable (header.Matches command requestId) :=
  inferInstanceAs (Decidable (_ ∧ _ ∧ _ ∧ _))

def packetHeaderSize : Nat := 16

def encodeRequest (command requestId : Nat) (payload : List UInt8) : List UInt8 :=
  leBytes 4 packetMagic ++ leBytes 2 protocolVersion ++ leBytes 2 command ++
    leBytes 4 requestId ++ leBytes 4 payload.length ++ payload

structure Conn where
  stream : List UInt8
  pos : Nat
deriving DecidableEq

def Conn.header? (k : Conn) : Option ResponseHeader :=
  if k.pos + responseHeaderSize ≤ k.stream.length then
    some (decodeResponseHeader ((k.stream.drop k.pos).take responseHeaderSize))
  else none

/-- The positions at which a response starts. -/
inductive Boundary (stream : List UInt8) : Nat → Prop
  | start : Boundary stream 0
  | next {pos : Nat} {header : ResponseHeader} : Boundary stream pos →
      Conn.header? ⟨stream, pos⟩ = some header →
      Boundary stream (pos + responseHeaderSize + header.length)

/-- The response at a boundary. -/
structure ResponseAt (k : Conn) (header : ResponseHeader) (body : List UInt8) : Prop where
  boundary : Boundary k.stream k.pos
  header_eq : k.header? = some header
  complete : k.pos + responseHeaderSize + header.length ≤ k.stream.length
  body_eq : body = (k.stream.drop (k.pos + responseHeaderSize)).take header.length

/-! ## The client -/

structure Stored where
  conn : Conn
  header : ResponseHeader
  body : List UInt8

/-- `Client`.  `issued` is the command an id was last given out for by `pipeline_send`, and
is only said of the past. -/
structure Client where
  conn : Option Conn
  nextRequestId : Nat
  pipelineBuffer : List UInt8
  pipelineRequests : List (Nat × Nat)
  pipelineResponses : Nat → Option Stored
  pipelineStatuses : Nat → Option Int
  issued : Nat → Option Nat

def Client.new : Client where
  conn := none
  nextRequestId := 1
  pipelineBuffer := []
  pipelineRequests := []
  pipelineResponses _ := none
  pipelineStatuses _ := none
  issued _ := none

namespace Client

def pipelineMaxBuffer : Nat := 1024 * 1024

def pipelineReset (c : Client) : Client :=
  { c with
    pipelineBuffer := []
    pipelineRequests := []
    pipelineResponses := fun _ => none
    pipelineStatuses := fun _ => none }

def disconnectUnlocked (c : Client) : Client := { c.pipelineReset with conn := none }

def bumpRequestId (c : Client) : Nat × Client :=
  (c.nextRequestId, { c with nextRequestId := wrap32 (c.nextRequestId + 1) })

def nextRequestIdUnlocked (c : Client) : Nat × Client :=
  let (requestId, c) := c.bumpRequestId
  if requestId = 0 then c.bumpRequestId else (requestId, c)

def readExact (c : Client) (size : Nat) : Option (List UInt8) × Client :=
  match c.conn with
  | none => (none, c)
  | some k =>
    if k.pos + size ≤ k.stream.length then
      (some ((k.stream.drop k.pos).take size),
        { c with conn := some { k with pos := k.pos + size } })
    else (none, c.disconnectUnlocked)

def readResponse (c : Client) (command requestId : Nat) :
    Option (ResponseHeader × List UInt8) × Client :=
  match c.readExact responseHeaderSize with
  | (none, c) => (none, c)
  | (some bytes, c) =>
    let header := decodeResponseHeader bytes
    if ¬ header.Matches command requestId then (none, c.disconnectUnlocked)
    else if header.length > maxResponseForCommand command then (none, c.disconnectUnlocked)
    else
      match c.readExact header.length with
      | (none, c) => (none, c)
      | (some body, c) => (some (header, body), c)

def request (command : Nat) (payload : List UInt8) (sends : Bool) (c : Client) :
    Option (Int × List UInt8) × Client :=
  if payload.length > maxPacket ∨ c.conn = none then (none, c)
  else
    let (requestId, c) := c.nextRequestIdUnlocked
    if !sends then (none, c.disconnectUnlocked)
    else
      match c.readResponse command requestId with
      | (none, c) => (none, c)
      | (some (header, body), c) => (some (header.status, body), c)

def pipelineFits (payload : List UInt8) (c : Client) : Bool :=
  payload.length ≤ maxPacket && packetHeaderSize + payload.length ≤ pipelineMaxBuffer &&
    c.pipelineBuffer.length ≤ pipelineMaxBuffer - (packetHeaderSize + payload.length)

def pipelineSend (command : Nat) (payload : List UInt8) (c : Client) : Nat × Client :=
  if !c.pipelineFits payload then (0, c)
  else
    let (requestId, c) := c.nextRequestIdUnlocked
    (requestId, { c with
      pipelineBuffer := c.pipelineBuffer ++ encodeRequest command requestId payload
      pipelineRequests := c.pipelineRequests ++ [(requestId, command)]
      issued := update c.issued requestId (some command) })

def flushLoop : List (Nat × Nat) → Client → Bool × Client
  | [], c => (true, { c with pipelineRequests := [] })
  | (requestId, command) :: rest, c =>
    match c.conn, c.readResponse command requestId with
    | some k, (some (header, body), c) =>
      flushLoop rest { c with
        pipelineResponses := update c.pipelineResponses requestId (some ⟨k, header, body⟩)
        pipelineStatuses := update c.pipelineStatuses requestId (some header.status) }
    | _, (_, c) => (false, c.pipelineReset)

def pipelineFlush (sends : Bool) (c : Client) : Bool × Client :=
  if c.pipelineRequests = [] then (true, c)
  else if c.conn = none then (false, c.pipelineReset)
  else if c.pipelineBuffer ≠ [] ∧ sends = false then (false, c.disconnectUnlocked)
  else flushLoop c.pipelineRequests { c with pipelineBuffer := [] }

def errProtocol : Int := -5

def readPipelineResponse (requestId : Nat) (c : Client) : Option (Int × List UInt8) × Client :=
  match c.pipelineResponses requestId with
  | none => (none, c)
  | some stored =>
    (some ((c.pipelineStatuses requestId).getD errProtocol, stored.body), { c with
      pipelineResponses := update c.pipelineResponses requestId none
      pipelineStatuses := update c.pipelineStatuses requestId none })

def klogConnect (sends : Bool) (c : Client) : Option Nat × Client :=
  if c.conn = none then (none, c)
  else
    let (requestId, c) := c.bumpRequestId
    if !sends then (none, c.disconnectUnlocked)
    else
      match c.readExact responseHeaderSize with
      | (none, c) => (none, c)
      | (some bytes, c) =>
        let header := decodeResponseHeader bytes
        if ¬ header.Matches cmdKlogConnect requestId then (none, c)
        else if header.status ≠ 0 then (none, c)
        else if header.length ≠ 4 then (none, c)
        else
          match c.readExact 4 with
          | (none, c) => (none, c)
          | (some bytes, c) => (some (leNat bytes % 2 ^ 16), c)

def sendGoodbye (sends : Bool) (c : Client) : Client :=
  if c.conn = none then c
  else
    let (_, c) := c.nextRequestIdUnlocked
    if !sends then c.disconnectUnlocked else (c.readExact responseHeaderSize).2

def disconnect (goodbye sends : Bool) (c : Client) : Client :=
  (if goodbye then c.sendGoodbye sends else c).disconnectUnlocked

def connectTo (stream : List UInt8) (c : Client) : Client :=
  { c.disconnectUnlocked with conn := some ⟨stream, 0⟩ }

/-! ## What the readers do -/

section

variable {c c' : Client}

theorem readExact_some {size : Nat} {bytes : List UInt8}
    (h : c.readExact size = (some bytes, c')) :
    ∃ k, c.conn = some k ∧ k.pos + size ≤ k.stream.length ∧
      bytes = (k.stream.drop k.pos).take size ∧
      c' = { c with conn := some { k with pos := k.pos + size } } := by
  rw [readExact] at h
  cases hconn : c.conn with
  | none =>
    rw [hconn] at h
    cases h
  | some k =>
    rw [hconn] at h
    dsimp only at h
    split at h
    · rename_i hsize
      cases h
      exact ⟨k, rfl, hsize, rfl, rfl⟩
    · cases h

theorem readExact_none {size : Nat} (h : c.readExact size = (none, c')) :
    c'.conn = none ∧ (c' = c ∨ c' = c.disconnectUnlocked) := by
  rw [readExact] at h
  cases hconn : c.conn with
  | none =>
    rw [hconn] at h
    cases h
    exact ⟨hconn, .inl rfl⟩
  | some k =>
    rw [hconn] at h
    dsimp only at h
    split at h
    · cases h
    · cases h
      exact ⟨rfl, .inr rfl⟩

theorem readExact_header {bytes : List UInt8}
    (h : c.readExact responseHeaderSize = (some bytes, c')) :
    ∃ k, c.conn = some k ∧ k.header? = some (decodeResponseHeader bytes) ∧
      c' = { c with conn := some { k with pos := k.pos + responseHeaderSize } } := by
  obtain ⟨k, hconn, hsize, rfl, rfl⟩ := readExact_some h
  exact ⟨k, hconn, if_pos hsize, rfl⟩

variable {command requestId : Nat}

theorem readResponse_some {header : ResponseHeader}
    {body : List UInt8} (h : c.readResponse command requestId = (some (header, body), c')) :
    ∃ k, c.conn = some k ∧ k.header? = some header ∧ header.Matches command requestId ∧
      k.pos + responseHeaderSize + header.length ≤ k.stream.length ∧
      body = (k.stream.drop (k.pos + responseHeaderSize)).take header.length ∧
      c' = { c with
        conn := some { k with pos := k.pos + responseHeaderSize + header.length } } := by
  rw [readResponse] at h
  split at h
  · cases h
  · rename_i bytes c₁ hheader
    dsimp only at h
    split at h
    · cases h
    · rename_i hmatches
      rw [not_not] at hmatches
      split at h
      · cases h
      · split at h
        · cases h
        · rename_i body' c₂ hbody
          cases h
          obtain ⟨k, hconn, hdecode, rfl⟩ := readExact_header hheader
          obtain ⟨k', hconn', hsize, hbytes, rfl⟩ := readExact_some hbody
          cases hconn'
          exact ⟨k, hconn, hdecode, hmatches, hsize, hbytes, rfl⟩

theorem readResponse_none (h : c.readResponse command requestId = (none, c')) :
    c'.conn = none ∧ (c' = c ∨ c' = c.disconnectUnlocked) := by
  rw [readResponse] at h
  split at h
  · rename_i c₁ hheader
    cases h
    exact readExact_none hheader
  · rename_i bytes c₁ hheader
    obtain ⟨k, hconn, -, rfl⟩ := readExact_header hheader
    dsimp only at h
    split at h
    · cases h
      exact ⟨rfl, .inr rfl⟩
    · split at h
      · cases h
        exact ⟨rfl, .inr rfl⟩
      · split at h
        · rename_i c₂ hbody
          cases h
          obtain ⟨hnone, rfl | rfl⟩ := readExact_none hbody
          · cases hnone
          · exact ⟨rfl, .inr rfl⟩
        · cases h

theorem nextRequestIdUnlocked_eq (c : Client) :
    ∃ next, c.nextRequestIdUnlocked.2 = { c with nextRequestId := next } := by
  rw [nextRequestIdUnlocked]
  dsimp only
  split_ifs
  · exact ⟨_, rfl⟩
  · exact ⟨_, rfl⟩

end

/-! ## Staying in step -/

structure Synced (c : Client) : Prop where
  boundary : ∀ k, c.conn = some k → Boundary k.stream k.pos
  stored : ∀ requestId s, c.pipelineResponses requestId = some s →
    ResponseAt s.conn s.header s.body ∧ s.header.requestId = requestId ∧
      c.issued requestId = some s.header.command
  queued : ∀ q ∈ c.pipelineRequests, c.issued q.1 = some q.2

namespace Synced

variable {c c' : Client}

theorem pipelineReset (h : Synced c) : Synced c.pipelineReset :=
  ⟨h.boundary, fun _ _ hs => (nomatch hs), fun _ hq => (nomatch hq)⟩

theorem disconnectUnlocked (c : Client) : Synced c.disconnectUnlocked :=
  ⟨fun _ hk => (nomatch hk), fun _ _ hs => (nomatch hs), fun _ hq => (nomatch hq)⟩

theorem withConn (h : Synced c) {conn : Option Conn}
    (hconn : ∀ k, conn = some k → Boundary k.stream k.pos) : Synced { c with conn := conn } :=
  ⟨hconn, h.stored, h.queued⟩

theorem withNext (h : Synced c) (next : Nat) : Synced { c with nextRequestId := next } :=
  ⟨h.boundary, h.stored, h.queued⟩

theorem nextRequestIdUnlocked (h : Synced c) : Synced c.nextRequestIdUnlocked.2 := by
  obtain ⟨next, heq⟩ := nextRequestIdUnlocked_eq c
  rw [heq]
  exact h.withNext next

theorem of_lost (h : Synced c) (hc' : c' = c ∨ c' = c.disconnectUnlocked) : Synced c' := by
  rcases hc' with rfl | rfl
  · exact h
  · exact disconnectUnlocked _

theorem responseAt (h : Synced c) {header : ResponseHeader}
    {body : List UInt8} (hread : c.readResponse command requestId = (some (header, body), c')) :
    ∃ k, c.conn = some k ∧ ResponseAt k header body ∧ header.Matches command requestId ∧
      c'.issued = c.issued ∧ c'.pipelineRequests = c.pipelineRequests ∧ Synced c' := by
  obtain ⟨k, hconn, hheader, hmatches, hcomplete, hbody, rfl⟩ := readResponse_some hread
  have hboundary := h.boundary k hconn
  refine ⟨k, hconn, ⟨hboundary, hheader, hcomplete, hbody⟩, hmatches, rfl, rfl, ?_⟩
  refine h.withConn ?_
  rintro _ ⟨⟩
  exact hboundary.next hheader

theorem readResponse (h : Synced c) (command requestId : Nat) :
    Synced (c.readResponse command requestId).2 := by
  obtain ⟨result, c', hread⟩ : ∃ result c', c.readResponse command requestId = (result, c') :=
    ⟨_, _, rfl⟩
  rw [hread]
  cases result with
  | none => exact h.of_lost (readResponse_none hread).2
  | some p =>
    obtain ⟨-, -, -, -, -, -, hsynced⟩ := h.responseAt hread
    exact hsynced

theorem request (h : Synced c) (command : Nat) (payload : List UInt8) (sends : Bool) :
    Synced (request command payload sends c).2 := by
  have hread := h.nextRequestIdUnlocked.readResponse command c.nextRequestIdUnlocked.1
  rw [Client.request]
  split
  · exact h
  · dsimp only
    split
    · exact disconnectUnlocked _
    · split
      · rename_i c' heq
        rw [heq] at hread
        exact hread
      · rename_i header body c' heq
        rw [heq] at hread
        exact hread

theorem pipelineSend (h : Synced c) (command : Nat) (payload : List UInt8)
    (hstored : c.pipelineResponses c.nextRequestIdUnlocked.1 = none)
    (hqueued : ∀ q ∈ c.pipelineRequests, q.1 ≠ c.nextRequestIdUnlocked.1) :
    Synced (pipelineSend command payload c).2 := by
  rw [Client.pipelineSend]
  split
  · exact h
  · obtain ⟨next, heq⟩ := nextRequestIdUnlocked_eq c
    dsimp only
    rw [heq]
    refine ⟨h.boundary, fun requestId s hs => ?_, fun q hq => ?_⟩
    · obtain ⟨hat, hid, hissued⟩ := h.stored requestId s hs
      refine ⟨hat, hid, ?_⟩
      dsimp only
      rw [update_of_ne]
      · exact hissued
      · rintro rfl
        rw [hstored] at hs
        cases hs
    · dsimp only at hq ⊢
      rw [List.mem_append, List.mem_singleton] at hq
      rcases hq with hq | rfl
      · rw [update_of_ne (hqueued q hq)]
        exact h.queued q hq
      · exact update_self ..

theorem flushLoop (requests : List (Nat × Nat)) :
    ∀ c : Client, Synced c → (∀ q ∈ requests, c.issued q.1 = some q.2) →
      Synced (flushLoop requests c).2 := by
  induction requests with
  | nil => exact fun c h _ => ⟨h.boundary, h.stored, fun _ hq => nomatch hq⟩
  | cons q rest ih =>
    intro c h hissued
    obtain ⟨requestId, command⟩ := q
    rw [List.forall_mem_cons] at hissued
    rw [Client.flushLoop]
    split
    · rename_i k header body c' hconn hread
      obtain ⟨k', hk', hat, hmatches, hsame, -, hsynced⟩ := h.responseAt hread
      rw [hconn] at hk'
      cases hk'
      refine ih _ ⟨hsynced.boundary, fun rid s hs => ?_, hsynced.queued⟩ fun q hq => ?_
      · dsimp only at hs ⊢
        rcases eq_or_ne rid requestId with rfl | hne
        · rw [update_self] at hs
          cases hs
          refine ⟨hat, hmatches.2.2.2, ?_⟩
          rw [hsame, hmatches.2.2.1]
          exact hissued.1
        · rw [update_of_ne hne] at hs
          exact hsynced.stored rid s hs
      · dsimp only
        rw [hsame]
        exact hissued.2 q hq
    · rename_i result c' hread _
      have hsynced := h.readResponse command requestId
      rw [hread] at hsynced
      exact hsynced.pipelineReset

theorem pipelineFlush (h : Synced c) (sends : Bool) : Synced (pipelineFlush sends c).2 := by
  rw [Client.pipelineFlush]
  split_ifs
  · exact h
  · exact h.pipelineReset
  · exact disconnectUnlocked _
  · exact flushLoop _ _ ⟨h.boundary, h.stored, h.queued⟩ h.queued

theorem readPipelineResponse (h : Synced c) (requestId : Nat) :
    Synced (readPipelineResponse requestId c).2 := by
  rw [Client.readPipelineResponse]
  split
  · exact h
  · refine ⟨h.boundary, fun rid s hs => ?_, h.queued⟩
    dsimp only at hs
    rcases eq_or_ne rid requestId with rfl | hne
    · rw [update_self] at hs
      cases hs
    · rw [update_of_ne hne] at hs
      exact h.stored rid s hs

end Synced

def KlogRefuses (c : Client) (header : ResponseHeader) : Prop :=
  ¬ header.Matches cmdKlogConnect c.nextRequestId ∨ header.status ≠ 0 ∨ header.length ≠ 4

theorem Synced.klogConnect {c : Client} (h : Synced c) (sends : Bool)
    (hempty : sends = true → ∀ k header, c.conn = some k → k.header? = some header →
      c.KlogRefuses header → header.length = 0) : Synced (klogConnect sends c).2 := by
  have hbump := h.withNext (wrap32 (c.nextRequestId + 1))
  rw [Client.klogConnect]
  split
  · exact h
  · dsimp only [bumpRequestId]
    split
    · exact disconnectUnlocked _
    · rename_i hsends
      have hsends : sends = true := by simpa using hsends
      split
      · rename_i c₁ hheader
        exact hbump.of_lost (readExact_none hheader).2
      · rename_i bytes c₁ hheader
        obtain ⟨k, hconn, hdecode, rfl⟩ := readExact_header hheader
        have hnext := (h.boundary k hconn).next hdecode
        have hrefused (hrefuses : c.KlogRefuses (decodeResponseHeader bytes)) :
            Boundary k.stream (k.pos + responseHeaderSize) := by
          rw [hempty hsends k _ hconn hdecode hrefuses] at hnext
          exact hnext
        split
        · rename_i hmatches
          refine hbump.withConn ?_
          rintro _ ⟨⟩
          exact hrefused (.inl hmatches)
        · split
          · rename_i hstatus
            refine hbump.withConn ?_
            rintro _ ⟨⟩
            exact hrefused (.inr (.inl hstatus))
          · split
            · rename_i hlength
              refine hbump.withConn ?_
              rintro _ ⟨⟩
              exact hrefused (.inr (.inr hlength))
            · rename_i hlength
              rw [not_not] at hlength
              split
              · rename_i c₂ hport
                obtain ⟨hnone, rfl | rfl⟩ := readExact_none hport
                · cases hnone
                · exact disconnectUnlocked _
              · rename_i port c₂ hport
                obtain ⟨k', hconn', -, -, rfl⟩ := readExact_some hport
                cases hconn'
                refine hbump.withConn ?_
                rintro _ ⟨⟩
                rw [hlength] at hnext
                exact hnext

theorem Synced.klogConnect_some {c c' : Client} (h : Synced c) {sends : Bool} {port : Nat}
    (hport : c.klogConnect sends = (some port, c')) :
    ∃ k header body, c.conn = some k ∧ ResponseAt k header body ∧
      header.Matches cmdKlogConnect c.nextRequestId ∧ port = leNat body % 2 ^ 16 := by
  rw [Client.klogConnect] at hport
  split at hport
  · cases hport
  · dsimp only [bumpRequestId] at hport
    split at hport
    · cases hport
    · split at hport
      · cases hport
      · rename_i bytes c₁ hheader
        obtain ⟨k, hconn, hdecode, rfl⟩ := readExact_header hheader
        split at hport
        · cases hport
        · rename_i hmatches
          rw [not_not] at hmatches
          split at hport
          · cases hport
          · split at hport
            · cases hport
            · rename_i hlength
              rw [not_not] at hlength
              split at hport
              · cases hport
              · rename_i body c₂ hbody
                cases hport
                obtain ⟨k', hconn', hsize, rfl, -⟩ := readExact_some hbody
                cases hconn'
                refine ⟨k, _, _, hconn, ⟨h.boundary k hconn, hdecode, ?_, ?_⟩, hmatches, rfl⟩
                · rw [hlength]
                  exact hsize
                · rw [hlength]

theorem Synced.request_some {c c' : Client} (h : Synced c) {command : Nat}
    {payload : List UInt8} {sends : Bool} {status : Int} {body : List UInt8}
    (hrequest : c.request command payload sends = (some (status, body), c')) :
    ∃ k header, c.conn = some k ∧ ResponseAt k header body ∧
      header.Matches command c.nextRequestIdUnlocked.1 ∧ header.status = status := by
  rw [Client.request] at hrequest
  split at hrequest
  · cases hrequest
  · dsimp only at hrequest
    split at hrequest
    · cases hrequest
    · split at hrequest
      · cases hrequest
      · rename_i header body' c₁ hread
        cases hrequest
        obtain ⟨k, hconn, hat, hmatches, -⟩ := h.nextRequestIdUnlocked.responseAt hread
        obtain ⟨next, heq⟩ := nextRequestIdUnlocked_eq c
        rw [heq] at hconn
        exact ⟨k, header, hconn, hat, hmatches, rfl⟩

theorem Synced.readPipelineResponse_some {c c' : Client} (h : Synced c) {requestId : Nat}
    {status : Int} {body : List UInt8}
    (hread : c.readPipelineResponse requestId = (some (status, body), c')) :
    ∃ s, c.pipelineResponses requestId = some s ∧ ResponseAt s.conn s.header body ∧
      s.header.requestId = requestId ∧ c.issued requestId = some s.header.command := by
  rw [Client.readPipelineResponse] at hread
  split at hread
  · cases hread
  · rename_i s hs
    cases hread
    exact ⟨s, hs, h.stored requestId s hs⟩

/-! ## Every run -/

inductive Operation where
  | connectTo (stream : List UInt8)
  | request (command : Nat) (payload : List UInt8) (sends : Bool)
  | pipelineSend (command : Nat) (payload : List UInt8)
  | pipelineFlush (sends : Bool)
  | readPipelineResponse (requestId : Nat)
  | pipelineReset
  | klogConnect (sends : Bool)
  | disconnect (goodbye sends : Bool)
  | cancelPendingIo

def Operation.apply (c : Client) : Operation → Client
  | connectTo stream => c.connectTo stream
  | request command payload sends => (c.request command payload sends).2
  | pipelineSend command payload => (c.pipelineSend command payload).2
  | pipelineFlush sends => (c.pipelineFlush sends).2
  | readPipelineResponse requestId => (c.readPipelineResponse requestId).2
  | pipelineReset => c.pipelineReset
  | klogConnect sends => (c.klogConnect sends).2
  | disconnect goodbye sends => c.disconnect goodbye sends
  | cancelPendingIo => { c with conn := none }

def clientStep (c : Client) (op : Operation) : Option Client := some (op.apply c)

/-- A reply that `klog_connect` does not take announces no body, and the pipeline gives out
no id that it still holds. -/
def Drains (c : Client) : Operation → Prop
  | .klogConnect sends => sends = true → ∀ k header, c.conn = some k → k.header? = some header →
    c.KlogRefuses header → header.length = 0
  | .pipelineSend _ payload => c.pipelineFits payload = true →
    c.pipelineResponses c.nextRequestIdUnlocked.1 = none ∧
      ∀ q ∈ c.pipelineRequests, q.1 ≠ c.nextRequestIdUnlocked.1
  | _ => True

theorem Synced.clientStep {c c' : Client} {op : Operation} (h : Synced c) (hdrains : Drains c op)
    (hstep : clientStep c op = some c') : Synced c' := by
  cases hstep
  cases op with
  | connectTo stream =>
    refine (disconnectUnlocked c).withConn ?_
    rintro _ ⟨⟩
    exact .start
  | request command payload sends => exact h.request command payload sends
  | pipelineSend command payload =>
    cases hfits : c.pipelineFits payload with
    | false =>
      have hrefuse : c.pipelineSend command payload = (0, c) := by
        rw [Client.pipelineSend, hfits]
        rfl
      rw [Operation.apply, hrefuse]
      exact h
    | true => exact h.pipelineSend command payload (hdrains hfits).1 (hdrains hfits).2
  | pipelineFlush sends => exact h.pipelineFlush sends
  | readPipelineResponse requestId => exact h.readPipelineResponse requestId
  | pipelineReset => exact h.pipelineReset
  | klogConnect sends => exact h.klogConnect sends hdrains
  | disconnect goodbye sends => exact disconnectUnlocked _
  | cancelPendingIo => exact h.withConn fun _ hk => nomatch hk

/-- In every run in which `klog_connect` leaves no body on the stream and no id is given out
twice, the socket is closed or at the start of a response, and what a caller gets is the
response to its request. -/
theorem synced_of_drains_run {ops : List Operation} {c : Client}
    (h : Run clientStep Drains Client.new ops c) :
    (∀ k, c.conn = some k → Boundary k.stream k.pos) ∧
    (∀ command payload sends status body c',
      c.request command payload sends = (some (status, body), c') →
      ∃ k header, c.conn = some k ∧ ResponseAt k header body ∧
        header.Matches command c.nextRequestIdUnlocked.1 ∧ header.status = status) ∧
    (∀ requestId status body c', c.readPipelineResponse requestId = (some (status, body), c') →
      ∃ s, c.pipelineResponses requestId = some s ∧ ResponseAt s.conn s.header body ∧
        s.header.requestId = requestId ∧ c.issued requestId = some s.header.command) ∧
    (∀ sends port c', c.klogConnect sends = (some port, c') →
      ∃ k header body, c.conn = some k ∧ ResponseAt k header body ∧
        header.Matches cmdKlogConnect c.nextRequestId ∧ port = leNat body % 2 ^ 16) := by
  have hsynced : Synced c := by
    refine h.invariant (P := Synced) (fun _ _ _ hs hdrains hstep => hs.clientStep hdrains hstep) ?_
    exact ⟨fun _ hk => (nomatch hk), fun _ _ hs => (nomatch hs), fun _ hq => (nomatch hq)⟩
  exact ⟨hsynced.boundary, fun _ _ _ _ _ _ hrequest => hsynced.request_some hrequest,
    fun _ _ _ _ hread => hsynced.readPipelineResponse_some hread,
    fun _ _ _ hport => hsynced.klogConnect_some hport⟩

def klogHeader (status length : Nat) : List UInt8 :=
  leBytes 4 packetMagic ++ leBytes 2 protocolVersion ++ leBytes 2 cmdKlogConnect ++
    leBytes 4 1 ++ leBytes 4 status ++ leBytes 4 length

def bareReply : Conn := ⟨klogHeader 5 0, 0⟩

theorem bareReply_header :
    bareReply.header? = some ⟨packetMagic, protocolVersion, cmdKlogConnect, 1, 5, 0⟩ := by
  decide

theorem synced_of_drains_run_klog : Boundary bareReply.stream responseHeaderSize := by
  have hrun : Run clientStep Drains Client.new
      [.connectTo bareReply.stream, .klogConnect true]
      ((Client.new.connectTo bareReply.stream).klogConnect true).2 := by
    refine .cons trivial rfl (.cons ?_ rfl (.nil _))
    rintro - k header ⟨⟩ hheader -
    cases bareReply_header.symm.trans hheader
    rfl
  exact (synced_of_drains_run hrun).1 ⟨bareReply.stream, responseHeaderSize⟩ (by decide)

def errorReply : Conn := ⟨klogHeader 5 4 ++ [0, 0, 0, 0], 0⟩

theorem errorReply_header :
    errorReply.header? = some ⟨packetMagic, protocolVersion, cmdKlogConnect, 1, 5, 4⟩ := by
  decide

theorem errorReply_boundary {pos : Nat} (h : Boundary errorReply.stream pos) :
    pos = 0 ∨ 24 ≤ pos := by
  induction h with
  | start => exact .inl rfl
  | next _ hheader ih =>
    right
    rcases ih with rfl | hle
    · cases errorReply_header.symm.trans hheader
      exact Nat.le_refl _
    · exact Nat.le_trans hle (by rw [Nat.add_assoc]; exact Nat.le_add_right _ _)

theorem klogConnect_desync :
    ¬ ∀ ops c, Run clientStep (fun _ _ => True) Client.new ops c →
      ∀ k, c.conn = some k → Boundary k.stream k.pos := by
  intro hall
  have hrun : Run clientStep (fun _ _ => True) Client.new
      [.connectTo errorReply.stream, .klogConnect true]
      ((Client.new.connectTo errorReply.stream).klogConnect true).2 :=
    .cons trivial rfl (.cons trivial rfl (.nil _))
  have hboundary := hall _ _ hrun ⟨errorReply.stream, responseHeaderSize⟩ (by decide)
  rcases errorReply_boundary hboundary with hzero | hle
  · revert hzero
    decide
  · revert hle
    decide

end Client

end MemDbg.Frontend
