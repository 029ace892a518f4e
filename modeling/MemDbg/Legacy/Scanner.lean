import MemDbg.Daemon.DebugHandlers
import MemDbg.Legacy.Common
import MemDbg.Scan.Api

/-!
# The scan session of the legacy server

`legacy/scanner.c`: SCAN and SCAN_AOB run a scan, put the addresses it found into one
global session and send its first chunk; SCAN_FETCH sends the next chunk of whatever
the session holds.  The session is shared by the threads of all clients, and a request
narrows the length of its range to 32 bits.

A legacy request names no process.  The handlers scan process `-1`, which
`scan_context_init` and `memdbg_memory_read` refuse, so the session is always empty.
-/

namespace MemDbg.Legacy

open List Function Lib Scan

/-! ## The session -/

structure ScanSession where
  active : Bool
  addresses : List Nat
  total : Nat
  cursor : Nat
deriving DecidableEq

inductive ScanReply where
  | status (word : UInt32)
  | count (n : Nat)
  | addresses (chunk : List Nat)
deriving DecidableEq

def scanChunkMax : Nat := 4096

def scanSessionReset : ScanSession := ⟨false, [], 0, 0⟩

def scanSessionFromResult (result : ScanResult) (allocated : Bool) : Status × ScanSession :=
  if result.count = 0 then (.ok, { scanSessionReset with active := true })
  else if allocated = false then (.errNomem, scanSessionReset)
  else (.ok, ⟨true, result.reported, wrap32 result.count, 0⟩)

def zeroCount (sent : Bool) : List ScanReply := if sent then [.count 0] else []

namespace ScanSession

def sendChunk (session : ScanSession) (sends : Nat → Bool) : ScanSession × List ScanReply :=
  if session.active = false then (session, zeroCount (sends 0))
  else
    let chunk := min (session.total - session.cursor) scanChunkMax
    if chunk = 0 then (scanSessionReset, zeroCount (sends 0))
    else if sends 0 = false then (session, [])
    else if sends 1 = false then (session, [.count chunk])
    else
      let sent := [.count chunk, .addresses ((session.addresses.drop session.cursor).take chunk)]
      if session.cursor + chunk ≥ session.total then (scanSessionReset, sent ++ zeroCount (sends 2))
      else ({ session with cursor := session.cursor + chunk }, sent)

end ScanSession

/-! ## The handlers -/

def rangeLength (start stop : Nat) : Nat := if stop > start then wrap32 (stop - start) else 0

def scanValueBytes (body : List UInt8) : List UInt8 :=
  ((body.drop 28).take (field body 1 1) ++ List.replicate scanValueMax 0).take scanValueMax

theorem length_scanValueBytes (body : List UInt8) :
    (scanValueBytes body).length = scanValueMax := by
  rw [scanValueBytes, length_take, length_append, length_replicate]
  exact Nat.min_eq_left (Nat.le_add_left _ _)

def scanLimit (maxScanResults requested : Nat) : Nat :=
  min (if requested > 0 then requested else Daemon.Dispatch.scanMaxResultsPerResponse)
    maxScanResults

def exactRequest (maxScanResults : Nat) (body : List UInt8) (length : Nat) : ExactRequest where
  pid := -1
  start := field body 8 8
  length := length
  value := {
    valueType := .ofCode (field body 0 1)
    valueLength := field body 1 1
    alignment := field body 2 1
    value := scanValueBytes body
    alignment_lt := (field_lt body 2 1).trans (by decide)
    length_value := length_scanValueBytes body }
  maxResults := scanLimit maxScanResults (field body 24 4)

def aobRequest (maxScanResults : Nat) (body : List UInt8) (length : Nat) : AobRequest where
  pid := -1
  start := field body 0 8
  length := length
  maxResults := scanLimit maxScanResults 0
  patternLength := field body 16 4
  maxResults_lt := (min_le_left _ _).trans_lt (by decide)
  patternLength_lt := field_lt body 16 4

def scanOutcome : Option (Status × ScanResult) → Except UInt32 ScanResult
  | some (.ok, result) => .ok result
  | some (st, _) => .error (legacyStatusFromMemdbg st)
  | none => .error cmdError

def scanExactOver (range : Nat → Nat → Nat) (maxScanResults : Nat) (env : Env) (body : List UInt8) :
    Except UInt32 ScanResult :=
  if body.length < 28 then .error cmdDataNull
  else if field body 1 1 = 0 ∨ field body 1 1 > scanValueMax then .error cmdError
  else if body.length < 28 + field body 1 1 then .error cmdDataNull
  else scanOutcome (memdbgScanExact env
    (exactRequest maxScanResults body (range (field body 8 8) (field body 16 8))) .zero)

def scanAobOver (range : Nat → Nat → Nat) (maxScanResults : Nat) (env : Env) (body : List UInt8) :
    Except UInt32 ScanResult :=
  if body.length < 20 then .error cmdDataNull
  else if field body 16 4 = 0 ∨ field body 16 4 > 256 then .error cmdError
  else if body.length < 20 + field body 16 4 * 2 then .error cmdDataNull
  else scanOutcome (memdbgScanAob env
    (aobRequest maxScanResults body (range (field body 0 8) (field body 8 8)))
    ((body.drop 20).take (field body 16 4))
    ((body.drop (20 + field body 16 4)).take (field body 16 4)) .zero)

def foundIn : Except UInt32 ScanResult → List Nat
  | .ok result => result.reported
  | .error _ => []

/-! ## The server -/

inductive ScanThread where
  | idle
  | publish (result : ScanResult)
  | chunk

structure ScanServer where
  session : ScanSession
  thread : Nat → ScanThread
  received : Nat → List ScanReply
  found : Nat → List Nat

inductive ScanStep where
  | scan (client : Nat) (env : Env) (body : List UInt8) (sent : Bool)
  | scanAob (client : Nat) (env : Env) (body : List UInt8) (sent : Bool)
  | fromResult (client : Nat) (allocated sent : Bool)
  | sendChunk (client : Nat) (sends : Nat → Bool)
  | scanFetch (client : Nat) (sends : Nat → Bool)

def ScanStep.client : ScanStep → Nat
  | scan client _ _ _ | scanAob client _ _ _ | fromResult client _ _ | sendChunk client _
  | scanFetch client _ => client

def statusReply (word : UInt32) (sent : Bool) : List ScanReply :=
  if sent then [.status (legacyBitswap32 word)] else []

namespace ScanServer

def reply (s : ScanServer) (client : Nat) (replies : List ScanReply) : ScanServer :=
  { s with received := update s.received client (s.received client ++ replies) }

def goto (s : ScanServer) (client : Nat) (thread : ScanThread) : ScanServer :=
  { s with thread := update s.thread client thread }

def request (s : ScanServer) (client : Nat) (found : List Nat) : ScanServer :=
  { s with
    received := update s.received client []
    found := update s.found client found }

def beginScan (s : ScanServer) (client : Nat) (outcome : Except UInt32 ScanResult)
    (found : List Nat) (sent : Bool) : ScanServer :=
  match outcome with
  | .ok result => (s.request client found).goto client (.publish result)
  | .error word => (s.request client found).reply client (statusReply word sent)

def publish (s : ScanServer) (client : Nat) (result : ScanResult) (allocated sent : Bool) :
    ScanServer :=
  let r := scanSessionFromResult result allocated
  let s := { s with session := r.2 }
  if r.1 = .ok then s.goto client .chunk
  else (s.goto client .idle).reply client (statusReply (legacyStatusFromMemdbg r.1) sent)

def chunk (s : ScanServer) (client : Nat) (sends : Nat → Bool) : ScanServer :=
  let r := s.session.sendChunk sends
  ({ s with session := r.1 }.goto client .idle).reply client r.2

def step (maxScanResults : Nat) (s : ScanServer) : ScanStep → ScanServer
  | .scan client env body sent =>
    match s.thread client with
    | .idle => s.beginScan client (scanExactOver rangeLength maxScanResults env body)
        (foundIn (scanExactOver (fun start stop => stop - start) maxScanResults env body)) sent
    | _ => s
  | .scanAob client env body sent =>
    match s.thread client with
    | .idle => s.beginScan client (scanAobOver rangeLength maxScanResults env body)
        (foundIn (scanAobOver (fun start stop => stop - start) maxScanResults env body)) sent
    | _ => s
  | .fromResult client allocated sent =>
    match s.thread client with
    | .publish result => s.publish client result allocated sent
    | _ => s
  | .sendChunk client sends =>
    match s.thread client with
    | .chunk => s.chunk client sends
    | _ => s
  | .scanFetch client sends =>
    match s.thread client with
    -- `legacy_handle_scan_cont` answers for an inactive session as `scan_session_send_chunk` does
    | .idle => s.chunk client sends
    | _ => s

def init : ScanServer where
  session := scanSessionReset
  thread _ := .idle
  received _ := []
  found _ := []

def run (maxScanResults : Nat) (steps : List ScanStep) : ScanServer :=
  steps.foldl (step maxScanResults) init

end ScanServer

def chunks : List ScanReply → List Nat
  | [] => []
  | .count 0 :: _ => []
  | .addresses chunk :: replies => chunk ++ chunks replies
  | _ :: replies => chunks replies

/-! ## Scans of no process -/

section NoProcess

variable {env : Env} {pid : Int}

theorem memoryRead_of_nonpos (hpid : pid ≤ 0) (now address length : Nat) :
    memoryRead env pid now address length = .failed ⟨.errParam, errParam_ne_ok⟩ := if_pos hpid

theorem resilientAttempts_of_nonpos (hpid : pid ≤ 0) (address fuel attempt : Nat)
    (b : ScanBuilder) (bytes : List UInt8) :
    (resilientAttempts env pid address fuel attempt b).2 ≠ .done bytes := by
  induction fuel generalizing attempt b with
  | zero => rintro ⟨⟩
  | succ fuel ih =>
    rw [resilientAttempts, memoryRead_of_nonpos hpid]
    split_ifs
    · rintro ⟨⟩
    · rintro ⟨⟩
    · exact ih _ _

theorem bytes_of_nonpos (hpid : pid ≤ 0) {address requested : Nat} {b b' : ScanBuilder}
    {bytes : List UInt8}
    (h : scanMemoryReadResilient env pid address requested b = (b', .done bytes)) : bytes = [] := by
  unfold scanMemoryReadResilient at h
  split_ifs at h
  · cases h
    rfl
  · exact absurd (congrArg Prod.snd h) (resilientAttempts_of_nonpos hpid _ _ _ _ _)

theorem sameHits_chunkLoop_of_nonpos {c : ChunkScan} (hpid : c.pid ≤ 0) (start length : Nat)
    (fuel scanned : Nat) (carry : List UInt8) (b : ScanBuilder) (hcancel : c.pollsCancel = false) :
    SameHits b (chunkLoop env c start length fuel scanned carry b).2 := by
  induction fuel generalizing scanned carry b with
  | zero => exact .refl b
  | succ fuel ih =>
    have hread := SameHits.scanMemoryReadResilient env c.pid (start + scanned)
      (scanReadSize (length - scanned) c.chunk) b.tick
    rw [chunkLoop, hcancel, Bool.false_and]
    by_cases hlt : scanned < length
    · rw [if_pos hlt, if_neg Bool.false_ne_true]
      dsimp only
      split
      · rename_i b' st heq
        rw [heq] at hread
        split_ifs
        · exact ((SameHits.tick b).trans hread).trans (ih _ _ _)
        · exact (SameHits.tick b).trans hread
      · rename_i b' bytes heq
        rw [heq] at hread
        rw [if_pos (bytes_of_nonpos hpid heq)]
        exact (SameHits.tick b).trans hread
    · rw [if_neg hlt]
      exact .refl b

end NoProcess

theorem reported_of_count {r : ScanResult} (h : r.count = 0) : r.reported = [] := by
  unfold ScanResult.reported
  split
  · rw [h, take_zero]
  · rfl

theorem finishScan_of_sameHits {b b' : ScanBuilder} (h : SameHits b b')
    (hcount : b.result.count = 0) (hentries : b.result.entries = .owned []) (st : Status)
    (startNs endNs : Nat) :
    ∃ r, finishScan st { b'.result.setElapsed startNs endNs with regionsScanned := 1 } =
      some (st, r) ∧ r.count = 0 := by
  unfold finishScan
  split_ifs
  · refine ⟨.zero, ?_, rfl⟩
    unfold scanResultFree
    rw [ScanResult.entries_setElapsed, h.entries_eq, hentries]
    rfl
  · exact ⟨_, rfl, (ScanResult.count_setElapsed _ _ _).trans (h.count_eq.trans hcount)⟩

theorem sameHits_scanAobRange_of_nonpos (env : Env) (hpid : pid ≤ 0) (bm : BmTable)
    (pattern mask : List UInt8) (patLen rangeStart rangeLen : Nat) (b : ScanBuilder) :
    SameHits b (scanAobRange env bm pattern mask patLen pid rangeStart rangeLen b).2 := by
  unfold scanAobRange
  split_ifs
  · exact .refl b
  · exact sameHits_chunkLoop_of_nonpos hpid _ _ _ _ _ _ rfl

theorem memdbgScanAob_of_nonpos (env : Env) (request : AobRequest) (hpid : request.pid ≤ 0)
    (pattern mask : List UInt8) :
    ∃ st r, memdbgScanAob env request pattern mask .zero = some (st, r) ∧ r.count = 0 := by
  unfold memdbgScanAob
  split_ifs
  · exact ⟨_, _, rfl, rfl⟩
  · exact ⟨_, _, rfl, rfl⟩
  · exact ⟨_, _, rfl, rfl⟩
  · unfold scanBuilderPrealloc
    split_ifs
    · exact ⟨_, _, rfl, rfl⟩
    · have hrange := sameHits_scanAobRange_of_nonpos env hpid
        (bmBuildTable env pattern mask request.patternLength) pattern mask request.patternLength
        request.start request.length
        (ScanBuilder.preallocated (requestLimit request.maxResults)).tick
      obtain ⟨r, hr, hcount⟩ := finishScan_of_sameHits hrange rfl rfl _ _ _
      exact ⟨_, r, hr, hcount⟩
    · exact ⟨_, _, rfl, rfl⟩

theorem memdbgScanExact_of_nonpos (env : Env) (request : ExactRequest) (hpid : request.pid ≤ 0)
    (out : ScanResult) : ∃ st, st ≠ .ok ∧ memdbgScanExact env request out = some (st, .zero) := by
  unfold memdbgScanExact
  split_ifs
  · exact ⟨.errParam, nofun, rfl⟩
  · rw [scanContextInit, dif_neg (not_lt.mpr hpid)]
    exact ⟨.errParam, nofun, rfl⟩

theorem scanExactOver_ne_ok {range : Nat → Nat → Nat} {maxScanResults : Nat} {env : Env}
    {body : List UInt8} {result : ScanResult} :
    scanExactOver range maxScanResults env body ≠ .ok result := by
  unfold scanExactOver
  split_ifs
  · nofun
  · nofun
  · nofun
  · obtain ⟨st, hst, hscan⟩ := memdbgScanExact_of_nonpos env
      (exactRequest maxScanResults body (range (field body 8 8) (field body 16 8)))
      (by decide : (-1 : Int) ≤ 0) .zero
    rw [hscan]
    cases st with
    | ok => contradiction
    | _ => nofun

theorem count_scanAobOver {range : Nat → Nat → Nat} {maxScanResults : Nat} {env : Env}
    {body : List UInt8} {result : ScanResult}
    (h : scanAobOver range maxScanResults env body = .ok result) : result.count = 0 := by
  unfold scanAobOver at h
  split_ifs at h
  obtain ⟨st, r, hscan, hcount⟩ := memdbgScanAob_of_nonpos env
    (aobRequest maxScanResults body (range (field body 0 8) (field body 8 8)))
    (by decide : (-1 : Int) ≤ 0) ((body.drop 20).take (field body 16 4))
    ((body.drop (20 + field body 16 4)).take (field body 16 4))
  rw [hscan] at h
  cases st with
  | ok =>
    cases h
    exact hcount
  | _ => cases h

theorem foundIn_scanExactOver (range : Nat → Nat → Nat) (maxScanResults : Nat) (env : Env)
    (body : List UInt8) : foundIn (scanExactOver range maxScanResults env body) = [] := by
  cases houtcome : scanExactOver range maxScanResults env body with
  | error word => rfl
  | ok result => exact absurd houtcome scanExactOver_ne_ok

theorem foundIn_scanAobOver (range : Nat → Nat → Nat) (maxScanResults : Nat) (env : Env)
    (body : List UInt8) : foundIn (scanAobOver range maxScanResults env body) = [] := by
  cases houtcome : scanAobOver range maxScanResults env body with
  | error word => rfl
  | ok result => exact reported_of_count (count_scanAobOver houtcome)

/-! ## The session stays empty -/

structure ScanSession.Unfilled (session : ScanSession) : Prop where
  addresses : session.addresses = []
  total : session.total = 0
  cursor : session.cursor = 0

structure ScanSession.Holds (session : ScanSession) : Prop where
  active : session.active = true
  total : session.total = session.addresses.length
  cursor : session.cursor ≤ session.total

theorem ScanSession.Unfilled.holds {session : ScanSession} (h : session.Unfilled)
    (hactive : session.active = true) : session.Holds where
  active := hactive
  total := by rw [h.total, h.addresses, length_nil]
  cursor := by rw [h.cursor, h.total]

theorem unfilled_reset : scanSessionReset.Unfilled := ⟨rfl, rfl, rfl⟩

theorem ScanSession.Unfilled.sendChunk {session : ScanSession} (h : session.Unfilled)
    (sends : Nat → Bool) :
    (session.sendChunk sends).1.Unfilled ∧ (session.sendChunk sends).2 = zeroCount (sends 0) := by
  unfold ScanSession.sendChunk
  rw [h.total, Nat.zero_sub, Nat.zero_min, if_pos rfl]
  split_ifs
  · exact ⟨h, rfl⟩
  · exact ⟨unfilled_reset, rfl⟩

theorem scanSessionFromResult_of_count {result : ScanResult} (h : result.count = 0)
    (allocated : Bool) :
    (scanSessionFromResult result allocated).1 = .ok ∧
      (scanSessionFromResult result allocated).2.Unfilled := by
  rw [scanSessionFromResult, if_pos h]
  exact ⟨rfl, rfl, rfl, rfl⟩

theorem chunks_append_of_nil {replies more : List ScanReply} (h : chunks replies = [])
    (hmore : chunks more = []) : chunks (replies ++ more) = [] := by
  induction replies with
  | nil => exact hmore
  | cons r replies ih =>
    cases r with
    | status word => exact ih h
    | count n =>
      cases n with
      | zero => rfl
      | succ n => exact ih h
    | addresses chunk =>
      obtain ⟨hchunk, hreplies⟩ := append_eq_nil_iff.mp h
      exact append_eq_nil_iff.mpr ⟨hchunk, ih hreplies⟩

theorem chunks_zeroCount (sent : Bool) : chunks (zeroCount sent) = [] := by
  cases sent <;> rfl

theorem chunks_statusReply (word : UInt32) (sent : Bool) : chunks (statusReply word sent) = [] := by
  cases sent <;> rfl

structure ScanServer.Unfilled (s : ScanServer) : Prop where
  session : s.session.Unfilled
  publish : ∀ client result, s.thread client = .publish result → result.count = 0
  received : ∀ client, chunks (s.received client) = []
  found : ∀ client, s.found client = []

namespace ScanServer

variable {s t : ScanServer} {maxScanResults : Nat}

theorem unfilled_init : init.Unfilled := ⟨unfilled_reset, nofun, fun _ => rfl, fun _ => rfl⟩

namespace Unfilled

theorem reply (h : s.Unfilled) (client : Nat) {replies : List ScanReply}
    (hreplies : chunks replies = []) : (s.reply client replies).Unfilled where
  session := h.session
  publish := h.publish
  received c := by
    change chunks (update s.received client _ c) = []
    rcases eq_or_ne c client with rfl | hne
    · rw [update_self]
      exact chunks_append_of_nil (h.received c) hreplies
    · rw [update_of_ne hne]
      exact h.received c
  found := h.found

theorem goto (h : s.Unfilled) (client : Nat) {thread : ScanThread}
    (hthread : ∀ result, thread = .publish result → result.count = 0) :
    (s.goto client thread).Unfilled where
  session := h.session
  publish c result hresult := by
    change update s.thread client thread c = _ at hresult
    rcases eq_or_ne c client with rfl | hne
    · rw [update_self] at hresult
      exact hthread result hresult
    · rw [update_of_ne hne] at hresult
      exact h.publish c result hresult
  received := h.received
  found := h.found

theorem request (h : s.Unfilled) (client : Nat) {found : List Nat} (hfound : found = []) :
    (s.request client found).Unfilled where
  session := h.session
  publish := h.publish
  received c := by
    change chunks (update s.received client [] c) = []
    rcases eq_or_ne c client with rfl | hne
    · rw [update_self, chunks]
    · rw [update_of_ne hne]
      exact h.received c
  found c := by
    change update s.found client found c = []
    rcases eq_or_ne c client with rfl | hne
    · rw [update_self, hfound]
    · rw [update_of_ne hne]
      exact h.found c

theorem withSession (h : s.Unfilled) {session : ScanSession} (hsession : session.Unfilled) :
    Unfilled { s with session := session } := ⟨hsession, h.publish, h.received, h.found⟩

theorem beginScan (h : s.Unfilled) (client : Nat) {outcome : Except UInt32 ScanResult}
    (houtcome : ∀ result, outcome = .ok result → result.count = 0) {found : List Nat}
    (hfound : found = []) (sent : Bool) : (s.beginScan client outcome found sent).Unfilled := by
  cases outcome with
  | error word => exact (h.request client hfound).reply client (chunks_statusReply word sent)
  | ok result =>
    refine (h.request client hfound).goto client fun r hr => ?_
    cases hr
    exact houtcome _ rfl

theorem publish_eq {result : ScanResult} (hresult : result.count = 0) (client : Nat)
    (allocated sent : Bool) : s.publish client result allocated sent =
      ScanServer.goto { s with session := (scanSessionFromResult result allocated).2 } client
        .chunk :=
  if_pos (scanSessionFromResult_of_count hresult allocated).1

theorem chunk (h : s.Unfilled) (client : Nat) (sends : Nat → Bool) :
    (s.chunk client sends).Unfilled := by
  obtain ⟨hsession, hreplies⟩ := h.session.sendChunk sends
  have hidle : (ScanServer.goto { s with session := _ } client .idle).Unfilled :=
    (h.withSession hsession).goto client fun _ => nofun
  exact hidle.reply client (hreplies ▸ chunks_zeroCount _)

theorem step (h : s.Unfilled) (a : ScanStep) : (s.step maxScanResults a).Unfilled := by
  cases a with
  | scan client env body sent =>
    unfold ScanServer.step
    dsimp only
    split
    · exact h.beginScan client (fun _ hok => absurd hok scanExactOver_ne_ok)
        (foundIn_scanExactOver _ _ _ _) sent
    · exact h
  | scanAob client env body sent =>
    unfold ScanServer.step
    dsimp only
    split
    · exact h.beginScan client (fun _ hok => count_scanAobOver hok)
        (foundIn_scanAobOver _ _ _ _) sent
    · exact h
  | fromResult client allocated sent =>
    unfold ScanServer.step
    dsimp only
    split
    · rename_i result hthread
      have hcount := h.publish client result hthread
      rw [publish_eq hcount]
      exact (h.withSession (scanSessionFromResult_of_count hcount allocated).2).goto client nofun
    · exact h
  | sendChunk client sends | scanFetch client sends =>
    unfold ScanServer.step
    dsimp only
    split
    · exact h.chunk client sends
    · exact h

theorem foldl (h : s.Unfilled) (steps : List ScanStep) :
    (steps.foldl (ScanServer.step maxScanResults) s).Unfilled := by
  induction steps generalizing s with
  | nil => exact h
  | cons a steps ih => exact ih (h.step a)

theorem run (steps : List ScanStep) :
    (run maxScanResults steps).Unfilled := unfilled_init.foldl steps

end Unfilled

/-! ### The other clients -/

structure Agrees (client : Nat) (s t : ScanServer) : Prop where
  thread : s.thread client = t.thread client
  received : s.received client = t.received client

namespace Agrees

variable {client : Nat}

theorem reply (h : Agrees client s t) (replies : List ScanReply) :
    Agrees client (s.reply client replies) (t.reply client replies) where
  thread := h.thread
  received := by
    change update s.received client _ client = update t.received client _ client
    rw [update_self, update_self, h.received]

theorem goto (h : Agrees client s t) (thread : ScanThread) :
    Agrees client (s.goto client thread) (t.goto client thread) where
  thread := by
    change update s.thread client _ client = update t.thread client _ client
    rw [update_self, update_self]
  received := h.received

theorem request (h : Agrees client s t) (found : List Nat) :
    Agrees client (s.request client found) (t.request client found) where
  thread := h.thread
  received := by
    change update s.received client _ client = update t.received client _ client
    rw [update_self, update_self]

theorem beginScan (h : Agrees client s t) (outcome : Except UInt32 ScanResult) (found : List Nat)
    (sent : Bool) :
    Agrees client (s.beginScan client outcome found sent)
      (t.beginScan client outcome found sent) := by
  cases outcome with
  | error word => exact (h.request found).reply _
  | ok result => exact (h.request found).goto _

theorem publish (h : Agrees client s t) (result : ScanResult) (allocated sent : Bool) :
    Agrees client (s.publish client result allocated sent)
      (t.publish client result allocated sent) := by
  have hsession : Agrees client { s with session := (scanSessionFromResult result allocated).2 }
    { t with session := (scanSessionFromResult result allocated).2 } := ⟨h.thread, h.received⟩
  unfold ScanServer.publish
  dsimp only
  split_ifs
  · exact hsession.goto _
  · exact (hsession.goto _).reply _

theorem chunk (h : Agrees client s t) (hs : s.Unfilled) (ht : t.Unfilled) (sends : Nat → Bool) :
    Agrees client (s.chunk client sends) (t.chunk client sends) := by
  have hsession : Agrees client { s with session := (s.session.sendChunk sends).1 }
    { t with session := (t.session.sendChunk sends).1 } := ⟨h.thread, h.received⟩
  have hsame : (s.session.sendChunk sends).2 = (t.session.sendChunk sends).2 :=
    (hs.session.sendChunk sends).2.trans (ht.session.sendChunk sends).2.symm
  unfold ScanServer.chunk
  dsimp only
  rw [hsame]
  exact (hsession.goto .idle).reply _

theorem step (h : Agrees client s t) (hs : s.Unfilled) (ht : t.Unfilled) {a : ScanStep}
    (ha : a.client = client) :
    Agrees client (s.step maxScanResults a) (t.step maxScanResults a) := by
  subst ha
  have hthread := h.thread
  cases a with
  | scan client env body sent | scanAob client env body sent =>
    unfold ScanServer.step
    dsimp only [ScanStep.client] at h hthread ⊢
    rw [hthread]
    split
    · exact h.beginScan _ _ _
    · exact h
  | fromResult client allocated sent =>
    unfold ScanServer.step
    dsimp only [ScanStep.client] at h hthread ⊢
    rw [hthread]
    split
    · exact h.publish _ _ _
    · exact h
  | sendChunk client sends | scanFetch client sends =>
    unfold ScanServer.step
    dsimp only [ScanStep.client] at h hthread ⊢
    rw [hthread]
    split
    · exact h.chunk hs ht _
    · exact h

theorem reply_other (h : Agrees client s t) {other : Nat} (hne : other ≠ client)
    (replies : List ScanReply) : Agrees client (s.reply other replies) t where
  thread := h.thread
  received := (update_of_ne hne.symm _ _).trans h.received

theorem goto_other (h : Agrees client s t) {other : Nat} (hne : other ≠ client)
    (thread : ScanThread) : Agrees client (s.goto other thread) t where
  thread := (update_of_ne hne.symm _ _).trans h.thread
  received := h.received

theorem request_other (h : Agrees client s t) {other : Nat} (hne : other ≠ client)
    (found : List Nat) : Agrees client (s.request other found) t where
  thread := h.thread
  received := (update_of_ne hne.symm _ _).trans h.received

theorem beginScan_other (h : Agrees client s t) {other : Nat} (hne : other ≠ client)
    (outcome : Except UInt32 ScanResult) (found : List Nat) (sent : Bool) :
    Agrees client (s.beginScan other outcome found sent) t := by
  cases outcome with
  | error word => exact (h.request_other hne found).reply_other hne _
  | ok result => exact (h.request_other hne found).goto_other hne _

theorem step_other (h : Agrees client s t) {a : ScanStep} (ha : a.client ≠ client) :
    Agrees client (s.step maxScanResults a) t := by
  have hsession : ∀ session, Agrees client { s with session := session } t :=
    fun _ => ⟨h.thread, h.received⟩
  cases a with
  | scan other env body sent | scanAob other env body sent =>
    unfold ScanServer.step
    dsimp only
    split
    · exact h.beginScan_other ha _ _ _
    · exact h
  | fromResult other allocated sent =>
    unfold ScanServer.step
    dsimp only
    split
    · unfold ScanServer.publish
      dsimp only
      split_ifs
      · exact (hsession _).goto_other ha _
      · exact ((hsession _).goto_other ha _).reply_other ha _
    · exact h
  | sendChunk other sends | scanFetch other sends =>
    unfold ScanServer.step
    dsimp only
    split
    · exact ((hsession _).goto_other ha _).reply_other ha _
    · exact h

end Agrees

theorem agrees_filter {client : Nat} (h : Agrees client s t) (hs : s.Unfilled) (ht : t.Unfilled)
    (steps : List ScanStep) :
    Agrees client (steps.foldl (ScanServer.step maxScanResults) s)
      ((steps.filter fun a => a.client = client).foldl (ScanServer.step maxScanResults) t) := by
  induction steps generalizing s t with
  | nil => exact h
  | cons a steps ih =>
    by_cases ha : a.client = client
    · rw [filter_cons_of_pos (p := fun a : ScanStep => decide (a.client = client))
        (decide_eq_true ha)]
      exact ih (h.step hs ht ha) (hs.step a) (ht.step a)
    · rw [filter_cons_of_neg (p := fun a : ScanStep => decide (a.client = client))
        (ne_true_of_eq_false (decide_eq_false ha))]
      exact ih (h.step_other ha) (hs.step a) ht

/-- In every interleaving the chunks of a client are what its own scan found in the whole range, and
they are those it receives without the other clients. -/
theorem chunks_of_runs (maxScanResults : Nat) (steps : List ScanStep) (client : Nat) :
    chunks ((run maxScanResults steps).received client) <+:
        (run maxScanResults steps).found client ∧
      (ScanReply.count 0 ∈ (run maxScanResults steps).received client →
        chunks ((run maxScanResults steps).received client) =
          (run maxScanResults steps).found client) ∧
      (run maxScanResults steps).received client =
        (run maxScanResults (steps.filter fun a => a.client = client)).received client := by
  have hunfilled : (run maxScanResults steps).Unfilled := Unfilled.run steps
  have hequal := (hunfilled.received client).trans (hunfilled.found client).symm
  exact ⟨hequal ▸ prefix_rfl, fun _ => hequal,
    (agrees_filter ⟨rfl, rfl⟩ unfilled_init unfilled_init steps).received⟩

end ScanServer

end MemDbg.Legacy
