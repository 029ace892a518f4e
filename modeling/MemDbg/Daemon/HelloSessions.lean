import Mathlib.Data.Set.Card
import Mathlib.Data.Set.Finite.Range
import MemDbg.Daemon.Command
import MemDbg.Lib.Transition

/-!
# The HELLO session registry

The acceptor registers every connection in a table of 64 clients before a worker
serves it; a HELLO enters the connection into a table of 64 sessions, which groups
connections by session identity and peer.  On its way out a connection leaves the
two tables in the opposite order, each under the lock of that table.

A connection that asks for a session is registered and has none, and every used session
has a registered connection of its own, so at most 63 sessions are in use.
-/

namespace MemDbg.Daemon

open List Function Lib

/-! ## The tables -/

def trackedClients : Nat := 64

structure TrackedSession where
  sessionId : Nat
  peerAddress : Nat
  connections : Nat
  used : Bool
deriving DecidableEq

def TrackedSession.zero : TrackedSession := ⟨0, 0, 0, false⟩

def TrackedSession.leave (e : TrackedSession) : TrackedSession :=
  if e.connections = 1 then .zero else { e with connections := e.connections - 1 }

abbrev Sessions := Fin trackedClients → TrackedSession

abbrev Clients := Fin trackedClients → Option Nat

def acceptorRegisterClient (clients : Clients) (fd : Nat) : Option Clients :=
  ((List.finRange trackedClients).find? fun j => (clients j).isNone).map fun j =>
    update clients j (some fd)

def acceptorUnregisterClient (clients : Clients) (fd : Nat) : Clients :=
  match (List.finRange trackedClients).find? fun j => clients j = some fd with
  | some j => update clients j none
  | none => clients

def findSession (sessions : Sessions) (sessionId peer : Nat) : Option (Fin trackedClients) :=
  (List.finRange trackedClients).find? fun i =>
    (sessions i).used && (sessions i).sessionId == sessionId && (sessions i).peerAddress == peer

def findEmpty (sessions : Sessions) : Option (Fin trackedClients) :=
  (List.finRange trackedClients).find? fun i => !(sessions i).used

def acceptorRegisterHelloSession (sessions : Sessions) (sessionId : Nat) (peer : Option Nat)
    (cookie : Nat) : Nat × Sessions :=
  if cookie ≠ 0 then (cookie, sessions)
  else
    match peer with
    | none => (cookie, sessions)
    | some peer =>
      match findSession sessions sessionId peer with
      | some i =>
        (i + 1, update sessions i
          { sessions i with connections := (sessions i).connections + 1 })
      | none =>
        match findEmpty sessions with
        | some i => (i + 1, update sessions i ⟨sessionId, peer, 1, true⟩)
        | none => (cookie, sessions)

def acceptorUnregisterHelloSession (sessions : Sessions) (cookie : Nat) : Sessions :=
  if h : 0 < cookie ∧ cookie ≤ trackedClients then
    let i : Fin trackedClients := ⟨cookie - 1, by omega⟩
    if (sessions i).used ∧ 0 < (sessions i).connections then
      update sessions i (sessions i).leave
    else sessions
  else sessions

/-! ## Connections -/

inductive ConnPhase where
  | queued
  | serving
  | left (exhausted : Bool)
  | released
  | unregistered
deriving DecidableEq

def ConnPhase.holding : ConnPhase → Bool
  | .serving | .left _ => true
  | _ => false

structure Conn where
  phase : ConnPhase
  cookie : Nat
  budget : Nat
  greeted : Bool
deriving DecidableEq

structure HelloRegistry where
  clients : Clients
  sessions : Sessions
  conns : Nat → Option Conn

def HelloRegistry.init : HelloRegistry := ⟨fun _ => none, fun _ => .zero, fun _ => none⟩

inductive ConnLabel where
  | accept (fd : Nat)
  | enqueueFailed (fd : Nat)
  | start (fd : Nat)
  | request (fd : Nat) (req : Request) (status : Status) (peer : Option Nat)
  | disconnect (fd : Nat)
  | releaseSession (fd : Nat)
  | unregister (fd : Nat)
  | close (fd : Nat)

namespace HelloRegistry

def setConn (d : HelloRegistry) (fd : Nat) (c : Option Conn) : HelloRegistry :=
  { d with conns := update d.conns fd c }

def serve (d : HelloRegistry) (fd : Nat) (c : Conn) (req : Request) (status : Status)
    (peer : Option Nat) : HelloRegistry :=
  match chargeBudget c.cookie c.budget req.command with
  | none => d.setConn fd (some { c with phase := .left true })
  | some budget =>
    let hello := decide (status = .ok) && decide (req.command = .hello)
    let (cookie, sessions) :=
      if hello then acceptorRegisterHelloSession d.sessions (helloSessionId req) peer c.cookie
      else (c.cookie, d.sessions)
    { d with sessions := sessions }.setConn fd (some
      { phase := if req.command = Command.goodbye then .left false else .serving
        cookie := cookie
        budget := budget
        greeted := c.greeted || (hello && peer.isSome) })

def step (d : HelloRegistry) : ConnLabel → Option HelloRegistry
  | .accept fd =>
    match d.conns fd with
    | some _ => none
    -- without a free entry the socket is closed at once
    | none =>
      match acceptorRegisterClient d.clients fd with
      | none => some d
      | some clients =>
        some ({ d with clients := clients }.setConn fd (some ⟨.queued, 0, 0, false⟩))
  | .enqueueFailed fd =>
    match d.conns fd with
    | some ⟨.queued, cookie, budget, greeted⟩ =>
      some ({ d with clients := acceptorUnregisterClient d.clients fd }.setConn fd
        (some ⟨.unregistered, cookie, budget, greeted⟩))
    | _ => none
  | .start fd =>
    match d.conns fd with
    | some ⟨.queued, _, _, _⟩ => some (d.setConn fd (some ⟨.serving, 0, preAuthCmdBudget, false⟩))
    | _ => none
  | .request fd req status peer =>
    match d.conns fd with
    | some ⟨.serving, cookie, budget, greeted⟩ =>
      some (d.serve fd ⟨.serving, cookie, budget, greeted⟩ req status peer)
    | _ => none
  | .disconnect fd =>
    match d.conns fd with
    | some ⟨.serving, cookie, budget, greeted⟩ =>
      some (d.setConn fd (some ⟨.left false, cookie, budget, greeted⟩))
    | _ => none
  | .releaseSession fd =>
    match d.conns fd with
    | some ⟨.left _, cookie, budget, greeted⟩ =>
      some ({ d with sessions := acceptorUnregisterHelloSession d.sessions cookie }.setConn fd
        (some ⟨.released, cookie, budget, greeted⟩))
    | _ => none
  | .unregister fd =>
    match d.conns fd with
    | some ⟨.released, cookie, budget, greeted⟩ =>
      some ({ d with clients := acceptorUnregisterClient d.clients fd }.setConn fd
        (some ⟨.unregistered, cookie, budget, greeted⟩))
    | _ => none
  | .close fd =>
    match d.conns fd with
    | some ⟨.unregistered, _, _, _⟩ => some (d.setConn fd none)
    | _ => none

end HelloRegistry

/-! ## The invariant -/

def Conn.Holds (c : Conn) (i : Fin trackedClients) : Prop :=
  c.phase.holding = true ∧ c.cookie = i + 1

structure Conn.Good (c : Conn) (clients : Clients) (fd : Nat) : Prop where
  registered : c.phase ≠ .unregistered → ∃ j, clients j = some fd
  cookie_le : c.cookie ≤ trackedClients
  greeted : c.greeted = true → c.cookie ≠ 0
  exhausted : c.phase = .left true → c.cookie = 0

namespace HelloRegistry

def holders (d : HelloRegistry) (i : Fin trackedClients) : Set Nat :=
  {fd | ∃ c, d.conns fd = some c ∧ c.Holds i}

/-- The session table says what the open connections hold. -/
structure Matches (d : HelloRegistry) : Prop where
  used_iff : ∀ i, (d.sessions i).used = true ↔ (d.holders i).Nonempty
  connections_eq : ∀ i, (d.sessions i).connections = (d.holders i).ncard
  unique : ∀ i j, (d.sessions i).used = true → (d.sessions j).used = true →
    (d.sessions i).sessionId = (d.sessions j).sessionId →
    (d.sessions i).peerAddress = (d.sessions j).peerAddress → i = j

structure Consistent (d : HelloRegistry) : Prop where
  matching : d.Matches
  good : ∀ fd c, d.conns fd = some c → c.Good d.clients fd

theorem consistent_init : init.Consistent where
  matching :=
    { used_iff := fun i => by simp [init, holders, TrackedSession.zero]
      connections_eq := fun i => by simp [init, holders, TrackedSession.zero]
      unique := fun i j hi => by simp [init, TrackedSession.zero] at hi }
  good := fun fd c h => by cases h

end HelloRegistry

/-! ## What the table operations do -/

section Clients

variable {clients clients' : Clients} {fd : Nat}

theorem acceptorRegisterClient_some (h : acceptorRegisterClient clients fd = some clients') :
    (∃ j, clients' j = some fd) ∧ ∀ fd' j, clients j = some fd' → clients' j = some fd' := by
  obtain ⟨j, hj, rfl⟩ := Option.map_eq_some_iff.mp h
  have hfree : (clients j).isNone = true := by
    simpa using find?_some hj
  refine ⟨⟨j, update_self _ _ _⟩, fun fd' k hk => ?_⟩
  rw [update_of_ne]
  · exact hk
  · rintro rfl
    rw [hk] at hfree
    cases hfree

theorem acceptorUnregisterClient_ne {fd' : Nat} (hne : fd' ≠ fd) {j : Fin trackedClients}
    (h : clients j = some fd') : acceptorUnregisterClient clients fd j = some fd' := by
  unfold acceptorUnregisterClient
  cases hfind : (List.finRange trackedClients).find? fun j => clients j = some fd with
  | none => exact h
  | some k =>
    have hfd : clients k = some fd := by
      simpa using find?_some hfind
    have hjk : j ≠ k := by
      rintro rfl
      rw [h] at hfd
      exact hne (Option.some.inj hfd)
    simpa [update_of_ne hjk] using h

end Clients

section Sessions

variable {sessions : Sessions} {sessionId peer : Nat} {i : Fin trackedClients}

theorem findSession_some (h : findSession sessions sessionId peer = some i) :
    (sessions i).used = true ∧ (sessions i).sessionId = sessionId ∧
      (sessions i).peerAddress = peer := by
  have := find?_some h
  simpa [and_assoc] using this

theorem findSession_none (h : findSession sessions sessionId peer = none)
    (i : Fin trackedClients) (hused : (sessions i).used = true)
    (hid : (sessions i).sessionId = sessionId) : (sessions i).peerAddress ≠ peer := by
  intro hpeer
  have := find?_eq_none.mp h i (mem_finRange i)
  simp [hused, hid, hpeer] at this

theorem findEmpty_some (h : findEmpty sessions = some i) : (sessions i).used = false := by
  simpa using find?_some h

theorem findEmpty_none (h : findEmpty sessions = none) (i : Fin trackedClients) :
    (sessions i).used = true := by
  simpa using find?_eq_none.mp h i (mem_finRange i)

structure Joins (sessions : Sessions) (sessionId peer : Nat) (i : Fin trackedClients)
    (e : TrackedSession) : Prop where
  used : e.used = true
  sessionId_eq : e.sessionId = sessionId
  peerAddress_eq : e.peerAddress = peer
  connections_eq : e.connections =
    (if (sessions i).used then (sessions i).connections else 0) + 1
  alone : ∀ j, (sessions j).used = true → (sessions j).sessionId = sessionId →
    (sessions j).peerAddress = peer → (sessions i).used = true ∧
      (sessions i).sessionId = sessionId ∧ (sessions i).peerAddress = peer

theorem acceptorRegisterHelloSession_joins (sessionId peer : Nat)
    (h : findEmpty sessions ≠ none) :
    ∃ i e, Joins sessions sessionId peer i e ∧
      acceptorRegisterHelloSession sessions sessionId (some peer) 0 =
        ((i : Nat) + 1, update sessions i e) := by
  unfold acceptorRegisterHelloSession
  rw [if_neg (by simp)]
  dsimp only
  cases hfind : findSession sessions sessionId peer with
  | some i =>
    obtain ⟨hused, hid, hpeer⟩ := findSession_some hfind
    refine ⟨i, { sessions i with connections := (sessions i).connections + 1 },
      ⟨hused, hid, hpeer, ?_, fun _ _ _ _ => ⟨hused, hid, hpeer⟩⟩, rfl⟩
    rw [if_pos hused]
  | none =>
    cases hempty : findEmpty sessions with
    | none => exact absurd hempty h
    | some i =>
      refine ⟨i, ⟨sessionId, peer, 1, true⟩,
        ⟨rfl, rfl, rfl, ?_, fun j hused hid hpeer => ?_⟩, rfl⟩
      · rw [if_neg (by simp [findEmpty_some hempty])]
      · exact absurd hpeer (findSession_none hfind j hused hid)

theorem acceptorUnregisterHelloSession_zero (sessions : Sessions) :
    acceptorUnregisterHelloSession sessions 0 = sessions := by
  simp [acceptorUnregisterHelloSession]

theorem acceptorUnregisterHelloSession_succ (hused : (sessions i).used = true)
    (hpos : 0 < (sessions i).connections) :
    acceptorUnregisterHelloSession sessions (i + 1) =
      update sessions i (sessions i).leave := by
  unfold acceptorUnregisterHelloSession
  rw [dif_pos ⟨by omega, by omega⟩]
  have hindex : (⟨(i : Nat) + 1 - 1, by omega⟩ : Fin trackedClients) = i := Fin.ext (by simp)
  rw [hindex, if_pos ⟨hused, hpos⟩]

end Sessions

/-! ## Steps -/

namespace HelloRegistry

variable {d : HelloRegistry} {fd : Nat} {c c' : Conn} {i : Fin trackedClients}

theorem holders_setConn (h : c'.Holds i) :
    (d.setConn fd (some c')).holders i = insert fd (d.holders i) := by
  ext fd'
  by_cases hfd : fd' = fd
  · subst hfd
    simp [holders, setConn, h]
  · simp [holders, setConn, hfd]

theorem holders_setConn_of_not {o : Option Conn} (h : ∀ c', o = some c' → ¬ c'.Holds i) :
    (d.setConn fd o).holders i = d.holders i \ {fd} := by
  ext fd'
  by_cases hfd : fd' = fd
  · subst hfd
    simpa [holders, setConn] using h
  · simp [holders, setConn, hfd]

theorem Consistent.finite_holders (h : d.Consistent) (i : Fin trackedClients) :
    (d.holders i).Finite := by
  refine Set.Finite.subset ((Set.finite_range d.clients).preimage
    (Option.some_injective Nat).injOn) ?_
  rintro fd ⟨c, hc, hholds⟩
  obtain ⟨j, hj⟩ := (h.good fd c hc).registered fun hphase => by
    rw [Conn.Holds, hphase] at hholds
    cases hholds.1
  exact ⟨j, hj⟩

theorem Consistent.move (h : d.Consistent) {clients : Clients} {o : Option Conn}
    (hclients : ∀ fd' j, fd' ≠ fd → d.clients j = some fd' → clients j = some fd')
    (hsame : ∀ i, (∃ c', o = some c' ∧ c'.Holds i) ↔ ∃ c, d.conns fd = some c ∧ c.Holds i)
    (hgood : ∀ c', o = some c' → c'.Good clients fd) :
    ({ d with clients := clients }.setConn fd o).Consistent := by
  have hholders : ({ d with clients := clients }.setConn fd o).holders = d.holders := by
    funext i
    ext fd'
    by_cases hfd : fd' = fd
    · subst hfd
      simpa [holders, setConn] using hsame i
    · simp [holders, setConn, hfd]
  refine ⟨⟨?_, ?_, h.matching.unique⟩, fun fd' c' hc' => ?_⟩
  · intro i
    rw [hholders]
    exact h.matching.used_iff i
  · intro i
    rw [hholders]
    exact h.matching.connections_eq i
  · by_cases hfd : fd' = fd
    · subst hfd
      exact hgood c' (by simpa [setConn] using hc')
    · have hold := h.good fd' c' (by simpa [setConn, hfd] using hc')
      exact { hold with
        registered := fun hphase => (hold.registered hphase).imp fun j => hclients fd' j hfd }

theorem Consistent.exists_empty (h : d.Consistent) (hc : d.conns fd = some c)
    (hphase : c.phase ≠ .unregistered) (hcookie : c.cookie = 0) : findEmpty d.sessions ≠ none := by
  intro hfull
  -- every session has a holder, every holder a client entry, and `fd` has one more
  have hholder : ∀ i, ∃ j fd', d.clients j = some fd' ∧ fd' ∈ d.holders i := by
    intro i
    obtain ⟨fd', c', hc', hholds⟩ := (h.matching.used_iff i).mp (findEmpty_none hfull i)
    obtain ⟨j, hj⟩ := (h.good fd' c' hc').registered fun hphase => by
      rw [Conn.Holds, hphase] at hholds
      cases hholds.1
    exact ⟨j, fd', hj, c', hc', hholds⟩
  choose entry holder hentry hmem using hholder
  obtain ⟨own, hown⟩ := (h.good fd c hc).registered hphase
  have hinj : Injective entry := by
    intro i i' heq
    have hsame : holder i = holder i' := by
      have := hentry i
      rw [heq, hentry i'] at this
      exact (Option.some.inj this).symm
    obtain ⟨c₁, hc₁, -, hcookie₁⟩ := hmem i
    obtain ⟨c₂, hc₂, -, hcookie₂⟩ := hmem i'
    rw [hsame, hc₂] at hc₁
    cases hc₁
    exact Fin.ext (by omega)
  obtain ⟨i, hi⟩ := (Finite.injective_iff_surjective.mp hinj) own
  obtain ⟨c₁, hc₁, -, hcookie₁⟩ := hmem i
  have hsame : holder i = fd := by
    have := hentry i
    rw [hi, hown] at this
    exact (Option.some.inj this).symm
  rw [hsame, hc] at hc₁
  cases hc₁
  omega

theorem Consistent.setEntry (h : d.Consistent) {e : TrackedSession} {holders' : Set Nat}
    (hthis : (d.setConn fd (some c')).holders i = holders')
    (hother : ∀ j, j ≠ i → (d.setConn fd (some c')).holders j = d.holders j)
    (hused : e.used = true ↔ holders'.Nonempty) (hconnections : e.connections = holders'.ncard)
    (hunique : e.used = true → ∀ j, j ≠ i → (d.sessions j).used = true →
      (d.sessions j).sessionId = e.sessionId → (d.sessions j).peerAddress ≠ e.peerAddress)
    (hgood : c'.Good d.clients fd) :
    ({ d with sessions := update d.sessions i e }.setConn fd (some c')).Consistent := by
  refine ⟨⟨fun j => ?_, fun j => ?_, fun j k hj hk hid hpeer => ?_⟩, fun fd' c₁ hc₁ => ?_⟩
  · change (update d.sessions i e j).used = true ↔
      ((d.setConn fd (some c')).holders j).Nonempty
    by_cases hj : j = i
    · subst hj
      rw [update_self, hthis, hused]
    · rw [update_of_ne hj, hother j hj]
      exact h.matching.used_iff j
  · change (update d.sessions i e j).connections =
      ((d.setConn fd (some c')).holders j).ncard
    by_cases hj : j = i
    · subst hj
      rw [update_self, hthis, hconnections]
    · rw [update_of_ne hj, hother j hj]
      exact h.matching.connections_eq j
  · simp only [setConn] at hj hk hid hpeer
    by_cases hji : j = i <;> by_cases hki : k = i
    · rw [hji, hki]
    · subst hji
      rw [update_of_ne hki] at hk hid hpeer
      rw [update_self] at hj hid hpeer
      exact absurd hpeer.symm (hunique hj k hki hk hid.symm)
    · subst hki
      rw [update_of_ne hji] at hj hid hpeer
      rw [update_self] at hk hid hpeer
      exact absurd hpeer (hunique hk j hji hj hid)
    · rw [update_of_ne hji] at hj hid hpeer
      rw [update_of_ne hki] at hk hid hpeer
      exact h.matching.unique j k hj hk hid hpeer
  · by_cases hfd : fd' = fd
    · subst hfd
      have : c' = c₁ := by simpa [setConn] using hc₁
      exact this ▸ hgood
    · exact h.good fd' c₁ (by simpa [setConn, hfd] using hc₁)

theorem Consistent.join (h : d.Consistent) (hc : d.conns fd = some c) (hcookie : c.cookie = 0)
    {sessionId peer : Nat} {e : TrackedSession} (hjoins : Joins d.sessions sessionId peer i e)
    (hholds : c'.Holds i) (hgood : c'.Good d.clients fd) :
    ({ d with sessions := update d.sessions i e }.setConn fd (some c')).Consistent := by
  have hnot : ∀ j, fd ∉ d.holders j := by
    rintro j ⟨c₁, hc₁, -, hcookie₁⟩
    rw [hc] at hc₁
    cases hc₁
    omega
  refine h.setEntry (holders_setConn hholds) (fun j hj ↦ ?_) ?_ ?_ (fun _ j hj hused hid hpeer ↦ ?_)
    hgood
  · rw [holders_setConn_of_not]
    · exact Set.sdiff_singleton_eq_self (hnot j)
    · rintro _ ⟨⟩ ⟨-, hj'⟩
      exact hj (Fin.ext (by have := hholds.2; omega))
  · simp [hjoins.used]
  · rw [Set.ncard_insert_of_notMem (hnot i) (h.finite_holders i), hjoins.connections_eq,
      h.matching.connections_eq i]
    split_ifs with hused
    · rfl
    · have hempty : d.holders i = ∅ :=
        Set.not_nonempty_iff_eq_empty.mp ((h.matching.used_iff i).not.mp hused)
      rw [hempty, Set.ncard_empty]
  · -- an old entry of the identity and peer would have been joined
    rw [hjoins.sessionId_eq] at hid
    rw [hjoins.peerAddress_eq] at hpeer
    obtain ⟨hiused, hiid, hipeer⟩ := hjoins.alone j hused hid hpeer
    exact hj (h.matching.unique j i hused hiused (by rw [hid, hiid]) (by rw [hpeer, hipeer]))

theorem Consistent.leave (h : d.Consistent) (hc : d.conns fd = some c)
    (hholding : c.phase.holding = true) (hnot : c'.phase.holding = false)
    (hgood : c'.Good d.clients fd) :
    ({ d with sessions := acceptorUnregisterHelloSession d.sessions c.cookie }.setConn fd
      (some c')).Consistent := by
  have hnone : ∀ i, ¬ c'.Holds i := by
    intro i hi
    rw [Conn.Holds, hnot] at hi
    cases hi.1
  have hcookie : ∀ j, fd ∈ d.holders j → c.cookie = j + 1 := by
    rintro j ⟨c₁, hc₁, -, hj⟩
    rw [hc] at hc₁
    cases hc₁
    exact hj
  rcases Nat.eq_zero_or_pos c.cookie with hzero | hpos
  · rw [hzero, acceptorUnregisterHelloSession_zero]
    refine h.move (fun _ _ _ hj => hj) (fun i => ?_) (by rintro _ ⟨⟩; exact hgood)
    constructor
    · rintro ⟨_, ⟨⟩, hi⟩
      exact absurd hi (hnone i)
    · intro hi
      have := hcookie i hi
      omega
  · have hle := (h.good fd c hc).cookie_le
    obtain ⟨i, hi⟩ : ∃ i : Fin trackedClients, c.cookie = i + 1 :=
      ⟨⟨c.cookie - 1, by omega⟩, by simp only; omega⟩
    have hmem : fd ∈ d.holders i := ⟨c, hc, hholding, hi⟩
    have hused : (d.sessions i).used = true := (h.matching.used_iff i).mpr ⟨fd, hmem⟩
    have hcard : 0 < (d.holders i).ncard := (Set.ncard_pos (h.finite_holders i)).mpr ⟨fd, hmem⟩
    have hconn := h.matching.connections_eq i
    have hremoved : (d.holders i \ {fd}).ncard = (d.holders i).ncard - 1 :=
      Set.ncard_sdiff_singleton_of_mem hmem
    rw [hi, acceptorUnregisterHelloSession_succ hused (by omega)]
    refine h.setEntry (holders_setConn_of_not (by rintro _ ⟨⟩; exact hnone i)) (fun j hj => ?_)
      ?_ ?_ (fun hleft j hj hjused hid hpeer => ?_) hgood
    · rw [holders_setConn_of_not (by rintro _ ⟨⟩; exact hnone j)]
      refine Set.sdiff_singleton_eq_self fun hj' => hj (Fin.ext ?_)
      have := hcookie j hj'
      omega
    · have hfin : (d.holders i \ {fd}).Finite := (h.finite_holders i).subset Set.sdiff_subset
      rw [← Set.ncard_pos hfin, hremoved, TrackedSession.leave]
      split_ifs with hone
      · simp only [TrackedSession.zero, Bool.false_eq_true, false_iff]
        omega
      · simp only [hused, true_iff]
        omega
    · rw [hremoved, TrackedSession.leave]
      split_ifs with hone
      · simp only [TrackedSession.zero]
        omega
      · simp only [hconn]
    · -- an entry that stays in use keeps its identity and peer
      unfold TrackedSession.leave at hleft hid hpeer
      split_ifs at hleft hid hpeer with hone
      · cases hleft
      · exact hj (h.matching.unique j i hjused hused hid hpeer)

theorem Consistent.serve_cases (h : d.Consistent) (hc : d.conns fd = some c)
    (hphase : c.phase = .serving) (req : Request) (status : Status) (peer : Option Nat) :
    (c.cookie = 0 ∧ d.serve fd c req status peer =
        d.setConn fd (some { c with phase := .left true })) ∨
      (∃ c' : Conn, c'.phase.holding = true ∧ c'.phase ≠ .left true ∧ c'.cookie = c.cookie ∧
        (c'.greeted = true → c.greeted = true ∨ c.cookie ≠ 0) ∧
        d.serve fd c req status peer = d.setConn fd (some c')) ∨
      ∃ (c' : Conn) (i : Fin trackedClients) (e : TrackedSession) (addr : Nat),
        c.cookie = 0 ∧ c'.Holds i ∧ c'.phase ≠ .left true ∧
        Joins d.sessions (helloSessionId req) addr i e ∧
        d.serve fd c req status peer =
          { d with sessions := update d.sessions i e }.setConn fd (some c') := by
  unfold serve
  cases hcharge : chargeBudget c.cookie c.budget req.command with
  | none =>
    refine .inl ⟨?_, rfl⟩
    by_contra hne
    rw [chargeBudget_of_cookie hne] at hcharge
    cases hcharge
  | some budget =>
    refine .inr ?_
    dsimp only
    generalize hnext : (if req.command = Command.goodbye then ConnPhase.left false
      else .serving) = next
    have hgo : next.holding = true ∧ next ≠ .left true := by
      subst hnext
      split_ifs <;> simp [ConnPhase.holding]
    generalize (decide (status = .ok) && decide (req.command = .hello)) = hello
    by_cases hstay : hello = false ∨ c.cookie ≠ 0 ∨ peer = none
    · have hsame : (if hello = true then
          acceptorRegisterHelloSession d.sessions (helloSessionId req) peer c.cookie
            else (c.cookie, d.sessions)) = (c.cookie, d.sessions) := by
        rcases hstay with rfl | hcookie | rfl <;> simp [acceptorRegisterHelloSession, *]
      rw [hsame]
      refine .inl ⟨⟨next, c.cookie, budget, c.greeted || (hello && peer.isSome)⟩, hgo.1, hgo.2,
        rfl, ?_, rfl⟩
      rcases hstay with rfl | hcookie | rfl <;> simp +contextual [*]
    · push Not at hstay
      obtain ⟨hhello, hcookie, hpeer⟩ := hstay
      obtain ⟨addr, rfl⟩ := Option.ne_none_iff_exists'.mp hpeer
      obtain ⟨i, e, hjoins, heq⟩ := acceptorRegisterHelloSession_joins
        (helloSessionId req) addr (h.exists_empty hc (by simp [hphase]) hcookie)
      rw [if_pos (by simpa using hhello), hcookie, heq]
      exact .inr ⟨⟨next, i + 1, budget, c.greeted || (hello && true)⟩, i, e, addr, rfl,
        ⟨hgo.1, rfl⟩, hgo.2, hjoins, rfl⟩

theorem Consistent.serve (h : d.Consistent) (hc : d.conns fd = some c)
    (hphase : c.phase = .serving) (req : Request) (status : Status) (peer : Option Nat) :
    (d.serve fd c req status peer).Consistent := by
  have hgood := h.good fd c hc
  have hreg : ∃ j, d.clients j = some fd := hgood.registered (by simp [hphase])
  -- a connection that keeps its cookie holds what it held
  have hmove : ∀ c' : Conn, c'.phase.holding = true → c'.cookie = c.cookie →
      c'.Good d.clients fd → (d.setConn fd (some c')).Consistent := by
    intro c' hholding hcookie hgood'
    have hserving : c.phase.holding = true := by rw [hphase]; rfl
    refine h.move (fun _ _ _ hj => hj) (fun i => ?_) (by rintro _ ⟨⟩; exact hgood')
    simp [Conn.Holds, hc, hholding, hcookie, hserving]
  rcases h.serve_cases hc hphase req status peer with
    ⟨hcookie, heq⟩ | ⟨c', hholding, hnot, hcookie, hgreeted, heq⟩ |
    ⟨c', i, e, addr, hcookie, hholds, hnot, hjoins, heq⟩ <;> rw [heq]
  · exact hmove _ rfl rfl ⟨fun _ => hreg, hgood.cookie_le, hgood.greeted, fun _ => hcookie⟩
  · refine hmove c' hholding hcookie
      ⟨fun _ => hreg, hcookie ▸ hgood.cookie_le, fun hg => ?_, fun hleft => absurd hleft hnot⟩
    rw [hcookie]
    exact (hgreeted hg).elim hgood.greeted id
  · refine h.join hc hcookie hjoins hholds
      ⟨fun _ => hreg, ?_, fun _ => ?_, fun hleft => absurd hleft hnot⟩
    · rw [hholds.2]
      exact i.isLt
    · rw [hholds.2]
      omega

theorem Consistent.step (h : d.Consistent) {label : ConnLabel} {d' : HelloRegistry}
    (hstep : d.step label = some d') : d'.Consistent := by
  cases label with
  | accept fd =>
    simp only [HelloRegistry.step] at hstep
    split at hstep
    · cases hstep
    · rename_i hnone
      split at hstep
      · cases hstep
        exact h
      · rename_i clients hreg
        cases hstep
        obtain ⟨hown, hkeep⟩ := acceptorRegisterClient_some hreg
        refine h.move (fun fd' j _ => hkeep fd' j) (fun i => ?_) ?_
        · simp [Conn.Holds, hnone, ConnPhase.holding]
        · rintro _ ⟨⟩
          exact ⟨fun _ => hown, Nat.zero_le _, by simp, by simp⟩
  | enqueueFailed fd =>
    simp only [HelloRegistry.step] at hstep
    split at hstep
    · rename_i cookie budget greeted hc
      cases hstep
      have hgood := h.good fd _ hc
      refine h.move (fun fd' j hne hj => acceptorUnregisterClient_ne hne hj) (fun i => ?_) ?_
      · simp [Conn.Holds, hc, ConnPhase.holding]
      · rintro _ ⟨⟩
        exact ⟨by simp, hgood.cookie_le, hgood.greeted, by simp⟩
    · cases hstep
  | start fd =>
    simp only [HelloRegistry.step] at hstep
    split at hstep
    · rename_i cookie budget greeted hc
      cases hstep
      have hgood := h.good fd _ hc
      refine h.move (fun _ _ _ hj => hj) (fun i => ?_) ?_
      · simp [Conn.Holds, hc, ConnPhase.holding]
      · rintro _ ⟨⟩
        exact ⟨fun _ => hgood.registered (by simp), Nat.zero_le _, by simp, by simp⟩
    · cases hstep
  | request fd req status peer =>
    simp only [HelloRegistry.step] at hstep
    split at hstep
    · rename_i cookie budget greeted hc
      cases hstep
      exact h.serve hc rfl req status peer
    · cases hstep
  | disconnect fd =>
    simp only [HelloRegistry.step] at hstep
    split at hstep
    · rename_i cookie budget greeted hc
      cases hstep
      have hgood := h.good fd _ hc
      refine h.move (fun _ _ _ hj => hj) (fun i => ?_) ?_
      · simp [Conn.Holds, hc, ConnPhase.holding]
      · rintro _ ⟨⟩
        exact ⟨fun _ => hgood.registered (by simp), hgood.cookie_le, hgood.greeted, by simp⟩
    · cases hstep
  | releaseSession fd =>
    simp only [HelloRegistry.step] at hstep
    split at hstep
    · rename_i exhausted cookie budget greeted hc
      cases hstep
      have hgood := h.good fd _ hc
      exact h.leave hc rfl rfl
        ⟨fun _ => hgood.registered (by simp), hgood.cookie_le, hgood.greeted, by simp⟩
    · cases hstep
  | unregister fd =>
    simp only [HelloRegistry.step] at hstep
    split at hstep
    · rename_i cookie budget greeted hc
      cases hstep
      have hgood := h.good fd _ hc
      refine h.move (fun fd' j hne hj => acceptorUnregisterClient_ne hne hj) (fun i => ?_) ?_
      · simp [Conn.Holds, hc, ConnPhase.holding]
      · rintro _ ⟨⟩
        exact ⟨by simp, hgood.cookie_le, hgood.greeted, by simp⟩
    · cases hstep
  | close fd =>
    simp only [HelloRegistry.step] at hstep
    split at hstep
    · rename_i cookie budget greeted hc
      cases hstep
      refine h.move (fun _ _ _ hj => hj) (fun i => ?_) (by rintro _ ⟨⟩)
      simp [Conn.Holds, hc, ConnPhase.holding]
    · cases hstep

theorem Consistent.hello_cookie (h : d.Consistent) (hc : d.conns fd = some c)
    (hphase : c.phase = .serving) {req : Request} (hhello : req.command = .hello) (addr : Nat) :
    ∃ c', (d.serve fd c req .ok (some addr)).conns fd = some c' ∧ c'.cookie ≠ 0 := by
  have hafter := h.serve hc hphase req .ok (some addr)
  have hcharge : chargeBudget c.cookie c.budget req.command = some c.budget := by
    simp [chargeBudget, hhello, Command.budgetExempt]
  obtain ⟨c', hc', hgreeted⟩ : ∃ c', (d.serve fd c req .ok (some addr)).conns fd = some c' ∧
      c'.greeted = true := by
    unfold HelloRegistry.serve
    rw [hcharge]
    exact ⟨_, update_self _ _ _, by simp [hhello]⟩
  exact ⟨c', hc', (hafter.good fd c' hc').greeted hgreeted⟩

/-- **The registry matches the live connections.**  In every state of every
interleaving the session table counts the connections that hold its cookies, an
answered HELLO of an IPv4 peer brings a cookie, and no connection that was greeted so
is cut by the budget. -/
theorem helloSessions_match {labels : List ConnLabel} {d : HelloRegistry}
    (hrun : Run HelloRegistry.step (fun _ _ => True) .init labels d) :
    d.Matches ∧
      (∀ fd req addr d', req.command = .hello →
        d.step (.request fd req .ok (some addr)) = some d' →
        ∃ c, d'.conns fd = some c ∧ c.cookie ≠ 0) ∧
      ∀ fd c, d.conns fd = some c → c.greeted = true →
        c.cookie ≠ 0 ∧ c.phase ≠ .left true := by
  have h : d.Consistent :=
    hrun.invariant (fun _ _ _ hs _ hstep => hs.step hstep) consistent_init
  refine ⟨h.matching, fun fd req addr d' hhello hstep => ?_, fun fd c hc hgreeted => ?_⟩
  · simp only [HelloRegistry.step] at hstep
    split at hstep
    · rename_i cookie budget greeted hc
      cases hstep
      exact h.hello_cookie hc rfl hhello addr
    · cases hstep
  · have hcookie := (h.good fd c hc).greeted hgreeted
    exact ⟨hcookie, fun hleft => hcookie ((h.good fd c hc).exhausted hleft)⟩

theorem helloSessions_match_two :
    ∃ d : HelloRegistry,
      Run HelloRegistry.step (fun _ _ => True) .init
        [.accept 7, .start 7, .accept 8, .start 8,
          .request 7 ⟨.hello, 1, []⟩ .ok (some 5), .request 8 ⟨.hello, 1, []⟩ .ok (some 5),
          .disconnect 7, .releaseSession 7] d ∧
        (d.sessions ⟨0, by decide⟩).connections = 1 ∧ d.Matches := by
  have hrun : ∃ d : HelloRegistry, Run HelloRegistry.step (fun _ _ => True) .init
      [.accept 7, .start 7, .accept 8, .start 8,
        .request 7 ⟨.hello, 1, []⟩ .ok (some 5), .request 8 ⟨.hello, 1, []⟩ .ok (some 5),
        .disconnect 7, .releaseSession 7] d ∧ (d.sessions ⟨0, by decide⟩).connections = 1 :=
    ⟨_, .cons trivial rfl (.cons trivial rfl (.cons trivial rfl (.cons trivial rfl
      (.cons trivial rfl (.cons trivial rfl (.cons trivial rfl (.cons trivial rfl
      (.nil _)))))))), rfl⟩
  obtain ⟨d, hrun, hconnections⟩ := hrun
  exact ⟨d, hrun, hconnections, (helloSessions_match hrun).1⟩

end HelloRegistry

end MemDbg.Daemon
