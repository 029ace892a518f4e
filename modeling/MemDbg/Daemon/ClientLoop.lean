import MemDbg.Daemon.Dispatch
import Mathlib.Data.List.Forall2

/-!
# The client loop

`handle_client` over the requests of one connection.  Each request that is read is
either refused with one response, after which the connection ends, or dispatched;
an error its handler returns becomes a response here.  What the loop does not decide
itself arrives with the request.
-/

namespace MemDbg.Daemon.Dispatch

open List Wire

structure Arrival where
  stop : Bool
  magic : Nat
  version : Nat
  request : Request
  acquired : Bool
  cookie : Nat
  ops : Ops

def packetMagic : Nat := 0x4742444d

def protocolVersion : Nat := 1

def Arrival.admit (cfg : Config) (cookie budget : Nat) (a : Arrival) : Except (Option Status) Nat :=
  if a.stop then .error none
  else if a.magic ≠ packetMagic ∨ a.version ≠ protocolVersion ∨
      cfg.maxPacketBytes < a.request.body.length then .error (some .errProtocol)
  else if a.request.body.length ≠ 0 ∧ a.acquired = false then .error (some .errNomem)
  else
    match chargeBudget cookie budget a.request.command with
    | none => .error (some .errPermission)
    | some budget => .ok budget

def Arrival.nextCookie (cookie : Nat) (status : Status) (a : Arrival) : Nat :=
  if status = .ok ∧ a.request.command = .hello ∧ cookie = 0 then a.cookie else cookie

def Command.closing (command : Command) : Bool := command = .goodbye || command = .shutdown

def Arrival.frames (cfg : Config) (a : Arrival) : List Frame :=
  let r := dispatchPacket a.ops cfg a.request
  r.frames ++ if r.status ≠ .ok then (sendResponse a.request r.status []).frames else []

def handleClient (cfg : Config) : Nat → Nat → List Arrival → List (Request × List Frame)
  | _, _, [] => []
  | cookie, budget, a :: rest =>
    match a.admit cfg cookie budget with
    | .error none => []
    | .error (some st) => [(a.request, (sendResponse a.request st []).frames)]
    | .ok budget =>
      let status := (dispatchPacket a.ops cfg a.request).status
      (a.request, a.frames cfg) ::
        if Command.closing a.request.command then []
        else handleClient cfg (a.nextCookie cookie status) budget rest

def emitted (cfg : Config) (arrivals : List Arrival) : List Frame :=
  (handleClient cfg 0 preAuthCmdBudget arrivals).flatMap Prod.snd

def served (cfg : Config) (arrivals : List Arrival) : List Request :=
  (handleClient cfg 0 preAuthCmdBudget arrivals).map Prod.fst

def dispatched (cfg : Config) : Nat → Nat → List Arrival → List Arrival
  | _, _, [] => []
  | cookie, budget, a :: rest =>
    match a.admit cfg cookie budget with
    | .error _ => []
    | .ok budget =>
      a :: if Command.closing a.request.command then []
        else dispatched cfg (a.nextCookie cookie .ok) budget rest

/-- One response for each request, in request order: the frames written answer the
requests read one by one, these are the first ones of the stream, and all of it if
no request is refused and none ends the connection before the last. -/
structure OnePerRequest (cfg : Config) (arrivals : List Arrival) : Prop where
  answered : List.Forall₂ Frame.Answers (emitted cfg arrivals) (served cfg arrivals)
  order : served cfg arrivals <+: arrivals.map Arrival.request
  complete : dispatched cfg 0 preAuthCmdBudget arrivals = arrivals →
    served cfg arrivals = arrivals.map Arrival.request

/-! ## Runs and their responses -/

theorem forall₂_flatMap_iff {α β : Type} {r : α → β → Prop} {entries : List (β × List α)}
    (h : ∀ e ∈ entries, e.2 ≠ []) :
    List.Forall₂ r (entries.flatMap Prod.snd) (entries.map Prod.fst) ↔
      ∀ e ∈ entries, ∃ x, e.2 = [x] ∧ r x e.1 := by
  have hlen : ∀ l : List (β × List α), (∀ e ∈ l, e.2 ≠ []) →
    l.length ≤ (l.flatMap Prod.snd).length := by
    intro l hl
    induction l with
    | nil => simp
    | cons e l ih =>
      have he := length_pos_iff.mpr (hl e mem_cons_self)
      have := ih fun e he => hl e (mem_cons_of_mem _ he)
      simp only [length_cons, flatMap_cons, length_append]
      omega
  induction entries with
  | nil => simp
  | cons e entries ih =>
    obtain ⟨y, xs⟩ := e
    have hentries : ∀ e ∈ entries, e.2 ≠ [] := fun e he => h e (mem_cons_of_mem _ he)
    obtain ⟨x, xs, rfl⟩ := exists_cons_of_ne_nil (h _ mem_cons_self)
    simp only [flatMap_cons, map_cons, cons_append, forall₂_cons,
      forall_mem_cons, List.cons.injEq]
    constructor
    · rintro ⟨hx, hrest⟩
      -- every later entry needs a frame of its own, so none is left for this one
      have hxs : xs = [] := by
        have := hrest.length_eq
        have := hlen entries hentries
        simp only [length_append, length_map] at *
        exact eq_nil_of_length_eq_zero (by omega)
      subst hxs
      exact ⟨⟨x, ⟨rfl, rfl⟩, hx⟩, (ih hentries).mp (by simpa using hrest)⟩
    · rintro ⟨⟨x', ⟨rfl, rfl⟩, hx⟩, hrest⟩
      exact ⟨hx, by simpa using (ih hentries).mpr hrest⟩

section Arrivals

variable {cfg : Config} {a : Arrival}

theorem Arrival.frames_eq_singleton_iff :
    (∃ f, a.frames cfg = [f] ∧ f.Answers a.request) ↔
      (dispatchPacket a.ops cfg a.request).Single a.request := by
  set r := dispatchPacket a.ops cfg a.request with hr
  constructor
  · rintro ⟨f, hf, hans⟩
    by_cases hst : r.status = .ok
    · exact .inl ⟨hst, f, by simpa [frames, ← hr, hst] using hf, hans⟩
    · refine .inr ⟨hst, ?_⟩
      -- the response to the error is the last frame, so the handler wrote none
      have hlen := congrArg List.length hf
      simp only [frames, ← hr, ne_eq, hst, not_false_eq_true, ↓reduceIte, sendResponse,
        length_append, length_singleton, Nat.add_eq_right] at hlen
      exact eq_nil_of_length_eq_zero hlen
  · rintro (⟨hst, f, hf, hans⟩ | ⟨hst, hnil⟩)
    · exact ⟨f, by simp [frames, ← hr, hst, hf], hans⟩
    · exact ⟨_, by simp only [frames, ← hr, hnil, ne_eq, hst, not_false_eq_true, ↓reduceIte]; rfl,
        rfl, rfl, rfl⟩

theorem Arrival.frames_ne_nil (hframed : a.request.command.framed = true) :
    a.frames cfg ≠ [] := by
  intro hnil
  simp only [frames, append_eq_nil_iff] at hnil
  have hst := dispatchPacket_writes hframed hnil.1
  simp [hst, sendResponse] at hnil

theorem answers_refused (req : Request) (st : Status) :
    ∃ f, (sendResponse req st []).frames = [f] ∧ f.Answers req :=
  ⟨_, rfl, rfl, rfl, rfl⟩

theorem Arrival.nextCookie_status (cookie : Nat) :
    a.nextCookie cookie (dispatchPacket a.ops cfg a.request).status = a.nextCookie cookie .ok := by
  by_cases h : a.request.command = .hello
  · rw [status_hello h]
  · simp [nextCookie, h]

section Runs

variable {arrivals rest : List Arrival} {cookie budget left : Nat}

theorem handleClient_cons_ok (h : a.admit cfg cookie budget = .ok left) :
    handleClient cfg cookie budget (a :: rest) = (a.request, a.frames cfg) ::
      if Command.closing a.request.command then []
      else handleClient cfg (a.nextCookie cookie .ok) left rest := by
  simp only [handleClient, h, Arrival.nextCookie_status]

theorem dispatched_cons_ok (h : a.admit cfg cookie budget = .ok left) :
    dispatched cfg cookie budget (a :: rest) =
      a :: if Command.closing a.request.command then []
        else dispatched cfg (a.nextCookie cookie .ok) left rest := by
  simp only [dispatched, h]

theorem handleClient_ne_nil (h : ∀ a ∈ arrivals, a.request.command.framed = true) :
    ∀ e ∈ handleClient cfg cookie budget arrivals, e.2 ≠ [] := by
  induction arrivals generalizing cookie budget with
  | nil => simp [handleClient]
  | cons a rest ih =>
    have ha : a.frames cfg ≠ [] := Arrival.frames_ne_nil (h a mem_cons_self)
    have hrest : ∀ a ∈ rest, a.request.command.framed = true :=
      fun a ha => h a (mem_cons_of_mem _ ha)
    rcases hadmit : a.admit cfg cookie budget with (_ | st) | left
    · simp [handleClient, hadmit]
    · simp [handleClient, hadmit, sendResponse]
    · rw [handleClient_cons_ok hadmit]
      split_ifs
      · simpa using ha
      · exact forall_mem_cons.mpr ⟨ha, ih hrest⟩

theorem handleClient_answers_iff (h : ∀ a ∈ arrivals, a.request.command.framed = true) :
    (∀ e ∈ handleClient cfg cookie budget arrivals, ∃ f, e.2 = [f] ∧ f.Answers e.1) ↔
      ∀ a ∈ dispatched cfg cookie budget arrivals, ¬Breaks a.ops cfg a.request := by
  induction arrivals generalizing cookie budget with
  | nil => simp [handleClient, dispatched]
  | cons a rest ih =>
    have ha : (∃ f, a.frames cfg = [f] ∧ f.Answers a.request) ↔ ¬Breaks a.ops cfg a.request :=
      Arrival.frames_eq_singleton_iff.trans (dispatchPacket_single_iff (h a mem_cons_self))
    have hrest : ∀ a ∈ rest, a.request.command.framed = true :=
      fun a ha => h a (mem_cons_of_mem _ ha)
    rcases hadmit : a.admit cfg cookie budget with (_ | st) | left
    · simp [handleClient, dispatched, hadmit]
    · simpa [handleClient, dispatched, hadmit] using answers_refused a.request st
    · rw [handleClient_cons_ok hadmit, dispatched_cons_ok hadmit]
      split_ifs
      · simpa using ha
      · rw [forall_mem_cons, forall_mem_cons, ih hrest, ha]

theorem handleClient_prefix :
    (handleClient cfg cookie budget arrivals).map Prod.fst <+: arrivals.map Arrival.request := by
  induction arrivals generalizing cookie budget with
  | nil => simp [handleClient]
  | cons a rest ih =>
    rcases hadmit : a.admit cfg cookie budget with (_ | st) | left
    · simp [handleClient, hadmit]
    · simp [handleClient, hadmit]
    · rw [handleClient_cons_ok hadmit]
      split_ifs
      · simp
      · simpa using ih

theorem handleClient_complete (h : dispatched cfg cookie budget arrivals = arrivals) :
    (handleClient cfg cookie budget arrivals).map Prod.fst = arrivals.map Arrival.request := by
  induction arrivals generalizing cookie budget with
  | nil => simp [handleClient]
  | cons a rest ih =>
    rcases hadmit : a.admit cfg cookie budget with (_ | st) | left
    · simp [dispatched, hadmit] at h
    · simp [dispatched, hadmit] at h
    · rw [dispatched_cons_ok hadmit] at h
      rw [handleClient_cons_ok hadmit]
      split_ifs at h ⊢
      · simpa using h
      · simpa using ih (List.cons.inj h).2

/-- **One framed response per request.**  On every stream of requests with framed
responses and for all outcomes of the operations, `handle_client` writes one
response for each request it reads, in order, exactly if no request that it
dispatches is a PTWALK_READ that fails behind its checks or a MEMORY_READ of
`2 ^ 32 - 1` bytes. -/
theorem onePerRequest_iff (h : ∀ a ∈ arrivals, a.request.command.framed = true) :
    OnePerRequest cfg arrivals ↔
      ∀ a ∈ dispatched cfg 0 preAuthCmdBudget arrivals, ¬Breaks a.ops cfg a.request := by
  have hne : ∀ e ∈ handleClient cfg 0 preAuthCmdBudget arrivals, e.2 ≠ [] := handleClient_ne_nil h
  have hanswered :=
    (forall₂_flatMap_iff hne (r := Frame.Answers)).trans (handleClient_answers_iff h)
  exact ⟨fun hone => hanswered.mp hone.answered,
    fun hok => ⟨hanswered.mpr hok, handleClient_prefix, handleClient_complete⟩⟩

end Runs

end Arrivals

/-! ## A page-table read -/

def defaultConfig : Config where
  ps5 := true
  maxPacketBytes := protocolMaxPacket
  maxReadBytes := protocolMaxRead
  maxScanResults := 50000
  maxReadBytes_lt := by decide

def uniformOps (st : Status) : Ops where
  perform _ _ := ⟨st, 0, [], []⟩
  scan _ := (st, .zero)
  malloc _ := true
  compress _ := []
  getpid := 100
  raw _ := fail .errProtocol

def ptwalkReadArrival (st : Status) : Arrival where
  stop := false
  magic := packetMagic
  version := protocolVersion
  request := ⟨.ptwalkRead, 7, [2, 0, 0, 0, 0, 0, 0, 0] ++ [0, 0x10, 0, 0, 0, 0, 0, 0] ++
    [8, 0, 0, 0, 0, 0, 0, 0]⟩
  acquired := true
  cookie := 0
  ops := uniformOps st

theorem onePerRequest_iff_ptwalkRead :
    OnePerRequest defaultConfig [ptwalkReadArrival .ok] := by
  refine (onePerRequest_iff (by simp [ptwalkReadArrival, Command.framed])).mpr ?_
  have hdispatched : dispatched defaultConfig 0 preAuthCmdBudget [ptwalkReadArrival .ok] =
      [ptwalkReadArrival .ok] := rfl
  rw [hdispatched, forall_mem_singleton]
  rintro (⟨-, -, -, -, hst⟩ | ⟨hcmd, -⟩)
  · exact hst rfl
  · cases hcmd

theorem ptwalkRead_answered_twice :
    (emitted defaultConfig [ptwalkReadArrival .errIo]).length = 2 ∧
      (served defaultConfig [ptwalkReadArrival .errIo]).length = 1 ∧
      ¬OnePerRequest defaultConfig [ptwalkReadArrival .errIo] := by
  have htwo : (emitted defaultConfig [ptwalkReadArrival .errIo]).length = 2 := by decide
  have hone : (served defaultConfig [ptwalkReadArrival .errIo]).length = 1 := by decide
  refine ⟨htwo, hone, fun h => ?_⟩
  have hlen := h.answered.length_eq
  rw [htwo, hone] at hlen
  exact absurd hlen (by decide)

end MemDbg.Daemon.Dispatch
