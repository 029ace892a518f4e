import MemDbg.Lib.Transition

/-!
# Connections of the roles

Beside the control connection the pool has one for memory, one for scans and one for polls.  A
background thread connects them and keeps them alive.  It belongs to a generation: the thread of
the UI draws a new one to be rid of it, and joins it only when it starts the next or disconnects
everything.
-/

namespace MemDbg.Frontend

open Lib Function

/-! ## The pool and its threads -/

abbrev Role := Fin 3

structure RoleCall where
  generation : Nat
  host : String
  port : Nat
deriving DecidableEq

structure RoleClient where
  call : RoleCall
  serial : Nat
deriving DecidableEq

inductive ConnectorPoint where
  | idle
  | started
  | checked
  | registered (client : RoleClient)
  | answered (client : RoleClient) (compatible : Bool)
  | stored (client : RoleClient)
deriving DecidableEq

def ConnectorPoint.client : ConnectorPoint → Option RoleClient
  | .registered c | .answered c _ | .stored c => some c
  | _ => none

inductive RolePoint where
  | connecting
  | connected
  | current
  | counted (any : Bool)
  | published
  | loop
  | waiting
  | pinged (clients : Role → Option RoleClient)
  | restarting (next : Nat) (reconnect : Role → Bool)
  | rejoining
  | rejoined
  | recurrent
  | done

def RolePoint.launching : RolePoint → Bool
  | .connecting | .connected | .current | .counted _ | .published => true
  | _ => false

def RolePoint.connects : RolePoint → Bool
  | .connecting | .restarting _ _ | .rejoining => true
  | _ => false

structure RoleThread where
  call : RoleCall
  point : RolePoint
  connectors : Role → ConnectorPoint

inductive UiPoint where
  | idle
  | exchanged (host : String) (port : Nat)
  | drawn (call : RoleCall)
  | cancelled (call : RoleCall)
  | joined (call : RoleCall)
  | moved (call : RoleCall)
  | cleared (call : RoleCall)
  | invalidating
  | invalidateCancelled
  | disconnecting
  | disconnectCleared
  | disconnectDrawn
  | disconnectCancelled
  | disconnectJoined
deriving DecidableEq

def UiPoint.clearedActive : UiPoint → Bool
  | .disconnectCleared | .disconnectDrawn | .disconnectCancelled | .disconnectJoined => true
  | _ => false

structure ClientPool where
  control : Nat
  controlConnected : Bool
  roles : Role → Option RoleClient
  connecting : Role → Option RoleClient
  active : Bool
  pending : Bool
  generation : Nat
  thread : RoleThread
  ui : UiPoint
  serial : Nat
  latest : Option RoleCall
  dropped : Bool
  disconnected : Bool
  closed : Bool

namespace ClientPool

def init : ClientPool where
  control := 0
  controlConnected := false
  roles _ := none
  connecting _ := none
  active := false
  pending := false
  generation := 0
  thread := ⟨⟨0, "", 0⟩, .done, fun _ => .idle⟩
  ui := .idle
  serial := 0
  latest := none
  dropped := true
  disconnected := true
  closed := true

def lease (p : ClientPool) (connected : RoleClient → Bool) (i : Role) :
    Option (RoleClient ⊕ Nat) :=
  match (p.roles i).filter connected with
  | some c => some (.inl c)
  | none => if p.controlConnected then some (.inr p.control) else none

def current (p : ClientPool) : Bool := p.thread.call.generation = p.generation

def anyRole (roles : Role → Option RoleClient) : Bool :=
  (List.finRange 3).any fun i => (roles i).isSome

def connectorsDone (p : ClientPool) : Bool :=
  (List.finRange 3).all fun i => p.thread.connectors i = .idle

def goOn (p : ClientPool) (point : RolePoint) : ClientPool :=
  { p with thread := { p.thread with point := point } }

def connectorAt (p : ClientPool) (i : Role) (point : ConnectorPoint) : ClientPool :=
  { p with thread := { p.thread with connectors := update p.thread.connectors i point } }

/-! ## Steps -/

def uiStep (p : ClientPool) : Option ClientPool :=
  match p.ui with
  | .idle => none
  | .exchanged host port =>
    let call := ⟨p.generation + 1, host, port⟩
    some { p with generation := p.generation + 1, latest := some call, ui := .drawn call }
  | .drawn call => some { p with ui := .cancelled call }
  | .cancelled call =>
    match p.thread.point with
    | .done => some { p with ui := .joined call }
    | _ => none
  | .joined call => some { p with roles := fun _ => none, ui := .moved call }
  | .moved call => some { p with active := false, ui := .cleared call }
  | .cleared call =>
    some { p with thread := ⟨call, .connecting, fun _ => .started⟩, ui := .idle }
  | .invalidating => some { p with ui := .invalidateCancelled }
  | .invalidateCancelled =>
    some { p with
      roles := fun _ => none
      connecting := fun _ => none
      active := false
      pending := false
      ui := .idle
      dropped := true }
  | .disconnecting => some { p with active := false, ui := .disconnectCleared }
  | .disconnectCleared => some { p with generation := p.generation + 1, ui := .disconnectDrawn }
  | .disconnectDrawn => some { p with ui := .disconnectCancelled }
  | .disconnectCancelled =>
    match p.thread.point with
    | .done => some { p with ui := .disconnectJoined }
    | _ => none
  | .disconnectJoined =>
    some { p with
      roles := fun _ => none
      connecting := fun _ => none
      controlConnected := false
      ui := .idle
      dropped := true
      disconnected := true
      closed := true }

def keepHealthy (roles clients : Role → Option RoleClient) (healthy : Role → Bool) :
    Role → Option RoleClient :=
  fun i => if !healthy i ∧ roles i = clients i ∧ (clients i).isSome then none else roles i

def threadStep (healthy : Role → Bool) (p : ClientPool) : Option ClientPool :=
  match p.thread.point with
  | .connecting => if p.connectorsDone then some (p.goOn .connected) else none
  | .connected => some (p.goOn (if p.current then .current else .loop))
  | .current => some (p.goOn (.counted (anyRole p.roles)))
  | .counted any => some { p.goOn .published with active := any }
  | .published => some { p.goOn .loop with pending := false }
  | .loop => some (p.goOn (if p.current then .waiting else .done))
  | .waiting => some (p.goOn (if p.current then .pinged p.roles else .done))
  | .pinged clients =>
    let roles := keepHealthy p.roles clients healthy
    some { p.goOn (.restarting 0 fun i => (roles i).isNone) with
      roles := roles
      active := anyRole roles }
  | .restarting next reconnect =>
    if h : next < 3 then
      if reconnect ⟨next, h⟩ && p.current then
        some ((p.goOn (.restarting (next + 1) reconnect)).connectorAt ⟨next, h⟩ .started)
      else some (p.goOn (.restarting (next + 1) reconnect))
    else some (p.goOn .rejoining)
  | .rejoining => if p.connectorsDone then some (p.goOn .rejoined) else none
  | .rejoined => some (p.goOn (if p.current then .recurrent else .loop))
  | .recurrent => some { p.goOn .loop with active := anyRole p.roles }
  | .done => none

def connectorStep (i : Role) (compatible : Bool) (p : ClientPool) : Option ClientPool :=
  match p.thread.connectors i with
  | .idle => none
  | .started => some (p.connectorAt i (if p.current then .checked else .idle))
  | .checked =>
    if p.current then
      let client := ⟨p.thread.call, p.serial⟩
      some { p.connectorAt i (.registered client) with
        connecting := update p.connecting i (some client)
        serial := p.serial + 1 }
    else some (p.connectorAt i .idle)
  | .registered client => some (p.connectorAt i (.answered client compatible))
  | .answered client compatible =>
    some { p.connectorAt i (.stored client) with
      connecting :=
        if p.connecting i = some client then update p.connecting i none else p.connecting
      roles := if compatible && p.current then update p.roles i (some client) else p.roles }
  | .stored _ => some (p.connectorAt i .idle)

end ClientPool

inductive PoolEvent where
  | connectAdditionalRolesAsync (host : String) (port : Nat)
  | invalidateRoles
  | replaceControl (control : Option Nat) (connected : Bool)
  | disconnectAll
  | control (connected : Bool)
  | ui
  | role (healthy : Role → Bool)
  | connector (i : Role) (compatible : Bool)

namespace ClientPool

def step (p : ClientPool) : PoolEvent → Option ClientPool
  | .connectAdditionalRolesAsync host port =>
    if p.ui ≠ .idle then none
    else if p.pending then some p
    else
      some { p with
        pending := true
        ui := .exchanged host port
        dropped := false
        disconnected := false
        closed := false }
  | .invalidateRoles =>
    if p.ui ≠ .idle then none
    else some { p with generation := p.generation + 1, ui := .invalidating }
  | .replaceControl control connected =>
    if p.ui ≠ .idle then none
    else
      match control with
      | none => some p
      | some c => some { p with control := c, controlConnected := connected, closed := false }
  | .disconnectAll =>
    if p.ui ≠ .idle then none else some { p with pending := false, ui := .disconnecting }
  | .control connected =>
    some { p with controlConnected := connected, closed := p.closed && !connected }
  | .ui => p.uiStep
  | .role healthy => p.threadStep healthy
  | .connector i compatible => p.connectorStep i compatible

/-! ## Clients of the latest call -/

/-- The roles belong to the latest call, and to none once they were dropped. -/
structure Belongs (p : ClientPool) : Prop where
  dropped : p.dropped = true →
    p.active = false ∧ ∀ connected i c, p.lease connected i ≠ some (.inl c)
  latest : ∀ connected i c, p.lease connected i = some (.inl c) → p.latest = some c.call
  disconnected : p.disconnected = true →
    p.thread.point = .done ∧ (∀ i, p.thread.connectors i = .idle) ∧
      ∀ i, p.roles i = none ∧ p.connecting i = none
  closed : p.closed = true → p.controlConnected = false
  pending : p.pending = true → p.ui = .idle →
    p.current = true ∧ p.latest = some p.thread.call ∧ p.thread.point.launching = true

def revives (healthy : Role → Bool) (p : ClientPool) : Bool :=
  match p.thread.point with
  | .counted any => any
  | .pinged clients => anyRole (keepHealthy p.roles clients healthy)
  | .recurrent => anyRole p.roles
  | _ => false

/-- The role thread does not set `roles_active_` once the roles are dropped or `disconnect_all`
has cleared it, and a call draws its generation only when no role has a client. -/
def Timely (p : ClientPool) : PoolEvent → Prop
  | .role healthy => p.revives healthy = true → p.dropped = false ∧ p.ui.clearedActive = false
  | .ui =>
    match p.ui with
    | .exchanged _ _ => ∀ i, p.roles i = none
    | _ => True
  | _ => True

/-! ## What every step keeps -/

def Outdated (p : ClientPool) : Prop :=
  p.thread.point = .done ∨ p.thread.call.generation < p.generation

def Within (p : ClientPool) : UiPoint → Prop
  | .idle => p.pending = true → p.current = true ∧ p.thread.point.launching = true
  | .exchanged _ _ => p.dropped = false
  | .drawn call | .cancelled call =>
    p.dropped = false ∧ p.latest = some call ∧ call.generation = p.generation ∧ p.Outdated
  | .joined call =>
    p.dropped = false ∧ p.latest = some call ∧ call.generation = p.generation ∧
      p.thread.point = .done
  | .moved call | .cleared call =>
    p.dropped = false ∧ p.latest = some call ∧ call.generation = p.generation ∧
      p.thread.point = .done ∧ ∀ i, p.roles i = none
  | .invalidating | .invalidateCancelled => p.Outdated
  | .disconnecting => p.pending = false
  | .disconnectCleared => p.pending = false ∧ p.active = false
  | .disconnectDrawn | .disconnectCancelled =>
    p.pending = false ∧ p.active = false ∧ p.Outdated
  | .disconnectJoined => p.pending = false ∧ p.active = false ∧ p.thread.point = .done

structure Inv (p : ClientPool) : Prop where
  roles : ∀ i c, p.roles i = some c → p.latest = some c.call
  connectors : ∀ i c, (p.thread.connectors i).client = some c → c.call = p.thread.call
  resting : p.thread.point.connects = false → ∀ i, p.thread.connectors i = .idle
  behind : p.thread.call.generation ≤ p.generation
  latest : p.thread.point ≠ .done → p.current = true → p.latest = some p.thread.call
  dropped : p.dropped = true → p.active = false ∧ (∀ i, p.roles i = none) ∧ p.Outdated
  disconnected : p.disconnected = true →
    p.dropped = true ∧ p.thread.point = .done ∧ ∀ i, p.connecting i = none
  closed : p.closed = true → p.controlConnected = false
  within : p.Within p.ui

theorem Outdated.not_current {p : ClientPool} (h : p.Outdated) (hpoint : p.thread.point ≠ .done) :
    p.current = false := by
  obtain hdone | hlt := h
  · exact absurd hdone hpoint
  · exact decide_eq_false (by omega)

theorem lease_eq_inl {p : ClientPool} {connected : RoleClient → Bool} {i : Role} {c : RoleClient}
    (h : p.lease connected i = some (.inl c)) : p.roles i = some c := by
  unfold lease at h
  split at h
  · next c' hc' =>
      cases h
      exact (Option.filter_eq_some_iff.mp hc').1
  · split at h <;> cases h

theorem Inv.belongs {p : ClientPool} (h : p.Inv) : p.Belongs where
  dropped hdropped := by
    refine ⟨(h.dropped hdropped).1, fun connected i c hlease => ?_⟩
    have hnone := (h.dropped hdropped).2.1 i
    cases (lease_eq_inl hlease).symm.trans hnone
  latest connected i c hlease := h.roles i c (lease_eq_inl hlease)
  disconnected hdis := by
    obtain ⟨hdropped, hdone, hconnecting⟩ := h.disconnected hdis
    refine ⟨hdone, h.resting (by rw [hdone]; rfl), fun i => ⟨?_, hconnecting i⟩⟩
    exact (h.dropped hdropped).2.1 i
  closed := h.closed
  pending hpending hui := by
    have hwithin := h.within
    rw [hui] at hwithin
    obtain ⟨hcurrent, hlaunching⟩ := hwithin hpending
    refine ⟨hcurrent, h.latest (fun hdone => ?_) hcurrent, hlaunching⟩
    rw [hdone] at hlaunching
    cases hlaunching

theorem init_inv : init.Inv where
  roles _ _ h := nomatch h
  connectors _ _ h := nomatch h
  resting _ _ := rfl
  behind := Nat.le_refl _
  latest h := absurd rfl h
  dropped _ := ⟨rfl, fun _ => rfl, .inl rfl⟩
  disconnected _ := ⟨rfl, rfl, fun _ => rfl⟩
  closed _ := rfl
  within h := nomatch h

/-! ### The role thread -/

structure ThreadTurn (healthy : Role → Bool) (p p' : ClientPool) : Prop where
  frame : p'.thread.call = p.thread.call ∧ p'.generation = p.generation ∧ p'.latest = p.latest ∧
    p'.ui = p.ui ∧ p'.connecting = p.connecting ∧ p'.dropped = p.dropped ∧
    p'.disconnected = p.disconnected ∧ p'.closed = p.closed ∧
    p'.controlConnected = p.controlConnected
  started : p.thread.point ≠ .done
  roles : ∀ i c, p'.roles i = some c → p.roles i = some c
  active : p'.active = true → p.active = true ∨ p.revives healthy = true
  pending : p'.pending = true → p.pending = true
  launching : p'.pending = true → p.current = true → p.thread.point.launching = true →
    p'.thread.point.launching = true
  connectors : ∀ i c, (p'.thread.connectors i).client = some c →
    (p.thread.connectors i).client = some c
  resting : (p.thread.point.connects = false → ∀ i, p.thread.connectors i = .idle) →
    p'.thread.point.connects = false → ∀ i, p'.thread.connectors i = .idle

theorem connectorsDone_iff {p : ClientPool} :
    p.connectorsDone = true ↔ ∀ i, p.thread.connectors i = .idle := by
  unfold connectorsDone
  rw [List.all_eq_true]
  exact ⟨fun h i => of_decide_eq_true (h i (List.mem_finRange i)),
    fun h i _ => decide_eq_true (h i)⟩

theorem keepHealthy_some {roles clients : Role → Option RoleClient} {healthy : Role → Bool}
    {i : Role} {c : RoleClient} (h : keepHealthy roles clients healthy i = some c) :
    roles i = some c := by
  unfold keepHealthy at h
  split_ifs at h
  exact h

theorem ThreadTurn.of_goOn {healthy : Role → Bool} {p : ClientPool} {point : RolePoint}
    {roles : Role → Option RoleClient} {active pending : Bool}
    (hstarted : p.thread.point ≠ .done)
    (hroles : ∀ i c, roles i = some c → p.roles i = some c)
    (hactive : active = true → p.active = true ∨ p.revives healthy = true)
    (hpending : pending = true → p.pending = true)
    (hlaunching : pending = true → p.current = true → p.thread.point.launching = true →
      point.launching = true)
    (hresting : p.thread.point.connects = false ∨ (∀ i, p.thread.connectors i = .idle) ∨
      point.connects = true) :
    ThreadTurn healthy p
      { p.goOn point with roles := roles, active := active, pending := pending } where
  frame := ⟨rfl, rfl, rfl, rfl, rfl, rfl, rfl, rfl, rfl⟩
  started := hstarted
  roles := hroles
  active := hactive
  pending := hpending
  launching := hlaunching
  connectors _ _ h := h
  resting hidle hpoint := by
    obtain hold | hdone | hnew := hresting
    · exact hidle hold
    · exact hdone
    · cases hnew.symm.trans hpoint

theorem ThreadTurn.of_point {healthy : Role → Bool} {p : ClientPool} {point : RolePoint}
    (hstarted : p.thread.point ≠ .done)
    (hlaunching : p.current = true → p.thread.point.launching = true → point.launching = true)
    (hresting : p.thread.point.connects = false ∨ (∀ i, p.thread.connectors i = .idle) ∨
      point.connects = true) : ThreadTurn healthy p (p.goOn point) :=
  .of_goOn hstarted (fun _ _ h => h) .inl id (fun _ => hlaunching) hresting

theorem ThreadTurn.of_step {healthy : Role → Bool} {p p' : ClientPool}
    (h : p.threadStep healthy = some p') : ThreadTurn healthy p p' := by
  unfold threadStep at h
  split at h <;> rename_i hpoint
  case h_13 => cases h
  all_goals have hstarted : p.thread.point ≠ .done := by rw [hpoint]; nofun
  case h_1 =>
      split_ifs at h with hdone
      cases h
      exact .of_point hstarted (fun _ _ => rfl) (.inr (.inl (connectorsDone_iff.mp hdone)))
  case h_2 =>
      cases h
      refine .of_point hstarted (fun hcurrent _ => ?_) (.inl (by rw [hpoint]; rfl))
      rw [if_pos hcurrent]
      rfl
  case h_3 =>
      cases h
      exact .of_point hstarted (fun _ _ => rfl) (.inl (by rw [hpoint]; rfl))
  case h_4 any =>
      cases h
      refine .of_goOn hstarted (fun _ _ h => h) (fun hany => .inr ?_) id (fun _ _ _ => rfl)
        (.inl (by rw [hpoint]; rfl))
      unfold revives
      rw [hpoint]
      exact hany
  case h_5 =>
      cases h
      exact .of_goOn hstarted (fun _ _ h => h) .inl nofun nofun (.inl (by rw [hpoint]; rfl))
  case h_6 =>
      cases h
      refine .of_point hstarted ?_ (.inl (by rw [hpoint]; rfl))
      rw [hpoint]
      nofun
  case h_7 =>
      cases h
      refine .of_point hstarted ?_ (.inl (by rw [hpoint]; rfl))
      rw [hpoint]
      nofun
  case h_8 clients =>
      cases h
      refine .of_goOn hstarted (fun _ _ h => keepHealthy_some h) (fun hany => .inr ?_) id ?_
        (.inr (.inr rfl))
      · unfold revives
        rw [hpoint]
        exact hany
      · rw [hpoint]
        nofun
  case h_9 next reconnect =>
      have hlaunching : ∀ point : RolePoint, p.current = true →
          p.thread.point.launching = true → point.launching = true := by
        rw [hpoint]
        nofun
      split_ifs at h with hnext hcurrent
      · cases h
        exact {
          frame := ⟨rfl, rfl, rfl, rfl, rfl, rfl, rfl, rfl, rfl⟩
          started := hstarted
          roles := fun _ _ h => h
          active := .inl
          pending := id
          launching := fun _ => hlaunching _
          connectors := fun i c hclient => by
            dsimp only [connectorAt, goOn] at hclient
            by_cases hi : i = ⟨next, hnext⟩
            · rw [hi, update_self] at hclient
              cases hclient
            · rwa [update_of_ne hi] at hclient
          resting := fun _ => nofun }
      · cases h
        exact .of_point hstarted (hlaunching _) (.inr (.inr rfl))
      · cases h
        exact .of_point hstarted (hlaunching _) (.inr (.inr rfl))
  case h_10 =>
      split_ifs at h with hdone
      cases h
      refine .of_point hstarted ?_ (.inr (.inl (connectorsDone_iff.mp hdone)))
      rw [hpoint]
      nofun
  case h_11 =>
      cases h
      refine .of_point hstarted ?_ (.inl (by rw [hpoint]; rfl))
      rw [hpoint]
      nofun
  case h_12 =>
      cases h
      refine .of_goOn hstarted (fun _ _ h => h) (fun hany => .inr ?_) id ?_
        (.inl (by rw [hpoint]; rfl))
      · unfold revives
        rw [hpoint]
        exact hany
      · rw [hpoint]
        nofun

theorem ThreadTurn.outdated {healthy : Role → Bool} {p p' : ClientPool}
    (h : ThreadTurn healthy p p') (hp : p.Outdated) : p'.Outdated := by
  obtain ⟨hcall, hgeneration, -⟩ := h.frame
  obtain hdone | hlt := hp
  · exact absurd hdone h.started
  · exact .inr (by rwa [hcall, hgeneration])

theorem ThreadTurn.current {healthy : Role → Bool} {p p' : ClientPool}
    (h : ThreadTurn healthy p p') : p'.current = p.current := by
  obtain ⟨hcall, hgeneration, -⟩ := h.frame
  unfold ClientPool.current
  rw [hcall, hgeneration]

theorem Inv.thread {healthy : Role → Bool} {p p' : ClientPool} (h : p.Inv)
    (htimely : p.Timely (.role healthy)) (ht : ThreadTurn healthy p p') : p'.Inv := by
  obtain ⟨hcall, hgeneration, hlatest, hui, hconnecting, hdropped, hdisconnected, hclosed,
    hcontrol⟩ := ht.frame
  have hactive : p.active = false → p.dropped = true ∨ p.ui.clearedActive = true →
      p'.active = false := by
    refine fun hold hgone => eq_false_of_ne_true fun hnew => ?_
    obtain hwas | hrevives := ht.active hnew
    · cases hold.symm.trans hwas
    · obtain ⟨hlive, hbefore⟩ := htimely hrevives
      obtain hgone | hgone := hgone
      · cases hlive.symm.trans hgone
      · cases hbefore.symm.trans hgone
  have hpending : p.pending = false → p'.pending = false :=
    fun hold => eq_false_of_ne_true fun hnew => by cases hold.symm.trans (ht.pending hnew)
  exact {
    roles := fun i c hc => by
      rw [hlatest]
      exact h.roles i c (ht.roles i c hc)
    connectors := fun i c hc => by
      rw [hcall]
      exact h.connectors i c (ht.connectors i c hc)
    resting := ht.resting h.resting
    behind := by
      rw [hcall, hgeneration]
      exact h.behind
    latest := fun _ hcurrent => by
      rw [hlatest, hcall]
      exact h.latest ht.started (ht.current ▸ hcurrent)
    dropped := fun hgone => by
      rw [hdropped] at hgone
      obtain ⟨hold, hroles, houtdated⟩ := h.dropped hgone
      refine ⟨hactive hold (.inl hgone), fun i => ?_, ht.outdated houtdated⟩
      refine Option.eq_none_iff_forall_ne_some.mpr fun c hc => ?_
      cases (ht.roles i c hc).symm.trans (hroles i)
    disconnected := fun hgone =>
      absurd (h.disconnected (hdisconnected ▸ hgone)).2.1 ht.started
    closed := fun hgone => by
      rw [hcontrol]
      exact h.closed (hclosed ▸ hgone)
    within := by
      have hwithin := h.within
      rw [hui]
      cases hpoint : p.ui <;> rw [hpoint] at hwithin hactive
      case idle =>
          intro hnew
          obtain ⟨hcurrent, hlaunching⟩ := hwithin (ht.pending hnew)
          exact ⟨ht.current.trans hcurrent, ht.launching hnew hcurrent hlaunching⟩
      case exchanged => exact hdropped.trans hwithin
      case drawn | cancelled =>
          obtain ⟨hlive, hdrawn, heq, houtdated⟩ := hwithin
          exact ⟨hdropped.trans hlive, hlatest.trans hdrawn, heq.trans hgeneration.symm,
            ht.outdated houtdated⟩
      case joined => exact absurd hwithin.2.2.2 ht.started
      case moved | cleared => exact absurd hwithin.2.2.2.1 ht.started
      case invalidating | invalidateCancelled => exact ht.outdated hwithin
      case disconnecting => exact hpending hwithin
      case disconnectCleared => exact ⟨hpending hwithin.1, hactive hwithin.2 (.inr rfl)⟩
      case disconnectDrawn | disconnectCancelled =>
          exact ⟨hpending hwithin.1, hactive hwithin.2.1 (.inr rfl), ht.outdated hwithin.2.2⟩
      case disconnectJoined => exact absurd hwithin.2.2 ht.started }

/-! ### The connectors -/

structure ConnectorTurn (p p' : ClientPool) : Prop where
  frame : p'.thread.call = p.thread.call ∧ p'.thread.point = p.thread.point ∧
    p'.generation = p.generation ∧ p'.latest = p.latest ∧ p'.ui = p.ui ∧ p'.active = p.active ∧
    p'.pending = p.pending ∧ p'.dropped = p.dropped ∧ p'.disconnected = p.disconnected ∧
    p'.closed = p.closed ∧ p'.controlConnected = p.controlConnected
  working : ∃ i, p.thread.connectors i ≠ .idle
  roles : ∀ i c, p'.roles i = some c → p.roles i = some c ∨
    p.current = true ∧ ∃ j, (p.thread.connectors j).client = some c
  connectors : ∀ i c, (p'.thread.connectors i).client = some c →
    (∃ j, (p.thread.connectors j).client = some c) ∨ c.call = p.thread.call

theorem ConnectorTurn.of_connectorAt {p : ClientPool} {i : Role} {point : ConnectorPoint}
    {roles connecting : Role → Option RoleClient} {serial : Nat}
    (hworking : p.thread.connectors i ≠ .idle)
    (hroles : ∀ j c, roles j = some c → p.roles j = some c ∨
      p.current = true ∧ (p.thread.connectors i).client = some c)
    (hpoint : ∀ c, point.client = some c →
      (p.thread.connectors i).client = some c ∨ c.call = p.thread.call) :
    ConnectorTurn p { p.connectorAt i point with
      roles := roles, connecting := connecting, serial := serial } where
  frame := ⟨rfl, rfl, rfl, rfl, rfl, rfl, rfl, rfl, rfl, rfl, rfl⟩
  working := ⟨i, hworking⟩
  roles j c hc := (hroles j c hc).imp_right fun ⟨hcurrent, hclient⟩ => ⟨hcurrent, i, hclient⟩
  connectors j c hc := by
    dsimp only [connectorAt] at hc
    by_cases hj : j = i
    · rw [hj, update_self] at hc
      exact (hpoint c hc).imp_left fun hclient => ⟨i, hclient⟩
    · rw [update_of_ne hj] at hc
      exact .inl ⟨j, hc⟩

theorem ConnectorTurn.of_step {i : Role} {compatible : Bool} {p p' : ClientPool}
    (h : p.connectorStep i compatible = some p') : ConnectorTurn p p' := by
  unfold connectorStep at h
  split at h <;> rename_i hpoint
  case h_1 => cases h
  all_goals have hworking : p.thread.connectors i ≠ .idle := by rw [hpoint]; nofun
  case h_2 =>
      cases h
      refine .of_connectorAt hworking (fun _ _ => .inl) fun c hc => ?_
      split_ifs at hc <;> cases hc
  case h_3 =>
      split_ifs at h with hcurrent
      · cases h
        refine .of_connectorAt hworking (fun _ _ => .inl) fun c hc => .inr ?_
        cases hc
        rfl
      · cases h
        exact .of_connectorAt hworking (fun _ _ => .inl) nofun
  case h_4 client =>
      cases h
      refine .of_connectorAt hworking (fun _ _ => .inl) fun c hc => .inl ?_
      rw [hpoint]
      exact hc
  case h_5 client answer =>
      cases h
      refine .of_connectorAt hworking (fun j c hc => ?_) fun c hc => .inl ?_
      · split_ifs at hc with hstore
        · by_cases hj : j = i
          · rw [hj, update_self] at hc
            rw [hpoint]
            exact .inr ⟨(Bool.and_eq_true_iff.mp hstore).2, hc⟩
          · rw [update_of_ne hj] at hc
            exact .inl hc
        · exact .inl hc
      · rw [hpoint]
        exact hc
  case h_6 =>
      cases h
      exact .of_connectorAt hworking (fun _ _ => .inl) nofun

theorem Inv.connector {p p' : ClientPool} (h : p.Inv) (ht : ConnectorTurn p p') : p'.Inv := by
  obtain ⟨hcall, hpoint, hgeneration, hlatest, hui, hactive, hpending, hdropped, hdisconnected,
    hclosed, hcontrol⟩ := ht.frame
  obtain ⟨i, hworking⟩ := ht.working
  have hconnects : p.thread.point.connects = true :=
    eq_true_of_ne_false fun hnot => hworking (h.resting hnot i)
  have hstarted : p.thread.point ≠ .done := fun hdone => by
    rw [hdone] at hconnects
    cases hconnects
  have hcurrent : p'.current = p.current := by
    unfold ClientPool.current
    rw [hcall, hgeneration]
  have houtdated : p.Outdated → p'.Outdated := by
    unfold Outdated
    rw [hcall, hgeneration, hpoint]
    exact id
  have hroles : p.Outdated → (∀ i, p.roles i = none) → ∀ i, p'.roles i = none := by
    refine fun hout hnone i => Option.eq_none_iff_forall_ne_some.mpr fun c hc => ?_
    obtain hold | ⟨hnow, -⟩ := ht.roles i c hc
    · cases hold.symm.trans (hnone i)
    · cases hnow.symm.trans (hout.not_current hstarted)
  exact {
    roles := fun i c hc => by
      rw [hlatest]
      obtain hold | ⟨hnow, j, hclient⟩ := ht.roles i c hc
      · exact h.roles i c hold
      · rw [h.connectors j c hclient]
        exact h.latest hstarted hnow
    connectors := fun i c hc => by
      rw [hcall]
      obtain ⟨j, hclient⟩ | heq := ht.connectors i c hc
      · exact h.connectors j c hclient
      · exact heq
    resting := fun hrest => by
      rw [hpoint] at hrest
      cases hconnects.symm.trans hrest
    behind := by
      rw [hcall, hgeneration]
      exact h.behind
    latest := fun _ hnow => by
      rw [hlatest, hcall]
      exact h.latest hstarted (hcurrent ▸ hnow)
    dropped := fun hgone => by
      obtain ⟨hold, hnone, hout⟩ := h.dropped (hdropped ▸ hgone)
      exact ⟨hactive.trans hold, hroles hout hnone, houtdated hout⟩
    disconnected := fun hgone =>
      absurd (h.disconnected (hdisconnected ▸ hgone)).2.1 hstarted
    closed := fun hgone => by
      rw [hcontrol]
      exact h.closed (hclosed ▸ hgone)
    within := by
      have hwithin := h.within
      rw [hui]
      cases hstate : p.ui <;> rw [hstate] at hwithin
      case idle =>
          intro hnew
          rw [hcurrent, hpoint]
          exact hwithin (hpending ▸ hnew)
      case exchanged => exact hdropped.trans hwithin
      case drawn | cancelled =>
          obtain ⟨hlive, hdrawn, heq, hout⟩ := hwithin
          exact ⟨hdropped.trans hlive, hlatest.trans hdrawn, heq.trans hgeneration.symm,
            houtdated hout⟩
      case joined => exact absurd hwithin.2.2.2 hstarted
      case moved | cleared => exact absurd hwithin.2.2.2.1 hstarted
      case invalidating | invalidateCancelled => exact houtdated hwithin
      case disconnecting => exact hpending.trans hwithin
      case disconnectCleared => exact ⟨hpending.trans hwithin.1, hactive.trans hwithin.2⟩
      case disconnectDrawn | disconnectCancelled =>
          exact ⟨hpending.trans hwithin.1, hactive.trans hwithin.2.1, houtdated hwithin.2.2⟩
      case disconnectJoined => exact absurd hwithin.2.2 hstarted }

/-! ### The UI thread -/

theorem Outdated.drawn {p : ClientPool} (h : p.Inv) {ui : UiPoint} {latest : Option RoleCall} :
    ({ p with generation := p.generation + 1, ui := ui, latest := latest } : ClientPool).Outdated :=
  .inr (Nat.lt_succ_of_le h.behind)

theorem Inv.draw {p : ClientPool} (h : p.Inv) {ui : UiPoint} {latest : Option RoleCall}
    (hroles : ∀ i c, p.roles i = some c → latest = some c.call)
    (hwithin : ({ p with generation := p.generation + 1, ui := ui, latest := latest } :
      ClientPool).Within ui) :
    ({ p with generation := p.generation + 1, ui := ui, latest := latest } : ClientPool).Inv where
  roles := hroles
  connectors := h.connectors
  resting := h.resting
  behind := Nat.le_succ_of_le h.behind
  latest hpoint hcurrent := by
    cases hcurrent.symm.trans ((Outdated.drawn h).not_current hpoint)
  dropped hgone := ⟨(h.dropped hgone).1, (h.dropped hgone).2.1, .drawn h⟩
  disconnected := h.disconnected
  closed := h.closed
  within := hwithin

theorem Inv.goUi {p : ClientPool} (h : p.Inv) {ui : UiPoint} {active pending : Bool}
    (hactive : active = true → p.active = true)
    (hwithin : ({ p with active := active, pending := pending, ui := ui } :
      ClientPool).Within ui) :
    ({ p with active := active, pending := pending, ui := ui } : ClientPool).Inv where
  roles := h.roles
  connectors := h.connectors
  resting := h.resting
  behind := h.behind
  latest := h.latest
  dropped hgone := by
    obtain ⟨hold, hroles, houtdated⟩ := h.dropped hgone
    refine ⟨eq_false_of_ne_true fun hnew => ?_, hroles, houtdated⟩
    cases hold.symm.trans (hactive hnew)
  disconnected := h.disconnected
  closed := h.closed
  within := hwithin

theorem Inv.drop {p : ClientPool} (h : p.Inv)
    {active pending disconnected closed connected : Bool}
    (hactive : active = false) (hpending : pending = false) (houtdated : p.Outdated)
    (hdisconnected : disconnected = true → p.thread.point = .done)
    (hclosed : closed = true → connected = false) :
    ({ p with
      roles := fun _ => none
      connecting := fun _ => none
      controlConnected := connected
      active := active
      pending := pending
      ui := .idle
      dropped := true
      disconnected := disconnected
      closed := closed } : ClientPool).Inv where
  roles _ _ hc := nomatch hc
  connectors := h.connectors
  resting := h.resting
  behind := h.behind
  latest hpoint hcurrent := by
    cases hcurrent.symm.trans (houtdated.not_current hpoint)
  dropped _ := ⟨hactive, fun _ => rfl, houtdated⟩
  disconnected hgone := ⟨rfl, hdisconnected hgone, fun _ => rfl⟩
  closed := hclosed
  within hnew := by cases hpending.symm.trans hnew

theorem Inv.uiStep {p p' : ClientPool} (h : p.Inv) (htimely : p.Timely .ui)
    (hstep : p.uiStep = some p') : p'.Inv := by
  have hwithin := h.within
  unfold ClientPool.uiStep at hstep
  unfold Timely at htimely
  split at hstep <;> rename_i hui <;> simp only [hui] at hwithin htimely
  case h_1 => cases hstep
  case h_2 host port =>
      cases hstep
      refine h.draw (fun i c hc => ?_) ⟨hwithin, rfl, rfl, .drawn h⟩
      cases hc.symm.trans (htimely i)
  case h_3 call =>
      cases hstep
      exact h.goUi id hwithin
  case h_4 call =>
      split at hstep <;> cases hstep
      next hdone => exact h.goUi id ⟨hwithin.1, hwithin.2.1, hwithin.2.2.1, hdone⟩
  case h_5 call =>
      cases hstep
      obtain ⟨hlive, hlatest, heq, hdone⟩ := hwithin
      exact {
        roles := fun _ _ hc => nomatch hc
        connectors := h.connectors
        resting := h.resting
        behind := h.behind
        latest := h.latest
        dropped := fun hgone => by cases hlive.symm.trans hgone
        disconnected := h.disconnected
        closed := h.closed
        within := ⟨hlive, hlatest, heq, hdone, fun _ => rfl⟩ }
  case h_6 call =>
      cases hstep
      exact h.goUi nofun hwithin
  case h_7 call =>
      cases hstep
      obtain ⟨hlive, hlatest, heq, hdone, hnone⟩ := hwithin
      exact {
        roles := h.roles
        connectors := fun _ _ hc => nomatch hc
        resting := nofun
        behind := Nat.le_of_eq heq
        latest := fun _ _ => hlatest
        dropped := fun hgone => by cases hlive.symm.trans hgone
        disconnected := fun hgone => by cases hlive.symm.trans (h.disconnected hgone).1
        closed := h.closed
        within := fun _ => ⟨decide_eq_true heq, rfl⟩ }
  case h_8 =>
      cases hstep
      exact h.goUi id hwithin
  case h_9 =>
      cases hstep
      exact h.drop rfl rfl hwithin (fun hgone => (h.disconnected hgone).2.1) h.closed
  case h_10 =>
      cases hstep
      exact h.goUi nofun ⟨hwithin, rfl⟩
  case h_11 =>
      cases hstep
      exact h.draw h.roles ⟨hwithin.1, hwithin.2, .drawn h⟩
  case h_12 =>
      cases hstep
      exact h.goUi id hwithin
  case h_13 =>
      split at hstep <;> cases hstep
      next hdone => exact h.goUi id ⟨hwithin.1, hwithin.2.1, hdone⟩
  case h_14 =>
      cases hstep
      obtain ⟨hpending, hactive, hdone⟩ := hwithin
      exact h.drop hactive hpending (.inl hdone) (fun _ => hdone) fun _ => rfl

theorem Inv.step {p p' : ClientPool} {e : PoolEvent} (h : p.Inv) (htimely : p.Timely e)
    (hstep : p.step e = some p') : p'.Inv := by
  unfold ClientPool.step at hstep
  cases e with
  | connectAdditionalRolesAsync host port =>
    split_ifs at hstep with hui hpending
    · cases hstep
      exact h
    · cases hstep
      exact {
        roles := h.roles
        connectors := h.connectors
        resting := h.resting
        behind := h.behind
        latest := h.latest
        dropped := nofun
        disconnected := nofun
        closed := nofun
        within := rfl }
  | invalidateRoles =>
    dsimp only at hstep
    split_ifs at hstep with hui
    cases hstep
    exact h.draw h.roles (.drawn h)
  | replaceControl control connected =>
    dsimp only at hstep
    split_ifs at hstep with hui
    cases control with
    | none =>
      cases hstep
      exact h
    | some control =>
      cases hstep
      exact { h with closed := nofun }
  | disconnectAll =>
    dsimp only at hstep
    split_ifs at hstep with hui
    cases hstep
    exact h.goUi id rfl
  | control connected =>
    cases hstep
    refine { h with closed := fun hclosed => ?_ }
    exact eq_false_of_ne_true fun hconnected => by
      dsimp only at hclosed hconnected
      rw [hconnected, Bool.not_true, Bool.and_false] at hclosed
      cases hclosed
  | ui => exact h.uiStep htimely hstep
  | role healthy => exact h.thread htimely (.of_step hstep)
  | connector i compatible => exact h.connector (.of_step hstep)

end ClientPool

open ClientPool

/-! ## The pool over whole runs -/

/-- In every run whose steps are timely, the roles belong to the latest call. -/
theorem roles_belong {es : List PoolEvent} {p : ClientPool}
    (h : Run ClientPool.step Timely ClientPool.init es p) : p.Belongs :=
  (h.invariant (P := Inv) (fun _ _ _ hp htimely hstep => hp.step htimely hstep) init_inv).belongs

def connectRoles : List PoolEvent :=
  .connectAdditionalRolesAsync "console" 9020 :: List.replicate 6 .ui

theorem roles_belong_connected :
    ∃ p, (connectRoles ++ List.replicate 4 (PoolEvent.connector 0 true)).foldlM ClientPool.step
        ClientPool.init = some p ∧
      p.lease (fun _ => true) 0 = some (.inl ⟨⟨1, "console", 9020⟩, 0⟩) ∧ p.Belongs :=
  ⟨_, rfl, rfl, @roles_belong (connectRoles ++ List.replicate 4 (.connector 0 true)) _ <|
    .cons trivial rfl <| .cons (fun _ => rfl) rfl <| .cons trivial rfl <| .cons trivial rfl <|
    .cons trivial rfl <| .cons trivial rfl <|
    .cons trivial rfl <| .cons trivial rfl <| .cons trivial rfl <| .cons trivial rfl <|
    .cons trivial rfl <| .nil _⟩

def invalidatedMeanwhile : List PoolEvent :=
  connectRoles ++ List.replicate 5 (.connector 0 true) ++ List.replicate 5 (.connector 1 true) ++
    List.replicate 5 (.connector 2 true) ++ List.replicate 3 (.role fun _ => true) ++
    [.invalidateRoles, .ui, .ui, .role fun _ => true]

theorem invalidatedMeanwhile_active : ¬∀ (es : List PoolEvent) (p : ClientPool),
    Run ClientPool.step (fun _ _ => True) ClientPool.init es p → p.Belongs := by
  intro h
  have hbelongs := h invalidatedMeanwhile _ (Run.of_foldlM rfl)
  have hactive := (hbelongs.dropped rfl).1
  cases hactive

end MemDbg.Frontend
