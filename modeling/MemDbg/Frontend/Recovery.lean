import MemDbg.Frontend.Shell
import MemDbg.Lib.Transition

/-!
# Recovering a lost connection

A session whose socket has failed is retried as long as it is found in a phase in which the
reconnect is polled.  Every reconnect that succeeds ends that: the adoption closes the socket it
has just taken, in a phase that is never left.
-/

namespace MemDbg.Frontend

open Lib Shell

namespace Shell

structure Sound (s : Shell) : Prop where
  enabled : s.enabled = true
  original : s.pool.replacement = none
  pending : s.connectPending = true → s.pool.first = false
  phase : s.phase ≠ .restoring
  attempt : s.connectPending = true → s.cancelled = false →
    s.manualDisconnect = false ∧ (s.phase = .connecting ∨ s.phase = .reconnecting)
  heartbeat : s.connectPending = true → s.heartbeatPending = false

structure Kept (s : Shell) : Prop where
  automatic : s.manualDisconnect = false
  pending : s.connectPending = true → s.cancelled = false
  phase : s.connectPending = false →
    ((s.phase = .waitingForWake ∨ s.phase = .reconnecting) ∧ s.pool.first = false) ∨
      (s.phase = .online ∧ s.hasHello = true)

def Retrying (s : Shell) : Prop :=
  s.connectPending = false → s.pool.first = false →
    s.phase = .waitingForWake ∨ s.phase = .reconnecting

variable {s : Shell}

/-! ## The pool -/

theorem pool_disconnect (h : s.pool.replacement = none) : s.pool.disconnect = ⟨false, none⟩ := by
  rw [Pool.disconnect, Pool.setControl, h]

theorem pool_closed (h : s.pool.replacement = none) :
    s.pool.cancelAllPendingIo.disconnect.invalidateRoles = ⟨false, none⟩ := by
  have hclosed : s.pool.cancelAllPendingIo = ⟨false, none⟩ := pool_disconnect h
  rw [hclosed]
  rfl

theorem control_eq_first (h : s.pool.replacement = none) : s.pool.control = s.pool.first := by
  rw [Pool.control, h, Option.getD_none]

/-! ## Attempts -/

theorem cancelled_startAttempt (phase : ConnectionPhase) :
    (s.startAttempt phase).cancelled = false := by
  simp [startAttempt, cancelled]

theorem connectConsole_cases (h : s.pool.replacement = none) (intent : ConnectIntent) :
    s.connectConsole intent = s ∨ (s.connectPending = false ∧ ∃ t : Shell,
      s.connectConsole intent =
          t.startAttempt (if intent = .automaticReconnect then .reconnecting else .connecting) ∧
        t.enabled = s.enabled ∧ t.pool = ⟨false, none⟩ ∧ t.heartbeatPending = false ∧
        t.manualDisconnect = if intent = .automaticReconnect then s.manualDisconnect
          else false) := by
  unfold connectConsole
  split
  · exact .inl rfl
  · rename_i hidle
    have hidle : s.connectPending = false := Bool.not_eq_true _ ▸ hidle
    split
    · exact .inl rfl
    · refine .inr ⟨hidle, ?_⟩
      cases intent with
      | manualFreshConnection =>
        refine ⟨_, rfl, rfl, ?_, rfl, rfl⟩
        have hdown : s.pool.disconnect.replacement = none := by rw [pool_disconnect h]
        exact pool_closed hdown
      | automaticReconnect => exact ⟨_, rfl, rfl, pool_closed h, rfl, rfl⟩

theorem Sound.connectConsole (h : s.Sound) {intent : ConnectIntent}
    (hmanual : intent = .automaticReconnect → s.manualDisconnect = false) :
    (s.connectConsole intent).Sound := by
  rcases connectConsole_cases h.original intent with
    heq | ⟨-, t, heq, henabled, hpool, hbeat, hmanual'⟩
  · rw [heq]
    exact h
  · rw [heq]
    have hconnecting : (if intent = .automaticReconnect then ConnectionPhase.reconnecting
        else .connecting) = .connecting ∨ (if intent = .automaticReconnect then
          ConnectionPhase.reconnecting else .connecting) = .reconnecting := by
      split
      · exact .inr rfl
      · exact .inl rfl
    have hautomatic : t.manualDisconnect = false := by
      rw [hmanual']
      split
      · exact hmanual ‹_›
      · rfl
    refine ⟨henabled.trans h.enabled, ?_, fun _ => ?_, ?_, fun _ _ => ⟨hautomatic, hconnecting⟩,
      fun _ => hbeat⟩
    · exact congrArg Pool.replacement hpool
    · exact congrArg Pool.first hpool
    · intro hphase
      rcases hconnecting with hc | hc
      · exact absurd (hc.symm.trans hphase) nofun
      · exact absurd (hc.symm.trans hphase) nofun

theorem Sound.connectManual (h : s.Sound) : (s.connectConsole .manualFreshConnection).Sound :=
  h.connectConsole nofun

theorem Kept.connectConsole (h : s.Kept) (hs : s.Sound) (intent : ConnectIntent) :
    (s.connectConsole intent).Kept := by
  rcases connectConsole_cases hs.original intent with heq | ⟨-, t, heq, -, -, -, hmanual⟩
  · rw [heq]
    exact h
  · rw [heq]
    refine ⟨?_, fun _ => cancelled_startAttempt _, nofun⟩
    change t.manualDisconnect = false
    rw [hmanual]
    split
    · exact h.automatic
    · rfl

/-! ## Pollers that do not touch the connection -/

structure SameConnection (s t : Shell) : Prop where
  enabled : t.enabled = s.enabled
  manualDisconnect : t.manualDisconnect = s.manualDisconnect
  phase : t.phase = s.phase
  connectPending : t.connectPending = s.connectPending
  cancelled : t.cancelled = s.cancelled
  pool : t.pool = s.pool
  hasHello : t.hasHello = s.hasHello
  heartbeatPending : t.heartbeatPending = s.heartbeatPending

theorem SameConnection.trans {s t u : Shell} (h : s.SameConnection t) (h' : t.SameConnection u) :
    s.SameConnection u where
  enabled := h'.enabled.trans h.enabled
  manualDisconnect := h'.manualDisconnect.trans h.manualDisconnect
  phase := h'.phase.trans h.phase
  connectPending := h'.connectPending.trans h.connectPending
  cancelled := h'.cancelled.trans h.cancelled
  pool := h'.pool.trans h.pool
  hasHello := h'.hasHello.trans h.hasHello
  heartbeatPending := h'.heartbeatPending.trans h.heartbeatPending

theorem SameConnection.refl (s : Shell) :
    s.SameConnection s := ⟨rfl, rfl, rfl, rfl, rfl, rfl, rfl, rfl⟩

section

variable {t : Shell}

theorem Sound.congr (h : s.Sound) (hst : s.SameConnection t) : t.Sound where
  enabled := hst.enabled.trans h.enabled
  original := by rw [hst.pool, h.original]
  pending hp := by
    rw [hst.pool]
    exact h.pending (hst.connectPending ▸ hp)
  phase := by
    rw [hst.phase]
    exact h.phase
  attempt hp hc := by
    rw [hst.manualDisconnect, hst.phase]
    exact h.attempt (hst.connectPending ▸ hp) (hst.cancelled ▸ hc)
  heartbeat hp := hst.heartbeatPending.trans (h.heartbeat (hst.connectPending ▸ hp))

theorem Kept.congr (h : s.Kept) (hst : s.SameConnection t) : t.Kept where
  automatic := hst.manualDisconnect.trans h.automatic
  pending hp := hst.cancelled.trans (h.pending (hst.connectPending ▸ hp))
  phase hp := by
    rw [hst.phase, hst.pool, hst.hasHello]
    exact h.phase (hst.connectPending ▸ hp)

theorem Retrying.congr (h : s.Retrying) (hst : s.SameConnection t) : t.Retrying := by
  intro hp hfirst
  rw [hst.phase]
  exact h (hst.connectPending ▸ hp) (hst.pool ▸ hfirst)

end

theorem requestPayloadInject_same (s : Shell) (env : FrameEnv) (connectAfter : Bool) :
    s.SameConnection (s.requestPayloadInject env connectAfter) := by
  unfold requestPayloadInject
  split
  · exact .refl s
  split
  · exact .refl s
  split
  · exact .refl s
  · exact ⟨rfl, rfl, rfl, rfl, rfl, rfl, rfl, rfl⟩

theorem pollPayloadInject_same (s : Shell) (env : FrameEnv) :
    s.SameConnection (s.pollPayloadInject env) := by
  unfold pollPayloadInject
  split
  · split
    · exact ⟨rfl, rfl, rfl, rfl, rfl, rfl, rfl, rfl⟩
    · exact ⟨rfl, rfl, rfl, rfl, rfl, rfl, rfl, rfl⟩
  · exact .refl s

theorem selectProcess_same (s : Shell) (row : Nat) : s.SameConnection (s.selectProcess row) := by
  unfold selectProcess
  split
  · exact .refl s
  · exact ⟨rfl, rfl, rfl, rfl, rfl, rfl, rfl, rfl⟩

theorem refreshProcesses_same (s : Shell) (result : Option (List ProcessEntry)) :
    s.SameConnection (s.refreshProcesses result) := by
  unfold refreshProcesses
  split
  · split
    · exact ⟨rfl, rfl, rfl, rfl, rfl, rfl, rfl, rfl⟩
    · exact ⟨rfl, rfl, rfl, rfl, rfl, rfl, rfl, rfl⟩
  · exact .refl s

/-! ## Events -/

theorem Sound.event (h : s.Sound) (e : AsyncEvent) : (e.apply s).Sound := by
  cases e with
  | controlLost =>
    have hclosed : s.pool.disconnect = ⟨false, none⟩ := pool_disconnect h.original
    refine ⟨h.enabled, ?_, fun _ => ?_, h.phase, h.attempt, h.heartbeat⟩
    · exact congrArg Pool.replacement hclosed
    · exact congrArg Pool.first hclosed
  | connectDone result => exact h.congr ⟨rfl, rfl, rfl, rfl, rfl, rfl, rfl, rfl⟩
  | heartbeatDone ok => exact h.congr ⟨rfl, rfl, rfl, rfl, rfl, rfl, rfl, rfl⟩
  | injectDone ok => exact h.congr ⟨rfl, rfl, rfl, rfl, rfl, rfl, rfl, rfl⟩

theorem Kept.event (h : s.Kept) (hs : s.Sound) (e : AsyncEvent) : (e.apply s).Kept := by
  cases e with
  | controlLost =>
    have hclosed : s.pool.disconnect = ⟨false, none⟩ := pool_disconnect hs.original
    refine ⟨h.automatic, h.pending, fun hp => ?_⟩
    exact (h.phase hp).imp_left fun hphase => ⟨hphase.1, congrArg Pool.first hclosed⟩
  | connectDone result => exact h.congr ⟨rfl, rfl, rfl, rfl, rfl, rfl, rfl, rfl⟩
  | heartbeatDone ok => exact h.congr ⟨rfl, rfl, rfl, rfl, rfl, rfl, rfl, rfl⟩
  | injectDone ok => exact h.congr ⟨rfl, rfl, rfl, rfl, rfl, rfl, rfl, rfl⟩

theorem Retrying.event (h : s.Retrying) {e : AsyncEvent} (he : e ≠ .controlLost) :
    (e.apply s).Retrying := by
  cases e with
  | controlLost => exact absurd rfl he
  | connectDone result => exact h.congr ⟨rfl, rfl, rfl, rfl, rfl, rfl, rfl, rfl⟩
  | heartbeatDone ok => exact h.congr ⟨rfl, rfl, rfl, rfl, rfl, rfl, rfl, rfl⟩
  | injectDone ok => exact h.congr ⟨rfl, rfl, rfl, rfl, rfl, rfl, rfl, rfl⟩

theorem Sound.events (h : s.Sound) (es : List AsyncEvent) : (s.events es).Sound := by
  induction es generalizing s with
  | nil => exact h
  | cons e es ih => exact ih (h.event e)

theorem Kept.events (h : s.Kept) (hs : s.Sound) (es : List AsyncEvent) : (s.events es).Kept := by
  induction es generalizing s with
  | nil => exact h
  | cons e es ih => exact ih (h.event hs e) (hs.event e)

theorem Retrying.events (h : s.Retrying) {es : List AsyncEvent} (hes : .controlLost ∉ es) :
    (s.events es).Retrying := by
  induction es generalizing s with
  | nil => exact h
  | cons e es ih =>
    obtain ⟨hne, hmem⟩ := not_or.mp (List.mem_cons.not.mp hes)
    exact ih (h.event (Ne.symm hne)) hmem

theorem adoptions_events (s : Shell) (es : List AsyncEvent) :
    (s.events es).adoptions = s.adoptions := by
  induction es generalizing s with
  | nil => rfl
  | cons e es ih =>
    refine (ih (e.apply s)).trans ?_
    cases e <;> rfl

/-! ## Payload -/

theorem pollAutoInject_same (s : Shell) (env : FrameEnv) :
    s.SameConnection (s.pollAutoInject env) := by
  unfold pollAutoInject
  split
  · have hwaiting : s.SameConnection { s with payloadAutoInjectWaiting := false } :=
      ⟨rfl, rfl, rfl, rfl, rfl, rfl, rfl, rfl⟩
    exact hwaiting.trans (requestPayloadInject_same _ env true)
  · exact .refl s

theorem Sound.pollPayloadRetry (h : s.Sound) (env : FrameEnv) : (s.pollPayloadRetry env).Sound := by
  unfold Shell.pollPayloadRetry
  split
  · exact h
  · split
    · have hdisarmed : s.SameConnection { s with payloadConnectRetryAt := none } :=
        ⟨rfl, rfl, rfl, rfl, rfl, rfl, rfl, rfl⟩
      exact (h.congr hdisarmed).connectManual
    · exact h

theorem Kept.pollPayloadRetry (h : s.Kept) (hs : s.Sound) (env : FrameEnv) :
    (s.pollPayloadRetry env).Kept := by
  unfold Shell.pollPayloadRetry
  split
  · exact h
  · split
    · have hdisarmed : s.SameConnection { s with payloadConnectRetryAt := none } :=
        ⟨rfl, rfl, rfl, rfl, rfl, rfl, rfl, rfl⟩
      exact (h.congr hdisarmed).connectConsole (hs.congr hdisarmed) _
    · exact h

theorem Sound.pollPayloadLifecycle (h : s.Sound) (env : FrameEnv) :
    (s.pollPayloadLifecycle env).Sound :=
  ((h.congr (pollAutoInject_same s env)).congr (pollPayloadInject_same _ env)).pollPayloadRetry env

theorem Kept.pollPayloadLifecycle (h : s.Kept) (hs : s.Sound) (env : FrameEnv) :
    (s.pollPayloadLifecycle env).Kept :=
  ((h.congr (pollAutoInject_same s env)).congr (pollPayloadInject_same _ env)).pollPayloadRetry
    ((hs.congr (pollAutoInject_same s env)).congr (pollPayloadInject_same _ env)) env

/-! ## Health -/

theorem Sound.beginReconnect (h : s.Sound) (hidle : s.connectPending = false) (env : FrameEnv) :
    (s.beginReconnect env).Sound := by
  unfold Shell.beginReconnect
  split
  · exact h
  · split
    · exact h
    · have hnot : ¬s.connectPending = true := by
        rw [hidle]
        exact Bool.false_ne_true
      exact ⟨h.enabled, congrArg Pool.replacement (pool_closed h.original), fun hp ↦ absurd hp hnot,
        nofun, fun hp => absurd hp hnot, h.heartbeat⟩

theorem Kept.beginReconnect (h : s.Kept) (hs : s.Sound) (hidle : s.connectPending = false)
    (env : FrameEnv) : (s.beginReconnect env).Kept ∧ (s.beginReconnect env).Retrying := by
  unfold Shell.beginReconnect
  rw [if_neg (by simp [h.automatic]), if_neg (by simp [hs.enabled])]
  refine ⟨⟨h.automatic, fun hp => ?_, fun _ => .inl ⟨.inl rfl, ?_⟩⟩, fun _ _ => .inl rfl⟩
  · exact absurd (show s.connectPending = true from hp) (by simp [hidle])
  · exact congrArg Pool.first (pool_closed hs.original)

theorem Sound.pollHeartbeat (h : s.Sound) (hidle : s.connectPending = false) (env : FrameEnv) :
    (s.pollHeartbeat env).Sound := by
  have hnot : ¬s.connectPending = true := by
    rw [hidle]
    exact Bool.false_ne_true
  have hkeep : ∀ t : Shell, t.enabled = s.enabled → t.pool = s.pool → t.phase = s.phase →
      t.connectPending = s.connectPending → t.Sound := by
    intro t henabled hpool hphase hpending
    rw [← hpending] at hnot
    exact ⟨henabled.trans h.enabled, hpool ▸ h.original, fun hp => absurd hp hnot, hphase ▸ h.phase,
      fun hp => absurd hp hnot, fun hp => absurd hp hnot⟩
  unfold Shell.pollHeartbeat
  split
  · exact hkeep _ rfl rfl rfl rfl
  · exact h
  · exact hkeep _ rfl rfl rfl rfl
  · split
    · have hfailed : Sound { s with
          heartbeatPending := false
          heartbeatFuture := .invalid
          heartbeatFailures := s.heartbeatFailures + 1 } := hkeep _ rfl rfl rfl rfl
      exact hfailed.beginReconnect hidle env
    · exact hkeep _ rfl rfl rfl rfl

theorem Kept.pollHeartbeat (h : s.Kept) (hs : s.Sound) (hidle : s.connectPending = false)
    (env : FrameEnv) :
    (s.pollHeartbeat env).Kept ∧ (s.Retrying → (s.pollHeartbeat env).Retrying) := by
  have hnot : ¬s.connectPending = true := by
    rw [hidle]
    exact Bool.false_ne_true
  unfold Shell.pollHeartbeat
  split
  · exact ⟨⟨h.automatic, h.pending, h.phase⟩, fun hr => hr⟩
  · exact ⟨h, id⟩
  · exact ⟨⟨h.automatic, h.pending, h.phase⟩, fun hr => hr⟩
  · split
    · have hbegin := Kept.beginReconnect (s := { s with
          heartbeatPending := false
          heartbeatFuture := .invalid
          heartbeatFailures := s.heartbeatFailures + 1 }) ⟨h.automatic, h.pending, h.phase⟩
        ⟨hs.enabled, hs.original, hs.pending, hs.phase, hs.attempt, fun hp => absurd hp hnot⟩
          hidle env
      exact ⟨hbegin.1, fun _ => hbegin.2⟩
    · exact ⟨⟨h.automatic, h.pending, h.phase⟩, fun hr => hr⟩

theorem Sound.pollSessionHealth (h : s.Sound) (env : FrameEnv) :
    (s.pollSessionHealth env).Sound := by
  unfold Shell.pollSessionHealth
  split
  · rename_i hlost
    exact h.beginReconnect hlost.2.2.1 env
  split
  · rename_i hbeat
    refine h.pollHeartbeat ?_ env
    by_contra hp
    exact absurd (h.heartbeat (Bool.not_eq_false _ ▸ hp)) (by simp [hbeat])
  split
  · exact h
  split
  · exact h
  · rename_i hready _
    have hidle : s.connectPending = false := by
      rw [← Bool.not_eq_true]
      exact fun hp => hready (.inr (.inl hp))
    exact ⟨h.enabled, h.original, h.pending, h.phase, h.attempt,
      fun hp => absurd hp (by simp [hidle])⟩

theorem Kept.pollSessionHealth (h : s.Kept) (hs : s.Sound) (env : FrameEnv) :
    (s.pollSessionHealth env).Kept ∧ (s.pollSessionHealth env).Retrying := by
  unfold Shell.pollSessionHealth
  split
  · rename_i hlost
    exact h.beginReconnect hs hlost.2.2.1 env
  · rename_i hkept
    have hretrying : s.Retrying := by
      intro hp hfirst
      rcases h.phase hp with hphase | ⟨honline, hhello⟩
      · exact hphase.1
      · exact absurd ⟨hhello, hfirst, hp, honline⟩ hkept
    split
    · rename_i hbeat
      have hidle : s.connectPending = false := by
        by_contra hp
        exact absurd (hs.heartbeat (Bool.not_eq_false _ ▸ hp)) (by simp [hbeat])
      have hpoll := h.pollHeartbeat hs hidle env
      exact ⟨hpoll.1, hpoll.2 hretrying⟩
    split
    · exact ⟨h, hretrying⟩
    split
    · exact ⟨h, hretrying⟩
    · exact ⟨⟨h.automatic, h.pending, h.phase⟩, hretrying⟩

/-! ## Reconnect -/

theorem pollReconnect_cases (s : Shell) (env : FrameEnv) :
    s.pollReconnect env = s ∨
      (s.manualDisconnect = false ∧ s.connectPending = false ∧ s.pool.clientConnected = false ∧
        s.pollReconnect env = { s with phase := .reconnecting }.connectConsole
          .automaticReconnect) := by
  unfold pollReconnect
  split_ifs with _ hmanual hidle hclosed
  · exact .inl rfl
  · exact .inl rfl
  · exact .inl rfl
  · exact .inl rfl
  · exact .inl rfl
  · exact .inl rfl
  · exact .inr ⟨Bool.not_eq_true _ ▸ hmanual, Bool.not_eq_true _ ▸ hidle,
      Bool.not_eq_true _ ▸ hclosed, rfl⟩

theorem Sound.pollReconnect (h : s.Sound) (env : FrameEnv) : (s.pollReconnect env).Sound := by
  rcases pollReconnect_cases s env with heq | ⟨hmanual, hidle, -, heq⟩
  · rwa [heq]
  · have hnot : ∀ hp : s.connectPending = true, False := by simp [hidle]
    have htrying : Sound { s with phase := .reconnecting } := ⟨h.enabled, h.original,
      fun hp => (hnot hp).elim, nofun, fun hp => (hnot hp).elim, fun hp => (hnot hp).elim⟩
    rw [heq]
    exact htrying.connectConsole fun _ => hmanual

theorem Kept.pollReconnect (h : s.Kept) (hs : s.Sound) (env : FrameEnv) :
    (s.pollReconnect env).Kept := by
  rcases pollReconnect_cases s env with heq | ⟨-, hidle, hclosed, heq⟩
  · rwa [heq]
  · have hnot : ∀ hp : s.connectPending = true, False := by simp [hidle]
    have htrying : Sound { s with phase := .reconnecting } := ⟨hs.enabled, hs.original,
      fun hp => (hnot hp).elim, nofun, fun hp => (hnot hp).elim, fun hp => (hnot hp).elim⟩
    have hkept : Kept { s with phase := .reconnecting } :=
      ⟨h.automatic, h.pending, fun _ => .inl ⟨.inr rfl, hclosed⟩⟩
    rw [heq]
    exact hkept.connectConsole htrying _

theorem Retrying.pollReconnect (h : s.Retrying) (hs : s.Sound) (env : FrameEnv) :
    (s.pollReconnect env).Retrying := by
  rcases pollReconnect_cases s env with heq | ⟨-, -, -, heq⟩
  · rwa [heq]
  · rw [heq]
    rcases connectConsole_cases (s := { s with phase := .reconnecting }) hs.original
      .automaticReconnect with heq | ⟨-, t, heq, -⟩
    · rw [heq]
      exact fun _ _ => .inr rfl
    · rw [heq]
      exact nofun

theorem pollRestoreSession_eq (h : s.Sound) (env : FrameEnv) : s.pollRestoreSession env = s :=
  if_pos h.phase

/-! ## Attempts that end -/

theorem Sound.endAttempt (h : s.Sound) : s.endAttempt.Sound :=
  ⟨h.enabled, h.original, nofun, h.phase, nofun, nofun⟩

theorem Sound.attemptFailed (h : s.Sound) (hidle : s.connectPending = false) (env : FrameEnv) :
    (s.attemptFailed env).Sound := by
  have hnot : ∀ hp : s.connectPending = true, False := by simp [hidle]
  unfold Shell.attemptFailed
  split
  · exact h.congr ⟨rfl, rfl, rfl, rfl, rfl, rfl, rfl, rfl⟩
  split
  · exact h.congr ⟨rfl, rfl, rfl, rfl, rfl, rfl, rfl, rfl⟩
  split
  · unfold scheduleReconnectRetry
    split
    · exact h
    · exact ⟨h.enabled, h.original, h.pending, nofun, fun hp => (hnot hp).elim, h.heartbeat⟩
  · exact h.congr ⟨rfl, rfl, rfl, rfl, rfl, rfl, rfl, rfl⟩

theorem Kept.attemptFailed (h : s.Kept) (hphase : s.phase = .reconnecting)
    (hfirst : s.pool.first = false) (env : FrameEnv) : (s.attemptFailed env).Kept := by
  unfold Shell.attemptFailed
  split
  · exact h.congr ⟨rfl, rfl, rfl, rfl, rfl, rfl, rfl, rfl⟩
  split
  · exact h.congr ⟨rfl, rfl, rfl, rfl, rfl, rfl, rfl, rfl⟩
  rw [if_pos (.inl hphase)]
  unfold scheduleReconnectRetry
  split
  · exact h
  · exact ⟨h.automatic, h.pending, fun _ => .inl ⟨.inl rfl, hfirst⟩⟩

theorem attemptSucceeded_spec (h : s.Sound) (hidle : s.connectPending = false)
    (hmanual : s.manualDisconnect = false) (hphase : s.phase ≠ .reconnecting) (instanceId : Nat) :
    (s.attemptSucceeded instanceId).Sound ∧ (s.attemptSucceeded instanceId).Kept := by
  have hnot : ∀ hp : s.connectPending = true, False := by simp [hidle]
  have hpool : (s.attemptSucceeded instanceId).pool = ⟨true, none⟩ := by
    rw [attemptSucceeded, if_neg hphase]
    change (if s.phase = .reconnecting then _ else _) = _
    rw [if_neg hphase, Pool.setControl, h.original]
  rw [attemptSucceeded, if_neg hphase] at hpool ⊢
  exact ⟨⟨h.enabled, congrArg Pool.replacement hpool, fun hp => (hnot hp).elim, nofun,
    fun hp => (hnot hp).elim, fun hp => (hnot hp).elim⟩,
    hmanual, fun hp => (hnot hp).elim, fun _ => .inr ⟨rfl, rfl⟩⟩

theorem adoptions_attemptFailed (s : Shell) (env : FrameEnv) :
    (s.attemptFailed env).adoptions = s.adoptions := by
  unfold Shell.attemptFailed
  split
  · rfl
  split
  · rfl
  split
  · unfold scheduleReconnectRetry
    split <;> rfl
  · rfl

theorem pollConnect_cases (s : Shell) (env : FrameEnv) :
    s.pollConnect env = s ∨
      (s.connectPending = true ∧ s.cancelled = true ∧ s.pollConnect env = s.endAttempt) ∨
      (s.connectPending = true ∧ s.cancelled = false ∧ s.connectFuture = .ready none ∧
        s.pollConnect env = s.endAttempt.attemptFailed env) ∨
      ∃ instanceId, s.connectPending = true ∧ s.cancelled = false ∧
        s.connectFuture = .ready (some instanceId) ∧
        s.pollConnect env = s.endAttempt.attemptSucceeded instanceId := by
  unfold pollConnect
  split
  · rename_i result hpending hready
    split
    · rename_i hcancelled
      exact .inr (.inl ⟨hpending, hcancelled, rfl⟩)
    · rename_i hcancelled
      have hcancelled : s.cancelled = false := Bool.not_eq_true _ ▸ hcancelled
      cases result with
      | none => exact .inr (.inr (.inl ⟨hpending, hcancelled, hready, rfl⟩))
      | some instanceId => exact .inr (.inr (.inr ⟨instanceId, hpending, hcancelled, hready, rfl⟩))
  · exact .inl rfl

section

variable {env : FrameEnv}

theorem Sound.pollConnect (h : s.Sound)
    (hre : ∀ instanceId, s.connectFuture = .ready (some instanceId) → s.phase ≠ .reconnecting) :
    (s.pollConnect env).Sound := by
  rcases pollConnect_cases s env with heq | ⟨-, -, heq⟩ | ⟨-, -, -, heq⟩ |
    ⟨instanceId, hp, hc, hready, heq⟩
  · rw [heq]
    exact h
  · rw [heq]
    exact h.endAttempt
  · rw [heq]
    exact h.endAttempt.attemptFailed rfl env
  · rw [heq]
    exact (attemptSucceeded_spec h.endAttempt rfl (h.attempt hp hc).1 (hre _ hready) instanceId).1

theorem Kept.pollConnect (h : s.Kept) (hs : s.Sound)
    (hre : ∀ instanceId, s.connectFuture = .ready (some instanceId) → s.phase ≠ .reconnecting)
    (hfresh : s.connectFuture = .ready none → s.phase ≠ .connecting) :
    (s.pollConnect env).Kept := by
  rcases pollConnect_cases s env with heq | ⟨hp, hc, -⟩ | ⟨hp, hc, hready, heq⟩ |
    ⟨instanceId, hp, hc, hready, heq⟩
  · rw [heq]
    exact h
  · exact absurd (h.pending hp) (by simp [hc])
  · rw [heq]
    have hphase : s.phase = .reconnecting := (hs.attempt hp hc).2.resolve_left (hfresh hready)
    have hkept : s.endAttempt.Kept :=
      ⟨h.automatic, nofun, fun _ => .inl ⟨.inr hphase, hs.pending hp⟩⟩
    exact hkept.attemptFailed hphase (hs.pending hp) env
  · rw [heq]
    exact (attemptSucceeded_spec hs.endAttempt rfl (hs.attempt hp hc).1 (hre _ hready) instanceId).2

theorem Sound.kept_of_adopted (h : s.Sound)
    (hre : ∀ instanceId, s.connectFuture = .ready (some instanceId) → s.phase ≠ .reconnecting)
    (hadopted : (s.pollConnect env).adoptions ≠ s.adoptions) : (s.pollConnect env).Kept := by
  rcases pollConnect_cases s env with heq | ⟨-, -, heq⟩ | ⟨-, -, -, heq⟩ |
    ⟨instanceId, hp, hc, hready, heq⟩
  · exact absurd (congrArg adoptions heq) hadopted
  · exact absurd (congrArg adoptions heq) hadopted
  · exact absurd ((congrArg adoptions heq).trans (adoptions_attemptFailed _ _)) hadopted
  · rw [heq]
    exact (attemptSucceeded_spec h.endAttempt rfl (h.attempt hp hc).1 (hre _ hready) instanceId).2

end

/-! ## The user -/

theorem cancelled_cancelAttempt (hp : s.connectPending = true) :
    s.cancelAttempt.cancelled = true := by
  unfold cancelAttempt
  split
  · simp [cancelled]
  · rename_i hrequested
    simp only [hp, Bool.true_and, Bool.not_eq_true, Bool.not_eq_false'] at hrequested
    simp [cancelled, hrequested]

theorem connectPending_cancelAttempt (s : Shell) :
    s.cancelAttempt.connectPending = s.connectPending := by
  unfold cancelAttempt
  split <;> rfl

theorem cancelAttempt_spec (s : Shell) : ∃ requested generation, s.cancelAttempt =
    { s with connectCancelRequested := requested, connectGeneration := generation } := by
  unfold cancelAttempt
  split
  · exact ⟨_, _, rfl⟩
  · exact ⟨s.connectCancelRequested, s.connectGeneration, rfl⟩

theorem Sound.cancelConnect (h : s.Sound) : s.cancelConnect.Sound := by
  unfold Shell.cancelConnect
  split
  · exact h
  · have hcancelled : s.connectPending = true → s.cancelAttempt.stopReconnect.cancelled = true :=
      fun hp => cancelled_cancelAttempt hp
    obtain ⟨requested, generation, heq⟩ := cancelAttempt_spec s
    rw [heq] at hcancelled ⊢
    refine ⟨h.enabled, h.original, h.pending, nofun, fun hp hc => ?_, h.heartbeat⟩
    exact absurd (hcancelled hp) (by simp [hc])

theorem sound_tornDown (henabled : s.enabled = true) (horiginal : s.pool.replacement = none)
    (hcancelled : s.connectPending = true → s.cancelled = true) :
    Sound { s.quiesceTransport with pool :=
      s.quiesceTransport.pool.disconnect }.resetRemoteSession := by
  have hpool : s.quiesceTransport.pool.disconnect = ⟨false, none⟩ := by
    rw [quiesceTransport, pool_closed horiginal]
    rfl
  refine ⟨henabled, congrArg Pool.replacement hpool, fun _ => congrArg Pool.first hpool, nofun,
    fun hp hc => ?_, fun _ => rfl⟩
  have hnot : s.cancelled = false := hc
  rw [hcancelled hp] at hnot
  cases hnot

theorem Sound.disconnectConsole (h : s.Sound) : s.disconnectConsole.Sound := by
  unfold Shell.disconnectConsole
  by_cases hp : s.markDisconnected.connectPending = true
  · have hcancelled : s.markDisconnected.cancelAttempt.cancelled = true :=
      cancelled_cancelAttempt hp
    have hsequence : s.markDisconnected.connectSequencePending = true := by
      simp [connectSequencePending, hp]
    rw [if_pos hp, Shell.cancelConnect, if_neg (by rw [hsequence]; exact nofun)]
    obtain ⟨requested, generation, heq⟩ := cancelAttempt_spec s.markDisconnected
    rw [heq] at hcancelled ⊢
    exact sound_tornDown h.enabled h.original fun _ => hcancelled
  · rw [if_neg hp]
    exact sound_tornDown h.enabled h.original fun hp' => absurd hp' hp

theorem Sound.user (h : s.Sound) (u : UserAction) : (u.apply s).Sound := by
  cases u with
  | connect => exact h.connectManual
  | disconnect => exact h.disconnectConsole
  | cancel => exact h.cancelConnect
  | inject env connectAfter => exact h.congr (requestPayloadInject_same s env connectAfter)
  | selectProcess row => exact h.congr (selectProcess_same s row)
  | refreshProcesses result => exact h.congr (refreshProcesses_same s result)

theorem Kept.user (h : s.Kept) (hs : s.Sound) {u : UserAction} (hu : u.stops = false) :
    (u.apply s).Kept := by
  cases u with
  | connect => exact h.connectConsole hs .manualFreshConnection
  | disconnect => cases hu
  | cancel => cases hu
  | inject env connectAfter => exact h.congr (requestPayloadInject_same s env connectAfter)
  | selectProcess row => exact h.congr (selectProcess_same s row)
  | refreshProcesses result => exact h.congr (refreshProcesses_same s result)

/-! ## Frames -/

theorem adoptions_connectConsole (s : Shell) (intent : ConnectIntent) :
    (s.connectConsole intent).adoptions = s.adoptions := by
  unfold connectConsole
  split
  · rfl
  split
  · rfl
  · cases intent <;> rfl

theorem adoptions_pollPayloadLifecycle (s : Shell) (env : FrameEnv) :
    (s.pollPayloadLifecycle env).adoptions = s.adoptions := by
  have hauto : (s.pollAutoInject env).adoptions = s.adoptions := by
    unfold pollAutoInject
    split
    · unfold requestPayloadInject
      split
      · rfl
      split
      · rfl
      split <;> rfl
    · rfl
  have hinject (s : Shell) : (s.pollPayloadInject env).adoptions = s.adoptions := by
    unfold pollPayloadInject
    split
    · split <;> rfl
    · rfl
  have hretry (s : Shell) : (s.pollPayloadRetry env).adoptions = s.adoptions := by
    unfold Shell.pollPayloadRetry
    split
    · rfl
    · split
      · exact adoptions_connectConsole _ _
      · rfl
  exact (hretry _).trans ((hinject _).trans hauto)

theorem adoptions_beginReconnect (s : Shell) (env : FrameEnv) :
    (s.beginReconnect env).adoptions = s.adoptions := by
  unfold Shell.beginReconnect
  split
  · rfl
  split <;> rfl

theorem adoptions_pollSessionHealth (s : Shell) (env : FrameEnv) :
    (s.pollSessionHealth env).adoptions = s.adoptions := by
  have hbeat : (s.pollHeartbeat env).adoptions = s.adoptions := by
    unfold Shell.pollHeartbeat
    split
    · rfl
    · rfl
    · rfl
    · split
      · exact adoptions_beginReconnect _ _
      · rfl
  unfold Shell.pollSessionHealth
  split
  · exact adoptions_beginReconnect _ _
  split
  · exact hbeat
  split
  · rfl
  split <;> rfl

theorem adoptions_pollReconnect (s : Shell) (env : FrameEnv) :
    (s.pollReconnect env).adoptions = s.adoptions := by
  rcases pollReconnect_cases s env with heq | ⟨-, -, -, heq⟩
  · rw [heq]
  · rw [heq]
    exact adoptions_connectConsole _ _

theorem phase_events (s : Shell) (es : List AsyncEvent) : (s.events es).phase = s.phase := by
  induction es generalizing s with
  | nil => rfl
  | cons e es ih =>
    refine (ih (e.apply s)).trans ?_
    cases e <;> rfl

def frameConnect (s : Shell) (f : UiFrame) : Shell := (s.events f.beforeConnect).pollConnect f.env

def NoReconnect (s : Shell) (f : UiFrame) : Prop :=
  s.phase = .reconnecting →
    ∀ instanceId, (s.events f.beforeConnect).connectFuture ≠ .ready (some instanceId)

def NoRefusal (s : Shell) (f : UiFrame) : Prop :=
  s.phase = .connecting → (s.events f.beforeConnect).connectFuture ≠ .ready none

section

variable {f : UiFrame}

theorem Sound.frameConnect (h : s.Sound) (hre : s.NoReconnect f) : (s.frameConnect f).Sound := by
  refine (h.events f.beforeConnect).pollConnect fun instanceId hready hphase => ?_
  rw [phase_events] at hphase
  exact hre hphase instanceId hready

theorem Kept.frameConnect (h : s.Kept) (hs : s.Sound) (hre : s.NoReconnect f)
    (hfresh : s.NoRefusal f) : (s.frameConnect f).Kept := by
  refine (h.events hs f.beforeConnect).pollConnect (hs.events f.beforeConnect)
    (fun instanceId hready hphase => ?_) fun hready hphase => ?_
  · rw [phase_events] at hphase
    exact hre hphase instanceId hready
  · rw [phase_events] at hphase
    exact hfresh hphase hready

theorem Sound.kept_frameConnect (h : s.Sound) (hre : s.NoReconnect f)
    (hadopted : (s.frameConnect f).adoptions ≠ s.adoptions) : (s.frameConnect f).Kept := by
  rw [← adoptions_events s f.beforeConnect] at hadopted
  refine (h.events f.beforeConnect).kept_of_adopted (fun instanceId hready hphase => ?_) hadopted
  rw [phase_events] at hphase
  exact hre hphase instanceId hready

theorem Sound.frame_spec (h : s.Sound) (hre : s.NoReconnect f) :
    (s.frame f).Sound ∧ (s.frame f).adoptions = (s.frameConnect f).adoptions := by
  have hconnect := h.frameConnect hre
  have hhealth := ((hconnect.events f.beforePayload).pollPayloadLifecycle f.env |>.events
    f.beforeHealth).pollSessionHealth f.env
  have hreconnect :=
    (hhealth.events f.beforeReconnect).pollReconnect f.env |>.events f.beforeRestore
  have hframe : s.frame f = _ := pollRestoreSession_eq hreconnect f.env
  rw [hframe]
  refine ⟨hreconnect, ?_⟩
  rw [adoptions_events, adoptions_pollReconnect, adoptions_events, adoptions_pollSessionHealth,
    adoptions_events, adoptions_pollPayloadLifecycle, adoptions_events]

theorem Kept.frame (h : (s.frameConnect f).Kept) (hs : s.Sound) (hre : s.NoReconnect f)
    (hreconnect : .controlLost ∉ f.beforeReconnect) (hrestore : .controlLost ∉ f.beforeRestore) :
    (s.frame f).Kept ∧ (s.frame f).Retrying := by
  have hconnect := hs.frameConnect hre
  have hpayload := (hconnect.events f.beforePayload).pollPayloadLifecycle f.env |>.events
    f.beforeHealth
  have hkept := ((h.events hconnect f.beforePayload).pollPayloadLifecycle
    (hconnect.events f.beforePayload) f.env).events
    ((hconnect.events f.beforePayload).pollPayloadLifecycle f.env) f.beforeHealth
  obtain ⟨hhealth, hretrying⟩ := hkept.pollSessionHealth hpayload f.env
  have hsound := (hpayload.pollSessionHealth f.env).events f.beforeReconnect
  have hlast := (hsound.pollReconnect f.env).events f.beforeRestore
  have hframe : s.frame f = _ := pollRestoreSession_eq hlast f.env
  rw [hframe]
  constructor
  · exact ((hhealth.events (hpayload.pollSessionHealth f.env)
      f.beforeReconnect).pollReconnect hsound
      f.env).events (hsound.pollReconnect f.env) f.beforeRestore
  · exact ((hretrying.events hreconnect).pollReconnect hsound f.env).events hrestore

end

end Shell

/-! ## Runs -/

namespace Desktop

variable {d : Desktop}

def Live (d : Desktop) : Prop := 0 < d.shell.adoptions ∧ d.released = false

/-- A session that has lost its socket is retried, unless an attempt is pending. -/
def Recovering (d : Desktop) : Prop :=
  d.Live → d.shell.connectPending = false → d.shell.pool.control = false →
    d.shell.phase = .waitingForWake ∨ d.shell.phase = .reconnecting

/-- In the frame no reconnect succeeds, no connection the user has asked for fails while there is
a session, and the socket does not fail behind the health poll. -/
def Spared (d : Desktop) : Step → Prop
  | .frame f => d.shell.NoReconnect f ∧ (d.Live → d.shell.NoRefusal f) ∧
      .controlLost ∉ f.beforeReconnect ∧ .controlLost ∉ f.beforeRestore
  | .user _ => True

def Steady (d : Desktop) : Prop := d.shell.Sound ∧ (d.Live → d.shell.Kept)

theorem steady_init (autoInject : Bool) : (init autoInject).Steady := by
  have hinit : ∀ probe, Shell.Sound { Shell.init with payloadAutoInjectProbe := probe } := fun _ =>
    ⟨rfl, rfl, nofun, nofun, nofun, nofun⟩
  cases autoInject with
  | false => exact ⟨hinit false, fun h => absurd h.1 (Nat.lt_irrefl 0)⟩
  | true => exact ⟨(hinit true).connectManual, fun h => absurd h.1 (Nat.lt_irrefl 0)⟩

theorem Steady.frame (h : d.Steady) {f : UiFrame} (hspared : d.Spared (.frame f)) :
    (d.step (.frame f)).Steady ∧ (d.step (.frame f)).Recovering := by
  obtain ⟨hsound, hkept⟩ := h
  obtain ⟨hre, hfresh, hreconnect, hrestore⟩ := hspared
  obtain ⟨hsound', hadoptions⟩ := hsound.frame_spec hre
  have hlive : (d.step (.frame f)).Live →
      (d.shell.frame f).Kept ∧ (d.shell.frame f).Retrying := by
    intro hlive
    refine Kept.frame ?_ hsound hre hreconnect hrestore
    by_cases hadopted : (d.shell.frameConnect f).adoptions = d.shell.adoptions
    · have hd : d.Live := by
        obtain ⟨hpos, hreleased⟩ := hlive
        rw [step, hadoptions, hadopted, decide_eq_true rfl, Bool.and_true] at hreleased
        rw [step, hadoptions, hadopted] at hpos
        exact ⟨hpos, hreleased⟩
      exact (hkept hd).frameConnect hsound hre (hfresh hd)
    · exact hsound.kept_frameConnect hre hadopted
  refine ⟨⟨hsound', fun h => (hlive h).1⟩, fun h hp hcontrol => (hlive h).2 hp ?_⟩
  exact (control_eq_first hsound'.original).symm.trans hcontrol

theorem Steady.user (h : d.Steady) (u : UserAction) : (d.step (.user u)).Steady := by
  obtain ⟨hsound, hkept⟩ := h
  refine ⟨hsound.user u, fun hlive => ?_⟩
  obtain ⟨hpos, hreleased⟩ := hlive
  obtain ⟨hreleased, hstops⟩ := Bool.or_eq_false_iff.mp hreleased
  refine (hkept ⟨?_, hreleased⟩).user hsound hstops
  have hadoptions : (u.apply d.shell).adoptions = d.shell.adoptions := by
    cases u with
    | connect => exact adoptions_connectConsole _ _
    | disconnect => cases hstops
    | cancel => cases hstops
    | inject env connectAfter =>
      change (d.shell.requestPayloadInject env connectAfter).adoptions = _
      unfold requestPayloadInject
      split
      · rfl
      split
      · rfl
      split <;> rfl
    | selectProcess row =>
      change (d.shell.selectProcess row).adoptions = _
      unfold selectProcess
      split <;> rfl
    | refreshProcesses result =>
      change (d.shell.refreshProcesses result).adoptions = _
      unfold refreshProcesses
      split
      · split <;> rfl
      · rfl
  exact hadoptions ▸ hpos

theorem Steady.step (h : d.Steady) {l : Step} (hspared : d.Spared l) : (d.step l).Steady := by
  cases l with
  | frame f => exact (h.frame hspared).1
  | user u => exact h.user u

/-- The runs of the application whose steps all satisfy a guard. -/
abbrev Runs (guard : Desktop → Step → Prop) : Desktop → List Step → Desktop → Prop :=
  Run (fun d l => some (d.step l)) guard

/-- In a run whose frames all spare the session, a session that has lost its socket is retried
behind every frame. -/
theorem recovering_of_runs {autoInject : Bool} {steps : List Step}
    (h : Runs Spared (init autoInject) steps d) {f : UiFrame} (hspared : d.Spared (.frame f)) :
    (d.step (.frame f)).Recovering := by
  have hsteady : d.Steady := h.invariant (P := Steady)
    (fun _ _ _ hd hspared heq => by
      cases heq
      exact hd.step hspared)
    (steady_init autoInject)
  exact (hsteady.frame hspared).2

/-! ### A session and its end -/

def quietFrame (time : Nat) (events : List AsyncEvent) : UiFrame where
  env := ⟨time, time, false, false, true, none, .pending⟩
  beforeConnect := events
  beforePayload := []
  beforeHealth := []
  beforeReconnect := []
  beforeRestore := []

def session : List Step := [.user .connect, .frame (quietFrame 0 [.connectDone (some 1)])]

def behind (steps : List Step) : Desktop := steps.foldl step (init false)

theorem runs_session : Runs Spared (init false) session (behind session) :=
  .cons trivial rfl (.cons ⟨nofun, nofun, nofun, nofun⟩ rfl (.nil _))

theorem recovering_session :
    ((behind session).step (.frame (quietFrame 0 [.controlLost]))).Recovering :=
  recovering_of_runs runs_session ⟨nofun, fun _ => nofun, nofun, nofun⟩

def wake : List Step :=
  session ++ [.frame (quietFrame 0 [.controlLost]), .frame (quietFrame 1000 [])]

theorem recovering_fails : ¬ ∀ autoInject steps d f,
    Runs (fun _ _ => True) (init autoInject) steps d → (d.step (.frame f)).Recovering := by
  intro h
  have hrun : Runs (fun _ _ => True) (init false) wake (behind wake) :=
    .cons trivial rfl (.cons trivial rfl (.cons trivial rfl (.cons trivial rfl (.nil _))))
  have hrecovering := h false wake _ (quietFrame 1000 [.connectDone (some 1)]) hrun
  rcases hrecovering ⟨Nat.zero_lt_succ _, rfl⟩ rfl rfl with hphase | hphase
  · cases hphase
  · cases hphase

end Desktop

end MemDbg.Frontend
