import MemDbg.Frontend.Recovery

/-!
# Stopping a session

A cancelled connect sequence stays cancelled: every way to start another attempt is closed.
Disconnecting leaves the connection lost, not disconnected, and the timer behind a payload
injection as it is.
-/

namespace MemDbg.Frontend

open Lib

namespace Shell

structure Halted (s : Shell) : Prop where
  manual : s.manualDisconnect = true
  phase : s.phase = .disconnected
  waiting : s.payloadAutoInjectWaiting = false
  inject : s.payloadInjectPending = true → s.payloadConnectAfterInject = false
  retry : s.payloadConnectRetryAt = none
  attempt : s.connectPending = true → s.cancelled = true

structure Halts (s t : Shell) : Prop where
  halted : t.Halted
  attempts : t.attempts = s.attempts
  adoptions : t.adoptions = s.adoptions

theorem Halts.trans {s t u : Shell} (h : s.Halts t) (h' : t.Halts u) : s.Halts u :=
  ⟨h'.halted, h'.attempts.trans h.attempts, h'.adoptions.trans h.adoptions⟩

variable {s : Shell}

theorem Halted.refl (h : s.Halted) : s.Halts s := ⟨h, rfl, rfl⟩

/-! ## Pollers -/

theorem Halted.event (h : s.Halted) (e : AsyncEvent) : s.Halts (e.apply s) := by
  cases e with
  | controlLost => exact ⟨⟨h.manual, h.phase, h.waiting, h.inject, h.retry, h.attempt⟩, rfl, rfl⟩
  | connectDone result =>
    exact ⟨⟨h.manual, h.phase, h.waiting, h.inject, h.retry, h.attempt⟩, rfl, rfl⟩
  | heartbeatDone ok =>
    exact ⟨⟨h.manual, h.phase, h.waiting, h.inject, h.retry, h.attempt⟩, rfl, rfl⟩
  | injectDone ok => exact ⟨⟨h.manual, h.phase, h.waiting, h.inject, h.retry, h.attempt⟩, rfl, rfl⟩

theorem Halted.events (h : s.Halted) (es : List AsyncEvent) : s.Halts (s.events es) := by
  induction es generalizing s with
  | nil => exact h.refl
  | cons e es ih => exact (h.event e).trans (ih (h.event e).halted)

theorem Halted.pollConnect (h : s.Halted) (env : FrameEnv) : s.Halts (s.pollConnect env) := by
  rcases pollConnect_cases s env with heq | ⟨-, -, heq⟩ | ⟨hp, hc, -⟩ | ⟨-, hp, hc, -⟩
  · rw [heq]
    exact h.refl
  · rw [heq]
    exact ⟨⟨h.manual, h.phase, h.waiting, h.inject, h.retry, nofun⟩, rfl, rfl⟩
  · exact absurd (h.attempt hp) (by simp [hc])
  · exact absurd (h.attempt hp) (by simp [hc])

theorem Halted.pollPayloadInject (h : s.Halted) (env : FrameEnv) :
    s.Halts (s.pollPayloadInject env) := by
  unfold Shell.pollPayloadInject
  split
  · rename_i ok hpending _
    rw [h.inject hpending, Bool.and_false, if_neg Bool.false_ne_true]
    exact ⟨⟨h.manual, h.phase, h.waiting, nofun, h.retry, h.attempt⟩, rfl, rfl⟩
  · exact h.refl

theorem Halted.pollPayloadLifecycle (h : s.Halted) (env : FrameEnv) :
    s.Halts (s.pollPayloadLifecycle env) := by
  have hauto : s.pollAutoInject env = s := by
    unfold Shell.pollAutoInject
    rw [h.waiting, Bool.false_and, if_neg Bool.false_ne_true]
  have hinject := h.pollPayloadInject env
  have hretry : (s.pollPayloadInject env).pollPayloadRetry env = s.pollPayloadInject env := by
    unfold Shell.pollPayloadRetry
    rw [hinject.halted.retry]
  rw [Shell.pollPayloadLifecycle, hauto, hretry]
  exact hinject

theorem Halted.beginReconnect (h : s.Halted) (env : FrameEnv) : s.beginReconnect env = s :=
  if_pos h.manual

theorem Halted.pollHeartbeat (h : s.Halted) (env : FrameEnv) : s.Halts (s.pollHeartbeat env) := by
  unfold Shell.pollHeartbeat
  split
  · exact ⟨⟨h.manual, h.phase, h.waiting, h.inject, h.retry, h.attempt⟩, rfl, rfl⟩
  · exact h.refl
  · exact ⟨⟨h.manual, h.phase, h.waiting, h.inject, h.retry, h.attempt⟩, rfl, rfl⟩
  · split
    · have hfailed : Halted { s with
          heartbeatPending := false
          heartbeatFuture := .invalid
          heartbeatFailures := s.heartbeatFailures + 1 } :=
        ⟨h.manual, h.phase, h.waiting, h.inject, h.retry, h.attempt⟩
      rw [hfailed.beginReconnect]
      exact ⟨hfailed, rfl, rfl⟩
    · exact ⟨⟨h.manual, h.phase, h.waiting, h.inject, h.retry, h.attempt⟩, rfl, rfl⟩

theorem Halted.pollSessionHealth (h : s.Halted) (env : FrameEnv) :
    s.Halts (s.pollSessionHealth env) := by
  unfold Shell.pollSessionHealth
  split
  · rw [h.beginReconnect]
    exact h.refl
  split
  · exact h.pollHeartbeat env
  split
  · exact h.refl
  split
  · exact h.refl
  · exact ⟨⟨h.manual, h.phase, h.waiting, h.inject, h.retry, h.attempt⟩, rfl, rfl⟩

theorem Halted.pollReconnect (h : s.Halted) (env : FrameEnv) : s.pollReconnect env = s := by
  unfold Shell.pollReconnect
  split
  · rfl
  · rw [if_pos h.manual]

theorem Halted.pollRestoreSession (h : s.Halted) (env : FrameEnv) :
    s.pollRestoreSession env = s :=
  if_pos (by rw [h.phase]; exact nofun)

theorem Halted.frame (h : s.Halted) (f : UiFrame) : s.Halts (s.frame f) := by
  have hconnect := (h.events f.beforeConnect).trans
    ((h.events f.beforeConnect).halted.pollConnect f.env)
  have hpayload := hconnect.trans (hconnect.halted.events f.beforePayload)
  have hpayload := hpayload.trans (hpayload.halted.pollPayloadLifecycle f.env)
  have hhealth := hpayload.trans (hpayload.halted.events f.beforeHealth)
  have hhealth : s.Halts (s.frameHealth f) :=
    hhealth.trans (hhealth.halted.pollSessionHealth f.env)
  have hreconnect := hhealth.trans (hhealth.halted.events f.beforeReconnect)
  have hlast := hreconnect.trans (hreconnect.halted.events f.beforeRestore)
  have hframe : s.frame f =
      ((s.frameHealth f).events f.beforeReconnect).events f.beforeRestore := by
    rw [Shell.frame, Halted.pollReconnect hreconnect.halted,
      Halted.pollRestoreSession hlast.halted]
  rw [hframe]
  exact hlast

/-! ## The user -/

theorem attempts_cancelConnect (s : Shell) :
    s.cancelConnect.attempts = s.attempts ∧ s.cancelConnect.adoptions = s.adoptions := by
  unfold Shell.cancelConnect
  split
  · exact ⟨rfl, rfl⟩
  · obtain ⟨requested, generation, heq⟩ := cancelAttempt_spec s
    rw [heq]
    exact ⟨rfl, rfl⟩

theorem halted_cancelConnect (h : s.connectSequencePending = true) : s.cancelConnect.Halted := by
  have hcancelled : s.connectPending = true → s.cancelAttempt.stopReconnect.cancelled = true :=
    fun hp => cancelled_cancelAttempt hp
  unfold Shell.cancelConnect
  rw [if_neg (by rw [h]; exact nofun)]
  obtain ⟨requested, generation, heq⟩ := cancelAttempt_spec s
  rw [heq] at hcancelled ⊢
  exact ⟨rfl, rfl, rfl, fun _ => rfl, rfl, hcancelled⟩

theorem Halted.cancelConnect (h : s.Halted) : s.Halts s.cancelConnect := by
  refine ⟨?_, (attempts_cancelConnect s).1, (attempts_cancelConnect s).2⟩
  by_cases hpending : s.connectSequencePending = true
  · exact halted_cancelConnect hpending
  · rw [Shell.cancelConnect, if_pos (Bool.not_eq_true _ ▸ hpending)]
    exact h

theorem Halted.requestPayloadInject (h : s.Halted) (env : FrameEnv) :
    s.Halts (s.requestPayloadInject env false) := by
  unfold Shell.requestPayloadInject
  split
  · exact h.refl
  split
  · exact h.refl
  split
  · exact h.refl
  · exact ⟨⟨h.manual, h.phase, h.waiting, fun _ => rfl, h.retry, h.attempt⟩, rfl, rfl⟩

theorem Halted.selectProcess (h : s.Halted) (row : Nat) : s.Halts (s.selectProcess row) := by
  unfold Shell.selectProcess
  split
  · exact h.refl
  · exact ⟨⟨h.manual, h.phase, h.waiting, h.inject, h.retry, h.attempt⟩, rfl, rfl⟩

theorem Halted.refreshProcesses (h : s.Halted) (result : Option (List ProcessEntry)) :
    s.Halts (s.refreshProcesses result) := by
  unfold Shell.refreshProcesses
  split
  · split
    · exact ⟨⟨h.manual, h.phase, h.waiting, h.inject, h.retry, h.attempt⟩, rfl, rfl⟩
    · exact ⟨⟨h.manual, h.phase, h.waiting, h.inject, h.retry, h.attempt⟩, rfl, rfl⟩
  · exact h.refl

end Shell

/-! ## Runs -/

def Step.asks : Step → Bool
  | .frame _ => false
  | .user u => u.asks

namespace Desktop

variable {d : Desktop}

/-- Once the user has stopped the session the phase is `Disconnected`, and a step with which no
connection is asked for starts and adopts nothing. -/
def Final (d : Desktop) (l : Step) : Prop :=
  d.stopped = true → d.shell.phase = .disconnected ∧ (l.asks = false →
    (d.step l).shell.attempts = d.shell.attempts ∧ (d.step l).shell.adoptions = d.shell.adoptions)

/-- The user only stops a connect sequence that is pending, by cancelling it. -/
def CancelsOnly (d : Desktop) : Step → Prop
  | .user .disconnect => False
  | .user .cancel => d.shell.connectSequencePending = true ∨ d.stopped = true
  | _ => True

theorem halts_step (h : d.shell.Halted) {l : Step} (hl : d.CancelsOnly l) (hasks : l.asks = false) :
    d.shell.Halts (d.step l).shell := by
  cases l with
  | frame f => exact h.frame f
  | user u =>
    cases u with
    | connect => cases hasks
    | disconnect => exact hl.elim
    | cancel => exact h.cancelConnect
    | inject env connectAfter =>
      have hafter : connectAfter = false := hasks
      rw [hafter]
      exact h.requestPayloadInject env
    | selectProcess row => exact h.selectProcess row
    | refreshProcesses result => exact h.refreshProcesses result

theorem halted_step (h : d.stopped = true → d.shell.Halted) {l : Step} (hl : d.CancelsOnly l)
    (hstopped : (d.step l).stopped = true) : (d.step l).shell.Halted := by
  by_cases hasks : l.asks = false
  · by_cases hd : d.stopped = true
    · exact (halts_step (h hd) hl hasks).halted
    · cases l with
      | frame f => exact absurd hstopped hd
      | user u =>
        cases u with
        | connect => cases hasks
        | disconnect => exact hl.elim
        | cancel => exact Shell.halted_cancelConnect (hl.resolve_right hd)
        | inject env connectAfter => exact absurd (Bool.and_eq_true_iff.mp hstopped).1 hd
        | selectProcess row => exact absurd (Bool.and_eq_true_iff.mp hstopped).1 hd
        | refreshProcesses result => exact absurd (Bool.and_eq_true_iff.mp hstopped).1 hd
  · cases l with
    | frame f => exact absurd rfl hasks
    | user u =>
      cases u with
      | connect => exact absurd (Bool.and_eq_true_iff.mp hstopped).2 nofun
      | disconnect => exact hl.elim
      | cancel => exact absurd rfl hasks
      | inject env connectAfter =>
        have hafter : connectAfter = true := Bool.not_eq_false _ ▸ hasks
        rw [hafter] at hstopped
        exact absurd (Bool.and_eq_true_iff.mp hstopped).2 nofun
      | selectProcess row => exact absurd rfl hasks
      | refreshProcesses result => exact absurd rfl hasks

/-- In a run in which the user stops connect sequences by cancelling them, a stop is final. -/
theorem final_of_runs {autoInject : Bool} {steps : List Step}
    (h : Runs CancelsOnly (init autoInject) steps d) {l : Step} (hl : d.CancelsOnly l) :
    d.Final l := by
  have hhalted : d.stopped = true → d.shell.Halted := by
    refine h.invariant (P := fun d => d.stopped = true → d.shell.Halted) ?_ nofun
    intro d l d' hd hl heq
    cases heq
    exact halted_step hd hl
  intro hstopped
  refine ⟨(hhalted hstopped).phase, fun hasks => ?_⟩
  have hhalts := halts_step (hhalted hstopped) hl hasks
  exact ⟨hhalts.attempts, hhalts.adoptions⟩

def cancelledConnect : List Step := [.user .connect, .user .cancel]

theorem runs_cancelledConnect :
    Runs CancelsOnly (init false) cancelledConnect (behind cancelledConnect) :=
  .cons trivial rfl (.cons (.inl rfl) rfl (.nil _))

theorem final_cancelledConnect :
    (behind cancelledConnect).Final (.frame (quietFrame 0 [.connectDone (some 1)])) :=
  final_of_runs runs_cancelledConnect trivial

def injectedAndDisconnected : List Step :=
  [.user (.inject { (quietFrame 0 []).env with payloadCached := true } true),
    .frame (quietFrame 0 [.injectDone true]), .user .disconnect]

theorem final_fails : ¬ ∀ autoInject steps d l,
    Runs (fun _ _ => True) (init autoInject) steps d → d.Final l := by
  intro h
  have hrun : Runs (fun _ _ => True) (init false) injectedAndDisconnected
      (behind injectedAndDisconnected) :=
    .cons trivial rfl (.cons trivial rfl (.cons trivial rfl (.nil _)))
  have hfinal := h false injectedAndDisconnected _ (.frame (quietFrame 1000 [])) hrun rfl
  have hattempts : (1 : Nat) = 0 := (hfinal.2 rfl).1
  cases hattempts

end Desktop

end MemDbg.Frontend
