import MemDbg.Frontend.Shell
import MemDbg.Lib.Transition
import Mathlib.Order.Nat

/-!
# Asynchronous requests across connections

Every feature of the shell has one future, one buffer its tasks write and one epoch it compares
with that of the connection when a result is taken.  Losing the connection clears the flags of the
requests that are pending, not the requests: a task may still be running when the next one is
launched.
-/

namespace MemDbg.Frontend

open Function Lib

inductive Feature where
  | telemetry
  | mapRefresh
  | prefetch
  | scanner
  | tracer
  | tracerStatus
  | tracerEvents
  | restore
deriving DecidableEq

structure Slot where
  pending : Bool
  epoch : Nat
  future : Future Bool
  launchedIn : Nat
  buffered : Nat
deriving DecidableEq

def Slot.fresh : Slot := ⟨false, 0, .invalid, 0, 0⟩

inductive Race where
  | running
  | overtaken
deriving DecidableEq

namespace Slot

def owned (s : Slot) : Bool := decide (s.future = .running)

def launch (s : Slot) (now : Nat) (captures : Bool) (race : Race) : Slot where
  pending := true
  epoch := if captures then now else s.epoch
  future := if s.owned ∧ race = .overtaken then .ready true else .running
  launchedIn := now
  buffered := if s.owned then s.launchedIn else s.buffered

def complete (s : Slot) (ok : Bool) : Slot :=
  if s.owned then
    { s with future := .ready ok, buffered := if ok then s.launchedIn else s.buffered }
  else s

def quiesce (s : Slot) (clears : Bool) : Slot :=
  { s with pending := s.pending && !clears, future := s.future.drain }

def taken (s : Slot) : Slot := { s with pending := false, future := .invalid }

def result (s : Slot) (buffers : Bool) : Option Nat :=
  match s.pending, s.future with
  | true, .ready ok => some (if ok && buffers then s.buffered else s.launchedIn)
  | _, _ => none

end Slot

structure Requests where
  pool : Pool
  epoch : Nat
  attempt : Option ConnectIntent
  restoring : Bool
  slot : Feature → Slot
  detachPending : Bool
  detachRequested : Bool
  stored : List Nat
  overrun : Bool

def Feature.quiesced : Feature → Bool
  | telemetry => true
  | mapRefresh => true
  | prefetch => true
  | scanner => true
  | _ => false

def Feature.traces : Feature → Bool
  | tracer => true
  | tracerStatus => true
  | tracerEvents => true
  | _ => false

def Feature.buffers (f : Feature) : Bool := decide (f ≠ tracer)

namespace Requests

def init : Requests where
  pool := ⟨false, none⟩
  epoch := 0
  attempt := none
  restoring := false
  slot _ := .fresh
  detachPending := false
  detachRequested := false
  stored := []
  overrun := false

def clientAsyncBusy (u : Requests) : Bool :=
  u.attempt.isSome || (u.slot .telemetry).pending || (u.slot .scanner).pending ||
    (u.slot .mapRefresh).pending || (u.slot .tracer).pending || (u.slot .tracerStatus).pending ||
    (u.slot .tracerEvents).pending || (u.slot .prefetch).pending

def launch (u : Requests) (f : Feature) (captures : Bool) (race : Race) : Requests :=
  { u with
    slot := update u.slot f ((u.slot f).launch u.epoch captures race)
    overrun := u.overrun || (u.slot f).owned }

def take (u : Requests) (f : Feature) (rejects : Bool) : Requests :=
  match (u.slot f).result f.buffers with
  | none => u
  | some e =>
    { u with
      slot := update u.slot f (u.slot f).taken
      stored := if rejects then u.stored else e :: u.stored }

def stale (u : Requests) (f : Feature) : Bool := decide ((u.slot f).epoch ≠ u.epoch)

/-! ## Requests and their pollers -/

def request (u : Requests) (f : Feature) (captures : Bool) (race : Race) : Requests :=
  if (u.slot f).pending then u
  else if u.pool.clientConnected = false then u
  else u.launch f captures race

def requestTelemetryAsync (u : Requests) (race : Race) : Requests := u.request .telemetry true race

def pollTelemetry (u : Requests) : Requests := u.take .telemetry (u.stale .telemetry)

def requestMapsRefreshAsync (u : Requests) (race : Race) : Requests :=
  if (u.slot .mapRefresh).pending then u
  else if u.attempt.isSome then u
  else if u.pool.clientConnected = false then u
  else if (u.slot .mapRefresh).owned then u
  else u.launch .mapRefresh true race

def pollMapRefresh (u : Requests) (samePid : Bool) : Requests :=
  u.take .mapRefresh (u.stale .mapRefresh || !samePid)

def startTaskmgrPrefetch (u : Requests) (race : Race) : Requests := u.request .prefetch true race

def pollTaskmgrPrefetch (u : Requests) : Requests := u.take .prefetch (u.stale .prefetch)

def scanRange (u : Requests) (race : Race) : Requests := u.request .scanner true race

def runAobScan (u : Requests) (race : Race) : Requests := u.request .scanner false race

def pollScannerAsync (u : Requests) : Requests := u.take .scanner (u.stale .scanner)

def pollAobAsync (u : Requests) : Requests := u.take .scanner false

def requestTracerAttachAsync (u : Requests) (race : Race) : Requests :=
  if (u.slot .tracer).pending || u.detachPending then u
  else if u.pool.clientConnected = false then u
  else if u.clientAsyncBusy then u
  else { u with detachRequested := false }.launch .tracer true race

def requestTracerDetachAsync (u : Requests) (race : Race) : Requests :=
  if u.detachPending then u
  else if (u.slot .tracer).pending then { u with detachRequested := true }
  else if u.pool.clientConnected = false then u
  else { u with detachPending := true, detachRequested := false }.launch .tracer true race

def pollTracerAttach (u : Requests) (race : Race) : Requests :=
  match (u.slot .tracer).result Feature.tracer.buffers with
  | none => u
  | some _ =>
    let polled := { u with detachPending := false }.take .tracer (u.stale .tracer)
    if u.stale .tracer = false ∧ u.detachPending = false ∧ u.detachRequested = true ∧
        (u.slot .tracer).future = .ready true then
      { polled with detachRequested := false }.requestTracerDetachAsync race
    else polled

def pollTracerNext (u : Requests) (status events : Bool) (race : Race) : Requests :=
  if (u.slot .tracerStatus).pending || (u.slot .tracerEvents).pending then u
  else if status then u.launch .tracerStatus false race
  else if events then u.launch .tracerEvents false race
  else u

def pollTracerSession (u : Requests) (status events : Bool) (race : Race) : Requests :=
  if (u.slot .tracer).pending then u
  else if u.pool.clientConnected = false then u
  else ((u.take .tracerStatus false).take .tracerEvents false).pollTracerNext status events race

def pollTracer (u : Requests) (status events : Bool) (race : Race) : Requests :=
  if ((u.slot .tracer).result Feature.tracer.buffers).isSome ∧ u.stale .tracer = true then
    u.pollTracerAttach race
  else (u.pollTracerAttach race).pollTracerSession status events race

def pollRestoreSession (u : Requests) (race : Race) : Requests :=
  if u.restoring = false then u
  else if u.pool.clientConnected = false then u
  else if (u.slot .restore).pending then u.take .restore (u.stale .restore)
  else u.launch .restore true race

/-! ## The connection -/

def quiesceTransport (u : Requests) : Requests :=
  { u with
    pool := u.pool.cancelAllPendingIo.disconnect.invalidateRoles
    epoch := u.epoch + 1
    restoring := false
    slot := fun f => if f = .restore then u.slot f else (u.slot f).quiesce f.quiesced }

def resetTracer (u : Requests) : Requests :=
  { u with
    slot := fun f => if f.traces then { u.slot f with pending := false } else u.slot f
    detachPending := false
    detachRequested := false }

def resetRestore (u : Requests) : Requests :=
  { u with slot := update u.slot .restore .fresh }

def connectConsole (u : Requests) (intent : ConnectIntent) : Requests :=
  if u.attempt.isSome then u
  else
    match intent with
    | .manualFreshConnection =>
      { { u with pool := u.pool.disconnect }.quiesceTransport.resetTracer with
        attempt := some intent }
    | .automaticReconnect => { u.quiesceTransport with attempt := some intent }

def disconnectConsole (u : Requests) : Requests :=
  { u.quiesceTransport.resetTracer with
    pool := u.quiesceTransport.pool.disconnect
    attempt := none }

def beginReconnect (u : Requests) : Requests :=
  if u.attempt.isSome then u
  else
    { u with
      pool := u.pool.cancelAllPendingIo.disconnect.invalidateRoles
      epoch := u.epoch + 1
      restoring := false }.resetRestore

def adopt (u : Requests) (prefetchOnConnect : Bool) (race : Race) : Requests :=
  match u.attempt with
  | none => u
  | some .manualFreshConnection =>
    if prefetchOnConnect then
      { u with pool := u.pool.setControl true, attempt := none }.startTaskmgrPrefetch race
    else { u with pool := u.pool.setControl true, attempt := none }
  | some .automaticReconnect =>
    { u.resetTracer.resetRestore with
      pool := u.pool.replaceControl.invalidateRoles
      epoch := u.epoch + 1
      attempt := none
      restoring := true }

end Requests

/-! ## Runs -/

/-- A step of a run. -/
inductive RequestStep where
  | requestTelemetry (race : Race)
  | requestMapsRefresh (race : Race)
  | scanRange (race : Race)
  | runAobScan (race : Race)
  | requestTracerAttach (race : Race)
  | requestTracerDetach (race : Race)
  | complete (f : Feature) (ok : Bool)
  | pollTelemetry
  | pollMapRefresh (samePid : Bool)
  | pollTaskmgrPrefetch
  | pollScanner
  | pollAob
  | pollTracer (status events : Bool) (race : Race)
  | pollRestoreSession (race : Race)
  | restored
  | controlLost
  | beginReconnect
  | connectConsole (intent : ConnectIntent)
  | disconnectConsole
  | connectFailed
  | connected (prefetchOnConnect : Bool) (race : Race)
deriving DecidableEq

namespace Requests

def apply (u : Requests) : RequestStep → Requests
  | .requestTelemetry race => u.requestTelemetryAsync race
  | .requestMapsRefresh race => u.requestMapsRefreshAsync race
  | .scanRange race => u.scanRange race
  | .runAobScan race => u.runAobScan race
  | .requestTracerAttach race => u.requestTracerAttachAsync race
  | .requestTracerDetach race => u.requestTracerDetachAsync race
  | .complete f ok => { u with slot := update u.slot f ((u.slot f).complete ok) }
  | .pollTelemetry => u.pollTelemetry
  | .pollMapRefresh samePid => u.pollMapRefresh samePid
  | .pollTaskmgrPrefetch => u.pollTaskmgrPrefetch
  | .pollScanner => u.pollScannerAsync
  | .pollAob => u.pollAobAsync
  | .pollTracer status events race => u.pollTracer status events race
  | .pollRestoreSession race => u.pollRestoreSession race
  | .restored => { u with restoring := false }
  | .controlLost => { u with pool := u.pool.disconnect }
  | .beginReconnect => u.beginReconnect
  | .connectConsole intent => u.connectConsole intent
  | .disconnectConsole => u.disconnectConsole
  | .connectFailed => { u with attempt := none }
  | .connected prefetchOnConnect race => u.adopt prefetchOnConnect race

def step (u : Requests) (l : RequestStep) : Requests :=
  { u with stored := [], overrun := false }.apply l

/-! ## The invariant -/

end Requests

namespace Slot

variable {s : Slot} {now : Nat}

structure Tidy (s : Slot) (now : Nat) : Prop where
  buffered : s.future = .ready true → s.buffered = s.launchedIn
  captured : s.epoch ≤ s.launchedIn
  past : s.launchedIn ≤ now

theorem Tidy.mono (h : s.Tidy now) {later : Nat} (hle : now ≤ later) : s.Tidy later :=
  ⟨h.buffered, h.captured, h.past.trans hle⟩

theorem tidy_fresh : Slot.fresh.Tidy now := ⟨nofun, le_rfl, Nat.zero_le now⟩

theorem launch_of_free (hfree : s.owned = false) (captures : Bool) (race : Race) :
    s.launch now captures race =
      ⟨true, if captures then now else s.epoch, .running, now, s.buffered⟩ := by
  rw [launch, hfree]
  rfl

theorem Tidy.launch (h : s.Tidy now) (hfree : s.owned = false) (captures : Bool) (race : Race) :
    (s.launch now captures race).Tidy now := by
  rw [launch_of_free hfree]
  refine ⟨nofun, ?_, le_rfl⟩
  cases captures with
  | true => exact le_rfl
  | false => exact h.captured.trans h.past

theorem Tidy.complete (h : s.Tidy now) (ok : Bool) : (s.complete ok).Tidy now := by
  unfold Slot.complete
  split
  · refine ⟨fun hready => ?_, h.captured, h.past⟩
    cases hready
    rfl
  · exact h

theorem Tidy.quiesce (h : s.Tidy now) (clears : Bool) : (s.quiesce clears).Tidy now := by
  refine ⟨fun hready => ?_, h.captured, h.past⟩
  have hdrained : s.future.drain = .ready true := hready
  cases hfuture : s.future <;> rw [hfuture] at hdrained <;> cases hdrained

theorem Tidy.withPending (h : s.Tidy now) (pending : Bool) :
    Tidy { s with pending := pending } now :=
  ⟨h.buffered, h.captured, h.past⟩

theorem Tidy.taken (h : s.Tidy now) : s.taken.Tidy now := ⟨nofun, h.captured, h.past⟩

theorem Tidy.result (h : s.Tidy now) {buffers : Bool} {e : Nat} (he : s.result buffers = some e) :
    e = s.launchedIn := by
  unfold Slot.result at he
  split at he
  · rename_i ok _ hready
    cases ok with
    | true =>
      cases buffers with
      | true => exact (Option.some.inj he).symm.trans (h.buffered hready)
      | false => exact (Option.some.inj he).symm
    | false => exact (Option.some.inj he).symm
  · cases he

theorem Tidy.current (h : s.Tidy now) (hepoch : s.epoch = now) : s.launchedIn = now :=
  le_antisymm h.past (hepoch ▸ h.captured)

theorem owned_quiesce (clears : Bool) : (s.quiesce clears).owned = s.owned := by
  unfold owned quiesce
  cases s.future <;> rfl

theorem owned_complete (ok : Bool) : (s.complete ok).owned = false := by
  unfold complete
  split
  · rfl
  · rename_i hfree
    exact Bool.not_eq_true _ ▸ hfree

end Slot

namespace Requests

variable {u : Requests}

def Unchecked (f : Feature) : Prop := f = .tracerStatus ∨ f = .tracerEvents

structure Sound (u : Requests) : Prop where
  tidy : ∀ f, (u.slot f).Tidy u.epoch
  held : ∀ f, f ≠ .mapRefresh → (u.slot f).owned = true → (u.slot f).pending = true
  bound : u.pool.replacement.isSome = true → u.pool.first = false
  attempt : u.attempt = some .manualFreshConnection →
    u.pool.first = false ∧ ∀ f, Unchecked f → (u.slot f).pending = false
  tracing : u.pool.first = true → ∀ f, Unchecked f → (u.slot f).pending = true →
    (u.slot f).launchedIn = u.epoch

/-- Every result that has been stored is of the epoch of the connection, and no task has been
launched into a slot that was owned. -/
structure Clean (u : Requests) : Prop where
  stored : ∀ e ∈ u.stored, e = u.epoch
  overrun : u.overrun = false

theorem Sound.current (h : u.Sound) {f : Feature} (hfresh : u.stale f = false) :
    (u.slot f).launchedIn = u.epoch :=
  (h.tidy f).current (not_not.mp (of_decide_eq_false hfresh))

theorem Sound.update {v : Requests} (h : u.Sound) (f : Feature) {s : Slot}
    (hslot : v.slot = update u.slot f s) (hpool : v.pool = u.pool)
    (hepoch : v.epoch = u.epoch) (hattempt : v.attempt = u.attempt) (htidy : s.Tidy u.epoch)
    (hheld : f ≠ .mapRefresh → s.owned = true → s.pending = true)
    (hclosed : Unchecked f → u.attempt = some .manualFreshConnection → s.pending = false)
    (hcurrent : Unchecked f → u.pool.first = true → s.pending = true → s.launchedIn = u.epoch) :
    v.Sound := by
  have hself : v.slot f = s := by rw [hslot, update_self]
  have hsame : ∀ g, g ≠ f → v.slot g = u.slot g := fun g hg => by rw [hslot, update_of_ne hg]
  refine ⟨fun g => ?_, fun g hg => ?_, hpool ▸ h.bound, fun hmanual => ?_, fun hfirst g hg => ?_⟩
  · rw [hepoch]
    by_cases hgf : g = f
    · rw [hgf, hself]
      exact htidy
    · rw [hsame g hgf]
      exact h.tidy g
  · by_cases hgf : g = f
    · rw [hgf, hself]
      exact hheld (hgf ▸ hg)
    · rw [hsame g hgf]
      exact h.held g hg
  · obtain ⟨hfirst, hidle⟩ := h.attempt (hattempt ▸ hmanual)
    refine ⟨hpool ▸ hfirst, fun g hg => ?_⟩
    by_cases hgf : g = f
    · rw [hgf, hself]
      exact hclosed (hgf ▸ hg) (hattempt ▸ hmanual)
    · rw [hsame g hgf]
      exact hidle g hg
  · rw [hpool] at hfirst
    rw [hepoch]
    by_cases hgf : g = f
    · rw [hgf, hself]
      exact hcurrent (hgf ▸ hg) hfirst
    · rw [hsame g hgf]
      exact h.tracing hfirst g hg

theorem Sound.launch (h : u.Sound) {f : Feature} (hfree : (u.slot f).owned = false)
    (hopen : Unchecked f → u.pool.first = true) (captures : Bool) (race : Race) :
    (u.launch f captures race).Sound :=
  h.update f rfl rfl rfl rfl ((h.tidy f).launch hfree captures race) (fun _ _ => rfl)
    (fun hf hmanual => absurd ((h.attempt hmanual).1.symm.trans (hopen hf)) nofun) fun _ _ _ => rfl

theorem Clean.launch (h : u.Clean) {f : Feature} (hfree : (u.slot f).owned = false)
    (captures : Bool)
    (race : Race) : (u.launch f captures race).Clean := by
  refine ⟨h.stored, ?_⟩
  change (u.overrun || (u.slot f).owned) = false
  rw [h.overrun, hfree]
  rfl

theorem take_cases (u : Requests) (f : Feature) (rejects : Bool) :
    u.take f rejects = u ∨ ∃ e, (u.slot f).result f.buffers = some e ∧ u.take f rejects =
      { u with
        slot := update u.slot f (u.slot f).taken
        stored := if rejects then u.stored else e :: u.stored } := by
  unfold take
  split
  · exact .inl rfl
  · rename_i e he
    exact .inr ⟨e, he, rfl⟩

theorem Sound.take (h : u.Sound) (f : Feature) (rejects : Bool) : (u.take f rejects).Sound := by
  rcases take_cases u f rejects with heq | ⟨e, -, heq⟩
  · rw [heq]
    exact h
  · rw [heq]
    exact h.update f rfl rfl rfl rfl (h.tidy f).taken (fun _ => nofun)
      (fun _ _ => rfl) fun _ _ => nofun

theorem Clean.take (h : u.Clean) (hs : u.Sound) {f : Feature} {rejects : Bool}
    (hcurrent : rejects = false → ∀ e, (u.slot f).result f.buffers = some e →
      (u.slot f).launchedIn = u.epoch) : (u.take f rejects).Clean := by
  rcases take_cases u f rejects with heq | ⟨e, he, heq⟩
  · rw [heq]
    exact h
  · rw [heq]
    refine ⟨?_, h.overrun⟩
    cases rejects with
    | true => exact h.stored
    | false =>
      intro e' he'
      rcases List.mem_cons.mp he' with rfl | hmem
      · exact ((hs.tidy f).result he).trans (hcurrent rfl e' he)
      · exact h.stored e' hmem

structure Fine (u : Requests) : Prop where
  sound : u.Sound
  clean : u.Clean

theorem Fine.launch (h : u.Fine) {f : Feature} (hfree : (u.slot f).owned = false)
    (hopen : Unchecked f → u.pool.first = true) (captures : Bool) (race : Race) :
    (u.launch f captures race).Fine :=
  ⟨h.sound.launch hfree hopen captures race, h.clean.launch hfree captures race⟩

theorem Fine.take (h : u.Fine) {f : Feature} {rejects : Bool}
    (hcurrent : rejects = false → ∀ e, (u.slot f).result f.buffers = some e →
      (u.slot f).launchedIn = u.epoch) : (u.take f rejects).Fine :=
  ⟨h.sound.take f rejects, h.clean.take h.sound hcurrent⟩

theorem Fine.takeChecked (h : u.Fine) {f : Feature} {rejects : Bool}
    (hrejects : u.stale f = true → rejects = true) : (u.take f rejects).Fine := by
  refine h.take fun hnot _ _ => h.sound.current ?_
  by_contra hstale
  exact absurd (hnot.symm.trans (hrejects (Bool.not_eq_false _ ▸ hstale))) nofun

theorem Sound.free (h : u.Sound) {f : Feature} (hf : f ≠ .mapRefresh)
    (hidle : ¬(u.slot f).pending = true) : (u.slot f).owned = false := by
  by_contra howned
  exact hidle (h.held f hf (Bool.not_eq_false _ ▸ howned))

/-! ## Requests and pollers -/

theorem Fine.request (h : u.Fine) {f : Feature} (hf : f ≠ .mapRefresh) (captures : Bool)
    (race : Race) : (u.request f captures race).Fine := by
  unfold Requests.request
  split
  · exact h
  · rename_i hidle
    split
    · exact h
    · rename_i hconnected
      exact h.launch (h.sound.free hf hidle) (fun _ => Bool.not_eq_false _ ▸ hconnected)
        captures race

theorem Fine.requestMapsRefreshAsync (h : u.Fine) (race : Race) :
    (u.requestMapsRefreshAsync race).Fine := by
  unfold Requests.requestMapsRefreshAsync
  split
  · exact h
  split
  · exact h
  split
  · exact h
  split
  · exact h
  · rename_i hconnected hfree
    exact h.launch (Bool.not_eq_true _ ▸ hfree) (fun _ ↦ Bool.not_eq_false _ ▸ hconnected) true race

theorem Fine.withDetach (h : u.Fine) (pending requested : Bool) :
    Fine { u with detachPending := pending, detachRequested := requested } :=
  ⟨⟨h.sound.tidy, h.sound.held, h.sound.bound, h.sound.attempt, h.sound.tracing⟩,
    h.clean.stored, h.clean.overrun⟩

theorem Fine.requestTracerAttachAsync (h : u.Fine) (race : Race) :
    (u.requestTracerAttachAsync race).Fine := by
  unfold Requests.requestTracerAttachAsync
  split
  · exact h
  · rename_i hidle
    split
    · exact h
    split
    · exact h
    · have hidle : ¬(u.slot .tracer).pending = true := fun hp => hidle (by rw [hp, Bool.true_or])
      have hfree := h.sound.free (f := .tracer) nofun hidle
      exact (h.withDetach u.detachPending false).launch hfree (fun hf => hf.elim nofun nofun)
        true race

theorem Fine.requestTracerDetachAsync (h : u.Fine) (race : Race) :
    (u.requestTracerDetachAsync race).Fine := by
  unfold Requests.requestTracerDetachAsync
  split
  · exact h
  split
  · exact h.withDetach u.detachPending true
  · rename_i hidle
    split
    · exact h
    · have hfree := h.sound.free (f := .tracer) nofun hidle
      exact (h.withDetach true false).launch hfree (fun hf => hf.elim nofun nofun) true race

theorem Fine.pollTracerAttach (h : u.Fine) (race : Race) : (u.pollTracerAttach race).Fine := by
  unfold Requests.pollTracerAttach
  split
  · exact h
  · have hpolled : ({ u with detachPending := false }.take .tracer (u.stale .tracer)).Fine :=
      (h.withDetach false u.detachRequested).takeChecked id
    split
    · exact (hpolled.withDetach _ false).requestTracerDetachAsync race
    · exact hpolled

theorem Fine.takeUnchecked (h : u.Fine) (hfirst : u.pool.first = true) {f : Feature}
    (hf : Unchecked f) : (u.take f false).Fine := by
  refine h.take fun _ e he => h.sound.tracing hfirst f hf ?_
  unfold Slot.result at he
  split at he
  · assumption
  · cases he

theorem pool_take (u : Requests) (f : Feature) (rejects : Bool) :
    (u.take f rejects).pool = u.pool := by
  rcases take_cases u f rejects with heq | ⟨e, -, heq⟩
  · rw [heq]
  · rw [heq]

theorem Fine.pollTracerNext (h : u.Fine) (hfirst : u.pool.first = true) (status events : Bool)
    (race : Race) : (u.pollTracerNext status events race).Fine := by
  unfold Requests.pollTracerNext
  split
  · exact h
  · rename_i hidle
    obtain ⟨hstatus, hevents⟩ := Bool.or_eq_false_iff.mp (Bool.not_eq_true _ ▸ hidle)
    have hfree : ∀ f, f ≠ .mapRefresh → (u.slot f).pending = false → (u.slot f).owned = false :=
      fun f hf hidle => h.sound.free hf fun hp => absurd (hidle.symm.trans hp) nofun
    split
    · exact h.launch (hfree .tracerStatus nofun hstatus) (fun _ => hfirst) false race
    split
    · exact h.launch (hfree .tracerEvents nofun hevents) (fun _ => hfirst) false race
    · exact h

theorem Fine.pollTracerSession (h : u.Fine) (status events : Bool) (race : Race) :
    (u.pollTracerSession status events race).Fine := by
  unfold Requests.pollTracerSession
  split
  · exact h
  split
  · exact h
  · rename_i hconnected
    have hfirst : u.pool.first = true := Bool.not_eq_false _ ▸ hconnected
    have hstatus := h.takeUnchecked hfirst (.inl rfl)
    have hopen : (u.take .tracerStatus false).pool.first = true := by
      rw [pool_take]
      exact hfirst
    have hevents := hstatus.takeUnchecked hopen (.inr rfl)
    refine hevents.pollTracerNext ?_ status events race
    rw [pool_take]
    exact hopen

theorem Fine.pollTracer (h : u.Fine) (status events : Bool) (race : Race) :
    (u.pollTracer status events race).Fine := by
  unfold Requests.pollTracer
  split
  · exact h.pollTracerAttach race
  · exact (h.pollTracerAttach race).pollTracerSession status events race

theorem Fine.pollRestoreSession (h : u.Fine) (race : Race) : (u.pollRestoreSession race).Fine := by
  unfold Requests.pollRestoreSession
  split
  · exact h
  split
  · exact h
  split
  · exact h.takeChecked id
  · rename_i hidle
    have hfree := h.sound.free (f := .restore) nofun hidle
    exact h.launch hfree (fun hf => hf.elim nofun nofun) true race

theorem Fine.complete (h : u.Fine) (f : Feature) (ok : Bool) :
    Fine { u with slot := update u.slot f ((u.slot f).complete ok) } := by
  have hpending : ((u.slot f).complete ok).pending = (u.slot f).pending := by
    unfold Slot.complete
    split <;> rfl
  have hlaunched : ((u.slot f).complete ok).launchedIn = (u.slot f).launchedIn := by
    unfold Slot.complete
    split <;> rfl
  refine ⟨h.sound.update f rfl rfl rfl rfl ((h.sound.tidy f).complete ok) (fun _ howned => ?_)
    (fun hf hmanual => ?_) fun hf hfirst hp => ?_, h.clean.stored, h.clean.overrun⟩
  · rw [Slot.owned_complete] at howned
    cases howned
  · rw [hpending]
    exact (h.sound.attempt hmanual).2 f hf
  · rw [hlaunched]
    exact h.sound.tracing hfirst f hf (hpending ▸ hp)

/-! ## The connection -/

theorem closed_setControl {p : Pool} (h : p.replacement.isSome = true → p.first = false) :
    (p.setControl false).first = false ∧
      ((p.setControl false).replacement.isSome = true → (p.setControl false).first = false) := by
  have hclosed : (p.setControl false).first = false := by
    unfold Pool.setControl
    split
    · rfl
    · rename_i hreplaced
      exact h (by rw [hreplaced]; rfl)
  exact ⟨hclosed, fun _ => hclosed⟩

def Released (u : Requests) (f : Feature) : Prop :=
  (u.slot f).pending = true → (u.slot f).owned = false

theorem Sound.free_of_released (h : u.Sound) {f : Feature} (hf : f ≠ .mapRefresh)
    (hreleased : u.Released f) : (u.slot f).owned = false := by
  by_contra howned
  exact howned (hreleased (h.held f hf (Bool.not_eq_false _ ▸ howned)))

theorem Sound.quiesceTransport (h : u.Sound)
    (hreleased : ∀ f, f.quiesced = true → f ≠ .mapRefresh → u.Released f) :
    u.quiesceTransport.Sound ∧ u.quiesceTransport.pool.first = false := by
  obtain ⟨-, hbound⟩ := closed_setControl h.bound
  obtain ⟨-, hbound⟩ := closed_setControl hbound
  obtain ⟨hclosed, hbound⟩ := closed_setControl hbound
  have hslot : ∀ f, u.quiesceTransport.slot f =
      if f = .restore then u.slot f else (u.slot f).quiesce f.quiesced := fun _ => rfl
  refine ⟨⟨fun f => ?_, fun f hf howned => ?_, hbound, fun hmanual => ⟨hclosed, fun f hf => ?_⟩,
    fun hfirst => absurd (hclosed.symm.trans hfirst) nofun⟩, hclosed⟩
  · have htidy : (u.slot f).Tidy (u.epoch + 1) := (h.tidy f).mono (Nat.le_succ _)
    rw [hslot]
    split
    · exact htidy
    · exact htidy.quiesce _
  · rw [hslot] at howned ⊢
    split at howned
    · rename_i hrestore
      rw [if_pos hrestore]
      exact h.held f hf howned
    · rename_i hrestore
      rw [Slot.owned_quiesce] at howned
      have hpending := h.held f hf howned
      have hkept : f.quiesced = false := by
        by_contra hquiesced
        have hfree := hreleased f (Bool.not_eq_false _ ▸ hquiesced) hf hpending
        exact absurd (hfree.symm.trans howned) nofun
      rw [if_neg hrestore, hkept]
      change ((u.slot f).pending && true) = true
      rw [hpending]
      rfl
  · rw [hslot]
    split
    · exact (h.attempt hmanual).2 f hf
    · change ((u.slot f).pending && _) = false
      rw [(h.attempt hmanual).2 f hf]
      rfl

theorem Sound.resetTracer (h : u.Sound) (hreleased : ∀ f, f.traces = true → u.Released f) :
    u.resetTracer.Sound ∧ ∀ f, Unchecked f → (u.resetTracer.slot f).pending = false := by
  have hslot : ∀ f, u.resetTracer.slot f =
      if f.traces then { u.slot f with pending := false } else u.slot f := fun _ => rfl
  have hidle : ∀ f, Unchecked f → (u.resetTracer.slot f).pending = false := by
    rintro f (rfl | rfl)
    · rfl
    · rfl
  refine ⟨⟨fun f ↦ ?_, fun f hf howned ↦ ?_, h.bound, fun hmanual ↦ ⟨(h.attempt hmanual).1, hidle⟩,
    fun _ f hf hpending => absurd ((hidle f hf).symm.trans hpending) nofun⟩, hidle⟩
  · rw [hslot]
    split
    · exact (h.tidy f).withPending false
    · exact h.tidy f
  · rw [hslot] at howned ⊢
    split at howned
    · rename_i htraces
      exact absurd ((h.free_of_released hf (hreleased f htraces)).symm.trans howned) nofun
    · rename_i htraces
      rw [if_neg htraces]
      exact h.held f hf howned

theorem Sound.resetRestore (h : u.Sound) : u.resetRestore.Sound :=
  h.update .restore rfl rfl rfl rfl Slot.tidy_fresh (fun _ ↦ nofun) (fun _ _ ↦ rfl) fun _ _ ↦ nofun

theorem Sound.close (h : u.Sound) {pool : Pool} (hclosed : pool.first = false) {epoch : Nat}
    (hepoch : u.epoch ≤ epoch) (restoring : Bool) {attempt : Option ConnectIntent}
    (hattempt : attempt = some .manualFreshConnection → ∀ f, Unchecked f →
    (u.slot f).pending = false) :
    Sound { u with pool := pool, epoch := epoch, restoring := restoring, attempt := attempt } :=
  ⟨fun f => (h.tidy f).mono hepoch, h.held, fun _ => hclosed, fun hmanual =>
    ⟨hclosed, hattempt hmanual⟩,
    fun hfirst => absurd (hclosed.symm.trans hfirst) nofun⟩

theorem Sound.lose (h : u.Sound) : Sound { u with pool := u.pool.disconnect } :=
  h.close (closed_setControl h.bound).1 le_rfl u.restoring fun hmanual => (h.attempt hmanual).2

/-- The flags that are cleared when a connection is torn down are those of no running task; the
scanners that reject nothing poll no scan of an earlier connection. -/
def Spares (u : Requests) : RequestStep → Prop
  | .connectConsole intent => u.attempt = none →
      (∀ f, f.quiesced = true → f ≠ .mapRefresh → u.Released f) ∧
        (intent = .manualFreshConnection → ∀ f, f.traces = true → u.Released f)
  | .disconnectConsole => (∀ f, f.quiesced = true → f ≠ .mapRefresh → u.Released f) ∧
      ∀ f, f.traces = true → u.Released f
  | .connected _ _ => u.attempt = some .automaticReconnect → ∀ f, f.traces = true → u.Released f
  | .pollAob => (u.slot .scanner).pending = true → (u.slot .scanner).owned = false →
      (u.slot .scanner).launchedIn = u.epoch
  | _ => True

theorem released_quiesceTransport {f : Feature} (hf : f.traces = true) (h : u.Released f) :
    u.quiesceTransport.Released f := by
  have hrestore : f ≠ .restore := by
    rintro rfl
    cases hf
  have hslot : u.quiesceTransport.slot f = (u.slot f).quiesce f.quiesced := if_neg hrestore
  intro hpending
  rw [hslot] at hpending ⊢
  rw [Slot.owned_quiesce]
  exact h (Bool.and_eq_true_iff.mp hpending).1

theorem Sound.connectConsole (h : u.Sound) {intent : ConnectIntent}
    (hspared : u.Spares (.connectConsole intent)) : (u.connectConsole intent).Sound := by
  unfold Requests.connectConsole
  split
  · exact h
  · rename_i hidle
    obtain ⟨hquiesced, htraces⟩ := hspared (Option.not_isSome_iff_eq_none.mp hidle)
    cases intent with
    | manualFreshConnection =>
      obtain ⟨hdown, hclosed⟩ := h.lose.quiesceTransport hquiesced
      obtain ⟨hreset, hidle⟩ := hdown.resetTracer fun f hf =>
        released_quiesceTransport hf (htraces rfl f hf)
      exact hreset.close hclosed le_rfl _ fun _ => hidle
    | automaticReconnect =>
      obtain ⟨hdown, hclosed⟩ := h.quiesceTransport hquiesced
      exact hdown.close hclosed le_rfl _ nofun

theorem Sound.disconnectConsole (h : u.Sound) (hspared : u.Spares .disconnectConsole) :
    u.disconnectConsole.Sound := by
  obtain ⟨hdown, -⟩ := h.quiesceTransport hspared.1
  obtain ⟨hreset, -⟩ := hdown.resetTracer fun f hf => released_quiesceTransport hf (hspared.2 f hf)
  exact hreset.close (closed_setControl hdown.bound).1 le_rfl _ nofun

theorem Sound.beginReconnect (h : u.Sound) : u.beginReconnect.Sound := by
  unfold Requests.beginReconnect
  split
  · exact h
  · obtain ⟨-, hbound⟩ := closed_setControl h.bound
    obtain ⟨-, hbound⟩ := closed_setControl hbound
    have hidle : u.attempt = some .manualFreshConnection →
        ∀ f, Unchecked f → (u.slot f).pending = false := fun hmanual => (h.attempt hmanual).2
    have hdown := h.close (closed_setControl hbound).1 (Nat.le_succ u.epoch) false hidle
    exact hdown.resetRestore

theorem Sound.openClient (h : u.Sound) (hmanual : u.attempt = some .manualFreshConnection) :
    Sound { u with pool := u.pool.setControl true, attempt := none } := by
  have hidle := (h.attempt hmanual).2
  refine ⟨h.tidy, h.held, fun hreplaced => ?_, nofun, fun _ f hf hpending => ?_⟩
  · change (u.pool.setControl true).first = false
    unfold Pool.setControl at hreplaced ⊢
    split at hreplaced
    · rename_i hnone
      rw [hnone] at hreplaced
      cases hreplaced
    · rename_i hsome
      exact h.bound (by rw [hsome]; rfl)
  · exact absurd ((hidle f hf).symm.trans hpending) nofun

theorem first_replaceControl (h : u.Sound) :
    u.pool.replaceControl.invalidateRoles.first = false := by
  have hclosed : u.pool.replaceControl.first = false := (closed_setControl h.bound).1
  exact (closed_setControl fun _ => hclosed).1

theorem Fine.adopt (h : u.Fine) (hnew : u.stored = []) {prefetchOnConnect : Bool} {race : Race}
    (hspared : u.Spares (.connected prefetchOnConnect race)) :
    (u.adopt prefetchOnConnect race).Fine := by
  unfold Requests.adopt
  split
  · exact h
  · rename_i hmanual
    have hopen : Fine { u with pool := u.pool.setControl true, attempt := none } :=
      ⟨h.sound.openClient hmanual, h.clean.stored, h.clean.overrun⟩
    split
    · exact hopen.request (f := .prefetch) nofun true race
    · exact hopen
  · rename_i hautomatic
    obtain ⟨hreset, -⟩ := h.sound.resetTracer (hspared hautomatic)
    refine ⟨hreset.resetRestore.close (first_replaceControl h.sound) (Nat.le_succ _) true nofun, ?_,
      h.clean.overrun⟩
    intro e he
    have hnone : e ∈ u.stored := he
    rw [hnew] at hnone
    cases hnone

theorem Sound.step (h : u.Sound) {l : RequestStep} (hspared : u.Spares l) : (u.step l).Fine := by
  have hsound : Sound { u with stored := [], overrun := false } :=
    ⟨h.tidy, h.held, h.bound, h.attempt, h.tracing⟩
  have hfine : Fine { u with stored := [], overrun := false } := ⟨hsound, nofun, rfl⟩
  cases l with
  | requestTelemetry race => exact hfine.request (f := .telemetry) nofun true race
  | requestMapsRefresh race => exact hfine.requestMapsRefreshAsync race
  | scanRange race => exact hfine.request (f := .scanner) nofun true race
  | runAobScan race => exact hfine.request (f := .scanner) nofun false race
  | requestTracerAttach race => exact hfine.requestTracerAttachAsync race
  | requestTracerDetach race => exact hfine.requestTracerDetachAsync race
  | complete f ok => exact hfine.complete f ok
  | pollTelemetry => exact hfine.takeChecked id
  | pollMapRefresh samePid =>
    exact hfine.takeChecked fun hstale => by rw [hstale, Bool.true_or]
  | pollTaskmgrPrefetch => exact hfine.takeChecked id
  | pollScanner => exact hfine.takeChecked id
  | pollAob =>
    refine hfine.take fun _ e he => ?_
    unfold Slot.result at he
    split at he
    · rename_i hpending hready
      refine hspared hpending ?_
      unfold Slot.owned
      rw [hready]
      rfl
    · cases he
  | pollTracer status events race => exact hfine.pollTracer status events race
  | pollRestoreSession race => exact hfine.pollRestoreSession race
  | restored => exact ⟨⟨h.tidy, h.held, h.bound, h.attempt, h.tracing⟩, nofun, rfl⟩
  | controlLost => exact ⟨hsound.lose, nofun, rfl⟩
  | beginReconnect =>
    refine ⟨hsound.beginReconnect, ?_⟩
    change (Requests.beginReconnect _).Clean
    unfold Requests.beginReconnect
    split
    · exact ⟨nofun, rfl⟩
    · exact ⟨nofun, rfl⟩
  | connectConsole intent =>
    refine ⟨hsound.connectConsole hspared, ?_⟩
    change (Requests.connectConsole _ intent).Clean
    unfold Requests.connectConsole
    split
    · exact ⟨nofun, rfl⟩
    · cases intent with
      | manualFreshConnection => exact ⟨nofun, rfl⟩
      | automaticReconnect => exact ⟨nofun, rfl⟩
  | disconnectConsole => exact ⟨hsound.disconnectConsole hspared, nofun, rfl⟩
  | connectFailed => exact ⟨⟨h.tidy, h.held, h.bound, nofun, h.tracing⟩, nofun, rfl⟩
  | connected prefetchOnConnect race => exact hfine.adopt rfl hspared

/-- The runs of the application whose steps all satisfy a guard. -/
abbrev Runs (guard : Requests → RequestStep → Prop) :
    Requests → List RequestStep → Requests → Prop :=
  Run (fun u l => some (u.step l)) guard

theorem fine_init : init.Fine :=
  ⟨⟨fun _ => Slot.tidy_fresh, fun _ _ => nofun, nofun, nofun, nofun⟩, nofun, rfl⟩

/-- In a run that clears the flag of no running task, every result that is stored is of the epoch of
the connection, and no task is launched into a slot that is owned. -/
theorem clean_of_runs {steps : List RequestStep} (h : Runs Spares init steps u) : u.Clean := by
  have hfine : u.Fine := h.invariant (P := Fine)
    (fun _ _ _ hu hspared heq => by
      cases heq
      exact hu.sound.step hspared)
    fine_init
  exact hfine.clean

/-! ### Telemetry and two connections -/

def polled : List RequestStep :=
  [.connectConsole .manualFreshConnection, .connected false .running, .requestTelemetry .running,
    .complete .telemetry true, .pollTelemetry]

def behind (steps : List RequestStep) : Requests := steps.foldl step init

theorem clean_polled : (behind polled).stored = [1] ∧ (behind polled).Clean := by
  refine ⟨rfl, @clean_of_runs _ polled ?_⟩
  refine .cons (fun _ => ⟨fun _ _ _ => nofun, fun _ _ _ => nofun⟩) rfl (.cons nofun rfl ?_)
  exact .cons trivial rfl (.cons trivial rfl (.cons trivial rfl (.nil _)))

def overtaken : List RequestStep :=
  [.connectConsole .manualFreshConnection, .connected false .running, .requestTelemetry .running,
    .disconnectConsole, .connectConsole .manualFreshConnection, .connected false .running,
    .requestTelemetry .overtaken, .pollTelemetry]

theorem clean_fails : ¬ ∀ steps u, Runs (fun _ _ => True) init steps u → u.Clean := by
  intro h
  have hrun : Runs (fun _ _ => True) init overtaken (behind overtaken) :=
    .cons trivial rfl (.cons trivial rfl (.cons trivial rfl (.cons trivial rfl (.cons trivial rfl
      (.cons trivial rfl (.cons trivial rfl (.cons trivial rfl (.nil _))))))))
  have hstored := (h overtaken _ hrun).stored 1 (.head _)
  exact absurd (show (1 : Nat) = 3 from hstored) nofun

end Requests

end MemDbg.Frontend
