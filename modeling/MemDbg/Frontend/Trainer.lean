import MemDbg.Frontend.Recovery

/-!
# The locked entries of the trainer

In every frame, behind the pollers, the trainer writes the entries that are locked.  It asks
whether the session is online and not stale, never whose process the entry was made for: that is
the process selected when it was added, and the entries outlive the connection.
-/

namespace MemDbg.Frontend

open List Lib

structure CheatEntry where
  pid : Nat
  address : Nat
  bytes : List UInt8
  enabled : Bool
  locked : Bool
deriving DecidableEq

structure Write where
  pid : Nat
  address : Nat
  bytes : List UInt8
deriving DecidableEq

structure LockEnv where
  now : Nat
  interval : Nat
  busy : Bool
  batchWrite : Bool
  writable : Nat → Nat → Nat → Bool

def batchWriteMaxItems : Nat := 64

namespace CheatEntry

def target (c : CheatEntry) (selectedPid : Nat) : Nat := if 0 < c.pid then c.pid else selectedPid

def armed (c : CheatEntry) : Bool := c.enabled && c.locked && decide (c.bytes ≠ [])

def write (c : CheatEntry) (pid : Nat) : Write := ⟨pid, c.address, c.bytes⟩

end CheatEntry

def batchWrites (locked : List CheatEntry) (selectedPid pid : Nat) : List (List Write) :=
  let group := locked.filter fun c => c.target selectedPid = pid
  (List.range ((group.length + batchWriteMaxItems - 1) / batchWriteMaxItems)).map fun i =>
    ((group.drop (i * batchWriteMaxItems)).take batchWriteMaxItems).map fun c => c.write pid

def lockedPids (locked : List CheatEntry) (selectedPid : Nat) : List Nat :=
  ((locked.map fun c => c.target selectedPid).filter fun pid => 0 < pid).eraseDups

def applyCheat (env : LockEnv) (selectedPid : Nat) (c : CheatEntry) : List Write :=
  if c.target selectedPid = 0 then []
  else if c.bytes = [] then []
  else if env.writable (c.target selectedPid) c.address c.bytes.length = false then []
  else [c.write (c.target selectedPid)]

/-- The shell, the entries of the trainer and the time of the next write.  The writes of the last
frame and the processes selected or found again since a connection was adopted last are only said
of the past. -/
structure Trainer where
  shell : Shell
  cheats : List CheatEntry
  nextCheatLockTime : Nat
  sent : List Write
  verified : List Nat

inductive TrainerStep where
  | frame (f : UiFrame) (env : LockEnv)
  | user (u : UserAction)
  | refreshDebugger (processes : List ProcessEntry)
  | attach (pid : Nat)
  | addCheat (address : Nat) (bytes : List UInt8) (enabled locked : Bool)
  | upsertScannerCheat (address : Nat) (bytes : List UInt8) (locked : Bool)
  | addPatch (pid address : Nat) (patched : List UInt8)
  | setFlags (row : Nat) (enabled locked : Bool)
  | removeCheat (row : Nat)
  | clearDisabled

def Shell.refreshDebugger (s : Shell) (processes : List ProcessEntry) : Shell :=
  if s.pool.clientConnected then { s with processes := processes } else s

namespace Trainer

def lockedWrites (t : Trainer) (env : LockEnv) : List Write :=
  let locked := t.cheats.filter CheatEntry.armed
  if env.batchWrite then
    ((lockedPids locked t.shell.selectedPid).flatMap
      (batchWrites locked t.shell.selectedPid)).flatten
  else locked.flatMap (applyCheat env t.shell.selectedPid)

def applyLockedCheats (t : Trainer) (env : LockEnv) : Trainer :=
  if t.shell.pool.clientConnected = false ∨ t.cheats = [] then { t with sent := [] }
  else if t.shell.phase ≠ .online ∨ t.shell.stale = true then { t with sent := [] }
  else if env.busy then { t with sent := [] }
  else if env.now < t.nextCheatLockTime then { t with sent := [] }
  else
    { t with
      nextCheatLockTime := env.now + max 100 env.interval
      sent := t.lockedWrites env }

def verifiedBehind (t : Trainer) (f : UiFrame) : List Nat :=
  let known := if (t.shell.frame f).adoptions = t.shell.adoptions then t.verified else []
  if t.shell.restore.stage ≠ .refreshingMaps ∧
    (t.shell.frame f).restore.stage = .refreshingMaps then
    (t.shell.frame f).selectedPid :: known
  else known

def scannerRow (t : Trainer) (address : Nat) : Option Nat :=
  t.cheats.findIdx? fun c => c.pid = t.shell.selectedPid ∧ c.address = address

def init (autoInject : Bool) : Trainer := ⟨(Desktop.init autoInject).shell, [], 0, [], []⟩

def step (t : Trainer) : TrainerStep → Trainer
  | .frame f env =>
    { t with shell := t.shell.frame f, verified := t.verifiedBehind f }.applyLockedCheats env
  | .user u =>
    { t with
      shell := u.apply t.shell
      sent := []
      verified := match u with
        | .selectProcess _ => (u.apply t.shell).selectedPid :: t.verified
        | _ => t.verified }
  | .refreshDebugger processes => { t with shell := t.shell.refreshDebugger processes, sent := [] }
  | .attach pid => { t with verified := pid :: t.verified, sent := [] }
  | .addCheat address bytes enabled locked =>
    { t with
      cheats := t.cheats ++ [⟨t.shell.selectedPid, address, bytes, enabled, locked⟩]
      sent := [] }
  | .upsertScannerCheat address bytes locked =>
    match t.scannerRow address with
    | none =>
      { t with
        cheats := t.cheats ++ [⟨t.shell.selectedPid, address, bytes, true, locked⟩]
        sent := [] }
    | some row =>
      { t with
        cheats := t.cheats.set row ⟨t.shell.selectedPid, address, bytes, true, locked⟩
        sent := [] }
  | .addPatch pid address patched =>
    { t with cheats := t.cheats ++ [⟨pid, address, patched, true, false⟩], sent := [] }
  | .setFlags row enabled locked =>
    { t with
      cheats := t.cheats.modify row fun c => { c with enabled := enabled, locked := locked }
      sent := [] }
  | .removeCheat row => { t with cheats := t.cheats.eraseIdx row, sent := [] }
  | .clearDisabled => { t with cheats := t.cheats.filter CheatEntry.enabled, sent := [] }

end Trainer

/-! ## The process that is selected -/

namespace Shell

variable {s : Shell}

theorem pool_attemptFailed (s : Shell) (env : FrameEnv) : (s.attemptFailed env).pool = s.pool := by
  unfold Shell.attemptFailed
  split
  · rfl
  split
  · rfl
  split
  · unfold Shell.scheduleReconnectRetry
    split <;> rfl
  · rfl

def Blank (s : Shell) : Prop :=
  s.connectPending = true → s.cancelled = false → s.phase = .connecting →
    s.selectedPid = 0 ∧ s.processes = []

structure Follows (s t : Shell) : Prop where
  first : t.pool.first = true → s.pool.first = true
  selected : t.selectedPid = 0 ∨ t.selectedPid = s.selectedPid
  adoptions : t.adoptions = s.adoptions

theorem Follows.refl (s : Shell) : s.Follows s := ⟨id, .inr rfl, rfl⟩

theorem Follows.trans {t u : Shell} (h : s.Follows t) (h' : t.Follows u) : s.Follows u where
  first hu := h.first (h'.first hu)
  selected := by
    rcases h'.selected with hu | hu
    · exact .inl hu
    · rw [hu]
      exact h.selected
  adoptions := h'.adoptions.trans h.adoptions

structure Keeps (s t : Shell) : Prop where
  sound : t.Sound
  blank : t.Blank
  follows : s.Follows t

theorem Keeps.refl (h : s.Sound) (hb : s.Blank) : s.Keeps s := ⟨h, hb, .refl s⟩

theorem Keeps.trans {t u : Shell} (h : s.Keeps t) (h' : t.Keeps u) : s.Keeps u :=
  ⟨h'.sound, h'.blank, h.follows.trans h'.follows⟩

theorem Keeps.congr {t : Shell} (h : s.Sound) (hb : s.Blank) (hst : s.SameConnection t)
    (hselected : t.selectedPid = s.selectedPid) (hprocesses : t.processes = s.processes)
    (hadoptions : t.adoptions = s.adoptions) : s.Keeps t where
  sound := h.congr hst
  blank hp hc hphase := by
    rw [hselected, hprocesses]
    exact hb (hst.connectPending ▸ hp) (hst.cancelled ▸ hc) (hst.phase ▸ hphase)
  follows := ⟨fun ht => hst.pool ▸ ht, .inr hselected, hadoptions⟩

theorem keeps_connectConsole (h : s.Sound) (hb : s.Blank) {intent : ConnectIntent}
    (hmanual : intent = .automaticReconnect → s.manualDisconnect = false) :
    s.Keeps (s.connectConsole intent) := by
  have hclosed : ∀ t : Shell, t.pool = ⟨false, none⟩ → t.pool.first = true →
    s.pool.first = true := by
    intro t hpool hfirst
    rw [hpool] at hfirst
    cases hfirst
  refine ⟨h.connectConsole hmanual, ?_, ?_⟩
  · unfold Shell.connectConsole
    split
    · exact hb
    split
    · exact hb
    · cases intent with
      | manualFreshConnection => exact fun _ _ _ => ⟨rfl, rfl⟩
      | automaticReconnect => exact fun _ _ hphase => nomatch hphase
  · unfold Shell.connectConsole
    split
    · exact .refl s
    split
    · exact .refl s
    · cases intent with
      | manualFreshConnection =>
        have hdown : s.pool.disconnect.replacement = none := by rw [pool_disconnect h.original]
        exact ⟨hclosed _ (pool_closed hdown), .inl rfl, rfl⟩
      | automaticReconnect => exact ⟨hclosed _ (pool_closed h.original), .inr rfl, rfl⟩

theorem keeps_event (h : s.Sound) (hb : s.Blank) (e : AsyncEvent) : s.Keeps (e.apply s) := by
  refine ⟨h.event e, ?_, ?_⟩
  · cases e <;> exact hb
  · cases e with
    | controlLost =>
      refine ⟨fun hfirst => ?_, .inr rfl, rfl⟩
      have hclosed : s.pool.disconnect.first = true := hfirst
      rw [pool_disconnect h.original] at hclosed
      cases hclosed
    | connectDone result => exact ⟨id, .inr rfl, rfl⟩
    | heartbeatDone ok => exact ⟨id, .inr rfl, rfl⟩
    | injectDone ok => exact ⟨id, .inr rfl, rfl⟩

theorem keeps_events (h : s.Sound) (hb : s.Blank) (es : List AsyncEvent) :
    s.Keeps (s.events es) := by
  induction es generalizing s with
  | nil => exact .refl h hb
  | cons e es ih =>
    have hfirst := keeps_event h hb e
    exact hfirst.trans (ih hfirst.sound hfirst.blank)

theorem keeps_requestPayloadInject (h : s.Sound) (hb : s.Blank) (env : FrameEnv)
    (connectAfter : Bool) : s.Keeps (s.requestPayloadInject env connectAfter) := by
  refine .congr h hb (requestPayloadInject_same s env connectAfter) ?_ ?_ ?_
  all_goals
    unfold Shell.requestPayloadInject
    split
    · rfl
    split
    · rfl
    split <;> rfl

theorem keeps_pollPayloadLifecycle (h : s.Sound) (hb : s.Blank) (env : FrameEnv) :
    s.Keeps (s.pollPayloadLifecycle env) := by
  have hauto : s.Keeps (s.pollAutoInject env) := by
    unfold Shell.pollAutoInject
    split
    · have hwaiting : s.Keeps { s with payloadAutoInjectWaiting := false } :=
        .congr h hb ⟨rfl, rfl, rfl, rfl, rfl, rfl, rfl, rfl⟩ rfl rfl rfl
      exact hwaiting.trans (keeps_requestPayloadInject hwaiting.sound hwaiting.blank env true)
    · exact .refl h hb
  have hinject {s : Shell} (h : s.Sound) (hb : s.Blank) : s.Keeps (s.pollPayloadInject env) := by
    refine .congr h hb (pollPayloadInject_same s env) ?_ ?_ ?_
    all_goals
      unfold Shell.pollPayloadInject
      split
      · split <;> rfl
      · rfl
  have hretry {s : Shell} (h : s.Sound) (hb : s.Blank) : s.Keeps (s.pollPayloadRetry env) := by
    unfold Shell.pollPayloadRetry
    split
    · exact .refl h hb
    · split
      · have hdisarmed : s.Keeps { s with payloadConnectRetryAt := none } :=
          .congr h hb ⟨rfl, rfl, rfl, rfl, rfl, rfl, rfl, rfl⟩ rfl rfl rfl
        exact hdisarmed.trans (keeps_connectConsole hdisarmed.sound hdisarmed.blank nofun)
      · exact .refl h hb
  have hfetched := hauto.trans (hinject hauto.sound hauto.blank)
  exact hfetched.trans (hretry hfetched.sound hfetched.blank)

theorem keeps_pollSessionHealth (h : s.Sound) (hb : s.Blank) (env : FrameEnv) :
    s.Keeps (s.pollSessionHealth env) := by
  have hbegin {s : Shell} (h : s.Sound) (hidle : s.connectPending = false) :
      (s.beginReconnect env).Blank ∧ s.Follows (s.beginReconnect env) := by
    have hnot : ∀ hp : s.connectPending = true, False := by simp [hidle]
    unfold Shell.beginReconnect
    split
    · exact ⟨fun hp => (hnot hp).elim, .refl s⟩
    split
    · exact ⟨fun hp => (hnot hp).elim, .refl s⟩
    · refine ⟨fun hp => (hnot hp).elim, fun hfirst => ?_, .inr rfl, rfl⟩
      have hclosed := congrArg Pool.first (pool_closed h.original)
      exact absurd (hclosed.symm.trans hfirst) nofun
  have hbeat (hidle : s.connectPending = false) :
      (s.pollHeartbeat env).Blank ∧ s.Follows (s.pollHeartbeat env) := by
    have hnot : ∀ hp : s.connectPending = true, False := by simp [hidle]
    unfold Shell.pollHeartbeat
    split
    · exact ⟨hb, id, .inr rfl, rfl⟩
    · exact ⟨hb, .refl s⟩
    · exact ⟨hb, id, .inr rfl, rfl⟩
    · split
      · have hfailed : Sound { s with
            heartbeatPending := false
            heartbeatFuture := .invalid
            heartbeatFailures := s.heartbeatFailures + 1 } :=
          ⟨h.enabled, h.original, h.pending, h.phase, h.attempt, fun hp => (hnot hp).elim⟩
        obtain ⟨hblank, hfollows⟩ := hbegin hfailed hidle
        exact ⟨hblank, hfollows.first, hfollows.selected, hfollows.adoptions⟩
      · exact ⟨hb, id, .inr rfl, rfl⟩
  have hpolled : (s.pollSessionHealth env).Blank ∧ s.Follows (s.pollSessionHealth env) := by
    unfold Shell.pollSessionHealth
    split
    · rename_i hlost
      exact hbegin h hlost.2.2.1
    split
    · rename_i hpending
      refine hbeat ?_
      by_contra hp
      exact absurd (h.heartbeat (Bool.not_eq_false _ ▸ hp)) (by simp [hpending])
    split
    · exact ⟨hb, .refl s⟩
    split
    · exact ⟨hb, .refl s⟩
    · exact ⟨hb, id, .inr rfl, rfl⟩
  exact ⟨h.pollSessionHealth env, hpolled.1, hpolled.2⟩

theorem keeps_pollReconnect (h : s.Sound) (hb : s.Blank) (env : FrameEnv) :
    s.Keeps (s.pollReconnect env) := by
  rcases pollReconnect_cases s env with heq | ⟨hmanual, hidle, -, heq⟩
  · rw [heq]
    exact .refl h hb
  · have hnot : ∀ hp : s.connectPending = true, False := by simp [hidle]
    have htrying : s.Keeps { s with phase := .reconnecting } :=
      ⟨⟨h.enabled, h.original, fun hp => (hnot hp).elim, nofun, fun hp => (hnot hp).elim,
        fun hp => (hnot hp).elim⟩, fun hp => (hnot hp).elim, id, .inr rfl, rfl⟩
    rw [heq]
    exact htrying.trans (keeps_connectConsole htrying.sound htrying.blank fun _ => hmanual)

theorem keeps_frame_of_connect {f : UiFrame} (h : (s.frameConnect f).Sound)
    (hb : (s.frameConnect f).Blank) : (s.frameConnect f).Keeps (s.frame f) := by
  have hpayload := keeps_events h hb f.beforePayload
  have hlife := hpayload.trans (keeps_pollPayloadLifecycle hpayload.sound hpayload.blank f.env)
  have hevents := hlife.trans (keeps_events hlife.sound hlife.blank f.beforeHealth)
  have hhealth := hevents.trans (keeps_pollSessionHealth hevents.sound hevents.blank f.env)
  have hbefore := hhealth.trans (keeps_events hhealth.sound hhealth.blank f.beforeReconnect)
  have hreconnect := hbefore.trans (keeps_pollReconnect hbefore.sound hbefore.blank f.env)
  have hlast := hreconnect.trans (keeps_events hreconnect.sound hreconnect.blank f.beforeRestore)
  have hframe : s.frame f = _ := pollRestoreSession_eq hlast.sound f.env
  rw [hframe]
  exact hlast

def Adopts (s : Shell) (f : UiFrame) : Prop :=
  s.connectPending = true ∧ s.cancelled = false ∧
    ∃ instanceId, (s.events f.beforeConnect).connectFuture = .ready (some instanceId)

theorem keeps_attemptFailed (h : s.Sound) (hidle : s.connectPending = false) (env : FrameEnv) :
    s.Keeps (s.attemptFailed env) := by
  refine ⟨h.attemptFailed hidle env, ?_, ?_⟩
  · unfold Shell.attemptFailed
    split
    · exact fun hp => absurd (hidle.symm.trans hp) nofun
    split
    · exact fun hp => absurd (hidle.symm.trans hp) nofun
    split
    · unfold Shell.scheduleReconnectRetry
      split
      · exact fun hp => absurd (hidle.symm.trans hp) nofun
      · exact fun hp => absurd (hidle.symm.trans hp) nofun
    · exact fun hp => absurd (hidle.symm.trans hp) nofun
  · refine ⟨fun hfirst => pool_attemptFailed s env ▸ hfirst, .inr ?_, adoptions_attemptFailed s env⟩
    unfold Shell.attemptFailed
    split
    · rfl
    split
    · rfl
    split
    · unfold Shell.scheduleReconnectRetry
      split <;> rfl
    · rfl

theorem pollConnect_spec (h : s.Sound) (hb : s.Blank) (env : FrameEnv)
    (hre : s.connectPending = true → s.cancelled = false →
      (∃ instanceId, s.connectFuture = .ready (some instanceId)) → s.phase ≠ .reconnecting) :
    s.Keeps (s.pollConnect env) ∨
      ((s.pollConnect env).Sound ∧ (s.pollConnect env).Blank ∧
        (s.pollConnect env).selectedPid = 0 ∧
        (s.pollConnect env).adoptions = s.adoptions + 1 ∧ s.connectPending = true ∧
          s.cancelled = false ∧
        ∃ instanceId, s.connectFuture = .ready (some instanceId)) := by
  have hended : s.Keeps s.endAttempt := ⟨h.endAttempt, (by rintro ⟨⟩), id, .inr rfl, rfl⟩
  rcases pollConnect_cases s env with heq | ⟨-, -, heq⟩ | ⟨-, -, -, heq⟩ |
    ⟨instanceId, hp, hc, hready, heq⟩
  · rw [heq]
    exact .inl (.refl h hb)
  · rw [heq]
    exact .inl hended
  · rw [heq]
    exact .inl (hended.trans (keeps_attemptFailed hended.sound rfl env))
  · rw [heq]
    right
    have hphase : s.endAttempt.phase ≠ .reconnecting := hre hp hc ⟨instanceId, hready⟩
    have hblank := hb hp hc ((h.attempt hp hc).2.resolve_right hphase)
    have hadopted := attemptSucceeded_spec h.endAttempt rfl (h.attempt hp hc).1 hphase instanceId
    rw [Shell.attemptSucceeded, if_neg hphase] at hadopted ⊢
    exact ⟨hadopted.1, (by rintro ⟨⟩), hblank.1, rfl, hp, hc, instanceId, hready⟩

theorem connectPending_events (s : Shell) (es : List AsyncEvent) :
    (s.events es).connectPending = s.connectPending ∧ (s.events es).cancelled = s.cancelled := by
  induction es generalizing s with
  | nil => exact ⟨rfl, rfl⟩
  | cons e es ih =>
    obtain ⟨hp, hc⟩ := ih (e.apply s)
    refine ⟨hp.trans ?_, hc.trans ?_⟩
    · cases e <;> rfl
    · cases e <;> rfl

theorem frame_keeps (h : s.Sound) (hb : s.Blank) {f : UiFrame}
    (hre : s.Adopts f → s.phase ≠ .reconnecting) :
    s.Keeps (s.frame f) ∨
      ((s.frame f).Sound ∧ (s.frame f).Blank ∧ (s.frame f).selectedPid = 0 ∧
        (s.frame f).adoptions = s.adoptions + 1 ∧ s.Adopts f) := by
  have hevents := keeps_events h hb f.beforeConnect
  obtain ⟨hpending, hcancelled⟩ := connectPending_events s f.beforeConnect
  have hnone : (s.events f.beforeConnect).connectPending = true →
      (s.events f.beforeConnect).cancelled = false →
      (∃ instanceId, (s.events f.beforeConnect).connectFuture = .ready (some instanceId)) →
      (s.events f.beforeConnect).phase ≠ .reconnecting := by
    intro hp hc hready
    rw [phase_events]
    exact hre ⟨hpending ▸ hp, hcancelled ▸ hc, hready⟩
  rcases pollConnect_spec hevents.sound hevents.blank f.env hnone with hkeeps |
    ⟨hsound, hblank, hselected, hadoptions, hp, hc, hready⟩
  · have hconnect : s.Keeps (s.frameConnect f) := hevents.trans hkeeps
    exact .inl (hconnect.trans (keeps_frame_of_connect hconnect.sound hconnect.blank))
  · have hrest : (s.frameConnect f).Keeps (s.frame f) := keeps_frame_of_connect hsound hblank
    rw [hpending] at hp
    rw [hcancelled] at hc
    refine .inr ⟨hrest.sound, hrest.blank, ?_, ?_, hp, hc, hready⟩
    · rcases hrest.follows.selected with hzero | hsame
      · exact hzero
      · exact hsame.trans hselected
    · calc (s.frame f).adoptions
        _ = (s.frameConnect f).adoptions := hrest.follows.adoptions
        _ = (s.events f.beforeConnect).adoptions + 1 := hadoptions
        _ = s.adoptions + 1 := by rw [adoptions_events]

/-! ## The user -/

theorem cancelConnect_spec (s : Shell) : s.cancelConnect.pool = s.pool ∧
    s.cancelConnect.selectedPid = s.selectedPid := by
  unfold Shell.cancelConnect
  split
  · exact ⟨rfl, rfl⟩
  · obtain ⟨requested, generation, heq⟩ := cancelAttempt_spec s
    rw [heq]
    exact ⟨rfl, rfl⟩

theorem Blank.cancelConnect (hb : s.Blank) : s.cancelConnect.Blank := by
  unfold Shell.cancelConnect
  split
  · exact hb
  · intro hp hc
    have hcancelled : s.cancelAttempt.cancelled = true :=
      cancelled_cancelAttempt ((connectPending_cancelAttempt s).symm.trans hp)
    exact absurd (hcancelled.symm.trans hc) nofun

theorem first_disconnectConsole (h : s.Sound) : s.disconnectConsole.pool.first = false := by
  have hpool : (if s.markDisconnected.connectPending then s.markDisconnected.cancelConnect
      else s.markDisconnected).pool = s.pool := by
    split
    · exact (cancelConnect_spec _).1
    · rfl
  have hclosed := pool_closed (hpool ▸ h.original)
  change (Pool.disconnect (Pool.invalidateRoles _)).first = false
  rw [hclosed]
  rfl

theorem Blank.selectProcess (hb : s.Blank) (row : Nat) : (s.selectProcess row).Blank := by
  intro hp hc hphase
  have hst := selectProcess_same s row
  have hblank := hb (hst.connectPending ▸ hp) (hst.cancelled ▸ hc) (hst.phase ▸ hphase)
  have heq : s.selectProcess row = s := by
    unfold Shell.selectProcess
    rw [hblank.2, getElem?_nil]
  rw [heq]
  exact hblank

theorem keeps_refreshProcesses (h : s.Sound) (hb : s.Blank) (result : Option (List ProcessEntry)) :
    s.Keeps (s.refreshProcesses result) := by
  have hst := refreshProcesses_same s result
  refine ⟨h.congr hst, fun hp hc hphase => ?_, fun hfirst => hst.pool ▸ hfirst, ?_, ?_⟩
  · have hpending : s.connectPending = true := hst.connectPending ▸ hp
    have heq : s.refreshProcesses result = s := by
      unfold Shell.refreshProcesses
      rw [Pool.clientConnected, h.pending hpending]
    rw [heq]
    exact hb hpending (hst.cancelled ▸ hc) (hst.phase ▸ hphase)
  · unfold Shell.refreshProcesses
    split
    · split
      · exact .inr rfl
      · exact .inl rfl
    · exact .inr rfl
  · unfold Shell.refreshProcesses
    split
    · split <;> rfl
    · rfl

theorem keeps_refreshDebugger (h : s.Sound) (hb : s.Blank) (processes : List ProcessEntry) :
    s.Keeps (s.refreshDebugger processes) := by
  unfold Shell.refreshDebugger
  split
  · rename_i hconnected
    have hnot : ∀ hp : s.connectPending = true, False := fun hp =>
      absurd ((h.pending hp).symm.trans hconnected) nofun
    exact ⟨h.congr ⟨rfl, rfl, rfl, rfl, rfl, rfl, rfl, rfl⟩, fun hp => (hnot hp).elim, id, .inr rfl,
      rfl⟩
  · exact .refl h hb

theorem user_spec (h : s.Sound) (hb : s.Blank) (u : UserAction) :
    (u.apply s).Blank ∧ ((u.apply s).pool.first = true → s.pool.first = true) ∧
      ((u.apply s).selectedPid = 0 ∨ (u.apply s).selectedPid = s.selectedPid ∨
        ∃ row, u = .selectProcess row) := by
  cases u with
  | connect =>
    have hkeeps : s.Keeps (s.connectConsole .manualFreshConnection) :=
      keeps_connectConsole h hb nofun
    exact ⟨hkeeps.blank, hkeeps.follows.first, hkeeps.follows.selected.imp_right .inl⟩
  | disconnect =>
    refine ⟨fun _ _ hphase => (nomatch hphase), fun hfirst => ?_, .inl rfl⟩
    exact absurd ((first_disconnectConsole h).symm.trans hfirst) nofun
  | cancel =>
    obtain ⟨hpool, hselected⟩ := cancelConnect_spec s
    exact ⟨hb.cancelConnect, fun hfirst => hpool ▸ hfirst, .inr (.inl hselected)⟩
  | inject env connectAfter =>
    have hkeeps := keeps_requestPayloadInject h hb env connectAfter
    exact ⟨hkeeps.blank, hkeeps.follows.first, hkeeps.follows.selected.imp_right .inl⟩
  | selectProcess row =>
    have hst := selectProcess_same s row
    exact ⟨hb.selectProcess row, fun hfirst => hst.pool ▸ hfirst, .inr (.inr ⟨row, rfl⟩)⟩
  | refreshProcesses result =>
    have hkeeps := keeps_refreshProcesses h hb result
    exact ⟨hkeeps.blank, hkeeps.follows.first, hkeeps.follows.selected.imp_right .inl⟩

end Shell

/-! ## The writes -/

namespace Trainer

variable {t : Trainer}

theorem mem_lockedWrites {env : LockEnv} {w : Write} (h : w ∈ t.lockedWrites env) :
    ∃ c ∈ t.cheats, c.armed = true ∧ w.pid = c.target t.shell.selectedPid ∧ w.pid ≠ 0 := by
  unfold lockedWrites at h
  split at h
  · obtain ⟨batch, hbatch, hw⟩ := mem_flatten.mp h
    obtain ⟨pid, hpid, hbatch⟩ := mem_flatMap.mp hbatch
    have hpos : 0 < pid := of_decide_eq_true
      (mem_filter.mp (mem_eraseDups.mp hpid)).2
    obtain ⟨i, -, rfl⟩ := mem_map.mp hbatch
    obtain ⟨c, hc, rfl⟩ := mem_map.mp hw
    obtain ⟨hc, htarget⟩ := mem_filter.mp (mem_of_mem_drop (mem_of_mem_take hc))
    obtain ⟨hmem, harmed⟩ := mem_filter.mp hc
    exact ⟨c, hmem, harmed, (of_decide_eq_true htarget).symm, Nat.pos_iff_ne_zero.mp hpos⟩
  · obtain ⟨c, hc, hw⟩ := mem_flatMap.mp h
    obtain ⟨hmem, harmed⟩ := mem_filter.mp hc
    unfold applyCheat at hw
    split at hw
    · cases hw
    · rename_i hpid
      split at hw
      · cases hw
      · split at hw
        · cases hw
        · obtain rfl := mem_singleton.mp hw
          exact ⟨c, hmem, harmed, rfl, hpid⟩

theorem applyLockedCheats_spec (t : Trainer) (env : LockEnv) :
    (t.applyLockedCheats env).shell = t.shell ∧ (t.applyLockedCheats env).cheats = t.cheats ∧
      (t.applyLockedCheats env).verified = t.verified ∧
      ((t.applyLockedCheats env).sent = [] ∨
        t.shell.pool.first = true ∧ (t.applyLockedCheats env).sent = t.lockedWrites env) := by
  unfold applyLockedCheats
  split
  · exact ⟨rfl, rfl, rfl, .inl rfl⟩
  · rename_i hconnected
    split
    · exact ⟨rfl, rfl, rfl, .inl rfl⟩
    split
    · exact ⟨rfl, rfl, rfl, .inl rfl⟩
    split
    · exact ⟨rfl, rfl, rfl, .inl rfl⟩
    · exact ⟨rfl, rfl, rfl, .inr ⟨Bool.not_eq_false _ ▸ (not_or.mp hconnected).1, rfl⟩⟩

def Known (t : Trainer) (pid : Nat) : Prop := pid = 0 ∨ pid ∈ t.verified

structure Vetted (t : Trainer) : Prop where
  sound : t.shell.Sound
  blank : t.shell.Blank
  selected : t.shell.pool.first = true → t.Known t.shell.selectedPid
  cheats : t.shell.pool.first = true → ∀ c ∈ t.cheats, c.armed = true → t.Known c.pid

/-- A frame that adopts an attempt adopts one the user has asked for, while no entry that is locked
names a process, and the user locks no entry that names another process than those known.
`poll_connect` adopts a reconnect by `replace_control`, which frees the client that `state.client`
refers to: nothing is said of what follows it. -/
def Cleared (t : Trainer) : TrainerStep → Prop
  | .frame f _ => t.shell.Adopts f →
      t.shell.phase ≠ .reconnecting ∧ ∀ c ∈ t.cheats, c.armed = true → c.pid = 0
  | .setFlags row enabled locked => t.shell.pool.first = true → enabled = true → locked = true →
      ∀ c, t.cheats[row]? = some c → t.Known c.pid
  | _ => True

theorem Vetted.sent (h : t.Vetted) (hfirst : t.shell.pool.first = true) {env : LockEnv} :
    ∀ w ∈ t.lockedWrites env, w.pid ∈ t.verified := by
  intro w hw
  obtain ⟨c, hc, harmed, htarget, hpos⟩ := mem_lockedWrites hw
  unfold CheatEntry.target at htarget
  split at htarget
  · rw [htarget] at hpos ⊢
    exact (h.cheats hfirst c hc harmed).resolve_left hpos
  · rw [htarget] at hpos ⊢
    exact (h.selected hfirst).resolve_left hpos

theorem Vetted.applyLockedCheats (h : t.Vetted) (env : LockEnv) :
    (t.applyLockedCheats env).Vetted ∧
      ∀ w ∈ (t.applyLockedCheats env).sent, w.pid ∈ (t.applyLockedCheats env).verified := by
  obtain ⟨hshell, hcheats, hverified, hsent⟩ := applyLockedCheats_spec t env
  constructor
  · constructor
    · rw [hshell]
      exact h.sound
    · rw [hshell]
      exact h.blank
    · rw [Known, hshell, hverified]
      exact h.selected
    · intro hfirst c hc harmed
      rw [hshell] at hfirst
      rw [hcheats] at hc
      rw [Known, hverified]
      exact h.cheats hfirst c hc harmed
  · rw [hverified]
    rcases hsent with hnil | ⟨hfirst, heq⟩
    · rw [hnil]
      exact nofun
    · rw [heq]
      exact h.sent hfirst

theorem mem_verifiedBehind {f : UiFrame}
    (hadoptions : (t.shell.frame f).adoptions = t.shell.adoptions)
    {pid : Nat} (h : pid ∈ t.verified) : pid ∈ t.verifiedBehind f := by
  unfold verifiedBehind
  rw [if_pos hadoptions]
  split
  · exact mem_cons_of_mem _ h
  · exact h

theorem Vetted.poll (h : t.Vetted) {f : UiFrame} {env : LockEnv}
    (hcleared : t.Cleared (.frame f env)) :
    Vetted { t with shell := t.shell.frame f, verified := t.verifiedBehind f } := by
  rcases Shell.frame_keeps h.sound h.blank fun hadopts => (hcleared hadopts).1 with hkeeps |
    ⟨hsound, hblank, hselected, -, hadopts⟩
  · have hknown : ∀ pid, t.Known pid → pid = 0 ∨ pid ∈ t.verifiedBehind f := fun pid hpid =>
      hpid.imp_right (mem_verifiedBehind hkeeps.follows.adoptions)
    refine ⟨hkeeps.sound, hkeeps.blank, fun hfirst => ?_, fun hfirst c hc harmed => ?_⟩
    · rcases hkeeps.follows.selected with hzero | hsame
      · exact .inl hzero
      · rw [hsame]
        exact hknown _ (h.selected (hkeeps.follows.first hfirst))
    · exact hknown _ (h.cheats (hkeeps.follows.first hfirst) c hc harmed)
  · exact ⟨hsound, hblank, fun _ => .inl hselected, fun _ c hc harmed =>
      .inl ((hcleared hadopts).2 c hc harmed)⟩

theorem Vetted.withCheats (h : t.Vetted) {cheats : List CheatEntry} {sent : List Write}
    (hcheats : t.shell.pool.first = true → ∀ c ∈ cheats, c.armed = true → c ∈ t.cheats ∨
      t.Known c.pid) :
    Vetted { t with cheats := cheats, sent := sent } := by
  refine ⟨h.sound, h.blank, h.selected, fun hfirst c hc harmed => ?_⟩
  rcases hcheats hfirst c hc harmed with hmem | hknown
  · exact h.cheats hfirst c hmem harmed
  · exact hknown

theorem Vetted.user (h : t.Vetted) (u : UserAction) : (t.step (.user u)).Vetted := by
  obtain ⟨hblank, hfirst, hselected⟩ := Shell.user_spec h.sound h.blank u
  have hknown : ∀ pid, t.Known pid → (t.step (.user u)).Known pid := by
    intro pid hpid
    refine hpid.imp_right fun hmem => ?_
    cases u with
    | selectProcess row => exact mem_cons_of_mem _ hmem
    | _ => exact hmem
  refine ⟨h.sound.user u, hblank, fun hopen => ?_, fun hopen c hc harmed => ?_⟩
  · rcases hselected with hzero | hsame | ⟨row, rfl⟩
    · exact .inl hzero
    · change (t.step (.user u)).Known (u.apply t.shell).selectedPid
      rw [hsame]
      exact hknown _ (h.selected (hfirst hopen))
    · exact .inr (mem_cons_self ..)
  · exact hknown _ (h.cheats (hfirst hopen) c hc harmed)

theorem Vetted.step (h : t.Vetted) {l : TrainerStep} (hcleared : t.Cleared l) :
    (t.step l).Vetted ∧ ∀ w ∈ (t.step l).sent, w.pid ∈ (t.step l).verified := by
  cases l with
  | frame f env => exact (h.poll hcleared).applyLockedCheats env
  | user u => exact ⟨h.user u, nofun⟩
  | refreshDebugger processes =>
    have hkeeps := Shell.keeps_refreshDebugger h.sound h.blank processes
    refine ⟨⟨hkeeps.sound, hkeeps.blank, fun hfirst => ?_, fun hfirst => ?_⟩, nofun⟩
    · rcases hkeeps.follows.selected with hzero | hsame
      · exact .inl hzero
      · exact hsame ▸ h.selected (hkeeps.follows.first hfirst)
    · exact h.cheats (hkeeps.follows.first hfirst)
  | attach pid =>
    refine ⟨⟨h.sound, h.blank, fun hfirst => ?_, fun hfirst c hc harmed => ?_⟩, nofun⟩
    · exact (h.selected hfirst).imp_right (mem_cons_of_mem _)
    · exact (h.cheats hfirst c hc harmed).imp_right (mem_cons_of_mem _)
  | addCheat address bytes enabled locked =>
    refine ⟨h.withCheats fun hfirst c hc _ => ?_, nofun⟩
    rcases mem_append.mp hc with hmem | hnew
    · exact .inl hmem
    · rw [mem_singleton.mp hnew]
      exact .inr (h.selected hfirst)
  | upsertScannerCheat address bytes locked =>
    cases hrow : t.scannerRow address with
    | none =>
      simp only [Trainer.step, hrow]
      refine ⟨h.withCheats fun hfirst c hc _ => ?_, nofun⟩
      rcases mem_append.mp hc with hmem | hnew
      · exact .inl hmem
      · rw [mem_singleton.mp hnew]
        exact .inr (h.selected hfirst)
    | some row =>
      simp only [Trainer.step, hrow]
      refine ⟨h.withCheats fun hfirst c hc _ => ?_, nofun⟩
      rcases mem_or_eq_of_mem_set hc with hmem | rfl
      · exact .inl hmem
      · exact .inr (h.selected hfirst)
  | addPatch pid address patched =>
    refine ⟨h.withCheats fun _ c hc harmed => ?_, nofun⟩
    rcases mem_append.mp hc with hmem | hnew
    · exact .inl hmem
    · rw [mem_singleton.mp hnew] at harmed
      cases harmed
  | setFlags row enabled locked =>
    refine ⟨h.withCheats fun hfirst c hc harmed => ?_, nofun⟩
    obtain ⟨i, hi⟩ := mem_iff_getElem?.mp hc
    rw [getElem?_modify] at hi
    obtain ⟨c', hc', rfl⟩ := Option.map_eq_some_iff.mp hi
    by_cases hrow : row = i
    · subst hrow
      rw [if_pos rfl] at harmed ⊢
      obtain ⟨hflags, -⟩ := Bool.and_eq_true_iff.mp harmed
      obtain ⟨henabled, hlocked⟩ := Bool.and_eq_true_iff.mp hflags
      exact .inr (hcleared hfirst henabled hlocked c' hc')
    · rw [if_neg hrow]
      exact .inl (mem_of_getElem? hc')
  | removeCheat row => exact ⟨h.withCheats fun _ c hc _ ↦ .inl (mem_of_mem_eraseIdx hc), nofun⟩
  | clearDisabled => exact ⟨h.withCheats fun _ c hc _ => .inl (mem_filter.mp hc).1, nofun⟩

/-! ## Runs -/

/-- The runs of the application whose steps all satisfy a guard. -/
abbrev Runs (guard : Trainer → TrainerStep → Prop) : Trainer → List TrainerStep → Trainer → Prop :=
  Run (fun t l => some (t.step l)) guard

theorem vetted_init (autoInject : Bool) : (init autoInject).Vetted := by
  have hsteady := Desktop.steady_init autoInject
  refine ⟨hsteady.1, ?_, fun _ => .inl ?_, fun _ => nofun⟩
  · cases autoInject with
    | false => exact nofun
    | true => exact fun _ _ _ => ⟨rfl, rfl⟩
  · cases autoInject <;> rfl

/-- In a run that leaves no locked entry to an earlier connection and in which no reconnect
succeeds, every write goes to a process that has been selected or found again on the connection
there is. -/
theorem verified_of_runs {autoInject : Bool} {steps : List TrainerStep}
    (h : Runs Cleared (init autoInject) steps t) : ∀ w ∈ t.sent, w.pid ∈ t.verified := by
  have hvetted : t.Vetted ∧ ∀ w ∈ t.sent, w.pid ∈ t.verified :=
    h.invariant (P := fun t => t.Vetted ∧ ∀ w ∈ t.sent, w.pid ∈ t.verified)
      (fun _ _ _ ht hcleared heq => by
        cases heq
        exact ht.1.step hcleared)
      ⟨vetted_init autoInject, nofun⟩
  exact hvetted.2

/-! ### An entry and two consoles -/

def writingFrame (time : Nat) (events : List AsyncEvent) : TrainerStep :=
  .frame (Desktop.quietFrame time events) ⟨time, 100, false, true, fun _ _ _ => true⟩

def lockedSession : List TrainerStep :=
  [.user .connect, writingFrame 0 [.connectDone (some 1)],
    .user (.refreshProcesses (some [⟨5, "eboot.bin"⟩])), .user (.selectProcess 0),
    .addCheat 4096 [1] true true, writingFrame 0 []]

def behind (steps : List TrainerStep) : Trainer := steps.foldl step (init false)

theorem verified_lockedSession :
    (behind lockedSession).sent = [⟨5, 4096, [1]⟩] ∧ 5 ∈ (behind lockedSession).verified := by
  refine ⟨rfl, @verified_of_runs _ false lockedSession ?_ ⟨5, 4096, [1]⟩ (.head _)⟩
  refine .cons trivial rfl (.cons ?_ rfl (.cons trivial rfl (.cons trivial rfl (.cons trivial rfl
    (.cons ?_ rfl (.nil _))))))
  · exact fun _ => ⟨nofun, nofun⟩
  · exact fun hadopts => absurd hadopts.1 nofun

def otherConsole : List TrainerStep :=
  lockedSession ++ [.user .disconnect, .user .connect, writingFrame 100 [.connectDone (some 2)]]

theorem verified_fails : ¬ ∀ autoInject steps t, Runs (fun _ _ => True) (init autoInject) steps t →
    ∀ w ∈ t.sent, w.pid ∈ t.verified := by
  intro h
  have hrun : Runs (fun _ _ => True) (init false) otherConsole (behind otherConsole) :=
    .cons trivial rfl (.cons trivial rfl (.cons trivial rfl (.cons trivial rfl (.cons trivial rfl
      (.cons trivial rfl (.cons trivial rfl (.cons trivial rfl (.cons trivial rfl (.nil _)))))))))
  have hverified := h false otherConsole _ hrun ⟨5, 4096, [1]⟩ ?_
  · cases hverified
  · exact mem_singleton.mpr rfl

end Trainer

end MemDbg.Frontend
