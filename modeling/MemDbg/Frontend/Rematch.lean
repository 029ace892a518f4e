import MemDbg.Frontend.Trainer

/-!
# The target behind a reconnect

Pids do not outlive the console going to rest, so the process the session was about is looked for
by what identifies it: in each field, from the most specific one to the name, the first process of
the list that agrees.  What is known of the processes is what the task manager has fetched, by pid,
at any time before.
-/

namespace MemDbg.Frontend

open List Lib

/-! ## Identities -/

inductive IdentityField where
  | contentId
  | titleId
  | path
  | name
deriving DecidableEq

namespace IdentityField

def ranked : List IdentityField := [contentId, titleId, path, name]

def rank : IdentityField → Nat
  | contentId => 0
  | titleId => 1
  | path => 2
  | name => 3

def get (tid : TargetIdentity) : IdentityField → String
  | contentId => tid.contentId
  | titleId => tid.titleId
  | path => tid.executablePath
  | name => tid.name

theorem mem_ranked (f : IdentityField) : f ∈ ranked := by cases f <;> decide

theorem rank_name (f : IdentityField) : f.rank ≤ name.rank := by cases f <;> decide

theorem rank_injective {f g : IdentityField} (h : f.rank = g.rank) : f = g := by
  revert h
  cases f <;> cases g <;> decide

end IdentityField

def ProcessEntry.identity (p : ProcessEntry) (info : Option ProcessInfo) : TargetIdentity :=
  match info with
  | none => { TargetIdentity.empty with name := p.name }
  | some info => ⟨p.name, info.titleId, info.contentId, info.path⟩

def commonField (tid own : TargetIdentity) : Option IdentityField :=
  IdentityField.ranked.find? fun f => f.get tid ≠ "" && f.get own ≠ ""

def IsTarget (tid : TargetIdentity) (processes : List ProcessEntry) (p : ProcessEntry)
    (own : TargetIdentity) : Prop :=
  ∃ f, commonField tid own = some f ∧ f.get own = f.get tid ∧
    (f = .name → ∀ q ∈ processes, q.name = tid.name → q.pid = p.pid)

def Agrees (tid : TargetIdentity) (p : ProcessEntry) (info : Option ProcessInfo)
    (f : IdentityField) : Prop :=
  f.get tid ≠ "" ∧ f.get (p.identity info) = f.get tid

structure Telling (tid : TargetIdentity) (resources : Nat → Option ProcessInfo)
    (processes : List ProcessEntry) (own : Nat → ProcessInfo) : Prop where
  fresh : ∀ p ∈ processes, ∀ f, Agrees tid p (resources p.pid) f →
    f.get (p.identity (some (own p.pid))) = f.get tid
  whole : ∀ p ∈ processes, ∀ f, Agrees tid p (resources p.pid) f →
    ∀ g : IdentityField, g.rank < f.rank → g.get tid ≠ "" →
      g.get (p.identity (some (own p.pid))) ≠ "" → g.get (p.identity (some (own p.pid))) = g.get tid
  unique : (∀ p ∈ processes, ∀ f, Agrees tid p (resources p.pid) f → f = .name) →
    ∀ p ∈ processes, ∀ q ∈ processes, p.name = tid.name → q.name = tid.name → q.pid = p.pid

theorem commonField_spec {tid own : TargetIdentity} {g : IdentityField}
    (h : commonField tid own = some g) :
    g.get tid ≠ "" ∧ g.get own ≠ "" ∧
      ∀ f : IdentityField, f.get tid ≠ "" → f.get own ≠ "" → g.rank ≤ f.rank := by
  obtain ⟨hg, before, behind, hsplit, hbefore⟩ := find?_eq_some_iff_append.mp h
  rw [Bool.and_eq_true, decide_eq_true_eq, decide_eq_true_eq] at hg
  refine ⟨hg.1, hg.2, fun f htid hown => ?_⟩
  have hsorted : (before ++ g :: behind).Pairwise fun f f' => f.rank < f'.rank := by
    rw [← hsplit]
    decide
  have hmem := IdentityField.mem_ranked f
  rw [hsplit, mem_append, mem_cons] at hmem
  rcases hmem with hmem | rfl | hmem
  · have hnot := hbefore f hmem
    rw [decide_eq_true htid, decide_eq_true hown] at hnot
    exact absurd hnot (by decide)
  · exact Nat.le_refl _
  · exact Nat.le_of_lt ((pairwise_cons.mp (pairwise_append.mp hsorted).2.1).1 f hmem)

/-! ## The match -/

section

variable {tid : TargetIdentity} {resources : Nat → Option ProcessInfo}
  {processes : List ProcessEntry} {own : Nat → ProcessInfo} {row : Nat}

def firstBy (tid : TargetIdentity) (resources : Nat → Option ProcessInfo)
    (processes : List ProcessEntry) (f : IdentityField) : Option Nat :=
  if f.get tid = "" then none
  else processes.findIdx? fun p => f.get (p.identity (resources p.pid)) = f.get tid

theorem firstBy_some {f : IdentityField} (h : firstBy tid resources processes f = some row) :
    ∃ p, processes[row]? = some p ∧ Agrees tid p (resources p.pid) f := by
  unfold firstBy at h
  split_ifs at h with hempty
  obtain ⟨hlt, hp, -⟩ := findIdx?_eq_some_iff_getElem.mp h
  exact ⟨processes[row], getElem?_eq_getElem hlt, hempty, of_decide_eq_true hp⟩

theorem firstBy_none {f : IdentityField} (h : firstBy tid resources processes f = none) :
    ∀ p ∈ processes, ¬ Agrees tid p (resources p.pid) f := by
  rintro p hp ⟨hne, heq⟩
  rw [firstBy, if_neg hne, findIdx?_eq_none_iff] at h
  exact absurd (decide_eq_true heq) (by rw [h p hp]; decide)

theorem firstBy_cached {f : IdentityField} {field : ProcessInfo → String}
    (hnone : ∀ p : ProcessEntry, f.get (p.identity none) = "")
    (hsome : ∀ (p : ProcessEntry) info, f.get (p.identity (some info)) = field info) :
    firstBy tid resources processes f = if f.get tid = "" then none
      else processes.findIdx? fun p ↦ (resources p.pid).any fun info ↦ field info = f.get tid := by
  unfold firstBy
  split_ifs with hempty
  · rfl
  · congr 1
    funext p
    cases resources p.pid with
    | none =>
      rw [hnone]
      exact decide_eq_false (Ne.symm hempty)
    | some info =>
      rw [hsome]
      rfl

theorem matchTarget_eq : Shell.matchTarget tid resources processes =
    (firstBy tid resources processes .contentId <|> firstBy tid resources processes .titleId <|>
      firstBy tid resources processes .path <|> firstBy tid resources processes .name) := by
  have hname : firstBy tid resources processes .name = if tid.name = "" then none
      else processes.findIdx? fun p => p.name = tid.name := by
    unfold firstBy
    congr 2
    funext p
    cases resources p.pid <;> rfl
  rw [@firstBy_cached _ _ _ .contentId ProcessInfo.contentId (fun _ => rfl) fun _ _ => rfl,
    @firstBy_cached _ _ _ .titleId ProcessInfo.titleId (fun _ => rfl) fun _ _ => rfl,
    @firstBy_cached _ _ _ .path ProcessInfo.path (fun _ => rfl) fun _ _ => rfl, hname]
  rfl

theorem matchTarget_spec (h : Shell.matchTarget tid resources processes = some row) :
    ∃ f p, processes[row]? = some p ∧ Agrees tid p (resources p.pid) f ∧
      ∀ g : IdentityField, g.rank < f.rank →
        ∀ q ∈ processes, ¬ Agrees tid q (resources q.pid) g := by
  have hfirst {f : IdentityField} (hf : firstBy tid resources processes f = some row)
      (hbelow : ∀ g : IdentityField, g.rank < f.rank → firstBy tid resources processes g = none) :
      ∃ f p, processes[row]? = some p ∧ Agrees tid p (resources p.pid) f ∧
        ∀ g : IdentityField, g.rank < f.rank →
          ∀ q ∈ processes, ¬ Agrees tid q (resources q.pid) g := by
    obtain ⟨p, hp, hagrees⟩ := firstBy_some hf
    exact ⟨f, p, hp, hagrees, fun g hg => firstBy_none (hbelow g hg)⟩
  rw [matchTarget_eq] at h
  cases hcontent : firstBy tid resources processes .contentId with
  | some r =>
    rw [hcontent] at h
    exact hfirst (hcontent.trans h) fun g hg => absurd hg (Nat.not_lt_zero _)
  | none =>
    rw [hcontent] at h
    cases htitle : firstBy tid resources processes .titleId with
    | some r =>
      rw [htitle] at h
      refine hfirst (htitle.trans h) fun g hg => ?_
      cases g with
      | contentId => exact hcontent
      | _ => exact absurd hg (by decide)
    | none =>
      rw [htitle] at h
      cases hpath : firstBy tid resources processes .path with
      | some r =>
        rw [hpath] at h
        refine hfirst (hpath.trans h) fun g hg => ?_
        cases g with
        | contentId => exact hcontent
        | titleId => exact htitle
        | _ => exact absurd hg (by decide)
      | none =>
        rw [hpath] at h
        refine hfirst h fun g hg => ?_
        cases g with
        | contentId => exact hcontent
        | titleId => exact htitle
        | path => exact hpath
        | name => exact absurd hg (by decide)

theorem Telling.isTarget (h : Telling tid resources processes own)
    (hmatch : Shell.matchTarget tid resources processes = some row) :
    ∃ p, processes[row]? = some p ∧
      IsTarget tid processes p (p.identity (some (own p.pid))) := by
  obtain ⟨f, p, hrow, hagrees, hbelow⟩ := matchTarget_spec hmatch
  have hp : p ∈ processes := mem_of_getElem? hrow
  have hf := h.fresh p hp f hagrees
  refine ⟨p, hrow, ?_⟩
  cases hcommon : commonField tid (p.identity (some (own p.pid))) with
  | none =>
    have hnot := find?_eq_none.mp hcommon f (IdentityField.mem_ranked f)
    rw [hf, decide_eq_true hagrees.1] at hnot
    exact absurd rfl hnot
  | some g =>
    obtain ⟨htid, hown, hfirst⟩ := commonField_spec hcommon
    have hrank : g.rank ≤ f.rank := hfirst f hagrees.1 (hf ▸ hagrees.1)
    refine ⟨g, hcommon, ?_, ?_⟩
    · rcases Nat.lt_or_eq_of_le hrank with hlt | heq
      · exact h.whole p hp f hagrees g hlt htid hown
      · rw [IdentityField.rank_injective heq]
        exact hf
    · rintro rfl q hq hname
      obtain rfl : f = .name :=
        IdentityField.rank_injective (Nat.le_antisymm f.rank_name hrank)
      refine h.unique (fun q' hq' f' hagrees' => ?_) p hp q hq hf hname
      rcases Nat.lt_or_eq_of_le f'.rank_name with hlt | heq
      · exact absurd hagrees' (hbelow f' hlt q' hq')
      · exact IdentityField.rank_injective heq

end

/-! ## What the other pollers keep -/

namespace Shell

def Carries (s t : Shell) : Prop :=
  t.phase = .restoring → t.restore.stage = .refreshingMaps →
    s.phase = .restoring ∧ t.restore = s.restore ∧ t.targetIdentity = s.targetIdentity ∧
      t.adoptions = s.adoptions

variable {s t u : Shell}

theorem Carries.refl (s : Shell) : s.Carries s := fun h _ => ⟨h, rfl, rfl, rfl⟩

theorem Carries.trans (h : s.Carries t) (h' : t.Carries u) : s.Carries u := by
  intro hphase hstage
  obtain ⟨htphase, hrestore, htid, hadoptions⟩ := h' hphase hstage
  obtain ⟨hsphase, hrestore', htid', hadoptions'⟩ := h htphase (hrestore ▸ hstage)
  exact ⟨hsphase, hrestore.trans hrestore', htid.trans htid', hadoptions.trans hadoptions'⟩

theorem Carries.of_phase (h : t.phase ≠ .restoring) : s.Carries t := fun hphase _ => absurd hphase h

theorem Carries.of_fresh (h : t.restore = .fresh) : s.Carries t := by
  intro _ hstage
  rw [h] at hstage
  cases hstage

theorem carries_connectConsole (s : Shell) (intent : ConnectIntent) :
    s.Carries (s.connectConsole intent) := by
  unfold connectConsole
  split
  · exact .refl s
  split
  · exact .refl s
  · cases intent with
    | manualFreshConnection => exact .of_phase nofun
    | automaticReconnect => exact .of_phase nofun

theorem carries_event (s : Shell) (e : AsyncEvent) : s.Carries (e.apply s) := by
  cases e <;> exact .refl s

theorem carries_events (s : Shell) (es : List AsyncEvent) : s.Carries (s.events es) := by
  induction es generalizing s with
  | nil => exact .refl s
  | cons e es ih => exact (s.carries_event e).trans (ih (e.apply s))

theorem carries_requestPayloadInject (s : Shell) (env : FrameEnv) (connectAfter : Bool) :
    s.Carries (s.requestPayloadInject env connectAfter) := by
  unfold requestPayloadInject
  split
  · exact .refl s
  split
  · exact .refl s
  split
  · exact .refl s
  · exact .refl s

theorem carries_pollPayloadLifecycle (s : Shell) (env : FrameEnv) :
    s.Carries (s.pollPayloadLifecycle env) := by
  have hauto : s.Carries (s.pollAutoInject env) := by
    unfold pollAutoInject
    split
    · exact carries_requestPayloadInject { s with payloadAutoInjectWaiting := false } env true
    · exact .refl s
  have hinject (s : Shell) : s.Carries (s.pollPayloadInject env) := by
    unfold pollPayloadInject
    split
    · split
      · exact .refl s
      · exact .refl s
    · exact .refl s
  have hretry (s : Shell) : s.Carries (s.pollPayloadRetry env) := by
    unfold pollPayloadRetry
    split
    · exact .refl s
    · split
      · exact carries_connectConsole { s with payloadConnectRetryAt := none } _
      · exact .refl s
  exact hauto.trans ((hinject _).trans (hretry _))

theorem carries_beginReconnect (s : Shell) (env : FrameEnv) : s.Carries (s.beginReconnect env) := by
  unfold beginReconnect
  split
  · exact .refl s
  split
  · exact .refl s
  · exact .of_fresh rfl

theorem carries_pollSessionHealth (s : Shell) (env : FrameEnv) :
    s.Carries (s.pollSessionHealth env) := by
  have hbeat : s.Carries (s.pollHeartbeat env) := by
    unfold pollHeartbeat
    split
    · exact .refl s
    · exact .refl s
    · exact .refl s
    · split
      · exact carries_beginReconnect { s with
          heartbeatPending := false
          heartbeatFuture := .invalid
          heartbeatFailures := s.heartbeatFailures + 1 } env
      · exact .refl s
  unfold pollSessionHealth
  split
  · exact s.carries_beginReconnect env
  split
  · exact hbeat
  split
  · exact .refl s
  split
  · exact .refl s
  · exact .refl s

theorem carries_pollReconnect (s : Shell) (env : FrameEnv) : s.Carries (s.pollReconnect env) := by
  rcases pollReconnect_cases s env with heq | ⟨-, -, -, heq⟩
  · rw [heq]
    exact .refl s
  · have hphase : s.Carries { s with phase := .reconnecting } := .of_phase nofun
    rw [heq]
    exact hphase.trans (carries_connectConsole _ _)

theorem carries_attemptFailed (s : Shell) (env : FrameEnv) : s.Carries (s.attemptFailed env) := by
  unfold attemptFailed
  split
  · exact .refl s
  split
  · exact .refl s
  split
  · unfold scheduleReconnectRetry
    split
    · exact .refl s
    · exact .of_phase nofun
  · exact .refl s

theorem carries_attemptSucceeded (s : Shell) (instanceId : Nat) :
    s.Carries (s.attemptSucceeded instanceId) := by
  unfold attemptSucceeded
  split
  · exact .of_fresh rfl
  · exact .of_phase nofun

theorem carries_pollConnect (s : Shell) (env : FrameEnv) : s.Carries (s.pollConnect env) := by
  have hend : s.Carries s.endAttempt := .refl s
  unfold pollConnect
  split
  · split
    · exact hend
    · split
      · exact hend.trans (carries_attemptFailed _ env)
      · exact hend.trans (carries_attemptSucceeded _ _)
  · exact .refl s

theorem carries_selectProcess (s : Shell) (row : Nat) : s.Carries (s.selectProcess row) := by
  unfold selectProcess
  split
  · exact .refl s
  · exact .refl s

theorem carries_refreshProcesses (s : Shell) (result : Option (List ProcessEntry)) :
    s.Carries (s.refreshProcesses result) := by
  unfold refreshProcesses
  split
  · split
    · exact .refl s
    · exact .refl s
  · exact .refl s

theorem carries_user (s : Shell) (u : UserAction) : s.Carries (u.apply s) := by
  cases u with
  | connect => exact s.carries_connectConsole _
  | disconnect => exact .of_phase (by
      change (Shell.disconnectConsole s).phase ≠ .restoring
      unfold disconnectConsole
      split <;> exact nofun)
  | cancel =>
    change s.Carries s.cancelConnect
    unfold cancelConnect
    split
    · exact .refl s
    · exact .of_phase (by unfold cancelAttempt; split <;> exact nofun)
  | inject env connectAfter => exact s.carries_requestPayloadInject env connectAfter
  | selectProcess row => exact s.carries_selectProcess row
  | refreshProcesses result => exact s.carries_refreshProcesses result

def beforeRestore (s : Shell) (f : UiFrame) : Shell :=
  ((s.frameHealth f).events f.beforeReconnect).pollReconnect f.env |>.events f.beforeRestore

theorem carries_beforeRestore (s : Shell) (f : UiFrame) : s.Carries (s.beforeRestore f) :=
  (carries_events s f.beforeConnect).trans <| (carries_pollConnect _ f.env).trans <|
    (carries_events _ f.beforePayload).trans <| (carries_pollPayloadLifecycle _ f.env).trans <|
      (carries_events _ f.beforeHealth).trans <| (carries_pollSessionHealth _ f.env).trans <|
        (carries_events _ f.beforeReconnect).trans <| (carries_pollReconnect _ f.env).trans <|
          carries_events _ f.beforeRestore

/-! ## The restore -/

def Rematches (s : Shell) (env : FrameEnv) (processes : List ProcessEntry) (row : Nat) : Prop :=
  env.processList = some (some processes) ∧
    matchTarget s.targetIdentity s.resources processes = some row ∧
      s.restore.stage = .refreshingProcesses

/-- The call of `poll_restore_session` is the one that finishes the recovery. -/
def Completes (s : Shell) (env : FrameEnv) : Prop :=
  s.phase = .restoring ∧ (s.pollRestoreSession env).phase = .online ∧
    (s.pollRestoreSession env).stale = false

theorem pollRestoreSession_cases (s : Shell) (env : FrameEnv) :
    s.pollRestoreSession env = s ∨
    ((s.pollRestoreSession env).restore.stage ≠ .refreshingMaps ∧ ¬ s.Completes env) ∨
    (∃ processes row, s.Rematches env processes row ∧
      s.pollRestoreSession env = { s with
        processes := processes
        selectedPid := (processes.getD row ⟨0, ""⟩).pid
        selectedProcessInfo := none
        restore := { s.restore with
          stage := .refreshingMaps
          matchedPid := (processes.getD row ⟨0, ""⟩).pid
          mapTriggered := true } }) ∨
    (s.restore.stage = .refreshingMaps ∧ s.selectedPid = s.restore.matchedPid ∧
      s.pollRestoreSession env = { s with
        phase := .online
        stale := false
        attempt := 0
        restore := { s.restore with stage := .idle } }) := by
  by_cases hphase : s.phase ≠ .restoring
  · exact .inl (if_pos hphase)
  by_cases hdown : s.pool.clientConnected = false ∨ s.hasHello = false
  · exact .inl ((if_neg hphase).trans (if_pos hdown))
  have hpoll : s.pollRestoreSession env = _ := (if_neg hphase).trans (if_neg hdown)
  rw [Completes, hpoll]
  cases hstage : s.restore.stage with
  | idle => exact .inr (.inl ⟨nofun, fun h => absurd (h.1.symm.trans h.2.1) nofun⟩)
  | refreshingProcesses =>
    cases hlist : env.processList with
    | none => exact .inl rfl
    | some result =>
      split_ifs with hepoch
      · exact .inr (.inl ⟨nofun, fun h => absurd (h.1.symm.trans h.2.1) nofun⟩)
      · cases result with
        | none => exact .inr (.inl ⟨nofun, fun h => absurd (h.1.symm.trans h.2.1) nofun⟩)
        | some processes =>
          dsimp only [restoreMatch]
          split_ifs with hempty
          · exact .inr (.inl ⟨nofun, fun h => absurd h.2.2 nofun⟩)
          · cases hmatch : matchTarget s.targetIdentity s.resources processes with
            | none =>
              exact .inr (.inl ⟨nofun, fun h => absurd (h.1.symm.trans h.2.1) nofun⟩)
            | some row =>
              exact .inr (.inr (.inl ⟨processes, row, ⟨hlist, hmatch, hstage⟩, rfl⟩))
  | refreshingMaps =>
    dsimp only [restoreMaps]
    cases hmaps : env.maps with
    | pending => exact .inl rfl
    | failed => exact .inr (.inl ⟨nofun, fun h => absurd (h.1.symm.trans h.2.1) nofun⟩)
    | loaded count =>
      dsimp only
      split_ifs with hother
      · exact .inr (.inl ⟨nofun, fun h => absurd (h.1.symm.trans h.2.1) nofun⟩)
      · exact .inr (.inr (.inr ⟨rfl, not_not.mp (not_or.mp hother).1, rfl⟩))
  | failed => exact .inr (.inl ⟨nofun, fun h => absurd h.2.2 nofun⟩)

theorem pollRestoreSession_maps {env : FrameEnv}
    (hphase : (s.pollRestoreSession env).phase = .restoring)
    (hstage : (s.pollRestoreSession env).restore.stage = .refreshingMaps) :
    s.pollRestoreSession env = s ∨
      ∃ processes row, s.Rematches env processes row ∧
        (s.pollRestoreSession env).restore.matchedPid = (processes.getD row ⟨0, ""⟩).pid ∧
        (s.pollRestoreSession env).targetIdentity = s.targetIdentity ∧
        (s.pollRestoreSession env).adoptions = s.adoptions := by
  rcases s.pollRestoreSession_cases env with h | ⟨h, -⟩ | ⟨processes, row, hmatch, h⟩ | ⟨-, -, h⟩
  · exact .inl h
  · exact absurd hstage h
  · rw [h]
    exact .inr ⟨processes, row, hmatch, rfl, rfl, rfl⟩
  · rw [h] at hphase
    cases hphase

theorem Completes.spec {env : FrameEnv} (h : s.Completes env) :
    s.restore.stage = .refreshingMaps ∧
      (s.pollRestoreSession env).selectedPid = s.restore.matchedPid ∧
      (s.pollRestoreSession env).targetIdentity = s.targetIdentity ∧
      (s.pollRestoreSession env).adoptions = s.adoptions := by
  have honline := h.2.1
  rcases s.pollRestoreSession_cases env with heq | ⟨-, hnot⟩ | ⟨_, _, -, heq⟩ | ⟨hstage, hpid, heq⟩
  · rw [heq, h.1] at honline
    cases honline
  · exact absurd h hnot
  · rw [heq] at honline
    exact absurd (h.1.symm.trans honline) nofun
  · rw [heq]
    exact ⟨hstage, hpid, rfl, rfl⟩

end Shell

/-! ## Runs -/

structure Rematch where
  shell : Shell
  found : Option (List ProcessEntry × Nat)

inductive RematchStep where
  | frame (f : UiFrame)
  | user (u : UserAction)
  | refreshDebugger (processes : List ProcessEntry)
  | cache (resources : Nat → Option ProcessInfo)
  | info (info : Option ProcessInfo)

namespace Rematch

def matched (s : Shell) (f : UiFrame) : Option (List ProcessEntry × Nat) :=
  let s := s.beforeRestore f
  match s.restore.stage, (s.pollRestoreSession f.env).restore.stage, f.env.processList with
  | .refreshingProcesses, .refreshingMaps, some (some processes) =>
    (Shell.matchTarget s.targetIdentity s.resources processes).map fun row => (processes, row)
  | _, _, _ => none

def step (r : Rematch) : RematchStep → Rematch
  | .frame f => ⟨r.shell.frame f, matched r.shell f <|> r.found⟩
  | .user u => { r with shell := u.apply r.shell }
  | .refreshDebugger processes => { r with shell := r.shell.refreshDebugger processes }
  | .cache resources => { r with shell := { r.shell with resources := resources } }
  | .info info => { r with shell := { r.shell with selectedProcessInfo := info } }

/-- What is known in a frame that looks for the target tells it. -/
def Told (world : Nat → Nat → ProcessInfo) (r : Rematch) : RematchStep → Prop
  | .frame f => ∀ processes row, (r.shell.beforeRestore f).Rematches f.env processes row →
    Telling (r.shell.beforeRestore f).targetIdentity (r.shell.beforeRestore f).resources processes
      (world (r.shell.beforeRestore f).adoptions)
  | _ => True

/-- The process with a pid is the target, on a connection, and stands in the list that was matched
last. -/
def Found (world : Nat → Nat → ProcessInfo) (r : Rematch) (tid : TargetIdentity)
    (connection pid : Nat) : Prop :=
  ∃ processes row p, r.found = some (processes, row) ∧ processes[row]? = some p ∧ p.pid = pid ∧
    IsTarget tid processes p (p.identity (some (world connection pid)))

def Sure (world : Nat → Nat → ProcessInfo) (r : Rematch) : Prop :=
  r.shell.phase = .restoring → r.shell.restore.stage = .refreshingMaps →
    r.Found world r.shell.targetIdentity r.shell.adoptions r.shell.restore.matchedPid

variable {world : Nat → Nat → ProcessInfo} {r : Rematch}

theorem Sure.carry (h : r.Sure world) {s : Shell} (hs : r.shell.Carries s) :
    (⟨s, r.found⟩ : Rematch).Sure world := by
  intro hphase hstage
  obtain ⟨hbefore, hrestore, htid, hadoptions⟩ := hs hphase hstage
  have hfound := h hbefore (hrestore ▸ hstage)
  rw [← hrestore, ← htid, ← hadoptions] at hfound
  exact hfound

theorem matched_of_rematches {s : Shell} {f : UiFrame} {processes : List ProcessEntry} {row : Nat}
    (h : (s.beforeRestore f).Rematches f.env processes row)
    (hstage : ((s.beforeRestore f).pollRestoreSession f.env).restore.stage = .refreshingMaps) :
    matched s f = some (processes, row) := by
  obtain ⟨hlist, hmatch, hbefore⟩ := h
  unfold matched
  dsimp only
  rw [hbefore, hstage, hlist]
  dsimp only
  rw [hmatch]
  rfl

theorem matched_of_waiting {s : Shell} {f : UiFrame}
    (h : (s.beforeRestore f).restore.stage = .refreshingMaps) : matched s f = none := by
  unfold matched
  dsimp only
  rw [h]

theorem Sure.frame (h : r.Sure world) {f : UiFrame} (hf : r.Told world (.frame f)) :
    (r.step (.frame f)).Sure world := by
  have hbefore : (⟨r.shell.beforeRestore f, r.found⟩ : Rematch).Sure world :=
    h.carry (r.shell.carries_beforeRestore f)
  intro hphase hstage
  change ((r.shell.beforeRestore f).pollRestoreSession f.env).phase = _ at hphase
  change ((r.shell.beforeRestore f).pollRestoreSession f.env).restore.stage = _ at hstage
  change Found world ⟨_, matched r.shell f <|> r.found⟩
    ((r.shell.beforeRestore f).pollRestoreSession f.env).targetIdentity
    ((r.shell.beforeRestore f).pollRestoreSession f.env).adoptions
    ((r.shell.beforeRestore f).pollRestoreSession f.env).restore.matchedPid
  rcases Shell.pollRestoreSession_maps hphase hstage with heq | ⟨processes, row, hmatch, hpid, htid,
    hadoptions⟩
  · rw [heq] at hphase hstage ⊢
    obtain ⟨processes, row, p, hfound, hp⟩ := hbefore hphase hstage
    refine ⟨processes, row, p, ?_, hp⟩
    rw [matched_of_waiting hstage]
    exact hfound
  · obtain ⟨p, hp, htarget⟩ := (hf processes row hmatch).isTarget hmatch.2.1
    have hrow : processes.getD row ⟨0, ""⟩ = p := by rw [getD_eq_getElem?_getD, hp]; rfl
    rw [hpid, htid, hadoptions, hrow]
    refine ⟨processes, row, p, ?_, hp, rfl, htarget⟩
    rw [matched_of_rematches hmatch hstage]
    rfl

theorem Sure.step (h : r.Sure world) {l : RematchStep} (hl : r.Told world l) :
    (r.step l).Sure world := by
  cases l with
  | frame f => exact h.frame hl
  | user u => exact h.carry (r.shell.carries_user u)
  | refreshDebugger processes =>
    refine h.carry (s := r.shell.refreshDebugger processes) ?_
    unfold Shell.refreshDebugger
    split
    · exact .refl _
    · exact .refl _
  | cache resources => exact h.carry (s := { r.shell with resources := resources }) (.refl _)
  | info info => exact h.carry (s := { r.shell with selectedProcessInfo := info }) (.refl _)

/-- The runs of the shell whose steps all satisfy a guard. -/
abbrev Runs (guard : Rematch → RematchStep → Prop) : Rematch → List RematchStep → Rematch → Prop :=
  Run (fun r l => some (r.step l)) guard

/-- In a run that starts outside a restore, and whose matches are all told the target, a restore is
complete with the target selected. -/
theorem found_of_runs {world : Nat → Nat → ProcessInfo} {r₀ r : Rematch}
    (hstart : r₀.shell.restore.stage ≠ .refreshingMaps) {steps : List RematchStep}
    (h : Runs (Told world) r₀ steps r) {f : UiFrame}
    (hdone : (r.shell.beforeRestore f).Completes f.env) :
    (r.step (.frame f)).Found world (r.step (.frame f)).shell.targetIdentity
      (r.step (.frame f)).shell.adoptions (r.step (.frame f)).shell.selectedPid := by
  have hsure : r.Sure world := h.invariant (P := Sure world)
    (fun _ _ _ hr hl heq => by
      cases heq
      exact hr.step hl)
    fun _ hstage => absurd hstage hstart
  obtain ⟨hstage, hpid, htid, hadoptions⟩ := hdone.spec
  have hbefore := hsure.carry (r.shell.carries_beforeRestore f) hdone.1 hstage
  obtain ⟨processes, row, p, hfound, hp⟩ := hbefore
  change Found world ⟨_, matched r.shell f <|> r.found⟩
    ((r.shell.beforeRestore f).pollRestoreSession f.env).targetIdentity
    ((r.shell.beforeRestore f).pollRestoreSession f.env).adoptions
    ((r.shell.beforeRestore f).pollRestoreSession f.env).selectedPid
  rw [hpid, htid, hadoptions]
  refine ⟨processes, row, p, ?_, hp⟩
  rw [matched_of_waiting hstage]
  exact hfound

/-! ### A console and its processes -/

def resting : Rematch where
  shell := { Shell.init with
    phase := .restoring
    pool := ⟨true, none⟩
    hasHello := true
    stale := true
    adoptions := 1
    targetIdentity := ⟨"eboot.bin", "GAME", "GAME-1", ""⟩
    resources := fun pid => if pid = 5 then some ⟨"GAME-1", "GAME", ""⟩ else none
    restore := ⟨.refreshingProcesses, 0, false, 0⟩ }
  found := none

def restoringFrame (list : Option (Option (List ProcessEntry))) (maps : MapsRefresh) : UiFrame :=
  { Desktop.quietFrame 0 [] with env := ⟨0, 0, false, false, true, list, maps⟩ }

def listed (processes : List ProcessEntry) : RematchStep :=
  .frame (restoringFrame (some (some processes)) .pending)

def mapped : UiFrame := restoringFrame none (.loaded 1)

theorem found_of_runs_resting :
    (((resting.step (listed [⟨5, "eboot.bin"⟩])).step (.frame mapped)).shell.selectedPid = 5) ∧
    ((resting.step (listed [⟨5, "eboot.bin"⟩])).step (.frame mapped)).Found
      (fun _ _ => ⟨"GAME-1", "GAME", ""⟩) ⟨"eboot.bin", "GAME", "GAME-1", ""⟩ 1 5 := by
  refine ⟨rfl, @found_of_runs (fun _ _ => ⟨"GAME-1", "GAME", ""⟩) resting _ nofun
    [listed [⟨5, "eboot.bin"⟩]] (.cons ?_ rfl (.nil _)) mapped ⟨rfl, rfl, rfl⟩⟩
  rintro processes row ⟨hlist, -, -⟩
  cases hlist
  refine ⟨fun p hp f _ => ?_, fun p hp f _ g _ _ _ => ?_, fun _ p hp q hq _ _ => ?_⟩
  · obtain rfl := mem_singleton.mp hp
    cases f <;> rfl
  · obtain rfl := mem_singleton.mp hp
    cases g <;> rfl
  · rw [mem_singleton.mp hp, mem_singleton.mp hq]

theorem found_fails : ¬ ∀ (world : Nat → Nat → ProcessInfo) (r₀ r : Rematch) steps (f : UiFrame),
    r₀.shell.restore.stage ≠ .refreshingMaps → Runs (fun _ _ => True) r₀ steps r →
      (r.shell.beforeRestore f).Completes f.env →
        (r.step (.frame f)).Found world (r.step (.frame f)).shell.targetIdentity
          (r.step (.frame f)).shell.adoptions (r.step (.frame f)).shell.selectedPid := by
  intro h
  have hfound := h (fun _ _ => ⟨"OTHER-1", "OTHER", ""⟩) resting _ [listed [⟨5, "browser"⟩]] mapped
    nofun (.cons trivial rfl (.nil _)) ⟨rfl, rfl, rfl⟩
  obtain ⟨processes, row, p, hfound, hp, -, f, hcommon, hsame, -⟩ := hfound
  cases hfound
  cases hp
  cases hcommon
  exact absurd hsame (by decide)

end Rematch

end MemDbg.Frontend
