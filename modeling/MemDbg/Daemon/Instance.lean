import MemDbg.Lib.Transition

/-!
# The PID file

A daemon that starts looks in a file for the one before it and writes itself down, and one that
stops removes the file if it still names it.  The file is locked, but behind its opening, a start
that finds a dead process there unlinks it without the lock, and what a daemon writes gets into
the file when it is closed, behind the unlocking.  Unless one of these gaps is hit, the file names
the daemon that runs, or is just being written anew (`pidFile_of_calm_run`).
-/

namespace MemDbg.Daemon.Instance

open Function Lib

abbrev Record := Nat × Nat

inductive Use where
  | first
  | again
  | own
deriving DecidableEq

inductive Phase where
  | idle
  | opened (pid : Nat) (use : Use) (ino : Nat)
  | looked (pid : Nat) (use : Use) (read : Option Record)
  | doomed
  | writing (d : Record) (ino : Nat)
  | flushing (d : Record) (ino : Nat)
deriving DecidableEq

def judge (pid : Nat) (use : Use) (answer : Bool) : Option Record → Phase
  | none => .idle
  | some (prevPid, _) => if (prevPid = pid ↔ use = .again) ∨ answer then .idle else .doomed

/-- The file that the path names, among those that were made; what `read_pid_file_fp` reads in
each, which is the line that was written last, whatever a longer one has left behind it; and the
daemon that wrote itself down last, until it ends or comes to remove the file.  No step looks at
this daemon: it is what the file is for. -/
structure System where
  file : Option Nat
  made : Nat
  content : Nat → Option Record
  running : Option Record
  phase : Nat → Phase

def System.init (file : Option Nat) (content : Option Record) : System :=
  ⟨file, 1 + file.getD 0, fun _ => content, none, fun _ => .idle⟩

def System.setPhase (s : System) (i : Nat) (phase : Phase) : System :=
  { s with phase := update s.phase i phase }

/-- A process opens the file, reads it, makes up its mind, unlinks it, opens it to write itself
down, truncates it and closes it, or ends wherever it is.  It fails to truncate the file or, behind
that, to open the stream or to print, and then it unlinks the path. -/
inductive Step where
  | openFile (i pid : Nat) (use : Use)
  | read (i : Nat)
  | judge (i : Nat) (answer : Bool)
  | unlink (i : Nat)
  | create (i : Nat) (d : Record)
  | truncate (i : Nat)
  | flush (i : Nat)
  | fail (i : Nat) (printing : Bool)
  | exit (i pid : Nat)

def step (s : System) : Step → Option System
  | .openFile i pid use =>
    if s.phase i ≠ .idle then none
    else
      match s.file with
      | none => some s
      | some ino => some (s.setPhase i (.opened pid use ino))
  | .read i =>
    match s.phase i with
    | .opened pid .own ino => some { s with
        running := s.running.filter (·.1 ≠ pid)
        phase := update s.phase i
          (if (s.content ino).map Prod.fst = some pid then .doomed else .idle) }
    | .opened pid use ino => some (s.setPhase i (.looked pid use (s.content ino)))
    | _ => none
  | .judge i answer =>
    match s.phase i with
    | .looked pid use read => some (s.setPhase i (Instance.judge pid use answer read))
    | _ => none
  | .unlink i =>
    if s.phase i ≠ .doomed then none
    else some { s with file := none, phase := update s.phase i .idle }
  | .create i d =>
    if s.phase i ≠ .idle then none
    else
      match s.file with
      | some ino => some (s.setPhase i (.writing d ino))
      | none => some { s with
          file := some s.made
          made := s.made + 1
          content := update s.content s.made none
          phase := update s.phase i (.writing d s.made) }
  | .truncate i =>
    match s.phase i with
    | .writing d ino => some { s with
        content := update s.content ino none
        phase := update s.phase i (.flushing d ino) }
    | _ => none
  | .flush i =>
    match s.phase i with
    | .flushing d ino => some { s with
        content := update s.content ino (some d)
        running := some d
        phase := update s.phase i .idle }
    | _ => none
  | .fail i printing =>
    match s.phase i with
    | .writing _ _ => some (s.setPhase i .idle)
    | .flushing _ _ => some { s with
        file := if printing then none else s.file
        phase := update s.phase i .idle }
    | _ => none
  | .exit i pid => some { s with
      running := s.running.filter (·.1 ≠ pid)
      phase := update s.phase i .idle }

/-- The process has emptied the file and not written to it yet. -/
def Phase.Flushing (ino : Nat) (phase : Phase) : Prop := ∃ d, phase = .flushing d ino

/-- When what a daemon writes gets into its file, the path names this file, and no other process
is between opening the file and what it does about it.  A daemon that runs responds with its token
and has a process, and as long as it runs no start fails or ends between emptying the file and
writing to it. -/
def Calm (s : System) : Step → Prop
  | .flush i => (∀ j, j ≠ i → s.phase j = .idle) ∧
    ∀ d ino, s.phase i = .flushing d ino → s.file = some ino
  | .judge i answer => ∀ d, s.running = some d →
    ∀ pid use, s.phase i = .looked pid use (some d) → answer = true
  | .fail i _ | .exit i _ => s.running ≠ none → ∀ ino, ¬(s.phase i).Flushing ino
  | _ => True

def Phase.Knows (d : Record) (ino : Nat) : Phase → Prop
  | .opened _ _ ino' => ino' = ino
  | .looked _ _ read => read = some d ∨ read = none
  | .doomed => False
  | _ => True

structure Named (s : System) (d : Record) (ino : Nat) : Prop where
  file : s.file = some ino
  content : s.content ino = some d ∨
    s.content ino = none ∧ ∃ i, (s.phase i).Flushing ino
  knows : ∀ i, (s.phase i).Knows d ino

variable {s s' : System} {d : Record} {ino i : Nat} {a : Step}

theorem knows_update {phase : Nat → Phase} {new : Phase} (h : ∀ j, j ≠ i → (phase j).Knows d ino)
    (hnew : new.Knows d ino) (j : Nat) : (update phase i new j).Knows d ino := by
  rcases eq_or_ne j i with rfl | hj
  · rwa [update_self]
  · rw [update_of_ne hj]
    exact h j hj

theorem Named.of_phase (h : Named s d ino) {phase : Phase} (hphase : s.phase i = phase) :
    phase.Knows d ino :=
  hphase ▸ h.knows i

theorem exists_flushing {phase : Nat → Phase} {new : Phase} (hi : ¬(phase i).Flushing ino)
    (h : ∃ j, (phase j).Flushing ino) : ∃ j, (update phase i new j).Flushing ino := by
  obtain ⟨j, hj⟩ := h
  refine ⟨j, ?_⟩
  rwa [update_of_ne]
  rintro rfl
  exact hi hj

theorem Named.update (h : Named s d ino) {new : Phase} {running : Option Record}
    (hi : ¬(s.phase i).Flushing ino) (hnew : new.Knows d ino) :
    Named { s with running := running, phase := update s.phase i new } d ino :=
  ⟨h.file, h.content.imp_right fun hc => ⟨hc.1, exists_flushing hi hc.2⟩,
    knows_update (fun j _ => h.knows j) hnew⟩

theorem not_flushing_of_eq {phase phase' : Phase} (hphase : phase = phase')
    (h : ∀ d ino, phase' ≠ .flushing d ino) : ¬phase.Flushing ino := by
  rintro ⟨d, rfl⟩
  exact h d ino hphase.symm

theorem Named.step (h : ∀ d, s.running = some d → ∃ ino, Named s d ino) (hcalm : Calm s a)
    (hstep : step s a = some s') (d : Record) (hd : s'.running = some d) :
    ∃ ino, Named s' d ino := by
  cases a with
  | openFile i pid use =>
    rw [Instance.step] at hstep
    split_ifs at hstep with hidle
    split at hstep <;> cases hstep
    · exact h d hd
    · rename_i ino hfile
      obtain ⟨ino', hnamed⟩ := h d hd
      obtain rfl := Option.some.inj (hfile.symm.trans hnamed.file)
      exact ⟨ino, hnamed.update (not_flushing_of_eq (not_not.mp hidle) (by simp)) rfl⟩
  | read i =>
    rw [Instance.step] at hstep
    split at hstep <;> cases hstep
    · rename_i pid ino hphase
      obtain ⟨hrunning, hpid⟩ := Option.filter_eq_some_iff.mp hd
      obtain ⟨ino', hnamed⟩ := h d hrunning
      obtain rfl : ino = ino' := hnamed.of_phase hphase
      have hother : ¬(s.content ino).map Prod.fst = some pid := by
        rcases hnamed.content with hcontent | ⟨hcontent, -⟩
        · rw [hcontent]
          exact fun heq => of_decide_eq_true hpid (Option.some.inj heq)
        · rw [hcontent]
          exact fun heq => Option.some_ne_none _ heq.symm
      rw [if_neg hother]
      exact ⟨ino, hnamed.update (not_flushing_of_eq hphase (by simp)) trivial⟩
    · rename_i pid use ino _ hphase
      obtain ⟨ino', hnamed⟩ := h d hd
      obtain rfl : ino = ino' := hnamed.of_phase hphase
      exact ⟨ino, hnamed.update (not_flushing_of_eq hphase (by simp))
        (hnamed.content.imp_right And.left)⟩
  | judge i answer =>
    rw [Instance.step] at hstep
    split at hstep <;> cases hstep
    rename_i pid use read hphase
    obtain ⟨ino, hnamed⟩ := h d hd
    refine ⟨ino, hnamed.update (not_flushing_of_eq hphase (by simp)) ?_⟩
    rcases hnamed.of_phase hphase with rfl | rfl
    · obtain rfl := hcalm d hd pid use hphase
      rw [judge, if_pos (.inr rfl)]
      trivial
    · trivial
  | unlink i =>
    rw [Instance.step] at hstep
    split_ifs at hstep with hdoomed
    cases hstep
    obtain ⟨ino, hnamed⟩ := h d hd
    exact (hnamed.of_phase (not_not.mp hdoomed)).elim
  | create i d' =>
    rw [Instance.step] at hstep
    split_ifs at hstep with hidle
    split at hstep <;> rename_i hfile <;> cases hstep
    · obtain ⟨ino, hnamed⟩ := h d hd
      exact ⟨ino, hnamed.update (not_flushing_of_eq (not_not.mp hidle) (by simp)) trivial⟩
    · obtain ⟨ino, hnamed⟩ := h d hd
      rw [hnamed.file] at hfile
      cases hfile
  | truncate i =>
    rw [Instance.step] at hstep
    split at hstep <;> cases hstep
    rename_i d' ino hphase
    obtain ⟨ino', hnamed⟩ := h d hd
    refine ⟨ino', hnamed.file, ?_, knows_update (fun j _ => hnamed.knows j) trivial⟩
    rcases eq_or_ne ino' ino with rfl | hne
    · exact .inr ⟨update_self .., i, d', update_self ..⟩
    · dsimp only
      rw [update_of_ne hne]
      exact hnamed.content.imp_right fun hc =>
        ⟨hc.1, exists_flushing (not_flushing_of_eq hphase (by simp)) hc.2⟩
  | flush i =>
    obtain ⟨hothers, hown⟩ := hcalm
    rw [Instance.step] at hstep
    split at hstep <;> cases hstep
    rename_i d' ino hphase
    cases hd
    refine ⟨ino, hown d ino hphase, .inl (update_self ..),
      knows_update (fun j hj => ?_) trivial⟩
    rw [hothers j hj]
    trivial
  | fail i printing =>
    rw [Instance.step] at hstep
    split at hstep <;> cases hstep
    · rename_i hphase
      obtain ⟨ino, hnamed⟩ := h d hd
      exact ⟨ino, hnamed.update (not_flushing_of_eq hphase (by simp)) trivial⟩
    · rename_i d' ino hphase
      exact absurd ⟨d', hphase⟩ (hcalm (Option.ne_none_iff_exists'.mpr ⟨d, hd⟩) ino)
  | exit i pid =>
    cases hstep
    have hrunning := (Option.filter_eq_some_iff.mp hd).1
    obtain ⟨ino, hnamed⟩ := h d hrunning
    exact ⟨ino, hnamed.update (hcalm (Option.ne_none_iff_exists'.mpr ⟨d, hrunning⟩) ino) trivial⟩

/-- **The PID file names the daemon that runs.**  Whatever the file was and however starts and
stops interleave: if at the end of each writing the path names the file that is written and no
other process is between opening the file and what it does about it, and no start is lost between
emptying the file and writing to it, then as long as the daemon that wrote itself down last runs,
the path names a file with it, or one that a later start has emptied and is about to write to, and
no start is going to unlink it. -/
theorem pidFile_of_calm_run {file : Option Nat} {content : Option Record} {steps : List Step}
    (h : Run Instance.step Calm (.init file content) steps s) (hd : s.running = some d) :
    (∃ ino, s.file = some ino ∧
      (s.content ino = some d ∨ s.content ino = none ∧ ∃ i, (s.phase i).Flushing ino)) ∧
    ∀ i, s.phase i ≠ .doomed := by
  have hinit : ∀ d, (System.init file content).running = some d →
      ∃ ino, Named (.init file content) d ino := by
    rintro d ⟨⟩
  obtain ⟨ino, hnamed⟩ :=
    h.invariant (fun _ _ _ hs hcalm hstep => Named.step hs hcalm hstep) hinit d hd
  exact ⟨⟨ino, hnamed.file, hnamed.content⟩, fun i => hnamed.of_phase⟩

theorem pidFile_of_calm_run_emptied : ∃ s : System, s.running = some (7, 0xabc) ∧
    s.content 1 = none ∧ s.phase 2 = .opened 11 .first 1 ∧ (∀ i, s.phase i ≠ .doomed) ∧
    ∃ ino, s.file = some ino ∧ (s.content ino = some (7, 0xabc) ∨
      s.content ino = none ∧ ∃ i, (s.phase i).Flushing ino) := by
  have hrun : Run step Calm (.init none none)
      [.create 0 (7, 0xabc), .truncate 0, .flush 0, .openFile 1 9 .first, .read 1, .judge 1 true,
        .create 1 (9, 0xdef), .truncate 1, .openFile 2 11 .first] _ :=
    .cons trivial rfl (.cons trivial rfl (.cons ⟨fun j hj =>
      (update_of_ne hj ..).trans (update_of_ne hj ..), fun d ino h => by
      cases h
      rfl⟩ rfl (.cons trivial rfl (.cons trivial rfl (.cons (fun _ _ _ _ _ => rfl) rfl
        (.cons trivial rfl (.cons trivial rfl (.cons trivial rfl (.nil _)))))))))
  have hfile := pidFile_of_calm_run hrun rfl
  exact ⟨_, rfl, rfl, rfl, hfile.2, hfile.1⟩

end MemDbg.Daemon.Instance
