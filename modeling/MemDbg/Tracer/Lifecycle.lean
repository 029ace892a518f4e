import MemDbg.Debug.Borrow

/-!
# The life of a tracer

The tracer follows a process from a thread of its own, which is started and stopped by requests of
any clients.  What is between two sections of code under `g_mtx` is a step: the calls of the system,
the tests of `g_stop_req` and the sections themselves.  What the system answers is part of the step.
-/

namespace MemDbg.Tracer

open List Function Lib Debug Option

/-! ## The state -/

inductive TracerState where
  | idle
  | starting
  | running
  | stopped
  | crashed
  | exited
deriving DecidableEq

structure Globals where
  running : Bool
  starting : Bool
  stopReq : Bool
  threadCreated : Bool
  state : TracerState
  targetPid : Int
  thread : Option Nat
deriving DecidableEq

inductive ThreadAt where
  | entered
  | attaching
  | refused
  | attached
  | resuming
  | resumed
  | ready
  | looping
  | waiting
  | gone (signalled : Bool)
  | crashed
  | continuing
  | done
  | closing
  | finished
deriving DecidableEq

def ThreadAt.holds : ThreadAt → Bool
  | entered => false
  | attaching => false
  | refused => false
  | closing => false
  | finished => false
  | _ => true

structure TracerThread where
  pid : Int
  pc : ThreadAt
  joins : Nat
deriving DecidableEq

structure TracedProcess where
  alive : Bool
  traced : Bool
  sigstop : Bool
deriving DecidableEq

structure Session where
  pid : Int
  machine : Machine

inductive StartAt where
  | checking
  | reaping (reapPrevious : Bool)
  | reaped
  | resetting
  | creating
  | failed
  | created
deriving DecidableEq

inductive StopAt where
  | entered
  | waking (wakeTarget joinThread : Bool) (targetPid : Int)
  | joining (joinThread : Bool) (targetPid : Int)
  | ending (targetPid : Int)
deriving DecidableEq

inductive ClientAt where
  | idle
  | tracerAttach (pid : Int)
  | start (pid : Int) (before after : Session) (pc : StartAt)
  | stop (debugPid : Option Int) (pc : StopAt)
  | debugAttach (pid : Int)

def ClientAt.busy : ClientAt → Bool
  | start _ _ _ .checking => false
  | start _ _ _ _ => true
  | stop _ .entered => false
  | stop _ _ => true
  | _ => false

inductive Answer where
  | tracerAttach (status : Status) (before after : Session)
  | tracerDetach
  | debugAttach (status : Status)

/-- The daemon. -/
structure Tracers where
  g : Globals
  threads : List TracerThread
  targets : Int → TracedProcess
  session : Session
  clients : Nat → ClientAt
  answers : List Answer

/-! ## Steps -/

inductive Request where
  | tracerAttach (pid : Int)
  | tracerDetach
  | debugAttach (pid : Int)

def Request.begin : Request → ClientAt
  | tracerAttach pid => .tracerAttach pid
  | tracerDetach => .stop none .entered
  | debugAttach pid => .stop (some pid) .entered

inductive TracerWait where
  | again
  | error
  | exited (signalled : Bool)
  | sigstop
  | crash
  | signal
deriving DecidableEq

/-- What the system answers a thread.  `half` says that `pal_debug_attach` fails with the process
attached: neither its wait nor the `PT_DETACH` behind that succeeds. -/
structure ThreadOutcome where
  ok : Bool
  wait : TracerWait
  half : Bool

inductive Errno where
  | acces
  | perm
  | srch
  | noent
  | inval
  | timedout
  | connreset
  | busy
  | already
  | notsup
  | opnotsupp
  | other

def palStatusFromErrnoCode : Errno → Status
  | .acces => .errPermission
  | .perm => .errPermission
  | .srch => .errNotFound
  | .noent => .errNotFound
  | .inval => .errParam
  | .timedout => .errState
  | .connreset => .errNet
  | .busy => .errState
  | .already => .errState
  | .notsup => .errUnsupported
  | .opnotsupp => .errUnsupported
  | .other => .errIo

structure ClientOutcome where
  ok : Bool
  errno : Errno
  detach : DetachOutcome
  target : Target

/-- A step. -/
inductive Label where
  | request (c : Nat) (r : Request)
  | client (c : Nat) (o : ClientOutcome)
  | thread (t : Nat) (o : ThreadOutcome)
  | dies (pid : Int)
  | debug (op : Operation)

namespace Tracers

def goto (s : Tracers) (c : Nat) (a : ClientAt) : Tracers :=
  { s with clients := update s.clients c a }

def answer (s : Tracers) (c : Nat) (a : Answer) : Tracers :=
  { s.goto c .idle with answers := s.answers ++ [a] }

def join (s : Tracers) : Option Tracers :=
  match s.g.thread with
  | none => none
  | some t =>
    match s.threads[t]? with
    | none => none
    | some th =>
      if th.pc = .finished then
        some { s with threads := s.threads.set t { th with joins := th.joins + 1 } }
      else none

def create (s : Tracers) : Tracers :=
  { s with
    threads := s.threads ++ [⟨0, .entered, 0⟩]
    g := { s.g with thread := some s.threads.length } }

variable (supported : Bool)

def stepStart (s : Tracers) (c : Nat) (pid : Int) (before after : Session) (o : ClientOutcome) :
    StartAt → Option Tracers
  | .checking =>
    if pid ≤ 0 then some (s.answer c (.tracerAttach .errParam before after))
    else if supported = false then some (s.answer c (.tracerAttach .errUnsupported before after))
    else if s.g.running || s.g.starting then
      some (s.answer c (.tracerAttach .errState before after))
    else some (s.goto c (.start pid before after (.reaping s.g.threadCreated)))
  | .reaping true => s.join.map fun s => s.goto c (.start pid before after .reaped)
  | .reaping false => some (s.goto c (.start pid before after .resetting))
  | .reaped =>
    some ({ s with g := { s.g with threadCreated := false } }.goto c
      (.start pid before after .resetting))
  | .resetting =>
    some ({ s with
      g := { s.g with stopReq := false, state := .starting, targetPid := pid, starting := true }
      }.goto c (.start pid before after .creating))
  | .creating =>
    if o.ok then some (s.create.goto c (.start pid before after .created))
    else some (s.goto c (.start pid before after .failed))
  | .failed =>
    some ({ s with g := { s.g with running := false, starting := false, state := .stopped } }.answer
      c (.tracerAttach .errNomem before after))
  | .created =>
    some ({ s with g := { s.g with threadCreated := true } }.answer c
      (.tracerAttach .ok before after))

def kill (s : Tracers) (pid : Int) : Tracers :=
  if (s.targets pid).alive then
    { s with targets := update s.targets pid { s.targets pid with sigstop := true } }
  else s

def stepStop (s : Tracers) (c : Nat) (debugPid : Option Int) : StopAt → Option Tracers
  | .entered =>
    some ({ s with g := { s.g with stopReq := true } }.goto c
      (.stop debugPid (.waking s.g.running s.g.threadCreated s.g.targetPid)))
  | .waking wakeTarget joinThread targetPid =>
    some ((if wakeTarget && decide (0 < targetPid) then s.kill targetPid else s).goto c
      (.stop debugPid (.joining joinThread targetPid)))
  | .joining true targetPid => s.join.map fun s => s.goto c (.stop debugPid (.ending targetPid))
  | .joining false targetPid => some (s.goto c (.stop debugPid (.ending targetPid)))
  | .ending _ =>
    let s := { s with g :=
      { s.g with
        threadCreated := false, starting := false, running := false, state := .stopped
        targetPid := 0 } }
    match debugPid with
    | none => some (s.answer c .tracerDetach)
    | some pid => some (s.goto c (.debugAttach pid))

def debuggerAttach (pid : Int) (o : ClientOutcome) (session : Session) : Status × Session :=
  if supported = false then (.errUnsupported, session)
  else if pid ≤ 1 then (.errPermission, session)
  else if session.machine.dbg.attached then
    (if session.pid = pid then .ok else .errState, session)
  else if o.ok then (.ok, ⟨pid, .attach, o.target⟩)
  else (palStatusFromErrnoCode o.errno, ⟨0, .zero, session.machine.target⟩)

variable (prog : Program)

def stepClient (s : Tracers) (c : Nat) (o : ClientOutcome) : Option Tracers :=
  match s.clients c with
  | .idle => none
  | .tracerAttach pid =>
    match debuggerDetach prog o.detach s.session.machine with
    | (.ok, m) =>
      some ({ s with session := ⟨0, m⟩ }.goto c (.start pid s.session ⟨0, m⟩ .checking))
    | (st, m) =>
      some ({ s with session := ⟨s.session.pid, m⟩ }.answer c
        (.tracerAttach st s.session ⟨s.session.pid, m⟩))
  | .start pid before after pc => s.stepStart supported c pid before after o pc
  | .stop debugPid pc => s.stepStop c debugPid pc
  | .debugAttach pid =>
    let (st, session) := debuggerAttach supported pid o s.session
    some ({ s with session := session }.answer c (.debugAttach st))

def moveThread (s : Tracers) (t : Nat) (th : TracerThread) (pc : ThreadAt) : Tracers :=
  { s with threads := s.threads.set t { th with pc := pc } }

def stepThread (s : Tracers) (t : Nat) (th : TracerThread) (o : ThreadOutcome) : Option Tracers :=
  let target := s.targets th.pid
  match th.pc with
  | .entered => some (s.moveThread t { th with pid := s.g.targetPid } .attaching)
  | .attaching =>
    if o.ok && target.alive then
      some ({ s with
        targets := update s.targets th.pid { target with traced := true }
        }.moveThread t th .attached)
    else if o.half && target.alive then
      some ({ s with
        targets := update s.targets th.pid { target with traced := true }
        }.moveThread t th .refused)
    else some (s.moveThread t th .refused)
  | .refused =>
    some ({ s with g := { s.g with state := .stopped, running := false, starting := false }
      }.moveThread t th .finished)
  | .attached => some (s.moveThread t th (if s.g.stopReq then .done else .resuming))
  | .resuming => some (s.moveThread t th (if o.ok then .resumed else .done))
  | .resumed => some (s.moveThread t th (if s.g.stopReq then .done else .ready))
  | .ready =>
    some ({ s with g := { s.g with state := .running, running := true, starting := false }
      }.moveThread t th .looping)
  | .looping => some (s.moveThread t th (if s.g.stopReq then .done else .waiting))
  | .waiting =>
    match o.wait with
    | .again => some (s.moveThread t th .looping)
    | .error => some (s.moveThread t th .done)
    | .exited signalled => if target.alive then none else some (s.moveThread t th (.gone signalled))
    | .sigstop =>
      if target.sigstop then
        some ({ s with
          targets := update s.targets th.pid { target with sigstop := false }
          }.moveThread t th .continuing)
      else none
    | .crash => some (s.moveThread t th .crashed)
    | .signal => some (s.moveThread t th .continuing)
  | .gone signalled =>
    some ({ s with
      g := { s.g with state := if signalled then .crashed else .exited, running := false }
      }.moveThread t th .done)
  | .crashed =>
    some ({ s with g := { s.g with state := .crashed, running := false } }.moveThread t th .done)
  | .continuing => some (s.moveThread t th .looping)
  | .done =>
    some ({ s with
      targets := if o.ok then update s.targets th.pid { target with traced := false }
        else s.targets
      }.moveThread t th .closing)
  | .closing =>
    some ({ s with
      g :=
        { s.g with
          running := false, starting := false
          state :=
            if s.g.state = TracerState.crashed ∨ s.g.state = TracerState.exited then s.g.state
            else .stopped }
      }.moveThread t th .finished)
  | .finished => none

def step (s : Tracers) : Label → Option Tracers
  | .request c r =>
    match s.clients c with
    | .idle => some (s.goto c r.begin)
    | _ => none
  | .client c o => s.stepClient supported prog c o
  | .thread t o =>
    match s.threads[t]? with
    | none => none
    | some th => s.stepThread t th o
  | .dies pid =>
    some { s with targets := update s.targets pid ⟨false, false, false⟩ }
  | .debug op =>
    let m := (op.serve prog s.session.machine).2
    some { s with session := ⟨if m.dbg.attached then s.session.pid else 0, m⟩ }

def init (targets : Int → TracedProcess) (session : Session) : Tracers where
  g := ⟨false, false, false, false, .idle, 0, none⟩
  threads := []
  targets := targets
  session := session
  clients _ := .idle
  answers := []

/-! ## Safety -/

/-- At most one thread lives, each one that has been replaced has been joined once, and a start that
fails has left the session alone. -/
structure Safe (s : Tracers) : Prop where
  alive : (s.threads.filter fun th => th.pc ≠ .finished).length ≤ 1
  joins : ∀ th ∈ s.threads, th.joins ≤ 1
  replaced : ∀ th ∈ s.threads.dropLast, th.joins = 1
  answers : ∀ status before after, .tracerAttach status before after ∈ s.answers →
    status ≠ .ok → after = before

/-- Behind a stop every thread has been joined once, and its target is neither traced nor stopped by
the signal. -/
structure Stopped (s : Tracers) (targetPid : Int) : Prop where
  joins : ∀ th ∈ s.threads, th.pc = .finished ∧ th.joins = 1
  traced : (s.targets targetPid).traced = false
  sigstop : (s.targets targetPid).sigstop = false

/-! ## Careful steps -/

def Free (s : Tracers) : Prop := ∀ c, (s.clients c).busy = false

/-- The step takes none of the ways that go wrong. -/
def Careful (s : Tracers) : Label → Prop
  | .client c o =>
    match s.clients c with
    | .tracerAttach _ => s.session.machine.dbg.attached = true →
        (detachStop prog o.detach s.session.machine).1 = .ok ∧ (∀ i, o.detach.write i = .ok) ∧
          o.detach.detach = .ok
    | .start pid _ _ .checking =>
      s.Free ∧ 0 < pid ∧ supported = true ∧ s.g.running = false ∧ s.g.starting = false
    | .start _ _ _ .creating => o.ok = true
    | .stop _ .entered => s.Free
    | .stop _ (.waking true _ targetPid) =>
      0 < targetPid → (s.targets targetPid).alive = true → (s.targets targetPid).traced = true
    | _ => True
  | .thread t o =>
    ∀ th, s.threads[t]? = some th → (s.targets th.pid).alive = true →
      (th.pc = .attaching → o.ok = true ∨ o.half = false) ∧
        (th.pc = .done → o.ok = true ∧ (s.targets th.pid).sigstop = false)
  | _ => True

/-! ## The invariant -/

def Settled (s : Tracers) : Prop := ∀ th ∈ s.threads, th.pc = .finished ∧ th.joins = 1

def Held (s : Tracers) : Prop :=
  ∃ rest last, s.threads = rest ++ [last] ∧ (∀ th ∈ rest, th.pc = .finished ∧ th.joins = 1) ∧
    last.joins = 0 ∧ s.g.thread = some rest.length

def Reapable (s : Tracers) (created : Bool) : Prop := if created then s.Held else s.Settled

def Phase (s : Tracers) : ClientAt → Prop
  | .start _ _ _ (.reaping reapPrevious) =>
    s.g.threadCreated = reapPrevious ∧ s.Reapable reapPrevious
  | .start _ _ _ .reaped => s.Settled
  | .start _ _ _ .resetting => s.g.threadCreated = false ∧ s.Settled
  | .start _ _ _ .creating => s.g.threadCreated = false ∧ s.Settled
  | .start _ _ _ .failed => False
  | .start _ _ _ .created => s.Held
  | .stop _ (.waking _ joinThread _) => s.Reapable joinThread
  | .stop _ (.joining joinThread _) => s.Reapable joinThread
  | .stop _ (.ending _) => s.Settled
  | _ => True

def Holds (s : Tracers) (pid : Int) : Prop :=
  ∃ rest last, s.threads = rest ++ [last] ∧ last.pid = pid ∧ last.pc.holds = true

structure Inv (s : Tracers) : Prop where
  apart : ∀ c d, (s.clients c).busy = true → (s.clients d).busy = true → c = d
  phase : ∀ c, s.Phase (s.clients c)
  free : s.Free → s.Reapable s.g.threadCreated
  traced : ∀ p, (s.targets p).traced = true → (s.targets p).alive = true ∧ s.Holds p
  sigstop : ∀ p, (s.targets p).sigstop = true → (s.targets p).traced = true
  answers : ∀ status before after, .tracerAttach status before after ∈ s.answers →
    status ≠ .ok → after = before

variable {s s' : Tracers} {c t : Nat} {a : ClientAt} {th : TracerThread}

theorem phase_of_not_busy (s : Tracers) (h : a.busy = false) : s.Phase a := by
  cases a with
  | start pid before after pc =>
    cases pc with
    | checking => trivial
    | _ => cases h
  | stop debugPid pc =>
    cases pc with
    | entered => trivial
    | _ => cases h
  | _ => trivial

theorem Reapable.mono {b : Bool} (h : s.Reapable b) (hheld : s.Held → s'.Held)
    (hsettled : s.Settled → s'.Settled) : s'.Reapable b := by
  cases b with
  | false => exact hsettled h
  | true => exact hheld h

theorem Phase.mono (h : s.Phase a) (hheld : s.Held → s'.Held) (hsettled : s.Settled → s'.Settled)
    (hcreated : s'.g.threadCreated = s.g.threadCreated) : s'.Phase a := by
  cases a with
  | start pid before after pc =>
    cases pc with
    | checking => trivial
    | reaping b => exact ⟨hcreated.trans h.1, h.2.mono hheld hsettled⟩
    | reaped => exact hsettled h
    | resetting => exact ⟨hcreated.trans h.1, hsettled h.2⟩
    | creating => exact ⟨hcreated.trans h.1, hsettled h.2⟩
    | failed => exact h
    | created => exact hheld h
  | stop debugPid pc =>
    cases pc with
    | entered => trivial
    | waking w b p => exact Reapable.mono h hheld hsettled
    | joining b p => exact Reapable.mono h hheld hsettled
    | ending p => exact hsettled h
  | _ => trivial

theorem Reapable.kept {b : Bool} (h : s.Reapable b) : s.Held ∨ s.Settled := by
  cases b with
  | false => exact .inr h
  | true => exact .inl h

theorem Inv.kept (h : s.Inv) : s.Held ∨ s.Settled := by
  by_cases hfree : s.Free
  · exact (h.free hfree).kept
  · obtain ⟨c, hc⟩ := not_forall.mp hfree
    have hphase := h.phase c
    generalize s.clients c = a at hc hphase
    cases a with
    | start pid before after pc =>
      cases pc with
      | checking => exact absurd rfl hc
      | reaping b => exact hphase.2.kept
      | reaped => exact .inr hphase
      | resetting => exact .inr hphase.2
      | creating => exact .inr hphase.2
      | failed => exact hphase.elim
      | created => exact .inl hphase
    | stop debugPid pc =>
      cases pc with
      | entered => exact absurd rfl hc
      | waking w b p => exact Reapable.kept hphase
      | joining b p => exact Reapable.kept hphase
      | ending p => exact .inr hphase
    | _ => exact absurd rfl hc

theorem Settled.not_holds (h : s.Settled) (p : Int) : ¬ s.Holds p := by
  rintro ⟨rest, last, hthreads, -, hholds⟩
  have hlast := (h last (by rw [hthreads]; exact mem_append_right _ mem_cons_self)).1
  rw [hlast] at hholds
  cases hholds

theorem Inv.stopped (h : s.Inv) (hsettled : s.Settled) (p : Int) : s.Stopped p where
  joins := hsettled
  traced := Bool.eq_false_iff.mpr fun htraced => hsettled.not_holds p (h.traced p htraced).2
  sigstop := Bool.eq_false_iff.mpr fun hsigstop =>
    hsettled.not_holds p (h.traced p (h.sigstop p hsigstop)).2

theorem filter_of_settled {threads : List TracerThread}
    (h : ∀ th ∈ threads, th.pc = .finished ∧ th.joins = 1) :
    threads.filter (fun th => th.pc ≠ .finished) = [] :=
  filter_eq_nil_iff.mpr fun th hth => by simp [(h th hth).1]

theorem Inv.safe (h : s.Inv) : s.Safe := by
  rcases h.kept with ⟨rest, last, hthreads, hrest, hlast, -⟩ | hsettled
  · refine ⟨?_, ?_, ?_, h.answers⟩
    · rw [hthreads, filter_append, filter_of_settled hrest, nil_append]
      exact length_filter_le _ _
    · intro th hth
      rw [hthreads, mem_append, mem_singleton] at hth
      rcases hth with hth | rfl
      · exact (hrest th hth).2.le
      · rw [hlast]
        exact Nat.zero_le 1
    · rw [hthreads, dropLast_concat]
      exact fun th hth => (hrest th hth).2
  · refine ⟨?_, fun th hth => (hsettled th hth).2.le, ?_, h.answers⟩
    · rw [filter_of_settled hsettled]
      exact Nat.zero_le 1
    · exact fun th hth => (hsettled th (dropLast_subset _ hth)).2

/-! ## Steps of a client -/

theorem Inv.traced_congr (h : s.Inv) (hthreads : s'.threads = s.threads)
    (htargets : s'.targets = s.targets) (p : Int) (hp : (s'.targets p).traced = true) :
    (s'.targets p).alive = true ∧ s'.Holds p := by
  rw [htargets] at hp ⊢
  obtain ⟨halive, hholds⟩ := h.traced p hp
  exact ⟨halive, by rwa [Holds, hthreads]⟩

theorem Inv.sigstop_congr (h : s.Inv) (htargets : s'.targets = s.targets) (p : Int)
    (hp : (s'.targets p).sigstop = true) : (s'.targets p).traced = true := by
  rw [htargets] at hp ⊢
  exact h.sigstop p hp

theorem Inv.of_idle (h : s.Inv) (hc : (s.clients c).busy = false) (ha : a.busy = false)
    (hclients : s'.clients = update s.clients c a) (hg : s'.g = s.g)
    (hthreads : s'.threads = s.threads) (htargets : s'.targets = s.targets)
    (hanswers : ∀ status before after, .tracerAttach status before after ∈ s'.answers →
      status ≠ .ok → after = before) : s'.Inv := by
  have hheld : s.Held → s'.Held := by
    rintro ⟨rest, last, hlast⟩
    exact ⟨rest, last, by rwa [hthreads, hg]⟩
  have hsettled : s.Settled → s'.Settled := fun hs => by rwa [Settled, hthreads]
  have hbusy : ∀ d, (s'.clients d).busy = (s.clients d).busy := by
    intro d
    rw [hclients]
    by_cases hd : d = c
    · rw [hd, update_self, ha, hc]
    · rw [update_of_ne hd]
  refine ⟨?_, ?_, ?_, h.traced_congr hthreads htargets, h.sigstop_congr htargets, hanswers⟩
  · intro d e hd he
    rw [hbusy] at hd he
    exact h.apart d e hd he
  · intro d
    rw [hclients]
    by_cases hd : d = c
    · rw [hd, update_self]
      exact phase_of_not_busy s' ha
    · rw [update_of_ne hd]
      exact (h.phase d).mono hheld hsettled (by rw [hg])
  · intro hfree
    rw [hg]
    exact (h.free fun d => (hbusy d).symm.trans (hfree d)).mono hheld hsettled

theorem Inv.of_busy (h : s.Inv) (hc : (s.clients c).busy = true ∨ s.Free)
    (hclients : s'.clients = update s.clients c a) (hphase : s'.Phase a)
    (hfree : a.busy = false → s'.Reapable s'.g.threadCreated)
    (htraced : ∀ p, (s'.targets p).traced = true → (s'.targets p).alive = true ∧ s'.Holds p)
    (hsigstop : ∀ p, (s'.targets p).sigstop = true → (s'.targets p).traced = true)
    (hanswers : ∀ status before after, .tracerAttach status before after ∈ s'.answers →
      status ≠ .ok → after = before) : s'.Inv := by
  have hother : ∀ d, d ≠ c → (s'.clients d).busy = false := by
    intro d hd
    rw [hclients, update_of_ne hd, Bool.eq_false_iff]
    intro hbusy
    rcases hc with hc | hc
    · exact hd (h.apart d c hbusy hc)
    · exact Bool.false_ne_true ((hc d).symm.trans hbusy)
  have hself : s'.clients c = a := by rw [hclients, update_self]
  refine ⟨?_, ?_, ?_, htraced, hsigstop, hanswers⟩
  · intro d e hd he
    by_cases hdc : d = c
    · by_cases hec : e = c
      · rw [hdc, hec]
      · exact absurd he (Bool.eq_false_iff.mp (hother e hec))
    · exact absurd hd (Bool.eq_false_iff.mp (hother d hdc))
  · intro d
    by_cases hd : d = c
    · rw [hd, hself]
      exact hphase
    · exact phase_of_not_busy s' (hother d hd)
  · intro hs
    exact hfree (hself ▸ hs c)

theorem Inv.of_globals (h : s.Inv) (hc : (s.clients c).busy = true ∨ s.Free)
    (hclients : s'.clients = update s.clients c a) (hphase : s'.Phase a)
    (hfree : a.busy = false → s'.Reapable s'.g.threadCreated)
    (hthreads : s'.threads = s.threads) (htargets : s'.targets = s.targets)
    (hanswers : ∀ status before after, .tracerAttach status before after ∈ s'.answers →
      status ≠ .ok → after = before) : s'.Inv :=
  h.of_busy hc hclients hphase hfree (h.traced_congr hthreads htargets) (h.sigstop_congr htargets)
    hanswers

theorem Held.join (h : s.Held) (hjoin : s.join = some s') : s'.Settled ∧ (∀ p, ¬ s.Holds p) ∧
    s'.g = s.g ∧ s'.targets = s.targets ∧ s'.clients = s.clients ∧ s'.answers = s.answers := by
  obtain ⟨rest, last, hthreads, hrest, hlast, hthread⟩ := h
  have hget : s.threads[rest.length]? = some last := by
    rw [hthreads, getElem?_concat_length]
  rw [Tracers.join, hthread] at hjoin
  dsimp only at hjoin
  rw [hget] at hjoin
  dsimp only at hjoin
  split_ifs at hjoin with hfinished
  obtain rfl := some.inj hjoin
  refine ⟨?_, ?_, rfl, rfl, rfl, rfl⟩
  · intro th hth
    have hset : s.threads.set rest.length { last with joins := last.joins + 1 } =
        rest ++ [{ last with joins := last.joins + 1 }] := by
      rw [hthreads, set_append_right _ _ le_rfl, Nat.sub_self]
      rfl
    rw [show (_ : Tracers).threads = _ from hset, mem_append, mem_singleton] at hth
    rcases hth with hth | rfl
    · exact hrest th hth
    · exact ⟨hfinished, by rw [hlast]⟩
  · rintro p ⟨rest', last', hthreads', -, hholds⟩
    obtain ⟨-, heq⟩ := append_inj' (hthreads.symm.trans hthreads') rfl
    obtain rfl := singleton_inj.mp heq
    rw [hfinished] at hholds
    cases hholds

theorem Inv.joined (h : s.Inv) (hc : (s.clients c).busy = true) (hheld : s.Held)
    (hstep : s.join.map (·.goto c a) = some s') (hbusy : a.busy = true)
    (hphase : s'.Settled → s'.Phase a) : s'.Inv := by
  obtain ⟨s₁, hjoin, rfl⟩ := map_eq_some_iff.mp hstep
  obtain ⟨hsettled, hfree, hg, htargets, hclients, hanswers⟩ := hheld.join hjoin
  refine h.of_busy (.inl hc) (congrArg (update · c _) hclients) (hphase hsettled)
    (fun hidle => absurd hbusy (Bool.eq_false_iff.mp hidle)) ?_ (h.sigstop_congr htargets)
    (hanswers ▸ h.answers)
  intro p hp
  exact absurd (h.traced p (htargets ▸ hp)).2 (hfree p)

theorem Inv.answers_concat (h : s.Inv) {new : Answer}
    (hnew : ∀ status before after, new = .tracerAttach status before after → status ≠ .ok →
      after = before) :
    ∀ status before after, .tracerAttach status before after ∈ s.answers ++ [new] →
      status ≠ .ok → after = before := by
  intro status before after hmem hstatus
  rcases mem_append.mp hmem with hmem | hmem
  · exact h.answers status before after hmem hstatus
  · exact hnew status before after (mem_singleton.mp hmem).symm hstatus

variable {supported : Bool} {prog : Program} {pid : Int} {before after : Session}
  {debugPid : Option Int} {o : ClientOutcome}

theorem Inv.stepStart (h : s.Inv) {pc : StartAt} (hc : s.clients c = .start pid before after pc)
    (hcareful : s.Careful supported prog (.client c o))
    (hstep : s.stepStart supported c pid before after o pc = some s') : s'.Inv := by
  have hphase := h.phase c
  rw [Careful, hc] at hcareful
  rw [hc] at hphase
  cases pc with
  | checking =>
    obtain ⟨hfree, hpid, hsupported, hrunning, hstarting⟩ := hcareful
    rw [Tracers.stepStart, if_neg (Int.not_le.mpr hpid), hsupported, if_neg Bool.noConfusion,
      hrunning, hstarting, if_neg Bool.noConfusion] at hstep
    obtain rfl := some.inj hstep
    exact h.of_globals (.inr hfree) rfl ⟨rfl, h.free hfree⟩ nofun rfl rfl h.answers
  | reaping reapPrevious =>
    have hbusy : (s.clients c).busy = true := by rw [hc]; rfl
    cases reapPrevious with
    | false =>
      obtain rfl := some.inj hstep
      exact h.of_globals (.inl hbusy) rfl hphase nofun rfl rfl h.answers
    | true => exact h.joined hbusy hphase.2 hstep rfl id
  | reaped =>
    obtain rfl := some.inj hstep
    exact h.of_globals (.inl (by rw [hc]; rfl)) rfl ⟨rfl, hphase⟩ nofun rfl rfl h.answers
  | resetting =>
    obtain rfl := some.inj hstep
    exact h.of_globals (.inl (by rw [hc]; rfl)) rfl hphase nofun rfl rfl h.answers
  | creating =>
    rw [Tracers.stepStart, if_pos hcareful] at hstep
    obtain rfl := some.inj hstep
    refine h.of_busy (.inl (by rw [hc]; rfl)) rfl ⟨s.threads, _, rfl, hphase.2, rfl, rfl⟩ nofun
      ?_ h.sigstop h.answers
    intro p hp
    exact absurd (h.traced p hp).2 (hphase.2.not_holds p)
  | failed => exact hphase.elim
  | created =>
    obtain rfl := some.inj hstep
    refine h.of_globals (.inl (by rw [hc]; rfl)) rfl trivial (fun _ => hphase) rfl rfl
      (h.answers_concat ?_)
    rintro _ _ _ ⟨⟩ hstatus
    exact absurd rfl hstatus

section Kill

variable (s : Tracers) (targetPid : Int)

theorem kill_g : (s.kill targetPid).g = s.g := by
  rw [kill]
  split_ifs <;> rfl

theorem kill_threads : (s.kill targetPid).threads = s.threads := by
  rw [kill]
  split_ifs <;> rfl

theorem kill_clients : (s.kill targetPid).clients = s.clients := by
  rw [kill]
  split_ifs <;> rfl

theorem kill_answers : (s.kill targetPid).answers = s.answers := by
  rw [kill]
  split_ifs <;> rfl

theorem kill_targets (p : Int) :
    ((s.kill targetPid).targets p).alive = (s.targets p).alive ∧
      ((s.kill targetPid).targets p).traced = (s.targets p).traced ∧
        (((s.kill targetPid).targets p).sigstop = true → (s.targets p).sigstop = true ∨
          p = targetPid ∧ (s.targets targetPid).alive = true) := by
  rw [kill]
  split_ifs with halive
  · dsimp only
    rcases eq_or_ne p targetPid with rfl | hne
    · rw [update_self]
      exact ⟨rfl, rfl, fun _ => .inr ⟨rfl, halive⟩⟩
    · rw [update_of_ne hne]
      exact ⟨rfl, rfl, .inl⟩
  · exact ⟨rfl, rfl, .inl⟩

variable {s}

theorem kill_held (h : s.Held) : (s.kill targetPid).Held := by
  rwa [Held, kill_threads, kill_g]

theorem kill_settled (h : s.Settled) : (s.kill targetPid).Settled := by
  rwa [Settled, kill_threads]

theorem kill_holds {p : Int} (h : s.Holds p) : (s.kill targetPid).Holds p := by
  rwa [Holds, kill_threads]

end Kill

theorem Inv.stepStop (h : s.Inv) {pc : StopAt} (hc : s.clients c = .stop debugPid pc)
    (hcareful : s.Careful supported prog (.client c o))
    (hstep : s.stepStop c debugPid pc = some s') : s'.Inv := by
  have hphase := h.phase c
  rw [Careful, hc] at hcareful
  rw [hc] at hphase
  cases pc with
  | entered =>
    obtain rfl := some.inj hstep
    exact h.of_globals (.inr hcareful) rfl (h.free hcareful) nofun rfl rfl h.answers
  | waking wakeTarget joinThread targetPid =>
    have hbusy : (s.clients c).busy = true := by rw [hc]; rfl
    obtain rfl := some.inj hstep
    by_cases hwake : (wakeTarget && decide (0 < targetPid)) = true
    · rw [Bool.and_eq_true, decide_eq_true_iff] at hwake
      obtain ⟨rfl, hpid⟩ := hwake
      rw [Bool.true_and, if_pos (decide_eq_true hpid)]
      refine h.of_busy (.inl hbusy) (congrArg (update · c _) (kill_clients s targetPid))
        (Phase.mono (a := .stop debugPid (.joining joinThread targetPid)) hphase ?_ ?_ ?_) nofun
        ?_ ?_ ((kill_answers s targetPid).symm ▸ h.answers)
      · exact fun hheld => kill_held targetPid hheld
      · exact fun hsettled => kill_settled targetPid hsettled
      · exact congrArg Globals.threadCreated (kill_g s targetPid)
      · intro p hp
        obtain ⟨halive, htraced, -⟩ := kill_targets s targetPid p
        obtain ⟨hp, hholds⟩ := h.traced p (htraced ▸ hp)
        exact ⟨halive.trans hp, kill_holds targetPid hholds⟩
      · intro p hp
        obtain ⟨-, htraced, hsigstop⟩ := kill_targets s targetPid p
        refine htraced.trans ?_
        rcases hsigstop hp with hold | ⟨rfl, halive⟩
        · exact h.sigstop p hold
        · exact hcareful hpid halive
    · rw [if_neg hwake]
      exact h.of_globals (.inl hbusy) rfl hphase nofun rfl rfl h.answers
  | joining joinThread targetPid =>
    have hbusy : (s.clients c).busy = true := by rw [hc]; rfl
    cases joinThread with
    | false =>
      obtain rfl := some.inj hstep
      exact h.of_globals (.inl hbusy) rfl hphase nofun rfl rfl h.answers
    | true => exact h.joined hbusy hphase hstep rfl id
  | ending targetPid =>
    have hbusy : (s.clients c).busy = true := by rw [hc]; rfl
    cases debugPid with
    | none =>
      obtain rfl := some.inj hstep
      refine h.of_globals (.inl hbusy) rfl trivial (fun _ => hphase) rfl rfl
        (h.answers_concat ?_)
      rintro _ _ _ ⟨⟩
    | some pid =>
      obtain rfl := some.inj hstep
      exact h.of_globals (.inl hbusy) rfl trivial (fun _ => hphase) rfl rfl h.answers

theorem debuggerDetach_ok {o : DetachOutcome} {m : Machine} (hattached : m.dbg.attached = true)
    (hstop : (detachStop prog o m).1 = .ok) (hwrite : ∀ i, o.write i = .ok)
    (hdetach : o.detach = .ok) : (debuggerDetach prog o m).1 = .ok := by
  rw [debuggerDetach, hattached, Bool.not_true, if_neg Bool.false_ne_true]
  generalize detachStop prog o m = call at hstop ⊢
  obtain ⟨st, m₁⟩ := call
  subst hstop
  have htaken := restoreEntries_taken o.write m₁ (le_refl maxBreakpoints)
  dsimp only
  generalize (List.range maxBreakpoints).foldl (restoreEntry o.write) (.ok, m₁) = p at htaken ⊢
  have hok := htaken.status.mpr fun i _ _ => hwrite i
  obtain ⟨st, m₂⟩ := p
  subst hok
  rw [hdetach]
  rfl

theorem Inv.stepClient (h : s.Inv) (hcareful : s.Careful supported prog (.client c o))
    (hstep : s.stepClient supported prog c o = some s') : s'.Inv := by
  rw [Tracers.stepClient] at hstep
  cases hc : s.clients c with
  | idle =>
    rw [hc] at hstep
    cases hstep
  | tracerAttach pid =>
    have hbusy : (s.clients c).busy = false := by rw [hc]; rfl
    rw [Careful, hc] at hcareful
    rw [hc] at hstep
    have hfail : (debuggerDetach prog o.detach s.session.machine).1 ≠ .ok →
        (debuggerDetach prog o.detach s.session.machine).2 = s.session.machine := by
      intro hst
      cases hattached : s.session.machine.dbg.attached with
      | false => rw [debuggerDetach, hattached, Bool.not_false, if_pos rfl]
      | true =>
        obtain ⟨hstop, hwrite, hdetach⟩ := hcareful hattached
        exact absurd (debuggerDetach_ok hattached hstop hwrite hdetach) hst
    generalize debuggerDetach prog o.detach s.session.machine = call at hstep hfail
    obtain ⟨st, m⟩ := call
    by_cases hst : st = .ok
    · subst hst
      obtain rfl := some.inj hstep
      exact h.of_idle hbusy rfl rfl rfl rfl rfl h.answers
    · have hm : m = s.session.machine := hfail hst
      have hstep : some ({ s with session := ⟨s.session.pid, m⟩ }.answer c
          (.tracerAttach st s.session ⟨s.session.pid, m⟩)) = some s' := by
        rw [← hstep]
        cases st <;> first | rfl | exact absurd rfl hst
      obtain rfl := some.inj hstep
      refine h.of_idle hbusy rfl rfl rfl rfl rfl (h.answers_concat ?_)
      rintro _ _ _ ⟨⟩ -
      rw [hm]
  | start pid before after pc =>
    rw [hc] at hstep
    exact h.stepStart hc hcareful hstep
  | stop debugPid pc =>
    rw [hc] at hstep
    exact h.stepStop hc hcareful hstep
  | debugAttach pid =>
    rw [hc] at hstep
    obtain rfl := some.inj hstep
    refine h.of_idle (by rw [hc]; rfl) rfl rfl rfl rfl rfl (h.answers_concat ?_)
    rintro _ _ _ ⟨⟩

/-! ## Steps of a thread -/

inductive Follows (s s' : Tracers) (th th' : TracerThread) (o : ThreadOutcome) : Prop
  | keeps (targets : s'.targets = s.targets)
      (holds : th.pc.holds = true → th'.pc.holds = true ∧ th'.pid = th.pid)
  | attaches (alive : (s.targets th.pid).alive = true)
      (targets : s'.targets = update s.targets th.pid
        { s.targets th.pid with traced := true })
      (holds : th.pc.holds = false) (holds' : th'.pc.holds = true) (pid : th'.pid = th.pid)
  | told (targets : s'.targets = update s.targets th.pid
        { s.targets th.pid with sigstop := false })
      (holds : th'.pc.holds = true) (pid : th'.pid = th.pid)
  | halves (pc : th.pc = .attaching) (alive : (s.targets th.pid).alive = true) (ok : o.ok = false)
      (half : o.half = true)
  | detaches (pc : th.pc = .done) (targets : s'.targets =
      if o.ok then update s.targets th.pid { s.targets th.pid with traced := false }
      else s.targets)

structure ThreadStep (s s' : Tracers) (t : Nat) (th th' : TracerThread) (o : ThreadOutcome) :
    Prop where
  unfinished : th.pc ≠ .finished
  threads : s'.threads = s.threads.set t th'
  joins : th'.joins = th.joins
  thread : s'.g.thread = s.g.thread
  threadCreated : s'.g.threadCreated = s.g.threadCreated
  clients : s'.clients = s.clients
  answers : s'.answers = s.answers
  follows : Follows s s' th th' o

theorem stepThread_spec {o : ThreadOutcome} (h : s.stepThread t th o = some s') :
    ∃ th', ThreadStep s s' t th th' o := by
  obtain ⟨pid, pc, joins⟩ := th
  have hkeeps : ∀ {pc' : ThreadAt} {g : Globals},
      some ({ s with g := g }.moveThread t ⟨pid, pc, joins⟩ pc') = some s' → pc ≠ .finished →
        g.thread = s.g.thread → g.threadCreated = s.g.threadCreated →
          (pc.holds = true → pc'.holds = true) →
            ∃ th', ThreadStep s s' t ⟨pid, pc, joins⟩ th' o := by
    rintro pc' g ⟨⟩ hpc hthread hcreated hholds
    exact ⟨_, hpc, rfl, rfl, hthread, hcreated, rfl, rfl, .keeps rfl fun h => ⟨hholds h, rfl⟩⟩
  cases pc with
  | entered =>
    obtain rfl := some.inj h
    exact ⟨_, nofun, rfl, rfl, rfl, rfl, rfl, rfl, .keeps rfl nofun⟩
  | attaching =>
    rw [stepThread] at h
    dsimp only at h
    split_ifs at h with hok hhalf
    · obtain rfl := some.inj h
      exact ⟨_, nofun, rfl, rfl, rfl, rfl, rfl, rfl,
        .attaches ((Bool.and_eq_true _ _).mp hok).2 rfl rfl rfl rfl⟩
    · obtain rfl := some.inj h
      obtain ⟨hhalf, halive⟩ := (Bool.and_eq_true _ _).mp hhalf
      rw [halive, Bool.and_true, Bool.not_eq_true] at hok
      exact ⟨_, nofun, rfl, rfl, rfl, rfl, rfl, rfl, .halves rfl halive hok hhalf⟩
    · exact hkeeps h nofun rfl rfl nofun
  | refused => exact hkeeps h nofun rfl rfl nofun
  | attached =>
    refine hkeeps h nofun rfl rfl (fun _ => ?_)
    split_ifs <;> rfl
  | resuming =>
    refine hkeeps h nofun rfl rfl (fun _ => ?_)
    split_ifs <;> rfl
  | resumed =>
    refine hkeeps h nofun rfl rfl (fun _ => ?_)
    split_ifs <;> rfl
  | ready => exact hkeeps h nofun rfl rfl (fun _ => rfl)
  | looping =>
    refine hkeeps h nofun rfl rfl (fun _ => ?_)
    split_ifs <;> rfl
  | waiting =>
    obtain ⟨ok, wait⟩ := o
    rw [stepThread] at h
    cases wait with
    | again => exact hkeeps h nofun rfl rfl (fun _ => rfl)
    | error => exact hkeeps h nofun rfl rfl (fun _ => rfl)
    | exited signalled =>
      dsimp only at h
      split_ifs at h
      exact hkeeps h nofun rfl rfl (fun _ => rfl)
    | sigstop =>
      dsimp only at h
      split_ifs at h
      obtain rfl := some.inj h
      exact ⟨_, nofun, rfl, rfl, rfl, rfl, rfl, rfl, .told rfl rfl rfl⟩
    | crash => exact hkeeps h nofun rfl rfl (fun _ => rfl)
    | signal => exact hkeeps h nofun rfl rfl (fun _ => rfl)
  | gone signalled => exact hkeeps h nofun rfl rfl (fun _ => rfl)
  | crashed => exact hkeeps h nofun rfl rfl (fun _ => rfl)
  | continuing => exact hkeeps h nofun rfl rfl (fun _ => rfl)
  | done =>
    obtain rfl := some.inj h
    exact ⟨_, nofun, rfl, rfl, rfl, rfl, rfl, rfl, .detaches rfl rfl⟩
  | closing => exact hkeeps h nofun rfl rfl nofun
  | finished => cases h

theorem Inv.last (h : s.Inv) (hget : s.threads[t]? = some th) (hth : th.pc ≠ .finished) :
    ∃ rest, s.threads = rest ++ [th] ∧ t = rest.length ∧
      (∀ th ∈ rest, th.pc = .finished ∧ th.joins = 1) ∧ th.joins = 0 ∧
        s.g.thread = some rest.length := by
  rcases h.kept with ⟨rest, last, hthreads, hrest, hlast, hthread⟩ | hsettled
  · rw [hthreads] at hget
    rcases Nat.lt_trichotomy t rest.length with hlt | heq | hgt
    · rw [getElem?_append_left hlt] at hget
      exact absurd (hrest th (mem_of_getElem? hget)).1 hth
    · rw [heq, getElem?_concat_length] at hget
      obtain rfl := some.inj hget
      exact ⟨rest, hthreads, heq, hrest, hlast, hthread⟩
    · rw [getElem?_eq_none] at hget
      · cases hget
      · rw [length_append]
        exact hgt
  · exact absurd (hsettled th (mem_of_getElem? hget)).1 hth

theorem Inv.stepThread (h : s.Inv) {o : ThreadOutcome} (hget : s.threads[t]? = some th)
    (hcareful : (s.targets th.pid).alive = true →
      (th.pc = .attaching → o.ok = true ∨ o.half = false) ∧
        (th.pc = .done → o.ok = true ∧ (s.targets th.pid).sigstop = false))
    (hstep : s.stepThread t th o = some s') : s'.Inv := by
  obtain ⟨th', hs⟩ := stepThread_spec hstep
  obtain ⟨rest, hthreads, ht, hrest, hjoins, hthread⟩ := h.last hget hs.unfinished
  have hthreads' : s'.threads = rest ++ [th'] := by
    rw [hs.threads, hthreads, ht, set_append_right _ _ le_rfl, Nat.sub_self]
    rfl
  have hheld : s'.Held := ⟨rest, th', hthreads', hrest, hs.joins.trans hjoins,
    hs.thread.trans hthread⟩
  have hunsettled : ¬ s.Settled := fun hsettled =>
    hs.unfinished (hsettled th (mem_of_getElem? hget)).1
  have hlast : ∀ p, s.Holds p → th.pid = p ∧ th.pc.holds = true := by
    rintro p ⟨rest', last, hthreads', hpid, hholds⟩
    obtain ⟨-, heq⟩ := append_inj' (hthreads.symm.trans hthreads') rfl
    obtain rfl := singleton_inj.mp heq
    exact ⟨hpid, hholds⟩
  have hholds' : ∀ p, th'.pid = p → th'.pc.holds = true → s'.Holds p :=
    fun p hpid hholds => ⟨rest, th', hthreads', hpid, hholds⟩
  have htargets : ∀ p, ((s'.targets p).traced = true →
      (s'.targets p).alive = true ∧ s'.Holds p) ∧
        ((s'.targets p).sigstop = true → (s'.targets p).traced = true) := by
    intro p
    cases hs.follows with
    | keeps htargets hholds =>
      rw [htargets]
      refine ⟨fun hp => ?_, h.sigstop p⟩
      obtain ⟨halive, hp⟩ := h.traced p hp
      obtain ⟨hpid, hpc⟩ := hlast p hp
      obtain ⟨hpc', hpid'⟩ := hholds hpc
      exact ⟨halive, hholds' p (hpid'.trans hpid) hpc'⟩
    | attaches halive htargets hholds hpc' hpid' =>
      rw [htargets]
      by_cases heq : p = th.pid
      · subst heq
        rw [update_self]
        exact ⟨fun _ => ⟨halive, hholds' _ hpid' hpc'⟩, fun _ => rfl⟩
      · rw [update_of_ne heq]
        refine ⟨fun hp => ?_, h.sigstop p⟩
        exact absurd (hlast p (h.traced p hp).2).1 (Ne.symm heq)
    | told htargets hpc' hpid' =>
      rw [htargets]
      by_cases heq : p = th.pid
      · subst heq
        rw [update_self]
        exact ⟨fun hp => ⟨(h.traced _ hp).1, hholds' _ hpid' hpc'⟩, nofun⟩
      · rw [update_of_ne heq]
        refine ⟨fun hp => ?_, h.sigstop p⟩
        exact absurd (hlast p (h.traced p hp).2).1 (Ne.symm heq)
    | halves hpc halive hok hhalf =>
      rcases (hcareful halive).1 hpc with hok' | hhalf'
      · exact absurd (hok.symm.trans hok') Bool.false_ne_true
      · exact absurd (hhalf'.symm.trans hhalf) Bool.false_ne_true
    | detaches hpc htargets =>
      -- only the process of the thread was traced, and it was not sent the signal
      have hself : ∀ p, (s.targets p).traced = true → p = th.pid := fun p hp =>
        (hlast p (h.traced p hp).2).1.symm
      have hnone : (s'.targets p).traced = false ∧ (s'.targets p).sigstop = false := by
        by_cases heq : p = th.pid
        · subst heq
          by_cases htraced : (s.targets th.pid).traced = true
          · obtain ⟨hok, hsigstop⟩ := (hcareful (h.traced _ htraced).1).2 hpc
            rw [htargets, if_pos hok, update_self]
            exact ⟨rfl, hsigstop⟩
          · have hsigstop : (s.targets th.pid).sigstop = false :=
              Bool.eq_false_iff.mpr fun hsent => htraced (h.sigstop _ hsent)
            rw [htargets]
            split_ifs
            · rw [update_self]
              exact ⟨rfl, hsigstop⟩
            · exact ⟨Bool.eq_false_iff.mpr htraced, hsigstop⟩
        · have htraced : (s.targets p).traced = false :=
            Bool.eq_false_iff.mpr fun hp => heq (hself p hp)
          have hsigstop : (s.targets p).sigstop = false :=
            Bool.eq_false_iff.mpr fun hsent => heq (hself p (h.sigstop p hsent))
          rw [htargets]
          split_ifs
          · rw [update_of_ne heq]
            exact ⟨htraced, hsigstop⟩
          · exact ⟨htraced, hsigstop⟩
      rw [hnone.1, hnone.2]
      exact ⟨nofun, nofun⟩
  refine ⟨?_, ?_, ?_, fun p => (htargets p).1, fun p => (htargets p).2, hs.answers ▸ h.answers⟩
  · rw [hs.clients]
    exact h.apart
  · rw [hs.clients]
    exact fun c => (h.phase c).mono (fun _ => hheld) (fun hs => absurd hs hunsettled)
      hs.threadCreated
  · intro hfree
    rw [hs.threadCreated]
    exact (h.free fun c => congrFun hs.clients c ▸ hfree c).mono (fun _ => hheld)
      fun hs => absurd hs hunsettled

theorem Inv.step (h : s.Inv) {l : Label} (hcareful : s.Careful supported prog l)
    (hstep : s.step supported prog l = some s') : s'.Inv := by
  cases l with
  | request c r =>
    rw [Tracers.step] at hstep
    cases hc : s.clients c with
    | idle =>
      rw [hc] at hstep
      obtain rfl := some.inj hstep
      refine h.of_idle (by rw [hc]; rfl) (a := r.begin) ?_ rfl rfl rfl rfl h.answers
      cases r <;> rfl
    | _ =>
      rw [hc] at hstep
      cases hstep
  | client c o => exact h.stepClient hcareful hstep
  | thread t o =>
    rw [Tracers.step] at hstep
    cases hget : s.threads[t]? with
    | none =>
      rw [hget] at hstep
      cases hstep
    | some th =>
      rw [hget] at hstep
      exact h.stepThread hget (hcareful th hget) hstep
  | dies pid =>
    obtain rfl := some.inj hstep
    refine ⟨h.apart, h.phase, h.free, ?_, ?_, h.answers⟩
    · intro p hp
      dsimp only at hp ⊢
      by_cases heq : p = pid
      · subst heq
        rw [update_self] at hp
        cases hp
      · rw [update_of_ne heq] at hp ⊢
        exact h.traced p hp
    · intro p hp
      dsimp only at hp ⊢
      by_cases heq : p = pid
      · subst heq
        rw [update_self] at hp
        cases hp
      · rw [update_of_ne heq] at hp ⊢
        exact h.sigstop p hp
  | debug op =>
    obtain rfl := some.inj hstep
    exact ⟨h.apart, h.phase, h.free, h.traced, h.sigstop, h.answers⟩

/-! ## Runs -/

/-- Steps of the daemon, each of which satisfies the guard. -/
abbrev Runs (supported : Bool) (prog : Program) (guard : Tracers → Label → Prop) :
    Tracers → List Label → Tracers → Prop :=
  Run (step supported prog) guard

theorem inv_init {targets : Int → TracedProcess}
    (h : ∀ p, (targets p).traced = false ∧ (targets p).sigstop = false) (session : Session) :
    (init targets session).Inv where
  apart := by
    intro c d hc
    exact absurd hc Bool.false_ne_true
  phase := fun _ => trivial
  free := by
    intro _ th hth
    exact absurd hth not_mem_nil
  traced := by
    intro p hp
    exact absurd hp (Bool.eq_false_iff.mp (h p).1)
  sigstop := by
    intro p hp
    exact absurd hp (Bool.eq_false_iff.mp (h p).2)
  answers := by
    intro status before after hmem
    exact absurd hmem not_mem_nil

theorem Inv.returns (h : s.Inv) {targetPid : Int}
    (hc : s.clients c = .stop debugPid (.ending targetPid))
    (hstep : s.step supported prog (.client c o) = some s') : s'.Stopped targetPid := by
  have hphase := h.phase c
  rw [hc] at hphase
  have hstopped := h.stopped hphase targetPid
  rw [Tracers.step, Tracers.stepClient, hc] at hstep
  cases debugPid <;> obtain rfl := some.inj hstep
  all_goals exact ⟨hstopped.joins, hstopped.traced, hstopped.sigstop⟩

/-- Careful steps keep the life of the tracer in order, and a stop leaves neither a thread nor a
process behind. -/
theorem safe_of_runs {targets : Int → TracedProcess} {session : Session} {labels : List Label}
    (h : Runs supported prog (Careful supported prog) (init targets session) labels s)
    (htargets : ∀ p, (targets p).traced = false ∧ (targets p).sigstop = false) :
    s.Safe ∧ ∀ c debugPid targetPid o s', s.clients c = .stop debugPid (.ending targetPid) →
      s.step supported prog (.client c o) = some s' → s'.Stopped targetPid := by
  have hinv : s.Inv := by
    refine h.invariant (P := Inv) ?_ (inv_init htargets session)
    exact fun s l s' hs hcareful hstep => hs.step hcareful hstep
  exact ⟨hinv.safe, fun c debugPid targetPid o s' hc hstep => hinv.returns hc hstep⟩

def someTargets : Int → TracedProcess := fun _ => ⟨true, false, false⟩

def someSession : Session := ⟨7, .attach, .idle [1]⟩

def fine : ClientOutcome := ⟨true, .other, .plain, .idle [1]⟩

def someLife : List Label :=
  [.request 0 (.tracerAttach 7), .client 0 fine, .client 0 fine, .client 0 fine, .client 0 fine,
    .client 0 fine, .client 0 fine] ++
  List.replicate 7 (.thread 0 ⟨true, .again, false⟩) ++
  [.request 1 .tracerDetach, .client 1 fine, .client 1 fine, .thread 0 ⟨true, .sigstop, false⟩] ++
  List.replicate 4 (.thread 0 ⟨true, .again, false⟩) ++ [.client 1 fine]

def reached (labels : List Label) : Tracers :=
  (labels.foldlM (step true fun _ _ r => r) (init someTargets someSession)).getD
    (init someTargets someSession)

theorem free_of_idle {s : Tracers} (h₀ : (s.clients 0).busy = false)
    (h₁ : (s.clients 1).busy = false) (h : ∀ c, (s.clients (c + 2)).busy = false) : s.Free := by
  intro c
  match c with
  | 0 => exact h₀
  | 1 => exact h₁
  | c + 2 => exact h c

theorem careful_of_thread {s : Tracers} {o : ThreadOutcome} (hget : s.threads[t]? = some th)
    (hhalf : o.half = false) (hpc : th.pc ≠ .done) : s.Careful supported prog (.thread t o) := by
  rintro th' hget' -
  rw [hget] at hget'
  obtain rfl := some.inj hget'
  exact ⟨fun _ => .inr hhalf, fun hdone => absurd hdone hpc⟩

theorem safe_of_someLife : (reached someLife).Safe ∧
    (reached (someLife ++ [.client 1 fine])).Stopped 7 := by
  have hrun : Runs true (fun _ _ r ↦ r) (Careful true fun _ _ r ↦ r) (init someTargets someSession)
      someLife (reached someLife) := by
    refine .cons trivial rfl (.cons (fun _ => ⟨rfl, fun _ => rfl, rfl⟩) rfl (.cons
      ⟨free_of_idle rfl rfl fun _ => rfl, by decide, rfl, rfl, rfl⟩ rfl (.cons trivial rfl
        (.cons trivial rfl (.cons rfl rfl (.cons trivial rfl ?_))))))
    refine .cons (careful_of_thread rfl rfl nofun) rfl (.cons (careful_of_thread rfl rfl nofun) rfl
      (.cons (careful_of_thread rfl rfl nofun) rfl (.cons (careful_of_thread rfl rfl nofun) rfl
        (.cons (careful_of_thread rfl rfl nofun) rfl (.cons (careful_of_thread rfl rfl nofun) rfl
          (.cons (careful_of_thread rfl rfl nofun) rfl ?_))))))
    refine .cons trivial rfl (.cons (free_of_idle rfl rfl fun _ => rfl) rfl (.cons (fun _ _ => rfl)
      rfl (.cons (careful_of_thread rfl rfl nofun) rfl (.cons (careful_of_thread rfl rfl nofun) rfl
        (.cons (careful_of_thread rfl rfl nofun) rfl (.cons ?_ rfl
          (.cons (careful_of_thread rfl rfl nofun) rfl (.cons trivial rfl (.nil _)))))))))
    rintro th ⟨⟩ -
    exact ⟨nofun, fun _ => ⟨rfl, rfl⟩⟩
  exact ⟨(safe_of_runs hrun fun _ => ⟨rfl, rfl⟩).1,
    (safe_of_runs hrun fun _ => ⟨rfl, rfl⟩).2 1 none 7 fine _ rfl rfl⟩

theorem unsafe_of_tracerAttach :
    Runs true (fun _ _ r => r) (fun _ _ => True) (init someTargets someSession)
      [.request 0 (.tracerAttach 0), .client 0 fine, .client 0 fine]
      (reached [.request 0 (.tracerAttach 0), .client 0 fine, .client 0 fine]) ∧
    ¬ (reached [.request 0 (.tracerAttach 0), .client 0 fine, .client 0 fine]).Safe := by
  refine ⟨.cons trivial rfl (.cons trivial rfl (.cons trivial rfl (.nil _))), fun h => ?_⟩
  have hsession := h.answers .errParam _ _ mem_cons_self (by decide)
  have hattached := congrArg (fun s => s.machine.dbg.attached) hsession
  cases hattached

end Tracers

end MemDbg.Tracer
