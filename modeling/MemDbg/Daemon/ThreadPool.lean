import MemDbg.Lib.LinkedQueue
import MemDbg.Lib.Transition
import Mathlib.Data.Fin.Basic
import Mathlib.Data.List.Count

/-!
# The thread pool

The pool is a linked queue under a mutex with a condition variable, and a flag for the
shutdown that is set without the mutex.  A step of the model is what a thread does between
two points at which others may come in: each read of the flag is a step of its own, and so
is each section of code under the mutex.

A node is known by the call of `memdbg_thread_pool_enqueue` that allocates it.
-/

namespace MemDbg.Daemon

open List Function Lib

/-! ## The state -/

inductive WorkerAt where
  | top
  | testing
  | waiting
  | woken
  | passed
  | holding (node : Nat)
  | exited
  | faulted
deriving DecidableEq

inductive CallerAt where
  | idle
  | entered
  | allocated
  | locked
  | checked
  | returned (ok : Bool)
deriving DecidableEq

inductive ShutdownAt where
  | idle
  | flagged
  | joining
  | draining (node : Option Nat)
  | done
deriving DecidableEq

inductive LockOwner (n : Nat) where
  | worker (w : Fin n)
  | caller (c : Nat)
  | shutdown
deriving DecidableEq

structure Pool (n : Nat) where
  next : Nat → Option Nat
  queueHead : Option Nat
  queueTail : Option Nat
  queueLen : Nat
  shuttingDown : Bool
  queueMtx : Option (LockOwner n)
  workers : Fin n → WorkerAt
  callers : Nat → CallerAt
  shutdown : ShutdownAt
  accepted : List Nat
  taken : List Nat
  handled : List (Fin n × Nat)
  closed : List Nat

def Pool.create (n : Nat) : Pool n where
  next _ := none
  queueHead := none
  queueTail := none
  queueLen := 0
  shuttingDown := false
  queueMtx := none
  workers _ := .top
  callers _ := .idle
  shutdown := .idle
  accepted := []
  taken := []
  handled := []
  closed := []

/-! ## The steps -/

inductive PoolEvent (n : Nat) where
  | call (c : Nat)
  | alloc (c : Nat) (ok : Bool)
  | callerLock (c : Nat)
  | recheck (c : Nat)
  | link (c : Nat) (signalled : Option (Fin n))
  | lock (w : Fin n)
  | test (w : Fin n)
  | take (w : Fin n)
  | serve (w : Fin n)
  | spurious (w : Fin n)
  | flag
  | wake
  | drainLock
  | drainNode
  | drainEnd
deriving DecidableEq

section Steps

variable {n : Nat}

def Pool.setCaller (p : Pool n) (c : Nat) (s : CallerAt) : Pool n :=
  { p with callers := update p.callers c s }

def Pool.setWorker (p : Pool n) (w : Fin n) (s : WorkerAt) : Pool n :=
  { p with workers := update p.workers w s }

def Pool.CanSignal (p : Pool n) : Option (Fin n) → Prop
  | none => ∀ w, p.workers w ≠ .waiting
  | some w => p.workers w = .waiting

instance (p : Pool n) (signalled : Option (Fin n)) : Decidable (p.CanSignal signalled) :=
  match signalled with
  | none => inferInstanceAs (Decidable (∀ w, p.workers w ≠ .waiting))
  | some w => inferInstanceAs (Decidable (p.workers w = .waiting))

def Pool.signal (p : Pool n) : Option (Fin n) → Pool n
  | none => p
  | some w => p.setWorker w .woken

def Pool.pushTail (p : Pool n) (c : Nat) : Pool n :=
  match p.queueTail with
  | some last => { p with next := update p.next last (some c), queueTail := some c }
  | none => { p with queueHead := some c, queueTail := some c }

def Pool.callerStep (p : Pool n) (c : Nat) : PoolEvent n → Option (Pool n)
  | .call _ =>
    if p.callers c ≠ .idle then none
    else some (p.setCaller c (if p.shuttingDown then .returned false else .entered))
  | .alloc _ ok =>
    if p.callers c ≠ .entered then none
    else if ok then
      some { p.setCaller c .allocated with next := update p.next c none }
    else some (p.setCaller c (.returned false))
  | .callerLock _ =>
    if p.callers c ≠ .allocated ∨ p.queueMtx ≠ none then none
    else some { p.setCaller c .locked with queueMtx := some (.caller c) }
  | .recheck _ =>
    if p.callers c ≠ .locked then none
    else if p.shuttingDown then
      some { p.setCaller c (.returned false) with queueMtx := none }
    else some (p.setCaller c .checked)
  | .link _ signalled =>
    if p.callers c ≠ .checked ∨ ¬p.CanSignal signalled then none
    else
      let p := p.pushTail c
      let p := { p with queueLen := p.queueLen + 1, accepted := p.accepted ++ [c] }
      some { (p.signal signalled).setCaller c (.returned true) with queueMtx := none }
  | _ => none

def Pool.workerStep (p : Pool n) (w : Fin n) : PoolEvent n → Option (Pool n)
  | .lock _ =>
    if (p.workers w ≠ .top ∧ p.workers w ≠ .woken) ∨ p.queueMtx ≠ none then none
    else some { p.setWorker w .testing with queueMtx := some (.worker w) }
  | .test _ =>
    if p.workers w ≠ .testing then none
    else if p.queueHead = none ∧ p.shuttingDown = false then
      some { p.setWorker w .waiting with queueMtx := none }
    else some (p.setWorker w .passed)
  | .take _ =>
    if p.workers w ≠ .passed then none
    else if p.queueHead = none ∧ p.shuttingDown = true then
      some { p.setWorker w .exited with queueMtx := none }
    else
      match p.queueHead with
      | none => some (p.setWorker w .faulted)
      | some node =>
        let head := p.next node
        some { p.setWorker w (.holding node) with
          queueHead := head
          queueTail := if head = none then none else p.queueTail
          queueLen := p.queueLen - 1
          queueMtx := none
          taken := p.taken ++ [node] }
  | .serve _ =>
    match p.workers w with
    | .holding node => some { p.setWorker w .top with handled := p.handled ++ [(w, node)] }
    | _ => none
  | .spurious _ => if p.workers w ≠ .waiting then none else some (p.setWorker w .woken)
  | _ => none

def Pool.broadcast (p : Pool n) : Pool n :=
  { p with workers := fun w => if p.workers w = .waiting then .woken else p.workers w }

def Pool.shutdownStep (p : Pool n) : PoolEvent n → Option (Pool n)
  | .flag =>
    if p.shutdown ≠ .idle then none
    else some { p with shuttingDown := true, shutdown := .flagged }
  | .wake =>
    if p.shutdown ≠ .flagged ∨ p.queueMtx ≠ none then none
    else some { p.broadcast with shutdown := .joining }
  | .drainLock =>
    if p.shutdown ≠ .joining ∨ p.queueMtx ≠ none ∨ ¬∀ w, p.workers w = .exited then none
    else some { p with shutdown := .draining p.queueHead, queueMtx := some .shutdown }
  | .drainNode =>
    match p.shutdown with
    | .draining (some node) =>
      some { p with shutdown := .draining (p.next node), closed := p.closed ++ [node] }
    | _ => none
  | .drainEnd =>
    if p.shutdown ≠ .draining none then none
    else
      some { p with
        queueHead := none
        queueTail := none
        queueLen := 0
        queueMtx := none
        shutdown := .done }
  | _ => none

def Pool.step (p : Pool n) (e : PoolEvent n) : Option (Pool n) :=
  match e with
  | .call c | .alloc c _ | .callerLock c | .recheck c | .link c _ => p.callerStep c e
  | .lock w | .test w | .take w | .serve w | .spurious w => p.workerStep w e
  | .flag | .wake | .drainLock | .drainNode | .drainEnd => p.shutdownStep e

/-! ## The invariant -/

structure QueueOk (next : Nat → Option Nat) (head tail : Option Nat) (len : Nat)
    (accepted taken closed q : List Nat) : Prop where
  linked : Linked next head q
  tail_eq : tail = q.getLast?
  len_eq : len = q.length
  accepted_eq : accepted = taken ++ q
  closed_eq : closed = []
  nodup : accepted.Nodup
  fresh : ∀ c, c ∉ accepted → next c = none

structure HistoryOk (callers : Nat → CallerAt) (workers : Fin n → WorkerAt)
    (accepted taken : List Nat) (handled : List (Fin n × Nat)) : Prop where
  accepted_iff : ∀ c, c ∈ accepted ↔ callers c = .returned true
  taken_iff : ∀ c, c ∈ taken ↔ c ∈ handled.map Prod.snd ∨ ∃ w, workers w = .holding c
  once : (handled.map Prod.snd).Nodup
  hand : ∀ w c, workers w = .holding c → c ∉ handled.map Prod.snd
  hands : ∀ w w' c, workers w = .holding c → workers w' = .holding c → w = w'

structure PhaseOk (flag : Bool) (mtx : Option (LockOwner n)) (workers : Fin n → WorkerAt)
    (callers : Nat → CallerAt) (shutdown : ShutdownAt) (head : Option Nat) : Prop where
  worker_iff : ∀ w, (workers w = .testing ∨ workers w = .passed) ↔ mtx = some (.worker w)
  caller_iff : ∀ c, (callers c = .locked ∨ callers c = .checked) ↔ mtx = some (.caller c)
  drain_iff : (∃ node, shutdown = .draining node) ↔ mtx = some .shutdown
  flag_iff : flag = true ↔ shutdown ≠ .idle
  exited : ∀ w, workers w = .exited → flag = true ∧ ∀ c, callers c ≠ .checked
  passed : ∀ w, workers w = .passed → head ≠ none ∨ flag = true
  ended : (∃ node, shutdown = .draining node) ∨ shutdown = .done → ∀ w, workers w = .exited
  drained : ∀ node, shutdown = .draining node → node = none
  unfaulted : ∀ w, workers w ≠ .faulted

def AwakeOk (workers : Fin n → WorkerAt) (head : Option Nat) : Prop :=
  head ≠ none → ∃ w, workers w ≠ .waiting ∧ workers w ≠ .exited

structure PoolOk (p : Pool n) (q : List Nat) : Prop where
  queue : QueueOk p.next p.queueHead p.queueTail p.queueLen p.accepted p.taken p.closed q
  history : HistoryOk p.callers p.workers p.accepted p.taken p.handled
  phase : PhaseOk p.shuttingDown p.queueMtx p.workers p.callers p.shutdown p.queueHead
  awake : AwakeOk p.workers p.queueHead

theorem poolOk_create (n : Nat) : PoolOk (Pool.create n) [] := by
  refine ⟨⟨rfl, rfl, rfl, rfl, rfl, nodup_nil, fun _ _ => rfl⟩, ?_, ?_, ?_⟩
  · constructor <;> simp [Pool.create]
  · constructor <;> simp [Pool.create]
  · simp [AwakeOk, Pool.create]

section Moves

variable {flag : Bool} {mtx mtx' : Option (LockOwner n)} {workers : Fin n → WorkerAt}
  {callers : Nat → CallerAt} {shutdown : ShutdownAt} {head head' : Option Nat}
  {accepted taken : List Nat} {handled : List (Fin n × Nat)} {c : Nat} {w : Fin n}

theorem PhaseOk.caller (h : PhaseOk flag mtx workers callers shutdown head) {x : CallerAt}
    (hx : (x = .locked ∨ x = .checked) ↔ mtx' = some (.caller c))
    (hothers : ∀ o, o ≠ .caller c → (mtx' = some o ↔ mtx = some o))
    (hchecked : x = .checked → ∀ w, workers w ≠ .exited) :
    PhaseOk flag mtx' workers (update callers c x) shutdown head := by
  obtain ⟨hworker, hcaller, hdrain, hflag, hexited, hpassed, hended, hdrained, hfault⟩ := h
  constructor
  all_goals grind [update_apply]

theorem PhaseOk.worker (h : PhaseOk flag mtx workers callers shutdown head) {x : WorkerAt}
    (hold : workers w ≠ .exited)
    (hx : (x = .testing ∨ x = .passed) ↔ mtx' = some (.worker w))
    (hothers : ∀ o, o ≠ .worker w → (mtx' = some o ↔ mtx = some o))
    (hexited : x = .exited → flag = true ∧ ∀ c, callers c ≠ .checked)
    (hpassed : x = .passed → head ≠ none ∨ flag = true) (hfault : x ≠ .faulted) :
    PhaseOk flag mtx' (update workers w x) callers shutdown head := by
  obtain ⟨hworker, hcaller, hdrain, hflag, hexited', hpassed', hended, hdrained, hfault'⟩ := h
  constructor
  all_goals grind [update_apply]

theorem PhaseOk.queue (h : PhaseOk flag mtx workers callers shutdown head)
    (hpassed : ∀ w, workers w = .passed → head' ≠ none ∨ flag = true) :
    PhaseOk flag mtx workers callers shutdown head' := { h with passed := hpassed }

theorem HistoryOk.caller (h : HistoryOk callers workers accepted taken handled) {x : CallerAt}
    (hold : callers c ≠ .returned true) (hx : x ≠ .returned true) :
    HistoryOk (update callers c x) workers accepted taken handled := by
  refine { h with accepted_iff := fun d => ?_ }
  rw [h.accepted_iff, update_apply]
  split_ifs with hd
  · simp [hd, hold, hx]
  · rfl

theorem HistoryOk.congr (h : HistoryOk callers workers accepted taken handled)
    {workers' : Fin n → WorkerAt}
    (hsame : ∀ w c, workers' w = .holding c ↔ workers w = .holding c) :
    HistoryOk callers workers' accepted taken handled := by
  obtain ⟨haccepted, htaken, honce, hhand, hhands⟩ := h
  constructor
  all_goals simpa only [hsame]

theorem HistoryOk.worker (h : HistoryOk callers workers accepted taken handled) {x : WorkerAt}
    (hold : ∀ c, workers w ≠ .holding c) (hx : ∀ c, x ≠ .holding c) :
    HistoryOk callers (update workers w x) accepted taken handled := by
  refine h.congr fun v c => ?_
  rcases eq_or_ne v w with rfl | hne
  · rw [update_self]
    exact iff_of_false (hx c) (hold c)
  · rw [update_of_ne hne]

theorem HistoryOk.link (h : HistoryOk callers workers accepted taken handled) :
    HistoryOk (update callers c (.returned true)) workers (accepted ++ [c]) taken
      handled := by
  refine { h with accepted_iff := fun d => ?_ }
  rw [mem_append, h.accepted_iff, mem_singleton, update_apply]
  split_ifs with hd
  · simp [hd]
  · simp [hd]

theorem HistoryOk.take (h : HistoryOk callers workers accepted taken handled)
    (hold : ∀ c, workers w ≠ .holding c) (hc : c ∉ taken) :
    HistoryOk callers (update workers w (.holding c)) accepted (taken ++ [c])
      handled := by
  obtain ⟨haccepted, htaken, honce, hhand, hhands⟩ := h
  obtain ⟨hnever, hnone⟩ := not_or.mp (mt (htaken c).mpr hc)
  have hsame (v : Fin n) (d : Nat) : update workers w (.holding c) v = .holding d ↔
      workers v = .holding d ∨ v = w ∧ d = c := by
    rcases eq_or_ne v w with rfl | hne
    · simp [hold, eq_comm]
    · simp [hne]
  refine ⟨haccepted, fun d => ?_, honce, fun v d hv => ?_, fun v v' d hv hv' => ?_⟩
  · simp only [mem_append, htaken, mem_singleton, hsame, exists_or, or_assoc,
      exists_and_right, exists_eq, true_and]
  · rcases (hsame v d).mp hv with hv | ⟨-, rfl⟩
    · exact hhand v d hv
    · exact hnever
  · rcases (hsame v d).mp hv with hheld | ⟨rfl, rfl⟩
    · rcases (hsame v' d).mp hv' with hheld' | ⟨-, rfl⟩
      · exact hhands v v' d hheld hheld'
      · exact absurd ⟨v, hheld⟩ hnone
    · rcases (hsame v' d).mp hv' with hheld' | ⟨rfl, -⟩
      · exact absurd ⟨v', hheld'⟩ hnone
      · rfl

theorem HistoryOk.serve (h : HistoryOk callers workers accepted taken handled)
    (hold : workers w = .holding c) :
    HistoryOk callers (update workers w .top) accepted taken (handled ++ [(w, c)]) := by
  obtain ⟨haccepted, htaken, honce, hhand, hhands⟩ := h
  have hsame (v : Fin n) (d : Nat) : update workers w .top v = .holding d ↔
      workers v = .holding d ∧ v ≠ w := by
    rcases eq_or_ne v w with rfl | hne
    · simp
    · simp [hne]
  have hothers (v : Fin n) (d : Nat) (hv : workers v = .holding d) (hne : v ≠ w) : d ≠ c :=
    fun heq => hne (hhands v w c (heq ▸ hv) hold)
  refine ⟨haccepted, fun d => ?_, ?_, fun v d hv => ?_, fun v v' d hv hv' => ?_⟩
  · rw [htaken, map_append, mem_append, map_singleton, mem_singleton]
    constructor
    · rintro (hd | ⟨v, hv⟩)
      · exact .inl (.inl hd)
      · rcases eq_or_ne v w with rfl | hne
        · rw [hold] at hv
          exact .inl (.inr (WorkerAt.holding.inj hv).symm)
        · exact .inr ⟨v, (hsame v d).mpr ⟨hv, hne⟩⟩
    · rintro ((hd | rfl) | ⟨v, hv⟩)
      · exact .inl hd
      · exact .inr ⟨w, hold⟩
      · exact .inr ⟨v, ((hsame v d).mp hv).1⟩
  · rw [map_append, map_singleton, ← concat_eq_append, nodup_concat]
    exact ⟨hhand w c hold, honce⟩
  · obtain ⟨hv, hne⟩ := (hsame v d).mp hv
    rw [map_append, mem_append, map_singleton, mem_singleton]
    exact not_or.mpr ⟨hhand v d hv, hothers v d hv hne⟩
  · exact hhands v v' d ((hsame v d).mp hv).1 ((hsame v' d).mp hv').1

theorem broadcast_iff (w : Fin n) {x : WorkerAt} (hwoken : x ≠ .woken) (hwaiting : x ≠ .waiting) :
    (if workers w = .waiting then .woken else workers w) = x ↔ workers w = x := by
  split_ifs with hw
  · rw [hw]
    exact iff_of_false hwoken.symm hwaiting.symm
  · rfl

theorem PhaseOk.broadcast (h : PhaseOk flag mtx workers callers .flagged head) :
    PhaseOk flag mtx (fun w => if workers w = .waiting then .woken else workers w) callers .joining
      head := by
  obtain ⟨hworker, hcaller, hdrain, hflag, hexited, hpassed, hended, hdrained, hfault⟩ := h
  constructor
  · simpa only [broadcast_iff _ (x := .testing) nofun nofun,
      broadcast_iff _ (x := .passed) nofun nofun] using hworker
  · exact hcaller
  · simpa using hdrain
  · simpa using hflag
  · simpa only [broadcast_iff _ (x := .exited) nofun nofun] using hexited
  · simpa only [broadcast_iff _ (x := .passed) nofun nofun] using hpassed
  · simp
  · simp
  · simpa only [ne_eq, broadcast_iff _ (x := .faulted) nofun nofun] using hfault

theorem awakeOk_update {x : WorkerAt} (hx : head ≠ none → x ≠ .waiting ∧ x ≠ .exited) :
    AwakeOk (update workers w x) head := by
  intro hne
  refine ⟨w, ?_⟩
  rw [update_self]
  exact hx hne

end Moves

section Preserved

variable {p p' : Pool n} {q : List Nat} {c : Nat} {w : Fin n}

theorem PoolOk.setCaller (h : PoolOk p q) {x : CallerAt} (hold : p.callers c ≠ .returned true)
    (hfree : p.queueMtx ≠ some (.caller c))
    (hx : x = .entered ∨ x = .allocated ∨ x = .returned false) :
    PoolOk (p.setCaller c x) q := by
  obtain ⟨hq, hh, hp, ha⟩ := h
  refine ⟨hq, hh.caller hold ?_, hp.caller (iff_of_false ?_ hfree) (fun _ _ => Iff.rfl) ?_, ha⟩
  all_goals rcases hx with rfl | rfl | rfl <;> simp

theorem PhaseOk.mtx_ne_caller {flag : Bool} {mtx : Option (LockOwner n)}
    {workers : Fin n → WorkerAt} {callers : Nat → CallerAt} {shutdown : ShutdownAt}
    {head : Option Nat} (h : PhaseOk flag mtx workers callers shutdown head)
    (hlocked : callers c ≠ .locked) (hchecked : callers c ≠ .checked) :
    mtx ≠ some (.caller c) :=
  fun hmtx => ((h.caller_iff c).mpr hmtx).elim hlocked hchecked

theorem PoolOk.call (h : PoolOk p q) (hstep : p.callerStep c (.call c) = some p') :
    PoolOk p' q := by
  simp only [Pool.callerStep, Option.ite_none_left_eq_some, not_not, Option.some.injEq] at hstep
  obtain ⟨hidle, rfl⟩ := hstep
  refine h.setCaller (by simp [hidle])
    (h.phase.mtx_ne_caller (by simp [hidle]) (by simp [hidle])) ?_
  split_ifs <;> simp

theorem PoolOk.alloc (h : PoolOk p q) {ok : Bool}
    (hstep : p.callerStep c (.alloc c ok) = some p') : PoolOk p' q := by
  simp only [Pool.callerStep, Option.ite_none_left_eq_some, not_not] at hstep
  obtain ⟨hentered, hstep⟩ := hstep
  have hnot : c ∉ p.accepted := by
    rw [h.history.accepted_iff, hentered]
    nofun
  have hmoved (x : CallerAt) (hx : x = .entered ∨ x = .allocated ∨ x = .returned false) :=
    h.setCaller (c := c) (by simp [hentered])
      (h.phase.mtx_ne_caller (by simp [hentered]) (by simp [hentered])) hx
  split_ifs at hstep with hok
  · obtain rfl := Option.some.inj hstep
    obtain ⟨hq, hh, hp, ha⟩ := hmoved .allocated (by simp)
    -- the pointer of a node that is not in the queue is null already
    have hnext : update p.next c none = p.next := by
      rw [← hq.fresh c hnot]
      exact update_eq_self c p.next
    rw [hnext]
    exact ⟨hq, hh, hp, ha⟩
  · obtain rfl := Option.some.inj hstep
    exact hmoved _ (by simp)

theorem PoolOk.callerLock (h : PoolOk p q) (hstep : p.callerStep c (.callerLock c) = some p') :
    PoolOk p' q := by
  simp only [Pool.callerStep, Option.ite_none_left_eq_some, not_or, not_not,
    Option.some.injEq] at hstep
  obtain ⟨⟨hallocated, hfree⟩, rfl⟩ := hstep
  obtain ⟨hq, hh, hp, ha⟩ := h
  refine ⟨hq, hh.caller (by simp [hallocated]) (by simp), hp.caller (by simp) ?_ (by simp), ha⟩
  intro o ho
  simp [hfree, ho.symm]

theorem PoolOk.recheck (h : PoolOk p q) (hstep : p.callerStep c (.recheck c) = some p') :
    PoolOk p' q := by
  simp only [Pool.callerStep, Option.ite_none_left_eq_some, not_not] at hstep
  obtain ⟨hlocked, hstep⟩ := hstep
  obtain ⟨hq, hh, hp, ha⟩ := h
  have hmtx : p.queueMtx = some (.caller c) := (hp.caller_iff c).mp (.inl hlocked)
  split_ifs at hstep with hflag
  · obtain rfl := Option.some.inj hstep
    refine ⟨hq, hh.caller (by simp [hlocked]) (by simp), hp.caller (by simp) ?_ (by simp), ha⟩
    intro o ho
    simp [hmtx, ho.symm]
  · obtain rfl := Option.some.inj hstep
    refine ⟨hq, hh.caller (by simp [hlocked]) (by simp),
      hp.caller (iff_of_true (.inr rfl) hmtx) (fun _ _ => Iff.rfl) fun _ w hw => ?_, ha⟩
    exact hflag (hp.exited w hw).1

theorem PoolOk.pushTail (h : PoolOk p q) (hc : c ∉ p.accepted) : ∃ next head tail,
    p.pushTail c = { p with next := next, queueHead := head, queueTail := tail } ∧ head ≠ none ∧
      QueueOk next head tail (p.queueLen + 1) (p.accepted ++ [c]) p.taken p.closed (q ++ [c]) := by
  have hq := h.queue
  have hqnodup : q.Nodup := (hq.accepted_eq ▸ hq.nodup).of_append_right
  have hcq : c ∉ q := fun hmem => hc (hq.accepted_eq ▸ mem_append_right _ hmem)
  have haccepted : p.accepted ++ [c] = p.taken ++ (q ++ [c]) := by
    rw [hq.accepted_eq, append_assoc]
  have hnodup : (p.accepted ++ [c]).Nodup := by
    rw [← concat_eq_append, nodup_concat]
    exact ⟨hc, hq.nodup⟩
  have hlen : p.queueLen + 1 = (q ++ [c]).length := by
    rw [hq.len_eq, length_append, length_singleton]
  rw [Pool.pushTail]
  cases htail : p.queueTail with
  | none =>
    have hnil : q = [] := getLast?_eq_none_iff.mp (hq.tail_eq ▸ htail)
    subst hnil
    exact ⟨_, _, _, rfl, by simp, .singleton (hq.fresh c hc), rfl, hlen, haccepted, hq.closed_eq,
      hnodup, fun d hd => hq.fresh d fun hmem => hd (mem_append_left _ hmem)⟩
  | some last =>
    have hlast : q.getLast? = some last := hq.tail_eq ▸ htail
    have hhead : p.queueHead ≠ none := by
      intro hnone
      rw [hq.linked.eq_nil_iff.mpr hnone] at hlast
      cases hlast
    refine ⟨_, _, _, rfl, hhead, hq.linked.append hqnodup hlast hcq (hq.fresh c hc), by simp, hlen,
      haccepted, hq.closed_eq, hnodup, fun d hd => ?_⟩
    have hmem : last ∈ p.accepted :=
      hq.accepted_eq ▸ mem_append_right _ (mem_of_getLast? hlast)
    obtain ⟨hd, -⟩ := not_or.mp (mt mem_append.mpr hd)
    have hne : d ≠ last := fun heq => hd (heq ▸ hmem)
    rw [update_of_ne hne]
    exact hq.fresh d hd

theorem PoolOk.link (hn : 0 < n) (h : PoolOk p q) {signalled : Option (Fin n)}
    (hstep : p.callerStep c (.link c signalled) = some p') : PoolOk p' (q ++ [c]) := by
  simp only [Pool.callerStep, Option.ite_none_left_eq_some, not_or, not_not,
    Option.some.injEq] at hstep
  obtain ⟨⟨hchecked, hsignal⟩, rfl⟩ := hstep
  have hnot : c ∉ p.accepted := by
    rw [h.history.accepted_iff, hchecked]
    nofun
  obtain ⟨next, head, tail, hpush, hhead, hq⟩ := h.pushTail hnot
  obtain ⟨-, hh, hp, -⟩ := h
  have hmtx : p.queueMtx = some (.caller c) := (hp.caller_iff c).mp (.inr hchecked)
  have hexited (w : Fin n) : p.workers w ≠ .exited := fun hw => (hp.exited w hw).2 c hchecked
  have hphase : PhaseOk p.shuttingDown none p.workers
      (update p.callers c (.returned true)) p.shutdown head :=
    (hp.caller (by simp) (fun o ho => by simp [hmtx, ho.symm]) (by simp)).queue
      fun _ _ => .inl hhead
  rw [hpush]
  cases signalled with
  | none => exact ⟨hq, hh.link, hphase, fun _ => ⟨⟨0, hn⟩, hsignal _, hexited _⟩⟩
  | some w =>
    have hwaiting : p.workers w = .waiting := hsignal
    exact ⟨hq, hh.link.worker (by simp [hwaiting]) (by simp),
      hphase.worker (hexited w) (by simp) (fun _ _ => Iff.rfl) (by simp) (by simp) (by simp),
      awakeOk_update (by simp)⟩

/-! ### Workers -/

theorem PhaseOk.mtx_ne_worker {flag : Bool} {mtx : Option (LockOwner n)}
    {workers : Fin n → WorkerAt} {callers : Nat → CallerAt} {shutdown : ShutdownAt}
    {head : Option Nat} (h : PhaseOk flag mtx workers callers shutdown head)
    (htesting : workers w ≠ .testing) (hpassed : workers w ≠ .passed) :
    mtx ≠ some (.worker w) :=
  fun hmtx => ((h.worker_iff w).mpr hmtx).elim htesting hpassed

theorem PoolOk.lock (h : PoolOk p q) (hstep : p.workerStep w (.lock w) = some p') :
    PoolOk p' q := by
  simp only [Pool.workerStep, Option.ite_none_left_eq_some, not_or, not_and_or, not_not,
    Option.some.injEq] at hstep
  obtain ⟨⟨hat, hfree⟩, rfl⟩ := hstep
  obtain ⟨hq, hh, hp, ha⟩ := h
  refine ⟨hq, hh.worker ?_ (by simp), hp.worker ?_ (by simp) ?_ (by simp) (by simp) (by simp),
    awakeOk_update (by simp)⟩
  · rcases hat with hat | hat <;> simp [hat]
  · rcases hat with hat | hat <;> simp [hat]
  · intro o ho
    simp [hfree, ho.symm]

theorem PoolOk.test (h : PoolOk p q) (hstep : p.workerStep w (.test w) = some p') :
    PoolOk p' q := by
  simp only [Pool.workerStep, Option.ite_none_left_eq_some, not_not] at hstep
  obtain ⟨htesting, hstep⟩ := hstep
  obtain ⟨hq, hh, hp, ha⟩ := h
  have hmtx : p.queueMtx = some (.worker w) := (hp.worker_iff w).mp (.inl htesting)
  split_ifs at hstep with hempty
  · obtain rfl := Option.some.inj hstep
    refine ⟨hq, hh.worker (by simp [htesting]) (by simp),
      hp.worker (by simp [htesting]) (by simp) ?_ (by simp) (by simp) (by simp),
      awakeOk_update fun hne => absurd hempty.1 hne⟩
    intro o ho
    simp [hmtx, ho.symm]
  · obtain rfl := Option.some.inj hstep
    refine ⟨hq, hh.worker (by simp [htesting]) (by simp),
      hp.worker (by simp [htesting]) (iff_of_true (.inr rfl) hmtx) (fun _ _ => Iff.rfl)
        (by simp) (fun _ => ?_) (by simp), awakeOk_update (by simp)⟩
    rw [not_and_or, Bool.not_eq_false] at hempty
    exact hempty

theorem PoolOk.take (h : PoolOk p q) (hstep : p.workerStep w (.take w) = some p') :
    ∃ q', PoolOk p' q' := by
  simp only [Pool.workerStep, Option.ite_none_left_eq_some, not_not] at hstep
  obtain ⟨hpassed, hstep⟩ := hstep
  obtain ⟨hq, hh, hp, ha⟩ := h
  have hmtx : p.queueMtx = some (.worker w) := (hp.worker_iff w).mp (.inr hpassed)
  have hothers (o : LockOwner n) (ho : o ≠ .worker w) :
      (none = some o ↔ p.queueMtx = some o) := by
    simp [hmtx, ho.symm]
  split_ifs at hstep with hempty
  · obtain rfl := Option.some.inj hstep
    refine ⟨q, hq, hh.worker (by simp [hpassed]) (by simp),
      hp.worker (by simp [hpassed]) (by simp) hothers (fun _ => ⟨hempty.2, fun c hc => ?_⟩)
        (by simp) (by simp), awakeOk_update fun hne => absurd hempty.1 hne⟩
    -- a caller past its second look at the flag has the mutex
    have hcaller := (hp.caller_iff c).mp (.inr hc)
    rw [hmtx] at hcaller
    cases hcaller
  · cases q with
    | nil =>
      have hnone : p.queueHead = none := hq.linked
      exact absurd ⟨hnone, ((hp.passed w hpassed).resolve_left (not_not.mpr hnone))⟩ hempty
    | cons node rest =>
      obtain ⟨hhead, hrest⟩ := hq.linked
      rw [hhead] at hstep
      obtain rfl := Option.some.inj hstep
      have hnode : node ∉ p.taken := fun hmem =>
        disjoint_of_nodup_append (hq.accepted_eq ▸ hq.nodup) hmem mem_cons_self
      have hmoved := hp.worker (w := w) (x := .holding node) (by simp [hpassed]) (by simp) hothers
        (by simp) (by simp) (by simp)
      refine ⟨rest, ⟨hrest, ?_, ?_, ?_, hq.closed_eq, hq.nodup, hq.fresh⟩,
        hh.take (by simp [hpassed]) hnode, hmoved.queue fun v hv => ?_, awakeOk_update (by simp)⟩
      · rw [hq.tail_eq]
        cases rest with
        | nil => exact if_pos hrest
        | cons second rest =>
          rw [getLast?_cons_cons]
          exact if_neg (by simp [hrest.1])
      · exact congrArg (· - 1) hq.len_eq
      · exact hq.accepted_eq.trans (append_cons p.taken node rest)
      · have hlocked := (hmoved.worker_iff v).mp (.inr hv)
        cases hlocked

theorem PoolOk.serve (h : PoolOk p q) (hstep : p.workerStep w (.serve w) = some p') :
    PoolOk p' q := by
  cases hat : p.workers w with
  | holding node =>
    simp only [Pool.workerStep, hat, Option.some.injEq] at hstep
    subst hstep
    obtain ⟨hq, hh, hp, ha⟩ := h
    have hfree := hp.mtx_ne_worker (w := w) (by simp [hat]) (by simp [hat])
    exact ⟨hq, hh.serve hat, hp.worker (by simp [hat]) (iff_of_false (by simp) hfree)
      (fun _ _ => Iff.rfl) (by simp) (by simp) (by simp), awakeOk_update (by simp)⟩
  | _ => simp [Pool.workerStep, hat] at hstep

theorem PoolOk.spurious (h : PoolOk p q) (hstep : p.workerStep w (.spurious w) = some p') :
    PoolOk p' q := by
  simp only [Pool.workerStep, Option.ite_none_left_eq_some, not_not, Option.some.injEq] at hstep
  obtain ⟨hwaiting, rfl⟩ := hstep
  obtain ⟨hq, hh, hp, ha⟩ := h
  have hfree := hp.mtx_ne_worker (w := w) (by simp [hwaiting]) (by simp [hwaiting])
  exact ⟨hq, hh.worker (by simp [hwaiting]) (by simp),
    hp.worker (by simp [hwaiting]) (iff_of_false (by simp) hfree) (fun _ _ => Iff.rfl)
      (by simp) (by simp) (by simp), awakeOk_update (by simp)⟩

/-! ### The shutdown -/

theorem PoolOk.flag (h : PoolOk p q) (hstep : p.shutdownStep .flag = some p') : PoolOk p' q := by
  simp only [Pool.shutdownStep, Option.ite_none_left_eq_some, not_not, Option.some.injEq] at hstep
  obtain ⟨hidle, rfl⟩ := hstep
  obtain ⟨hq, hh, hp, ha⟩ := h
  have hdrain := hp.drain_iff
  rw [hidle] at hdrain
  exact ⟨hq, hh, { hp with
    drain_iff := by simpa using hdrain
    flag_iff := by simp
    exited := fun w hw => ⟨rfl, (hp.exited w hw).2⟩
    passed := fun w hw => .inr rfl
    ended := by simp
    drained := by simp }, ha⟩

theorem PoolOk.wake (h : PoolOk p q) (hstep : p.shutdownStep .wake = some p') : PoolOk p' q := by
  simp only [Pool.shutdownStep, Option.ite_none_left_eq_some, not_or, not_not,
    Option.some.injEq] at hstep
  obtain ⟨⟨hflagged, -⟩, rfl⟩ := hstep
  obtain ⟨hq, hh, hp, ha⟩ := h
  rw [hflagged] at hp
  refine ⟨hq, hh.congr fun w c => broadcast_iff w nofun nofun, hp.broadcast, fun hne => ?_⟩
  obtain ⟨w, hwaiting, hleft⟩ := ha hne
  refine ⟨w, ?_⟩
  rw [Pool.broadcast]
  dsimp only
  rw [if_neg hwaiting]
  exact ⟨hwaiting, hleft⟩

theorem PoolOk.drainLock (h : PoolOk p q) (hstep : p.shutdownStep .drainLock = some p') :
    PoolOk p' q := by
  simp only [Pool.shutdownStep, Option.ite_none_left_eq_some, not_or, not_not,
    Option.some.injEq] at hstep
  obtain ⟨⟨hjoining, hfree, hexited⟩, rfl⟩ := hstep
  obtain ⟨hq, hh, hp, ha⟩ := h
  have hempty : p.queueHead = none := by
    by_contra hne
    obtain ⟨w, -, hw⟩ := ha hne
    exact hw (hexited w)
  have hflag := hp.flag_iff
  refine ⟨hq, hh, { hp with
    worker_iff := fun w => by simp [hexited w]
    caller_iff := fun c => ?_
    drain_iff := by simp
    flag_iff := ?_
    ended := fun _ => hexited
    drained := ?_ }, ha⟩
  · have hcaller := hp.caller_iff c
    rw [hfree] at hcaller
    exact hcaller.trans (by simp)
  · rw [hjoining] at hflag
    exact hflag.trans (by simp)
  · intro node hnode
    exact (ShutdownAt.draining.inj hnode).symm.trans hempty

theorem PoolOk.drainNode (h : PoolOk p q) (hstep : p.shutdownStep .drainNode = some p') :
    PoolOk p' q := by
  cases hat : p.shutdown with
  | draining node =>
    -- the workers have left nothing to drain
    obtain rfl := h.phase.drained node hat
    simp [Pool.shutdownStep, hat] at hstep
  | _ => simp [Pool.shutdownStep, hat] at hstep

theorem PoolOk.drainEnd (h : PoolOk p q) (hstep : p.shutdownStep .drainEnd = some p') :
    PoolOk p' [] := by
  simp only [Pool.shutdownStep, Option.ite_none_left_eq_some, not_not, Option.some.injEq] at hstep
  obtain ⟨hdraining, rfl⟩ := hstep
  obtain ⟨hq, hh, hp, ha⟩ := h
  have hexited := hp.ended (.inl ⟨none, hdraining⟩)
  have hmtx : p.queueMtx = some .shutdown := hp.drain_iff.mp ⟨none, hdraining⟩
  have hempty : p.queueHead = none := by
    by_contra hne
    obtain ⟨w, -, hw⟩ := ha hne
    exact hw (hexited w)
  obtain rfl := hq.linked.eq_nil_iff.mpr hempty
  have hflag := hp.flag_iff
  refine ⟨⟨rfl, rfl, rfl, hq.accepted_eq, hq.closed_eq, hq.nodup, hq.fresh⟩, hh, { hp with
    worker_iff := fun w => by simp [hexited w]
    caller_iff := fun c => ?_
    drain_iff := by simp
    flag_iff := ?_
    passed := fun w hw => ?_
    ended := fun _ => hexited
    drained := by simp }, fun hne => absurd rfl hne⟩
  · have hcaller := hp.caller_iff c
    rw [hmtx] at hcaller
    exact hcaller.trans (by simp)
  · rw [hdraining] at hflag
    exact hflag.trans (by simp)
  · rw [hexited w] at hw
    cases hw

theorem PoolOk.step (hn : 0 < n) (h : PoolOk p q) (e : PoolEvent n) (hstep : p.step e = some p') :
    ∃ q', PoolOk p' q' := by
  cases e with
  | call c => exact ⟨q, h.call hstep⟩
  | alloc c ok => exact ⟨q, h.alloc hstep⟩
  | callerLock c => exact ⟨q, h.callerLock hstep⟩
  | recheck c => exact ⟨q, h.recheck hstep⟩
  | link c signalled => exact ⟨q ++ [c], h.link hn hstep⟩
  | lock w => exact ⟨q, h.lock hstep⟩
  | test w => exact ⟨q, h.test hstep⟩
  | take w => exact h.take hstep
  | serve w => exact ⟨q, h.serve hstep⟩
  | spurious w => exact ⟨q, h.spurious hstep⟩
  | flag => exact ⟨q, h.flag hstep⟩
  | wake => exact ⟨q, h.wake hstep⟩
  | drainLock => exact ⟨q, h.drainLock hstep⟩
  | drainNode => exact ⟨q, h.drainNode hstep⟩
  | drainEnd => exact ⟨[], h.drainEnd hstep⟩

end Preserved

/-! ## Runs -/

/-- What the pool promises: connections are dequeued in the order in which they were
enqueued, head, tail and length describe the rest, a rejected connection is not in the
queue, no connection is handled or closed twice, at the end each has been, and as long as
one waits some worker is on its way to it. -/
structure PoolFaithful (p : Pool n) : Prop where
  order : ∃ q, p.accepted = p.taken ++ p.closed ++ q ∧ Linked p.next p.queueHead q ∧
    p.queueTail = q.getLast? ∧ p.queueLen = q.length
  returned : ∀ c, p.callers c = .returned true ↔ c ∈ p.accepted
  once : ∀ c, (p.handled.map Prod.snd).count c + p.closed.count c ≤ 1
  finished : p.shutdown = .done → ∀ c, p.callers c = .returned true →
    (p.handled.map Prod.snd).count c + p.closed.count c = 1
  unfaulted : ∀ w, p.workers w ≠ .faulted
  awake : p.queueHead ≠ none → ∃ w, p.workers w ≠ .waiting ∧ p.workers w ≠ .exited

theorem PoolOk.faithful {p : Pool n} {q : List Nat} (h : PoolOk p q) :
    PoolFaithful p := by
  obtain ⟨hq, hh, hp, ha⟩ := h
  refine ⟨⟨q, ?_, hq.linked, hq.tail_eq, hq.len_eq⟩, fun c => (hh.accepted_iff c).symm,
    fun c => ?_, fun hdone c hc => ?_, hp.unfaulted, ha⟩
  · rw [hq.closed_eq, append_nil]
    exact hq.accepted_eq
  · rw [hq.closed_eq, count_nil]
    exact nodup_iff_count_le_one.mp hh.once c
  · have hexited := hp.ended (.inr hdone)
    have hempty : p.queueHead = none := by
      by_contra hne
      obtain ⟨w, -, hw⟩ := ha hne
      exact hw (hexited w)
    obtain rfl := hq.linked.eq_nil_iff.mpr hempty
    have htaken : c ∈ p.taken := by
      have haccepted := (hh.accepted_iff c).mpr hc
      rwa [hq.accepted_eq, append_nil] at haccepted
    have hhandled : c ∈ p.handled.map Prod.snd := by
      refine ((hh.taken_iff c).mp htaken).resolve_right ?_
      rintro ⟨w, hw⟩
      rw [hexited w] at hw
      cases hw
    rw [hq.closed_eq, count_nil, count_eq_one_of_mem hh.once hhandled]

/-- **The thread pool.** In every state that any interleaving of calls, workers and the
shutdown reaches, connections have neither been lost nor repeated. -/
theorem poolFaithful_of_run (hn : 0 < n) {events : List (PoolEvent n)} {p : Pool n}
    (h : Run Pool.step (fun _ _ => True) (Pool.create n) events p) : PoolFaithful p := by
  have hinv : ∃ q, PoolOk p q := by
    refine h.invariant (P := fun p => ∃ q, PoolOk p q) ?_ ⟨[], poolOk_create n⟩
    rintro p e p' ⟨q, hq⟩ - hstep
    exact hq.step hn e hstep
  obtain ⟨q, hq⟩ := hinv
  exact hq.faithful

end Steps

def twoConnections : List (PoolEvent 2) :=
  [.lock 0, .test 0, .call 0, .alloc 0 true, .call 1, .alloc 1 true, .callerLock 0, .recheck 0,
    .link 0 (some 0), .lock 1, .test 1, .take 1, .callerLock 1, .recheck 1, .link 1 none, .lock 0,
    .serve 1, .test 0, .take 0, .flag, .call 2, .serve 0, .lock 1, .test 1, .take 1, .wake, .lock 0,
    .test 0, .take 0, .drainLock, .drainEnd]

theorem poolFaithful_of_run_twoConnections :
    PoolFaithful ((twoConnections.foldlM Pool.step (Pool.create 2)).getD (Pool.create 2)) :=
  poolFaithful_of_run (by decide) (Run.of_isSome (by decide))

end MemDbg.Daemon
