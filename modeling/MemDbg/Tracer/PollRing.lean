import MemDbg.Lib.Transition
import MemDbg.Tracer.CrashDump

/-!
# The event ring of the daemon's tracer

The tracer thread pushes its events into a ring that the clients of the daemon poll.  No lock is
held on either side: a push and a pop are a few loads and stores each, and between two of them any
other thread may run.  What the pollers get is compared with what has been pushed, for every
interleaving of a tracing run.
-/

namespace MemDbg.Tracer

open List Function Lib

/-! ## Pushes and pops, one access at a time -/

def daemonRingSize : Nat := 8192

def daemonRingMask : Nat := daemonRingSize - 1

def pollMaxCount : Nat := 256

inductive PushAt where
  | idle
  | started (ev : TracerEvent) (h : Nat)
  | written (h : Nat)
  | advanced
  | checking (t : Nat)
  | overrun (newHead : Nat)
deriving DecidableEq

inductive PopAt where
  | idle
  | started (t : Nat)
  | copying (t n : Nat) (out : List TracerEvent)
deriving DecidableEq

structure Tracing where
  slots : List TracerEvent
  head : Nat
  tail : Nat
  totalEvents : Nat
  tracer : PushAt
  pollers : Nat → PopAt
  pushed : List TracerEvent
  delivered : List TracerEvent

open Tracing

def Tracing.start (slots : List TracerEvent) : Tracing :=
  ⟨slots, 0, 0, 0, .idle, fun _ => .idle, [], []⟩

inductive TracingLabel where
  | push (ev : TracerEvent)
  | tracer
  | poll (c : Nat)
  | poller (c : Nat)
deriving DecidableEq

def Tracing.pushStep (s : Tracing) : Option Tracing :=
  match s.tracer with
  | .idle => none
  | .started ev h => some { s with
      slots := s.slots.set (h &&& daemonRingMask) ev, pushed := s.pushed ++ [ev],
      tracer := .written h }
  | .written h => some { s with
      head := wrap32 (h + 1), totalEvents := wrap32 (s.totalEvents + 1), tracer := .advanced }
  | .advanced => some { s with tracer := .checking s.tail }
  | .checking t => some { s with
      tracer := if sub32 s.head t > daemonRingSize then .overrun s.head else .idle }
  | .overrun newHead => some { s with tail := sub32 newHead daemonRingSize, tracer := .idle }

def popCount (avail maxCount : Nat) : Nat := if avail < maxCount then avail else maxCount

def Tracing.popStep (s : Tracing) (c : Nat) : Option Tracing :=
  match s.pollers c with
  | .idle => none
  | .started t => some { s with
      pollers := Function.update s.pollers c
        (if sub32 s.head t = 0 ∨ pollMaxCount = 0 then .idle
          else .copying t (popCount (sub32 s.head t) pollMaxCount) []) }
  | .copying t n out =>
    if out.length < n then some { s with
      pollers := Function.update s.pollers c (.copying t n
        (out ++ [s.slots.getD (wrap32 (t + out.length) &&& daemonRingMask) .zero])) }
    else some { s with
      tail := wrap32 (t + n), delivered := s.delivered ++ out,
      pollers := Function.update s.pollers c .idle }

def Tracing.step (s : Tracing) : TracingLabel → Option Tracing
  | .push ev => if s.tracer = .idle then some { s with tracer := .started ev s.head } else none
  | .tracer => s.pushStep
  | .poll c =>
    if s.pollers c = .idle then some { s with
      pollers := Function.update s.pollers c (.started s.tail) }
    else none
  | .poller c => s.popStep c

/-! ## Delivery -/

/-- The pollers got some of the events in order and none of them twice; what they did not get has
been overwritten or is still in the ring behind its tail. -/
def Tracing.Delivers (s : Tracing) : Prop :=
  ∃ (idx : List Nat) (lo : Nat), idx.Pairwise (· < ·) ∧ (∀ i ∈ idx, i < lo) ∧
    lo ≤ s.pushed.length ∧ s.tail = lo % 2 ^ 32 ∧
    s.delivered.map some = idx.map (s.pushed[·]?) ∧
    ∀ j < s.pushed.length, j ∈ idx ∨ j + daemonRingSize < s.pushed.length ∨
      lo ≤ j ∧ s.slots[j % daemonRingSize]? = s.pushed[j]?

/-- The head is ahead of the tail by no more than the ring holds. -/
def Tracing.Bounded (s : Tracing) : Prop := sub32 s.head s.tail ≤ daemonRingSize

def PopAt.isCopying : PopAt → Bool
  | .copying _ _ _ => true
  | _ => false

def Tracing.Quiet (s : Tracing) : Prop := ∀ c, (s.pollers c).isCopying = false

def Tracing.Overwriting (s : Tracing) : Prop :=
  match s.tracer with
  | .idle => False
  | .started _ _ => False
  | .written _ => daemonRingSize ≤ sub32 s.head s.tail
  | .advanced => daemonRingSize < sub32 s.head s.tail
  | .checking _ => daemonRingSize < sub32 s.head s.tail
  | .overrun _ => True

def Tracing.Writes (s : Tracing) (a : TracingLabel) : Prop :=
  a = .tracer ∧ ∃ ev h, s.tracer = .started ev h

def Tracing.Finds (s : Tracing) (a : TracingLabel) (t : Nat) : Prop :=
  ∃ c, a = .poller c ∧ s.pollers c = .started t ∧ sub32 s.head t ≠ 0

/-- A pop that finds events overlaps neither with another one nor with a push onto a full ring. -/
structure Tracing.Apart (s : Tracing) (a : TracingLabel) : Prop where
  finds : ∀ t, s.Finds a t → t = s.tail ∧ s.Quiet ∧ ¬ s.Overwriting
  writes : s.Writes a → daemonRingSize ≤ sub32 s.head s.tail → s.Quiet

/-- In addition no push finds the ring full. -/
structure Tracing.Roomy (s : Tracing) (a : TracingLabel) : Prop extends s.Apart a where
  room : s.Writes a → sub32 s.head s.tail < daemonRingSize

/-! ### The invariant -/

def Tracing.Fills (s : Tracing) (full : Prop) (lo : Nat) : Prop :=
  s.pushed.length ≤ lo + daemonRingSize ∨
    full ∧ s.Quiet ∧ s.pushed.length = lo + daemonRingSize + 1

def Tracing.TracerAt (s : Tracing) (full : Prop) (lo hi : Nat) : Prop :=
  match s.tracer with
  | .idle => hi = s.pushed.length ∧ s.pushed.length ≤ lo + daemonRingSize
  | .started _ h => h = hi % 2 ^ 32 ∧ hi = s.pushed.length ∧ s.pushed.length ≤ lo + daemonRingSize
  | .written h => h = hi % 2 ^ 32 ∧ hi + 1 = s.pushed.length ∧ s.Fills full lo
  | .advanced => hi = s.pushed.length ∧ s.Fills full lo
  | .checking t => hi = s.pushed.length ∧ ∃ lo' ≤ lo, t = lo' % 2 ^ 32 ∧
      (s.pushed.length ≤ lo' + daemonRingSize ∨
        full ∧ s.Quiet ∧ s.pushed.length = lo + daemonRingSize + 1 ∧ lo' = lo)
  | .overrun newHead => newHead = hi % 2 ^ 32 ∧ hi = s.pushed.length ∧ full ∧ s.Quiet ∧
      s.pushed.length = lo + daemonRingSize + 1

def PopAt.Copies (pushed : List TracerEvent) (lo hi : Nat) : PopAt → Prop
  | .copying t n out => t = lo % 2 ^ 32 ∧ lo + n ≤ hi ∧ out.length ≤ n ∧
      out = (pushed.drop lo).take out.length
  | _ => True

structure Tracing.Inv (s : Tracing) (full : Prop) (lo hi : Nat) (idx : List Nat) : Prop where
  length : s.slots.length = daemonRingSize
  head : s.head = hi % 2 ^ 32
  tail : s.tail = lo % 2 ^ 32
  lo_le : lo ≤ hi
  tracer : s.TracerAt full lo hi
  pollers : ∀ c, (s.pollers c).Copies s.pushed lo hi
  unique : ∀ c d, (s.pollers c).isCopying = true → (s.pollers d).isCopying = true → c = d
  entries : Circular s.slots s.pushed (max lo (s.pushed.length - daemonRingSize)) s.pushed.length
  sorted : idx.Pairwise (· < ·)
  idx_lt : ∀ i ∈ idx, i < lo
  delivered : s.delivered.map some = idx.map (s.pushed[·]?)
  lost : ∀ j < lo, j ∈ idx ∨ j + daemonRingSize < s.pushed.length

section Steps

variable {s s' : Tracing} {full : Prop} {lo hi : Nat} {idx : List Nat}

theorem Tracing.TracerAt.bounds (h : s.TracerAt full lo hi) :
    hi ≤ s.pushed.length ∧ s.pushed.length ≤ hi + 1 ∧ s.Fills full lo := by
  rw [TracerAt] at h
  rw [Fills]
  split at h
  · exact ⟨h.1.le, by omega, .inl h.2⟩
  · exact ⟨h.2.1.le, by omega, .inl h.2.2⟩
  · exact ⟨by omega, by omega, h.2.2⟩
  · exact ⟨h.1.le, by omega, h.2⟩
  · obtain ⟨hhi, lo', hlo, -, hfill⟩ := h
    refine ⟨hhi.le, by omega, hfill.imp (by omega) fun hfull => ⟨hfull.1, hfull.2.1, hfull.2.2.1⟩⟩
  · exact ⟨h.2.1.le, by omega, .inr h.2.2⟩

theorem Tracing.Fills.le_of_copying (h : s.Fills full lo) {c : Nat}
    (hc : (s.pollers c).isCopying = true) : s.pushed.length ≤ lo + daemonRingSize := by
  rcases h with hle | ⟨-, hquiet, -⟩
  · exact hle
  · rw [hquiet c] at hc
    cases hc

theorem sub32_mod {n : Nat} (hle : lo ≤ n) (hlt : n < lo + 2 ^ 32) :
    sub32 (n % 2 ^ 32) (lo % 2 ^ 32) = n - lo := by
  have heq := @counterSub_mod (2 ^ 32) (n - lo) lo (by omega)
  rwa [Nat.add_sub_cancel' hle] at heq

theorem Tracing.Inv.sub_eq (h : s.Inv full lo hi idx) : sub32 s.head s.tail = hi - lo := by
  obtain ⟨hle, -, hfill⟩ := h.tracer.bounds
  rw [h.head, h.tail, sub32_mod h.lo_le]
  rw [Fills, daemonRingSize] at hfill
  omega

theorem Tracing.Inv.le_of_not_overwriting (h : s.Inv full lo hi idx) (hover : ¬ s.Overwriting) :
    s.pushed.length ≤ lo + daemonRingSize := by
  have htracer := h.tracer
  rw [TracerAt] at htracer
  rw [Overwriting, h.sub_eq] at hover
  cases hphase : s.tracer <;> rw [hphase] at htracer hover <;> dsimp only at htracer hover
  case idle => exact htracer.2
  case started => exact htracer.2.2
  case written => omega
  case advanced => omega
  case checking => omega
  case overrun => exact absurd trivial hover

theorem and_daemonRingMask (n : Nat) : n % 2 ^ 32 &&& daemonRingMask = n % daemonRingSize :=
  @wrap32_and_mask 13 (by decide) n

/-! ### The tracer -/

theorem Tracing.Inv.of_eq {hi' : Nat} (h : s.Inv full lo hi idx) (hslots : s'.slots = s.slots)
    (hpushed : s'.pushed = s.pushed) (hdelivered : s'.delivered = s.delivered)
    (htail : s'.tail = s.tail) (hhead : s'.head = hi' % 2 ^ 32) (hhi : hi ≤ hi')
    (htracer : s'.TracerAt full lo hi')
    (hpollers : ∀ c, (s'.pollers c).Copies s.pushed lo hi')
    (hunique : ∀ c d, (s'.pollers c).isCopying = true → (s'.pollers d).isCopying = true → c = d) :
    s'.Inv full lo hi' idx where
  length := by rw [hslots, h.length]
  head := hhead
  tail := by rw [htail, h.tail]
  lo_le := h.lo_le.trans hhi
  tracer := htracer
  pollers := by rwa [hpushed]
  unique := hunique
  entries := by rw [hslots, hpushed]; exact h.entries
  sorted := h.sorted
  idx_lt := h.idx_lt
  delivered := by rw [hdelivered, hpushed, h.delivered]
  lost := by rw [hpushed]; exact h.lost

theorem PopAt.Copies.mono {pushed : List TracerEvent} {p : PopAt} {hi' : Nat}
    (h : p.Copies pushed lo hi) (hhi : hi ≤ hi') : p.Copies pushed lo hi' := by
  cases p with
  | idle => exact trivial
  | started t => exact trivial
  | copying t n out => exact ⟨h.1, h.2.1.trans hhi, h.2.2⟩

theorem PopAt.Copies.append {pushed : List TracerEvent} {p : PopAt} (h : p.Copies pushed lo hi)
    (hhi : hi ≤ pushed.length) (ev : TracerEvent) : p.Copies (pushed ++ [ev]) lo hi := by
  cases p with
  | idle => exact trivial
  | started t => exact trivial
  | copying t n out =>
    obtain ⟨ht, hn, hlen, hout⟩ := h
    refine ⟨ht, hn, hlen, ?_⟩
    rw [drop_append_of_le_length (by omega),
      take_append_of_le_length (by rw [length_drop]; omega)]
    exact hout

theorem Tracing.Inv.write (h : s.Inv full lo hi idx) {ev : TracerEvent} {n : Nat}
    (hphase : s.tracer = .started ev n)
    (hfull : daemonRingSize ≤ sub32 s.head s.tail → full ∧ s.Quiet) :
    Inv { s with
      slots := s.slots.set (n &&& daemonRingMask) ev, pushed := s.pushed ++ [ev],
      tracer := .written n } full lo hi idx := by
  have htracer := h.tracer
  rw [TracerAt, hphase] at htracer
  obtain ⟨rfl, rfl, hle⟩ := htracer
  rw [h.sub_eq] at hfull
  have hlo := h.lo_le
  have hlength : (s.pushed ++ [ev]).length = s.pushed.length + 1 := by
    rw [length_append, length_singleton]
  have hpos : 0 < daemonRingSize := by decide
  constructor
  case length => rw [length_set, h.length]
  case head => exact h.head
  case tail => exact h.tail
  case lo_le => exact hlo
  case tracer =>
    refine ⟨rfl, hlength.symm, ?_⟩
    rw [Fills, hlength]
    rcases Nat.lt_or_ge s.pushed.length (lo + daemonRingSize) with hlt | hge
    · exact .inl hlt
    · obtain ⟨hover, hquiet⟩ := hfull (by omega)
      exact .inr ⟨hover, hquiet, by omega⟩
  case pollers => exact fun c => (h.pollers c).append le_rfl ev
  case unique => exact h.unique
  case entries =>
    rw [and_daemonRingMask, ← h.length, hlength]
    refine Circular.push (h.entries.mono ?_ le_rfl) ?_ ?_ ev
    · rw [h.length]
      omega
    · rw [h.length]
      omega
    · rw [h.length]
      omega
  case sorted => exact h.sorted
  case idx_lt => exact h.idx_lt
  case delivered =>
    rw [h.delivered]
    refine map_congr_left fun i hi => ?_
    rw [getElem?_append_left ((h.idx_lt i hi).trans_le hlo)]
  case lost =>
    rw [hlength]
    exact fun j hj => (h.lost j hj).imp_right fun hlt => hlt.trans (Nat.lt_succ_self _)

theorem Tracing.Inv.overrun (h : s.Inv full lo hi idx) {n : Nat} (hphase : s.tracer = .overrun n) :
    Inv { s with tail := sub32 n daemonRingSize, tracer := .idle } full (lo + 1) hi
      idx := by
  have htracer := h.tracer
  rw [TracerAt, hphase] at htracer
  obtain ⟨rfl, rfl, -, hquiet, hover⟩ := htracer
  have hle : s.pushed.length ≤ lo + 1 + daemonRingSize := by omega
  have hlast : lo + daemonRingSize < s.pushed.length := by omega
  constructor
  case length => exact h.length
  case head => exact h.head
  case tail =>
    dsimp only
    rw [hover, sub32, counterSub, daemonRingSize]
    omega
  case lo_le => omega
  case tracer => exact ⟨rfl, hle⟩
  case pollers =>
    intro c
    have hc := hquiet c
    cases hp : s.pollers c with
    | idle => exact trivial
    | started t => exact trivial
    | copying t n out =>
      rw [hp] at hc
      cases hc
  case unique => exact h.unique
  case entries => exact h.entries.mono (by omega) le_rfl
  case sorted => exact h.sorted
  case idx_lt => exact fun i hi => (h.idx_lt i hi).trans (Nat.lt_succ_self _)
  case delivered => exact h.delivered
  case lost =>
    intro j hj
    rcases Nat.lt_succ_iff_lt_or_eq.mp hj with hlt | rfl
    · exact h.lost j hlt
    · exact .inr hlast

theorem Tracing.Inv.pushStep (h : s.Inv full lo hi idx)
    (hwrite : s.Writes .tracer → daemonRingSize ≤ sub32 s.head s.tail → full ∧ s.Quiet)
    (hstep : s.pushStep = some s') : ∃ lo' hi', s'.Inv full lo' hi' idx := by
  have htracer := h.tracer
  rw [TracerAt] at htracer
  rw [Tracing.pushStep] at hstep
  cases hphase : s.tracer <;> rw [hphase] at htracer hstep <;> dsimp only at htracer
  case idle => cases hstep
  case started ev n =>
    obtain rfl := Option.some.inj hstep
    exact ⟨lo, hi, h.write hphase (hwrite ⟨rfl, ev, n, hphase⟩)⟩
  case written n =>
    obtain rfl := Option.some.inj hstep
    obtain ⟨rfl, hlen, hfill⟩ := htracer
    refine ⟨lo, hi + 1, h.of_eq rfl rfl rfl rfl ?_ (Nat.le_succ hi) ⟨hlen, hfill⟩
      (fun c => (h.pollers c).mono (Nat.le_succ hi)) h.unique⟩
    exact Nat.mod_add_mod hi (2 ^ 32) 1
  case advanced =>
    obtain rfl := Option.some.inj hstep
    obtain ⟨hlen, hfill⟩ := htracer
    refine ⟨lo, hi, h.of_eq rfl rfl rfl rfl h.head le_rfl ⟨hlen, lo, le_rfl, h.tail, ?_⟩ h.pollers
      h.unique⟩
    exact hfill.imp_right fun hfull => ⟨hfull.1, hfull.2.1, hfull.2.2, rfl⟩
  case checking t =>
    obtain rfl := Option.some.inj hstep
    obtain ⟨rfl, lo', hlo, rfl, hfill⟩ := htracer
    refine ⟨lo, _, h.of_eq rfl rfl rfl rfl h.head le_rfl ?_ h.pollers h.unique⟩
    have hsub : sub32 s.head (lo' % 2 ^ 32) = s.pushed.length - lo' := by
      rw [h.head, sub32_mod (hlo.trans h.lo_le)]
      rw [daemonRingSize] at hfill
      omega
    rw [hsub]
    by_cases hover : s.pushed.length - lo' > daemonRingSize
    · rw [if_pos hover]
      obtain ⟨hfull, hquiet, hlen, -⟩ := hfill.resolve_left (by omega)
      exact ⟨h.head, rfl, hfull, hquiet, hlen⟩
    · rw [if_neg hover]
      exact ⟨rfl, (Nat.sub_le_iff_le_add'.mp (not_lt.mp hover)).trans (by omega)⟩
  case overrun n =>
    obtain rfl := Option.some.inj hstep
    exact ⟨lo + 1, hi, h.overrun hphase⟩

/-! ### The pollers -/

theorem PopAt.copies_of_not_copying {pushed : List TracerEvent} {p : PopAt}
    (h : p.isCopying = false) : p.Copies pushed lo hi := by
  cases p with
  | idle => exact trivial
  | started t => exact trivial
  | copying t n out => cases h

theorem Tracing.TracerAt.of_eq (h : s.TracerAt full lo hi) (hphase : s'.tracer = s.tracer)
    (hpushed : s'.pushed = s.pushed) {lo' : Nat}
    (hlo : s.pushed.length ≤ lo + daemonRingSize ∧ lo ≤ lo' ∨ lo' = lo ∧ (s.Quiet → s'.Quiet)) :
    s'.TracerAt full lo' hi := by
  rw [TracerAt, Fills] at h ⊢
  rw [hphase, hpushed]
  rcases hlo with ⟨hle, hlo⟩ | ⟨rfl, hquiet⟩
  · cases hp : s.tracer <;> rw [hp] at h <;> dsimp only at h ⊢
    case idle => exact ⟨h.1, by omega⟩
    case started => exact ⟨h.1, h.2.1, by omega⟩
    case written => exact ⟨h.1, h.2.1, .inl (by omega)⟩
    case advanced => exact ⟨h.1, .inl (by omega)⟩
    case checking =>
      obtain ⟨hhi, lo₀, hlo₀, ht, hfill⟩ := h
      exact ⟨hhi, lo₀, hlo₀.trans hlo, ht, .inl (by omega)⟩
    case overrun => exact absurd h.2.2.2.2 (by omega)
  · cases hp : s.tracer <;> rw [hp] at h <;> dsimp only at h ⊢
    case idle => exact h
    case started => exact h
    case written => exact ⟨h.1, h.2.1, h.2.2.imp_right fun hf => ⟨hf.1, hquiet hf.2.1, hf.2.2⟩⟩
    case advanced => exact ⟨h.1, h.2.imp_right fun hf => ⟨hf.1, hquiet hf.2.1, hf.2.2⟩⟩
    case checking =>
      obtain ⟨hhi, lo₀, hlo₀, ht, hfill⟩ := h
      exact ⟨hhi, lo₀, hlo₀, ht, hfill.imp_right fun hf => ⟨hf.1, hquiet hf.2.1, hf.2.2⟩⟩
    case overrun => exact ⟨h.1, h.2.1, h.2.2.1, hquiet h.2.2.2.1, h.2.2.2.2⟩

theorem update_forall {P : PopAt → Prop} {f : Nat → PopAt} {c : Nat} {p : PopAt} (hp : P p)
    (hf : ∀ d, d ≠ c → P (f d)) (d : Nat) : P (Function.update f c p d) := by
  by_cases hd : d = c
  · rw [hd, update_self]
    exact hp
  · rw [update_of_ne hd]
    exact hf d hd

theorem update_unique {f : Nat → PopAt} {c : Nat} {p : PopAt}
    (hf : ∀ c d, (f c).isCopying = true → (f d).isCopying = true → c = d)
    (hp : p.isCopying = true → ∀ d, d ≠ c → (f d).isCopying = false) (d e : Nat) :
    (Function.update f c p d).isCopying = true → (Function.update f c p e).isCopying = true →
      d = e := by
  intro hd he
  rcases eq_or_ne d c with rfl | hdc <;> rcases eq_or_ne e d with rfl | hed
  · rfl
  · rw [update_self] at hd
    rw [update_of_ne hed, hp hd e hed] at he
    cases he
  · rfl
  · rw [update_of_ne hdc] at hd
    rcases eq_or_ne e c with rfl | hec
    · rw [update_self] at he
      rw [hp he d hdc] at hd
      cases hd
    · rw [update_of_ne hec] at he
      exact hf d e hd he

theorem Tracing.Inv.update (h : s.Inv full lo hi idx) {c : Nat} {p : PopAt}
    (hp : p.Copies s.pushed lo hi)
    (hcopying : p.isCopying = true → s.pushed.length ≤ lo + daemonRingSize ∧
      ∀ d, d ≠ c → (s.pollers d).isCopying = false) :
    Inv { s with pollers := Function.update s.pollers c p } full lo hi idx := by
  refine h.of_eq rfl rfl rfl rfl h.head le_rfl (h.tracer.of_eq ?_ ?_ ?_)
    (update_forall hp fun d _ => h.pollers d)
    (update_unique h.unique fun hc => (hcopying hc).2)
  · rfl
  · rfl
  cases hc : p.isCopying with
  | true => exact .inl ⟨(hcopying hc).1, le_rfl⟩
  | false =>
    refine .inr ⟨rfl, fun hquiet => ?_⟩
    exact @update_forall (fun p => p.isCopying = false) _ _ _ hc fun d _ => hquiet d

theorem Tracing.Inv.others (h : s.Inv full lo hi idx) {c : Nat}
    (hc : (s.pollers c).isCopying = true) (d : Nat) (hd : d ≠ c) :
    (s.pollers d).isCopying = false :=
  Bool.eq_false_iff.mpr fun hcopying => hd (h.unique d c hcopying hc)

theorem map_some_slice {l : List TracerEvent} {n : Nat} (h : lo + n ≤ l.length) :
    ((l.drop lo).take n).map some = (List.range' lo n).map (l[·]?) := by
  refine ext_getElem? fun i => ?_
  rw [getElem?_map, getElem?_map]
  rcases Nat.lt_or_ge i n with hlt | hge
  · rw [getElem?_take_of_lt hlt, getElem?_drop, getElem?_range' hlt, Nat.one_mul,
      Option.map_some, getElem?_eq_getElem (by omega), Option.map_some]
  · rw [getElem?_eq_none (by rw [length_take]; omega),
      getElem?_eq_none (by rw [length_range']; exact hge)]
    rfl

theorem Tracing.Inv.deliver (h : s.Inv full lo hi idx) {c t n : Nat} {out : List TracerEvent}
    (hc : s.pollers c = .copying t n out) (hlen : n ≤ out.length) :
    Inv { s with
      tail := wrap32 (t + n), delivered := s.delivered ++ out,
      pollers := Function.update s.pollers c .idle } full (lo + n) hi
      (idx ++ List.range' lo n) := by
  have hcopies := h.pollers c
  rw [hc] at hcopies
  obtain ⟨rfl, hn, hle, hout⟩ := hcopies
  obtain rfl := hle.antisymm hlen
  have hcopying : (s.pollers c).isCopying = true := by rw [hc]; rfl
  have hidle := @update_forall (fun p => p.isCopying = false) _ c .idle rfl (h.others hcopying)
  obtain ⟨hhi, -, hfill⟩ := h.tracer.bounds
  have hroom := hfill.le_of_copying hcopying
  constructor
  case length => exact h.length
  case head => exact h.head
  case tail => exact Nat.mod_add_mod lo (2 ^ 32) out.length
  case lo_le => exact hn
  case tracer =>
    refine h.tracer.of_eq ?_ ?_ (.inl ⟨hroom, Nat.le_add_right _ _⟩)
    · rfl
    · rfl
  case pollers => exact fun d => PopAt.copies_of_not_copying (hidle d)
  case unique =>
    intro d e hd
    rw [hidle d] at hd
    cases hd
  case entries => exact h.entries.mono (max_le_max (Nat.le_add_right _ _) le_rfl) le_rfl
  case sorted =>
    refine pairwise_append.mpr ⟨h.sorted, pairwise_lt_range', fun i hi j hj => ?_⟩
    exact (h.idx_lt i hi).trans_le (mem_range'_1.mp hj).1
  case idx_lt =>
    intro i hi
    rcases mem_append.mp hi with hi | hi
    · exact (h.idx_lt i hi).trans_le (Nat.le_add_right _ _)
    · exact (mem_range'_1.mp hi).2
  case delivered =>
    rw [map_append, map_append, h.delivered]
    congr 1
    rw [hout, length_take, length_drop, Nat.min_eq_left (by omega)]
    exact map_some_slice (by omega)
  case lost =>
    intro j hj
    rcases Nat.lt_or_ge j lo with hlt | hge
    · exact (h.lost j hlt).imp_left fun hmem => mem_append_left _ hmem
    · exact .inl (mem_append_right _ (mem_range'_1.mpr ⟨hge, hj⟩))

theorem Tracing.step_empty {c t : Nat} (hc : s.pollers c = .started t)
    (hzero : sub32 s.head t = 0) :
    s.step (.poller c) = some { s with pollers := Function.update s.pollers c .idle } := by
  rw [Tracing.step, Tracing.popStep, hc]
  dsimp only
  rw [if_pos (.inl hzero)]

theorem Tracing.step_found {c t : Nat} (hc : s.pollers c = .started t)
    (havail : sub32 s.head t ≠ 0) : s.step (.poller c) = some { s with
      pollers := Function.update s.pollers c
        (.copying t (popCount (sub32 s.head t) pollMaxCount) []) } := by
  rw [Tracing.step, Tracing.popStep, hc]
  dsimp only
  rw [if_neg (not_or.mpr ⟨havail, by decide⟩)]

theorem Tracing.step_copied {c t n : Nat} {out : List TracerEvent}
    (hc : s.pollers c = .copying t n out) (hlen : out.length < n) :
    s.step (.poller c) = some { s with
      pollers := Function.update s.pollers c (.copying t n
        (out ++ [s.slots.getD (wrap32 (t + out.length) &&& daemonRingMask) .zero])) } := by
  rw [Tracing.step, Tracing.popStep, hc]
  exact if_pos hlen

theorem Tracing.step_stored {c t n : Nat} {out : List TracerEvent}
    (hc : s.pollers c = .copying t n out) (hlen : ¬ out.length < n) :
    s.step (.poller c) = some { s with
      tail := wrap32 (t + n), delivered := s.delivered ++ out,
      pollers := Function.update s.pollers c .idle } := by
  rw [Tracing.step, Tracing.popStep, hc]
  exact if_neg hlen

theorem Tracing.Inv.popStep (h : s.Inv full lo hi idx) {c : Nat} (hfinds : ∀ t,
    s.Finds (.poller c) t → t = s.tail ∧ s.Quiet ∧ ¬ s.Overwriting)
    (hstep : s.popStep c = some s') : ∃ lo' idx', s'.Inv full lo' hi idx' := by
  obtain ⟨hhi, -, hfill⟩ := h.tracer.bounds
  cases hc : s.pollers c with
  | idle =>
    rw [Tracing.popStep, hc] at hstep
    cases hstep
  | started t =>
    by_cases hzero : sub32 s.head t = 0
    · obtain rfl := Option.some.inj ((step_empty hc hzero).symm.trans hstep)
      exact ⟨lo, idx, h.update trivial nofun⟩
    · obtain rfl := Option.some.inj ((step_found hc hzero).symm.trans hstep)
      obtain ⟨rfl, hquiet, hover⟩ := hfinds t ⟨c, rfl, hc, hzero⟩
      refine ⟨lo, idx, h.update ⟨h.tail, ?_, Nat.zero_le _, rfl⟩
        fun _ => ⟨h.le_of_not_overwriting hover, fun d _ => hquiet d⟩⟩
      have hlo := h.lo_le
      rw [h.sub_eq, popCount]
      split_ifs <;> omega
  | copying t n out =>
    have hcopying : (s.pollers c).isCopying = true := by rw [hc]; rfl
    have hcopies := h.pollers c
    rw [hc] at hcopies
    obtain ⟨rfl, hn, hle, hout⟩ := hcopies
    by_cases hlen : out.length < n
    · obtain rfl := Option.some.inj ((step_copied hc hlen).symm.trans hstep)
      have hroom := hfill.le_of_copying hcopying
      refine ⟨lo, idx, h.update ⟨rfl, hn, ?_, ?_⟩ fun _ => ⟨hroom, h.others hcopying⟩⟩
      · rw [length_append, length_singleton]
        exact hlen
      · have hentry := h.entries (lo + out.length) (by omega) (by omega)
        rw [h.length] at hentry
        rw [wrap32, Nat.mod_add_mod, and_daemonRingMask, getD_eq_getElem?_getD, hentry,
          getElem?_eq_getElem (by omega), Option.getD_some, length_append,
          length_singleton,
          take_succ_eq_append_getElem (by rw [length_drop]; omega), getElem_drop,
          ← hout]
    · obtain rfl := Option.some.inj ((step_stored hc hlen).symm.trans hstep)
      exact ⟨lo + n, _, h.deliver hc (not_lt.mp hlen)⟩

theorem Tracing.Inv.step (h : s.Inv full lo hi idx) {a : TracingLabel} (hapart : s.Apart a)
    (hroom : full ∨ (s.Writes a → sub32 s.head s.tail < daemonRingSize))
    (hstep : s.step a = some s') : ∃ lo' hi' idx', s'.Inv full lo' hi' idx' := by
  cases a with
  | push ev =>
    rw [Tracing.step] at hstep
    split_ifs at hstep with hphase
    obtain rfl := Option.some.inj hstep
    have htracer := h.tracer
    rw [TracerAt, hphase] at htracer
    exact ⟨lo, hi, idx,
      h.of_eq rfl rfl rfl rfl h.head le_rfl ⟨h.head, htracer⟩ h.pollers h.unique⟩
  | tracer =>
    obtain ⟨lo', hi', hinv⟩ := h.pushStep (fun hwrites hge => ⟨hroom.resolve_right fun hlt =>
      absurd (hlt hwrites) (not_lt.mpr hge), hapart.writes hwrites hge⟩) hstep
    exact ⟨lo', hi', idx, hinv⟩
  | poll c =>
    rw [Tracing.step] at hstep
    split_ifs at hstep with hidle
    obtain rfl := Option.some.inj hstep
    exact ⟨lo, hi, idx, h.update trivial nofun⟩
  | poller c =>
    obtain ⟨lo', idx', hinv⟩ := h.popStep (fun t ht => hapart.finds t ht) hstep
    exact ⟨lo', hi, idx', hinv⟩

theorem Tracing.Inv.delivers (h : s.Inv full lo hi idx) : s.Delivers := by
  obtain ⟨hhi, -, -⟩ := h.tracer.bounds
  refine ⟨idx, lo, h.sorted, h.idx_lt, h.lo_le.trans hhi, h.tail, h.delivered, fun j hj => ?_⟩
  rcases Nat.lt_or_ge j lo with hlt | hge
  · exact (h.lost j hlt).imp_right .inl
  · rcases Nat.lt_or_ge (j + daemonRingSize) s.pushed.length with hover | hin
    · exact .inr (.inl hover)
    · have hentry := h.entries j (by omega) hj
      rw [h.length] at hentry
      exact .inr (.inr ⟨hge, hentry⟩)

theorem Tracing.Inv.bounded (h : s.Inv False lo hi idx) : s.Bounded := by
  obtain ⟨hhi, -, hfill⟩ := h.tracer.bounds
  have hlen := hfill.resolve_right fun hfull => hfull.1
  rw [Bounded, h.sub_eq]
  omega

theorem Tracing.Inv.start {slots : List TracerEvent} (h : slots.length = daemonRingSize)
    (full : Prop) : (start slots).Inv full 0 0 [] where
  length := h
  head := rfl
  tail := rfl
  lo_le := le_rfl
  tracer := ⟨rfl, Nat.zero_le _⟩
  pollers := fun _ => trivial
  unique := nofun
  entries := .of_le (Nat.zero_le _) _ _
  sorted := .nil
  idx_lt := nofun
  delivered := rfl
  lost := nofun

end Steps

/-! ### Every interleaving -/

/-- If a pop that finds events never overlaps with another one or with a push onto a full ring, then
the pollers get the events in order and once; if no push finds the ring full either, then the head
is never too far ahead. -/
theorem tracing_delivers {slots : List TracerEvent} (hslots : slots.length = daemonRingSize)
    (labels : List TracingLabel) (s : Tracing) :
    (Run Tracing.step Apart (.start slots) labels s → s.Delivers) ∧
      (Run Tracing.step Roomy (.start slots) labels s → s.Delivers ∧ s.Bounded) := by
  constructor
  · intro hrun
    obtain ⟨lo, hi, idx, hinv⟩ := hrun.invariant
      (P := fun s => ∃ lo hi idx, s.Inv True lo hi idx)
      (fun s a s' ⟨_, _, _, hs⟩ ha hstep => hs.step ha (.inl trivial) hstep)
      ⟨0, 0, [], .start hslots True⟩
    exact hinv.delivers
  · intro hrun
    obtain ⟨lo, hi, idx, hinv⟩ := hrun.invariant
      (P := fun s => ∃ lo hi idx, s.Inv False lo hi idx)
      (fun s a s' ⟨_, _, _, hs⟩ ha hstep => hs.step ha.toApart (.inr ha.room) hstep)
      ⟨0, 0, [], .start hslots False⟩
    exact ⟨hinv.delivers, hinv.bounded⟩

section Guards

variable {s : Tracing}

theorem Tracing.Roomy.push (s : Tracing) (ev : TracerEvent) : s.Roomy (.push ev) :=
  ⟨⟨fun _ ⟨_, ha, _⟩ => (nomatch ha), fun ⟨ha, _⟩ => (nomatch ha)⟩, fun ⟨ha, _⟩ => (nomatch ha)⟩

theorem Tracing.Roomy.poll (s : Tracing) (c : Nat) : s.Roomy (.poll c) :=
  ⟨⟨fun _ ⟨_, ha, _⟩ => (nomatch ha), fun ⟨ha, _⟩ => (nomatch ha)⟩, fun ⟨ha, _⟩ => (nomatch ha)⟩

theorem Tracing.Roomy.tracer (h : sub32 s.head s.tail < daemonRingSize) : s.Roomy .tracer := by
  refine ⟨⟨?_, fun _ hge => absurd h (not_lt.mpr hge)⟩, fun _ => h⟩
  rintro _ ⟨_, ha, _⟩
  cases ha

theorem Tracing.Roomy.poller {c : Nat} (h : ∀ t, s.pollers c = .started t →
    t = s.tail ∧ s.Quiet ∧ ¬ s.Overwriting) : s.Roomy (.poller c) := by
  refine ⟨⟨?_, fun ⟨ha, _⟩ => (nomatch ha)⟩, fun ⟨ha, _⟩ => (nomatch ha)⟩
  rintro t ⟨d, ha, hd, -⟩
  cases ha
  exact h t hd

theorem Tracing.Roomy.copying {c t n : Nat} {out : List TracerEvent}
    (hc : s.pollers c = .copying t n out) : s.Roomy (.poller c) := by
  refine .poller fun t ht => ?_
  rw [hc] at ht
  cases ht

theorem Tracing.step_checked {t : Nat} (ht : s.tracer = .checking t)
    (h : sub32 s.head t ≤ daemonRingSize) :
    s.step .tracer = some { s with tracer := .idle } := by
  rw [Tracing.step, Tracing.pushStep, ht]
  dsimp only
  rw [if_neg (not_lt.mpr h)]

theorem Tracing.Roomy.found {c : Nat} (hc : s.pollers c = .started s.tail) (hquiet : s.Quiet)
    (hover : ¬ s.Overwriting) : s.Roomy (.poller c) := by
  refine .poller fun t ht => ?_
  rw [hc] at ht
  cases ht
  exact ⟨rfl, hquiet, hover⟩

end Guards

def clearedSlots : List TracerEvent := List.replicate daemonRingSize .zero

def twicePolled : List TracingLabel :=
  .push .zero :: List.replicate 4 .tracer ++ [.poll 0, .poll 1] ++
    (List.replicate 3 [.poller 0, .poller 1]).flatten

/-- A client polls the first event while the tracer pushes the second, which another client polls
while the tracer is still in `ring_push`. -/
def polledInTurn : List TracingLabel :=
  [.push .zero, .tracer, .tracer, .poll 0, .poller 0, .tracer, .tracer, .push .zero, .tracer,
    .poller 0, .tracer, .poller 0, .poll 1, .poller 1, .tracer, .poller 1, .tracer, .poller 1]

theorem polledInTurn_run : ∃ s, Run Tracing.step Roomy (.start clearedSlots) polledInTurn
    s ∧ s.delivered.length = 2 := by
  have hover : ¬ daemonRingSize < 1 := by decide
  have hrun : Run Tracing.step Roomy (.start clearedSlots) polledInTurn _ :=
    .cons (.push _ _) rfl (.cons (.tracer (by decide)) rfl (.cons (.tracer (by decide)) rfl
      (.cons (.poll _ _) rfl
      (.cons (.found rfl (by rintro (_ | _ | d) <;> rfl) hover)
        (step_found rfl (by decide))
      (.cons (.tracer (by decide)) rfl
      (.cons (.tracer (by decide)) (step_checked rfl (by decide)) (.cons (.push _ _) rfl
      (.cons (.tracer (by decide)) rfl
      (.cons (.copying rfl) (step_copied rfl (by decide))
      (.cons (.tracer (by decide)) rfl
      (.cons (.copying rfl) (step_stored rfl (by decide)) (.cons (.poll _ _) rfl
      (.cons (.found rfl (by rintro (_ | _ | d) <;> rfl) hover)
        (step_found rfl (by decide))
      (.cons (.tracer (by decide)) rfl
      (.cons (.copying rfl) (step_copied rfl (by decide))
      (.cons (.tracer (by decide)) (step_checked rfl (by decide))
      (.cons (.copying rfl) (step_stored rfl (by decide)) (.nil _))))))))))))))))))
  exact ⟨_, hrun, rfl⟩

theorem tracing_delivers_inTurn : ∃ s, Run Tracing.step Roomy (.start clearedSlots)
    polledInTurn s ∧ s.delivered.length = 2 ∧ s.Delivers ∧ s.Bounded := by
  obtain ⟨s, hrun, hlen⟩ := polledInTurn_run
  exact ⟨s, hrun, hlen, (tracing_delivers length_replicate polledInTurn s).2 hrun⟩

theorem Tracing.Delivers.length_le {s : Tracing} (h : s.Delivers) :
    s.delivered.length ≤ s.pushed.length := by
  obtain ⟨idx, lo, hsorted, hlt, hle, -, hmap, -⟩ := h
  have hlen := congrArg List.length hmap
  rw [length_map, length_map] at hlen
  have hsub : idx ⊆ List.range s.pushed.length := fun i hi =>
    mem_range.mpr ((hlt i hi).trans_le hle)
  have hbound := List.Nodup.length_le_of_subset (hsorted.imp fun h => h.ne) hsub
  rw [length_range] at hbound
  omega

theorem twicePolled_delivered : ((twicePolled.foldlM Tracing.step (.start clearedSlots)).map
    fun s => (s.pushed.length, s.delivered.length)) = some (1, 2) := by
  decide

theorem polled_twice : ∃ s, Run Tracing.step (fun _ _ => True) (.start clearedSlots) twicePolled s ∧
    ¬ (s.Delivers ∧ s.Bounded) := by
  obtain ⟨s, hs, hlen⟩ := Option.map_eq_some_iff.mp twicePolled_delivered
  refine ⟨s, Run.of_foldlM hs, fun h => ?_⟩
  have hle := h.1.length_le
  rw [(Prod.mk.inj hlen).1, (Prod.mk.inj hlen).2] at hle
  exact absurd hle (by decide)

end MemDbg.Tracer
