import MemDbg.Tauri.Client
import MemDbg.Lib.Transition

/-!
# Overlapping calls of `connect`

A call of `connect` is suspended while its transport opens and while the daemon answers.
If no other call begins meanwhile, `disconnect` is not called while the transport opens or once
the daemon has greeted, and no data of an earlier direct socket arrive while a later one is
subscribed, then the client is consistent in every state.  A second call lets the first one
continue on the transport of the second.
-/

namespace MemDbg.Tauri

open List Function Lib AutoTransport Option

/-! ## What is owed -/

structure Promise.Sound (p : Promise) : Prop where
  once : (p.calls = [] ∧ p.timer = true) ∨ ∃ x, p.calls = [x] ∧ p.timer = false
  own : ∀ f body, .resolved f body ∈ p.calls → f.header.requestId = p.requestId ∧
    (∀ o ∈ f.octets, p.transport = some o.via) ∧ deliver f = .resolved f body

def AutoTransport.Quiet (a : AutoTransport) : Prop :=
  ∀ p, a.pipe = some p → p.opened = false ∧ p.data = false ∧ p.close = false

def Greeted (promises : List Promise) (t : Nat) (greeting : HelloInfo) : Prop :=
  ∃ p ∈ promises, p.command = cmdHello ∧ p.transport = some t ∧
    ∃ f body, p.calls = [.resolved f body] ∧ f.header.status = 0 ∧
      decodeHello body = .ok greeting

def Heard (promises : List Promise) (t : Nat) (hello : HelloInfo) : Prop :=
  ∃ greeting, Greeted promises t greeting ∧ (hello = greeting ∨
    ∃ p ∈ promises, p.command = cmdGetExtendedCaps ∧ p.transport = some t ∧
      ∃ f body, p.calls = [.resolved f body] ∧ hello = greeting.extend f.header.status body)

namespace Client

/-- What the client owes its user: every promise is sound, and an online client talks to the
host it names through the transport of the latest `connect`, the only one that is open or
subscribed; what a direct socket sends goes out on its own connection. -/
structure Consistent (s : Client) : Prop where
  sound : ∀ p ∈ s.promises, p.Sound
  online : ∀ host port hello, s.state = .online host port hello →
    ∃ t a, s.transport = some t ∧ s.transports[t]? = some a ∧ a.host = host ∧ a.port = port ∧
      Heard s.promises t hello ∧ t + 1 = s.transports.length ∧
      (a.direct = true → ∀ c, s.handle = some c → c = t) ∧
      ∀ t' a', t' ≠ t → s.transports[t']? = some a' → a'.Quiet

def Unanswered (s : Client) (c : Connect) : Prop :=
  match c.awaits with
  | .hello i => ∀ f body, s.promises[i]?.bind Promise.result ≠ some (.resolved f body)
  | .failed _ => True
  | _ => False

def Orderly (s : Client) : Step → Prop
  | .connect _ _ => s.connects = []
  | .disconnect _ => ∀ c ∈ s.connects, s.Unanswered c
  | .data t _ => s.isDirect t = true → ∀ t' ∈ s.dataListeners, t' = t
  | _ => True

/-- A run of orderly steps. -/
abbrev OrderlyRun (s : Client) (steps : List Step) (s' : Client) : Prop :=
  Run (fun s e => some (s.apply e)) Orderly s steps s'

end Client

/-! ## Promises -/

namespace Promise

variable {p : Promise}

theorem Sound.calls_eq_nil (h : p.Sound) (ht : p.timer = true) : p.calls = [] := by
  rcases h.once with ⟨hcalls, -⟩ | ⟨x, -, hoff⟩
  · exact hcalls
  · rw [ht] at hoff
    cases hoff

theorem Sound.calls_of_result (h : p.Sound) {x : Settlement} (hx : p.result = some x) :
    p.calls = [x] := by
  rw [result] at hx
  rcases h.once with ⟨hnil, -⟩ | ⟨y, hy, -⟩
  · rw [hnil] at hx
    cases hx
  · rw [hy] at hx ⊢
    exact congrArg (fun z => [z]) (some_inj.mp hx)

theorem Sound.settle (h : p.Sound) (ht : p.timer = true) {x : Settlement}
    (hx : ∀ f body, x = .resolved f body → f.header.requestId = p.requestId ∧
      (∀ o ∈ f.octets, p.transport = some o.via) ∧ deliver f = .resolved f body) :
    (p.settle x).Sound where
  once := .inr ⟨x, by rw [Promise.settle, h.calls_eq_nil ht]; rfl, rfl⟩
  own f body hmem := by
    rw [Promise.settle, h.calls_eq_nil ht, nil_append, mem_singleton] at hmem
    exact hx f body hmem.symm

theorem Sound.reject (h : p.Sound) (ht : p.timer = true) (message : String) :
    (p.settle (.rejected message)).Sound :=
  h.settle ht fun _ _ hx => nomatch hx

end Promise

def Kept (ps ps' : List Promise) : Prop :=
  ∀ (i : Nat) (p : Promise), ps[i]? = some p →
    ∃ p' : Promise, ps'[i]? = some p' ∧ p'.command = p.command ∧ p'.requestId = p.requestId ∧
      p'.transport = p.transport ∧ ∀ x, p.calls = [x] → p'.calls = [x]

namespace Kept

variable {ps ps' ps'' : List Promise}

theorem refl (ps : List Promise) : Kept ps ps := fun _ p h => ⟨p, h, rfl, rfl, rfl, fun _ hx => hx⟩

theorem trans (h : Kept ps ps') (h' : Kept ps' ps'') : Kept ps ps'' := by
  intro i p hp
  obtain ⟨p', hp', hcmd, hid, ht, hcalls⟩ := h i p hp
  obtain ⟨p'', hp'', hcmd', hid', ht', hcalls'⟩ := h' i p' hp'
  exact ⟨p'', hp'', hcmd'.trans hcmd, hid'.trans hid, ht'.trans ht,
    fun x hx => hcalls' x (hcalls x hx)⟩

theorem append (ps qs : List Promise) : Kept ps (ps ++ qs) := by
  intro i p hp
  refine ⟨p, ?_, rfl, rfl, rfl, fun _ hx => hx⟩
  rw [List.getElem?_append_left (List.getElem?_eq_some_iff.mp hp).1, hp]

theorem modify {i : Nat} (x : Settlement) (h : ∀ p, ps[i]? = some p → p.calls = []) :
    Kept ps (ps.modify i (·.settle x)) := by
  intro j p hp
  rw [getElem?_modify, hp]
  by_cases hij : i = j
  · subst hij
    refine ⟨p.settle x, congrArg some (if_pos rfl), rfl, rfl, rfl, fun y hy => ?_⟩
    rw [h p hp] at hy
    cases hy
  · exact ⟨p, congrArg some (if_neg hij), rfl, rfl, rfl, fun _ hy => hy⟩

theorem mem (h : Kept ps ps') {p : Promise} (hp : p ∈ ps) {x : Settlement} (hx : p.calls = [x]) :
    ∃ p' ∈ ps', p'.command = p.command ∧ p'.transport = p.transport ∧ p'.calls = [x] := by
  obtain ⟨i, hi⟩ := mem_iff_getElem?.mp hp
  obtain ⟨p', hp', hcmd, -, ht, hcalls⟩ := h i p hi
  exact ⟨p', mem_of_getElem? hp', hcmd, ht, hcalls x hx⟩

theorem greeted (h : Kept ps ps') {t : Nat} {greeting : HelloInfo} (hg : Greeted ps t greeting) :
    Greeted ps' t greeting := by
  obtain ⟨p, hp, hcmd, ht, f, body, hcalls, hrest⟩ := hg
  obtain ⟨p', hp', hcmd', ht', hcalls'⟩ := h.mem hp hcalls
  exact ⟨p', hp', hcmd'.trans hcmd, ht'.trans ht, f, body, hcalls', hrest⟩

theorem heard (h : Kept ps ps') {t : Nat} {hello : HelloInfo} (hh : Heard ps t hello) :
    Heard ps' t hello := by
  obtain ⟨greeting, hg, heq | ⟨p, hp, hcmd, ht, f, body, hcalls, heq⟩⟩ := hh
  · exact ⟨greeting, h.greeted hg, .inl heq⟩
  · obtain ⟨p', hp', hcmd', ht', hcalls'⟩ := h.mem hp hcalls
    exact ⟨greeting, h.greeted hg,
      .inr ⟨p', hp', hcmd'.trans hcmd, ht'.trans ht, f, body, hcalls', heq⟩⟩

end Kept

/-! ## Transports -/

namespace AutoTransport

structure Wf (a : AutoTransport) : Prop where
  fresh : a.outcome ≠ .done → a.pipe = none ∧ a.dataHandlers = false ∧ a.closeHandlers = false
  inner : ∀ p, a.pipe = some p → p.opened = true → a.inner = true

def Shut (a : AutoTransport) : Prop := a.Quiet ∧ a.outcome ≠ .pending

variable {a : AutoTransport}

theorem candidate_of_shut (h : a.outcome ≠ .pending) (r : Except String Unit) :
    a.candidate r = a := by
  rw [candidate]
  split
  next hpending _ => exact absurd hpending h
  next => rfl

@[simp] theorem candidate_host (r : Except String Unit) : (a.candidate r).host = a.host := by
  rw [candidate]
  split
  next => split <;> rfl
  next => rfl

@[simp] theorem candidate_port (r : Except String Unit) : (a.candidate r).port = a.port := by
  rw [candidate]
  split
  next => split <;> rfl
  next => rfl

theorem Wf.candidate (h : a.Wf) (r : Except String Unit) :
    (a.candidate r).Wf ∧ ∀ p, (a.candidate r).pipe = some p →
      a.pipe = some p ∨ p.data = false ∧ p.close = false := by
  rw [AutoTransport.candidate]
  split
  next kind chain hpending hchain =>
    obtain ⟨hpipe, hdata, hclose⟩ := h.fresh (by rw [hpending]; exact nofun)
    split
    next =>
      refine ⟨⟨fun hne => absurd rfl hne, fun _ _ _ => rfl⟩, ?_⟩
      rintro p ⟨⟩
      exact .inr ⟨hdata, hclose⟩
    next =>
      exact ⟨⟨fun _ => ⟨hpipe, hdata, hclose⟩, fun p hp => h.inner p hp⟩, fun p hp => .inl hp⟩
  next => exact ⟨h, fun p hp => .inl hp⟩

theorem Wf.subscribe (h : a.Wf) (hdone : a.outcome = .done) : a.subscribe.Wf where
  fresh hne := absurd hdone hne
  inner p hp hopened := by
    by_cases hin : a.inner = true
    · exact hin
    · rw [AutoTransport.subscribe] at hp ⊢
      rw [if_neg hin] at hp
      exact h.inner p hp hopened

theorem pending_of_asksHost (h : a.asksHost = true) : a.outcome = .pending := by
  rw [asksHost, Bool.and_eq_true, decide_eq_true_iff] at h
  exact h.1

theorem direct_candidate_error (message : String) :
    (a.candidate (.error message)).direct = a.direct := by
  rw [candidate]
  split <;> rfl

theorem direct_of_candidate {r : Except String Unit} (h : (a.candidate r).direct = true) :
    a.direct = true ∨ a.asksHost = true ∧ r.isOk = true := by
  cases r with
  | error message =>
    rw [direct_candidate_error] at h
    exact .inl h
  | ok _ =>
    rw [candidate] at h
    split at h
    next kind chain hpending hchain =>
      rw [direct, any_some, decide_eq_true_iff] at h
      refine .inr ⟨?_, rfl⟩
      rw [asksHost, hpending, hchain, head?_cons, show kind = .tauri from h]
      rfl
    next => exact .inl h

@[simp] theorem direct_subscribe : a.subscribe.direct = a.direct := by
  rw [direct, direct, subscribe]
  split
  next => rw [Option.any_map]
  next => rfl

@[simp] theorem direct_hangUp : a.hangUp.direct = a.direct := by
  rw [direct, direct, hangUp, Option.any_map]

theorem Wf.hangUp (h : a.Wf) : a.hangUp.Wf where
  fresh hne := by
    obtain ⟨hpipe, hhandlers⟩ := h.fresh hne
    exact ⟨by rw [AutoTransport.hangUp, hpipe]; rfl, hhandlers⟩
  inner p hp hopened := by
    obtain ⟨q, hq, rfl⟩ := map_eq_some_iff.mp hp
    exact h.inner q hq ((Bool.and_eq_true _ _ ▸ hopened).1)

end AutoTransport

/-! ## Links -/

namespace Client

variable {s : Client}

def Through (s : Client) (t : Nat) : Prop :=
  s.transport = some t ∧ ∃ a, s.transports[t]? = some a ∧ a.outcome = .done

/-- What the client holds belongs to its one transport: the pending requests, the bytes in the
framer and the subscriptions; every other transport is shut.  The handle of the host is not that
of another connection. -/
structure Linked (s : Client) : Prop where
  live : ∀ id i, s.pending id = some i → ∃ p t, s.promises[i]? = some p ∧ p.requestId = id ∧
    p.timer = true ∧ p.transport = some t ∧ s.Through t
  sound : ∀ p ∈ s.promises, p.Sound
  framer : ∀ o ∈ s.framer, s.Through o.via
  latest : ∀ t, s.transport = some t → t + 1 = s.transports.length
  shut : ∀ t a, s.transports[t]? = some a → s.transport ≠ some t → a.Shut
  wired : ∀ t a p, s.transports[t]? = some a → a.pipe = some p →
    (p.data = true → s.unsubData = some t) ∧ (p.close = true → s.unsubClose = some t)
  wf : ∀ (t : Nat) (a : AutoTransport), s.transports[t]? = some a → a.Wf
  handled : ∀ (t : Nat) (a : AutoTransport) (c : Nat), s.transport = some t →
    s.transports[t]? = some a → a.direct = true → s.handle = some c → c = t

def Doomed (s : Client) (i : Nat) : Prop :=
  (∃ p, s.promises[i]? = some p ∧ ∀ f body, .resolved f body ∉ p.calls) ∧
    ∀ id, s.pending id ≠ some i

structure Moves (s s' : Client) : Prop where
  kept : Kept s.promises s'.promises
  doomed : ∀ i, s.Doomed i → s'.Doomed i

theorem Moves.refl (s : Client) : s.Moves s := ⟨.refl _, fun _ h => h⟩

theorem Moves.trans {s' s'' : Client} (h : s.Moves s') (h' : s'.Moves s'') : s.Moves s'' :=
  ⟨h.kept.trans h'.kept, fun i hi => h'.doomed i (h.doomed i hi)⟩

theorem getElem?_modify_some {α : Type*} {l : List α} {f : α → α} {i j : Nat} {a : α}
    (h : (l.modify i f)[j]? = some a) : ∃ b, l[j]? = some b ∧ a = if i = j then f b else b := by
  rw [getElem?_modify] at h
  obtain ⟨b, hb, rfl⟩ := map_eq_some_iff.mp h
  exact ⟨b, hb, rfl⟩

theorem getElem?_modify_of_some {α : Type*} {l : List α} (f : α → α) {i j : Nat} {b : α}
    (h : l[j]? = some b) : (l.modify i f)[j]? = some (if i = j then f b else b) := by
  rw [getElem?_modify, h]
  rfl

theorem forall_modify {α : Type*} {l : List α} {f : α → α} {i : Nat} {P : Nat → α → Prop}
    (hf : ∀ a, l[i]? = some a → P i (f a)) (h : ∀ j a, l[j]? = some a → P j a) {j : Nat} {a : α}
    (ha : (l.modify i f)[j]? = some a) : P j a := by
  obtain ⟨b, hb, rfl⟩ := getElem?_modify_some ha
  split
  next heq =>
    subst heq
    exact hf b hb
  next => exact h j b hb

namespace Linked

theorem unsettled (h : s.Linked) {i : Nat} {p : Promise} (hp : s.promises[i]? = some p) {id : Nat}
    (hi : s.pending id = some i) : p.requestId = id ∧ p.timer = true ∧
      ∃ t, p.transport = some t ∧ s.Through t := by
  obtain ⟨q, t, hq, hid, htimer, ht, hthrough⟩ := h.live id i hi
  rw [hp] at hq
  cases hq
  exact ⟨hid, htimer, t, ht, hthrough⟩

theorem setClosed (h : s.Linked) (reason : String) : (s.setClosed reason).Linked :=
  ⟨h.live, h.sound, h.framer, h.latest, h.shut, h.wired, h.wf, h.handled⟩

theorem rejectAll (h : s.Linked) (message : String) :
    (s.rejectAll message).Linked ∧ s.Moves (s.rejectAll message) := by
  have hat : ∀ i, (s.rejectAll message).promises[i]? = s.promises[i]?.map fun p =>
      if s.pending p.requestId = some i then p.settle (.rejected message) else p :=
    fun i => getElem?_mapIdx
  refine ⟨⟨nofun, fun p hp => ?_, h.framer, h.latest, h.shut, h.wired, h.wf, h.handled⟩,
    fun i p hp => ?_, ?_⟩
  · obtain ⟨i, hi⟩ := mem_iff_getElem?.mp hp
    rw [hat] at hi
    obtain ⟨q, hq, rfl⟩ := map_eq_some_iff.mp hi
    have hsound := h.sound q (mem_of_getElem? hq)
    split
    next hpending => exact hsound.reject (h.unsettled hq hpending).2.1 message
    next => exact hsound
  · rw [hat, hp]
    by_cases hpending : s.pending p.requestId = some i
    · have hnil := (h.sound p (mem_of_getElem? hp)).calls_eq_nil
        (h.unsettled hp hpending).2.1
      refine ⟨_, congrArg some (if_pos hpending), rfl, rfl, rfl, fun x hx => ?_⟩
      rw [hnil] at hx
      cases hx
    · exact ⟨p, congrArg some (if_neg hpending), rfl, rfl, rfl, fun _ hx => hx⟩
  · rintro i ⟨⟨p, hp, hcalls⟩, hpending⟩
    refine ⟨⟨p, ?_, hcalls⟩, nofun⟩
    rw [hat, hp]
    exact congrArg some (if_neg (hpending _))

theorem onTransportClose (h : s.Linked) (reason : String) :
    (s.onTransportClose reason).Linked ∧ s.Moves (s.onTransportClose reason) :=
  ⟨(h.rejectAll _).1.setClosed reason, (h.rejectAll _).2.kept, (h.rejectAll _).2.doomed⟩

theorem settle (h : s.Linked) {i : Nat} {p : Promise} (hp : s.promises[i]? = some p)
    (htimer : p.timer = true) {x : Settlement}
    (hx : ∀ f body, x = .resolved f body → f.header.requestId = p.requestId ∧
      (∀ o ∈ f.octets, p.transport = some o.via) ∧ deliver f = .resolved f body) :
    Linked { s with
      pending := update s.pending p.requestId none
      promises := s.promises.modify i (·.settle x) } := by
  have hsound := h.sound p (mem_of_getElem? hp)
  refine ⟨fun id j hj => ?_, fun q hq => ?_, h.framer, h.latest, h.shut, h.wired, h.wf,
    h.handled⟩
  · change update s.pending p.requestId none id = some j at hj
    by_cases hid : id = p.requestId
    · rw [hid, update_self] at hj
      cases hj
    · have hj' : s.pending id = some j := by rwa [update_of_ne hid] at hj
      obtain ⟨q, t, hq, hid', hrest⟩ := h.live id j hj'
      have hij : i ≠ j := by
        rintro rfl
        rw [hp] at hq
        cases hq
        exact hid hid'.symm
      refine ⟨q, t, ?_, hid', hrest⟩
      rw [getElem?_modify_of_some _ hq, if_neg hij]
  · obtain ⟨j, hj⟩ := mem_iff_getElem?.mp hq
    obtain ⟨r, hr, rfl⟩ := getElem?_modify_some hj
    split
    next heq =>
      subst heq
      rw [hp] at hr
      cases hr
      exact hsound.settle htimer hx
    next => exact h.sound r (mem_of_getElem? hr)

theorem moves_settle (h : s.Linked) {i : Nat} {p : Promise} (hp : s.promises[i]? = some p)
    (htimer : p.timer = true) {x : Settlement}
    (hx : (∀ f body, x ≠ .resolved f body) ∨ s.pending p.requestId = some i) :
    s.Moves { s with
      pending := update s.pending p.requestId none
      promises := s.promises.modify i (·.settle x) } := by
  have hnil := (h.sound p (mem_of_getElem? hp)).calls_eq_nil htimer
  refine ⟨.modify x fun q hq => ?_, ?_⟩
  · rw [hp] at hq
    cases hq
    exact hnil
  · rintro j ⟨⟨q, hq, hcalls⟩, hpending⟩
    refine ⟨⟨_, getElem?_modify_of_some _ hq, fun f body hmem => ?_⟩, fun id hid => ?_⟩
    · split at hmem
      next heq =>
        subst heq
        rw [hp] at hq
        cases hq
        rw [Promise.settle, hnil, nil_append, mem_singleton] at hmem
        rcases hx with hx | hx
        · exact hx f body hmem.symm
        · exact hpending _ hx
      next => exact hcalls f body hmem
    · change update s.pending p.requestId none id = some j at hid
      by_cases hne : id = p.requestId
      · rw [hne, update_self] at hid
        cases hid
      · rw [update_of_ne hne] at hid
        exact hpending id hid

theorem push (h : s.Linked) {q : Promise} (hq : q.Sound) (n : Nat) (calls : List HostCall)
    {pending : Nat → Option Nat} (hpending : ∀ id i, pending id = some i →
      s.pending id = some i ∨ id = q.requestId ∧ i = s.promises.length ∧ q.timer = true ∧
        ∃ t, q.transport = some t ∧ s.Through t) :
    Linked { s with
      nextReqId := n, calls := calls, pending := pending, promises := s.promises ++ [q] } := by
  refine ⟨fun id i hi => ?_, fun p hp => ?_, h.framer, h.latest, h.shut, h.wired, h.wf,
    h.handled⟩
  · rcases hpending id i hi with hold | ⟨rfl, rfl, htimer, t, ht, hthrough⟩
    · obtain ⟨p, t, hp, hrest⟩ := h.live id i hold
      refine ⟨p, t, ?_, hrest⟩
      rw [List.getElem?_append_left (List.getElem?_eq_some_iff.mp hp).1, hp]
    · exact ⟨q, t, getElem?_concat_length, rfl, htimer, ht, hthrough⟩
  · rcases mem_append.mp hp with hp | hp
    · exact h.sound p hp
    · rw [mem_singleton.mp hp]
      exact hq

theorem moves_push (q : Promise) (n : Nat) (calls : List HostCall) {pending : Nat → Option Nat}
    (hpending : ∀ id i, pending id = some i → s.pending id = some i ∨ i = s.promises.length) :
    s.Moves { s with
      nextReqId := n, calls := calls, pending := pending, promises := s.promises ++ [q] } := by
  refine ⟨.append _ _, ?_⟩
  rintro i ⟨⟨p, hp, hcalls⟩, hold⟩
  have hlt := (List.getElem?_eq_some_iff.mp hp).1
  refine ⟨⟨p, ?_, hcalls⟩, fun id hid => ?_⟩
  · rw [List.getElem?_append_left hlt, hp]
  · rcases hpending id i hid with hid | hlen
    · exact hold id hid
    · exact absurd hlen (Nat.ne_of_lt hlt)

theorem through_of_isOpen (h : s.Linked) (hopen : s.isOpen = true) :
    ∃ t, s.transport = some t ∧ s.Through t := by
  obtain ⟨t, ht, hany⟩ := (any_eq_true _ _).mp hopen
  obtain ⟨a, ha, hisOpen⟩ := (any_eq_true _ _).mp hany
  refine ⟨t, ht, ht, a, ha, ?_⟩
  by_contra hne
  rw [AutoTransport.isOpen, ((h.wf t a ha).fresh hne).1, any_none, Bool.and_false] at hisOpen
  cases hisOpen

theorem send (h : s.Linked) (command : Nat) (thrown : Option String) :
    (s.send command thrown).Linked ∧ s.Moves (s.send command thrown) ∧
      (s.send command thrown).transport = s.transport ∧
      (s.send command thrown).transports = s.transports ∧
      (s.send command thrown).connects = s.connects ∧ (s.send command thrown).state = s.state ∧
      ((s.send command thrown).Doomed s.promises.length ∨
        ∃ p, (s.send command thrown).promises[s.promises.length]? = some p ∧
          p.command = command ∧ p.transport = s.transport) := by
  rw [Client.send]
  split
  next =>
    have hq : (⟨command, 0, none, false, [.rejected "not connected"]⟩ : Promise).Sound :=
      ⟨.inr ⟨_, rfl, rfl⟩, fun f body hmem => nomatch mem_singleton.mp hmem⟩
    refine ⟨h.push hq s.nextReqId s.calls fun id i hi => .inl hi,
      moves_push _ s.nextReqId s.calls fun id i hi => .inl hi, rfl, rfl, rfl, rfl,
      .inl ⟨?_, fun id hid => ?_⟩⟩
    · exact ⟨_, getElem?_concat_length, fun f body hmem => nomatch mem_singleton.mp hmem⟩
    · obtain ⟨p, t, hp, -⟩ := h.live id _ hid
      exact absurd (List.getElem?_eq_some_iff.mp hp).1 (Nat.lt_irrefl _)
  next hopen =>
    obtain ⟨t, ht, hthrough⟩ := h.through_of_isOpen (Bool.not_eq_false _ ▸ hopen)
    have hq : (⟨command, s.nextReqId, s.transport, true, []⟩ : Promise).Sound :=
      ⟨.inl ⟨rfl, rfl⟩, nofun⟩
    have hupdate : ∀ (w : Option Nat) id i,
        update s.pending s.nextReqId w id = some i →
          s.pending id = some i ∨ id = s.nextReqId ∧ w = some i := fun w id i hi => by
      by_cases hid : id = s.nextReqId
      · rw [hid, update_self] at hi
        exact .inr ⟨hid, hi⟩
      · rw [update_of_ne hid] at hi
        exact .inl hi
    cases thrown with
    | none =>
      refine ⟨h.push hq _ _ fun id i hi => ?_, moves_push _ _ _ fun id i hi => ?_, rfl, rfl,
        rfl, rfl,
        .inr ⟨_, getElem?_concat_length, rfl, rfl⟩⟩
      · exact (hupdate _ id i hi).imp_right fun hnew =>
          ⟨hnew.1, (some_inj.mp hnew.2).symm, rfl, t, ht, hthrough⟩
      · exact (hupdate _ id i hi).imp_right fun hnew => (some_inj.mp hnew.2).symm
    | some message =>
      refine ⟨h.push (hq.reject rfl message) _ s.calls fun id i hi => ?_,
        moves_push _ _ s.calls fun id i hi => ?_,
        rfl, rfl, rfl, rfl, .inr ⟨_, getElem?_concat_length, rfl, rfl⟩⟩
      · exact .inl ((hupdate _ id i hi).resolve_right fun hnew => nomatch hnew.2)
      · exact .inl ((hupdate _ id i hi).resolve_right fun hnew => nomatch hnew.2)

theorem timeout (h : s.Linked) (i : Nat) : (s.timeout i).Linked ∧ s.Moves (s.timeout i) := by
  rw [Client.timeout]
  split
  next => exact ⟨h, .refl s⟩
  next p hp =>
    split
    next => exact ⟨h, .refl s⟩
    next htimer =>
      have htimer : p.timer = true := Bool.eq_true_of_not_eq_false htimer
      have hx : ∀ f body, Settlement.rejected ("request 0x" ++ hex p.command ++ " timed out") ≠
          .resolved f body := nofun
      exact ⟨h.settle hp htimer fun f body heq => absurd heq (hx f body),
        h.moves_settle hp htimer (.inl hx)⟩

theorem onFrame (h : s.Linked) {f : Frame} (hf : ∀ o ∈ f.octets, s.Through o.via) :
    (s.onFrame f).Linked ∧ s.Moves (s.onFrame f) := by
  rw [Client.onFrame]
  split
  next => exact ⟨h, .refl s⟩
  next i hi =>
    obtain ⟨p, t, hp, hid, htimer, ht, hthrough⟩ := h.live _ i hi
    rw [← hid] at hi ⊢
    refine ⟨h.settle hp htimer fun g body hx => ?_, h.moves_settle hp htimer (.inr hi)⟩
    have hgf : g = f := by
      rw [deliver] at hx
      split at hx
      next =>
        split at hx
        next => cases hx
        next => exact (Settlement.resolved.inj hx).1.symm
      next => exact (Settlement.resolved.inj hx).1.symm
    subst hgf
    refine ⟨hid.symm, fun o ho => ?_, hx⟩
    rw [ht, ← hthrough.1, (hf o ho).1]

end Linked

theorem onFrame_core (s : Client) (f : Frame) : (s.onFrame f).transport = s.transport ∧
    (s.onFrame f).transports = s.transports ∧ (s.onFrame f).connects = s.connects ∧
    (s.onFrame f).state = s.state := by
  rw [onFrame]
  split <;> exact ⟨rfl, rfl, rfl, rfl⟩

theorem Linked.onData (h : s.Linked) {chunk : List Octet} (hchunk : ∀ o ∈ chunk, s.Through o.via) :
    (s.onData chunk).Linked ∧ s.Moves (s.onData chunk) ∧
      (s.onData chunk).transport = s.transport ∧ (s.onData chunk).transports = s.transports ∧
      (s.onData chunk).connects = s.connects ∧ (s.onData chunk).state = s.state := by
  have hbuf : ∀ o ∈ s.framer ++ chunk, s.Through o.via := fun o ho =>
    (mem_append.mp ho).elim (h.framer o) (hchunk o)
  obtain ⟨hframes, hrest⟩ := drain_subset hbuf
  have hfold : ∀ (frames : List Frame) (s' : Client), s'.Linked → s'.transport = s.transport →
      s'.transports = s.transports → (∀ f ∈ frames, ∀ o ∈ f.octets, s.Through o.via) →
      (frames.foldl Client.onFrame s').Linked ∧ s'.Moves (frames.foldl Client.onFrame s') ∧
        (frames.foldl Client.onFrame s').transport = s.transport ∧
        (frames.foldl Client.onFrame s').transports = s.transports ∧
        (frames.foldl Client.onFrame s').connects = s'.connects ∧
        (frames.foldl Client.onFrame s').state = s'.state := by
    intro frames
    induction frames with
    | nil => exact fun s' hs' ht hts _ => ⟨hs', .refl s', ht, hts, rfl, rfl⟩
    | cons f frames ih =>
      intro s' hs' ht hts hall
      have hthrough : ∀ o ∈ f.octets, s'.Through o.via := fun o ho => by
        rw [Through, ht, hts]
        exact hall f mem_cons_self o ho
      obtain ⟨hlinked, hmoves⟩ := hs'.onFrame hthrough
      obtain ⟨ht', hts', hconnects, hstate⟩ := s'.onFrame_core f
      obtain ⟨hl, hm, ht'', hts'', hconnects', hstate'⟩ := ih (s'.onFrame f) hlinked
        (ht'.trans ht) (hts'.trans hts) fun g hg => hall g (mem_cons_of_mem f hg)
      exact ⟨hl, hmoves.trans hm, ht'', hts'', hconnects'.trans hconnects,
        hstate'.trans hstate⟩
  have hstart : Linked { s with framer := (drain (s.framer ++ chunk)).2 } :=
    ⟨h.live, h.sound, hrest, h.latest, h.shut, h.wired, h.wf, h.handled⟩
  obtain ⟨hl, hm, hcore⟩ := hfold _ _ hstart rfl rfl hframes
  exact ⟨hl, ⟨hm.kept, hm.doomed⟩, hcore⟩

namespace Linked

theorem modify (h : s.Linked) {t : Nat} {f : AutoTransport → AutoTransport}
    (hf : ∀ a, s.transports[t]? = some a → (f a).Wf ∧
      (a.outcome = .done → (f a).outcome = .done) ∧ (s.transport ≠ some t → (f a).Shut) ∧
      (s.transport = some t → (f a).direct = true → ∀ c, s.handle = some c → c = t) ∧
      ∀ p, (f a).pipe = some p →
        (p.data = true → s.unsubData = some t) ∧ (p.close = true → s.unsubClose = some t)) :
    Linked { s with transports := s.transports.modify t f } := by
  have hthrough : ∀ t', s.Through t' →
      Through { s with transports := s.transports.modify t f } t' := by
    rintro t' ⟨ht', a, ha, hdone⟩
    refine ⟨ht', _, getElem?_modify_of_some f ha, ?_⟩
    split
    next heq =>
      subst heq
      exact (hf a ha).2.1 hdone
    next => exact hdone
  refine ⟨fun id i hi => ?_, h.sound, fun o ho => hthrough _ (h.framer o ho), fun t' ht' => ?_,
    fun t' a ha => ?_, fun t' a p ha => ?_, fun t' a ha => ?_, fun t' a c ht' ha => ?_⟩
  · obtain ⟨p, t', hp, hid, htimer, ht', hlink⟩ := h.live id i hi
    exact ⟨p, t', hp, hid, htimer, ht', hthrough t' hlink⟩
  · rw [length_modify]
    exact h.latest t' ht'
  · exact forall_modify (P := fun t' a => s.transport ≠ some t' → a.Shut)
      (fun b hb => (hf b hb).2.2.1) h.shut ha
  · exact forall_modify (P := fun t' a => a.pipe = some p →
        (p.data = true → s.unsubData = some t') ∧ (p.close = true → s.unsubClose = some t'))
      (fun b hb => (hf b hb).2.2.2.2 p) (fun t' b hb => h.wired t' b p hb) ha
  · exact forall_modify (P := fun _ a => a.Wf) (fun b hb => (hf b hb).1) h.wf ha
  · exact forall_modify (P := fun t' a => s.transport = some t' → a.direct = true →
        s.handle = some c → c = t')
      (fun b hb ht hdirect => (hf b hb).2.2.2.1 ht hdirect c)
      (fun t' b hb ht hdirect => h.handled t' b c ht hb hdirect) ha ht'

end Linked

/-! ## Disconnecting -/

def released (s : Client) (t : Nat) (a : AutoTransport) : AutoTransport :=
  let a := if s.unsubData = some t then a.offData else a
  let a := if s.unsubClose = some t then a.offClose else a
  if s.transport = some t then a.close else a

theorem getElem?_modify_option {α : Type*} (l : List α) (f : α → α) (o : Option Nat) (t : Nat) :
    (match o with
      | some i => l.modify i f
      | none => l)[t]? = l[t]?.map fun a => if o = some t then f a else a := by
  cases o with
  | none =>
    simp only [reduceCtorEq, if_false]
    exact map_id'.symm
  | some i =>
    rw [getElem?_modify]
    simp only [some_inj]
    rfl

theorem goodbye_eq (s : Client) :
    ∃ n calls, s.goodbye = { s with nextReqId := n, calls := calls } := by
  rw [goodbye]
  split
  · exact ⟨_, _, rfl⟩
  · exact ⟨s.nextReqId, s.calls, rfl⟩

theorem dropTransport_eq (s : Client) (reason : String) :
    ∃ s' calls, (s' = s ∨ s' = s.onTransportClose reason) ∧ s.dropTransport reason =
      { s' with
        transports := match s.transport with
          | some t => s.transports.modify t close
          | none => s.transports
        transport := none
        calls := calls } := by
  rw [dropTransport]
  cases ht : s.transport with
  | none =>
    refine ⟨s, s.calls, .inl rfl, ?_⟩
    dsimp only
    rw [← ht]
  | some t =>
    dsimp only
    split
    next => exact ⟨_, _, .inr rfl, rfl⟩
    next => exact ⟨s, _, .inl rfl, rfl⟩

theorem disconnect_eq (s : Client) (reason : String) :
    ∃ s' n calls, (s' = s ∨ s' = s.onTransportClose reason) ∧ s.disconnect reason =
      { s'.rejectAll ("disconnected: " ++ reason) with
        nextReqId := n
        calls := calls
        transports := match s.transport with
          | some t => s.unsubscribe.transports.modify t close
          | none => s.unsubscribe.transports
        transport := none
        unsubData := none
        unsubClose := none
        framer := [] }.setClosed reason := by
  obtain ⟨n, _, hn⟩ := s.goodbye_eq
  obtain ⟨s', calls, hs', hdrop⟩ := s.goodbye.unsubscribe.dropTransport_eq reason
  rw [disconnect, hdrop]
  rw [hn] at hs' ⊢
  rcases hs' with rfl | rfl
  · exact ⟨s, n, calls, .inl rfl, rfl⟩
  · exact ⟨_, n, calls, .inr rfl, rfl⟩

theorem getElem?_disconnect (reason : String) (t : Nat) :
    (s.disconnect reason).transports[t]? = s.transports[t]?.map (s.released t) := by
  obtain ⟨s', n, calls, -, heq⟩ := s.disconnect_eq reason
  have hdata := getElem?_modify_option s.transports offData s.unsubData t
  have hclose := (getElem?_modify_option _ offClose s.unsubClose t).trans
    (congrArg _ hdata)
  have h := (getElem?_modify_option _ close s.transport t).trans (congrArg _ hclose)
  rw [Option.map_map, Option.map_map] at h
  rw [heq]
  exact h

theorem released_same (s : Client) (t : Nat) (a : AutoTransport) :
    (s.released t a).host = a.host ∧ (s.released t a).port = a.port ∧
      (s.released t a).outcome = a.outcome ∧
      ((s.released t a).dataHandlers = true → a.dataHandlers = true) ∧
      ((s.released t a).closeHandlers = true → a.closeHandlers = true) := by
  have hclose : ∀ b : AutoTransport, b.close.host = b.host ∧ b.close.port = b.port ∧
      b.close.outcome = b.outcome ∧ b.close.dataHandlers = b.dataHandlers ∧
      b.close.closeHandlers = b.closeHandlers := fun b => by
    rw [close]
    split <;> exact ⟨rfl, rfl, rfl, rfl, rfl⟩
  rw [released]
  split_ifs <;>
    simp only [hclose, offData, offClose, imp_self, and_self,
      Bool.false_eq_true, false_implies]

theorem close_pipe (a : AutoTransport) :
    a.close.pipe = a.pipe.map fun p => { p with opened := p.opened && !a.inner } := by
  rw [close]
  cases hin : a.inner with
  | true => simp
  | false => simp

theorem released_pipe (s : Client) (t : Nat) (a : AutoTransport) :
    (s.released t a).pipe = a.pipe.map fun p =>
      ⟨p.kind, p.opened && !(decide (s.transport = some t) && a.inner),
        p.data && !decide (s.unsubData = some t), p.close && !decide (s.unsubClose = some t)⟩ := by
  rw [released]
  split_ifs with ht hclose hdata hdata hclose hdata hdata <;>
    cases hp : a.pipe <;>
    simp [close_pipe, offData, offClose, *]

theorem released_spec (h : s.Linked) {t : Nat} {a : AutoTransport}
    (ha : s.transports[t]? = some a) : (s.released t a).Quiet ∧ (s.released t a).Wf := by
  have hquiet : (s.released t a).Quiet := by
    intro p' hp'
    rw [released_pipe] at hp'
    obtain ⟨p, hp, rfl⟩ := map_eq_some_iff.mp hp'
    obtain ⟨hdata, hclose⟩ := h.wired t a p ha hp
    refine ⟨?_, ?_, ?_⟩
    · by_cases ht : s.transport = some t
      · cases hopened : p.opened with
        | false => rfl
        | true =>
          simp only [ht, (h.wf t a ha).inner p hp hopened, decide_true, Bool.and_self,
            Bool.not_true, Bool.and_false]
      · simp only [((h.shut t a ha ht).1 p hp).1, Bool.false_and]
    · cases hd : p.data with
      | false => rfl
      | true => simp only [hdata hd, decide_true, Bool.not_true, Bool.and_false]
    · cases hc : p.close with
      | false => rfl
      | true => simp only [hclose hc, decide_true, Bool.not_true, Bool.and_false]
  refine ⟨hquiet, fun hne => ?_, fun p hp hopened => ?_⟩
  · obtain ⟨-, -, houtcome, hdata, hclose⟩ := s.released_same t a
    rw [houtcome] at hne
    obtain ⟨hpipe, hd, hc⟩ := (h.wf t a ha).fresh hne
    refine ⟨?_, ?_, ?_⟩
    · rw [released_pipe, hpipe]
      rfl
    · exact Bool.eq_false_iff.mpr fun htrue => by rw [hdata htrue] at hd; cases hd
    · exact Bool.eq_false_iff.mpr fun htrue => by rw [hclose htrue] at hc; cases hc
  · rw [(hquiet p hp).1] at hopened
    cases hopened

theorem Linked.transports_disconnect (h : s.Linked) (reason : String) {t : Nat}
    {a' : AutoTransport} (ha' : (s.disconnect reason).transports[t]? = some a') :
    ∃ a, s.transports[t]? = some a ∧ a'.outcome = a.outcome ∧ a'.Quiet ∧ a'.Wf := by
  rw [getElem?_disconnect] at ha'
  obtain ⟨a, ha, rfl⟩ := map_eq_some_iff.mp ha'
  exact ⟨a, ha, (s.released_same t a).2.2.1, released_spec h ha⟩

theorem Linked.disconnect (h : s.Linked) (reason : String)
    (hopened : ∀ (t : Nat) (a : AutoTransport), s.transports[t]? = some a → a.outcome ≠ .pending) :
    (s.disconnect reason).Linked ∧ s.Moves (s.disconnect reason) ∧
      (s.disconnect reason).transport = none ∧ (∀ id, (s.disconnect reason).pending id = none) ∧
      (s.disconnect reason).connects = s.connects ∧
      (s.disconnect reason).state.isOnline = false := by
  have htransports := fun (t : Nat) (a' : AutoTransport) =>
    @Linked.transports_disconnect s h reason t a'
  obtain ⟨s', n, calls, hs', heq⟩ := s.disconnect_eq reason
  have hs : s'.Linked ∧ s.Moves s' ∧ s'.connects = s.connects := by
    rcases hs' with rfl | rfl
    · exact ⟨h, .refl _, rfl⟩
    · exact ⟨(h.onTransportClose reason).1, (h.onTransportClose reason).2, rfl⟩
  obtain ⟨hlinked, hkept⟩ := hs.1.rejectAll ("disconnected: " ++ reason)
  have hstate : (s.disconnect reason).state.isOnline = false := by
    rw [heq, Client.setClosed]
    dsimp only
    split <;> rfl
  refine ⟨⟨?_, ?_, ?_, ?_, ?_, ?_, ?_, ?_⟩, ?_, ?_, ?_, ?_, hstate⟩
  · rw [heq]
    exact nofun
  · rw [heq]
    exact hlinked.sound
  · rw [heq]
    exact nofun
  · rw [heq]
    exact nofun
  · intro t a' ha' _
    obtain ⟨a, ha, houtcome, hquiet, -⟩ := htransports t a' ha'
    exact ⟨hquiet, by rw [houtcome]; exact hopened t a ha⟩
  · intro t a' p ha' hp
    obtain ⟨a, ha, -, hquiet, -⟩ := htransports t a' ha'
    obtain ⟨-, hdata, hclose⟩ := hquiet p hp
    rw [hdata, hclose]
    exact ⟨nofun, nofun⟩
  · intro t a' ha'
    obtain ⟨a, ha, -, -, hwf⟩ := htransports t a' ha'
    exact hwf
  · intro t a c ht
    rw [heq] at ht
    cases ht
  · have hmoves := hs.2.1.trans hkept
    rw [heq]
    exact ⟨hmoves.kept, hmoves.doomed⟩
  · rw [heq]
    rfl
  · rw [heq]
    exact fun _ => rfl
  · rw [heq]
    exact hs.2.2

/-! ## The suspended call -/

def Waits (s : Client) (c : Connect) : Prop :=
  (∃ a, s.transports[c.transport]? = some a ∧ a.host = c.host ∧ a.port = c.port) ∧
    match c.awaits with
    | .opening => s.transport = some c.transport
    | .hello i => s.Doomed i ∨ s.transport = some c.transport ∧
        ∃ p, s.promises[i]? = some p ∧ p.command = cmdHello ∧ p.transport = some c.transport
    | .caps greeting i => s.transport = some c.transport ∧
        Greeted s.promises c.transport greeting ∧ (s.Doomed i ∨ ∃ p, s.promises[i]? = some p ∧
          p.command = cmdGetExtendedCaps ∧ p.transport = some c.transport)
    | .greeted hello => s.transport = some c.transport ∧ Heard s.promises c.transport hello
    | .failed _ => True

def Same (s s' : Client) : Prop :=
  (∀ (t : Nat) (a : AutoTransport), s.transports[t]? = some a →
    ∃ a', s'.transports[t]? = some a' ∧ a'.host = a.host ∧ a'.port = a.port) ∧
  ∀ (t : Nat) (a' : AutoTransport), s'.transports[t]? = some a' → a'.outcome = .pending →
    ∃ a, s.transports[t]? = some a ∧ a.outcome = .pending

theorem Same.of_eq {s' : Client} (h : s'.transports = s.transports) : s.Same s' := by
  rw [Same, h]
  exact ⟨fun t a ha => ⟨a, ha, rfl, rfl⟩, fun t a ha hp => ⟨a, ha, hp⟩⟩

theorem Same.modify (t : Nat) {f : AutoTransport → AutoTransport}
    (hf : ∀ a, (f a).host = a.host ∧ (f a).port = a.port ∧
      ((f a).outcome = .pending → a.outcome = .pending)) :
    s.Same { s with transports := s.transports.modify t f } := by
  refine ⟨fun t' a ha => ⟨_, getElem?_modify_of_some f ha, ?_⟩, fun t' a' ha' hpending => ?_⟩
  · split
    next => exact ⟨(hf a).1, (hf a).2.1⟩
    next => exact ⟨rfl, rfl⟩
  · obtain ⟨a, ha, rfl⟩ := getElem?_modify_some ha'
    refine ⟨a, ha, ?_⟩
    split at hpending
    next => exact (hf a).2.2 hpending
    next => exact hpending

theorem Kept.requested {ps ps' : List Promise} (h : Kept ps ps') {i t command : Nat}
    (hp : ∃ p, ps[i]? = some p ∧ p.command = command ∧ p.transport = some t) :
    ∃ p, ps'[i]? = some p ∧ p.command = command ∧ p.transport = some t := by
  obtain ⟨p, hp, hcommand, ht⟩ := hp
  obtain ⟨p', hp', hcommand', -, ht', -⟩ := h i p hp
  exact ⟨p', hp', hcommand'.trans hcommand, ht'.trans ht⟩

theorem Waits.mono {s' : Client} {c : Connect} (h : s.Waits c) (hm : s.Moves s')
    (ht : s'.transport = s.transport) (hs : s.Same s') : s'.Waits c := by
  obtain ⟨⟨a, ha, hhost, hport⟩, hwaits⟩ := h
  obtain ⟨a', ha', hhost', hport'⟩ := hs.1 _ a ha
  refine ⟨⟨a', ha', hhost'.trans hhost, hport'.trans hport⟩, ?_⟩
  rw [ht]
  split at hwaits
  next => exact hwaits
  next i _ => exact hwaits.imp (hm.doomed i) fun hp => ⟨hp.1, Kept.requested hm.kept hp.2⟩
  next greeting i _ =>
    exact ⟨hwaits.1, hm.kept.greeted hwaits.2.1,
      hwaits.2.2.imp (hm.doomed i) (Kept.requested hm.kept)⟩
  next => exact ⟨hwaits.1, hm.kept.heard hwaits.2⟩
  next => trivial

/-! ## The invariant -/

structure Inv (s : Client) : Prop where
  linked : s.Linked
  opening : ∀ (t : Nat) (a : AutoTransport), s.transports[t]? = some a → a.outcome = .pending →
    ∃ c ∈ s.connects, c.transport = t ∧ c.awaits = .opening
  waiting : s.connects = [] ∨
    ∃ c, s.connects = [c] ∧ s.Waits c ∧ s.state.isOnline = false
  online : ∀ host port hello, s.state = .online host port hello →
    ∃ t a, s.transport = some t ∧ s.transports[t]? = some a ∧ a.host = host ∧ a.port = port ∧
      Heard s.promises t hello

namespace Inv

theorem consistent (h : s.Inv) : s.Consistent where
  sound := h.linked.sound
  online host port hello hs := by
    obtain ⟨t, a, ht, ha, hhost, hport, hheard⟩ := h.online host port hello hs
    refine ⟨t, a, ht, ha, hhost, hport, hheard, h.linked.latest t ht,
      fun hdirect c => h.linked.handled t a c ht ha hdirect, fun t' a' hne ha' => ?_⟩
    refine (h.linked.shut t' a' ha' fun heq => ?_).1
    rw [ht] at heq
    exact hne (some_inj.mp heq).symm

theorem of_moves {s' : Client} (h : s.Inv) (hl : s'.Linked) (hm : s.Moves s')
    (ht : s'.transport = s.transport) (hs : s.Same s') (hc : s'.connects = s.connects)
    (hstate : s'.state = s.state ∨ s'.state.isOnline = false) : s'.Inv := by
  refine ⟨hl, fun t a' ha' hpending => ?_, ?_, fun host port hello honline => ?_⟩
  · obtain ⟨a, ha, hpending'⟩ := hs.2 t a' ha' hpending
    rw [hc]
    exact h.opening t a ha hpending'
  · rw [hc]
    refine h.waiting.imp_right ?_
    rintro ⟨c, hconnects, hwaits, hoffline⟩
    refine ⟨c, hconnects, hwaits.mono hm ht hs, ?_⟩
    rcases hstate with heq | hoff
    · rw [heq]
      exact hoffline
    · exact hoff
  · rcases hstate with heq | hoff
    · obtain ⟨t, a, ht', ha, hhost, hport, hheard⟩ := h.online host port hello (heq ▸ honline)
      obtain ⟨a', ha', hhost', hport'⟩ := hs.1 t a ha
      exact ⟨t, a', ht.trans ht', ha', hhost'.trans hhost, hport'.trans hport,
        hm.kept.heard hheard⟩
    · rw [honline] at hoff
      cases hoff

theorem send (h : s.Inv) (command : Nat) (thrown : Option String) :
    (s.send command thrown).Inv := by
  obtain ⟨hl, hm, ht, hts, hc, hstate, -⟩ := h.linked.send command thrown
  exact h.of_moves hl hm ht (.of_eq hts) hc (.inl hstate)

theorem timeout (h : s.Inv) (i : Nat) : (s.timeout i).Inv := by
  obtain ⟨hl, hm⟩ := h.linked.timeout i
  have hcore : (s.timeout i).transport = s.transport ∧ (s.timeout i).transports = s.transports ∧
      (s.timeout i).connects = s.connects ∧ (s.timeout i).state = s.state := by
    rw [Client.timeout]
    split
    next => exact ⟨rfl, rfl, rfl, rfl⟩
    next => split <;> exact ⟨rfl, rfl, rfl, rfl⟩
  exact h.of_moves hl hm hcore.1 (.of_eq hcore.2.1) hcore.2.2.1 (.inl hcore.2.2.2)

theorem of_host (h : s.Inv) {handle : Option Nat} (calls : List HostCall)
    (hhandle : handle = none ∨ handle = s.handle) :
    Inv { s with handle := handle, calls := calls } := by
  have hl : Linked { s with handle := handle, calls := calls } := by
    refine ⟨h.linked.live, h.linked.sound, h.linked.framer, h.linked.latest, h.linked.shut,
      h.linked.wired, h.linked.wf, fun t a c ht ha hdirect hc => ?_⟩
    rcases hhandle with rfl | rfl
    · cases hc
    · exact h.linked.handled t a c ht ha hdirect hc
  exact h.of_moves hl ⟨.refl _, fun _ hi => hi⟩ rfl (.of_eq rfl) rfl (.inl rfl)

theorem modify (h : s.Inv) {t : Nat} {f : AutoTransport → AutoTransport}
    (hf : ∀ a, (f a).host = a.host ∧ (f a).port = a.port ∧
      ((f a).outcome = .pending → a.outcome = .pending))
    (hl : Linked { s with transports := s.transports.modify t f }) :
    Inv { s with transports := s.transports.modify t f } :=
  h.of_moves hl ⟨.refl _, fun _ hi => hi⟩ rfl (.modify t hf) rfl (.inl rfl)

theorem modify_candidate (h : s.Inv) (t : Nat) (r : Except String Unit)
    (hhandle : s.transport = some t → ∀ a, s.transports[t]? = some a →
      (a.candidate r).direct = true → ∀ c, s.handle = some c → c = t) :
    Inv { s with transports := s.transports.modify t (·.candidate r) } := by
  refine h.modify (fun a => ?_) (h.linked.modify fun a ha => ?_)
  · refine ⟨a.candidate_host r, a.candidate_port r, fun hpending => ?_⟩
    by_contra hne
    rw [candidate_of_shut hne] at hpending
    exact hne hpending
  · obtain ⟨hwf, hpipe⟩ := (h.linked.wf t a ha).candidate r
    refine ⟨hwf, fun hdone => ?_, fun hne => ?_, fun ht => hhandle ht a ha, fun p hp => ?_⟩
    · rw [candidate_of_shut (by rw [hdone]; exact nofun)]
      exact hdone
    · have hshut := h.linked.shut t a ha hne
      rw [candidate_of_shut hshut.2]
      exact hshut
    · rcases hpipe p hp with hold | ⟨hdata, hclose⟩
      · exact h.linked.wired t a p ha hold
      · rw [hdata, hclose]
        exact ⟨nofun, nofun⟩

theorem tcpOpen (h : s.Inv) (t : Nat) : (s.tcpOpen t).Inv := by
  rw [Client.tcpOpen]
  split
  next hany =>
    split
    next =>
      refine h.modify (fun a => ⟨rfl, rfl, id⟩) (h.linked.modify fun a ha => ?_)
      have hwf := h.linked.wf t a ha
      exact ⟨⟨hwf.fresh, hwf.inner⟩, id, h.linked.shut t a ha,
        fun ht hdirect c => h.linked.handled t a c ht ha hdirect, fun p => h.linked.wired t a p ha⟩
    next =>
      refine h.modify_candidate t _ fun ht a ha hdirect c => ?_
      rw [direct_candidate_error] at hdirect
      exact h.linked.handled t a c ht ha hdirect
  next => exact h

theorem candidate (h : s.Inv) (t : Nat) (r : Except String Unit) : (s.candidate t r).Inv := by
  rw [Client.candidate]
  split
  next => exact h
  next a ha =>
    split_ifs with hdial hasks
    · exact h
    · -- the transport that asks the host is the one in use
      rw [Bool.and_eq_true] at hasks
      have ht : s.transport = some t := by
        by_contra hne
        exact (h.linked.shut t a ha hne).2 (pending_of_asksHost hasks.1)
      have hl : Linked { s with handle := some t } := by
        refine ⟨h.linked.live, h.linked.sound, h.linked.framer, h.linked.latest, h.linked.shut,
          h.linked.wired, h.linked.wf, fun t' b c ht' _ _ hc => ?_⟩
        cases hc
        exact some.inj (ht.symm.trans ht')
      have hinv : Inv { s with handle := some t } :=
        h.of_moves hl ⟨.refl _, fun _ hi => hi⟩ rfl (.of_eq rfl) rfl (.inl rfl)
      exact hinv.modify_candidate t r fun _ _ _ _ c hc => (some.inj hc).symm
    · refine h.modify_candidate t r fun ht b hb hdirect c => ?_
      rw [ha] at hb
      cases hb
      refine h.linked.handled t a c ht ha ((direct_of_candidate hdirect).resolve_right
        fun hnew => hasks ?_)
      rw [hnew.1, hnew.2]
      rfl

theorem onTransportClose (h : s.Inv) (reason : String) : (s.onTransportClose reason).Inv := by
  obtain ⟨hl, hm⟩ := h.linked.onTransportClose reason
  refine h.of_moves hl hm rfl (.of_eq rfl) rfl ?_
  by_cases hidle : s.state = .idle
  · exact .inl ((if_pos hidle).trans hidle.symm)
  · right
    rw [Client.onTransportClose, Client.setClosed]
    split <;> rfl

theorem closeEvent (h : s.Inv) (reason : String) : (s.closeEvent reason).Inv := by
  rw [Client.closeEvent]
  induction s.closeListeners generalizing s with
  | nil => exact h
  | cons t ts ih => exact ih (h.onTransportClose _)

theorem hangUp (h : s.Inv) (t : Nat) :
    Inv { s with transports := s.transports.modify t AutoTransport.hangUp } := by
  refine h.modify (fun a => ⟨rfl, rfl, id⟩) (h.linked.modify fun a ha => ?_)
  refine ⟨(h.linked.wf t a ha).hangUp, id, fun hne => ?_, fun ht hdirect c => ?_, fun p hp => ?_⟩
  · obtain ⟨hquiet, hpending⟩ := h.linked.shut t a ha hne
    refine ⟨fun p hp => ?_, hpending⟩
    obtain ⟨q, hq, rfl⟩ := map_eq_some_iff.mp hp
    obtain ⟨hopened, hdata, hclose⟩ := hquiet q hq
    exact ⟨by rw [hopened]; rfl, hdata, hclose⟩
  · rw [direct_hangUp] at hdirect
    exact h.linked.handled t a c ht ha hdirect
  · obtain ⟨q, hq, rfl⟩ := map_eq_some_iff.mp hp
    exact h.linked.wired t a q ha hq

theorem closeSocket (h : s.Inv) (t : Nat) (reason : String) : (s.closeSocket t reason).Inv := by
  rw [Client.closeSocket]
  split
  next => exact (h.hangUp t).onTransportClose reason
  next => exact h.hangUp t

theorem call (h : s.Inv) (i : Nat) : (s.call i).Inv := by
  rw [Client.call]
  split
  next => exact h
  next => exact h.of_host _ (.inr rfl)
  next =>
    split
    next => exact (h.of_host (s.calls.eraseIdx i) (.inr rfl)).onTransportClose _
    next => exact h.of_host _ (.inr rfl)
  next => exact h.of_host _ (.inl rfl)

theorem through_of_data (h : s.Inv) {t : Nat} {a : AutoTransport} {p : Pipe}
    (ha : s.transports[t]? = some a) (hp : a.pipe = some p) (hdata : p.data = true) :
    s.Through t := by
  have ht : s.transport = some t := by
    by_contra hne
    rw [((h.linked.shut t a ha hne).1 p hp).2.1] at hdata
    cases hdata
  refine ⟨ht, a, ha, ?_⟩
  by_contra hne
  rw [((h.linked.wf t a ha).fresh hne).1] at hp
  cases hp

theorem onData (h : s.Inv) (ts : List Nat) {chunk : List Octet}
    (hchunk : ts ≠ [] → ∀ o ∈ chunk, s.Through o.via) :
    (ts.foldl (fun s _ => s.onData chunk) s).Inv := by
  induction ts generalizing s with
  | nil => exact h
  | cons t ts ih =>
    have hthrough := hchunk (cons_ne_nil t ts)
    obtain ⟨hl, hm, ht, hts, hc, hstate⟩ := h.linked.onData hthrough
    refine ih (h.of_moves hl hm ht (.of_eq hts) hc (.inl hstate)) fun _ o ho => ?_
    rw [Through, ht, hts]
    exact hthrough o ho

theorem data (h : s.Inv) (t : Nat) (chunk : List UInt8) (ho : s.Orderly (.data t chunk)) :
    (s.receive t chunk).Inv := by
  have hvia : ∀ o ∈ chunk.map (fun b => (⟨b, t⟩ : Octet)), o.via = t := by
    intro o ho
    obtain ⟨b, -, rfl⟩ := mem_map.mp ho
    rfl
  rw [receive]
  split
  next hdirect =>
    refine h.onData _ fun hne o ho' => ?_
    obtain ⟨t', hmem⟩ := exists_mem_of_ne_nil _ hne
    obtain rfl := ho hdirect t' hmem
    obtain ⟨a, ha, hears⟩ := (any_eq_true _ _).mp (mem_filter.mp hmem).2
    obtain ⟨p, hp, hheard⟩ := (any_eq_true _ _).mp hears
    rw [hvia o ho']
    exact h.through_of_data ha hp (Bool.and_eq_true _ _ ▸ hheard).2
  next =>
    split
    next hany =>
      obtain ⟨p, hp, hdata⟩ := (any_eq_true _ _).mp hany
      obtain ⟨a, ha, hpipe⟩ := bind_eq_some_iff.mp hp
      refine h.onData [t] fun _ o ho' => ?_
      rw [hvia o ho']
      exact h.through_of_data ha hpipe hdata
    next => exact h

/-! ## Calls -/

theorem unresolved_rejectAll {i : Nat} {p : Promise} (hp : s.promises[i]? = some p)
    (h : ∀ f body, .resolved f body ∉ p.calls) (message : String) :
    ∃ p', (s.rejectAll message).promises[i]? = some p' ∧
      ∀ f body, .resolved f body ∉ p'.calls := by
  have hat : (s.rejectAll message).promises[i]? = s.promises[i]?.map fun p =>
      if s.pending p.requestId = some i then p.settle (.rejected message) else p :=
    getElem?_mapIdx
  rw [hat, hp]
  refine ⟨_, rfl, fun f body hmem => ?_⟩
  dsimp only at hmem
  split at hmem
  next =>
    rcases mem_append.mp hmem with hold | hnew
    · exact h f body hold
    · cases mem_singleton.mp hnew
  next => exact h f body hmem

theorem unresolved_disconnect {i : Nat} {p : Promise} (hp : s.promises[i]? = some p)
    (h : ∀ f body, .resolved f body ∉ p.calls) (reason : String) :
    ∃ p', (s.disconnect reason).promises[i]? = some p' ∧
      ∀ f body, .resolved f body ∉ p'.calls := by
  obtain ⟨s', n, calls, hs', heq⟩ := s.disconnect_eq reason
  rw [heq]
  rcases hs' with rfl | rfl
  · exact unresolved_rejectAll hp h _
  · obtain ⟨q, hq, hcalls⟩ := unresolved_rejectAll hp h ("transport closed: " ++ reason)
    exact unresolved_rejectAll (s := s.onTransportClose reason) hq hcalls _

theorem disconnect (h : s.Inv) (reason : String) (hun : ∀ c ∈ s.connects, s.Unanswered c) :
    (s.disconnect reason).Inv := by
  have hopened : ∀ (t : Nat) (a : AutoTransport), s.transports[t]? = some a →
      a.outcome ≠ .pending := by
    intro t a ha hpending
    obtain ⟨c, hc, -, hawaits⟩ := h.opening t a ha hpending
    have := hun c hc
    rw [Unanswered, hawaits] at this
    exact this
  obtain ⟨hl, hm, ht, hpending, hc, hoff⟩ := h.linked.disconnect reason hopened
  refine ⟨hl, fun t a' ha' hopening => ?_, ?_, fun host port hello honline => ?_⟩
  · obtain ⟨a, ha, houtcome, -⟩ := h.linked.transports_disconnect reason ha'
    exact absurd (houtcome ▸ hopening) (hopened t a ha)
  · rw [hc]
    refine h.waiting.imp_right ?_
    rintro ⟨c, hconnects, ⟨⟨a, ha, hhost, hport⟩, hwaits⟩, -⟩
    have hcun := hun c (by rw [hconnects]; exact mem_singleton_self c)
    refine ⟨c, hconnects, ⟨⟨s.released c.transport a, ?_, ?_, ?_⟩, ?_⟩, hoff⟩
    · rw [getElem?_disconnect, ha]
      rfl
    · exact (s.released_same _ a).1.trans hhost
    · exact (s.released_same _ a).2.1.trans hport
    · rw [Unanswered] at hcun
      split at hcun
      next i hawaits =>
        rw [hawaits] at hwaits ⊢
        rcases hwaits with hdoomed | ⟨-, p, hp, -⟩
        · exact .inl (hm.doomed i hdoomed)
        · have hcalls : ∀ f body, .resolved f body ∉ p.calls := by
            intro f body hmem
            refine hcun f body ?_
            rw [hp, bind_some, Promise.result]
            rcases (h.linked.sound p (mem_of_getElem? hp)).once with ⟨hnil, -⟩ | ⟨x, hx, -⟩
            · rw [hnil] at hmem
              cases hmem
            · rw [hx, mem_singleton] at hmem
              rw [hx, ← hmem]
              rfl
          obtain ⟨p', hp', hcalls'⟩ := unresolved_disconnect hp hcalls reason
          exact .inl ⟨⟨p', hp', hcalls'⟩, fun id hid => by rw [hpending] at hid; cases hid⟩
      next message hawaits =>
        rw [hawaits]
        trivial
      next => exact hcun.elim
  · rw [honline] at hoff
    cases hoff

theorem connect (h : s.Inv) (host : String) (port : Nat) (hnone : s.connects = []) :
    (s.connect host port).Inv := by
  have hopened : ∀ (t : Nat) (a : AutoTransport), s.transports[t]? = some a →
      a.outcome ≠ .pending := by
    intro t a ha hpending
    obtain ⟨c, hc, -⟩ := h.opening t a ha hpending
    rw [hnone] at hc
    cases hc
  obtain ⟨hl, hm, ht, hpending, hc, hoff⟩ := h.linked.disconnect "reconnecting" hopened
  rw [Client.connect]
  generalize s.disconnect "reconnecting" = s' at *
  rw [hnone] at hc
  have hold : ∀ (t : Nat) (a : AutoTransport),
      (s'.transports ++ [.fresh s'.tauri host port])[t]? = some a →
        s'.transports[t]? = some a ∨
          t = s'.transports.length ∧ a = .fresh s'.tauri host port := by
    intro t a ha
    by_cases hlt : t < s'.transports.length
    · rw [List.getElem?_append_left hlt] at ha
      exact .inl ha
    · rw [getElem?_append_right (Nat.not_lt.mp hlt)] at ha
      obtain ⟨hlt', hget⟩ := List.getElem?_eq_some_iff.mp ha
      rw [length_singleton] at hlt'
      rw [getElem_singleton] at hget
      exact .inr ⟨by omega, hget.symm⟩
  have hquiet : ∀ (t : Nat) (a : AutoTransport), s'.transports[t]? = some a → a.Shut :=
    fun t a ha => hl.shut t a ha (by rw [ht]; exact nofun)
  have hlast : (s'.transports ++ [.fresh s'.tauri host port])[s'.transports.length]? =
      some (.fresh s'.tauri host port) := getElem?_concat_length
  refine ⟨⟨fun id i hi => ?_, hl.sound, fun o ho => ?_, fun t heq => ?_, fun t a ha hne => ?_,
    fun t a p ha hp => ?_, fun t a ha => ?_, fun t a c ht' ha hdirect _ => ?_⟩,
    fun t a ha hopening => ?_,
    .inr ⟨_, congrArg (· ++ _) hc, ⟨⟨_, hlast, rfl, rfl⟩, rfl⟩, rfl⟩, nofun⟩
  · exact absurd ((hpending id).symm.trans hi) nofun
  · exact absurd (ht.symm.trans (hl.framer o ho).1) nofun
  · cases heq
    rw [length_append, length_singleton]
  · rcases hold t a ha with ha | ⟨rfl, -⟩
    · exact hquiet t a ha
    · exact absurd rfl hne
  · rcases hold t a ha with ha | ⟨-, rfl⟩
    · obtain ⟨-, hdata, hclose⟩ := (hquiet t a ha).1 p hp
      rw [hdata, hclose]
      exact ⟨nofun, nofun⟩
    · cases hp
  · rcases hold t a ha with ha | ⟨-, rfl⟩
    · exact hl.wf t a ha
    · exact ⟨fun _ => ⟨rfl, rfl, rfl⟩, nofun⟩
  · obtain rfl := some.inj ht'
    obtain rfl := some.inj (hlast.symm.trans ha)
    cases hdirect
  · rcases hold t a ha with ha | ⟨rfl, -⟩
    · exact absurd hopening (hquiet t a ha).2
    · exact ⟨_, mem_append_right _ (mem_singleton_self _), rfl, rfl⟩

theorem setAwait {c : Connect} {w : Await} (hl : s.Linked) (hc : s.connects = [c])
    (hopened : ∀ (t : Nat) (a : AutoTransport), s.transports[t]? = some a → a.outcome ≠ .pending)
    (hw : s.Waits { c with awaits := w }) (hoff : s.state.isOnline = false) :
    (s.setAwait 0 w).Inv := by
  have hc' : (s.setAwait 0 w).connects = [{ c with awaits := w }] := by
    rw [Client.setAwait, hc]
    rfl
  refine ⟨⟨hl.live, hl.sound, hl.framer, hl.latest, hl.shut, hl.wired, hl.wf, hl.handled⟩,
    fun t a ha hopening => absurd hopening (hopened t a ha), .inr ⟨_, hc', hw, hoff⟩,
    fun host port hello honline => ?_⟩
  rw [show s.state = .online host port hello from honline] at hoff
  cases hoff

theorem finish {c : Connect} (hl : s.Linked) (hc : s.connects = [c])
    (hopened : ∀ (t : Nat) (a : AutoTransport), s.transports[t]? = some a → a.outcome ≠ .pending)
    (honline : ∀ host port hello, s.state = .online host port hello →
      ∃ t a, s.transport = some t ∧ s.transports[t]? = some a ∧ a.host = host ∧ a.port = port ∧
        Heard s.promises t hello) : (s.finish 0).Inv := by
  have hc' : (s.finish 0).connects = [] := by
    rw [Client.finish, hc]
    rfl
  exact ⟨⟨hl.live, hl.sound, hl.framer, hl.latest, hl.shut, hl.wired, hl.wf, hl.handled⟩,
    fun t a ha hopening => absurd hopening (hopened t a ha), .inl hc', honline⟩

theorem opened (h : s.Inv) {c : Connect} (hc : s.connects = [c]) {a : AutoTransport}
    (ha : s.transports[c.transport]? = some a) (hne : a.outcome ≠ .pending) (t : Nat)
    (b : AutoTransport) (hb : s.transports[t]? = some b) : b.outcome ≠ .pending := by
  intro hpending
  obtain ⟨c', hmem, rfl, -⟩ := h.opening t b hb hpending
  rw [hc, mem_singleton] at hmem
  subst hmem
  rw [ha] at hb
  cases hb
  exact hne hpending

theorem handshake (h : s.Inv) {c : Connect} (hc : s.connects = [c]) (hwaits : s.Waits c)
    (hawaits : c.awaits = .opening) {a : AutoTransport}
    (ha : s.transports[c.transport]? = some a) (hdone : a.outcome = .done)
    (thrown : Option String) : (s.handshake 0 c thrown).Inv := by
  obtain ⟨⟨a', ha', hhost, hport⟩, ht⟩ := hwaits
  rw [ha] at ha'
  cases ha'
  rw [hawaits] at ht
  have hlinked : Linked { s with
      unsubData := some c.transport
      unsubClose := some c.transport
      state := .handshaking c.host c.port } := by
    refine ⟨h.linked.live, h.linked.sound, h.linked.framer, h.linked.latest, h.linked.shut,
      fun t b p hb hp => ?_, h.linked.wf, h.linked.handled⟩
    by_cases heq : t = c.transport
    · rw [heq]
      exact ⟨fun _ => rfl, fun _ => rfl⟩
    · have hne : s.transport ≠ some t := fun hst =>
        heq (some_inj.mp (hst.symm.trans ht))
      obtain ⟨-, hdata, hclose⟩ := (h.linked.shut t b hb hne).1 p hp
      rw [hdata, hclose]
      exact ⟨nofun, nofun⟩
  have hsub := hlinked.modify (t := c.transport) (f := AutoTransport.subscribe) fun b hb => ?_
  · obtain ⟨hl, hm, ht', hts', hc', hstate', hlast⟩ := hsub.send cmdHello thrown
    rw [Client.handshake]
    refine setAwait hl (hc'.trans hc) (fun t b hb => ?_) ⟨⟨a.subscribe, ?_, hhost, hport⟩, ?_⟩ ?_
    · rw [hts'] at hb
      obtain ⟨b', hb', rfl⟩ := getElem?_modify_some hb
      have hopened : b'.outcome ≠ .pending :=
        h.opened hc ha (by rw [hdone]; exact nofun) t b' hb'
      split <;> exact hopened
    · rw [hts', getElem?_modify_of_some _ ha, if_pos rfl]
    · refine hlast.imp_right ?_
      rintro ⟨p, hp, hcommand, hpt⟩
      exact ⟨ht'.trans ht, p, hp, hcommand, hpt.trans ht⟩
    · rw [hstate']
      rfl
  · rw [show s.transports[c.transport]? = some b from hb] at ha
    cases ha
    refine ⟨(h.linked.wf _ _ hb).subscribe hdone, id, fun hne => absurd ht hne,
      fun hst hdirect d hd => ?_, fun p _ => ⟨fun _ => rfl, fun _ => rfl⟩⟩
    exact h.linked.handled _ _ d hst hb (direct_subscribe ▸ hdirect) hd

theorem openFailed (h : s.Inv) {c : Connect} (hc : s.connects = [c]) (hwaits : s.Waits c)
    (hawaits : c.awaits = .opening) {a : AutoTransport}
    (ha : s.transports[c.transport]? = some a) {message : String}
    (hfailed : a.outcome = .failed message) :
    ({ s with transport := none, state := .error message }.finish 0).Inv := by
  obtain ⟨-, ht⟩ := hwaits
  rw [hawaits] at ht
  have hnot : ∀ t, ¬s.Through t := by
    rintro t ⟨ht', b, hb, hdone⟩
    cases some_inj.mp (ht'.symm.trans ht)
    rw [ha] at hb
    cases hb
    rw [hfailed] at hdone
    cases hdone
  refine finish (c := c) ⟨fun id i hi => ?_, h.linked.sound, fun o ho => ?_, nofun,
    fun t b hb _ => ?_, h.linked.wired, h.linked.wf, fun t b d hst => ?_⟩ hc
    (fun t b hb hpending => ?_) nofun
  · obtain ⟨p, t, -, -, -, -, hthrough⟩ := h.linked.live id i hi
    exact absurd hthrough (hnot t)
  · exact absurd (h.linked.framer o ho) (hnot _)
  · by_cases heq : t = c.transport
    · subst heq
      rw [show s.transports[c.transport]? = some b from hb] at ha
      cases ha
      have hne : a.outcome ≠ .done := by rw [hfailed]; exact nofun
      refine ⟨fun p hp => ?_, by rw [hfailed]; exact nofun⟩
      rw [((h.linked.wf _ _ hb).fresh hne).1] at hp
      cases hp
    · exact h.linked.shut t b hb fun hst => heq (some_inj.mp (hst.symm.trans ht))
  · cases hst
  · exact h.opened hc ha (by rw [hfailed]; exact nofun) t b hb hpending

theorem not_pending (h : s.Inv) {c : Connect} (hc : s.connects = [c])
    (hne : c.awaits ≠ .opening) (t : Nat) (a : AutoTransport) (ha : s.transports[t]? = some a) :
    a.outcome ≠ .pending := by
  intro hopening
  obtain ⟨c', hmem, -, hawaits⟩ := h.opening t a ha hopening
  rw [hc, mem_singleton] at hmem
  exact hne (hmem ▸ hawaits)

theorem giveUp (h : s.Inv) {c : Connect} (hc : s.connects = [c]) (hwaits : s.Waits c)
    (hoff : s.state.isOnline = false) (hne : c.awaits ≠ .opening) (message : String) :
    (s.setAwait 0 (.failed message)).Inv :=
  setAwait h.linked hc (h.not_pending hc hne) ⟨hwaits.1, trivial⟩ hoff

theorem answered (h : s.Inv) {c : Connect} (hc : s.connects = [c]) (hwaits : s.Waits c)
    (hoff : s.state.isOnline = false) {i : Nat} (hawaits : c.awaits = .hello i) {f : Frame}
    {body : List UInt8} (hresult : s.promises[i]?.bind Promise.result = some (.resolved f body))
    (hstatus : f.header.status = 0) {greeting : HelloInfo}
    (hdecode : decodeHello body = .ok greeting) (thrown : Option String) :
    ((s.send cmdGetExtendedCaps thrown).setAwait 0
      (.caps greeting s.promises.length)).Inv := by
  have hne : c.awaits ≠ .opening := by
    rw [hawaits]
    exact nofun
  obtain ⟨p, hp, hres⟩ := bind_eq_some_iff.mp hresult
  have hcalls := (h.linked.sound p (mem_of_getElem? hp)).calls_of_result hres
  obtain ⟨⟨a, ha, hhost, hport⟩, hwaits⟩ := hwaits
  rw [hawaits] at hwaits
  obtain ⟨hl, hm, ht', hts', hc', hstate', hlast⟩ := h.linked.send cmdGetExtendedCaps thrown
  rcases hwaits with ⟨⟨q, hq, hunresolved⟩, -⟩ | ⟨ht, q, hq, hcommand, hqt⟩
  · rw [hp] at hq
    cases hq
    exact absurd (hcalls ▸ mem_singleton_self _) (hunresolved f body)
  · rw [hp] at hq
    cases hq
    have hgreeted : Greeted s.promises c.transport greeting :=
      ⟨p, mem_of_getElem? hp, hcommand, hqt, f, body, hcalls, hstatus, hdecode⟩
    refine setAwait hl (hc'.trans hc) (fun t b hb => ?_) ⟨⟨a, ?_, hhost, hport⟩, ht'.trans ht,
      hm.kept.greeted hgreeted, hlast.imp_right ?_⟩ (hstate' ▸ hoff)
    · rw [hts'] at hb
      exact h.not_pending hc hne t b hb
    · rw [hts']
      exact ha
    · rintro ⟨r, hr, hcommand', hrt⟩
      exact ⟨r, hr, hcommand', hrt.trans ht⟩

theorem extended (h : s.Inv) {c : Connect} (hc : s.connects = [c]) (hwaits : s.Waits c)
    (hoff : s.state.isOnline = false) {greeting : HelloInfo} {i : Nat}
    (hawaits : c.awaits = .caps greeting i) {hello : HelloInfo}
    (hhello : hello = greeting ∨ ∃ f body,
      s.promises[i]?.bind Promise.result = some (.resolved f body) ∧
        hello = greeting.extend f.header.status body) :
    (s.setAwait 0 (.greeted hello)).Inv := by
  have hne : c.awaits ≠ .opening := by
    rw [hawaits]
    exact nofun
  obtain ⟨hhost, hwaits⟩ := hwaits
  rw [hawaits] at hwaits
  obtain ⟨ht, hgreeted, hrequest⟩ := hwaits
  refine setAwait h.linked hc (h.not_pending hc hne) ⟨hhost, ht, greeting, hgreeted, ?_⟩ hoff
  refine hhello.imp_right ?_
  rintro ⟨f, body, hresult, rfl⟩
  obtain ⟨p, hp, hres⟩ := bind_eq_some_iff.mp hresult
  have hcalls := (h.linked.sound p (mem_of_getElem? hp)).calls_of_result hres
  rcases hrequest with ⟨⟨q, hq, hunresolved⟩, -⟩ | ⟨q, hq, hcommand, hqt⟩
  · rw [hp] at hq
    cases hq
    exact absurd (hcalls ▸ mem_singleton_self _) (hunresolved f body)
  · rw [hp] at hq
    cases hq
    exact ⟨p, mem_of_getElem? hp, hcommand, hqt, f, body, hcalls, rfl⟩

theorem resume (h : s.Inv) (k : Nat) (thrown : Option String) : (s.resume k thrown).Inv := by
  rw [Client.resume]
  cases hk : s.connects[k]? with
  | none => exact h
  | some c =>
    rcases h.waiting with hnone | ⟨c', hc, hwaits, hoff⟩
    · rw [hnone] at hk
      cases hk
    rw [hc] at hk
    obtain ⟨hlt, hget⟩ := List.getElem?_eq_some_iff.mp hk
    obtain rfl : k = 0 := Nat.lt_one_iff.mp hlt
    obtain rfl : c' = c := hget
    dsimp only
    cases hawaits : c'.awaits with
    | opening =>
      dsimp only
      split
      next hdone =>
        obtain ⟨a, ha, hdone⟩ := map_eq_some_iff.mp hdone
        exact h.handshake hc hwaits hawaits ha hdone thrown
      next message hfailed =>
        obtain ⟨a, ha, hfailed⟩ := map_eq_some_iff.mp hfailed
        exact h.openFailed hc hwaits hawaits ha hfailed
      next => exact h
    | hello i =>
      have hne : c'.awaits ≠ .opening := by
        rw [hawaits]
        exact nofun
      dsimp only
      split
      next => exact h
      next => exact h.giveUp hc hwaits hoff hne _
      next f body hresult =>
        split
        next => exact h.giveUp hc hwaits hoff hne _
        next hstatus =>
          split
          next => exact h.giveUp hc hwaits hoff hne _
          next greeting hdecode =>
            exact h.answered hc hwaits hoff hawaits hresult (not_not.mp hstatus) hdecode thrown
    | caps greeting i =>
      dsimp only
      split
      next => exact h
      next => exact h.extended hc hwaits hoff hawaits (.inl rfl)
      next f body hresult =>
        exact h.extended hc hwaits hoff hawaits (.inr ⟨f, body, hresult, rfl⟩)
    | greeted hello =>
      have hne : c'.awaits ≠ .opening := by
        rw [hawaits]
        exact nofun
      obtain ⟨⟨a, ha, hhost, hport⟩, hwaits⟩ := hwaits
      rw [hawaits] at hwaits
      refine finish (c := c') ⟨h.linked.live, h.linked.sound, h.linked.framer, h.linked.latest,
        h.linked.shut, h.linked.wired, h.linked.wf, h.linked.handled⟩ hc (h.not_pending hc hne) ?_
      rintro host port hello ⟨⟩
      exact ⟨c'.transport, a, hwaits.1, ha, hhost, hport, hwaits.2⟩
    | failed message =>
      have hne : c'.awaits ≠ .opening := by
        rw [hawaits]
        exact nofun
      have hun : ∀ c ∈ s.connects, s.Unanswered c := by
        intro c hmem
        rw [hc, mem_singleton] at hmem
        rw [hmem, Unanswered, hawaits]
        trivial
      have hinv := h.disconnect ("handshake: " ++ message) hun
      obtain ⟨-, -, -, -, hc', -⟩ :=
        h.linked.disconnect ("handshake: " ++ message) (h.not_pending hc hne)
      exact finish hinv.linked (hc'.trans hc) (hinv.not_pending (hc'.trans hc) hne) hinv.online

theorem apply (h : s.Inv) (e : Step) (ho : s.Orderly e) : (s.apply e).Inv := by
  cases e with
  | connect host port => exact h.connect host port ho
  | disconnect reason => exact h.disconnect reason ho
  | send command thrown => exact h.send command thrown
  | timeout i => exact h.timeout i
  | tcpOpen t => exact h.tcpOpen t
  | candidate t r => exact h.candidate t r
  | resume k thrown => exact h.resume k thrown
  | call i => exact h.call i
  | data t chunk => exact h.data t chunk ho
  | hangUp t => exact h.hangUp t
  | closeSocket t reason => exact h.closeSocket t reason
  | ended t =>
    rw [Client.apply]
    split
    next => exact h.of_host s.calls (.inl rfl)
    next => exact h
  | closeEvent t reason =>
    rw [Client.apply]
    split
    next => exact h.closeEvent reason
    next => exact h

theorem init (tauri : Bool) : (Client.init tauri).Inv := by
  have hnone : ∀ (t : Nat) (a : AutoTransport), ¬(Client.init tauri).transports[t]? = some a := by
    intro t a ha
    rw [Client.init, getElem?_nil] at ha
    cases ha
  refine ⟨⟨fun id i hi => ?_, fun p hp => ?_, fun o ho => ?_, fun t ht => ?_,
    fun t a ha => absurd ha (hnone t a), fun t a p ha => absurd ha (hnone t a),
    fun t a ha => absurd ha (hnone t a), fun t a _ _ ha => absurd ha (hnone t a)⟩,
    fun t a ha => absurd ha (hnone t a), .inl rfl, fun host port hello hs => ?_⟩
  · cases hi
  · cases hp
  · cases ho
  · cases ht
  · cases hs

end Inv

/-! ## Runs -/

/-- Every state of an orderly run is consistent. -/
theorem consistent_of_orderlyRun {tauri : Bool} {steps : List Step}
    (h : OrderlyRun (init tauri) steps s) : s.Consistent := by
  refine Inv.consistent (Run.invariant (P := Inv) ?_ h (.init tauri))
  rintro s e s' hs ho ⟨⟩
  exact hs.apply e ho

def helloResponse (requestId : Nat) : List UInt8 :=
  leBytes 4 mdbgMagic ++ leBytes 2 1 ++ leBytes 2 cmdHello ++ leBytes 4 requestId ++ leBytes 4 0 ++
    leBytes 4 48 ++ List.replicate 48 0

def reconnect : List Step :=
  [.connect "A" 1, .tcpOpen 0, .candidate 0 (.ok ()), .resume 0 none, .call 0, .disconnect "user",
    .data 0 [1, 2, 3], .resume 0 none, .resume 0 none, .connect "B" 2, .call 0, .tcpOpen 1,
    .candidate 1 (.ok ()), .resume 0 none, .call 0, .data 1 (helloResponse 2), .resume 0 none,
    .timeout 2, .resume 0 none, .resume 0 none, .ended 0]

theorem consistent_of_orderlyRun_reconnect : ∃ s : Client,
    OrderlyRun (init true) reconnect s ∧ s.Consistent := by
  have hrun : OrderlyRun (init true) reconnect _ :=
    .cons rfl rfl (.cons trivial rfl (.cons trivial rfl (.cons trivial rfl (.cons trivial rfl
      (.cons (forall_mem_singleton.mpr fun _ _ h => some_ne_none _ h.symm) rfl
      (.cons (fun _ _ h => (not_mem_nil h).elim) rfl (.cons trivial rfl (.cons trivial rfl
      (.cons rfl rfl (.cons trivial rfl (.cons trivial rfl (.cons trivial rfl (.cons trivial rfl
      (.cons trivial rfl (.cons (fun _ _ h => mem_singleton.mp h) rfl (.cons trivial rfl
      (.cons trivial rfl (.cons trivial rfl (.cons trivial rfl
      (.cons trivial rfl (.nil _)))))))))))))))))))))
  exact ⟨_, hrun, consistent_of_orderlyRun hrun⟩

def overlapping : List Step :=
  [.connect "A" 1, .connect "B" 2, .candidate 1 (.ok ()), .candidate 0 (.ok ()), .resume 1 none,
    .resume 0 none, .data 1 (helloResponse 2), .resume 0 none, .timeout 2, .resume 0 none,
    .resume 0 none]

theorem consistent_fails :
    ¬∀ (tauri : Bool) (steps : List Step), Consistent (steps.foldl apply (init tauri)) := by
  intro h
  have hstate : (overlapping.foldl apply (init false)).state =
      .online "A" 1 ⟨0, 0, 0, 0, 0, [], [], 0, 0, 0, []⟩ := by decide +kernel
  have htransport : (overlapping.foldl apply (init false)).transport = some 1 := by decide +kernel
  have hhosts : (overlapping.foldl apply (init false)).transports[1]?.map host =
      some "B" := by decide +kernel
  obtain ⟨t, a, ht, ha, hhost, -⟩ := (h false overlapping).online _ _ _ hstate
  cases some_inj.mp (htransport.symm.trans ht)
  rw [ha, map_some, hhost] at hhosts
  exact absurd (some_inj.mp hhosts) (by decide)

end Client

end MemDbg.Tauri
