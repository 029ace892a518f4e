import MemDbg.Gdb.Registers

/-!
# The session of the x64dbg plugin

A session keeps a connection to a console, the process it is attached to and the thread it works
on.  What a request of the client comes to is up to the console: it is part of a run here.  The text
of the last error is left out.
-/

namespace MemDbg.X64dbg

open List Lib Function Gdb

/-! ## Requests -/

inductive Command where
  | hello
  | ping
  | debugAttach (pid : Int)
  | debugDetach
  | debugGetThreads
  | debugStep (lwp : Int)
  | debugGetRegs (lwp : Int)
  | debugSetRegs (lwp : Int) (regs : DebugRegs)
  | debugPollEvents
  | memoryRead (pid : Int) (address length : Nat)
  | memoryWrite (pid : Int) (address : Nat) (data : List UInt8)

inductive Reply (α : Type) where
  | ok (a : α)
  | failed
  | lost

def Reply.isOk {α : Type} : Reply α → Bool
  | .ok _ => true
  | _ => false

def Reply.isLost {α : Type} : Reply α → Bool
  | .lost => true
  | _ => false

def Reply.get? {α : Type} : Reply α → Option α
  | .ok a => some a
  | _ => none

inductive Event where
  | connected
  | sent (command : Command) (ok : Bool)

/-! ## Sessions -/

structure Session where
  connected : Bool
  attached : Bool
  pid : Int
  selectedLwp : Int
  log : List Event

def Session.new : Session := ⟨false, false, 0, 0, []⟩

def Session.request {α : Type} (s : Session) (command : Command) (reply : Reply α) :
    Session × Option α :=
  if s.connected then
    ({ s with connected := !reply.isLost, log := s.log ++ [.sent command reply.isOk] }, reply.get?)
  else (s, none)

def Session.selectThread (s : Session) (threads : Reply (List Int)) : Session :=
  let r := s.request .debugGetThreads threads
  match r.2 with
  | some (lwp :: _) => { r.1 with selectedLwp := lwp }
  | _ => r.1

def Session.ensureThread (s : Session) (threads : Reply (List Int)) : Session :=
  if s.selectedLwp = 0 then s.selectThread threads else s

def Session.letGo (s : Session) (detachReply : Reply Unit) : Session :=
  if s.attached then { (s.request .debugDetach detachReply).1 with attached := false } else s

def Session.forget (s : Session) (detachReply : Reply Unit) : Session :=
  if s.attached then { s.letGo detachReply with pid := 0, selectedLwp := 0 } else s

def Session.connect (s : Session) (detachReply : Reply Unit) (opened : Bool)
    (helloReply : Reply Unit) : Session × Bool :=
  let s := s.forget detachReply
  if opened then
    let s : Session := { s with connected := true, log := s.log ++ [Event.connected] }
    let r := s.request .hello helloReply
    match r.2 with
    | some _ => (r.1, true)
    | none => ({ r.1 with connected := false }, false)
  else ({ s with connected := false }, false)

def Session.disconnect (s : Session) (detachReply : Reply Unit) : Session :=
  { s.letGo detachReply with pid := 0, selectedLwp := 0, connected := false }

def Session.attach (s : Session) (pid : Int) (detachReply reply : Reply Unit)
    (threads : Reply (List Int)) : Session × Bool :=
  if s.connected then
    let s := s.letGo detachReply
    let r := s.request (.debugAttach pid) reply
    match r.2 with
    | some _ =>
      ({ r.1 with attached := true, pid := pid, selectedLwp := 0 }.selectThread threads, true)
    | none => (r.1, false)
  else (s, false)

def Session.detach (s : Session) (reply : Reply Unit) : Session × Bool :=
  if s.attached then
    let r := s.request .debugDetach reply
    match r.2 with
    | some _ => ({ r.1 with attached := false, pid := 0, selectedLwp := 0 }, true)
    | none => (r.1, false)
  else (s, true)

def Session.step (s : Session) (threads : Reply (List Int)) (reply : Reply Unit) :
    Session × Bool :=
  if s.attached then
    let s := s.ensureThread threads
    if s.selectedLwp = 0 then (s, false)
    else
      let r := s.request (.debugStep s.selectedLwp) reply
      (r.1, r.2.isSome)
  else (s, false)

def Session.memoryPid (s : Session) : Int := if s.pid ≠ 0 then s.pid else 0

def Session.readMemory (s : Session) (address length : Nat) (reply : Reply (List UInt8)) :
    Session × Option (List UInt8) :=
  if s.connected then s.request (.memoryRead s.memoryPid address length) reply else (s, none)

def memoryRequestSize : Nat := 16

def oversize (data : List UInt8) : Bool :=
  wrap32 (memoryRequestSize + data.length) > protocolMaxPacket

def Session.writeMemory (s : Session) (address : Nat) (data : List UInt8) (reply : Reply Nat) :
    Session × Bool :=
  if s.connected then
    if oversize data then (s, false)
    else
      let r := s.request (.memoryWrite s.memoryPid address data) reply
      (r.1, r.2.isSome)
  else (s, false)

def Session.getRegs (s : Session) (threads : Reply (List Int)) (reply : Reply DebugRegs) :
    Session × Option DebugRegs :=
  if s.attached then
    let s := s.ensureThread threads
    s.request (.debugGetRegs s.selectedLwp) reply
  else (s, none)

def Session.setRegs (s : Session) (regs : DebugRegs) (reply : Reply Unit) : Session × Bool :=
  if s.attached then
    if s.selectedLwp = 0 then (s, false)
    else
      let r := s.request (.debugSetRegs s.selectedLwp regs) reply
      (r.1, r.2.isSome)
  else (s, false)

def Session.pollEvents (s : Session) (reply : Reply (Bool × Int)) :
    Session × Option (Bool × Int) :=
  if s.attached then
    let r := s.request .debugPollEvents reply
    match r.2 with
    | some (stopped, stopLwp) =>
      (if stopped ∧ stopLwp ≠ 0 then { r.1 with selectedLwp := stopLwp } else r.1,
        some (stopped, stopLwp))
    | none => (r.1, none)
  else (s, none)

def ieq (a b : List Char) : Bool := a.map Char.toLower == b.map Char.toLower

def gprNames : List (String × RegField) :=
  [("rax", .rax), ("rbx", .rbx), ("rcx", .rcx), ("rdx", .rdx), ("rsi", .rsi), ("rdi", .rdi),
    ("rbp", .rbp), ("rsp", .rsp), ("r8", .r8), ("r9", .r9), ("r10", .r10), ("r11", .r11),
    ("r12", .r12), ("r13", .r13), ("r14", .r14), ("r15", .r15), ("rip", .rip),
    ("rflags", .rflags), ("eflags", .rflags)]

def applyGprName (regs : DebugRegs) (name : List Char) (value : Nat) : Option DebugRegs :=
  if name = [] then none
  else
    (gprNames.find? fun entry => ieq name entry.1.toList).map fun entry =>
      update regs entry.2 (BitVec.ofNat _ value)

def Session.setGpr (s : Session) (name : Option (List Char)) (value : Nat)
    (threads : Reply (List Int)) (got : Reply DebugRegs) (reply : Reply Unit) : Session × Bool :=
  match name with
  | none => (s, false)
  | some name =>
    if name = [] then (s, false)
    else if s.attached then
      let s := s.ensureThread threads
      let r := s.request (.debugGetRegs s.selectedLwp) got
      match r.2 with
      | none => (r.1, false)
      | some regs =>
        match applyGprName regs name value with
        | none => (r.1, false)
        | some regs =>
          let r := r.1.request (.debugSetRegs s.selectedLwp regs) reply
          (r.1, r.2.isSome)
    else (s, false)

def Session.keepalive (s : Session) (reply : Reply Unit) : Session := (s.request .ping reply).1

/-! ## Runs -/

inductive Call where
  | connect (detachReply : Reply Unit) (opened : Bool) (helloReply : Reply Unit)
  | disconnect (detachReply : Reply Unit)
  | attach (pid : Int) (detachReply reply : Reply Unit) (threads : Reply (List Int))
  | detach (reply : Reply Unit)
  | step (threads : Reply (List Int)) (reply : Reply Unit)
  | readMemory (address length : Nat) (reply : Reply (List UInt8))
  | writeMemory (address : Nat) (data : List UInt8) (reply : Reply Nat)
  | getRegs (threads : Reply (List Int)) (reply : Reply DebugRegs)
  | setRegs (regs : DebugRegs) (reply : Reply Unit)
  | pollEvents (reply : Reply (Bool × Int))
  | setGpr (name : Option (List Char)) (value : Nat) (threads : Reply (List Int))
      (got : Reply DebugRegs) (reply : Reply Unit)
  | keepalive (reply : Reply Unit)

def Session.call (s : Session) : Call → Session
  | .connect detachReply opened helloReply => (s.connect detachReply opened helloReply).1
  | .disconnect detachReply => s.disconnect detachReply
  | .attach pid detachReply reply threads => (s.attach pid detachReply reply threads).1
  | .detach reply => (s.detach reply).1
  | .step threads reply => (s.step threads reply).1
  | .readMemory address length reply => (s.readMemory address length reply).1
  | .writeMemory address data reply => (s.writeMemory address data reply).1
  | .getRegs threads reply => (s.getRegs threads reply).1
  | .setRegs regs reply => (s.setRegs regs reply).1
  | .pollEvents reply => (s.pollEvents reply).1
  | .setGpr name value threads got reply => (s.setGpr name value threads got reply).1
  | .keepalive reply => s.keepalive reply

/-! ## The process of a connection -/

def Event.after : Option Int → Event → Option Int
  | _, .connected => none
  | _, .sent (.debugAttach pid) ok => if ok then some pid else none
  | t, .sent .debugDetach ok => if ok then none else t
  | t, .sent _ _ => t

def target (log : List Event) : Option Int := log.foldl Event.after none

@[simp] theorem target_concat (log : List Event) (e : Event) :
    target (log ++ [e]) = Event.after (target log) e := by
  rw [target, foldl_append]
  rfl

def Event.Proper (thread : Int → Int → Prop) (t : Option Int) : Event → Prop
  | .sent (.memoryWrite pid _ _) _ => t = some pid
  | .sent (.debugSetRegs lwp _) _ | .sent (.debugStep lwp) _ => ∃ pid, t = some pid ∧ thread pid lwp
  | _ => True

/-- Every request was proper when it was sent. -/
def Proper (thread : Int → Int → Prop) (log : List Event) : Prop :=
  ∀ front e back, log = front ++ e :: back → e.Proper thread (target front)

def ThreadsOf (thread : Int → Int → Prop) (pid : Int) (threads : Reply (List Int)) : Prop :=
  ∀ lwps, threads = .ok lwps → ∀ lwp ∈ lwps, thread pid lwp

/-- The threads a console names are threads of the process that is attached. -/
def Session.Honest (thread : Int → Int → Prop) (s : Session) : Call → Prop
  | .attach pid _ _ threads => ThreadsOf thread pid threads
  | .step threads _ | .getRegs threads _ | .setGpr _ _ threads _ _ =>
    ∀ pid, target s.log = some pid → ThreadsOf thread pid threads
  | .pollEvents reply =>
    ∀ pid lwp, target s.log = some pid → reply = .ok (true, lwp) → lwp ≠ 0 → thread pid lwp
  | _ => True

def Session.Unselected (s : Session) (threads : Reply (List Int)) : Prop :=
  s.connected = true ∧ s.attached = true ∧ s.selectedLwp = 0 ∧
    (threads = .failed ∨ threads = .ok [])

/-- Memory is written while a process is attached, and a register is set while a thread is
selected. -/
def Session.Careful (s : Session) : Call → Prop
  | .writeMemory _ data _ => s.connected = true → s.attached = true ∨ oversize data = true
  | .setGpr name value threads got _ =>
    s.Unselected threads → ∀ n regs, name = some n → got = .ok regs →
      applyGprName regs n value = none
  | _ => True

/-! ## One request -/

section Requests

variable {α : Type} {thread : Int → Int → Prop} {s : Session} {command : Command}
  {log : List Event} {e : Event}

theorem proper_concat :
    Proper thread (log ++ [e]) ↔ Proper thread log ∧ e.Proper thread (target log) := by
  constructor
  · intro h
    refine ⟨fun front e' back hlog => h front e' (back ++ [e]) ?_, h log e [] rfl⟩
    rw [hlog, append_assoc, cons_append]
  · rintro ⟨hlog, he⟩ front e' back heq
    rcases eq_nil_or_concat back with rfl | ⟨back, e'', rfl⟩
    · obtain ⟨rfl, hlast⟩ := append_inj' heq rfl
      obtain rfl := singleton_inj.mp hlast
      exact he
    · rw [concat_eq_append, ← cons_append, ← append_assoc] at heq
      obtain ⟨hfront, -⟩ := append_inj' heq rfl
      exact hlog front e' back hfront

@[simp] theorem attached_request (s : Session) (command : Command) (reply : Reply α) :
    (s.request command reply).1.attached = s.attached := by
  rw [Session.request]
  split_ifs <;> rfl

@[simp] theorem pid_request (s : Session) (command : Command) (reply : Reply α) :
    (s.request command reply).1.pid = s.pid := by
  rw [Session.request]
  split_ifs <;> rfl

@[simp] theorem selectedLwp_request (s : Session) (command : Command) (reply : Reply α) :
    (s.request command reply).1.selectedLwp = s.selectedLwp := by
  rw [Session.request]
  split_ifs <;> rfl

theorem connected_request {reply : Reply α}
    (h : (s.request command reply).1.connected = true) : s.connected = true := by
  rw [Session.request] at h
  split_ifs at h with hconn
  · exact hconn
  · exact h

theorem log_request (hconn : s.connected = true) (reply : Reply α) :
    (s.request command reply).1.log = s.log ++ [.sent command reply.isOk] := by
  rw [Session.request, if_pos hconn]

theorem request_of_not_connected (hconn : ¬ s.connected = true) (reply : Reply α) :
    s.request command reply = (s, none) := if_neg hconn

theorem request_eq_some {reply : Reply α} {a : α} (h : (s.request command reply).2 = some a) :
    s.connected = true ∧ reply = .ok a := by
  rw [Session.request] at h
  split_ifs at h with hconn
  cases reply with
  | ok b =>
    cases h
    exact ⟨hconn, rfl⟩
  | failed => cases h
  | lost => cases h

theorem request_eq_none (hconn : s.connected = true) {reply : Reply α}
    (h : (s.request command reply).2 = none) : reply.isOk = false := by
  rw [Session.request, if_pos hconn] at h
  cases reply with
  | ok a => cases h
  | failed => rfl
  | lost => rfl

theorem proper_request_iff (command : Command)
    (hproper : s.connected = true → ∀ ok, (Event.sent command ok).Proper thread (target s.log))
    (reply : Reply α) : Proper thread (s.request command reply).1.log ↔ Proper thread s.log := by
  by_cases hconn : s.connected = true
  · rw [log_request hconn, proper_concat]
    exact and_iff_left (hproper hconn _)
  · rw [request_of_not_connected hconn]

/-! ## What a session knows -/

structure Session.Sound (s : Session) (thread : Int → Int → Prop) : Prop where
  target : s.connected = true → target s.log = if s.attached = true then some s.pid else none
  selected : s.connected = true → s.attached = true → s.selectedLwp ≠ 0 →
    thread s.pid s.selectedLwp

theorem Session.Sound.new (thread : Int → Int → Prop) : Session.new.Sound thread where
  target := fun h => absurd h Bool.false_ne_true
  selected := fun h => absurd h Bool.false_ne_true

theorem Session.Sound.target_eq (h : s.Sound thread) (hconn : s.connected = true)
    (hatt : s.attached = true) : X64dbg.target s.log = some s.pid := by
  rw [h.target hconn, if_pos hatt]

theorem Session.Sound.of_not_connected (hconn : ¬ s.connected = true) : s.Sound thread where
  target := fun h => absurd h hconn
  selected := fun h => absurd h hconn

def Session.Leads (s u : Session) (thread : Int → Int → Prop) : Prop :=
  u.Sound thread ∧ (Proper thread u.log ↔ Proper thread s.log)

theorem Session.Sound.leads (h : s.Sound thread) : s.Leads s thread := ⟨h, Iff.rfl⟩

theorem Session.Leads.trans {u v : Session} (h : s.Leads u thread) (h' : u.Leads v thread) :
    s.Leads v thread :=
  ⟨h'.1, h'.2.trans h.2⟩

theorem Session.Leads.careful {u : Session} {p : Prop} (h : s.Leads u thread) (hp : p) :
    u.Sound thread ∧ (Proper thread u.log ↔ Proper thread s.log ∧ p) :=
  ⟨h.1, h.2.trans (and_iff_left hp).symm⟩

theorem Session.Sound.request (h : s.Sound thread) (command : Command)
    (hafter : ∀ t ok, Event.after t (.sent command ok) = t) (reply : Reply α) :
    (s.request command reply).1.Sound thread where
  target := by
    intro hconn
    have hconn' := connected_request hconn
    rw [log_request hconn', target_concat, hafter, attached_request, pid_request]
    exact h.target hconn'
  selected := by
    intro hconn
    rw [attached_request, pid_request, selectedLwp_request]
    exact h.selected (connected_request hconn)

theorem Session.Sound.request_leads (h : s.Sound thread) (command : Command)
    (hafter : ∀ t ok, Event.after t (.sent command ok) = t)
    (hproper : s.connected = true →
      ∀ ok, (Event.sent command ok).Proper thread (X64dbg.target s.log))
    (reply : Reply α) : s.Leads (s.request command reply).1 thread :=
  ⟨h.request command hafter reply, proper_request_iff command hproper reply⟩

/-! ## The selected thread -/

variable {threads : Reply (List Int)}

def Session.Lists (s : Session) (thread : Int → Int → Prop) (threads : Reply (List Int)) : Prop :=
  ∀ pid, target s.log = some pid → ThreadsOf thread pid threads

@[simp] theorem attached_selectThread (s : Session) (threads : Reply (List Int)) :
    (s.selectThread threads).attached = s.attached := by
  rw [Session.selectThread]
  dsimp only
  split <;> simp

@[simp] theorem attached_ensureThread (s : Session) (threads : Reply (List Int)) :
    (s.ensureThread threads).attached = s.attached := by
  rw [Session.ensureThread]
  split_ifs <;> simp

theorem Session.Sound.selectThread (h : s.Sound thread) (hthreads : s.Lists thread threads) :
    s.Leads (s.selectThread threads) thread := by
  have hrequest := h.request_leads .debugGetThreads (fun _ _ => rfl) (fun _ _ => trivial) threads
  rw [Session.selectThread]
  dsimp only
  split
  · next lwp rest hlist =>
    obtain ⟨hconn, rfl⟩ := request_eq_some hlist
    refine ⟨⟨hrequest.1.target, fun _ hatt _ => ?_⟩, hrequest.2⟩
    rw [attached_request] at hatt
    rw [pid_request]
    exact hthreads s.pid (h.target_eq hconn hatt) _ rfl lwp mem_cons_self
  · exact hrequest

theorem Session.Sound.ensureThread (h : s.Sound thread) (hthreads : s.Lists thread threads) :
    s.Leads (s.ensureThread threads) thread := by
  rw [Session.ensureThread]
  split_ifs
  · exact h.selectThread hthreads
  · exact h.leads

theorem unselected_iff (hzero : ∀ pid, ¬ thread pid 0) (h : s.Sound thread)
    (hatt : s.attached = true) (hthreads : s.Lists thread threads) :
    (s.ensureThread threads).connected = true ∧ (s.ensureThread threads).selectedLwp = 0 ↔
      s.Unselected threads := by
  rw [Session.Unselected, and_iff_right hatt, Session.ensureThread]
  by_cases hsel : s.selectedLwp = 0
  swap
  · rw [if_neg hsel]
    exact iff_of_false (fun hboth => hsel hboth.2) (fun hboth => hsel hboth.2.1)
  rw [if_pos hsel, and_iff_right hsel]
  by_cases hconn : s.connected = true
  swap
  · refine iff_of_false ?_ (fun hboth => hconn hboth.1)
    rw [Session.selectThread, request_of_not_connected hconn]
    exact fun hboth => hconn hboth.1
  rw [Session.selectThread, Session.request, if_pos hconn]
  cases threads with
  | failed => simp [Reply.get?, Reply.isLost, hsel, hconn]
  | lost => simp [Reply.get?, Reply.isLost]
  | ok lwps =>
    cases lwps with
    | nil => simp [Reply.get?, Reply.isLost, hsel, hconn]
    | cons lwp rest =>
      have hlwp := hthreads s.pid (h.target_eq hconn hatt) _ rfl lwp mem_cons_self
      have hne : lwp ≠ 0 := fun heq => hzero s.pid (heq ▸ hlwp)
      simp [Reply.get?, hne]

/-! ## The calls -/

variable {detachReply reply : Reply Unit} {pid : Int}

theorem letGo_spec (s : Session) (thread : Int → Int → Prop) (detachReply : Reply Unit) :
    (s.letGo detachReply).attached = false ∧
      (Proper thread (s.letGo detachReply).log ↔ Proper thread s.log) := by
  rw [Session.letGo]
  split_ifs with hatt
  · exact ⟨rfl, proper_request_iff .debugDetach (fun _ _ => trivial) detachReply⟩
  · exact ⟨Bool.eq_false_iff.mpr hatt, Iff.rfl⟩

theorem forget_spec (s : Session) (thread : Int → Int → Prop) (detachReply : Reply Unit) :
    (s.forget detachReply).attached = false ∧
      (Proper thread (s.forget detachReply).log ↔ Proper thread s.log) := by
  rw [Session.forget]
  split_ifs with hatt
  · exact letGo_spec s thread detachReply
  · exact ⟨Bool.eq_false_iff.mpr hatt, Iff.rfl⟩

theorem connected_leads (thread : Int → Int → Prop) (hatt : s.attached = false) :
    s.Leads { s with connected := true, log := s.log ++ [Event.connected] } thread := by
  refine ⟨⟨fun _ => ?_, fun _ h => ?_⟩, proper_concat.trans (and_iff_left trivial)⟩
  · rw [target_concat, hatt]
    rfl
  · exact absurd (hatt.symm.trans h) Bool.false_ne_true

theorem connect_leads (s : Session) (thread : Int → Int → Prop) (detachReply : Reply Unit)
    (opened : Bool) (helloReply : Reply Unit) :
    s.Leads (s.connect detachReply opened helloReply).1 thread := by
  obtain ⟨hatt, hproper⟩ := forget_spec s thread detachReply
  rw [Session.connect]
  generalize s.forget detachReply = u at hatt hproper ⊢
  dsimp only
  split_ifs
  · have hconnected := connected_leads thread hatt
    have hhello := hconnected.1.request_leads .hello (fun _ _ => rfl)
      (fun _ _ => trivial) helloReply
    have hlog := hhello.2.trans (hconnected.2.trans hproper)
    split
    · exact ⟨hhello.1, hlog⟩
    · exact ⟨.of_not_connected Bool.false_ne_true, hlog⟩
  · exact ⟨.of_not_connected Bool.false_ne_true, hproper⟩

theorem Session.Sound.attach (h : s.Sound thread) (hthreads : ThreadsOf thread pid threads) :
    s.Leads (s.attach pid detachReply reply threads).1 thread := by
  rw [Session.attach]
  split_ifs with hconn
  swap
  · exact h.leads
  obtain ⟨hatt, hproper⟩ := letGo_spec s thread detachReply
  generalize s.letGo detachReply = u at hatt hproper ⊢
  have hlog := (proper_request_iff (.debugAttach pid) (fun _ _ => trivial) reply).trans hproper
  dsimp only
  split
  · next hsome =>
    obtain ⟨hconn, rfl⟩ := request_eq_some hsome
    have htarget : X64dbg.target (u.request (.debugAttach pid) (.ok ())).1.log = some pid := by
      rw [log_request hconn, target_concat]
      rfl
    refine And.imp_right (Iff.trans · hlog)
      (Sound.selectThread ⟨fun _ => htarget, fun _ _ hne => absurd rfl hne⟩ ?_)
    intro pid' hpid'
    obtain rfl := Option.some.inj (htarget.symm.trans hpid')
    exact hthreads
  · next hnone =>
    refine ⟨⟨fun hconn' => ?_, fun _ hatt' => ?_⟩, hlog⟩
    · have hconn := connected_request hconn'
      rw [log_request hconn, target_concat, request_eq_none hconn hnone, attached_request, hatt]
      rfl
    · rw [attached_request, hatt] at hatt'
      exact absurd hatt' Bool.false_ne_true

theorem Session.Sound.detach (h : s.Sound thread) : s.Leads (s.detach reply).1 thread := by
  rw [Session.detach]
  split_ifs with hatt
  swap
  · exact h.leads
  have hlog : Proper thread (s.request .debugDetach reply).1.log ↔ Proper thread s.log :=
    proper_request_iff .debugDetach (fun _ _ => trivial) reply
  dsimp only
  split
  · next hsome =>
    obtain ⟨hconn, rfl⟩ := request_eq_some hsome
    refine ⟨⟨fun _ => ?_, fun _ h => absurd h Bool.false_ne_true⟩, hlog⟩
    rw [log_request hconn, target_concat]
    rfl
  · next hnone =>
    refine ⟨⟨fun hconn' => ?_, fun hconn' => ?_⟩, hlog⟩
    · have hconn := connected_request hconn'
      rw [log_request hconn, target_concat, request_eq_none hconn hnone, attached_request,
        pid_request]
      exact h.target hconn
    · rw [attached_request, pid_request, selectedLwp_request]
      exact h.selected (connected_request hconn')

theorem Session.Sound.names (h : s.Sound thread) (hatt : s.attached = true)
    (hsel : s.selectedLwp ≠ 0) (hconn : s.connected = true) :
    ∃ pid, X64dbg.target s.log = some pid ∧ thread pid s.selectedLwp :=
  ⟨s.pid, h.target_eq hconn hatt, h.selected hconn hatt hsel⟩

theorem Session.Sound.step (h : s.Sound thread) (hthreads : s.Lists thread threads) :
    s.Leads (s.step threads reply).1 thread := by
  have hensure := h.ensureThread hthreads
  rw [Session.step]
  dsimp only
  split_ifs with hatt hsel
  · exact hensure
  · rw [← attached_ensureThread s threads] at hatt
    exact hensure.trans (hensure.1.request_leads (.debugStep _) (fun _ _ => rfl)
      (fun hconn _ => hensure.1.names hatt hsel hconn) reply)
  · exact h.leads

theorem Session.Sound.getRegs (h : s.Sound thread) (hthreads : s.Lists thread threads)
    (got : Reply DebugRegs) : s.Leads (s.getRegs threads got).1 thread := by
  have hensure := h.ensureThread hthreads
  rw [Session.getRegs]
  dsimp only
  split_ifs
  · exact hensure.trans
      (hensure.1.request_leads (.debugGetRegs _) (fun _ _ => rfl) (fun _ _ => trivial) got)
  · exact h.leads

theorem Session.Sound.setRegs (h : s.Sound thread) (regs : DebugRegs) :
    s.Leads (s.setRegs regs reply).1 thread := by
  rw [Session.setRegs]
  dsimp only
  split_ifs with hatt hsel
  · exact h.leads
  · exact h.request_leads (.debugSetRegs _ regs) (fun _ _ => rfl)
      (fun hconn _ => h.names hatt hsel hconn) reply
  · exact h.leads

theorem Session.Sound.pollEvents (h : s.Sound thread) {polled : Reply (Bool × Int)}
    (hpolled : ∀ pid lwp, X64dbg.target s.log = some pid → polled = .ok (true, lwp) → lwp ≠ 0 →
      thread pid lwp) : s.Leads (s.pollEvents polled).1 thread := by
  have hrequest := h.request_leads .debugPollEvents (fun _ _ => rfl) (fun _ _ => trivial) polled
  rw [Session.pollEvents]
  dsimp only
  split_ifs with hatt
  swap
  · exact h.leads
  split
  · next stopped lwp hsome =>
    obtain ⟨hconn, rfl⟩ := request_eq_some hsome
    dsimp only
    split_ifs with hstop
    · refine ⟨⟨hrequest.1.target, fun _ _ hne => ?_⟩, hrequest.2⟩
      obtain ⟨rfl, -⟩ := hstop
      rw [pid_request]
      exact hpolled s.pid lwp (h.target_eq hconn hatt) rfl hne
    · exact hrequest
  · exact hrequest

theorem memoryPid_eq (s : Session) : s.memoryPid = s.pid := by
  rw [Session.memoryPid]
  split_ifs with hpid
  · rfl
  · exact (not_not.mp hpid).symm

theorem Session.Sound.writeMemory (h : s.Sound thread) (address : Nat) (data : List UInt8)
    (written : Reply Nat) :
    (s.writeMemory address data written).1.Sound thread ∧
      (Proper thread (s.writeMemory address data written).1.log ↔
        Proper thread s.log ∧ s.Careful (.writeMemory address data written)) := by
  rw [Session.writeMemory, Session.Careful]
  dsimp only
  split_ifs with hconn hsize
  · exact h.leads.careful fun _ => .inr hsize
  · refine ⟨h.request _ (fun _ _ => rfl) written, ?_⟩
    rw [log_request hconn, proper_concat, h.target hconn, memoryPid_eq]
    refine and_congr_right fun _ => ?_
    cases hatt : s.attached with
    | true => exact iff_of_true (if_pos rfl) (fun _ => .inl rfl)
    | false =>
      refine iff_of_false ?_ ?_
      · exact fun hnone => absurd hnone (by simp [Event.Proper])
      · exact fun hcareful => (hcareful hconn).elim Bool.false_ne_true hsize
  · exact h.leads.careful fun hconn' => absurd hconn' hconn

theorem applyGprName_nil (regs : DebugRegs) (value : Nat) : applyGprName regs [] value = none := rfl

theorem Session.Sound.setGpr (hzero : ∀ pid, ¬ thread pid 0) (h : s.Sound thread)
    (hthreads : s.Lists thread threads) (name : Option (List Char)) (value : Nat)
    (got : Reply DebugRegs) :
    (s.setGpr name value threads got reply).1.Sound thread ∧
      (Proper thread (s.setGpr name value threads got reply).1.log ↔
        Proper thread s.log ∧ s.Careful (.setGpr name value threads got reply)) := by
  rw [Session.Careful]
  cases name with
  | none => exact h.leads.careful fun _ _ _ hname => absurd hname (by simp)
  | some name =>
    rw [Session.setGpr]
    by_cases hname : name = []
    · rw [if_pos hname]
      refine h.leads.careful fun _ n regs hn _ => ?_
      rw [← Option.some.inj hn, hname, applyGprName_nil]
    rw [if_neg hname]
    by_cases hatt : s.attached = true
    swap
    · rw [if_neg hatt]
      exact h.leads.careful fun hun => absurd hun.2.1 hatt
    obtain ⟨hsound, hproper⟩ := h.ensureThread hthreads
    rw [if_pos hatt, ← hproper, ← unselected_iff hzero h hatt hthreads]
    rw [← attached_ensureThread s threads] at hatt
    generalize s.ensureThread threads = u at hsound hatt ⊢
    dsimp only
    have hget := hsound.request_leads (.debugGetRegs u.selectedLwp) (fun _ _ => rfl)
      (fun _ _ => trivial) got
    split
    · next hnone =>
      refine hget.careful ?_
      rintro ⟨hconn, -⟩ n regs - rfl
      exact absurd (request_eq_none hconn hnone) (by simp [Reply.isOk])
    · next regs hsome =>
      obtain ⟨hconn, rfl⟩ := request_eq_some hsome
      split
      · next hunknown =>
        refine hget.careful ?_
        rintro - n regs' hn hregs
        cases hn
        cases hregs
        exact hunknown
      · next regs' hknown =>
        by_cases hsel : u.selectedLwp = 0
        · -- the request names thread 0
          refine ⟨hget.1.request _ (fun _ _ => rfl) reply, ?_⟩
          have hconn' :
            (u.request (.debugGetRegs u.selectedLwp) (.ok regs)).1.connected = true := by
            rw [Session.request, if_pos hconn]
            rfl
          rw [log_request hconn', proper_concat]
          refine iff_of_false ?_ ?_
          · rintro ⟨-, pid, -, hthread⟩
            exact hzero pid (hsel ▸ hthread)
          · rintro ⟨-, hcareful⟩
            rw [hcareful ⟨hconn, hsel⟩ name regs rfl rfl] at hknown
            cases hknown
        · refine (hget.trans (hget.1.request_leads _ (fun _ _ => rfl) ?_ reply)).careful
            fun hun => absurd hun.2 hsel
          intro hconn' _
          obtain ⟨pid, htarget, hthread⟩ :=
            hget.1.names (by simpa using hatt) (by simpa using hsel) hconn'
          exact ⟨pid, htarget, by simpa using hthread⟩

/-! ## The runs -/

theorem Session.Sound.call (hzero : ∀ pid, ¬ thread pid 0) (h : s.Sound thread) {c : Call}
    (hc : s.Honest thread c) :
    (s.call c).Sound thread ∧
      (Proper thread (s.call c).log ↔ Proper thread s.log ∧ s.Careful c) := by
  cases c with
  | connect detachReply opened helloReply =>
    exact (connect_leads s thread detachReply opened helloReply).careful trivial
  | disconnect detachReply =>
    have hlog := (letGo_spec s thread detachReply).2
    exact ⟨.of_not_connected Bool.false_ne_true, hlog.trans (and_iff_left trivial).symm⟩
  | attach pid detachReply reply threads => exact (h.attach hc).careful trivial
  | detach reply => exact h.detach.careful trivial
  | step threads reply => exact (h.step hc).careful trivial
  | readMemory address length reply =>
    rw [Session.call, Session.readMemory]
    split_ifs
    · have hread := h.request_leads (.memoryRead s.memoryPid address length) (fun _ _ => rfl)
        (fun _ _ => trivial) reply
      exact hread.careful trivial
    · exact h.leads.careful trivial
  | writeMemory address data reply => exact h.writeMemory address data reply
  | getRegs threads reply => exact (h.getRegs hc reply).careful trivial
  | setRegs regs reply => exact (h.setRegs regs).careful trivial
  | pollEvents reply => exact (h.pollEvents hc).careful trivial
  | setGpr name value threads got reply => exact h.setGpr hzero hc name value got
  | keepalive reply =>
    exact (h.request_leads .ping (fun _ _ => rfl) (fun _ _ => trivial) reply).careful trivial

theorem proper_run_iff (hzero : ∀ pid, ¬ thread pid 0) {calls : List Call} {s' : Session}
    (h : s.Sound thread)
    (hrun : Run (fun s c => some (s.call c)) (Session.Honest thread) s calls s') :
    Proper thread s'.log ↔
      Proper thread s.log ∧
        Run (fun s c => some (s.call c)) (fun s c => s.Honest thread c ∧ s.Careful c) s
          calls s' := by
  induction hrun with
  | nil s => exact (and_iff_left (.nil s)).symm
  | cons hc hstep hrun ih =>
    obtain rfl := Option.some.inj hstep
    obtain ⟨hsound, hproper⟩ := h.call hzero hc
    rw [ih hsound, hproper, and_assoc]
    refine and_congr_right fun _ => ?_
    constructor
    · rintro ⟨hcareful, hrest⟩
      exact .cons ⟨hc, hcareful⟩ rfl hrest
    · rintro (_ | ⟨⟨-, hcareful⟩, hstep, hrest⟩)
      obtain rfl := Option.some.inj hstep
      exact ⟨hcareful, hrest⟩

end Requests

/-! ## The result -/

/-- With a console that names threads of the process that is attached, a session sends requests to
change a process only to the one that is attached if and only if each call is a careful one. -/
theorem session_proper_iff {thread : Int → Int → Prop} (hzero : ∀ pid, ¬ thread pid 0)
    {calls : List Call} {s : Session}
    (hrun : Run (fun s c => some (s.call c)) (Session.Honest thread) .new calls s) :
    Proper thread s.log ↔
      Run (fun s c => some (s.call c)) (fun s c => s.Honest thread c ∧ s.Careful c) .new
        calls s := by
  have hnew : Proper thread Session.new.log := by
    intro front e back hlog
    exact absurd hlog (by simp [Session.new])
  rw [proper_run_iff hzero (.new thread) hrun]
  exact and_iff_right hnew

def onlyThread (pid lwp : Int) : Prop := pid = 10 ∧ lwp = 100

def attachAndWrite : List Call :=
  [.connect .failed true (.ok ()), .attach 10 .failed (.ok ()) (.ok [100]),
    .writeMemory 4096 [0x90] (.ok 1)]

theorem honest_attachAndWrite :
    Run (fun s c => some (s.call c)) (Session.Honest onlyThread) .new attachAndWrite
      (attachAndWrite.foldl Session.call .new) := by
  refine .cons trivial rfl (.cons ?_ rfl (.cons trivial rfl (.nil _)))
  rintro lwps ⟨⟩ lwp hlwp
  exact ⟨rfl, mem_singleton.mp hlwp⟩

theorem session_proper_attachAndWrite :
    Proper onlyThread (attachAndWrite.foldl Session.call .new).log := by
  refine (session_proper_iff (fun _ h => absurd h.2 (by decide)) honest_attachAndWrite).mpr ?_
  refine .cons ⟨trivial, trivial⟩ rfl (.cons ⟨?_, trivial⟩ rfl (.cons ⟨trivial, ?_⟩ rfl (.nil _)))
  · rintro lwps ⟨⟩ lwp hlwp
    exact ⟨rfl, mem_singleton.mp hlwp⟩
  · exact fun _ => .inl rfl

def staleAttach : List Call :=
  [.connect .failed true (.ok ()), .attach 10 .failed (.ok ()) (.ok [100]),
    .attach 20 (.ok ()) .failed .failed, .writeMemory 4096 [0x90] (.ok 1)]

theorem session_staleAttach :
    Run (fun s c => some (s.call c)) (Session.Honest onlyThread) .new staleAttach
        (staleAttach.foldl Session.call .new) ∧
      ¬ Proper onlyThread (staleAttach.foldl Session.call .new).log := by
  constructor
  · refine .cons trivial rfl (.cons ?_ rfl (.cons ?_ rfl (.cons trivial rfl (.nil _))))
    · rintro lwps ⟨⟩ lwp hlwp
      exact ⟨rfl, mem_singleton.mp hlwp⟩
    · rintro lwps ⟨⟩
  · intro h
    have hwrite : (none : Option Int) = some 10 :=
      h (staleAttach.dropLast.foldl Session.call .new).log
        (.sent (.memoryWrite 10 4096 [0x90]) true) [] rfl
    cases hwrite

end MemDbg.X64dbg
