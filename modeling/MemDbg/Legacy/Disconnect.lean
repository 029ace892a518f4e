import MemDbg.Lib.Transition

/-!
# Whose session a disconnect ends

The daemon debugs one process for all of its clients.  A client of the legacy protocol
that attaches is remembered by a flag, not by name, and by two tables of the addresses it
has set.  Every closing legacy connection tests the flag and, if it is set, detaches; a
detach by a native client clears neither the flag nor the tables, and the legacy detach
leaves the tables as they are.
-/

namespace MemDbg.Legacy

open Lib Function

/-! ## Clients and sessions -/

inductive Client where
  | legacy (c : Nat)
  | native (n : Nat)
deriving DecidableEq

structure Attach where
  id : Nat
  owner : Client
  pid : Int
deriving DecidableEq

inductive Table where
  | breakpoints
  | watchpoints
deriving DecidableEq

def Table.size : Table → Nat
  | breakpoints => 30
  | watchpoints => 4

inductive Place where
  | absent
  | idle
  | checked (pid : Int)
  | cleared (pid : Int)
  | opened (session : Nat)
  | storing (table : Table) (index address session : Nat)
  | closing (leave : Bool)
  | joining (leave was : Bool)
  | detaching (leave was : Bool)
  | gone
deriving DecidableEq

def Place.holds : Place → Option Nat
  | opened e => some e
  | storing _ _ _ e => some e
  | _ => none

def Place.pending : Place → Bool
  | joining leave was | detaching leave was => leave && was
  | _ => false

inductive NativePlace where
  | absent
  | serving
  | leaving
  | gone
deriving DecidableEq

/-- The debugger as the clients of both protocols see it. -/
structure Sessions where
  force : Option Attach
  opened : Nat
  attached : Bool
  recorded : Nat
  tables : Table → Nat → Option (Nat × Nat)
  places : Nat → Place
  natives : Nat → NativePlace
  active : Nat
  ended : List (Nat × Client)

namespace Sessions

def init : Sessions where
  force := none
  opened := 0
  attached := false
  recorded := 0
  tables _ _ := none
  places _ := .absent
  natives _ := .absent
  active := 0
  ended := []

def debuggerAttach (s : Sessions) (who : Client) (pid : Int) (ok : Bool) :
    Option Nat × Sessions :=
  if pid ≤ 1 then (none, s)
  else
    match s.force with
    | some x => (if x.pid = pid then some x.id else none, s)
    | none =>
      if ok then
        (some s.opened, { s with force := some ⟨s.opened, who, pid⟩, opened := s.opened + 1 })
      else (none, s)

def debuggerDetach (s : Sessions) (ok : Bool) : Sessions :=
  if ok then { s with force := none } else s

def goto (s : Sessions) (c : Nat) (p : Place) : Sessions :=
  { s with places := update s.places c p }

def write (s : Sessions) (table : Table) (index : Nat) (entry : Option (Nat × Nat)) : Sessions :=
  { s with tables := update s.tables table (update (s.tables table) index entry) }

def native (s : Sessions) (n : Nat) (p : NativePlace) : Sessions :=
  { s with natives := update s.natives n p }

/-- What can happen. -/
inductive Label where
  | connect (c : Nat)
  | check (c : Nat) (pid : Int)
  | clearTables (c : Nat)
  | attach (c : Nat) (ok : Bool)
  | record (c : Nat)
  | set (c : Nat) (table : Table) (index address : Nat) (ok : Bool)
  | store (c : Nat)
  | unset (c : Nat) (table : Table) (index : Nat) (ok : Bool)
  | release (c : Nat)
  | disconnect (c : Nat)
  | clear (c : Nat)
  | join (c : Nat)
  | detach (c : Nat) (ok : Bool)
  | nativeConnect (n : Nat)
  | nativeAttach (n : Nat) (pid : Int) (ok : Bool)
  | nativeDetach (n : Nat) (ok : Bool)
  | nativeDisconnect (n : Nat)
  | nativeLast (n : Nat) (ok : Bool)
  | exit

def step (s : Sessions) : Label → Option Sessions
  | .connect c =>
    match s.places c with
    | .absent => some (s.goto c .idle)
    | _ => none
  | .check c pid =>
    match s.places c with
    | .idle => some (if s.force.isSome then s else s.goto c (.checked pid))
    | _ => none
  | .clearTables c =>
    match s.places c with
    | .checked pid => some
      { s.goto c (.cleared pid) with attached := false, tables := fun _ _ => none }
    | _ => none
  | .attach c ok =>
    match s.places c with
    | .cleared pid =>
      let (session, s) := s.debuggerAttach (.legacy c) pid ok
      some (s.goto c (match session with | some e => .opened e | none => .idle))
    | _ => none
  | .record c =>
    match s.places c with
    | .opened e => some { s.goto c .idle with attached := true, recorded := e }
    | _ => none
  | .set c table index address ok =>
    match s.places c with
    | .idle =>
      match s.force with
      | some x =>
        some (if index < table.size ∧ ok then s.goto c (.storing table index address x.id) else s)
      | none => some s
    | _ => none
  | .store c =>
    match s.places c with
    | .storing table index address e =>
      some ((s.write table index (if address = 0 then none else some (address, e))).goto c .idle)
    | _ => none
  | .unset c table index ok =>
    match s.places c with
    | .idle =>
      some (if index < table.size ∧ s.force.isSome ∧ ok then s.write table index none else s)
    | _ => none
  | .release c =>
    match s.places c with
    | .idle => some (s.goto c (.closing false))
    | _ => none
  | .disconnect c =>
    match s.places c with
    | .idle => some (s.goto c (if s.attached then .closing true else .gone))
    | _ => none
  | .clear c =>
    match s.places c with
    | .closing leave => some { s.goto c (.joining leave s.attached) with attached := false }
    | _ => none
  | .join c =>
    match s.places c with
    | .joining leave was => some (s.goto c (.detaching leave was))
    | _ => none
  | .detach c ok =>
    match s.places c with
    | .detaching leave was =>
      let next := s.goto c (if leave then .gone else .idle)
      match was, ok, s.force with
      | true, true, some x =>
        some { next.debuggerDetach true with
          ended := if leave then (c, x.owner) :: s.ended else s.ended }
      | _, _, _ => some next
    | _ => none
  | .nativeConnect n =>
    match s.natives n with
    | .absent => some { s.native n .serving with active := s.active + 1 }
    | _ => none
  | .nativeAttach n pid ok =>
    match s.natives n with
    | .serving => some (s.debuggerAttach (.native n) pid ok).2
    | _ => none
  | .nativeDetach n ok =>
    match s.natives n with
    | .serving => some (s.debuggerDetach ok)
    | _ => none
  | .nativeDisconnect n =>
    match s.natives n with
    | .serving =>
      some (if s.active ≤ 1 ∧ s.force.isSome then s.native n .leaving
        else { s.native n .gone with active := s.active - 1 })
    | _ => none
  | .nativeLast n ok =>
    match s.natives n with
    | .leaving => some { (s.native n .gone).debuggerDetach ok with active := s.active - 1 }
    | _ => none
  | .exit => some (s.debuggerDetach true)

/-! ## What is promised -/

def InForce (s : Sessions) (e : Nat) : Prop := s.force.map Attach.id = some e

def Ended (s : Sessions) (e : Nat) : Prop := e < s.opened ∧ ¬ s.InForce e

/-- A disconnect only ends the session its client owns, and what was written down of a
session that has ended is gone. -/
structure Sound (s : Sessions) : Prop where
  own : ∀ x ∈ s.ended, x.2 = .legacy x.1
  flag : ∀ e, s.Ended e → ¬ (s.attached = true ∧ s.recorded = e)
  tables : ∀ e, s.Ended e → ∀ table index address, s.tables table index ≠ some (address, e)

def Free (s : Sessions) : Prop :=
  s.attached = false ∧ (∀ table index, s.tables table index = none) ∧ ∀ c, (s.places c).holds = none

/-- Only the owner disconnects while the flag is set, a session ends when nothing is
written down of it, and none is opened while a disconnect is about to detach. -/
def Apart (s : Sessions) : Label → Prop
  | .clear c => s.places c = .closing true → s.attached = true →
    ∀ x, s.force = some x → x.owner = .legacy c
  | .attach _ ok | .nativeAttach _ _ ok => ok = true → s.force = none →
    ∀ c, (s.places c).pending = false
  | .detach c ok => ok = true → (∃ leave, s.places c = .detaching leave true) →
    s.force.isSome → s.Free
  | .nativeDetach _ ok | .nativeLast _ ok => ok = true → s.force.isSome → s.Free
  | .exit => s.force.isSome → s.Free
  | _ => True

/-! ## The invariant -/

structure Inv (s : Sessions) : Prop where
  flag : s.attached = true → s.InForce s.recorded
  tables : ∀ table index address e, s.tables table index = some (address, e) → s.InForce e
  holds : ∀ c e, (s.places c).holds = some e → s.InForce e
  pending : ∀ c, (s.places c).pending = true → ∀ x, s.force = some x → x.owner = .legacy c
  own : ∀ x ∈ s.ended, x.2 = .legacy x.1

theorem Inv.sound {s : Sessions} (h : s.Inv) : s.Sound where
  own := h.own
  flag e he := by
    rintro ⟨hattached, rfl⟩
    exact he.2 (h.flag hattached)
  tables e he table index address hentry := he.2 (h.tables table index address e hentry)

variable {s s' : Sessions} {c : Nat}

theorem Inv.goto (h : s.Inv) {p : Place} (hholds : ∀ e, p.holds = some e → s.InForce e)
    (hpending : p.pending = true → ∀ x, s.force = some x → x.owner = .legacy c) :
    (s.goto c p).Inv where
  flag := h.flag
  tables := h.tables
  holds c' e he := by
    dsimp only [Sessions.goto] at he
    rw [update_apply] at he
    split_ifs at he
    · exact hholds e he
    · exact h.holds c' e he
  pending c' hc' := by
    dsimp only [Sessions.goto] at hc'
    rw [update_apply] at hc'
    split_ifs at hc' with heq
    · rw [heq]
      exact hpending hc'
    · exact h.pending c' hc'
  own := h.own

theorem Inv.goto_plain (h : s.Inv) {p : Place} (hholds : p.holds = none)
    (hpending : p.pending = false) :
    (s.goto c p).Inv :=
  h.goto (fun e he => by rw [hholds] at he; cases he) fun hp => by rw [hpending] at hp; cases hp

theorem Inv.forget (h : s.Inv) : Inv { s with attached := false } where
  flag hattached := by cases hattached
  tables := h.tables
  holds := h.holds
  pending := h.pending
  own := h.own

theorem Inv.native (h : s.Inv) (n : Nat) (p : NativePlace) (active : Nat) :
    Inv { s.native n p with active := active } :=
  ⟨h.flag, h.tables, h.holds, h.pending, h.own⟩

theorem Inv.write (h : s.Inv) (table : Table) (index : Nat) {entry : Option (Nat × Nat)}
    (hentry : ∀ address e, entry = some (address, e) → s.InForce e) :
    (s.write table index entry).Inv where
  flag := h.flag
  tables table' index' address e he := by
    dsimp only [Sessions.write] at he
    rcases eq_or_ne table' table with rfl | htable
    · rw [update_self, update_apply] at he
      split_ifs at he
      · exact hentry address e he
      · exact h.tables table' index' address e he
    · rw [update_of_ne htable] at he
      exact h.tables table' index' address e he
  holds := h.holds
  pending := h.pending
  own := h.own

theorem Inv.close (h : s.Inv) (hfree : s.force.isSome → s.Free) : Inv { s with force := none } := by
  have hnone {e : Nat} (he : s.InForce e) : s.Free := by
    obtain ⟨x, hx, -⟩ := Option.map_eq_some_iff.1 he
    exact hfree (by rw [hx]; rfl)
  constructor
  · intro hattached
    have hfalse := (hnone (h.flag hattached)).1
    rw [hfalse] at hattached
    cases hattached
  · intro table index address e he
    have hempty := (hnone (h.tables table index address e he)).2.1 table index
    exact absurd (hempty.symm.trans he) nofun
  · intro c e he
    have hplace := (hnone (h.holds c e he)).2.2 c
    exact absurd (hplace.symm.trans he) nofun
  · rintro c - x ⟨⟩
  · exact h.own

theorem Inv.debuggerDetach (h : s.Inv) {ok : Bool} (hfree : ok = true → s.force.isSome → s.Free) :
    (s.debuggerDetach ok).Inv := by
  rw [Sessions.debuggerDetach]
  split_ifs with hok
  · exact h.close (hfree hok)
  · exact h

theorem Inv.open (h : s.Inv) (hforce : s.force = none)
    (hpending : ∀ c, (s.places c).pending = false)
    (x : Attach) (opened : Nat) : Inv { s with force := some x, opened := opened } := by
  have hnot (e : Nat) : ¬ s.InForce e := by
    rw [InForce, hforce]
    exact nofun
  constructor
  · exact fun hattached => absurd (h.flag hattached) (hnot _)
  · exact fun table index address e he => absurd (h.tables table index address e he) (hnot e)
  · exact fun c e he => absurd (h.holds c e he) (hnot e)
  · intro c hc
    rw [hpending c] at hc
    cases hc
  · exact h.own

theorem Inv.debuggerAttach (h : s.Inv) (who : Client) (pid : Int) {ok : Bool}
    (hpending : ok = true → s.force = none → ∀ c, (s.places c).pending = false) :
    (s.debuggerAttach who pid ok).2.Inv ∧ ∀ e, (s.debuggerAttach who pid ok).1 = some e →
      (s.debuggerAttach who pid ok).2.InForce e := by
  unfold Sessions.debuggerAttach
  split
  · exact ⟨h, nofun⟩
  · split
    · rename_i x hforce
      refine ⟨h, fun e he => ?_⟩
      split_ifs at he
      cases he
      rw [InForce, hforce]
      rfl
    · rename_i hforce
      split_ifs with hok
      · refine ⟨h.open hforce (hpending hok hforce) _ _, fun e he => ?_⟩
        cases he
        rfl
      · exact ⟨h, nofun⟩

theorem inv_step {l : Label} (h : s.Inv) (hapart : s.Apart l) (hstep : s.step l = some s') :
    s'.Inv := by
  cases l with
  | connect c =>
    rw [step] at hstep
    split at hstep
    · cases hstep
      exact h.goto_plain rfl rfl
    · cases hstep
  | check c pid =>
    rw [step] at hstep
    split at hstep
    · split_ifs at hstep
      · cases hstep
        exact h
      · cases hstep
        exact h.goto_plain rfl rfl
    · cases hstep
  | clearTables c =>
    rw [step] at hstep
    split at hstep
    · rename_i pid hc
      cases hstep
      have hgoto := (h.goto_plain (c := c) (p := .cleared pid) rfl rfl).forget
      exact ⟨hgoto.flag, (by rintro _ _ _ _ ⟨⟩), hgoto.holds, hgoto.pending, hgoto.own⟩
    · cases hstep
  | attach c ok =>
    rw [step] at hstep
    split at hstep
    · rename_i pid hc
      cases hstep
      obtain ⟨hinv, hforce⟩ := h.debuggerAttach (.legacy c) pid hapart
      refine hinv.goto ?_ ?_
      · intro e he
        refine hforce e ?_
        split at he
        · cases he
          assumption
        · cases he
      · dsimp only
        split
        · rintro ⟨⟩
        · rintro ⟨⟩
    · cases hstep
  | record c =>
    rw [step] at hstep
    split at hstep
    · rename_i e hc
      cases hstep
      have hforce : s.InForce e := h.holds c e (by rw [hc]; rfl)
      have hgoto := h.goto_plain (c := c) (p := .idle) rfl rfl
      exact ⟨fun _ => hforce, hgoto.tables, hgoto.holds, hgoto.pending, hgoto.own⟩
    · cases hstep
  | set c table index address ok =>
    rw [step] at hstep
    split at hstep
    · split at hstep
      · rename_i x hforce
        split_ifs at hstep
        · cases hstep
          refine h.goto ?_ (by rintro ⟨⟩)
          rintro e ⟨⟩
          rw [InForce, hforce]
          rfl
        · cases hstep
          exact h
      · cases hstep
        exact h
    · cases hstep
  | store c =>
    rw [step] at hstep
    split at hstep
    · rename_i table index address e hc
      cases hstep
      have hforce : s.InForce e := h.holds c e (by rw [hc]; rfl)
      refine (h.write table index ?_).goto_plain rfl rfl
      intro address' e' he
      split_ifs at he
      cases he
      exact hforce
    · cases hstep
  | unset c table index ok =>
    rw [step] at hstep
    split at hstep
    · split_ifs at hstep
      · cases hstep
        exact h.write table index (by rintro _ _ ⟨⟩)
      · cases hstep
        exact h
    · cases hstep
  | release c =>
    rw [step] at hstep
    split at hstep
    · cases hstep
      exact h.goto_plain rfl rfl
    · cases hstep
  | disconnect c =>
    rw [step] at hstep
    split at hstep
    · split_ifs at hstep
      · cases hstep
        exact h.goto_plain rfl rfl
      · cases hstep
        exact h.goto_plain rfl rfl
    · cases hstep
  | clear c =>
    rw [step] at hstep
    split at hstep
    · rename_i leave hc
      cases hstep
      refine Inv.forget (h.goto (by rintro _ ⟨⟩) fun hpending => ?_)
      have hboth := Bool.and_eq_true_iff.1 hpending
      exact hapart (hboth.1 ▸ hc) hboth.2
    · cases hstep
  | join c =>
    rw [step] at hstep
    split at hstep
    · rename_i leave was hc
      cases hstep
      refine h.goto (by rintro _ ⟨⟩) fun hpending => ?_
      exact h.pending c (by rw [hc]; exact hpending)
    · cases hstep
  | detach c ok =>
    rw [step] at hstep
    split at hstep
    · rename_i leave was hc
      have hnext : (s.goto c (if leave then .gone else .idle)).Inv := by
        refine h.goto_plain ?_ ?_
        · cases leave <;> rfl
        · cases leave <;> rfl
      dsimp only at hstep
      split at hstep
      · rename_i x hforce
        cases hstep
        have hclose := h.close (hapart rfl ⟨leave, hc⟩)
        have hgoto : ({ s with force := none }.goto c (if leave then .gone else .idle)).Inv := by
          refine hclose.goto_plain ?_ ?_
          · cases leave <;> rfl
          · cases leave <;> rfl
        refine ⟨hgoto.flag, hgoto.tables, hgoto.holds, hgoto.pending, ?_⟩
        intro y hy
        cases leave with
        | false => exact h.own y hy
        | true =>
          rcases List.mem_cons.1 hy with rfl | hold
          · exact h.pending c (by rw [hc]; rfl) x hforce
          · exact h.own y hold
      · cases hstep
        exact hnext
    · cases hstep
  | nativeConnect n =>
    rw [step] at hstep
    split at hstep
    · cases hstep
      exact h.native n .serving _
    · cases hstep
  | nativeAttach n pid ok =>
    rw [step] at hstep
    split at hstep
    · cases hstep
      exact (h.debuggerAttach (.native n) pid hapart).1
    · cases hstep
  | nativeDetach n ok =>
    rw [step] at hstep
    split at hstep
    · cases hstep
      exact h.debuggerDetach hapart
    · cases hstep
  | nativeDisconnect n =>
    rw [step] at hstep
    split at hstep
    · split_ifs at hstep
      · cases hstep
        exact h.native n .leaving _
      · cases hstep
        exact h.native n .gone _
    · cases hstep
  | nativeLast n ok =>
    rw [step] at hstep
    split at hstep
    · cases hstep
      cases ok with
      | false => exact h.native n .gone _
      | true => exact (h.close (hapart rfl)).native n .gone _
    · cases hstep
  | exit =>
    cases hstep
    exact h.debuggerDetach fun _ => hapart

theorem inv_init : init.Inv where
  flag := nofun
  tables := nofun
  holds := nofun
  pending := nofun
  own := nofun

/-- In every run in which clients keep apart, a disconnect only ends the session its
client owns. -/
theorem sound_of_apart_run {labels : List Label} (h : Run step Apart init labels s) : s.Sound :=
  Inv.sound (h.invariant (P := Inv) (fun _ _ _ hs hapart hstep ↦ inv_step hs hapart hstep) inv_init)

def after (labels : List Label) : Sessions := (labels.foldlM step init).getD init

def attaches (c : Nat) : List Label :=
  [.connect c, .check c 7, .clearTables c, .attach c true, .record c]

def disconnects (c : Nat) : List Label := [.disconnect c, .clear c, .join c, .detach c true]

def inTurn : List Label :=
  [.connect 0, .connect 1, .nativeConnect 0, .nativeAttach 0 9 true, .check 1 7,
    .nativeDetach 0 true, .check 0 7, .clearTables 0, .attach 0 true, .record 0,
    .set 0 .watchpoints 1 0x1000 true, .store 0, .unset 0 .watchpoints 1 true, .disconnect 0,
    .clear 0, .disconnect 1, .join 0, .detach 0 true]

theorem sound_of_apart_run_inTurn : (after inTurn).Sound := by
  have hrun : Run step Apart init inTurn (after inTurn) := by
    refine .cons trivial rfl (.cons trivial rfl (.cons trivial rfl (.cons ?_ rfl
      (.cons trivial rfl (.cons ?_ rfl (.cons trivial rfl (.cons trivial rfl (.cons ?_ rfl
        (.cons trivial rfl (.cons trivial rfl (.cons trivial rfl (.cons trivial rfl
          (.cons trivial rfl (.cons ?_ rfl (.cons trivial rfl (.cons trivial rfl
            (.cons ?_ rfl (.nil _))))))))))))))))))
    · intro _ _ c
      match c with
      | 0 => rfl
      | 1 => rfl
      | n + 2 => rfl
    · refine fun _ _ => ⟨rfl, fun _ _ => rfl, fun c => ?_⟩
      match c with
      | 0 => rfl
      | 1 => rfl
      | n + 2 => rfl
    · intro _ _ c
      match c with
      | 0 => rfl
      | 1 => rfl
      | n + 2 => rfl
    · rintro - - x ⟨⟩
      rfl
    · refine fun _ _ _ => ⟨rfl, fun table index => ?_, fun c => ?_⟩
      · cases table with
        | breakpoints => rfl
        | watchpoints =>
          match index with
          | 0 => rfl
          | 1 => rfl
          | n + 2 => rfl
      · match c with
        | 0 => rfl
        | 1 => rfl
        | n + 2 => rfl
  exact sound_of_apart_run hrun

theorem disconnects_other : Run step (fun _ _ => True) init
      (attaches 0 ++ .connect 1 :: disconnects 1)
        (after (attaches 0 ++ .connect 1 :: disconnects 1)) ∧
    ¬ (after (attaches 0 ++ .connect 1 :: disconnects 1)).Sound := by
  refine ⟨.cons trivial rfl (.cons trivial rfl (.cons trivial rfl (.cons trivial rfl
    (.cons trivial rfl (.cons trivial rfl (.cons trivial rfl (.cons trivial rfl
      (.cons trivial rfl (.cons trivial rfl (.nil _)))))))))), fun h => ?_⟩
  have hended : (after (attaches 0 ++ .connect 1 :: disconnects 1)).ended = [(1, .legacy 0)] := rfl
  have hown := h.own (1, .legacy 0) (by rw [hended]; exact List.mem_cons_self)
  cases hown

end Sessions

end MemDbg.Legacy
