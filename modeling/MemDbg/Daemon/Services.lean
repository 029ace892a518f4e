import MemDbg.Core.Status
import MemDbg.Lib.Transition

/-!
# The services of the daemon

A client can ask for the legacy listener or ask it away.  The wish is published at run time, then
the listener is started or stopped, and then the wish is saved for the next start; no lock is held
around the three, and other requests may come between them.
-/

namespace MemDbg.Daemon.Services

open List Function Lib

/-! ## daemon.conf -/

def isSpace (c : Char) : Bool := c ∈ [' ', '\t', '\n', '\x0b', '\x0c', '\r']

def trim (s : List Char) : List Char :=
  ((s.dropWhile isSpace).reverse.dropWhile isSpace).reverse

theorem lawfulBEq_chars : LawfulBEq (List Char) := inferInstance

attribute [local instance] lawfulBEq_chars in
def parseLine (line : List Char) (cfg : Bool) : Option Bool :=
  let buf := trim (line.take 255)
  if buf = [] ∨ buf.head? = some '#' ∨ buf.head? = some ';' then some cfg
  else if '=' ∉ buf then none
  else
    let key := trim (buf.takeWhile (· != '='))
    let value := trim ((buf.dropWhile (· != '=')).drop 1)
    if key = [] then none
    else if key = "legacy_compat".toList then
      if value ∈ ["0".toList, "false".toList, "off".toList, "no".toList] then some false
      else if value ∈ ["1".toList, "true".toList, "on".toList, "yes".toList] then some true
      else none
    else some cfg

def fgetsLines (line : List Char) : List Char → List (List Char)
  | [] => if line = [] then [] else [line]
  | c :: text =>
    if c = '\n' ∨ line.length + 1 = 255 then (line ++ [c]) :: fgetsLines [] text
    else fgetsLines (line ++ [c]) text

def configLoad (conf : Option (List Char)) (cfg : Bool) : Bool :=
  match conf with
  | none => cfg
  | some text => (fgetsLines [] text).foldl (fun cfg line => (parseLine line cfg).getD cfg) cfg

def configText (legacy : Bool) : List Char :=
  "# MemDBG daemon persistent settings\n".toList ++
    "# Edited by MEMDBG_CMD_SET_SERVICES; survives payload restart.\n".toList ++
    "legacy_compat=".toList ++ [if legacy then '1' else '0'] ++ ['\n']

theorem configLoad_configText (w cfg : Bool) : configLoad (some (configText w)) cfg = w := by
  revert w cfg
  decide +kernel

/-! ## Requests -/

structure Listener where
  running : Bool
  listenFd : Bool
  threadStarted : Bool
  sockets : Nat
  threads : Nat
deriving DecidableEq

def Listener.down : Listener := ⟨false, false, false, 0, 0⟩

def Listener.up : Listener := ⟨true, true, true, 1, 1⟩

inductive SetAt where
  | idle
  | copied (want : Bool)
  | published (want : Bool)
  | starting
  | binding
  | spawning
  | closing
  | joining
  | saving (want : Bool) (status : Status)
  | replacing (want : Bool) (status : Status)
  | replying (want : Bool) (status : Status)
deriving DecidableEq

/-- The daemon, with a record of the wishes that it took up and has answered. -/
structure State where
  legacyPort : Nat
  enabled : Bool
  conf : Option (List Char)
  tmp : Option (List Char)
  listener : Listener
  clients : Nat → SetAt
  answered : List (Bool × Status)

def requested (setMask enableBits : BitVec 32) : Except Status Bool :=
  if setMask &&& ~~~1 ≠ 0 then .error .errUnsupported
  else if setMask = 0 then .error .errParam
  else .ok (enableBits &&& 1 ≠ 0)

def unsaved (status : Status) : Status := if status = .ok then .errIo else status

def State.setStep (s : State) (ok : Bool) : SetAt → Option (SetAt × State)
  | .idle => none
  | .copied want => some (.published want, { s with enabled := want })
  | .published true =>
    some (if s.listener.running then .saving true .ok else .starting, s)
  | .published false =>
    some (if s.listener.running then .closing else .saving false .ok,
      { s with listener := { s.listener with running := false } })
  | .starting =>
    if s.legacyPort = 0 then some (.saving true .errParam, s)
    else some (if s.listener.running then .saving true .ok else .binding,
      { s with listener := { s.listener with running := true } })
  | .binding =>
    if ok then some (.spawning, { s with
      listener := { s.listener with listenFd := true, sockets := s.listener.sockets + 1 } })
    else some (.saving true .errNet,
      { s with listener := { s.listener with running := false } })
  | .spawning =>
    if ok then some (.saving true .ok, { s with
      listener := { s.listener with threadStarted := true, threads := s.listener.threads + 1 } })
    else some (.saving true .errNet, { s with
      listener := { s.listener with
        running := false, listenFd := false, sockets := s.listener.sockets - 1 } })
  | .closing => some (.joining, { s with
      listener := { s.listener with
        listenFd := false, sockets := s.listener.sockets - s.listener.listenFd.toNat } })
  | .joining =>
    if s.listener.threadStarted && decide (0 < s.listener.threads) then none
    else some (.saving false .ok,
      { s with listener := { s.listener with threadStarted := false } })
  | .saving want status =>
    if ok then some (.replacing want status, { s with tmp := some (configText want) })
    else some (.replying want (unsaved status), s)
  | .replacing want status =>
    if ok && s.tmp.isSome then
      some (.replying want status, { s with conf := s.tmp, tmp := none })
    else some (.replying want (unsaved status), { s with tmp := none })
  | .replying want status => some (.idle, { s with answered := s.answered ++ [(want, status)] })

inductive Label where
  | request (c : Nat) (setMask enableBits : BitVec 32)
  | client (c : Nat) (ok : Bool)
  | exit
deriving DecidableEq

def State.step (s : State) : Label → Option State
  | .request c setMask enableBits =>
    match s.clients c, requested setMask enableBits with
    | .idle, .ok want => some { s with clients := update s.clients c (.copied want) }
    | .idle, .error _ => some s
    | _, _ => none
  | .client c ok => (s.setStep ok (s.clients c)).map fun (p, s') =>
      { s' with clients := update s.clients c p }
  | .exit =>
    if s.listener.running || s.listener.threads == 0 then none
    else some { s with listener := { s.listener with threads := s.listener.threads - 1 } }

/-! ## Agreement -/

/-- What is saved, what is said at run time and the listener agree on a wish. -/
structure State.Agrees (s : State) (want : Bool) : Prop where
  enabled : s.enabled = want
  conf : ∀ cfg, configLoad s.conf cfg = want
  listener : s.listener = if want then .up else .down

def SetAt.wish : SetAt → Option Bool
  | .idle => none
  | .copied _ => none
  | .published want => some want
  | .starting => some true
  | .binding => some true
  | .spawning => some true
  | .closing => some false
  | .joining => some false
  | .saving want _ => some want
  | .replacing want _ => some want
  | .replying _ _ => none

def Succeeds : Label → Prop
  | .client _ ok => ok = true
  | _ => True

/-- In addition the listener has a port to start on, and a wish is published only while no request
with the other wish is between its publication and the end of its save. -/
def Apart (s : State) : Label → Prop
  | .client c ok => ok = true ∧ (s.clients c = .starting → s.legacyPort ≠ 0) ∧
      ∀ want, s.clients c = .copied want → ∀ d w, (s.clients d).wish = some w → w = want
  | _ => True

/-! ### The invariant -/

def SetAt.asks : SetAt → Option Bool
  | .replying want _ => some want
  | p => p.wish

def SetAt.pending : SetAt → Bool
  | .published _ => true
  | .starting => true
  | _ => false

def SetAt.moves : SetAt → Bool
  | .binding => true
  | .spawning => true
  | .closing => true
  | .joining => true
  | _ => false

def Listener.At (l : Listener) : SetAt → Prop
  | .binding => l = ⟨true, false, false, 0, 0⟩
  | .spawning => l = ⟨true, true, false, 1, 0⟩
  | .closing => ∃ threads ≤ 1, l = ⟨false, true, true, 1, threads⟩
  | .joining => ∃ threads ≤ 1, l = ⟨false, false, true, 0, threads⟩
  | _ => l = .up ∨ l = .down

def State.Untouched (s : State) : Prop := s.answered = [] ∧ ∀ c, (s.clients c).asks = none

def Holds (conf : Option (List Char)) (want : Bool) : Prop := ∀ cfg, configLoad conf cfg = want

def State.TmpAt (s : State) : SetAt → Prop
  | .replacing want _ => s.tmp = some (configText want) ∨ s.tmp = none ∧ Holds s.conf want
  | _ => True

structure State.Inv (s : State) : Prop where
  wish : ∀ c w, (s.clients c).wish = some w → w = s.enabled
  lead : ∃ c, s.listener.At (s.clients c) ∧ ∀ d, d ≠ c → (s.clients d).moves = false
  toggled : s.Untouched ∨ s.listener.running = s.enabled ∨ ∃ c, (s.clients c).pending = true
  saved : s.Untouched ∨ Holds s.conf s.enabled ∨ ∃ c, (s.clients c).wish.isSome = true
  tmp : ∀ c, s.TmpAt (s.clients c)
  asked : s.Untouched ∨ (∃ r ∈ s.answered, r.1 = s.enabled) ∨
    ∃ c, (s.clients c).asks = some s.enabled

section Steps

variable {s s' : State} {c : Nat} {p : SetAt}

theorem exists_update {P : SetAt → Prop} {f : Nat → SetAt} (h : ∃ d, P (f d))
    (hc : P (f c) → P p) : ∃ d, P (update f c p d) := by
  obtain ⟨d, hd⟩ := h
  rcases eq_or_ne d c with rfl | hne
  · exact ⟨d, by rw [update_self]; exact hc hd⟩
  · exact ⟨d, by rw [update_of_ne hne]; exact hd⟩

theorem forall_update {P : SetAt → Prop} {f : Nat → SetAt} (hc : P p) (h : ∀ d, d ≠ c → P (f d))
    (d : Nat) : P (update f c p d) := by
  rcases eq_or_ne d c with rfl | hne
  · rw [update_self]
    exact hc
  · rw [update_of_ne hne]
    exact h d hne

theorem Listener.at_of_not_moves {l : Listener} (h : p.moves = false) :
    l.At p ↔ l = .up ∨ l = .down := by
  cases p <;> first | rfl | cases h

theorem asks_of_wish {w : Bool} (h : p.wish = some w) : p.asks = some w := by
  cases p <;> first | exact h | cases h

theorem State.Inv.still (hs : s.Inv) (h : s.listener.running ≠ s.enabled) :
    (∀ d, (s.clients d).moves = false) ∧ (s.listener = .up ∨ s.listener = .down) := by
  obtain ⟨c, hat, hrest⟩ := hs.lead
  cases hm : (s.clients c).moves with
  | false =>
    refine ⟨fun d => ?_, (Listener.at_of_not_moves hm).1 hat⟩
    rcases eq_or_ne d c with rfl | hne
    · exact hm
    · exact hrest d hne
  | true =>
    have hwish := hs.wish c
    refine absurd ?_ h
    cases hp : s.clients c <;> rw [hp] at hm hat hwish <;> try cases hm
    · rw [hat]
      exact hwish _ rfl
    · rw [hat]
      exact hwish _ rfl
    · obtain ⟨_, _, hl⟩ := hat
      rw [hl]
      exact hwish _ rfl
    · obtain ⟨_, _, hl⟩ := hat
      rw [hl]
      exact hwish _ rfl

theorem State.Inv.alone (hs : s.Inv) (h : (s.clients c).moves = true) :
    s.listener.At (s.clients c) ∧ ∀ d, d ≠ c → (s.clients d).moves = false := by
  obtain ⟨e, hat, hrest⟩ := hs.lead
  rcases eq_or_ne c e with rfl | hne
  · exact ⟨hat, hrest⟩
  · rw [hrest c hne] at h
    cases h

theorem State.Inv.lead_update (hs : s.Inv) (h : (s.clients c).moves = false)
    (hp : p.moves = false) : ∃ e, s.listener.At (update s.clients c p e) ∧
      ∀ d, d ≠ e → (update s.clients c p d).moves = false := by
  obtain ⟨e, hat, hrest⟩ := hs.lead
  refine ⟨e, ?_, fun d hd => ?_⟩
  · rcases eq_or_ne e c with rfl | hne
    · rw [update_self]
      exact (Listener.at_of_not_moves hp).2 ((Listener.at_of_not_moves h).1 hat)
    · rw [update_of_ne hne]
      exact hat
  · rcases eq_or_ne d c with rfl | hne
    · rw [update_self]
      exact hp
    · rw [update_of_ne hne]
      exact hrest d hd

theorem lead_self {l : Listener} {f : Nat → SetAt} (hat : l.At p)
    (hrest : ∀ d, d ≠ c → (f d).moves = false) : ∃ e, l.At (update f c p e) ∧
      ∀ d, d ≠ e → (update f c p d).moves = false :=
  ⟨c, by rwa [update_self], fun d hd => by
    rw [update_of_ne hd]
    exact hrest d hd⟩

theorem State.Inv.listens (hs : s.Inv) {l : Listener} (hw : p.wish = (s.clients c).wish)
    (hsome : p.wish.isSome = true) (htmp : ∀ s : State, s.TmpAt p)
    (hlead : ∃ e, l.At (update s.clients c p e) ∧
      ∀ d, d ≠ e → (update s.clients c p d).moves = false)
    (htoggled : l.running = s.enabled ∨ p.pending = true ∨
      l.running = s.listener.running ∧ (s.clients c).pending = false) :
    State.Inv { s with listener := l, clients := update s.clients c p } := by
  obtain ⟨w, hpw⟩ := Option.isSome_iff_exists.1 hsome
  have hcw : (s.clients c).asks = some w := asks_of_wish (hw ▸ hpw)
  have htouched : ¬ s.Untouched := fun h => by
    rw [h.2 c] at hcw
    cases hcw
  refine ⟨forall_update (P := fun q => ∀ w, q.wish = some w → w = s.enabled)
      (fun v hv => hs.wish c v (hw ▸ hv)) fun d _ => hs.wish d, hlead, .inr ?_, .inr ?_,
    forall_update (P := s.TmpAt) (htmp s) fun d _ => hs.tmp d, .inr ?_⟩
  · rcases htoggled with h | h | ⟨h, hc⟩
    · exact .inl h
    · exact .inr ⟨c, (congrArg SetAt.pending (update_self c p s.clients)).trans h⟩
    · refine (hs.toggled.resolve_left htouched).imp h.trans fun he =>
        exists_update (P := (·.pending = true)) he fun hp => ?_
      rw [hc] at hp
      cases hp
  · exact (hs.saved.resolve_left htouched).imp_right fun he =>
      exists_update (P := (·.wish.isSome = true)) he fun _ => hsome
  · exact (hs.asked.resolve_left htouched).imp_right fun he =>
      exists_update (P := (·.asks = some s.enabled)) he fun h => (asks_of_wish hpw).trans (hcw ▸ h)

theorem State.Inv.keeps (hs : s.Inv) {conf tmp : Option (List Char)}
    {answered : List (Bool × Status)} (hc : (s.clients c).moves = false)
    (hpending : (s.clients c).pending = false) (hp : p.moves = false)
    (hwish : ∀ w, p.wish = some w → w = s.enabled)
    (hs' : s' = { s with conf, tmp, answered, clients := update s.clients c p })
    (htouched : s.Untouched → s'.Untouched)
    (hsaved : Holds s.conf s.enabled ∨ (∃ d, (s.clients d).wish.isSome = true) →
      Holds conf s.enabled ∨ ∃ d, (s'.clients d).wish.isSome = true)
    (htmp : ∀ d, s'.TmpAt (s'.clients d))
    (hasked : (∃ r ∈ s.answered, r.1 = s.enabled) ∨ (∃ d, (s.clients d).asks = some s.enabled) →
      (∃ r ∈ answered, r.1 = s.enabled) ∨ ∃ d, (s'.clients d).asks = some s.enabled) :
    s'.Inv := by
  subst hs'
  refine ⟨forall_update (P := fun q => ∀ w, q.wish = some w → w = s.enabled) hwish
    fun d _ => hs.wish d, hs.lead_update hc hp, hs.toggled.imp htouched (Or.imp_right fun he => ?_),
    hs.saved.imp htouched hsaved, htmp, hs.asked.imp htouched hasked⟩
  refine exists_update (P := (·.pending = true)) he fun h => ?_
  rw [hpending] at h
  cases h

theorem State.not_untouched {w : Bool} (h : (s.clients c).asks = some w) :
    ¬ s.Untouched := fun hu => by
  rw [hu.2 c] at h
  cases h

theorem State.Inv.setStep (hs : s.Inv) (hport : s.clients c = .starting → s.legacyPort ≠ 0)
    (hcopied : ∀ want, s.clients c ≠ .copied want)
    (h : s.setStep true (s.clients c) = some (p, s')) :
    State.Inv { s' with clients := update s.clients c p } := by
  have hwish := hs.wish c
  have halone := @State.Inv.alone s c hs
  cases hc : s.clients c with
  | idle => rw [hc] at h; cases h
  | copied want => exact absurd hc (hcopied want)
  | published want =>
    rw [hc] at h hwish
    have hw : want = s.enabled := hwish want rfl
    cases want with
    | true =>
      cases h
      refine hs.listens ?_ ?_ ?_ (hs.lead_update (by rw [hc]; rfl) ?_) ?_ <;>
        cases hrun : s.listener.running
      all_goals try first | rfl | (rw [hc]; rfl) | exact fun _ => trivial
      · exact .inr (.inl rfl)
      · exact .inl hw
    | false =>
      cases h
      cases hrun : s.listener.running with
      | true =>
        obtain ⟨hidle, hl⟩ := hs.still (by rw [hrun, ← hw]; exact Bool.noConfusion)
        have hl : s.listener = .up := hl.resolve_right fun h => by rw [h] at hrun; cases hrun
        refine hs.listens (by rw [hc]; rfl) rfl (fun _ => trivial)
          (lead_self ⟨1, Nat.le_refl 1, ?_⟩ fun d _ => hidle d) (.inl hw)
        rw [hl]
        rfl
      | false =>
        have hl : { s.listener with running := false } = s.listener := by rw [← hrun]
        rw [hl]
        exact hs.listens (by rw [hc]; rfl) rfl (fun _ => trivial)
          (hs.lead_update (by rw [hc]; rfl) rfl) (.inl (hrun.trans hw))
  | starting =>
    rw [hc] at h hwish
    have hw : true = s.enabled := hwish true rfl
    rw [State.setStep, if_neg (hport hc)] at h
    cases h
    cases hrun : s.listener.running with
    | true =>
      have hl : { s.listener with running := true } = s.listener := by rw [← hrun]
      rw [hl]
      exact hs.listens (by rw [hc]; rfl) rfl (fun _ => trivial)
        (hs.lead_update (by rw [hc]; rfl) rfl) (.inl (hrun.trans hw))
    | false =>
      obtain ⟨hidle, hl⟩ := hs.still (by rw [hrun, ← hw]; exact Bool.noConfusion)
      have hl : s.listener = .down := hl.resolve_left fun h => by rw [h] at hrun; cases hrun
      refine hs.listens (by rw [hc]; rfl) rfl (fun _ => trivial)
        (lead_self ?_ fun d _ => hidle d) (.inl hw)
      rw [hl]
      rfl
  | binding =>
    obtain ⟨hat, hrest⟩ := halone (by rw [hc]; rfl)
    rw [hc] at h hat
    cases h
    refine hs.listens (by rw [hc]; rfl) rfl (fun _ => trivial) (lead_self ?_ hrest)
      (.inr (.inr ⟨rfl, by rw [hc]; rfl⟩))
    rw [hat]
    rfl
  | spawning =>
    obtain ⟨hat, hrest⟩ := halone (by rw [hc]; rfl)
    rw [hc] at h hat
    cases h
    refine hs.listens (by rw [hc]; rfl) rfl (fun _ => trivial) (lead_self (.inl ?_) hrest)
      (.inr (.inr ⟨rfl, by rw [hc]; rfl⟩))
    rw [hat]
    rfl
  | closing =>
    obtain ⟨hat, hrest⟩ := halone (by rw [hc]; rfl)
    rw [hc] at h hat
    obtain ⟨threads, hle, hl⟩ := hat
    cases h
    refine hs.listens (by rw [hc]; rfl) rfl (fun _ => trivial)
      (lead_self ⟨threads, hle, ?_⟩ hrest) (.inr (.inr ⟨rfl, by rw [hc]; rfl⟩))
    rw [hl]
    rfl
  | joining =>
    obtain ⟨hat, hrest⟩ := halone (by rw [hc]; rfl)
    rw [hc] at h hat
    obtain ⟨threads, hle, hl⟩ := hat
    rw [State.setStep, hl] at h
    cases threads with
    | succ n => cases h
    | zero =>
      cases h
      exact hs.listens (by rw [hc]; rfl) rfl (fun _ => trivial) (lead_self (.inr rfl) hrest)
        (.inr (.inr ⟨by rw [hl], by rw [hc]; rfl⟩))
  | saving want status =>
    rw [hc] at h hwish
    have hw : want = s.enabled := hwish want rfl
    cases h
    refine hs.keeps (p := .replacing want status) (by rw [hc]; rfl) (by rw [hc]; rfl) rfl hwish rfl
      (fun hu => absurd hu (State.not_untouched (by rw [hc]; rfl)))
      (fun _ => .inr ⟨c, by simp [SetAt.wish]⟩)
      (forall_update (P := State.TmpAt _) (.inl rfl) fun d _ => ?_)
      (fun _ => .inr ⟨c, by simp [SetAt.asks, SetAt.wish, hw]⟩)
    cases hd : s.clients d <;> try trivial
    rename_i v st
    refine .inl ?_
    have hv : v = s.enabled := hs.wish d v (by rw [hd]; rfl)
    rw [hv, ← hw]
  | replacing want status =>
    have htmp := hs.tmp c
    rw [hc] at h hwish htmp
    have hw : want = s.enabled := hwish want rfl
    obtain ⟨conf, st, hs', hconf⟩ : ∃ conf st, (p, s') = (.replying want st,
        { s with conf := conf, tmp := none }) ∧ Holds conf s.enabled := by
      rcases htmp with htmp | ⟨htmp, hholds⟩
      · rw [State.setStep, htmp] at h
        exact ⟨_, _, (Option.some.inj h).symm, fun cfg => hw ▸ configLoad_configText want cfg⟩
      · rw [State.setStep, htmp] at h
        exact ⟨_, _, (Option.some.inj h).symm, hw ▸ hholds⟩
    cases hs'
    refine hs.keeps (by rw [hc]; rfl) (by rw [hc]; rfl) rfl (fun _ h => by cases h) rfl
      (fun hu => absurd hu (State.not_untouched (by rw [hc]; rfl)))
      (fun _ => .inl hconf)
      (forall_update (P := State.TmpAt _) trivial fun d _ => ?_)
      (fun _ => .inr ⟨c, by simp [SetAt.asks, hw]⟩)
    cases hd : s.clients d <;> try trivial
    rename_i v st
    refine .inr ⟨rfl, ?_⟩
    have hv : v = s.enabled := hs.wish d v (by rw [hd]; rfl)
    rw [hv]
    exact hconf
  | replying want status =>
    rw [hc] at h
    cases h
    refine hs.keeps (by rw [hc]; rfl) (by rw [hc]; rfl) rfl (fun _ h => by cases h) rfl
      (fun hu => absurd hu (State.not_untouched (by rw [hc]; rfl)))
      (Or.imp_right fun he => exists_update (P := (·.wish.isSome = true)) he fun h => ?_)
      (forall_update (P := State.TmpAt _) trivial fun d _ => hs.tmp d) ?_
    · rw [hc] at h
      cases h
    · rintro (⟨r, hr, hr'⟩ | ⟨d, hd⟩)
      · exact .inl ⟨r, mem_append_left _ hr, hr'⟩
      · rcases eq_or_ne d c with rfl | hne
        · rw [hc] at hd
          exact .inl ⟨(want, status), mem_append_right _ mem_cons_self,
            Option.some.inj hd⟩
        · exact .inr ⟨d, by simpa [hne] using hd⟩

theorem State.Inv.publish (hs : s.Inv) {want : Bool} (hc : s.clients c = .copied want)
    (hapart : ∀ d w, (s.clients d).wish = some w → w = want) :
    State.Inv
      { s with enabled := want, clients := update s.clients c (.published want) } :=
  ⟨forall_update (P := fun q => ∀ w, q.wish = some w → w = want)
      (fun _ h => (Option.some.inj h).symm) fun d _ => hapart d,
    hs.lead_update (by rw [hc]; rfl) rfl,
    .inr (.inr ⟨c, congrArg SetAt.pending (update_self c _ s.clients)⟩),
    .inr (.inr ⟨c, congrArg (Option.isSome ·.wish) (update_self c _ s.clients)⟩),
    forall_update (P := s.TmpAt) trivial fun d _ => hs.tmp d,
    .inr (.inr ⟨c, congrArg SetAt.asks (update_self c _ s.clients)⟩)⟩

theorem State.Inv.request (hs : s.Inv) {want : Bool} (hc : s.clients c = .idle) :
    State.Inv { s with clients := update s.clients c (.copied want) } := by
  refine hs.keeps (p := .copied want) (by rw [hc]; rfl) (by rw [hc]; rfl) rfl
    (fun _ h => by cases h) rfl (fun hu => ⟨hu.1, ?_⟩)
    (Or.imp_right fun he => exists_update (P := (·.wish.isSome = true)) he fun h => ?_)
    (forall_update (P := State.TmpAt _) trivial fun d _ => hs.tmp d)
    (Or.imp_right fun he => exists_update (P := (·.asks = some s.enabled)) he fun h => ?_)
  · exact forall_update (P := (·.asks = none)) rfl fun d _ => hu.2 d
  · rw [hc] at h
    cases h
  · rw [hc] at h
    cases h

theorem State.Inv.exit (hs : s.Inv) (hrun : s.listener.running = false)
    (hthreads : s.listener.threads ≠ 0) :
    State.Inv { s with listener := { s.listener with threads := s.listener.threads - 1 } } := by
  obtain ⟨c, hat, hrest⟩ := hs.lead
  refine ⟨hs.wish, ⟨c, ?_, hrest⟩, hs.toggled, hs.saved, hs.tmp, hs.asked⟩
  have hidle : ¬ (s.listener = .up ∨ s.listener = .down) := by
    rintro (h | h) <;> rw [h] at hrun hthreads
    · cases hrun
    · exact hthreads rfl
  cases hc : s.clients c <;> rw [hc] at hat
  case binding => rw [hat] at hrun; cases hrun
  case spawning => rw [hat] at hrun; cases hrun
  case closing =>
    obtain ⟨threads, hle, hl⟩ := hat
    exact ⟨threads - 1, Nat.le_trans (Nat.sub_le ..) hle, by rw [hl]⟩
  case joining =>
    obtain ⟨threads, hle, hl⟩ := hat
    exact ⟨threads - 1, Nat.le_trans (Nat.sub_le ..) hle, by rw [hl]⟩
  all_goals exact absurd hat hidle

theorem State.Inv.step (hs : s.Inv) {a : Label} (hguard : Apart s a) (h : s.step a = some s') :
    s'.Inv := by
  cases a with
  | request c setMask enableBits =>
    unfold State.step at h
    dsimp only at h
    split at h
    next hc _ => exact Option.some.inj h ▸ hs.request hc
    next => exact Option.some.inj h ▸ hs
    next => cases h
  | client c ok =>
    obtain ⟨rfl, hport, hapart⟩ := hguard
    obtain ⟨⟨p, t⟩, ht, rfl⟩ := Option.map_eq_some_iff.1 h
    by_cases hcopied : ∃ want, s.clients c = .copied want
    · obtain ⟨want, hc⟩ := hcopied
      rw [hc] at ht
      cases ht
      exact hs.publish hc (hapart want hc)
    · exact hs.setStep hport (fun want hc => hcopied ⟨want, hc⟩) ht
  | exit =>
    unfold State.step at h
    dsimp only at h
    split at h
    next => cases h
    next hcond =>
      rw [Bool.or_eq_true, not_or, Bool.not_eq_true, beq_iff_eq] at hcond
      exact Option.some.inj h ▸ hs.exit hcond.1 hcond.2

end Steps

theorem Apart.goesOn {s : State} {c : Nat} (hcopied : ∀ want, s.clients c ≠ .copied want)
    (hport : s.legacyPort ≠ 0) : Apart s (.client c true) :=
  ⟨rfl, fun _ => hport, fun want h => absurd h (hcopied want)⟩

end MemDbg.Daemon.Services
