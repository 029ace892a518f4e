import MemDbg.FlashScan.Accounting

/-!
# The sessions of two clients

What a client is answered is compared with what it would be answered if nobody else were there.
The slots keep the clients apart, and the cancel flag does not: it is one for all.
-/

namespace MemDbg.FlashScan

open List Function Lib Scan

inductive ServerEvent where
  | call (c : Call)
  | close (fd : Nat)

namespace Call

def heard (fd : Nat) (c : Call) (reply : QsReply) : List QsReply :=
  if c.client = fd then [reply]
  else (c.cancels.filter fun k => k.client = fd).map fun _ => .done

def Sends (fd : Nat) (c : Call) : Prop := c.client = fd ∨ ∃ k ∈ c.cancels, k.client = fd

def cancelOf (fd : Nat) (env : RequestEnv) : Call := ⟨fd, .cancel, env, []⟩

def alone (fd : Nat) (c : Call) : List Call :=
  if c.client = fd then [{ c with cancels := [] }]
  else (c.cancels.filter fun k => k.client = fd).map fun _ => cancelOf fd c.env

end Call

namespace ServerEvent

def alone (fd : Nat) : ServerEvent → List ServerEvent
  | call c => (c.alone fd).map call
  | close _ => []

/-- A client sends one request at a time, and no other one cancels where a rescan of it looks at the
flag; the others leave the configuration as it is. -/
def Fair (fd : Nat) : ServerEvent → Prop
  | call c =>
    if c.client = fd then ∀ k ∈ c.cancels, k.client ≠ fd ∧ ∀ i, k.covers i = false
    else ∀ ramLimitMb, c.request ≠ .config ramLimitMb
  | close fd' => fd' ≠ fd

/-- A descriptor has nothing to do with an event. -/
def Spares (fd : Nat) : ServerEvent → Prop
  | call c => ¬ c.Sends fd
  | close _ => True

end ServerEvent

namespace Server

def hears (fd : Nat) : Server → List ServerEvent → Option (List QsReply × Server)
  | sv, [] => some ([], sv)
  | sv, .call c :: events => do
    let answer ← sv.serve c
    let (replies, sv') ← hears fd answer.server events
    some (c.heard fd answer.reply ++ replies, sv')
  | sv, .close fd' :: events => hears fd (sv.releaseClient fd') events

/-- A descriptor is the owner of a slot. -/
def Owns (sv : Server) (fd : Nat) : Prop := ∃ slot < maxSessions, sv.owner slot = some fd

/-! ## Slots -/

variable {sv sv' sv₁ : Server} {fd fd' slot : Nat}

theorem owner_of_find {o : Option Nat}
    (h : (List.range maxSessions).find? (fun slot => sv.owner slot = o) = some slot) :
    slot < maxSessions ∧ sv.owner slot = o := by
  have howner := find?_some h
  exact ⟨mem_range.mp (mem_of_find?_eq_some h), of_decide_eq_true howner⟩

theorem find_of_owns (h : sv.Owns fd) : ∃ slot < maxSessions, sv.owner slot = some fd ∧
    (List.range maxSessions).find? (fun slot => sv.owner slot = some fd) = some slot := by
  obtain ⟨slot, hslot, howner⟩ := h
  cases hfind : (List.range maxSessions).find? fun slot => sv.owner slot = some fd with
  | none =>
    have hnone := find?_eq_none.mp hfind slot (mem_range.mpr hslot)
    exact absurd (decide_eq_true howner) hnone
  | some found =>
    exact ⟨found, (owner_of_find hfind).1, (owner_of_find hfind).2, rfl⟩

theorem slotForClient_of_owns (h : sv.Owns fd) :
    ∃ slot < maxSessions, sv.owner slot = some fd ∧ sv.slotForClient fd = some (slot, sv) := by
  obtain ⟨slot, hslot, howner, hfind⟩ := find_of_owns h
  exact ⟨slot, hslot, howner, by rw [slotForClient, hfind]⟩

theorem slotForClient_spec (h : sv.slotForClient fd = some (slot, sv')) :
    slot < maxSessions ∧ (sv.owner slot = some fd ∧ sv' = sv ∨
      ¬ sv.Owns fd ∧ sv.owner slot = none ∧
        sv' = { sv with owner := Function.update sv.owner slot (some fd) }) := by
  rw [slotForClient] at h
  split at h
  · rename_i found hfind
    obtain ⟨rfl, rfl⟩ := Prod.mk.inj (Option.some.inj h)
    exact ⟨(owner_of_find hfind).1, .inl ⟨(owner_of_find hfind).2, rfl⟩⟩
  · rename_i hnone
    split at h
    · rename_i found hfind
      obtain ⟨rfl, rfl⟩ := Prod.mk.inj (Option.some.inj h)
      refine ⟨(owner_of_find hfind).1, .inr ⟨?_, (owner_of_find hfind).2, rfl⟩⟩
      rintro ⟨slot, hslot, howner⟩
      exact find?_eq_none.mp hnone slot (mem_range.mpr hslot) (decide_eq_true howner)
    · cases h

/-! ## One client -/

structure Same (fd : Nat) (sv sv₁ : Server) : Prop where
  owner : ∀ slot, sv₁.owner slot = some fd ↔ sv.owner slot = some fd
  slots : ∀ slot, sv.owner slot = some fd → sv₁.slots slot = sv.slots slot
  ramLimit : sv₁.ramLimit = sv.ramLimit

namespace Same

theorem refl (fd : Nat) (sv : Server) : Same fd sv sv := ⟨fun _ => Iff.rfl, fun _ _ => rfl, rfl⟩

theorem symm (h : Same fd sv sv₁) : Same fd sv₁ sv :=
  ⟨fun slot ↦ (h.owner slot).symm, fun slot howner ↦ (h.slots slot ((h.owner slot).mp howner)).symm,
    h.ramLimit.symm⟩

theorem trans {sv₂ : Server} (h : Same fd sv sv₁) (h₁ : Same fd sv₁ sv₂) : Same fd sv sv₂ where
  owner slot := (h₁.owner slot).trans (h.owner slot)
  slots slot howner := (h₁.slots slot ((h.owner slot).mpr howner)).trans (h.slots slot howner)
  ramLimit := h₁.ramLimit.trans h.ramLimit

theorem owns (h : Same fd sv sv₁) (hown : sv.Owns fd) : sv₁.Owns fd := by
  obtain ⟨slot, hslot, howner⟩ := hown
  exact ⟨slot, hslot, (h.owner slot).mpr howner⟩

theorem slotForClient (h : Same fd sv sv₁) (hown : sv.Owns fd) :
    ∃ slot < maxSessions, sv.owner slot = some fd ∧ sv.slotForClient fd = some (slot, sv) ∧
      sv₁.slotForClient fd = some (slot, sv₁) := by
  obtain ⟨slot, hslot, howner, hfind⟩ := find_of_owns hown
  have hpred : (fun slot => decide (sv₁.owner slot = some fd)) =
      fun slot => decide (sv.owner slot = some fd) := by
    funext slot
    exact decide_eq_decide.mpr (h.owner slot)
  refine ⟨slot, hslot, howner, by rw [Server.slotForClient, hfind], ?_⟩
  rw [Server.slotForClient, hpred, hfind]

theorem update (h : Same fd sv sv₁) (slot : Nat) (x : Slot) :
    Same fd { sv with slots := Function.update sv.slots slot x }
      { sv₁ with slots := Function.update sv₁.slots slot x } where
  owner := h.owner
  slots j hj := by
    dsimp only
    by_cases heq : j = slot
    · rw [heq, update_self, update_self]
    · rw [update_of_ne heq, update_of_ne heq]
      exact h.slots j hj
  ramLimit := h.ramLimit

end Same

theorem same_of_slotForClient (hne : fd' ≠ fd)
    (h : sv.slotForClient fd' = some (slot, sv')) : Same fd sv sv' ∧ sv'.owner slot = some fd' := by
  obtain ⟨-, ⟨howner, rfl⟩ | ⟨-, hfree, rfl⟩⟩ := slotForClient_spec h
  · exact ⟨.refl fd _, howner⟩
  · refine ⟨⟨fun j => ?_, fun _ _ => rfl, rfl⟩, update_self ..⟩
    dsimp only
    by_cases heq : j = slot
    · subst heq
      rw [update_self, hfree]
      exact ⟨fun h => absurd (Option.some.inj h) hne, nofun⟩
    · rw [update_of_ne heq]

theorem same_of_update (hne : sv.owner slot ≠ some fd) (x : Slot) :
    Same fd sv { sv with slots := Function.update sv.slots slot x } where
  owner _ := Iff.rfl
  slots j hj := by
    have heq : j ≠ slot := by
      rintro rfl
      exact hne hj
    exact update_of_ne heq _ _
  ramLimit := rfl

theorem owner_of_slotForClient (h : sv.slotForClient fd' = some (slot, sv')) {j : Nat}
    (hj : sv.owner j = some fd) : sv'.owner j = some fd := by
  obtain ⟨-, ⟨-, rfl⟩ | ⟨-, hfree, rfl⟩⟩ := slotForClient_spec h
  · exact hj
  · have heq : j ≠ slot := by
      rintro rfl
      rw [hfree] at hj
      cases hj
    exact (update_of_ne heq _ _).trans hj

/-! ## Cancels -/

theorem same_cancel_of_ne (hne : fd' ≠ fd) (sv : Server) : Same fd sv (sv.cancel fd') := by
  rw [cancel]
  split
  · rename_i slot sv' hslot
    obtain ⟨hsame, howner⟩ := same_of_slotForClient hne hslot
    refine hsame.trans (same_of_update ?_ _)
    rw [howner]
    exact fun h => hne (Option.some.inj h)
  · exact .refl fd sv

theorem Same.cancel (h : Same fd sv sv₁) (hown : sv.Owns fd) :
    Same fd (sv.cancel fd) (sv₁.cancel fd) := by
  obtain ⟨slot, -, -, hslot, hslot₁⟩ := h.slotForClient hown
  rw [Server.cancel, Server.cancel, hslot, hslot₁]
  exact h.update slot .clear

theorem owner_cancel (sv : Server) {j : Nat} (hj : sv.owner j = some fd) :
    (sv.cancel fd').owner j = some fd := by
  rw [cancel]
  split
  · rename_i slot sv' hslot
    exact owner_of_slotForClient hslot hj
  · exact hj

theorem owner_cancelAll (cancels : List OverlappingCancel) {j : Nat} (hj : sv.owner j = some fd) :
    (sv.cancelAll cancels).owner j = some fd := by
  induction cancels generalizing sv with
  | nil => exact hj
  | cons k rest ih => exact ih (owner_cancel sv hj)

theorem Owns.cancel (h : sv.Owns fd) (fd' : Nat) : (sv.cancel fd').Owns fd := by
  obtain ⟨slot, hslot, howner⟩ := h
  exact ⟨slot, hslot, owner_cancel sv howner⟩

theorem Owns.cancelAll (h : sv.Owns fd) (cancels : List OverlappingCancel) :
    (sv.cancelAll cancels).Owns fd := by
  obtain ⟨slot, hslot, howner⟩ := h
  exact ⟨slot, hslot, owner_cancelAll cancels howner⟩

theorem Same.cancelAll (h : Same fd sv sv₁) (hown : sv.Owns fd)
    (cancels : List OverlappingCancel) :
    Same fd (sv.cancelAll cancels)
      (sv₁.cancelAll (cancels.filter fun k => k.client = fd)) := by
  induction cancels generalizing sv sv₁ with
  | nil => exact h
  | cons k rest ih =>
    by_cases hk : k.client = fd
    · rw [filter_cons_of_pos (by exact decide_eq_true hk)]
      have hsame : Same fd (sv.cancel k.client) (sv₁.cancel k.client) := by
        rw [hk]
        exact h.cancel hown
      exact ih hsame (hown.cancel _)
    · rw [filter_cons_of_neg (by rw [decide_eq_true_iff]; exact hk)]
      have hsame : Same fd (sv.cancel k.client) sv₁ := (same_cancel_of_ne hk sv).symm.trans h
      exact ih hsame (hown.cancel _)

/-! ## Calls -/

variable {c : Call} {answer : Answer}

theorem serve_config {ramLimitMb : Nat} (hconfig : c.request = .config ramLimitMb) :
    sv.serve c = some ⟨.done, { sv.cancelAll c.cancels with
      ramLimit := if ramLimitMb = 0 then 512 * 2 ^ 20 else ramLimitMb * 2 ^ 20 }, none⟩ := by
  rw [serve, hconfig]

theorem serve_of_ne (hconfig : ∀ ramLimitMb, c.request ≠ .config ramLimitMb) :
    sv.serve c =
      match c.request.check with
      | .error status => some ⟨.error status, sv.cancelAll c.cancels, none⟩
      | .ok (compareData, mask) =>
        match sv.slotForClient c.client with
        | none => some ⟨.error .errState, sv.cancelAll c.cancels, none⟩
        | some (slot, sv) =>
          (c.request.handle c.fsEnv c.env (sv.cancelAll c.cancels).ramLimit compareData mask
            ((sv.cancelAll c.cancels).slots slot)).bind fun served =>
              some ⟨served.reply, { sv.cancelAll c.cancels with
                slots := Function.update (sv.cancelAll c.cancels).slots slot served.slot },
                served.counted⟩ := by
  rw [serve]
  split
  · rename_i ramLimitMb hrequest
    exact absurd hrequest (hconfig ramLimitMb)
  · rfl

theorem Same.serve (h : Same fd sv sv₁) (hown : sv.Owns fd) (hc : c.client = fd)
    (hfair : ∀ k ∈ c.cancels, k.client ≠ fd ∧ ∀ i, k.covers i = false)
    (hserve : sv.serve c = some answer) :
    ∃ answer₁, sv₁.serve { c with cancels := [] } = some answer₁ ∧
      answer₁.reply = answer.reply ∧ Same fd answer.server answer₁.server ∧
        answer.server.Owns fd := by
  have hcancels : (c.cancels.filter fun k => k.client = fd) = [] :=
    filter_eq_nil_iff.mpr fun k hk => by simp [(hfair k hk).1]
  have hsame : Same fd (sv.cancelAll c.cancels) sv₁ := by
    have hall := h.cancelAll hown c.cancels
    rwa [hcancels] at hall
  have henv : ({ c with cancels := [] } : Call).fsEnv = c.fsEnv := by
    have hcovers : (fun i => c.cancels.any fun k => k.covers i) = fun _ => false := by
      funext i
      rw [any_eq_false]
      exact fun k hk => Bool.not_eq_true _ ▸ (hfair k hk).2 i
    rw [Call.fsEnv, Call.fsEnv, hcovers]
    rfl
  by_cases hconfig : ∃ ramLimitMb, c.request = .config ramLimitMb
  · obtain ⟨ramLimitMb, hconfig⟩ := hconfig
    rw [serve_config hconfig] at hserve
    obtain rfl := Option.some.inj hserve
    exact ⟨_, serve_config (c := { c with cancels := [] }) hconfig, rfl,
      ⟨hsame.owner, hsame.slots, rfl⟩, hown.cancelAll _⟩
  · have hconfig : ∀ ramLimitMb, c.request ≠ .config ramLimitMb := not_exists.mp hconfig
    rw [serve_of_ne hconfig] at hserve
    rw [serve_of_ne (c := { c with cancels := [] }) hconfig, henv]
    generalize c.request.check = checked at hserve ⊢
    cases checked with
    | error status =>
      obtain rfl := Option.some.inj hserve
      exact ⟨_, rfl, rfl, hsame, hown.cancelAll _⟩
    | ok pointers =>
      obtain ⟨slot, -, howner, hslot, hslot₁⟩ := h.slotForClient hown
      rw [hc, hslot] at hserve
      rw [hc, hslot₁]
      dsimp only at hserve ⊢
      obtain ⟨served, hserved, hserve⟩ := Option.bind_eq_some_iff.mp hserve
      obtain rfl := Option.some.inj hserve
      have hnil : sv₁.cancelAll [] = sv₁ := rfl
      rw [hnil, hsame.ramLimit, hsame.slots slot (owner_cancelAll _ howner), hserved]
      refine ⟨_, rfl, rfl, ?_, hown.cancelAll c.cancels⟩
      have hupdate := hsame.update slot served.slot
      exact ⟨hupdate.owner, hupdate.slots, rfl⟩

theorem same_of_serve (hown : sv.Owns fd) (hne : c.client ≠ fd)
    (hconfig : ∀ ramLimitMb, c.request ≠ .config ramLimitMb)
    (hserve : sv.serve c = some answer) :
    Same fd (sv.cancelAll c.cancels) answer.server ∧ answer.server.Owns fd := by
  have hkeep : Same fd (sv.cancelAll c.cancels) answer.server := by
    rw [serve_of_ne hconfig] at hserve
    generalize c.request.check = checked at hserve
    cases checked with
    | error status =>
      obtain rfl := Option.some.inj hserve
      exact .refl fd _
    | ok pointers =>
      cases hslot : sv.slotForClient c.client with
      | none =>
        rw [hslot] at hserve
        obtain rfl := Option.some.inj hserve
        exact .refl fd _
      | some found =>
        obtain ⟨slot, sv'⟩ := found
        rw [hslot] at hserve
        obtain ⟨served, -, hserve⟩ := Option.bind_eq_some_iff.mp hserve
        obtain rfl := Option.some.inj hserve
        obtain ⟨hsame, howner⟩ := same_of_slotForClient hne hslot
        have hother : (sv'.cancelAll c.cancels).owner slot ≠ some fd := by
          rw [owner_cancelAll c.cancels howner]
          exact fun heq => hne (Option.some.inj heq)
        have hboth := (Same.refl fd sv).cancelAll hown c.cancels
        have hboth' := hsame.symm.cancelAll (hsame.owns hown) c.cancels
        exact (hboth.trans hboth'.symm).trans (same_of_update hother _)
  exact ⟨hkeep, hkeep.owns (hown.cancelAll _)⟩

theorem serve_cancelOf (hown : sv.Owns fd) (env : RequestEnv) :
    sv.serve (Call.cancelOf fd env) = some ⟨.done, sv.cancel fd, none⟩ := by
  obtain ⟨slot, -, -, hslot⟩ := slotForClient_of_owns hown
  have hcheck : (Call.cancelOf fd env).request.check = .ok (none, none) := rfl
  have hclient : (Call.cancelOf fd env).client = fd := rfl
  rw [serve_of_ne (c := Call.cancelOf fd env) nofun, Server.cancel, hcheck, hclient]
  rw [hslot]
  rfl

/-! ## Runs -/

theorem Owns.releaseClient (h : sv.Owns fd) (hne : fd' ≠ fd) :
    Same fd sv (sv.releaseClient fd') ∧ (sv.releaseClient fd').Owns fd := by
  have hsame : Same fd sv (sv.releaseClient fd') := by
    rw [Server.releaseClient]
    split
    · rename_i slot hfind
      have howner := (owner_of_find hfind).2
      have hother : ∀ j, sv.owner j = some fd → j ≠ slot := by
        rintro j hj rfl
        exact hne (Option.some.inj (howner.symm.trans hj))
      refine ⟨fun j => ?_, fun j hj => update_of_ne (hother j hj) _ _, rfl⟩
      dsimp only
      by_cases heq : j = slot
      · subst heq
        rw [update_self]
        exact ⟨(by rintro ⟨⟩), fun hj => absurd rfl (hother j hj)⟩
      · rw [update_of_ne heq]
    · exact .refl fd sv
  exact ⟨hsame, hsame.owns h⟩

theorem hears_cancels (h : Same fd sv sv₁) (hown : sv.Owns fd) (env : RequestEnv)
    (cancels : List OverlappingCancel) (hcancels : ∀ k ∈ cancels, k.client = fd)
    (events : List ServerEvent) :
    sv₁.hears fd (cancels.map (fun _ => .call (Call.cancelOf fd env)) ++ events) =
      ((sv₁.cancelAll cancels).hears fd events).map fun p =>
        (cancels.map (fun _ => QsReply.done) ++ p.1, p.2) := by
  induction cancels generalizing sv sv₁ with
  | nil =>
    rw [map_nil, nil_append, map_nil]
    exact Option.map_id'.symm
  | cons k rest ih =>
    obtain ⟨hk, hrest⟩ := forall_mem_cons.mp hcancels
    have hown₁ := h.owns hown
    have hheard : (Call.cancelOf fd env).heard fd .done = [.done] := if_pos rfl
    rw [map_cons, cons_append, hears, serve_cancelOf hown₁, Option.bind_eq_bind,
      Option.bind_some, ih (h.cancel hown) (hown.cancel fd) hrest, hheard]
    have hfirst : sv₁.cancelAll (k :: rest) = (sv₁.cancel fd).cancelAll rest := by
      rw [← hk]
      rfl
    rw [hfirst]
    cases ((sv₁.cancel fd).cancelAll rest).hears fd events with
    | none => rfl
    | some p => rfl

theorem Same.hears {events : List ServerEvent} {replies : List QsReply}
    (h : Same fd sv sv₁) (hown : sv.Owns fd) (hfair : ∀ e ∈ events, e.Fair fd)
    (hrun : sv.hears fd events = some (replies, sv')) :
    ∃ sv₂, sv₁.hears fd (events.flatMap (·.alone fd)) = some (replies, sv₂) := by
  induction events generalizing sv sv₁ replies with
  | nil =>
    obtain ⟨rfl, -⟩ := Prod.mk.inj (Option.some.inj hrun)
    exact ⟨sv₁, rfl⟩
  | cons e events ih =>
    obtain ⟨he, hrest⟩ := forall_mem_cons.mp hfair
    cases e with
    | call c =>
      rw [Server.hears] at hrun
      obtain ⟨answer, hserve, hrun⟩ := Option.bind_eq_some_iff.mp hrun
      obtain ⟨p, hevents, hrun⟩ := Option.bind_eq_some_iff.mp hrun
      obtain ⟨rest, sv''⟩ := p
      obtain ⟨rfl, rfl⟩ := Prod.mk.inj (Option.some.inj hrun)
      rw [flatMap_cons, ServerEvent.alone, Call.alone, Call.heard]
      by_cases hc : c.client = fd
      · rw [ServerEvent.Fair, if_pos hc] at he
        obtain ⟨answer₁, hserve₁, hreply, hsame, hown'⟩ := h.serve hown hc he hserve
        obtain ⟨sv₂, hrun₂⟩ := ih hsame hown' hrest hevents
        have hheard : ({ c with cancels := [] } : Call).heard fd answer₁.reply =
            [answer₁.reply] := if_pos hc
        refine ⟨sv₂, ?_⟩
        rw [if_pos hc, if_pos hc, map_singleton, singleton_append, Server.hears,
          hserve₁, Option.bind_eq_bind, Option.bind_some, hrun₂, hheard, hreply]
        rfl
      · rw [ServerEvent.Fair, if_neg hc] at he
        obtain ⟨hsame, hown'⟩ := same_of_serve hown hc he hserve
        have hall := (h.cancelAll hown c.cancels).symm.trans hsame
        obtain ⟨sv₂, hrun₂⟩ := ih hall.symm hown' hrest hevents
        refine ⟨sv₂, ?_⟩
        rw [if_neg hc, if_neg hc, map_map]
        have hcancels := hears_cancels h hown c.env (c.cancels.filter fun k => k.client = fd)
          (fun k hk => by simpa using (mem_filter.mp hk).2)
          (events.flatMap (·.alone fd))
        rw [hrun₂] at hcancels
        exact hcancels
    | close fd' =>
      obtain ⟨hsame, hown'⟩ := hown.releaseClient he
      exact ih (hsame.symm.trans h) hown' hrest hrun

/-! ## Descriptors that are used again -/

theorem serve_induction {P : Server → Prop} (hlimit : ∀ sv n, P sv → P { sv with ramLimit := n })
    (hslot : ∀ sv fd slot sv', c.Sends fd → P sv → sv.slotForClient fd = some (slot, sv') → P sv')
    (hupdate : ∀ sv fd slot x, P sv → sv.owner slot = some fd →
      P { sv with slots := Function.update sv.slots slot x })
    (h : P sv) (hserve : sv.serve c = some answer) : P answer.server := by
  have hcancel : ∀ cancels : List OverlappingCancel, (∀ k ∈ cancels, c.Sends k.client) →
      ∀ sv, P sv → P (sv.cancelAll cancels) := by
    intro cancels
    induction cancels with
    | nil => exact fun _ _ h => h
    | cons k rest ih =>
      intro hsends sv h
      obtain ⟨hk, hrest⟩ := forall_mem_cons.mp hsends
      refine ih hrest (sv.cancel k.client) ?_
      rw [Server.cancel]
      split
      · rename_i slot sv' hfound
        obtain ⟨-, ⟨howner, rfl⟩ | ⟨-, -, hclaim⟩⟩ := slotForClient_spec hfound
        · exact hupdate _ _ _ _ h howner
        · refine hupdate _ k.client _ _ (hslot _ _ _ _ hk h hfound) ?_
          rw [hclaim]
          exact update_self ..
      · exact h
  have hall : ∀ sv, P sv → P (sv.cancelAll c.cancels) :=
    hcancel c.cancels fun k hk => .inr ⟨k, hk, rfl⟩
  by_cases hconfig : ∃ ramLimitMb, c.request = .config ramLimitMb
  · obtain ⟨ramLimitMb, hconfig⟩ := hconfig
    rw [serve_config hconfig] at hserve
    obtain rfl := Option.some.inj hserve
    exact hlimit _ _ (hall sv h)
  · rw [serve_of_ne (not_exists.mp hconfig)] at hserve
    generalize c.request.check = checked at hserve
    cases checked with
    | error status =>
      obtain rfl := Option.some.inj hserve
      exact hall sv h
    | ok pointers =>
      cases hfound : sv.slotForClient c.client with
      | none =>
        rw [hfound] at hserve
        obtain rfl := Option.some.inj hserve
        exact hall sv h
      | some found =>
        obtain ⟨slot, sv'⟩ := found
        rw [hfound] at hserve
        obtain ⟨served, -, hserve⟩ := Option.bind_eq_some_iff.mp hserve
        obtain rfl := Option.some.inj hserve
        have howner : sv'.owner slot = some c.client := by
          obtain ⟨-, ⟨howner, rfl⟩ | ⟨-, -, rfl⟩⟩ := slotForClient_spec hfound
          · exact howner
          · exact update_self ..
        exact hupdate _ c.client _ _ (hall sv' (hslot _ _ _ _ (.inl rfl) h hfound))
          (owner_cancelAll _ howner)

structure Tidy (sv : Server) : Prop where
  clear : ∀ slot, sv.owner slot = none → sv.slots slot = .clear
  single : ∀ fd i j, sv.owner i = some fd → sv.owner j = some fd → i = j
  bound : ∀ fd slot, sv.owner slot = some fd → slot < maxSessions

theorem tidy_init : Tidy init := ⟨fun _ _ => rfl, nofun, nofun⟩

namespace Tidy

theorem slotForClient (h : sv.Tidy) (hslot : sv.slotForClient fd = some (slot, sv')) :
    sv'.Tidy := by
  obtain ⟨hlt, ⟨-, rfl⟩ | ⟨hnone, hfree, rfl⟩⟩ := slotForClient_spec hslot
  · exact h
  · have hother : ∀ {j fd'}, j ≠ slot → Function.update sv.owner slot (some fd) j = fd' →
        sv.owner j = fd' := fun hj howner => (update_of_ne hj _ _).symm.trans howner
    have hnew : ∀ {fd'}, Function.update sv.owner slot (some fd) slot = some fd' → fd' = fd := by
      intro fd' howner
      rw [update_self] at howner
      exact (Option.some.inj howner).symm
    have hfresh : ∀ j, sv.owner j ≠ some fd := fun j hj => hnone ⟨j, h.bound fd j hj, hj⟩
    refine ⟨?_, ?_, ?_⟩
    · intro j hj
      by_cases heq : j = slot
      · subst heq
        exact h.clear j hfree
      · exact h.clear j (hother heq hj)
    · intro fd' i j hi hj
      by_cases hi' : i = slot
      · by_cases hj' : j = slot
        · rw [hi', hj']
        · subst hi'
          rw [hnew hi] at hj
          exact absurd (hother hj' hj) (hfresh j)
      · by_cases hj' : j = slot
        · subst hj'
          rw [hnew hj] at hi
          exact absurd (hother hi' hi) (hfresh i)
        · exact h.single fd' i j (hother hi' hi) (hother hj' hj)
    · intro fd' j hj
      by_cases heq : j = slot
      · rw [heq]
        exact hlt
      · exact h.bound fd' j (hother heq hj)

theorem update (h : sv.Tidy) (howner : sv.owner slot = some fd) (x : Slot) :
    ({ sv with slots := Function.update sv.slots slot x } : Server).Tidy := by
  refine ⟨fun j hj => ?_, h.single, h.bound⟩
  have heq : j ≠ slot := by
    rintro rfl
    exact absurd (howner.symm.trans hj) nofun
  exact (update_of_ne heq _ _).trans (h.clear j hj)

theorem serve (h : sv.Tidy) (hserve : sv.serve c = some answer) : answer.server.Tidy :=
  serve_induction (P := Tidy) (fun _ _ h => ⟨h.clear, h.single, h.bound⟩)
    (fun _ _ _ _ _ h hslot => h.slotForClient hslot) (fun _ _ _ x h howner => h.update howner x)
    h hserve

theorem releaseClient (h : sv.Tidy) (fd : Nat) :
    (sv.releaseClient fd).Tidy ∧ ∀ slot, (sv.releaseClient fd).owner slot ≠ some fd := by
  rw [Server.releaseClient]
  split
  · rename_i slot hfind
    have howner := (owner_of_find hfind).2
    have hother : ∀ {j fd'}, j ≠ slot → Function.update sv.owner slot none j = fd' →
        sv.owner j = fd' := fun hj howner => (update_of_ne hj _ _).symm.trans howner
    have hne : ∀ {j fd'}, Function.update sv.owner slot none j = some fd' → j ≠ slot := by
      rintro j fd' hj rfl
      rw [update_self] at hj
      cases hj
    refine ⟨⟨?_, ?_, ?_⟩, ?_⟩
    · intro j hj
      dsimp only
      by_cases heq : j = slot
      · rw [heq, update_self]
      · rw [update_of_ne heq]
        exact h.clear j (hother heq hj)
    · exact fun fd' i j hi hj => h.single fd' i j (hother (hne hi) hi) (hother (hne hj) hj)
    · exact fun fd' j hj => h.bound fd' j (hother (hne hj) hj)
    · exact fun j hj => hne hj (h.single fd j slot (hother (hne hj) hj) howner)
  · rename_i hfind
    refine ⟨h, fun slot howner => ?_⟩
    exact find?_eq_none.mp hfind slot (mem_range.mpr (h.bound fd slot howner))
      (decide_eq_true howner)

variable {p : List QsReply × Server}

theorem hears {events : List ServerEvent} (h : sv.Tidy)
    (hrun : sv.hears fd events = some p) : p.2.Tidy := by
  induction events generalizing sv p with
  | nil =>
    obtain rfl := Option.some.inj hrun
    exact h
  | cons e events ih =>
    cases e with
    | call c =>
      obtain ⟨answer, hserve, hrun⟩ := Option.bind_eq_some_iff.mp hrun
      obtain ⟨p', hevents, hrun⟩ := Option.bind_eq_some_iff.mp hrun
      obtain rfl := Option.some.inj hrun
      exact ih (p := p') (h.serve hserve) hevents
    | close fd' => exact ih (h.releaseClient fd').1 hrun

end Tidy

def answers (fd : Nat) (sv : Server) (events : List ServerEvent) : Option (List QsReply) :=
  (sv.hears fd events).map Prod.fst

end Server

end MemDbg.FlashScan
