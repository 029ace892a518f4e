import MemDbg.Core.Status
import MemDbg.Lib.Transition
import Mathlib.Data.Finset.Card

/-!
# The rate limit of the acceptor

The acceptor keeps a count and a window start for each of up to 64 peers.  A window
that has expired starts anew with the next connection, whatever was accepted shortly
before; so the documented bound on every sliding window holds as long as no window is
started for a peer with a recent connection.
-/

namespace MemDbg.Daemon

open List Lib

def acceptRateLimit : Nat := 8

def acceptRateWindowS : Nat := 60

def acceptRateTracked : Nat := 64

structure RateEntry where
  peerAddress : Nat
  count : Nat
  windowStartS : Nat
deriving DecidableEq

def RateEntry.free (e : RateEntry) : Bool := e.peerAddress == 0 && e.count == 0

def RateEntry.isOf (e : RateEntry) (peer : Nat) : Bool := !e.free && e.peerAddress == peer

def rateSlot (table : List RateEntry) (peer : Nat) : Option Nat :=
  match table.findIdx? fun e => e.isOf peer with
  | some slot => some slot
  | none => table.findIdx? RateEntry.free

def oldestSlot : List RateEntry → Nat → Nat → Nat → Nat
  | [], _, _, slot => slot
  | e :: rest, i, oldestTs, slot =>
    if e.windowStartS < oldestTs then oldestSlot rest (i + 1) e.windowStartS i
    else oldestSlot rest (i + 1) oldestTs slot

def acceptRateCheck (table : List RateEntry) (peer nowS : Nat) : Bool × List RateEntry :=
  match rateSlot table peer with
  | none => (true, table.set (oldestSlot table 0 (2 ^ 64 - 1) acceptRateTracked) ⟨peer, 1, nowS⟩)
  | some slot =>
    let entry := table.getD slot ⟨0, 0, 0⟩
    if entry.windowStartS = 0 then (true, table.set slot ⟨peer, 1, nowS⟩)
    else if acceptRateWindowS ≤ sub64 nowS entry.windowStartS then
      (true, table.set slot { entry with windowStartS := nowS, count := 1 })
    else if acceptRateLimit ≤ entry.count then (false, table)
    else (true, table.set slot { entry with count := entry.count + 1 })

/-! ## Attempts -/

structure RateWorld where
  table : List RateEntry
  accepted : List (Nat × Nat)
  clock : Nat
deriving DecidableEq

def RateWorld.init : RateWorld where
  table := List.replicate acceptRateTracked ⟨0, 0, 0⟩
  accepted := []
  clock := 0

def RateWorld.attempt (w : RateWorld) (c : Nat × Nat) : Option RateWorld :=
  if w.clock ≤ c.2 ∧ c.2 < 2 ^ 64 then
    let (ok, table) := acceptRateCheck w.table c.1 c.2
    some ⟨table, if ok then w.accepted ++ [c] else w.accepted, c.2⟩
  else none

def inWindow (peer a : Nat) (c : Nat × Nat) : Bool :=
  c.1 == peer && (decide (a ≤ c.2) && decide (c.2 < a + acceptRateWindowS))

/-- In no window has a peer more connections than the limit. -/
def WithinLimit (accepted : List (Nat × Nat)) : Prop :=
  ∀ peer a, accepted.countP (inWindow peer a) ≤ acceptRateLimit

def RateWorld.Restarts (w : RateWorld) (c : Nat × Nat) : Prop :=
  ∃ e ∈ w.table, e.isOf c.1 = true ∧
    (e.windowStartS = 0 ∨ e.windowStartS + acceptRateWindowS ≤ c.2)

instance (w : RateWorld) (c : Nat × Nat) : Decidable (w.Restarts c) :=
  inferInstanceAs (Decidable (∃ e ∈ w.table, _))

/-- No window is restarted for a peer with a connection in the last 60 seconds. -/
def RateWorld.Remembers (w : RateWorld) (c : Nat × Nat) : Prop :=
  w.Restarts c → ∀ d ∈ w.accepted, d.1 = c.1 → d.2 + acceptRateWindowS ≤ c.2

instance (w : RateWorld) (c : Nat × Nat) : Decidable (w.Remembers c) :=
  inferInstanceAs (Decidable (w.Restarts c → ∀ d ∈ w.accepted, _))

/-! ## The invariant -/

structure RateEntry.Describes (e : RateEntry) (accepted : List (Nat × Nat)) : Prop where
  limit : e.count ≤ acceptRateLimit
  current :
    accepted.countP (fun c => c.1 == e.peerAddress && decide (e.windowStartS ≤ c.2)) ≤ e.count
  older : ∀ c ∈ accepted, c.1 = e.peerAddress → c.2 < e.windowStartS →
    c.2 + acceptRateWindowS ≤ e.windowStartS

structure RateWorld.Good (peers : Finset Nat) (w : RateWorld) : Prop where
  length : w.table.length = acceptRateTracked
  blank : ∀ e ∈ w.table, e.free = true → e.windowStartS = 0
  started : ∀ e ∈ w.table, e.windowStartS ≤ w.clock
  known : ∀ e ∈ w.table, e.free = false → e.peerAddress ∈ peers
  unique : ∀ (peer i j : Nat) (e e' : RateEntry), w.table[i]? = some e → w.table[j]? = some e' →
    e.isOf peer = true → e'.isOf peer = true → i = j
  tracked : ∀ c ∈ w.accepted, ∃ e ∈ w.table, e.isOf c.1 = true
  describes : ∀ e ∈ w.table, e.free = false → e.Describes w.accepted
  past : ∀ c ∈ w.accepted, c.2 ≤ w.clock
  within : WithinLimit w.accepted

theorem isOf_iff {e : RateEntry} {peer : Nat} :
    e.isOf peer = true ↔ e.free = false ∧ e.peerAddress = peer := by
  simp [RateEntry.isOf]

theorem good_init (peers : Finset Nat) : RateWorld.init.Good peers := by
  have hfree {e : RateEntry} (h : e ∈ RateWorld.init.table) : e = ⟨0, 0, 0⟩ :=
    eq_of_mem_replicate h
  have hnone {e : RateEntry} (h : e ∈ RateWorld.init.table) (hused : e.free = false) : False := by
    rw [hfree h] at hused
    cases hused
  refine ⟨length_replicate, ?_, ?_, ?_, ?_, ?_, ?_, ?_, ?_⟩
  · intro e he _
    rw [hfree he]
  · intro e he
    rw [hfree he]
    exact Nat.zero_le _
  · exact fun e he hused => (hnone he hused).elim
  · intro peer i j e e' hi _ hof _
    exact (hnone (mem_of_getElem? hi) (isOf_iff.mp hof).1).elim
  · exact fun c hc => absurd hc not_mem_nil
  · exact fun e he hused => (hnone he hused).elim
  · exact fun c hc => absurd hc not_mem_nil
  · exact fun peer a => Nat.zero_le _

section Good

variable {peers : Finset Nat} {w : RateWorld} {c : Nat × Nat}

def recentCount (accepted : List (Nat × Nat)) (c : Nat × Nat) : Nat :=
  accepted.countP fun d => d.1 == c.1 && decide (c.2 < d.2 + acceptRateWindowS)

theorem withinLimit_append {accepted : List (Nat × Nat)} (h : WithinLimit accepted)
    (hrecent : recentCount accepted c < acceptRateLimit) : WithinLimit (accepted ++ [c]) := by
  intro peer a
  rw [countP_append, countP_singleton]
  split_ifs with hc
  · simp only [inWindow, Bool.and_eq_true, beq_iff_eq, decide_eq_true_eq] at hc
    have hle : accepted.countP (inWindow peer a) ≤ recentCount accepted c := by
      refine countP_mono_left fun d _ hd => ?_
      simp only [inWindow, Bool.and_eq_true, beq_iff_eq, decide_eq_true_eq] at hd ⊢
      exact ⟨hd.1.trans hc.1.symm, by omega⟩
    omega
  · exact h peer a

theorem RateEntry.Describes.append {e : RateEntry} {accepted : List (Nat × Nat)}
    (h : e.Describes accepted) (hother : c.1 ≠ e.peerAddress) : e.Describes (accepted ++ [c]) where
  limit := h.limit
  current := by
    rw [countP_append, countP_singleton, if_neg (by simp [hother])]
    exact h.current
  older d hd hpeer hbefore := by
    rcases mem_append.mp hd with hd | hd
    · exact h.older d hd hpeer hbefore
    · obtain rfl := mem_singleton.mp hd
      exact absurd hpeer hother

theorem RateWorld.Good.accept (h : w.Good peers) (hpeer : c.1 ∈ peers) (hclock : w.clock ≤ c.2)
    {slot : Nat} {e : RateEntry} (hslot : slot < w.table.length)
    (honly : ∀ (j : Nat) (e' : RateEntry), w.table[j]? = some e' → e'.isOf c.1 = true → j = slot)
    (hof : e.isOf c.1 = true) (hstart : e.windowStartS ≤ c.2)
    (hdescribes : e.Describes (w.accepted ++ [c]))
    (hothers : ∀ d ∈ w.accepted, ∀ e' : RateEntry, w.table[slot]? = some e' → e'.isOf d.1 = true →
      d.1 = c.1)
    (hrecent : recentCount w.accepted c < acceptRateLimit) :
    (⟨w.table.set slot e, w.accepted ++ [c], c.2⟩ : RateWorld).Good peers := by
  obtain ⟨hused, hpeerOf⟩ := isOf_iff.mp hof
  have hmem {e' : RateEntry} (he' : e' ∈ w.table.set slot e) : e' = e ∨
      e' ∈ w.table ∧ (e'.free = false → e'.peerAddress ≠ c.1) := by
    obtain ⟨j, hj, rfl⟩ := getElem_of_mem he'
    rw [getElem_set]
    split_ifs with hjs
    · exact .inl rfl
    · rw [length_set] at hj
      refine .inr ⟨getElem_mem hj, fun hused' hpeer' => hjs ?_⟩
      exact (honly j _ (getElem?_eq_getElem hj) (isOf_iff.mpr ⟨hused', hpeer'⟩)).symm
  refine ⟨by rw [length_set, h.length], ?_, ?_, ?_, ?_, ?_, ?_, ?_,
    withinLimit_append h.within hrecent⟩
  · intro e' he' hfree
    rcases hmem he' with rfl | ⟨hin, -⟩
    · rw [hused] at hfree
      cases hfree
    · exact h.blank e' hin hfree
  · intro e' he'
    rcases hmem he' with rfl | ⟨hin, -⟩
    · exact hstart
    · exact (h.started e' hin).trans hclock
  · intro e' he' hused'
    rcases hmem he' with rfl | ⟨hin, -⟩
    · rw [hpeerOf]
      exact hpeer
    · exact h.known e' hin hused'
  · intro peer i j e₁ e₂ hi hj hof₁ hof₂
    rw [getElem?_set] at hi hj
    split_ifs at hi hj with his _ hjs
    · omega
    · obtain rfl := Option.some.inj hi
      have := (isOf_iff.mp hof₁).2.symm.trans hpeerOf
      rw [this] at hof₂
      exact his.symm.trans (honly j e₂ hj hof₂).symm
    · obtain rfl := Option.some.inj hj
      have := (isOf_iff.mp hof₂).2.symm.trans hpeerOf
      rw [this] at hof₁
      exact (honly i e₁ hi hof₁).trans hjs
    · exact h.unique peer i j e₁ e₂ hi hj hof₁ hof₂
  · intro d hd
    have hself : e ∈ w.table.set slot e := mem_set hslot e
    rcases mem_append.mp hd with hd | hd
    · by_cases hsame : d.1 = c.1
      · exact ⟨e, hself, hsame ▸ hof⟩
      · obtain ⟨e', he', hof'⟩ := h.tracked d hd
        obtain ⟨j, hj, rfl⟩ := getElem_of_mem he'
        have hjs : slot ≠ j := by
          rintro rfl
          exact hsame (hothers d hd _ (getElem?_eq_getElem hj) hof')
        refine ⟨w.table[j], ?_, hof'⟩
        have hget : (w.table.set slot e)[j]? = some w.table[j] := by
          rw [getElem?_set_ne hjs, getElem?_eq_getElem hj]
        exact mem_of_getElem? hget
    · obtain rfl := mem_singleton.mp hd
      exact ⟨e, hself, hof⟩
  · intro e' he' hused'
    rcases hmem he' with rfl | ⟨hin, hne⟩
    · exact hdescribes
    · exact (h.describes e' hin hused').append (hne hused').symm
  · intro d hd
    rcases mem_append.mp hd with hd | hd
    · exact (h.past d hd).trans hclock
    · obtain rfl := mem_singleton.mp hd
      exact le_rfl

theorem RateWorld.Good.exists_slot (h : w.Good peers) (hcard : peers.card ≤ acceptRateTracked)
    {peer : Nat} (hpeer : peer ∈ peers) :
    ∃ slot e, rateSlot w.table peer = some slot ∧ w.table[slot]? = some e ∧
      (e.isOf peer = true ∨ e.free = true ∧ ∀ e' ∈ w.table, e'.isOf peer = false) := by
  rw [rateSlot]
  cases hown : w.table.findIdx? fun e => e.isOf peer with
  | some slot =>
    obtain ⟨hlt, hof, -⟩ := findIdx?_eq_some_iff_getElem.mp hown
    exact ⟨slot, _, rfl, getElem?_eq_getElem hlt, .inl hof⟩
  | none =>
    rw [findIdx?_eq_none_iff] at hown
    cases hempty : w.table.findIdx? RateEntry.free with
    | some slot =>
      obtain ⟨hlt, hfree, -⟩ := findIdx?_eq_some_iff_getElem.mp hempty
      exact ⟨slot, _, rfl, getElem?_eq_getElem hlt, .inr ⟨hfree, hown⟩⟩
    | none =>
      -- 64 entries of other peers, and this one
      rw [findIdx?_eq_none_iff] at hempty
      have hnodup : (peer :: w.table.map RateEntry.peerAddress).Nodup := by
        refine nodup_cons.mpr ⟨fun hmem => ?_, ?_⟩
        · obtain ⟨e, he, hpeer'⟩ := mem_map.mp hmem
          have hof : e.isOf peer = true := isOf_iff.mpr ⟨hempty e he, hpeer'⟩
          rw [hown e he] at hof
          cases hof
        · rw [nodup_iff_injective_get]
          intro i j hij
          have hi : i.1 < w.table.length := by simpa using i.2
          have hj : j.1 < w.table.length := by simpa using j.2
          have hpeers : w.table[i.1].peerAddress = w.table[j.1].peerAddress := by simpa using hij
          refine Fin.ext (h.unique _ i.1 j.1 _ _ (getElem?_eq_getElem hi)
            (getElem?_eq_getElem hj) (isOf_iff.mpr ⟨hempty _ (getElem_mem hi), rfl⟩)
            (isOf_iff.mpr ⟨hempty _ (getElem_mem hj), hpeers.symm⟩))
      have hsub : (peer :: w.table.map RateEntry.peerAddress).toFinset ⊆ peers := by
        intro x hx
        rcases mem_cons.mp (mem_toFinset.mp hx) with rfl | hx
        · exact hpeer
        · obtain ⟨e, he, rfl⟩ := mem_map.mp hx
          exact h.known e he (hempty e he)
      have hle := Finset.card_le_card hsub
      rw [toFinset_card_of_nodup hnodup, length_cons, length_map, h.length] at hle
      omega

theorem RateWorld.Good.check_cases (h : w.Good peers) (hcard : peers.card ≤ acceptRateTracked)
    (hpeer : c.1 ∈ peers) (hclock : w.clock ≤ c.2) (hlt : c.2 < 2 ^ 64) :
    acceptRateCheck w.table c.1 c.2 = (false, w.table) ∨
      ∃ slot e, w.table[slot]? = some e ∧
        ((e.isOf c.1 = true ∧ c.2 < e.windowStartS + acceptRateWindowS ∧ e.count < acceptRateLimit ∧
            acceptRateCheck w.table c.1 c.2 =
              (true, w.table.set slot ⟨c.1, e.count + 1, e.windowStartS⟩)) ∨
          (e.isOf c.1 = true ∧ w.Restarts c ∨ e.free = true ∧ ∀ e' ∈ w.table, e'.isOf c.1 = false) ∧
            acceptRateCheck w.table c.1 c.2 = (true, w.table.set slot ⟨c.1, 1, c.2⟩)) := by
  obtain ⟨slot, e, hslot, hget, hcase⟩ := h.exists_slot hcard hpeer
  have hmem := mem_of_getElem? hget
  have hstart := (h.started e hmem).trans hclock
  have hentry : w.table.getD slot ⟨0, 0, 0⟩ = e := by
    rw [getD_eq_getElem?_getD, hget, Option.getD_some]
  rw [acceptRateCheck, hslot]
  dsimp only
  rw [hentry, sub64_of_le hstart hlt]
  by_cases hzero : e.windowStartS = 0
  · rw [if_pos hzero]
    exact .inr ⟨slot, e, hget, .inr ⟨hcase.imp_left fun hof ↦ ⟨hof, e, hmem, hof, .inl hzero⟩, rfl⟩⟩
  · rw [if_neg hzero]
    have hof : e.isOf c.1 = true := hcase.resolve_right fun hfree => hzero (h.blank e hmem hfree.1)
    have hpeerOf := (isOf_iff.mp hof).2
    by_cases hexpired : acceptRateWindowS ≤ c.2 - e.windowStartS
    · rw [if_pos hexpired, hpeerOf]
      exact .inr ⟨slot, e, hget, .inr ⟨.inl ⟨hof, e, hmem, hof, .inr (by omega)⟩, rfl⟩⟩
    · rw [if_neg hexpired]
      by_cases hfull : acceptRateLimit ≤ e.count
      · rw [if_pos hfull]
        exact .inl rfl
      · rw [if_neg hfull, hpeerOf]
        exact .inr ⟨slot, e, hget, .inl ⟨hof, by omega, by omega, rfl⟩⟩

theorem RateWorld.Good.attempt {w' : RateWorld} (h : w.Good peers)
    (hcard : peers.card ≤ acceptRateTracked) (hpeer : c.1 ∈ peers) (hremembers : w.Remembers c)
    (hstep : w.attempt c = some w') : w'.Good peers := by
  rw [RateWorld.attempt] at hstep
  split_ifs at hstep with htime
  obtain ⟨hclock, hlt⟩ := htime
  rcases h.check_cases hcard hpeer hclock hlt with hcheck | ⟨slot, e, hget, hcase⟩
  · rw [hcheck] at hstep
    cases hstep
    exact ⟨h.length, h.blank, fun e he => (h.started e he).trans hclock, h.known,
      h.unique, h.tracked,
      h.describes, fun d hd => (h.past d hd).trans hclock, h.within⟩
  have hslot : slot < w.table.length := (List.getElem?_eq_some_iff.mp hget).1
  have hmem := mem_of_getElem? hget
  rcases hcase with ⟨hof, hwindow, hroom, hcheck⟩ | ⟨hcase, hcheck⟩
  · -- the window of the peer goes on
    rw [hcheck] at hstep
    cases hstep
    obtain ⟨hused, hpeerOf⟩ := isOf_iff.mp hof
    have hdesc := h.describes e hmem hused
    have hcurrent := hdesc.current
    have hstart := (h.started e hmem).trans hclock
    rw [hpeerOf] at hcurrent
    refine h.accept hpeer hclock hslot
      (fun j e' hj hof' => h.unique c.1 j slot e' e hj hget hof' hof)
      (isOf_iff.mpr ⟨by simp [RateEntry.free], rfl⟩) hstart ⟨hroom, ?_, ?_⟩ ?_ ?_
    · dsimp only
      rw [countP_append, countP_singleton]
      split_ifs <;> omega
    · intro d hd hpeer' hbefore
      rcases mem_append.mp hd with hd | hd
      · exact hdesc.older d hd (hpeer'.trans hpeerOf.symm) hbefore
      · obtain rfl := mem_singleton.mp hd
        dsimp only at hbefore
        omega
    · intro d _ e' he' hof'
      obtain rfl := Option.some.inj (hget.symm.trans he')
      exact (isOf_iff.mp hof').2.symm.trans hpeerOf
    · refine lt_of_le_of_lt (le_trans (countP_mono_left fun d hd hrecent => ?_) hcurrent) hroom
      simp at hrecent ⊢
      refine ⟨hrecent.1, not_lt.mp fun hbefore => ?_⟩
      have := hdesc.older d hd (hrecent.1.trans hpeerOf.symm) hbefore
      omega
  · -- a new window, and no connection of the peer in the last 60 seconds
    rw [hcheck] at hstep
    cases hstep
    have hold : ∀ d ∈ w.accepted, d.1 = c.1 → d.2 + acceptRateWindowS ≤ c.2 := by
      rcases hcase with ⟨-, hrestarts⟩ | ⟨-, hnone⟩
      · exact hremembers hrestarts
      · intro d hd hpeer'
        obtain ⟨e', he', hof'⟩ := h.tracked d hd
        rw [hpeer', hnone e' he'] at hof'
        cases hof'
    have hzero : recentCount w.accepted c = 0 := by
      rw [recentCount, countP_eq_zero]
      intro d hd hrecent
      simp at hrecent
      have := hold d hd hrecent.1
      omega
    refine h.accept hpeer hclock hslot ?_ (isOf_iff.mpr ⟨by simp [RateEntry.free], rfl⟩) le_rfl
      ⟨show 1 ≤ acceptRateLimit by decide, ?_, ?_⟩ ?_ (by rw [hzero]; decide)
    · intro j e' hj hof'
      rcases hcase with ⟨hof, -⟩ | ⟨-, hnone⟩
      · exact h.unique c.1 j slot e' e hj hget hof' hof
      · rw [hnone e' (mem_of_getElem? hj)] at hof'
        cases hof'
    · dsimp only
      have hnone : w.accepted.countP (fun d => d.1 == c.1 && decide (c.2 ≤ d.2)) = 0 := by
        rw [countP_eq_zero]
        intro d hd hin
        simp at hin
        have := hold d hd hin.1
        have : acceptRateWindowS = 60 := rfl
        omega
      rw [countP_append, hnone, countP_singleton]
      split_ifs <;> decide
    · intro d hd hpeer' _
      rcases mem_append.mp hd with hd | hd
      · exact hold d hd hpeer'
      · obtain rfl := mem_singleton.mp hd
        dsimp only at *
        omega
    · intro d hd e' he' hof'
      obtain rfl := Option.some.inj (hget.symm.trans he')
      rcases hcase with ⟨hof, -⟩ | ⟨hfree, -⟩
      · exact (isOf_iff.mp hof').2.symm.trans (isOf_iff.mp hof).2
      · rw [(isOf_iff.mp hof').1] at hfree
        cases hfree

end Good

/-- **The rate limit.** In every run of attempts of at most 64 peers at times that do not
go back, in which no window is restarted for a peer with a connection in the last 60
seconds, no peer has more than 8 connections in an interval shorter than 60 seconds. -/
theorem withinLimit_of_run {peers : Finset Nat} (hcard : peers.card ≤ acceptRateTracked)
    {attempts : List (Nat × Nat)} {w : RateWorld}
    (hrun : Run RateWorld.attempt (fun w c => c.1 ∈ peers ∧ w.Remembers c) .init attempts w) :
    WithinLimit w.accepted :=
  (hrun.invariant (fun _ _ _ hw hguard hstep => hw.attempt hcard hguard.1 hguard.2 hstep)
    (good_init peers)).within

def worldAfterAttempts (attempts : List (Nat × Nat)) : RateWorld :=
  (attempts.foldlM RateWorld.attempt .init).getD .init

theorem withinLimit_of_run_returning :
    WithinLimit (worldAfterAttempts [(1, 5), (1, 5), (1, 65)]).accepted := by
  refine @withinLimit_of_run {1} (by decide) [(1, 5), (1, 5), (1, 65)] _ ?_
  refine .cons ⟨by decide, by decide⟩ rfl (.cons ⟨by decide, by decide⟩ rfl ?_)
  exact .cons ⟨by decide, by decide⟩ rfl (.nil _)

def straddling : List (Nat × Nat) := (1, 1) :: List.replicate 7 (1, 60) ++ List.replicate 2 (1, 61)

theorem straddling_not_withinLimit :
    ¬ ∀ (peers : Finset Nat) (attempts : List (Nat × Nat)) (w : RateWorld),
      peers.card ≤ acceptRateTracked →
        Run RateWorld.attempt (fun _ c => c.1 ∈ peers) .init attempts w →
          WithinLimit w.accepted := by
  intro h
  have hrun :
    Run RateWorld.attempt (fun _ _ => True) .init straddling (worldAfterAttempts straddling) :=
    Run.of_isSome (by decide)
  have hlimit := h {1} straddling _ (by decide) (hrun.guarded (by decide)) 1 60
  exact absurd hlimit (by decide)

end MemDbg.Daemon
