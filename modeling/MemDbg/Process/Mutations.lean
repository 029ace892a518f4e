import MemDbg.Process.MapCache

/-!
# Changes of a map behind the cache

The daemon changes the maps of a process for its clients in nine places.  The arena and
the ELF loader flush the cache behind the change.  The handlers of the two protocols for
a protection, an allocation and a release answer at once, and whoever asks less than five
seconds after the last fetch is told the maps from before the change.
-/

namespace MemDbg.Process

open List Lib Function

/-! ## The service -/

inductive Mutation where
  | processProtect
  | processAlloc
  | processFree
  | legacyProtect
  | legacyAlloc
  | legacyFree
  | arenaAlloc
  | arenaFree
  | elfLoad
deriving DecidableEq

namespace Mutation

def admits (self pid : Int) : Mutation → Bool
  | processProtect | processAlloc | processFree => decide (1 < pid)
  | legacyProtect | legacyAlloc | legacyFree => decide (pid ≠ 0)
  | arenaAlloc | arenaFree => true
  | elfLoad => decide (1 < pid) && decide (pid ≠ self)

def flushes : Mutation → Bool
  | arenaAlloc | arenaFree | elfLoad => true
  | _ => false

end Mutation

inductive Writer where
  | idle
  | changed (pid : Int) (time : Nat)
  | settled (pid : Int) (time : Nat)
deriving DecidableEq

structure Answer where
  pid : Int
  changed : Nat
  answered : Nat

structure View (α : Type) where
  pid : Int
  called : Nat
  maps : List α

structure MapService (α : Type) where
  cache : MapCache α
  self : Int
  wall : Int
  history : Nat → Int → List α
  writers : Nat → Writer
  called : Nat → Nat
  answers : List Answer
  views : List (View α)

variable {α : Type}

namespace MapService

def init (self wall : Int) (maps : Int → List α) : MapService α where
  cache := .init
  self := self
  wall := wall
  history _ := maps
  writers _ := .idle
  called _ := 0
  answers := []
  views := []

def world (s : MapService α) : Int → List α := s.history s.cache.clock

def advance (s : MapService α) (c : MapCache α) (maps : Int → List α) : MapService α :=
  { s with
    cache := { c with clock := s.cache.clock + 1 }
    history := update s.history (s.cache.clock + 1) maps }

def returned (s : MapService α) (t : Nat) (c : MapCache α) : List (View α) :=
  (c.served.take (c.served.length - s.cache.served.length)).map fun r =>
    ⟨r.pid, s.called t, r.maps⟩

def through (s : MapService α) (t : Nat) (l : MapCache.Label α) : Option (MapService α) :=
  (s.cache.act l).map fun c => { s.advance c s.world with views := s.returned t c ++ s.views }

/-- What can happen. -/
inductive Label (α : Type) where
  | call (t : Nat) (pid : Int)
  | lookup (t : Nat) (now : Int) (malloc : Bool)
  | sample (t : Nat)
  | fetch (t : Nat) (ok : Bool)
  | finish (t : Nat) (malloc : Bool)
  | change (w : Nat) (m : Mutation) (pid : Int) (maps : List α)
  | flush (w : Nat)
  | answer (w : Nat)
  | flushAll
  | other (pid : Int) (maps : List α)
  | tick (wall : Int)

def step (s : MapService α) : Label α → Option (MapService α)
  | .call t pid =>
    (s.through t (.call t pid s.wall)).map fun s' =>
      { s' with called := update s.called t s.cache.clock }
  | .lookup t now malloc => if s.wall ≤ now then s.through t (.lookup t now malloc) else none
  | .sample t => s.through t (.sample t)
  | .fetch t ok =>
    match s.cache.threads t with
    | .sampled pid _ _ _ _ => s.through t (.fetch t (if ok then some (s.world pid) else none))
    | _ => none
  | .finish t malloc => s.through t (.finish t malloc)
  | .change w m pid maps =>
    let s' := s.advance s.cache (update s.world pid maps)
    match s.writers w with
    | .idle =>
      if m.admits s.self pid then
        some { s' with
          writers := update s.writers w
            (if m.flushes then .changed pid s.cache.clock else .settled pid s.cache.clock) }
      else none
    -- the loader makes several changes
    | .changed pid' _ =>
      if m.flushes ∧ pid = pid' then
        some { s' with writers := update s.writers w (.changed pid s.cache.clock) }
      else none
    | .settled _ _ => none
  | .flush w =>
    match s.writers w with
    | .changed pid time =>
      some { s.advance (s.cache.flush pid) s.world with
        writers := update s.writers w (.settled pid time) }
    | _ => none
  | .answer w =>
    match s.writers w with
    | .settled pid time =>
      some { s.advance s.cache s.world with
        writers := update s.writers w .idle
        answers := ⟨pid, time, s.cache.clock⟩ :: s.answers }
    | _ => none
  | .flushAll => some (s.advance (s.cache.flush 0) s.world)
  | .other pid maps => some (s.advance s.cache (update s.world pid maps))
  | .tick wall =>
    if s.wall ≤ wall then some { s.advance s.cache s.world with wall := wall } else none

/-! ## What a client is promised -/

def Was (s : MapService α) (pid : Int) (maps : List α) (time : Nat) : Prop :=
  time < s.cache.clock ∧ maps = s.history time pid

def Behind (s : MapService α) (pid : Int) (called time : Nat) : Prop :=
  ∀ a ∈ s.answers, a.pid = pid → a.answered < called → a.changed < time

/-- Each list that was delivered shows the process as it was at some time behind all mutations that
had been answered before it was asked for. -/
def Visible (s : MapService α) : Prop :=
  ∀ v ∈ s.views, ∃ time, s.Behind v.pid v.called time ∧ s.Was v.pid v.maps time

/-- A mutation that does not flush finds its process neither in the cache nor on the way
into it, and no fetch outlasts so many flushes that their count is the same again. -/
def Quiet (s : MapService α) : Label α → Prop
  | .change _ m pid _ => m.flushes = false →
    s.cache.hit pid s.wall = none ∧
      ∀ t now bound slot maps time,
        s.cache.threads t = .fetched pid now bound slot s.cache.flushes maps time →
          5 ≤ s.wall - now
  | .finish t _ => ∀ pid now bound slot generation maps time,
    s.cache.threads t = .fetched pid now bound slot generation maps time →
      generation % 2 ^ 64 = s.cache.flushes % 2 ^ 64 → generation = s.cache.flushes
  | _ => True

/-! ## The invariant -/

def Settled (s : MapService α) (pid : Int) (changed : Nat) : Prop :=
  (∃ w, s.writers w = .settled pid changed) ∨ ∃ a ∈ s.answers, a.pid = pid ∧ a.changed = changed

inductive Offer (s : MapService α) : Int → Int → Nat → Prop
  | entry (i : Nat) : i < cacheMax → (s.cache.cache i).valid = true →
      Offer s (s.cache.cache i).pid (s.cache.cache i).timestamp (s.cache.cache i).origin.2
  | fetched (t : Nat) {pid now : Int} {bound slot time : Nat} {maps : List α} :
      s.cache.threads t = .fetched pid now bound slot s.cache.flushes maps time →
      Offer s pid now time

def Knows (s : MapService α) (called : Nat) : Phase α → Prop
  | .looking pid now _ =>
    ∀ timestamp time, s.Offer pid timestamp time → now - timestamp < 5 → s.Behind pid called time
  | .sampled _ _ _ _ generation => generation ≤ s.cache.flushes
  | .fetched pid _ _ _ generation maps time =>
    generation ≤ s.cache.flushes ∧ s.Behind pid called time ∧ s.Was pid maps time
  | _ => True

def EntryOk (s : MapService α) (e : CacheEntry α) : Prop :=
  e.valid = true → (e.count = 0 → s.Was e.pid [] e.origin.2) ∧
    ∀ maps, e.entries = some maps → maps.length = e.count ∧ s.Was e.pid maps e.origin.2

structure Inv (s : MapService α) : Prop where
  called : ∀ t, s.called t ≤ s.cache.clock
  knows : ∀ t, s.Knows (s.called t) (s.cache.threads t)
  entries : ∀ i, s.EntryOk (s.cache.cache i)
  fresh : ∀ pid timestamp time, s.Offer pid timestamp time →
    5 ≤ s.wall - timestamp ∨ ∀ m, s.Settled pid m → m < time
  past : ∀ pid m, s.Settled pid m → m < s.cache.clock
  changed : ∀ w pid m, s.writers w = .changed pid m → m < s.cache.clock
  views : ∀ v ∈ s.views, v.called ≤ s.cache.clock ∧
    ∃ time, s.Behind v.pid v.called time ∧ s.Was v.pid v.maps time

theorem Inv.visible {s : MapService α} (h : s.Inv) : s.Visible := fun v hv => (h.views v hv).2

structure Later (s s' : MapService α) : Prop where
  clock : s.cache.clock ≤ s'.cache.clock
  history : ∀ time ≤ s.cache.clock, s'.history time = s.history time
  answers : ∀ a ∈ s'.answers, a ∈ s.answers ∨ s.cache.clock ≤ a.answered
  wall : s.wall ≤ s'.wall
  flushes : s.cache.flushes ≤ s'.cache.flushes
  offers : ∀ pid timestamp time, s'.Offer pid timestamp time →
    s.Offer pid timestamp time ∨ s.cache.clock ≤ time

variable {s s' : MapService α}

theorem Later.was (h : Later s s') {pid : Int} {maps : List α} {time : Nat}
    (hwas : s.Was pid maps time) : s'.Was pid maps time := by
  obtain ⟨htime, hmaps⟩ := hwas
  refine ⟨Nat.lt_of_lt_of_le htime h.clock, ?_⟩
  rw [h.history time (Nat.le_of_lt htime)]
  exact hmaps

theorem Later.behind (h : Later s s') {pid : Int} {called time : Nat}
    (hcalled : called ≤ s.cache.clock) (hbehind : s.Behind pid called time) :
    s'.Behind pid called time := by
  intro a ha hpid hanswered
  rcases h.answers a ha with hold | hnew
  · exact hbehind a hold hpid hanswered
  · exact absurd (Nat.lt_of_lt_of_le hanswered (Nat.le_trans hcalled hnew)) (Nat.lt_irrefl _)

theorem Inv.behind_clock (h : s.Inv) (pid : Int) (called : Nat) {time : Nat}
    (htime : s.cache.clock ≤ time) : s.Behind pid called time := fun a ha hpid _ =>
  Nat.lt_of_lt_of_le (h.past pid a.changed (.inr ⟨a, ha, hpid, rfl⟩)) htime

theorem Later.knows (h : Later s s') (hs : s.Inv) {called : Nat} {p : Phase α}
    (hcalled : called ≤ s.cache.clock) (hp : s.Knows called p) : s'.Knows called p := by
  cases p with
  | looking pid now bound =>
    intro timestamp time hoffer hnow
    refine h.behind hcalled ?_
    rcases h.offers pid timestamp time hoffer with hold | hnew
    · exact hp timestamp time hold hnow
    · exact hs.behind_clock pid called hnew
  | sampled pid now bound slot generation => exact Nat.le_trans hp h.flushes
  | fetched pid now bound slot generation maps time =>
    obtain ⟨hgeneration, hbehind, hwas⟩ := hp
    exact ⟨Nat.le_trans hgeneration h.flushes, h.behind hcalled hbehind, h.was hwas⟩
  | idle => trivial
  | claimed => trivial
  | failed => trivial
  | crashed => trivial

theorem Later.entryOk (h : Later s s') {e : CacheEntry α} (he : s.EntryOk e) : s'.EntryOk e := by
  intro hvalid
  obtain ⟨hzero, hmaps⟩ := he hvalid
  exact ⟨fun hcount => h.was (hzero hcount),
    fun maps hentries => ⟨(hmaps maps hentries).1, h.was (hmaps maps hentries).2⟩⟩

theorem Inv.later (hs : s.Inv) (h : Later s s')
    (hthreads : ∀ t, s'.called t = s.called t ∧ s'.cache.threads t = s.cache.threads t ∨
      s'.called t ≤ s'.cache.clock ∧ s'.Knows (s'.called t) (s'.cache.threads t))
    (hentries : ∀ i, s'.cache.cache i = s.cache.cache i ∨ s'.EntryOk (s'.cache.cache i))
    (hsettled : ∀ pid m, s'.Settled pid m → s.Settled pid m ∨ m < s'.cache.clock ∧
      ∀ timestamp time, s'.Offer pid timestamp time → 5 ≤ s'.wall - timestamp)
    (hchanged : ∀ w pid m, s'.writers w = .changed pid m → m < s'.cache.clock)
    (hviews : ∀ v ∈ s'.views, v ∈ s.views ∨ v.called ≤ s'.cache.clock ∧
      ∃ time, s'.Behind v.pid v.called time ∧ s'.Was v.pid v.maps time) : s'.Inv := by
  constructor
  · intro t
    rcases hthreads t with ⟨hcalled, -⟩ | ⟨hcalled, -⟩
    · rw [hcalled]
      exact Nat.le_trans (hs.called t) h.clock
    · exact hcalled
  · intro t
    rcases hthreads t with ⟨hcalled, hphase⟩ | ⟨-, hknows⟩
    · rw [hcalled, hphase]
      exact h.knows hs (hs.called t) (hs.knows t)
    · exact hknows
  · intro i
    rcases hentries i with hsame | hok
    · rw [hsame]
      exact h.entryOk (hs.entries i)
    · exact hok
  · intro pid timestamp time hoffer
    by_cases hlate : 5 ≤ s'.wall - timestamp
    · exact .inl hlate
    · refine .inr fun m hm => ?_
      rcases hsettled pid m hm with hold | ⟨-, hexpired⟩
      · rcases h.offers pid timestamp time hoffer with hoffer' | hnew
        · rcases hs.fresh pid timestamp time hoffer' with hlate' | hbefore
          · exact absurd (Int.le_trans hlate' (Int.sub_le_sub_right h.wall timestamp)) hlate
          · exact hbefore m hold
        · exact Nat.lt_of_lt_of_le (hs.past pid m hold) hnew
      · exact absurd (hexpired timestamp time hoffer) hlate
  · intro pid m hm
    rcases hsettled pid m hm with hold | ⟨hlt, -⟩
    · exact Nat.lt_of_lt_of_le (hs.past pid m hold) h.clock
    · exact hlt
  · exact hchanged
  · intro v hv
    rcases hviews v hv with hold | hnew
    · obtain ⟨hcalled, time, hbehind, hwas⟩ := hs.views v hold
      exact ⟨Nat.le_trans hcalled h.clock, time, h.behind hcalled hbehind, h.was hwas⟩
    · exact hnew

/-! ## The steps of a caller -/

def moved (s : MapService α) (c : MapCache α) (called : Nat → Nat) (views : List (View α)) :
    MapService α :=
  { s.advance c s.world with called := called, views := views ++ s.views }

section Move

variable {t : Nat} {p : Phase α} {c : MapCache α} {called : Nat → Nat} {views : List (View α)}

theorem history_advance (s : MapService α) (c : MapCache α) (maps : Int → List α) {time : Nat}
    (h : time ≤ s.cache.clock) : (s.advance c maps).history time = s.history time :=
  update_of_ne (Nat.ne_of_lt (Nat.lt_succ_of_le h)) ..

theorem later_moved (hthreads : c.threads = update s.cache.threads t p)
    (hflushes : c.flushes = s.cache.flushes)
    (hcache : ∀ i, c.cache i = s.cache.cache i ∨ ((c.cache i).valid = true →
      s.Offer (c.cache i).pid (c.cache i).timestamp (c.cache i).origin.2))
    (hfetched : ∀ pid now bound slot generation maps time,
      p = .fetched pid now bound slot generation maps time → s.cache.clock ≤ time) :
    Later s (s.moved c called views) where
  clock := Nat.le_succ _
  history _ h := history_advance s c s.world h
  answers _ ha := .inl ha
  wall := Int.le_refl _
  flushes := Nat.le_of_eq hflushes.symm
  offers pid timestamp time hoffer := by
    cases hoffer with
    | entry i hi hvalid =>
      rcases hcache i with hsame | hoffer
      · have hvalid' : (s.cache.cache i).valid = true := by
          rw [← hsame]
          exact hvalid
        have hold := Offer.entry (s := s) i hi hvalid'
        rw [← hsame] at hold
        exact .inl hold
      · exact .inl (hoffer hvalid)
    | @fetched t' _ now bound slot _ maps ht' =>
      have hphase : update s.cache.threads t p t' =
          .fetched pid timestamp bound slot s.cache.flushes maps time := by
        rw [← hthreads, ← hflushes]
        exact ht'
      rw [update_apply] at hphase
      split_ifs at hphase
      · exact .inr (hfetched _ _ _ _ _ _ _ hphase)
      · exact .inl (.fetched t' hphase)

theorem Inv.moved (hs : s.Inv) (h : Later s (s.moved c called views))
    (hthreads : c.threads = update s.cache.threads t p)
    (hcache : ∀ i, c.cache i = s.cache.cache i ∨ s.EntryOk (c.cache i))
    (hcalled : ∀ t' ≠ t, called t' = s.called t') (hnow : called t ≤ s.cache.clock)
    (hknows : (s.moved c called views).Knows (called t) p)
    (hviews : ∀ v ∈ views, v.called ≤ s.cache.clock ∧
      ∃ time, s.Behind v.pid v.called time ∧ s.Was v.pid v.maps time) :
    (s.moved c called views).Inv := by
  refine hs.later h ?_ ?_ (fun _ _ hm => .inl hm) ?_ ?_
  · intro t'
    have hphase : (s.moved c called views).cache.threads t' = update s.cache.threads t p t' :=
      congrFun hthreads t'
    rw [hphase, update_apply]
    split_ifs with heq
    · rw [heq]
      exact .inr ⟨Nat.le_succ_of_le hnow, hknows⟩
    · exact .inl ⟨hcalled t' heq, rfl⟩
  · intro i
    rcases hcache i with hsame | hok
    · exact .inl hsame
    · exact .inr (h.entryOk hok)
  · exact fun w pid m hw => Nat.lt_succ_of_lt (hs.changed w pid m hw)
  · intro v hv
    rcases mem_append.1 hv with hnew | hold
    · obtain ⟨hv', time, hbehind, hwas⟩ := hviews v hnew
      exact .inr ⟨Nat.le_succ_of_le hv', time, h.behind hv' hbehind, h.was hwas⟩
    · exact .inl hold

theorem Inv.goto (hs : s.Inv) (hthreads : c.threads = update s.cache.threads t p)
    (hflushes : c.flushes = s.cache.flushes) (hcache : c.cache = s.cache.cache)
    (hfetched : ∀ pid now bound slot generation maps time,
      p ≠ .fetched pid now bound slot generation maps time)
    (hknows : s.Knows (s.called t) p)
    (hviews : ∀ v ∈ views, v.called ≤ s.cache.clock ∧
      ∃ time, s.Behind v.pid v.called time ∧ s.Was v.pid v.maps time) :
    (s.moved c s.called views).Inv := by
  have h : Later s (s.moved c s.called views) := by
    refine later_moved hthreads hflushes (fun i => .inl (congrFun hcache i)) ?_
    rintro pid now bound slot generation maps time rfl
    exact absurd rfl (hfetched pid now bound slot generation maps time)
  exact hs.moved h hthreads (fun i => .inl (congrFun hcache i)) (fun _ _ => rfl) (hs.called t)
    (h.knows hs (hs.called t) hknows) hviews

end Move

theorem returned_eq_nil {t : Nat} {c : MapCache α} (h : c.served = s.cache.served) :
    s.returned t c = [] := by
  rw [returned, h, Nat.sub_self]
  rfl

theorem returned_cons {t : Nat} {c : MapCache α} {r : Served α}
    (h : c.served = r :: s.cache.served) : s.returned t c = [⟨r.pid, s.called t, r.maps⟩] := by
  rw [returned, h, length_cons, Nat.add_sub_cancel_left]
  rfl

theorem Inv.knows_looking (hs : s.Inv) (pid : Int) {now : Int} (bound called : Nat)
    (hnow : s.wall ≤ now) : s.Knows called (.looking pid now bound) := by
  intro timestamp time hoffer hyoung a ha hpid _
  rcases hs.fresh pid timestamp time hoffer with hlate | hbefore
  · omega
  · exact hbefore a.changed (.inr ⟨a, ha, hpid, rfl⟩)

theorem Inv.call (hs : s.Inv) (t : Nat) (pid : Int) {c : MapCache α}
    (hact : s.cache.act (.call t pid s.wall) = some c) :
    (s.moved c (update s.called t s.cache.clock) []).Inv := by
  rw [MapCache.act] at hact
  split at hact
  · split_ifs at hact
    cases hact
    have h : Later s (s.moved (s.cache.goto t (.looking pid s.wall (s.cache.flushed pid)))
        (update s.called t s.cache.clock) []) := by
      refine later_moved rfl rfl (fun _ => .inl rfl) ?_
      rintro _ _ _ _ _ _ _ ⟨⟩
    refine hs.moved h rfl (fun _ => .inl rfl) (fun t' ht' => update_of_ne ht' ..) ?_ ?_ ?_
    · exact Nat.le_of_eq (update_self ..)
    · rw [update_self]
      exact h.knows hs (Nat.le_refl _) (hs.knows_looking pid _ _ (Int.le_refl _))
    · intro v hv
      cases hv
  · cases hact

theorem Inv.view (hs : s.Inv) {t : Nat} {pid now : Int} {bound : Nat}
    (ht : s.cache.threads t = .looking pid now bound) {i : Nat}
    (hhit : s.cache.hit pid now = some i) {maps : List α}
    (hwas : s.Was pid maps (s.cache.cache i).origin.2) :
    ∀ v ∈ [(⟨pid, s.called t, maps⟩ : View α)], v.called ≤ s.cache.clock ∧
      ∃ time, s.Behind v.pid v.called time ∧ s.Was v.pid v.maps time := by
  intro v hv
  rw [mem_singleton.1 hv]
  have hfound := find?_some hhit
  rw [Bool.and_eq_true, Bool.and_eq_true, beq_iff_eq, decide_eq_true_eq] at hfound
  obtain ⟨⟨hvalid, hpid⟩, hyoung⟩ := hfound
  have hlt := mem_range.1 (mem_of_find?_eq_some hhit)
  have hoffer := Offer.entry (s := s) i hlt hvalid
  rw [hpid] at hoffer
  have hknows := hs.knows t
  rw [ht] at hknows
  exact ⟨hs.called t, _, hknows _ _ hoffer hyoung, hwas⟩

theorem Inv.lookup (hs : s.Inv) (t : Nat) {now' : Int} (hnow : s.wall ≤ now') (malloc : Bool)
    {c : MapCache α} (hact : s.cache.act (.lookup t now' malloc) = some c) :
    (s.moved c s.called (s.returned t c)).Inv := by
  rw [MapCache.act] at hact
  split at hact
  · rename_i pid now bound ht
    cases hact
    have hidle (p : Phase α) (hp : ∀ called, s.Knows called p)
        (hfetched : ∀ pid now bound slot generation maps time,
          p ≠ .fetched pid now bound slot generation maps time) :
        (s.moved (s.cache.goto t p) s.called (s.returned t (s.cache.goto t p))).Inv := by
      rw [returned_eq_nil (c := s.cache.goto t p) rfl]
      exact hs.goto rfl rfl rfl hfetched (hp _) fun v hv => absurd hv not_mem_nil
    rw [MapCache.lookup]
    split
    · rename_i i hhit
      have hfound := find?_some hhit
      rw [Bool.and_eq_true, Bool.and_eq_true, beq_iff_eq] at hfound
      obtain ⟨⟨hvalid, hpid⟩, -⟩ := hfound
      obtain ⟨hzero, hmaps⟩ := hs.entries i hvalid
      rw [hpid] at hzero hmaps
      dsimp only
      split_ifs with hcount
      · rw [returned_cons (r := ⟨pid, bound, [], (s.cache.cache i).origin⟩) rfl]
        exact hs.goto rfl rfl rfl (fun _ _ _ _ _ _ _ => by rintro ⟨⟩) trivial
          (hs.view ht hhit (hzero hcount))
      · exact hidle .idle (fun _ => trivial) fun _ _ _ _ _ _ _ => by rintro ⟨⟩
      · split
        · rename_i maps hentries
          obtain ⟨hlength, hwas⟩ := hmaps maps hentries
          rw [← hlength, take_length, returned_cons
            (r := ⟨pid, bound, maps, (s.cache.cache i).origin⟩) rfl]
          exact hs.goto rfl rfl rfl (fun _ _ _ _ _ _ _ => by rintro ⟨⟩) trivial
            (hs.view ht hhit hwas)
        · exact hidle .crashed (fun _ => trivial) fun _ _ _ _ _ _ _ => by rintro ⟨⟩
    · split_ifs
      · exact hidle (.looking pid now' bound) (fun called => hs.knows_looking pid bound called hnow)
          fun _ _ _ _ _ _ _ => by rintro ⟨⟩
      · split
        · rename_i slot hslot
          rw [returned_eq_nil (c := { s.cache.goto t (.claimed pid now bound slot) with
            loading := update s.cache.loading slot pid }) rfl]
          exact hs.goto (p := .claimed pid now bound slot) rfl rfl rfl
            (fun _ _ _ _ _ _ _ => by rintro ⟨⟩) trivial fun v hv => absurd hv not_mem_nil
        · rw [returned_eq_nil (c := s.cache.goto t (.looking pid now bound)) rfl]
          have hknows := hs.knows t
          rw [ht] at hknows
          exact hs.goto rfl rfl rfl (fun _ _ _ _ _ _ _ => by rintro ⟨⟩) hknows
            fun v hv => absurd hv not_mem_nil
  · cases hact

theorem Inv.sample (hs : s.Inv) (t : Nat) {c : MapCache α}
    (hact : s.cache.act (.sample t) = some c) :
    (s.moved c s.called (s.returned t c)).Inv := by
  rw [MapCache.act] at hact
  split at hact
  · rename_i pid now bound slot ht
    cases hact
    rw [returned_eq_nil (c := s.cache.goto t (.sampled pid now bound slot s.cache.flushes)) rfl]
    exact hs.goto rfl rfl rfl (fun _ _ _ _ _ _ _ => by rintro ⟨⟩) (Nat.le_refl _)
      fun v hv => absurd hv not_mem_nil
  · cases hact

theorem Inv.fetch (hs : s.Inv) {t : Nat} {pid now : Int} {bound slot generation : Nat}
    (ht : s.cache.threads t = .sampled pid now bound slot generation) (ok : Bool) {c : MapCache α}
    (hact : s.cache.act (.fetch t (if ok then some (s.world pid) else none)) = some c) :
    (s.moved c s.called (s.returned t c)).Inv := by
  rw [MapCache.act, ht] at hact
  cases ok with
  | true =>
    cases hact
    rw [if_pos rfl]
    dsimp only
    generalize hp : Phase.fetched pid now bound slot generation (s.world pid) s.cache.clock = p
    rw [returned_eq_nil (c := s.cache.goto t p) rfl]
    have h : Later s (s.moved (s.cache.goto t p) s.called []) := by
      refine later_moved rfl rfl (fun _ => .inl rfl) ?_
      intro _ _ _ _ _ _ _ hfetched
      cases hp.trans hfetched
      exact Nat.le_refl _
    refine hs.moved h rfl (fun _ => .inl rfl) (fun _ _ => rfl) (hs.called t) ?_
      fun v hv => absurd hv not_mem_nil
    cases hp
    have hknows := hs.knows t
    rw [ht] at hknows
    refine ⟨hknows, h.behind (hs.called t) (hs.behind_clock pid _ (Nat.le_refl _)),
      Nat.lt_succ_self _, ?_⟩
    exact (congrFun (h.history _ (Nat.le_refl _)) pid).symm
  | false =>
    cases hact
    rw [if_neg Bool.false_ne_true]
    rw [returned_eq_nil (c := s.cache.goto t (.failed pid slot)) rfl]
    exact hs.goto rfl rfl rfl (fun _ _ _ _ _ _ _ => by rintro ⟨⟩) trivial
      fun v hv => absurd hv not_mem_nil

theorem entryOk_stored {pid now : Int} {maps : List α} {time : Nat} (hwas : s.Was pid maps time)
    (old : CacheEntry α) (malloc : Bool) :
    s.EntryOk (MapCache.stored old pid now maps time malloc) := by
  intro _
  refine ⟨fun hcount => ?_, fun maps' hentries => ?_⟩
  · cases eq_nil_of_length_eq_zero hcount
    exact hwas
  · dsimp only [MapCache.stored] at hentries
    split_ifs at hentries
    cases hentries
    exact ⟨rfl, hwas⟩

theorem Inv.finish (hs : s.Inv) {t : Nat} {malloc : Bool} (hquiet : s.Quiet (.finish t malloc))
    {c : MapCache α} (hact : s.cache.act (.finish t malloc) = some c) :
    (s.moved c s.called (s.returned t c)).Inv := by
  rw [MapCache.act] at hact
  split at hact
  · rename_i pid now bound slot generation maps time ht
    cases hact
    have hknows := hs.knows t
    rw [ht] at hknows
    obtain ⟨-, hbehind, hwas⟩ := hknows
    have hview : ∀ v ∈ [(⟨pid, s.called t, maps⟩ : View α)], v.called ≤ s.cache.clock ∧
        ∃ time, s.Behind v.pid v.called time ∧ s.Was v.pid v.maps time := by
      intro v hv
      rw [mem_singleton.1 hv]
      exact ⟨hs.called t, time, hbehind, hwas⟩
    rw [MapCache.store]
    split_ifs with hgeneration
    · have hsame := hquiet pid now bound slot generation maps time ht hgeneration
      rw [hsame] at ht
      generalize MapCache.storeSlot s.cache.cache now = k
      rw [returned_cons (r := ⟨pid, bound, maps, (pid, time)⟩) rfl]
      have hentry (i : Nat) : update s.cache.cache k
          (MapCache.stored (s.cache.cache k) pid now maps time malloc) i = s.cache.cache i ∨
          update s.cache.cache k (MapCache.stored (s.cache.cache k) pid now maps time malloc) i =
            MapCache.stored (s.cache.cache k) pid now maps time malloc := by
        rw [update_apply]
        split_ifs
        · exact .inr rfl
        · exact .inl rfl
      refine hs.moved (p := .idle) (t := t) (later_moved (t := t) (p := .idle) rfl rfl ?_ ?_) rfl ?_
        (fun _ _ => rfl) (hs.called t) trivial hview
      · intro i
        rcases hentry i with hold | hnew
        · exact .inl hold
        · refine .inr fun _ => ?_
          change s.Offer (update s.cache.cache k _ i).pid (update s.cache.cache k _ i).timestamp
            (update s.cache.cache k _ i).origin.2
          rw [hnew]
          exact .fetched t ht
      · intro _ _ _ _ _ _ _ hidle
        cases hidle
      · intro i
        rcases hentry i with hold | hnew
        · exact .inl hold
        · refine .inr ?_
          change s.EntryOk (update s.cache.cache k _ i)
          rw [hnew]
          exact entryOk_stored hwas _ malloc
    · rw [returned_cons (r := ⟨pid, bound, maps, (pid, time)⟩) rfl]
      exact hs.goto rfl rfl rfl (fun _ _ _ _ _ _ _ => by rintro ⟨⟩) trivial hview
  · rename_i pid slot ht
    cases hact
    rw [returned_eq_nil (c := (s.cache.release slot).goto t .idle) rfl]
    exact hs.goto rfl rfl rfl (fun _ _ _ _ _ _ _ => by rintro ⟨⟩) trivial
      fun v hv => absurd hv not_mem_nil
  · cases hact

/-! ## The steps of a mutation -/

def wrote (s : MapService α) (c : MapCache α) (maps : Int → List α) (wall : Int)
    (writers : Nat → Writer) (answers : List Answer) : MapService α :=
  { s.advance c maps with wall := wall, writers := writers, answers := answers }

section Wrote

variable {c : MapCache α} {maps : Int → List α} {wall : Int} {writers : Nat → Writer}
  {answers : List Answer}

theorem Inv.wrote (hs : s.Inv) (hthreads : c.threads = s.cache.threads)
    (hflushes : s.cache.flushes ≤ c.flushes)
    (hcache : ∀ i, c.cache i = s.cache.cache i ∨ (c.cache i).valid = false)
    (hoffers : ∀ pid timestamp time,
    (s.wrote c maps wall writers answers).Offer pid timestamp time →
      s.Offer pid timestamp time)
    (hwall : s.wall ≤ wall) (hanswers : ∀ a ∈ answers, a ∈ s.answers ∨ s.cache.clock ≤ a.answered)
    (hsettled : ∀ pid m, (s.wrote c maps wall writers answers).Settled pid m → s.Settled pid m ∨
      m ≤ s.cache.clock ∧ ∀ timestamp time,
        (s.wrote c maps wall writers answers).Offer pid timestamp time → 5 ≤ wall - timestamp)
    (hchanged : ∀ w pid m, writers w = .changed pid m → m ≤ s.cache.clock) :
    (s.wrote c maps wall writers answers).Inv := by
  have h : Later s (s.wrote c maps wall writers answers) :=
    ⟨Nat.le_succ _, fun _ h => history_advance s c maps h, hanswers, hwall, hflushes,
      fun pid timestamp time hoffer => .inl (hoffers pid timestamp time hoffer)⟩
  refine hs.later h (fun t => .inl ⟨rfl, congrFun hthreads t⟩) ?_ ?_ ?_ fun v hv => .inl hv
  · intro i
    rcases hcache i with hsame | hdropped
    · exact .inl hsame
    · refine .inr fun hvalid => ?_
      have hvalid' : (c.cache i).valid = true := hvalid
      rw [hdropped] at hvalid'
      cases hvalid'
  · intro pid m hm
    rcases hsettled pid m hm with hold | ⟨hlt, hexpired⟩
    · exact .inl hold
    · exact .inr ⟨Nat.lt_succ_of_le hlt, hexpired⟩
  · exact fun w pid m hw => Nat.lt_succ_of_le (hchanged w pid m hw)

theorem offer_of_wrote {pid timestamp : Int} {time : Nat}
    (h : (s.wrote s.cache maps wall writers answers).Offer pid timestamp time) :
    s.Offer pid timestamp time := by
  cases h with
  | entry i hi hvalid => exact .entry i hi hvalid
  | fetched t ht => exact .fetched t ht

theorem Inv.offer_flush (hs : s.Inv) (pid : Int) {q timestamp : Int} {time : Nat}
    (h : (s.wrote (s.cache.flush pid) maps wall writers answers).Offer q timestamp time) :
    s.Offer q timestamp time ∧ q ≠ pid := by
  cases h with
  | entry i hi hvalid =>
    have hvalid' : ((s.cache.flush pid).cache i).valid = true := hvalid
    change s.Offer ((s.cache.flush pid).cache i).pid ((s.cache.flush pid).cache i).timestamp
      ((s.cache.flush pid).cache i).origin.2 ∧ ((s.cache.flush pid).cache i).pid ≠ pid
    dsimp only [MapCache.flush] at hvalid' ⊢
    split_ifs at hvalid' ⊢ with hdrop
    · cases hvalid'
    · rw [hvalid', Bool.true_and, Bool.or_eq_true, not_or, beq_iff_eq] at hdrop
      exact ⟨.entry i hi hvalid', hdrop.2⟩
  | @fetched t _ _ bound slot _ maps ht =>
    have ht' : s.cache.threads t =
        .fetched q timestamp bound slot (s.cache.flushes + 1) maps time := ht
    have hknows := hs.knows t
    rw [ht'] at hknows
    exact absurd hknows.1 (Nat.not_succ_le_self _)

theorem Inv.flushed (hs : s.Inv) (pid : Int) (hwall : s.wall ≤ wall)
    (hsettled : ∀ q m, (s.wrote (s.cache.flush pid) maps wall writers s.answers).Settled q m →
      s.Settled q m ∨ m ≤ s.cache.clock ∧ q = pid)
    (hchanged : ∀ w q m, writers w = .changed q m → m ≤ s.cache.clock) :
    (s.wrote (s.cache.flush pid) maps wall writers s.answers).Inv := by
  refine hs.wrote rfl (Nat.le_succ _) ?_ (fun _ _ _ h => (hs.offer_flush pid h).1) hwall
    (fun _ ha => .inl ha) ?_ hchanged
  · intro i
    dsimp only [MapCache.flush]
    split_ifs
    · exact .inr rfl
    · exact .inl rfl
  · intro q m hm
    rcases hsettled q m hm with hold | ⟨hlt, rfl⟩
    · exact .inl hold
    · exact .inr ⟨hlt, fun _ _ hoffer => absurd rfl (hs.offer_flush q hoffer).2⟩

end Wrote

theorem settled_of_update {writers : Nat → Writer} {w : Nat} {p : Writer}
    (h : ∃ w', update writers w p w' = .settled pid m) :
    p = .settled pid m ∨ ∃ w', writers w' = .settled pid m := by
  obtain ⟨w', hw'⟩ := h
  rw [update_apply] at hw'
  split_ifs at hw'
  · exact .inl hw'
  · exact .inr ⟨w', hw'⟩

theorem Inv.changed_update (hs : s.Inv) {w : Nat} {p : Writer}
    (hp : ∀ pid m, p = .changed pid m → m ≤ s.cache.clock) (w' : Nat) (pid : Int) (m : Nat)
    (h : update s.writers w p w' = .changed pid m) : m ≤ s.cache.clock := by
  rw [update_apply] at h
  split_ifs at h
  · exact hp pid m h
  · exact Nat.le_of_lt (hs.changed w' pid m h)

theorem Inv.change (hs : s.Inv) (w : Nat) {maps : Int → List α} {p : Writer}
    (hchanged : ∀ pid m, p = .changed pid m → m = s.cache.clock)
    (hsettled : ∀ pid m, p = .settled pid m → m = s.cache.clock ∧
      ∀ timestamp time, s.Offer pid timestamp time → 5 ≤ s.wall - timestamp) :
    (s.wrote s.cache maps s.wall (update s.writers w p) s.answers).Inv := by
  refine hs.wrote rfl (Nat.le_refl _) (fun _ => .inl rfl) (fun _ _ _ => offer_of_wrote)
    (Int.le_refl _) (fun _ ha => .inl ha) ?_
    (hs.changed_update fun pid m hp => Nat.le_of_eq (hchanged pid m hp))
  rintro pid m (hw | ha)
  · rcases settled_of_update hw with hp | hold
    · obtain ⟨hm, hexpired⟩ := hsettled pid m hp
      exact .inr ⟨Nat.le_of_eq hm, fun _ _ hoffer => hexpired _ _ (offer_of_wrote hoffer)⟩
    · exact .inl (.inl hold)
  · exact .inl (.inr ha)

theorem expired_of_quiet {pid : Int} (hhit : s.cache.hit pid s.wall = none)
    (hfetched : ∀ t now bound slot maps time,
      s.cache.threads t = .fetched pid now bound slot s.cache.flushes maps time →
        5 ≤ s.wall - now) {timestamp : Int} {time : Nat} (hoffer : s.Offer pid timestamp time) :
    5 ≤ s.wall - timestamp := by
  cases hoffer with
  | entry i hi hvalid =>
    have hmiss := find?_eq_none.1 hhit i (mem_range.2 hi)
    rw [hvalid, Bool.true_and, Bool.and_eq_true, beq_iff_eq, decide_eq_true_eq] at hmiss
    exact Int.not_lt.1 fun hyoung => hmiss ⟨rfl, hyoung⟩
  | fetched t ht => exact hfetched t _ _ _ _ _ ht

theorem inv_step {l : Label α} (hs : s.Inv) (hquiet : s.Quiet l) (h : s.step l = some s') :
    s'.Inv := by
  cases l with
  | call t pid =>
    obtain ⟨s₁, h₁, rfl⟩ := Option.map_eq_some_iff.1 h
    obtain ⟨c, hact, rfl⟩ := Option.map_eq_some_iff.1 h₁
    have hinv := hs.call t pid hact
    have hserved : c.served = s.cache.served := by
      rw [MapCache.act] at hact
      split at hact
      · split_ifs at hact
        cases hact
        rfl
      · cases hact
    rw [returned_eq_nil hserved]
    exact hinv
  | lookup t now malloc =>
    rw [step] at h
    split_ifs at h with hnow
    obtain ⟨c, hact, rfl⟩ := Option.map_eq_some_iff.1 h
    exact hs.lookup t hnow malloc hact
  | sample t =>
    obtain ⟨c, hact, rfl⟩ := Option.map_eq_some_iff.1 h
    exact hs.sample t hact
  | fetch t ok =>
    rw [step] at h
    split at h
    · rename_i ht
      obtain ⟨c, hact, rfl⟩ := Option.map_eq_some_iff.1 h
      exact hs.fetch ht ok hact
    · cases h
  | finish t malloc =>
    obtain ⟨c, hact, rfl⟩ := Option.map_eq_some_iff.1 h
    exact hs.finish hquiet hact
  | change w m pid maps =>
    rw [step] at h
    split at h
    · split_ifs at h with hadmits hflushes
      · cases h
        exact hs.change w (fun _ _ hp => by cases hp; rfl) fun _ _ hp => by cases hp
      · cases h
        obtain ⟨hhit, hfetched⟩ := hquiet (Bool.not_eq_true _ ▸ hflushes)
        refine hs.change w (fun _ _ hp => by cases hp) ?_
        rintro _ _ ⟨⟩
        exact ⟨rfl, fun _ _ => expired_of_quiet hhit hfetched⟩
    · split_ifs at h
      cases h
      exact hs.change w (fun _ _ hp => by cases hp; rfl) fun _ _ hp => by cases hp
    · cases h
  | flush w =>
    rw [step] at h
    split at h
    · rename_i pid time hw
      cases h
      refine hs.flushed pid (Int.le_refl _) ?_ (hs.changed_update fun _ _ hp => by cases hp)
      rintro q m (hw' | ha)
      · rcases settled_of_update hw' with hp | hold
        · cases hp
          exact .inr ⟨Nat.le_of_lt (hs.changed w pid time hw), rfl⟩
        · exact .inl (.inl hold)
      · exact .inl (.inr ha)
    · cases h
  | answer w =>
    rw [step] at h
    split at h
    · rename_i pid time hw
      cases h
      refine hs.wrote rfl (Nat.le_refl _) (fun _ => .inl rfl) (fun _ _ _ => offer_of_wrote)
        (Int.le_refl _) ?_ ?_ (hs.changed_update fun _ _ hp => by cases hp)
      · intro a ha
        rcases mem_cons.1 ha with rfl | hold
        · exact .inr (Nat.le_refl _)
        · exact .inl hold
      · rintro q m (hw' | ⟨a, ha, hpid, hm⟩)
        · rcases settled_of_update hw' with hp | hold
          · cases hp
          · exact .inl (.inl hold)
        · rcases mem_cons.1 ha with rfl | hold
          · cases hpid
            cases hm
            exact .inl (.inl ⟨w, hw⟩)
          · exact .inl (.inr ⟨a, hold, hpid, hm⟩)
    · cases h
  | flushAll =>
    cases h
    exact hs.flushed 0 (Int.le_refl _) (fun _ _ hm => .inl hm)
      fun w pid m hw => Nat.le_of_lt (hs.changed w pid m hw)
  | other pid maps =>
    cases h
    exact hs.wrote rfl (Nat.le_refl _) (fun _ => .inl rfl) (fun _ _ _ => offer_of_wrote)
      (Int.le_refl _) (fun _ ha => .inl ha) (fun _ _ hm => .inl hm)
      fun w pid m hw => Nat.le_of_lt (hs.changed w pid m hw)
  | tick wall =>
    rw [step] at h
    split_ifs at h with hwall
    cases h
    exact hs.wrote rfl (Nat.le_refl _) (fun _ => .inl rfl) (fun _ _ _ => offer_of_wrote)
      hwall (fun _ ha => .inl ha) (fun _ _ hm => .inl hm)
      fun w pid m hw => Nat.le_of_lt (hs.changed w pid m hw)

theorem not_settled_init (self wall : Int) (maps : Int → List α) (pid : Int) (m : Nat) :
    ¬ (init self wall maps).Settled pid m := by
  rintro (⟨w, hw⟩ | ⟨a, ha, -⟩)
  · cases hw
  · cases ha

theorem inv_init (self wall : Int) (maps : Int → List α) : (init self wall maps).Inv where
  called _ := Nat.zero_le _
  knows _ := trivial
  entries _ hvalid := by cases hvalid
  fresh _ _ _ _ := .inr fun m hm => absurd hm (not_settled_init self wall maps _ m)
  past _ m hm := absurd hm (not_settled_init self wall maps _ m)
  changed _ _ _ hw := by cases hw
  views _ hv := by cases hv

/-- In every run in which the mutations that do not flush find nothing cached, and none
on the way, map mutations are visible at once. -/
theorem visible_of_quiet_run {self wall : Int} {maps : Int → List α} {labels : List (Label α)}
    (h : Run step Quiet (init self wall maps) labels s) : s.Visible :=
  Inv.visible (h.invariant (P := Inv) (fun _ _ _ hs hquiet hstep => inv_step hs hquiet hstep)
    (inv_init self wall maps))

def twice (between : List (Label Nat)) : List (Label Nat) :=
  [.call 0 7, .lookup 0 1000 true, .sample 0, .fetch 0 true, .finish 0 true] ++ between ++
    [.call 2 7, .lookup 2 1000 true]

def single : MapService Nat := init 99 1000 fun _ => [0]

def after (labels : List (Label Nat)) : MapService Nat := (labels.foldlM step single).getD single

def loaded : List (Label Nat) :=
  [.change 1 .elfLoad 7 [0, 1], .flush 1, .answer 1]

theorem visible_of_quiet_run_loaded : (after (twice loaded)).Visible := by
  have hrun : Run step Quiet single (twice loaded) (after (twice loaded)) := by
    refine .cons trivial rfl (.cons trivial rfl (.cons trivial rfl (.cons trivial rfl
      (.cons ?_ rfl (.cons ?_ rfl (.cons trivial rfl (.cons trivial rfl (.cons trivial rfl
        (.cons trivial rfl (.nil _))))))))))
    · rintro pid now bound slot generation maps time ⟨⟩ -
      rfl
    · rintro ⟨⟩
  exact visible_of_quiet_run hrun

def mutated (m : Mutation) : List (Label Nat) := [.change 1 m 7 [0, 1], .answer 1]

theorem not_visible_of_not_flushes {m : Mutation} (h : m.flushes = false) :
    Run step (fun _ _ => True) single (twice (mutated m)) (after (twice (mutated m))) ∧
      ¬ (after (twice (mutated m))).Visible := by
  have hrun : Run step (fun _ _ => True) single (twice (mutated m))
      (after (twice (mutated m))) := by
    cases m
    case arenaAlloc | arenaFree | elfLoad => cases h
    all_goals
      exact .cons trivial rfl (.cons trivial rfl (.cons trivial rfl (.cons trivial rfl
        (.cons trivial rfl (.cons trivial rfl (.cons trivial rfl (.cons trivial rfl
          (.cons trivial rfl (.nil _)))))))))
  have hstate : (after (twice (mutated m))).views = [⟨7, 8, [0]⟩, ⟨7, 1, [0]⟩] ∧
      (after (twice (mutated m))).answers = [⟨7, 6, 7⟩] ∧
        (after (twice (mutated m))).cache.clock = 10 ∧
          ∀ time < 10, 6 < time → (after (twice (mutated m))).history time 7 = [0, 1] := by
    cases m
    case arenaAlloc | arenaFree | elfLoad => cases h
    all_goals exact ⟨rfl, rfl, rfl, by decide⟩
  obtain ⟨hviews, hanswers, hclock, hhistory⟩ := hstate
  refine ⟨hrun, fun hvisible => ?_⟩
  obtain ⟨time, hbehind, htime, hmaps⟩ := hvisible ⟨7, 8, [0]⟩ (hviews ▸ mem_cons_self)
  have hlate : 6 < time := hbehind ⟨7, 6, 7⟩ (hanswers ▸ mem_cons_self) rfl (by decide)
  rw [hclock] at htime
  rw [hhistory time htime hlate] at hmaps
  cases hmaps

theorem processAlloc_not_visible :
    Run step (fun _ _ => True) single (twice (mutated .processAlloc))
        (after (twice (mutated .processAlloc))) ∧
      ¬ (after (twice (mutated .processAlloc))).Visible :=
  not_visible_of_not_flushes rfl

end MapService

end MemDbg.Process
