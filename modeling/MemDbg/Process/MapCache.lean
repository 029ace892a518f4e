import MemDbg.Core.Status
import MemDbg.Lib.Transition

/-!
# The cache of process maps

Callers look a process up under the lock, and on a miss fetch its maps outside of it,
one at a time for each process.  A flush drops what is stored and makes what is being
fetched unfit to be stored.  A caller is a thread that takes one step after the other;
the clock and what is said of the past are not part of the program.
-/

namespace MemDbg.Process

open List Lib Function

/-! ## The state -/

def cacheMax : Nat := 16

variable {α : Type}

structure CacheEntry (α : Type) where
  pid : Int
  entries : Option (List α)
  count : Nat
  timestamp : Int
  valid : Bool
  origin : Int × Nat
deriving DecidableEq

def CacheEntry.zero : CacheEntry α := ⟨0, none, 0, 0, false, (0, 0)⟩

inductive Phase (α : Type) where
  | idle
  | looking (pid now : Int) (bound : Nat)
  | claimed (pid now : Int) (bound slot : Nat)
  | sampled (pid now : Int) (bound slot generation : Nat)
  | fetched (pid now : Int) (bound slot generation : Nat) (maps : List α) (time : Nat)
  | failed (pid : Int) (slot : Nat)
  | crashed
deriving DecidableEq

structure Served (α : Type) where
  pid : Int
  bound : Nat
  maps : List α
  origin : Int × Nat

/-- The cache with its callers. -/
structure MapCache (α : Type) where
  cache : Nat → CacheEntry α
  loading : Nat → Int
  flushes : Nat
  threads : Nat → Phase α
  clock : Nat
  flushed : Int → Nat
  served : List (Served α)

namespace MapCache

def init : MapCache α where
  cache _ := .zero
  loading _ := 0
  flushes := 0
  threads _ := .idle
  clock := 1
  flushed _ := 0
  served := []

/-! ## The steps of a caller -/

def goto (s : MapCache α) (t : Nat) (p : Phase α) : MapCache α :=
  { s with threads := update s.threads t p }

def serve (s : MapCache α) (t : Nat) (r : Served α) : MapCache α :=
  { s.goto t .idle with served := r :: s.served }

def hit (s : MapCache α) (pid now : Int) : Option Nat :=
  (List.range cacheMax).find? fun i =>
    (s.cache i).valid && (s.cache i).pid == pid && decide (now - (s.cache i).timestamp < 5)

def freeSlot (s : MapCache α) : Option Nat := (List.range cacheMax).find? fun i => s.loading i == 0

def lookup (s : MapCache α) (t : Nat) (pid now : Int) (bound : Nat) (now' : Int) (malloc : Bool) :
    MapCache α :=
  match s.hit pid now with
  | some i =>
    let e := s.cache i
    if e.count = 0 then s.serve t ⟨pid, bound, [], e.origin⟩
    else if !malloc then s.goto t .idle
    else
      match e.entries with
      | some maps => s.serve t ⟨pid, bound, maps.take e.count, e.origin⟩
      | none => s.goto t .crashed
  | none =>
    if (List.range cacheMax).any fun i => s.loading i == pid then s.goto t (.looking pid now' bound)
    else
      match s.freeSlot with
      | some slot =>
        { s.goto t (.claimed pid now bound slot) with loading := update s.loading slot pid }
      | none => s.goto t (.looking pid now bound)

def storeSlotFrom (cache : Nat → CacheEntry α) : List Nat → Option Nat → Int → Option Nat
  | [], slot, _ => slot
  | i :: rest, slot, oldest =>
    if !(cache i).valid then some i
    else if slot.isNone || decide ((cache i).timestamp < oldest) then
      storeSlotFrom cache rest (some i) (cache i).timestamp
    else storeSlotFrom cache rest slot oldest

def storeSlot (cache : Nat → CacheEntry α) (now : Int) : Nat :=
  (storeSlotFrom cache (List.range cacheMax) none now).getD 0

def stored (old : CacheEntry α) (pid now : Int) (maps : List α) (time : Nat) (malloc : Bool) :
    CacheEntry α where
  pid := pid
  entries := if maps.length ≠ 0 && malloc then some maps else none
  count := maps.length
  timestamp := now
  valid := if maps.length ≠ 0 then malloc || old.valid else true
  origin := (pid, time)

def store (s : MapCache α) (pid now : Int) (generation : Nat) (maps : List α) (time : Nat)
    (malloc : Bool) : MapCache α :=
  if generation % 2 ^ 64 = s.flushes % 2 ^ 64 then
    let slot := storeSlot s.cache now
    { s with cache := update s.cache slot (stored (s.cache slot) pid now maps time malloc) }
  else s

def release (s : MapCache α) (slot : Nat) : MapCache α :=
  { s with loading := update s.loading slot 0 }

def flush (s : MapCache α) (pid : Int) : MapCache α :=
  { s with
    flushes := s.flushes + 1
    cache := fun i =>
      if (s.cache i).valid && (decide (pid ≤ 0) || (s.cache i).pid == pid) then .zero else s.cache i
    flushed := fun q => if pid ≤ 0 ∨ q = pid then s.clock else s.flushed q }

/-- What can happen. -/
inductive Label (α : Type) where
  | call (t : Nat) (pid now : Int)
  | lookup (t : Nat) (now' : Int) (malloc : Bool)
  | sample (t : Nat)
  | fetch (t : Nat) (maps : Option (List α))
  | finish (t : Nat) (malloc : Bool)
  | flush (pid : Int)

def act (s : MapCache α) : Label α → Option (MapCache α)
  | .call t pid now =>
    match s.threads t with
    | .idle => if 0 < pid then some (s.goto t (.looking pid now (s.flushed pid))) else none
    | _ => none
  | .lookup t now' malloc =>
    match s.threads t with
    | .looking pid now bound => some (s.lookup t pid now bound now' malloc)
    | _ => none
  | .sample t =>
    match s.threads t with
    | .claimed pid now bound slot => some (s.goto t (.sampled pid now bound slot s.flushes))
    | _ => none
  | .fetch t maps =>
    match s.threads t with
    | .sampled pid now bound slot generation =>
      some (match maps with
        | some maps => s.goto t (.fetched pid now bound slot generation maps s.clock)
        | none => s.goto t (.failed pid slot))
    | _ => none
  | .finish t malloc =>
    match s.threads t with
    | .fetched pid now bound slot generation maps time =>
      some (((s.store pid now generation maps time malloc).release slot).serve t
        ⟨pid, bound, maps, (pid, time)⟩)
    | .failed _ slot => some ((s.release slot).goto t .idle)
    | _ => none
  | .flush pid => some (s.flush pid)

def step (s : MapCache α) (l : Label α) : Option (MapCache α) :=
  (s.act l).map fun s' => { s' with clock := s.clock + 1 }

end MapCache

/-! ## The invariant -/

def Phase.holds : Phase α → Option (Int × Nat)
  | .claimed pid _ _ slot => some (pid, slot)
  | .sampled pid _ _ slot _ => some (pid, slot)
  | .fetched pid _ _ slot _ _ _ => some (pid, slot)
  | .failed pid slot => some (pid, slot)
  | _ => none

namespace MapCache

/-- What is promised of the cache: what is returned was fetched behind the last flush before
the call, one fetch is in flight for a process, a loading slot belongs to one of them,
and a valid entry has its maps. -/
structure Sound (s : MapCache α) : Prop where
  fresh : ∀ y ∈ s.served, y.bound < y.origin.2 ∧ y.origin.1 = y.pid
  single : ∀ t t' pid slot slot', (s.threads t).holds = some (pid, slot) →
    (s.threads t').holds = some (pid, slot') → t = t'
  released : ∀ slot, s.loading slot ≠ 0 → ∃ t, (s.threads t).holds = some (s.loading slot, slot)
  whole : ∀ i, (s.cache i).valid = true → 0 < (s.cache i).count →
    (s.cache i).origin.1 = (s.cache i).pid ∧
      ∃ maps, (s.cache i).entries = some maps ∧ maps.length = (s.cache i).count

def Knows (s : MapCache α) : Phase α → Prop
  | .looking pid _ bound => 0 < pid ∧ bound ≤ s.flushed pid
  | .claimed pid _ bound _ => bound ≤ s.flushed pid
  | .sampled pid _ bound _ generation => bound ≤ s.flushed pid ∧ generation ≤ s.flushes
  | .fetched _ _ bound _ generation _ time => bound < time ∧ generation ≤ s.flushes ∧
    (generation = s.flushes → ∀ q, s.flushed q < time)
  | _ => True

def Whole (flushed : Int → Nat) (e : CacheEntry α) : Prop :=
  e.valid = true → flushed e.pid < e.origin.2 ∧ e.origin.1 = e.pid ∧
    (e.count = 0 ∨ ∃ maps, e.entries = some maps ∧ maps.length = e.count)

structure Inv (s : MapCache α) : Prop where
  past : ∀ q, s.flushed q < s.clock
  knows : ∀ t, s.Knows (s.threads t)
  holds : ∀ t pid slot, (s.threads t).holds = some (pid, slot) →
    slot < cacheMax ∧ pid ≠ 0 ∧ s.loading slot = pid
  apart : ∀ t t' pid pid' slot, (s.threads t).holds = some (pid, slot) →
    (s.threads t').holds = some (pid', slot) → t = t'
  distinct : ∀ i j, s.loading i = s.loading j → s.loading i ≠ 0 → i = j
  held : ∀ slot, s.loading slot ≠ 0 → ∃ t pid, (s.threads t).holds = some (pid, slot)
  whole : ∀ i, Whole s.flushed (s.cache i)
  fresh : ∀ y ∈ s.served, y.bound < y.origin.2 ∧ y.origin.1 = y.pid

theorem Inv.sound {s : MapCache α} (h : s.Inv) : s.Sound where
  fresh := h.fresh
  single t t' pid slot slot' ht ht' := by
    obtain ⟨-, hpid, hslot⟩ := h.holds t pid slot ht
    obtain ⟨-, -, hslot'⟩ := h.holds t' pid slot' ht'
    cases h.distinct slot slot' (hslot.trans hslot'.symm) (by rwa [hslot])
    exact h.apart t t' pid pid slot ht ht'
  released slot hslot := by
    obtain ⟨t, pid, ht⟩ := h.held slot hslot
    rw [(h.holds t pid slot ht).2.2]
    exact ⟨t, ht⟩
  whole i hvalid hcount := by
    obtain ⟨-, hpid, hzero | hmaps⟩ := h.whole i hvalid
    · rw [hzero] at hcount
      cases hcount
    · exact ⟨hpid, hmaps⟩

variable {s : MapCache α} {t : Nat} {p : Phase α}

theorem threads_goto (s : MapCache α) (t t' : Nat) (p : Phase α) :
    (s.goto t p).threads t' = if t' = t then p else s.threads t' := by
  dsimp only [goto]
  rw [update_apply]

theorem Inv.goto (h : s.Inv) (hknows : s.Knows p) (hholds : p.holds = (s.threads t).holds) :
    (s.goto t p).Inv := by
  have hsame (t' : Nat) : ((s.goto t p).threads t').holds = (s.threads t').holds := by
    rw [threads_goto]
    split_ifs with ht
    · rw [hholds, ht]
    · rfl
  constructor
  · exact h.past
  · intro t'
    rw [threads_goto]
    split_ifs
    · exact hknows
    · exact h.knows t'
  · intro t' pid slot ht'
    rw [hsame] at ht'
    exact h.holds t' pid slot ht'
  · intro t₁ t₂ pid pid' slot h₁ h₂
    rw [hsame] at h₁ h₂
    exact h.apart t₁ t₂ pid pid' slot h₁ h₂
  · exact h.distinct
  · intro slot hslot
    obtain ⟨t', pid, ht'⟩ := h.held slot hslot
    exact ⟨t', pid, by rw [hsame, ht']⟩
  · exact h.whole
  · exact h.fresh

theorem Inv.claim (h : s.Inv) {pid : Int} {slot : Nat} (hp : p.holds = some (pid, slot))
    (hknows : s.Knows p) (hnone : (s.threads t).holds = none) (hpid : pid ≠ 0)
    (hlt : slot < cacheMax) (hfree : s.loading slot = 0)
    (hother : ∀ i, s.loading i ≠ pid) :
    Inv { s.goto t p with loading := update s.loading slot pid } := by
  have hcases (t' : Nat) (pid' : Int) (slot' : Nat)
      (ht' : ((s.goto t p).threads t').holds = some (pid', slot')) :
      t' = t ∧ pid' = pid ∧ slot' = slot ∨
        t' ≠ t ∧ slot' ≠ slot ∧ (s.threads t').holds = some (pid', slot') := by
    rw [threads_goto] at ht'
    split_ifs at ht' with heq
    · rw [hp] at ht'
      cases ht'
      exact .inl ⟨heq, rfl, rfl⟩
    · refine .inr ⟨heq, ?_, ht'⟩
      rintro rfl
      obtain ⟨-, hne, hload⟩ := h.holds t' pid' slot' ht'
      exact hne (hload.symm.trans hfree)
  constructor
  · exact h.past
  · intro t'
    rw [threads_goto]
    split_ifs
    · exact hknows
    · exact h.knows t'
  · intro t' pid' slot' ht'
    dsimp only
    rcases hcases t' pid' slot' ht' with ⟨rfl, rfl, rfl⟩ | ⟨-, hne, hold⟩
    · exact ⟨hlt, hpid, update_self ..⟩
    · rw [update_of_ne hne]
      exact h.holds t' pid' slot' hold
  · intro t₁ t₂ pid₁ pid₂ slot' h₁ h₂
    rcases hcases t₁ pid₁ slot' h₁ with ⟨rfl, -, rfl⟩ | ⟨-, hne, hold₁⟩
    · rcases hcases t₂ pid₂ slot' h₂ with ⟨rfl, -, -⟩ | ⟨-, hne, -⟩
      · rfl
      · exact absurd rfl hne
    · rcases hcases t₂ pid₂ slot' h₂ with ⟨-, -, heq⟩ | ⟨-, -, hold₂⟩
      · exact absurd heq hne
      · exact h.apart t₁ t₂ pid₁ pid₂ slot' hold₁ hold₂
  · intro i j hij hi
    dsimp only at hij hi
    rcases eq_or_ne i slot with rfl | hni
    · rcases eq_or_ne j i with rfl | hnj
      · rfl
      · rw [update_self, update_of_ne hnj] at hij
        exact absurd hij.symm (hother j)
    · rw [update_of_ne hni] at hij hi
      rcases eq_or_ne j slot with rfl | hnj
      · rw [update_self] at hij
        exact absurd hij (hother i)
      · rw [update_of_ne hnj] at hij
        exact h.distinct i j hij hi
  · intro slot' hslot'
    dsimp only at hslot' ⊢
    rcases eq_or_ne slot' slot with rfl | hne
    · exact ⟨t, pid, by rw [threads_goto, if_pos rfl, hp]⟩
    · rw [update_of_ne hne] at hslot'
      obtain ⟨t', pid', ht'⟩ := h.held slot' hslot'
      refine ⟨t', pid', ?_⟩
      rw [threads_goto, if_neg, ht']
      rintro rfl
      rw [hnone] at ht'
      cases ht'
  · exact h.whole
  · exact h.fresh

theorem Inv.release (h : s.Inv) {pid : Int} {slot : Nat}
    (ht : (s.threads t).holds = some (pid, slot)) : ((s.release slot).goto t .idle).Inv := by
  have hcases (t' : Nat) (pid' : Int) (slot' : Nat)
      (ht' : (((s.release slot).goto t .idle).threads t').holds = some (pid', slot')) :
      t' ≠ t ∧ slot' ≠ slot ∧ (s.threads t').holds = some (pid', slot') := by
    rw [threads_goto] at ht'
    split_ifs at ht' with heq
    · cases ht'
    · refine ⟨heq, ?_, ht'⟩
      rintro rfl
      exact heq (h.apart t' t pid' pid slot' ht' ht)
  constructor
  · exact h.past
  · intro t'
    rw [threads_goto]
    split_ifs
    · trivial
    · exact h.knows t'
  · intro t' pid' slot' ht'
    obtain ⟨-, hne, hold⟩ := hcases t' pid' slot' ht'
    dsimp only [MapCache.goto, MapCache.release]
    rw [update_of_ne hne]
    exact h.holds t' pid' slot' hold
  · intro t₁ t₂ pid₁ pid₂ slot' h₁ h₂
    exact h.apart t₁ t₂ pid₁ pid₂ slot' (hcases t₁ pid₁ slot' h₁).2.2 (hcases t₂ pid₂ slot' h₂).2.2
  · intro i j hij hi
    dsimp only [MapCache.goto, MapCache.release] at hij hi
    rcases eq_or_ne i slot with rfl | hni
    · rw [update_self] at hi
      exact absurd rfl hi
    · rw [update_of_ne hni] at hij hi
      rcases eq_or_ne j slot with rfl | hnj
      · rw [update_self] at hij
        exact absurd hij hi
      · rw [update_of_ne hnj] at hij
        exact h.distinct i j hij hi
  · intro slot' hslot'
    dsimp only [MapCache.goto, MapCache.release] at hslot'
    rcases eq_or_ne slot' slot with rfl | hne
    · rw [update_self] at hslot'
      exact absurd rfl hslot'
    · rw [update_of_ne hne] at hslot'
      obtain ⟨t', pid', ht'⟩ := h.held slot' hslot'
      refine ⟨t', pid', ?_⟩
      rw [threads_goto, if_neg]
      · exact ht'
      · rintro rfl
        rw [ht] at ht'
        cases ht'
        exact hne rfl
  · exact h.whole
  · exact h.fresh

theorem Inv.served (h : s.Inv) {r : Served α} (hr : r.bound < r.origin.2 ∧ r.origin.1 = r.pid) :
    Inv { s with served := r :: s.served } where
  past := h.past
  knows := h.knows
  holds := h.holds
  apart := h.apart
  distinct := h.distinct
  held := h.held
  whole := h.whole
  fresh y hy := by
    rcases mem_cons.1 hy with rfl | hy
    · exact hr
    · exact h.fresh y hy

/-! ## The cache -/

theorem storeSlotFrom_invalid (cache : Nat → CacheEntry α) {l : List Nat}
    (h : ∃ i ∈ l, (cache i).valid = false) :
    ∀ (slot : Option Nat) (oldest : Int),
      ∃ i ∈ l, storeSlotFrom cache l slot oldest = some i ∧ (cache i).valid = false := by
  induction l with
  | nil =>
    obtain ⟨i, hi, -⟩ := h
    exact absurd hi not_mem_nil
  | cons j l ih =>
    intro slot oldest
    rw [storeSlotFrom]
    cases hvalid : (cache j).valid with
    | false => exact ⟨j, mem_cons_self, rfl, hvalid⟩
    | true =>
      obtain ⟨i, hi, hinvalid⟩ := h
      have hmem : i ∈ l := by
        rcases mem_cons.1 hi with rfl | hmem
        · rw [hvalid] at hinvalid
          cases hinvalid
        · exact hmem
      have hrest := ih ⟨i, hmem, hinvalid⟩
      rw [if_neg (by decide)]
      split_ifs
      · obtain ⟨k, hk, heq⟩ := hrest (some j) (cache j).timestamp
        exact ⟨k, mem_cons_of_mem j hk, heq⟩
      · obtain ⟨k, hk, heq⟩ := hrest slot oldest
        exact ⟨k, mem_cons_of_mem j hk, heq⟩

theorem storeSlot_invalid {cache : Nat → CacheEntry α} (now : Int)
    (h : ∃ i < cacheMax, (cache i).valid = false) :
    (cache (storeSlot cache now)).valid = false := by
  obtain ⟨i, hi, hinvalid⟩ := h
  obtain ⟨j, -, hj, hvalid⟩ := storeSlotFrom_invalid cache
    (l := List.range cacheMax) ⟨i, mem_range.2 hi, hinvalid⟩ none now
  rw [storeSlot, hj]
  exact hvalid

theorem whole_stored {flushed : Int → Nat} {old : CacheEntry α} {pid now : Int} {maps : List α}
    {time : Nat} {malloc : Bool} (hflushed : flushed pid < time)
    (hmalloc : maps ≠ [] → malloc = false → old.valid = false) :
    Whole flushed (stored old pid now maps time malloc) := by
  intro hvalid
  refine ⟨hflushed, rfl, ?_⟩
  by_cases hmaps : maps = []
  · exact .inl (by rw [hmaps]; rfl)
  · have hlength : maps.length ≠ 0 := by rwa [ne_eq, length_eq_zero_iff]
    refine .inr ⟨maps, ?_, rfl⟩
    dsimp only [stored] at hvalid ⊢
    rw [if_pos hlength] at hvalid
    cases malloc with
    | true => simp [hlength]
    | false =>
      rw [hmalloc hmaps rfl] at hvalid
      cases hvalid

/-- A store finds a slot that is not valid when it has no memory, and has seen all
flushes. -/
def Spare (s : MapCache α) : Label α → Prop
  | .finish t malloc => ∀ pid now bound slot generation maps time,
    s.threads t = .fetched pid now bound slot generation maps time →
    generation % 2 ^ 64 = s.flushes % 2 ^ 64 →
      generation = s.flushes ∧
        (maps ≠ [] → malloc = false → ∃ i < cacheMax, (s.cache i).valid = false)
  | _ => True

theorem Inv.store (h : s.Inv) {pid now : Int} {generation : Nat} {maps : List α} {time : Nat}
    {malloc : Bool}
    (hflushed : generation % 2 ^ 64 = s.flushes % 2 ^ 64 → s.flushed pid < time ∧
      (maps ≠ [] → malloc = false → ∃ i < cacheMax, (s.cache i).valid = false)) :
    (s.store pid now generation maps time malloc).Inv := by
  rw [MapCache.store]
  split_ifs with hgeneration
  · obtain ⟨htime, hspare⟩ := hflushed hgeneration
    refine ⟨h.past, h.knows, h.holds, h.apart, h.distinct, h.held, fun i => ?_, h.fresh⟩
    dsimp only
    rcases eq_or_ne i (storeSlot s.cache now) with rfl | hne
    · rw [update_self]
      exact whole_stored htime fun hmaps hmalloc => storeSlot_invalid now (hspare hmaps hmalloc)
    · rw [update_of_ne hne]
      exact h.whole i
  · exact h

theorem store_threads (s : MapCache α) (pid now : Int) (generation : Nat) (maps : List α)
    (time : Nat) (malloc : Bool) :
    (s.store pid now generation maps time malloc).threads = s.threads := by
  rw [MapCache.store]
  split_ifs
  · rfl
  · rfl

theorem store_clock (s : MapCache α) (pid now : Int) (generation : Nat) (maps : List α)
    (time : Nat) (malloc : Bool) :
    (s.store pid now generation maps time malloc).clock = s.clock := by
  rw [MapCache.store]
  split_ifs
  · rfl
  · rfl

theorem lookup_clock (s : MapCache α) (t : Nat) (pid now : Int) (bound : Nat) (now' : Int)
    (malloc : Bool) : (s.lookup t pid now bound now' malloc).clock = s.clock := by
  rw [MapCache.lookup]
  split
  · dsimp only
    split_ifs
    · rfl
    · rfl
    · split
      · rfl
      · rfl
  · split_ifs
    · rfl
    · split
      · rfl
      · rfl

theorem Inv.tick (h : s.Inv) : Inv { s with clock := s.clock + 1 } where
  past q := Nat.lt_succ_of_lt (h.past q)
  knows := h.knows
  holds := h.holds
  apart := h.apart
  distinct := h.distinct
  held := h.held
  whole := h.whole
  fresh := h.fresh

theorem flushed_le_flush (h : s.Inv) (pid q : Int) : s.flushed q ≤ (s.flush pid).flushed q := by
  dsimp only [MapCache.flush]
  split_ifs
  · exact Nat.le_of_lt (h.past q)
  · exact Nat.le_refl _

theorem Knows.flush (h : s.Inv) (pid : Int) (hp : s.Knows p) : (s.flush pid).Knows p := by
  cases p with
  | idle => trivial
  | looking q now bound => exact ⟨hp.1, Nat.le_trans hp.2 (flushed_le_flush h pid q)⟩
  | claimed q now bound slot => exact Nat.le_trans hp (flushed_le_flush h pid q)
  | sampled q now bound slot generation =>
    exact ⟨Nat.le_trans hp.1 (flushed_le_flush h pid q), Nat.le_succ_of_le hp.2⟩
  | fetched q now bound slot generation maps time =>
    refine ⟨hp.1, Nat.le_succ_of_le hp.2.1, fun heq => ?_⟩
    exact absurd hp.2.1 (by rw [heq]; exact Nat.not_succ_le_self _)
  | failed q slot => trivial
  | crashed => trivial

theorem Inv.flush (h : s.Inv) (pid : Int) : Inv { s.flush pid with clock := s.clock + 1 } where
  past q := by
    dsimp only [MapCache.flush]
    split_ifs
    · exact Nat.lt_succ_self _
    · exact Nat.lt_succ_of_lt (h.past q)
  knows t := Knows.flush h pid (h.knows t)
  holds := h.holds
  apart := h.apart
  distinct := h.distinct
  held := h.held
  whole i := by
    dsimp only [MapCache.flush]
    split_ifs with hdrop
    · intro hvalid
      cases hvalid
    · intro hvalid
      rw [hvalid, Bool.true_and, Bool.or_eq_true, not_or, decide_eq_true_eq, beq_iff_eq] at hdrop
      dsimp only
      rw [if_neg (not_or.2 hdrop)]
      exact h.whole i hvalid
  fresh := h.fresh

/-! ## Every run -/

theorem holds_eq_none_of_looking {pid now : Int} {bound : Nat}
    (ht : s.threads t = .looking pid now bound) : (s.threads t).holds = none := by
  rw [ht]
  rfl

theorem Inv.serve (h : s.Inv) (hnone : (s.threads t).holds = none) {r : Served α}
    (hr : r.bound < r.origin.2 ∧ r.origin.1 = r.pid) : (s.serve t r).Inv :=
  (h.goto (p := .idle) trivial hnone.symm).served hr

theorem Inv.lookup (h : s.Inv) {pid now : Int} {bound : Nat}
    (ht : s.threads t = .looking pid now bound) (now' : Int) (malloc : Bool) :
    (s.lookup t pid now bound now' malloc).Inv := by
  have hnone := holds_eq_none_of_looking ht
  have hknows : s.Knows (.looking pid now bound) := ht ▸ h.knows t
  rw [MapCache.lookup]
  split
  · rename_i i hhit
    -- the entry is of this process and behind its last flush
    have hfound := find?_some hhit
    rw [Bool.and_eq_true, Bool.and_eq_true, beq_iff_eq] at hfound
    obtain ⟨⟨hvalid, hpid⟩, -⟩ := hfound
    obtain ⟨htime, horigin, -⟩ := h.whole i hvalid
    rw [hpid] at htime horigin
    have hr := Nat.lt_of_le_of_lt hknows.2 htime
    dsimp only
    split_ifs
    · exact h.serve hnone ⟨hr, horigin⟩
    · exact h.goto trivial hnone.symm
    · split
      · exact h.serve hnone ⟨hr, horigin⟩
      · exact h.goto trivial hnone.symm
  · split_ifs with hany
    · exact h.goto hknows hnone.symm
    · split
      · rename_i slot hslot
        have hfree := find?_some hslot
        rw [beq_iff_eq] at hfree
        refine h.claim rfl hknows.2 hnone (Int.ne_of_gt hknows.1)
          (mem_range.1 (mem_of_find?_eq_some hslot)) hfree fun i hi => hany ?_
        obtain ⟨t', pid', ht'⟩ := h.held i (by rw [hi]; exact Int.ne_of_gt hknows.1)
        rw [any_eq_true]
        exact ⟨i, mem_range.2 (h.holds t' pid' i ht').1, beq_iff_eq.2 hi⟩
      · exact h.goto hknows hnone.symm

theorem inv_act {s s' : MapCache α} {l : Label α} (h : s.Inv) (hspare : s.Spare l)
    (hact : s.act l = some s') : Inv { s' with clock := s.clock + 1 } := by
  cases l with
  | call t pid now =>
    rw [act] at hact
    split at hact
    · rename_i ht
      split_ifs at hact with hpid
      cases hact
      refine (h.goto (p := .looking pid now (s.flushed pid)) ⟨hpid, Nat.le_refl _⟩ ?_).tick
      rw [ht]
      rfl
    · cases hact
  | lookup t now' malloc =>
    rw [act] at hact
    split at hact
    · rename_i pid now bound ht
      cases hact
      have hinv := (h.lookup ht now' malloc).tick
      rwa [lookup_clock] at hinv
    · cases hact
  | sample t =>
    rw [act] at hact
    split at hact
    · rename_i pid now bound slot ht
      cases hact
      have hknows : s.Knows (.claimed pid now bound slot) := ht ▸ h.knows t
      refine (h.goto (p := .sampled pid now bound slot s.flushes)
        ⟨hknows, Nat.le_refl _⟩ ?_).tick
      rw [ht]
      rfl
    · cases hact
  | fetch t maps =>
    rw [act] at hact
    split at hact
    · rename_i pid now bound slot generation ht
      cases hact
      have hknows : s.Knows (.sampled pid now bound slot generation) := ht ▸ h.knows t
      cases maps with
      | some maps =>
        refine (h.goto (p := .fetched pid now bound slot generation maps s.clock)
          ⟨Nat.lt_of_le_of_lt hknows.1 (h.past pid), hknows.2, fun _ => h.past⟩ ?_).tick
        rw [ht]
        rfl
      | none =>
        refine (h.goto (p := .failed pid slot) trivial ?_).tick
        rw [ht]
        rfl
    · cases hact
  | finish t malloc =>
    rw [act] at hact
    split at hact
    · rename_i pid now bound slot generation maps time ht
      cases hact
      have hknows : s.Knows (.fetched pid now bound slot generation maps time) := ht ▸ h.knows t
      have hstore : (s.store pid now generation maps time malloc).Inv := by
        refine h.store fun hgeneration => ?_
        obtain ⟨hsame, hmalloc⟩ :=
          hspare pid now bound slot generation maps time ht hgeneration
        exact ⟨hknows.2.2 hsame pid, hmalloc⟩
      have hholds : ((s.store pid now generation maps time malloc).threads t).holds =
          some (pid, slot) := by
        rw [store_threads, ht]
        rfl
      have hinv := ((hstore.release hholds).served
        (r := ⟨pid, bound, maps, (pid, time)⟩) ⟨hknows.1, rfl⟩).tick
      rw [← store_clock s pid now generation maps time malloc]
      exact hinv
    · rename_i pid slot ht
      cases hact
      have hholds : (s.threads t).holds = some (pid, slot) := by
        rw [ht]
        rfl
      exact (h.release hholds).tick
    · cases hact
  | flush pid =>
    cases hact
    exact h.flush pid

theorem inv_init : (init : MapCache α).Inv where
  past _ := Nat.zero_lt_one
  knows _ := trivial
  holds _ _ _ ht := by cases ht
  apart _ _ _ _ _ ht := by cases ht
  distinct _ _ _ hi := absurd rfl hi
  held _ hslot := absurd rfl hslot
  whole _ hvalid := by cases hvalid
  fresh _ hy := absurd hy not_mem_nil

/-- In every run in which a store without memory finds a slot that is not valid, the
cache is sound. -/
theorem sound_of_spare_run {labels : List (Label α)} {s : MapCache α}
    (h : Run step Spare init labels s) : s.Sound := by
  refine Inv.sound (h.invariant (P := Inv) ?_ inv_init)
  intro s l s' hs hspare hstep
  obtain ⟨s₁, hact, rfl⟩ := Option.map_eq_some_iff.1 hstep
  exact inv_act hs hspare hact

def miss (pid : Int) (malloc : Bool) : List (Label Unit) :=
  [.call 0 pid 100, .lookup 0 100 true, .sample 0, .fetch 0 (some [()]), .finish 0 malloc]

def after (labels : List (Label Unit)) : MapCache Unit :=
  (labels.foldlM step init).getD init

def flushedMiss : List (Label Unit) :=
  [.call 0 7 100, .lookup 0 100 true, .sample 0, .call 1 7 100, .lookup 1 101 true, .flush 7,
    .fetch 0 (some [()]), .finish 0 true, .lookup 1 101 true, .sample 1, .call 0 7 101,
    .lookup 0 101 true, .fetch 1 (some [(), ()]), .finish 1 false]

theorem sound_of_spare_run_flushedMiss : (after flushedMiss).Sound := by
  have hrun : Run step Spare init flushedMiss (after flushedMiss) := by
    refine .cons trivial rfl (.cons trivial rfl (.cons trivial rfl (.cons trivial rfl
      (.cons trivial rfl (.cons trivial rfl (.cons trivial rfl (.cons ?_ rfl (.cons trivial rfl
        (.cons trivial rfl (.cons trivial rfl (.cons trivial rfl (.cons trivial rfl
          (.cons ?_ rfl (.nil _))))))))))))))
    · rintro pid now bound slot generation maps time ⟨⟩ hgeneration
      cases hgeneration
    · rintro pid now bound slot generation maps time ⟨⟩ -
      exact ⟨rfl, fun _ _ => ⟨0, by decide, rfl⟩⟩
  exact sound_of_spare_run hrun

def seventeen : List (Label Unit) :=
  ((List.range cacheMax).flatMap fun i : Nat => miss (i + 1 : Nat) true) ++ miss 17 false

theorem seventeen_broken :
    (seventeen.foldlM step init).isSome = true ∧ ¬ (after seventeen).Sound := by
  refine ⟨by decide, fun h => ?_⟩
  have hvalid : ((after seventeen).cache 0).valid = true := by decide +kernel
  have hcount : 0 < ((after seventeen).cache 0).count := by decide
  have hentries : ((after seventeen).cache 0).entries = none := by decide
  obtain ⟨-, maps, hmaps, -⟩ := h.whole 0 hvalid hcount
  rw [hentries] at hmaps
  cases hmaps

end MapCache

end MemDbg.Process
