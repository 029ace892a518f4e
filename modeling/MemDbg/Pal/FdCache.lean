import MemDbg.Core.Status
import MemDbg.Lib.Descriptors
import MemDbg.Lib.Transition

/-!
# The descriptor cache of the Linux backend

Reads of a process go through `/proc/<pid>/mem`, and the cache keeps four such files
open.  A reader looks its number up under the lock and uses it without; what is open under
the number by then depends on the evictions, flushes and opens of everybody else.  Each
step below makes one system call at most.
-/

namespace MemDbg.Pal

open List Lib Function

/-! ## The kernel and the cache -/

inductive File where
  | mem (pid : Int)
  | other (n : Nat)
deriving DecidableEq

def fdCacheMax : Nat := 4

def fdCacheTtl : Int := 30

structure FdCacheEntry where
  pid : Int
  fd : Nat
  lastUsed : Int
  valid : Bool
  inst : Nat
deriving DecidableEq

def FdCacheEntry.held (e : FdCacheEntry) : Option (Nat × Nat × File) :=
  if e.valid then some (e.fd, e.inst, .mem e.pid) else none

structure ReadJob where
  pid : Int
  address : Nat
  length : Nat
deriving DecidableEq

abbrev Sourced := File × UInt8

inductive Caller where
  | read (j : ReadJob)
  | begin (pid : Int) (malloc : Bool)
deriving DecidableEq

def Caller.pid : Caller → Int
  | read j => j.pid
  | begin pid _ => pid

inductive Phase where
  | idle
  | want (c : Caller) (now : Int)
  | scan (c : Caller) (now oldest : Int) (i : Nat) (slot empty : Option Nat)
  | opening (c : Caller) (now : Int) (slot : Nat)
  | reading (j : ReadJob) (batch : Bool) (fd : Nat) (got : List Sourced)
  | wantFlush (pid : Int) (retry : Option ReadJob)
  | flushing (pid : Int) (retry : Option ReadJob) (i : Nat)
  | reopening (j : ReadJob) (batch : Option Nat)
  | rereading (j : ReadJob) (batch : Option Nat) (fd inst : Nat) (got : List Sourced)
  | closing (j : ReadJob) (batch : Option Nat) (fd inst : Nat) (result : Option (List Sourced))
  | batch (pid : Int) (fd : Nat)
  | openingWrite (pid : Int) (address : Nat) (data : List UInt8)
  | writing (pid : Int) (fd inst address : Nat) (data : List UInt8)
  | closingWrite (pid : Int) (fd inst : Nat)
deriving DecidableEq

namespace Phase

def owned : Phase → Option (Nat × Nat × File)
  | rereading j _ fd e _ => some (fd, e, .mem j.pid)
  | closing j _ fd e _ => some (fd, e, .mem j.pid)
  | writing pid fd e _ _ => some (fd, e, .mem pid)
  | closingWrite pid fd e => some (fd, e, .mem pid)
  | _ => none

def uses : Phase → Option (Int × Nat)
  | reading j _ fd _ => some (j.pid, fd)
  | reopening j (some fd) => some (j.pid, fd)
  | rereading j (some fd) _ _ _ => some (j.pid, fd)
  | closing j (some fd) _ _ _ => some (j.pid, fd)
  | batch pid fd => some (pid, fd)
  | _ => none

def bytes : Phase → Option (Int × List Sourced)
  | reading j _ _ got => some (j.pid, got)
  | rereading j _ _ _ got => some (j.pid, got)
  | closing j _ _ _ (some got) => some (j.pid, got)
  | _ => none

def opens : Phase → Option Int
  | opening c _ _ => some c.pid
  | reopening j _ => some j.pid
  | openingWrite pid _ _ => some pid
  | _ => none

def home (pid : Int) : Option Nat → Phase
  | some fd => batch pid fd
  | none => idle

end Phase

def Caller.got (fd : Nat) : Caller → Phase
  | read j => .reading j false fd []
  | begin pid malloc => if malloc then .batch pid fd else .idle

structure Delivery where
  pid : Int
  bytes : List Sourced
deriving DecidableEq

/-- The threads, the cache and the kernel. -/
structure FdState where
  table : FdTable File
  content : File → Nat → UInt8
  cache : Nat → FdCacheEntry
  locked : Bool
  threads : Nat → Phase
  delivered : List Delivery
  written : List (Int × File)

namespace FdState

def init (content : File → Nat → UInt8) : FdState where
  table := .empty
  content := content
  cache _ := ⟨0, 0, 0, false, 0⟩
  locked := false
  threads _ := .idle
  delivered := []
  written := []

/-! ## Steps -/

def goto (s : FdState) (t : Nat) (p : Phase) : FdState :=
  { s with threads := update s.threads t p }

def closeEntry (s : FdState) (i : Nat) : FdState :=
  { s with
    table := s.table.close (s.cache i).fd (s.cache i).inst
    cache := update s.cache i { s.cache i with valid := false } }

def scanEntry (s : FdState) (t : Nat) (c : Caller) (now oldest : Int) (i : Nat)
    (slot empty : Option Nat) : FdState :=
  let e := s.cache i
  if i < fdCacheMax then
    if !e.valid then s.goto t (.scan c now oldest (i + 1) slot (empty <|> some i))
    else if now - e.lastUsed > fdCacheTtl then
      (s.closeEntry i).goto t (.scan c now oldest (i + 1) slot (empty <|> some i))
    else if e.pid = c.pid then
      { s.goto t (c.got e.fd) with
        cache := update s.cache i { e with lastUsed := now }, locked := false }
    else if e.lastUsed < oldest then s.goto t (.scan c now e.lastUsed (i + 1) (some i) empty)
    else s.goto t (.scan c now oldest (i + 1) slot empty)
  else
    let k := empty.getD (slot.getD 0)
    let s' := if (s.cache k).valid then s.closeEntry k else s
    s'.goto t (.opening c now k)

inductive Outcome where
  | some (n : Nat)
  | eof
  | again
  | error
deriving DecidableEq

inductive Turn where
  | done (got : List Sourced)
  | more (got : List Sourced)
  | badf
  | again
  | error

def chunk (s : FdState) (f : File) (offset n : Nat) : List Sourced :=
  (List.range n).map fun i => (f, s.content f (offset + i))

def preadAll (s : FdState) (j : ReadJob) (fd : Nat) (got : List Sourced) (o : Outcome) :
    Option Turn :=
  if 2 ^ 63 ≤ j.address then some .error
  else if j.length ≤ got.length then some (.done got)
  else
    match s.table.slots fd with
    | none => some .badf
    | some (_, f) =>
      match o with
      | .some n =>
        if 0 < n ∧ n ≤ j.length - got.length then
          some (.more (got ++ s.chunk f (j.address + got.length) n))
        else none
      | .eof | .error => some .error
      | .again => some .again

def closeOwn (s : FdState) (t : Nat) (fd e : Nat) (p : Phase) : FdState :=
  { s.goto t p with table := s.table.close fd e }

/-- What can happen. -/
inductive Label where
  | read (t : Nat) (j : ReadJob) (now : Int)
  | write (t : Nat) (pid : Int) (address : Nat) (data : List UInt8)
  | begin (t : Nat) (pid : Int) (malloc : Bool) (now : Int)
  | item (t : Nat) (address length : Nat)
  | finish (t : Nat)
  | flush (t : Nat) (pid : Int)
  | lock (t : Nat)
  | scan (t : Nat)
  | openFile (t : Nat) (k : Option Nat)
  | pread (t : Nat) (o : Outcome)
  | pwrite (t : Nat) (o : Outcome)
  | flushEntry (t : Nat)
  | close (t : Nat)
  | otherOpen (k n : Nat)
  | otherClose (k : Nat)

def openFile (s : FdState) (t : Nat) (k : Option Nat) : Option FdState :=
  match s.threads t, k with
  | .opening _ _ _, none => some { s.goto t .idle with locked := false }
  | .opening c now slot, some k =>
    if s.table.Lowest k then
      some { s.goto t (c.got k) with
        table := s.table.openAs k (.mem c.pid)
        cache := update s.cache slot ⟨c.pid, k, now, true, s.table.opened⟩
        locked := false }
    else none
  | .reopening j batch, none => some (s.goto t (.home j.pid batch))
  | .reopening j batch, some k =>
    if s.table.Lowest k then
      some { s.goto t (.rereading j batch k s.table.opened []) with
        table := s.table.openAs k (.mem j.pid) }
    else none
  | .openingWrite _ _ _, none => some (s.goto t .idle)
  | .openingWrite pid address data, some k =>
    if s.table.Lowest k then
      some { s.goto t (.writing pid k s.table.opened address data) with
        table := s.table.openAs k (.mem pid) }
    else none
  | _, _ => none

def deliver (s : FdState) (pid : Int) (got : List Sourced) : FdState :=
  { s with delivered := ⟨pid, got⟩ :: s.delivered }

def pread (s : FdState) (t : Nat) (o : Outcome) : Option FdState :=
  match s.threads t with
  | .reading j batch fd got =>
    let home := Phase.home j.pid (if batch then some fd else none)
    (s.preadAll j fd got o).map fun
      | .done got => (s.goto t home).deliver j.pid got
      | .more got => s.goto t (.reading j batch fd got)
      | .badf =>
        if batch then s.goto t (if 0 < j.pid then .reopening j (some fd) else home)
        else s.goto t (.wantFlush j.pid (some j))
      | .again => s.goto t home
      | .error => s.goto t (if batch then home else .wantFlush j.pid none)
  | .rereading j batch fd e got =>
    (s.preadAll j fd got o).map fun
      | .done got => s.goto t (.closing j batch fd e (some got))
      | .more got => s.goto t (.rereading j batch fd e got)
      | _ => s.goto t (.closing j batch fd e none)
  | _ => none

def overwrite (content : File → Nat → UInt8) (f : File) (offset : Nat) (data : List UInt8) :
    File → Nat → UInt8 :=
  update content f fun a => if offset ≤ a then (data[a - offset]?).getD (content f a)
    else content f a

def pwrite (s : FdState) (t : Nat) (o : Outcome) : Option FdState :=
  match s.threads t with
  | .writing pid fd e address data =>
    if data = [] ∨ 2 ^ 63 ≤ address then some (s.goto t (.closingWrite pid fd e))
    else
      match s.table.slots fd, o with
      | some (_, f), .some n =>
        if 0 < n ∧ n ≤ data.length then
          some { s.goto t (.writing pid fd e (address + n) (data.drop n)) with
            content := overwrite s.content f address (data.take n)
            written := (pid, f) :: s.written }
        else none
      | _, _ => some (s.goto t (.closingWrite pid fd e))
  | _ => none

def flushEntry (s : FdState) (t : Nat) (pid : Int) (retry : Option ReadJob) (i : Nat) : FdState :=
  if i < fdCacheMax then
    let s' := if (s.cache i).valid ∧ (pid ≤ 0 ∨ (s.cache i).pid = pid) then s.closeEntry i else s
    s'.goto t (.flushing pid retry (i + 1))
  else
    { s.goto t
    (match retry with | some j => .reopening j none | none => .idle) with locked := false }

def step (s : FdState) : Label → Option FdState
  | .read t j now =>
    match s.threads t with
    | .idle => some (s.goto t (.want (.read j) now))
    | _ => none
  | .write t pid address data =>
    match s.threads t with
    | .idle => some (s.goto t (.openingWrite pid address data))
    | _ => none
  | .begin t pid malloc now =>
    match s.threads t with
    | .idle => some (s.goto t (.want (.begin pid malloc) now))
    | _ => none
  | .item t address length =>
    match s.threads t with
    | .batch pid fd =>
      some (if length = 0 then s else s.goto t (.reading ⟨pid, address, length⟩ true fd []))
    | _ => none
  | .finish t =>
    match s.threads t with
    | .batch _ _ => some (s.goto t .idle)
    | _ => none
  | .flush t pid =>
    match s.threads t with
    | .idle => some (s.goto t (.wantFlush pid none))
    | _ => none
  | .lock t =>
    if s.locked then none
    else
      match s.threads t with
      | .want c now => some { s.goto t (.scan c now now 0 none none) with locked := true }
      | .wantFlush pid retry => some { s.goto t (.flushing pid retry 0) with locked := true }
      | _ => none
  | .scan t =>
    match s.threads t with
    | .scan c now oldest i slot empty => some (s.scanEntry t c now oldest i slot empty)
    | _ => none
  | .openFile t k => s.openFile t k
  | .pread t o => s.pread t o
  | .pwrite t o => s.pwrite t o
  | .flushEntry t =>
    match s.threads t with
    | .flushing pid retry i => some (s.flushEntry t pid retry i)
    | _ => none
  | .close t =>
    match s.threads t with
    | .closing j batch fd e result =>
      let s' := s.closeOwn t fd e (.home j.pid batch)
      some (match result with | some got => s'.deliver j.pid got | none => s')
    | .closingWrite _ fd e => some (s.closeOwn t fd e .idle)
    | _ => none
  | .otherOpen k n =>
    if s.table.Lowest k then some { s with table := s.table.openAs k (.other n) } else none
  | .otherClose k =>
    match s.table.slots k with
    | some (e, .other _) => some { s with table := s.table.close k e }
    | _ => none

/-! ## What is promised -/

/-- Reads deliver bytes of the process they are for, writes change only the process they
are for, and nothing is closed twice. -/
structure Sound (s : FdState) : Prop where
  reads : ∀ d ∈ s.delivered, ∀ b ∈ d.bytes, b.1 = .mem d.pid
  writes : ∀ w ∈ s.written, w.2 = .mem w.1
  closes : ∀ e, s.table.closes e ≤ 1

/-- No open returns a number that a thread still uses for another process. -/
def Spared (s : FdState) : Label → Prop
  | .openFile t (some k) => ∀ pid, (s.threads t).opens = some pid →
    ∀ t' q, (s.threads t').uses = some (q, k) → q = pid
  | .otherOpen k _ => ∀ t' q, (s.threads t').uses ≠ some (q, k)
  | _ => True

/-! ## The invariant -/

inductive Owner where
  | cache (i : Nat)
  | thread (t : Nat)
deriving DecidableEq

def own (s : FdState) : Owner → Option (Nat × Nat × File)
  | .cache i => (s.cache i).held
  | .thread t => (s.threads t).owned

def OnlyMem (s : FdState) (pid : Int) (k : Nat) : Prop :=
  ∀ e f, s.table.slots k = some (e, f) → f = .mem pid

structure Inv (s : FdState) : Prop where
  owned : s.table.Owned s.own
  uses : ∀ t pid k, (s.threads t).uses = some (pid, k) → s.OnlyMem pid k
  bytes : ∀ t pid l, (s.threads t).bytes = some (pid, l) → ∀ b ∈ l, b.1 = .mem pid
  reads : ∀ d ∈ s.delivered, ∀ b ∈ d.bytes, b.1 = .mem d.pid
  writes : ∀ w ∈ s.written, w.2 = .mem w.1

theorem Inv.sound {s : FdState} (h : s.Inv) : s.Sound := ⟨h.reads, h.writes, h.owned.once⟩

variable {s s' : FdState} {t : Nat} {p : Phase}

theorem own_cache {i : Nat} (hvalid : (s.cache i).valid = true) :
    s.own (.cache i) = some ((s.cache i).fd, (s.cache i).inst, .mem (s.cache i).pid) := by
  change (s.cache i).held = _
  rw [FdCacheEntry.held, if_pos hvalid]

theorem own_goto (s : FdState) (t : Nat) (p : Phase) :
    (s.goto t p).own = update s.own (.thread t) p.owned := by
  funext o
  cases o with
  | cache i => rfl
  | thread t' =>
    rcases eq_or_ne t' t with rfl | hne
    · rw [update_self]
      exact congrArg Phase.owned (update_self ..)
    · rw [update_of_ne fun heq => hne (Owner.thread.inj heq)]
      exact congrArg Phase.owned (update_of_ne hne ..)

theorem own_update_cache (s : FdState) (i : Nat) (e : FdCacheEntry) :
    own { s with cache := update s.cache i e } = update s.own (.cache i) e.held := by
  funext o
  cases o with
  | thread t => rfl
  | cache j =>
    rcases eq_or_ne j i with rfl | hne
    · rw [update_self]
      exact congrArg FdCacheEntry.held (update_self ..)
    · rw [update_of_ne fun heq => hne (Owner.cache.inj heq)]
      exact congrArg FdCacheEntry.held (update_of_ne hne ..)

theorem Inv.relock (h : s.Inv) (locked : Bool) : Inv { s with locked := locked } :=
  ⟨h.owned, h.uses, h.bytes, h.reads, h.writes⟩

theorem Inv.deliver (h : s.Inv) {pid : Int} {got : List Sourced}
    (hgot : ∀ b ∈ got, b.1 = .mem pid) : (s.deliver pid got).Inv where
  owned := h.owned
  uses := h.uses
  bytes := h.bytes
  reads d hd := by
    rcases mem_cons.1 hd with rfl | hd
    · exact hgot
    · exact h.reads d hd
  writes := h.writes

def PhaseOk (s : FdState) (p : Phase) : Prop :=
  (∀ pid k, p.uses = some (pid, k) → s.OnlyMem pid k) ∧
    ∀ pid l, p.bytes = some (pid, l) → ∀ b ∈ l, b.1 = .mem pid

theorem Inv.phaseOk (h : s.Inv) (t : Nat) : s.PhaseOk (s.threads t) := ⟨h.uses t, h.bytes t⟩

theorem phaseOk_of_none (s : FdState) {p : Phase} (huses : p.uses = none)
    (hbytes : p.bytes = none) :
    s.PhaseOk p := by
  refine ⟨fun pid k hp => ?_, fun pid l hp => ?_⟩
  · rw [huses] at hp
    cases hp
  · rw [hbytes] at hp
    cases hp

theorem Inv.goto' (h : s.Inv) {table : FdTable File}
    (howned : table.Owned (update s.own (.thread t) p.owned))
    (hslots : ∀ k e f, table.slots k = some (e, f) → s.table.slots k = some (e, f))
    (hp : s.PhaseOk p) : Inv { s.goto t p with table := table } where
  owned := own_goto s t p ▸ howned
  uses t' pid k ht' e f hk := by
    have ht : (update s.threads t p t').uses = some (pid, k) := ht'
    rw [update_apply] at ht
    split_ifs at ht
    · exact hp.1 pid k ht e f (hslots k e f hk)
    · exact h.uses t' pid k ht e f (hslots k e f hk)
  bytes t' pid l ht' := by
    have ht : (update s.threads t p t').bytes = some (pid, l) := ht'
    rw [update_apply] at ht
    split_ifs at ht
    · exact hp.2 pid l ht
    · exact h.bytes t' pid l ht
  reads := h.reads
  writes := h.writes

theorem Inv.goto (h : s.Inv) (howned : p.owned = (s.threads t).owned) (hp : s.PhaseOk p) :
    (s.goto t p).Inv := by
  refine h.goto' ?_ (fun _ _ _ hk => hk) hp
  have hsame : update s.own (.thread t) p.owned = s.own := by
    rw [howned]
    exact update_eq_self (Owner.thread t) s.own
  rw [hsame]
  exact h.owned

theorem Inv.closeOwn (h : s.Inv) {fd e : Nat} {f : File}
    (ht : (s.threads t).owned = some (fd, e, f))
    (howned : p.owned = none) (hp : s.PhaseOk p) : (s.closeOwn t fd e p).Inv := by
  refine h.goto' ?_ ?_ hp
  · rw [howned]
    exact h.owned.close (o := Owner.thread t) ht
  · intro k e' f' hk
    rw [FdTable.slots_close] at hk
    split_ifs at hk
    exact hk

theorem Inv.closeEntry (h : s.Inv) {i : Nat} (hvalid : (s.cache i).valid = true) :
    (s.closeEntry i).Inv where
  owned := by
    have hown : (s.closeEntry i).own = update s.own (.cache i) none :=
      own_update_cache s i { s.cache i with valid := false }
    rw [hown]
    exact h.owned.close (own_cache hvalid)
  uses t pid k ht e f hk := by
    have hk' : (s.table.close (s.cache i).fd (s.cache i).inst).slots k = some (e, f) := hk
    rw [FdTable.slots_close] at hk'
    split_ifs at hk'
    exact h.uses t pid k ht e f hk'
  bytes := h.bytes
  reads := h.reads
  writes := h.writes

theorem Inv.openFile (h : s.Inv) {k : Nat} (hk : s.table.slots k = none) {pid : Int} {o : Owner}
    {cache : Nat → FdCacheEntry} {locked : Bool}
    (hspared : ∀ t' q, (s.threads t').uses = some (q, k) → q = pid)
    (hown : own { s.goto t p with cache := cache } =
      update (update s.own (.thread t) none) o (some (k, s.table.opened, .mem pid)))
    (huses : ∀ q j, p.uses = some (q, j) → q = pid ∧ (j = k ∨ s.OnlyMem pid j))
    (hbytes : ∀ q l, p.bytes = some (q, l) → l = []) :
    Inv { s.goto t p with
      table := s.table.openAs k (.mem pid), cache := cache, locked := locked } where
  owned := hown ▸ (h.owned.drop (.thread t)).openAs hk o (.mem pid)
  uses t' q j ht' e f hj := by
    have ht : (update s.threads t p t').uses = some (q, j) := ht'
    have hj' : (s.table.openAs k (.mem pid)).slots j = some (e, f) := hj
    rw [FdTable.slots_openAs] at hj'
    rw [update_apply] at ht
    split_ifs at ht hj' with heq hjk hjk
    · cases hj'
      rw [(huses q j ht).1]
    · obtain ⟨rfl, hj₁ | honly⟩ := huses q j ht
      · exact absurd hj₁ hjk
      · exact honly e f hj'
    · cases hj'
      rw [hspared t' q (hjk ▸ ht)]
    · exact h.uses t' q j ht e f hj'
  bytes t' q l ht' := by
    have ht : (update s.threads t p t').bytes = some (q, l) := ht'
    rw [update_apply] at ht
    split_ifs at ht
    · rw [hbytes q l ht]
      exact nofun
    · exact h.bytes t' q l ht
  reads := h.reads
  writes := h.writes

theorem phaseOk_home {pid : Int} {batch : Option Nat}
    (h : ∀ fd, batch = some fd → s.OnlyMem pid fd) : s.PhaseOk (.home pid batch) := by
  cases batch with
  | none => exact phaseOk_of_none s rfl rfl
  | some fd =>
    refine ⟨?_, nofun⟩
    rintro _ _ ⟨⟩
    exact h fd rfl

theorem owned_home (pid : Int) (batch : Option Nat) : (Phase.home pid batch).owned = none := by
  cases batch <;> rfl

theorem preadAll_sourced {j : ReadJob} {fd : Nat} {got got' : List Sourced} {o : Outcome}
    {turn : Turn} (hgot : ∀ b ∈ got, b.1 = .mem j.pid) (hfd : s.OnlyMem j.pid fd)
    (h : s.preadAll j fd got o = some turn) (hturn : turn = .done got' ∨ turn = .more got') :
    ∀ b ∈ got', b.1 = .mem j.pid := by
  rw [preadAll] at h
  split_ifs at h
  · cases h
    rcases hturn with hturn | hturn <;> cases hturn
  · cases h
    rcases hturn with hturn | hturn <;> cases hturn
    exact hgot
  · split at h
    · cases h
      rcases hturn with hturn | hturn <;> cases hturn
    · rename_i e f hslot
      split at h
      · split_ifs at h
        cases h
        rcases hturn with hturn | hturn <;> cases hturn
        intro b hb
        rcases mem_append.1 hb with hold | hnew
        · exact hgot b hold
        · obtain ⟨i, -, rfl⟩ := mem_map.1 hnew
          exact hfd e f hslot
      · cases h
        rcases hturn with hturn | hturn <;> cases hturn
      · cases h
        rcases hturn with hturn | hturn <;> cases hturn
      · cases h
        rcases hturn with hturn | hturn <;> cases hturn

theorem Inv.scanEntry (h : s.Inv) {c : Caller} {now oldest : Int} {i : Nat}
    {slot empty : Option Nat} (ht : s.threads t = .scan c now oldest i slot empty) :
    (s.scanEntry t c now oldest i slot empty).Inv := by
  have howned : (s.threads t).owned = none := by
    rw [ht]
    rfl
  have hgoto {s' : FdState} (h' : s'.Inv) (hthreads : s'.threads = s.threads) (p : Phase)
      (hp : p.owned = none) (huses : p.uses = none) (hbytes : p.bytes = none) : (s'.goto t p).Inv :=
    h'.goto (by rw [hp, hthreads, howned]) (phaseOk_of_none s' huses hbytes)
  unfold FdState.scanEntry
  dsimp only
  split_ifs with hi hinvalid hold hpid hlru hvalid
  · exact hgoto h rfl _ rfl rfl rfl
  · exact hgoto (h.closeEntry (by simpa using hinvalid)) rfl _ rfl rfl rfl
  · -- a hit: the number is open on the memory of this process
    have hslot := h.owned.held _ _ _ _ (own_cache (by simpa using hinvalid))
    have honly : s.OnlyMem c.pid (s.cache i).fd := by
      intro e f hk
      rw [hslot] at hk
      cases hk
      rw [hpid]
    have hcache : Inv { s with cache := update s.cache i { s.cache i with lastUsed := now } } := by
      refine ⟨?_, h.uses, h.bytes, h.reads, h.writes⟩
      rw [own_update_cache]
      have hsame :
        update s.own (.cache i) ({ s.cache i with lastUsed := now } : FdCacheEntry).held =
          s.own := update_eq_self (Owner.cache i) s.own
      rw [hsame]
      exact h.owned
    refine Inv.relock (hcache.goto ?_ ?_) false
    · rw [howned]
      cases c with
      | read j => rfl
      | begin pid malloc => cases malloc <;> rfl
    · cases c with
      | read j =>
        refine ⟨?_, ?_⟩
        · rintro _ _ ⟨⟩
          exact honly
        · rintro _ _ ⟨⟩
          exact nofun
      | begin pid malloc =>
        cases malloc with
        | false => exact phaseOk_of_none _ rfl rfl
        | true =>
          refine ⟨?_, nofun⟩
          rintro _ _ ⟨⟩
          exact honly
  · exact hgoto h rfl _ rfl rfl rfl
  · exact hgoto h rfl _ rfl rfl rfl
  · exact hgoto (h.closeEntry hvalid) rfl _ rfl rfl rfl
  · exact hgoto h rfl _ rfl rfl rfl

theorem Inv.flushEntry (h : s.Inv) {pid : Int} {retry : Option ReadJob} {i : Nat}
    (ht : s.threads t = .flushing pid retry i) : (s.flushEntry t pid retry i).Inv := by
  have howned : (s.threads t).owned = none := by
    rw [ht]
    rfl
  unfold FdState.flushEntry
  split_ifs with hi hdrop
  · exact (h.closeEntry hdrop.1).goto howned.symm (phaseOk_of_none _ rfl rfl)
  · exact h.goto howned.symm (phaseOk_of_none s rfl rfl)
  · refine Inv.relock (h.goto ?_ ?_) false
    · rw [howned]
      cases retry <;> rfl
    · cases retry with
      | none => exact phaseOk_of_none s rfl rfl
      | some j => exact phaseOk_of_none s rfl rfl

theorem inv_openFile (h : s.Inv) {k : Option Nat} (hspared : s.Spared (.openFile t k))
    (hstep : s.openFile t k = some s') : s'.Inv := by
  unfold FdState.openFile at hstep
  split at hstep
  · rename_i ht
    cases hstep
    refine Inv.relock (h.goto ?_ (phaseOk_of_none s rfl rfl)) false
    rw [ht]
    rfl
  · rename_i c now slot k ht
    split_ifs at hstep with hk
    cases hstep
    have hopens : (s.threads t).opens = some c.pid := by rw [ht]; rfl
    have howned : (c.got k).owned = none := by
      cases c with
      | read j => rfl
      | begin pid malloc => cases malloc <;> rfl
    refine h.openFile hk.slots (o := .cache slot) (hspared c.pid hopens) ?_ ?_ ?_
    · rw [← howned, ← own_goto]
      exact own_update_cache (s.goto t (c.got k)) slot _
    · intro q j hq
      cases c with
      | read job =>
        cases hq
        exact ⟨rfl, .inl rfl⟩
      | begin pid malloc =>
        cases malloc with
        | false => cases hq
        | true =>
          cases hq
          exact ⟨rfl, .inl rfl⟩
    · intro q l hq
      cases c with
      | read job =>
        cases hq
        rfl
      | begin pid malloc => cases malloc <;> cases hq
  · rename_i j batch ht
    cases hstep
    refine h.goto ?_ (phaseOk_home fun fd hfd => ?_)
    · rw [owned_home, ht]
      rfl
    · refine h.uses t j.pid fd ?_
      rw [ht, hfd]
      rfl
  · rename_i j batch k ht
    split_ifs at hstep with hk
    cases hstep
    have hopens : (s.threads t).opens = some j.pid := by rw [ht]; rfl
    refine h.openFile hk.slots (o := .thread t) (hspared j.pid hopens) ?_ ?_ ?_
    · rw [update_idem]
      exact own_goto s t _
    · intro q fd hq
      cases batch with
      | none => cases hq
      | some fd' =>
        cases hq
        exact ⟨rfl, .inr (h.uses t j.pid fd (by rw [ht]; rfl))⟩
    · rintro q l ⟨⟩
      rfl
  · rename_i ht
    cases hstep
    refine h.goto ?_ (phaseOk_of_none s rfl rfl)
    rw [ht]
    rfl
  · rename_i pid address data k ht
    split_ifs at hstep with hk
    cases hstep
    have hopens : (s.threads t).opens = some pid := by rw [ht]; rfl
    refine h.openFile hk.slots (o := .thread t) (hspared pid hopens) ?_ nofun nofun
    rw [update_idem]
    exact own_goto s t _
  · cases hstep

theorem inv_pread (h : s.Inv) {o : Outcome} (hstep : s.pread t o = some s') : s'.Inv := by
  rw [FdState.pread] at hstep
  split at hstep
  · rename_i j batch fd got ht
    obtain ⟨turn, hturn, rfl⟩ := Option.map_eq_some_iff.1 hstep
    have hthread := h.phaseOk t
    rw [ht] at hthread
    have honly : s.OnlyMem j.pid fd := hthread.1 j.pid fd rfl
    have hgot : ∀ b ∈ got, b.1 = .mem j.pid := hthread.2 j.pid got rfl
    have howned : (s.threads t).owned = none := by rw [ht]; rfl
    have hhome : (s.goto t (.home j.pid (if batch then some fd else none))).Inv := by
      refine h.goto ((owned_home ..).trans howned.symm) (phaseOk_home fun fd' hfd' => ?_)
      split_ifs at hfd'
      cases hfd'
      exact honly
    have hplain (p : Phase) (hp : p.owned = none) (huses : p.uses = none)
      (hbytes : p.bytes = none) :
        (s.goto t p).Inv := h.goto (hp.trans howned.symm) (phaseOk_of_none s huses hbytes)
    cases turn with
    | done got' => exact hhome.deliver (preadAll_sourced hgot honly hturn (.inl rfl))
    | more got' =>
      refine h.goto howned.symm ⟨?_, ?_⟩
      · rintro _ _ ⟨⟩
        exact honly
      · rintro _ _ ⟨⟩
        exact preadAll_sourced hgot honly hturn (.inr rfl)
    | badf =>
      cases batch with
      | false => exact hplain _ rfl rfl rfl
      | true =>
        change (s.goto t (if 0 < j.pid then .reopening j (some fd)
          else .home j.pid (some fd))).Inv
        split_ifs
        · refine h.goto howned.symm ⟨?_, nofun⟩
          rintro _ _ ⟨⟩
          exact honly
        · exact hhome
    | again => exact hhome
    | error =>
      cases batch with
      | false => exact hplain _ rfl rfl rfl
      | true => exact hhome
  · rename_i j batch fd e got ht
    obtain ⟨turn, hturn, rfl⟩ := Option.map_eq_some_iff.1 hstep
    have hthread := h.phaseOk t
    rw [ht] at hthread
    have hgot : ∀ b ∈ got, b.1 = .mem j.pid := hthread.2 j.pid got rfl
    have howned : (s.threads t).owned = some (fd, e, .mem j.pid) := by rw [ht]; rfl
    have honly : s.OnlyMem j.pid fd := by
      intro e' f hk
      rw [h.owned.held (.thread t) fd e _ howned] at hk
      cases hk
      rfl
    have hbatch (q : Int) (fd' : Nat)
        (hq : (Phase.rereading j batch fd e got).uses = some (q, fd')) : s.OnlyMem q fd' :=
      hthread.1 q fd' hq
    have hclosing (result : Option (List Sourced))
        (hresult : ∀ got', result = some got' → ∀ b ∈ got', b.1 = .mem j.pid) :
        (s.goto t (.closing j batch fd e result)).Inv := by
      refine h.goto howned.symm ⟨fun q fd' hq => hbatch q fd' ?_, fun q l hq => ?_⟩
      · cases batch <;> exact hq
      · cases result with
        | none => cases hq
        | some got' =>
          cases hq
          exact hresult l rfl
    cases turn with
    | done got' =>
      refine hclosing (some got') fun got'' hgot'' => ?_
      cases hgot''
      exact preadAll_sourced hgot honly hturn (.inl rfl)
    | more got' =>
      refine h.goto howned.symm ⟨fun q fd' hq => hbatch q fd' ?_, ?_⟩
      · cases batch <;> exact hq
      · rintro _ _ ⟨⟩
        exact preadAll_sourced hgot honly hturn (.inr rfl)
    | badf => exact hclosing none nofun
    | again => exact hclosing none nofun
    | error => exact hclosing none nofun
  · cases hstep

theorem inv_pwrite (h : s.Inv) {o : Outcome} (hstep : s.pwrite t o = some s') : s'.Inv := by
  rw [FdState.pwrite] at hstep
  split at hstep
  · rename_i pid fd e address data ht
    have howned : (s.threads t).owned = some (fd, e, .mem pid) := by rw [ht]; rfl
    have hclosing : (s.goto t (.closingWrite pid fd e)).Inv :=
      h.goto howned.symm (phaseOk_of_none s rfl rfl)
    split at hstep
    · cases hstep
      exact hclosing
    · split at hstep
      · rename_i e' f n hslot
        split_ifs at hstep
        cases hstep
        have hgoto : (s.goto t (.writing pid fd e (address + n) (data.drop n))).Inv :=
          h.goto howned.symm (phaseOk_of_none s rfl rfl)
        refine ⟨hgoto.owned, hgoto.uses, hgoto.bytes, hgoto.reads, fun w hw => ?_⟩
        rcases mem_cons.1 hw with rfl | hw
        · rw [h.owned.held (.thread t) fd e _ howned] at hslot
          cases hslot
          rfl
        · exact h.writes w hw
      · cases hstep
        exact hclosing
  · cases hstep

theorem inv_step {l : Label} (h : s.Inv) (hspared : s.Spared l) (hstep : s.step l = some s') :
    s'.Inv := by
  have hplain {t : Nat} {p p' : Phase} (ht : s.threads t = p) (hp : p.owned = none)
      (hp' : p'.owned = none) (huses : p'.uses = none) (hbytes : p'.bytes = none) :
      (s.goto t p').Inv := by
    refine h.goto ?_ (phaseOk_of_none s huses hbytes)
    rw [ht, hp, hp']
  cases l with
  | read t j now =>
    rw [step] at hstep
    split at hstep
    · rename_i ht
      cases hstep
      exact hplain ht rfl rfl rfl rfl
    · cases hstep
  | write t pid address data =>
    rw [step] at hstep
    split at hstep
    · rename_i ht
      cases hstep
      exact hplain ht rfl rfl rfl rfl
    · cases hstep
  | begin t pid malloc now =>
    rw [step] at hstep
    split at hstep
    · rename_i ht
      cases hstep
      exact hplain ht rfl rfl rfl rfl
    · cases hstep
  | item t address length =>
    rw [step] at hstep
    split at hstep
    · rename_i pid fd ht
      split_ifs at hstep
      · cases hstep
        exact h
      · cases hstep
        refine h.goto ?_ ⟨?_, ?_⟩
        · rw [ht]
          rfl
        · rintro _ _ ⟨⟩
          exact h.uses t pid fd (by rw [ht]; rfl)
        · rintro _ _ ⟨⟩
          exact nofun
    · cases hstep
  | finish t =>
    rw [step] at hstep
    split at hstep
    · rename_i ht
      cases hstep
      exact hplain ht rfl rfl rfl rfl
    · cases hstep
  | flush t pid =>
    rw [step] at hstep
    split at hstep
    · rename_i ht
      cases hstep
      exact hplain ht rfl rfl rfl rfl
    · cases hstep
  | lock t =>
    rw [step] at hstep
    split at hstep
    · cases hstep
    · split at hstep
      · rename_i ht
        cases hstep
        exact (hplain ht rfl rfl rfl rfl).relock true
      · rename_i ht
        cases hstep
        exact (hplain ht rfl rfl rfl rfl).relock true
      · cases hstep
  | scan t =>
    rw [step] at hstep
    split at hstep
    · rename_i ht
      cases hstep
      exact h.scanEntry ht
    · cases hstep
  | openFile t k => exact inv_openFile h hspared hstep
  | pread t o => exact inv_pread h hstep
  | pwrite t o => exact inv_pwrite h hstep
  | flushEntry t =>
    rw [step] at hstep
    split at hstep
    · rename_i ht
      cases hstep
      exact h.flushEntry ht
    · cases hstep
  | close t =>
    rw [step] at hstep
    split at hstep
    · rename_i j batch fd e result ht
      cases hstep
      have howned : (s.threads t).owned = some (fd, e, .mem j.pid) := by rw [ht]; rfl
      have hclose : (s.closeOwn t fd e (.home j.pid batch)).Inv := by
        refine h.closeOwn howned (owned_home ..) (phaseOk_home fun fd' hfd' => ?_)
        refine h.uses t j.pid fd' ?_
        rw [ht, hfd']
        cases result <;> rfl
      cases result with
      | none => exact hclose
      | some got => exact hclose.deliver (h.bytes t j.pid got (by rw [ht]; cases batch <;> rfl))
    · rename_i pid fd e ht
      cases hstep
      exact h.closeOwn (f := .mem pid) (by rw [ht]; rfl) rfl (phaseOk_of_none s rfl rfl)
    · cases hstep
  | otherOpen k n =>
    rw [step] at hstep
    split_ifs at hstep with hk
    cases hstep
    refine ⟨h.owned.openFree hk.slots _, fun t q j ht e f hj => ?_, h.bytes, h.reads, h.writes⟩
    have hj' : (s.table.openAs k (.other n)).slots j = some (e, f) := hj
    rw [FdTable.slots_openAs] at hj'
    split_ifs at hj' with hjk
    · rw [hjk] at ht
      exact absurd ht (hspared t q)
    · exact h.uses t q j ht e f hj'
  | otherClose k =>
    rw [step] at hstep
    split at hstep
    · rename_i e n hk
      cases hstep
      refine ⟨h.owned.closeFree hk fun o e' f ho ↦ ?_, fun t q j ht e' f hj ↦ ?_, h.bytes, h.reads,
        h.writes⟩
      · have hheld := h.owned.held o k e' f ho
        rw [hk] at hheld
        cases hheld
        cases o with
        | cache i =>
          change (s.cache i).held = some _ at ho
          rw [FdCacheEntry.held] at ho
          split_ifs at ho
          cases ho
        | thread t =>
          change (s.threads t).owned = some _ at ho
          cases hphase : s.threads t <;> rw [hphase] at ho <;> cases ho
      · have hj' : (s.table.close k e).slots j = some (e', f) := hj
        rw [FdTable.slots_close] at hj'
        split_ifs at hj'
        exact h.uses t q j ht e' f hj'
    · cases hstep

theorem inv_init (content : File → Nat → UInt8) : (init content).Inv where
  owned := by
    have hown : (init content).own = fun _ => none := by
      funext o
      cases o <;> rfl
    rw [hown]
    exact FdTable.owned_empty
  uses := nofun
  bytes := nofun
  reads := nofun
  writes := nofun

/-- In every run in which no open returns a number that is still used for another
process, reads and writes are of the process they are for. -/
theorem sound_of_spared_run {content : File → Nat → UInt8} {labels : List Label}
    (h : Run step Spared (init content) labels s) : s.Sound :=
  Inv.sound (h.invariant (P := Inv) (fun _ _ _ hs hspared hstep => inv_step hs hspared hstep)
    (inv_init content))

def numbered : File → Nat → UInt8
  | .mem pid, _ => pid.toNat.toUInt8
  | .other _, _ => 0

def after (labels : List Label) :
    FdState := (labels.foldlM step (init numbered)).getD (init numbered)

def miss (t : Nat) (pid : Int) (k : Nat) : List Label :=
  .read t ⟨pid, 4096, 1⟩ 100 :: .lock t :: List.replicate 5 (.scan t) ++ [.openFile t (some k)]

def readByte (t : Nat) : List Label := [.pread t (.some 1), .pread t .eof]

def twoReads : List Label := miss 0 7 0 ++ miss 1 8 1 ++ readByte 1 ++ readByte 0

theorem sound_of_spared_run_twoReads : (after twoReads).Sound := by
  have hrun : Run step Spared (init numbered) twoReads (after twoReads) := by
    refine .cons trivial rfl (.cons trivial rfl (.cons trivial rfl (.cons trivial rfl
      (.cons trivial rfl (.cons trivial rfl (.cons trivial rfl (.cons ?_ rfl ?_)))))))
    · intro pid _ t q huses
      cases t with
      | zero => cases huses
      | succ n => cases huses
    refine .cons trivial rfl (.cons trivial rfl (.cons trivial rfl (.cons trivial rfl
      (.cons trivial rfl (.cons trivial rfl (.cons trivial rfl (.cons ?_ rfl
        (.cons trivial rfl (.cons trivial rfl (.cons trivial rfl
          (.cons trivial rfl (.nil _))))))))))))
    intro pid _ t q huses
    match t with
    | 0 => cases huses
    | 1 => cases huses
    | n + 2 => cases huses
  exact sound_of_spared_run hrun

def reused : List Label :=
  miss 0 7 0 ++ [.read 1 ⟨7, 0, 1⟩ 100, .lock 1, .scan 1, .pread 1 .error, .lock 1] ++
    List.replicate 5 (.flushEntry 1) ++ miss 1 8 0 ++ readByte 0

theorem reused_not_sound :
    Run step (fun _ _ => True) (init numbered) reused (after reused) ∧ ¬ (after reused).Sound := by
  refine ⟨.of_isSome (by decide), fun h => ?_⟩
  · have hdelivered : (after reused).delivered = [⟨7, [(.mem 8, 8)]⟩] := by decide
    have hread := h.reads ⟨7, [(.mem 8, 8)]⟩ (hdelivered ▸ mem_cons_self) (.mem 8, 8)
      mem_cons_self
    cases hread

end FdState

end MemDbg.Pal
