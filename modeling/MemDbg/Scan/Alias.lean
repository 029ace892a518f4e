import Mathlib.Data.List.Nodup
import MemDbg.Lib.Transition
import MemDbg.Scan.Walker

/-!
# The page alias engine

A context maps pages of a target into spans of 2 MiB of its own arena by writing the
leaf table of the span, and unmaps them by writing zeros.  Kernel reads and writes may
fail at any time; a failed write changes nothing.  When an arena is used up or the
context ends, the arena is unmapped only if the tables of all its mapped spans read
back empty, as far as the first 32 entries go.

The model keeps the leaf tables of an arena with its context, and notes in each entry
whether it was written for a foreign page.
-/

namespace MemDbg.Scan

open List Lib

/-! ## Contexts -/

def alSpanSize : Nat := 0x200000

def alPageSize : Nat := 0x1000

def alMaxPages : Nat := 511

def alArenaDefault : Nat := 64 * 2 ^ 20

def alDmapBound : Nat := 0x1000000000

def alPteProt : Nat := 0x7

def alMaxSpans : Nat := 128

def alVerifyInterval : Nat := 16

def alVerifyMax : Nat := 32

structure Targets where
  content : Nat → Nat
  dmap : Nat
  cr3 : Nat → Nat

def Targets.memory (t : Targets) : KernelMemory := ⟨fun a => some (t.content a), t.dmap⟩

structure SpanCache where
  valid : Bool
  span2m : Nat
  huge : Bool
  physBase : Nat
  pte : Nat
  spanPt : Nat → Nat

structure AliasCtx where
  pid : Nat
  mapCounter : Nat
  arenaBytes : Nat
  arenaRaw : Nat
  arenaSize : Nat
  arenaEnd : Nat
  cursor : Nat
  usedPtBases : List Nat
  usedCount : Nat
  hasMapping : Bool
  mapPtKaddr : Nat
  mapPages : Nat
  cache : SpanCache

structure LeafTable where
  kaddr : Nat
  entries : Nat → Nat
  foreign : Nat → Bool

structure AliasSession where
  ctx : AliasCtx
  tables : List LeafTable

inductive AliasEvent where
  | unmapped (tables : List LeafTable)
  | mapped (pid targetVa npages : Nat) (table : LeafTable)

def LeafTable.write (tb : LeafTable) (n : Nat) (values : Nat → Nat) (foreign : Bool) :
    LeafTable where
  kaddr := tb.kaddr
  entries := fun slot => if slot < n then values slot else tb.entries slot
  foreign := fun slot => if slot < n then foreign else tb.foreign slot

def kwriteTable (tables : List LeafTable) (kaddr n : Nat) (values : Nat → Nat)
    (foreign ok : Bool) : List LeafTable :=
  if ok then
    tables.map fun tb => if tb.kaddr = kaddr then tb.write n values foreign else tb
  else tables

namespace AliasSession

def pageAliasRelease (s : AliasSession) (writeOk : Bool) : AliasSession :=
  if s.ctx.hasMapping then
    { ctx := { s.ctx with hasMapping := false, mapPages := 0, mapPtKaddr := 0 }
      tables := kwriteTable s.tables s.ctx.mapPtKaddr s.ctx.mapPages (fun _ => 0) false writeOk }
  else s

def readsEmpty (tables : List LeafTable) (kaddr : Nat) (readOk : Bool) : Bool :=
  match tables.find? fun tb => tb.kaddr == kaddr with
  | none => false
  | some tb => readOk && (List.range alVerifyMax).all fun k => !ptePresent (tb.entries k)

def canUnmap (s : AliasSession) (readOk : Nat → Bool) : Bool :=
  decide (s.ctx.usedCount ≤ alMaxSpans) &&
    s.ctx.usedPtBases.zipIdx.all fun (kaddr, i) => readsEmpty s.tables kaddr (readOk i)

def dropArena (s : AliasSession) (readOk : Nat → Bool) : AliasSession × List AliasEvent :=
  ({ ctx := { s.ctx with
      arenaRaw := 0
      arenaSize := 0
      arenaEnd := 0
      cursor := 0
      usedPtBases := []
      usedCount := 0 }
     tables := [] },
    if s.canUnmap readOk then [.unmapped s.tables] else [])

end AliasSession

def alArenaAlloc (c : AliasCtx) (raw : Option Nat) : Option AliasCtx :=
  match raw with
  | none | some 0 => none
  | some raw =>
    let base := wrap64 (raw + (alSpanSize - 1)) / alSpanSize * alSpanSize
    some { c with
      arenaRaw := raw
      arenaSize := wrap64 (c.arenaBytes + alSpanSize)
      arenaEnd := wrap64 (base + c.arenaBytes)
      cursor := base
      usedPtBases := []
      usedCount := 0 }

structure MapAnswers where
  releaseOk : Bool
  guardOk : Nat → Bool
  raw : Option Nat
  kaddr : Nat
  own : Nat → Nat
  leafAddrOk : Bool
  readOk : Bool
  resolveOk : Nat → Bool
  leafRead : Nat → Option Nat
  writeOk : Bool
  zeroOk : Bool
  verifyOk : Bool
  verifyReleaseOk : Bool

namespace AliasSession

def takeSpan (s : AliasSession) : AliasSession :=
  { s with ctx := { s.ctx with cursor := wrap64 (s.ctx.cursor + alSpanSize) } }

def alNextSpan (s : AliasSession) (ans : MapAnswers) :
    Option Nat × AliasSession × List AliasEvent :=
  if s.ctx.cursor = 0 ∨ s.ctx.arenaEnd < wrap64 (s.ctx.cursor + alSpanSize) then
    let (s, events) :=
      if s.ctx.arenaRaw ≠ 0 then (s.pageAliasRelease ans.releaseOk).dropArena ans.guardOk
      else (s, [])
    match alArenaAlloc s.ctx ans.raw with
    | none => (none, s, events)
    | some c => (some c.cursor, { s with ctx := c }.takeSpan, events)
  else (some s.ctx.cursor, s.takeSpan, [])

end AliasSession

def SpanCache.resolve (t : Targets) (ans : MapAnswers) (pid k span2m : Nat) (cache : SpanCache) :
    Bool × SpanCache :=
  if cache.valid = true ∧ cache.span2m = span2m then (true, cache)
  else if !ans.resolveOk k then (false, cache)
  else
    match ptwSpanResolve t.memory (t.cr3 pid) span2m with
    | none => (false, cache)
    | some (.huge physBase pte) =>
      if ptePcd pte then (false, cache)
      else (true, { cache with
        valid := true
        span2m := span2m
        huge := true
        physBase := physBase
        pte := pte })
    | some (.leafPage kaddr) =>
      match ans.leafRead k with
      | none =>
        (true, { cache with
          valid := true
          span2m := span2m
          huge := false
          spanPt := fun i => t.content (wrap64 (kaddr + i * 8)) })
      | some copied =>
        -- the cache stays valid for the span it held
        (false, { cache with
          spanPt := fun i =>
            if i < copied then t.content (wrap64 (kaddr + i * 8)) else cache.spanPt i })

def SpanCache.phys (cache : SpanCache) (tpage : Nat) : Option Nat :=
  if cache.huge then some (cache.physBase + (tpage - cache.span2m))
  else
    let e := cache.spanPt (tpage / 2 ^ 12 % 512)
    if !ptePresent e then none
    else if ptePcd e then none
    else some (physMask e)

def mapPagesLoop (t : Targets) (ans : MapAnswers) (pid tgtPage : Nat) :
    Nat → Nat → SpanCache → (Nat → Nat) → SpanCache × Option (Nat → Nat)
  | 0, _, cache, pt => (cache, some pt)
  | n + 1, k, cache, pt =>
    let tpage := wrap64 (tgtPage + k * alPageSize)
    match cache.resolve t ans pid k (spanOf tpage) with
    | (false, cache) => (cache, none)
    | (true, cache) =>
      match cache.phys tpage with
      | none => (cache, none)
      | some tphys =>
        if ptePresent (pt k) then (cache, none)
        else
          mapPagesLoop t ans pid tgtPage n (k + 1) cache
            (Function.update pt k (physMask tphys ||| alPteProt))

namespace AliasSession

def recordMapping (c : AliasCtx) (kaddr npages : Nat) : AliasCtx :=
  { c with
    hasMapping := true
    mapPtKaddr := kaddr
    mapPages := npages
    usedPtBases := if c.usedCount < alMaxSpans then c.usedPtBases ++ [kaddr] else c.usedPtBases
    usedCount := c.usedCount + 1
    mapCounter := c.mapCounter + 1 }

def commitSpan (ans : MapAnswers) (targetVa npages : Nat) (pt : Nat → Nat) (s : AliasSession) :
    AliasSession × List AliasEvent :=
  if ans.kaddr % alPageSize ≠ 0 then (s, [])
  else if !ans.writeOk then
    ({ s with tables := kwriteTable s.tables ans.kaddr npages (fun _ => 0) false ans.zeroOk }, [])
  else
    let s' : AliasSession :=
      { ctx := recordMapping s.ctx ans.kaddr npages
        tables := kwriteTable s.tables ans.kaddr npages pt true true }
    if s.ctx.mapCounter % alVerifyInterval = 0 ∧ ans.verifyOk = false then
      (s'.pageAliasRelease ans.verifyReleaseOk, [])
    else
      (s', (s'.tables.find? fun tb => tb.kaddr == ans.kaddr).toList.map fun tb =>
        .mapped s'.ctx.pid targetVa npages tb)

def mapSpan (t : Targets) (ans : MapAnswers) (targetVa npages : Nat) (s : AliasSession) :
    AliasSession × List AliasEvent :=
  -- touching the last page of the span makes the kernel give it a leaf table
  let s := { s with tables := ⟨ans.kaddr, ans.own, fun _ => false⟩ :: s.tables }
  if !ans.leafAddrOk then (s, [])
  else if ans.kaddr < t.dmap ∨ wrap64 (t.dmap + alDmapBound) ≤ ans.kaddr then (s, [])
  else if !ans.readOk then (s, [])
  else
    match mapPagesLoop t ans s.ctx.pid (pageOf targetVa) npages 0 s.ctx.cache ans.own with
    | (cache, none) => ({ s with ctx := { s.ctx with cache := cache } }, [])
    | (cache, some pt) =>
      commitSpan ans targetVa npages pt { s with ctx := { s.ctx with cache := cache } }

def npagesOf (targetVa length : Nat) : Nat :=
  wrap64 (targetVa % alPageSize + length + (alPageSize - 1)) / 2 ^ 12

def pageAliasMap (t : Targets) (s : AliasSession) (targetVa length : Nat) (ans : MapAnswers) :
    AliasSession × List AliasEvent :=
  if length = 0 then (s, [])
  else
    let s := s.pageAliasRelease ans.releaseOk
    let npages := npagesOf targetVa length
    if npages = 0 ∨ alMaxPages < npages then (s, [])
    else
      match s.alNextSpan ans with
      | (none, s, events) => (s, events)
      | (some _, s, events) =>
        let (s, mapped) := s.mapSpan t ans targetVa npages
        (s, events ++ mapped)

def pageAliasRebind (s : AliasSession) (pid : Nat) (writeOk : Bool) : AliasSession :=
  let s := s.pageAliasRelease writeOk
  { s with ctx := { s.ctx with pid := pid, cache := { s.ctx.cache with valid := false } } }

def pageAliasEnd (s : AliasSession) (writeOk : Bool) (readOk : Nat → Bool) : List AliasEvent :=
  let s := s.pageAliasRelease writeOk
  if s.ctx.arenaRaw ≠ 0 then (s.dropArena readOk).2 else []

end AliasSession

def pageAliasBegin (pid arenaCap : Nat) (raw : Option Nat) : Option AliasSession :=
  let arenaBytes := if arenaCap = 0 then alArenaDefault else arenaCap
  (alArenaAlloc ⟨pid, 0, arenaBytes, 0, 0, 0, 0, [], 0, false, 0, 0,
    ⟨false, 0, false, 0, 0, fun _ => 0⟩⟩ raw).map fun c => ⟨c, []⟩

/-! ## Runs -/

structure AliasWorld where
  sessions : Nat → Option AliasSession
  trace : List AliasEvent

def AliasWorld.init : AliasWorld := ⟨fun _ => none, []⟩

inductive AliasCall where
  | begin (h pid arenaCap : Nat) (raw : Option Nat)
  | map (h targetVa length : Nat) (ans : MapAnswers)
  | rebind (h pid : Nat) (writeOk : Bool)
  | release (h : Nat) (writeOk : Bool)
  | finish (h : Nat) (writeOk : Bool) (readOk : Nat → Bool)

def MapAnswers.FreshTable (ans : MapAnswers) (s : AliasSession) : Prop :=
  ∀ tb ∈ ((s.pageAliasRelease ans.releaseOk).alNextSpan ans).2.1.tables, tb.kaddr ≠ ans.kaddr

namespace AliasWorld

def update (w : AliasWorld) (h : Nat) (s : Option AliasSession) (events : List AliasEvent) :
    AliasWorld :=
  ⟨Function.update w.sessions h s, w.trace ++ events⟩

def step (t : Targets) (w : AliasWorld) : AliasCall → Option AliasWorld
  | .begin h pid arenaCap raw =>
    match w.sessions h with
    | some _ => none
    | none => some (w.update h (pageAliasBegin pid arenaCap raw) [])
  | .map h targetVa length ans =>
    (w.sessions h).map fun s =>
      let (s, events) := s.pageAliasMap t targetVa length ans
      w.update h (some s) events
  | .rebind h pid writeOk =>
    (w.sessions h).map fun s => w.update h (some (s.pageAliasRebind pid writeOk)) []
  | .release h writeOk =>
    (w.sessions h).map fun s => w.update h (some (s.pageAliasRelease writeOk)) []
  | .finish h writeOk readOk =>
    (w.sessions h).map fun s => w.update h none (s.pageAliasEnd writeOk readOk)

/-- The kernel gives every span a leaf table of its own. -/
def KernelBehaves (w : AliasWorld) : AliasCall → Prop
  | .map h _ _ ans => ∀ s, w.sessions h = some s → ans.FreshTable s
  | _ => True

/-- A failed read of a leaf table of the target leaves the buffer alone. -/
def FailedReadsInert : AliasCall → Prop
  | .map _ _ _ ans => ∀ k copied, ans.leafRead k = some copied → copied = 0
  | _ => True

end AliasWorld

/-- What must be true of an event: an unmapped arena maps no foreign page, and a returned
mapping maps the physical pages of its target. -/
def AliasEvent.Ok (t : Targets) : AliasEvent → Prop
  | .unmapped tables => ∀ tb ∈ tables, ∀ slot < alMaxPages, tb.foreign slot = false
  | .mapped pid targetVa npages tb => ∀ k < npages,
      ∃ r, ptwProbe t.memory (t.cr3 pid) (wrap64 (pageOf targetVa + k * alPageSize)) = some r ∧
        tb.entries k = pageOf r.phys ||| alPteProt

/-! ## The span cache -/

namespace SpanCache

def Ok (t : Targets) (pid : Nat) (cache : SpanCache) : Prop :=
  cache.valid = true →
    if cache.huge then
      ptwSpanResolve t.memory (t.cr3 pid) cache.span2m = some (.huge cache.physBase cache.pte)
    else
      ∃ kaddr, ptwSpanResolve t.memory (t.cr3 pid) cache.span2m = some (.leafPage kaddr) ∧
        ∀ i, cache.spanPt i = t.content (wrap64 (kaddr + i * 8))

variable {t : Targets} {pid : Nat} {cache : SpanCache}

theorem ok_of_not_valid (h : cache.valid = false) : cache.Ok t pid := by
  intro hvalid
  rw [h] at hvalid
  cases hvalid

theorem resolve_ok {ans : MapAnswers} (hok : cache.Ok t pid)
    (hinert : ∀ k copied, ans.leafRead k = some copied → copied = 0) (k span2m : Nat) :
    (cache.resolve t ans pid k span2m).2.Ok t pid ∧
      ((cache.resolve t ans pid k span2m).1 = true →
        (cache.resolve t ans pid k span2m).2.valid = true ∧
          (cache.resolve t ans pid k span2m).2.span2m = span2m) := by
  unfold resolve
  by_cases hcached : cache.valid = true ∧ cache.span2m = span2m
  · rw [if_pos hcached]
    exact ⟨hok, fun _ => hcached⟩
  rw [if_neg hcached]
  cases hresolve : ans.resolveOk k with
  | false => exact ⟨hok, fun h => by cases h⟩
  | true =>
    simp only [Bool.not_true, Bool.false_eq_true, if_false]
    cases hspan : ptwSpanResolve t.memory (t.cr3 pid) span2m with
    | none => exact ⟨hok, fun h => by cases h⟩
    | some target =>
      cases target with
      | huge physBase pte =>
        dsimp only
        cases hpcd : ptePcd pte with
        | true => exact ⟨hok, fun h => by cases h⟩
        | false => exact ⟨fun _ => hspan, fun _ => ⟨rfl, rfl⟩⟩
      | leafPage kaddr =>
        cases hread : ans.leafRead k with
        | none => exact ⟨fun _ => ⟨kaddr, hspan, fun _ => rfl⟩, fun _ => ⟨rfl, rfl⟩⟩
        | some copied =>
          obtain rfl := hinert k copied hread
          exact ⟨by simpa using hok, fun h => by cases h⟩

theorem phys_probe (hok : cache.Ok t pid) (hvalid : cache.valid = true) {tpage tphys : Nat}
    (hspan : cache.span2m = spanOf tpage) (hpage : pageOf tpage = tpage)
    (hphys : cache.phys tpage = some tphys) :
    ∃ r, ptwProbe t.memory (t.cr3 pid) tpage = some r ∧ physMask tphys = pageOf r.phys := by
  have hcache := hok hvalid
  have hresolve : ∃ pte, aliasResolve t.memory (t.cr3 pid) tpage = some (tphys, pte) := by
    unfold phys at hphys
    cases hhuge : cache.huge with
    | true =>
      rw [if_pos hhuge] at hcache hphys
      cases hphys
      rw [hspan] at hcache ⊢
      exact ⟨cache.pte, by rw [aliasResolve_huge hcache, hpage]⟩
    | false =>
      rw [hhuge] at hcache hphys
      obtain ⟨kaddr, htarget, hentries⟩ := hcache
      rw [hspan] at htarget
      rcases aliasResolve_leafPage htarget with ⟨htable, -⟩ | ⟨e, he, hval⟩
      · obtain ⟨entries, hsome⟩ := kreadTable_isSome (k := t.memory) (fun _ => rfl) kaddr
        rw [htable] at hsome
        cases hsome
      · have hentry : cache.spanPt (tpage / 2 ^ 12 % 512) = e := by
          rw [hentries]
          exact Option.some.inj he
        simp only [hentry, Bool.false_eq_true, if_false] at hphys
        split_ifs at hphys with hpresent
        cases hphys
        refine ⟨e, ?_⟩
        rw [hval, if_neg (by simpa using hpresent)]
  obtain ⟨pte, hresolve⟩ := hresolve
  cases hwalk : walkOf t.memory (t.cr3 pid) tpage with
  | leaf m a e =>
    have hpair := (aliasResolve_of_leaf hwalk).1 _ hresolve
    refine ⟨_, ptwProbe_of_leaf hwalk, ?_⟩
    rw [(Prod.mk.inj hpair).1]
    have hsound := walkOf_sound t.memory (t.cr3 pid) tpage
    rw [hwalk] at hsound
    exact physMask_pageOf_physOf hsound.2.2.le_two tpage
  | fault =>
    rw [aliasResolve_of_not_leaf (by simp [hwalk])] at hresolve
    cases hresolve
  | absent m a e =>
    rw [aliasResolve_of_not_leaf (by simp [hwalk])] at hresolve
    cases hresolve

end SpanCache

theorem pageOf_wrap64 (va k : Nat) :
    pageOf (wrap64 (pageOf va + k * alPageSize)) = wrap64 (pageOf va + k * alPageSize) := by
  unfold pageOf wrap64 alPageSize
  omega

theorem mapPagesLoop_spec {t : Targets} {ans : MapAnswers} {pid : Nat} (targetVa : Nat)
    (hinert : ∀ k copied, ans.leafRead k = some copied → copied = 0) (n k : Nat)
    (cache : SpanCache) (pt : Nat → Nat) (hok : cache.Ok t pid) :
    (mapPagesLoop t ans pid (pageOf targetVa) n k cache pt).1.Ok t pid ∧
      ∀ pt', (mapPagesLoop t ans pid (pageOf targetVa) n k cache pt).2 = some pt' →
        (∀ j, k ≤ j → j < k + n →
          ∃ r, ptwProbe t.memory (t.cr3 pid) (wrap64 (pageOf targetVa + j * alPageSize)) = some r ∧
            pt' j = pageOf r.phys ||| alPteProt) ∧
        ∀ j, j < k → pt' j = pt j := by
  induction n generalizing k cache pt with
  | zero =>
    refine ⟨hok, fun pt' hpt => ?_⟩
    cases hpt
    exact ⟨fun j hk hj => absurd hj (by omega), fun _ _ => rfl⟩
  | succ n ih =>
    unfold mapPagesLoop
    dsimp only
    obtain ⟨hok', hheld⟩ :=
      SpanCache.resolve_ok hok hinert k (spanOf (wrap64 (pageOf targetVa + k * alPageSize)))
    cases hresolve :
        cache.resolve t ans pid k (spanOf (wrap64 (pageOf targetVa + k * alPageSize))) with
    | mk held cache' =>
      rw [hresolve] at hok' hheld
      cases held with
      | false => exact ⟨hok', fun _ h => by cases h⟩
      | true =>
        obtain ⟨hvalid, hspan⟩ := hheld rfl
        simp only
        cases hphys : cache'.phys (wrap64 (pageOf targetVa + k * alPageSize)) with
        | none => exact ⟨hok', fun _ h => by cases h⟩
        | some tphys =>
          obtain ⟨r, hprobe, hmask⟩ :=
            SpanCache.phys_probe hok' hvalid hspan (pageOf_wrap64 _ _) hphys
          by_cases hpresent : ptePresent (pt k) = true
          · simp only [hpresent, if_true]
            exact ⟨hok', fun _ h => by cases h⟩
          · simp only [hpresent]
            obtain ⟨hcache, hrest⟩ := ih (k + 1) cache'
              (Function.update pt k (physMask tphys ||| alPteProt)) hok'
            refine ⟨hcache, fun pt' hpt => ?_⟩
            obtain ⟨hlater, hbefore⟩ := hrest pt' hpt
            refine ⟨fun j hkj hj => ?_, fun j hj => ?_⟩
            · rcases Nat.eq_or_lt_of_le hkj with rfl | hlt
              · refine ⟨r, hprobe, ?_⟩
                rw [hbefore k (Nat.lt_succ_self k), Function.update_self, hmask]
              · exact hlater j hlt (by omega)
            · rw [hbefore j (by omega), Function.update_of_ne (by omega)]

/-! ## Tables and the guard of the unmap -/

def LeafTable.Tidy (tb : LeafTable) : Prop :=
  ∀ slot, tb.foreign slot = true → tb.foreign 0 = true ∧ ptePresent (tb.entries 0) = true

structure AliasSession.Good (t : Targets) (s : AliasSession) : Prop where
  nodup : (s.tables.map LeafTable.kaddr).Nodup
  tidy : ∀ tb ∈ s.tables, tb.Tidy
  used : ∀ tb ∈ s.tables, tb.foreign 0 = true →
    tb.kaddr ∈ s.ctx.usedPtBases ∨ alMaxSpans < s.ctx.usedCount
  mapping : s.ctx.hasMapping = true → ∀ tb ∈ s.tables, tb.kaddr = s.ctx.mapPtKaddr →
    ∀ slot, tb.foreign slot = true → slot < s.ctx.mapPages
  cache : s.ctx.cache.Ok t s.ctx.pid
  arena : s.ctx.arenaRaw = 0 → s.ctx.cursor = 0 ∧ s.tables = []

theorem kwriteTable_kaddr (tables : List LeafTable) (kaddr n : Nat) (values : Nat → Nat)
    (foreign ok : Bool) :
    (kwriteTable tables kaddr n values foreign ok).map LeafTable.kaddr =
      tables.map LeafTable.kaddr := by
  unfold kwriteTable
  cases ok with
  | false => rfl
  | true =>
    simp only [if_true, map_map]
    congr 1
    funext tb
    by_cases htb : tb.kaddr = kaddr <;> simp [htb, LeafTable.write]

theorem kwriteTable_nil (kaddr n : Nat) (values : Nat → Nat) (foreign ok : Bool) :
    kwriteTable [] kaddr n values foreign ok = [] := by
  cases ok <;> rfl

theorem mem_kwriteTable {tables : List LeafTable} {kaddr n : Nat} {values : Nat → Nat}
    {foreign ok : Bool} {tb : LeafTable}
    (h : tb ∈ kwriteTable tables kaddr n values foreign ok) :
    (tb ∈ tables ∧ (tb.kaddr = kaddr → ok = false)) ∨
      ∃ old ∈ tables, old.kaddr = kaddr ∧ tb = old.write n values foreign := by
  unfold kwriteTable at h
  cases ok with
  | false => exact .inl ⟨h, fun _ => rfl⟩
  | true =>
    obtain ⟨old, hold, rfl⟩ := mem_map.mp h
    by_cases hkaddr : old.kaddr = kaddr
    · rw [if_pos hkaddr]
      exact .inr ⟨old, hold, hkaddr, rfl⟩
    · rw [if_neg hkaddr]
      exact .inl ⟨hold, fun h => absurd h hkaddr⟩

namespace AliasSession

variable {t : Targets} {s : AliasSession}

theorem pageAliasRelease_hasMapping (s : AliasSession) (writeOk : Bool) :
    (s.pageAliasRelease writeOk).ctx.hasMapping = false := by
  unfold pageAliasRelease
  cases h : s.ctx.hasMapping with
  | false => simp [h]
  | true => simp

theorem Good.release (h : s.Good t) (writeOk : Bool) : (s.pageAliasRelease writeOk).Good t := by
  unfold pageAliasRelease
  cases hmapping : s.ctx.hasMapping with
  | false =>
    rw [if_neg (by simp)]
    exact h
  | true =>
    rw [if_pos rfl]
    -- the zeroed table has no foreign entry left
    have hclear : ∀ old ∈ s.tables, old.kaddr = s.ctx.mapPtKaddr → ∀ slot,
        (old.write s.ctx.mapPages (fun _ => 0) false).foreign slot = false := by
      intro old hold hkaddr slot
      simp only [LeafTable.write]
      split_ifs with hslot
      · rfl
      · by_contra hforeign
        exact hslot (h.mapping hmapping old hold hkaddr slot (by simpa using hforeign))
    refine ⟨?_, fun tb htb => ?_, fun tb htb hforeign => ?_, fun hfalse => ?_, h.cache,
      fun hraw => ⟨(h.arena hraw).1, ?_⟩⟩
    · rw [kwriteTable_kaddr]
      exact h.nodup
    · rcases mem_kwriteTable htb with ⟨hold, -⟩ | ⟨old, hold, hkaddr, rfl⟩
      · exact h.tidy tb hold
      · intro slot hslot
        rw [hclear old hold hkaddr slot] at hslot
        cases hslot
    · rcases mem_kwriteTable htb with ⟨hold, -⟩ | ⟨old, hold, hkaddr, rfl⟩
      · exact h.used tb hold hforeign
      · rw [hclear old hold hkaddr 0] at hforeign
        cases hforeign
    · cases hfalse
    · dsimp only
      rw [(h.arena hraw).2]
      exact kwriteTable_nil _ _ _ _ _

theorem Good.canUnmap_clean (h : s.Good t) {readOk : Nat → Bool} (hcan : s.canUnmap readOk = true) :
    ∀ tb ∈ s.tables, ∀ slot, tb.foreign slot = false := by
  intro tb htb slot
  by_contra hforeign
  obtain ⟨hzero, hpresent⟩ := h.tidy tb htb slot (by simpa using hforeign)
  simp only [canUnmap, Bool.and_eq_true, decide_eq_true_eq, all_eq_true] at hcan
  obtain ⟨hcount, hall⟩ := hcan
  have hused : tb.kaddr ∈ s.ctx.usedPtBases :=
    (h.used tb htb hzero).resolve_right (Nat.not_lt.mpr hcount)
  obtain ⟨i, hi, hget⟩ := mem_iff_getElem.mp hused
  have hread := hall (tb.kaddr, i) (mem_zipIdx_iff_getElem?.mpr (by simp [hget, hi]))
  simp only [readsEmpty] at hread
  split at hread
  · cases hread
  · rename_i tb' hfind
    have hsame : tb' = tb := by
      have hkaddr : tb'.kaddr = tb.kaddr := by simpa using find?_some hfind
      exact inj_on_of_nodup_map h.nodup (mem_of_find?_eq_some hfind) htb hkaddr
    subst hsame
    have hempty : ptePresent (tb'.entries 0) = false := by
      have := all_eq_true.mp (Bool.and_eq_true_iff.mp hread).2 0 (by decide)
      simpa using this
    rw [hempty] at hpresent
    cases hpresent

theorem Good.dropArena (h : s.Good t) (readOk : Nat → Bool) :
    (s.dropArena readOk).1.Good t ∧ ∀ e ∈ (s.dropArena readOk).2, e.Ok t := by
  refine ⟨⟨nodup_nil, ?_, ?_, ?_, h.cache, fun _ => ⟨rfl, rfl⟩⟩, fun e he => ?_⟩
  · exact fun _ htb => absurd htb not_mem_nil
  · exact fun _ htb => absurd htb not_mem_nil
  · exact fun _ _ htb => absurd htb not_mem_nil
  · unfold AliasSession.dropArena at he
    split_ifs at he with hcan
    · obtain rfl := mem_singleton.mp he
      exact fun tb htb slot _ => h.canUnmap_clean hcan tb htb slot
    · exact absurd he not_mem_nil

theorem Good.arenaAlloc (h : s.Good t) (hnone : s.tables = []) {raw : Option Nat} {c : AliasCtx}
    (halloc : alArenaAlloc s.ctx raw = some c) :
    ({ s with ctx := c } : AliasSession).Good t ∧ c.arenaRaw ≠ 0 := by
  unfold alArenaAlloc at halloc
  split at halloc
  · cases halloc
  · cases halloc
  · rename_i raw hne
    cases halloc
    refine ⟨⟨h.nodup, h.tidy, fun tb htb => ?_, fun _ tb htb => ?_, h.cache, fun hraw => ?_⟩, ?_⟩
    · rw [hnone] at htb
      exact absurd htb not_mem_nil
    · rw [hnone] at htb
      exact absurd htb not_mem_nil
    · exact absurd hraw hne
    · exact hne

-- stated for any cursor: with the sum in place the comparison of the two sessions
-- would evaluate it
theorem Good.setCursor (h : s.Good t) (hraw : s.ctx.arenaRaw ≠ 0) (cursor : Nat) :
    ({ s with ctx := { s.ctx with cursor := cursor } } : AliasSession).Good t ∧
      ({ s with ctx := { s.ctx with cursor := cursor } } : AliasSession).ctx.arenaRaw ≠ 0 :=
  ⟨⟨h.nodup, h.tidy, h.used, h.mapping, h.cache, fun h' => absurd h' hraw⟩, hraw⟩

theorem Good.takeSpan (h : s.Good t) (hraw : s.ctx.arenaRaw ≠ 0) :
    s.takeSpan.Good t ∧ s.takeSpan.ctx.arenaRaw ≠ 0 := h.setCursor hraw _

theorem Good.alNextSpan (h : s.Good t) (ans : MapAnswers) :
    (s.alNextSpan ans).2.1.Good t ∧ (∀ e ∈ (s.alNextSpan ans).2.2, e.Ok t) ∧
      ((s.alNextSpan ans).1 ≠ none → (s.alNextSpan ans).2.1.ctx.arenaRaw ≠ 0) := by
  unfold AliasSession.alNextSpan
  by_cases hfull : s.ctx.cursor = 0 ∨ s.ctx.arenaEnd < wrap64 (s.ctx.cursor + alSpanSize)
  · rw [if_pos hfull]
    have hdropped : ∃ s₁ events, (if s.ctx.arenaRaw ≠ 0 then
        (s.pageAliasRelease ans.releaseOk).dropArena ans.guardOk else (s, [])) = (s₁, events) ∧
        s₁.Good t ∧ s₁.tables = [] ∧ ∀ e ∈ events, e.Ok t := by
      by_cases hraw : s.ctx.arenaRaw ≠ 0
      · rw [if_pos hraw]
        obtain ⟨hgood, hevents⟩ := (h.release ans.releaseOk).dropArena ans.guardOk
        exact ⟨_, _, rfl, hgood, rfl, hevents⟩
      · rw [if_neg hraw]
        exact ⟨_, _, rfl, h, (h.arena (not_not.mp hraw)).2, fun _ he => absurd he not_mem_nil⟩
    obtain ⟨s₁, events, heq, hgood, hnone, hevents⟩ := hdropped
    rw [heq]
    dsimp only
    cases halloc : alArenaAlloc s₁.ctx ans.raw with
    | none => exact ⟨hgood, hevents, fun hne => absurd rfl hne⟩
    | some c =>
      obtain ⟨hgood', hraw⟩ := hgood.arenaAlloc hnone halloc
      obtain ⟨htaken, hraw'⟩ := hgood'.takeSpan hraw
      exact ⟨htaken, hevents, fun _ => hraw'⟩
  · rw [if_neg hfull]
    have hraw : s.ctx.arenaRaw ≠ 0 := fun hzero => hfull (.inl (h.arena hzero).1)
    obtain ⟨htaken, hraw'⟩ := h.takeSpan hraw
    exact ⟨htaken, fun _ he => absurd he not_mem_nil, fun _ => hraw'⟩

/-! ## Mapping a span -/

theorem ptePresent_prot (p : Nat) : ptePresent (pageOf p ||| alPteProt) = true := by
  have hsum : pageOf p ||| alPteProt = pageOf p + alPteProt := by
    unfold pageOf alPteProt
    rw [Nat.mul_comm, Nat.two_pow_add_eq_or_of_lt (by decide)]
  rw [hsum]
  unfold ptePresent pageOf alPteProt
  simp only [beq_iff_eq]
  omega

theorem kwriteTable_head (tb : LeafTable) {rest : List LeafTable}
    (hfresh : ∀ tb' ∈ rest, tb'.kaddr ≠ tb.kaddr) (n : Nat) (values : Nat → Nat)
    (foreign ok : Bool) :
    kwriteTable (tb :: rest) tb.kaddr n values foreign ok =
      (if ok then tb.write n values foreign else tb) :: rest := by
  unfold kwriteTable
  cases ok with
  | false => rfl
  | true =>
    simp only [if_true, map_cons, List.cons.injEq, true_and]
    refine (map_congr_left fun tb' htb' => ?_).trans (map_id _)
    rw [if_neg (hfresh tb' htb')]
    rfl

theorem Good.touch (h : s.Good t) (hraw : s.ctx.arenaRaw ≠ 0)
    (hmapping : s.ctx.hasMapping = false) (tb : LeafTable)
    (hfresh : ∀ tb' ∈ s.tables, tb'.kaddr ≠ tb.kaddr)
    (hclean : ∀ slot, tb.foreign slot = false) :
    ({ s with tables := tb :: s.tables } : AliasSession).Good t := by
  refine ⟨?_, ?_, ?_, fun hmapped => ?_, h.cache, fun h' => absurd h' hraw⟩
  · refine nodup_cons.mpr ⟨fun hmem => ?_, h.nodup⟩
    obtain ⟨tb', htb', hkaddr⟩ := mem_map.mp hmem
    exact hfresh tb' htb' hkaddr
  · refine forall_mem_cons.mpr ⟨fun slot hslot => ?_, h.tidy⟩
    rw [hclean slot] at hslot
    cases hslot
  · refine forall_mem_cons.mpr ⟨fun hslot => ?_, h.used⟩
    rw [hclean 0] at hslot
    cases hslot
  · dsimp only at hmapped
    rw [hmapping] at hmapped
    cases hmapped

theorem Good.setCache (h : s.Good t) {cache : SpanCache} (hcache : cache.Ok t s.ctx.pid) :
    ({ s with ctx := { s.ctx with cache := cache } } : AliasSession).Good t :=
  ⟨h.nodup, h.tidy, h.used, h.mapping, hcache, h.arena⟩

theorem Good.mapped (h : s.Good t) (hraw : s.ctx.arenaRaw ≠ 0) (tb : LeafTable) (npages : Nat)
    (hfresh : ∀ tb' ∈ s.tables, tb'.kaddr ≠ tb.kaddr) (hpresent : ptePresent (tb.entries 0) = true)
    (hforeign : ∀ slot, tb.foreign slot = true ↔ slot < npages) :
    (⟨recordMapping s.ctx tb.kaddr npages, tb :: s.tables⟩ : AliasSession).Good t := by
  refine ⟨?_, ?_, ?_, fun _ tb' htb' hkaddr => ?_, h.cache, fun h' => absurd h' hraw⟩
  · refine nodup_cons.mpr ⟨fun hmem => ?_, h.nodup⟩
    obtain ⟨tb', htb', hkaddr⟩ := mem_map.mp hmem
    exact hfresh tb' htb' hkaddr
  · refine forall_mem_cons.mpr ⟨fun slot hslot => ?_, h.tidy⟩
    have hlt := (hforeign slot).mp hslot
    exact ⟨(hforeign 0).mpr (Nat.zero_lt_of_lt hlt), hpresent⟩
  · refine forall_mem_cons.mpr ⟨fun _ => ?_, fun tb' htb' hzero => ?_⟩
    · by_cases hroom : s.ctx.usedCount < alMaxSpans
      · simp [recordMapping, hroom]
      · exact .inr (Nat.lt_succ_of_le (Nat.not_lt.mp hroom))
    · rcases h.used tb' htb' hzero with hmem | hmany
      · refine .inl ?_
        simp only [recordMapping]
        split_ifs
        · exact mem_append_left _ hmem
        · exact hmem
      · exact .inr (Nat.lt_succ_of_lt hmany)
  · rcases mem_cons.mp htb' with rfl | htb'
    · exact fun slot => (hforeign slot).mp
    · exact absurd hkaddr (hfresh tb' htb')

theorem not_ok_nil : ∀ e ∈ ([] : List AliasEvent), e.Ok t :=
  fun _ he => absurd he not_mem_nil

theorem Good.commitSpan (h : s.Good t) (hraw : s.ctx.arenaRaw ≠ 0)
    (hmapping : s.ctx.hasMapping = false) {ans : MapAnswers}
    (hfresh : ∀ tb ∈ s.tables, tb.kaddr ≠ ans.kaddr) {targetVa npages : Nat} (hpos : 0 < npages)
    {pt : Nat → Nat} (hpt : ∀ j < npages,
      ∃ r, ptwProbe t.memory (t.cr3 s.ctx.pid)
        (wrap64 (pageOf targetVa + j * alPageSize)) = some r ∧
        pt j = pageOf r.phys ||| alPteProt) :
    let touched : AliasSession :=
      { s with tables := ⟨ans.kaddr, ans.own, fun _ => false⟩ :: s.tables }
    (touched.commitSpan ans targetVa npages pt).1.Good t ∧
      ∀ e ∈ (touched.commitSpan ans targetVa npages pt).2, e.Ok t := by
  intro touched
  have htouched : touched.Good t := h.touch hraw hmapping _ hfresh fun _ => rfl
  unfold AliasSession.commitSpan
  by_cases hpage : ans.kaddr % alPageSize ≠ 0
  · rw [if_pos hpage]
    exact ⟨htouched, not_ok_nil⟩
  rw [if_neg hpage]
  have hwrite : ∀ values foreign ok, kwriteTable touched.tables ans.kaddr npages values foreign ok =
      (if ok then (⟨ans.kaddr, ans.own, fun _ => false⟩ : LeafTable).write npages values foreign
        else ⟨ans.kaddr, ans.own, fun _ => false⟩) :: s.tables :=
    fun values foreign ok => kwriteTable_head ⟨ans.kaddr, ans.own, fun _ => false⟩ hfresh npages
      values foreign ok
  cases hok : ans.writeOk with
  | false =>
    simp only [Bool.not_false, if_true, hwrite]
    refine ⟨h.touch hraw hmapping _ ?_ fun slot => ?_, not_ok_nil⟩
    · cases ans.zeroOk <;> exact hfresh
    · cases ans.zeroOk <;> simp [LeafTable.write]
  | true =>
    simp only [Bool.not_true, Bool.false_eq_true, if_false, hwrite, if_true]
    obtain ⟨r, -, hzero⟩ := hpt 0 hpos
    have hmapped := h.mapped hraw
      ((⟨ans.kaddr, ans.own, fun _ => false⟩ : LeafTable).write npages pt true) npages hfresh
      (by simp [LeafTable.write, hpos, hzero, ptePresent_prot]) (by simp [LeafTable.write])
    split_ifs
    · exact ⟨hmapped.release _, not_ok_nil⟩
    · refine ⟨hmapped, fun e he => ?_⟩
      simp only [find?_cons, LeafTable.write, beq_self_eq_true, Option.toList_some,
        map_cons, map_nil, mem_singleton] at he
      subst he
      intro j hj
      obtain ⟨r, hprobe, hentry⟩ := hpt j hj
      exact ⟨r, hprobe, by simp [hj, hentry]⟩

theorem Good.mapSpan (h : s.Good t) (hraw : s.ctx.arenaRaw ≠ 0)
    (hmapping : s.ctx.hasMapping = false) {ans : MapAnswers}
    (hfresh : ∀ tb ∈ s.tables, tb.kaddr ≠ ans.kaddr)
    (hinert : ∀ k copied, ans.leafRead k = some copied → copied = 0) {npages : Nat}
    (hpos : 0 < npages) (targetVa : Nat) :
    (s.mapSpan t ans targetVa npages).1.Good t ∧
      ∀ e ∈ (s.mapSpan t ans targetVa npages).2, e.Ok t := by
  have htouched := h.touch hraw hmapping ⟨ans.kaddr, ans.own, fun _ => false⟩ hfresh fun _ => rfl
  obtain ⟨hcache, hpages⟩ := mapPagesLoop_spec targetVa hinert npages 0 s.ctx.cache
    ans.own h.cache
  unfold AliasSession.mapSpan
  by_cases hleaf : (!ans.leafAddrOk) = true
  · rw [if_pos hleaf]
    exact ⟨htouched, not_ok_nil⟩
  rw [if_neg hleaf]
  by_cases hbound : ans.kaddr < t.dmap ∨ wrap64 (t.dmap + alDmapBound) ≤ ans.kaddr
  · rw [if_pos hbound]
    exact ⟨htouched, not_ok_nil⟩
  rw [if_neg hbound]
  by_cases hread : (!ans.readOk) = true
  · rw [if_pos hread]
    exact ⟨htouched, not_ok_nil⟩
  rw [if_neg hread]
  cases hloop : mapPagesLoop t ans s.ctx.pid (pageOf targetVa) npages 0 s.ctx.cache ans.own with
  | mk cache result =>
    rw [hloop] at hcache hpages
    cases result with
    | none => exact ⟨htouched.setCache hcache, not_ok_nil⟩
    | some pt =>
      exact (h.setCache hcache).commitSpan hraw hmapping hfresh hpos fun j hj =>
        (hpages pt rfl).1 j (Nat.zero_le j) (by simpa using hj)

theorem pageAliasRelease_idle {writeOk : Bool} (h : s.ctx.hasMapping = false) :
    s.pageAliasRelease writeOk = s := by
  unfold pageAliasRelease
  rw [if_neg (by simp [h])]

theorem alArenaAlloc_hasMapping {c c' : AliasCtx} {raw : Option Nat}
    (h : alArenaAlloc c raw = some c') : c'.hasMapping = c.hasMapping := by
  unfold alArenaAlloc at h
  split at h <;> cases h
  rfl

theorem setCursor_hasMapping (s : AliasSession) (cursor : Nat) :
    ({ s with ctx := { s.ctx with cursor := cursor } } : AliasSession).ctx.hasMapping =
      s.ctx.hasMapping := rfl

theorem takeSpan_hasMapping (s : AliasSession) :
    s.takeSpan.ctx.hasMapping = s.ctx.hasMapping := setCursor_hasMapping s _

theorem alNextSpan_hasMapping (h : s.ctx.hasMapping = false) (ans : MapAnswers) :
    (s.alNextSpan ans).2.1.ctx.hasMapping = false := by
  unfold AliasSession.alNextSpan
  rw [pageAliasRelease_idle h]
  by_cases hfull : s.ctx.cursor = 0 ∨ s.ctx.arenaEnd < wrap64 (s.ctx.cursor + alSpanSize)
  · rw [if_pos hfull]
    obtain ⟨s₁, events, heq, hidle⟩ : ∃ s₁ events,
        (if s.ctx.arenaRaw ≠ 0 then s.dropArena ans.guardOk else (s, [])) = (s₁, events) ∧
          s₁.ctx.hasMapping = false := by
      split_ifs <;> exact ⟨_, _, rfl, h⟩
    rw [heq]
    dsimp only
    cases halloc : alArenaAlloc s₁.ctx ans.raw with
    | none => exact hidle
    | some c =>
      rw [takeSpan_hasMapping]
      exact (alArenaAlloc_hasMapping halloc).trans hidle
  · rw [if_neg hfull]
    exact (takeSpan_hasMapping s).trans h

theorem Good.map (h : s.Good t) {targetVa length : Nat} {ans : MapAnswers}
    (hfresh : ans.FreshTable s)
    (hinert : ∀ k copied, ans.leafRead k = some copied → copied = 0) :
    (s.pageAliasMap t targetVa length ans).1.Good t ∧
      ∀ e ∈ (s.pageAliasMap t targetVa length ans).2, e.Ok t := by
  unfold pageAliasMap
  by_cases hlength : length = 0
  · rw [if_pos hlength]
    exact ⟨h, not_ok_nil⟩
  rw [if_neg hlength]
  have hreleased := h.release ans.releaseOk
  have hidle := s.pageAliasRelease_hasMapping ans.releaseOk
  unfold MapAnswers.FreshTable at hfresh
  generalize s.pageAliasRelease ans.releaseOk = s₁ at *
  by_cases hpages : npagesOf targetVa length = 0 ∨ alMaxPages < npagesOf targetVa length
  · rw [if_pos hpages]
    exact ⟨hreleased, not_ok_nil⟩
  rw [if_neg hpages]
  obtain ⟨hgood, hevents, hraw⟩ := hreleased.alNextSpan ans
  have hmapping := alNextSpan_hasMapping hidle ans
  cases hspan : s₁.alNextSpan ans with
  | mk span rest =>
    obtain ⟨s₂, events⟩ := rest
    rw [hspan] at hgood hevents hraw hmapping hfresh
    cases span with
    | none => exact ⟨hgood, hevents⟩
    | some span =>
      have hpos : 0 < npagesOf targetVa length :=
        Nat.pos_of_ne_zero fun hzero => hpages (.inl hzero)
      obtain ⟨hgood', hevents'⟩ :=
        hgood.mapSpan (hraw (by simp)) hmapping hfresh hinert hpos targetVa
      refine ⟨hgood', fun e he => ?_⟩
      rcases mem_append.mp he with he | he
      · exact hevents e he
      · exact hevents' e he

theorem Good.rebind (h : s.Good t) (pid : Nat) (writeOk : Bool) :
    (s.pageAliasRebind pid writeOk).Good t := by
  have hreleased := h.release writeOk
  exact ⟨hreleased.nodup, hreleased.tidy, hreleased.used, hreleased.mapping,
    SpanCache.ok_of_not_valid rfl, hreleased.arena⟩

theorem Good.finish (h : s.Good t) (writeOk : Bool) (readOk : Nat → Bool) :
    ∀ e ∈ s.pageAliasEnd writeOk readOk, e.Ok t := by
  unfold pageAliasEnd
  dsimp only
  split_ifs
  · exact ((h.release writeOk).dropArena readOk).2
  · exact not_ok_nil

theorem good_begin {pid arenaCap : Nat} {raw : Option Nat}
    (hbegin : pageAliasBegin pid arenaCap raw = some s) : s.Good t := by
  obtain ⟨c, halloc, rfl⟩ := Option.map_eq_some_iff.mp hbegin
  unfold alArenaAlloc at halloc
  split at halloc
  · cases halloc
  · cases halloc
  · rename_i raw hne
    cases halloc
    refine ⟨nodup_nil, ?_, ?_, ?_, SpanCache.ok_of_not_valid rfl, fun h => absurd h hne⟩
    · exact fun _ htb => absurd htb not_mem_nil
    · exact fun _ htb => absurd htb not_mem_nil
    · exact fun _ _ htb => absurd htb not_mem_nil

end AliasSession

/-! ## The engine -/

namespace AliasWorld

variable {t : Targets} {w w' : AliasWorld}

structure Consistent (t : Targets) (w : AliasWorld) : Prop where
  good : ∀ h s, w.sessions h = some s → s.Good t
  trace : ∀ e ∈ w.trace, e.Ok t

theorem consistent_init (t : Targets) : init.Consistent t :=
  ⟨fun _ _ hs => (by cases hs), fun _ he => absurd he not_mem_nil⟩

theorem Consistent.update (hw : w.Consistent t) {h : Nat} {o : Option AliasSession}
    {events : List AliasEvent} (hgood : ∀ s, o = some s → s.Good t)
    (hevents : ∀ e ∈ events, e.Ok t) : (w.update h o events).Consistent t := by
  refine ⟨fun h' s hs => ?_, fun e he => ?_⟩
  · by_cases hh : h' = h
    · subst hh
      exact hgood s (by simpa [AliasWorld.update] using hs)
    · exact hw.good h' s (by simpa [AliasWorld.update, hh] using hs)
  · rcases mem_append.mp he with he | he
    · exact hw.trace e he
    · exact hevents e he

theorem Consistent.step (hw : w.Consistent t) {call : AliasCall}
    (hkernel : w.KernelBehaves call) (hinert : FailedReadsInert call)
    (hstep : w.step t call = some w') : w'.Consistent t := by
  cases call with
  | begin h pid arenaCap raw =>
    simp only [AliasWorld.step] at hstep
    split at hstep
    · cases hstep
    · cases hstep
      exact hw.update (fun s hs => AliasSession.good_begin hs) AliasSession.not_ok_nil
  | map h targetVa length ans =>
    obtain ⟨s, hs, rfl⟩ := Option.map_eq_some_iff.mp hstep
    obtain ⟨hgood, hevents⟩ := (hw.good h s hs).map (hkernel s hs) hinert
    exact hw.update (by rintro _ ⟨⟩; exact hgood) hevents
  | rebind h pid writeOk =>
    obtain ⟨s, hs, rfl⟩ := Option.map_eq_some_iff.mp hstep
    refine hw.update ?_ AliasSession.not_ok_nil
    rintro _ ⟨⟩
    exact (hw.good h s hs).rebind pid writeOk
  | release h writeOk =>
    obtain ⟨s, hs, rfl⟩ := Option.map_eq_some_iff.mp hstep
    refine hw.update ?_ AliasSession.not_ok_nil
    rintro _ ⟨⟩
    exact (hw.good h s hs).release writeOk
  | finish h writeOk readOk =>
    obtain ⟨s, hs, rfl⟩ := Option.map_eq_some_iff.mp hstep
    exact hw.update (by rintro _ ⟨⟩) ((hw.good h s hs).finish writeOk readOk)

/-- **Alias entries never outlive their arena, and map their target.**  This holds of
everything that is seen in any run in which failed reads leave the span cache alone. -/
theorem alias_events_ok (t : Targets) {calls : List AliasCall} {w : AliasWorld}
    (hrun : Run (AliasWorld.step t)
      (fun w call => w.KernelBehaves call ∧ FailedReadsInert call) .init calls w) :
    ∀ e ∈ w.trace, e.Ok t := by
  have hw : w.Consistent t :=
    hrun.invariant (fun _ _ _ hs hguard hstep => hs.step hguard.1 hguard.2 hstep)
      (consistent_init t)
  exact hw.trace

def twoSpans : Targets where
  content := fun a =>
    let p := a - 0xFFFF800000000000
    if p = 0x1000 then 0x2001
    else if p = 0x2000 then 0x3001
    else if p = 0x3000 then 0x4001
    else if p = 0x3008 then 0x5001
    else if 0x4000 ≤ p ∧ p < 0x5000 then 0x100001 + (p - 0x4000) / 8 * 0x1000
    else if 0x5000 ≤ p ∧ p < 0x6000 then 0x200001 + (p - 0x5000) / 8 * 0x1000
    else 0
  dmap := 0xFFFF800000000000
  cr3 := fun _ => 0x1000

def answersWith (kaddr : Nat) (leafRead : Option Nat) : MapAnswers :=
  ⟨true, fun _ => true, none, kaddr, fun _ => 0, true, true, fun _ => true, fun _ => leafRead,
    true, true, true, true⟩

theorem alias_events_ok_one_page :
    ∃ w, Run (AliasWorld.step twoSpans)
        (fun w call => w.KernelBehaves call ∧ FailedReadsInert call) .init
        [.begin 0 7 0 (some 0x200000000),
          .map 0 0x1000 0x1000 (answersWith 0xFFFF800000007000 none),
          .finish 0 true fun _ => true] w ∧
      w.trace.length = 2 ∧ ∀ e ∈ w.trace, e.Ok twoSpans := by
  have hrun : ∃ w, Run (AliasWorld.step twoSpans)
      (fun w call => w.KernelBehaves call ∧ FailedReadsInert call) .init
      [.begin 0 7 0 (some 0x200000000),
        .map 0 0x1000 0x1000 (answersWith 0xFFFF800000007000 none),
        .finish 0 true fun _ => true] w ∧ w.trace.length = 2 := by
    refine ⟨_, .cons ⟨trivial, trivial⟩ rfl (.cons ⟨?_, ?_⟩ rfl
      (.cons ⟨trivial, trivial⟩ rfl (.nil _))), by decide⟩
    · rintro s ⟨⟩
      exact fun _ htb => absurd htb not_mem_nil
    · rintro k copied ⟨⟩
  obtain ⟨w, hrun, hlength⟩ := hrun
  exact ⟨w, hrun, hlength, alias_events_ok twoSpans hrun⟩

theorem alias_stale_span :
    ¬ ∀ (t : Targets) (calls : List AliasCall) (w : AliasWorld),
      Run (AliasWorld.step t) (fun w call => w.KernelBehaves call) .init calls w →
        ∀ e ∈ w.trace, e.Ok t := by
  intro h
  have hrun : ∃ w, Run (AliasWorld.step twoSpans) (fun w call => w.KernelBehaves call) .init
      [.begin 0 7 0 (some 0x200000000),
        .map 0 0x1000 0x1000 (answersWith 0xFFFF800000007000 none),
        .map 0 0x201000 0x1000 (answersWith 0xFFFF800000008000 (some 4)),
        .map 0 0x1000 0x1000 (answersWith 0xFFFF800000009000 none)] w ∧
      ∃ tb, w.trace[1]? = some (.mapped 7 0x1000 1 tb) ∧ tb.entries 0 = 0x201007 := by
    refine ⟨_, .cons trivial rfl (.cons ?_ rfl (.cons ?_ rfl (.cons ?_ rfl (.nil _)))),
      _, rfl, by decide⟩ <;>
      · rintro s ⟨⟩
        unfold MapAnswers.FreshTable
        decide
  obtain ⟨w, hrun, tb, htrace, hentry⟩ := hrun
  obtain ⟨r, hprobe, hpage⟩ := h twoSpans _ w hrun _ (mem_of_getElem? htrace) 0 (by decide)
  have hexpected : ptwProbe twoSpans.memory (twoSpans.cr3 7)
      (wrap64 (pageOf 0x1000 + 0 * alPageSize)) = some ⟨0x101000, 3, 0x1000, 0x101001⟩ := by
    decide +kernel
  rw [hexpected] at hprobe
  cases hprobe
  rw [hentry] at hpage
  exact absurd hpage (by decide)

end AliasWorld

end MemDbg.Scan
