import Mathlib.Data.List.FinRange
import MemDbg.Core.Status
import MemDbg.Lib.Layout
import MemDbg.Lib.Transition

/-!
# The arena sub-allocator

Small remote allocations are cut from segments of 16 MiB that the daemon keeps for
up to four processes.  A freed block goes to the free list of its pool when the
arena is on and the address lies in one of the segments, and back to the target's
memory map otherwise.

The allocator never looks at what is live.  The invariant is that the live blocks, the
free list and the unused ends of the segments together are a layout of the memory obtained
from the target.
-/

namespace MemDbg.Daemon

open List Lib

/-! ## Pools -/

def arenaAlignment : Nat := 0x4000

def arenaChunk : Nat := 16 * 1024 * 1024

def arenaMaxPids : Nat := 4

def arenaAlign (n : Nat) : Nat :=
  wrap64 (n + (arenaAlignment - 1)) / arenaAlignment * arenaAlignment

def arenaSize (length : Nat) : Nat := arenaAlign (if length = 0 then arenaAlignment else length)

structure ArenaSeg where
  base : Nat
  size : Nat
  used : Nat
deriving DecidableEq

structure ArenaPool where
  active : Bool
  pid : Nat
  segs : List ArenaSeg
  freelist : List Block
deriving DecidableEq

abbrev Arenas := Fin arenaMaxPids → ArenaPool

def findPool (arenas : Arenas) (pid : Nat) : Option (Fin arenaMaxPids) :=
  (List.finRange arenaMaxPids).find? fun i => (arenas i).active && (arenas i).pid == pid

def arenaFor (arenas : Arenas) (pid : Nat) (create : Bool) :
    Option (Fin arenaMaxPids × Arenas) :=
  match findPool arenas pid with
  | some i => some (i, arenas)
  | none =>
    if create then
      ((List.finRange arenaMaxPids).find? fun i => !(arenas i).active).map fun i =>
        (i, Function.update arenas i ⟨true, pid, [], []⟩)
    else none

def takeFree (size : Nat) : List Block → Option (Nat × List Block)
  | [] => none
  | b :: rest =>
    if size ≤ b.size then
      if wrap64 (size + arenaAlignment) ≤ b.size then
        some (b.addr, ⟨wrap64 (b.addr + size), b.size - size⟩ :: rest)
      else some (b.addr, rest)
    else (takeFree size rest).map fun (out, rest) => (out, b :: rest)

def takeSeg (size : Nat) : List ArenaSeg → Option (Nat × List ArenaSeg)
  | [] => none
  | s :: rest =>
    if size ≤ sub64 s.size s.used then
      some (wrap64 (s.base + s.used), { s with used := wrap64 (s.used + size) } :: rest)
    else (takeSeg size rest).map fun (out, rest) => (out, s :: rest)

def arenaSegSize (length : Nat) : Nat := max (arenaSize length) arenaChunk

def arenaTryAlloc (ap : ArenaPool) (length : Nat) (segment : Option Nat) (segOk : Bool) :
    Option (Nat × ArenaPool × Bool) :=
  let size := arenaSize length
  match takeFree size ap.freelist with
  | some (out, freelist) => some (out, { ap with freelist := freelist }, false)
  | none =>
    match takeSeg size ap.segs with
    | some (out, segs) => some (out, { ap with segs := segs }, false)
    | none =>
      match segment with
      | none => none
      | some base =>
        -- without a record the segment serves this block only
        let segs := if segOk then ⟨base, arenaSegSize length, size⟩ :: ap.segs else ap.segs
        some (base, { ap with segs := segs }, true)

def arenaTryFree (ap : ArenaPool) (addr length : Nat) (blkOk : Bool) : Option ArenaPool :=
  if ap.segs.any fun s => decide (s.base ≤ addr) && decide (addr < wrap64 (s.base + s.size)) then
    some (if blkOk then { ap with freelist := ⟨addr, arenaSize length⟩ :: ap.freelist } else ap)
  else none

def ArenaSeg.rest (seg : ArenaSeg) : Block := ⟨seg.base + seg.used, seg.size - seg.used⟩

def ArenaPool.reserve (ap : ArenaPool) : List Block := ap.freelist ++ ap.segs.map ArenaSeg.rest

def reserveOf (arenas : Arenas) (pid : Nat) : List Block :=
  match findPool arenas pid with
  | some i => (arenas i).reserve
  | none => []

/-! ## The daemon and its targets -/

structure LiveBlock where
  pid : Nat
  addr : Nat
  length : Nat
deriving DecidableEq

def LiveBlock.block (b : LiveBlock) : Block := ⟨b.addr, b.length⟩

/-- The arenas, the memory each target obtained from `pal_memory_alloc` and did not
give back to `pal_memory_free`, and the live blocks. -/
structure ArenaWorld where
  on : Bool
  arenas : Arenas
  mapped : Nat → Nat → Bool
  live : List LiveBlock

def ArenaWorld.init : ArenaWorld := ⟨true, fun _ => ⟨false, 0, [], []⟩, fun _ _ => false, []⟩

def roundUpPage (n : Nat) : Nat := (n + (arenaAlignment - 1)) / arenaAlignment * arenaAlignment

def mappedPages (base length : Nat) : Block := ⟨base, roundUpPage length⟩

def freedPages (addr length : Nat) : Block :=
  ⟨addr / arenaAlignment * arenaAlignment,
    roundUpPage (addr + length) - addr / arenaAlignment * arenaAlignment⟩

def setMapped (mapped : Nat → Nat → Bool) (pid : Nat) (b : Block) (value : Bool) :
    Nat → Nat → Bool :=
  fun p x => if p = pid ∧ b.addr ≤ x ∧ x < b.addr + b.size then value else mapped p x

namespace ArenaWorld

def palMemoryAlloc (s : ArenaWorld) (pid length : Nat) : Option Nat → Option Nat × ArenaWorld
  | none => (none, s)
  | some base =>
    (some base, { s with mapped := setMapped s.mapped pid (mappedPages base length) true })

def memdbgArenaAllocHinted (s : ArenaWorld) (pid length hint : Nat) (segment : Option Nat)
    (segOk : Bool) (direct : Option Nat) : Option Nat × ArenaWorld :=
  if s.on = true ∧ hint = 0x4000 then
    match arenaFor s.arenas pid true with
    | some (i, arenas) =>
      match arenaTryAlloc (arenas i) length segment segOk with
      | some (out, ap, fresh) =>
        (some out,
          { s with
            arenas := Function.update arenas i ap
            mapped := if fresh then
                setMapped s.mapped pid (mappedPages out (arenaSegSize length)) true
              else s.mapped })
      | none => { s with arenas := arenas }.palMemoryAlloc pid length direct
    | none => s.palMemoryAlloc pid length direct
  else s.palMemoryAlloc pid length direct

def memdbgArenaFreeHinted (s : ArenaWorld) (pid addr length : Nat) (blkOk palOk : Bool) :
    Bool × ArenaWorld :=
  let owned :=
    if s.on then
      match findPool s.arenas pid with
      | some i => (arenaTryFree (s.arenas i) addr length blkOk).map fun ap => (i, ap)
      | none => none
    else none
  match owned with
  | some (i, ap) => (true, { s with arenas := Function.update s.arenas i ap })
  | none =>
    if palOk then
      (true, { s with mapped := setMapped s.mapped pid (freedPages addr length) false })
    else (false, s)

end ArenaWorld

inductive ArenaCall where
  | config (enabled : Nat)
  | alloc (pid length hint : Nat) (segment : Option Nat) (segOk : Bool) (direct : Option Nat)
  | free (pid addr length : Nat) (blkOk palOk : Bool)
deriving DecidableEq

namespace ArenaWorld

def noteReturned (pid length : Nat) : Option Nat × ArenaWorld → ArenaWorld
  | (some addr, s) => { s with live := ⟨pid, addr, length⟩ :: s.live }
  | (none, s) => s

def noteFreed (pid addr : Nat) : Bool × ArenaWorld → ArenaWorld
  | (true, s) => { s with live := s.live.filter fun b => !(b.pid == pid && b.addr == addr) }
  | (false, s) => s

def step (s : ArenaWorld) : ArenaCall → Option ArenaWorld
  | .config enabled => some (if 1 < enabled then s else { s with on := enabled != 0 })
  | .alloc pid length hint segment segOk direct =>
    some (noteReturned pid length
      (s.memdbgArenaAllocHinted pid length hint segment segOk direct))
  | .free pid addr length blkOk palOk =>
    some (noteFreed pid addr (s.memdbgArenaFreeHinted pid addr length blkOk palOk))

structure Fresh (s : ArenaWorld) (pid base length : Nat) : Prop where
  pos : 0 < length
  aligned : arenaAlignment ∣ base
  fits : base + roundUpPage length < 2 ^ 64
  fresh : ∀ x ∈ (mappedPages base length).bytes, s.mapped pid x = false

/-- What the target's memory map answers. -/
def PalBehaves (s : ArenaWorld) : ArenaCall → Prop
  | .config _ => True
  | .alloc pid length _ segment _ direct =>
    (∀ base, segment = some base → s.Fresh pid base (arenaSegSize length)) ∧
      ∀ base, direct = some base → s.Fresh pid base length
  | .free _ addr length _ palOk => palOk = true → 0 < length ∧ addr + length < 2 ^ 64

def liveOf (s : ArenaWorld) (pid : Nat) : List LiveBlock := s.live.filter fun b => b.pid == pid

def memoryOf (s : ArenaWorld) (pid : Nat) : Set Nat := {x | s.mapped pid x = true}

/-- The blocks returned for one process are apart from each other, in memory that the
process has, and as long as requested. -/
def Safe (s : ArenaWorld) : Prop :=
  ∀ pid, Layout (s.memoryOf pid) ((s.liveOf pid).map LiveBlock.block)

def extents (live : List LiveBlock) (pid : Nat) : List Block :=
  (live.filter fun b => b.pid == pid).map fun b => ⟨b.addr, arenaSize b.length⟩

structure Outside (s : ArenaWorld) (pid addr length : Nat) : Prop where
  apart : ∀ b ∈ extents s.live pid ++ reserveOf s.arenas pid,
    Disjoint b.bytes (freedPages addr length).bytes
  foreign : s.on = true → ∀ i, findPool s.arenas pid = some i → ∀ seg ∈ (s.arenas i).segs,
    ¬ (seg.base ≤ addr ∧ addr < seg.base + seg.size)

/-- The rounding of the length does not wrap. -/
def LengthFits (s : ArenaWorld) : ArenaCall → Prop
  | .alloc _ length hint _ _ _ =>
    s.on = true → hint = 0x4000 → length ≤ 2 ^ 64 - arenaAlignment
  | _ => True

/-- A free names a live block by its address and length, or memory that is none of
the arena's. -/
def FreesLive (s : ArenaWorld) : ArenaCall → Prop
  | .free pid addr length _ _ => ⟨pid, addr, length⟩ ∈ s.live ∨ s.Outside pid addr length
  | _ => True

end ArenaWorld

/-! ## Whole pages -/

theorem arenaAlignment_dvd_roundUpPage (n : Nat) : arenaAlignment ∣ roundUpPage n :=
  Nat.dvd_mul_left _ _

theorem le_roundUpPage (n : Nat) : n ≤ roundUpPage n := by
  unfold roundUpPage arenaAlignment
  omega

theorem roundUpPage_of_dvd {n : Nat} (h : arenaAlignment ∣ n) : roundUpPage n = n := by
  unfold roundUpPage arenaAlignment at *
  omega

theorem arenaAlignment_dvd_arenaSize (length : Nat) : arenaAlignment ∣ arenaSize length :=
  Nat.dvd_mul_left _ _

theorem arenaSize_eq {length : Nat} (hpos : 0 < length) (h : roundUpPage length < 2 ^ 64) :
    arenaSize length = roundUpPage length := by
  simp only [arenaSize, if_neg hpos.ne', arenaAlign]
  unfold roundUpPage arenaAlignment wrap64 at *
  omega

theorem le_arenaSize {length : Nat} (h : length ≤ 2 ^ 64 - arenaAlignment) :
    length ≤ arenaSize length := by
  unfold arenaSize arenaAlign wrap64 arenaAlignment at *
  split_ifs <;> omega

theorem arenaAlignment_dvd_arenaSegSize (length : Nat) :
    arenaAlignment ∣ arenaSegSize length := by
  unfold arenaSegSize
  rcases Nat.le_total (arenaSize length) arenaChunk with h | h
  · rw [Nat.max_eq_right h]
    exact ⟨1024, rfl⟩
  · rw [Nat.max_eq_left h]
    exact arenaAlignment_dvd_arenaSize length

structure Paged (b : Block) : Prop where
  addr_dvd : arenaAlignment ∣ b.addr
  size_dvd : arenaAlignment ∣ b.size
  fits : b.addr + b.size < 2 ^ 64

structure PageLayout (mapped : Set Nat) (blocks : List Block) : Prop
    extends Layout mapped blocks where
  paged : ∀ b ∈ blocks, Paged b

def Cut (size out : Nat) (blocks blocks' : List Block) : Prop :=
  ∃ b rest, blocks.Perm (b :: rest) ∧ out = b.addr ∧ size ≤ b.size ∧
    (blocks'.Perm (⟨b.addr + size, b.size - size⟩ :: rest) ∨ blocks'.Perm rest)

namespace Cut

variable {size out : Nat} {blocks blocks' : List Block}

theorem head {b : Block} (rest : List Block) (h : size ≤ b.size) :
    Cut size b.addr (b :: rest) (⟨b.addr + size, b.size - size⟩ :: rest) :=
  ⟨b, rest, .refl _, rfl, h, .inl (.refl _)⟩

theorem append_left (h : Cut size out blocks blocks') (others : List Block) :
    Cut size out (others ++ blocks) (others ++ blocks') := by
  obtain ⟨b, rest, hperm, hout, hle, hperm'⟩ := h
  refine ⟨b, others ++ rest, (hperm.append_left others).trans perm_middle, hout, hle, ?_⟩
  exact hperm'.imp (fun h => (h.append_left others).trans perm_middle)
    fun h => h.append_left others

theorem append_right (h : Cut size out blocks blocks') (others : List Block) :
    Cut size out (blocks ++ others) (blocks' ++ others) := by
  obtain ⟨b, rest, hperm, hout, hle, hperm'⟩ := h
  exact ⟨b, rest ++ others, hperm.append_right others, hout, hle,
    hperm'.imp (fun h => h.append_right others) fun h => h.append_right others⟩

theorem cons (h : Cut size out blocks blocks') (b : Block) :
    Cut size out (b :: blocks) (b :: blocks') := h.append_left [b]

end Cut

namespace PageLayout

variable {mapped : Set Nat} {blocks blocks' : List Block}

theorem perm (h : PageLayout mapped blocks) (hperm : blocks.Perm blocks') :
    PageLayout mapped blocks' :=
  ⟨h.toLayout.perm hperm, fun b hb => h.paged b (hperm.mem_iff.mpr hb)⟩

theorem sublist (h : PageLayout mapped blocks) (hsub : blocks'.Sublist blocks) :
    PageLayout mapped blocks' :=
  ⟨h.toLayout.sublist hsub, fun b hb => h.paged b (hsub.mem hb)⟩

theorem subperm (h : PageLayout mapped blocks) (hsub : blocks'.Subperm blocks) :
    PageLayout mapped blocks' := by
  obtain ⟨l, hperm, hsub⟩ := hsub
  exact (h.sublist hsub).perm hperm

theorem grow (h : PageLayout mapped blocks) {b : Block} (hb : Paged b)
    (hfresh : Disjoint b.bytes mapped) : PageLayout (mapped ∪ b.bytes) (b :: blocks) :=
  ⟨h.toLayout.grow hfresh, forall_mem_cons.mpr ⟨hb, h.paged⟩⟩

theorem unmap (h : PageLayout mapped blocks) {gone : Set Nat}
    (hout : ∀ c ∈ blocks, Disjoint c.bytes gone) : PageLayout (mapped \ gone) blocks :=
  ⟨h.toLayout.unmap hout, h.paged⟩

theorem cut (h : PageLayout mapped blocks) {size out : Nat} (hsize : arenaAlignment ∣ size)
    (hcut : Cut size out blocks blocks') : PageLayout mapped (⟨out, size⟩ :: blocks') := by
  obtain ⟨⟨_, n⟩, rest, hperm, rfl, hle, hperm'⟩ := hcut
  obtain ⟨k, rfl⟩ := Nat.exists_eq_add_of_le hle
  have hhead := h.perm hperm
  have hb := hhead.paged _ mem_cons_self
  have hk : size + k - size = k := by omega
  have hsplit : PageLayout mapped (⟨out, size⟩ :: ⟨out + size, k⟩ :: rest) := by
    refine ⟨hhead.toLayout.split, ?_⟩
    rw [forall_mem_cons, forall_mem_cons]
    have hfits := hb.fits
    refine ⟨⟨hb.addr_dvd, hsize, ?_⟩, ⟨Nat.dvd_add hb.addr_dvd hsize, ?_, ?_⟩,
      fun c hc => hhead.paged c (mem_cons_of_mem _ hc)⟩ <;> simp only at hfits ⊢
    · omega
    · exact (Nat.dvd_add_right hsize).mp hb.size_dvd
    · omega
  rw [hk] at hperm'
  rcases hperm' with hperm' | hperm'
  · exact hsplit.perm (hperm'.symm.cons _)
  · exact (hsplit.sublist ((sublist_cons_self _ _).cons_cons _)).perm (hperm'.symm.cons _)

end PageLayout

/-! ## What the pools do -/

structure ArenaSeg.Good (seg : ArenaSeg) : Prop where
  used_le : seg.used ≤ seg.size
  fits : seg.base + seg.size < 2 ^ 64

theorem takeFree_cut {size out : Nat} {l l' : List Block} (hfits : ∀ b ∈ l, Paged b)
    (h : takeFree size l = some (out, l')) : Cut size out l l' := by
  induction l generalizing l' with
  | nil => cases h
  | cons b rest ih =>
    obtain ⟨hb, hrest⟩ := forall_mem_cons.mp hfits
    simp only [takeFree] at h
    split_ifs at h with hle hlarge
    · cases h
      have hend := hb.fits
      rw [wrap64_of_lt (by omega)]
      exact Cut.head rest hle
    · cases h
      exact ⟨b, _, .refl _, rfl, hle, .inr (.refl _)⟩
    · obtain ⟨⟨out', l₁⟩, htake, heq⟩ := Option.map_eq_some_iff.mp h
      cases heq
      exact (ih hrest htake).cons b

theorem takeSeg_cut {size out : Nat} {segs segs' : List ArenaSeg} (hgood : ∀ seg ∈ segs, seg.Good)
    (h : takeSeg size segs = some (out, segs')) :
    Cut size out (segs.map ArenaSeg.rest) (segs'.map ArenaSeg.rest) ∧
      ∀ seg ∈ segs', seg.Good := by
  induction segs generalizing segs' with
  | nil => cases h
  | cons seg rest ih =>
    obtain ⟨hseg, hrest⟩ := forall_mem_cons.mp hgood
    simp only [takeSeg] at h
    split_ifs at h with hle
    · cases h
      have hused := hseg.used_le
      have hfits := hseg.fits
      rw [sub64_of_le hused (by omega)] at hle
      rw [wrap64_of_lt (by omega), wrap64_of_lt (by omega), forall_mem_cons]
      refine ⟨?_, ⟨by simp only; omega, hfits⟩, hrest⟩
      have hcut := Cut.head (b := seg.rest) (rest.map ArenaSeg.rest) hle
      simpa only [ArenaSeg.rest, map_cons, Nat.add_assoc, Nat.sub_sub] using hcut
    · obtain ⟨⟨out', segs₁⟩, htake, heq⟩ := Option.map_eq_some_iff.mp h
      cases heq
      obtain ⟨hcut, hgood'⟩ := ih hrest htake
      exact ⟨hcut.cons seg.rest, forall_mem_cons.mpr ⟨hseg, hgood'⟩⟩

theorem arenaTryAlloc_cases {ap ap' : ArenaPool} {length out : Nat} {segment : Option Nat}
    {segOk fresh : Bool} (hpaged : ∀ b ∈ ap.reserve, Paged b) (hgood : ∀ seg ∈ ap.segs, seg.Good)
    (hfits : ∀ base, segment = some base → base + arenaSegSize length < 2 ^ 64)
    (h : arenaTryAlloc ap length segment segOk = some (out, ap', fresh)) :
    (ap'.active = ap.active ∧ ap'.pid = ap.pid) ∧ (∀ seg ∈ ap'.segs, seg.Good) ∧
      ((fresh = false ∧ Cut (arenaSize length) out ap.reserve ap'.reserve) ∨
        (fresh = true ∧ segment = some out ∧
          Cut (arenaSize length) out (⟨out, arenaSegSize length⟩ :: ap.reserve) ap'.reserve)) := by
  unfold arenaTryAlloc at h
  dsimp only at h
  split at h
  · rename_i out' freelist htake
    cases h
    refine ⟨⟨rfl, rfl⟩, hgood, .inl ⟨rfl, Cut.append_right (takeFree_cut ?_ htake) _⟩⟩
    exact fun b hb => hpaged b (mem_append_left _ hb)
  · split at h
    · rename_i out' segs htake
      cases h
      obtain ⟨hcut, hgood'⟩ := takeSeg_cut hgood htake
      exact ⟨⟨rfl, rfl⟩, hgood', .inl ⟨rfl, hcut.append_left _⟩⟩
    · cases segment with
      | none => cases h
      | some base =>
        cases h
        have hle : arenaSize length ≤ arenaSegSize length := le_max_left _ _
        have hnew : ∀ seg ∈ (if segOk = true then
            ⟨out, arenaSegSize length, arenaSize length⟩ :: ap.segs else ap.segs : List ArenaSeg),
            seg.Good := by
          split_ifs
          · exact forall_mem_cons.mpr ⟨⟨hle, hfits _ rfl⟩, hgood⟩
          · exact hgood
        refine ⟨⟨rfl, rfl⟩, hnew, .inr ⟨rfl, rfl, _, ap.reserve, .refl _, rfl, hle, ?_⟩⟩
        -- without a record the rest of the segment is lost
        cases segOk with
        | true => exact .inl perm_middle
        | false => exact .inr (.refl _)

theorem arenaTryFree_some {ap ap' : ArenaPool} {addr length : Nat} {blkOk : Bool}
    (h : arenaTryFree ap addr length blkOk = some ap') :
    (∃ seg ∈ ap.segs, seg.base ≤ addr ∧ addr < wrap64 (seg.base + seg.size)) ∧
      ap'.active = ap.active ∧ ap'.pid = ap.pid ∧ ap'.segs = ap.segs ∧
      ap'.reserve.Sublist (⟨addr, arenaSize length⟩ :: ap.reserve) := by
  unfold arenaTryFree at h
  by_cases howned : (ap.segs.any fun s =>
      decide (s.base ≤ addr) && decide (addr < wrap64 (s.base + s.size))) = true
  · rw [if_pos howned] at h
    refine ⟨by simpa using howned, ?_⟩
    cases blkOk with
    | true =>
      cases h
      exact ⟨rfl, rfl, rfl, List.Sublist.refl _⟩
    | false =>
      cases h
      exact ⟨rfl, rfl, rfl, sublist_cons_self _ _⟩
  · rw [if_neg howned] at h
    cases h

section Pools

variable {arenas arenas' : Arenas} {pid : Nat} {i : Fin arenaMaxPids}

theorem findPool_some (h : findPool arenas pid = some i) :
    (arenas i).active = true ∧ (arenas i).pid = pid := by
  simpa using find?_some h

variable {ap : ArenaPool}

theorem findPool_update (hactive : ap.active = (arenas i).active)
    (hpid : ap.pid = (arenas i).pid) :
    findPool (Function.update arenas i ap) = findPool arenas := by
  funext pid
  unfold findPool
  congr 1
  funext j
  by_cases hj : j = i
  · subst hj
    rw [Function.update_self, hactive, hpid]
  · rw [Function.update_of_ne hj]

theorem reserveOf_some (h : findPool arenas pid = some i) :
    reserveOf arenas pid = (arenas i).reserve := by
  rw [reserveOf, h]

theorem reserveOf_update_self (h : findPool arenas pid = some i)
    (hactive : ap.active = (arenas i).active) (hpid : ap.pid = (arenas i).pid) :
    reserveOf (Function.update arenas i ap) pid = ap.reserve := by
  rw [reserveOf_some (i := i), Function.update_self]
  rw [findPool_update hactive hpid, h]

theorem reserveOf_update_ne (h : findPool arenas pid = some i)
    (hactive : ap.active = (arenas i).active) (hpid : ap.pid = (arenas i).pid) {pid' : Nat}
    (hne : pid' ≠ pid) : reserveOf (Function.update arenas i ap) pid' = reserveOf arenas pid' := by
  unfold reserveOf
  rw [findPool_update hactive hpid]
  cases hfind : findPool arenas pid' with
  | none => rfl
  | some j =>
    have hj : j ≠ i := by
      rintro rfl
      exact hne ((findPool_some hfind).2.symm.trans (findPool_some h).2)
    simp only [Function.update_of_ne hj]

theorem arenaFor_some (h : arenaFor arenas pid true = some (i, arenas')) :
    findPool arenas' pid = some i ∧ reserveOf arenas' = reserveOf arenas ∧
      ∀ j, ∀ seg ∈ (arenas' j).segs, seg ∈ (arenas j).segs := by
  unfold arenaFor at h
  split at h
  · rename_i j hfind
    cases h
    exact ⟨hfind, rfl, fun _ _ hseg => hseg⟩
  · rename_i hnone
    obtain ⟨j, hslot, heq⟩ := Option.map_eq_some_iff.mp h
    cases heq
    have hinactive : (arenas i).active = false := by
      simpa using find?_some hslot
    have hother : ∀ pid', pid' ≠ pid →
        findPool (Function.update arenas i ⟨true, pid, [], []⟩) pid' = findPool arenas pid' := by
      intro pid' hne
      unfold findPool
      congr 1
      funext j
      by_cases hj : j = i
      · subst hj
        simp [hinactive, hne.symm]
      · rw [Function.update_of_ne hj]
    have hthis : findPool (Function.update arenas i ⟨true, pid, [], []⟩) pid = some i := by
      cases hfind : findPool (Function.update arenas i ⟨true, pid, [], []⟩) pid with
      | none =>
        have := find?_eq_none.mp hfind i (mem_finRange i)
        simp at this
      | some j =>
        by_cases hj : j = i
        · rw [hj]
        · have hold := findPool_some hfind
          rw [Function.update_of_ne hj] at hold
          have := find?_eq_none.mp hnone j (mem_finRange j)
          simp [hold] at this
    refine ⟨hthis, ?_, fun j seg hseg => ?_⟩
    · funext pid'
      by_cases hpid : pid' = pid
      · rw [hpid, reserveOf_some hthis, Function.update_self, reserveOf, hnone]
        rfl
      · unfold reserveOf
        rw [hother pid' hpid]
        cases hfind : findPool arenas pid' with
        | none => rfl
        | some j =>
          have hj : j ≠ i := by
            rintro rfl
            exact absurd (findPool_some hfind).1 (by simp [hinactive])
          simp only [Function.update_of_ne hj]
    · by_cases hj : j = i
      · subst hj
        rw [Function.update_self] at hseg
        exact absurd hseg not_mem_nil
      · rwa [Function.update_of_ne hj] at hseg

end Pools

/-! ## The invariant -/

namespace ArenaWorld

structure Consistent (s : ArenaWorld) : Prop where
  layout : ∀ pid, PageLayout (s.memoryOf pid) (extents s.live pid ++ reserveOf s.arenas pid)
  segs : ∀ i, ∀ seg ∈ (s.arenas i).segs, seg.Good
  lengths : ∀ b ∈ s.live, b.length ≤ arenaSize b.length

variable {s : ArenaWorld} {pid : Nat}

theorem consistent_init : init.Consistent where
  layout := fun _ => ⟨Layout.nil, fun _ hb => absurd hb not_mem_nil⟩
  segs := fun _ _ hseg => absurd hseg not_mem_nil
  lengths := fun _ hb => absurd hb not_mem_nil

theorem Consistent.safe (h : s.Consistent) : s.Safe := by
  intro pid
  have hextents := (h.layout pid).toLayout.sublist (sublist_append_left _ _)
  have hlengths : ∀ b ∈ s.liveOf pid, b.length ≤ arenaSize b.length :=
    fun b hb => h.lengths b (mem_of_mem_filter hb)
  unfold extents at hextents
  change Layout _ ((s.liveOf pid).map _) at hextents
  generalize s.liveOf pid = live at hextents hlengths
  induction live with
  | nil => exact Layout.nil
  | cons b rest ih =>
    obtain ⟨hb, hrest⟩ := forall_mem_cons.mp hlengths
    have hsub : ∀ c : LiveBlock, c.length ≤ arenaSize c.length →
        c.block.bytes ⊆ (⟨c.addr, arenaSize c.length⟩ : Block).bytes :=
      fun c hc x hx => ⟨hx.1, hx.2.trans_le (Nat.add_le_add_left hc _)⟩
    obtain ⟨htail, hmapped, hdisj⟩ := Layout.cons_iff.mp hextents
    refine Layout.cons_iff.mpr ⟨ih htail hrest, (hsub b hb).trans hmapped, fun c hc => ?_⟩
    obtain ⟨c, hmem, rfl⟩ := mem_map.mp hc
    exact (hdisj _ (mem_map_of_mem hmem)).mono (hsub b hb) (hsub c (hrest c hmem))

theorem memoryOf_map (b : Block) :
    {x | setMapped s.mapped pid b true pid x = true} = s.memoryOf pid ∪ b.bytes := by
  ext x
  simp only [setMapped, memoryOf, Set.mem_ofPred_eq, Set.mem_union, Block.mem_bytes]
  split_ifs with h <;> simp_all

theorem memoryOf_unmap (b : Block) :
    {x | setMapped s.mapped pid b false pid x = true} = s.memoryOf pid \ b.bytes := by
  ext x
  simp only [setMapped, memoryOf, Set.mem_ofPred_eq, Set.mem_sdiff, Block.mem_bytes]
  split_ifs with h <;> simp_all

theorem setMapped_ne {pid' : Nat} (hne : pid' ≠ pid) (b : Block) (value : Bool) :
    setMapped s.mapped pid b value pid' = s.mapped pid' := by
  funext x
  simp [setMapped, hne]

theorem extents_cons_self (addr length : Nat) (live : List LiveBlock) :
    extents (⟨pid, addr, length⟩ :: live) pid = ⟨addr, arenaSize length⟩ :: extents live pid := by
  simp [extents]

theorem extents_cons_ne {pid' : Nat} (hne : pid' ≠ pid) (addr length : Nat)
    (live : List LiveBlock) : extents (⟨pid, addr, length⟩ :: live) pid' = extents live pid' := by
  simp [extents, hne.symm]

theorem Fresh.grow {base length : Nat} (hfresh : s.Fresh pid base length) {blocks : List Block}
    (h : PageLayout (s.memoryOf pid) blocks) :
    PageLayout {x | setMapped s.mapped pid (mappedPages base length) true pid x = true}
      (mappedPages base length :: blocks) := by
  rw [memoryOf_map]
  refine h.grow ⟨hfresh.aligned, arenaAlignment_dvd_roundUpPage length, hfresh.fits⟩ ?_
  rw [Set.disjoint_left]
  intro x hx hmapped
  exact absurd hmapped (by simp [memoryOf, hfresh.fresh x hx])

theorem Consistent.returned (h : s.Consistent) (s' : ArenaWorld) {addr length : Nat}
    (hlength : length ≤ arenaSize length) (hlive : s'.live = s.live)
    (hmapped : ∀ p, p ≠ pid → s'.mapped p = s.mapped p)
    (hreserve : ∀ p, p ≠ pid → reserveOf s'.arenas p = reserveOf s.arenas p)
    (hsegs : ∀ i, ∀ seg ∈ (s'.arenas i).segs, seg.Good)
    (hlayout : PageLayout (s'.memoryOf pid)
      (⟨addr, arenaSize length⟩ :: (extents s.live pid ++ reserveOf s'.arenas pid))) :
    ({ s' with live := ⟨pid, addr, length⟩ :: s'.live } : ArenaWorld).Consistent where
  layout := fun p => by
    by_cases hp : p = pid
    · subst hp
      rw [hlive, extents_cons_self]
      exact hlayout
    · rw [extents_cons_ne hp, hlive]
      have hother := h.layout p
      simp only [memoryOf] at hother ⊢
      rw [hmapped p hp, hreserve p hp]
      exact hother
  segs := hsegs
  lengths := by
    rw [hlive]
    exact forall_mem_cons.mpr ⟨hlength, h.lengths⟩

theorem Consistent.direct (h : s.Consistent) {base length : Nat}
    (hfresh : s.Fresh pid base length) :
    ({ s with
        mapped := setMapped s.mapped pid (mappedPages base length) true
        live := ⟨pid, base, length⟩ :: s.live } : ArenaWorld).Consistent := by
  have hsize : arenaSize length = roundUpPage length :=
    arenaSize_eq hfresh.pos (Nat.lt_of_le_of_lt (Nat.le_add_left _ _) hfresh.fits)
  refine h.returned
    { s with mapped := setMapped s.mapped pid (mappedPages base length) true } ?_ rfl
    (fun p hp => setMapped_ne hp _ _) (fun _ _ => rfl) h.segs ?_
  · rw [hsize]
    exact le_roundUpPage length
  · rw [hsize]
    exact hfresh.grow (h.layout pid)

theorem Consistent.pooled (h : s.Consistent) {length out : Nat} {segment : Option Nat}
    {segOk fresh : Bool} {i : Fin arenaMaxPids}
    (hfind : findPool s.arenas pid = some i) (hlength : length ≤ arenaSize length)
    (hfresh : ∀ base, segment = some base → s.Fresh pid base (arenaSegSize length))
    (htry : arenaTryAlloc (s.arenas i) length segment segOk = some (out, ap, fresh)) :
    ({ s with
        arenas := Function.update s.arenas i ap
        mapped := if fresh then
            setMapped s.mapped pid (mappedPages out (arenaSegSize length)) true
          else s.mapped
        live := ⟨pid, out, length⟩ :: s.live } : ArenaWorld).Consistent := by
  have hlayout := h.layout pid
  rw [reserveOf_some hfind] at hlayout
  have hpages : roundUpPage (arenaSegSize length) = arenaSegSize length :=
    roundUpPage_of_dvd (arenaAlignment_dvd_arenaSegSize length)
  have hfits : ∀ base, segment = some base → base + arenaSegSize length < 2 ^ 64 :=
    fun base hbase => hpages ▸ (hfresh base hbase).fits
  obtain ⟨⟨hactive, hpid⟩, hgood, hcases⟩ := arenaTryAlloc_cases
    (fun b hb => hlayout.paged b (mem_append_right _ hb)) (h.segs i) hfits htry
  refine h.returned
    { s with
      arenas := Function.update s.arenas i ap
      mapped := if fresh then
          setMapped s.mapped pid (mappedPages out (arenaSegSize length)) true
        else s.mapped }
    hlength rfl (fun p hp => ?_)
    (fun p hp => reserveOf_update_ne hfind hactive hpid hp) (fun j => ?_) ?_
  · cases fresh with
    | true => exact setMapped_ne hp _ _
    | false => rfl
  · by_cases hj : j = i
    · subst hj
      simpa using hgood
    · simpa [Function.update_of_ne hj] using h.segs j
  · simp only [memoryOf]
    rw [reserveOf_update_self hfind hactive hpid]
    rcases hcases with ⟨rfl, hcut⟩ | ⟨rfl, hbase, hcut⟩
    · exact hlayout.cut (arenaAlignment_dvd_arenaSize length) (hcut.append_left _)
    · have hgrown := (hfresh out hbase).grow hlayout
      rw [mappedPages, hpages] at hgrown
      simp only [if_true, mappedPages, hpages]
      exact (hgrown.perm perm_middle.symm).cut (arenaAlignment_dvd_arenaSize length)
        (hcut.append_left _)

theorem Consistent.openPool (h : s.Consistent) {i : Fin arenaMaxPids} {arenas : Arenas}
    (hfor : arenaFor s.arenas pid true = some (i, arenas)) :
    findPool arenas pid = some i ∧ ({ s with arenas := arenas } : ArenaWorld).Consistent := by
  obtain ⟨hfind, hreserve, hsegs⟩ := arenaFor_some hfor
  refine ⟨hfind, fun p => ?_, fun j seg hseg => h.segs j seg (hsegs j seg hseg), h.lengths⟩
  rw [hreserve]
  exact h.layout p

theorem Consistent.freed (h : s.Consistent) (s' : ArenaWorld) {addr : Nat}
    (hlive : s'.live = s.live.filter fun b => !(b.pid == pid && b.addr == addr))
    (hmapped : ∀ p, p ≠ pid → s'.mapped p = s.mapped p)
    (hreserve : ∀ p, p ≠ pid → reserveOf s'.arenas p = reserveOf s.arenas p)
    (hsegs : ∀ i, (s'.arenas i).segs = (s.arenas i).segs)
    (hlayout : PageLayout (s'.memoryOf pid)
      (extents s'.live pid ++ reserveOf s'.arenas pid)) : s'.Consistent where
  layout := fun p => by
    by_cases hp : p = pid
    · subst hp
      exact hlayout
    · have hsub : (extents s'.live p).Sublist (extents s.live p) := by
        rw [hlive]
        exact (filter_sublist.filter _).map _
      have hother := h.layout p
      simp only [memoryOf] at hother ⊢
      rw [hmapped p hp, hreserve p hp]
      exact hother.sublist (hsub.append_right _)
  segs := fun i => by
    rw [hsegs i]
    exact h.segs i
  lengths := fun b hb => h.lengths b (by
    rw [hlive] at hb
    exact mem_of_mem_filter hb)

theorem extents_freed {live : List LiveBlock} {addr length : Nat}
    (hmem : ⟨pid, addr, length⟩ ∈ live) :
    ∃ others, (extents live pid).Perm (⟨addr, arenaSize length⟩ :: others) ∧
      (extents (live.filter fun b => !(b.pid == pid && b.addr == addr)) pid).Subperm others := by
  have hperm := perm_cons_erase hmem
  refine ⟨extents (live.erase ⟨pid, addr, length⟩) pid, ?_, ?_⟩
  · rw [← extents_cons_self]
    exact (hperm.filter _).map _
  · have hfilter := ((hperm.filter fun b => !(b.pid == pid && b.addr == addr)).filter
      fun b => b.pid == pid).map fun b => (⟨b.addr, arenaSize b.length⟩ : Block)
    rw [filter_cons_of_neg (by simp)] at hfilter
    exact ⟨_, hfilter.symm, (filter_sublist.filter _).map _⟩

theorem freedPages_eq {addr length : Nat} (hpos : 0 < length) (hle : length ≤ arenaSize length)
    (hpaged : Paged ⟨addr, arenaSize length⟩) :
    freedPages addr length = ⟨addr, arenaSize length⟩ := by
  obtain ⟨⟨k, hk⟩, hdvd, hfits⟩ := hpaged
  simp only at hk hdvd hfits
  have hround : roundUpPage length ≤ arenaSize length := by
    unfold roundUpPage arenaAlignment at *
    omega
  have hsize : arenaSize length = roundUpPage length := arenaSize_eq hpos (by omega)
  have hstart : addr / arenaAlignment * arenaAlignment = addr := by
    rw [hk, Nat.mul_div_cancel_left _ (by decide), Nat.mul_comm]
  have hend : roundUpPage (addr + length) - addr = roundUpPage length := by
    rw [hk]
    unfold roundUpPage arenaAlignment
    omega
  rw [hsize, freedPages, hstart, hend]

theorem Consistent.freeOwned (h : s.Consistent) {addr length : Nat} {blkOk : Bool}
    {i : Fin arenaMaxPids} (hon : s.on = true)
    (hfind : findPool s.arenas pid = some i)
    (htry : arenaTryFree (s.arenas i) addr length blkOk = some ap)
    (hok : ⟨pid, addr, length⟩ ∈ s.live ∨ s.Outside pid addr length) :
    ({ s with
        arenas := Function.update s.arenas i ap
        live := s.live.filter fun b => !(b.pid == pid && b.addr == addr) }
      : ArenaWorld).Consistent := by
  obtain ⟨⟨seg, hseg, hbase, hend⟩, hactive, hpid, hsegs, hreserve⟩ := arenaTryFree_some htry
  rw [wrap64_of_lt (h.segs i seg hseg).fits] at hend
  have hlive : ⟨pid, addr, length⟩ ∈ s.live :=
    hok.resolve_right fun hout => hout.foreign hon i hfind seg hseg ⟨hbase, hend⟩
  refine h.freed
    { s with
      arenas := Function.update s.arenas i ap
      live := s.live.filter fun b => !(b.pid == pid && b.addr == addr) }
    rfl (fun _ _ => rfl) (fun p hp => reserveOf_update_ne hfind hactive hpid hp) (fun j => ?_) ?_
  · by_cases hj : j = i
    · subst hj
      simpa using hsegs
    · simp [Function.update_of_ne hj]
  · have hlayout := h.layout pid
    rw [reserveOf_some hfind] at hlayout
    obtain ⟨others, hperm, hsub⟩ := extents_freed hlive
    rw [reserveOf_update_self hfind hactive hpid]
    have hmoved := hlayout.perm ((hperm.append_right _).trans perm_middle.symm)
    exact (hmoved.sublist (hreserve.append_left others)).subperm ((subperm_append_right _).mpr hsub)

theorem Consistent.freeDirect (h : s.Consistent) {addr length : Nat} (hpos : 0 < length)
    (hok : ⟨pid, addr, length⟩ ∈ s.live ∨ s.Outside pid addr length) :
    ({ s with
        mapped := setMapped s.mapped pid (freedPages addr length) false
        live := s.live.filter fun b => !(b.pid == pid && b.addr == addr) }
      : ArenaWorld).Consistent := by
  refine h.freed
    { s with
      mapped := setMapped s.mapped pid (freedPages addr length) false
      live := s.live.filter fun b => !(b.pid == pid && b.addr == addr) }
    rfl (fun p hp => setMapped_ne hp _ _) (fun _ _ => rfl) (fun _ => rfl) ?_
  change PageLayout {x | _} _
  rw [memoryOf_unmap]
  rcases hok with hlive | hout
  · obtain ⟨others, hperm, hsub⟩ := extents_freed hlive
    have hlayout := (h.layout pid).perm (hperm.append_right _)
    have hpaged := hlayout.paged _ mem_cons_self
    rw [freedPages_eq hpos (h.lengths _ hlive) hpaged]
    obtain ⟨-, -, hdisj⟩ := Layout.cons_iff.mp hlayout.toLayout
    have hothers := hlayout.sublist (sublist_cons_self _ _)
    exact (hothers.unmap fun c hc => (hdisj c hc).symm).subperm ((subperm_append_right _).mpr hsub)
  · have hunmapped := (h.layout pid).unmap hout.apart
    exact hunmapped.sublist (((filter_sublist.filter _).map _).append_right _)

theorem Consistent.alloc (h : s.Consistent) {length hint : Nat} {segment direct : Option Nat}
    {segOk : Bool} (hpal : s.PalBehaves (.alloc pid length hint segment segOk direct))
    (hlength : s.LengthFits (.alloc pid length hint segment segOk direct)) :
    (noteReturned pid length
      (s.memdbgArenaAllocHinted pid length hint segment segOk direct)).Consistent := by
  obtain ⟨hsegment, hdirect⟩ := hpal
  -- the fallback, from a state that differs in opened pools only
  have hfall : ∀ s₁ : ArenaWorld, s₁.Consistent → s₁.mapped = s.mapped →
      (noteReturned pid length (s₁.palMemoryAlloc pid length direct)).Consistent := by
    intro s₁ h₁ hmapped
    cases direct with
    | none => exact h₁
    | some base =>
      obtain ⟨hpos, haligned, hfits, hfresh⟩ := hdirect base rfl
      exact h₁.direct ⟨hpos, haligned, hfits, fun x hx => by rw [hmapped]; exact hfresh x hx⟩
  unfold memdbgArenaAllocHinted
  split_ifs with hon
  · split
    · rename_i i arenas hfor
      obtain ⟨hfind, hopened⟩ := h.openPool hfor
      split
      · rename_i out ap fresh htry
        refine hopened.pooled hfind (le_arenaSize (hlength hon.1 hon.2)) (fun base hbase => ?_) htry
        obtain ⟨hpos, haligned, hfits, hfresh⟩ := hsegment base hbase
        exact ⟨hpos, haligned, hfits, hfresh⟩
      · exact hfall _ hopened rfl
    · exact hfall s h rfl
  · exact hfall s h rfl

theorem Consistent.free (h : s.Consistent) {addr length : Nat} {blkOk palOk : Bool}
    (hpal : s.PalBehaves (.free pid addr length blkOk palOk))
    (hok : s.FreesLive (.free pid addr length blkOk palOk)) :
    (noteFreed pid addr (s.memdbgArenaFreeHinted pid addr length blkOk palOk)).Consistent := by
  unfold memdbgArenaFreeHinted
  dsimp only
  split
  · rename_i i ap howned
    split_ifs at howned with hon
    cases hfind : findPool s.arenas pid with
    | none =>
      rw [hfind] at howned
      cases howned
    | some j =>
      rw [hfind] at howned
      obtain ⟨ap', htry, heq⟩ := Option.map_eq_some_iff.mp howned
      cases heq
      exact h.freeOwned hon hfind htry hok
  · split_ifs with hfreed
    · exact h.freeDirect (hpal hfreed).1 hok
    · exact h

theorem Consistent.step (h : s.Consistent) {call : ArenaCall} {s' : ArenaWorld}
    (hpal : s.PalBehaves call) (hlength : s.LengthFits call) (hfrees : s.FreesLive call)
    (hstep : s.step call = some s') : s'.Consistent := by
  cases call with
  | config enabled =>
    cases hstep
    split_ifs
    · exact h
    · exact ⟨h.layout, h.segs, h.lengths⟩
  | alloc pid length hint segment segOk direct =>
    cases hstep
    exact h.alloc hpal hlength
  | free pid addr length blkOk palOk =>
    cases hstep
    exact h.free hpal hfrees

/-- **The arena is safe for proper callers.**  In every run in which no rounding wraps
and every free names a live block, or memory that is none of the arena's, the live
blocks of each process are apart, mapped, and as long as requested. -/
theorem arena_safe {calls : List ArenaCall} {s : ArenaWorld}
    (hrun : Run ArenaWorld.step
      (fun s call => s.PalBehaves call ∧ s.LengthFits call ∧ s.FreesLive call) .init calls s) :
    s.Safe := by
  have h : s.Consistent :=
    hrun.invariant (fun _ _ _ hs hguard hstep => hs.step hguard.1 hguard.2.1 hguard.2.2 hstep)
      consistent_init
  exact h.safe

theorem fresh_init {pid base length : Nat} (hpos : 0 < length) (haligned : arenaAlignment ∣ base)
    (hfits : base + roundUpPage length < 2 ^ 64) : init.Fresh pid base length :=
  ⟨hpos, haligned, hfits, fun _ _ => rfl⟩

theorem arena_safe_reuse :
    ∃ s, Run ArenaWorld.step
        (fun s call => s.PalBehaves call ∧ s.LengthFits call ∧ s.FreesLive call) .init
        [.alloc 100 0x4000 0x4000 (some 0x10000000) true none,
          .alloc 100 0x5000 0x4000 none true none,
          .free 100 0x10000000 0x4000 true false,
          .alloc 100 0x10 0x4000 none true none] s ∧
      s.live = [⟨100, 0x10000000, 0x10⟩, ⟨100, 0x10004000, 0x5000⟩] ∧ s.Safe := by
  have hrun : ∃ s, Run ArenaWorld.step
      (fun s call => s.PalBehaves call ∧ s.LengthFits call ∧ s.FreesLive call) .init
      [.alloc 100 0x4000 0x4000 (some 0x10000000) true none,
        .alloc 100 0x5000 0x4000 none true none,
        .free 100 0x10000000 0x4000 true false,
        .alloc 100 0x10 0x4000 none true none] s ∧
      s.live = [⟨100, 0x10000000, 0x10⟩, ⟨100, 0x10004000, 0x5000⟩] := by
    refine ⟨_, .cons ⟨⟨?_, by simp⟩, fun _ _ => by decide, trivial⟩ rfl
      (.cons ⟨⟨by simp, by simp⟩, fun _ _ => by decide, trivial⟩ rfl
      (.cons ⟨by simp [PalBehaves], trivial, .inl (by decide)⟩ rfl
      (.cons ⟨⟨by simp, by simp⟩, fun _ _ => by decide, trivial⟩ rfl (.nil _)))), by decide⟩
    rintro base ⟨⟩
    exact fresh_init (by decide) (by decide) (by decide)
  obtain ⟨s, hrun, hlive⟩ := hrun
  exact ⟨s, hrun, hlive, arena_safe hrun⟩

theorem arena_unsafe :
    (¬ ∀ calls s, Run ArenaWorld.step
        (fun s call => s.PalBehaves call ∧ s.FreesLive call) .init calls s → s.Safe) ∧
      ¬ ∀ calls s, Run ArenaWorld.step
        (fun s call => s.PalBehaves call ∧ s.LengthFits call) .init calls s → s.Safe := by
  constructor
  · intro h
    have hrun : ∃ s, Run ArenaWorld.step
        (fun s call => s.PalBehaves call ∧ s.FreesLive call) .init
        [.alloc 100 (2 ^ 64 - 1) 0x4000 (some 0x10000000) true none] s ∧
        s.live = [⟨100, 0x10000000, 2 ^ 64 - 1⟩] ∧
        s.mapped 100 (0x10000000 + arenaChunk) = false := by
      refine ⟨_, .cons ⟨⟨?_, by simp⟩, trivial⟩ rfl (.nil _), by decide, by decide⟩
      rintro base ⟨⟩
      exact fresh_init (by decide) (by decide) (by decide)
    obtain ⟨s, hrun, hlive, hunmapped⟩ := hrun
    have hsafe := h _ s hrun 100
    rw [liveOf, hlive] at hsafe
    have hmem := hsafe.subset ⟨0x10000000, 2 ^ 64 - 1⟩ mem_cons_self
      (Block.mem_bytes.mpr ⟨Nat.le_add_right _ arenaChunk, by decide⟩)
    exact absurd hmem (by simp [memoryOf, hunmapped])
  · intro h
    have hrun : ∃ s, Run ArenaWorld.step
        (fun s call => s.PalBehaves call ∧ s.LengthFits call) .init
        [.alloc 100 0x4000 0x4000 (some 0x10000000) true none,
          .free 100 0x10000000 0x4000 true false, .free 100 0x10000000 0x4000 true false,
          .alloc 100 0x4000 0x4000 none true none, .alloc 100 0x4000 0x4000 none true none] s ∧
        s.live = [⟨100, 0x10000000, 0x4000⟩, ⟨100, 0x10000000, 0x4000⟩] := by
      refine ⟨_, .cons ⟨⟨?_, by simp⟩, fun _ _ => by decide⟩ rfl
        (.cons ⟨by simp [PalBehaves], trivial⟩ rfl (.cons ⟨by simp [PalBehaves], trivial⟩ rfl
        (.cons ⟨⟨by simp, by simp⟩, fun _ _ => by decide⟩ rfl
        (.cons ⟨⟨by simp, by simp⟩, fun _ _ => by decide⟩ rfl (.nil _))))), by decide⟩
      rintro base ⟨⟩
      exact fresh_init (by decide) (by decide) (by decide)
    obtain ⟨s, hrun, hlive⟩ := hrun
    have hsafe := h _ s hrun 100
    rw [liveOf, hlive] at hsafe
    obtain ⟨-, -, hdisj⟩ := Layout.cons_iff.mp hsafe
    have hself := Set.disjoint_left.mp (hdisj ⟨0x10000000, 0x4000⟩ mem_cons_self)
    have hfirst : 0x10000000 ∈ (⟨0x10000000, 0x4000⟩ : Block).bytes := ⟨le_rfl, by decide⟩
    exact hself hfirst hfirst

end ArenaWorld

end MemDbg.Daemon
