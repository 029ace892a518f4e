import MemDbg.Scan.Walker
import MemDbg.Lib.Runs
import Mathlib.Data.List.Basic

/-!
# Enumerating a page table

`ptw_enumerate` goes through the user half of a page table in four nested loops and
merges the leaves it meets.  The loops are one recursion over the levels here, and the
merging is that of `Lib.Coal` as long as the list of entries is not full.
-/

namespace MemDbg.Scan

open List Lib

-- a table has 512 entries, which the equations of the loops must not unfold
attribute [local irreducible] kreadTable

/-- `memdbg_map_entry_t`. -/
structure MapRegion where
  start : Nat
  stop : Nat
  protection : Nat
  flags : Nat
  name : List UInt8
deriving DecidableEq

def ptwMaxEntries : Nat := 16384

def pteRw (e : Nat) : Bool := e / 2 % 2 == 1

def pteNx (e : Nat) : Bool := e / 2 ^ 63 % 2 == 1

def ptwProtFromPte (pte : Nat) : Nat :=
  let prot := 1
  let prot := if pteRw pte then prot ||| 2 else prot
  if !pteNx pte then prot ||| 4 else prot

def ptauxText : List UInt8 := [0x28, 0x70, 0x74, 0x61, 0x75, 0x78, 0x29]

/-! ## The coalescer -/

def ptauxEntry (r : Tagged Nat) : MapRegion where
  start := r.lo
  stop := r.hi
  protection := r.tag
  flags := 0
  name := ptauxText ++ List.replicate 57 0

structure PtwCoal where
  ents : List MapRegion
  cur : Option (Tagged Nat)
deriving DecidableEq

def ptwCoalFlush (c : PtwCoal) : PtwCoal :=
  match c.cur with
  | none => c
  | some cur =>
    if ptwMaxEntries ≤ c.ents.length then c else { c with ents := c.ents ++ [ptauxEntry cur] }

def ptwCoalEmit (c : PtwCoal) (start stop pte : Nat) : PtwCoal :=
  let prot := ptwProtFromPte pte
  let fresh : PtwCoal := { ptwCoalFlush c with cur := some ⟨start, stop, prot⟩ }
  match c.cur with
  | none => fresh
  | some cur =>
    if start = cur.hi ∧ prot = cur.tag then { c with cur := some { cur with hi := stop } }
    else fresh

/-! ## The loops -/

def forEntries (body : Nat → PtwCoal → PtwCoal) : List Nat → PtwCoal → PtwCoal
  | [], c => c
  | i :: rest, c =>
    if c.ents.length < ptwMaxEntries then forEntries body rest (body i c) else c

def enumerateEntry (k : KernelMemory) : Nat → Nat → Nat → PtwCoal → PtwCoal
  | 0, e, va, c => if !ptePresent e then c else ptwCoalEmit c va (va + 2 ^ levelShift 0) e
  | n + 1, e, va, c =>
    if !ptePresent e then c
    else if (n + 1 = 2 ∨ n + 1 = 1) ∧ ptePs e = true then
      ptwCoalEmit c va (va + 2 ^ levelShift (n + 1)) e
    else if physBound ≤ physMask e then c
    else
      match kreadTable k (wrap64 (k.dmap + physMask e)) with
      | none => c
      | some table =>
        forEntries (fun i => enumerateEntry k n (table.getD i 0) (va ||| i <<< levelShift n))
          (List.range 512) c

def ptwEnumerate (k : KernelMemory) (cr3 : Nat) (heap : Bool) : Option (List MapRegion) :=
  if !heap then none
  else if physBound ≤ physMask cr3 then none
  else
    match kreadTable k (wrap64 (k.dmap + physMask cr3)) with
    | none => none
    | some pml4 =>
      let c := forEntries (fun i => enumerateEntry k 3 (pml4.getD i 0) (i <<< levelShift 3))
        (List.range 256) ⟨[], none⟩
      let c := ptwCoalFlush c
      if c.ents = [] then none else some c.ents

/-! ## Leaves -/

def leavesBelow (k : KernelMemory) : Nat → Nat → Nat → List (Tagged Nat)
  | 0, e, va => if ptePresent e then [⟨va, va + 2 ^ levelShift 0, ptwProtFromPte e⟩] else []
  | n + 1, e, va =>
    if !ptePresent e then []
    else if (n + 1 = 2 ∨ n + 1 = 1) ∧ ptePs e = true then
      [⟨va, va + 2 ^ levelShift (n + 1), ptwProtFromPte e⟩]
    else if physBound ≤ physMask e then []
    else
      match kreadTable k (wrap64 (k.dmap + physMask e)) with
      | none => []
      | some table =>
        (List.range 512).flatMap fun i =>
          leavesBelow k n (table.getD i 0) (va ||| i <<< levelShift n)

def userLeaves (k : KernelMemory) (cr3 : Nat) : List (Tagged Nat) :=
  match kreadTable k (wrap64 (k.dmap + physMask cr3)) with
  | none => []
  | some pml4 =>
    (List.range 256).flatMap fun i => leavesBelow k 3 (pml4.getD i 0) (i <<< levelShift 3)

def TablesBelow (k : KernelMemory) : Nat → Nat → Prop
  | 0, _ => True
  | n + 1, e =>
    ptePresent e = true → ¬((n + 1 = 2 ∨ n + 1 = 1) ∧ ptePs e = true) →
      physMask e < physBound ∧ ∃ table, kreadTable k (wrap64 (k.dmap + physMask e)) = some table ∧
        ∀ i, i < 512 → TablesBelow k n (table.getD i 0)

/-- The tables of the user half of a page table. -/
def UserTables (k : KernelMemory) (cr3 : Nat) : Prop :=
  physMask cr3 < physBound ∧ ∃ pml4, kreadTable k (wrap64 (k.dmap + physMask cr3)) = some pml4 ∧
    ∀ i, i < 256 → TablesBelow k 3 (pml4.getD i 0)

/-! ## The list of entries -/

def ptwCoalOf (d : Coal Nat) : PtwCoal := ⟨d.done.map ptauxEntry, d.cur⟩

section Loops

variable {k : KernelMemory} {n e va : Nat} {d : Coal Nat}

theorem ptwCoalFlush_of (h : d.done.length < ptwMaxEntries) :
    (ptwCoalFlush (ptwCoalOf d)).ents = d.flush.map ptauxEntry := by
  rw [ptwCoalFlush, ptwCoalOf, Coal.flush]
  cases d.cur with
  | none => simp
  | some cur =>
    dsimp only
    rw [length_map, if_neg (not_le.mpr h)]
    simp

theorem ptwCoalEmit_of (h : d.done.length < ptwMaxEntries) (start stop pte : Nat) :
    ptwCoalEmit (ptwCoalOf d) start stop pte =
      ptwCoalOf (d.emit ⟨start, stop, ptwProtFromPte pte⟩) := by
  have hflush := ptwCoalFlush_of h
  rw [ptwCoalEmit, Coal.emit, ptwCoalOf]
  dsimp only
  rw [← ptwCoalOf, hflush, Coal.flush]
  cases d.cur with
  | none => simp [ptwCoalOf]
  | some cur =>
    dsimp only
    split_ifs
    · rfl
    · simp [ptwCoalOf]

theorem forEntries_of (body : Nat → PtwCoal → PtwCoal) (leaves : Nat → List (Tagged Nat))
    (hbody : ∀ (i : Nat) (d : Coal Nat),
      ((leaves i).foldl Coal.emit d).done.length < ptwMaxEntries →
        body i (ptwCoalOf d) = ptwCoalOf ((leaves i).foldl Coal.emit d))
    {l : List Nat} (h : ((l.flatMap leaves).foldl Coal.emit d).done.length < ptwMaxEntries) :
    forEntries body l (ptwCoalOf d) = ptwCoalOf ((l.flatMap leaves).foldl Coal.emit d) := by
  induction l generalizing d with
  | nil => rfl
  | cons i rest ih =>
    rw [flatMap_cons, foldl_append] at h ⊢
    have hmid := (Coal.length_done_foldl _ _).trans_lt h
    have hroom := (Coal.length_done_foldl d (leaves i)).trans_lt hmid
    have hlength : (ptwCoalOf d).ents.length < ptwMaxEntries := by
      rwa [ptwCoalOf, length_map]
    rw [forEntries, if_pos hlength, hbody i d hmid, ih h]

theorem enumerateEntry_of
    (h : ((leavesBelow k n e va).foldl Coal.emit d).done.length < ptwMaxEntries) :
    enumerateEntry k n e va (ptwCoalOf d) = ptwCoalOf
      ((leavesBelow k n e va).foldl Coal.emit d) := by
  induction n generalizing e va d with
  | zero =>
    have hroom := (Coal.length_done_foldl d _).trans_lt h
    rw [enumerateEntry, leavesBelow]
    cases hpresent : ptePresent e with
    | false => rfl
    | true => exact ptwCoalEmit_of hroom _ _ _
  | succ n ih =>
    have hroom := (Coal.length_done_foldl d _).trans_lt h
    rw [leavesBelow] at h
    rw [enumerateEntry, leavesBelow]
    split_ifs at h ⊢ with hpresent hps hbound
    · rfl
    · exact ptwCoalEmit_of hroom _ _ _
    · rfl
    · cases htable : kreadTable k (wrap64 (k.dmap + physMask e)) with
      | none => rfl
      | some table =>
        rw [htable] at h
        exact forEntries_of _ _ (fun i d hd => ih hd) h

end Loops

/-! ## Where the leaves are -/

section Leaves

variable {k : KernelMemory} {n e va : Nat}

theorem or_shift_eq {i : Nat} (hva : 2 ^ levelShift (n + 1) ∣ va) (hi : i < 512) :
    va ||| i <<< levelShift n = va + i * 2 ^ levelShift n := by
  obtain ⟨q, rfl⟩ := hva
  have hlt : i * 2 ^ levelShift n < 2 ^ levelShift (n + 1) := by
    rw [show levelShift (n + 1) = 9 + levelShift n by unfold levelShift; omega, Nat.pow_add]
    exact Nat.mul_lt_mul_of_pos_right hi (Nat.two_pow_pos _)
  rw [Nat.shiftLeft_eq, ← Nat.two_pow_add_eq_or_of_lt hlt]

theorem dvd_entry {i : Nat} (hva : 2 ^ levelShift (n + 1) ∣ va) :
    2 ^ levelShift n ∣ va + i * 2 ^ levelShift n := by
  have hstep : 2 ^ levelShift n ∣ 2 ^ levelShift (n + 1) :=
    Nat.pow_dvd_pow 2 (by unfold levelShift; omega)
  exact Nat.dvd_add (Nat.dvd_trans hstep hva) (Nat.dvd_mul_left _ _)

theorem entries_le (n : Nat) : 512 * 2 ^ levelShift n = 2 ^ levelShift (n + 1) := by
  rw [show levelShift (n + 1) = 9 + levelShift n by unfold levelShift; omega, Nat.pow_add]

theorem isLeaf_succ : IsLeaf (n + 1) e ↔ (n + 1 = 2 ∨ n + 1 = 1) ∧ ptePs e = true := by
  simp [IsLeaf]

theorem leavesBelow_absent (h : ptePresent e = false) : leavesBelow k n e va = [] := by
  cases n <;> simp [leavesBelow, h]

theorem leavesBelow_leaf (hpresent : ptePresent e = true) (hleaf : IsLeaf n e) :
    leavesBelow k n e va = [⟨va, va + 2 ^ levelShift n, ptwProtFromPte e⟩] := by
  cases n with
  | zero => rw [leavesBelow, if_pos hpresent]
  | succ n =>
    rw [leavesBelow, hpresent, if_neg (by decide), if_pos (isLeaf_succ.mp hleaf)]

theorem leavesBelow_table {table : List Nat} (hpresent : ptePresent e = true)
    (hleaf : ¬IsLeaf (n + 1) e) (hbound : physMask e < physBound)
    (htable : kreadTable k (wrap64 (k.dmap + physMask e)) = some table)
    (hva : 2 ^ levelShift (n + 1) ∣ va) :
    leavesBelow k (n + 1) e va = (List.range 512).flatMap fun i =>
      leavesBelow k n (table.getD i 0) (va + i * 2 ^ levelShift n) := by
  rw [leavesBelow, hpresent, if_neg (by decide), if_neg (mt isLeaf_succ.mpr hleaf),
    if_neg (not_le.mpr hbound), htable]
  refine flatMap_congr fun i hi => ?_
  rw [or_shift_eq hva (mem_range.mp hi)]

theorem ascending_entries {f : Nat → List (Tagged Nat)} (base size : Nat) {count : Nat}
    (h : ∀ i, i < count → Ascending (f i) ∧
      ∀ r ∈ f i, base + i * size ≤ r.lo ∧ r.hi ≤ base + i * size + size) :
    Ascending ((List.range count).flatMap f) ∧
      ∀ r ∈ (List.range count).flatMap f, base ≤ r.lo ∧ r.hi ≤ base + count * size := by
  constructor
  · refine ascending_flatMap (fun i => base + i * size) pairwise_lt_range
      (fun i hi => (h i (mem_range.mp hi)).1) (fun i hi r hr => ?_) fun i j hij => ?_
    · have := (h i (mem_range.mp hi)).2 r hr
      rw [Nat.succ_mul]
      omega
    · exact Nat.add_le_add_left (Nat.mul_le_mul_right _ hij) _
  · intro r hr
    obtain ⟨i, hi, hr⟩ := mem_flatMap.mp hr
    have hcount : (i + 1) * size ≤ count * size := Nat.mul_le_mul_right _ (mem_range.mp hi)
    have := (h i (mem_range.mp hi)).2 r hr
    rw [Nat.succ_mul] at hcount
    omega

theorem ascending_leavesBelow (htables : TablesBelow k n e) (hva : 2 ^ levelShift n ∣ va) :
    Ascending (leavesBelow k n e va) ∧
      ∀ r ∈ leavesBelow k n e va, va ≤ r.lo ∧ r.hi ≤ va + 2 ^ levelShift n := by
  induction n generalizing e va with
  | zero =>
    cases hpresent : ptePresent e with
    | false =>
      rw [leavesBelow_absent hpresent]
      exact ⟨ascending_nil, by simp⟩
    | true =>
      rw [leavesBelow_leaf hpresent (.inl rfl)]
      exact ⟨ascending_singleton (Nat.lt_add_of_pos_right (Nat.two_pow_pos _)), by simp⟩
  | succ n ih =>
    cases hpresent : ptePresent e with
    | false =>
      rw [leavesBelow_absent hpresent]
      exact ⟨ascending_nil, by simp⟩
    | true =>
      by_cases hleaf : IsLeaf (n + 1) e
      · rw [leavesBelow_leaf hpresent hleaf]
        exact ⟨ascending_singleton (Nat.lt_add_of_pos_right (Nat.two_pow_pos _)), by simp⟩
      · obtain ⟨hbound, table, htable, hbelow⟩ := htables hpresent (mt isLeaf_succ.mpr hleaf)
        rw [leavesBelow_table hpresent hleaf hbound htable hva, ← entries_le]
        exact ascending_entries _ _ fun i hi => ih (hbelow i hi) (dvd_entry hva)

def LeafFrom (k : KernelMemory) (x n e leaf : Nat) : Prop :=
  ptePresent e = true ∧
    if IsLeaf n e then leaf = e else ∃ m a, pageWalk k x n (physMask e) = .leaf m a leaf

theorem pageWalk_leaf_iff {x table : Nat} (hbound : table < physBound)
    (hread : k.kread (entryAddr k x n table) = some e) {leaf : Nat} :
    (∃ m a, pageWalk k x (n + 1) table = .leaf m a leaf) ↔ LeafFrom k x n e leaf := by
  rw [pageWalk, if_neg (not_le.mpr hbound), hread, LeafFrom]
  dsimp only
  cases hpresent : ptePresent e with
  | false => simp
  | true =>
    by_cases hleaf : IsLeaf n e
    · simp [hleaf, eq_comm]
    · simp [hleaf]

theorem kread_entryAddr {table x : Nat} {entries : List Nat}
    (h : kreadTable k (wrap64 (k.dmap + table)) = some entries) :
    k.kread (entryAddr k x n table) = some (entries.getD (x / 2 ^ levelShift n % 512) 0) := by
  rw [← kreadTable_getD h (Nat.mod_lt _ (by decide)), entryAddr]
  congr 1
  unfold wrap64
  rw [Nat.mod_add_mod]

theorem index_of_mem {x i : Nat} (hva : 2 ^ levelShift (n + 1) ∣ va) (hi : i < 512)
    (hlo : va + i * 2 ^ levelShift n ≤ x) (hhi : x < va + i * 2 ^ levelShift n + 2 ^ levelShift n) :
    x / 2 ^ levelShift n % 512 = i := by
  obtain ⟨q, rfl⟩ := hva
  rw [← entries_le] at hlo hhi
  generalize 2 ^ levelShift n = size at *
  have hquot : x / size = 512 * q + i := by
    refine Nat.div_eq_of_lt_le ?_ ?_
    · rw [Nat.add_mul, Nat.mul_right_comm]
      exact hlo
    · rw [Nat.succ_mul, Nat.add_mul, Nat.mul_right_comm]
      exact hhi
  omega

theorem mem_of_index {x : Nat} (hva : 2 ^ levelShift (n + 1) ∣ va) (hlo : va ≤ x)
    (hhi : x < va + 2 ^ levelShift (n + 1)) :
    va + x / 2 ^ levelShift n % 512 * 2 ^ levelShift n ≤ x ∧
      x < va + x / 2 ^ levelShift n % 512 * 2 ^ levelShift n + 2 ^ levelShift n := by
  obtain ⟨q, rfl⟩ := hva
  rw [← entries_le] at *
  have hpos : 0 < 2 ^ levelShift n := Nat.two_pow_pos _
  generalize 2 ^ levelShift n = size at *
  obtain ⟨y, rfl⟩ := Nat.exists_eq_add_of_le hlo
  have hy : y / size < 512 := by
    rw [Nat.div_lt_iff_lt_mul hpos]
    omega
  have hindex : (512 * size * q + y) / size % 512 = y / size := by
    rw [Nat.mul_right_comm, Nat.add_comm, Nat.add_mul_div_right _ _ hpos,
      Nat.add_mul_mod_self_left, Nat.mod_eq_of_lt hy]
  have hdiv := Nat.div_add_mod y size
  have hmod := Nat.mod_lt y hpos
  rw [hindex, Nat.mul_comm (y / size)]
  omega

theorem covers_leavesBelow (htables : TablesBelow k n e) (hva : 2 ^ levelShift n ∣ va)
    (x prot : Nat) :
    Covers (leavesBelow k n e va) x prot ↔
      (va ≤ x ∧ x < va + 2 ^ levelShift n) ∧ ∃ leaf, LeafFrom k x n e leaf ∧
        ptwProtFromPte leaf = prot := by
  induction n generalizing e va with
  | zero =>
    cases hpresent : ptePresent e with
    | false => simp [leavesBelow_absent hpresent, LeafFrom, hpresent]
    | true =>
      rw [leavesBelow_leaf hpresent (.inl rfl), covers_singleton]
      simp [LeafFrom, hpresent, IsLeaf, and_assoc]
  | succ n ih =>
    cases hpresent : ptePresent e with
    | false => simp [leavesBelow_absent hpresent, LeafFrom, hpresent]
    | true =>
      by_cases hleaf : IsLeaf (n + 1) e
      · rw [leavesBelow_leaf hpresent hleaf, covers_singleton]
        simp [LeafFrom, hpresent, hleaf, and_assoc]
      · obtain ⟨hbound, table, htable, hbelow⟩ := htables hpresent (mt isLeaf_succ.mpr hleaf)
        rw [leavesBelow_table hpresent hleaf hbound htable hva, covers_flatMap]
        have hfrom (leaf : Nat) : LeafFrom k x (n + 1) e leaf ↔
            LeafFrom k x n (table.getD (x / 2 ^ levelShift n % 512) 0) leaf := by
          rw [← pageWalk_leaf_iff hbound (kread_entryAddr htable), LeafFrom, if_neg hleaf, hpresent]
          exact ⟨fun h => h.2, fun h => ⟨rfl, h⟩⟩
        simp only [hfrom]
        constructor
        · rintro ⟨i, hi, hx⟩
          have hi := mem_range.mp hi
          obtain ⟨⟨hlo, hhi⟩, hx⟩ := (ih (hbelow i hi) (dvd_entry hva)).mp hx
          have hcount : (i + 1) * 2 ^ levelShift n ≤ 512 * 2 ^ levelShift n :=
            Nat.mul_le_mul_right _ hi
          rw [entries_le, Nat.succ_mul] at hcount
          rw [index_of_mem hva hi hlo hhi]
          exact ⟨⟨by omega, by omega⟩, hx⟩
        · rintro ⟨⟨hlo, hhi⟩, hx⟩
          have hi := Nat.mod_lt (x / 2 ^ levelShift n) (show 0 < 512 by decide)
          exact ⟨_, mem_range.mpr hi,
            (ih (hbelow _ hi) (dvd_entry hva)).mpr ⟨mem_of_index hva hlo hhi, hx⟩⟩

theorem userLeaves_spec {cr3 : Nat} (h : UserTables k cr3) :
    Ascending (userLeaves k cr3) ∧ ∀ x prot, Covers (userLeaves k cr3) x prot ↔
      x < 2 ^ 47 ∧ ∃ m a leaf, walkOf k cr3 x = .leaf m a leaf ∧ ptwProtFromPte leaf = prot := by
  obtain ⟨hbound, pml4, hpml4, htables⟩ := h
  have hdvd (i : Nat) : 2 ^ levelShift 3 ∣ i * 2 ^ levelShift 3 := Nat.dvd_mul_left _ _
  have huser : userLeaves k cr3 = (List.range 256).flatMap fun i =>
      leavesBelow k 3 (pml4.getD i 0) (i * 2 ^ levelShift 3) := by
    rw [userLeaves, hpml4]
    simp only [Nat.shiftLeft_eq]
  rw [huser]
  constructor
  · refine (ascending_entries 0 (2 ^ levelShift 3) fun i hi => ?_).1
    rw [Nat.zero_add]
    exact ascending_leavesBelow (htables i hi) (hdvd i)
  · intro x prot
    have hwalk (leaf : Nat) : (∃ m a, walkOf k cr3 x = .leaf m a leaf) ↔
        LeafFrom k x 3 (pml4.getD (x / 2 ^ levelShift 3 % 512) 0) leaf :=
      pageWalk_leaf_iff hbound (kread_entryAddr hpml4)
    have hleaf : (∃ m a leaf, walkOf k cr3 x = .leaf m a leaf ∧ ptwProtFromPte leaf = prot) ↔
        ∃ leaf, LeafFrom k x 3 (pml4.getD (x / 2 ^ levelShift 3 % 512) 0) leaf ∧
          ptwProtFromPte leaf = prot := by
      simp only [← hwalk]
      constructor
      · rintro ⟨m, a, leaf, hend, hprot⟩
        exact ⟨leaf, ⟨m, a, hend⟩, hprot⟩
      · rintro ⟨leaf, ⟨m, a, hend⟩, hprot⟩
        exact ⟨m, a, leaf, hend, hprot⟩
    rw [hleaf, covers_flatMap]
    constructor
    · rintro ⟨i, hi, hx⟩
      have hi := mem_range.mp hi
      obtain ⟨⟨hlo, hhi⟩, hx⟩ := (covers_leavesBelow (htables i hi) (hdvd i) x prot).mp hx
      have hindex : x / 2 ^ levelShift 3 % 512 = i := by
        unfold levelShift at hlo hhi ⊢
        omega
      rw [hindex]
      refine ⟨?_, hx⟩
      unfold levelShift at hhi
      omega
    · rintro ⟨huserx, hx⟩
      have hi : x / 2 ^ levelShift 3 % 512 < 256 := by
        unfold levelShift
        omega
      refine ⟨_, mem_range.mpr hi, (covers_leavesBelow (htables _ hi) (hdvd _) x prot).mpr ⟨?_, hx⟩⟩
      unfold levelShift
      omega

end Leaves

/-! ## The enumeration -/

/-- What `ptw_enumerate` has to find: the user addresses at which a walk ends in a leaf,
with the protection of the leaf. -/
def UserMapped (k : KernelMemory) (cr3 x prot : Nat) : Prop :=
  x < 2 ^ 47 ∧ ∃ m a leaf, walkOf k cr3 x = .leaf m a leaf ∧ ptwProtFromPte leaf = prot

/-- Entries that are not empty, in order and disjoint, of which no two with the same
protection touch, and that cover what is mapped with its protection. -/
structure ExactRegions (k : KernelMemory) (cr3 : Nat) (ents : List MapRegion) : Prop where
  nonempty : ∀ r ∈ ents, r.start < r.stop
  ordered : ents.Pairwise fun r s => r.stop ≤ s.start
  maximal : ents.Pairwise fun r s => r.stop = s.start → r.protection ≠ s.protection
  covers : ∀ x prot, (∃ r ∈ ents, r.start ≤ x ∧ x < r.stop ∧ r.protection = prot) ↔
    UserMapped k cr3 x prot

/-- The runs of leaves of one protection fit into the list. -/
def RunsFit (k : KernelMemory) (cr3 : Nat) : Prop :=
  (runsOf (userLeaves k cr3)).length ≤ ptwMaxEntries

theorem ptwEnumerate_eq {k : KernelMemory} {cr3 : Nat} (htables : UserTables k cr3)
    (hfit : RunsFit k cr3) :
    ptwEnumerate k cr3 true =
      if userLeaves k cr3 = [] then none
      else some ((runsOf (userLeaves k cr3)).map ptauxEntry) := by
  obtain ⟨hbound, pml4, hpml4, -⟩ := htables
  have hroom : ((userLeaves k cr3).foldl Coal.emit ⟨[], none⟩).done.length < ptwMaxEntries := by
    by_cases hnil : userLeaves k cr3 = []
    · rw [hnil]
      exact Nat.zero_lt_succ _
    · obtain ⟨cur, hcur⟩ := Option.isSome_iff_exists.mp
        (Coal.cur_foldl_isSome (c := (⟨[], none⟩ : Coal Nat)) hnil)
      rw [RunsFit, runsOf, Coal.flush, hcur, length_append] at hfit
      exact hfit
  have huser : userLeaves k cr3 = (List.range 256).flatMap fun i =>
      leavesBelow k 3 (pml4.getD i 0) (i <<< levelShift 3) := by
    rw [userLeaves, hpml4]
  have hloop := forEntries_of
    (fun i => enumerateEntry k 3 (pml4.getD i 0) (i <<< levelShift 3))
    (fun i => leavesBelow k 3 (pml4.getD i 0) (i <<< levelShift 3))
    (fun i d hd => enumerateEntry_of hd) (l := List.range 256) (d := ⟨[], none⟩) (by rwa [← huser])
  rw [← huser] at hloop
  rw [ptwEnumerate, if_neg (by decide), if_neg (not_le.mpr hbound), hpml4]
  dsimp only
  rw [show (⟨[], none⟩ : PtwCoal) = ptwCoalOf ⟨[], none⟩ from rfl, hloop, ptwCoalFlush_of hroom]
  change (if (runsOf (userLeaves k cr3)).map ptauxEntry = [] then none
    else some ((runsOf (userLeaves k cr3)).map ptauxEntry)) = _
  simp only [map_eq_nil_iff, runsOf_eq_nil_iff]

/-- **Page-table enumeration.** For every page table whose user tables can be read and lie
below the bound, and whose runs fit into the list, `ptw_enumerate` returns exactly the
mapped user addresses in canonical form, and fails if there are none. -/
theorem ptwEnumerate_exact {k : KernelMemory} {cr3 : Nat} (htables : UserTables k cr3)
    (hfit : RunsFit k cr3) :
    match ptwEnumerate k cr3 true with
    | some ents => ExactRegions k cr3 ents
    | none => ∀ x prot, ¬UserMapped k cr3 x prot := by
  obtain ⟨hascending, hcovers⟩ := userLeaves_spec htables
  obtain ⟨⟨⟨hnonempty, hapart⟩, hmaximal⟩, hruns⟩ := runsOf_spec hascending
  rw [ptwEnumerate_eq htables hfit]
  split_ifs with hnil
  · intro x prot hmapped
    rw [UserMapped, ← hcovers, hnil] at hmapped
    exact covers_nil _ _ hmapped
  · refine ⟨?_, pairwise_map.mpr hapart, pairwise_map.mpr hmaximal, fun x prot => ?_⟩
    · intro r hr
      obtain ⟨run, hrun, rfl⟩ := mem_map.mp hr
      exact hnonempty run hrun
    · rw [UserMapped, ← hcovers, ← hruns]
      constructor
      · rintro ⟨r, hr, hx⟩
        obtain ⟨run, hrun, rfl⟩ := mem_map.mp hr
        exact ⟨run, hrun, hx⟩
      · rintro ⟨run, hrun, hx⟩
        exact ⟨ptauxEntry run, mem_map_of_mem hrun, hx⟩

def hugeTable : KernelMemory where
  kread a := some (if a = 0 then 0x1001 else if a = 0x1000 then 0x83 else 0)
  dmap := 0

theorem getD_hugeTable {kaddr i : Nat} {entries : List Nat}
    (h : kreadTable hugeTable kaddr = some entries) (hi : i < 512) (hkaddr : kaddr ≤ 0x1000) :
    entries.getD i 0 =
      if kaddr + i * 8 = 0 then 0x1001 else if kaddr + i * 8 = 0x1000 then 0x83 else 0 := by
  have hentry := kreadTable_getD h hi
  rw [hugeTable, Option.some.injEq] at hentry
  rw [← hentry, show wrap64 (kaddr + i * 8) = kaddr + i * 8 by unfold wrap64; omega]

theorem tablesBelow_absent {k : KernelMemory} {n e : Nat} (h : ptePresent e = false) :
    TablesBelow k n e := by
  cases n with
  | zero => trivial
  | succ n => exact fun hpresent => absurd (h.symm.trans hpresent) Bool.false_ne_true

theorem flatMap_range_first {f : Nat → List (Tagged Nat)} {count : Nat}
    (h : ∀ i, 0 < i → i < count + 1 → f i = []) : (List.range (count + 1)).flatMap f = f 0 := by
  rw [range_succ_eq_map, flatMap_cons, flatMap_map,
    flatMap_eq_nil_iff.mpr fun i hi => h (i + 1) (Nat.zero_lt_succ i)
      (Nat.succ_lt_succ (mem_range.mp hi)), append_nil]

theorem userTables_hugeTable : UserTables hugeTable 0 := by
  obtain ⟨pml4, hpml4⟩ := kreadTable_isSome (k := hugeTable) (fun _ => rfl) 0
  obtain ⟨pdpt, hpdpt⟩ := kreadTable_isSome (k := hugeTable) (fun _ => rfl) 0x1000
  refine ⟨by decide, pml4, hpml4, fun i hi => ?_⟩
  rw [getD_hugeTable hpml4 (by omega) (by decide)]
  split_ifs with hfirst hsecond
  · refine fun _ _ => ⟨by decide, pdpt, hpdpt, fun j hj => ?_⟩
    rw [getD_hugeTable hpdpt hj le_rfl]
    split_ifs with hzero hone
    · omega
    · exact fun _ hnot => absurd ⟨.inl rfl, by decide⟩ hnot
    · exact tablesBelow_absent (by decide)
  · omega
  · exact tablesBelow_absent (by decide)

theorem userLeaves_hugeTable : userLeaves hugeTable 0 = [⟨0, 2 ^ 30, 7⟩] := by
  obtain ⟨pml4, hpml4⟩ := kreadTable_isSome (k := hugeTable) (fun _ => rfl) 0
  obtain ⟨pdpt, hpdpt⟩ := kreadTable_isSome (k := hugeTable) (fun _ => rfl) 0x1000
  rw [userLeaves, show wrap64 (hugeTable.dmap + physMask 0) = 0 from rfl, hpml4]
  dsimp only
  rw [flatMap_range_first, getD_hugeTable hpml4 (by decide) (by decide),
    show 0 <<< levelShift 3 = 0 from rfl,
    @leavesBelow_table _ 2 _ _ _ (by decide) (by decide) (by decide) hpdpt (Nat.dvd_zero _),
    flatMap_range_first, getD_hugeTable hpdpt (by decide) le_rfl]
  · decide
  · intro i hpos hi
    rw [getD_hugeTable hpdpt hi le_rfl, if_neg (by omega), if_neg (by omega)]
    exact leavesBelow_absent (by decide)
  · intro i hpos hi
    rw [getD_hugeTable hpml4 (by omega) (by decide), if_neg (by omega), if_neg (by omega)]
    exact leavesBelow_absent (by decide)

theorem ptwEnumerate_exact_hugeTable :
    ExactRegions hugeTable 0 [ptauxEntry ⟨0, 2 ^ 30, 7⟩] := by
  have hruns : runsOf (userLeaves hugeTable 0) = [⟨0, 2 ^ 30, 7⟩] := by
    rw [userLeaves_hugeTable]
    decide
  have hfit : RunsFit hugeTable 0 := by
    rw [RunsFit, hruns]
    decide
  have hexact := ptwEnumerate_exact userTables_hugeTable hfit
  have hnil : userLeaves hugeTable 0 ≠ [] := by
    rw [userLeaves_hugeTable]
    exact cons_ne_nil _ _
  rwa [ptwEnumerate_eq userTables_hugeTable hfit, if_neg hnil, hruns] at hexact

def emptyTable : KernelMemory := ⟨fun _ => some 0, 0⟩

theorem emptyTable_no_list : ¬∀ (k : KernelMemory) (cr3 : Nat), UserTables k cr3 → RunsFit k cr3 →
    ∃ ents, ptwEnumerate k cr3 true = some ents ∧ ExactRegions k cr3 ents := by
  intro h
  obtain ⟨pml4, hpml4⟩ := kreadTable_isSome (k := emptyTable) (fun _ => rfl) 0
  have hentry (i : Nat) (hi : i < 512) : pml4.getD i 0 = 0 :=
    (Option.some.inj (kreadTable_getD hpml4 hi)).symm
  have htables : UserTables emptyTable 0 := by
    refine ⟨by decide, pml4, hpml4, fun i hi => ?_⟩
    rw [hentry i (by omega)]
    exact fun hpresent => absurd hpresent (by decide)
  have hleaves : userLeaves emptyTable 0 = [] := by
    rw [userLeaves, show wrap64 (emptyTable.dmap + physMask 0) = 0 from rfl, hpml4]
    refine flatMap_eq_nil_iff.mpr fun i hi => ?_
    have hi := mem_range.mp hi
    rw [hentry i (by omega)]
    exact leavesBelow_absent (by decide)
  have hfit : RunsFit emptyTable 0 := by
    rw [RunsFit, hleaves]
    exact Nat.zero_le _
  obtain ⟨ents, hents, -⟩ := h emptyTable 0 htables hfit
  rw [ptwEnumerate_eq htables hfit, if_pos hleaves] at hents
  cases hents

end MemDbg.Scan
