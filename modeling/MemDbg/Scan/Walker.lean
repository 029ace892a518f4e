import Mathlib.Tactic.Common
import MemDbg.Core.Status

/-!
# Page-table walkers

The four-level walk is written out anew in each function that needs it.  `pageWalk` is
the walk that all of them have in common; each function is a reading of where it ends.

Levels are counted from the leaves here: `n` stands for level `3 - n` of the source,
whose entries cover `2 ^ (12 + 9 * n)` bytes.
-/

namespace MemDbg.Scan

open List

structure KernelMemory where
  kread : Nat → Option Nat
  dmap : Nat

def physBound : Nat := 0x1000000000

def physMask (e : Nat) : Nat := e % 2 ^ 52 / 2 ^ 12 * 2 ^ 12

def ptePresent (e : Nat) : Bool := e % 2 == 1

def ptePs (e : Nat) : Bool := e / 2 ^ 7 % 2 == 1

def ptePcd (e : Nat) : Bool := e / 2 ^ 4 % 2 == 1

def levelShift (n : Nat) : Nat := 12 + 9 * n

def entryAddr (k : KernelMemory) (va n table : Nat) : Nat :=
  wrap64 (k.dmap + table + va / 2 ^ levelShift n % 512 * 8)

/-! ## The functions of the source -/

def vaToPhysLoop (k : KernelMemory) (va : Nat) : Nat → Nat → Nat
  | 0, _ => 0
  | n + 1, table =>
    if physBound ≤ table then 0
    else
      match k.kread (entryAddr k va n table) with
      | none => 0
      | some e =>
        if !ptePresent e then 0
        else if n = 0 then physMask e ||| va % 2 ^ 12
        else if (n = 2 ∨ n = 1) ∧ ptePs e = true then
          physMask e / 2 ^ levelShift n * 2 ^ levelShift n ||| va % 2 ^ levelShift n
        else vaToPhysLoop k va n (physMask e)

def ptwVaToPhys (k : KernelMemory) (cr3 va : Nat) : Nat := vaToPhysLoop k va 4 (physMask cr3)

def walkLeafLoop (k : KernelMemory) (va : Nat) : Nat → Nat → Nat × Nat × Int
  | 0, _ => (1, 0, -1)
  | n + 1, table =>
    if physBound ≤ table then (1, 0, 3 - n)
    else
      match k.kread (entryAddr k va n table) with
      | none => (1, 0, 3 - n)
      | some e =>
        if !ptePresent e then (1, e, 3 - n)
        else if n = 0 then (0, e, 3)
        else if (n = 2 ∨ n = 1) ∧ ptePs e = true then (0, e, 3 - n)
        else walkLeafLoop k va n (physMask e)

def ptwWalkLeafInner (k : KernelMemory) (cr3 va : Nat) : Nat × Nat × Int :=
  walkLeafLoop k va 4 (physMask cr3)

structure Probe where
  phys : Nat
  level : Int
  pagesize : Nat
  pte : Nat
deriving DecidableEq

def ptwProbe (k : KernelMemory) (cr3 va : Nat) : Option Probe :=
  let (rc, e, lv) := ptwWalkLeafInner k cr3 va
  if rc ≠ 0 then none
  else if !ptePresent e then none
  else
    let pgsz := if lv = 3 then 0x1000 else if lv = 2 then 0x200000
      else if lv = 1 then 0x40000000 else 0
    if pgsz = 0 then none
    else some ⟨physMask e / pgsz * pgsz + va % pgsz, lv, pgsz, e⟩

inductive SpanTarget where
  | huge (physBase pte : Nat)
  | leafPage (kaddr : Nat)
deriving DecidableEq

def spanResolveLoop (k : KernelMemory) (span : Nat) : Nat → Nat → Option SpanTarget
  | 0, table => if physBound ≤ table then none else some (.leafPage (wrap64 (k.dmap + table)))
  | n + 1, table =>
    if physBound ≤ table then none
    else
      match k.kread (entryAddr k span (n + 1) table) with
      | none => none
      | some e =>
        if !ptePresent e then none
        else if (n + 1 = 2 ∨ n + 1 = 1) ∧ ptePs e = true then
          let base := physMask e / 2 ^ levelShift (n + 1) * 2 ^ levelShift (n + 1)
          some (.huge (base + span % 2 ^ levelShift (n + 1)) e)
        else spanResolveLoop k span n (physMask e)

def ptwSpanResolve (k : KernelMemory) (cr3 span : Nat) : Option SpanTarget :=
  spanResolveLoop k span 3 (physMask cr3)

structure LeafPte where
  kaddr : Nat
  val : Nat
deriving DecidableEq

def leafAddrLoop (k : KernelMemory) (va : Nat) : Nat → Nat → Except Nat LeafPte
  | 0, _ => .error 1
  | n + 1, table =>
    if physBound ≤ table then .error 1
    else
      match k.kread (entryAddr k va n table) with
      | none => .error 1
      | some e =>
        -- the entry of the last level is not asked whether it is present
        if n = 0 then .ok ⟨entryAddr k va n table, e⟩
        else if !ptePresent e then .error 2
        else if (n = 2 ∨ n = 1) ∧ ptePs e = true then .error 3
        else leafAddrLoop k va n (physMask e)

def ptwLeafAddr (k : KernelMemory) (cr3 va : Nat) : Except Nat LeafPte :=
  leafAddrLoop k va 4 (physMask cr3)

/-- The start of the page and of the span of 2 MiB of an address. -/
def pageOf (va : Nat) : Nat := va / 2 ^ 12 * 2 ^ 12

@[inherit_doc pageOf]
def spanOf (va : Nat) : Nat := va / 2 ^ 21 * 2 ^ 21

def kreadTable (k : KernelMemory) (kaddr : Nat) : Option (List Nat) :=
  let entries := (List.range 512).map fun i => k.kread (wrap64 (kaddr + i * 8))
  if entries.all Option.isSome then some (entries.map fun e => e.getD 0) else none

def aliasResolve (k : KernelMemory) (cr3 va : Nat) : Option (Nat × Nat) :=
  match ptwSpanResolve k cr3 (spanOf (pageOf va)) with
  | none => none
  | some (.huge physBase pte) => some (physBase + (pageOf va - spanOf (pageOf va)), pte)
  | some (.leafPage kaddr) =>
    match kreadTable k kaddr with
    | none => none
    | some spanPt =>
      let e := spanPt.getD (pageOf va / 2 ^ 12 % 512) 0
      if !ptePresent e then none else some (physMask e, e)

def aliasPhys (k : KernelMemory) (cr3 va : Nat) : Option Nat :=
  match aliasResolve k cr3 va with
  | none => none
  | some (tphys, pte) => if ptePcd pte then none else some tphys

/-! ## The common walk -/

inductive WalkEnd where
  | fault
  | absent (n kaddr e : Nat)
  | leaf (n kaddr e : Nat)
deriving DecidableEq

def IsLeaf (n e : Nat) : Prop := n = 0 ∨ (n = 2 ∨ n = 1) ∧ ptePs e = true

instance (n e : Nat) : Decidable (IsLeaf n e) := inferInstanceAs (Decidable (_ ∨ _ ∧ _))

def pageWalk (k : KernelMemory) (va : Nat) : Nat → Nat → WalkEnd
  | 0, _ => .fault
  | n + 1, table =>
    if physBound ≤ table then .fault
    else
      match k.kread (entryAddr k va n table) with
      | none => .fault
      | some e =>
        if !ptePresent e then .absent n (entryAddr k va n table) e
        else if IsLeaf n e then .leaf n (entryAddr k va n table) e
        else pageWalk k va n (physMask e)

def walkOf (k : KernelMemory) (cr3 va : Nat) : WalkEnd := pageWalk k va 4 (physMask cr3)

def physOf (n e va : Nat) : Nat :=
  physMask e / 2 ^ levelShift n * 2 ^ levelShift n + va % 2 ^ levelShift n

section

variable {k : KernelMemory} {va n table : Nat}

theorem physMask_div_mul (e : Nat) :
    physMask e / 2 ^ levelShift 0 * 2 ^ levelShift 0 = physMask e :=
  Nat.div_mul_cancel ⟨e % 2 ^ 52 / 2 ^ 12, Nat.mul_comm _ _⟩

theorem or_eq_physOf (n e va : Nat) :
    physMask e / 2 ^ levelShift n * 2 ^ levelShift n ||| va % 2 ^ levelShift n =
      physOf n e va := by
  rw [physOf, Nat.mul_comm, Nat.two_pow_add_eq_or_of_lt (Nat.mod_lt _ (Nat.two_pow_pos _))]

theorem vaToPhysLoop_eq (n table : Nat) :
    vaToPhysLoop k va n table =
      match pageWalk k va n table with
      | .leaf m _ e => physOf m e va
      | _ => 0 := by
  induction n generalizing table with
  | zero => rfl
  | succ n ih =>
    unfold vaToPhysLoop pageWalk
    by_cases hbound : physBound ≤ table
    · simp [hbound]
    · cases hread : k.kread (entryAddr k va n table) with
      | none => simp [hbound]
      | some e =>
        cases hpresent : ptePresent e with
        | false => simp [hbound, hpresent]
        | true =>
          by_cases hzero : n = 0
          · subst hzero
            have hphys : physMask e ||| va % 2 ^ 12 = physOf 0 e va := by
              rw [← or_eq_physOf, physMask_div_mul]
              rfl
            simpa [hbound, hpresent, IsLeaf] using hphys
          · by_cases hps : (n = 2 ∨ n = 1) ∧ ptePs e = true
            · simp [hbound, hpresent, IsLeaf, hzero, hps, or_eq_physOf]
            · simp [hbound, hpresent, IsLeaf, hzero, hps, ih]

theorem walkLeafLoop_eq (n table : Nat) :
    (∀ m a e, pageWalk k va n table = .leaf m a e →
        walkLeafLoop k va n table = (0, e, (3 : Int) - m)) ∧
      ((∀ m a e, pageWalk k va n table ≠ .leaf m a e) →
        (walkLeafLoop k va n table).1 = 1) := by
  induction n generalizing table with
  | zero => exact ⟨fun _ _ _ h => (by cases h), fun _ => rfl⟩
  | succ n ih =>
    unfold walkLeafLoop pageWalk
    by_cases hbound : physBound ≤ table
    · simp [hbound]
    · cases hread : k.kread (entryAddr k va n table) with
      | none => simp [hbound]
      | some e =>
        cases hpresent : ptePresent e with
        | false => simp [hbound, hpresent]
        | true =>
          by_cases hzero : n = 0
          · subst hzero
            simp +contextual [hbound, hpresent, IsLeaf]
          · by_cases hps : (n = 2 ∨ n = 1) ∧ ptePs e = true
            · simp +contextual [hbound, hpresent, IsLeaf, hzero, hps]
            · simpa [hbound, hpresent, IsLeaf, hzero, hps] using ih (physMask e)

theorem leafAddrLoop_eq (n table : Nat) :
    leafAddrLoop k va n table =
      match pageWalk k va n table with
      | .fault => .error 1
      | .absent 0 a e | .leaf 0 a e => .ok ⟨a, e⟩
      | .absent _ _ _ => .error 2
      | .leaf _ _ _ => .error 3 := by
  induction n generalizing table with
  | zero => rfl
  | succ n ih =>
    unfold leafAddrLoop pageWalk
    by_cases hbound : physBound ≤ table
    · simp [hbound]
    · cases hread : k.kread (entryAddr k va n table) with
      | none => simp [hbound]
      | some e =>
        by_cases hzero : n = 0
        · subst hzero
          cases hpresent : ptePresent e <;> simp [hbound, hpresent, IsLeaf]
        · cases hpresent : ptePresent e with
          | false => simp [hbound, hpresent, hzero]
          | true =>
            by_cases hps : (n = 2 ∨ n = 1) ∧ ptePs e = true
            · simp [hbound, hpresent, IsLeaf, hzero, hps]
            · simp [hbound, hpresent, IsLeaf, hzero, hps, ih]

def WalkEnd.Sound (k : KernelMemory) : WalkEnd → Prop
  | .fault => True
  | .absent _ a e => k.kread a = some e ∧ ptePresent e = false
  | .leaf n a e => k.kread a = some e ∧ ptePresent e = true ∧ IsLeaf n e

theorem pageWalk_sound (n table : Nat) : (pageWalk k va n table).Sound k := by
  induction n generalizing table with
  | zero => exact trivial
  | succ n ih =>
    unfold pageWalk
    by_cases hbound : physBound ≤ table
    · simp [hbound, WalkEnd.Sound]
    · cases hread : k.kread (entryAddr k va n table) with
      | none => simp [hbound, WalkEnd.Sound]
      | some e =>
        cases hpresent : ptePresent e with
        | false => simp [hbound, hpresent, hread, WalkEnd.Sound]
        | true =>
          by_cases hleaf : IsLeaf n e
          · simp [hbound, hpresent, hread, hleaf, WalkEnd.Sound]
          · simpa [hbound, hpresent, hleaf] using ih (physMask e)

/-! ## Spans -/

theorem entryAddr_spanOf (n table : Nat) :
    entryAddr k (spanOf va) (n + 1) table = entryAddr k va (n + 1) table := by
  have hshift : levelShift (n + 1) = 21 + 9 * n := by
    unfold levelShift
    omega
  unfold entryAddr spanOf
  rw [hshift, Nat.pow_add, ← Nat.div_div_eq_div_mul, ← Nat.div_div_eq_div_mul,
    Nat.mul_div_cancel _ (by decide)]

def SpanAgrees (k : KernelMemory) (va : Nat) (target : Option SpanTarget) : WalkEnd → Prop
  | .fault => target = none ∨
      ∃ kaddr, target = some (.leafPage kaddr) ∧
        k.kread (wrap64 (kaddr + va / 2 ^ 12 % 512 * 8)) = none
  | .absent 0 a _ | .leaf 0 a _ => ∃ kaddr, target = some (.leafPage kaddr) ∧
      a = wrap64 (kaddr + va / 2 ^ 12 % 512 * 8)
  | .absent _ _ _ => target = none
  | .leaf n _ e => target = some (.huge (physOf n e (spanOf va)) e)

theorem spanResolveLoop_agrees (n table : Nat) :
    SpanAgrees k va (spanResolveLoop k (spanOf va) n table) (pageWalk k va (n + 1) table) := by
  induction n generalizing table with
  | zero =>
    have hentry : entryAddr k va 0 table =
        wrap64 (wrap64 (k.dmap + table) + va / 2 ^ 12 % 512 * 8) := by
      simp [entryAddr, wrap64, levelShift]
    unfold pageWalk spanResolveLoop
    by_cases hbound : physBound ≤ table
    · simp [hbound, SpanAgrees]
    · cases hread : k.kread (entryAddr k va 0 table) with
      | none =>
        rw [hentry] at hread
        simpa [hbound, SpanAgrees] using hread
      | some e =>
        cases hpresent : ptePresent e <;>
          simp [hbound, hpresent, IsLeaf, SpanAgrees, hentry]
  | succ n ih =>
    unfold spanResolveLoop
    rw [pageWalk, entryAddr_spanOf]
    by_cases hbound : physBound ≤ table
    · simp [hbound, SpanAgrees]
    · cases hread : k.kread (entryAddr k va (n + 1) table) with
      | none => simp [hbound, SpanAgrees]
      | some e =>
        cases hpresent : ptePresent e with
        | false => simp [hbound, hpresent, SpanAgrees]
        | true =>
          by_cases hps : (n + 1 = 2 ∨ n + 1 = 1) ∧ ptePs e = true
          · have hleaf : IsLeaf (n + 1) e := .inr hps
            simp only [hbound, hpresent, if_pos hps, if_pos hleaf, if_false,
              Bool.not_true, Bool.false_eq_true]
            rfl
          · have hleaf : ¬ IsLeaf (n + 1) e := by
              rintro (hzero | hhuge)
              · cases hzero
              · exact hps hhuge
            simp only [hbound, hpresent, if_neg hps, if_neg hleaf, if_false,
              Bool.not_true, Bool.false_eq_true]
            exact ih (physMask e)

theorem spanOf_pageOf (va : Nat) : spanOf (pageOf va) = spanOf va := by
  unfold spanOf pageOf
  omega

theorem physOf_spanOf {m e : Nat} (hm : m = 2 ∨ m = 1) (va : Nat) :
    physOf m e (spanOf va) + (pageOf va - spanOf va) = pageOf (physOf m e va) := by
  rcases hm with rfl | rfl <;> unfold physOf spanOf pageOf levelShift <;> omega

theorem pageOf_physOf_zero (e va : Nat) : pageOf (physOf 0 e va) = physMask e := by
  rw [physOf, physMask_div_mul]
  unfold physMask pageOf levelShift
  omega

theorem physMask_pageOf_physOf {m e : Nat} (hm : m ≤ 2) (va : Nat) :
    physMask (pageOf (physOf m e va)) = pageOf (physOf m e va) := by
  have hcases : m = 0 ∨ m = 1 ∨ m = 2 := by omega
  rcases hcases with rfl | rfl | rfl <;> unfold physOf pageOf physMask levelShift <;> omega

theorem kreadTable_getD {kaddr i : Nat} {entries : List Nat}
    (h : kreadTable k kaddr = some entries) (hi : i < 512) :
    k.kread (wrap64 (kaddr + i * 8)) = some (entries.getD i 0) := by
  simp only [kreadTable, Option.ite_none_right_eq_some] at h
  obtain ⟨hall, hentries⟩ := h
  have hsome : (k.kread (wrap64 (kaddr + i * 8))).isSome = true :=
    all_eq_true.mp hall _ (mem_map.mpr ⟨i, mem_range.mpr hi, rfl⟩)
  obtain ⟨e, he⟩ := Option.isSome_iff_exists.mp hsome
  rw [← Option.some.inj hentries]
  simp [getD_eq_getElem?_getD, hi, he]

theorem kreadTable_isSome (hall : ∀ a, (k.kread a).isSome = true) (kaddr : Nat) :
    ∃ entries, kreadTable k kaddr = some entries := by
  unfold kreadTable
  simp [all_map, hall]

end

/-! ## What the functions make of a walk -/

section

variable {k : KernelMemory} {cr3 va : Nat}

theorem IsLeaf.le_two {n e : Nat} (h : IsLeaf n e) : n ≤ 2 := by
  rcases h with rfl | ⟨rfl | rfl, -⟩ <;> decide

theorem walkOf_sound (k : KernelMemory) (cr3 va : Nat) : (walkOf k cr3 va).Sound k :=
  pageWalk_sound 4 (physMask cr3)

theorem ptwProbe_of_leaf {m a e : Nat} (hwalk : walkOf k cr3 va = .leaf m a e) :
    ptwProbe k cr3 va = some ⟨physOf m e va, 3 - m, 2 ^ levelShift m, e⟩ := by
  have hinner : ptwWalkLeafInner k cr3 va = (0, e, (3 : Int) - m) :=
    (walkLeafLoop_eq 4 _).1 m a e hwalk
  have hsound := walkOf_sound k cr3 va
  rw [hwalk] at hsound
  obtain ⟨-, hpresent, hleaf⟩ := hsound
  have hcases : m = 0 ∨ m = 1 ∨ m = 2 := by
    have := hleaf.le_two
    omega
  unfold ptwProbe
  rw [hinner]
  rcases hcases with rfl | rfl | rfl <;> simp [hpresent, physOf, levelShift]

theorem ptwProbe_of_not_leaf (hwalk : ∀ m a e, walkOf k cr3 va ≠ .leaf m a e) :
    ptwProbe k cr3 va = none := by
  have hinner : (ptwWalkLeafInner k cr3 va).1 = 1 := (walkLeafLoop_eq 4 _).2 hwalk
  unfold ptwProbe
  simp [hinner]

theorem ptwVaToPhys_eq : ptwVaToPhys k cr3 va =
    match walkOf k cr3 va with
    | .leaf m _ e => physOf m e va
    | _ => 0 := vaToPhysLoop_eq 4 (physMask cr3)

theorem ptwLeafAddr_eq : ptwLeafAddr k cr3 va =
    match walkOf k cr3 va with
    | .fault => .error 1
    | .absent 0 a e | .leaf 0 a e => .ok ⟨a, e⟩
    | .absent _ _ _ => .error 2
    | .leaf _ _ _ => .error 3 := leafAddrLoop_eq 4 (physMask cr3)

theorem ptwSpanResolve_agrees (k : KernelMemory) (cr3 va : Nat) :
    SpanAgrees k va (ptwSpanResolve k cr3 (spanOf va)) (walkOf k cr3 va) :=
  spanResolveLoop_agrees 3 (physMask cr3)

theorem aliasResolve_none (hspan : ptwSpanResolve k cr3 (spanOf va) = none) :
    aliasResolve k cr3 va = none := by
  unfold aliasResolve
  rw [spanOf_pageOf, hspan]

theorem aliasResolve_huge {physBase pte : Nat}
    (hspan : ptwSpanResolve k cr3 (spanOf va) = some (.huge physBase pte)) :
    aliasResolve k cr3 va = some (physBase + (pageOf va - spanOf va), pte) := by
  unfold aliasResolve
  rw [spanOf_pageOf, hspan]

theorem aliasResolve_leafPage {kaddr : Nat}
    (hspan : ptwSpanResolve k cr3 (spanOf va) = some (.leafPage kaddr)) :
    (kreadTable k kaddr = none ∧ aliasResolve k cr3 va = none) ∨
      ∃ e, k.kread (wrap64 (kaddr + va / 2 ^ 12 % 512 * 8)) = some e ∧
        aliasResolve k cr3 va = if !ptePresent e then none else some (physMask e, e) := by
  have hindex : pageOf va / 2 ^ 12 % 512 = va / 2 ^ 12 % 512 := by
    unfold pageOf
    omega
  unfold aliasResolve
  rw [spanOf_pageOf, hspan]
  simp only [hindex]
  cases htable : kreadTable k kaddr with
  | none => exact .inl ⟨rfl, rfl⟩
  | some spanPt =>
    exact .inr ⟨_, kreadTable_getD htable (Nat.mod_lt _ (by decide)), rfl⟩

theorem aliasResolve_of_not_leaf (hwalk : ∀ m a e, walkOf k cr3 va ≠ .leaf m a e) :
    aliasResolve k cr3 va = none := by
  have hagrees := ptwSpanResolve_agrees k cr3 va
  have hsound := walkOf_sound k cr3 va
  cases hend : walkOf k cr3 va with
  | fault =>
    rw [hend] at hagrees
    rcases hagrees with hspan | ⟨kaddr, hspan, hread⟩
    · exact aliasResolve_none hspan
    · rcases aliasResolve_leafPage hspan with ⟨-, hnone⟩ | ⟨e, he, -⟩
      · exact hnone
      · rw [hread] at he
        cases he
  | absent m a e =>
    rw [hend] at hagrees hsound
    cases m with
    | zero =>
      obtain ⟨kaddr, hspan, rfl⟩ := hagrees
      rcases aliasResolve_leafPage hspan with ⟨-, hnone⟩ | ⟨e', he, hval⟩
      · exact hnone
      · rw [hsound.1] at he
        cases he
        rw [hval, hsound.2]
        rfl
    | succ m => exact aliasResolve_none hagrees
  | leaf m a e => exact absurd hend (hwalk m a e)

theorem aliasResolve_of_leaf {m a e : Nat} (hwalk : walkOf k cr3 va = .leaf m a e) :
    (∀ r, aliasResolve k cr3 va = some r → r = (pageOf (physOf m e va), e)) ∧
      ((∀ x, (k.kread x).isSome = true) →
        aliasResolve k cr3 va = some (pageOf (physOf m e va), e)) := by
  have hagrees := ptwSpanResolve_agrees k cr3 va
  have hsound := walkOf_sound k cr3 va
  rw [hwalk] at hagrees hsound
  obtain ⟨hread, hpresent, hleaf⟩ := hsound
  have hsuffices : aliasResolve k cr3 va = some (pageOf (physOf m e va), e) →
      ∀ r, aliasResolve k cr3 va = some r → r = (pageOf (physOf m e va), e) := by
    intro hsome r hr
    rw [hsome] at hr
    exact (Option.some.inj hr).symm
  cases m with
  | zero =>
    obtain ⟨kaddr, hspan, rfl⟩ := hagrees
    rcases aliasResolve_leafPage hspan with ⟨htable, hnone⟩ | ⟨e', he, hval⟩
    · refine ⟨fun r hr => ?_, fun hall => ?_⟩
      · rw [hnone] at hr
        cases hr
      · obtain ⟨entries, hentries⟩ := kreadTable_isSome hall kaddr
        rw [htable] at hentries
        cases hentries
    · rw [hread] at he
      cases he
      have hsome : aliasResolve k cr3 va = some (pageOf (physOf 0 e va), e) := by
        rw [hval, hpresent, pageOf_physOf_zero]
        rfl
      exact ⟨hsuffices hsome, fun _ => hsome⟩
  | succ m =>
    have hm : m + 1 = 2 ∨ m + 1 = 1 := (hleaf.resolve_left (Nat.succ_ne_zero m)).1
    have hsome : aliasResolve k cr3 va = some (pageOf (physOf (m + 1) e va), e) := by
      rw [aliasResolve_huge hagrees, physOf_spanOf hm]
    exact ⟨hsuffices hsome, fun _ => hsome⟩

/-- **The walkers agree.**  A probed address is translated alike by all of them; behind
an absent entry none finds a page, and the search for the leaf entry answers with its
location only if that entry itself is the absent one. -/
theorem walkers_agree (k : KernelMemory) (cr3 va : Nat) :
    (∀ r, ptwProbe k cr3 va = some r →
      ptwVaToPhys k cr3 va = r.phys ∧
        ((∃ pte, ptwLeafAddr k cr3 va = .ok pte) ↔ r.level = 3) ∧
        (∀ pte, ptwLeafAddr k cr3 va = .ok pte →
          pte.val = r.pte ∧ k.kread pte.kaddr = some r.pte) ∧
        (∀ page pte, aliasResolve k cr3 va = some (page, pte) →
          page = pageOf r.phys ∧ pte = r.pte) ∧
        ((∀ x, (k.kread x).isSome = true) →
          aliasResolve k cr3 va = some (pageOf r.phys, r.pte) ∧
          aliasPhys k cr3 va = if ptePcd r.pte then none else some (pageOf r.phys))) ∧
      ∀ m a e, walkOf k cr3 va = .absent m a e →
        ptwProbe k cr3 va = none ∧ ptwVaToPhys k cr3 va = 0 ∧ aliasResolve k cr3 va = none ∧
          aliasPhys k cr3 va = none ∧ ∀ pte, ptwLeafAddr k cr3 va = .ok pte →
            m = 0 ∧ pte = ⟨a, e⟩ ∧ ptePresent e = false := by
  have hsound := walkOf_sound k cr3 va
  constructor
  · intro r hprobe
    cases hend : walkOf k cr3 va with
    | leaf m a e =>
      rw [hend] at hsound
      rw [ptwProbe_of_leaf hend] at hprobe
      cases hprobe
      obtain ⟨honly, hall⟩ := aliasResolve_of_leaf hend
      refine ⟨by rw [ptwVaToPhys_eq, hend], ?_, ?_, ?_, fun hread => ⟨hall hread, ?_⟩⟩
      · rw [ptwLeafAddr_eq, hend]
        cases m with
        | zero => simp
        | succ m => simp; omega
      · intro pte hpte
        rw [ptwLeafAddr_eq, hend] at hpte
        cases m with
        | zero =>
          cases hpte
          exact ⟨rfl, hsound.1⟩
        | succ m => cases hpte
      · intro page pte hresolve
        exact Prod.mk.inj (honly _ hresolve)
      · rw [aliasPhys, hall hread]
    | fault =>
      rw [ptwProbe_of_not_leaf (by simp [hend])] at hprobe
      cases hprobe
    | absent m a e =>
      rw [ptwProbe_of_not_leaf (by simp [hend])] at hprobe
      cases hprobe
  · intro m a e hend
    rw [hend] at hsound
    have hnot : ∀ m a e, walkOf k cr3 va ≠ .leaf m a e := by simp [hend]
    have hnone := aliasResolve_of_not_leaf hnot
    refine ⟨ptwProbe_of_not_leaf hnot, by rw [ptwVaToPhys_eq, hend], hnone,
      by rw [aliasPhys, hnone], fun pte hpte => ?_⟩
    rw [ptwLeafAddr_eq, hend] at hpte
    cases m with
    | zero =>
      cases hpte
      exact ⟨rfl, rfl, hsound.2⟩
    | succ m => cases hpte

def mappedLeaf : KernelMemory where
  kread := fun a => some ((a / 0x1000 + 1) * 0x1000 + 1)
  dmap := 0

theorem walkers_agree_small_page :
    ∃ r, ptwProbe mappedLeaf 0x1000 0x123 = some r ∧ r.phys = 0x5123 ∧
      ptwVaToPhys mappedLeaf 0x1000 0x123 = r.phys := by
  have hprobe : ptwProbe mappedLeaf 0x1000 0x123 = some ⟨0x5123, 3, 0x1000, 0x5001⟩ := by
    decide
  exact ⟨_, hprobe, rfl, ((walkers_agree mappedLeaf 0x1000 0x123).1 _ hprobe).1⟩

def unmappedLeaf : KernelMemory where
  kread := fun a => some (if a < 0x4000 then (a / 0x1000 + 1) * 0x1000 + 1 else 0)
  dmap := 0

theorem walkers_disagree_absent_leaf :
    ¬ ∀ (k : KernelMemory) (cr3 va m a e : Nat), walkOf k cr3 va = .absent m a e →
      ∀ pte, ptwLeafAddr k cr3 va ≠ .ok pte := by
  intro h
  exact h unmappedLeaf 0x1000 0 0 0x4000 0 (by decide +kernel) ⟨0x4000, 0⟩ (by decide +kernel)

end

end MemDbg.Scan
