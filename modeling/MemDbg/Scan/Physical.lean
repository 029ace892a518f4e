import MemDbg.Scan.Walker
import MemDbg.Lib.LittleEndian
import MemDbg.Lib.Updates

/-!
# Physical access

`ptw_read` and `ptw_write` go through the pages of a range of addresses and copy through
the direct map.  Pages that lie one after another in physical memory are copied at once,
when the first page is met that does not.
-/

namespace MemDbg.Scan

open List Lib

/-! ## The functions of the source -/

structure DirectMap where
  mem : Nat → UInt8
  dmap : Nat
  readable : Nat → Bool
  copied : Nat → Nat → Nat

def DirectMap.kernel (d : DirectMap) (mem : Nat → UInt8) : KernelMemory where
  kread a :=
    if d.readable a then some (leNat ((List.range 8).map fun b => mem (wrap64 (a + b)))) else none
  dmap := d.dmap

def DirectMap.at (d : DirectMap) (phys : Nat) : Nat := wrap64 (d.dmap + phys)

def ptwPage (k : KernelMemory) (cr3 va : Nat) : Option (Nat × Nat) :=
  let (rc, e, lv) := ptwWalkLeafInner k cr3 va
  if rc ≠ 0 then none
  else
    let pgsz := if lv = 3 then 0x1000 else if lv = 2 then 0x200000
      else if lv = 1 then 0x40000000 else 0
    if pgsz = 0 then none else some (physMask e / pgsz * pgsz + va % pgsz, pgsz)

structure PtwBatch where
  phys : Nat
  len : Nat
  vaEnd : Nat

def ptwFlush (d : DirectMap) (key : Nat → Nat → Nat) (val : Nat → Nat → UInt8) (s : Nat → UInt8)
    (off phys n : Nat) : Bool × (Nat → UInt8) :=
  (decide (n ≤ d.copied phys n),
    updates s (fun j => key (off + j) (phys + j)) (fun j => val (off + j) (phys + j))
      (min n (d.copied phys n)))

def ptwAccessLoop (d : DirectMap) (page : (Nat → UInt8) → Nat → Option (Nat × Nat))
    (key : Nat → Nat → Nat) (val : Nat → Nat → UInt8) (va len : Nat) :
    Nat → Nat → PtwBatch → (Nat → UInt8) → Bool × (Nat → UInt8)
  | 0, _, _, s => (false, s)
  | fuel + 1, done, b, s =>
    if done < len then
      let curVa := wrap64 (va + done)
      match page s curVa with
      | none => (false, s)
      | some (phys, pgsz) =>
        let n := min (len - done) (pgsz - curVa % pgsz)
        if physBound ≤ phys ∨ physBound < phys + n then (false, s)
        else if 0 < b.len ∧ phys = b.phys + b.len ∧ curVa = b.vaEnd then
          ptwAccessLoop d page key val va len fuel (done + n)
            ⟨b.phys, b.len + n, wrap64 (curVa + n)⟩ s
        else if 0 < b.len then
          match ptwFlush d key val s (done - b.len) b.phys b.len with
          | (false, s') => (false, s')
          | (true, s') =>
            ptwAccessLoop d page key val va len fuel (done + n) ⟨phys, n, wrap64 (curVa + n)⟩ s'
        else
          ptwAccessLoop d page key val va len fuel (done + n) ⟨phys, n, wrap64 (curVa + n)⟩ s
    else if 0 < b.len then ptwFlush d key val s (done - b.len) b.phys b.len
    else (true, s)

def ptwRead (d : DirectMap) (cr3 : Option Nat) (pid va len : Nat) (dst : Nat → UInt8) :
    Bool × (Nat → UInt8) :=
  if pid = 0 ∨ 2 ^ 31 ≤ pid ∨ len = 0 then (false, dst)
  else
    match cr3 with
    | none => (false, dst)
    | some cr3 =>
      ptwAccessLoop d (fun _ => ptwPage (d.kernel d.mem) cr3) (fun i _ => i)
        (fun _ p => d.mem (d.at p)) va len (len + 1) 0 ⟨0, 0, 0⟩ dst

def ptwWrite (d : DirectMap) (cr3 : Option Nat) (pid va len : Nat) (src : Nat → UInt8) :
    Bool × (Nat → UInt8) :=
  if pid = 0 ∨ 2 ^ 31 ≤ pid ∨ len = 0 then (false, d.mem)
  else
    match cr3 with
    | none => (false, d.mem)
    | some cr3 =>
      ptwAccessLoop d (fun mem => ptwPage (d.kernel mem) cr3) (fun _ p => d.at p)
        (fun i _ => src i) va len (len + 1) 0 ⟨0, 0, 0⟩ d.mem

/-! ## Bytes -/

def translate (k : KernelMemory) (cr3 x : Nat) : Option Nat :=
  match walkOf k cr3 x with
  | .leaf m _ e => if physOf m e x < physBound then some (physOf m e x) else none
  | _ => none

section Pages

variable {k : KernelMemory} {cr3 va x : Nat}

theorem pageWalk_leaf_lt {n table m a e : Nat} (h : pageWalk k va n table = .leaf m a e) :
    m < n := by
  induction n generalizing table with
  | zero => cases h
  | succ n ih =>
    rw [pageWalk] at h
    split_ifs at h
    cases hread : k.kread (entryAddr k va n table) with
    | none => simp [hread] at h
    | some e' =>
      simp only [hread] at h
      split_ifs at h
      · cases h
        exact Nat.lt_succ_self _
      · exact (ih h).trans (Nat.lt_succ_self n)

theorem pageWalk_same_page {n table m a e : Nat} (h : pageWalk k va n table = .leaf m a e)
    (hpage : x / 2 ^ levelShift m = va / 2 ^ levelShift m) :
    pageWalk k x n table = .leaf m a e := by
  induction n generalizing table with
  | zero => cases h
  | succ n ih =>
    have hlevel : m ≤ n := Nat.lt_succ_iff.mp (pageWalk_leaf_lt h)
    have hentry : entryAddr k x n table = entryAddr k va n table := by
      have hshift : levelShift n = levelShift m + 9 * (n - m) := by
        unfold levelShift
        omega
      rw [entryAddr, entryAddr, hshift, Nat.pow_add, ← Nat.div_div_eq_div_mul, hpage,
        Nat.div_div_eq_div_mul]
    rw [pageWalk] at h ⊢
    rw [hentry]
    split_ifs at h ⊢
    cases hread : k.kread (entryAddr k va n table) with
    | none => simp [hread] at h
    | some e' =>
      simp only [hread] at h ⊢
      split_ifs at h ⊢
      · exact h
      · exact ih h

theorem ptwPage_eq (k : KernelMemory) (cr3 va : Nat) : ptwPage k cr3 va =
    match walkOf k cr3 va with
    | .leaf m _ e => some (physOf m e va, 2 ^ levelShift m)
    | _ => none := by
  have hnot (hend : ∀ m a e, walkOf k cr3 va ≠ .leaf m a e) : ptwPage k cr3 va = none := by
    have hinner : (ptwWalkLeafInner k cr3 va).1 = 1 := (walkLeafLoop_eq 4 _).2 hend
    simp [ptwPage, hinner]
  cases hend : walkOf k cr3 va with
  | leaf m a e =>
    have hinner : ptwWalkLeafInner k cr3 va = (0, e, (3 : Int) - m) :=
      (walkLeafLoop_eq 4 _).1 m a e hend
    have hsound := walkOf_sound k cr3 va
    rw [hend] at hsound
    have hcases : m = 0 ∨ m = 1 ∨ m = 2 := by
      have := hsound.2.2.le_two
      omega
    rw [ptwPage, hinner]
    rcases hcases with rfl | rfl | rfl <;> simp [physOf, levelShift]
  | fault => exact hnot (by simp [hend])
  | absent m a e => exact hnot (by simp [hend])

theorem mul_add_le_of_lt {q r size count : Nat} (h : q * size + r < size * count) :
    q * size + size ≤ size * count := by
  rw [Nat.mul_comm size] at h ⊢
  rw [← Nat.succ_mul]
  exact Nat.mul_le_mul_right size
    (Nat.lt_of_mul_lt_mul_right ((Nat.le_add_right _ r).trans_lt h))

theorem translate_page {phys pgsz j : Nat} (h : ptwPage k cr3 va = some (phys, pgsz))
    (hva : va < 2 ^ 64) (hj : j < pgsz - va % pgsz) :
    (phys < physBound → phys + (pgsz - va % pgsz) ≤ physBound) ∧
      translate k cr3 (wrap64 (va + j)) = if phys < physBound then some (phys + j) else none := by
  rw [ptwPage_eq] at h
  cases hend : walkOf k cr3 va with
  | fault => simp [hend] at h
  | absent m a e => simp [hend] at h
  | leaf m a e =>
    have hsound := walkOf_sound k cr3 va
    rw [hend] at hsound
    have hlevel : m ≤ 2 := hsound.2.2.le_two
    simp only [hend, Option.some.injEq, Prod.mk.injEq] at h
    obtain ⟨rfl, rfl⟩ := h
    -- the sizes of pages divide the address space and the bound
    obtain ⟨spaces, hspace⟩ : 2 ^ levelShift m ∣ 2 ^ 64 :=
      Nat.pow_dvd_pow 2 (by unfold levelShift; omega)
    obtain ⟨pages, hbound⟩ : 2 ^ levelShift m ∣ physBound := by
      rw [show physBound = 2 ^ 36 from rfl]
      exact Nat.pow_dvd_pow 2 (by unfold levelShift; omega)
    have hdiv := Nat.div_add_mod' va (2 ^ levelShift m)
    have hwrap : wrap64 (va + j) = va + j := by
      have := mul_add_le_of_lt (hdiv.trans_lt (hva.trans_eq hspace))
      exact Nat.mod_eq_of_lt (by omega)
    have hquot : (va + j) / 2 ^ levelShift m = va / 2 ^ levelShift m :=
      Nat.div_eq_of_lt_le (by omega) (by rw [Nat.succ_mul]; omega)
    have hphys : physOf m e (va + j) = physOf m e va + j := by
      have hdiv' := Nat.div_add_mod' (va + j) (2 ^ levelShift m)
      rw [hquot] at hdiv'
      unfold physOf
      omega
    have hbelow : physOf m e va < physBound →
        physOf m e va + (2 ^ levelShift m - va % 2 ^ levelShift m) ≤ physBound := by
      intro hlt
      rw [physOf, hbound] at hlt
      have := mul_add_le_of_lt hlt
      rw [hbound, physOf]
      omega
    have hwalk : walkOf k cr3 (va + j) = .leaf m a e := pageWalk_same_page hend hquot
    refine ⟨hbelow, ?_⟩
    simp only [hwrap, translate, hwalk, hphys]
    by_cases hlt : physOf m e va < physBound
    · have := hbelow hlt
      rw [if_pos hlt, if_pos (by omega)]
    · rw [if_neg hlt, if_neg (by omega)]

theorem translate_of_ptwPage_none (h : ptwPage k cr3 va = none) : translate k cr3 va = none := by
  rw [ptwPage_eq] at h
  rw [translate]
  cases hend : walkOf k cr3 va with
  | fault => rfl
  | absent m a e => rfl
  | leaf m a e => simp [hend] at h

def walkEntries (k : KernelMemory) (va : Nat) : Nat → Nat → List Nat
  | 0, _ => []
  | n + 1, table =>
    if physBound ≤ table then []
    else
      entryAddr k va n table ::
        match k.kread (entryAddr k va n table) with
        | none => []
        | some e =>
          if !ptePresent e then [] else if IsLeaf n e then [] else walkEntries k va n (physMask e)

theorem pageWalk_congr {k' : KernelMemory} (hdmap : k'.dmap = k.dmap) {n table : Nat}
    (h : ∀ a ∈ walkEntries k va n table, k'.kread a = k.kread a) :
    pageWalk k' va n table = pageWalk k va n table := by
  induction n generalizing table with
  | zero => rfl
  | succ n ih =>
    have hentry : entryAddr k' va n table = entryAddr k va n table := by
      rw [entryAddr, entryAddr, hdmap]
    rw [walkEntries] at h
    rw [pageWalk, pageWalk, hentry]
    split_ifs at h ⊢
    · rfl
    · rw [h _ mem_cons_self]
      cases hread : k.kread (entryAddr k va n table) with
      | none => rfl
      | some e =>
        simp only [hread] at h
        dsimp only
        split_ifs at h ⊢
        · rfl
        · rfl
        · exact ih fun a ha => h a (mem_cons_of_mem _ ha)

section Steps

variable {n table e : Nat}

theorem pageWalk_table (hbound : table < physBound)
    (hread : k.kread (entryAddr k va n table) = some e) (hpresent : ptePresent e = true)
    (hleaf : ¬IsLeaf n e) : pageWalk k va (n + 1) table = pageWalk k va n (physMask e) := by
  rw [pageWalk, if_neg (not_le.mpr hbound), hread]
  dsimp only
  rw [hpresent, if_neg (by decide), if_neg hleaf]

theorem pageWalk_leaf (hbound : table < physBound)
    (hread : k.kread (entryAddr k va n table) = some e) (hpresent : ptePresent e = true)
    (hleaf : IsLeaf n e) :
    pageWalk k va (n + 1) table = .leaf n (entryAddr k va n table) e := by
  rw [pageWalk, if_neg (not_le.mpr hbound), hread]
  dsimp only
  rw [hpresent, if_neg (by decide), if_pos hleaf]

theorem walkEntries_table (hbound : table < physBound)
    (hread : k.kread (entryAddr k va n table) = some e) (hpresent : ptePresent e = true)
    (hleaf : ¬IsLeaf n e) : walkEntries k va (n + 1) table =
      entryAddr k va n table :: walkEntries k va n (physMask e) := by
  rw [walkEntries, if_neg (not_le.mpr hbound), hread]
  dsimp only
  rw [hpresent, if_neg (by decide), if_neg hleaf]

theorem walkEntries_leaf (hbound : table < physBound)
    (hread : k.kread (entryAddr k va n table) = some e) (hpresent : ptePresent e = true)
    (hleaf : IsLeaf n e) : walkEntries k va (n + 1) table = [entryAddr k va n table] := by
  rw [walkEntries, if_neg (not_le.mpr hbound), hread]
  dsimp only
  rw [hpresent, if_neg (by decide), if_pos hleaf]

end Steps

end Pages

/-! ## The loop -/

section Loop

variable {d : DirectMap} {page : (Nat → UInt8) → Nat → Option (Nat × Nat)}
  {key : Nat → Nat → Nat} {val : Nat → Nat → UInt8} {va len : Nat} {tr : Nat → Option Nat}
  {s₀ : Nat → UInt8}

def bytewise (key : Nat → Nat → Nat) (val : Nat → Nat → UInt8) (tr : Nat → Option Nat)
    (s₀ : Nat → UInt8) (n : Nat) : Nat → UInt8 :=
  updates s₀ (fun i => key i ((tr i).getD 0)) (fun i => val i ((tr i).getD 0)) n

def CopiesSucceed (d : DirectMap) (tr : Nat → Option Nat) (len : Nat) : Prop :=
  ∀ off phys n, off + n ≤ len → (∀ j, j < n → tr (off + j) = some (phys + j)) → n ≤ d.copied phys n

structure PagesTell (page : (Nat → UInt8) → Nat → Option (Nat × Nat)) (va len : Nat)
    (tr : Nat → Option Nat) (state : Nat → Nat → UInt8) : Prop where
  absent : ∀ n i, n ≤ i → i < len → (∀ j, j < i → (tr j).isSome) →
    page (state n) (wrap64 (va + i)) = none → tr i = none
  bytes : ∀ n i phys pgsz j, n ≤ i → i < len → (∀ j, j < i → (tr j).isSome) →
    page (state n) (wrap64 (va + i)) = some (phys, pgsz) →
    j < pgsz - wrap64 (va + i) % pgsz →
    (phys < physBound → phys + (pgsz - wrap64 (va + i) % pgsz) ≤ physBound) ∧
      tr (i + j) = if phys < physBound then some (phys + j) else none
  pos : ∀ n i phys pgsz, n ≤ i → i < len → (∀ j, j < i → (tr j).isSome) →
    page (state n) (wrap64 (va + i)) = some (phys, pgsz) → wrap64 (va + i) % pgsz < pgsz

structure Bytewise (d : DirectMap) (tr : Nat → Option Nat) (len : Nat)
    (state : Nat → Nat → UInt8) (r : Bool × (Nat → UInt8)) : Prop where
  state : ∃ n, n ≤ len ∧ (∀ i, i < n → (tr i).isSome) ∧ r.2 = state n ∧ (r.1 = true → n = len)
  succeeds : (∀ i, i < len → (tr i).isSome) → CopiesSucceed d tr len → r.1 = true

structure BatchAt (b : PtwBatch) (tr : Nat → Option Nat) (done : Nat) : Prop where
  le : b.len ≤ done
  bytes : ∀ j, j < b.len → tr (done - b.len + j) = some (b.phys + j)
  before : ∀ i, i < done - b.len → (tr i).isSome

theorem BatchAt.isSome {b : PtwBatch} {done i : Nat} (h : BatchAt b tr done) (hi : i < done) :
    (tr i).isSome := by
  rcases Nat.lt_or_ge i (done - b.len) with hlt | hge
  · exact h.before i hlt
  · have hbyte := h.bytes (i - (done - b.len)) (by have := h.le; omega)
    rw [Nat.add_sub_cancel' hge] at hbyte
    rw [hbyte]
    rfl

theorem ptwFlush_snd {b : PtwBatch} {done : Nat} (h : BatchAt b tr done) :
    (ptwFlush d key val (bytewise key val tr s₀ (done - b.len)) (done - b.len) b.phys b.len).2 =
      bytewise key val tr s₀ (done - b.len + min b.len (d.copied b.phys b.len)) := by
  rw [ptwFlush, bytewise, bytewise, ← updates_add]
  refine updates_congr fun j hj => ?_
  rw [h.bytes j (hj.trans_le (Nat.min_le_left _ _))]
  exact ⟨rfl, rfl⟩

theorem bytewise_ptwFlush {b : PtwBatch} {done : Nat} (h : BatchAt b tr done) (hdone : done ≤ len)
    (hend : d.copied b.phys b.len < b.len ∨ done = len) :
    Bytewise d tr len (bytewise key val tr s₀) (ptwFlush d key val
      (bytewise key val tr s₀ (done - b.len)) (done - b.len) b.phys b.len) := by
  have hle := h.le
  refine ⟨⟨done - b.len + min b.len (d.copied b.phys b.len), by omega, fun i hi =>
    h.isSome (by omega), ptwFlush_snd h, fun hok => ?_⟩, fun _ hcopies => ?_⟩
  · have hcopied : b.len ≤ d.copied b.phys b.len := of_decide_eq_true hok
    omega
  · exact decide_eq_true (hcopies _ _ _ (by omega) h.bytes)

theorem ptwFlush_true {b : PtwBatch} {done : Nat} (h : BatchAt b tr done)
    (hcopied : b.len ≤ d.copied b.phys b.len) :
    ptwFlush d key val (bytewise key val tr s₀ (done - b.len)) (done - b.len) b.phys b.len =
      (true, bytewise key val tr s₀ done) := by
  refine Prod.ext (decide_eq_true hcopied) ?_
  rw [ptwFlush_snd h, Nat.min_eq_left hcopied, Nat.sub_add_cancel h.le]

theorem BatchAt.fresh {phys n vaEnd done : Nat} (hbefore : ∀ i, i < done → (tr i).isSome)
    (hbytes : ∀ j, j < n → tr (done + j) = some (phys + j)) :
    BatchAt ⟨phys, n, vaEnd⟩ tr (done + n) := by
  refine ⟨Nat.le_add_left _ _, ?_, ?_⟩
  · rwa [Nat.add_sub_cancel]
  · rwa [Nat.add_sub_cancel]

theorem BatchAt.extend {b : PtwBatch} {n vaEnd done : Nat} (h : BatchAt b tr done)
    (hbytes : ∀ j, j < n → tr (done + j) = some (b.phys + b.len + j)) :
    BatchAt ⟨b.phys, b.len + n, vaEnd⟩ tr (done + n) := by
  have hle := h.le
  have hstart : done + n - (b.len + n) = done - b.len := Nat.add_sub_add_right _ _ _
  refine ⟨Nat.add_le_add_right hle n, fun j hj => ?_, ?_⟩
  · dsimp only at hj ⊢
    rw [hstart]
    rcases Nat.lt_or_ge j b.len with hlt | hge
    · exact h.bytes j hlt
    · have hbyte := hbytes (j - b.len) (by omega)
      rwa [show done + (j - b.len) = done - b.len + j by omega,
        show b.phys + b.len + (j - b.len) = b.phys + j by omega] at hbyte
  · dsimp only
    rw [hstart]
    exact h.before

theorem ptwAccessLoop_spec (hpages : PagesTell page va len tr (bytewise key val tr s₀))
    {fuel done : Nat} {b : PtwBatch} (hfuel : len - done < fuel) (hdone : done ≤ len)
    (hb : BatchAt b tr done) : Bytewise d tr len (bytewise key val tr s₀)
      (ptwAccessLoop d page key val va len fuel done b
        (bytewise key val tr s₀ (done - b.len))) := by
  induction fuel generalizing done b with
  | zero => exact absurd hfuel (Nat.not_lt_zero _)
  | succ fuel ih =>
    have hbefore : ∀ i, i < done → (tr i).isSome := fun i hi => hb.isSome hi
    have hstop (hnone : tr done = none) (hlt : done < len) : Bytewise d tr len
        (bytewise key val tr s₀) (false, bytewise key val tr s₀ (done - b.len)) := by
      refine ⟨⟨done - b.len, by omega, fun i hi => hbefore i (by omega), rfl, nofun⟩, ?_⟩
      intro hall
      have hsome := hall done hlt
      rw [hnone] at hsome
      cases hsome
    rw [ptwAccessLoop]
    by_cases hlt : done < len
    · rw [if_pos hlt]
      cases hpage : page (bytewise key val tr s₀ (done - b.len)) (wrap64 (va + done)) with
      | none =>
        simp only [hpage]
        exact hstop (hpages.absent _ _ (Nat.sub_le _ _) hlt hbefore hpage) hlt
      | some found =>
        obtain ⟨phys, pgsz⟩ := found
        have hbytes := fun j =>
          hpages.bytes _ _ phys pgsz j (Nat.sub_le _ _) hlt hbefore hpage
        have hroom := hpages.pos _ _ _ _ (Nat.sub_le _ _) hlt hbefore hpage
        simp only [hpage]
        generalize hn : min (len - done) (pgsz - wrap64 (va + done) % pgsz) = n
        have hfuel' : len - (done + n) < fuel := by omega
        have hdone' : done + n ≤ len := by omega
        split_ifs with hbound hnext hsome
        · refine hstop ?_ hlt
          obtain ⟨hbelow, htr⟩ := hbytes 0 (by omega)
          rw [Nat.add_zero] at htr
          rw [htr, if_neg (by omega)]
        all_goals
          have hrun : ∀ j, j < n → tr (done + j) = some (phys + j) := fun j hj => by
            rw [(hbytes j (by omega)).2, if_pos (by omega)]
        · rw [hnext.2.1] at hrun
          have hgrown := @ih (done + n) ⟨b.phys, b.len + n, wrap64 (wrap64 (va + done) + n)⟩
            hfuel' hdone' (hb.extend hrun)
          rwa [show done + n - (b.len + n) = done - b.len from Nat.add_sub_add_right _ _ _]
            at hgrown
        · have hfresh := @ih (done + n) ⟨phys, n, wrap64 (wrap64 (va + done) + n)⟩
            hfuel' hdone' (.fresh hbefore hrun)
          rw [show done + n - n = done from Nat.add_sub_cancel _ _] at hfresh
          rcases Nat.lt_or_ge (d.copied b.phys b.len) b.len with hshort | hcopied
          · have hflush := @bytewise_ptwFlush d key val len tr s₀ b done hb hdone (.inl hshort)
            have hfalse : (ptwFlush d key val (bytewise key val tr s₀ (done - b.len))
                (done - b.len) b.phys b.len).1 = false := decide_eq_false (by omega)
            generalize ptwFlush d key val (bytewise key val tr s₀ (done - b.len))
              (done - b.len) b.phys b.len = r at hflush hfalse ⊢
            obtain ⟨ok, s'⟩ := r
            obtain rfl : ok = false := hfalse
            exact hflush
          · rw [ptwFlush_true hb hcopied]
            exact hfresh
        · have hzero : b.len = 0 := by omega
          have hfresh := @ih (done + n) ⟨phys, n, wrap64 (wrap64 (va + done) + n)⟩
            hfuel' hdone' (.fresh hbefore hrun)
          rw [show done + n - n = done from Nat.add_sub_cancel _ _] at hfresh
          rwa [hzero, Nat.sub_zero]
    · have hdone : done = len := by omega
      rw [if_neg hlt]
      split_ifs with hsome
      · exact bytewise_ptwFlush hb hdone.le (.inr hdone)
      · have hzero : b.len = 0 := by omega
        refine ⟨⟨done, hdone.le, hbefore, ?_, fun _ => hdone⟩, fun _ _ => rfl⟩
        rw [hzero, Nat.sub_zero]

end Loop

/-! ## Reading and writing -/

section Access

variable {d : DirectMap} {cr3 pid va len : Nat}

def DirectMap.byteAt (d : DirectMap) (cr3 va i : Nat) : Option Nat :=
  translate (d.kernel d.mem) cr3 (wrap64 (va + i))

theorem wrap64_lt (n : Nat) : wrap64 n < 2 ^ 64 := Nat.mod_lt _ (Nat.two_pow_pos 64)

theorem pagesTell_of_eq {page : (Nat → UInt8) → Nat → Option (Nat × Nat)}
    {state : Nat → Nat → UInt8}
    (h : ∀ n i, n ≤ i → i < len → (∀ j, j < i → (d.byteAt cr3 va j).isSome) →
      page (state n) (wrap64 (va + i)) = ptwPage (d.kernel d.mem) cr3 (wrap64 (va + i))) :
    PagesTell page va len (d.byteAt cr3 va) state := by
  refine ⟨fun n i hn hi hbefore hpage => ?_, fun n i phys pgsz j hn hi hbefore hpage hj => ?_,
    fun n i phys pgsz hn hi hbefore hpage => ?_⟩
  all_goals rw [h n i hn hi hbefore] at hpage
  · exact translate_of_ptwPage_none hpage
  · have hbyte := translate_page hpage (wrap64_lt _) hj
    rwa [wrap64, wrap64, Nat.mod_add_mod, Nat.add_assoc, ← wrap64] at hbyte
  · rw [ptwPage_eq] at hpage
    cases hend : walkOf (d.kernel d.mem) cr3 (wrap64 (va + i)) with
    | fault => simp [hend] at hpage
    | absent m a e => simp [hend] at hpage
    | leaf m a e =>
      simp only [hend, Option.some.injEq, Prod.mk.injEq] at hpage
      rw [← hpage.2]
      exact Nat.mod_lt _ (Nat.two_pow_pos _)

/-- What a read of a range has to do. -/
structure ReadExact (d : DirectMap) (cr3 va len : Nat) (dst : Nat → UInt8)
    (r : Bool × (Nat → UInt8)) : Prop where
  succeeds : CopiesSucceed d (d.byteAt cr3 va) len →
    (r.1 = true ↔ ∀ i, i < len → (d.byteAt cr3 va i).isSome)
  bytes : r.1 = true → ∀ i, i < len → ∃ p, d.byteAt cr3 va i = some p ∧ r.2 i = d.mem (d.at p)
  frame : ∀ i, len ≤ i → r.2 i = dst i

/-- What a write of a range has to do, where the last of several bytes that share a
physical address counts. -/
structure WriteExact (d : DirectMap) (cr3 va len : Nat) (src : Nat → UInt8)
    (r : Bool × (Nat → UInt8)) : Prop where
  succeeds : CopiesSucceed d (d.byteAt cr3 va) len →
    (r.1 = true ↔ ∀ i, i < len → (d.byteAt cr3 va i).isSome)
  bytes : r.1 = true → ∀ i, i < len → ∃ p, d.byteAt cr3 va i = some p ∧
    ((∀ j, i < j → j < len → d.byteAt cr3 va j ≠ some p) → r.2 (d.at p) = src i)
  frame : ∀ q, (∀ i, i < len → ∀ p, d.byteAt cr3 va i = some p → d.at p ≠ q) → r.2 q = d.mem q

/-- No byte of a range is in an entry that the walk of a later one reads. -/
def TablesKept (d : DirectMap) (cr3 va len : Nat) : Prop :=
  ∀ i j, i < j → j < len → ∀ p, d.byteAt cr3 va i = some p →
    ∀ a ∈ walkEntries (d.kernel d.mem) (wrap64 (va + j)) 4 (physMask cr3),
      ∀ b, b < 8 → d.at p ≠ wrap64 (a + b)

theorem BatchAt.start (tr : Nat → Option Nat) : BatchAt ⟨0, 0, 0⟩ tr 0 :=
  ⟨le_rfl, fun _ hj => absurd hj (Nat.not_lt_zero _), fun _ hi => absurd hi (Nat.not_lt_zero _)⟩

theorem Bytewise.succeeds_iff {tr : Nat → Option Nat} {state : Nat → Nat → UInt8}
    {r : Bool × (Nat → UInt8)} (h : Bytewise d tr len state r) (hcopies : CopiesSucceed d tr len) :
    r.1 = true ↔ ∀ i, i < len → (tr i).isSome := by
  constructor
  · intro hok
    obtain ⟨n, -, hsome, -, hn⟩ := h.state
    exact hn hok ▸ hsome
  · exact fun hall => h.succeeds hall hcopies

theorem ptwRead_spec (hpid : 0 < pid) (hpid' : pid < 2 ^ 31) (hlen : 1 ≤ len)
    (dst : Nat → UInt8) : ReadExact d cr3 va len dst (ptwRead d (some cr3) pid va len dst) := by
  have hargs : ¬(pid = 0 ∨ 2 ^ 31 ≤ pid ∨ len = 0) := by omega
  have hrun : Bytewise d (d.byteAt cr3 va) len
      (bytewise (fun i _ => i) (fun _ p => d.mem (d.at p)) (d.byteAt cr3 va) dst)
      (ptwRead d (some cr3) pid va len dst) := by
    rw [ptwRead, if_neg hargs]
    exact ptwAccessLoop_spec (pagesTell_of_eq fun _ _ _ _ _ => rfl) (Nat.lt_succ_self len)
      (Nat.zero_le len) (.start _)
  obtain ⟨n, hn, hsome, hstate, hfull⟩ := hrun.state
  refine ⟨hrun.succeeds_iff, fun hok i hi => ?_, fun i hi => ?_⟩
  · obtain rfl := hfull hok
    obtain ⟨p, hp⟩ := Option.isSome_iff_exists.mp (hsome i hi)
    refine ⟨p, hp, ?_⟩
    have hlast := @updates_last _ _ _ dst (fun i => i)
      (fun i => d.mem (d.at ((d.byteAt cr3 va i).getD 0))) _ i hi fun j hij _ => hij.ne'
    rw [hp] at hlast
    rw [hstate]
    exact hlast
  · rw [hstate]
    exact updates_of_ne fun j hj => ((hj.trans_le hn).trans_le hi).ne

theorem DirectMap.at_inj {p q : Nat} (hp : p < physBound) (hq : q < physBound)
    (h : d.at p = d.at q) : p = q := by
  unfold DirectMap.at wrap64 at h
  unfold physBound at hp hq
  omega

theorem byteAt_lt {i p : Nat} (h : d.byteAt cr3 va i = some p) : p < physBound := by
  rw [DirectMap.byteAt, translate] at h
  cases hend : walkOf (d.kernel d.mem) cr3 (wrap64 (va + i)) with
  | fault => simp [hend] at h
  | absent m a e => simp [hend] at h
  | leaf m a e =>
    simp only [hend, Option.ite_none_right_eq_some, Option.some.injEq] at h
    exact h.2 ▸ h.1

theorem ptwPage_of_agree {mem : Nat → UInt8} {x : Nat}
    (h : ∀ a ∈ walkEntries (d.kernel d.mem) x 4 (physMask cr3), ∀ b, b < 8 →
      mem (wrap64 (a + b)) = d.mem (wrap64 (a + b))) :
    ptwPage (d.kernel mem) cr3 x = ptwPage (d.kernel d.mem) cr3 x := by
  have hread : ∀ a ∈ walkEntries (d.kernel d.mem) x 4 (physMask cr3),
      (d.kernel mem).kread a = (d.kernel d.mem).kread a := by
    intro a ha
    have hbytes : (List.range 8).map (fun b => mem (wrap64 (a + b))) =
        (List.range 8).map fun b => d.mem (wrap64 (a + b)) :=
      map_congr_left fun b hb => h a ha b (mem_range.mp hb)
    simp only [DirectMap.kernel, hbytes]
  have hwalk : walkOf (d.kernel mem) cr3 x = walkOf (d.kernel d.mem) cr3 x :=
    @pageWalk_congr (d.kernel d.mem) x (d.kernel mem) rfl 4 (physMask cr3) hread
  rw [ptwPage_eq, ptwPage_eq, hwalk]

theorem ptwWrite_spec (hpid : 0 < pid) (hpid' : pid < 2 ^ 31) (hlen : 1 ≤ len)
    (src : Nat → UInt8) (hkept : TablesKept d cr3 va len) :
    WriteExact d cr3 va len src (ptwWrite d (some cr3) pid va len src) := by
  have hargs : ¬(pid = 0 ∨ 2 ^ 31 ≤ pid ∨ len = 0) := by omega
  have hrun : Bytewise d (d.byteAt cr3 va) len
      (bytewise (fun _ p => d.at p) (fun i _ => src i) (d.byteAt cr3 va) d.mem)
      (ptwWrite d (some cr3) pid va len src) := by
    rw [ptwWrite, if_neg hargs]
    refine ptwAccessLoop_spec (pagesTell_of_eq fun n i hn hi hbefore => ?_) (Nat.lt_succ_self len)
      (Nat.zero_le len) (.start _)
    refine ptwPage_of_agree fun a ha b hb => updates_of_ne fun j hj => ?_
    obtain ⟨p, hp⟩ := Option.isSome_iff_exists.mp (hbefore j (hj.trans_le hn))
    rw [hp]
    exact hkept j i (hj.trans_le hn) hi p hp a ha b hb
  obtain ⟨n, hn, hsome, hstate, hfull⟩ := hrun.state
  refine ⟨hrun.succeeds_iff, fun hok i hi => ?_, fun q hq => ?_⟩
  · obtain rfl := hfull hok
    obtain ⟨p, hp⟩ := Option.isSome_iff_exists.mp (hsome i hi)
    refine ⟨p, hp, fun hlast => ?_⟩
    have hset := @updates_last _ _ _ d.mem (fun i => d.at ((d.byteAt cr3 va i).getD 0)) src _ i hi
      fun j hij hj heq => by
        obtain ⟨q, hq⟩ := Option.isSome_iff_exists.mp (hsome j hj)
        rw [hp, hq] at heq
        have hsame := DirectMap.at_inj (byteAt_lt hq) (byteAt_lt hp) heq
        exact hlast j hij hj (hsame ▸ hq)
    rw [hp] at hset
    rw [hstate]
    exact hset
  · rw [hstate]
    refine updates_of_ne fun j hj => ?_
    obtain ⟨p, hp⟩ := Option.isSome_iff_exists.mp (hsome j hj)
    rw [hp]
    exact hq j (hj.trans_le hn) p hp

/-- **Physical access.** For every page table a read of a range copies the byte at the
physical address of each byte of it; a write that does not touch the entries that its later
walks read stores each byte at its physical address, the last one where several have the
same, and nothing else. -/
theorem ptwAccess_exact (hpid : 0 < pid) (hpid' : pid < 2 ^ 31) (hlen : 1 ≤ len)
    (buf : Nat → UInt8) :
    ReadExact d cr3 va len buf (ptwRead d (some cr3) pid va len buf) ∧
      (TablesKept d cr3 va len →
        WriteExact d cr3 va len buf (ptwWrite d (some cr3) pid va len buf)) :=
  ⟨ptwRead_spec hpid hpid' hlen buf, ptwWrite_spec hpid hpid' hlen buf⟩

end Access

def aliasedPages : DirectMap where
  mem a :=
    if a < 0x1000 then [0x01, 0x10].getD (a % 8) 0
    else if a < 0x2000 then [0x83, 0, 0, 0x40].getD (a % 8) 0 else 0
  dmap := 0
  readable _ := true
  copied _ n := n

theorem kread_aliasedPages {a : Nat} (hdvd : a % 8 = 0) (ha : a < 0x2000) :
    (aliasedPages.kernel aliasedPages.mem).kread a =
      some (if a < 0x1000 then 0x1001 else 0x40000083) := by
  have hbytes (b : Nat) (hb : b ∈ List.range 8) : aliasedPages.mem (wrap64 (a + b)) =
      if a < 0x1000 then [0x01, 0x10].getD b 0 else [0x83, 0, 0, 0x40].getD b 0 := by
    have hb := mem_range.mp hb
    have hwrap : wrap64 (a + b) = a + b := Nat.mod_eq_of_lt (by omega)
    rw [hwrap, aliasedPages]
    dsimp only
    rw [show (a + b) % 8 = b by omega]
    split_ifs <;> first | rfl | omega
  rw [DirectMap.kernel]
  dsimp only
  rw [map_congr_left hbytes, if_pos (show aliasedPages.readable a = true from rfl)]
  split_ifs <;> rfl

theorem walk_aliasedPages (x : Nat) : ∃ first second,
    walkOf (aliasedPages.kernel aliasedPages.mem) 0 x = .leaf 2 second 0x40000083 ∧
      walkEntries (aliasedPages.kernel aliasedPages.mem) x 4 (physMask 0) = [first, second] ∧
      first < 0x2000 ∧ second < 0x2000 := by
  generalize hk : aliasedPages.kernel aliasedPages.mem = k
  have hdmap : k.dmap = 0 := hk ▸ rfl
  have hfirst : entryAddr k x 3 0 = x / 2 ^ 39 % 512 * 8 := by
    rw [entryAddr, hdmap, Nat.zero_add]
    exact Nat.mod_eq_of_lt (by unfold levelShift; omega)
  have hsecond : entryAddr k x 2 0x1000 = 0x1000 + x / 2 ^ 30 % 512 * 8 := by
    rw [entryAddr, hdmap, Nat.zero_add]
    exact Nat.mod_eq_of_lt (by unfold levelShift; omega)
  have hread₁ : k.kread (entryAddr k x 3 0) = some 0x1001 := by
    rw [hfirst, ← hk, kread_aliasedPages (by omega) (by omega), if_pos (by omega)]
  have hread₂ : k.kread (entryAddr k x 2 0x1000) = some 0x40000083 := by
    rw [hsecond, ← hk, kread_aliasedPages (by omega) (by omega), if_neg (by omega)]
  refine ⟨entryAddr k x 3 0, entryAddr k x 2 0x1000, ?_, ?_, by omega, by omega⟩
  · have htable := pageWalk_table (n := 3) (show 0 < physBound by decide) hread₁ rfl (by decide)
    exact htable.trans (pageWalk_leaf (n := 2) (show 0x1000 < physBound by decide) hread₂ rfl
      (by decide))
  · have htable := walkEntries_table (n := 3) (show 0 < physBound by decide) hread₁ rfl (by decide)
    refine htable.trans (congrArg _ ?_)
    exact walkEntries_leaf (n := 2) (show 0x1000 < physBound by decide) hread₂ rfl (by decide)

theorem byteAt_aliasedPages (va i : Nat) :
    aliasedPages.byteAt 0 va i = some (0x40000000 + wrap64 (va + i) % 2 ^ 30) := by
  obtain ⟨first, second, hwalk, -⟩ := walk_aliasedPages (wrap64 (va + i))
  have hphys : physOf 2 0x40000083 (wrap64 (va + i)) = 0x40000000 + wrap64 (va + i) % 2 ^ 30 := rfl
  rw [DirectMap.byteAt, translate, hwalk]
  dsimp only
  rw [hphys, if_pos (by unfold physBound; omega)]

theorem tablesKept_aliasedPages (va len : Nat) : TablesKept aliasedPages 0 va len := by
  intro i j _ _ p hp a ha b hb heq
  obtain ⟨first, second, -, hentries, hfirst, hsecond⟩ := walk_aliasedPages (wrap64 (va + j))
  rw [byteAt_aliasedPages, Option.some.injEq] at hp
  rw [hentries, mem_cons, mem_singleton] at ha
  rw [DirectMap.at, show aliasedPages.dmap = 0 from rfl] at heq
  unfold wrap64 at heq
  omega

theorem ptwAccess_exact_aliasedPages :
    WriteExact aliasedPages 0 0x3FFFFFFE 4 (fun i => i.toUInt8)
      (ptwWrite aliasedPages (some 0) 100 0x3FFFFFFE 4 fun i => i.toUInt8) :=
  (ptwAccess_exact (by decide) (by decide) (by decide) _).2 (tablesKept_aliasedPages _ _)

theorem aliased_write_not_exact : ¬∀ (d : DirectMap) (cr3 pid va len : Nat) (src : Nat → UInt8),
    0 < pid → pid < 2 ^ 31 → 1 ≤ len → (ptwWrite d (some cr3) pid va len src).1 = true →
      ∀ i, i < len → ∀ p, d.byteAt cr3 va i = some p →
        (ptwWrite d (some cr3) pid va len src).2 (d.at p) = src i := by
  intro h
  generalize hlen : 2 ^ 30 + 1 = len at *
  have hexact := @ptwWrite_spec aliasedPages 0 100 0 len (by decide) (by decide) (by omega)
    (fun i => if i = 0 then 0 else 1) (tablesKept_aliasedPages 0 len)
  have hok := (hexact.succeeds fun _ _ _ _ _ => le_rfl).mpr fun i _ => by
    rw [byteAt_aliasedPages]
    rfl
  have hstored := h aliasedPages 0 100 0 len _ (by decide) (by decide) (by omega) hok
  have hfirst := hstored 0 (by omega) _ (byteAt_aliasedPages 0 0)
  have hsecond := hstored (2 ^ 30) (by omega) _ (byteAt_aliasedPages 0 (2 ^ 30))
  have hsame : wrap64 (0 + 2 ^ 30) % 2 ^ 30 = wrap64 (0 + 0) % 2 ^ 30 := by decide
  rw [hsame, hfirst] at hsecond
  simp at hsecond

end MemDbg.Scan
