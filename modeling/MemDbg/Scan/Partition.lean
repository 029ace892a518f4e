import MemDbg.Lib.Span
import MemDbg.Scan.Read

/-!
# The map partitioner

`partition_maps_by_bytes` cuts the map list of a process into one contiguous slot
per worker, by the number of bytes the maps contribute.  What the scan depends on
is only that the slots lie end to end and leave out nothing but maps the filter
rejects (`partition_span`); how the bytes are balanced does not matter.
-/

namespace MemDbg.Scan

open List Lib

structure MapEntry where
  start : Nat
  endAddr : Nat
  protection : Nat
deriving DecidableEq

structure MapFilter where
  protMask : Nat
  startFilter : Nat
  endFilter : Nat
  minMapLen : Nat
deriving DecidableEq

def MapFilter.clip (f : MapFilter) (map : MapEntry) : Option (Nat × Nat) :=
  if map.protection &&& f.protMask ≠ f.protMask ∨ map.endAddr ≤ map.start then none
  else
    let ms := if f.startFilter ≠ 0 ∧ map.start < f.startFilter then f.startFilter else map.start
    let me := if f.endFilter ≠ 0 ∧ map.endAddr > f.endFilter then f.endFilter else map.endAddr
    if me ≤ ms then none
    else if me - ms < f.minMapLen then none
    else some (ms, me - ms)

theorem clip_bounds {f : MapFilter} {map : MapEntry} {start len : Nat}
    (hclip : f.clip map = some (start, len)) :
    map.start ≤ start ∧ start + len ≤ map.endAddr ∧ 0 < len ∧ f.minMapLen ≤ len := by
  unfold MapFilter.clip at hclip
  split at hclip
  · cases hclip
  · dsimp only at hclip
    split_ifs at hclip <;> cases hclip <;> omega

/-- The maps of a process end inside the address space, and what the filter leaves
of them can be read. -/
def ReadableMaps (env : Env) (pid : Int) (mem : Nat → UInt8) (f : MapFilter)
    (maps : List MapEntry) : Prop :=
  ∀ map ∈ maps, map.endAddr < 2 ^ 64 ∧
    ∀ start len, f.clip map = some (start, len) → ShortReads env pid mem start (start + len)

def effectiveMaps (f : MapFilter) : Nat → List MapEntry → List (Nat × Nat)
  | _, [] => []
  | i, map :: maps =>
    match f.clip map with
    | some (_, len) => (i, len) :: effectiveMaps f (i + 1) maps
    | none => effectiveMaps f (i + 1) maps

def totalBytes (effective : List (Nat × Nat)) : Nat :=
  effective.foldl (fun total e => if 2 ^ 64 - 1 - total < e.2 then 2 ^ 64 - 1 else total + e.2) 0

def slotLoop (numThreads bytesPerThread mapCount : Nat) :
    List (Nat × Nat) → Nat → Nat → Nat → List (Nat × Nat)
  | [], _, _, start => [(start, mapCount)]
  | (i, bytes) :: rest, t, tBytes, start =>
    if t + 1 < numThreads ∧ wrap64 (tBytes + bytes) > bytesPerThread ∧ tBytes > 0 then
      (start, i) :: slotLoop numThreads bytesPerThread mapCount rest (t + 1) (wrap64 bytes) i
    else slotLoop numThreads bytesPerThread mapCount rest t (wrap64 (tBytes + bytes)) start

def slotThreads (effectiveCount numThreads : Nat) : Nat :=
  let numThreads := if numThreads > effectiveCount / 2 then effectiveCount / 2 else numThreads
  if numThreads < 1 then 1 else numThreads

def bytesPerThread (effective : List (Nat × Nat)) (numThreads : Nat) : Nat :=
  let perThread := totalBytes effective / numThreads
  if perThread = 0 then 1 else perThread

def partitionMapsByBytes (env : Env) (maps : Option (List MapEntry)) (f : MapFilter)
    (numThreads : Nat) : Except ErrorStatus (List (Nat × Nat)) :=
  match maps with
  | none => .error ⟨.errParam, errParam_ne_ok⟩
  | some maps =>
    let effective := effectiveMaps f 0 maps
    if numThreads < 1 then .error ⟨.errParam, errParam_ne_ok⟩
    else if numThreads ≤ 1 ∨ effective.length < 4 then .ok [(0, maps.length)]
    else if env.alloc .partitionIndices = false ∨ env.alloc .partitionBytes = false then
      .error ⟨.errNomem, errNomem_ne_ok⟩
    else
      let numThreads := slotThreads effective.length numThreads
      .ok (slotLoop numThreads (bytesPerThread effective numThreads) maps.length effective 0 0
        (effective.head?.getD (0, 0)).1)

/-! ## The slots lie end to end -/

theorem effectiveMaps_sorted (f : MapFilter) (i : Nat) (maps : List MapEntry) :
    (effectiveMaps f i maps).Pairwise (fun x y => x.1 < y.1) ∧
      ∀ x ∈ effectiveMaps f i maps, i ≤ x.1 ∧ x.1 < i + maps.length := by
  induction maps generalizing i with
  | nil => exact ⟨.nil, fun x hx => absurd hx not_mem_nil⟩
  | cons map maps ih =>
    obtain ⟨hsorted, hbound⟩ := ih (i + 1)
    rw [effectiveMaps]
    cases hclip : f.clip map with
    | none =>
      refine ⟨hsorted, fun x hx => ?_⟩
      have := hbound x hx
      rw [length_cons]
      omega
    | some range =>
      refine ⟨pairwise_cons.mpr ⟨fun y hy => ?_, hsorted⟩, fun x hx => ?_⟩
      · have := hbound y hy
        omega
      · rw [length_cons]
        rcases mem_cons.mp hx with rfl | hx
        · dsimp only
          omega
        · have := hbound x hx
          omega

theorem clip_before_effective (f : MapFilter) (i : Nat) (maps : List MapEntry) {e : Nat × Nat}
    {rest : List (Nat × Nat)} (h : effectiveMaps f i maps = e :: rest) :
    ∀ map ∈ maps.take (e.1 - i), f.clip map = none := by
  induction maps generalizing i with
  | nil => exact fun map hmap => absurd hmap (by simp)
  | cons map maps ih =>
    rw [effectiveMaps] at h
    cases hclip : f.clip map with
    | none =>
      rw [hclip] at h
      dsimp only at h
      have hbound := (effectiveMaps_sorted f (i + 1) maps).2 e (by rw [h]; simp)
      rw [show e.1 - i = (e.1 - (i + 1)) + 1 by omega, take_succ_cons]
      intro map' hmap'
      rcases mem_cons.mp hmap' with rfl | hmap'
      · exact hclip
      · exact ih (i + 1) h map' hmap'
    | some range =>
      rw [hclip] at h
      obtain ⟨rfl, -⟩ := List.cons.inj h
      simp

theorem slotLoop_span {numThreads bytesPerThread mapCount : Nat} {effective : List (Nat × Nat)}
    (hsorted : effective.Pairwise (fun x y => x.1 < y.1)) (hbound : ∀ x ∈ effective, x.1 < mapCount)
    {t tBytes start : Nat} (hstart : start < mapCount) (hafter : ∀ x ∈ effective, start < x.1) :
    Span start (slotLoop numThreads bytesPerThread mapCount effective t tBytes start) mapCount := by
  induction effective generalizing t tBytes start with
  | nil => exact .cons hstart (.nil mapCount)
  | cons e rest ih =>
    obtain ⟨hnext, hrest⟩ := pairwise_cons.mp hsorted
    have hb := fun x hx => hbound x (mem_cons_of_mem e hx)
    rw [slotLoop]
    split_ifs
    · exact .cons (hafter e (by simp)) (ih hrest hb (hbound e (by simp)) hnext)
    · exact ih hrest hb hstart fun x hx => hafter x (mem_cons_of_mem e hx)

theorem partition_span {env : Env} {maps : List MapEntry} {f : MapFilter} {numThreads : Nat}
    {slots : List (Nat × Nat)} (h : partitionMapsByBytes env (some maps) f numThreads = .ok slots) :
    slots = [(0, maps.length)] ∨ ∃ first, Span first slots maps.length ∧
      ∀ map ∈ maps.take first, f.clip map = none := by
  rw [partitionMapsByBytes] at h
  split_ifs at h with h₀ h₁ h₂
  · exact .inl (Except.ok.inj h).symm
  · refine .inr ?_
    obtain ⟨hsorted, hbound⟩ := effectiveMaps_sorted f 0 maps
    cases heff : effectiveMaps f 0 maps with
    | nil =>
      rw [heff] at h₁
      exact absurd h₁ (by simp)
    | cons e rest =>
      have hfirst := clip_before_effective f 0 maps heff
      rw [heff] at h hsorted hbound
      obtain ⟨hnext, hrest⟩ := pairwise_cons.mp hsorted
      refine ⟨e.1, ?_, hfirst⟩
      have hslots := (Except.ok.inj h).symm
      -- the first effective map never opens a second slot
      rw [slotLoop, if_neg (fun hsplit => absurd hsplit.2.2 (Nat.lt_irrefl 0))] at hslots
      rw [hslots]
      have hb := fun x hx => (hbound x hx).2
      simp only [Nat.zero_add] at hb
      exact slotLoop_span hrest (fun x hx ↦ hb x (mem_cons_of_mem e hx)) (hb e (by simp)) hnext

theorem partition_flatMap {env : Env} {maps : List MapEntry} {f : MapFilter} {numThreads : Nat}
    {slots : List (Nat × Nat)} (h : partitionMapsByBytes env (some maps) f numThreads = .ok slots)
    {α : Type*} {g : MapEntry → List α} (hg : ∀ map, f.clip map = none → g map = []) :
    (slots.flatMap fun s => (maps.extract s.1 s.2).flatMap g) = maps.flatMap g := by
  rw [← flatMap_assoc]
  rcases partition_span h with rfl | ⟨first, hspan, hreject⟩
  · simp
  · have hnone : (maps.take first).flatMap g = [] :=
      flatMap_eq_nil_iff.mpr fun map hmap => hg map (hreject map hmap)
    rw [hspan.flatMap_extract, extract_eq_take_drop, take_of_length_le (by simp)]
    conv_rhs => rw [← take_append_drop first maps, flatMap_append, hnone, nil_append]

theorem partition_ok {env : Env} (hindices : env.alloc .partitionIndices = true)
    (hbytes : env.alloc .partitionBytes = true) (maps : List MapEntry) (f : MapFilter)
    {numThreads : Nat} (hthreads : 1 ≤ numThreads) :
    ∃ slots, partitionMapsByBytes env (some maps) f numThreads = .ok slots := by
  rw [partitionMapsByBytes]
  rw [if_neg (Nat.not_lt.mpr hthreads)]
  split_ifs with h₁ h₂
  · exact ⟨_, rfl⟩
  · rw [hindices, hbytes] at h₂
    exact absurd h₂ (by decide)
  · exact ⟨_, rfl⟩

end MemDbg.Scan
