import MemDbg.Scan.Partition
import MemDbg.Lib.LittleEndian

/-!
# References to an address

`memdbg_xrefs` looks for the words of a range of memory that hold an address.  It reads the
readable maps in chunks and compares, of every eight bytes of a chunk, the words at some of the
offsets.  A reference is found exactly if it lies at one of these places.
-/

namespace MemDbg.Debug

open List Lib Scan

structure XrefsRequest where
  pid : Int
  scanAddress : Nat
  scanLength : Nat
  targetAddress : Nat

structure XrefsEnv where
  mem : Nat → UInt8
  maps : Int → Option (List MapEntry)
  alloc : Bool
  readOut : Nat → Nat

def xrefsChunk : Nat := 0x100000

def xrefsMaxResults : Nat := 32768

/-! ## The search -/

def bufWord (buf : List UInt8) (i : Nat) : Nat := leNat ((buf.drop i).take 8)

def record (found : Prop) [Decidable found] (a : Nat) (results : List Nat) : List Nat :=
  if found ∧ results.length < xrefsMaxResults then results ++ [wrap64 a] else results

def probeAt (target addr : Nat) (buf : List UInt8) (i : Nat) (results : List Nat) : List Nat :=
  if i ≤ buf.length - 8 then record (bufWord buf i = target) (addr + i) results else results

def probeStep (target addr : Nat) (buf : List UInt8) (results : List Nat) (i : Nat) : List Nat :=
  let results :=
    if bufWord buf i = target ∧ results.length < xrefsMaxResults then results ++ [wrap64 (addr + i)]
    else probeAt target addr buf (i + 1) results
  [2, 4].foldl (fun results off => probeAt target addr buf (i + off) results) results

def probeBuffer (target addr : Nat) (buf : List UInt8) (results : List Nat) : List Nat :=
  (List.range ((buf.length - 8) / 8 + 1)).foldl
    (fun results j => probeStep target addr buf results (8 * j)) results

def XrefsEnv.read (env : XrefsEnv) (k addr n : Nat) : List UInt8 :=
  slice (fun a => env.mem (wrap64 a)) addr (min (env.readOut k) n)

def walkRegion (env : XrefsEnv) (target : Nat) :
    Nat → Nat → Nat → Nat → List Nat → List Nat × Nat
  | 0, _, _, k, results => (results, k)
  | fuel + 1, addr, remaining, k, results =>
    if 0 < remaining ∧ results.length < xrefsMaxResults then
      let n := if remaining > xrefsChunk then xrefsChunk else remaining
      let buf := env.read k addr n
      if buf.length < 8 then
        if 0x1000 > remaining then (results, k + 1)
        else
          walkRegion env target fuel (wrap64 (addr + 0x1000)) (remaining - 0x1000) (k + 1) results
      else walkRegion env target fuel (wrap64 (addr + buf.length)) (remaining - buf.length) (k + 1)
        (probeBuffer target addr buf results)
    else (results, k)

def XrefsRequest.region (req : XrefsRequest) (map : MapEntry) : Option (Nat × Nat) :=
  let scanEnd := wrap64 (req.scanAddress + req.scanLength)
  if map.endAddr ≤ map.start then none
  else if map.protection &&& mapProtRead ≠ mapProtRead then none
  else if map.start ≥ scanEnd ∨ map.endAddr ≤ req.scanAddress then none
  else
    let regionStart := if map.start > req.scanAddress then map.start else req.scanAddress
    let regionEnd := if map.endAddr < scanEnd then map.endAddr else scanEnd
    some (regionStart, sub64 regionEnd regionStart)

def walkMaps (env : XrefsEnv) (req : XrefsRequest) : List MapEntry → Nat → List Nat → List Nat
  | [], _, results => results
  | map :: maps, k, results =>
    if results.length < xrefsMaxResults then
      match req.region map with
      | none => walkMaps env req maps k results
      | some (addr, remaining) =>
        let walked := walkRegion env req.targetAddress remaining addr remaining k results
        walkMaps env req maps walked.2 walked.1
    else results

inductive XrefsReply where
  | error (code : Nat)
  | found (results : List Nat)
deriving DecidableEq

def memdbgXrefs (env : XrefsEnv) (req : XrefsRequest) : XrefsReply :=
  if req.scanLength = 0 ∨ req.scanLength > 64 * 2 ^ 20 then .error 0xF0000002
  else match env.maps req.pid with
  | none => .error 0xF0000002
  | some maps =>
    if env.alloc then .found (walkMaps env req maps 0 [])
    else .error 0xF0000003

/-! ## Places -/

def holdsTarget (mem : Nat → UInt8) (target a : Nat) : Bool :=
  leNat (slice (fun a => mem (wrap64 a)) a 8) == target

def stepPlaces (p : Nat → Bool) (a : Nat) : List Nat :=
  a :: (if p a then [] else [a + 1]) ++ [a + 2, a + 4]

def readPlaces (p : Nat → Bool) (r : Nat × Nat) : List Nat :=
  (List.range ((r.2 - 8) / 8 + 1)).flatMap fun j =>
    (stepPlaces p (r.1 + 8 * j)).filter fun a => a + 8 ≤ r.1 + r.2

def regionReads (env : XrefsEnv) : Nat → Nat → Nat → Nat → List (Nat × Nat) × Nat
  | 0, _, _, k => ([], k)
  | fuel + 1, addr, remaining, k =>
    if 0 < remaining then
      let n := min (env.readOut k) (min remaining xrefsChunk)
      if n < 8 then
        if 0x1000 > remaining then ([], k + 1)
        else regionReads env fuel (wrap64 (addr + 0x1000)) (remaining - 0x1000) (k + 1)
      else
        let rest := regionReads env fuel (wrap64 (addr + n)) (remaining - n) (k + 1)
        ((addr, n) :: rest.1, rest.2)
    else ([], k)

def mapReads (env : XrefsEnv) (req : XrefsRequest) : List MapEntry → Nat → List (Nat × Nat)
  | [], _ => []
  | map :: maps, k =>
    match req.region map with
    | none => mapReads env req maps k
    | some (addr, remaining) =>
      let reads := regionReads env remaining addr remaining k
      reads.1 ++ mapReads env req maps reads.2

def readHits (p : Nat → Bool) (reads : List (Nat × Nat)) : List Nat :=
  (reads.flatMap (readPlaces p)).filter p

section Walk

variable {env : XrefsEnv} {req : XrefsRequest} {target addr : Nat} {buf : List UInt8}

def addAll (results found : List Nat) : List Nat :=
  (results ++ found.map wrap64).take xrefsMaxResults

theorem length_addAll_le (results found : List Nat) :
    (addAll results found).length ≤ xrefsMaxResults := by
  rw [addAll, length_take]
  exact Nat.min_le_left _ _

theorem addAll_nil {results : List Nat} (h : results.length ≤ xrefsMaxResults) :
    addAll results [] = results := by
  rw [addAll, map_nil, append_nil, take_of_length_le h]

theorem addAll_addAll (results xs ys : List Nat) :
    addAll (addAll results xs) ys = addAll results (xs ++ ys) := by
  rw [addAll, addAll, addAll, map_append, ← append_assoc]
  generalize results ++ xs.map wrap64 = l
  rcases Nat.le_total l.length xrefsMaxResults with hle | hge
  · rw [take_of_length_le hle]
  · have hlen : xrefsMaxResults ≤ (l.take xrefsMaxResults).length := by
      rw [length_take]
      omega
    rw [take_append_of_le_length hlen, take_append_of_le_length hge, take_take,
      Nat.min_self]

theorem addAll_of_full {results : List Nat} (h : results.length = xrefsMaxResults)
    (found : List Nat) : addAll results found = results := by
  rw [addAll, take_append_of_le_length (by omega), take_of_length_le (by omega)]

theorem record_eq {found : Prop} [Decidable found] {a : Nat} {results : List Nat}
    (h : results.length ≤ xrefsMaxResults) :
    record found a results = addAll results (if found then [a] else []) := by
  rw [record]
  by_cases hfound : found
  · rw [if_pos hfound]
    by_cases hroom : results.length < xrefsMaxResults
    · rw [if_pos ⟨hfound, hroom⟩, addAll, take_of_length_le]
      · rfl
      · rw [length_append]
        exact hroom
    · rw [if_neg fun hand => hroom hand.2, addAll_of_full (by omega)]
  · rw [if_neg hfound, if_neg fun hand => hfound hand.1, addAll_nil h]

theorem bufWord_read {mem : Nat → UInt8} {n i : Nat} (h : i + 8 ≤ n) :
    bufWord (slice (fun a => mem (wrap64 a)) addr n) i = target ↔
      holdsTarget mem target (addr + i) = true := by
  rw [bufWord, drop_slice, take_slice _ (by omega), holdsTarget, beq_iff_eq]

theorem filter_single {α : Type} (p : α → Bool) (a : α) :
    [a].filter p = if p a then [a] else [] := by
  cases h : p a with
  | true => rw [filter_cons_of_pos h, if_pos rfl, filter_nil]
  | false => rw [filter_cons_of_neg (by rw [h]; decide), if_neg Bool.false_ne_true,
      filter_nil]

theorem probeAt_eq {mem : Nat → UInt8} {n i : Nat} {results : List Nat} (hn : 8 ≤ n)
    (hroom : results.length ≤ xrefsMaxResults) :
    probeAt target addr (slice (fun a => mem (wrap64 a)) addr n) i results =
      addAll results (([addr + i].filter fun a => a + 8 ≤ addr + n).filter
        (holdsTarget mem target)) := by
  rw [probeAt, length_slice, filter_single]
  by_cases hi : i ≤ n - 8
  · have hword := @bufWord_read target addr mem n i (by omega)
    rw [if_pos hi, if_pos (decide_eq_true (by omega)), record_eq hroom, filter_single]
    by_cases heq : bufWord (slice (fun a => mem (wrap64 a)) addr n) i = target
    · rw [if_pos heq, if_pos (hword.mp heq)]
    · rw [if_neg heq, if_neg fun h => heq (hword.mpr h)]
  · rw [if_neg hi, if_neg (by rw [decide_eq_true_iff]; omega), filter_nil, addAll_nil hroom]

theorem probeStep_eq {mem : Nat → UInt8} {n i : Nat} {results : List Nat} (h : i + 8 ≤ n)
    (hroom : results.length ≤ xrefsMaxResults) :
    probeStep target addr (slice (fun a => mem (wrap64 a)) addr n) results i =
      addAll results (((stepPlaces (holdsTarget mem target) (addr + i)).filter
        fun a => a + 8 ≤ addr + n).filter (holdsTarget mem target)) := by
  generalize hfirst : (if bufWord (slice (fun a => mem (wrap64 a)) addr n) i = target ∧
      results.length < xrefsMaxResults then results ++ [wrap64 (addr + i)]
    else probeAt target addr (slice (fun a => mem (wrap64 a)) addr n) (i + 1) results) = first
  have hstep : first = addAll results ((((addr + i) ::
      if holdsTarget mem target (addr + i) then [] else [addr + i + 1]).filter
        fun a => a + 8 ≤ addr + n).filter (holdsTarget mem target)) := by
    rw [← hfirst, filter_cons_of_pos (p := fun a => decide (a + 8 ≤ addr + n))
      (decide_eq_true (by omega))]
    cases hword : holdsTarget mem target (addr + i) with
    | true =>
      have heq := (@bufWord_read target addr mem n i h).mpr hword
      rw [if_pos rfl, filter_nil, filter_cons_of_pos hword, filter_nil]
      by_cases hlt : results.length < xrefsMaxResults
      · rw [if_pos ⟨heq, hlt⟩, addAll, take_of_length_le]
        · rfl
        · rw [length_append]
          exact hlt
      · have hfull : results.length = xrefsMaxResults := by omega
        rw [if_neg fun hand => hlt hand.2, addAll_of_full hfull, probeAt_eq (by omega) hroom,
          addAll_of_full hfull]
    | false =>
      have hne : ¬ bufWord (slice (fun a => mem (wrap64 a)) addr n) i = target := fun heq =>
        absurd ((bufWord_read h).mp heq) (by rw [hword]; decide)
      rw [if_neg fun hand => hne hand.1, if_neg Bool.false_ne_true,
        filter_cons_of_neg (by rw [hword]; decide)]
      exact probeAt_eq (by omega) hroom
  have hle : first.length ≤ xrefsMaxResults := by
    rw [hstep]
    exact length_addAll_le _ _
  have hfold : probeStep target addr (slice (fun a => mem (wrap64 a)) addr n) results i =
      probeAt target addr (slice (fun a => mem (wrap64 a)) addr n) (i + 4)
        (probeAt target addr (slice (fun a => mem (wrap64 a)) addr n) (i + 2) first) := by
    rw [← hfirst]
    rfl
  rw [hfold, probeAt_eq (by omega) hle, probeAt_eq (by omega) (length_addAll_le _ _), hstep,
    addAll_addAll, addAll_addAll, ← filter_append, ← filter_append, ← filter_append,
    ← filter_append]
  rfl

theorem probeBuffer_eq {mem : Nat → UInt8} {n : Nat} {results : List Nat} (hn : 8 ≤ n)
    (hroom : results.length ≤ xrefsMaxResults) :
    probeBuffer target addr (slice (fun a => mem (wrap64 a)) addr n) results =
      addAll results ((readPlaces (holdsTarget mem target) (addr, n)).filter
        (holdsTarget mem target)) := by
  have hsteps : ∀ m, m ≤ (n - 8) / 8 + 1 → (List.range m).foldl (fun results j =>
      probeStep target addr (slice (fun a => mem (wrap64 a)) addr n) results (8 * j)) results =
        addAll results (((List.range m).flatMap fun j =>
          (stepPlaces (holdsTarget mem target) (addr + 8 * j)).filter
            fun a => a + 8 ≤ addr + n).filter (holdsTarget mem target)) := by
    intro m hm
    induction m with
    | zero => exact (addAll_nil hroom).symm
    | succ m ih =>
      rw [range_succ, foldl_append, ih (by omega), foldl_cons, foldl_nil,
        probeStep_eq (by omega) (length_addAll_le _ _), addAll_addAll, flatMap_append,
        flatMap_singleton, filter_append]
  rw [probeBuffer, length_slice]
  exact hsteps _ le_rfl

theorem walkRegion_eq (env : XrefsEnv) (target fuel : Nat) {addr remaining k : Nat}
    {results : List Nat} (hroom : results.length ≤ xrefsMaxResults) :
    (walkRegion env target fuel addr remaining k results).1 =
        addAll results (readHits (holdsTarget env.mem target)
          (regionReads env fuel addr remaining k).1) ∧
      ((walkRegion env target fuel addr remaining k results).1.length < xrefsMaxResults →
        (walkRegion env target fuel addr remaining k results).2 =
          (regionReads env fuel addr remaining k).2) := by
  induction fuel generalizing addr remaining k results with
  | zero => exact ⟨(addAll_nil hroom).symm, fun _ => rfl⟩
  | succ fuel ih =>
    have hlen : (env.read k addr
        (if remaining > xrefsChunk then xrefsChunk else remaining)).length =
          min (env.readOut k) (min remaining xrefsChunk) := by
      rw [XrefsEnv.read, length_slice]
      congr 1
      split_ifs <;> omega
    have hbuf : env.read k addr (if remaining > xrefsChunk then xrefsChunk else remaining) =
        slice (fun a => env.mem (wrap64 a)) addr
          (min (env.readOut k) (min remaining xrefsChunk)) := by
      rw [← hlen, XrefsEnv.read, length_slice]
    rw [walkRegion, regionReads]
    dsimp only
    rw [hlen, hbuf]
    generalize min (env.readOut k) (min remaining xrefsChunk) = n
    by_cases hpos : 0 < remaining
    · rw [if_pos hpos]
      by_cases hlt : results.length < xrefsMaxResults
      · rw [if_pos ⟨hpos, hlt⟩]
        by_cases hshort : n < 8
        · rw [if_pos hshort, if_pos hshort]
          split_ifs
          · exact ⟨(addAll_nil hroom).symm, fun _ => rfl⟩
          · exact ih hroom
        · rw [if_neg hshort, if_neg hshort, probeBuffer_eq (by omega) hroom]
          obtain ⟨hresults, hreads⟩ := @ih (wrap64 (addr + n)) (remaining - n) (k + 1) _
            (length_addAll_le results ((readPlaces (holdsTarget env.mem target) (addr, n)).filter
              (holdsTarget env.mem target)))
          refine ⟨?_, hreads⟩
          rw [hresults, addAll_addAll]
          congr 1
          rw [readHits, readHits, flatMap_cons, filter_append]
      · have hfull : results.length = xrefsMaxResults := by omega
        rw [if_neg fun hand => hlt hand.2, addAll_of_full hfull]
        exact ⟨rfl, fun h => absurd h hlt⟩
    · rw [if_neg hpos, if_neg fun hand => hpos hand.1]
      exact ⟨(addAll_nil hroom).symm, fun _ => rfl⟩

theorem readHits_append (p : Nat → Bool) (reads reads' : List (Nat × Nat)) :
    readHits p (reads ++ reads') = readHits p reads ++ readHits p reads' := by
  rw [readHits, readHits, readHits, flatMap_append, filter_append]

theorem walkMaps_eq (env : XrefsEnv) (req : XrefsRequest) (maps : List MapEntry) {k : Nat}
    {results : List Nat} (hroom : results.length ≤ xrefsMaxResults) :
    walkMaps env req maps k results = addAll results
      (readHits (holdsTarget env.mem req.targetAddress) (mapReads env req maps k)) := by
  induction maps generalizing k results with
  | nil => exact (addAll_nil hroom).symm
  | cons map maps ih =>
    rw [walkMaps, mapReads]
    by_cases hlt : results.length < xrefsMaxResults
    · rw [if_pos hlt]
      cases req.region map with
      | none => exact ih hroom
      | some r =>
        obtain ⟨addr, remaining⟩ := r
        dsimp only
        obtain ⟨hresults, hreads⟩ :=
          @walkRegion_eq env req.targetAddress remaining addr remaining k results hroom
        rw [ih (by rw [hresults]; exact length_addAll_le _ _), readHits_append, ← addAll_addAll]
        by_cases hmore : (walkRegion env req.targetAddress remaining addr remaining k
            results).1.length < xrefsMaxResults
        · rw [hreads hmore, hresults]
        · have hfull : (walkRegion env req.targetAddress remaining addr remaining k
              results).1.length = xrefsMaxResults := by
            rw [hresults] at hmore ⊢
            exact le_antisymm (length_addAll_le _ _) (by omega)
          rw [addAll_of_full hfull]
          rw [hresults] at hfull ⊢
          exact (addAll_of_full hfull _).symm
    · rw [if_neg hlt, addAll_of_full (by omega)]

end Walk

/-! ## References -/

def references (env : XrefsEnv) (req : XrefsRequest) (maps : List MapEntry) : List Nat :=
  maps.flatMap fun map =>
    let lo := max map.start req.scanAddress
    let hi := min map.endAddr (req.scanAddress + req.scanLength)
    if map.protection &&& mapProtRead = mapProtRead then
      hits (holdsTarget env.mem req.targetAddress) lo (hi - 7 - lo)
    else []

def SortedMaps (maps : List MapEntry) : Prop :=
  maps.Pairwise fun map map' => map.endAddr ≤ map'.start

/-- The addresses sent are the references: no other, all of them unless there is no more room, and
for sorted maps the first ones, each once and in increasing order. -/
structure FindsReferences (env : XrefsEnv) (req : XrefsRequest) (maps : List MapEntry)
    (results : List Nat) : Prop where
  sound : ∀ a ∈ results, a ∈ references env req maps
  complete : results.length < xrefsMaxResults → ∀ a ∈ references env req maps, a ∈ results
  sorted : SortedMaps maps → (references env req maps).Pairwise (· < ·) ∧
    results = (references env req maps).take xrefsMaxResults

def comparedPlaces (env : XrefsEnv) (req : XrefsRequest) (maps : List MapEntry) : List Nat :=
  (mapReads env req maps 0).flatMap (readPlaces (holdsTarget env.mem req.targetAddress))

/-- The references lie at places that are compared: for sorted maps the first ones, and all of them
unless there is no more room. -/
structure Covered (env : XrefsEnv) (req : XrefsRequest) (maps : List MapEntry) : Prop where
  sorted : SortedMaps maps →
    ∀ a ∈ (references env req maps).take xrefsMaxResults, a ∈ comparedPlaces env req maps
  all : xrefsMaxResults ≤
      (comparedPlaces env req maps).countP (holdsTarget env.mem req.targetAddress) ∨
    ∀ a ∈ references env req maps, a ∈ comparedPlaces env req maps

section References

variable {env : XrefsEnv} {req : XrefsRequest} {maps : List MapEntry} {a : Nat}

theorem mem_references : a ∈ references env req maps ↔ ∃ map ∈ maps,
    map.protection &&& mapProtRead = mapProtRead ∧ max map.start req.scanAddress ≤ a ∧
      a + 8 ≤ min map.endAddr (req.scanAddress + req.scanLength) ∧
        holdsTarget env.mem req.targetAddress a = true := by
  rw [references, mem_flatMap]
  refine exists_congr fun map => and_congr_right fun _ => ?_
  split_ifs with hread
  · rw [mem_hits]
    constructor
    · rintro ⟨⟨hlo, hhi⟩, hp⟩
      exact ⟨hread, hlo, by omega, hp⟩
    · rintro ⟨-, hlo, hhi, hp⟩
      exact ⟨⟨hlo, by omega⟩, hp⟩
  · exact ⟨fun h => absurd h not_mem_nil, fun h => absurd h.1 hread⟩

theorem pairwise_references (h : SortedMaps maps) :
    (references env req maps).Pairwise (· < ·) := by
  rw [references, pairwise_flatMap]
  refine ⟨fun map _ => ?_, h.imp fun hle x hx y hy => ?_⟩
  · dsimp only
    split_ifs
    · exact pairwise_hits _ _
    · exact .nil
  · dsimp only at hx hy
    split_ifs at hx hy
    · have hx := (mem_hits.mp hx).1
      have hy := (mem_hits.mp hy).1
      omega
    all_goals contradiction

theorem mem_stepPlaces {p : Nat → Bool} {b : Nat} : a ∈ stepPlaces p b ↔
    a = b ∨ (p b = false ∧ a = b + 1) ∨ a = b + 2 ∨ a = b + 4 := by
  rw [stepPlaces, cons_append, mem_cons, mem_append, mem_cons,
    mem_singleton]
  refine or_congr_right (or_congr_left ?_)
  cases p b with
  | true => exact ⟨fun h => absurd h not_mem_nil, fun h => absurd h.1 nofun⟩
  | false => exact mem_singleton.trans ⟨fun h => ⟨rfl, h⟩, fun h => h.2⟩

theorem mem_readPlaces {p : Nat → Bool} {b n : Nat} : a ∈ readPlaces p (b, n) ↔
    ∃ j ≤ (n - 8) / 8, (a = b + 8 * j ∨ (p (b + 8 * j) = false ∧ a = b + 8 * j + 1) ∨
      a = b + 8 * j + 2 ∨ a = b + 8 * j + 4) ∧ a + 8 ≤ b + n := by
  rw [readPlaces, mem_flatMap]
  refine exists_congr fun j => and_congr (mem_range.trans Nat.lt_succ_iff) ?_
  rw [mem_filter, mem_stepPlaces, decide_eq_true_iff]

theorem bounds_of_mem_readPlaces {p : Nat → Bool} {b n : Nat} (h : a ∈ readPlaces p (b, n)) :
    b ≤ a ∧ a + 8 ≤ b + n := by
  obtain ⟨j, -, hplace, hin⟩ := mem_readPlaces.mp h
  exact ⟨by omega, hin⟩

theorem pairwise_readPlaces (p : Nat → Bool) (r : Nat × Nat) :
    (readPlaces p r).Pairwise (· < ·) := by
  rw [readPlaces, pairwise_flatMap]
  constructor
  · intro j _
    refine List.Pairwise.filter _ ?_
    rw [stepPlaces]
    cases p (r.1 + 8 * j) <;> simp
  · refine pairwise_lt_range.imp fun hlt x hx y hy => ?_
    have hx := mem_stepPlaces.mp (mem_filter.mp hx).1
    have hy := mem_stepPlaces.mp (mem_filter.mp hy).1
    omega

theorem regionReads_spec (env : XrefsEnv) (fuel : Nat) {addr remaining k : Nat}
    (hend : addr + remaining < 2 ^ 64) :
    (∀ r ∈ (regionReads env fuel addr remaining k).1, addr ≤ r.1 ∧ r.1 + r.2 ≤ addr + remaining) ∧
      (regionReads env fuel addr remaining k).1.Pairwise fun r r' => r.1 + r.2 ≤ r'.1 := by
  induction fuel generalizing addr remaining k with
  | zero => exact ⟨fun r hr => absurd hr not_mem_nil, .nil⟩
  | succ fuel ih =>
    rw [regionReads]
    dsimp only
    have hread : min (env.readOut k) (min remaining xrefsChunk) ≤ remaining :=
      (Nat.min_le_right _ _).trans (Nat.min_le_left _ _)
    generalize min (env.readOut k) (min remaining xrefsChunk) = n at hread ⊢
    have hnone : (∀ r ∈ ([] : List (Nat × Nat)), addr ≤ r.1 ∧ r.1 + r.2 ≤ addr + remaining) ∧
        ([] : List (Nat × Nat)).Pairwise fun r r' => r.1 + r.2 ≤ r'.1 :=
      ⟨fun r hr => absurd hr not_mem_nil, .nil⟩
    split_ifs with hpos hshort hskip
    · exact hnone
    · obtain ⟨hin, hpair⟩ := @ih (wrap64 (addr + 0x1000)) (remaining - 0x1000) (k + 1)
        (by rw [wrap64_of_lt (by omega)]; omega)
      rw [wrap64_of_lt (show addr + 0x1000 < 2 ^ 64 by omega)] at hin hpair ⊢
      exact ⟨fun r hr => by have := hin r hr; omega, hpair⟩
    · obtain ⟨hin, hpair⟩ := @ih (wrap64 (addr + n)) (remaining - n) (k + 1)
        (by rw [wrap64_of_lt (by omega)]; omega)
      rw [wrap64_of_lt (show addr + n < 2 ^ 64 by omega)] at hin hpair ⊢
      refine ⟨forall_mem_cons.mpr ⟨⟨le_rfl, by omega⟩, fun r hr => ?_⟩,
        .cons (fun r hr => (hin r hr).1) hpair⟩
      have := hin r hr
      omega
    · exact hnone

theorem region_spec {map : MapEntry} {addr remaining : Nat}
    (hrange : req.scanAddress + req.scanLength ≤ 2 ^ 64) (hend : map.endAddr < 2 ^ 64)
    (h : req.region map = some (addr, remaining)) :
    map.protection &&& mapProtRead = mapProtRead ∧ addr = max map.start req.scanAddress ∧
      addr + remaining = min map.endAddr (req.scanAddress + req.scanLength) ∧
        addr + remaining < 2 ^ 64 := by
  rw [XrefsRequest.region] at h
  rcases hrange.lt_or_eq with hlt | heq
  · rw [wrap64_of_lt hlt] at h
    split_ifs at h with hempty hprot hout
    all_goals
      cases h
      refine ⟨not_not.mp hprot, by omega, ?_, ?_⟩ <;>
        rw [sub64_of_le (by omega) (by omega)] <;> omega
  · rw [heq, show wrap64 (2 ^ 64) = 0 from rfl] at h
    split_ifs at h with hempty hprot hout
    all_goals exact absurd (.inl (Nat.zero_le _)) hout

theorem mapReads_spec (hrange : req.scanAddress + req.scanLength ≤ 2 ^ 64)
    (hend : ∀ map ∈ maps, map.endAddr < 2 ^ 64) (k : Nat) :
    (∀ r ∈ mapReads env req maps k, ∃ map ∈ maps, map.protection &&& mapProtRead = mapProtRead ∧
        max map.start req.scanAddress ≤ r.1 ∧
          r.1 + r.2 ≤ min map.endAddr (req.scanAddress + req.scanLength)) ∧
      (SortedMaps maps → (mapReads env req maps k).Pairwise fun r r' => r.1 + r.2 ≤ r'.1) := by
  induction maps generalizing k with
  | nil => exact ⟨fun r hr => absurd hr not_mem_nil, fun _ => .nil⟩
  | cons map maps ih =>
    obtain ⟨hmap, hmaps⟩ := forall_mem_cons.mp hend
    rw [mapReads]
    cases hregion : req.region map with
    | none =>
      obtain ⟨hin, hpair⟩ := ih hmaps k
      refine ⟨fun r hr => ?_, fun hsorted => hpair (pairwise_cons.mp hsorted).2⟩
      obtain ⟨map', hmem, hspec⟩ := hin r hr
      exact ⟨map', mem_cons_of_mem _ hmem, hspec⟩
    | some r =>
      obtain ⟨addr, remaining⟩ := r
      obtain ⟨hread, hstart, hstop, hbound⟩ := region_spec hrange hmap hregion
      obtain ⟨hreads, hordered⟩ := @regionReads_spec env remaining addr remaining k hbound
      obtain ⟨hin, hpair⟩ := ih hmaps (regionReads env remaining addr remaining k).2
      refine ⟨fun r hr => ?_, fun hsorted => ?_⟩
      · rcases mem_append.mp hr with hr | hr
        · have hr := hreads r hr
          exact ⟨map, mem_cons_self, hread, by omega, by omega⟩
        · obtain ⟨map', hmem, hspec⟩ := hin r hr
          exact ⟨map', mem_cons_of_mem _ hmem, hspec⟩
      · obtain ⟨hbefore, hsorted⟩ := pairwise_cons.mp hsorted
        refine pairwise_append.mpr ⟨hordered, hpair hsorted, fun r hr r' hr' => ?_⟩
        obtain ⟨map', hmem, -, hlo, -⟩ := hin r' hr'
        have hr := hreads r hr
        have := hbefore map' hmem
        omega

theorem pairwise_comparedPlaces (hrange : req.scanAddress + req.scanLength ≤ 2 ^ 64)
    (hend : ∀ map ∈ maps, map.endAddr < 2 ^ 64) (hsorted : SortedMaps maps) :
    (comparedPlaces env req maps).Pairwise (· < ·) := by
  rw [comparedPlaces, pairwise_flatMap]
  refine ⟨fun r _ => pairwise_readPlaces _ r,
    ((mapReads_spec hrange hend 0).2 hsorted).imp fun hle x hx y hy => ?_⟩
  have hx := bounds_of_mem_readPlaces hx
  have hy := bounds_of_mem_readPlaces hy
  omega

theorem mem_references_of_place (hrange : req.scanAddress + req.scanLength ≤ 2 ^ 64)
    (hend : ∀ map ∈ maps, map.endAddr < 2 ^ 64) (hplace : a ∈ comparedPlaces env req maps)
    (hp : holdsTarget env.mem req.targetAddress a = true) : a ∈ references env req maps := by
  obtain ⟨r, hr, ha⟩ := mem_flatMap.mp hplace
  obtain ⟨map, hmem, hread, hlo, hhi⟩ := (mapReads_spec hrange hend 0).1 r hr
  have ha := bounds_of_mem_readPlaces ha
  exact mem_references.mpr ⟨map, hmem, hread, by omega, by omega, hp⟩

end References

theorem take_eq_take_of_sorted {l l' : List Nat} {n : Nat} (hl : l.Pairwise (· < ·))
    (hl' : l'.Pairwise (· < ·)) (hsub : ∀ a ∈ l, a ∈ l') (hfirst : ∀ a ∈ l'.take n, a ∈ l) :
    l.take n = l'.take n := by
  induction l' generalizing l n with
  | nil => rw [eq_nil_iff_forall_not_mem.mpr fun a ha => absurd (hsub a ha) not_mem_nil]
  | cons b l' ih =>
    cases n with
    | zero => rw [take_zero, take_zero]
    | succ n =>
      obtain ⟨hb, hrest⟩ := forall_mem_cons.mp hfirst
      obtain ⟨hlt', hrest'⟩ := pairwise_cons.mp hl'
      cases l with
      | nil => exact absurd hb not_mem_nil
      | cons c l =>
        obtain ⟨hlt, hl⟩ := pairwise_cons.mp hl
        have hcb : c = b := by
          rcases mem_cons.mp hb with rfl | hb
          · rfl
          · rcases mem_cons.mp (hsub c mem_cons_self) with rfl | hc
            · rfl
            · have := hlt b hb
              have := hlt' c hc
              omega
        subst hcb
        rw [take_succ_cons, take_succ_cons]
        refine congrArg _ (ih hl hrest' (fun a ha => ?_) fun a ha => ?_)
        · rcases mem_cons.mp (hsub a (mem_cons_of_mem _ ha)) with rfl | h
          · exact absurd (hlt _ ha) (lt_irrefl _)
          · exact h
        · rcases mem_cons.mp (hrest a ha) with rfl | h
          · exact absurd (hlt' _ (mem_of_mem_take ha)) (lt_irrefl _)
          · exact h

/-- The addresses sent are the references exactly if these lie at places that are compared. -/
theorem findsReferences_iff (env : XrefsEnv) (req : XrefsRequest) {maps : List MapEntry}
    (hmaps : env.maps req.pid = some maps) (halloc : env.alloc = true)
    (hlength : 0 < req.scanLength ∧ req.scanLength ≤ 64 * 2 ^ 20)
    (hrange : req.scanAddress + req.scanLength ≤ 2 ^ 64)
    (hend : ∀ map ∈ maps, map.endAddr < 2 ^ 64) :
    ∃ results, memdbgXrefs env req = .found results ∧
      (FindsReferences env req maps results ↔ Covered env req maps) := by
  have hsent : memdbgXrefs env req = .found (walkMaps env req maps 0 []) := by
    rw [memdbgXrefs, if_neg (by omega), hmaps]
    exact if_pos halloc
  have hfound : ∀ a ∈ readHits (holdsTarget env.mem req.targetAddress) (mapReads env req maps 0),
      a ∈ references env req maps := fun a ha =>
    mem_references_of_place hrange hend (mem_filter.mp ha).1 (mem_filter.mp ha).2
  have hplace : ∀ a ∈ references env req maps, a ∈ comparedPlaces env req maps →
      a ∈ readHits (holdsTarget env.mem req.targetAddress) (mapReads env req maps 0) := by
    intro a ha hin
    obtain ⟨-, -, -, -, -, hp⟩ := mem_references.mp ha
    exact mem_filter.mpr ⟨hin, hp⟩
  have hresults : walkMaps env req maps 0 [] =
      (readHits (holdsTarget env.mem req.targetAddress) (mapReads env req maps 0)).take
        xrefsMaxResults := by
    rw [walkMaps_eq env req maps (Nat.zero_le _), addAll, nil_append, map_congr_left
      (g := id), map_id]
    intro a ha
    obtain ⟨map, hmem, -, -, hle, -⟩ := mem_references.mp (hfound a ha)
    have := hend map hmem
    exact wrap64_of_lt (by omega)
  have hcount : (comparedPlaces env req maps).countP (holdsTarget env.mem req.targetAddress) =
      (readHits (holdsTarget env.mem req.targetAddress) (mapReads env req maps 0)).length :=
    countP_eq_length_filter
  refine ⟨_, hsent, ?_⟩
  rw [hresults]
  generalize hfounds : readHits (holdsTarget env.mem req.targetAddress) (mapReads env req maps 0) =
    found at hfound hplace hcount
  have hmem : ∀ a ∈ found, a ∈ comparedPlaces env req maps := by
    rw [← hfounds]
    exact fun a ha => (mem_filter.mp ha).1
  constructor
  · intro h
    refine ⟨fun hsorted a ha => ?_, ?_⟩
    · rw [← (h.sorted hsorted).2] at ha
      exact hmem a (mem_of_mem_take ha)
    · rw [hcount]
      rcases Nat.lt_or_ge found.length xrefsMaxResults with hlt | hge
      · refine .inr fun a ha => hmem a ?_
        rw [take_of_length_le hlt.le] at h
        exact h.complete hlt a ha
      · exact .inl hge
  · intro h
    refine ⟨fun a ha => hfound a (mem_of_mem_take ha), fun hlt a ha => ?_, fun hsorted =>
      ⟨pairwise_references hsorted, ?_⟩⟩
    · rw [length_take] at hlt
      have hall := h.all.resolve_left (by rw [hcount]; omega)
      rw [take_of_length_le (by omega)]
      exact hplace a ha (hall a ha)
    · refine take_eq_take_of_sorted ?_ (pairwise_references hsorted) hfound fun a ha => ?_
      · rw [← hfounds]
        exact List.Pairwise.filter _ (pairwise_comparedPlaces hrange hend hsorted)
      · exact hplace a (mem_of_mem_take ha) (h.sorted hsorted a ha)

/-! ## A word between the places -/

def oneByte (place : Nat) : XrefsEnv where
  mem a := if a = place then 7 else 0
  maps _ := some [⟨0x1000, 0x1010, 1⟩]
  alloc := true
  readOut _ := 16

def sevenRequest : XrefsRequest := ⟨5, 0x1000, 16, 7⟩

theorem findsReferences_iff_second : ∃ results,
    memdbgXrefs (oneByte 0x1002) sevenRequest = .found results ∧
      (FindsReferences (oneByte 0x1002) sevenRequest [⟨0x1000, 0x1010, 1⟩] results ↔
        Covered (oneByte 0x1002) sevenRequest [⟨0x1000, 0x1010, 1⟩]) :=
  findsReferences_iff (oneByte 0x1002) sevenRequest rfl rfl (by decide) (by decide) (by decide)

theorem not_findsReferences_third : memdbgXrefs (oneByte 0x1003) sevenRequest = .found [] ∧
    references (oneByte 0x1003) sevenRequest [⟨0x1000, 0x1010, 1⟩] = [0x1003] ∧
      ¬ FindsReferences (oneByte 0x1003) sevenRequest [⟨0x1000, 0x1010, 1⟩] [] := by
  have hrefs : references (oneByte 0x1003) sevenRequest [⟨0x1000, 0x1010, 1⟩] = [0x1003] := by
    decide
  refine ⟨by decide, hrefs, fun h => ?_⟩
  have hmem := h.complete (by decide) 0x1003 (by rw [hrefs]; exact mem_cons_self)
  exact absurd hmem not_mem_nil

end MemDbg.Debug
