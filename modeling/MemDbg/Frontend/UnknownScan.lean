import MemDbg.Daemon.DebugHandlers
import MemDbg.Frontend.LockRound
import MemDbg.Frontend.Refine
import MemDbg.Scan.Unknown
import Mathlib.Data.List.Destutter

/-!
# The unknown-value scan of the shell

The shell cuts the maps of a process into units that fit one request
(`build_unknown_scan_units`) and asks the daemon for them one after the other.  Two
units of a map overlap by one byte less than a value, so that each value lies in
exactly one of them.  What the worker collects are the first candidates of the whole
window in the order of their addresses (`scanUnknownProcess_first`).
-/

namespace MemDbg.Frontend

open List
open Scan hiding ScanResult
open Lib
open Refine (ScanResult)
open Daemon.Dispatch (Config scanUnknownLimit scanResponseLimit)

/-! ## The plan -/

structure UnknownScanUnit where
  start : Nat
  endAddr : Nat
deriving DecidableEq

def planMap (valueSize unitBudget endAddr cursor : Nat) : Option (List UnknownScanUnit) :=
  if endAddr - cursor < valueSize then some []
  else
    let unitEnd := if unitBudget < endAddr - cursor then cursor + unitBudget else endAddr
    if unitEnd = endAddr then some [⟨cursor, unitEnd⟩]
    else
      let next := unitEnd - (valueSize - 1)
      if next ≤ cursor then none
      else (planMap valueSize unitBudget endAddr next).map (⟨cursor, unitEnd⟩ :: ·)
termination_by endAddr - cursor
decreasing_by
  rename_i hend hnext
  by_cases hcut : unitBudget < endAddr - cursor
  · have hunit : unitEnd = cursor + unitBudget := dif_pos hcut
    show endAddr - next < endAddr - cursor
    omega
  · exact absurd (dif_neg hcut) hend

def unitRange (filterStart filterEnd valueSize : Nat) (map : MapEntry) : Option (Nat × Nat) :=
  if map.protection &&& mapProtRead = 0 ∨ map.endAddr ≤ map.start then none
  else
    let start := max map.start filterStart
    let stop := if filterEnd ≠ 0 then min map.endAddr filterEnd else map.endAddr
    if stop ≤ start ∨ stop - start < valueSize then none else some (start, stop)

def planMaps (filterStart filterEnd valueSize unitBudget : Nat) :
    List MapEntry → Except String (List UnknownScanUnit)
  | [] => .ok []
  | map :: maps =>
    match unitRange filterStart filterEnd valueSize map with
    | none => planMaps filterStart filterEnd valueSize unitBudget maps
    | some (start, stop) =>
      match planMap valueSize unitBudget stop start with
      | none => .error "unknown-scan unit planning did not advance"
      | some units =>
        (planMaps filterStart filterEnd valueSize unitBudget maps).map (units ++ ·)

def buildUnknownScanUnits (maps : List MapEntry)
    (filterStart filterEnd valueSize unitBudget : Nat) : Except String (List UnknownScanUnit) :=
  if valueSize = 0 ∨ unitBudget < valueSize ∨ unitBudget > scanUnknownMaxUnitBytes then
    .error "invalid unknown-scan unit budget"
  else if filterEnd ≠ 0 ∧ filterEnd ≤ filterStart then
    .error "invalid unknown-scan address window"
  else planMaps filterStart filterEnd valueSize unitBudget (sortByStart maps)

/-! ## The worker -/

def currentScanValueLen : ValueType → Option Nat → Nat
  | .u8, _ => 1
  | .u16, _ => 2
  | .u32, _ | .f32, _ => 4
  | .u64, _ | .f64, _ | .pointer, _ => 8
  | .bytes, some n => n
  | _, _ => 1

structure UnknownScanForm where
  pid : Int
  valueType : ValueType
  entered : Option Nat
  alignment : Int
  maxResults : Int
  nonzeroPrefilter : Bool
  start : Nat
  endAddr : Nat

def UnknownScanForm.request (form : UnknownScanForm) : UnknownRequest where
  abiMagic := scanUnknownAbiMagic
  abiVersion := scanUnknownAbiVersion
  structSize := scanUnknownRequestSize
  flags := if form.nonzeroPrefilter then scanUnknownFlagNonzero else 0
  pid := form.pid
  valueType := form.valueType
  valueLength := currentScanValueLen form.valueType form.entered
  alignment := (max form.alignment 1).toNat
  maxResults := min (max 1 (min form.maxResults 50000)).toNat scanUnknownResultLimit
  protectionMask := mapProtRead
  reserved := 0
  start := form.start
  endAddr := form.endAddr
  maxBytes := scanUnknownMaxUnitBytes

def unitRequest (request : UnknownRequest) (unit : UnknownScanUnit) (remaining : Nat) :
    UnknownRequest :=
  { request with
    start := unit.start
    endAddr := unit.endAddr
    maxBytes := unit.endAddr - unit.start
    maxResults := remaining }

structure UnitTurn where
  cancelled : Bool
  daemon : World
  cfg : Config
  cancelledAfter : Bool
  lastError : String

/-- `Client::scan_unknown`: the result of `memdbg_scan_unknown` for the request as
`handle_scan_unknown_body` has capped it.  The second try with the older command is for daemons
that do not know this one, and left out. -/
def clientScanUnknown (w : World) (cfg : Config) (request : UnknownRequest) : Option ScanResult :=
  match memdbgScanUnknown w
      { request with maxResults := scanUnknownLimit cfg request.maxResults } .zero with
  | some (.ok, out) => some {
      count := out.count
      truncated := out.truncated
      cancelled := out.cancelled
      bytesScanned := out.bytesScanned
      elapsedNs := out.elapsedNs
      readCalls := out.readCalls
      regionsScanned := out.regionsScanned
      readErrors := out.readErrors
      addresses := out.reported }
  | _ => none

def addSat (width dst value : Nat) : Nat := min (dst + value) (2 ^ width - 1)

def pushUnseen (addresses : List Nat) (a : Nat) : List Nat :=
  if a ∈ addresses then addresses else addresses ++ [a]

def Refine.ScanResult.addPart (aggregate part : ScanResult) : ScanResult :=
  { aggregate with
    bytesScanned := addSat 64 aggregate.bytesScanned part.bytesScanned
    elapsedNs := addSat 64 aggregate.elapsedNs part.elapsedNs
    readCalls := addSat 32 aggregate.readCalls part.readCalls
    regionsScanned := addSat 32 aggregate.regionsScanned part.regionsScanned
    readErrors := addSat 32 aggregate.readErrors part.readErrors
    addresses := part.addresses.foldl pushUnseen aggregate.addresses }

inductive UnknownOutcome where
  | failed (message : String)
  | preserved
  | collected (aggregate : ScanResult)

def scanUnits (request : UnknownRequest) (turn : Nat → UnitTurn) :
    Nat → List UnknownScanUnit → ScanResult → UnknownOutcome
  | _, [], aggregate => .collected aggregate
  | i, unit :: units, aggregate =>
    if (turn i).cancelled then .preserved
    else
      let remaining := if aggregate.addresses.length < request.maxResults
        then request.maxResults - aggregate.addresses.length else 0
      if remaining = 0 then .collected { aggregate with truncated := true }
      else match clientScanUnknown (turn i).daemon (turn i).cfg
          (unitRequest request unit remaining) with
        | none =>
          if (turn i).cancelledAfter then .preserved
          else .failed
            ("Unknown scan unit " ++ hexU64 unit.start ++ ": " ++ (turn i).lastError)
        | some part =>
          if (aggregate.addPart part).addresses.length ≥ request.maxResults then
            .collected { aggregate.addPart part with truncated := true }
          else scanUnits request turn (i + 1) units (aggregate.addPart part)

def Refine.ScanResult.empty : ScanResult := ⟨0, false, false, 0, 0, 0, 0, 0, []⟩

def Refine.ScanResult.sortUnique (r : ScanResult) : ScanResult :=
  let addresses := (r.addresses.mergeSort (· ≤ ·)).destutter (· ≠ ·)
  { r with addresses := addresses, count := addresses.length }

def scanUnknownProcess (maps : List MapEntry) (turn : Nat → UnitTurn) (request : UnknownRequest) :
    UnknownOutcome :=
  match buildUnknownScanUnits maps request.start request.endAddr request.valueLength
      scanUnknownMaxUnitBytes with
  | .error message => .failed message
  | .ok units =>
    match scanUnits request turn 0 units .empty with
    | .collected aggregate => .collected aggregate.sortUnique
    | outcome => outcome

/-! ## The plan covers every value once -/

def UnknownScanUnit.slot (valueSize : Nat) (unit : UnknownScanUnit) : Nat × Nat :=
  (unit.start, unit.endAddr - (valueSize - 1))

structure UnknownScanUnit.Within (valueSize unitBudget start stop : Nat)
    (unit : UnknownScanUnit) : Prop where
  start_le : start ≤ unit.start
  le_stop : unit.endAddr ≤ stop
  size_le : valueSize ≤ unit.endAddr - unit.start
  le_budget : unit.endAddr - unit.start ≤ unitBudget

section Plan

variable {valueSize unitBudget start stop filterStart filterEnd : Nat}
  {units : List UnknownScanUnit} {map : MapEntry} {maps : List MapEntry}

theorem planMap_span (hpos : 0 < valueSize) (hbudget : valueSize ≤ unitBudget)
    (hlen : valueSize ≤ stop - start) :
    ∃ units, planMap valueSize unitBudget stop start = some units ∧
      Span start (units.map (·.slot valueSize)) (stop - (valueSize - 1)) ∧
      ∀ unit ∈ units, unit.Within valueSize unitBudget start stop := by
  induction hrest : stop - start using Nat.strong_induction_on generalizing start with
  | _ rest ih =>
    rw [planMap, if_neg (by omega)]
    by_cases hcut : unitBudget < stop - start
    · have hnext : valueSize ≤ stop - (start + unitBudget - (valueSize - 1)) := by omega
      obtain ⟨units, hunits, hspan, hwithin⟩ := ih _ (by omega) hnext rfl
      simp only [if_pos hcut]
      rw [if_neg (by omega), if_neg (by omega), hunits]
      refine ⟨_, rfl, .cons (show start < start + unitBudget - (valueSize - 1) by omega) hspan,
        forall_mem_cons.mpr ⟨?_, ?_⟩⟩
      · exact ⟨Nat.le_refl _, by dsimp only; omega, by dsimp only; omega, by dsimp only; omega⟩
      · intro unit hunit
        obtain ⟨hstart, hstop, hsize, hle⟩ := hwithin unit hunit
        exact ⟨by omega, hstop, hsize, hle⟩
    · simp only [if_neg hcut, if_true]
      refine ⟨_, rfl, .cons (show start < stop - (valueSize - 1) by omega) (.nil _),
        forall_mem_singleton.mpr ?_⟩
      exact ⟨Nat.le_refl _, Nat.le_refl _, hlen, Nat.le_of_not_lt hcut⟩

theorem unitRange_bounds (h : unitRange filterStart filterEnd valueSize map = some (start, stop)) :
    map.start ≤ start ∧ stop ≤ map.endAddr ∧ valueSize ≤ stop - start ∧ start < stop := by
  unfold unitRange at h
  dsimp only at h
  split_ifs at h <;> cases h <;> omega

theorem planMaps_flatMap {found : UnknownScanUnit → List Nat} {p : MapEntry → Nat → Bool}
    (hpos : 0 < valueSize) (hbudget : valueSize ≤ unitBudget)
    (hplan : planMaps filterStart filterEnd valueSize unitBudget maps = .ok units)
    (hfound : ∀ map ∈ maps, ∀ start stop,
      unitRange filterStart filterEnd valueSize map = some (start, stop) →
      ∀ unit : UnknownScanUnit, unit.Within valueSize unitBudget start stop →
      found unit = hits (p map) unit.start (unit.endAddr - (valueSize - 1) - unit.start)) :
    units.flatMap found = maps.flatMap (fun map =>
      match unitRange filterStart filterEnd valueSize map with
      | none => []
      | some (start, stop) => hits (p map) start (stop - (valueSize - 1) - start)) ∧
    ∀ unit ∈ units, ∃ map ∈ maps, ∃ start stop,
      unitRange filterStart filterEnd valueSize map = some (start, stop) ∧
      unit.Within valueSize unitBudget start stop := by
  induction maps generalizing units with
  | nil =>
    cases hplan
    exact ⟨rfl, fun unit hunit => absurd hunit not_mem_nil⟩
  | cons map maps ih =>
    obtain ⟨hmap, hmaps⟩ := forall_mem_cons.mp hfound
    rw [planMaps] at hplan
    rw [flatMap_cons]
    cases hrange : unitRange filterStart filterEnd valueSize map with
    | none =>
      rw [hrange] at hplan
      obtain ⟨hall, hmem⟩ := ih hplan hmaps
      refine ⟨hall, fun unit hunit => ?_⟩
      obtain ⟨map', hmap', hunit'⟩ := hmem unit hunit
      exact ⟨map', mem_cons_of_mem _ hmap', hunit'⟩
    | some range =>
      obtain ⟨start, stop⟩ := range
      obtain ⟨first, hfirst, hspan, hwithin⟩ :=
        planMap_span hpos hbudget (unitRange_bounds hrange).2.2.1
      rw [hrange] at hplan
      dsimp only at hplan ⊢
      rw [hfirst] at hplan
      cases hrest : planMaps filterStart filterEnd valueSize unitBudget maps with
      | error message => rw [hrest] at hplan; cases hplan
      | ok rest =>
        rw [hrest] at hplan
        cases hplan
        obtain ⟨hall, hmem⟩ := ih hrest hmaps
        refine ⟨?_, fun unit hunit => ?_⟩
        · rw [flatMap_append, hall,
            ← hspan.flatMap_hits (p := fun _ => p map) fun _ _ _ _ _ => rfl, flatMap_map]
          congr 1
          exact flatMap_congr fun unit hunit =>
            hmap start stop hrange unit (hwithin unit hunit)
        · rcases mem_append.mp hunit with hunit | hunit
          · exact ⟨map, mem_cons_self, start, stop, hrange, hwithin unit hunit⟩
          · obtain ⟨map', hmap', hunit'⟩ := hmem unit hunit
            exact ⟨map', mem_cons_of_mem _ hmap', hunit'⟩

end Plan

/-! ## The daemon on one unit -/

/-- Two maps without a common address. -/
def Apart (map map' : MapEntry) : Prop :=
  map.endAddr ≤ map'.start ∨ map'.endAddr ≤ map.start

section Unit

variable {valueSize filterStart filterEnd start stop : Nat} {map : MapEntry}

theorem clip_filter {request : UnknownRequest} (hmask : request.protectionMask = mapProtRead) :
    (request.filter valueSize).clip map =
      (unitRange request.start request.endAddr valueSize map).map fun r => (r.1, r.2 - r.1) := by
  have hfilter : request.filter valueSize = ⟨1, request.start, request.endAddr, valueSize⟩ := by
    rw [UnknownRequest.filter, hmask]
    rfl
  rw [hfilter]
  unfold MapFilter.clip unitRange
  simp only [show mapProtRead = 1 from rfl, Nat.and_one_is_mod]
  split_ifs <;> simp only [Option.map_none, Option.map_some, reduceCtorEq, Option.some.injEq,
    Prod.mk.injEq] <;> omega

theorem unitRange_self {unit : UnknownScanUnit} {unitBudget : Nat} (hpos : 0 < valueSize)
    (h : unitRange filterStart filterEnd valueSize map = some (start, stop))
    (hunit : unit.Within valueSize unitBudget start stop) :
    unitRange unit.start unit.endAddr valueSize map = some (unit.start, unit.endAddr) := by
  obtain ⟨hstart, hstop, -, -⟩ := unitRange_bounds h
  obtain ⟨hlo, hhi, hsize, -⟩ := hunit
  have hread : ¬(map.protection &&& mapProtRead = 0 ∨ map.endAddr ≤ map.start) := by
    intro hskip
    rw [unitRange, if_pos hskip] at h
    cases h
  have hend : unit.endAddr ≠ 0 := by omega
  simp only [unitRange, if_neg hread, if_pos hend]
  rw [Nat.max_eq_right (Nat.le_trans hstart hlo), Nat.min_eq_right (Nat.le_trans hhi hstop)]
  exact if_neg (by omega)

theorem unitRange_other {map' : MapEntry} {unit : UnknownScanUnit} {unitBudget : Nat}
    (hpos : 0 < valueSize)
    (h : unitRange filterStart filterEnd valueSize map = some (start, stop))
    (hunit : unit.Within valueSize unitBudget start stop) (hapart : Apart map map') :
    unitRange unit.start unit.endAddr valueSize map' = none := by
  obtain ⟨hstart, hstop, -, -⟩ := unitRange_bounds h
  obtain ⟨hlo, hhi, hsize, -⟩ := hunit
  unfold unitRange
  unfold Apart at hapart
  dsimp only
  split_ifs <;> first | rfl | omega

end Unit

section Alone

variable {env : Env} {uc : UnknownScanContext} {w : World} {request : UnknownRequest}
  {before after : List MapEntry} {map : MapEntry} {start len : Nat} {mem : Nat → UInt8}

theorem reported_cutIf (b : ScanBuilder) (cut : Bool) :
    (b.cutIf cut).result.reported = b.stored := by
  cases cut <;> rfl

theorem unknownMapLoop_alone {b b₁ : ScanBuilder}
    (hbefore : ∀ m ∈ before, (request.filter uc.valueLen).clip m = none)
    (hclip : (request.filter uc.valueLen).clip map = some (start, len))
    (hrange : scanUnknownRange env uc request.pid start len map.start b.countRegion =
      (.ok, b₁)) :
    unknownMapLoop env uc request (before ++ map :: after) len b =
      (.ok, b₁.cutIf (decide (after ≠ []))) := by
  have hfilter : (⟨request.protectionMask ||| mapProtRead, request.start, request.endAddr,
      uc.valueLen⟩ : MapFilter) = request.filter uc.valueLen := rfl
  induction before with
  | nil =>
    have hmin : uc.valueLen ≤ len := (clip_bounds hclip).2.2.2
    rw [nil_append, unknownMapLoop, hfilter, hclip]
    dsimp only
    rw [if_neg (Nat.not_lt.mpr hmin)]
    simp only [Nat.lt_irrefl, if_false, Nat.sub_self, if_true, or_false,
      ScanBuilder.if_setTruncated, hrange]
  | cons m before ih =>
    obtain ⟨hm, hbefore⟩ := forall_mem_cons.mp hbefore
    rw [cons_append, unknownMapLoop, hfilter, hm]
    exact ih hbefore

theorem memdbgScanUnknown_alone {out₀ out : Scan.ScanResult} (hal : request.alignment < 2 ^ 32)
    (hmaps : sortByStart (w.mapsOf request.pid) = before ++ map :: after)
    (hbefore : ∀ m ∈ before, (request.filter request.valueLen).clip m = none)
    (hclip : (request.filter request.valueLen).clip map = some (start, len))
    (hbytes : request.maxBytes = len) (hend : map.endAddr < 2 ^ 64)
    (hreads : ShortReads w.env request.pid mem start (start + len))
    (hrun : memdbgScanUnknown w request out₀ = some (.ok, out)) :
    out.reported = (hits (unknownHit mem request.context map.start) start
      (len + 1 - request.valueLen)).take
        (min (requestLimit request.maxResults) scanUnknownResultLimit) := by
  rcases memdbgScanUnknown_cases hrun with
    ⟨hst, -⟩ | ⟨-, hlen, hmax, b, startNs, endNs, hloop, rfl⟩
  · exact absurd rfl hst
  rw [ScanResult.reported_setElapsed]
  have hready : (ScanBuilder.init .zero
      (min (requestLimit request.maxResults) scanUnknownResultLimit)).tick.Ready w.env.freeHeap :=
    ⟨⟨.inl ⟨rfl, rfl⟩, Nat.le_refl _, Nat.zero_le _,
      Nat.lt_of_le_of_lt (Nat.min_le_right _ _) (by decide)⟩, .inr fun _ => rfl⟩
  have hstride : 0 < request.context.alignment ∧ request.context.alignment < 2 ^ 32 := by
    dsimp only [UnknownRequest.context]
    split_ifs
    · exact ⟨hlen.1, Nat.lt_of_le_of_lt hlen.2 (by decide)⟩
    · exact ⟨Nat.pos_of_ne_zero ‹_›, hal⟩
  obtain ⟨hstart, hstop, hpos, hmin⟩ := clip_bounds hclip
  have hbounds : scanBoundsValid start len request.context.valueLen = true :=
    scanBoundsValid_iff.mpr ⟨hpos, hmin, Nat.le_trans (hbytes ▸ hmax) (by decide), by omega⟩
  have hreads : ShortReads w.env.freeHeap request.pid mem start (start + len) := hreads
  obtain ⟨b₁, hrange, hgrew⟩ := scanUnknownRange_grew hlen.1 hstride.1 hstride.2 hstart hbounds
    hreads ((SameHits.countRegion _).ready hready)
  have hloop := unknownMapLoop_freeHeap hloop
  rw [hmaps, hbytes, unknownMapLoop_alone hbefore hclip hrange] at hloop
  obtain rfl := (Prod.mk.inj hloop).2
  rw [reported_cutIf]
  exact (((SameHits.countRegion _).grew hready.toValid).of_nil_left hgrew).stored_eq

end Alone

/-! ## The candidates of the window -/

section Window

variable {w : World} {request : UnknownRequest} {unit : UnknownScanUnit} {maps : List MapEntry}
  {map : MapEntry} {start stop filterStart filterEnd remaining : Nat} {mem : Nat → UInt8}

def windowCandidates (mem : Nat → UInt8) (request : UnknownRequest) (maps : List MapEntry)
    (filterStart filterEnd : Nat) : List Nat :=
  maps.flatMap fun map =>
    match unitRange filterStart filterEnd request.valueLen map with
    | none => []
    | some (start, stop) =>
      hits (unknownHit mem request.context map.start) start (stop - (request.valueLen - 1) - start)

theorem unknownCandidates_eq (hmask : request.protectionMask = mapProtRead)
    (hpos : 0 < request.valueLen) :
    unknownCandidates mem request.context (request.filter request.valueLen) maps =
      windowCandidates mem request maps request.start request.endAddr := by
  refine flatMap_congr fun map _ => ?_
  rw [clip_filter hmask]
  cases hrange : unitRange request.start request.endAddr request.valueLen map with
  | none => rfl
  | some range =>
    have hlt := (unitRange_bounds hrange).2.2
    show hits _ range.1 (range.2 - range.1 + 1 - request.valueLen) = hits _ range.1 _
    congr 1
    omega

theorem windowCandidates_unit {unitBudget : Nat} (hpos : 0 < request.valueLen)
    {before after : List MapEntry} (hapart : (before ++ map :: after).Pairwise Apart)
    (hrange : unitRange filterStart filterEnd request.valueLen map = some (start, stop))
    (hunit : unit.Within request.valueLen unitBudget start stop) :
    (∀ m ∈ before, unitRange unit.start unit.endAddr request.valueLen m = none) ∧
    windowCandidates mem request (before ++ map :: after) unit.start unit.endAddr =
      hits (unknownHit mem request.context map.start) unit.start
        (unit.endAddr - (request.valueLen - 1) - unit.start) := by
  obtain ⟨-, hmap, hcross⟩ := pairwise_append.mp hapart
  have hbefore : ∀ m ∈ before, unitRange unit.start unit.endAddr request.valueLen m = none :=
    fun m hm => unitRange_other hpos hrange hunit (hcross m hm map mem_cons_self).symm
  have hafter : ∀ m ∈ after, unitRange unit.start unit.endAddr request.valueLen m = none :=
    fun m hm => unitRange_other hpos hrange hunit (rel_of_pairwise_cons hmap hm)
  refine ⟨hbefore, ?_⟩
  rw [windowCandidates, flatMap_append, flatMap_cons,
    unitRange_self hpos hrange hunit, flatMap_eq_nil_iff.mpr fun m hm => by rw [hbefore m hm],
    flatMap_eq_nil_iff.mpr fun m hm => by rw [hafter m hm], append_nil, nil_append]

theorem pairwise_sortByStart (maps : List MapEntry) :
    (sortByStart maps).Pairwise fun m m' => m.start ≤ m'.start := by
  refine (pairwise_mergeSort ?_ ?_ maps).imp fun {m m'} h => ?_
  · intro a b c hab hbc
    simp only [decide_eq_true_eq] at *
    omega
  · intro a b
    simp only [Bool.or_eq_true, decide_eq_true_eq]
    omega
  · simp only [decide_eq_true_eq] at h
    omega

theorem pairwise_windowCandidates (hpos : 0 < request.valueLen)
    (hsorted : maps.Pairwise fun m m' => m.start ≤ m'.start) (hapart : maps.Pairwise Apart) :
    (windowCandidates mem request maps filterStart filterEnd).Pairwise (· < ·) := by
  rw [windowCandidates, pairwise_flatMap]
  refine ⟨fun m _ => ?_, (hsorted.and hapart).imp fun {m m'} h x hx y hy => ?_⟩
  · split
    · exact .nil
    · exact pairwise_hits _ _
  · split at hx
    · exact absurd hx not_mem_nil
    · rename_i start stop hrange
      split at hy
      · exact absurd hy not_mem_nil
      · rename_i start' stop' hrange'
        have hb := unitRange_bounds hrange
        have hb' := unitRange_bounds hrange'
        have hx := (mem_hits.mp hx).1
        have hy := (mem_hits.mp hy).1
        have happart : m.endAddr ≤ m'.start ∨ m'.endAddr ≤ m.start := h.2
        omega

theorem scanUnknownLimit_eq {cfg : Config} {n : Nat} (hpos : 0 < n)
    (hresponse : n ≤ scanResponseLimit)
    (hcfg : n ≤ cfg.maxScanResults) : scanUnknownLimit cfg n = n := by
  have hlimit : scanResponseLimit ≤ 1024 * 1024 / 8 := by decide
  rw [scanUnknownLimit, if_neg]
  rw [Nat.min_eq_left hlimit]
  omega

theorem clientScanUnknown_unit {cfg : Config} {part : ScanResult} (hal : request.alignment < 2 ^ 32)
    (hmask : request.protectionMask = mapProtRead) (hpos : 0 < request.valueLen)
    (hapart : maps.Pairwise Apart) (hmap : map ∈ maps) (hmaps : w.mapsOf request.pid = maps)
    (hreads : ReadableMaps w.env request.pid mem (request.filter request.valueLen) maps)
    (hrange : unitRange request.start request.endAddr request.valueLen map = some (start, stop))
    (hunit : unit.Within request.valueLen scanUnknownMaxUnitBytes start stop)
    (hremaining : 0 < remaining ∧ remaining ≤ scanResponseLimit ∧ remaining ≤ cfg.maxScanResults)
    (hrun : clientScanUnknown w cfg (unitRequest request unit remaining) = some part) :
    part.addresses = (windowCandidates mem request (sortByStart maps) unit.start
      unit.endAddr).take remaining := by
  obtain ⟨hleft, hresponse, hcfg⟩ := hremaining
  have hsame : ({ unitRequest request unit remaining with
      maxResults := scanUnknownLimit cfg remaining } : UnknownRequest) =
        unitRequest request unit remaining := by
    rw [scanUnknownLimit_eq hleft hresponse hcfg]
    rfl
  unfold clientScanUnknown at hrun
  split at hrun
  · rename_i out hout
    cases hrun
    replace hout : memdbgScanUnknown w (unitRequest request unit remaining) .zero =
        some (.ok, out) := hsame ▸ hout
    have hperm : (sortByStart maps).Perm maps := mergeSort_perm _ _
    obtain ⟨before, after, hsplit⟩ := append_of_mem (hperm.mem_iff.mpr hmap)
    have hapart' : (sortByStart maps).Pairwise Apart :=
      (hperm.pairwise_iff fun {_ _} h => h.symm).mpr hapart
    rw [hsplit] at hapart' ⊢
    obtain ⟨hbefore, hwindow⟩ := windowCandidates_unit hpos hapart' hrange hunit
    obtain ⟨hstart, hstop, hsize, hlt⟩ := unitRange_bounds hrange
    obtain ⟨hlo, hhi, hlen, hbudget⟩ := hunit
    have hclips : ∀ m, ((unitRequest request unit remaining).filter request.valueLen).clip m =
        (unitRange unit.start unit.endAddr request.valueLen m).map fun r => (r.1, r.2 - r.1) :=
      fun m => clip_filter hmask
    have hread : ShortReads w.env request.pid mem unit.start
        (unit.start + (unit.endAddr - unit.start)) := by
      refine ((hreads map hmap).2 start (stop - start) ?_).mono hlo (by omega)
      rw [clip_filter hmask, hrange]
      rfl
    have hreported : out.reported = (hits
        (unknownHit mem (unitRequest request unit remaining).context map.start) unit.start
        (unit.endAddr - unit.start + 1 - request.valueLen)).take
          (min (requestLimit remaining) scanUnknownResultLimit) := by
      have hal : (unitRequest request unit remaining).alignment < 2 ^ 32 := hal
      refine memdbgScanUnknown_alone hal (hmaps ▸ hsplit) (fun m hm => ?_) ?_ rfl
        (hreads map hmap).1 hread hout
      · exact (hclips m).trans (by rw [hbefore m hm]; rfl)
      · exact (hclips map).trans (by rw [unitRange_self hpos hrange ⟨hlo, hhi, hlen, hbudget⟩]; rfl)
    have hlimit : min (requestLimit remaining) scanUnknownResultLimit = remaining := by
      rw [requestLimit, if_neg (Nat.ne_of_gt hleft)]
      exact Nat.min_eq_left (Nat.le_trans hresponse (by decide))
    rw [hwindow, show unit.endAddr - (request.valueLen - 1) - unit.start =
      unit.endAddr - unit.start + 1 - request.valueLen by omega]
    rw [hlimit] at hreported
    exact hreported
  · cases hrun

end Window

/-! ## The whole scan -/

theorem foldl_pushUnseen {addresses part : List Nat} (h : (addresses ++ part).Nodup) :
    part.foldl pushUnseen addresses = addresses ++ part := by
  induction part generalizing addresses with
  | nil => exact (append_nil _).symm
  | cons a part ih =>
    have ha : a ∉ addresses := fun ha =>
      (nodup_append.mp h).2.2 a ha a mem_cons_self rfl
    rw [append_cons] at h ⊢
    rw [foldl_cons, pushUnseen, if_neg ha]
    exact ih h

theorem sortUnique_eq {r : ScanResult} (h : r.addresses.Pairwise (· < ·)) :
    r.sortUnique.addresses = r.addresses ∧ r.sortUnique.truncated = r.truncated := by
  refine ⟨?_, rfl⟩
  have hle : r.addresses.Pairwise fun a b => decide (a ≤ b) = true :=
    h.imp fun hab => decide_eq_true (Nat.le_of_lt hab)
  have hne : r.addresses.IsChain (· ≠ ·) := (h.imp Nat.ne_of_lt).isChain
  show (r.addresses.mergeSort (· ≤ ·)).destutter (· ≠ ·) = r.addresses
  rw [mergeSort_of_pairwise hle, destutter_of_isChain _ _ hne]

theorem scanUnits_first {request : UnknownRequest} {turn : Nat → UnitTurn}
    {found : UnknownScanUnit → List Nat} {i : Nat} {units : List UnknownScanUnit}
    {aggregate result : ScanResult}
    (hanswer : ∀ unit ∈ units, ∀ j remaining part,
      0 < remaining ∧ remaining ≤ request.maxResults →
      clientScanUnknown (turn j).daemon (turn j).cfg (unitRequest request unit remaining) =
        some part →
      part.addresses = (found unit).take remaining)
    (hsorted : (aggregate.addresses ++ units.flatMap found).Pairwise (· < ·))
    (hroom : aggregate.addresses.length < request.maxResults) (hwhole : aggregate.truncated = false)
    (hrun : scanUnits request turn i units aggregate = .collected result) :
    result.addresses = (aggregate.addresses ++ units.flatMap found).take request.maxResults ∧
      result.truncated =
        decide (request.maxResults ≤ (aggregate.addresses ++ units.flatMap found).length) := by
  induction units generalizing i aggregate with
  | nil =>
    cases hrun
    rw [flatMap_nil, append_nil, take_of_length_le (Nat.le_of_lt hroom), hwhole,
      decide_eq_false (Nat.not_le.mpr hroom)]
    exact ⟨rfl, rfl⟩
  | cons unit units ih =>
    obtain ⟨hunit, hunits⟩ := forall_mem_cons.mp hanswer
    rw [flatMap_cons, ← append_assoc] at hsorted ⊢
    rw [scanUnits] at hrun
    simp only [if_pos hroom, Nat.sub_eq_zero_iff_le, if_neg (Nat.not_le.mpr hroom)] at hrun
    split at hrun
    · cases hrun
    · split at hrun
      · split at hrun <;> cases hrun
      · rename_i part hpart
        have hfirst := hunit i _ part (by omega) hpart
        -- what the answer holds is new
        have hadd : (aggregate.addPart part).addresses =
            (aggregate.addresses ++ found unit).take request.maxResults := by
          have hnodup : (aggregate.addresses ++ part.addresses).Nodup := by
            refine ((pairwise_append.mp hsorted).1.imp Nat.ne_of_lt).sublist ?_
            rw [hfirst]
            exact (List.Sublist.refl _).append (take_sublist _ _)
          rw [take_append, take_of_length_le (Nat.le_of_lt hroom), ← hfirst]
          exact foldl_pushUnseen hnodup
        split at hrun
        · rename_i hfull
          rw [hadd, length_take] at hfull
          cases hrun
          rw [take_append_of_le_length (by omega), decide_eq_true]
          · exact ⟨hadd, rfl⟩
          · rw [length_append]
            omega
        · rename_i hroom'
          rw [hadd, length_take] at hroom'
          rw [take_of_length_le (by omega)] at hadd
          rw [← hadd] at hsorted ⊢
          refine ih hunits hsorted ?_ hwhole hrun
          rw [hadd]
          omega

theorem expectedValueLength_current (valueType : ValueType) (entered : Option Nat) :
    expectedValueLength valueType (currentScanValueLen valueType entered) =
      currentScanValueLen valueType entered := by
  cases valueType <;> cases entered <;> rfl

/-- **The unknown-value scan of the shell.**  Over maps that lie apart and can be read, a scan
that is not cancelled and does not fail collects the first candidates of the window
in the order of their addresses, and `truncated` is set if and only if they are as
many as were asked for, if the daemon is not configured to find fewer. -/
theorem scanUnknownProcess_first {form : UnknownScanForm} {maps : List MapEntry}
    {turn : Nat → UnitTurn} {mem : Nat → UInt8} {aggregate : ScanResult}
    (halign : form.alignment < 2 ^ 31) (hapart : maps.Pairwise Apart)
    (hmaps : ∀ i, (turn i).daemon.mapsOf form.pid = maps)
    (hcfg : ∀ i, form.request.maxResults ≤ (turn i).cfg.maxScanResults)
    (hreads : ∀ i, ReadableMaps (turn i).daemon.env form.pid mem
      (form.request.filter form.request.valueLen) maps)
    (hrun : scanUnknownProcess maps turn form.request = .collected aggregate) :
    ∃ candidates : List Nat, candidates.Pairwise (· < ·) ∧
      (∀ a, a ∈ candidates ↔ ∃ map ∈ maps, UnknownCandidate mem form.request map a) ∧
      aggregate.addresses = candidates.take form.request.maxResults ∧
      aggregate.truncated = decide (form.request.maxResults ≤ candidates.length) := by
  have hlen : form.request.valueLen = form.request.valueLength := expectedValueLength_current _ _
  have hal : form.request.alignment < 2 ^ 32 := by
    show (max form.alignment 1).toNat < 2 ^ 32
    omega
  have hmax : 0 < form.request.maxResults ∧ form.request.maxResults ≤ scanResponseLimit := by
    have hrequest : form.request.maxResults =
        min (max 1 (min form.maxResults 50000)).toNat scanUnknownResultLimit := rfl
    have hpositive : 0 < scanUnknownResultLimit := by decide
    have hresponse : scanResponseLimit = 50000 := by decide
    omega
  have hperm : (sortByStart maps).Perm maps := mergeSort_perm _ _
  have hapart' : (sortByStart maps).Pairwise Apart :=
    (hperm.pairwise_iff fun {_ _} h => h.symm).mpr hapart
  unfold scanUnknownProcess buildUnknownScanUnits at hrun
  rw [← hlen] at hrun
  split at hrun
  · cases hrun
  rename_i units hplan
  split_ifs at hplan with hvalid hwindow
  have hpos : 0 < form.request.valueLen := by omega
  have hsorted : (windowCandidates mem form.request (sortByStart maps) form.request.start
      form.request.endAddr).Pairwise (· < ·) :=
    pairwise_windowCandidates hpos (pairwise_sortByStart maps) hapart'
  -- what the units find
  have hunits := planMaps_flatMap hpos (by omega) hplan
    (fun map hmap start stop hrange unit hunit => show windowCandidates mem form.request
        (sortByStart maps) unit.start unit.endAddr = _ by
      obtain ⟨before, after, hsplit⟩ := append_of_mem hmap
      rw [hsplit]
      exact (windowCandidates_unit hpos (hsplit ▸ hapart') hrange hunit).2)
  obtain ⟨hall, hmem⟩ := hunits
  rw [← windowCandidates] at hall
  split at hrun
  · rename_i collected hcollected
    cases hrun
    have hanswer : ∀ unit ∈ units, ∀ j remaining part,
        0 < remaining ∧ remaining ≤ form.request.maxResults →
        clientScanUnknown (turn j).daemon (turn j).cfg (unitRequest form.request unit remaining) =
          some part →
        part.addresses = (windowCandidates mem form.request (sortByStart maps) unit.start
          unit.endAddr).take remaining := by
      intro unit hunit j remaining part hremaining hpart
      obtain ⟨map, hmap, start, stop, hrange, hwithin⟩ := hmem unit hunit
      exact clientScanUnknown_unit hal rfl hpos hapart (hperm.mem_iff.mp hmap) (hmaps j)
        (hreads j) hrange hwithin ⟨hremaining.1, Nat.le_trans hremaining.2 hmax.2,
          Nat.le_trans hremaining.2 (hcfg j)⟩ hpart
    have hroom : Refine.ScanResult.empty.addresses.length < form.request.maxResults := hmax.1
    obtain ⟨haddresses, htruncated⟩ :=
      scanUnits_first hanswer (hall ▸ hsorted) hroom rfl hcollected
    rw [Refine.ScanResult.empty, nil_append, hall] at haddresses htruncated
    obtain ⟨hsame, hflag⟩ := sortUnique_eq (r := collected)
      (haddresses ▸ hsorted.sublist (take_sublist _ _))
    refine ⟨_, hsorted, fun a => ?_, hsame.trans haddresses, hflag.trans htruncated⟩
    rw [← unknownCandidates_eq rfl hpos, mem_unknownCandidates]
    exact exists_congr fun map => and_congr_left fun _ => hperm.mem_iff
  · rename_i hother
    exact absurd hrun (hother _)

def byteForm : UnknownScanForm := ⟨1, .u8, none, 1, 8, true, 0, 0⟩

def sevenTwice (a : Nat) : UInt8 := if a = 18 ∨ a = 34 then 7 else 0

def twoMaps : List MapEntry := [⟨32, 36, 1⟩, ⟨16, 20, 1⟩]

def twoMapsTurn (_ : Nat) : UnitTurn where
  cancelled := false
  daemon := {
    env := .readable .host sevenTwice fun _ n => n
    threads := ⟨fun _ => true, fun _ => true, id⟩
    processList := none
    processMaps _ := .ok (some twoMaps) }
  cfg := ⟨true, protocolMaxPacket, 8, 10, eight_lt_word⟩
  cancelledAfter := false
  lastError := ""

theorem sortByStart_twoMaps : sortByStart twoMaps = [⟨16, 20, 1⟩, ⟨32, 36, 1⟩] := by
  rw [sortByStart, twoMaps, List.mergeSort]
  simp [List.MergeSort.Internal.splitInTwo]

theorem buildUnknownScanUnits_twoMaps :
    buildUnknownScanUnits twoMaps 0 0 1 scanUnknownMaxUnitBytes = .ok [⟨16, 20⟩, ⟨32, 36⟩] := by
  have hfirst : planMap 1 scanUnknownMaxUnitBytes 20 16 = some [⟨16, 20⟩] := by
    rw [planMap]
    rfl
  have hsecond : planMap 1 scanUnknownMaxUnitBytes 36 32 = some [⟨32, 36⟩] := by
    rw [planMap]
    rfl
  unfold buildUnknownScanUnits
  rw [sortByStart_twoMaps, planMaps, planMaps, planMaps]
  simp only [show unitRange 0 0 1 ⟨16, 20, 1⟩ = some (16, 20) from rfl,
    show unitRange 0 0 1 ⟨32, 36, 1⟩ = some (32, 36) from rfl, hfirst, hsecond]
  rfl

theorem scanUnits_cons {request : UnknownRequest} {turn : Nat → UnitTurn} {i : Nat}
    {unit : UnknownScanUnit} {units : List UnknownScanUnit} {aggregate part : ScanResult}
    {remaining : Nat} (hturn : (turn i).cancelled = false)
    (hroom : aggregate.addresses.length < request.maxResults)
    (hremaining : request.maxResults - aggregate.addresses.length = remaining)
    (hpart : clientScanUnknown (turn i).daemon (turn i).cfg (unitRequest request unit remaining) =
      some part)
    (hrest : (aggregate.addPart part).addresses.length < request.maxResults) :
    scanUnits request turn i (unit :: units) aggregate =
      scanUnits request turn (i + 1) units (aggregate.addPart part) := by
  subst hremaining
  rw [scanUnits, if_neg (Bool.eq_false_iff.mp hturn)]
  simp only [if_pos hroom, Nat.sub_eq_zero_iff_le, if_neg (Nat.not_le.mpr hroom), hpart,
    if_neg (Nat.not_le.mpr hrest), ge_iff_le]

theorem clientScanUnknown_twoMaps (i : Nat) :
    (∃ part, clientScanUnknown (twoMapsTurn i).daemon (twoMapsTurn i).cfg
      (unitRequest byteForm.request ⟨16, 20⟩ 8) = some part ∧ part.addresses = [18]) ∧
    ∃ part, clientScanUnknown (twoMapsTurn i).daemon (twoMapsTurn i).cfg
      (unitRequest byteForm.request ⟨32, 36⟩ 7) = some part ∧ part.addresses = [34] := by
  have hsorted := sortByStart_twoMaps
  rw [sortByStart] at hsorted
  constructor
  all_goals
    unfold clientScanUnknown memdbgScanUnknown twoMapsTurn
    dsimp only
    rw [Option.getD_some, hsorted]
    exact ⟨_, rfl, rfl⟩

theorem scanUnknownProcess_twoMaps :
    ∃ aggregate,
      scanUnknownProcess twoMaps twoMapsTurn byteForm.request = .collected aggregate := by
  obtain ⟨part, hpart, hfound⟩ := (clientScanUnknown_twoMaps 0).1
  obtain ⟨part', hpart', hfound'⟩ := (clientScanUnknown_twoMaps 1).2
  have hfirst : (Refine.ScanResult.empty.addPart part).addresses = [18] := by
    rw [Refine.ScanResult.addPart, hfound]
    rfl
  have hsecond : ((Refine.ScanResult.empty.addPart part).addPart part').addresses = [18, 34] := by
    rw [Refine.ScanResult.addPart, hfirst, hfound']
    rfl
  have hrun : scanUnits byteForm.request twoMapsTurn 0 [⟨16, 20⟩, ⟨32, 36⟩] .empty =
      .collected ((Refine.ScanResult.empty.addPart part).addPart part') := by
    rw [scanUnits_cons rfl (by decide) (by decide) hpart (by rw [hfirst]; decide)]
    exact scanUnits_cons rfl (by rw [hfirst]; decide) (by rw [hfirst]; decide) hpart'
      (by rw [hsecond]; decide)
  unfold scanUnknownProcess
  rw [show buildUnknownScanUnits twoMaps byteForm.request.start byteForm.request.endAddr
    byteForm.request.valueLength scanUnknownMaxUnitBytes = _ from buildUnknownScanUnits_twoMaps]
  dsimp only
  rw [hrun]
  exact ⟨_, rfl⟩

theorem scanUnknownProcess_first_twoMaps :
    ∃ aggregate, ∃ candidates : List Nat,
      scanUnknownProcess twoMaps twoMapsTurn byteForm.request = .collected aggregate ∧
      18 ∈ candidates ∧ 34 ∈ candidates ∧ aggregate.addresses = candidates.take 8 := by
  obtain ⟨aggregate, hrun⟩ := scanUnknownProcess_twoMaps
  have hreads : ∀ i, ReadableMaps (twoMapsTurn i).daemon.env byteForm.pid sevenTwice
      (byteForm.request.filter byteForm.request.valueLen) twoMaps := by
    intro i map hmap
    refine ⟨?_, fun start len _ => shortReads_readable _ _ _ (by decide) _ _⟩
    rcases mem_pair.mp hmap with rfl | rfl
    · decide
    · decide
  have hcfg : ∀ i, byteForm.request.maxResults ≤ (twoMapsTurn i).cfg.maxScanResults := by
    intro i
    change byteForm.request.maxResults ≤ 10
    decide
  obtain ⟨candidates, -, hmem, haddresses, -⟩ := scanUnknownProcess_first (by decide)
    (pairwise_pair.mpr (.inr (by decide))) (fun _ => rfl) hcfg hreads hrun
  have hcandidate : UnknownCandidate sevenTwice byteForm.request ⟨16, 20, 1⟩ 18 :=
    ⟨⟨16, 4, by decide, by decide, by decide⟩, ⟨2, by decide⟩, fun _ => ⟨0, by decide, by decide⟩⟩
  have hcandidate' : UnknownCandidate sevenTwice byteForm.request ⟨32, 36, 1⟩ 34 :=
    ⟨⟨32, 4, by decide, by decide, by decide⟩, ⟨2, by decide⟩, fun _ => ⟨0, by decide, by decide⟩⟩
  exact ⟨aggregate, candidates, hrun, (hmem 18).mpr ⟨_, .tail _ (.head _), hcandidate⟩,
    (hmem 34).mpr ⟨_, .head _, hcandidate'⟩, haddresses⟩

end MemDbg.Frontend
