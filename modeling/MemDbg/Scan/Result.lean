import MemDbg.Core.Status
import Mathlib.Data.List.GetD
import Mathlib.Tactic.Common

/-!
# Scan results and the result builder

`memdbg_scan_result_t`, the progress counters of a tracked scan and
`scan_builder_t`, together with the environment the scanner runs against.

Whatever the outside world decides is a field of `Env`, indexed by an *instant*:
a builder carries the number of interactions so far, and each read, poll or
clock query consumes one.
-/

namespace MemDbg.Scan

open List

inductive Platform where
  | console
  | host
deriving DecidableEq

def scanChunk : Platform → Nat
  | .console => 4 * 1024 * 1024
  | .host => protocolMaxRead

def scanExactRangeChunk : Platform → Nat
  | .console => 8 * 1024 * 1024
  | .host => protocolMaxRead

inductive ReadOutcome where
  | done (bytes : List UInt8)
  | failed (st : ErrorStatus)
deriving DecidableEq

inductive AllocSite where
  | scanBuffer
  | prealloc
  | grow (capacity : Nat)
  | gsShift
  | gsSuffix
  | slots
  | partitionIndices
  | partitionBytes
  | workers
  | outEntries
  | threads
  | workerBuffer (worker : Nat)
deriving DecidableEq

structure Env where
  platform : Platform
  palRead : Nat → Nat → Nat → ReadOutcome
  alloc : AllocSite → Bool
  cancelRequested : Nat → Bool
  monotonicNs : Nat → Nat

inductive Entries where
  | null
  | owned (cells : List Nat)
  | indeterminate
deriving DecidableEq

/-- `memdbg_scan_result_t`. -/
structure ScanResult where
  entries : Entries
  count : Nat
  truncated : Bool
  cancelled : Bool
  bytesScanned : Nat
  elapsedNs : Nat
  readCalls : Nat
  regionsScanned : Nat
  readErrors : Nat
deriving DecidableEq

namespace ScanResult

def zero : ScanResult where
  entries := .null
  count := 0
  truncated := false
  cancelled := false
  bytesScanned := 0
  elapsedNs := 0
  readCalls := 0
  regionsScanned := 0
  readErrors := 0

def reported (r : ScanResult) : List Nat :=
  match r.entries with
  | .owned cells => cells.take r.count
  | _ => []

def setElapsed (r : ScanResult) (startNs endNs : Nat) : ScanResult :=
  if startNs ≠ 0 ∧ endNs ≥ startNs then { r with elapsedNs := endNs - startNs } else r

@[simp] theorem entries_setElapsed (r : ScanResult) (startNs endNs : Nat) :
    (r.setElapsed startNs endNs).entries = r.entries := by
  unfold setElapsed
  split_ifs <;> rfl

@[simp] theorem truncated_setElapsed (r : ScanResult) (startNs endNs : Nat) :
    (r.setElapsed startNs endNs).truncated = r.truncated := by
  unfold setElapsed
  split_ifs <;> rfl

@[simp] theorem bytesScanned_setElapsed (r : ScanResult) (startNs endNs : Nat) :
    (r.setElapsed startNs endNs).bytesScanned = r.bytesScanned := by
  unfold setElapsed
  split_ifs <;> rfl

@[simp] theorem count_setElapsed (r : ScanResult) (startNs endNs : Nat) :
    (r.setElapsed startNs endNs).count = r.count := by
  unfold setElapsed
  split_ifs <;> rfl

@[simp] theorem reported_setElapsed (r : ScanResult) (startNs endNs : Nat) :
    (r.setElapsed startNs endNs).reported = r.reported := by
  rw [reported, reported, entries_setElapsed, count_setElapsed]

end ScanResult

def scanResultFree (r : ScanResult) : Option ScanResult :=
  match r.entries with
  | .indeterminate => none
  | _ => some .zero

def finishScan (st : Status) (out : ScanResult) : Option (Status × ScanResult) :=
  if st ≠ .ok then (scanResultFree out).map (st, ·) else some (st, out)

structure ScanProgress where
  bytesDone : Nat
  resultsFound : Nat
  mapsDone : Nat
  readErrors : Nat
deriving DecidableEq

structure ScanBuilder where
  result : ScanResult
  capacity : Nat
  maxResults : Nat
  progress : Option ScanProgress
  now : Nat
deriving DecidableEq

def scanMetricInc (value : Nat) : Nat := if value ≠ 2 ^ 32 - 1 then value + 1 else value

namespace ScanBuilder

def stored (b : ScanBuilder) : List Nat := b.result.reported

def setTruncated (b : ScanBuilder) : ScanBuilder :=
  { b with result := { b.result with truncated := true } }

def noteFound (b : ScanBuilder) : ScanBuilder :=
  { b with progress := b.progress.map fun p =>
    { p with resultsFound := wrap64 (p.resultsFound + 1) } }

def store (b : ScanBuilder) (address : Nat) : ScanBuilder :=
  { b with result := { b.result with
      entries := match b.result.entries with
        | .owned cells => .owned (cells ++ [address])
        | _ => .owned [address]
      count := b.result.count + 1 } }

end ScanBuilder

def nextCapacity (b : ScanBuilder) : Nat :=
  let next := if b.capacity = 0 then scanInitialCapacity else wrap64 (b.capacity * 2)
  if next < b.capacity ∨ next > b.maxResults then b.maxResults else next

def scanBuilderAppend (env : Env) (b : ScanBuilder) (address : Nat) : Status × ScanBuilder :=
  let b := b.noteFound
  if b.result.count ≥ b.maxResults then
    (.ok, b.setTruncated)
  else if b.result.count = b.capacity then
    if nextCapacity b ≤ b.result.count then
      (.ok, b.setTruncated)
    else if env.alloc (.grow (nextCapacity b)) then
      (.ok, { b with capacity := nextCapacity b }.store address)
    else
      (.errNomem, b)
  else
    (.ok, b.store address)

def scanBuilderPrealloc (env : Env) (b : ScanBuilder) : Status × ScanBuilder :=
  if b.maxResults = 0 then
    (.errParam, b)
  else if env.alloc .prealloc then
    (.ok, { b with result := { b.result with entries := .owned [] }, capacity := b.maxResults })
  else
    (.errNomem, { b with result := { b.result with entries := .null } })

structure ScanBuilder.Valid (b : ScanBuilder) : Prop where
  cells : (b.result.entries = .null ∧ b.result.count = 0) ∨
    ∃ cells, b.result.entries = .owned cells ∧ cells.length = b.result.count
  count_le : b.result.count ≤ b.capacity
  capacity_le : b.capacity ≤ b.maxResults
  maxResults_lt : b.maxResults < 2 ^ 64

namespace ScanBuilder.Valid

variable {b : ScanBuilder}

theorem length_stored (h : b.Valid) : b.stored.length = b.result.count := by
  rcases h.cells with ⟨he, hc⟩ | ⟨cells, he, hc⟩
  · simp [stored, ScanResult.reported, he, hc]
  · simp [stored, ScanResult.reported, he, hc]

theorem length_stored_le (h : b.Valid) : b.stored.length ≤ b.maxResults := by
  rw [h.length_stored]
  exact Nat.le_trans h.count_le h.capacity_le

end ScanBuilder.Valid

/-- A valid builder that never runs out of memory: its block already has the
size of the result limit, or `realloc` succeeds. -/
structure ScanBuilder.Ready (env : Env) (b : ScanBuilder) : Prop extends b.Valid where
  room : b.capacity = b.maxResults ∨ ∀ n, env.alloc (.grow n) = true

def requestLimit (maxResults : Nat) : Nat := if maxResults = 0 then 1 else maxResults

def ScanBuilder.init (out : ScanResult) (maxResults : Nat) : ScanBuilder where
  result := out
  capacity := 0
  maxResults := maxResults
  progress := none
  now := 0

def ScanBuilder.preallocated (maxResults : Nat) : ScanBuilder where
  result := { ScanResult.zero with entries := .owned [] }
  capacity := maxResults
  maxResults := maxResults
  progress := none
  now := 0

theorem ScanBuilder.ready_preallocated (env : Env) {maxResults : Nat} (h : maxResults < 2 ^ 64) :
    (preallocated maxResults).Ready env :=
  ⟨⟨.inr ⟨[], rfl, rfl⟩, Nat.zero_le _, Nat.le_refl _, h⟩, .inl rfl⟩

structure Grew (b : ScanBuilder) (hs : List Nat) (b' : ScanBuilder) : Prop where
  valid : b'.Valid
  maxResults_eq : b'.maxResults = b.maxResults
  capacity_full : b.capacity = b.maxResults → b'.capacity = b'.maxResults
  stored_eq : b'.stored = (b.stored ++ hs).take b.maxResults
  truncated_eq : b'.result.truncated =
    (b.result.truncated || decide (b.maxResults < (b.stored ++ hs).length))

structure SameHits (b b' : ScanBuilder) : Prop where
  entries_eq : b'.result.entries = b.result.entries
  count_eq : b'.result.count = b.result.count
  truncated_eq : b'.result.truncated = b.result.truncated
  capacity_eq : b'.capacity = b.capacity
  maxResults_eq : b'.maxResults = b.maxResults

namespace SameHits

variable {b b' b'' : ScanBuilder}

theorem refl (b : ScanBuilder) : SameHits b b := ⟨rfl, rfl, rfl, rfl, rfl⟩

theorem trans (h : SameHits b b') (h' : SameHits b' b'') : SameHits b b'' where
  entries_eq := h'.entries_eq.trans h.entries_eq
  count_eq := h'.count_eq.trans h.count_eq
  truncated_eq := h'.truncated_eq.trans h.truncated_eq
  capacity_eq := h'.capacity_eq.trans h.capacity_eq
  maxResults_eq := h'.maxResults_eq.trans h.maxResults_eq

theorem stored_eq (h : SameHits b b') : b'.stored = b.stored := by
  simp only [ScanBuilder.stored, ScanResult.reported, h.entries_eq, h.count_eq]

theorem valid (h : SameHits b b') (hb : b.Valid) : b'.Valid where
  cells := by rw [h.entries_eq, h.count_eq]; exact hb.cells
  count_le := by rw [h.count_eq, h.capacity_eq]; exact hb.count_le
  capacity_le := by rw [h.capacity_eq, h.maxResults_eq]; exact hb.capacity_le
  maxResults_lt := by rw [h.maxResults_eq]; exact hb.maxResults_lt

theorem grew (h : SameHits b b') (hb : b.Valid) : Grew b [] b' where
  valid := h.valid hb
  maxResults_eq := h.maxResults_eq
  capacity_full hc := by rw [h.capacity_eq, h.maxResults_eq, hc]
  stored_eq := by
    rw [h.stored_eq, append_nil, take_of_length_le hb.length_stored_le]
  truncated_eq := by
    have := hb.length_stored_le
    rw [h.truncated_eq, append_nil, decide_eq_false (by omega), Bool.or_false]

theorem ready {env : Env} (h : SameHits b b') (hb : b.Ready env) : b'.Ready env where
  toValid := h.valid hb.toValid
  room := by rw [h.capacity_eq, h.maxResults_eq]; exact hb.room

end SameHits

namespace Grew

variable {b b' b'' : ScanBuilder} {hs hs' : List Nat}

theorem refl (hb : b.Valid) : Grew b [] b := (SameHits.refl b).grew hb

theorem trans (h : Grew b hs b') (h' : Grew b' hs' b'') : Grew b (hs ++ hs') b'' where
  valid := h'.valid
  maxResults_eq := h'.maxResults_eq.trans h.maxResults_eq
  capacity_full hc := h'.capacity_full (h.capacity_full hc)
  stored_eq := by
    rw [h'.stored_eq, h.maxResults_eq, h.stored_eq, ← append_assoc]
    by_cases hlen : (b.stored ++ hs).length ≤ b.maxResults
    · rw [take_of_length_le hlen]
    · have hle : b.maxResults ≤ (b.stored ++ hs).length := by omega
      have hle' : b.maxResults ≤ ((b.stored ++ hs).take b.maxResults).length := by
        rw [length_take]
        omega
      rw [take_append_of_le_length hle, take_append_of_le_length hle',
        take_take, Nat.min_self]
  truncated_eq := by
    rw [h'.truncated_eq, h.truncated_eq, h.maxResults_eq, h.stored_eq, Bool.or_assoc]
    congr 1
    rw [← Bool.decide_or, decide_eq_decide]
    simp only [length_append, length_take]
    omega

theorem ready {env : Env} (h : Grew b hs b') (hb : b.Ready env) : b'.Ready env :=
  ⟨h.valid, hb.room.imp h.capacity_full id⟩

theorem of_nil_left (h : Grew b [] b') (h' : Grew b' hs b'') : Grew b hs b'' := h.trans h'

end Grew

theorem SameHits.noteFound (b : ScanBuilder) : SameHits b b.noteFound := ⟨rfl, rfl, rfl, rfl, rfl⟩

theorem Grew.setTruncated {b : ScanBuilder} (hb : b.Valid) (hfull : b.maxResults ≤ b.result.count)
    (address : Nat) : Grew b [address] b.setTruncated where
  valid := ⟨hb.cells, hb.count_le, hb.capacity_le, hb.maxResults_lt⟩
  maxResults_eq := rfl
  capacity_full := id
  stored_eq := by
    have hlen := hb.length_stored
    rw [take_append_of_le_length (by omega), take_of_length_le (hb.length_stored_le)]
    rfl
  truncated_eq := by
    have hlen := hb.length_stored
    have hlt : b.maxResults < (b.stored ++ [address]).length := by simp; omega
    rw [decide_eq_true hlt, Bool.or_true]
    rfl

theorem Grew.store {b : ScanBuilder} (hb : b.Valid) (capacity : Nat)
    (hroom : b.result.count < capacity) (hcap : capacity ≤ b.maxResults)
    (hfull : b.capacity = b.maxResults → capacity = b.maxResults) (address : Nat) :
    Grew b [address] ({ b with capacity := capacity }.store address) := by
  have hstored :
    ({ b with capacity := capacity }.store address).stored = b.stored ++ [address] := by
    rcases hb.cells with ⟨he, hc⟩ | ⟨cells, he, hc⟩
    · simp [ScanBuilder.store, ScanBuilder.stored, ScanResult.reported, he, hc]
    · rw [ScanBuilder.stored, ScanBuilder.stored, ScanResult.reported, ScanResult.reported]
      simp only [ScanBuilder.store, he, ← hc]
      rw [take_of_length_le (by simp), take_of_length_le (by simp)]
  have hlen : (b.stored ++ [address]).length ≤ b.maxResults := by
    rw [length_append, hb.length_stored, length_singleton]
    omega
  refine ⟨⟨?_, ?_, hcap, hb.maxResults_lt⟩, rfl, hfull, ?_, ?_⟩
  · rcases hb.cells with ⟨he, hc⟩ | ⟨cells, he, hc⟩
    · exact .inr ⟨[address], by simp [ScanBuilder.store, he], by simp [ScanBuilder.store, hc]⟩
    · exact .inr ⟨cells ++ [address], by simp [ScanBuilder.store, he],
        by simp [ScanBuilder.store, hc]⟩
  · exact hroom
  · rw [hstored, take_of_length_le hlen]
  · rw [decide_eq_false (by omega), Bool.or_false]
    rfl

theorem nextCapacity_bounds {b : ScanBuilder} (hb : b.Valid)
    (hfull : b.result.count = b.capacity) (hroom : b.result.count < b.maxResults) :
    b.result.count < nextCapacity b ∧ nextCapacity b ≤ b.maxResults := by
  have hmax := hb.maxResults_lt
  simp only [nextCapacity, scanInitialCapacity, wrap64]
  split_ifs with h₀ h₁ h₁ <;> omega

theorem scanBuilderAppend_grew {env : Env} {b : ScanBuilder} (hb : b.Ready env) (address : Nat) :
    ∃ b', scanBuilderAppend env b address = (.ok, b') ∧ Grew b [address] b' := by
  have hn : b.noteFound.Ready env := (SameHits.noteFound b).ready hb
  have hstart : Grew b [] b.noteFound := (SameHits.noteFound b).grew hb.toValid
  unfold scanBuilderAppend
  by_cases hfull : b.noteFound.result.count ≥ b.noteFound.maxResults
  · exact ⟨_, by simp only [hfull, if_true],
      hstart.of_nil_left (.setTruncated hn.toValid hfull address)⟩
  · simp only [hfull, if_false]
    by_cases hcap : b.noteFound.result.count = b.noteFound.capacity
    · obtain ⟨hlt, hle⟩ := nextCapacity_bounds hn.toValid hcap (by omega)
      have halloc : ∀ n, env.alloc (.grow n) = true := hn.room.resolve_left (by omega)
      refine ⟨_, by simp only [hcap, if_true, halloc]; rw [if_neg (by omega)],
        hstart.of_nil_left (.store hn.toValid _ hlt hle (fun h => ?_) address)⟩
      omega
    · have := hn.count_le
      refine ⟨_, by simp only [hcap, if_false], hstart.of_nil_left
        (.store hn.toValid b.noteFound.capacity (by omega) hn.capacity_le id address)⟩

end MemDbg.Scan
