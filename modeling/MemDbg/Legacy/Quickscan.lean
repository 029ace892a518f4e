import MemDbg.Daemon.Ops
import MemDbg.FlashScan.Wire
import MemDbg.Legacy.Common

/-!
# The bridge to the FlashScan handlers

`legacy/flashscan.c`: a legacy REGIONS, START, COUNT or FETCH runs the native handler
on one end of a socket pair, closes that end, reads what the handler wrote from the
other end, and forwards it behind a legacy status word.  Nobody reads the pair, and
nobody writes to it, before the handler has returned.
-/

namespace MemDbg.Legacy

open List Lib Scan FlashScan Lib.Pipe

/-! ## The reply -/

def statusBytes (status : UInt32) : List UInt8 := leBytes 4 (legacyBitswap32 status).toNat

def grownCap (cap len : Nat) : Nat :=
  let newCap := if cap ≠ 0 then cap * 2 else 65536
  if newCap < len then len + 65536 else newCap

def readRemainingLoop (realloc : Nat → Bool) :
    Nat → List UInt8 → List UInt8 → Nat → Option (List UInt8)
  | 0, _, buf, _ => some buf
  | fuel + 1, rest, buf, cap =>
    let chunk := rest.take 65536
    let len := buf.length + chunk.length
    if rest = [] then some buf
    else if len > 64 * 2 ^ 20 then none
    else if len > cap then
      if realloc (grownCap cap len) then
        readRemainingLoop realloc fuel (rest.drop 65536) (buf ++ chunk) (grownCap cap len)
      else none
    else readRemainingLoop realloc fuel (rest.drop 65536) (buf ++ chunk) cap

def readRemaining (realloc : Nat → Bool) (rest : List UInt8) : Option (List UInt8) :=
  readRemainingLoop realloc rest.length rest [] 0

def bridgeReply (realloc : Nat → Bool) (fifo : List UInt8) : List UInt8 :=
  if fifo.length < 4 then statusBytes cmdError
  else if leNat (fifo.take 4) ≠ 0 then statusBytes cmdError
  else statusBytes cmdSuccess ++ (readRemaining realloc (fifo.drop 4)).getD []

/-! ## The requests -/

inductive QuickscanRequest where
  | regions
  | start
  | count
  | fetch
deriving DecidableEq

def QuickscanRequest.size : QuickscanRequest → Nat
  | regions => 16
  | start => 40
  | count => 28
  | fetch => 12

def startRequest (body : List UInt8) : StartRequest where
  pid := Daemon.Dispatch.int32 (field body 0 4)
  valueType := .ofCode (field body 4 4)
  compareType := field body 8 4
  alignment := field body 12 4
  valueLength := field body 16 4
  requestFlags := field body 20 4
  address := field body 24 8
  length := field body 32 8

def countRequest (body : List UInt8) : CountRequest where
  pid := Daemon.Dispatch.int32 (field body 0 4)
  valueType := .ofCode (field body 4 4)
  compareType := field body 8 4
  valueLength := field body 12 4
  requestFlags := field body 16 4
  baseAddress := field body 20 8

def bridgePointers (body : List UInt8) (offset compareLen valueLength : Nat)
    (valueType : ValueType) : Ptr × Ptr :=
  let behind := wrap32 (offset + compareLen)
  let compareData :=
    if 0 < valueLength ∧ behind ≤ body.length then some (body.drop offset) else none
  let mask := if valueType = .aob ∧ compareData.isSome ∧ wrap32 (behind + valueLength) ≤ body.length
    then some (body.drop behind) else none
  (compareData, mask)

/-- What a request finds: the native engine and the session of the client, the socket pair, the
session slot, and the buffer that grows.  A snapshot never counts more survivors than it has set
bits, `survivorCount_le_of_run`. -/
structure QuickscanEnv where
  fs : FsEnv
  create : CreateEnv
  regions : RegionsEnv
  stale : Nat → Nat → Nat → UInt8
  session : Session
  counted_session : ∀ s, session = .snapshot s → s.survivorCount ≤ s.popcount
  pair : Bool
  slot : Bool
  realloc : Nat → Bool

inductive BridgeCall where
  | refused
  | handler (script : Option (List Io))

def bridgeCall (env : QuickscanEnv) (request : QuickscanRequest) (body : List UInt8) : BridgeCall :=
  if body.length < request.size then .refused
  else
    match request with
    | .regions =>
      if env.pair = false then .refused
      else .handler (some (regionsIo env.regions (field body 4 4)))
    | .start =>
      let req := startRequest body
      let compareLen := wrap32 (req.valueLength * if req.compareType = 4 then 2 else 1)
      let pointers := bridgePointers body 40 compareLen req.valueLength req.valueType
      if qsSnapSegments req.requestFlags || !env.pair || !env.slot then .refused
      else .handler (startIo env.fs env.create req pointers.1 pointers.2)
    | .count =>
      let req := countRequest body
      let pointers := bridgePointers body 28 req.valueLength req.valueLength req.valueType
      if !env.pair || !env.slot then .refused
      else .handler (countIo env.fs req pointers.1 pointers.2 env.session)
    | .fetch =>
      if !env.pair || !env.slot then .refused
      else .handler (some (fetchIo env.fs env.stale ⟨field body 0 4, field body 4 4⟩ env.session))

/-! ## What the bridge is for -/

def Faithful (bytes reply : List UInt8) : Prop :=
  (bytes.take 4 = leBytes 4 0 ∧ reply = statusBytes cmdSuccess ++ bytes.drop 4) ∨
    ∃ code, (code = cmdError ∨ code = cmdDataNull) ∧ reply = statusBytes code

structure Transparent (C : Nat) (realloc : Nat → Bool) (script : List Io) : Prop where
  never_waits : ∀ s, Reaches C ⟨[], script⟩ s → ¬ Waits C s
  completes : ∃ fifo, Reaches C ⟨[], script⟩ ⟨fifo, []⟩ ∧
    Faithful (written script) (bridgeReply realloc fifo)

/-- A request is served as it should, over a pair of the given capacity. -/
def BridgeCall.Serves (C : Nat) (realloc : Nat → Bool) : BridgeCall → Prop
  | refused => Faithful [] (statusBytes cmdError)
  | handler none => False
  | handler (some script) => Transparent C realloc script

structure Buffers (realloc : Nat → Bool) (n : Nat) : Prop where
  le : n ≤ 64 * 2 ^ 20
  first : 0 < n → realloc 65536 = true
  grown : ∀ k, 65536 * 2 ^ k < n → realloc (65536 * 2 ^ (k + 1)) = true

/-- The handler stays inside the request, does not read the pair, and what it writes fits into the
pair and, behind a zero status, into the buffer. -/
def BridgeCall.Fitting (C : Nat) (realloc : Nat → Bool) : BridgeCall → Prop
  | refused => True
  | handler none => False
  | handler (some script) => Fits C ⟨[], script⟩ ∧
    ((written script).take 4 = leBytes 4 0 → Buffers realloc ((written script).length - 4))

/-! ## Buffering -/

section Buffering

variable {realloc : Nat → Bool}

theorem grownCap_zero {len : Nat} (h : len ≤ 65536) : grownCap 0 len = 65536 := if_neg h.not_gt

theorem grownCap_pow {k len : Nat} (h : len ≤ 65536 * 2 ^ k + 65536) :
    grownCap (65536 * 2 ^ k) len = 65536 * 2 ^ (k + 1) := by
  have hone : 0 < 2 ^ k := Nat.two_pow_pos k
  have hdouble : (if 65536 * 2 ^ k ≠ 0 then 65536 * 2 ^ k * 2 else 65536) =
      65536 * 2 ^ (k + 1) := by
    rw [if_pos (by omega), Nat.mul_assoc, ← Nat.pow_succ]
  unfold grownCap
  rw [hdouble, if_neg (by rw [Nat.pow_succ]; omega)]

def GrowsFrom (realloc : Nat → Bool) (k n : Nat) : Prop :=
  ∀ j, k ≤ j → 65536 * 2 ^ j < n → realloc (65536 * 2 ^ (j + 1)) = true

theorem GrowsFrom.of_le {k n : Nat} (h : n ≤ 65536 * 2 ^ k) : GrowsFrom realloc k n := by
  intro j hj hlt
  have hpow : 2 ^ k ≤ 2 ^ j := Nat.pow_le_pow_right (by decide) hj
  omega

theorem growsFrom_iff {k n : Nat} (h : 65536 * 2 ^ k < n) :
    GrowsFrom realloc k n ↔ realloc (65536 * 2 ^ (k + 1)) = true ∧ GrowsFrom realloc (k + 1) n := by
  constructor
  · intro hgrows
    exact ⟨hgrows k le_rfl h, fun j hj => hgrows j (Nat.le_of_succ_le hj)⟩
  · rintro ⟨hnext, hgrows⟩ j hj
    rcases hj.eq_or_lt with rfl | hlt
    · exact fun _ => hnext
    · exact hgrows j hlt

structure Completes (realloc : Nat → Bool) (k n : Nat) : Prop where
  le : n ≤ 64 * 2 ^ 20
  grows : GrowsFrom realloc k n

theorem readRemainingLoop_spec (fuel : Nat) {rest buf : List UInt8} {k : Nat}
    (hfuel : rest.length ≤ fuel) (hbuf : buf.length ≤ 65536 * 2 ^ k)
    (hmax : buf.length ≤ 64 * 2 ^ 20) :
    (Completes realloc k (buf.length + rest.length) ∧
        readRemainingLoop realloc fuel rest buf (65536 * 2 ^ k) = some (buf ++ rest)) ∨
      (¬ Completes realloc k (buf.length + rest.length) ∧
        readRemainingLoop realloc fuel rest buf (65536 * 2 ^ k) = none) := by
  induction fuel generalizing rest buf k with
  | zero =>
    obtain rfl := length_eq_zero_iff.mp (Nat.le_zero.mp hfuel)
    rw [append_nil]
    exact .inl ⟨⟨hmax, .of_le hbuf⟩, rfl⟩
  | succ fuel ih =>
    rw [readRemainingLoop]
    rcases eq_or_ne rest [] with rfl | hrest
    · rw [if_pos rfl, append_nil]
      exact .inl ⟨⟨hmax, .of_le hbuf⟩, rfl⟩
    have hone : 0 < 2 ^ k := Nat.two_pow_pos k
    have htake : (buf ++ rest.take 65536) ++ rest.drop 65536 = buf ++ rest := by
      rw [append_assoc, take_append_drop]
    have htotal : (buf ++ rest.take 65536).length + (rest.drop 65536).length =
        buf.length + rest.length := by
      rw [← length_append, htake, length_append]
    have hless : (rest.drop 65536).length ≤ fuel := by
      rw [length_drop]
      omega
    have hchunk : (rest.take 65536).length ≤ 65536 := length_take_le _ _
    have hle : (rest.take 65536).length ≤ rest.length := length_take_le' _ _
    rw [if_neg hrest]
    by_cases hover : buf.length + (rest.take 65536).length > 64 * 2 ^ 20
    · rw [if_pos hover]
      exact .inr ⟨fun h => by have := h.le; omega, rfl⟩
    rw [if_neg hover]
    have hfits : (buf ++ rest.take 65536).length ≤ 64 * 2 ^ 20 := by
      rw [length_append]
      exact not_lt.mp hover
    by_cases hgrow : buf.length + (rest.take 65536).length > 65536 * 2 ^ k
    · have hmore : 65536 * 2 ^ k < buf.length + rest.length := by omega
      rw [if_pos hgrow, grownCap_pow (by omega)]
      by_cases hrealloc : realloc (65536 * 2 ^ (k + 1)) = true
      · rw [if_pos hrealloc]
        have hnext := ih hless (k := k + 1) 
          (by rw [length_append, Nat.pow_succ]; omega) hfits
        rw [htotal, htake] at hnext
        rcases hnext with ⟨hdone, heq⟩ | ⟨hdone, heq⟩
        · exact .inl ⟨⟨hdone.le, (growsFrom_iff hmore).mpr ⟨hrealloc, hdone.grows⟩⟩, heq⟩
        · exact .inr ⟨fun h => hdone ⟨h.le, ((growsFrom_iff hmore).mp h.grows).2⟩, heq⟩
      · rw [if_neg hrealloc]
        exact .inr ⟨fun h => hrealloc ((growsFrom_iff hmore).mp h.grows).1, rfl⟩
    · rw [if_neg hgrow]
      have hnext := ih hless (k := k) (by rw [length_append]; omega) hfits
      rwa [htotal, htake] at hnext

theorem readRemaining_spec (realloc : Nat → Bool) (rest : List UInt8) :
    (Buffers realloc rest.length ∧ readRemaining realloc rest = some rest) ∨
      (¬ Buffers realloc rest.length ∧ readRemaining realloc rest = none ∧ rest ≠ []) := by
  rcases eq_or_ne rest [] with rfl | hrest
  · exact .inl ⟨⟨Nat.zero_le _, nofun, fun k hk => absurd hk (Nat.not_lt_zero _)⟩, rfl⟩
  have hpos : 0 < rest.length := length_pos_iff.mpr hrest
  obtain ⟨fuel, hfuel⟩ := Nat.exists_eq_succ_of_ne_zero hpos.ne'
  have hchunk : (rest.take 65536).length ≤ 65536 := length_take_le _ _
  have htaken : 0 < (rest.take 65536).length := by
    rw [length_take]
    omega
  unfold readRemaining
  rw [hfuel, readRemainingLoop]
  rw [if_neg hrest, nil_append, length_nil, Nat.zero_add, if_neg (by omega),
    if_pos htaken, grownCap_zero hchunk]
  by_cases hrealloc : realloc 65536 = true
  · rw [if_pos hrealloc]
    have hless : (rest.drop 65536).length ≤ fuel := by
      rw [length_drop]
      omega
    have hfirst : (rest.take 65536).length ≤ 65536 * 2 ^ 0 := hchunk
    have hnext : _ ∨ _ := @readRemainingLoop_spec realloc fuel _ _ 0 hless hfirst
      (hchunk.trans (by decide))
    rw [← length_append, take_append_drop, Nat.pow_zero, Nat.mul_one, hfuel] at hnext
    rcases hnext with ⟨hdone, heq⟩ | ⟨hdone, heq⟩
    · exact .inl ⟨⟨hdone.le, fun _ => hrealloc, fun k => hdone.grows k (Nat.zero_le k)⟩, heq⟩
    · exact .inr ⟨fun h => hdone ⟨h.le, fun k _ => h.grown k⟩, heq, hrest⟩
  · rw [if_neg hrealloc]
    exact .inr ⟨fun h => hrealloc (h.first (by omega)), rfl, hrest⟩

end Buffering

/-! ## When a request is served -/

theorem take_of_leNat {bytes : List UInt8} (hlen : 4 ≤ bytes.length)
    (hzero : leNat (bytes.take 4) = 0) : bytes.take 4 = leBytes 4 0 := by
  have hfour : (bytes.take 4).length = (leBytes 4 0).length := by
    rw [length_take, Nat.min_eq_left hlen, length_leBytes]
  exact (leNat_inj hfour).mp hzero

theorem leNat_take {bytes : List UInt8} (h : bytes.take 4 = leBytes 4 0) :
    4 ≤ bytes.length ∧ leNat (bytes.take 4) = 0 := by
  have hlen := congrArg List.length h
  rw [length_take, length_leBytes] at hlen
  exact ⟨min_eq_left_iff.mp hlen, h ▸ rfl⟩

theorem faithful_iff (realloc : Nat → Bool) (bytes : List UInt8) :
    Faithful bytes (bridgeReply realloc bytes) ↔
      (bytes.take 4 = leBytes 4 0 → Buffers realloc (bytes.length - 4)) := by
  have herror : Faithful bytes (statusBytes cmdError) := .inr ⟨cmdError, .inl rfl, rfl⟩
  unfold bridgeReply
  split_ifs with hshort hstatus
  · refine ⟨fun _ htake => absurd (leNat_take htake).1 (not_le.mpr hshort), fun _ => herror⟩
  · exact ⟨fun _ htake => absurd (leNat_take htake).2 hstatus, fun _ => herror⟩
  · have htake := take_of_leNat (not_lt.mp hshort) (not_not.mp hstatus)
    rw [← length_drop]
    rcases readRemaining_spec realloc (bytes.drop 4) with ⟨hbuffers, heq⟩ | ⟨hbuffers, heq, hrest⟩
    · rw [heq]
      exact ⟨fun _ _ => hbuffers, fun _ => .inl ⟨htake, rfl⟩⟩
    · rw [heq]
      refine ⟨?_, fun h => absurd (h htake) hbuffers⟩
      rintro (⟨-, hreply⟩ | ⟨code, rfl | rfl, hreply⟩)
      · exact absurd (append_cancel_left hreply).symm hrest
      · exact absurd hreply (by decide)
      · exact absurd hreply (by decide)

theorem transparent_iff (C : Nat) (realloc : Nat → Bool) (script : List Io) :
    Transparent C realloc script ↔ Fits C ⟨[], script⟩ ∧
      ((written script).take 4 = leBytes 4 0 → Buffers realloc ((written script).length - 4)) := by
  constructor
  · rintro ⟨hnever, fifo, hreach, hfaithful⟩
    rw [hreach.fifo_of_done] at hfaithful
    exact ⟨never_waits_iff.mp hnever, (faithful_iff realloc _).mp hfaithful⟩
  · rintro ⟨hfits, hbuffers⟩
    exact ⟨never_waits_iff.mpr hfits, written script, hfits.reaches,
      (faithful_iff realloc _).mpr hbuffers⟩

/-- A request is served as it should exactly when its handler stays inside the request and does not
read the pair, and what it writes fits into the pair and, behind a zero status, into the buffer. -/
theorem serves_iff (C : Nat) (env : QuickscanEnv) (request : QuickscanRequest) (body : List UInt8) :
    (bridgeCall env request body).Serves C env.realloc ↔
      (bridgeCall env request body).Fitting C env.realloc := by
  cases bridgeCall env request body with
  | refused => exact ⟨fun _ => trivial, fun _ => .inr ⟨cmdError, .inl rfl, rfl⟩⟩
  | handler script =>
    cases script with
    | none => exact Iff.rfl
    | some script => exact transparent_iff C env.realloc script

def calmBridge : QuickscanEnv where
  fs := calmEnv none
  create := ⟨fun _ => 0, 512 * 2 ^ 20, true, true, true, true, some 3, true, true, true, true,
    fun _ _ => true⟩
  regions := ⟨none, true, fun _ => false, fun _ => 0⟩
  stale _ _ _ := 0
  session := .free
  counted_session := nofun
  pair := true
  slot := true
  realloc _ := true

def streamedCount : List UInt8 :=
  leBytes 4 5 ++ leBytes 4 3 ++ leBytes 4 0 ++ leBytes 4 4 ++ leBytes 4 0 ++ leBytes 8 4096 ++
    leBytes 4 1

theorem serves_fails : ¬ ∀ C env request body,
    (bridgeCall env request body).Serves C env.realloc := by
  intro h
  have hcall : bridgeCall calmBridge .count streamedCount = .handler (some [sendOk, .read]) := rfl
  have hserves := hcall ▸ h 65536 calmBridge .count streamedCount
  have hfits := ((transparent_iff _ _ _).mp hserves).1
  exact hfits.read (mem_cons_of_mem _ (mem_singleton.mpr rfl))

end MemDbg.Legacy
