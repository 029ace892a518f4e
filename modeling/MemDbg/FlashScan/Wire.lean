import MemDbg.FlashScan.Accounting
import MemDbg.Lib.Pipe
import MemDbg.Scan.Partition

/-!
# What the handlers do with the descriptor

The writes and reads of `flashscan_handle_regions`, `flashscan_handle_start`,
`flashscan_handle_count` and `flashscan_handle_fetch`, in order.  What they write
depends on what the scan found; a COUNT that is not resident is the only one that
reads, apart from a START with a list of segments.
-/

namespace MemDbg.FlashScan

open List Lib Scan Pipe

abbrev Io := Action UInt8

def sendOk : Io := .write (leBytes 4 0)

def sendFail : Io := .write (leBytes 4 (2 ^ 32 - 1))

def sendSentinel : Io := .write (leBytes 8 (2 ^ 64 - 1))

/-! ## REGIONS -/

structure RegionsEnv where
  maps : Option (List MapEntry)
  buffers : Bool
  uncached : MapEntry → Bool
  readMbps : MapEntry → Nat

def regionInfo (env : RegionsEnv) (e : MapEntry) : List UInt8 :=
  leBytes 8 e.start ++ leBytes 8 e.endAddr ++ leBytes 4 e.protection ++
    leBytes 4 (if env.uncached e then 1 else 0) ++ leBytes 4 (env.readMbps e) ++ leBytes 4 0

def regionCap (regionMax : Nat) : Nat :=
  min (if regionMax ≠ 0 then regionMax else 1024) 8192

def listedRegions (regionMax : Nat) (maps : List MapEntry) : List MapEntry :=
  (maps.filter fun e => e.protection.testBit 0 && decide (e.start < e.endAddr)).take
    (regionCap regionMax)

def regionsIo (env : RegionsEnv) (regionMax : Nat) : List Io :=
  match env.maps with
  | none | some [] => [sendFail]
  | some maps =>
    if env.buffers = false then [sendFail]
    else
      let listed := listedRegions regionMax maps
      [sendOk, .write (leBytes 4 listed.length)] ++
        (if listed ≠ [] then [.write (listed.flatMap (regionInfo env))] else []) ++ [sendOk]

theorem length_regionInfo (env : RegionsEnv) (e : MapEntry) : (regionInfo env e).length = 32 := by
  simp only [regionInfo, length_append, length_leBytes]

theorem length_flatMap_regionInfo (env : RegionsEnv) (listed : List MapEntry) :
    (listed.flatMap (regionInfo env)).length = 32 * listed.length := by
  induction listed with
  | nil => rfl
  | cons e listed ih =>
    rw [flatMap_cons, length_append, length_regionInfo, ih, length_cons]
    omega

theorem written_regionsIo {env : RegionsEnv} {maps : List MapEntry} (hmaps : env.maps = some maps)
    (hne : maps ≠ []) (hbuffers : env.buffers = true) (regionMax : Nat) :
    written (regionsIo env regionMax) =
      leBytes 4 0 ++ (leBytes 4 (listedRegions regionMax maps).length ++
        (listedRegions regionMax maps).flatMap (regionInfo env) ++ leBytes 4 0) := by
  obtain ⟨e, maps, rfl⟩ := exists_cons_of_ne_nil hne
  unfold regionsIo
  rw [hmaps]
  dsimp only
  rw [hbuffers, if_neg nofun]
  rcases eq_or_ne (listedRegions regionMax (e :: maps)) [] with hlisted | hlisted
  · rw [hlisted]
    rfl
  · rw [if_pos hlisted]
    change leBytes 4 0 ++ (leBytes 4 _ ++ (List.flatMap _ _ ++ (leBytes 4 0 ++ []))) = _
    rw [append_nil, append_assoc (leBytes 4 _)]

theorem listedRegions_lt (regionMax : Nat) (maps : List MapEntry) :
    (listedRegions regionMax maps).length < 2 ^ 32 := by
  have hcap : regionCap regionMax ≤ 8192 := min_le_right _ _
  exact ((length_take_le _ _).trans hcap).trans_lt (by decide)

/-! ## START -/

def sendPlan (slotCount totalBytes : Nat) : Io :=
  .write (leBytes 8 slotCount ++ leBytes 8 totalBytes)

def sendSummary (ok survivorCount : Nat) : Io := .write (leBytes 4 ok ++ leBytes 8 survivorCount)

def sendResident (stored hitCount : Nat) : Io := .write (leBytes 4 stored ++ leBytes 8 hitCount)

def sendPacket (packet : List UInt8) : Io := .write (leBytes 8 packet.length ++ packet)

def unplanned : List Io := [sendPlan 0 0, sendSentinel, sendSummary 0 0]

def CreateRequest.totalBytes (req : CreateRequest) : Nat :=
  (req.segs.map fun g => g.length.toNat).sum

def snapshotProgress (env : CreateEnv) (req : CreateRequest) : Nat → List SnapWindow → List Io
  | _, [] => []
  | doneTotal, win :: rest =>
    if win.written env req = false then []
    else
      let doneTotal := doneTotal + ((win.winSlots - 1) * req.step + req.vlen)
      (if doneTotal % 2 ^ 22 = 0 ∨ rest = [] then [.write (leBytes 8 doneTotal)] else []) ++
        snapshotProgress env req doneTotal rest

def snapshotIo (env : CreateEnv) (req : CreateRequest) : Option (List Io) :=
  let plan := sendPlan req.slotCount req.totalBytes
  let progress := if req.ready env then snapshotProgress env req 0 req.windows else []
  match snapshotCreate env req with
  | .crashed | .overflowed => none
  | .refused =>
    if env.segTable = false then some unplanned
    else if req.admissible env = false then some [plan, sendSentinel, sendSummary 0 0]
    else some ([plan] ++ progress ++ [sendSentinel, sendSummary 0 0])
  | .created s => some ([plan] ++ progress ++ [sendSentinel, sendSummary 1 s.survivorCount])

def tooLongForSnapshot (env : FsEnv) (req : StartRequest) (vlen : Nat) : Bool :=
  qsSnapshot req.requestFlags && decide (vlen ≤ 16) && decide (8 < vlen) &&
    (!needsData req.compareType || env.alloc .pattern) && env.alloc .readBuf && env.alloc .resultBuf

def startIo (env : FsEnv) (create : CreateEnv) (req : StartRequest) (compareData mask : Ptr) :
    Option (List Io) := do
  let outcome ← flashscanHandleStart env req compareData mask
  match outcome with
  | .rejected =>
    if tooLongForSnapshot env req (scanPlan env req mask).vlen then
      some ([sendOk, sendOk] ++ unplanned ++ [sendOk])
    else some [sendFail]
  | .snapshot vlen step =>
    if h : 0 < vlen ∧ vlen ≤ 8 ∧ 0 < step then
      (snapshotIo create (req.createRequest (chosen_vlen_pos h) (chosen_vlen_le h)
          (chosen_step_pos h))).map fun io =>
        [sendOk, sendOk] ++ io ++ [sendOk]
    else some [sendFail]
  | .stored s => some [sendOk, sendOk, sendResident 1 s.records.length, sendOk]
  | .streamed packets =>
    some ([sendOk, sendOk] ++ (if qsServerKeep req.requestFlags then [sendResident 0 0] else []) ++
      packets.map sendPacket ++ [sendSentinel, sendOk])

section StartIo

variable {env : FsEnv} {req : StartRequest} {compareData mask : Ptr}

theorem startStream_eq {plan : ScanPlan} {pattern betweenHi : Ptr} {outcome : StartOutcome}
    (h : startStream env req plan pattern mask betweenHi = some outcome) :
    ∃ packets, outcome = .streamed packets := by
  obtain ⟨⟨handled, sent⟩, -, h⟩ := Option.bind_eq_some_iff.mp h
  cases handled with
  | true => exact ⟨_, (Option.some.inj h).symm⟩
  | false =>
    obtain ⟨_ | _, -, h⟩ := Option.bind_eq_some_iff.mp h
    · exact ⟨_, (Option.some.inj h).symm⟩
    · exact ⟨_, (Option.some.inj h).symm⟩

def streamIo (packets : List (List UInt8)) : List Io :=
  packets.map sendPacket ++ [sendSentinel, sendOk]

inductive StartIo : Bool → List Io → Prop
  | failed {keep : Bool} : StartIo keep [sendFail]
  | stored (hits : Nat) : StartIo true [sendOk, sendOk, sendResident 1 hits, sendOk]
  | kept (packets : List (List UInt8)) :
    StartIo true (sendOk :: sendOk :: sendResident 0 0 :: streamIo packets)
  | streamed (packets : List (List UInt8)) : StartIo false (sendOk :: sendOk :: streamIo packets)

theorem startIo_cases {create : CreateEnv} {script : List Io}
    (hsnapshot : qsSnapshot req.requestFlags = false)
    (h : startIo env create req compareData mask = some script) :
    StartIo (qsServerKeep req.requestFlags) script := by
  obtain ⟨outcome, houtcome, h⟩ := Option.bind_eq_some_iff.mp h
  have hrejected : some .rejected = some outcome →
      StartIo (qsServerKeep req.requestFlags) script := by
    rintro ⟨⟩
    rw [tooLongForSnapshot, hsnapshot] at h
    cases h
    exact .failed
  have hstreamed : (∃ packets, outcome = .streamed packets) →
      StartIo (qsServerKeep req.requestFlags) script := by
    rintro ⟨packets, rfl⟩
    cases h
    cases qsServerKeep req.requestFlags with
    | false => exact .streamed packets
    | true => exact .kept packets
  rw [flashscanHandleStart, hsnapshot] at houtcome
  simp only [Bool.false_eq_true, if_false] at houtcome
  split_ifs at houtcome with hlong halloc hbuffers hkeep
  · exact hrejected houtcome
  · exact hrejected houtcome
  · obtain ⟨_, -, houtcome⟩ := Option.bind_eq_some_iff.mp houtcome
    exact hrejected houtcome
  · obtain ⟨_, -, houtcome⟩ := Option.bind_eq_some_iff.mp houtcome
    cases hsession : sessionAlloc env req.pid.toNat req.valueType (scanPlan env req mask).vlen with
    | none =>
      rw [hsession] at houtcome
      exact hstreamed (startStream_eq houtcome)
    | some s =>
      rw [hsession] at houtcome
      obtain ⟨_ | _ | s, -, houtcome⟩ := Option.bind_eq_some_iff.mp houtcome
      · exact hstreamed (startStream_eq houtcome)
      · exact hstreamed (startStream_eq houtcome)
      · cases houtcome
        cases h
        rw [hkeep]
        exact .stored _
  · obtain ⟨_, -, houtcome⟩ := Option.bind_eq_some_iff.mp houtcome
    exact hstreamed (startStream_eq houtcome)

end StartIo

/-! ## COUNT -/

def countIo (env : FsEnv) (req : CountRequest) (compareData mask : Ptr) (session : Session) :
    Option (List Io) :=
  let vlen := if req.valueLength = 0 then 4 else req.valueLength
  if vlen > 0x1000 then some [sendFail]
  else if qsServerKeep req.requestFlags then
    (flashscanHandleCount env req compareData mask session []).map fun
      | .counted newCount _ => [sendOk, sendSentinel, .write (leBytes 8 newCount), sendOk]
      | _ => [sendFail]
  else if env.alloc .rescanStream = false then some [sendOk, sendFail]
  else some [sendOk, .read]

/-! ## FETCH -/

def fetchField (vlen : Nat) (held : Nat → UInt8) (value : Option (List UInt8)) : List UInt8 :=
  (value.getD [] ++ slice held 0 vlen).take vlen

def fetchEntrySize (vlen : Nat) (hasFirst : Bool) : Nat := 8 + vlen * if hasFirst then 3 else 2

def fetchBytes (vlen : Nat) (hasFirst : Bool) (stale : Nat → Nat → UInt8) (e : FetchEntry) :
    List UInt8 :=
  leBytes 8 e.addr ++ fetchField vlen (stale 0) e.value ++ fetchField vlen (stale 1) e.prev ++
    if hasFirst then fetchField vlen (stale 2) e.first else []

def fetchBuffers : List (List UInt8) → List UInt8 → List Io
  | [], out => if out ≠ [] then [.write out] else []
  | entry :: rest, out =>
    if out.length + entry.length > 0x40000 then .write out :: fetchBuffers rest entry
    else fetchBuffers rest (out ++ entry)

def fetchHeader (reply : FetchReply) : Nat :=
  reply.actual ||| if reply.hasFirst then 0x80000000 else 0

def fetchBody (stale : Nat → Nat → Nat → UInt8) (vlen : Nat) (reply : FetchReply) :
    List (List UInt8) :=
  reply.entries.zipIdx.map fun e => fetchBytes vlen reply.hasFirst (stale e.2) e.1

def fetchIo (env : FsEnv) (stale : Nat → Nat → Nat → UInt8) (req : FetchRequest)
    (session : Session) : List Io :=
  match flashscanHandleFetch env req session with
  | none => [sendFail]
  | some reply =>
    [sendOk, .write (leBytes 4 (fetchHeader reply))] ++
      fetchBuffers (fetchBody stale session.valueLen reply) [] ++ [sendOk]

theorem written_fetchBuffers (entries : List (List UInt8)) (out : List UInt8) (rest : List Io) :
    written (fetchBuffers entries out ++ rest) = out ++ (entries.flatten ++ written rest) := by
  induction entries generalizing out with
  | nil =>
    rw [fetchBuffers]
    split_ifs with hout
    · rfl
    · rw [not_not.mp hout]
      rfl
  | cons entry entries ih =>
    rw [fetchBuffers, flatten_cons]
    split_ifs
    · rw [cons_append, written, ih, append_assoc]
    · rw [ih, append_assoc, append_assoc]

theorem written_fetchIo {env : FsEnv} {req : FetchRequest} {session : Session} {reply : FetchReply}
    (h : flashscanHandleFetch env req session = some reply)
    (stale : Nat → Nat → Nat → UInt8) :
    written (fetchIo env stale req session) = leBytes 4 0 ++ (leBytes 4 (fetchHeader reply) ++
      ((fetchBody stale session.valueLen reply).flatten ++ leBytes 4 0)) := by
  have hlast : written [sendOk] = leBytes 4 0 := append_nil _
  rw [fetchIo, h]
  dsimp only
  rw [cons_append, cons_append, cons_append, cons_append, nil_append,
    sendOk, written, written, ← sendOk, written_fetchBuffers, hlast, nil_append]

theorem length_fetchField (vlen : Nat) (held : Nat → UInt8) (value : Option (List UInt8)) :
    (fetchField vlen held value).length = vlen := by
  rw [fetchField, length_take, length_append, length_slice]
  omega

theorem length_fetchBytes (vlen : Nat) (hasFirst : Bool) (stale : Nat → Nat → UInt8)
    (e : FetchEntry) :
    (fetchBytes vlen hasFirst stale e).length = fetchEntrySize vlen hasFirst := by
  rw [fetchBytes, fetchEntrySize]
  cases hasFirst with
  | false =>
    simp only [length_append, length_leBytes, length_fetchField, length_nil,
      Bool.false_eq_true, if_false]
    omega
  | true =>
    simp only [length_append, length_leBytes, length_fetchField, if_true]
    omega

theorem length_fetchBody (stale : Nat → Nat → Nat → UInt8) (vlen : Nat) (reply : FetchReply) :
    (fetchBody stale vlen reply).flatten.length =
      fetchEntrySize vlen reply.hasFirst * reply.entries.length := by
  have hsizes : (fetchBody stale vlen reply).map List.length =
      List.replicate reply.entries.length (fetchEntrySize vlen reply.hasFirst) := by
    rw [eq_replicate_iff, fetchBody, length_map, length_map, length_zipIdx]
    refine ⟨rfl, fun size hmem => ?_⟩
    rw [map_map] at hmem
    obtain ⟨e, -, rfl⟩ := mem_map.mp hmem
    exact length_fetchBytes _ _ _ _
  rw [length_flatten, hsizes, sum_replicate_nat, Nat.mul_comm]

/-! ### As many entries as announced -/

theorem length_fetchLoop {env : FsEnv} {s : SnapshotSession} {start actual fuel i seen : Nat}
    {out : List FetchEntry} (hfuel : s.slotCount ≤ i + fuel) (hout : out.length ≤ actual)
    (hbit : i < s.slotCount → bitAt s.bitmap i = true)
    (hleft : start - seen + (actual - out.length) ≤ countIn (bitAt s.bitmap) i s.slotCount) :
    (fetchLoop env s start actual fuel i seen out).length = actual := by
  have hlast : ∀ {i seen : Nat} {out : List FetchEntry}, out.length ≤ actual → s.slotCount ≤ i →
      start - seen + (actual - out.length) ≤ countIn (bitAt s.bitmap) i s.slotCount →
      out.length = actual := by
    intro i seen out hout hi hleft
    rw [countIn_of_le hi] at hleft
    omega
  induction fuel generalizing i seen out with
  | zero => exact hlast hout hfuel hleft
  | succ fuel ih =>
    rw [fetchLoop]
    by_cases hnext : i < s.slotCount ∧ out.length < actual
    · have hmore : i + 1 ≤ bitmapNextSet s.bitmap (i + 1) s.slotCount :=
        le_bitmapNextSet le_rfl hnext.1
      have hskip : countIn (bitAt s.bitmap) (i + 1) s.slotCount =
          countIn (bitAt s.bitmap) (bitmapNextSet s.bitmap (i + 1) s.slotCount) s.slotCount :=
        countIn_skip hmore fun j hj hlt hn => bitAt_of_lt_bitmapNextSet hj hlt hn
      rw [countIn_succ hnext.1, if_pos (hbit hnext.1), hskip] at hleft
      rw [if_pos hnext]
      by_cases hseen : seen < start
      · rw [if_pos hseen]
        exact ih (by omega) hout (fun hlt => bitAt_bitmapNextSet hlt) (by omega)
      · rw [if_neg hseen]
        refine ih (by omega) ?_ (fun hlt => bitAt_bitmapNextSet hlt) ?_
        · rw [length_append, length_singleton]
          exact hnext.2
        · rw [length_append, length_singleton]
          omega
    · rw [if_neg hnext]
      rcases not_and_or.mp hnext with hi | hall
      · exact hlast hout (not_lt.mp hi) hleft
      · exact le_antisymm hout (not_lt.mp hall)

theorem length_snapshotFetch (env : FsEnv) {s : SnapshotSession} (h : s.survivorCount ≤ s.popcount)
    (req : FetchRequest) :
    (snapshotFetch env s req).entries.length = (snapshotFetch env s req).actual := by
  unfold snapshotFetch
  dsimp only
  generalize hactual : (if req.startIndex < s.survivorCount then
    min req.count (s.survivorCount - req.startIndex) else 0) = actual
  split_ifs with hzero
  · exact hzero.symm
  · have hskip : countIn (bitAt s.bitmap) 0 s.slotCount =
        countIn (bitAt s.bitmap) (bitmapNextSet s.bitmap 0 s.slotCount) s.slotCount :=
      countIn_skip (Nat.zero_le _) fun j hj hlt hn => bitAt_of_lt_bitmapNextSet hj hlt hn
    refine length_fetchLoop (Nat.le_add_left _ _) (Nat.zero_le _)
      (fun hlt => bitAt_bitmapNextSet hlt) ?_
    rw [SnapshotSession.popcount, hskip] at h
    rw [length_nil]
    split_ifs at hactual
    · omega
    · exact absurd hactual.symm hzero

theorem length_listFetch (s : ListSession) (req : FetchRequest) :
    (listFetch s req).entries.length = (listFetch s req).actual := by
  unfold listFetch
  dsimp only
  rw [length_map, length_take, length_drop]
  split_ifs <;> omega

theorem length_handleFetch {env : FsEnv} {req : FetchRequest} {session : Session}
    {reply : FetchReply} (hs : ∀ s, session = .snapshot s → s.survivorCount ≤ s.popcount)
    (h : flashscanHandleFetch env req session = some reply) :
    reply.entries.length = reply.actual := by
  cases session with
  | free =>
    cases h
    rfl
  | snapshot s =>
    rw [flashscanHandleFetch] at h
    split_ifs at h
    cases h
    exact length_snapshotFetch env (hs s rfl) req
  | list s =>
    rw [flashscanHandleFetch] at h
    split_ifs at h
    cases h
    exact length_listFetch s req

end MemDbg.FlashScan
