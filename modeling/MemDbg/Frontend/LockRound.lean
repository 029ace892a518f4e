import MemDbg.Frontend.Trainer
import MemDbg.Lib.Groups

/-!
# A round of the locked entries

`apply_locked_cheats` has two ways to write the entries of the trainer: one request for every entry,
through `apply_cheat`, or requests that carry many entries of a process, where the daemon takes
these.  The two are written out twice.  Both are run here against any daemon, with what they ask it
for and what the rows of the trainer show behind the round.
-/

namespace MemDbg.Frontend

open List Lib

/-! ## The client -/

def protocolMaxPacket : Nat := 1024 * 1024

def fitsPacket (bodyLen : Nat) : Bool := decide (bodyLen % 2 ^ 32 ≤ protocolMaxPacket)

inductive Outcome (α : Type) where
  | done (a : α)
  | failed (error : String) (connected : Bool)

def Outcome.Stays {α : Type} : Outcome α → Prop
  | .done _ => True
  | .failed _ connected => connected = true

structure ProcessMap where
  start : Nat
  stop : Nat
  protection : Nat
  name : String
deriving DecidableEq

structure WriteRequest where
  items : List Write
  asked : Bool
  statuses : List Nat
deriving DecidableEq

structure WriteDaemon where
  processMaps : Nat → Outcome (List ProcessMap)
  memoryWrite : List WriteRequest → Write → Outcome (Option Nat)
  batchWrite : List WriteRequest → Nat → List Write → Outcome (List Nat)

/-- The connection outlives every request. -/
structure WriteDaemon.Stays (d : WriteDaemon) : Prop where
  processMaps : ∀ pid, (d.processMaps pid).Stays
  memoryWrite : ∀ before w, (d.memoryWrite before w).Stays
  batchWrite : ∀ before pid items, (d.batchWrite before pid items).Stays

structure Cheat extends CheatEntry where
  active : Bool
  activeKnown : Bool
  status : String
deriving DecidableEq

structure LockRound where
  cheats : List Cheat
  connected : Bool
  lastError : String
  requests : List WriteRequest
deriving DecidableEq

def Write.bodyLen (w : Write) : Nat := 16 + w.bytes.length

def batchBodyLen (items : List Write) : Nat := 12 + (items.map fun w => 16 + w.bytes.length).sum

namespace LockRound

def request {α : Type} (r : LockRound) (bodyLen : Nat) (outcome : Outcome α) :
    LockRound × Option α :=
  if fitsPacket bodyLen = false then ({ r with lastError := "invalid request payload" }, none)
  else if r.connected = false then ({ r with lastError := "not connected" }, none)
  else match outcome with
    | .done a => ({ r with lastError := "" }, some a)
    | .failed error connected => ({ r with connected := connected, lastError := error }, none)

def sends (r : LockRound) (bodyLen : Nat) : Bool := fitsPacket bodyLen && r.connected

def processMaps (d : WriteDaemon) (r : LockRound) (pid : Nat) :
    LockRound × Option (List ProcessMap) :=
  r.request 4 (d.processMaps pid)

def memoryWrite (d : WriteDaemon) (r : LockRound) (w : Write) : LockRound × Option Nat :=
  match r.request w.bodyLen (d.memoryWrite r.requests w) with
  | (s, none) =>
    ({ s with requests := s.requests ++ [⟨[w], r.sends w.bodyLen, []⟩] }, none)
  | (s, some none) =>
    ({ s with
      lastError := "short write response"
      requests := s.requests ++ [⟨[w], r.sends w.bodyLen, []⟩] }, none)
  | (s, some (some written)) =>
    ({ s with requests := s.requests ++ [⟨[w], r.sends w.bodyLen, [0]⟩] }, some written)

def batchWrite (d : WriteDaemon) (maxItems : Nat) (r : LockRound) (pid : Nat)
    (items : List Write) : LockRound × Option (List Nat) :=
  if items.isEmpty ∨ maxItems < items.length then
    ({ r with
      lastError := "batch_write: invalid item count"
      requests := r.requests ++ [⟨items, false, []⟩] }, none)
  else match r.request (batchBodyLen items) (d.batchWrite r.requests pid items) with
    | (s, none) =>
      ({ s with requests := s.requests ++ [⟨items, r.sends (batchBodyLen items), []⟩] }, none)
    | (s, some statuses) =>
      if statuses.length < items.length then
        ({ s with
          lastError := "batch_write: short response"
          requests := s.requests ++ [⟨items, r.sends (batchBodyLen items), []⟩] }, none)
      else
        ({ s with
          requests := s.requests ++
            [⟨items, r.sends (batchBodyLen items), statuses.take items.length⟩] },
          some (statuses.take items.length))

end LockRound

/-! ## One entry at a time -/

def hexU64 (value : Nat) : String :=
  "0x" ++ String.ofList ((Nat.toDigits 16 value).map Char.toUpper)

def searchMaps (maps : List ProcessMap) (address length : Nat) : Except String Unit :=
  if maps.isEmpty then .ok ()
  else match maps.find? fun map => !(address < map.start || map.stop < address + length) with
    | some map =>
      if map.protection &&& 2 = 0 then
        .error ("Address " ++ hexU64 address ++ " is in a non-writable map" ++
          if map.name.isEmpty then "" else ": " ++ map.name)
      else .ok ()
    | none => .error ("Address " ++ hexU64 address ++ " is outside the known process maps")

namespace LockRound

def knownMaps (d : WriteDaemon) (selectedPid : Nat) (maps : List ProcessMap) (r : LockRound)
    (pid : Nat) : LockRound × List ProcessMap :=
  if pid = selectedPid ∧ maps.isEmpty = false then (r, maps)
  else if r.connected then
    match r.processMaps d pid with
    | (s, some fetched) => (s, fetched)
    | (s, none) => (s, [])
  else (r, [])

def validateWritableAddress (d : WriteDaemon) (selectedPid : Nat) (maps : List ProcessMap)
    (r : LockRound) (pid address length : Nat) : LockRound × Except String Unit :=
  if length = 0 then (r, .ok ())
  else if 2 ^ 64 - 1 - length < address then (r, .error "Trainer address range overflows")
  else
    let (s, known) := r.knownMaps d selectedPid maps pid
    (s, searchMaps known address length)

def setStatus (r : LockRound) (row : Nat) (status : String) : LockRound :=
  { r with cheats := r.cheats.modify row fun c => { c with status := status } }

def setActive (r : LockRound) (row : Nat) (status : String) : LockRound :=
  { r with
    cheats := r.cheats.modify row fun c =>
      { c with active := true, activeKnown := true, status := status } }

def applyCheat (d : WriteDaemon) (selectedPid : Nat) (maps : List ProcessMap) (r : LockRound)
    (row : Nat) (cheat : CheatEntry) : LockRound × Bool :=
  if r.connected = false then (r.setStatus row "No console session", false)
  else if cheat.target selectedPid = 0 then (r.setStatus row "No target PID", false)
  else if cheat.bytes.isEmpty then (r.setStatus row "Empty value", false)
  else
    match r.validateWritableAddress d selectedPid maps (cheat.target selectedPid) cheat.address
        cheat.bytes.length with
    | (s, .error error) => (s.setStatus row error, false)
    | (s, .ok ()) =>
      match s.memoryWrite d (cheat.write (cheat.target selectedPid)) with
      | (s, none) => (s.setStatus row s.lastError, false)
      | (s, some written) =>
        (s.setActive row ("Wrote " ++ toString written ++ " bytes"), true)

end LockRound

/-! ## Batches -/

def Cheat.markBatch (entry : Option Nat) (c : Cheat) : Cheat :=
  match entry with
  | some 0 => { c with active := true, activeKnown := true, status := "Locked (batch)" }
  | _ => { c with status := "Batch write failed" }

def lockedRows (cheats : List Cheat) : List (Cheat × Nat) :=
  cheats.zipIdx.filter fun p => p.1.armed

structure WriteBatch where
  pid : Nat
  rows : List (Cheat × Nat)

namespace WriteBatch

def items (b : WriteBatch) : List Write := b.rows.map fun p => p.1.write b.pid

end WriteBatch

def lockBatches (maxItems selectedPid : Nat) (locked : List (Cheat × Nat)) : List WriteBatch :=
  (lockedPids (locked.map fun p => p.1.toCheatEntry) selectedPid).flatMap fun pid =>
    let group := locked.filter fun p => p.1.target selectedPid = pid
    (chunks maxItems group.length group).map fun rows => ⟨pid, rows⟩

namespace LockRound

def applyBatch (d : WriteDaemon) (maxItems : Nat) (r : LockRound) (b : WriteBatch) : LockRound :=
  match r.batchWrite d maxItems b.pid b.items with
  | (s, none) => s
  | (s, some entries) =>
    { s with
      cheats := modifyRows Cheat.markBatch s.cheats
        (b.rows.zipIdx.map fun p => (p.1.2, entries[p.2]?)) }

def init (cheats : List Cheat) : LockRound := ⟨cheats, true, "", []⟩

def applyLockedCheats (d : WriteDaemon) (maxItems : Nat) (batchWrite : Bool) (selectedPid : Nat)
    (maps : List ProcessMap) (cheats : List Cheat) : LockRound :=
  let locked := lockedRows cheats
  if batchWrite then
    (lockBatches maxItems selectedPid locked).foldl (applyBatch d maxItems) (init cheats)
  else
    locked.foldl (fun r p => (r.applyCheat d selectedPid maps p.2 p.1.toCheatEntry).1) (init cheats)

def asked (r : LockRound) : List Write :=
  (r.requests.filter fun q => q.asked).flatMap fun q => q.items

end LockRound

/-! ## What a request does -/

namespace LockRound

variable {d : WriteDaemon} {maxItems selectedPid : Nat} {maps : List ProcessMap} {r : LockRound}

@[simp] theorem request_cheats {α : Type} (r : LockRound) (bodyLen : Nat) (o : Outcome α) :
    (r.request bodyLen o).1.cheats = r.cheats := by
  unfold request
  split_ifs
  · rfl
  · rfl
  · cases o <;> rfl

@[simp] theorem request_requests {α : Type} (r : LockRound) (bodyLen : Nat) (o : Outcome α) :
    (r.request bodyLen o).1.requests = r.requests := by
  unfold request
  split_ifs
  · rfl
  · rfl
  · cases o <;> rfl

theorem request_connected {α : Type} (hr : r.connected = true) {bodyLen : Nat} {o : Outcome α}
    (ho : o.Stays) : (r.request bodyLen o).1.connected = true := by
  unfold request
  split_ifs
  · exact hr
  · rename_i hdown
    exact absurd (hr.symm.trans hdown) (by decide)
  · cases o with
    | done _ => exact hr
    | failed _ _ => exact ho


end LockRound

def WriteRequest.reports (q : WriteRequest) : List (Write × Option Nat) :=
  q.items.zipIdx.map fun p => (p.1, q.statuses[p.2]?)

namespace LockRound

variable {d : WriteDaemon} {maxItems selectedPid : Nat} {maps : List ProcessMap} {r : LockRound}

theorem batchWrite_spec (d : WriteDaemon) (maxItems : Nat) (r : LockRound) (pid : Nat)
    (items : List Write) :
    (r.batchWrite d maxItems pid items).1.cheats = r.cheats ∧
      ∃ asked statuses, (r.batchWrite d maxItems pid items).1.requests =
        r.requests ++ [⟨items, asked, statuses⟩] ∧
        (((r.batchWrite d maxItems pid items).2 = none ∧ statuses = []) ∨
          ((r.batchWrite d maxItems pid items).2 = some statuses ∧
            statuses.length = items.length)) ∧
        (items ≠ [] → items.length ≤ maxItems → asked = r.sends (batchBodyLen items)) := by
  unfold batchWrite
  split_ifs with hcount
  · refine ⟨rfl, false, [], rfl, .inl ⟨rfl, rfl⟩, fun hne hle => ?_⟩
    rcases hcount with hnil | hlong
    · exact absurd (List.isEmpty_iff.mp hnil) hne
    · exact absurd hle (Nat.not_le.mpr hlong)
  · have hcheats := request_cheats r (batchBodyLen items) (d.batchWrite r.requests pid items)
    have hrequests := request_requests r (batchBodyLen items) (d.batchWrite r.requests pid items)
    generalize r.request (batchBodyLen items) (d.batchWrite r.requests pid items) = call
      at hcheats hrequests ⊢
    obtain ⟨s, _ | statuses⟩ := call
    · exact ⟨hcheats, _, [], congrArg (· ++ _) hrequests, .inl ⟨rfl, rfl⟩, fun _ _ => rfl⟩
    · dsimp only
      split_ifs with hshort
      · exact ⟨hcheats, _, [], congrArg (· ++ _) hrequests, .inl ⟨rfl, rfl⟩, fun _ _ => rfl⟩
      · refine ⟨hcheats, _, _, congrArg (· ++ _) hrequests, .inr ⟨rfl, ?_⟩, fun _ _ => rfl⟩
        rw [length_take]
        omega

def mark (report : Option Nat) (c : Cheat) : Cheat :=
  match report with
  | none => c
  | some status => c.markBatch (some status)

theorem applyBatch_spec (d : WriteDaemon) (maxItems : Nat) (r : LockRound) (b : WriteBatch) :
    ∃ z : List ((Cheat × Nat) × Option Nat), z.map Prod.fst = b.rows ∧
      (r.applyBatch d maxItems b).cheats =
        modifyRows mark r.cheats (z.map fun p => (p.1.2, p.2)) ∧
      (r.applyBatch d maxItems b).requests.flatMap WriteRequest.reports =
        r.requests.flatMap WriteRequest.reports ++ z.map fun p => (p.1.1.write b.pid, p.2) := by
  obtain ⟨hcheats, asked, statuses, hrequests, hcases, -⟩ :=
    batchWrite_spec d maxItems r b.pid b.items
  have hreports : (⟨b.items, asked, statuses⟩ : WriteRequest).reports =
      (b.rows.zipIdx.map fun p => (p.1, statuses[p.2]?)).map
        fun p => (p.1.1.write b.pid, p.2) := by
    rw [WriteRequest.reports, WriteBatch.items, zipIdx_map, map_map, map_map]
    rfl
  refine ⟨b.rows.zipIdx.map fun p => (p.1, statuses[p.2]?), ?_, ?_, ?_⟩
  · rw [map_map]
    exact zipIdx_map_fst 0 b.rows
  · rw [map_map]
    unfold applyBatch
    rcases hcases with ⟨hnone, rfl⟩ | ⟨hsome, hlen⟩
    · generalize r.batchWrite d maxItems b.pid b.items = call at hcheats hnone ⊢
      obtain ⟨s, _⟩ := call
      cases hnone
      refine hcheats.trans (modifyRows_of_fixed (fun m hm => ?_) _).symm
      obtain ⟨p, -, rfl⟩ := mem_map.mp hm
      rfl
    · generalize r.batchWrite d maxItems b.pid b.items = call at hcheats hsome ⊢
      obtain ⟨s, _⟩ := call
      cases hsome
      change modifyRows Cheat.markBatch s.cheats _ = _
      rw [show s.cheats = r.cheats from hcheats]
      refine modifyRows_congr (fun p hp => ?_) _
      have hlt : p.2 < statuses.length := by
        rw [hlen, WriteBatch.items, length_map]
        exact snd_lt_of_mem_zipIdx hp
      dsimp only
      rw [getElem?_eq_getElem hlt]
      rfl
  · unfold applyBatch
    rw [← hreports, ← flatMap_singleton WriteRequest.reports, ← flatMap_append,
      ← hrequests]
    rcases r.batchWrite d maxItems b.pid b.items with ⟨s, _ | entries⟩ <;> rfl

theorem foldl_applyBatch_spec (d : WriteDaemon) (maxItems : Nat) (bs : List WriteBatch)
    (r : LockRound) :
    ∃ z : List ((Nat × Cheat × Nat) × Option Nat),
      z.map Prod.fst = bs.flatMap (fun b => b.rows.map fun p => (b.pid, p)) ∧
      (bs.foldl (applyBatch d maxItems) r).cheats =
        modifyRows mark r.cheats (z.map fun q => (q.1.2.2, q.2)) ∧
      (bs.foldl (applyBatch d maxItems) r).requests.flatMap WriteRequest.reports =
        r.requests.flatMap WriteRequest.reports ++
          z.map fun q => (q.1.2.1.write q.1.1, q.2) := by
  induction bs generalizing r with
  | nil => exact ⟨[], rfl, rfl, (append_nil _).symm⟩
  | cons b bs ih =>
    obtain ⟨z₁, hrows, hcheats₁, hreports₁⟩ := applyBatch_spec d maxItems r b
    obtain ⟨z₂, hrest, hcheats₂, hreports₂⟩ := ih (r.applyBatch d maxItems b)
    refine ⟨z₁.map (fun q => ((b.pid, q.1), q.2)) ++ z₂, ?_, ?_, ?_⟩
    · rw [map_append, hrest, flatMap_cons, ← hrows, map_map, map_map]
      rfl
    · rw [foldl_cons, hcheats₂, hcheats₁, map_append, modifyRows_append, map_map]
      rfl
    · rw [foldl_cons, hreports₂, hreports₁, map_append, map_map, append_assoc]
      rfl

end LockRound

/-! ## The entries of a round -/

def rowTarget (selectedPid : Nat) (p : Cheat × Nat) : Nat := p.1.target selectedPid

def rowWrite (selectedPid : Nat) (p : Cheat × Nat) : Write := p.1.write (rowTarget selectedPid p)

def roundPids (selectedPid : Nat) (locked : List (Cheat × Nat)) : List Nat :=
  lockedPids (locked.map fun p => p.1.toCheatEntry) selectedPid

theorem mem_roundPids {selectedPid : Nat} {locked : List (Cheat × Nat)} {pid : Nat} :
    pid ∈ roundPids selectedPid locked ↔ 0 < pid ∧ ∃ p ∈ locked, rowTarget selectedPid p = pid := by
  rw [roundPids, lockedPids, mem_eraseDups, mem_filter, decide_eq_true_eq, and_comm]
  simp only [mem_map, exists_exists_and_eq_and]
  rfl

theorem nodup_roundPids (selectedPid : Nat) (locked : List (Cheat × Nat)) :
    (roundPids selectedPid locked).Nodup := nodup_eraseDups _

theorem rows_lockBatches {maxItems : Nat} (hmax : 0 < maxItems) (selectedPid : Nat)
    (locked : List (Cheat × Nat)) :
    ((lockBatches maxItems selectedPid locked).flatMap fun b => b.rows.map fun p => (b.pid, p)) =
      (regroup (rowTarget selectedPid) (roundPids selectedPid locked) locked).map
        fun p => (rowTarget selectedPid p, p) := by
  rw [lockBatches, regroup, flatMap_assoc, map_flatMap]
  refine flatMap_congr fun pid _ => ?_
  rw [flatMap_map]
  change ((chunks _ _ _).flatMap fun rows => rows.map fun p => (pid, p)) = _
  rw [flatMap_def, ← map_flatten, flatten_chunks hmax (Nat.le_refl _)]
  refine map_congr_left fun p hp => ?_
  rw [← of_decide_eq_true (mem_filter.mp hp).2]
  rfl

theorem mem_lockBatches {maxItems : Nat} (hmax : 0 < maxItems) {selectedPid : Nat}
    {locked : List (Cheat × Nat)} {b : WriteBatch}
    (h : b ∈ lockBatches maxItems selectedPid locked) :
    b.items ≠ [] ∧ b.items.length ≤ maxItems := by
  rw [lockBatches, mem_flatMap] at h
  obtain ⟨pid, -, h⟩ := h
  obtain ⟨rows, hrows, rfl⟩ := mem_map.mp h
  obtain ⟨hne, hlen⟩ := mem_chunks_bounds hmax hrows
  rw [WriteBatch.items, length_map]
  exact ⟨fun hnil => hne (map_eq_nil_iff.mp hnil), hlen⟩

theorem mem_items_lockBatches {maxItems : Nat} (hmax : 0 < maxItems) {selectedPid : Nat}
    {locked : List (Cheat × Nat)} {b : WriteBatch}
    (h : b ∈ lockBatches maxItems selectedPid locked) {w : Write} (hw : w ∈ b.items) :
    ∃ p ∈ locked, 0 < rowTarget selectedPid p ∧ w = rowWrite selectedPid p := by
  obtain ⟨p, hp, rfl⟩ := mem_map.mp hw
  have hmem : (b.pid, p) ∈ (lockBatches maxItems selectedPid locked).flatMap
      fun b => b.rows.map fun p => (b.pid, p) :=
    mem_flatMap.mpr ⟨b, h, mem_map_of_mem hp⟩
  rw [rows_lockBatches hmax] at hmem
  obtain ⟨q, hq, heq⟩ := mem_map.mp hmem
  obtain ⟨hpid, rfl⟩ := Prod.mk.inj heq
  obtain ⟨hlocked, hpids⟩ := mem_regroup.mp hq
  exact ⟨q, hlocked, (mem_roundPids.mp hpids).1, by rw [rowWrite, hpid]⟩

theorem mem_lockedRows {cheats : List Cheat} {p : Cheat × Nat} :
    p ∈ lockedRows cheats ↔ cheats[p.2]? = some p.1 ∧ p.1.armed = true := by
  rw [lockedRows, mem_filter, mem_zipIdx_iff_getElem?]

theorem nodup_lockedRows (cheats : List Cheat) : ((lockedRows cheats).map Prod.snd).Nodup := by
  refine List.Nodup.sublist ((filter_sublist).map Prod.snd) ?_
  rw [zipIdx_map_snd]
  exact nodup_range'

/-! ## The rows behind a round -/

def rowPlace (cheats : List Cheat) (selectedPid row pid : Nat) : Nat :=
  (cheats.take row).countP fun c => c.armed && decide (c.target selectedPid = pid)

namespace LockRound

def itemReport (r : LockRound) (pid place : Nat) : Option (Write × Option Nat) :=
  ((r.requests.flatMap WriteRequest.reports).filter fun p => p.1.pid = pid)[place]?

variable {d : WriteDaemon} {maxItems selectedPid : Nat} {maps : List ProcessMap}
  {cheats : List Cheat} {r : LockRound}

theorem applyLockedCheats_batch_spec (hmax : 0 < maxItems) (d : WriteDaemon) (selectedPid : Nat)
    (maps : List ProcessMap) (cheats : List Cheat) :
    ∃ z : List ((Cheat × Nat) × Option Nat),
      z.map Prod.fst = regroup (rowTarget selectedPid)
        (roundPids selectedPid (lockedRows cheats)) (lockedRows cheats) ∧
      (applyLockedCheats d maxItems true selectedPid maps cheats).cheats =
        modifyRows mark cheats (z.map fun q => (q.1.2, q.2)) ∧
      (applyLockedCheats d maxItems true selectedPid maps cheats).requests.flatMap
        WriteRequest.reports = z.map fun q => (rowWrite selectedPid q.1, q.2) := by
  obtain ⟨z, hrows, hcheats, hreports⟩ := foldl_applyBatch_spec d maxItems
    (lockBatches maxItems selectedPid (lockedRows cheats)) (init cheats)
  rw [rows_lockBatches hmax] at hrows
  refine ⟨z.map fun q => (q.1.2, q.2), ?_, ?_, ?_⟩
  · have h := congrArg (List.map Prod.snd) hrows
    rw [map_map, map_map] at h
    rw [map_map]
    exact h.trans (map_id _)
  · rw [map_map]
    exact hcheats
  · rw [map_map]
    refine hreports.trans ((nil_append _).trans (map_congr_left fun q hq => ?_))
    have hmem := mem_map_of_mem (f := Prod.fst) hq
    rw [hrows] at hmem
    obtain ⟨p, -, heq⟩ := mem_map.mp hmem
    dsimp only [Function.comp_apply]
    rw [← heq]
    rfl

theorem getElem?_lockedRows {row : Nat} {c : Cheat} (hc : cheats[row]? = some c)
    (harmed : c.armed = true) (selectedPid : Nat) :
    ((lockedRows cheats).filter fun p => rowTarget selectedPid p = c.target selectedPid)[
      rowPlace cheats selectedPid row (c.target selectedPid)]? = some (c, row) := by
  let p : Cheat → Bool := fun c' =>
    c'.armed && decide (c'.target selectedPid = c.target selectedPid)
  have hfilter : ((lockedRows cheats).filter
      fun q => rowTarget selectedPid q = c.target selectedPid) =
        cheats.zipIdx.filter (p ∘ Prod.fst) := by
    rw [lockedRows, filter_filter]
    exact filter_congr fun q _ => Bool.and_comm _ _
  have hplace : rowPlace cheats selectedPid row (c.target selectedPid) =
      (cheats.zipIdx.take row).countP (p ∘ Prod.fst) := by
    rw [← countP_map, map_take, zipIdx_map_fst]
    rfl
  rw [hfilter, hplace]
  refine getElem?_filter_countP ?_ ?_
  · rw [getElem?_zipIdx, hc, Nat.zero_add]
    rfl
  · change (c.armed && decide (c.target selectedPid = c.target selectedPid)) = true
    rw [harmed, decide_eq_true rfl]
    rfl

theorem mark_active (report : Option Nat) (c : Cheat) :
    (mark report c).active = true ↔ c.active = true ∨ report = some 0 := by
  rcases report with _ | _ | status
  · exact ⟨.inl, fun h => h.resolve_right nofun⟩
  · exact ⟨fun _ => .inr rfl, fun _ => rfl⟩
  · exact ⟨.inl, fun h => h.resolve_right nofun⟩

theorem batch_active_iff (hmax : 0 < maxItems) (d : WriteDaemon) (selectedPid : Nat)
    (maps : List ProcessMap) {row : Nat} {c : Cheat} (hc : cheats[row]? = some c) :
    ∃ c', (applyLockedCheats d maxItems true selectedPid maps cheats).cheats[row]? = some c' ∧
      (c'.active = true ↔ c.active = true ∨ (c.armed = true ∧ 0 < c.target selectedPid ∧
        (applyLockedCheats d maxItems true selectedPid maps cheats).itemReport
          (c.target selectedPid) (rowPlace cheats selectedPid row (c.target selectedPid)) =
            some (c.write (c.target selectedPid), some 0))) := by
  obtain ⟨z, hrows, hcheats, hreports⟩ :=
    applyLockedCheats_batch_spec hmax d selectedPid maps cheats
  have hkeys : (z.map fun q => (q.1.2, q.2)).map Prod.fst = (z.map Prod.fst).map Prod.snd := by
    rw [map_map, map_map]
    rfl
  by_cases hlocked : c.armed = true ∧ 0 < c.target selectedPid
  · obtain ⟨harmed, hpid⟩ := hlocked
    have hmem : (c, row) ∈ lockedRows cheats := mem_lockedRows.mpr ⟨hc, harmed⟩
    have hpids : c.target selectedPid ∈ roundPids selectedPid (lockedRows cheats) :=
      mem_roundPids.mpr ⟨hpid, _, hmem, rfl⟩
    -- the place of the row in its group is that of its item among the items of the process
    have hgroup : (z.filter fun q ↦ rowTarget selectedPid q.1 = c.target selectedPid).map Prod.fst =
        (lockedRows cheats).filter fun p => rowTarget selectedPid p = c.target selectedPid := by
      have hback : (regroup (rowTarget selectedPid) (roundPids selectedPid (lockedRows cheats))
          (lockedRows cheats)).filter (fun p => rowTarget selectedPid p = c.target selectedPid) =
            (lockedRows cheats).filter fun p => rowTarget selectedPid p = c.target selectedPid :=
        filter_regroup (nodup_roundPids _ _) hpids
      rw [← hback, ← hrows, filter_map]
      rfl
    have hplace := getElem?_lockedRows hc harmed selectedPid
    rw [← hgroup, getElem?_map, Option.map_eq_some_iff] at hplace
    obtain ⟨⟨_, report⟩, hplace, rfl⟩ := hplace
    have hreport : (applyLockedCheats d maxItems true selectedPid maps cheats).itemReport
        (c.target selectedPid) (rowPlace cheats selectedPid row (c.target selectedPid)) =
          some (c.write (c.target selectedPid), report) := by
      rw [itemReport, hreports, filter_map, getElem?_map]
      exact congrArg (Option.map _) hplace
    have hz : ((c, row), report) ∈ z := (mem_filter.mp (mem_of_getElem? hplace)).1
    have hnodup : ((z.map fun q => (q.1.2, q.2)).map Prod.fst).Nodup := by
      rw [hkeys, hrows]
      refine List.Nodup.map_on (fun p hp q hq heq => ?_)
        (nodup_regroup (nodup_roundPids _ _) (List.Nodup.of_map _ (nodup_lockedRows cheats)))
      exact inj_on_of_nodup_map (nodup_lockedRows cheats) (mem_regroup.mp hp).1
        (mem_regroup.mp hq).1 heq
    refine ⟨mark report c, ?_, ?_⟩
    · rw [hcheats, getElem?_modifyRows_of_mem hnodup (mem_map_of_mem hz), hc]
      rfl
    · rw [mark_active, hreport]
      simp only [harmed, hpid, true_and, Option.some.injEq, Prod.mk.injEq]
  · refine ⟨c, ?_, .inl, fun h => h.resolve_right fun ⟨harmed, hpid, _⟩ => hlocked ⟨harmed, hpid⟩⟩
    rw [hcheats, getElem?_modifyRows_of_notMem, hc]
    rw [hkeys, hrows]
    intro hmem
    obtain ⟨p, hp, rfl⟩ := mem_map.mp hmem
    obtain ⟨hrow, hpids⟩ := mem_regroup.mp hp
    obtain ⟨hpc, harmed⟩ := mem_lockedRows.mp hrow
    have heq : p.1 = c := Option.some.inj (hpc.symm.trans hc)
    exact hlocked ⟨heq ▸ harmed, heq ▸ (mem_roundPids.mp hpids).1⟩

/-! ## What a round asks for -/

theorem asked_congr {s : LockRound} (h : s.requests = r.requests) : s.asked = r.asked := by
  rw [asked, asked, h]

theorem asked_of_requests {s : LockRound} {q : WriteRequest}
    (h : s.requests = r.requests ++ [q]) :
    s.asked = r.asked ++ if q.asked then q.items else [] := by
  obtain ⟨items, _ | _, statuses⟩ := q
  · rw [asked, h, filter_append, flatMap_append]
    rfl
  · rw [asked, h, filter_append, flatMap_append]
    exact congrArg (_ ++ ·) (append_nil _)

theorem batchWrite_connected (hd : d.Stays) (hr : r.connected = true) (maxItems pid : Nat)
    (items : List Write) : (r.batchWrite d maxItems pid items).1.connected = true := by
  unfold batchWrite
  split_ifs
  · exact hr
  · have hcall := @request_connected _ _ hr (batchBodyLen items) _
      (hd.batchWrite r.requests pid items)
    generalize r.request (batchBodyLen items) (d.batchWrite r.requests pid items) = call
      at hcall ⊢
    obtain ⟨s, _ | statuses⟩ := call
    · exact hcall
    · dsimp only
      split_ifs <;> exact hcall

theorem applyBatch_asked (hd : d.Stays) (hr : r.connected = true) {b : WriteBatch}
    (hne : b.items ≠ []) (hle : b.items.length ≤ maxItems) :
    (r.applyBatch d maxItems b).connected = true ∧
      (r.applyBatch d maxItems b).asked =
        r.asked ++ if fitsPacket (batchBodyLen b.items) then b.items else [] := by
  obtain ⟨-, asked, statuses, hrequests, -, hasked⟩ := batchWrite_spec d maxItems r b.pid b.items
  have hsame : (r.applyBatch d maxItems b).connected =
        (r.batchWrite d maxItems b.pid b.items).1.connected ∧
      (r.applyBatch d maxItems b).requests =
        (r.batchWrite d maxItems b.pid b.items).1.requests := by
    unfold applyBatch
    rcases r.batchWrite d maxItems b.pid b.items with ⟨s, _ | entries⟩ <;> exact ⟨rfl, rfl⟩
  refine ⟨hsame.1.trans (batchWrite_connected hd hr maxItems b.pid b.items), ?_⟩
  rw [asked_of_requests (hsame.2.trans hrequests), hasked hne hle, sends, hr, Bool.and_true]

theorem foldl_applyBatch_asked (hd : d.Stays) {bs : List WriteBatch}
    (hbs : ∀ b ∈ bs, b.items ≠ [] ∧ b.items.length ≤ maxItems) (hr : r.connected = true) :
    (bs.foldl (applyBatch d maxItems) r).asked =
      r.asked ++
        (bs.filter fun b => fitsPacket (batchBodyLen b.items)).flatMap WriteBatch.items := by
  induction bs generalizing r with
  | nil => exact (append_nil _).symm
  | cons b bs ih =>
    obtain ⟨hne, hle⟩ := hbs b mem_cons_self
    obtain ⟨hconnected, hasked⟩ := applyBatch_asked hd hr hne hle
    rw [foldl_cons, ih (fun b' hb' => hbs b' (mem_cons_of_mem _ hb')) hconnected, hasked,
      append_assoc]
    cases hfits : fitsPacket (batchBodyLen b.items) with
    | false =>
      rw [filter_cons, hfits, if_neg Bool.false_ne_true, if_neg Bool.false_ne_true,
        nil_append]
    | true => rw [filter_cons, hfits, if_pos rfl, if_pos rfl, flatMap_cons]

end LockRound

def mapsOf (d : WriteDaemon) (selectedPid : Nat) (maps : List ProcessMap) (pid : Nat) :
    List ProcessMap :=
  if pid = selectedPid ∧ maps.isEmpty = false then maps
  else match d.processMaps pid with
    | .done fetched => fetched
    | .failed _ _ => []

def checkAddress (known : List ProcessMap) (address length : Nat) : Except String Unit :=
  if length = 0 then .ok ()
  else if 2 ^ 64 - 1 - length < address then .error "Trainer address range overflows"
  else searchMaps known address length

def Write.admitted (d : WriteDaemon) (selectedPid : Nat) (maps : List ProcessMap) (w : Write) :
    Bool :=
  (checkAddress (mapsOf d selectedPid maps w.pid) w.address w.bytes.length).isOk &&
    fitsPacket w.bodyLen

namespace LockRound

variable {d : WriteDaemon} {maxItems : Nat} {cheats : List Cheat} {r : LockRound}

theorem knownMaps_spec (hd : d.Stays) (hr : r.connected = true) (selectedPid : Nat)
    (maps : List ProcessMap) (pid : Nat) :
    (r.knownMaps d selectedPid maps pid).1.connected = true ∧
      (r.knownMaps d selectedPid maps pid).1.requests = r.requests ∧
      (r.knownMaps d selectedPid maps pid).2 = mapsOf d selectedPid maps pid := by
  unfold knownMaps mapsOf
  split_ifs with hselected
  · exact ⟨hr, rfl, rfl⟩
  · have hstays := hd.processMaps pid
    unfold processMaps request
    rw [if_neg (by decide), if_neg (by rw [hr]; decide)]
    generalize d.processMaps pid = outcome at hstays ⊢
    cases outcome with
    | done fetched => exact ⟨hr, rfl, rfl⟩
    | failed error connected => exact ⟨hstays, rfl, rfl⟩

theorem validateWritableAddress_spec (hd : d.Stays) (hr : r.connected = true) (selectedPid : Nat)
    (maps : List ProcessMap) (pid address length : Nat) :
    (r.validateWritableAddress d selectedPid maps pid address length).1.connected = true ∧
      (r.validateWritableAddress d selectedPid maps pid address length).1.requests = r.requests ∧
      (r.validateWritableAddress d selectedPid maps pid address length).2 =
        checkAddress (mapsOf d selectedPid maps pid) address length := by
  obtain ⟨hconnected, hrequests, hmaps⟩ := knownMaps_spec hd hr selectedPid maps pid
  unfold validateWritableAddress checkAddress
  split_ifs
  · exact ⟨hr, rfl, rfl⟩
  · exact ⟨hr, rfl, rfl⟩
  · exact ⟨hconnected, hrequests, congrArg (searchMaps · address length) hmaps⟩

theorem memoryWrite_spec (hd : d.Stays) (hr : r.connected = true) (w : Write) :
    (r.memoryWrite d w).1.connected = true ∧
      (r.memoryWrite d w).1.asked = r.asked ++ if fitsPacket w.bodyLen then [w] else [] := by
  have hcall := @request_connected _ _ hr w.bodyLen _ (hd.memoryWrite r.requests w)
  have hrequests := request_requests r w.bodyLen (d.memoryWrite r.requests w)
  have hsends : r.sends w.bodyLen = fitsPacket w.bodyLen := by rw [sends, hr, Bool.and_true]
  unfold memoryWrite
  generalize r.request w.bodyLen (d.memoryWrite r.requests w) = call at hcall hrequests ⊢
  rw [← hsends]
  obtain ⟨s, _ | _ | written⟩ := call
  · exact ⟨hcall, @asked_of_requests r _ ⟨[w], _, []⟩ (congrArg (· ++ _) hrequests)⟩
  · exact ⟨hcall, @asked_of_requests r _ ⟨[w], _, []⟩ (congrArg (· ++ _) hrequests)⟩
  · exact ⟨hcall, @asked_of_requests r _ ⟨[w], _, [0]⟩ (congrArg (· ++ _) hrequests)⟩

theorem applyCheat_asked (hd : d.Stays) (hr : r.connected = true) (selectedPid : Nat)
    (maps : List ProcessMap) (row : Nat) {cheat : CheatEntry} (hbytes : cheat.bytes ≠ []) :
    (r.applyCheat d selectedPid maps row cheat).1.connected = true ∧
      (r.applyCheat d selectedPid maps row cheat).1.asked = r.asked ++
        if 0 < cheat.target selectedPid ∧
            (cheat.write (cheat.target selectedPid)).admitted d selectedPid maps = true then
          [cheat.write (cheat.target selectedPid)] else [] := by
  unfold applyCheat
  rw [if_neg (by rw [hr]; decide)]
  by_cases hpid : cheat.target selectedPid = 0
  · rw [if_pos hpid, if_neg (by omega), append_nil]
    exact ⟨hr, rfl⟩
  · rw [if_neg hpid, if_neg (by rwa [List.isEmpty_iff])]
    obtain ⟨hconnected, hrequests, hcheck⟩ := validateWritableAddress_spec hd hr selectedPid maps
      (cheat.target selectedPid) cheat.address cheat.bytes.length
    have hstatus : ∀ (s : LockRound) (status : String), s.connected = true →
        s.requests = r.requests → (s.setStatus row status).connected = true ∧
          (s.setStatus row status).asked = r.asked ++ [] := fun s status hs hreq =>
      ⟨hs, (asked_congr hreq).trans (append_nil _).symm⟩
    have hadmitted : (cheat.write (cheat.target selectedPid)).admitted d selectedPid maps =
        ((r.validateWritableAddress d selectedPid maps (cheat.target selectedPid) cheat.address
          cheat.bytes.length).2.isOk &&
            fitsPacket (cheat.write (cheat.target selectedPid)).bodyLen) := by
      rw [hcheck]
      rfl
    generalize r.validateWritableAddress d selectedPid maps (cheat.target selectedPid) cheat.address
      cheat.bytes.length = call at hconnected hrequests hadmitted ⊢
    obtain ⟨s, error | _⟩ := call
    · rw [if_neg (by rw [hadmitted]; exact fun h => nomatch h.2)]
      exact hstatus s error hconnected hrequests
    · obtain ⟨hwrite, hasked⟩ := memoryWrite_spec hd (show s.connected = true from hconnected)
        (cheat.write (cheat.target selectedPid))
      rw [show s.asked = r.asked from asked_congr hrequests] at hasked
      have hsent : 0 < cheat.target selectedPid ∧
          (cheat.write (cheat.target selectedPid)).admitted d selectedPid maps = true ↔
            fitsPacket (cheat.write (cheat.target selectedPid)).bodyLen = true := by
        rw [hadmitted]
        exact ⟨fun h => h.2, fun h => ⟨Nat.pos_of_ne_zero hpid, h⟩⟩
      rw [if_congr hsent rfl rfl, ← hasked]
      dsimp only
      generalize s.memoryWrite d (cheat.write (cheat.target selectedPid)) = call at hwrite ⊢
      obtain ⟨s', _ | written⟩ := call
      · exact ⟨hwrite, rfl⟩
      · exact ⟨hwrite, rfl⟩

theorem foldl_applyCheat_asked (hd : d.Stays) (selectedPid : Nat) (maps : List ProcessMap)
    {rows : List (Cheat × Nat)} (hrows : ∀ p ∈ rows, p.1.bytes ≠ []) (hr : r.connected = true) :
    (rows.foldl (fun r p => (r.applyCheat d selectedPid maps p.2 p.1.toCheatEntry).1) r).asked =
      r.asked ++ (rows.filter fun p => decide (0 < rowTarget selectedPid p) &&
        (rowWrite selectedPid p).admitted d selectedPid maps).map (rowWrite selectedPid) := by
  induction rows generalizing r with
  | nil => exact (append_nil _).symm
  | cons p rows ih =>
    obtain ⟨hconnected, hasked⟩ := applyCheat_asked hd hr selectedPid maps p.2
      (hrows p mem_cons_self)
    rw [foldl_cons, ih (fun p' hp' => hrows p' (mem_cons_of_mem _ hp')) hconnected,
      hasked, append_assoc, filter_cons]
    have hsent : (decide (0 < rowTarget selectedPid p) &&
        (rowWrite selectedPid p).admitted d selectedPid maps) = true ↔
          0 < p.1.target selectedPid ∧
            (p.1.write (p.1.target selectedPid)).admitted d selectedPid maps = true := by
      rw [Bool.and_eq_true, decide_eq_true_eq]
      rfl
    rw [if_congr hsent rfl rfl]
    split_ifs
    · rfl
    · rfl

end LockRound

/-! ## The two ways against each other -/

/-- The two ways come to the same for every locked entry that has a process: a batch with its write
fits just if `apply_cheat` admits the write. -/
def Sanctioned (d : WriteDaemon) (maxItems selectedPid : Nat) (maps : List ProcessMap)
    (cheats : List Cheat) : Prop :=
  ∀ p ∈ lockedRows cheats, 0 < rowTarget selectedPid p →
    ((∃ b ∈ lockBatches maxItems selectedPid (lockedRows cheats),
      fitsPacket (batchBodyLen b.items) = true ∧ rowWrite selectedPid p ∈ b.items) ↔
        (rowWrite selectedPid p).admitted d selectedPid maps = true)

namespace LockRound

variable {d : WriteDaemon} {maxItems selectedPid : Nat} {maps : List ProcessMap}
  {cheats : List Cheat}

theorem mem_asked_batch (hmax : 0 < maxItems) (hd : d.Stays) {w : Write} :
    w ∈ (applyLockedCheats d maxItems true selectedPid maps cheats).asked ↔
      ∃ b ∈ lockBatches maxItems selectedPid (lockedRows cheats),
        fitsPacket (batchBodyLen b.items) = true ∧ w ∈ b.items := by
  have h : (applyLockedCheats d maxItems true selectedPid maps cheats).asked = _ :=
    foldl_applyBatch_asked hd (fun _ hb => mem_lockBatches hmax hb) (r := init cheats) rfl
  rw [h, show (init cheats).asked = [] from rfl, nil_append, mem_flatMap]
  simp only [mem_filter, and_assoc]

theorem bytes_of_mem_lockedRows {p : Cheat × Nat} (hp : p ∈ lockedRows cheats) :
    p.1.bytes ≠ [] := by
  have harmed := (mem_lockedRows.mp hp).2
  rw [CheatEntry.armed, Bool.and_eq_true, decide_eq_true_eq] at harmed
  exact harmed.2

theorem mem_asked_single (hd : d.Stays) {w : Write} :
    w ∈ (applyLockedCheats d maxItems false selectedPid maps cheats).asked ↔
      ∃ p ∈ lockedRows cheats, 0 < rowTarget selectedPid p ∧
        (rowWrite selectedPid p).admitted d selectedPid maps = true ∧
          rowWrite selectedPid p = w := by
  have h : (applyLockedCheats d maxItems false selectedPid maps cheats).asked = _ :=
    foldl_applyCheat_asked hd selectedPid maps (fun _ => bytes_of_mem_lockedRows)
      (r := init cheats) rfl
  rw [h, show (init cheats).asked = [] from rfl, nil_append, mem_map]
  simp only [mem_filter, Bool.and_eq_true, decide_eq_true_eq, and_assoc]

/-- A round of batches asks for what `apply_cheat` would, if and only if each locked entry is
sanctioned, and a row turns active by the status of its own item only. -/
theorem lockRound_agrees (hmax : 0 < maxItems) (d : WriteDaemon) (selectedPid : Nat)
    (maps : List ProcessMap) (cheats : List Cheat) :
    (d.Stays →
      ((∀ w, w ∈ (applyLockedCheats d maxItems true selectedPid maps cheats).asked ↔
          w ∈ (applyLockedCheats d maxItems false selectedPid maps cheats).asked) ↔
        Sanctioned d maxItems selectedPid maps cheats)) ∧
    ∀ row c, cheats[row]? = some c →
      ∃ c', (applyLockedCheats d maxItems true selectedPid maps cheats).cheats[row]? = some c' ∧
        (c'.active = true ↔ c.active = true ∨ (c.armed = true ∧ 0 < c.target selectedPid ∧
          (applyLockedCheats d maxItems true selectedPid maps cheats).itemReport
            (c.target selectedPid) (rowPlace cheats selectedPid row (c.target selectedPid)) =
              some (c.write (c.target selectedPid), some 0))) := by
  refine ⟨fun hd => ⟨fun h p hp hpid => ?_, fun h w => ?_⟩,
    fun row c hc => batch_active_iff hmax d selectedPid maps hc⟩
  · rw [← mem_asked_batch hmax hd, h, mem_asked_single hd]
    constructor
    · rintro ⟨q, -, -, hadmitted, heq⟩
      rwa [heq] at hadmitted
    · exact fun hadmitted => ⟨p, hp, hpid, hadmitted, rfl⟩
  · rw [mem_asked_single hd]
    constructor
    · intro hw
      obtain ⟨b, hb, hfits, hitem⟩ := (mem_asked_batch hmax hd).mp hw
      obtain ⟨p, hp, hpid, rfl⟩ := mem_items_lockBatches hmax hb hitem
      exact ⟨p, hp, hpid, (h p hp hpid).mp ⟨b, hb, hfits, hitem⟩, rfl⟩
    · rintro ⟨p, hp, hpid, hadmitted, rfl⟩
      exact (mem_asked_batch hmax hd).mpr ((h p hp hpid).mpr hadmitted)

def obliging : WriteDaemon where
  processMaps _ := .done []
  memoryWrite _ w := .done (some w.bytes.length)
  batchWrite _ _ items := .done (items.map fun _ => 0)

def lockedByte (address : Nat) : Cheat :=
  { pid := 7, address := address, bytes := [1], enabled := true, locked := true, active := false,
    activeKnown := false, status := "" }

theorem obliging_stays : obliging.Stays :=
  ⟨fun _ => trivial, fun _ _ => trivial, fun _ _ _ => trivial⟩

theorem lockRound_agrees_obliging :
    (∀ w, w ∈ (applyLockedCheats obliging batchWriteMaxItems true 7 [⟨0, 4096, 3, ""⟩]
        [lockedByte 16]).asked ↔
      w ∈ (applyLockedCheats obliging batchWriteMaxItems false 7 [⟨0, 4096, 3, ""⟩]
        [lockedByte 16]).asked) ∧
    ∃ c', (applyLockedCheats obliging batchWriteMaxItems true 7 [⟨0, 4096, 3, ""⟩]
      [lockedByte 16]).cheats[0]? = some c' ∧ c'.active = true := by
  obtain ⟨hasked, hrow⟩ :=
    @lockRound_agrees batchWriteMaxItems (by decide) obliging 7 [⟨0, 4096, 3, ""⟩] [lockedByte 16]
  refine ⟨(hasked obliging_stays).mpr (by unfold Sanctioned; decide), ?_⟩
  obtain ⟨c', hc', hactive⟩ := hrow 0 (lockedByte 16) rfl
  exact ⟨c', hc', hactive.mpr (.inr (by decide))⟩

theorem lockRound_disagrees :
    ¬ ∀ (d : WriteDaemon) (selectedPid : Nat) (maps : List ProcessMap) (cheats : List Cheat) w,
      w ∈ (applyLockedCheats d batchWriteMaxItems true selectedPid maps cheats).asked ↔
        w ∈ (applyLockedCheats d batchWriteMaxItems false selectedPid maps cheats).asked := by
  intro h
  have hsent : (⟨7, 16, [1]⟩ : Write) ∈ (applyLockedCheats obliging batchWriteMaxItems true 7
      [⟨0, 4096, 1, ""⟩] [lockedByte 16]).asked := by decide
  exact absurd ((h _ _ _ _ _).mp hsent) (by decide)

end LockRound

end MemDbg.Frontend
