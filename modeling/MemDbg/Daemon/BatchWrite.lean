import MemDbg.Daemon.Dispatch

/-!
# Batch writes

`BATCH_WRITE` collects the items that are to be written and maps what the layer below says
of them back to all items; `BATCH_WRITE_ADV` goes through its items twice.  What has to
come out is the same for both: nothing is written unless the whole body can be read, and
then one write after the other.
-/

namespace MemDbg.Daemon.Dispatch

open List Lib Wire Wire.Reply

/-! ## The layer below -/

structure PalWrite (σ : Type) where
  batchBegin : Int → Bool
  batchItem : Int → Nat → List UInt8 → σ → Nat × σ
  write : Int → Nat → List UInt8 → σ → Status × Nat × σ

section Model

variable {σ : Type} (pal : PalWrite σ)

def memdbgMemoryWrite (pid : Int) (address : Nat) (data : List UInt8) (s : σ) :
    Status × Nat × σ :=
  if pid ≤ 0 then (.errParam, 0, s)
  else if data = [] then (.ok, 0, s)
  else pal.write pid address data s

def batchWriteSingles (pid : Int) :
    List (Nat × Nat) → List UInt8 → Status → σ → Status × List BatchWriteResult × σ
  | [], _, overall, s => (overall, [], s)
  | (address, len) :: items, data, overall, s =>
    if len = 0 then
      let rest := batchWriteSingles pid items data overall s
      (rest.1, ⟨address, 0, statusCode .ok⟩ :: rest.2.1, rest.2.2)
    else
      let r := pal.write pid address (data.take len) s
      let overall := if r.1 ≠ .ok ∧ overall = .ok then r.1 else overall
      let rest := batchWriteSingles pid items (data.drop len) overall r.2.2
      (rest.1, ⟨address, wrap32 r.2.1, statusCode r.1⟩ :: rest.2.1, rest.2.2)

def batchWriteItems (pid : Int) :
    List (Nat × Nat) → List UInt8 → Status → σ → Status × List BatchWriteResult × σ
  | [], _, overall, s => (overall, [], s)
  | (address, len) :: items, data, overall, s =>
    if len = 0 then
      let rest := batchWriteItems pid items data overall s
      (rest.1, ⟨address, 0, statusCode .ok⟩ :: rest.2.1, rest.2.2)
    else
      let r := pal.batchItem pid address (data.take len) s
      let st : Status := if r.1 = len then .ok else .errIo
      let overall := if r.1 ≠ len ∧ overall = .ok then .errIo else overall
      let rest := batchWriteItems pid items (data.drop len) overall r.2
      (rest.1, ⟨address, wrap32 r.1, statusCode st⟩ :: rest.2.1, rest.2.2)

def memdbgMemoryBatchWrite (pid : Int) (items : List (Nat × Nat)) (data : List UInt8)
    (results : List BatchWriteResult) (s : σ) : Status × List BatchWriteResult × σ :=
  if pid ≤ 0 ∨ items = [] ∨ 64 < items.length then (.errParam, results, s)
  else if pal.batchBegin pid then batchWriteItems pal pid items data .ok s
  else batchWriteSingles pal pid items data .ok s

/-! ## `BATCH_WRITE` -/

def batchWriteFill : List BatchWriteResult → List BatchWriteResult → List BatchWriteResult
  | [], _ => []
  | results, [] => results
  | r :: results, w :: written =>
    if r.status = statusCode .errIo then
      ⟨r.address, w.written, w.status⟩ :: batchWriteFill results written
    else r :: batchWriteFill results (w :: written)

def handleBatchWriteIn (cfg : Config) (malloc : Nat → Bool) (garbage : List BatchWriteResult)
    (req : Request) (s : σ) : Except Status (Status × List BatchWriteResult) × σ :=
  if req.body.length < 12 then (.error .errProtocol, s)
  else
    let count := req.field 4 4
    if count = 0 ∨ 64 < count then (.error .errParam, s)
    else if malloc 0 = false then (.error .errNomem, s)
    else
      let (results, items, overall) := batchWriteParse cfg count (req.body.drop 12) .ok
      let headerStatus : Status := if overall = .errProtocol then .errProtocol else .ok
      if overall = .errProtocol ∨ items = [] then (.ok (headerStatus, results), s)
      else if cfg.maxPacketBytes < (items.map fun item => item.2.length).sum then
        (.ok (headerStatus, batchWriteMark .errOverflow results), s)
      else if malloc 1 = false then (.ok (headerStatus, batchWriteMark .errNomem results), s)
      else
        let flatData := items.flatMap Prod.snd
        let r := memdbgMemoryBatchWrite pal (pidAt req 0)
          (items.map fun item => (item.1, item.2.length)) flatData garbage s
        (.ok (headerStatus, batchWriteFill results (r.2.1.take items.length)), r.2.2)

/-! ## `BATCH_WRITE_ADV` -/

def advWrites (pid : Int) : Nat → List UInt8 → Status → σ → Status × List UInt8 × σ
  | 0, _, overall, s => (overall, [], s)
  | n + 1, cursor, overall, s =>
    let addr := leNat (cursor.take 8)
    let len := leNat ((cursor.drop 8).take 4)
    let rest := cursor.drop 12
    let r := memdbgMemoryWrite pal pid addr (rest.take len) s
    let overall :=
      if (r.1 ≠ .ok ∨ r.2.1 ≠ len) ∧ overall = .ok then if r.1 ≠ .ok then r.1 else .errIo
      else overall
    let rest := advWrites pid n (rest.drop len) overall r.2.2
    (rest.1, (if r.1 = .ok ∧ r.2.1 = len then 0 else 1) :: rest.2.1, rest.2.2)

def memdbgBatchWriteAdvHandle (malloc : Nat → Bool) (req : Request) (s : σ) :
    Status × List UInt8 × σ :=
  let count := req.field 4 4
  let flags := req.field 8 4
  if count = 0 ∨ 0xFFFF < count then (.errParam, [], s)
  else if 2 ≤ flags then (.errProtocol, [], s)
  else if flags = 1 ∧ malloc 0 = false then (.errNomem, [], s)
  else if batchWriteAdvValidate count (req.body.drop 16) ≠ .ok then
    (batchWriteAdvValidate count (req.body.drop 16), [], s)
  else
    let r := advWrites pal (pidAt req 0) count (req.body.drop 16) .ok s
    (r.1, if flags = 1 then r.2.1 else [], r.2.2)

end Model

/-! ## What a batch is for -/

abbrev WriteItem := Nat × List UInt8

def streamItems (header : Nat) : Nat → List UInt8 → Option (List WriteItem × List UInt8)
  | 0, cursor => some ([], cursor)
  | n + 1, cursor =>
    let len := leNat ((cursor.drop 8).take 4)
    let rest := cursor.drop header
    if cursor.length < header ∨ rest.length < len then none
    else
      (streamItems header n (rest.drop len)).map fun r =>
        ((leNat (cursor.take 8), rest.take len) :: r.1, r.2)

abbrev WriteOutcome := WriteItem × Status × Nat

section Spec

variable {σ : Type} (w : WriteItem → σ → (Status × Nat) × σ)

def writeInOrder : List WriteItem → σ → List WriteOutcome × σ
  | [], s => ([], s)
  | item :: items, s =>
    let r := w item s
    let rest := writeInOrder items r.2
    ((item, r.1) :: rest.1, rest.2)

def acceptedItem (cfg : Config) (item : WriteItem) : Bool :=
  item.2 ≠ [] && item.2.length ≤ cfg.maxReadBytes

def skippedResult (item : WriteItem) : BatchWriteResult :=
  ⟨item.1, 0, if item.2 = [] then statusCode .ok else statusCode .errOverflow⟩

def outcomeResult (o : WriteOutcome) : BatchWriteResult :=
  ⟨o.1.1, wrap32 o.2.2, statusCode o.2.1⟩

def batchInOrder (cfg : Config) : List WriteItem → σ → List BatchWriteResult × σ
  | [], s => ([], s)
  | item :: items, s =>
    if acceptedItem cfg item then
      let r := w item s
      let rest := batchInOrder cfg items r.2
      (outcomeResult (item, r.1) :: rest.1, rest.2)
    else
      let rest := batchInOrder cfg items s
      (skippedResult item :: rest.1, rest.2)

end Spec

section Loops

variable {σ : Type} {pal : PalWrite σ} {cfg : Config} {pid : Int} {items : List WriteItem}

def PalWrite.itemOutcome (pal : PalWrite σ) (pid : Int) (item : WriteItem) (s : σ) :
    (Status × Nat) × σ :=
  if pid ≤ 0 then ((.errParam, 0), s)
  else if pal.batchBegin pid then
    let r := pal.batchItem pid item.1 item.2 s
    ((if r.1 = item.2.length then .ok else .errIo, r.1), r.2)
  else
    let r := pal.write pid item.1 item.2 s
    ((r.1, r.2.1), r.2.2)

def parsedResult (cfg : Config) (item : WriteItem) : BatchWriteResult :=
  if acceptedItem cfg item then .pending item.1 else skippedResult item

theorem parsedResult_cons {address : Nat} {data : List UInt8} :
    parsedResult cfg (address, data) =
      if data = [] then ⟨address, 0, statusCode .ok⟩
      else if cfg.maxReadBytes < data.length then ⟨address, 0, statusCode .errOverflow⟩
      else .pending address := by
  unfold parsedResult acceptedItem skippedResult
  by_cases hdata : data = []
  · simp [hdata]
  · by_cases hmax : cfg.maxReadBytes < data.length
    · simp [hdata, hmax]
    · simp [hdata, hmax, not_lt.mp hmax]

theorem acceptedItem_iff {item : WriteItem} :
    acceptedItem cfg item = true ↔ item.2 ≠ [] ∧ ¬cfg.maxReadBytes < item.2.length := by
  simp [acceptedItem]

theorem batchWriteParse_spec (n : Nat) (cursor : List UInt8) {overall : Status}
    (hoverall : overall ≠ .errProtocol) :
    match streamItems 16 n cursor with
    | none => (batchWriteParse cfg n cursor overall).2.2 = .errProtocol
    | some (items, _) => ∃ overall', overall' ≠ .errProtocol ∧
        batchWriteParse cfg n cursor overall =
          (items.map (parsedResult cfg), items.filter (acceptedItem cfg), overall') := by
  induction n generalizing cursor overall with
  | zero => exact ⟨overall, hoverall, rfl⟩
  | succ n ih =>
    rw [streamItems, batchWriteParse]
    dsimp only
    generalize leNat ((cursor.drop 8).take 4) = len
    generalize cursor.drop 16 = rest
    generalize leNat (cursor.take 8) = address
    by_cases hheader : cursor.length < 16
    · rw [if_pos (.inl hheader), if_pos hheader]
    by_cases hshort : rest.length < len
    · rw [if_pos (.inr hshort), if_neg hheader, if_neg (by omega), if_pos hshort]
    rw [if_neg (not_or.mpr ⟨hheader, hshort⟩), if_neg hheader, if_neg hshort]
    have hlength : (rest.take len).length = len := length_take_of_le (not_lt.mp hshort)
    have hempty : rest.take len = [] ↔ len = 0 := by
      rw [← length_eq_zero_iff, hlength]
    have hentry : parsedResult cfg (address, rest.take len) =
        if len = 0 then ⟨address, 0, statusCode .ok⟩
        else if cfg.maxReadBytes < len then ⟨address, 0, statusCode .errOverflow⟩
        else .pending address := by
      rw [parsedResult_cons, hlength]
      simp only [hempty]
    have haccepted : acceptedItem cfg (address, rest.take len) = true ↔
        len ≠ 0 ∧ ¬cfg.maxReadBytes < len := by
      rw [acceptedItem_iff, hlength, ne_eq, hempty]
    by_cases hzero : len = 0
    · have hrest := ih rest hoverall
      rw [if_pos hzero, show rest.drop len = rest by rw [hzero, drop_zero]]
      cases hitems : streamItems 16 n rest with
      | none =>
        rw [hitems] at hrest
        exact hrest
      | some r =>
        rw [hitems] at hrest
        obtain ⟨overall', hne, hparse⟩ := hrest
        refine ⟨overall', hne, ?_⟩
        rw [hparse, map_cons, hentry, if_pos hzero,
          filter_cons_of_neg (by rw [haccepted]; exact fun h => h.1 hzero)]
    rw [if_neg hzero]
    by_cases hmax : cfg.maxReadBytes < len
    · have hrest := @ih (rest.drop len) .errOverflow nofun
      rw [if_pos hmax]
      cases hitems : streamItems 16 n (rest.drop len) with
      | none =>
        rw [hitems] at hrest
        exact hrest
      | some r =>
        rw [hitems] at hrest
        obtain ⟨overall', hne, hparse⟩ := hrest
        refine ⟨overall', hne, ?_⟩
        rw [hparse, map_cons, hentry, if_neg hzero, if_pos hmax,
          filter_cons_of_neg (by rw [haccepted]; exact fun h => h.2 hmax)]
    · have hrest := ih (rest.drop len) hoverall
      rw [if_neg hmax]
      cases hitems : streamItems 16 n (rest.drop len) with
      | none =>
        rw [hitems] at hrest
        exact hrest
      | some r =>
        rw [hitems] at hrest
        obtain ⟨overall', hne, hparse⟩ := hrest
        refine ⟨overall', hne, ?_⟩
        rw [hparse, map_cons, hentry, if_neg hzero, if_neg hmax,
          filter_cons_of_pos (haccepted.mpr ⟨hzero, hmax⟩)]

theorem batchWriteItems_spec (hpid : 0 < pid) (hbegin : pal.batchBegin pid = true)
    (hitems : ∀ item ∈ items, item.2 ≠ []) (overall : Status) (s : σ) :
    (batchWriteItems pal pid (items.map fun item => (item.1, item.2.length))
        (items.flatMap Prod.snd) overall s).2 =
      ((writeInOrder (pal.itemOutcome pid) items s).1.map outcomeResult,
        (writeInOrder (pal.itemOutcome pid) items s).2) := by
  induction items generalizing overall s with
  | nil => rfl
  | cons item items ih =>
    obtain ⟨hitem, hrest⟩ := forall_mem_cons.mp hitems
    have hlen : item.2.length ≠ 0 := mt length_eq_zero_iff.mp hitem
    rw [map_cons, flatMap_cons, batchWriteItems, if_neg hlen, take_left' rfl,
      drop_left' rfl, writeInOrder, PalWrite.itemOutcome, if_neg (not_le.mpr hpid),
      if_pos hbegin]
    dsimp only
    rw [ih hrest, map_cons, outcomeResult]

theorem batchWriteSingles_spec (hpid : 0 < pid) (hbegin : ¬pal.batchBegin pid = true)
    (hitems : ∀ item ∈ items, item.2 ≠ []) (overall : Status) (s : σ) :
    (batchWriteSingles pal pid (items.map fun item => (item.1, item.2.length))
        (items.flatMap Prod.snd) overall s).2 =
      ((writeInOrder (pal.itemOutcome pid) items s).1.map outcomeResult,
        (writeInOrder (pal.itemOutcome pid) items s).2) := by
  induction items generalizing overall s with
  | nil => rfl
  | cons item items ih =>
    obtain ⟨hitem, hrest⟩ := forall_mem_cons.mp hitems
    have hlen : item.2.length ≠ 0 := mt length_eq_zero_iff.mp hitem
    rw [map_cons, flatMap_cons, batchWriteSingles, if_neg hlen, take_left' rfl,
      drop_left' rfl, writeInOrder, PalWrite.itemOutcome, if_neg (not_le.mpr hpid),
      if_neg hbegin]
    dsimp only
    rw [ih hrest, map_cons, outcomeResult]

theorem memdbgMemoryBatchWrite_spec (hpid : 0 < pid) (hne : items ≠ [])
    (hcount : items.length ≤ 64) (hitems : ∀ item ∈ items, item.2 ≠ [])
    (garbage : List BatchWriteResult) (s : σ) :
    (memdbgMemoryBatchWrite pal pid (items.map fun item => (item.1, item.2.length))
        (items.flatMap Prod.snd) garbage s).2 =
      ((writeInOrder (pal.itemOutcome pid) items s).1.map outcomeResult,
        (writeInOrder (pal.itemOutcome pid) items s).2) := by
  rw [memdbgMemoryBatchWrite, if_neg (by simp [hne]; omega)]
  split_ifs with hbegin
  · exact batchWriteItems_spec hpid hbegin hitems _ s
  · exact batchWriteSingles_spec hpid hbegin hitems _ s

theorem length_writeInOrder (w : WriteItem → σ → (Status × Nat) × σ) (items : List WriteItem)
    (s : σ) : (writeInOrder w items s).1.length = items.length := by
  induction items generalizing s with
  | nil => rfl
  | cons item items ih => simp [writeInOrder, ih]

theorem batchWriteFill_nil (results : List BatchWriteResult) :
    batchWriteFill results [] = results := by
  cases results <;> rfl

theorem batchWriteFill_spec (w : WriteItem → σ → (Status × Nat) × σ) (items : List WriteItem)
    (s : σ) :
    (batchWriteFill (items.map (parsedResult cfg))
        ((writeInOrder w (items.filter (acceptedItem cfg)) s).1.map outcomeResult),
      (writeInOrder w (items.filter (acceptedItem cfg)) s).2) = batchInOrder w cfg items s := by
  induction items generalizing s with
  | nil => rfl
  | cons item items ih =>
    rw [batchInOrder, map_cons, parsedResult]
    by_cases haccepted : acceptedItem cfg item = true
    · rw [filter_cons_of_pos haccepted, if_pos haccepted, if_pos haccepted, writeInOrder]
      dsimp only
      rw [map_cons, batchWriteFill, BatchWriteResult.pending, if_pos rfl, ← ih]
      rfl
    · have hstatus : (skippedResult item).status ≠ statusCode .errIo := by
        unfold skippedResult
        dsimp only
        split_ifs <;> decide
      rw [filter_cons_of_neg haccepted, if_neg haccepted, if_neg haccepted, ← ih]
      cases (writeInOrder w (items.filter (acceptedItem cfg)) s).1.map outcomeResult with
      | nil => rw [batchWriteFill_nil, batchWriteFill_nil]
      | cons o rest => rw [batchWriteFill, if_neg hstatus]

theorem batchWriteMark_spec (st : Status) (items : List WriteItem) :
    batchWriteMark st (items.map (parsedResult cfg)) = items.map fun item =>
      if acceptedItem cfg item then ⟨item.1, 0, statusCode st⟩ else skippedResult item := by
  rw [batchWriteMark, map_map]
  refine map_congr_left fun item _ => ?_
  rw [Function.comp_apply, parsedResult]
  split_ifs with haccepted hstatus hstatus
  · rfl
  · exact absurd rfl hstatus
  · exact absurd hstatus (by unfold skippedResult; dsimp only; split_ifs <;> decide)
  · rfl

theorem batchInOrder_const {n : WriteItem → Nat} {st : Status} (items : List WriteItem) (s : σ)
    {w : WriteItem → σ → (Status × Nat) × σ} (hw : ∀ item s, w item s = ((st, n item), s)) :
    batchInOrder w cfg items s = (items.map fun item =>
      if acceptedItem cfg item then ⟨item.1, wrap32 (n item), statusCode st⟩
      else skippedResult item, s) := by
  induction items with
  | nil => rfl
  | cons item items ih =>
    rw [batchInOrder, ih, map_cons]
    by_cases haccepted : acceptedItem cfg item = true
    · simp only [haccepted, if_true, hw, ih, outcomeResult]
    · simp only [haccepted, if_false, Bool.false_eq_true]

end Loops

/-! ## What is promised of a batch -/

section Batch

variable {cfg : Config} {malloc : Nat → Bool} {req : Request}

def BatchAdmitted (malloc : Nat → Bool) (req : Request) : Prop :=
  12 ≤ req.body.length ∧ req.field 4 4 ≠ 0 ∧ req.field 4 4 ≤ 64 ∧ malloc 0 = true

def batchItems (req : Request) : Option (List WriteItem) :=
  (streamItems 16 (req.field 4 4) (req.body.drop 12)).map Prod.fst

/-- A batch is written item by item with the outcome of each, or not at all if it is
rejected or one of its items is truncated. -/
def BatchFaithful {σ : Type} (pal : PalWrite σ) (cfg : Config) (malloc : Nat → Bool)
    (garbage : List BatchWriteResult) (req : Request) (s : σ) : Prop :=
  let out := handleBatchWriteIn pal cfg malloc garbage req s
  (¬BatchAdmitted malloc req → ∃ st, out = (.error st, s)) ∧
    (BatchAdmitted malloc req →
      match batchItems req with
      | none => ∃ results, out = (.ok (.errProtocol, results), s)
      | some items =>
        let expected := batchInOrder (pal.itemOutcome (pidAt req 0)) cfg items s
        out = (.ok (.ok, expected.1), expected.2))

/-- The items that can be read and are not empty or too long can be passed on: the process
is one, and the copy of their data fits and can be allocated. -/
def PassesOn (cfg : Config) (malloc : Nat → Bool) (req : Request) : Prop :=
  BatchAdmitted malloc req → ∀ items, batchItems req = some items →
    items.filter (acceptedItem cfg) = [] ∨
      0 < pidAt req 0 ∧ malloc 1 = true ∧
        ((items.filter (acceptedItem cfg)).map fun item => item.2.length).sum ≤ cfg.maxPacketBytes

variable {σ : Type}

theorem handleBatchWriteIn_of_not_admitted (pal : PalWrite σ)
    (garbage : List BatchWriteResult) (s : σ) (h : ¬BatchAdmitted malloc req) :
    ∃ st, handleBatchWriteIn pal cfg malloc garbage req s = (.error st, s) := by
  rw [handleBatchWriteIn]
  dsimp only
  split_ifs with hlen hcount hmalloc
  · exact ⟨_, rfl⟩
  · exact ⟨_, rfl⟩
  · exact ⟨_, rfl⟩
  all_goals exact absurd ⟨by omega, by omega, by omega, by simpa using hmalloc⟩ h

theorem handleBatchWriteIn_of_items (pal : PalWrite σ)
    (garbage : List BatchWriteResult) (s : σ) (h : BatchAdmitted malloc req)
    {items : List WriteItem} (hitems : batchItems req = some items) :
    handleBatchWriteIn pal cfg malloc garbage req s =
      let accepted := items.filter (acceptedItem cfg)
      let results := items.map (parsedResult cfg)
      if accepted = [] then (.ok (.ok, results), s)
      else if cfg.maxPacketBytes < (accepted.map fun item => item.2.length).sum then
        (.ok (.ok, batchWriteMark .errOverflow results), s)
      else if malloc 1 = false then (.ok (.ok, batchWriteMark .errNomem results), s)
      else
        let r := memdbgMemoryBatchWrite pal (pidAt req 0)
          (accepted.map fun item => (item.1, item.2.length)) (accepted.flatMap Prod.snd) garbage s
        (.ok (.ok, batchWriteFill results (r.2.1.take accepted.length)), r.2.2) := by
  obtain ⟨hlen, hzero, hcount, hmalloc⟩ := h
  have hparse := @batchWriteParse_spec cfg (req.field 4 4) (req.body.drop 12) .ok nofun
  obtain ⟨⟨found, rest⟩, hstream, rfl⟩ := Option.map_eq_some_iff.mp hitems
  rw [hstream] at hparse
  obtain ⟨overall, hoverall, hparse⟩ := hparse
  rw [handleBatchWriteIn, if_neg (by omega), if_neg (by omega), hmalloc,
    if_neg (by decide), hparse]
  simp only [hoverall, if_false, false_or]

theorem handleBatchWriteIn_of_truncated (pal : PalWrite σ)
    (garbage : List BatchWriteResult) (s : σ) (h : BatchAdmitted malloc req)
    (hitems : batchItems req = none) :
    ∃ results, handleBatchWriteIn pal cfg malloc garbage req s =
      (.ok (.errProtocol, results), s) := by
  obtain ⟨hlen, hzero, hcount, hmalloc⟩ := h
  have hparse := @batchWriteParse_spec cfg (req.field 4 4) (req.body.drop 12) .ok nofun
  rw [Option.map_eq_none_iff.mp hitems] at hparse
  refine ⟨(batchWriteParse cfg (req.field 4 4) (req.body.drop 12) .ok).1, ?_⟩
  rw [handleBatchWriteIn, if_neg (by omega), if_neg (by omega), hmalloc, if_neg (by decide)]
  simp only [hparse, if_true, true_or]

theorem length_streamItems {header n : Nat} {cursor rest : List UInt8} {items : List WriteItem}
    (h : streamItems header n cursor = some (items, rest)) : items.length = n := by
  induction n generalizing cursor items rest with
  | zero =>
    cases h
    rfl
  | succ n ih =>
    rw [streamItems] at h
    split_ifs at h
    obtain ⟨r, hr, heq⟩ := Option.map_eq_some_iff.mp h
    cases heq
    rw [length_cons, ih hr]

theorem length_batchItems {items : List WriteItem} (hitems : batchItems req = some items) :
    items.length = req.field 4 4 := by
  obtain ⟨r, hstream, rfl⟩ := Option.map_eq_some_iff.mp hitems
  exact length_streamItems hstream

theorem batchInOrder_of_none (w : WriteItem → σ → (Status × Nat) × σ)
    {items : List WriteItem} (h : items.filter (acceptedItem cfg) = []) (s : σ) :
    batchInOrder w cfg items s = (items.map (parsedResult cfg), s) := by
  have hfill := @batchWriteFill_spec _ cfg w items s
  rw [h, writeInOrder, map_nil, batchWriteFill_nil] at hfill
  exact hfill.symm

theorem batchFaithful_of_passesOn (h : PassesOn cfg malloc req) (pal : PalWrite σ)
    (garbage : List BatchWriteResult) (s : σ) : BatchFaithful pal cfg malloc garbage req s := by
  refine ⟨handleBatchWriteIn_of_not_admitted pal garbage s, fun hadmitted => ?_⟩
  cases hitems : batchItems req with
  | none => exact handleBatchWriteIn_of_truncated pal garbage s hadmitted hitems
  | some items =>
    rw [handleBatchWriteIn_of_items pal garbage s hadmitted hitems]
    dsimp only
    by_cases hnone : items.filter (acceptedItem cfg) = []
    · rw [if_pos hnone, batchInOrder_of_none _ hnone]
    obtain ⟨hpid, hmalloc, hsum⟩ := (h hadmitted items hitems).resolve_left hnone
    have hcount : (items.filter (acceptedItem cfg)).length ≤ 64 :=
      ((length_filter_le _ _).trans_eq (length_batchItems hitems)).trans hadmitted.2.2.1
    have hbytes : ∀ item ∈ items.filter (acceptedItem cfg), item.2 ≠ [] :=
      fun item hitem => (acceptedItem_iff.mp (mem_filter.mp hitem).2).1
    have hwrite := @memdbgMemoryBatchWrite_spec _ pal _ _ hpid hnone hcount hbytes garbage s
    have hfill := @batchWriteFill_spec _ cfg (pal.itemOutcome (pidAt req 0)) items s
    rw [if_neg hnone, if_neg (not_lt.mpr hsum), hmalloc, if_neg (by decide), hwrite,
      take_of_length_le (by rw [length_map, length_writeInOrder]), ← hfill]

def PalWrite.obliging : PalWrite Unit where
  batchBegin _ := true
  batchItem _ _ data _ := (data.length, ())
  write _ _ data _ := (.ok, data.length, ())

theorem statusCode_of_map_eq {items : List WriteItem} {n n' : WriteItem → Nat} {st st' : Status}
    (hne : items.filter (acceptedItem cfg) ≠ [])
    (h : (items.map fun item => if acceptedItem cfg item then
        (⟨item.1, n item, statusCode st⟩ : BatchWriteResult) else skippedResult item) =
      items.map fun item => if acceptedItem cfg item then ⟨item.1, n' item, statusCode st'⟩
        else skippedResult item) : statusCode st = statusCode st' := by
  obtain ⟨item, hitem⟩ := exists_mem_of_ne_nil _ hne
  obtain ⟨hmem, haccepted⟩ := mem_filter.mp hitem
  have heq := map_inj_left.mp h item hmem
  rw [if_pos haccepted, if_pos haccepted] at heq
  exact congrArg BatchWriteResult.status heq

theorem passesOn_of_batchFaithful
    (h : ∀ (σ : Type) (pal : PalWrite σ) (garbage : List BatchWriteResult) (s : σ),
      BatchFaithful pal cfg malloc garbage req s) : PassesOn cfg malloc req := by
  intro hadmitted items hitems
  refine or_iff_not_imp_left.mpr fun hnone => ?_
  have hfaithful := fun garbage => (h Unit PalWrite.obliging garbage ()).2 hadmitted
  simp only [hitems, handleBatchWriteIn_of_items PalWrite.obliging _ () hadmitted hitems,
    if_neg hnone] at hfaithful
  have hmark : ∀ {st st' : Status} {n : WriteItem → Nat} {u : Unit},
      (Except.ok (.ok, batchWriteMark st (items.map (parsedResult cfg))), ()) =
        ((Except.ok (.ok, items.map fun item => if acceptedItem cfg item then
          (⟨item.1, n item, statusCode st'⟩ : BatchWriteResult) else skippedResult item), u) :
            Except Status (Status × List BatchWriteResult) × Unit) →
      statusCode st = statusCode st' := by
    intro st st' n u heq
    rw [batchWriteMark_spec] at heq
    exact statusCode_of_map_eq hnone (congrArg Prod.snd (Except.ok.inj (Prod.mk.inj heq).1))
  have hpid : 0 < pidAt req 0 := by
    by_contra hpid
    rw [@batchInOrder_const _ cfg (fun _ => 0) .errParam items () _ fun item s => by
      rw [PalWrite.itemOutcome, if_pos (not_lt.mp hpid)]] at hfaithful
    -- what is on the stack may look as if everything had been written
    have hstack := hfaithful ((writeInOrder (fun _ s => ((.ok, 0), s))
      (items.filter (acceptedItem cfg)) ()).1.map outcomeResult)
    split_ifs at hstack
    · exact absurd (hmark hstack) (by decide)
    · exact absurd (hmark hstack) (by decide)
    rw [memdbgMemoryBatchWrite, if_pos (.inl (not_lt.mp hpid)), take_of_length_le
      (by rw [length_map, length_writeInOrder])] at hstack
    have hfill := @batchWriteFill_spec _ cfg (fun _ s => ((.ok, 0), s)) items ()
    rw [@batchInOrder_const _ cfg (fun _ => 0) .ok items () _ fun _ _ => rfl] at hfill
    have hresults := (Prod.mk.inj (Except.ok.inj (Prod.mk.inj hstack).1)).2
    rw [(Prod.mk.inj hfill).1] at hresults
    exact absurd (statusCode_of_map_eq hnone hresults) (by decide)
  rw [@batchInOrder_const _ cfg (fun item => item.2.length) .ok items () _ fun item s => by
    simp [PalWrite.itemOutcome, PalWrite.obliging, not_le.mpr hpid]] at hfaithful
  have hwritten := hfaithful []
  split_ifs at hwritten with hsum hmalloc
  · exact absurd (hmark hwritten) (by decide)
  · exact absurd (hmark hwritten) (by decide)
  · exact ⟨hpid, by simpa using hmalloc, not_lt.mp hsum⟩

theorem batchFaithful_iff :
    (∀ (σ : Type) (pal : PalWrite σ) (garbage : List BatchWriteResult) (s : σ),
      BatchFaithful pal cfg malloc garbage req s) ↔ PassesOn cfg malloc req :=
  ⟨passesOn_of_batchFaithful, fun h _ => batchFaithful_of_passesOn h⟩

/-! ### Items with a status byte -/

def singleOutcome {σ : Type} (pal : PalWrite σ) (pid : Int) (item : WriteItem) (s : σ) :
    (Status × Nat) × σ :=
  let r := memdbgMemoryWrite pal pid item.1 item.2 s
  ((r.1, r.2.1), r.2.2)

def WriteOutcome.Written (o : WriteOutcome) : Prop := o.2.1 = .ok ∧ o.2.2 = o.1.2.length

instance (o : WriteOutcome) : Decidable o.Written :=
  inferInstanceAs (Decidable (o.2.1 = .ok ∧ o.2.2 = o.1.2.length))

def statusByte (o : WriteOutcome) : UInt8 := if o.Written then 0 else 1

def firstFailure : List WriteOutcome → Status
  | [] => .ok
  | o :: outcomes =>
    if o.Written then firstFailure outcomes
    else if o.2.1 ≠ .ok then o.2.1 else .errIo

def advItems (req : Request) : Option (List WriteItem) :=
  match streamItems 12 (req.field 4 4) (req.body.drop 16) with
  | some (items, []) => if ∀ item ∈ items, item.2.length ≤ 0x100000 then some items else none
  | _ => none

def AdvAdmitted (req : Request) : Prop :=
  req.field 4 4 ≠ 0 ∧ req.field 4 4 ≤ 0xFFFF ∧ req.field 8 4 < 2

/-- A body with items that can be read is written item by item with the outcome of each, any
other writes nothing and is answered with an error. -/
def AdvFaithful {σ : Type} (pal : PalWrite σ) (malloc : Nat → Bool) (req : Request) (s : σ) :
    Prop :=
  let out := memdbgBatchWriteAdvHandle pal malloc req s
  (¬AdvAdmitted req ∨ advItems req = none → out.1 ≠ .ok ∧ out.2 = ([], s)) ∧
    (AdvAdmitted req → ∀ items, advItems req = some items →
      let expected := writeInOrder (singleOutcome pal (pidAt req 0)) items s
      out = (firstFailure expected.1,
        if req.field 8 4 = 1 then expected.1.map statusByte else [], expected.2))

/-- The status bytes that are asked for can be allocated. -/
def AdvAllocates (malloc : Nat → Bool) (req : Request) : Prop :=
  AdvAdmitted req → advItems req ≠ none → req.field 8 4 = 1 → malloc 0 = true

theorem batchWriteAdvValidate_iff (n : Nat) (cursor : List UInt8) :
    batchWriteAdvValidate n cursor = .ok ↔ ∃ items, streamItems 12 n cursor = some (items, []) ∧
      ∀ item ∈ items, item.2.length ≤ 0x100000 := by
  induction n generalizing cursor with
  | zero => cases cursor <;> simp [batchWriteAdvValidate, streamItems]
  | succ n ih =>
    rw [batchWriteAdvValidate, streamItems]
    dsimp only
    generalize leNat ((cursor.drop 8).take 4) = len
    generalize cursor.drop 12 = rest
    generalize leNat (cursor.take 8) = address
    by_cases hheader : cursor.length < 12
    · rw [if_pos hheader, if_pos (.inl hheader)]
      simp
    rw [if_neg hheader]
    by_cases hshort : rest.length < len
    · rw [if_pos hshort, if_pos (Or.inr hshort)]
      split_ifs <;> simp
    have hlength : (rest.take len).length = len := length_take_of_le (not_lt.mp hshort)
    rw [if_neg (not_or.mpr ⟨hheader, hshort⟩), if_neg hshort]
    by_cases hmax : 0x100000 < len
    · rw [if_pos hmax]
      refine iff_of_false nofun ?_
      rintro ⟨items, hitems, hbound⟩
      obtain ⟨r, -, heq⟩ := Option.map_eq_some_iff.mp hitems
      obtain ⟨rfl, -⟩ := Prod.mk.inj heq
      have := hbound _ mem_cons_self
      rw [hlength] at this
      omega
    · rw [if_neg hmax, ih]
      constructor
      · rintro ⟨items, hitems, hbound⟩
        refine ⟨(address, rest.take len) :: items, by rw [hitems]; rfl, ?_⟩
        exact forall_mem_cons.mpr ⟨hlength.trans_le (not_lt.mp hmax), hbound⟩
      · rintro ⟨items, hitems, hbound⟩
        obtain ⟨⟨found, left⟩, hfound, heq⟩ := Option.map_eq_some_iff.mp hitems
        obtain ⟨rfl, rfl⟩ := Prod.mk.inj heq
        exact ⟨found, hfound, (forall_mem_cons.mp hbound).2⟩

theorem advWrites_spec {pal : PalWrite σ} {pid : Int} {n : Nat}
    {cursor rest : List UInt8} {items : List WriteItem}
    (h : streamItems 12 n cursor = some (items, rest)) (overall : Status) (s : σ) :
    advWrites pal pid n cursor overall s =
      let out := writeInOrder (singleOutcome pal pid) items s
      (if overall = .ok then firstFailure out.1 else overall, out.1.map statusByte, out.2) := by
  induction n generalizing cursor items overall s with
  | zero =>
    cases h
    cases overall <;> rfl
  | succ n ih =>
    rw [streamItems] at h
    split_ifs at h with hshort
    obtain ⟨⟨found, left⟩, hfound, heq⟩ := Option.map_eq_some_iff.mp h
    obtain ⟨rfl, rfl⟩ := Prod.mk.inj heq
    have hlength := length_take_of_le (not_lt.mp (not_or.mp hshort).2)
    rw [advWrites]
    dsimp only
    rw [ih hfound, writeInOrder, singleOutcome]
    generalize leNat ((cursor.drop 8).take 4) = len at hlength hfound ⊢
    generalize leNat (cursor.take 8) = addr at hfound ⊢
    generalize hwrite : memdbgMemoryWrite pal pid addr ((cursor.drop 12).take len) s = r
    obtain ⟨st, written, s'⟩ := r
    rw [firstFailure, map_cons, statusByte]
    have hwritten : WriteOutcome.Written ((addr, (cursor.drop 12).take len), st, written) ↔
        st = .ok ∧ written = len := by
      rw [WriteOutcome.Written, hlength]
    simp only [hwritten]
    by_cases hok : st = .ok ∧ written = len
    · have hnext : ¬((st ≠ .ok ∨ written ≠ len) ∧ overall = .ok) :=
        fun h => h.1.elim (fun hst => hst hok.1) fun hlen => hlen hok.2
      rw [if_pos hok, if_pos hok]
      simp only [if_neg hnext]
    · have hfails : st ≠ .ok ∨ written ≠ len := Classical.not_and_iff_not_or_not.mp hok
      rw [if_neg hok, if_neg hok]
      by_cases hoverall : overall = .ok
      · by_cases hst : st = .ok
        · simp [hoverall, hst, hfails.resolve_left (not_not.mpr hst)]
        · simp [hoverall, hst]
      · simp only [hoverall, and_false, if_false]

theorem advItems_eq_some {items : List WriteItem} :
    advItems req = some items ↔
      streamItems 12 (req.field 4 4) (req.body.drop 16) = some (items, []) ∧
        ∀ item ∈ items, item.2.length ≤ 0x100000 := by
  unfold advItems
  constructor
  · intro h
    split at h
    · split_ifs at h with hbound
      cases h
      exact ⟨by assumption, hbound⟩
    · cases h
  · rintro ⟨hstream, hbound⟩
    rw [hstream]
    exact if_pos hbound

theorem memdbgBatchWriteAdvHandle_of_admitted (pal : PalWrite σ) (s : σ)
    (h : AdvAdmitted req) : memdbgBatchWriteAdvHandle pal malloc req s =
      if req.field 8 4 = 1 ∧ malloc 0 = false then (.errNomem, [], s)
      else
        match advItems req with
        | none => (batchWriteAdvValidate (req.field 4 4) (req.body.drop 16), [], s)
        | some items =>
          let out := writeInOrder (singleOutcome pal (pidAt req 0)) items s
          (firstFailure out.1, if req.field 8 4 = 1 then out.1.map statusByte else [], out.2) := by
  obtain ⟨hzero, hcount, hflags⟩ := h
  rw [memdbgBatchWriteAdvHandle, if_neg (by omega), if_neg (by omega)]
  congr 1
  cases hitems : advItems req with
  | none =>
    refine if_pos fun hok => ?_
    obtain ⟨items, hvalid⟩ := (batchWriteAdvValidate_iff _ _).mp hok
    exact nomatch hitems.symm.trans (advItems_eq_some.mpr hvalid)
  | some items =>
    have hvalid := advItems_eq_some.mp hitems
    rw [if_neg (not_not.mpr ((batchWriteAdvValidate_iff _ _).mpr ⟨items, hvalid⟩))]
    rw [advWrites_spec hvalid.1]
    rfl

theorem advFaithful_of_allocates (h : AdvAllocates malloc req) (pal : PalWrite σ)
    (s : σ) : AdvFaithful pal malloc req s := by
  refine ⟨fun hrejected => ?_, fun hadmitted items hitems => ?_⟩
  · by_cases hadmitted : AdvAdmitted req
    · have hnone := hrejected.resolve_left (not_not.mpr hadmitted)
      rw [memdbgBatchWriteAdvHandle_of_admitted pal s hadmitted, hnone]
      by_cases hmalloc : req.field 8 4 = 1 ∧ malloc 0 = false
      · rw [if_pos hmalloc]
        exact ⟨nofun, rfl⟩
      · rw [if_neg hmalloc]
        refine ⟨fun hok => ?_, rfl⟩
        obtain ⟨items, hvalid⟩ := (batchWriteAdvValidate_iff _ _).mp hok
        exact nomatch hnone.symm.trans (advItems_eq_some.mpr hvalid)
    · rw [memdbgBatchWriteAdvHandle]
      by_cases hcount : req.field 4 4 = 0 ∨ 0xFFFF < req.field 4 4
      · rw [if_pos hcount]
        exact ⟨nofun, rfl⟩
      · rw [if_neg hcount, if_pos (by unfold AdvAdmitted at hadmitted; omega)]
        exact ⟨nofun, rfl⟩
  · rw [memdbgBatchWriteAdvHandle_of_admitted pal s hadmitted, hitems, if_neg]
    rintro ⟨hflag, hmalloc⟩
    exact nomatch (h hadmitted (by rw [hitems]; exact nofun) hflag).symm.trans hmalloc

theorem advFaithful_iff :
    (∀ (σ : Type) (pal : PalWrite σ) (s : σ), AdvFaithful pal malloc req s) ↔
      AdvAllocates malloc req := by
  refine ⟨fun h hadmitted hitems hflag => ?_, fun h _ => advFaithful_of_allocates h⟩
  obtain ⟨items, hitems⟩ := Option.ne_none_iff_exists'.mp hitems
  have hout := (h Unit PalWrite.obliging ()).2 hadmitted items hitems
  by_contra hmalloc
  rw [memdbgBatchWriteAdvHandle_of_admitted _ _ hadmitted,
    if_pos ⟨hflag, Bool.eq_false_iff.mpr hmalloc⟩] at hout
  dsimp only at hout
  rw [if_pos hflag] at hout
  -- no status byte comes back, though there is an item
  have hempty := congrArg List.length (Prod.mk.inj (Prod.mk.inj hout).2).1
  rw [length_map, length_writeInOrder,
    length_streamItems (advItems_eq_some.mp hitems).1] at hempty
  exact hadmitted.1 hempty.symm

/-- Both requests write their items faithfully exactly if the items of the first can be passed
on and the status bytes of the second can be allocated. -/
theorem batchWrites_faithful_iff (cfg : Config) (malloc : Nat → Bool) (req : Request) :
    ((∀ (σ : Type) (pal : PalWrite σ) (garbage : List BatchWriteResult) (s : σ),
        BatchFaithful pal cfg malloc garbage req s) ↔ PassesOn cfg malloc req) ∧
      ((∀ (σ : Type) (pal : PalWrite σ) (s : σ), AdvFaithful pal malloc req s) ↔
        AdvAllocates malloc req) :=
  ⟨batchFaithful_iff, advFaithful_iff⟩

def nobodysBatch : Request where
  command := .batchWrite
  requestId := 7
  body := leBytes 4 0 ++ leBytes 4 1 ++ leBytes 4 0 ++ leBytes 8 0x1000 ++ leBytes 4 1 ++
    leBytes 4 0 ++ [0x90]

theorem nobodysBatch_reports_stack : ¬∀ (σ : Type) (pal : PalWrite σ) (cfg : Config)
    (malloc : Nat → Bool) (garbage : List BatchWriteResult) (req : Request) (s : σ),
    BatchFaithful pal cfg malloc garbage req s := by
  intro h
  have hout := (h Unit PalWrite.obliging ⟨false, 0x1000, 0x1000, 1, by decide⟩ (fun _ => true)
    [⟨0x1000, 1, statusCode .ok⟩] nobodysBatch ()).2 ⟨by decide, by decide, by decide, rfl⟩
  rw [show batchItems nobodysBatch = some [(0x1000, [0x90])] by decide] at hout
  exact absurd (congrArg (fun out => out.1.toOption) hout) (by decide)

end Batch

end MemDbg.Daemon.Dispatch
