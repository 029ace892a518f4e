import MemDbg.FlashScan.Handler

/-!
# Materialising and fetching

A snapshot with few survivors is turned into a list at the end of a COUNT request.
Both kinds of session can be fetched.
-/

namespace MemDbg.FlashScan

open Lib Scan

/-! ## Materialising -/

def SnapshotSession.recSize (s : SnapshotSession) : Nat :=
  8 + s.valueLen * (1 + (if s.hasPrev then 1 else 0) + (if s.hasFirst then 1 else 0))

def SnapshotSession.record (env : FsEnv) (s : SnapshotSession) (i : Nat) : Option ListRecord := do
  let voff := i * s.valueLen
  let value ← if s.snapRam.length ≤ voff then
      preadAll env s.snapFile s.valueLen (voff - s.snapRam.length)
    else some ((s.snapRam.drop voff).take s.valueLen)
  let prev ← if s.hasPrev then preadAll env s.prevFile s.valueLen voff else some []
  let first ← if s.hasFirst then preadAll env s.firstFile s.valueLen voff else some []
  some ⟨slotToAddr s i, value, prev, first⟩

def materializeLoop (env : FsEnv) (s : SnapshotSession) (records : Nat) :
    Nat → Nat → List ListRecord → Option (List ListRecord)
  | 0, _, out => some out
  | fuel + 1, i, out =>
    if i < s.slotCount ∧ out.length < records then do
      let r ← s.record env i
      materializeLoop env s records fuel (bitmapNextSet s.bitmap (i + 1) s.slotCount) (out ++ [r])
    else some out

def snapshotMaterialize (env : FsEnv) (s : SnapshotSession) : Option ListSession :=
  let records := s.survivorCount
  if records = 0 ∨ s.recSize * records > rescanWinCap * 2 then none
  else if env.alloc .materialized = false then none
  else do
    let out ← materializeLoop env s records s.slotCount (bitmapNextSet s.bitmap 0 s.slotCount) []
    some {
      records := out
      recSize := s.recSize
      bufCap := records * s.recSize
      valueLen := s.valueLen
      pid := s.pid
      valueType := s.valueType
      hasPrev := s.hasPrev
      hasFirst := s.hasFirst }

def matMax : Nat := 2 ^ 20

def SnapshotSession.few (s : SnapshotSession) (nc : Nat) : Bool :=
  decide (0 < nc) && decide (nc ≤ matMax) && decide (nc * 32 ≤ s.slotCount) &&
    decide (nc * s.recSize ≤ rescanWinCap * 2)

def SnapshotSession.settle (env : FsEnv) (nc : Nat) (s : SnapshotSession) : Session :=
  if s.few nc then ((snapshotMaterialize env s).map Session.list).getD (.snapshot s)
  else .snapshot s

def countAndSettle (env : FsEnv) (req : CountRequest) (compareData mask : Ptr)
    (session : Session) (chunks : List (List UInt8)) : Option CountOutcome := do
  let outcome ← flashscanHandleCount env req compareData mask session chunks
  match outcome with
  | .counted nc (.snapshot s) =>
    some (.counted nc
      (if s.valueLen = (if req.valueLength = 0 then 4 else req.valueLength) then s.settle env nc
        else .snapshot s))
  | outcome => some outcome

/-! ## FETCH -/

structure FetchRequest where
  startIndex : Nat
  count : Nat

structure FetchEntry where
  addr : Nat
  value : Option (List UInt8)
  prev : Option (List UInt8)
  first : Option (List UInt8)
deriving DecidableEq

structure FetchReply where
  actual : Nat
  hasFirst : Bool
  entries : List FetchEntry
deriving DecidableEq

def SnapshotSession.entry (env : FsEnv) (s : SnapshotSession) (i : Nat) : FetchEntry :=
  let value := snapshotStoreRead env s (i * s.valueLen) s.valueLen
  { addr := slotToAddr s i
    value := value
    prev := if s.hasPrev then preadAll env s.prevFile s.valueLen (i * s.valueLen) else value
    first := if s.hasFirst then preadAll env s.firstFile s.valueLen (i * s.valueLen) else some [] }

def fetchLoop (env : FsEnv) (s : SnapshotSession) (start actual : Nat) :
    Nat → Nat → Nat → List FetchEntry → List FetchEntry
  | 0, _, _, out => out
  | fuel + 1, i, seen, out =>
    if i < s.slotCount ∧ out.length < actual then
      fetchLoop env s start actual fuel (bitmapNextSet s.bitmap (i + 1) s.slotCount) (seen + 1)
        (if seen < start then out else out ++ [s.entry env i])
    else out

def snapshotFetch (env : FsEnv) (s : SnapshotSession) (req : FetchRequest) : FetchReply :=
  let actual := if req.startIndex < s.survivorCount then
      min req.count (s.survivorCount - req.startIndex)
    else 0
  { actual := actual
    hasFirst := s.hasFirst
    entries := if actual = 0 then []
      else fetchLoop env s req.startIndex actual s.slotCount
        (bitmapNextSet s.bitmap 0 s.slotCount) 0 [] }

def ListSession.entry (s : ListSession) (r : ListRecord) : FetchEntry where
  addr := r.addr
  value := some r.value
  prev := some (if s.hasPrev then r.prev else r.value)
  first := some (if s.hasFirst then r.first else [])

def listFetch (s : ListSession) (req : FetchRequest) : FetchReply :=
  let total := s.records.length
  let start := if req.startIndex > total then total else req.startIndex
  let stop := if start + req.count > total then total else start + req.count
  { actual := stop - start
    hasFirst := s.hasFirst
    entries := ((s.records.drop start).take (stop - start)).map s.entry }

def flashscanHandleFetch (env : FsEnv) (req : FetchRequest) : Session → Option FetchReply
  | .free => some ⟨0, false, []⟩
  | .snapshot s => if env.alloc .fetchBuf then some (snapshotFetch env s req) else none
  | .list s => if env.alloc .fetchBuf then some (listFetch s req) else none

end MemDbg.FlashScan
