import MemDbg.FlashScan.Session
import MemDbg.Lib.Records

/-!
# Streaming a range

`scan_range_stream` reads a range in chunks, compares the values of each chunk and
stores the hits, either in a session or in packets for the client.
-/

namespace MemDbg.FlashScan

open Lib Scan

/-! ## Requests -/

structure StartRequest where
  pid : Int
  valueType : ValueType
  compareType : Nat
  alignment : Nat
  valueLength : Nat
  requestFlags : Nat
  address : Nat
  length : Nat

structure ScanPlan where
  vlen : Nat
  step : Nat
  chunkSize : Nat
  simdOk : Bool
  simdMax : Nat
deriving DecidableEq

def simdMaxOffsets : Nat := 8192

def chunkSizeFor (vlen : Nat) : Nat :=
  let size := if 0x100000 % vlen ≠ 0 then 0x100000 / vlen * vlen else 0x100000
  if size = 0 then vlen else size

def scanPlan (env : FsEnv) (req : StartRequest) (mask : Ptr) : ScanPlan :=
  let vlen := if req.valueLength = 0 then 4 else req.valueLength
  let step := if req.alignment ≠ 0 then req.alignment else vlen
  let chunkSize := chunkSizeFor vlen
  let simdOk := req.compareType = 0 && mask.isNone && step = vlen
  let simdMax := if chunkSize / vlen > simdMaxOffsets then simdMaxOffsets else chunkSize / vlen
  { vlen := vlen
    step := step
    chunkSize := chunkSize
    simdOk := simdOk && env.alloc .simdOffs
    simdMax := if simdOk then simdMax else 0 }

/-! ## Sinks -/

inductive Sink where
  | stream (packets : List (List UInt8)) (pending : List UInt8)
  | session (s : ListSession)

def encodeRecord (offset : Nat) (value : List UInt8) : List UInt8 := leBytes 4 offset ++ value

def Sink.put (req : StartRequest) (vlen addr coff : Nat) (value : List UInt8) :
    Sink → Except Sink Sink
  | session s =>
    if (s.records.length + 1) * s.recSize > s.bufCap then .error (session s)
    else .ok (session { s with records := s.records ++ [⟨wrap64 (addr + coff), value, [], []⟩] })
  | stream packets pending =>
    let full := pending.length > 0x3FFE8 - vlen
    let packets := if full then packets ++ [pending] else packets
    let pending := if full then [] else pending
    .ok (stream packets (pending ++ encodeRecord (sub64 (wrap64 (addr + coff)) req.address) value))

def Sink.putAll (req : StartRequest) (vlen addr : Nat) (src : List UInt8) (offs : List Nat)
    (sink : Sink) : Except Sink Sink :=
  offs.foldlM (fun sink coff => sink.put req vlen addr coff ((src.drop coff).take vlen)) sink

/-! ## The scan -/

def memdbgSimdFindExact (build : Option SimdVariant) (haystack needle : List UInt8)
    (valueLength maxOffsets : Nat) : Option (List Nat) :=
  match build with
  | none => scalarFindExact haystack needle valueLength maxOffsets
  | some v => simdFindExact v haystack needle valueLength maxOffsets

def positions (limit step : Nat) : List Nat := (List.range (limit / step + 1)).map (· * step)

def testedHits (test : Nat → Option Bool) : List Nat → Option (List Nat)
  | [] => some []
  | j :: js => do
    let matched ← test j
    let rest ← testedHits test js
    some (if matched then j :: rest else rest)

def chunkHits (env : FsEnv) (plan : ScanPlan) (compareType : Nat) (pattern mask betweenHi : Ptr)
    (src : List UInt8) (toRead : Nat) : Option (List Nat) :=
  if plan.simdOk then
    if toRead < plan.vlen ∨ plan.simdMax = 0 then some []
    else do
      let needle ← pattern.read plan.vlen
      memdbgSimdFindExact env.build (src.take toRead) needle plan.vlen plan.simdMax
  else
    let limit := if toRead ≥ plan.vlen then toRead - plan.vlen else 0
    testedHits (fun j => streamCompare ((src.drop j).take plan.vlen) pattern mask betweenHi
      compareType plan.vlen) (positions limit plan.step)

def readChunk (env : FsEnv) (addr toRead : Nat) (buf : List UInt8) : List UInt8 × List UInt8 :=
  match env.aliasTail addr toRead with
  | some tail => (slice env.mem addr toRead ++ tail, buf)
  | none =>
    let buf := env.memoryRead addr toRead ++ buf.drop toRead
    (buf, buf)

def chunkAdvance (plan : ScanPlan) (toRead : Nat) : Nat :=
  let advance := sub64 (wrap64 (toRead + plan.step)) plan.vlen
  if advance = 0 ∨ advance > toRead then toRead else advance

def scanLoop (env : FsEnv) (req : StartRequest) (plan : ScanPlan) (pattern mask betweenHi : Ptr) :
    Nat → Nat → Nat → List UInt8 → Sink → Option (Except Sink Sink)
  | 0, _, _, _, sink => some (.ok sink)
  | fuel + 1, addr, remaining, buf, sink =>
    if remaining > 0 then
      let toRead := if remaining > plan.chunkSize then plan.chunkSize else remaining
      let (src, buf) := readChunk env addr toRead buf
      do
        let offs ← chunkHits env plan req.compareType pattern mask betweenHi src toRead
        match sink.putAll req plan.vlen addr src offs with
        | .error sink => some (.error sink)
        | .ok sink =>
          let advance := chunkAdvance plan toRead
          scanLoop env req plan pattern mask betweenHi fuel (wrap64 (addr + advance))
            (if remaining > advance then remaining - advance else 0) buf sink
    else some (.ok sink)

def Sink.flush : Sink → Sink
  | session s => session s
  | stream packets pending =>
    stream (if pending ≠ [] then packets ++ [pending] else packets) []

def scanRangeStream (env : FsEnv) (req : StartRequest) (plan : ScanPlan)
    (pattern mask betweenHi : Ptr) (scanAddr scanLen : Nat) (buf : List UInt8) (sink : Sink) :
    Option (Except Sink Sink) :=
  (scanLoop env req plan pattern mask betweenHi scanLen scanAddr scanLen buf sink).map
    (·.map Sink.flush)

theorem testedHits_eq_filter {test : Nat → Option Bool} {p : Nat → Bool} (js : List Nat)
    (h : ∀ j, test j = some (p j)) : testedHits test js = some (js.filter p) := by
  induction js with
  | nil => rfl
  | cons j js ih =>
    rw [testedHits, h j, ih, List.filter_cons]
    rfl

end MemDbg.FlashScan
