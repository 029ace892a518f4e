import MemDbg.FlashScan.Stream
import MemDbg.FlashScan.Bitmap

/-!
# Creating a snapshot

`snapshot_create` lays out one slot per step of every segment, reads the segments
window by window and stores the values.  Values beyond the limit go to a spill
file, through the session of the slot, which is only filled in at the end: until
then it is cleared, and its descriptor is 0.
-/

namespace MemDbg.FlashScan

open Lib Scan

structure Segment where
  address : UInt64
  length : UInt32

structure CreateRequest where
  segs : List Segment
  vlen : Nat
  step : Nat
  includeZeros : Bool
  keepFirst : Bool
  keepPrev : Bool
  pid : Nat
  valueType : ValueType
  vlen_pos : 0 < vlen
  vlen_le : vlen ≤ 8
  step_pos : 0 < step

structure CreateEnv where
  mem : Nat → UInt8
  ramLimit : Nat
  segTable : Bool
  bitmap : Bool
  ram : Bool
  cache : Bool
  spillFd : Option Nat
  firstOpen : Bool
  prevOpen : Bool
  readBuf : Bool
  packBuf : Bool
  write0 : Nat → Nat → Bool

/-! ## Layout -/

def Segment.nslots (g : Segment) (vlen step : Nat) : Nat :=
  if vlen ≤ g.length.toNat then (g.length.toNat - vlen) / step + 1 else 0

def segTable (vlen step : Nat) : Nat → List Segment → List FsSeg
  | _, [] => []
  | slotCount, g :: rest =>
    ⟨g.address.toNat, slotCount, g.nslots vlen step⟩ ::
      segTable vlen step (slotCount + g.nslots vlen step) rest

def CreateRequest.seg (req : CreateRequest) : List FsSeg := segTable req.vlen req.step 0 req.segs

def CreateRequest.slotCount (req : CreateRequest) : Nat := (req.seg.map FsSeg.nslots).sum

def CreateRequest.snapBytes (req : CreateRequest) : Nat := req.slotCount * req.vlen

def snapshotBitmapMax : Nat := 448 * 2 ^ 20

def CreateRequest.useFile (req : CreateRequest) (env : CreateEnv) : Bool :=
  !(decide (req.snapBytes ≤ env.ramLimit) && env.ram)

def CreateRequest.ramBytes (req : CreateRequest) (env : CreateEnv) : Nat :=
  if req.useFile env then
    let cache := env.ramLimit / req.vlen * req.vlen
    if 0 < cache ∧ env.cache then cache else 0
  else req.snapBytes

/-! ## Windows -/

structure SnapWindow where
  gslot : Nat
  waddr : Nat
  winSlots : Nat
deriving DecidableEq

def segWindows (step : Nat) (seg : FsSeg) : Nat → Nat → List SnapWindow
  | 0, _ => []
  | fuel + 1, s0 =>
    if s0 < seg.nslots then
      let winSlots := chunkSizeFor step / step
      let winSlots := if winSlots = 0 then 1 else winSlots
      let winSlots := if s0 + winSlots > seg.nslots then seg.nslots - s0 else winSlots
      ⟨seg.slotStart + s0, wrap64 (seg.addr + s0 * step), winSlots⟩ ::
        segWindows step seg fuel (s0 + winSlots)
    else []

def CreateRequest.windows (req : CreateRequest) : List SnapWindow :=
  req.seg.flatMap fun seg => segWindows req.step seg seg.nslots 0

def SnapWindow.fits (win : SnapWindow) (req : CreateRequest) : Bool :=
  decide ((win.winSlots - 1) * req.step + req.vlen ≤ chunkSizeFor req.step) &&
    (req.step = req.vlen || decide (win.winSlots * req.vlen ≤ chunkSizeFor req.step))

def readTarget (mem : Nat → UInt8) (a n : Nat) : List UInt8 :=
  (List.range n).map fun j => mem (wrap64 (a + j))

def SnapWindow.psrc (win : SnapWindow) (mem : Nat → UInt8) (req : CreateRequest) : List UInt8 :=
  let read := readTarget mem win.waddr ((win.winSlots - 1) * req.step + req.vlen)
  if req.step = req.vlen then read
  else (List.range win.winSlots).flatMap fun k => (read.drop (k * req.step)).take req.vlen

def clearZeros (vlen gslot : Nat) (psrc bm : List UInt8) (winSlots : Nat) : List UInt8 :=
  (List.range winSlots).foldl (fun bm k =>
    if ((psrc.drop (k * vlen)).take vlen).all (· == 0) then bitmapClear bm (gslot + k) else bm) bm

structure Filling where
  bitmap : List UInt8
  snapRam : List UInt8
  file0 : List UInt8

inductive CreateStop where
  | overflow
  | fail
deriving DecidableEq

def Filling.put (f : Filling) (env : CreateEnv) (req : CreateRequest) (win : SnapWindow) :
    Filling where
  bitmap := if req.includeZeros then f.bitmap
    else clearZeros req.vlen win.gslot (win.psrc env.mem req) f.bitmap win.winSlots
  snapRam := if req.useFile env then f.snapRam
    else overwrite f.snapRam (win.gslot * req.vlen) (win.psrc env.mem req)
  file0 := if req.useFile env then
      overwrite f.file0 (win.gslot * req.vlen) (win.psrc env.mem req)
    else f.file0

def SnapWindow.written (win : SnapWindow) (env : CreateEnv) (req : CreateRequest) : Bool :=
  !req.useFile env || env.write0 (win.gslot * req.vlen) (win.winSlots * req.vlen)

def fillWindow (env : CreateEnv) (req : CreateRequest) (f : Filling) (win : SnapWindow) :
    Except CreateStop Filling :=
  if win.fits req = false then .error .overflow
  else if win.written env req = false then .error .fail
  else .ok (f.put env req win)

theorem fillWindow_ok {env : CreateEnv} {req : CreateRequest} {f f' : Filling} {win : SnapWindow}
    (h : fillWindow env req f win = .ok f') :
    win.fits req = true ∧ win.written env req = true ∧ f' = f.put env req win := by
  rw [fillWindow] at h
  split_ifs at h with hfits hwritten
  cases h
  exact ⟨by simpa using hfits, by simpa using hwritten, rfl⟩

/-! ## The snapshot -/

inductive CreateOutcome where
  | crashed
  | overflowed
  | refused
  | created (s : SnapshotSession)

def CreateRequest.session (req : CreateRequest) (env : CreateEnv) (f : Filling) :
    SnapshotSession where
  bitmap := f.bitmap
  slotCount := req.slotCount
  survivorCount := if req.includeZeros then req.slotCount
    else countIn (bitAt f.bitmap) 0 req.slotCount
  stride := req.step
  snapRam := f.snapRam
  snapFile := if env.spillFd = some 0 then f.file0 else []
  hasFirst := req.keepFirst && env.firstOpen
  firstFile := []
  hasPrev := req.keepPrev && env.prevOpen
  prevFile := []
  seg := req.seg
  valueLen := req.vlen
  pid := req.pid
  valueType := req.valueType
  valueLen_pos := req.vlen_pos
  valueLen_le := req.vlen_le

def CreateRequest.emptyFilling (req : CreateRequest) (env : CreateEnv) : Filling where
  bitmap := List.replicate ((req.slotCount + 7) / 8) 0xFF
  snapRam := List.replicate (req.ramBytes env) 0
  file0 := []

def CreateRequest.admissible (req : CreateRequest) (env : CreateEnv) : Bool :=
  env.segTable && decide (req.slotCount ≠ 0) &&
    decide ((req.slotCount + 7) / 8 ≤ snapshotBitmapMax)

def CreateRequest.crashes (req : CreateRequest) (env : CreateEnv) : Bool :=
  (!req.includeZeros && !env.bitmap) || (req.step ≠ req.vlen && env.readBuf != env.packBuf)

def CreateRequest.ready (req : CreateRequest) (env : CreateEnv) : Bool :=
  env.bitmap && (!req.useFile env || env.spillFd.isSome) && env.readBuf &&
    (req.step = req.vlen || env.packBuf)

def snapshotCreate (env : CreateEnv) (req : CreateRequest) : CreateOutcome :=
  if req.admissible env = false then .refused
  else if req.crashes env then .crashed
  else if req.ready env = false then .refused
  else
    match req.windows.foldlM (fillWindow env req) (req.emptyFilling env) with
    | .error .overflow => .overflowed
    | .error .fail => .refused
    | .ok f => .created (req.session env f)

end MemDbg.FlashScan
