import MemDbg.Frontend.ProcessList
import MemDbg.Gdb.Interrupt
import MemDbg.Gdb.Regions

/-!
# Documents in chunks

A client reads a document by asking for one range of it after the other.  The bridge makes the
document anew for each range, some from lists it keeps and some from what the target tells it.
-/

namespace MemDbg.Gdb

open List

open Frontend.ProcessList (ProcessEntry)

/-! ## What the bridge keeps -/

structure ThreadEntry where
  lwp : Int
  name : List UInt8
deriving DecidableEq

structure ProcessInfo where
  name : List UInt8
  path : List UInt8
deriving DecidableEq

structure Backend where
  attach : Int → Bool
  detach : Bool
  kill : Int → Bool
  resume : Option Waited
  threads : List ThreadEntry
  maps : Int → Option (List NamedMap)
  info : Int → Option ProcessInfo
  processes : Option (List ProcessEntry)

structure Handler where
  pid : Int
  attached : Bool
  threads : List ThreadEntry
  memoryMaps : List NamedMap
  memoryMapsKnown : Bool

open Handler

namespace Handler

def refreshThreads (b : Backend) (s : Handler) : Handler :=
  { s with threads := if s.attached then b.threads else [] }

def refreshMemoryMaps (b : Backend) (s : Handler) : Bool × Handler :=
  match b.maps s.pid with
  | none => (false, { s with memoryMaps := [], memoryMapsKnown := false })
  | some maps => (true, { s with memoryMaps := maps, memoryMapsKnown := true })

def attachTo (b : Backend) (s : Handler) : Bool × Handler :=
  if !b.attach s.pid then (false, s)
  else (true, (({ s with attached := true }.refreshThreads b).refreshMemoryMaps b).2)

def ensureAttached (b : Backend) (s : Handler) : Bool × Handler :=
  if s.attached then (true, s) else if s.pid ≤ 0 then (false, s) else s.attachTo b

def safeDetach (b : Backend) (s : Handler) : Bool × Handler :=
  if !s.attached then (true, s)
  else if !b.detach then (false, s)
  else (true, { s with
    attached := false
    threads := []
    memoryMaps := []
    memoryMapsKnown := false })

def killProcess (b : Backend) (target : Int) (s : Handler) : Handler :=
  if target ≤ 1 then s
  else if s.attached then (if target ≠ s.pid then s else (s.safeDetach b).2)
  else s

def vAttach (b : Backend) (target : Int) (s : Handler) : Handler :=
  if target ≤ 1 then s
  else if s.attached ∧ s.pid = target then s
  else
    let (ok, s) := if s.attached then s.safeDetach b else (true, s)
    if !ok then s else ({ s with pid := target }.attachTo b).2

def continueOrStep (b : Backend) (s : Handler) : Handler :=
  let (ok, s) := s.ensureAttached b
  if !ok then s
  else
    match b.resume with
    | none | some .waiting | some .failed => s
    | some .shutdown => (s.safeDetach b).2
    | some .interrupted => (s.refreshMemoryMaps b).2
    | some .stopped => ((s.refreshThreads b).refreshMemoryMaps b).2

end Handler

/-! ## Documents -/

def xmlEscape (text : List UInt8) : List UInt8 :=
  text.flatMap fun c =>
    if c = 38 then ascii "&amp;"
    else if c = 60 then ascii "&lt;"
    else if c = 62 then ascii "&gt;"
    else if c = 34 then ascii "&quot;"
    else if c = 39 then ascii "&apos;"
    else [c]

def unsignedHex (n : Int) : List UInt8 := hexText (n % 2 ^ 32).toNat

def threadsXml (pid : Int) (threads : List ThreadEntry) : List UInt8 :=
  ascii "<?xml version=\"1.0\"?><threads>" ++
    (if threads = [] ∧ 0 < pid then
      ascii "<thread id=\"" ++ unsignedHex pid ++ ascii "\" name=\"main (fallback)\"/>"
    else
      (threads.filter fun t => 0 < t.lwp).flatMap fun t =>
        ascii "<thread id=\"" ++ unsignedHex t.lwp ++ ascii "\" name=\"" ++
          xmlEscape (if t.name = [] then ascii "LWP " ++ ascii (toString t.lwp) else t.name) ++
            ascii "\"/>") ++
    ascii "</threads>"

def memoryMapXml (maps : List NamedMap) : List UInt8 :=
  ascii ("<?xml version=\"1.0\"?><!DOCTYPE memory-map PUBLIC \"+//IDN gnu.org/DTD GDB Memory " ++
      "Map V1.0//EN\" \"http://sourceware.org/gdb/gdb-memory-map.dtd\"><memory-map>") ++
    ((maps.filter fun m => m.start < m.stop).flatMap fun m =>
      ascii "<memory type=\"ram\" start=\"0x" ++ hexText m.start ++ ascii "\" length=\"0x" ++
        hexText (m.stop - m.start) ++ ascii "\"/>") ++
    ascii "</memory-map>"

def libraryXml (maps : List NamedMap) (name : List UInt8) : List UInt8 :=
  ascii "<library name=\"" ++ xmlEscape name ++ ascii "\">" ++
    ((maps.filter fun m => m.name = name ∧ m.start < m.stop).flatMap fun m =>
      ascii "<segment address=\"0x" ++ hexText m.start ++ ascii "\"/>") ++
    ascii "</library>"

def librariesXml (maps : List NamedMap) : List UInt8 :=
  ascii "<?xml version=\"1.0\"?><library-list>" ++
    (maps.foldl (fun (emitted, xml) m =>
      if m.stop ≤ m.start ∨ m.name = [] ∨ m.name ∈ emitted then (emitted, xml)
      else (emitted ++ [m.name], xml ++ libraryXml maps m.name))
      (([] : List (List UInt8)), ([] : List UInt8))).2 ++
    ascii "</library-list>"

def execFilePath (info : ProcessInfo) : List UInt8 :=
  if info.path ≠ [] then info.path else info.name

def osdataXml (processes : List ProcessEntry) : List UInt8 :=
  ascii "<?xml version=\"1.0\"?><osdata type=\"processes\">" ++
    (processes.flatMap fun p =>
      ascii "<item><column name=\"pid\">" ++ ascii (toString p.pid) ++
        ascii "</column><column name=\"ppid\">" ++ ascii (toString p.ppid) ++
          ascii "</column><column name=\"command\">" ++ xmlEscape p.name ++
            ascii "</column></item>") ++
    ascii "</osdata>"

/-! ## Requests -/

inductive XferObject where
  | threads
  | memoryMap
  | libraries
  | execFile
  | osdata
deriving DecidableEq

def XferObject.head : XferObject → List UInt8
  | .threads => ascii "qXfer:threads:read:"
  | .memoryMap => ascii "qXfer:memory-map:read:"
  | .libraries => ascii "qXfer:libraries:read:"
  | .execFile => ascii "qXfer:exec-file:read:"
  | .osdata => ascii "qXfer:osdata:read:"

structure QxferRequest where
  annex : List UInt8
  offset : Nat
  length : Nat
  length_pos : 0 < length

def parseQxferRequest (head packet : List UInt8) : Option QxferRequest :=
  if ¬head <+: packet then none
  else
    let rest := packet.drop head.length
    match findChar rest 58 0 with
    | none => none
    | some colon =>
      match findChar rest 44 (colon + 1) with
      | none => none
      | some comma =>
        match parseHexU64 rest (colon + 1) comma, parseHexU64 rest (comma + 1) rest.length with
        | some offset, some length =>
          if h : length = 0 then none
          else some ⟨rest.take colon, offset, length, Nat.pos_of_ne_zero h⟩
        | _, _ => none

def qxferSlice (data : List UInt8) (offset length : Nat) : List UInt8 :=
  if length = 0 then errPacket 1
  else if offset ≥ data.length then [108]
  else
    let n := min length (data.length - offset)
    (if offset + n ≥ data.length then 108 else 109) :: (data.drop offset).take n

def XferObject.accepts (pid : Int) (annex : List UInt8) : XferObject → Bool
  | .threads | .memoryMap | .libraries => annex = []
  | .execFile => annex = [] || parseHexU64 annex 0 annex.length = some (pid % 2 ^ 64).toNat
  | .osdata => annex = ascii "processes"

namespace Handler

def mapsFor (b : Backend) (offset : Nat) (s : Handler) : Bool × Handler :=
  if offset = 0 ∨ !s.memoryMapsKnown then s.refreshMemoryMaps b else (true, s)

def document (b : Backend) (offset : Nat) (s : Handler) : XferObject → Option (List UInt8) × Handler
  | .threads =>
    let (ok, s) := s.ensureAttached b
    if !ok then (none, s)
    else
      let s := if offset = 0 then s.refreshThreads b else s
      (some (threadsXml s.pid s.threads), s)
  | .memoryMap =>
    let (ok, s) := s.ensureAttached b
    if !ok then (none, s)
    else
      let (ok, s) := s.mapsFor b offset
      (if ok then some (memoryMapXml s.memoryMaps) else none, s)
  | .libraries =>
    let (ok, s) := s.ensureAttached b
    if !ok then (none, s)
    else
      let (ok, s) := s.mapsFor b offset
      (if ok then some (librariesXml s.memoryMaps) else none, s)
  | .execFile =>
    let (ok, s) := s.ensureAttached b
    if !ok then (none, s) else ((b.info s.pid).map execFilePath, s)
  | .osdata => (b.processes.map osdataXml, s)

def qxfer (o : XferObject) (b : Backend) (r : QxferRequest) (s : Handler) : List UInt8 × Handler :=
  if !o.accepts s.pid r.annex then (errPacket 1, s)
  else
    match s.document b r.offset o with
    | (none, s) => (errPacket 1, s)
    | (some data, s) => (qxferSlice data r.offset r.length, s)

def handleXfer (o : XferObject) (b : Backend) (packet : List UInt8) (s : Handler) :
    List UInt8 × Handler :=
  match parseQxferRequest o.head packet with
  | none => (errPacket 1, s)
  | some r => s.qxfer o b r

end Handler

/-! ## Other packets -/

inductive Packet where
  | xfer (o : XferObject) (text : List UInt8)
  | attaching
  | haltReason
  | memoryRegionInfo (parsed : Bool)
  | threadStopInfo (accepted : Bool)
  | threadInfo
  | threadExtraInfo (parsed : Bool)
  | selectThread (tid : Int)
  | threadAlive
  | resume (parsed : Bool)
  | attach (target : Int)
  | detach (valid : Bool)
  | kill (target : Option Int)
  | other

def Handler.handle (b : Backend) (s : Handler) : Packet → Handler
  | .xfer o text => (s.handleXfer o b text).2
  | .attaching => (s.ensureAttached b).2
  | .haltReason => if !s.attached ∧ 0 < s.pid then (s.ensureAttached b).2 else s
  | .memoryRegionInfo parsed =>
    let (ok, s) := s.ensureAttached b
    if !ok || !parsed || s.memoryMapsKnown then s else (s.refreshMemoryMaps b).2
  | .threadStopInfo accepted =>
    let (ok, s) := s.ensureAttached b
    if !ok || !accepted then s else s.refreshThreads b
  | .threadInfo | .threadAlive => s.refreshThreads b
  | .threadExtraInfo parsed => if parsed then s.refreshThreads b else s
  | .selectThread tid => if s.attached ∧ 0 < tid then s.refreshThreads b else s
  | .resume parsed => if parsed then s.continueOrStep b else s
  | .attach target => s.vAttach b target
  | .detach valid => if valid then (s.safeDetach b).2 else s
  | .kill none => if s.attached then s.killProcess b s.pid else s
  | .kill (some target) => s.killProcess b target
  | .other => s

/-! ## A transfer -/

structure Chunk where
  others : List (Packet × Backend)
  backend : Backend
  length : Nat
  length_pos : 0 < length

inductive Progress where
  | reading (got : List UInt8)
  | ended (got : List UInt8)
  | failed
deriving DecidableEq

def Progress.behind (got : List UInt8) : List UInt8 → Progress
  | 109 :: data => .reading (got ++ data)
  | 108 :: data => .ended (got ++ data)
  | _ => .failed

def Handler.handleAll (s : Handler) (packets : List (Packet × Backend)) : Handler :=
  packets.foldl (fun s q => s.handle q.2 q.1) s

def Chunk.request (c : Chunk) (annex got : List UInt8) : QxferRequest where
  annex := annex
  offset := got.length
  length := c.length
  length_pos := c.length_pos

def transfer (o : XferObject) (annex : List UInt8) : Handler → List UInt8 → List Chunk → Progress
  | _, got, [] => .reading got
  | s, got, c :: chunks =>
    let (reply, s) := (s.handleAll c.others).qxfer o c.backend (c.request annex got)
    match Progress.behind got reply with
    | .reading got => transfer o annex s got chunks
    | p => p

def Handler.openDocument (o : XferObject) (annex : List UInt8) (b : Backend) (s : Handler) :
    Option (List UInt8) :=
  if o.accepts s.pid annex then (s.document b 0 o).1 else none

/-- After so many chunks the client has a part of the document that is no shorter, or all of it. -/
def Progress.Exact (document : List UInt8) (chunks : Nat) : Progress → Prop
  | .reading got => got <+: document ∧ chunks ≤ got.length ∧ got.length < document.length
  | .ended got => got = document
  | .failed => False

theorem Progress.Exact.mono {data : List UInt8} {n m : Nat} {p : Progress}
    (h : p.Exact data n) (hle : m ≤ n) : p.Exact data m := by
  cases p with
  | reading got => exact ⟨h.1, Nat.le_trans hle h.2.1, h.2.2⟩
  | ended got => exact h
  | failed => exact h

/-! ## What keeps a document -/

def restarts (pid : Int) (o : XferObject) (text : List UInt8) : Bool :=
  (parseQxferRequest o.head text).any fun r => r.offset = 0 && o.accepts pid r.annex

def Packet.refreshesThreads (pid : Int) (b : Backend) : Packet → Bool
  | .xfer .threads text => restarts pid .threads text
  | .threadStopInfo accepted => accepted
  | .threadInfo | .threadAlive => true
  | .threadExtraInfo parsed => parsed
  | .selectThread tid => 0 < tid
  | .resume parsed => parsed && b.resume = some .stopped
  | _ => false

def Packet.refreshesMaps (pid : Int) (b : Backend) : Packet → Bool
  | .xfer .memoryMap text => restarts pid .memoryMap text
  | .xfer .libraries text => restarts pid .libraries text
  | .resume parsed => parsed && (b.resume = some .interrupted || b.resume = some .stopped)
  | _ => false

def Packet.detaches (pid : Int) (b : Backend) : Packet → Bool
  | .resume parsed => parsed && b.resume = some .shutdown && b.detach
  | .attach target => 1 < target && target ≠ pid && b.detach
  | .detach valid => valid && b.detach
  | .kill none => 1 < pid && b.detach
  | .kill (some target) => 1 < target && target = pid && b.detach
  | _ => false

/-- The packet leaves what the document of the object is made from. -/
def Quiet (o : XferObject) (s : Handler) (q : Packet × Backend) : Prop :=
  match o with
  | .threads => q.1.detaches s.pid q.2 = false ∧
      (q.1.refreshesThreads s.pid q.2 = true → q.2.threads = s.threads)
  | .memoryMap | .libraries => q.1.detaches s.pid q.2 = false ∧
      (q.1.refreshesMaps s.pid q.2 = true → q.2.maps s.pid = some s.memoryMaps)
  | .execFile => q.1.detaches s.pid q.2 = false
  | .osdata => True

/-- The target tells for the object what it told before. -/
def SameAnswer (o : XferObject) (pid : Int) (b b' : Backend) : Prop :=
  match o with
  | .execFile => b'.info pid = b.info pid
  | .osdata => b'.processes = b.processes
  | _ => True

structure Frozen (o : XferObject) (s s' : Handler) : Prop where
  attached : o ≠ .osdata → s'.attached = true
  pid : o ≠ .osdata → s'.pid = s.pid
  threads : o = .threads → s'.threads = s.threads
  maps : o = .memoryMap ∨ o = .libraries →
    s'.memoryMaps = s.memoryMaps ∧ s'.memoryMapsKnown = true

def Handler.kept (b : Backend) (s : Handler) : XferObject → Option (List UInt8)
  | .threads => some (threadsXml s.pid s.threads)
  | .memoryMap => some (memoryMapXml s.memoryMaps)
  | .libraries => some (librariesXml s.memoryMaps)
  | .execFile => (b.info s.pid).map execFilePath
  | .osdata => b.processes.map osdataXml

/-! ## One packet -/

namespace Handler

variable {b : Backend} {s : Handler}

theorem ensureAttached_of_attached (h : s.attached = true) : s.ensureAttached b = (true, s) :=
  if_pos h

theorem safeDetach_of_attached (h : s.attached = true) (hb : b.detach = false) :
    s.safeDetach b = (false, s) := by
  unfold safeDetach
  rw [h, hb]
  rfl

theorem mapsFor_cases (offset : Nat) : s.mapsFor b offset = (true, s) ∧
      offset ≠ 0 ∧ s.memoryMapsKnown = true ∨
    (offset = 0 ∨ s.memoryMapsKnown = false) ∧ s.mapsFor b offset = s.refreshMemoryMaps b := by
  unfold mapsFor
  by_cases h : offset = 0 ∨ (!s.memoryMapsKnown) = true
  · rw [if_pos h]
    exact .inr ⟨h.imp_right (by simp), rfl⟩
  · rw [if_neg h]
    exact .inl ⟨rfl, fun hzero => h (.inl hzero), by simpa using fun hknown => h (.inr hknown)⟩

theorem document_cases (h : s.attached = true) (offset : Nat) (o : XferObject) :
    (s.document b offset o).2 = s ∨
      (o = .threads ∧ offset = 0 ∧ (s.document b offset o).2 = s.refreshThreads b) ∨
        ((o = .memoryMap ∨ o = .libraries) ∧ (offset = 0 ∨ s.memoryMapsKnown = false) ∧
          (s.document b offset o).2 = (s.refreshMemoryMaps b).2) := by
  cases o with
  | threads =>
    unfold document
    rw [ensureAttached_of_attached h]
    by_cases hzero : offset = 0
    · exact .inr (.inl ⟨rfl, hzero, by simp [hzero]⟩)
    · exact .inl (by simp [hzero])
  | memoryMap =>
    unfold document
    rw [ensureAttached_of_attached h]
    obtain ⟨hmaps, -⟩ | ⟨hwhen, hmaps⟩ := mapsFor_cases (b := b) (s := s) offset
    · exact .inl (by simp [hmaps])
    · exact .inr (.inr ⟨.inl rfl, hwhen, by simp [hmaps]⟩)
  | libraries =>
    unfold document
    rw [ensureAttached_of_attached h]
    obtain ⟨hmaps, -⟩ | ⟨hwhen, hmaps⟩ := mapsFor_cases (b := b) (s := s) offset
    · exact .inl (by simp [hmaps])
    · exact .inr (.inr ⟨.inr rfl, hwhen, by simp [hmaps]⟩)
  | execFile =>
    unfold document
    rw [ensureAttached_of_attached h]
    exact .inl rfl
  | osdata => exact .inl rfl

theorem qxfer_snd (o : XferObject) (r : QxferRequest) :
    (s.qxfer o b r).2 = if o.accepts s.pid r.annex then (s.document b r.offset o).2 else s := by
  unfold qxfer
  cases o.accepts s.pid r.annex with
  | false => rfl
  | true =>
    generalize s.document b r.offset o = result
    obtain ⟨_ | data, s'⟩ := result
    · rfl
    · rfl

theorem handle_cases (h : s.attached = true) {p : Packet} (hp : p.detaches s.pid b = false) :
    ∃ s', (s' = s ∨ p.refreshesThreads s.pid b = true ∧ s' = s.refreshThreads b) ∧
      (s.handle b p = s' ∨ (p.refreshesMaps s.pid b = true ∨ s.memoryMapsKnown = false) ∧
        s.handle b p = (s'.refreshMemoryMaps b).2) := by
  have hens := ensureAttached_of_attached (b := b) h
  cases p with
  | xfer o text =>
    rw [handle, handleXfer]
    cases hparse : parseQxferRequest o.head text with
    | none => exact ⟨s, .inl rfl, .inl rfl⟩
    | some r =>
      rw [qxfer_snd]
      cases haccepts : o.accepts s.pid r.annex with
      | false => exact ⟨s, .inl rfl, .inl rfl⟩
      | true =>
        have hrestarts : r.offset = 0 → restarts s.pid o text = true := fun hzero => by
          rw [restarts, hparse, Option.any_some, hzero, haccepts]
          rfl
        rw [if_pos rfl]
        obtain hsame | ⟨rfl, hzero, hfetch⟩ | ⟨ho, hwhen, hfetch⟩ :=
          document_cases (b := b) h r.offset o
        · exact ⟨s, .inl rfl, .inl hsame⟩
        · exact ⟨_, .inr ⟨hrestarts hzero, rfl⟩, .inl hfetch⟩
        · refine ⟨s, .inl rfl, .inr ⟨hwhen.imp_left fun hzero => ?_, hfetch⟩⟩
          rcases ho with rfl | rfl
          · exact hrestarts hzero
          · exact hrestarts hzero
  | attaching => exact ⟨s, .inl rfl, .inl (by rw [handle, hens])⟩
  | haltReason => exact ⟨s, .inl rfl, .inl (by simp [handle, h])⟩
  | memoryRegionInfo parsed =>
    refine ⟨s, .inl rfl, ?_⟩
    rw [handle, hens]
    cases hknown : s.memoryMapsKnown with
    | true => exact .inl (by simp [hknown])
    | false =>
      cases parsed with
      | false => exact .inl (by simp)
      | true => exact .inr ⟨.inr rfl, by simp [hknown]⟩
  | threadStopInfo accepted =>
    rw [handle, hens]
    cases accepted with
    | false => exact ⟨s, .inl rfl, .inl (by simp)⟩
    | true => exact ⟨_, .inr ⟨rfl, rfl⟩, .inl (by simp)⟩
  | threadInfo => exact ⟨_, .inr ⟨rfl, rfl⟩, .inl rfl⟩
  | threadAlive => exact ⟨_, .inr ⟨rfl, rfl⟩, .inl rfl⟩
  | threadExtraInfo parsed =>
    cases parsed with
    | false => exact ⟨s, .inl rfl, .inl rfl⟩
    | true => exact ⟨_, .inr ⟨rfl, rfl⟩, .inl rfl⟩
  | selectThread tid =>
    rw [handle]
    by_cases htid : 0 < tid
    · rw [if_pos ⟨h, htid⟩]
      exact ⟨_, .inr ⟨decide_eq_true htid, rfl⟩, .inl rfl⟩
    · rw [if_neg fun hboth => htid hboth.2]
      exact ⟨s, .inl rfl, .inl rfl⟩
  | resume parsed =>
    rw [handle]
    cases parsed with
    | false => exact ⟨s, .inl rfl, .inl rfl⟩
    | true =>
      rw [if_pos rfl]
      unfold continueOrStep
      rw [hens]
      dsimp only [Packet.detaches, Packet.refreshesThreads, Packet.refreshesMaps] at hp ⊢
      cases hresume : b.resume with
      | none => exact ⟨s, .inl rfl, .inl rfl⟩
      | some w =>
        rw [hresume] at hp
        cases w with
        | waiting => exact ⟨s, .inl rfl, .inl rfl⟩
        | failed => exact ⟨s, .inl rfl, .inl rfl⟩
        | shutdown =>
          have hdetach : b.detach = false := by simpa using hp
          exact ⟨s, .inl rfl, .inl (by simp [safeDetach_of_attached h hdetach])⟩
        | interrupted => exact ⟨s, .inl rfl, .inr ⟨.inl (by decide), rfl⟩⟩
        | stopped => exact ⟨_, .inr ⟨by decide, rfl⟩, .inr ⟨.inl (by decide), rfl⟩⟩
  | attach target =>
    refine ⟨s, .inl rfl, .inl ?_⟩
    rw [handle, vAttach]
    dsimp only [Packet.detaches] at hp
    by_cases hlow : target ≤ 1
    · rw [if_pos hlow]
    rw [if_neg hlow]
    by_cases hsame : s.pid = target
    · rw [if_pos ⟨h, hsame⟩]
    · have hdetach : b.detach = false := by
        simpa [Int.not_le.mp hlow, Ne.symm hsame] using hp
      rw [if_neg fun hboth => hsame hboth.2, if_pos h, safeDetach_of_attached h hdetach]
      rfl
  | detach valid =>
    refine ⟨s, .inl rfl, .inl ?_⟩
    rw [handle]
    cases valid with
    | false => rfl
    | true => rw [if_pos rfl, safeDetach_of_attached h hp]
  | kill target =>
    have hkill : ∀ target : Int, (1 < target → target = s.pid → b.detach = false) →
        s.killProcess b target = s := by
      intro target hkept
      unfold killProcess
      rw [if_pos h]
      split_ifs with hlow hother
      · rfl
      · rfl
      · have hdetach := hkept (Int.not_le.mp hlow) (Decidable.not_not.mp hother)
        rw [safeDetach_of_attached h hdetach]
    refine ⟨s, .inl rfl, .inl ?_⟩
    cases target with
    | none =>
      rw [handle, if_pos h]
      refine hkill s.pid fun hhigh _ => ?_
      have hkept : 1 < s.pid → b.detach = false := by simpa [Packet.detaches] using hp
      exact hkept hhigh
    | some target =>
      rw [handle]
      refine hkill target fun hhigh hsame => ?_
      have hkept : 1 < target → target = s.pid → b.detach = false := by
        simpa [Packet.detaches] using hp
      exact hkept hhigh hsame
  | other => exact ⟨s, .inl rfl, .inl rfl⟩

end Handler

/-! ## The lists stay -/

namespace Frozen

variable {o : XferObject} {s s' : Handler} {b : Backend}

theorem refreshThreads (h : Frozen o s s') (hthreads : o = .threads → b.threads = s.threads) :
    Frozen o s (s'.refreshThreads b) where
  attached := h.attached
  pid := h.pid
  threads ho := by
    have hattached := h.attached (by rw [ho]; decide)
    rw [← hthreads ho]
    exact if_pos hattached
  maps := h.maps

theorem refreshMemoryMaps (h : Frozen o s s')
    (hmaps : o = .memoryMap ∨ o = .libraries → b.maps s.pid = some s.memoryMaps) :
    Frozen o s (s'.refreshMemoryMaps b).2 := by
  unfold Handler.refreshMemoryMaps
  cases hb : b.maps s'.pid with
  | none =>
    refine ⟨h.attached, h.pid, h.threads, fun ho => ?_⟩
    have hpid := h.pid (by rcases ho with rfl | rfl <;> decide)
    rw [hpid, hmaps ho] at hb
    cases hb
  | some maps =>
    refine ⟨h.attached, h.pid, h.threads, fun ho => ⟨?_, rfl⟩⟩
    have hpid := h.pid (by rcases ho with rfl | rfl <;> decide)
    rw [hpid, hmaps ho] at hb
    exact (Option.some.inj hb).symm

theorem handle (h : Frozen o s s') {p : Packet} (hq : Quiet o s (p, b)) :
    Frozen o s (s'.handle b p) := by
  by_cases ho : o = .osdata
  · subst ho
    exact ⟨fun h => absurd rfl h, fun h => absurd rfl h, nofun, nofun⟩
  have hpid := h.pid ho
  have hdetaches : p.detaches s'.pid b = false := by
    rw [hpid]
    cases o with
    | threads => exact hq.1
    | memoryMap => exact hq.1
    | libraries => exact hq.1
    | execFile => exact hq
    | osdata => exact absurd rfl ho
  obtain ⟨mid, hmid, hlast⟩ := handle_cases (b := b) (h.attached ho) hdetaches
  have hfrozen : Frozen o s mid := by
    obtain rfl | ⟨hrefreshes, rfl⟩ := hmid
    · exact h
    · refine h.refreshThreads fun hthreads => ?_
      subst hthreads
      exact hq.2 (hpid ▸ hrefreshes)
  obtain hsame | ⟨hwhen, hlast⟩ := hlast
  · rw [hsame]
    exact hfrozen
  · rw [hlast]
    refine hfrozen.refreshMemoryMaps fun hmaps => ?_
    have hknown := (h.maps hmaps).2
    have hrefreshes := hwhen.resolve_right (by rw [hknown]; decide)
    rw [hpid] at hrefreshes
    rcases hmaps with rfl | rfl
    · exact hq.2 hrefreshes
    · exact hq.2 hrefreshes

theorem handleAll (h : Frozen o s s') {packets : List (Packet × Backend)}
    (hq : ∀ q ∈ packets, Quiet o s q) : Frozen o s (s'.handleAll packets) :=
  List.foldlRecOn (motive := Frozen o s) packets _ h fun _ hs q hmem => hs.handle (hq q hmem)

theorem document (h : Frozen o s s') {offset : Nat} (hoffset : offset ≠ 0) {b' : Backend}
    (hb : SameAnswer o s.pid b b') : s'.document b' offset o = (s.kept b o, s') := by
  have hmaps : o = .memoryMap ∨ o = .libraries → s'.mapsFor b' offset = (true, s') := by
    intro ho
    unfold mapsFor
    rw [(h.maps ho).2]
    exact if_neg (by simpa using hoffset)
  cases o with
  | threads =>
    have hattached := h.attached (by decide)
    rw [document, ensureAttached_of_attached hattached, kept,
      ← h.threads rfl, ← h.pid (by decide)]
    simp [hoffset]
  | memoryMap =>
    have hattached := h.attached (by decide)
    rw [document, ensureAttached_of_attached hattached, kept,
      ← (h.maps (.inl rfl)).1]
    simp [hmaps (.inl rfl)]
  | libraries =>
    have hattached := h.attached (by decide)
    rw [document, ensureAttached_of_attached hattached, kept,
      ← (h.maps (.inr rfl)).1]
    simp [hmaps (.inr rfl)]
  | execFile =>
    have hattached := h.attached (by decide)
    have hanswer : b'.info s.pid = b.info s.pid := hb
    rw [document, ensureAttached_of_attached hattached, kept, ← hanswer,
      ← h.pid (by decide)]
    rfl
  | osdata =>
    have hanswer : b'.processes = b.processes := hb
    rw [document, kept, hanswer]

end Frozen

namespace Handler

variable {s : Handler} {b : Backend}

theorem refreshMemoryMaps_snd : (s.refreshMemoryMaps b).2.attached = s.attached ∧
    (s.refreshMemoryMaps b).2.pid = s.pid ∧
      (s.refreshMemoryMaps b).2.memoryMapsKnown = (s.refreshMemoryMaps b).1 := by
  unfold refreshMemoryMaps
  cases b.maps s.pid with
  | none => exact ⟨rfl, rfl, rfl⟩
  | some maps => exact ⟨rfl, rfl, rfl⟩

theorem ensureAttached_pid : (s.ensureAttached b).2.pid = s.pid := by
  unfold ensureAttached attachTo
  split_ifs
  · rfl
  · rfl
  · rfl
  · exact refreshMemoryMaps_snd.2.1

theorem mapsFor_pid (offset : Nat) : (s.mapsFor b offset).2.pid = s.pid := by
  unfold mapsFor
  split_ifs
  · exact refreshMemoryMaps_snd.2.1
  · rfl

theorem document_pid (offset : Nat) (o : XferObject) :
    (s.document b offset o).2.pid = s.pid := by
  have hensured := @ensureAttached_pid s b
  cases o with
  | threads =>
    unfold document
    dsimp only
    split_ifs
    · exact hensured
    · exact hensured
    · exact hensured
  | memoryMap =>
    unfold document
    dsimp only
    split_ifs
    · exact hensured
    · exact (mapsFor_pid offset).trans hensured
    · exact (mapsFor_pid offset).trans hensured
  | libraries =>
    unfold document
    dsimp only
    split_ifs
    · exact hensured
    · exact (mapsFor_pid offset).trans hensured
    · exact (mapsFor_pid offset).trans hensured
  | execFile =>
    unfold document
    dsimp only
    split_ifs
    · exact hensured
    · exact hensured
  | osdata => rfl

theorem attached_of_ensureAttached (h : (s.ensureAttached b).1 = true) :
    (s.ensureAttached b).2.attached = true := by
  unfold ensureAttached at h ⊢
  split_ifs at h ⊢ with hattached hpid
  · exact hattached
  · unfold attachTo at h ⊢
    split_ifs at h ⊢ with hfails
    rw [refreshMemoryMaps_snd.1]
    rfl

theorem frozen_of_maps {o : XferObject} (h : (s.ensureAttached b).1 = true)
    (hmaps : ((s.ensureAttached b).2.refreshMemoryMaps b).1 = true) :
    Frozen o ((s.ensureAttached b).2.refreshMemoryMaps b).2
      ((s.ensureAttached b).2.refreshMemoryMaps b).2 where
  attached _ := refreshMemoryMaps_snd.1.trans (attached_of_ensureAttached h)
  pid _ := rfl
  threads _ := rfl
  maps _ := ⟨rfl, refreshMemoryMaps_snd.2.2.trans hmaps⟩

theorem of_ite_eq_some {α : Type*} {ok : Bool} {x y : α}
    (h : (if ok then some x else none) = some y) : ok = true := by
  by_contra hnot
  rw [if_neg hnot] at h
  cases h

theorem frozen_of_document {o : XferObject} {data : List UInt8}
    (h : (s.document b 0 o).1 = some data) :
    Frozen o (s.document b 0 o).2 (s.document b 0 o).2 ∧
      (s.document b 0 o).2.kept b o = some data := by
  by_cases hosdata : o = .osdata
  · subst hosdata
    exact ⟨⟨fun h => absurd rfl h, fun h => absurd rfl h, nofun, nofun⟩, h⟩
  cases hok : (s.ensureAttached b) with
  | mk ok s' =>
    have hattached := @attached_of_ensureAttached s b
    have hfrozen := @frozen_of_maps s b o
    rw [hok] at hattached hfrozen
    cases ok with
    | false =>
      cases o <;> simp [document, hok] at h hosdata
    | true =>
      cases o with
      | threads =>
        rw [document, hok] at h ⊢
        exact ⟨⟨fun _ => hattached rfl, fun _ => rfl, fun _ => rfl, nofun⟩, h⟩
      | memoryMap =>
        rw [document, hok] at h ⊢
        have hmaps : (s'.refreshMemoryMaps b).1 = true := of_ite_eq_some h
        exact ⟨hfrozen rfl hmaps, (if_pos hmaps).symm.trans h⟩
      | libraries =>
        rw [document, hok] at h ⊢
        have hmaps : (s'.refreshMemoryMaps b).1 = true := of_ite_eq_some h
        exact ⟨hfrozen rfl hmaps, (if_pos hmaps).symm.trans h⟩
      | execFile =>
        rw [document, hok] at h ⊢
        exact ⟨⟨fun _ => hattached rfl, fun _ => rfl, nofun, nofun⟩, h⟩
      | osdata => exact absurd rfl hosdata

end Handler

/-! ## The chunks -/

theorem behind_last (got data : List UInt8) :
    Progress.behind got (108 :: data) = .ended (got ++ data) := rfl

theorem behind_more (got data : List UInt8) :
    Progress.behind got (109 :: data) = .reading (got ++ data) := rfl

theorem behind_qxferSlice {data : List UInt8} {k n : Nat} (hn : 0 < n) :
    Progress.behind (data.take k) (qxferSlice data k n) =
      if k + n ≥ data.length then .ended data else .reading (data.take (k + n)) := by
  unfold qxferSlice
  rw [if_neg (Nat.ne_of_gt hn)]
  by_cases hend : k ≥ data.length
  · rw [if_pos hend, if_pos (Nat.le_add_right_of_le hend), behind_last, append_nil,
      take_of_length_le hend]
  rw [if_neg hend]
  dsimp only
  by_cases hlast : k + n ≥ data.length
  · have hmin : min n (data.length - k) = data.length - k := by omega
    have hfull : k + (data.length - k) ≥ data.length := by omega
    rw [if_pos hlast, hmin, if_pos hfull, behind_last,
      take_of_length_le (Nat.le_of_eq length_drop), take_append_drop]
  · have hmin : min n (data.length - k) = n := by omega
    rw [if_neg hlast, hmin, if_neg hlast, behind_more, take_add]

theorem Frozen.accepts {o : XferObject} {s s' : Handler} (h : Frozen o s s')
    (annex : List UInt8) : o.accepts s'.pid annex = o.accepts s.pid annex := by
  by_cases ho : o = .osdata
  · rw [ho]
    rfl
  · rw [h.pid ho]

theorem transfer_cons {o : XferObject} {annex data : List UInt8} {s s' : Handler} {c : Chunk}
    {k : Nat} (hk : k ≤ data.length)
    (haccepts : o.accepts (s.handleAll c.others).pid annex = true)
    (hdoc : (s.handleAll c.others).document c.backend k o = (some data, s'))
    (chunks : List Chunk) :
    transfer o annex s (data.take k) (c :: chunks) =
      if k + c.length ≥ data.length then .ended data
      else transfer o annex s' (data.take (k + c.length)) chunks := by
  have hoffset : (c.request annex (data.take k)).offset = k := by
    rw [Chunk.request, length_take, Nat.min_eq_left hk]
  have hreply : (s.handleAll c.others).qxfer o c.backend (c.request annex (data.take k)) =
      (qxferSlice data k c.length, s') := by
    unfold qxfer
    rw [hoffset, hdoc]
    exact if_neg (by
      change ¬(!o.accepts (s.handleAll c.others).pid annex) = true
      rw [haccepts]
      decide)
  rw [transfer, hreply]
  dsimp only
  rw [behind_qxferSlice c.length_pos]
  split_ifs
  · rfl
  · rfl

section

variable {o : XferObject} {annex : List UInt8} {s₀ : Handler} {b₀ : Backend} {data : List UInt8}

theorem transfer_exact_of_frozen (hdata : s₀.kept b₀ o = some data)
    (haccepts : o.accepts s₀.pid annex = true) {chunks : List Chunk}
    (hquiet : ∀ c ∈ chunks, (∀ q ∈ c.others, Quiet o s₀ q) ∧ SameAnswer o s₀.pid b₀ c.backend)
    {s : Handler} (hs : Frozen o s₀ s) {k : Nat} (hk : 0 < k ∧ k < data.length) :
    (transfer o annex s (data.take k) chunks).Exact data (k + chunks.length) := by
  induction chunks generalizing s k with
  | nil =>
    refine ⟨List.take_prefix _ _, ?_, ?_⟩
    all_goals
      rw [length_take, Nat.min_eq_left (Nat.le_of_lt hk.2)]
    · exact Nat.le_refl _
    · exact hk.2
  | cons c chunks ih =>
    obtain ⟨⟨hothers, hanswer⟩, hrest⟩ := forall_mem_cons.mp hquiet
    have hframe := hs.handleAll hothers
    have hdoc := hframe.document (Nat.ne_of_gt hk.1) hanswer
    rw [hdata] at hdoc
    rw [transfer_cons (Nat.le_of_lt hk.2) ((hframe.accepts annex).trans haccepts) hdoc]
    split_ifs with hend
    · rfl
    · have hpos := c.length_pos
      have hexact := ih hrest hframe (k := k + c.length) ⟨by omega, by omega⟩
      refine hexact.mono ?_
      rw [length_cons]
      omega

end

/-- The chunks of a document are the document of the first request, and come to its end, if the
packets between them leave what it is made from and the target tells the same. -/
theorem transfer_exact {o : XferObject} {annex data : List UInt8} {s : Handler} {first : Chunk}
    {rest : List Chunk}
    (hdoc : (s.handleAll first.others).openDocument o annex first.backend = some data)
    (hquiet : ∀ c ∈ rest,
      (∀ q ∈ c.others,
        Quiet o ((s.handleAll first.others).document first.backend 0 o).2 q) ∧
      SameAnswer o ((s.handleAll first.others).document first.backend 0 o).2.pid first.backend
        c.backend) :
    (transfer o annex s [] (first :: rest)).Exact data (rest.length + 1) ∧
      (data.length ≤ rest.length + 1 → transfer o annex s [] (first :: rest) = .ended data) := by
  have hexact : (transfer o annex s [] (first :: rest)).Exact data (rest.length + 1) := by
    unfold openDocument at hdoc
    split_ifs at hdoc with haccepts
    obtain ⟨hfrozen, hkept⟩ := frozen_of_document hdoc
    have hresult : (s.handleAll first.others).document first.backend 0 o =
        (some data, ((s.handleAll first.others).document first.backend 0 o).2) :=
      Prod.ext hdoc rfl
    have hcons := transfer_cons (Nat.zero_le _) haccepts hresult rest
    rw [take_zero, Nat.zero_add] at hcons
    rw [hcons]
    split_ifs with hend
    · rfl
    · have hpos := first.length_pos
      rw [← document_pid (b := first.backend) 0 o] at haccepts
      have hrest := transfer_exact_of_frozen hkept haccepts hquiet hfrozen
        (k := first.length) ⟨hpos, Nat.not_le.mp hend⟩
      exact hrest.mono (by omega)
  refine ⟨hexact, fun hlong => ?_⟩
  cases hresult : transfer o annex s [] (first :: rest) with
  | reading got =>
    rw [hresult] at hexact
    obtain ⟨-, hlow, hhigh⟩ := hexact
    omega
  | ended got =>
    rw [hresult] at hexact
    exact congrArg Progress.ended hexact
  | failed =>
    rw [hresult] at hexact
    exact hexact.elim

def backendOf (path : List UInt8) : Backend where
  attach _ := true
  detach := true
  kill _ := true
  resume := none
  threads := []
  maps _ := none
  info _ := some ⟨[], path⟩
  processes := none

def oneByte (path : List UInt8) : Chunk where
  others := [(.threadInfo, backendOf path)]
  backend := backendOf path
  length := 1
  length_pos := Nat.one_pos

def freshHandler : Handler where
  pid := 7
  attached := false
  threads := []
  memoryMaps := []
  memoryMapsKnown := false

theorem transfer_exact_two :
    transfer .execFile [] freshHandler [] [oneByte [97, 98], oneByte [97, 98]] =
      .ended [97, 98] := by
  refine (@transfer_exact .execFile [] [97, 98] freshHandler (oneByte [97, 98])
    [oneByte [97, 98]] (by decide) fun c hc => ?_).2 (by decide)
  obtain rfl := mem_singleton.mp hc
  refine ⟨fun q hq => ?_, rfl⟩
  obtain rfl := mem_singleton.mp hq
  exact rfl

theorem transfer_of_other_path :
    (freshHandler.handleAll (oneByte [97, 98]).others).openDocument .execFile []
        (oneByte [97, 98]).backend = some [97, 98] ∧
      transfer .execFile [] freshHandler [] [oneByte [97, 98], oneByte [99, 100]] =
        .ended [97, 100] := by
  decide

end MemDbg.Gdb
