import MemDbg.Core.Status
import MemDbg.Lib.Circular

/-!
# The crash dump of the stand-alone tracer

The tracer records events in a ring that overwrites the oldest ones.  A client drains the ring from
its old end, and so does the dump that is written when the target crashes.
-/

namespace MemDbg.Tracer

open List Lib

/-! ## The ring -/

/-- `memdbg_tracer_event_t`. -/
structure TracerEvent where
  timestampNs : Nat
  eventType : Nat
  lwp : Nat
  syscallNo : Nat
  syscallRet : Int
  args : List Nat
  signal : Int
deriving DecidableEq

def TracerEvent.zero : TracerEvent := ⟨0, 0, 0, 0, 0, List.replicate 6 0, 0⟩

def eventSyscallEntry : Nat := 1

def eventSyscallExit : Nat := 2

def eventSignal : Nat := 3

def eventCrash : Nat := 4

/-- `struct ring`. -/
structure EventRing where
  slots : List TracerEvent
  mask : Nat
  head : Nat
  tail : Nat
deriving DecidableEq

def sub32 (a b : Nat) : Nat := counterSub (2 ^ 32) a b

def ringInit (calloc : Bool) (capacity : Nat) : Option EventRing :=
  if capacity < 2 ∨ capacity &&& (capacity - 1) ≠ 0 then none
  else if calloc then some ⟨List.replicate capacity .zero, capacity - 1, 0, 0⟩
  else none

def ringPush (r : EventRing) (ev : TracerEvent) : EventRing :=
  let slots := r.slots.set (r.head &&& r.mask) ev
  let head := wrap32 (r.head + 1)
  if sub32 head r.tail > r.mask + 1 then ⟨slots, r.mask, head, sub32 head (r.mask + 1)⟩
  else ⟨slots, r.mask, head, r.tail⟩

def ringPopCount (r : EventRing) (maxCount : Nat) : Nat :=
  let avail := sub32 r.head r.tail
  if avail = 0 ∨ maxCount = 0 then 0
  else if avail < maxCount then avail else maxCount

def ringPop (r : EventRing) (maxCount : Nat) : List TracerEvent × EventRing :=
  let toCopy := ringPopCount r maxCount
  ((List.range toCopy).map fun i => r.slots.getD (wrap32 (r.tail + i) &&& r.mask) .zero,
    if toCopy = 0 then r else { r with tail := wrap32 (r.tail + toCopy) })

inductive RingOp where
  | push (ev : TracerEvent)
  | pop (maxCount : Nat)
deriving DecidableEq

def EventRing.apply (r : EventRing) : RingOp → EventRing
  | .push ev => ringPush r ev
  | .pop maxCount => (ringPop r maxCount).2

/-! ### Events that have not been drained -/

def record (capacity : Nat) (q : List TracerEvent) (ev : TracerEvent) : List TracerEvent :=
  (q ++ [ev]).drop (q.length + 1 - capacity)

def undrainedAfter (capacity : Nat) (q : List TracerEvent) : RingOp → List TracerEvent
  | .push ev => record capacity q ev
  | .pop maxCount => q.drop maxCount

structure EventRing.Window (r : EventRing) (k : Nat) (history : List TracerEvent) (lo : Nat) :
    Prop where
  length : r.slots.length = 2 ^ k
  mask : r.mask = 2 ^ k - 1
  head : r.head = history.length % 2 ^ 32
  tail : r.tail = lo % 2 ^ 32
  lo_le : lo ≤ history.length
  le_lo : history.length ≤ lo + 2 ^ k
  entries : Circular r.slots history lo history.length

def EventRing.Represents (r : EventRing) (k : Nat) (q : List TracerEvent) : Prop :=
  ∃ history lo, r.Window k history lo ∧ q = history.drop lo

section Ring

variable {r : EventRing} {k lo : Nat} {q history : List TracerEvent}

theorem pow_dvd_counter (hk : k ≤ 31) : 2 ^ k ∣ 2 ^ 32 := Nat.pow_dvd_pow 2 (by omega)

theorem pow_lt_counter (hk : k ≤ 31) : 2 ^ k ≤ 2 ^ 31 := Nat.pow_le_pow_right (by decide) hk

theorem pow_pos_counter (k : Nat) : 0 < 2 ^ k := Nat.pow_pos (by decide)

theorem wrap32_and_mask (hk : k ≤ 31) (n : Nat) : n % 2 ^ 32 &&& (2 ^ k - 1) = n % 2 ^ k := by
  rw [Nat.and_two_pow_sub_one_eq_mod, Nat.mod_mod_of_dvd n (pow_dvd_counter hk)]

theorem ringInit_represents {calloc : Bool} {capacity : Nat} (hcapacity : capacity < 2 ^ 32)
    (h : ringInit calloc capacity = some r) :
    ∃ k ≤ 31, capacity = 2 ^ k ∧ r.Represents k [] := by
  rw [ringInit] at h
  split_ifs at h with hbad halloc
  rw [not_or, not_lt, not_not] at hbad
  obtain ⟨k, rfl⟩ := (Nat.and_sub_one_eq_zero_iff_isPowerOfTwo (by omega)).mp hbad.2
  have hk : k < 32 := (Nat.pow_lt_pow_iff_right (by decide)).mp hcapacity
  cases h
  exact ⟨k, by omega, rfl, [], 0, ⟨length_replicate, rfl, rfl, rfl, le_rfl, Nat.zero_le _,
    .of_le le_rfl _ _⟩, rfl⟩

theorem EventRing.Window.sub_eq (h : r.Window k history lo) (hk : k ≤ 31) :
    sub32 r.head r.tail = history.length - lo := by
  have hle := pow_lt_counter hk
  have hlo := h.le_lo
  have heq := @counterSub_mod (2 ^ 32) (history.length - lo) lo (by omega)
  rw [Nat.add_sub_cancel' h.lo_le] at heq
  rw [sub32, h.head, h.tail, heq]

theorem ringPush_represents (hk : k ≤ 31) (h : r.Represents k q) (ev : TracerEvent) :
    (ringPush r ev).Represents k (record (2 ^ k) q ev) := by
  obtain ⟨history, lo, hw, rfl⟩ := h
  have hpow := pow_lt_counter hk
  have hpos := pow_pos_counter k
  have hlo := hw.lo_le
  have hle := hw.le_lo
  have hslot : r.head &&& r.mask = history.length % r.slots.length := by
    rw [hw.head, hw.mask, hw.length, wrap32_and_mask hk]
  have hhead : wrap32 (r.head + 1) = (history ++ [ev]).length % 2 ^ 32 := by
    rw [wrap32, hw.head, Nat.mod_add_mod, length_append, length_singleton]
  have hsub : sub32 (wrap32 (r.head + 1)) r.tail = history.length + 1 - lo := by
    have heq := @counterSub_mod (2 ^ 32) (history.length + 1 - lo) lo (by omega)
    rw [show lo + (history.length + 1 - lo) = history.length + 1 by omega] at heq
    rw [hhead, sub32, hw.tail, length_append, length_singleton, heq]
  have hmask : r.mask + 1 = 2 ^ k := by
    rw [hw.mask]
    omega
  have hdrop : record (2 ^ k) (history.drop lo) ev =
      (history ++ [ev]).drop (lo + (history.length - lo + 1 - 2 ^ k)) := by
    rw [record, length_drop, ← drop_drop, drop_append_of_le_length hlo]
  rw [ringPush, hslot, hsub, hmask, hdrop]
  have hlength : (r.slots.set (history.length % r.slots.length) ev).length = 2 ^ k := by
    rw [length_set, hw.length]
  split_ifs with hfull
  · -- the oldest event is overwritten
    refine ⟨history ++ [ev], lo + 1, ⟨hlength, hw.mask, hhead, ?_, ?_, ?_, ?_⟩, ?_⟩
    · dsimp only
      rw [hhead, sub32, counterSub, length_append, length_singleton]
      omega
    · rw [length_append, length_singleton]
      omega
    · rw [length_append, length_singleton]
      omega
    · rw [length_append, length_singleton]
      exact (hw.entries.mono (Nat.le_add_right lo 1) le_rfl).push (by omega)
        (by rw [hw.length]; omega) ev
    · rw [show history.length - lo + 1 - 2 ^ k = 1 by omega]
  · refine ⟨history ++ [ev], lo, ⟨hlength, hw.mask, hhead, hw.tail, ?_, ?_, ?_⟩, ?_⟩
    · rw [length_append, length_singleton]
      omega
    · rw [length_append, length_singleton]
      omega
    · rw [length_append, length_singleton]
      exact hw.entries.push hlo (by rw [hw.length]; omega) ev
    · rw [show history.length - lo + 1 - 2 ^ k = 0 by omega, Nat.add_zero]

theorem EventRing.Window.copy (h : r.Window k history lo) (hk : k ≤ 31) {n : Nat}
    (hn : n ≤ history.length - lo) :
    (List.range n).map (fun i => r.slots.getD (wrap32 (r.tail + i) &&& r.mask) .zero) =
        (history.drop lo).take n ∧
      EventRing.Window { r with tail := wrap32 (r.tail + n) } k history (lo + n) := by
  have hlo := h.lo_le
  have hle := h.le_lo
  constructor
  · rw [← h.entries.read le_rfl (by omega) .zero]
    refine map_congr_left fun i _ => ?_
    rw [wrap32, h.tail, Nat.mod_add_mod, h.mask, wrap32_and_mask hk, h.length]
  · refine ⟨h.length, h.mask, h.head, ?_, by omega, by omega, h.entries.mono (by omega) le_rfl⟩
    rw [wrap32, h.tail, Nat.mod_add_mod]

theorem EventRing.Window.popCount (h : r.Window k history lo) (hk : k ≤ 31) (maxCount : Nat) :
    ringPopCount r maxCount = min (history.length - lo) maxCount := by
  rw [ringPopCount, h.sub_eq hk]
  split_ifs <;> omega

theorem ringPop_represents (hk : k ≤ 31) (h : r.Represents k q) (maxCount : Nat) :
    (ringPop r maxCount).1 = q.take maxCount ∧
      (ringPop r maxCount).2.Represents k (q.drop maxCount) := by
  obtain ⟨history, lo, hw, rfl⟩ := h
  have hlength : (history.drop lo).length = history.length - lo := length_drop
  obtain ⟨hcopied, hrest⟩ := hw.copy hk (Nat.min_le_left (history.length - lo) maxCount)
  have hdrop : history.drop (lo + min (history.length - lo) maxCount) =
      (history.drop lo).drop maxCount := by
    rw [← drop_drop]
    rcases Nat.le_total (history.length - lo) maxCount with hle | hle
    · rw [Nat.min_eq_left hle, drop_eq_nil_of_le hlength.le,
        drop_eq_nil_of_le (hlength.trans_le hle)]
    · rw [Nat.min_eq_right hle]
  rw [ringPop, hw.popCount hk]
  refine ⟨?_, ?_⟩
  · rw [hcopied]
    exact take_eq_take_iff.mpr (by omega)
  · dsimp only
    split_ifs with hzero
    · rw [hzero, Nat.add_zero] at hdrop
      exact ⟨history, lo, hw, hdrop.symm⟩
    · exact ⟨history, _, hrest, hdrop.symm⟩

theorem EventRing.Represents.apply (hk : k ≤ 31) (h : r.Represents k q) (op : RingOp) :
    (r.apply op).Represents k (undrainedAfter (2 ^ k) q op) := by
  cases op with
  | push ev => exact ringPush_represents hk h ev
  | pop maxCount => exact (ringPop_represents hk h maxCount).2

theorem EventRing.Represents.foldl (hk : k ≤ 31) (h : r.Represents k q) (ops : List RingOp) :
    (ops.foldl EventRing.apply r).Represents k (ops.foldl (undrainedAfter (2 ^ k)) q) := by
  induction ops generalizing r q with
  | nil => exact h
  | cons op ops ih => exact ih (h.apply hk op)

theorem EventRing.Represents.sub_eq (hk : k ≤ 31) (h : r.Represents k q) :
    sub32 r.head r.tail = q.length := by
  obtain ⟨history, lo, hw, rfl⟩ := h
  rw [hw.sub_eq hk, length_drop]

end Ring

/-! ## The crash -/

inductive DumpedDetail where
  | args (args : List Nat)
  | retval (retval : Int)
  | signal (signal : Int)
deriving DecidableEq

structure DumpedEvent where
  type : Nat
  lwp : Nat
  syscall : Nat
  detail : DumpedDetail
  timestampNs : Nat
deriving DecidableEq

def dumpedEvent (e : TracerEvent) : DumpedEvent where
  type := e.eventType
  lwp := e.lwp
  syscall := e.syscallNo
  detail :=
    if e.eventType = eventSyscallEntry then .args e.args
    else if e.eventType = eventSyscallExit then .retval e.syscallRet
    else .signal e.signal
  timestampNs := e.timestampNs

inductive TraceMode where
  | crashOnly
  | full
deriving DecidableEq

inductive CrashStop where
  | killed
  | stopped
deriving DecidableEq

structure Crash where
  mode : TraceMode
  stop : CrashStop
  sig : Int
  stoppedNs : Nat
  crashedNs : Nat
  fopen : Bool
  calloc : Bool

def Crash.event (c : Crash) : TracerEvent :=
  { TracerEvent.zero with eventType := eventCrash, signal := c.sig, timestampNs := c.crashedNs }

def Crash.signalEvent (c : Crash) : TracerEvent :=
  { TracerEvent.zero with eventType := eventSignal, signal := c.sig, timestampNs := c.stoppedNs }

def Crash.recorded (c : Crash) : List TracerEvent :=
  match c.mode, c.stop with
  | .crashOnly, .killed => [c.event]
  | .crashOnly, .stopped => [c.signalEvent, c.event]
  | .full, .killed => [c.event]
  | .full, .stopped => []

def writeCrashDump (r : EventRing) (c : Crash) : Option (List DumpedEvent) :=
  if c.fopen then
    let eventCount := sub32 r.head r.tail
    let count := if eventCount < 100 then eventCount else 100
    if c.calloc then some ((ringPop r count).1.map dumpedEvent) else some []
  else none

def crashDump (r : EventRing) (c : Crash) : Option (List DumpedEvent) :=
  writeCrashDump (c.recorded.foldl ringPush r) c

def Crash.undrained (c : Crash) (capacity : Nat) (ops : List RingOp) : List TracerEvent :=
  (ops ++ c.recorded.map RingOp.push).foldl (undrainedAfter capacity) []

/-- The dump shows the last events, and the crash behind them. -/
structure Crash.ShowsNewest (c : Crash) (undrained : List TracerEvent)
    (dump : Option (List DumpedEvent)) : Prop where
  newest : dump = some ((undrained.drop (undrained.length - min 100 undrained.length)).map
    dumpedEvent)
  crash : c.event ∈ c.recorded ∧ (dump.bind List.getLast?) = some (dumpedEvent c.event)

/-- The crash is recorded and can be written, and there are no more events than fit in the dump,
or the first of them look like the last ones. -/
structure Crash.Fits (c : Crash) (undrained : List TracerEvent) : Prop where
  fopen : c.fopen = true
  calloc : c.calloc = true
  records : ¬ (c.mode = .full ∧ c.stop = .stopped)
  count : undrained.length ≤ 100 ∨ ∀ i < 100, undrained[i]?.map dumpedEvent =
    undrained[undrained.length - 100 + i]?.map dumpedEvent

section Dump

variable {r : EventRing} {c : Crash} {k : Nat} {q : List TracerEvent}

theorem getLast?_record {capacity : Nat} (h : 0 < capacity) (q : List TracerEvent)
    (ev : TracerEvent) : (record capacity q ev).getLast? = some ev := by
  rw [record, getLast?_drop, if_neg (by rw [length_append, length_singleton]; omega),
    getLast?_concat]

theorem Crash.mem_recorded_iff : c.event ∈ c.recorded ↔ ¬ (c.mode = .full ∧ c.stop = .stopped) := by
  rw [Crash.recorded]
  cases c.mode <;> cases c.stop <;> simp

theorem Crash.getLast?_undrained (h : ¬ (c.mode = .full ∧ c.stop = .stopped)) {capacity : Nat}
    (hcapacity : 0 < capacity) (ops : List RingOp) :
    (c.undrained capacity ops).getLast? = some c.event := by
  have hlast : ∃ before, c.recorded = before ++ [c.event] := by
    rw [Crash.recorded]
    cases hmode : c.mode <;> cases hstop : c.stop
    · exact ⟨[], rfl⟩
    · exact ⟨[c.signalEvent], rfl⟩
    · exact ⟨[], rfl⟩
    · exact absurd ⟨hmode, hstop⟩ h
  obtain ⟨before, hrecorded⟩ := hlast
  rw [Crash.undrained, hrecorded, map_append, ← append_assoc, foldl_append]
  exact getLast?_record hcapacity _ _

theorem Crash.represents (hk : k ≤ 31) (h : r.Represents k []) (c : Crash) (ops : List RingOp) :
    (c.recorded.foldl ringPush (ops.foldl EventRing.apply r)).Represents k
      (c.undrained (2 ^ k) ops) := by
  have hall := h.foldl hk (ops ++ c.recorded.map RingOp.push)
  rw [foldl_append, foldl_map] at hall
  exact hall

theorem writeCrashDump_eq (hk : k ≤ 31) (h : r.Represents k q) : writeCrashDump r c =
    if c.fopen then some (if c.calloc then (q.take 100).map dumpedEvent else []) else none := by
  have htake : q.take (if q.length < 100 then q.length else 100) = q.take 100 :=
    take_eq_take_iff.mpr (by split_ifs <;> omega)
  rw [writeCrashDump, h.sub_eq hk]
  dsimp only
  rw [(ringPop_represents hk h _).1, htake]
  split_ifs <;> rfl

theorem showsNewest_iff (hk : k ≤ 31) (h : r.Represents k q)
    (hlast : ¬ (c.mode = .full ∧ c.stop = .stopped) → q.getLast? = some c.event) :
    c.ShowsNewest q (writeCrashDump r c) ↔ c.Fits q := by
  rw [writeCrashDump_eq hk h]
  constructor
  · rintro ⟨hnewest, hmem, hcrash⟩
    have hrecords := Crash.mem_recorded_iff.mp hmem
    cases hopen : c.fopen with
    | false =>
      rw [hopen, if_neg Bool.false_ne_true] at hnewest
      cases hnewest
    | true =>
      cases hcalloc : c.calloc with
      | false =>
        rw [hopen, hcalloc, if_pos rfl, if_neg Bool.false_ne_true] at hcrash
        cases hcrash
      | true =>
        rw [hopen, hcalloc, if_pos rfl, if_pos rfl, Option.some_inj] at hnewest
        refine ⟨hopen, hcalloc, hrecords, ?_⟩
        rcases Nat.le_total q.length 100 with hle | hge
        · exact .inl hle
        · refine .inr fun i hi => ?_
          have hi' := congrArg (fun l => l[i]?) hnewest
          rwa [getElem?_map, getElem?_map, getElem?_take_of_lt hi,
            getElem?_drop, Nat.min_eq_left hge] at hi'
  · rintro ⟨hopen, hcalloc, hrecords, hcount⟩
    rw [hopen, hcalloc, if_pos rfl, if_pos rfl]
    have hnewest : (q.take 100).map dumpedEvent =
        (q.drop (q.length - min 100 q.length)).map dumpedEvent := by
      rcases hcount with hle | hsame
      · rw [take_of_length_le hle, Nat.min_eq_right hle, Nat.sub_self, drop_zero]
      · rcases Nat.le_total q.length 100 with hle | hge
        · rw [take_of_length_le hle, Nat.min_eq_right hle, Nat.sub_self, drop_zero]
        · rw [Nat.min_eq_left hge]
          refine ext_getElem? fun i => ?_
          rw [getElem?_map, getElem?_map, getElem?_drop]
          rcases Nat.lt_or_ge i 100 with hi | hi
          · rw [getElem?_take_of_lt hi]
            exact hsame i hi
          · rw [getElem?_eq_none (by rw [length_take]; omega),
              getElem?_eq_none (by omega)]
    have hq := hlast hrecords
    refine ⟨congrArg some hnewest, Crash.mem_recorded_iff.mpr hrecords, ?_⟩
    have hpos : 0 < q.length := length_pos_iff.mpr fun hnil => by
      rw [hnil] at hq
      cases hq
    rw [Option.bind_some, hnewest, getLast?_map, getLast?_drop, if_neg (by omega), hq]
    rfl

end Dump

/-- The dump of a crash shows the newest events exactly if they fit, for every ring and every
sequence of calls before the crash. -/
theorem crashDump_showsNewest_iff {calloc : Bool} {capacity : Nat} (hcapacity : capacity < 2 ^ 32)
    {r : EventRing} (h : ringInit calloc capacity = some r) (ops : List RingOp) (c : Crash) :
    c.ShowsNewest (c.undrained capacity ops) (crashDump (ops.foldl EventRing.apply r) c) ↔
      c.Fits (c.undrained capacity ops) := by
  obtain ⟨k, hk, rfl, hr⟩ := ringInit_represents hcapacity h
  exact showsNewest_iff hk (c.represents hk hr ops)
    fun hrecords => c.getLast?_undrained hrecords (pow_pos_counter k) ops

/-! ## A hundred and one events -/

def syscallEvent (n : Nat) : TracerEvent := ⟨n, eventSyscallEntry, 0, n, 0, [], 0⟩

def killed : Crash := ⟨.crashOnly, .killed, 11, 200, 200, true, true⟩

def stoppedTraced : Crash := ⟨.full, .stopped, 11, 200, 200, true, true⟩

def twoSlots : EventRing := ⟨List.replicate 2 .zero, 1, 0, 0⟩

theorem crashDump_showsNewest_iff_killed :
    killed.ShowsNewest (killed.undrained 2 [.push (syscallEvent 1), .push (syscallEvent 2), .pop 1])
        (crashDump ([.push (syscallEvent 1), .push (syscallEvent 2), .pop 1].foldl EventRing.apply
          twoSlots) killed) ↔
      killed.Fits
        (killed.undrained 2 [.push (syscallEvent 1), .push (syscallEvent 2), .pop 1]) :=
  crashDump_showsNewest_iff (by decide) (show ringInit true 2 = some twoSlots by decide) _ killed

theorem not_showsNewest :
    (∃ r, ringInit true 128 = some r ∧
      ¬ killed.ShowsNewest (killed.undrained 128 ((List.range 100).map (.push <| syscallEvent ·)))
        (crashDump (((List.range 100).map (.push <| syscallEvent ·)).foldl EventRing.apply r)
          killed)) ∧
      ¬ stoppedTraced.ShowsNewest (stoppedTraced.undrained 2 [.push (syscallEvent 1)])
        (crashDump ([.push (syscallEvent 1)].foldl EventRing.apply twoSlots) stoppedTraced) := by
  refine ⟨⟨⟨List.replicate 128 .zero, 127, 0, 0⟩, by decide, fun h => ?_⟩, fun h => ?_⟩
  · have hlast := h.crash.2
    revert hlast
    decide +kernel
  · have hmem := h.crash.1
    revert hmem
    decide

end MemDbg.Tracer
