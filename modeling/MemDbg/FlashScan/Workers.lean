import MemDbg.FlashScan.Handler
import MemDbg.FlashScan.Chunks
import MemDbg.Lib.Turns

/-!
# The workers of a parallel stream

`flashscan_parallel_stream` gives every worker a part of the range, a read buffer and
a session for the hits, and sends the records of all workers once they have ended.
Thread creation may fail; the caller then runs the worker itself.  So the workers
take turns in some order, chunk by chunk, and share nothing but what they read.
-/

namespace MemDbg.FlashScan

open List Lib Scan

/-! ## Ranges -/

def workerRanges (span length : Nat) : List (Nat × Nat) :=
  (List.range ((length + span - 1) / span)).map fun i => (i * span, min (i * span + span) length)

def parallelCut (chunkSize span length : Nat) : List (Nat × Nat) :=
  (workerRanges span length).flatMap fun r => cutRange chunkSize r.1 r.2

section Ranges

variable {span length chunkSize : Nat}

theorem span_firstRanges (length : Nat) (hspan : 0 < span) {k : Nat}
    (hk : k ≤ (length + span - 1) / span) :
    Span 0 ((List.range k).map fun i => (i * span, min (i * span + span) length))
      (min (k * span) length) := by
  induction k with
  | zero =>
    rw [Nat.zero_mul, Nat.zero_min]
    exact .nil 0
  | succ k ih =>
    have hlt : k * span < length := by
      have := (Nat.le_div_iff_mul_le hspan).mp hk
      rw [Nat.succ_mul] at this
      omega
    have hfirst := ih (by omega)
    rw [Nat.min_eq_left hlt.le] at hfirst
    rw [range_succ, map_append, Nat.succ_mul]
    exact hfirst.append (.cons (by omega) (.nil _))

theorem span_workerRanges (length : Nat) (hspan : 0 < span) :
    Span 0 (workerRanges span length) length := by
  have hall := span_firstRanges length hspan le_rfl
  have hcover : length ≤ (length + span - 1) / span * span := by
    have hdiv := Nat.div_add_mod' (length + span - 1) span
    have hmod := Nat.mod_lt (length + span - 1) hspan
    omega
  rwa [Nat.min_eq_right hcover] at hall

theorem span_flatMap_cutRange (hchunk : 0 < chunkSize) {a b : Nat} {ranges : List (Nat × Nat)}
    (h : Span a ranges b) : Span a (ranges.flatMap fun r => cutRange chunkSize r.1 r.2) b := by
  induction h with
  | nil a => exact .nil a
  | @cons a b c ranges hab _ ih =>
    rw [flatMap_cons]
    exact (span_cutRange hchunk hab.le).append ih

theorem span_parallelCut (length : Nat) (hchunk : 0 < chunkSize) (hspan : 0 < span) :
    Span 0 (parallelCut chunkSize span length) length :=
  span_flatMap_cutRange hchunk (span_workerRanges length hspan)

theorem parallelCut_of_dvd (hchunk : 0 < chunkSize) (hspan : 0 < span) (h : chunkSize ∣ span) :
    parallelCut chunkSize span length = cutRange chunkSize 0 length := by
  obtain ⟨m, rfl⟩ := h
  have hfirst {k : Nat} (hk : k ≤ (length + chunkSize * m - 1) / (chunkSize * m)) :
      ((List.range k).map fun i => (i * (chunkSize * m),
        min (i * (chunkSize * m) + chunkSize * m) length)).flatMap
          (fun r => cutRange chunkSize r.1 r.2) =
        cutRange chunkSize 0 (min (k * (chunkSize * m)) length) := by
    induction k with
    | zero => rw [Nat.zero_mul, Nat.zero_min, cutRange_of_ge le_rfl]; rfl
    | succ k ih =>
      have hlt : k * (chunkSize * m) < length := by
        have := (Nat.le_div_iff_mul_le hspan).mp hk
        rw [Nat.succ_mul] at this
        omega
      rw [range_succ, map_append, flatMap_append, ih (by omega),
        Nat.min_eq_left hlt.le, Nat.succ_mul]
      have happend := @cutRange_append chunkSize 0
        (min (k * (chunkSize * m) + chunkSize * m) length) hchunk (k * m) (by
          rw [Nat.zero_add, Nat.mul_assoc, Nat.mul_comm m]
          omega)
      rw [Nat.zero_add, Nat.mul_assoc, Nat.mul_comm m] at happend
      simpa using happend
  rw [parallelCut, workerRanges, hfirst le_rfl]
  congr 1
  refine Nat.min_eq_right ?_
  have hdiv := Nat.div_add_mod' (length + chunkSize * m - 1) (chunkSize * m)
  have hmod := Nat.mod_lt (length + chunkSize * m - 1) hspan
  omega

structure SpanFits (span length vlen : Nat) : Prop where
  pos : 0 < span
  dvd : vlen ∣ span
  lt : span < length
  quarter : length ≤ 4 * span
  rounded : 4 * span < length + 4 * vlen

theorem parallelSpans_eq_some {req : StartRequest} {vlen : Nat} {spans : List (Nat × Nat)}
    (hvl : 0 < vlen) (hvl16 : vlen ≤ 16) (hlength : req.length < 2 ^ 64)
    (h : parallelSpans req vlen = some spans) :
    SpanFits (parallelSpan req.length vlen) req.length vlen ∧
      spans = (workerRanges (parallelSpan req.length vlen) req.length).map fun r =>
        (wrap64 (req.address + r.1), r.2 - r.1) := by
  generalize hspan : parallelSpan req.length vlen = span
  simp only [parallelSpans, hspan] at h
  split_ifs at h with hzero hcount
  -- the sum of the length and the rounding does not wrap
  have hsum : req.length + 3 < 2 ^ 64 := by
    by_contra hwrap
    refine hzero ?_
    rw [← hspan, parallelSpan, parallelWorkers, show wrap64 (req.length + 4 - 1) / 4 = 0 by
      unfold wrap64; omega, Nat.zero_add, Nat.div_eq_of_lt (by omega), Nat.zero_mul]
  have hround : span = ((req.length + 3) / 4 + vlen - 1) / vlen * vlen := by
    rw [← hspan, parallelSpan, parallelWorkers, show req.length + 4 - 1 = req.length + 3 by omega,
      wrap64_of_lt hsum]
  have hdiv := Nat.div_add_mod' ((req.length + 3) / 4 + vlen - 1) vlen
  have hmod := Nat.mod_lt ((req.length + 3) / 4 + vlen - 1) hvl
  rw [← hround] at hdiv
  have hpos : 0 < span := Nat.pos_of_ne_zero hzero
  have htotal : req.length + span - 1 < 2 ^ 64 := by
    by_contra hwrap
    rw [Nat.div_eq_of_lt (by unfold wrap64; omega)] at hcount
    omega
  rw [wrap64_of_lt htotal] at h hcount
  have htwo : 2 * span ≤ req.length + span - 1 := by
    have := (Nat.le_div_iff_mul_le hpos).mp (show 2 ≤ (req.length + span - 1) / span by omega)
    omega
  refine ⟨⟨hpos, hround ▸ Nat.dvd_mul_left _ _, by omega, by omega, by omega⟩, ?_⟩
  rw [← Option.some.inj h, workerRanges, map_map]
  refine map_congr_left fun i _ => ?_
  rw [Function.comp_apply, Prod.mk.injEq]
  refine ⟨rfl, ?_⟩
  split_ifs <;> omega

end Ranges

/-! ## Turns -/

inductive ScanTask where
  | running (addr remaining : Nat) (buf : List UInt8) (sink : Sink)
  | ended (result : Option (Except Sink Sink))

def scanTurn (env : FsEnv) (req : StartRequest) (plan : ScanPlan) (pattern mask betweenHi : Ptr) :
    ScanTask → Option ScanTask
  | .ended _ => none
  | .running addr remaining buf sink =>
    if remaining > 0 then
      let toRead := if remaining > plan.chunkSize then plan.chunkSize else remaining
      let (src, buf) := readChunk env addr toRead buf
      match chunkHits env plan req.compareType pattern mask betweenHi src toRead with
      | none => some (.ended none)
      | some offs =>
        match sink.putAll req plan.vlen addr src offs with
        | .error sink => some (.ended (some (.error sink)))
        | .ok sink =>
          let advance := chunkAdvance plan toRead
          some (.running (wrap64 (addr + advance))
            (if remaining > advance then remaining - advance else 0) buf sink)
    else some (.ended (some (.ok sink)))

def parallelTasks (env : FsEnv) (req : StartRequest) (vlen : Nat) :
    List (Nat × Nat) → Nat → List ScanTask
  | [], _ => []
  | (addr, len) :: rest, i =>
    .running addr len (env.fresh i) (.session (parallelSession req vlen)) ::
      parallelTasks env req vlen rest (i + 1)

def ScanTask.result : ScanTask → Option (Except Sink Sink)
  | running _ _ _ _ => none
  | ended result => result.map (·.map Sink.flush)

def taskResults : List ScanTask → Option (List (Except Sink Sink))
  | [] => some []
  | task :: tasks => do
    let result ← task.result
    let others ← taskResults tasks
    some (result :: others)

def flashscanParallelTurns (env : FsEnv) (req : StartRequest) (plan : ScanPlan)
    (pattern mask betweenHi : Ptr) (schedule : List Nat) : Option (Bool × List (List UInt8)) :=
  match parallelStart env req plan with
  | none => some (false, [])
  | some spans =>
    (taskResults (turns (scanTurn env req { plan with simdOk := true } pattern mask betweenHi)
      (parallelTasks env req plan.vlen spans 1) schedule)).map (parallelSend env req plan.vlen)

section Turns

variable {env : FsEnv} {req : StartRequest} {plan : ScanPlan} {pattern mask betweenHi : Ptr}

theorem chunkAdvance_pos {toRead : Nat} (h : 0 < toRead) : 0 < chunkAdvance plan toRead := by
  rw [chunkAdvance]
  split_ifs <;> omega

theorem ends_scanLoop (hchunk : 0 < plan.chunkSize) {fuel remaining : Nat}
    (hfuel : remaining ≤ fuel) (addr : Nat) (buf : List UInt8) (sink : Sink) :
    Ends (scanTurn env req plan pattern mask betweenHi) (.running addr remaining buf sink)
      (.ended (scanLoop env req plan pattern mask betweenHi fuel addr remaining buf sink)) := by
  have hended (result : Option (Except Sink Sink)) :
      Ends (scanTurn env req plan pattern mask betweenHi) (.ended result) (.ended result) :=
    ends_of_none rfl
  induction fuel generalizing addr remaining buf sink with
  | zero =>
    obtain rfl : remaining = 0 := by omega
    exact .of_step rfl (hended _)
  | succ fuel ih =>
    by_cases hpos : remaining > 0
    · have hturn := hpos
      rw [scanLoop, if_pos hpos]
      dsimp only
      generalize htoRead : (if remaining > plan.chunkSize then plan.chunkSize else remaining) =
        toRead
      have hadvance : 0 < chunkAdvance plan toRead := by
        refine chunkAdvance_pos ?_
        rw [← htoRead]
        split_ifs <;> omega
      generalize hhits : chunkHits env plan req.compareType pattern mask betweenHi
        (readChunk env addr toRead buf).1 toRead = offs
      cases offs with
      | none =>
        refine .of_step ?_ (hended _)
        simp only [scanTurn, if_pos hpos, htoRead, hhits]
        rfl
      | some offs =>
        simp only [Option.bind_eq_bind, Option.bind_some]
        generalize hput : sink.putAll req plan.vlen addr (readChunk env addr toRead buf).1 offs =
          put
        cases put with
        | error sink' =>
          refine .of_step ?_ (hended _)
          simp only [scanTurn, if_pos hpos, htoRead, hhits, hput]
        | ok sink' =>
          refine .of_step ?_ (ih ?_ _ _ _)
          · simp only [scanTurn, if_pos hpos, htoRead, hhits, hput]
          · split_ifs <;> omega
    · rw [scanLoop, if_neg hpos]
      refine .of_step ?_ (hended _)
      rw [scanTurn, if_neg hpos]

theorem forall₂_ends (hchunk : 0 < plan.chunkSize) (spans : List (Nat × Nat)) (i : Nat) :
    ∃ final, List.Forall₂ (Ends (scanTurn env req plan pattern mask betweenHi))
        (parallelTasks env req plan.vlen spans i) final ∧
      taskResults final = parallelResults env req plan pattern mask betweenHi spans i := by
  induction spans generalizing i with
  | nil => exact ⟨[], .nil, rfl⟩
  | cons span rest ih =>
    obtain ⟨addr, len⟩ := span
    obtain ⟨final, hends, hresults⟩ := ih (i + 1)
    refine ⟨_, .cons (ends_scanLoop hchunk le_rfl _ _ _) hends, ?_⟩
    rw [taskResults, hresults, parallelResults, ScanTask.result, scanRangeStream]

theorem settled_of_taskResults {pool : List ScanTask} {results : List (Except Sink Sink)}
    (h : taskResults pool = some results) :
    Settled (scanTurn env req plan pattern mask betweenHi) pool := by
  induction pool generalizing results with
  | nil => exact fun _ hs => absurd hs not_mem_nil
  | cons task pool ih =>
    rw [taskResults] at h
    obtain ⟨result, hresult, h⟩ := Option.bind_eq_some_iff.mp h
    obtain ⟨others, hothers, -⟩ := Option.bind_eq_some_iff.mp h
    rintro s (_ | ⟨_, hs⟩)
    · cases task with
      | running _ _ _ _ => cases hresult
      | ended _ => rfl
    · exact ih hothers s hs

theorem flashscanParallelTurns_eq (hchunk : 0 < plan.chunkSize) {schedule : List Nat}
    {outcome : Bool × List (List UInt8)}
    (h : flashscanParallelTurns env req plan pattern mask betweenHi schedule = some outcome) :
    flashscanParallelStream env req plan pattern mask betweenHi = some outcome := by
  rw [flashscanParallelTurns] at h
  rw [flashscanParallelStream]
  cases hstart : parallelStart env req plan with
  | none => simpa only [hstart] using h
  | some spans =>
    rw [hstart] at h
    dsimp only at h ⊢
    obtain ⟨results, hresults, rfl⟩ := Option.map_eq_some_iff.mp h
    obtain ⟨final, hends, hfinal⟩ := @forall₂_ends env req { plan with simdOk := true } pattern mask
      betweenHi hchunk spans 1
    rw [← hfinal, ← turns_eq_of_settled hends (settled_of_taskResults hresults)]
    exact h

theorem exists_flashscanParallelTurns (env : FsEnv) (req : StartRequest)
    (hchunk : 0 < plan.chunkSize) (pattern mask betweenHi : Ptr) :
    ∃ schedule, flashscanParallelTurns env req plan pattern mask betweenHi schedule =
      flashscanParallelStream env req plan pattern mask betweenHi := by
  unfold flashscanParallelTurns flashscanParallelStream
  cases parallelStart env req plan with
  | none => exact ⟨[], rfl⟩
  | some spans =>
    obtain ⟨final, hends, hfinal⟩ := @forall₂_ends env req { plan with simdOk := true } pattern mask
      betweenHi hchunk spans 1
    obtain ⟨schedule, hsettled⟩ := exists_settled hends
    refine ⟨schedule, ?_⟩
    dsimp only
    rw [← hfinal, ← turns_eq_of_settled hends hsettled]

end Turns

/-! ## Records -/

def recordOffset (req : StartRequest) (r : ListRecord) : Nat :=
  sub64 (wrap64 (r.addr + 0)) req.address

def Records (req : StartRequest) (p : List UInt8) (records : List ListRecord) (offs : List Nat) :
    Prop :=
  records.map (fun r => (recordOffset req r, r.value)) = offs.map (·, p)

def ListSession.add (s : ListSession) (records : List ListRecord) : ListSession :=
  { s with records := s.records ++ records }

section Records

variable {env : FsEnv} {req : StartRequest} {plan : ScanPlan} {p : List UInt8}

theorem Records.append {records records' : List ListRecord} {offs offs' : List Nat}
    (h : Records req p records offs) (h' : Records req p records' offs') :
    Records req p (records ++ records') (offs ++ offs') := by
  rw [Records, map_append, map_append, h, h']

theorem Records.length {records : List ListRecord} {offs : List Nat}
    (h : Records req p records offs) : records.length = offs.length := by
  simpa using congrArg List.length h

def Stored (req : StartRequest) (p : List UInt8) (s : ListSession) (offs : List Nat)
    (result : Except Sink Sink) : Prop :=
  (∃ records, result = .ok (.session (s.add records)) ∧ Records req p records offs) ∨
    (∃ sink, result = .error sink) ∧ s.bufCap < (s.records.length + offs.length) * s.recSize

theorem stored_putAll {vlen : Nat} (addr : Nat) {src : List UInt8} {coffs : List Nat}
    (s : ListSession)
    (hcoffs : ∀ coff ∈ coffs, (src.drop coff).take vlen = p) :
    Stored req p s (coffs.map fun coff => sub64 (wrap64 (addr + coff)) req.address)
      ((Sink.session s).putAll req vlen addr src coffs) := by
  induction coffs generalizing s with
  | nil => exact .inl ⟨[], by simp [ListSession.add, Sink.putAll, pure, Except.pure], rfl⟩
  | cons coff coffs ih =>
    obtain ⟨hfirst, hrest⟩ := forall_mem_cons.mp hcoffs
    rw [Sink.putAll, foldlM_cons, hfirst, Sink.put]
    split_ifs with hfull
    · refine .inr ⟨⟨_, rfl⟩, hfull.trans_le (Nat.mul_le_mul_right _ ?_)⟩
      simp
    · have hrecord : Records req p [⟨wrap64 (addr + coff), p, [], []⟩]
          [sub64 (wrap64 (addr + coff)) req.address] := by
        simp only [Records, recordOffset, map_cons, map_nil]
        unfold wrap64
        rw [Nat.add_zero, Nat.mod_mod]
      rcases ih (s.add [⟨wrap64 (addr + coff), p, [], []⟩]) hrest with
        ⟨records, hok, hrecords⟩ | ⟨hfail, hcap⟩
      · refine .inl ⟨_ :: records, hok.trans ?_, hrecord.append hrecords⟩
        simp [ListSession.add]
      · refine .inr ⟨hfail, ?_⟩
        simpa [ListSession.add, Nat.add_assoc, Nat.add_comm 1] using hcap

theorem Stored.add {s : ListSession} {records : List ListRecord} {offs offs' : List Nat}
    {result : Except Sink Sink} (h : Records req p records offs)
    (h' : Stored req p (s.add records) offs' result) : Stored req p s (offs ++ offs') result := by
  rcases h' with ⟨records', hok, hrecords⟩ | ⟨hfail, hcap⟩
  · refine .inl ⟨records ++ records', hok.trans ?_, h.append hrecords⟩
    simp [ListSession.add]
  · refine .inr ⟨hfail, ?_⟩
    simpa [ListSession.add, h.length, Nat.add_assoc] using hcap

theorem scanLoop_stored (env : FsEnv) (hvl : 0 < plan.vlen) (hp : p.length = plan.vlen)
    (hchunk : plan.chunkSize ≤ 2 ^ 32) (hexact : req.compareType = 0) (mask : Ptr)
    (fuel addr remaining : Nat) (buf : List UInt8) (s : ListSession) :
    ∃ result, scanLoop env req plan (some p) mask none fuel addr remaining buf (.session s) =
        some result ∧
      Stored req p s (offsetsLoop env req plan p fuel addr remaining buf) result := by
  have hnone (s : ListSession) : Stored req p s [] (.ok (.session s)) :=
    .inl ⟨[], by simp [ListSession.add], rfl⟩
  induction fuel generalizing addr remaining buf s with
  | zero => exact ⟨_, rfl, hnone s⟩
  | succ fuel ih =>
    rw [scanLoop, offsetsLoop]
    by_cases hrem : remaining > 0
    · rw [if_pos hrem, if_pos hrem]
      dsimp only
      generalize htoRead : (if remaining > plan.chunkSize then plan.chunkSize else remaining) =
        toRead
      have hsmall : toRead ≤ 2 ^ 32 := by
        rw [← htoRead]
        split_ifs <;> omega
      rw [hexact, chunkHits_eq hvl hp]
      have hvalue : ∀ coff ∈ chunkOffsets env plan p (readChunk env addr toRead buf).1 toRead,
          ((readChunk env addr toRead buf).1.drop coff).take plan.vlen = p :=
        fun coff hcoff => take_of_mem_chunkOffsets hvl hp hsmall hcoff
      simp only [Option.bind_eq_bind, Option.bind_some]
      rcases stored_putAll addr s hvalue with
        ⟨records, hput, hrecords⟩ | ⟨⟨sink, hput⟩, hcap⟩
      · obtain ⟨result, hloop, hstored⟩ := ih (wrap64 (addr + chunkAdvance plan toRead))
          (if remaining > chunkAdvance plan toRead then remaining - chunkAdvance plan toRead else 0)
          (readChunk env addr toRead buf).2 (s.add records)
        refine ⟨result, ?_, hstored.add hrecords⟩
        rw [hput]
        exact hloop
      · refine ⟨.error sink, by rw [hput], .inr ⟨⟨sink, rfl⟩, hcap.trans_le ?_⟩⟩
        refine Nat.mul_le_mul_right _ ?_
        rw [length_append]
        omega
    · rw [if_neg hrem, if_neg hrem]
      exact ⟨_, rfl, hnone s⟩

theorem Stored.flush {s : ListSession} {offs : List Nat} {result : Except Sink Sink}
    (h : Stored req p s offs result) : Stored req p s offs (result.map Sink.flush) := by
  rcases h with ⟨records, rfl, hrecords⟩ | ⟨⟨sink, rfl⟩, hcap⟩
  · exact .inl ⟨records, rfl, hrecords⟩
  · exact .inr ⟨⟨sink, rfl⟩, hcap⟩

def reported (env : FsEnv) (req : StartRequest) (vlen : Nat) (p : List UInt8)
    (cut : List (Nat × Nat)) : List Nat :=
  cut.flatMap fun c => (finds env req vlen p c).take simdMaxOffsets

theorem parallelResults_stored (env : FsEnv) (hplan : plan.Valid) (hsimd : plan.simdOk = true)
    (hp : p.length = plan.vlen) (hexact : req.compareType = 0) (haddr : req.address < 2 ^ 64)
    (mask : Ptr) {ranges : List (Nat × Nat)} (hranges : ∀ r ∈ ranges, r.1 ≤ r.2 ∧ r.2 < 2 ^ 64)
    (i : Nat) :
    ∃ results, parallelResults env req plan (some p) mask none
        (ranges.map fun r => (wrap64 (req.address + r.1), r.2 - r.1)) i = some results ∧
      List.Forall₂ (fun r result => Stored req p (parallelSession req plan.vlen)
        (reported env req plan.vlen p (cutRange plan.chunkSize r.1 r.2)) result)
          ranges results := by
  have hgt := hplan.chunk_gt
  have hle := hplan.chunk_le
  induction ranges generalizing i with
  | nil => exact ⟨[], rfl, .nil⟩
  | cons r ranges ih =>
    obtain ⟨⟨hr, hstop⟩, hrest⟩ := forall_mem_cons.mp hranges
    obtain ⟨results, hresults, hall⟩ := ih hrest (i + 1)
    obtain ⟨result, hloop, hstored⟩ := scanLoop_stored env hplan.vlen_pos hp (by omega) hexact mask
      (r.2 - r.1) (wrap64 (req.address + r.1)) (r.2 - r.1) (env.fresh i)
      (parallelSession req plan.vlen)
    rw [offsetsLoop_eq hplan hsimd haddr _ hr hstop, chunkCut_fuel (by omega) le_rfl] at hstored
    refine ⟨result.map Sink.flush :: results, ?_, .cons hstored.flush hall⟩
    rw [map_cons, parallelResults, scanRangeStream, hloop, hresults]
    rfl

theorem collectRecords_stored {s : ListSession} (hs : s.records = [])
    {f : Nat × Nat → List Nat} {ranges : List (Nat × Nat)} {results : List (Except Sink Sink)}
    (h : List.Forall₂ (fun r result => Stored req p s (f r) result) ranges results) :
    (∀ records, collectRecords results = some records → Records req p records (ranges.flatMap f)) ∧
      ((∀ r ∈ ranges, (f r).length * s.recSize ≤ s.bufCap) → (collectRecords results).isSome) := by
  induction h with
  | nil =>
    refine ⟨fun records h => ?_, fun _ => rfl⟩
    obtain rfl := Option.some.inj h
    exact rfl
  | @cons r result ranges results hstored _ ih =>
    obtain ⟨hall, hsome⟩ := ih
    rcases hstored with ⟨records, rfl, hrecords⟩ | ⟨⟨sink, rfl⟩, hcap⟩
    · have hcollect : collectRecords (.ok (.session (s.add records)) :: results) =
          (collectRecords results).map (records ++ ·) := by
        rw [collectRecords, ListSession.add, hs]
        rfl
      constructor
      · intro records' h
        rw [hcollect] at h
        obtain ⟨others, hothers, rfl⟩ := Option.map_eq_some_iff.mp h
        exact hrecords.append (hall others hothers)
      · intro hfit
        rw [hcollect, Option.isSome_map]
        exact hsome fun r hr => hfit r (mem_cons_of_mem _ hr)
    · constructor
      · intro _ h
        cases h
      · intro hfit
        have := hfit r mem_cons_self
        rw [hs, length_nil, Nat.zero_add] at hcap
        omega

theorem Holds.putRecords {offs offs' : List Nat} {sink : Sink} (h : Holds p offs sink)
    {records : List ListRecord} (hrecords : Records req p records offs') (vlen : Nat) :
    ∃ sink', records.foldlM (fun sink r => sink.put req vlen r.addr 0 r.value) sink = .ok sink' ∧
      Holds p (offs ++ offs') sink' := by
  induction records generalizing sink offs offs' with
  | nil =>
    obtain rfl : offs' = [] := map_eq_nil_iff.mp hrecords.symm
    exact ⟨sink, rfl, by simpa using h⟩
  | cons r records ih =>
    cases offs' with
    | nil => cases hrecords
    | cons off offs' =>
      obtain ⟨hfirst, hrest⟩ := List.cons.inj hrecords
      obtain ⟨hoff, hvalue⟩ := Prod.mk.inj hfirst
      obtain ⟨sink₁, hput, hsink₁⟩ := h.put req vlen r.addr 0
      obtain ⟨sink₂, hall, hsink₂⟩ := ih hsink₁ hrest
      refine ⟨sink₂, ?_, ?_⟩
      · rw [foldlM_cons, hvalue, hput]
        exact hall
      · rw [← hoff, recordOffset]
        simpa using hsink₂

theorem encodeAll_flatten (p : List UInt8) (groups : List (List Nat)) :
    (groups.map (encodeAll p)).flatten = encodeAll p groups.flatten := by
  induction groups with
  | nil => rfl
  | cons group groups ih =>
    rw [map_cons, flatten_cons, ih, flatten_cons, encodeAll, encodeAll, encodeAll,
      map_append, flatten_append]

theorem length_encodeAll (p : List UInt8) (offs : List Nat) :
    (encodeAll p offs).length = offs.length * (4 + p.length) := by
  induction offs with
  | nil => simp [encodeAll]
  | cons off offs ih =>
    rw [encodeAll, map_cons, flatten_cons, length_append, ← encodeAll, ih,
      length_cons, Nat.succ_mul, encodeRecord, length_append, length_leBytes]
    omega

theorem parallelSend_records {results : List (Except Sink Sink)} {records : List ListRecord}
    {offs : List Nat} (hcollect : collectRecords results = some records)
    (hrecords : Records req p records offs) (halloc : env.alloc .parallelOutput = true)
    (vlen : Nat) :
    ∃ sent, parallelSend env req vlen results = (true, sent) ∧ sent.flatten = encodeAll p offs := by
  obtain ⟨sink, hput, hsink⟩ := (holds_nil p).putRecords hrecords vlen
  obtain ⟨groups, hflush, hgroups⟩ := hsink.flush
  refine ⟨groups.map (encodeAll p), ?_, ?_⟩
  · rw [parallelSend, hcollect]
    dsimp only
    rw [if_neg (by simp [halloc]), hput]
    dsimp only
    rw [hflush]
    rfl
  · rw [encodeAll_flatten, hgroups]
    rfl

theorem scanRangeStream_reported (env : FsEnv) (hplan : plan.Valid) (hsimd : plan.simdOk = true)
    (hp : p.length = plan.vlen) (hexact : req.compareType = 0) (haddr : req.address < 2 ^ 64)
    (hlength : req.length < 2 ^ 64) (mask : Ptr) (buf : List UInt8) :
    ∃ packets, scanRangeStream env req plan (some p) mask none req.address req.length buf
        (.stream [] []) = some (.ok (.stream packets [])) ∧
      packets.flatten =
        encodeAll p (reported env req plan.vlen p (cutRange plan.chunkSize 0 req.length)) := by
  have hle := hplan.chunk_le
  have hgt := hplan.chunk_gt
  obtain ⟨sink, hloop, hsink⟩ := scanLoop_holds env hplan.vlen_pos hp (by omega) hexact mask
    req.length req.address req.length buf (holds_nil p)
  obtain ⟨groups, hflush, hgroups⟩ := hsink.flush
  have hoffs := @offsetsLoop_eq env req plan p hplan hsimd haddr req.length 0 req.length buf
    (Nat.zero_le _) hlength
  rw [Nat.add_zero, wrap64_of_lt haddr, Nat.sub_zero, chunkCut_fuel (by omega) (Nat.sub_le _ _)]
    at hoffs
  refine ⟨groups.map (encodeAll p), ?_, ?_⟩
  · rw [scanRangeStream, hloop, Option.map_some, ← hflush]
    rfl
  · rw [encodeAll_flatten, hgroups, hoffs]
    rfl

end Records

end MemDbg.FlashScan
