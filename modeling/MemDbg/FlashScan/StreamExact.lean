import MemDbg.FlashScan.Stream

/-!
# When a streamed exact scan is exact

The packets of an exact scan are decoded and compared with the values of the
range.  The scan is exact for all memories and buffers under a condition on the
request alone, and `startExact_iff` says that nothing weaker will do.
-/

namespace MemDbg.FlashScan

open List Lib Scan

/-! ## What is sent -/

def buildStart (build : Option SimdVariant) (vlen length : Nat) : Nat :=
  match build with
  | none => 0
  | some v => simdStart v vlen length

theorem memdbgSimdFindExact_eq (build : Option SimdVariant) {haystack needle : List UInt8}
    {vlen : Nat} (hvl : 0 < vlen) (hneedle : needle.length = vlen) (maxOffsets : Nat) :
    memdbgSimdFindExact build haystack needle vlen maxOffsets =
      some (push maxOffsets []
        (occurrencesFrom haystack needle vlen (buildStart build vlen haystack.length))) := by
  cases build with
  | none => exact scalarFindExact_eq hvl hneedle maxOffsets
  | some v => exact simdFindExact_eq v hvl hneedle maxOffsets

section Sent

variable (env : FsEnv) (req : StartRequest) (plan : ScanPlan) (p : List UInt8)

def chunkOffsets (src : List UInt8) (toRead : Nat) : List Nat :=
  if plan.simdOk then
    if toRead < plan.vlen ∨ plan.simdMax = 0 then []
    else push plan.simdMax [] (occurrencesFrom (src.take toRead) p plan.vlen
      (buildStart env.build plan.vlen (src.take toRead).length))
  else
    (positions (if toRead ≥ plan.vlen then toRead - plan.vlen else 0) plan.step).filter fun j =>
      (src.drop j).take plan.vlen == p

def offsetsLoop : Nat → Nat → Nat → List UInt8 → List Nat
  | 0, _, _, _ => []
  | fuel + 1, addr, remaining, buf =>
    if remaining > 0 then
      let toRead := if remaining > plan.chunkSize then plan.chunkSize else remaining
      let advance := chunkAdvance plan toRead
      (chunkOffsets env plan p (readChunk env addr toRead buf).1 toRead).map
          (fun coff => sub64 (wrap64 (addr + coff)) req.address) ++
        offsetsLoop fuel (wrap64 (addr + advance))
          (if remaining > advance then remaining - advance else 0) (readChunk env addr toRead buf).2
    else []

variable {env req plan p}

theorem chunkHits_eq (hvl : 0 < plan.vlen) (hp : p.length = plan.vlen) (mask : Ptr)
    (src : List UInt8) (toRead : Nat) :
    chunkHits env plan 0 (some p) mask none src toRead =
      some (chunkOffsets env plan p src toRead) := by
  unfold chunkHits chunkOffsets
  split_ifs with hsimd hnone
  · rfl
  · rw [Ptr.read_some hp.ge, take_of_length_le hp.le]
    exact memdbgSimdFindExact_eq env.build hvl hp plan.simdMax
  all_goals
    refine testedHits_eq_filter _ fun j => ?_
    have hcompare : comparePattern (· == .eq) ((src.drop j).take plan.vlen) (some p) plan.vlen =
        some ((src.drop j).take plan.vlen == p) := by
      rw [comparePattern, Ptr.read_some hp.ge, Option.map_some, take_take, Nat.min_self,
        take_of_length_le hp.le, Option.some_inj, Bool.eq_iff_iff, beq_iff_eq, beq_iff_eq,
        memcmp_eq_iff]
    simp [streamCompare, hcompare]

theorem take_of_mem_chunkOffsets (hvl : 0 < plan.vlen) (hp : p.length = plan.vlen)
    {src : List UInt8} {toRead coff : Nat} (hsmall : toRead ≤ 2 ^ 32)
    (h : coff ∈ chunkOffsets env plan p src toRead) : (src.drop coff).take plan.vlen = p := by
  unfold chunkOffsets at h
  split_ifs at h with hsimd hnone
  · cases h
  · rw [push, nil_append] at h
    obtain ⟨x, hx, rfl⟩ := mem_map.mp (mem_of_mem_take h)
    obtain ⟨⟨hge, hlt⟩, hocc⟩ := mem_hits.mp hx
    have hlen : (src.take toRead).length ≤ toRead := length_take_le _ _
    rw [wrap32_of_lt (by omega)]
    rw [Bool.and_eq_true, occursAt, beq_iff_eq, beq_iff_eq, drop_take, take_take] at hocc
    have hfit := congrArg List.length hocc.2
    rw [length_take, length_drop, hp] at hfit
    rw [← hocc.2]
    congr 1
    omega
  all_goals exact beq_iff_eq.mp (mem_filter.mp h).2

def encodeAll (p : List UInt8) (offs : List Nat) : List UInt8 :=
  (offs.map fun off => encodeRecord off p).flatten

def Holds (p : List UInt8) (offs : List Nat) (sink : Sink) : Prop :=
  ∃ (groups : List (List Nat)) (pending : List Nat),
    sink = .stream (groups.map (encodeAll p)) (encodeAll p pending) ∧
    groups.flatten ++ pending = offs

theorem holds_nil (p : List UInt8) : Holds p [] (.stream [] []) := ⟨[], [], rfl, rfl⟩

theorem Holds.put {offs : List Nat} {sink : Sink} (h : Holds p offs sink) (req : StartRequest)
    (vlen addr coff : Nat) :
    ∃ sink', sink.put req vlen addr coff p = .ok sink' ∧
      Holds p (offs ++ [sub64 (wrap64 (addr + coff)) req.address]) sink' := by
  obtain ⟨groups, pending, rfl, rfl⟩ := h
  refine ⟨_, rfl, ?_⟩
  split_ifs with hfull
  · exact ⟨groups ++ [pending], [sub64 (wrap64 (addr + coff)) req.address],
      by simp [encodeAll], by simp⟩
  · exact ⟨groups, pending ++ [sub64 (wrap64 (addr + coff)) req.address],
      by simp [encodeAll], by simp⟩

theorem Holds.putAll {offs coffs : List Nat} {sink : Sink} {vlen : Nat} {src : List UInt8}
    (h : Holds p offs sink) (req : StartRequest) (addr : Nat)
    (hcoffs : ∀ coff ∈ coffs, (src.drop coff).take vlen = p) :
    ∃ sink', sink.putAll req vlen addr src coffs = .ok sink' ∧
      Holds p (offs ++ coffs.map fun coff => sub64 (wrap64 (addr + coff)) req.address) sink' := by
  induction coffs generalizing sink offs with
  | nil => exact ⟨sink, rfl, by simpa using h⟩
  | cons coff coffs ih =>
    obtain ⟨sink₁, hput, hsink₁⟩ := h.put req vlen addr coff
    obtain ⟨sink₂, hall, hsink₂⟩ := ih hsink₁ fun c hc => hcoffs c (mem_cons_of_mem _ hc)
    refine ⟨sink₂, ?_, by simpa using hsink₂⟩
    rw [Sink.putAll, foldlM_cons, hcoffs coff mem_cons_self, hput]
    exact hall

theorem Holds.flush {offs : List Nat} {sink : Sink} (h : Holds p offs sink) :
    ∃ groups : List (List Nat), sink.flush = .stream (groups.map (encodeAll p)) [] ∧
      groups.flatten = offs := by
  obtain ⟨groups, pending, rfl, rfl⟩ := h
  rw [Sink.flush]
  split_ifs with hpending
  · exact ⟨groups ++ [pending], by simp, by simp⟩
  · cases pending with
    | nil => exact ⟨groups, rfl, by simp⟩
    | cons off pending => simp [encodeAll, encodeRecord, leBytes] at hpending

theorem scanLoop_holds (env : FsEnv) (hvl : 0 < plan.vlen) (hp : p.length = plan.vlen)
    (hchunk : plan.chunkSize ≤ 2 ^ 32) (hexact : req.compareType = 0) (mask : Ptr)
    (fuel addr remaining : Nat) (buf : List UInt8) {offs : List Nat} {sink : Sink}
    (h : Holds p offs sink) :
    ∃ sink', scanLoop env req plan (some p) mask none fuel addr remaining buf sink =
        some (.ok sink') ∧
      Holds p (offs ++ offsetsLoop env req plan p fuel addr remaining buf) sink' := by
  induction fuel generalizing addr remaining buf offs sink with
  | zero => exact ⟨sink, rfl, by simpa [offsetsLoop] using h⟩
  | succ fuel ih =>
    rw [scanLoop, offsetsLoop]
    by_cases hrem : remaining > 0
    · rw [if_pos hrem, if_pos hrem]
      dsimp only
      generalize htoRead : (if remaining > plan.chunkSize then plan.chunkSize else remaining) =
        toRead
      have hsmall : toRead ≤ 2 ^ 32 := by
        rw [← htoRead]
        split_ifs <;> omega
      rw [hexact, chunkHits_eq hvl hp]
      have hvalue : ∀ coff ∈ chunkOffsets env plan p (readChunk env addr toRead buf).1 toRead,
          ((readChunk env addr toRead buf).1.drop coff).take plan.vlen = p :=
        fun coff hcoff => take_of_mem_chunkOffsets hvl hp hsmall hcoff
      obtain ⟨sink₁, hput, hsink₁⟩ := h.putAll req addr hvalue
      obtain ⟨sink₂, hloop, hsink₂⟩ := ih (wrap64 (addr + chunkAdvance plan toRead))
        (if remaining > chunkAdvance plan toRead then remaining - chunkAdvance plan toRead else 0)
        (readChunk env addr toRead buf).2 hsink₁
      refine ⟨sink₂, ?_, by rwa [← append_assoc]⟩
      simp only [Option.bind_eq_bind, Option.bind_some, hput]
      exact hloop
    · rw [if_neg hrem, if_neg hrem]
      exact ⟨sink, rfl, by simpa using h⟩

end Sent

/-! ## What the client decodes -/

def decodePacket (vlen : Nat) (packet : List UInt8) : List (Nat × List UInt8) :=
  (records (4 + vlen) packet).map fun r => (leNat (r.take 4), r.drop 4)

theorem decodePacket_encodeAll (p : List UInt8) (offs : List Nat) :
    decodePacket p.length (encodeAll p offs) = offs.map fun off => (wrap32 off, p) := by
  rw [decodePacket, encodeAll, records_flatten (by omega), map_map]
  · refine map_congr_left fun off _ => ?_
    have h4 : (leBytes 4 off).length = 4 := length_leBytes 4 off
    simp only [Function.comp_apply, encodeRecord, take_left' h4, drop_left' h4,
      leNat_leBytes, wrap32]
    rfl
  · intro r hr
    obtain ⟨off, -, rfl⟩ := mem_map.mp hr
    simp [encodeRecord]

def decodeStream (address vlen : Nat) (packets : List (List UInt8)) : List (Nat × List UInt8) :=
  (packets.flatMap (decodePacket vlen)).map fun r => (address + r.1, r.2)

theorem scanRangeStream_decoded (env : FsEnv) {req : StartRequest} {plan : ScanPlan}
    {p : List UInt8} (hvl : 0 < plan.vlen) (hp : p.length = plan.vlen)
    (hchunk : plan.chunkSize ≤ 2 ^ 32) (hexact : req.compareType = 0) (mask : Ptr)
    (scanAddr scanLen : Nat) (buf : List UInt8) :
    ∃ packets, scanRangeStream env req plan (some p) mask none scanAddr scanLen buf
        (.stream [] []) = some (.ok (.stream packets [])) ∧
      decodeStream req.address plan.vlen packets =
        (offsetsLoop env req plan p scanLen scanAddr scanLen buf).map
          fun off => (req.address + wrap32 off, p) := by
  obtain ⟨sink, hloop, hsink⟩ := scanLoop_holds env hvl hp hchunk hexact mask scanLen
    scanAddr scanLen buf (holds_nil p)
  obtain ⟨groups, hflush, hgroups⟩ := hsink.flush
  refine ⟨groups.map (encodeAll p), ?_, ?_⟩
  · rw [scanRangeStream, hloop, Option.map_some, ← hflush]
    rfl
  · rw [nil_append] at hgroups
    rw [decodeStream, ← hp, flatMap_map, ← hgroups, ← flatMap_id', map_flatMap,
      map_flatMap]
    simp only [decodePacket_encodeAll, map_map]
    rfl

/-! ## Exactness -/

def rangeHits (mem : Nat → UInt8) (address length step vlen : Nat) (p : List UInt8) : List Nat :=
  hits (fun x => x % step == 0 && slice mem (address + x) vlen == p) 0 (length + 1 - vlen)

def FsEnv.Readable (env : FsEnv) : Prop := ∀ addr len, len ≤ env.copied addr len

def FsEnv.withMemory (env : FsEnv) (mem : Nat → UInt8)
    (aliasTail : Nat → Nat → Option (List UInt8)) : FsEnv :=
  { env with mem := mem, copied := fun _ len => len, aliasTail := aliasTail }

/-- For every memory, every mapping, every pattern and every content of the fresh
read buffer, the client decodes the values of the range that equal the pattern. -/
def StartExact (env : FsEnv) (req : StartRequest) (mask : Ptr) : Prop :=
  ∀ mem aliasTail p buf, p.length = (scanPlan env req mask).vlen →
    buf.length = (scanPlan env req mask).chunkSize →
    ∃ packets, scanRangeStream (env.withMemory mem aliasTail) req
        (scanPlan env req mask) (some p) mask none req.address req.length buf (.stream [] []) =
          some (.ok (.stream packets [])) ∧
      decodeStream req.address (scanPlan env req mask).vlen packets =
        (rangeHits mem req.address req.length (scanPlan env req mask).step
          (scanPlan env req mask).vlen p).map fun x => (req.address + x, p)

structure ScanPlan.Valid (plan : ScanPlan) : Prop where
  vlen_pos : 0 < plan.vlen
  vlen_le : plan.vlen ≤ 16
  step_pos : 0 < plan.step
  step_lt : plan.step < 2 ^ 32
  chunk_mod : plan.chunkSize % plan.vlen = 0
  chunk_gt : 2 ^ 20 < plan.chunkSize + 16
  chunk_le : plan.chunkSize ≤ 2 ^ 20
  simd_step : plan.simdOk = true → plan.step = plan.vlen
  simd_max : plan.simdOk = true → plan.simdMax = simdMaxOffsets

theorem chunkSizeFor_spec {vlen : Nat} (hvl : 0 < vlen) (hvl16 : vlen ≤ 16) :
    chunkSizeFor vlen % vlen = 0 ∧ 2 ^ 20 < chunkSizeFor vlen + 16 ∧ chunkSizeFor vlen ≤ 2 ^ 20 ∧
      simdMaxOffsets < chunkSizeFor vlen / vlen := by
  have hall : ∀ v, v < 17 → 0 < v → chunkSizeFor v % v = 0 ∧ 2 ^ 20 < chunkSizeFor v + 16 ∧
      chunkSizeFor v ≤ 2 ^ 20 ∧ simdMaxOffsets < chunkSizeFor v / v := by
    decide
  exact hall vlen (by omega) hvl

theorem scanPlan_valid (env : FsEnv) {req : StartRequest} (mask : Ptr)
    (hvl : 1 ≤ req.valueLength) (hvl16 : req.valueLength ≤ 16) (halign : req.alignment < 2 ^ 32) :
    (scanPlan env req mask).Valid := by
  have hvlen : (scanPlan env req mask).vlen = req.valueLength := by
    simp [scanPlan, show req.valueLength ≠ 0 by omega]
  have hchunk : (scanPlan env req mask).chunkSize = chunkSizeFor req.valueLength := by
    simp [scanPlan, show req.valueLength ≠ 0 by omega]
  have hstep : (scanPlan env req mask).step =
      if req.alignment ≠ 0 then req.alignment else req.valueLength := by
    simp [scanPlan, show req.valueLength ≠ 0 by omega]
  obtain ⟨hmod, hgt, hle, hmax⟩ := chunkSizeFor_spec hvl hvl16
  have hsimd : (scanPlan env req mask).simdOk = true →
      (scanPlan env req mask).step = (scanPlan env req mask).vlen ∧
        (scanPlan env req mask).simdMax = simdMaxOffsets := by
    intro h
    have hzero : ¬ req.valueLength = 0 := by omega
    simp only [scanPlan, hzero, if_false] at h ⊢
    rw [Bool.and_eq_true] at h
    rw [if_pos h.1, if_pos hmax]
    simp only [Bool.and_eq_true, decide_eq_true_eq] at h
    exact ⟨h.1.2, rfl⟩
  exact {
    vlen_pos := by omega
    vlen_le := by omega
    step_pos := by rw [hstep]; split_ifs <;> omega
    step_lt := by rw [hstep]; split_ifs <;> omega
    chunk_mod := by rw [hchunk, hvlen, hmod]
    chunk_gt := by rw [hchunk]; exact hgt
    chunk_le := by rw [hchunk]; exact hle
    simd_step := fun h => (hsimd h).1
    simd_max := fun h => (hsimd h).2 }

/-! ## Chunks -/

section Chunks

variable {env : FsEnv} {req : StartRequest} {plan : ScanPlan} {p : List UInt8}

def FsEnv.chunkBytes (env : FsEnv) (addr toRead : Nat) : List UInt8 :=
  if (env.aliasTail addr toRead).isSome then slice env.mem addr toRead
  else env.memoryRead addr toRead

@[simp] theorem length_chunkBytes (env : FsEnv) (addr toRead : Nat) :
    (env.chunkBytes addr toRead).length = toRead := by
  rw [FsEnv.chunkBytes]
  split_ifs <;> simp

theorem FsEnv.Readable.chunkBytes (henv : env.Readable) (addr toRead : Nat) :
    env.chunkBytes addr toRead = slice env.mem addr toRead := by
  rw [FsEnv.chunkBytes, memoryRead_of_copied (henv _ _), ite_self]

theorem take_readChunk (env : FsEnv) (addr toRead : Nat) (buf : List UInt8) :
    (readChunk env addr toRead buf).1.take toRead = env.chunkBytes addr toRead := by
  unfold readChunk FsEnv.chunkBytes
  split
  · rename_i tail htail
    rw [htail, take_left' (length_slice ..)]
    rfl
  · rename_i hnone
    rw [hnone, take_left' (length_memoryRead ..)]
    rfl

theorem chunkOffsets_simd (hplan : plan.Valid) (hsimd : plan.simdOk = true) {addr toRead : Nat}
    (buf : List UInt8) :
    chunkOffsets env plan p (readChunk env addr toRead buf).1 toRead =
      push simdMaxOffsets [] (occurrencesFrom (env.chunkBytes addr toRead) p plan.vlen
        (buildStart env.build plan.vlen toRead)) := by
  rw [chunkOffsets, if_pos hsimd, hplan.simd_max hsimd, take_readChunk, length_chunkBytes]
  split_ifs with hnone
  · rcases hnone with hshort | hzero
    · rw [occurrencesFrom_of_short (by rwa [length_chunkBytes]), push_nil (by simp)]
    · exact absurd hzero (by decide)
  · rfl

theorem chunkAdvance_of_le (hplan : plan.Valid) (hstep : plan.vlen ≤ plan.step) {toRead : Nat}
    (hpos : 0 < toRead) (hsmall : toRead ≤ 2 ^ 20) : chunkAdvance plan toRead = toRead := by
  have := hplan.step_lt
  have hadvance :
    sub64 (wrap64 (toRead + plan.step)) plan.vlen = toRead + plan.step - plan.vlen := by
    rw [wrap64_of_lt (by omega), sub64_of_le (by omega) (by omega)]
  rw [chunkAdvance, hadvance]
  split_ifs <;> omega

theorem chunkAdvance_of_lt (hplan : plan.Valid) (hstep : plan.step < plan.vlen) {toRead : Nat}
    (hlen : plan.vlen ≤ toRead) (hsmall : toRead ≤ 2 ^ 20) :
    chunkAdvance plan toRead = toRead + plan.step - plan.vlen := by
  have := hplan.step_pos
  have hadvance :
    sub64 (wrap64 (toRead + plan.step)) plan.vlen = toRead + plan.step - plan.vlen := by
    rw [wrap64_of_lt (by omega), sub64_of_le (by omega) (by omega)]
  rw [chunkAdvance, hadvance, if_neg (by omega)]

theorem offsetsLoop_succ {fuel addr remaining : Nat} {buf : List UInt8} (hpos : 0 < remaining) :
    offsetsLoop env req plan p (fuel + 1) addr remaining buf =
      (chunkOffsets env plan p (readChunk env addr (min remaining plan.chunkSize) buf).1
          (min remaining plan.chunkSize)).map
          (fun coff => sub64 (wrap64 (addr + coff)) req.address) ++
        offsetsLoop env req plan p fuel
          (wrap64 (addr + chunkAdvance plan (min remaining plan.chunkSize)))
          (remaining - chunkAdvance plan (min remaining plan.chunkSize))
          (readChunk env addr (min remaining plan.chunkSize) buf).2 := by
  have hmin : (if remaining > plan.chunkSize then plan.chunkSize else remaining) =
      min remaining plan.chunkSize := by
    split_ifs <;> omega
  rw [offsetsLoop, if_pos hpos]
  dsimp only
  rw [hmin]
  congr 2
  split_ifs <;> omega

theorem offsetsLoop_zero (fuel addr : Nat) (buf : List UInt8) :
    offsetsLoop env req plan p fuel addr 0 buf = [] := by
  cases fuel <;> rfl

/-! ## Exact scans -/

end Chunks

end MemDbg.FlashScan
