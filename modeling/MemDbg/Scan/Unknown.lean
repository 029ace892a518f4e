import MemDbg.Scan.Api

/-!
# The unknown-value scan

`memdbg_scan_unknown` lists every aligned candidate of the maps, under a byte
budget and a result limit.  Three things can stop it early: the budget ends inside a
map, the budget that is left is too small for a value, the result is full.  Each of
them sets `truncated`, and without it nothing was left out (`scanUnknown_complete`).

A run that returns `MEMDBG_OK` is also a run over a heap that never fails
(`Env.freeHeap`); that is where the lemmas about the builder apply.
-/

namespace MemDbg.Scan

open List Lib

/-! ## Runs over a heap that never fails -/

def Env.freeHeap (env : Env) : Env := { env with alloc := fun _ => true }

section FreeHeap

variable {env : Env} {b b' : ScanBuilder}

theorem scanBuilderAppend_freeHeap {address : Nat}
    (h : scanBuilderAppend env b address = (.ok, b')) :
    scanBuilderAppend env.freeHeap b address = (.ok, b') := by
  unfold scanBuilderAppend at h ⊢
  by_cases hfull : b.noteFound.result.count ≥ b.noteFound.maxResults
  · simpa only [hfull, if_true] using h
  · have halloc : env.freeHeap.alloc (.grow (nextCapacity b.noteFound)) = true := rfl
    simp only [hfull, if_false, halloc, if_true] at h ⊢
    split_ifs at h ⊢
    · exact h
    · exact h
    · exact absurd (congrArg Prod.fst h) Status.noConfusion
    · exact h

theorem ok_of_andThen {r : Status × ScanBuilder} {k : ScanBuilder → Status × ScanBuilder}
    (h : (match r with | (.ok, b) => k b | r => r) = (.ok, b')) :
    ∃ b₁, r = (.ok, b₁) ∧ k b₁ = (.ok, b') := by
  obtain ⟨st, b₁⟩ := r
  cases st with
  | ok => exact ⟨b₁, rfl, h⟩
  | _ => exact absurd (congrArg Prod.fst h) Status.noConfusion

theorem unknownLoop_freeHeap {uc : UnknownScanContext} {buffer : List UInt8}
    {baseAddr rangeEnd fuel pos : Nat}
    (h : unknownLoop env uc buffer baseAddr rangeEnd fuel pos b = (.ok, b')) :
    unknownLoop env.freeHeap uc buffer baseAddr rangeEnd fuel pos b = (.ok, b') := by
  induction fuel generalizing pos b with
  | zero => exact h
  | succ fuel ih =>
    rw [unknownLoop] at h ⊢
    split at h
    · rename_i hpos
      rw [if_pos hpos]
      dsimp only at h ⊢
      split at h
      · rename_i hend
        rwa [if_pos hend]
      · rename_i hend
        rw [if_neg hend]
        obtain ⟨b₁, happend, hrest⟩ := ok_of_andThen h
        have happend' : (if unknownValueIsCandidate (buffer.drop pos) uc.valueLen uc.flags then
            scanBuilderAppend env.freeHeap b (baseAddr + pos) else (.ok, b)) = (.ok, b₁) := by
          split_ifs at happend ⊢
          · exact scanBuilderAppend_freeHeap happend
          · exact happend
        simp only [happend']
        split_ifs at hrest ⊢
        · exact hrest
        · exact ih hrest
    · rename_i hpos
      rwa [if_neg hpos]

theorem resilientAttempts_freeHeap (pid : Int) (address fuel attempt : Nat) (b : ScanBuilder) :
    resilientAttempts env.freeHeap pid address fuel attempt b =
      resilientAttempts env pid address fuel attempt b := by
  induction fuel generalizing attempt b with
  | zero => rfl
  | succ fuel ih =>
    have hread : memoryRead env.freeHeap pid b.now address attempt =
        memoryRead env pid b.now address attempt := rfl
    rw [resilientAttempts, resilientAttempts, hread]
    simp only [ih]

theorem scanMemoryReadResilient_freeHeap :
    scanMemoryReadResilient env.freeHeap = scanMemoryReadResilient env := by
  funext pid address requested b
  rw [scanMemoryReadResilient, scanMemoryReadResilient, resilientAttempts_freeHeap]

theorem chunkLoop_freeHeap {c : ChunkScan}
    {window' : ScanBuilder → List UInt8 → Nat → Status × ScanBuilder}
    (hwindow : ∀ {b bytes base b'}, c.window b bytes base = (.ok, b') →
      window' b bytes base = (.ok, b')) {start length fuel scanned : Nat} {carry : List UInt8}
    (h : chunkLoop env c start length fuel scanned carry b = (.ok, b')) :
    chunkLoop env.freeHeap { c with window := window' } start length fuel scanned carry b =
      (.ok, b') := by
  induction fuel generalizing scanned carry b with
  | zero => exact h
  | succ fuel ih =>
    rw [chunkLoop] at h ⊢
    rw [scanMemoryReadResilient_freeHeap]
    split at h
    · rename_i hlt
      rw [if_pos hlt]
      split at h
      · rename_i hcancel
        exact (if_pos hcancel).trans h
      · rename_i hcancel
        refine (if_neg hcancel).trans ?_
        dsimp only at h ⊢
        cases hread : scanMemoryReadResilient env c.pid (start + scanned)
            (scanReadSize (length - scanned) c.chunk) b.tick with
        | mk b₁ outcome =>
          rw [hread] at h
          cases outcome with
          | failed st =>
            split_ifs at h ⊢
            · exact ih h
            · exact h
          | done bytes =>
            dsimp only at h ⊢
            split_ifs at h ⊢
            · exact h
            · obtain ⟨b₂, hfound, hrest⟩ := ok_of_andThen h
              rw [hwindow hfound]
              exact ih hrest
    · rename_i hlt
      rwa [if_neg hlt]

theorem scanUnknownRange_freeHeap {uc : UnknownScanContext} {pid : Int}
    {start len alignmentBase : Nat}
    (h : scanUnknownRange env uc pid start len alignmentBase b = (.ok, b')) :
    scanUnknownRange env.freeHeap uc pid start len alignmentBase b = (.ok, b') := by
  rw [scanUnknownRange] at h ⊢
  split_ifs at h ⊢
  · exact h
  · refine chunkLoop_freeHeap (c := unknownChunkScan env uc pid start (start + len) alignmentBase)
      (fun {b bytes base b'} hfound => ?_) h
    dsimp only [unknownChunkScan] at hfound ⊢
    split_ifs at hfound ⊢
    · exact hfound
    · exact unknownLoop_freeHeap hfound

theorem unknownMapLoop_freeHeap {uc : UnknownScanContext} {request : UnknownRequest}
    {maps : List MapEntry} {budget : Nat}
    (h : unknownMapLoop env uc request maps budget b = (.ok, b')) :
    unknownMapLoop env.freeHeap uc request maps budget b = (.ok, b') := by
  induction maps generalizing budget b with
  | nil => exact h
  | cons map maps ih =>
    rw [unknownMapLoop] at h ⊢
    split at h
    · exact ih h
    · rename_i scanStart mapLen _
      dsimp only at h ⊢
      generalize (if mapLen < budget then mapLen else budget) = unitLen at h ⊢
      split at h
      · rename_i hsmall
        rwa [if_pos hsmall]
      · rename_i hsmall
        rw [if_neg hsmall]
        obtain ⟨b₁, hrange, hrest⟩ := ok_of_andThen h
        rw [scanUnknownRange_freeHeap hrange]
        by_cases hdone : budget - unitLen = 0
        · rw [if_pos hdone] at hrest
          exact (if_pos hdone).trans hrest
        · rw [if_neg hdone] at hrest
          exact (if_neg hdone).trans (ih hrest)

end FreeHeap

/-! ## One range -/

def unknownHit (mem : Nat → UInt8) (uc : UnknownScanContext) (alignmentBase a : Nat) : Bool :=
  (a - alignmentBase) % uc.alignment == 0 &&
    unknownValueIsCandidate (slice mem a uc.valueLen) uc.valueLen uc.flags

section Range

variable {env : Env} {uc : UnknownScanContext} {mem : Nat → UInt8} {alignmentBase : Nat}

theorem unknownHit_aligned {a : Nat} (h : unknownHit mem uc alignmentBase a = true) :
    (a - alignmentBase) % uc.alignment = 0 := by
  rw [unknownHit, Bool.and_eq_true, beq_iff_eq] at h
  exact h.1

theorem unknownValueIsCandidate_slice {a n : Nat} (hn : uc.valueLen ≤ n) :
    unknownValueIsCandidate (slice mem a n) uc.valueLen uc.flags =
      unknownValueIsCandidate (slice mem a uc.valueLen) uc.valueLen uc.flags := by
  rw [unknownValueIsCandidate, unknownValueIsCandidate, take_slice mem hn,
    take_slice mem (Nat.le_refl _)]

theorem unknownValueIsCandidate_iff {a n flags : Nat} :
    unknownValueIsCandidate (slice mem a n) n flags = true ↔
      (flags &&& scanUnknownFlagNonzero ≠ 0 → ∃ i < n, mem (a + i) ≠ 0) := by
  rw [unknownValueIsCandidate, take_slice mem (Nat.le_refl n)]
  split_ifs with hflag
  · exact iff_of_true rfl fun h => absurd hflag h
  · rw [any_eq_true]
    constructor
    · rintro ⟨x, hx, hne⟩ -
      obtain ⟨j, hj, rfl⟩ := mem_map.mp hx
      rw [mem_range'_1] at hj
      exact ⟨j - a, by omega, by simpa [Nat.add_sub_cancel' hj.1] using hne⟩
    · intro h
      obtain ⟨i, hi, hne⟩ := h hflag
      refine ⟨mem (a + i), mem_map.mpr ⟨a + i, ?_, rfl⟩, by simpa using hne⟩
      rw [mem_range'_1]
      omega

theorem unknownLoop_grew {base n rangeEnd : Nat} (hlen : 0 < uc.valueLen) (hal : 0 < uc.alignment)
    (hbase : alignmentBase ≤ base) (hend : base + n ≤ rangeEnd) (hrange : rangeEnd < 2 ^ 64)
    {fuel pos : Nat} (hfuel : n < pos + fuel)
    (hpos : (base + pos - alignmentBase) % uc.alignment = 0) {b : ScanBuilder} (hb : b.Ready env) :
    ∃ b', unknownLoop env uc (slice mem base n) base rangeEnd fuel pos b = (.ok, b') ∧
      Grew b (hits (unknownHit mem uc alignmentBase) (base + pos) (n + 1 - uc.valueLen - pos))
        b' := by
  induction fuel generalizing pos b with
  | zero =>
    refine ⟨b, rfl, ?_⟩
    rw [show n + 1 - uc.valueLen - pos = 0 by omega]
    exact .refl hb.toValid
  | succ fuel ih =>
    rw [unknownLoop, length_slice]
    by_cases hin : pos ≤ n ∧ uc.valueLen ≤ n - pos
    · rw [if_pos hin]
      rw [if_neg (by omega), drop_slice, unknownValueIsCandidate_slice hin.2,
        hits_stride hal unknownHit_aligned (by omega) hpos (by omega)]
      have hnext : (base + (pos + uc.alignment) - alignmentBase) % uc.alignment = 0 := by
        rw [show base + (pos + uc.alignment) - alignmentBase =
          base + pos - alignmentBase + uc.alignment by omega, Nat.add_mod_right]
        exact hpos
      have hhit : unknownHit mem uc alignmentBase (base + pos) =
          unknownValueIsCandidate (slice mem (base + pos) uc.valueLen) uc.valueLen uc.flags := by
        rw [unknownHit, hpos, beq_self_eq_true, Bool.true_and]
      -- the value at this position
      obtain ⟨b₁, happend, hgrew⟩ : ∃ b₁,
          (if unknownValueIsCandidate (slice mem (base + pos) uc.valueLen) uc.valueLen
              uc.flags = true then scanBuilderAppend env b (base + pos) else (.ok, b)) =
            (.ok, b₁) ∧
          Grew b (if unknownHit mem uc alignmentBase (base + pos) then [base + pos] else [])
            b₁ := by
        rw [hhit]
        split_ifs
        · exact scanBuilderAppend_grew hb (base + pos)
        · exact ⟨b, rfl, .refl hb.toValid⟩
      simp only [happend]
      -- the positions behind it
      by_cases hlast : 2 ^ 64 - 1 - pos < uc.alignment
      · refine ⟨b₁, if_pos hlast, ?_⟩
        rw [show n + 1 - uc.valueLen - pos - uc.alignment = 0 by omega, hits_zero,
          append_nil]
        exact hgrew
      · obtain ⟨b₂, hrun, hgrew₂⟩ := ih (by omega) hnext (hgrew.ready hb)
        refine ⟨b₂, (if_neg hlast).trans hrun, hgrew.trans ?_⟩
        rwa [Nat.add_assoc, Nat.sub_sub]
    · rw [if_neg hin]
      refine ⟨b, rfl, ?_⟩
      rw [show n + 1 - uc.valueLen - pos = 0 by omega]
      exact .refl hb.toValid

theorem exactWindow_unknown {pid : Int} {start len : Nat} (hlen : 0 < uc.valueLen)
    (hal : 0 < uc.alignment) (hal' : uc.alignment < 2 ^ 32) (hbase : alignmentBase ≤ start)
    (hend : start + len < 2 ^ 64) :
    ExactWindow env (unknownChunkScan env uc pid start (start + len) alignmentBase) mem
      (unknownHit mem uc alignmentBase) start len uc.valueLen := by
  intro b base n hb hlo hhi hn _
  obtain ⟨hlt, hzero, hskip⟩ := firstAlignedOffset_spec hal hal' hlo
    (Nat.le_trans hbase hlo) (by omega)
  dsimp only [unknownChunkScan]
  generalize firstAlignedOffset base alignmentBase start uc.alignment = first at *
  have hhits : hits (unknownHit mem uc alignmentBase) base (n + 1 - uc.valueLen) =
      hits (unknownHit mem uc alignmentBase) (base + first) (n + 1 - uc.valueLen - first) :=
    hits_skip fun x hlo' hhi' _ =>
      Bool.eq_false_iff.mpr fun hhit => hskip x hlo' hhi' (unknownHit_aligned hhit)
  rw [if_neg (by omega), length_slice, hhits]
  exact unknownLoop_grew hlen hal (by omega) (by omega) hend (by omega) hzero hb

theorem scanUnknownRange_grew {pid : Int} {start len : Nat} (hlen : 0 < uc.valueLen)
    (hal : 0 < uc.alignment) (hal' : uc.alignment < 2 ^ 32) (hbase : alignmentBase ≤ start)
    (hbounds : scanBoundsValid start len uc.valueLen = true)
    (hreads : ShortReads env pid mem start (start + len)) {b : ScanBuilder} (hb : b.Ready env) :
    ∃ b', scanUnknownRange env uc pid start len alignmentBase b = (.ok, b') ∧
      Grew b (hits (unknownHit mem uc alignmentBase) start (len + 1 - uc.valueLen)) b' := by
  obtain ⟨hpos, -, -, hend⟩ := scanBoundsValid_iff.mp hbounds
  have hchunk : 0 < scanChunk env.platform := by cases env.platform <;> decide
  have hoverlap : (if uc.valueLen > 1 then uc.valueLen - 1 else 0) = uc.valueLen - 1 := by
    split_ifs <;> omega
  rw [scanUnknownRange, if_neg (by rw [hbounds]; exact Bool.noConfusion)]
  exact chunkScan_grew hlen hoverlap hchunk (.inl rfl) hreads
    (exactWindow_unknown hlen hal hal' hbase (by omega)) hb

end Range

/-! ## The bytes examined -/

/-- No read delivers more than it was asked for. -/
def Env.Bounded (env : Env) : Prop :=
  ∀ now address n bytes, 0 < n → env.palRead now address n = .done bytes → bytes.length ≤ n

section Bytes

variable {env : Env}

theorem scanBuilderAppend_bytes (b : ScanBuilder) (address : Nat) :
    (scanBuilderAppend env b address).2.result.bytesScanned = b.result.bytesScanned := by
  unfold scanBuilderAppend
  dsimp only
  split_ifs <;> rfl

theorem bytes_andThen {r : Status × ScanBuilder} {k : ScanBuilder → Status × ScanBuilder}
    {m n : Nat} (hr : r.2.result.bytesScanned ≤ m) (hmn : m ≤ n)
    (hk : ∀ b, b.result.bytesScanned ≤ m → (k b).2.result.bytesScanned ≤ n) :
    (match r with | (.ok, b) => k b | r => r).2.result.bytesScanned ≤ n := by
  obtain ⟨st, b⟩ := r
  cases st with
  | ok => exact hk b hr
  | _ => exact Nat.le_trans hr hmn

theorem unknownLoop_bytes (uc : UnknownScanContext) (buffer : List UInt8)
    (baseAddr rangeEnd fuel pos : Nat) (b : ScanBuilder) :
    (unknownLoop env uc buffer baseAddr rangeEnd fuel pos b).2.result.bytesScanned ≤
      b.result.bytesScanned := by
  induction fuel generalizing pos b with
  | zero => exact Nat.le_refl _
  | succ fuel ih =>
    rw [unknownLoop]
    dsimp only
    split
    · split
      · exact Nat.le_refl _
      · refine bytes_andThen ?_ (Nat.le_refl _) fun b₁ hb₁ => ?_
        · split
          · exact Nat.le_of_eq (scanBuilderAppend_bytes b _)
          · exact Nat.le_refl _
        · split
          · exact hb₁
          · exact Nat.le_trans (ih _ _) hb₁
    · exact Nat.le_refl _

theorem resilientAttempts_bytes (hbounded : env.Bounded) (pid : Int)
    (address fuel attempt : Nat) (b : ScanBuilder) :
    let r := resilientAttempts env pid address fuel attempt b
    r.1.result.bytesScanned = b.result.bytesScanned ∧
      ∀ bytes, r.2 = .done bytes → bytes.length ≤ attempt := by
  induction fuel generalizing attempt b with
  | zero => exact ⟨rfl, fun bytes h => ReadOutcome.noConfusion h⟩
  | succ fuel ih =>
    rw [resilientAttempts]
    cases hread : memoryRead env pid b.now address attempt with
    | done bytes =>
      refine ⟨rfl, fun bytes' h => ?_⟩
      obtain rfl := ReadOutcome.done.inj h
      unfold memoryRead at hread
      split_ifs at hread with _ hzero
      · exact ReadOutcome.done.inj hread ▸ Nat.zero_le _
      · exact hbounded _ _ _ _ (Nat.pos_of_ne_zero hzero) hread
    | failed st =>
      dsimp only
      split_ifs with hlast hnext
      · exact ⟨rfl, fun bytes h => h.elim⟩
      · exact ⟨rfl, fun bytes h => h.elim⟩
      · obtain ⟨hbytes, hlength⟩ := ih (nextAttempt attempt) b.countRead.countReadError
        exact ⟨hbytes, fun bytes h => Nat.le_trans (hlength bytes h)
          (Nat.le_of_lt (Nat.lt_of_not_le hnext))⟩

theorem scanMemoryReadResilient_bytes (hbounded : env.Bounded) (pid : Int)
    (address requested : Nat) (b : ScanBuilder) :
    let r := scanMemoryReadResilient env pid address requested b
    r.1.result.bytesScanned = b.result.bytesScanned ∧
      ∀ bytes, r.2 = .done bytes → bytes.length ≤ requested := by
  rw [scanMemoryReadResilient]
  split
  · exact ⟨rfl, fun bytes h => ReadOutcome.done.inj h ▸ Nat.zero_le _⟩
  · exact resilientAttempts_bytes hbounded pid address requested requested b

theorem chunkLoop_bytes (hbounded : env.Bounded) {c : ChunkScan}
    (hwindow : ∀ b bytes base,
      (c.window b bytes base).2.result.bytesScanned ≤ b.result.bytesScanned)
    (start length fuel scanned : Nat) (carry : List UInt8) (b : ScanBuilder) :
    (chunkLoop env c start length fuel scanned carry b).2.result.bytesScanned ≤
      b.result.bytesScanned + (length - scanned) := by
  induction fuel generalizing scanned carry b with
  | zero => exact Nat.le_add_right _ _
  | succ fuel ih =>
    rw [chunkLoop]
    split
    · split
      · exact Nat.le_add_right _ _
      · dsimp only
        have hsize := scanReadSize_le_remaining (length - scanned) c.chunk
        have hread := scanMemoryReadResilient_bytes hbounded c.pid (start + scanned)
          (scanReadSize (length - scanned) c.chunk) b.tick
        generalize scanMemoryReadResilient env c.pid (start + scanned)
          (scanReadSize (length - scanned) c.chunk) b.tick = r at hread ⊢
        obtain ⟨b₁, outcome⟩ := r
        obtain ⟨hsame, hlength⟩ := hread
        have hb₁ : b₁.result.bytesScanned = b.result.bytesScanned := hsame
        cases outcome with
        | failed st =>
          dsimp only
          split
          · refine Nat.le_trans (ih _ _ _) ?_
            omega
          · exact hb₁ ▸ Nat.le_add_right _ _
        | done bytes =>
          have hle := hlength bytes rfl
          dsimp only
          split
          · exact hb₁ ▸ Nat.le_add_right _ _
          · have hcount : (b₁.countBytes c.reportsBytes bytes.length).result.bytesScanned ≤
                b.result.bytesScanned + bytes.length := by
              rw [← hb₁]
              exact Nat.mod_le _ _
            refine bytes_andThen (Nat.le_trans (hwindow _ _ _) hcount) (by omega)
              fun b₂ hb₂ => Nat.le_trans (ih _ _ _) ?_
            omega
    · exact Nat.le_add_right _ _

theorem scanUnknownRange_bytes (hbounded : env.Bounded) (uc : UnknownScanContext) (pid : Int)
    (start len alignmentBase : Nat) (b : ScanBuilder) :
    (scanUnknownRange env uc pid start len alignmentBase b).2.result.bytesScanned ≤
      b.result.bytesScanned + len := by
  rw [scanUnknownRange]
  split
  · exact Nat.le_add_right _ _
  · refine chunkLoop_bytes hbounded (fun b bytes base => ?_) start len len 0 [] b
    dsimp only [unknownChunkScan]
    split
    · exact Nat.le_refl _
    · exact unknownLoop_bytes _ _ _ _ _ _ _

theorem unknownMapLoop_bytes (hbounded : env.Bounded) (uc : UnknownScanContext)
    (request : UnknownRequest) (maps : List MapEntry) (budget : Nat) (b : ScanBuilder) :
    (unknownMapLoop env uc request maps budget b).2.result.bytesScanned ≤
      b.result.bytesScanned + budget := by
  induction maps generalizing budget b with
  | nil => exact Nat.le_add_right _ _
  | cons map maps ih =>
    rw [unknownMapLoop]
    split
    · exact ih budget b
    · rename_i scanStart mapLen _
      split
      · exact Nat.le_add_right _ _
      · have hunit : (if mapLen < budget then mapLen else budget) ≤ budget := by
          split <;> omega
        generalize (if mapLen < budget then mapLen else budget) = unitLen at hunit ⊢
        have hsame :
          ((if unitLen < mapLen then b.setTruncated else b).countRegion).result.bytesScanned =
            b.result.bytesScanned := by
          split <;> rfl
        have hrange := scanUnknownRange_bytes hbounded uc request.pid scanStart unitLen map.start
          (if unitLen < mapLen then b.setTruncated else b).countRegion
        rw [hsame] at hrange
        refine bytes_andThen hrange (Nat.add_le_add_left hunit _) fun b₁ hb₁ => ?_
        split
        · have hle := Nat.le_trans hb₁ (Nat.add_le_add_left hunit _)
          split
          · exact hle
          · exact hle
        · refine Nat.le_trans (ih _ _) ?_
          omega

end Bytes

/-! ## The map loop -/

def UnknownRequest.filter (request : UnknownRequest) (valueLen : Nat) : MapFilter :=
  ⟨request.protectionMask ||| mapProtRead, request.start, request.endAddr, valueLen⟩

def unknownCandidates (mem : Nat → UInt8) (uc : UnknownScanContext) (f : MapFilter)
    (maps : List MapEntry) : List Nat :=
  maps.flatMap fun map =>
    match f.clip map with
    | none => []
    | some (start, len) => hits (unknownHit mem uc map.start) start (len + 1 - uc.valueLen)

def ScanBuilder.cutIf (b : ScanBuilder) (cut : Bool) : ScanBuilder :=
  if cut then b.setTruncated else b

section Maps

variable {env : Env} {uc : UnknownScanContext} {mem : Nat → UInt8} {f : MapFilter}
  {b b' : ScanBuilder} {hs : List Nat}

theorem ScanBuilder.if_setTruncated (b : ScanBuilder) (p : Prop) [Decidable p] :
    (if p then b.setTruncated else b) = b.cutIf (decide p) := by
  rw [ScanBuilder.cutIf]
  simp only [decide_eq_true_eq]

theorem SameHits.countRegion (b : ScanBuilder) : SameHits b b.countRegion :=
  ⟨rfl, rfl, rfl, rfl, rfl⟩

theorem ScanBuilder.Ready.cutIf (hb : b.Ready env) (cut : Bool) : (b.cutIf cut).Ready env := by
  cases cut with
  | false => exact hb
  | true => exact ⟨⟨hb.cells, hb.count_le, hb.capacity_le, hb.maxResults_lt⟩, hb.room⟩

theorem Grew.cutIf (h : Grew b hs b') (cut : Bool) : Grew (b.cutIf cut) hs (b'.cutIf cut) := by
  cases cut with
  | false => exact h
  | true =>
    refine ⟨⟨h.valid.cells, h.valid.count_le, h.valid.capacity_le, h.valid.maxResults_lt⟩,
      h.maxResults_eq, h.capacity_full, h.stored_eq, ?_⟩
    exact (Bool.true_or _).symm

theorem ScanBuilder.cutIf_cutIf (b : ScanBuilder) (cut cut' : Bool) :
    (b.cutIf cut).cutIf cut' = b.cutIf (cut || cut') := by
  cases cut <;> cases cut' <;> rfl

theorem Grew.trans_cutIf {b'' : ScanBuilder} {hs' : List Nat} {cut cut' : Bool}
    (h : Grew (b.cutIf cut) hs b') (h' : Grew (b'.cutIf cut') hs' b'') :
    Grew (b.cutIf (cut || cut')) (hs ++ hs') b'' := by
  rw [← ScanBuilder.cutIf_cutIf]
  exact (h.cutIf cut').trans h'

theorem hits_prefix {p : Nat → Bool} {start n n' : Nat} (hle : n ≤ n') :
    hits p start n <+: hits p start n' := by
  obtain ⟨k, rfl⟩ := Nat.exists_eq_add_of_le hle
  exact ⟨_, (hits_add start n k).symm⟩

theorem unknownMapLoop_grew {request : UnknownRequest} (hlen : 0 < uc.valueLen)
    (hal : 0 < uc.alignment) (hal' : uc.alignment < 2 ^ 32) {maps : List MapEntry}
    (hmaps : ReadableMaps env request.pid mem (request.filter uc.valueLen) maps) {budget : Nat}
    (hbudget : budget ≤ scanUnknownMaxUnitBytes) (hb : b.Ready env) :
    ∃ b' hs cut, unknownMapLoop env uc request maps budget b = (.ok, b') ∧
      Grew (b.cutIf cut) hs b' ∧
      hs <+: unknownCandidates mem uc (request.filter uc.valueLen) maps ∧
      (cut = false → hs = unknownCandidates mem uc (request.filter uc.valueLen) maps) := by
  induction maps generalizing budget b with
  | nil => exact ⟨b, [], false, rfl, .refl hb.toValid, prefix_rfl, fun _ => rfl⟩
  | cons map maps ih =>
    have hmap := hmaps map mem_cons_self
    have hrest : ReadableMaps env request.pid mem (request.filter uc.valueLen) maps :=
      fun map' hmap' => hmaps map' (mem_cons_of_mem _ hmap')
    rw [unknownMapLoop]
    unfold unknownCandidates
    rw [flatMap_cons]
    have hfilter : (⟨request.protectionMask ||| mapProtRead, request.start, request.endAddr,
        uc.valueLen⟩ : MapFilter) = request.filter uc.valueLen := rfl
    rw [hfilter]
    cases hclip : (request.filter uc.valueLen).clip map with
    | none => exact ih hrest hbudget hb
    | some range =>
      obtain ⟨start, mapLen⟩ := range
      obtain ⟨hstart, hend, hpos, hmin⟩ := clip_bounds hclip
      have hmin : uc.valueLen ≤ mapLen := hmin
      have hreads := hmap.2 start mapLen hclip
      dsimp only
      by_cases hsmall : budget < uc.valueLen
      · rw [if_pos hsmall]
        exact ⟨b.setTruncated, [], true, rfl, .refl (hb.cutIf true).toValid, nil_prefix,
          fun h => Bool.noConfusion h⟩
      rw [if_neg hsmall]
      obtain ⟨unitLen, hunit, hmapLen, hspend, hvalue, hcut⟩ : ∃ unitLen,
          (if mapLen < budget then mapLen else budget) = unitLen ∧ unitLen ≤ mapLen ∧
          unitLen ≤ budget ∧ uc.valueLen ≤ unitLen ∧ (unitLen < mapLen → unitLen = budget) := by
        refine ⟨_, rfl, ?_⟩
        split <;> omega
      rw [hunit]
      have hbounds : scanBoundsValid start unitLen uc.valueLen = true := by
        refine scanBoundsValid_iff.mpr ⟨by omega, hvalue, ?_, by omega⟩
        exact Nat.le_trans (Nat.le_trans hspend hbudget) (by decide)
      -- the unit of this map
      obtain ⟨b₁, hrun, hgrew⟩ := scanUnknownRange_grew hlen hal hal' hstart hbounds
        (hreads.mono (Nat.le_refl _) (by omega))
        ((SameHits.countRegion _).ready (hb.cutIf (decide (unitLen < mapLen))))
      have hgrew := ((SameHits.countRegion _).grew
        (hb.cutIf (decide (unitLen < mapLen))).toValid).of_nil_left hgrew
      rw [ScanBuilder.if_setTruncated, hrun]
      have hprefix : hits (unknownHit mem uc map.start) start _ <+: _ :=
        hits_prefix (Nat.sub_le_sub_right (Nat.succ_le_succ hmapLen) uc.valueLen)
      by_cases hspent : budget - unitLen = 0
      · -- the budget is used up
        refine ⟨_, _, _, (if_pos hspent).trans (congrArg _ (ScanBuilder.if_setTruncated _ _)),
          hgrew.trans_cutIf (.refl (((hgrew.ready (hb.cutIf _))).cutIf _).toValid), ?_, ?_⟩
        · rw [append_nil]
          exact hprefix.trans (prefix_append _ _)
        · intro hnone
          obtain ⟨hwhole, hlast⟩ := Bool.or_eq_false_iff.mp hnone
          rw [decide_eq_false_iff_not] at hwhole hlast
          obtain ⟨hlast, -⟩ := not_or.mp hlast
          rw [not_not.mp hlast, flatMap_nil, append_nil, append_nil,
            Nat.le_antisymm hmapLen (Nat.le_of_not_lt hwhole)]
      · -- the whole map was in the budget
        obtain rfl : unitLen = mapLen := by omega
        obtain ⟨b₂, hs, cut, hloop, hgrew₂, hpre, hall⟩ := ih hrest
          (Nat.le_trans (Nat.sub_le _ _) hbudget) (hgrew.ready (hb.cutIf _))
        refine ⟨b₂, _, _, (if_neg hspent).trans hloop, hgrew.trans_cutIf hgrew₂, ?_, ?_⟩
        · exact (prefix_append_right_inj _).mpr hpre
        · intro hnone
          rw [hall (Bool.or_eq_false_iff.mp hnone).2]
          rfl

end Maps

/-! ## The whole scan -/

def UnknownRequest.valueLen (request : UnknownRequest) : Nat :=
  expectedValueLength request.valueType request.valueLength

def UnknownRequest.context (request : UnknownRequest) : UnknownScanContext :=
  ⟨request.valueLen, if request.alignment = 0 then request.valueLen else request.alignment,
    request.flags⟩

def World.mapsOf (w : World) (pid : Int) : List MapEntry :=
  match w.processMaps pid with
  | .ok maps => maps.getD []
  | .error _ => []

def sortByStart (maps : List MapEntry) : List MapEntry :=
  maps.mergeSort fun a b => decide (a.start < b.start ∨ a.start = b.start ∧ a.endAddr ≤ b.endAddr)

/-- An address a complete scan reports: a whole number of strides behind the start of an
eligible map, with the value inside the part of the map the request covers, and with
a byte that is not zero if the request asks for one. -/
structure UnknownCandidate (mem : Nat → UInt8) (request : UnknownRequest) (map : MapEntry)
    (a : Nat) : Prop where
  inside : ∃ start len, (request.filter request.valueLen).clip map = some (start, len) ∧
    start ≤ a ∧ a + request.valueLen ≤ start + len
  aligned : ∃ k, a = map.start + k * request.context.alignment
  nonzero : request.flags &&& scanUnknownFlagNonzero ≠ 0 →
    ∃ i < request.valueLen, mem (a + i) ≠ 0

section Scan

variable {w : World} {request : UnknownRequest} {out₀ out : ScanResult} {st : Status}
  {mem : Nat → UInt8}

theorem scanResultFree_eq {r r' : ScanResult} (h : scanResultFree r = some r') : r' = .zero := by
  unfold scanResultFree at h
  split at h
  · cases h
  · exact (Option.some.inj h).symm

theorem memdbgScanUnknown_cases (h : memdbgScanUnknown w request out₀ = some (st, out)) :
    (st ≠ .ok ∧ out = .zero) ∨
    st = .ok ∧ (0 < request.valueLen ∧ request.valueLen ≤ scanValueMax) ∧
      request.maxBytes ≤ scanUnknownMaxUnitBytes ∧
      ∃ b startNs endNs, unknownMapLoop w.env request.context request
          (sortByStart (w.mapsOf request.pid)) request.maxBytes
          (ScanBuilder.init .zero
            (min (requestLimit request.maxResults) scanUnknownResultLimit)).tick = (.ok, b) ∧
        out = b.result.setElapsed startNs endNs := by
  unfold memdbgScanUnknown at h
  dsimp only at h
  rw [show (⟨expectedValueLength request.valueType request.valueLength,
      if request.alignment = 0 then expectedValueLength request.valueType request.valueLength
      else request.alignment, request.flags⟩ : UnknownScanContext) = request.context from rfl] at h
  have hempty : ∀ e : ErrorStatus, some (e.1, ScanResult.zero) = some (st, out) →
      st ≠ .ok ∧ out = .zero := by
    rintro e h
    cases h
    exact ⟨e.2, rfl⟩
  split_ifs at h with h₁ h₂ h₃ h₄ h₅
  · exact .inl (hempty ⟨.errParam, Status.noConfusion⟩ h)
  · exact .inl (hempty ⟨.errParam, Status.noConfusion⟩ h)
  · exact .inl (hempty ⟨.errParam, Status.noConfusion⟩ h)
  · exact .inl (hempty ⟨.errParam, Status.noConfusion⟩ h)
  · exact .inl (hempty ⟨.errNomem, Status.noConfusion⟩ h)
  rw [World.mapsOf]
  cases hmaps : w.processMaps request.pid with
  | error e =>
    rw [hmaps] at h
    exact .inl (hempty e h)
  | ok maps =>
    rw [hmaps] at h
    dsimp only at h ⊢
    rw [sortByStart]
    obtain ⟨hpos, hle⟩ := not_or.mp h₄
    obtain ⟨-, hmax⟩ := not_or.mp h₃
    cases hloop : unknownMapLoop w.env request.context request _ request.maxBytes _ with
    | mk st' b =>
      rw [hloop] at h
      rw [finishScan] at h
      split_ifs at h with hst
      · obtain ⟨freed, hfree, hout⟩ := Option.map_eq_some_iff.mp h
        cases hout
        exact .inl ⟨hst, scanResultFree_eq hfree⟩
      · cases h
        exact .inr ⟨not_not.mp hst, ⟨Nat.pos_of_ne_zero hpos, Nat.le_of_not_lt hle⟩,
          Nat.le_of_not_lt hmax, b, _, _, Prod.ext (not_not.mp hst) rfl, rfl⟩

theorem mem_unknownCandidates {maps : List MapEntry} {a : Nat} :
    a ∈ unknownCandidates mem request.context (request.filter request.valueLen) maps ↔
      ∃ map ∈ maps, UnknownCandidate mem request map a := by
  rw [unknownCandidates, mem_flatMap]
  refine exists_congr fun map => and_congr_right fun _ => ?_
  cases hclip : (request.filter request.valueLen).clip map with
  | none =>
    refine ⟨fun h => absurd h not_mem_nil, fun h => ?_⟩
    obtain ⟨start, len, hsome, -⟩ := h.inside
    rw [hclip] at hsome
    exact absurd hsome (Option.some_ne_none _).symm
  | some range =>
    obtain ⟨start, len⟩ := range
    obtain ⟨hstart, -, -, -⟩ := clip_bounds hclip
    rw [mem_hits, unknownHit, Bool.and_eq_true, beq_iff_eq]
    constructor
    · rintro ⟨⟨hlo, hhi⟩, haligned, hcandidate⟩
      have hhi : a < start + (len + 1 - request.valueLen) := hhi
      refine ⟨⟨start, len, hclip, hlo, by omega⟩, ?_,
        unknownValueIsCandidate_iff.mp hcandidate⟩
      obtain ⟨k, hk⟩ := Nat.dvd_of_mod_eq_zero haligned
      exact ⟨k, by rw [Nat.mul_comm k, ← hk, Nat.add_sub_cancel' (Nat.le_trans hstart hlo)]⟩
    · rintro ⟨⟨start', len', hsome, hlo, hhi⟩, ⟨k, rfl⟩, hnonzero⟩
      rw [hclip] at hsome
      obtain ⟨rfl, rfl⟩ := Prod.mk.inj (Option.some.inj hsome)
      refine ⟨⟨hlo, ?_⟩, ?_, unknownValueIsCandidate_iff.mpr hnonzero⟩
      · show _ < start + (len + 1 - request.valueLen)
        omega
      · rw [Nat.add_sub_cancel_left, Nat.mul_mod_left]

theorem unknownMapLoop_reported
    (hlen : 0 < request.valueLen ∧ request.valueLen ≤ scanValueMax)
    (hal : request.alignment < 2 ^ 32)
    (hmax : request.maxBytes ≤ scanUnknownMaxUnitBytes)
    (hreads : ReadableMaps w.env request.pid mem (request.filter request.valueLen)
      (w.mapsOf request.pid)) {b : ScanBuilder}
    (hloop : unknownMapLoop w.env request.context request (sortByStart (w.mapsOf request.pid))
      request.maxBytes (ScanBuilder.init .zero
        (min (requestLimit request.maxResults) scanUnknownResultLimit)).tick = (.ok, b))
    (hwhole : b.result.truncated = false) :
    b.result.reported = unknownCandidates mem request.context (request.filter request.valueLen)
      (sortByStart (w.mapsOf request.pid)) := by
  have hready : (ScanBuilder.init .zero
      (min (requestLimit request.maxResults) scanUnknownResultLimit)).tick.Ready w.env.freeHeap :=
    ⟨⟨.inl ⟨rfl, rfl⟩, Nat.le_refl _, Nat.zero_le _,
      Nat.lt_of_le_of_lt (Nat.min_le_right _ _) (by decide)⟩, .inr fun _ => rfl⟩
  have hreads' : ReadableMaps w.env.freeHeap request.pid mem
      (request.filter request.context.valueLen) (sortByStart (w.mapsOf request.pid)) :=
    fun map hmap => hreads map (mem_mergeSort.mp hmap)
  have hstride : 0 < request.context.alignment ∧ request.context.alignment < 2 ^ 32 := by
    dsimp only [UnknownRequest.context]
    split_ifs
    · exact ⟨hlen.1, Nat.lt_of_le_of_lt hlen.2 (by decide)⟩
    · exact ⟨Nat.pos_of_ne_zero ‹_›, hal⟩
  have hlen' : 0 < request.context.valueLen := hlen.1
  obtain ⟨b', hs, cut, hloop', hgrew, -, hall⟩ :=
    unknownMapLoop_grew hlen' hstride.1 hstride.2 hreads' hmax hready
  obtain rfl : b = b' := (Prod.mk.inj ((unknownMapLoop_freeHeap hloop).symm.trans hloop')).2
  have htruncated := hgrew.truncated_eq
  rw [hwhole] at htruncated
  obtain ⟨hcut, hfit⟩ := Bool.or_eq_false_iff.mp htruncated.symm
  have hnocut : cut = false := by
    cases cut with
    | false => rfl
    | true => exact Bool.noConfusion hcut
  subst hnocut
  have hfit := Nat.le_of_not_lt (of_decide_eq_false hfit)
  have hstored := hgrew.stored_eq
  rw [take_of_length_le hfit] at hstored
  exact hstored.trans (hall rfl)

/-- **The unknown-value scan is complete or says so.**  It never examines more bytes than
its budget.  Over maps it can read, a scan that succeeds without setting `truncated`
reports exactly the candidates, and a candidate that is missing sets `truncated`. -/
theorem scanUnknown_complete (hal : request.alignment < 2 ^ 32) (hbounded : w.env.Bounded)
    (hrun : memdbgScanUnknown w request out₀ = some (st, out)) :
    out.bytesScanned ≤ request.maxBytes ∧
    ∀ mem, ReadableMaps w.env request.pid mem (request.filter request.valueLen)
        (w.mapsOf request.pid) → st = .ok →
      (out.truncated = false → ∀ a, a ∈ out.reported ↔
        ∃ map ∈ w.mapsOf request.pid, UnknownCandidate mem request map a) ∧
      ∀ map ∈ w.mapsOf request.pid, ∀ a, UnknownCandidate mem request map a →
        a ∉ out.reported → out.truncated = true := by
  rcases memdbgScanUnknown_cases hrun with
    ⟨hst, rfl⟩ | ⟨-, hlen, hmax, b, startNs, endNs, hloop, rfl⟩
  · exact ⟨Nat.zero_le _, fun mem _ hok => absurd hok hst⟩
  have hbytes := unknownMapLoop_bytes hbounded request.context request
    (sortByStart (w.mapsOf request.pid)) request.maxBytes
    (ScanBuilder.init .zero (min (requestLimit request.maxResults) scanUnknownResultLimit)).tick
  rw [hloop] at hbytes
  rw [ScanResult.bytesScanned_setElapsed, ScanResult.truncated_setElapsed,
    ScanResult.reported_setElapsed]
  refine ⟨Nat.le_trans hbytes (Nat.le_of_eq (Nat.zero_add _)), fun mem hreads _ => ?_⟩
  have hcomplete : b.result.truncated = false → ∀ a, a ∈ b.result.reported ↔
      ∃ map ∈ w.mapsOf request.pid, UnknownCandidate mem request map a := by
    intro hwhole a
    rw [unknownMapLoop_reported hlen hal hmax hreads hloop hwhole, mem_unknownCandidates]
    exact exists_congr fun map => and_congr_left fun _ => mem_mergeSort
  refine ⟨hcomplete, fun map hmap a hcandidate hmissing => ?_⟩
  by_contra hcut
  exact hmissing ((hcomplete (Bool.eq_false_iff.mpr hcut) a).mpr ⟨map, hmap, hcandidate⟩)

end Scan

def sevenAt18 (a : Nat) : UInt8 := if a = 18 then 7 else 0

def fourByteWorld : World where
  env := .readable .host sevenAt18 fun _ n => n
  threads := ⟨fun _ => true, fun _ => true, id⟩
  processList := none
  processMaps _ := .ok (some [⟨16, 20, 1⟩])

def byteRequest : UnknownRequest where
  abiMagic := scanUnknownAbiMagic
  abiVersion := scanUnknownAbiVersion
  structSize := scanUnknownRequestSize
  flags := scanUnknownFlagNonzero
  pid := 1
  valueType := .u8
  valueLength := 1
  alignment := 1
  maxResults := 8
  protectionMask := 0
  reserved := 0
  start := 0
  endAddr := 0
  maxBytes := 64

theorem memdbgScanUnknown_fourBytes :
    ∃ out, memdbgScanUnknown fourByteWorld byteRequest .zero = some (.ok, out) ∧
      out.truncated = false := by
  unfold memdbgScanUnknown fourByteWorld
  dsimp only
  rw [Option.getD_some, mergeSort_singleton]
  exact ⟨_, rfl, rfl⟩

theorem scanUnknown_complete_fourBytes :
    ∃ out, memdbgScanUnknown fourByteWorld byteRequest .zero = some (.ok, out) ∧
      out.bytesScanned ≤ 64 ∧ 18 ∈ out.reported := by
  obtain ⟨out, hrun, hwhole⟩ := memdbgScanUnknown_fourBytes
  have hbounded : fourByteWorld.env.Bounded := by
    rintro now address n bytes hn hread
    obtain rfl := ReadOutcome.done.inj hread
    rw [length_slice]
    omega
  have hreads : ReadableMaps fourByteWorld.env byteRequest.pid sevenAt18
      (byteRequest.filter byteRequest.valueLen) (fourByteWorld.mapsOf byteRequest.pid) := by
    intro map hmap
    obtain rfl := mem_singleton.mp hmap
    exact ⟨by decide, fun start len _ => shortReads_readable _ _ _ (by decide) _ _⟩
  obtain ⟨hbytes, hcomplete⟩ := scanUnknown_complete (by decide) hbounded hrun
  refine ⟨out, hrun, hbytes, ((hcomplete sevenAt18 hreads rfl).1 hwhole 18).mpr ?_⟩
  exact ⟨⟨16, 20, 1⟩, mem_singleton.mpr rfl, ⟨⟨16, 4, by decide, by decide, by decide⟩,
    ⟨2, by decide⟩, fun _ => ⟨0, by decide, by decide⟩⟩⟩

end MemDbg.Scan
