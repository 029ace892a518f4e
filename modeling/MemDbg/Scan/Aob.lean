import MemDbg.Scan.BoyerMoore
import MemDbg.Scan.Chunk

/-!
# The array-of-bytes scanner

`scan_aob_range` and `memdbg_scan_aob`.  A mismatch at pattern position `j` moves
the search by the larger of the bad-character entry of the byte under the last
position and the good-suffix entry `j + 1`.
-/

namespace MemDbg.Scan

open List Lib

structure AobRequest where
  pid : Int
  start : Nat
  length : Nat
  maxResults : Nat
  patternLength : Nat
  maxResults_lt : maxResults < 2 ^ 32
  patternLength_lt : patternLength < 2 ^ 32

def aobMismatch (pattern mask hay : List UInt8) (patLen i : Nat) : Nat → Option Nat
  | 0 => none
  | j + 1 =>
    if mask.getD j 0 ≠ 0 ∧ hay.getD (i + j + 1 - patLen) 0 ≠ pattern.getD j 0 then some j
    else aobMismatch pattern mask hay patLen i j

def bmShift (bm : BmTable) (patLen : Nat) (byte : UInt8) (j : Nat) : Nat :=
  let bc := bm.skip byte
  let gs := match bm.gsShift with
    | some gsShift => if j < patLen - 1 then gsShift (j + 1) else 1
    | none => 1
  if bc > gs then bc else gs

def aobSearch (env : Env) (bm : BmTable) (pattern mask : List UInt8) (patLen : Nat)
    (hay : List UInt8) (baseAddr : Nat) : Nat → Nat → ScanBuilder → Status × ScanBuilder
  | 0, _, b => (.ok, b)
  | fuel + 1, i, b =>
    if i < hay.length then
      match aobMismatch pattern mask hay patLen i patLen with
      | none =>
        match scanBuilderAppend env b (baseAddr + (i + 1 - patLen)) with
        | (.ok, b) => aobSearch env bm pattern mask patLen hay baseAddr fuel (i + 1) b
        | r => r
      | some j =>
        aobSearch env bm pattern mask patLen hay baseAddr fuel
          (i + bmShift bm patLen (hay.getD i 0) j) b
    else (.ok, b)

def aobChunkScan (env : Env) (bm : BmTable) (pattern mask : List UInt8) (patLen : Nat) (pid : Int) :
    ChunkScan where
  pid := pid
  chunk := scanChunk env.platform
  overlap := if patLen > 1 then patLen - 1 else 0
  pollsCancel := false
  reportsBytes := true
  skipReadErrors := true
  window b hay baseAddr :=
    aobSearch env bm pattern mask patLen hay baseAddr hay.length (patLen - 1) b

def scanAobRange (env : Env) (bm : BmTable) (pattern mask : List UInt8) (patLen : Nat) (pid : Int)
    (rangeStart rangeLen : Nat) (b : ScanBuilder) : Status × ScanBuilder :=
  if rangeLen < patLen then (.ok, b)
  else chunkScan env (aobChunkScan env bm pattern mask patLen pid) rangeStart rangeLen b

def memdbgScanAob (env : Env) (request : AobRequest) (pattern mask : List UInt8)
    (out : ScanResult) : Option (Status × ScanResult) :=
  if request.patternLength = 0 ∨ request.length = 0 then some (.errParam, out)
  else if scanBoundsValid request.start request.length request.patternLength = false then
    some (.errParam, out)
  else if env.alloc .scanBuffer = false then some (.errNomem, .zero)
  else
    match scanBuilderPrealloc env (.init .zero (requestLimit request.maxResults)) with
    | (.ok, b) =>
      let bm := bmBuildTable env pattern mask request.patternLength
      let startNs := env.monotonicNs b.now
      let (st, b) := scanAobRange env bm pattern mask request.patternLength request.pid
        request.start request.length b.tick
      let endNs := env.monotonicNs b.now
      finishScan st { b.result.setElapsed startNs endNs with regionsScanned := 1 }
    | (st, b) => some (st, b.result)

def aobHit (mem : Nat → UInt8) (pattern mask : List UInt8) (a : Nat) : Bool :=
  (List.range pattern.length).all fun j => mask.getD j 0 == 0 || mem (a + j) == pattern.getD j 0

theorem aobHit_iff {mem : Nat → UInt8} {pattern mask : List UInt8} {a : Nat} :
    aobHit mem pattern mask a = true ↔
      ∀ j, j < pattern.length → mask.getD j 0 = 0 ∨ mem (a + j) = pattern.getD j 0 := by
  simp [aobHit, all_eq_true]

/-! ## One window -/

section Window

variable {mem : Nat → UInt8} {pattern mask : List UInt8}

def MismatchAt (mem : Nat → UInt8) (pattern mask : List UInt8) (a j : Nat) : Prop :=
  j < pattern.length ∧ mask.getD j 0 ≠ 0 ∧ mem (a + j) ≠ pattern.getD j 0 ∧
    ∀ k, j < k → k < pattern.length → mask.getD k 0 = 0 ∨ mem (a + k) = pattern.getD k 0

theorem aobMismatch_slice (mem : Nat → UInt8) (pattern mask : List UInt8) (base : Nat)
    {n i : Nat} (hi : i < n) (hpat : pattern.length ≤ i + 1) :
    match aobMismatch pattern mask (slice mem base n) pattern.length i pattern.length with
    | none => aobHit mem pattern mask (base + (i + 1 - pattern.length)) = true
    | some j => MismatchAt mem pattern mask (base + (i + 1 - pattern.length)) j := by
  set a := base + (i + 1 - pattern.length) with ha
  suffices h : ∀ n', n' ≤ pattern.length →
      (∀ k, n' ≤ k → k < pattern.length → mask.getD k 0 = 0 ∨ mem (a + k) = pattern.getD k 0) →
      match aobMismatch pattern mask (slice mem base n) pattern.length i n' with
      | none => aobHit mem pattern mask a = true
      | some j => MismatchAt mem pattern mask a j from
    h _ (Nat.le_refl _) fun k h₁ h₂ => absurd h₁ (by omega)
  intro n'
  induction n' with
  | zero => exact fun _ h => aobHit_iff.mpr fun j hj => h j (Nat.zero_le _) hj
  | succ j ih =>
    intro hle hrest
    have hbyte : (slice mem base n).getD (i + j + 1 - pattern.length) 0 = mem (a + j) := by
      rw [getD_slice mem (by omega), ha]
      congr 1
      omega
    rw [aobMismatch, hbyte]
    split_ifs with hmis
    · exact ⟨hle, hmis.1, hmis.2, fun k h₁ h₂ => hrest k h₁ h₂⟩
    · refine ih (by omega) fun k h₁ h₂ => ?_
      by_cases hk : k = j
      · subst hk
        by_cases hm : mask.getD k 0 = 0
        · exact .inl hm
        · exact .inr (by_contra fun hne => hmis ⟨hm, hne⟩)
      · exact hrest k (by omega) h₂

theorem MismatchAt.not_hit {a j : Nat} (h : MismatchAt mem pattern mask a j) :
    aobHit mem pattern mask a = false := by
  obtain ⟨hj, hmask, hne, -⟩ := h
  rw [← Bool.not_eq_true, aobHit_iff]
  intro hall
  rcases hall j hj with h | h
  · exact hmask h
  · exact hne h

def SafeShifts (bm : BmTable) (pattern mask : List UInt8) (bound : Nat) : Prop :=
  ∀ (mem : Nat → UInt8) a j s, MismatchAt mem pattern mask a j → 0 < s → s < bound →
    aobHit mem pattern mask (a + s) = true →
    bmShift bm pattern.length (mem (a + pattern.length - 1)) j ≤ s

variable {env : Env} {bm : BmTable}

theorem aobSearch_grew (mem : Nat → UInt8) (base : Nat) {n fuel i bound : Nat}
    (hm : 0 < pattern.length) (hpos : ∀ c, 0 < bm.skip c)
    (hsafe : SafeShifts bm pattern mask bound) (hn : n < pattern.length + bound)
    (hi : pattern.length ≤ i + 1) (hfuel : n ≤ i + fuel) {b : ScanBuilder}
    (hb : b.Ready env) :
    ∃ b', aobSearch env bm pattern mask pattern.length (slice mem base n) base fuel i b =
        (.ok, b') ∧
      Grew b (hits (aobHit mem pattern mask) (base + (i + 1 - pattern.length)) (n - i)) b' := by
  induction fuel generalizing i b with
  | zero => exact ⟨b, rfl, by rw [show n - i = 0 by omega]; exact .refl hb.toValid⟩
  | succ fuel ih =>
    by_cases hlt : i < n
    · have hcmp := aobMismatch_slice mem pattern mask base hlt hi
      rw [aobSearch, length_slice, if_pos hlt]
      cases hmis : aobMismatch pattern mask (slice mem base n) pattern.length i pattern.length with
      | none =>
        rw [hmis] at hcmp
        obtain ⟨b₁, h₁, g₁⟩ := scanBuilderAppend_grew hb (base + (i + 1 - pattern.length))
        obtain ⟨b₂, h₂, g₂⟩ := ih (i := i + 1) (by omega) (by omega) (g₁.ready hb)
        refine ⟨b₂, by simp only [h₁]; exact h₂, ?_⟩
        rw [show n - i = n - (i + 1) + 1 by omega, hits_succ, hcmp, if_pos rfl,
          show base + (i + 1 - pattern.length) + 1 =
            base + (i + 1 + 1 - pattern.length) by omega]
        exact g₁.trans g₂
      | some j =>
        rw [hmis] at hcmp
        have hbyte : (slice mem base n).getD i 0 =
            mem (base + (i + 1 - pattern.length) + pattern.length - 1) := by
          rw [getD_slice mem hlt]
          congr 1
          omega
        have hjump := hsafe mem (base + (i + 1 - pattern.length)) j
        rw [hbyte]
        set d := bmShift bm pattern.length
          (mem (base + (i + 1 - pattern.length) + pattern.length - 1)) j with hd
        have hd0 : 0 < d := by
          have := hpos (mem (base + (i + 1 - pattern.length) + pattern.length - 1))
          rw [hd, bmShift]
          split_ifs <;> omega
        obtain ⟨b₂, h₂, g₂⟩ := ih (i := i + d) (by omega) (by omega) hb
        refine ⟨b₂, h₂, ?_⟩
        -- no occurrence starts at the tested position or before the next one
        rw [hits_skip (k := d) fun x h₁ h₂ h₃ => ?_,
          show base + (i + 1 - pattern.length) + d = base + (i + d + 1 - pattern.length) by
            omega,
          Nat.sub_sub]
        · exact g₂
        · obtain ⟨s, rfl⟩ : ∃ s, x = base + (i + 1 - pattern.length) + s :=
            ⟨x - (base + (i + 1 - pattern.length)), by omega⟩
          rcases Nat.eq_zero_or_pos s with rfl | hs
          · exact hcmp.not_hit
          · rw [← Bool.not_eq_true]
            intro hhit
            have := hjump s hcmp hs (by omega) hhit
            omega
    · refine ⟨b, by rw [aobSearch, length_slice, if_neg hlt], ?_⟩
      rw [show n - i = 0 by omega]
      exact .refl hb.toValid

theorem aobSearch_none (mem : Nat → UInt8) (base : Nat) {n i : Nat}
    (hnone : ∀ a, base ≤ a → a + pattern.length ≤ base + n → aobHit mem pattern mask a = false)
    (hi : pattern.length ≤ i + 1) (fuel : Nat) (b : ScanBuilder) :
    aobSearch env bm pattern mask pattern.length (slice mem base n) base fuel i b = (.ok, b) := by
  induction fuel generalizing i with
  | zero => rfl
  | succ fuel ih =>
    by_cases hlt : i < n
    · have hcmp := aobMismatch_slice mem pattern mask base hlt hi
      rw [aobSearch, length_slice, if_pos hlt]
      cases hmis : aobMismatch pattern mask (slice mem base n) pattern.length i pattern.length with
      | none =>
        rw [hmis] at hcmp
        have := hnone (base + (i + 1 - pattern.length)) (by omega) (by omega)
        exact absurd (this.symm.trans hcmp) (by decide)
      | some j => exact ih (by omega)
    · rw [aobSearch, length_slice, if_neg hlt]

end Window

/-! ## The shifts -/

section Shifts

variable {mem : Nat → UInt8} {pattern mask : List UInt8}

/-- The condition under which entry `j + 1` of the good-suffix table is small
enough for a mismatch at `j`: a shift that brings a nonempty common suffix under
the matched bytes is preceded by one whose common suffix is one byte shorter.
Shifts of a whole chunk never happen inside a window. -/
def GoodSuffixSafe (chunk : Nat) (pattern : List UInt8) : Prop :=
  ∀ i < pattern.length - 1, pattern.length - 1 - i < chunk →
    0 < commonSuffix (fun k => pattern.getD k 0) pattern.length i →
    ∃ i' < pattern.length - 1, i < i' ∧
      commonSuffix (fun k => pattern.getD k 0) pattern.length i' + 1 =
        commonSuffix (fun k => pattern.getD k 0) pattern.length i

instance (chunk : Nat) (pattern : List UInt8) : Decidable (GoodSuffixSafe chunk pattern) :=
  inferInstanceAs (Decidable (∀ i < pattern.length - 1, pattern.length - 1 - i < chunk → _))

theorem bmShift_le_iff {bm : BmTable} {m j s : Nat} {c : UInt8} (hs : 0 < s) :
    bmShift bm m c j ≤ s ↔
      bm.skip c ≤ s ∧ ∀ gs, bm.gsShift = some gs → j < m - 1 → gs (j + 1) ≤ s := by
  unfold bmShift
  cases hgs : bm.gsShift with
  | none =>
    simp only [reduceCtorEq, false_implies, implies_true, and_true]
    split_ifs <;> omega
  | some gs =>
    simp only [Option.some.injEq, forall_eq']
    by_cases hj : j < m - 1
    · simp only [hj, if_true, true_implies]
      split_ifs <;> omega
    · simp only [hj, if_false, false_implies, and_true]
      split_ifs <;> omega

theorem bcTable_le_of_hit (hm : 0 < pattern.length) {a s : Nat} (hs : 0 < s)
    (hhit : aobHit mem pattern mask (a + s) = true) :
    bmBuildBcTable pattern mask pattern.length (mem (a + pattern.length - 1)) ≤ s := by
  obtain ⟨-, hle, hbound⟩ := bcTable_bounds pattern mask pattern.length hm
    (mem (a + pattern.length - 1))
  by_cases hlt : s < pattern.length
  · have := aobHit_iff.mp hhit (pattern.length - 1 - s) (by omega)
    rw [show a + s + (pattern.length - 1 - s) = a + pattern.length - 1 by omega] at this
    have := hbound (pattern.length - 1 - s) (by omega) (this.imp_right Eq.symm)
    omega
  · omega

theorem goodShift_of_hit (hexact : ∀ k, k < pattern.length → mask.getD k 0 ≠ 0) {a j s : Nat}
    (hmis : MismatchAt mem pattern mask a j) (hhit : aobHit mem pattern mask (a + s) = true) :
    GoodShift (fun k => pattern.getD k 0) pattern.length j s := by
  obtain ⟨hj, -, hne, hrest⟩ := hmis
  -- below the shifted pattern the memory holds the pattern
  have hunder : ∀ k, s ≤ k → k < pattern.length → mem (a + k) = pattern.getD (k - s) 0 := by
    intro k h₁ h₂
    have := (aobHit_iff.mp hhit (k - s) (by omega)).resolve_left (hexact _ (by omega))
    rwa [show a + s + (k - s) = a + k by omega] at this
  refine ⟨fun k h₁ h₂ h₃ => ?_, fun h₁ heq => hne ?_⟩
  · dsimp only
    rw [← hunder k h₃ h₂]
    exact (hrest k h₁ h₂).resolve_left (hexact k h₂)
  · rw [hunder j h₁ hj]
    exact heq

theorem goodSuffixTable_le_of_hit {chunk : Nat} (hsafe : GoodSuffixSafe chunk pattern)
    (hexact : ∀ k, k < pattern.length → mask.getD k 0 ≠ 0) {a j s : Nat} (hs : 0 < s)
    (hchunk : s < chunk) (hj : j < pattern.length - 1)
    (hmis : MismatchAt mem pattern mask a j) (hhit : aobHit mem pattern mask (a + s) = true) :
    goodSuffixTable (fun k => pattern.getD k 0) pattern.length (j + 1) ≤ s := by
  by_cases hlt : s < pattern.length
  · rw [goodSuffixTable_le_iff (by omega) hlt]
    have hgood := (goodShift_iff (by omega) hs hlt).mp (goodShift_of_hit hexact hmis hhit)
    by_cases hborder : commonSuffix (fun k => pattern.getD k 0) pattern.length
        (pattern.length - 1 - s) = pattern.length - s ∧ j + 1 < s
    · exact ⟨s, hs, Nat.le_refl _, (goodShift_iff (by omega) hs hlt).mpr (.inr hborder)⟩
    · -- the common suffix is exactly the matched part, and a shorter shift loses one byte
      obtain ⟨i', hi', hlt', heq⟩ := hsafe (pattern.length - 1 - s) (by omega) (by omega) (by omega)
      refine ⟨pattern.length - 1 - i', by omega, by omega,
        (goodShift_iff (by omega) (by omega) (by omega)).mpr (.inl ?_)⟩
      rw [show pattern.length - 1 - (pattern.length - 1 - i') = i' by omega]
      omega
  · exact Nat.le_trans (goodSuffixTable_le _ _ _) (by omega)

theorem allExact_iff {m : Nat} :
    allExact mask m = true ↔ ∀ k, k < m → mask.getD k 0 ≠ 0 := by
  simp [allExact, all_eq_true]

/-- The patterns on which the tables of `bm_build_table` are used safely. -/
def AobSafe (chunk : Nat) (pattern mask : List UInt8) : Prop :=
  allExact mask pattern.length = false ∨ pattern.length < bmGsMinLength ∨
    GoodSuffixSafe chunk pattern

theorem AobSafe.mono {chunk chunk' : Nat} (h : AobSafe chunk pattern mask) (hle : chunk' ≤ chunk) :
    AobSafe chunk' pattern mask :=
  h.imp_right (.imp_right fun hgs i hi hchunk => hgs i hi (Nat.lt_of_lt_of_le hchunk hle))

theorem safeShifts_bmBuildTable (env : Env) {chunk : Nat} (hm : 0 < pattern.length)
    (hsafe : AobSafe chunk pattern mask) :
    SafeShifts (bmBuildTable env pattern mask pattern.length) pattern mask chunk := by
  intro mem a j s hmis hs hchunk hhit
  rw [bmShift_le_iff hs]
  refine ⟨bcTable_le_of_hit hm hs hhit, fun gs hgs hj => ?_⟩
  simp only [bmBuildTable, bmBuildGsTable] at hgs
  split_ifs at hgs with h₁ h₂ h₃ h₄
  obtain rfl := Option.some.inj hgs
  rcases hsafe with h | h | h
  · rw [h] at h₁
    exact absurd h₁ (by decide)
  · exact absurd h h₂
  · exact goodSuffixTable_le_of_hit h (allExact_iff.mp h₁) hs hchunk hj hmis hhit

end Shifts

/-! ## The range scan -/

section Scan

variable {env : Env} {mem : Nat → UInt8} {pattern mask : List UInt8} {request : AobRequest}

def AobRequest.builder (request : AobRequest) : ScanBuilder :=
  (ScanBuilder.preallocated (requestLimit request.maxResults)).tick

theorem AobRequest.ready_builder (env : Env) (request : AobRequest) :
    request.builder.Ready env := by
  refine (SameHits.tick _).ready (ScanBuilder.ready_preallocated env ?_)
  have := request.maxResults_lt
  unfold requestLimit
  split_ifs <;> omega

theorem memdbgScanAob_of_grew (request : AobRequest) (pattern mask : List UInt8)
    (hbuffer : env.alloc .scanBuffer = true)
    (hprealloc : env.alloc .prealloc = true)
    (hbounds : scanBoundsValid request.start request.length request.patternLength = true)
    (hpat : 0 < request.patternLength) (out : ScanResult) {b' : ScanBuilder} {hs : List Nat}
    (hrun : scanAobRange env (bmBuildTable env pattern mask request.patternLength) pattern mask
      request.patternLength request.pid request.start request.length request.builder = (.ok, b'))
    (hgrew : Grew request.builder hs b') :
    ∃ r, memdbgScanAob env request pattern mask out = some (.ok, r) ∧
      r.reported = hs.take (requestLimit request.maxResults) := by
  obtain ⟨hlen, -, -, -⟩ := scanBoundsValid_iff.mp hbounds
  have hlimit : requestLimit request.maxResults ≠ 0 := by
    unfold requestLimit
    split_ifs <;> omega
  have hpre : scanBuilderPrealloc env (.init .zero (requestLimit request.maxResults)) =
      (.ok, .preallocated (requestLimit request.maxResults)) := by
    simp only [scanBuilderPrealloc, ScanBuilder.init, hlimit, if_false, hprealloc, if_true]
    rfl
  refine ⟨{ b'.result.setElapsed (env.monotonicNs 0) (env.monotonicNs b'.now) with
    regionsScanned := 1 }, ?_, ?_⟩
  · rw [memdbgScanAob, if_neg (by omega), if_neg (by simp [hbounds]), if_neg (by simp [hbuffer]),
      hpre]
    simp only [finishScan]
    rw [show (ScanBuilder.preallocated (requestLimit request.maxResults)).tick = request.builder
      from rfl, hrun]
    rfl
  · have hstored := hgrew.stored_eq
    rw [show request.builder.stored = [] from rfl, nil_append] at hstored
    rw [← show request.builder.maxResults = requestLimit request.maxResults from rfl, ← hstored]
    simp [ScanBuilder.stored, ScanResult.reported]

/-- `memdbg_scan_aob` is exact for a pattern and a mask on a build: on every
memory, for every range, every cut of the range into successful reads and every
sufficient result limit it reports the occurrences, each once and in increasing
order. -/
def AobExact (platform : Platform) (pattern mask : List UInt8) : Prop :=
  ∀ (env : Env) (mem : Nat → UInt8) (request : AobRequest) (out : ScanResult),
    env.platform = platform → env.alloc .scanBuffer = true → env.alloc .prealloc = true →
    request.patternLength = pattern.length →
    scanBoundsValid request.start request.length request.patternLength = true →
    ShortReads env request.pid mem request.start (request.start + request.length) →
    (hits (aobHit mem pattern mask) request.start (request.length + 1 - pattern.length)).length ≤
      request.maxResults →
    ∃ r, memdbgScanAob env request pattern mask out = some (.ok, r) ∧
      (∀ a, a ∈ r.reported ↔ request.start ≤ a ∧
        a + pattern.length ≤ request.start + request.length ∧
        ∀ j, j < pattern.length → mask.getD j 0 = 0 ∨ mem (a + j) = pattern.getD j 0) ∧
      r.reported.Pairwise (· < ·)

theorem scanChunk_pos (platform : Platform) : 0 < scanChunk platform := by
  cases platform <;> decide

theorem scanAobRange_grew {pid : Int} {start len : Nat} (hm : 0 < pattern.length)
    (hmin : pattern.length ≤ len)
    (hsafe : AobSafe (min (scanChunk env.platform) (len + 1 - pattern.length)) pattern mask)
    (hreads : ShortReads env pid mem start (start + len)) {b : ScanBuilder} (hb : b.Ready env) :
    ∃ b', scanAobRange env (bmBuildTable env pattern mask pattern.length) pattern mask
        pattern.length pid start len b = (.ok, b') ∧
      Grew b (hits (aobHit mem pattern mask) start (len + 1 - pattern.length)) b' := by
  have hwindow : ExactWindow env (aobChunkScan env
      (bmBuildTable env pattern mask pattern.length) pattern mask pattern.length pid)
      mem (aobHit mem pattern mask) start len pattern.length := by
    intro b base n hb _ _ _ hn
    have := aobSearch_grew mem base (i := pattern.length - 1) hm
      (fun c => (bcTable_bounds pattern mask _ hm c).1)
      (safeShifts_bmBuildTable env hm hsafe)
      (show n < _ by simp only [aobChunkScan] at hn; omega) (by omega)
      (Nat.le_add_left n (pattern.length - 1)) hb
    rw [show base + (pattern.length - 1 + 1 - pattern.length) = base by omega,
      show n - (pattern.length - 1) = n + 1 - pattern.length by omega] at this
    simpa only [aobChunkScan, length_slice] using this
  rw [scanAobRange, if_neg (by omega)]
  exact chunkScan_grew hm
    (show (if pattern.length > 1 then pattern.length - 1 else 0) = pattern.length - 1 by
      split_ifs <;> omega) (scanChunk_pos env.platform) (.inl rfl) hreads hwindow hb

theorem aobExact_of_safe {platform : Platform} (hm : 0 < pattern.length)
    (hsafe : AobSafe (scanChunk platform) pattern mask) : AobExact platform pattern mask := by
  intro env mem request out hplatform hbuffer hprealloc hpat hbounds hreads hmax
  subst hplatform
  rw [hpat] at hbounds
  obtain ⟨-, hmin, -, -⟩ := scanBoundsValid_iff.mp hbounds
  obtain ⟨b', hrun, hgrew⟩ := scanAobRange_grew hm hmin (hsafe.mono (Nat.min_le_left _ _)) hreads
    (request.ready_builder env)
  rw [← hpat] at hbounds
  obtain ⟨r, hr, hrep⟩ := memdbgScanAob_of_grew request pattern mask hbuffer hprealloc hbounds
    (by omega) out (by rw [hpat]; exact hrun) hgrew
  have htake : r.reported = hits (aobHit mem pattern mask) request.start
      (request.length + 1 - pattern.length) := by
    rw [hrep, take_of_length_le]
    refine Nat.le_trans hmax ?_
    unfold requestLimit
    split_ifs <;> omega
  refine ⟨r, hr, fun a => ?_, by rw [htake]; exact pairwise_hits _ _⟩
  rw [htake, mem_hits, aobHit_iff]
  constructor
  · rintro ⟨⟨h₁, h₂⟩, h₃⟩
    exact ⟨h₁, by omega, h₃⟩
  · rintro ⟨h₁, h₂, h₃⟩
    exact ⟨⟨h₁, by omega⟩, h₃⟩

end Scan

/-! ## The patterns that are lost -/

section Lost

variable {pattern mask : List UInt8}

theorem MismatchAt.unique {mem : Nat → UInt8} {a j j' : Nat} (h : MismatchAt mem pattern mask a j)
    (h' : MismatchAt mem pattern mask a j') : j = j' := by
  obtain ⟨hj, hmask, hne, hrest⟩ := h
  obtain ⟨hj', hmask', hne', hrest'⟩ := h'
  rcases Nat.lt_trichotomy j j' with hlt | heq | hlt
  · exact ((hrest j' hlt hj').elim hmask' hne').elim
  · exact heq
  · exact ((hrest' j hlt hj).elim hmask hne).elim

def decoyMemory (pattern : List UInt8) (s a : Nat) : UInt8 :=
  if a < s then pattern.getD a 0 + 1 else pattern.getD (a - s) 0

def lureMemory (pattern : List UInt8) (start s a : Nat) : UInt8 :=
  if a < start + (pattern.length + s) then decoyMemory pattern s (a - start)
  else pattern.getD (pattern.length - 1) 0 + 1

def lureCut (m start s address n : Nat) : Nat :=
  if address < start + (m - 1) then start + (m - 1) - address
  else if address < start + (m + s) then start + (m + s) - address
  else n

theorem slice_lureMemory (pattern : List UInt8) (start s : Nat) :
    slice (lureMemory pattern start s) start (pattern.length + s) =
      slice (decoyMemory pattern s) 0 (pattern.length + s) := by
  rw [slice_eq_iff]
  refine ⟨length_slice _ _ _, fun i hi => ?_⟩
  rw [getD_slice _ hi, lureMemory, if_pos (by omega)]
  congr 1
  omega

theorem aobHit_lureMemory (pattern mask : List UInt8) (start s : Nat) :
    aobHit (lureMemory pattern start s) pattern mask (start + s) = true := by
  refine aobHit_iff.mpr fun j hj => .inr ?_
  rw [lureMemory, if_pos (by omega), decoyMemory, if_neg (by omega)]
  congr 1
  omega

theorem aobHit_lureMemory_of_lt (hm : 0 < pattern.length)
    (hexact : ∀ k, k < pattern.length → mask.getD k 0 ≠ 0) {start s a : Nat} (ha : start + s < a) :
    aobHit (lureMemory pattern start s) pattern mask a = false := by
  rw [← Bool.not_eq_true, aobHit_iff]
  intro hhit
  have hlast := (hhit (pattern.length - 1) (by omega)).resolve_left (hexact _ (by omega))
  rw [lureMemory, if_neg (by omega)] at hlast
  simp at hlast

theorem mismatchAt_decoyMemory (hexact : ∀ k, k < pattern.length → mask.getD k 0 ≠ 0) {s : Nat}
    (hs : 0 < s) (hsm : s < pattern.length) :
    MismatchAt (decoyMemory pattern s) pattern mask 0
      (pattern.length - 1 - commonSuffix (fun k => pattern.getD k 0) pattern.length
        (pattern.length - 1 - s)) := by
  set P : Nat → UInt8 := fun k => pattern.getD k 0
  set r := commonSuffix P pattern.length (pattern.length - 1 - s) with hr
  have hle : r ≤ pattern.length - 1 - s + 1 := commonSuffix_le
  refine ⟨by omega, hexact _ (by omega), ?_, fun k h₁ h₂ => .inr ?_⟩
  · rw [Nat.zero_add, decoyMemory]
    split_ifs with hlt
    · simp
    · have := ne_at_commonSuffix (P := P) (m := pattern.length) (i := pattern.length - 1 - s)
        (by omega)
      rw [← hr] at this
      rwa [show pattern.length - 1 - s - r = pattern.length - 1 - r - s by omega] at this
  · rw [Nat.zero_add, decoyMemory, if_neg (by omega)]
    have := eq_of_lt_commonSuffix (P := P) (m := pattern.length) (i := pattern.length - 1 - s)
      (t := pattern.length - 1 - k) (by omega)
    rwa [show pattern.length - 1 - s - (pattern.length - 1 - k) = k - s by omega,
      show pattern.length - 1 - (pattern.length - 1 - k) = k by omega] at this

theorem lt_goodSuffixTable {P : Nat → UInt8} {m s : Nat} (hs : 0 < s) (hsm : s < m)
    (hpos : 0 < commonSuffix P m (m - 1 - s))
    (hnone : ∀ i' < m - 1, m - 1 - s < i' →
      commonSuffix P m i' + 1 ≠ commonSuffix P m (m - 1 - s)) :
    s < goodSuffixTable P m (m - 1 - commonSuffix P m (m - 1 - s) + 1) := by
  have hle := commonSuffix_le (P := P) (m := m) (i := m - 1 - s)
  rw [← Nat.not_le, goodSuffixTable_le_iff (by omega) hsm]
  rintro ⟨s', h₁, h₂, hgood⟩
  rcases (goodShift_iff (by omega) h₁ (by omega)).mp hgood with h | ⟨-, h⟩
  · rcases Nat.eq_or_lt_of_le h₂ with rfl | hlt
    · omega
    · exact hnone (m - 1 - s') (by omega) (by omega) (by omega)
  · omega

theorem aobSearch_decoy (env : Env) (base : Nat)
    (hexact : ∀ k, k < pattern.length → mask.getD k 0 ≠ 0)
    {s : Nat} (hs : 0 < s) (hsm : s < pattern.length) {gs : Nat → Nat} {bm : BmTable}
    (hgs : bm.gsShift = some gs)
    (hpos : 0 < commonSuffix (fun k => pattern.getD k 0) pattern.length (pattern.length - 1 - s))
    (hjump : s < gs (pattern.length - 1 - commonSuffix (fun k => pattern.getD k 0) pattern.length
      (pattern.length - 1 - s) + 1)) (b : ScanBuilder) :
    aobSearch env bm pattern mask pattern.length
      (slice (decoyMemory pattern s) 0 (pattern.length + s)) base (pattern.length + s)
      (pattern.length - 1) b = (.ok, b) := by
  obtain ⟨fuel, hfuel⟩ : ∃ fuel, pattern.length + s = fuel + 1 + 1 :=
    ⟨pattern.length + s - 2, by omega⟩
  have hcmp := aobMismatch_slice (decoyMemory pattern s) pattern mask 0
    (n := pattern.length + s) (i := pattern.length - 1) (by omega) (by omega)
  have hmis := mismatchAt_decoyMemory hexact hs hsm
  rw [show 0 + (pattern.length - 1 + 1 - pattern.length) = 0 by omega] at hcmp
  rw [hfuel, aobSearch, ← hfuel, length_slice, if_pos (by omega)]
  cases hfound : aobMismatch pattern mask (slice (decoyMemory pattern s) 0 (pattern.length + s))
      pattern.length (pattern.length - 1) pattern.length with
  | none =>
    rw [hfound] at hcmp
    exact absurd (hmis.not_hit.symm.trans hcmp) (by decide)
  | some j =>
    rw [hfound] at hcmp
    obtain rfl := MismatchAt.unique hmis hcmp
    dsimp only
    have hshift : ∀ c, s < bmShift bm pattern.length c (pattern.length - 1 -
        commonSuffix (fun k => pattern.getD k 0) pattern.length (pattern.length - 1 - s)) := by
      intro c
      rw [← Nat.not_le, bmShift_le_iff hs]
      rintro ⟨-, h⟩
      have := h gs hgs (by omega)
      omega
    have := hshift ((slice (decoyMemory pattern s) 0 (pattern.length + s)).getD
      (pattern.length - 1) 0)
    rw [aobSearch, length_slice, if_neg (by omega)]

theorem aobSearch_short (env : Env) (bm : BmTable) (hay : List UInt8) (baseAddr fuel : Nat)
    (hlt : hay.length < pattern.length) (b : ScanBuilder) :
    aobSearch env bm pattern mask pattern.length hay baseAddr fuel (pattern.length - 1) b =
      (.ok, b) := by
  cases fuel with
  | zero => rfl
  | succ fuel => rw [aobSearch, if_neg (by omega)]

abbrev lureEnv (platform : Platform) (pattern : List UInt8) (start s : Nat) : Env :=
  .readable platform (lureMemory pattern start s) (lureCut pattern.length start s)

def LureLost (platform : Platform) (pid : Int) (pattern mask : List UInt8) (start s : Nat) : Prop :=
  ∀ range, pattern.length + s ≤ range → ∀ b : ScanBuilder,
    b.Ready (lureEnv platform pattern start s) →
    ∃ b', scanAobRange (lureEnv platform pattern start s)
        (bmBuildTable (lureEnv platform pattern start s) pattern mask pattern.length) pattern mask
        pattern.length pid start range b = (.ok, b') ∧ Grew b [] b'

def decoyRequest (pattern : List UInt8) (hlt : pattern.length < 2 ^ 32) (s : Nat) : AobRequest where
  pid := 1
  start := 0
  length := pattern.length + s
  maxResults := pattern.length
  patternLength := pattern.length
  maxResults_lt := hlt
  patternLength_lt := hlt

theorem exactTurn_lure (platform : Platform) {pid : Int} (hpid : 0 < pid) (start len : Nat)
    (hexact : ∀ k, k < pattern.length → mask.getD k 0 ≠ 0)
    {s : Nat} (hs : 0 < s) (hsm : s < pattern.length)
    (hbound : s < min (scanChunk platform) (len + 1 - pattern.length))
    {gs : Nat → Nat} {bm : BmTable} (hgs : bm.gsShift = some gs)
    (hpos : 0 < commonSuffix (fun k => pattern.getD k 0) pattern.length (pattern.length - 1 - s))
    (hjump : s < gs (pattern.length - 1 - commonSuffix (fun k => pattern.getD k 0) pattern.length
      (pattern.length - 1 - s) + 1))
    (now scanned : Nat) (hscanned : scanned < len)
    (hC : scanned ≤ pattern.length - 1 ∨ pattern.length + s ≤ scanned) :
    ∃ k, (scanned + k ≤ pattern.length - 1 ∨ pattern.length + s ≤ scanned + k) ∧
      ExactTurn (lureEnv platform pattern start s)
        (aobChunkScan (lureEnv platform pattern start s) bm pattern mask pattern.length pid)
        (lureMemory pattern start s) (fun _ => false) start len pattern.length now scanned k := by
  have hnone : ∀ a n, hits (fun _ => false) a n = [] := fun a n => hits_eq_nil fun _ _ _ => rfl
  have hsize := scanReadSize_pos (show 0 < len - scanned by omega) (scanChunk_pos platform)
  have hsize_le := scanReadSize_le_remaining (len - scanned) (scanChunk platform)
  have hread := memoryRead_readable platform (lureMemory pattern start s)
    (lureCut pattern.length start s) hpid now (start + scanned) hsize
  generalize hn : scanReadSize (len - scanned) (scanChunk platform) = n at *
  rcases Nat.lt_or_ge scanned (pattern.length - 1) with hlt | hge
  · -- up to one byte before the first complete window
    have hk : max 1 (min n (lureCut pattern.length start s (start + scanned) n)) =
        min n (pattern.length - 1 - scanned) := by
      unfold lureCut
      split_ifs <;> omega
    rw [hk] at hread
    refine ⟨min n (pattern.length - 1 - scanned), .inl (by omega), by omega, by omega,
      hn ▸ hread, fun b hb => ⟨b, ?_, ?_⟩⟩
    · exact aobSearch_short _ _ _ _ _ (by rw [length_slice]; omega) b
    · rw [hnone]
      exact .refl hb.toValid
  rcases Nat.eq_or_lt_of_le hge with heq | hgt
  · -- the rest of the decoy at once
    have hle : s + 1 ≤ n := by
      rw [← hn, ← heq]
      unfold scanReadSize
      split_ifs <;> omega
    have hk : max 1 (min n (lureCut pattern.length start s (start + scanned) n)) = s + 1 := by
      unfold lureCut
      split_ifs <;> omega
    rw [hk] at hread
    refine ⟨s + 1, .inr (by omega), by omega, by omega, hn ▸ hread, fun b hb => ⟨b, ?_, ?_⟩⟩
    · have hwin : windowBase start pattern.length scanned = start := by
        unfold windowBase
        omega
      rw [hwin, show min scanned (pattern.length - 1) + (s + 1) = pattern.length + s by omega,
        slice_lureMemory]
      have := aobSearch_decoy (lureEnv platform pattern start s) start hexact hs hsm hgs hpos
        hjump b
      simpa only [aobChunkScan, length_slice] using this
    · rw [hnone]
      exact .refl hb.toValid
  · -- behind the decoy there is nothing to find
    have hk : max 1 (min n (lureCut pattern.length start s (start + scanned) n)) = n := by
      unfold lureCut
      split_ifs <;> omega
    rw [hk] at hread
    refine ⟨n, .inr (by omega), hsize, by omega, hn ▸ hread, fun b hb => ⟨b, ?_, ?_⟩⟩
    · refine aobSearch_none _ _ (fun a ha _ => ?_) (by omega) _ b
      refine aobHit_lureMemory_of_lt (by omega) hexact ?_
      unfold windowBase at ha
      omega
    · rw [hnone]
      exact .refl hb.toValid

theorem scanAobRange_lure {platform : Platform} {pid : Int} (hpid : 0 < pid) (start : Nat)
    {len : Nat}
    (hbad : ¬ AobSafe (min (scanChunk platform) (len + 1 - pattern.length)) pattern mask) :
    ∃ s, 0 < s ∧ s < pattern.length ∧ pattern.length + s ≤ len ∧
      (∀ k, k < pattern.length → mask.getD k 0 ≠ 0) ∧
      LureLost platform pid pattern mask start s := by
  rw [AobSafe, not_or, not_or, Bool.not_eq_false, allExact_iff, GoodSuffixSafe] at hbad
  obtain ⟨hall, hlong, hgs⟩ := hbad
  push Not at hgs
  obtain ⟨i, hi, hchunk, hpos, hnone⟩ := hgs
  rw [bmGsMinLength] at hlong
  obtain ⟨s, hs, hsm, rfl⟩ : ∃ s, 0 < s ∧ s < pattern.length ∧ i = pattern.length - 1 - s :=
    ⟨pattern.length - 1 - i, by omega, by omega, by omega⟩
  refine ⟨s, hs, hsm, by omega, hall, fun range hrange b hb => ?_⟩
  have htable : (bmBuildTable (lureEnv platform pattern start s) pattern mask
      pattern.length).gsShift = some
        (goodSuffixTable (fun k => pattern.getD k 0) pattern.length) := by
    rw [bmBuildTable, if_pos (allExact_iff.mpr hall), bmBuildGsTable, bmGsMinLength, if_neg hlong]
    rfl
  have hturn := exactTurn_lure platform hpid start range hall hs hsm (by omega)
    htable hpos (lt_goodSuffixTable hs hsm hpos hnone)
  obtain ⟨b', hrun, hgrew⟩ := chunkScan_of_turns
    (fun scanned => scanned ≤ pattern.length - 1 ∨ pattern.length + s ≤ scanned)
    (.inl (Nat.zero_le _)) (show 0 < pattern.length by omega)
    (show (if pattern.length > 1 then pattern.length - 1 else 0) = pattern.length - 1 by
      split_ifs <;> omega) (scanChunk_pos platform) (.inl rfl) hturn hb
  rw [hits_eq_nil fun _ _ _ => rfl] at hgrew
  exact ⟨b', by rw [scanAobRange, if_neg (by omega)]; exact hrun, hgrew⟩

theorem safe_of_aobExact {platform : Platform} (hlt : pattern.length < 2 ^ 32)
    (hexact : AobExact platform pattern mask) : AobSafe (scanChunk platform) pattern mask := by
  by_contra hbad
  -- a range long enough for every shift below the chunk size
  have hbad' : ¬ AobSafe (min (scanChunk platform)
      (pattern.length + scanChunk platform + 1 - pattern.length)) pattern mask := by
    rwa [Nat.min_eq_left (by omega)]
  obtain ⟨s, hs, hsm, -, hall, hlost⟩ := scanAobRange_lure (show (0 : Int) < 1 by decide) 0 hbad'
  let env := Env.readable platform (lureMemory pattern 0 s) (lureCut pattern.length 0 s)
  obtain ⟨b', hrun, hgrew⟩ := hlost (pattern.length + s) (Nat.le_refl _) _
    ((decoyRequest pattern hlt s).ready_builder env)
  have hbounds : scanBoundsValid 0 (pattern.length + s) pattern.length = true := by
    rw [scanBoundsValid_iff, scanMaxLength]
    omega
  obtain ⟨r, hr, hnil⟩ := memdbgScanAob_of_grew (decoyRequest pattern hlt s) pattern mask rfl rfl
    hbounds (show 0 < pattern.length by omega) .zero hrun hgrew
  have hfound := hexact env (lureMemory pattern 0 s) (decoyRequest pattern hlt s) .zero rfl rfl rfl
    rfl hbounds (shortReads_readable _ _ _ (show (0 : Int) < 1 by decide) _ _) (by
      refine Nat.le_trans (length_hits_le _ _) ?_
      simp only [decoyRequest]
      omega)
  obtain ⟨r', hr', hmem, -⟩ := hfound
  obtain rfl : r = r' := by
    rw [hr] at hr'
    exact (Prod.mk.inj (Option.some.inj hr')).2
  -- the occurrence at `s` is inside the range
  have hhit := aobHit_lureMemory pattern mask 0 s
  rw [Nat.zero_add] at hhit
  have := (hmem s).mpr ⟨Nat.zero_le _, by simp only [decoyRequest]; omega, aobHit_iff.mp hhit⟩
  rw [hnil, take_nil] at this
  exact absurd this not_mem_nil

end Lost

/-- **When `memdbg_scan_aob` is exact.**  Exactly for the patterns with a wildcard,
the patterns of fewer than four bytes, and those on which reading entry `j + 1`
instead of entry `j` of the good-suffix table makes no difference. -/
theorem aobExact_iff (platform : Platform) (pattern mask : List UInt8)
    (hpos : 0 < pattern.length) (hlt : pattern.length < 2 ^ 32)
    (hmask : mask.length = pattern.length) :
    AobExact platform pattern mask ↔
      (∃ j, j < mask.length ∧ mask.getD j 0 = 0) ∨ pattern.length < 4 ∨
        GoodSuffixSafe (scanChunk platform) pattern := by
  have hwild : (∃ j, j < mask.length ∧ mask.getD j 0 = 0) ↔
      allExact mask pattern.length = false := by
    rw [← Bool.not_eq_true, allExact_iff, hmask]
    push Not
    rfl
  rw [hwild]
  exact ⟨safe_of_aobExact hlt, aobExact_of_safe hpos⟩

def ababMemory (a : Nat) : UInt8 := [120, 120, 97, 98, 97, 98].getD a 0

def ababRequest : AobRequest := ⟨1, 0, 6, 8, 4, by decide, by decide⟩

theorem aobExact_abab_lost :
    aobHit ababMemory [97, 98, 97, 98] [255, 255, 255, 255] 2 = true ∧
      (memdbgScanAob (.readable .host ababMemory fun _ n => n) ababRequest [97, 98, 97, 98]
        [255, 255, 255, 255] .zero).map (fun x => (x.1, x.2.reported)) = some (.ok, []) ∧
      ¬ AobExact .host [97, 98, 97, 98] [255, 255, 255, 255] := by
  have hnone : (memdbgScanAob (.readable .host ababMemory fun _ n => n) ababRequest [97, 98, 97, 98]
      [255, 255, 255, 255] .zero).map (fun x => (x.1, x.2.reported)) = some (.ok, []) := by decide
  refine ⟨by decide, hnone, fun hexact => ?_⟩
  obtain ⟨r, hrun, hmem, -⟩ :=
    hexact (.readable .host ababMemory fun _ n => n) ababMemory ababRequest
    .zero rfl rfl rfl rfl (by decide) (shortReads_readable .host ababMemory _ (by decide) _ _)
    (by decide)
  rw [hrun, Option.map_some] at hnone
  have := (hmem 2).mpr (by decide)
  rw [(Prod.mk.inj (Option.some.inj hnone)).2] at this
  exact absurd this (by decide)

theorem aobExact_iff_distinct : AobExact .host [1, 2, 3, 4] [255, 255, 255, 255] :=
  (aobExact_iff .host [1, 2, 3, 4] [255, 255, 255, 255] (by decide) (by decide) rfl).mpr
    (.inr (.inr (by decide)))

end MemDbg.Scan
