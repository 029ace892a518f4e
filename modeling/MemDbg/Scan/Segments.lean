import MemDbg.Scan.Api

/-!
# Huge maps

`parallel_worker_thread` cuts a map into segments of `MEMDBG_SCAN_MAX_LENGTH` bytes
and scans each as if it were a map of its own: nothing is carried over a cut, and
alignment counts from the start of the segment.  `mapCovered_iff` says which
occurrences that loses.
-/

namespace MemDbg.Scan

open List Lib

/-! ## The cuts -/

def segmentOffset (start a : Nat) : Nat := (a - start) % scanMaxLength

section Cuts

variable {m start len a : Nat}

theorem mem_segments (hm : m ≤ scanMaxLength) {fuel cursor remaining : Nat}
    (hfuel : remaining ≤ fuel * scanMaxLength) {r : Nat × Nat} :
    r ∈ segments m fuel cursor remaining ↔
      ∃ k, k * scanMaxLength < remaining ∧ r.1 = cursor + k * scanMaxLength ∧
        r.2 = min scanMaxLength (remaining - k * scanMaxLength) ∧ m ≤ r.2 := by
  obtain ⟨r₁, r₂⟩ := r
  induction fuel generalizing cursor remaining with
  | zero =>
    rw [segments]
    refine ⟨fun h => absurd h not_mem_nil, ?_⟩
    rintro ⟨k, hk, -⟩
    omega
  | succ fuel ih =>
    have hlen : (if remaining > scanMaxLength then scanMaxLength else remaining) =
        min scanMaxLength remaining := by
      split_ifs <;> omega
    rw [segments]
    simp only [hlen]
    -- the value of the segment length does not matter
    generalize scanMaxLength = limit at *
    by_cases hrem : remaining = 0
    · rw [if_neg (not_not_intro hrem)]
      refine ⟨fun h => absurd h not_mem_nil, ?_⟩
      rintro ⟨k, hk, -⟩
      omega
    rw [if_pos hrem]
    by_cases hshort : min limit remaining < m
    · -- only the last segment can be too short
      rw [if_pos hshort]
      refine ⟨fun h => absurd h not_mem_nil, ?_⟩
      rintro ⟨k, -, -, hr, hle⟩
      omega
    have hrest : remaining - min limit remaining ≤ fuel * limit := by
      rw [Nat.succ_mul] at hfuel
      omega
    rw [if_neg hshort, mem_cons, ih hrest, Prod.mk.injEq]
    constructor
    · rintro (⟨rfl, rfl⟩ | ⟨k, hk, hstart, hr, hle⟩)
      · refine ⟨0, ?_, ?_, ?_, ?_⟩ <;> omega
      · refine ⟨k + 1, ?_, ?_, ?_, hle⟩ <;> rw [Nat.succ_mul] <;> omega
    · rintro ⟨k, hk, hstart, hr, hle⟩
      cases k with
      | zero =>
        rw [Nat.zero_mul] at hstart hr
        exact .inl ⟨hstart, hr⟩
      | succ k =>
        rw [Nat.succ_mul] at hk hstart hr
        exact .inr ⟨k, by omega, by omega, by omega, hle⟩

theorem segmentFuel_enough (len : Nat) : len ≤ segmentFuel len * scanMaxLength := by
  have hdiv := Nat.div_add_mod len scanMaxLength
  have hmod := Nat.mod_lt len (show 0 < scanMaxLength by decide)
  rw [segmentFuel, Nat.succ_mul, Nat.mul_comm]
  generalize scanMaxLength * (len / scanMaxLength) = c at *
  omega

theorem segment_bounds (hm : m ≤ scanMaxLength) {r : Nat × Nat}
    (hr : r ∈ segments m (segmentFuel len) start len) :
    start ≤ r.1 ∧ r.1 + r.2 ≤ start + len ∧ r.2 ≤ scanMaxLength ∧ m ≤ r.2 := by
  obtain ⟨k, hk, hstart, hlen, hle⟩ := (mem_segments hm (segmentFuel_enough len)).mp hr
  generalize k * scanMaxLength = c at *
  omega

theorem segmentOffset_of_inside (hpos : 0 < m) (hm : m ≤ scanMaxLength) {r : Nat × Nat}
    (hr : r ∈ segments m (segmentFuel len) start len) (hlo : r.1 ≤ a) (hhi : a + m ≤ r.1 + r.2) :
    a - r.1 = segmentOffset start a ∧ segmentOffset start a + m ≤ scanMaxLength := by
  obtain ⟨k, hk, hstart, hlen, hle⟩ := (mem_segments hm (segmentFuel_enough len)).mp hr
  have hsplit : a - start = a - r.1 + k * scanMaxLength := by
    generalize k * scanMaxLength = c at *
    omega
  have hoffset : a - r.1 = segmentOffset start a := by
    rw [segmentOffset, hsplit, Nat.add_mul_mod_self_right, Nat.mod_eq_of_lt]
    generalize k * scanMaxLength = c at *
    omega
  refine ⟨hoffset, ?_⟩
  rw [← hoffset]
  generalize k * scanMaxLength = c at *
  omega

theorem exists_segment (hm : m ≤ scanMaxLength) (hpos : 0 < m) (hlo : start ≤ a)
    (hhi : a + m ≤ start + len) (hcut : segmentOffset start a + m ≤ scanMaxLength) :
    ∃ r ∈ segments m (segmentFuel len) start len, r.1 ≤ a ∧ a + m ≤ r.1 + r.2 := by
  have hdiv := Nat.div_add_mod (a - start) scanMaxLength
  rw [Nat.mul_comm] at hdiv
  rw [segmentOffset] at hcut
  refine ⟨(start + (a - start) / scanMaxLength * scanMaxLength,
    min scanMaxLength (len - (a - start) / scanMaxLength * scanMaxLength)),
    (mem_segments hm (segmentFuel_enough len)).mpr ⟨(a - start) / scanMaxLength, ?_, rfl, rfl, ?_⟩,
    ?_, ?_⟩ <;>
  generalize (a - start) / scanMaxLength * scanMaxLength = c at * <;> omega

end Cuts

/-! ## What a worker covers -/

/-- Nothing but the memory gets in the way: allocations succeed and no cancel
request arrives. -/
structure Undisturbed (env : Env) : Prop where
  alloc : ∀ site, site ≠ .threads → env.alloc site = true
  cancelRequested : ∀ now, env.cancelRequested now = false

/-- Every worker that has the map among its maps succeeds, and reports each wanted
address unless the result limit dropped one. -/
def MapCovered (env : Env) (scanFn : ScanFn) (pid : Int) (mem : Nat → UInt8) (f : MapFilter)
    (map : MapEntry) (wanted : Nat → Prop) : Prop :=
  ∀ maps maxResults progress t now, map ∈ maps → ReadableMaps env pid mem f maps →
    maxResults < 2 ^ 64 →
    (parallelWorkerThread env scanFn f maxResults progress t now maps).status = .ok ∧
      ((parallelWorkerThread env scanFn f maxResults progress t now maps).result.truncated = false →
        ∀ a, wanted a → a ∈
          (parallelWorkerThread env scanFn f maxResults progress t now maps).result.reported)

/-- The value stands at `a`, inside the range and aligned from its start. -/
structure ValueOccurs (mem : Nat → UInt8) (ctx : ScanContext) (start len a : Nat) : Prop where
  start_le : start ≤ a
  le_end : a + ctx.valueLen ≤ start + len
  aligned : (a - start) % ctx.alignment = 0
  eq_value : slice mem a ctx.valueLen = ctx.value

/-- The masked pattern stands at `a`, inside the range. -/
structure PatternOccurs (mem : Nat → UInt8) (pattern mask : List UInt8) (start len a : Nat) :
    Prop where
  start_le : start ≤ a
  le_end : a + pattern.length ≤ start + len
  hit : aobHit mem pattern mask a = true

section Worker

variable {env : Env} {scanFn : ScanFn} {pid : Int} {mem : Nat → UInt8} {f : MapFilter}
  {map : MapEntry} {maps : List MapEntry} {start len : Nat}

theorem mem_ranges {r : Nat × Nat} :
    r ∈ f.ranges maps ↔ ∃ map ∈ maps, ∃ start len, f.clip map = some (start, len) ∧
      r ∈ segments f.minMapLen (segmentFuel len) start len := by
  rw [MapFilter.ranges, mem_flatMap]
  refine exists_congr fun map => and_congr_right fun _ => ?_
  cases f.clip map with
  | none => simp
  | some range =>
    obtain ⟨start, len⟩ := range
    simp

theorem ranges_singleton (hclip : f.clip map = some (start, len)) :
    f.ranges [map] = segments f.minMapLen (segmentFuel len) start len := by
  simp only [MapFilter.ranges, flatMap_singleton, hclip]

theorem ReadableMaps.range (hmaps : ReadableMaps env pid mem f maps) (hpos : 0 < f.minMapLen)
    (hmin : f.minMapLen ≤ scanMaxLength) {r : Nat × Nat} (hr : r ∈ f.ranges maps) :
    scanBoundsValid r.1 r.2 f.minMapLen = true ∧ ShortReads env pid mem r.1 (r.1 + r.2) := by
  obtain ⟨map, hmap, start, len, hclip, hseg⟩ := mem_ranges.mp hr
  obtain ⟨hend, hreads⟩ := hmaps map hmap
  obtain ⟨-, hle, -, -⟩ := clip_bounds hclip
  obtain ⟨hlo, hhi, hmax, hlen⟩ := segment_bounds hmin hseg
  refine ⟨scanBoundsValid_iff.mpr ⟨by omega, hlen, hmax, by omega⟩, ?_⟩
  exact fun now address n h₁ h₂ => hreads start len hclip now address n (by omega) (by omega)

variable {outcome : Nat → Nat → List Nat × Status → Prop} {wanted : Nat → Prop}
  {rs : List (Nat × Nat)} {r : List Nat × Status}

theorem Outcomes.joined (hok : ∀ start len r, outcome start len r → r.2 = .ok)
    (h : Outcomes outcome rs r) :
    r.2 = .ok ∧
      (∀ range ∈ rs, ∃ r', outcome range.1 range.2 r' ∧ ∀ a ∈ r'.1, a ∈ r.1) ∧
      (∀ a ∈ r.1, ∃ range ∈ rs, ∃ r', outcome range.1 range.2 r' ∧ a ∈ r'.1) := by
  induction h with
  | nil => exact ⟨rfl, fun _ h => absurd h not_mem_nil, fun _ h => absurd h not_mem_nil⟩
  | stop h herr => exact absurd (hok _ _ _ h) herr
  | step h _ ih =>
    obtain ⟨hst, hin, hout⟩ := ih
    refine ⟨hst, ?_, ?_⟩
    · intro range hrange
      rcases mem_cons.mp hrange with rfl | hrange
      · exact ⟨_, h, fun a ha => mem_append_left _ ha⟩
      · obtain ⟨r', hr', hsub⟩ := hin range hrange
        exact ⟨r', hr', fun a ha => mem_append_right _ (hsub a ha)⟩
    · intro a ha
      rcases mem_append.mp ha with ha | ha
      · exact ⟨_, mem_cons_self, _, h, ha⟩
      · obtain ⟨range, hrange, hr'⟩ := hout a ha
        exact ⟨range, mem_cons_of_mem _ hrange, hr'⟩

theorem Outcomes.length_segments {m fuel cursor remaining : Nat}
    (hlen : ∀ range ∈ segments m fuel cursor remaining, ∀ r, outcome range.1 range.2 r →
      r.1.length ≤ range.2)
    (h : Outcomes outcome (segments m fuel cursor remaining) r) : r.1.length ≤ remaining := by
  induction fuel generalizing cursor remaining r with
  | zero =>
    cases h with
    | nil => exact Nat.zero_le _
  | succ fuel ih =>
    rw [segments] at h hlen
    dsimp only at h hlen
    have hle : (if remaining > scanMaxLength then scanMaxLength else remaining) ≤ remaining := by
      split_ifs <;> omega
    generalize (if remaining > scanMaxLength then scanMaxLength else remaining) = n at *
    split_ifs at h hlen with hrem hshort
    · cases h with
      | nil => exact Nat.zero_le _
    · rw [forall_mem_cons] at hlen
      cases h with
      | stop h => exact Nat.le_trans (hlen.1 _ h) hle
      | step h hrest =>
        have hfirst := hlen.1 _ h
        have hothers := ih hlen.2 hrest
        rw [length_append]
        dsimp only at *
        omega
    · cases h with
      | nil => exact Nat.zero_le _

theorem mapCovered_of_hits (henv : Undisturbed env)
    (hok : ∀ start len r, outcome start len r → r.2 = .ok)
    (hscan : ∀ maps, ReadableMaps env pid mem f maps → ∀ range ∈ f.ranges maps,
      AppendsAt env scanFn outcome range.1 range.2)
    (hwanted : ∀ a, wanted a →
      ∃ range ∈ f.ranges [map], ∀ r, outcome range.1 range.2 r → a ∈ r.1) :
    MapCovered env scanFn pid mem f map wanted := by
  intro maps maxResults progress t now hmap hmaps hmax
  obtain ⟨r, hr, hspec⟩ := parallelWorkerThread_spec henv.cancelRequested henv.alloc f hmax
    progress t now maps (hscan maps hmaps)
  obtain ⟨hst, hin, -⟩ := hr.joined hok
  refine ⟨hspec.status_eq.trans hst, fun htruncated a ha => ?_⟩
  obtain ⟨range, hrange, hhit⟩ := hwanted a ha
  obtain ⟨map', hmap', start, len, hclip, hseg⟩ := mem_ranges.mp hrange
  obtain rfl := mem_singleton.mp hmap'
  obtain ⟨r', hr', hsub⟩ := hin range (mem_ranges.mpr ⟨map', hmap, start, len, hclip, hseg⟩)
  rw [hspec.truncated_eq, decide_eq_false_iff_not, Nat.not_lt] at htruncated
  rw [hspec.reported_eq, take_of_length_le htruncated]
  exact hsub a (hhit r' hr')

theorem hits_of_mapCovered (henv : Undisturbed env)
    (hok : ∀ start len r, outcome start len r → r.2 = .ok)
    (hlen : ∀ range ∈ f.ranges [map], ∀ r, outcome range.1 range.2 r → r.1.length ≤ range.2)
    (hscan : ∀ range ∈ f.ranges [map], AppendsAt env scanFn outcome range.1 range.2)
    (hmap : ReadableMaps env pid mem f [map]) (hclip : f.clip map = some (start, len))
    (hcovered : MapCovered env scanFn pid mem f map wanted) {a : Nat} (ha : wanted a) :
    ∃ range ∈ f.ranges [map], ∃ r, outcome range.1 range.2 r ∧ a ∈ r.1 := by
  -- a limit the hits of one map cannot exceed
  obtain ⟨limit, hmax, hlimit⟩ : ∃ limit, limit < 2 ^ 64 ∧ 2 ^ 64 ≤ limit + 1 :=
    ⟨2 ^ 64 - 1, by omega, by omega⟩
  obtain ⟨r, hr, hspec⟩ := parallelWorkerThread_spec henv.cancelRequested henv.alloc f hmax
    none 0 0 [map] hscan
  obtain ⟨hend, -⟩ := hmap map (mem_singleton_self map)
  obtain ⟨-, hle, -, -⟩ := clip_bounds hclip
  rw [ranges_singleton hclip] at hr hlen ⊢
  have hfew := hr.length_segments hlen
  obtain ⟨-, hreported⟩ := hcovered [map] _ none 0 0 (mem_singleton_self map) hmap hmax
  have hmem := hreported (by
    rw [hspec.truncated_eq, decide_eq_false_iff_not]
    omega) a ha
  rw [hspec.reported_eq] at hmem
  obtain ⟨-, -, hout⟩ := hr.joined hok
  exact hout a (mem_of_mem_take hmem)

end Worker

/-! ## Values -/

section Value

variable {env : Env} {ctx : ScanContext} {mem : Nat → UInt8} {f : MapFilter} {map : MapEntry}
  {start len : Nat}

def valueHits (mem : Nat → UInt8) (ctx : ScanContext) (start len : Nat) : List Nat :=
  hits (exactHit mem ctx start) start (len + 1 - ctx.valueLen)

theorem mem_valueHits {a : Nat} :
    a ∈ valueHits mem ctx start len ↔ start ≤ a ∧ a + ctx.valueLen ≤ start + len ∧
      (a - start) % ctx.alignment = 0 ∧ slice mem a ctx.valueLen = ctx.value := by
  rw [valueHits, mem_hits, exactHit, Bool.and_eq_true, beq_iff_eq, beq_iff_eq]
  constructor
  · rintro ⟨⟨hlo, hhi⟩, haligned, hvalue⟩
    exact ⟨hlo, by omega, haligned, hvalue⟩
  · rintro ⟨hlo, hhi, haligned, hvalue⟩
    exact ⟨⟨hlo, by omega⟩, haligned, hvalue⟩

theorem length_valueHits_le (start len : Nat) : (valueHits mem ctx start len).length ≤ len := by
  have hpos := ctx.valueLen_pos
  have := length_hits_le (p := exactHit mem ctx start) start (len + 1 - ctx.valueLen)
  rw [valueHits]
  omega

theorem valueLen_le_scanMaxLength (ctx : ScanContext) : ctx.valueLen ≤ scanMaxLength :=
  Nat.le_trans ctx.valueLen_le (by decide)

structure ValueOutcome (mem : Nat → UInt8) (ctx : ScanContext) (start len : Nat)
    (r : List Nat × Status) : Prop where
  hits_eq : r.1 = valueHits mem ctx start len
  status_eq : r.2 = .ok

theorem appendsAt_scanRangeCb (henv : Undisturbed env) (hmin : f.minMapLen = ctx.valueLen)
    {maps : List MapEntry} (hmaps : ReadableMaps env ctx.pid mem f maps) {range : Nat × Nat}
    (hrange : range ∈ f.ranges maps) :
    AppendsAt env (scanRangeCb env ctx) (ValueOutcome mem ctx) range.1 range.2 := by
  intro b hb
  obtain ⟨hbounds, hreads⟩ := hmaps.range (hmin ▸ ctx.valueLen_pos)
    (hmin ▸ valueLen_le_scanMaxLength ctx) hrange
  rw [hmin] at hbounds
  obtain ⟨b', hrun, hgrew⟩ := scanRange_grew true hb henv.cancelRequested hbounds
    (Nat.le_refl _) hreads
  exact ⟨(_, .ok), b', ⟨rfl, rfl⟩, hrun, hgrew⟩

/-- An aligned occurrence keeps clear of the cuts: it reaches over none, and it is
aligned from the last cut before it, too. -/
structure ClearOfCuts (start valueLen alignment a : Nat) : Prop where
  inside : segmentOffset start a + valueLen ≤ scanMaxLength
  aligned : segmentOffset start a % alignment = 0

theorem ValueOccurs.hit_iff {a : Nat} (ha : ValueOccurs mem ctx start len a) :
    (∃ range ∈ segments ctx.valueLen (segmentFuel len) start len,
      a ∈ valueHits mem ctx range.1 range.2) ↔
      ClearOfCuts start ctx.valueLen ctx.alignment a := by
  have hmax := valueLen_le_scanMaxLength ctx
  constructor
  · rintro ⟨range, hrange, hhit⟩
    obtain ⟨hlo, hhi, haligned, -⟩ := mem_valueHits.mp hhit
    obtain ⟨hoffset, hinside⟩ := segmentOffset_of_inside ctx.valueLen_pos hmax hrange hlo hhi
    exact ⟨hinside, hoffset ▸ haligned⟩
  · rintro ⟨hinside, haligned⟩
    obtain ⟨range, hrange, hlo, hhi⟩ :=
      exists_segment hmax ctx.valueLen_pos ha.start_le ha.le_end hinside
    obtain ⟨hoffset, -⟩ := segmentOffset_of_inside ctx.valueLen_pos hmax hrange hlo hhi
    exact ⟨range, hrange, mem_valueHits.mpr ⟨hlo, hhi, by rw [hoffset, haligned], ha.eq_value⟩⟩

theorem clearOfCuts_of_mapCovered (henv : Undisturbed env) (hmin : f.minMapLen = ctx.valueLen)
    (hmap : ReadableMaps env ctx.pid mem f [map]) (hclip : f.clip map = some (start, len))
    (hcovered : MapCovered env (scanRangeCb env ctx) ctx.pid mem f map
      (ValueOccurs mem ctx start len)) {a : Nat} (ha : ValueOccurs mem ctx start len a) :
    ClearOfCuts start ctx.valueLen ctx.alignment a := by
  obtain ⟨range, hrange, r, hr, hhit⟩ := hits_of_mapCovered henv (fun _ _ _ h => h.status_eq)
    (fun range _ r h => by rw [h.hits_eq]; exact length_valueHits_le _ _)
    (fun range hrange => appendsAt_scanRangeCb henv hmin hmap hrange) hmap hclip hcovered ha
  rw [ranges_singleton hclip, hmin] at hrange
  exact ha.hit_iff.mp ⟨range, hrange, hr.hits_eq ▸ hhit⟩

theorem valueCovered_iff (henv : Undisturbed env) (hmin : f.minMapLen = ctx.valueLen)
    (hmap : ReadableMaps env ctx.pid mem f [map]) (hclip : f.clip map = some (start, len)) :
    MapCovered env (scanRangeCb env ctx) ctx.pid mem f map (ValueOccurs mem ctx start len) ↔
      ∀ a, ValueOccurs mem ctx start len a → ClearOfCuts start ctx.valueLen ctx.alignment a := by
  refine ⟨fun h a => clearOfCuts_of_mapCovered henv hmin hmap hclip h, fun hclear => ?_⟩
  refine mapCovered_of_hits henv (fun _ _ _ h => h.status_eq)
    (fun maps hmaps range hrange => appendsAt_scanRangeCb henv hmin hmaps hrange) fun a ha => ?_
  obtain ⟨range, hrange, hhit⟩ := ha.hit_iff.mpr (hclear a ha)
  rw [← hmin, ← ranges_singleton hclip] at hrange
  exact ⟨range, hrange, fun r hr => hr.hits_eq ▸ hhit⟩

end Value

/-! ## Patterns -/

section Pattern

variable {env : Env} {pattern mask : List UInt8} {mem : Nat → UInt8} {pid : Int} {f : MapFilter}
  {map : MapEntry} {start len : Nat}

theorem aobSearch_grows (env : Env) (bm : BmTable) (pattern mask hay : List UInt8)
    (patLen base fuel i : Nat) {b : ScanBuilder} (hb : b.Ready env) :
    ∃ hs b', aobSearch env bm pattern mask patLen hay base fuel i b = (.ok, b') ∧ Grew b hs b' := by
  induction fuel generalizing i b with
  | zero => exact ⟨[], b, rfl, .refl hb.toValid⟩
  | succ fuel ih =>
    by_cases hlt : i < hay.length
    · rw [aobSearch, if_pos hlt]
      cases aobMismatch pattern mask hay patLen i patLen with
      | none =>
        obtain ⟨b₁, hrun₁, hgrew₁⟩ := scanBuilderAppend_grew hb (base + (i + 1 - patLen))
        obtain ⟨hs, b₂, hrun₂, hgrew₂⟩ := ih (i + 1) (hgrew₁.ready hb)
        refine ⟨_, b₂, ?_, hgrew₁.trans hgrew₂⟩
        simp only [hrun₁]
        exact hrun₂
      | some j => exact ih _ hb
    · exact ⟨[], b, by rw [aobSearch, if_neg hlt], .refl hb.toValid⟩

def patternHits (mem : Nat → UInt8) (pattern mask : List UInt8) (start len : Nat) : List Nat :=
  hits (aobHit mem pattern mask) start (len + 1 - pattern.length)

structure PatternOutcome (mem : Nat → UInt8) (pattern mask : List UInt8) (bound start len : Nat)
    (r : List Nat × Status) : Prop where
  hits_eq : len ≤ bound → r.1 = patternHits mem pattern mask start len
  status_eq : r.2 = .ok

theorem length_patternHits_le (hpos : 0 < pattern.length) (start len : Nat) :
    (patternHits mem pattern mask start len).length ≤ len := by
  have := length_hits_le (p := aobHit mem pattern mask) start (len + 1 - pattern.length)
  rw [patternHits]
  omega

theorem appendsAt_scanAobCb {maps : List MapEntry} (hpos : 0 < pattern.length)
    (hmax : pattern.length ≤ scanMaxLength) (hmin : f.minMapLen = pattern.length) {bound : Nat}
    (hsafe : AobSafe (min (scanChunk env.platform) (bound + 1 - pattern.length)) pattern mask)
    (hmaps : ReadableMaps env pid mem f maps) {range : Nat × Nat} (hrange : range ∈ f.ranges maps) :
    AppendsAt env (scanAobCb env (bmBuildTable env pattern mask pattern.length) pattern mask
      pattern.length pid) (PatternOutcome mem pattern mask bound) range.1 range.2 := by
  intro b hb
  obtain ⟨hbounds, hreads⟩ := hmaps.range (hmin ▸ hpos) (hmin ▸ hmax) hrange
  obtain ⟨-, hlen, -, -⟩ := scanBoundsValid_iff.mp hbounds
  rw [hmin] at hlen
  by_cases hle : range.2 ≤ bound
  · have hsafe' := hsafe.mono (show min (scanChunk env.platform) (range.2 + 1 - pattern.length) ≤
      min (scanChunk env.platform) (bound + 1 - pattern.length) by omega)
    obtain ⟨b', hrun, hgrew⟩ := scanAobRange_grew hpos hlen hsafe' hreads hb
    exact ⟨(_, .ok), b', ⟨fun _ => rfl, rfl⟩, hrun, hgrew⟩
  · obtain ⟨hs, b', hrun, hgrew⟩ := chunkLoop_grows (c := aobChunkScan env
        (bmBuildTable env pattern mask pattern.length) pattern mask pattern.length pid)
      rfl (.inl rfl)
      (fun b bytes base hb => aobSearch_grows env _ pattern mask bytes pattern.length base
        bytes.length (pattern.length - 1) hb) range.1 range.2 range.2 0 [] hb
    refine ⟨(hs, .ok), b', ⟨fun h => absurd h hle, rfl⟩, ?_, hgrew⟩
    rw [scanAobCb, scanAobRange, if_neg (by omega)]
    exact hrun

theorem PatternOccurs.hit_iff {a : Nat} (hpos : 0 < pattern.length)
    (hmax : pattern.length ≤ scanMaxLength) (ha : PatternOccurs mem pattern mask start len a) :
    (∃ range ∈ segments pattern.length (segmentFuel len) start len,
      a ∈ patternHits mem pattern mask range.1 range.2) ↔
      segmentOffset start a + pattern.length ≤ scanMaxLength := by
  constructor
  · rintro ⟨range, hrange, hhit⟩
    obtain ⟨⟨hlo, hhi⟩, -⟩ := mem_hits.mp hhit
    exact (segmentOffset_of_inside hpos hmax hrange hlo (by omega)).2
  · intro hinside
    obtain ⟨range, hrange, hlo, hhi⟩ := exists_segment hmax hpos ha.start_le ha.le_end hinside
    exact ⟨range, hrange, mem_hits.mpr ⟨⟨hlo, by omega⟩, ha.hit⟩⟩

/-- Each occurrence of a pattern in the map is reported, unless the result is truncated. -/
def PatternCovered (env : Env) (mem : Nat → UInt8) (pid : Int) (pattern mask : List UInt8)
    (f : MapFilter) (map : MapEntry) (start len : Nat) : Prop :=
  MapCovered env (scanAobCb env (bmBuildTable env pattern mask pattern.length) pattern mask
    pattern.length pid) pid mem f map (PatternOccurs mem pattern mask start len)

theorem patternCovered_iff (henv : Undisturbed env) (hpos : 0 < pattern.length)
    (hmax : pattern.length ≤ scanMaxLength) (hmin : f.minMapLen = pattern.length)
    (hmap : ReadableMaps env pid mem f [map]) (hclip : f.clip map = some (start, len))
    (hsafe : AobSafe (min (scanChunk env.platform) (len + 1 - pattern.length)) pattern mask) :
    PatternCovered env mem pid pattern mask f map start len ↔
      ∀ a, PatternOccurs mem pattern mask start len a →
        segmentOffset start a + pattern.length ≤ scanMaxLength := by
  have hshort : ∀ range ∈ f.ranges [map], range.2 ≤ len := by
    intro range hrange
    rw [ranges_singleton hclip, hmin] at hrange
    obtain ⟨-, hhi, -, -⟩ := segment_bounds hmax hrange
    obtain ⟨hlo, -, -, -⟩ := segment_bounds hmax hrange
    omega
  constructor
  · intro hcovered a ha
    obtain ⟨range, hrange, r, hr, hhit⟩ := hits_of_mapCovered henv (fun _ _ _ h => h.status_eq)
      (fun range hrange r h => by
        rw [h.hits_eq (hshort range hrange)]
        exact length_patternHits_le hpos _ _)
      (fun range hrange => appendsAt_scanAobCb hpos hmax hmin hsafe hmap hrange) hmap hclip
      hcovered ha
    rw [hr.hits_eq (hshort range hrange)] at hhit
    rw [ranges_singleton hclip, hmin] at hrange
    exact (ha.hit_iff hpos hmax).mp ⟨range, hrange, hhit⟩
  · intro hinside
    refine mapCovered_of_hits henv (fun _ _ _ h => h.status_eq)
      (fun maps hmaps range hrange => appendsAt_scanAobCb hpos hmax hmin hsafe hmaps hrange)
      fun a ha => ?_
    obtain ⟨range, hrange, hhit⟩ := (ha.hit_iff hpos hmax).mpr (hinside a ha)
    rw [← hmin, ← ranges_singleton hclip] at hrange
    exact ⟨range, hrange, fun r hr => hr.hits_eq (hshort range hrange) ▸ hhit⟩

/-! ### Over all memories -/

def aobPatternMax : Nat := 256

theorem aobPatternMax_le : 2 * aobPatternMax ≤ scanMaxLength := by decide

theorem readableMaps_readable (platform : Platform) (mem : Nat → UInt8) (cut : Nat → Nat → Nat)
    (hpid : 0 < pid) (hend : map.endAddr < 2 ^ 64) :
    ReadableMaps (.readable platform mem cut) pid mem f [map] := by
  intro map' hmap'
  obtain rfl := mem_singleton.mp hmap'
  exact ⟨hend, fun start len _ => shortReads_readable platform mem cut hpid _ _⟩

theorem undisturbed_readable (platform : Platform) (mem : Nat → UInt8) (cut : Nat → Nat → Nat) :
    Undisturbed (.readable platform mem cut) :=
  ⟨fun _ _ => rfl, fun _ => rfl⟩

/-- The map is covered whatever its memory holds and however the reads cut it. -/
def PatternAlwaysCovered (platform : Platform) (pid : Int) (pattern mask : List UInt8)
    (f : MapFilter) (map : MapEntry) (start len : Nat) : Prop :=
  ∀ env mem, env.platform = platform → Undisturbed env → ReadableMaps env pid mem f [map] →
    PatternCovered env mem pid pattern mask f map start len

def NoHits (_start _len : Nat) (r : List Nat × Status) : Prop := r = ([], .ok)

theorem appendsAt_lure {platform : Platform} (hpid : 0 < pid) {s : Nat} (hs : s < pattern.length)
    (hmax : pattern.length ≤ aobPatternMax) (hfits : pattern.length + s ≤ len)
    (hall : ∀ k, k < pattern.length → mask.getD k 0 ≠ 0)
    (hlost : LureLost platform pid pattern mask start s)
    {r : Nat × Nat} (hr : r ∈ segments pattern.length (segmentFuel len) start len) :
    AppendsAt (lureEnv platform pattern start s) (scanAobCb (lureEnv platform pattern start s)
      (bmBuildTable (lureEnv platform pattern start s) pattern mask pattern.length) pattern mask
      pattern.length pid) NoHits r.1 r.2 := by
  have hlimit := aobPatternMax_le
  have hshort : pattern.length ≤ scanMaxLength := by omega
  -- the first segment holds the lure, the others start far behind it
  have hplace : r.1 = start ∧ pattern.length + s ≤ r.2 ∨ start + s < r.1 ∧
    pattern.length ≤ r.2 := by
    obtain ⟨k, hk, hstart, hlen, hle⟩ := (mem_segments hshort (segmentFuel_enough len)).mp hr
    generalize scanMaxLength = limit at *
    cases k with
    | zero =>
      rw [Nat.zero_mul] at hstart hlen
      exact .inl (by omega)
    | succ k =>
      rw [Nat.succ_mul] at hstart
      exact .inr (by omega)
  intro b hb
  rcases hplace with ⟨hstart, hlen⟩ | ⟨hfar, hlen⟩
  · obtain ⟨b', hrun, hgrew⟩ := hlost r.2 hlen b hb
    exact ⟨_, b', rfl, by rw [hstart]; exact hrun, hgrew⟩
  · have hwindow : ExactWindow (lureEnv platform pattern start s)
        (aobChunkScan (lureEnv platform pattern start s)
          (bmBuildTable (lureEnv platform pattern start s) pattern mask pattern.length) pattern mask
          pattern.length pid)
        (lureMemory pattern start s) (fun _ => false) r.1 r.2 pattern.length := by
      intro b base n hb hbase _ _ _
      refine ⟨b, aobSearch_none _ base (fun a ha _ => ?_) (by omega) _ b, ?_⟩
      · exact aobHit_lureMemory_of_lt (by omega) hall (by omega)
      · rw [hits_eq_nil fun _ _ _ => rfl]
        exact .refl hb.toValid
    obtain ⟨b', hrun, hgrew⟩ := chunkScan_grew (show 0 < pattern.length by omega)
      (show (if pattern.length > 1 then pattern.length - 1 else 0) = pattern.length - 1 by
        split_ifs <;> omega) (scanChunk_pos platform) (.inl rfl)
      (shortReads_readable platform (lureMemory pattern start s) _ hpid _ _) hwindow hb
    rw [hits_eq_nil fun _ _ _ => rfl] at hgrew
    exact ⟨_, b', rfl, by rw [scanAobCb, scanAobRange, if_neg (by omega)]; exact hrun, hgrew⟩

theorem aobSafe_of_covered {platform : Platform} (hpid : 0 < pid)
    (hmax : pattern.length ≤ aobPatternMax) (hmin : f.minMapLen = pattern.length)
    (hend : map.endAddr < 2 ^ 64) (hclip : f.clip map = some (start, len))
    (hcovered : PatternAlwaysCovered platform pid pattern mask f map start len) :
    AobSafe (min (scanChunk platform) (len + 1 - pattern.length)) pattern mask := by
  by_contra hbad
  obtain ⟨s, hs, hsm, hfits, hall, hlost⟩ := scanAobRange_lure hpid start hbad
  have hmap : ReadableMaps (lureEnv platform pattern start s) pid (lureMemory pattern start s) f
      [map] :=
    readableMaps_readable platform _ _ hpid hend
  have henv := undisturbed_readable platform (lureMemory pattern start s)
    (lureCut pattern.length start s)
  have hwanted : PatternOccurs (lureMemory pattern start s) pattern mask start len (start + s) :=
    ⟨by omega, by omega, aobHit_lureMemory pattern mask start s⟩
  obtain ⟨range, -, r, rfl, hhit⟩ := hits_of_mapCovered henv
    (fun _ _ _ (h : NoHits _ _ _) => by rw [h]) (fun _ _ _ h => by rw [h]; exact Nat.zero_le _)
    (fun range hrange => appendsAt_lure hpid hsm hmax hfits hall hlost
      (by rwa [ranges_singleton hclip, hmin] at hrange))
    hmap hclip (hcovered _ _ rfl henv hmap) hwanted
  exact absurd hhit not_mem_nil

def patternMemory (pattern : List UInt8) (a x : Nat) : UInt8 := pattern.getD (x - a) 0

theorem aobHit_patternMemory (pattern mask : List UInt8) (a : Nat) :
    aobHit (patternMemory pattern a) pattern mask a = true := by
  refine aobHit_iff.mpr fun j hj => .inr ?_
  rw [patternMemory, Nat.add_sub_cancel_left]

theorem oneByte_or_uncut_of_covered {platform : Platform} (hpid : 0 < pid)
    (hpos : 0 < pattern.length) (hmax : pattern.length ≤ aobPatternMax)
    (hmin : f.minMapLen = pattern.length) (hend : map.endAddr < 2 ^ 64)
    (hclip : f.clip map = some (start, len))
    (hcovered : PatternAlwaysCovered platform pid pattern mask f map start len) :
    pattern.length = 1 ∨ len ≤ scanMaxLength := by
  by_contra hcut
  have hlimit := aobPatternMax_le
  -- the last place at which the pattern fits and still starts before the cut
  obtain ⟨o, ho, hfits, hover⟩ : ∃ o, o < scanMaxLength ∧ o + pattern.length ≤ len ∧
      scanMaxLength < o + pattern.length := by
    generalize scanMaxLength = limit at *
    exact ⟨min (limit - 1) (len - pattern.length), by omega, by omega, by omega⟩
  have hmap : ReadableMaps (.readable platform (patternMemory pattern (start + o)) fun _ n => n) pid
      (patternMemory pattern (start + o)) f [map] := readableMaps_readable platform _ _ hpid hend
  have henv := undisturbed_readable platform (patternMemory pattern (start + o)) fun _ n => n
  have hsafe := aobSafe_of_covered hpid hmax hmin hend hclip hcovered
  have hinside := (patternCovered_iff henv hpos (by omega) hmin hmap hclip hsafe).mp
    (hcovered _ _ rfl henv hmap) (start + o)
    ⟨by omega, by omega, aobHit_patternMemory pattern mask (start + o)⟩
  rw [segmentOffset, Nat.add_sub_cancel_left, Nat.mod_eq_of_lt ho] at hinside
  exact absurd hover (Nat.not_lt.mpr hinside)

theorem patternAlwaysCovered_iff {platform : Platform} (hpid : 0 < pid) (hpos : 0 < pattern.length)
    (hmax : pattern.length ≤ aobPatternMax) (hmin : f.minMapLen = pattern.length)
    (hend : map.endAddr < 2 ^ 64) (hclip : f.clip map = some (start, len)) :
    PatternAlwaysCovered platform pid pattern mask f map start len ↔
      (pattern.length = 1 ∨ len ≤ scanMaxLength) ∧
        AobSafe (min (scanChunk platform) (len + 1 - pattern.length)) pattern mask := by
  constructor
  · exact fun h => ⟨oneByte_or_uncut_of_covered hpid hpos hmax hmin hend hclip h,
      aobSafe_of_covered hpid hmax hmin hend hclip h⟩
  · rintro ⟨hcut, hsafe⟩ env mem rfl henv hmap
    have hlimit := aobPatternMax_le
    refine (patternCovered_iff henv hpos (by omega) hmin hmap hclip hsafe).mpr fun a ha => ?_
    obtain ⟨hlo, hhi, -⟩ := ha
    have hmod := Nat.mod_lt (a - start) (show 0 < scanMaxLength by decide)
    rw [segmentOffset]
    rcases hcut with hone | hshort
    · rw [hone]
      exact hmod
    · have hlt : a - start < scanMaxLength := by
        generalize scanMaxLength = limit at *
        omega
      rw [Nat.mod_eq_of_lt hlt]
      generalize scanMaxLength = limit at *
      omega

end Pattern

/-- **Huge maps.**  A readable map that the filter leaves from `start` on, `len` bytes
long, is covered by the scan for a value exactly if every aligned occurrence keeps
clear of the cuts; by the scan for a pattern with tables that are safe in the map,
exactly if no occurrence reaches over a cut; and by the scan for a pattern whatever the
memory holds, exactly if the pattern has one byte or the map no cut, and the tables are
safe. -/
theorem mapCovered_iff {f : MapFilter} {map : MapEntry} {start len : Nat}
    (hend : map.endAddr < 2 ^ 64) (hclip : f.clip map = some (start, len)) :
    (∀ (env : Env) (ctx : ScanContext) (mem : Nat → UInt8), Undisturbed env →
      f.minMapLen = ctx.valueLen → ReadableMaps env ctx.pid mem f [map] →
      (MapCovered env (scanRangeCb env ctx) ctx.pid mem f map (ValueOccurs mem ctx start len) ↔
        ∀ a, ValueOccurs mem ctx start len a →
          ClearOfCuts start ctx.valueLen ctx.alignment a)) ∧
    (∀ (pattern mask : List UInt8) (pid : Int), 0 < pid → 0 < pattern.length →
      pattern.length ≤ aobPatternMax → f.minMapLen = pattern.length →
      (∀ (env : Env) (mem : Nat → UInt8), Undisturbed env → ReadableMaps env pid mem f [map] →
        AobSafe (min (scanChunk env.platform) (len + 1 - pattern.length)) pattern mask →
        (PatternCovered env mem pid pattern mask f map start len ↔
          ∀ a, PatternOccurs mem pattern mask start len a →
            segmentOffset start a + pattern.length ≤ scanMaxLength)) ∧
      ∀ platform : Platform, PatternAlwaysCovered platform pid pattern mask f map start len ↔
        (pattern.length = 1 ∨ len ≤ scanMaxLength) ∧
          AobSafe (min (scanChunk platform) (len + 1 - pattern.length)) pattern mask) := by
  constructor
  · exact fun env ctx mem henv hmin hmap => valueCovered_iff henv hmin hmap hclip
  · intro pattern mask pid hpid hpos hmax hmin
    constructor
    · have hshort := Nat.le_trans (Nat.le_mul_of_pos_left _ Nat.two_pos) aobPatternMax_le
      exact fun env mem henv hmap hsafe =>
        patternCovered_iff henv hpos (Nat.le_trans hmax hshort) hmin hmap hclip hsafe
    · exact fun platform => patternAlwaysCovered_iff hpid hpos hmax hmin hend hclip

def hugeMap : MapEntry := ⟨2 ^ 40, 2 ^ 40 + 34359803904, 1⟩

def hugeFilter : MapFilter := ⟨mapProtRead, 0, 0, 2⟩

theorem clip_hugeMap : hugeFilter.clip hugeMap = some (2 ^ 40, 34359803904) := by decide

def cutMemory (a : Nat) : UInt8 :=
  if a = 2 ^ 40 + 34359738367 then 7 else if a = 2 ^ 40 + 34359738368 then 9 else 0

theorem readableMaps_cutMemory :
    ReadableMaps (.readable .host cutMemory fun _ n => n) pairContext.pid cutMemory hugeFilter
      [hugeMap] :=
  readableMaps_readable .host cutMemory _ pairContext.pid_pos (by decide)

theorem mapCovered_iff_short :
    MapCovered (.readable .host pairMemory fun _ n => n)
      (scanRangeCb (.readable .host pairMemory fun _ n => n) pairContext) pairContext.pid pairMemory
      hugeFilter ⟨0, 16, 1⟩ (ValueOccurs pairMemory pairContext 0 16) := by
  have hclip : hugeFilter.clip ⟨0, 16, 1⟩ = some (0, 16) := by decide
  refine ((mapCovered_iff (by decide) hclip).1 _ pairContext pairMemory
    (undisturbed_readable .host pairMemory _) rfl
    (readableMaps_readable .host pairMemory _ pairContext.pid_pos (by decide))).mpr fun a ha => ?_
  have hlen : a + 2 ≤ 0 + 16 := ha.le_end
  have hoffset : segmentOffset 0 a = a := by
    rw [segmentOffset, Nat.sub_zero, Nat.mod_eq_of_lt]
    exact Nat.lt_of_lt_of_le (show a < 16 by omega) (by decide)
  refine ⟨?_, Nat.mod_one _⟩
  rw [hoffset]
  exact Nat.le_trans hlen (by decide)

theorem mapCovered_pair_on_cut :
    ¬ MapCovered (.readable .host cutMemory fun _ n => n)
        (scanRangeCb (.readable .host cutMemory fun _ n => n) pairContext) pairContext.pid cutMemory
        hugeFilter hugeMap (ValueOccurs cutMemory pairContext (2 ^ 40) 34359803904) ∧
      ¬ PatternCovered (.readable .host cutMemory fun _ n => n) cutMemory pairContext.pid [7, 9]
        [255, 255] hugeFilter hugeMap (2 ^ 40) 34359803904 := by
  have henv := undisturbed_readable .host cutMemory fun _ n => n
  have hoffset : segmentOffset (2 ^ 40) (2 ^ 40 + 34359738367) = 34359738367 := by
    rw [segmentOffset, Nat.add_sub_cancel_left]
    decide
  constructor
  · intro hcovered
    have hclear := clearOfCuts_of_mapCovered henv rfl readableMaps_cutMemory clip_hugeMap hcovered
      (a := 2 ^ 40 + 34359738367) ⟨by decide, by decide, by decide, by decide⟩
    have hinside := hclear.inside
    rw [hoffset] at hinside
    exact absurd hinside (by decide)
  · intro hcovered
    have hinside := (patternCovered_iff henv (by decide) (by decide) rfl readableMaps_cutMemory
      clip_hugeMap (.inr (.inl (by decide)))).mp hcovered (2 ^ 40 + 34359738367)
      ⟨by decide, by decide, by decide⟩
    rw [hoffset] at hinside
    exact absurd hinside (by decide)

end MemDbg.Scan
