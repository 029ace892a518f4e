import MemDbg.Scan.Chunk
import MemDbg.Scan.Match

/-!
# The exact-value scanner

`scan_context_t`, `scan_window` and `scan_range`.  A context carries the checks
of `scan_context_init` as fields, so every context has a value of 1 to 16 bytes,
a positive alignment and a positive read size.
-/

namespace MemDbg.Scan

open Lib

/-- `scan_context_t`. -/
structure ScanContext where
  pid : Int
  valueType : ValueType
  valueLen : Nat
  alignment : Nat
  needle : List UInt8
  readChunk : Nat
  pid_pos : 0 < pid
  valueLen_pos : 0 < valueLen
  valueLen_le : valueLen ≤ scanValueMax
  alignment_pos : 0 < alignment
  alignment_lt : alignment < 2 ^ 32
  length_needle : valueLen ≤ needle.length
  readChunk_pos : 0 < readChunk

def ScanContext.value (ctx : ScanContext) : List UInt8 := ctx.needle.take ctx.valueLen

def firstAlignedOffset (base alignmentBase rangeStart alignment : Nat) : Nat :=
  let offset := if base < rangeStart then rangeStart - base else 0
  if alignment ≤ 1 then offset
  else
    let misalignment := sub64 (wrap64 (base + offset)) alignmentBase % alignment
    if misalignment ≠ 0 then wrap64 (offset + alignment - misalignment) else offset

def memchr (buffer : List UInt8) (pos n : Nat) (c : UInt8) : Option Nat :=
  (((buffer.drop pos).take n).findIdx? (· == c)).map (pos + ·)

def memchrLoop (env : Env) (buffer : List UInt8) (c : UInt8) (baseAddr searchable : Nat) :
    Nat → Nat → ScanBuilder → Status × ScanBuilder
  | 0, _, b => (.ok, b)
  | fuel + 1, pos, b =>
    if pos < searchable then
      match memchr buffer pos (searchable - pos) c with
      | none => (.ok, b)
      | some i =>
        match scanBuilderAppend env b (baseAddr + i) with
        | (.ok, b) => memchrLoop env buffer c baseAddr searchable fuel (i + 1) b
        | r => r
    else (.ok, b)

def alignedLoop (env : Env) (ctx : ScanContext) (buffer : List UInt8)
    (baseAddr rangeEnd searchable : Nat) : Nat → Nat → ScanBuilder → Status × ScanBuilder
  | 0, _, b => (.ok, b)
  | fuel + 1, i, b =>
    if i < searchable then
      let absolute := baseAddr + i
      if absolute > rangeEnd ∨ ctx.valueLen > rangeEnd - absolute then (.ok, b)
      else if matchFnFor ctx.valueLen (buffer.drop i) ctx.needle ctx.valueLen then
        match scanBuilderAppend env b absolute with
        | (.ok, b) =>
          alignedLoop env ctx buffer baseAddr rangeEnd searchable fuel (i + ctx.alignment) b
        | r => r
      else alignedLoop env ctx buffer baseAddr rangeEnd searchable fuel (i + ctx.alignment) b
    else (.ok, b)

def scanWindow (env : Env) (ctx : ScanContext) (b : ScanBuilder) (buffer : List UInt8)
    (baseAddr alignmentBase rangeStart rangeEnd : Nat) : Status × ScanBuilder :=
  if buffer.length < ctx.valueLen then (.ok, b)
  else
    let searchable := buffer.length - ctx.valueLen + 1
    if ctx.valueLen = 1 ∧ ctx.alignment = 1 ∧ baseAddr ≥ rangeStart then
      memchrLoop env buffer (ctx.needle.getD 0 0) baseAddr searchable searchable 0 b
    else
      let first := firstAlignedOffset baseAddr alignmentBase rangeStart ctx.alignment
      if first = 2 ^ 64 - 1 ∨ first ≥ searchable then (.ok, b)
      else alignedLoop env ctx buffer baseAddr rangeEnd searchable searchable first b

def exactChunkScan (env : Env) (ctx : ScanContext) (alignmentBase rangeStart rangeEnd : Nat)
    (skipReadErrors : Bool) : ChunkScan where
  pid := ctx.pid
  chunk := ctx.readChunk
  overlap := ctx.valueLen - 1
  pollsCancel := true
  reportsBytes := true
  skipReadErrors := skipReadErrors
  window b buffer baseAddr :=
    scanWindow env ctx b buffer baseAddr alignmentBase rangeStart rangeEnd

def scanRange (env : Env) (ctx : ScanContext) (b : ScanBuilder)
    (rangeStart rangeLen alignmentBase : Nat) (skipReadErrors : Bool) : Status × ScanBuilder :=
  if scanBoundsValid rangeStart rangeLen ctx.valueLen then
    chunkScan env
      (exactChunkScan env ctx alignmentBase rangeStart (rangeStart + rangeLen) skipReadErrors)
      rangeStart rangeLen b
  else (.errParam, b)

def exactHit (mem : Nat → UInt8) (ctx : ScanContext) (alignmentBase a : Nat) : Bool :=
  (a - alignmentBase) % ctx.alignment == 0 && slice mem a ctx.valueLen == ctx.value

section Window

variable {env : Env} {ctx : ScanContext} {mem : Nat → UInt8}
  {alignmentBase rangeStart rangeEnd : Nat}

theorem matchFnFor_slice {base n i : Nat} (hi : i + ctx.valueLen ≤ n) :
    matchFnFor ctx.valueLen ((slice mem base n).drop i) ctx.needle ctx.valueLen =
      decide (slice mem (base + i) ctx.valueLen = ctx.value) := by
  rw [matchFnFor_eq ctx.valueLen_pos (by rw [drop_slice, length_slice]; omega) ctx.length_needle,
    drop_slice, take_slice mem (by omega)]
  rfl

theorem exactHit_aligned {a : Nat} (h : exactHit mem ctx alignmentBase a = true) :
    (a - alignmentBase) % ctx.alignment = 0 := by
  rw [exactHit, Bool.and_eq_true, beq_iff_eq] at h
  exact h.1

theorem alignedLoop_grew {base n : Nat}
    (hbase : alignmentBase ≤ base) (hend : base + n ≤ rangeEnd) (hn : ctx.valueLen ≤ n)
    {fuel i : Nat} (hfuel : n - ctx.valueLen + 1 ≤ i + fuel)
    (hi : (base + i - alignmentBase) % ctx.alignment = 0) {b : ScanBuilder} (hb : b.Ready env) :
    ∃ b', alignedLoop env ctx (slice mem base n) base rangeEnd (n - ctx.valueLen + 1) fuel i b =
        (.ok, b') ∧
      Grew b (hits (exactHit mem ctx alignmentBase) (base + i) (n - ctx.valueLen + 1 - i)) b' := by
  have hal := ctx.alignment_pos
  induction fuel generalizing i b with
  | zero =>
    exact ⟨b, rfl, by rw [show n - ctx.valueLen + 1 - i = 0 by omega]; exact .refl hb.toValid⟩
  | succ fuel ih =>
    by_cases hlt : i < n - ctx.valueLen + 1
    · -- the positions up to the next aligned one hold no occurrence
      have hrest : hits (exactHit mem ctx alignmentBase) (base + i) (n - ctx.valueLen + 1 - i) =
          (if exactHit mem ctx alignmentBase (base + i) then [base + i] else []) ++
            hits (exactHit mem ctx alignmentBase) (base + (i + ctx.alignment))
              (n - ctx.valueLen + 1 - (i + ctx.alignment)) := by
        rw [hits_stride hal exactHit_aligned (by omega) hi (by omega), Nat.add_assoc,
          Nat.sub_sub]
      have hnext : (base + (i + ctx.alignment) - alignmentBase) % ctx.alignment = 0 := by
        rw [show base + (i + ctx.alignment) - alignmentBase =
          base + i - alignmentBase + ctx.alignment by omega, Nat.add_mod_right]
        exact hi
      rw [hrest, alignedLoop, if_pos hlt]
      simp only
      rw [if_neg (by omega), matchFnFor_slice (by omega)]
      by_cases hmatch : slice mem (base + i) ctx.valueLen = ctx.value
      · have hhit : exactHit mem ctx alignmentBase (base + i) = true := by
          simp [exactHit, hi, hmatch]
        obtain ⟨b₁, h₁, g₁⟩ := scanBuilderAppend_grew hb (base + i)
        obtain ⟨b₂, h₂, g₂⟩ := ih (i := i + ctx.alignment) (by omega) hnext (g₁.ready hb)
        exact ⟨b₂, by simpa [hmatch, h₁] using h₂, by rw [hhit]; exact g₁.trans g₂⟩
      · have hhit : exactHit mem ctx alignmentBase (base + i) = false := by
          simp [exactHit, hmatch]
        obtain ⟨b₂, h₂, g₂⟩ := ih (i := i + ctx.alignment) (by omega) hnext hb
        exact ⟨b₂, by simpa [hmatch] using h₂, by rw [hhit]; exact g₂⟩
    · refine ⟨b, by rw [alignedLoop, if_neg hlt], ?_⟩
      rw [show n - ctx.valueLen + 1 - i = 0 by omega]
      exact .refl hb.toValid

theorem memchr_slice (mem : Nat → UInt8) (base : Nat) {n k : Nat} (pos : Nat) (hpos : pos + k ≤ n)
    (c : UInt8) :
    match memchr (slice mem base n) pos k c with
    | none => ∀ i, pos ≤ i → i < pos + k → mem (base + i) ≠ c
    | some i => pos ≤ i ∧ i < pos + k ∧ mem (base + i) = c ∧
        ∀ x, pos ≤ x → x < i → mem (base + x) ≠ c := by
  have hwin : ((slice mem base n).drop pos).take k = slice mem (base + pos) k := by
    rw [drop_slice, take_slice mem (by omega)]
  rw [memchr, hwin]
  cases hfind : (slice mem (base + pos) k).findIdx? (· == c) with
  | none =>
    intro i h₁ h₂
    rw [List.findIdx?_eq_none_iff] at hfind
    have := hfind (mem (base + i)) (List.mem_map.mpr ⟨base + i, by
      rw [List.mem_range'_1]; omega, rfl⟩)
    simpa using this
  | some j =>
    obtain ⟨hj, hc, hbefore⟩ := List.findIdx?_eq_some_iff_getElem.mp hfind
    rw [length_slice] at hj
    simp only [Option.map_some]
    refine ⟨by omega, by omega, ?_, fun x h₁ h₂ => ?_⟩
    · simpa [slice, Nat.add_assoc] using hc
    · have := hbefore (x - pos) (by omega)
      simpa [slice, Nat.add_assoc, show pos + (x - pos) = x by omega] using this

theorem memchrLoop_grew {base n : Nat} (c : UInt8)
    {fuel : Nat} (pos : Nat) (hfuel : n ≤ pos + fuel) {b : ScanBuilder} (hb : b.Ready env) :
    ∃ b', memchrLoop env (slice mem base n) c base n fuel pos b = (.ok, b') ∧
      Grew b (hits (fun a => mem a == c) (base + pos) (n - pos)) b' := by
  induction fuel generalizing pos b with
  | zero => exact ⟨b, rfl, by rw [show n - pos = 0 by omega]; exact .refl hb.toValid⟩
  | succ fuel ih =>
    by_cases hlt : pos < n
    · have hspec := memchr_slice mem base (n := n) (k := n - pos) pos (by omega) c
      rw [memchrLoop, if_pos hlt]
      cases hfind : memchr (slice mem base n) pos (n - pos) c with
      | none =>
        rw [hfind] at hspec
        refine ⟨b, rfl, ?_⟩
        rw [hits_eq_nil fun x h₁ h₂ => ?_]
        · exact .refl hb.toValid
        · have := hspec (x - base) (by omega) (by omega)
          rw [show base + (x - base) = x by omega] at this
          simpa using this
      | some i =>
        rw [hfind] at hspec
        obtain ⟨h₁, h₂, hc, hbefore⟩ := hspec
        obtain ⟨b₁, hap, g₁⟩ := scanBuilderAppend_grew hb (base + i)
        obtain ⟨b₂, hrun, g₂⟩ := ih (i + 1) (by omega) (g₁.ready hb)
        refine ⟨b₂, by simpa [hap] using hrun, ?_⟩
        have hsplit : hits (fun a => mem a == c) (base + pos) (n - pos) =
            [base + i] ++ hits (fun a => mem a == c) (base + (i + 1)) (n - (i + 1)) := by
          rw [hits_skip (k := i - pos) fun x h₃ h₄ _ => ?_,
            show base + pos + (i - pos) = base + i by omega,
            show n - pos - (i - pos) = n - (i + 1) + 1 by omega, hits_succ]
          · simp [hc, Nat.add_assoc]
          · have := hbefore (x - base) (by omega) (by omega)
            rw [show base + (x - base) = x by omega] at this
            simpa using this
        rw [hsplit]
        exact g₁.trans g₂
    · refine ⟨b, by rw [memchrLoop, if_neg hlt], ?_⟩
      rw [show n - pos = 0 by omega]
      exact .refl hb.toValid

theorem firstAlignedOffset_spec {alignment base : Nat} (hal : 0 < alignment)
    (hal' : alignment < 2 ^ 32) (hstart : rangeStart ≤ base) (hbase : alignmentBase ≤ base)
    (hlt : base < 2 ^ 64) :
    firstAlignedOffset base alignmentBase rangeStart alignment < alignment ∧
      (base + firstAlignedOffset base alignmentBase rangeStart alignment - alignmentBase) %
        alignment = 0 ∧
      ∀ x, base ≤ x → x < base + firstAlignedOffset base alignmentBase rangeStart alignment →
        (x - alignmentBase) % alignment ≠ 0 := by
  unfold firstAlignedOffset
  simp only [show ¬ base < rangeStart by omega, if_false, Nat.add_zero, Nat.zero_add,
    wrap64_of_lt hlt, sub64_of_le hbase hlt]
  split_ifs with h₁ h₂
  · exact ⟨hal, by rw [Nat.add_zero, show alignment = 1 by omega]; exact Nat.mod_one _,
      fun x h h' => absurd h' (by omega)⟩
  · have hmod := Nat.mod_lt (base - alignmentBase) hal
    have hdiv := Nat.div_add_mod (base - alignmentBase) alignment
    generalize hr : (base - alignmentBase) % alignment = r at *
    generalize hq : (base - alignmentBase) / alignment = q at *
    rw [wrap64_of_lt (by omega)]
    refine ⟨by omega, ?_, fun x h h' => ?_⟩
    · rw [show base + (alignment - r) - alignmentBase = alignment * (q + 1) by
        rw [Nat.mul_succ]; omega, Nat.mul_mod_right]
    · rw [show x - alignmentBase = (r + (x - base)) + alignment * q by omega,
        Nat.add_mul_mod_self_left, Nat.mod_eq_of_lt (by omega)]
      omega
  · exact ⟨hal, by simpa using h₂, fun x h h' => absurd h' (by omega)⟩

theorem exactHit_of_byte (hlen : ctx.valueLen = 1) (hal : ctx.alignment = 1) (a : Nat) :
    exactHit mem ctx alignmentBase a = (mem a == ctx.needle.getD 0 0) := by
  have hval : ctx.value = [ctx.needle.getD 0 0] := by
    have h := ctx.length_needle
    unfold ScanContext.value
    rw [hlen] at h ⊢
    cases hn : ctx.needle with
    | nil => simp [hn] at h
    | cons x xs => rfl
  simp [exactHit, hlen, hal, hval, slice, Nat.mod_one]

theorem exactWindow_scanWindow (ctx : ScanContext) {rangeLen : Nat}
    (hbase : alignmentBase ≤ rangeStart) (hend : rangeStart + rangeLen < 2 ^ 64)
    (skipReadErrors : Bool) :
    ExactWindow env
      (exactChunkScan env ctx alignmentBase rangeStart (rangeStart + rangeLen) skipReadErrors)
      mem (exactHit mem ctx alignmentBase) rangeStart rangeLen ctx.valueLen := by
  intro b base n hb hlo hhi hn _
  simp only [exactChunkScan, scanWindow, length_slice]
  by_cases hshort : n < ctx.valueLen
  · rw [if_pos hshort]
    refine ⟨b, rfl, ?_⟩
    rw [show n + 1 - ctx.valueLen = 0 by omega]
    exact .refl hb.toValid
  · have hcount : n + 1 - ctx.valueLen = n - ctx.valueLen + 1 := by omega
    rw [if_neg hshort]
    by_cases hbyte : ctx.valueLen = 1 ∧ ctx.alignment = 1 ∧ base ≥ rangeStart
    · obtain ⟨hlen, hal, -⟩ := hbyte
      rw [if_pos ⟨hlen, hal, hlo⟩, hits_congr fun x _ _ => exactHit_of_byte hlen hal x,
        show n - ctx.valueLen + 1 = n by omega, show n + 1 - ctx.valueLen = n by omega]
      exact memchrLoop_grew _ 0 (by omega) hb
    · rw [if_neg hbyte]
      obtain ⟨hlt, hzero, hskip⟩ := firstAlignedOffset_spec ctx.alignment_pos ctx.alignment_lt hlo
        (Nat.le_trans hbase hlo) (by omega)
      have hal' := ctx.alignment_lt
      generalize firstAlignedOffset base alignmentBase rangeStart ctx.alignment = first at *
      have hhits : hits (exactHit mem ctx alignmentBase) base (n - ctx.valueLen + 1) =
          hits (exactHit mem ctx alignmentBase) (base + first) (n - ctx.valueLen + 1 - first) :=
        hits_skip fun x h₁ h₂ _ => by simp [exactHit, hskip x h₁ h₂]
      rw [hcount, hhits]
      split_ifs with hnone
      · refine ⟨b, rfl, ?_⟩
        rw [show n - ctx.valueLen + 1 - first = 0 by omega]
        exact .refl hb.toValid
      · exact alignedLoop_grew (by omega) (by omega) (by omega) (by omega) hzero hb

end Window

theorem scanRange_grew {env : Env} {ctx : ScanContext} {mem : Nat → UInt8}
    {rangeStart rangeLen alignmentBase : Nat} (skipReadErrors : Bool) {b : ScanBuilder}
    (hb : b.Ready env) (hcancel : ∀ now, env.cancelRequested now = false)
    (hbounds : scanBoundsValid rangeStart rangeLen ctx.valueLen = true)
    (hbase : alignmentBase ≤ rangeStart)
    (hreads : ShortReads env ctx.pid mem rangeStart (rangeStart + rangeLen)) :
    ∃ b', scanRange env ctx b rangeStart rangeLen alignmentBase skipReadErrors = (.ok, b') ∧
      Grew b (hits (exactHit mem ctx alignmentBase) rangeStart
        (rangeLen + 1 - ctx.valueLen)) b' := by
  obtain ⟨hlen, -, -, hend⟩ := scanBoundsValid_iff.mp hbounds
  rw [scanRange, if_pos hbounds]
  exact chunkScan_grew ctx.valueLen_pos rfl ctx.readChunk_pos (.inr hcancel) hreads
    (exactWindow_scanWindow ctx hbase (by omega) skipReadErrors) hb

/-- **`scan_range` is exact under short reads.**  Whatever the cut of the range
into successful reads, the builder receives exactly the aligned occurrences of
the value inside the range, each once and in increasing order; those beyond the
result limit are dropped, and `truncated` says whether that happened. -/
theorem scanRange_exact {env : Env} {ctx : ScanContext} {mem : Nat → UInt8}
    {rangeStart rangeLen alignmentBase : Nat} (skipReadErrors : Bool) {b : ScanBuilder}
    (hb : b.Ready env)
    (hcancel : ∀ now, env.cancelRequested now = false)
    (hbounds : scanBoundsValid rangeStart rangeLen ctx.valueLen = true)
    (hbase : alignmentBase ≤ rangeStart)
    (hreads : ShortReads env ctx.pid mem rangeStart (rangeStart + rangeLen)) :
    ∃ b' hs, scanRange env ctx b rangeStart rangeLen alignmentBase skipReadErrors = (.ok, b') ∧
      (∀ a, a ∈ hs ↔ rangeStart ≤ a ∧ a + ctx.valueLen ≤ rangeStart + rangeLen ∧
        (a - alignmentBase) % ctx.alignment = 0 ∧ slice mem a ctx.valueLen = ctx.value) ∧
      hs.Pairwise (· < ·) ∧
      b'.stored = (b.stored ++ hs).take b.maxResults ∧
      (b'.result.truncated = true ↔
        b.result.truncated = true ∨ b.maxResults < (b.stored ++ hs).length) := by
  obtain ⟨-, hmin, -, -⟩ := scanBoundsValid_iff.mp hbounds
  obtain ⟨b', hrun, hgrew⟩ := scanRange_grew skipReadErrors hb hcancel hbounds hbase hreads
  refine ⟨b', _, hrun, fun a => ?_, pairwise_hits _ _, hgrew.stored_eq, ?_⟩
  · rw [mem_hits, exactHit, Bool.and_eq_true, beq_iff_eq, beq_iff_eq]
    constructor
    · rintro ⟨⟨h₁, h₂⟩, h₃, h₄⟩
      exact ⟨h₁, by omega, h₃, h₄⟩
    · rintro ⟨h₁, h₂, h₃, h₄⟩
      exact ⟨⟨h₁, by omega⟩, h₃, h₄⟩
  · rw [hgrew.truncated_eq, Bool.or_eq_true, decide_eq_true_iff]

def pairContext : ScanContext where
  pid := 1
  valueType := .u16
  valueLen := 2
  alignment := 1
  needle := [7, 9]
  readChunk := 4
  pid_pos := Int.one_pos
  valueLen_pos := Nat.two_pos
  valueLen_le := by decide
  alignment_pos := Nat.zero_lt_one
  alignment_lt := one_lt_word
  length_needle := by decide
  readChunk_pos := fourBytes_pos

theorem scanRange_exact_straddling :
    ∃ b' hs, scanRange
      (Env.readable .host (fun a => if a = 13 then 7 else 9) fun _ _ => 1) pairContext
        (ScanBuilder.preallocated 4) 10 8 10 true = (.ok, b') ∧
      13 ∈ hs ∧ b'.stored = ((ScanBuilder.preallocated 4).stored ++ hs).take 4 := by
  have hb : (ScanBuilder.preallocated 4).Ready
      (Env.readable .host (fun a => if a = 13 then 7 else 9) fun _ _ => 1) :=
    ScanBuilder.ready_preallocated _ (by decide)
  have hbounds : scanBoundsValid 10 8 pairContext.valueLen = true := by decide
  obtain ⟨b', hs, hrun, hmem, -, hstored, -⟩ := scanRange_exact true hb (fun _ => rfl) hbounds
    (Nat.le_refl 10) (shortReads_readable .host _ (fun _ _ => 1) pairContext.pid_pos _ _)
  exact ⟨b', hs, hrun, (hmem 13).mpr (by decide), hstored⟩

end MemDbg.Scan
