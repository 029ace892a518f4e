import MemDbg.Scan.Exact

/-!
# Scanning over unreadable pages

What `scan_range` with `skip_read_errors` does when some pages of the target
cannot be read.  A read that touches such a page fails as a whole,
`scan_memory_read_resilient` retries with half the size down to 4096 bytes, and
the range loop skips up to 4096 bytes when that fails too.
-/

namespace MemDbg.Scan

open List Lib

def Readable (unreadable : Nat → Bool) (a n : Nat) : Prop :=
  ∀ x, a ≤ x → x < a + n → unreadable (x / scanMinReadChunk) = false

structure PageFaults (env : Env) (pid : Int) (mem : Nat → UInt8) (unreadable : Nat → Bool) :
    Prop where
  done : ∀ now a n, 0 < n → Readable unreadable a n →
    memoryRead env pid now a n = .done (slice mem a n)
  failed : ∀ now a n, 0 < n → ¬ Readable unreadable a n →
    ∃ st, memoryRead env pid now a n = .failed st

theorem Readable.mono {unreadable : Nat → Bool} {a n k : Nat} (h : Readable unreadable a n)
    (hk : k ≤ n) : Readable unreadable a k := fun x h₁ h₂ => h x h₁ (by omega)

theorem readable_of_page {unreadable : Nat → Bool} {a n x : Nat} (hpage : a % 4096 + n ≤ 4096)
    (h₁ : a ≤ x) (h₂ : x < a + n) (hx : unreadable (x / scanMinReadChunk) = false) :
    Readable unreadable a n := by
  intro y h₃ h₄
  rw [scanMinReadChunk] at hx ⊢
  rw [show y / 4096 = x / 4096 by omega]
  exact hx

/-! ## One read -/

section Read

variable {env : Env} {pid : Int} {mem : Nat → UInt8} {unreadable : Nat → Bool}

def Reads (env : Env) (pid : Int) (mem : Nat → UInt8) (a n k : Nat) : Prop :=
  ∀ b, (scanMemoryReadResilient env pid a n b).2 = .done (slice mem a k)

def Fails (env : Env) (pid : Int) (a n : Nat) : Prop :=
  ∀ b, ∃ st, (scanMemoryReadResilient env pid a n b).2 = .failed st

theorem PageFaults.reads_all (h : PageFaults env pid mem unreadable) {a n : Nat} (hn : 0 < n)
    (hread : Readable unreadable a n) : Reads env pid mem a n n := fun b => by
  rw [scanMemoryReadResilient_of_done hn (h.done b.now a n hn hread)]

theorem PageFaults.reads_half (h : PageFaults env pid mem unreadable) {a n : Nat}
    (hn : scanMinReadChunk < n) (hfail : ¬ Readable unreadable a n)
    (hread : Readable unreadable a (nextAttempt n)) : Reads env pid mem a n (nextAttempt n) := by
  intro b
  have hnext : nextAttempt n < n ∧ 0 < nextAttempt n := by
    unfold nextAttempt
    rw [scanMinReadChunk] at hn ⊢
    split_ifs <;> omega
  rw [scanMinReadChunk] at hn
  obtain ⟨fuel, rfl⟩ : ∃ fuel, n = fuel + 1 + 1 := ⟨n - 2, by omega⟩
  obtain ⟨st, hst⟩ := h.failed b.now a (fuel + 1 + 1) (by omega) hfail
  have hdone := h.done b.countRead.countReadError.now a _ hnext.2 hread
  rw [scanMemoryReadResilient, if_neg (by omega), resilientAttempts, hst]
  simp only [scanMinReadChunk, show ¬ fuel + 1 + 1 ≤ 4096 by omega, if_false,
    show ¬ nextAttempt (fuel + 1 + 1) ≥ fuel + 1 + 1 by omega, resilientAttempts, hdone]

theorem PageFaults.resilientAttempts_cases (h : PageFaults env pid mem unreadable) (a fuel : Nat)
    {n : Nat} (hn : 0 < n) :
    (∃ k, 0 < k ∧ k ≤ n ∧ min n scanMinReadChunk ≤ k ∧ Readable unreadable a k ∧
      ∀ b, (resilientAttempts env pid a fuel n b).2 = .done (slice mem a k)) ∨
    ∀ b, ∃ st, (resilientAttempts env pid a fuel n b).2 = .failed st := by
  induction fuel generalizing n with
  | zero => exact .inr fun b => ⟨_, rfl⟩
  | succ fuel ih =>
    by_cases hread : Readable unreadable a n
    · refine .inl ⟨n, hn, Nat.le_refl _, Nat.min_le_left _ _, hread, fun b => ?_⟩
      rw [resilientAttempts, h.done b.now a n hn hread]
    · by_cases hlast : n ≤ scanMinReadChunk ∨ nextAttempt n ≥ n
      · refine .inr fun b => ?_
        obtain ⟨st, hst⟩ := h.failed b.now a n hn hread
        refine ⟨st, ?_⟩
        rw [resilientAttempts, hst]
        split_ifs with h₁ h₂
        · rfl
        · rfl
        · exact absurd hlast (not_or.mpr ⟨h₁, h₂⟩)
      · -- the next attempt decides
        obtain ⟨h₁, h₂⟩ := not_or.mp hlast
        have hstep : ∀ b, ∃ b', resilientAttempts env pid a (fuel + 1) n b =
            resilientAttempts env pid a fuel (nextAttempt n) b' := by
          intro b
          obtain ⟨st, hst⟩ := h.failed b.now a n hn hread
          exact ⟨b.countRead.countReadError, by
            rw [resilientAttempts, hst]
            simp only [h₁, h₂, if_false]⟩
        have hnext : scanMinReadChunk ≤ nextAttempt n := by
          unfold nextAttempt
          split_ifs <;> omega
        rw [scanMinReadChunk] at *
        rcases ih (n := nextAttempt n) (by omega) with ⟨k, hk₁, hk₂, hk₃, hk₄, hk₅⟩ | hfail
        · refine .inl ⟨k, hk₁, by omega, by omega, hk₄, fun b => ?_⟩
          obtain ⟨b', hb'⟩ := hstep b
          rw [hb', hk₅ b']
        · refine .inr fun b => ?_
          obtain ⟨b', hb'⟩ := hstep b
          rw [hb']
          exact hfail b'

theorem PageFaults.reads_or_fails (h : PageFaults env pid mem unreadable) (a : Nat) {n : Nat}
    (hn : 0 < n) :
    (∃ k, 0 < k ∧ k ≤ n ∧ min n scanMinReadChunk ≤ k ∧ Readable unreadable a k ∧
      Reads env pid mem a n k) ∨ Fails env pid a n := by
  have := h.resilientAttempts_cases a n hn
  simpa only [Reads, Fails, scanMemoryReadResilient, if_neg (show ¬ n = 0 by omega)] using this

theorem PageFaults.fails (h : PageFaults env pid mem unreadable) {a n : Nat} (hn : 0 < n)
    (hfail : ¬ Readable unreadable a (min n scanMinReadChunk)) : Fails env pid a n := by
  rcases h.reads_or_fails a hn with ⟨k, -, -, hk, hread, -⟩ | h
  · exact absurd (hread.mono hk) hfail
  · exact h

end Read

/-! ## One turn, and a run -/

section Run

variable {env : Env} {c : ChunkScan} {mem : Nat → UInt8} {p : Nat → Bool} {start length m : Nat}

theorem chunkLoop_skip {scanned : Nat} (hlt : scanned < length) (hskip : c.skipReadErrors = true)
    (hcancel : ∀ now, env.cancelRequested now = false)
    (hread : Fails env c.pid (start + scanned) (scanReadSize (length - scanned) c.chunk))
    (fuel : Nat) (carry : List UInt8) (b : ScanBuilder) :
    ∃ b', SameHits b b' ∧ chunkLoop env c start length (fuel + 1) scanned carry b =
      chunkLoop env c start length fuel
        (scanned + scanFaultSkipSize (scanReadSize (length - scanned) c.chunk)) [] b' := by
  obtain ⟨st, hst⟩ := hread b.tick
  have hsame := SameHits.scanMemoryReadResilient env c.pid (start + scanned)
    (scanReadSize (length - scanned) c.chunk) b.tick
  refine ⟨_, (SameHits.tick b).trans hsame, ?_⟩
  rw [chunkLoop, if_pos hlt]
  simp only [ScanBuilder.pollCancel, hcancel, Bool.and_false, Bool.false_eq_true, if_false]
  generalize scanMemoryReadResilient env c.pid (start + scanned)
    (scanReadSize (length - scanned) c.chunk) b.tick = r at *
  obtain ⟨b₁, outcome⟩ := r
  subst hst
  simp only [hskip, if_true]

theorem chunkLoop_read {scanned k : Nat} (hlt : scanned < length) (hk : 0 < k)
    (hcancel : ∀ now, env.cancelRequested now = false)
    (hread : Reads env c.pid mem (start + scanned) (scanReadSize (length - scanned) c.chunk) k)
    (fuel : Nat) (carry : List UInt8) {b : ScanBuilder} {hs : List Nat} (hb : b.Ready env)
    (hwindow : ∀ b, b.Ready env → ∃ b', c.window b (carry ++ slice mem (start + scanned) k)
      (start + scanned - carry.length) = (.ok, b') ∧ Grew b hs b') :
    ∃ b', Grew b hs b' ∧ chunkLoop env c start length (fuel + 1) scanned carry b =
      chunkLoop env c start length fuel (scanned + k)
        (carryOver c.overlap carry (carry ++ slice mem (start + scanned) k)) b' := by
  have hdone := hread b.tick
  have hsame := (SameHits.tick b).trans (SameHits.scanMemoryReadResilient env c.pid
    (start + scanned) (scanReadSize (length - scanned) c.chunk) b.tick)
  rw [chunkLoop, if_pos hlt]
  simp only [ScanBuilder.pollCancel, hcancel, Bool.and_false, Bool.false_eq_true, if_false]
  generalize scanMemoryReadResilient env c.pid (start + scanned)
    (scanReadSize (length - scanned) c.chunk) b.tick = r at *
  obtain ⟨b₁, outcome⟩ := r
  subst hdone
  have hsame₁ := hsame.trans (SameHits.countBytes c.reportsBytes k b₁)
  obtain ⟨b₂, hrun, hgrew⟩ := hwindow _ (hsame₁.ready hb)
  refine ⟨b₂, (hsame₁.grew hb.toValid).of_nil_left hgrew, ?_⟩
  have hnil : slice mem (start + scanned) k ≠ [] := by
    rw [ne_eq, slice_eq_nil]
    omega
  simp only [hnil, if_false, length_slice, hrun]

def FaultTurn (env : Env) (c : ChunkScan) (mem : Nat → UInt8) (start length m : Nat)
    (C S R : Nat → Prop) (scanned : Nat) : Prop :=
  (∃ k, 0 < k ∧ k ≤ scanReadSize (length - scanned) c.chunk ∧ C (scanned + k) ∧
    Reads env c.pid mem (start + scanned) (scanReadSize (length - scanned) c.chunk) k ∧
    ∀ x, start + scanned < x + m → x + m ≤ start + scanned + k → R x) ∨
  (Fails env c.pid (start + scanned) (scanReadSize (length - scanned) c.chunk) ∧
    C (scanned + scanFaultSkipSize (scanReadSize (length - scanned) c.chunk)) ∧
    ∀ x, start + scanned ≤ x →
      x < start + scanned + scanFaultSkipSize (scanReadSize (length - scanned) c.chunk) → S x)

structure CarryOf (mem : Nat → UInt8) (start m : Nat) (S : Nat → Prop) (scanned : Nat)
    (carry : List UInt8) : Prop where
  le_scanned : carry.length ≤ scanned
  le_overlap : carry.length ≤ m - 1
  eq_slice : carry = slice mem (start + scanned - carry.length) carry.length
  reaches : ∀ x, start ≤ x → start + scanned < x + m → (∀ y, x ≤ y → y < x + m → ¬ S y) →
    start + scanned - carry.length ≤ x

theorem CarryOf.nil (hm : 0 < m) {S : Nat → Prop} {scanned : Nat}
    (h : scanned = 0 ∨ S (start + scanned - 1)) : CarryOf mem start m S scanned [] where
  le_scanned := Nat.zero_le _
  le_overlap := Nat.zero_le _
  eq_slice := rfl
  reaches x h₁ h₂ h₃ := by
    rw [length_nil]
    rcases h with rfl | h
    · omega
    · by_contra hlt
      exact h₃ (start + scanned - 1) (by omega) (by omega) h

theorem CarryOf.carryOver (hm : 0 < m) {S : Nat → Prop} {scanned k : Nat} {carry : List UInt8}
    (h : CarryOf mem start m S scanned carry) :
    CarryOf mem start m S (scanned + k)
      (carryOver (m - 1) carry
        (slice mem (start + scanned - carry.length) (carry.length + k))) := by
  have h₁ := h.le_scanned
  have h₂ := h.le_overlap
  rw [carryOver_slice mem hm carry (fun h => length_eq_zero_iff.mp (by omega))]
  refine ⟨?_, ?_, ?_, fun x hx hend havoid => ?_⟩
  · rw [length_slice]
    omega
  · rw [length_slice]
    omega
  · rw [length_slice]
    congr 1
    omega
  · rw [length_slice]
    have := h.reaches x hx
    by_cases hcut : carry.length + k ≤ m - 1
    · have := h.reaches x hx (by omega) havoid
      omega
    · omega

theorem chunkLoop_turns (C S R : Nat → Prop) (hm : 0 < m) (hoverlap : c.overlap = m - 1)
    (hchunk : 0 < c.chunk) (hskip : c.skipReadErrors = true)
    (hcancel : ∀ now, env.cancelRequested now = false)
    (hwindow : ExactWindow env c mem p start length m)
    (hturn : ∀ scanned, scanned < length → C scanned →
      FaultTurn env c mem start length m C S R scanned)
    {fuel scanned : Nat} {carry : List UInt8} (hfuel : length ≤ scanned + fuel)
    (hscanned : scanned ≤ length) (hC : C scanned) (hcarry : CarryOf mem start m S scanned carry)
    {b : ScanBuilder} (hb : b.Ready env) :
    ∃ b' hs, chunkLoop env c start length fuel scanned carry b = (.ok, b') ∧ Grew b hs b' ∧
      (∀ x ∈ hs, p x = true ∧ R x) ∧
      ∀ x, p x = true → start ≤ x → start + scanned < x + m → x + m ≤ start + length →
        (∀ y, x ≤ y → y < x + m → ¬ S y) → x ∈ hs := by
  induction fuel generalizing scanned carry b with
  | zero =>
    obtain rfl : scanned = length := by omega
    exact ⟨b, [], rfl, .refl hb.toValid, by simp, fun x _ _ h₁ h₂ => by omega⟩
  | succ fuel ih =>
    by_cases hlt : scanned < length
    · have hsize := scanReadSize_pos (show 0 < length - scanned by omega) hchunk
      have hle := scanReadSize_le_remaining (length - scanned) c.chunk
      rcases hturn scanned hlt hC with ⟨k, hk, hkl, hCk, hread, hR⟩ | ⟨hfail, hCk, hS⟩
      · have h₁ := hcarry.le_scanned
        have h₂ := hcarry.le_overlap
        have hlec := scanReadSize_le_chunk (length - scanned) c.chunk
        -- the window is the carried slice followed by the bytes just read
        have hwin : carry ++ slice mem (start + scanned) k =
            slice mem (start + scanned - carry.length) (carry.length + k) := by
          conv_lhs => rw [hcarry.eq_slice]
          rw [← slice_append]
          congr 2
          omega
        obtain ⟨b₁, hgrew, hstep⟩ := chunkLoop_read hlt hk hcancel hread fuel carry hb (by
          rw [hwin]
          exact fun b hb => hwindow b _ _ hb (by omega) (by omega) (by omega) (by omega))
        rw [hwin, hoverlap] at hstep
        obtain ⟨b₂, hs, hrun, hgrew₂, hsound, hcomplete⟩ := ih (by omega) (by omega) hCk
          (hcarry.carryOver hm) (hgrew.ready hb)
        refine ⟨b₂, _, hstep.trans hrun, hgrew.trans hgrew₂, fun x hx => ?_,
          fun x hp h₃ h₄ h₅ h₆ => ?_⟩
        · rcases mem_append.mp hx with hx | hx
          · obtain ⟨⟨h₃, h₄⟩, hp⟩ := mem_hits.mp hx
            exact ⟨hp, hR x (by omega) (by omega)⟩
          · exact hsound x hx
        · rw [mem_append, mem_hits]
          rcases Nat.lt_or_ge (start + (scanned + k)) (x + m) with hlater | hnow
          · exact .inr (hcomplete x hp h₃ hlater h₅ h₆)
          · have := hcarry.reaches x h₃ h₄ h₆
            exact .inl ⟨⟨this, by omega⟩, hp⟩
      · obtain ⟨b₁, hsame, hstep⟩ := chunkLoop_skip hlt hskip hcancel hfail fuel carry b
        have hd := scanFaultSkipSize_eq (scanReadSize (length - scanned) c.chunk)
        generalize scanFaultSkipSize (scanReadSize (length - scanned) c.chunk) = d at *
        rw [scanMinReadChunk] at hd
        obtain ⟨b₂, hs, hrun, hgrew₂, hsound, hcomplete⟩ := ih (by omega) (by omega) hCk
          (.nil hm (.inr (hS _ (by omega) (by omega)))) (hsame.ready hb)
        refine ⟨b₂, hs, hstep.trans hrun, (hsame.grew hb.toValid).of_nil_left hgrew₂, hsound,
          fun x hp h₃ h₄ h₅ h₆ => hcomplete x hp h₃ ?_ h₅ h₆⟩
        -- an occurrence that ends inside the skipped bytes contains one of them
        by_contra hend
        exact h₆ (x + m - 1) (by omega) (by omega) (hS _ (by omega) (by omega))
    · obtain rfl : scanned = length := by omega
      refine ⟨b, [], by rw [chunkLoop, if_neg hlt], .refl hb.toValid, by simp,
        fun x _ _ h₁ h₂ => by omega⟩

theorem scanRange_turns {ctx : ScanContext} {alignmentBase : Nat} (C S R : Nat → Prop)
    (hcancel : ∀ now, env.cancelRequested now = false) (hbase : alignmentBase ≤ start)
    (hbounds : scanBoundsValid start length ctx.valueLen = true) (hC : C 0)
    (hturn : ∀ scanned, scanned < length → C scanned → FaultTurn env
      (exactChunkScan env ctx alignmentBase start (start + length) true) mem start length
      ctx.valueLen C S R scanned)
    {b : ScanBuilder} (hb : b.Ready env) :
    ∃ b' hs, scanRange env ctx b start length alignmentBase true = (.ok, b') ∧ Grew b hs b' ∧
      (∀ x ∈ hs, exactHit mem ctx alignmentBase x = true ∧ R x) ∧
      ∀ x, exactHit mem ctx alignmentBase x = true → start ≤ x →
        x + ctx.valueLen ≤ start + length →
        (∀ y, x ≤ y → y < x + ctx.valueLen → ¬ S y) → x ∈ hs := by
  have hpos := ctx.valueLen_pos
  obtain ⟨hlen, -, -, hend⟩ := scanBoundsValid_iff.mp hbounds
  obtain ⟨b', hs, hrun, hgrew, hsound, hcomplete⟩ := chunkLoop_turns C S R hpos
    (show (exactChunkScan env ctx alignmentBase start (start + length) true).overlap = _ from rfl)
    ctx.readChunk_pos rfl hcancel (exactWindow_scanWindow ctx hbase (by omega) true) hturn
    (Nat.le_add_left length 0) (Nat.zero_le _) hC (.nil hpos (.inl rfl)) hb
  refine ⟨b', hs, by rw [scanRange, if_pos hbounds]; exact hrun, hgrew, hsound, ?_⟩
  exact fun x h₁ h₂ h₃ h₄ => hcomplete x h₁ h₂ (by omega) h₃ h₄

end Run

/-! ## The ranges without loss -/

/-- `scan_range` with `skip_read_errors` loses only unreadable pages of a range:
for every memory, every set of unreadable pages, every value and every
alignment, each aligned occurrence inside readable pages is reported unless the
result limit was hit. -/
def FaultTolerant (chunk start length : Nat) : Prop :=
  ∀ (env : Env) (ctx : ScanContext) (mem : Nat → UInt8) (unreadable : Nat → Bool)
    (alignmentBase : Nat) (b : ScanBuilder),
    ctx.readChunk = chunk → alignmentBase ≤ start →
    scanBoundsValid start length ctx.valueLen = true → b.Ready env →
    (∀ now, env.cancelRequested now = false) → PageFaults env ctx.pid mem unreadable →
    ∃ b', scanRange env ctx b start length alignmentBase true = (.ok, b') ∧
      ∀ a, start ≤ a → a + ctx.valueLen ≤ start + length →
        (a - alignmentBase) % ctx.alignment = 0 → slice mem a ctx.valueLen = ctx.value →
        Readable unreadable a ctx.valueLen → a ∈ b'.stored ∨ b'.result.truncated = true

section Suffices

variable {chunk start length : Nat}

theorem faultTolerant_of_turns (C : Nat → Prop) (hC : C 0)
    (hturn : ∀ (env : Env) (pid : Int) (mem : Nat → UInt8) (unreadable : Nat → Bool) scanned,
      PageFaults env pid mem unreadable → scanned < length → C scanned →
      (∃ k, 0 < k ∧ k ≤ scanReadSize (length - scanned) chunk ∧ C (scanned + k) ∧
        Reads env pid mem (start + scanned) (scanReadSize (length - scanned) chunk) k) ∨
      (Fails env pid (start + scanned) (scanReadSize (length - scanned) chunk) ∧
        C (scanned + scanFaultSkipSize (scanReadSize (length - scanned) chunk)) ∧
        ∀ x, start + scanned ≤ x →
          x < start + scanned + scanFaultSkipSize (scanReadSize (length - scanned) chunk) →
          unreadable (x / scanMinReadChunk) = true)) :
    FaultTolerant chunk start length := by
  intro env ctx mem unreadable alignmentBase b hchunk hbase hbounds hb hcancel hfaults
  subst hchunk
  have hfault : ∀ scanned, scanned < length → C scanned → FaultTurn env
      (exactChunkScan env ctx alignmentBase start (start + length) true) mem start length
      ctx.valueLen C (fun x ↦ unreadable (x / scanMinReadChunk) = true) (fun _ ↦ True) scanned := by
    intro scanned hlt hc
    rcases hturn env ctx.pid mem unreadable scanned hfaults hlt hc with
      ⟨k, h₁, h₂, h₃, h₄⟩ | ⟨h₁, h₂, h₃⟩
    · exact .inl ⟨k, h₁, h₂, h₃, h₄, fun _ _ _ => trivial⟩
    · exact .inr ⟨h₁, h₂, h₃⟩
  obtain ⟨b', hs, hrun, hgrew, -, hcomplete⟩ := scanRange_turns C _ _ hcancel hbase hbounds hC
    hfault hb
  refine ⟨b', hrun, fun a h₁ h₂ h₃ h₄ h₅ => ?_⟩
  have hmem : a ∈ hs := hcomplete a (by simp [exactHit, h₃, h₄]) h₁ h₂ fun y hy₁ hy₂ => by
    simp [h₅ y hy₁ hy₂]
  rw [hgrew.truncated_eq, hgrew.stored_eq, Bool.or_eq_true, decide_eq_true_iff]
  rcases Nat.lt_or_ge b.maxResults (b.stored ++ hs).length with hlt | hge
  · exact .inr (.inr hlt)
  · rw [take_of_length_le hge]
    exact .inl (mem_append_right _ hmem)

theorem faultTolerant_of_page (hchunk : 4096 ≤ chunk) (hpage : start % 4096 + length ≤ 4096) :
    FaultTolerant chunk start length := by
  refine faultTolerant_of_turns (fun scanned => scanned = 0 ∨ scanned = length) (.inl rfl) ?_
  rintro env pid mem unreadable scanned hfaults hlt (rfl | rfl)
  · have hsize : scanReadSize (length - 0) chunk = length := by
      unfold scanReadSize
      split_ifs <;> omega
    rw [hsize, scanFaultSkipSize_eq, scanMinReadChunk, Nat.min_eq_left (by omega)]
    by_cases hread : Readable unreadable (start + 0) length
    · exact .inl ⟨length, hlt, Nat.le_refl _, .inr (by omega), hfaults.reads_all hlt hread⟩
    · refine .inr ⟨hfaults.fails hlt ?_, .inr (by omega), fun x h₁ h₂ => ?_⟩
      · rwa [scanMinReadChunk, Nat.min_eq_left (by omega)]
      · by_contra hx
        exact hread (readable_of_page (by simpa using hpage) h₁ h₂
          (by rw [scanMinReadChunk]; simpa using hx))
  · exact absurd hlt (Nat.lt_irrefl _)

theorem faultTolerant_of_aligned (hchunk : 8193 ≤ chunk) (halign : start % 4096 = 0)
    (hlen : length ≤ 8193) : FaultTolerant chunk start length := by
  refine faultTolerant_of_turns (fun scanned => scanned % 4096 = 0 ∨ scanned = length) (.inl rfl) ?_
  rintro env pid mem unreadable scanned hfaults hlt (hpage | rfl)
  · have hsize : scanReadSize (length - scanned) chunk = length - scanned := by
      unfold scanReadSize
      split_ifs <;> omega
    rw [hsize, scanFaultSkipSize_eq, scanMinReadChunk]
    by_cases hread : Readable unreadable (start + scanned) (length - scanned)
    · exact .inl ⟨length - scanned, by omega, Nat.le_refl _, .inr (by omega),
        hfaults.reads_all (by omega) hread⟩
    · by_cases hfirst : Readable unreadable (start + scanned) (min (length - scanned) 4096)
      · -- the first page can be read, so more than one page is left
        have hlong : 4096 < length - scanned := by
          by_contra hle
          rw [Nat.min_eq_left (by omega)] at hfirst
          exact hread hfirst
        have hnext : nextAttempt (length - scanned) = 4096 := by
          unfold nextAttempt
          rw [scanMinReadChunk]
          split_ifs <;> omega
        rw [Nat.min_eq_right (by omega)] at hfirst
        refine .inl ⟨4096, by omega, by omega, .inl (by omega), ?_⟩
        have := hfaults.reads_half (n := length - scanned) hlong hread (by rwa [hnext])
        rwa [hnext] at this
      · refine .inr ⟨hfaults.fails (by omega) hfirst, by omega, fun x h₁ h₂ => ?_⟩
        by_contra hx
        exact hfirst (readable_of_page (by omega) h₁ h₂
          (by rw [scanMinReadChunk]; simpa using hx))
  · exact absurd hlt (Nat.lt_irrefl _)

end Suffices

/-! ## The ranges with loss -/

def Env.faulty (platform : Platform) (mem : Nat → UInt8) (unreadable : Nat → Bool) : Env where
  platform := platform
  palRead _ a n :=
    if (List.range' a n).all fun x => !unreadable (x / scanMinReadChunk) then .done (slice mem a n)
    else .failed ⟨.errIo, errIo_ne_ok⟩
  alloc _ := true
  cancelRequested _ := false
  monotonicNs _ := 0

theorem pageFaults_faulty (platform : Platform) (mem : Nat → UInt8) (unreadable : Nat → Bool)
    {pid : Int} (hpid : 0 < pid) :
    PageFaults (.faulty platform mem unreadable) pid mem unreadable := by
  have hall : ∀ a n, ((List.range' a n).all fun x => !unreadable (x / scanMinReadChunk)) = true ↔
      Readable unreadable a n := by
    intro a n
    simp only [all_eq_true, mem_range'_1, Bool.not_eq_true', Readable, and_imp]
  have hread : ∀ now a n, 0 < n → memoryRead (.faulty platform mem unreadable) pid now a n =
      if (List.range' a n).all fun x => !unreadable (x / scanMinReadChunk) then
        .done (slice mem a n)
      else .failed ⟨.errIo, errIo_ne_ok⟩ := by
    intro now a n hn
    rw [memoryRead, if_neg (by omega), if_neg (by omega)]
    rfl
  constructor
  · intro now a n hn h
    rw [hread now a n hn, if_pos ((hall a n).mpr h)]
  · intro now a n hn h
    exact ⟨_, by rw [hread now a n hn, if_neg (mt (hall a n).mp h)]⟩

def byteContext (chunk : Nat) (hchunk : 0 < chunk) : ScanContext where
  pid := 1
  valueType := .u8
  valueLen := 1
  alignment := 1
  needle := [1]
  readChunk := chunk
  pid_pos := Int.one_pos
  valueLen_pos := Nat.zero_lt_one
  valueLen_le := by decide
  alignment_pos := Nat.zero_lt_one
  alignment_lt := one_lt_word
  length_needle := by decide
  readChunk_pos := hchunk

def markedMemory (mark a : Nat) : UInt8 := if a = mark then 1 else 0

section Loses

variable {chunk start length mark : Nat} {unreadable : Nat → Bool}

def AvoidingTurn (env : Env) (mem : Nat → UInt8) (chunk start length mark : Nat) (C : Nat → Prop)
    (scanned : Nat) : Prop :=
  (∃ k, 0 < k ∧ k ≤ scanReadSize (length - scanned) chunk ∧ C (scanned + k) ∧
    Reads env 1 mem (start + scanned) (scanReadSize (length - scanned) chunk) k ∧
    (start + scanned ≤ mark → start + scanned + k ≤ mark)) ∨
  (Fails env 1 (start + scanned) (scanReadSize (length - scanned) chunk) ∧
    C (scanned + scanFaultSkipSize (scanReadSize (length - scanned) chunk)))

theorem scanRange_avoiding (mark : Nat) (unreadable : Nat → Bool) (C : Nat → Prop)
    (hC : C 0) (hchunk : 0 < chunk) (hbounds : scanBoundsValid start length 1 = true)
    (hturn : ∀ (env : Env) (mem : Nat → UInt8) scanned,
      PageFaults env 1 mem unreadable → scanned < length → C scanned →
      AvoidingTurn env mem chunk start length mark C scanned) :
    ∃ b', scanRange (.faulty .host (markedMemory mark) unreadable) (byteContext chunk hchunk)
        (.preallocated 1) start length start true = (.ok, b') ∧
      b'.stored = [] ∧ b'.result.truncated = false := by
  let env : Env := .faulty .host (markedMemory mark) unreadable
  have hfaults : PageFaults env 1 (markedMemory mark) unreadable :=
    pageFaults_faulty .host (markedMemory mark) unreadable (by decide)
  have hready : (ScanBuilder.preallocated 1).Ready env :=
    ScanBuilder.ready_preallocated env (by decide)
  have hfault : ∀ scanned, scanned < length → C scanned → FaultTurn env
      (exactChunkScan env (byteContext chunk hchunk) start start (start + length) true)
      (markedMemory mark) start length 1 C (fun _ => True) (fun x => x ≠ mark) scanned := by
    intro scanned hlt hc
    rcases hturn env _ scanned hfaults hlt hc with ⟨k, h₁, h₂, h₃, h₄, h₅⟩ | ⟨h₁, h₂⟩
    · exact .inl ⟨k, h₁, h₂, h₃, h₄, fun x hx hx' => by omega⟩
    · exact .inr ⟨h₁, h₂, fun _ _ _ => trivial⟩
  obtain ⟨b', hs, hrun, hgrew, hsound, -⟩ := scanRange_turns C _ _ (fun _ ↦ rfl) (Nat.le_refl start)
    hbounds hC hfault hready
  -- nothing but the mark matches, and the mark is never read
  obtain rfl : hs = [] := by
    rw [eq_nil_iff_forall_not_mem]
    intro x hx
    obtain ⟨hhit, hne⟩ := hsound x hx
    rw [exactHit_of_byte rfl rfl, beq_iff_eq, markedMemory, if_neg hne] at hhit
    exact absurd hhit (show (0 : UInt8) ≠ 1 by decide)
  refine ⟨b', hrun, ?_, ?_⟩
  · rw [hgrew.stored_eq]
    rfl
  · rw [hgrew.truncated_eq]
    rfl

theorem not_faultTolerant_of_turns (mark : Nat) (unreadable : Nat → Bool) (C : Nat → Prop)
    (hC : C 0) (hchunk : 0 < chunk) (hbounds : scanBoundsValid start length 1 = true)
    (hmark : start ≤ mark) (hmark' : mark < start + length)
    (hpage : unreadable (mark / scanMinReadChunk) = false)
    (hturn : ∀ (env : Env) (mem : Nat → UInt8) scanned,
      PageFaults env 1 mem unreadable → scanned < length → C scanned →
      AvoidingTurn env mem chunk start length mark C scanned) :
    ¬ FaultTolerant chunk start length := by
  intro htolerant
  obtain ⟨b', hrun, hstored, htruncated⟩ := scanRange_avoiding mark unreadable C hC hchunk hbounds
    hturn
  obtain ⟨b'', hrun', hfound⟩ := htolerant (.faulty .host (markedMemory mark) unreadable)
    (byteContext chunk hchunk) (markedMemory mark) unreadable start (.preallocated 1) rfl
    (Nat.le_refl _) hbounds (ScanBuilder.ready_preallocated _ (by decide)) (fun _ => rfl)
    (pageFaults_faulty .host _ _ (show (0 : Int) < 1 by decide))
  obtain rfl : b' = b'' := by
    rw [hrun] at hrun'
    exact (Prod.mk.inj hrun').2
  have hvalue : slice (markedMemory mark) mark 1 = (byteContext chunk hchunk).value := by
    simp [slice, markedMemory, byteContext, ScanContext.value]
  have hread : Readable unreadable mark 1 := by
    intro x h₁ h₂
    obtain rfl : x = mark := by omega
    exact hpage
  rcases hfound mark hmark hmark' (Nat.mod_one _) hvalue hread with h | h
  · rw [hstored] at h
    exact absurd h (not_mem_nil)
  · rw [htruncated] at h
    exact absurd h (by decide)

theorem avoidingTurn_behind {env : Env} {mem : Nat → UInt8}
    (hfaults : PageFaults env 1 mem unreadable)
    (hchunk : 0 < chunk) {C : Nat → Prop} {scanned : Nat} (hlt : scanned < length)
    (hC : ∀ n, scanned ≤ n → C n) (hmark : mark < start + scanned) :
    AvoidingTurn env mem chunk start length mark C scanned := by
  have hsize := scanReadSize_pos (show 0 < length - scanned by omega) hchunk
  rcases hfaults.reads_or_fails (start + scanned) hsize with ⟨k, h₁, h₂, -, -, h₃⟩ | h
  · exact .inl ⟨k, h₁, h₂, hC _ (by omega), h₃, fun h => absurd h (by omega)⟩
  · exact .inr ⟨h, hC _ (by omega)⟩

theorem not_faultTolerant_of_unaligned (hchunk : 4096 ≤ chunk)
    (hbounds : scanBoundsValid start length 1 = true) (halign : start % 4096 ≠ 0)
    (hleave : 4096 < start % 4096 + length) : ¬ FaultTolerant chunk start length := by
  obtain ⟨hlen, -, -, -⟩ := scanBoundsValid_iff.mp hbounds
  refine not_faultTolerant_of_turns start (fun page => page == start / 4096 + 1)
    (fun scanned => scanned = 0 ∨ 0 < scanned) (.inl rfl) (by omega) hbounds
    (Nat.le_refl _) (by omega) (by simp [scanMinReadChunk]) ?_
  rintro env mem scanned hfaults hlt (rfl | hpos)
  · have hsize : min (scanReadSize (length - 0) chunk) 4096 = min length 4096 := by
      unfold scanReadSize
      split_ifs <;> omega
    have hpos := scanReadSize_pos (show 0 < length - 0 by omega) (show 0 < chunk by omega)
    refine .inr ⟨hfaults.fails hpos ?_, .inr ?_⟩
    · rw [scanMinReadChunk, hsize]
      intro hread
      have := hread (start + (4096 - start % 4096)) (by omega) (by omega)
      rw [scanMinReadChunk, show (start + (4096 - start % 4096)) / 4096 = start / 4096 + 1 by
        omega] at this
      simp at this
    · rw [scanFaultSkipSize_eq, scanMinReadChunk]
      omega
  · exact avoidingTurn_behind hfaults (by omega) hlt (fun n hn => .inr (by omega)) (by omega)

def HalvingCursor (q rest scanned : Nat) : Prop :=
  (∃ t, t ≤ q ∧ scanned = 4096 * t) ∨ scanned = 4096 * q + rest / 2 ∨
    4096 * q + rest / 2 < scanned

theorem avoidingTurn_halving {q rest : Nat} (hchunk : 12289 ≤ chunk) (halign : start % 4096 = 0)
    (hlen : length = 4096 * q + rest) (hlo : 8194 ≤ rest) (hhi : rest ≤ 12289)
    (hskip : ∀ t < q, unreadable (start / 4096 + t) = true)
    (hfirst : unreadable (start / 4096 + q) = false)
    (hsecond : unreadable (start / 4096 + q + 1) = false)
    (hthird : unreadable (start / 4096 + q + 2) = true)
    {env : Env} {mem : Nat → UInt8} {scanned : Nat} (hfaults : PageFaults env 1 mem unreadable)
    (hlt : scanned < length) (hcursor : HalvingCursor q rest scanned) :
    AvoidingTurn env mem chunk start length (start + 4096 * q + rest / 2) (HalvingCursor q rest)
      scanned := by
  have htouch : ∀ a n x, a ≤ x → x < a + n → unreadable (x / 4096) = true →
      ¬ Readable unreadable a n := by
    intro a n x h₁ h₂ hx hread
    have := hread x h₁ h₂
    rw [scanMinReadChunk, hx] at this
    exact absurd this (by decide)
  rcases hcursor with ⟨t, ht, rfl⟩ | rfl | hbehind
  · rcases Nat.lt_or_eq_of_le ht with ht | rfl
    · -- a leading page
      have hsize : 4096 ≤ scanReadSize (length - 4096 * t) chunk := by
        unfold scanReadSize
        split_ifs <;> omega
      refine .inr ⟨hfaults.fails (by omega) ?_, .inl ⟨t + 1, ht, ?_⟩⟩
      · rw [scanMinReadChunk, Nat.min_eq_right hsize]
        refine htouch _ _ (start + 4096 * t) (Nat.le_refl _) (by omega) ?_
        rw [show (start + 4096 * t) / 4096 = start / 4096 + t by omega]
        exact hskip t ht
      · rw [scanFaultSkipSize_eq, scanMinReadChunk]
        omega
    · -- the page two further on is unreadable, so half of the rest is read
      have hsize : scanReadSize (length - 4096 * t) chunk = rest := by
        unfold scanReadSize
        split_ifs <;> omega
      have hnext : nextAttempt rest = rest / 2 := by
        unfold nextAttempt
        rw [scanMinReadChunk]
        split_ifs <;> omega
      have hfail : ¬ Readable unreadable (start + 4096 * t) rest := by
        refine htouch _ _ (start + 4096 * t + 8192) (by omega) (by omega) ?_
        rw [show (start + 4096 * t + 8192) / 4096 = start / 4096 + t + 2 by omega]
        exact hthird
      have hhalf : Readable unreadable (start + 4096 * t) (nextAttempt rest) := by
        intro x h₁ h₂
        rw [hnext] at h₂
        have hpage : x / 4096 = start / 4096 + t ∨ x / 4096 = start / 4096 + t + 1 := by omega
        rw [scanMinReadChunk]
        rcases hpage with h | h
        · rw [h, hfirst]
        · rw [h, hsecond]
      have hreads := hfaults.reads_half (by rw [scanMinReadChunk]; omega) hfail hhalf
      rw [hnext] at hreads
      rw [AvoidingTurn, hsize]
      exact .inl ⟨rest / 2, by omega, by omega, .inr (.inl rfl), hreads, fun _ => by omega⟩
  · -- in the middle of a page, and the next page cannot be read
    have hsize : 4096 < scanReadSize (length - (4096 * q + rest / 2)) chunk := by
      unfold scanReadSize
      split_ifs <;> omega
    refine .inr ⟨hfaults.fails (by omega) ?_, .inr (.inr ?_)⟩
    · rw [scanMinReadChunk, Nat.min_eq_right (by omega)]
      refine htouch _ _ (start + 4096 * q + 8192) (by omega) (by omega) ?_
      rw [show (start + 4096 * q + 8192) / 4096 = start / 4096 + q + 2 by omega]
      exact hthird
    · rw [scanFaultSkipSize_eq, scanMinReadChunk]
      omega
  · exact avoidingTurn_behind hfaults (by omega) hlt (fun n hn => .inr (.inr (by omega)))
      (by omega)

theorem not_faultTolerant_of_aligned (hchunk : 12289 ≤ chunk)
    (hbounds : scanBoundsValid start length 1 = true) (halign : start % 4096 = 0)
    (hlong : 8193 < length) : ¬ FaultTolerant chunk start length := by
  obtain ⟨q, rest, hlen, hlo, hhi⟩ : ∃ q rest, length = 4096 * q + rest ∧ 8194 ≤ rest ∧
      rest ≤ 12289 := ⟨(length - 8194) / 4096, 8194 + (length - 8194) % 4096, by omega, by omega,
    by omega⟩
  refine not_faultTolerant_of_turns (start + 4096 * q + rest / 2)
    (fun page => decide (page < start / 4096 + q) || page == start / 4096 + q + 2)
    (HalvingCursor q rest) (.inl ⟨0, Nat.zero_le _, rfl⟩) (by omega) hbounds (by omega) (by omega)
    ?_ fun env mem scanned hfaults hlt hcursor => avoidingTurn_halving hchunk halign hlen hlo hhi
      ?_ ?_ ?_ ?_ hfaults hlt hcursor
  · rw [scanMinReadChunk,
      show (start + 4096 * q + rest / 2) / 4096 = start / 4096 + q + 1 by omega]
    simp
  · exact fun t ht => by simp [ht]
  · simp
  · simp
  · simp

end Loses

/-- **Which ranges lose only unreadable pages.**  For the read sizes in use, exactly
the ranges inside one page and those of at most 8193 bytes from a page boundary. -/
theorem faultTolerant_iff (platform : Platform) {chunk start length : Nat}
    (hchunk : chunk = scanChunk platform ∨ chunk = scanExactRangeChunk platform)
    (hbounds : scanBoundsValid start length 1 = true) :
    FaultTolerant chunk start length ↔
      start % 4096 + length ≤ 4096 ∨ start % 4096 = 0 ∧ length ≤ 8193 := by
  have hlarge : 12289 ≤ chunk := by
    rcases hchunk with rfl | rfl <;> cases platform <;> decide
  constructor
  · intro htolerant
    by_contra hcond
    rw [not_or] at hcond
    by_cases halign : start % 4096 = 0
    · exact not_faultTolerant_of_aligned hlarge hbounds halign (by omega) htolerant
    · exact not_faultTolerant_of_unaligned (by omega) hbounds halign (by omega) htolerant
  · rintro (hpage | ⟨halign, hlen⟩)
    · exact faultTolerant_of_page (by omega) hpage
    · exact faultTolerant_of_aligned (by omega) halign hlen

theorem faultTolerant_iff_two_pages : FaultTolerant (scanExactRangeChunk .host) 65536 8192 :=
  (faultTolerant_iff .host (.inr rfl) (by decide)).mpr (.inr (by decide))

theorem faultTolerant_three_pages_lost :
    Readable (fun page => page == 18) 71680 1 ∧ markedMemory 71680 71680 = 1 ∧
      ∃ b', scanRange (.faulty .host (markedMemory 71680) fun page => page == 18)
          (byteContext (scanExactRangeChunk .host) (by decide)) (.preallocated 1) 65536 12288 65536
          true = (.ok, b') ∧
        b'.stored = [] ∧ b'.result.truncated = false ∧
        ¬ FaultTolerant (scanExactRangeChunk .host) 65536 12288 := by
  refine ⟨fun x h₁ h₂ => ?_, rfl, ?_⟩
  · obtain rfl : x = 71680 := by omega
    rfl
  · obtain ⟨b', hrun, hstored, htruncated⟩ := scanRange_avoiding 71680 (fun page => page == 18)
      (HalvingCursor 0 12288) (.inl ⟨0, Nat.le_refl _, rfl⟩)
      (show 0 < scanExactRangeChunk .host by decide) (show scanBoundsValid 65536 12288 1 = true by
        decide) fun env mem scanned hfaults hlt hcursor =>
          avoidingTurn_halving (by decide) (by decide) rfl (by decide) (by decide)
            (fun t ht => absurd ht (Nat.not_lt_zero t)) rfl rfl rfl hfaults hlt hcursor
    exact ⟨b', hrun, hstored, htruncated,
      not_faultTolerant_of_aligned (by decide) (by decide) (by decide) (by decide)⟩

end MemDbg.Scan
