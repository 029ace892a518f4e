import MemDbg.Lib.Search
import MemDbg.Scan.Read

/-!
# The chunked range loop

`scan_range`, `scan_aob_range`, `scan_unknown_range` and the map loop of
`memdbg_scan_pointer` walk a range in the same way: read a chunk behind the bytes
carried over from the previous window, search the window, keep its last
`overlap` bytes, go on.  They differ in the window search and in three details,
which are the fields of `ChunkScan`.
-/

namespace MemDbg.Scan

open Lib

structure ChunkScan where
  pid : Int
  chunk : Nat
  overlap : Nat
  pollsCancel : Bool
  reportsBytes : Bool
  skipReadErrors : Bool
  window : ScanBuilder → List UInt8 → Nat → Status × ScanBuilder

def carryOver (overlap : Nat) (carry window : List UInt8) : List UInt8 :=
  if overlap ≠ 0 then
    window.drop (window.length - if window.length < overlap then window.length else overlap)
  else carry

namespace ScanBuilder

def pollCancel (env : Env) (b : ScanBuilder) :
    Bool := b.progress.isSome && env.cancelRequested b.now

def tick (b : ScanBuilder) : ScanBuilder := { b with now := b.now + 1 }

end ScanBuilder

def chunkLoop (env : Env) (c : ChunkScan) (start length : Nat) :
    Nat → Nat → List UInt8 → ScanBuilder → Status × ScanBuilder
  | 0, _, _, b => (.ok, b)
  | fuel + 1, scanned, carry, b =>
    if scanned < length then
      if c.pollsCancel && b.pollCancel env then (.ok, b.setTruncated)
      else
        let toRead := scanReadSize (length - scanned) c.chunk
        match scanMemoryReadResilient env c.pid (start + scanned) toRead b.tick with
        | (b, .failed st) =>
          if c.skipReadErrors then
            chunkLoop env c start length fuel (scanned + scanFaultSkipSize toRead) [] b
          else (st, b)
        | (b, .done bytes) =>
          if bytes = [] then (.ok, b)
          else
            let window := carry ++ bytes
            match c.window (b.countBytes c.reportsBytes bytes.length) window
                (start + scanned - carry.length) with
            | (.ok, b) =>
              chunkLoop env c start length fuel (scanned + bytes.length)
                (carryOver c.overlap carry window) b
            | r => r
    else (.ok, b)

def chunkScan (env : Env) (c : ChunkScan) (start length : Nat) (b : ScanBuilder) :
    Status × ScanBuilder :=
  chunkLoop env c start length length 0 [] b

theorem SameHits.tick (b : ScanBuilder) : SameHits b b.tick := ⟨rfl, rfl, rfl, rfl, rfl⟩

theorem carryOver_slice (mem : Nat → UInt8) {m base n : Nat} (hm : 0 < m) (carry : List UInt8)
    (hcarry : m = 1 → carry = []) :
    carryOver (m - 1) carry (slice mem base n) =
      slice mem (base + n - min n (m - 1)) (min n (m - 1)) := by
  unfold carryOver
  by_cases h : m - 1 ≠ 0
  · rw [if_pos h, drop_slice, length_slice]
    split_ifs with hlt
    · rw [Nat.min_eq_left (by omega), Nat.sub_self, Nat.add_zero, Nat.sub_zero,
        Nat.add_sub_cancel]
    · rw [Nat.min_eq_right (by omega)]
      congr 1 <;> omega
  · have h1 : m = 1 := by omega
    rw [if_neg h, hcarry h1, h1]
    simp

section Exact

variable {env : Env} {c : ChunkScan} {mem : Nat → UInt8} {p : Nat → Bool} {start length m : Nat}

def windowBase (start m scanned : Nat) : Nat := start + scanned - min scanned (m - 1)

structure ExactTurn (env : Env) (c : ChunkScan) (mem : Nat → UInt8) (p : Nat → Bool)
    (start length m now scanned k : Nat) : Prop where
  pos : 0 < k
  le : scanned + k ≤ length
  read : memoryRead env c.pid now (start + scanned) (scanReadSize (length - scanned) c.chunk) =
    .done (slice mem (start + scanned) k)
  window : ∀ b, b.Ready env →
    ∃ b', c.window b (slice mem (windowBase start m scanned) (min scanned (m - 1) + k))
        (windowBase start m scanned) = (.ok, b') ∧
      Grew b (hits p (windowBase start m scanned) (min scanned (m - 1) + k + 1 - m)) b'

theorem chunkLoop_grew (C : Nat → Prop) (hm : 0 < m) (hoverlap : c.overlap = m - 1)
    (hchunk : 0 < c.chunk)
    (hpoll : c.pollsCancel = false ∨ ∀ now, env.cancelRequested now = false)
    (hturn : ∀ now scanned, scanned < length → C scanned →
      ∃ k, C (scanned + k) ∧ ExactTurn env c mem p start length m now scanned k)
    {fuel scanned : Nat} (hfuel : length ≤ scanned + fuel) (hscanned : scanned ≤ length)
    (hC : C scanned) {b : ScanBuilder} (hb : b.Ready env) :
    ∃ b' hs, chunkLoop env c start length fuel scanned
        (slice mem (windowBase start m scanned) (min scanned (m - 1))) b = (.ok, b') ∧
      Grew b hs b' ∧
      hits p start (scanned + 1 - m) ++ hs = hits p start (length + 1 - m) := by
  induction fuel generalizing scanned b with
  | zero =>
    obtain rfl : scanned = length := by omega
    exact ⟨b, [], rfl, .refl hb.toValid, List.append_nil _⟩
  | succ fuel ih =>
    by_cases hlt : scanned < length
    · have hsize : 0 < scanReadSize (length - scanned) c.chunk :=
        scanReadSize_pos (by omega) hchunk
      obtain ⟨k, hCk, hk, hle, hread, hwindow⟩ := hturn b.tick.now scanned hlt hC
      -- the window is the carried slice followed by the bytes just read
      have hwin : slice mem (windowBase start m scanned) (min scanned (m - 1)) ++
          slice mem (start + scanned) k =
          slice mem (windowBase start m scanned) (min scanned (m - 1) + k) := by
        rw [← slice_append, windowBase]
        congr 2
        omega
      have hsame : SameHits b (b.tick.countRead.countBytes c.reportsBytes k) :=
        ((SameHits.tick b).trans (.countRead _)).trans (.countBytes _ _ _)
      obtain ⟨b₁, hrun, hgrew⟩ := hwindow _ (hsame.ready hb)
      obtain ⟨b₂, hs, hloop, hgrew₂, hhits⟩ := ih (by omega) hle hCk
        (hgrew.ready (hsame.ready hb))
      refine ⟨b₂, hits p (windowBase start m scanned) (min scanned (m - 1) + k + 1 - m) ++ hs,
        ?_, (hsame.grew hb.toValid).of_nil_left (hgrew.trans hgrew₂), ?_⟩
      · have hnil : slice mem (start + scanned) k ≠ [] := by
          rw [ne_eq, slice_eq_nil]
          omega
        have hgo : (c.pollsCancel && b.pollCancel env) = false := by
          rcases hpoll with h | h <;> simp [ScanBuilder.pollCancel, h]
        have hlen : start + scanned - min scanned (m - 1) = windowBase start m scanned := rfl
        rw [chunkLoop, if_pos hlt]
        simp only [hgo, Bool.false_eq_true, if_false, scanMemoryReadResilient_of_done hsize hread,
          hnil, length_slice, hwin, hlen, hrun]
        rw [hoverlap, carryOver_slice mem hm _ (by rintro rfl; simp),
          show windowBase start m scanned + (min scanned (m - 1) + k) -
              min (min scanned (m - 1) + k) (m - 1) = windowBase start m (scanned + k) by
            unfold windowBase; omega,
          show min (min scanned (m - 1) + k) (m - 1) = min (scanned + k) (m - 1) by omega]
        exact hloop
      · rw [← List.append_assoc, windowBase, hits_window hm]
        exact hhits
    · obtain rfl : scanned = length := by omega
      refine ⟨b, [], ?_, .refl hb.toValid, List.append_nil _⟩
      rw [chunkLoop, if_neg hlt]

theorem chunkScan_of_turns (C : Nat → Prop) (hC : C 0) (hm : 0 < m) (hoverlap : c.overlap = m - 1)
    (hchunk : 0 < c.chunk)
    (hpoll : c.pollsCancel = false ∨ ∀ now, env.cancelRequested now = false)
    (hturn : ∀ now scanned, scanned < length → C scanned →
      ∃ k, C (scanned + k) ∧ ExactTurn env c mem p start length m now scanned k)
    {b : ScanBuilder} (hb : b.Ready env) :
    ∃ b', chunkScan env c start length b = (.ok, b') ∧
      Grew b (hits p start (length + 1 - m)) b' := by
  obtain ⟨b', hs, hrun, hgrew, hhits⟩ := chunkLoop_grew C hm hoverlap hchunk hpoll hturn
    (Nat.le_add_left length 0) (Nat.zero_le length) hC hb
  rw [show 0 + 1 - m = 0 by omega, hits_zero, List.nil_append] at hhits
  exact ⟨b', by simpa [chunkScan] using hrun, hhits ▸ hgrew⟩

theorem chunkLoop_grows (hskip : c.skipReadErrors = true)
    (hpoll : c.pollsCancel = false ∨ ∀ now, env.cancelRequested now = false)
    (hwindow : ∀ b bytes base, b.Ready env →
      ∃ hs b', c.window b bytes base = (.ok, b') ∧ Grew b hs b')
    (start length fuel scanned : Nat) (carry : List UInt8) {b : ScanBuilder} (hb : b.Ready env) :
    ∃ hs b', chunkLoop env c start length fuel scanned carry b = (.ok, b') ∧ Grew b hs b' := by
  induction fuel generalizing scanned carry b with
  | zero => exact ⟨[], b, rfl, .refl hb.toValid⟩
  | succ fuel ih =>
    by_cases hlt : scanned < length
    · have hgo : (c.pollsCancel && b.pollCancel env) = false := by
        rcases hpoll with h | h <;> simp [ScanBuilder.pollCancel, h]
      have hsame := (SameHits.tick b).trans (.scanMemoryReadResilient env c.pid
        (start + scanned) (scanReadSize (length - scanned) c.chunk) b.tick)
      rw [chunkLoop, if_pos hlt]
      simp only [hgo, Bool.false_eq_true, if_false]
      generalize scanMemoryReadResilient env c.pid (start + scanned)
        (scanReadSize (length - scanned) c.chunk) b.tick = r at *
      obtain ⟨b₁, outcome⟩ := r
      cases outcome with
      | failed st =>
        simp only [hskip, if_true]
        obtain ⟨hs, b₂, hrun, hgrew⟩ := ih (scanned + scanFaultSkipSize
          (scanReadSize (length - scanned) c.chunk)) [] (hsame.ready hb)
        exact ⟨hs, b₂, hrun, (hsame.grew hb.toValid).of_nil_left hgrew⟩
      | done bytes =>
        dsimp only
        by_cases hnil : bytes = []
        · rw [if_pos hnil]
          exact ⟨[], b₁, rfl, hsame.grew hb.toValid⟩
        · rw [if_neg hnil]
          have hsame₁ := hsame.trans (.countBytes c.reportsBytes bytes.length b₁)
          obtain ⟨hs₁, b₂, hrun₁, hgrew₁⟩ := hwindow (b₁.countBytes c.reportsBytes bytes.length)
            (carry ++ bytes) (start + scanned - carry.length) (hsame₁.ready hb)
          obtain ⟨hs₂, b₃, hrun₂, hgrew₂⟩ := ih (scanned + bytes.length)
            (carryOver c.overlap carry (carry ++ bytes)) (hgrew₁.ready (hsame₁.ready hb))
          refine ⟨hs₁ ++ hs₂, b₃, ?_,
            (hsame₁.grew hb.toValid).of_nil_left (hgrew₁.trans hgrew₂)⟩
          simp only [hrun₁]
          exact hrun₂
    · exact ⟨[], b, by rw [chunkLoop, if_neg hlt], .refl hb.toValid⟩

def ExactWindow (env : Env) (c : ChunkScan) (mem : Nat → UInt8) (p : Nat → Bool)
    (start length m : Nat) : Prop :=
  ∀ b base n, b.Ready env → start ≤ base → base + n ≤ start + length → 0 < n → n < m + c.chunk →
    ∃ b', c.window b (slice mem base n) base = (.ok, b') ∧ Grew b (hits p base (n + 1 - m)) b'

theorem chunkScan_grew (hm : 0 < m) (hoverlap : c.overlap = m - 1) (hchunk : 0 < c.chunk)
    (hpoll : c.pollsCancel = false ∨ ∀ now, env.cancelRequested now = false)
    (hreads : ShortReads env c.pid mem start (start + length))
    (hwindow : ExactWindow env c mem p start length m) {b : ScanBuilder} (hb : b.Ready env) :
    ∃ b', chunkScan env c start length b = (.ok, b') ∧
      Grew b (hits p start (length + 1 - m)) b' := by
  suffices hturn : ∀ now scanned, scanned < length → True →
      ∃ k, True ∧ ExactTurn env c mem p start length m now scanned k from
    chunkScan_of_turns (fun _ => True) trivial hm hoverlap hchunk hpoll hturn hb
  intro now scanned hlt _
  have hle := scanReadSize_le_remaining (length - scanned) c.chunk
  have hlec := scanReadSize_le_chunk (length - scanned) c.chunk
  obtain ⟨k, hk, hkn, hread⟩ := hreads now (start + scanned)
    (scanReadSize (length - scanned) c.chunk) (by omega) (by omega)
    (scanReadSize_pos (by omega) hchunk)
  refine ⟨k, trivial, hk, by omega, hread, fun b hb => hwindow b _ _ hb ?_ ?_ ?_ ?_⟩ <;>
    (try unfold windowBase) <;> omega

end Exact

end MemDbg.Scan
