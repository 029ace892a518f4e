import MemDbg.Lib.Suffix
import MemDbg.Scan.Result

/-!
# Boyer-Moore tables

The skip tables of `match.c`: the wildcard-capped bad-character table, and the
good-suffix table built from the suffix lengths of the pattern.  Arrays are
functions of their index.
-/

namespace MemDbg.Scan

open List Function Lib

structure BmTable where
  skip : UInt8 → Nat
  gsShift : Option (Nat → Nat)

def bcStep (pattern mask : List UInt8) (patLen : Nat) (skip : UInt8 → Nat) (i : Nat) :
    UInt8 → Nat :=
  let cap := patLen - 1 - i
  if mask.getD i 0 ≠ 0 then
    if skip (pattern.getD i 0) > cap then update skip (pattern.getD i 0) cap else skip
  else fun b => if skip b > cap then cap else skip b

def bmBuildBcTable (pattern mask : List UInt8) (patLen : Nat) : UInt8 → Nat :=
  (List.range (patLen - 1)).foldl (bcStep pattern mask patLen) fun _ => patLen

def slideDown (pattern : Nat → UInt8) (patLen f : Nat) : Nat → Int
  | 0 => -1
  | g + 1 => if pattern g = pattern (g + patLen - 1 - f) then slideDown pattern patLen f g else g

def suffixLoop (pattern : Nat → UInt8) (patLen : Nat) :
    Nat → (Nat → Nat) → Int → Int → Nat → Nat
  | 0, suffix, _, _ => suffix
  | i + 1, suffix, f, g =>
    if (i : Int) > g ∧ suffix (i + patLen - 1 - f.toNat) < ((i : Int) - g).toNat then
      suffixLoop pattern patLen i
        (update suffix i (suffix (i + patLen - 1 - f.toNat))) f g
    else
      let g := slideDown pattern patLen i ((if (i : Int) < g then (i : Int) else g) + 1).toNat
      suffixLoop pattern patLen i (update suffix i ((i : Int) - g).toNat) i g

def suffixTable (pattern : Nat → UInt8) (patLen : Nat) : Nat → Nat :=
  suffixLoop pattern patLen (patLen - 1) (update (fun _ => 0) (patLen - 1) patLen)
    0 (patLen - 1 : Nat)

def borderFill (patLen cutoff : Nat) : Nat → Nat → (Nat → Nat) → Nat → Nat
  | 0, _, gs => gs
  | n + 1, j, gs =>
    borderFill patLen cutoff n (j + 1) (if gs j = patLen then update gs j cutoff else gs)

def borderLoop (suffix : Nat → Nat) (patLen : Nat) : Nat → Nat → (Nat → Nat) → Nat → Nat
  | 0, _, gs => gs
  | i + 1, j, gs =>
    if suffix i = i + 1 then
      borderLoop suffix patLen i (max j (patLen - 1 - i))
        (borderFill patLen (patLen - 1 - i) (patLen - 1 - i - j) j gs)
    else borderLoop suffix patLen i j gs

def suffixStep (suffix : Nat → Nat) (patLen : Nat) (gs : Nat → Nat) (i : Nat) : Nat → Nat :=
  let pos := patLen - 1 - suffix i
  if gs pos > patLen - 1 - i then update gs pos (patLen - 1 - i) else gs

def goodSuffixTable (pattern : Nat → UInt8) (patLen : Nat) : Nat → Nat :=
  let suffix := suffixTable pattern patLen
  (List.range (patLen - 1)).foldl (suffixStep suffix patLen)
    (borderLoop suffix patLen patLen 0 fun _ => patLen)

def bmGsMinLength : Nat := 4

def bmBuildGsTable (env : Env) (pattern : List UInt8) (patLen : Nat) : Option (Nat → Nat) :=
  if patLen < bmGsMinLength then none
  else if env.alloc .gsShift = false then none
  else if env.alloc .gsSuffix = false then none
  else some (goodSuffixTable (fun i => pattern.getD i 0) patLen)

def allExact (mask : List UInt8) (patLen : Nat) : Bool :=
  (List.range patLen).all fun i => mask.getD i 0 ≠ 0

def bmBuildTable (env : Env) (pattern mask : List UInt8) (patLen : Nat) : BmTable where
  skip := bmBuildBcTable pattern mask patLen
  gsShift := if allExact mask patLen then bmBuildGsTable env pattern patLen else none

/-! ## The bad-character table -/

theorem bcTable_bounds (pattern mask : List UInt8) (patLen : Nat) (hm : 0 < patLen) (b : UInt8) :
    0 < bmBuildBcTable pattern mask patLen b ∧ bmBuildBcTable pattern mask patLen b ≤ patLen ∧
      ∀ i, i < patLen - 1 → mask.getD i 0 = 0 ∨ pattern.getD i 0 = b →
        bmBuildBcTable pattern mask patLen b ≤ patLen - 1 - i := by
  unfold bmBuildBcTable
  suffices h : ∀ n, n ≤ patLen - 1 →
      let t := (List.range n).foldl (bcStep pattern mask patLen) fun _ => patLen
      0 < t b ∧ t b ≤ patLen ∧
        ∀ i, i < n → mask.getD i 0 = 0 ∨ pattern.getD i 0 = b → t b ≤ patLen - 1 - i from
    h (patLen - 1) (Nat.le_refl _)
  intro n
  induction n with
  | zero => exact fun _ => ⟨hm, Nat.le_refl _, fun i hi => absurd hi (Nat.not_lt_zero _)⟩
  | succ n ih =>
    intro hn
    obtain ⟨hpos, hle, hall⟩ := ih (by omega)
    simp only [range_succ, foldl_append, foldl_cons, foldl_nil]
    generalize (List.range n).foldl (bcStep pattern mask patLen) (fun _ => patLen) = t at *
    -- one turn only lowers entries, and lowers those the position tolerates
    have hstep : 0 < bcStep pattern mask patLen t n b ∧ bcStep pattern mask patLen t n b ≤ t b ∧
        (mask.getD n 0 = 0 ∨ pattern.getD n 0 = b →
          bcStep pattern mask patLen t n b ≤ patLen - 1 - n) := by
      unfold bcStep
      by_cases hmask : mask.getD n 0 = 0
      · simp only [hmask, ne_eq, not_true_eq_false, if_false]
        split_ifs <;> exact ⟨by omega, by omega, fun _ => by omega⟩
      · simp only [hmask, ne_eq, not_false_eq_true, if_true, false_or]
        by_cases hb : pattern.getD n 0 = b
        · subst hb
          split_ifs with h
          · simp only [update_self]
            exact ⟨by omega, by omega, fun _ => Nat.le_refl _⟩
          · exact ⟨hpos, Nat.le_refl _, fun _ => by omega⟩
        · split_ifs with h
          · rw [update_of_ne (Ne.symm hb)]
            exact ⟨hpos, Nat.le_refl _, fun h => absurd h hb⟩
          · exact ⟨hpos, Nat.le_refl _, fun h => absurd h hb⟩
    obtain ⟨h₁, h₂, h₃⟩ := hstep
    refine ⟨h₁, by omega, fun i hi hmatch => ?_⟩
    rcases Nat.lt_succ_iff_lt_or_eq.mp hi with h | rfl
    · exact Nat.le_trans h₂ (hall i h hmatch)
    · exact h₃ hmatch

/-! ## The suffix lengths -/

section Suffix

variable {pattern : Nat → UInt8} {m : Nat}

theorem slideDown_spec (pattern : Nat → UInt8) (m f n : Nat) :
    -1 ≤ slideDown pattern m f n ∧ slideDown pattern m f n < n ∧
      (∀ x : Nat, slideDown pattern m f n < x → x < n → pattern x = pattern (x + m - 1 - f)) ∧
      (0 ≤ slideDown pattern m f n → pattern (slideDown pattern m f n).toNat ≠
        pattern ((slideDown pattern m f n).toNat + m - 1 - f)) := by
  induction n with
  | zero => exact ⟨by simp [slideDown], by simp [slideDown], fun x _ h => absurd h (by omega),
      by simp [slideDown]⟩
  | succ g ih =>
    rw [slideDown]
    split_ifs with heq
    · obtain ⟨h₁, h₂, h₃, h₄⟩ := ih
      refine ⟨h₁, by omega, fun x hx hx' => ?_, h₄⟩
      rcases Nat.lt_succ_iff_lt_or_eq.mp hx' with h | rfl
      · exact h₃ x hx h
      · exact heq
    · exact ⟨by omega, by omega, fun x hx hx' => absurd hx (by omega), fun _ => by simpa using heq⟩

structure Compared (pattern : Nat → UInt8) (m f : Nat) (g : Int) : Prop where
  f_lt : f < m - 1
  g_ge : -1 ≤ g
  agree : ∀ x : Nat, g < x → x ≤ f → pattern x = pattern (x + m - 1 - f)

theorem suffixLoop_eq {n : Nat} (hn : n ≤ m - 1) {suffix : Nat → Nat} {f g : Int}
    (hdone : ∀ k, n ≤ k → k < m → suffix k = commonSuffix pattern m k)
    (hcmp : (n : Int) ≤ g + 1 ∨ ∃ f' : Nat, f = f' ∧ n ≤ f' ∧ Compared pattern m f' g) :
    ∀ k, k < m → suffixLoop pattern m n suffix f g k = commonSuffix pattern m k := by
  induction n generalizing suffix f g with
  | zero => exact fun k hk => hdone k (Nat.zero_le _) hk
  | succ i ih =>
    rw [suffixLoop]
    by_cases hcopy : (i : Int) > g ∧ suffix (i + m - 1 - f.toNat) < ((i : Int) - g).toNat
    · -- the table entry one shift to the right ends inside the compared stretch
      rw [if_pos hcopy]
      obtain ⟨hig, hshort⟩ := hcopy
      rcases hcmp with h | ⟨f', rfl, hf, hcompared⟩
      · exact absurd hig (by omega)
      have hf' := hcompared.f_lt
      have hg := hcompared.g_ge
      rw [Int.toNat_natCast] at hshort ⊢
      rw [hdone _ (by omega) (by omega)] at hshort ⊢
      have heq : commonSuffix pattern m i = commonSuffix pattern m (i + m - 1 - f') := by
        refine commonSuffix_eq (by omega) (fun t ht => ?_) fun _ => ?_
        · rw [hcompared.agree (i - t) (by omega) (by omega), ← eq_of_lt_commonSuffix ht]
          congr 1
          omega
        · rw [hcompared.agree (i - _) (by omega) (by omega)]
          have := ne_at_commonSuffix (P := pattern) (m := m) (i := i + m - 1 - f') (by omega)
          rwa [show i - commonSuffix pattern m (i + m - 1 - f') + m - 1 - f' =
            i + m - 1 - f' - commonSuffix pattern m (i + m - 1 - f') by omega]
      refine ih (by omega) (fun k hk hkm => ?_) (.inr ⟨f', rfl, by omega, hcompared⟩)
      by_cases hki : k = i
      · rw [hki, update_self, heq]
      · rw [update_of_ne hki, hdone k (by omega) hkm]
    · -- the comparison is resumed at the remembered position
      rw [if_neg hcopy]
      have hresume : ∀ x : Nat, (if (i : Int) < g then (i : Int) else g) < x → x ≤ i →
          pattern x = pattern (x + m - 1 - i) := by
        intro x hx hxi
        by_cases hig : (i : Int) > g
        · rcases hcmp with h | ⟨f', rfl, hf, hcompared⟩
          · exact absurd hig (by omega)
          have hf' := hcompared.f_lt
          have hlong : ((i : Int) - g).toNat ≤ commonSuffix pattern m (i + m - 1 - f') := by
            rw [← hdone _ (by omega) (by omega)]
            rw [Int.toNat_natCast] at hcopy
            omega
          rw [if_neg (by omega)] at hx
          rw [hcompared.agree x hx (by omega)]
          have := eq_of_lt_commonSuffix (P := pattern) (m := m) (i := i + m - 1 - f') (t := i - x)
            (by omega)
          rwa [show i + m - 1 - f' - (i - x) = x + m - 1 - f' by omega,
            show m - 1 - (i - x) = x + m - 1 - i by omega] at this
        · split_ifs at hx <;> omega
      have hstart : -1 ≤ (if (i : Int) < g then (i : Int) else g) ∧
          (if (i : Int) < g then (i : Int) else g) ≤ i := by
        rcases hcmp with h | ⟨f', -, -, hcompared⟩
        · split_ifs <;> omega
        · have := hcompared.g_ge
          split_ifs <;> omega
      generalize (if (i : Int) < g then (i : Int) else g) = g₀ at *
      obtain ⟨h₁, h₂, h₃, h₄⟩ := slideDown_spec pattern m i (g₀ + 1).toNat
      generalize slideDown pattern m i (g₀ + 1).toNat = g₁ at *
      have hagree : ∀ x : Nat, g₁ < x → x ≤ i → pattern x = pattern (x + m - 1 - i) := by
        intro x hx hxi
        by_cases hlow : x < (g₀ + 1).toNat
        · exact h₃ x hx hlow
        · exact hresume x (by omega) hxi
      have heq : commonSuffix pattern m i = ((i : Int) - g₁).toNat := by
        refine commonSuffix_eq (by omega) (fun t ht => ?_) fun hlt => ?_
        · rw [hagree (i - t) (by omega) (by omega)]
          congr 1
          omega
        · have := h₄ (by omega)
          rwa [show i - ((i : Int) - g₁).toNat = g₁.toNat by omega,
            show m - 1 - ((i : Int) - g₁).toNat = g₁.toNat + m - 1 - i by omega]
      refine ih (by omega) (fun k hk hkm => ?_)
        (.inr ⟨i, rfl, Nat.le_refl _, ⟨by omega, h₁, hagree⟩⟩)
      by_cases hki : k = i
      · rw [hki, update_self, heq]
      · rw [update_of_ne hki, hdone k (by omega) hkm]

theorem suffixTable_eq (hm : 0 < m) : ∀ k, k < m →
    suffixTable pattern m k = commonSuffix pattern m k := by
  refine suffixLoop_eq (Nat.le_refl _) (fun k hk hkm => ?_) (.inl (by omega))
  obtain rfl : k = m - 1 := by omega
  rw [update_self, commonSuffix_eq (r := m) (by omega) (fun t _ => rfl) (by omega)]

end Suffix

/-! ## The good-suffix table -/

section GoodSuffix

variable {suffix gs : Nat → Nat} {m : Nat}

theorem borderFill_apply (cutoff n j p : Nat) (hgs : ∀ q, j ≤ q → gs q = m) :
    borderFill m cutoff n j gs p = if j ≤ p ∧ p < j + n then cutoff else gs p := by
  induction n generalizing j gs with
  | zero => rw [borderFill, if_neg (by omega)]
  | succ n ih =>
    have hrest : ∀ q, j + 1 ≤ q → update gs j cutoff q = m := by
      intro q hq
      rw [update_of_ne (by omega)]
      exact hgs q (by omega)
    rw [borderFill, if_pos (hgs j (Nat.le_refl _)), ih (j + 1) hrest]
    by_cases hp : p = j
    · rw [hp, if_neg (by omega), update_self, if_pos (by omega)]
    · rw [update_of_ne hp]
      split_ifs <;> first | rfl | omega

structure BordersFrom (suffix : Nat → Nat) (m i j : Nat) (gs : Nat → Nat) : Prop where
  unset : ∀ p, j ≤ p → gs p = m
  reached : j = 0 ∨ ∃ k, i ≤ k ∧ k < m ∧ suffix k = k + 1 ∧ m - 1 - k = j
  le_iff : ∀ p s, s < m →
    (gs p ≤ s ↔ ∃ k, i ≤ k ∧ k < m ∧ suffix k = k + 1 ∧ p < m - 1 - k ∧ m - 1 - k ≤ s)

theorem borderLoop_le_iff {i j : Nat} (hi : i ≤ m) (h : BordersFrom suffix m i j gs) {p s : Nat}
    (hs : s < m) :
    borderLoop suffix m i j gs p ≤ s ↔
      ∃ k, k < m ∧ suffix k = k + 1 ∧ p < m - 1 - k ∧ m - 1 - k ≤ s := by
  induction i generalizing j gs with
  | zero =>
    rw [borderLoop, h.le_iff p s hs]
    simp only [Nat.zero_le, true_and]
  | succ i ih =>
    rw [borderLoop]
    split_ifs with hborder
    · have hj : j ≤ m - 1 - i := by
        rcases h.reached with rfl | ⟨k, h₁, h₂, -, rfl⟩ <;> omega
      refine ih (by omega) ⟨fun q hq => ?_, .inr ⟨i, Nat.le_refl _, by omega, hborder, by omega⟩,
        fun q t ht => ?_⟩
      · rw [borderFill_apply _ _ _ _ h.unset, if_neg (by omega), h.unset q (by omega)]
      · rw [borderFill_apply _ _ _ _ h.unset]
        split_ifs with hq
        · -- a freshly filled entry holds the cutoff of `i`, the smallest above it
          constructor
          · exact fun hle => ⟨i, Nat.le_refl _, by omega, hborder, by omega, hle⟩
          · rintro ⟨k, h₁, h₂, h₃, h₄, h₅⟩
            by_cases hk : k = i
            · omega
            · have := (h.le_iff q t ht).mpr ⟨k, by omega, h₂, h₃, h₄, h₅⟩
              rw [h.unset q hq.1] at this
              omega
        · rw [h.le_iff q t ht]
          constructor
          · rintro ⟨k, h₁, h₂⟩
            exact ⟨k, by omega, h₂⟩
          · rintro ⟨k, h₁, h₂, h₃, h₄, h₅⟩
            by_cases hk : k = i
            · -- an entry filled earlier has a smaller shift from the border that reached `j`
              rcases h.reached with rfl | ⟨k', h₁', h₂', h₃', rfl⟩
              · omega
              · exact ⟨k', h₁', h₂', h₃', by omega, by omega⟩
            · exact ⟨k, by omega, h₂, h₃, h₄, h₅⟩
    · refine ih (by omega) ⟨h.unset, ?_, fun q t ht => ?_⟩
      · rcases h.reached with hj | ⟨k, h₁, h₂⟩
        · exact .inl hj
        · exact .inr ⟨k, by omega, h₂⟩
      · rw [h.le_iff q t ht]
        constructor
        · rintro ⟨k, h₁, h₂⟩
          exact ⟨k, by omega, h₂⟩
        · rintro ⟨k, h₁, h₂, h₃, h₄⟩
          have hk : k ≠ i := by rintro rfl; exact hborder h₃
          exact ⟨k, by omega, h₂, h₃, h₄⟩

theorem suffixFold_le_iff (n p s : Nat) :
    (List.range n).foldl (suffixStep suffix m) gs p ≤ s ↔
      gs p ≤ s ∨ ∃ k, k < n ∧ m - 1 - suffix k = p ∧ m - 1 - k ≤ s := by
  induction n with
  | zero => simp
  | succ n ih =>
    simp only [range_succ, foldl_append, foldl_cons, foldl_nil]
    generalize (List.range n).foldl (suffixStep suffix m) gs = t at *
    have hstep : suffixStep suffix m t n p ≤ s ↔
        t p ≤ s ∨ (m - 1 - suffix n = p ∧ m - 1 - n ≤ s) := by
      unfold suffixStep
      by_cases hp : m - 1 - suffix n = p
      · subst hp
        split_ifs with h
        · rw [update_self]
          omega
        · omega
      · split_ifs with h
        · rw [update_of_ne (Ne.symm hp)]
          omega
        · omega
    rw [hstep, ih, or_assoc]
    refine or_congr_right ⟨?_, ?_⟩
    · rintro (⟨k, h₁, h₂⟩ | h₂)
      · exact ⟨k, by omega, h₂⟩
      · exact ⟨n, Nat.lt_succ_self n, h₂⟩
    · rintro ⟨k, h₁, h₂⟩
      rcases Nat.lt_succ_iff_lt_or_eq.mp h₁ with h | rfl
      · exact .inl ⟨k, h, h₂⟩
      · exact .inr h₂

theorem borderFill_le (cutoff n j p : Nat) (hcut : cutoff ≤ m) (hgs : ∀ q, gs q ≤ m) :
    borderFill m cutoff n j gs p ≤ m := by
  induction n generalizing j gs with
  | zero => exact hgs p
  | succ n ih =>
    refine ih (j + 1) fun q => ?_
    split_ifs
    · rcases eq_or_ne q j with rfl | hq
      · rw [update_self]
        exact hcut
      · rw [update_of_ne hq]
        exact hgs q
    · exact hgs q

theorem borderLoop_le (i j p : Nat) (hgs : ∀ q, gs q ≤ m) : borderLoop suffix m i j gs p ≤ m := by
  induction i generalizing j gs with
  | zero => exact hgs p
  | succ i ih =>
    rw [borderLoop]
    split_ifs
    · exact ih _ fun q => borderFill_le _ _ _ _ (by omega) hgs
    · exact ih _ hgs

theorem goodSuffixTable_le (pattern : Nat → UInt8) (m p : Nat) :
    goodSuffixTable pattern m p ≤ m := by
  rw [goodSuffixTable, suffixFold_le_iff]
  exact .inl (borderLoop_le _ _ _ fun _ => Nat.le_refl m)

theorem goodSuffixTable_le_iff {pattern : Nat → UInt8} {p s : Nat} (hp : p < m) (hs : s < m) :
    goodSuffixTable pattern m p ≤ s ↔ ∃ s', 0 < s' ∧ s' ≤ s ∧ GoodShift pattern m p s' := by
  have hm : 0 < m := by omega
  have hinit : BordersFrom (suffixTable pattern m) m m 0 fun _ => m :=
    ⟨fun _ _ => rfl, .inl rfl, fun q t ht =>
      ⟨fun h => absurd h (by omega), fun ⟨k, h₁, h₂, _⟩ => absurd h₁ (by omega)⟩⟩
  rw [goodSuffixTable, suffixFold_le_iff, borderLoop_le_iff (Nat.le_refl m) hinit hs]
  constructor
  · rintro (⟨k, h₁, h₂, h₃, h₄⟩ | ⟨k, h₁, h₂, h₃⟩)
    · rw [suffixTable_eq hm k h₁] at h₂
      refine ⟨m - 1 - k, by omega, h₄, (goodShift_iff hp (by omega) (by omega)).mpr (.inr ?_)⟩
      rw [show m - 1 - (m - 1 - k) = k by omega, h₂]
      omega
    · rw [suffixTable_eq hm k (by omega)] at h₂
      have hle := commonSuffix_le (P := pattern) (m := m) (i := k)
      refine ⟨m - 1 - k, by omega, h₃, (goodShift_iff hp (by omega) (by omega)).mpr (.inl ?_)⟩
      rw [show m - 1 - (m - 1 - k) = k by omega]
      omega
  · rintro ⟨s', h₁, h₂, hgood⟩
    rcases (goodShift_iff hp h₁ (by omega)).mp hgood with h | ⟨h, hps⟩
    · refine .inr ⟨m - 1 - s', by omega, ?_, by omega⟩
      rw [suffixTable_eq hm _ (by omega), h]
      omega
    · refine .inl ⟨m - 1 - s', by omega, ?_, by omega, by omega⟩
      rw [suffixTable_eq hm _ (by omega), h]
      omega

end GoodSuffix

end MemDbg.Scan
