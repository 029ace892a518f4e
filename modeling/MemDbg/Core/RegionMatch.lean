import MemDbg.Lib.Glob
import Mathlib.Data.List.DropRight

/-!
# Names of regions

`region_name_matches` picks the map of a process that a request names: by a pattern with `*`, by its
base name or by a part of its path.  The matcher of patterns goes back to the last `*` only.
-/

namespace MemDbg

open List Lib

/-! ## Strings -/

abbrev CString := { s : List UInt8 // 0 ∉ s }

def charAt (s : List UInt8) : UInt8 := s.headD 0

def rmMatchExact : Nat := 1

def rmMatchCaseSensitive : Nat := 2

def rmMatchRegex : Nat := 4

def rmMatchFullpath : Nat := 8

def starChar : UInt8 := 42

def slashChar : UInt8 := 47

def lowerAscii (a : UInt8) : UInt8 := if 65 ≤ a ∧ a ≤ 90 then a + 32 else a

def rmCharEq (a b : UInt8) (matchFlags : Nat) : Bool :=
  if matchFlags &&& rmMatchCaseSensitive ≠ 0 then a == b else lowerAscii a == lowerAscii b

/-! ## Patterns -/

structure GlobState where
  p : List UInt8
  s : List UInt8
  star : Option (List UInt8 × List UInt8)
deriving DecidableEq

def rmGlobTurn (matchFlags : Nat) (g : GlobState) : Except Bool GlobState :=
  if charAt g.s ≠ 0 then
    if charAt g.p = starChar then .ok ⟨g.p.tail, g.s, some (g.p.tail, g.s)⟩
    else if rmCharEq (charAt g.p) (charAt g.s) matchFlags then .ok ⟨g.p.tail, g.s.tail, g.star⟩
    else
      match g.star with
      | some (behind, ss) => .ok ⟨behind, ss.tail, some (behind, ss.tail)⟩
      | none => .error false
  else .error (charAt (g.p.dropWhile (· == starChar)) == 0)

def rmGlobLoop (matchFlags : Nat) : Nat → GlobState → Option Bool
  | 0, _ => none
  | fuel + 1, g =>
    match rmGlobTurn matchFlags g with
    | .error r => some r
    | .ok g => rmGlobLoop matchFlags fuel g

def globFuel (pat str : List UInt8) : Nat :=
  (pat.length + 1) * (str.length + 1) * (pat.length + 1) + pat.length + 1

def rmGlobMatch (pat str : CString) (matchFlags : Nat) : Option Bool :=
  rmGlobLoop matchFlags (globFuel pat.1 str.1) ⟨pat.1, str.1, none⟩

def rmHasWildcard (target : CString) : Bool := target.1.contains starChar

/-! ## Regular expressions -/

def rmRegexMatch (regcomp : Bool → CString → Option (CString → Bool)) (pattern str : CString)
    (matchFlags : Nat) : Bool :=
  match regcomp (matchFlags &&& rmMatchCaseSensitive == 0) pattern with
  | some regexec => regexec str
  | none => false

/-! ## Names -/

def basename (path : CString) : CString :=
  ⟨path.1.rtakeWhile (· != slashChar), fun h =>
    path.2 ((rtakeWhile_suffix _ _).subset h)⟩

def lookupName (mapName : CString) (matchFlags : Nat) : CString :=
  if matchFlags &&& rmMatchFullpath ≠ 0 then mapName else basename mapName

def skipEqual (matchFlags : Nat) : List UInt8 → List UInt8 → List UInt8 × List UInt8
  | a :: as, b :: bs =>
    if rmCharEq a b matchFlags then skipEqual matchFlags as bs else (a :: as, b :: bs)
  | as, bs => (as, bs)

def substringLoop (matchFlags : Nat) (target : List UInt8) : List UInt8 → Bool
  | [] => false
  | c :: s =>
    (skipEqual matchFlags (c :: s) target).2.isEmpty || substringLoop matchFlags target s

def regionNameMatches (regcomp : Bool → CString → Option (CString → Bool))
    (mapName target : Option CString) (matchFlags : Nat) : Option Bool :=
  match mapName, target with
  | some mapName, some target =>
    let lookup := lookupName mapName matchFlags
    if target.1 = [] then some false
    else if matchFlags &&& rmMatchRegex ≠ 0 then
      if rmRegexMatch regcomp target lookup matchFlags then some true
      else if matchFlags &&& rmMatchFullpath = 0 then
        some (rmRegexMatch regcomp target mapName matchFlags)
      else some false
    else if rmHasWildcard target then
      match rmGlobMatch target lookup matchFlags with
      | none => none
      | some true => some true
      | some false =>
        if matchFlags &&& rmMatchFullpath = 0 then rmGlobMatch target mapName matchFlags
        else some false
    else if skipEqual matchFlags lookup.1 target.1 = ([], []) then some true
    else if matchFlags &&& rmMatchExact ≠ 0 then some false
    else some (substringLoop matchFlags target.1 mapName.1)
  | _, _ => some false

/-! ## What a name matches -/

/-- Each `*` of the pattern takes a piece of the string and every other character one that is equal
to it under `rm_char_eq`. -/
def GlobMatches (matchFlags : Nat) (pat str : List UInt8) : Prop :=
  Glob starChar (fun a b => rmCharEq a b matchFlags = true) pat str

def SameName (matchFlags : Nat) (a b : List UInt8) : Prop :=
  List.Forall₂ (fun a b => rmCharEq a b matchFlags = true) a b

def OccursIn (matchFlags : Nat) (target path : List UInt8) : Prop :=
  ∃ front piece back, path = front ++ piece ++ back ∧ SameName matchFlags piece target

/-- What `region_name_matches` looks for, without `RM_MATCH_REGEX`. -/
def NameMatches (matchFlags : Nat) (mapName target : CString) : Prop :=
  target.1 ≠ [] ∧
    if starChar ∈ target.1 then
      GlobMatches matchFlags target.1 (lookupName mapName matchFlags).1 ∨
        matchFlags &&& rmMatchFullpath = 0 ∧ GlobMatches matchFlags target.1 mapName.1
    else
      SameName matchFlags (lookupName mapName matchFlags).1 target.1 ∨
        matchFlags &&& rmMatchExact = 0 ∧ OccursIn matchFlags target.1 mapName.1

/-! ## The matcher -/

section Matcher

variable {matchFlags : Nat} {pat str p s : List UInt8} {c d : UInt8} {g g' : GlobState}

theorem rmCharEq_zero_left (hd : d ≠ 0) : rmCharEq 0 d matchFlags = false := by
  have hlower : lowerAscii d ≠ 0 := by
    rw [lowerAscii]
    split_ifs with hcapital
    · intro h
      have := congrArg UInt8.toNat h
      rw [UInt8.toNat_add] at this
      have hle := UInt8.le_iff_toNat_le.mp hcapital.2
      change d.toNat ≤ 90 at hle
      change (d.toNat + 32) % 256 = 0 at this
      omega
    · exact hd
  rw [rmCharEq]
  split_ifs
  · exact beq_eq_false_iff_ne.mpr (Ne.symm hd)
  · exact beq_eq_false_iff_ne.mpr (Ne.symm hlower)

theorem charAt_ne_zero (hs : 0 ∉ s) (hne : charAt s ≠ 0) : ∃ d rest, s = d :: rest ∧ d ≠ 0 := by
  cases s with
  | nil => exact absurd rfl hne
  | cons d rest => exact ⟨d, rest, rfl, hne⟩

theorem charAt_eq_zero_iff (hs : 0 ∉ s) : charAt s = 0 ↔ s = [] := by
  cases s with
  | nil => exact iff_of_true rfl rfl
  | cons d rest =>
    have hd : d ≠ 0 := fun h => hs (h ▸ mem_cons_self)
    exact iff_of_false hd (cons_ne_nil d rest)

theorem charAt_dropWhile_iff (hp : 0 ∉ p) :
    charAt (p.dropWhile (· == starChar)) = 0 ↔ GlobMatches matchFlags p [] := by
  have hsub : 0 ∉ p.dropWhile (· == starChar) := fun h =>
    hp ((dropWhile_suffix _).subset h)
  rw [charAt_eq_zero_iff hsub, GlobMatches, glob_nil_right_iff, dropWhile_eq_nil_iff]
  exact forall₂_congr fun c _ => beq_iff_eq

theorem not_globMatches (hstar : charAt p ≠ starChar)
    (hne : ¬ rmCharEq (charAt p) d matchFlags = true) : ¬ GlobMatches matchFlags p (d :: s) := by
  intro h
  cases p with
  | nil => exact absurd (glob_nil_iff.mp h) (cons_ne_nil d s)
  | cons c p => exact hne ((glob_letter_iff hstar).mp h).1

structure GlobState.Remembers (g : GlobState) (matchFlags : Nat) (pat str : List UInt8) :
    Prop where
  pattern : g.p <:+ pat
  string : g.s <:+ str
  passed : g.star = none → (GlobMatches matchFlags pat str ↔ GlobMatches matchFlags g.p g.s)
  wildcard : ∀ behind ss, g.star = some (behind, ss) →
    behind <:+ pat ∧ ss <:+ str ∧
      (GlobMatches matchFlags pat str ↔ GlobMatches matchFlags (starChar :: behind) ss) ∧
      ∃ q m, behind = q ++ g.p ∧ ss = m ++ g.s ∧ starChar ∉ q ∧ SameName matchFlags q m

theorem GlobState.Remembers.start (matchFlags : Nat) (pat str : List UInt8) :
    GlobState.Remembers ⟨pat, str, none⟩ matchFlags pat str where
  pattern := suffix_rfl
  string := suffix_rfl
  passed := fun _ => Iff.rfl
  wildcard := fun _ _ h => absurd h (by simp)

theorem GlobState.Remembers.meet_star
    (h : GlobState.Remembers ⟨starChar :: p, s, g.star⟩ matchFlags pat str) :
    GlobState.Remembers ⟨p, s, some (p, s)⟩ matchFlags pat str where
  pattern := (suffix_cons _ p).trans h.pattern
  string := h.string
  passed := fun hnone => absurd hnone (by simp)
  wildcard := by
    intro behind ss heq
    cases heq
    refine ⟨(suffix_cons _ p).trans h.pattern, h.string, ?_, [], [], rfl, rfl, by simp, .nil⟩
    cases hstar : g.star with
    | none => exact h.passed hstar
    | some last =>
      obtain ⟨behind, ss⟩ := last
      obtain ⟨-, -, hiff, q, m, rfl, rfl, hq, hm⟩ := h.wildcard behind ss hstar
      exact hiff.trans (glob_star_append hq hm)

theorem GlobState.Remembers.take_letter
    (h : GlobState.Remembers ⟨c :: p, d :: s, g.star⟩ matchFlags pat str) (hc : c ≠ starChar)
    (heq : rmCharEq c d matchFlags = true) :
    GlobState.Remembers ⟨p, s, g.star⟩ matchFlags pat str where
  pattern := (suffix_cons c p).trans h.pattern
  string := (suffix_cons d s).trans h.string
  passed := fun hnone => (h.passed hnone).trans ((glob_letter_iff hc).trans (and_iff_right heq))
  wildcard := by
    intro behind ss hstar
    obtain ⟨hbehind, hss, hiff, q, m, hp, hs, hq, hm⟩ := h.wildcard behind ss hstar
    refine ⟨hbehind, hss, hiff, q ++ [c], m ++ [d], ?_, ?_, ?_, ?_⟩
    · rw [hp, append_assoc]
      rfl
    · rw [hs, append_assoc]
      rfl
    · rw [mem_append, mem_singleton, not_or]
      exact ⟨hq, Ne.symm hc⟩
    · exact rel_append hm (.cons heq .nil)

theorem GlobState.Remembers.restart {behind ss : List UInt8}
    (h : GlobState.Remembers ⟨p, s, some (behind, ss)⟩ matchFlags pat str) (hs : s ≠ [])
    (hno : ¬ GlobMatches matchFlags p s) :
    ss ≠ [] ∧ GlobState.Remembers ⟨behind, ss.tail, some (behind, ss.tail)⟩ matchFlags pat str := by
  obtain ⟨hbehind, hss, hiff, q, m, hp, hm', hq, hm⟩ := h.wildcard behind ss rfl
  have hne : ss ≠ [] := by simp [hm', hs]
  have hrest : ¬ GlobMatches matchFlags behind ss := by
    rw [hp, hm']
    exact fun hmatch => hno ((glob_append_append_iff hq hm).mp hmatch)
  refine ⟨hne, hbehind, (tail_suffix _).trans hss, fun hnone => absurd hnone (by simp), ?_⟩
  intro behind ss heq
  cases heq
  refine ⟨hbehind, (tail_suffix _).trans hss, hiff.trans ?_, [], [], rfl, rfl, by simp, .nil⟩
  obtain ⟨e, rest, hcons⟩ := exists_cons_of_ne_nil hne
  rw [hcons] at hrest ⊢
  exact glob_star_cons_iff hrest

theorem GlobState.Remembers.finish (h : g.Remembers matchFlags pat str) (hs : g.s = []) :
    GlobMatches matchFlags pat str ↔ GlobMatches matchFlags g.p [] := by
  cases hstar : g.star with
  | none => rw [h.passed hstar, hs]
  | some last =>
    obtain ⟨behind, ss⟩ := last
    obtain ⟨-, -, hiff, q, m, rfl, rfl, hq, hm⟩ := h.wildcard behind ss hstar
    rw [hiff, hs, append_nil]
    exact glob_star_letters_iff hq hm

theorem digits_lt {a a' b b' bound : Nat} (ha : a' < a) (hb : b' ≤ bound) :
    a' * (bound + 1) + b' < a * (bound + 1) + b :=
  calc
    a' * (bound + 1) + b' < (a' + 1) * (bound + 1) := by rw [Nat.succ_mul]; omega
    _ ≤ a * (bound + 1) := Nat.mul_le_mul_right _ ha
    _ ≤ a * (bound + 1) + b := Nat.le_add_right _ _

def GlobState.measure (pat str : List UInt8) (g : GlobState) : Nat :=
  (g.star.elim (pat.length + 1) (fun last => last.1.length) * (str.length + 1) +
    g.star.elim 0 fun last => last.2.length) * (pat.length + 1) + g.p.length

theorem GlobState.Remembers.meet_star_lt
    (h : GlobState.Remembers ⟨c :: p, s, g.star⟩ matchFlags pat str) :
    GlobState.measure pat str ⟨p, s, some (p, s)⟩ <
      GlobState.measure pat str ⟨c :: p, s, g.star⟩ := by
  have hp := h.pattern.length_le
  rw [length_cons] at hp
  refine digits_lt (digits_lt ?_ h.string.length_le) (Nat.le_of_succ_le hp)
  cases hstar : g.star with
  | none =>
    change p.length < pat.length + 1
    omega
  | some last =>
    obtain ⟨behind, ss⟩ := last
    obtain ⟨-, -, -, q, m, rfl, -⟩ := h.wildcard behind ss hstar
    change p.length < (q ++ c :: p).length
    rw [length_append, length_cons]
    omega

theorem rmGlobTurn_ok (hstr : 0 ∉ str) (h : g.Remembers matchFlags pat str)
    (hturn : rmGlobTurn matchFlags g = .ok g') :
    g'.Remembers matchFlags pat str ∧ g'.measure pat str < g.measure pat str := by
  obtain ⟨p, s, star⟩ := g
  rw [rmGlobTurn] at hturn
  split_ifs at hturn with hs hstar heq
  · -- a wildcard
    obtain rfl := Except.ok.inj hturn
    cases p with
    | nil => exact absurd hstar (show (0 : UInt8) ≠ starChar by decide)
    | cons c p =>
      obtain rfl : c = starChar := hstar
      exact ⟨h.meet_star (g := ⟨[], [], star⟩), h.meet_star_lt (g := ⟨[], [], star⟩)⟩
  · -- a character that is equal
    obtain ⟨d, s, rfl, hd⟩ := charAt_ne_zero (fun hzero => hstr (h.string.subset hzero)) hs
    obtain rfl := Except.ok.inj hturn
    cases p with
    | nil =>
      rw [show charAt [] = 0 from rfl, show charAt (d :: s) = d from rfl,
        rmCharEq_zero_left hd] at heq
      exact absurd heq Bool.false_ne_true
    | cons c p =>
      refine ⟨h.take_letter (g := ⟨[], [], star⟩) hstar heq, ?_⟩
      exact Nat.add_lt_add_left (Nat.lt_succ_self p.length) _
  · -- a character that is not
    obtain ⟨d, s, rfl, -⟩ := charAt_ne_zero (fun hzero => hstr (h.string.subset hzero)) hs
    cases star with
    | none => cases hturn
    | some last =>
      obtain ⟨behind, ss⟩ := last
      obtain rfl := Except.ok.inj hturn
      obtain ⟨hne, h'⟩ := h.restart (cons_ne_nil d s) (not_globMatches hstar heq)
      refine ⟨h', digits_lt ?_ h'.pattern.length_le⟩
      refine Nat.add_lt_add_left ?_ _
      change ss.tail.length < ss.length
      have := length_pos_iff.mpr hne
      rw [length_tail]
      omega

theorem rmGlobTurn_error (hpat : 0 ∉ pat) (hstr : 0 ∉ str) {r : Bool}
    (h : g.Remembers matchFlags pat str) (hturn : rmGlobTurn matchFlags g = .error r) :
    r = true ↔ GlobMatches matchFlags pat str := by
  have hp : 0 ∉ g.p := fun hzero => hpat (h.pattern.subset hzero)
  have hs : 0 ∉ g.s := fun hzero => hstr (h.string.subset hzero)
  rw [rmGlobTurn] at hturn
  split_ifs at hturn with hmore hstar heq
  · -- a character that nothing takes
    obtain ⟨d, rest, hcons, -⟩ := charAt_ne_zero hs hmore
    cases hlast : g.star with
    | some last => simp [hlast] at hturn
    | none =>
      obtain rfl : false = r := by simpa [hlast] using hturn
      rw [h.passed hlast, hcons]
      rw [hcons] at heq
      exact iff_of_false Bool.false_ne_true (not_globMatches hstar heq)
  · obtain rfl := Except.error.inj hturn
    have hend : g.s = [] := (charAt_eq_zero_iff hs).mp (not_not.mp hmore)
    rw [beq_iff_eq, charAt_dropWhile_iff hp, h.finish hend]

theorem rmGlobLoop_exact (hpat : 0 ∉ pat) (hstr : 0 ∉ str) (fuel : Nat)
    (h : g.Remembers matchFlags pat str) (hfuel : g.measure pat str < fuel) :
    ∃ r, rmGlobLoop matchFlags fuel g = some r ∧ (r = true ↔ GlobMatches matchFlags pat str) := by
  induction fuel generalizing g with
  | zero => exact absurd hfuel (Nat.not_lt_zero _)
  | succ fuel ih =>
    rw [rmGlobLoop]
    cases hturn : rmGlobTurn matchFlags g with
    | error r => exact ⟨r, rfl, rmGlobTurn_error hpat hstr h hturn⟩
    | ok g' =>
      obtain ⟨h', hlt⟩ := rmGlobTurn_ok hstr h hturn
      exact ih h' (by omega)

end Matcher

theorem rmGlobMatch_exact (pat str : CString) (matchFlags : Nat) :
    ∃ r, rmGlobMatch pat str matchFlags = some r ∧
      (r = true ↔ GlobMatches matchFlags pat.1 str.1) :=
  rmGlobLoop_exact pat.2 str.2 _ (.start matchFlags pat.1 str.1) (Nat.lt_succ_self _)

/-! ## The names -/

section Names

variable {matchFlags : Nat} {a b target path : List UInt8}

theorem skipEqual_eq_nil_iff : skipEqual matchFlags a b = ([], []) ↔ SameName matchFlags a b := by
  induction a generalizing b with
  | nil =>
    rw [SameName, forall₂_nil_left_iff]
    simp [skipEqual]
  | cons c a ih =>
    cases b with
    | nil =>
      rw [SameName, forall₂_nil_right_iff]
      simp [skipEqual]
    | cons d b =>
      rw [skipEqual, SameName, forall₂_cons]
      split_ifs with heq
      · rw [ih, and_iff_right heq, SameName]
      · exact iff_of_false (by simp) (fun h => heq h.1)

theorem skipEqual_snd_eq_nil_iff :
    (skipEqual matchFlags a b).2 = [] ↔
      ∃ piece back, a = piece ++ back ∧ SameName matchFlags piece b := by
  induction a generalizing b with
  | nil =>
    constructor
    · intro h
      obtain rfl : b = [] := by simpa [skipEqual] using h
      exact ⟨[], [], rfl, .nil⟩
    · rintro ⟨piece, back, hnil, h⟩
      obtain ⟨rfl, rfl⟩ := append_eq_nil_iff.mp hnil.symm
      cases h
      rfl
  | cons c a ih =>
    cases b with
    | nil => exact iff_of_true rfl ⟨[], c :: a, rfl, .nil⟩
    | cons d b =>
      rw [skipEqual]
      split_ifs with heq
      · rw [ih]
        constructor
        · rintro ⟨piece, back, rfl, h⟩
          exact ⟨c :: piece, back, rfl, .cons heq h⟩
        · rintro ⟨piece, back, happend, h⟩
          cases h with
          | cons _ h =>
            obtain ⟨-, rfl⟩ := cons_eq_cons.mp happend
            exact ⟨_, back, rfl, h⟩
      · refine iff_of_false (by simp) ?_
        rintro ⟨piece, back, happend, h⟩
        cases h with
        | cons hrel _ =>
          obtain ⟨rfl, -⟩ := cons_eq_cons.mp happend
          exact heq hrel

theorem substringLoop_iff (htarget : target ≠ []) :
    substringLoop matchFlags target path = true ↔ OccursIn matchFlags target path := by
  induction path with
  | nil =>
    refine iff_of_false Bool.false_ne_true ?_
    rintro ⟨front, piece, back, hnil, h⟩
    obtain ⟨hnil, -⟩ := append_eq_nil_iff.mp hnil.symm
    obtain ⟨-, rfl⟩ := append_eq_nil_iff.mp hnil
    exact htarget (forall₂_nil_left_iff.mp h)
  | cons c s ih =>
    rw [substringLoop, Bool.or_eq_true, List.isEmpty_iff, skipEqual_snd_eq_nil_iff, ih]
    constructor
    · rintro (⟨piece, back, happend, h⟩ | ⟨front, piece, back, rfl, h⟩)
      · exact ⟨[], piece, back, happend, h⟩
      · exact ⟨c :: front, piece, back, rfl, h⟩
    · rintro ⟨front, piece, back, happend, h⟩
      cases front with
      | nil => exact .inl ⟨piece, back, happend, h⟩
      | cons _ front =>
        obtain ⟨rfl, rfl⟩ := cons_eq_cons.mp happend
        exact .inr ⟨front, piece, back, rfl, h⟩

end Names

theorem rmHasWildcard_iff (target : CString) :
    rmHasWildcard target = true ↔ starChar ∈ target.1 := contains_iff_mem

theorem regionNameMatches_some (regcomp : Bool → CString → Option (CString → Bool))
    (mapName target : CString) {matchFlags : Nat} (hflags : matchFlags &&& rmMatchRegex = 0) :
    ∃ r, regionNameMatches regcomp (some mapName) (some target) matchFlags = some r ∧
      (r = true ↔ NameMatches matchFlags mapName target) := by
  rw [regionNameMatches, NameMatches, if_neg (not_not.mpr hflags)]
  by_cases hempty : target.1 = []
  · rw [if_pos hempty]
    exact ⟨false, rfl, iff_of_false Bool.false_ne_true (fun h => h.1 hempty)⟩
  rw [if_neg hempty, and_iff_right hempty]
  by_cases hwild : starChar ∈ target.1
  · -- a pattern
    obtain ⟨r, hr, hiff⟩ := rmGlobMatch_exact target (lookupName mapName matchFlags) matchFlags
    rw [if_pos ((rmHasWildcard_iff target).mpr hwild), if_pos hwild, hr]
    cases r with
    | true => exact ⟨true, rfl, iff_of_true rfl (.inl (hiff.mp rfl))⟩
    | false =>
      rw [or_iff_right (fun h => Bool.false_ne_true (hiff.mpr h))]
      dsimp only
      split_ifs with hfull
      · obtain ⟨r, hr, hiff⟩ := rmGlobMatch_exact target mapName matchFlags
        exact ⟨r, hr, hiff.trans (and_iff_right hfull).symm⟩
      · exact ⟨false, rfl, iff_of_false Bool.false_ne_true (fun h => hfull h.1)⟩
  · -- a name
    rw [if_neg (mt (rmHasWildcard_iff target).mp hwild), if_neg hwild]
    split_ifs with heq hexact
    · exact ⟨true, rfl, iff_of_true rfl (.inl (skipEqual_eq_nil_iff.mp heq))⟩
    · refine ⟨false, rfl, iff_of_false Bool.false_ne_true ?_⟩
      rintro (h | ⟨h, -⟩)
      · exact heq (skipEqual_eq_nil_iff.mpr h)
      · exact hexact h
    · rw [or_iff_right (mt skipEqual_eq_nil_iff.mpr heq), and_iff_right (not_not.mp hexact)]
      exact ⟨_, rfl, substringLoop_iff hempty⟩

/-- The matcher of patterns ends and answers whether the string matches; and without
`RM_MATCH_REGEX` `region_name_matches` ends and answers whether there are two strings of which the
target names the map. -/
theorem regionMatch_exact (matchFlags : Nat) (hflags : matchFlags &&& rmMatchRegex = 0) :
    (∀ pat str : CString, ∃ r, rmGlobMatch pat str matchFlags = some r ∧
      (r = true ↔ GlobMatches matchFlags pat.1 str.1)) ∧
      ∀ (regcomp : Bool → CString → Option (CString → Bool)) (mapName target : Option CString),
        ∃ r, regionNameMatches regcomp mapName target matchFlags = some r ∧
          (r = true ↔ ∃ name t, mapName = some name ∧ target = some t ∧
            NameMatches matchFlags name t) := by
  refine ⟨fun pat str => rmGlobMatch_exact pat str matchFlags, fun regcomp mapName target => ?_⟩
  cases mapName with
  | none => exact ⟨false, rfl, by simp⟩
  | some name =>
    cases target with
    | none => exact ⟨false, rfl, by simp⟩
    | some t =>
      obtain ⟨r, hr, hiff⟩ := regionNameMatches_some regcomp name t hflags
      exact ⟨r, hr, by simpa using hiff⟩

theorem regionMatch_exact_suffix :
    NameMatches 0 ⟨[97, 47, 98, 46, 83, 79], by decide⟩ ⟨[42, 46, 115, 111], by decide⟩ := by
  obtain ⟨r, hr, hiff⟩ := (regionMatch_exact 0 rfl).2 (fun _ _ => none)
    (some ⟨[97, 47, 98, 46, 83, 79], by decide⟩) (some ⟨[42, 46, 115, 111], by decide⟩)
  have htrue : regionNameMatches (fun _ _ => none) (some ⟨[97, 47, 98, 46, 83, 79], by decide⟩)
      (some ⟨[42, 46, 115, 111], by decide⟩) 0 = some true := by decide
  obtain ⟨name, t, hname, ht, hmatch⟩ := hiff.mp (Option.some.inj (hr.symm.trans htrue))
  cases hname
  cases ht
  exact hmatch

theorem regionNameMatches_fullpath :
    ¬ ∀ (mapName target : CString) (matchFlags : Nat), matchFlags &&& rmMatchRegex = 0 →
      (regionNameMatches (fun _ _ => none) (some mapName) (some target) matchFlags = some true ↔
        target.1 ≠ [] ∧
          (starChar ∈ target.1 ∧
              (GlobMatches matchFlags target.1 (basename mapName).1 ∨
                matchFlags &&& rmMatchFullpath = 0 ∧ GlobMatches matchFlags target.1 mapName.1) ∨
            starChar ∉ target.1 ∧
              (SameName matchFlags (lookupName mapName matchFlags).1 target.1 ∨
                matchFlags &&& rmMatchExact = 0 ∧ OccursIn matchFlags target.1 mapName.1))) := by
  intro h
  obtain ⟨-, hcase⟩ := (h ⟨[97, 47, 98], by decide⟩ ⟨[97, 47, 42], by decide⟩ rmMatchFullpath
    rfl).mp (by decide)
  have hbase : (basename ⟨[97, 47, 98], by decide⟩).1 = [98] := by decide
  rw [hbase] at hcase
  rcases hcase with ⟨-, hmatch | ⟨hfull, -⟩⟩ | ⟨hwild, -⟩
  · have hrel := ((glob_letter_iff (show (97 : UInt8) ≠ starChar by decide)).mp hmatch).1
    exact absurd hrel (by decide)
  · exact absurd hfull (by decide)
  · exact hwild (by decide)

end MemDbg
