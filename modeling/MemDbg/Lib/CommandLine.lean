import Mathlib.Data.List.Basic

/-!
# Command lines of Windows

A line goes through two parsers.  `cmd.exe` looks for its operators outside quotes, where each
double quote begins or ends a quoted part; what it runs gets the line as one text.  The runtime of C
takes that text apart into arguments, with rules of its own for backslashes in front of quotes.
-/

namespace MemDbg.Lib.CommandLine

open List

/-! ## The command interpreter -/

def cmdSpecial : List Char := ['&', '|', '<', '>', '^', '\n']

def cmdScan : Bool → List Char → Option (List Char)
  | _, [] => some []
  | quoted, c :: cs =>
    if c = '"' then (cmdScan (!quoted) cs).map (c :: ·)
    else if quoted = true ∨ c ∉ cmdSpecial then (cmdScan quoted cs).map (c :: ·)
    else if c = '^' then
      match cs with
      | [] => some []
      | d :: ds => (cmdScan quoted ds).map (d :: ·)
    else none

def quotedAfter (quoted : Bool) (cs : List Char) : Bool :=
  cs.foldl (fun q c => if c = '"' then !q else q) quoted

def SpecialsQuoted : Bool → List Char → Prop
  | _, [] => True
  | quoted, c :: cs =>
    if c = '"' then SpecialsQuoted (!quoted) cs
    else (c ∈ cmdSpecial → quoted = true) ∧ SpecialsQuoted quoted cs

instance decidableSpecialsQuoted :
    (quoted : Bool) → (cs : List Char) → Decidable (SpecialsQuoted quoted cs)
  | _, [] => isTrue trivial
  | quoted, c :: cs =>
    have := decidableSpecialsQuoted (!quoted) cs
    have := decidableSpecialsQuoted quoted cs
    inferInstanceAs (Decidable (if c = '"' then _ else _))

section Cmd

variable {quoted : Bool} {a b cs line : List Char} {c : Char}

theorem quotedAfter_cons :
    quotedAfter quoted (c :: cs) = quotedAfter (if c = '"' then !quoted else quoted) cs := rfl

theorem specialsQuoted_quote :
    SpecialsQuoted quoted ('"' :: cs) ↔ SpecialsQuoted (!quoted) cs := by
  rw [SpecialsQuoted, if_pos rfl]

theorem specialsQuoted_cons (hc : c ≠ '"') :
    SpecialsQuoted quoted (c :: cs) ↔ (c ∈ cmdSpecial → quoted = true) ∧
      SpecialsQuoted quoted cs := by
  rw [SpecialsQuoted, if_neg hc]

theorem specialsQuoted_append :
    SpecialsQuoted quoted (a ++ b) ↔
      SpecialsQuoted quoted a ∧ SpecialsQuoted (quotedAfter quoted a) b := by
  induction a generalizing quoted with
  | nil => exact (and_iff_right trivial).symm
  | cons c a ih =>
    rw [cons_append, quotedAfter_cons]
    by_cases hc : c = '"'
    · rw [hc, specialsQuoted_quote, specialsQuoted_quote, ih, if_pos rfl]
    · rw [specialsQuoted_cons hc, specialsQuoted_cons hc, ih, if_neg hc, and_assoc]

theorem specialsQuoted_iff :
    SpecialsQuoted quoted cs ↔
      ∀ front c back, cs = front ++ c :: back → c ∈ cmdSpecial →
        (quoted = true ↔ front.count '"' % 2 = 0) := by
  induction cs generalizing quoted with
  | nil => exact iff_of_true trivial fun front c back h => absurd h (by simp)
  | cons c cs ih =>
    have hsplit : (∀ front d back, c :: cs = front ++ d :: back → d ∈ cmdSpecial →
        (quoted = true ↔ front.count '"' % 2 = 0)) ↔
        (c ∈ cmdSpecial → quoted = true) ∧
          ∀ front d back, cs = front ++ d :: back → d ∈ cmdSpecial →
            (quoted = true ↔ (c :: front).count '"' % 2 = 0) := by
      constructor
      · intro h
        refine ⟨fun hc => (h [] c cs rfl hc).mpr rfl, fun front d back hcs hd => ?_⟩
        exact h (c :: front) d back (by rw [hcs, cons_append]) hd
      · rintro ⟨hfirst, hrest⟩ front d back hcs hd
        cases front with
        | nil =>
          obtain ⟨rfl, -⟩ := cons_eq_cons.mp hcs
          exact iff_of_true (hfirst hd) rfl
        | cons e front =>
          obtain ⟨rfl, rfl⟩ := cons_eq_cons.mp hcs
          exact hrest front d back rfl hd
    rw [hsplit]
    by_cases hc : c = '"'
    · subst hc
      have hplain : '"' ∉ cmdSpecial := by decide
      rw [specialsQuoted_quote, ih, and_iff_right (fun h => absurd h hplain)]
      refine forall₃_congr fun front d back => imp_congr_right fun _ => imp_congr_right fun _ => ?_
      rw [count_cons_self, Bool.not_eq_true']
      cases quoted with
      | false => simp; omega
      | true => simp; omega
    · rw [specialsQuoted_cons hc, ih]
      refine and_congr_right fun _ => forall₃_congr fun front d back => ?_
      rw [count_cons_of_ne hc]

theorem cmdScan_of_specialsQuoted (h : SpecialsQuoted quoted cs) : cmdScan quoted cs = some cs := by
  induction cs generalizing quoted with
  | nil => rfl
  | cons c cs ih =>
    rw [cmdScan.eq_def]
    dsimp only
    by_cases hc : c = '"'
    · rw [if_pos hc]
      rw [hc, specialsQuoted_quote] at h
      rw [ih h]
      rfl
    · rw [specialsQuoted_cons hc] at h
      have hplain : quoted = true ∨ c ∉ cmdSpecial := by
        by_cases hspecial : c ∈ cmdSpecial
        · exact .inl (h.1 hspecial)
        · exact .inr hspecial
      rw [if_neg hc, if_pos hplain, ih h.2]
      rfl

theorem count_cmdScan (h : cmdScan quoted cs = some line) :
    line.count '^' ≤ cs.count '^' ∧
      (¬ SpecialsQuoted quoted cs → line.count '^' < cs.count '^') := by
  fun_induction cmdScan quoted cs generalizing line with
  | case1 quoted =>
    cases h
    exact ⟨Nat.le_refl _, fun hno => absurd trivial hno⟩
  | case2 quoted cs ih =>
    obtain ⟨rest, hrest, rfl⟩ := Option.map_eq_some_iff.mp h
    obtain ⟨hle, hlt⟩ := ih hrest
    rw [specialsQuoted_quote, count_cons_of_ne (by decide), count_cons_of_ne (by decide)]
    exact ⟨hle, hlt⟩
  | case3 quoted c cs hc hplain ih =>
    obtain ⟨rest, hrest, rfl⟩ := Option.map_eq_some_iff.mp h
    obtain ⟨hle, hlt⟩ := ih hrest
    rw [count_cons, count_cons]
    refine ⟨Nat.add_le_add_right hle _, fun hno => Nat.add_lt_add_right (hlt fun hquoted => ?_) _⟩
    refine hno ((specialsQuoted_cons hc).mpr ⟨fun hspecial => ?_, hquoted⟩)
    exact hplain.resolve_right (not_not.mpr hspecial)
  | case4 quoted hquote hspecial =>
    cases h
    exact ⟨Nat.zero_le _, fun _ => by decide⟩
  | case5 quoted hquote hspecial d ds ih =>
    obtain ⟨rest, hrest, rfl⟩ := Option.map_eq_some_iff.mp h
    obtain ⟨hle, -⟩ := ih hrest
    rw [count_cons_self, count_cons, count_cons]
    exact ⟨by omega, fun _ => by omega⟩
  | case6 quoted c cs hc hspecial hcaret => cases h

end Cmd

/-! ## The arguments -/

inductive CrtMode where
  | outside
  | inside
  | closing
deriving DecidableEq

structure CrtState where
  args : List (List Char)
  cur : Option (List Char)
  slashes : Nat
  mode : CrtMode
deriving DecidableEq

namespace CrtState

def start : CrtState := ⟨[], none, 0, .outside⟩

def settled (s : CrtState) : CrtMode := if s.mode = .closing then .outside else s.mode

def text (s : CrtState) : Option (List Char) :=
  if s.slashes = 0 then s.cur else some (s.cur.getD [] ++ List.replicate s.slashes '\\')

def step (s : CrtState) (c : Char) : CrtState :=
  if c = '\\' then
    { s with cur := some (s.cur.getD []), slashes := s.slashes + 1, mode := s.settled }
  else if c = '"' then
    if s.mode = .closing then { s with cur := some (s.cur.getD [] ++ ['"']), mode := .inside }
    else
      let cur := s.cur.getD [] ++ List.replicate (s.slashes / 2) '\\'
      if s.slashes % 2 = 1 then { s with cur := some (cur ++ ['"']), slashes := 0 }
      else
        { s with
          cur := some cur
          slashes := 0
          mode := if s.mode = .inside then .closing else .inside }
  else if (c = ' ' ∨ c = '\t') ∧ s.settled = .outside then
    ⟨s.args ++ s.text.toList, none, 0, .outside⟩
  else ⟨s.args, some (s.text.getD [] ++ [c]), 0, s.settled⟩

def finish (s : CrtState) : List (List Char) := s.args ++ s.text.toList

end CrtState

def crtProgram : Bool → List Char → List Char × List Char
  | _, [] => ([], [])
  | quoted, c :: cs =>
    if c = '"' then crtProgram (!quoted) cs
    else if (c = ' ' ∨ c = '\t') ∧ quoted = false then ([], cs)
    else
      let r := crtProgram quoted cs
      (c :: r.1, r.2)

def crtArgv (line : List Char) : List (List Char) :=
  let r := crtProgram false line
  r.1 :: (r.2.foldl CrtState.step .start).finish

def cmdArgv (line : List Char) : Option (List (List Char)) := (cmdScan false line).map crtArgv

section Crt

variable {s : CrtState} {cs line : List Char} {c : Char}

/-! ### Quotes and backslashes -/

variable {args : List (List Char)}

theorem foldl_step_backslashes (u : List Char) (j n : Nat) :
    (List.replicate n '\\').foldl CrtState.step ⟨args, some u, j, .inside⟩ =
      ⟨args, some u, j + n, .inside⟩ := by
  induction n generalizing j with
  | zero => rfl
  | succ n ih =>
    rw [replicate_succ, foldl_cons, Nat.add_comm n 1, ← Nat.add_assoc]
    exact ih (j + 1)

theorem step_quote_of_even (u : List Char) (n : Nat) :
    CrtState.step ⟨args, some u, n * 2, .inside⟩ '"' =
      ⟨args, some (u ++ List.replicate n '\\'), 0, .closing⟩ := by
  rw [CrtState.step, if_neg (by decide), if_pos rfl,
    if_neg (show CrtMode.inside ≠ .closing by decide)]
  dsimp only
  rw [if_neg (by omega), Nat.mul_div_cancel _ (by decide)]
  rfl

theorem step_quote_of_odd (u : List Char) (n : Nat) :
    CrtState.step ⟨args, some u, n * 2 + 1, .inside⟩ '"' =
      ⟨args, some (u ++ List.replicate n '\\' ++ ['"']), 0, .inside⟩ := by
  have hhalf : (n * 2 + 1) / 2 = n := by omega
  rw [CrtState.step, if_neg (by decide), if_pos rfl,
    if_neg (show CrtMode.inside ≠ .closing by decide)]
  dsimp only
  rw [if_pos (by omega), hhalf]
  rfl

theorem step_inside (hslash : c ≠ '\\') (hquote : c ≠ '"') (u : List Char) (n : Nat) :
    CrtState.step ⟨args, some u, n, .inside⟩ c =
      ⟨args, some (u ++ List.replicate n '\\' ++ [c]), 0, .inside⟩ := by
  have htext : CrtState.text ⟨args, some u, n, .inside⟩ = some (u ++ List.replicate n '\\') := by
    rw [CrtState.text]
    split_ifs with hn
    · obtain rfl : n = 0 := hn
      exact congrArg some (append_nil u).symm
    · rfl
  have hinside : CrtState.settled ⟨args, some u, n, .inside⟩ ≠ .outside :=
    show CrtMode.inside ≠ .outside by decide
  rw [CrtState.step, if_neg hslash, if_neg hquote, if_neg fun h => hinside h.2, htext]
  rfl

theorem step_blank_of_closing (u : List Char) :
    CrtState.step ⟨args, some u, 0, .closing⟩ ' ' = ⟨args ++ [u], none, 0, .outside⟩ := rfl

theorem step_quote_of_outside :
    CrtState.step ⟨args, none, 0, .outside⟩ '"' = ⟨args, some [], 0, .inside⟩ := by
  rw [CrtState.step, if_neg (by decide), if_pos rfl,
    if_neg (show CrtMode.outside ≠ .closing by decide)]
  dsimp only
  rw [if_neg (by decide), Nat.zero_div]
  rfl

theorem crtProgram_append {name : List Char} (h : ∀ c ∈ name, c ≠ '"' ∧ c ≠ ' ' ∧ c ≠ '\t')
    (rest : List Char) : crtProgram false (name ++ ' ' :: rest) = (name, rest) := by
  induction name with
  | nil => rfl
  | cons c name ih =>
    obtain ⟨⟨hquote, hblank, htab⟩, hname⟩ := forall_mem_cons.mp h
    rw [cons_append, crtProgram, if_neg hquote, if_neg (by simp [hblank, htab]), ih hname]

/-! ### Carets

They mean nothing to the runtime, so none is lost. -/

theorem count_append_backslashes (cs : List Char) (n : Nat) :
    (cs ++ List.replicate n '\\').count '^' = cs.count '^' := by
  rw [count_append, count_replicate]
  rfl

theorem count_text (s : CrtState) : (s.text.getD []).count '^' = (s.cur.getD []).count '^' := by
  rw [CrtState.text]
  split_ifs
  · rfl
  · rw [Option.getD_some, count_append_backslashes]

theorem count_flatten_toList (args : List (List Char)) (o : Option (List Char)) :
    (args ++ o.toList).flatten.count '^' = args.flatten.count '^' + (o.getD []).count '^' := by
  cases o with
  | none => simp
  | some a => simp

theorem count_step (s : CrtState) (c : Char) :
    (s.step c).args.flatten.count '^' + ((s.step c).cur.getD []).count '^' =
      s.args.flatten.count '^' + (s.cur.getD []).count '^' + [c].count '^' := by
  rw [CrtState.step]
  by_cases hslash : c = '\\'
  · subst hslash
    rfl
  rw [if_neg hslash]
  by_cases hquote : c = '"'
  · subst hquote
    rw [if_pos rfl]
    dsimp only
    split_ifs
    · rw [Option.getD_some, count_append, Nat.add_assoc]
    · rw [Option.getD_some, count_append, count_append_backslashes, Nat.add_assoc]
    · rw [Option.getD_some, count_append_backslashes]
      rfl
    · rw [Option.getD_some, count_append_backslashes]
      rfl
  rw [if_neg hquote]
  split_ifs with hblank
  · have hc : [c].count '^' = 0 := by
      rw [count_eq_zero, mem_singleton]
      rintro rfl
      exact absurd hblank.1 (by decide)
    rw [count_flatten_toList, count_text, hc]
    rfl
  · rw [Option.getD_some, count_append, count_text, Nat.add_assoc]

theorem count_foldl_step (s : CrtState) (cs : List Char) :
    (cs.foldl CrtState.step s).finish.flatten.count '^' =
      s.args.flatten.count '^' + (s.cur.getD []).count '^' + cs.count '^' := by
  induction cs generalizing s with
  | nil =>
    rw [foldl_nil, CrtState.finish, count_flatten_toList, count_text]
    rfl
  | cons c cs ih =>
    rw [foldl_cons, ih, count_step, count_cons (l := cs), count_singleton]
    omega

theorem count_crtProgram (quoted : Bool) (cs : List Char) :
    (crtProgram quoted cs).1.count '^' + (crtProgram quoted cs).2.count '^' = cs.count '^' := by
  induction cs generalizing quoted with
  | nil => rfl
  | cons c cs ih =>
    rw [crtProgram]
    split_ifs with hquote hblank
    · subst hquote
      rw [ih, count_cons_of_ne (by decide)]
    · have hc : c ≠ '^' := by
        rintro rfl
        exact absurd hblank.1 (by decide)
      rw [count_nil, count_cons_of_ne hc, Nat.zero_add]
    · have := ih quoted
      dsimp only
      rw [count_cons, count_cons]
      omega

theorem count_crtArgv (line : List Char) : (crtArgv line).flatten.count '^' = line.count '^' := by
  rw [crtArgv, flatten_cons, count_append, count_foldl_step, ← count_crtProgram false line]
  exact congrArg _ (Nat.zero_add _)

theorem cmdArgv_iff {args : List (List Char)} (hargs : crtArgv line = args) :
    cmdArgv line = some args ↔ SpecialsQuoted false line := by
  constructor
  · intro h
    by_contra hno
    obtain ⟨line', hscan, hcrt⟩ := Option.map_eq_some_iff.mp h
    have hlt := (count_cmdScan hscan).2 hno
    rw [← count_crtArgv line, ← count_crtArgv line', hcrt, hargs] at hlt
    exact Nat.lt_irrefl _ hlt
  · intro h
    rw [cmdArgv, cmdScan_of_specialsQuoted h, Option.map_some, hargs]

end Crt

end MemDbg.Lib.CommandLine
