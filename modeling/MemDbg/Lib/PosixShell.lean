import Mathlib.Data.List.Basic

/-!
# Command lines of a POSIX shell

How a shell takes a line apart: quotes and backslashes, words and operators, and lists of simple
commands joined by `&&`, with assignments, arguments and redirections.  What is not covered
(substitutions of commands, patterns, comments, control structures) makes the whole line not
readable, so whoever shows what a line is read as has shown that there is none of it.
-/

namespace MemDbg.Lib.PosixShell

open List

/-! ## Words -/

inductive Piece where
  | char (quoted : Bool) (c : Char)
  | param (body : List Char)
deriving DecidableEq

abbrev Word := List Piece

def quotedWord (s : List Char) : Word := s.map (.char true)

def plainWord (s : List Char) : Word := s.map (.char false)

inductive Token where
  | word (w : Word)
  | ioNumber (digits : List Char)
  | op (cs : List Char)
deriving DecidableEq

def operatorStart : List Char := ['&', '|', ';', '<', '>', '(', ')', '\n']

def longOperators : List (List Char) :=
  [['&', '&'], ['|', '|'], [';', ';'], ['<', '<'], ['>', '>'], ['<', '&'], ['>', '&'], ['<', '>'],
    ['>', '|'], ['<', '<', '-']]

/-! ## The lexer -/

inductive Mode where
  | plain
  | escaped
  | single
  | double
  | doubleEscaped
  | dollar
  | braced (body : List Char)
  | operator (cs : List Char)
deriving DecidableEq

structure Lexer where
  tokens : List Token
  word : Option Word
  mode : Mode
deriving DecidableEq

namespace Lexer

def start : Lexer := ⟨[], none, .plain⟩

def enter (l : Lexer) (mode : Mode) :
    Lexer := { l with word := some (l.word.getD []), mode := mode }

def push (l : Lexer) (p : Piece) (mode : Mode) : Lexer :=
  { l with word := some (l.word.getD [] ++ [p]), mode := mode }

def digit? : Piece → Option Char
  | .char false c => if c.isDigit then some c else none
  | _ => none

def flush (l : Lexer) (redirection : Bool) : Lexer :=
  match l.word with
  | none => l
  | some w =>
    let token :=
      match w.mapM digit? with
      | some (d :: ds) => if redirection then Token.ioNumber (d :: ds) else .word w
      | _ => .word w
    { l with tokens := l.tokens ++ [token], word := none }

def plainStep (l : Lexer) (c : Char) : Option Lexer :=
  if c = ' ' ∨ c = '\t' then some { l.flush false with mode := .plain }
  else if c ∈ operatorStart then
    some { l.flush (c = '<' ∨ c = '>') with mode := .operator [c] }
  else if c = '\x27' then some (l.enter .single)
  else if c = '"' then some (l.enter .double)
  else if c = '\\' then some { l with mode := .escaped }
  else if c = '$' then some { l with mode := .dollar }
  else if c = '\x60' then none
  else if c = '#' ∧ l.word = none then none
  else some (l.push (.char false c) .plain)

def step (l : Lexer) (c : Char) : Option Lexer :=
  match l.mode with
  | .plain => l.plainStep c
  | .escaped =>
    if c = '\n' then some { l with mode := .plain } else some (l.push (.char true c) .plain)
  | .single =>
    if c = '\x27' then some { l with mode := .plain } else some (l.push (.char true c) .single)
  | .double =>
    if c = '"' then some { l with mode := .plain }
    else if c = '\\' then some { l with mode := .doubleEscaped }
    else if c = '$' ∨ c = '\x60' then none
    else some (l.push (.char true c) .double)
  | .doubleEscaped =>
    if c = '\n' then some { l with mode := .double }
    else if c ∈ ['$', '\x60', '"', '\\'] then some (l.push (.char true c) .double)
    else some ((l.push (.char true '\\') .double).push (.char true c) .double)
  | .dollar => if c = '\x7b' then some { l with mode := .braced [] } else none
  | .braced body =>
    if c = '\x7d' then some (l.push (.param body) .plain)
    else if c ∈ ['\x27', '"', '\\', '$', '\x60', '\x7b'] then none
    else some { l with mode := .braced (body ++ [c]) }
  | .operator cs =>
    if cs ++ [c] ∈ longOperators then some { l with mode := .operator (cs ++ [c]) }
    else { l with tokens := l.tokens ++ [Token.op cs], mode := .plain }.plainStep c

def run (l : Lexer) (line : List Char) : Option Lexer := line.foldlM step l

def finish (l : Lexer) : Option (List Token) :=
  match l.mode with
  | .plain => some (l.flush false).tokens
  | .operator cs => some (l.tokens ++ [.op cs])
  | _ => none

/-! ### Rules of the lexer -/

variable {l l' : Lexer} {ts : List Token} {w : Word} {wd : Option Word} {c : Char}
  {cs s : List Char}

theorem run_nil (l : Lexer) : l.run [] = some l := rfl

theorem run_cons (l : Lexer) (c : Char) (cs : List Char) :
    l.run (c :: cs) = (l.step c).bind (·.run cs) := foldlM_cons

theorem run_append (l : Lexer) (a b : List Char) : l.run (a ++ b) = (l.run a).bind (·.run b) :=
  foldlM_append

theorem run_append_of_eq {a : List Char} (h : l.run a = some l') (b : List Char) :
    l.run (a ++ b) = l'.run b := by
  rw [run_append, h, Option.bind_some]

theorem flush_some (mode : Mode) :
    (⟨ts, some w, mode⟩ : Lexer).flush false = ⟨ts ++ [.word w], none, mode⟩ := by
  rw [flush]
  dsimp only
  split <;> rfl

theorem run_blank (cs : List Char) :
    (⟨ts, some w, .plain⟩ : Lexer).run (' ' :: cs) =
      (⟨ts ++ [.word w], none, .plain⟩ : Lexer).run cs := by
  rw [run_cons]
  change ((⟨ts, some w, .plain⟩ : Lexer).plainStep ' ').bind _ = _
  rw [plainStep, if_pos (.inl rfl), flush_some]
  rfl

theorem finish_plain : (⟨ts, some w, .plain⟩ : Lexer).finish = some (ts ++ [.word w]) := by
  rw [finish]
  dsimp only
  rw [flush_some]

theorem step_plain_quote :
    (⟨ts, wd, .plain⟩ : Lexer).step '\x27' = some ⟨ts, some (wd.getD []), .single⟩ := rfl

theorem step_single (hc : c ≠ '\x27') :
    (⟨ts, some w, .single⟩ : Lexer).step c = some ⟨ts, some (w ++ [.char true c]), .single⟩ :=
  if_neg hc

theorem step_single_quote :
    (⟨ts, some w, .single⟩ : Lexer).step '\x27' = some ⟨ts, some w, .plain⟩ := rfl

def isPlain (c : Char) : Bool :=
  c ∉ [' ', '\t', '\x27', '"', '\\', '$', '\x60', '#'] ++ operatorStart

theorem step_plain (hc : isPlain c = true) :
    (⟨ts, wd, .plain⟩ : Lexer).step c = some
      ⟨ts, some (wd.getD [] ++ [.char false c]), .plain⟩ := by
  rw [isPlain, decide_eq_true_eq, mem_append, not_or] at hc
  obtain ⟨hc, hop⟩ := hc
  simp only [mem_cons, not_mem_nil, or_false, not_or] at hc
  obtain ⟨hblank, htab, hsingle, hdouble, hslash, hdollar, htick, hhash⟩ := hc
  change (⟨ts, wd, .plain⟩ : Lexer).plainStep c = _
  rw [plainStep, if_neg (not_or.mpr ⟨hblank, htab⟩), if_neg hop, if_neg hsingle, if_neg hdouble,
    if_neg hslash, if_neg hdollar, if_neg htick, if_neg fun h => hhash h.1]
  rfl

theorem run_plainWord (h : ∀ c ∈ s, isPlain c = true) (w : Word) :
    (⟨ts, some w, .plain⟩ : Lexer).run s = some ⟨ts, some (w ++ plainWord s), .plain⟩ := by
  induction s generalizing w with
  | nil =>
    rw [run_nil]
    exact congrArg (fun w => some (⟨ts, some w, .plain⟩ : Lexer)) (append_nil w).symm
  | cons c s ih =>
    obtain ⟨hc, hs⟩ := forall_mem_cons.mp h
    rw [run_cons, step_plain hc, Option.bind_some, Option.getD_some, ih hs, append_assoc]
    rfl

theorem run_braced {body : List Char}
    (h : ∀ c ∈ s, c ∉ ['\x27', '"', '\\', '$', '\x60', '\x7b', '\x7d']) :
    (⟨ts, some w, .braced body⟩ : Lexer).run (s ++ ['\x7d']) =
      some ⟨ts, some (w ++ [.param (body ++ s)]), .plain⟩ := by
  induction s generalizing body with
  | nil => rw [append_nil]; rfl
  | cons c s ih =>
    obtain ⟨hc, hs⟩ := forall_mem_cons.mp h
    have hstep : (⟨ts, some w, .braced body⟩ : Lexer).step c =
        some ⟨ts, some w, .braced (body ++ [c])⟩ := by
      rw [step]
      dsimp only
      rw [if_neg fun h => hc (by simp [h]), if_neg fun h => hc (by simp at h ⊢; tauto)]
    rw [cons_append, run_cons, hstep, Option.bind_some, ih hs, append_assoc]
    rfl

theorem run_param (h : ∀ c ∈ s, c ∉ ['\x27', '"', '\\', '$', '\x60', '\x7b', '\x7d']) :
    (⟨ts, some w, .plain⟩ : Lexer).run ('$' :: '\x7b' :: (s ++ ['\x7d'])) =
      some ⟨ts, some (w ++ [.param s]), .plain⟩ :=
  run_braced h

/-! ### What was read before

It is not looked at again. -/

def behind (ts : List Token) (l : Lexer) : Lexer := { l with tokens := ts ++ l.tokens }

theorem flush_behind (ts : List Token) (l : Lexer) (redirection : Bool) :
    (l.behind ts).flush redirection = (l.flush redirection).behind ts := by
  obtain ⟨tokens, word, mode⟩ := l
  cases word with
  | none => rfl
  | some w =>
    rw [flush, flush]
    dsimp only [behind]
    rw [append_assoc]

theorem plainStep_behind (ts : List Token) (l : Lexer) (c : Char) :
    (l.behind ts).plainStep c = (l.plainStep c).map (behind ts) := by
  have hword : (l.behind ts).word = l.word := rfl
  rw [plainStep, plainStep, hword, flush_behind, flush_behind]
  split_ifs <;> rfl

theorem step_behind (ts : List Token) (l : Lexer) (c : Char) :
    (l.behind ts).step c = (l.step c).map (behind ts) := by
  obtain ⟨tokens, word, mode⟩ := l
  cases mode with
  | plain => exact plainStep_behind ts _ c
  | operator cs =>
    rw [step, step]
    dsimp only [behind]
    split_ifs
    · rfl
    · rw [append_assoc]
      exact plainStep_behind ts ⟨tokens ++ [.op cs], word, .plain⟩ c
  | _ =>
    rw [step, step]
    dsimp only [behind]
    split_ifs <;> rfl

theorem run_behind (ts : List Token) (l : Lexer) (s : List Char) :
    (l.behind ts).run s = (l.run s).map (behind ts) := by
  induction s generalizing l with
  | nil => rfl
  | cons c s ih =>
    rw [run_cons, run_cons, step_behind]
    cases l.step c with
    | none => rfl
    | some l => exact ih l

theorem run_of_start (h : start.run s = some l') (ts : List Token) :
    (⟨ts, none, .plain⟩ : Lexer).run s = some (l'.behind ts) := by
  have hstart : (⟨ts, none, .plain⟩ : Lexer) = start.behind ts :=
    congrArg (fun ts => (⟨ts, none, .plain⟩ : Lexer)) (append_nil ts).symm
  rw [hstart, run_behind, h, Option.map_some]

theorem run_of_blank (hblank : s.head? = some ' ') (h : start.run s = some l') (ts : List Token)
    (w : Word) : (⟨ts, some w, .plain⟩ : Lexer).run s = some (l'.behind (ts ++ [.word w])) := by
  obtain ⟨s, rfl⟩ : ∃ t, s = ' ' :: t := by
    cases s with
    | nil => cases hblank
    | cons c s => exact ⟨s, congrArg (· :: s) (Option.some.inj hblank)⟩
  rw [run_blank]
  exact run_of_start h _

end Lexer

def tokens (line : List Char) : Option (List Token) := (Lexer.start.run line).bind Lexer.finish

/-! ## Commands -/

structure Syntax where
  assigns : List (List Char × Word)
  words : List Word
  redirects : List (List Char × List Char × Word)
deriving DecidableEq

def Syntax.empty : Syntax := ⟨[], [], []⟩

def isNameChar (c : Char) : Bool := c.isAlphanum || c == '_'

def isName : List Char → Bool
  | [] => false
  | c :: cs => isNameChar c && !c.isDigit && cs.all isNameChar

def Piece.nameChar? : Piece → Option Char
  | .char false c => if isNameChar c then some c else none
  | _ => none

def assignment : List Char → Word → Option (List Char × Word)
  | _, [] => none
  | name, p :: w =>
    match p.nameChar? with
    | some c => if name = [] ∧ c.isDigit then none else assignment (name ++ [c]) w
    | none => if p = Piece.char false '=' ∧ name ≠ [] then some (name, w) else none

def redirections : List (List Char) :=
  [['<'], ['>'], ['>', '>'], ['<', '&'], ['>', '&'], ['<', '>'], ['>', '|']]

def reservedWords : List (List Char) :=
  ["!", "\x7b", "\x7d", "case", "do", "done", "elif", "else", "esac", "fi", "for", "if",
    "in", "then",
    "until", "while"].map String.toList

def isReserved (w : Word) : Bool := reservedWords.any fun r => w == plainWord r

def Syntax.add (s : Syntax) (w : Word) : Option Syntax :=
  if s.words = [] then
    match assignment [] w with
    | some a => some { s with assigns := s.assigns ++ [a] }
    | none => if isReserved w then none else some { s with words := [w] }
  else some { s with words := s.words ++ [w] }

def commands (s : Syntax) : List Token → Option (List Syntax)
  | [] => if s = .empty then none else some [s]
  | .word w :: ts =>
    match s.add w with
    | some s => commands s ts
    | none => none
  | .ioNumber n :: .op o :: .word w :: ts =>
    if o ∈ redirections then commands { s with redirects := s.redirects ++ [(n, o, w)] } ts
    else none
  | .op o :: .word w :: ts =>
    if o ∈ redirections then commands { s with redirects := s.redirects ++ [([], o, w)] } ts
    else if o = ['&', '&'] ∧ s ≠ .empty then
      match Syntax.empty.add w with
      | some s' => (commands s' ts).map (s :: ·)
      | none => none
    else none
  | _ => none

section Commands

variable {s s' : Syntax} {w : Word} {ts : List Token} {name front : List Char}

theorem commands_word (h : s.add w = some s') : commands s (.word w :: ts) = commands s' ts := by
  rw [commands, h]

theorem commands_and (hs : s ≠ .empty) (h : Syntax.empty.add w = some s') :
    commands s (.op ['&', '&'] :: .word w :: ts) = (commands s' ts).map (s :: ·) := by
  refine (if_neg (by decide)).trans ((if_pos ⟨rfl, hs⟩).trans ?_)
  rw [h]

theorem commands_redirect {n o : List Char} (ho : o ∈ redirections) :
    commands s (.ioNumber n :: .op o :: .word w :: ts) =
      commands { s with redirects := s.redirects ++ [(n, o, w)] } ts :=
  if_pos ho

theorem commands_end (hs : s ≠ .empty) : commands s [] = some [s] :=
  if_neg hs

theorem Syntax.add_arg (hs : s.words ≠ []) (w : Word) :
    s.add w = some { s with words := s.words ++ [w] } :=
  if_neg hs

theorem Syntax.add_name (hs : s.words = []) (h : assignment [] w = none)
    (hres : isReserved w = false) : s.add w = some { s with words := [w] } := by
  rw [Syntax.add, if_pos hs, h, hres]
  rfl

theorem Syntax.add_assign (hs : s.words = []) {a : List Char × Word}
    (h : assignment [] w = some a) : s.add w = some { s with assigns := s.assigns ++ [a] } := by
  rw [Syntax.add, if_pos hs, h]

theorem commands_words (hs : s.words ≠ []) (ws : List Word) (ts : List Token) :
    commands s (ws.map .word ++ ts) = commands { s with words := s.words ++ ws } ts := by
  induction ws generalizing s with
  | nil => rw [append_nil]; rfl
  | cons w ws ih =>
    rw [map_cons, cons_append, commands_word (Syntax.add_arg hs w),
      ih (append_ne_nil_of_left_ne_nil hs _), append_assoc]
    rfl

theorem commands_name_words {name : Word} (h : assignment [] name = none)
    (hres : isReserved name = false) (hs : s.words = []) (ws : List Word) (ts : List Token) :
    commands s ((name :: ws).map .word ++ ts) = commands { s with words := name :: ws } ts := by
  rw [map_cons, cons_append, commands_word (Syntax.add_name hs h hres),
    commands_words (cons_ne_nil _ _)]
  rfl

theorem assignment_append (hname : ∀ c ∈ name, isNameChar c = true) (hfront : front ≠ [])
    (w : Word) :
    assignment front (plainWord name ++ .char false '=' :: w) = some (front ++ name, w) := by
  induction name generalizing front with
  | nil =>
    rw [append_nil]
    exact if_pos ⟨rfl, hfront⟩
  | cons c name ih =>
    obtain ⟨hc, hname⟩ := forall_mem_cons.mp hname
    have hchar : (Piece.char false c).nameChar? = some c := if_pos hc
    change assignment front (.char false c :: (plainWord name ++ .char false '=' :: w)) = _
    rw [assignment, hchar]
    dsimp only
    rw [if_neg fun h => hfront h.1, ih hname (append_ne_nil_of_right_ne_nil _ (by simp)),
      append_assoc]
    rfl

theorem assignment_plainWord {text : List Char} (htext : text = name ++ ['='])
    (hname : isName name = true) (w : Word) :
    assignment [] (plainWord text ++ w) = some (name, w) := by
  cases name with
  | nil => cases hname
  | cons c cs =>
    rw [isName, Bool.and_eq_true, Bool.and_eq_true, Bool.not_eq_true', all_eq_true] at hname
    obtain ⟨⟨hc, hdigit⟩, hcs⟩ := hname
    have hchar : (Piece.char false c).nameChar? = some c := if_pos hc
    have hword : plainWord text ++ w =
        .char false c :: (plainWord cs ++ .char false '=' :: w) := by
      rw [htext, plainWord, map_append, append_assoc]
      rfl
    rw [hword, assignment, hchar]
    dsimp only
    rw [hdigit, if_neg fun h => absurd h.2 (by decide)]
    exact assignment_append hcs (cons_ne_nil c []) w

end Commands

/-! ## Expansions -/

def paramValue (env : List Char → Option (List Char)) (body : List Char) : Option (List Char) :=
  let name := body.takeWhile isNameChar
  match body.dropWhile isNameChar with
  | [] => some ((env name).getD [])
  | ':' :: '-' :: word => some (match env name with
    | some (c :: cs) => c :: cs
    | _ => word)
  | _ => none

def expanding : List Char := ['*', '?', '[', '~', '\x7b', '\x7d']

def Piece.field? : Piece → Option Char
  | .char true c => some c
  | .char false c => if c ∈ expanding then none else some c
  | .param _ => none

def field (w : Word) : Option (List Char) := w.mapM Piece.field?

def Piece.value? (env : List Char → Option (List Char)) : Piece → Option (List Char)
  | .char true c => some [c]
  | .char false c => if c = '~' then none else some [c]
  | .param body => paramValue env body

def value (env : List Char → Option (List Char)) (w : Word) : Option (List Char) :=
  (w.mapM (Piece.value? env)).map List.flatten

structure Command where
  assigns : List (List Char × List Char)
  args : List (List Char)
  redirects : List (List Char × List Char × List Char)
deriving DecidableEq

def Syntax.expand (env : List Char → Option (List Char)) (s : Syntax) : Option Command :=
  (s.assigns.mapM fun a => (value env a.2).map (a.1, ·)).bind fun assigns =>
    (s.words.mapM field).bind fun args =>
      (s.redirects.mapM fun r => (field r.2.2).map (r.1, r.2.1, ·)).map fun redirects =>
        ⟨assigns, args, redirects⟩

def read (env : List Char → Option (List Char)) (line : List Char) : Option (List Command) :=
  (tokens line).bind fun ts => (commands .empty ts).bind (·.mapM (·.expand env))

section Expansions

variable {env : List Char → Option (List Char)} {s u v : List Char} {w : Word}

@[simp]
theorem field_quotedWord (v : List Char) : field (quotedWord v) = some v := by
  induction v with
  | nil => rfl
  | cons c v ih =>
    rw [field, quotedWord, map_cons, mapM_cons, ← quotedWord, ← field, ih]
    rfl

theorem mapM_field_cons {ws : List Word} {args : List (List Char)} (hw : field w = some v)
    (hws : ws.mapM field = some args) : (w :: ws).mapM field = some (v :: args) := by
  rw [mapM_cons, hw, hws]
  rfl

theorem mapM_field_append {ws vs : List Word} {args brgs : List (List Char)}
    (hws : ws.mapM field = some args) (hvs : vs.mapM field = some brgs) :
    (ws ++ vs).mapM field = some (args ++ brgs) := by
  rw [mapM_append, hws, hvs]
  rfl

theorem Syntax.expand_eq {s : Syntax} {as : List (List Char × List Char)}
    {args : List (List Char)} {rs : List (List Char × List Char × List Char)}
    (hassigns : s.assigns.mapM (fun a => (value env a.2).map (a.1, ·)) = some as)
    (hargs : s.words.mapM field = some args)
    (hredirects : s.redirects.mapM (fun r => (field r.2.2).map (r.1, r.2.1, ·)) = some rs) :
    s.expand env = some ⟨as, args, rs⟩ := by
  rw [Syntax.expand, hassigns, hargs, hredirects]
  rfl

theorem value_nil : value env [] = some [] := rfl

theorem value_cons {p : Piece} (hp : p.value? env = some u) (hw : value env w = some v) :
    value env (p :: w) = some (u ++ v) := by
  rw [value, Option.map_eq_some_iff] at hw
  obtain ⟨vs, hvs, rfl⟩ := hw
  rw [value, mapM_cons, hp, hvs]
  rfl

theorem paramValue_of_default {name : List Char} (h : ∀ c ∈ name, isNameChar c = true) :
    paramValue env (name ++ [':', '-']) = some ((env name).getD []) := by
  have htake : (name ++ [':', '-']).takeWhile isNameChar = name := by
    rw [takeWhile_append_of_pos h]
    exact append_nil name
  have hdrop : (name ++ [':', '-']).dropWhile isNameChar = [':', '-'] := by
    rw [dropWhile_append_of_pos h]
    rfl
  rw [paramValue, htake, hdrop]
  rcases env name with - | - | - <;> rfl

theorem value_quotedWord_append (hw : value env w = some v) (u : List Char) :
    value env (quotedWord u ++ w) = some (u ++ v) := by
  induction u with
  | nil => exact hw
  | cons c u ih => exact value_cons (u := [c]) rfl ih

theorem value_quotedWord (u : List Char) : value env (quotedWord u) = some u := by
  have h : value env (quotedWord u ++ []) = some (u ++ []) := value_quotedWord_append value_nil u
  rwa [append_nil, append_nil] at h

end Expansions

end MemDbg.Lib.PosixShell
