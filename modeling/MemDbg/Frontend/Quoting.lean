import Mathlib.Data.List.TakeWhile
import MemDbg.Lib.CommandLine
import MemDbg.Lib.PosixShell

/-!
# Commands and quotes

The desktop program downloads files and runs plugins by commands that it hands to the shell.  What
it does not know beforehand, it quotes: for a POSIX shell, or for the runtime of C on Windows.
-/

namespace MemDbg.Frontend

open List Lib

/-! ## Quotes -/

def apostrophe : Char := '\x27'

def posixChar (c : Char) : List Char :=
  if c = apostrophe then [apostrophe, '\\', apostrophe, apostrophe] else [c]

def shellQuotePosix (value : List Char) : List Char :=
  apostrophe :: (value.flatMap posixChar ++ [apostrophe])

def quoteWindowsLoop : Nat → List Char → List Char
  | backslashes, [] => List.replicate (backslashes * 2) '\\' ++ ['"']
  | backslashes, c :: cs =>
    if c = '\\' then quoteWindowsLoop (backslashes + 1) cs
    else if c = '"' then
      List.replicate (backslashes * 2 + 1) '\\' ++ '"' :: quoteWindowsLoop 0 cs
    else List.replicate backslashes '\\' ++ c :: quoteWindowsLoop 0 cs

def shellQuoteWindows (value : List Char) : List Char := '"' :: quoteWindowsLoop 0 value

/-! ## Commands -/

def cStr (s : List Char) : List Char := s.takeWhile (· != '\x00')

def acceptHeader : List Char := "Accept: application/vnd.github+json".toList

def agentHeader : List Char := "User-Agent: MemDBG".toList

def curlOptions : List Char := "-LfsS --connect-timeout 10 --max-time 30 -H ".toList

def headerOption : List Char := [' ', '-', 'H', ' ']

def outputOption : List Char := [' ', '-', 'o', ' ']

def downloadCommandPosix (url out : List Char) : List Char :=
  "curl".toList ++ ' ' :: (curlOptions ++ (shellQuotePosix acceptHeader ++ (headerOption ++
    (shellQuotePosix agentHeader ++ ' ' :: (shellQuotePosix url ++ (outputOption ++
      shellQuotePosix out))))))

def downloadCommandWindows (url out : List Char) : List Char :=
  "curl.exe".toList ++ ' ' :: (curlOptions ++ (shellQuoteWindows acceptHeader ++ (headerOption ++
    (shellQuoteWindows agentHeader ++ ' ' :: (shellQuoteWindows url ++ (outputOption ++
      shellQuoteWindows out))))))

inductive PluginLanguage where
  | unknown
  | python
  | lua
deriving DecidableEq

def interpreterCandidates : PluginLanguage → List (List Char)
  | .python => ["python3", "python", "py -3"].map String.toList
  | _ => ["lua", "luajit", "lua5.4", "lua5.3"].map String.toList

def findInterpreter (commandExists : List Char → Bool) (language : PluginLanguage) :
    Option (List Char) :=
  (interpreterCandidates language).find? commandExists

def pluginCommandPosix (interpreter root entry contextPath : List Char) : List Char :=
  "cd ".toList ++ (shellQuotePosix root ++ (" && MEMDBG_CONTEXT=".toList ++
    (shellQuotePosix contextPath ++ (" MEMDBG_PLUGIN_DIR=".toList ++ (shellQuotePosix root ++
      (" PYTHONPATH=".toList ++ (shellQuotePosix root ++ (":$\x7bPYTHONPATH:-\x7d ".toList ++
        (interpreter ++ (" ".toList ++ (shellQuotePosix entry ++ (" ".toList ++
          (shellQuotePosix contextPath ++ " 2>&1".toList)))))))))))))

def downloadFront (program : List Char) (quote : List Char → List Char) : List Char :=
  program ++ ' ' :: (curlOptions ++ (quote acceptHeader ++ (headerOption ++
    (quote agentHeader ++ [' ']))))

/-! ## What the commands are meant to be -/

def downloadArgv (program url out : List Char) : List (List Char) :=
  program :: ["-LfsS", "--connect-timeout", "10", "--max-time", "30"].map String.toList ++
    ["-H".toList, acceptHeader, "-H".toList, agentHeader, url, "-o".toList, out]

def pluginCommands (env : List Char → Option (List Char))
    (interpreter root entry contextPath : List Char) : List PosixShell.Command :=
  [⟨[], ["cd".toList, root], []⟩,
    { assigns :=
        [("MEMDBG_CONTEXT".toList, contextPath), ("MEMDBG_PLUGIN_DIR".toList, root),
          ("PYTHONPATH".toList, root ++ ':' :: (env "PYTHONPATH".toList).getD [])]
      args := interpreter.splitOn ' ' ++ [entry, contextPath]
      redirects := [("2".toList, ">&".toList, "1".toList)] }]

/-- Each character that is special to `cmd.exe` has an even number of double quotes in front of
it. -/
def SpecialsBetweenQuotes (cs : List Char) : Prop :=
  ∀ front c back, cs = front ++ c :: back → c ∈ CommandLine.cmdSpecial → front.count '"' % 2 = 0

/-! ## Quotes of Windows -/

section Windows

open CommandLine

variable {quoted : Bool} {cs rest value url out : List Char} {args : List (List Char)}

theorem quotedAfter_replicate (quoted : Bool) (n : Nat) :
    quotedAfter quoted (List.replicate n '\\') = quoted := by
  induction n with
  | zero => rfl
  | succ n ih =>
    rw [replicate_succ, quotedAfter_cons, if_neg (by decide), ih]

theorem specialsQuoted_replicate (n : Nat) :
    SpecialsQuoted quoted (List.replicate n '\\' ++ cs) ↔ SpecialsQuoted quoted cs := by
  rw [specialsQuoted_append, quotedAfter_replicate]
  refine and_iff_right ?_
  induction n with
  | zero => trivial
  | succ n ih =>
    rw [replicate_succ, specialsQuoted_cons (by decide)]
    exact ⟨fun h => absurd h (by decide), ih⟩

theorem specialsQuoted_quoteWindowsLoop (n : Nat) (value : List Char) :
    SpecialsQuoted quoted (quoteWindowsLoop n value ++ rest) ↔
      SpecialsQuoted quoted (value ++ '"' :: rest) := by
  induction value generalizing quoted n with
  | nil =>
    rw [quoteWindowsLoop, append_assoc, specialsQuoted_replicate]
    rfl
  | cons c cs ih =>
    rw [quoteWindowsLoop, cons_append]
    split_ifs with hslash hquote
    · subst hslash
      rw [ih, specialsQuoted_cons (by decide), and_iff_right (fun h => absurd h (by decide))]
    · subst hquote
      rw [append_assoc, specialsQuoted_replicate, cons_append, specialsQuoted_quote,
        specialsQuoted_quote, ih]
    · rw [append_assoc, specialsQuoted_replicate, cons_append, specialsQuoted_cons hquote,
        specialsQuoted_cons hquote, ih]

theorem specialsQuoted_shellQuoteWindows :
    SpecialsQuoted quoted (shellQuoteWindows value ++ rest) ↔
      SpecialsQuoted (!quoted) (value ++ '"' :: rest) := by
  rw [shellQuoteWindows, cons_append, specialsQuoted_quote, specialsQuoted_quoteWindowsLoop]

theorem specialsQuoted_append_shellQuoteWindows :
    SpecialsQuoted quoted (cs ++ shellQuoteWindows value) ↔
      SpecialsQuoted quoted (cs ++ '"' :: (value ++ ['"'])) := by
  rw [specialsQuoted_append, specialsQuoted_append, specialsQuoted_quote,
    ← append_nil (shellQuoteWindows value), specialsQuoted_shellQuoteWindows]

theorem specialsQuoted_between :
    SpecialsQuoted quoted (url ++ '"' :: (outputOption ++ '"' :: (out ++ ['"']))) ↔
      SpecialsQuoted quoted (url ++ out) := by
  have hplain (q : Bool) : SpecialsQuoted q ('"' :: (outputOption ++ ['"'])) ∧
      quotedAfter q ('"' :: (outputOption ++ ['"'])) = q := by
    cases q <;> decide
  have hassoc : '"' :: (outputOption ++ '"' :: (out ++ ['"'])) =
      '"' :: (outputOption ++ ['"']) ++ (out ++ ['"']) := rfl
  rw [hassoc, specialsQuoted_append, specialsQuoted_append (a := url),
    specialsQuoted_append (a := '"' :: (outputOption ++ ['"'])), and_iff_right (hplain _).1,
    (hplain _).2, specialsQuoted_append (a := out)]
  refine and_congr_right fun _ => and_iff_left ?_
  rw [specialsQuoted_quote]
  trivial

theorem foldl_step_quoteWindowsLoop (u : List Char) (n : Nat) (value : List Char) :
    (quoteWindowsLoop n value).foldl CrtState.step ⟨args, some u, 0, .inside⟩ =
      ⟨args, some (u ++ List.replicate n '\\' ++ value), 0, .closing⟩ := by
  induction value generalizing u n with
  | nil =>
    rw [quoteWindowsLoop, foldl_append, foldl_step_backslashes, Nat.zero_add, append_nil]
    exact step_quote_of_even u n
  | cons c cs ih =>
    rw [quoteWindowsLoop]
    split_ifs with hslash hquote
    · rw [ih, hslash, replicate_succ', append_assoc, append_assoc, append_assoc]
      rfl
    · rw [foldl_append, foldl_step_backslashes, foldl_cons, Nat.zero_add,
        step_quote_of_odd, ih, hquote]
      simp
    · rw [foldl_append, foldl_step_backslashes, foldl_cons, Nat.zero_add,
        step_inside hslash hquote, ih]
      simp

theorem foldl_step_shellQuoteWindows (value : List Char) :
    (shellQuoteWindows value).foldl CrtState.step ⟨args, none, 0, .outside⟩ =
      ⟨args, some value, 0, .closing⟩ := by
  rw [shellQuoteWindows, foldl_cons, step_quote_of_outside, foldl_step_quoteWindowsLoop]
  rfl

theorem foldl_step_headerOption (v : List Char) :
    headerOption.foldl CrtState.step ⟨args, some v, 0, .closing⟩ =
      ⟨args ++ [v] ++ ["-H".toList], none, 0, .outside⟩ := by
  rw [headerOption, foldl_cons, step_blank_of_closing]
  rfl

theorem foldl_step_outputOption (v : List Char) :
    outputOption.foldl CrtState.step ⟨args, some v, 0, .closing⟩ =
      ⟨args ++ [v] ++ ["-o".toList], none, 0, .outside⟩ := by
  rw [outputOption, foldl_cons, step_blank_of_closing]
  rfl

theorem crtArgv_downloadCommandWindows (url out : List Char) :
    crtArgv (downloadCommandWindows url out) = downloadArgv "curl.exe".toList url out := by
  have hoptions : curlOptions.foldl CrtState.step .start =
      ⟨["-LfsS", "--connect-timeout", "10", "--max-time", "30", "-H"].map String.toList, none, 0,
        .outside⟩ := by decide +kernel
  unfold downloadCommandWindows
  rw [crtArgv, crtProgram_append (by simp)]
  dsimp only
  rw [foldl_append, hoptions, foldl_append, foldl_step_shellQuoteWindows,
    foldl_append, foldl_step_headerOption, foldl_append, foldl_step_shellQuoteWindows,
    foldl_cons, step_blank_of_closing, foldl_append, foldl_step_shellQuoteWindows,
    foldl_append, foldl_step_outputOption, foldl_step_shellQuoteWindows]
  rfl

theorem specialsBetweenQuotes_iff : SpecialsBetweenQuotes cs ↔ SpecialsQuoted true cs := by
  rw [specialsQuoted_iff, SpecialsBetweenQuotes]
  simp only [true_iff]

instance (cs : List Char) : Decidable (SpecialsBetweenQuotes cs) :=
  decidable_of_iff _ specialsBetweenQuotes_iff.symm

theorem specialsQuoted_downloadCommandWindows (url out : List Char) :
    SpecialsQuoted false (downloadCommandWindows url out) ↔ SpecialsBetweenQuotes (url ++ out) := by
  have hfixed : SpecialsQuoted false (downloadFront "curl.exe".toList shellQuoteWindows) ∧
      quotedAfter false (downloadFront "curl.exe".toList shellQuoteWindows) = false := by
    decide +kernel
  have hsplit : downloadCommandWindows url out =
      downloadFront "curl.exe".toList shellQuoteWindows ++
        (shellQuoteWindows url ++ (outputOption ++ shellQuoteWindows out)) := by
    unfold downloadCommandWindows downloadFront
    simp only [append_assoc, cons_append, nil_append]
  rw [hsplit, specialsQuoted_append, and_iff_right hfixed.1, hfixed.2,
    specialsQuoted_shellQuoteWindows, Bool.not_false, ← cons_append, ← append_assoc,
    specialsQuoted_append_shellQuoteWindows, append_assoc, cons_append,
    specialsQuoted_between, specialsBetweenQuotes_iff]

end Windows

/-! ## Quotes of POSIX shells -/

section Posix

open PosixShell PosixShell.Lexer

variable {ts : List Token} {w : Word} {wd : Option Word} {c : Char}
  {url out root entry contextPath interpreter : List Char} {language : PluginLanguage}

theorem run_posixChar (c : Char) (rest : List Char) :
    (⟨ts, some w, .single⟩ : Lexer).run (posixChar c ++ rest) =
      (⟨ts, some (w ++ [.char true c]), .single⟩ : Lexer).run rest := by
  rw [posixChar]
  split_ifs with hc
  · subst hc
    rfl
  · rw [cons_append, run_cons, step_single hc, Option.bind_some]
    rfl

theorem run_shellQuotePosix (value : List Char) :
    (⟨ts, wd, .plain⟩ : Lexer).run (shellQuotePosix value) =
      some ⟨ts, some (wd.getD [] ++ quotedWord value), .plain⟩ := by
  rw [shellQuotePosix, run_cons, apostrophe, step_plain_quote, Option.bind_some]
  generalize wd.getD [] = w
  induction value generalizing w with
  | nil =>
    change (⟨ts, some w, .single⟩ : Lexer).run ['\x27'] = some ⟨ts, some (w ++ []), .plain⟩
    rw [run_cons, step_single_quote, append_nil]
    rfl
  | cons c cs ih =>
    rw [flatMap_cons, append_assoc, run_posixChar, ih, append_assoc]
    rfl

theorem run_text_shellQuotePosix {text : List Char} {us : List Token}
    (hblank : text.head? = some ' ') (h : start.run text = some ⟨us, wd, .plain⟩)
    (ts : List Token) (w : Word) (value rest : List Char) :
    (⟨ts, some w, .plain⟩ : Lexer).run (text ++ (shellQuotePosix value ++ rest)) =
      (⟨ts ++ [.word w] ++ us, some (wd.getD [] ++ quotedWord value), .plain⟩ :
        Lexer).run rest := by
  rw [run_append_of_eq (run_of_blank hblank h ts w), behind,
    run_append_of_eq (run_shellQuotePosix value)]

def downloadWords : List Word :=
  (["curl", "-LfsS", "--connect-timeout", "10", "--max-time", "30", "-H"].map
    fun s => plainWord s.toList) ++
    [quotedWord acceptHeader, plainWord "-H".toList, quotedWord agentHeader]

theorem tokens_downloadCommandPosix (url out : List Char) :
    PosixShell.tokens (downloadCommandPosix url out) =
      some ((downloadWords ++
        [quotedWord url, plainWord "-o".toList, quotedWord out]).map .word) := by
  have hfixed : start.run (downloadFront "curl".toList shellQuotePosix) =
      some ⟨downloadWords.map .word, none, .plain⟩ := by decide
  have hsplit : downloadCommandPosix url out = downloadFront "curl".toList shellQuotePosix ++
      (shellQuotePosix url ++ (outputOption ++ shellQuotePosix out)) := by
    unfold downloadCommandPosix downloadFront
    simp only [append_assoc, cons_append, nil_append]
  have houtput :
    start.run ['-', 'o', ' '] = some ⟨[.word (plainWord "-o".toList)], none, .plain⟩ := by
    decide
  rw [PosixShell.tokens, hsplit, run_append_of_eq hfixed,
    run_append_of_eq (run_shellQuotePosix url),
    outputOption, cons_append, run_blank, run_append_of_eq (run_of_start houtput _)]
  dsimp only [behind]
  rw [run_shellQuotePosix, Option.bind_some, finish_plain]
  simp

theorem read_downloadCommandPosix (env : List Char → Option (List Char)) (url out : List Char) :
    PosixShell.read env (downloadCommandPosix url out) =
      some [⟨[], downloadArgv "curl".toList url out, []⟩] := by
  have hcommands : commands .empty
      ((downloadWords ++ [quotedWord url, plainWord "-o".toList, quotedWord out]).map .word) =
      some [⟨[],
        downloadWords ++ [quotedWord url, plainWord "-o".toList, quotedWord out], []⟩] := by
    rw [← append_nil (List.map _ _), downloadWords, map_cons, cons_append,
      cons_append, commands_name_words (by decide) (by decide) rfl]
    rfl
  have hfixed : downloadWords.mapM field = some ((downloadArgv "curl".toList [] []).take 10) := by
    decide
  have hoption : field (plainWord "-o".toList) = some "-o".toList := by decide
  have hfields := mapM_field_append hfixed (mapM_field_cons (field_quotedWord url)
    (mapM_field_cons hoption (mapM_field_cons (field_quotedWord out) mapM_nil)))
  rw [PosixShell.read, tokens_downloadCommandPosix, Option.bind_some, hcommands, Option.bind_some,
    mapM_cons, Syntax.expand_eq mapM_nil hfields mapM_nil]
  rfl

theorem run_pathSuffix (w : Word) :
    (⟨ts, some w, .plain⟩ : Lexer).run ":$\x7bPYTHONPATH:-\x7d ".toList =
      some ⟨ts ++ [.word (w ++ [.char false ':', .param "PYTHONPATH:-".toList])],
        none, .plain⟩ := by
  have htext : ":$\x7bPYTHONPATH:-\x7d ".toList =
      [':'] ++ ('$' :: '\x7b' :: ("PYTHONPATH:-".toList ++ ['\x7d']) ++ [' ']) := rfl
  rw [htext, run_append_of_eq (run_plainWord (forall_mem_singleton.mpr rfl) w),
    run_append_of_eq (run_param (by simp)), run_blank, run_nil, append_assoc]
  rfl

theorem interpreter_words (h : interpreter ∈ interpreterCandidates language) :
    ∃ name args, interpreter.splitOn ' ' = name :: args ∧
      assignment [] (plainWord name) = none ∧ isReserved (plainWord name) = false ∧
      start.run (interpreter ++ " ".toList) =
        some ⟨((name :: args).map plainWord).map .word, none, .plain⟩ ∧
      ((name :: args).map plainWord).mapM field = some (name :: args) := by
  cases language with
  | python =>
    obtain rfl | rfl | rfl : interpreter = "python3".toList ∨ interpreter = "python".toList ∨
        interpreter = "py -3".toList := by simpa [interpreterCandidates] using h
    · exact ⟨"python3".toList, [], by decide⟩
    · exact ⟨"python".toList, [], by decide⟩
    · exact ⟨"py".toList, ["-3".toList], by decide⟩
  | unknown | lua =>
    obtain rfl | rfl | rfl | rfl : interpreter = "lua".toList ∨ interpreter = "luajit".toList ∨
        interpreter = "lua5.4".toList ∨ interpreter = "lua5.3".toList := by
      simpa [interpreterCandidates] using h
    · exact ⟨"lua".toList, [], by decide⟩
    · exact ⟨"luajit".toList, [], by decide⟩
    · exact ⟨"lua5.4".toList, [], by decide⟩
    · exact ⟨"lua5.3".toList, [], by decide⟩

def pluginTokens (interpreter : List Word) (root entry contextPath : List Char) : List Token :=
  [.word (plainWord "cd".toList), .word (quotedWord root), .op ['&', '&'],
    .word (plainWord "MEMDBG_CONTEXT=".toList ++ quotedWord contextPath),
    .word (plainWord "MEMDBG_PLUGIN_DIR=".toList ++ quotedWord root),
    .word (plainWord "PYTHONPATH=".toList ++ quotedWord root ++
      [.char false ':', .param "PYTHONPATH:-".toList])] ++
    (interpreter.map .word ++ ([quotedWord entry, quotedWord contextPath].map .word ++
      [.ioNumber ['2'], .op ['>', '&'], .word (plainWord ['1'])]))

theorem tokens_pluginCommandPosix {words : List Word}
    (hinterpreter : start.run (interpreter ++ " ".toList) = some ⟨words.map .word, none, .plain⟩)
    (root entry contextPath : List Char) :
    PosixShell.tokens (pluginCommandPosix interpreter root entry contextPath) =
      some (pluginTokens words root entry contextPath) := by
  have hcd : start.run "cd ".toList = some ⟨[.word (plainWord "cd".toList)], none, .plain⟩ := by
    decide
  have hcontext : start.run " && MEMDBG_CONTEXT=".toList =
      some ⟨[.op ['&', '&']], some (plainWord "MEMDBG_CONTEXT=".toList), .plain⟩ := by decide
  have hdir : start.run " MEMDBG_PLUGIN_DIR=".toList =
      some ⟨[], some (plainWord "MEMDBG_PLUGIN_DIR=".toList), .plain⟩ := by decide
  have hpath : start.run " PYTHONPATH=".toList =
      some ⟨[], some (plainWord "PYTHONPATH=".toList), .plain⟩ := by decide
  have hblank : start.run " ".toList = some ⟨[], none, .plain⟩ := by decide
  have hredirect : start.run " 2>&1".toList =
      some ⟨[.ioNumber ['2'], .op ['>', '&']], some (plainWord ['1']), .plain⟩ := by decide
  unfold pluginCommandPosix
  rw [PosixShell.tokens, run_append_of_eq hcd, run_append_of_eq (run_shellQuotePosix root),
    run_text_shellQuotePosix (by decide) hcontext,
    run_text_shellQuotePosix (by decide) hdir,
    run_text_shellQuotePosix (by decide) hpath, run_append_of_eq (run_pathSuffix _),
    ← append_assoc interpreter, run_append_of_eq (run_of_start hinterpreter _), behind,
    run_append_of_eq (run_shellQuotePosix entry), run_text_shellQuotePosix (by decide) hblank,
    run_of_blank (by decide) hredirect, Option.bind_some, behind, finish_plain]
  simp [pluginTokens]

def pluginSyntax (interpreter : List Word) (root entry contextPath : List Char) : Syntax where
  assigns :=
    [("MEMDBG_CONTEXT".toList, quotedWord contextPath),
    ("MEMDBG_PLUGIN_DIR".toList, quotedWord root),
      ("PYTHONPATH".toList, quotedWord root ++ [.char false ':', .param "PYTHONPATH:-".toList])]
  words := interpreter ++ [quotedWord entry, quotedWord contextPath]
  redirects := [(['2'], ['>', '&'], plainWord ['1'])]

theorem commands_pluginTokens {name : Word} (hname : assignment [] name = none)
    (hreserved : isReserved name = false) (args : List Word) (root entry contextPath : List Char) :
    commands .empty (pluginTokens (name :: args) root entry contextPath) =
      some [⟨[], [plainWord "cd".toList, quotedWord root], []⟩,
        pluginSyntax (name :: args) root entry contextPath] := by
  have hcd : Syntax.empty.add (plainWord "cd".toList) =
      some ⟨[], [plainWord "cd".toList], []⟩ := by decide
  have hcontext (w : Word) : assignment [] (plainWord "MEMDBG_CONTEXT=".toList ++ w) =
      some ("MEMDBG_CONTEXT".toList, w) :=
    assignment_plainWord (by decide) (by decide) w
  have hdir (w : Word) : assignment [] (plainWord "MEMDBG_PLUGIN_DIR=".toList ++ w) =
      some ("MEMDBG_PLUGIN_DIR".toList, w) :=
    assignment_plainWord (by decide) (by decide) w
  have hpath (w : Word) : assignment [] (plainWord "PYTHONPATH=".toList ++ w) =
      some ("PYTHONPATH".toList, w) :=
    assignment_plainWord (by decide) (by decide) w
  rw [pluginTokens, append_assoc (plainWord "PYTHONPATH=".toList)]
  simp only [cons_append, nil_append]
  rw [commands_word hcd, commands_word (Syntax.add_arg (cons_ne_nil _ _) _),
    commands_and (by simp [Syntax.empty]) (Syntax.add_assign rfl (hcontext _)),
    commands_word (Syntax.add_assign rfl (hdir _)), commands_word (Syntax.add_assign rfl (hpath _)),
    commands_name_words hname hreserved rfl, commands_words (cons_ne_nil _ _),
    commands_redirect (by decide), commands_end (by simp [Syntax.empty])]
  rfl

theorem expand_pluginSyntax (env : List Char → Option (List Char)) {words : List Word}
    {args : List (List Char)} (hargs : words.mapM field = some args)
    (root entry contextPath : List Char) :
    (pluginSyntax words root entry contextPath).expand env = some
      { assigns :=
          [("MEMDBG_CONTEXT".toList, contextPath), ("MEMDBG_PLUGIN_DIR".toList, root),
            ("PYTHONPATH".toList, root ++ ':' :: (env "PYTHONPATH".toList).getD [])]
        args := args ++ [entry, contextPath]
        redirects := [("2".toList, ">&".toList, "1".toList)] } := by
  have hparam : value env [.char false ':', .param "PYTHONPATH:-".toList] =
      some (':' :: (env "PYTHONPATH".toList).getD []) := by
    have hbody : "PYTHONPATH:-".toList = "PYTHONPATH".toList ++ [':', '-'] := by simp
    have hname : ∀ c ∈ "PYTHONPATH".toList, isNameChar c = true :=
      all_eq_true.mp (by decide)
    have hpiece : (Piece.param "PYTHONPATH:-".toList).value? env =
        some ((env "PYTHONPATH".toList).getD []) := by
      rw [hbody]
      exact paramValue_of_default hname
    have hword := value_cons hpiece value_nil
    rw [append_nil] at hword
    exact value_cons (u := [':']) rfl hword
  have hredirects : [(['2'], ['>', '&'], plainWord ['1'])].mapM
      (fun r => (field r.2.2).map (r.1, r.2.1, ·)) =
      some [("2".toList, ">&".toList, "1".toList)] := by decide
  refine Syntax.expand_eq ?_ (mapM_field_append hargs (mapM_field_cons (field_quotedWord entry)
    (mapM_field_cons (field_quotedWord contextPath) mapM_nil))) hredirects
  rw [pluginSyntax]
  simp only [mapM_cons, value_quotedWord, value_quotedWord_append hparam, mapM_nil]
  rfl

theorem read_pluginCommandPosix (env : List Char → Option (List Char))
    (h : interpreter ∈ interpreterCandidates language) (root entry contextPath : List Char) :
    PosixShell.read env (pluginCommandPosix interpreter root entry contextPath) =
      some (pluginCommands env interpreter root entry contextPath) := by
  obtain ⟨name, args, hsplit, hname, hreserved, hrun, hfields⟩ := interpreter_words h
  have hcd : (⟨[], [plainWord "cd".toList, quotedWord root], []⟩ : Syntax).expand env =
      some ⟨[], ["cd".toList, root], []⟩ :=
    Syntax.expand_eq mapM_nil (mapM_field_cons (by decide)
      (mapM_field_cons (field_quotedWord root) mapM_nil)) mapM_nil
  rw [PosixShell.read, tokens_pluginCommandPosix hrun, Option.bind_some, map_cons,
    commands_pluginTokens hname hreserved, Option.bind_some, mapM_cons, hcd, mapM_cons,
    ← map_cons, expand_pluginSyntax env hfields, pluginCommands, hsplit]
  rfl

end Posix

/-! ## Strings without NUL -/

section Nul

variable {value url out root entry contextPath interpreter : List Char} {language : PluginLanguage}

theorem cStr_eq_self {s : List Char} (h : '\x00' ∉ s) : cStr s = s := by
  rw [cStr, takeWhile_eq_self_iff]
  intro c hc
  rw [bne_iff_ne]
  rintro rfl
  exact h hc

theorem nul_notMem_shellQuotePosix (h : '\x00' ∉ value) : '\x00' ∉ shellQuotePosix value := by
  rw [shellQuotePosix, mem_cons, mem_append, mem_flatMap, not_or, not_or]
  refine ⟨by decide, ?_, by decide⟩
  rintro ⟨c, hc, hmem⟩
  rw [posixChar] at hmem
  split_ifs at hmem
  · exact absurd hmem (by decide)
  · rw [mem_singleton] at hmem
    exact h (hmem ▸ hc)

theorem nul_notMem_quoteWindowsLoop (n : Nat) (h : '\x00' ∉ value) :
    '\x00' ∉ quoteWindowsLoop n value := by
  have hslashes (n : Nat) : '\x00' ∉ List.replicate n '\\' := fun h =>
    absurd (eq_of_mem_replicate h) (by decide)
  induction value generalizing n with
  | nil =>
    rw [quoteWindowsLoop, mem_append, not_or]
    exact ⟨hslashes _, by decide⟩
  | cons c cs ih =>
    rw [mem_cons, not_or] at h
    rw [quoteWindowsLoop]
    split_ifs
    · exact ih _ h.2
    · rw [mem_append, mem_cons, not_or, not_or]
      exact ⟨hslashes _, by decide, ih _ h.2⟩
    · rw [mem_append, mem_cons, not_or, not_or]
      exact ⟨hslashes _, h.1, ih _ h.2⟩

theorem nul_notMem_shellQuoteWindows (h : '\x00' ∉ value) : '\x00' ∉ shellQuoteWindows value := by
  rw [shellQuoteWindows, mem_cons, not_or]
  exact ⟨by decide, nul_notMem_quoteWindowsLoop 0 h⟩

theorem cStr_downloadCommandPosix (hurl : '\x00' ∉ url) (hout : '\x00' ∉ out) :
    cStr (downloadCommandPosix url out) = downloadCommandPosix url out := by
  refine cStr_eq_self ?_
  unfold downloadCommandPosix
  simp only [mem_append, mem_cons, not_or]
  exact ⟨by decide, by decide, by decide, by decide, by decide,
    by decide, by decide, nul_notMem_shellQuotePosix hurl, by decide,
    nul_notMem_shellQuotePosix hout⟩

theorem cStr_downloadCommandWindows (hurl : '\x00' ∉ url) (hout : '\x00' ∉ out) :
    cStr (downloadCommandWindows url out) = downloadCommandWindows url out := by
  refine cStr_eq_self ?_
  unfold downloadCommandWindows
  simp only [mem_append, mem_cons, not_or]
  exact ⟨by decide, by decide, by decide, by decide, by decide,
    by decide, by decide, nul_notMem_shellQuoteWindows hurl, by decide,
    nul_notMem_shellQuoteWindows hout⟩

theorem cStr_pluginCommandPosix (h : interpreter ∈ interpreterCandidates language)
    (hroot : '\x00' ∉ root) (hentry : '\x00' ∉ entry) (hcontext : '\x00' ∉ contextPath) :
    cStr (pluginCommandPosix interpreter root entry contextPath) =
      pluginCommandPosix interpreter root entry contextPath := by
  have hcandidates : ∀ interpreter ∈ interpreterCandidates language, '\x00' ∉ interpreter := by
    cases language <;> decide
  refine cStr_eq_self ?_
  unfold pluginCommandPosix
  simp only [mem_append, not_or]
  exact ⟨by decide, nul_notMem_shellQuotePosix hroot, by decide,
    nul_notMem_shellQuotePosix hcontext, by decide, nul_notMem_shellQuotePosix hroot,
    by decide, nul_notMem_shellQuotePosix hroot, by decide,
    hcandidates interpreter h, by decide, nul_notMem_shellQuotePosix hentry,
    by decide, nul_notMem_shellQuotePosix hcontext, by decide⟩

end Nul

/-! ## The commands -/

/-- The strings change none of the commands: each is taken apart into its fixed parts, and the
strings as they are. -/
structure CommandsKept (env : List Char → Option (List Char))
    (interpreter url out root entry contextPath : List Char) : Prop where
  posixDownload : PosixShell.read env (cStr (downloadCommandPosix url out)) =
    some [⟨[], downloadArgv "curl".toList url out, []⟩]
  posixPlugin : PosixShell.read env (cStr (pluginCommandPosix interpreter root entry contextPath)) =
    some (pluginCommands env interpreter root entry contextPath)
  windowsDownload : CommandLine.cmdArgv (cStr (downloadCommandWindows url out)) =
    some (downloadArgv "curl.exe".toList url out)

section Commands

variable {env : List Char → Option (List Char)} {commandExists : List Char → Bool}
  {interpreter url out root entry contextPath : List Char} {language : PluginLanguage}

/-- The quotes hold on POSIX systems for all strings.  On Windows they hold as long as `cmd.exe`
sees each of its special characters between quotes, and `cmd.exe` knows nothing of the backslashes
in front of the quotes of a string. -/
theorem commandsKept_iff
    (hinterpreter : findInterpreter commandExists language = some interpreter)
    (hurl : '\x00' ∉ url) (hout : '\x00' ∉ out) (hroot : '\x00' ∉ root) (hentry : '\x00' ∉ entry)
    (hcontext : '\x00' ∉ contextPath) :
    CommandsKept env interpreter url out root entry contextPath ↔
      SpecialsBetweenQuotes (url ++ out) := by
  have hmem : interpreter ∈ interpreterCandidates language := mem_of_find?_eq_some hinterpreter
  have hwindows : CommandLine.cmdArgv (cStr (downloadCommandWindows url out)) =
      some (downloadArgv "curl.exe".toList url out) ↔ SpecialsBetweenQuotes (url ++ out) := by
    rw [cStr_downloadCommandWindows hurl hout,
      CommandLine.cmdArgv_iff (crtArgv_downloadCommandWindows url out),
      specialsQuoted_downloadCommandWindows]
  refine ⟨fun h => hwindows.mp h.windowsDownload, fun h => ⟨?_, ?_, hwindows.mpr h⟩⟩
  · rw [cStr_downloadCommandPosix hurl hout, read_downloadCommandPosix]
  · rw [cStr_pluginCommandPosix hmem hroot hentry hcontext, read_pluginCommandPosix env hmem]

theorem commandsKept_query :
    CommandsKept (fun _ => none) "py -3".toList "http://host/?name=it\x27s&tag=\"a b\"".toList
      "my downloads/c:\\".toList "plug ins".toList "main.py".toList "context.json".toList := by
  have hfind : findInterpreter (· == "py -3".toList) .python = some "py -3".toList := by
    decide
  exact (commandsKept_iff hfind (by decide) (by decide) (by decide)
    (by decide) (by decide)).mpr (by decide)

theorem commandsKept_ampersand :
    '\x00' ∉ "http://x/\"&calc&\"".toList ∧
      CommandLine.cmdArgv
        (cStr (downloadCommandWindows "http://x/\"&calc&\"".toList ['o'])) = none ∧
      ¬CommandsKept (fun _ => none) "lua".toList "http://x/\"&calc&\"".toList ['o'] ['p']
        ['e'] ['c'] := by
  have hnone : CommandLine.cmdArgv
      (cStr (downloadCommandWindows "http://x/\"&calc&\"".toList ['o'])) = none := by decide +kernel
  refine ⟨by decide +kernel, hnone, fun h => ?_⟩
  exact absurd (hnone.symm.trans h.windowsDownload) (Option.some_ne_none _).symm

end Commands

end MemDbg.Frontend