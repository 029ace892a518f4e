import MemDbg.Lib.PrefixCode
import Mathlib.Data.List.Forall2
import Mathlib.Data.List.Infix
import Mathlib.Data.List.TakeWhile

/-!
# Crash reports

A crash report is the address of a form in which the last actions of the journal are filled in.
When it is anonymised the values of the sensitive fields are redacted.  Two journals that differ in
these values only are compared here, for every JSON library that reads the details.
-/

namespace MemDbg.Frontend.CrashReport

open List Lib

/-! ## The journal -/

def ascii (s : String) : List UInt8 := s.toList.map fun c => UInt8.ofNat c.toNat

def natText (n : Nat) : List UInt8 := (Nat.toDigits 10 n).map fun c => UInt8.ofNat c.toNat

def toText : Int → List UInt8
  | .ofNat n => natText n
  | .negSucc n => 45 :: natText (n + 1)

inductive JsonValue where
  | string (s : List UInt8)
  | integer (n : Int)
  | other
deriving DecidableEq

abbrev Json := List UInt8 → Option (List UInt8 → Option JsonValue)

structure ActionJournalEntry where
  timestamp : Int
  action : List UInt8
  detail : List UInt8
deriving DecidableEq

def noDetail (detail : List UInt8) : Bool := detail.isEmpty || detail == ascii "\x7b\x7d"

def detailField (json : Json) (detail key : List UInt8) : List UInt8 :=
  if noDetail detail then []
  else
    match json detail with
    | none => []
    | some root =>
      match root key with
      | some (.string s) => s
      | some (.integer n) => toText n
      | _ => []

/-! ## Redaction -/

def hostKey : List UInt8 := ascii "host"

def pidKey : List UInt8 := ascii "pid"

def nameKey : List UInt8 := ascii "name"

def pathKey : List UInt8 := ascii "path"

def isSensitiveKey (key : List UInt8) : Bool :=
  key == hostKey || key == pidKey || key == nameKey || key == pathKey

def dot : UInt8 := 46

def isDigit (c : UInt8) : Bool := 48 ≤ c && c ≤ 57

def redactFrom (dots : Nat) : List UInt8 → List UInt8
  | [] => []
  | c :: value =>
    if c = dot then dot :: redactFrom (dots + 1) value
    else if dots ≥ 1 ∧ isDigit c then 120 :: redactFrom dots value
    else c :: redactFrom dots value

def redactIp (value : List UInt8) : List UInt8 := redactFrom 0 value

def lastComponent (value : List UInt8) : Option (List UInt8) :=
  if value.any fun c => c == 47 || c == 92 then
    some (value.reverse.takeWhile fun c => !(c == 47 || c == 92)).reverse
  else none

def redactPath (value : List UInt8) : List UInt8 :=
  match lastComponent value with
  | some (c :: rest) => ascii "[REDACTED]/" ++ c :: rest
  | _ => ascii "[REDACTED]"

def anonymizeValue (key value : List UInt8) : List UInt8 :=
  if isSensitiveKey key = false then value
  else if key = hostKey then redactIp value
  else if key = pidKey then ascii "[PID]"
  else if key = nameKey then ascii "[PROCESS]"
  else if key = pathKey then redactPath value
  else value

/-! ## The report -/

def endsLine (steps : List UInt8) : Bool := steps.getLast? == some 10

def addField (json : Json) (anonymize : Bool) (detail steps key : List UInt8) : List UInt8 :=
  let val := detailField json detail key
  if val = [] then steps
  else
    let val := if anonymize then anonymizeValue key val else val
    let steps := if !steps.isEmpty && !endsLine steps then steps ++ ascii ", " else steps
    steps ++ (key ++ ascii "=" ++ val)

def shownKeys : List (List UInt8) := [hostKey, pidKey, nameKey, ascii "type", ascii "op"]

def dash : List UInt8 := [32, 0xE2, 0x80, 0x94, 32]

def addStep (json : Json) (anonymize includeTelemetry : Bool) (steps : List UInt8) (stepNum : Nat)
    (entry : ActionJournalEntry) : List UInt8 :=
  let steps := steps ++ (natText stepNum ++ ascii ". " ++ entry.action)
  let steps :=
    if includeTelemetry && !noDetail entry.detail then
      shownKeys.foldl (addField json anonymize entry.detail) (steps ++ dash)
    else steps
  steps ++ [10]

def buildSteps (json : Json) (anonymize includeTelemetry : Bool) (steps : List UInt8)
    (stepNum : Nat) : List ActionJournalEntry → List UInt8
  | [] => steps
  | entry :: actions =>
    buildSteps json anonymize includeTelemetry
      (addStep json anonymize includeTelemetry steps stepNum entry) (stepNum + 1) actions

def contains (last : List UInt8) (text : String) : Bool := decide (ascii text <:+: last)

def lastOp (actions : List ActionJournalEntry) : List UInt8 :=
  match actions.getLast? with
  | none => ascii "Other"
  | some entry =>
    let last := entry.action
    if contains last "scan" then
      if contains last "aob" then ascii "AOB scan"
      else if contains last "pointer" then ascii "Pointer scan"
      else if contains last "unknown" then ascii "Unknown initial value scan"
      else ascii "Exact scan"
    else if last = ascii "connect" then ascii "Connect / HELLO"
    else if last = ascii "disconnect" then ascii "Shutdown"
    else if contains last "process" then ascii "Process list"
    else if contains last "memory_read" then ascii "Memory read"
    else if contains last "memory_write" then ascii "Memory write"
    else if contains last "debugger" then ascii "Debugger attach / stop / continue"
    else if contains last "telemetry" then ascii "Telemetry / discovery"
    else ascii "Other"

def platform (json : Json) (actions : List ActionJournalEntry) : List UInt8 :=
  if actions.any fun e => detailField json e.detail (ascii "platform") == ascii "PS4" then
    ascii "PS4"
  else ascii "PS5"

def bodyHead (json : Json) (actions : List ActionJournalEntry)
    (versionString platformName : List UInt8) : List UInt8 :=
  ascii "### Platform\n\n" ++ platform json actions ++ ascii "\n\n" ++
  ascii "### Firmware / environment\n\n<!-- Please fill in -->\n\n" ++
  (ascii "### MemDBG build\n\n" ++ versionString ++ ascii " on " ++ platformName ++ ascii "\n\n") ++
  (ascii "### Operation that triggered the crash\n\n" ++ lastOp actions ++ ascii "\n\n") ++
  ascii "### Target process and range\n\n<!-- Please fill in -->\n\n" ++
  ascii "### Exact reproduction path\n\n"

def bodyTail : List UInt8 :=
  ascii "\n" ++
  ascii "### Crash behavior\n\nFrontend crashed unexpectedly. " ++
  ascii "The action journal recorded the steps above.\n" ++
  ascii "Crash log: `memdbg_crash.log`\nAction log: `memdbg_actions.log`\n\n" ++
  ascii "### Diagnostics\n\n```\n<!-- Paste crash log contents here -->\n```\n\n"

def hexDigit (n : Nat) : UInt8 := if n < 10 then UInt8.ofNat (48 + n) else UInt8.ofNat (87 + n)

def isUnreserved (c : UInt8) : Bool :=
  (48 ≤ c && c ≤ 57) || (65 ≤ c && c ≤ 90) || (97 ≤ c && c ≤ 122) ||
    c == 45 || c == 95 || c == 46 || c == 126

def urlEncodeChar (c : UInt8) : List UInt8 :=
  if isUnreserved c then [c]
  else if c = 32 then [43]
  else [37, hexDigit (c.toNat / 16), hexDigit (c.toNat % 16)]

def urlEncode (value : List UInt8) : List UInt8 := value.flatMap urlEncodeChar

def buildCrashReportUrl (json : Json) (actions : List ActionJournalEntry)
    (versionString platformName : List UInt8) (anonymize includeTelemetry : Bool) : List UInt8 :=
  let steps := buildSteps json anonymize includeTelemetry [] 1 actions
  let title := ascii "[Crash]: " ++ lastOp actions ++ ascii " caused frontend crash"
  let body := bodyHead json actions versionString platformName ++ (steps ++ bodyTail)
  ascii "https://github.com/seregonwar/MemDBG/issues/new?template=console_crash.yml" ++
    ascii "&title=" ++ urlEncode title ++ ascii "&body=" ++ urlEncode body

/-! ### The encoding of the address -/

theorem hexDigit_injective {m n : Nat} (hm : m < 16) (hn : n < 16) (h : hexDigit m = hexDigit n) :
    m = n := by
  have hall : ∀ m n : Fin 16, hexDigit m = hexDigit n → m = n := by decide
  exact congrArg Fin.val (hall ⟨m, hm⟩ ⟨n, hn⟩ h)

theorem urlEncodeChar_prefixCode : PrefixCode urlEncodeChar := by
  intro a b h
  have hplus : isUnreserved 43 = false := by decide
  have hpercent : isUnreserved 37 = false := by decide
  rw [urlEncodeChar, urlEncodeChar] at h
  split_ifs at h with ha hb hb' ha' hb hb' hb hb' <;> rw [cons_prefix_cons] at h
  · exact h.1
  · rw [h.1, hplus] at ha
    cases ha
  · rw [h.1, hpercent] at ha
    cases ha
  · rw [← h.1, hplus] at hb
    cases hb
  · rw [ha', hb']
  · exact absurd h.1 (by decide)
  · rw [← h.1, hpercent] at hb
    cases hb
  · exact absurd h.1 (by decide)
  · rw [cons_prefix_cons, cons_prefix_cons] at h
    have hlt := a.toNat_lt
    have hlt' := b.toNat_lt
    have hhigh := hexDigit_injective (by omega) (by omega) h.2.1
    have hlow := hexDigit_injective (by omega) (by omega) h.2.2.1
    exact UInt8.toNat_inj.mp (by omega)

theorem urlEncode_injective : Function.Injective urlEncode :=
  urlEncodeChar_prefixCode.flatMap_injective fun c => by
    rw [urlEncodeChar]
    split_ifs <;> nofun

/-! ### Journals that agree -/

def upToDot (value : List UInt8) : List UInt8 := value.takeWhile (· != dot)

/-- Two entries that agree but for the values of the sensitive fields, of which the hosts agree up
to the first dot. -/
structure Agree (json : Json) (e e' : ActionJournalEntry) : Prop where
  action : e.action = e'.action
  noDetail : noDetail e.detail = noDetail e'.detail
  insensitive : ∀ key, isSensitiveKey key = false →
    detailField json e.detail key = detailField json e'.detail key
  nonempty : ∀ key, isSensitiveKey key = true →
    (detailField json e.detail key = [] ↔ detailField json e'.detail key = [])
  host : upToDot (detailField json e.detail hostKey) = upToDot (detailField json e'.detail hostKey)

def Alike (c c' : UInt8) : Prop := (isDigit c ∨ c = 120) ∧ (isDigit c' ∨ c' = 120)

def SameShape (dotted : Bool) : List UInt8 → List UInt8 → Prop
  | [], [] => True
  | c :: value, c' :: value' =>
    (c = c' ∨ dotted = true ∧ Alike c c') ∧ SameShape (dotted || c == dot) value value'
  | _, _ => False

/-- The hosts of two entries have the same shape. -/
def SameHost (json : Json) (e e' : ActionJournalEntry) : Prop :=
  SameShape false (detailField json e.detail hostKey) (detailField json e'.detail hostKey)

section Redaction

theorem redactFrom_cons (dots : Nat) (c : UInt8) (value : List UInt8) :
    redactFrom dots (c :: value) =
      (if decide (1 ≤ dots) && isDigit c then 120 else c) ::
        redactFrom (if c = dot then dots + 1 else dots) value := by
  rw [redactFrom]
  by_cases hdot : c = dot
  · subst hdot
    rw [if_pos rfl, if_pos rfl, if_neg (by rw [show isDigit dot = false by decide]; simp)]
  · rw [if_neg hdot, if_neg hdot]
    by_cases hdigit : dots ≥ 1 ∧ isDigit c = true
    · rw [if_pos hdigit, if_pos (by simpa using hdigit)]
    · rw [if_neg hdigit, if_neg (by simpa using hdigit)]

theorem redacted_eq_iff {dotted : Bool} {c c' : UInt8} :
    (if dotted && isDigit c then 120 else c) = (if dotted && isDigit c' then 120 else c') ↔
      c = c' ∨ dotted = true ∧ Alike c c' := by
  rw [Alike]
  cases dotted with
  | false => simp
  | true =>
    cases hc : isDigit c <;> cases hc' : isDigit c' <;> simp
    · rintro rfl rfl
      rfl
    · rintro rfl
      rw [hc] at hc'
      cases hc'
    · constructor
      · rintro rfl
        exact .inr rfl
      · rintro (rfl | rfl)
        · rw [hc] at hc'
          cases hc'
        · rfl

theorem eq_dot_iff {dotted : Bool} {c c' : UInt8} (h : c = c' ∨ dotted = true ∧ Alike c c') :
    c = dot ↔ c' = dot := by
  rcases h with rfl | ⟨-, hc, hc'⟩
  · rfl
  · refine iff_of_false ?_ ?_
    · rintro rfl
      exact absurd hc (by decide)
    · rintro rfl
      exact absurd hc' (by decide)

theorem dotted_next {dots : Nat} {dotted : Bool} (hdots : decide (1 ≤ dots) = dotted) (c : UInt8) :
    decide (1 ≤ if c = dot then dots + 1 else dots) = (dotted || c == dot) := by
  by_cases hdot : c = dot
  · rw [if_pos hdot, hdot, beq_self_eq_true, Bool.or_true]
    exact decide_eq_true (Nat.le_add_left 1 dots)
  · rw [if_neg hdot, hdots, beq_false_of_ne hdot, Bool.or_false]

theorem redactFrom_eq_iff {dots dots' : Nat} {dotted : Bool} {value value' : List UInt8}
    (hdots : decide (1 ≤ dots) = dotted) (hdots' : decide (1 ≤ dots') = dotted) :
    redactFrom dots value = redactFrom dots' value' ↔ SameShape dotted value value' := by
  induction value generalizing value' dots dots' dotted with
  | nil =>
    cases value' with
    | nil => exact iff_of_true rfl trivial
    | cons c' value' =>
      rw [redactFrom_cons]
      exact iff_of_false nofun id
  | cons c value ih =>
    cases value' with
    | nil =>
      rw [redactFrom_cons]
      exact iff_of_false nofun id
    | cons c' value' =>
      rw [redactFrom_cons, redactFrom_cons, List.cons.injEq, hdots, hdots', redacted_eq_iff,
        SameShape]
      refine and_congr_right fun hc => ih (dotted_next hdots c) ?_
      rw [dotted_next hdots' c']
      congr 1
      exact Bool.eq_iff_iff.mpr (by rw [beq_iff_eq, beq_iff_eq, eq_dot_iff hc])

theorem redactIp_eq_iff {value value' : List UInt8} :
    redactIp value = redactIp value' ↔ SameShape false value value' :=
  redactFrom_eq_iff rfl rfl

theorem redactIp_eq_nil_iff {value : List UInt8} : redactIp value = [] ↔ value = [] := by
  cases value with
  | nil => exact iff_of_true rfl rfl
  | cons c value =>
    rw [redactIp, redactFrom_cons]
    exact iff_of_false nofun nofun

theorem digit_notMem_redactFrom {dots : Nat} (hdots : 1 ≤ dots) {value : List UInt8} {c : UInt8}
    (hc : c ∈ redactFrom dots value) : isDigit c = false := by
  induction value generalizing dots with
  | nil => cases hc
  | cons d value ih =>
    rw [redactFrom_cons, decide_eq_true hdots, Bool.true_and] at hc
    rcases mem_cons.mp hc with rfl | hmem
    · split_ifs with hdigit
      · decide
      · exact Bool.eq_false_iff.mpr hdigit
    · exact ih (by split_ifs <;> omega) hmem

theorem redactIp_eq_append (value : List UInt8) :
    ∃ rest, redactIp value = upToDot value ++ rest ∧ ∀ c ∈ rest, isDigit c = false := by
  induction value with
  | nil => exact ⟨[], rfl, nofun⟩
  | cons c value ih =>
    rw [redactIp, redactFrom_cons, upToDot]
    by_cases hdot : c = dot
    · rw [takeWhile_cons_of_neg (by rw [hdot]; decide), if_pos hdot]
      refine ⟨_, rfl, fun d hd => ?_⟩
      rcases mem_cons.mp hd with rfl | hmem
      · rw [hdot]
        decide
      · exact digit_notMem_redactFrom (Nat.le_refl 1) hmem
    · obtain ⟨rest, heq, hrest⟩ := ih
      rw [takeWhile_cons_of_pos (by rw [bne_iff_ne]; exact hdot), if_neg hdot]
      refine ⟨rest, ?_, hrest⟩
      rw [redactIp] at heq
      rw [heq]
      rfl

end Redaction

/-! ### The steps as a text -/

def fieldsText (newline : Bool) : List (List UInt8 × List UInt8) → List UInt8
  | [] => []
  | (key, val) :: fields =>
    (if newline then [] else ascii ", ") ++ (key ++ ascii "=" ++ val) ++
      fieldsText (endsLine val) fields

def shownField (json : Json) (detail key : List UInt8) : Option (List UInt8 × List UInt8) :=
  if detailField json detail key = [] then none
  else some (key, anonymizeValue key (detailField json detail key))

def shownFields (json : Json) (detail : List UInt8) : List (List UInt8 × List UInt8) :=
  shownKeys.filterMap (shownField json detail)

def stepText (json : Json) (includeTelemetry : Bool) (stepNum : Nat) (entry : ActionJournalEntry) :
    List UInt8 :=
  natText stepNum ++ ascii ". " ++ entry.action ++
    (if includeTelemetry && !noDetail entry.detail then
      dash ++ fieldsText false (shownFields json entry.detail) else []) ++ [10]

def stepsText (json : Json) (includeTelemetry : Bool) (stepNum : Nat) :
    List ActionJournalEntry → List UInt8
  | [] => []
  | entry :: actions =>
    stepText json includeTelemetry stepNum entry ++
      stepsText json includeTelemetry (stepNum + 1) actions

section Steps

variable {json : Json} {detail steps : List UInt8}

theorem anonymizeValue_ne_nil {key value : List UInt8} (h : value ≠ []) :
    anonymizeValue key value ≠ [] := by
  rw [anonymizeValue]
  split_ifs
  · exact h
  · exact fun hnil => h (redactIp_eq_nil_iff.mp hnil)
  · decide
  · decide
  · rw [redactPath]
    split
    · exact append_ne_nil_of_right_ne_nil _ nofun
    · decide
  · exact h

theorem endsLine_append (xs : List UInt8) {ys : List UInt8} (h : ys ≠ []) :
    endsLine (xs ++ ys) = endsLine ys := by
  rw [endsLine, endsLine, getLast?_append_of_ne_nil _ h]

theorem foldl_addField (keys : List (List UInt8)) (hsteps : steps ≠ []) :
    keys.foldl (addField json true detail) steps =
      steps ++ fieldsText (endsLine steps) (keys.filterMap (shownField json detail)) := by
  induction keys generalizing steps with
  | nil => exact (append_nil _).symm
  | cons key keys ih =>
    rw [foldl_cons, addField]
    by_cases hval : detailField json detail key = []
    · have hnone : shownField json detail key = none := if_pos hval
      rw [filterMap_cons_none hnone]
      rw [if_pos hval]
      exact ih hsteps
    · have hsome : shownField json detail key =
          some (key, anonymizeValue key (detailField json detail key)) := if_neg hval
      have hne := @anonymizeValue_ne_nil key _ hval
      rw [filterMap_cons_some hsome, fieldsText]
      rw [if_neg hval, if_pos rfl, ih (append_ne_nil_of_right_ne_nil _
          (append_ne_nil_of_right_ne_nil _ hne)), endsLine_append _
          (append_ne_nil_of_right_ne_nil _ hne), endsLine_append _ hne,
        isEmpty_eq_false_iff.mpr hsteps]
      cases endsLine steps with
      | true => exact append_assoc steps _ _
      | false =>
        simp only [Bool.not_false, Bool.and_self, if_true, Bool.false_eq_true, if_false,
          append_assoc]

theorem addStep_eq (includeTelemetry : Bool) (stepNum : Nat) (entry : ActionJournalEntry) :
    addStep json true includeTelemetry steps stepNum entry =
      steps ++ stepText json includeTelemetry stepNum entry := by
  rw [addStep, stepText]
  split_ifs with hshown
  · rw [foldl_addField _ (append_ne_nil_of_right_ne_nil _ (by decide)),
      endsLine_append _ (by decide), show endsLine dash = false by decide, ← shownFields]
    simp only [append_assoc]
  · simp only [append_assoc, append_nil]

theorem buildSteps_eq (includeTelemetry : Bool) (stepNum : Nat)
    (actions : List ActionJournalEntry) :
    buildSteps json true includeTelemetry steps stepNum actions =
      steps ++ stepsText json includeTelemetry stepNum actions := by
  induction actions generalizing steps stepNum with
  | nil => exact (append_nil _).symm
  | cons entry actions ih =>
    rw [buildSteps, ih, addStep_eq, stepsText, append_assoc]

end Steps

/-! ### What the steps tell -/

section Comparison

variable {json : Json} {e e' : ActionJournalEntry}

theorem anonymizeValue_pid (value : List UInt8) :
    anonymizeValue pidKey value = ascii "[PID]" := by
  rw [anonymizeValue, if_neg (by decide), if_neg (by decide), if_pos rfl]

theorem anonymizeValue_name (value : List UInt8) :
    anonymizeValue nameKey value = ascii "[PROCESS]" := by
  rw [anonymizeValue, if_neg (by decide), if_neg (by decide), if_neg (by decide), if_pos rfl]

theorem anonymizeValue_host (value : List UInt8) :
    anonymizeValue hostKey value = redactIp value := by
  rw [anonymizeValue, if_neg (by decide), if_pos rfl]

theorem Agree.shownField_const (h : Agree json e e') {key text : List UInt8}
    (hkey : isSensitiveKey key = true) (htext : ∀ value, anonymizeValue key value = text) :
    shownField json e.detail key = shownField json e'.detail key := by
  have hiff := h.nonempty key hkey
  rw [shownField, shownField, htext, htext]
  by_cases hnil : detailField json e.detail key = []
  · rw [if_pos hnil, if_pos (hiff.mp hnil)]
  · rw [if_neg hnil, if_neg fun hnil' => hnil (hiff.mpr hnil')]

theorem Agree.shownField_insensitive (h : Agree json e e') {key : List UInt8}
    (hkey : isSensitiveKey key = false) :
    shownField json e.detail key = shownField json e'.detail key := by
  rw [shownField, shownField, h.insensitive key hkey]

theorem Agree.fields_eq (h : Agree json e e') :
    shownKeys.tail.filterMap (shownField json e.detail) =
      shownKeys.tail.filterMap (shownField json e'.detail) := by
  refine filterMap_congr fun key hkey => ?_
  rcases mem_cons.mp hkey with rfl | hkey
  · exact h.shownField_const (by decide) anonymizeValue_pid
  rcases mem_cons.mp hkey with rfl | hkey
  · exact h.shownField_const (by decide) anonymizeValue_name
  rcases mem_cons.mp hkey with rfl | hkey
  · exact h.shownField_insensitive (by decide)
  · rw [mem_singleton.mp hkey]
    exact h.shownField_insensitive (by decide)

theorem shownFields_of_host {detail : List UInt8} (hhost : detailField json detail hostKey ≠ []) :
    shownFields json detail = (hostKey, redactIp (detailField json detail hostKey)) ::
      shownKeys.tail.filterMap (shownField json detail) := by
  have hsome : shownField json detail hostKey =
      some (hostKey, redactIp (detailField json detail hostKey)) := by
    rw [shownField, if_neg hhost, anonymizeValue_host]
  exact filterMap_cons_some hsome

theorem shownFields_of_no_host {detail : List UInt8}
    (hhost : detailField json detail hostKey = []) :
    shownFields json detail = shownKeys.tail.filterMap (shownField json detail) :=
  filterMap_cons_none (if_pos hhost)

theorem takeWhile_append_of_digit {m x : List UInt8} (hm : ∃ c ∈ m, isDigit c = true) :
    (m ++ x).takeWhile (fun c => !isDigit c) = m.takeWhile fun c => !isDigit c := by
  obtain ⟨c, hc, hdigit⟩ := hm
  rw [takeWhile_append]
  refine if_neg fun hlen => ?_
  rw [← (List.takeWhile_prefix _).eq_of_length hlen] at hc
  have hnot := mem_takeWhile_imp hc
  rw [hdigit] at hnot
  cases hnot

theorem takeWhile_separated {q s m x : List UInt8} (hq : ∀ c ∈ q, isDigit c = false)
    (hs : ∀ c ∈ s, isDigit c = false) (hm : ∃ c ∈ m, isDigit c = true) :
    (q ++ (s ++ (m ++ x))).takeWhile (fun c => !isDigit c) =
      q ++ s ++ m.takeWhile fun c => !isDigit c := by
  rw [takeWhile_append_of_pos fun c hc => by rw [hq c hc]; rfl,
    takeWhile_append_of_pos fun c hc => by rw [hs c hc]; rfl, takeWhile_append_of_digit hm,
    append_assoc]

def separator (last : Bool) (value : List UInt8) : List UInt8 :=
  if last || endsLine value then [] else ascii ", "

theorem isDigit_of_mem_separator {last : Bool} {value : List UInt8} {c : UInt8}
    (hc : c ∈ separator last value) : isDigit c = false := by
  have hall : ((ascii ", ").all fun c => !isDigit c) = true := by decide
  rw [separator] at hc
  split_ifs at hc
  · cases hc
  · have hdigit := all_eq_true.mp hall c hc
    rwa [Bool.not_eq_true'] at hdigit

theorem endsLine_comma (xs : List UInt8) : endsLine (xs ++ ascii ", ") = false := by
  rw [endsLine_append _ (by decide)]
  decide

theorem eq_of_separated {last : Bool} {p q q' m x x' : List UInt8}
    (hq : ∀ c ∈ q, isDigit c = false) (hq' : ∀ c ∈ q', isDigit c = false)
    (hm : ∃ c ∈ m, isDigit c = true)
    (h : q ++ (separator last (p ++ q) ++ (m ++ x)) =
      q' ++ (separator last (p ++ q') ++ (m ++ x'))) : q = q' := by
  have htake := congrArg (List.takeWhile fun c => !isDigit c) h
  rw [takeWhile_separated hq (fun _ => isDigit_of_mem_separator) hm,
    takeWhile_separated hq' (fun _ => isDigit_of_mem_separator) hm] at htake
  have hsep := append_cancel_right htake
  cases hends : last || endsLine (p ++ q) <;> cases hends' : last || endsLine (p ++ q') <;>
    rw [separator, separator, hends, hends'] at hsep
  · exact append_cancel_right hsep
  · -- only one of them ends a line, but it ends in the separator of the other one
    obtain rfl : q' = q ++ ascii ", " := (append_nil q').symm.trans hsep.symm
    rw [← append_assoc, endsLine_comma, Bool.or_false] at hends'
    rw [hends', Bool.true_or] at hends
    cases hends
  · obtain rfl : q = q' ++ ascii ", " := (append_nil q).symm.trans hsep
    rw [← append_assoc, endsLine_comma, Bool.or_false] at hends
    rw [hends, Bool.true_or] at hends'
    cases hends'
  · exact append_cancel_right hsep

theorem exists_digit_natText (n : Nat) : ∃ c ∈ natText n, isDigit c = true := by
  obtain ⟨c, hc⟩ := exists_mem_of_ne_nil _ (@Nat.toDigits_ne_nil n 10)
  refine ⟨_, mem_map_of_mem hc, ?_⟩
  have hdigit := Nat.isDigit_of_mem_toDigits (by decide) (by decide) hc
  rw [Char.isDigit, Bool.and_eq_true, decide_eq_true_eq, decide_eq_true_eq] at hdigit
  have hge : 48 ≤ c.toNat := UInt32.le_iff_toNat_le.mp hdigit.1
  have hle : c.toNat ≤ 57 := UInt32.le_iff_toNat_le.mp hdigit.2
  have hall : ∀ n : Fin 58, 48 ≤ n.1 → isDigit (UInt8.ofNat n.1) = true := by decide
  exact hall ⟨c.toNat, by omega⟩ hge

theorem fieldsText_eq (value : List UInt8) (fields : List (List UInt8 × List UInt8)) :
    fieldsText (endsLine value) fields =
      separator fields.isEmpty value ++ fieldsText true fields := by
  cases fields with
  | nil => rfl
  | cons field fields =>
    rw [fieldsText, fieldsText, separator, isEmpty_cons, Bool.false_or, if_pos rfl,
      nil_append, append_assoc]

theorem exists_stepsText_cons (includeTelemetry : Bool) (stepNum : Nat) (e : ActionJournalEntry)
    (actions : List ActionJournalEntry) : ∃ x,
      stepsText json includeTelemetry stepNum (e :: actions) = natText stepNum ++ x := by
  rw [stepsText, stepText, append_assoc, append_assoc, append_assoc,
    append_assoc]
  exact ⟨_, rfl⟩

variable {as as' : List ActionJournalEntry}

theorem exists_common (h : List.Forall₂ (Agree json) as as')
    (stepNum : Nat) : ∃ m x x', stepsText json true stepNum as ++ [48] = m ++ x ∧
      stepsText json true stepNum as' ++ [48] = m ++ x' ∧ ∃ c ∈ m, isDigit c = true := by
  cases h with
  | nil => exact ⟨[48], [], [], rfl, rfl, 48, mem_singleton_self _, by decide⟩
  | @cons e e' as as' =>
    obtain ⟨x, hx⟩ := @exists_stepsText_cons json true stepNum e as
    obtain ⟨x', hx'⟩ := @exists_stepsText_cons json true stepNum e' as'
    refine ⟨natText stepNum, x ++ [48], x' ++ [48], ?_, ?_, exists_digit_natText stepNum⟩
    · rw [hx, append_assoc]
    · rw [hx', append_assoc]

theorem detailField_of_noDetail {detail key : List UInt8} (h : noDetail detail = true) :
    detailField json detail key = [] := if_pos h

theorem Agree.host_eq_nil_iff (h : Agree json e e') :
    detailField json e.detail hostKey = [] ↔ detailField json e'.detail hostKey = [] :=
  h.nonempty hostKey (by decide)

theorem Agree.shownFields_eq (h : Agree json e e')
    (hhost : redactIp (detailField json e.detail hostKey) =
      redactIp (detailField json e'.detail hostKey)) :
    shownFields json e.detail = shownFields json e'.detail := by
  by_cases hnil : detailField json e.detail hostKey = []
  · rw [shownFields_of_no_host hnil, shownFields_of_no_host (h.host_eq_nil_iff.mp hnil),
      h.fields_eq]
  · rw [shownFields_of_host hnil, shownFields_of_host (h.host_eq_nil_iff.not.mp hnil), hhost,
      h.fields_eq]

theorem Agree.stepText_eq (h : Agree json e e') (includeTelemetry : Bool)
    (hhost : includeTelemetry = true → SameHost json e e') (stepNum : Nat) :
    stepText json includeTelemetry stepNum e = stepText json includeTelemetry stepNum e' := by
  rw [stepText, stepText, h.action, h.noDetail]
  cases includeTelemetry with
  | false => rfl
  | true => rw [h.shownFields_eq (redactIp_eq_iff.mpr (hhost rfl))]

theorem stepText_of_host (hhost : detailField json e.detail hostKey ≠ []) (stepNum : Nat) :
    stepText json true stepNum e = natText stepNum ++ ascii ". " ++ e.action ++ dash ++
      ascii ", " ++ hostKey ++ ascii "=" ++ redactIp (detailField json e.detail hostKey) ++
      (separator (shownKeys.tail.filterMap (shownField json e.detail)).isEmpty
        (redactIp (detailField json e.detail hostKey)) ++
        (fieldsText true (shownKeys.tail.filterMap (shownField json e.detail)) ++ [10])) := by
  have hdetail : noDetail e.detail = false :=
    Bool.eq_false_iff.mpr fun h => hhost (detailField_of_noDetail h)
  rw [stepText, shownFields_of_host hhost, fieldsText, fieldsText_eq, hdetail]
  simp only [Bool.not_false, Bool.and_self, if_true, Bool.false_eq_true, if_false,
    append_assoc]

theorem sameHost_of_stepsText (h : List.Forall₂ (Agree json) as as') (stepNum : Nat)
    (heq : stepsText json true stepNum as ++ [48] = stepsText json true stepNum as' ++ [48]) :
    List.Forall₂ (SameHost json) as as' := by
  induction h generalizing stepNum with
  | nil => exact .nil
  | @cons e e' as as' hagree hrest ih =>
    obtain ⟨m, x, x', hx, hx', hm⟩ := exists_common hrest (stepNum + 1)
    rw [stepsText, stepsText, append_assoc, append_assoc] at heq
    have hhost : SameHost json e e' := by
      by_cases hnil : detailField json e.detail hostKey = []
      · rw [SameHost, hnil, hagree.host_eq_nil_iff.mp hnil]
        trivial
      · obtain ⟨q, hq, hdigit⟩ := redactIp_eq_append (detailField json e.detail hostKey)
        obtain ⟨q', hq', hdigit'⟩ := redactIp_eq_append (detailField json e'.detail hostKey)
        rw [stepText_of_host hnil, stepText_of_host (hagree.host_eq_nil_iff.not.mp hnil),
          hagree.action, hagree.fields_eq, hx, hx', hq, hq', hagree.host] at heq
        simp only [append_assoc, append_cancel_left_eq] at heq
        have hcommon : ∃ c ∈ fieldsText true
            (shownKeys.tail.filterMap (shownField json e'.detail)) ++ ([10] ++ m),
              isDigit c = true := by
          obtain ⟨c, hc, hcdigit⟩ := hm
          exact ⟨c, mem_append_right _ (mem_append_right _ hc), hcdigit⟩
        have hsame := eq_of_separated hdigit hdigit' hcommon
          (by simp only [append_assoc]; exact heq)
        rw [SameHost, ← redactIp_eq_iff, hq, hq', hagree.host, hsame]
    rw [hagree.stepText_eq true fun _ => hhost] at heq
    exact .cons hhost (ih _ (append_cancel_left heq))

theorem stepsText_of_sameHost {includeTelemetry : Bool} (h : List.Forall₂ (Agree json) as as')
    (hhost : includeTelemetry = true → List.Forall₂ (SameHost json) as as') (stepNum : Nat) :
    stepsText json includeTelemetry stepNum as = stepsText json includeTelemetry stepNum as' := by
  induction h generalizing stepNum with
  | nil => rfl
  | cons hagree _ ih =>
    rw [stepsText, stepsText, hagree.stepText_eq includeTelemetry fun ht =>
      (forall₂_cons.mp (hhost ht)).1, ih fun ht => (forall₂_cons.mp (hhost ht)).2]

/-! ### The address -/

theorem lastOp_eq (h : List.Forall₂ (Agree json) as as') :
    lastOp as = lastOp as' := by
  have hmap : as.map (·.action) = as'.map (·.action) := by
    induction h with
    | nil => rfl
    | cons hagree _ ih => rw [map_cons, map_cons, hagree.action, ih]
  have hlast := congrArg List.getLast? hmap
  rw [getLast?_map, getLast?_map] at hlast
  rw [lastOp, lastOp]
  cases he : as.getLast? with
  | none =>
    rw [he] at hlast
    rw [Option.map_eq_none_iff.mp hlast.symm]
  | some e =>
    rw [he] at hlast
    obtain ⟨e', he', haction⟩ := Option.map_eq_some_iff.mp hlast.symm
    rw [he']
    dsimp only
    rw [haction]

theorem platform_eq (h : List.Forall₂ (Agree json) as as') :
    platform json as = platform json as' := by
  have hany : (as.any fun e => detailField json e.detail (ascii "platform") == ascii "PS4") =
      as'.any fun e => detailField json e.detail (ascii "platform") == ascii "PS4" := by
    induction h with
    | nil => rfl
    | cons hagree _ ih =>
      rw [any_cons, any_cons, hagree.insensitive _ (by decide), ih]
  rw [platform, platform, hany]

theorem buildCrashReportUrl_eq_iff
    (h : List.Forall₂ (Agree json) as as') (versionString platformName : List UInt8)
    (includeTelemetry : Bool) :
    buildCrashReportUrl json as versionString platformName true includeTelemetry =
        buildCrashReportUrl json as' versionString platformName true includeTelemetry ↔
      stepsText json includeTelemetry 1 as = stepsText json includeTelemetry 1 as' := by
  have hhead : bodyHead json as versionString platformName =
      bodyHead json as' versionString platformName := by
    rw [bodyHead, bodyHead, platform_eq h, lastOp_eq h]
  rw [buildCrashReportUrl, buildCrashReportUrl, lastOp_eq h, hhead, buildSteps_eq, buildSteps_eq]
  constructor
  · intro heq
    have hbody := urlEncode_injective (append_cancel_left heq)
    exact append_cancel_right (append_cancel_left hbody)
  · intro heq
    rw [heq]

/-- An anonymised report tells two journals apart exactly if it shows the details and the hosts of
an entry have different shapes. -/
theorem buildCrashReportUrl_anonymous_iff (json : Json) {as as' : List ActionJournalEntry}
    (h : List.Forall₂ (Agree json) as as') (versionString platformName : List UInt8)
    (includeTelemetry : Bool) :
    buildCrashReportUrl json as versionString platformName true includeTelemetry =
        buildCrashReportUrl json as' versionString platformName true includeTelemetry ↔
      (includeTelemetry = true → List.Forall₂ (SameHost json) as as') := by
  rw [buildCrashReportUrl_eq_iff h]
  constructor
  · rintro heq rfl
    exact sameHost_of_stepsText h 1 (by rw [heq])
  · exact fun hhost => stepsText_of_sameHost h hhost 1

end Comparison

/-! ### Consoles in one network -/

def hostDetail (host : String) : List UInt8 := ascii ("\x7b\"host\":\"" ++ host ++ "\"\x7d")

def hostJson : Json := fun detail =>
  (["192.168.1.1", "192.170.2.9", "192.168.1.100"].find? fun host => detail == hostDetail host).map
    fun host key => if key = hostKey then some (.string (ascii host)) else none

def connectTo (host : String) : ActionJournalEntry := ⟨0, ascii "connect", hostDetail host⟩

theorem detailField_connectTo {host : String} (h : noDetail (hostDetail host) = false)
    (hjson : hostJson (hostDetail host) =
      some fun key => if key = hostKey then some (.string (ascii host)) else none)
    (key : List UInt8) :
    detailField hostJson (connectTo host).detail key =
      if key = hostKey then ascii host else [] := by
  rw [detailField, connectTo]
  rw [h, hjson]
  by_cases hkey : key = hostKey
  · rw [if_pos hkey]
    simp [hkey]
  · rw [if_neg hkey]
    simp [hkey]

theorem agree_connectTo {host host' : String}
    (h : ∀ key, detailField hostJson (connectTo host).detail key =
      if key = hostKey then ascii host else [])
    (h' : ∀ key, detailField hostJson (connectTo host').detail key =
      if key = hostKey then ascii host' else [])
    (hdetail : noDetail (hostDetail host) = noDetail (hostDetail host'))
    (hdot : upToDot (ascii host) = upToDot (ascii host'))
    (hnil : ascii host ≠ []) (hnil' : ascii host' ≠ []) :
    List.Forall₂ (Agree hostJson) [connectTo host] [connectTo host'] := by
  refine .cons ⟨rfl, hdetail, fun key hkey => ?_, fun key _ => ?_, ?_⟩ .nil
  · have hne : key ≠ hostKey := by
      rintro rfl
      cases hkey
    rw [h, h', if_neg hne, if_neg hne]
  · rw [h, h']
    split_ifs
    · exact iff_of_false hnil hnil'
    · rfl
  · rw [h, h', if_pos rfl, if_pos rfl, hdot]

theorem buildCrashReportUrl_same_shape :
    buildCrashReportUrl hostJson [connectTo "192.168.1.1"] (ascii "2.0") (ascii "Linux") true true =
      buildCrashReportUrl hostJson [connectTo "192.170.2.9"] (ascii "2.0") (ascii "Linux") true
        true := by
  have h := @detailField_connectTo "192.168.1.1" (by decide) rfl
  have h' := @detailField_connectTo "192.170.2.9" (by decide) rfl
  refine (buildCrashReportUrl_anonymous_iff hostJson (agree_connectTo h h' (by decide) (by decide)
    (by decide) (by decide)) _ _ true).mpr fun _ => .cons ?_ .nil
  rw [SameHost, ← redactIp_eq_iff, h, h', if_pos rfl, if_pos rfl]
  decide

theorem buildCrashReportUrl_tells_hosts :
    List.Forall₂ (Agree hostJson) [connectTo "192.168.1.1"] [connectTo "192.168.1.100"] ∧
      buildCrashReportUrl hostJson [connectTo "192.168.1.1"] (ascii "2.0") (ascii "Linux") true
          true ≠
        buildCrashReportUrl hostJson [connectTo "192.168.1.100"] (ascii "2.0") (ascii "Linux") true
          true := by
  have h := @detailField_connectTo "192.168.1.1" (by decide) rfl
  have h' := @detailField_connectTo "192.168.1.100" (by decide) rfl
  have hagree := agree_connectTo h h' (by decide) (by decide) (by decide) (by decide)
  refine ⟨hagree, fun heq => ?_⟩
  have hsteps := (buildCrashReportUrl_eq_iff hagree _ _ _).mp heq
  obtain ⟨hhost, -⟩ := forall₂_cons.mp (sameHost_of_stepsText hagree 1 (by rw [hsteps]))
  rw [SameHost, ← redactIp_eq_iff, h, h', if_pos rfl, if_pos rfl] at hhost
  exact absurd hhost (by decide)

end MemDbg.Frontend.CrashReport
