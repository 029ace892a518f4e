import Mathlib.Data.List.Basic

/-!
# Paths

A path is a text whose names are separated by slashes.  Its lexical normal form leaves out the
names that stand for the directory itself and takes the ones that lead up back, without a look at
the file system.
-/

namespace MemDbg.Lib

open List

abbrev PathText := List Char

namespace Path

def dot : PathText := ['.']

def dotdot : PathText := ['.', '.']

def segmentsFrom : PathText → PathText → List PathText
  | current, [] => if current.isEmpty then [] else [current]
  | current, c :: cs =>
    if c = '/' then (if current.isEmpty then [] else [current]) ++ segmentsFrom [] cs
    else segmentsFrom (current ++ [c]) cs

def segments (p : PathText) : List PathText := segmentsFrom [] p

def isAbsolute (p : PathText) : Bool := p.head? == some '/'

def join (a b : PathText) : PathText :=
  if isAbsolute b then b
  else if a.isEmpty || a.getLast? == some '/' then a ++ b
  else a ++ '/' :: b

def walk (absolute : Bool) (names : List PathText) (name : PathText) : List PathText :=
  if name = dot then names
  else if name = dotdot then
    if names.isEmpty then (if absolute then [] else [dotdot])
    else if names.getLast? = some dotdot then names ++ [dotdot]
    else names.dropLast
  else names ++ [name]

def normal (p : PathText) : List PathText := (segments p).foldl (walk (isAbsolute p)) []

def Inside (dir p : PathText) : Prop :=
  isAbsolute p = isAbsolute dir ∧
    ∃ rest, rest ≠ [] ∧ dotdot ∉ rest ∧ normal p = normal dir ++ rest

def Descends (p : PathText) : Prop :=
  isAbsolute p = false ∧ normal p ≠ [] ∧ dotdot ∉ normal p

instance (p : PathText) : Decidable (Descends p) := inferInstanceAs (Decidable (_ ∧ _ ∧ _))

/-! ## Names -/

variable {a b p : PathText}

theorem segmentsFrom_append (current a b : PathText) :
    segmentsFrom current (a ++ '/' :: b) = segmentsFrom current a ++ segments b := by
  induction a generalizing current with
  | nil =>
    have h : segmentsFrom current ('/' :: b) =
        (if current.isEmpty then [] else [current]) ++ segments b := by
      rw [segmentsFrom, if_pos rfl, segments]
    exact h
  | cons c a ih =>
    rw [cons_append, segmentsFrom, segmentsFrom]
    by_cases hc : c = '/'
    · rw [if_pos hc, if_pos hc, ih, append_assoc]
    · rw [if_neg hc, if_neg hc, ih]

theorem segments_append (a b : PathText) : segments (a ++ '/' :: b) = segments a ++ segments b :=
  segmentsFrom_append [] a b

theorem segmentsFrom_of_notMem (current : PathText) {p : PathText} (h : '/' ∉ p) :
    segmentsFrom current p = if (current ++ p).isEmpty then [] else [current ++ p] := by
  induction p generalizing current with
  | nil => rw [segmentsFrom, append_nil]
  | cons c p ih =>
    rw [mem_cons, not_or] at h
    rw [segmentsFrom, if_neg (Ne.symm h.1), ih _ h.2, append_assoc, singleton_append]

theorem segments_of_notMem (h : '/' ∉ p) (hne : p ≠ []) : segments p = [p] := by
  rw [segments, segmentsFrom_of_notMem [] h, List.nil_append, if_neg]
  rwa [List.isEmpty_iff]

theorem segments_join (h : isAbsolute b = false) :
    segments (join a b) = segments a ++ segments b := by
  rw [join, h, if_neg Bool.false_ne_true]
  split_ifs with hsep
  · rcases Bool.or_eq_true_iff.mp hsep with hnil | hlast
    · rw [List.isEmpty_iff.mp hnil]
      rfl
    · obtain ⟨a', rfl⟩ := getLast?_eq_some_iff.mp (eq_of_beq hlast)
      rw [append_assoc, singleton_append, segments_append, segments_append]
      exact congrArg (· ++ _) (append_nil _).symm
  · exact segments_append a b

theorem isAbsolute_join (h : isAbsolute b = false) :
    isAbsolute (join a b) = isAbsolute a := by
  rw [join, h, if_neg Bool.false_ne_true]
  cases a with
  | nil => exact h
  | cons c a => split_ifs <;> rfl

theorem isAbsolute_of_notMem (h : '/' ∉ p) : isAbsolute p = false := by
  cases p with
  | nil => rfl
  | cons c p => exact beq_eq_false_iff_ne.mpr fun hc => h (Option.some.inj hc ▸ mem_cons_self)

theorem segmentsFrom_append_name {s : PathText} (hs : '/' ∉ s) {current t : PathText}
    (hcurrent : '/' ∉ current) (hne : current ++ t ≠ []) (hlast : t.getLast? ≠ some '/') :
    ∃ names name, segmentsFrom current t = names ++ [name] ∧
      segmentsFrom current (t ++ s) = names ++ [name ++ s] ∧
        name.getLast? = (current ++ t).getLast? := by
  induction t generalizing current with
  | nil =>
    rw [append_nil] at hne
    refine ⟨[], current, ?_, ?_, by rw [append_nil]⟩
    · rw [segmentsFrom, if_neg (by rwa [List.isEmpty_iff])]
      rfl
    · rw [List.nil_append, segmentsFrom_of_notMem current hs, if_neg]
      · rfl
      · rw [List.isEmpty_iff, List.append_eq_nil_iff]
        exact fun h => hne h.1
  | cons c t ih =>
    rw [cons_append, segmentsFrom, segmentsFrom]
    by_cases hc : c = '/'
    · subst hc
      have ht : t ≠ [] := by
        rintro rfl
        exact hlast rfl
      rw [getLast?_cons_of_ne_nil ht] at hlast
      obtain ⟨names, name, h, happ, hend⟩ := @ih [] not_mem_nil ht hlast
      rw [if_pos rfl, if_pos rfl, h, happ, ← append_assoc, ← append_assoc]
      refine ⟨_, name, rfl, rfl, ?_⟩
      rw [hend, getLast?_append_of_ne_nil _ (cons_ne_nil _ _),
        getLast?_cons_of_ne_nil ht]
      rfl
    · rw [if_neg hc, if_neg hc, append_cons current c t]
      refine ih ?_ ?_ ?_
      · rw [mem_append, mem_singleton, not_or]
        exact ⟨hcurrent, Ne.symm hc⟩
      · rw [← append_cons current c t]
        exact append_ne_nil_of_right_ne_nil _ (cons_ne_nil _ _)
      · cases t with
        | nil => exact nofun
        | cons c' t => rwa [getLast?_cons_of_ne_nil (cons_ne_nil _ _)] at hlast

/-! ## Walks -/

def IsName (name : PathText) : Prop := name ≠ dot ∧ name ≠ dotdot

theorem isName_of_last {name : PathText} (h : name.getLast? ≠ some '.') : IsName name := by
  constructor
  · rintro rfl
    exact h rfl
  · rintro rfl
    exact h rfl

theorem isName_of_mem {name : PathText} {c : Char} (h : c ∈ name) (hc : c ≠ '.') : IsName name := by
  constructor
  · rintro rfl
    exact hc (mem_singleton.mp h)
  · rintro rfl
    rcases mem_cons.mp h with h | h
    · exact hc h
    · exact hc (mem_singleton.mp h)

theorem walk_name (absolute : Bool) (names : List PathText) {name : PathText} (h : IsName name) :
    walk absolute names name = names ++ [name] := by
  rw [walk, if_neg h.1, if_neg h.2]

theorem walk_dotdot (absolute : Bool) {names : List PathText} (hne : names ≠ [])
    (hlast : names.getLast? ≠ some dotdot) : walk absolute names dotdot = names.dropLast := by
  rw [walk, if_neg (by decide), if_pos rfl, if_neg (by rwa [List.isEmpty_iff]), if_neg hlast]

theorem foldl_walk_names (absolute : Bool) (names : List PathText) {more : List PathText}
    (h : ∀ name ∈ more, IsName name) : more.foldl (walk absolute) names = names ++ more := by
  induction more generalizing names with
  | nil => exact (append_nil _).symm
  | cons name more ih =>
    rw [foldl_cons, walk_name absolute names (h name mem_cons_self),
      ih _ fun name' h' => h name' (mem_cons_of_mem _ h'), append_assoc]
    rfl

theorem head_foldl_walk {names more : List PathText} (h : names.head? = some dotdot) :
    (more.foldl (walk false) names).head? = some dotdot := by
  induction more generalizing names with
  | nil => exact h
  | cons name more ih =>
    refine ih ?_
    cases names with
    | nil => cases h
    | cons first names =>
      obtain rfl := Option.some.inj h
      by_cases hdot : name = dot
      · rw [walk, if_pos hdot]
        rfl
      by_cases hdotdot : name = dotdot
      · rw [walk, if_neg hdot, if_pos hdotdot, if_neg (by exact Bool.false_ne_true)]
        cases names with
        | nil => rfl
        | cons _ _ => split_ifs <;> rfl
      · rw [walk, if_neg hdot, if_neg hdotdot]
        rfl

theorem foldl_walk_append (absolute : Bool) (dir : List PathText) {names more : List PathText}
    (hnames : dotdot ∉ names) (h : dotdot ∉ more.foldl (walk false) names) :
    more.foldl (walk absolute) (dir ++ names) = dir ++ more.foldl (walk false) names := by
  induction more generalizing names with
  | nil => rfl
  | cons name more ih =>
    rw [foldl_cons] at h ⊢
    have hstep : walk absolute (dir ++ names) name = dir ++ walk false names name ∧
        dotdot ∉ walk false names name := by
      by_cases hdot : name = dot
      · rw [walk, walk, if_pos hdot, if_pos hdot]
        exact ⟨rfl, hnames⟩
      by_cases hdotdot : name = dotdot
      · cases names with
        | nil =>
          -- the way leads up here, so it ends up there as well
          have hup : walk false [] name = [dotdot] := by
            rw [walk, if_neg hdot, if_pos hdotdot]
            rfl
          rw [hup] at h
          exact absurd (mem_of_head? (head_foldl_walk rfl)) h
        | cons first names =>
          have hlast : (first :: names).getLast? ≠ some dotdot :=
            fun hlast => hnames (mem_of_getLast? hlast)
          have hdir : (dir ++ first :: names).getLast? = (first :: names).getLast? :=
            getLast?_append_of_ne_nil _ (cons_ne_nil _ _)
          rw [hdotdot, walk_dotdot _ (cons_ne_nil _ _) hlast,
            walk_dotdot _ (append_ne_nil_of_right_ne_nil _ (cons_ne_nil _ _))
              (hdir ▸ hlast), dropLast_append_of_ne_nil (cons_ne_nil _ _)]
          exact ⟨rfl, fun hmem => hnames (dropLast_subset _ hmem)⟩
      · rw [walk_name _ _ ⟨hdot, hdotdot⟩, walk_name _ _ ⟨hdot, hdotdot⟩, append_assoc]
        refine ⟨rfl, ?_⟩
        rw [mem_append, mem_singleton, not_or]
        exact ⟨hnames, Ne.symm hdotdot⟩
    rw [foldl_cons, hstep.1]
    exact ih hstep.2 h

theorem Descends.inside (h : Descends p) (dir : PathText) : Inside dir (join dir p) := by
  refine ⟨isAbsolute_join h.1, normal p, h.2.1, h.2.2, ?_⟩
  have hp : normal p = (segments p).foldl (walk false) [] := by rw [normal, h.1]
  have hwalk := foldl_walk_append (isAbsolute dir) (normal dir) not_mem_nil (hp ▸ h.2.2)
  rw [normal, isAbsolute_join h.1, segments_join h.1, foldl_append, hp, ← hwalk,
    append_nil]
  rfl

theorem Inside.begins {dir : PathText} (h : Inside dir p) : normal dir <+: normal p := by
  obtain ⟨-, rest, -, -, heq⟩ := h
  exact ⟨rest, heq.symm⟩

theorem descends_of_name (hslash : '/' ∉ p) (hne : p ≠ []) (hname : IsName p) : Descends p := by
  have hnormal : normal p = [p] := by
    rw [normal, segments_of_notMem hslash hne]
    exact walk_name _ _ hname
  refine ⟨isAbsolute_of_notMem hslash, ?_, ?_⟩
  · rw [hnormal]
    exact cons_ne_nil _ _
  · rw [hnormal, mem_singleton]
    exact Ne.symm hname.2

theorem descends_of_names (habsolute : isAbsolute p = false) (hne : segments p ≠ [])
    (hnames : ∀ name ∈ segments p, IsName name) : Descends p := by
  have hnormal : normal p = segments p := by
    rw [normal, foldl_walk_names _ _ hnames, List.nil_append]
  refine ⟨habsolute, ?_, ?_⟩
  · rwa [hnormal]
  · rw [hnormal]
    exact fun hmem => (hnames _ hmem).2 rfl

theorem segments_ne_nil (hne : p ≠ []) (hlast : p.getLast? ≠ some '/') : segments p ≠ [] := by
  obtain ⟨names, name, h, -⟩ :=
    @segmentsFrom_append_name [] not_mem_nil [] p not_mem_nil hne hlast
  rw [segments, h]
  exact append_ne_nil_of_right_ne_nil _ (cons_ne_nil _ _)

theorem isAbsolute_append {s : PathText} (hne : p ≠ []) : isAbsolute (p ++ s) = isAbsolute p := by
  cases p with
  | nil => exact absurd rfl hne
  | cons c p => rfl

theorem Descends.append (h : Descends p) {s : PathText} (hs : '/' ∉ s)
    (hdot : s.getLast? ≠ some '.') (hne : s ≠ []) (hlast : p.getLast? ≠ some '/')
    (hname : ∀ names name, segments p = names ++ [name] → name.getLast? = p.getLast? →
      IsName name) : Descends (p ++ s) := by
  have hp : p ≠ [] := by
    rintro rfl
    exact h.2.1 rfl
  obtain ⟨names, name, hsegments, happ, hend⟩ :=
    @segmentsFrom_append_name s hs [] p not_mem_nil hp hlast
  have hnormal : normal p = names.foldl (walk (isAbsolute p)) [] ++ [name] := by
    rw [normal, segments, hsegments, foldl_append, foldl_cons, foldl_nil]
    exact walk_name _ _ (hname names name hsegments hend)
  have hext : IsName (name ++ s) :=
    isName_of_last (by rwa [getLast?_append_of_ne_nil _ hne])
  have hnormal' : normal (p ++ s) = names.foldl (walk (isAbsolute p)) [] ++ [name ++ s] := by
    rw [normal, isAbsolute_append hp, segments, happ, foldl_append, foldl_cons,
      foldl_nil]
    exact walk_name _ _ hext
  have hbelow := h.2.2
  rw [hnormal, mem_append, not_or] at hbelow
  refine ⟨(isAbsolute_append hp).trans h.1, ?_, ?_⟩
  · rw [hnormal']
    exact append_ne_nil_of_right_ne_nil _ (cons_ne_nil _ _)
  · rw [hnormal', mem_append, mem_singleton, not_or]
    exact ⟨hbelow.1, Ne.symm hext.2⟩

theorem join_append {s : PathText} (hp : isAbsolute p = false) (hne : p ≠ []) (dir : PathText) :
    join dir p ++ s = join dir (p ++ s) := by
  rw [join, join, isAbsolute_append hne, hp, if_neg Bool.false_ne_true, if_neg Bool.false_ne_true]
  split_ifs
  · exact append_assoc _ _ _
  · exact append_assoc _ _ _

theorem join_of_relative (hb : isAbsolute b = false) (a : PathText) :
    join a b = a ++ if a.isEmpty || a.getLast? == some '/' then b else '/' :: b := by
  rw [join, hb, if_neg Bool.false_ne_true]
  split_ifs <;> rfl

theorem join_nil_join (hb : isAbsolute b = false) (dir : PathText) :
    join (join dir []) b = join dir b := by
  have hnil : isAbsolute [] = false := rfl
  rw [join_of_relative hnil dir, join_of_relative hb dir]
  by_cases hsep : (dir.isEmpty || dir.getLast? == some '/') = true
  · rw [if_pos hsep, if_pos hsep, append_nil, join_of_relative hb, if_pos hsep]
  · rw [if_neg hsep, if_neg hsep, join_of_relative hb, if_pos, append_assoc]
    · rfl
    · rw [getLast?_append_of_ne_nil _ (cons_ne_nil _ _)]
      exact Bool.or_true _

theorem join_assoc (ha : isAbsolute a = false) (hb : isAbsolute b = false) (dir : PathText) :
    join (join dir a) b = join dir (join a b) := by
  by_cases hne : a = []
  · subst hne
    rw [join_nil_join hb]
    exact congrArg _ (show b = join [] b by rw [join, hb]; rfl)
  have hlast : (join dir a).getLast? = a.getLast? := by
    rw [join_of_relative ha]
    split_ifs
    · exact getLast?_append_of_ne_nil _ hne
    · rw [getLast?_append_of_ne_nil _ (cons_ne_nil _ _),
        getLast?_cons_of_ne_nil hne]
  have hempty : (join dir a).isEmpty = a.isEmpty := by
    have hjoin : join dir a ≠ [] := by
      intro h
      rw [h] at hlast
      exact hne (getLast?_eq_none_iff.mp hlast.symm)
    rw [isEmpty_eq_false_iff.mpr hjoin, isEmpty_eq_false_iff.mpr hne]
  rw [join_of_relative hb, hlast, hempty, join_append ha hne, join_of_relative hb a]

end Path

end MemDbg.Lib
