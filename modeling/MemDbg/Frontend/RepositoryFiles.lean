import MemDbg.Frontend.Quoting
import MemDbg.Lib.Path
import MemDbg.Lib.Transition
import Mathlib.Data.Nat.Digits.Defs

/-!
# The files of the repositories

The catalogs of the two repositories are served by others, and what is installed is put where their
texts say.  A step of a repository is followed here by the files it creates, renames, removes and
executes, whatever the file system and the network make of it.  Paths are those of POSIX, where a
backslash separates nothing.
-/

namespace MemDbg.Frontend

open List Function Lib Lib.Path

/-! ## Texts -/

def isSpace (c : Char) : Bool := c = ' ' || ('\t' ≤ c && c ≤ '\r')

def trimCopy (value : PathText) : PathText :=
  ((value.dropWhile isSpace).reverse.dropWhile isSpace).reverse

def lowerCopy (value : PathText) : PathText := value.map Char.toLower

def isRemoteUrl (value : PathText) : Bool :=
  "http://".toList.isPrefixOf (lowerCopy value) || "https://".toList.isPrefixOf (lowerCopy value)

def fnv1a64 (value : PathText) : Nat :=
  value.foldl (fun hash c => (hash ^^^ c.toNat) * 1099511628211 % 2 ^ 64) 1469598103934665603

def slugifyStep (out : PathText) (c : Char) : PathText :=
  if c.isAlphanum then out ++ [c.toLower]
  else if out.getLast? ≠ some '-' && !out.isEmpty then out ++ ['-']
  else out

def slugify (value fallback : PathText) : PathText :=
  let out := ((value.foldl slugifyStep []).reverse.dropWhile (· == '-')).reverse
  if out.isEmpty then fallback else out

def makePackageDirName (id : PathText) : PathText :=
  slugify id "plugin".toList ++ "-".toList ++ Nat.toDigits 16 (fnv1a64 id)

def cheatFormatExt (format : PathText) : PathText :=
  let lower := lowerCopy (trimCopy format)
  if lower = "json".toList || lower = "goldhen".toList then ".json".toList
  else if lower = "shn".toList || lower = "reaper".toList then ".shn".toList
  else if lower = "mc4".toList then ".mc4".toList
  else ".json".toList

def basenameFromPathOrUrl (value : PathText) : PathText :=
  let base := (value.reverse.takeWhile fun c => c ≠ '/' && c ≠ '\\').reverse
  let base := base.takeWhile fun c => c ≠ '?' && c ≠ '#'
  if base.isEmpty then "plugin-script".toList else base

def relativePathSafe (path : PathText) : Bool :=
  !path.isEmpty && !isAbsolute path && path.getLast? != some '/' &&
    (segments path).all fun part => part != dot && part != dotdot

def safeRelativePath (pathText fallback : PathText) : PathText :=
  let path := if pathText.isEmpty then fallback else pathText
  if relativePathSafe path then path
  else basenameFromPathOrUrl (if fallback.isEmpty then pathText else fallback)

/-! ## What is served -/

structure CheatCatalogEntry where
  sourceId : PathText
  gameId : PathText
  version : PathText
  format : PathText
  url : PathText
deriving DecidableEq

structure PluginFile where
  path : PathText
  resolvedUrl : PathText
deriving DecidableEq

structure PluginPackage where
  sourceId : PathText
  id : PathText
  entry : PathText
  language : PluginLanguage
  files : List PluginFile
deriving DecidableEq

structure PluginRecord where
  path : PathText
  entry : PathText
  language : PluginLanguage
  enabled : Bool
deriving DecidableEq

structure AppDirs where
  data : PathText
  cache : PathText
  config : PathText

namespace AppDirs

def cheatDataDir (d : AppDirs) : PathText := join d.data "cheats".toList

def cheatTempDir (d : AppDirs) : PathText := join (join d.cache "cheats".toList) "temp".toList

def pluginDataDir (d : AppDirs) : PathText := join d.data "plugins".toList

def packageDir (d : AppDirs) (id : PathText) : PathText :=
  join d.pluginDataDir (makePackageDirName id)

def runtimeDir (d : AppDirs) : PathText := join (join d.cache "plugins".toList) "runtime".toList

def cheatConfigPath (d : AppDirs) : PathText := join d.config "cheats.json".toList

def pluginConfigPath (d : AppDirs) : PathText := join d.config "plugins.json".toList

end AppDirs

/-! ## Files -/

inductive FileOp where
  | create (p : PathText)
  | rename (p q : PathText)
  | remove (p : PathText)
  | removeAll (p : PathText)
  | execute (p : PathText)
deriving DecidableEq

def FileOp.paths : FileOp → List PathText
  | create p => [p]
  | rename p q => [p, q]
  | remove p => [p]
  | removeAll p => [p]
  | execute p => [p]

structure FetchEnv where
  directory : Bool
  fetched : Bool
  moved : Bool
  movedAgain : Bool

def tmpOf (dest : PathText) : PathText := dest ++ ".tmp".toList

def fetchTo (env : FetchEnv) (dest : PathText) : List FileOp × Bool :=
  if env.fetched = false then
    ([.remove (tmpOf dest), .create (tmpOf dest), .remove (tmpOf dest)], false)
  else if env.moved then
    ([.remove (tmpOf dest), .create (tmpOf dest), .rename (tmpOf dest) dest], true)
  else if env.movedAgain then
    ([.remove (tmpOf dest), .create (tmpOf dest), .rename (tmpOf dest) dest, .remove dest,
      .rename (tmpOf dest) dest], true)
  else
    ([.remove (tmpOf dest), .create (tmpOf dest), .rename (tmpOf dest) dest, .remove dest,
      .rename (tmpOf dest) dest, .remove (tmpOf dest)], false)

def copyOrDownloadFile (env : FetchEnv) (dest : PathText) : List FileOp × Bool :=
  if env.directory = false then ([], false) else fetchTo env dest

namespace CheatCatalogEntry

def dest (dirs : AppDirs) (e : CheatCatalogEntry) : PathText :=
  join (join dirs.cheatDataDir e.gameId) (e.version ++ cheatFormatExt e.format)

def tempName (e : CheatCatalogEntry) : PathText :=
  e.gameId ++ "_".toList ++ e.version ++ ".tmp".toList

def key (gameId version : PathText) : PathText := gameId ++ "/".toList ++ version

end CheatCatalogEntry

def installCheatUnlocked (dirs : AppDirs) (env : FetchEnv) (e : CheatCatalogEntry) :
    List FileOp × Bool :=
  if e.url.isEmpty then ([], false)
  else if env.directory = false then ([], false)
  else if isRemoteUrl e.url = false then ([], false)
  else fetchTo env (e.dest dirs)

def installFiles (root : PathText) : List (PluginFile × FetchEnv) → List FileOp × Bool
  | [] => ([], true)
  | (file, env) :: files =>
    match copyOrDownloadFile env (join root (safeRelativePath file.path file.resolvedUrl)) with
    | (ops, false) => (ops, false)
    | (ops, true) => (ops ++ (installFiles root files).1, (installFiles root files).2)

/-- What a sandbox finds out: whether it can be set up, whether the entry is a file inside of the
package and not too long, the private directory `mkdtemp` has made, and whether the context can be
written there and the interpreter be started. -/
structure SandboxEnv where
  initialized : Bool
  entryValid : Bool
  tempDir : Option PathText
  contextWritten : Bool
  started : Bool

structure PackageEnv where
  directory : Bool
  files : Nat → FetchEnv
  entryExists : Bool
  contextWritten : Bool
  interpreter : Bool
  embeddedLua : Bool
  sandboxEnabled : Bool
  sandbox : SandboxEnv

def runEmbeddedLuaScript (env : SandboxEnv) (entry : PathText) : List FileOp :=
  if env.initialized && env.entryValid then [.execute entry] else []

/-- `exec_file` of the Python sandbox: the context is written once more, to the private
directory. -/
def runSandboxedPythonScript (env : SandboxEnv) (entry : PathText) : List FileOp :=
  if env.initialized = false then []
  else if env.entryValid = false then []
  else
    match env.tempDir with
    | none => []
    | some dir =>
      .create (join dir "context.json".toList) ::
        ((if env.contextWritten && env.started then [.execute entry] else []) ++ [.removeAll dir])

def installPackageUnlocked (dirs : AppDirs) (env : PackageEnv) (p : PluginPackage) :
    List FileOp × Bool :=
  if p.files.isEmpty then ([], false)
  else if p.language = .unknown then ([], false)
  else if env.directory = false then ([], false)
  else
    match installFiles (dirs.packageDir p.id) (p.files.zipIdx.map fun f ↦ (f.1, env.files f.2)) with
    | (ops, false) => (ops, false)
    | (ops, true) => (ops, env.entryExists)

/-! ## The repositories -/

structure Installed where
  cheats : List CheatCatalogEntry
  cheatPaths : PathText → Option PathText
  plugins : List PluginPackage
  records : PathText → Option PluginRecord

inductive FileStep where
  | refreshCheats (catalog : List CheatCatalogEntry)
  | installCheat (gameId version sourceId : PathText) (env : FetchEnv)
  | uninstallCheat (gameId version : PathText)
  | fetchCheatContent (entry : CheatCatalogEntry) (readable : Bool)
  | refreshPlugins (catalog : List PluginPackage)
  | installPackage (packageId sourceId : PathText) (env : PackageEnv)
  | setPackageEnabled (packageId : PathText) (enabled : Bool)
  | runPlugin (packageId : PathText) (env : PackageEnv)

namespace Installed

def findEntry (s : Installed) (gameId version sourceId : PathText) : Option CheatCatalogEntry :=
  s.cheats.find? fun e => e.gameId == gameId && (version.isEmpty || e.version == version) &&
    (sourceId.isEmpty || e.sourceId == sourceId)

def findPackage (s : Installed) (packageId sourceId : PathText) : Option PluginPackage :=
  s.plugins.find? fun p => p.id == packageId && (sourceId.isEmpty || p.sourceId == sourceId)

def installCheat (dirs : AppDirs) (s : Installed) (gameId version sourceId : PathText)
    (env : FetchEnv) : Installed × List FileOp :=
  match s.findEntry gameId version sourceId with
  | none => (s, [])
  | some e =>
    match installCheatUnlocked dirs env e with
    | (ops, false) => (s, ops)
    | (ops, true) =>
      ({ s with
        cheatPaths := update s.cheatPaths (CheatCatalogEntry.key e.gameId e.version)
          (some (e.dest dirs)) }, ops ++ [.create dirs.cheatConfigPath])

def uninstallCheat (dirs : AppDirs) (s : Installed) (gameId version : PathText) :
    Installed × List FileOp :=
  match s.cheatPaths (CheatCatalogEntry.key gameId version) with
  | none => (s, [])
  | some path =>
    ({ s with
      cheatPaths := update s.cheatPaths (CheatCatalogEntry.key gameId version) none },
      (if path.isEmpty then [] else [.remove path]) ++ [.create dirs.cheatConfigPath])

def fetchCheatContent (dirs : AppDirs) (s : Installed) (e : CheatCatalogEntry)
    (readable : Bool) : List FileOp :=
  let tmp := join dirs.cheatTempDir e.tempName
  if (s.cheatPaths (CheatCatalogEntry.key e.gameId e.version)).isSome && readable then []
  else if e.url.isEmpty then []
  else [.remove tmp, .create tmp, .remove tmp]

def installPackage (dirs : AppDirs) (s : Installed) (packageId sourceId : PathText)
    (env : PackageEnv) : Installed × List FileOp :=
  match s.findPackage packageId sourceId with
  | none => (s, [])
  | some p =>
    match installPackageUnlocked dirs env p with
    | (ops, false) => (s, ops)
    | (ops, true) =>
      ({ s with
        records := update s.records p.id
          (some ⟨dirs.packageDir p.id, p.entry, p.language, true⟩) },
        ops ++ [.create dirs.pluginConfigPath])

def setPackageEnabled (dirs : AppDirs) (s : Installed) (packageId : PathText) (enabled : Bool) :
    Installed × List FileOp :=
  match s.records packageId with
  | none => (s, [])
  | some record =>
    ({ s with
      records := update s.records packageId (some { record with enabled := enabled }) },
      [.create dirs.pluginConfigPath])

def runPlugin (dirs : AppDirs) (s : Installed) (packageId : PathText) (env : PackageEnv) :
    List FileOp :=
  match s.records packageId with
  | none => []
  | some record =>
    let root := if record.path.isEmpty then dirs.packageDir packageId else record.path
    let entry := join root (safeRelativePath record.entry record.entry)
    let context := join dirs.runtimeDir (makePackageDirName packageId ++ "-context.json".toList)
    if record.enabled = false then []
    else if record.language = .unknown then []
    else if env.entryExists = false then []
    else if env.directory = false then []
    else if env.contextWritten = false then [.create context]
    else if env.embeddedLua ∧ record.language = .lua then
      .create context :: runEmbeddedLuaScript env.sandbox entry
    else if env.interpreter = false then [.create context]
    else if record.language = .python ∧ env.sandboxEnabled then
      -- a build without sandboxes refuses to run the plugin
      if env.embeddedLua then .create context :: runSandboxedPythonScript env.sandbox entry
      else [.create context]
    else [.create context, .execute entry]

def step (dirs : AppDirs) (s : Installed) : FileStep → Installed × List FileOp
  | .refreshCheats catalog => ({ s with cheats := catalog }, [])
  | .installCheat gameId version sourceId env => s.installCheat dirs gameId version sourceId env
  | .uninstallCheat gameId version => s.uninstallCheat dirs gameId version
  | .fetchCheatContent entry readable => (s, s.fetchCheatContent dirs entry readable)
  | .refreshPlugins catalog => ({ s with plugins := catalog }, [])
  | .installPackage packageId sourceId env => s.installPackage dirs packageId sourceId env
  | .setPackageEnabled packageId enabled => s.setPackageEnabled dirs packageId enabled
  | .runPlugin packageId env => (s, s.runPlugin dirs packageId env)

def init : Installed := ⟨[], fun _ => none, [], fun _ => none⟩

end Installed

/-! ## Names that are made -/

theorem toLower_ne_slash {c : Char} (h : c.isAlphanum = true) : c.toLower ≠ '/' := by
  unfold Char.toLower
  split
  · rename_i hupper
    intro heq
    have hval : (c.val + ('a'.val - 'A'.val)).toNat = 47 := congrArg (fun c => c.val.toNat) heq
    have hlow : 65 ≤ c.val.toNat := UInt32.le_iff_toNat_le.mp hupper.1
    have hhigh : c.val.toNat ≤ 90 := UInt32.le_iff_toNat_le.mp hupper.2
    rw [UInt32.toNat_add, show ('a'.val - 'A'.val).toNat = 32 from rfl] at hval
    omega
  · rintro rfl
    exact absurd h (by decide)

theorem slash_notMem_slugifyStep {out : PathText} (h : '/' ∉ out) (c : Char) :
    '/' ∉ slugifyStep out c := by
  unfold slugifyStep
  split_ifs with halnum hdash
  · rw [mem_append, mem_singleton, not_or]
    exact ⟨h, (toLower_ne_slash halnum).symm⟩
  · rw [mem_append, mem_singleton, not_or]
    exact ⟨h, by decide⟩
  · exact h

theorem slash_notMem_slugify (value : PathText) {fallback : PathText} (h : '/' ∉ fallback) :
    '/' ∉ slugify value fallback := by
  have hfold : ∀ out : PathText, '/' ∉ out → '/' ∉ value.foldl slugifyStep out := by
    induction value with
    | nil => exact fun _ hout => hout
    | cons c value ih => exact fun out hout => ih _ (slash_notMem_slugifyStep hout c)
  unfold slugify
  dsimp only
  split_ifs
  · exact h
  · intro hmem
    have hmem := (dropWhile_sublist _).subset (mem_reverse.mp hmem)
    exact hfold [] not_mem_nil (mem_reverse.mp hmem)

theorem slash_notMem_toDigits (n : Nat) : '/' ∉ Nat.toDigits 16 n := by
  have hdigit : ∀ d, d < 16 → Nat.digitChar d ≠ '/' := by decide
  induction n using Nat.strongRecOn with
  | ind n ih =>
    by_cases hlt : n < 16
    · rw [Nat.toDigits_of_lt_base hlt, mem_singleton]
      exact (hdigit n hlt).symm
    · rw [Nat.toDigits_of_base_le (by decide) (Nat.le_of_not_lt hlt), mem_append,
        mem_singleton, not_or]
      exact ⟨ih _ (Nat.div_lt_self (by omega) (by decide)),
        (hdigit _ (Nat.mod_lt _ (by decide))).symm⟩

theorem slash_notMem_makePackageDirName (id : PathText) : '/' ∉ makePackageDirName id := by
  rw [makePackageDirName, mem_append, mem_append, not_or, not_or]
  exact ⟨⟨slash_notMem_slugify id (by decide), by decide⟩, slash_notMem_toDigits _⟩

theorem dash_mem_makePackageDirName (id : PathText) : '-' ∈ makePackageDirName id := by
  rw [makePackageDirName, mem_append, mem_append]
  exact .inl (.inr (mem_singleton.mpr rfl))

theorem descends_makePackageDirName (id : PathText) : Descends (makePackageDirName id) :=
  descends_of_name (slash_notMem_makePackageDirName id)
    (ne_nil_of_mem (dash_mem_makePackageDirName id))
    (isName_of_mem (dash_mem_makePackageDirName id) (by decide))

theorem inside_packageDir (dirs : AppDirs) (id : PathText) :
    Inside dirs.pluginDataDir (dirs.packageDir id) :=
  (descends_makePackageDirName id).inside _

theorem slash_notMem_basename (value : PathText) : '/' ∉ basenameFromPathOrUrl value := by
  unfold basenameFromPathOrUrl
  dsimp only
  split_ifs
  · decide
  · intro hmem
    have hmem := mem_reverse.mp ((takeWhile_sublist _).subset hmem)
    have hslash := mem_takeWhile_imp hmem
    exact absurd hslash (by decide)

theorem basename_ne_nil (value : PathText) : basenameFromPathOrUrl value ≠ [] := by
  unfold basenameFromPathOrUrl
  dsimp only
  split_ifs with h
  · decide
  · rwa [List.isEmpty_iff] at h

def Landing (pathText fallback : PathText) : Prop :=
  relativePathSafe (if pathText.isEmpty then fallback else pathText) = true ∨
    IsName (basenameFromPathOrUrl (if fallback.isEmpty then pathText else fallback))

theorem slash_notMem_tmp : '/' ∉ ".tmp".toList := by decide

theorem tmpOf_join {p : PathText} (h : Descends p) (dir : PathText) :
    tmpOf (join dir p) = join dir (tmpOf p) := by
  refine join_append h.1 ?_ dir
  rintro rfl
  exact h.2.1 rfl

theorem relativePathSafe_spec {path : PathText} (h : relativePathSafe path = true) :
    Descends path ∧ Descends (tmpOf path) := by
  rw [relativePathSafe, Bool.and_eq_true, Bool.and_eq_true, Bool.and_eq_true, Bool.not_eq_true',
    Bool.not_eq_true', bne_iff_ne, all_eq_true] at h
  obtain ⟨⟨⟨hne, habsolute⟩, hlast⟩, hparts⟩ := h
  have hne : path ≠ [] := isEmpty_eq_false_iff.mp hne
  have hnames : ∀ name ∈ segments path, IsName name := by
    intro name hname
    have hpart := hparts name hname
    rw [Bool.and_eq_true, bne_iff_ne, bne_iff_ne] at hpart
    exact hpart
  have hdescends := descends_of_names habsolute (segments_ne_nil hne hlast) hnames
  refine ⟨hdescends, hdescends.append slash_notMem_tmp (by decide) (by decide) hlast ?_⟩
  intro names name hsegments _
  refine hnames name ?_
  rw [hsegments]
  exact mem_append_right _ (mem_singleton.mpr rfl)

theorem descends_of_landing {pathText fallback : PathText} (h : Landing pathText fallback) :
    Descends (safeRelativePath pathText fallback) ∧
      Descends (tmpOf (safeRelativePath pathText fallback)) := by
  unfold safeRelativePath
  by_cases hsafe : relativePathSafe (if pathText.isEmpty then fallback else pathText) = true
  · rw [if_pos hsafe]
    exact relativePathSafe_spec hsafe
  · rw [if_neg hsafe]
    generalize hvalue : (if fallback.isEmpty then pathText else fallback) = value
    have hname : IsName (basenameFromPathOrUrl value) := hvalue ▸ h.resolve_left hsafe
    have hslash := slash_notMem_basename value
    have hne := basename_ne_nil value
    refine ⟨descends_of_name hslash hne hname, descends_of_name ?_ ?_ ?_⟩
    · rw [tmpOf, mem_append, not_or]
      exact ⟨hslash, slash_notMem_tmp⟩
    · exact append_ne_nil_of_left_ne_nil hne _
    · refine isName_of_last ?_
      rw [tmpOf, getLast?_append_of_ne_nil _ (by decide)]
      decide

/-! ## Cheats -/

def CheatCatalogEntry.Settles (e : CheatCatalogEntry) : Prop :=
  Descends (join e.gameId (e.version ++ cheatFormatExt e.format))

theorem cheatFormatExt_cases (format : PathText) : cheatFormatExt format = ".json".toList ∨
    cheatFormatExt format = ".shn".toList ∨ cheatFormatExt format = ".mc4".toList := by
  unfold cheatFormatExt
  dsimp only
  split_ifs
  · exact .inl rfl
  · exact .inr (.inl rfl)
  · exact .inr (.inr rfl)
  · exact .inl rfl

theorem last_cheatFormatExt (format : PathText) : cheatFormatExt format ≠ [] ∧
    (cheatFormatExt format).getLast? ≠ some '/' ∧ (cheatFormatExt format).getLast? ≠ some '.' := by
  rcases cheatFormatExt_cases format with h | h | h <;> rw [h] <;> decide

theorem getLast?_join {a b : PathText} (hb : isAbsolute b = false) (hne : b ≠ []) :
    (join a b).getLast? = b.getLast? := by
  rw [join_of_relative hb]
  split_ifs
  · exact getLast?_append_of_ne_nil _ hne
  · rw [getLast?_append_of_ne_nil _ (cons_ne_nil _ _), getLast?_cons_of_ne_nil hne]

theorem CheatCatalogEntry.Settles.inside {e : CheatCatalogEntry} (h : e.Settles) (dirs : AppDirs) :
    Inside dirs.cheatDataDir (e.dest dirs) ∧ Inside dirs.cheatDataDir (tmpOf (e.dest dirs)) := by
  obtain ⟨hext, hslash, hdot⟩ := last_cheatFormatExt e.format
  have hne : e.version ++ cheatFormatExt e.format ≠ [] :=
    append_ne_nil_of_right_ne_nil _ hext
  have hfile : isAbsolute (e.version ++ cheatFormatExt e.format) = false := by
    by_contra habsolute
    rw [Bool.not_eq_false] at habsolute
    have hjoin : join e.gameId (e.version ++ cheatFormatExt e.format) =
        e.version ++ cheatFormatExt e.format := by rw [join, if_pos habsolute]
    exact absurd (habsolute.symm.trans (hjoin ▸ h.1)) (by decide)
  have hgame : isAbsolute e.gameId = false := (isAbsolute_join hfile).symm.trans h.1
  have hdest : e.dest dirs =
      join dirs.cheatDataDir (join e.gameId (e.version ++ cheatFormatExt e.format)) :=
    join_assoc hgame hfile _
  have hlast : (join e.gameId (e.version ++ cheatFormatExt e.format)).getLast? =
      (cheatFormatExt e.format).getLast? := by
    rw [getLast?_join hfile hne, getLast?_append_of_ne_nil _ hext]
  rw [hdest, tmpOf_join h]
  refine ⟨Descends.inside h _, Descends.inside ?_ _⟩
  refine Descends.append h slash_notMem_tmp (by decide) (by decide) (hlast ▸ hslash) ?_
  intro names name _ hend
  exact isName_of_last (by rwa [hend, hlast])

theorem paths_fetchTo {env : FetchEnv} {dest : PathText} {op : FileOp}
    (hop : op ∈ (fetchTo env dest).1) {p : PathText} (hp : p ∈ op.paths) :
    p = dest ∨ p = tmpOf dest := by
  have hrun : ∀ op ∈ (fetchTo env dest).1, ∀ p ∈ op.paths, p = dest ∨ p = tmpOf dest := by
    unfold fetchTo
    split_ifs <;> simp [FileOp.paths]
  exact hrun op hop p hp

theorem paths_copyOrDownloadFile {env : FetchEnv} {dest : PathText} {op : FileOp}
    (hop : op ∈ (copyOrDownloadFile env dest).1) {p : PathText} (hp : p ∈ op.paths) :
    p = dest ∨ p = tmpOf dest := by
  unfold copyOrDownloadFile at hop
  split_ifs at hop
  · exact absurd hop not_mem_nil
  · exact paths_fetchTo hop hp

theorem paths_installCheatUnlocked {dirs : AppDirs} {env : FetchEnv} {e : CheatCatalogEntry}
    (h : e.Settles) {op : FileOp} (hop : op ∈ (installCheatUnlocked dirs env e).1) {p : PathText}
    (hp : p ∈ op.paths) : Inside dirs.cheatDataDir p := by
  unfold installCheatUnlocked at hop
  split_ifs at hop
  · exact absurd hop not_mem_nil
  · exact absurd hop not_mem_nil
  · exact absurd hop not_mem_nil
  · rcases paths_fetchTo hop hp with rfl | rfl
    · exact (h.inside dirs).1
    · exact (h.inside dirs).2

/-! ## Packages -/

structure PluginPackage.Settles (p : PluginPackage) : Prop where
  files : ∀ file ∈ p.files, Landing file.path file.resolvedUrl
  entry : Landing p.entry p.entry

theorem inside_of_landing {pathText fallback : PathText} (h : Landing pathText fallback)
    (root : PathText) : Inside root (join root (safeRelativePath pathText fallback)) ∧
      Inside root (tmpOf (join root (safeRelativePath pathText fallback))) := by
  obtain ⟨hfile, htmp⟩ := descends_of_landing h
  rw [tmpOf_join hfile]
  exact ⟨hfile.inside root, htmp.inside root⟩

theorem paths_installFiles {root : PathText} {files : List (PluginFile × FetchEnv)}
    (h : ∀ f ∈ files, Landing f.1.path f.1.resolvedUrl) {op : FileOp}
    (hop : op ∈ (installFiles root files).1) {p : PathText} (hp : p ∈ op.paths) :
    Inside root p := by
  induction files with
  | nil => exact absurd hop not_mem_nil
  | cons f files ih =>
    obtain ⟨file, env⟩ := f
    have hcopy : ∀ op ∈ (copyOrDownloadFile env
        (join root (safeRelativePath file.path file.resolvedUrl))).1, p ∈ op.paths →
          Inside root p := by
      intro op hop hp
      obtain ⟨hfile, htmp⟩ := inside_of_landing (h _ mem_cons_self) root
      rcases paths_copyOrDownloadFile hop hp with rfl | rfl
      · exact hfile
      · exact htmp
    rw [installFiles] at hop
    generalize copyOrDownloadFile env
      (join root (safeRelativePath file.path file.resolvedUrl)) = call at hcopy hop
    obtain ⟨ops, _ | _⟩ := call
    · exact hcopy op hop hp
    · rcases mem_append.mp hop with hop | hop
      · exact hcopy op hop hp
      · exact ih (fun f hf => h f (mem_cons_of_mem _ hf)) hop

theorem paths_installPackageUnlocked {dirs : AppDirs} {env : PackageEnv} {k : PluginPackage}
    (h : k.Settles) {op : FileOp} (hop : op ∈ (installPackageUnlocked dirs env k).1)
    {p : PathText} (hp : p ∈ op.paths) : Inside (dirs.packageDir k.id) p := by
  have hfiles : ∀ f ∈ k.files.zipIdx.map (fun f => (f.1, env.files f.2)),
      Landing f.1.path f.1.resolvedUrl := by
    intro f hf
    obtain ⟨g, hg, rfl⟩ := mem_map.mp hf
    exact h.files _ (mem_of_getElem? (mem_zipIdx_iff_getElem?.mp hg))
  have hrun : ∀ op ∈ (installFiles (dirs.packageDir k.id)
      (k.files.zipIdx.map fun f => (f.1, env.files f.2))).1, p ∈ op.paths →
        Inside (dirs.packageDir k.id) p := fun op hop hp => paths_installFiles hfiles hop hp
  unfold installPackageUnlocked at hop
  generalize installFiles (dirs.packageDir k.id)
    (k.files.zipIdx.map fun f => (f.1, env.files f.2)) = call at hrun hop
  split_ifs at hop
  · exact absurd hop not_mem_nil
  · exact absurd hop not_mem_nil
  · exact absurd hop not_mem_nil
  · obtain ⟨ops, _ | _⟩ := call
    · exact hrun op hop hp
    · exact hrun op hop hp

/-! ## Runs -/

namespace Installed

/-- What is installed lies where it belongs. -/
structure Tidy (dirs : AppDirs) (s : Installed) : Prop where
  cheats : ∀ e ∈ s.cheats, e.Settles
  cheatPaths : ∀ key path, s.cheatPaths key = some path → Inside dirs.cheatDataDir path
  plugins : ∀ p ∈ s.plugins, p.Settles
  records : ∀ id record, s.records id = some record →
    record.path = dirs.packageDir id ∧ Landing record.entry record.entry

/-- What a step is served leads nowhere else. -/
def Harmless : FileStep → Prop
  | .refreshCheats catalog => ∀ e ∈ catalog, e.Settles
  | .fetchCheatContent entry _ => Descends entry.tempName
  | .refreshPlugins catalog => ∀ p ∈ catalog, p.Settles
  | _ => True

/-- Where a step may touch a file: the directories of the cheats, of their downloads and of the
package, the configuration, the context of a plugin that is run and the private directory of its
sandbox. -/
def Allowed (dirs : AppDirs) (p : PathText) : FileStep → Prop
  | .installCheat _ _ _ _ => Inside dirs.cheatDataDir p ∨ p = dirs.cheatConfigPath
  | .uninstallCheat _ _ => Inside dirs.cheatDataDir p ∨ p = dirs.cheatConfigPath
  | .fetchCheatContent _ _ => Inside dirs.cheatTempDir p
  | .installPackage id _ _ => (Inside dirs.pluginDataDir (dirs.packageDir id) ∧
      Inside (dirs.packageDir id) p) ∨ p = dirs.pluginConfigPath
  | .setPackageEnabled _ _ => p = dirs.pluginConfigPath
  | .runPlugin id env => (Inside dirs.pluginDataDir (dirs.packageDir id) ∧
      Inside (dirs.packageDir id) p) ∨ Inside dirs.runtimeDir p ∨
      ∃ dir, env.sandboxEnabled = true ∧ env.sandbox.tempDir = some dir ∧ (p = dir ∨ Inside dir p)
  | _ => False

variable {dirs : AppDirs} {s s' : Installed} {l : FileStep}

theorem tidy_init : Tidy dirs init where
  cheats := by
    intro e he
    cases he
  cheatPaths := by
    intro key path h
    cases h
  plugins := by
    intro p hp
    cases hp
  records := by
    intro id record h
    cases h

theorem update_spec {β : Type*} {f : PathText → Option β} {P : PathText → β → Prop}
    (h : ∀ key b, f key = some b → P key b) {key : PathText} {new : Option β}
    (hnew : ∀ b, new = some b → P key b) :
    ∀ key' b, update f key new key' = some b → P key' b := by
  intro key' b hb
  by_cases heq : key' = key
  · subst heq
    rw [update_self] at hb
    exact hnew b hb
  · rw [update_of_ne heq] at hb
    exact h key' b hb

theorem mem_of_findEntry {gameId version sourceId : PathText} {e : CheatCatalogEntry}
    (h : s.findEntry gameId version sourceId = some e) : e ∈ s.cheats :=
  mem_of_find?_eq_some h

theorem mem_of_findPackage {packageId sourceId : PathText} {p : PluginPackage}
    (h : s.findPackage packageId sourceId = some p) : p ∈ s.plugins ∧ p.id = packageId := by
  have hp := find?_some h
  rw [Bool.and_eq_true] at hp
  exact ⟨mem_of_find?_eq_some h, eq_of_beq hp.1⟩

theorem descends_context (packageId : PathText) :
    Descends (makePackageDirName packageId ++ "-context.json".toList) := by
  have hdash : '-' ∈ makePackageDirName packageId ++ "-context.json".toList :=
    mem_append_left _ (dash_mem_makePackageDirName packageId)
  refine descends_of_name ?_ (ne_nil_of_mem hdash) (isName_of_mem hdash (by decide))
  rw [mem_append, not_or]
  exact ⟨slash_notMem_makePackageDirName packageId, by decide⟩

theorem paths_runEmbeddedLuaScript {env : SandboxEnv} {entry : PathText} {op : FileOp}
    (hop : op ∈ runEmbeddedLuaScript env entry) {p : PathText} (hp : p ∈ op.paths) : p = entry := by
  unfold runEmbeddedLuaScript at hop
  split_ifs at hop
  · obtain rfl := mem_singleton.mp hop
    exact mem_singleton.mp hp
  · exact absurd hop not_mem_nil

theorem paths_runSandboxedPythonScript {env : SandboxEnv} {entry : PathText} {op : FileOp}
    (hop : op ∈ runSandboxedPythonScript env entry) {p : PathText} (hp : p ∈ op.paths) :
    p = entry ∨ ∃ dir, env.tempDir = some dir ∧ (p = dir ∨ Inside dir p) := by
  unfold runSandboxedPythonScript at hop
  cases htemp : env.tempDir with
  | none =>
    rw [htemp, ite_self, ite_self] at hop
    exact absurd hop not_mem_nil
  | some dir =>
    rw [htemp] at hop
    split_ifs at hop with _ _ hstarted
    · exact absurd hop not_mem_nil
    · exact absurd hop not_mem_nil
    all_goals
      rcases mem_cons.mp hop with rfl | hop
      · rw [mem_singleton.mp hp]
        exact .inr ⟨dir, rfl, .inr ((descends_of_name (by decide) (by decide)
          (isName_of_last (by decide))).inside dir)⟩
      rcases mem_append.mp hop with hop | hop
    · obtain rfl := mem_singleton.mp hop
      exact .inl (mem_singleton.mp hp)
    · obtain rfl := mem_singleton.mp hop
      exact .inr ⟨dir, rfl, .inl (mem_singleton.mp hp)⟩
    · exact absurd hop not_mem_nil
    · obtain rfl := mem_singleton.mp hop
      exact .inr ⟨dir, rfl, .inl (mem_singleton.mp hp)⟩

theorem Tidy.paths_runPlugin (h : Tidy dirs s) {packageId : PathText} {env : PackageEnv}
    {op : FileOp} (hop : op ∈ s.runPlugin dirs packageId env) {p : PathText} (hp : p ∈ op.paths) :
    p = join dirs.runtimeDir (makePackageDirName packageId ++ "-context.json".toList) ∨
      (∃ record, s.records packageId = some record ∧
        p = join (dirs.packageDir packageId) (safeRelativePath record.entry record.entry)) ∨
      ∃ dir, env.sandboxEnabled = true ∧ env.sandbox.tempDir = some dir ∧
        (p = dir ∨ Inside dir p) := by
  unfold runPlugin at hop
  cases hrecord : s.records packageId with
  | none =>
    rw [hrecord] at hop
    exact absurd hop not_mem_nil
  | some record =>
    have hroot : (if record.path.isEmpty then dirs.packageDir packageId else record.path) =
        dirs.packageDir packageId := by
      rw [(h.records packageId record hrecord).1, ite_self]
    rw [hrecord] at hop
    dsimp only at hop
    rw [hroot] at hop
    split_ifs at hop with _ _ _ _ _ _ _ hsandboxed
    · exact absurd hop not_mem_nil
    · exact absurd hop not_mem_nil
    · exact absurd hop not_mem_nil
    · exact absurd hop not_mem_nil
    · obtain rfl := mem_singleton.mp hop
      exact .inl (mem_singleton.mp hp)
    · rcases mem_cons.mp hop with rfl | hop
      · exact .inl (mem_singleton.mp hp)
      · exact .inr (.inl ⟨record, rfl, paths_runEmbeddedLuaScript hop hp⟩)
    · obtain rfl := mem_singleton.mp hop
      exact .inl (mem_singleton.mp hp)
    · rcases mem_cons.mp hop with rfl | hop
      · exact .inl (mem_singleton.mp hp)
      · rcases paths_runSandboxedPythonScript hop hp with hentry | ⟨dir, htemp, hdir⟩
        · exact .inr (.inl ⟨record, rfl, hentry⟩)
        · exact .inr (.inr ⟨dir, hsandboxed.2, htemp, hdir⟩)
    · obtain rfl := mem_singleton.mp hop
      exact .inl (mem_singleton.mp hp)
    · rcases mem_cons.mp hop with rfl | hop
      · exact .inl (mem_singleton.mp hp)
      · obtain rfl := mem_singleton.mp hop
        exact .inr (.inl ⟨record, rfl, mem_singleton.mp hp⟩)

namespace Tidy

theorem step (h : Tidy dirs s) (hl : Harmless l) : Tidy dirs (s.step dirs l).1 := by
  cases l with
  | refreshCheats catalog => exact { h with cheats := hl }
  | installCheat gameId version sourceId env =>
    rw [Installed.step, installCheat]
    generalize hfind : s.findEntry gameId version sourceId = found
    cases found with
    | none => exact h
    | some e =>
      dsimp only
      generalize installCheatUnlocked dirs env e = call
      obtain ⟨ops, _ | _⟩ := call
      · exact h
      · refine { h with cheatPaths := update_spec h.cheatPaths ?_ }
        rintro path ⟨⟩
        exact ((h.cheats e (mem_of_findEntry hfind)).inside dirs).1
  | uninstallCheat gameId version =>
    rw [Installed.step, uninstallCheat]
    cases s.cheatPaths (CheatCatalogEntry.key gameId version) with
    | none => exact h
    | some path => exact { h with cheatPaths := update_spec h.cheatPaths nofun }
  | fetchCheatContent entry readable => exact h
  | refreshPlugins catalog => exact { h with plugins := hl }
  | installPackage packageId sourceId env =>
    rw [Installed.step, installPackage]
    generalize hfind : s.findPackage packageId sourceId = found
    cases found with
    | none => exact h
    | some p =>
      dsimp only
      generalize installPackageUnlocked dirs env p = call
      obtain ⟨ops, _ | _⟩ := call
      · exact h
      · refine { h with records := update_spec h.records ?_ }
        rintro record ⟨⟩
        exact ⟨rfl, (h.plugins p (mem_of_findPackage hfind).1).entry⟩
  | setPackageEnabled packageId enabled =>
    rw [Installed.step, setPackageEnabled]
    cases hrecord : s.records packageId with
    | none => exact h
    | some record =>
      refine { h with records := update_spec h.records ?_ }
      rintro _ ⟨⟩
      exact h.records packageId record hrecord
  | runPlugin packageId env => exact h

theorem paths_step (h : Tidy dirs s) (hl : Harmless l) {op : FileOp} (hop : op ∈ (s.step dirs l).2)
    {p : PathText} (hp : p ∈ op.paths) : Allowed dirs p l := by
  cases l with
  | refreshCheats catalog => exact absurd hop not_mem_nil
  | installCheat gameId version sourceId env =>
    rw [Installed.step, installCheat] at hop
    generalize hfind : s.findEntry gameId version sourceId = found at hop
    cases found with
    | none => exact absurd hop not_mem_nil
    | some e =>
      have hcheat : ∀ op ∈ (installCheatUnlocked dirs env e).1, p ∈ op.paths →
          Inside dirs.cheatDataDir p := fun op hop hp =>
        paths_installCheatUnlocked (h.cheats e (mem_of_findEntry hfind)) hop hp
      dsimp only at hop
      generalize installCheatUnlocked dirs env e = call at hop hcheat
      obtain ⟨ops, _ | _⟩ := call
      · exact .inl (hcheat op hop hp)
      · rcases mem_append.mp hop with hop | hop
        · exact .inl (hcheat op hop hp)
        · obtain rfl := mem_singleton.mp hop
          exact .inr (mem_singleton.mp hp)
  | uninstallCheat gameId version =>
    rw [Installed.step, uninstallCheat] at hop
    cases hpath : s.cheatPaths (CheatCatalogEntry.key gameId version) with
    | none =>
      rw [hpath] at hop
      exact absurd hop not_mem_nil
    | some path =>
      rw [hpath] at hop
      rcases mem_append.mp hop with hop | hop
      · split_ifs at hop
        · exact absurd hop not_mem_nil
        · obtain rfl := mem_singleton.mp hop
          obtain rfl := mem_singleton.mp hp
          exact .inl (h.cheatPaths _ _ hpath)
      · obtain rfl := mem_singleton.mp hop
        exact .inr (mem_singleton.mp hp)
  | fetchCheatContent entry readable =>
    have hall : ∀ op ∈ s.fetchCheatContent dirs entry readable, ∀ p ∈ op.paths,
        p = join dirs.cheatTempDir entry.tempName := by
      unfold fetchCheatContent
      split_ifs <;> simp [FileOp.paths]
    rw [hall op hop p hp]
    exact Descends.inside hl _
  | refreshPlugins catalog => exact absurd hop not_mem_nil
  | installPackage packageId sourceId env =>
    rw [Installed.step, installPackage] at hop
    generalize hfind : s.findPackage packageId sourceId = found at hop
    cases found with
    | none => exact absurd hop not_mem_nil
    | some k =>
      obtain ⟨hk, rfl⟩ := mem_of_findPackage hfind
      have hpackage : ∀ op ∈ (installPackageUnlocked dirs env k).1, p ∈ op.paths →
          Inside (dirs.packageDir k.id) p := fun op hop hp =>
        paths_installPackageUnlocked (h.plugins k hk) hop hp
      dsimp only at hop
      generalize installPackageUnlocked dirs env k = call at hop hpackage
      obtain ⟨ops, _ | _⟩ := call
      · exact .inl ⟨inside_packageDir dirs _, hpackage op hop hp⟩
      · rcases mem_append.mp hop with hop | hop
        · exact .inl ⟨inside_packageDir dirs _, hpackage op hop hp⟩
        · obtain rfl := mem_singleton.mp hop
          exact .inr (mem_singleton.mp hp)
  | setPackageEnabled packageId enabled =>
    rw [Installed.step, setPackageEnabled] at hop
    cases hrecord : s.records packageId with
    | none =>
      rw [hrecord] at hop
      exact absurd hop not_mem_nil
    | some record =>
      rw [hrecord] at hop
      obtain rfl := mem_singleton.mp hop
      exact mem_singleton.mp hp
  | runPlugin packageId env =>
    rcases h.paths_runPlugin hop hp with hcontext | ⟨record, hrecord, hentry⟩ | hsandbox
    · rw [hcontext]
      exact .inr (.inl ((descends_context packageId).inside _))
    · obtain ⟨hpath, hlanding⟩ := h.records packageId record hrecord
      refine .inl ⟨inside_packageDir dirs _, ?_⟩
      rw [hentry]
      exact (inside_of_landing hlanding _).1
    · exact .inr (.inr hsandbox)

end Tidy

/-- What the user does, over directories that stay. -/
abbrev Runs (dirs : AppDirs) (guard : Installed → FileStep → Prop) :
    Installed → List FileStep → Installed → Prop :=
  Run (fun s l => some (s.step dirs l).1) guard

theorem Tidy.runs {steps : List FileStep} (hs : Tidy dirs s)
    (h : Runs dirs (fun _ l => Harmless l) s steps s') : Tidy dirs s' := by
  refine h.invariant (P := Tidy dirs) ?_ hs
  rintro s l _ hs hl ⟨⟩
  exact hs.step hl

/-- A step that follows harmless ones and is harmless touches files where it may. -/
theorem allowed_of_runs {steps : List FileStep}
    (h : Runs dirs (fun _ l => Harmless l) s steps s') (hs : Tidy dirs s) (hl : Harmless l)
    {op : FileOp} (hop : op ∈ (s'.step dirs l).2) {p : PathText} (hp : p ∈ op.paths) :
    Allowed dirs p l :=
  (hs.runs h).paths_step hl hop hp

def someDirs : AppDirs := ⟨"/data".toList, "/cache".toList, "/config".toList⟩

def somePlugin : PluginPackage :=
  ⟨[], "p".toList, "main.py".toList, .python, [⟨"main.py".toList, "https://a/main.py".toList⟩]⟩

def someCheat : CheatCatalogEntry :=
  ⟨[], "../..".toList, "1".toList, "json".toList, "https://a/1".toList⟩

def someFetch : FetchEnv := ⟨true, true, true, true⟩

def someEnv : PackageEnv where
  directory := true
  files _ := someFetch
  entryExists := true
  contextWritten := true
  interpreter := true
  embeddedLua := true
  sandboxEnabled := true
  sandbox := ⟨true, true, some "/tmp/memdbg-python-abcdef".toList, true, true⟩

theorem settles_somePlugin : somePlugin.Settles where
  files := by
    intro file hfile
    obtain rfl := mem_singleton.mp hfile
    exact .inl (by decide)
  entry := .inl (by decide)

theorem allowed_of_runs_somePlugin :
    Allowed someDirs (join (someDirs.packageDir "p".toList) "main.py".toList)
      (.runPlugin "p".toList someEnv) ∧
    Allowed someDirs "/tmp/memdbg-python-abcdef".toList (.runPlugin "p".toList someEnv) := by
  have hrefresh : Harmless (.refreshPlugins [somePlugin]) := by
    intro p hp
    obtain rfl := mem_singleton.mp hp
    exact settles_somePlugin
  have hrun : Runs someDirs (fun _ l => Harmless l) init
      [.refreshPlugins [somePlugin], .installPackage "p".toList [] someEnv] _ :=
    .cons hrefresh rfl (.cons trivial rfl (.nil _))
  have hrunPlugin : Harmless (.runPlugin "p".toList someEnv) := trivial
  constructor
  · exact allowed_of_runs hrun tidy_init hrunPlugin
      (mem_cons_of_mem _ (mem_cons_of_mem _ (mem_cons_self : FileOp.execute _ ∈ _)))
      mem_cons_self
  · exact allowed_of_runs hrun tidy_init hrunPlugin
      (mem_cons_of_mem _ (mem_cons_of_mem _ (mem_cons_of_mem _
        (mem_cons_self : FileOp.removeAll _ ∈ _)))) mem_cons_self

theorem strays_of_runs :
    (∃ s, Runs someDirs (fun _ _ => True) init
        [.refreshPlugins [somePlugin], .installPackage "p".toList [] someEnv] s ∧
      ∃ op ∈ (s.step someDirs (.runPlugin "p".toList someEnv)).2, ∃ p ∈ op.paths,
        ¬ Inside someDirs.cheatDataDir p ∧ ¬ Inside someDirs.cheatTempDir p ∧
          ¬ Inside (someDirs.packageDir "p".toList) p) ∧
    ∃ s, Runs someDirs (fun _ _ => True) init [.refreshCheats [someCheat]] s ∧
      ∃ op ∈ (s.step someDirs (.installCheat someCheat.gameId [] [] someFetch)).2, ∃ p ∈ op.paths,
        ¬ Inside someDirs.data p := by
  refine ⟨⟨_, .cons trivial rfl (.cons trivial rfl (.nil _)), .create _, mem_cons_self, _,
    mem_cons_self, ?_, ?_, ?_⟩, _, .cons trivial rfl (.nil _), .remove _, mem_cons_self,
    _, mem_cons_self, ?_⟩
  · exact fun h => absurd h.begins (by decide)
  · exact fun h => absurd h.begins (by decide)
  · exact fun h => absurd h.begins (by decide)
  · exact fun h => absurd h.begins (by decide)

end Installed

end MemDbg.Frontend
