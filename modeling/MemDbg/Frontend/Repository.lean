import MemDbg.Lib.Transition
import Mathlib.Data.List.InsertIdx
import Mathlib.Data.List.Nodup

/-!
# Plugin and cheat repositories

A repository keeps its sources, the catalog of what they offer and the record of what is
installed behind one lock.  A refresh copies the sources out, downloads without the lock and
writes back what it has, and so does an installation.
-/

namespace MemDbg.Frontend

open List Lib

/-! ## What a repository keeps -/

structure Source where
  id : String
  url : String
  enabled : Bool
deriving DecidableEq

structure CatalogEntry (ι : Type) where
  sourceId : String
  package : ι
  installed : Bool
deriving DecidableEq

structure Repository (ι : Type) where
  sources : List Source
  catalog : List (CatalogEntry ι)
  installed : List String

structure RepositoryKind (ι : Type) where
  normalize : String → String
  refreshUrl : String → String
  makeSourceId : String → String
  key : ι → String
  install : ι → Repository ι → Repository ι
  uninstall : ι → Bool → Repository ι → Repository ι

variable {ι : Type}

def mergeInstalledFlags (key : ι → String) (installed : List String)
    (catalog : List (CatalogEntry ι)) : List (CatalogEntry ι) :=
  catalog.map fun e => { e with installed := e.installed || installed.contains (key e.package) }

def Source.entries (s : Source) (packages : List ι) : List (CatalogEntry ι) :=
  if s.enabled then packages.map fun p => ⟨s.id, p, false⟩ else []

namespace Repository

section

variable (k : RepositoryKind ι)

def shown (r : Repository ι) : List (CatalogEntry ι) :=
  mergeInstalledFlags k.key r.installed r.catalog

def loadCachedCatalog (cached : Source → List ι) (r : Repository ι) : Repository ι :=
  { r with
    catalog := mergeInstalledFlags k.key r.installed
      (r.sources.flatMap fun s => s.entries (cached s)) }

def addSource (url : String) (r : Repository ι) : Repository ι :=
  let normalized := k.normalize url
  if normalized = "" then r
  else if r.sources.any (·.url = normalized) then r
  else { r with sources := r.sources ++ [⟨k.makeSourceId normalized, normalized, true⟩] }

def removeSource (index : Nat) (cached : Source → List ι) (r : Repository ι) : Repository ι :=
  if r.sources.length ≤ index then r
  else loadCachedCatalog k cached { r with sources := r.sources.eraseIdx index }

def setSourceEnabled (index : Nat) (enabled : Bool) (cached : Source → List ι)
    (r : Repository ι) : Repository ι :=
  match r.sources[index]? with
  | none => r
  | some s =>
    loadCachedCatalog k cached
      { r with sources := r.sources.set index { s with enabled := enabled } }

def refreshed (s : Source) : Source := { s with url := k.refreshUrl s.url }

def finishRefreshAll (copy : List Source) (fetched : Source → List ι) (r : Repository ι) :
    Repository ι :=
  { r with
    sources := copy.map (refreshed k)
    catalog := mergeInstalledFlags k.key r.installed
      (copy.flatMap fun s => (refreshed k s).entries (fetched s)) }

def finishRefreshSource (index : Nat) (copy : Source) (fetched : List ι) (r : Repository ι) :
    Repository ι :=
  { r with
    sources := r.sources.set index (refreshed k copy)
    catalog := mergeInstalledFlags k.key r.installed
      (r.catalog.filter (·.sourceId ≠ copy.id) ++ (refreshed k copy).entries fetched) }

end

def offers [DecidableEq ι] (package : ι) (sourceId : String) (r : Repository ι) : Bool :=
  r.catalog.any fun e => e.package = package && (sourceId = "" || e.sourceId = sourceId)

end Repository

/-! ## The two classes -/

def PluginManager.install (id : String) (r : Repository String) : Repository String :=
  { r with
    catalog := mergeInstalledFlags (fun p => p) (id :: r.installed) r.catalog
    installed := id :: r.installed }

def PluginManager.uninstall (id : String) (removed : Bool) (r : Repository String) :
    Repository String :=
  if !r.installed.contains id then r
  else if !removed then r
  else
    let installed := r.installed.filter (· ≠ id)
    { r with
      catalog := mergeInstalledFlags (fun p => p) installed r.catalog
      installed := installed }

def pluginManager (normalizeSourceUrl makeSourceId : String → String) : RepositoryKind String where
  normalize := normalizeSourceUrl
  refreshUrl := normalizeSourceUrl
  makeSourceId := makeSourceId
  key := fun p => p
  install := PluginManager.install
  uninstall := PluginManager.uninstall

def makeCheatInstallKey (p : String × String) : String := p.1 ++ "/" ++ p.2

def markCheat (p : String × String) (installed : Bool)
    (catalog : List (CatalogEntry (String × String))) : List (CatalogEntry (String × String)) :=
  catalog.map fun e => if e.package = p then { e with installed := installed } else e

def CheatRepository.install (p : String × String) (r : Repository (String × String)) :
    Repository (String × String) :=
  { r with
    catalog := markCheat p true r.catalog
    installed := makeCheatInstallKey p :: r.installed }

def CheatRepository.uninstall (p : String × String) (_ : Bool)
    (r : Repository (String × String)) : Repository (String × String) :=
  if !r.installed.contains (makeCheatInstallKey p) then r
  else
    { r with
      catalog := markCheat p false r.catalog
      installed := r.installed.filter (· ≠ makeCheatInstallKey p) }

def cheatRepository (trimCopy makeSourceId : String → String) :
    RepositoryKind (String × String) where
  normalize := trimCopy
  refreshUrl := fun url => url
  makeSourceId := makeSourceId
  key := makeCheatInstallKey
  install := CheatRepository.install
  uninstall := CheatRepository.uninstall

/-! ## Calls that overlap -/

inductive RepositoryTask (ι : Type) where
  | refreshAll (copy : List Source)
  | refreshSource (index : Nat) (copy : Source)
  | install (package : ι)

structure RepositoryState (ι : Type) where
  repo : Repository ι
  tasks : List (RepositoryTask ι)
  wanted : List (String × Bool)

inductive RepositoryStep (ι : Type) where
  | addSource (url : String)
  | removeSource (index : Nat) (cached : Source → List ι)
  | setSourceEnabled (index : Nat) (enabled : Bool) (cached : Source → List ι)
  | refreshAll
  | refreshSource (index : Nat)
  | install (package : ι) (sourceId : String)
  | finish (task : Nat) (fetched : Source → List ι) (downloaded : Bool)
  | uninstall (package : ι) (removed : Bool)

section

variable (k : RepositoryKind ι)

def want (wanted : List (String × Bool)) : RepositoryStep ι → List (String × Bool)
  | .addSource url =>
    if k.normalize url = "" then wanted
    else if wanted.any (·.1 = k.normalize url) then wanted
    else wanted ++ [(k.normalize url, true)]
  | .removeSource index _ => wanted.eraseIdx index
  | .setSourceEnabled index enabled _ =>
    match wanted[index]? with
    | none => wanted
    | some p => wanted.set index (p.1, enabled)
  | _ => wanted

def RepositoryTask.finish (fetched : Source → List ι) (downloaded : Bool) (r : Repository ι) :
    RepositoryTask ι → Repository ι
  | .refreshAll copy => r.finishRefreshAll k copy fetched
  | .refreshSource index copy => r.finishRefreshSource k index copy (fetched copy)
  | .install package => if downloaded then k.install package r else r

def repositoryStep [DecidableEq ι] (s : RepositoryState ι) (e : RepositoryStep ι) :
    Option (RepositoryState ι) :=
  let s := { s with wanted := want k s.wanted e }
  match e with
  | .addSource url => some { s with repo := s.repo.addSource k url }
  | .removeSource index cached => some { s with repo := s.repo.removeSource k index cached }
  | .setSourceEnabled index enabled cached =>
    some { s with repo := s.repo.setSourceEnabled k index enabled cached }
  | .refreshAll => some { s with tasks := s.tasks ++ [.refreshAll s.repo.sources] }
  | .refreshSource index =>
    some { s with tasks := match s.repo.sources[index]? with
      | none => s.tasks
      | some copy => s.tasks ++ [.refreshSource index copy] }
  | .install package sourceId =>
    some { s with tasks :=
      if s.repo.offers package sourceId then s.tasks ++ [.install package] else s.tasks }
  | .finish task fetched downloaded =>
    match s.tasks[task]? with
    | none => none
    | some t =>
      some { s with
        repo := t.finish k fetched downloaded s.repo
        tasks := s.tasks.eraseIdx task }
  | .uninstall package removed => some { s with repo := k.uninstall package removed s.repo }

/-! ## Updates that are not lost -/

/-- The sources are those that were asked for, the catalog is theirs, and it says of each entry
whether it is installed. -/
structure UpToDate (s : RepositoryState ι) : Prop where
  sources : s.repo.sources.map (fun src => (src.url, src.enabled)) = s.wanted
  nodup : (s.repo.sources.map Source.url).Nodup
  catalog : ∀ e ∈ s.repo.catalog, ∃ src ∈ s.repo.sources, src.enabled = true ∧ src.id = e.sourceId
  marks : ∀ e ∈ s.repo.shown k, e.installed = true ↔ k.key e.package ∈ s.repo.installed

def RepositoryState.load (sources : List Source) (installed : List String)
    (cached : Source → List ι) : RepositoryState ι where
  repo := Repository.loadCachedCatalog k cached ⟨sources, [], installed⟩
  tasks := []
  wanted := sources.map fun src => (src.url, src.enabled)

/-- A refresh finds the sources as it has copied them, and what it brings is of a source that is
listed and enabled; no flag outlives an uninstall. -/
def Undisturbed (spared : ι → Bool → Repository ι → Prop) (s : RepositoryState ι) :
    RepositoryStep ι → Prop
  | .finish task fetched _ =>
    match s.tasks[task]? with
    | some (.refreshAll copy) =>
      (copy.map (Repository.refreshed k)).map (fun src => (src.url, src.enabled)) =
        s.repo.sources.map fun src => (src.url, src.enabled)
    | some (.refreshSource index copy) =>
      (∀ src, s.repo.sources[index]? = some src → src = Repository.refreshed k copy) ∧
        (copy.enabled = true → fetched copy ≠ [] →
          ∃ src ∈ s.repo.sources, src.enabled = true ∧ src.id = copy.id)
    | _ => True
  | .uninstall package removed => spared package removed s.repo
  | _ => True

/-- No entry of a plugin that is uninstalled is marked. -/
def PluginManager.Spared (id : String) (removed : Bool) (r : Repository String) : Prop :=
  id ∈ r.installed → removed = true → ∀ e ∈ r.catalog, e.package = id → e.installed = false

/-- No entry of another cheat with the key of the one that is uninstalled is marked. -/
def CheatRepository.Spared (p : String × String) (_ : Bool) (r : Repository (String × String)) :
    Prop :=
  makeCheatInstallKey p ∈ r.installed → ∀ e ∈ r.catalog, e.package ≠ p →
    makeCheatInstallKey e.package = makeCheatInstallKey p → e.installed = false

end

/-! ## What the locked steps keep -/

namespace Repository

variable {k : RepositoryKind ι} {r : Repository ι}

structure Sound (k : RepositoryKind ι) (r : Repository ι) : Prop where
  catalog : ∀ e ∈ r.catalog, ∃ src ∈ r.sources, src.enabled = true ∧ src.id = e.sourceId
  marks : ∀ e ∈ r.catalog, e.installed = true → k.key e.package ∈ r.installed

theorem mem_mergeInstalledFlags {key : ι → String} {installed : List String}
    {catalog : List (CatalogEntry ι)} {e : CatalogEntry ι}
    (h : e ∈ mergeInstalledFlags key installed catalog) :
    ∃ e' ∈ catalog, e'.sourceId = e.sourceId ∧ e'.package = e.package ∧
      (e.installed = true ↔ e'.installed = true ∨ key e.package ∈ installed) := by
  obtain ⟨e', he', rfl⟩ := mem_map.mp h
  refine ⟨e', he', rfl, rfl, ?_⟩
  rw [Bool.or_eq_true, contains_iff_mem]

theorem mem_entries {s : Source} {packages : List ι} {e : CatalogEntry ι}
    (h : e ∈ s.entries packages) :
    s.enabled = true ∧ packages ≠ [] ∧ s.id = e.sourceId ∧ e.installed = false := by
  rw [Source.entries] at h
  split_ifs at h with henabled
  · obtain ⟨p, hp, rfl⟩ := mem_map.mp h
    exact ⟨henabled, ne_nil_of_mem hp, rfl, rfl⟩
  · cases h

theorem sound_of_entries {catalog : List (CatalogEntry ι)} (h : ∀ e ∈ catalog,
    (∃ src ∈ r.sources, src.enabled = true ∧ src.id = e.sourceId) ∧
      (e.installed = true → k.key e.package ∈ r.installed)) :
    Sound k { r with catalog := mergeInstalledFlags k.key r.installed catalog } := by
  constructor
  · intro e he
    obtain ⟨e', he', hid, -, -⟩ := mem_mergeInstalledFlags he
    rw [← hid]
    exact (h e' he').1
  · intro e he hmarked
    obtain ⟨e', he', -, hpackage, hiff⟩ := mem_mergeInstalledFlags he
    rcases hiff.mp hmarked with hmarked' | hmem
    · have hkey := (h e' he').2 hmarked'
      rwa [hpackage] at hkey
    · exact hmem

theorem loadCachedCatalog_sound (cached : Source → List ι) (r : Repository ι) :
    Sound k (r.loadCachedCatalog k cached) := by
  refine sound_of_entries fun e he => ?_
  obtain ⟨s, hs, he⟩ := mem_flatMap.mp he
  obtain ⟨henabled, -, hid, hno⟩ := mem_entries he
  exact ⟨⟨s, hs, henabled, hid⟩, fun h => nomatch hno.symm.trans h⟩

theorem finishRefreshAll_sound (copy : List Source) (fetched : Source → List ι)
    (r : Repository ι) : Sound k (r.finishRefreshAll k copy fetched) := by
  refine sound_of_entries (r := { r with sources := copy.map (refreshed k) }) fun e he => ?_
  obtain ⟨s, hs, he⟩ := mem_flatMap.mp he
  obtain ⟨henabled, -, hid, hno⟩ := mem_entries he
  exact ⟨⟨_, mem_map_of_mem hs, henabled, hid⟩, fun h => nomatch hno.symm.trans h⟩

theorem set_refreshed {index : Nat} {copy : Source}
    (h : ∀ src, r.sources[index]? = some src → src = refreshed k copy) :
    r.sources.set index (refreshed k copy) = r.sources := by
  cases hsrc : r.sources[index]? with
  | none => exact set_eq_of_length_le (getElem?_eq_none_iff.mp hsrc)
  | some src =>
    rw [← h src hsrc]
    obtain ⟨hlt, heq⟩ := List.getElem?_eq_some_iff.mp hsrc
    rw [← heq, set_getElem_self]

theorem finishRefreshSource_sound (hr : Sound k r) {index : Nat} {copy : Source}
    {fetched : List ι} (hsame : ∀ src, r.sources[index]? = some src → src = refreshed k copy)
    (hlisted : copy.enabled = true → fetched ≠ [] →
      ∃ src ∈ r.sources, src.enabled = true ∧ src.id = copy.id) :
    Sound k (r.finishRefreshSource k index copy fetched) := by
  rw [finishRefreshSource, set_refreshed hsame]
  refine sound_of_entries fun e he => ?_
  rcases mem_append.mp he with he | he
  · have hmem := (mem_filter.mp he).1
    exact ⟨hr.catalog e hmem, hr.marks e hmem⟩
  · obtain ⟨henabled, hsome, hid, hno⟩ := mem_entries he
    rw [← hid]
    exact ⟨hlisted henabled hsome, fun h => nomatch hno.symm.trans h⟩

/-! ### Sources -/

def view (src : Source) : String × Bool := (src.url, src.enabled)

structure Lists (sources : List Source) (wanted : List (String × Bool)) : Prop where
  eq : sources.map view = wanted
  nodup : (sources.map Source.url).Nodup

theorem Lists.urls {sources : List Source} {wanted : List (String × Bool)}
    (h : Lists sources wanted) : wanted.map Prod.fst = sources.map Source.url := by
  rw [← h.eq, map_map]
  rfl

theorem addSource_lists {wanted : List (String × Bool)} (h : Lists r.sources wanted)
    (url : String) : Lists (r.addSource k url).sources (want k wanted (.addSource url)) := by
  have hany : wanted.any (·.1 = k.normalize url) = r.sources.any (·.url = k.normalize url) := by
    rw [← h.eq, any_map]
    rfl
  rw [addSource, want, hany]
  split_ifs with hempty hlisted
  · exact h
  · exact h
  · constructor
    · rw [map_append, h.eq]
      rfl
    · rw [map_append]
      refine nodup_append.mpr ⟨h.nodup, nodup_singleton _, ?_⟩
      rintro a ha b hb rfl
      obtain ⟨src, hsrc, rfl⟩ := mem_map.mp ha
      rw [map_singleton, mem_singleton] at hb
      refine hlisted (any_eq_true.mpr ⟨src, hsrc, ?_⟩)
      rw [hb]
      exact decide_eq_true rfl

theorem removeSource_lists {wanted : List (String × Bool)} (h : Lists r.sources wanted)
    (index : Nat) (cached : Source → List ι) :
    Lists (r.removeSource k index cached).sources (wanted.eraseIdx index) := by
  have herase : Lists (r.sources.eraseIdx index) (wanted.eraseIdx index) := by
    constructor
    · rw [← h.eq, eraseIdx_map]
    · exact h.nodup.sublist ((eraseIdx_sublist _ _).map _)
  rw [removeSource]
  split_ifs with hindex
  · rwa [eraseIdx_of_length_le hindex] at herase
  · exact herase

theorem setSourceEnabled_lists {wanted : List (String × Bool)} (h : Lists r.sources wanted)
    (index : Nat) (enabled : Bool) (cached : Source → List ι) :
    Lists (r.setSourceEnabled k index enabled cached).sources
      (want k wanted (.setSourceEnabled index enabled cached)) := by
  have hget : wanted[index]? = (r.sources[index]?).map view := by
    rw [← h.eq, getElem?_map]
  rw [setSourceEnabled, want, hget]
  cases hsrc : r.sources[index]? with
  | none => exact h
  | some src =>
    obtain ⟨hlt, heq⟩ := List.getElem?_eq_some_iff.mp hsrc
    constructor
    · dsimp only [Option.map_some, loadCachedCatalog]
      rw [map_set, h.eq]
      rfl
    · dsimp only [loadCachedCatalog]
      have hsame : (r.sources.map Source.url).set index src.url = r.sources.map Source.url := by
        rw [← map_set, ← heq, set_getElem_self]
      rw [map_set, hsame]
      exact h.nodup

end Repository

/-! ## Every run -/

open Repository in
structure RepositoryState.Inv (k : RepositoryKind ι) (s : RepositoryState ι) : Prop where
  lists : Lists s.repo.sources s.wanted
  sound : Sound k s.repo

section

variable {k : RepositoryKind ι} {spared : ι → Bool → Repository ι → Prop} {s s' : RepositoryState ι}

theorem RepositoryState.Inv.upToDate (h : s.Inv k) : UpToDate k s := by
  refine ⟨h.lists.eq, h.lists.nodup, h.sound.catalog, fun e he => ?_⟩
  obtain ⟨e', he', -, hpackage, hiff⟩ := Repository.mem_mergeInstalledFlags he
  rw [hiff, or_iff_right_of_imp]
  intro hmarked
  rw [← hpackage]
  exact h.sound.marks e' he' hmarked

def Keeps (k : RepositoryKind ι) (r r' : Repository ι) : Prop :=
  r'.sources = r.sources ∧ (r.Sound k → r'.Sound k)

theorem RepositoryState.Inv.keeps (h : s.Inv k) {r : Repository ι} {tasks : List (RepositoryTask ι)}
    (hr : Keeps k s.repo r) : RepositoryState.Inv k ⟨r, tasks, s.wanted⟩ := by
  refine ⟨?_, hr.2 h.sound⟩
  rw [hr.1]
  exact h.lists

theorem addSource_sound {r : Repository ι} (h : r.Sound k) (url : String) :
    (r.addSource k url).Sound k := by
  rw [Repository.addSource]
  split_ifs
  · exact h
  · exact h
  · refine ⟨fun e he => ?_, h.marks⟩
    obtain ⟨src, hsrc, hlisted⟩ := h.catalog e he
    exact ⟨src, mem_append_left _ hsrc, hlisted⟩

theorem removeSource_sound {r : Repository ι} (h : r.Sound k) (index : Nat)
    (cached : Source → List ι) : (r.removeSource k index cached).Sound k := by
  rw [Repository.removeSource]
  split_ifs
  · exact h
  · exact Repository.loadCachedCatalog_sound cached _

theorem setSourceEnabled_sound {r : Repository ι} (h : r.Sound k) (index : Nat) (enabled : Bool)
    (cached : Source → List ι) : (r.setSourceEnabled k index enabled cached).Sound k := by
  rw [Repository.setSourceEnabled]
  split
  · exact h
  · exact Repository.loadCachedCatalog_sound cached _

theorem finish_inv (hinstall : ∀ p r, Keeps k r (k.install p r)) (h : s.Inv k) {task : Nat}
    {fetched : Source → List ι} {downloaded : Bool}
    (hguard : Undisturbed k spared s (.finish task fetched downloaded)) {t : RepositoryTask ι}
    (ht : s.tasks[task]? = some t) (tasks : List (RepositoryTask ι)) :
    RepositoryState.Inv k ⟨t.finish k fetched downloaded s.repo, tasks, s.wanted⟩ := by
  rw [Undisturbed, ht] at hguard
  cases t with
  | refreshAll copy =>
    have hlists : Repository.Lists (copy.map (Repository.refreshed k)) s.wanted := by
      have hview : (copy.map (Repository.refreshed k)).map Repository.view =
          s.repo.sources.map Repository.view := hguard
      refine ⟨hview.trans h.lists.eq, ?_⟩
      have hnodup := h.lists.nodup
      rwa [← h.lists.urls, ← hview.trans h.lists.eq, map_map] at hnodup
    exact ⟨hlists, Repository.finishRefreshAll_sound copy fetched s.repo⟩
  | refreshSource index copy =>
    refine h.keeps ⟨Repository.set_refreshed hguard.1, fun hr => ?_⟩
    exact Repository.finishRefreshSource_sound hr hguard.1 hguard.2
  | install p =>
    refine h.keeps ?_
    rw [RepositoryTask.finish]
    split_ifs
    · exact hinstall p s.repo
    · exact ⟨rfl, fun hr => hr⟩

theorem repositoryStep_inv [DecidableEq ι] (hinstall : ∀ p r, Keeps k r (k.install p r))
    (huninstall : ∀ p removed r, spared p removed r → Keeps k r (k.uninstall p removed r))
    (h : s.Inv k) {e : RepositoryStep ι} (hguard : Undisturbed k spared s e)
    (hstep : repositoryStep k s e = some s') : s'.Inv k := by
  cases e with
  | addSource url =>
    cases hstep
    exact ⟨Repository.addSource_lists h.lists url, addSource_sound h.sound url⟩
  | removeSource index cached =>
    cases hstep
    exact ⟨Repository.removeSource_lists h.lists index cached,
      removeSource_sound h.sound index cached⟩
  | setSourceEnabled index enabled cached =>
    cases hstep
    exact ⟨Repository.setSourceEnabled_lists h.lists index enabled cached,
      setSourceEnabled_sound h.sound index enabled cached⟩
  | refreshAll =>
    cases hstep
    exact ⟨h.lists, h.sound⟩
  | refreshSource index =>
    cases hstep
    exact ⟨h.lists, h.sound⟩
  | install p sourceId =>
    cases hstep
    exact ⟨h.lists, h.sound⟩
  | finish task fetched downloaded =>
    rw [repositoryStep] at hstep
    split at hstep
    · cases hstep
    · rename_i t ht
      cases hstep
      exact finish_inv hinstall h hguard ht _
  | uninstall p removed =>
    cases hstep
    exact h.keeps (huninstall p removed s.repo hguard)

theorem upToDate_of_run [DecidableEq ι] (hinstall : ∀ p r, Keeps k r (k.install p r))
    (huninstall : ∀ p removed r, spared p removed r → Keeps k r (k.uninstall p removed r))
    {sources : List Source} (hurls : (sources.map Source.url).Nodup) {installed : List String}
    {cached : Source → List ι} {es : List (RepositoryStep ι)}
    (hrun : Run (repositoryStep k) (Undisturbed k spared)
      (RepositoryState.load k sources installed cached) es s) : UpToDate k s := by
  have hinv : s.Inv k := hrun.invariant
    (fun _ _ _ h hguard hstep => repositoryStep_inv hinstall huninstall h hguard hstep)
    ⟨⟨rfl, hurls⟩, Repository.loadCachedCatalog_sound cached _⟩
  exact hinv.upToDate

end

/-! ### Plugins -/

section

variable {normalize makeSourceId : String → String}

theorem PluginManager.install_keeps (id : String) (r : Repository String) :
    Keeps (pluginManager normalize makeSourceId) r (PluginManager.install id r) := by
  have hmem {e : CatalogEntry String} (he : e ∈ (PluginManager.install id r).catalog) :=
    @Repository.mem_mergeInstalledFlags _ (fun p => p) (id :: r.installed) r.catalog e he
  refine ⟨rfl, fun hr => ⟨fun e he => ?_, fun e he hmarked => ?_⟩⟩
  · obtain ⟨e', he', hid, -, -⟩ := hmem he
    rw [← hid]
    exact hr.catalog e' he'
  · obtain ⟨e', he', -, hpackage, hiff⟩ := hmem he
    rcases hiff.mp hmarked with hmarked' | hmem
    · have hkey := hr.marks e' he' hmarked'
      rw [hpackage] at hkey
      exact mem_cons_of_mem _ hkey
    · exact hmem

theorem PluginManager.uninstall_keeps {id : String} {removed : Bool} {r : Repository String}
    (hspared : PluginManager.Spared id removed r) :
    Keeps (pluginManager normalize makeSourceId) r (PluginManager.uninstall id removed r) := by
  rw [PluginManager.uninstall]
  split_ifs with hinstalled hremoved
  · exact ⟨rfl, fun hr => hr⟩
  · exact ⟨rfl, fun hr => hr⟩
  · have hmem : id ∈ r.installed := by simpa using hinstalled
    have hno := hspared hmem (by simpa using hremoved)
    have hmerged {e : CatalogEntry String} :=
      @Repository.mem_mergeInstalledFlags _ (fun p => p) (r.installed.filter (· ≠ id)) r.catalog e
    refine ⟨rfl, fun hr => ⟨fun e he => ?_, fun e he hmarked => ?_⟩⟩
    · obtain ⟨e', he', hid, -, -⟩ := hmerged he
      rw [← hid]
      exact hr.catalog e' he'
    · obtain ⟨e', he', -, hpackage, hiff⟩ := hmerged he
      rcases hiff.mp hmarked with hmarked' | hmem'
      · have hkey := hr.marks e' he' hmarked'
        refine mem_filter.mpr ⟨?_, decide_eq_true fun heq => ?_⟩
        · rwa [hpackage] at hkey
        · cases hmarked'.symm.trans (hno e' he' (hpackage.trans heq))
      · exact hmem'

end

/-! ### Cheats -/

section

variable {trim makeSourceId : String → String}

theorem mem_markCheat {p : String × String} {installed : Bool}
    {catalog : List (CatalogEntry (String × String))} {e : CatalogEntry (String × String)}
    (h : e ∈ markCheat p installed catalog) :
    ∃ e' ∈ catalog, e'.sourceId = e.sourceId ∧ e'.package = e.package ∧
      e.installed = if e'.package = p then installed else e'.installed := by
  obtain ⟨e', he', rfl⟩ := mem_map.mp h
  refine ⟨e', he', ?_⟩
  split_ifs
  · exact ⟨rfl, rfl, rfl⟩
  · exact ⟨rfl, rfl, rfl⟩

theorem CheatRepository.install_keeps (p : String × String) (r : Repository (String × String)) :
    Keeps (cheatRepository trim makeSourceId) r (CheatRepository.install p r) := by
  refine ⟨rfl, fun hr => ⟨fun e he => ?_, fun e he hmarked => ?_⟩⟩
  · obtain ⟨e', he', hid, -, -⟩ := mem_markCheat he
    rw [← hid]
    exact hr.catalog e' he'
  · obtain ⟨e', he', -, hpackage, heq⟩ := mem_markCheat he
    rw [← hpackage]
    split_ifs at heq with hsame
    · rw [hsame]
      exact mem_cons_self
    · exact mem_cons_of_mem _ (hr.marks e' he' (heq.symm.trans hmarked))

theorem CheatRepository.uninstall_keeps {p : String × String} {removed : Bool}
    {r : Repository (String × String)} (hspared : CheatRepository.Spared p removed r) :
    Keeps (cheatRepository trim makeSourceId) r (CheatRepository.uninstall p removed r) := by
  rw [CheatRepository.uninstall]
  split_ifs with hinstalled
  · exact ⟨rfl, fun hr => hr⟩
  · have hno := hspared (by simpa using hinstalled)
    refine ⟨rfl, fun hr => ⟨fun e he => ?_, fun e he hmarked => ?_⟩⟩
    · obtain ⟨e', he', hid, -, -⟩ := mem_markCheat he
      rw [← hid]
      exact hr.catalog e' he'
    · obtain ⟨e', he', -, hpackage, heq⟩ := mem_markCheat he
      rw [← hpackage]
      split_ifs at heq with hsame
      · cases hmarked.symm.trans heq
      · have hmarked' := heq.symm.trans hmarked
        refine mem_filter.mpr ⟨hr.marks e' he' hmarked', decide_eq_true fun hkey => ?_⟩
        cases hmarked'.symm.trans (hno e' he' hsame hkey)

end

/-- In every run whose refreshes are undisturbed and whose uninstalls leave no mark, a repository
of plugins and one of cheats is up to date. -/
theorem repositories_upToDate (normalizeSourceUrl trimCopy makeSourceId : String → String)
    (sources : List Source) (installed : List String)
    (hurls : (sources.map Source.url).Nodup) :
    (∀ cached es s, Run (repositoryStep (pluginManager normalizeSourceUrl makeSourceId))
      (Undisturbed (pluginManager normalizeSourceUrl makeSourceId) PluginManager.Spared)
      (.load (pluginManager normalizeSourceUrl makeSourceId) sources installed cached) es s →
        UpToDate (pluginManager normalizeSourceUrl makeSourceId) s) ∧
    (∀ cached es s, Run (repositoryStep (cheatRepository trimCopy makeSourceId))
      (Undisturbed (cheatRepository trimCopy makeSourceId) CheatRepository.Spared)
      (.load (cheatRepository trimCopy makeSourceId) sources installed cached) es s →
        UpToDate (cheatRepository trimCopy makeSourceId) s) :=
  ⟨fun _ _ _ hrun => upToDate_of_run PluginManager.install_keeps
      (fun _ _ _ => PluginManager.uninstall_keeps) hurls hrun,
    fun _ _ _ hrun => upToDate_of_run CheatRepository.install_keeps
      (fun _ _ _ => CheatRepository.uninstall_keeps) hurls hrun⟩

def firstSource : Source := ⟨"a", "https://a/manifest.json", true⟩

/-- All sources are refreshed and one is added meanwhile. -/
def addedMeanwhile : List (RepositoryStep String) :=
  [.refreshAll, .addSource "https://b/manifest.json", .finish 0 (fun _ => ["p"]) true]

/-- A source is refreshed while another is added, one is disabled and a plugin is uninstalled; all
are refreshed while a plugin is installed; its source is removed and it is uninstalled. -/
def overlappingCalls : List (RepositoryStep String) :=
  [.addSource "https://b/manifest.json", .refreshSource 1, .addSource "https://c/manifest.json",
    .setSourceEnabled 0 false fun _ => [], .uninstall "q" true, .finish 0 (fun _ => ["p"]) true,
    .refreshAll, .install "p" "", .finish 1 (fun _ => []) true, .finish 0
      (fun _ => ["p", "r"]) true,
    .removeSource 1 fun _ => [], .uninstall "p" true]

/-- A cheat is installed during a refresh, and uninstalled and its source disabled during the
next. -/
def overlappingCheats : List (RepositoryStep (String × String)) :=
  [.refreshAll, .finish 0 (fun _ => [("g", "1"), ("h", "1")]) true, .refreshSource 0,
    .install ("g", "1") "a", .finish 1 (fun _ => []) true, .finish 0 (fun _ => [("g", "1")]) true,
    .addSource "https://b/index.json", .refreshSource 1, .uninstall ("g", "1") true,
    .setSourceEnabled 0 false fun _ => [], .finish 0 (fun _ => [("h", "1")]) true]

theorem repositories_upToDate_overlapping :
    (∃ s, (List.foldlM (repositoryStep (pluginManager (fun u => u) fun u => u))
      (.load (pluginManager (fun u => u) fun u => u) [firstSource] ["q"] fun _ =>
        ([] : List String))
        overlappingCalls) = some s ∧ s.repo.installed = [] ∧
      UpToDate (pluginManager (fun u => u) fun u => u) s) ∧
    (∃ s, (List.foldlM (repositoryStep (cheatRepository (fun u => u) fun u => u))
      (.load (cheatRepository (fun u => u) fun u => u) [firstSource] ["q"]
        fun _ => ([] : List (String × String))) overlappingCheats) = some s ∧
      UpToDate (cheatRepository (fun u => u) fun u => u) s) := by
  have hurls : ([firstSource].map Source.url).Nodup := nodup_singleton _
  have hboth :=
    repositories_upToDate (fun u => u) (fun u => u) (fun u => u) [firstSource] ["q"] hurls
  refine ⟨⟨_, rfl, rfl, hboth.1 (fun _ => []) overlappingCalls _ ?_⟩,
    ⟨_, rfl, hboth.2 (fun _ => []) overlappingCheats _ ?_⟩⟩
  · refine .cons trivial rfl (.cons trivial rfl (.cons trivial rfl (.cons trivial rfl
      (.cons ?_ rfl (.cons ?_ rfl (.cons trivial rfl (.cons trivial rfl (.cons trivial rfl
        (.cons rfl rfl (.cons trivial rfl (.cons ?_ rfl (.nil _))))))))))))
    · exact fun _ _ e he => absurd he not_mem_nil
    · exact ⟨fun _ h => (Option.some.inj h).symm, fun _ _ => ⟨_, .tail _ (.head _), rfl, rfl⟩⟩
    · exact fun _ _ e he => absurd he not_mem_nil
  · refine .cons trivial rfl (.cons rfl rfl (.cons trivial rfl (.cons trivial rfl (.cons trivial rfl
      (.cons ?_ rfl (.cons trivial rfl (.cons trivial rfl (.cons ?_ rfl (.cons trivial rfl
        (.cons ?_ rfl (.nil _)))))))))))
    · exact ⟨fun _ h => (Option.some.inj h).symm, fun _ _ => ⟨_, .head _, rfl, rfl⟩⟩
    · exact fun _ e he hne _ =>
        absurd (congrArg CatalogEntry.package (mem_singleton.mp he)) hne
    · exact ⟨fun _ h => (Option.some.inj h).symm, fun _ _ => ⟨_, .tail _ (.head _), rfl, rfl⟩⟩

theorem addedMeanwhile_lost : ¬∀ (normalizeSourceUrl makeSourceId : String → String)
    (sources : List Source) (installed : List String) (cached : Source → List String)
    (es : List (RepositoryStep String)) (s : RepositoryState String),
    (sources.map Source.url).Nodup →
      Run (repositoryStep (pluginManager normalizeSourceUrl makeSourceId)) (fun _ _ => True)
        (.load (pluginManager normalizeSourceUrl makeSourceId) sources installed cached) es s →
      s.tasks = [] → UpToDate (pluginManager normalizeSourceUrl makeSourceId) s := by
  intro h
  have hsources := (h (fun u => u) (fun u => u) [firstSource] [] (fun _ => []) addedMeanwhile _
    (by decide) (Run.of_foldlM rfl) rfl).sources
  revert hsources
  decide

end MemDbg.Frontend
