import RustyRouter.Kmod.Loader
import RustyRouter.Precedence

/-! Modules are loaded after what they depend on.

The loader follows one line of `modules.dep` only, that of the module it is asked for, and
skips what earlier requests have loaded. That this keeps the order is due to what `depmod`
writes, `DepmodOutput`: a line lists all that its module depends on, also indirectly, the
deeper the further to the right. So each request adds a list that is supplied, in the sense
of `Precedence`, and the stems of the calls remain sound. -/
namespace RustyRouter.Kmod
open Text Precedence Transition

/-- The module `m` has a line, and `d` is on it. -/
def Needs (dir : Path) (ls : List DepLine) (m d : List Char) : Prop :=
  ∃ line ∈ ls, line.stem = m ∧ ∃ dep ∈ line.deps, stemOf (join dir dep) = d

/-- The lines as `depmod` writes them. -/
structure DepmodOutput (dir : Path) (ls : List DepLine) : Prop where
  unique : (ls.map DepLine.stem).Nodup
  /-- What a dependency depends on is listed to the right of it. -/
  transitive : ∀ line ∈ ls, ∀ dep after, dep :: after <:+ line.deps →
    ∀ own ∈ ls, own.stem = stemOf (join dir dep) → ∀ d ∈ own.deps,
      stemOf (join dir d) ∈ after.map fun dep => stemOf (join dir dep)

variable {dir : Path} {ls : List DepLine} {line : DepLine}

theorem DepmodOutput.needs_iff (h : DepmodOutput dir ls) (hline : line ∈ ls) {d : List Char} :
    Needs dir ls line.stem d ↔ ∃ dep ∈ line.deps, stemOf (join dir dep) = d := by
  constructor
  · intro ⟨line', hline', hstem, hdep⟩
    obtain rfl : line' = line := List.inj_on_of_nodup_map h.unique hline' hline hstem
    exact hdep
  · intro hdep
    exact ⟨line, hline, rfl, hdep⟩

/-- From right to left, a line lists everything after what it needs. -/
theorem DepmodOutput.supplied (h : DepmodOutput dir ls) (hline : line ∈ ls) (known : List Char → Prop) :
    Supplied (Needs dir ls) known (line.deps.reverse.map fun dep => stemOf (join dir dep)) := by
  intro before k after heq d hd
  obtain ⟨right, rest, hrev, rfl, hrest⟩ := List.map_eq_append_iff.mp heq
  obtain ⟨dep, left, rfl, rfl, -⟩ := List.map_eq_cons_iff.mp hrest
  have hsuffix : dep :: right.reverse <:+ line.deps := by
    refine ⟨left.reverse, ?_⟩
    have hdeps := congrArg List.reverse hrev
    rw [List.reverse_reverse] at hdeps
    rw [hdeps]
    simp
  obtain ⟨own, hown, hstem, d', hd', rfl⟩ := hd
  have hright := h.transitive line hline dep right.reverse hsuffix own hown hstem d' hd'
  rw [List.map_reverse, List.mem_reverse] at hright
  exact .inr hright

/-- The file of a line below the modules directory. -/
theorem depLine_stemOf {content : List Char} (hline : line ∈ depLines content) (dir : Path) :
    stemOf (join dir line.path) = line.stem := by
  obtain ⟨text, -, hparse⟩ := List.mem_filterMap.mp hline
  obtain ⟨name, hname, rfl⟩ := Option.map_eq_some_iff.mp hparse
  exact stemOf_join hname

/-! ### One request -/

/-- The modules of the calls. -/
def LoaderState.stems (s : LoaderState) : List (List Char) := s.calls.map stemOf

/-- The file of a line, or one that it lists. -/
def OnLine (dir : Path) (ls : List DepLine) (path : Path) : Prop :=
  ∃ line ∈ ls, path = join dir line.path ∨ ∃ dep ∈ line.deps, path = join dir dep

theorem mem_calls_loadOnce {host : Host} {s : LoaderState} {path path' : Path} {name : List Char}
    (h : path' ∈ (loadOnce host s path name).calls) : path' ∈ s.calls ∨ path' = path := by
  unfold loadOnce loadModule at h
  split at h
  · exact .inl h
  · cases hloads : host.loads s.calls path with
    | true => simpa [hloads] using h
    | false => simpa [hloads] using h

theorem mem_calls_loadDependencies {host : Host} {s : LoaderState} {deps : List Path} {path : Path}
    (h : path ∈ (loadDependencies host s deps).calls) :
    path ∈ s.calls ∨ ∃ dep ∈ deps, path = join host.modulesDir dep := by
  have hrest : ∀ rest : List Path, (∀ dep ∈ rest, dep ∈ deps) → ∀ s : LoaderState,
      path ∈ (rest.foldl (fun s dep =>
        loadOnce host s (join host.modulesDir dep) (stemOf (join host.modulesDir dep))) s).calls →
      path ∈ s.calls ∨ ∃ dep ∈ deps, path = join host.modulesDir dep := by
    intro rest
    induction rest with
    | nil => exact fun _ s h => .inl h
    | cons dep rest ih =>
      intro hsub s h
      rcases ih (fun d hd => hsub d (List.mem_cons_of_mem dep hd)) _ h with hcalls | hdep
      · exact (mem_calls_loadOnce hcalls).imp id fun heq => ⟨dep, hsub dep List.mem_cons_self, heq⟩
      · exact .inr hdep
  exact hrest deps.reverse (fun dep hdep => List.mem_reverse.mp hdep) s h

/-- The set has the stems of the calls. -/
def Cached (s : LoaderState) : Prop := ∀ name, name ∈ s.loaded ↔ name ∈ s.stems

/-- Every call succeeds. -/
def Host.Working (host : Host) : Prop := ∀ calls path, host.loads calls path = true

section Working
variable {host : Host} {s : LoaderState} (hworking : host.Working)
include hworking

theorem loadOnce_cached (path : Path) (hs : Cached s) :
    Cached (loadOnce host s path (stemOf path)) ∧
      (loadOnce host s path (stemOf path)).stems = add s.stems (stemOf path) := by
  unfold loadOnce add
  by_cases hmem : stemOf path ∈ s.loaded
  · rw [if_pos hmem, if_pos ((hs _).mp hmem)]
    exact ⟨hs, rfl⟩
  · rw [if_neg hmem, if_neg fun h => hmem ((hs _).mpr h)]
    simp only [loadModule, hworking s.calls path]
    refine ⟨fun name => ?_, by simp [LoaderState.stems]⟩
    simp only [LoaderState.stems, Finset.mem_insert, hs name, List.map_append, List.map_singleton,
      List.mem_append, List.mem_singleton]
    exact or_comm

theorem loadDependencies_cached (deps : List Path) (hs : Cached s) :
    Cached (loadDependencies host s deps) ∧ (loadDependencies host s deps).stems =
      (deps.reverse.map fun dep => stemOf (join host.modulesDir dep)).foldl add s.stems := by
  unfold loadDependencies
  generalize deps.reverse = rest
  induction rest generalizing s with
  | nil => exact ⟨hs, rfl⟩
  | cons dep rest ih =>
    obtain ⟨hnext, hstems⟩ := loadOnce_cached hworking (join host.modulesDir dep) hs
    rw [List.foldl_cons, List.map_cons, List.foldl_cons, ← hstems]
    exact ih hnext

end Working

/-- What the requests keep. -/
structure Kept (host : Host) (ls : List DepLine) (s : LoaderState) : Prop where
  cached : Cached s
  sound : Sound (Needs host.modulesDir ls) s.stems
  onLine : ∀ path ∈ s.calls, OnLine host.modulesDir ls path

theorem initial_kept (host : Host) (ls : List DepLine) : Kept host ls .initial :=
  ⟨fun name => by simp [LoaderState.initial, LoaderState.stems], sound_nil, by simp [LoaderState.initial]⟩

/-- What is on the line of a module is loaded before it. -/
theorem Kept.ordered {host : Host} {s : LoaderState} (h : Kept host ls s) {before : List Path} {path : Path}
    (hb : before ++ [path] <+: s.calls) (hline : line ∈ ls) (hstem : line.stem = stemOf path) {dep : Path}
    (hdep : dep ∈ line.deps) : stemOf (join host.modulesDir dep) ∈ before.map stemOf := by
  have hstems : before.map stemOf ++ [stemOf path] <+: s.stems := by
    rw [LoaderState.stems, ← List.map_singleton, ← List.map_append]
    exact hb.map stemOf
  exact h.sound.ordered _ _ hstems _ ⟨line, hline, hstem, dep, hdep, rfl⟩

section Request
variable {host : Host} {content : List Char} (hrelease : host.release ≠ [])
  (hread : host.readFile host.depFilePath = some content)
  (hdepmod : DepmodOutput host.modulesDir (depLines content)) (hworking : host.Working)
include hrelease hread hdepmod hworking

/-- What a request loads is on the line of its module, right to left and the module last,
but for what is loaded already. -/
theorem request_stems {s : LoaderState} (hs : Cached s) (hline : line ∈ depLines content)
    (hnew : line.stem ∉ s.loaded) :
    Cached (loadModuleWithDependencies host s line.stem) ∧ (loadModuleWithDependencies host s line.stem).stems =
      add ((line.deps.reverse.map fun dep => stemOf (join host.modulesDir dep)).foldl add s.stems) line.stem ∧
    ∀ path ∈ (loadModuleWithDependencies host s line.stem).calls,
      path ∈ s.calls ∨ path = join host.modulesDir line.path ∨ ∃ dep ∈ line.deps, path = join host.modulesDir dep := by
  have hfind : (depLines content).find? (fun own => own.stem = line.stem) = some line := by
    have hsome : ((depLines content).find? fun own => own.stem = line.stem).isSome = true :=
      List.find?_isSome.mpr ⟨line, hline, decide_eq_true rfl⟩
    obtain ⟨own, hfind⟩ := Option.isSome_iff_exists.mp hsome
    have hstem : own.stem = line.stem := by simpa using List.find?_some hfind
    rw [hfind, List.inj_on_of_nodup_map hdepmod.unique (List.mem_of_find?_eq_some hfind) hline hstem]
  have hloads : loadModuleWithDependencies host s line.stem =
      loadOnce host (loadDependencies host s line.deps) (join host.modulesDir line.path) line.stem := by
    rw [loadModuleWithDependencies, if_neg hnew, if_neg (by simpa using hrelease), hread]
    simp only [hfind]
  obtain ⟨hcached, hstems⟩ := loadDependencies_cached hworking line.deps hs
  obtain ⟨hcached', hstems'⟩ := loadOnce_cached hworking (join host.modulesDir line.path) hcached
  rw [depLine_stemOf hline host.modulesDir] at hcached' hstems'
  rw [hloads]
  refine ⟨hcached', by rw [hstems', hstems], fun path hpath => ?_⟩
  rcases mem_calls_loadOnce hpath with hcalls | rfl
  · exact (mem_calls_loadDependencies hcalls).imp_right .inr
  · exact .inr (.inl rfl)

/-- A request keeps the order, and its module is loaded after it. -/
theorem request_kept {s : LoaderState} {modName : List Char} (hs : Kept host (depLines content) s)
    (hnamed : ∃ line ∈ depLines content, line.stem = modName) :
    Kept host (depLines content) (loadModuleWithDependencies host s modName) ∧
      (∀ name ∈ s.stems, name ∈ (loadModuleWithDependencies host s modName).stems) ∧
      modName ∈ (loadModuleWithDependencies host s modName).stems := by
  obtain ⟨line, hline, rfl⟩ := hnamed
  by_cases hmem : line.stem ∈ s.loaded
  · rw [loadModuleWithDependencies, if_pos hmem]
    exact ⟨hs, fun name h => h, (hs.cached line.stem).mp hmem⟩
  · obtain ⟨hcached, hstems, hcalls⟩ := request_stems hrelease hread hdepmod hworking hs.cached hline hmem
    refine ⟨⟨hcached, ?_, fun path hpath => ?_⟩, fun name hname => ?_, ?_⟩
    · rw [hstems]
      refine (hs.sound.foldl_add (hdepmod.supplied hline _)).add fun d hd => ?_
      obtain ⟨dep, hdep, rfl⟩ := (hdepmod.needs_iff hline).mp hd
      rw [mem_foldl_add]
      exact .inr (List.mem_map_of_mem (List.mem_reverse.mpr hdep))
    · rcases hcalls path hpath with hearlier | hpath
      · exact hs.onLine path hearlier
      · exact ⟨line, hline, hpath⟩
    · rw [hstems, mem_add, mem_foldl_add]
      exact .inl (.inl hname)
    · rw [hstems, mem_add]
      exact .inr rfl

/-- All requests of a process. -/
theorem requests_kept {names : List (List Char)} {s : LoaderState}
    (hrun : (loader host).run .initial names = some s)
    (hnamed : ∀ name ∈ names, ∃ line ∈ depLines content, line.stem = name) :
    Kept host (depLines content) s ∧ ∀ name ∈ names, name ∈ s.stems := by
  revert hnamed
  refine (loader host).run_history (I := fun names s =>
    (∀ name ∈ names, ∃ line ∈ depLines content, line.stem = name) →
      Kept host (depLines content) s ∧ ∀ name ∈ names, name ∈ s.stems)
    (fun _ => ⟨initial_kept host _, by simp⟩) (fun before t modName u _ ih hstep hnamed => ?_) hrun
  obtain rfl : loadModuleWithDependencies host t modName = u := Option.some.inj hstep
  obtain ⟨hkept, hloaded⟩ := ih fun name hname => hnamed name (List.mem_append_left _ hname)
  obtain ⟨hnext, hstays, hmod⟩ := request_kept hrelease hread hdepmod hworking hkept
    (hnamed modName (by simp))
  refine ⟨hnext, fun name hname => ?_⟩
  rcases List.mem_append.mp hname with hname | hname
  · exact hstays name (hloaded name hname)
  · rwa [List.mem_singleton.mp hname]

end Request

/-- **Modules load after their dependencies.** Whatever modules a process asks for, one after
another, each call of `load_module` for a module comes after calls for everything on the
module's own line, every module asked for is loaded, and no module is loaded twice. Where
the lines list the dependencies under the paths of their own lines, these are the paths
that are loaded. -/
theorem modules_load_in_order (host : Host) {content : List Char} (hrelease : host.release ≠ [])
    (hread : host.readFile host.depFilePath = some content)
    (hdepmod : DepmodOutput host.modulesDir (depLines content)) (hworking : host.Working)
    {names : List (List Char)} (hnamed : ∀ name ∈ names, ∃ line ∈ depLines content, line.stem = name)
    {s : LoaderState} (hrun : (loader host).run .initial names = some s) :
    (∀ before path, before ++ [path] <+: s.calls → ∀ line ∈ depLines content, line.stem = stemOf path →
      ∀ dep ∈ line.deps, stemOf (join host.modulesDir dep) ∈ before.map stemOf) ∧
    (∀ name ∈ names, name ∈ s.calls.map stemOf) ∧ (s.calls.map stemOf).Nodup ∧
    ((∀ line ∈ depLines content, ∀ dep ∈ line.deps, ∃ own ∈ depLines content, own.path = dep) →
      ∀ path ∈ s.calls, ∃ own ∈ depLines content, path = join host.modulesDir own.path) := by
  obtain ⟨hkept, hloaded⟩ := requests_kept hrelease hread hdepmod hworking hrun hnamed
  refine ⟨fun before path hb line hline hstem dep hdep => hkept.ordered hb hline hstem hdep, hloaded,
    hkept.sound.nodup, fun hlisted path hpath => ?_⟩
  obtain ⟨line, hline, hpath⟩ := hkept.onLine path hpath
  rcases hpath with hpath | ⟨dep, hdep, hpath⟩
  · exact ⟨line, hline, hpath⟩
  · obtain ⟨own, hown, rfl⟩ := hlisted line hline dep hdep
    exact ⟨own, hown, hpath⟩

namespace Small

/-- Three modules in a row. -/
def content : List Char :=
  "kernel/a.ko: kernel/b.ko kernel/lib/c.ko.xz\nkernel/b.ko: kernel/lib/c.ko.xz\nkernel/lib/c.ko.xz:\n".toList

def host : Host where
  release := "6.1".toList
  readFile path := if path = "/lib/modules/6.1/modules.dep".toList then some content else none
  modules := []
  loads _ _ := true

/-- What the loader reads out of it. -/
theorem depLines_content : depLines content =
    [⟨"kernel/a.ko".toList, "a".toList, ["kernel/b.ko".toList, "kernel/lib/c.ko.xz".toList]⟩,
      ⟨"kernel/b.ko".toList, "b".toList, ["kernel/lib/c.ko.xz".toList]⟩,
      ⟨"kernel/lib/c.ko.xz".toList, "c".toList, []⟩] := by
  decide +kernel

theorem readFile_depFilePath : host.readFile host.depFilePath = some content := by
  have hpath : host.depFilePath = "/lib/modules/6.1/modules.dep".toList := by decide +kernel
  rw [hpath]
  simp only [host, if_true]

theorem depmodOutput : DepmodOutput host.modulesDir (depLines content) where
  unique := by
    rw [depLines_content]
    decide
  transitive := by
    intro line hline dep after hsuffix own hown hstem d hd
    have hcheck : ∀ line ∈ depLines content, ∀ suffix ∈ line.deps.tails, ∀ dep ∈ suffix.head?,
        ∀ own ∈ depLines content, own.stem = stemOf (join host.modulesDir dep) → ∀ d ∈ own.deps,
          stemOf (join host.modulesDir d) ∈ suffix.tail.map fun dep => stemOf (join host.modulesDir dep) := by
      rw [depLines_content]
      decide +kernel
    exact hcheck line hline (dep :: after) ((List.mem_tails _ _).mpr hsuffix) dep rfl own hown hstem d hd

end Small

/-- The last of them is asked for first, then the first. -/
theorem modules_load_in_order_small : ∃ s,
    (loader Small.host).run .initial ["c".toList, "a".toList] = some s ∧
    s.calls = ["kernel/lib/c.ko.xz".toList, "kernel/b.ko".toList, "kernel/a.ko".toList].map
      (join Small.host.modulesDir) ∧ (s.calls.map stemOf).Nodup := by
  have hcalls : ((loader Small.host).run .initial ["c".toList, "a".toList]).map LoaderState.calls =
      some (["kernel/lib/c.ko.xz".toList, "kernel/b.ko".toList, "kernel/a.ko".toList].map
        (join Small.host.modulesDir)) := by
    decide +kernel
  obtain ⟨s, hrun, hs⟩ := Option.map_eq_some_iff.mp hcalls
  have hnamed : ∀ name ∈ ["c".toList, "a".toList], ∃ line ∈ depLines Small.content, line.stem = name := by
    rw [Small.depLines_content]
    decide
  have hresult := modules_load_in_order Small.host (by decide) Small.readFile_depFilePath Small.depmodOutput
    (fun _ _ => rfl) hnamed hrun
  exact ⟨s, hrun, hs, hresult.2.2.1⟩

end RustyRouter.Kmod
