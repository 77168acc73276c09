import Mathlib.Data.Finset.Insert
import RustyRouter.Kmod.Alias
import RustyRouter.Transition

/-! The loader of kernel modules.

The state is the process-wide set of stems that were loaded, and, only recorded, every path
`load_module` was called with. `modules.dep` has one line for each module; the loader takes
the first one for the module it was asked for, loads what the line lists from right to
left, and then the module. It skips what is in the set, and what cannot be loaded is not
put into it. -/
namespace RustyRouter.Kmod
open Text Transition

structure LoaderState where
  /-- `LOADED_MODULES` -/
  loaded : Finset (List Char)
  calls : List Path
  deriving DecidableEq

def LoaderState.initial : LoaderState := ⟨∅, []⟩

/-- A line of `modules.dep`. -/
structure DepLine where
  path : Path
  stem : List Char
  deps : List Path
  deriving DecidableEq, Repr

/-- A line whose path has no file name is passed over. -/
def depLine (line : List Char) : Option DepLine :=
  let parts := line.splitOn ':'
  let modPath := trim (parts.headD [])
  let deps := match parts with
    | _ :: deps :: _ => (splitWhitespace deps).map trim
    | _ => []
  (fileName modPath).map fun name => ⟨modPath, stem name, deps⟩

def depLines (content : List Char) : List DepLine := (lines content).filterMap depLine

variable (host : Host) (s : LoaderState)

def Host.depFilePath : Path := join host.modulesDir "modules.dep".toList

/-- The call, and whether it succeeds. -/
def loadModule (path : Path) : LoaderState × Bool :=
  ({ s with calls := s.calls ++ [path] }, host.loads s.calls path)

/-- A file that is found by its name does not go into the set. -/
def loadSingleModule (modName : List Char) : LoaderState :=
  match findModuleFile host modName with
  | none => s
  | some path => (loadModule host s path).1

/-- Unless its stem is in the set. -/
def loadOnce (path : Path) (name : List Char) : LoaderState :=
  if name ∈ s.loaded then s
  else
    match loadModule host s path with
    | (s, true) => { s with loaded := insert name s.loaded }
    | (s, false) => s

/-- Right to left. -/
def loadDependencies (deps : List Path) : LoaderState :=
  deps.reverse.foldl (fun s dep => loadOnce host s (join host.modulesDir dep) (stemOf (join host.modulesDir dep))) s

def loadModuleWithDependencies (modName : List Char) : LoaderState :=
  if modName ∈ s.loaded then s
  else if host.release.isEmpty then loadSingleModule host s modName
  else
    match host.readFile host.depFilePath with
    | none => loadSingleModule host s modName
    | some content =>
      match (depLines content).find? fun line => line.stem = modName with
      | none => loadSingleModule host s modName
      | some line => loadOnce host (loadDependencies host s line.deps) (join host.modulesDir line.path) modName

/-- The modules that are loaded at the start. -/
def requiredModules : List (List Char) :=
  ["virtio_net", "virtio_pci", "virtio_mmio", "nft_masq", "nft_chain_nat", "nft_ct"].map String.toList

def loadRequiredModules : LoaderState := requiredModules.foldl (loadModuleWithDependencies host) s

def parseArgsForModName : List (List Char) → Option (List Char)
  | [] => none
  | arg :: args =>
    if arg = "--".toList then args.head?
    else if arg.head? ≠ some '-' ∧ arg ≠ "modprobe".toList then some arg
    else parseArgsForModName args

/-- The first argument is the name of the program. -/
def runAsModprobe (args : List (List Char)) : Option LoaderState :=
  (parseArgsForModName args.tail).map fun rawName => loadModuleWithDependencies host s (resolveAlias host rawName)

/-- One process, asked for one module after another. -/
def loader : System LoaderState (List Char) where
  step s modName := some (loadModuleWithDependencies host s modName)

end RustyRouter.Kmod
