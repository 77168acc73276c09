import RustyRouter.Text.Lines

/-! The files of the kernel modules.

Paths are texts, as `std::path` takes them apart: at slashes, with empty components and
those of a single dot left out. A module is known by its stem, the file name up to the
first dot, so that `ext4.ko` and `ext4.ko.xz` are the same module. `Host` is what the
loader finds on the system it runs on. -/
namespace RustyRouter.Kmod
open Text

abbrev Path := List Char

/-- The components of a path that are names, or `..`. -/
def components (path : Path) : List Path := (path.splitOn '/').filter fun name => name ≠ [] ∧ name ≠ ['.']

/-- `Path::file_name` -/
def fileName (path : Path) : Option (List Char) := (components path).getLast?.filter fun name => name ≠ ['.', '.']

/-- `Path::join`; an absolute path replaces the directory. -/
def join (dir path : Path) : Path :=
  if path.head? = some '/' then path
  else if dir = [] ∨ dir.getLast? = some '/' then dir ++ path
  else dir ++ '/' :: path

/-- `name.split('.').next()` -/
def stem (name : List Char) : List Char := name.takeWhile (· ≠ '.')

/-- The stem of the file name, empty for a path without one. -/
def stemOf (path : Path) : List Char := ((fileName path).map stem).getD []

/-- The last component is the same below a directory. -/
theorem fileName_join {dir path : Path} {name : List Char} (h : fileName path = some name) :
    fileName (join dir path) = some name := by
  have hcomponents : ∀ pre, components (pre ++ '/' :: path) = components pre ++ components path := by
    intro pre
    rw [components, List.splitOn_append_cons_self, List.filter_append]
    rfl
  have hne : components path ≠ [] := by
    intro hnil
    rw [fileName, hnil] at h
    contradiction
  have hlast : ∀ pre, fileName (pre ++ '/' :: path) = some name := by
    intro pre
    rw [fileName, hcomponents, List.getLast?_append_of_ne_nil _ hne]
    exact h
  unfold join
  split
  · exact h
  · split
    · rename_i hdir
      rcases hdir with hnil | hslash
      · rw [hnil]
        exact h
      · obtain ⟨pre, rfl⟩ := List.getLast?_eq_some_iff.mp hslash
        rw [List.append_assoc]
        exact hlast pre
    · exact hlast dir

theorem stemOf_join {dir path : Path} {name : List Char} (h : fileName path = some name) :
    stemOf (join dir path) = stem name := by
  rw [stemOf, fileName_join h]
  rfl

example : fileName "kernel/fs/./ext4.ko.xz/".toList = some "ext4.ko.xz".toList := by decide +kernel

/-! ### The modules directory -/

/-- An entry of a directory; one that cannot be read has no entries. -/
inductive DirEntry where
  | file (name : List Char)
  | dir (name : List Char) (entries : List DirEntry)

mutual

/-- The first file with the stem of `baseName`, in the order the entries are read. -/
def findModuleRecursive (dir : Path) (baseName : List Char) : List DirEntry → Option Path
  | [] => none
  | entry :: entries =>
    match findInEntry dir baseName entry with
    | some found => some found
    | none => findModuleRecursive dir baseName entries

def findInEntry (dir : Path) (baseName : List Char) : DirEntry → Option Path
  | .file name => if stem name = stem baseName then some (join dir name) else none
  | .dir name entries => findModuleRecursive (join dir name) baseName entries

end

/-- The system the loader runs on. -/
structure Host where
  /-- Empty where `uname` has no answer. -/
  release : List Char
  readFile : Path → Option (List Char)
  /-- What is below the modules directory. -/
  modules : List DirEntry
  /-- Whether `load_module` succeeds on a path, after the calls before it. -/
  loads : List Path → Path → Bool

variable (host : Host)

/-- `/lib/modules/` and the release. -/
def Host.modulesDir : Path := join "/lib/modules".toList host.release

def findModuleFile (name : List Char) : Option Path :=
  if host.release.isEmpty then none
  else findModuleRecursive host.modulesDir (name ++ ".ko".toList) host.modules

end RustyRouter.Kmod
