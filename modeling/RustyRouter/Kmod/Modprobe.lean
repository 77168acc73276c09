import RustyRouter.Kmod.LoadOrder

/-! The program as `modprobe`.

The kernel starts the program once more when it wants a module, and hands it flags and a
name or an alias. The process starts with no module loaded; what it loads is the module
that the name resolves to and what is on that module's line, each once and after its own
dependencies, or the one file of that name where there is no line (`modprobe_loads`). -/
namespace RustyRouter.Kmod
open Text Precedence Transition

/-! ### The arguments -/

/-- An argument that is passed over. -/
def Skipped (arg : List Char) : Prop := arg ≠ "--".toList ∧ (arg.head? = some '-' ∨ arg = "modprobe".toList)

/-- The first argument that is no flag names the module, or the one after `--`. -/
def Names (args : List (List Char)) (name : List Char) : Prop :=
  ∃ skipped rest, (∀ arg ∈ skipped, Skipped arg) ∧
    (args = skipped ++ name :: rest ∧ name.head? ≠ some '-' ∧ name ≠ "modprobe".toList ∨
      args = skipped ++ "--".toList :: name :: rest)

variable {args : List (List Char)} {arg name : List Char}

theorem names_nil : ¬ Names [] name := by
  rintro ⟨skipped, rest, -, ⟨h, -⟩ | h⟩ <;> simp at h

theorem names_dashes : Names ("--".toList :: args) name ↔ args.head? = some name := by
  constructor
  · rintro ⟨skipped, rest, hskipped, h⟩
    cases skipped with
    | nil =>
      rcases h with ⟨heq, hplain, -⟩ | heq
      · obtain ⟨rfl, -⟩ := List.cons.inj heq
        exact absurd rfl hplain
      · obtain ⟨-, rfl⟩ := List.cons.inj heq
        rfl
    | cons first skipped =>
      have hfirst : first = "--".toList := by
        rcases h with ⟨heq, -⟩ | heq <;> exact (List.cons.inj heq).1.symm
      exact absurd hfirst (hskipped first List.mem_cons_self).1
  · intro h
    obtain ⟨rest, rfl⟩ : ∃ rest, args = name :: rest := List.head?_eq_some_iff.mp h
    exact ⟨[], rest, by simp, .inr rfl⟩

theorem names_plain (hplain : arg.head? ≠ some '-' ∧ arg ≠ "modprobe".toList) :
    Names (arg :: args) name ↔ arg = name := by
  constructor
  · rintro ⟨skipped, rest, hskipped, h⟩
    cases skipped with
    | nil =>
      rcases h with ⟨heq, -⟩ | heq
      · exact (List.cons.inj heq).1
      · exact absurd (congrArg List.head? (List.cons.inj heq).1) hplain.1
    | cons first skipped =>
      have hfirst : arg = first := by
        rcases h with ⟨heq, -⟩ | heq <;> exact (List.cons.inj heq).1
      rcases (hskipped first List.mem_cons_self).2 with hflag | hown
      · exact absurd (hfirst ▸ hflag) hplain.1
      · exact absurd (hfirst.trans hown) hplain.2
  · rintro rfl
    exact ⟨[], args, by simp, .inl ⟨rfl, hplain⟩⟩

theorem names_skipped (hskipped : Skipped arg) : Names (arg :: args) name ↔ Names args name := by
  constructor
  · rintro ⟨skipped, rest, hall, h⟩
    cases skipped with
    | nil =>
      rcases h with ⟨heq, hflag, hown⟩ | heq
      · obtain ⟨rfl, -⟩ := List.cons.inj heq
        exact absurd hskipped.2 (not_or_intro hflag hown)
      · exact absurd (List.cons.inj heq).1 hskipped.1
    | cons first skipped =>
      refine ⟨skipped, rest, fun x hx => hall x (List.mem_cons_of_mem first hx), ?_⟩
      exact h.imp (fun ⟨heq, hplain⟩ => ⟨(List.cons.inj heq).2, hplain⟩) fun heq => (List.cons.inj heq).2
  · rintro ⟨skipped, rest, hall, h⟩
    refine ⟨arg :: skipped, rest, List.forall_mem_cons.mpr ⟨hskipped, hall⟩, ?_⟩
    exact h.imp (fun ⟨heq, hplain⟩ => ⟨congrArg (arg :: ·) heq, hplain⟩) fun heq => congrArg (arg :: ·) heq

/-- **What the arguments name.** -/
theorem parseArgsForModName_iff : parseArgsForModName args = some name ↔ Names args name := by
  induction args with
  | nil => exact iff_of_false (by simp [parseArgsForModName]) names_nil
  | cons arg args ih =>
    unfold parseArgsForModName
    split
    · rename_i hdashes
      rw [hdashes, names_dashes]
    · rename_i hdashes
      split
      · rename_i hplain
        rw [names_plain hplain, Option.some.injEq]
      · rename_i hskipped
        rw [ih, names_skipped ⟨hdashes, by tauto⟩]

/-! ### What is loaded -/

section Request
variable {host : Host} {content : List Char} (hrelease : host.release ≠ [])
  (hread : host.readFile host.depFilePath = some content)
include hrelease hread

/-- Without a line, the file of that name. -/
theorem unlisted_calls {modName : List Char} (hunlisted : ∀ line ∈ depLines content, line.stem ≠ modName) :
    (loadModuleWithDependencies host .initial modName).calls = (findModuleFile host modName).toList := by
  have hfind : ((depLines content).find? fun line => line.stem = modName) = none := by
    rw [List.find?_eq_none]
    exact fun line hline => by simpa using hunlisted line hline
  have hloads : loadModuleWithDependencies host .initial modName = loadSingleModule host .initial modName := by
    rw [loadModuleWithDependencies, if_neg (by simp [LoaderState.initial]), if_neg (by simpa using hrelease), hread]
    simp only [hfind]
  rw [hloads, loadSingleModule]
  cases findModuleFile host modName <;> rfl

/-- With one, what is on it and the module. -/
theorem listed_stems (hdepmod : DepmodOutput host.modulesDir (depLines content)) (hworking : host.Working)
    {line : DepLine} (hline : line ∈ depLines content) (modName : List Char) :
    modName ∈ (loadModuleWithDependencies host .initial line.stem).stems ↔
      modName = line.stem ∨ ∃ dep ∈ line.deps, stemOf (join host.modulesDir dep) = modName := by
  have hnew : line.stem ∉ LoaderState.initial.loaded := by simp [LoaderState.initial]
  have hstems := (request_stems hrelease hread hdepmod hworking (initial_kept host []).cached hline hnew).2.1
  rw [hstems, mem_add, mem_foldl_add]
  simp only [LoaderState.stems, LoaderState.initial, List.map_nil, List.not_mem_nil, false_or, List.mem_map, List.mem_reverse]
  exact or_comm

end Request

end RustyRouter.Kmod
