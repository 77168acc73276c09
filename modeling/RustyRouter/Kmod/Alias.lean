import RustyRouter.Kmod.Files
import RustyRouter.Text.Division

/-! How an alias is resolved.

The kernel asks for a module by an alias, and `modules.alias` says by glob patterns which
module that is: the first line whose pattern matches. The matcher descends along the
pattern and tries every place the rest of the input may begin at after a star. It is
exact (`wildcard_match_exact`): it finds a division of the input among the characters of
the pattern whenever there is one. -/
namespace RustyRouter.Kmod
open Text

def wildcardMatch : List Char → List Char → Bool
  | [], input => input.isEmpty
  | p :: pattern, input =>
    if p = '*' then
      if pattern.isEmpty then true
      else (List.range (input.length + 1)).any fun i => wildcardMatch pattern (input.drop i)
    else
      match input with
      | [] => false
      | c :: input => if p = '?' ∨ p = c then wildcardMatch pattern input else false

/-- The pieces of the input a character of the pattern stands for. -/
def StandsFor (p : Char) (piece : List Char) : Prop :=
  if p = '*' then True else if p = '?' then piece.length = 1 else piece = [p]

theorem standsFor_star (piece : List Char) : StandsFor '*' piece := by
  rw [StandsFor, if_pos rfl]
  trivial

/-- All other characters stand for one character. -/
theorem standsFor_one {p : Char} (h : p ≠ '*') (piece : List Char) :
    StandsFor p piece ↔ ∃ c, piece = [c] ∧ (p = '?' ∨ p = c) := by
  rw [StandsFor, if_neg h]
  by_cases hany : p = '?'
  · rw [if_pos hany, List.length_eq_one_iff]
    exact exists_congr fun c => (and_iff_left (.inl hany)).symm
  · rw [if_neg hany]
    constructor
    · intro hpiece
      exact ⟨p, hpiece, .inr rfl⟩
    · intro ⟨c, hpiece, hc⟩
      rw [hpiece, hc.resolve_left hany]

theorem wildcardMatch_iff (pattern input : List Char) :
    wildcardMatch pattern input = true ↔ Divides StandsFor pattern input := by
  induction pattern generalizing input with
  | nil =>
    rw [divides_nil, wildcardMatch, List.isEmpty_iff]
  | cons p pattern ih =>
    by_cases hstar : p = '*'
    · subst hstar
      rw [wildcardMatch.eq_def]
      simp only [if_pos]
      cases pattern with
      | nil => exact iff_of_true rfl (divides_singleton_of_any standsFor_star)
      | cons q pattern =>
        rw [if_neg (by simp), divides_cons_of_any standsFor_star, List.any_eq_true]
        refine exists_congr fun i => ?_
        rw [List.mem_range, Nat.lt_succ_iff, ih]
    · rw [divides_cons_of_one (standsFor_one hstar)]
      cases input with
      | nil =>
        rw [wildcardMatch, if_neg hstar]
        simp
      | cons c input =>
        rw [wildcardMatch, if_neg hstar]
        have hcase : (if p = '?' ∨ p = c then wildcardMatch pattern input else false) = true ↔
            (p = '?' ∨ p = c) ∧ Divides StandsFor pattern input := by
          rw [← ih input]
          by_cases hc : p = '?' ∨ p = c
          · rw [if_pos hc]
            exact (and_iff_right hc).symm
          · rw [if_neg hc]
            exact iff_of_false Bool.false_ne_true fun h => hc h.1
        refine hcase.trans ⟨fun h => ⟨c, input, rfl, h.1, h.2⟩, ?_⟩
        intro ⟨c', input', heq, hc, hrest⟩
        obtain ⟨rfl, rfl⟩ := List.cons.inj heq
        exact ⟨hc, hrest⟩

/-- **The matcher is exact.** It accepts an input precisely when the input is a concatenation
of pieces that the characters of the pattern stand for, in order. -/
theorem wildcard_match_exact (pattern input : List Char) :
    wildcardMatch pattern input = true ↔
      ∃ pieces : List (List Char), pieces.flatten = input ∧ List.Forall₂ StandsFor pattern pieces :=
  wildcardMatch_iff pattern input

example : wildcardMatch "virtio:d*v*".toList "virtio:d00000001v00001AF4".toList = true := by decide +kernel

/-! ### The alias file -/

/-- The pattern and the module of an `alias` line. -/
def aliasOf (line : List Char) : Option (List Char × List Char) :=
  match splitWhitespace line with
  | keyword :: pattern :: moduleName :: _ =>
    if keyword = "alias".toList then some (pattern, moduleName) else none
  | _ => none

/-- The module a line resolves the input to. -/
def resolveLine (input line : List Char) : Option (List Char) :=
  match aliasOf line with
  | some (pattern, moduleName) => if wildcardMatch pattern input then some moduleName else none
  | none => none

def Host.aliasFilePath (host : Host) : Path := join host.modulesDir "modules.alias".toList

/-- Without a file that can be read, the input is the name of the module. -/
def resolveAlias (host : Host) (aliasOrName : List Char) : List Char :=
  if host.release.isEmpty then aliasOrName
  else
    match host.readFile host.aliasFilePath with
    | none => aliasOrName
    | some content => ((lines content).findSome? (resolveLine aliasOrName)).getD aliasOrName

theorem resolveLine_eq_some {input line moduleName : List Char} :
    resolveLine input line = some moduleName ↔
      ∃ pattern, aliasOf line = some (pattern, moduleName) ∧ Divides StandsFor pattern input := by
  unfold resolveLine
  cases aliasOf line with
  | none => simp
  | some entry =>
    obtain ⟨pattern, moduleName'⟩ := entry
    simp only [Option.ite_none_right_eq_some, wildcardMatch_iff, Option.some.injEq, Prod.mk.injEq]
    constructor
    · intro h
      exact ⟨pattern, ⟨rfl, h.2⟩, h.1⟩
    · intro ⟨pattern', hentry, hdivides⟩
      rw [hentry.1]
      exact ⟨hdivides, hentry.2⟩

/-- No pattern of these lines matches the input. -/
def Unmatched (input : List Char) (ls : List (List Char)) : Prop :=
  ∀ line ∈ ls, ∀ pattern moduleName, aliasOf line = some (pattern, moduleName) →
    ¬ Divides StandsFor pattern input

theorem Unmatched.findSome {input : List Char} {ls : List (List Char)} (h : Unmatched input ls) :
    ls.findSome? (resolveLine input) = none := by
  apply List.findSome?_eq_none_iff.mpr
  intro line hline
  cases hresolve : resolveLine input line with
  | none => rfl
  | some moduleName =>
    obtain ⟨pattern, hentry, hdivides⟩ := resolveLine_eq_some.mp hresolve
    exact absurd hdivides (h line hline pattern moduleName hentry)

theorem unmatched_of_findSome {input : List Char} {ls : List (List Char)}
    (h : ls.findSome? (resolveLine input) = none) : Unmatched input ls := by
  intro line hline pattern moduleName hentry hdivides
  have hresolve := resolveLine_eq_some.mpr ⟨pattern, hentry, hdivides⟩
  exact absurd (hresolve.symm.trans (List.findSome?_eq_none_iff.mp h line hline)) (by simp)

/-- What the input stands for: the module of the first line that matches, and else itself,
also where there is no file to read. -/
def Host.Resolves (host : Host) (input moduleName : List Char) : Prop :=
  (∃ content before line after pattern, host.release ≠ [] ∧ host.readFile host.aliasFilePath = some content ∧
    lines content = before ++ line :: after ∧ Unmatched input before ∧
    aliasOf line = some (pattern, moduleName) ∧ Divides StandsFor pattern input) ∨
  moduleName = input ∧ ∀ content, host.release ≠ [] → host.readFile host.aliasFilePath = some content →
    Unmatched input (lines content)

variable {host : Host} {content input moduleName : List Char}

theorem resolveAlias_read (hrelease : host.release ≠ []) (hread : host.readFile host.aliasFilePath = some content) :
    resolveAlias host input = ((lines content).findSome? (resolveLine input)).getD input := by
  rw [resolveAlias, if_neg (by simpa using hrelease), hread]

theorem resolveAlias_unread (hunread : ∀ content, host.release ≠ [] → host.readFile host.aliasFilePath ≠ some content) :
    resolveAlias host input = input := by
  unfold resolveAlias
  split
  · rfl
  · rename_i hrelease
    cases hread : host.readFile host.aliasFilePath with
    | none => rfl
    | some content => exact absurd hread (hunread content (by simpa using hrelease))

theorem resolveAlias_resolves (host : Host) (input : List Char) : host.Resolves input (resolveAlias host input) := by
  by_cases hfile : ∃ content, host.release ≠ [] ∧ host.readFile host.aliasFilePath = some content
  · obtain ⟨content, hrelease, hread⟩ := hfile
    rw [resolveAlias_read hrelease hread]
    cases hfound : (lines content).findSome? (resolveLine input) with
    | none =>
      refine .inr ⟨rfl, fun content' _ hread' => ?_⟩
      obtain rfl := Option.some.inj (hread.symm.trans hread')
      exact unmatched_of_findSome hfound
    | some moduleName =>
      obtain ⟨before, line, after, hlines, hline, hbefore⟩ := List.findSome?_eq_some_iff.mp hfound
      obtain ⟨pattern, hentry, hdivides⟩ := resolveLine_eq_some.mp hline
      exact .inl ⟨content, before, line, after, pattern, hrelease, hread, hlines,
        unmatched_of_findSome (List.findSome?_eq_none_iff.mpr hbefore), hentry, hdivides⟩
  · have hunread : ∀ content, host.release ≠ [] → host.readFile host.aliasFilePath ≠ some content :=
      fun content hrelease hread => hfile ⟨content, hrelease, hread⟩
    rw [resolveAlias_unread hunread]
    exact .inr ⟨rfl, fun content hrelease hread => absurd hread (hunread content hrelease)⟩

/-- **What an alias stands for.** -/
theorem resolveAlias_iff : resolveAlias host input = moduleName ↔ host.Resolves input moduleName := by
  constructor
  · rintro rfl
    exact resolveAlias_resolves host input
  · rintro (⟨content, before, line, after, pattern, hrelease, hread, hlines, hbefore, hentry, hdivides⟩ | ⟨rfl, hnone⟩)
    · have hline : resolveLine input line = some moduleName :=
        resolveLine_eq_some.mpr ⟨pattern, hentry, hdivides⟩
      rw [resolveAlias_read hrelease hread, hlines, List.findSome?_append, hbefore.findSome, Option.none_or,
        List.findSome?_cons, hline]
      rfl
    · by_cases hfile : ∃ content, host.release ≠ [] ∧ host.readFile host.aliasFilePath = some content
      · obtain ⟨content, hrelease, hread⟩ := hfile
        rw [resolveAlias_read hrelease hread, (hnone content hrelease hread).findSome, Option.getD_none]
      · exact resolveAlias_unread fun content hrelease hread => hfile ⟨content, hrelease, hread⟩

end RustyRouter.Kmod
