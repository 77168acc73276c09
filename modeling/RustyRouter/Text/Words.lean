import Mathlib.Data.List.TakeWhile
import RustyRouter.Text.Lines

/-! The words of a text.

`Spaced` is what a text with these words looks like: whitespace before, between and after
them, as much as there may be. Splitting gives these words and no others
(`splitWhitespace_eq_iff`). -/
namespace RustyRouter.Text

/-- A word: not empty, and without whitespace. -/
def IsWord (word : List Char) : Prop := word ≠ [] ∧ ∀ c ∈ word, isWhitespace c = false

/-- The text is these words, with whitespace around them. -/
inductive Spaced : List (List Char) → List Char → Prop where
  | blank {blank : List Char} (hblank : ∀ c ∈ blank, isWhitespace c = true) : Spaced [] blank
  | word {blank word rest : List Char} {words : List (List Char)} (hblank : ∀ c ∈ blank, isWhitespace c = true)
      (hword : IsWord word) (hsep : ∀ c, rest.head? = some c → isWhitespace c = true) (hrest : Spaced words rest) :
      Spaced (word :: words) (blank ++ word ++ rest)

theorem splitWhitespace_space {c : Char} (hc : isWhitespace c = true) (text : List Char) :
    splitWhitespace (c :: text) = splitWhitespace text := by
  have hsplit := List.splitOnP_append_cons [] text hc
  rw [List.nil_append] at hsplit
  rw [splitWhitespace, hsplit, List.filter_append]
  rfl

theorem splitWhitespace_blank {blank : List Char} (hblank : ∀ c ∈ blank, isWhitespace c = true) (text : List Char) :
    splitWhitespace (blank ++ text) = splitWhitespace text := by
  induction blank with
  | nil => rfl
  | cons c blank ih =>
    rw [List.forall_mem_cons] at hblank
    rw [List.cons_append, splitWhitespace_space hblank.1]
    exact ih hblank.2

/-- A word up to the next whitespace is the first of the words. -/
theorem splitWhitespace_word {word : List Char} (hword : IsWord word) {rest : List Char}
    (hsep : ∀ c, rest.head? = some c → isWhitespace c = true) :
    splitWhitespace (word ++ rest) = word :: splitWhitespace rest := by
  have hkeep : ∀ words : List (List Char), (word :: words).filter (fun word => !word.isEmpty) =
      word :: words.filter fun word => !word.isEmpty := fun words => List.filter_cons_of_pos (by simpa using hword.1)
  cases rest with
  | nil =>
    rw [List.append_nil, splitWhitespace, List.splitOnP_eq_singleton hword.2, hkeep]
    rfl
  | cons c rest =>
    have hc : isWhitespace c = true := hsep c rfl
    rw [splitWhitespace_space hc, splitWhitespace, List.splitOnP_append_cons_of_forall_mem hword.2 c hc, hkeep]
    rfl

theorem Spaced.split {words : List (List Char)} {text : List Char} (h : Spaced words text) :
    splitWhitespace text = words := by
  induction h with
  | @blank blank hblank =>
    have hnil := splitWhitespace_blank hblank []
    rw [List.append_nil] at hnil
    exact hnil
  | word hblank hword hsep _ ih =>
    rw [List.append_assoc, splitWhitespace_blank hblank, splitWhitespace_word hword hsep, ih]

/-- Every text has its words. -/
theorem exists_spaced (text : List Char) : ∃ words, Spaced words text := by
  generalize hlen : text.length = n
  induction n using Nat.strongRecOn generalizing text with
  | ind n ih =>
    have hblank : ∀ c ∈ text.takeWhile isWhitespace, isWhitespace c = true := fun c hc => List.mem_takeWhile_imp hc
    have htext := List.takeWhile_append_dropWhile (p := isWhitespace) (l := text)
    generalize text.takeWhile isWhitespace = blank at hblank htext
    cases hafter : text.dropWhile isWhitespace with
    | nil =>
      rw [hafter, List.append_nil] at htext
      rw [← htext]
      exact ⟨[], .blank hblank⟩
    | cons first after =>
      have hfirst : isWhitespace first = false := by
        have hhead := List.head?_dropWhile_not isWhitespace text
        rwa [hafter] at hhead
      let inWord : Char → Bool := fun c => !isWhitespace c
      have hword : IsWord (first :: after.takeWhile inWord) := by
        refine ⟨by simp, List.forall_mem_cons.mpr ⟨hfirst, fun c hc => ?_⟩⟩
        simpa [inWord] using List.mem_takeWhile_imp hc
      have hsep : ∀ c, (after.dropWhile inWord).head? = some c → isWhitespace c = true := by
        intro c hc
        have hhead := List.head?_dropWhile_not inWord after
        rw [hc] at hhead
        simpa [inWord] using hhead
      have hshort : (after.dropWhile inWord).length < n := by
        have hle := (List.dropWhile_suffix (l := after) inWord).length_le
        have htotal := congrArg List.length htext
        rw [hafter, List.length_append, List.length_cons, hlen] at htotal
        omega
      obtain ⟨words, hwords⟩ := ih _ hshort _ rfl
      have hspaced := Spaced.word hblank hword hsep hwords
      rw [List.append_assoc, List.cons_append, List.takeWhile_append_dropWhile, ← hafter, htext] at hspaced
      exact ⟨_, hspaced⟩

/-- **The words of a text are those it has, however it is spaced.** -/
theorem splitWhitespace_eq_iff {words : List (List Char)} {text : List Char} :
    splitWhitespace text = words ↔ Spaced words text := by
  refine ⟨fun h => ?_, Spaced.split⟩
  obtain ⟨words', hwords⟩ := exists_spaced text
  rwa [← h, hwords.split]

end RustyRouter.Text
