import Mathlib.Data.List.Basic

/-! Texts with separators.

Fields joined by a separator can be told apart again only where they do not contain it:
what a joined text determines is the fields split further, into pieces without a
separator. -/
namespace RustyRouter.Text

variable {α : Type*} {sep : α} {fields fields' : List (List α)}

/-- What comes before and after the last separator of a text. -/
theorem last_field_inj {xs xs' last last' : List α} (h : sep ∉ last) (h' : sep ∉ last') :
    xs ++ [sep] ++ last = xs' ++ [sep] ++ last' ↔ xs = xs' ∧ last = last' := by
  refine ⟨fun he => ?_, fun he => by rw [he.1, he.2]⟩
  simp only [List.append_assoc, List.singleton_append] at he
  rcases List.append_eq_append_iff.mp he with ⟨mid, rfl, hmid⟩ | ⟨mid, rfl, hmid⟩
  · cases mid with
    | nil => exact ⟨(List.append_nil xs).symm, (List.cons.inj hmid).2⟩
    | cons m mid =>
      refine absurd ?_ h
      rw [(List.cons.inj hmid).2]
      simp
  · cases mid with
    | nil => exact ⟨List.append_nil xs', (List.cons.inj hmid).2.symm⟩
    | cons m mid =>
      refine absurd ?_ h'
      rw [(List.cons.inj hmid).2]
      simp

theorem join_ne_nil (h : fields ≠ []) (hne : ∀ field ∈ fields, field ≠ []) : [sep].intercalate fields ≠ [] := by
  cases fields with
  | nil => exact absurd rfl h
  | cons field rest =>
    have hfield : field ≠ [] := hne field List.mem_cons_self
    cases rest with
    | nil => simpa using hfield
    | cons next rest => simp [List.intercalate_cons_cons]

theorem mem_join {x : α} (h : x ∈ [sep].intercalate fields) : x = sep ∨ ∃ field ∈ fields, x ∈ field := by
  induction fields with
  | nil => simp at h
  | cons field rest ih =>
    cases rest with
    | nil => exact .inr ⟨field, List.mem_cons_self, by simpa using h⟩
    | cons next rest =>
      rw [List.intercalate_cons_cons, List.append_assoc, List.mem_append, List.singleton_append,
        List.mem_cons] at h
      rcases h with hfield | hsep | hrest
      · exact .inr ⟨field, List.mem_cons_self, hfield⟩
      · exact .inl hsep
      · exact (ih hrest).imp id fun ⟨f, hf, hx⟩ => ⟨f, List.mem_cons_of_mem field hf, hx⟩

/-! ### Splitting what was joined -/

variable [DecidableEq α]

/-- A text is one field, or splits at its first separator. -/
theorem splitOn_cases (sep : α) (text : List α) :
    sep ∉ text ∧ text.splitOn sep = [text] ∨
      ∃ field rest, text = field ++ sep :: rest ∧ sep ∉ field ∧ text.splitOn sep = field :: rest.splitOn sep := by
  by_cases h : sep ∈ text
  · obtain ⟨field, rest, rfl, hfield⟩ := List.eq_append_cons_of_mem h
    exact .inr ⟨field, rest, rfl, hfield, List.splitOn_append_cons_self_of_not_mem hfield rest⟩
  · exact .inl ⟨h, List.splitOn_eq_singleton h⟩

/-- What comes before and after the first separator of a text. -/
theorem first_field_inj {field field' rest rest' : List α} (h : sep ∉ field) (h' : sep ∉ field')
    (heq : field ++ sep :: rest = field' ++ sep :: rest') : field = field' ∧ rest = rest' := by
  have hsplit := congrArg (List.splitOn sep) heq
  rw [List.splitOn_append_cons_self_of_not_mem h, List.splitOn_append_cons_self_of_not_mem h'] at hsplit
  obtain ⟨hfield, hrest⟩ := List.cons.inj hsplit
  have hjoin : [sep].intercalate (rest.splitOn sep) = rest := List.intercalate_splitOn sep
  rw [hrest, List.intercalate_splitOn] at hjoin
  exact ⟨hfield, hjoin.symm⟩

/-- The fields, split at every separator they contain. -/
def pieces (sep : α) (fields : List (List α)) : List (List α) := fields.flatMap (List.splitOn sep)

/-- The pieces of a joined text are the pieces of its fields. -/
theorem splitOn_join (h : fields ≠ []) : ([sep].intercalate fields).splitOn sep = pieces sep fields := by
  induction fields with
  | nil => exact absurd rfl h
  | cons field rest ih =>
    cases rest with
    | nil => simp [pieces]
    | cons next rest =>
      rw [List.intercalate_cons_cons, List.append_assoc, List.singleton_append,
        List.splitOn_append_cons_self, ih (by simp)]
      rfl

theorem join_pieces (h : fields ≠ []) : [sep].intercalate (pieces sep fields) = [sep].intercalate fields := by
  rw [← splitOn_join h, List.intercalate_splitOn]

/-- Fields that are not empty join to the same text precisely when they have the same
pieces. -/
theorem join_eq_join_iff (hne : ∀ field ∈ fields, field ≠ []) (hne' : ∀ field ∈ fields', field ≠ []) :
    [sep].intercalate fields = [sep].intercalate fields' ↔ pieces sep fields = pieces sep fields' := by
  by_cases h : fields = []
  · by_cases h' : fields' = []
    · rw [h, h']
      exact iff_of_true rfl rfl
    · have hjoin : [sep].intercalate fields' ≠ [] := join_ne_nil h' hne'
      subst h
      refine iff_of_false (fun he => hjoin he.symm) fun he => hjoin ?_
      rw [← join_pieces h', ← he]
      rfl
  · by_cases h' : fields' = []
    · have hjoin : [sep].intercalate fields ≠ [] := join_ne_nil h hne
      subst h'
      refine iff_of_false hjoin fun he => hjoin ?_
      rw [← join_pieces h, he]
      rfl
    · constructor
      · intro he
        rw [← splitOn_join h, ← splitOn_join h', he]
      · intro he
        rw [← join_pieces h, ← join_pieces h', he]

/-- Without separators in them, the fields are their own pieces. -/
theorem pieces_eq_self (h : ∀ field ∈ fields, sep ∉ field) : pieces sep fields = fields := by
  induction fields with
  | nil => rfl
  | cons field rest ih =>
    have hfield := List.splitOn_eq_singleton (h field List.mem_cons_self)
    have hrest := ih fun f hf => h f (List.mem_cons_of_mem field hf)
    rw [pieces, List.flatMap_cons, hfield]
    exact congrArg (field :: ·) hrest

end RustyRouter.Text
