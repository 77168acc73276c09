import Mathlib.Data.List.Forall2

/-! Texts divided among tokens.

A pattern is a list of tokens, and each token allows some pieces of text. A text matches
where it is the concatenation of one allowed piece for each token, in order. What a
matcher needs are the ways the first piece can be cut off: one symbol, or any length. -/
namespace RustyRouter.Text

variable {κ α : Type*} (allows : κ → List α → Prop)

/-- The text is one allowed piece for each token, in order. -/
def Divides (tokens : List κ) (text : List α) : Prop :=
  ∃ pieces : List (List α), pieces.flatten = text ∧ List.Forall₂ allows tokens pieces

variable {allows} {token : κ} {tokens : List κ} {text : List α}

theorem divides_nil : Divides allows [] text ↔ text = [] := by
  constructor
  · intro ⟨pieces, hflat, hpieces⟩
    rw [List.forall₂_nil_left_iff.mp hpieces] at hflat
    exact hflat.symm
  · intro h
    exact ⟨[], h.symm, .nil⟩

/-- The first piece, and the rest. -/
theorem divides_cons : Divides allows (token :: tokens) text ↔
    ∃ piece rest, text = piece ++ rest ∧ allows token piece ∧ Divides allows tokens rest := by
  constructor
  · intro ⟨pieces, hflat, hpieces⟩
    obtain ⟨piece, others, hpiece, hothers, rfl⟩ := List.forall₂_cons_left_iff.mp hpieces
    exact ⟨piece, others.flatten, hflat.symm, hpiece, others, rfl, hothers⟩
  · intro ⟨piece, rest, htext, hpiece, others, hflat, hothers⟩
    refine ⟨piece :: others, ?_, .cons hpiece hothers⟩
    rw [List.flatten_cons, hflat, htext]

/-- A token that allows everything: the rest may begin anywhere. -/
theorem divides_cons_of_any (h : ∀ piece, allows token piece) :
    Divides allows (token :: tokens) text ↔ ∃ i ≤ text.length, Divides allows tokens (text.drop i) := by
  rw [divides_cons]
  constructor
  · intro ⟨piece, rest, htext, _, hrest⟩
    subst htext
    refine ⟨piece.length, ?_, ?_⟩
    · rw [List.length_append]
      exact Nat.le_add_right _ _
    · rwa [List.drop_left]
  · intro ⟨i, _, hrest⟩
    exact ⟨text.take i, text.drop i, (List.take_append_drop i text).symm, h _, hrest⟩

/-- Such a token alone allows every text. -/
theorem divides_singleton_of_any (h : ∀ piece, allows token piece) : Divides allows [token] text :=
  ⟨[text], by simp, .cons (h text) .nil⟩

/-- A token for one symbol: there is a first one, and it is allowed. -/
theorem divides_cons_of_one {accepts : α → Prop}
    (h : ∀ piece, allows token piece ↔ ∃ x, piece = [x] ∧ accepts x) :
    Divides allows (token :: tokens) text ↔
      ∃ x rest, text = x :: rest ∧ accepts x ∧ Divides allows tokens rest := by
  rw [divides_cons]
  constructor
  · intro ⟨piece, rest, htext, hpiece, hrest⟩
    obtain ⟨x, rfl, hx⟩ := (h piece).mp hpiece
    exact ⟨x, rest, htext, hx, hrest⟩
  · intro ⟨x, rest, htext, hx, hrest⟩
    exact ⟨[x], rest, htext, (h [x]).mpr ⟨x, rfl, hx⟩, hrest⟩

end RustyRouter.Text
