import Mathlib.Data.List.Infix
import Mathlib.Data.List.Nodup

/-! Lists in which everything comes after what it needs.

Entries are added one at a time, and an entry that is there already is not added again. A
list to add is `Supplied` where each of its entries needs only what is known by then: what
was there before, or comes earlier in it. Adding a supplied list keeps the order, whatever
part of it was there already, since what is there is there with all it needs. -/
namespace RustyRouter.Precedence

variable {κ : Type*} (needs : κ → κ → Prop)

/-- Each entry comes after everything it needs. -/
def Ordered (entries : List κ) : Prop :=
  ∀ before k, before ++ [k] <+: entries → ∀ d, needs k d → d ∈ before

/-- Each entry needs only known ones, and those before it. -/
def Supplied (known : κ → Prop) (ks : List κ) : Prop :=
  ∀ before k after, ks = before ++ k :: after → ∀ d, needs k d → known d ∨ d ∈ before

variable {needs} {entries ks : List κ} {k d : κ} {known : κ → Prop}

theorem ordered_nil : Ordered needs [] := by
  intro before k hb
  simp at hb

theorem Ordered.snoc (h : Ordered needs entries) (hk : ∀ d, needs k d → d ∈ entries) :
    Ordered needs (entries ++ [k]) := by
  intro before k' hb d hd
  rcases List.prefix_concat_iff.mp hb with heq | hb
  · obtain ⟨rfl, hlast⟩ := List.append_inj' heq rfl
    obtain rfl : k' = k := by simpa using hlast
    exact hk d hd
  · exact h before k' hb d hd

theorem supplied_cons : Supplied needs known (k :: ks) ↔
    (∀ d, needs k d → known d) ∧ Supplied needs (fun d => known d ∨ d = k) ks := by
  constructor
  · intro h
    refine ⟨fun d hd => (h [] k ks rfl d hd).resolve_right (by simp), ?_⟩
    intro before k' after heq d hd
    rcases h (k :: before) k' after (by rw [heq]; rfl) d hd with hknown | hmem
    · exact .inl (.inl hknown)
    · exact (List.mem_cons.mp hmem).elim (fun heq => .inl (.inr heq)) .inr
  · intro h before k' after heq d hd
    cases before with
    | nil =>
      obtain ⟨rfl, -⟩ := List.cons.inj heq
      exact .inl (h.1 d hd)
    | cons first before =>
      obtain ⟨rfl, htail⟩ := List.cons.inj heq
      rcases h.2 before k' after htail d hd with (hknown | hfirst) | hmem
      · exact .inl hknown
      · exact .inr (List.mem_cons.mpr (.inl hfirst))
      · exact .inr (List.mem_cons_of_mem k hmem)

theorem Supplied.mono {known' : κ → Prop} (h : Supplied needs known ks) (hsub : ∀ d, known d → known' d) :
    Supplied needs known' ks :=
  fun before k after heq d hd => (h before k after heq d hd).imp (hsub d) id

/-- No entry twice, each after everything it needs. -/
structure Sound (needs : κ → κ → Prop) (entries : List κ) : Prop where
  ordered : Ordered needs entries
  nodup : entries.Nodup

theorem sound_nil : Sound needs [] := ⟨ordered_nil, List.nodup_nil⟩

variable [DecidableEq κ]

/-- An entry that is there already is not added. -/
def add (entries : List κ) (k : κ) : List κ := if k ∈ entries then entries else entries ++ [k]

theorem mem_add : d ∈ add entries k ↔ d ∈ entries ∨ d = k := by
  unfold add
  split
  · rename_i hmem
    exact ⟨.inl, fun h => h.elim id fun heq => heq ▸ hmem⟩
  · rw [List.mem_append, List.mem_singleton]

theorem Sound.add (h : Sound needs entries) (hk : ∀ d, needs k d → d ∈ entries) :
    Sound needs (add entries k) := by
  unfold Precedence.add
  split
  · exact h
  · rename_i hnew
    exact ⟨h.ordered.snoc hk, List.Nodup.append h.nodup (List.nodup_singleton k) (by simpa using hnew)⟩

theorem mem_foldl_add : d ∈ ks.foldl add entries ↔ d ∈ entries ∨ d ∈ ks := by
  induction ks generalizing entries with
  | nil => simp
  | cons k ks ih => rw [List.foldl_cons, ih, mem_add, List.mem_cons, or_assoc]

/-- **Adding a supplied list keeps the order.** -/
theorem Sound.foldl_add (h : Sound needs entries) (hks : Supplied needs (· ∈ entries) ks) :
    Sound needs (ks.foldl Precedence.add entries) := by
  induction ks generalizing entries with
  | nil => exact h
  | cons k ks ih =>
    obtain ⟨hk, hrest⟩ := supplied_cons.mp hks
    exact ih (h.add hk) (hrest.mono fun d hd => mem_add.mpr hd)

end RustyRouter.Precedence
