import RustyRouter.Store.HashMap

/-! Maps whose entries run out.

An entry is live as long as its expiry lies ahead. What has run out may stay in the map or
be dropped at any time: `live`, the view of a reader that looks at the expiry, does not
tell the difference. -/
namespace RustyRouter.Store.HashMap

variable {κ ν : Type*} [DecidableEq κ] (expiry : ν → Nat)

/-- The entry of `k`, if it has not run out at `now`. -/
def live (m : HashMap κ ν) (now : Nat) (k : κ) : Option ν :=
  (m.get k).filter fun v => decide (now < expiry v)

/-- Drops the entries that have run out at `now`. -/
def sweep (m : HashMap κ ν) (now : Nat) : HashMap κ ν := m.retain fun _ v => decide (now < expiry v)

variable {expiry} {m : HashMap κ ν} {now later : Nat} {k k' : κ} {v : ν}

theorem live_eq_some : m.live expiry now k = some v ↔ m.get k = some v ∧ now < expiry v := by
  rw [live, Option.filter_eq_some_iff, decide_eq_true_eq]

@[simp] theorem live_empty : (empty : HashMap κ ν).live expiry now k = none := by
  simp [live]

theorem live_insert_self {w : ν} : (m.insert k v).live expiry now k = some w ↔ w = v ∧ now < expiry v := by
  rw [live_eq_some, get_insert_self, Option.some.injEq]
  constructor
  · rintro ⟨rfl, hlt⟩
    exact ⟨rfl, hlt⟩
  · rintro ⟨rfl, hlt⟩
    exact ⟨rfl, hlt⟩

theorem live_insert_of_ne (h : k' ≠ k) : (m.insert k v).live expiry now k' = m.live expiry now k' := by
  rw [live, get_insert_of_ne m h, live]

/-- Removing an entry that has run out is not noticed. -/
theorem live_remove_dead (hdead : ∀ v, m.get k = some v → expiry v ≤ now) :
    (m.remove k).live expiry now k' = m.live expiry now k' := by
  ext v
  rw [live_eq_some, live_eq_some, get_remove_eq_some]
  refine ⟨fun h => ⟨h.1.2, h.2⟩, fun h => ⟨⟨?_, h.1⟩, h.2⟩⟩
  rintro rfl
  exact absurd h.2 (Nat.not_lt.mpr (hdead v h.1))

/-- Neither is a sweep, now or later. -/
theorem live_sweep (hle : now ≤ later) : (m.sweep expiry now).live expiry later k = m.live expiry later k := by
  ext v
  rw [live_eq_some, live_eq_some, sweep, get_retain, Option.filter_eq_some_iff, decide_eq_true_eq]
  refine ⟨fun h => ⟨h.1.1, h.2⟩, fun h => ⟨⟨h.1, Nat.lt_of_le_of_lt hle h.2⟩, h.2⟩⟩

end RustyRouter.Store.HashMap
