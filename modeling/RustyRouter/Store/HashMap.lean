import Mathlib.Data.List.AList

/-! Hash maps.

A hash map is a finite map: a list of entries with distinct keys, read through its
keys. Mathlib's `AList` is that; here its operations take the names a program calls
them by (`get`, `insert`, `remove`), together with the ones that walk the entries
(`retain`, `values`, `any`, `len`). Each has one lemma that says what it does key by
key, so that no proof depends on the order of the entries. -/
namespace RustyRouter.Store

/-- A map from `κ` to `ν`; every key has at most one entry. -/
def HashMap (κ ν : Type*) := AList (fun _ : κ => ν)

namespace HashMap
variable {κ ν : Type*}

/-- `HashMap::new()`. -/
def empty : HashMap κ ν := (∅ : AList fun _ : κ => ν)

/-- The entries that satisfy `p`. -/
def retain (m : HashMap κ ν) (p : κ → ν → Bool) : HashMap κ ν :=
  ⟨m.entries.filter fun e => p e.1 e.2, m.nodupKeys.sublist List.filter_sublist⟩

/-- The number of entries. -/
def len (m : HashMap κ ν) : Nat := m.entries.length

def values (m : HashMap κ ν) : List ν := m.entries.map Sigma.snd

/-- Some entry satisfies `p`. -/
def any (m : HashMap κ ν) (p : κ → ν → Bool) : Bool := m.entries.any fun e => p e.1 e.2

variable [DecidableEq κ]

def get (m : HashMap κ ν) (k : κ) : Option ν := AList.lookup k m

/-- Inserts the entry, replacing the one its key had. -/
def insert (m : HashMap κ ν) (k : κ) (v : ν) : HashMap κ ν := AList.insert k v m

def remove (m : HashMap κ ν) (k : κ) : HashMap κ ν := AList.erase k m

def containsKey (m : HashMap κ ν) (k : κ) : Bool := (m.get k).isSome

theorem get_eq_some_iff {m : HashMap κ ν} {k : κ} {v : ν} : m.get k = some v ↔ ⟨k, v⟩ ∈ m.entries :=
  AList.mem_lookup_iff

@[simp] theorem get_empty (k : κ) : (empty : HashMap κ ν).get k = none := AList.lookup_empty k

theorem get_insert (m : HashMap κ ν) (k k' : κ) (v : ν) :
    (m.insert k v).get k' = if k' = k then some v else m.get k' := by
  by_cases h : k' = k
  · subst h
    rw [if_pos rfl]
    exact AList.lookup_insert m
  · rw [if_neg h]
    exact AList.lookup_insert_ne h

@[simp] theorem get_insert_self (m : HashMap κ ν) (k : κ) (v : ν) : (m.insert k v).get k = some v :=
  AList.lookup_insert m

theorem get_insert_of_ne (m : HashMap κ ν) {k k' : κ} (h : k' ≠ k) (v : ν) :
    (m.insert k v).get k' = m.get k' :=
  AList.lookup_insert_ne h

theorem get_remove (m : HashMap κ ν) (k k' : κ) :
    (m.remove k).get k' = if k' = k then none else m.get k' := by
  by_cases h : k' = k
  · subst h
    rw [if_pos rfl]
    exact AList.lookup_erase k' m
  · rw [if_neg h]
    exact AList.lookup_erase_ne h

/-- What is left after a removal was there before, under another key. -/
theorem get_remove_eq_some {m : HashMap κ ν} {k k' : κ} {v : ν} :
    (m.remove k).get k' = some v ↔ k' ≠ k ∧ m.get k' = some v := by
  rw [get_remove]
  split <;> simp_all

@[simp] theorem get_remove_self (m : HashMap κ ν) (k : κ) : (m.remove k).get k = none :=
  AList.lookup_erase k m

theorem get_remove_of_ne (m : HashMap κ ν) {k k' : κ} (h : k' ≠ k) :
    (m.remove k).get k' = m.get k' :=
  AList.lookup_erase_ne h

@[simp] theorem get_retain (m : HashMap κ ν) (p : κ → ν → Bool) (k : κ) :
    (m.retain p).get k = (m.get k).filter (p k) := by
  ext v
  rw [get_eq_some_iff, Option.filter_eq_some_iff, get_eq_some_iff]
  exact List.mem_filter

theorem mem_values {m : HashMap κ ν} {v : ν} : v ∈ m.values ↔ ∃ k, m.get k = some v := by
  simp only [values, List.mem_map, get_eq_some_iff]
  constructor
  · rintro ⟨⟨k, v⟩, h, rfl⟩
    exact ⟨k, h⟩
  · intro ⟨k, h⟩
    exact ⟨⟨k, v⟩, h, rfl⟩

theorem any_eq_true {m : HashMap κ ν} {p : κ → ν → Bool} :
    m.any p = true ↔ ∃ k v, m.get k = some v ∧ p k v = true := by
  simp only [any, List.any_eq_true, get_eq_some_iff]
  constructor
  · intro ⟨⟨k, v⟩, h, hp⟩
    exact ⟨k, v, h, hp⟩
  · intro ⟨k, v, h, hp⟩
    exact ⟨⟨k, v⟩, h, hp⟩

/-! ### The number of entries -/

theorem len_insert_le (m : HashMap κ ν) (k : κ) (v : ν) : (m.insert k v).len ≤ m.len + 1 := by
  show (List.kerase k m.entries).length + 1 ≤ m.entries.length + 1
  exact Nat.succ_le_succ (List.kerase_sublist k m.entries).length_le

theorem len_remove_le (m : HashMap κ ν) (k : κ) : (m.remove k).len ≤ m.len :=
  (List.kerase_sublist k m.entries).length_le

/-- Among more keys than there are entries, one has none. -/
theorem exists_get_eq_none (m : HashMap κ ν) {keys : List κ} (hnodup : keys.Nodup)
    (hlen : m.len < keys.length) : ∃ k ∈ keys, m.get k = none := by
  by_contra hall
  simp only [not_exists, not_and] at hall
  have hsub : keys ⊆ AList.keys m := by
    intro k hk
    obtain ⟨v, hv⟩ := Option.ne_none_iff_exists'.mp (hall k hk)
    exact List.mem_keys_of_mem (get_eq_some_iff.mp hv)
  have hle : keys.length ≤ (AList.keys m).length := (List.subperm_of_subset hnodup hsub).length_le
  rw [show (AList.keys m).length = m.len from List.length_map _] at hle
  omega

end HashMap

end RustyRouter.Store
