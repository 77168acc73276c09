import Mathlib.Logic.Function.Basic
import Mathlib.Order.Lattice
import RustyRouter.Transition

/-! Exclusive leases.

Clients hold resources until a deadline. What a lease service is for is that a
resource has at most one holder at a time; what it may do is grant a resource that
nobody else holds, let go of any clients' leases, and let time pass. `exclusive_run`:
whatever the service does within these bounds, and whenever one looks, no two clients
hold the same resource. -/
namespace RustyRouter.Leasing
open Transition

variable {κ α τ : Type*} [LinearOrder τ]

/-- What each client was granted, and until when; a lease may have run out. -/
abbrev Held (κ α τ : Type*) := κ → Option (α × τ)

/-- At `now`, client `c` holds `a`: it was granted `a` until a time still to come. -/
def Holds (h : Held κ α τ) (now : τ) (c : κ) (a : α) : Prop :=
  ∃ expiry, h c = some (a, expiry) ∧ now < expiry

/-- No resource has two holders. -/
def Exclusive (h : Held κ α τ) (now : τ) : Prop :=
  ∀ c c' a, Holds h now c a → Holds h now c' a → c = c'

theorem Holds.earlier {h : Held κ α τ} {now later : τ} {c : κ} {a : α} (hle : now ≤ later)
    (hh : Holds h later c a) : Holds h now c a := by
  obtain ⟨expiry, hc, hlt⟩ := hh
  exact ⟨expiry, hc, lt_of_le_of_lt hle hlt⟩

/-- Time only ends leases. -/
theorem Exclusive.later {h : Held κ α τ} {now later : τ} (hle : now ≤ later)
    (he : Exclusive h now) : Exclusive h later :=
  fun c c' a hc hc' => he c c' a (hc.earlier hle) (hc'.earlier hle)

/-- Letting go of leases makes no new holder. -/
theorem Exclusive.fewer {h h' : Held κ α τ} {now : τ} (hsub : ∀ c v, h' c = some v → h c = some v)
    (he : Exclusive h now) : Exclusive h' now := by
  have hsub' : ∀ c a, Holds h' now c a → Holds h now c a := by
    intro c a ⟨expiry, hc, hlt⟩
    exact ⟨expiry, hsub c _ hc, hlt⟩
  exact fun c c' a hc hc' => he c c' a (hsub' c a hc) (hsub' c' a hc')

/-- Granting a resource nobody else holds. -/
theorem Exclusive.grant [DecidableEq κ] {h : Held κ α τ} {now : τ} {c : κ} {a : α}
    (he : Exclusive h now) (hfree : ∀ c', c' ≠ c → ¬ Holds h now c' a) (expiry : τ) :
    Exclusive (Function.update h c (some (a, expiry))) now := by
  have hother : ∀ d b, d ≠ c → Holds (Function.update h c (some (a, expiry))) now d b → Holds h now d b := by
    intro d b hd ⟨e, hh, hlt⟩
    rw [Function.update_of_ne hd] at hh
    exact ⟨e, hh, hlt⟩
  have hself : ∀ b, Holds (Function.update h c (some (a, expiry))) now c b → b = a := by
    rintro b ⟨e, hh, -⟩
    rw [Function.update_self] at hh
    cases hh
    rfl
  intro d d' b hd hd'
  by_cases hdc : d = c
  · subst hdc
    by_cases hdc' : d' = d
    · exact hdc'.symm
    · obtain rfl := hself b hd
      exact absurd (hother d' b hdc' hd') (hfree d' hdc')
  · by_cases hdc' : d' = c
    · subst hdc'
      obtain rfl := hself b hd'
      exact absurd (hother d b hdc hd) (hfree d hdc)
    · exact he d d' b (hother d b hdc hd) (hother d' b hdc' hd')

/-! ### The service -/

structure State (κ α τ : Type*) where
  held : Held κ α τ
  now : τ

/-- What the service may do. -/
inductive Move (κ α τ : Type*) where
  | wait (now : τ)
  | drop (gone : κ → Bool)
  | grant (c : κ) (a : α) (expiry : τ)

open Classical in
/-- Time does not go back, and a grant asks that no other client holds the resource. -/
noncomputable def service (κ α τ : Type*) [DecidableEq κ] [LinearOrder τ] :
    System (State κ α τ) (Move κ α τ) where
  step s
    | .wait now => if s.now ≤ now then some { s with now := now } else none
    | .drop gone => some { s with held := fun c => if gone c then none else s.held c }
    | .grant c a expiry =>
      if ∀ c', c' ≠ c → ¬ Holds s.held s.now c' a then
        some { s with held := Function.update s.held c (some (a, expiry)) }
      else none

variable [DecidableEq κ]

theorem reaches_wait {s : State κ α τ} {now : τ} (h : s.now ≤ now) :
    (service κ α τ).Reaches s { s with now := now } :=
  ⟨[.wait now], by simp [System.run_cons, service, h]⟩

theorem reaches_drop (s : State κ α τ) (gone : κ → Bool) :
    (service κ α τ).Reaches s { s with held := fun c => if gone c then none else s.held c } :=
  ⟨[.drop gone], by simp [System.run_cons, service]⟩

theorem reaches_grant {s : State κ α τ} {c : κ} {a : α}
    (h : ∀ c', c' ≠ c → ¬ Holds s.held s.now c' a) (expiry : τ) :
    (service κ α τ).Reaches s { s with held := Function.update s.held c (some (a, expiry)) } := by
  refine ⟨[.grant c a expiry], ?_⟩
  have hstep : (service κ α τ).step s (.grant c a expiry) =
      some { s with held := Function.update s.held c (some (a, expiry)) } := if_pos h
  rw [System.run_cons, hstep]
  rfl

/-- One move keeps leases exclusive. -/
theorem exclusive_step (s : State κ α τ) (m : Move κ α τ) (t : State κ α τ)
    (he : Exclusive s.held s.now) (h : (service κ α τ).step s m = some t) : Exclusive t.held t.now := by
  cases m with
  | wait now =>
    simp only [service, Option.ite_none_right_eq_some, Option.some.injEq] at h
    obtain ⟨hle, rfl⟩ := h
    exact he.later hle
  | drop gone =>
    simp only [service, Option.some.injEq] at h
    subst h
    refine he.fewer fun c v hv => ?_
    by_cases hg : gone c = true
    · simp [hg] at hv
    · simpa [hg] using hv
  | grant c a expiry =>
    simp only [service, Option.ite_none_right_eq_some, Option.some.injEq] at h
    obtain ⟨hfree, rfl⟩ := h
    exact he.grant hfree expiry

/-- **Leases stay exclusive**, whatever the service does and whenever one looks. -/
theorem exclusive_run {s t : State κ α τ} (he : Exclusive s.held s.now)
    (h : (service κ α τ).Reaches s t) {later : τ} (hle : t.now ≤ later) : Exclusive t.held later := by
  obtain ⟨ms, hms⟩ := h
  have ht : Exclusive t.held t.now := (service κ α τ).run_invariant exclusive_step he hms
  exact ht.later hle

end RustyRouter.Leasing
