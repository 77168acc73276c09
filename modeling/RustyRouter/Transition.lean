import Mathlib.Data.List.Induction
import Mathlib.Data.List.Infix
import Mathlib.Tactic.TypeStar

/-! Systems that step on events, and what holds along their runs.

A step takes a state and an event to the next state, or to `none` where the event
cannot happen. `run` chains steps over a list of events. `Always P` says that `P`
holds in every state a run passes through; `Along R` says that every step the run
takes obeys `R`, a condition on the state before the step and its event.

`run_invariant` is the unconditional rule, `run_history` the one for a property of the
events so far, `run_logged` finds the step that wrote an entry of a log. `always_of_along`
is the rule for a property that needs its steps to obey a condition, and `always_iff_along`
the exact form: where one step keeps the property precisely when it obeys the condition,
so does a run.
`Refinement` carries the runs of one system to those of a more abstract one. -/
namespace RustyRouter.Transition

/-- A deterministic step on events; `none` where the event cannot happen. -/
structure System (σ ε : Type*) where
  step : σ → ε → Option σ

namespace System
variable {σ ε : Type*} (S : System σ ε)

/-- The state a list of events leads to, if every one of them can happen. -/
def run : σ → List ε → Option σ
  | s, [] => some s
  | s, e :: es => (S.step s e).bind fun t => run t es

@[simp] theorem run_nil (s : σ) : S.run s [] = some s := rfl

theorem run_cons (s : σ) (e : ε) (es : List ε) :
    S.run s (e :: es) = (S.step s e).bind fun t => S.run t es := rfl

theorem run_append (s : σ) (a b : List ε) :
    S.run s (a ++ b) = (S.run s a).bind fun t => S.run t b := by
  induction a generalizing s with
  | nil => rfl
  | cons e rest ih =>
    simp only [List.cons_append, run_cons]
    cases S.step s e with
    | none => rfl
    | some t => exact ih t

/-- A first step, then the rest. -/
theorem run_cons_eq_some {s u : σ} {e : ε} {es : List ε} :
    S.run s (e :: es) = some u ↔ ∃ t, S.step s e = some t ∧ S.run t es = some u := by
  simp [run_cons, Option.bind_eq_some_iff]

theorem run_append_eq_some {s u : σ} {a b : List ε} :
    S.run s (a ++ b) = some u ↔ ∃ t, S.run s a = some t ∧ S.run t b = some u := by
  simp [run_append, Option.bind_eq_some_iff]

/-- One step, then a run. -/
theorem run_step {s t u : σ} {e : ε} {es : List ε} (hstep : S.step s e = some t)
    (h : S.run t es = some u) : S.run s (e :: es) = some u :=
  (S.run_cons_eq_some).mpr ⟨t, hstep, h⟩

theorem run_one {s t : σ} {e : ε} (hstep : S.step s e = some t) : S.run s [e] = some t :=
  S.run_step hstep rfl

/-- A run, then one step more. -/
theorem run_snoc {s t u : σ} {e : ε} {es : List ε} (h : S.run s es = some t)
    (hstep : S.step t e = some u) : S.run s (es ++ [e]) = some u :=
  (S.run_append_eq_some).mpr ⟨t, h, S.run_one hstep⟩

/-- The last step of a run. -/
theorem run_snoc_eq_some {s u : σ} {e : ε} {es : List ε} :
    S.run s (es ++ [e]) = some u ↔ ∃ t, S.run s es = some t ∧ S.step t e = some u := by
  simp [run_append_eq_some, run_cons]

/-- The first `n` events of a stream. -/
def firsts (stream : Nat → ε) (n : Nat) : List ε := (List.range n).map stream

theorem firsts_succ (stream : Nat → ε) (n : Nat) : firsts stream (n + 1) = firsts stream n ++ [stream n] := by
  rw [firsts, List.range_succ, List.map_append]
  rfl

theorem mem_firsts {stream : Nat → ε} {n : Nat} {e : ε} (h : e ∈ firsts stream n) : ∃ i, stream i = e := by
  obtain ⟨i, -, hi⟩ := List.mem_map.mp h
  exact ⟨i, hi⟩

/-- Events that change nothing can be left out of a run. -/
theorem run_filter {keep : ε → Bool} (hskip : ∀ s e t, keep e = false → S.step s e = some t → t = s)
    {s t : σ} {es : List ε} (h : S.run s es = some t) : S.run s (es.filter keep) = some t := by
  induction es generalizing s with
  | nil => exact h
  | cons e rest ih =>
    obtain ⟨u, hu, hrest⟩ := (S.run_cons_eq_some).mp h
    cases hkeep : keep e with
    | true =>
      rw [List.filter_cons_of_pos hkeep]
      exact S.run_step hu (ih hrest)
    | false =>
      rw [List.filter_cons_of_neg (by simp [hkeep])]
      rw [hskip s e u hkeep hu] at hrest
      exact ih hrest

/-- What every step keeps, every run keeps. -/
theorem run_invariant {I : σ → Prop} (hstep : ∀ s e t, I s → S.step s e = some t → I t)
    {s t : σ} {es : List ε} (hs : I s) (h : S.run s es = some t) : I t := by
  induction es generalizing s with
  | nil =>
    obtain rfl : s = t := by simpa using h
    exact hs
  | cons e rest ih =>
    obtain ⟨u, hu, h⟩ := (S.run_cons_eq_some).mp h
    exact ih (hstep s e u hs hu) h

/-- The same, where what is kept is about the events so far too. -/
theorem run_history {I : List ε → σ → Prop} {s : σ} (hs : I [] s)
    (hstep : ∀ es t e u, S.run s es = some t → I es t → S.step t e = some u → I (es ++ [e]) u)
    {es : List ε} {t : σ} (h : S.run s es = some t) : I es t := by
  induction es using List.reverseRecOn generalizing t with
  | nil =>
    obtain rfl : s = t := by simpa using h
    exact hs
  | append_singleton es e ih =>
    obtain ⟨u, hu, he⟩ := (S.run_snoc_eq_some).mp h
    exact hstep es u e t hu (ih hu) he

/-- What the steps of a run do, in its order. -/
def trace {α : Type*} (does : σ → ε → Option α) : σ → List ε → List α
  | _, [] => []
  | s, e :: es =>
    match S.step s e with
    | none => []
    | some t => (does s e).toList ++ trace does t es

theorem trace_snoc {α : Type*} {does : σ → ε → Option α} {s t u : σ} {e : ε} {es : List ε}
    (h : S.run s es = some t) (hstep : S.step t e = some u) :
    S.trace does s (es ++ [e]) = S.trace does s es ++ (does t e).toList := by
  induction es generalizing s with
  | nil =>
    obtain rfl : s = t := by simpa using h
    simp [trace, hstep]
  | cons e₀ rest ih =>
    obtain ⟨v, hv, hrest⟩ := (S.run_cons_eq_some).mp h
    rw [List.cons_append]
    simp only [trace, hv]
    rw [ih hrest, List.append_assoc]

/-- Whatever is in the trace, some step has done. -/
theorem mem_trace {α : Type*} {does : σ → ε → Option α} {s : σ} {es : List ε} {x : α}
    (h : x ∈ S.trace does s es) :
    ∃ before e u, before ++ [e] <+: es ∧ S.run s before = some u ∧ does u e = some x := by
  induction es generalizing s with
  | nil => exact absurd h List.not_mem_nil
  | cons e rest ih =>
    simp only [trace] at h
    cases hstep : S.step s e with
    | none => simp [hstep] at h
    | some t =>
      simp only [hstep] at h
      rcases List.mem_append.mp h with hhere | hlater
      · exact ⟨[], e, s, List.cons_prefix_cons.mpr ⟨rfl, List.nil_prefix⟩, rfl, Option.mem_toList.mp hhere⟩
      · obtain ⟨before, e', u, hprefix, hu, hdoes⟩ := ih hlater
        exact ⟨e :: before, e', u, List.cons_prefix_cons.mpr ⟨rfl, hprefix⟩, S.run_step hstep hu, hdoes⟩

/-- An entry of a log that grows by one entry at most in a step was written in some step. -/
theorem run_logged {α : Type*} {log : σ → List α}
    (hgrows : ∀ s e t, S.step s e = some t → log t = log s ∨ ∃ x, log t = log s ++ [x])
    {s t : σ} {es : List ε} (hs : log s = []) (h : S.run s es = some t)
    {earlier later : List α} {x : α} (hx : log t = earlier ++ x :: later) :
    ∃ before e u v, before ++ [e] <+: es ∧ S.run s before = some u ∧ S.step u e = some v ∧
      log u = earlier ∧ log v = earlier ++ [x] := by
  induction es using List.reverseRecOn generalizing t later with
  | nil =>
    obtain rfl : s = t := by simpa using h
    exact absurd (hs.symm.trans hx) (by simp)
  | append_singleton es e ih =>
    obtain ⟨u, hu, hstep⟩ := (S.run_snoc_eq_some).mp h
    -- the entry was there before the last step
    have hold : ∀ later, log u = earlier ++ x :: later → ∃ before f v w, before ++ [f] <+: es ++ [e] ∧
        S.run s before = some v ∧ S.step v f = some w ∧ log v = earlier ∧ log w = earlier ++ [x] := by
      intro later hlog
      obtain ⟨before, f, v, w, hb, hrest⟩ := ih hu hlog
      exact ⟨before, f, v, w, hb.trans (List.prefix_append es [e]), hrest⟩
    rcases hgrows u e t hstep with hsame | ⟨y, hsnoc⟩
    · exact hold later (hsame.symm.trans hx)
    · rw [hsnoc] at hx
      rcases List.eq_nil_or_concat later with rfl | ⟨later, z, rfl⟩
      · obtain ⟨rfl, hlast⟩ := List.append_inj' hx rfl
        exact ⟨es, e, u, t, List.prefix_refl _, hu, hstep, rfl, by rw [hsnoc, hlast]⟩
      · have hx' : log u ++ [y] = (earlier ++ x :: later) ++ [z] := by rw [hx]; simp
        exact hold later (List.append_inj' hx' rfl).1

/-- Some list of events leads from `s` to `t`. -/
def Reaches (s t : σ) : Prop := ∃ es, S.run s es = some t

theorem Reaches.refl (s : σ) : S.Reaches s s := ⟨[], rfl⟩

theorem Reaches.trans {s t u : σ} (h : S.Reaches s t) (h' : S.Reaches t u) : S.Reaches s u := by
  obtain ⟨a, ha⟩ := h
  obtain ⟨b, hb⟩ := h'
  exact ⟨a ++ b, (S.run_append_eq_some).mpr ⟨t, ha, hb⟩⟩

/-! ### What holds along a run -/

/-- `P` holds in every state the run passes through, the first and the last included. -/
def Always (P : σ → Prop) (s : σ) (es : List ε) : Prop :=
  ∀ before t, before <+: es → S.run s before = some t → P t

/-- Every step the run takes obeys `R`. -/
def Along (R : σ → ε → Prop) (s : σ) (es : List ε) : Prop :=
  ∀ before e t u, before ++ [e] <+: es → S.run s before = some t → S.step t e = some u → R t e

variable {S} {P I : σ → Prop} {R : σ → ε → Prop} {s : σ} {e : ε} {es : List ε}

theorem Always.start (h : S.Always P s es) : P s := h [] s (List.nil_prefix) rfl

theorem Always.last (h : S.Always P s es) {t : σ} (ht : S.run s es = some t) : P t :=
  h es t (List.prefix_refl es) ht

theorem always_nil : S.Always P s [] ↔ P s := by
  refine ⟨Always.start, fun h before t hb ht => ?_⟩
  rw [List.prefix_nil.mp hb] at ht
  obtain rfl : s = t := by simpa using ht
  exact h

theorem always_cons :
    S.Always P s (e :: es) ↔ P s ∧ ∀ t, S.step s e = some t → S.Always P t es := by
  constructor
  · refine fun h => ⟨h.start, fun t ht before u hb hu => ?_⟩
    exact h (e :: before) u (List.cons_prefix_cons.mpr ⟨rfl, hb⟩) (S.run_step ht hu)
  · intro ⟨hs, h⟩ before t hb ht
    cases before with
    | nil =>
      obtain rfl : s = t := by simpa using ht
      exact hs
    | cons e' before =>
      obtain ⟨rfl, hrest⟩ := List.cons_prefix_cons.mp hb
      obtain ⟨u, hu, ht⟩ := (S.run_cons_eq_some).mp ht
      exact h u hu before t hrest ht

theorem along_nil : S.Along R s [] := by
  intro before e t u hb
  simp at hb

theorem along_cons :
    S.Along R s (e :: es) ↔ ∀ t, S.step s e = some t → R s e ∧ S.Along R t es := by
  constructor
  · refine fun h t ht => ⟨h [] e s t ?_ rfl ht, fun before e' u v hb hu hv => ?_⟩
    · exact List.cons_prefix_cons.mpr ⟨rfl, List.nil_prefix⟩
    · exact h (e :: before) e' u v (List.cons_prefix_cons.mpr ⟨rfl, hb⟩)
        (S.run_step ht hu) hv
  · intro h before e' t u hb ht hu
    cases before with
    | nil =>
      obtain ⟨rfl, -⟩ := List.cons_prefix_cons.mp hb
      obtain rfl : s = t := by simpa using ht
      exact (h u hu).1
    | cons e'' before =>
      obtain ⟨rfl, hrest⟩ := List.cons_prefix_cons.mp hb
      obtain ⟨v, hv, ht⟩ := (S.run_cons_eq_some).mp ht
      exact (h v hv).2 before e' t u hrest ht hu

/-- One step more, that obeys the condition too. -/
theorem Along.snoc (h : S.Along R s es) {t : σ} (ht : S.run s es = some t) (hr : R t e) :
    S.Along R s (es ++ [e]) := by
  intro before e' u v hb hu hv
  rcases List.prefix_concat_iff.mp hb with heq | hb
  · obtain ⟨rfl, he⟩ := List.append_inj' heq rfl
    obtain rfl : u = t := Option.some.inj (hu.symm.trans ht)
    obtain rfl : e' = e := by simpa using he
    exact hr
  · exact h before e' u v hb hu hv

/-- One run after another. -/
theorem Along.append {t : σ} {es' : List ε} (h : S.Along R s es) (ht : S.run s es = some t)
    (h' : S.Along R t es') : S.Along R s (es ++ es') := by
  induction es generalizing s with
  | nil =>
    obtain rfl : s = t := by simpa using ht
    exact h'
  | cons e rest ih =>
    obtain ⟨u, hu, ht⟩ := (S.run_cons_eq_some).mp ht
    obtain ⟨hr, hrest⟩ := along_cons.mp h u hu
    refine along_cons.mpr fun v hv => ?_
    obtain rfl := Option.some.inj (hu.symm.trans hv)
    exact ⟨hr, ih hrest ht⟩

/-- What every step of a run obeys, every step after some of them does. -/
theorem Along.of_append {t : σ} {es' : List ε} (h : S.Along R s (es ++ es')) (ht : S.run s es = some t) :
    S.Along R t es' := by
  intro before e u v hb hu hv
  refine h (es ++ before) e u v ?_ ((S.run_append_eq_some).mpr ⟨t, ht, hu⟩) hv
  rw [List.append_assoc]
  exact (List.prefix_append_right_inj es).mpr hb

/-- Whether every step of the run obeys `r`. -/
def check (S : System σ ε) (r : σ → ε → Bool) : σ → List ε → Bool
  | _, [] => true
  | s, e :: es =>
    match S.step s e with
    | none => true
    | some t => r s e && S.check r t es

theorem along_of_check {r : σ → ε → Bool} (h : S.check r s es = true) :
    S.Along (fun s e => r s e = true) s es := by
  induction es generalizing s with
  | nil => exact along_nil
  | cons e rest ih =>
    refine along_cons.mpr fun t ht => ?_
    simp only [check, ht, Bool.and_eq_true] at h
    exact ⟨h.1, ih h.2⟩

theorem Along.mono {R' : σ → ε → Prop} (h : S.Along R s es) (hRR : ∀ s e, R s e → R' s e) :
    S.Along R' s es :=
  fun before e t u hb ht hu => hRR t e (h before e t u hb ht hu)

theorem Along.and {R' : σ → ε → Prop} (h : S.Along R s es) (h' : S.Along R' s es) :
    S.Along (fun s e => R s e ∧ R' s e) s es :=
  fun before e t u hb ht hu => ⟨h before e t u hb ht hu, h' before e t u hb ht hu⟩

theorem Always.mono {Q : σ → Prop} (h : S.Always P s es) (hPQ : ∀ t, P t → Q t) :
    S.Always Q s es :=
  fun before t hb ht => hPQ t (h before t hb ht)

/-- What the steps from a state with `P` obey, every step of a run through such states does. -/
theorem Always.along (h : S.Always P s es) (hPR : ∀ s e t, P s → S.step s e = some t → R s e) :
    S.Along R s es := by
  intro before e t u hb ht hu
  exact hPR t e u (h before t ((List.prefix_append before [e]).trans hb) ht) hu

/-- A condition on the event alone is asked of the listed events. -/
theorem along_of_forall_mem (h : ∀ e ∈ es, ∀ s, R s e) : S.Along R s es := by
  intro before e t u hb _ _
  exact h e (hb.subset (by simp)) t

/-- A property that the steps obeying `R` keep holds along every run that obeys `R`. -/
theorem always_of_along (hstep : ∀ s e t, P s → R s e → S.step s e = some t → P t) (hs : P s)
    (h : S.Along R s es) : S.Always P s es := by
  induction es generalizing s with
  | nil => exact always_nil.mpr hs
  | cons e rest ih =>
    refine always_cons.mpr ⟨hs, fun t ht => ?_⟩
    obtain ⟨hr, hrest⟩ := along_cons.mp h t ht
    exact ih (hstep s e t hs hr ht) hrest

/-- The exact form. Under an invariant `I` of every step, where a step from a state
with `P` leads to one with `P` precisely when it obeys `R`, a run keeps `P` throughout
precisely when all its steps obey `R`. Only events with `Q` are asked about. -/
theorem always_iff_along_of_forall_mem {Q : ε → Prop} (hI : ∀ s e t, I s → S.step s e = some t → I t)
    (hiff : ∀ s e t, Q e → I s → P s → S.step s e = some t → (P t ↔ R s e)) (hQ : ∀ e ∈ es, Q e)
    (hs : I s) (hp : P s) : S.Always P s es ↔ S.Along R s es := by
  induction es generalizing s with
  | nil => exact ⟨fun _ => along_nil, fun _ => always_nil.mpr hp⟩
  | cons e rest ih =>
    have hiff := fun t => hiff s e t (hQ e List.mem_cons_self)
    have ih := fun {t} => ih (s := t) fun e he => hQ e (List.mem_cons_of_mem _ he)
    rw [always_cons, along_cons]
    constructor
    · rintro ⟨-, h⟩ t ht
      have hpt : P t := (h t ht).start
      exact ⟨(hiff t hs hp ht).mp hpt, (ih (hI s e t hs ht) hpt).mp (h t ht)⟩
    · refine fun h => ⟨hp, fun t ht => ?_⟩
      obtain ⟨hr, hrest⟩ := h t ht
      have hpt : P t := (hiff t hs hp ht).mpr hr
      exact (ih (hI s e t hs ht) hpt).mpr hrest

theorem always_iff_along (hI : ∀ s e t, I s → S.step s e = some t → I t)
    (hiff : ∀ s e t, I s → P s → S.step s e = some t → (P t ↔ R s e)) (hs : I s) (hp : P s) :
    S.Always P s es ↔ S.Along R s es :=
  always_iff_along_of_forall_mem hI (fun s e t (_ : True) => hiff s e t) (fun _ _ => trivial) hs hp

end System

/-! ### Refinement -/

/-- Each step of `S` is some run of `A` between related states. -/
structure Refinement {σ ε α κ : Type*} (S : System σ ε) (A : System α κ) where
  Rel : σ → α → Prop
  step : ∀ s e t a, Rel s a → S.step s e = some t → ∃ b, A.Reaches a b ∧ Rel t b

/-- Every run of the refining system is matched by a run of the abstract one. -/
theorem Refinement.run {σ ε α κ : Type*} {S : System σ ε} {A : System α κ} (r : Refinement S A)
    {s t : σ} {a : α} {es : List ε} (hrel : r.Rel s a) (h : S.run s es = some t) :
    ∃ b, A.Reaches a b ∧ r.Rel t b := by
  induction es generalizing s a with
  | nil =>
    obtain rfl : s = t := by simpa using h
    exact ⟨a, System.Reaches.refl A a, hrel⟩
  | cons e rest ih =>
    obtain ⟨u, hu, h⟩ := (S.run_cons_eq_some).mp h
    obtain ⟨b, hab, hrel⟩ := r.step s e u a hrel hu
    obtain ⟨c, hbc, hrel⟩ := ih hrel h
    exact ⟨c, hab.trans A hbc, hrel⟩

end RustyRouter.Transition
