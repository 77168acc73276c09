import RustyRouter.Init.Lifecycle

/-! No zombie stays.

The reaper looks for zombies until there are none, and then waits five seconds at most,
even if the SIGCHLD for the next one gets lost; it stops once the shutdown flag is set, and
by then the router has half a second left. So where nobody is late, and the kernel does
what it is asked to, a zombie is there for no more than five and a half seconds
(`zombies_bounded`).

`ReaperPhase.Bounds` says what the phase of the reaper means for a zombie. It holds for one
that ended at this very moment, too: that is what a new one needs. -/
namespace RustyRouter.Init
open Transition

variable {pid1 : Bool} {s t : LifecycleState} {e : Event} {es : List Event}

/-! ### Nobody is late -/

/-- The reaper has nothing to do before then. -/
def ReaperPhase.Rests (now : Nat) : ReaperPhase → Prop
  | .selecting wakeAt => now ≤ wakeAt
  | .sleeping wakeAt => now ≤ wakeAt
  | .done => True
  | _ => False

/-- Nor has the monitor. -/
def MonitorPhase.Rests (now : Nat) : MonitorPhase → Prop
  | .tearingDown wakeAt => now ≤ wakeAt
  | .failed => False
  | _ => True

/-- Time passes only where both rest; `waitpid` fails only for want of children, and a
press of the power button powers the router off. -/
def Punctual (s : LifecycleState) : Event → Prop
  | .tick now => s.reaper.Rests now ∧ s.monitor.Rests now
  | .reaper (.waitpid (.error e)) => e = echild
  | .button _ (.input _ granted) => granted = true
  | _ => True

instance (now : Nat) : (phase : ReaperPhase) → Decidable (phase.Rests now)
  | .starting => inferInstanceAs (Decidable False)
  | .checking _ => inferInstanceAs (Decidable False)
  | .selecting wakeAt => inferInstanceAs (Decidable (now ≤ wakeAt))
  | .sleeping wakeAt => inferInstanceAs (Decidable (now ≤ wakeAt))
  | .reaping _ => inferInstanceAs (Decidable False)
  | .done => inferInstanceAs (Decidable True)

instance (now : Nat) : (phase : MonitorPhase) → Decidable (phase.Rests now)
  | .starting => inferInstanceAs (Decidable True)
  | .listening => inferInstanceAs (Decidable True)
  | .tearingDown wakeAt => inferInstanceAs (Decidable (now ≤ wakeAt))
  | .failed => inferInstanceAs (Decidable False)
  | .hanging => inferInstanceAs (Decidable True)

instance (s : LifecycleState) : (e : Event) → Decidable (Punctual s e)
  | .tick now => inferInstanceAs (Decidable (s.reaper.Rests now ∧ s.monitor.Rests now))
  | .reaper (.waitpid (.error e)) => inferInstanceAs (Decidable (e = echild))
  | .reaper (.waitpid (.ok _)) => .isTrue trivial
  | .reaper (.stream _) => .isTrue trivial
  | .reaper .check => .isTrue trivial
  | .reaper .recv => .isTrue trivial
  | .reaper .timeout => .isTrue trivial
  | .button _ (.input _ granted) => inferInstanceAs (Decidable (granted = true))
  | .button _ (.opened _) => .isTrue trivial
  | .button _ .ends => .isTrue trivial
  | .adopt _ => .isTrue trivial
  | .die _ _ => .isTrue trivial
  | .monitor _ => .isTrue trivial

/-! ### The invariant -/

/-- How long ago a zombie may have ended. -/
def ReaperPhase.Bounds (now since : Nat) : ReaperPhase → Prop
  | .starting => now ≤ since
  | .checking true => now ≤ since
  | .checking false => now ≤ since + pollInterval
  | .selecting wakeAt => now ≤ wakeAt ∧ wakeAt ≤ since + reapInterval
  | .sleeping wakeAt => now ≤ wakeAt ∧ wakeAt ≤ since + pollInterval
  | .reaping true => now ≤ since + reapInterval
  | .reaping false => now ≤ since + pollInterval
  | .done => False

/-- The zombies are as the phase of the reaper says. -/
def Tended (s : LifecycleState) : Prop :=
  s.reaper.Bounds s.now s.now ∧ ∀ z ∈ s.children.zombies, s.reaper.Bounds s.now z.since

/-- The router is about to be off. -/
structure Closing (s : LifecycleState) (f : Nat) : Prop where
  since : f ≤ s.now
  zombies : ∀ z ∈ s.children.zombies, f ≤ z.since + reapInterval
  left : s.now ≤ f + teardownTime
  monitor : s.ended = true ∨ s.monitor = .failed ∨ ∃ wakeAt, s.monitor = .tearingDown wakeAt ∧ wakeAt ≤ f + teardownTime

def Attended (s : LifecycleState) : Prop :=
  match s.shutdownFlag with
  | none => Tended s ∧ s.monitor ≠ .failed ∧ ∀ wakeAt, s.monitor ≠ .tearingDown wakeAt
  | some f => Closing s f

theorem pollInterval_le : pollInterval ≤ reapInterval := by decide

theorem ReaperPhase.Bounds.le {phase : ReaperPhase} {now since : Nat} (h : phase.Bounds now since) :
    now ≤ since + reapInterval := by
  have hpoll := pollInterval_le
  cases phase with
  | starting => exact Nat.le_trans h (Nat.le_add_right _ _)
  | checking streaming =>
    cases streaming with
    | true => exact Nat.le_trans h (Nat.le_add_right _ _)
    | false => exact Nat.le_trans h (Nat.add_le_add_left hpoll _)
  | selecting => exact Nat.le_trans h.1 h.2
  | sleeping => exact Nat.le_trans h.1 (Nat.le_trans h.2 (Nat.add_le_add_left hpoll _))
  | reaping streaming =>
    cases streaming with
    | true => exact h
    | false => exact Nat.le_trans h (Nat.add_le_add_left hpoll _)
  | done => exact h.elim

/-- Time may pass while the reaper rests. -/
theorem ReaperPhase.Bounds.tick {phase : ReaperPhase} {now now' since since' : Nat} (h : phase.Bounds now since)
    (hrests : phase.Rests now') (hsince : since ≤ since') : phase.Bounds now' since' := by
  cases phase with
  | selecting => exact ⟨hrests, Nat.le_trans h.2 (Nat.add_le_add_right hsince _)⟩
  | sleeping => exact ⟨hrests, Nat.le_trans h.2 (Nat.add_le_add_right hsince _)⟩
  | done => exact h.elim
  | _ => exact hrests.elim

/-! ### The reaper -/

/-- The phase the reaper goes to bounds the zombies it leaves. -/
theorem Reaps.bounds {e : ReaperEvent} {phase : ReaperPhase} {zombies : List Zombie} (h : Reaps s e phase zombies)
    (hs : Tended s) (hflag : s.shutdownFlag = none) (he : Punctual s (.reaper e)) :
    phase.Bounds s.now s.now ∧ ∀ z ∈ zombies, phase.Bounds s.now z.since := by
  obtain ⟨hnow, hzombies⟩ := hs
  have hself : ∀ d, s.now ≤ s.now + d := fun d => Nat.le_add_right _ _
  cases h with
  | @starts ok hfrom =>
    rw [hfrom] at hnow hzombies
    cases ok with
    | true => exact ⟨hnow, hzombies⟩
    | false => exact ⟨hself _, fun z hz => Nat.le_trans (hzombies z hz) (Nat.le_add_right _ _)⟩
  | stops hfrom hset => exact absurd hflag hset
  | selects hfrom =>
    rw [hfrom] at hzombies
    exact ⟨⟨hself _, Nat.le_refl _⟩, fun z hz => ⟨hself _, Nat.add_le_add_right (hzombies z hz) _⟩⟩
  | polls hfrom =>
    rw [hfrom] at hzombies
    exact ⟨hself _, hzombies⟩
  | wakes hfrom => exact ⟨hself _, fun z hz => (hzombies z hz).le⟩
  | rechecks hfrom =>
    rw [hfrom] at hzombies
    exact ⟨hself _, fun z hz => Nat.le_trans (hzombies z hz).1 (hzombies z hz).2⟩
  | reaps hfrom hsubset =>
    rw [hfrom] at hnow hzombies
    exact ⟨hnow, fun z hz => hzombies z (hsubset hz)⟩
  | @finishes streaming answer hfrom hnone =>
    have hempty : s.children.zombies = [] := by
      rcases hnone with hempty | ⟨err, hne, rfl⟩
      · exact hempty
      · exact absurd he hne
    rw [hempty]
    refine ⟨?_, by simp⟩
    cases streaming with
    | true => exact Nat.le_refl _
    | false => exact ⟨hself _, Nat.le_refl _⟩

theorem Reaps.subset {e : ReaperEvent} {phase : ReaperPhase} {zombies : List Zombie} (h : Reaps s e phase zombies) :
    zombies ⊆ s.children.zombies := by
  cases h with
  | reaps _ hsubset => exact hsubset
  | _ => exact List.Subset.refl _

/-! ### One step -/

/-- The flag has just been set, by a step that leaves the children alone. -/
theorem Tended.closes (hs : Tended s) (hnow : t.now = s.now) (hchildren : t.children = s.children)
    (hmonitor : t.ended = true ∨ t.monitor = .tearingDown (s.now + teardownTime)) : Closing t s.now := by
  refine ⟨Nat.le_of_eq hnow.symm, fun z hz => (hs.2 z (hchildren ▸ hz)).le, ?_, ?_⟩
  · rw [hnow]
    exact Nat.le_add_right _ _
  · exact hmonitor.imp id fun htearing => .inr ⟨_, htearing, Nat.le_refl _⟩

/-- Before the flag is set. -/
theorem attended_unflagged (hflag : s.shutdownFlag = none) (hs : Attended s) (he : Punctual s e)
    (h : (lifecycle pid1).step s e = some t) : Attended t := by
  unfold Attended at hs
  rw [hflag] at hs
  obtain ⟨htended, hfailed, htearing⟩ := hs
  simp only [lifecycle, Option.ite_none_left_eq_some] at h
  obtain ⟨-, h⟩ := h
  cases e with
  | tick now =>
    simp only [Option.ite_none_right_eq_some, Option.some.injEq] at h
    obtain ⟨hle, rfl⟩ := h
    simp only [Attended, hflag]
    refine ⟨⟨htended.1.tick he.1 hle, fun z hz => ?_⟩, hfailed, htearing⟩
    exact (htended.2 z hz).tick he.1 (Nat.le_refl _)
  | adopt pid =>
    obtain ⟨children, hchildren, rfl⟩ := Option.map_eq_some_iff.mp h
    simp only [Attended, hflag]
    refine ⟨⟨htended.1, fun z hz => htended.2 z ?_⟩, hfailed, htearing⟩
    rwa [← adopt_zombies hchildren]
  | die status delivered =>
    obtain ⟨children, hchildren, rfl⟩ := Option.map_eq_some_iff.mp h
    simp only [Attended, hflag]
    refine ⟨⟨htended.1, fun z hz => ?_⟩, hfailed, htearing⟩
    rw [show children.zombies = _ from die_zombies hchildren, List.mem_append, List.mem_singleton] at hz
    rcases hz with hz | rfl
    · exact htended.2 z hz
    · exact htended.1
  | reaper e =>
    obtain ⟨hframe, hreaps⟩ := reaperStep_cases h
    have hbounds := hreaps.bounds htended hflag he
    rw [hframe]
    simp only [Attended, hflag]
    exact ⟨hbounds, hfailed, htearing⟩
  | monitor e =>
    cases monitorStep_cases h with
    | binds =>
      simp only [Attended, hflag]
      exact ⟨htended, by simp, by simp⟩
    | panics =>
      simp only [Attended, LifecycleState.reboot, hflag]
      exact ⟨htended, by simp, by simp⟩
    | hears =>
      simp only [Attended, LifecycleState.setFlag, hflag, Option.none_or]
      exact htended.closes rfl rfl (.inr rfl)
    | powersOff hfrom => exact absurd hfrom (htearing _)
    | autoboots hfrom => exact absurd hfrom hfailed
  | button i e =>
    cases buttonStep_cases h with
    | opens | ends | ignores =>
      simp only [Attended, hflag]
      exact ⟨htended, hfailed, htearing⟩
    | presses =>
      obtain rfl : _ = true := he
      simp only [Attended, LifecycleState.reboot, LifecycleState.setFlag, hflag, Option.none_or]
      exact htended.closes rfl rfl (.inl rfl)

/-- And then: until the end, the monitor has it in hand. -/
theorem closing_step {f : Nat} (hflag : s.shutdownFlag = some f) (hs : Closing s f) (he : Punctual s e)
    (h : (lifecycle pid1).step s e = some t) : Attended t := by
  simp only [lifecycle, Option.ite_none_left_eq_some, Bool.not_eq_true] at h
  obtain ⟨hended, h⟩ := h
  have hmonitor := hs.monitor.resolve_left (by simp [hended])
  cases e with
  | tick now =>
    simp only [Option.ite_none_right_eq_some, Option.some.injEq] at h
    obtain ⟨hle, rfl⟩ := h
    simp only [Attended, hflag]
    refine ⟨Nat.le_trans hs.since hle, hs.zombies, ?_, .inr hmonitor⟩
    have hrests := he.2
    rcases hmonitor with hfailed | ⟨wakeAt, htearing, hwake⟩
    · rw [hfailed] at hrests
      exact hrests.elim
    · rw [htearing] at hrests
      exact Nat.le_trans hrests hwake
  | adopt pid =>
    obtain ⟨children, hchildren, rfl⟩ := Option.map_eq_some_iff.mp h
    simp only [Attended, hflag]
    refine ⟨hs.since, fun z hz => hs.zombies z ?_, hs.left, .inr hmonitor⟩
    rwa [← adopt_zombies hchildren]
  | die status delivered =>
    obtain ⟨children, hchildren, rfl⟩ := Option.map_eq_some_iff.mp h
    simp only [Attended, hflag]
    refine ⟨hs.since, fun z hz => ?_, hs.left, .inr hmonitor⟩
    rw [show children.zombies = _ from die_zombies hchildren, List.mem_append, List.mem_singleton] at hz
    rcases hz with hz | rfl
    · exact hs.zombies z hz
    · exact Nat.le_trans hs.since (Nat.le_add_right _ _)
  | reaper e =>
    obtain ⟨hframe, hreaps⟩ := reaperStep_cases h
    have hsubset := hreaps.subset
    rw [hframe]
    simp only [Attended, hflag]
    exact ⟨hs.since, fun z hz => hs.zombies z (hsubset hz), hs.left, .inr hmonitor⟩
  | monitor e =>
    cases monitorStep_cases h with
    | binds hfrom | panics hfrom | hears hfrom =>
      rcases hmonitor with hfailed | ⟨wakeAt, htearing, -⟩
      · exact absurd (hfrom.symm.trans hfailed) (by simp)
      · exact absurd (hfrom.symm.trans htearing) (by simp)
    | powersOff =>
      simp only [Attended, LifecycleState.reboot, hflag]
      exact ⟨hs.since, hs.zombies, hs.left, .inr (.inl rfl)⟩
    | autoboots =>
      simp only [Attended, LifecycleState.reboot, hflag]
      exact ⟨hs.since, hs.zombies, hs.left, .inl rfl⟩
  | button i e =>
    cases buttonStep_cases h with
    | opens | ends | ignores =>
      simp only [Attended, hflag]
      exact ⟨hs.since, hs.zombies, hs.left, .inr hmonitor⟩
    | presses =>
      obtain rfl : _ = true := he
      simp only [Attended, LifecycleState.reboot, LifecycleState.setFlag, hflag, Option.some_or]
      exact ⟨hs.since, hs.zombies, hs.left, .inl rfl⟩

theorem attended_step (hs : Attended s) (he : Punctual s e) (h : (lifecycle pid1).step s e = some t) : Attended t := by
  cases hflag : s.shutdownFlag with
  | none => exact attended_unflagged hflag hs he h
  | some f =>
    unfold Attended at hs
    rw [hflag] at hs
    exact closing_step hflag hs he h

/-! ### Whole runs -/

/-- **No zombie stays**: none for more than five seconds while the router runs, and none
longer than until half a second after the shutdown flag is set, when the router is off. -/
theorem zombies_bounded (hes : (lifecycle pid1).Along Punctual .initial es)
    (h : (lifecycle pid1).run .initial es = some s) :
    (s.shutdownFlag = none → ∀ z ∈ s.children.zombies, s.now ≤ z.since + reapInterval) ∧
    (∀ f, s.shutdownFlag = some f → s.now ≤ f + teardownTime) ∧
    ∀ z ∈ s.children.zombies, s.now ≤ z.since + (reapInterval + teardownTime) := by
  have hinitial : Attended .initial := ⟨⟨Nat.le_refl _, by simp [LifecycleState.initial]⟩, by
    simp [LifecycleState.initial], by simp [LifecycleState.initial]⟩
  have hs : Attended s := (System.always_of_along (fun _ _ _ hs he hstep => attended_step hs he hstep) hinitial hes).last h
  unfold Attended at hs
  cases hflag : s.shutdownFlag with
  | none =>
    rw [hflag] at hs
    have hle : ∀ z ∈ s.children.zombies, s.now ≤ z.since + reapInterval := fun z hz => (hs.1.2 z hz).le
    refine ⟨fun _ => hle, by simp, fun z hz => Nat.le_trans (hle z hz) ?_⟩
    exact Nat.add_le_add_left (Nat.le_add_right _ _) _
  | some f =>
    rw [hflag] at hs
    refine ⟨by simp, fun f' hf => ?_, fun z hz => ?_⟩
    · rw [← Option.some.inj hf]
      exact hs.left
    · rw [← Nat.add_assoc]
      exact Nat.le_trans hs.left (Nat.add_le_add_right (hs.zombies z hz) _)

/-- The first child's SIGCHLD gets lost; the second child ends while the router is being
shut down. -/
def orphans : List Event :=
  [.reaper (.stream true), .monitor .bind, .reaper .check, .adopt 7, .adopt 8, .die (.exited 7 0) false,
    .tick reapInterval, .reaper .timeout, .reaper (.waitpid (.ok (.exited 7 0))), .reaper (.waitpid (.ok .stillAlive)),
    .monitor .signal, .reaper .check, .die (.signaled 8 15 false) true, .tick (reapInterval + teardownTime)]

theorem zombies_bounded_orphans : ∃ s z, (lifecycle true).run .initial orphans = some s ∧ z ∈ s.children.zombies ∧
    s.now ≤ z.since + (reapInterval + teardownTime) := by
  have hrun : ((lifecycle true).run .initial orphans).any
      (fun s => decide (⟨.signaled 8 15 false, reapInterval⟩ ∈ s.children.zombies)) = true := by
    decide +kernel
  obtain ⟨s, hs, hz⟩ := Option.any_eq_true _ _ |>.mp hrun
  have hz := of_decide_eq_true hz
  have hcheck : (lifecycle true).check (fun s e => decide (Punctual s e)) .initial orphans = true := by decide +kernel
  have halong : (lifecycle true).Along Punctual .initial orphans :=
    (System.along_of_check hcheck).mono fun _ _ => of_decide_eq_true
  exact ⟨s, _, hs, hz, (zombies_bounded halong hs).2.2 _ hz⟩

end RustyRouter.Init
