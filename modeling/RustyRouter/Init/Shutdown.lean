import RustyRouter.Init.Lifecycle

/-! The router goes down in order.

Several tasks may ask the kernel for the end, each in its own way: the monitor powers the
router off, and reboots it if that fails; a power button only powers it off; the panic hook
only reboots it. Nobody asks twice for the same, nobody but the panic hook asks before the
others are told by the flag, and the monitor gives them half a second (`shutdown_orderly`).
The invariant says for each phase of a task which calls it has made. -/
namespace RustyRouter.Init
open Transition

variable {pid1 : Bool} {s t : LifecycleState} {e : Event} {es : List Event}

/-- What this caller has called `reboot` for, in order. -/
def LifecycleState.callsOf (s : LifecycleState) (caller : Caller) : List RebootMode :=
  (s.reboots.filter fun call => call.caller = caller).map RebootCall.mode

theorem callsOf_reboot (s : LifecycleState) (caller : Caller) (mode : RebootMode) (granted : Bool) :
    (s.reboot caller mode granted).callsOf caller = s.callsOf caller ++ [mode] := by
  simp [LifecycleState.callsOf, LifecycleState.reboot, List.filter_append]

theorem callsOf_reboot_of_ne (s : LifecycleState) {caller other : Caller} (h : caller ≠ other) (mode : RebootMode)
    (granted : Bool) : (s.reboot caller mode granted).callsOf other = s.callsOf other := by
  simp [LifecycleState.callsOf, LifecycleState.reboot, List.filter_append, h]

/-! ### The invariant -/

/-- Set, no later than that. -/
def LifecycleState.FlaggedBy (s : LifecycleState) (time : Nat) : Prop := ∃ f, s.shutdownFlag = some f ∧ f ≤ time

/-- What the monitor, or the panic hook in its place, has called for. -/
def MonitorPhase.After (s : LifecycleState) : MonitorPhase → Prop
  | .starting | .listening => s.callsOf .monitor = [] ∧ s.callsOf .panicHook = []
  | .tearingDown wakeAt =>
    s.callsOf .monitor = [] ∧ s.callsOf .panicHook = [] ∧ ∃ f, s.shutdownFlag = some f ∧ f + teardownTime ≤ wakeAt
  | .failed =>
    (s.callsOf .monitor = [.powerOff] ∨ s.ended = true ∧ s.callsOf .monitor = [.powerOff, .autoboot]) ∧
      s.callsOf .panicHook = [] ∧ ∃ f, s.shutdownFlag = some f ∧ f + teardownTime ≤ s.now
  | .hanging => s.callsOf .monitor = [] ∧ s.callsOf .panicHook = [.autoboot]

/-- What a call of `reboot` follows on. -/
def RebootCall.Follows (s : LifecycleState) (call : RebootCall) : Prop :=
  match call.caller with
  | .monitor => ∃ f, s.shutdownFlag = some f ∧ f + teardownTime ≤ call.time
  | .button _ => s.FlaggedBy call.time
  | .panicHook => True

structure Orderly (s : LifecycleState) : Prop where
  past : ∀ f, s.shutdownFlag = some f → f ≤ s.now
  monitor : s.monitor.After s
  buttons : ∀ i, s.callsOf (.button i) = [] ∨ s.buttons i = .done ∧ s.callsOf (.button i) = [.powerOff]
  follows : ∀ call ∈ s.reboots, call.Follows s
  refused : s.ended = false → ∀ call ∈ s.reboots, call.granted = false
  last : ∀ call ∈ s.reboots.dropLast, call.granted = false

/-! ### What a step keeps -/

theorem RebootCall.Follows.keeps {call : RebootCall} (h : call.Follows s)
    (hflag : ∀ f, s.shutdownFlag = some f → t.shutdownFlag = some f) : call.Follows t := by
  unfold RebootCall.Follows at h ⊢
  split
  · rename_i hcaller
    rw [hcaller] at h
    obtain ⟨f, hf, hle⟩ := h
    exact ⟨f, hflag f hf, hle⟩
  · rename_i hcaller
    rw [hcaller] at h
    obtain ⟨f, hf, hle⟩ := h
    exact ⟨f, hflag f hf, hle⟩
  · trivial

theorem MonitorPhase.After.keeps {phase : MonitorPhase} (h : phase.After s)
    (hflag : ∀ f, s.shutdownFlag = some f → t.shutdownFlag = some f) (hnow : s.now ≤ t.now)
    (hended : s.ended = true → t.ended = true) (hmonitor : t.callsOf .monitor = s.callsOf .monitor)
    (hpanic : t.callsOf .panicHook = s.callsOf .panicHook) : phase.After t := by
  cases phase with
  | tearingDown wakeAt =>
    obtain ⟨hcalls, hnone, f, hf, hle⟩ := h
    exact ⟨hmonitor.trans hcalls, hpanic.trans hnone, f, hflag f hf, hle⟩
  | failed =>
    obtain ⟨hcalls, hnone, f, hf, hle⟩ := h
    refine ⟨?_, hpanic.trans hnone, f, hflag f hf, Nat.le_trans hle hnow⟩
    rw [hmonitor]
    exact hcalls.imp id fun h => ⟨hended h.1, h.2⟩
  | _ => exact ⟨hmonitor.trans h.1, hpanic.trans h.2⟩

/-- A step without a call. -/
theorem Orderly.quiet (hs : Orderly s) (hflag : ∀ f, s.shutdownFlag = some f → t.shutdownFlag = some f)
    (hnow : s.now ≤ t.now) (hreboots : t.reboots = s.reboots)
    (hended : t.ended = s.ended) (hpast : ∀ f, t.shutdownFlag = some f → f ≤ t.now)
    (hbuttons : ∀ i, s.buttons i = .done → t.buttons i = .done) (hmonitor : s.monitor.After t → t.monitor.After t) :
    Orderly t := by
  have hcalls : ∀ caller, t.callsOf caller = s.callsOf caller := fun caller => by rw [LifecycleState.callsOf, hreboots]; rfl
  refine ⟨hpast, hmonitor ?_, fun i => ?_, fun call hcall => ?_, fun hlive => ?_, ?_⟩
  · exact hs.monitor.keeps hflag hnow (fun h => hended.trans h) (hcalls _) (hcalls _)
  · rw [hcalls]
    exact (hs.buttons i).imp id fun h => ⟨hbuttons i h.1, h.2⟩
  · exact (hs.follows call (hreboots ▸ hcall)).keeps hflag
  · rw [hreboots]
    exact hs.refused (hended.symm.trans hlive)
  · rw [hreboots]
    exact hs.last

/-- A step with one. -/
theorem Orderly.calls (hs : Orderly s) (hflag : ∀ f, s.shutdownFlag = some f → t.shutdownFlag = some f)
    (hlive : s.ended = false) {call : RebootCall} (hreboots : t.reboots = s.reboots ++ [call])
    (hended : call.granted = true → t.ended = true) (hpast : ∀ f, t.shutdownFlag = some f → f ≤ t.now)
    (hfollows : call.Follows t) (hmonitor : t.monitor.After t)
    (hbuttons : ∀ i, t.callsOf (.button i) = [] ∨ t.buttons i = .done ∧ t.callsOf (.button i) = [.powerOff]) : Orderly t := by
  have hrefused := hs.refused hlive
  refine ⟨hpast, hmonitor, hbuttons, fun other hother => ?_, fun hlive' other hother => ?_, ?_⟩
  · rw [hreboots, List.mem_append, List.mem_singleton] at hother
    rcases hother with hother | rfl
    · exact (hs.follows other hother).keeps hflag
    · exact hfollows
  · rw [hreboots, List.mem_append, List.mem_singleton] at hother
    rcases hother with hother | rfl
    · exact hrefused other hother
    · cases hgranted : other.granted with
      | false => rfl
      | true => exact absurd (hlive'.symm.trans (hended hgranted)) Bool.false_ne_true
  · rw [hreboots, List.dropLast_concat]
    exact hrefused

/-- A button that neither does anything nor calls. -/
theorem Orderly.button (hs : Orderly s) {i : Fin 5} (hcalls : t.callsOf (.button i) = s.callsOf (.button i))
    (hbutton : t.buttons i = s.buttons i) :
    t.callsOf (.button i) = [] ∨ t.buttons i = .done ∧ t.callsOf (.button i) = [.powerOff] := by
  rw [hcalls, hbutton]
  exact hs.buttons i

theorem setFlag_keeps (s : LifecycleState) : ∀ f, s.shutdownFlag = some f → s.setFlag.shutdownFlag = some f := by
  intro f hf
  simp [LifecycleState.setFlag, hf]

/-- Once it is set it is set, and not in the future. -/
theorem setFlag_set (hpast : ∀ f, s.shutdownFlag = some f → f ≤ s.now) :
    ∃ f, s.setFlag.shutdownFlag = some f ∧ f ≤ s.now := by
  cases hflag : s.shutdownFlag with
  | none => exact ⟨s.now, by simp [LifecycleState.setFlag, hflag], Nat.le_refl _⟩
  | some f => exact ⟨f, setFlag_keeps s f hflag, hpast f hflag⟩

theorem setFlag_past (hpast : ∀ f, s.shutdownFlag = some f → f ≤ s.now) :
    ∀ f, s.setFlag.shutdownFlag = some f → f ≤ s.now := by
  intro f hf
  obtain ⟨f', hf', hle⟩ := setFlag_set hpast
  rwa [Option.some.inj (hf.symm.trans hf')]

/-! ### One step -/

theorem Monitors.orderly {e : MonitorEvent} (h : Monitors pid1 s e t) (hs : Orderly s) (hlive : s.ended = false) :
    Orderly t := by
  have hmonitor := hs.monitor
  cases h with
  | binds hfrom =>
    rw [hfrom] at hmonitor
    exact hs.quiet (fun _ hf => hf) (Nat.le_refl _) rfl rfl hs.past (fun _ hdone => hdone) (fun _ => hmonitor)
  | hears hfrom =>
    rw [hfrom] at hmonitor
    refine hs.quiet (setFlag_keeps s) (Nat.le_refl _) rfl rfl (setFlag_past hs.past) (fun _ hdone => hdone) fun _ => ?_
    obtain ⟨f, hf, hle⟩ := setFlag_set hs.past
    exact ⟨hmonitor.1, hmonitor.2, f, hf, Nat.add_le_add_right hle _⟩
  | @panics granted hfrom =>
    rw [hfrom] at hmonitor
    refine hs.calls (fun _ hf => hf) hlive rfl (fun hgranted => ?_) hs.past trivial ?_ fun i => ?_
    · obtain rfl : granted = true := hgranted
      rfl
    · exact ⟨(callsOf_reboot_of_ne s (by simp) _ _).trans hmonitor.1,
        (callsOf_reboot s _ _ _).trans (congrArg (· ++ _) hmonitor.2)⟩
    · exact hs.button (callsOf_reboot_of_ne s (by simp) _ _) rfl
  | @powersOff wakeAt granted hfrom hlate =>
    rw [hfrom] at hmonitor
    obtain ⟨hcalls, hnone, f, hf, hle⟩ := hmonitor
    refine hs.calls (fun _ hf => hf) hlive rfl (fun hgranted => hgranted) hs.past ⟨f, hf, Nat.le_trans hle hlate⟩ ?_ fun i => ?_
    · refine ⟨.inl ?_, (callsOf_reboot_of_ne s (by simp) _ _).trans hnone, f, hf, Nat.le_trans hle hlate⟩
      exact (callsOf_reboot s _ _ _).trans (congrArg (· ++ _) hcalls)
    · exact hs.button (callsOf_reboot_of_ne s (by simp) _ _) rfl
  | @autoboots granted hfrom =>
    rw [hfrom] at hmonitor
    obtain ⟨hcalls, hnone, f, hf, hle⟩ := hmonitor
    have hcalls : s.callsOf .monitor = [.powerOff] := hcalls.resolve_right fun h => by simp [hlive] at h
    refine hs.calls (fun _ hf => hf) hlive rfl (fun _ => rfl) hs.past ⟨f, hf, hle⟩ ?_ fun i => ?_
    · show MonitorPhase.After _ s.monitor
      rw [hfrom]
      refine ⟨.inr ⟨rfl, ?_⟩, (callsOf_reboot_of_ne s (by simp) _ _).trans hnone, f, hf, hle⟩
      exact (callsOf_reboot s _ _ _).trans (congrArg (· ++ _) hcalls)
    · exact hs.button (callsOf_reboot_of_ne s (by simp) _ _) rfl

theorem Watches.orderly {i : Fin 5} {e : ButtonEvent} (h : Watches s i e t) (hs : Orderly s) (hlive : s.ended = false) :
    Orderly t := by
  have hothers : ∀ (phase : ButtonPhase) j, s.buttons i ≠ .done → s.buttons j = .done →
      Function.update s.buttons i phase j = .done := by
    intro phase j hi hj
    have hne : j ≠ i := by
      rintro rfl
      exact hi hj
    rwa [Function.update_of_ne hne]
  cases h with
  | opens hfrom =>
    exact hs.quiet (fun _ hf => hf) (Nat.le_refl _) rfl rfl hs.past (fun j hj => hothers _ j (by simp [hfrom]) hj) (fun h => h)
  | ends hfrom =>
    exact hs.quiet (fun _ hf => hf) (Nat.le_refl _) rfl rfl hs.past (fun j hj => hothers _ j (by simp [hfrom]) hj) (fun h => h)
  | ignores => exact hs
  | @presses event granted hfrom hpress =>
    have hnone : s.callsOf (.button i) = [] := (hs.buttons i).resolve_right fun h => by simp [hfrom] at h
    refine hs.calls (setFlag_keeps s) hlive rfl (fun hgranted => hgranted) (setFlag_past hs.past) (setFlag_set hs.past) ?_
      fun j => ?_
    · exact hs.monitor.keeps (setFlag_keeps s) (Nat.le_refl _) (fun hended => absurd (hlive.symm.trans hended) (by simp))
        (callsOf_reboot_of_ne s.setFlag (by simp) _ _) (callsOf_reboot_of_ne s.setFlag (by simp) _ _)
    · by_cases hj : j = i
      · subst hj
        refine .inr ⟨Function.update_self .., ?_⟩
        exact (callsOf_reboot s.setFlag _ _ _).trans (congrArg (· ++ _) hnone)
      · refine hs.button ?_ (Function.update_of_ne hj ..)
        exact callsOf_reboot_of_ne s.setFlag (by simpa using Ne.symm hj) _ _

theorem orderly_step (hs : Orderly s) (h : (lifecycle pid1).step s e = some t) : Orderly t := by
  simp only [lifecycle, Option.ite_none_left_eq_some, Bool.not_eq_true] at h
  obtain ⟨hlive, h⟩ := h
  cases e with
  | tick now =>
    simp only [Option.ite_none_right_eq_some, Option.some.injEq] at h
    obtain ⟨hle, rfl⟩ := h
    exact hs.quiet (fun _ hf => hf) hle rfl rfl (fun f hf => Nat.le_trans (hs.past f hf) hle) (fun _ hdone => hdone)
      (fun h => h)
  | adopt pid =>
    obtain ⟨children, -, rfl⟩ := Option.map_eq_some_iff.mp h
    exact hs.quiet (fun _ hf => hf) (Nat.le_refl _) rfl rfl hs.past (fun _ hdone => hdone) (fun h => h)
  | die status delivered =>
    obtain ⟨children, -, rfl⟩ := Option.map_eq_some_iff.mp h
    exact hs.quiet (fun _ hf => hf) (Nat.le_refl _) rfl rfl hs.past (fun _ hdone => hdone) (fun h => h)
  | reaper e =>
    rw [(reaperStep_cases h).1]
    exact hs.quiet (fun _ hf => hf) (Nat.le_refl _) rfl rfl hs.past (fun _ hdone => hdone) (fun h => h)
  | monitor e => exact (monitorStep_cases h).orderly hs hlive
  | button i e => exact (buttonStep_cases h).orderly hs hlive

/-! ### Whole runs -/

theorem initial_orderly : Orderly .initial where
  past f hf := absurd hf (by simp [LifecycleState.initial])
  monitor := ⟨rfl, rfl⟩
  buttons _ := .inl rfl
  follows call hcall := absurd hcall (by simp [LifecycleState.initial])
  refused _ call hcall := absurd hcall (by simp [LifecycleState.initial])
  last call hcall := absurd hcall (by simp [LifecycleState.initial])

/-- **The router goes down in order.** Over any run: the monitor powers it off, and then
reboots it; a button powers it off, once; the panic hook reboots it, in the place of the
monitor. All but the last call were refused. And the flag is set before a button calls, and
half a second before the monitor does. -/
theorem shutdown_orderly (h : (lifecycle pid1).run .initial es = some s) :
    s.callsOf .monitor <+: [.powerOff, .autoboot] ∧ (∀ i, s.callsOf (.button i) <+: [.powerOff]) ∧
    s.callsOf .panicHook <+: [.autoboot] ∧ (s.callsOf .monitor = [] ∨ s.callsOf .panicHook = []) ∧
    (∀ call ∈ s.reboots.dropLast, call.granted = false) ∧
    ∀ call ∈ s.reboots, call.caller ≠ .panicHook → ∃ f, s.shutdownFlag = some f ∧ f ≤ call.time ∧
      (call.caller = .monitor → f + teardownTime ≤ call.time) := by
  have hs : Orderly s := (lifecycle pid1).run_invariant (fun _ _ _ hs hstep => orderly_step hs hstep) initial_orderly h
  have hmonitor : s.callsOf .monitor <+: [.powerOff, .autoboot] ∧ s.callsOf .panicHook <+: [.autoboot] ∧
      (s.callsOf .monitor = [] ∨ s.callsOf .panicHook = []) := by
    have hafter := hs.monitor
    cases hphase : s.monitor with
    | failed =>
      rw [hphase] at hafter
      obtain ⟨hcalls, hnone, -⟩ := hafter
      rw [hnone]
      refine ⟨?_, List.nil_prefix, .inr rfl⟩
      rcases hcalls with hcalls | ⟨-, hcalls⟩
      · rw [hcalls]
        exact List.prefix_append [RebootMode.powerOff] [.autoboot]
      · rw [hcalls]
    | hanging =>
      rw [hphase] at hafter
      rw [hafter.1, hafter.2]
      exact ⟨List.nil_prefix, List.prefix_refl _, .inl rfl⟩
    | tearingDown wakeAt =>
      rw [hphase] at hafter
      rw [hafter.1, hafter.2.1]
      exact ⟨List.nil_prefix, List.nil_prefix, .inl rfl⟩
    | starting | listening =>
      rw [hphase] at hafter
      rw [hafter.1, hafter.2]
      exact ⟨List.nil_prefix, List.nil_prefix, .inl rfl⟩
  refine ⟨hmonitor.1, fun i => ?_, hmonitor.2.1, hmonitor.2.2, hs.last, fun call hcall hne => ?_⟩
  · rcases hs.buttons i with hnone | ⟨-, hone⟩
    · rw [hnone]
      exact List.nil_prefix
    · rw [hone]
  · have hfollows := hs.follows call hcall
    unfold RebootCall.Follows at hfollows
    split at hfollows
    · obtain ⟨f, hf, hle⟩ := hfollows
      exact ⟨f, hf, Nat.le_trans (Nat.le_add_right _ _) hle, fun _ => hle⟩
    · rename_i hbutton
      obtain ⟨f, hf, hle⟩ := hfollows
      refine ⟨f, hf, hle, fun hmonitor => ?_⟩
      exact absurd (hbutton.symm.trans hmonitor) (by simp)
    · rename_i hpanic
      exact absurd hpanic hne

/-- The kernel refuses the power button, then the monitor, which reboots the router. -/
def refusals : List Event :=
  [.monitor .bind, .button 2 (.opened true), .button 2 (.input ⟨1, 116, 1⟩ false), .monitor .signal, .tick teardownTime,
    .monitor (.poweroff false), .monitor (.autoboot true)]

theorem shutdown_orderly_refusals : ∃ s, (lifecycle true).run .initial refusals = some s ∧ s.reboots.length = 3 ∧
    ∀ call ∈ s.reboots.dropLast, call.granted = false := by
  have hrun : ((lifecycle true).run .initial refusals).any (fun s => decide (s.reboots.length = 3)) = true := by
    decide +kernel
  obtain ⟨s, hs, hlen⟩ := Option.any_eq_true _ _ |>.mp hrun
  exact ⟨s, hs, of_decide_eq_true hlen, (shutdown_orderly hs).2.2.2.2.1⟩

end RustyRouter.Init
