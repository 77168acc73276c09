import RustyRouter.Net.Address
import RustyRouter.Transition

/-! The tasks of the init process, as a system.

The router is process 1, so that it inherits every orphan and has to reap it, and has to
see to its own shutdown. One task reaps, woken by SIGCHLD or by a timer; one waits for a
signal to shut down; up to five watch a power button. They share the shutdown flag. An
event is one task going from one wait to the next, or the kernel's part: children come and
die, `waitpid` and `reboot` are answered, the clock moves.

The time the flag was set at is only recorded, and so are the calls of `reboot`. -/
namespace RustyRouter.Init
open Transition

/-- `nix::unistd::Pid` -/
abbrev Pid := Nat

/-- `nix::errno::Errno` -/
abbrev Errno := Nat

def echild : Errno := 10

/-! ### Children -/

/-- `nix::sys::wait::WaitStatus` -/
inductive WaitStatus where
  | exited (pid : Pid) (code : Int)
  | signaled (pid : Pid) (signal : Nat) (coreDumped : Bool)
  | stopped (pid : Pid) (signal : Nat)
  | continued (pid : Pid)
  | stillAlive
  deriving DecidableEq, Repr

/-- The child that has ended. -/
def WaitStatus.dead : WaitStatus → Option Pid
  | .exited pid _ => some pid
  | .signaled pid _ _ => some pid
  | _ => none

/-- A child that has ended and was not waited for. -/
structure Zombie where
  status : WaitStatus
  since : Nat
  deriving DecidableEq, Repr

/-- What the kernel keeps of the children of the process. -/
structure Children where
  alive : List Pid
  zombies : List Zombie
  deriving DecidableEq, Repr

namespace Children
variable (c : Children)

/-- No two children have the same number. -/
def adopt (pid : Pid) : Option Children :=
  if pid ∈ c.alive ∨ (∃ z ∈ c.zombies, z.status.dead = some pid) then none else some { c with alive := pid :: c.alive }

def die (status : WaitStatus) (now : Nat) : Option Children :=
  match status.dead with
  | none => none
  | some pid =>
    if pid ∈ c.alive then some ⟨c.alive.erase pid, c.zombies ++ [⟨status, now⟩]⟩ else none

/-- What `waitpid` for any child, without blocking, leaves; `none` where the kernel does
not answer so. It was not asked for children that were stopped, and may fail for other
reasons at any time. -/
def waitpid : Except Errno WaitStatus → Option Children
  | .ok .stillAlive => if c.zombies = [] ∧ c.alive ≠ [] then some c else none
  | .ok status =>
    (c.zombies.find? fun z => z.status = status ∧ status.dead.isSome).map fun z =>
      { c with zombies := c.zombies.erase z }
  | .error e => if e ≠ echild ∨ c.zombies = [] ∧ c.alive = [] then some c else none

end Children

/-- Whether the loop of `reap_zombies` goes round again. -/
def reapsOn : Except Errno WaitStatus → Bool
  | .ok (.exited _ _) => true
  | .ok (.signaled _ _ _) => true
  | _ => false

/-! ### States -/

/-- Where `start_orphan_reaper` is; `streaming` unless it had to fall back to polling. -/
inductive ReaperPhase where
  | starting
  /-- At the head of its loop. -/
  | checking (streaming : Bool)
  | selecting (wakeAt : Nat)
  | sleeping (wakeAt : Nat)
  | reaping (streaming : Bool)
  | done
  deriving DecidableEq, Repr

/-- Where `start_signal_monitor` is. -/
inductive MonitorPhase where
  | starting
  | listening
  | tearingDown (wakeAt : Nat)
  /-- Powering off has failed. -/
  | failed
  /-- In the panic hook, for ever. -/
  | hanging
  deriving DecidableEq, Repr

/-- Where one task of `start_power_button_monitor` is. -/
inductive ButtonPhase where
  | starting
  | listening
  | done
  deriving DecidableEq, Repr

/-- `nix::sys::reboot::RebootMode`, as far as it is used. -/
inductive RebootMode where
  | powerOff
  | autoboot
  deriving DecidableEq, Repr

inductive Caller where
  | monitor
  | button (i : Fin 5)
  | panicHook
  deriving DecidableEq, Repr

structure RebootCall where
  caller : Caller
  mode : RebootMode
  time : Nat
  granted : Bool
  deriving DecidableEq, Repr

structure LifecycleState where
  now : Nat
  /-- Since when it is set. -/
  shutdownFlag : Option Nat
  children : Children
  /-- A SIGCHLD has come that the reaper has not seen. -/
  sigchld : Bool
  reaper : ReaperPhase
  monitor : MonitorPhase
  buttons : Fin 5 → ButtonPhase
  reboots : List RebootCall
  /-- The machine is off, or `main` has returned. -/
  ended : Bool

def LifecycleState.initial : LifecycleState :=
  ⟨0, none, ⟨[], []⟩, false, .starting, .starting, fun _ => .starting, [], false⟩

/-! ### Events -/

inductive ReaperEvent where
  | stream (ok : Bool)
  | check
  | recv
  | timeout
  | waitpid (answer : Except Errno WaitStatus)

/-- `granted` is the answer to the call of `reboot`, if there is one. -/
inductive MonitorEvent where
  | bind
  | bindFails (granted : Bool)
  | signal
  | poweroff (granted : Bool)
  | autoboot (granted : Bool)

/-- `evdev::InputEvent` -/
structure InputEvent where
  eventType : Nat
  code : Nat
  value : Int
  deriving DecidableEq, Repr

inductive ButtonEvent where
  /-- The device is there and gives a stream of events. -/
  | opened (ok : Bool)
  | input (event : InputEvent) (granted : Bool)
  | ends

inductive Event where
  | tick (now : Nat)
  | adopt (pid : Pid)
  /-- The SIGCHLD may get lost. -/
  | die (status : WaitStatus) (delivered : Bool)
  | reaper (e : ReaperEvent)
  | monitor (e : MonitorEvent)
  | button (i : Fin 5) (e : ButtonEvent)

/-- A key event of the power key, pressed. -/
def InputEvent.isPowerPress (event : InputEvent) : Bool :=
  event.eventType == 1 && event.code == 116 && event.value == 1

/-! ### Steps -/

/-- The timer of `select!`. -/
def reapInterval : Nat := Duration.fromSecs 5

/-- The sleep of the fallback. -/
def pollInterval : Nat := Duration.fromMillis 500

/-- The sleep before the router is powered off. -/
def teardownTime : Nat := Duration.fromMillis 500

namespace LifecycleState
variable (s : LifecycleState)

def reaperStep : ReaperEvent → Option LifecycleState
  | .stream ok => if s.reaper = .starting then some { s with sigchld := false, reaper := .checking ok } else none
  | .check =>
    match s.reaper with
    | .checking streaming =>
      if s.shutdownFlag.isSome then some { s with reaper := .done }
      else if streaming then some { s with reaper := .selecting (s.now + reapInterval) }
      else some { s with reaper := .reaping false }
    | _ => none
  | .recv =>
    match s.reaper with
    | .selecting _ => if s.sigchld then some { s with sigchld := false, reaper := .reaping true } else none
    | _ => none
  | .timeout =>
    match s.reaper with
    | .selecting wakeAt => if wakeAt ≤ s.now then some { s with reaper := .reaping true } else none
    | .sleeping wakeAt => if wakeAt ≤ s.now then some { s with reaper := .checking false } else none
    | _ => none
  | .waitpid answer =>
    match s.reaper with
    | .reaping streaming =>
      (s.children.waitpid answer).map fun children =>
        { s with
          children := children
          reaper :=
            if reapsOn answer then .reaping streaming
            else if streaming then .checking true
            else .sleeping (s.now + pollInterval) }
    | _ => none

/-- `shutdown_flag.store(true)` -/
def setFlag : LifecycleState := { s with shutdownFlag := s.shutdownFlag.or (some s.now) }

def reboot (caller : Caller) (mode : RebootMode) (granted : Bool) : LifecycleState :=
  { s with reboots := s.reboots ++ [⟨caller, mode, s.now, granted⟩], ended := granted }

/-- `pid1`: only process 1 stays in its panic hook; without the monitor `main` returns. -/
def monitorStep (pid1 : Bool) : MonitorEvent → Option LifecycleState
  | .bind => if s.monitor = .starting then some { s with monitor := .listening } else none
  | .bindFails granted =>
    if s.monitor = .starting then
      let s := s.reboot .panicHook .autoboot granted
      some { s with monitor := .hanging, ended := s.ended || !pid1 }
    else none
  | .signal =>
    if s.monitor = .listening then some { s.setFlag with monitor := .tearingDown (s.now + teardownTime) } else none
  | .poweroff granted =>
    match s.monitor with
    | .tearingDown wakeAt =>
      if wakeAt ≤ s.now then some { s.reboot .monitor .powerOff granted with monitor := .failed } else none
    | _ => none
  | .autoboot granted =>
    if s.monitor = .failed then some { s.reboot .monitor .autoboot granted with ended := true } else none

def buttonStep (i : Fin 5) : ButtonEvent → Option LifecycleState
  | .opened ok =>
    if s.buttons i = .starting then
      some { s with buttons := Function.update s.buttons i (if ok then .listening else .done) }
    else none
  | .input event granted =>
    if s.buttons i = .listening then
      if event.isPowerPress then
        some { s.setFlag.reboot (.button i) .powerOff granted with buttons := Function.update s.buttons i .done }
      else some s
    else none
  | .ends =>
    if s.buttons i = .listening then some { s with buttons := Function.update s.buttons i .done } else none

end LifecycleState

/-- The tasks take their events in any order, until the end. -/
def lifecycle (pid1 : Bool) : System LifecycleState Event where
  step s e :=
    if s.ended then none
    else
      match e with
      | .tick now => if s.now ≤ now then some { s with now := now } else none
      | .adopt pid => (s.children.adopt pid).map fun children => { s with children := children }
      | .die status delivered =>
        (s.children.die status s.now).map fun children =>
          { s with children := children, sigchld := s.sigchld || delivered }
      | .reaper e => s.reaperStep e
      | .monitor e => s.monitorStep pid1 e
      | .button i e => s.buttonStep i e

/-! ### The steps of the reaper -/

/-- What the answer that ends the loop of `reap_zombies` says of the zombies. -/
theorem waitpid_ends {c c' : Children} {answer : Except Errno WaitStatus} (h : c.waitpid answer = some c')
    (hends : reapsOn answer = false) : c' = c ∧ (c.zombies = [] ∨ ∃ e, e ≠ echild ∧ answer = .error e) := by
  cases answer with
  | error e =>
    simp only [Children.waitpid, Option.ite_none_right_eq_some, Option.some.injEq] at h
    refine ⟨h.2.symm, ?_⟩
    rcases h.1 with he | ⟨hnone, -⟩
    · exact .inr ⟨e, he, rfl⟩
    · exact .inl hnone
  | ok status =>
    cases status with
    | stillAlive =>
      simp only [Children.waitpid, Option.ite_none_right_eq_some, Option.some.injEq] at h
      exact ⟨h.2.symm, .inl h.1.1⟩
    | exited => exact absurd hends (by simp [reapsOn])
    | signaled => exact absurd hends (by simp [reapsOn])
    | _ =>
      obtain ⟨z, hz, -⟩ := Option.map_eq_some_iff.mp h
      exact absurd (List.find?_some hz) (by simp [WaitStatus.dead])

theorem waitpid_subset {c c' : Children} {answer : Except Errno WaitStatus} (h : c.waitpid answer = some c') :
    c'.zombies ⊆ c.zombies := by
  cases hends : reapsOn answer with
  | false =>
    rw [(waitpid_ends h hends).1]
    exact List.Subset.refl _
  | true =>
    have hdead : ∀ status, (c.zombies.find? fun z => z.status = status ∧ status.dead.isSome).map
        (fun z => { c with zombies := c.zombies.erase z }) = some c' → c'.zombies ⊆ c.zombies := by
      intro status hsome
      obtain ⟨z, -, rfl⟩ := Option.map_eq_some_iff.mp hsome
      exact List.erase_subset
    cases answer with
    | error e => exact absurd hends (by simp [reapsOn])
    | ok status =>
      cases status with
      | exited => exact hdead _ h
      | signaled => exact hdead _ h
      | _ => exact absurd hends (by simp [reapsOn])

/-- From where to where the reaper goes, and what becomes of the zombies. -/
inductive Reaps (s : LifecycleState) : ReaperEvent → ReaperPhase → List Zombie → Prop where
  | starts {ok : Bool} (hfrom : s.reaper = .starting) : Reaps s (.stream ok) (.checking ok) s.children.zombies
  | stops {streaming : Bool} (hfrom : s.reaper = .checking streaming) (hflag : s.shutdownFlag ≠ none) :
      Reaps s .check .done s.children.zombies
  | selects (hfrom : s.reaper = .checking true) (hflag : s.shutdownFlag = none) :
      Reaps s .check (.selecting (s.now + reapInterval)) s.children.zombies
  | polls (hfrom : s.reaper = .checking false) (hflag : s.shutdownFlag = none) :
      Reaps s .check (.reaping false) s.children.zombies
  | wakes {wakeAt : Nat} {e : ReaperEvent} (hfrom : s.reaper = .selecting wakeAt) :
      Reaps s e (.reaping true) s.children.zombies
  | rechecks {wakeAt : Nat} (hfrom : s.reaper = .sleeping wakeAt) (hlate : wakeAt ≤ s.now) :
      Reaps s .timeout (.checking false) s.children.zombies
  | reaps {streaming : Bool} {answer : Except Errno WaitStatus} {zombies : List Zombie}
      (hfrom : s.reaper = .reaping streaming) (hsubset : zombies ⊆ s.children.zombies) :
      Reaps s (.waitpid answer) (.reaping streaming) zombies
  | finishes {streaming : Bool} {answer : Except Errno WaitStatus} (hfrom : s.reaper = .reaping streaming)
      (hnone : s.children.zombies = [] ∨ ∃ e, e ≠ echild ∧ answer = .error e) :
      Reaps s (.waitpid answer) (if streaming then .checking true else .sleeping (s.now + pollInterval))
        s.children.zombies

/-- The reaper touches nothing but itself and the children. -/
theorem reaperStep_cases {s t : LifecycleState} {e : ReaperEvent} (h : s.reaperStep e = some t) :
    t = { s with reaper := t.reaper, children := t.children, sigchld := t.sigchld } ∧
      Reaps s e t.reaper t.children.zombies := by
  cases e with
  | stream ok =>
    simp only [LifecycleState.reaperStep, Option.ite_none_right_eq_some, Option.some.injEq] at h
    obtain ⟨hfrom, rfl⟩ := h
    exact ⟨rfl, .starts hfrom⟩
  | check =>
    simp only [LifecycleState.reaperStep] at h
    split at h
    · rename_i streaming hfrom
      cases hflag : s.shutdownFlag with
      | some f =>
        simp only [hflag, Option.isSome_some, if_true, Option.some.injEq] at h
        rw [← h]
        exact ⟨rfl, .stops hfrom (by simp [hflag])⟩
      | none =>
        cases streaming with
        | true =>
          simp only [hflag, Option.isSome_none, Bool.false_eq_true, if_false, if_true, Option.some.injEq] at h
          rw [← h]
          exact ⟨rfl, .selects hfrom hflag⟩
        | false =>
          simp only [hflag, Option.isSome_none, Bool.false_eq_true, if_false, Option.some.injEq] at h
          rw [← h]
          exact ⟨rfl, .polls hfrom hflag⟩
    · exact absurd h (by simp)
  | recv =>
    simp only [LifecycleState.reaperStep] at h
    split at h
    · rename_i wakeAt hfrom
      simp only [Option.ite_none_right_eq_some, Option.some.injEq] at h
      obtain ⟨-, rfl⟩ := h
      exact ⟨rfl, .wakes hfrom⟩
    · exact absurd h (by simp)
  | timeout =>
    simp only [LifecycleState.reaperStep] at h
    split at h
    · rename_i wakeAt hfrom
      simp only [Option.ite_none_right_eq_some, Option.some.injEq] at h
      obtain ⟨-, rfl⟩ := h
      exact ⟨rfl, .wakes hfrom⟩
    · rename_i wakeAt hfrom
      simp only [Option.ite_none_right_eq_some, Option.some.injEq] at h
      obtain ⟨hlate, rfl⟩ := h
      exact ⟨rfl, .rechecks hfrom hlate⟩
    · exact absurd h (by simp)
  | waitpid answer =>
    simp only [LifecycleState.reaperStep] at h
    split at h
    · rename_i streaming hfrom
      obtain ⟨children, hchildren, rfl⟩ := Option.map_eq_some_iff.mp h
      refine ⟨rfl, ?_⟩
      cases hends : reapsOn answer with
      | true =>
        simp only [if_true]
        exact .reaps hfrom (waitpid_subset hchildren)
      | false =>
        obtain ⟨rfl, hnone⟩ := waitpid_ends hchildren hends
        exact .finishes hfrom hnone
    · exact absurd h (by simp)

/-! ### The steps of the others -/

variable {s t : LifecycleState}

inductive Monitors (pid1 : Bool) (s : LifecycleState) : MonitorEvent → LifecycleState → Prop where
  | binds (hfrom : s.monitor = .starting) : Monitors pid1 s .bind { s with monitor := .listening }
  | panics {granted : Bool} (hfrom : s.monitor = .starting) :
      Monitors pid1 s (.bindFails granted)
        { s.reboot .panicHook .autoboot granted with monitor := .hanging, ended := granted || !pid1 }
  | hears (hfrom : s.monitor = .listening) :
      Monitors pid1 s .signal { s.setFlag with monitor := .tearingDown (s.now + teardownTime) }
  | powersOff {wakeAt : Nat} {granted : Bool} (hfrom : s.monitor = .tearingDown wakeAt) (hlate : wakeAt ≤ s.now) :
      Monitors pid1 s (.poweroff granted) { s.reboot .monitor .powerOff granted with monitor := .failed }
  | autoboots {granted : Bool} (hfrom : s.monitor = .failed) :
      Monitors pid1 s (.autoboot granted) { s.reboot .monitor .autoboot granted with ended := true }

theorem monitorStep_cases {pid1 : Bool} {e : MonitorEvent} (h : s.monitorStep pid1 e = some t) : Monitors pid1 s e t := by
  cases e with
  | bind =>
    simp only [LifecycleState.monitorStep, Option.ite_none_right_eq_some, Option.some.injEq] at h
    obtain ⟨hfrom, rfl⟩ := h
    exact .binds hfrom
  | bindFails granted =>
    simp only [LifecycleState.monitorStep, Option.ite_none_right_eq_some, Option.some.injEq] at h
    obtain ⟨hfrom, rfl⟩ := h
    exact .panics hfrom
  | signal =>
    simp only [LifecycleState.monitorStep, Option.ite_none_right_eq_some, Option.some.injEq] at h
    obtain ⟨hfrom, rfl⟩ := h
    exact .hears hfrom
  | poweroff granted =>
    simp only [LifecycleState.monitorStep] at h
    split at h
    · rename_i wakeAt hfrom
      simp only [Option.ite_none_right_eq_some, Option.some.injEq] at h
      obtain ⟨hlate, rfl⟩ := h
      exact .powersOff hfrom hlate
    · exact absurd h (by simp)
  | autoboot granted =>
    simp only [LifecycleState.monitorStep, Option.ite_none_right_eq_some, Option.some.injEq] at h
    obtain ⟨hfrom, rfl⟩ := h
    exact .autoboots hfrom

inductive Watches (s : LifecycleState) (i : Fin 5) : ButtonEvent → LifecycleState → Prop where
  | opens {ok : Bool} (hfrom : s.buttons i = .starting) :
      Watches s i (.opened ok) { s with buttons := Function.update s.buttons i (if ok then .listening else .done) }
  | presses {event : InputEvent} {granted : Bool} (hfrom : s.buttons i = .listening) (hpress : event.isPowerPress = true) :
      Watches s i (.input event granted)
        { s.setFlag.reboot (.button i) .powerOff granted with buttons := Function.update s.buttons i .done }
  | ignores {event : InputEvent} {granted : Bool} (hother : event.isPowerPress = false) :
      Watches s i (.input event granted) s
  | ends (hfrom : s.buttons i = .listening) :
      Watches s i .ends { s with buttons := Function.update s.buttons i .done }

theorem buttonStep_cases {i : Fin 5} {e : ButtonEvent} (h : s.buttonStep i e = some t) : Watches s i e t := by
  cases e with
  | opened ok =>
    simp only [LifecycleState.buttonStep, Option.ite_none_right_eq_some, Option.some.injEq] at h
    obtain ⟨hfrom, rfl⟩ := h
    exact .opens hfrom
  | input event granted =>
    simp only [LifecycleState.buttonStep, Option.ite_none_right_eq_some] at h
    obtain ⟨hfrom, h⟩ := h
    cases hpress : event.isPowerPress with
    | true =>
      rw [hpress, if_pos rfl] at h
      rw [← Option.some.inj h]
      exact .presses hfrom hpress
    | false =>
      rw [hpress, if_neg Bool.false_ne_true] at h
      rw [← Option.some.inj h]
      exact .ignores hpress
  | ends =>
    simp only [LifecycleState.buttonStep, Option.ite_none_right_eq_some, Option.some.injEq] at h
    obtain ⟨hfrom, rfl⟩ := h
    exact .ends hfrom

/-- What the kernel does to the children leaves the zombies there are, and one more if a
child has ended. -/
theorem adopt_zombies {c c' : Children} {pid : Pid} (h : c.adopt pid = some c') : c'.zombies = c.zombies := by
  simp only [Children.adopt, Option.ite_none_left_eq_some, Option.some.injEq] at h
  rw [← h.2]

theorem die_zombies {c c' : Children} {status : WaitStatus} {now : Nat} (h : c.die status now = some c') :
    c'.zombies = c.zombies ++ [⟨status, now⟩] := by
  simp only [Children.die] at h
  split at h
  · exact absurd h (by simp)
  · simp only [Option.ite_none_right_eq_some, Option.some.injEq] at h
    rw [← h.2]

end RustyRouter.Init
