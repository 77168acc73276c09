import RustyRouter.Backoff
import RustyRouter.Transition
import RustyRouter.Wan.Client

/-! The SNTP client.

One task that goes round a loop: without a WAN address it waits; with one it asks a time
server and sets the clock. An event is one round, with the shared lease as the round finds
it and what the resolver, the time server and the kernel answer. Dates count nanoseconds
from the Unix epoch, and may lie before it. A panic ends the task, and by the hook of the
program the router with it. -/
namespace RustyRouter.Sntp
open Transition

def syncInterval : Nat := Duration.fromSecs 1800

def retryInterval : Nat := Duration.fromSecs 60

def maxRetryInterval : Nat := Duration.fromSecs 900

/-- How long the task waits for a WAN address. -/
def wanInterval : Nat := Duration.fromSecs 5

/-- A UTC date. -/
abbrev Date := Int

/-- `nix::sys::time::TimeSpec` -/
structure TimeSpec where
  tvSec : Nat
  tvNsec : Nat
  deriving DecidableEq, Repr

/-- `TimeSpec::from` a duration. -/
def TimeSpec.ofDuration (d : Nat) : TimeSpec := ⟨Duration.asSecs d, d % 1000000000⟩

/-- `TimeDelta::to_std`; there is no negative duration. -/
def toStd (delta : Int) : Option Nat := if delta < 0 then none else some delta.toNat

/-- What the others answer; the texts of their errors are theirs. -/
structure Answers where
  resolve : Except String Ipv4Addr
  synchronize : Ipv4Addr → Except String (Except String Date)
  clockSettime : TimeSpec → Except String Unit

/-- How a call ends. -/
inductive Outcome where
  | ok (date : Date)
  | err (text : String)
  | panic
  deriving DecidableEq, Repr

def syncTime (answers : Answers) : Outcome :=
  match answers.resolve with
  | .error e => .err e
  | .ok ntpServerIp =>
    match answers.synchronize ntpServerIp with
    | .error e => .err ("NTP synchronization failed: " ++ e)
    | .ok result =>
      match result with
      | .error e => .err ("Failed to convert NTP datetime: " ++ e)
      | .ok date =>
        match toStd date with
        | none => .panic  -- `unwrap`
        | some duration =>
          match answers.clockSettime (TimeSpec.ofDuration duration) with
          | .error e => .err ("Failed to set system clock: " ++ e)
          | .ok _ => .ok date

/-- A round of the loop. -/
structure Event where
  lease : Wan.WanLease
  answers : Answers

structure SntpState where
  currentRetryDelay : Nat
  panicked : Bool
  /-- How long the task slept, each time. -/
  sleeps : List Nat
  deriving DecidableEq, Repr

def SntpState.initial : SntpState := ⟨retryInterval, false, []⟩

def round (s : SntpState) (e : Event) : SntpState :=
  if e.lease.ip.isSome then
    match syncTime e.answers with
    | .ok _ => { s with currentRetryDelay := retryInterval, sleeps := s.sleeps ++ [syncInterval] }
    | .err _ =>
      { s with
        currentRetryDelay := min (s.currentRetryDelay * 2) maxRetryInterval
        sleeps := s.sleeps ++ [s.currentRetryDelay] }
    | .panic => { s with panicked := true }
  else { s with currentRetryDelay := retryInterval, sleeps := s.sleeps ++ [wanInterval] }

/-- `start_sntp_client` -/
def sntpClient : System SntpState Event where
  step s e := if s.panicked then none else some (round s e)

/-! ### When a synchronisation panics -/

/-- The date the time server's answer is converted to, if it comes to that. -/
def Answers.date (answers : Answers) : Option Date :=
  match answers.resolve with
  | .error _ => none
  | .ok ip =>
    match answers.synchronize ip with
    | .ok (.ok date) => some date
    | _ => none

theorem toStd_eq_none {delta : Int} : toStd delta = none ↔ delta < 0 := by
  unfold toStd
  split
  · rename_i hneg
    exact iff_of_true rfl hneg
  · rename_i hpos
    exact iff_of_false (by simp) hpos

/-- Only a date before the epoch makes it panic. -/
theorem syncTime_eq_panic {answers : Answers} :
    syncTime answers = .panic ↔ ∃ date, answers.date = some date ∧ date < 0 := by
  unfold syncTime Answers.date
  cases answers.resolve with
  | error e => simp
  | ok ip =>
    cases hsync : answers.synchronize ip with
    | error e => simp [hsync]
    | ok result =>
      cases result with
      | error e => simp [hsync]
      | ok date =>
        simp only [hsync, Option.some.injEq, exists_eq_left', ← toStd_eq_none]
        cases toStd date with
        | none => simp
        | some duration => cases hset : answers.clockSettime (TimeSpec.ofDuration duration) <;> simp [hset]

/-- A round that attempts a synchronisation, and fails. -/
def Event.failed (e : Event) : Bool :=
  e.lease.ip.isSome && match syncTime e.answers with
    | .err _ => true
    | _ => false

/-- The number of failed attempts since the last success, WAN loss or start. -/
def failures (es : List Event) : Nat := (es.reverse.takeWhile Event.failed).length

/-- The date of the round is not before the epoch. -/
def FromEpoch (e : Event) : Prop :=
  e.lease.ip.isSome = true → ∀ date, e.answers.date = some date → 0 ≤ date

theorem failures_snoc_of_failed {es : List Event} {e : Event} (h : e.failed = true) :
    failures (es ++ [e]) = failures es + 1 := by
  rw [failures, List.reverse_append, List.reverse_singleton, List.singleton_append,
    List.takeWhile_cons_of_pos h]
  rfl

theorem failures_snoc_of_not_failed {es : List Event} {e : Event} (h : e.failed = false) :
    failures (es ++ [e]) = 0 := by
  rw [failures, List.reverse_append, List.reverse_singleton, List.singleton_append,
    List.takeWhile_cons_of_neg (by simp [h])]
  rfl

/-! ### Runs -/

/-- The retry delay after `k` failed attempts in a row. -/
def retryDelay (k : Nat) : Nat := min (Duration.fromSecs 60 * 2 ^ k) (Duration.fromSecs 900)

theorem retryDelay_zero : retryDelay 0 = retryInterval := Backoff.after_zero (by decide)

theorem retryDelay_succ (k : Nat) : min (retryDelay k * 2) maxRetryInterval = retryDelay (k + 1) :=
  Backoff.next_after

theorem sntp_step_eq_some {s t : SntpState} {e : Event} :
    sntpClient.step s e = some t ↔ s.panicked = false ∧ round s e = t := by
  simp [sntpClient]

theorem round_survives_iff {s : SntpState} {e : Event} (hs : s.panicked = false) :
    (round s e).panicked = false ↔ FromEpoch e := by
  unfold round FromEpoch
  by_cases hwan : e.lease.ip.isSome = true
  · rw [if_pos hwan]
    have hpanic : syncTime e.answers = .panic ↔ ∃ date, e.answers.date = some date ∧ date < 0 :=
      syncTime_eq_panic
    cases hsync : syncTime e.answers with
    | panic =>
      obtain ⟨date, hdate, hneg⟩ := hpanic.mp hsync
      exact iff_of_false (by simp) fun h => absurd (h hwan date hdate) (Int.not_le.mpr hneg)
    | _ =>
      refine iff_of_true hs fun _ date hdate => ?_
      by_contra hneg
      have hsync' := hpanic.mpr ⟨date, hdate, Int.not_le.mp hneg⟩
      rw [hsync] at hsync'
      contradiction
  · rw [if_neg hwan]
    exact iff_of_true hs fun h => absurd h hwan

/-- What a round makes of the delay. -/
theorem round_delay {s : SntpState} {es : List Event} {e : Event}
    (hdelay : s.currentRetryDelay = retryDelay (failures es)) (hround : (round s e).panicked = false) :
    (round s e).currentRetryDelay = retryDelay (failures (es ++ [e])) := by
  by_cases hwan : e.lease.ip.isSome = true
  · cases hsync : syncTime e.answers with
    | ok date =>
      rw [failures_snoc_of_not_failed (by simp [Event.failed, hsync]), retryDelay_zero]
      simp [round, hwan, hsync]
    | err text =>
      rw [failures_snoc_of_failed (by simp [Event.failed, hwan, hsync]), ← retryDelay_succ, ← hdelay]
      simp [round, hwan, hsync]
    | panic => simp [round, hwan, hsync] at hround
  · rw [failures_snoc_of_not_failed (by simp [Event.failed, hwan]), retryDelay_zero, round, if_neg hwan]

theorem run_delay {es : List Event} {s : SntpState} (hrun : sntpClient.run .initial es = some s)
    (hs : s.panicked = false) : s.currentRetryDelay = retryDelay (failures es) := by
  revert hs
  refine sntpClient.run_history (I := fun es s => s.panicked = false →
    s.currentRetryDelay = retryDelay (failures es)) (fun _ => retryDelay_zero.symm) ?_ hrun
  intro before t e u _ ih hstep hu
  obtain ⟨ht, rfl⟩ := sntp_step_eq_some.mp hstep
  exact round_delay (ih ht) hu

/-- **The task survives dates from the epoch on, and no others.** Over any rounds, it never
panics and its retry delay is the one of its failed attempts, precisely when no date that a
synchronisation gets lies before 1970. -/
theorem sntp_survives_iff (es : List Event) :
    (∀ before s, before <+: es → sntpClient.run .initial before = some s →
      s.panicked = false ∧
        s.currentRetryDelay = min (Duration.fromSecs 60 * 2 ^ failures before) (Duration.fromSecs 900)) ↔
    sntpClient.Along (fun _ e => FromEpoch e) .initial es := by
  have hiff : sntpClient.Always (fun s => s.panicked = false) .initial es ↔
      sntpClient.Along (fun _ e => FromEpoch e) .initial es := by
    refine System.always_iff_along (I := fun _ => True) (fun _ _ _ _ _ => trivial) ?_ trivial rfl
    intro s e t _ hs hstep
    obtain ⟨-, rfl⟩ := sntp_step_eq_some.mp hstep
    exact round_survives_iff hs
  rw [← hiff]
  constructor
  · intro h before s hb hrun
    exact (h before s hb hrun).1
  · intro h before s hb hrun
    have hs := h before s hb hrun
    exact ⟨hs, run_delay hrun hs⟩

/-- A time server whose date is a second before the epoch. -/
theorem sntp_panics : ¬ ∀ (es : List Event) (s : SntpState), sntpClient.run .initial es = some s →
    s.panicked = false ∧
      s.currentRetryDelay = min (Duration.fromSecs 60 * 2 ^ failures es) (Duration.fromSecs 900) := by
  intro h
  let answers : Answers := ⟨.ok (Ipv4Addr.new 192 0 2 1), fun _ => .ok (.ok (-1000000000)), fun _ => .ok ()⟩
  let lease : Wan.WanLease := { Wan.WanLease.default with ip := some (Ipv4Addr.new 10 0 2 15) }
  exact absurd (h [⟨lease, answers⟩] ⟨retryInterval, true, []⟩ rfl).1 (by decide)

end RustyRouter.Sntp
