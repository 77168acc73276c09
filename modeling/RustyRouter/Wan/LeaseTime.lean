import RustyRouter.Wan.Moves

/-! How long a lease is kept.

A client that nobody answers asks again and again until its lease runs out, and each time
listens for the retry interval: half of what is left to the next deadline, but a minute
at least. The minute is what can take the last window past the end of the lease. `Visited`
are the times at which such a client opens a window, counted from the start of the lease; a
lease fits when none of them falls into its last minute. A client that is granted fitting
leases only never keeps one past its end, and a lease that does not fit is kept too long
by the client that nobody answers (`kept_within_iff`). -/
namespace RustyRouter.Wan
open Transition

/-! ### The schedule of an unanswered renewal -/

/-- How long a round of the renewal listens, when it starts after `elapsed` seconds. -/
def retryInterval (leaseSecs elapsed : Nat) : Nat :=
  (calculateRenewalParams elapsed (t2Secs leaseSecs) leaseSecs none).retryInterval

/-- It does not depend on the server. -/
theorem calculateRenewalParams_retryInterval (leaseSecs elapsed : Nat) (serverIp : Option Ipv4Addr) :
    (calculateRenewalParams elapsed (t2Secs leaseSecs) leaseSecs serverIp).retryInterval =
      retryInterval leaseSecs elapsed := by
  unfold retryInterval calculateRenewalParams
  split <;> rfl

theorem le_retryInterval (leaseSecs elapsed : Nat) : 60 ≤ retryInterval leaseSecs elapsed := by
  unfold retryInterval calculateRenewalParams
  split
  · exact Nat.le_max_right _ _
  · exact Nat.le_max_right _ _

/-- A window that starts before the last minute ends within the lease. -/
theorem retryInterval_fits {leaseSecs elapsed : Nat} (h : elapsed + 60 ≤ leaseSecs) :
    elapsed + retryInterval leaseSecs elapsed ≤ leaseSecs := by
  unfold retryInterval calculateRenewalParams
  split
  · show elapsed + max ((leaseSecs - elapsed) / 2) 60 ≤ leaseSecs
    omega
  · show elapsed + max ((t2Secs leaseSecs - elapsed) / 2) 60 ≤ leaseSecs
    unfold t2Secs
    omega

/-- The elapsed seconds at which an unanswered renewal that starts at `start` opens a window. -/
inductive Visited (leaseSecs start : Nat) : Nat → Prop where
  | start : Visited leaseSecs start start
  | next {elapsed : Nat} (h : Visited leaseSecs start elapsed) (hlt : elapsed < leaseSecs) :
      Visited leaseSecs start (elapsed + retryInterval leaseSecs elapsed)

/-- The unanswered renewal never opens a window in the last minute of the lease. -/
def LeaseFits (leaseSecs : Nat) : Prop :=
  ∀ elapsed, Visited leaseSecs (t1Secs leaseSecs) elapsed → elapsed < leaseSecs →
    elapsed + 60 ≤ leaseSecs

theorem visited_iff {leaseSecs start elapsed : Nat} :
    Visited leaseSecs start elapsed ↔ elapsed = start ∨
      start < leaseSecs ∧ Visited leaseSecs (start + retryInterval leaseSecs start) elapsed := by
  refine ⟨fun h => ?_, fun h => ?_⟩
  · induction h with
    | start => exact .inl rfl
    | next h hlt ih =>
      rcases ih with rfl | ⟨hstart, ih⟩
      · exact .inr ⟨hlt, .start⟩
      · exact .inr ⟨hstart, .next ih hlt⟩
  · rcases h with rfl | ⟨hstart, h⟩
    · exact .start
    · induction h with
      | start => exact .next .start hstart
      | next _ hlt ih => exact .next ih hlt

/-- Walks the schedule from `elapsed` on. -/
def walkFits (leaseSecs : Nat) : Nat → Nat → Bool
  | 0, _ => true
  | fuel + 1, elapsed =>
    if leaseSecs ≤ elapsed then true
    else decide (elapsed + 60 ≤ leaseSecs) &&
      walkFits leaseSecs fuel (elapsed + retryInterval leaseSecs elapsed)

theorem walkFits_iff {leaseSecs fuel start : Nat} (hfuel : leaseSecs ≤ start + 60 * fuel) :
    walkFits leaseSecs fuel start = true ↔
      ∀ elapsed, Visited leaseSecs start elapsed → elapsed < leaseSecs → elapsed + 60 ≤ leaseSecs := by
  induction fuel generalizing start with
  | zero =>
    refine iff_of_true rfl fun elapsed hv hlt => ?_
    rcases visited_iff.mp hv with rfl | ⟨hstart, -⟩ <;> omega
  | succ fuel ih =>
    have hstep := le_retryInterval leaseSecs start
    simp only [walkFits]
    split
    · rename_i hle
      refine iff_of_true rfl fun elapsed hv hlt => ?_
      rcases visited_iff.mp hv with rfl | ⟨hstart, -⟩ <;> omega
    · rename_i hlt
      rw [Bool.and_eq_true, decide_eq_true_eq, ih (by omega)]
      refine ⟨fun h elapsed hv he => ?_, fun h => ⟨h start .start (by omega), fun elapsed hv => ?_⟩⟩
      · rcases visited_iff.mp hv with rfl | ⟨-, hv⟩
        · exact h.1
        · exact h.2 elapsed hv he
      · exact h elapsed (visited_iff.mpr (.inr ⟨by omega, hv⟩))

instance (leaseSecs : Nat) : Decidable (LeaseFits leaseSecs) :=
  decidable_of_iff (walkFits leaseSecs leaseSecs (t1Secs leaseSecs) = true) (walkFits_iff (by omega))

/-- The default lease of an hour does not fit; one of two minutes does. -/
example : ¬ LeaseFits defaultLeaseSecs.toNat ∧ LeaseFits 120 := by decide

/-! ### Keeping a lease within its time -/

/-- The lease in force, and the time it counts from. -/
def Phase.holding : Phase → Option (DhcpAck × Nat)
  | .bound ack boundAt => some (ack, boundAt)
  | .sleeping ack boundAt _ => some (ack, boundAt)
  | .renewing ack boundAt _ _ _ => some (ack, boundAt)
  | _ => none

/-- The end of a lease. -/
def DhcpAck.expiry (ack : DhcpAck) (boundAt : Nat) : Nat :=
  boundAt + Duration.fromSecs ack.leaseSecs.toNat

/-- The lease in force has not run out, and will not within the sleep or the window the
client has entered. -/
def WithinLease (s : ClientState) : Prop :=
  ∀ ack boundAt, s.phase.holding = some (ack, boundAt) →
    s.now ≤ ack.expiry boundAt ∧ ∀ wakeAt, s.phase.due = some wakeAt → wakeAt ≤ ack.expiry boundAt

/-- Every ACK the client takes grants a lease that fits. -/
def GrantsFitting (c : DhcpClient) (s : ClientState) (e : Event) : Prop :=
  ∀ ack, Accepts c s e ack → LeaseFits ack.leaseSecs.toNat

/-- Where a punctual client is in the schedule of a lease that fits. -/
def Scheduled (s : ClientState) : Prop :=
  match s.phase with
  | .configuring ack => LeaseFits ack.leaseSecs.toNat
  | .bound ack boundAt =>
    LeaseFits ack.leaseSecs.toNat ∧
      (s.now = boundAt ∨ s.now = boundAt + Duration.fromSecs (t1Secs ack.leaseSecs.toNat))
  | .sleeping ack boundAt wakeAt =>
    LeaseFits ack.leaseSecs.toNat ∧ s.now ≤ wakeAt ∧
      wakeAt = boundAt + Duration.fromSecs (t1Secs ack.leaseSecs.toNat)
  | .renewing ack boundAt _ _ deadline =>
    LeaseFits ack.leaseSecs.toNat ∧ s.now ≤ deadline ∧
      ∃ elapsed, Visited ack.leaseSecs.toNat (t1Secs ack.leaseSecs.toNat) elapsed ∧
        elapsed < ack.leaseSecs.toNat ∧
        deadline = boundAt + Duration.fromSecs (elapsed + retryInterval ack.leaseSecs.toNat elapsed)
  | _ => True

theorem Scheduled.withinLease {s : ClientState} (h : Scheduled s) : WithinLease s := by
  obtain ⟨now, lease, kernel, phase, sent⟩ := s
  have ht1 : ∀ leaseSecs, t1Secs leaseSecs ≤ leaseSecs := fun leaseSecs => Nat.div_le_self _ _
  intro ack boundAt hholding
  cases phase with
  | bound ack' boundAt' =>
    obtain ⟨rfl, rfl⟩ := Prod.mk.inj (Option.some.inj hholding)
    refine ⟨?_, fun wakeAt hdue => absurd hdue (by simp [Phase.due])⟩
    have hle := Duration.fromSecs_le_fromSecs.mpr (ht1 ack'.leaseSecs.toNat)
    rcases h.2 with hnow | hnow <;> simp only [DhcpAck.expiry] at hnow ⊢ <;> omega
  | sleeping ack' boundAt' wakeAt' =>
    obtain ⟨rfl, rfl⟩ := Prod.mk.inj (Option.some.inj hholding)
    obtain ⟨-, hnow, hwake⟩ := h
    have hle := Duration.fromSecs_le_fromSecs.mpr (ht1 ack'.leaseSecs.toNat)
    have hend : wakeAt' ≤ ack'.expiry boundAt' := by
      simp only [DhcpAck.expiry]
      omega
    refine ⟨Nat.le_trans hnow hend, fun wakeAt hdue => ?_⟩
    rwa [← Option.some.inj hdue]
  | renewing ack' boundAt' xid renewSent deadline =>
    obtain ⟨rfl, rfl⟩ := Prod.mk.inj (Option.some.inj hholding)
    obtain ⟨hfits, hnow, elapsed, hvisited, hlt, hdeadline⟩ := h
    have hend : deadline ≤ ack'.expiry boundAt' := by
      have hle := Duration.fromSecs_le_fromSecs.mpr (retryInterval_fits (hfits elapsed hvisited hlt))
      simp only [DhcpAck.expiry]
      omega
    refine ⟨Nat.le_trans hnow hend, fun wakeAt hdue => ?_⟩
    rwa [← Option.some.inj hdue]
  | _ => exact absurd hholding (by simp [Phase.holding])

/-! ### A punctual step -/

theorem elapsedSecs_add (boundAt : Nat) {secs : Nat} (h : secs < 2 ^ 32) :
    elapsedSecs boundAt (boundAt + Duration.fromSecs secs) = secs := by
  unfold elapsedSecs
  rw [Nat.add_sub_cancel_left, Duration.asSecs_fromSecs, Nat.mod_eq_of_lt h]

theorem leaseSecs_lt (ack : DhcpAck) : ack.leaseSecs.toNat < 2 ^ 32 := UInt32.toNat_lt _

theorem t1Secs_lt (ack : DhcpAck) : t1Secs ack.leaseSecs.toNat < 2 ^ 32 :=
  Nat.lt_of_le_of_lt (Nat.div_le_self _ _) (leaseSecs_lt ack)

theorem applyLeaseConfig_scheduled {s : ClientState} {ack : DhcpAck}
    (hfits : LeaseFits ack.leaseSecs.toNat) : Scheduled (applyLeaseConfig s ack) := by
  unfold applyLeaseConfig
  split
  · exact hfits
  · exact ⟨hfits, .inl rfl⟩

theorem Phase.Negotiating.scheduled {t : ClientState} (h : t.phase.Negotiating) : Scheduled t := by
  unfold Scheduled
  generalize t.phase = phase at h ⊢
  cases phase <;> trivial

/-- A wait that a packet interrupts before its end goes on as before. -/
theorem Scheduled.waits {s : ClientState} {now deadline : Nat} (h : Scheduled s)
    (hdue : s.phase.due = some deadline) (hlt : now < deadline) : Scheduled { s with now := now } := by
  obtain ⟨before, lease, kernel, phase, sent⟩ := s
  cases phase with
  | bound ack boundAt => exact absurd hdue (by simp [Phase.due])
  | sleeping ack boundAt wakeAt =>
    obtain rfl : wakeAt = deadline := Option.some.inj hdue
    exact ⟨h.1, Nat.le_of_lt hlt, h.2.2⟩
  | renewing ack boundAt xid renewSent due =>
    obtain rfl : due = deadline := Option.some.inj hdue
    exact ⟨h.1, Nat.le_of_lt hlt, h.2.2⟩
  | _ => exact h

/-- The head of the loop of `bound_phase` is reached at the start of the lease and at T1. -/
theorem Scheduled.bound {s : ClientState} {ack : DhcpAck} {boundAt : Nat} (h : Scheduled s)
    (hphase : s.phase = .bound ack boundAt) : LeaseFits ack.leaseSecs.toNat ∧
      ∃ elapsed, s.now = boundAt + Duration.fromSecs elapsed ∧ elapsedSecs boundAt s.now = elapsed ∧
        (elapsed = 0 ∨ elapsed = t1Secs ack.leaseSecs.toNat) := by
  simp only [Scheduled, hphase] at h
  obtain ⟨hfits, hnow | hnow⟩ := h
  · refine ⟨hfits, 0, by simp [hnow, Duration.fromSecs], ?_, .inl rfl⟩
    simp [elapsedSecs, hnow, Duration.asSecs]
  · exact ⟨hfits, _, hnow, hnow ▸ elapsedSecs_add boundAt (t1Secs_lt ack), .inr rfl⟩

theorem Punctual.of_due {s : ClientState} {e : Event} {deadline : Nat} (h : Punctual s e)
    (hdue : s.phase.due = some deadline) : e.now ≤ deadline := by
  simpa only [Punctual, hdue] using h

theorem Punctual.of_bound {s : ClientState} {e : Event} {ack : DhcpAck} {boundAt : Nat}
    (h : Punctual s e) (hphase : s.phase = .bound ack boundAt) : e.now = s.now := by
  simpa only [Punctual, hphase, Phase.due] using h

/-- A punctual client that is granted fitting leases stays in their schedules. -/
theorem scheduled_step (c : DhcpClient) (s : ClientState) (e : Event) (t : ClientState)
    (hs : Scheduled s) (hr : Punctual s e ∧ GrantsFitting c s e)
    (h : (client c).step s e = some t) : Scheduled t := by
  obtain ⟨hpunctual, hfitting⟩ := hr
  cases client_moves h with
  | negotiates _ _ hphase => exact hphase.scheduled
  | abandons _ hphase => exact hphase.scheduled
  | waits hdue hlt => exact hs.waits hdue hlt
  | accepts hack => exact applyLeaseConfig_scheduled (hfitting _ hack)
  | configures hphase =>
    simp only [Scheduled, hphase] at hs
    exact ⟨hs, .inl rfl⟩
  | configureFails _ _ hphase => exact hphase.scheduled
  | @sleeps ack boundAt hphase hlt =>
    obtain ⟨hfits, elapsed, hnow, helapsed, hcase⟩ := hs.bound hphase
    rw [hpunctual.of_bound hphase, helapsed] at hlt ⊢
    rcases hcase with rfl | rfl
    · refine ⟨hfits, Nat.le_add_right _ _, ?_⟩
      simp [hnow, Duration.fromSecs]
    · exact absurd hlt (Nat.lt_irrefl _)
  | @wakes ack boundAt wakeAt hphase hle =>
    have hend := hpunctual.of_due (by rw [hphase]; rfl)
    simp only [Scheduled, hphase] at hs
    obtain ⟨hfits, -, hwake⟩ := hs
    exact ⟨hfits, .inr (by rw [← hwake]; exact Nat.le_antisymm hend hle)⟩
  | @listens ack boundAt _ hnow _ _ hfrom hlt hphase =>
    obtain ⟨xid, sent, hphase⟩ := hphase
    have hwindow : LeaseFits ack.leaseSecs.toNat ∧
        ∃ elapsed, Visited ack.leaseSecs.toNat (t1Secs ack.leaseSecs.toNat) elapsed ∧
          e.now = boundAt + Duration.fromSecs elapsed ∧ elapsedSecs boundAt e.now = elapsed := by
      rcases hfrom with ⟨hb, ht1⟩ | ⟨x, sent', deadline, hr, hle⟩
      · obtain ⟨hfits, elapsed, hnow, helapsed, hcase⟩ := hs.bound hb
        rw [hpunctual.of_bound hb] at ht1 ⊢
        refine ⟨hfits, elapsed, ?_, hnow, helapsed⟩
        rcases hcase with rfl | rfl
        · have hzero : t1Secs ack.leaseSecs.toNat = 0 := by omega
          rw [hzero]
          exact .start
        · exact .start
      · have hend := hpunctual.of_due (by rw [hr]; rfl)
        simp only [Scheduled, hr] at hs
        obtain ⟨hfits, -, elapsed, hvisited, hbefore, hdeadline⟩ := hs
        have hnext := retryInterval_fits (hfits elapsed hvisited hbefore)
        have hat : e.now = boundAt + Duration.fromSecs
            (elapsed + retryInterval ack.leaseSecs.toNat elapsed) := by omega
        refine ⟨hfits, _, .next hvisited hbefore, hat, ?_⟩
        rw [hat]
        exact elapsedSecs_add boundAt (Nat.lt_of_le_of_lt hnext (leaseSecs_lt ack))
    obtain ⟨hfits, elapsed, hvisited, hat, helapsed⟩ := hwindow
    rw [helapsed] at hlt hphase
    simp only [Scheduled, hphase, hnow, calculateRenewalParams_retryInterval]
    refine ⟨hfits, Nat.le_add_right _ _, elapsed, hvisited, hlt, ?_⟩
    rw [hat, Duration.fromSecs_add, Nat.add_assoc]

/-- A punctual client that is granted fitting leases keeps each within its time. -/
theorem kept_within_of_fitting (c : DhcpClient) {s : ClientState} {es : List Event} (hs : Scheduled s)
    (hpunctual : (client c).Along Punctual s es) (hfitting : (client c).Along (GrantsFitting c) s es) :
    (client c).Always WithinLease s es :=
  (System.always_of_along (scheduled_step c) hs (hpunctual.and hfitting)).mono fun _ => Scheduled.withinLease

/-! ### A client that nobody answers -/

/-- Nothing arrives: the client goes on, or a timer fires. -/
def Silent (e : Event) : Prop := e.input = .timeout ∨ e.input = .proceed

/-- From `s`, with nothing arriving and every timer firing when due, `es` leads to `t`. -/
structure Lapse (c : DhcpClient) (s : ClientState) (es : List Event) (t : ClientState) : Prop where
  silent : ∀ e ∈ es, Silent e
  punctual : (client c).Along Punctual s es
  run : (client c).run s es = some t

theorem Lapse.nil (c : DhcpClient) (s : ClientState) : Lapse c s [] s := ⟨by simp, System.along_nil, rfl⟩

theorem Lapse.snoc {c : DhcpClient} {s t u : ClientState} {e : Event} {es : List Event} (h : Lapse c s es t)
    (he : Silent e) (hpunctual : Punctual t e) (hstep : (client c).step t e = some u) :
    Lapse c s (es ++ [e]) u where
  silent e' he' := by
    rcases List.mem_append.mp he' with hmem | hmem
    · exact h.silent e' hmem
    · rw [List.mem_singleton.mp hmem]
      exact he
  punctual := h.punctual.snoc h.run hpunctual
  run := (client c).run_snoc h.run hstep

/-- An event at `now` with some draws. -/
def eventAt (now : Nat) (input : Input) : Event := ⟨now, input, 0, Jitter.zero⟩

/-- In state `t` a window of the renewal has just been opened, `elapsed` seconds into the lease. -/
def Listens (ack : DhcpAck) (boundAt elapsed : Nat) (t : ClientState) : Prop :=
  t.now = boundAt + Duration.fromSecs elapsed ∧ ∃ xid sent, t.phase = .renewing ack boundAt xid sent
    (boundAt + Duration.fromSecs (elapsed + retryInterval ack.leaseSecs.toNat elapsed))

theorem renewRound_opens (c : DhcpClient) {s : ClientState} (e : Event) {ack : DhcpAck}
    {boundAt elapsed : Nat} (xid : UInt32) (sent : Option Nat)
    (hnow : s.now = boundAt + Duration.fromSecs elapsed) (hlt : elapsed < ack.leaseSecs.toNat) :
    Listens ack boundAt elapsed (renewRound c s e ack boundAt xid sent) := by
  have helapsed : elapsedSecs boundAt s.now = elapsed := by
    rw [hnow]
    exact elapsedSecs_add boundAt (Nat.lt_trans hlt (leaseSecs_lt ack))
  have hleft : elapsedSecs boundAt s.now < ack.leaseSecs.toNat := helapsed.symm ▸ hlt
  obtain ⟨hnow', -, -, sent', hphase⟩ := renewRound_listens c s e xid sent hleft
  refine ⟨hnow'.trans hnow, xid, sent', ?_⟩
  rw [hphase, helapsed, calculateRenewalParams_retryInterval, hnow, Nat.add_assoc, Duration.fromSecs_add]

theorem step_bound (c : DhcpClient) {t : ClientState} {ack : DhcpAck} {boundAt : Nat}
    (hphase : t.phase = .bound ack boundAt) :
    (client c).step t (eventAt t.now .proceed) =
      some (boundRound c t (eventAt t.now .proceed) ack boundAt) := by
  obtain ⟨now, lease, kernel, phase, sent⟩ := t
  obtain rfl : phase = .bound ack boundAt := hphase
  simp [client, resume, eventAt]

theorem step_sleeping (c : DhcpClient) {t : ClientState} {ack : DhcpAck} {boundAt wakeAt : Nat}
    (hphase : t.phase = .sleeping ack boundAt wakeAt) (hle : t.now ≤ wakeAt) :
    (client c).step t (eventAt wakeAt .timeout) =
      some { t with now := wakeAt, phase := .bound ack boundAt } := by
  obtain ⟨now, lease, kernel, phase, sent⟩ := t
  obtain rfl : phase = .sleeping ack boundAt wakeAt := hphase
  simp [client, resume, eventAt, hle]

theorem step_renewing (c : DhcpClient) {t : ClientState} {ack : DhcpAck} {boundAt deadline : Nat}
    {xid : UInt32} {sent : Option Nat} (hphase : t.phase = .renewing ack boundAt xid sent deadline)
    (hle : t.now ≤ deadline) :
    (client c).step t (eventAt deadline .timeout) =
      some (renewRound c { t with now := deadline } (eventAt deadline .timeout) ack boundAt xid sent) := by
  obtain ⟨now, lease, kernel, phase, log⟩ := t
  obtain rfl : phase = .renewing ack boundAt xid sent deadline := hphase
  simp [client, resume, eventAt, hle]

/-- At T1, or later, a round of `bound_phase` is the first one of the renewal. -/
theorem bound_opens {c : DhcpClient} {s t : ClientState} {es : List Event} (ht : Lapse c s es t) {ack : DhcpAck}
    {boundAt : Nat} (hphase : t.phase = .bound ack boundAt)
    (hnow : t.now = boundAt + Duration.fromSecs (t1Secs ack.leaseSecs.toNat))
    (hlt : t1Secs ack.leaseSecs.toNat < ack.leaseSecs.toNat) :
    ∃ es u, Lapse c s es u ∧ Listens ack boundAt (t1Secs ack.leaseSecs.toNat) u := by
  have helapsed : elapsedSecs boundAt t.now = t1Secs ack.leaseSecs.toNat := by
    rw [hnow]
    exact elapsedSecs_add boundAt (t1Secs_lt ack)
  have hround : boundRound c t (eventAt t.now .proceed) ack boundAt =
      renewRound c t (eventAt t.now .proceed) ack boundAt 0 none := by
    simp only [boundRound, helapsed, if_neg (Nat.not_le.mpr hlt), Nat.lt_irrefl, if_false]
    rfl
  refine ⟨_, _, ht.snoc (.inr rfl) ?_ (step_bound c hphase), ?_⟩
  · simp only [Punctual, hphase, Phase.due, eventAt]
  · rw [hround]
    exact renewRound_opens c _ 0 none hnow hlt

/-- A client that nobody answers opens a window at every time of the schedule within the lease. -/
theorem window_opened (c : DhcpClient) {s : ClientState} {ack : DhcpAck}
    (hs : s.phase = .bound ack s.now) {elapsed : Nat}
    (hvisited : Visited ack.leaseSecs.toNat (t1Secs ack.leaseSecs.toNat) elapsed)
    (hlt : elapsed < ack.leaseSecs.toNat) :
    ∃ es t, Lapse c s es t ∧ Listens ack s.now elapsed t := by
  induction hvisited with
  | start =>
    by_cases hzero : t1Secs ack.leaseSecs.toNat = 0
    · exact bound_opens (Lapse.nil c s) hs (by simp [hzero, Duration.fromSecs]) hlt
    · -- to sleep, and awake again at T1
      let t1At := s.now + Duration.fromSecs (t1Secs ack.leaseSecs.toNat)
      have hround : boundRound c s (eventAt s.now .proceed) ack s.now =
          { s with phase := Phase.sleeping ack s.now t1At } := by
        have hnone : elapsedSecs s.now s.now = 0 := by simp [elapsedSecs, Duration.asSecs]
        simp only [boundRound, hnone, if_neg (Nat.not_le.mpr (Nat.lt_of_le_of_lt (Nat.zero_le _) hlt)),
          if_pos (Nat.pos_of_ne_zero hzero), Nat.sub_zero, t1At]
      have hsleep : Lapse c s [eventAt s.now .proceed] { s with phase := Phase.sleeping ack s.now t1At } := by
        rw [← hround]
        exact (Lapse.nil c s).snoc (.inr rfl) (by simp only [Punctual, hs, Phase.due, eventAt])
          (step_bound c hs)
      have hdue : Punctual { s with phase := Phase.sleeping ack s.now t1At } (eventAt t1At .timeout) :=
        Nat.le_refl t1At
      have hwake : Lapse c s [eventAt s.now .proceed, eventAt t1At .timeout]
          { s with now := t1At, phase := .bound ack s.now } :=
        hsleep.snoc (.inl rfl) hdue (step_sleeping c rfl (Nat.le_add_right _ _))
      exact bound_opens hwake rfl rfl hlt
  | @next elapsed _ hbefore ih =>
    obtain ⟨es, t, ht, hnow, xid, sent, hphase⟩ := ih hbefore
    have hle : t.now ≤ s.now + Duration.fromSecs (elapsed + retryInterval ack.leaseSecs.toNat elapsed) := by
      rw [hnow, Duration.fromSecs_add]
      omega
    refine ⟨_, _, ht.snoc (.inl rfl) ?_ (step_renewing c hphase hle), renewRound_opens c _ xid sent rfl hlt⟩
    simp only [Punctual, hphase, Phase.due, eventAt, Nat.le_refl]

theorem Silent.grantsFitting {c : DhcpClient} {s : ClientState} {e : Event} (h : Silent e) :
    GrantsFitting c s e := by
  intro ack hack
  obtain ⟨xid, buf, -, hin, -⟩ := hack
  rcases h with h | h <;> exact absurd (hin.symm.trans h) (by simp)

/-- **Leases that fit are the ones kept within their time.** A punctual client that is
granted fitting leases only never keeps one past its end, nor sleeps or listens past it;
and a client just bound, that nobody answers, keeps its lease within its time precisely
when it fits. -/
theorem kept_within_iff (c : DhcpClient) :
    (∀ es, (client c).Along Punctual .initial es → (client c).Along (GrantsFitting c) .initial es →
      (client c).Always WithinLease .initial es) ∧
    ∀ s ack, s.phase = .bound ack s.now →
      ((∀ es, (∀ e ∈ es, Silent e) → (client c).Along Punctual s es →
        (client c).Always WithinLease s es) ↔ LeaseFits ack.leaseSecs.toNat) := by
  refine ⟨fun es => kept_within_of_fitting c trivial, fun s ack hs => ⟨fun h elapsed hv hlt => ?_, ?_⟩⟩
  · -- a window opened in the last minute ends past the lease
    obtain ⟨es, t, hlapse, hnow, xid, sent, hphase⟩ := window_opened c hs hv hlt
    have hwithin := (h es hlapse.silent hlapse.punctual).last hlapse.run ack s.now (by rw [hphase]; rfl)
    have hend := hwithin.2 _ (by rw [hphase]; rfl)
    have hminute := le_retryInterval ack.leaseSecs.toNat elapsed
    simp only [DhcpAck.expiry, Nat.add_le_add_iff_left, Duration.fromSecs_le_fromSecs] at hend
    omega
  · intro hfits es hsilent halong
    have hscheduled : Scheduled s := by
      simp only [Scheduled, hs]
      exact ⟨hfits, .inl trivial⟩
    refine kept_within_of_fitting c hscheduled halong ?_
    exact System.along_of_forall_mem fun e he _ => (hsilent e he).grantsFitting

/-- A lease of a minute: the window that opens at half of it ends half a minute late. -/
theorem minute_lease_overrun :
    ¬ ∀ es, (client Uplink.router).Along Punctual .initial es →
      (client Uplink.router).Always WithinLease .initial es := by
  intro h
  let es := [Uplink.event 0 .timeout 7] ++ Uplink.negotiation 0 7 60 ++
    [Uplink.event 0 (.netlink .working) 0, Uplink.event 0 .proceed 0, Uplink.event 30 .timeout 0,
      Uplink.event 30 .proceed 9]
  have hpunctual : (client Uplink.router).check (fun s e => decide (Punctual s e)) .initial es = true := by
    decide +kernel
  have hrun : ((client Uplink.router).run .initial es).map (fun s => (s.phase.holding, s.phase.due)) =
      some (some (Uplink.lease 60, 0), some (Duration.fromSecs 90)) := by
    decide +kernel
  obtain ⟨s, hs, heq⟩ := Option.map_eq_some_iff.mp hrun
  obtain ⟨hholding, hdue⟩ := Prod.mk.inj heq
  have halong := (System.along_of_check hpunctual).mono fun _ _ => of_decide_eq_true
  have hend := ((h es halong).last hs _ _ hholding).2 _ hdue
  exact absurd hend (by decide)

end RustyRouter.Wan
