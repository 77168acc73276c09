import RustyRouter.Wan.Moves

/-! Bound means configured.

`apply_lease_config` stores a new lease before it asks the kernel for it, and takes a
stored lease as one the kernel has. When the kernel refuses, `bound_phase` returns without
`deconfigure`, so the refused lease stays stored, and the next ACK with the same
parameters is taken as configured. Nothing else can go wrong: a bound client is
configured throughout a run precisely when no ACK of the run repeats a lease that is
still stored from a refusal (`configured_iff`). -/
namespace RustyRouter.Wan
open Transition

variable {c : DhcpClient} {s t : ClientState} {e : Event}

/-- The ACK that `apply_lease_config` has returned `Ok` for, in `bound_phase`. -/
def Phase.inForce : Phase → Option DhcpAck
  | .bound ack _ => some ack
  | .sleeping ack _ _ => some ack
  | .renewing ack _ _ _ _ => some ack
  | _ => none

/-- The kernel was last given what the ACK says. -/
def Kernel.Has (kernel : Kernel) (ack : DhcpAck) : Prop :=
  kernel = .configured ack.ip ack.mask ack.gateway

/-- A client past `apply_lease_config` has its ACK's parameters in the kernel. -/
def Configured (s : ClientState) : Prop := ∀ ack, s.phase.inForce = some ack → s.kernel.Has ack

/-- The ACK does not repeat a lease that is stored although the kernel refused it. -/
def RepeatsNoRefusal (c : DhcpClient) (s : ClientState) (e : Event) : Prop :=
  ∀ ack, Accepts c s e ack → s.lease = .ofAck ack → s.kernel ≠ .failed

/-! ### What the stored lease says about the kernel -/

/-- The stored lease is the one the kernel has, or refused, or is being asked for. -/
def Recorded (s : ClientState) : Prop :=
  (∃ ack, s.phase = .configuring ack ∧ s.lease = .ofAck ack) ∨
    (∀ ack, s.phase ≠ .configuring ack) ∧
      (s.lease = .default ∧ s.kernel = .clear ∨
        ∃ ack, s.lease = .ofAck ack ∧ (s.kernel = .failed ∨ s.kernel.Has ack))

theorem initial_recorded : Recorded .initial := .inr ⟨by simp [ClientState.initial], .inl ⟨rfl, rfl⟩⟩

theorem WanLease.ofAck_ne_default (ack : DhcpAck) : WanLease.ofAck ack ≠ .default := by
  simp [WanLease.ofAck, WanLease.default]

/-- Two ACKs that are stored alike ask the same of the kernel. -/
theorem Kernel.Has.congr {kernel : Kernel} {ack ack' : DhcpAck}
    (h : WanLease.ofAck ack = .ofAck ack') (hk : kernel.Has ack) : kernel.Has ack' := by
  simp only [WanLease.ofAck, WanLease.mk.injEq, Option.some.injEq] at h
  unfold Kernel.Has at hk ⊢
  rw [hk, h.1, h.2.1, h.2.2.1]

theorem Phase.Negotiating.ne_configuring {phase : Phase} (h : phase.Negotiating) (ack : DhcpAck) :
    phase ≠ .configuring ack := by
  intro he
  simp [he, Phase.Negotiating] at h

theorem Phase.Negotiating.inForce {phase : Phase} (h : phase.Negotiating) : phase.inForce = none := by
  cases phase <;> first | rfl | exact absurd h (by simp [Phase.Negotiating])

/-- Outside `apply_lease_config`, the stored lease tells what the kernel has. -/
theorem Recorded.settled (h : Recorded s) (hphase : ∀ ack, s.phase ≠ .configuring ack) :
    s.lease = .default ∧ s.kernel = .clear ∨
      ∃ ack, s.lease = .ofAck ack ∧ (s.kernel = .failed ∨ s.kernel.Has ack) := by
  rcases h with ⟨ack, hc, -⟩ | ⟨-, h⟩
  · exact absurd hc (hphase ack)
  · exact h

theorem Recorded.configuring (h : Recorded s) {ack : DhcpAck} (hphase : s.phase = .configuring ack) :
    s.lease = .ofAck ack := by
  rcases h with ⟨ack', hc, hlease⟩ | ⟨hne, -⟩
  · rw [hphase] at hc
    rw [hlease, Phase.configuring.inj hc]
  · exact absurd hphase (hne ack)

theorem Recorded.keeps (h : Recorded s) (hs : ∀ ack, s.phase ≠ .configuring ack)
    (ht : ∀ ack, t.phase ≠ .configuring ack) (hlease : t.lease = s.lease) (hkernel : t.kernel = s.kernel) :
    Recorded t := by
  refine .inr ⟨ht, ?_⟩
  rw [hlease, hkernel]
  exact h.settled hs

theorem Accepts.ne_configuring {ack : DhcpAck} (h : Accepts c s e ack) (other : DhcpAck) :
    s.phase ≠ .configuring other := by
  obtain ⟨xid, buf, hxid, -⟩ := h
  intro he
  simp [he, Phase.awaitsAck] at hxid

theorem applyLeaseConfig_recorded {ack : DhcpAck} (hs : Recorded s)
    (hphase : ∀ other, s.phase ≠ .configuring other) : Recorded (applyLeaseConfig s ack) := by
  unfold applyLeaseConfig
  split
  · exact .inl ⟨ack, rfl, rfl⟩
  · exact hs.keeps hphase (by simp) rfl rfl

/-- In every reachable state, the stored lease tells what the kernel has. -/
theorem recorded_step (c : DhcpClient) (s : ClientState) (e : Event) (t : ClientState)
    (hs : Recorded s) (h : (client c).step s e = some t) : Recorded t := by
  cases client_moves h with
  | negotiates hfrom _ hphase hlease hkernel =>
    exact hs.keeps hfrom.ne_configuring hphase.ne_configuring hlease hkernel
  | abandons _ hphase hlease hkernel => exact .inr ⟨hphase.ne_configuring, .inl ⟨hlease, hkernel⟩⟩
  | waits => exact hs
  | accepts hack => exact applyLeaseConfig_recorded hs hack.ne_configuring
  | @configures ack hphase =>
    have hlease := hs.configuring hphase
    exact .inr ⟨by simp, .inr ⟨ack, hlease, .inr rfl⟩⟩
  | @configureFails ack _ hfrom _ hphase hlease hkernel =>
    refine .inr ⟨hphase.ne_configuring, .inr ⟨ack, ?_, .inl hkernel⟩⟩
    rw [hlease, hs.configuring hfrom]
  | sleeps hphase => exact hs.keeps (by simp [hphase]) (by simp) rfl rfl
  | wakes hphase => exact hs.keeps (by simp [hphase]) (by simp) rfl rfl
  | listens _ hlease hkernel hfrom _ hphase =>
    obtain ⟨xid, sent, hphase⟩ := hphase
    refine hs.keeps (fun ack he => ?_) (by simp [hphase]) hlease hkernel
    rcases hfrom with ⟨hb, -⟩ | ⟨x, sent, deadline, hr, -⟩
    · simp [he] at hb
    · simp [he] at hr

/-! ### What a step does to the property -/

/-- Applying an ACK leaves the client configured precisely when it does not repeat a
refused lease. -/
theorem applyLeaseConfig_configured_iff {ack : DhcpAck} (hs : Recorded s)
    (hphase : ∀ other, s.phase ≠ .configuring other) :
    Configured (applyLeaseConfig s ack) ↔ (s.lease = .ofAck ack → s.kernel ≠ .failed) := by
  unfold applyLeaseConfig
  split
  · rename_i hne
    refine iff_of_true (fun other h => ?_) fun he => absurd he hne
    simp [Phase.inForce] at h
  · rename_i heq
    have hlease : s.lease = .ofAck ack := not_not.mp heq
    refine ⟨fun h _ hfailed => ?_, fun h other hother => ?_⟩
    · have hhas : s.kernel.Has ack := h ack rfl
      rw [Kernel.Has, hfailed] at hhas
      exact absurd hhas (by simp)
    · obtain rfl : ack = other := Option.some.inj hother
      rcases hs.settled hphase with ⟨hdefault, -⟩ | ⟨ack', hstored, hfailed | hhas⟩
      · exact absurd (hlease.symm.trans hdefault) (WanLease.ofAck_ne_default ack)
      · exact absurd hfailed (h hlease)
      · exact hhas.congr (hstored.symm.trans hlease)

theorem Configured.keeps (h : Configured s) (hkernel : t.kernel = s.kernel)
    (hphase : t.phase.inForce = s.phase.inForce) : Configured t := by
  intro ack hack
  rw [hkernel]
  exact h ack (hphase.symm.trans hack)

theorem Phase.Negotiating.configured (h : t.phase.Negotiating) : Configured t := by
  intro ack hack
  rw [h.inForce] at hack
  exact absurd hack (by simp)

/-- Every step that does not apply an ACK keeps the client configured. -/
theorem configured_other (hs : Configured s) (hno : ∀ ack, ¬ Accepts c s e ack)
    (h : Moves c s e t) : Configured t := by
  cases h with
  | negotiates _ _ hphase => exact hphase.configured
  | abandons _ hphase => exact hphase.configured
  | waits => exact hs.keeps rfl rfl
  | accepts hack => exact absurd hack (hno _)
  | configures =>
    intro ack hack
    rw [← Option.some.inj hack]
    rfl
  | configureFails _ _ hphase => exact hphase.configured
  | sleeps hphase => exact hs.keeps rfl (by rw [hphase]; rfl)
  | wakes hphase => exact hs.keeps rfl (by rw [hphase]; rfl)
  | listens _ _ hkernel hfrom _ hphase =>
    obtain ⟨xid, sent, hphase⟩ := hphase
    refine hs.keeps hkernel ?_
    rcases hfrom with ⟨hb, -⟩ | ⟨x, sent', deadline, hr, -⟩
    · rw [hphase, hb]
      rfl
    · rw [hphase, hr]
      rfl

theorem configured_step_iff (c : DhcpClient) (s : ClientState) (e : Event) (t : ClientState)
    (hI : Recorded s) (hs : Configured s) (h : (client c).step s e = some t) :
    Configured t ↔ RepeatsNoRefusal c s e := by
  by_cases hacc : ∃ ack, Accepts c s e ack
  · obtain ⟨ack, hack⟩ := hacc
    have hle : s.now ≤ e.now := by
      by_contra hlt
      simp [client, hlt] at h
    obtain rfl := Option.some.inj ((client_accepts hle hack).symm.trans h)
    have hone : RepeatsNoRefusal c s e ↔ (s.lease = .ofAck ack → s.kernel ≠ .failed) := by
      refine ⟨fun hr => hr ack hack, fun hr other hother => ?_⟩
      obtain rfl := hack.unique hother
      exact hr
    rw [hone]
    exact applyLeaseConfig_configured_iff (s := { s with now := e.now }) hI hack.ne_configuring
  · refine iff_of_true (configured_other hs (fun ack hack => hacc ⟨ack, hack⟩) (client_moves h)) ?_
    exact fun ack hack => absurd ⟨ack, hack⟩ hacc

/-! ### Runs -/

/-- **Bound means configured.** A client past `apply_lease_config` has its ACK's address,
mask and gateway in the kernel throughout a run precisely when no ACK of the run repeats a
lease that is stored although the kernel refused it. -/
theorem configured_iff (c : DhcpClient) (es : List Event) :
    (client c).Always Configured .initial es ↔
      (client c).Along (RepeatsNoRefusal c) .initial es :=
  System.always_iff_along (recorded_step c) (configured_step_iff c) initial_recorded
    (Phase.Negotiating.configured trivial)

/-- The kernel refuses a lease, and the next negotiation, which ends in the same lease,
takes it as configured. -/
theorem refused_lease_bound : ¬ ∀ es, (client Uplink.router).Always Configured .initial es := by
  intro h
  let es := [Uplink.event 0 .timeout 7] ++ Uplink.negotiation 0 7 60 ++
    [Uplink.event 0 (.netlink Uplink.refusing) 8] ++ Uplink.negotiation 0 8 60
  have hrun : ((client Uplink.router).run .initial es).map (fun s => (s.phase.inForce, s.kernel)) =
      some (some (Uplink.lease 60), .failed) := by
    decide +kernel
  obtain ⟨s, hs, heq⟩ := Option.map_eq_some_iff.mp hrun
  obtain ⟨hack, hkernel⟩ := Prod.mk.inj heq
  have hhas : s.kernel.Has (Uplink.lease 60) := (h es).last hs _ hack
  rw [Kernel.Has, hkernel] at hhas
  exact absurd hhas (by simp)

end RustyRouter.Wan
