import RustyRouter.Wan.Configured

/-! No lease without one.

The shared lease is what the SNTP client and the DNS forwarder go by. Every exit of
`run`'s phases clears it on the way back to a negotiation, but one: when `configure_wan`
fails, `bound_phase` returns without `deconfigure`, and the lease it had just stored is
advertised while the client negotiates anew. So the shared lease is the default one
throughout all negotiations of a run precisely when no `configure_wan` of the run fails
(`unadvertised_iff`). -/
namespace RustyRouter.Wan
open Transition

variable {c : DhcpClient} {s t : ClientState} {e : Event}

/-- In `discover_phase` or `request_phase`. -/
def Phase.Exchanging : Phase → Prop
  | .discovering _ _ _ => True
  | .requesting _ _ _ _ => True
  | _ => False

theorem Phase.Exchanging.negotiating {phase : Phase} (h : phase.Exchanging) : phase.Negotiating := by
  cases phase <;> trivial

/-- A negotiating client advertises no lease. -/
def Unadvertised (s : ClientState) : Prop := s.phase.Exchanging → s.lease = .default

/-- If this is the kernel's answer to `configure_wan`, then `configure_wan` succeeds. -/
def KernelTakes (c : DhcpClient) (s : ClientState) (e : Event) : Prop :=
  ∀ ack replies, s.phase = .configuring ack → e.input = .netlink replies →
    configureWan replies c.wanInterface ack.ip ack.mask ack.gateway = .ok ()

/-- What becomes of a `configure_wan`: its success binds the client, and its failure leads
straight to another `discover_phase`; the shared lease stays as it is. -/
theorem configuring_step {ack : DhcpAck} (hphase : s.phase = .configuring ack)
    (h : (client c).step s e = some t) :
    ∃ replies, e.input = .netlink replies ∧ t.lease = s.lease ∧
      (configureWan replies c.wanInterface ack.ip ack.mask ack.gateway = .ok () ∧
          t.phase = .bound ack e.now ∨
        (∃ err, configureWan replies c.wanInterface ack.ip ack.mask ack.gateway = .error err) ∧
          t.phase.Exchanging) := by
  simp only [client, Option.ite_none_right_eq_some] at h
  obtain ⟨-, h⟩ := h
  obtain ⟨now, lease, kernel, phase, sent⟩ := s
  obtain rfl : phase = .configuring ack := hphase
  cases hin : e.input with
  | netlink replies =>
    simp only [resume, hin] at h
    refine ⟨replies, rfl, ?_⟩
    cases hwan : configureWan replies c.wanInterface ack.ip ack.mask ack.gateway with
    | ok =>
      simp only [hwan] at h
      rw [← Option.some.inj h]
      exact ⟨rfl, .inl ⟨rfl, rfl⟩⟩
    | error err =>
      simp only [hwan] at h
      rw [← Option.some.inj h]
      have hn := discoverRound_negotiates c ⟨e.now, lease, .failed, .configuring ack, sent⟩ e e.xid
        initialRetryDelaySecs
      exact ⟨hn.lease, .inr ⟨⟨err, rfl⟩, trivial⟩⟩
  | _ => simp [resume, hin] at h

/-- Every step that does not fail a `configure_wan` leads to a negotiation with the
default lease only. -/
theorem negotiating_default_step (hs : s.phase.Negotiating → s.lease = .default)
    (htakes : KernelTakes c s e) (h : (client c).step s e = some t) :
    t.phase.Negotiating → t.lease = .default := by
  cases client_moves h with
  | negotiates hfrom _ _ hlease =>
    intro _
    rw [hlease]
    exact hs hfrom
  | abandons _ _ hlease => exact fun _ => hlease
  | waits => exact hs
  | accepts hack =>
    intro hn
    unfold applyLeaseConfig at hn
    split at hn <;> exact absurd hn (by simp [Phase.Negotiating])
  | configures => exact fun hn => absurd hn (by simp [Phase.Negotiating])
  | configureFails hfrom _ hphase =>
    obtain ⟨replies, hin, -, ⟨-, hbound⟩ | ⟨⟨err, herr⟩, -⟩⟩ := configuring_step hfrom h
    · rw [hbound] at hphase
      exact absurd hphase (by simp [Phase.Negotiating])
    · exact absurd ((htakes _ replies hfrom hin).symm.trans herr) (by simp)
  | sleeps => exact fun hn => absurd hn (by simp [Phase.Negotiating])
  | wakes => exact fun hn => absurd hn (by simp [Phase.Negotiating])
  | listens _ _ _ _ _ hphase =>
    obtain ⟨xid, sent, hphase⟩ := hphase
    intro hn
    rw [hphase] at hn
    exact absurd hn (by simp [Phase.Negotiating])

/-- A `configure_wan` that fails leaves its lease advertised. -/
theorem refused_advertised {ack : DhcpAck} {replies : Netlink} {err : DhcpError} (hs : Recorded s)
    (hphase : s.phase = .configuring ack) (hin : e.input = .netlink replies)
    (herr : configureWan replies c.wanInterface ack.ip ack.mask ack.gateway = .error err)
    (h : (client c).step s e = some t) : ¬ Unadvertised t := by
  obtain ⟨replies', hin', hlease, ⟨hok, -⟩ | ⟨-, hexchanging⟩⟩ := configuring_step hphase h
  · obtain rfl := Input.netlink.inj (hin.symm.trans hin')
    exact absurd (hok.symm.trans herr) (by simp)
  · intro hun
    have hdefault := hun hexchanging
    rw [hlease, hs.configuring hphase] at hdefault
    exact WanLease.ofAck_ne_default ack hdefault

/-- **No lease is advertised without one**: the shared lease is the default one whenever
the client of a run is in `discover_phase` or `request_phase`, precisely when no
`configure_wan` of the run fails. -/
theorem unadvertised_iff (c : DhcpClient) (es : List Event) :
    (client c).Always Unadvertised .initial es ↔ (client c).Along (KernelTakes c) .initial es := by
  constructor
  · intro h before e s t hb hs hstep ack replies hphase hin
    cases hwan : configureWan replies c.wanInterface ack.ip ack.mask ack.gateway with
    | ok => rfl
    | error err =>
      have hrecorded : Recorded s := (client c).run_invariant (recorded_step c) initial_recorded hs
      exact absurd (h _ t hb ((client c).run_snoc hs hstep))
        (refused_advertised hrecorded hphase hin hwan hstep)
  · intro h
    have hdefault : (client c).Always (fun s => s.phase.Negotiating → s.lease = .default) .initial es :=
      System.always_of_along (fun s e t hs htakes hstep => negotiating_default_step hs htakes hstep)
        (fun _ => rfl) h
    exact hdefault.mono fun s hs hexchanging => hs hexchanging.negotiating

/-- The kernel refuses the first lease, and it stays advertised through the next
`discover_phase`. -/
theorem refused_lease_advertised : ¬ ∀ es, (client Uplink.router).Always Unadvertised .initial es := by
  intro h
  let es := [Uplink.event 0 .timeout 7] ++ Uplink.negotiation 0 7 60 ++
    [Uplink.event 0 (.netlink Uplink.refusing) 8]
  have hrun : ((client Uplink.router).run .initial es).any (fun s =>
      decide (s.phase = .discovering 8 4 (Duration.fromSecs 4)) &&
        decide (s.lease = .ofAck (Uplink.lease 60))) = true := by
    decide +kernel
  obtain ⟨s, hs, heq⟩ := Option.any_eq_true _ _ |>.mp hrun
  simp only [Bool.and_eq_true, decide_eq_true_eq] at heq
  have hdefault := (h es).last hs (by rw [heq.1]; trivial)
  exact WanLease.ofAck_ne_default _ (heq.2.symm.trans hdefault)

end RustyRouter.Wan
