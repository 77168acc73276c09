import RustyRouter.Wan.Client

/-! What a step of the client can do.

`Turns` lists the code paths of one step (`client_turns`). `Moves` is what they come to as
far as the lease and the kernel go: the states a step can lead to, and what is known in each
case. `client_moves` is the proof, and the properties of the client's runs are derived from
it.
A `Punctual` event is one of a client whose timers fire when due and whose other work
takes no time. -/
namespace RustyRouter.Wan
open Transition

/-- When the timer of this wait fires, where it has one. -/
def Phase.due : Phase → Option Nat
  | .idle wakeAt => some wakeAt
  | .discovering _ _ deadline => some deadline
  | .requesting _ _ _ deadline => some deadline
  | .configuring _ => none
  | .bound _ _ => none
  | .sleeping _ _ wakeAt => some wakeAt
  | .renewing _ _ _ _ deadline => some deadline

/-- Not bound, and not about to be. -/
def Phase.Negotiating : Phase → Prop
  | .idle _ => True
  | .discovering _ _ _ => True
  | .requesting _ _ _ _ => True
  | _ => False

/-- A timer fires when due, packets come before it does, and all else takes no time. -/
def Punctual (s : ClientState) (e : Event) : Prop :=
  match s.phase.due with
  | some deadline => e.now ≤ deadline
  | none => e.now = s.now

instance (s : ClientState) (e : Event) : Decidable (Punctual s e) :=
  match h : s.phase.due with
  | some deadline => decidable_of_iff (e.now ≤ deadline) (by simp only [Punctual, h])
  | none => decidable_of_iff (e.now = s.now) (by simp only [Punctual, h])

variable (c : DhcpClient) (s : ClientState) (e : Event)

/-- The transaction whose ACK the client waits for. -/
def Phase.awaitsAck : Phase → Option UInt32
  | .requesting xid _ _ _ => some xid
  | .renewing _ _ xid _ _ => some xid
  | _ => none

/-- The event is an ACK the client takes. -/
def Accepts (ack : DhcpAck) : Prop :=
  ∃ xid buf, s.phase.awaitsAck = some xid ∧ e.input = .packet buf ∧
    parseAckNak c.dhcproto buf xid = .ack ack

variable {c s e} in
theorem Accepts.unique {ack ack' : DhcpAck} (h : Accepts c s e ack) (h' : Accepts c s e ack') :
    ack = ack' := by
  obtain ⟨xid, buf, hxid, hin, hack⟩ := h
  obtain ⟨xid', buf', hxid', hin', hack'⟩ := h'
  obtain rfl : xid = xid' := Option.some.inj (hxid.symm.trans hxid')
  obtain rfl : buf = buf' := Input.packet.inj (hin.symm.trans hin')
  exact ParseAckResult.ack.inj (hack.symm.trans hack')

/-- The code paths from one wait to the next, from the state at the end of the wait. -/
inductive Turns (c : DhcpClient) (s : ClientState) (e : Event) : ClientState → Prop
  | starts {wakeAt : Nat} (hphase : s.phase = .idle wakeAt) : Turns c s e (discoverPhase c s e)
  | rediscovers {xid : UInt32} {delay deadline : Nat} (hphase : s.phase = .discovering xid delay deadline) :
      Turns c s e (discoverRound c s e xid (calculateNextDelay delay))
  | hears {xid : UInt32} {delay deadline : Nat} {buf : List UInt8} {offer : DhcpOffer}
      (hphase : s.phase = .discovering xid delay deadline) (hin : e.input = .packet buf)
      (hoffer : parseOffer c.dhcproto buf xid = some offer) :
      Turns c s e (requestRound c s e xid offer initialRetryDelaySecs)
  | rerequests {xid : UInt32} {offer : DhcpOffer} {delay deadline : Nat}
      (hphase : s.phase = .requesting xid offer delay deadline) :
      Turns c s e (requestRound c s e xid offer (calculateNextDelay delay))
  | accepts {ack : DhcpAck} (hack : Accepts c s e ack) : Turns c s e (applyLeaseConfig s ack)
  | fails : Turns c s e (negotiationFailed s)
  | configures {ack : DhcpAck} (hphase : s.phase = .configuring ack) :
      Turns c s e { s with kernel := .configured ack.ip ack.mask ack.gateway, phase := .bound ack s.now }
  | configureFails {ack : DhcpAck} (hphase : s.phase = .configuring ack) :
      Turns c s e (discoverPhase c { s with kernel := .failed } e)
  | rounds {ack : DhcpAck} {boundAt : Nat} (hphase : s.phase = .bound ack boundAt) :
      Turns c s e (boundRound c s e ack boundAt)
  | wakes {ack : DhcpAck} {boundAt wakeAt : Nat} (hphase : s.phase = .sleeping ack boundAt wakeAt)
      (hle : wakeAt ≤ s.now) : Turns c s e { s with phase := .bound ack boundAt }
  | renews {ack : DhcpAck} {boundAt : Nat} {xid : UInt32} {renewSent : Option Nat} {deadline : Nat}
      (hphase : s.phase = .renewing ack boundAt xid renewSent deadline) (hle : deadline ≤ s.now) :
      Turns c s e (renewRound c s e ack boundAt xid renewSent)
  | abandons : Turns c s e (boundFailed c s e)
  | waits {deadline : Nat} (hdue : s.phase.due = some deadline) (hlt : s.now < deadline) : Turns c s e s

variable {c s e} in
/-- **What the client does on an event.** -/
theorem client_turns {t : ClientState} (h : (client c).step s e = some t) :
    s.now ≤ e.now ∧ Turns c { s with now := e.now } e t := by
  simp only [client, Option.ite_none_right_eq_some] at h
  obtain ⟨hle, h⟩ := h
  refine ⟨hle, ?_⟩
  obtain ⟨now, lease, kernel, phase, sent⟩ := s
  cases phase with
  | idle wakeAt =>
    cases hin : e.input with
    | timeout =>
      simp only [resume, hin, Option.ite_none_right_eq_some, Option.some.injEq] at h
      rw [← h.2]
      exact .starts rfl
    | _ => simp [resume, hin] at h
  | discovering xid delay deadline =>
    cases hin : e.input with
    | timeout =>
      simp only [resume, hin, Option.ite_none_right_eq_some, Option.some.injEq] at h
      rw [← h.2]
      exact .rediscovers rfl
    | packet buf =>
      simp only [resume, hin] at h
      split at h
      · rename_i offer hoffer
        rw [← Option.some.inj h]
        exact .hears rfl hin hoffer
      · split at h
        · rename_i hlt
          rw [← Option.some.inj h]
          exact .waits rfl hlt
        · rw [← Option.some.inj h]
          exact .rediscovers rfl
    | ioError text =>
      simp only [resume, hin, Option.some.injEq] at h
      rw [← h]
      exact .fails
    | _ => simp [resume, hin] at h
  | requesting xid offer delay deadline =>
    cases hin : e.input with
    | timeout =>
      simp only [resume, hin, Option.ite_none_right_eq_some, Option.some.injEq] at h
      rw [← h.2]
      exact .rerequests rfl
    | packet buf =>
      simp only [resume, hin] at h
      split at h
      · rename_i ack hack
        rw [← Option.some.inj h]
        exact .accepts ⟨xid, buf, rfl, hin, hack⟩
      · rw [← Option.some.inj h]
        exact .fails
      · split at h
        · rename_i hlt
          rw [← Option.some.inj h]
          exact .waits rfl hlt
        · rw [← Option.some.inj h]
          exact .rerequests rfl
    | ioError text =>
      simp only [resume, hin, Option.some.injEq] at h
      rw [← h]
      exact .fails
    | _ => simp [resume, hin] at h
  | configuring ack =>
    cases hin : e.input with
    | netlink replies =>
      simp only [resume, hin] at h
      split at h
      · rw [← Option.some.inj h]
        exact .configures rfl
      · rw [← Option.some.inj h]
        exact .configureFails rfl
    | _ => simp [resume, hin] at h
  | bound ack boundAt =>
    cases hin : e.input with
    | proceed =>
      simp only [resume, hin, Option.some.injEq] at h
      rw [← h]
      exact .rounds rfl
    | _ => simp [resume, hin] at h
  | sleeping ack boundAt wakeAt =>
    cases hin : e.input with
    | timeout =>
      simp only [resume, hin, Option.ite_none_right_eq_some, Option.some.injEq] at h
      rw [← h.2]
      exact .wakes rfl h.1
    | _ => simp [resume, hin] at h
  | renewing ack boundAt xid renewSent deadline =>
    cases hin : e.input with
    | timeout =>
      simp only [resume, hin, Option.ite_none_right_eq_some, Option.some.injEq] at h
      rw [← h.2]
      exact .renews rfl h.1
    | packet buf =>
      simp only [resume, hin] at h
      split at h
      · rename_i newAck hack
        rw [← Option.some.inj h]
        exact .accepts ⟨xid, buf, rfl, hin, hack⟩
      · rw [← Option.some.inj h]
        exact .abandons
      · split at h
        · rename_i hlt
          rw [← Option.some.inj h]
          exact .waits rfl hlt
        · rename_i hle
          rw [← Option.some.inj h]
          exact .renews rfl (Nat.not_lt.mp hle)
    | ioError text =>
      simp only [resume, hin, Option.some.injEq] at h
      rw [← h]
      exact .abandons
    | _ => simp [resume, hin] at h

/-- The state a step leads to. -/
inductive Moves : ClientState → Prop where
  /-- Another round of a negotiation, or the first. -/
  | negotiates {t : ClientState} (hfrom : s.phase.Negotiating) (hnow : t.now = e.now) (hphase : t.phase.Negotiating)
      (hlease : t.lease = s.lease) (hkernel : t.kernel = s.kernel) : Moves t
  /-- An exit through `deconfigure`. -/
  | abandons {t : ClientState} (hnow : t.now = e.now) (hphase : t.phase.Negotiating)
      (hlease : t.lease = .default) (hkernel : t.kernel = .clear) : Moves t
  | waits {deadline : Nat} (hdue : s.phase.due = some deadline) (hlt : e.now < deadline) :
      Moves { s with now := e.now }
  | accepts {ack : DhcpAck} (hack : Accepts c s e ack) :
      Moves (applyLeaseConfig { s with now := e.now } ack)
  | configures {ack : DhcpAck} (hphase : s.phase = .configuring ack) :
      Moves { s with
        now := e.now, kernel := .configured ack.ip ack.mask ack.gateway, phase := .bound ack e.now }
  | configureFails {ack : DhcpAck} {t : ClientState} (hfrom : s.phase = .configuring ack)
      (hnow : t.now = e.now) (hphase : t.phase.Negotiating) (hlease : t.lease = s.lease)
      (hkernel : t.kernel = .failed) : Moves t
  | sleeps {ack : DhcpAck} {boundAt : Nat} (hphase : s.phase = .bound ack boundAt)
      (hlt : elapsedSecs boundAt e.now < t1Secs ack.leaseSecs.toNat) :
      Moves { s with
        now := e.now
        phase := .sleeping ack boundAt
          (e.now + Duration.fromSecs (t1Secs ack.leaseSecs.toNat - elapsedSecs boundAt e.now)) }
  | wakes {ack : DhcpAck} {boundAt wakeAt : Nat} (hphase : s.phase = .sleeping ack boundAt wakeAt)
      (hle : wakeAt ≤ e.now) : Moves { s with now := e.now, phase := .bound ack boundAt }
  /-- The start of an ACK-listening window. -/
  | listens {ack : DhcpAck} {boundAt : Nat} {t : ClientState} (hnow : t.now = e.now)
      (hlease : t.lease = s.lease) (hkernel : t.kernel = s.kernel)
      (hfrom : s.phase = .bound ack boundAt ∧ t1Secs ack.leaseSecs.toNat ≤ elapsedSecs boundAt e.now ∨
        ∃ xid sent deadline, s.phase = .renewing ack boundAt xid sent deadline ∧ deadline ≤ e.now)
      (hlt : elapsedSecs boundAt e.now < ack.leaseSecs.toNat)
      (hphase : ∃ xid sent, t.phase = .renewing ack boundAt xid sent
        (e.now + Duration.fromSecs (calculateRenewalParams (elapsedSecs boundAt e.now)
          (t2Secs ack.leaseSecs.toNat) ack.leaseSecs.toNat ack.serverIp).retryInterval)) :
      Moves t

variable {c s e}

/-! ### The code between two waits -/

section Frame
variable (c : DhcpClient) (s : ClientState) (e : Event)

theorem sendDhcpMessage_frame (message : Message) (destIp : Ipv4Addr) :
    ∃ sent, sendDhcpMessage c s message destIp = { s with sent := sent } := by
  unfold sendDhcpMessage
  split
  · exact ⟨_, rfl⟩
  · exact ⟨s.sent, rfl⟩

/-- A round of a negotiation touches neither the lease nor the kernel. -/
structure NegotiatesFrom (s t : ClientState) : Prop where
  now : t.now = s.now
  phase : t.phase.Negotiating
  lease : t.lease = s.lease
  kernel : t.kernel = s.kernel

theorem discoverRound_negotiates (xid : UInt32) (delay : Nat) :
    NegotiatesFrom s (discoverRound c s e xid delay) := by
  obtain ⟨sent, h⟩ := sendDhcpMessage_frame c s (discover c.mac xid) Ipv4Addr.broadcast
  simp only [discoverRound, sendDiscover, h]
  exact ⟨rfl, trivial, rfl, rfl⟩

theorem requestRound_negotiates (xid : UInt32) (offer : DhcpOffer) (delay : Nat) :
    NegotiatesFrom s (requestRound c s e xid offer delay) := by
  obtain ⟨sent, h⟩ := sendDhcpMessage_frame c s
    (request c.mac xid offer.offeredIp offer.serverIp Ipv4Addr.unspecified) Ipv4Addr.broadcast
  simp only [requestRound, sendRequest, h]
  exact ⟨rfl, trivial, rfl, rfl⟩

end Frame

theorem NegotiatesFrom.moves {t : ClientState} (h : NegotiatesFrom { s with now := e.now } t)
    (hfrom : s.phase.Negotiating) : Moves c s e t :=
  .negotiates hfrom h.now h.phase h.lease h.kernel

theorem negotiationFailed_moves : Moves c s e (negotiationFailed { s with now := e.now }) :=
  .abandons rfl trivial rfl rfl

theorem boundFailed_moves : Moves c s e (boundFailed c { s with now := e.now } e) := by
  have h := discoverRound_negotiates c (deconfigure { s with now := e.now }) e e.xid initialRetryDelaySecs
  exact .abandons h.now h.phase h.lease h.kernel

/-- The window a round of the renewal opens, where the lease has not run out. -/
theorem renewRound_listens (c : DhcpClient) (s : ClientState) (e : Event) {ack : DhcpAck}
    {boundAt : Nat} (renewXid : UInt32) (renewSent : Option Nat)
    (hlt : elapsedSecs boundAt s.now < ack.leaseSecs.toNat) :
    (renewRound c s e ack boundAt renewXid renewSent).now = s.now ∧
      (renewRound c s e ack boundAt renewXid renewSent).lease = s.lease ∧
      (renewRound c s e ack boundAt renewXid renewSent).kernel = s.kernel ∧
      ∃ sent, (renewRound c s e ack boundAt renewXid renewSent).phase =
        .renewing ack boundAt renewXid sent (s.now + Duration.fromSecs (calculateRenewalParams
          (elapsedSecs boundAt s.now) (t2Secs ack.leaseSecs.toNat) ack.leaseSecs.toNat
          ack.serverIp).retryInterval) := by
  simp only [renewRound, if_neg (Nat.not_le.mpr hlt), sendRequest]
  split
  · obtain ⟨sent, h⟩ := sendDhcpMessage_frame c s (request c.mac renewXid ack.ip none ack.ip)
      (calculateRenewalParams (elapsedSecs boundAt s.now) (t2Secs ack.leaseSecs.toNat)
        ack.leaseSecs.toNat ack.serverIp).destIp
    rw [h]
    exact ⟨rfl, rfl, rfl, _, rfl⟩
  · exact ⟨rfl, rfl, rfl, _, rfl⟩

theorem renewRound_moves {ack : DhcpAck} {boundAt : Nat} (renewXid : UInt32) (renewSent : Option Nat)
    (hfrom : s.phase = .bound ack boundAt ∧ t1Secs ack.leaseSecs.toNat ≤ elapsedSecs boundAt e.now ∨
      ∃ xid sent deadline, s.phase = .renewing ack boundAt xid sent deadline ∧ deadline ≤ e.now) :
    Moves c s e (renewRound c { s with now := e.now } e ack boundAt renewXid renewSent) := by
  by_cases hlt : elapsedSecs boundAt e.now < ack.leaseSecs.toNat
  · obtain ⟨hnow, hlease, hkernel, sent, hphase⟩ :=
      renewRound_listens c { s with now := e.now } e renewXid renewSent hlt
    exact .listens hnow hlease hkernel hfrom hlt ⟨renewXid, sent, hphase⟩
  · rw [renewRound, if_pos (Nat.not_lt.mp hlt)]
    exact boundFailed_moves

theorem boundRound_moves {ack : DhcpAck} {boundAt : Nat} (hphase : s.phase = .bound ack boundAt) :
    Moves c s e (boundRound c { s with now := e.now } e ack boundAt) := by
  simp only [boundRound]
  split
  · exact boundFailed_moves
  · split
    · rename_i hlt
      exact .sleeps hphase hlt
    · rename_i ht1
      exact renewRound_moves e.xid none (.inl ⟨hphase, Nat.not_lt.mp ht1⟩)

/-- **What a step of the client can do.** -/
theorem client_moves {t : ClientState} (h : (client c).step s e = some t) : Moves c s e t := by
  obtain ⟨-, hturn⟩ := client_turns h
  have hfrom : ∀ phase, s.phase = phase → phase.Negotiating → s.phase.Negotiating := by
    rintro _ rfl hnegotiating
    exact hnegotiating
  cases hturn with
  | starts hphase => exact (discoverRound_negotiates c _ e _ _).moves (hfrom _ hphase trivial)
  | rediscovers hphase => exact (discoverRound_negotiates c _ e _ _).moves (hfrom _ hphase trivial)
  | hears hphase => exact (requestRound_negotiates c _ e _ _ _).moves (hfrom _ hphase trivial)
  | rerequests hphase => exact (requestRound_negotiates c _ e _ _ _).moves (hfrom _ hphase trivial)
  | accepts hack => exact .accepts hack
  | fails => exact negotiationFailed_moves
  | configures hphase => exact .configures hphase
  | configureFails hphase =>
    have hround := discoverRound_negotiates c { s with now := e.now, kernel := .failed } e e.xid initialRetryDelaySecs
    exact .configureFails hphase hround.now hround.phase hround.lease hround.kernel
  | rounds hphase => exact boundRound_moves hphase
  | wakes hphase hle => exact .wakes hphase hle
  | renews hphase hle => exact renewRound_moves _ _ (.inr ⟨_, _, _, hphase, hle⟩)
  | abandons => exact boundFailed_moves
  | waits hdue hlt => exact .waits hdue hlt

/-- An ACK the client waits for is applied. -/
theorem client_accepts {ack : DhcpAck} (hle : s.now ≤ e.now) (h : Accepts c s e ack) :
    (client c).step s e = some (applyLeaseConfig { s with now := e.now } ack) := by
  obtain ⟨xid, buf, hxid, hin, hack⟩ := h
  simp only [client, if_pos hle]
  obtain ⟨now, lease, kernel, phase, sent⟩ := s
  cases phase with
  | requesting x offer delay deadline =>
    obtain rfl : x = xid := Option.some.inj hxid
    simp only [resume, hin, hack]
  | renewing current boundAt x renewSent deadline =>
    obtain rfl : x = xid := Option.some.inj hxid
    simp only [resume, hin, hack]
  | _ => exact absurd hxid (by simp [Phase.awaitsAck])

end RustyRouter.Wan
