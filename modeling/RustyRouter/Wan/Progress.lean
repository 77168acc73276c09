import RustyRouter.Wan.Requesting

/-! What one step of the client adds to its log.

`Progress` is what the code paths of a step come to as far as the log and the transactions
go: a round that sends one message, an ACK that is taken, or neither.
What the client says in a run, and under which transaction IDs, is derived from it. -/
namespace RustyRouter.Wan
open Transition

/-- The transaction that is under way. -/
def Phase.transaction : Phase → Option UInt32
  | .discovering xid _ _ => some xid
  | .requesting xid _ _ _ => some xid
  | .renewing _ _ xid _ _ => some xid
  | _ => none

/-- The ACK the client lives by, from when it takes it. -/
def Phase.acked : Phase → Option DhcpAck
  | .configuring ack => some ack
  | .bound ack _ => some ack
  | .sleeping ack _ _ => some ack
  | .renewing ack _ _ _ _ => some ack
  | _ => none

variable {c : DhcpClient} {s t : ClientState} {e : Event}

theorem Phase.acked_of_holding {phase : Phase} {ack : DhcpAck} {boundAt : Nat}
    (h : phase.holding = some (ack, boundAt)) : phase.acked = some ack := by
  cases phase <;> simp_all [Phase.holding, Phase.acked]

/-! ### Messages -/

/-- The DISCOVER of a transaction, as `discover_phase` sends it. -/
def DhcpClient.looks (c : DhcpClient) (xid : UInt32) (time : Nat) : Sending :=
  ⟨time, discover c.mac xid, Ipv4Addr.broadcast⟩

/-- The REQUEST of `renew_lease`. -/
def DhcpClient.prolongs (c : DhcpClient) (ack : DhcpAck) (boundAt : Nat) (xid : UInt32) (time : Nat) : Sending :=
  ⟨time, request c.mac xid ack.ip none ack.ip,
    (calculateRenewalParams (elapsedSecs boundAt time) (t2Secs ack.leaseSecs.toNat) ack.leaseSecs.toNat
      ack.serverIp).destIp⟩

/-! ### The clock -/

theorem client_le (h : (client c).step s e = some t) : s.now ≤ e.now := (client_turns h).1

theorem client_now (h : (client c).step s e = some t) : t.now = e.now := by
  cases client_moves h with
  | negotiates _ hnow => exact hnow
  | abandons hnow => exact hnow
  | waits => rfl
  | accepts =>
    unfold applyLeaseConfig
    split <;> rfl
  | configures => rfl
  | configureFails _ hnow => exact hnow
  | sleeps => rfl
  | wakes => rfl
  | listens hnow => exact hnow

/-! ### The log -/

/-- The event is an OFFER the client takes. -/
def Hears (c : DhcpClient) (s : ClientState) (e : Event) (xid : UInt32) (offer : DhcpOffer) : Prop :=
  ∃ delay deadline buf, s.phase = .discovering xid delay deadline ∧ e.input = .packet buf ∧
    parseOffer c.dhcproto buf xid = some offer

/-- What a step adds to the log, and where it leads. -/
inductive Progress (c : DhcpClient) (s : ClientState) (e : Event) (t : ClientState) : Prop
  | waits (hsent : t.sent = s.sent) (hphase : t.phase = s.phase)
  | rests (hsent : t.sent = s.sent) (hnone : t.phase.transaction = none)
      (hacked : ∀ ack, t.phase.acked = some ack → s.phase.acked = some ack)
  | accepts (ack : DhcpAck) (hack : Accepts c s e ack) (hsent : t.sent = s.sent)
      (hnone : t.phase.transaction = none) (hacked : t.phase.acked = some ack)
  | discovers (xid : UInt32) (hxid : xid = e.xid ∨ ∃ delay deadline, s.phase = .discovering xid delay deadline)
      (hsent : t.sent = s.sent ++ [c.looks xid s.now])
      (hphase : ∃ delay deadline, t.phase = .discovering xid delay deadline)
  | requests (xid : UInt32) (offer : DhcpOffer)
      (hfrom : Hears c s e xid offer ∨ ∃ delay deadline, s.phase = .requesting xid offer delay deadline)
      (hsent : t.sent = s.sent ++ [c.asks xid offer s.now])
      (hphase : ∃ delay deadline, t.phase = .requesting xid offer delay deadline)
  | renews (ack : DhcpAck) (boundAt : Nat) (xid : UInt32) (hholding : s.phase.holding = some (ack, boundAt))
      (hfrom : xid = e.xid ∧ t1Secs ack.leaseSecs.toNat ≤ elapsedSecs boundAt s.now ∨
        ∃ sentAt deadline, s.phase = .renewing ack boundAt xid sentAt deadline)
      (hlt : elapsedSecs boundAt s.now < ack.leaseSecs.toNat)
      (hsent : t.sent = s.sent ++ [c.prolongs ack boundAt xid s.now])
      (hphase : ∃ sentAt deadline, t.phase = .renewing ack boundAt xid sentAt deadline)
  | listens (ack : DhcpAck) (boundAt : Nat) (xid : UInt32) (hsent : t.sent = s.sent)
      (hfrom : ∃ sentAt deadline, s.phase = .renewing ack boundAt xid sentAt deadline)
      (hphase : ∃ sentAt deadline, t.phase = .renewing ack boundAt xid sentAt deadline)

theorem applyLeaseConfig_progress {ack : DhcpAck} (hack : Accepts c s e ack) :
    Progress c s e (applyLeaseConfig s ack) := by
  unfold applyLeaseConfig
  split
  · exact .accepts ack hack rfl rfl rfl
  · exact .accepts ack hack rfl rfl rfl

section Rounds
variable (hencodes : c.dhcproto.Encodes)
include hencodes

/-- A round of discovery, whatever became of the lease before it. -/
theorem discoverRound_progress {u : ClientState} (hsent : u.sent = s.sent) (hnow : u.now = s.now) {xid : UInt32}
    (hxid : xid = e.xid ∨ ∃ delay deadline, s.phase = .discovering xid delay deadline) (delay : Nat) :
    Progress c s e (discoverRound c u e xid delay) := by
  have hround : discoverRound c u e xid delay =
      { u with
        phase := .discovering xid delay (u.now + getJitteredDuration delay e.jitter)
        sent := u.sent ++ [c.looks xid u.now] } := by
    rw [discoverRound, sendDiscover, sendDhcpMessage_of_encodes hencodes]
    rfl
  refine .discovers xid hxid ?_ ⟨delay, _, rfl⟩
  rw [hround, ← hsent, ← hnow]

theorem boundFailed_progress : Progress c s e (boundFailed c s e) :=
  discoverRound_progress hencodes (s := s) (u := deconfigure s) rfl rfl (.inl rfl) initialRetryDelaySecs

theorem requestRound_progress {xid : UInt32} {offer : DhcpOffer}
    (hfrom : Hears c s e xid offer ∨ ∃ delay deadline, s.phase = .requesting xid offer delay deadline)
    (delay : Nat) :
    Progress c s e (requestRound c s e xid offer delay) := by
  refine .requests xid offer hfrom ?_ ⟨delay, _, rfl⟩
  rw [requestRound_of_encodes hencodes]

/-- The first round of a renewal sends. -/
theorem renewRound_progress {ack : DhcpAck} {boundAt : Nat} {xid : UInt32} {renewSent : Option Nat}
    (hholding : s.phase.holding = some (ack, boundAt))
    (hfrom : renewSent = none ∧ xid = e.xid ∧ t1Secs ack.leaseSecs.toNat ≤ elapsedSecs boundAt s.now ∨
      ∃ sentAt deadline, s.phase = .renewing ack boundAt xid sentAt deadline) :
    Progress c s e (renewRound c s e ack boundAt xid renewSent) := by
  unfold renewRound
  dsimp only
  split
  · exact boundFailed_progress hencodes
  · rename_i hlt
    split
    · refine .renews ack boundAt xid hholding (hfrom.imp And.right id) (Nat.not_le.mp hlt) ?_ ⟨_, _, rfl⟩
      rw [sendRequest, sendDhcpMessage_of_encodes hencodes]
      rfl
    · rename_i hsilent
      refine .listens ack boundAt xid rfl (hfrom.resolve_left ?_) ⟨_, _, rfl⟩
      rintro ⟨rfl, -⟩
      exact hsilent rfl

theorem boundRound_progress {ack : DhcpAck} {boundAt : Nat} (hphase : s.phase = .bound ack boundAt) :
    Progress c s e (boundRound c s e ack boundAt) := by
  unfold boundRound
  dsimp only
  split
  · exact boundFailed_progress hencodes
  · split
    · refine .rests rfl rfl fun ack' h => ?_
      rw [hphase]
      exact h
    · rename_i ht1
      exact renewRound_progress hencodes (by rw [hphase]; rfl) (.inl ⟨rfl, rfl, Nat.not_lt.mp ht1⟩)

/-- **What the client does on an event**, as its log and its transactions show it. -/
theorem client_progress (h : (client c).step s e = some t) : Progress c { s with now := e.now } e t := by
  obtain ⟨-, hturn⟩ := client_turns h
  generalize { s with now := e.now } = u at hturn ⊢
  cases hturn with
  | starts => exact discoverRound_progress hencodes rfl rfl (.inl rfl) _
  | rediscovers hphase => exact discoverRound_progress hencodes rfl rfl (.inr ⟨_, _, hphase⟩) _
  | hears hphase hin hoffer => exact requestRound_progress hencodes (.inl ⟨_, _, _, hphase, hin, hoffer⟩) _
  | rerequests hphase => exact requestRound_progress hencodes (.inr ⟨_, _, hphase⟩) _
  | accepts hack => exact applyLeaseConfig_progress hack
  | fails => exact .rests rfl rfl fun ack h => absurd h (by simp [negotiationFailed, Phase.acked])
  | configures hphase =>
    refine .rests rfl rfl fun ack h => ?_
    rw [hphase]
    exact h
  | configureFails =>
    have hfailed := @discoverRound_progress c u e hencodes { u with kernel := .failed } rfl rfl e.xid (.inl rfl)
    exact hfailed initialRetryDelaySecs
  | rounds hphase => exact boundRound_progress hencodes hphase
  | wakes hphase =>
    refine .rests rfl rfl fun ack h => ?_
    rw [hphase]
    exact h
  | renews hphase => exact renewRound_progress hencodes (by rw [hphase]; rfl) (.inr ⟨_, _, hphase⟩)
  | abandons => exact boundFailed_progress hencodes
  | waits => exact .waits rfl rfl

/-- At most one message is added in a step. -/
theorem client_sent (h : (client c).step s e = some t) : t.sent = s.sent ∨ ∃ x, t.sent = s.sent ++ [x] := by
  cases client_progress hencodes h with
  | waits hsent => exact .inl hsent
  | rests hsent => exact .inl hsent
  | accepts _ _ hsent => exact .inl hsent
  | discovers _ _ hsent => exact .inr ⟨_, hsent⟩
  | requests _ _ _ hsent => exact .inr ⟨_, hsent⟩
  | renews _ _ _ _ _ _ hsent => exact .inr ⟨_, hsent⟩
  | listens _ _ _ hsent => exact .inl hsent

theorem client_sent_subset (h : (client c).step s e = some t) : s.sent ⊆ t.sent := by
  rcases client_sent hencodes h with hsame | ⟨x, hsnoc⟩
  · rw [hsame]
    exact List.Subset.refl _
  · rw [hsnoc]
    exact List.subset_append_left _ _

end Rounds

end RustyRouter.Wan
