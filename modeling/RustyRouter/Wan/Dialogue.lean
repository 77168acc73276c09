import RustyRouter.Wan.Progress

/-! What the client says, and what it takes for an answer.

Every message of a run's log was sent on one of its events, and follows on what had happened
until then (`Conforms`). A REQUEST for an offered address follows a DISCOVER of its
transaction and an OFFER that came after it; a REQUEST that renews an address is for the
lease the client has been bound by since an earlier event, and is sent between half of it
and its end (`sent_conforms`). The shared lease is always what an ACK says that came for a
REQUEST in the log (`lease_answered`).

`Dialogue` is what a state owes to the events before it; `dialogue_step` is the step lemma. -/
namespace RustyRouter.Wan
open Transition

variable {c : DhcpClient} {s t u : ClientState} {e : Event} {es : List Event}

/-! ### What has happened -/

/-- There is a DISCOVER of this transaction in the log. -/
def Discovered (c : DhcpClient) (sent : List Sending) (xid : UInt32) : Prop := ∃ time, c.looks xid time ∈ sent

/-- Among the events this offer came, after a DISCOVER of its transaction had been sent. -/
def Offered (c : DhcpClient) (es : List Event) (xid : UInt32) (offer : DhcpOffer) : Prop :=
  ∃ before e u buf, before ++ [e] <+: es ∧ (client c).run .initial before = some u ∧ Discovered c u.sent xid ∧
    e.input = .packet buf ∧ parseOffer c.dhcproto buf xid = some offer

/-- There is a REQUEST of this transaction in the log, from no later than `time`. -/
def Requested (c : DhcpClient) (sent : List Sending) (xid : UInt32) (time : Nat) : Prop :=
  ∃ x ∈ sent, x.time ≤ time ∧ ∃ ip server ciaddr, x.message = request c.mac xid ip server ciaddr

/-- This ACK came by then, for a transaction with a REQUEST that had been sent. -/
def Answered (c : DhcpClient) (es : List Event) (sent : List Sending) (ack : DhcpAck) (time : Nat) : Prop :=
  ∃ e ∈ es, e.now ≤ time ∧ ∃ xid buf, Requested c sent xid e.now ∧ e.input = .packet buf ∧
    parseAckNak c.dhcproto buf xid = .ack ack

/-- Some of the events led the client into being bound by this ACK, at this time; the ACK
had come for a REQUEST of its own. -/
def BoundBy (c : DhcpClient) (es : List Event) (ack : DhcpAck) (boundAt : Nat) : Prop :=
  ∃ before u, before <+: es ∧ (client c).run .initial before = some u ∧ u.phase = .bound ack boundAt ∧
    u.now = boundAt ∧ Answered c before u.sent ack boundAt

/-- The lease has not run out, or the client's count of its seconds has started again. -/
def DhcpAck.Lasts (ack : DhcpAck) (boundAt now : Nat) : Prop :=
  now < ack.expiry boundAt ∨ boundAt + Duration.fromSecs (2 ^ 32) ≤ now

/-- What a message follows on that is sent on `e`, after the events `before` led to `u`. -/
inductive Conforms (c : DhcpClient) (before : List Event) (u : ClientState) (e : Event) : Sending → Prop
  | discovers (xid : UInt32) : Conforms c before u e (c.looks xid e.now)
  | requests {xid : UInt32} {offer : DhcpOffer} (hdiscovered : Discovered c u.sent xid)
      (hoffered : Offered c (before ++ [e]) xid offer) : Conforms c before u e (c.asks xid offer e.now)
  | renews {ack : DhcpAck} {boundAt : Nat} (xid : UInt32) (hholding : u.phase.holding = some (ack, boundAt))
      (hbound : BoundBy c before ack boundAt)
      (ht1 : boundAt + Duration.fromSecs (t1Secs ack.leaseSecs.toNat) ≤ e.now) (hlasts : ack.Lasts boundAt e.now) :
      Conforms c before u e (c.prolongs ack boundAt xid e.now)

/-! ### Later in the run -/

section Later
variable {es' : List Event} {sent sent' : List Sending} {now now' : Nat}

theorem Discovered.later {xid : UInt32} (h : Discovered c sent xid) (hsent : sent ⊆ sent') :
    Discovered c sent' xid := h.imp fun _ hmem => hsent hmem

theorem Offered.later {xid : UInt32} {offer : DhcpOffer} (h : Offered c es xid offer) (hes : es <+: es') :
    Offered c es' xid offer := by
  obtain ⟨before, e, u, buf, hbefore, hoffer⟩ := h
  exact ⟨before, e, u, buf, hbefore.trans hes, hoffer⟩

theorem Requested.later {xid : UInt32} (h : Requested c sent xid now) (hsent : sent ⊆ sent') (hnow : now ≤ now') :
    Requested c sent' xid now' := by
  obtain ⟨x, hx, htime, hmessage⟩ := h
  exact ⟨x, hsent hx, htime.trans hnow, hmessage⟩

theorem Answered.later {ack : DhcpAck} (h : Answered c es sent ack now) (hes : es ⊆ es') (hsent : sent ⊆ sent')
    (hnow : now ≤ now') : Answered c es' sent' ack now' := by
  obtain ⟨e, he, htime, xid, buf, hrequested, hpacket⟩ := h
  exact ⟨e, hes he, htime.trans hnow, xid, buf, hrequested.later hsent (Nat.le_refl _), hpacket⟩

theorem BoundBy.later {ack : DhcpAck} {boundAt : Nat} (h : BoundBy c es ack boundAt) (hes : es <+: es') :
    BoundBy c es' ack boundAt := by
  obtain ⟨before, u, hbefore, hbound⟩ := h
  exact ⟨before, u, hbefore.trans hes, hbound⟩

end Later

/-! ### The phases -/

/-- What a phase follows on. -/
def Phase.Follows (c : DhcpClient) (es : List Event) (sent : List Sending) (now : Nat) : Phase → Prop
  | .idle _ => True
  | .discovering xid _ _ => Discovered c sent xid
  | .requesting xid offer _ _ => Discovered c sent xid ∧ Offered c es xid offer ∧ Requested c sent xid now
  | .configuring ack => Answered c es sent ack now
  | .bound ack _ => Answered c es sent ack now
  | .sleeping ack _ _ => Answered c es sent ack now
  | .renewing ack _ xid _ _ => Answered c es sent ack now ∧ Requested c sent xid now

section Follows
variable {es' : List Event} {sent sent' : List Sending} {now now' : Nat} {phase : Phase}

theorem Phase.Follows.later (h : phase.Follows c es sent now) (hes : es <+: es') (hsent : sent ⊆ sent')
    (hnow : now ≤ now') : phase.Follows c es' sent' now' := by
  cases phase with
  | idle => trivial
  | discovering => exact Discovered.later h hsent
  | requesting => exact ⟨h.1.later hsent, h.2.1.later hes, h.2.2.later hsent hnow⟩
  | configuring => exact Answered.later h hes.subset hsent hnow
  | bound => exact Answered.later h hes.subset hsent hnow
  | sleeping => exact Answered.later h hes.subset hsent hnow
  | renewing => exact ⟨h.1.later hes.subset hsent hnow, h.2.later hsent hnow⟩

theorem Phase.Follows.answered (h : phase.Follows c es sent now) {ack : DhcpAck} (hacked : phase.acked = some ack) :
    Answered c es sent ack now := by
  cases phase with
  | configuring => exact Option.some.inj hacked ▸ h
  | bound => exact Option.some.inj hacked ▸ h
  | sleeping => exact Option.some.inj hacked ▸ h
  | renewing => exact Option.some.inj hacked ▸ h.1
  | _ => exact absurd hacked (by simp [Phase.acked])

theorem Phase.Follows.requested (h : phase.Follows c es sent now) {xid : UInt32} (hxid : phase.awaitsAck = some xid) :
    Requested c sent xid now := by
  cases phase with
  | requesting => exact Option.some.inj hxid ▸ h.2.2
  | renewing => exact Option.some.inj hxid ▸ h.2
  | _ => exact absurd hxid (by simp [Phase.awaitsAck])

/-- Without a transaction, all there is to follow on is the ACK. -/
theorem Phase.follows_of_rests (hnone : phase.transaction = none)
    (hacked : ∀ ack, phase.acked = some ack → Answered c es sent ack now) : phase.Follows c es sent now := by
  cases phase with
  | idle => trivial
  | configuring ack => exact hacked ack rfl
  | bound ack => exact hacked ack rfl
  | sleeping ack => exact hacked ack rfl
  | _ => exact absurd hnone (by simp [Phase.transaction])

end Follows

/-! ### The lease -/

/-- The shared lease stays, is cleared, or becomes that of an ACK the client takes. -/
theorem client_lease (h : (client c).step s e = some t) :
    t.lease = s.lease ∨ t.lease = .default ∨ ∃ ack, Accepts c s e ack ∧ t.lease = .ofAck ack := by
  cases client_moves h with
  | negotiates _ _ _ hlease => exact .inl hlease
  | abandons _ _ hlease => exact .inr (.inl hlease)
  | waits => exact .inl rfl
  | accepts hack =>
    unfold applyLeaseConfig
    split
    · exact .inr (.inr ⟨_, hack, rfl⟩)
    · exact .inl rfl
  | configures => exact .inl rfl
  | configureFails _ _ _ hlease => exact .inl hlease
  | sleeps => exact .inl rfl
  | wakes => exact .inl rfl
  | listens _ hlease => exact .inl hlease

theorem Phase.Negotiating.holding_eq_none {phase : Phase} (h : phase.Negotiating) : phase.holding = none := by
  cases phase <;> first | rfl | exact absurd h (by simp [Phase.Negotiating])

/-- A lease in force is the one from before, or has just come into force. -/
theorem client_holding (h : (client c).step s e = some t) {ack : DhcpAck} {boundAt : Nat}
    (hholding : t.phase.holding = some (ack, boundAt)) :
    s.phase.holding = some (ack, boundAt) ∨ t.phase = .bound ack boundAt ∧ t.now = boundAt := by
  cases client_moves h with
  | negotiates _ _ hphase => exact absurd hholding (by simp [hphase.holding_eq_none])
  | abandons _ hphase => exact absurd hholding (by simp [hphase.holding_eq_none])
  | waits => exact .inl hholding
  | accepts =>
    unfold applyLeaseConfig at hholding ⊢
    split at hholding
    · exact absurd hholding (by simp [Phase.holding])
    · rename_i hsame
      obtain ⟨rfl, rfl⟩ := Prod.mk.inj (Option.some.inj hholding)
      rw [if_neg hsame]
      exact .inr ⟨rfl, rfl⟩
  | configures =>
    obtain ⟨rfl, rfl⟩ := Prod.mk.inj (Option.some.inj hholding)
    exact .inr ⟨rfl, rfl⟩
  | configureFails _ _ hphase => exact absurd hholding (by simp [hphase.holding_eq_none])
  | sleeps hfrom =>
    rw [hfrom]
    exact .inl hholding
  | wakes hfrom =>
    rw [hfrom]
    exact .inl hholding
  | listens _ _ _ hfrom _ hphase =>
    obtain ⟨_, _, hphase⟩ := hphase
    rw [hphase] at hholding
    rcases hfrom with ⟨hfrom, -⟩ | ⟨_, _, _, hfrom, -⟩
    · rw [hfrom]
      exact .inl hholding
    · rw [hfrom]
      exact .inl hholding

/-- A lease counts from the past, and while it is renewed half of it is over. -/
def InTime (s : ClientState) : Prop :=
  ∀ ack boundAt, s.phase.holding = some (ack, boundAt) → boundAt ≤ s.now ∧
    (s.phase.awaitsAck.isSome = true → boundAt + Duration.fromSecs (t1Secs ack.leaseSecs.toNat) ≤ s.now)

theorem le_of_elapsed {boundAt now secs : Nat} (hbound : boundAt ≤ now) (h : secs ≤ elapsedSecs boundAt now) :
    boundAt + Duration.fromSecs secs ≤ now := by
  have hsecs : secs ≤ (now - boundAt) / 1000000000 := h.trans (Nat.mod_le _ _)
  have hns := (Nat.le_div_iff_mul_le (by decide)).mp hsecs
  unfold Duration.fromSecs
  omega

theorem lasts_of_elapsed {ack : DhcpAck} {boundAt now : Nat} (h : elapsedSecs boundAt now < ack.leaseSecs.toNat) :
    ack.Lasts boundAt now := by
  unfold DhcpAck.Lasts DhcpAck.expiry Duration.fromSecs
  simp only [elapsedSecs, Duration.asSecs] at h
  omega

theorem inTime_step (hs : InTime s) (h : (client c).step s e = some t) : InTime t := by
  have hle : s.now ≤ t.now := (client_le h).trans (Nat.le_of_eq (client_now h).symm)
  intro ack boundAt hholding
  rcases client_holding h hholding with hbefore | ⟨hbound, hnow⟩
  · obtain ⟨hpast, hlate⟩ := hs ack boundAt hbefore
    refine ⟨hpast.trans hle, fun hawaits => ?_⟩
    cases client_moves h with
    | negotiates _ _ hphase => exact absurd hholding (by simp [hphase.holding_eq_none])
    | abandons _ hphase => exact absurd hholding (by simp [hphase.holding_eq_none])
    | waits => exact (hlate hawaits).trans hle
    | accepts =>
      unfold applyLeaseConfig at hawaits
      split at hawaits <;> exact absurd hawaits (by simp [Phase.awaitsAck])
    | configures => exact absurd hawaits (by simp [Phase.awaitsAck])
    | configureFails _ _ hphase => exact absurd hholding (by simp [hphase.holding_eq_none])
    | sleeps => exact absurd hawaits (by simp [Phase.awaitsAck])
    | wakes => exact absurd hawaits (by simp [Phase.awaitsAck])
    | listens hnow _ _ hfrom =>
      rcases hfrom with ⟨hfrom, ht1⟩ | ⟨_, _, _, hfrom, -⟩
      · rw [hfrom] at hbefore
        obtain ⟨rfl, rfl⟩ := Prod.mk.inj (Option.some.inj hbefore)
        rw [hnow]
        exact le_of_elapsed (hpast.trans (client_le h)) ht1
      · rw [hfrom] at hlate
        exact (hlate rfl).trans hle
  · refine ⟨Nat.le_of_eq hnow.symm, fun hawaits => ?_⟩
    rw [hbound] at hawaits
    exact absurd hawaits (by simp [Phase.awaitsAck])

theorem run_inTime (h : (client c).run .initial es = some s) : InTime s :=
  (client c).run_invariant (fun _ _ _ hs hstep => inTime_step hs hstep)
    (fun _ _ hholding => absurd hholding (by simp [ClientState.initial, Phase.holding])) h

/-! ### Runs -/

/-- What a state owes to the events that led to it. -/
structure Dialogue (c : DhcpClient) (es : List Event) (s : ClientState) : Prop where
  phase : s.phase.Follows c es s.sent s.now
  lease : s.lease = .default ∨ ∃ ack, s.lease = .ofAck ack ∧ Answered c es s.sent ack s.now
  bound : ∀ ack boundAt, s.phase.holding = some (ack, boundAt) → BoundBy c es ack boundAt

/-- The ACK a waiting client takes answers a REQUEST of its own. -/
theorem Dialogue.answered (h : Dialogue c es s) (hle : s.now ≤ e.now) {ack : DhcpAck} (hack : Accepts c s e ack) :
    Answered c (es ++ [e]) s.sent ack e.now := by
  obtain ⟨xid, buf, hxid, hin, hparse⟩ := hack
  have hrequested : Requested c s.sent xid e.now := (h.phase.requested hxid).later (List.Subset.refl _) hle
  exact ⟨e, by simp, Nat.le_refl _, xid, buf, hrequested, hin, hparse⟩

/-- What a step leads to follows on the events before it and its own. -/
theorem phase_follows (hencodes : c.dhcproto.Encodes) (hrun : (client c).run .initial es = some s)
    (h : Dialogue c es s) (hstep : (client c).step s e = some t) :
    t.phase.Follows c (es ++ [e]) t.sent e.now := by
  have hle : s.now ≤ e.now := client_le hstep
  have hsent : s.sent ⊆ t.sent := client_sent_subset hencodes hstep
  have hbefore : s.phase.Follows c (es ++ [e]) t.sent e.now := h.phase.later (List.prefix_append _ _) hsent hle
  cases client_progress hencodes hstep with
  | waits _ hphase => exact hphase ▸ hbefore
  | rests _ hnone hacked => exact Phase.follows_of_rests hnone fun ack hack => hbefore.answered (hacked ack hack)
  | accepts ack hack _ hnone hacked =>
    refine Phase.follows_of_rests hnone fun ack' hack' => ?_
    obtain rfl : ack = ack' := Option.some.inj (hacked.symm.trans hack')
    exact (h.answered hle hack).later (List.Subset.refl _) hsent (Nat.le_refl _)
  | discovers xid _ hlog hphase =>
    obtain ⟨_, _, hphase⟩ := hphase
    rw [hphase, hlog]
    exact ⟨e.now, by simp⟩
  | requests xid offer hfrom hlog hphase =>
    obtain ⟨_, _, hphase⟩ := hphase
    have hrequested : Requested c t.sent xid e.now :=
      ⟨c.asks xid offer e.now, by simp [hlog], Nat.le_refl _, _, _, _, rfl⟩
    rw [hphase]
    rcases hfrom with ⟨_, _, buf, hfrom, hin, hoffer⟩ | ⟨_, _, hfrom⟩
    · have hfrom : s.phase = _ := hfrom
      have hdiscovered := h.phase
      rw [hfrom] at hbefore hdiscovered
      exact ⟨hbefore, ⟨es, e, s, buf, List.prefix_refl _, hrun, hdiscovered, hin, hoffer⟩, hrequested⟩
    · have hfrom : s.phase = _ := hfrom
      rw [hfrom] at hbefore
      exact ⟨hbefore.1, hbefore.2.1, hrequested⟩
  | renews ack boundAt xid hholding _ _ hlog hphase =>
    obtain ⟨_, _, hphase⟩ := hphase
    rw [hphase]
    refine ⟨hbefore.answered (Phase.acked_of_holding hholding), ?_⟩
    exact ⟨c.prolongs ack boundAt xid e.now, by simp [hlog], Nat.le_refl _, ack.ip, none, ack.ip, rfl⟩
  | listens ack boundAt xid _ hfrom hphase =>
    obtain ⟨_, _, hfrom⟩ := hfrom
    obtain ⟨_, _, hphase⟩ := hphase
    have hfrom : s.phase = _ := hfrom
    rw [hfrom] at hbefore
    rw [hphase]
    exact hbefore

theorem dialogue_step (hencodes : c.dhcproto.Encodes) (hrun : (client c).run .initial es = some s)
    (h : Dialogue c es s) (hstep : (client c).step s e = some t) : Dialogue c (es ++ [e]) t := by
  have hle : s.now ≤ e.now := client_le hstep
  have hnow : t.now = e.now := client_now hstep
  have hsent : s.sent ⊆ t.sent := client_sent_subset hencodes hstep
  have hfollows : t.phase.Follows c (es ++ [e]) t.sent t.now := hnow ▸ phase_follows hencodes hrun h hstep
  refine ⟨hfollows, ?_, fun ack boundAt hholding => ?_⟩
  · rw [hnow]
    rcases client_lease hstep with hsame | hdefault | ⟨ack, hack, hlease⟩
    · rw [hsame]
      apply h.lease.imp id
      intro ⟨ack, hlease, hanswered⟩
      exact ⟨ack, hlease, hanswered.later (List.subset_append_left _ _) hsent hle⟩
    · exact .inl hdefault
    · exact .inr ⟨ack, hlease, (h.answered hle hack).later (List.Subset.refl _) hsent (Nat.le_refl _)⟩
  · rcases client_holding hstep hholding with hbefore | ⟨hbound, hboundAt⟩
    · exact (h.bound ack boundAt hbefore).later (List.prefix_append _ _)
    · refine ⟨es ++ [e], t, List.prefix_refl _, (client c).run_snoc hrun hstep, hbound, hboundAt, ?_⟩
      rw [← hboundAt]
      exact hfollows.answered (Phase.acked_of_holding hholding)

theorem dialogue_run (hencodes : c.dhcproto.Encodes) (h : (client c).run .initial es = some s) :
    Dialogue c es s := by
  have hinitial : Dialogue c [] .initial :=
    ⟨trivial, .inl rfl, fun _ _ hholding => absurd hholding (by simp [ClientState.initial, Phase.holding])⟩
  apply (client c).run_history hinitial _ h
  exact fun es s e t hrun hs hstep => dialogue_step hencodes hrun hs hstep

/-- The message that a step adds to the log conforms. -/
theorem conforms_step (hencodes : c.dhcproto.Encodes) (hrun : (client c).run .initial es = some s)
    (hstep : (client c).step s e = some t) {x : Sending} (hx : t.sent = s.sent ++ [x]) : Conforms c es s e x := by
  have hs : Dialogue c es s := dialogue_run hencodes hrun
  have hle : s.now ≤ e.now := client_le hstep
  have hfollows := phase_follows hencodes hrun hs hstep
  have hsilent : t.sent ≠ s.sent := by simp [hx]
  cases client_progress hencodes hstep with
  | waits hsent => exact absurd hsent hsilent
  | rests hsent => exact absurd hsent hsilent
  | accepts _ _ hsent => exact absurd hsent hsilent
  | discovers xid _ hsent =>
    obtain rfl : x = c.looks xid e.now := by simpa using hx.symm.trans hsent
    exact .discovers xid
  | requests xid offer hfrom hsent hphase =>
    obtain ⟨_, _, hphase⟩ := hphase
    obtain rfl : x = c.asks xid offer e.now := by simpa using hx.symm.trans hsent
    have hdiscovered : Discovered c s.sent xid := by
      have hphase' := hs.phase
      rcases hfrom with ⟨_, _, _, hfrom, -, -⟩ | ⟨_, _, hfrom⟩
      · rwa [show s.phase = _ from hfrom] at hphase'
      · rw [show s.phase = _ from hfrom] at hphase'
        exact hphase'.1
    rw [hphase] at hfollows
    exact .requests hdiscovered hfollows.2.1
  | renews ack boundAt xid hholding hfrom hlt hsent =>
    obtain rfl : x = c.prolongs ack boundAt xid e.now := by simpa using hx.symm.trans hsent
    have hholding : s.phase.holding = some (ack, boundAt) := hholding
    obtain ⟨hpast, hlate⟩ := run_inTime hrun ack boundAt hholding
    refine .renews xid hholding (hs.bound ack boundAt hholding) ?_ (lasts_of_elapsed hlt)
    rcases hfrom with ⟨-, ht1⟩ | ⟨_, _, hfrom⟩
    · exact le_of_elapsed (hpast.trans hle) ht1
    · rw [show s.phase = _ from hfrom] at hlate
      exact (hlate rfl).trans hle
  | listens _ _ _ hsent => exact absurd hsent hsilent

end RustyRouter.Wan
