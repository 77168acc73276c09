import RustyRouter.Backoff
import RustyRouter.Wan.LeaseTime

/-! A request that nobody answers.

After an offer the client asks for the address until it hears an ACK or a NAK. It counts
neither its requests nor the time: a request that nobody answers is sent again, with delays
that double up to about a minute, and the client does nothing else any more. It does not go
back to discovering, whatever else arrives. -/
namespace RustyRouter.Wan
open Transition

/-- A timeout, or a packet that is neither an ACK nor a NAK of the transaction. -/
def Unanswered (c : DhcpClient) (xid : UInt32) (e : Event) : Prop :=
  e.input = .timeout ∨ ∃ buf, e.input = .packet buf ∧ parseAckNak c.dhcproto buf xid = .none

/-- In `request_phase`, for this offer. -/
def Phase.Requests (xid : UInt32) (offer : DhcpOffer) : Phase → Prop
  | .requesting x o _ _ => x = xid ∧ o = offer
  | _ => False

variable {c : DhcpClient} {s t : ClientState} {e : Event} {xid : UInt32} {offer : DhcpOffer}

theorem sendDhcpMessage_of_encodes (hencodes : c.dhcproto.Encodes) (message : Message) (destIp : Ipv4Addr) :
    sendDhcpMessage c s message destIp = { s with sent := s.sent ++ [⟨s.now, message, destIp⟩] } := by
  obtain ⟨bytes, hbytes⟩ := hencodes message
  rw [sendDhcpMessage, hbytes]

theorem requestRound_phase {delay : Nat} :
    (requestRound c s e xid offer delay).phase =
      .requesting xid offer delay (s.now + getJitteredDuration delay e.jitter) := rfl

theorem requestRound_requests {delay : Nat} : (requestRound c s e xid offer delay).phase.Requests xid offer :=
  ⟨rfl, rfl⟩

/-- Without an answer the client goes on asking. -/
theorem requests_step (hs : s.phase.Requests xid offer) (he : Unanswered c xid e)
    (hstep : (client c).step s e = some t) : t.phase.Requests xid offer := by
  obtain ⟨now, lease, kernel, phase, sent⟩ := s
  simp only [client, Option.ite_none_right_eq_some] at hstep
  obtain ⟨-, hstep⟩ := hstep
  cases phase with
  | requesting x o delay deadline =>
    obtain ⟨rfl, rfl⟩ := hs
    rcases he with hin | ⟨buf, hin, hnone⟩
    · simp only [resume, hin, Option.ite_none_right_eq_some, Option.some.injEq] at hstep
      rw [← hstep.2]
      exact ⟨rfl, rfl⟩
    · simp only [resume, hin, hnone] at hstep
      split at hstep
      · rw [← Option.some.inj hstep]
        exact ⟨rfl, rfl⟩
      · rw [← Option.some.inj hstep]
        exact ⟨rfl, rfl⟩
  | _ => exact hs.elim

theorem requests_run {es : List Event} (hs : s.phase.Requests xid offer)
    (hes : ∀ e ∈ es, Unanswered c xid e) (hrun : (client c).run s es = some t) :
    t.phase.Requests xid offer := by
  have halways := System.always_of_along (S := client c) (P := fun s => s.phase.Requests xid offer)
    (R := fun _ e => Unanswered c xid e) (fun s e t hs he hstep => requests_step hs he hstep) hs
    (System.along_of_forall_mem fun e he _ => hes e he)
  exact halways.last hrun

/-! ### The schedule of the requests -/

/-- When a request of the first round at `start` is sent again, if the later delays have no
jitter. -/
def resendAt (start : Nat) : Nat → Nat
  | 0 => start
  | n + 1 => resendAt start n + Duration.fromSecs (Backoff.after maxRetryDelaySecs initialRetryDelaySecs (n + 1))

/-- Every timer fires when due, and nothing arrives. -/
def silence (start n : Nat) : Event := eventAt (resendAt start n) .timeout

theorem calculateNextDelay_eq (delay : Nat) : calculateNextDelay delay = Backoff.next maxRetryDelaySecs delay := by
  simp only [calculateNextDelay, Backoff.next]
  split <;> omega

theorem getJitteredDuration_zero {delay : Nat} (h : 0 < delay) :
    getJitteredDuration delay Jitter.zero = Duration.fromSecs delay := by
  have hle : Duration.fromSecs 1 ≤ Duration.fromSecs delay := Duration.fromSecs_le_fromSecs.mpr h
  rw [getJitteredDuration, Jitter.zero, Int.add_zero, Int.toNat_natCast, Nat.max_eq_right hle]

theorem step_requesting (c : DhcpClient) {delay deadline : Nat}
    (hphase : s.phase = .requesting xid offer delay deadline) (hle : s.now ≤ deadline) :
    (client c).step s (eventAt deadline .timeout) =
      some (requestRound c { s with now := deadline } (eventAt deadline .timeout) xid offer
        (calculateNextDelay delay)) := by
  obtain ⟨now, lease, kernel, phase, sent⟩ := s
  obtain rfl : phase = .requesting xid offer delay deadline := hphase
  simp [client, resume, eventAt, hle]

/-- The request as `request_phase` sends it. -/
def DhcpClient.asks (c : DhcpClient) (xid : UInt32) (offer : DhcpOffer) (time : Nat) : Sending :=
  ⟨time, request c.mac xid offer.offeredIp offer.serverIp Ipv4Addr.unspecified, Ipv4Addr.broadcast⟩

theorem requestRound_of_encodes (hencodes : c.dhcproto.Encodes) (delay : Nat) :
    requestRound c s e xid offer delay =
      { s with
        phase := .requesting xid offer delay (s.now + getJitteredDuration delay e.jitter)
        sent := s.sent ++ [c.asks xid offer s.now] } := by
  rw [requestRound, sendRequest, sendDhcpMessage_of_encodes hencodes]
  rfl

/-- What the client has done after `n` timeouts: it has sent the request `n` times more, and
waits for the next timeout. -/
theorem silence_run (hencodes : c.dhcproto.Encodes) {start : Nat} (hnow : s.now ≤ start)
    (hs : s.phase = .requesting xid offer initialRetryDelaySecs start) (n : Nat) :
    ∃ t, (client c).run s (System.firsts (silence start) n) = some t ∧ t.now ≤ resendAt start n ∧
      t.phase = .requesting xid offer (Backoff.after maxRetryDelaySecs initialRetryDelaySecs n)
        (resendAt start n) ∧
      t.sent = s.sent ++ (List.range n).map fun i => c.asks xid offer (resendAt start i) := by
  induction n with
  | zero => exact ⟨s, rfl, hnow, hs, by simp⟩
  | succ n ih =>
    obtain ⟨t, hrun, hle, hphase, hsent⟩ := ih
    have hstep := step_requesting c hphase hle
    have hdelay : calculateNextDelay (Backoff.after maxRetryDelaySecs initialRetryDelaySecs n) =
        Backoff.after maxRetryDelaySecs initialRetryDelaySecs (n + 1) := by
      rw [calculateNextDelay_eq, Backoff.next_after]
    have hpos : 0 < Backoff.after maxRetryDelaySecs initialRetryDelaySecs (n + 1) := by
      have hpow := Nat.two_pow_pos (n + 1)
      rw [Backoff.after, maxRetryDelaySecs, initialRetryDelaySecs]
      omega
    rw [hdelay, requestRound_of_encodes hencodes] at hstep
    have hwait : getJitteredDuration (Backoff.after maxRetryDelaySecs initialRetryDelaySecs (n + 1))
        (eventAt (resendAt start n) .timeout).jitter = Duration.fromSecs
          (Backoff.after maxRetryDelaySecs initialRetryDelaySecs (n + 1)) := getJitteredDuration_zero hpos
    rw [hwait] at hstep
    simp only [System.firsts_succ]
    refine ⟨_, (client c).run_snoc hrun hstep, Nat.le_add_right _ _, rfl, ?_⟩
    show t.sent ++ [c.asks xid offer (resendAt start n)] = _
    rw [hsent, List.range_succ, List.map_append, List.append_assoc]
    rfl

/-! ### A stream of events -/

/-- A course that the events after the request can take: each of them can happen, none comes
later than the timer, and none is an answer. -/
structure Silence (c : DhcpClient) (s : ClientState) (xid : UInt32) (stream : Nat → Event) : Prop where
  unanswered : ∀ n, Unanswered c xid (stream n)
  punctual : ∀ n, (client c).Along Punctual s (System.firsts stream n)
  possible : ∀ n, ∃ t, (client c).run s (System.firsts stream n) = some t

/-- `request_phase` has come to its end at some point of the stream. -/
def RequestEnds (c : DhcpClient) (s : ClientState) (xid : UInt32) (offer : DhcpOffer)
    (stream : Nat → Event) : Prop :=
  ∃ n t, (client c).run s (System.firsts stream n) = some t ∧ ¬ t.phase.Requests xid offer

/-- The timeouts alone are such a course. -/
theorem silence_course (hencodes : c.dhcproto.Encodes) {start : Nat} (hnow : s.now ≤ start)
    (hs : s.phase = .requesting xid offer initialRetryDelaySecs start) : Silence c s xid (silence start) where
  unanswered _ := .inl rfl
  punctual n := by
    induction n with
    | zero => exact System.along_nil
    | succ n ih =>
      obtain ⟨t, hrun, -, hphase, -⟩ := silence_run hencodes hnow hs n
      rw [System.firsts_succ]
      refine ih.snoc hrun ?_
      simp only [Punctual, hphase, Phase.due, silence, eventAt, Nat.le_refl]
  possible n := by
    obtain ⟨t, hrun, -⟩ := silence_run hencodes hnow hs n
    exact ⟨t, hrun⟩

/-- The client that has just asked. -/
theorem request_now_le (c : DhcpClient) (s : ClientState) (e : Event) (xid : UInt32) (offer : DhcpOffer)
    (hencodes : c.dhcproto.Encodes) :
    (requestRound c s e xid offer initialRetryDelaySecs).now ≤
      s.now + getJitteredDuration initialRetryDelaySecs e.jitter := by
  rw [requestRound_of_encodes hencodes]
  exact Nat.le_add_right _ _

/-- **A request that nobody answers never ends.** Whatever offer was taken, no stream of
events without an answer brings `request_phase` to its end; and while the timers fire in
silence, the client sends the same request for any number of times. -/
theorem request_never_ends (c : DhcpClient) (s : ClientState) (e : Event) (xid : UInt32) (offer : DhcpOffer) :
    (∀ stream, (∀ n, Unanswered c xid (stream n)) →
      ¬ RequestEnds c (requestRound c s e xid offer initialRetryDelaySecs) xid offer stream) ∧
    (c.dhcproto.Encodes → ∃ (stream : Nat → Event) (times : Nat → Nat),
      Silence c (requestRound c s e xid offer initialRetryDelaySecs) xid stream ∧
      ∀ n, ∃ t, (client c).run (requestRound c s e xid offer initialRetryDelaySecs)
          (System.firsts stream n) = some t ∧
        t.sent = (requestRound c s e xid offer initialRetryDelaySecs).sent ++
          (List.range n).map fun i => c.asks xid offer (times i)) := by
  refine ⟨fun stream hstream hends => ?_, fun hencodes => ?_⟩
  · obtain ⟨n, t, hrun, hended⟩ := hends
    refine hended (requests_run requestRound_requests (fun e' he' => ?_) hrun)
    obtain ⟨i, rfl⟩ := System.mem_firsts he'
    exact hstream i
  · have hnow := request_now_le c s e xid offer hencodes
    refine ⟨_, resendAt (s.now + getJitteredDuration initialRetryDelaySecs e.jitter),
      silence_course hencodes hnow requestRound_phase, fun n => ?_⟩
    obtain ⟨t, hrun, -, -, hsent⟩ := silence_run hencodes hnow requestRound_phase n
    exact ⟨t, hrun, hsent⟩

/-- The server that made the offer has gone. -/
theorem request_stuck : ¬ ∀ c s e xid offer stream,
    Silence c (requestRound c s e xid offer initialRetryDelaySecs) xid stream →
      RequestEnds c (requestRound c s e xid offer initialRetryDelaySecs) xid offer stream := by
  intro h
  let e := Uplink.event 0 (.packet (Uplink.offer 7)) 0
  let offer : DhcpOffer := ⟨Ipv4Addr.new 10 0 2 15, none⟩
  have hencodes : Uplink.router.dhcproto.Encodes := Wire.dhcproto_encodes
  have hcourse := silence_course hencodes (request_now_le Uplink.router .initial e 7 offer hencodes)
    (@requestRound_phase _ _ e 7 offer _)
  obtain ⟨n, t, hrun, hended⟩ := h _ _ _ _ _ _ hcourse
  refine hended (requests_run requestRound_requests (fun e' he' => ?_) hrun)
  obtain ⟨i, rfl⟩ := System.mem_firsts he'
  exact hcourse.unanswered i

end RustyRouter.Wan
