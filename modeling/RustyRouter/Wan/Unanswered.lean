import RustyRouter.Wan.Requesting
import RustyRouter.Wan.Rounds

/-! A renewal that nobody answers.

The renewal starts at T1. It asks the server first, broadcasts from T2 on, and gives up
when the lease has run out. All of this holds but for the lease times of the last minute
that 32 bits can count: there the clock wraps before the last window ends, the client takes
its lease to be fresh, and asks again after the end of it. -/
namespace RustyRouter.Wan
open Transition

/-- The whole seconds from `boundAt` to `time`, however many these are. -/
def secsInto (boundAt time : Nat) : Nat := Duration.asSecs (time - boundAt)

/-- What the requests of a renewal are to be like. -/
structure OnSchedule (c : DhcpClient) (ack : DhcpAck) (server : Ipv4Addr) (boundAt : Nat)
    (requests : List Sending) : Prop where
  message : ∃ xid, ∀ r ∈ requests, r.message = request c.mac xid ack.ip none ack.ip
  first : ∃ r rest, requests = r :: rest ∧ r.destIp = server ∧
    secsInto boundAt r.time = t1Secs ack.leaseSecs.toNat
  unicast : ∀ r ∈ requests,
    r.destIp = server ↔ secsInto boundAt r.time < t2Secs ack.leaseSecs.toNat
  broadcast : ∀ r ∈ requests,
    r.destIp = Ipv4Addr.broadcast ↔ t2Secs ack.leaseSecs.toNat ≤ secsInto boundAt r.time
  within : ∀ r ∈ requests, secsInto boundAt r.time < ack.leaseSecs.toNat
  spaced : requests.Pairwise fun r r' => r.time + Duration.fromSecs 60 ≤ r'.time

/-- The event ends the renewal with the lease: the client deconfigures and discovers anew. -/
def LeaseExpires (c : DhcpClient) (ack : DhcpAck) (boundAt : Nat) (t : ClientState) (e : Event)
    (u : ClientState) : Prop :=
  (∃ xid sent deadline, t.phase = .renewing ack boundAt xid sent deadline) ∧
    ack.leaseSecs.toNat ≤ secsInto boundAt e.now ∧ u = boundFailed c { t with now := e.now } e

/-- In silence the renewal that starts in `s` goes through `rounds` rounds, with its requests
on schedule and one of them broadcast, and then ends with the lease. -/
structure ScheduleKept (c : DhcpClient) (s : ClientState) (ack : DhcpAck) (server : Ipv4Addr)
    (boundAt rounds : Nat) : Prop where
  goesOn : ∀ es t, Lapse c s es t → es.length ≤ rounds →
    ∃ e u, Silent e ∧ Punctual t e ∧ (client c).step t e = some u
  asks : ∀ es t, Lapse c s es t → 0 < es.length → es.length ≤ rounds →
    ∃ requests, t.sent = s.sent ++ requests ∧ OnSchedule c ack server boundAt requests ∧
      (es.length = rounds → ∃ r ∈ requests, r.destIp = Ipv4Addr.broadcast)
  expires : ∀ es t e u, Lapse c s es t → es.length = rounds → Silent e → Punctual t e →
    (client c).step t e = some u → LeaseExpires c ack boundAt t e u

/-! ### The course of a renewal -/

variable {c : DhcpClient} {s t u : ClientState} {e : Event} {es : List Event} {ack : DhcpAck}
  {server : Ipv4Addr} {boundAt base n : Nat} {xid : UInt32}

/-- What holds at the start, and from each step to the next, holds after any number of steps. -/
theorem Lapse.rule {I : Nat → ClientState → Prop} (hs : I 0 s)
    (hstep : ∀ n t e u, I n t → Silent e → Punctual t e → (client c).step t e = some u → I (n + 1) u)
    (h : Lapse c s es t) : I es.length t := by
  induction es using List.reverseRecOn generalizing t with
  | nil =>
    obtain rfl : s = t := by simpa using h.run
    exact hs
  | append_singleton es e ih =>
    obtain ⟨u, hu, he⟩ := ((client c).run_snoc_eq_some).mp h.run
    have hbefore : Lapse c s es u :=
      ⟨fun e' he' => h.silent e' (List.mem_append_left _ he'),
        fun before e' v w hb => h.punctual before e' v w (hb.trans (List.prefix_append es [e])), hu⟩
    rw [List.length_append]
    exact hstep es.length u e t (ih hbefore) (h.silent e (by simp))
      (h.punctual es e u t (List.prefix_refl _) hu he) he

theorem silent_step_bound (hphase : t.phase = .bound ack boundAt) (he : Silent e)
    (hpunctual : Punctual t e) (hstep : (client c).step t e = some u) :
    u = boundRound c t e ack boundAt := by
  have hnow := hpunctual.of_bound hphase
  obtain ⟨now, lease, kernel, phase, sent⟩ := t
  obtain rfl : phase = .bound ack boundAt := hphase
  obtain rfl : e.now = now := hnow
  rcases he with hin | hin
  · simp [client, resume, hin] at hstep
  · simp only [client, resume, hin, Nat.le_refl, if_true, Option.some.injEq] at hstep
    exact hstep.symm

theorem silent_step_renewing {deadline : Nat} {renewSent : Option Nat}
    (hphase : t.phase = .renewing ack boundAt xid renewSent deadline) (he : Silent e)
    (hpunctual : Punctual t e) (hstep : (client c).step t e = some u) :
    e.now = deadline ∧ u = renewRound c { t with now := deadline } e ack boundAt xid renewSent := by
  have hle : e.now ≤ deadline := hpunctual.of_due (by rw [hphase]; rfl)
  obtain ⟨now, lease, kernel, phase, sent⟩ := t
  obtain rfl : phase = .renewing ack boundAt xid renewSent deadline := hphase
  rcases he with hin | hin
  · simp only [client, resume, hin, Option.ite_none_right_eq_some, Option.some.injEq] at hstep
    obtain ⟨-, hdue, rfl⟩ := hstep
    obtain rfl := Nat.le_antisymm hle hdue
    exact ⟨rfl, rfl⟩
  · simp [client, resume, hin] at hstep

/-! ### One round -/

/-- The seconds of the lease, counted from `base` instead of `boundAt`. -/
def Aligned (boundAt base : Nat) : Prop := ∀ secs, secsInto boundAt (base + Duration.fromSecs secs) = secs

theorem exists_aligned {now secs : Nat} (hsecs : secsInto boundAt now = secs) (hpos : 0 < secs) :
    ∃ base, Aligned boundAt base ∧ now = base + Duration.fromSecs secs := by
  unfold secsInto Duration.asSecs at hsecs
  refine ⟨now - Duration.fromSecs secs, fun x => ?_, ?_⟩
  · unfold secsInto Duration.asSecs Duration.fromSecs
    omega
  · unfold Duration.fromSecs
    omega

theorem Aligned.elapsedSecs (h : Aligned boundAt base) (secs : Nat) :
    elapsedSecs boundAt (base + Duration.fromSecs secs) = secs % 2 ^ 32 :=
  congrArg (· % 2 ^ 32) (h secs)

theorem elapsedSecs_between (base first later : Nat) :
    elapsedSecs (base + Duration.fromSecs first) (base + Duration.fromSecs later) = (later - first) % 2 ^ 32 := by
  unfold elapsedSecs Duration.fromSecs
  rw [Nat.add_sub_add_left, ← Nat.sub_mul]
  exact congrArg (· % 2 ^ 32) (Duration.asSecs_fromSecs _)

/-- A request as the renewal sends it. -/
def DhcpClient.renews (c : DhcpClient) (ack : DhcpAck) (server : Ipv4Addr) (base : Nat) (xid : UInt32)
    (elapsed : Nat) : Sending :=
  ⟨base + Duration.fromSecs elapsed, request c.mac xid ack.ip none ack.ip,
    if t2Secs ack.leaseSecs.toNat ≤ elapsed % 2 ^ 32 then Ipv4Addr.broadcast else server⟩

theorem calculateRenewalParams_destIp (elapsed leaseSecs : Nat) (server : Ipv4Addr) :
    (calculateRenewalParams elapsed (t2Secs leaseSecs) leaseSecs (some server)).destIp =
      if t2Secs leaseSecs ≤ elapsed then Ipv4Addr.broadcast else server := by
  unfold calculateRenewalParams
  split <;> rfl

/-- What a round does within the lease, as the clock has it. -/
theorem renewRound_eq (hencodes : c.dhcproto.Encodes) (hserver : ack.serverIp = some server)
    (haligned : Aligned boundAt base) {elapsed : Nat} (hnow : t.now = base + Duration.fromSecs elapsed)
    (hlt : elapsed % 2 ^ 32 < ack.leaseSecs.toNat) (renewSent : Option Nat) :
    renewRound c t e ack boundAt xid renewSent =
      let interval := retryInterval ack.leaseSecs.toNat (elapsed % 2 ^ 32)
      let deadline := base + Duration.fromSecs (elapsed + interval)
      if shouldSend renewSent interval t.now then
        { t with
          phase := .renewing ack boundAt xid (some t.now) deadline
          sent := t.sent ++ [c.renews ack server base xid elapsed] }
      else { t with phase := .renewing ack boundAt xid renewSent deadline } := by
  simp only [renewRound, hnow, haligned.elapsedSecs, if_neg (Nat.not_le.mpr hlt),
    calculateRenewalParams_retryInterval, sendRequest, sendDhcpMessage_of_encodes hencodes, hserver,
    calculateRenewalParams_destIp, DhcpClient.renews, Duration.fromSecs_add, Nat.add_assoc]

/-- What the results on a renewal share: its server is known, and it starts at T1. -/
structure Entered (c : DhcpClient) (s : ClientState) (ack : DhcpAck) (server : Ipv4Addr)
    (boundAt base : Nat) : Prop where
  encodes : c.dhcproto.Encodes
  server : ack.serverIp = some server
  aligned : Aligned boundAt base
  phase : s.phase = .bound ack boundAt
  now : s.now = base + Duration.fromSecs (t1Secs ack.leaseSecs.toNat)

/-- In a round the lease has not run out, as the clock has it. -/
def InLease (leaseSecs n : Nat) : Prop := roundAt leaseSecs n % 2 ^ 32 < leaseSecs

/-- The client has opened the window of round `n`. -/
structure InRound (c : DhcpClient) (s : ClientState) (ack : DhcpAck) (server : Ipv4Addr)
    (boundAt base : Nat) (xid : UInt32) (n : Nat) (t : ClientState) : Prop where
  now : t.now = base + Duration.fromSecs (roundAt ack.leaseSecs.toNat n)
  phase : t.phase = .renewing ack boundAt xid
    (some (base + Duration.fromSecs (lastAsk ack.leaseSecs.toNat n)))
    (base + Duration.fromSecs (roundAt ack.leaseSecs.toNat (n + 1)))
  sent : t.sent = s.sent ++ (asks ack.leaseSecs.toNat n).map (c.renews ack server base xid)

theorem inRound_zero (h : Entered c s ack server boundAt base) (hlease : InLease ack.leaseSecs.toNat 0)
    (he : Silent e) (hpunctual : Punctual s e) (hstep : (client c).step s e = some t) :
    InRound c s ack server boundAt base e.xid 0 t := by
  have hround := silent_step_bound h.phase he hpunctual hstep
  have ht1 : t1Secs ack.leaseSecs.toNat % 2 ^ 32 = t1Secs ack.leaseSecs.toNat :=
    Nat.mod_eq_of_lt (t1Secs_lt ack)
  have hlt : t1Secs ack.leaseSecs.toNat < ack.leaseSecs.toNat := ht1 ▸ hlease
  have hfirst : boundRound c s e ack boundAt = renewRound c s e ack boundAt e.xid none := by
    simp only [boundRound, h.now, h.aligned.elapsedSecs, ht1, if_neg (Nat.not_le.mpr hlt), Nat.lt_irrefl,
      if_false]
  rw [hfirst, renewRound_eq h.encodes h.server h.aligned h.now hlease] at hround
  simp only [shouldSend, if_true] at hround
  rw [hround]
  exact ⟨h.now, by rw [h.now]; rfl, rfl⟩

theorem inRound_succ (hentered : Entered c s ack server boundAt base)
    (h : InRound c s ack server boundAt base xid n t) (hlease : InLease ack.leaseSecs.toNat (n + 1))
    (he : Silent e) (hpunctual : Punctual t e) (hstep : (client c).step t e = some u) :
    InRound c s ack server boundAt base xid (n + 1) u := by
  obtain ⟨-, hround⟩ := silent_step_renewing h.phase he hpunctual hstep
  rw [renewRound_eq hentered.encodes hentered.server hentered.aligned rfl hlease] at hround
  have hsends : shouldSend (some (base + Duration.fromSecs (lastAsk ack.leaseSecs.toNat n)))
      (retryInterval ack.leaseSecs.toNat (roundAt ack.leaseSecs.toNat (n + 1) % 2 ^ 32))
      (base + Duration.fromSecs (roundAt ack.leaseSecs.toNat (n + 1))) =
      decide (asksAgain ack.leaseSecs.toNat (lastAsk ack.leaseSecs.toNat n)
        (roundAt ack.leaseSecs.toNat (n + 1))) := by
    rw [shouldSend, elapsedSecs_between]
    rfl
  simp only [hsends, decide_eq_true_eq] at hround
  split at hround
  · rename_i hasks
    rw [hround]
    refine ⟨rfl, ?_, ?_⟩
    · simp only [lastAsk, if_pos hasks]
      rfl
    · simp only [asks, if_pos hasks, h.sent, List.map_append, List.append_assoc]
      rfl
  · rename_i hskips
    rw [hround]
    refine ⟨rfl, ?_, ?_⟩
    · simp only [lastAsk, if_neg hskips]
      rfl
    · simp only [asks, if_neg hskips, h.sent]

/-! ### All rounds -/

/-- Where the client is after `n` steps in silence: at the start, or in a round. -/
def Follows (c : DhcpClient) (s : ClientState) (ack : DhcpAck) (server : Ipv4Addr) (boundAt base : Nat) :
    Nat → ClientState → Prop
  | 0, t => t = s
  | n + 1, t => (∀ k < n + 1, InLease ack.leaseSecs.toNat k) →
      ∃ xid, InRound c s ack server boundAt base xid n t

theorem follows_step (h : Entered c s ack server boundAt base) (n : Nat) (t : ClientState) (e : Event)
    (u : ClientState) (hfollows : Follows c s ack server boundAt base n t) (he : Silent e)
    (hpunctual : Punctual t e) (hstep : (client c).step t e = some u) :
    Follows c s ack server boundAt base (n + 1) u := by
  intro hlease
  cases n with
  | zero =>
    obtain rfl : t = s := hfollows
    exact ⟨e.xid, inRound_zero h (hlease 0 Nat.zero_lt_one) he hpunctual hstep⟩
  | succ n =>
    obtain ⟨xid, hround⟩ := hfollows fun k hk => hlease k (Nat.lt_succ_of_lt hk)
    exact ⟨xid, inRound_succ h hround (hlease (n + 1) (Nat.lt_succ_self _)) he hpunctual hstep⟩

theorem Lapse.follows (h : Lapse c s es t) (hentered : Entered c s ack server boundAt base) :
    Follows c s ack server boundAt base es.length t :=
  Lapse.rule rfl (follows_step hentered) h

/-- The round that a number of silent steps leads to. -/
theorem Lapse.inRound (h : Lapse c s es t) (hentered : Entered c s ack server boundAt base)
    (hlength : es.length = n + 1) (hlease : ∀ k < n + 1, InLease ack.leaseSecs.toNat k) :
    ∃ xid, InRound c s ack server boundAt base xid n t := by
  have hfollows := h.follows hentered
  rw [hlength] at hfollows
  exact hfollows hlease

theorem Lapse.goesOn (h : Lapse c s es t) (hentered : Entered c s ack server boundAt base)
    (hlease : ∀ k < es.length, InLease ack.leaseSecs.toNat k) :
    ∃ e u, Silent e ∧ Punctual t e ∧ (client c).step t e = some u := by
  cases hlength : es.length with
  | zero =>
    have hfollows := h.follows hentered
    rw [hlength] at hfollows
    obtain rfl : t = s := hfollows
    refine ⟨_, _, .inr rfl, ?_, step_bound c hentered.phase⟩
    simp only [Punctual, hentered.phase, Phase.due, eventAt]
  | succ n =>
    obtain ⟨xid, hround⟩ := h.inRound hentered hlength (hlength ▸ hlease)
    have hle : t.now ≤ base + Duration.fromSecs (roundAt ack.leaseSecs.toNat (n + 1)) := by
      have hnext := roundAt_add_le ack.leaseSecs.toNat n
      rw [hround.now, Nat.add_le_add_iff_left, Duration.fromSecs_le_fromSecs]
      omega
    refine ⟨_, _, .inl rfl, ?_, step_renewing c hround.phase hle⟩
    simp only [Punctual, hround.phase, Phase.due, eventAt, Nat.le_refl]

theorem exists_lapse (hentered : Entered c s ack server boundAt base) (n : Nat)
    (hlease : ∀ k < n, InLease ack.leaseSecs.toNat k) : ∃ es t, Lapse c s es t ∧ es.length = n := by
  induction n with
  | zero => exact ⟨[], s, Lapse.nil c s, rfl⟩
  | succ n ih =>
    obtain ⟨es, t, h, rfl⟩ := ih fun k hk => hlease k (Nat.lt_succ_of_lt hk)
    obtain ⟨e, u, he, hpunctual, hstep⟩ := h.goesOn hentered fun k hk => hlease k (Nat.lt_succ_of_lt hk)
    exact ⟨es ++ [e], u, h.snoc he hpunctual hstep, by simp⟩

/-! ### The schedule -/

theorem renews_time_spaced {xid : UInt32} {a b : Nat} (h : a + 60 ≤ b) :
    (c.renews ack server base xid a).time + Duration.fromSecs 60 ≤ (c.renews ack server base xid b).time := by
  have hle := Duration.fromSecs_le_fromSecs.mpr h
  rw [Duration.fromSecs_add] at hle
  show base + _ + _ ≤ base + _
  omega

/-- Within the lease the requests of a renewal are on schedule. -/
theorem asks_onSchedule (haligned : Aligned boundAt base) (hunicast : server ≠ Ipv4Addr.broadcast)
    (hlease : 480 ≤ ack.leaseSecs.toNat) (hn : roundAt ack.leaseSecs.toNat n < ack.leaseSecs.toNat)
    (xid : UInt32) :
    OnSchedule c ack server boundAt ((asks ack.leaseSecs.toNat n).map (c.renews ack server base xid)) := by
  have hmod : ∀ {elapsed}, elapsed < ack.leaseSecs.toNat → elapsed % 2 ^ 32 = elapsed :=
    fun hlt => Nat.mod_eq_of_lt (Nat.lt_trans hlt (leaseSecs_lt ack))
  have hrequest : ∀ r ∈ (asks ack.leaseSecs.toNat n).map (c.renews ack server base xid),
      secsInto boundAt r.time < ack.leaseSecs.toNat ∧ r.destIp =
        if t2Secs ack.leaseSecs.toNat ≤ secsInto boundAt r.time then Ipv4Addr.broadcast else server := by
    intro r hr
    obtain ⟨elapsed, hmem, rfl⟩ := List.mem_map.mp hr
    have hlt : elapsed < ack.leaseSecs.toNat :=
      Nat.lt_of_le_of_lt (Nat.le_trans (asks_le_lastAsk _ n elapsed hmem) (lastAsk_le _ n)) hn
    have hsecs : secsInto boundAt (c.renews ack server base xid elapsed).time = elapsed := haligned elapsed
    rw [hsecs]
    refine ⟨hlt, ?_⟩
    rw [DhcpClient.renews, hmod hlt]
  obtain ⟨rest, hhead⟩ := asks_head ack.leaseSecs.toNat n
  have ht1 : t1Secs ack.leaseSecs.toNat < t2Secs ack.leaseSecs.toNat := by
    unfold t1Secs t2Secs
    omega
  exact {
    message := by
      refine ⟨xid, fun r hr => ?_⟩
      obtain ⟨elapsed, -, rfl⟩ := List.mem_map.mp hr
      rfl
    first := by
      refine ⟨_, rest.map (c.renews ack server base xid), by rw [hhead]; rfl, ?_, haligned _⟩
      rw [DhcpClient.renews, Nat.mod_eq_of_lt (t1Secs_lt ack), if_neg (Nat.not_le.mpr ht1)]
    unicast := by
      intro r hr
      rw [(hrequest r hr).2]
      split
      · exact iff_of_false (Ne.symm hunicast) (by omega)
      · exact iff_of_true rfl (by omega)
    broadcast := by
      intro r hr
      rw [(hrequest r hr).2]
      split
      · exact iff_of_true rfl (by omega)
      · exact iff_of_false hunicast (by omega)
    within := fun r hr => (hrequest r hr).1
    spaced := by
      rw [List.pairwise_map]
      exact (asks_spaced _ n).imp renews_time_spaced }

/-- Where the last window ends before the clock does, the schedule is kept. -/
theorem scheduleKept (hentered : Entered c s ack server boundAt base)
    (hunicast : server ≠ Ipv4Addr.broadcast) (hlease : 480 ≤ ack.leaseSecs.toNat)
    (hn : LapsesAt ack.leaseSecs.toNat n) (hclock : roundAt ack.leaseSecs.toNat n < 2 ^ 32) :
    ScheduleKept c s ack server boundAt n := by
  have hlong := leaseSecs_lt ack
  have hin : ∀ k < n, InLease ack.leaseSecs.toNat k := fun k hk =>
    Nat.lt_of_le_of_lt (Nat.mod_le _ _) (hn.before k hk)
  exact {
    goesOn := fun es t h hle => h.goesOn hentered fun k hk => hin k (Nat.lt_of_lt_of_le hk hle)
    asks := by
      intro es t h hpos hle
      obtain ⟨m, hm⟩ := Nat.exists_eq_add_of_lt hpos
      rw [Nat.zero_add] at hm
      obtain ⟨xid, hround⟩ := h.inRound hentered hm fun k hk => hin k (by omega)
      refine ⟨_, hround.sent, asks_onSchedule hentered.aligned hunicast hlease (hn.before m (by omega)) xid,
        fun hlast => ?_⟩
      obtain rfl : n = m + 1 := by omega
      refine ⟨_, List.mem_map_of_mem (lastAsk_mem _ m), ?_⟩
      have hlt := Nat.lt_of_le_of_lt (lastAsk_le _ m) (hn.before m (Nat.lt_succ_self m))
      rw [DhcpClient.renews, Nat.mod_eq_of_lt (Nat.lt_trans hlt hlong), if_pos (rebinds hlease hlong hn)]
    expires := by
      intro es t e u h hlength he hpunctual hstep
      obtain ⟨m, rfl, -⟩ := hn.succ (by omega)
      obtain ⟨xid, hround⟩ := h.inRound hentered hlength hin
      obtain ⟨hnow, hu⟩ := silent_step_renewing hround.phase he hpunctual hstep
      have hover : ack.leaseSecs.toNat ≤ elapsedSecs boundAt e.now := by
        rw [hnow, hentered.aligned.elapsedSecs, Nat.mod_eq_of_lt hclock]
        exact hn.lapsed
      refine ⟨⟨xid, _, _, hround.phase⟩, Nat.le_trans hover (Nat.mod_le _ _), ?_⟩
      rw [hu, ← hnow]
      exact if_pos hover }

/-- Where it ends past the end of the clock, it is not. -/
theorem not_scheduleKept (hentered : Entered c s ack server boundAt base)
    (hlease : 480 ≤ ack.leaseSecs.toNat) (hn : LapsesAt ack.leaseSecs.toNat n)
    (hwraps : 2 ^ 32 ≤ roundAt ack.leaseSecs.toNat n) (rounds : Nat) :
    ¬ ScheduleKept c s ack server boundAt rounds := by
  intro hkept
  obtain ⟨m, rfl, -⟩ := hn.succ (by omega)
  obtain ⟨hin, hin', late, hmem, hlate⟩ := asks_late hlease (leaseSecs_lt ack) hn hwraps
  have hall : ∀ k < m + 3, InLease ack.leaseSecs.toNat k := by
    intro k hk
    rcases Nat.lt_trichotomy k (m + 1) with hlt | rfl | hlt
    · exact Nat.lt_of_le_of_lt (Nat.mod_le _ _) (hn.before k hlt)
    · exact hin
    · obtain rfl : k = m + 2 := by omega
      exact hin'
  by_cases hrounds : rounds < m + 3
  · -- the step that should end the renewal opens another window
    obtain ⟨es, t, h, hlength⟩ := exists_lapse hentered rounds fun k hk => hall k (by omega)
    obtain ⟨e, u, he, hpunctual, hstep⟩ := h.goesOn hentered fun k hk => hall k (by omega)
    obtain ⟨-, -, hexpired⟩ := hkept.expires es t e u h hlength he hpunctual hstep
    obtain ⟨xid, hround⟩ := (h.snoc he hpunctual hstep).inRound hentered (n := rounds) (by simp [hlength])
      fun k hk => hall k (by omega)
    have hphase := hround.phase
    rw [hexpired] at hphase
    exact absurd hphase (by simp [boundFailed, discoverPhase, discoverRound])
  · -- a request goes out after the end of the lease
    obtain ⟨es, t, h, hlength⟩ := exists_lapse hentered (m + 3) hall
    obtain ⟨xid, hround⟩ := h.inRound hentered hlength hall
    obtain ⟨requests, hsent, honSchedule, -⟩ := hkept.asks es t h (by omega) (by omega)
    rw [hround.sent] at hsent
    obtain rfl := List.append_cancel_left hsent
    have hwithin := honSchedule.within _ (List.mem_map_of_mem hmem)
    rw [DhcpClient.renews, hentered.aligned] at hwithin
    omega

/-- **An unanswered renewal keeps its schedule** for all but the 56 longest lease times. -/
theorem unanswered_renewal_iff (c : DhcpClient) (s : ClientState) (ack : DhcpAck) (server : Ipv4Addr)
    (boundAt : Nat) (hencodes : c.dhcproto.Encodes) (hserver : ack.serverIp = some server)
    (hunicast : server ≠ Ipv4Addr.broadcast) (hlease : 480 ≤ ack.leaseSecs.toNat)
    (hphase : s.phase = .bound ack boundAt)
    (hentry : secsInto boundAt s.now = t1Secs ack.leaseSecs.toNat) :
    (∃ rounds, ScheduleKept c s ack server boundAt rounds) ↔ ack.leaseSecs.toNat < 2 ^ 32 - 56 := by
  have ht1 : 0 < t1Secs ack.leaseSecs.toNat := by
    unfold t1Secs
    omega
  obtain ⟨base, haligned, hnow⟩ := exists_aligned hentry ht1
  have hentered : Entered c s ack server boundAt base := ⟨hencodes, hserver, haligned, hphase, hnow⟩
  obtain ⟨n, hn⟩ := exists_lapsesAt ack.leaseSecs.toNat
  have hwraps := wraps_iff hlease (leaseSecs_lt ack) hn
  constructor
  · intro ⟨rounds, hkept⟩
    refine Nat.not_le.mp fun hlong => ?_
    exact not_scheduleKept hentered hlease hn (hwraps.mpr hlong) rounds hkept
  · intro hshort
    refine ⟨n, scheduleKept hentered hunicast hlease hn (Nat.not_le.mp fun hlong => ?_)⟩
    exact absurd (hwraps.mp hlong) (Nat.not_le.mpr hshort)

namespace Uplink

/-- A lease from a server that is known. -/
def served (leaseSecs : UInt32) : DhcpAck :=
  { lease leaseSecs with serverIp := some (Ipv4Addr.new 10 0 2 2) }

/-- Bound since the start of the clock. -/
def boundFor (secs : Nat) (leaseSecs : UInt32) : ClientState :=
  { ClientState.initial with now := Duration.fromSecs secs, phase := .bound (served leaseSecs) 0 }

end Uplink

/-- A lease of eight minutes. -/
theorem unanswered_renewal_short :
    ∃ rounds, ScheduleKept Uplink.router (Uplink.boundFor 240 480) (Uplink.served 480)
      (Ipv4Addr.new 10 0 2 2) 0 rounds := by
  have hkept := unanswered_renewal_iff Uplink.router (Uplink.boundFor 240 480) (Uplink.served 480)
    (Ipv4Addr.new 10 0 2 2) 0 Wire.dhcproto_encodes rfl (by decide) (by decide) rfl (by decide)
  exact hkept.mpr (by decide)

/-- A lease without an end, as servers spell it. -/
theorem infinite_lease_missed :
    ¬ ∀ c s ack server boundAt, c.dhcproto.Encodes → ack.serverIp = some server →
      server ≠ Ipv4Addr.broadcast → 480 ≤ ack.leaseSecs.toNat → s.phase = .bound ack boundAt →
      secsInto boundAt s.now = t1Secs ack.leaseSecs.toNat →
      ∃ rounds, ScheduleKept c s ack server boundAt rounds := by
  intro h
  let ack := Uplink.served 0xFFFFFFFF
  have hentry : secsInto 0 (Uplink.boundFor 0x7FFFFFFF 0xFFFFFFFF).now = t1Secs ack.leaseSecs.toNat := by
    decide
  have hlease : 480 ≤ ack.leaseSecs.toNat := by decide
  obtain ⟨rounds, hkept⟩ := h Uplink.router (Uplink.boundFor 0x7FFFFFFF 0xFFFFFFFF) ack
    (Ipv4Addr.new 10 0 2 2) 0 Wire.dhcproto_encodes rfl (by decide) hlease rfl hentry
  obtain ⟨base, haligned, hnow⟩ := exists_aligned hentry (by decide)
  obtain ⟨n, hn⟩ := exists_lapsesAt ack.leaseSecs.toNat
  have hwraps := (wraps_iff hlease (leaseSecs_lt ack) hn).mpr (by decide)
  exact not_scheduleKept ⟨Wire.dhcproto_encodes, rfl, haligned, rfl, hnow⟩ hlease hn hwraps rounds hkept

end RustyRouter.Wan
