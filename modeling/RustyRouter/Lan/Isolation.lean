import RustyRouter.Lan.Incoming
import RustyRouter.Lan.Offer

/-! Clients cannot disturb each other.

The server loop seen from the wire: it takes one frame after another, whatever their
bytes, and a frame that panics ends it. A frame reaches a handler only for the MAC it was
sent from, unless a relay vouches for another, and a handler leaves the live entries of
other MACs alone. So frames that are not from a client, and not from a relay, change
nothing about its live entry, and none is answered with its address (`foreign_run_keeps`,
`foreign_run_not_acked`). What they can do is to end the loop, and with it the table: the
client is left undisturbed precisely when no frame is one that panics (`undisturbed_iff`). -/
namespace RustyRouter.Lan
open Transition

/-- A frame in the receive buffer, read at `now`. -/
structure Frame where
  now : Nat
  bytesRead : Nat
  buf : Vector UInt8 2048
  /-- A read returns no more bytes than the buffer has. -/
  fits : bytesRead ≤ 2048

namespace Frame

/-- The bytes that were read. -/
def bytes (f : Frame) : List UInt8 := frameOf f.bytesRead f.buf

def process (pnet : Pnet) (dhcproto : Dhcproto) (config : ServerConfig) (f : Frame) (t : LeaseTable) :
    Except Panic (LeaseTable × Option Sent) :=
  processIncomingPacket pnet dhcproto config f.now f.bytesRead f.buf t

/-- Sent by another than `mac`, and not by way of a relay. -/
def Foreign (pnet : Pnet) (dhcproto : Dhcproto) (mac : MacAddr) (f : Frame) : Prop :=
  (∀ eth, pnet.ethernet f.bytes = some eth → eth.source ≠ mac) ∧
    ∀ dhcp, parseDhcpPayload pnet dhcproto f.bytes serverPort = some dhcp →
      dhcp.giaddr.isUnspecified = true

/-- Not a BOOTREQUEST that claims more bytes of hardware address than there are. -/
def Harmless (pnet : Pnet) (dhcproto : Dhcproto) (f : Frame) : Prop :=
  ∀ dhcp, parseDhcpPayload pnet dhcproto f.bytes serverPort = some dhcp →
    dhcp.opcode = .bootRequest → dhcp.hlen.toNat ≤ 16

end Frame

/-- `run_server_loop`: one frame after another, until one panics. -/
def serverLoop (pnet : Pnet) (dhcproto : Dhcproto) (config : ServerConfig) : System LeaseTable Frame where
  step t f := (f.process pnet dhcproto config t).toOption.map Prod.fst

variable {pnet : Pnet} {dhcproto : Dhcproto} {config : ServerConfig} {t t' : LeaseTable} {f : Frame}

theorem serverLoop_step_eq_some :
    (serverLoop pnet dhcproto config).step t f = some t' ↔
      ∃ answer, f.process pnet dhcproto config t = .ok (t', answer) := by
  show (f.process pnet dhcproto config t).toOption.map Prod.fst = some t' ↔ _
  cases f.process pnet dhcproto config t with
  | error => simp [Except.toOption]
  | ok result =>
    simp only [Except.toOption, Option.map_some, Option.some.injEq, Except.ok.injEq]
    exact ⟨fun h => ⟨result.2, Prod.ext h rfl⟩, fun ⟨_, h⟩ => congrArg Prod.fst h⟩

/-! ### What a frame can do -/

/-- A frame is dropped, or dispatched for a MAC that is its source unless a relay sent it. -/
theorem process_eq_ok {answer : Option Sent} (h : f.process pnet dhcproto config t = .ok (t', answer)) :
    (t' = t ∧ answer = none) ∨
      ∃ dhcp mac eth, parseDhcpPayload pnet dhcproto f.bytes serverPort = some dhcp ∧
        pnet.ethernet f.bytes = some eth ∧ (dhcp.giaddr.isUnspecified = true → eth.source = mac) ∧
        dispatch dhcproto config f.now dhcp mac t = (t', answer) := by
  unfold Frame.process at h
  by_cases hparsed : ∃ dhcp, parseDhcpPayload pnet dhcproto f.bytes serverPort = some dhcp ∧
      dhcp.opcode = .bootRequest
  · obtain ⟨dhcp, hparse, hop⟩ := hparsed
    by_cases hlen : dhcp.hlen.toNat ≤ 16
    · rw [process_of_parse f.fits hparse hop, sliceTo_chaddr hlen] at h
      simp only [bind, Except.bind] at h
      cases hmac : MacAddr.tryFrom dhcp.chaddr with
      | none =>
        simp only [hmac, pure, Except.pure, Except.ok.injEq, Prod.mk.injEq] at h
        exact .inl ⟨h.1.symm, h.2.symm⟩
      | some mac =>
        cases heth : pnet.ethernet (frameOf f.bytesRead f.buf) with
        | none =>
          simp only [hmac, heth, pure, Except.pure, Except.ok.injEq, Prod.mk.injEq] at h
          exact .inl ⟨h.1.symm, h.2.symm⟩
        | some eth =>
          simp only [hmac, heth, pure, Except.pure] at h
          split at h
          · simp only [Except.ok.injEq, Prod.mk.injEq] at h
            exact .inl ⟨h.1.symm, h.2.symm⟩
          · rename_i hspoof
            refine .inr ⟨dhcp, mac, eth, hparse, heth, fun hrelay => ?_, Except.ok.inj h⟩
            simpa [hrelay] using hspoof
    · rw [panics_of_lt_hlen f.fits hparse hop (by omega)] at h
      exact absurd h (by simp)
  · rw [process_dropped f.fits fun dhcp hparse hop => hparsed ⟨dhcp, hparse, hop⟩] at h
    simp only [Except.ok.injEq, Prod.mk.injEq] at h
    exact .inl ⟨h.1.symm, h.2.symm⟩

/-- A foreign frame is dropped, or dispatched for another MAC. -/
theorem foreign_dispatched {mac : MacAddr} {answer : Option Sent} (hforeign : f.Foreign pnet dhcproto mac)
    (h : f.process pnet dhcproto config t = .ok (t', answer)) :
    (t' = t ∧ answer = none) ∨
      ∃ dhcp other, other ≠ mac ∧ dispatch dhcproto config f.now dhcp other t = (t', answer) := by
  rcases process_eq_ok h with hdrop | ⟨dhcp, other, eth, hparse, heth, hsource, hdispatch⟩
  · exact .inl hdrop
  · refine .inr ⟨dhcp, other, ?_, hdispatch⟩
    rw [← hsource (hforeign.2 dhcp hparse)]
    exact hforeign.1 eth heth

/-- A foreign frame leaves a live entry as it is. -/
theorem foreign_keeps {mac : MacAddr} {lease : ClientLease} {answer : Option Sent}
    (hforeign : f.Foreign pnet dhcproto mac) (hget : t.get mac = some lease) (hlt : f.now < lease.expiry)
    (h : f.process pnet dhcproto config t = .ok (t', answer)) : t'.get mac = some lease := by
  rcases foreign_dispatched hforeign h with ⟨rfl, -⟩ | ⟨dhcp, other, hne, hdispatch⟩
  · exact hget
  · have hchange : Change config f.now dhcp other t (dispatch dhcproto config f.now dhcp other t).1 :=
      dispatch_change dhcproto
    rw [hdispatch] at hchange
    exact hchange.get_other hne.symm hget hlt

/-- A foreign frame is not answered with an ACK of a leased address. -/
theorem foreign_not_acked {mac : MacAddr} {lease : ClientLease} {sent : Sent}
    (hforeign : f.Foreign pnet dhcproto mac) (hget : t.get mac = some lease) (hlt : f.now < lease.expiry)
    (h : f.process pnet dhcproto config t = .ok (t', some sent))
    (hack : sent.message.messageType = some .ack) : sent.message.yiaddr ≠ lease.ip := by
  rcases foreign_dispatched hforeign h with ⟨-, hnone⟩ | ⟨dhcp, other, hne, hdispatch⟩
  · exact absurd hnone (by simp)
  · have hanswer := dispatch_answer dhcproto (congrArg Prod.snd hdispatch)
    generalize (dispatch dhcproto config f.now dhcp other t).1 = after at hanswer
    generalize sent.message = message at hanswer hack
    cases hanswer with
    | reoffered => exact absurd hack (by simp)
    | offered => exact absurd hack (by simp)
    | acked ip hgrant =>
      intro hip
      have := hgrant.valid.2.2 mac lease hget hip.symm hne.symm
      omega
    | refused => exact absurd hack (by simp)

/-- The loop survives a frame precisely when it is harmless. -/
theorem serverLoop_survives_iff :
    (∃ t', (serverLoop pnet dhcproto config).step t f = some t') ↔ f.Harmless pnet dhcproto := by
  simp only [serverLoop_step_eq_some]
  constructor
  · intro ⟨t', answer, hok⟩ dhcp hparse hop
    by_contra hlen
    unfold Frame.process at hok
    rw [panics_of_lt_hlen f.fits hparse hop (by omega)] at hok
    exact absurd hok (by simp)
  · intro hharmless
    by_cases hparsed : ∃ dhcp, parseDhcpPayload pnet dhcproto f.bytes serverPort = some dhcp ∧
        dhcp.opcode = .bootRequest
    · obtain ⟨dhcp, hparse, hop⟩ := hparsed
      have hdone : Completes pnet dhcproto config f.now f.bytesRead f.buf t :=
        completes_of_hlen_le f.fits hparse hop (hharmless dhcp hparse hop)
      obtain ⟨result, hok, -⟩ := hdone
      exact ⟨result.1, result.2, hok⟩
    · exact ⟨t, none, process_dropped f.fits fun dhcp hparse hop => hparsed ⟨dhcp, hparse, hop⟩⟩

/-- The loop goes through frames that are all harmless, and through no others. -/
theorem serverLoop_completes_iff {frames : List Frame} :
    (∃ t', (serverLoop pnet dhcproto config).run t frames = some t') ↔
      ∀ f ∈ frames, f.Harmless pnet dhcproto := by
  induction frames generalizing t with
  | nil => simp
  | cons f rest ih =>
    simp only [System.run_cons_eq_some, List.forall_mem_cons]
    constructor
    · intro ⟨t', u, hstep, hrest⟩
      exact ⟨serverLoop_survives_iff.mp ⟨u, hstep⟩, ih.mp ⟨t', hrest⟩⟩
    · intro ⟨hf, hrest⟩
      obtain ⟨u, hstep⟩ := serverLoop_survives_iff.mpr hf
      obtain ⟨t', hrun⟩ := ih.mpr hrest
      exact ⟨t', u, hstep, hrun⟩

/-! ### Runs -/

/-- Foreign frames leave a live entry as it is, in every table the loop passes through. -/
theorem foreign_run_keeps {mac : MacAddr} {lease : ClientLease} {frames : List Frame} (hget : t.get mac = some lease)
    (hframes : ∀ f ∈ frames, f.Foreign pnet dhcproto mac ∧ f.now < lease.expiry) :
    (serverLoop pnet dhcproto config).Always (fun u => u.get mac = some lease) t frames := by
  refine System.always_of_along (R := fun _ f => f.Foreign pnet dhcproto mac ∧ f.now < lease.expiry)
    (fun u f u' hu hf hstep => ?_) hget (System.along_of_forall_mem fun f hf _ => hframes f hf)
  obtain ⟨answer, hok⟩ := serverLoop_step_eq_some.mp hstep
  exact foreign_keeps hf.1 hu hf.2 hok

variable (pnet dhcproto config) in
/-- No frame the loop gets to is answered with an ACK of this address. -/
def NeverAcked (ip : Ipv4Addr) (t : LeaseTable) (frames : List Frame) : Prop :=
  ∀ before u f u' sent, before ++ [f] <+: frames → (serverLoop pnet dhcproto config).run t before = some u →
    f.process pnet dhcproto config u = .ok (u', some sent) → sent.message.messageType = some .ack →
    sent.message.yiaddr ≠ ip

theorem foreign_run_not_acked {mac : MacAddr} {lease : ClientLease} {frames : List Frame} (hget : t.get mac = some lease)
    (hframes : ∀ f ∈ frames, f.Foreign pnet dhcproto mac ∧ f.now < lease.expiry) :
    NeverAcked pnet dhcproto config lease.ip t frames := by
  intro before u f u' sent hb hrun hok hack
  have hkept : u.get mac = some lease := foreign_run_keeps hget hframes before u ((List.prefix_append _ _).trans hb) hrun
  have hf : f.Foreign pnet dhcproto mac ∧ f.now < lease.expiry := hframes f (hb.subset (by simp))
  exact foreign_not_acked hf.1 hkept hf.2 hok hack

variable (pnet dhcproto config) in
/-- The loop goes through all the frames, the client has its entry after them as before, and
no other was ACKed its address. -/
def Undisturbed (mac : MacAddr) (lease : ClientLease) (t : LeaseTable) (frames : List Frame) : Prop :=
  ∃ t', (serverLoop pnet dhcproto config).run t frames = some t' ∧ t'.get mac = some lease ∧
    NeverAcked pnet dhcproto config lease.ip t frames

/-- **LAN clients disturb each other's leases by a panic only.** Frames that `mac` did not
send, handled before its entry runs out, leave it undisturbed precisely when none of them is
a BOOTREQUEST that claims more than sixteen bytes of hardware address. -/
theorem undisturbed_iff {mac : MacAddr} {lease : ClientLease} (hget : t.get mac = some lease)
    {frames : List Frame}
    (hframes : ∀ f ∈ frames, f.Foreign pnet dhcproto mac ∧ f.now < lease.expiry) :
    Undisturbed pnet dhcproto config mac lease t frames ↔ ∀ f ∈ frames, f.Harmless pnet dhcproto := by
  have hcompletes : (∃ t', (serverLoop pnet dhcproto config).run t frames = some t') ↔
      ∀ f ∈ frames, f.Harmless pnet dhcproto := serverLoop_completes_iff
  rw [← hcompletes]
  constructor
  · intro ⟨t', hrun, _⟩
    exact ⟨t', hrun⟩
  · intro ⟨t', hrun⟩
    exact ⟨t', hrun, (foreign_run_keeps hget hframes).last hrun, foreign_run_not_acked hget hframes⟩

namespace Small

/-- One client asks for the other's address. -/
def robbery : Message := (message client .request).withOption (.requestedIpAddress host)

theorem robbery_fits : (broadcastFrame robbery).length ≤ 2048 := by decide +kernel

def robberyFrame : Frame := ⟨0, _, bufferOf (broadcastFrame robbery) robbery_fits, robbery_fits⟩

theorem longHlen_fits : (broadcastFrame longHlen).length ≤ 2048 := by decide +kernel

def longHlenFrame : Frame := ⟨0, _, bufferOf (broadcastFrame longHlen) longHlen_fits, longHlen_fits⟩

/-- Whether the frame is from the client, without a relay. -/
def direct (f : Frame) : Bool :=
  (Wire.pnet.ethernet f.bytes).all (fun eth => eth.source == client) &&
    (parseDhcpPayload Wire.pnet Wire.dhcproto f.bytes serverPort).all fun dhcp => dhcp.giaddr.isUnspecified

/-- What comes from the client is foreign to the other. -/
theorem foreign_of_direct {f : Frame} (h : direct f = true) : f.Foreign Wire.pnet Wire.dhcproto other := by
  simp only [direct, Bool.and_eq_true] at h
  constructor
  · intro eth heth
    have hsource : eth.source = client := by simpa [heth] using h.1
    rw [hsource]
    decide
  · intro dhcp hparse
    simpa [hparse] using h.2

end Small

/-- On the small network, a REQUEST for the address of another. -/
theorem undisturbed_small : Undisturbed Wire.pnet Wire.dhcproto Small.router Small.other ⟨Small.host, lanLease⟩
    (LeaseTable.new.insert Small.other ⟨Small.host, lanLease⟩) [Small.robberyFrame] := by
  have hdirect : Small.direct Small.robberyFrame = true := by decide +kernel
  have hshort : (parseDhcpPayload Wire.pnet Wire.dhcproto Small.robberyFrame.bytes serverPort).all
      (fun dhcp => decide (dhcp.hlen.toNat ≤ 16)) = true := by
    decide +kernel
  refine (undisturbed_iff (LeaseTable.get_insert_self _ _ _) fun f hf => ?_).mpr fun f hf => ?_
  · obtain rfl := List.mem_singleton.mp hf
    exact ⟨Small.foreign_of_direct hdirect, lanLease_pos⟩
  · obtain rfl := List.mem_singleton.mp hf
    intro dhcp hparse _
    simpa [hparse] using hshort

/-- A DISCOVER of one client that claims seventeen bytes costs the other, that has just been
granted its address, the lease: the loop does not get past it. -/
theorem long_hlen_disturbs : ¬ ∀ (s : ServerState) (mac : MacAddr) (lease : ClientLease) (frames : List Frame),
    (server Wire.dhcproto Small.router).Reaches .initial s → s.leases.get mac = some lease →
    (∀ f ∈ frames, f.Foreign Wire.pnet Wire.dhcproto mac ∧ f.now < lease.expiry) →
    Undisturbed Wire.pnet Wire.dhcproto Small.router mac lease s.leases frames := by
  intro h
  have hgranted : ((server Wire.dhcproto Small.router).run .initial [Small.request 0 Small.other Small.host]).any
      (fun s => decide (s.leases.get Small.other = some ⟨Small.host, lanLease⟩)) = true := by
    decide +kernel
  obtain ⟨s, hrun, hget⟩ := Option.any_eq_true _ _ |>.mp hgranted
  have hdirect : Small.direct Small.longHlenFrame = true := by decide +kernel
  obtain ⟨t', hpast, -⟩ := h s Small.other ⟨Small.host, lanLease⟩ [Small.longHlenFrame] ⟨_, hrun⟩
    (of_decide_eq_true hget) fun f hf => by
      obtain rfl := List.mem_singleton.mp hf
      exact ⟨Small.foreign_of_direct hdirect, lanLease_pos⟩
  have hlong : (parseDhcpPayload Wire.pnet Wire.dhcproto Small.longHlenFrame.bytes serverPort).any
      (fun dhcp => dhcp.opcode == .bootRequest && decide (16 < dhcp.hlen.toNat)) = true := by
    decide +kernel
  obtain ⟨dhcp, hparse, hlong⟩ := Option.any_eq_true _ _ |>.mp hlong
  simp only [Bool.and_eq_true, beq_iff_eq, decide_eq_true_eq] at hlong
  have hharmless := serverLoop_completes_iff.mp ⟨t', hpast⟩ _ (List.mem_singleton_self _) dhcp hparse hlong.1
  omega

end RustyRouter.Lan
