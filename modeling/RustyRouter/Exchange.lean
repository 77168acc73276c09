import RustyRouter.Lan.Allocation
import RustyRouter.Lan.Isolation
import RustyRouter.Lan.Renewal
import RustyRouter.Net.RoundTrip
import RustyRouter.Wan.Masks

/-! The client and the server together.

The program's DHCP client, on the WAN side of one router, may well talk to its DHCP server,
on the LAN side of another. What the one encodes the other reads, in both directions: a
DISCOVER, the OFFER for it, the REQUEST for what was offered and the ACK make the client
take up just what the server has stored for it (`client_and_server_agree`), and its
renewals keep it so. -/
namespace RustyRouter
open Lan Transition

variable {pnet : Pnet} {dhcproto : Dhcproto} {config : ServerConfig} {mac : MacAddr} {xid : UInt32}
  {ip : Ipv4Addr} {payload : List UInt8} {dhcp : Message}

/-! ### What the client sends -/

theorem Message.chaddr_setChaddr (m : Message) {bytes : List UInt8} (h : bytes.length ≤ 16) :
    (m.setChaddr bytes h).chaddr = bytes := by
  have hlen : (UInt8.ofNat bytes.length).toNat = bytes.length := by
    rw [UInt8.toNat_ofNat']
    omega
  simp only [Message.chaddr, Message.setChaddr, hlen]
  exact List.take_left' rfl

theorem Message.Same.requestedIpOpt {m m' : Message} (h : m.Same m') : requestedIpOpt m = requestedIpOpt m' := by
  simp only [Lan.requestedIpOpt, h.opts]

/-- A message as a client with this MAC sends it. -/
structure Message.FromClient (m : Message) (mac : MacAddr) : Prop where
  opcode : m.opcode = .bootRequest
  hlen : m.hlen = 6
  chaddr : m.chaddr = mac.octets

theorem Message.Same.fromClient {m m' : Message} (h : m.Same m') (hm' : m'.FromClient mac) : m.FromClient mac :=
  ⟨h.opcode.trans hm'.opcode, h.hlen.trans hm'.hlen, h.chaddr.trans hm'.chaddr⟩

theorem fromClient_setChaddr {m : Message} (h : m.opcode = .bootRequest) (hlen : mac.octets.length ≤ 16) :
    (m.setChaddr mac.octets hlen).FromClient mac :=
  ⟨h, rfl, m.chaddr_setChaddr hlen⟩

theorem Message.FromClient.withOption (h : dhcp.FromClient mac) (option : DhcpOption) :
    (dhcp.withOption option).FromClient mac :=
  ⟨h.opcode, h.hlen, h.chaddr⟩

theorem messageType_plain {mtype : MessageType} (h : ∀ code, mtype ≠ .unknown code) :
    (DhcpOption.messageType mtype).Plain := h

theorem discover_plain (mac : MacAddr) (xid : UInt32) : (Wan.discover mac xid).Plain := by
  have hcodes : (DhcpOption.parameterRequestList [.subnetMask, .router, .domainNameServer]).Plain :=
    ⟨by decide, by simp⟩
  have hempty : ({ Message.default with
      opcode := .bootRequest, xid := xid, flags := Flags.setBroadcast 0 }.setChaddr mac.octets (by simp)).Plain :=
    Message.plain_of_empty (by simp [Message.setChaddr]) rfl
  exact (hempty.withOption (messageType_plain (by simp))).withOption hcodes

theorem discover_fromClient (mac : MacAddr) (xid : UInt32) : (Wan.discover mac xid).FromClient mac :=
  ((fromClient_setChaddr rfl (by simp)).withOption _).withOption _

section Request
variable (mac : MacAddr) (xid : UInt32) (ip : Ipv4Addr) (serverIp : Option Ipv4Addr) (ciaddr : Ipv4Addr)

theorem request_plain : (Wan.request mac xid ip serverIp ciaddr).Plain := by
  have hempty : ∀ flags, ({ Message.default with
      opcode := .bootRequest, xid := xid, ciaddr := ciaddr, flags := flags }.setChaddr mac.octets (by simp)).Plain :=
    fun flags => Message.plain_of_empty (by simp [Message.setChaddr]) rfl
  have hasking : (DhcpOption.requestedIpAddress ip).Plain := trivial
  have hserver : ∀ srv, (DhcpOption.serverIdentifier srv).Plain := fun _ => trivial
  unfold Wan.request
  apply Message.Plain.withOption _ (messageType_plain (by simp))
  split
  · cases serverIp with
    | none => exact (hempty _).withOption hasking
    | some srv => exact ((hempty _).withOption hasking).withOption (hserver srv)
  · exact hempty 0

theorem request_fromClient : (Wan.request mac xid ip serverIp ciaddr).FromClient mac := by
  have hclient : ∀ flags, ({ Message.default with
      opcode := .bootRequest, xid := xid, ciaddr := ciaddr, flags := flags }.setChaddr mac.octets
        (by simp)).FromClient mac :=
    fun flags => fromClient_setChaddr rfl (by simp)
  unfold Wan.request
  apply Message.FromClient.withOption
  split
  · cases serverIp with
    | none => exact (hclient _).withOption _
    | some srv => exact ((hclient _).withOption _).withOption _
  · exact hclient 0

theorem request_messageType : (Wan.request mac xid ip serverIp ciaddr).messageType = some .request := by
  unfold Wan.request
  simp [Message.messageType, Message.get_withOption, DhcpOption.code]

theorem request_xid : (Wan.request mac xid ip serverIp ciaddr).xid = xid := by
  unfold Wan.request
  split
  · cases serverIp <;> rfl
  · rfl

/-- Only a client without an address asks for one. -/
theorem requestedIpOpt_request : requestedIpOpt (Wan.request mac xid ip serverIp ciaddr) =
    if ciaddr.isUnspecified then some ip else none := by
  unfold Wan.request
  split
  · cases serverIp with
    | none => rfl
    | some srv => rfl
  · rfl

end Request

/-! ### How the server gets it -/

/-- The frame carries the payload to the server's port, from this MAC. -/
structure Lan.Frame.Carries (f : Frame) (pnet : Pnet) (mac : MacAddr) (payload : List UInt8) : Prop where
  parts : ∃ eth packet udp, pnet.ethernet f.bytes = some eth ∧ pnet.ipv4 eth.payload = some packet ∧
    pnet.udp packet.payload = some udp ∧ eth.source = mac ∧ eth.ethertype = etherTypeIpv4 ∧
    packet.nextLevelProtocol = protocolUdp ∧ udp.destination = serverPort ∧ udp.payload = payload

theorem process_carries {f : Frame} (h : f.Carries pnet mac payload) (hdecode : dhcproto.decode payload = some dhcp)
    (hclient : dhcp.FromClient mac) (t : LeaseTable) :
    f.process pnet dhcproto config t = .ok (dispatch dhcproto config f.now dhcp mac t) := by
  obtain ⟨eth, packet, udp, heth, hpacket, hudp, hsource, hethertype, hprotocol, hport, hpayload⟩ := h.parts
  have hframe : frameOf f.bytesRead f.buf = f.bytes := rfl
  have hparse : parseDhcpPayload pnet dhcproto (frameOf f.bytesRead f.buf) serverPort = some dhcp := by
    simp [parseDhcpPayload, hframe, heth, hpacket, hudp, hethertype, hprotocol, hport, hpayload, hdecode]
  have hlen : dhcp.hlen.toNat ≤ 16 := by
    rw [hclient.hlen]
    decide
  have hmac : MacAddr.tryFrom dhcp.chaddr = some mac := MacAddr.tryFrom_eq_some_iff.mpr hclient.chaddr
  rw [Frame.process, process_of_parse f.fits hparse hclient.opcode, sliceTo_chaddr hlen]
  simp only [bind, Except.bind, hmac, hframe, heth, hsource, bne_self_eq_false, Bool.and_false]
  rfl

/-- The server has handled what the frame carries, and its run goes on from there. -/
theorem carried_served {f : Frame} (h : f.Carries pnet mac payload) (hdecode : dhcproto.decode payload = some dhcp)
    (hclient : dhcp.FromClient mac) {es : List Received} {s : ServerState}
    (hrun : (server dhcproto config).run .initial es = some s) (hle : s.clock ≤ f.now) {t : LeaseTable}
    {answer : Option Sent} (hdispatch : dispatch dhcproto config f.now dhcp mac s.leases = (t, answer)) :
    f.process pnet dhcproto config s.leases = .ok (t, answer) ∧
      (server dhcproto config).run .initial (es ++ [⟨f.now, mac, dhcp⟩]) = some ⟨t, f.now⟩ := by
  have hhandle : s.handle dhcproto config ⟨f.now, mac, dhcp⟩ = (t, answer) := hdispatch
  have hstep := server_handles dhcproto config (e := ⟨f.now, mac, dhcp⟩) hle
  rw [hhandle] at hstep
  exact ⟨by rw [process_carries h hdecode hclient, hdispatch], System.run_snoc _ hrun hstep⟩

/-! ### What the client reads -/

section Reply
variable {msgType : MessageType} {m : Message}

theorem dhcpReply_plain (hmtype : ∀ code, msgType ≠ .unknown code) (dhcp : Message) (ip : Ipv4Addr)
    (config : ServerConfig) : (dhcpReply msgType dhcp ip config).Plain := by
  have hrouter : (DhcpOption.router [config.serverIp]).Plain := ⟨by simp, by simp⟩
  have hdns : (DhcpOption.domainNameServer [config.serverIp]).Plain := ⟨by simp, by simp⟩
  have hserver : (DhcpOption.serverIdentifier config.serverIp).Plain := trivial
  have hmask : (DhcpOption.subnetMask config.subnetMask).Plain := trivial
  have htime : (DhcpOption.addressLeaseTime lanLeaseSecs).Plain := trivial
  unfold dhcpReply
  apply Message.Plain.withOption _ htime
  apply Message.Plain.withOption _ hdns
  apply Message.Plain.withOption _ hrouter
  apply Message.Plain.withOption _ hmask
  apply Message.Plain.withOption _ hserver
  apply Message.Plain.withOption _ (messageType_plain hmtype)
  exact Message.plain_of_empty (by simp [Message.setChaddr]) rfl

/-- The reply is sent, and reads back as it was built. -/
theorem sendDhcpReply_reads (hrt : dhcproto.RoundTrips) (hmtype : ∀ code, msgType ≠ .unknown code)
    (config : ServerConfig) (dhcp : Message) (mac : MacAddr) (ip : Ipv4Addr) :
    ∃ sent m, sendDhcpReply dhcproto config msgType dhcp mac ip = some sent ∧
      dhcproto.decode sent.packet.payload = some m ∧ m.Same (dhcpReply msgType dhcp ip config) := by
  obtain ⟨payload, hencode, m, hdecode, hsame⟩ := hrt _ (dhcpReply_plain hmtype dhcp ip config)
  simp only [sendDhcpReply, buildDhcpReplyPayload, hencode]
  exact ⟨_, m, rfl, hdecode, hsame⟩

theorem getServerIdentifier_reply (hsame : m.Same (dhcpReply msgType dhcp ip config)) :
    Wan.getServerIdentifier m = some config.serverIp := by
  rw [Wan.getServerIdentifier, hsame.opts]
  rfl

theorem parseLeaseOptions_reply (hsame : m.Same (dhcpReply msgType dhcp ip config)) :
    Wan.parseLeaseOptions m =
      ⟨config.subnetMask, some config.serverIp, [config.serverIp], lanLeaseSecs⟩ := by
  simp only [Wan.parseLeaseOptions, hsame.opts]
  rfl

theorem parseOffer_reply (hdecode : dhcproto.decode payload = some m)
    (hsame : m.Same (dhcpReply .offer dhcp ip config)) (hxid : dhcp.xid = xid) :
    Wan.parseOffer dhcproto payload xid = some ⟨ip, some config.serverIp⟩ := by
  have hmxid : m.xid = xid := hsame.xid.trans hxid
  have hmtype : m.messageType = some .offer := hsame.messageType
  have hyiaddr : m.yiaddr = ip := hsame.yiaddr
  rw [Wan.parseOffer, hdecode]
  simp only [hmxid, hmtype, hyiaddr, getServerIdentifier_reply hsame, ne_eq, not_true_eq_false, if_false]

theorem parseAckNak_reply (hdecode : dhcproto.decode payload = some m)
    (hsame : m.Same (dhcpReply .ack dhcp ip config)) (hxid : dhcp.xid = xid) :
    Wan.parseAckNak dhcproto payload xid =
      .ack ⟨ip, config.subnetMask, some config.serverIp, some config.serverIp, lanLeaseSecs,
        [config.serverIp]⟩ := by
  have hmxid : m.xid = xid := hsame.xid.trans hxid
  have hmtype : m.messageType = some .ack := hsame.messageType
  have hyiaddr : m.yiaddr = ip := hsame.yiaddr
  rw [Wan.parseAckNak, hdecode]
  simp only [hmxid, hmtype, hyiaddr, getServerIdentifier_reply hsame, parseLeaseOptions_reply hsame, ne_eq,
    not_true_eq_false, if_false]

end Reply

/-! ### The server's part -/

/-- The client has a lease that has not run out, or no entry and there is a host for it. -/
def Servable (config : ServerConfig) (t : LeaseTable) (now : Nat) (mac : MacAddr) : Prop :=
  (∃ lease, t.get mac = some lease ∧ now < lease.expiry) ∨
    t.get mac = none ∧ ∃ ip ∈ config.net.hosts, t.Free now config.serverIp ip

/-- Such a client is offered the address of a live entry, and can read the offer. -/
theorem discover_offered (hrt : dhcproto.RoundTrips) {now : Nat} {t : LeaseTable} (hdisc : Discovers dhcp)
    (hservable : Servable config t now mac) :
    ∃ t' sent m lease, dispatch dhcproto config now dhcp mac t = (t', some sent) ∧
      dhcproto.decode sent.packet.payload = some m ∧ m.Same (dhcpReply .offer dhcp lease.ip config) ∧
      t'.get mac = some lease ∧ now < lease.expiry := by
  have hoffer : ∀ code, MessageType.offer ≠ .unknown code := by simp
  rcases hservable with ⟨lease, hget, hlt⟩ | ⟨hnew, hfree⟩
  · obtain ⟨sent, m, hsent, hdecode, hsame⟩ := sendDhcpReply_reads hrt hoffer config dhcp mac lease.ip
    exact ⟨t, sent, m, lease, by rw [dispatch_reoffers dhcproto hdisc hget, hsent], hdecode, hsame, hget, hlt⟩
  · obtain ⟨ip, hip⟩ := LeaseTable.nextAvailableIp_isSome.mpr hfree
    have hnext : t.nextAvailableIp now config.net config.serverIp = (t.evictExpired now, some ip) :=
      Prod.ext LeaseTable.nextAvailableIp_fst hip
    obtain ⟨sent, m, hsent, hdecode, hsame⟩ := sendDhcpReply_reads hrt hoffer config dhcp mac ip
    refine ⟨(t.evictExpired now).insert mac ⟨ip, now + lanLease⟩, sent, m, ⟨ip, now + lanLease⟩, ?_, hdecode,
      hsame, LeaseTable.get_insert_self _ _ _, Nat.lt_add_of_pos_right lanLease_pos⟩
    rw [dispatch_discover dhcproto hdisc, handleDhcpDiscover, hnew]
    simp only [hnext, hsent]

/-! ### Renewals -/

/-- What the client makes of an ACK of `ip`. -/
def ackOf (net : Ipv4Net) (ip : Ipv4Addr) : Wan.DhcpAck where
  ip := ip
  mask := net.netmask
  gateway := some net.addr
  serverIp := some net.addr
  leaseSecs := 3600
  dnsServers := [net.addr]

/-- From `s` on, whatever other clients send: when the client's entry has been looked at, and
only others have been served since, a renewal that comes before the entry runs out is ACKed
with `ip` and moves the end of the lease. -/
def RenewalsGranted (dhcproto : Dhcproto) (net : Ipv4Net) (serverMac : MacAddr) (s : ServerState) (mac : MacAddr)
    (ip : Ipv4Addr) : Prop :=
  ∀ later u lease others v e, (∀ o ∈ later, OnlyRenews mac o) →
    (server dhcproto (.ofNet net serverMac)).run s later = some u → u.leases.get mac = some lease →
    (∀ o ∈ others, o.clientMac ≠ mac) → (server dhcproto (.ofNet net serverMac)).run u others = some v →
    Renews mac e → v.clock ≤ e.now → e.now < lease.expiry →
    ∃ t sent, v.handle dhcproto (.ofNet net serverMac) e = (t, some sent) ∧
      Wan.parseAckNak dhcproto sent.packet.payload e.dhcp.xid = .ack (ackOf net ip) ∧
      t.get mac = some ⟨ip, e.now + lanLease⟩

theorem renewals_granted (hrt : dhcproto.RoundTrips) {net : Ipv4Net} (hnet : net.Documented) {serverMac : MacAddr}
    {es : List Received} {s : ServerState}
    (hrun : (server dhcproto (.ofNet net serverMac)).run .initial es = some s) {expiry : Nat}
    (hget : s.leases.get mac = some ⟨ip, expiry⟩) : RenewalsGranted dhcproto net serverMac s mac ip := by
  intro later u lease others v e hlater hu hlease hothers hv hrenews hle hlt
  have hentry : s.leases.EntryFor mac ip := by
    intro l hl
    rw [← Option.some.inj (hget.symm.trans hl)]
  have hip : lease.ip = ip := entry_ip_run hentry hlater hu lease hlease
  have hall := (System.run_append_eq_some _).mpr ⟨s, hrun, hu⟩
  have hdoc : (ServerConfig.ofNet net serverMac).net.Documented := hnet
  have hack : ∀ code, MessageType.ack ≠ .unknown code := by simp
  have hgranted := renewal_granted hdoc hall hlease hothers hv hle hlt hrenews
  obtain ⟨sent, m, hsent, hdecode, hsame⟩ := sendDhcpReply_reads hrt hack (.ofNet net serverMac) e.dhcp mac ip
  rw [hip, hsent] at hgranted
  exact ⟨_, sent, hgranted, parseAckNak_reply hdecode hsame rfl, LeaseTable.get_insert_self _ _ _⟩

/-- The client's own renewals, which it sends from the address it has, are such. -/
theorem request_renews (hrt : dhcproto.RoundTrips) (mac : MacAddr) (xid : UInt32) (ip : Ipv4Addr)
    (serverIp : Option Ipv4Addr) {ciaddr : Ipv4Addr} (hset : ciaddr.isUnspecified = false) :
    ∃ payload m, dhcproto.encode (Wan.request mac xid ip serverIp ciaddr) = .ok payload ∧
      dhcproto.decode payload = some m ∧ m.xid = xid ∧ ∀ now, Renews mac ⟨now, mac, m⟩ := by
  obtain ⟨payload, hencode, m, hdecode, hsame⟩ := hrt _ (request_plain mac xid ip serverIp ciaddr)
  refine ⟨payload, m, hencode, hdecode, hsame.xid.trans (request_xid mac xid ip serverIp ciaddr), fun now => ?_⟩
  refine ⟨rfl, hsame.messageType.trans (request_messageType mac xid ip serverIp ciaddr), ?_⟩
  show requestedIpOpt m = none
  rw [hsame.requestedIpOpt, requestedIpOpt_request, hset]
  rfl

/-! ### The exchange -/

/-- The client is ACKed what its entry is for, and reads it out of the ACK. -/
theorem request_acked (hrt : dhcproto.RoundTrips) {net : Ipv4Net} (hnet : net.Documented) {serverMac : MacAddr}
    {es : List Received} {s : ServerState}
    (hrun : (server dhcproto (.ofNet net serverMac)).run .initial es = some s) {lease : ClientLease}
    (hget : s.leases.get mac = some lease) (hlive : s.clock < lease.expiry) {now : Nat} (hle : s.clock ≤ now)
    (hreq : Requests mac lease.ip ⟨now, mac, dhcp⟩) (hxid : dhcp.xid = xid) :
    ∃ t acked, dispatch dhcproto (.ofNet net serverMac) now dhcp mac s.leases = (t, some acked) ∧
      Wan.parseAckNak dhcproto acked.packet.payload xid = .ack (ackOf net lease.ip) ∧
      t.get mac = some ⟨lease.ip, now + lanLease⟩ := by
  have hdoc : (ServerConfig.ofNet net serverMac).net.Documented := hnet
  have hgrant : Grants (.ofNet net serverMac) now dhcp mac s.leases lease.ip :=
    holder_grants hdoc hrun hget hlive hle hreq
  have hack : ∀ code, MessageType.ack ≠ .unknown code := by simp
  obtain ⟨acked, m, hacked, hdecode, hsame⟩ :=
    sendDhcpReply_reads hrt hack (.ofNet net serverMac) dhcp mac lease.ip
  exact ⟨_, acked, by rw [dispatch_grants dhcproto hgrant, hacked], parseAckNak_reply hdecode hsame hxid,
    LeaseTable.get_insert_self _ _ _⟩

/-- **The client and the server agree.** For every reachable table and every client that can
be served: the server has an OFFER for the client's DISCOVER, the client reads it, the server
has an ACK for the client's REQUEST, and the client reads out of it the address it was
offered, which is that of its entry, with the network's mask, which it accepts, and the
server as its gateway, its DHCP server and its DNS server. From then on its renewals in
time are ACKed with that address. -/
theorem client_and_server_agree (hrt : dhcproto.RoundTrips) {net : Ipv4Net} (hnet : net.Documented)
    (serverMac : MacAddr) {es : List Received} {s : ServerState}
    (hrun : (server dhcproto (.ofNet net serverMac)).run .initial es = some s) (mac : MacAddr) (xid : UInt32) :
    ∃ discover, dhcproto.encode (Wan.discover mac xid) = .ok discover ∧
      ∀ f : Frame, f.Carries pnet mac discover → s.clock ≤ f.now →
        Servable (.ofNet net serverMac) s.leases f.now mac →
      ∃ (t : LeaseTable) (offered : Sent) (offer : Wan.DhcpOffer),
        f.process pnet dhcproto (.ofNet net serverMac) s.leases = .ok (t, some offered) ∧
        Wan.parseOffer dhcproto offered.packet.payload xid = some offer ∧
      ∃ request, dhcproto.encode (Wan.request mac xid offer.offeredIp offer.serverIp Ipv4Addr.unspecified) =
          .ok request ∧
        ∀ f' : Frame, f'.Carries pnet mac request → f.now ≤ f'.now →
      ∃ (t' : LeaseTable) (acked : Sent),
        f'.process pnet dhcproto (.ofNet net serverMac) t = .ok (t', some acked) ∧
        Wan.parseAckNak dhcproto acked.packet.payload xid = .ack (ackOf net offer.offeredIp) ∧
        t'.get mac = some ⟨offer.offeredIp, f'.now + lanLease⟩ ∧
        Wan.maskToPrefixLen net.netmask = .ok net.prefixLen ∧
        RenewalsGranted dhcproto net serverMac ⟨t', f'.now⟩ mac offer.offeredIp ∧
        ∀ xid' ip' serverIp ciaddr, ciaddr.isUnspecified = false →
          ∃ renewal m, dhcproto.encode (Wan.request mac xid' ip' serverIp ciaddr) = .ok renewal ∧
            dhcproto.decode renewal = some m ∧ m.xid = xid' ∧ ∀ now, Renews mac ⟨now, mac, m⟩ := by
  -- the DISCOVER, which the server answers from an entry that is live after it
  obtain ⟨discover, hdiscover, d, hd, hdsame⟩ := hrt _ (discover_plain mac xid)
  refine ⟨discover, hdiscover, fun f hf hclock hservable => ?_⟩
  have hdisc : Discovers d := hdsame.messageType
  have hdxid : d.xid = xid := hdsame.xid
  obtain ⟨t, offered, m, lease, hoffered, hm, hmsame, hget, hlive⟩ := discover_offered hrt hdisc hservable
  obtain ⟨hprocess, hrunOffered⟩ :=
    carried_served hf hd (hdsame.fromClient (discover_fromClient mac xid)) hrun hclock hoffered
  -- the REQUEST for what the OFFER names
  obtain ⟨request, hrequest, r, hr, hrsame⟩ :=
    hrt _ (request_plain mac xid lease.ip (some net.addr) Ipv4Addr.unspecified)
  have hreq : ∀ now, Requests mac lease.ip ⟨now, mac, r⟩ := by
    intro now
    refine ⟨rfl, hrsame.messageType.trans (request_messageType mac xid lease.ip _ _), .inl ?_⟩
    show requestedIpOpt r = some lease.ip
    rw [hrsame.requestedIpOpt, requestedIpOpt_request]
    rfl
  have hrxid : r.xid = xid := hrsame.xid.trans (request_xid mac xid lease.ip _ _)
  refine ⟨t, offered, _, hprocess, parseOffer_reply hm hmsame hdxid, request, hrequest, fun f' hf' hle => ?_⟩
  obtain ⟨t', acked, hacked, hack, hget'⟩ := request_acked hrt hnet hrunOffered hget hlive hle (hreq f'.now) hrxid
  obtain ⟨hprocess', hrunAcked⟩ :=
    carried_served hf' hr (hrsame.fromClient (request_fromClient mac xid lease.ip _ _)) hrunOffered hle hacked
  exact ⟨t', acked, hprocess', hack, hget', Wan.maskToPrefixLen_netmask hnet,
    renewals_granted hrt hnet hrunAcked hget',
    fun xid' ip' serverIp _ hset => request_renews hrt mac xid' ip' serverIp hset⟩

/-! ### On the small network -/

namespace Lan.Small

theorem length_request (mac : MacAddr) (xid : UInt32) (ip : Ipv4Addr) (serverIp : Option Ipv4Addr) :
    (Wire.encode (Wan.request mac xid ip serverIp Ipv4Addr.unspecified)).length ≤ 256 := by
  rw [Wire.length_encode]
  apply Nat.add_le_add_left (m := 15)
  cases serverIp with
  | none => exact Nat.le_of_ble_eq_true rfl
  | some srv => exact Nat.le_of_ble_eq_true rfl

theorem length_broadcastFrame (dhcp : Message) :
    (broadcastFrame dhcp).length = 42 + (Wire.encode dhcp).length := by
  rw [broadcastFrame, List.length_append]
  rfl

/-- The UDP datagram of such a frame. -/
def datagramOf (payload : List UInt8) : List UInt8 :=
  Wire.bytes16 clientPort ++ Wire.bytes16 serverPort ++ Wire.bytes16 (UInt16.ofNat (8 + payload.length)) ++
    [0, 0] ++ payload

theorem length_datagramOf (payload : List UInt8) : (datagramOf payload).length = 8 + payload.length := by
  rw [datagramOf, List.length_append]
  rfl

theorem ipv4_broadcastFrame {dhcp : Message} (h : (broadcastFrame dhcp).length ≤ 2048) :
    ∃ eth packet, Wire.pnet.ethernet (broadcastFrame dhcp) = some eth ∧
      Wire.pnet.ipv4 eth.payload = some packet ∧ eth.source = client ∧ eth.ethertype = etherTypeIpv4 ∧
      packet.nextLevelProtocol = protocolUdp ∧ packet.payload = datagramOf (Wire.encode dhcp) := by
  have hlen := length_broadcastFrame dhcp
  have htotal : (UInt16.ofNat (28 + (Wire.encode dhcp).length)).toNat = 28 + (Wire.encode dhcp).length := by
    rw [UInt16.toNat_ofNat']
    exact Nat.mod_eq_of_lt (by omega)
  refine ⟨_, _, rfl, rfl, rfl, rfl, rfl, ?_⟩
  show (datagramOf (Wire.encode dhcp)).take ((Wire.be16 _ _).toNat - 20) = datagramOf (Wire.encode dhcp)
  rw [Wire.be16_bytes, htotal]
  apply List.take_of_length_le
  rw [length_datagramOf]
  omega

theorem udp_datagramOf (payload : List UInt8) :
    ∃ udp, Wire.pnet.udp (datagramOf payload) = some udp ∧ udp.destination = serverPort ∧ udp.payload = payload :=
  ⟨_, rfl, rfl, rfl⟩

/-- A frame with the client's message, read at `now`. -/
def broadcastAt (now : Nat) (dhcp : Message) (h : (broadcastFrame dhcp).length ≤ 2048) : Frame :=
  ⟨now, _, bufferOf (broadcastFrame dhcp) h, h⟩

theorem broadcastAt_carries (now : Nat) {dhcp : Message} (h : (broadcastFrame dhcp).length ≤ 2048) :
    (broadcastAt now dhcp h).Carries Wire.pnet client (Wire.encode dhcp) := by
  obtain ⟨eth, packet, heth, hpacket, hsource, hethertype, hprotocol, hpayload⟩ := ipv4_broadcastFrame h
  obtain ⟨udp, hudp, hport, hpayload'⟩ := udp_datagramOf (Wire.encode dhcp)
  have hbytes : (broadcastAt now dhcp h).bytes = broadcastFrame dhcp := frameOf_bufferOf _ h
  constructor
  rw [hbytes]
  exact ⟨eth, packet, udp, heth, hpacket, by rw [hpayload, hudp], hsource, hethertype, hprotocol, hport, hpayload'⟩

end Lan.Small

/-- On the small network, a new client gets an address. -/
theorem client_and_server_agree_small :
    ∃ (f f' : Frame) (t t' : LeaseTable) (offered acked : Sent) (offer : Wan.DhcpOffer),
      f.process Wire.pnet Wire.dhcproto Small.router .new = .ok (t, some offered) ∧
      Wan.parseOffer Wire.dhcproto offered.packet.payload 7 = some offer ∧
      f'.process Wire.pnet Wire.dhcproto Small.router t = .ok (t', some acked) ∧
      Wan.parseAckNak Wire.dhcproto acked.packet.payload 7 = .ack (ackOf Small.net offer.offeredIp) ∧
      RenewalsGranted Wire.dhcproto Small.net Small.router.serverMac ⟨t', f'.now⟩ Small.client offer.offeredIp := by
  have hdiscover : (Small.broadcastFrame (Wan.discover Small.client 7)).length ≤ 2048 := by decide +kernel
  have hfree : LeaseTable.new.Free 0 Small.router.serverIp Small.host :=
    ⟨by decide, fun ⟨_, _, hget, _⟩ => absurd hget (by simp)⟩
  have hservable : Servable Small.router .new 0 Small.client :=
    .inr ⟨LeaseTable.get_new _, Small.host, by decide, hfree⟩
  obtain ⟨discover, hencode, hagree⟩ := @client_and_server_agree Wire.pnet Wire.dhcproto Wire.dhcproto_roundTrips
    Small.net Small.net_documented Small.router.serverMac [] .initial rfl Small.client 7
  obtain rfl := Except.ok.inj hencode
  obtain ⟨t, offered, offer, hoffered, hoffer, request, hencode', hagree'⟩ :=
    hagree (Small.broadcastAt 0 _ hdiscover) (Small.broadcastAt_carries 0 hdiscover) (Nat.le_refl 0) hservable
  have hrequest : (Small.broadcastFrame (Wan.request Small.client 7 offer.offeredIp offer.serverIp
      Ipv4Addr.unspecified)).length ≤ 2048 := by
    have hlen := Small.length_request Small.client 7 offer.offeredIp offer.serverIp
    rw [Small.length_broadcastFrame]
    omega
  obtain rfl := Except.ok.inj hencode'
  obtain ⟨t', acked, hacked, hack, -, -, hrenewals, -⟩ :=
    hagree' (Small.broadcastAt 1 _ hrequest) (Small.broadcastAt_carries 1 hrequest) (Nat.le_of_ble_eq_true rfl)
  exact ⟨_, _, t, t', offered, acked, offer, hoffered, hoffer, hacked, hack, hrenewals⟩

end RustyRouter
