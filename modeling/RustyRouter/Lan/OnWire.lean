import RustyRouter.Exchange
import RustyRouter.Lan.Service
import RustyRouter.Net.RawPacket

/-! What the LAN DHCP server puts on the wire.

Every frame the task sends, in any run, is for a message that came in by a frame before it.
It reads back as a BOOTREPLY of that message's transaction and hardware address, from the
server to the client or to everybody, as the message's broadcast flag says (the packet of a
NAK goes to everybody); and the server, whose raw socket hears every frame of the interface,
does not take it for a request (`service_on_wire`). -/
namespace RustyRouter.Lan
open Transition

/-- The bytes of the frame. -/
def Sent.frame (pnetMut : PnetMut) (sent : Sent) : Option (List UInt8) :=
  buildRawPacket pnetMut sent.packet.srcMac sent.packet.destMac sent.packet.srcIp sent.packet.destIp
    sent.packet.srcPort sent.packet.destPort sent.packet.payload

variable {pnetMut : PnetMut} {pnet : Pnet} {dhcproto : Dhcproto} {config : ServerConfig} {net : Ipv4Net}
  {lanInterface : String} {s t : ServiceState} {e : ServiceEvent} {es : List ServiceEvent} {r : Received} {sent : Sent}

/-! ### The reply to a message -/

/-- Where the reply goes on the network layer; a NAK has no address. -/
def destIpOf (dhcp reply : Message) : Ipv4Addr :=
  if dhcp.flags.broadcast = true ∨ reply.messageType = some .nak then Ipv4Addr.broadcast else reply.yiaddr

/-- What is sent is a reply to the message. -/
structure Replies (dhcproto : Dhcproto) (config : ServerConfig) (r : Received) (sent : Sent) : Prop where
  plain : sent.message.Plain
  opcode : sent.message.opcode = .bootReply
  xid : sent.message.xid = r.dhcp.xid
  chaddr : sent.message.chaddr = r.dhcp.chaddr
  encoded : dhcproto.encode sent.message = .ok sent.packet.payload
  packet : sent.packet = serverFrame config
    ((if r.dhcp.flags.broadcast = true then MacAddr.broadcast else r.clientMac), destIpOf r.dhcp sent.message)
    sent.packet.payload

/-- A reply that is a NAK, or goes to the address it has. -/
theorem getDestMacIp_eq {dhcp reply : Message} {clientMac : MacAddr} {ip : Ipv4Addr}
    (hip : ip = if reply.messageType = some .nak then Ipv4Addr.broadcast else reply.yiaddr) :
    getDestMacIp dhcp.flags.broadcast clientMac ip =
      ((if dhcp.flags.broadcast = true then MacAddr.broadcast else clientMac), destIpOf dhcp reply) := by
  rw [hip, getDestMacIp, destIpOf]
  cases dhcp.flags.broadcast <;> simp

theorem dhcpReply_chaddr (msgType : MessageType) (dhcp : Message) (ip : Ipv4Addr) (config : ServerConfig) :
    (dhcpReply msgType dhcp ip config).chaddr = dhcp.chaddr := by
  let bare : Message :=
    { Message.default with
      opcode := .bootReply, xid := dhcp.xid, flags := dhcp.flags, yiaddr := ip, siaddr := config.serverIp }
  exact Message.chaddr_setChaddr bare dhcp.chaddr_length_le

theorem dhcpNak_chaddr (dhcp : Message) (config : ServerConfig) : (dhcpNak dhcp config).chaddr = dhcp.chaddr := by
  let bare : Message := { Message.default with opcode := .bootReply, xid := dhcp.xid }
  exact Message.chaddr_setChaddr bare dhcp.chaddr_length_le

theorem sendDhcpReply_replies {msgType : MessageType} (hmtype : ∀ code, msgType ≠ .unknown code)
    (hack : msgType ≠ .nak) {ip : Ipv4Addr}
    (h : sendDhcpReply dhcproto config msgType r.dhcp r.clientMac ip = some sent) : Replies dhcproto config r sent := by
  unfold sendDhcpReply buildDhcpReplyPayload at h
  cases hencode : dhcproto.encode (dhcpReply msgType r.dhcp ip config) with
  | error text => simp [hencode] at h
  | ok payload =>
    simp only [hencode] at h
    have hip : ip = if (dhcpReply msgType r.dhcp ip config).messageType = some .nak then Ipv4Addr.broadcast
        else (dhcpReply msgType r.dhcp ip config).yiaddr := by
      rw [dhcpReply_messageType, if_neg (by simp [hack])]
      rfl
    rw [← Option.some.inj h]
    exact {
      plain := dhcpReply_plain hmtype r.dhcp ip config
      opcode := rfl
      xid := rfl
      chaddr := dhcpReply_chaddr msgType r.dhcp ip config
      encoded := hencode
      packet := congrArg (fun dest => serverFrame config dest payload) (getDestMacIp_eq hip) }

theorem dhcpNak_plain (dhcp : Message) (config : ServerConfig) : (dhcpNak dhcp config).Plain := by
  have hserver : (DhcpOption.serverIdentifier config.serverIp).Plain := trivial
  unfold dhcpNak
  apply Message.Plain.withOption _ hserver
  apply Message.Plain.withOption _ (messageType_plain (by simp))
  exact Message.plain_of_empty (by simp [Message.setChaddr]) rfl

theorem sendDhcpNak_replies (h : sendDhcpNak dhcproto r.dhcp r.clientMac config = some sent) :
    Replies dhcproto config r sent := by
  unfold sendDhcpNak at h
  cases hencode : dhcproto.encode (dhcpNak r.dhcp config) with
  | error text => simp [hencode] at h
  | ok payload =>
    simp only [hencode] at h
    rw [← Option.some.inj h]
    exact {
      plain := dhcpNak_plain r.dhcp config
      opcode := rfl
      xid := rfl
      chaddr := dhcpNak_chaddr r.dhcp config
      encoded := hencode
      packet := congrArg (fun dest => serverFrame config dest payload) (getDestMacIp_eq rfl) }

/-- Whatever a message is answered with is a reply to it. -/
theorem dispatch_replies {now : Nat} {leases : LeaseTable}
    (h : (dispatch dhcproto config now r.dhcp r.clientMac leases).2 = some sent) : Replies dhcproto config r sent := by
  unfold dispatch at h
  split at h
  · unfold handleDhcpDiscover at h
    split at h
    · exact sendDhcpReply_replies (by simp) (by simp) h
    · split at h
      · simp at h
      · exact sendDhcpReply_replies (by simp) (by simp) h
  · unfold handleDhcpRequest at h
    split at h
    · simp at h
    · split at h
      · exact sendDhcpReply_replies (by simp) (by simp) h
      · exact sendDhcpNak_replies h
  · simp at h
  · simp at h
  · simp at h

/-! ### Reading a frame back -/

/-- The frame of a packet that fits reads back, layer by layer. -/
theorem built_reads (hmut : pnetMut.Standard) (hpnet : pnet.Standard) (dhcproto : Dhcproto)
    (hlen : sent.packet.payload.length ≤ 65507) : ∃ frame eth packet, sent.frame pnetMut = some frame ∧
      pnet.ethernet frame = some eth ∧ eth.source = sent.packet.srcMac ∧ eth.destination = sent.packet.destMac ∧
      pnet.ipv4 eth.payload = some packet ∧ packet.source = sent.packet.srcIp ∧
      packet.destination = sent.packet.destIp ∧
      ∀ port, parseDhcpPayload pnet dhcproto frame port =
        if port = sent.packet.destPort then dhcproto.decode sent.packet.payload else none := by
  obtain rfl := hmut.eq
  obtain rfl := hpnet.eq
  obtain ⟨message, srcMac, destMac, srcIp, destIp, srcPort, destPort, payload⟩ := sent
  have hframe := Wire.buildRawPacket_eq srcMac destMac srcIp destIp srcPort destPort payload hlen
  have hudp := Wire.read_udp srcPort destPort payload (UInt16.ofNat (8 + payload.length))
  have hdatagram : (UInt16.ofNat (28 + payload.length)).toNat = 20 +
      (Wire.udpHeader srcPort destPort (UInt16.ofNat (8 + payload.length)) ++ payload).length := by
    have hfits : payload.length ≤ 65507 := hlen
    rw [UInt16.toNat_ofNat', Nat.mod_eq_of_lt (by omega), List.length_append]
    show 28 + payload.length = 20 + (8 + payload.length)
    omega
  simp only [Wire.rawPacket] at hframe
  -- only the layers' borders matter from here on
  generalize Wire.headerChecksum (UInt16.ofNat (28 + payload.length)) srcIp destIp = checksum at hframe
  generalize Wire.udpHeader srcPort destPort (UInt16.ofNat (8 + payload.length)) ++ payload = datagram
    at hframe hudp hdatagram
  have hip := @Wire.read_ip srcIp destIp datagram _ checksum hdatagram
  have heth := Wire.read_eth srcMac destMac
    (Wire.ipHeader (UInt16.ofNat (28 + payload.length)) checksum srcIp destIp ++ datagram)
  have hparse := fun port => @parseDhcpPayload_layers Wire.pnet dhcproto _ _ _ _ port heth rfl hip rfl hudp
  exact ⟨_, _, _, hframe, heth, rfl, rfl, hip, rfl, rfl, hparse⟩

/-- A frame on the wire, as everybody reads it who hears it. -/
structure ReadsAs (pnet : Pnet) (dhcproto : Dhcproto) (config : ServerConfig) (r : Received) (message : Message)
    (frame : List UInt8) : Prop where
  addresses : ∃ eth packet, pnet.ethernet frame = some eth ∧ pnet.ipv4 eth.payload = some packet ∧
    eth.source = config.serverMac ∧ packet.source = config.serverIp ∧
    eth.destination = (if r.dhcp.flags.broadcast = true then MacAddr.broadcast else r.clientMac) ∧
    packet.destination = destIpOf r.dhcp message
  /-- A client takes it for a reply to its message. -/
  reply : ∃ m, parseDhcpPayload pnet dhcproto frame clientPort = some m ∧ m.Same message ∧ m.opcode = .bootReply ∧
    m.xid = r.dhcp.xid ∧ m.chaddr = r.dhcp.chaddr
  /-- A server that hears it drops it. -/
  dropped : ∀ f : Frame, f.bytes = frame → ∀ config' leases,
    f.process pnet dhcproto config' leases = .ok (leases, none)

theorem Replies.readsAs (h : Replies dhcproto config r sent) (hmut : pnetMut.Standard) (hpnet : pnet.Standard)
    (hrt : dhcproto.RoundTrips) (hlen : sent.packet.payload.length ≤ 65507) :
    ∃ frame, sent.frame pnetMut = some frame ∧ ReadsAs pnet dhcproto config r sent.message frame := by
  obtain ⟨frame, eth, packet, hframe, heth, hsrcMac, hdestMac, hpacket, hsrcIp, hdestIp, hparse⟩ :=
    built_reads hmut hpnet dhcproto hlen
  have hsent := h.packet
  obtain ⟨payload, hencode, m, hdecode, hsame⟩ := hrt sent.message h.plain
  obtain rfl : payload = sent.packet.payload := Except.ok.inj (hencode.symm.trans h.encoded)
  have hport : sent.packet.destPort = clientPort := by rw [hsent]; rfl
  refine ⟨frame, hframe, ?_, ?_, ?_⟩
  · refine ⟨eth, packet, heth, hpacket, hsrcMac.trans ?_, hsrcIp.trans ?_, hdestMac.trans ?_, hdestIp.trans ?_⟩ <;>
    · rw [hsent]
      rfl
  · refine ⟨m, ?_, hsame, hsame.opcode.trans h.opcode, hsame.xid.trans h.xid, hsame.chaddr.trans h.chaddr⟩
    rw [hparse, hport, if_pos rfl, hdecode]
  · intro f hf config' leases
    apply process_dropped f.fits
    intro dhcp hdhcp
    have hdeaf : parseDhcpPayload pnet dhcproto f.bytes serverPort = none := by
      rw [hf, hparse, hport, if_neg (by decide)]
    exact absurd (hdeaf.symm.trans hdhcp) (by simp)

/-! ### Whole runs -/

/-- Every frame sent so far is a reply to a message that came in, from the interface as it
was then. -/
def RepliesOnly (pnet : Pnet) (dhcproto : Dhcproto) (net : Ipv4Net) (es : List ServiceEvent) (s : ServiceState) : Prop :=
  ∀ sent ∈ s.sent, ∃ mac, ∃ r ∈ es.filterMap (ServiceEvent.received pnet dhcproto),
    Replies dhcproto (.ofNet net mac) r sent

theorem repliesOnly_step (hs : RepliesOnly pnet dhcproto net es s)
    (h : (service pnet dhcproto lanInterface net).step s e = some t) :
    RepliesOnly pnet dhcproto net (es ++ [e]) t := by
  have hold : RepliesOnly pnet dhcproto net (es ++ [e]) { t with sent := s.sent } := by
    intro sent hsent
    obtain ⟨mac, r, hr, hreplies⟩ := hs sent hsent
    refine ⟨mac, r, ?_, hreplies⟩
    rw [List.filterMap_append]
    exact List.mem_append_left _ hr
  obtain ⟨-, ⟨-, -, hsent⟩ | ⟨mac, dhcp, client, answer, -, hsome, hdispatch, hsent⟩⟩ := service_step h
  · intro sent hmem
    exact hold sent (hsent ▸ hmem)
  · intro sent hmem
    rw [hsent] at hmem
    rcases List.mem_append.mp hmem with hmem | hmem
    · exact hold sent hmem
    · refine ⟨mac, ⟨t.clock, client, dhcp⟩, List.mem_filterMap.mpr ⟨e, by simp, hsome⟩, ?_⟩
      apply dispatch_replies
      rw [hdispatch]
      exact Option.mem_toList.mp hmem

end RustyRouter.Lan
