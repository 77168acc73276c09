import RustyRouter.Net.Dhcp

/-! Received frames.

`parseDhcpPayload` reads a raw frame through three nested views of the `pnet` crate and
hands what is left to the DHCP decoder. The views are the crate's: a `Pnet` says what
its constructors and accessors answer, and a buffer too short for a header has none. -/
namespace RustyRouter

/-- What the accessors of `pnet::packet::ethernet::EthernetPacket` return. -/
structure EthernetPacket where
  destination : MacAddr
  source : MacAddr
  ethertype : UInt16
  payload : List UInt8

/-- What the accessors of `pnet::packet::ipv4::Ipv4Packet` return. -/
structure Ipv4Packet where
  totalLength : UInt16
  nextLevelProtocol : UInt8
  source : Ipv4Addr
  destination : Ipv4Addr
  payload : List UInt8

/-- What the accessors of `pnet::packet::udp::UdpPacket` return. -/
structure UdpPacket where
  source : UInt16
  destination : UInt16
  length : UInt16
  payload : List UInt8

/-- The three `new` constructors. -/
structure Pnet where
  ethernet : List UInt8 → Option EthernetPacket
  ipv4 : List UInt8 → Option Ipv4Packet
  udp : List UInt8 → Option UdpPacket

/-- `EtherTypes::Ipv4` -/
def etherTypeIpv4 : UInt16 := 0x0800

/-- `IpNextHeaderProtocols::Udp` -/
def protocolUdp : UInt8 := 17

def parseDhcpPayload (pnet : Pnet) (dhcproto : Dhcproto) (buf : List UInt8) (expectedPort : UInt16) :
    Option Message := do
  let ethPkt ← pnet.ethernet buf
  if ethPkt.ethertype ≠ etherTypeIpv4 then none
  let ipPkt ← pnet.ipv4 ethPkt.payload
  if ipPkt.nextLevelProtocol ≠ protocolUdp then none
  let udpPkt ← pnet.udp ipPkt.payload
  if udpPkt.destination ≠ expectedPort then none
  dhcproto.decode udpPkt.payload

/-! ### The wire layouts

A `Pnet` and a decoder that read the standard header layouts, to run the model on
frames. -/

namespace Wire

def be16 (a b : UInt8) : UInt16 := a.toUInt16 <<< 8 ||| b.toUInt16

def be32 (a b c d : UInt8) : UInt32 :=
  a.toUInt32 <<< 24 ||| b.toUInt32 <<< 16 ||| c.toUInt32 <<< 8 ||| d.toUInt32

def ethernet : List UInt8 → Option EthernetPacket
  | d0 :: d1 :: d2 :: d3 :: d4 :: d5 :: s0 :: s1 :: s2 :: s3 :: s4 :: s5 :: t0 :: t1 :: payload =>
    some ⟨⟨d0, d1, d2, d3, d4, d5⟩, ⟨s0, s1, s2, s3, s4, s5⟩, be16 t0 t1, payload⟩
  | _ => none

/-- The payload starts after the options the header length makes room for, and has the
length the total length leaves. -/
def ipv4 (packet : List UInt8) : Option Ipv4Packet :=
  match packet with
  | v :: _ :: l0 :: l1 :: _ :: _ :: _ :: _ :: _ :: proto :: _ :: _ ::
      s0 :: s1 :: s2 :: s3 :: d0 :: d1 :: d2 :: d3 :: _ =>
    let ihl := (v &&& 0x0f).toNat
    some
      { totalLength := be16 l0 l1
        nextLevelProtocol := proto
        source := Ipv4Addr.new s0 s1 s2 s3
        destination := Ipv4Addr.new d0 d1 d2 d3
        payload := (packet.drop (20 + (ihl - 5) * 4)).take ((be16 l0 l1).toNat - ihl * 4) }
  | _ => none

def udp : List UInt8 → Option UdpPacket
  | s0 :: s1 :: d0 :: d1 :: l0 :: l1 :: _ :: _ :: payload =>
    some ⟨be16 s0 s1, be16 d0 d1, be16 l0 l1, payload⟩
  | _ => none

def pnet : Pnet := ⟨ethernet, ipv4, udp⟩

def messageTypeOf : UInt8 → MessageType
  | 1 => .discover
  | 2 => .offer
  | 3 => .request
  | 4 => .decline
  | 5 => .ack
  | 6 => .nak
  | 7 => .release
  | 8 => .inform
  | code => .unknown code

def codeOfMessageType : MessageType → UInt8
  | .discover => 1
  | .offer => 2
  | .request => 3
  | .decline => 4
  | .ack => 5
  | .nak => 6
  | .release => 7
  | .inform => 8
  | .unknown code => code

def optionCodeOf : UInt8 → OptionCode
  | 1 => .subnetMask
  | 3 => .router
  | 6 => .domainNameServer
  | 50 => .requestedIpAddress
  | 51 => .addressLeaseTime
  | 53 => .messageType
  | 54 => .serverIdentifier
  | 55 => .parameterRequestList
  | code => .unknown code

def byteOfOptionCode : OptionCode → UInt8
  | .subnetMask => 1
  | .router => 3
  | .domainNameServer => 6
  | .requestedIpAddress => 50
  | .addressLeaseTime => 51
  | .messageType => 53
  | .serverIdentifier => 54
  | .parameterRequestList => 55
  | .unknown code => code

def addresses : List UInt8 → Option (List Ipv4Addr)
  | [] => some []
  | a :: b :: c :: d :: rest => (addresses rest).map (Ipv4Addr.new a b c d :: ·)
  | _ => none

/-- One option from its code and data; `none` where the data does not fit the code. -/
def optionOf (code : UInt8) (data : List UInt8) : Option DhcpOption :=
  match code, data with
  | 1, [a, b, c, d] => some (.subnetMask (Ipv4Addr.new a b c d))
  | 3, data => (addresses data).map .router
  | 6, data => (addresses data).map .domainNameServer
  | 55, data => some (.parameterRequestList (data.map optionCodeOf))
  | 50, [a, b, c, d] => some (.requestedIpAddress (Ipv4Addr.new a b c d))
  | 51, [a, b, c, d] => some (.addressLeaseTime (be32 a b c d))
  | 53, [t] => some (.messageType (messageTypeOf t))
  | 54, [a, b, c, d] => some (.serverIdentifier (Ipv4Addr.new a b c d))
  | 1, _ | 50, _ | 51, _ | 53, _ | 54, _ => none
  | code, data => some (.unknown code data)

/-- Options as code, length and data, up to the end option; `fuel` bounds their number. -/
def options (fuel : Nat) (bytes : List UInt8) (opts : DhcpOptions) : Option DhcpOptions :=
  match fuel, bytes with
  | 0, _ => none
  | _, [] => some opts
  | fuel + 1, 0 :: rest => options fuel rest opts
  | _, 255 :: _ => some opts
  | _, [_] => none
  | fuel + 1, code :: len :: rest =>
    if rest.length < len.toNat then none
    else do
      let option ← optionOf code (rest.take len.toNat)
      options fuel (rest.drop len.toNat) (insertOption opts option)

def opcodeOf : UInt8 → Opcode
  | 1 => .bootRequest
  | 2 => .bootReply
  | code => .unknown code

/-- The fixed header, sixteen bytes of hardware address, two text fields of 64 and 128
bytes, the magic cookie, then the options. -/
def decode (bytes : List UInt8) : Option Message :=
  match bytes with
  | op :: _ :: hlen :: _ :: x0 :: x1 :: x2 :: x3 :: _ :: _ :: f0 :: f1 ::
      c0 :: c1 :: c2 :: c3 :: y0 :: y1 :: y2 :: y3 :: s0 :: s1 :: s2 :: s3 ::
      g0 :: g1 :: g2 :: g3 :: rest =>
    if h : 208 + 4 ≤ rest.length then do
      let opts ← options rest.length (rest.drop (208 + 4)) Store.HashMap.empty
      return {
        opcode := opcodeOf op
        hlen := hlen
        xid := be32 x0 x1 x2 x3
        flags := be16 f0 f1
        ciaddr := Ipv4Addr.new c0 c1 c2 c3
        yiaddr := Ipv4Addr.new y0 y1 y2 y3
        siaddr := Ipv4Addr.new s0 s1 s2 s3
        giaddr := Ipv4Addr.new g0 g1 g2 g3
        chaddrField := ⟨(rest.take 16).toArray, by simp; omega⟩
        opts := opts }
    else none
  | _ => none

def bytes16 (x : UInt16) : List UInt8 := [(x >>> 8).toUInt8, x.toUInt8]

theorem toNat_be16 (a b : UInt8) : (be16 a b).toNat = 256 * a.toNat + b.toNat := by
  have ha := a.toNat_lt
  have hb := b.toNat_lt
  simp only [be16, UInt16.toNat_or, UInt16.toNat_shiftLeft, UInt8.toNat_toUInt16]
  show a.toNat <<< 8 % 2 ^ 16 ||| b.toNat = 256 * a.toNat + b.toNat
  rw [Nat.mod_eq_of_lt (by rw [Nat.shiftLeft_eq]; omega),
    ← Nat.shiftLeft_add_eq_or_of_lt (by omega : b.toNat < 2 ^ 8), Nat.shiftLeft_eq]
  omega

theorem be16_eq_iff (a b : UInt8) (x : UInt16) : be16 a b = x ↔ [a, b] = bytes16 x := by
  have ha := a.toNat_lt
  have hb := b.toNat_lt
  have hx := x.toNat_lt
  simp only [bytes16, List.cons.injEq, and_true, ← UInt16.toNat_inj, ← UInt8.toNat_inj, toNat_be16,
    UInt16.toNat_toUInt8, UInt16.toNat_shiftRight, Nat.shiftRight_eq_div_pow]
  show 256 * a.toNat + b.toNat = x.toNat ↔ a.toNat = x.toNat / 256 % 256 ∧ b.toNat = x.toNat % 256
  omega

theorem be16_bytes (x : UInt16) : be16 (x >>> 8).toUInt8 x.toUInt8 = x := (be16_eq_iff _ _ x).mpr rfl

def bytes32 (x : UInt32) : List UInt8 :=
  [(x >>> 24).toUInt8, (x >>> 16).toUInt8, (x >>> 8).toUInt8, x.toUInt8]

def bytesOfIp (ip : Ipv4Addr) : List UInt8 := bytes32 ⟨ip⟩

def optionData : DhcpOption → List UInt8
  | .subnetMask mask => bytesOfIp mask
  | .router routers => routers.flatMap bytesOfIp
  | .domainNameServer servers => servers.flatMap bytesOfIp
  | .requestedIpAddress ip => bytesOfIp ip
  | .addressLeaseTime secs => bytes32 secs
  | .messageType mtype => [codeOfMessageType mtype]
  | .serverIdentifier ip => bytesOfIp ip
  | .parameterRequestList codes => codes.map byteOfOptionCode
  | .unknown _ data => data

def byteOfOpcode : Opcode → UInt8
  | .bootRequest => 1
  | .bootReply => 2
  | .unknown code => code

/-- Hardware type 1, no hops and no seconds, empty text fields, the magic cookie, and the
options in the order of the map, closed by the end option. -/
def encode (m : Message) : List UInt8 :=
  [byteOfOpcode m.opcode, 1, m.hlen, 0] ++ bytes32 m.xid ++ [0, 0] ++ bytes16 m.flags ++
    bytesOfIp m.ciaddr ++ bytesOfIp m.yiaddr ++ bytesOfIp m.siaddr ++ bytesOfIp m.giaddr ++
    m.chaddrField.toList ++ List.replicate 192 0 ++ [99, 130, 83, 99] ++
    (m.opts.values.flatMap fun option =>
      byteOfOptionCode option.code :: UInt8.ofNat (optionData option).length :: optionData option) ++
    [255]

def dhcproto : Dhcproto := ⟨decode, fun m => .ok (encode m)⟩

theorem dhcproto_encodes : dhcproto.Encodes := fun m => ⟨encode m, rfl⟩

/-- An OFFER with its options reads back as it was written. -/
example :
    let offer := ((((Message.default.setChaddr (MacAddr.octets ⟨2, 0, 0, 0, 0, 7⟩) (by decide)).withOption
      (.messageType .offer)).withOption (.serverIdentifier (Ipv4Addr.new 192 168 1 1))).withOption
      (.router [Ipv4Addr.new 192 168 1 1]))
    (dhcproto.decode (encode offer)).map (fun m => (m.hlen, m.chaddr, m.messageType, m.opts.get .router)) =
      some (6, offer.chaddr, some .offer, some (.router [Ipv4Addr.new 192 168 1 1])) := by
  decide +kernel

end Wire

end RustyRouter
