import RustyRouter.Net.RoundTrip
import RustyRouter.OnesComplement

/-! Frames to send.

A frame is written in place, into a buffer of zeros, through nested mutable views of the
`pnet` crate: a `PnetMut` says what their constructors accept, what the setters make of
the bytes under a view, and which part of these is the payload. That part depends on the
header, so the lengths are set before the payload is entered, and the header checksum
last. `Standard` is what the crate is relied on for: each field at its standard place, in
network byte order, the payload after the header, and the checksum of RFC 1071. -/
namespace RustyRouter

/-- A view of the bytes of one header and its payload. -/
structure MutableView where
  minimumPacketSize : Nat
  /-- Whether the constructor accepts the bytes. -/
  accepts : List UInt8 → Bool
  /-- Where `payload_mut` begins and ends. -/
  payload : List UInt8 → Nat × Nat

/-- The mutable packets of the crate. -/
structure PnetMut where
  ethernet : MutableView
  setEthDestination : MacAddr → List UInt8 → List UInt8
  setEthSource : MacAddr → List UInt8 → List UInt8
  setEthertype : UInt16 → List UInt8 → List UInt8
  ipv4 : MutableView
  setVersion : UInt8 → List UInt8 → List UInt8
  setHeaderLength : UInt8 → List UInt8 → List UInt8
  setTotalLength : UInt16 → List UInt8 → List UInt8
  setTtl : UInt8 → List UInt8 → List UInt8
  setNextLevelProtocol : UInt8 → List UInt8 → List UInt8
  setIpSource : Ipv4Addr → List UInt8 → List UInt8
  setIpDestination : Ipv4Addr → List UInt8 → List UInt8
  setChecksum : UInt16 → List UInt8 → List UInt8
  ipv4Checksum : List UInt8 → UInt16
  udp : MutableView
  setUdpSource : UInt16 → List UInt8 → List UInt8
  setUdpDestination : UInt16 → List UInt8 → List UInt8
  setUdpLength : UInt16 → List UInt8 → List UInt8
  setUdpPayload : List UInt8 → List UInt8 → List UInt8

/-- A view of a buffer, which is written through it; the constructor's result is unwrapped. -/
def MutableView.write (view : MutableView) (buf : List UInt8) (f : List UInt8 → Option (List UInt8)) :
    Option (List UInt8) :=
  if view.accepts buf then f buf else none

/-- What is written to the payload of a view. -/
def MutableView.writePayload (view : MutableView) (buf : List UInt8)
    (f : List UInt8 → Option (List UInt8)) : Option (List UInt8) :=
  let range := view.payload buf
  (f ((buf.take range.2).drop range.1)).map fun payload => buf.take range.1 ++ payload ++ buf.drop range.2

/-- `none` where one of the constructors panics. -/
def buildRawPacket (pnet : PnetMut) (srcMac destMac : MacAddr) (srcIp destIp : Ipv4Addr)
    (srcPort destPort : UInt16) (payload : List UInt8) : Option (List UInt8) := do
  let ethHeaderLen := pnet.ethernet.minimumPacketSize
  let ipHeaderLen := pnet.ipv4.minimumPacketSize
  let udpHeaderLen := pnet.udp.minimumPacketSize
  let totalLen := ethHeaderLen + ipHeaderLen + udpHeaderLen + payload.length
  let buf := List.replicate totalLen 0
  let buf ← pnet.ethernet.write buf fun eth =>
    let eth := pnet.setEthDestination destMac eth
    let eth := pnet.setEthSource srcMac eth
    let eth := pnet.setEthertype etherTypeIpv4 eth
    pnet.ethernet.writePayload eth fun ip => pnet.ipv4.write ip fun ip =>
      let ip := pnet.setVersion 4 ip
      let ip := pnet.setHeaderLength (UInt8.ofNat (ipHeaderLen / 4)) ip
      let ip := pnet.setTotalLength (UInt16.ofNat (ipHeaderLen + udpHeaderLen + payload.length)) ip
      let ip := pnet.setTtl 64 ip
      let ip := pnet.setNextLevelProtocol protocolUdp ip
      let ip := pnet.setIpSource srcIp ip
      let ip := pnet.setIpDestination destIp ip
      pnet.ipv4.writePayload ip fun udp => pnet.udp.write udp fun udp =>
        let udp := pnet.setUdpSource srcPort udp
        let udp := pnet.setUdpDestination destPort udp
        let udp := pnet.setUdpLength (UInt16.ofNat (udpHeaderLen + payload.length)) udp
        some (pnet.setUdpPayload payload udp)
  pnet.ethernet.write buf fun eth => pnet.ethernet.writePayload eth fun ip => pnet.ipv4.write ip fun ip =>
    some (pnet.setChecksum (pnet.ipv4Checksum ip) ip)

/-! ### The standard layout -/

namespace Wire

/-- Bytes written over others. -/
def patch (offset : Nat) (bytes buf : List UInt8) : List UInt8 :=
  buf.take offset ++ bytes ++ buf.drop (offset + bytes.length)

/-- The 16-bit words of a header. -/
def words : List UInt8 → List Nat
  | a :: b :: rest => (be16 a b).toNat :: words rest
  | [a] => [(be16 a 0).toNat]
  | [] => []

/-- The header length in bytes, by its field. -/
def headerLength (packet : List UInt8) : Nat := (packet.headD 0 &&& (0x0f : UInt8)).toNat * 4

def totalLength (packet : List UInt8) : Nat := (be16 (packet.getD 2 0) (packet.getD 3 0)).toNat

/-- The checksum of RFC 1071, over the words of the header but the sixth. -/
def ipv4Checksum (packet : List UInt8) : UInt16 :=
  let header := packet.take (max 20 (min (headerLength packet) packet.length))
  let s := ((words header).eraseIdx 5).sum
  UInt16.ofNat (OnesComplement.complement 0xffff (OnesComplement.fold 0xffff s s))

def viewOf (size : Nat) (payload : List UInt8 → Nat × Nat) : MutableView where
  minimumPacketSize := size
  accepts buf := decide (size ≤ buf.length)
  payload := payload

def pnetMut : PnetMut where
  ethernet := viewOf 14 fun buf => (14, buf.length)
  setEthDestination mac := patch 0 mac.octets
  setEthSource mac := patch 6 mac.octets
  setEthertype ethertype := patch 12 (bytes16 ethertype)
  ipv4 := viewOf 20 fun buf =>
    let start := 20 + (headerLength buf - 20)
    (start, min (start + (totalLength buf - headerLength buf)) buf.length)
  setVersion version buf := patch 0 [(buf.headD 0 &&& (0x0f : UInt8)) ||| version <<< (4 : UInt8)] buf
  setHeaderLength length buf := patch 0 [(buf.headD 0 &&& (0xf0 : UInt8)) ||| (length &&& (0x0f : UInt8))] buf
  setTotalLength length := patch 2 (bytes16 length)
  setTtl ttl := patch 8 [ttl]
  setNextLevelProtocol protocol := patch 9 [protocol]
  setIpSource ip := patch 12 (bytesOfIp ip)
  setIpDestination ip := patch 16 (bytesOfIp ip)
  setChecksum checksum := patch 10 (bytes16 checksum)
  ipv4Checksum := ipv4Checksum
  udp := viewOf 8 fun buf => (8, buf.length)
  setUdpSource port := patch 0 (bytes16 port)
  setUdpDestination port := patch 2 (bytes16 port)
  setUdpLength length := patch 4 (bytes16 length)
  setUdpPayload payload := patch 8 payload

/-! ### What is written -/

def ethHeader (srcMac destMac : MacAddr) : List UInt8 :=
  destMac.octets ++ srcMac.octets ++ bytes16 etherTypeIpv4

/-- An IPv4 header without options. -/
def ipHeader (length : UInt16) (checksum : UInt16) (srcIp destIp : Ipv4Addr) : List UInt8 :=
  [0x45, 0] ++ bytes16 length ++ [0, 0, 0, 0, 64, protocolUdp] ++ bytes16 checksum ++ bytesOfIp srcIp ++
    bytesOfIp destIp

def udpHeader (srcPort destPort length : UInt16) : List UInt8 :=
  bytes16 srcPort ++ bytes16 destPort ++ bytes16 length ++ [0, 0]

end Wire

/-- What is written to a payload that fills the rest of the buffer. -/
theorem MutableView.writePayload_append {view : MutableView} {header rest : List UInt8}
    {f : List UInt8 → Option (List UInt8)}
    (hrange : view.payload (header ++ rest) = (header.length, (header ++ rest).length)) :
    view.writePayload (header ++ rest) f = (f rest).map (header ++ ·) := by
  have htake : (header ++ rest).take (header ++ rest).length = header ++ rest := List.take_length
  have hdrop : (header ++ rest).drop (header ++ rest).length = [] := List.drop_length
  simp only [MutableView.writePayload, hrange, htake, hdrop, List.drop_left, List.take_left, List.append_nil]

namespace Wire

variable (srcMac destMac : MacAddr) (srcIp destIp : Ipv4Addr) (srcPort destPort : UInt16)
  (payload rest : List UInt8)

theorem viewOf_accepts {size : Nat} {range : List UInt8 → Nat × Nat} {header rest : List UInt8}
    (h : header.length = size) : (viewOf size range).accepts (header ++ rest) = true := by
  apply decide_eq_true
  rw [List.length_append, h]
  exact Nat.le_add_right _ _

theorem write_eth (f : List UInt8 → Option (List UInt8)) :
    (pnetMut.ethernet.write (List.replicate 14 0 ++ rest) fun eth =>
      let eth := pnetMut.setEthDestination destMac eth
      let eth := pnetMut.setEthSource srcMac eth
      let eth := pnetMut.setEthertype etherTypeIpv4 eth
      pnetMut.ethernet.writePayload eth f) = (f rest).map (ethHeader srcMac destMac ++ ·) := by
  have haccepts : pnetMut.ethernet.accepts (List.replicate 14 0 ++ rest) = true := viewOf_accepts rfl
  rw [MutableView.write, if_pos haccepts]
  show pnetMut.ethernet.writePayload (ethHeader srcMac destMac ++ rest) f = _
  exact MutableView.writePayload_append rfl

theorem write_ip (length : UInt16) (hlength : length.toNat = 20 + rest.length)
    (f : List UInt8 → Option (List UInt8)) :
    (pnetMut.ipv4.write (List.replicate 20 0 ++ rest) fun ip =>
      let ip := pnetMut.setVersion 4 ip
      let ip := pnetMut.setHeaderLength (UInt8.ofNat (pnetMut.ipv4.minimumPacketSize / 4)) ip
      let ip := pnetMut.setTotalLength length ip
      let ip := pnetMut.setTtl 64 ip
      let ip := pnetMut.setNextLevelProtocol protocolUdp ip
      let ip := pnetMut.setIpSource srcIp ip
      let ip := pnetMut.setIpDestination destIp ip
      pnetMut.ipv4.writePayload ip f) = (f rest).map (ipHeader length 0 srcIp destIp ++ ·) := by
  have haccepts : pnetMut.ipv4.accepts (List.replicate 20 0 ++ rest) = true := viewOf_accepts rfl
  rw [MutableView.write, if_pos haccepts]
  -- the first byte is written in two halves
  have hversion : pnetMut.setVersion 4 (List.replicate 20 0 ++ rest) =
      0x40 :: (List.replicate 19 0 ++ rest) := by
    have hbyte : (0 : UInt8) &&& (0x0f : UInt8) ||| (4 : UInt8) <<< (4 : UInt8) = 0x40 := by decide
    exact congrArg (fun byte : UInt8 => byte :: (List.replicate 19 0 ++ rest)) hbyte
  have hlen : ∀ xs, pnetMut.setHeaderLength (UInt8.ofNat (pnetMut.ipv4.minimumPacketSize / 4)) (0x40 :: xs) =
      0x45 :: xs := by
    intro xs
    have hbyte : (0x40 : UInt8) &&& (0xf0 : UInt8) ||| UInt8.ofNat (20 / 4) &&& (0x0f : UInt8) = 0x45 := by decide
    exact congrArg (fun byte : UInt8 => byte :: xs) hbyte
  simp only [hversion, hlen]
  show pnetMut.ipv4.writePayload (ipHeader length 0 srcIp destIp ++ rest) f = _
  apply MutableView.writePayload_append
  have hheader : headerLength (ipHeader length 0 srcIp destIp ++ rest) = 20 := by
    show ((0x45 : UInt8) &&& 0x0f).toNat * 4 = 20
    decide
  have htotal : totalLength (ipHeader length 0 srcIp destIp ++ rest) = 20 + rest.length := by
    show (be16 (length >>> 8).toUInt8 length.toUInt8).toNat = _
    rw [be16_bytes, hlength]
  show (20 + (headerLength _ - 20), min (20 + (headerLength _ - 20) + (totalLength _ - headerLength _)) _) = _
  have hsize : (ipHeader length 0 srcIp destIp).length = 20 := rfl
  rw [hheader, htotal, List.length_append, hsize, Prod.mk.injEq]
  omega

theorem write_udp (length : UInt16) :
    (pnetMut.udp.write (List.replicate 8 0 ++ List.replicate payload.length 0) fun udp =>
      let udp := pnetMut.setUdpSource srcPort udp
      let udp := pnetMut.setUdpDestination destPort udp
      let udp := pnetMut.setUdpLength length udp
      some (pnetMut.setUdpPayload payload udp)) = some (udpHeader srcPort destPort length ++ payload) := by
  have haccepts : pnetMut.udp.accepts (List.replicate 8 0 ++ List.replicate payload.length 0) = true :=
    viewOf_accepts rfl
  rw [MutableView.write, if_pos haccepts]
  show some (udpHeader srcPort destPort length ++ payload ++
    (udpHeader srcPort destPort length ++ List.replicate payload.length 0).drop (8 + payload.length)) = _
  rw [List.drop_of_length_le, List.append_nil]
  rw [List.length_append, List.length_replicate]
  exact Nat.le_refl _

/-- The sum of the header's words but the checksum's. -/
def headerSum (length : UInt16) (srcIp destIp : Ipv4Addr) : Nat :=
  ((words (ipHeader length 0 srcIp destIp)).eraseIdx 5).sum

def headerChecksum (length : UInt16) (srcIp destIp : Ipv4Addr) : UInt16 :=
  UInt16.ofNat (OnesComplement.complement 0xffff
    (OnesComplement.fold 0xffff (headerSum length srcIp destIp) (headerSum length srcIp destIp)))

theorem ipv4Checksum_ipHeader (length : UInt16) :
    ipv4Checksum (ipHeader length 0 srcIp destIp ++ rest) = headerChecksum length srcIp destIp := by
  have hheader : headerLength (ipHeader length 0 srcIp destIp ++ rest) = 20 := by
    show ((0x45 : UInt8) &&& 0x0f).toNat * 4 = 20
    decide
  have hsize : (ipHeader length 0 srcIp destIp).length = 20 := rfl
  have htake : (ipHeader length 0 srcIp destIp ++ rest).take 20 = ipHeader length 0 srcIp destIp :=
    List.take_left' rfl
  have hclamp : max 20 (min 20 (ipHeader length 0 srcIp destIp ++ rest).length) = 20 := by
    rw [List.length_append, hsize]
    omega
  simp only [ipv4Checksum, hheader, hclamp, htake]
  rfl

theorem write_checksum (length : UInt16) :
    (pnetMut.ethernet.write (ethHeader srcMac destMac ++ (ipHeader length 0 srcIp destIp ++ rest)) fun eth =>
      pnetMut.ethernet.writePayload eth fun ip => pnetMut.ipv4.write ip fun ip =>
        some (pnetMut.setChecksum (pnetMut.ipv4Checksum ip) ip)) =
      some (ethHeader srcMac destMac ++
        (ipHeader length (headerChecksum length srcIp destIp) srcIp destIp ++ rest)) := by
  have heth : pnetMut.ethernet.accepts
      (ethHeader srcMac destMac ++ (ipHeader length 0 srcIp destIp ++ rest)) = true := viewOf_accepts rfl
  have hip : pnetMut.ipv4.accepts (ipHeader length 0 srcIp destIp ++ rest) = true := viewOf_accepts rfl
  rw [MutableView.write, if_pos heth, MutableView.writePayload_append rfl, MutableView.write, if_pos hip]
  show some (ethHeader srcMac destMac ++ pnetMut.setChecksum (ipv4Checksum (ipHeader length 0 srcIp destIp ++ rest))
    (ipHeader length 0 srcIp destIp ++ rest)) = _
  rw [ipv4Checksum_ipHeader]
  rfl

/-- The frame, as it is sent. -/
def rawPacket : List UInt8 :=
  let length := UInt16.ofNat (28 + payload.length)
  ethHeader srcMac destMac ++ (ipHeader length (headerChecksum length srcIp destIp) srcIp destIp ++
    (udpHeader srcPort destPort (UInt16.ofNat (8 + payload.length)) ++ payload))

theorem buildRawPacket_eq (hlen : payload.length ≤ 65507) :
    buildRawPacket pnetMut srcMac destMac srcIp destIp srcPort destPort payload =
      some (rawPacket srcMac destMac srcIp destIp srcPort destPort payload) := by
  have hzeros : List.replicate (14 + 20 + 8 + payload.length) (0 : UInt8) = List.replicate 14 0 ++
      (List.replicate 20 0 ++ (List.replicate 8 0 ++ List.replicate payload.length 0)) := by
    simp only [List.replicate_append_replicate, Nat.add_assoc]
  have htotal : (UInt16.ofNat (pnetMut.ipv4.minimumPacketSize + pnetMut.udp.minimumPacketSize +
      payload.length)).toNat = 20 + (List.replicate 8 (0 : UInt8) ++ List.replicate payload.length 0).length := by
    show (UInt16.ofNat (20 + 8 + payload.length)).toNat = _
    rw [UInt16.toNat_ofNat', Nat.mod_eq_of_lt (by omega), List.length_append, List.length_replicate,
      List.length_replicate, Nat.add_assoc]
  unfold buildRawPacket
  show (pnetMut.ethernet.write (List.replicate (14 + 20 + 8 + payload.length) 0) _ >>= _) = _
  rw [hzeros, write_eth, write_ip srcIp destIp _ _ htotal, write_udp]
  have hlength : pnetMut.ipv4.minimumPacketSize + pnetMut.udp.minimumPacketSize + payload.length =
      28 + payload.length := rfl
  rw [hlength]
  exact write_checksum srcMac destMac srcIp destIp _ _

/-! ### The header checksum -/

theorem words_le (bytes : List UInt8) : ∀ w ∈ words bytes, w ≤ 0xffff := by
  intro w hw
  induction bytes using words.induct with
  | case1 a b rest ih =>
    rcases List.mem_cons.mp hw with rfl | hw
    · exact Nat.le_of_lt_succ (be16 a b).toNat_lt
    · exact ih hw
  | case2 a =>
    rw [words, List.mem_singleton] at hw
    rw [hw]
    exact Nat.le_of_lt_succ (be16 a 0).toNat_lt
  | case3 => exact absurd hw (List.not_mem_nil)

/-- The checksum's word, among the others. -/
theorem sum_words_ipHeader (length checksum : UInt16) :
    (words (ipHeader length checksum srcIp destIp)).sum = headerSum length srcIp destIp + checksum.toNat := by
  have hchecksum : (be16 (checksum >>> 8).toUInt8 checksum.toUInt8).toNat = checksum.toNat := by
    rw [be16_bytes]
  simp only [headerSum, ipHeader, bytes16, bytesOfIp, bytes32, List.cons_append, List.nil_append, words,
    List.eraseIdx_cons_succ, List.eraseIdx_cons_zero, List.sum_cons, hchecksum]
  omega

theorem headerSum_pos (length : UInt16) : 0 < headerSum length srcIp destIp := by
  have hversion : 0 < (be16 0x45 0).toNat := by decide
  exact Nat.lt_of_lt_of_le hversion (Nat.le_add_right _ _)

theorem toNat_headerChecksum (length : UInt16) : (headerChecksum length srcIp destIp).toNat =
    OnesComplement.complement 0xffff (OnesComplement.residue 0xffff (headerSum length srcIp destIp)) := by
  rw [headerChecksum, OnesComplement.fold_eq_residue (by decide) (Nat.le_refl _), UInt16.toNat_ofNat',
    Nat.mod_eq_of_lt]
  exact Nat.lt_succ_of_le (Nat.sub_le _ _)

/-- With its checksum, the header sums up to all ones. -/
theorem sum_ipHeader (length : UInt16) : OnesComplement.sum 0xffff
    (words (ipHeader length (headerChecksum length srcIp destIp) srcIp destIp)) = 0xffff := by
  rw [OnesComplement.sum_eq_residue (by decide) (words_le _), sum_words_ipHeader, toNat_headerChecksum]
  exact OnesComplement.residue_add_complement (by decide) (headerSum_pos srcIp destIp length)

/-! ### What is read -/

theorem read_eth : pnet.ethernet (ethHeader srcMac destMac ++ rest) =
    some ⟨destMac, srcMac, etherTypeIpv4, rest⟩ := rfl

theorem read_ip {length checksum : UInt16} (hlength : length.toNat = 20 + rest.length) :
    pnet.ipv4 (ipHeader length checksum srcIp destIp ++ rest) =
      some ⟨length, protocolUdp, srcIp, destIp, rest⟩ := by
  have hpayload : (be16 (length >>> 8).toUInt8 length.toUInt8).toNat - 20 = rest.length := by
    rw [be16_bytes, hlength, Nat.add_sub_cancel_left]
  show some (Ipv4Packet.mk (be16 (length >>> 8).toUInt8 length.toUInt8) protocolUdp (Ipv4Addr.new _ _ _ _)
    (Ipv4Addr.new _ _ _ _) (rest.take ((be16 (length >>> 8).toUInt8 length.toUInt8).toNat - 20))) = _
  rw [hpayload, be16_bytes, new_bytes, new_bytes, List.take_length]

theorem read_udp (length : UInt16) : pnet.udp (udpHeader srcPort destPort length ++ payload) =
    some ⟨srcPort, destPort, length, payload⟩ := by
  show some (UdpPacket.mk (be16 (srcPort >>> 8).toUInt8 srcPort.toUInt8)
    (be16 (destPort >>> 8).toUInt8 destPort.toUInt8) (be16 (length >>> 8).toUInt8 length.toUInt8) payload) = _
  rw [be16_bytes, be16_bytes, be16_bytes]

end Wire

/-! ### The round trip -/

/-- What the crate is relied on for when it writes. -/
structure PnetMut.Standard (pnet : PnetMut) : Prop where
  ethernet : pnet.ethernet = Wire.viewOf 14 fun buf => (14, buf.length)
  setEthDestination : ∀ mac, pnet.setEthDestination mac = Wire.patch 0 mac.octets
  setEthSource : ∀ mac, pnet.setEthSource mac = Wire.patch 6 mac.octets
  setEthertype : ∀ ethertype, pnet.setEthertype ethertype = Wire.patch 12 (Wire.bytes16 ethertype)
  /-- The payload has the length that the total length leaves, and the buffer. -/
  ipv4 : pnet.ipv4 = Wire.viewOf 20 fun buf =>
    let start := 20 + (Wire.headerLength buf - 20)
    (start, min (start + (Wire.totalLength buf - Wire.headerLength buf)) buf.length)
  /-- The high half of the first byte, which keeps the low half. -/
  setVersion : ∀ version buf, pnet.setVersion version buf =
    Wire.patch 0 [(buf.headD 0 &&& (0x0f : UInt8)) ||| version <<< (4 : UInt8)] buf
  /-- The low half. -/
  setHeaderLength : ∀ length buf, pnet.setHeaderLength length buf =
    Wire.patch 0 [(buf.headD 0 &&& (0xf0 : UInt8)) ||| (length &&& (0x0f : UInt8))] buf
  setTotalLength : ∀ length, pnet.setTotalLength length = Wire.patch 2 (Wire.bytes16 length)
  setTtl : ∀ ttl, pnet.setTtl ttl = Wire.patch 8 [ttl]
  setNextLevelProtocol : ∀ protocol, pnet.setNextLevelProtocol protocol = Wire.patch 9 [protocol]
  setIpSource : ∀ ip, pnet.setIpSource ip = Wire.patch 12 (Wire.bytesOfIp ip)
  setIpDestination : ∀ ip, pnet.setIpDestination ip = Wire.patch 16 (Wire.bytesOfIp ip)
  setChecksum : ∀ checksum, pnet.setChecksum checksum = Wire.patch 10 (Wire.bytes16 checksum)
  /-- The complement of the one's complement sum of the header's words but the checksum's. -/
  ipv4Checksum : ∀ packet, pnet.ipv4Checksum packet = UInt16.ofNat (OnesComplement.complement 0xffff
    (OnesComplement.sum 0xffff ((Wire.words
      (packet.take (max 20 (min (Wire.headerLength packet) packet.length)))).eraseIdx 5)))
  udp : pnet.udp = Wire.viewOf 8 fun buf => (8, buf.length)
  setUdpSource : ∀ port, pnet.setUdpSource port = Wire.patch 0 (Wire.bytes16 port)
  setUdpDestination : ∀ port, pnet.setUdpDestination port = Wire.patch 2 (Wire.bytes16 port)
  setUdpLength : ∀ length, pnet.setUdpLength length = Wire.patch 4 (Wire.bytes16 length)
  setUdpPayload : ∀ payload, pnet.setUdpPayload payload = Wire.patch 8 payload

/-- What the crate is relied on for when it reads. -/
structure Pnet.Standard (pnet : Pnet) : Prop where
  ethernet : ∀ buf, pnet.ethernet buf = Wire.ethernet buf
  ipv4 : ∀ packet, pnet.ipv4 packet = Wire.ipv4 packet
  udp : ∀ datagram, pnet.udp datagram = Wire.udp datagram

theorem Wire.pnet_standard : Wire.pnet.Standard := ⟨fun _ => rfl, fun _ => rfl, fun _ => rfl⟩

theorem Pnet.Standard.eq {pnet : Pnet} (h : pnet.Standard) : pnet = Wire.pnet := by
  obtain ⟨ethernet, ipv4, udp⟩ := pnet
  obtain ⟨hethernet, hipv4, hudp⟩ := h
  obtain rfl : ethernet = Wire.ethernet := funext hethernet
  obtain rfl : ipv4 = Wire.ipv4 := funext hipv4
  obtain rfl : udp = Wire.udp := funext hudp
  rfl

/-- The crate adds up all words before it brings the carries round. -/
theorem Wire.ipv4Checksum_eq (packet : List UInt8) : Wire.ipv4Checksum packet =
    UInt16.ofNat (OnesComplement.complement 0xffff (OnesComplement.sum 0xffff
      ((Wire.words (packet.take (max 20 (min (Wire.headerLength packet) packet.length)))).eraseIdx 5))) := by
  have hle : ∀ w ∈ (Wire.words (packet.take (max 20 (min (Wire.headerLength packet) packet.length)))).eraseIdx 5,
      w ≤ 0xffff := fun w hw => Wire.words_le _ w (List.mem_of_mem_eraseIdx hw)
  rw [OnesComplement.sum_eq_residue (by decide) hle,
    ← OnesComplement.fold_eq_residue (by decide) (Nat.le_refl _)]
  rfl

theorem Wire.pnetMut_standard : Wire.pnetMut.Standard where
  ethernet := rfl
  setEthDestination _ := rfl
  setEthSource _ := rfl
  setEthertype _ := rfl
  ipv4 := rfl
  setVersion _ _ := rfl
  setHeaderLength _ _ := rfl
  setTotalLength _ := rfl
  setTtl _ := rfl
  setNextLevelProtocol _ := rfl
  setIpSource _ := rfl
  setIpDestination _ := rfl
  setChecksum _ := rfl
  ipv4Checksum := Wire.ipv4Checksum_eq
  udp := rfl
  setUdpSource _ := rfl
  setUdpDestination _ := rfl
  setUdpLength _ := rfl
  setUdpPayload _ := rfl

theorem PnetMut.Standard.eq {pnet : PnetMut} (h : pnet.Standard) : pnet = Wire.pnetMut := by
  obtain ⟨ethernet, setEthDestination, setEthSource, setEthertype, ipv4, setVersion, setHeaderLength,
    setTotalLength, setTtl, setNextLevelProtocol, setIpSource, setIpDestination, setChecksum, ipv4Checksum,
    udp, setUdpSource, setUdpDestination, setUdpLength, setUdpPayload⟩ := pnet
  have hchecksum : ipv4Checksum = Wire.ipv4Checksum := by
    funext packet
    rw [Wire.ipv4Checksum_eq]
    exact h.ipv4Checksum packet
  rw [hchecksum, Wire.pnetMut, PnetMut.mk.injEq]
  exact ⟨h.ethernet, funext h.setEthDestination, funext h.setEthSource, funext h.setEthertype, h.ipv4,
    funext fun version => funext (h.setVersion version), funext fun length => funext (h.setHeaderLength length),
    funext h.setTotalLength, funext h.setTtl, funext h.setNextLevelProtocol, funext h.setIpSource,
    funext h.setIpDestination, funext h.setChecksum, rfl, h.udp, funext h.setUdpSource,
    funext h.setUdpDestination, funext h.setUdpLength, funext h.setUdpPayload⟩

/-- A frame that passes the checks of the layers is decoded on its port, and on no other. -/
theorem parseDhcpPayload_layers {pnet : Pnet} {dhcproto : Dhcproto} {frame : List UInt8} {eth : EthernetPacket}
    {ip : Ipv4Packet} {udp : UdpPacket} {expectedPort : UInt16} (heth : pnet.ethernet frame = some eth)
    (hethertype : eth.ethertype = etherTypeIpv4) (hip : pnet.ipv4 eth.payload = some ip)
    (hprotocol : ip.nextLevelProtocol = protocolUdp) (hudp : pnet.udp ip.payload = some udp) :
    parseDhcpPayload pnet dhcproto frame expectedPort =
      if expectedPort = udp.destination then dhcproto.decode udp.payload else none := by
  by_cases hport : expectedPort = udp.destination
  · rw [if_pos hport]
    simp [parseDhcpPayload, heth, hethertype, hip, hprotocol, hudp, hport]
  · rw [if_neg hport]
    simp [parseDhcpPayload, heth, hethertype, hip, hprotocol, hudp, Ne.symm hport]

/-- **What is built reads back.** The frame has its lengths right, each layer reads back to
what it was built from, and the words of the IPv4 header sum up to all ones; so the
receiver's parser decodes the payload on its port, and takes the frame on no other. -/
theorem raw_packet_round_trip {pnetMut : PnetMut} {pnet : Pnet} (hmut : pnetMut.Standard)
    (hpnet : pnet.Standard) (dhcproto : Dhcproto) (srcMac destMac : MacAddr) (srcIp destIp : Ipv4Addr)
    (srcPort destPort : UInt16) (payload : List UInt8) (hlen : payload.length ≤ 65507) :
    ∃ frame eth ip udp,
      buildRawPacket pnetMut srcMac destMac srcIp destIp srcPort destPort payload = some frame ∧
      frame.length = 42 + payload.length ∧
      pnet.ethernet frame = some eth ∧ eth.ethertype = etherTypeIpv4 ∧ eth.source = srcMac ∧
      eth.destination = destMac ∧
      pnet.ipv4 eth.payload = some ip ∧ ip.nextLevelProtocol = protocolUdp ∧ ip.source = srcIp ∧
      ip.destination = destIp ∧ ip.totalLength.toNat = 28 + payload.length ∧
      (Wire.words (eth.payload.take 20)).length = 10 ∧
      OnesComplement.sum 0xffff (Wire.words (eth.payload.take 20)) = 0xffff ∧
      pnet.udp ip.payload = some udp ∧ udp.source = srcPort ∧ udp.destination = destPort ∧
      udp.length.toNat = 8 + payload.length ∧ udp.payload = payload ∧
      ∀ expectedPort, parseDhcpPayload pnet dhcproto frame expectedPort =
        if expectedPort = destPort then dhcproto.decode payload else none := by
  obtain rfl := hmut.eq
  obtain rfl := hpnet.eq
  have htotal : (UInt16.ofNat (28 + payload.length)).toNat = 28 + payload.length := by
    rw [UInt16.toNat_ofNat', Nat.mod_eq_of_lt (by omega)]
  have hudpLength : (UInt16.ofNat (8 + payload.length)).toNat = 8 + payload.length := by
    rw [UInt16.toNat_ofNat', Nat.mod_eq_of_lt (by omega)]
  have hdatagram : (UInt16.ofNat (28 + payload.length)).toNat = 20 +
      (Wire.udpHeader srcPort destPort (UInt16.ofNat (8 + payload.length)) ++ payload).length := by
    rw [htotal, List.length_append]
    show 28 + payload.length = 20 + (8 + payload.length)
    omega
  have hframe := Wire.buildRawPacket_eq srcMac destMac srcIp destIp srcPort destPort payload hlen
  have hsum := Wire.sum_ipHeader srcIp destIp (UInt16.ofNat (28 + payload.length))
  have hudp := Wire.read_udp srcPort destPort payload (UInt16.ofNat (8 + payload.length))
  have hsize : (Wire.rawPacket srcMac destMac srcIp destIp srcPort destPort payload).length =
      42 + payload.length := by
    simp only [Wire.rawPacket, List.length_append]
    show 14 + (20 + (8 + payload.length)) = 42 + payload.length
    omega
  simp only [Wire.rawPacket] at hframe hsize
  -- only the layers' borders matter from here on
  generalize Wire.headerChecksum (UInt16.ofNat (28 + payload.length)) srcIp destIp = checksum at hframe hsum hsize
  generalize Wire.udpHeader srcPort destPort (UInt16.ofNat (8 + payload.length)) ++ payload = datagram
    at hframe hudp hdatagram hsize
  have hip := @Wire.read_ip srcIp destIp datagram _ checksum hdatagram
  have hheader : (Wire.ipHeader (UInt16.ofNat (28 + payload.length)) checksum srcIp destIp ++ datagram).take 20 =
      Wire.ipHeader (UInt16.ofNat (28 + payload.length)) checksum srcIp destIp := List.take_left' rfl
  have heth := Wire.read_eth srcMac destMac
    (Wire.ipHeader (UInt16.ofNat (28 + payload.length)) checksum srcIp destIp ++ datagram)
  have hparse := fun expectedPort =>
    @parseDhcpPayload_layers Wire.pnet dhcproto _ _ _ _ expectedPort heth rfl hip rfl hudp
  refine ⟨_, _, _, _, hframe, hsize, heth, rfl, rfl, rfl, hip, rfl, rfl, rfl, htotal, ?_, ?_, hudp, rfl, rfl,
    hudpLength, rfl, hparse⟩
  · rw [hheader]
    rfl
  · rw [hheader]
    exact hsum

/-- A frame with three bytes of payload. -/
theorem raw_packet_round_trip_small : ∃ frame,
    buildRawPacket Wire.pnetMut ⟨2, 0, 0, 0, 0, 1⟩ MacAddr.broadcast (Ipv4Addr.new 192 168 1 1)
      Ipv4Addr.broadcast serverPort clientPort [1, 2, 3] = some frame ∧ frame.length = 45 := by
  obtain ⟨frame, eth, ip, udp, hframe, hlen, -⟩ := raw_packet_round_trip Wire.pnetMut_standard Wire.pnet_standard
    Wire.dhcproto ⟨2, 0, 0, 0, 0, 1⟩ MacAddr.broadcast (Ipv4Addr.new 192 168 1 1) Ipv4Addr.broadcast serverPort
    clientPort [1, 2, 3] (by decide)
  exact ⟨frame, hframe, hlen⟩

end RustyRouter
