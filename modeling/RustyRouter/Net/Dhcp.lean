import RustyRouter.Net.Address
import RustyRouter.Store.HashMap

/-! DHCP messages.

`Message` has the fields of `dhcproto::v4::Message` that the client and the server read
or write, and its accessors behave as the crate documents: the hardware length is kept
as the byte it was, and `chaddr` gives at most the sixteen bytes there are. The wire
format is the crate's, so a `Dhcproto` is any pair of a decoder and an encoder. -/
namespace RustyRouter

/-! ### Options -/

/-- `dhcproto::v4::OptionCode`, with the codes the program names. -/
inductive OptionCode where
  | subnetMask
  | router
  | domainNameServer
  | requestedIpAddress
  | addressLeaseTime
  | messageType
  | serverIdentifier
  | parameterRequestList
  | unknown (code : UInt8)
  deriving DecidableEq, Repr

/-- `dhcproto::v4::MessageType` -/
inductive MessageType where
  | discover
  | offer
  | request
  | decline
  | ack
  | nak
  | release
  | inform
  | unknown (code : UInt8)
  deriving DecidableEq, Repr

/-- `dhcproto::v4::DhcpOption` -/
inductive DhcpOption where
  | subnetMask (mask : Ipv4Addr)
  | router (routers : List Ipv4Addr)
  | domainNameServer (servers : List Ipv4Addr)
  | requestedIpAddress (ip : Ipv4Addr)
  | addressLeaseTime (secs : UInt32)
  | messageType (mtype : MessageType)
  | serverIdentifier (ip : Ipv4Addr)
  | parameterRequestList (codes : List OptionCode)
  | unknown (code : UInt8) (data : List UInt8)
  deriving DecidableEq, Repr

def DhcpOption.code : DhcpOption → OptionCode
  | .subnetMask _ => .subnetMask
  | .router _ => .router
  | .domainNameServer _ => .domainNameServer
  | .requestedIpAddress _ => .requestedIpAddress
  | .addressLeaseTime _ => .addressLeaseTime
  | .messageType _ => .messageType
  | .serverIdentifier _ => .serverIdentifier
  | .parameterRequestList _ => .parameterRequestList
  | .unknown code _ => .unknown code

/-- `DhcpOptions`: at most one option a code. -/
abbrev DhcpOptions := Store.HashMap OptionCode DhcpOption

/-- `opts_mut().insert(option)` -/
def insertOption (opts : DhcpOptions) (option : DhcpOption) : DhcpOptions :=
  opts.insert option.code option

/-! ### Messages -/

inductive Opcode where
  | bootRequest
  | bootReply
  | unknown (code : UInt8)
  deriving DecidableEq, Repr

/-- `dhcproto::v4::Flags` -/
abbrev Flags := UInt16

def Flags.broadcast (flags : Flags) : Bool := flags &&& 0x8000 != 0

def Flags.setBroadcast (flags : Flags) : Flags := flags ||| 0x8000

structure Message where
  opcode : Opcode
  hlen : UInt8
  xid : UInt32
  flags : Flags
  ciaddr : Ipv4Addr
  yiaddr : Ipv4Addr
  siaddr : Ipv4Addr
  giaddr : Ipv4Addr
  /-- The sixteen bytes of the `chaddr` field, whatever `hlen` says. -/
  chaddrField : Vector UInt8 16
  opts : DhcpOptions

namespace Message

/-- `Message::default()` -/
def default : Message where
  opcode := .bootRequest
  hlen := 0
  xid := 0
  flags := 0
  ciaddr := Ipv4Addr.unspecified
  yiaddr := Ipv4Addr.unspecified
  siaddr := Ipv4Addr.unspecified
  giaddr := Ipv4Addr.unspecified
  chaddrField := Vector.replicate 16 0
  opts := Store.HashMap.empty

/-- The first `min(hlen, 16)` bytes of the field. -/
def chaddr (m : Message) : List UInt8 := m.chaddrField.toList.take m.hlen.toNat

theorem chaddr_length (m : Message) : m.chaddr.length = min m.hlen.toNat 16 := by
  simp [chaddr]

theorem chaddr_length_le (m : Message) : m.chaddr.length ≤ 16 := by
  rw [chaddr_length]
  exact Nat.min_le_right _ _

/-- `set_chaddr` asserts that the address fits; here the caller shows it. -/
def setChaddr (m : Message) (bytes : List UInt8) (h : bytes.length ≤ 16) : Message :=
  { m with
    hlen := UInt8.ofNat bytes.length
    chaddrField := ⟨(bytes ++ List.replicate (16 - bytes.length) 0).toArray, by simp; omega⟩ }

/-- `opts_mut().insert(option)`, on the message. -/
def withOption (m : Message) (option : DhcpOption) : Message :=
  { m with opts := insertOption m.opts option }

/-- What is stored under the message type's code, if it is a message type. -/
def messageType (m : Message) : Option MessageType :=
  match m.opts.get .messageType with
  | some (.messageType mtype) => some mtype
  | _ => none

end Message

/-- The crate's decoder, whose error is never looked at, and its encoder with the text of
its error. -/
structure Dhcproto where
  decode : List UInt8 → Option Message
  encode : Message → Except String (List UInt8)

/-- A message without over-long text fields, as all of these are, always encodes. -/
def Dhcproto.Encodes (dhcproto : Dhcproto) : Prop := ∀ m, ∃ bytes, dhcproto.encode m = .ok bytes

/-- `dhcproto::v4::SERVER_PORT` -/
def serverPort : UInt16 := 67

/-- `dhcproto::v4::CLIENT_PORT` -/
def clientPort : UInt16 := 68

end RustyRouter
