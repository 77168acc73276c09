import RustyRouter.Lan.LeaseTable
import RustyRouter.Net.Dhcp
import RustyRouter.Transition

/-! The message handlers of the LAN DHCP server, and its runs.

A handler reads the clock several times while it runs; one reading `now` stands for all
of them. It returns the lease table it leaves and the frame it sends, if any: the
arguments of the `build_raw_packet` call, together with the message the payload encodes.

`dispatch_change` says once what a message can do to the table; every invariant of the
server is derived from it. `server` is the server as a system: it handles one message
after another, at clock readings that do not go back. -/
namespace RustyRouter.Lan
open Transition

/-- `LAN_LEASE_SECS` -/
def lanLeaseSecs : UInt32 := 3600

/-- How long a lease runs from the moment it is stored. -/
def lanLease : Nat := Duration.fromSecs lanLeaseSecs.toNat

/-- Fixed server configuration derived from the LAN interface at startup. -/
structure ServerConfig where
  serverIp : Ipv4Addr
  subnetMask : Ipv4Addr
  serverMac : MacAddr
  net : Ipv4Net

/-- What `start_dhcp_server` derives from the network and the interface's MAC address. -/
def ServerConfig.ofNet (net : Ipv4Net) (mac : MacAddr) : ServerConfig :=
  ⟨net.addr, net.netmask, mac, net⟩

/-! ### Replies -/

/-- The arguments of a `build_raw_packet` call. -/
structure RawPacket where
  srcMac : MacAddr
  destMac : MacAddr
  srcIp : Ipv4Addr
  destIp : Ipv4Addr
  srcPort : UInt16
  destPort : UInt16
  payload : List UInt8

/-- A frame handed to `send_raw_packet`, and the message its payload encodes. -/
structure Sent where
  message : Message
  packet : RawPacket

/-- The common DHCPOFFER / DHCPACK message, differing only in its type. -/
def dhcpReply (msgType : MessageType) (dhcp : Message) (leasedIp : Ipv4Addr) (config : ServerConfig) :
    Message :=
  let reply : Message :=
    { Message.default with
      opcode := .bootReply
      xid := dhcp.xid
      flags := dhcp.flags
      yiaddr := leasedIp
      siaddr := config.serverIp }
  ((((((reply.setChaddr dhcp.chaddr dhcp.chaddr_length_le).withOption
    (.messageType msgType)).withOption
    (.serverIdentifier config.serverIp)).withOption
    (.subnetMask config.subnetMask)).withOption
    (.router [config.serverIp])).withOption
    (.domainNameServer [config.serverIp])).withOption
    (.addressLeaseTime lanLeaseSecs)

def buildDhcpReplyPayload (dhcproto : Dhcproto) (msgType : MessageType) (dhcp : Message)
    (leasedIp : Ipv4Addr) (config : ServerConfig) : Except String (List UInt8) :=
  match dhcproto.encode (dhcpReply msgType dhcp leasedIp config) with
  | .ok payload => .ok payload
  | .error e => .error ("Failed to encode DHCP reply: " ++ e)

def getDestMacIp (broadcast : Bool) (clientMac : MacAddr) (leasedIp : Ipv4Addr) : MacAddr × Ipv4Addr :=
  if broadcast then (MacAddr.broadcast, Ipv4Addr.broadcast) else (clientMac, leasedIp)

/-- A frame from the server to a client. -/
def serverFrame (config : ServerConfig) (dest : MacAddr × Ipv4Addr) (payload : List UInt8) : RawPacket :=
  { srcMac := config.serverMac
    destMac := dest.1
    srcIp := config.serverIp
    destIp := dest.2
    srcPort := serverPort
    destPort := clientPort
    payload := payload }

/-- The end of both answering handlers: build the reply, address it and send it; nothing
is sent where the reply does not encode. -/
def sendDhcpReply (dhcproto : Dhcproto) (config : ServerConfig) (msgType : MessageType) (dhcp : Message)
    (clientMac : MacAddr) (leasedIp : Ipv4Addr) : Option Sent :=
  match buildDhcpReplyPayload dhcproto msgType dhcp leasedIp config with
  | .error _ => none
  | .ok payload =>
    some ⟨dhcpReply msgType dhcp leasedIp config,
      serverFrame config (getDestMacIp dhcp.flags.broadcast clientMac leasedIp) payload⟩

def dhcpNak (dhcp : Message) (config : ServerConfig) : Message :=
  let nak : Message := { Message.default with opcode := .bootReply, xid := dhcp.xid }
  ((nak.setChaddr dhcp.chaddr dhcp.chaddr_length_le).withOption
    (.messageType .nak)).withOption
    (.serverIdentifier config.serverIp)

def sendDhcpNak (dhcproto : Dhcproto) (dhcp : Message) (clientMac : MacAddr) (config : ServerConfig) :
    Option Sent :=
  match dhcproto.encode (dhcpNak dhcp config) with
  | .error _ => none
  | .ok payload =>
    some ⟨dhcpNak dhcp config,
      serverFrame config (getDestMacIp dhcp.flags.broadcast clientMac Ipv4Addr.broadcast) payload⟩

/-! ### Handlers -/

def handleDhcpDecline (clientMac : MacAddr) (leases : LeaseTable) : LeaseTable :=
  (leases.remove clientMac).1

def handleDhcpRelease (clientMac : MacAddr) (leases : LeaseTable) : LeaseTable :=
  (leases.remove clientMac).1

/-- Re-offers the address of the client's entry; only a client without one is allocated
an address. -/
def handleDhcpDiscover (dhcproto : Dhcproto) (config : ServerConfig) (now : Nat) (dhcp : Message)
    (clientMac : MacAddr) (leases : LeaseTable) : LeaseTable × Option Sent :=
  match leases.get clientMac with
  | some existing => (leases, sendDhcpReply dhcproto config .offer dhcp clientMac existing.ip)
  | none =>
    match leases.nextAvailableIp now config.net config.serverIp with
    | (evicted, none) => (evicted, none)
    | (evicted, some ip) =>
      (evicted.insert clientMac ⟨ip, now + lanLease⟩,
        sendDhcpReply dhcproto config .offer dhcp clientMac ip)

/-- Within the server's subnet, not the server's own IP, and not actively leased to a
different MAC. -/
def validateRequestedIp (now : Nat) (leasedIp : Ipv4Addr) (clientMac : MacAddr) (config : ServerConfig)
    (leases : LeaseTable) : Bool :=
  if leasedIp == config.serverIp || !config.net.contains leasedIp then false
  else !leases.isIpTakenByOther now leasedIp clientMac

/-- The requested-IP option of a message. -/
def requestedIpOpt (dhcp : Message) : Option Ipv4Addr :=
  match dhcp.opts.get .requestedIpAddress with
  | some (.requestedIpAddress ip) => some ip
  | _ => none

/-- The address a REQUEST is about: the one it asks for, else the one of the client's entry. -/
def requestedIp (dhcp : Message) (clientMac : MacAddr) (leases : LeaseTable) : Option Ipv4Addr :=
  match requestedIpOpt dhcp with
  | some ip => some ip
  | none => (leases.get clientMac).map ClientLease.ip

def handleDhcpRequest (dhcproto : Dhcproto) (config : ServerConfig) (now : Nat) (dhcp : Message)
    (clientMac : MacAddr) (leases : LeaseTable) : LeaseTable × Option Sent :=
  match requestedIp dhcp clientMac leases with
  | none => (leases, none)
  | some leasedIp =>
    if validateRequestedIp now leasedIp clientMac config leases then
      (leases.insert clientMac ⟨leasedIp, now + lanLease⟩,
        sendDhcpReply dhcproto config .ack dhcp clientMac leasedIp)
    else (leases, sendDhcpNak dhcproto dhcp clientMac config)

/-- The dispatch on the message type; a message of no or of another type is dropped. -/
def dispatch (dhcproto : Dhcproto) (config : ServerConfig) (now : Nat) (dhcp : Message)
    (clientMac : MacAddr) (leases : LeaseTable) : LeaseTable × Option Sent :=
  match dhcp.messageType with
  | some .discover => handleDhcpDiscover dhcproto config now dhcp clientMac leases
  | some .request => handleDhcpRequest dhcproto config now dhcp clientMac leases
  | some .decline => (handleDhcpDecline clientMac leases, none)
  | some .release => (handleDhcpRelease clientMac leases, none)
  | _ => (leases, none)

end RustyRouter.Lan
