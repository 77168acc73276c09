import RustyRouter.Bits.Runs
import RustyRouter.Net.Dhcp

/-! What the WAN DHCP client sends, what it reads out of a reply, and its arithmetic.

Nothing here waits. Second counts are `u32` in the code; none of the sums and products
below wraps on the values they are called with, so they are plain numbers here. The one
conversion that can lose bits is that of an elapsed time, `elapsedSecs`. -/
namespace RustyRouter.Wan
open Bits

def defaultLeaseSecs : UInt32 := 3600

def maxRetryDelaySecs : Nat := 64

def initialRetryDelaySecs : Nat := 4

/-- `255.255.255.0` -/
def defaultSubnetMask : Ipv4Addr := Ipv4Addr.new 255 255 255 0

def socketRestartDelaySecs : Nat := 5

/-- The texts of I/O and netlink errors are the system's. -/
inductive DhcpError where
  | io (e : String)
  | protocol (text : String)
  | nak
  | interfaceNotFound (iface : String)
  | rtNetlink (e : String)
  deriving DecidableEq, Repr

structure DhcpOffer where
  offeredIp : Ipv4Addr
  serverIp : Option Ipv4Addr
  deriving DecidableEq, Repr

structure DhcpAck where
  ip : Ipv4Addr
  mask : Ipv4Addr
  gateway : Option Ipv4Addr
  serverIp : Option Ipv4Addr
  leaseSecs : UInt32
  dnsServers : List Ipv4Addr
  deriving DecidableEq, Repr

structure LeaseOptions where
  mask : Ipv4Addr
  gateway : Option Ipv4Addr
  dnsServers : List Ipv4Addr
  leaseSecs : UInt32
  deriving DecidableEq, Repr

inductive ParseAckResult where
  | ack (ack : DhcpAck)
  | nak
  | none
  deriving DecidableEq, Repr

/-! ### Replies -/

def getServerIdentifier (dhcp : Message) : Option Ipv4Addr :=
  match dhcp.opts.get .serverIdentifier with
  | some (.serverIdentifier ip) => some ip
  | _ => none

/-- A missing option, or an empty list of routers, leaves the default. -/
def parseLeaseOptions (dhcp : Message) : LeaseOptions where
  mask := match dhcp.opts.get .subnetMask with
    | some (.subnetMask m) => m
    | _ => defaultSubnetMask
  gateway := match dhcp.opts.get .router with
    | some (.router (first :: _)) => some first
    | _ => none
  dnsServers := match dhcp.opts.get .domainNameServer with
    | some (.domainNameServer list) => list
    | _ => []
  leaseSecs := match dhcp.opts.get .addressLeaseTime with
    | some (.addressLeaseTime t) => t
    | _ => defaultLeaseSecs

def parseOffer (dhcproto : Dhcproto) (buf : List UInt8) (xid : UInt32) : Option DhcpOffer :=
  match dhcproto.decode buf with
  | none => none
  | some dhcp =>
    if dhcp.xid ≠ xid then none
    else
      match dhcp.messageType with
      | some .offer => some ⟨dhcp.yiaddr, getServerIdentifier dhcp⟩
      | _ => none

def parseAckNak (dhcproto : Dhcproto) (buf : List UInt8) (xid : UInt32) : ParseAckResult :=
  match dhcproto.decode buf with
  | none => .none
  | some dhcp =>
    if dhcp.xid ≠ xid then .none
    else
      match dhcp.messageType with
      | some .ack =>
        let opts := parseLeaseOptions dhcp
        .ack
          { ip := dhcp.yiaddr
            mask := opts.mask
            gateway := opts.gateway
            serverIp := getServerIdentifier dhcp
            leaseSecs := opts.leaseSecs
            dnsServers := opts.dnsServers }
      | some .nak => .nak
      | _ => .none

/-! ### Requests -/

def discover (mac : MacAddr) (xid : UInt32) : Message :=
  let discover : Message :=
    { Message.default with
      opcode := .bootRequest
      xid := xid
      flags := Flags.setBroadcast 0 }
  ((discover.setChaddr mac.octets mac.octets_length_le).withOption
    (.messageType .discover)).withOption
    (.parameterRequestList [.subnetMask, .router, .domainNameServer])

/-- Only a client without an address asks for one and names the server it asks. -/
def request (mac : MacAddr) (xid : UInt32) (requestedIp : Ipv4Addr) (serverIp : Option Ipv4Addr)
    (ciaddr : Ipv4Addr) : Message :=
  let request : Message := { Message.default with opcode := .bootRequest, xid := xid, ciaddr := ciaddr }
  let request := request.setChaddr mac.octets mac.octets_length_le
  let request :=
    if ciaddr.isUnspecified then
      let asking := { request with flags := Flags.setBroadcast 0 }.withOption (.requestedIpAddress requestedIp)
      match serverIp with
      | some srv => asking.withOption (.serverIdentifier srv)
      | none => asking
    else request
  request.withOption (.messageType .request)

/-! ### Retry delays -/

def calculateNextDelay (currentDelay : Nat) : Nat :=
  let doubled := currentDelay * 2
  if doubled > maxRetryDelaySecs then maxRetryDelaySecs else doubled

/-- A random number of nanoseconds, at most a second either way. -/
abbrev Jitter := { ns : Int // -1000000000 ≤ ns ∧ ns ≤ 1000000000 }

def Jitter.zero : Jitter := ⟨0, by decide⟩

def getJitteredDuration (baseSecs : Nat) (jitter : Jitter) : Nat :=
  max (Duration.fromSecs 1) ((Duration.fromSecs baseSecs : Int) + jitter.1).toNat

/-! ### Masks -/

/-- `Display` of an address. -/
def displayIp (ip : Ipv4Addr) : String :=
  ".".intercalate ([24, 16, 8, 0].map fun shift => toString ((ip.toNat >>> shift) % 256))

def maskToPrefixLen (mask : Ipv4Addr) : Except DhcpError Nat :=
  let ones := leadingOnes mask
  let zeros := trailingZeros mask
  if ones + zeros ≠ 32 then
    .error (.protocol ("Invalid non-contiguous subnet mask: " ++ displayIp mask))
  else .ok ones

/-! ### Lease times -/

/-- `since.elapsed().as_secs() as u32` -/
def elapsedSecs (since now : Nat) : Nat := Duration.asSecs (now - since) % 2 ^ 32

/-- The renewal time, half the lease. -/
def t1Secs (leaseSecs : Nat) : Nat := leaseSecs / 2

/-- `(lease_secs as f64 * 0.875) as u32`; the product is exact in an `f64`. -/
def t2Secs (leaseSecs : Nat) : Nat := leaseSecs * 7 / 8

structure RenewalParams where
  retryInterval : Nat
  destIp : Ipv4Addr
  inRebinding : Bool
  deriving DecidableEq, Repr

def calculateRenewalParams (currentElapsed t2Secs leaseSecs : Nat) (serverIp : Option Ipv4Addr) :
    RenewalParams :=
  if t2Secs ≤ currentElapsed then
    ⟨max ((leaseSecs - currentElapsed) / 2) 60, Ipv4Addr.broadcast, true⟩
  else
    ⟨max ((t2Secs - currentElapsed) / 2) 60, serverIp.getD Ipv4Addr.broadcast, false⟩

end RustyRouter.Wan
