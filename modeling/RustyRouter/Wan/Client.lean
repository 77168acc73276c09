import RustyRouter.Net.Frame
import RustyRouter.Transition
import RustyRouter.Wan.Messages

/-! The WAN DHCP client as a system.

`DhcpClient::run` negotiates, binds and renews in one sequential task, so its state is
the place it waits at (`Phase`), the lease it shares with the other services, and the
clock. An event is what ends a wait, the time it does, and the random draws the code
makes before it waits again; a step runs the code from one wait to the next. Two more
parts of the state are only recorded: `kernel` is what became of the last `configure_wan`,
and `sent` is every message that was put on the wire.

A timer may fire late, never early. -/
namespace RustyRouter.Wan
open Transition

/-- The lease the client shares with the other services. -/
structure WanLease where
  ip : Option Ipv4Addr
  mask : Option Ipv4Addr
  gateway : Option Ipv4Addr
  dnsServers : List Ipv4Addr
  deriving DecidableEq, Repr

/-- `WanLease::default()` -/
def WanLease.default : WanLease := ⟨none, none, none, []⟩

/-- What `apply_lease_config` stores. -/
def WanLease.ofAck (ack : DhcpAck) : WanLease := ⟨some ack.ip, some ack.mask, ack.gateway, ack.dnsServers⟩

/-! ### The kernel interface -/

/-- What the kernel answers to the netlink requests of one `configure_wan`, but for the
deletion of old addresses, whose failures are only warned about. -/
structure Netlink where
  newConnection : Except String Unit
  linkIndex : String → Except String (Option Nat)
  listAddresses : Except String Unit
  linkUp : Nat → Except String Unit
  addAddress : Nat → Ipv4Addr → Nat → Except String Unit
  addRoute : Nat → Ipv4Addr → Except String Unit

/-- Every request succeeds. -/
def Netlink.working : Netlink where
  newConnection := .ok ()
  linkIndex _ := .ok (some 2)
  listAddresses := .ok ()
  linkUp _ := .ok ()
  addAddress _ _ _ := .ok ()
  addRoute _ _ := .ok ()

def configureWan (netlink : Netlink) (wanInterface : String) (ip mask : Ipv4Addr)
    (gateway : Option Ipv4Addr) : Except DhcpError Unit := do
  let prefixLen ← maskToPrefixLen mask
  netlink.newConnection.mapError .rtNetlink
  match ← (netlink.linkIndex wanInterface).mapError .rtNetlink with
  | none => .error (.interfaceNotFound wanInterface)
  | some index =>
    netlink.listAddresses.mapError .rtNetlink
    (netlink.linkUp index).mapError .rtNetlink
    (netlink.addAddress index ip prefixLen).mapError .rtNetlink
    match gateway.map (netlink.addRoute index) with
    | some (.error _) => .ok ()  -- only a warning
    | _ => .ok ()

/-- What became of the last `configure_wan` since the last `deconfigure`. -/
inductive Kernel where
  | clear
  | failed
  | configured (ip mask : Ipv4Addr) (gateway : Option Ipv4Addr)
  deriving DecidableEq, Repr

/-! ### States and events -/

/-- Where the task waits. -/
inductive Phase where
  /-- Before a negotiation: at the start, and after a failed one. -/
  | idle (wakeAt : Nat)
  | discovering (xid : UInt32) (retryDelaySecs deadline : Nat)
  | requesting (xid : UInt32) (offer : DhcpOffer) (retryDelaySecs deadline : Nat)
  /-- In `apply_lease_config`, for the kernel. -/
  | configuring (ack : DhcpAck)
  /-- At the head of the loop of `bound_phase`. -/
  | bound (ack : DhcpAck) (boundAt : Nat)
  | sleeping (ack : DhcpAck) (boundAt wakeAt : Nat)
  | renewing (ack : DhcpAck) (boundAt : Nat) (renewXid : UInt32) (renewSent : Option Nat) (deadline : Nat)
  deriving DecidableEq, Repr

/-- A message on the wire. -/
structure Sending where
  time : Nat
  message : Message
  destIp : Ipv4Addr

structure ClientState where
  now : Nat
  lease : WanLease
  kernel : Kernel
  phase : Phase
  sent : List Sending

def ClientState.initial : ClientState := ⟨0, .default, .clear, .idle 0, []⟩

inductive Input where
  | timeout
  | packet (buf : List UInt8)
  | ioError (e : String)
  | netlink (replies : Netlink)
  | proceed

/-- What ends a wait, and the draws of the random generator until the next one. -/
structure Event where
  now : Nat
  input : Input
  xid : UInt32
  jitter : Jitter

structure DhcpClient where
  dhcproto : Dhcproto
  mac : MacAddr
  wanInterface : String

variable (c : DhcpClient) (s : ClientState) (e : Event)

/-! ### The code between two waits -/

/-- A message that does not encode is not sent. -/
def sendDhcpMessage (message : Message) (destIp : Ipv4Addr) : ClientState :=
  match c.dhcproto.encode message with
  | .ok _ => { s with sent := s.sent ++ [⟨s.now, message, destIp⟩] }
  | .error _ => s

def sendDiscover (xid : UInt32) : ClientState :=
  sendDhcpMessage c s (discover c.mac xid) Ipv4Addr.broadcast

def sendRequest (xid : UInt32) (requestedIp : Ipv4Addr) (serverIp : Option Ipv4Addr)
    (ciaddr destIp : Ipv4Addr) : ClientState :=
  sendDhcpMessage c s (request c.mac xid requestedIp serverIp ciaddr) destIp

def deconfigure : ClientState := { s with lease := .default, kernel := .clear }

/-- One round of the loop of `discover_phase`. -/
def discoverRound (xid : UInt32) (retryDelaySecs : Nat) : ClientState :=
  { sendDiscover c s xid with
    phase := .discovering xid retryDelaySecs (s.now + getJitteredDuration retryDelaySecs e.jitter) }

def discoverPhase : ClientState := discoverRound c s e e.xid initialRetryDelaySecs

/-- One round of the loop of `request_phase`. -/
def requestRound (xid : UInt32) (offer : DhcpOffer) (retryDelaySecs : Nat) : ClientState :=
  { sendRequest c s xid offer.offeredIp offer.serverIp Ipv4Addr.unspecified Ipv4Addr.broadcast with
    phase := .requesting xid offer retryDelaySecs (s.now + getJitteredDuration retryDelaySecs e.jitter) }

/-- The two error arms of `run`: a failed discovery, a failed request. -/
def negotiationFailed : ClientState :=
  { deconfigure s with phase := .idle (s.now + Duration.fromSecs socketRestartDelaySecs) }

/-- The kernel is asked only if the shared lease changes. -/
def applyLeaseConfig (ack : DhcpAck) : ClientState :=
  if s.lease ≠ .ofAck ack then { s with lease := .ofAck ack, phase := .configuring ack }
  else { s with phase := .bound ack s.now }

/-- The error exits of `bound_phase` past the first configuration. -/
def boundFailed : ClientState := discoverPhase c (deconfigure s) e

/-- Whether a round of the renewal sends a request: the first one does, and one that comes
a retry interval after the last request. -/
def shouldSend (renewSent : Option Nat) (retryInterval now : Nat) : Bool :=
  match renewSent with
  | none => true
  | some t => decide (retryInterval ≤ elapsedSecs t now)

/-- One round of the loop of `renew_lease`. -/
def renewRound (ack : DhcpAck) (boundAt : Nat) (renewXid : UInt32) (renewSent : Option Nat) : ClientState :=
  let leaseSecs := ack.leaseSecs.toNat
  let currentElapsed := elapsedSecs boundAt s.now
  if leaseSecs ≤ currentElapsed then boundFailed c s e
  else
    let params := calculateRenewalParams currentElapsed (t2Secs leaseSecs) leaseSecs ack.serverIp
    let deadline := s.now + Duration.fromSecs params.retryInterval
    if shouldSend renewSent params.retryInterval s.now then
      { sendRequest c s renewXid ack.ip none ack.ip params.destIp with
        phase := .renewing ack boundAt renewXid (some s.now) deadline }
    else { s with phase := .renewing ack boundAt renewXid renewSent deadline }

/-- One round of the loop of `bound_phase`. -/
def boundRound (ack : DhcpAck) (boundAt : Nat) : ClientState :=
  let leaseSecs := ack.leaseSecs.toNat
  let elapsed := elapsedSecs boundAt s.now
  if leaseSecs ≤ elapsed then boundFailed c s e
  else if elapsed < t1Secs leaseSecs then
    { s with phase := .sleeping ack boundAt (s.now + Duration.fromSecs (t1Secs leaseSecs - elapsed)) }
  else renewRound c s e ack boundAt e.xid none

/-- From the end of a wait to the next one; `none` where the event cannot end this wait.
A packet of no interest is waited out, unless it came in the last moment. -/
def resume : Option ClientState :=
  match s.phase, e.input with
  | .idle wakeAt, .timeout => if wakeAt ≤ s.now then some (discoverPhase c s e) else none
  | .discovering xid delay deadline, .packet buf =>
    match parseOffer c.dhcproto buf xid with
    | some offer => some (requestRound c s e xid offer initialRetryDelaySecs)
    | none =>
      if s.now < deadline then some s else some (discoverRound c s e xid (calculateNextDelay delay))
  | .discovering xid delay deadline, .timeout =>
    if deadline ≤ s.now then some (discoverRound c s e xid (calculateNextDelay delay)) else none
  | .discovering _ _ _, .ioError _ => some (negotiationFailed s)
  | .requesting xid offer delay deadline, .packet buf =>
    match parseAckNak c.dhcproto buf xid with
    | .ack ack => some (applyLeaseConfig s ack)
    | .nak => some (negotiationFailed s)
    | .none =>
      if s.now < deadline then some s else some (requestRound c s e xid offer (calculateNextDelay delay))
  | .requesting xid offer delay deadline, .timeout =>
    if deadline ≤ s.now then some (requestRound c s e xid offer (calculateNextDelay delay)) else none
  | .requesting _ _ _ _, .ioError _ => some (negotiationFailed s)
  | .configuring ack, .netlink replies =>
    match configureWan replies c.wanInterface ack.ip ack.mask ack.gateway with
    | .ok _ =>
      some { s with kernel := .configured ack.ip ack.mask ack.gateway, phase := .bound ack s.now }
    | .error _ => some (discoverPhase c { s with kernel := .failed } e)
  | .bound ack boundAt, .proceed => some (boundRound c s e ack boundAt)
  | .sleeping ack boundAt wakeAt, .timeout =>
    if wakeAt ≤ s.now then some { s with phase := .bound ack boundAt } else none
  | .renewing ack boundAt xid renewSent deadline, .packet buf =>
    match parseAckNak c.dhcproto buf xid with
    | .ack newAck => some (applyLeaseConfig s newAck)
    | .nak => some (boundFailed c s e)
    | .none =>
      if s.now < deadline then some s else some (renewRound c s e ack boundAt xid renewSent)
  | .renewing ack boundAt xid renewSent deadline, .timeout =>
    if deadline ≤ s.now then some (renewRound c s e ack boundAt xid renewSent) else none
  | .renewing _ _ _ _ _, .ioError _ => some (boundFailed c s e)
  | _, _ => none

/-- The client takes its events in the order of the clock. -/
def client : System ClientState Event where
  step s e := if s.now ≤ e.now then resume c { s with now := e.now } e else none

/-! ### An uplink

A client and a server's replies, to run the client on. -/

namespace Uplink

def router : DhcpClient := ⟨Wire.dhcproto, ⟨2, 0, 0, 0, 0, 1⟩, "eth0"⟩

def reply (xid : UInt32) (mtype : MessageType) : Message :=
  { Message.default with opcode := .bootReply, xid := xid, yiaddr := Ipv4Addr.new 10 0 2 15 }.withOption
    (.messageType mtype)

def offer (xid : UInt32) : List UInt8 := Wire.encode (reply xid .offer)

def ack (xid leaseSecs : UInt32) : List UInt8 :=
  Wire.encode ((reply xid .ack).withOption (.addressLeaseTime leaseSecs))

/-- What the client reads out of such an ACK. -/
def lease (leaseSecs : UInt32) : DhcpAck :=
  ⟨Ipv4Addr.new 10 0 2 15, defaultSubnetMask, none, none, leaseSecs, []⟩

/-- An event at a full second. -/
def event (secs : Nat) (input : Input) (xid : UInt32) : Event :=
  ⟨Duration.fromSecs secs, input, xid, Jitter.zero⟩

/-- A negotiation, up to the kernel's answer. -/
def negotiation (secs : Nat) (xid leaseSecs : UInt32) : List Event :=
  [event secs (.packet (offer xid)) 0, event secs (.packet (ack xid leaseSecs)) 0]

/-- The kernel does not take the address. -/
def refusing : Netlink := { Netlink.working with addAddress := fun _ _ _ => .error "Invalid argument" }

example : parseAckNak Wire.dhcproto (ack 7 60) 7 = .ack (lease 60) := by decide +kernel

end Uplink

end RustyRouter.Wan
