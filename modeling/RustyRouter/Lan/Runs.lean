import RustyRouter.Lan.Server
import RustyRouter.Net.Frame

/-! What one message can do, and the server's runs.

`Change` lists what handling a message can do to the lease table, each case with the
facts that hold in it, and `Answer` lists the frames a message can be answered with.
`server` handles one message after another, at clock readings that do not go back. -/
namespace RustyRouter.Lan
open Transition

section Messages
variable (dhcproto : Dhcproto) (config : ServerConfig) (now : Nat) (dhcp : Message) (mac : MacAddr)
  (t : LeaseTable)

/-! ### The messages that change an entry -/

/-- A DISCOVER. -/
def Discovers : Prop := dhcp.messageType = some .discover

/-- A REQUEST for `ip` that the server grants. -/
def Grants (ip : Ipv4Addr) : Prop :=
  dhcp.messageType = some .request ∧ requestedIp dhcp mac t = some ip ∧
    validateRequestedIp now ip mac config t = true

/-- A DECLINE or a RELEASE. -/
def Removes : Prop := dhcp.messageType = some .decline ∨ dhcp.messageType = some .release

variable {config now dhcp mac t}

/-- What the check admits: an address inside the network, other than the server's, on
which every other MAC's lease has run out. -/
theorem validateRequestedIp_iff {ip : Ipv4Addr} :
    validateRequestedIp now ip mac config t = true ↔
      ip ≠ config.serverIp ∧ config.net.contains ip = true ∧
        ∀ other lease, t.get other = some lease → lease.ip = ip → other ≠ mac → lease.expiry ≤ now := by
  rw [← LeaseTable.isIpTakenByOther_eq_false]
  unfold validateRequestedIp
  split
  · rename_i hout
    refine ⟨fun h => absurd h (by decide), fun h => ?_⟩
    simp [h.1, h.2.1] at hout
  · rename_i hin
    simp only [Bool.or_eq_true, beq_iff_eq, Bool.not_eq_true', not_or, Bool.not_eq_false] at hin
    simp [hin.1, hin.2]

/-- A granted address is inside the network, is not the server's, and every other MAC's
lease on it has run out. -/
theorem Grants.valid {ip : Ipv4Addr} (h : Grants config now dhcp mac t ip) :
    ip ≠ config.serverIp ∧ config.net.contains ip = true ∧
      ∀ other lease, t.get other = some lease → lease.ip = ip → other ≠ mac → lease.expiry ≤ now :=
  validateRequestedIp_iff.mp h.2.2

variable (config now dhcp mac t)

/-! ### What a message does to the table -/

/-- The lease table after a message. -/
inductive Change : LeaseTable → Prop where
  /-- A re-offer, a refusal, or a message of no interest. -/
  | kept (hgrant : ∀ ip, ¬ Grants config now dhcp mac t ip) (hremove : ¬ Removes dhcp) : Change t
  /-- A DISCOVER of a new client that finds the pool exhausted. -/
  | exhausted (hdisc : Discovers dhcp) (hnew : t.get mac = none) : Change (t.evictExpired now)
  /-- A DISCOVER of a new client. -/
  | allocated (ip : Ipv4Addr) (hdisc : Discovers dhcp) (hnew : t.get mac = none)
      (hhost : ip ∈ config.net.hosts) (hserver : ip ≠ config.serverIp)
      (hfree : ∀ other lease, (t.evictExpired now).get other = some lease → lease.ip ≠ ip) :
      Change ((t.evictExpired now).insert mac ⟨ip, now + lanLease⟩)
  | granted (ip : Ipv4Addr) (hgrant : Grants config now dhcp mac t ip) :
      Change (t.insert mac ⟨ip, now + lanLease⟩)
  | removed (hremove : Removes dhcp) : Change (t.remove mac).1

variable {config now dhcp mac t}

theorem Discovers.not_grants (h : Discovers dhcp) (ip : Ipv4Addr) : ¬ Grants config now dhcp mac t ip :=
  fun hg => absurd (h.symm.trans hg.1) (by decide)

theorem not_removes_of_messageType {mtype : MessageType} (h : dhcp.messageType = some mtype)
    (hdec : mtype ≠ .decline) (hrel : mtype ≠ .release) : ¬ Removes dhcp := by
  intro hr
  rcases hr with hr | hr
  · exact hdec (Option.some.inj (h.symm.trans hr))
  · exact hrel (Option.some.inj (h.symm.trans hr))

theorem Discovers.not_removes (h : Discovers dhcp) : ¬ Removes dhcp :=
  not_removes_of_messageType h (by decide) (by decide)

theorem Grants.not_removes {ip : Ipv4Addr} (h : Grants config now dhcp mac t ip) : ¬ Removes dhcp :=
  not_removes_of_messageType h.1 (by decide) (by decide)

theorem discover_change (hdisc : Discovers dhcp) :
    Change config now dhcp mac t (handleDhcpDiscover dhcproto config now dhcp mac t).1 := by
  unfold handleDhcpDiscover
  cases hget : t.get mac with
  | some existing => exact .kept hdisc.not_grants hdisc.not_removes
  | none =>
    cases hnext : (t.nextAvailableIp now config.net config.serverIp).2 with
    | none =>
      have heq : t.nextAvailableIp now config.net config.serverIp = (t.evictExpired now, none) :=
        Prod.ext LeaseTable.nextAvailableIp_fst hnext
      rw [heq]
      exact .exhausted hdisc hget
    | some ip =>
      have heq : t.nextAvailableIp now config.net config.serverIp = (t.evictExpired now, some ip) :=
        Prod.ext LeaseTable.nextAvailableIp_fst hnext
      obtain ⟨hhost, hserver, hfree⟩ := LeaseTable.nextAvailableIp_spec hnext
      rw [heq]
      exact .allocated ip hdisc hget hhost hserver hfree

theorem request_change (hreq : dhcp.messageType = some .request) :
    Change config now dhcp mac t (handleDhcpRequest dhcproto config now dhcp mac t).1 := by
  have hremove : ¬ Removes dhcp := not_removes_of_messageType hreq (by decide) (by decide)
  unfold handleDhcpRequest
  cases hip : requestedIp dhcp mac t with
  | none =>
    refine .kept (fun ip hg => ?_) hremove
    have := hip.symm.trans hg.2.1
    simp at this
  | some ip =>
    by_cases hval : validateRequestedIp now ip mac config t = true
    · simp only [hval, if_true]
      exact .granted ip ⟨hreq, hip, hval⟩
    · simp only [hval]
      refine .kept (fun ip' hg => ?_) hremove
      obtain rfl : ip = ip' := Option.some.inj (hip.symm.trans hg.2.1)
      exact hval hg.2.2

/-- The dispatch, by the kind of message. -/
theorem dispatch_discover (h : Discovers dhcp) :
    dispatch dhcproto config now dhcp mac t = handleDhcpDiscover dhcproto config now dhcp mac t := by
  simp only [dispatch, show dhcp.messageType = some .discover from h]

theorem dispatch_request (h : dhcp.messageType = some .request) :
    dispatch dhcproto config now dhcp mac t = handleDhcpRequest dhcproto config now dhcp mac t := by
  simp only [dispatch, h]

/-- A granted REQUEST is stored and ACKed. -/
theorem dispatch_grants {ip : Ipv4Addr} (h : Grants config now dhcp mac t ip) :
    dispatch dhcproto config now dhcp mac t =
      (t.insert mac ⟨ip, now + lanLease⟩, sendDhcpReply dhcproto config .ack dhcp mac ip) := by
  obtain ⟨hreq, hip, hval⟩ := h
  simp only [dispatch_request dhcproto hreq, handleDhcpRequest, hip, hval, if_true]

/-- The client of an entry is re-offered its address, whenever the entry runs out. -/
theorem dispatch_reoffers {existing : ClientLease} (h : Discovers dhcp) (hget : t.get mac = some existing) :
    dispatch dhcproto config now dhcp mac t =
      (t, sendDhcpReply dhcproto config .offer dhcp mac existing.ip) := by
  simp only [dispatch_discover dhcproto h, handleDhcpDiscover, hget]

theorem dispatch_removes (h : Removes dhcp) :
    dispatch dhcproto config now dhcp mac t = ((t.remove mac).1, none) := by
  rcases h with h | h
  · simp only [dispatch, h, handleDhcpDecline]
  · simp only [dispatch, h, handleDhcpRelease]

theorem dispatch_other (hdisc : ¬ Discovers dhcp) (hreq : dhcp.messageType ≠ some .request)
    (hremove : ¬ Removes dhcp) : dispatch dhcproto config now dhcp mac t = (t, none) := by
  unfold dispatch
  split
  · rename_i h
    exact absurd h hdisc
  · rename_i h
    exact absurd h hreq
  · rename_i h
    exact absurd (.inl h) hremove
  · rename_i h
    exact absurd (.inr h) hremove
  · rfl

/-- **What one message can do to the table.** -/
theorem dispatch_change :
    Change config now dhcp mac t (dispatch dhcproto config now dhcp mac t).1 := by
  by_cases hdisc : Discovers dhcp
  · rw [dispatch_discover dhcproto hdisc]
    exact discover_change dhcproto hdisc
  · by_cases hreq : dhcp.messageType = some .request
    · rw [dispatch_request dhcproto hreq]
      exact request_change dhcproto hreq
    · by_cases hremove : Removes dhcp
      · rw [dispatch_removes dhcproto hremove]
        exact .removed hremove
      · rw [dispatch_other dhcproto hdisc hreq hremove]
        exact .kept (fun ip hg => hreq hg.1) hremove

/-! ### What a message is answered with -/

@[simp] theorem dhcpReply_messageType (msgType : MessageType) (ip : Ipv4Addr) :
    (dhcpReply msgType dhcp ip config).messageType = some msgType := rfl

@[simp] theorem dhcpReply_yiaddr (msgType : MessageType) (ip : Ipv4Addr) :
    (dhcpReply msgType dhcp ip config).yiaddr = ip := rfl

@[simp] theorem dhcpNak_messageType : (dhcpNak dhcp config).messageType = some .nak := rfl

theorem sendDhcpReply_message {msgType : MessageType} {ip : Ipv4Addr} {sent : Sent}
    (h : sendDhcpReply dhcproto config msgType dhcp mac ip = some sent) :
    sent.message = dhcpReply msgType dhcp ip config := by
  unfold sendDhcpReply at h
  split at h
  · exact absurd h (by simp)
  · rw [← Option.some.inj h]

theorem sendDhcpNak_message {sent : Sent} (h : sendDhcpNak dhcproto dhcp mac config = some sent) :
    sent.message = dhcpNak dhcp config := by
  unfold sendDhcpNak at h
  split at h
  · exact absurd h (by simp)
  · rw [← Option.some.inj h]

/-- A crate that encodes every message sends every reply. -/
theorem sendDhcpReply_of_encodes (henc : dhcproto.Encodes) (msgType : MessageType) (ip : Ipv4Addr) :
    ∃ sent, sendDhcpReply dhcproto config msgType dhcp mac ip = some sent ∧
      sent.message = dhcpReply msgType dhcp ip config := by
  obtain ⟨payload, hpayload⟩ := henc (dhcpReply msgType dhcp ip config)
  simp [sendDhcpReply, buildDhcpReplyPayload, hpayload]

variable (config now dhcp mac t)

/-- The message a frame carries, and the table it leaves behind. -/
inductive Answer : LeaseTable → Message → Prop where
  | reoffered (existing : ClientLease) (hdisc : Discovers dhcp) (hget : t.get mac = some existing) :
      Answer t (dhcpReply .offer dhcp existing.ip config)
  | offered (ip : Ipv4Addr) (hdisc : Discovers dhcp) (hnew : t.get mac = none)
      (hhost : ip ∈ config.net.hosts) (hserver : ip ≠ config.serverIp)
      (hfree : ∀ other lease, (t.evictExpired now).get other = some lease → lease.ip ≠ ip) :
      Answer ((t.evictExpired now).insert mac ⟨ip, now + lanLease⟩) (dhcpReply .offer dhcp ip config)
  | acked (ip : Ipv4Addr) (hgrant : Grants config now dhcp mac t ip) :
      Answer (t.insert mac ⟨ip, now + lanLease⟩) (dhcpReply .ack dhcp ip config)
  | refused (hreq : dhcp.messageType = some .request) : Answer t (dhcpNak dhcp config)

variable {config now dhcp mac t}

theorem discover_answer (hdisc : Discovers dhcp) {sent : Sent}
    (h : (handleDhcpDiscover dhcproto config now dhcp mac t).2 = some sent) :
    Answer config now dhcp mac t (handleDhcpDiscover dhcproto config now dhcp mac t).1 sent.message := by
  unfold handleDhcpDiscover at h ⊢
  cases hget : t.get mac with
  | some existing =>
    simp only [hget] at h ⊢
    rw [sendDhcpReply_message dhcproto h]
    exact .reoffered existing hdisc hget
  | none =>
    simp only [hget] at h ⊢
    cases hnext : (t.nextAvailableIp now config.net config.serverIp).2 with
    | none =>
      have heq : t.nextAvailableIp now config.net config.serverIp = (t.evictExpired now, none) :=
        Prod.ext LeaseTable.nextAvailableIp_fst hnext
      rw [heq] at h
      exact absurd h (by simp)
    | some ip =>
      have heq : t.nextAvailableIp now config.net config.serverIp = (t.evictExpired now, some ip) :=
        Prod.ext LeaseTable.nextAvailableIp_fst hnext
      obtain ⟨hhost, hserver, hfree⟩ := LeaseTable.nextAvailableIp_spec hnext
      rw [heq] at h ⊢
      rw [sendDhcpReply_message dhcproto h]
      exact .offered ip hdisc hget hhost hserver hfree

theorem request_answer (hreq : dhcp.messageType = some .request) {sent : Sent}
    (h : (handleDhcpRequest dhcproto config now dhcp mac t).2 = some sent) :
    Answer config now dhcp mac t (handleDhcpRequest dhcproto config now dhcp mac t).1 sent.message := by
  unfold handleDhcpRequest at h ⊢
  cases hip : requestedIp dhcp mac t with
  | none =>
    simp only [hip] at h
    exact absurd h (by simp)
  | some ip =>
    simp only [hip] at h ⊢
    by_cases hval : validateRequestedIp now ip mac config t = true
    · simp only [hval, if_true] at h ⊢
      rw [sendDhcpReply_message dhcproto h]
      exact .acked ip ⟨hreq, hip, hval⟩
    · simp only [hval] at h ⊢
      rw [sendDhcpNak_message dhcproto h]
      exact .refused hreq

/-- **What a message can be answered with.** -/
theorem dispatch_answer {sent : Sent} (h : (dispatch dhcproto config now dhcp mac t).2 = some sent) :
    Answer config now dhcp mac t (dispatch dhcproto config now dhcp mac t).1 sent.message := by
  by_cases hdisc : Discovers dhcp
  · rw [dispatch_discover dhcproto hdisc] at h ⊢
    exact discover_answer dhcproto hdisc h
  · by_cases hreq : dhcp.messageType = some .request
    · rw [dispatch_request dhcproto hreq] at h ⊢
      exact request_answer dhcproto hreq h
    · by_cases hremove : Removes dhcp
      · rw [dispatch_removes dhcproto hremove] at h
        exact absurd h (by simp)
      · rw [dispatch_other dhcproto hdisc hreq hremove] at h
        exact absurd h (by simp)

end Messages

/-! ### Runs -/

/-- A message from a client, as it reaches the dispatch. -/
structure Received where
  now : Nat
  clientMac : MacAddr
  dhcp : Message

/-- The table, and the clock reading the last message was handled at. -/
structure ServerState where
  leases : LeaseTable
  clock : Nat

/-- The table a fresh server starts with. -/
def ServerState.initial : ServerState := ⟨LeaseTable.new, 0⟩

/-- What handling `e` in state `s` returns. -/
def ServerState.handle (dhcproto : Dhcproto) (config : ServerConfig) (s : ServerState) (e : Received) :
    LeaseTable × Option Sent :=
  dispatch dhcproto config e.now e.dhcp e.clientMac s.leases

/-- The server handles any messages at clock readings that do not go back. -/
def server (dhcproto : Dhcproto) (config : ServerConfig) : System ServerState Received where
  step s e := if s.clock ≤ e.now then some ⟨(s.handle dhcproto config e).1, e.now⟩ else none

variable (dhcproto : Dhcproto) {config : ServerConfig}

theorem server_step_eq_some {s s' : ServerState} {e : Received} :
    (server dhcproto config).step s e = some s' ↔
      s.clock ≤ e.now ∧ s' = ⟨(s.handle dhcproto config e).1, e.now⟩ := by
  simp only [server, Option.ite_none_right_eq_some, Option.some.injEq]
  exact and_congr_right fun _ => eq_comm

theorem server_handles (config : ServerConfig) {s : ServerState} {e : Received} (h : s.clock ≤ e.now) :
    (server dhcproto config).step s e = some ⟨(s.handle dhcproto config e).1, e.now⟩ :=
  (server_step_eq_some dhcproto).mpr ⟨h, rfl⟩

/-- One step of the server: time goes on and the table changes as the message says. -/
theorem server_step {s s' : ServerState} {e : Received}
    (h : (server dhcproto config).step s e = some s') :
    s.clock ≤ e.now ∧ s'.clock = e.now ∧
      Change config e.now e.dhcp e.clientMac s.leases s'.leases := by
  obtain ⟨hle, rfl⟩ := (server_step_eq_some dhcproto).mp h
  exact ⟨hle, rfl, dispatch_change dhcproto⟩

/-! ### A small network

A /30 with one free host and two clients, to run the server on. -/

namespace Small

def net : Ipv4Net := Ipv4Net.ofBlock (Ipv4Addr.new 192 168 1 1) 30

def router : ServerConfig :=
  .ofNet net ⟨2, 0, 0, 0, 0, 1⟩

def host : Ipv4Addr := Ipv4Addr.new 192 168 1 2

def client : MacAddr := ⟨2, 0, 0, 0, 0, 7⟩

def other : MacAddr := ⟨2, 0, 0, 0, 0, 8⟩

def message (mac : MacAddr) (mtype : MessageType) : Message :=
  (Message.default.setChaddr mac.octets mac.octets_length_le).withOption (.messageType mtype)

def discover (secs : Nat) (mac : MacAddr) : Received :=
  ⟨Duration.fromSecs secs, mac, message mac .discover⟩

def request (secs : Nat) (mac : MacAddr) (ip : Ipv4Addr) : Received :=
  ⟨Duration.fromSecs secs, mac, (message mac .request).withOption (.requestedIpAddress ip)⟩

def release (secs : Nat) (mac : MacAddr) : Received :=
  ⟨Duration.fromSecs secs, mac, message mac .release⟩

/-- The only host is leased to one client and, when that lease has run out, to another. -/
def contested : List Received := [discover 0 client, request 3600 other host]

theorem net_documented : net.Documented := Ipv4Net.ofBlock_documented _ (by decide)

end Small

end RustyRouter.Lan
