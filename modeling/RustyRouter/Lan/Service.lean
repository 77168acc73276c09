import RustyRouter.Lan.Isolation

/-! The LAN DHCP server as a task.

`start_dhcp_server` opens a raw socket, serves frames until a read fails, and opens another
one; the lease table is kept over all of it. So the table is that of the message handlers
alone, run once over the messages of all frames, whatever becomes of the sockets in
between, and leases stay exclusive (`service_handles`). -/
namespace RustyRouter.Lan
open Transition

/-! ### Opening the socket -/

/-- An attribute of a link, as far as anybody looks at it. -/
inductive LinkAttribute where
  | address (bytes : List UInt8)
  | other

/-- The kernel's answers while a server socket is set up. -/
structure SetupAnswers where
  newConnection : Except String Unit
  link : Except String (Option (List LinkAttribute))
  openRawSocket : Except String Unit
  asyncFd : Except String Unit

/-- The first hardware address of six bytes. -/
def getInterfaceMac (answers : SetupAnswers) (ifname : String) : Except String MacAddr :=
  match answers.newConnection with
  | .error e => .error ("Failed to open netlink connection: " ++ e)
  | .ok _ =>
    match answers.link with
    | .error e => .error ("Netlink request failed: " ++ e)
    | .ok none => .error ("Interface " ++ ifname ++ " not found")
    | .ok (some attributes) =>
      let mac := attributes.findSome? fun attr =>
        match attr with
        | .address bytes => MacAddr.tryFrom bytes
        | .other => none
      match mac with
      | some mac => .ok mac
      | none => .error ("No hardware address attribute found for interface " ++ ifname)

inductive ServerError where
  | macAddress (e : String)
  | rawSocket (e : String)
  | asyncSocket (e : String)
  deriving DecidableEq, Repr

def setupServerSocket (answers : SetupAnswers) (lanInterface : String) : Except ServerError MacAddr := do
  let mac ← (getInterfaceMac answers lanInterface).mapError .macAddress
  answers.openRawSocket.mapError .rawSocket
  answers.asyncFd.mapError .asyncSocket
  return mac

/-! ### The task -/

def serverRestartDelaySecs : Nat := 5

inductive ServerSocket where
  /-- Asleep until the next attempt. -/
  | down (wakeAt : Nat)
  /-- Of an interface with this MAC. -/
  | up (mac : MacAddr)

structure ServiceState where
  clock : Nat
  socket : ServerSocket
  leases : LeaseTable
  /-- Every frame handed to `send_raw_packet`. -/
  sent : List Sent

def ServiceState.initial : ServiceState := ⟨0, .down 0, .new, []⟩

inductive ServiceEvent where
  | setup (now : Nat) (answers : SetupAnswers)
  | frame (f : Frame)
  | readError (now : Nat) (e : String)

/-- What the task does when `start_dhcp_server` has accepted its setting. A frame that panics
ends it. -/
def service (pnet : Pnet) (dhcproto : Dhcproto) (lanInterface : String) (net : Ipv4Net) :
    System ServiceState ServiceEvent where
  step s e :=
    match s.socket, e with
    | .down wakeAt, .setup now answers =>
      if s.clock ≤ now ∧ wakeAt ≤ now then
        match setupServerSocket answers lanInterface with
        | .error _ => some { s with clock := now, socket := .down (now + Duration.fromSecs serverRestartDelaySecs) }
        | .ok mac => some { s with clock := now, socket := .up mac }
      else none
    | .up mac, .frame f =>
      if s.clock ≤ f.now then
        match f.process pnet dhcproto (.ofNet net mac) s.leases with
        | .error _ => none
        | .ok (leases, answer) => some { s with clock := f.now, leases := leases, sent := s.sent ++ answer.toList }
      else none
    | .up _, .readError now _ =>
      if s.clock ≤ now then
        some { s with clock := now, socket := .down (now + Duration.fromSecs serverRestartDelaySecs) }
      else none
    | _, _ => none

variable {pnet : Pnet} {dhcproto : Dhcproto} {lanInterface : String} {net : Ipv4Net} {s t : ServiceState}
  {e : ServiceEvent} {es : List ServiceEvent}

/-- The message that a frame brings to the handlers, if any. -/
def Frame.received (pnet : Pnet) (dhcproto : Dhcproto) (f : Frame) : Option Received := do
  let dhcp ← parseDhcpPayload pnet dhcproto f.bytes serverPort
  let mac ← MacAddr.tryFrom dhcp.chaddr
  let eth ← pnet.ethernet f.bytes
  if dhcp.opcode = .bootRequest ∧ (dhcp.giaddr.isUnspecified = true → eth.source = mac) then
    some ⟨f.now, mac, dhcp⟩
  else none

def ServiceEvent.received (pnet : Pnet) (dhcproto : Dhcproto) : ServiceEvent → Option Received
  | .frame f => f.received pnet dhcproto
  | _ => none

/-- A frame that is handled brings its message to the handlers, and does nothing else. -/
theorem process_received {f : Frame} {config : ServerConfig} {leases leases' : LeaseTable} {answer : Option Sent}
    (h : f.process pnet dhcproto config leases = .ok (leases', answer)) :
    (f.received pnet dhcproto = none ∧ leases' = leases ∧ answer = none) ∨
      ∃ dhcp mac, f.received pnet dhcproto = some ⟨f.now, mac, dhcp⟩ ∧
        dispatch dhcproto config f.now dhcp mac leases = (leases', answer) := by
  unfold Frame.process at h
  have hframe : frameOf f.bytesRead f.buf = f.bytes := rfl
  unfold Frame.received
  cases hparse : parseDhcpPayload pnet dhcproto f.bytes serverPort with
  | none =>
    rw [process_dropped f.fits fun dhcp hsome => by rw [hframe, hparse] at hsome; cases hsome] at h
    cases h
    exact .inl ⟨rfl, rfl, rfl⟩
  | some dhcp =>
    by_cases hop : dhcp.opcode = .bootRequest
    · by_cases hlen : dhcp.hlen.toNat ≤ 16
      · rw [process_of_parse f.fits hparse hop, sliceTo_chaddr hlen] at h
        simp only [bind, Except.bind, pure, Except.pure, hframe] at h
        simp only [bind, Option.bind, hop, true_and]
        cases hmac : MacAddr.tryFrom dhcp.chaddr with
        | none =>
          simp only [hmac] at h
          cases h
          exact .inl ⟨rfl, rfl, rfl⟩
        | some mac =>
          cases heth : pnet.ethernet f.bytes with
          | none =>
            simp only [hmac, heth] at h
            cases h
            exact .inl ⟨rfl, rfl, rfl⟩
          | some eth =>
            simp only [hmac, heth] at h
            by_cases hspoof : dhcp.giaddr.isUnspecified = true → eth.source = mac
            · rw [if_neg (by simpa using hspoof)] at h
              exact .inr ⟨dhcp, mac, if_pos hspoof, Except.ok.inj h⟩
            · rw [if_pos (by simpa using hspoof)] at h
              cases h
              exact .inl ⟨if_neg hspoof, rfl, rfl⟩
      · rw [panics_of_lt_hlen f.fits hparse hop (Nat.not_le.mp hlen)] at h
        cases h
    · rw [process_dropped f.fits fun dhcp' hsome => by
        rw [hframe, hparse] at hsome
        rwa [← Option.some.inj hsome]] at h
      cases h
      refine .inl ⟨?_, rfl, rfl⟩
      simp only [bind, Option.bind, hop, false_and, if_false]
      cases MacAddr.tryFrom dhcp.chaddr with
      | none => rfl
      | some mac => cases pnet.ethernet f.bytes <;> rfl

/-! ### The table -/

/-- What becomes of the table does not depend on the server's MAC. -/
theorem dispatch_leases (dhcproto : Dhcproto) (net : Ipv4Net) (mac mac' : MacAddr) (now : Nat) (dhcp : Message)
    (client : MacAddr) (leases : LeaseTable) :
    (dispatch dhcproto (.ofNet net mac) now dhcp client leases).1 =
      (dispatch dhcproto (.ofNet net mac') now dhcp client leases).1 := by
  have hdiscover : (handleDhcpDiscover dhcproto (.ofNet net mac) now dhcp client leases).1 =
      (handleDhcpDiscover dhcproto (.ofNet net mac') now dhcp client leases).1 := by
    unfold handleDhcpDiscover
    cases leases.get client with
    | some existing => rfl
    | none =>
      simp only [ServerConfig.ofNet]
      cases leases.nextAvailableIp now net net.addr with
      | mk evicted found => cases found <;> rfl
  have hrequest : (handleDhcpRequest dhcproto (.ofNet net mac) now dhcp client leases).1 =
      (handleDhcpRequest dhcproto (.ofNet net mac') now dhcp client leases).1 := by
    unfold handleDhcpRequest
    cases requestedIp dhcp client leases with
    | none => rfl
    | some ip =>
      have hvalid : validateRequestedIp now ip client (.ofNet net mac) leases =
          validateRequestedIp now ip client (.ofNet net mac') leases := rfl
      simp only [hvalid]
      split <;> rfl
  unfold dispatch
  split
  · exact hdiscover
  · exact hrequest
  · rfl
  · rfl
  · rfl

/-- What one event does. -/
theorem service_step (h : (service pnet dhcproto lanInterface net).step s e = some t) :
    s.clock ≤ t.clock ∧
      ((e.received pnet dhcproto = none ∧ t.leases = s.leases ∧ t.sent = s.sent) ∨
        ∃ mac dhcp client answer, s.socket = .up mac ∧ e.received pnet dhcproto = some ⟨t.clock, client, dhcp⟩ ∧
          dispatch dhcproto (.ofNet net mac) t.clock dhcp client s.leases = (t.leases, answer) ∧
          t.sent = s.sent ++ answer.toList) := by
  obtain ⟨clock, socket, leases, sent⟩ := s
  cases socket with
  | down wakeAt =>
    cases e with
    | setup now answers =>
      simp only [service, Option.ite_none_right_eq_some] at h
      obtain ⟨⟨hle, -⟩, h⟩ := h
      split at h
      · rw [← Option.some.inj h]
        exact ⟨hle, .inl ⟨rfl, rfl, rfl⟩⟩
      · rw [← Option.some.inj h]
        exact ⟨hle, .inl ⟨rfl, rfl, rfl⟩⟩
    | frame => simp [service] at h
    | readError => simp [service] at h
  | up mac =>
    cases e with
    | setup => simp [service] at h
    | frame f =>
      simp only [service, Option.ite_none_right_eq_some] at h
      obtain ⟨hle, h⟩ := h
      split at h
      · simp at h
      · rename_i leases' answer hprocess
        rw [← Option.some.inj h]
        refine ⟨hle, ?_⟩
        rcases process_received hprocess with ⟨hnone, hleases, hanswer⟩ | ⟨dhcp, client, hsome, hdispatch⟩
        · exact .inl ⟨hnone, hleases, by simp [hanswer]⟩
        · exact .inr ⟨mac, dhcp, client, answer, rfl, hsome, hdispatch, rfl⟩
    | readError now text =>
      simp only [service, Option.ite_none_right_eq_some] at h
      obtain ⟨hle, h⟩ := h
      rw [← Option.some.inj h]
      exact ⟨hle, .inl ⟨rfl, rfl, rfl⟩⟩

/-- The table is that of the handlers alone, run over the messages of all frames. -/
theorem service_table (serverMac : MacAddr) (h : (service pnet dhcproto lanInterface net).run .initial es = some s) :
    ∃ clock ≤ s.clock, (server dhcproto (.ofNet net serverMac)).run .initial
      (es.filterMap (ServiceEvent.received pnet dhcproto)) = some ⟨s.leases, clock⟩ := by
  apply (service pnet dhcproto lanInterface net).run_history (I := fun es s => ∃ clock ≤ s.clock,
    (server dhcproto (.ofNet net serverMac)).run .initial (es.filterMap (ServiceEvent.received pnet dhcproto)) =
      some ⟨s.leases, clock⟩) ⟨0, Nat.le_refl 0, rfl⟩ _ h
  intro es s e t _ ⟨clock, hclock, hrun⟩ hstep
  rw [List.filterMap_append]
  obtain ⟨hle, ⟨hnone, hleases, -⟩ | ⟨mac, dhcp, client, answer, -, hsome, hdispatch, -⟩⟩ := service_step hstep
  · refine ⟨clock, hclock.trans hle, ?_⟩
    simpa [List.filterMap, hnone, hleases] using hrun
  · refine ⟨t.clock, Nat.le_refl _, ?_⟩
    have hlast : [e].filterMap (ServiceEvent.received pnet dhcproto) = [⟨t.clock, client, dhcp⟩] := by
      simp [List.filterMap, hsome]
    rw [hlast]
    apply System.run_snoc _ hrun
    rw [server_handles dhcproto _ (hclock.trans hle), ServerState.handle,
      dispatch_leases dhcproto net serverMac mac, hdispatch]

/-- **Leases outlive the sockets.** The table is that of the handlers alone, whatever has
become of the sockets in between, so that no address has two clients at any time. -/
theorem service_handles (serverMac : MacAddr) (h : (service pnet dhcproto lanInterface net).run .initial es = some s) :
    (∃ clock ≤ s.clock, (server dhcproto (.ofNet net serverMac)).run .initial
      (es.filterMap (ServiceEvent.received pnet dhcproto)) = some ⟨s.leases, clock⟩) ∧
    ∀ later, s.clock ≤ later → s.leases.Exclusive later := by
  obtain ⟨clock, hclock, hrun⟩ := service_table serverMac h
  exact ⟨⟨clock, hclock, hrun⟩, fun later hle => reachable_exclusive hrun (hclock.trans hle)⟩

/-! ### On the small network -/

namespace Small

/-- Everything works, and the card has this MAC. -/
def linkUp (mac : MacAddr) : SetupAnswers := ⟨.ok (), .ok (some [.other, .address mac.octets]), .ok (), .ok ()⟩

theorem discover_fits : (broadcastFrame (message client .discover)).length ≤ 2048 := by decide +kernel

def discoverFrame (secs : Nat) : Frame :=
  ⟨Duration.fromSecs secs, _, bufferOf (broadcastFrame (message client .discover)) discover_fits, discover_fits⟩

/-- The socket fails between two DISCOVERs of the client, and comes back on another card. -/
def reconnect : List ServiceEvent :=
  [.setup 0 (linkUp router.serverMac), .frame (discoverFrame 0), .readError 1 "EIO",
    .setup (Duration.fromSecs 6) (linkUp other), .frame (discoverFrame 7)]

/-- Both are answered, from one card each, and the client has its first lease still. -/
theorem reconnect_run : ∃ s, (service Wire.pnet Wire.dhcproto "lan0" Small.net).run .initial reconnect = some s ∧
    s.clock = Duration.fromSecs 7 ∧ s.leases.get client = some ⟨host, lanLease⟩ ∧
    s.sent.map (fun sent => sent.packet.srcMac) = [router.serverMac, other] := by
  have hrun : ((service Wire.pnet Wire.dhcproto "lan0" Small.net).run .initial reconnect).any (fun s =>
      decide (s.clock = Duration.fromSecs 7) && decide (s.leases.get client = some ⟨host, lanLease⟩) &&
        decide (s.sent.map (fun sent => sent.packet.srcMac) = [router.serverMac, other])) = true := by
    decide +kernel
  obtain ⟨s, hs, heq⟩ := Option.any_eq_true _ _ |>.mp hrun
  simp only [Bool.and_eq_true, decide_eq_true_eq, and_assoc] at heq
  exact ⟨s, hs, heq⟩

end Small

/-- On the small network, across two sockets. -/
theorem service_handles_small : ∃ s : ServiceState, s.leases.get Small.client = some ⟨Small.host, lanLease⟩ ∧
    s.leases.Exclusive s.clock := by
  obtain ⟨s, hrun, -, hlease, -⟩ := Small.reconnect_run
  exact ⟨s, hlease, (service_handles Small.other hrun).2 s.clock (Nat.le_refl _)⟩

end RustyRouter.Lan
