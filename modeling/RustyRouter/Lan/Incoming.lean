import RustyRouter.Lan.Runs

/-! From a raw frame to a handler.

`processIncomingPacket` takes whatever the raw socket delivered. Its slices are the only
steps that can panic: the one that cuts the frame out of the buffer, and the one that
cuts the client's MAC out of `chaddr()` at the length the header claims. `chaddr()` has at
most sixteen bytes, so the server survives a frame precisely when the frame is not a
BOOTREQUEST that claims more (`completes_iff`). -/
namespace RustyRouter.Lan
open Transition

/-- Out-of-range slicing, with the two numbers of the panic message. -/
inductive Panic where
  | rangeEnd (stop len : Nat)
  deriving DecidableEq, Repr

/-- `&xs[..stop]` -/
def sliceTo {α : Type} (xs : List α) (stop : Nat) : Except Panic (List α) :=
  if stop ≤ xs.length then .ok (xs.take stop) else .error (.rangeEnd stop xs.length)

def processIncomingPacket (pnet : Pnet) (dhcproto : Dhcproto) (config : ServerConfig) (now : Nat)
    (bytesRead : Nat) (buf : Vector UInt8 2048) (leases : LeaseTable) :
    Except Panic (LeaseTable × Option Sent) := do
  let frame ← sliceTo buf.toList bytesRead
  match parseDhcpPayload pnet dhcproto frame serverPort with
  | none => return (leases, none)
  | some dhcp =>
    if dhcp.opcode ≠ .bootRequest then return (leases, none)
    else
      match MacAddr.tryFrom (← sliceTo dhcp.chaddr dhcp.hlen.toNat) with
      | none => return (leases, none)
      | some clientMac =>
        match pnet.ethernet (← sliceTo buf.toList bytesRead) with
        | none => return (leases, none)
        | some eth =>
          -- the server-side anti-spoofing check
          if dhcp.giaddr.isUnspecified && eth.source != clientMac then return (leases, none)
          else return dispatch dhcproto config now dhcp clientMac leases

/-! ### Slices -/

theorem sliceTo_of_le {α : Type} {xs : List α} {stop : Nat} (h : stop ≤ xs.length) :
    sliceTo xs stop = .ok (xs.take stop) := if_pos h

theorem sliceTo_of_lt {α : Type} {xs : List α} {stop : Nat} (h : xs.length < stop) :
    sliceTo xs stop = .error (.rangeEnd stop xs.length) := if_neg (Nat.not_le.mpr h)

/-- The client's MAC can be cut out when the claimed length is at most sixteen. -/
theorem sliceTo_chaddr {dhcp : Message} (h : dhcp.hlen.toNat ≤ 16) :
    sliceTo dhcp.chaddr dhcp.hlen.toNat = .ok dhcp.chaddr := by
  have hlen : dhcp.chaddr.length = dhcp.hlen.toNat := by
    rw [Message.chaddr_length]
    exact Nat.min_eq_left h
  rw [sliceTo_of_le (Nat.le_of_eq hlen.symm), ← hlen, List.take_length]

theorem sliceTo_chaddr_panics {dhcp : Message} (h : 16 < dhcp.hlen.toNat) :
    sliceTo dhcp.chaddr dhcp.hlen.toNat = .error (.rangeEnd dhcp.hlen.toNat 16) := by
  have hlen : dhcp.chaddr.length = 16 := by
    rw [Message.chaddr_length]
    exact Nat.min_eq_right (Nat.le_of_lt h)
  rw [sliceTo_of_lt (by omega), hlen]

/-! ### What becomes of a frame -/

/-- One of the four handlers was run, for a client of this MAC. -/
inductive Handled (dhcproto : Dhcproto) (config : ServerConfig) (now : Nat) (dhcp : Message)
    (mac : MacAddr) (t : LeaseTable) : LeaseTable × Option Sent → Prop where
  | discover (h : dhcp.messageType = some .discover) :
      Handled dhcproto config now dhcp mac t (handleDhcpDiscover dhcproto config now dhcp mac t)
  | request (h : dhcp.messageType = some .request) :
      Handled dhcproto config now dhcp mac t (handleDhcpRequest dhcproto config now dhcp mac t)
  | decline (h : dhcp.messageType = some .decline) :
      Handled dhcproto config now dhcp mac t (handleDhcpDecline mac t, none)
  | release (h : dhcp.messageType = some .release) :
      Handled dhcproto config now dhcp mac t (handleDhcpRelease mac t, none)

theorem dispatch_handled (dhcproto : Dhcproto) (config : ServerConfig) (now : Nat) (dhcp : Message)
    (mac : MacAddr) (t : LeaseTable) :
    dispatch dhcproto config now dhcp mac t = (t, none) ∨
      Handled dhcproto config now dhcp mac t (dispatch dhcproto config now dhcp mac t) := by
  unfold dispatch
  split
  · rename_i h
    exact .inr (.discover h)
  · rename_i h
    exact .inr (.request h)
  · rename_i h
    exact .inr (.decline h)
  · rename_i h
    exact .inr (.release h)
  · exact .inl rfl

variable {pnet : Pnet} {dhcproto : Dhcproto} {config : ServerConfig} {now bytesRead : Nat}
  {buf : Vector UInt8 2048} {leases : LeaseTable}

/-- The frame that was read. -/
def frameOf (bytesRead : Nat) (buf : Vector UInt8 2048) : List UInt8 := buf.toList.take bytesRead

theorem sliceTo_buf (h : bytesRead ≤ 2048) : sliceTo buf.toList bytesRead = .ok (frameOf bytesRead buf) :=
  sliceTo_of_le (by simpa using h)

/-- The frame is handled without a panic: it is dropped and the table stays as it is, or one
handler runs, for the six-byte MAC the message carries. -/
def Completes (pnet : Pnet) (dhcproto : Dhcproto) (config : ServerConfig) (now bytesRead : Nat)
    (buf : Vector UInt8 2048) (leases : LeaseTable) : Prop :=
  ∃ result, processIncomingPacket pnet dhcproto config now bytesRead buf leases = .ok result ∧
    (result = (leases, none) ∨
      ∃ dhcp mac, parseDhcpPayload pnet dhcproto (frameOf bytesRead buf) serverPort = some dhcp ∧
        dhcp.hlen = 6 ∧ dhcp.chaddr = mac.octets ∧
        Handled dhcproto config now dhcp mac leases result)

/-- What is left once the frame has been cut out of the buffer and parsed. -/
theorem process_of_parse (hread : bytesRead ≤ 2048) {dhcp : Message}
    (hparse : parseDhcpPayload pnet dhcproto (frameOf bytesRead buf) serverPort = some dhcp)
    (hop : dhcp.opcode = .bootRequest) :
    processIncomingPacket pnet dhcproto config now bytesRead buf leases =
      (do
        match MacAddr.tryFrom (← sliceTo dhcp.chaddr dhcp.hlen.toNat) with
        | none => return (leases, none)
        | some clientMac =>
          match pnet.ethernet (frameOf bytesRead buf) with
          | none => return (leases, none)
          | some eth =>
            if dhcp.giaddr.isUnspecified && eth.source != clientMac then return (leases, none)
            else return dispatch dhcproto config now dhcp clientMac leases) := by
  simp only [processIncomingPacket, sliceTo_buf hread, bind, Except.bind, hparse, hop, ne_eq,
    not_true_eq_false, if_false]

theorem process_dropped (hread : bytesRead ≤ 2048)
    (hdrop : ∀ dhcp, parseDhcpPayload pnet dhcproto (frameOf bytesRead buf) serverPort = some dhcp →
      dhcp.opcode ≠ .bootRequest) :
    processIncomingPacket pnet dhcproto config now bytesRead buf leases = .ok (leases, none) := by
  simp only [processIncomingPacket, sliceTo_buf hread, bind, Except.bind]
  cases hparse : parseDhcpPayload pnet dhcproto (frameOf bytesRead buf) serverPort with
  | none => rfl
  | some dhcp =>
    simp only [hdrop dhcp hparse, ne_eq, not_false_eq_true, if_true]
    rfl

/-- A BOOTREQUEST whose claimed length is in range is dropped or handled. -/
theorem completes_of_hlen_le (hread : bytesRead ≤ 2048) {dhcp : Message}
    (hparse : parseDhcpPayload pnet dhcproto (frameOf bytesRead buf) serverPort = some dhcp)
    (hop : dhcp.opcode = .bootRequest) (hlen : dhcp.hlen.toNat ≤ 16) :
    Completes pnet dhcproto config now bytesRead buf leases := by
  unfold Completes
  rw [process_of_parse hread hparse hop, sliceTo_chaddr hlen]
  simp only [bind, Except.bind]
  cases hmac : MacAddr.tryFrom dhcp.chaddr with
  | none => exact ⟨_, rfl, .inl rfl⟩
  | some mac =>
    have hoctets : dhcp.chaddr = mac.octets := MacAddr.tryFrom_eq_some_iff.mp hmac
    have hsix : dhcp.hlen = 6 := by
      have := dhcp.chaddr_length
      rw [hoctets, MacAddr.octets_length, Nat.min_eq_left hlen] at this
      exact UInt8.toNat_inj.mp this.symm
    cases heth : pnet.ethernet (frameOf bytesRead buf) with
    | none => exact ⟨_, rfl, .inl rfl⟩
    | some eth =>
      by_cases hspoof : (dhcp.giaddr.isUnspecified && eth.source != mac) = true
      · simp only [hspoof, if_true]
        exact ⟨_, rfl, .inl rfl⟩
      · simp only [hspoof]
        refine ⟨_, rfl, ?_⟩
        rcases dispatch_handled dhcproto config now dhcp mac leases with h | h
        · exact .inl h
        · exact .inr ⟨dhcp, mac, hparse, hsix, hoctets, h⟩

theorem panics_of_lt_hlen (hread : bytesRead ≤ 2048) {dhcp : Message}
    (hparse : parseDhcpPayload pnet dhcproto (frameOf bytesRead buf) serverPort = some dhcp)
    (hop : dhcp.opcode = .bootRequest) (hlen : 16 < dhcp.hlen.toNat) :
    processIncomingPacket pnet dhcproto config now bytesRead buf leases =
      .error (.rangeEnd dhcp.hlen.toNat 16) := by
  rw [process_of_parse hread hparse hop, sliceTo_chaddr_panics hlen]
  rfl

/-- **A frame is handled without a panic** precisely when it is not a BOOTREQUEST that claims
a hardware address longer than the sixteen bytes there are. -/
theorem completes_iff (pnet : Pnet) (dhcproto : Dhcproto) (config : ServerConfig) (now : Nat)
    (buf : Vector UInt8 2048) (leases : LeaseTable) (hread : bytesRead ≤ 2048) :
    Completes pnet dhcproto config now bytesRead buf leases ↔
      ∀ dhcp, parseDhcpPayload pnet dhcproto (frameOf bytesRead buf) serverPort = some dhcp →
        dhcp.opcode = .bootRequest → dhcp.hlen.toNat ≤ 16 := by
  refine ⟨fun h dhcp hparse hop => ?_, fun h => ?_⟩
  · by_contra hlen
    obtain ⟨result, hok, -⟩ := h
    rw [panics_of_lt_hlen hread hparse hop (by omega)] at hok
    exact absurd hok (by simp)
  · by_cases hsome : ∃ dhcp, parseDhcpPayload pnet dhcproto (frameOf bytesRead buf) serverPort = some dhcp ∧
        dhcp.opcode = .bootRequest
    · obtain ⟨dhcp, hparse, hop⟩ := hsome
      exact completes_of_hlen_le hread hparse hop (h dhcp hparse hop)
    · refine ⟨(leases, none), process_dropped hread fun dhcp hparse hop => ?_, .inl rfl⟩
      exact hsome ⟨dhcp, hparse, hop⟩

/-! ### A frame on the small network -/

namespace Small

/-- The frame of a broadcast message from the client: Ethernet, IPv4 and UDP headers, then the message. -/
def broadcastFrame (dhcp : Message) : List UInt8 :=
  let payload := Wire.encode dhcp
  MacAddr.broadcast.octets ++ client.octets ++ [8, 0] ++
    ([0x45, 0] ++ Wire.bytes16 (UInt16.ofNat (28 + payload.length)) ++ [0, 0, 0, 0, 64, 17, 0, 0] ++
      Wire.bytesOfIp Ipv4Addr.unspecified ++ Wire.bytesOfIp Ipv4Addr.broadcast) ++
    (Wire.bytes16 clientPort ++ Wire.bytes16 serverPort ++
      Wire.bytes16 (UInt16.ofNat (8 + payload.length)) ++ [0, 0]) ++
    payload

/-- A receive buffer with this frame in front. -/
def bufferOf (frame : List UInt8) (h : frame.length ≤ 2048) : Vector UInt8 2048 :=
  ⟨(frame ++ List.replicate (2048 - frame.length) 0).toArray, by simp; omega⟩

theorem frameOf_bufferOf (frame : List UInt8) (h : frame.length ≤ 2048) :
    frameOf frame.length (bufferOf frame h) = frame := by
  simp [frameOf, bufferOf, Vector.toList]

/-- A DISCOVER that claims a hardware address of seventeen bytes. -/
def longHlen : Message := { message client .discover with hlen := 17 }

end Small

/-- The frame of an ordinary DISCOVER is handled. -/
theorem discover_frame_completes :
    ∃ hfits, Completes Wire.pnet Wire.dhcproto Small.router 0
      (Small.broadcastFrame (Small.message Small.client .discover)).length
      (Small.bufferOf (Small.broadcastFrame (Small.message Small.client .discover)) hfits) .new := by
  have hfits : (Small.broadcastFrame (Small.message Small.client .discover)).length ≤ 2048 := by
    decide +kernel
  have hshort : (parseDhcpPayload Wire.pnet Wire.dhcproto
      (Small.broadcastFrame (Small.message Small.client .discover)) serverPort).all
      (fun dhcp => decide (dhcp.hlen.toNat ≤ 16)) = true := by
    decide +kernel
  refine ⟨hfits, (completes_iff Wire.pnet Wire.dhcproto Small.router 0 _ .new hfits).mpr ?_⟩
  intro dhcp hparse _
  rw [Small.frameOf_bufferOf] at hparse
  simpa [hparse] using hshort

/-- The frame of the DISCOVER with the long hardware address panics. -/
theorem long_hlen_panics : ¬ ∀ (bytesRead : Nat) (buf : Vector UInt8 2048), bytesRead ≤ 2048 →
    Completes Wire.pnet Wire.dhcproto Small.router 0 bytesRead buf .new := by
  intro h
  have hfits : (Small.broadcastFrame Small.longHlen).length ≤ 2048 := by decide +kernel
  obtain ⟨result, hok, -⟩ := h _ (Small.bufferOf (Small.broadcastFrame Small.longHlen) hfits) hfits
  have hparsed : (parseDhcpPayload Wire.pnet Wire.dhcproto (Small.broadcastFrame Small.longHlen)
      serverPort).any (fun dhcp => dhcp.opcode == .bootRequest && decide (16 < dhcp.hlen.toNat)) = true := by
    decide +kernel
  obtain ⟨dhcp, hparse, hlong⟩ := Option.any_eq_true _ _ |>.mp hparsed
  simp only [Bool.and_eq_true, beq_iff_eq, decide_eq_true_eq] at hlong
  rw [← Small.frameOf_bufferOf _ hfits] at hparse
  rw [panics_of_lt_hlen hfits hparse hlong.1 hlong.2] at hok
  exact absurd hok (by simp)

end RustyRouter.Lan
