import Mathlib.Logic.Function.Basic
import RustyRouter.Lan.Acknowledged
import RustyRouter.Lan.OnWire
import RustyRouter.Transactions

/-! Routers behind a router.

The LAN of one router, on which other routers have their WAN side: the program's DHCP server
and some of its DHCP clients, the members, among any other clients. What a member sends
reaches the server in its order or is lost; what the server sends may reach anybody, any
number of times and any time later, or not at all. Other packets may reach the members as
well.

Two things the segment does not provide, and they are asked of a run. A client knows an ACK
by its transaction ID only, and IDs are random numbers: so nobody else may write under an ID
of a member, nor a member draw one that was used before (`OwnIds`). And the segment has this
one server, so that all ACKs come from it (`OneServer`). A member that holds an address
then has a lease on it in the server's table, for as long as the server gave it with the ACK
that the member took last (`held_leased`), so that no two members hold one address within
their leases (`one_holder`). Their clocks need not agree. -/
namespace RustyRouter
open Transition Wan Lan

structure Segment where
  dhcproto : Dhcproto
  config : ServerConfig
  members : List MacAddr
  wanInterface : MacAddr → String

/-- A message the server has handled. -/
structure Handled where
  received : Received
  /-- Where a member's message stands in its log. -/
  place : Option Nat
  answer : Option Sent

structure SegmentState where
  server : ServerState
  handled : List Handled
  client : MacAddr → ClientState
  /-- As much of a member's log has reached the server, or is lost. -/
  passed : MacAddr → Nat
  /-- When the server sent the ACK that the member took last. -/
  granted : MacAddr → Nat

def SegmentState.initial : SegmentState := ⟨.initial, [], fun _ => .initial, fun _ => 0, fun _ => 0⟩

section Moved
variable (s : SegmentState) (mac other : MacAddr) (u : ClientState) (granted : MacAddr → Nat)

/-- A member has moved on. -/
def SegmentState.moved : SegmentState := { s with client := Function.update s.client mac u, granted := granted }

@[simp] theorem moved_client_self : (s.moved mac u granted).client mac = u := Function.update_self ..

variable {mac other} in
theorem moved_client_of_ne (h : other ≠ mac) : (s.moved mac u granted).client other = s.client other :=
  Function.update_of_ne h ..

end Moved

inductive SegmentEvent where
  /-- A member's message reaches the server. -/
  | asks (now : Nat) (mac : MacAddr) (place : Nat)
  /-- Another client's message does. -/
  | other (r : Received)
  /-- An answer of the server reaches a member. -/
  | answers (index : Nat) (now : Nat) (mac : MacAddr) (xid : UInt32) (jitter : Jitter)
  /-- Anything else happens to a member. -/
  | takes (mac : MacAddr) (e : Wan.Event)

namespace Handled

/-- It was answered with an ACK of this address. -/
def Acks (h : Handled) (ip : Ipv4Addr) : Prop :=
  ∃ sent, h.answer = some sent ∧ sent.message.messageType = some .ack ∧ sent.message.yiaddr = ip

/-- The answer is a reply, and an ACK is of the address that was asked for. -/
structure Sound (dhcproto : Dhcproto) (config : ServerConfig) (h : Handled) : Prop where
  replies : ∀ sent, h.answer = some sent → Replies dhcproto config h.received sent
  asked : ∀ ip, h.Acks ip → h.received.dhcp.messageType = some .request ∧
    (requestedIpOpt h.received.dhcp = none ∨ requestedIpOpt h.received.dhcp = some ip)

end Handled

namespace Segment
variable (g : Segment) (s : SegmentState)

def member (mac : MacAddr) : DhcpClient := ⟨g.dhcproto, mac, g.wanInterface mac⟩

/-- The event is an ACK of the transaction that the client waits for. -/
def takesAck (c : DhcpClient) (s : ClientState) (e : Wan.Event) : Bool :=
  match s.phase.awaitsAck, e.input with
  | some xid, .packet buf =>
    match parseAckNak c.dhcproto buf xid with
    | .ack _ => true
    | _ => false
  | _, _ => false

def serve (r : Received) (place : Option Nat) : SegmentState :=
  let result := s.server.handle g.dhcproto g.config r
  { s with server := ⟨result.1, r.now⟩, handled := s.handled ++ [⟨r, place, result.2⟩] }

/-- The payload of the message, as the server reads it. -/
def carried (message : Message) : Option Message :=
  match g.dhcproto.encode message with
  | .ok payload => g.dhcproto.decode payload
  | .error _ => none

/-- The segment at work. -/
def system : System SegmentState SegmentEvent where
  step s e :=
    match e with
    | .asks now mac place =>
      if mac ∈ g.members ∧ s.passed mac ≤ place ∧ s.server.clock ≤ now then
        match (s.client mac).sent[place]? with
        | some x => (g.carried x.message).map fun dhcp =>
            { g.serve s ⟨now, mac, dhcp⟩ (some place) with passed := Function.update s.passed mac (place + 1) }
        | none => none
      else none
    | .other r =>
      if r.clientMac ∉ g.members ∧ s.server.clock ≤ r.now then some (g.serve s r none) else none
    | .answers index now mac xid jitter =>
      if mac ∈ g.members then
        match s.handled[index]? with
        | some ⟨r, _, some sent⟩ =>
          let e : Wan.Event := ⟨now, .packet sent.packet.payload, xid, jitter⟩
          ((client (g.member mac)).step (s.client mac) e).map fun u =>
            s.moved mac u (if takesAck (g.member mac) (s.client mac) e then Function.update s.granted mac r.now
              else s.granted)
        | _ => none
      else none
    | .takes mac e =>
      if mac ∈ g.members then
        ((client (g.member mac)).step (s.client mac) e).map fun u => s.moved mac u s.granted
      else none

/-! ### What is asked of a run -/

/-- Nobody has used the transaction ID so far. -/
def Fresh (xid : UInt32) : Prop :=
  (∀ h ∈ s.handled, h.received.dhcp.xid ≠ xid) ∧ ∀ mac ∈ g.members, ¬ Used (s.client mac).sent xid

instance (xid : UInt32) : Decidable (g.Fresh s xid) := instDecidableAnd

/-- Another client's message is under no ID that a member has used, and the ID that a
member draws is new. -/
def OwnIds : SegmentEvent → Prop
  | .asks _ _ _ => True
  | .other r => ∀ mac ∈ g.members, ¬ Used (s.client mac).sent r.dhcp.xid
  | .answers _ _ _ xid _ => g.Fresh s xid
  | .takes _ e => g.Fresh s e.xid

instance (e : SegmentEvent) : Decidable (g.OwnIds s e) :=
  match e with
  | .asks _ _ _ => .isTrue trivial
  | .other r => inferInstanceAs (Decidable (∀ mac ∈ g.members, ¬ Used (s.client mac).sent r.dhcp.xid))
  | .answers _ _ _ xid _ => inferInstanceAs (Decidable (g.Fresh s xid))
  | .takes _ e => inferInstanceAs (Decidable (g.Fresh s e.xid))

/-- An ACK that a member takes is an answer of the server. -/
def OneServer : SegmentEvent → Prop
  | .takes mac e => takesAck (g.member mac) (s.client mac) e = false
  | _ => True

variable {g s} {t : SegmentState} {e : SegmentEvent} {mac : MacAddr}

instance (e : SegmentEvent) : Decidable (g.OneServer s e) :=
  match e with
  | .takes mac e => inferInstanceAs (Decidable (takesAck (g.member mac) (s.client mac) e = false))
  | .asks _ _ _ => .isTrue trivial
  | .other _ => .isTrue trivial
  | .answers _ _ _ _ _ => .isTrue trivial

/-! ### One step -/

theorem takesAck_iff {c : DhcpClient} {u : ClientState} {ev : Wan.Event} :
    takesAck c u ev = true ↔ ∃ ack, Accepts c u ev ack := by
  constructor
  · intro h
    unfold takesAck at h
    split at h
    · rename_i xid buf hxid hin
      split at h
      · rename_i ack hack
        exact ⟨ack, xid, buf, hxid, hin, hack⟩
      · simp at h
    · simp at h
  · intro ⟨ack, xid, buf, hxid, hin, hack⟩
    simp [takesAck, hxid, hin, hack]

/-- Who a message is from that the server is about to handle. -/
inductive Sender (g : Segment) (s : SegmentState) : Received → Option Nat → (MacAddr → Nat) → Prop
  | member {r : Received} {place : Nat} {x : Sending} (hmac : r.clientMac ∈ g.members)
      (hpassed : s.passed r.clientMac ≤ place) (hx : (s.client r.clientMac).sent[place]? = some x)
      (hcarried : g.carried x.message = some r.dhcp) :
      Sender g s r (some place) (Function.update s.passed r.clientMac (place + 1))
  | other {r : Received} (hmac : r.clientMac ∉ g.members)
      (hxid : ∀ mac ∈ g.members, ¬ Used (s.client mac).sent r.dhcp.xid) : Sender g s r none s.passed

/-- What a member's event is, and which ACK it takes the server's time from. -/
inductive Delivered (g : Segment) (s : SegmentState) (mac : MacAddr) (e : Wan.Event) : (MacAddr → Nat) → Prop
  | answer {h : Handled} {sent : Sent} (hmem : h ∈ s.handled) (hanswer : h.answer = some sent)
      (hin : e.input = .packet sent.packet.payload) (hack : takesAck (g.member mac) (s.client mac) e = true) :
      Delivered g s mac e (Function.update s.granted mac h.received.now)
  | noise (hack : takesAck (g.member mac) (s.client mac) e = false) : Delivered g s mac e s.granted

/-- **What happens on the segment**: the server handles a message, or a member takes an event. -/
theorem step_cases (hids : g.OwnIds s e) (hone : g.OneServer s e) (h : g.system.step s e = some t) :
    (∃ r place passed, Sender g s r place passed ∧ s.server.clock ≤ r.now ∧
      t = { g.serve s r place with passed := passed }) ∨
    ∃ mac ∈ g.members, ∃ ev u granted, g.Fresh s ev.xid ∧
      (client (g.member mac)).step (s.client mac) ev = some u ∧ Delivered g s mac ev granted ∧
      t = s.moved mac u granted := by
  cases e with
  | asks now mac place =>
    simp only [system, Option.ite_none_right_eq_some] at h
    obtain ⟨⟨hmac, hpassed, hle⟩, h⟩ := h
    split at h
    · rename_i x hx
      obtain ⟨dhcp, hcarried, rfl⟩ := Option.map_eq_some_iff.mp h
      exact .inl ⟨⟨now, mac, dhcp⟩, some place, _, .member hmac hpassed hx hcarried, hle, rfl⟩
    · simp at h
  | other r =>
    simp only [system, Option.ite_none_right_eq_some, Option.some.injEq] at h
    obtain ⟨⟨hmac, hle⟩, rfl⟩ := h
    exact .inl ⟨r, none, s.passed, .other hmac hids, hle, rfl⟩
  | answers index now mac xid jitter =>
    simp only [system, Option.ite_none_right_eq_some] at h
    obtain ⟨hmac, h⟩ := h
    split at h
    · rename_i r place sent hhandled
      obtain ⟨u, hu, rfl⟩ := Option.map_eq_some_iff.mp h
      refine .inr ⟨mac, hmac, ⟨now, .packet sent.packet.payload, xid, jitter⟩, u, _, hids, hu, ?_, rfl⟩
      split
      · rename_i hack
        exact @Delivered.answer g s mac _ ⟨r, place, some sent⟩ sent (List.mem_of_getElem? hhandled) rfl rfl hack
      · rename_i hack
        exact .noise (Bool.eq_false_iff.mpr hack)
    · simp at h
  | takes mac ev =>
    simp only [system, Option.ite_none_right_eq_some] at h
    obtain ⟨hmac, h⟩ := h
    obtain ⟨u, hu, rfl⟩ := Option.map_eq_some_iff.mp h
    exact .inr ⟨mac, hmac, ev, u, _, hids, hu, .noise hone, rfl⟩

/-! ### What the server has handled -/

theorem handle_sound (r : Received) (place : Option Nat) :
    Handled.Sound g.dhcproto g.config ⟨r, place, (s.server.handle g.dhcproto g.config r).2⟩ := by
  refine ⟨fun sent hsent => dispatch_replies hsent, ?_⟩
  rintro ip ⟨sent, hsent, hack, rfl⟩
  have hanswer := dispatch_answer g.dhcproto hsent
  generalize (dispatch g.dhcproto g.config r.now r.dhcp r.clientMac s.server.leases).1 = t' at hanswer
  generalize sent.message = message at hanswer hack
  cases hanswer with
  | reoffered => exact absurd hack (by simp)
  | offered => exact absurd hack (by simp)
  | acked ip hgrant =>
    refine ⟨hgrant.1, ?_⟩
    have hasked := hgrant.2.1
    show requestedIpOpt r.dhcp = none ∨ requestedIpOpt r.dhcp = some ip
    unfold requestedIp at hasked
    split at hasked
    · exact .inr (by simp_all)
    · exact .inl ‹_›
  | refused => exact absurd hack (by simp)

variable (g s) in
/-- The server's side: its state is that of its messages, and an ACK is good for a whole
lease while the client keeps its address. -/
structure Served : Prop where
  run : (server g.dhcproto g.config).run .initial (s.handled.map Handled.received) = some s.server
  times : ∀ h ∈ s.handled, h.received.now ≤ s.server.clock
  sound : ∀ h ∈ s.handled, h.Sound g.dhcproto g.config
  backed : ∀ before h after ip, s.handled = before ++ h :: after → h.Acks ip →
    (∀ h' ∈ after, Keeps h.received.clientMac ip h'.received) →
    s.server.clock < h.received.now + lanLease →
    s.server.leases.Lasts h.received.clientMac ip (h.received.now + lanLease)

theorem serve_served (hs : Served g s) {r : Received} (hle : s.server.clock ≤ r.now) (place : Option Nat) :
    Served g (g.serve s r place) := by
  have hstep : (server g.dhcproto g.config).step s.server r = some (g.serve s r place).server :=
    server_handles g.dhcproto g.config hle
  constructor
  · show System.run _ _ ((s.handled ++ [_]).map Handled.received) = _
    rw [List.map_append]
    exact System.run_snoc _ hs.run hstep
  · intro h hmem
    rcases List.mem_append.mp hmem with hold | hnew
    · exact (hs.times h hold).trans hle
    · rw [List.mem_singleton.mp hnew]
      exact Nat.le_refl _
  · intro h hmem
    rcases List.mem_append.mp hmem with hold | hnew
    · exact hs.sound h hold
    · rw [List.mem_singleton.mp hnew]
      exact handle_sound r place
  · intro before h after ip hsplit hacks hkeeps hlt
    rcases List.eq_nil_or_concat' after with rfl | ⟨after, last, rfl⟩
    · obtain ⟨-, hlast⟩ := List.append_inj' hsplit rfl
      obtain rfl := (List.cons.inj hlast).1
      obtain ⟨sent, hanswer, hack, rfl⟩ := hacks
      exact (acked_lasts hstep hanswer hack).1
    · have hsplit' : s.handled ++ [⟨r, place, (s.server.handle g.dhcproto g.config r).2⟩] =
          (before ++ h :: after) ++ [last] := by
        rw [List.append_assoc, List.cons_append]
        exact hsplit
      obtain ⟨hold, hlast⟩ := List.append_inj' hsplit' rfl
      obtain rfl := (List.cons.inj hlast).1
      have hmem : h ∈ s.handled := hold ▸ List.mem_append_right _ List.mem_cons_self
      have hlater : ∀ h' ∈ after, Keeps h.received.clientMac ip h'.received :=
        fun h' hh' => hkeeps h' (List.mem_append_left _ hh')
      have hlasts := hs.backed before h after ip hold hacks hlater (Nat.lt_of_le_of_lt hle hlt)
      have hclock : h.received.now + lanLease ≤ s.server.clock + lanLease :=
        Nat.add_le_add_right (hs.times h hmem) _
      exact lasts_step hlasts hclock (hkeeps _ (List.mem_append_right _ (List.mem_singleton_self _))) hstep hlt

/-! ### What the members have sent -/

variable (g s) in
/-- The members' side: their messages reach the server in order, and under transaction IDs
of their own. -/
structure Logged : Prop where
  plain : ∀ mac ∈ g.members, ∀ x ∈ (s.client mac).sent, x.message.Plain
  stance : ∀ mac ∈ g.members, (s.client mac).phase.Stance (s.client mac).sent
  places : ∀ h ∈ s.handled, h.received.clientMac ∈ g.members → ∃ i x, h.place = some i ∧
    i < s.passed h.received.clientMac ∧ (s.client h.received.clientMac).sent[i]? = some x ∧
    h.received.dhcp.Same x.message
  order : s.handled.Pairwise fun h h' => h.received.clientMac ∈ g.members →
    h'.received.clientMac = h.received.clientMac → ∀ i i', h.place = some i → h'.place = some i' → i < i'
  owned : ∀ h ∈ s.handled, ∀ mac ∈ g.members, Used (s.client mac).sent h.received.dhcp.xid →
    h.received.clientMac = mac
  apart : ∀ mac ∈ g.members, ∀ mac' ∈ g.members, ∀ xid, Used (s.client mac).sent xid →
    Used (s.client mac').sent xid → mac = mac'

/-- What is carried is the message. -/
theorem carried_same (hrt : g.dhcproto.RoundTrips) {message dhcp : Message} (hplain : message.Plain)
    (h : g.carried message = some dhcp) : dhcp.Same message := by
  obtain ⟨payload, hencode, m, hdecode, hsame⟩ := hrt message hplain
  simp only [carried, hencode, hdecode, Option.some.injEq] at h
  exact h ▸ hsame

theorem serve_logged (hrt : g.dhcproto.RoundTrips) (hs : Logged g s) {r : Received} {place : Option Nat}
    {passed : MacAddr → Nat} (hsender : Sender g s r place passed) :
    Logged g { g.serve s r place with passed := passed } := by
  have hold : ∀ h ∈ s.handled, h.received.clientMac ∈ g.members → ∃ i x, h.place = some i ∧
      i < passed h.received.clientMac ∧ (s.client h.received.clientMac).sent[i]? = some x ∧
      h.received.dhcp.Same x.message := by
    intro h hmem hmac
    obtain ⟨i, x, hplace, hlt, hx, hsame⟩ := hs.places h hmem hmac
    refine ⟨i, x, hplace, ?_, hx, hsame⟩
    cases hsender with
    | member _ hpassed =>
      by_cases heq : h.received.clientMac = r.clientMac
      · rw [heq, Function.update_self]
        rw [heq] at hlt
        omega
      · rwa [Function.update_of_ne heq]
    | other => exact hlt
  refine ⟨hs.plain, hs.stance, ?_, ?_, ?_, hs.apart⟩
  · intro h hmem hmac
    rcases List.mem_append.mp hmem with hmem | hnew
    · exact hold h hmem hmac
    · obtain rfl := List.mem_singleton.mp hnew
      cases hsender with
      | @member i x hmember hpassed hx hcarried =>
        have hsame := carried_same hrt (hs.plain _ hmember x (List.mem_of_getElem? hx)) hcarried
        refine ⟨i, x, rfl, ?_, hx, hsame⟩
        show i < Function.update s.passed r.clientMac (i + 1) r.clientMac
        rw [Function.update_self]
        exact Nat.lt_succ_self i
      | other hnot => exact absurd hmac hnot
  · refine List.pairwise_append.mpr ⟨hs.order, List.pairwise_singleton _ _, fun h hmem h' hnew => ?_⟩
    obtain rfl := List.mem_singleton.mp hnew
    intro hmac heq i i' hi hi'
    obtain ⟨j, -, hj, hlt, -⟩ := hs.places h hmem hmac
    obtain rfl : j = i := Option.some.inj (hj.symm.trans hi)
    cases hsender with
    | member _ hpassed =>
      obtain rfl := Option.some.inj hi'
      have hfrom : r.clientMac = h.received.clientMac := heq
      rw [← hfrom] at hlt
      omega
    | other => exact absurd hi' (by simp)
  · intro h hmem mac hmac hused
    rcases List.mem_append.mp hmem with hmem | hnew
    · exact hs.owned h hmem mac hmac hused
    · obtain rfl := List.mem_singleton.mp hnew
      cases hsender with
      | @member i x hmember hpassed hx hcarried =>
        have hsame := carried_same hrt (hs.plain _ hmember x (List.mem_of_getElem? hx)) hcarried
        have hused' : Used (s.client r.clientMac).sent r.dhcp.xid :=
          ⟨x, List.mem_of_getElem? hx, hsame.xid.symm⟩
        exact hs.apart _ hmember mac hmac _ hused' hused
      | other _ hxid => exact absurd hused (hxid mac hmac)

/-- A member's event, seen from all logs. -/
theorem client_logged (hencodes : g.dhcproto.Encodes) (hs : Logged g s) (hmac : mac ∈ g.members) {ev : Wan.Event}
    {u : ClientState} (hfresh : g.Fresh s ev.xid) (hu : (client (g.member mac)).step (s.client mac) ev = some u)
    (granted : MacAddr → Nat) :
    Logged g (s.moved mac u granted) := by
  have hprogress := client_progress hencodes hu
  obtain ⟨hnew, hunused⟩ := hfresh
  obtain ⟨more, hmore, hplain, hxids⟩ := hprogress.sent (hs.stance mac hmac)
  have hgrow : ∀ other, (s.client other).sent <+: ((s.moved mac u granted).client other).sent := by
    intro other
    by_cases heq : other = mac
    · rw [heq, moved_client_self, hmore]
      exact List.prefix_append _ _
    · rw [moved_client_of_ne s u granted heq]
  have hused : ∀ other xid, Used ((s.moved mac u granted).client other).sent xid →
      Used (s.client other).sent xid ∨ other = mac ∧ xid = ev.xid := by
    intro other xid hxid
    by_cases heq : other = mac
    · subst heq
      rw [moved_client_self] at hxid
      exact (hxids xid hxid).imp id fun h => ⟨rfl, h⟩
    · rw [moved_client_of_ne s u granted heq] at hxid
      exact .inl hxid
  refine ⟨?_, ?_, ?_, hs.order, ?_, ?_⟩
  · intro other hother x hx
    by_cases heq : other = mac
    · subst heq
      rw [moved_client_self, hmore] at hx
      exact (List.mem_append.mp hx).elim (hs.plain other hmac x) (hplain x)
    · rw [moved_client_of_ne s u granted heq] at hx
      exact hs.plain other hother x hx
  · intro other hother
    by_cases heq : other = mac
    · subst heq
      rw [moved_client_self]
      have hdrawn : ∀ x ∈ (s.client other).sent, x.message.xid ≠ ev.xid :=
        fun x hx hxid => hunused other hmac ⟨x, hx, hxid⟩
      exact @stance_step _ { s.client other with now := ev.now } u ev hdrawn (hs.stance other hmac) hprogress
    · rw [moved_client_of_ne s u granted heq]
      exact hs.stance other hother
  · intro h hmem hmember
    obtain ⟨i, x, hplace, hlt, hx, hsame⟩ := hs.places h hmem hmember
    obtain ⟨more', hmore'⟩ := hgrow h.received.clientMac
    refine ⟨i, x, hplace, hlt, ?_, hsame⟩
    rw [← hmore', List.getElem?_append_left (List.getElem?_eq_some_iff.mp hx).1]
    exact hx
  · intro h hmem other hother hxid
    rcases hused other _ hxid with hxid | ⟨-, hxid⟩
    · exact hs.owned h hmem other hother hxid
    · exact absurd hxid (hnew h hmem)
  · intro a ha b hb xid hxid hxid'
    rcases hused a _ hxid with hxid | ⟨rfl, rfl⟩ <;> rcases hused b _ hxid' with hxid' | ⟨hb', hxid''⟩
    · exact hs.apart a ha b hb xid hxid hxid'
    · rw [hxid''] at hxid
      exact absurd hxid (hunused a ha)
    · exact absurd hxid' (hunused b hb)
    · exact hb'.symm

/-! ### What the members hold -/

variable (g s) in
/-- The ACK that a member lives by is one of the server's, and the member has asked for
nothing else since the message it answers. -/
def Holding (mac : MacAddr) (ack : DhcpAck) : Prop :=
  ∃ h ∈ s.handled, h.received.clientMac = mac ∧ h.received.now = s.granted mac ∧ h.Acks ack.ip ∧
    ∃ i, h.place = some i ∧ ∀ x ∈ (s.client mac).sent.drop i,
      x.IsRequest ∧ (requestedIpOpt x.message = none ∨ requestedIpOpt x.message = some ack.ip)

variable (g s) in
def AllHolding : Prop := ∀ mac ∈ g.members, ∀ ack, (s.client mac).phase.acked = some ack → Holding s mac ack

/-- Only an ACK is taken for one. -/
theorem accepts_of_takesAck {c : DhcpClient} {u v : ClientState} {ev : Wan.Event} (h : takesAck c u ev = true)
    (hstep : (client c).step u ev = some v) :
    ∃ ack, Accepts c u ev ack ∧ v = applyLeaseConfig { u with now := ev.now } ack := by
  obtain ⟨ack, hack⟩ := takesAck_iff.mp h
  have haccepted := client_accepts (client_le hstep) hack
  exact ⟨ack, hack, Option.some.inj (hstep.symm.trans haccepted)⟩

/-- The ACK that a member takes is the server's answer to a REQUEST of its own. -/
theorem taken_holding (hrt : g.dhcproto.RoundTrips) (hserved : Served g s) (hlogged : Logged g s)
    (hmac : mac ∈ g.members) {ev : Wan.Event} {ack : DhcpAck} (haccepts : Accepts (g.member mac) (s.client mac) ev ack)
    {h : Handled} {sent : Sent} (hmem : h ∈ s.handled) (hanswer : h.answer = some sent)
    (hin : ev.input = .packet sent.packet.payload) :
    h.received.clientMac = mac ∧ h.Acks ack.ip ∧ ∃ i, h.place = some i ∧ ∀ x ∈ (s.client mac).sent.drop i,
      x.IsRequest ∧ (requestedIpOpt x.message = none ∨ requestedIpOpt x.message = some ack.ip) := by
  obtain ⟨xid, buf, hxid, hin', hparse⟩ := haccepts
  obtain rfl : buf = sent.packet.payload := Input.packet.inj (hin'.symm.trans hin)
  have hreplies := (hserved.sound h hmem).replies sent hanswer
  obtain ⟨payload, hencode, m, hdecode, hsame⟩ := hrt sent.message hreplies.plain
  obtain rfl : payload = sent.packet.payload := Except.ok.inj (hencode.symm.trans hreplies.encoded)
  obtain ⟨m', hdecode', hmxid, hack, hyiaddr⟩ := parseAckNak_ack hparse
  obtain rfl : m = m' := Option.some.inj (hdecode.symm.trans hdecode')
  have hacks : h.Acks ack.ip := ⟨sent, hanswer, hsame.messageType ▸ hack, hsame.yiaddr ▸ hyiaddr⟩
  have hrxid : h.received.dhcp.xid = xid := by rw [← hreplies.xid, ← hsame.xid, hmxid]
  obtain ⟨hused, asked, hasks⟩ := stance_asks (hlogged.stance mac hmac) hxid
  obtain rfl : h.received.clientMac = mac := hlogged.owned h hmem mac hmac (hrxid ▸ hused)
  obtain ⟨i, x, hplace, -, hx, hsame'⟩ := hlogged.places h hmem hmac
  obtain ⟨hreq, hasked⟩ := (hserved.sound h hmem).asked _ hacks
  refine ⟨rfl, hacks, i, hplace, fun y hy => ?_⟩
  have hxreq : x.IsRequest := hsame'.messageType.symm.trans hreq
  obtain ⟨hyreq, hyasked⟩ := hasks.drop hx (hsame'.xid ▸ hrxid) hxreq y hy
  rw [hyasked, ← hsame'.requestedIpOpt]
  exact ⟨hyreq, hasked⟩

theorem serve_holding (hs : AllHolding g s) (r : Received) (place : Option Nat) (passed : MacAddr → Nat) :
    AllHolding g { g.serve s r place with passed := passed } := by
  intro mac hmac ack hacked
  obtain ⟨h, hmem, hholds⟩ := hs mac hmac ack hacked
  exact ⟨h, List.mem_append_left _ hmem, hholds⟩

/-- A member that takes no ACK goes on with the one it has, or gives it up. -/
theorem keeps_holding (hencodes : g.dhcproto.Encodes) {ev : Wan.Event} {u : ClientState}
    (hu : (client (g.member mac)).step (s.client mac) ev = some u)
    (hnone : takesAck (g.member mac) (s.client mac) ev = false) {ack : DhcpAck} (hacked : u.phase.acked = some ack) :
    (s.client mac).phase.acked = some ack ∧ ∃ more, u.sent = (s.client mac).sent ++ more ∧
      ∀ x ∈ more, x.IsRequest ∧ (requestedIpOpt x.message = none ∨ requestedIpOpt x.message = some ack.ip) := by
  have hsilent : u.sent = (s.client mac).sent → ∃ more, u.sent = (s.client mac).sent ++ more ∧
      ∀ x ∈ more, x.IsRequest ∧ (requestedIpOpt x.message = none ∨ requestedIpOpt x.message = some ack.ip) :=
    fun hsent => ⟨[], by rw [hsent, List.append_nil], by simp⟩
  cases client_progress hencodes hu with
  | waits hsent hphase => exact ⟨hphase ▸ hacked, hsilent hsent⟩
  | rests hsent _ hold => exact ⟨hold ack hacked, hsilent hsent⟩
  | accepts ack' hack => exact absurd (takesAck_iff.mpr ⟨ack', hack⟩) (Bool.eq_false_iff.mp hnone)
  | discovers xid _ _ hphase =>
    obtain ⟨_, _, hphase⟩ := hphase
    rw [hphase] at hacked
    exact absurd hacked (by simp [Phase.acked])
  | requests xid offer _ _ hphase =>
    obtain ⟨_, _, hphase⟩ := hphase
    rw [hphase] at hacked
    exact absurd hacked (by simp [Phase.acked])
  | renews ack' boundAt xid hold _ _ hsent hphase =>
    obtain ⟨_, _, hphase⟩ := hphase
    rw [hphase] at hacked
    obtain rfl := Option.some.inj hacked
    refine ⟨Phase.acked_of_holding hold, [(g.member mac).prolongs ack' boundAt xid ev.now], hsent,
      List.forall_mem_singleton.mpr ?_⟩
    obtain ⟨hreq, hasked⟩ := prolongs_request (g.member mac) xid ack' boundAt ev.now
    refine ⟨hreq, ?_⟩
    show requestedIpOpt ((g.member mac).prolongs ack' boundAt xid ev.now).message = none ∨ _
    rw [hasked, renewalAsks]
    split
    · exact .inr rfl
    · exact .inl rfl
  | listens ack' boundAt xid hsent hfrom hphase =>
    obtain ⟨_, _, hfrom⟩ := hfrom
    obtain ⟨_, _, hphase⟩ := hphase
    rw [hphase] at hacked
    refine ⟨?_, hsilent hsent⟩
    show (s.client mac).phase.acked = some ack
    have hfrom' : (s.client mac).phase = _ := hfrom
    rw [hfrom']
    exact hacked

theorem client_holding (hrt : g.dhcproto.RoundTrips) (hencodes : g.dhcproto.Encodes) (hserved : Served g s)
    (hlogged : Logged g s) (hs : AllHolding g s) (hmac : mac ∈ g.members) {ev : Wan.Event} {u : ClientState}
    (hu : (client (g.member mac)).step (s.client mac) ev = some u) {granted : MacAddr → Nat}
    (hdelivered : Delivered g s mac ev granted) : AllHolding g (s.moved mac u granted) := by
  intro other hother ack hacked
  have hgranted : other ≠ mac → granted other = s.granted other := by
    intro hne
    cases hdelivered with
    | answer => exact Function.update_of_ne hne ..
    | noise => rfl
  by_cases heq : other = mac
  · subst heq
    rw [moved_client_self] at hacked
    cases hdelivered with
    | answer hmem hanswer hin hack =>
      obtain ⟨ack', haccepts, rfl⟩ := accepts_of_takesAck hack hu
      obtain rfl : ack' = ack := by
        unfold applyLeaseConfig at hacked
        split at hacked <;> exact Option.some.inj hacked
      obtain ⟨hfrom, hacks, i, hplace, hasks⟩ := taken_holding hrt hserved hlogged hmac haccepts hmem hanswer hin
      refine ⟨_, hmem, hfrom, (Function.update_self other _ s.granted).symm, hacks, i, hplace, ?_⟩
      rw [moved_client_self]
      have hsent : (applyLeaseConfig { s.client other with now := ev.now } ack').sent = (s.client other).sent := by
        unfold applyLeaseConfig
        split <;> rfl
      rw [hsent]
      exact hasks
    | noise hack =>
      obtain ⟨hold, more, hsent, hmore⟩ := keeps_holding hencodes hu hack hacked
      obtain ⟨h, hmem, hfrom, hnow, hacks, i, hplace, hasks⟩ := hs other hmac ack hold
      refine ⟨h, hmem, hfrom, hnow, hacks, i, hplace, fun x hx => ?_⟩
      rw [moved_client_self, hsent, List.drop_append] at hx
      exact (List.mem_append.mp hx).elim (hasks x) fun hx => hmore x (List.mem_of_mem_drop hx)
  · rw [moved_client_of_ne s u granted heq] at hacked
    obtain ⟨h, hmem, hfrom, hnow, hacks, i, hplace, hasks⟩ := hs other hother ack hacked
    refine ⟨h, hmem, hfrom, hnow.trans (hgranted heq).symm, hacks, i, hplace, ?_⟩
    rw [moved_client_of_ne s u granted heq]
    exact hasks

/-! ### Runs -/

variable (g s) in
structure Consistent : Prop where
  served : Served g s
  logged : Logged g s
  holding : AllHolding g s

theorem initial_consistent : Consistent g .initial := by
  refine ⟨⟨rfl, ?_, ?_, ?_⟩, ⟨?_, ?_, ?_, .nil, ?_, ?_⟩, ?_⟩
  · simp [SegmentState.initial]
  · simp [SegmentState.initial]
  · intro before h after ip hsplit
    exact absurd hsplit (by simp [SegmentState.initial])
  · simp [SegmentState.initial, ClientState.initial]
  · exact fun _ _ => trivial
  · simp [SegmentState.initial]
  · simp [SegmentState.initial]
  · simp [SegmentState.initial, ClientState.initial, Used]
  · intro mac _ ack hacked
    exact absurd hacked (by simp [SegmentState.initial, ClientState.initial, Phase.acked])

theorem consistent_step (hrt : g.dhcproto.RoundTrips) (hencodes : g.dhcproto.Encodes) (hs : Consistent g s)
    (hids : g.OwnIds s e) (hone : g.OneServer s e) (h : g.system.step s e = some t) : Consistent g t := by
  rcases step_cases hids hone h with ⟨r, place, passed, hsender, hle, rfl⟩ |
    ⟨mac, hmac, ev, u, granted, hfresh, hu, hdelivered, rfl⟩
  · obtain ⟨hrun, htimes, hsound, hbacked⟩ := serve_served hs.served hle place
    exact ⟨⟨hrun, htimes, hsound, hbacked⟩, serve_logged hrt hs.logged hsender,
      serve_holding hs.holding r place passed⟩
  · obtain ⟨hrun, htimes, hsound, hbacked⟩ := hs.served
    exact ⟨⟨hrun, htimes, hsound, hbacked⟩, client_logged hencodes hs.logged hmac hfresh hu granted,
      client_holding hrt hencodes hs.served hs.logged hs.holding hmac hu hdelivered⟩

/-- What a member holds, it has a lease on. -/
theorem Consistent.leased (hs : Consistent g s) (hmac : mac ∈ g.members) {ack : DhcpAck}
    (hacked : (s.client mac).phase.acked = some ack) (hlt : s.server.clock < s.granted mac + lanLease) :
    s.server.leases.Lasts mac ack.ip (s.granted mac + lanLease) := by
  obtain ⟨h, hmem, rfl, hnow, hacks, i, hplace, hasks⟩ := hs.holding mac hmac ack hacked
  obtain ⟨before, after, hsplit⟩ := List.append_of_mem hmem
  rw [← hnow] at hlt ⊢
  refine hs.served.backed before h after ack.ip hsplit hacks (fun h' hlater hfrom => ?_) hlt
  have hmem' : h' ∈ s.handled := by
    rw [hsplit]
    exact List.mem_append_right _ (List.mem_cons_of_mem _ hlater)
  have horder := hs.logged.order
  rw [hsplit, List.pairwise_append, List.pairwise_cons] at horder
  obtain ⟨i', x, hplace', -, hx, hsame⟩ := hs.logged.places h' hmem' (hfrom ▸ hmac)
  have hlt' : i < i' := horder.2.1.1 h' hlater hmac hfrom i i' hplace hplace'
  rw [hfrom] at hx
  have hxdrop : x ∈ (s.client h.received.clientMac).sent.drop i := by
    apply List.mem_of_getElem? (i := i' - i)
    rw [List.getElem?_drop, Nat.add_sub_cancel' (Nat.le_of_lt hlt')]
    exact hx
  obtain ⟨hreq, hasked⟩ := hasks x hxdrop
  refine ⟨?_, fun _ => hsame.requestedIpOpt ▸ hasked⟩
  exact not_removes_of_messageType (hsame.messageType.trans hreq) (by decide) (by decide)

theorem run_consistent (hrt : g.dhcproto.RoundTrips) (hencodes : g.dhcproto.Encodes) {es : List SegmentEvent}
    (hids : g.system.Along g.OwnIds .initial es) (hone : g.system.Along g.OneServer .initial es)
    (h : g.system.run .initial es = some s) : Consistent g s := by
  have hstep : ∀ s e t, Consistent g s → (g.OwnIds s e ∧ g.OneServer s e) → g.system.step s e = some t →
      Consistent g t :=
    fun s e t hs hasked hstep => consistent_step hrt hencodes hs hasked.1 hasked.2 hstep
  exact (System.always_of_along hstep initial_consistent (hids.and hone)).last h

namespace Small

def segment : Segment := ⟨Wire.dhcproto, Lan.Small.router, [Lan.Small.client, Lan.Small.other], fun _ => "eth0"⟩

/-- A member negotiates, at one instant of the server's clock. -/
def negotiation (secs : Nat) (mac : MacAddr) (xid : UInt32) (index : Nat) : List SegmentEvent :=
  let now := Duration.fromSecs secs
  [.takes mac ⟨now, .timeout, xid, Jitter.zero⟩, .asks now mac 0, .answers index now mac (xid + 1) Jitter.zero,
    .asks now mac 1, .answers (index + 1) now mac (xid + 2) Jitter.zero]

/-- The second one comes when the lease of the first one has run out, but not its time as
the first one counts it. -/
def succession : List SegmentEvent :=
  negotiation 0 Lan.Small.client 7 0 ++ negotiation 3600 Lan.Small.other 77 2

def held (s : SegmentState) (mac : MacAddr) : Option Ipv4Addr := (s.client mac).phase.acked.map DhcpAck.ip

theorem held_eq_some {s : SegmentState} {mac : MacAddr} {ip : Ipv4Addr} (h : held s mac = some ip) :
    ∃ ack, (s.client mac).phase.acked = some ack ∧ ack.ip = ip := Option.map_eq_some_iff.mp h

theorem succession_run : ∃ s, segment.system.run .initial succession = some s ∧
    held s Lan.Small.client = some Lan.Small.host ∧ held s Lan.Small.other = some Lan.Small.host ∧
    s.server.clock < s.granted Lan.Small.other + lanLease := by
  have hrun : (segment.system.run .initial succession).any (fun s =>
      decide (held s Lan.Small.client = some Lan.Small.host) &&
        decide (held s Lan.Small.other = some Lan.Small.host) &&
        decide (s.server.clock < s.granted Lan.Small.other + lanLease)) = true := by
    decide +kernel
  obtain ⟨s, hs, heq⟩ := Option.any_eq_true _ _ |>.mp hrun
  simp only [Bool.and_eq_true, decide_eq_true_eq, and_assoc] at heq
  exact ⟨s, hs, heq⟩

theorem succession_ownIds : segment.system.Along segment.OwnIds .initial succession := by
  have hcheck : segment.system.check (fun s e => decide (segment.OwnIds s e)) .initial succession = true := by
    decide +kernel
  exact (System.along_of_check hcheck).mono fun _ _ => of_decide_eq_true

theorem succession_oneServer : segment.system.Along segment.OneServer .initial succession := by
  have hcheck : segment.system.check (fun s e => decide (segment.OneServer s e)) .initial succession = true := by
    decide +kernel
  exact (System.along_of_check hcheck).mono fun _ _ => of_decide_eq_true

end Small

end Segment

end RustyRouter
