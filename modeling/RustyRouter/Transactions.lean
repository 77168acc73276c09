import RustyRouter.Exchange
import RustyRouter.Wan.Progress

/-! What a client asks for under one transaction ID.

While the client waits for an answer, its log ends in REQUESTs that all ask for the same, and
no other REQUEST has the transaction's ID, provided that the IDs it draws are new
(`stance_step`). -/
namespace RustyRouter
open Transition Wan Lan

variable {c : DhcpClient} {s t : ClientState} {e : Wan.Event}

/-! ### The log -/

/-- A message of the transaction is in the log. -/
def Used (log : List Sending) (xid : UInt32) : Prop := ∃ x ∈ log, x.message.xid = xid

instance (log : List Sending) (xid : UInt32) : Decidable (Used log xid) :=
  inferInstanceAs (Decidable (∃ x ∈ log, x.message.xid = xid))

def Wan.Sending.IsRequest (x : Sending) : Prop := x.message.messageType = some .request

/-- The log ends in REQUESTs for `asked`, and no other REQUEST is of the transaction. -/
def AsksFor (log : List Sending) (xid : UInt32) (asked : Option Ipv4Addr) : Prop :=
  ∃ before after, log = before ++ after ∧ (∀ x ∈ before, x.message.xid = xid → ¬ x.IsRequest) ∧
    ∀ x ∈ after, x.IsRequest ∧ requestedIpOpt x.message = asked

/-- What a renewal asks for by its option: nothing, as the client has the address. -/
def renewalAsks (ip : Ipv4Addr) : Option Ipv4Addr := if ip.isUnspecified then some ip else none

/-- What the log says about the transaction under way. -/
def Wan.Phase.Stance (log : List Sending) : Phase → Prop
  | .discovering xid _ _ => Used log xid ∧ ∀ x ∈ log, x.message.xid = xid → ¬ x.IsRequest
  | .requesting xid offer _ _ => Used log xid ∧ AsksFor log xid (some offer.offeredIp)
  | .renewing ack _ xid _ _ => Used log xid ∧ AsksFor log xid (renewalAsks ack.ip)
  | _ => True

section Messages
variable (c : DhcpClient) (xid : UInt32) (offer : DhcpOffer) (ack : DhcpAck) (boundAt time : Nat)

theorem looks_xid : (c.looks xid time).message.xid = xid := rfl

theorem looks_not_request : ¬ (c.looks xid time).IsRequest := by
  show ¬ (discover c.mac xid).messageType = some .request
  simp [discover, Message.messageType, Message.get_withOption, DhcpOption.code]

theorem asks_xid : (c.asks xid offer time).message.xid = xid := request_xid ..

theorem asks_request : (c.asks xid offer time).IsRequest ∧
    requestedIpOpt (c.asks xid offer time).message = some offer.offeredIp :=
  ⟨request_messageType c.mac xid _ _ _, requestedIpOpt_request c.mac xid _ _ _⟩

theorem prolongs_xid : (c.prolongs ack boundAt xid time).message.xid = xid := request_xid ..

theorem prolongs_request : (c.prolongs ack boundAt xid time).IsRequest ∧
    requestedIpOpt (c.prolongs ack boundAt xid time).message = renewalAsks ack.ip :=
  ⟨request_messageType c.mac xid ack.ip none ack.ip, requestedIpOpt_request c.mac xid ack.ip none ack.ip⟩

end Messages

section Log
variable {log : List Sending} {xid : UInt32} {asked : Option Ipv4Addr} {x : Sending}

theorem Used.snoc (h : Used log xid) (x : Sending) : Used (log ++ [x]) xid :=
  h.imp fun _ hy => ⟨List.mem_append_left _ hy.1, hy.2⟩

theorem used_snoc (log : List Sending) (h : x.message.xid = xid) : Used (log ++ [x]) xid := ⟨x, by simp, h⟩

/-- The first REQUEST of a transaction. -/
theorem asksFor_first (hlog : ∀ y ∈ log, y.message.xid = xid → ¬ y.IsRequest)
    (hx : x.IsRequest ∧ requestedIpOpt x.message = asked) : AsksFor (log ++ [x]) xid asked :=
  ⟨log, [x], rfl, hlog, List.forall_mem_singleton.mpr hx⟩

/-- The same REQUEST once more. -/
theorem AsksFor.snoc (h : AsksFor log xid asked) (hx : x.IsRequest ∧ requestedIpOpt x.message = asked) :
    AsksFor (log ++ [x]) xid asked := by
  obtain ⟨before, after, rfl, hbefore, hafter⟩ := h
  refine ⟨before, after ++ [x], List.append_assoc .., hbefore, fun y hy => ?_⟩
  rcases List.mem_append.mp hy with hy | hy
  · exact hafter y hy
  · exact List.mem_singleton.mp hy ▸ hx

end Log

/-- **One step of the client**, whose draw is new to its log. -/
theorem stance_step (hfresh : ∀ x ∈ s.sent, x.message.xid ≠ e.xid) (hs : s.phase.Stance s.sent)
    (h : Progress c s e t) : t.phase.Stance t.sent := by
  have hnew : ∀ x ∈ s.sent, x.message.xid = e.xid → ¬ x.IsRequest := fun x hx hxid => absurd hxid (hfresh x hx)
  cases h with
  | waits hsent hphase => rwa [hsent, hphase]
  | rests hsent hnone =>
    generalize t.phase = phase at hnone
    cases phase <;> simp_all [Phase.transaction, Phase.Stance]
  | accepts ack hack hsent hnone =>
    generalize t.phase = phase at hnone
    cases phase <;> simp_all [Phase.transaction, Phase.Stance]
  | discovers xid hxid hsent hphase =>
    obtain ⟨delay, deadline, hphase⟩ := hphase
    rw [hphase, hsent]
    refine ⟨used_snoc _ (looks_xid ..), fun x hx => ?_⟩
    rcases List.mem_append.mp hx with hx | hx
    · rcases hxid with heq | ⟨_, _, hfrom⟩
      · exact heq ▸ hnew x hx
      · rw [hfrom] at hs
        exact hs.2 x hx
    · rw [List.mem_singleton.mp hx]
      exact fun _ => looks_not_request c xid s.now
  | requests xid offer hfrom hsent hphase =>
    obtain ⟨delay, deadline, hphase⟩ := hphase
    rw [hphase, hsent]
    refine ⟨used_snoc _ (asks_xid ..), ?_⟩
    rcases hfrom with ⟨_, _, _, hfrom, -, -⟩ | ⟨_, _, hfrom⟩
    · rw [hfrom] at hs
      exact asksFor_first hs.2 (asks_request ..)
    · rw [hfrom] at hs
      exact hs.2.snoc (asks_request ..)
  | renews ack boundAt xid _ hfrom _ hsent hphase =>
    obtain ⟨sentAt, deadline, hphase⟩ := hphase
    rw [hphase, hsent]
    refine ⟨used_snoc _ (prolongs_xid ..), ?_⟩
    rcases hfrom with ⟨rfl, -⟩ | ⟨_, _, hfrom⟩
    · exact asksFor_first hnew (prolongs_request ..)
    · rw [hfrom] at hs
      exact hs.2.snoc (prolongs_request ..)
  | listens ack boundAt xid hsent hfrom hphase =>
    obtain ⟨_, _, hfrom⟩ := hfrom
    obtain ⟨_, _, hphase⟩ := hphase
    rw [hfrom] at hs
    rw [hphase, hsent]
    exact hs

theorem stance_used {log : List Sending} {phase : Phase} {xid : UInt32} (h : phase.Stance log)
    (hxid : phase.transaction = some xid) : Used log xid := by
  cases phase with
  | discovering =>
    obtain rfl := Option.some.inj hxid
    exact h.1
  | requesting =>
    obtain rfl := Option.some.inj hxid
    exact h.1
  | renewing =>
    obtain rfl := Option.some.inj hxid
    exact h.1
  | _ => exact absurd hxid (by simp [Phase.transaction])

/-- What is added to the log, and under which transaction. -/
theorem Wan.Progress.sent (h : Progress c s e t) (hs : s.phase.Stance s.sent) :
    ∃ more, t.sent = s.sent ++ more ∧ (∀ x ∈ more, x.message.Plain) ∧
      ∀ xid, Used t.sent xid → Used s.sent xid ∨ xid = e.xid := by
  have hsilent : t.sent = s.sent → ∃ more, t.sent = s.sent ++ more ∧ (∀ x ∈ more, x.message.Plain) ∧
      ∀ xid, Used t.sent xid → Used s.sent xid ∨ xid = e.xid := by
    intro hsent
    exact ⟨[], by rw [hsent, List.append_nil], by simp, fun xid hused => .inl (hsent ▸ hused)⟩
  have hsaid : ∀ x, x.message.Plain → x.message.xid = e.xid ∨ s.phase.transaction = some x.message.xid →
      t.sent = s.sent ++ [x] → ∃ more, t.sent = s.sent ++ more ∧ (∀ x ∈ more, x.message.Plain) ∧
        ∀ xid, Used t.sent xid → Used s.sent xid ∨ xid = e.xid := by
    intro x hplain hxid hsent
    refine ⟨[x], hsent, List.forall_mem_singleton.mpr hplain, ?_⟩
    rintro xid ⟨y, hy, rfl⟩
    rw [hsent] at hy
    rcases List.mem_append.mp hy with hy | hy
    · exact .inl ⟨y, hy, rfl⟩
    · rw [List.mem_singleton.mp hy]
      exact hxid.symm.imp (stance_used hs) id
  cases h with
  | waits hsent => exact hsilent hsent
  | rests hsent => exact hsilent hsent
  | accepts _ _ hsent => exact hsilent hsent
  | discovers xid hxid hsent =>
    refine hsaid _ (discover_plain c.mac xid) (hxid.imp id ?_) hsent
    rintro ⟨_, _, hfrom⟩
    rw [hfrom]
    rfl
  | requests xid offer hfrom hsent =>
    refine hsaid _ (request_plain ..) (.inr ?_) hsent
    rw [asks_xid]
    rcases hfrom with ⟨_, _, _, hfrom, -, -⟩ | ⟨_, _, hfrom⟩ <;> rw [hfrom] <;> rfl
  | renews ack boundAt xid _ hfrom _ hsent =>
    refine hsaid _ (request_plain c.mac xid ack.ip none ack.ip) ?_ hsent
    rw [prolongs_xid]
    refine hfrom.imp And.left ?_
    rintro ⟨_, _, hfrom⟩
    rw [hfrom]
    rfl
  | listens _ _ _ hsent => exact hsilent hsent

/-- What the log says about the transaction whose ACK the client waits for. -/
theorem stance_asks {log : List Sending} {phase : Phase} {xid : UInt32} (h : phase.Stance log)
    (hxid : phase.awaitsAck = some xid) : Used log xid ∧ ∃ asked, AsksFor log xid asked := by
  cases phase with
  | requesting =>
    obtain rfl := Option.some.inj hxid
    exact ⟨h.1, _, h.2⟩
  | renewing =>
    obtain rfl := Option.some.inj hxid
    exact ⟨h.1, _, h.2⟩
  | _ => exact absurd hxid (by simp [Phase.awaitsAck])

/-- From a REQUEST of the transaction on, the log asks for what that one asks for. -/
theorem AsksFor.drop {log : List Sending} {xid : UInt32} {asked : Option Ipv4Addr} (h : AsksFor log xid asked)
    {i : Nat} {x : Sending} (hx : log[i]? = some x) (hxid : x.message.xid = xid) (hreq : x.IsRequest) :
    ∀ y ∈ log.drop i, y.IsRequest ∧ requestedIpOpt y.message = requestedIpOpt x.message := by
  obtain ⟨before, after, rfl, hbefore, hafter⟩ := h
  have hle : before.length ≤ i := by
    by_contra hlt
    rw [List.getElem?_append_left (Nat.not_le.mp hlt)] at hx
    exact hbefore x (List.mem_of_getElem? hx) hxid hreq
  have hx' : x ∈ after := by
    rw [List.getElem?_append_right hle] at hx
    exact List.mem_of_getElem? hx
  intro y hy
  rw [List.drop_append, List.drop_of_length_le hle, List.nil_append] at hy
  have hy' := hafter y (List.mem_of_mem_drop hy)
  exact ⟨hy'.1, hy'.2.trans (hafter x hx').2.symm⟩

theorem parseAckNak_ack {dhcproto : Dhcproto} {buf : List UInt8} {xid : UInt32} {ack : DhcpAck}
    (h : parseAckNak dhcproto buf xid = .ack ack) :
    ∃ m, dhcproto.decode buf = some m ∧ m.xid = xid ∧ m.messageType = some .ack ∧ m.yiaddr = ack.ip := by
  unfold parseAckNak at h
  split at h
  · simp at h
  · rename_i m hdecode
    split at h
    · simp at h
    · rename_i hxid
      split at h
      · rename_i hack
        obtain rfl := ParseAckResult.ack.inj h
        exact ⟨m, hdecode, not_not.mp hxid, hack, rfl⟩
      · simp at h
      · simp at h

end RustyRouter
