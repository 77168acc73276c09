import RustyRouter.Lan.Exclusive
import RustyRouter.Lan.Pool

/-! What an OFFER promises.

An OFFER reserves its address: nobody else holds it, the client's own entry is for it and
has not run out, and until it does the client's REQUEST is ACKed, whatever other clients
send in between. A client with a live entry has all that (`live_entry_reserved`). A
DISCOVER re-offers the client's entry without looking at its expiry, so its OFFER is kept
precisely when the entry it found, if any, had not run out (`offer_reserved_iff`). -/
namespace RustyRouter.Lan
open Transition

variable {dhcproto : Dhcproto} {config : ServerConfig}

/-- A REQUEST by `mac` for `ip`: it asks for this address, or for the one it has. -/
def Requests (mac : MacAddr) (ip : Ipv4Addr) (e : Received) : Prop :=
  e.clientMac = mac ∧ e.dhcp.messageType = some .request ∧
    (requestedIpOpt e.dhcp = some ip ∨ requestedIpOpt e.dhcp = none)

/-- The request is answered with an ACK of `ip`. -/
def Acked (dhcproto : Dhcproto) (config : ServerConfig) (s : ServerState) (e : Received)
    (ip : Ipv4Addr) : Prop :=
  ∃ sent, (s.handle dhcproto config e).2 = some sent ∧ sent.message = dhcpReply .ack e.dhcp ip config

/-- In state `s`, `ip` is reserved for `mac`. -/
structure Reserved (dhcproto : Dhcproto) (config : ServerConfig) (s : ServerState) (mac : MacAddr)
    (ip : Ipv4Addr) : Prop where
  unheld : ∀ other, other ≠ mac → ¬ s.leases.Holds s.clock other ip
  own : s.leases.Holds s.clock mac ip
  answered : ∀ lease, s.leases.get mac = some lease →
    ∀ others s' e, (∀ o ∈ others, o.clientMac ≠ mac) →
      (server dhcproto config).run s others = some s' → s'.clock ≤ e.now → e.now < lease.expiry →
      Requests mac ip e → Acked dhcproto config s' e ip

/-! ### Other clients leave a live entry alone -/

/-- A message of another client keeps an entry that has not run out. -/
theorem Change.get_other {now : Nat} {dhcp : Message} {mac other : MacAddr} {t t' : LeaseTable}
    {lease : ClientLease} (h : Change config now dhcp other t t') (hne : mac ≠ other)
    (hget : t.get mac = some lease) (hlt : now < lease.expiry) : t'.get mac = some lease := by
  have hevict : (t.evictExpired now).get mac = some lease :=
    LeaseTable.get_evictExpired_eq_some.mpr ⟨hget, hlt⟩
  cases h with
  | kept => exact hget
  | exhausted => exact hevict
  | allocated => rw [LeaseTable.get_insert, if_neg hne, hevict]
  | granted => rw [LeaseTable.get_insert, if_neg hne, hget]
  | removed => rw [LeaseTable.get_remove, if_neg hne, hget]

/-- As long as other clients are served, an entry stays until it runs out. -/
theorem live_entry_kept {s s' : ServerState} {mac : MacAddr} {lease : ClientLease}
    {others : List Received} (hget : s.leases.get mac = some lease)
    (hothers : ∀ o ∈ others, o.clientMac ≠ mac)
    (h : (server dhcproto config).run s others = some s') (hlt : s'.clock < lease.expiry) :
    s'.leases.get mac = some lease := by
  let Kept (u : ServerState) : Prop := u.clock < lease.expiry → u.leases.get mac = some lease
  have hstep : ∀ u e v, Kept u → e.clientMac ≠ mac →
      (server dhcproto config).step u e = some v → Kept v := by
    intro u e v hu hne hv hlt'
    obtain ⟨hle, hclock, hchange⟩ := server_step dhcproto hv
    have hnow : e.now < lease.expiry := hclock ▸ hlt'
    exact hchange.get_other (Ne.symm hne) (hu (Nat.lt_of_le_of_lt hle hnow)) hnow
  have halong : (server dhcproto config).Along (fun _ e => e.clientMac ≠ mac) s others :=
    System.along_of_forall_mem fun o ho _ => hothers o ho
  have hkept : Kept s := fun _ => hget
  exact (System.always_of_along hstep hkept halong).last h hlt

/-! ### A live entry is a reservation -/

/-- The holder of an address is granted it, also when it asks at once but is heard late. -/
theorem holder_grants (hnet : config.net.Documented) {es : List Received} {s : ServerState}
    (hrun : (server dhcproto config).run .initial es = some s) {mac : MacAddr} {lease : ClientLease}
    (hget : s.leases.get mac = some lease) (hlive : s.clock < lease.expiry) {e : Received}
    (hle : s.clock ≤ e.now) (hreq : Requests mac lease.ip e) :
    Grants config e.now e.dhcp mac s.leases lease.ip := by
  obtain ⟨-, hreq, hask⟩ := hreq
  have hip : requestedIp e.dhcp mac s.leases = some lease.ip := by
    rcases hask with hask | hask
    · simp [requestedIp, hask]
    · simp [requestedIp, hask, hget]
  have hadmitted := reachable_admitted dhcproto hnet hrun mac lease hget
  refine ⟨hreq, hip, validateRequestedIp_iff.mpr ⟨hadmitted.1, hadmitted.2, ?_⟩⟩
  intro other l hl hlip hne
  by_contra hexp
  have hother : s.leases.Holds s.clock other lease.ip := ⟨l, hl, hlip, by omega⟩
  exact hne (reachable_exclusive hrun (Nat.le_refl _) other mac lease.ip hother ⟨lease, hget, rfl, hlive⟩)

theorem holder_acked (henc : dhcproto.Encodes) (hnet : config.net.Documented) {es : List Received}
    {s : ServerState} (hrun : (server dhcproto config).run .initial es = some s) {mac : MacAddr}
    {lease : ClientLease} (hget : s.leases.get mac = some lease) {e : Received}
    (hle : s.clock ≤ e.now) (hlt : e.now < lease.expiry) (hreq : Requests mac lease.ip e) :
    Acked dhcproto config s e lease.ip := by
  have hgrant := holder_grants hnet hrun hget (Nat.lt_of_le_of_lt hle hlt) hle hreq
  obtain ⟨rfl, -, -⟩ := hreq
  unfold Acked ServerState.handle
  rw [dispatch_grants dhcproto hgrant]
  exact sendDhcpReply_of_encodes dhcproto henc .ack lease.ip

/-- **A live entry is a reservation.** -/
theorem live_entry_reserved (henc : dhcproto.Encodes) (hnet : config.net.Documented)
    {es : List Received} {s : ServerState} (hrun : (server dhcproto config).run .initial es = some s)
    {mac : MacAddr} {lease : ClientLease} (hget : s.leases.get mac = some lease)
    (hlt : s.clock < lease.expiry) : Reserved dhcproto config s mac lease.ip where
  unheld other hne hother :=
    hne (reachable_exclusive hrun (Nat.le_refl _) other mac lease.ip hother ⟨lease, hget, rfl, hlt⟩)
  own := ⟨lease, hget, rfl, hlt⟩
  answered := by
    intro lease' hget' others s' e hothers hrun' hle hnow hreq
    obtain rfl : lease = lease' := Option.some.inj (hget.symm.trans hget')
    have hkept := live_entry_kept hget hothers hrun' (Nat.lt_of_le_of_lt hle hnow)
    have hall := (System.run_append_eq_some _).mpr ⟨s, hrun, hrun'⟩
    exact holder_acked henc hnet hall hkept hle hnow hreq

/-! ### Offers -/

/-- The entry the message finds under its client's MAC, if any, has not run out. -/
def FindsLive (s : ServerState) (e : Received) : Prop :=
  ∀ lease, s.leases.get e.clientMac = some lease → e.now < lease.expiry

theorem lanLease_pos : 0 < lanLease := by decide

/-- The entry behind an OFFER, which is live precisely when the one found was. -/
theorem offered_entry {s : ServerState} {e : Received} {sent : Sent} (hdisc : Discovers e.dhcp)
    (hsent : (s.handle dhcproto config e).2 = some sent) :
    sent.message.messageType = some .offer ∧
      ∃ lease, (s.handle dhcproto config e).1.get e.clientMac = some lease ∧
        lease.ip = sent.message.yiaddr ∧ (e.now < lease.expiry ↔ FindsLive s e) := by
  have hanswer := dispatch_answer dhcproto hsent
  unfold ServerState.handle
  generalize (dispatch dhcproto config e.now e.dhcp e.clientMac s.leases).1 = t' at hanswer ⊢
  generalize sent.message = message at hanswer ⊢
  cases hanswer with
  | reoffered existing _ hget =>
    refine ⟨rfl, existing, hget, rfl, fun h lease hlease => ?_, fun h => h existing hget⟩
    rwa [← Option.some.inj (hget.symm.trans hlease)]
  | offered ip _ hnew =>
    refine ⟨rfl, _, LeaseTable.get_insert_self _ _ _, rfl, ?_⟩
    refine iff_of_true (Nat.lt_add_of_pos_right lanLease_pos) fun lease hlease => ?_
    exact absurd (hnew.symm.trans hlease) (by simp)
  | acked ip hgrant => exact absurd hgrant (hdisc.not_grants ip)
  | refused hreq => exact absurd (hdisc.symm.trans hreq) (by decide)

/-- The client of an entry is always sent an OFFER. -/
theorem reoffer_sent (henc : dhcproto.Encodes) {s : ServerState} {e : Received} {lease : ClientLease}
    (hdisc : Discovers e.dhcp) (hget : s.leases.get e.clientMac = some lease) :
    ∃ sent, (s.handle dhcproto config e).2 = some sent := by
  unfold ServerState.handle
  rw [dispatch_reoffers dhcproto hdisc hget]
  obtain ⟨sent, hsent, -⟩ := sendDhcpReply_of_encodes dhcproto henc .offer lease.ip
  exact ⟨sent, hsent⟩

/-- An OFFER is a reservation precisely when the DISCOVER found no entry, or a live one. -/
theorem offer_reserved_iff (henc : dhcproto.Encodes) (hnet : config.net.Documented)
    {es : List Received} {s : ServerState} (hrun : (server dhcproto config).run .initial es = some s)
    {e : Received} {sent : Sent} (hle : s.clock ≤ e.now) (hdisc : Discovers e.dhcp)
    (hsent : (s.handle dhcproto config e).2 = some sent) :
    Reserved dhcproto config ⟨(s.handle dhcproto config e).1, e.now⟩ e.clientMac sent.message.yiaddr ↔
      FindsLive s e := by
  have hrun' := System.run_snoc _ hrun (server_handles dhcproto config hle)
  obtain ⟨-, lease, hget, hip, hlive⟩ := offered_entry hdisc hsent
  rw [← hip, ← hlive]
  refine ⟨fun h => ?_, fun hlt => live_entry_reserved henc hnet hrun' hget hlt⟩
  obtain ⟨lease', hget', -, hlt⟩ := h.own
  rwa [← Option.some.inj (hget.symm.trans hget')] at hlt

/-! ### Runs -/

/-- Every OFFER sent in the run is a reservation. -/
def OffersReserved (dhcproto : Dhcproto) (config : ServerConfig) (es : List Received) : Prop :=
  ∀ before s e sent, before ++ [e] <+: es → (server dhcproto config).run .initial before = some s →
    s.clock ≤ e.now → Discovers e.dhcp → (s.handle dhcproto config e).2 = some sent →
    Reserved dhcproto config ⟨(s.handle dhcproto config e).1, e.now⟩ e.clientMac sent.message.yiaddr

/-- A DISCOVER finds no entry of its client, or one that has not run out. -/
def DiscoversLive (s : ServerState) (e : Received) : Prop := Discovers e.dhcp → FindsLive s e

/-- **The OFFERs of a run are kept** precisely when every DISCOVER of it finds no entry of
its client, or one that has not run out; and in any reachable state this decides it for
the OFFER at hand, whatever went before. -/
theorem offers_reserved_iff (henc : dhcproto.Encodes) (hnet : config.net.Documented)
    (es : List Received) :
    (OffersReserved dhcproto config es ↔
      (server dhcproto config).Along DiscoversLive .initial es) ∧
    ∀ s, (server dhcproto config).run .initial es = some s → ∀ e sent, s.clock ≤ e.now →
      Discovers e.dhcp → (s.handle dhcproto config e).2 = some sent →
      (Reserved dhcproto config ⟨(s.handle dhcproto config e).1, e.now⟩ e.clientMac
        sent.message.yiaddr ↔ FindsLive s e) := by
  refine ⟨⟨fun h before e s u hb hrun hstep hdisc lease hget => ?_, ?_⟩, ?_⟩
  · -- an entry is always offered again, so a dead one would be a broken OFFER
    obtain ⟨hle, -, -⟩ := server_step dhcproto hstep
    obtain ⟨sent, hsent⟩ := reoffer_sent henc hdisc hget
    exact (offer_reserved_iff henc hnet hrun hle hdisc hsent).mp
      (h before s e sent hb hrun hle hdisc hsent) lease hget
  · intro h before s e sent hb hrun hle hdisc hsent
    exact (offer_reserved_iff henc hnet hrun hle hdisc hsent).mpr
      (h before e s _ hb hrun (server_handles dhcproto config hle) hdisc)
  · exact fun s hrun e sent hle hdisc hsent => offer_reserved_iff henc hnet hrun hle hdisc hsent

/-- On the small network, for the DISCOVER of a new client. -/
theorem offers_reserved_small :
    OffersReserved Wire.dhcproto Small.router [Small.discover 0 Small.client] ↔
      (server Wire.dhcproto Small.router).Along DiscoversLive .initial [Small.discover 0 Small.client] :=
  (offers_reserved_iff Wire.dhcproto_encodes Small.net_documented _).1

/-- A broken OFFER: the address of a lease that ran out has been granted to a second
client when the first one's DISCOVER is answered with it again. -/
theorem leased_address_offered : ¬ ∀ es, OffersReserved Wire.dhcproto Small.router es := by
  intro h
  have hreserved := h (Small.contested ++ [Small.discover 3601 Small.client]) Small.contested _
    (Small.discover 3601 Small.client) _ (List.prefix_refl _) rfl (by decide) rfl rfl
  exact hreserved.unheld Small.other (by decide) ⟨_, rfl, rfl, by decide⟩

end RustyRouter.Lan
