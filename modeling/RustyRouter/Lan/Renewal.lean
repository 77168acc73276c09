import RustyRouter.Lan.Offer

/-! Renewals.

A client that has been leased an address only renews it from then on: its REQUESTs name no
address, and the server takes them to be about the client's entry. So the entry stays on
its address for good (`entry_ip_run`), other clients leave it alone while it lasts, and a
renewal that comes in time is granted and moves the end of the lease (`renewal_granted`). -/
namespace RustyRouter.Lan
open Transition

/-- A REQUEST by `mac` that asks for no particular address. -/
structure Renews (mac : MacAddr) (e : Received) : Prop where
  client : e.clientMac = mac
  request : e.dhcp.messageType = some .request
  unnamed : requestedIpOpt e.dhcp = none

/-- From another client, or a renewal. -/
def OnlyRenews (mac : MacAddr) (e : Received) : Prop := e.clientMac = mac → Renews mac e

/-- The entry of `mac`, as long as there is one, is for `ip`. -/
def LeaseTable.EntryFor (t : LeaseTable) (mac : MacAddr) (ip : Ipv4Addr) : Prop :=
  ∀ lease, t.get mac = some lease → lease.ip = ip

variable {dhcproto : Dhcproto} {config : ServerConfig} {s s' : ServerState} {mac : MacAddr} {ip : Ipv4Addr}
  {e : Received}

/-- A renewal is granted the address of the entry, if it is granted any. -/
theorem Renews.grants_ip {now : Nat} {t : LeaseTable} {ip' : Ipv4Addr} (h : Renews mac e)
    (hentry : t.EntryFor mac ip) (hgrant : Grants config now e.dhcp mac t ip') : ip' = ip := by
  have hasked := hgrant.2.1
  simp only [requestedIp, h.unnamed, Option.map_eq_some_iff] at hasked
  obtain ⟨lease, hget, rfl⟩ := hasked
  exact hentry lease hget

theorem entry_ip_step (hentry : s.leases.EntryFor mac ip) (honly : OnlyRenews mac e)
    (h : (server dhcproto config).step s e = some s') : s'.leases.EntryFor mac ip := by
  obtain ⟨-, -, hchange⟩ := server_step dhcproto h
  have hevict : ∀ lease, (s.leases.evictExpired e.now).get mac = some lease → lease.ip = ip :=
    fun lease hget => hentry lease (LeaseTable.get_evictExpired_eq_some.mp hget).1
  generalize s'.leases = t' at hchange ⊢
  intro lease hget
  by_cases hmac : mac = e.clientMac
  · subst hmac
    have hrenews := honly rfl
    cases hchange with
    | kept => exact hentry lease hget
    | exhausted => exact hevict lease hget
    | allocated _ hdisc => exact absurd (hdisc.symm.trans hrenews.request) (by decide)
    | granted ip' hgrant =>
      rw [LeaseTable.get_insert_self] at hget
      rw [← Option.some.inj hget]
      exact hrenews.grants_ip hentry hgrant
    | removed hremove =>
      exact absurd hremove (not_removes_of_messageType hrenews.request (by decide) (by decide))
  · cases hchange with
    | kept => exact hentry lease hget
    | exhausted => exact hevict lease hget
    | allocated =>
      rw [LeaseTable.get_insert, if_neg hmac] at hget
      exact hevict lease hget
    | granted =>
      rw [LeaseTable.get_insert, if_neg hmac] at hget
      exact hentry lease hget
    | removed =>
      rw [LeaseTable.get_remove, if_neg hmac] at hget
      exact hentry lease hget

/-- The entry stays on its address while the client only renews it. -/
theorem entry_ip_run {es : List Received} (hentry : s.leases.EntryFor mac ip)
    (honly : ∀ o ∈ es, OnlyRenews mac o) (h : (server dhcproto config).run s es = some s') :
    s'.leases.EntryFor mac ip := by
  have hstep : ∀ u e v, LeaseTable.EntryFor u.leases mac ip → OnlyRenews mac e →
      (server dhcproto config).step u e = some v → LeaseTable.EntryFor v.leases mac ip :=
    fun u e v hu ho hv => entry_ip_step hu ho hv
  have halong : (server dhcproto config).Along (fun _ e => OnlyRenews mac e) s es :=
    System.along_of_forall_mem fun o ho _ => honly o ho
  exact (System.always_of_along hstep hentry halong).last h

/-- **A renewal in time is granted**: whatever other clients have sent since the entry was
looked at, it is ACKed with the address of the entry, and the lease runs on from then. -/
theorem renewal_granted (hnet : config.net.Documented) {es others : List Received}
    (hrun : (server dhcproto config).run .initial es = some s) {lease : ClientLease}
    (hget : s.leases.get mac = some lease) (hothers : ∀ o ∈ others, o.clientMac ≠ mac)
    (hrun' : (server dhcproto config).run s others = some s') (hle : s'.clock ≤ e.now)
    (hlt : e.now < lease.expiry) (hrenews : Renews mac e) :
    s'.handle dhcproto config e = (s'.leases.insert mac ⟨lease.ip, e.now + lanLease⟩,
      sendDhcpReply dhcproto config .ack e.dhcp mac lease.ip) := by
  have hkept := live_entry_kept hget hothers hrun' (Nat.lt_of_le_of_lt hle hlt)
  have hall := (System.run_append_eq_some _).mpr ⟨s, hrun, hrun'⟩
  have hrequests : Requests mac lease.ip e := ⟨hrenews.client, hrenews.request, .inr hrenews.unnamed⟩
  have hgrant := holder_grants hnet hall hkept (Nat.lt_of_le_of_lt hle hlt) hle hrequests
  rw [ServerState.handle, hrenews.client, dispatch_grants dhcproto hgrant]

end RustyRouter.Lan
