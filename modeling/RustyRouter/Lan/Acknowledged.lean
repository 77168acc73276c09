import RustyRouter.Lan.Renewal

/-! An acknowledged lease is exclusive.

From the moment an address is ACKed, it belongs to the client for a whole lease: until
then, and as long as the client does not give it up, no other client is ACKed it, whatever
is sent in between (`acked_exclusive`). A client gives its address up with a DECLINE, a
RELEASE or a REQUEST for another one; a DISCOVER does not, whatever it asks for. The one
other client that may still be offered the address is one whose own lease on it has run
out. -/
namespace RustyRouter.Lan
open Transition

/-- The client of the message does not give the address up with it, if it is `mac`: it neither
declines nor releases it, nor requests another one. -/
def Keeps (mac : MacAddr) (ip : Ipv4Addr) (e : Received) : Prop :=
  e.clientMac = mac → ¬ Removes e.dhcp ∧
    (e.dhcp.messageType = some .request → requestedIpOpt e.dhcp = none ∨ requestedIpOpt e.dhcp = some ip)

/-- The entry of `mac` is for `ip`, and lasts until then. -/
def LeaseTable.Lasts (t : LeaseTable) (mac : MacAddr) (ip : Ipv4Addr) (deadline : Nat) : Prop :=
  ∃ lease, t.get mac = some lease ∧ lease.ip = ip ∧ deadline ≤ lease.expiry

variable {dhcproto : Dhcproto} {config : ServerConfig} {s s' : ServerState} {mac : MacAddr} {ip : Ipv4Addr}
  {e e' : Received} {deadline : Nat}

/-- What the client of the entry can be granted is the address it keeps. -/
theorem Keeps.grants_ip {t : LeaseTable} {now : Nat} {ip' : Ipv4Addr} (h : Keeps mac ip e) (hmac : e.clientMac = mac)
    (hlasts : t.Lasts mac ip deadline) (hgrant : Grants config now e.dhcp mac t ip') : ip' = ip := by
  obtain ⟨lease, hget, rfl, -⟩ := hlasts
  have hasked := hgrant.2.1
  rcases (h hmac).2 hgrant.1 with hnone | hsome
  · simp only [requestedIp, hnone, hget, Option.map_some, Option.some.injEq] at hasked
    exact hasked.symm
  · simp only [requestedIp, hsome, Option.some.injEq] at hasked
    exact hasked.symm

/-- One message before then keeps the entry, and may prolong it. -/
theorem lasts_step (hs : s.leases.Lasts mac ip deadline) (hclock : deadline ≤ s.clock + lanLease)
    (hkeeps : Keeps mac ip e) (h : (server dhcproto config).step s e = some s') (hlt : e.now < deadline) :
    s'.leases.Lasts mac ip deadline := by
  obtain ⟨hle, -, hchange⟩ := server_step dhcproto h
  have hprolonged : deadline ≤ e.now + lanLease := hclock.trans (Nat.add_le_add_right hle _)
  obtain ⟨lease, hget, hip, huntil⟩ := hs
  have hevict : (s.leases.evictExpired e.now).get mac = some lease :=
    LeaseTable.get_evictExpired_eq_some.mpr ⟨hget, Nat.lt_of_lt_of_le hlt huntil⟩
  by_cases hmac : e.clientMac = mac
  · subst hmac
    generalize s'.leases = t' at hchange ⊢
    cases hchange with
    | kept => exact ⟨lease, hget, hip, huntil⟩
    | exhausted => exact ⟨lease, hevict, hip, huntil⟩
    | allocated _ _ hnew => exact absurd (hget.symm.trans hnew) (by simp)
    | granted ip' hgrant =>
      have hsame : ip' = ip := hkeeps.grants_ip rfl ⟨lease, hget, hip, huntil⟩ hgrant
      exact ⟨⟨ip', e.now + lanLease⟩, LeaseTable.get_insert_self _ _ _, hsame, hprolonged⟩
    | removed hremove => exact absurd hremove (hkeeps rfl).1
  · have hother := hchange.get_other (Ne.symm hmac) hget (Nat.lt_of_lt_of_le hlt huntil)
    exact ⟨lease, hother, hip, huntil⟩

theorem lasts_run {es : List Received} (hs : s.leases.Lasts mac ip deadline) (hclock : deadline ≤ s.clock + lanLease)
    (hkeeps : ∀ o ∈ es, Keeps mac ip o) (h : (server dhcproto config).run s es = some s')
    (hlt : s'.clock < deadline) : s'.leases.Lasts mac ip deadline := by
  let Kept (u : ServerState) : Prop :=
    deadline ≤ u.clock + lanLease ∧ (u.clock < deadline → u.leases.Lasts mac ip deadline)
  have hstep : ∀ u o v, Kept u → Keeps mac ip o → (server dhcproto config).step u o = some v → Kept v := by
    intro u o v ⟨hu, hlasts⟩ ho hv
    obtain ⟨hle, hnow, -⟩ := server_step dhcproto hv
    rw [← hnow] at hle
    refine ⟨hu.trans (Nat.add_le_add_right hle _), fun hlt => ?_⟩
    exact lasts_step (hlasts (Nat.lt_of_le_of_lt hle hlt)) hu ho hv (hnow ▸ hlt)
  have halong : (server dhcproto config).Along (fun _ o => Keeps mac ip o) s es :=
    System.along_of_forall_mem fun o ho _ => hkeeps o ho
  have hkept : Kept s := ⟨hclock, fun _ => hs⟩
  exact ((System.always_of_along hstep hkept halong).last h).2 hlt

/-- The client of an ACK has an entry for a whole lease. -/
theorem acked_lasts (h : (server dhcproto config).step s e = some s') {sent : Sent}
    (hsent : (s.handle dhcproto config e).2 = some sent) (hack : sent.message.messageType = some .ack) :
    s'.leases.Lasts e.clientMac sent.message.yiaddr (e.now + lanLease) ∧ s'.clock = e.now := by
  obtain ⟨-, rfl⟩ := (server_step_eq_some dhcproto).mp h
  refine ⟨?_, rfl⟩
  have hanswer := dispatch_answer dhcproto hsent
  show LeaseTable.Lasts (dispatch dhcproto config e.now e.dhcp e.clientMac s.leases).1 _ _ _
  generalize (dispatch dhcproto config e.now e.dhcp e.clientMac s.leases).1 = t' at hanswer
  generalize sent.message = message at hanswer hack
  cases hanswer with
  | reoffered => exact absurd hack (by simp)
  | offered => exact absurd hack (by simp)
  | acked ip => exact ⟨⟨ip, e.now + lanLease⟩, LeaseTable.get_insert_self _ _ _, rfl, Nat.le_refl _⟩
  | refused => exact absurd hack (by simp)

/-- Nobody is ACKed an address that another client's entry lasts on, and only the client of
an entry that has run out is offered it. -/
theorem lasting_refused {t : LeaseTable} {now : Nat} {dhcp : Message} {other : MacAddr} {sent : Sent}
    (hlasts : t.Lasts mac ip deadline) (hlt : now < deadline) (hne : other ≠ mac)
    (hsent : (dispatch dhcproto config now dhcp other t).2 = some sent) (hip : sent.message.yiaddr = ip) :
    sent.message.messageType ≠ some .ack ∧ (sent.message.messageType = some .offer →
      ∃ lease, t.get other = some lease ∧ lease.ip = ip) := by
  obtain ⟨lease, hget, hleased, huntil⟩ := hlasts
  have hlive : now < lease.expiry := Nat.lt_of_lt_of_le hlt huntil
  have hanswer := dispatch_answer dhcproto hsent
  generalize (dispatch dhcproto config now dhcp other t).1 = t' at hanswer
  generalize sent.message = message at hanswer hip
  cases hanswer with
  | reoffered existing _ hexisting => exact ⟨by simp, fun _ => ⟨existing, hexisting, hip⟩⟩
  | offered ip' _ _ _ _ hfree =>
    have hevict := LeaseTable.get_evictExpired_eq_some.mpr ⟨hget, hlive⟩
    exact absurd (hleased.trans hip.symm) (hfree mac lease hevict)
  | acked ip' hgrant =>
    have hexpired := hgrant.valid.2.2 mac lease hget (hleased.trans hip.symm) (Ne.symm hne)
    exact absurd hlive (Nat.not_lt.mpr hexpired)
  | refused => exact ⟨by simp, fun hoffer => absurd hoffer (by simp)⟩

/-- **An acknowledged lease is exclusive.** After an ACK, and until its lease has run its
time, no other client is ACKed the address, whatever the server is sent in between, unless
the client gives it up; and one that is offered it had a lease on it before. -/
theorem acked_exclusive {es later : List Received} {s₀ : ServerState} {sent sent' : Sent}
    (hrun : (server dhcproto config).run .initial es = some s₀)
    (hsent : (s₀.handle dhcproto config e).2 = some sent) (hack : sent.message.messageType = some .ack)
    (hlater : (server dhcproto config).run s₀ (e :: later) = some s)
    (hkeeps : ∀ o ∈ later, Keeps e.clientMac sent.message.yiaddr o)
    (hle : s.clock ≤ e'.now) (hlt : e'.now < e.now + lanLease) (hne : e'.clientMac ≠ e.clientMac)
    (hsent' : (s.handle dhcproto config e').2 = some sent') (hip : sent'.message.yiaddr = sent.message.yiaddr) :
    sent'.message.messageType ≠ some .ack ∧ (sent'.message.messageType = some .offer →
      ∃ lease, s.leases.get e'.clientMac = some lease ∧ lease.ip = sent.message.yiaddr ∧ lease.expiry ≤ e'.now) := by
  obtain ⟨u, hstep, hrest⟩ := (System.run_cons_eq_some _).mp hlater
  obtain ⟨hacked, hclock⟩ := acked_lasts hstep hsent hack
  have hlasts := lasts_run hacked (Nat.le_of_eq (by rw [hclock])) hkeeps hrest (Nat.lt_of_le_of_lt hle hlt)
  obtain ⟨hnack, hstale⟩ := lasting_refused hlasts hlt hne hsent' hip
  refine ⟨hnack, fun hoffer => ?_⟩
  obtain ⟨lease, hget, hleased⟩ := hstale hoffer
  refine ⟨lease, hget, hleased, Nat.not_lt.mp fun hlive => hne ?_⟩
  obtain ⟨own, hown, hownIp, huntil⟩ := hlasts
  have hall := (System.run_append_eq_some _).mpr ⟨s₀, hrun, hlater⟩
  exact reachable_exclusive hall hle e'.clientMac e.clientMac sent.message.yiaddr ⟨lease, hget, hleased, hlive⟩
    ⟨own, hown, hownIp, Nat.lt_of_lt_of_le hlt huntil⟩

/-- On the small network: a second client is ACKed the host when the first one's lease on it
has run out, and the first one is re-offered it. -/
theorem acked_exclusive_small : ∃ s sent',
    (server Wire.dhcproto Small.router).run .initial Small.contested = some s ∧
      (s.handle Wire.dhcproto Small.router (Small.discover 3601 Small.client)).2 = some sent' ∧
      sent'.message.yiaddr = Small.host ∧ sent'.message.messageType ≠ some .ack := by
  let lan := server Wire.dhcproto Small.router
  let takes := Small.request 3600 Small.other Small.host
  let returns := Small.discover 3601 Small.client
  have hcourse : (lan.run .initial [Small.discover 0 Small.client]).any (fun s₀ =>
      (s₀.handle Wire.dhcproto Small.router takes).2.any (fun sent =>
        decide (sent.message.messageType = some .ack) && decide (sent.message.yiaddr = Small.host)) &&
      (lan.run s₀ [takes]).any fun s => (s.handle Wire.dhcproto Small.router returns).2.any fun sent' =>
        decide (sent'.message.yiaddr = Small.host) && decide (s.clock ≤ returns.now)) = true := by
    decide +kernel
  obtain ⟨s₀, hrun, hcourse⟩ := (Option.any_eq_true _ _).mp hcourse
  obtain ⟨htaken, hreturned⟩ := Bool.and_eq_true_iff.mp hcourse
  obtain ⟨sent, hsent, hack⟩ := (Option.any_eq_true _ _).mp htaken
  obtain ⟨s, hlater, hreturned⟩ := (Option.any_eq_true _ _).mp hreturned
  obtain ⟨sent', hsent', hoffer⟩ := (Option.any_eq_true _ _).mp hreturned
  simp only [Bool.and_eq_true, decide_eq_true_eq] at hack hoffer
  refine ⟨s, sent', (System.run_append_eq_some _).mpr ⟨s₀, hrun, hlater⟩, hsent', hoffer.1, ?_⟩
  exact (acked_exclusive hrun hsent hack.1 hlater (by simp) hoffer.2 (by decide) (by decide) hsent'
    (hoffer.1.trans hack.2.symm)).1

end RustyRouter.Lan
