import RustyRouter.Lan.Runs
import RustyRouter.Leasing

/-! No double lease.

The server refines the lease service: a table is read as what each MAC was granted and
until when, and handling a message is letting time pass, then letting go of leases, then
granting an address nobody else holds. So the table's leases are exclusive in every run
(`no_double_lease`), although expired entries for the same address may stay in the map. -/
namespace RustyRouter.Lan
open Transition

/-- At `now`, `mac` has an unexpired lease on `ip`. -/
def LeaseTable.Holds (t : LeaseTable) (now : Nat) (mac : MacAddr) (ip : Ipv4Addr) : Prop :=
  ∃ lease, t.get mac = some lease ∧ lease.ip = ip ∧ now < lease.expiry

namespace LeaseTable

/-- The table as the lease service sees it. -/
def held (t : LeaseTable) : Leasing.Held MacAddr Ipv4Addr Nat :=
  fun mac => (t.get mac).map fun lease => (lease.ip, lease.expiry)

variable {t : LeaseTable} {now : Nat} {mac : MacAddr}

theorem held_eq_some {ip : Ipv4Addr} {expiry : Nat} :
    t.held mac = some (ip, expiry) ↔ t.get mac = some ⟨ip, expiry⟩ := by
  simp only [held, Option.map_eq_some_iff, Prod.mk.injEq]
  refine ⟨fun h => ?_, fun h => ⟨_, h, rfl, rfl⟩⟩
  obtain ⟨lease, hget, rfl, rfl⟩ := h
  exact hget

theorem holds_iff {ip : Ipv4Addr} : Leasing.Holds t.held now mac ip ↔ t.Holds now mac ip := by
  simp only [Leasing.Holds, held_eq_some, Holds]
  refine ⟨fun h => ?_, fun h => ?_⟩
  · obtain ⟨expiry, hget, hlt⟩ := h
    exact ⟨_, hget, rfl, hlt⟩
  · obtain ⟨lease, hget, rfl, hlt⟩ := h
    exact ⟨lease.expiry, hget, hlt⟩

theorem held_insert (ip : Ipv4Addr) (expiry : Nat) :
    (t.insert mac ⟨ip, expiry⟩).held = Function.update t.held mac (some (ip, expiry)) := by
  funext other
  by_cases h : other = mac
  · subst h
    simp [held]
  · simp [held, get_insert, h]

theorem held_remove :
    (t.remove mac).1.held = fun other => if other == mac then none else t.held other := by
  funext other
  by_cases h : other = mac
  · simp [held, get_remove, h]
  · simp [held, get_remove, h]

/-- An eviction lets go of the leases that have run out. -/
theorem held_evictExpired :
    (t.evictExpired now).held = fun other =>
      if (t.get other).any (fun lease => decide (lease.expiry ≤ now)) then none else t.held other := by
  funext other
  unfold held
  rw [get_evictExpired]
  cases h : t.get other with
  | none => simp
  | some lease =>
    rw [Option.filter_some]
    by_cases hlt : now < lease.expiry
    · simp [hlt, Nat.not_le.mpr hlt]
    · simp [hlt, Nat.not_lt.mp hlt]

end LeaseTable

/-! ### The refinement -/

/-- The server's state as the lease service's. -/
def ServerState.service (s : ServerState) : Leasing.State MacAddr Ipv4Addr Nat :=
  ⟨s.leases.held, s.clock⟩

/-- What a message does to the table, the lease service may do. -/
theorem change_reaches {config : ServerConfig} {now clock : Nat} {dhcp : Message} {mac : MacAddr}
    {t t' : LeaseTable} (hle : clock ≤ now) (h : Change config now dhcp mac t t') :
    (Leasing.service MacAddr Ipv4Addr Nat).Reaches ⟨t.held, clock⟩ ⟨t'.held, now⟩ := by
  have hwait : (Leasing.service MacAddr Ipv4Addr Nat).Reaches ⟨t.held, clock⟩ ⟨t.held, now⟩ :=
    Leasing.reaches_wait hle
  have hevict : (Leasing.service MacAddr Ipv4Addr Nat).Reaches ⟨t.held, now⟩
      ⟨(t.evictExpired now).held, now⟩ := by
    rw [LeaseTable.held_evictExpired]
    exact Leasing.reaches_drop ⟨t.held, now⟩ _
  cases h with
  | kept => exact hwait
  | exhausted => exact hwait.trans _ hevict
  | allocated ip _ _ _ _ hfree =>
    refine (hwait.trans _ hevict).trans _ ?_
    rw [LeaseTable.held_insert]
    refine Leasing.reaches_grant (s := ⟨(t.evictExpired now).held, now⟩) (fun other _ hholds => ?_) _
    obtain ⟨lease, hget, hip, -⟩ := LeaseTable.holds_iff.mp hholds
    exact hfree other lease hget hip
  | granted ip hgrant =>
    refine hwait.trans _ ?_
    rw [LeaseTable.held_insert]
    refine Leasing.reaches_grant (s := ⟨t.held, now⟩) (fun other hne hholds => ?_) _
    obtain ⟨lease, hget, hip, hlt⟩ := LeaseTable.holds_iff.mp hholds
    exact absurd hlt (Nat.not_lt.mpr (hgrant.valid.2.2 other lease hget hip hne))
  | removed =>
    refine hwait.trans _ ?_
    rw [LeaseTable.held_remove]
    exact Leasing.reaches_drop ⟨t.held, now⟩ _

/-- The server is a lease service. -/
def serviceRefinement (dhcproto : Dhcproto) (config : ServerConfig) :
    Refinement (server dhcproto config) (Leasing.service MacAddr Ipv4Addr Nat) where
  Rel s a := a = s.service
  step s e s' a hrel h := by
    obtain ⟨hle, hclock, hchange⟩ := server_step dhcproto h
    refine ⟨s'.service, ?_, rfl⟩
    rw [hrel]
    unfold ServerState.service
    rw [hclock]
    exact change_reaches hle hchange

/-! ### Exclusive leases -/

variable {dhcproto : Dhcproto} {config : ServerConfig}

/-- No two MACs hold the same address. -/
def LeaseTable.Exclusive (t : LeaseTable) (now : Nat) : Prop :=
  ∀ mac mac' ip, t.Holds now mac ip → t.Holds now mac' ip → mac = mac'

/-- In every reachable state, and whenever one looks, leases are exclusive. -/
theorem reachable_exclusive {es : List Received} {s : ServerState}
    (h : (server dhcproto config).run .initial es = some s) {later : Nat} (hle : s.clock ≤ later) :
    s.leases.Exclusive later := by
  obtain ⟨b, hreach, rfl⟩ := (serviceRefinement dhcproto config).run rfl h
  have hempty : Leasing.Exclusive (ServerState.initial.service).held ServerState.initial.service.now := by
    intro c c' a hc
    obtain ⟨lease, hget, -⟩ : LeaseTable.new.Holds 0 c a := LeaseTable.holds_iff.mp hc
    exact absurd hget (by simp)
  have hex := Leasing.exclusive_run hempty hreach hle
  intro mac mac' ip hmac hmac'
  exact hex mac mac' ip (LeaseTable.holds_iff.mpr hmac) (LeaseTable.holds_iff.mpr hmac')

/-- **No double lease.** After any run from the empty table, at any later time, no two
MACs have an unexpired entry for the same address; and no message is answered with an ACK
of an address on which another MAC's lease has not run out. -/
theorem no_double_lease {es : List Received} {s : ServerState}
    (h : (server dhcproto config).run .initial es = some s) :
    (∀ later, s.clock ≤ later → ∀ mac mac' lease lease', mac ≠ mac' →
      s.leases.get mac = some lease → s.leases.get mac' = some lease' → lease.ip = lease'.ip →
      ¬ (later < lease.expiry ∧ later < lease'.expiry)) ∧
    ∀ e sent, s.clock ≤ e.now → (s.handle dhcproto config e).2 = some sent →
      sent.message.messageType = some .ack →
      ∀ other lease, other ≠ e.clientMac → s.leases.get other = some lease →
        lease.ip = sent.message.yiaddr → lease.expiry ≤ e.now := by
  refine ⟨fun later hle mac mac' lease lease' hne hget hget' hip hlt => ?_, ?_⟩
  · exact hne (reachable_exclusive h hle mac mac' lease'.ip ⟨lease, hget, hip, hlt.1⟩
      ⟨lease', hget', rfl, hlt.2⟩)
  · intro e sent _ hsent hack other lease hne hget hip
    have hanswer := dispatch_answer dhcproto hsent
    generalize (dispatch dhcproto config e.now e.dhcp e.clientMac s.leases).1 = t' at hanswer
    generalize sent.message = message at hanswer hack hip
    cases hanswer with
    | reoffered => exact absurd hack (by simp)
    | offered => exact absurd hack (by simp)
    | acked ip hgrant => exact hgrant.valid.2.2 other lease hget hip hne
    | refused => exact absurd hack (by simp)

/-- On the small network: the host of a lease that ran out is granted to a second client,
and the first one's entry is still there. -/
theorem no_double_lease_small :
    ∃ s, (server Wire.dhcproto Small.router).run .initial Small.contested = some s ∧
      ∀ later, s.clock ≤ later → ∀ mac mac' lease lease', mac ≠ mac' →
        s.leases.get mac = some lease → s.leases.get mac' = some lease' → lease.ip = lease'.ip →
        ¬ (later < lease.expiry ∧ later < lease'.expiry) :=
  ⟨_, rfl, (@no_double_lease Wire.dhcproto Small.router Small.contested _ rfl).1⟩

end RustyRouter.Lan
