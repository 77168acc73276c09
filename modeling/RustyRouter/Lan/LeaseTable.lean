import Mathlib.Data.Finset.Basic
import Mathlib.Data.Finset.Dedup
import RustyRouter.Net.Address
import RustyRouter.Net.Block
import RustyRouter.Store.HashMap

/-! The lease table of the LAN DHCP server.

A map from client MAC to lease and a set of allocated addresses, changed only through
the operations below; where one of them reads the clock, the reading is its argument
`now`. Expired leases stay in the map until an eviction, which also rebuilds the index.

Each operation has a lemma that says what it does to the entry of a MAC, and one that
says what it does to the index; later modules use these and never the bodies. -/
namespace RustyRouter.Lan
open Store

structure ClientLease where
  ip : Ipv4Addr
  expiry : Nat
  deriving DecidableEq, Repr

structure LeaseTable where
  byMac : HashMap MacAddr ClientLease
  /-- Index of currently allocated IPs. -/
  allocatedIps : Finset Ipv4Addr

namespace LeaseTable

def new : LeaseTable := ⟨HashMap.empty, ∅⟩

/-- The entry of this MAC, expired or not. -/
def get (t : LeaseTable) (mac : MacAddr) : Option ClientLease := t.byMac.get mac

/-- Inserts or replaces the lease for `mac`; the address of a replaced lease leaves the index. -/
def insert (t : LeaseTable) (mac : MacAddr) (lease : ClientLease) : LeaseTable :=
  let released := match t.byMac.get mac with
    | some old => t.allocatedIps.erase old.ip
    | none => t.allocatedIps
  { byMac := t.byMac.insert mac lease, allocatedIps := Insert.insert lease.ip released }

/-- Removes the lease for `mac` and takes its address out of the index. -/
def remove (t : LeaseTable) (mac : MacAddr) : LeaseTable × Option ClientLease :=
  match t.byMac.get mac with
  | none => (t, none)
  | some lease =>
    ({ byMac := t.byMac.remove mac, allocatedIps := t.allocatedIps.erase lease.ip }, some lease)

def isIpAvailable (t : LeaseTable) (ip : Ipv4Addr) : Bool := !decide (ip ∈ t.allocatedIps)

def isIpTakenByOther (t : LeaseTable) (now : Nat) (ip : Ipv4Addr) (clientMac : MacAddr) : Bool :=
  t.byMac.any fun mac l => l.ip == ip && decide (now < l.expiry) && mac != clientMac

def evictExpired (t : LeaseTable) (now : Nat) : LeaseTable :=
  let live := t.byMac.retain fun _ l => decide (now < l.expiry)
  { byMac := live, allocatedIps := (live.values.map ClientLease.ip).toFinset }

/-- Evicts, then takes the first host that is not the server's and not allocated. -/
def nextAvailableIp (t : LeaseTable) (now : Nat) (net : Ipv4Net) (serverIp : Ipv4Addr) :
    LeaseTable × Option Ipv4Addr :=
  let evicted := t.evictExpired now
  (evicted, net.hosts.find? fun ip => ip != serverIp && evicted.isIpAvailable ip)

/-! ### What the operations do to an entry -/

variable (t : LeaseTable) (mac mac' : MacAddr) (now : Nat)

@[simp] theorem get_new : new.get mac = none := HashMap.get_empty mac

theorem get_insert (lease : ClientLease) :
    (t.insert mac lease).get mac' = if mac' = mac then some lease else t.get mac' :=
  HashMap.get_insert t.byMac mac mac' lease

@[simp] theorem get_insert_self (lease : ClientLease) : (t.insert mac lease).get mac = some lease :=
  HashMap.get_insert_self t.byMac mac lease

theorem get_remove : (t.remove mac).1.get mac' = if mac' = mac then none else t.get mac' := by
  unfold remove
  cases h : t.byMac.get mac with
  | some lease => exact HashMap.get_remove t.byMac mac mac'
  | none =>
    by_cases he : mac' = mac
    · subst he
      rw [if_pos rfl]
      exact h
    · rw [if_neg he]

theorem get_evictExpired :
    (t.evictExpired now).get mac = (t.get mac).filter fun l => decide (now < l.expiry) :=
  HashMap.get_retain t.byMac _ mac

variable {t mac mac' now}

theorem get_evictExpired_eq_some {lease : ClientLease} :
    (t.evictExpired now).get mac = some lease ↔ t.get mac = some lease ∧ now < lease.expiry := by
  rw [get_evictExpired, Option.filter_eq_some_iff, decide_eq_true_eq]

theorem isIpTakenByOther_eq_true {ip : Ipv4Addr} :
    t.isIpTakenByOther now ip mac = true ↔
      ∃ other lease, t.get other = some lease ∧ lease.ip = ip ∧ now < lease.expiry ∧ other ≠ mac := by
  simp only [isIpTakenByOther, HashMap.any_eq_true, Bool.and_eq_true, beq_iff_eq, decide_eq_true_eq,
    bne_iff_ne, and_assoc]
  rfl

/-- Not taken: every other MAC's lease on the address has run out. -/
theorem isIpTakenByOther_eq_false {ip : Ipv4Addr} :
    t.isIpTakenByOther now ip mac = false ↔
      ∀ other lease, t.get other = some lease → lease.ip = ip → other ≠ mac → lease.expiry ≤ now := by
  rw [← Bool.not_eq_true, isIpTakenByOther_eq_true]
  refine ⟨fun h other lease hget hip hne => ?_, fun h hex => ?_⟩
  · by_contra hlt
    exact h ⟨other, lease, hget, hip, by omega, hne⟩
  · obtain ⟨other, lease, hget, hip, hlt, hne⟩ := hex
    have := h other lease hget hip hne
    omega

/-! ### What the operations do to the index -/

/-- The documented invariant: an address is in the index if and only if an entry has it. -/
def Synced (t : LeaseTable) : Prop :=
  ∀ ip, ip ∈ t.allocatedIps ↔ ∃ mac lease, t.get mac = some lease ∧ lease.ip = ip

theorem new_synced : new.Synced := by
  intro ip
  simp [new, get]

/-- The rebuilt index agrees with the map, whatever the index was. -/
theorem evictExpired_synced : (t.evictExpired now).Synced := by
  intro ip
  simp only [evictExpired, List.mem_toFinset, List.mem_map, HashMap.mem_values, get]
  refine ⟨fun h => ?_, fun h => ?_⟩
  · obtain ⟨lease, ⟨m, hm⟩, rfl⟩ := h
    exact ⟨m, lease, hm, rfl⟩
  · obtain ⟨m, lease, hm, rfl⟩ := h
    exact ⟨lease, ⟨m, hm⟩, rfl⟩

theorem mem_allocatedIps_insert {lease : ClientLease} {ip : Ipv4Addr} :
    ip ∈ (t.insert mac lease).allocatedIps ↔
      ip = lease.ip ∨ ip ∈ t.allocatedIps ∧ ∀ old, t.get mac = some old → ip ≠ old.ip := by
  simp only [insert, get, Finset.mem_insert]
  cases t.byMac.get mac with
  | none => simp
  | some old => simp [Finset.mem_erase, and_comm]

theorem mem_allocatedIps_remove {ip : Ipv4Addr} :
    ip ∈ (t.remove mac).1.allocatedIps ↔
      ip ∈ t.allocatedIps ∧ ∀ old, t.get mac = some old → ip ≠ old.ip := by
  simp only [remove, get]
  cases t.byMac.get mac with
  | none => simp
  | some old => simp [Finset.mem_erase, and_comm]

theorem isIpAvailable_iff (h : t.Synced) {ip : Ipv4Addr} :
    t.isIpAvailable ip = true ↔ ∀ mac lease, t.get mac = some lease → lease.ip ≠ ip := by
  simp only [isIpAvailable, Bool.not_eq_true', decide_eq_false_iff_not, h ip]
  refine ⟨fun hne mac lease hget hip => hne ⟨mac, lease, hget, hip⟩, fun hall hex => ?_⟩
  obtain ⟨mac, lease, hget, hip⟩ := hex
  exact hall mac lease hget hip

/-! ### Allocation -/

theorem nextAvailableIp_fst {net : Ipv4Net} {serverIp : Ipv4Addr} :
    (t.nextAvailableIp now net serverIp).1 = t.evictExpired now := rfl

/-- An allocated address is a host of the network other than the server's, and no entry
that is left after the eviction has it. -/
theorem nextAvailableIp_spec {net : Ipv4Net} {serverIp ip : Ipv4Addr}
    (h : (t.nextAvailableIp now net serverIp).2 = some ip) :
    ip ∈ net.hosts ∧ ip ≠ serverIp ∧
      ∀ mac lease, (t.evictExpired now).get mac = some lease → lease.ip ≠ ip := by
  have hmem : ip ∈ net.hosts := List.mem_of_find?_eq_some h
  have hp := List.find?_some h
  simp only [Bool.and_eq_true, bne_iff_ne] at hp
  exact ⟨hmem, hp.1, (isIpAvailable_iff evictExpired_synced).mp hp.2⟩

end LeaseTable

end RustyRouter.Lan
