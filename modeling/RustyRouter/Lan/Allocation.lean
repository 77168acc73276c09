import RustyRouter.Lan.Exclusive

/-! Allocation.

`nextAvailableIp` evicts before it searches, and an eviction rebuilds the index from the
map. So its answer is decided by the leases that have not run out, whatever the index it
was given said: it is the first host that nobody holds, and there is none only where
every host is held (`next_available_exact`). -/
namespace RustyRouter.Lan.LeaseTable

variable (t : LeaseTable) (now : Nat) (net : Ipv4Net) (serverIp : Ipv4Addr)

/-- Somebody has an unexpired lease on `ip`. -/
def Leased (ip : Ipv4Addr) : Prop := ∃ mac, t.Holds now mac ip

/-- Neither the server's address nor leased to anybody. -/
def Free (ip : Ipv4Addr) : Prop := ip ≠ serverIp ∧ ¬ t.Leased now ip

/-- The first host, in the order of the network, that is free. -/
def FirstFree (ip : Ipv4Addr) : Prop :=
  ∃ before after, net.hosts = before ++ ip :: after ∧ t.Free now serverIp ip ∧
    ∀ earlier ∈ before, ¬ t.Free now serverIp earlier

variable {t now net serverIp}

/-- The rebuilt index is the set of leased addresses. -/
theorem mem_allocatedIps_evictExpired {ip : Ipv4Addr} :
    ip ∈ (t.evictExpired now).allocatedIps ↔ t.Leased now ip := by
  rw [evictExpired_synced ip]
  constructor
  · intro ⟨mac, lease, hget, hip⟩
    obtain ⟨hget, hlt⟩ := get_evictExpired_eq_some.mp hget
    exact ⟨mac, lease, hget, hip, hlt⟩
  · intro ⟨mac, lease, hget, hip, hlt⟩
    exact ⟨mac, lease, get_evictExpired_eq_some.mpr ⟨hget, hlt⟩, hip⟩

/-- What the search asks of a host. -/
theorem free_iff {ip : Ipv4Addr} :
    (ip != serverIp && (t.evictExpired now).isIpAvailable ip) = true ↔ t.Free now serverIp ip := by
  simp only [Bool.and_eq_true, bne_iff_ne, isIpAvailable, Bool.not_eq_true', decide_eq_false_iff_not,
    mem_allocatedIps_evictExpired, Free]

theorem nextAvailableIp_eq_some {ip : Ipv4Addr} :
    (t.nextAvailableIp now net serverIp).2 = some ip ↔ t.FirstFree now net serverIp ip := by
  show (net.hosts.find? _) = some ip ↔ _
  rw [List.find?_eq_some_iff_append]
  constructor
  · intro ⟨hfree, before, after, hhosts, hearlier⟩
    refine ⟨before, after, hhosts, free_iff.mp hfree, fun earlier hmem hf => ?_⟩
    have := hearlier earlier hmem
    rw [free_iff.mpr hf] at this
    exact absurd this (by decide)
  · intro ⟨before, after, hhosts, hfree, hearlier⟩
    refine ⟨free_iff.mpr hfree, before, after, hhosts, fun earlier hmem => ?_⟩
    rw [Bool.not_eq_true', ← Bool.not_eq_true, free_iff]
    exact hearlier earlier hmem

theorem nextAvailableIp_eq_none :
    (t.nextAvailableIp now net serverIp).2 = none ↔ ∀ ip ∈ net.hosts, ip ≠ serverIp → t.Leased now ip := by
  show (net.hosts.find? _) = none ↔ _
  rw [List.find?_eq_none]
  refine forall₂_congr fun ip _ => ?_
  rw [free_iff, Free, not_and, not_not]

/-- An address is found as soon as one host is free. -/
theorem nextAvailableIp_isSome :
    (∃ ip, (t.nextAvailableIp now net serverIp).2 = some ip) ↔ ∃ ip ∈ net.hosts, t.Free now serverIp ip := by
  rw [← Option.isSome_iff_exists, Option.isSome_iff_ne_none, ne_eq, nextAvailableIp_eq_none]
  simp only [Free, not_forall, exists_prop]

/-- **Allocation is sound, complete and self-repairing**, from any table whatsoever. -/
theorem next_available_exact (t : LeaseTable) (now : Nat) (net : Ipv4Net) (serverIp : Ipv4Addr) :
    ((∃ ip, (t.nextAvailableIp now net serverIp).2 = some ip) ↔
      ∃ ip ∈ net.hosts, t.Free now serverIp ip) ∧
    (∀ ip, (t.nextAvailableIp now net serverIp).2 = some ip ↔ t.FirstFree now net serverIp ip) ∧
    ((t.nextAvailableIp now net serverIp).2 = none ↔
      ∀ ip ∈ net.hosts, ip ≠ serverIp → t.Leased now ip) ∧
    (∀ mac lease, (t.nextAvailableIp now net serverIp).1.get mac = some lease ↔
      t.get mac = some lease ∧ now < lease.expiry) ∧
    ∀ ip, ip ∈ (t.nextAvailableIp now net serverIp).1.allocatedIps ↔
      ∃ mac lease, (t.nextAvailableIp now net serverIp).1.get mac = some lease ∧ lease.ip = ip := by
  refine ⟨nextAvailableIp_isSome, fun ip => nextAvailableIp_eq_some, nextAvailableIp_eq_none, ?_, ?_⟩
  · intro mac lease
    rw [nextAvailableIp_fst]
    exact get_evictExpired_eq_some
  · rw [nextAvailableIp_fst]
    exact evictExpired_synced

end RustyRouter.Lan.LeaseTable
