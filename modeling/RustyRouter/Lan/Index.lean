import RustyRouter.Lan.Runs

/-! The allocation index against the lease map.

The index is a set, so it records an address once however many entries have it, and
taking one MAC off an address takes the address out of the index. From a table where the
two agree, an operation keeps them in agreement precisely when it does not take a MAC
off an address that another entry has too (`insert_synced_iff`, `remove_synced_iff`);
so does a message (`change_synced_iff`), and so does a run (`index_synced_iff`). -/
namespace RustyRouter.Lan
open Transition

namespace LeaseTable
variable {t : LeaseTable} {mac : MacAddr} {now : Nat}

/-- No MAC other than `mac` has an entry for `ip`. -/
def Unshared (t : LeaseTable) (mac : MacAddr) (ip : Ipv4Addr) : Prop :=
  ∀ other lease, other ≠ mac → t.get other = some lease → lease.ip ≠ ip

theorem remove_synced_iff (h : t.Synced) :
    (t.remove mac).1.Synced ↔ ∀ old, t.get mac = some old → t.Unshared mac old.ip := by
  refine ⟨fun hs old hold other lease hne hget hip => ?_, fun hun ip => ?_⟩
  · have hentry : ∃ m l, (t.remove mac).1.get m = some l ∧ l.ip = old.ip :=
      ⟨other, lease, by rw [get_remove, if_neg hne, hget], hip⟩
    have hmem := (hs old.ip).mpr hentry
    exact (mem_allocatedIps_remove.mp hmem).2 old hold rfl
  · rw [mem_allocatedIps_remove, h ip]
    refine ⟨fun hin => ?_, fun hin => ?_⟩
    · obtain ⟨⟨m, lease, hget, hip⟩, hne⟩ := hin
      have hm : m ≠ mac := by
        intro he
        subst he
        exact hne lease hget hip.symm
      exact ⟨m, lease, by rw [get_remove, if_neg hm, hget], hip⟩
    · obtain ⟨m, lease, hget, hip⟩ := hin
      rw [get_remove] at hget
      by_cases hm : m = mac
      · simp [hm] at hget
      · rw [if_neg hm] at hget
        refine ⟨⟨m, lease, hget, hip⟩, fun old hold he => ?_⟩
        exact hun old hold m lease hm hget (hip.trans he)

theorem insert_synced_iff (h : t.Synced) (lease : ClientLease) :
    (t.insert mac lease).Synced ↔
      ∀ old, t.get mac = some old → old.ip ≠ lease.ip → t.Unshared mac old.ip := by
  refine ⟨fun hs old hold hne other l hother hget hip => ?_, fun hun ip => ?_⟩
  · have hentry : ∃ m l, (t.insert mac lease).get m = some l ∧ l.ip = old.ip :=
      ⟨other, l, by rw [get_insert, if_neg hother, hget], hip⟩
    have hmem := (hs old.ip).mpr hentry
    rcases mem_allocatedIps_insert.mp hmem with he | ⟨-, hout⟩
    · exact hne he
    · exact hout old hold rfl
  · rw [mem_allocatedIps_insert, h ip]
    refine ⟨fun hin => ?_, fun hin => ?_⟩
    · rcases hin with rfl | ⟨⟨m, l, hget, hip⟩, hout⟩
      · exact ⟨mac, lease, get_insert_self t mac lease, rfl⟩
      · have hm : m ≠ mac := by
          intro he
          subst he
          exact hout l hget hip.symm
        exact ⟨m, l, by rw [get_insert, if_neg hm, hget], hip⟩
    · obtain ⟨m, l, hget, hip⟩ := hin
      rw [get_insert] at hget
      by_cases hm : m = mac
      · rw [if_pos hm] at hget
        obtain rfl := Option.some.inj hget
        exact .inl hip.symm
      · rw [if_neg hm] at hget
        by_cases hl : ip = lease.ip
        · exact .inl hl
        · refine .inr ⟨⟨m, l, hget, hip⟩, fun old hold he => ?_⟩
          have hne : old.ip ≠ lease.ip := by rw [← he]; exact hl
          exact hun old hold hne m l hm hget (hip.trans he)

end LeaseTable

/-! ### Messages -/

/-- The message does not take its MAC off an address that another entry has too: neither
by a DECLINE or RELEASE nor by a granted REQUEST for a different address. -/
def KeepsShared (config : ServerConfig) (s : ServerState) (e : Received) : Prop :=
  ∀ old, s.leases.get e.clientMac = some old →
    (Removes e.dhcp ∨ ∃ ip, Grants config e.now e.dhcp e.clientMac s.leases ip ∧ ip ≠ old.ip) →
    s.leases.Unshared e.clientMac old.ip

/-- One message keeps map and index in agreement precisely when it takes no MAC off a
shared address. -/
theorem change_synced_iff {config : ServerConfig} {s : ServerState} {e : Received} {t' : LeaseTable}
    (hs : s.leases.Synced) (h : Change config e.now e.dhcp e.clientMac s.leases t') :
    t'.Synced ↔ KeepsShared config s e := by
  cases h with
  | kept hgrant hremove =>
    refine iff_of_true hs fun old _ hoff => ?_
    rcases hoff with hr | ⟨ip, hg, -⟩
    · exact absurd hr hremove
    · exact absurd hg (hgrant ip)
  | exhausted hdisc hnew =>
    refine iff_of_true LeaseTable.evictExpired_synced fun old hold => ?_
    exact absurd (hnew.symm.trans hold) (by simp)
  | allocated ip hdisc hnew =>
    refine iff_of_true ?_ fun old hold => absurd (hnew.symm.trans hold) (by simp)
    refine (LeaseTable.insert_synced_iff LeaseTable.evictExpired_synced _).mpr fun old hold => ?_
    have := (LeaseTable.get_evictExpired_eq_some.mp hold).1
    exact absurd (hnew.symm.trans this) (by simp)
  | granted ip hgrant =>
    rw [LeaseTable.insert_synced_iff hs]
    refine forall_congr' fun old => forall_congr' fun _ => ?_
    refine ⟨fun hun hoff => ?_, fun hun hne => hun (.inr ⟨ip, hgrant, fun he => hne he.symm⟩)⟩
    rcases hoff with hr | ⟨ip', hg', hne⟩
    · exact absurd hr hgrant.not_removes
    · obtain rfl : ip = ip' := Option.some.inj (hgrant.2.1.symm.trans hg'.2.1)
      exact hun fun he => hne he.symm
  | removed hremove =>
    rw [LeaseTable.remove_synced_iff hs]
    exact forall_congr' fun old => forall_congr' fun _ => ⟨fun hun _ => hun, fun hun => hun (.inl hremove)⟩

/-! ### Runs -/

/-- **The map and the index agree throughout a run** from the empty table precisely when
no message of the run takes its MAC off an address that another entry has too. -/
theorem index_synced_iff (dhcproto : Dhcproto) (config : ServerConfig) (es : List Received) :
    (server dhcproto config).Always (fun s => s.leases.Synced) .initial es ↔
      (server dhcproto config).Along (KeepsShared config) .initial es := by
  refine System.always_iff_along (I := fun _ => True) (fun _ _ _ _ _ => trivial) ?_ trivial
    LeaseTable.new_synced
  intro s e s' _ hs h
  exact change_synced_iff hs (server_step dhcproto h).2.2

/-- The index diverges: the address of a lease that ran out is granted to a second client,
and the first one's RELEASE takes it out of the index. -/
theorem index_diverges : ¬ ∀ (es : List Received) (s : ServerState),
    (server Wire.dhcproto Small.router).run .initial es = some s → s.leases.Synced := by
  intro h
  have hsynced := h (Small.contested ++ [Small.release 3601 Small.client]) _ rfl
  have hentry := (hsynced Small.host).mpr ⟨Small.other, ⟨Small.host, Duration.fromSecs 7200⟩, rfl, rfl⟩
  exact absurd hentry (by decide)

end RustyRouter.Lan
