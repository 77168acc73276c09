import RustyRouter.Lan.Runs

/-! The addresses that are leased.

The pool is the hosts of the network without the server's own address. A DISCOVER takes
its address from the pool; a REQUEST is granted any address of the block that is neither
the server's nor leased to somebody else, and the block's network and broadcast
addresses are in it. So a run leases pool addresses only, precisely when no REQUEST of
the run asks for one of these two (`pool_only_iff`). -/
namespace RustyRouter.Lan
open Transition

variable {config : ServerConfig} {now : Nat} {dhcp : Message} {mac : MacAddr} {t t' : LeaseTable}

/-- An address the server may hand out. -/
def InPool (config : ServerConfig) (ip : Ipv4Addr) : Prop :=
  ip ∈ config.net.hosts ∧ ip ≠ config.serverIp

/-- An address of the block that the server does not refuse on sight. -/
def Admitted (config : ServerConfig) (ip : Ipv4Addr) : Prop :=
  ip ≠ config.serverIp ∧ config.net.contains ip = true

theorem InPool.admitted (hnet : config.net.Documented) {ip : Ipv4Addr} (h : InPool config ip) :
    Admitted config ip :=
  ⟨h.2, hnet.contains_of_mem_hosts h.1⟩

theorem inPool_iff (hnet : config.net.Documented) {ip : Ipv4Addr} :
    InPool config ip ↔ Admitted config ip ∧ ¬ config.net.Boundary ip := by
  simp only [InPool, Admitted, hnet.mem_hosts]
  tauto

/-! ### What entries a message can leave -/

/-- Every entry's address satisfies `P`. -/
def LeaseTable.Only (t : LeaseTable) (P : Ipv4Addr → Prop) : Prop :=
  ∀ mac lease, t.get mac = some lease → P lease.ip

namespace LeaseTable
variable {P : Ipv4Addr → Prop}

theorem Only.evictExpired (h : t.Only P) : (t.evictExpired now).Only P :=
  fun mac lease hget => h mac lease (get_evictExpired_eq_some.mp hget).1

theorem Only.remove (h : t.Only P) : (t.remove mac).1.Only P := by
  intro other lease hget
  rw [get_remove] at hget
  split at hget
  · exact absurd hget (by simp)
  · exact h other lease hget

theorem Only.insert (h : t.Only P) {lease : ClientLease} (hlease : P lease.ip) :
    (t.insert mac lease).Only P := by
  intro other l hget
  rw [get_insert] at hget
  split at hget
  · rw [← Option.some.inj hget]
    exact hlease
  · exact h other l hget

/-- A message that grants only addresses with `P`, from a pool of such addresses, leaves
entries with `P` only. -/
theorem Only.change (h : t.Only P) (hpool : ∀ ip, InPool config ip → P ip)
    (hgrant : ∀ ip, Grants config now dhcp mac t ip → P ip)
    (hchange : Change config now dhcp mac t t') : t'.Only P := by
  cases hchange with
  | kept => exact h
  | exhausted => exact h.evictExpired
  | allocated ip _ _ hhost hserver => exact h.evictExpired.insert (hpool ip ⟨hhost, hserver⟩)
  | granted ip hg => exact h.insert (hgrant ip hg)
  | removed => exact h.remove

end LeaseTable

/-- Entries stay inside the block and off the server's own address. -/
theorem admitted_step (dhcproto : Dhcproto) (hnet : config.net.Documented) (s : ServerState)
    (e : Received) (s' : ServerState) (hs : s.leases.Only (Admitted config))
    (h : (server dhcproto config).step s e = some s') : s'.leases.Only (Admitted config) := by
  refine hs.change (fun ip hip => hip.admitted hnet) (fun ip hg => ?_) (server_step dhcproto h).2.2
  exact ⟨hg.valid.1, hg.valid.2.1⟩

/-- In every reachable state, entries are inside the block and off the server's address. -/
theorem reachable_admitted (dhcproto : Dhcproto) (hnet : config.net.Documented) {es : List Received}
    {s : ServerState} (h : (server dhcproto config).run .initial es = some s) :
    s.leases.Only (Admitted config) := by
  refine (server dhcproto config).run_invariant (admitted_step dhcproto hnet) ?_ h
  exact fun mac lease hget => absurd hget (by simp [ServerState.initial])

/-! ### Pool addresses only -/

/-- The message does not ask for the network or broadcast address of the block; asking for
the server's own address does no harm, even where it is one of them. -/
def AsksNoBoundary (config : ServerConfig) (_ : ServerState) (e : Received) : Prop :=
  e.dhcp.messageType = some .request → ∀ ip, requestedIpOpt e.dhcp = some ip →
    ip ≠ config.serverIp → ¬ config.net.Boundary ip

/-- The network and broadcast addresses are addresses of the block. -/
theorem contains_of_boundary (hnet : config.net.Documented) {ip : Ipv4Addr}
    (h : config.net.Boundary ip) : config.net.contains ip = true := by
  have hle : config.net.network ≤ config.net.broadcast := by
    rw [hnet.network_eq, hnet.broadcast_eq, BitVec.le_def, BitVec.toNat_and, BitVec.toNat_or]
    exact Nat.le_trans Nat.and_le_left Nat.left_le_or
  rw [hnet.contains_iff]
  rcases h.2 with rfl | rfl
  · exact ⟨BitVec.le_refl _, hle⟩
  · exact ⟨hle, BitVec.le_refl _⟩

/-- From a table of pool addresses, a message leaves pool addresses precisely when it does
not ask for a boundary address. -/
theorem change_pool_iff (hnet : config.net.Documented) {s : ServerState} {e : Received}
    (hs : s.leases.Only (InPool config)) (h : Change config e.now e.dhcp e.clientMac s.leases t') :
    t'.Only (InPool config) ↔ AsksNoBoundary config s e := by
  refine ⟨fun ht hreq ip hopt hserver hb => ?_, fun hask => ?_⟩
  · -- no entry has the boundary address, so nothing stands against the grant
    have hip : requestedIp e.dhcp e.clientMac s.leases = some ip := by simp [requestedIp, hopt]
    have hval : validateRequestedIp e.now ip e.clientMac config s.leases = true := by
      refine validateRequestedIp_iff.mpr ⟨hserver, contains_of_boundary hnet hb, ?_⟩
      intro other lease hget he _
      exact absurd hb (he ▸ ((inPool_iff hnet).mp (hs other lease hget)).2)
    have hgrant : Grants config e.now e.dhcp e.clientMac s.leases ip := ⟨hreq, hip, hval⟩
    cases h with
    | kept hno => exact hno ip hgrant
    | exhausted hdisc => exact hdisc.not_grants ip hgrant
    | allocated _ hdisc => exact hdisc.not_grants ip hgrant
    | granted ip' hgrant' =>
      obtain rfl : ip = ip' := Option.some.inj (hip.symm.trans hgrant'.2.1)
      have := ht e.clientMac _ (LeaseTable.get_insert_self _ _ _)
      exact ((inPool_iff hnet).mp this).2 hb
    | removed hremove => exact hgrant.not_removes hremove
  · refine hs.change (fun ip hip => hip) (fun ip hg => ?_) h
    refine (inPool_iff hnet).mpr ⟨⟨hg.valid.1, hg.valid.2.1⟩, fun hb => ?_⟩
    have hserver := hg.valid.1
    obtain ⟨hreq, hip, -⟩ := hg
    unfold requestedIp at hip
    split at hip
    · rename_i ip' hopt
      obtain rfl : ip' = ip := Option.some.inj hip
      exact hask hreq ip' hopt hserver hb
    · obtain ⟨lease, hget, rfl⟩ := Option.map_eq_some_iff.mp hip
      exact ((inPool_iff hnet).mp (hs e.clientMac lease hget)).2 hb

/-- Every address offered or ACKed is in the table right after the message. -/
theorem answered_stored {message : Message} (h : Answer config now dhcp mac t t' message)
    (hne : message.messageType ≠ some .nak) :
    ∃ lease, t'.get mac = some lease ∧ lease.ip = message.yiaddr := by
  cases h with
  | reoffered existing _ hget => exact ⟨existing, hget, rfl⟩
  | offered ip => exact ⟨_, LeaseTable.get_insert_self _ _ _, rfl⟩
  | acked ip => exact ⟨_, LeaseTable.get_insert_self _ _ _, rfl⟩
  | refused => exact absurd rfl hne

/-- Every address stored, offered or ACKed in the run is in the pool. -/
def PoolOnly (dhcproto : Dhcproto) (config : ServerConfig) (es : List Received) : Prop :=
  ∀ before s, before <+: es → (server dhcproto config).run .initial before = some s →
    s.leases.Only (InPool config) ∧
    ∀ e sent, before ++ [e] <+: es → s.clock ≤ e.now → (s.handle dhcproto config e).2 = some sent →
      sent.message.messageType ≠ some .nak → InPool config sent.message.yiaddr

theorem poolOnly_iff_always {dhcproto : Dhcproto} {es : List Received} :
    PoolOnly dhcproto config es ↔
      (server dhcproto config).Always (fun s => s.leases.Only (InPool config)) .initial es := by
  refine ⟨fun h before s hb hs => (h before s hb hs).1, fun h before s hb hs => ⟨h before s hb hs, ?_⟩⟩
  intro e sent hbe hle hsent hne
  have hrun := System.run_snoc _ hs (server_handles dhcproto config hle)
  obtain ⟨lease, hget, hip⟩ := answered_stored (dispatch_answer dhcproto hsent) hne
  rw [← hip]
  exact h _ _ hbe hrun e.clientMac lease hget

/-- **A run leases pool addresses only**, stored, offered and ACKed, precisely when no
REQUEST of it asks for the network or broadcast address; and an address the REQUEST path
admits is one the DISCOVER path could have chosen precisely when it is not one of these. -/
theorem pool_only_iff (dhcproto : Dhcproto) (hnet : config.net.Documented) (es : List Received) :
    (PoolOnly dhcproto config es ↔
      (server dhcproto config).Along (AsksNoBoundary config) .initial es) ∧
    ∀ now mac ip, (validateRequestedIp now ip mac config .new = true ↔ InPool config ip) ↔
      ¬ (ip ≠ config.serverIp ∧ config.net.Boundary ip) := by
  refine ⟨?_, fun now mac ip => ?_⟩
  · rw [poolOnly_iff_always]
    refine System.always_iff_along (I := fun _ => True) (fun _ _ _ _ _ => trivial) ?_ trivial ?_
    · exact fun s e s' _ hs h => change_pool_iff hnet hs (server_step dhcproto h).2.2
    · exact fun mac lease hget => absurd hget (by simp [ServerState.initial])
  · have hval : validateRequestedIp now ip mac config .new = true ↔ Admitted config ip := by
      rw [validateRequestedIp_iff]
      exact ⟨fun h => ⟨h.1, h.2.1⟩,
        fun h => ⟨h.1, h.2, fun other lease hget => absurd hget (by simp)⟩⟩
    rw [hval, inPool_iff hnet]
    refine ⟨fun h hb => ?_, fun h => ⟨fun ha => ⟨ha, fun hb => h ⟨ha.1, hb⟩⟩, And.left⟩⟩
    exact (h.mp ⟨hb.1, contains_of_boundary hnet hb.2⟩).2 hb.2

/-- On the small network, with messages that ask for nothing out of the way. -/
theorem pool_only_small :
    PoolOnly Wire.dhcproto Small.router [Small.discover 0 Small.client] ↔
      (server Wire.dhcproto Small.router).Along (AsksNoBoundary Small.router) .initial
        [Small.discover 0 Small.client] :=
  (pool_only_iff Wire.dhcproto Small.net_documented _).1

/-- A REQUEST for the broadcast address is ACKed and stored. -/
theorem broadcast_leased : ¬ ∀ es, PoolOnly Wire.dhcproto Small.router es := by
  intro h
  let asked := [Small.request 0 Small.client (Ipv4Addr.new 192 168 1 3)]
  have hpool := (h asked asked _ (List.prefix_refl _) rfl).1
  have := hpool Small.client ⟨Ipv4Addr.new 192 168 1 3, lanLease⟩ rfl
  exact absurd this.1 (by decide)

end RustyRouter.Lan
