import RustyRouter.Net.Address

/-! Network blocks.

An `Ipv4Net` is a network as the `ipnet` crate answers for it: the address and prefix
length it was made from, its mask and its first and last address, whether it contains an
address, and the list `hosts()` iterates over. `Documented` is what the crate's
documentation says of these answers; the model runs with any of them, and a result that
relies on the documentation says so. -/
namespace RustyRouter

/-- `ipnet::Ipv4Net` -/
structure Ipv4Net where
  addr : Ipv4Addr
  prefixLen : Nat
  netmask : Ipv4Addr
  network : Ipv4Addr
  broadcast : Ipv4Addr
  contains : Ipv4Addr → Bool
  hosts : List Ipv4Addr

namespace Ipv4Net

/-- What the crate documents: `contains` is membership of the whole block, and `hosts`
leaves out the network and broadcast addresses where the prefix is shorter than 31. -/
structure Documented (net : Ipv4Net) : Prop where
  prefixLen_le : net.prefixLen ≤ 32
  netmask_eq : net.netmask = BitVec.allOnes 32 <<< (32 - net.prefixLen)
  network_eq : net.network = net.addr &&& net.netmask
  broadcast_eq : net.broadcast = net.addr ||| ~~~net.netmask
  contains_iff : ∀ ip, net.contains ip = true ↔ net.network ≤ ip ∧ ip ≤ net.broadcast
  mem_hosts_iff : ∀ ip, ip ∈ net.hosts ↔
    net.contains ip = true ∧ (net.prefixLen < 31 → ip ≠ net.network ∧ ip ≠ net.broadcast)

/-- An address of the block that is not handed out: the network or the broadcast address,
where the prefix is shorter than 31. -/
def Boundary (net : Ipv4Net) (ip : Ipv4Addr) : Prop :=
  net.prefixLen < 31 ∧ (ip = net.network ∨ ip = net.broadcast)

instance (net : Ipv4Net) (ip : Ipv4Addr) : Decidable (net.Boundary ip) :=
  inferInstanceAs (Decidable (_ ∧ _))

theorem Documented.mem_hosts {net : Ipv4Net} (h : net.Documented) (ip : Ipv4Addr) :
    ip ∈ net.hosts ↔ net.contains ip = true ∧ ¬ net.Boundary ip := by
  rw [h.mem_hosts_iff]
  refine and_congr_right fun _ => ?_
  simp only [Boundary, not_and, not_or]

theorem Documented.contains_of_mem_hosts {net : Ipv4Net} (h : net.Documented) {ip : Ipv4Addr}
    (hip : ip ∈ net.hosts) : net.contains ip = true :=
  ((h.mem_hosts ip).mp hip).1

/-! ### A block from its address and prefix length -/

/-- The addresses from `first` to `last`, in order. -/
def addressRange (first last : Ipv4Addr) : List Ipv4Addr :=
  (List.range (last.toNat + 1 - first.toNat)).map fun i => BitVec.ofNat 32 (first.toNat + i)

theorem mem_addressRange {first last ip : Ipv4Addr} :
    ip ∈ addressRange first last ↔ first ≤ ip ∧ ip ≤ last := by
  simp only [addressRange, List.mem_map, List.mem_range, BitVec.le_def]
  refine ⟨fun h => ?_, fun h => ?_⟩
  · obtain ⟨i, hi, rfl⟩ := h
    have hlast := last.isLt
    have hmod : (first.toNat + i) % 2 ^ 32 = first.toNat + i := Nat.mod_eq_of_lt (by omega)
    rw [BitVec.toNat_ofNat, hmod]
    omega
  · refine ⟨ip.toNat - first.toNat, by omega, ?_⟩
    apply BitVec.eq_of_toNat_eq
    rw [BitVec.toNat_ofNat, Nat.mod_eq_of_lt (by omega)]
    omega

/-- The block of `addr` under a prefix of `prefixLen` bits. -/
def ofBlock (addr : Ipv4Addr) (prefixLen : Nat) : Ipv4Net :=
  let netmask := BitVec.allOnes 32 <<< (32 - prefixLen)
  let network := addr &&& netmask
  let broadcast := addr ||| ~~~netmask
  { addr, prefixLen, netmask, network, broadcast
    contains := fun ip => decide (network ≤ ip ∧ ip ≤ broadcast)
    hosts := (addressRange network broadcast).filter fun ip =>
      decide (prefixLen < 31 → ip ≠ network ∧ ip ≠ broadcast) }

theorem ofBlock_documented (addr : Ipv4Addr) {prefixLen : Nat} (h : prefixLen ≤ 32) :
    (ofBlock addr prefixLen).Documented where
  prefixLen_le := h
  netmask_eq := rfl
  network_eq := rfl
  broadcast_eq := rfl
  contains_iff ip := by simp [ofBlock]
  mem_hosts_iff ip := by
    simp only [ofBlock, List.mem_filter, mem_addressRange, decide_eq_true_eq]

/-- A /30 has two hosts. -/
example : (ofBlock (Ipv4Addr.new 192 168 1 1) 30).hosts =
    [Ipv4Addr.new 192 168 1 1, Ipv4Addr.new 192 168 1 2] := by
  decide

end Ipv4Net

end RustyRouter
