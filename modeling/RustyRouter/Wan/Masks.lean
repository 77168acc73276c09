import RustyRouter.Net.Block
import RustyRouter.Wan.Interface

/-! Which subnet masks the client accepts.

A mask comes with the ACK, so the server may send any 32 bits. `mask_to_prefix_len` only
counts the ones a mask begins with and the zeros it ends with; that the two counts add up
to 32 is enough for it to be contiguous. Both functions that change the WAN interface ask
it first, before they turn to the kernel. -/
namespace RustyRouter.Wan
open Bits

variable {mask : Ipv4Addr} {n : Nat}

/-- The mask of a prefix of `n` bits: `n` ones, then zeros only. -/
abbrev Contiguous (mask : Ipv4Addr) (n : Nat) : Prop := IsMask mask n

/-- The error of a mask with a hole. -/
def nonContiguous (mask : Ipv4Addr) : DhcpError :=
  .protocol ("Invalid non-contiguous subnet mask: " ++ displayIp mask)

theorem maskToPrefixLen_of_contiguous (h : Contiguous mask n) : maskToPrefixLen mask = .ok n := by
  have hones : leadingOnes mask = n := h.leadingOnes_eq
  have hzeros : trailingZeros mask = 32 - n := h.trailingZeros_eq
  have hle := h.1
  simp only [maskToPrefixLen, hones, hzeros]
  rw [if_neg (by omega)]

theorem maskToPrefixLen_of_hole (h : ∀ n, ¬ Contiguous mask n) :
    maskToPrefixLen mask = .error (nonContiguous mask) := by
  have hsum : leadingOnes mask + trailingZeros mask ≠ 32 := by
    intro hsum
    obtain ⟨n, hn⟩ := sum_eq_iff.mp hsum
    exact h n hn
  simp only [maskToPrefixLen, if_pos hsum, nonContiguous]

theorem maskToPrefixLen_eq_ok : maskToPrefixLen mask = .ok n ↔ Contiguous mask n := by
  refine ⟨fun h => ?_, maskToPrefixLen_of_contiguous⟩
  by_cases hmask : ∃ m, Contiguous mask m
  · obtain ⟨m, hm⟩ := hmask
    obtain rfl : m = n := Except.ok.inj ((maskToPrefixLen_of_contiguous hm).symm.trans h)
    exact hm
  · rw [maskToPrefixLen_of_hole (not_exists.mp hmask)] at h
    contradiction

/-- The client accepts the mask of a network. -/
theorem maskToPrefixLen_netmask {net : Ipv4Net} (hnet : net.Documented) :
    maskToPrefixLen net.netmask = .ok net.prefixLen := by
  rw [hnet.netmask_eq]
  exact maskToPrefixLen_of_contiguous (isMask_allOnes_shiftLeft hnet.prefixLen_le)

/-! ### The WAN interface -/

/-- The interface is there and every request about it succeeds. -/
structure Netlink.Serves (netlink : Netlink) (wanInterface : String) (index : Nat) : Prop where
  newConnection : netlink.newConnection = .ok ()
  linkIndex : netlink.linkIndex wanInterface = .ok (some index)
  listAddresses : netlink.listAddresses = .ok ()
  linkUp : netlink.linkUp index = .ok ()
  addAddress : ∀ ip prefixLen, netlink.addAddress index ip prefixLen = .ok ()

/-- Its error, if it has one, is not about the mask. -/
def KernelOnly {α : Type} (result : Except DhcpError α) : Prop := ∀ text, result ≠ .error (.protocol text)

/-- The error is the same, of whatever it is the error. -/
theorem KernelOnly.error {α β : Type} {e : DhcpError} (h : KernelOnly (.error e : Except DhcpError α)) :
    KernelOnly (.error e : Except DhcpError β) :=
  fun text heq => h text (congrArg Except.error (Except.error.inj heq))

theorem KernelOnly.bind {α β : Type} {result : Except DhcpError α} {next : α → Except DhcpError β}
    (h : KernelOnly result) (hnext : ∀ a, KernelOnly (next a)) : KernelOnly (result >>= next) := by
  cases result with
  | error e => exact h.error
  | ok a => exact hnext a

theorem kernelOnly_ok {α : Type} (a : α) : KernelOnly (.ok a) := by
  intro text h
  contradiction

theorem kernelOnly_rtNetlink {α : Type} (reply : Except String α) :
    KernelOnly (reply.mapError .rtNetlink) := by
  intro text
  cases reply with
  | error e => simp [Except.mapError]
  | ok a => exact kernelOnly_ok a text

theorem kernelOnly_interfaceNotFound {α : Type} (iface : String) :
    KernelOnly (.error (.interfaceNotFound iface) : Except DhcpError α) := by
  intro text
  simp

section Wan
variable {answers : Answers} {table : List AddressEntry} {wanInterface : String} {index : Nat} {ip : Ipv4Addr}
  {gateway : Option Ipv4Addr}

/-- The kernel is not asked about the mask. -/
theorem openWan_of_hole (h : ∀ n, ¬ Contiguous mask n) :
    openWan answers wanInterface mask = .error (nonContiguous mask) := by
  rw [openWan, maskToPrefixLen_of_hole h]
  rfl

theorem openWan_of_contiguous (h : Contiguous mask n) : KernelOnly (openWan answers wanInterface mask) := by
  rw [openWan, maskToPrefixLen_of_contiguous h]
  refine (kernelOnly_ok n).bind fun _ => (kernelOnly_rtNetlink _).bind fun _ =>
    (kernelOnly_rtNetlink _).bind fun link => ?_
  cases link with
  | none => exact kernelOnly_interfaceNotFound wanInterface
  | some index => exact kernelOnly_ok _

theorem openWan_serves (hserves : answers.toNetlink.Serves wanInterface index) (h : Contiguous mask n) :
    openWan answers wanInterface mask = .ok (index, n) := by
  rw [openWan, maskToPrefixLen_of_contiguous h, hserves.newConnection, hserves.linkIndex]
  rfl

/-- The table is left as it is. -/
theorem configureWanOn_of_hole (h : ∀ n, ¬ Contiguous mask n) :
    configureWanOn answers wanInterface ip mask table = (table, .error (nonContiguous mask)) := by
  rw [configureWanOn, openWan_of_hole h]

theorem deconfigureWanOn_of_hole (h : ∀ n, ¬ Contiguous mask n) :
    deconfigureWanOn answers wanInterface ip mask table = (table, .error (nonContiguous mask)) := by
  rw [deconfigureWanOn, openWan_of_hole h]

theorem configureWanOn_of_contiguous (h : Contiguous mask n) :
    KernelOnly (configureWanOn answers wanInterface ip mask table).2 := by
  have hopened : KernelOnly (openWan answers wanInterface mask) := openWan_of_contiguous h
  rw [configureWanOn]
  cases hopen : openWan answers wanInterface mask with
  | error e =>
    rw [hopen] at hopened
    exact hopened.error
  | ok opened =>
    dsimp only
    split
    · intro text
      simp
    · exact kernelOnly_ok ()

theorem deconfigureWanOn_of_contiguous (h : Contiguous mask n) :
    KernelOnly (deconfigureWanOn answers wanInterface ip mask table).2 := by
  have hopened : KernelOnly (openWan answers wanInterface mask) := openWan_of_contiguous h
  rw [deconfigureWanOn]
  cases hopen : openWan answers wanInterface mask with
  | error e =>
    rw [hopen] at hopened
    exact hopened.error
  | ok opened => exact kernelOnly_rtNetlink _

theorem configureWanOn_serves (hserves : answers.toNetlink.Serves wanInterface index) (h : Contiguous mask n) :
    (configureWanOn answers wanInterface ip mask table).2 = .ok () := by
  rw [configureWanOn, openWan_serves hserves h]
  simp only [hserves.listAddresses, hserves.linkUp, hserves.addAddress, bind, Except.bind]

theorem deconfigureWanOn_serves (hserves : answers.toNetlink.Serves wanInterface index) (h : Contiguous mask n) :
    (deconfigureWanOn answers wanInterface ip mask table).2 = .ok () := by
  rw [deconfigureWanOn, openWan_serves hserves h, hserves.listAddresses]
  rfl

end Wan

/-! ### The prefix length of a mask -/

/-- A function that refuses the masks with a hole, and none else, with `nonContiguous`. -/
def TakesContiguous {α : Type} (result : Ipv4Addr → Except DhcpError α) : Prop :=
  ∀ mask, ((∀ n, ¬ Contiguous mask n) → result mask = .error (nonContiguous mask)) ∧
    ∀ n, Contiguous mask n → KernelOnly (result mask)

/-- **The prefix length is that of a contiguous mask, and only they have one.** So it inverts
the mask of every prefix length, and the WAN interface is changed for contiguous masks only:
for those an error can come from the kernel alone, and none comes from one that serves. -/
theorem netmask_exact :
    (∀ mask n, maskToPrefixLen mask = .ok n ↔ Contiguous mask n) ∧
    (∀ mask, (∀ n, ¬ Contiguous mask n) → maskToPrefixLen mask = .error (nonContiguous mask)) ∧
    (∀ addr n, n ≤ 32 → maskToPrefixLen (Ipv4Net.ofBlock addr n).netmask = .ok n) ∧
    ∀ (answers : Answers) wanInterface ip table,
      (∀ gateway, TakesContiguous fun mask => configureWan answers.toNetlink wanInterface ip mask gateway) ∧
      (TakesContiguous fun mask => (deconfigureWanOn answers wanInterface ip mask table).2) ∧
      ∀ index, answers.toNetlink.Serves wanInterface index → ∀ mask n, Contiguous mask n →
        (∀ gateway, configureWan answers.toNetlink wanInterface ip mask gateway = .ok ()) ∧
        (deconfigureWanOn answers wanInterface ip mask table).2 = .ok () := by
  refine ⟨fun mask n => maskToPrefixLen_eq_ok, fun mask => maskToPrefixLen_of_hole, fun addr n hle => ?_,
    fun answers wanInterface ip table => ⟨fun gateway mask => ?_, fun mask => ?_, fun index hserves mask n h => ?_⟩⟩
  · exact maskToPrefixLen_netmask (Ipv4Net.ofBlock_documented addr hle)
  · simp only [← configureWanOn_snd answers wanInterface ip mask gateway table]
    exact ⟨fun h => congrArg Prod.snd (configureWanOn_of_hole h), fun n h => configureWanOn_of_contiguous h⟩
  · exact ⟨fun h => congrArg Prod.snd (deconfigureWanOn_of_hole h), fun n h => deconfigureWanOn_of_contiguous h⟩
  · refine ⟨fun gateway => ?_, deconfigureWanOn_serves hserves h⟩
    rw [← configureWanOn_snd answers wanInterface ip mask gateway table]
    exact configureWanOn_serves hserves h

/-- A hole of one bit. -/
example : maskToPrefixLen (Ipv4Addr.new 255 253 0 0) =
    .error (.protocol "Invalid non-contiguous subnet mask: 255.253.0.0") := by
  decide +kernel

end RustyRouter.Wan
