import RustyRouter.Net.Frame
import RustyRouter.Netfilter.Rules

/-! The firewall.

`configureFirewall` builds two batches for the kernel: one deletes the table there may be
from before, the other adds the table, its two chains and their rules. What comes to the
router itself goes through `filter_input`, which drops by policy: `input_admits` says what
it accepts. -/
namespace RustyRouter.Netfilter

/-! ### What the `rustables` crate builds -/

inductive ProtocolFamily where
  | inet
  | ipv4
  | ipv6
  deriving DecidableEq, Repr

inductive HookClass where
  | preRouting
  | in
  | forward
  | out
  | postRouting
  deriving DecidableEq, Repr

inductive ChainType where
  | filter
  | nat
  deriving DecidableEq, Repr

structure Table where
  family : ProtocolFamily
  name : Option String
  deriving DecidableEq, Repr

structure Hook where
  class' : HookClass
  priority : Int
  deriving DecidableEq, Repr

structure Chain where
  table : Option String
  name : Option String
  hook : Option Hook
  chainType : Option ChainType
  policy : Option Verdict
  deriving DecidableEq, Repr

structure Rule where
  table : String
  chain : String
  exprs : List Expr
  deriving DecidableEq, Repr

def Chain.new (table : Table) : Chain := ⟨table.name, none, none, none, none⟩

/-- A rule belongs to a chain with a name, in a table with a name. -/
def Rule.new (chain : Chain) : Option Rule := do
  some ⟨← chain.table, ← chain.name, []⟩

def Rule.addExpr (rule : Rule) (e : Expr) : Rule := { rule with exprs := rule.exprs ++ [e] }

inductive MsgType where
  | add
  | del
  deriving DecidableEq, Repr

inductive Object where
  | table (table : Table)
  | chain (chain : Chain)
  | rule (rule : Rule)
  deriving DecidableEq, Repr

abbrev Batch := List (Object × MsgType)

def Meta.new (key : MetaType) : Expr := .loadMeta key .reg1

def Cmp.new (op : CmpOp) (data : List UInt8) : Expr := .cmp op .reg1 data

inductive ConntrackKey where
  | state
  deriving DecidableEq, Repr

def Conntrack.new : ConntrackKey → Expr
  | .state => .conntrackState .reg1

/-- The mask and the value to combine with have one length. -/
def Bitwise.new (mask xor : List UInt8) : Option Expr :=
  if mask.length = xor.length then some (.bitwise .reg1 .reg1 mask xor) else none

def Immediate.newVerdict (v : Verdict) : Expr := .verdict v

def ConnTrackState.established : UInt32 := 2
def ConnTrackState.related : UInt32 := 4

inductive IPv4HeaderField where
  | ttl
  | protocol
  | saddr
  | daddr
  deriving DecidableEq, Repr

inductive UDPHeaderField where
  | sport
  | dport
  | len
  deriving DecidableEq, Repr

inductive HighLevelPayload where
  | networkIPv4 (field : IPv4HeaderField)
  | transportUdp (field : UDPHeaderField)
  deriving DecidableEq, Repr

/-- Where the field is in its header, and how long it is. -/
def HighLevelPayload.build : HighLevelPayload → Expr
  | .networkIPv4 .ttl => .payload .network 8 1 .reg1
  | .networkIPv4 .protocol => .payload .network 9 1 .reg1
  | .networkIPv4 .saddr => .payload .network 12 4 .reg1
  | .networkIPv4 .daddr => .payload .network 16 4 .reg1
  | .transportUdp .sport => .payload .transport 0 2 .reg1
  | .transportUdp .dport => .payload .transport 2 2 .reg1
  | .transportUdp .len => .payload .transport 4 2 .reg1

/-- `Rule::icmp` followed by `Rule::accept`. -/
structure RuleMethods where
  icmpAccept : Rule → Rule

def protocolIcmp : UInt8 := 1

/-- On a rule that has no expressions yet: it matches ICMP and accepts. -/
structure RuleMethods.Documented (lib : RuleMethods) : Prop where
  table_eq : ∀ rule, (lib.icmpAccept rule).table = rule.table
  chain_eq : ∀ rule, (lib.icmpAccept rule).chain = rule.chain
  accepts : ∀ rule, rule.exprs = [] → ∀ p, Accepts p (lib.icmpAccept rule).exprs (p.protocol = protocolIcmp)

/-! ### The batches -/

/-- The name in 16 bytes, cut off or filled up with zeros. -/
def padInterfaceName (name : List UInt8) : List UInt8 :=
  let len := min name.length 16
  name.take len ++ List.replicate (16 - len) 0

def table : Table := ⟨.ipv4, some "rustyrouter"⟩

def natChain : Chain :=
  { Chain.new table with
    name := some "nat_postrouting"
    hook := some ⟨.postRouting, 100⟩
    chainType := some .nat
    policy := some .accept }

def filterChain : Chain :=
  { Chain.new table with
    name := some "filter_input"
    hook := some ⟨.in, 0⟩
    chainType := some .filter
    policy := some .drop }

/-- `lo` -/
def loopback : IfName := ⟨[0x6c, 0x6f], by decide, by decide⟩

def masqRule (wanIface : List UInt8) : Option Rule := do
  let rule ← Rule.new natChain
  let rule := rule.addExpr (Meta.new .oifName)
  let rule := rule.addExpr (Cmp.new .eq (padInterfaceName wanIface))
  return rule.addExpr .masquerade

/-- Accept what comes in on the interface: `lo_rule` and `lan_rule`. -/
def ifaceRule (iface : List UInt8) : Option Rule := do
  let rule ← Rule.new filterChain
  let rule := rule.addExpr (Meta.new .iifName)
  let rule := rule.addExpr (Cmp.new .eq (padInterfaceName iface))
  return rule.addExpr (Immediate.newVerdict .accept)

def loRule : Option Rule := ifaceRule loopback.bytes

def lanRule (lanIface : List UInt8) : Option Rule := ifaceRule lanIface

def ctRule : Option Rule := do
  let rule ← Rule.new filterChain
  let rule := rule.addExpr (Conntrack.new .state)
  let stateMask := ConnTrackState.established ||| ConnTrackState.related
  let rule := rule.addExpr (← Bitwise.new (leBytes stateMask) (Wire.bytes32 0))
  let rule := rule.addExpr (Cmp.new .neq (Wire.bytes32 0))
  return rule.addExpr (Immediate.newVerdict .accept)

def wanDhcpRule (wanIface : List UInt8) : Option Rule := do
  let rule ← Rule.new filterChain
  let rule := rule.addExpr (Meta.new .iifName)
  let rule := rule.addExpr (Cmp.new .eq (padInterfaceName wanIface))
  let rule := rule.addExpr (HighLevelPayload.networkIPv4 .protocol).build
  let rule := rule.addExpr (Cmp.new .eq [protocolUdp])
  let rule := rule.addExpr (HighLevelPayload.transportUdp .dport).build
  let rule := rule.addExpr (Cmp.new .eq (Wire.bytes16 clientPort))
  return rule.addExpr (Immediate.newVerdict .accept)

def icmpRule (lib : RuleMethods) : Option Rule := do
  return lib.icmpAccept (← Rule.new filterChain)

/-- The batches, in the order they are sent; `none` where a rule cannot be built. -/
def configureFirewall (lib : RuleMethods) (wanIface lanIface : List UInt8) : Option (List Batch) := do
  let delBatch : Batch := [(.table table, .del)]
  let masqRule ← masqRule wanIface
  let loRule ← loRule
  let ctRule ← ctRule
  let lanRule ← lanRule lanIface
  let wanDhcpRule ← wanDhcpRule wanIface
  let icmpRule ← icmpRule lib
  return [delBatch,
    [(.table table, .add), (.chain natChain, .add), (.chain filterChain, .add), (.rule masqRule, .add),
      (.rule loRule, .add), (.rule lanRule, .add), (.rule wanDhcpRule, .add), (.rule icmpRule, .add),
      (.rule ctRule, .add)]]

/-! ### What a batch sets up -/

/-- The rules a batch adds to a chain of the table, in its order. -/
def Batch.rulesOf (batch : Batch) (table chain : String) : List (List Expr) :=
  batch.filterMap fun
    | (.rule rule, .add) => if rule.table = table ∧ rule.chain = chain then some rule.exprs else none
    | _ => none

/-- The policy a batch gives to a chain of the table. -/
def Batch.policyOf (batch : Batch) (table chain : String) : Option Verdict :=
  batch.findSome? fun
    | (.chain c, .add) => if c.table = some table ∧ c.name = some chain then c.policy else none
    | _ => none

/-- What the chain says to a packet, if the batch adds it. -/
def Batch.verdict (batch : Batch) (table chain : String) (p : Packet) (regs : Registers) : Option Verdict :=
  (batch.policyOf table chain).map fun policy => runChain p policy (batch.rulesOf table chain) regs

/-! ### What the pieces of the rules ask -/

/-- The destination port, in the third and the fourth byte of the transport header. -/
def Packet.destPort (p : Packet) : Option UInt16 :=
  match p.transport with
  | some (_ :: _ :: d0 :: d1 :: _) => some (Wire.be16 d0 d1)
  | _ => none

variable (p : Packet)

theorem padInterfaceName_bytes (name : IfName) : padInterfaceName name.bytes = ifNameBytes name := by
  have hle := name.length_le
  rw [padInterfaceName, ifNameBytes, Nat.min_eq_left (by omega), List.take_length]

/-- The interface that a setting names: none, if it has more than 15 bytes. -/
def IfName.Is (iface : IfName) (name : List UInt8) : Prop := padInterfaceName name = ifNameBytes iface

theorem ifName_is_iff {iface name : IfName} : iface.Is name.bytes ↔ iface = name := by
  rw [IfName.Is, padInterfaceName_bytes]
  exact ⟨fun h => (ifNameBytes_inj h).symm, fun h => congrArg ifNameBytes h.symm⟩

theorem padInterfaceName_length (name : List UInt8) : (padInterfaceName name).length = 16 := by
  rw [padInterfaceName, List.length_append, List.length_take, List.length_replicate]
  omega

/-- The name of an interface is compared in full, with its padding. -/
theorem guards_iface {key : MetaType} {iface : IfName} (hkey : metaBytes p key = ifNameBytes iface)
    (name : List UInt8) : Guards p [Meta.new key, Cmp.new .eq (padInterfaceName name)] (iface.Is name) := by
  have hloads := loads_meta p key .reg1
  rw [hkey] at hloads
  have hlen : ∀ bytes, some (ifNameBytes iface) = some bytes → bytes.length = (padInterfaceName name).length := by
    intro bytes h
    rw [← Option.some.inj h, ifNameBytes_length, padInterfaceName_length]
  apply (hloads.cmp_eq hlen).congr
  rw [IfName.Is, Option.some.injEq]
  exact eq_comm

theorem payloadBytes_protocol : payloadBytes p .network 9 1 = some [p.protocol] := by
  have hheader := p.header
  have hlt : 9 < p.bytes.length := by omega
  show slice p.bytes 9 1 = _
  rw [slice, if_pos (by omega), List.drop_eq_getElem_cons hlt]
  simp only [Packet.protocol, Packet.byte, List.getD_eq_getElem?_getD, List.getElem?_eq_getElem hlt]
  rfl

theorem guards_protocol (protocol : UInt8) :
    Guards p [(HighLevelPayload.networkIPv4 .protocol).build, Cmp.new .eq [protocol]] (p.protocol = protocol) := by
  have hloads := loads_payload p .network 9 1 .reg1
  rw [payloadBytes_protocol] at hloads
  have hlen : ∀ bytes, some [p.protocol] = some bytes → bytes.length = [protocol].length := by
    intro bytes h
    rw [← Option.some.inj h]
    rfl
  apply (hloads.cmp_eq hlen).congr
  simp

/-- A port is in the packet only with the transport header. -/
theorem payloadBytes_destPort (port : UInt16) :
    payloadBytes p .transport 2 2 = some (Wire.bytes16 port) ↔ p.destPort = some port := by
  unfold payloadBytes Packet.destPort
  cases p.transport with
  | none => simp
  | some header =>
    match header with
    | s0 :: s1 :: d0 :: d1 :: rest => simp [slice, Wire.be16_eq_iff]
    | [] => simp [slice]
    | [_] => simp [slice]
    | [_, _] => simp [slice]
    | [_, _, _] => simp [slice]

theorem slice_length {bytes result : List UInt8} {offset len : Nat} (h : slice bytes offset len = some result) :
    result.length = len := by
  unfold slice at h
  split at h
  · obtain rfl := Option.some.inj h
    rw [List.length_take, List.length_drop]
    omega
  · simp at h

theorem guards_destPort (port : UInt16) :
    Guards p [(HighLevelPayload.transportUdp .dport).build, Cmp.new .eq (Wire.bytes16 port)]
      (p.destPort = some port) := by
  have hlen : ∀ bytes, payloadBytes p .transport 2 2 = some bytes →
      bytes.length = (Wire.bytes16 port).length := by
    intro bytes h
    obtain ⟨header, -, hslice⟩ := Option.bind_eq_some_iff.mp h
    exact slice_length hslice
  exact ((loads_payload p .transport 2 2 .reg1).cmp_eq hlen).congr (payloadBytes_destPort p port)

/-- The state has one of the bits of the mask. -/
theorem guards_ctState (mask : UInt32) :
    Guards p [Conntrack.new .state, .bitwise .reg1 .reg1 (leBytes mask) (Wire.bytes32 0),
      Cmp.new .neq (Wire.bytes32 0)] (p.ctState &&& mask ≠ 0) := by
  have hloads : Loads p [Conntrack.new .state, .bitwise .reg1 .reg1 (leBytes mask) (Wire.bytes32 0)] .reg1
      (some (bitwiseBytes (leBytes p.ctState) (leBytes mask) (Wire.bytes32 0))) :=
    (loads_conntrackState p .reg1).bitwise rfl
  have hlen : (bitwiseBytes (leBytes p.ctState) (leBytes mask) (Wire.bytes32 0)).length =
      (Wire.bytes32 0).length := rfl
  have hzero : Wire.bytes32 0 = leBytes 0 := by decide
  apply (hloads.cmp_neq hlen).congr
  rw [hzero]
  show bitwiseBytes (leBytes p.ctState) (leBytes mask) [0, 0, 0, 0] ≠ leBytes 0 ↔ _
  rw [bitwiseBytes_leBytes]
  exact not_congr ⟨leBytes_inj, congrArg leBytes⟩

/-! ### The chain -/

theorem accepts_ifaceRule {iface : List UInt8} {rule : Rule} (h : ifaceRule iface = some rule) :
    Accepts p rule.exprs (p.iif.Is iface) := by
  obtain rfl := Option.some.inj h
  have hkey : metaBytes p .iifName = ifNameBytes p.iif := rfl
  exact (guards_iface p hkey iface).accept

theorem accepts_ctRule {rule : Rule} (h : ctRule = some rule) :
    Accepts p rule.exprs (p.ctState &&& (ConnTrackState.established ||| ConnTrackState.related) ≠ 0) := by
  obtain rfl := Option.some.inj h
  exact (guards_ctState p _).accept

theorem accepts_wanDhcpRule {wanIface : List UInt8} {rule : Rule} (h : wanDhcpRule wanIface = some rule) :
    Accepts p rule.exprs ((p.iif.Is wanIface ∧ p.protocol = protocolUdp) ∧ p.destPort = some clientPort) := by
  obtain rfl := Option.some.inj h
  have hkey : metaBytes p .iifName = ifNameBytes p.iif := rfl
  have hguards := (guards_iface p hkey wanIface).append (guards_protocol p protocolUdp)
  exact (hguards.append (guards_destPort p clientPort)).accept

theorem accepts_icmpRule {lib : RuleMethods} (hlib : lib.Documented) {rule : Rule} (h : icmpRule lib = some rule) :
    Accepts p rule.exprs (p.protocol = protocolIcmp) := by
  obtain rfl := Option.some.inj h
  exact hlib.accepts _ rfl p

/-- What the router lets in. -/
def Admitted (wanIface lanIface : IfName) : Prop :=
  p.iif = loopback ∨ p.iif = lanIface ∨ p.ctState &&& ConnTrackState.established ≠ 0 ∨
    p.ctState &&& ConnTrackState.related ≠ 0 ∨ p.protocol = protocolIcmp ∨
    p.iif = wanIface ∧ p.protocol = protocolUdp ∧ p.destPort = some clientPort

/-- The same, of names as the settings have them. -/
def AdmittedAs (wanIface lanIface : List UInt8) : Prop :=
  p.iif = loopback ∨ p.iif.Is lanIface ∨ p.ctState &&& ConnTrackState.established ≠ 0 ∨
    p.ctState &&& ConnTrackState.related ≠ 0 ∨ p.protocol = protocolIcmp ∨
    p.iif.Is wanIface ∧ p.protocol = protocolUdp ∧ p.destPort = some clientPort

theorem admittedAs_iff {wanIface lanIface : IfName} :
    AdmittedAs p wanIface.bytes lanIface.bytes ↔ Admitted p wanIface lanIface := by
  simp only [AdmittedAs, Admitted, ifName_is_iff]

theorem ctState_and_or (state a b : UInt32) : state &&& (a ||| b) ≠ 0 ↔ state &&& a ≠ 0 ∨ state &&& b ≠ 0 := by
  have hdistrib : state &&& (a ||| b) = state &&& a ||| state &&& b := by
    apply UInt32.toBitVec_inj.mp
    simp only [UInt32.toBitVec_and, UInt32.toBitVec_or, BitVec.and_or_distrib_left]
  rw [hdistrib, ne_eq, UInt32.or_eq_zero_iff]
  exact not_and_or

/-- Interfaces of a call. -/
structure Setting where
  wanIface : List UInt8
  lanIface : List UInt8

/-- The rules that a call adds to the input chain, as they stand in the batch. -/
def Setting.filterRules (lib : RuleMethods) (call : Setting) : List (List Expr) :=
  [loRule, lanRule call.lanIface, wanDhcpRule call.wanIface, icmpRule lib, ctRule].filterMap (·.map Rule.exprs)

/-- What they ask. -/
def Setting.conditions (call : Setting) : List Prop :=
  [p.iif.Is loopback.bytes, p.iif.Is call.lanIface,
    (p.iif.Is call.wanIface ∧ p.protocol = protocolUdp) ∧ p.destPort = some clientPort, p.protocol = protocolIcmp,
    p.ctState &&& (ConnTrackState.established ||| ConnTrackState.related) ≠ 0]

theorem conditions_iff (call : Setting) :
    (∃ c ∈ call.conditions p, c) ↔ AdmittedAs p call.wanIface call.lanIface := by
  simp only [Setting.conditions, AdmittedAs, ifName_is_iff, ctState_and_or, List.mem_cons, List.not_mem_nil, or_false,
    exists_eq_or_imp, exists_eq_left]
  grind

theorem filterRules_accept {lib : RuleMethods} (hlib : lib.Documented) (call : Setting) :
    List.Forall₂ (Accepts p) (call.filterRules lib) (call.conditions p) := by
  obtain ⟨lo, hlo⟩ : ∃ lo, loRule = some lo := ⟨_, rfl⟩
  obtain ⟨lan, hlan⟩ : ∃ lan, lanRule call.lanIface = some lan := ⟨_, rfl⟩
  obtain ⟨wanDhcp, hwanDhcp⟩ : ∃ wanDhcp, wanDhcpRule call.wanIface = some wanDhcp := ⟨_, rfl⟩
  obtain ⟨icmp, hicmp⟩ : ∃ icmp, icmpRule lib = some icmp := ⟨_, rfl⟩
  obtain ⟨ct, hct⟩ : ∃ ct, ctRule = some ct := ⟨_, rfl⟩
  simp only [Setting.filterRules, hlo, hlan, hwanDhcp, hicmp, hct, List.filterMap, Option.map_some]
  exact .cons (accepts_ifaceRule p hlo) (.cons (accepts_ifaceRule p hlan) (.cons (accepts_wanDhcpRule p hwanDhcp)
    (.cons (accepts_icmpRule p hlib hicmp) (.cons (accepts_ctRule p hct) .nil))))

/-- The rules of the input chain stand in the order of the batch, not in the one they are
built in. -/
theorem configureFirewall_eq (lib : RuleMethods) (hlib : lib.Documented) (call : Setting) :
    ∃ delBatch batch, configureFirewall lib call.wanIface call.lanIface = some [delBatch, batch] ∧
      batch.policyOf "rustyrouter" "filter_input" = some .drop ∧
      batch.rulesOf "rustyrouter" "filter_input" = call.filterRules lib := by
  refine ⟨_, _, rfl, rfl, ?_⟩
  simp [Batch.rulesOf, natChain, filterChain, Rule.addExpr, hlib.table_eq, hlib.chain_eq, Chain.new, table]
  rfl

/-- **The input chain admits what it should**, for all names of interfaces, whatever the
packet and whatever is in the registers. -/
theorem input_admits (lib : RuleMethods) (hlib : lib.Documented) (wanIface lanIface : IfName) :
    ∃ delBatch batch, configureFirewall lib wanIface.bytes lanIface.bytes = some [delBatch, batch] ∧
      ∀ p regs,
        (batch.verdict "rustyrouter" "filter_input" p regs = some .accept ↔ Admitted p wanIface lanIface) ∧
        (batch.verdict "rustyrouter" "filter_input" p regs = some .drop ↔ ¬ Admitted p wanIface lanIface) := by
  obtain ⟨delBatch, batch, hbatches, hpolicy, hrules⟩ := configureFirewall_eq lib hlib ⟨wanIface.bytes, lanIface.bytes⟩
  refine ⟨delBatch, batch, hbatches, fun p regs => ?_⟩
  have hadmitted : runChain p .drop (Setting.filterRules lib ⟨wanIface.bytes, lanIface.bytes⟩) regs = .accept ↔
      Admitted p wanIface lanIface := by
    rw [chain_accepts_iff (filterRules_accept p hlib _) regs, conditions_iff, admittedAs_iff]
  rw [Batch.verdict, hpolicy, hrules, Option.map_some, ← hadmitted]
  cases runChain p .drop (Setting.filterRules lib ⟨wanIface.bytes, lanIface.bytes⟩) regs <;> simp

/-! ### The chain on a packet -/

instance (wanIface lanIface : IfName) : Decidable (Admitted p wanIface lanIface) :=
  inferInstanceAs (Decidable (_ ∨ _ ∨ _ ∨ _ ∨ _ ∨ _ ∧ _ ∧ _))

/-- ICMP by the protocol that the kernel has found. -/
def protocolMethods : RuleMethods where
  icmpAccept rule := ((rule.addExpr (Meta.new .l4Proto)).addExpr (Cmp.new .eq [protocolIcmp])).addExpr
    (Immediate.newVerdict .accept)

theorem protocolMethods_documented : protocolMethods.Documented where
  table_eq _ := rfl
  chain_eq _ := rfl
  accepts rule hexprs p := by
    have hlen : ∀ bytes, some [p.protocol] = some bytes → bytes.length = [protocolIcmp].length := by
      intro bytes h
      rw [← Option.some.inj h]
      rfl
    have hguards : Guards p [Meta.new .l4Proto, Cmp.new .eq [protocolIcmp]] (p.protocol = protocolIcmp) := by
      apply ((loads_meta p .l4Proto .reg1).cmp_eq hlen).congr
      show some [p.protocol] = some [protocolIcmp] ↔ _
      simp
    show Accepts p (((rule.exprs ++ [_]) ++ [_]) ++ [_]) _
    rw [hexprs]
    exact hguards.accept

/-- `eth0` and `eth1` -/
def eth0 : IfName := ⟨[0x65, 0x74, 0x68, 0x30], by decide, by decide⟩
def eth1 : IfName := ⟨[0x65, 0x74, 0x68, 0x31], by decide, by decide⟩

/-- A datagram of a new connection to the port, with no data. -/
def datagramTo (iif : IfName) (port : UInt16) : Packet where
  iif := iif
  oif := none
  ctState := 8
  bytes := [0x45, 0, 0, 28, 0, 0, 0, 0, 64, 17, 0, 0, 192, 0, 2, 1, 192, 0, 2, 2, 0, 67] ++ Wire.bytes16 port ++
    [0, 8, 0, 0]
  header := by simp [Wire.bytes16]

/-- From the WAN, a DHCP reply comes in and a DNS query does not. -/
theorem input_admits_datagrams :
    ∃ delBatch batch, configureFirewall protocolMethods eth0.bytes eth1.bytes = some [delBatch, batch] ∧
      ∀ regs,
        batch.verdict "rustyrouter" "filter_input" (datagramTo eth0 68) regs = some .accept ∧
        batch.verdict "rustyrouter" "filter_input" (datagramTo eth0 53) regs = some .drop ∧
        batch.verdict "rustyrouter" "filter_input" (datagramTo eth1 53) regs = some .accept := by
  obtain ⟨delBatch, batch, hbatches, hverdict⟩ :=
    input_admits protocolMethods protocolMethods_documented eth0 eth1
  refine ⟨delBatch, batch, hbatches, fun regs => ⟨?_, ?_, ?_⟩⟩
  · exact (hverdict (datagramTo eth0 68) regs).1.mpr (by decide)
  · exact (hverdict (datagramTo eth0 53) regs).2.mpr (by decide)
  · exact (hverdict (datagramTo eth1 53) regs).1.mpr (by decide)

end RustyRouter.Netfilter
