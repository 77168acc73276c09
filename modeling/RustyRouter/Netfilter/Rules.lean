import Mathlib.Data.List.Forall2

/-! Packet filter rules, as nf_tables evaluates them.

A rule is a list of expressions that run from left to right on a few registers: some load a
property of the packet, some compute, a comparison that fails abandons the rule, and a
verdict ends the chain. Registers are not cleared from one rule to the next. `Loads` and
`Guards` say what a piece of a rule does wherever it stands and whatever the registers hold,
so that a rule is understood piece by piece, and a chain rule by rule
(`chain_accepts_iff`). -/
namespace RustyRouter.Netfilter

/-! ### Packets -/

/-- The name of an interface, in the kernel's 16 bytes with its terminator. -/
structure IfName where
  bytes : List UInt8
  length_le : bytes.length ≤ 15
  no_nul : 0 ∉ bytes
  deriving DecidableEq

/-- An IPv4 packet, from its network header on, and what the kernel knows about it. -/
structure Packet where
  iif : IfName
  oif : Option IfName
  /-- One bit for each state of the connection tracking. -/
  ctState : UInt32
  bytes : List UInt8
  header : 20 ≤ bytes.length

namespace Packet
variable (p : Packet)

def byte (i : Nat) : UInt8 := p.bytes.getD i 0

def protocol : UInt8 := p.byte 9

/-- The length of the network header, in bytes. -/
def headerLength : Nat := 4 * (p.byte 0 &&& 0x0f).toNat

/-- The packet starts with its transport header: it is no later fragment of a datagram. -/
def leads : Bool := p.byte 6 &&& 0x1f == 0 && p.byte 7 == 0

/-- What follows the network header; only a first fragment has a transport header. -/
def transport : Option (List UInt8) := if p.leads then some (p.bytes.drop p.headerLength) else none

end Packet

/-! ### Expressions -/

inductive Register where
  | reg1
  | reg2
  | reg3
  | reg4
  deriving DecidableEq, Repr

/-- What is in the registers, 16 bytes in each. -/
abbrev Registers := Register → List UInt8

inductive Verdict where
  | accept
  | drop
  deriving DecidableEq, Repr

inductive MetaType where
  | iifName
  | oifName
  | l4Proto
  deriving DecidableEq, Repr

inductive Base where
  | network
  | transport
  deriving DecidableEq, Repr

inductive CmpOp where
  | eq
  | neq
  deriving DecidableEq, Repr

inductive Expr where
  | loadMeta (key : MetaType) (dreg : Register)
  | conntrackState (dreg : Register)
  | payload (base : Base) (offset len : Nat) (dreg : Register)
  | bitwise (sreg dreg : Register) (mask xor : List UInt8)
  | cmp (op : CmpOp) (sreg : Register) (data : List UInt8)
  | verdict (v : Verdict)
  /-- Rewrites the source address, and accepts. -/
  | masquerade
  deriving DecidableEq, Repr

/-- How it goes on after an expression. -/
inductive Control where
  | next
  | abandon
  | verdict (v : Verdict)
  deriving DecidableEq, Repr

/-- Bytes at the start of a register; the last word is filled up with zeros, and what comes
after it stays. -/
def overwrite (old bytes : List UInt8) : List UInt8 :=
  let words := bytes ++ List.replicate ((4 - bytes.length % 4) % 4) 0
  words ++ old.drop words.length

def Registers.store (regs : Registers) (dreg : Register) (bytes : List UInt8) : Registers :=
  fun r => if r = dreg then overwrite (regs dreg) bytes else regs r

/-- An interface name is padded with zeros to 16 bytes. -/
def ifNameBytes (name : IfName) : List UInt8 := name.bytes ++ List.replicate (16 - name.bytes.length) 0

/-- On a little-endian host. -/
def leBytes (x : UInt32) : List UInt8 :=
  [x.toUInt8, (x >>> 8).toUInt8, (x >>> 16).toUInt8, (x >>> 24).toUInt8]

def metaBytes (p : Packet) : MetaType → List UInt8
  | .iifName => ifNameBytes p.iif
  | .oifName => (p.oif.map ifNameBytes).getD (List.replicate 16 0)
  | .l4Proto => [p.protocol]

/-- A slice of a header; `none` if it is not all there. -/
def slice (bytes : List UInt8) (offset len : Nat) : Option (List UInt8) :=
  if offset + len ≤ bytes.length then some ((bytes.drop offset).take len) else none

def payloadBytes (p : Packet) (base : Base) (offset len : Nat) : Option (List UInt8) :=
  match base with
  | .network => slice p.bytes offset len
  | .transport => p.transport.bind fun bytes => slice bytes offset len

def bitwiseBytes (bytes mask xor : List UInt8) : List UInt8 :=
  List.zipWith (· ^^^ ·) (List.zipWith (· &&& ·) bytes mask) xor

def CmpOp.holds (op : CmpOp) (bytes data : List UInt8) : Bool :=
  match op with
  | .eq => bytes == data
  | .neq => bytes != data

def Expr.eval (p : Packet) (regs : Registers) : Expr → Registers × Control
  | .loadMeta key dreg => (regs.store dreg (metaBytes p key), .next)
  | .conntrackState dreg => (regs.store dreg (leBytes p.ctState), .next)
  | .payload base offset len dreg =>
    match payloadBytes p base offset len with
    | some bytes => (regs.store dreg bytes, .next)
    | none => (regs, .abandon)
  | .bitwise sreg dreg mask xor =>
    (regs.store dreg (bitwiseBytes ((regs sreg).take mask.length) mask xor), .next)
  | .cmp op sreg data => (regs, if op.holds ((regs sreg).take data.length) data then .next else .abandon)
  | .verdict v => (regs, .verdict v)
  | .masquerade => (regs, .verdict .accept)

/-! ### Rules and chains -/

def runExprs (p : Packet) : List Expr → Registers → Registers × Option Verdict
  | [], regs => (regs, none)
  | e :: rest, regs =>
    match e.eval p regs with
    | (regs', .next) => runExprs p rest regs'
    | (regs', .abandon) => (regs', none)
    | (regs', .verdict v) => (regs', some v)

/-- The first verdict of a rule, or the policy of the chain. -/
def runChain (p : Packet) (policy : Verdict) : List (List Expr) → Registers → Verdict
  | [], _ => policy
  | rule :: rest, regs =>
    match runExprs p rule regs with
    | (_, some v) => v
    | (regs', none) => runChain p policy rest regs'

/-! ### What is in a register -/

theorem overwrite_take (old bytes : List UInt8) : (overwrite old bytes).take bytes.length = bytes := by
  simp only [overwrite, List.append_assoc]
  rw [List.take_left' rfl]

@[simp] theorem store_take (regs : Registers) (dreg : Register) (bytes : List UInt8) :
    (regs.store dreg bytes dreg).take bytes.length = bytes := by
  rw [Registers.store, if_pos rfl, overwrite_take]

/-- Names without NULs are padded to different bytes. -/
theorem ifNameBytes_inj {a b : IfName} (h : ifNameBytes a = ifNameBytes b) : a = b := by
  have hcut : ∀ name : IfName, (ifNameBytes name).takeWhile (· != 0) = name.bytes := by
    intro name
    have hall : ∀ x ∈ name.bytes, (x != 0) = true := by
      intro x hx
      rw [bne_iff_ne]
      exact fun hzero => name.no_nul (hzero ▸ hx)
    rw [ifNameBytes, List.takeWhile_append_of_pos hall, List.takeWhile_replicate]
    simp
  have hbytes : a.bytes = b.bytes := by rw [← hcut a, ← hcut b, h]
  cases a
  cases b
  subst hbytes
  rfl

theorem ifNameBytes_length (name : IfName) : (ifNameBytes name).length = 16 := by
  have hle := name.length_le
  rw [ifNameBytes, List.length_append, List.length_replicate]
  omega

theorem leBytes_inj {x y : UInt32} (h : leBytes x = leBytes y) : x = y := by
  simp only [leBytes, List.cons.injEq, ← UInt8.toNat_inj, UInt32.toNat_toUInt8, UInt32.toNat_shiftRight] at h
  apply UInt32.toNat_inj.mp
  have hx := x.toNat_lt
  have hy := y.toNat_lt
  simp [Nat.shiftRight_eq_div_pow] at h
  omega

/-- A mask applied to a word. -/
theorem bitwiseBytes_leBytes (x mask : UInt32) :
    bitwiseBytes (leBytes x) (leBytes mask) [0, 0, 0, 0] = leBytes (x &&& mask) := by
  simp [bitwiseBytes, leBytes, UInt32.shiftRight_and]

/-! ### Pieces of a rule -/

variable {p : Packet} {es es' : List Expr} {r r' : Register} {value : Option (List UInt8)} {c c' : Prop}

/-- The expressions leave these bytes in the register, or abandon the rule if there are none. -/
def Loads (p : Packet) (es : List Expr) (r : Register) (value : Option (List UInt8)) : Prop :=
  ∀ rest regs,
    (∀ bytes, value = some bytes → ∃ regs', (regs' r).take bytes.length = bytes ∧
      runExprs p (es ++ rest) regs = runExprs p rest regs') ∧
    (value = none → (runExprs p (es ++ rest) regs).2 = none)

/-- The rule goes on after the expressions precisely under the condition. -/
def Guards (p : Packet) (es : List Expr) (c : Prop) : Prop :=
  ∀ rest regs, (c → ∃ regs', runExprs p (es ++ rest) regs = runExprs p rest regs') ∧
    (¬ c → (runExprs p (es ++ rest) regs).2 = none)

/-- The rule accepts precisely under the condition, and leaves the packet to the next rule
otherwise. -/
def Accepts (p : Packet) (es : List Expr) (c : Prop) : Prop :=
  ∀ regs, (c → (runExprs p es regs).2 = some .accept) ∧ (¬ c → (runExprs p es regs).2 = none)

theorem loads_meta (p : Packet) (key : MetaType) (r : Register) :
    Loads p [.loadMeta key r] r (some (metaBytes p key)) := by
  intro rest regs
  refine ⟨fun bytes h => ?_, fun h => absurd h (by simp)⟩
  obtain rfl := Option.some.inj h
  exact ⟨regs.store r (metaBytes p key), store_take regs r _, rfl⟩

theorem loads_conntrackState (p : Packet) (r : Register) :
    Loads p [.conntrackState r] r (some (leBytes p.ctState)) := by
  intro rest regs
  refine ⟨fun bytes h => ?_, fun h => absurd h (by simp)⟩
  obtain rfl := Option.some.inj h
  exact ⟨regs.store r (leBytes p.ctState), store_take regs r _, rfl⟩

theorem loads_payload (p : Packet) (base : Base) (offset len : Nat) (r : Register) :
    Loads p [.payload base offset len r] r (payloadBytes p base offset len) := by
  intro rest regs
  simp only [List.singleton_append, runExprs, Expr.eval]
  constructor
  · intro bytes h
    rw [h]
    exact ⟨regs.store r bytes, store_take regs r bytes, rfl⟩
  · intro h
    rw [h]

theorem Loads.bitwise {bytes mask xor : List UInt8} (h : Loads p es r (some bytes))
    (hmask : mask.length = bytes.length) :
    Loads p (es ++ [.bitwise r r' mask xor]) r' (some (bitwiseBytes bytes mask xor)) := by
  intro rest regs
  refine ⟨fun result hresult => ?_, fun h => absurd h (by simp)⟩
  obtain rfl := Option.some.inj hresult
  obtain ⟨regs', htake, hrun⟩ := (h (.bitwise r r' mask xor :: rest) regs).1 bytes rfl
  refine ⟨regs'.store r' (bitwiseBytes bytes mask xor), store_take regs' r' _, ?_⟩
  rw [List.append_assoc, List.singleton_append, hrun]
  simp only [runExprs, Expr.eval, hmask, htake]

/-- A comparison of as many bytes as were loaded. -/
theorem Loads.cmp {op : CmpOp} {data : List UInt8} (h : Loads p es r value)
    (hlen : ∀ bytes, value = some bytes → bytes.length = data.length) :
    Guards p (es ++ [.cmp op r data]) (∃ bytes, value = some bytes ∧ op.holds bytes data = true) := by
  intro rest regs
  rw [List.append_assoc, List.singleton_append]
  obtain ⟨hsome, hnone⟩ := h (.cmp op r data :: rest) regs
  cases hvalue : value with
  | none => exact ⟨fun ⟨bytes, hbytes, _⟩ => absurd hbytes (by simp), fun _ => hnone hvalue⟩
  | some bytes =>
    obtain ⟨regs', htake, hrun⟩ := hsome bytes hvalue
    rw [hlen bytes hvalue] at htake
    have hcmp : runExprs p (.cmp op r data :: rest) regs' =
        if op.holds bytes data = true then runExprs p rest regs' else (regs', none) := by
      simp only [runExprs, Expr.eval, htake]
      cases op.holds bytes data <;> rfl
    rw [hrun, hcmp]
    constructor
    · intro ⟨bytes', hbytes', hholds⟩
      obtain rfl := Option.some.inj hbytes'
      exact ⟨regs', if_pos hholds⟩
    · intro hfails
      rw [if_neg fun hholds => hfails ⟨bytes, rfl, hholds⟩]

theorem Guards.congr (h : Guards p es c) (hiff : c ↔ c') : Guards p es c' := by
  rwa [← propext hiff]

theorem Loads.cmp_eq {data : List UInt8} (h : Loads p es r value)
    (hlen : ∀ bytes, value = some bytes → bytes.length = data.length) :
    Guards p (es ++ [.cmp .eq r data]) (value = some data) := by
  apply (h.cmp hlen).congr
  constructor
  · intro ⟨bytes, hbytes, hholds⟩
    rw [hbytes, eq_of_beq hholds]
  · intro hvalue
    exact ⟨data, hvalue, beq_self_eq_true data⟩

theorem Loads.cmp_neq {bytes data : List UInt8} (h : Loads p es r (some bytes))
    (hlen : bytes.length = data.length) : Guards p (es ++ [.cmp .neq r data]) (bytes ≠ data) := by
  have hlens : ∀ bytes', some bytes = some bytes' → bytes'.length = data.length := by
    intro bytes' heq
    rw [← Option.some.inj heq, hlen]
  apply (h.cmp hlens).congr
  constructor
  · intro ⟨bytes', hbytes', hholds⟩
    rw [Option.some.inj hbytes']
    exact bne_iff_ne.mp hholds
  · intro hne
    exact ⟨bytes, rfl, bne_iff_ne.mpr hne⟩

theorem Guards.append (h : Guards p es c) (h' : Guards p es' c') : Guards p (es ++ es') (c ∧ c') := by
  intro rest regs
  rw [List.append_assoc]
  obtain ⟨hgoes, hstops⟩ := h (es' ++ rest) regs
  by_cases hc : c
  · obtain ⟨regs', hrun⟩ := hgoes hc
    rw [hrun]
    obtain ⟨hgoes', hstops'⟩ := h' rest regs'
    exact ⟨fun hboth => hgoes' hboth.2, fun hnot => hstops' fun hc' => hnot ⟨hc, hc'⟩⟩
  · exact ⟨fun hboth => absurd hboth.1 hc, fun _ => hstops hc⟩

theorem Guards.accept (h : Guards p es c) : Accepts p (es ++ [.verdict .accept]) c := by
  intro regs
  obtain ⟨hgoes, hstops⟩ := h [.verdict .accept] regs
  refine ⟨fun hc => ?_, hstops⟩
  obtain ⟨regs', hrun⟩ := hgoes hc
  rw [hrun]
  rfl

/-! ### Chains -/

/-- **A chain that drops by policy** and has rules that accept, or do not concern the
packet, accepts what one of them accepts, in whatever order they stand and whatever is in
the registers. -/
theorem chain_accepts_iff {rules : List (List Expr)} {conditions : List Prop}
    (h : List.Forall₂ (Accepts p) rules conditions) (regs : Registers) :
    runChain p .drop rules regs = .accept ↔ ∃ c ∈ conditions, c := by
  induction h generalizing regs with
  | nil => simp [runChain]
  | @cons rule c rules conditions hrule _ ih =>
    obtain ⟨haccepts, hleaves⟩ := hrule regs
    rw [runChain, List.exists_mem_cons_iff]
    by_cases hc : c
    · have hverdict := haccepts hc
      split
      · rename_i v hrun
        rw [hrun] at hverdict
        exact iff_of_true (Option.some.inj hverdict) (.inl hc)
      · rename_i hrun
        exact absurd (hverdict.symm.trans (congrArg Prod.snd hrun)) (by simp)
    · have hverdict := hleaves hc
      split
      · rename_i hrun
        exact absurd (hverdict.symm.trans (congrArg Prod.snd hrun)) (by simp)
      · rw [ih, or_iff_right hc]

end RustyRouter.Netfilter
