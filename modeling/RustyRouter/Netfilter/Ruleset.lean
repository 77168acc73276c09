import Mathlib.Logic.Function.Basic
import RustyRouter.Netfilter.Firewall
import RustyRouter.Transition

/-! The firewall in the kernel.

A batch is a transaction: the kernel does all of it or nothing, and it may refuse one for
reasons of its own. `configure_firewall` sends two, and goes on when the first one, which
deletes the table of an earlier call, fails. So the table holds the rules of every call
that succeeded since a deletion did (`firewall_stands`): the router admits what any of them
admits, masquerades what any of them masquerades, and where the kernel deletes what it is
asked to, that is the last call alone. The tables of others are never touched. -/
namespace RustyRouter.Netfilter
open Transition

/-! ### The kernel -/

/-- A chain in the kernel. -/
structure ChainState where
  hook : Option Hook
  chainType : Option ChainType
  policy : Option Verdict
  rules : List (List Expr)

/-- The chains of a table, by name. -/
abbrev TableState := String → Option ChainState

/-- The tables of the IPv4 family, by name. -/
abbrev Ruleset := String → Option TableState

namespace Ruleset
variable (rs : Ruleset)

/-- A table that is there already stays as it is. -/
def addTable (t : Table) : Option Ruleset :=
  t.name.map fun name => if (rs name).isSome then rs else Function.update rs name (some fun _ => none)

def delTable (t : Table) : Option Ruleset :=
  t.name.bind fun name => (rs name).map fun _ => Function.update rs name none

/-- A chain that is there already may change its policy, but not its hook. -/
def addChain (c : Chain) : Option Ruleset := do
  let table ← c.table
  let name ← c.name
  let chains ← rs table
  match chains name with
  | none => some (Function.update rs table (some (Function.update chains name (some ⟨c.hook, c.chainType, c.policy, []⟩))))
  | some old =>
    if old.hook = c.hook ∧ old.chainType = c.chainType then
      some (Function.update rs table (some (Function.update chains name (some { old with policy := c.policy.or old.policy }))))
    else none

/-- A rule goes to the end of its chain. -/
def addRule (r : Rule) : Option Ruleset := do
  let chains ← rs r.table
  let chain ← chains r.chain
  some (Function.update rs r.table
    (some (Function.update chains r.chain (some { chain with rules := chain.rules ++ [r.exprs] }))))

/-- What is asked for here: IPv4 only, and no deletion but of a table. -/
def apply : Object × MsgType → Option Ruleset
  | (.table t, .add) => if t.family = .ipv4 then rs.addTable t else none
  | (.table t, .del) => if t.family = .ipv4 then rs.delTable t else none
  | (.chain c, .add) => rs.addChain c
  | (.rule r, .add) => rs.addRule r
  | (.chain _, .del) => none
  | (.rule _, .del) => none

/-- All of the batch, or nothing. -/
def send (accepts : Bool) (batch : Batch) : Ruleset × Bool :=
  match batch.foldlM apply rs with
  | some rs' => if accepts then (rs', true) else (rs, false)
  | none => (rs, false)

/-- The chain of the table. -/
def chain (table name : String) : Option ChainState := (rs table).bind fun chains => chains name

/-- What the chain says to a packet. -/
def verdict (table name : String) (p : Packet) (regs : Registers) : Option Verdict :=
  (rs.chain table name).bind fun chain => chain.policy.map fun policy => runChain p policy chain.rules regs

end Ruleset

def delBatch : Batch := [(.table table, .del)]

/-- `configure_firewall`, and whether the kernel accepts its batches. -/
def configureFirewallOn (lib : RuleMethods) (accepts : Bool × Bool) (wanIface lanIface : List UInt8) (rs : Ruleset) :
    Ruleset × Bool :=
  let rs := (rs.send accepts.1 delBatch).1
  match configureFirewall lib wanIface lanIface with
  | some [_, batch] => rs.send accepts.2 batch
  | _ => (rs, false)

/-! ### What decides on a packet -/

/-- The expression that ends the rule with a verdict. -/
def deciding (p : Packet) : List Expr → Registers → Option Expr
  | [], _ => none
  | e :: rest, regs =>
    match e.eval p regs with
    | (regs', .next) => deciding p rest regs'
    | (_, .abandon) => none
    | (_, .verdict _) => some e

/-- The one that ends the chain. -/
def chainDeciding (p : Packet) : List (List Expr) → Registers → Option Expr
  | [], _ => none
  | rule :: rest, regs =>
    match deciding p rule regs with
    | some e => some e
    | none => chainDeciding p rest (runExprs p rule regs).1

def Ruleset.masquerades (rs : Ruleset) (table name : String) (p : Packet) (regs : Registers) : Prop :=
  (rs.chain table name).any (fun chain => chainDeciding p chain.rules regs == some .masquerade) = true

variable {p : Packet} {es : List Expr} {regs : Registers} {e : Expr}

theorem deciding_eq_none : deciding p es regs = none ↔ (runExprs p es regs).2 = none := by
  induction es generalizing regs with
  | nil => simp [deciding, runExprs]
  | cons e rest ih =>
    simp only [deciding, runExprs]
    generalize e.eval p regs = result
    obtain ⟨regs', control⟩ := result
    cases control with
    | next => exact ih
    | abandon => simp
    | verdict v => simp

theorem deciding_gives (h : deciding p es regs = some e) : e ∈ es ∧ ∃ regs regs' v, e.eval p regs = (regs', .verdict v) := by
  induction es generalizing regs with
  | nil => simp [deciding] at h
  | cons head rest ih =>
    simp only [deciding] at h
    obtain ⟨regs', control, heval⟩ : ∃ regs' control, head.eval p regs = (regs', control) := ⟨_, _, rfl⟩
    rw [heval] at h
    cases control with
    | next =>
      obtain ⟨hmem, hgives⟩ := ih h
      exact ⟨List.mem_cons_of_mem _ hmem, hgives⟩
    | abandon => simp at h
    | verdict v =>
      obtain rfl := Option.some.inj h
      exact ⟨List.mem_cons_self, regs, regs', v, heval⟩

/-- No expression of the rule but this one gives a verdict. -/
def OnlyBy (p : Packet) (target : Expr) (es : List Expr) : Prop :=
  ∀ e ∈ es, ∀ regs regs' v, e.eval p regs = (regs', .verdict v) → e = target

/-- A chain of rules that decide by the same expression, each under its condition. -/
theorem chainDeciding_iff {target : Expr} {rules : List (List Expr)} {conditions : List Prop}
    (h : List.Forall₂ (Accepts p) rules conditions) (honly : ∀ rule ∈ rules, OnlyBy p target rule) (regs : Registers) :
    chainDeciding p rules regs = some target ↔ ∃ c ∈ conditions, c := by
  induction h generalizing regs with
  | nil => simp [chainDeciding]
  | @cons rule c rules conditions hrule _ ih =>
    obtain ⟨haccepts, hleaves⟩ := hrule regs
    rw [chainDeciding, List.exists_mem_cons_iff]
    by_cases hc : c
    · cases hdeciding : deciding p rule regs with
      | none => exact absurd ((deciding_eq_none.mp hdeciding).symm.trans (haccepts hc)) (by simp)
      | some e =>
        obtain ⟨hmem, regs₁, regs₂, v, heval⟩ := deciding_gives hdeciding
        obtain rfl := honly rule List.mem_cons_self e hmem regs₁ regs₂ v heval
        exact iff_of_true rfl (.inl hc)
    · rw [deciding_eq_none.mpr (hleaves hc)]
      show chainDeciding p rules _ = some target ↔ _
      rw [ih fun rule hmem => honly rule (List.mem_cons_of_mem _ hmem), or_iff_right hc]

variable (p)

theorem accepts_masq {out : IfName} (hout : p.oif = some out) {wanIface : List UInt8} {rule : Rule}
    (h : masqRule wanIface = some rule) : Accepts p rule.exprs (out.Is wanIface) ∧ OnlyBy p .masquerade rule.exprs := by
  obtain rfl := Option.some.inj h
  have hkey : metaBytes p .oifName = ifNameBytes out := by simp [metaBytes, hout]
  refine ⟨fun regs => ?_, ?_⟩
  · obtain ⟨hgoes, hstops⟩ := guards_iface p hkey wanIface [.masquerade] regs
    refine ⟨fun hc => ?_, hstops⟩
    obtain ⟨regs', hrun⟩ := hgoes hc
    show (runExprs p ([Meta.new .oifName, Cmp.new .eq (padInterfaceName wanIface)] ++ [.masquerade]) regs).2 = _
    rw [hrun]
    rfl
  · intro e he regs regs' v heval
    simp only [Rule.addExpr, List.nil_append, List.cons_append, List.mem_cons, List.not_mem_nil, or_false] at he
    rcases he with rfl | rfl | rfl
    · simp [Meta.new, Expr.eval] at heval
    · simp only [Cmp.new, Expr.eval, Prod.mk.injEq] at heval
      split at heval <;> simp at heval
    · rfl

/-! ### The table of the router -/

/-- The rules that a call adds to the other chain. -/
def Setting.masqRules (call : Setting) : List (List Expr) := ((masqRule call.wanIface).map Rule.exprs).toList

/-- A chain as it is asked for, with these rules. -/
def Chain.holding (c : Chain) (rules : List (List Expr)) : ChainState := ⟨c.hook, c.chainType, c.policy, rules⟩

/-- The table after these calls. -/
def built (lib : RuleMethods) (calls : List Setting) : TableState := fun name =>
  if name = "nat_postrouting" then some (natChain.holding (calls.flatMap Setting.masqRules))
  else if name = "filter_input" then some (filterChain.holding (calls.flatMap (Setting.filterRules lib)))
  else none

def kept (lib : RuleMethods) (calls : List Setting) : Option TableState :=
  if calls.isEmpty then none else some (built lib calls)

/-! ### What the batches do -/

section Apply
variable {rs : Ruleset} {chains : TableState} {tableName name : String}

theorem apply_chain {c : Chain} (htable : c.table = some tableName) (hname : c.name = some name)
    (hrs : rs tableName = some chains) (hpolicy : c.policy.isSome = true)
    (hfits : ∀ old, chains name = some old → old.hook = c.hook ∧ old.chainType = c.chainType) :
    rs.apply (.chain c, .add) = some (Function.update rs tableName (some (Function.update chains name
      (some (c.holding (((chains name).map ChainState.rules).getD [])))))) := by
  obtain ⟨policy, hpolicy⟩ := Option.isSome_iff_exists.mp hpolicy
  cases hchain : chains name with
  | none => simp [Ruleset.apply, Ruleset.addChain, Chain.holding, htable, hname, hrs, hchain]
  | some old =>
    obtain ⟨hhook, htype⟩ := hfits old hchain
    simp [Ruleset.apply, Ruleset.addChain, Chain.holding, htable, hname, hrs, hchain, hhook, htype, hpolicy]

/-- The chains with the rules at their ends. -/
def TableState.addRules (chains : TableState) (rules : List Rule) : TableState := fun name =>
  (chains name).map fun chain =>
    { chain with rules := chain.rules ++ (rules.filter fun r => r.chain = name).map Rule.exprs }

theorem apply_rule {r : Rule} (htable : r.table = tableName) (hrs : rs tableName = some chains)
    (hchain : (chains r.chain).isSome = true) :
    rs.apply (.rule r, .add) = some (Function.update rs tableName (some (chains.addRules [r]))) := by
  obtain ⟨chain, hchain⟩ := Option.isSome_iff_exists.mp hchain
  have hadd : chains.addRules [r] =
      Function.update chains r.chain (some { chain with rules := chain.rules ++ [r.exprs] }) := by
    funext name
    by_cases heq : name = r.chain
    · subst heq
      simp [TableState.addRules, hchain]
    · rw [Function.update_of_ne heq]
      simp [TableState.addRules, Ne.symm heq]
  rw [hadd, ← htable]
  rw [← htable] at hrs
  simp [Ruleset.apply, Ruleset.addRule, hrs, hchain]

/-- Rules go to the ends of their chains one after another. -/
theorem apply_rules {rules : List Rule} (htable : ∀ r ∈ rules, r.table = tableName) (hrs : rs tableName = some chains)
    (hchains : ∀ r ∈ rules, (chains r.chain).isSome = true) :
    (rules.map fun r => (Object.rule r, MsgType.add)).foldlM Ruleset.apply rs =
      some (Function.update rs tableName (some (chains.addRules rules))) := by
  induction rules generalizing rs chains with
  | nil =>
    have hsame : chains.addRules [] = chains := by
      funext name
      simp [TableState.addRules]
    rw [hsame, ← hrs, Function.update_eq_self]
    rfl
  | cons r rest ih =>
    rw [List.forall_mem_cons] at htable hchains
    have hsome : ∀ r' ∈ rest, (chains.addRules [r] r'.chain).isSome = true := by
      intro r' hr'
      rw [TableState.addRules, Option.isSome_map]
      exact hchains.2 r' hr'
    have hmore : (chains.addRules [r]).addRules rest = chains.addRules (r :: rest) := by
      funext name
      simp only [TableState.addRules, Option.map_map]
      congr 1
      funext chain
      simp only [Function.comp, List.append_assoc, ← List.map_append, ← List.filter_append, List.singleton_append]
    rw [List.map_cons, List.foldlM_cons, apply_rule htable.1 hrs hchains.1]
    show List.foldlM Ruleset.apply _ _ = _
    rw [ih htable.2 (Function.update_self ..) hsome, Function.update_idem, hmore]

end Apply

/-- The tables and chains of the second batch. -/
def setupBatch : Batch := [(.table table, .add), (.chain natChain, .add), (.chain filterChain, .add)]

/-- A chain that the table does not have yet, or has from earlier calls. -/
theorem found_fits {c : Chain} {found : Option ChainState} {calls : List Setting}
    {rulesOf : Setting → List (List Expr)}
    (h : found = none ∧ calls = [] ∨ found = some (c.holding (calls.flatMap rulesOf))) :
    (found.map ChainState.rules).getD [] = calls.flatMap rulesOf ∧
      ∀ old, found = some old → old.hook = c.hook ∧ old.chainType = c.chainType := by
  rcases h with ⟨rfl, rfl⟩ | rfl
  · exact ⟨rfl, fun old h => absurd h (by simp)⟩
  · refine ⟨rfl, fun old h => ?_⟩
    obtain rfl := Option.some.inj h
    exact ⟨rfl, rfl⟩

/-- They are set up, or found as they are. -/
theorem apply_setup {lib : RuleMethods} {rs : Ruleset} {calls : List Setting} (hrs : rs "rustyrouter" = kept lib calls) :
    setupBatch.foldlM Ruleset.apply rs = some (Function.update rs "rustyrouter" (some (built lib calls))) := by
  obtain ⟨chains, htable, hchains, hother⟩ : ∃ chains : TableState,
      rs.apply (.table table, .add) = some (Function.update rs "rustyrouter" (some chains)) ∧
      (∀ name, chains name = none ∧ calls = [] ∨ chains name = built lib calls name) ∧
      ∀ name, name ≠ "nat_postrouting" → name ≠ "filter_input" → chains name = none := by
    cases calls with
    | nil =>
      refine ⟨fun _ => none, ?_, fun _ => .inl ⟨rfl, rfl⟩, fun _ _ _ => rfl⟩
      have hnone : rs "rustyrouter" = none := hrs
      simp [Ruleset.apply, Ruleset.addTable, table, hnone]
    | cons call calls =>
      have hsome : rs "rustyrouter" = some (built lib (call :: calls)) := hrs
      refine ⟨built lib (call :: calls), ?_, fun _ => .inr rfl, fun name hnat hfilter => ?_⟩
      · rw [← hsome, Function.update_eq_self]
        simp [Ruleset.apply, Ruleset.addTable, table, hsome]
      · simp [built, hnat, hfilter]
  obtain ⟨hnatRules, hnatFits⟩ := found_fits (c := natChain) (hchains "nat_postrouting")
  obtain ⟨hfilterRules, hfilterFits⟩ := found_fits (c := filterChain) (hchains "filter_input")
  have hnat := apply_chain (c := natChain) rfl rfl (Function.update_self "rustyrouter" (some chains) rs) rfl hnatFits
  rw [hnatRules, Function.update_idem] at hnat
  generalize hwithNat : Function.update chains "nat_postrouting" _ = withNat at hnat
  have hsame : withNat "filter_input" = chains "filter_input" := by
    rw [← hwithNat, Function.update_of_ne (by decide)]
  rw [← hsame] at hfilterRules hfilterFits
  have hfilter := apply_chain (c := filterChain) rfl rfl (Function.update_self "rustyrouter" (some withNat) rs) rfl
    hfilterFits
  rw [hfilterRules, Function.update_idem] at hfilter
  have hbuilt : built lib calls = Function.update withNat "filter_input"
      (some (filterChain.holding (calls.flatMap (Setting.filterRules lib)))) := by
    funext name
    by_cases hf : name = "filter_input"
    · subst hf
      simp [built]
    · rw [Function.update_of_ne hf, ← hwithNat]
      by_cases hn : name = "nat_postrouting"
      · subst hn
        simp [built]
      · rw [Function.update_of_ne hn, hother name hn hf]
        simp [built, hn, hf]
  rw [setupBatch, List.foldlM_cons, htable, Option.bind_eq_bind, Option.bind_some, List.foldlM_cons, hnat,
    Option.bind_eq_bind, Option.bind_some, List.foldlM_cons, hfilter, hbuilt]
  rfl

/-- Where the rule goes. -/
def Rule.In (r : Rule) (chain : String) : Prop := r.table = "rustyrouter" ∧ r.chain = chain

theorem ifaceRule_in {iface : List UInt8} {r : Rule} (h : ifaceRule iface = some r) : r.In "filter_input" := by
  obtain rfl := Option.some.inj h
  exact ⟨rfl, rfl⟩

/-- The second batch sets up the chains, and adds a call's rules. -/
theorem configureFirewall_batches (lib : RuleMethods) (hlib : lib.Documented) (call : Setting) :
    ∃ rules : List Rule, configureFirewall lib call.wanIface call.lanIface =
        some [delBatch, setupBatch ++ rules.map fun r => (.rule r, .add)] ∧
      (∀ r ∈ rules, r.In "nat_postrouting" ∨ r.In "filter_input") ∧
      (rules.filter fun r => r.chain = "nat_postrouting").map Rule.exprs = call.masqRules ∧
      (rules.filter fun r => r.chain = "filter_input").map Rule.exprs = call.filterRules lib := by
  obtain ⟨masq, hmasq, hmasqIn⟩ : ∃ masq, masqRule call.wanIface = some masq ∧ masq.In "nat_postrouting" :=
    ⟨_, rfl, rfl, rfl⟩
  obtain ⟨lo, hlo⟩ : ∃ lo, loRule = some lo := ⟨_, rfl⟩
  obtain ⟨lan, hlan⟩ : ∃ lan, lanRule call.lanIface = some lan := ⟨_, rfl⟩
  obtain ⟨wanDhcp, hwanDhcp, hwanDhcpIn⟩ : ∃ wanDhcp, wanDhcpRule call.wanIface = some wanDhcp ∧
      wanDhcp.In "filter_input" := ⟨_, rfl, rfl, rfl⟩
  obtain ⟨icmp, hicmp, hicmpIn⟩ : ∃ icmp, icmpRule lib = some icmp ∧ icmp.In "filter_input" :=
    ⟨_, rfl, hlib.table_eq _, hlib.chain_eq _⟩
  obtain ⟨ct, hct, hctIn⟩ : ∃ ct, ctRule = some ct ∧ ct.In "filter_input" := ⟨_, rfl, rfl, rfl⟩
  have hloIn := ifaceRule_in hlo
  have hlanIn := ifaceRule_in hlan
  have hbatches : configureFirewall lib call.wanIface call.lanIface =
      some [delBatch, setupBatch ++ [masq, lo, lan, wanDhcp, icmp, ct].map fun r => (.rule r, .add)] := by
    simp [configureFirewall, hmasq, hlo, hlan, hwanDhcp, hicmp, hct, delBatch, setupBatch]
  refine ⟨[masq, lo, lan, wanDhcp, icmp, ct], hbatches, ?_, ?_, ?_⟩
  · simp only [List.forall_mem_cons]
    exact ⟨.inl hmasqIn, .inr hloIn, .inr hlanIn, .inr hwanDhcpIn, .inr hicmpIn, .inr hctIn, by simp⟩
  · simp [hmasqIn.2, hloIn.2, hlanIn.2, hwanDhcpIn.2, hicmpIn.2, hctIn.2, Setting.masqRules, hmasq]
  · simp [hmasqIn.2, hloIn.2, hlanIn.2, hwanDhcpIn.2, hicmpIn.2, hctIn.2, Setting.filterRules, hlo, hlan, hwanDhcp,
      hicmp, hct]

/-- One more call. -/
theorem built_addRules {lib : RuleMethods} {calls : List Setting} {call : Setting} {rules : List Rule}
    (hnat : (rules.filter fun r => r.chain = "nat_postrouting").map Rule.exprs = call.masqRules)
    (hfilter : (rules.filter fun r => r.chain = "filter_input").map Rule.exprs = call.filterRules lib) :
    (built lib calls).addRules rules = built lib (calls ++ [call]) := by
  funext name
  by_cases hn : name = "nat_postrouting"
  · subst hn
    simp [TableState.addRules, built, Chain.holding, hnat]
  · by_cases hf : name = "filter_input"
    · subst hf
      simp [TableState.addRules, built, Chain.holding, hfilter]
    · simp [TableState.addRules, built, hn, hf]

/-! ### Calls -/

/-- The calls whose rules are in the kernel, after this one. -/
def callsAfter (accepts : Bool × Bool) (call : Setting) (calls : List Setting) : List Setting :=
  let left := if accepts.1 then [] else calls
  if accepts.2 then left ++ [call] else left

/-- The deletion is done, unless it is refused or there is nothing to delete. -/
theorem send_delBatch (lib : RuleMethods) (accepts : Bool) {rs : Ruleset} {calls : List Setting}
    (hrs : rs "rustyrouter" = kept lib calls) :
    (rs.send accepts delBatch).1 =
      Function.update rs "rustyrouter" (kept lib (if accepts then [] else calls)) := by
  cases calls with
  | nil =>
    have hnone : rs "rustyrouter" = none := hrs
    have hkept : kept lib (if accepts then [] else []) = none := by simp [kept]
    rw [hkept, ← hnone, Function.update_eq_self]
    simp [Ruleset.send, delBatch, Ruleset.apply, Ruleset.delTable, table, hnone]
  | cons call calls =>
    have hsome : rs "rustyrouter" = some (built lib (call :: calls)) := hrs
    cases accepts with
    | true => simp [Ruleset.send, delBatch, Ruleset.apply, Ruleset.delTable, table, hsome, kept]
    | false =>
      show _ = Function.update rs "rustyrouter" (some (built lib (call :: calls)))
      rw [← hsome, Function.update_eq_self]
      simp [Ruleset.send, delBatch, Ruleset.apply, Ruleset.delTable, table, hsome]

/-- **What a call does to the kernel's tables.** -/
theorem configureFirewallOn_eq (lib : RuleMethods) (hlib : lib.Documented) (accepts : Bool × Bool) (call : Setting)
    {rs : Ruleset} {calls : List Setting} (hrs : rs "rustyrouter" = kept lib calls) :
    configureFirewallOn lib accepts call.wanIface call.lanIface rs =
      (Function.update rs "rustyrouter" (kept lib (callsAfter accepts call calls)), accepts.2) := by
  obtain ⟨rules, hbatches, hin, hnat, hfilter⟩ := configureFirewall_batches lib hlib call
  rw [configureFirewallOn, send_delBatch lib accepts.1 hrs, hbatches]
  generalize hleft : (if accepts.1 then [] else calls) = left
  have hafter : callsAfter accepts call calls = if accepts.2 then left ++ [call] else left := by
    rw [callsAfter, hleft]
  have hsetup : setupBatch.foldlM Ruleset.apply (Function.update rs "rustyrouter" (kept lib left)) =
      some (Function.update rs "rustyrouter" (some (built lib left))) := by
    rw [apply_setup (Function.update_self ..), Function.update_idem]
  have hrules : (rules.map fun r => (Object.rule r, MsgType.add)).foldlM Ruleset.apply
      (Function.update rs "rustyrouter" (some (built lib left))) =
      some (Function.update rs "rustyrouter" (some (built lib (left ++ [call])))) := by
    rw [apply_rules (fun r hr => (hin r hr).elim And.left And.left) (Function.update_self ..) fun r hr => ?_,
      Function.update_idem, built_addRules hnat hfilter]
    rcases hin r hr with hplace | hplace <;> simp [built, hplace.2]
  have hall : (setupBatch ++ rules.map fun r => (Object.rule r, MsgType.add)).foldlM Ruleset.apply
      (Function.update rs "rustyrouter" (kept lib left)) =
      some (Function.update rs "rustyrouter" (some (built lib (left ++ [call])))) := by
    rw [List.foldlM_append, hsetup]
    exact hrules
  simp only [Ruleset.send, hall, hafter]
  cases accepts.2 with
  | true => simp [kept]
  | false => simp

/-! ### What the tables say -/

theorem masqRules_accept {out : IfName} (hout : p.oif = some out) (call : Setting) :
    List.Forall₂ (Accepts p) call.masqRules [out.Is call.wanIface] ∧ ∀ rule ∈ call.masqRules, OnlyBy p .masquerade rule := by
  obtain ⟨masq, hmasq⟩ : ∃ masq, masqRule call.wanIface = some masq := ⟨_, rfl⟩
  obtain ⟨haccepts, honly⟩ := accepts_masq p hout hmasq
  simp only [Setting.masqRules, hmasq, Option.map_some, Option.toList_some]
  exact ⟨.cons haccepts .nil, List.forall_mem_singleton.mpr honly⟩

variable {p}

theorem forall₂_flatMap {α : Type} {rulesOf : α → List (List Expr)} {conditionsOf : α → List Prop}
    (h : ∀ a, List.Forall₂ (Accepts p) (rulesOf a) (conditionsOf a)) (calls : List α) :
    List.Forall₂ (Accepts p) (calls.flatMap rulesOf) (calls.flatMap conditionsOf) := by
  induction calls with
  | nil => exact .nil
  | cons call calls ih => exact List.rel_append (h call) ih

/-- The input chain admits what any of the calls admits. -/
theorem built_verdict {lib : RuleMethods} (hlib : lib.Documented) {rs : Ruleset} {calls : List Setting}
    (hrs : rs "rustyrouter" = kept lib calls) (hne : calls ≠ []) (p : Packet) (regs : Registers) :
    ∃ v, rs.verdict "rustyrouter" "filter_input" p regs = some v ∧
      (v = .accept ↔ ∃ call ∈ calls, AdmittedAs p call.wanIface call.lanIface) := by
  have hsome : rs "rustyrouter" = some (built lib calls) := by
    rw [hrs, kept, if_neg (by simp [hne])]
  refine ⟨runChain p .drop (calls.flatMap (Setting.filterRules lib)) regs, ?_, ?_⟩
  · simp [Ruleset.verdict, Ruleset.chain, hsome, built, Chain.holding, filterChain]
  · rw [chain_accepts_iff (forall₂_flatMap (filterRules_accept p hlib) calls) regs]
    simp only [← conditions_iff, List.mem_flatMap]
    constructor
    · rintro ⟨c, ⟨call, hcall, hmem⟩, hc⟩
      exact ⟨call, hcall, c, hmem, hc⟩
    · rintro ⟨call, hcall, c, hmem, hc⟩
      exact ⟨c, ⟨call, hcall, hmem⟩, hc⟩

/-- And the other one masquerades what any of them does. -/
theorem built_masquerades {lib : RuleMethods} {rs : Ruleset} {calls : List Setting}
    (hrs : rs "rustyrouter" = kept lib calls) {out : IfName} (hout : p.oif = some out) (regs : Registers) :
    rs.masquerades "rustyrouter" "nat_postrouting" p regs ↔ ∃ call ∈ calls, out.Is call.wanIface := by
  cases hcalls : calls with
  | nil =>
    rw [hcalls] at hrs
    have hnone : rs "rustyrouter" = none := hrs
    simp [Ruleset.masquerades, Ruleset.chain, hnone]
  | cons call rest =>
    rw [← hcalls]
    have hsome : rs "rustyrouter" = some (built lib calls) := by
      rw [hrs, kept, if_neg (by simp [hcalls])]
    have honly : ∀ rule ∈ calls.flatMap Setting.masqRules, OnlyBy p .masquerade rule := by
      intro rule hrule
      obtain ⟨call, -, hmem⟩ := List.mem_flatMap.mp hrule
      exact (masqRules_accept p hout call).2 rule hmem
    have hchain := chainDeciding_iff (forall₂_flatMap (fun call => (masqRules_accept p hout call).1) calls) honly regs
    simp only [Ruleset.masquerades, Ruleset.chain, hsome, Option.bind_some, built, if_true, Chain.holding, Option.any_some,
      beq_iff_eq, hchain, List.mem_flatMap, List.mem_singleton]
    constructor
    · rintro ⟨c, ⟨call, hcall, rfl⟩, hc⟩
      exact ⟨call, hcall, hc⟩
    · rintro ⟨call, hcall, hc⟩
      exact ⟨_, ⟨call, hcall, rfl⟩, hc⟩

/-! ### Runs -/

structure FirewallState where
  ruleset : Ruleset
  /-- The calls whose rules are in the kernel. -/
  calls : List Setting
  /-- What the others have made of their tables. -/
  others : Ruleset

inductive FirewallEvent where
  | configure (call : Setting) (accepts : Bool × Bool)
  | other (name : String) (chains : Option TableState)

/-- The program calls `configure_firewall`, as often as it starts, and others work on
tables of their own. -/
def firewall (lib : RuleMethods) : System FirewallState FirewallEvent where
  step s
    | .configure call accepts =>
      some { s with
        ruleset := (configureFirewallOn lib accepts call.wanIface call.lanIface s.ruleset).1
        calls := callsAfter accepts call s.calls }
    | .other name chains =>
      if name = "rustyrouter" then none
      else some { s with
        ruleset := Function.update s.ruleset name chains
        others := Function.update s.others name chains }

/-- The kernel deletes what it is asked to delete. -/
def FirewallEvent.Deletes : FirewallEvent → Prop
  | .configure _ accepts => accepts.1 = true
  | .other _ _ => True

variable {lib : RuleMethods} {s t : FirewallState} {e : FirewallEvent} {es : List FirewallEvent}

/-- The kernel has the rules of the calls, and the tables of the others. -/
structure Standing (lib : RuleMethods) (s : FirewallState) : Prop where
  kept : s.ruleset "rustyrouter" = kept lib s.calls
  others : ∀ name, name ≠ "rustyrouter" → s.ruleset name = s.others name

theorem standing_step (hlib : lib.Documented) (hs : Standing lib s) (h : (firewall lib).step s e = some t) :
    Standing lib t := by
  cases e with
  | configure call accepts =>
    obtain rfl := Option.some.inj h
    have hcall := configureFirewallOn_eq lib hlib accepts call hs.kept
    refine ⟨?_, fun name hne => ?_⟩
    · show (configureFirewallOn lib accepts call.wanIface call.lanIface s.ruleset).1 "rustyrouter" = _
      rw [hcall]
      simp only [Function.update_self]
    · show (configureFirewallOn lib accepts call.wanIface call.lanIface s.ruleset).1 name = _
      rw [hcall]
      exact (Function.update_of_ne hne ..).trans (hs.others name hne)
  | other name chains =>
    simp only [firewall, Option.ite_none_left_eq_some, Option.some.injEq] at h
    obtain ⟨hname, rfl⟩ := h
    refine ⟨?_, fun other hne => ?_⟩
    · show Function.update s.ruleset name chains "rustyrouter" = _
      rw [Function.update_of_ne (Ne.symm hname)]
      exact hs.kept
    · by_cases heq : other = name
      · subst heq
        show Function.update s.ruleset other chains other = Function.update s.others other chains other
        rw [Function.update_self, Function.update_self]
      · show Function.update s.ruleset name chains other = Function.update s.others name chains other
        rw [Function.update_of_ne heq, Function.update_of_ne heq]
        exact hs.others other hne

/-- A call of the program, and whether the kernel takes its rules. -/
def FirewallEvent.call? : FirewallEvent → Option (Setting × Bool)
  | .configure call accepts => some (call, accepts.2)
  | .other _ _ => none

/-- The last call, if the kernel has taken its rules. -/
def lastTaken (es : List FirewallEvent) : Option Setting :=
  (es.filterMap FirewallEvent.call?).getLast?.bind fun (call, taken) => if taken then some call else none

theorem lastTaken_configure (call : Setting) (accepts : Bool × Bool) :
    lastTaken (es ++ [.configure call accepts]) = if accepts.2 then some call else none := by
  simp [lastTaken, FirewallEvent.call?]

theorem lastTaken_other (name : String) (chains : Option TableState) :
    lastTaken (es ++ [.other name chains]) = lastTaken es := by
  simp [lastTaken, FirewallEvent.call?]

/-- A call whose deletion is done leaves nothing of the earlier ones. -/
theorem calls_step (hs : s.calls = (lastTaken es).toList) (he : e.Deletes) (h : (firewall lib).step s e = some t) :
    t.calls = (lastTaken (es ++ [e])).toList := by
  cases e with
  | configure call accepts =>
    obtain rfl := Option.some.inj h
    show callsAfter accepts call s.calls = _
    have hdel : accepts.1 = true := he
    rw [callsAfter, hdel, lastTaken_configure]
    cases accepts.2 <;> rfl
  | other name chains =>
    simp only [firewall, Option.ite_none_left_eq_some, Option.some.injEq] at h
    obtain ⟨-, rfl⟩ := h
    rw [lastTaken_other]
    exact hs

theorem calls_run {before : FirewallState} (hbefore : before.calls = []) (hdeletes : ∀ e ∈ es, e.Deletes)
    (h : (firewall lib).run before es = some s) : s.calls = (lastTaken es).toList := by
  refine (firewall lib).run_history (I := fun es s => (∀ e ∈ es, e.Deletes) → s.calls = (lastTaken es).toList)
    (fun _ => hbefore) (fun es s e t _ hs hstep hdeletes => ?_) h hdeletes
  rw [List.forall_mem_append, List.forall_mem_singleton] at hdeletes
  exact calls_step (hs hdeletes.1) hdeletes.2 hstep

/-- **The firewall of the router**, from a kernel without its table on, over any calls,
whatever the kernel accepts and whatever others do to their tables. -/
theorem firewall_stands (hlib : lib.Documented) {before : Ruleset} (hbefore : before "rustyrouter" = none)
    (h : (firewall lib).run ⟨before, [], before⟩ es = some s) :
    s.ruleset "rustyrouter" = kept lib s.calls ∧
      (s.ruleset "rustyrouter" = none ↔ s.calls = []) ∧
      (s.calls ≠ [] → ∀ p regs, ∃ v, s.ruleset.verdict "rustyrouter" "filter_input" p regs = some v ∧
        (v = .accept ↔ ∃ call ∈ s.calls, AdmittedAs p call.wanIface call.lanIface)) ∧
      (∀ p out, p.oif = some out → ∀ regs, s.ruleset.masquerades "rustyrouter" "nat_postrouting" p regs ↔
        ∃ call ∈ s.calls, out.Is call.wanIface) ∧
      (∀ name, name ≠ "rustyrouter" → s.ruleset name = s.others name) ∧
      ((∀ e ∈ es, e.Deletes) → s.calls = (lastTaken es).toList) := by
  have hs : Standing lib s := (firewall lib).run_invariant (fun _ _ _ hs hstep => standing_step hlib hs hstep)
    ⟨hbefore, fun _ _ => rfl⟩ h
  refine ⟨hs.kept, ?_, fun hne => built_verdict hlib hs.kept hne,
    fun p out hout regs => built_masquerades hs.kept hout regs, hs.others, fun hdeletes => calls_run rfl hdeletes h⟩
  rw [hs.kept, kept]
  cases s.calls <;> simp

/-! ### A restart under other names -/

/-- First the WAN is `eth0`, then `eth1`; the kernel refuses the second deletion, and takes
the rules all the same. -/
def renamed : List FirewallEvent :=
  [.configure ⟨eth0.bytes, eth1.bytes⟩ (true, true), .other "docker" (some fun _ => none),
    .configure ⟨eth1.bytes, eth0.bytes⟩ (false, true)]

/-- Both rules stay, and both ways out masquerade. -/
theorem firewall_stands_renamed : ∃ s, (firewall protocolMethods).run ⟨fun _ => none, [], fun _ => none⟩ renamed = some s ∧
    s.calls.length = 2 ∧ ∀ p out, p.oif = some out → out = eth0 ∨ out = eth1 →
      ∀ regs, s.ruleset.masquerades "rustyrouter" "nat_postrouting" p regs := by
  have hrun : ∃ s, (firewall protocolMethods).run ⟨fun _ => none, [], fun _ => none⟩ renamed = some s ∧
      s.calls = [⟨eth0.bytes, eth1.bytes⟩, ⟨eth1.bytes, eth0.bytes⟩] := ⟨_, rfl, rfl⟩
  obtain ⟨s, hrun, hcalls⟩ := hrun
  obtain ⟨-, -, -, hmasq, -⟩ := firewall_stands protocolMethods_documented rfl hrun
  refine ⟨s, hrun, by rw [hcalls]; rfl, fun p out hout hwan regs => (hmasq p out hout regs).mpr ?_⟩
  rw [hcalls]
  rcases hwan with rfl | rfl
  · exact ⟨_, List.mem_cons_self, ifName_is_iff.mpr rfl⟩
  · exact ⟨_, List.mem_cons_of_mem _ List.mem_cons_self, ifName_is_iff.mpr rfl⟩

end RustyRouter.Netfilter
