import RustyRouter.Lan.Setting
import RustyRouter.Wan.Client

/-! The addresses of the machine.

`configure_wan` and `deconfigure_wan` work on the kernel's table of addresses, which has
entries of every interface: the first deletes what is listed of the WAN interface and adds
the leased address, the second deletes the leased address. An entry that cannot be deleted
is only warned about, and a listing that fails halfway leaves what it had not come to.

`wired` is the client together with this table. What `configure_wan` returns is what the
client's own model says (`configureWanOn_snd`), so `wired` takes the steps of `client`. -/
namespace RustyRouter.Wan
open Lan (IpAddr)
open Transition

/-- An entry of the table: its interface, its `AddressAttribute::Local` attributes and its
prefix length. -/
structure AddressEntry where
  index : Nat
  locals : List IpAddr
  prefixLen : Nat
  deriving DecidableEq, Repr

/-- The kernel's answers, to the deletions too; `listed` says how many entries a listing
that fails has come to. -/
structure Answers extends Netlink where
  listed : Nat
  delAddress : AddressEntry → Except String Unit

variable (answers : Answers) (wanInterface : String) (ip mask : Ipv4Addr) (gateway : Option Ipv4Addr)
  (table : List AddressEntry)

def Answers.deletes (entry : AddressEntry) : Bool :=
  match answers.delAddress entry with
  | .ok _ => true
  | .error _ => false

/-- The entries that `try_next` comes to. -/
def Answers.listing : List AddressEntry :=
  match answers.listAddresses with
  | .ok _ => table
  | .error _ => table.take answers.listed

/-- One after another, what is listed and meant is deleted. -/
def deleteAddresses (meant : AddressEntry → Bool) : List AddressEntry :=
  (answers.listing table).foldl
    (fun left entry => if meant entry && answers.deletes entry then left.erase entry else left) table

/-- The head of both functions: the prefix length, and the index of the interface. -/
def openWan : Except DhcpError (Nat × Nat) := do
  let prefixLen ← maskToPrefixLen mask
  answers.newConnection.mapError .rtNetlink
  match ← (answers.linkIndex wanInterface).mapError .rtNetlink with
  | none => .error (.interfaceNotFound wanInterface)
  | some index => .ok (index, prefixLen)

/-- What becomes of the table, and what is returned. A default route that cannot be added
is only warned about. -/
def configureWanOn : List AddressEntry × Except DhcpError Unit :=
  match openWan answers wanInterface mask with
  | .error e => (table, .error e)
  | .ok (index, prefixLen) =>
    let flushed := deleteAddresses answers table fun entry => entry.index == index
    let rest : Except String Unit := do
      answers.listAddresses
      answers.linkUp index
      answers.addAddress index ip prefixLen
    match rest with
    | .error e => (flushed, .error (.rtNetlink e))
    | .ok _ => (flushed ++ [⟨index, [.v4 ip], prefixLen⟩], .ok ())

def deconfigureWanOn : List AddressEntry × Except DhcpError Unit :=
  match openWan answers wanInterface mask with
  | .error e => (table, .error e)
  | .ok (index, _) =>
    (deleteAddresses answers table fun entry => entry.index == index && entry.locals.contains (.v4 ip),
      answers.listAddresses.mapError .rtNetlink)

/-- What `configure_wan` returns does not depend on the table. -/
theorem configureWanOn_snd :
    (configureWanOn answers wanInterface ip mask table).2 =
      configureWan answers.toNetlink wanInterface ip mask gateway := by
  unfold configureWanOn openWan configureWan
  cases maskToPrefixLen mask with
  | error e => rfl
  | ok prefixLen =>
    cases answers.newConnection with
    | error e => rfl
    | ok =>
      cases answers.linkIndex wanInterface with
      | error e => rfl
      | ok found =>
        cases found with
        | none => rfl
        | some index =>
          cases hlist : answers.listAddresses with
          | error e => simp [bind, Except.bind, Except.mapError]
          | ok =>
            cases hup : answers.linkUp index with
            | error e => simp [bind, Except.bind, Except.mapError, hup]
            | ok =>
              cases hadd : answers.addAddress index ip prefixLen with
              | error e => simp [bind, Except.bind, Except.mapError, hup, hadd]
              | ok =>
                simp only [bind, Except.bind, Except.mapError, hup, hadd]
                split <;> rfl

/-! ### The client and the table -/

structure WiredState where
  client : ClientState
  addresses : List AddressEntry

/-- An event, and the answers to what the client asks of the kernel on it. -/
structure WiredEvent where
  event : Event
  answers : Answers

/-- The event as the client takes it. -/
def WiredEvent.taken (e : WiredEvent) : Event :=
  match e.event.input with
  | .netlink _ => { e.event with input := .netlink e.answers.toNetlink }
  | _ => e.event

/-- What a step from `s` to `t` makes of the table. Outside `apply_lease_config` only
`deconfigure` asks for something, the deletion of the address whose lease it clears. -/
def addressesAfter (s t : ClientState) : List AddressEntry :=
  match s.phase with
  | .configuring ack => (configureWanOn answers wanInterface ack.ip ack.mask table).1
  | _ =>
    match s.lease.ip, s.lease.mask with
    | some ip, some mask =>
      if t.lease = .default then (deconfigureWanOn answers wanInterface ip mask table).1 else table
    | _, _ => table

def wired (c : DhcpClient) : System WiredState WiredEvent where
  step s e :=
    ((client c).step s.client e.taken).map fun t =>
      ⟨t, addressesAfter e.answers c.wanInterface s.addresses s.client t⟩

/-- The client of `wired` is the client. -/
theorem wired_run {c : DhcpClient} {s t : WiredState} {es : List WiredEvent} (h : (wired c).run s es = some t) :
    (client c).run s.client (es.map WiredEvent.taken) = some t.client := by
  induction es generalizing s with
  | nil =>
    obtain rfl : s = t := by simpa using h
    rfl
  | cons e rest ih =>
    obtain ⟨u, hu, hrest⟩ := ((wired c).run_cons_eq_some).mp h
    obtain ⟨v, hv, rfl⟩ := Option.map_eq_some_iff.mp hu
    exact (client c).run_step hv (ih hrest)

/-! ### What a deletion leaves -/

/-- Erasing some of the first elements of a list, one after another, is filtering them. -/
theorem foldl_erase {α : Type*} [DecidableEq α] (p : α → Bool) (kept first rest : List α)
    (hkept : ∀ x ∈ kept, p x = false) :
    first.foldl (fun left x => if p x then left.erase x else left) (kept ++ (first ++ rest)) =
      kept ++ (first.filter (fun x => !p x) ++ rest) := by
  induction first generalizing kept with
  | nil => rfl
  | cons x first ih =>
    rw [List.foldl_cons]
    cases hx : p x with
    | true =>
      have hnot : x ∉ kept := fun hmem => by simp [hkept x hmem] at hx
      have herase : (kept ++ (x :: first ++ rest)).erase x = kept ++ (first ++ rest) := by
        rw [List.erase_append_right _ hnot]
        simp
      rw [if_pos rfl, herase, ih kept hkept]
      simp [hx]
    | false =>
      rw [if_neg (by simp), List.cons_append, List.append_cons,
        ih (kept ++ [x]) fun y hy => by
          rcases List.mem_append.mp hy with hy | hy
          · exact hkept y hy
          · rwa [List.mem_singleton.mp hy]]
      simp [hx]

/-- The listed part of the table is filtered, and the rest stays. -/
theorem deleteAddresses_eq (meant : AddressEntry → Bool) : ∃ first rest, table = first ++ rest ∧
    deleteAddresses answers table meant =
      first.filter (fun entry => !(meant entry && answers.deletes entry)) ++ rest ∧
    (answers.listAddresses = .ok () → rest = []) := by
  have hfold := fun first rest : List AddressEntry =>
    foldl_erase (fun entry => meant entry && answers.deletes entry) [] first rest (by simp)
  unfold deleteAddresses Answers.listing
  cases hlist : answers.listAddresses with
  | ok =>
    refine ⟨table, [], (List.append_nil table).symm, ?_, fun _ => rfl⟩
    simpa using hfold table []
  | error e =>
    refine ⟨table.take answers.listed, table.drop answers.listed, (List.take_append_drop _ _).symm, ?_, ?_⟩
    · simpa using hfold (table.take answers.listed) (table.drop answers.listed)
    · exact fun h => absurd h (by simp)

/-! ### An uplink with a kernel -/

namespace Uplink

/-- Every request succeeds. -/
def granting : Answers := { Netlink.working with listed := 0, delAddress := fun _ => .ok () }

/-- The table before the client starts. -/
def loopback : AddressEntry := ⟨1, [.v4 (Ipv4Addr.new 127 0 0 1)], 8⟩

/-- A negotiation that ends with the kernel's answer. -/
def wiredNegotiation : List WiredEvent :=
  ([event 0 .timeout 7] ++ negotiation 0 7 60 ++ [event 0 (.netlink Netlink.working) 0]).map fun e =>
    ⟨e, granting⟩

/-- It leads to a bound client. -/
theorem wiredNegotiation_run : ∃ s, (wired router).run ⟨.initial, [loopback]⟩ wiredNegotiation = some s ∧
    s.client.phase = .bound (lease 60) 0 ∧ s.addresses = [loopback, ⟨2, [.v4 (Ipv4Addr.new 10 0 2 15)], 24⟩] := by
  have hrun : ((wired router).run ⟨.initial, [loopback]⟩ wiredNegotiation).any (fun s =>
      decide (s.client.phase = .bound (lease 60) 0) &&
        decide (s.addresses = [loopback, ⟨2, [.v4 (Ipv4Addr.new 10 0 2 15)], 24⟩])) = true := by
    decide +kernel
  obtain ⟨s, hs, heq⟩ := Option.any_eq_true _ _ |>.mp hrun
  simp only [Bool.and_eq_true, decide_eq_true_eq] at heq
  exact ⟨s, hs, heq⟩

end Uplink

end RustyRouter.Wan
