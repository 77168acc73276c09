import RustyRouter.Dns.Upstream
import RustyRouter.Wan.Dialogue

/-! The DHCP client and the DNS forwarder of one router.

They share the `WanLease`: the client writes it, the forwarder reads the DNS servers out of
it whenever it sends a query on, at any point of either. A run of both is a run of each, the
forwarder's with the leases of the client's put in (`services_client`,
`services_forwarder`). So what was shown of each holds of both, and together they are
`replies_trusted`: the router asks, and its clients hear, nobody but the fallback and the
servers that came with an ACK for a REQUEST of its own. -/
namespace RustyRouter.Services
open Transition Wan Dns

structure ServicesState where
  client : ClientState
  forwarder : ForwarderState

def ServicesState.initial : ServicesState := ⟨.initial, .initial⟩

inductive ServicesEvent where
  | client (e : Wan.Event)
  | forwarder (e : Dns.Event)

variable (c : DhcpClient) (dns : DnsParser)

/-- They run by one clock, that of the forwarder; its servers are those of the lease. -/
def services : System ServicesState ServicesEvent where
  step s
    | .client e =>
      if e.now = s.forwarder.now then
        ((client c).step s.client e).map fun client =>
          ⟨client, { s.forwarder with dnsServers := client.lease.dnsServers }⟩
      else none
    | .forwarder (.lease _) => none
    | .forwarder e => ((forwarder dns).step s.forwarder e).map fun forwarder => { s with forwarder := forwarder }

/-- What the client hears in a run of both. -/
def clientEvents (es : List ServicesEvent) : List Wan.Event :=
  es.filterMap fun
    | .client e => some e
    | .forwarder _ => none

/-- The shared lease was, at some moment, that of this ACK, which had come for a REQUEST of
the client's own. -/
def Leased (es : List Wan.Event) (ack : DhcpAck) : Prop :=
  ∃ before u, before <+: es ∧ (client c).run .initial before = some u ∧ u.lease = .ofAck ack ∧
    Answered c before u.sent ack u.now

/-- The DNS servers the lease may have. -/
def Known (es : List Wan.Event) (servers : List Ipv4Addr) : Prop :=
  servers = [] ∨ ∃ ack, Leased c es ack ∧ servers = ack.dnsServers

/-- The fallback, or the first DNS server of a lease. -/
def Trusted (es : List Wan.Event) (ip : Ipv4Addr) : Prop :=
  ip = fallbackDnsServer ∨ ∃ ack, Leased c es ack ∧ ack.dnsServers.head? = some ip

variable {c : DhcpClient} {dns : DnsParser} {s t : ServicesState} {e : ServicesEvent} {es : List ServicesEvent}

/-! ### One step of both -/

theorem services_step_client {e : Wan.Event} (h : (services c dns).step s (.client e) = some t) :
    (client c).step s.client e = some t.client ∧
      (forwarder dns).step s.forwarder (.lease t.client.lease.dnsServers) = some t.forwarder := by
  simp only [services, Option.ite_none_right_eq_some, Option.map_eq_some_iff] at h
  obtain ⟨-, client, hclient, rfl⟩ := h
  exact ⟨hclient, rfl⟩

theorem services_step_forwarder {e : Dns.Event} (h : (services c dns).step s (.forwarder e) = some t) :
    t.client = s.client ∧ (forwarder dns).step s.forwarder e = some t.forwarder ∧ ∀ servers, e ≠ .lease servers := by
  cases e with
  | lease => exact absurd h (by simp [services])
  | _ =>
    simp only [services, Option.map_eq_some_iff] at h
    obtain ⟨forwarder, hforwarder, rfl⟩ := h
    exact ⟨rfl, hforwarder, by simp⟩

/-! ### Runs of both -/

theorem clientEvents_snoc (e : ServicesEvent) :
    clientEvents (es ++ [e]) = clientEvents es ++ clientEvents [e] := List.filterMap_append

theorem services_client (h : (services c dns).run .initial es = some s) :
    (client c).run .initial (clientEvents es) = some s.client := by
  refine (services c dns).run_history (I := fun es s => (client c).run .initial (clientEvents es) = some s.client)
    rfl (fun before u e v _ ih hstep => ?_) h
  rw [clientEvents_snoc]
  cases e with
  | client e => exact System.run_snoc _ ih (services_step_client hstep).1
  | forwarder e =>
    rw [(services_step_forwarder hstep).1]
    exact (congrArg _ (List.append_nil _)).trans ih

/-- The servers of the lease, at the end of a run of the client. -/
theorem lease_known (hencodes : c.dhcproto.Encodes) {es : List Wan.Event} {u : ClientState}
    (h : (client c).run .initial es = some u) : Known c es u.lease.dnsServers := by
  rcases (dialogue_run hencodes h).lease with hdefault | ⟨ack, hack, hanswered⟩
  · rw [hdefault]
    exact .inl rfl
  · rw [hack]
    exact .inr ⟨ack, ⟨es, u, List.prefix_refl es, h, hack, hanswered⟩, rfl⟩

theorem Known.later {before es : List Wan.Event} {servers : List Ipv4Addr} (h : Known c before servers)
    (hstart : before <+: es) : Known c es servers := by
  rcases h with hempty | ⟨ack, ⟨first, u, hfirst, hrun, hlease, hanswered⟩, hservers⟩
  · exact .inl hempty
  · exact .inr ⟨ack, ⟨first, u, hfirst.trans hstart, hrun, hlease, hanswered⟩, hservers⟩

variable (c) in
/-- An event of the forwarder in a run of both: a lease of the client's, or its own event. -/
def Shared (es : List ServicesEvent) (fe : Dns.Event) : Prop :=
  (∃ servers, fe = .lease servers ∧ Known c (clientEvents es) servers) ∨
    (∀ servers, fe ≠ .lease servers) ∧ .forwarder fe ∈ es

theorem Shared.known {servers : List Ipv4Addr} (h : Shared c es (.lease servers)) : Known c (clientEvents es) servers := by
  rcases h with ⟨servers', heq, hknown⟩ | ⟨hne, -⟩
  · rwa [Dns.Event.lease.inj heq]
  · exact absurd rfl (hne servers)

/-- The forwarder of both takes its own events, and the servers of the client's leases. -/
theorem services_forwarder (hencodes : c.dhcproto.Encodes) (h : (services c dns).run .initial es = some s) :
    ∃ fes, (forwarder dns).run .initial fes = some s.forwarder ∧ ∀ fe ∈ fes, Shared c es fe := by
  refine (services c dns).run_history (I := fun es s => ∃ fes, (forwarder dns).run .initial fes = some s.forwarder ∧
    ∀ fe ∈ fes, Shared c es fe) ⟨[], rfl, by simp⟩ ?_ h
  intro before u e v hrun ih hstep
  obtain ⟨fes, hfes, hshared⟩ := ih
  have hstart : clientEvents before <+: clientEvents (before ++ [e]) := by
    rw [clientEvents_snoc]
    exact List.prefix_append _ _
  have hlater : ∀ fe, Shared c before fe → Shared c (before ++ [e]) fe := by
    intro fe hfe
    apply hfe.imp
    · intro ⟨servers, heq, hknown⟩
      exact ⟨servers, heq, hknown.later hstart⟩
    · intro ⟨hne, hmem⟩
      exact ⟨hne, List.mem_append_left _ hmem⟩
  have hsnoc : ∀ fe, (forwarder dns).step u.forwarder fe = some v.forwarder → Shared c (before ++ [e]) fe →
      ∃ fes, (forwarder dns).run .initial fes = some v.forwarder ∧ ∀ fe ∈ fes, Shared c (before ++ [e]) fe := by
    intro fe hfe hnew
    refine ⟨fes ++ [fe], System.run_snoc _ hfes hfe, fun other hmem => ?_⟩
    rcases List.mem_append.mp hmem with hold | hlast
    · exact hlater other (hshared other hold)
    · exact List.mem_singleton.mp hlast ▸ hnew
  cases e with
  | client e =>
    have hknown := lease_known hencodes (services_client (System.run_snoc _ hrun hstep))
    exact hsnoc _ (services_step_client hstep).2 (.inl ⟨_, rfl, hknown⟩)
  | forwarder e =>
    obtain ⟨-, hforwarder, hne⟩ := services_step_forwarder hstep
    exact hsnoc e hforwarder (.inr ⟨hne, List.mem_append_right _ (List.mem_singleton_self _)⟩)

/-! ### Whom the router asks -/

theorem picked_trusted {es : List Wan.Event} {ip : Ipv4Addr} (h : Picked (Known c es) ip) : Trusted c es ip := by
  obtain ⟨servers, hknown, rfl⟩ := h
  cases servers with
  | nil => exact .inl rfl
  | cons first rest =>
    rcases hknown with hempty | ⟨ack, hleased, hservers⟩
    · exact absurd hempty (by simp)
    · exact .inr ⟨ack, hleased, by rw [← hservers]; rfl⟩

/-- **The router trusts the fallback and its leases, and nobody else**: its queries go
there, and what its clients are answered came in from there, but for the transaction ID. -/
theorem replies_trusted (hencodes : c.dhcproto.Encodes) (h : (services c dns).run .initial es = some s) :
    (∀ id task reg query, s.forwarder.tasks id = some task → task.forwarded = some (reg, query) →
      Trusted c (clientEvents es) reg.upstreamIp) ∧
    ∀ id task reply, s.forwarder.tasks id = some task → task.stage = .done (some reply) →
      ∃ d, .forwarder (.receive d) ∈ es ∧ Trusted c (clientEvents es) d.source ∧
        reply = task.query.take 2 ++ d.payload.drop 2 := by
  obtain ⟨fes, hfes, hshared⟩ := services_forwarder hencodes h
  have hknown : ∀ servers, .lease servers ∈ fes → Known c (clientEvents es) servers :=
    fun servers hmem => (hshared _ hmem).known
  constructor
  · intro id task reg query htask hforwarded
    exact picked_trusted (((asking_run (.inl rfl) hknown hfes).asks id task htask).forwarded reg query hforwarded)
  · intro id task reply htask hstage
    obtain ⟨d, hreceived, hpicked, hreply⟩ := reply_picked (.inl rfl) hknown hfes htask hstage
    have hmem : .forwarder (.receive d) ∈ es := by
      rcases hshared _ hreceived with ⟨servers, heq, -⟩ | ⟨-, hmem⟩
      · exact absurd heq (by simp)
      · exact hmem
    exact ⟨d, hmem, picked_trusted hpicked, (withXidOf_eq_some.mp hreply).2.2⟩

/-! ### A lease with a DNS server -/

def nameServer : Ipv4Addr := Ipv4Addr.new 192 0 2 53

/-- A query goes to the fallback, then a lease comes, and the next one goes to its server. -/
def leasing : List ServicesEvent :=
  (Plain.asked 0 0x61).map .forwarder ++
    [.client (Uplink.event 0 .timeout 7), .client (Uplink.event 0 (.packet (Uplink.offer 7)) 0),
      .client (Uplink.event 0 (.packet (Wire.encode ((Uplink.reply 7 .ack).withOption (.domainNameServer [nameServer])))) 0)] ++
    ([.query 1 (Plain.query 0x62), .act 1 .lookup, .act 1 .upstream, .act 1 (.register [8]), .act 1 (.sent true),
      .receive ⟨nameServer, Plain.reply 8 0x62, some 1⟩, .deliver, .act 1 .wake, .act 1 .insert].map .forwarder)

/-- The server of the second query came with an ACK. -/
theorem replies_trusted_leasing : ∃ s task reg query, (services Uplink.router Plain.dnsParser).run .initial leasing = some s ∧
    s.forwarder.tasks 1 = some task ∧ task.forwarded = some (reg, query) ∧
    ∃ ack, Leased Uplink.router (clientEvents leasing) ack ∧ ack.dnsServers.head? = some reg.upstreamIp := by
  have hrun : ((services Uplink.router Plain.dnsParser).run .initial leasing).any (fun s =>
      (s.forwarder.tasks 1).any fun task => task.forwarded.any fun f => decide (f.1.upstreamIp = nameServer)) = true := by
    decide +kernel
  obtain ⟨s, hs, htask⟩ := Option.any_eq_true _ _ |>.mp hrun
  obtain ⟨task, htask, hforwarded⟩ := Option.any_eq_true _ _ |>.mp htask
  obtain ⟨f, hf, hip⟩ := Option.any_eq_true _ _ |>.mp hforwarded
  have hip : f.1.upstreamIp = nameServer := of_decide_eq_true hip
  refine ⟨s, task, f.1, f.2, hs, htask, hf, ?_⟩
  rcases (replies_trusted Wire.dhcproto_encodes hs).1 1 task f.1 f.2 htask hf with hfallback | hleased
  · exact absurd (hip.symm.trans hfallback) (by decide)
  · exact hleased

end RustyRouter.Services
