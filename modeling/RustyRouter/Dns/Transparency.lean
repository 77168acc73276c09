import RustyRouter.Dns.Acting
import RustyRouter.Dns.Cleanup
import RustyRouter.Dns.Replies

/-! Where a reply comes from.

`Traced` follows a datagram from its arrival, while a query was pending under its
transaction ID, through the receiver's hand, the channel, the task and the cache to the
replies that are made of it. On the way only the first two bytes change: a client gets them
as it sent them, and the rest as it came from upstream (`replies_transparent`). -/
namespace RustyRouter.Dns
open Store Transition

/-- In the run, `d` came in under the transaction ID that the query of `id`, forwarded to
`upstreamIp`, was pending under at that moment. -/
def Arrived (dns : DnsParser) (es : List Event) (id : TaskId) (query : List UInt8) (upstreamIp : Ipv4Addr)
    (d : Datagram) : Prop :=
  ∃ before u task reg, before ++ [.receive d] <+: es ∧ (forwarder dns).run .initial before = some u ∧
    u.tasks id = some task ∧ task.query = query ∧ task.stage.reg = some reg ∧
    reg.upstreamIp = upstreamIp ∧ u.pendingQueries.get reg.xid = some ⟨id, upstreamIp⟩ ∧
    xidOf d.payload = some reg.xid ∧ dnsHeaderSize ≤ d.payload.length

/-- The response was made of a datagram for a query with this key, from where that query
was sent. -/
def Supplied (dns : DnsParser) (es : List Event) (key response : List UInt8) : Prop :=
  ∃ id query d, Arrived dns es id query d.source d ∧ getCacheKey dns query = some key ∧
    withXidOf query d.payload = some response

/-- What is known of the datagrams in the forwarder's hands. -/
structure Traced (dns : DnsParser) (es : List Event) (s : ForwarderState) : Prop where
  keyed : ∀ id task, s.tasks id = some task → task.stage = .done none ∨
    dnsHeaderSize ≤ task.query.length ∧ getCacheKey dns task.query = some task.cacheKey
  inHand : ∀ p d, s.receiver = some (p, d) → ∃ task, s.tasks p.tx = some task ∧
    Arrived dns es p.tx task.query p.upstreamIp d
  heard : ∀ id task d, s.tasks id = some task → task.rx = .value d → Arrived dns es id task.query d.source d
  answered : ∀ id task d, s.tasks id = some task → task.answer = some d →
    Arrived dns es id task.query d.source d
  cached : ∀ key entry, s.cache.get key = some entry → Supplied dns es key entry.response
  replied : ∀ id task reply, s.tasks id = some task → task.stage = .done (some reply) →
    ∃ origin query d, Arrived dns es origin query d.source d ∧ getCacheKey dns query = some task.cacheKey ∧
      withXidOf task.query d.payload = some reply ∧
      (task.forwarded ≠ none → origin = id ∧ query = task.query)
  unpanicked : ∀ id task, s.tasks id = some task → task.stage ≠ .panicked

variable {dns : DnsParser} {es : List Event} {s t : ForwarderState} {e : Event}

theorem initial_traced : Traced dns [] .initial where
  keyed id task htask := absurd htask (by simp [ForwarderState.initial])
  inHand p d hreceiver := absurd hreceiver (by simp [ForwarderState.initial])
  heard id task d htask := absurd htask (by simp [ForwarderState.initial])
  answered id task d htask := absurd htask (by simp [ForwarderState.initial])
  cached key entry hget := absurd hget (by simp [ForwarderState.initial])
  replied id task reply htask := absurd htask (by simp [ForwarderState.initial])
  unpanicked id task htask := absurd htask (by simp [ForwarderState.initial])

/-! ### What a longer run keeps -/

theorem Arrived.snoc {id : TaskId} {query : List UInt8} {upstreamIp : Ipv4Addr} {d : Datagram}
    (h : Arrived dns es id query upstreamIp d) (e : Event) : Arrived dns (es ++ [e]) id query upstreamIp d := by
  obtain ⟨before, u, task, reg, hearlier, hrest⟩ := h
  exact ⟨before, u, task, reg, hearlier.trans (List.prefix_append es [e]), hrest⟩

theorem Supplied.snoc {key response : List UInt8} (h : Supplied dns es key response) (e : Event) :
    Supplied dns (es ++ [e]) key response := by
  obtain ⟨id, query, d, harrived, hrest⟩ := h
  exact ⟨id, query, d, harrived.snoc e, hrest⟩

theorem forwarder_query (hS : Sourced s) (h : (forwarder dns).step s e = some t) {id : TaskId} {before : Task}
    (hbefore : s.tasks id = some before) : ∃ after, t.tasks id = some after ∧ after.query = before.query := by
  obtain ⟨after, hafter, hturn⟩ := forwarder_persists h hbefore
  exact ⟨after, hafter, (hturn.keeps (hS id before hbefore)).1⟩

/-- The datagram the receiver takes up arrives for the entry it takes out. -/
theorem receive_takes {d d' : Datagram} {p : PendingQuery} (hidle : s.receiver = none)
    (h : (s.receive d).receiver = some (p, d')) : d' = d ∧ dnsHeaderSize ≤ d.payload.length ∧
      ∃ xid, xidOf d.payload = some xid ∧ s.pendingQueries.get xid = some p := by
  unfold ForwarderState.receive at h
  split at h
  · exact absurd (hidle.symm.trans h) (by simp)
  · rename_i hlen
    split at h
    · exact absurd (hidle.symm.trans h) (by simp)
    · rename_i xid hxid
      split at h
      · exact absurd (hidle.symm.trans h) (by simp)
      · rename_i q hget
        obtain ⟨rfl, rfl⟩ := Prod.mk.inj (Option.some.inj h)
        exact ⟨rfl, Nat.not_lt.mp hlen, xid, hxid, hget⟩

/-! ### One step -/

theorem Traced.keyed_step (hT : Traced dns es s) (h : (forwarder dns).step s e = some t) :
    ∀ id task, t.tasks id = some task → task.stage = .done none ∨
      dnsHeaderSize ≤ task.query.length ∧ getCacheKey dns task.query = some task.cacheKey := by
  intro id after hafter
  rcases forwarder_task h hafter with ⟨bytes, -, hquery, -, -, hspawned⟩ | ⟨before, hbefore, halone | hacted⟩
  · rw [hquery]
    exact hspawned.imp (fun hdone => hdone) fun h => h.2
  · rw [halone.stage, halone.query, halone.cacheKey]
    exact hT.keyed id before hbefore
  · rw [hacted.query, hacted.cacheKey]
    exact (hT.keyed id before hbefore).imp (fun hdone => absurd hdone (hacted.unfinished none)) fun h => h

theorem Traced.inHand_step (hT : Traced dns es s) (hrun : (forwarder dns).run .initial es = some s)
    (h : (forwarder dns).step s e = some t) : ∀ p d, t.receiver = some (p, d) →
      ∃ task, t.tasks p.tx = some task ∧ Arrived dns (es ++ [e]) p.tx task.query p.upstreamIp d := by
  obtain ⟨hR, hS⟩ := reachable_sourced hrun
  intro p d hreceiver
  have hold : ∃ task, s.tasks p.tx = some task ∧ Arrived dns (es ++ [e]) p.tx task.query p.upstreamIp d := by
    rcases forwarder_receiver h hreceiver with hbefore | rfl
    · obtain ⟨task, htask, harrived⟩ := hT.inHand p d hbefore
      exact ⟨task, htask, harrived.snoc e⟩
    · simp only [forwarder, Option.ite_none_right_eq_some, Option.isNone_iff_eq_none, Option.some.injEq] at h
      obtain ⟨hidle, rfl⟩ := h
      obtain ⟨-, hlen, xid, hxid, hget⟩ := receive_takes hidle hreceiver
      obtain ⟨task, htask, hreg, -⟩ := hR.entry xid p hget
      exact ⟨task, htask, es, s, task, _, List.prefix_refl _, hrun, htask, rfl, hreg, rfl, hget, hxid, hlen⟩
  obtain ⟨task, htask, harrived⟩ := hold
  obtain ⟨after, hafter, hquery⟩ := forwarder_query hS h htask
  exact ⟨after, hafter, hquery ▸ harrived⟩

theorem Traced.heard_step (hT : Traced dns es s) (hS : Sourced s) (h : (forwarder dns).step s e = some t) :
    ∀ id task d, t.tasks id = some task → task.rx = .value d →
      Arrived dns (es ++ [e]) id task.query d.source d := by
  intro id after d hafter hrx
  rcases forwarder_turn h hafter with ⟨-, hfresh⟩ | ⟨before, hbefore, hturn⟩
  · exact absurd (hfresh.rx.symm.trans hrx) (by simp)
  · rw [(hturn.keeps (hS id before hbefore)).1]
    refine Arrived.snoc ?_ e
    have hheard : before.rx = .value d → Arrived dns es id before.query d.source d :=
      hT.heard id before d hbefore
    cases hturn with
    | loses =>
      rcases Task.put_rx before .closed with hsame | ⟨-, -, hclosed⟩
      · exact hheard (hsame.symm.trans hrx)
      · exact absurd (hclosed.symm.trans hrx) (by simp)
    | @hears p d' hreceiver htx hsource =>
      rcases Task.put_rx before (.value d') with hsame | ⟨-, -, hvalue⟩
      · exact hheard (hsame.symm.trans hrx)
      · obtain rfl := Channel.value.inj (hvalue.symm.trans hrx)
        obtain ⟨task, htask, harrived⟩ := hT.inHand p d' hreceiver
        subst htx
        obtain rfl := Option.some.inj (hbefore.symm.trans htask)
        rwa [hsource]
    | _ => exact hheard hrx

theorem Traced.answered_step (hT : Traced dns es s) (hS : Sourced s) (h : (forwarder dns).step s e = some t) :
    ∀ id task d, t.tasks id = some task → task.answer = some d →
      Arrived dns (es ++ [e]) id task.query d.source d := by
  intro id after d hafter hanswer
  rcases forwarder_turn h hafter with ⟨-, hfresh⟩ | ⟨before, hbefore, hturn⟩
  · exact absurd (hfresh.answer.symm.trans hanswer) (by simp)
  · rw [(hturn.keeps (hS id before hbefore)).1]
    refine Arrived.snoc ?_ e
    have hknown : before.answer = some d → Arrived dns es id before.query d.source d :=
      hT.answered id before d hbefore
    cases hturn with
    | loses => exact hknown (by simpa using hanswer)
    | hears => exact hknown (by simpa using hanswer)
    | answers _ hrx =>
      obtain rfl := Option.some.inj hanswer
      exact hT.heard id before _ hbefore hrx
    | _ => exact hknown hanswer

/-- The response a task is about to cache was supplied for its own query. -/
theorem Traced.caching (hT : Traced dns es s) (hS : Sourced s) {id : TaskId} {task : Task}
    {response : List UInt8} (htask : s.tasks id = some task) (hstage : task.stage = .caching response) :
    ∃ d, Arrived dns es id task.query d.source d ∧ getCacheKey dns task.query = some task.cacheKey ∧
      withXidOf task.query d.payload = some response := by
  obtain ⟨d, hanswer, hresponse⟩ := (hS id task htask).caching response hstage
  rcases hT.keyed id task htask with hdone | ⟨-, hkey⟩
  · exact absurd (hstage.symm.trans hdone) (by simp)
  · exact ⟨d, hT.answered id task d htask hanswer, hkey, hresponse⟩

theorem Traced.cached_step (hT : Traced dns es s) (hS : Sourced s) (h : (forwarder dns).step s e = some t) :
    ∀ key entry, t.cache.get key = some entry → Supplied dns (es ++ [e]) key entry.response := by
  intro key entry hget
  refine Supplied.snoc ?_ e
  rcases forwarder_cache h hget with hget | ⟨id, task, htask, hstage, rfl⟩
  · exact hT.cached key entry hget
  · obtain ⟨d, harrived, hkey, hresponse⟩ := hT.caching hS htask hstage
    exact ⟨id, task.query, d, harrived, hkey, hresponse⟩

/-- What a lookup returns was supplied. -/
theorem Traced.found (hT : Traced dns es s) {key response : List UInt8}
    (h : (lookupCache s.now key s.cache).2 = some response) : Supplied dns es key response := by
  rw [lookupCache_snd, Option.map_eq_some_iff] at h
  obtain ⟨entry, hlive, rfl⟩ := h
  exact hT.cached key entry (HashMap.live_eq_some.mp hlive).1

/-- The ID that a cached response is given replaces the one it was cached under. -/
theorem withXidOf_again {first second bytes response reply : List UInt8}
    (h : withXidOf first bytes = some response) (h' : withXidOf second response = some reply) :
    withXidOf second bytes = some reply := by
  obtain ⟨hfirst, hbytes, rfl⟩ := withXidOf_eq_some.mp h
  obtain ⟨hsecond, -, rfl⟩ := withXidOf_eq_some.mp h'
  refine withXidOf_eq_some.mpr ⟨hsecond, hbytes, ?_⟩
  rw [List.drop_left' (by rw [List.length_take]; omega)]

theorem Traced.replied_step (hT : Traced dns es s) (hR : Registered s) (hS : Sourced s)
    (h : (forwarder dns).step s e = some t) :
    ∀ id task reply, t.tasks id = some task → task.stage = .done (some reply) →
      ∃ origin query d, Arrived dns (es ++ [e]) origin query d.source d ∧
        getCacheKey dns query = some task.cacheKey ∧ withXidOf task.query d.payload = some reply ∧
        (task.forwarded ≠ none → origin = id ∧ query = task.query) := by
  intro id after reply hafter hstage
  rcases forwarder_task h hafter with ⟨bytes, -, -, -, -, hspawned⟩ | ⟨before, hbefore, halone | hacted⟩
  · rcases hspawned with hdone | ⟨hlookup, -⟩
    · exact absurd (hdone.symm.trans hstage) (by simp)
    · exact absurd (hlookup.symm.trans hstage) (by simp)
  · rw [halone.query, halone.cacheKey, halone.forwarded]
    obtain ⟨origin, query, d, harrived, hrest⟩ :=
      hT.replied id before reply hbefore (halone.stage.symm.trans hstage)
    exact ⟨origin, query, d, harrived.snoc e, hrest⟩
  · rw [hacted.query, hacted.cacheKey]
    rcases hacted.replies reply hstage with hcaching | ⟨hlookup, hforwarded, response, hfound, hreply⟩
    · obtain ⟨d, harrived, hkey, hreply⟩ := hT.caching hS hbefore hcaching
      exact ⟨id, before.query, d, harrived.snoc e, hkey, hreply, fun _ => ⟨rfl, rfl⟩⟩
    · obtain ⟨origin, query, d, harrived, hkey, hresponse⟩ := hT.found hfound
      refine ⟨origin, query, d, harrived.snoc e, hkey, withXidOf_again hresponse hreply, fun hsome => ?_⟩
      have hearly : before.stage.Early := by
        rw [hlookup]
        trivial
      exact absurd (hforwarded.trans (hR.early id before hbefore hearly).2.1) hsome

theorem Traced.unpanicked_step (hT : Traced dns es s) (h : (forwarder dns).step s e = some t) :
    ∀ id task, t.tasks id = some task → task.stage ≠ .panicked := by
  intro id after hafter hpanic
  rcases forwarder_task h hafter with ⟨bytes, -, -, -, -, hspawned⟩ | ⟨before, hbefore, halone | hacted⟩
  · rcases hspawned with hdone | ⟨hlookup, -⟩
    · exact absurd (hdone.symm.trans hpanic) (by simp)
    · exact absurd (hlookup.symm.trans hpanic) (by simp)
  · exact hT.unpanicked id before hbefore (halone.stage.symm.trans hpanic)
  · obtain ⟨bytes, hnone, hbytes⟩ := hacted.panics hpanic
    have htwo : 2 ≤ bytes.length := by
      rcases hbytes with hfound | hlen
      · obtain ⟨origin, query, d, -, -, hresponse⟩ := hT.found hfound
        obtain ⟨hquery, hpayload, rfl⟩ := withXidOf_eq_some.mp hresponse
        rw [List.length_append, List.length_take]
        omega
      · exact Nat.le_trans (by decide) hlen
    rcases hT.keyed id before hbefore with hdone | ⟨hlen, -⟩
    · exact hacted.unfinished none hdone
    · exact withXidOf_ne_none (Nat.le_trans (by decide) hlen) htwo hnone

theorem traced_step (hT : Traced dns es s) (hrun : (forwarder dns).run .initial es = some s)
    (h : (forwarder dns).step s e = some t) : Traced dns (es ++ [e]) t := by
  obtain ⟨hR, hS⟩ := reachable_sourced hrun
  exact ⟨hT.keyed_step h, hT.inHand_step hrun h, hT.heard_step hS h, hT.answered_step hS h,
    hT.cached_step hS h, hT.replied_step hR hS h, hT.unpanicked_step h⟩

theorem traced_run (h : (forwarder dns).run .initial es = some s) : Traced dns es s :=
  (forwarder dns).run_history initial_traced (fun _ _ _ _ hrun hT hstep => traced_step hT hrun hstep) h

/-! ### One response for each registration -/

/-- The receiver, handed `d`, takes out the entry of the task `id`. -/
def Takes (s : ForwarderState) (d : Datagram) (id : TaskId) : Prop :=
  dnsHeaderSize ≤ d.payload.length ∧ ∃ xid p, xidOf d.payload = some xid ∧
    s.pendingQueries.get xid = some p ∧ p.tx = id

/-- Once its entry has been taken out, a task has none to be taken out any more. -/
theorem takes_once {before before' : List Event} {d d' : Datagram} {u u' : ForwarderState} {id : TaskId}
    (hearlier : before ++ [.receive d] <+: before') (hu : (forwarder dns).run .initial before = some u)
    (hu' : (forwarder dns).run .initial before' = some u') (h : Takes u d id) (h' : Takes u' d' id) : False := by
  obtain ⟨rest, rfl⟩ := hearlier
  obtain ⟨hlen, xid, p, hxid, hget, rfl⟩ := h
  obtain ⟨v, hv, hrest⟩ := (System.run_append_eq_some _).mp hu'
  obtain ⟨w, hw, hstep⟩ := (System.run_snoc_eq_some _).mp hv
  obtain rfl := Option.some.inj (hw.symm.trans hu)
  simp only [forwarder, Option.ite_none_right_eq_some, Option.some.injEq] at hstep
  rw [receive_eq hlen hxid hget] at hstep
  have htaken : p.tx ∈ u'.taken := by
    refine (forwarder dns).run_invariant (I := fun x => p.tx ∈ x.taken)
      (fun x e y hx hy => forwarder_taken hy hx) ?_ hrest
    rw [← hstep.2]
    exact List.mem_cons_self
  obtain ⟨-, xid', q, -, hget', htx⟩ := h'
  obtain ⟨task, -, -, -, hnot⟩ := (reachable_sourced hu').1.entry xid' q hget'
  exact hnot (htx ▸ htaken)

/-- **Replies are transparent.** In every run, a reply to a query starts with the query's
own two ID bytes and goes on with the bytes of a datagram that arrived from upstream while
a query with the same cache key was pending, the query itself where it was forwarded; no
registration is ever used up by two datagrams; and no transaction ID is ever written out of
range. -/
theorem replies_transparent (dns : DnsParser) {es : List Event}
    (h : (forwarder dns).run .initial es = some s) :
    (∀ id task reply, s.tasks id = some task → task.stage = .done (some reply) →
      ∃ origin query d, Arrived dns es origin query d.source d ∧
        getCacheKey dns query = getCacheKey dns task.query ∧
        reply = task.query.take 2 ++ d.payload.drop 2 ∧ 2 ≤ task.query.length ∧
        (task.forwarded ≠ none → origin = id ∧ query = task.query)) ∧
    (∀ before before' d d' u u' id, before ++ [.receive d] <+: es → before' ++ [.receive d'] <+: es →
      (forwarder dns).run .initial before = some u → (forwarder dns).run .initial before' = some u' →
      Takes u d id → Takes u' d' id → before = before') ∧
    ∀ id task, s.tasks id = some task → task.stage ≠ .panicked := by
  have hT := traced_run h
  refine ⟨fun id task reply htask hstage => ?_, ?_, hT.unpanicked⟩
  · obtain ⟨origin, query, d, harrived, hkey, hreply, hforwarded⟩ := hT.replied id task reply htask hstage
    obtain ⟨hquery, -, rfl⟩ := withXidOf_eq_some.mp hreply
    rcases hT.keyed id task htask with hdone | ⟨-, htaskKey⟩
    · exact absurd (hstage.symm.trans hdone) (by simp)
    · exact ⟨origin, query, d, harrived, hkey.trans htaskKey.symm, rfl, hquery, hforwarded⟩
  · intro before before' d d' u u' id hb hb' hu hu' htakes htakes'
    rcases Nat.lt_trichotomy before.length before'.length with hlt | heq | hgt
    · have hearlier : before ++ [.receive d] <+: before' := by
        refine List.prefix_of_prefix_length_le hb ((List.prefix_append _ _).trans hb') ?_
        rw [List.length_append]
        exact hlt
      exact (takes_once hearlier hu hu' htakes htakes').elim
    · exact (List.prefix_of_prefix_length_le ((List.prefix_append _ _).trans hb)
        ((List.prefix_append _ _).trans hb') (Nat.le_of_eq heq)).eq_of_length heq
    · have hearlier : before' ++ [.receive d'] <+: before := by
        refine List.prefix_of_prefix_length_le hb' ((List.prefix_append _ _).trans hb) ?_
        rw [List.length_append]
        exact hgt
      exact (takes_once hearlier hu' hu htakes' htakes).elim

/-- A query that is answered, and one that is answered from the cache. -/
def served : List Event :=
  Plain.asked 0 0x61 ++ [.receive ⟨fallbackDnsServer, Plain.reply 7 0x61, some 0⟩, .deliver, .act 0 .wake,
    .act 0 .insert, .query 1 (Plain.query 0x61), .act 1 .lookup]

/-- The second query gets the datagram that came for the first. -/
theorem replies_transparent_served :
    ∃ s task reply, (forwarder Plain.dnsParser).run .initial served = some s ∧ s.tasks 1 = some task ∧
      task.stage = .done (some reply) ∧ ∃ origin query d, Arrived Plain.dnsParser served origin query d.source d ∧
        reply = task.query.take 2 ++ d.payload.drop 2 := by
  have hrun : ((forwarder Plain.dnsParser).run .initial served).any (fun s =>
      (s.tasks 1).any fun task => decide (task.stage = .done (some (Plain.reply 1 0x61)))) = true := by
    decide +kernel
  obtain ⟨s, hs, htask⟩ := Option.any_eq_true _ _ |>.mp hrun
  obtain ⟨task, htask, hstage⟩ := Option.any_eq_true _ _ |>.mp htask
  simp only [decide_eq_true_eq] at hstage
  obtain ⟨origin, query, d, harrived, -, hreply, -⟩ :=
    (replies_transparent Plain.dnsParser hs).1 1 task _ htask hstage
  exact ⟨s, task, _, hs, htask, hstage, origin, query, d, harrived, hreply⟩

end RustyRouter.Dns
