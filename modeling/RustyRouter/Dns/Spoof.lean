import RustyRouter.Dns.Pairing

/-! Spoofed datagrams.

The receiver takes the entry of a datagram's transaction ID out of the map before it looks
at the sender, and drops it, sending end and all, when the sender does not match. A spoofed
datagram changes nothing only where the receiver does not get that far: below the length of
a DNS header. -/
namespace RustyRouter.Dns
open Store Transition

/-- The datagram has the transaction ID of an entry, but not its sender. -/
def Spoofed (s : ForwarderState) (d : Datagram) : Prop :=
  ∃ xid p, xidOf d.payload = some xid ∧ s.pendingQueries.get xid = some p ∧ d.source ≠ p.upstreamIp

/-- What the receiver does for one datagram. -/
def processing (s : ForwarderState) (d : Datagram) : List Event :=
  if (s.receive d).receiver.isSome then [.receive d, .deliver] else [.receive d]

/-- An honest upstream can still get an answer to the task. -/
def Answerable (dns : DnsParser) (s : ForwarderState) (id : TaskId) : Prop :=
  ∃ rest u task d, (forwarder dns).Along (Honest dns) s rest ∧ (forwarder dns).run s rest = some u ∧
    u.tasks id = some task ∧ task.answer = some d

/-- From `s` to `t` the map has not changed, no task was woken, and every one can be
answered just as before. -/
structure Inert (dns : DnsParser) (s t : ForwarderState) : Prop where
  pending : t.pendingQueries = s.pendingQueries
  woken : t.tasks = s.tasks
  answerable : ∀ id, Answerable dns t id ↔ Answerable dns s id

/-- A datagram that the receiver ignores for its length. -/
def dropped : Event → Bool
  | .receive d => decide (d.payload.length < dnsHeaderSize)
  | _ => false

variable {dns : DnsParser} {s t : ForwarderState} {e : Event} {id : TaskId} {d : Datagram} {xid : UInt16}
  {p : PendingQuery} {before after : Task}

/-! ### Short datagrams -/

theorem receive_short (hlen : d.payload.length < dnsHeaderSize) : s.receive d = s := if_pos hlen

theorem processing_short (dns : DnsParser) (hidle : s.receiver = none)
    (hlen : d.payload.length < dnsHeaderSize) : (forwarder dns).run s (processing s d) = some s := by
  simp only [processing, receive_short hlen, hidle, Option.isSome_none, Bool.false_eq_true, if_false]
  exact System.run_one _ ((receive_step dns hidle d).trans (congrArg some (receive_short hlen)))

theorem dropped_step (h : dropped e = true) (hstep : (forwarder dns).step s e = some t) : t = s := by
  cases e with
  | receive d =>
    simp only [forwarder, Option.ite_none_right_eq_some, Option.some.injEq] at hstep
    rw [← hstep.2, receive_short (of_decide_eq_true h)]
  | _ => exact absurd h (by simp [dropped])

/-! ### Longer ones -/

/-- The entry is gone, and its sending end with it. -/
theorem processing_spoofed (dns : DnsParser) (hidle : s.receiver = none)
    (hlen : dnsHeaderSize ≤ d.payload.length) (hxid : xidOf d.payload = some xid)
    (hget : s.pendingQueries.get xid = some p) (hsource : d.source ≠ p.upstreamIp) :
    ∃ t, (forwarder dns).run s (processing s d) = some t ∧ t.pendingQueries = s.pendingQueries.remove xid ∧
      ∀ task, s.tasks p.tx = some task → t.tasks p.tx = some (task.put .closed) := by
  have hreceive := receive_eq hlen hxid hget
  have hdeliver : (forwarder dns).step (s.receive d) .deliver = some ((s.receive d).deliver p d) :=
    deliver_step dns (by rw [hreceive])
  refine ⟨(s.receive d).deliver p d, ?_, ?_, fun task htask => ?_⟩
  · have hevents : processing s d = [.receive d, .deliver] := by simp [processing, hreceive]
    rw [hevents]
    exact System.run_step _ (receive_step dns hidle d) (System.run_one _ hdeliver)
  · simp [ForwarderState.deliver, hreceive]
  · simp only [ForwarderState.deliver, hreceive, if_neg hsource]
    rw [put_tasks, if_pos rfl]
    simp only [htask, Option.map_some]

/-- A closed channel stays closed, and its task without an answer. -/
theorem Turn.lost (hturn : Turn s e id before after) (h : before.rx = .closed ∧ before.answer = none) :
    after.rx = .closed ∧ after.answer = none := by
  obtain ⟨hrx, hanswer⟩ := h
  have hput : ∀ channel, (before.put channel).rx = .closed ∧ (before.put channel).answer = none := by
    intro channel
    rcases Task.put_rx before channel with hsame | ⟨-, hempty, -⟩
    · exact ⟨hsame.trans hrx, (Task.put_answer _ _).trans hanswer⟩
    · exact absurd (hrx.symm.trans hempty) (by simp)
  cases hturn with
  | loses => exact hput .closed
  | hears => exact hput _
  | answers _ hvalue => exact absurd (hrx.symm.trans hvalue) (by simp)
  | _ => exact ⟨hrx, hanswer⟩

theorem not_answerable (hrx : before.rx = .closed) (hanswer : before.answer = none)
    (htask : s.tasks id = some before) : ¬ Answerable dns s id := by
  rintro ⟨rest, u, task, d, -, hrun, hu, hd⟩
  have hlost : ∃ after, u.tasks id = some after ∧ after.rx = .closed ∧ after.answer = none := by
    refine (forwarder dns).run_invariant
      (I := fun s => ∃ task, s.tasks id = some task ∧ task.rx = .closed ∧ task.answer = none)
      (fun s e t hs hstep => ?_) ⟨before, htask, hrx, hanswer⟩ hrun
    obtain ⟨task, htask, hlost⟩ := hs
    obtain ⟨after, hafter, hturn⟩ := forwarder_persists hstep htask
    exact ⟨after, hafter, hturn.lost hlost⟩
  obtain ⟨after, hafter, -, hnone⟩ := hlost
  obtain rfl := Option.some.inj (hu.symm.trans hafter)
  exact absurd (hnone.symm.trans hd) (by simp)

/-- A task that listens and has its entry gets to the wait for its reply. -/
theorem listens_waits (dns : DnsParser) (htask : s.tasks id = some before) (hlistens : before.listens = true) :
    ∃ es u after reg deadline, (forwarder dns).run s es = some u ∧ (∀ e ∈ es, e = .act id (.sent true)) ∧
      u.receiver = s.receiver ∧ u.pendingQueries = s.pendingQueries ∧ u.tasks id = some after ∧
      before.stage.reg = some reg ∧ after.stage = .waiting reg deadline := by
  cases hstage : before.stage with
  | sending reg query =>
    let after : Task := { before with
      stage := .waiting reg (s.now + upstreamTimeout), forwarded := some (reg, query) }
    refine ⟨[.act id (.sent true)], s.setTask id after, after, reg, _, ?_, by simp, rfl, rfl,
      setTask_tasks_self s id after, rfl, rfl⟩
    exact System.run_one _ (sent_step dns htask hstage)
  | waiting reg deadline => exact ⟨[], s, before, reg, deadline, rfl, by simp, rfl, rfl, htask, rfl, hstage⟩
  | _ => simp [Task.listens, hstage] at hlistens

/-- A task that listens and has its entry can be answered. -/
theorem listening_answerable (dns : DnsParser) (hR : Registered s) (hS : Sourced s) (hidle : s.receiver = none)
    (hget : s.pendingQueries.get xid = some p) (htask : s.tasks p.tx = some before)
    (hlistens : before.listens = true) : Answerable dns s p.tx := by
  obtain ⟨es, u, after, reg, deadline, hrun, hes, hreceiver, hpending, hafter, hreg, hstage⟩ :=
    listens_waits dns htask hlistens
  obtain rfl := Option.some.inj (hreg.symm.trans (hR.owner hget htask))
  obtain ⟨hRu, hSu⟩ := run_sourced hR hS hrun
  obtain ⟨query, hforwarded⟩ := hRu.waiting p.tx after _ deadline hafter hstage
  obtain ⟨hquery, hlen⟩ := (hSu p.tx after hafter).forwarded _ query hforwarded
  obtain ⟨hquerylen, hxid⟩ := withXid_sent hlen hquery
  let d : Datagram := ⟨p.upstreamIp, query, some p.tx⟩
  obtain ⟨v, final, hreply, hfinal, hanswer⟩ := reply_answers dns hRu hSu (hreceiver.trans hidle)
    ((congrArg (·.get xid) hpending).trans hget) hafter hstage (d := d) rfl hquerylen hxid
  refine ⟨es ++ [.receive d, .deliver, .act p.tx .wake], v, final, d, ?_,
    (System.run_append_eq_some _).mpr ⟨u, hrun, hreply⟩, hfinal, hanswer⟩
  refine System.Along.append (System.along_of_forall_mem fun e he s => honest_of_ne ?_) hrun (along_reply ?_)
  · simp [hes e he]
  · exact ⟨p.tx, rfl, after, hafter, _, hforwarded, rfl, hxid, rfl⟩

/-! ### Runs -/

/-- **Spoofed datagrams are inert** precisely when they are shorter than a DNS header.
Datagrams as short as that can be left out of a run without a change to where it leads; a
longer spoofed one takes the answer from the task that listens for it. -/
theorem spoofed_inert_iff (dns : DnsParser) (es : List Event) :
    (∀ s d t, (forwarder dns).run .initial es = some s → s.receiver = none → Spoofed s d →
      (forwarder dns).run s (processing s d) = some t →
      (Inert dns s t ↔ d.payload.length < dnsHeaderSize)) ∧
    (∀ t, (forwarder dns).run .initial es = some t →
      (forwarder dns).run .initial (es.filter fun e => !dropped e) = some t) ∧
    ∀ s d xid p task t, (forwarder dns).run .initial es = some s → s.receiver = none →
      xidOf d.payload = some xid → s.pendingQueries.get xid = some p → d.source ≠ p.upstreamIp →
      dnsHeaderSize ≤ d.payload.length → s.tasks p.tx = some task → task.listens = true →
      (forwarder dns).run s (processing s d) = some t →
      Answerable dns s p.tx ∧ ¬ Answerable dns t p.tx := by
  refine ⟨fun s d t _ hidle hspoofed ht => ⟨fun hinert => ?_, fun hlen => ?_⟩, fun t ht => ?_, ?_⟩
  · obtain ⟨xid, p, hxid, hget, hsource⟩ := hspoofed
    by_contra hlen
    obtain ⟨t', ht', hpending, -⟩ :=
      processing_spoofed dns hidle (Nat.not_lt.mp hlen) hxid hget hsource
    obtain rfl := Option.some.inj (ht.symm.trans ht')
    have hgone := congrArg (·.get xid) (hpending.symm.trans hinert.pending)
    simp [hget] at hgone
  · obtain rfl := Option.some.inj ((processing_short dns hidle hlen).symm.trans ht)
    exact ⟨rfl, rfl, fun _ => Iff.rfl⟩
  · exact System.run_filter _ (fun s e t h hstep => dropped_step (by simpa using h) hstep) ht
  · intro s d xid p task t hs hidle hxid hget hsource hlen htask hlistens ht
    obtain ⟨hR, hS⟩ := reachable_sourced hs
    obtain ⟨t', ht', -, hclosed⟩ := processing_spoofed dns hidle hlen hxid hget hsource
    obtain rfl := Option.some.inj (ht.symm.trans ht')
    obtain ⟨owner, howner, hx, hrx, -⟩ := hR.entry xid p hget
    obtain rfl := Option.some.inj (htask.symm.trans howner)
    refine ⟨listening_answerable dns hR hS hidle hget htask hlistens,
      not_answerable ?_ ?_ (hclosed task htask)⟩
    · simp [Task.put, hlistens, hrx]
    · rw [Task.put_answer]
      exact (hS p.tx task htask).unanswered (.inr ⟨_, hx⟩)

/-- A datagram of another sender takes the entry of a query that waits for its answer. -/
theorem spoofed_entry_lost : ¬ ∀ es s d t, (forwarder Plain.dnsParser).run .initial es = some s →
    s.receiver = none → Spoofed s d → (forwarder Plain.dnsParser).run s (processing s d) = some t →
    Inert Plain.dnsParser s t := by
  intro h
  have hrun : ((forwarder Plain.dnsParser).run .initial (Plain.asked 0 0x61)).map (fun s =>
      (s.receiver, s.pendingQueries.get 7)) = some (none, some ⟨0, fallbackDnsServer⟩) := by
    decide +kernel
  obtain ⟨s, hs, heq⟩ := Option.map_eq_some_iff.mp hrun
  obtain ⟨hidle, hget⟩ := Prod.mk.inj heq
  let d : Datagram := ⟨Ipv4Addr.new 192 0 2 66, Plain.reply 7 0x61, none⟩
  have hsource : d.source ≠ fallbackDnsServer := by decide
  have hxid : xidOf d.payload = some 7 := by decide
  obtain ⟨t, ht, hpending, -⟩ := processing_spoofed Plain.dnsParser hidle (by decide) hxid hget hsource
  have hinert := h _ s d t hs hidle ⟨7, _, hxid, hget, hsource⟩ ht
  have hgone := congrArg (·.get 7) (hpending.symm.trans hinert.pending)
  simp [hget] at hgone

end RustyRouter.Dns
