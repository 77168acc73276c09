import RustyRouter.Dns.Provenance

/-! How a reply reaches its task.

The steps of a reply that is received, handed on and taken up, one by one and together
(`reply_answers`). -/
namespace RustyRouter.Dns
open Store Transition

variable {s : ForwarderState} {id : TaskId} {before : Task} {reg : Registration}

/-! ### Single steps -/

theorem receive_step (dns : DnsParser) (hidle : s.receiver = none) (d : Datagram) :
    (forwarder dns).step s (.receive d) = some (s.receive d) := by
  simp [forwarder, hidle]

theorem receive_eq {d : Datagram} {xid : UInt16} {p : PendingQuery} (hlen : dnsHeaderSize ≤ d.payload.length)
    (hxid : xidOf d.payload = some xid) (hget : s.pendingQueries.get xid = some p) :
    s.receive d = { s with
      pendingQueries := s.pendingQueries.remove xid, receiver := some (p, d), taken := p.tx :: s.taken } := by
  simp only [ForwarderState.receive, if_neg (Nat.not_lt.mpr hlen), hxid, hget]

theorem deliver_step {p : PendingQuery} {d : Datagram} (dns : DnsParser) (hreceiver : s.receiver = some (p, d)) :
    (forwarder dns).step s .deliver = some (s.deliver p d) := by
  simp [forwarder, hreceiver]

/-- A response that reached a waiting task becomes its answer. -/
theorem wake_step {deadline : Nat} {d : Datagram} (dns : DnsParser) (htask : s.tasks id = some before)
    (hstage : before.stage = .waiting reg deadline) (hrx : before.rx = .value d)
    (hquery : dnsHeaderSize ≤ before.query.length) (hlen : dnsHeaderSize ≤ d.payload.length) :
    ∃ u after, (forwarder dns).step s (.act id .wake) = some u ∧ u.tasks id = some after ∧
      after.answer = some d := by
  obtain ⟨response, hresponse⟩ : ∃ response, withXidOf before.query d.payload = some response := by
    match before.query, hquery, d.payload, hlen with
    | _ :: _ :: _, _, _ :: _ :: _, _ => exact ⟨_, rfl⟩
  refine ⟨s.setTask id { before with stage := .caching response, answer := some d },
    { before with stage := .caching response, answer := some d }, ?_, setTask_tasks_self s id _, rfl⟩
  simp only [forwarder, htask, Option.bind_some, ForwarderState.taskStep, hstage, hrx,
    if_neg (Nat.not_lt.mpr hlen), hresponse]

/-- The receiver finishes with what it has in hand. -/
theorem idles (dns : DnsParser) (s : ForwarderState) : ∃ es u, (forwarder dns).run s es = some u ∧
    (∀ e ∈ es, e = .deliver) ∧ u.receiver = none ∧ u.pendingQueries = s.pendingQueries ∧
    ∀ i task, s.tasks i = some task → ∃ after, u.tasks i = some after ∧ after.stage = task.stage ∧
      after.forwarded = task.forwarded := by
  cases hreceiver : s.receiver with
  | none => exact ⟨[], s, rfl, by simp, hreceiver, rfl, fun _ task htask => ⟨task, htask, rfl, rfl⟩⟩
  | some held =>
    obtain ⟨p, d⟩ := held
    refine ⟨[.deliver], s.deliver p d, ?_, by simp, rfl, put_pendingQueries _ _ _, fun i task htask => ?_⟩
    · exact System.run_one _ (deliver_step dns hreceiver)
    · refine ⟨_, (put_tasks_eq_some s p.tx _).mpr ⟨task, htask, rfl⟩, ?_⟩
      split
      · exact ⟨Task.put_stage _ _, Task.put_forwarded _ _⟩
      · exact ⟨rfl, rfl⟩

theorem sent_step {query : List UInt8} (dns : DnsParser) (htask : s.tasks id = some before)
    (hstage : before.stage = .sending reg query) :
    (forwarder dns).step s (.act id (.sent true)) = some (s.setTask id { before with
      stage := .waiting reg (s.now + upstreamTimeout), forwarded := some (reg, query) }) := by
  simp only [forwarder, htask, Option.bind_some, ForwarderState.taskStep, hstage]

/-! ### A reply in time -/

/-- A reply from the right sender under the right ID, while its task waits and the receiver
is idle, becomes the task's answer. -/
theorem reply_answers {deadline : Nat} {d : Datagram} (dns : DnsParser) (hR : Registered s) (hS : Sourced s)
    (hidle : s.receiver = none) (hentry : s.pendingQueries.get reg.xid = some ⟨id, reg.upstreamIp⟩)
    (htask : s.tasks id = some before) (hstage : before.stage = .waiting reg deadline)
    (hsource : d.source = reg.upstreamIp) (hlen : dnsHeaderSize ≤ d.payload.length)
    (hxid : xidOf d.payload = some reg.xid) : ∃ u after,
    (forwarder dns).run s [.receive d, .deliver, .act id .wake] = some u ∧ u.tasks id = some after ∧
      after.answer = some d := by
  obtain ⟨query, hforwarded⟩ := hR.waiting id before reg deadline htask hstage
  have hquery := ((hS id before htask).forwarded reg query hforwarded).2
  obtain ⟨owner, howner, -, hrx, -⟩ := hR.entry reg.xid _ hentry
  obtain rfl := Option.some.inj (htask.symm.trans howner)
  let t := { s with
    pendingQueries := s.pendingQueries.remove reg.xid
    receiver := some (⟨id, reg.upstreamIp⟩, d)
    taken := id :: s.taken }
  have hreceive : (forwarder dns).step s (.receive d) = some t :=
    (receive_step dns hidle d).trans (congrArg some (receive_eq hlen hxid hentry))
  have hdeliver : (forwarder dns).step t .deliver = some (t.deliver ⟨id, reg.upstreamIp⟩ d) :=
    deliver_step dns rfl
  have hput : before.put (.value d) = { before with rx := .value d } := by
    simp [Task.put, Task.listens, hstage, hrx]
  have hheard : (t.deliver ⟨id, reg.upstreamIp⟩ d).tasks id = some { before with rx := .value d } := by
    simp only [ForwarderState.deliver, hsource, if_true]
    rw [put_tasks, if_pos rfl, ← hput]
    simp only [t, htask, Option.map_some]
  obtain ⟨u, after, hwake, hafter, hanswer⟩ := wake_step dns hheard hstage rfl hquery hlen
  have hrun := System.run_step _ hreceive (System.run_step _ hdeliver (System.run_one _ hwake))
  exact ⟨u, after, hrun, hafter, hanswer⟩

end RustyRouter.Dns
