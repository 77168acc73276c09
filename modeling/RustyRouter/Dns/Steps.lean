import RustyRouter.Dns.Forwarder

/-! The steps of a task.

`TaskStep` has a case for each way through the code between two waits of a task, with the
tests that lead there and the state it leaves; `taskStep_cases` is the proof. What a step of
a task does to the map, to the cache and to the task itself is read off these cases. -/
namespace RustyRouter.Dns
open Store

variable (dns : DnsParser) (s : ForwarderState) (id : TaskId) (task : Task)

/-- What a step of a task can do. -/
inductive TaskStep : Act → ForwarderState → Prop where
  | misses (hstage : task.stage = .lookup) (hfound : (lookupCache s.now task.cacheKey s.cache).2 = none) :
      TaskStep .lookup ({ s with cache := (lookupCache s.now task.cacheKey s.cache).1 }.setTask id
        { task with stage := .upstream })
  | hits {response reply : List UInt8} (hstage : task.stage = .lookup)
      (hfound : (lookupCache s.now task.cacheKey s.cache).2 = some response)
      (hreply : withXidOf task.query response = some reply) :
      TaskStep .lookup ({ s with cache := (lookupCache s.now task.cacheKey s.cache).1 }.setTask id
        { task with stage := .done (some reply) })
  | hitPanics {response : List UInt8} (hstage : task.stage = .lookup)
      (hfound : (lookupCache s.now task.cacheKey s.cache).2 = some response)
      (hreply : withXidOf task.query response = none) :
      TaskStep .lookup ({ s with cache := (lookupCache s.now task.cacheKey s.cache).1 }.setTask id
        { task with stage := .panicked })
  | upstream (hstage : task.stage = .upstream) :
      TaskStep .upstream (s.setTask id { task with stage := .register (getUpstreamDns s.dnsServers) })
  | refuses {upstreamIp : Ipv4Addr} {draws : List UInt16} (hstage : task.stage = .register upstreamIp)
      (hwhy : task.query.length < dnsHeaderSize ∨ maxPendingQueries ≤ s.pendingQueries.len) :
      TaskStep (.register draws) (s.setTask id { task with stage := .done none })
  /-- An ID always fits in front of a query that is long enough. -/
  | registers {upstreamIp : Ipv4Addr} {draws : List UInt16} {xid : UInt16} {forwardedQuery : List UInt8}
      (hstage : task.stage = .register upstreamIp) (hlen : dnsHeaderSize ≤ task.query.length)
      (hroom : s.pendingQueries.len < maxPendingQueries)
      (hdraw : draws.find? (fun xid => !s.pendingQueries.containsKey xid) = some xid)
      (hquery : withXid xid task.query = some forwardedQuery) :
      TaskStep (.register draws)
        ({ s with pendingQueries := s.pendingQueries.insert xid ⟨id, upstreamIp⟩ }.setTask id
          { task with stage := .sending ⟨xid, upstreamIp⟩ forwardedQuery })
  | sends {reg : Registration} {forwardedQuery : List UInt8}
      (hstage : task.stage = .sending reg forwardedQuery) :
      TaskStep (.sent true) (s.setTask id { task with
        stage := .waiting reg (s.now + upstreamTimeout), forwarded := some (reg, forwardedQuery) })
  | sendFails {reg : Registration} {forwardedQuery : List UInt8}
      (hstage : task.stage = .sending reg forwardedQuery) :
      TaskStep (.sent false) (s.setTask id { task with stage := .cleanup reg })
  | tooShort {reg : Registration} {deadline : Nat} {d : Datagram} (hstage : task.stage = .waiting reg deadline)
      (hrx : task.rx = .value d) (hlen : d.payload.length < dnsHeaderSize) :
      TaskStep .wake (s.setTask id { task with stage := .done none })
  | answerPanics {reg : Registration} {deadline : Nat} {d : Datagram}
      (hstage : task.stage = .waiting reg deadline) (hrx : task.rx = .value d)
      (hlen : dnsHeaderSize ≤ d.payload.length) (hresponse : withXidOf task.query d.payload = none) :
      TaskStep .wake (s.setTask id { task with stage := .panicked })
  | answers {reg : Registration} {deadline : Nat} {d : Datagram} {response : List UInt8}
      (hstage : task.stage = .waiting reg deadline) (hrx : task.rx = .value d)
      (hresponse : withXidOf task.query d.payload = some response) :
      TaskStep .wake (s.setTask id { task with stage := .caching response, answer := some d })
  | givesUp {reg : Registration} {deadline : Nat} (hstage : task.stage = .waiting reg deadline)
      (hrx : task.rx = .closed ∨ task.rx = .empty ∧ deadline ≤ s.now) :
      TaskStep .wake (s.setTask id { task with stage := .cleanup reg })
  | cleans {reg : Registration} (hstage : task.stage = .cleanup reg) :
      TaskStep .cleanup (s.removePending id task reg.xid)
  | inserts {response : List UInt8} (hstage : task.stage = .caching response) :
      TaskStep .insert ({ s with cache := insertCache dns s.now task.cacheKey response s.cache }.setTask id
        { task with stage := .done (some response) })

variable {dns s id task} {t : ForwarderState} {act : Act}

theorem lookup_cases (hstage : task.stage = .lookup) (h : s.taskStep dns id task .lookup = some t) :
    TaskStep dns s id task .lookup t := by
  simp only [ForwarderState.taskStep, hstage] at h
  cases hfound : (lookupCache s.now task.cacheKey s.cache).2 with
  | none =>
    simp only [hfound, Option.map_none] at h
    rw [← Option.some.inj h]
    exact .misses hstage hfound
  | some response =>
    simp only [hfound, Option.map_some] at h
    cases hreply : withXidOf task.query response with
    | none =>
      simp only [hreply] at h
      rw [← Option.some.inj h]
      exact .hitPanics hstage hfound hreply
    | some reply =>
      simp only [hreply] at h
      rw [← Option.some.inj h]
      exact .hits hstage hfound hreply

theorem register_cases {upstreamIp : Ipv4Addr} {draws : List UInt16} (hstage : task.stage = .register upstreamIp)
    (h : s.taskStep dns id task (.register draws) = some t) : TaskStep dns s id task (.register draws) t := by
  simp only [ForwarderState.taskStep, hstage] at h
  split at h
  · rename_i hshort
    rw [← Option.some.inj h]
    exact .refuses hstage (.inl hshort)
  · rename_i hlen
    split at h
    · rename_i hfull
      rw [← Option.some.inj h]
      exact .refuses hstage (.inr hfull)
    · rename_i hroom
      split at h
      · exact absurd h (by simp)
      · rename_i xid hdraw
        have htwo : 2 ≤ task.query.length := le_trans (by decide) (Nat.not_lt.mp hlen)
        obtain ⟨forwardedQuery, hquery, -⟩ := withXid_eq_some xid htwo
        rw [hquery] at h
        rw [← Option.some.inj h]
        exact .registers hstage (Nat.not_lt.mp hlen) (Nat.not_le.mp hroom) hdraw hquery

theorem wake_cases {reg : Registration} {deadline : Nat} (hstage : task.stage = .waiting reg deadline)
    (h : s.taskStep dns id task .wake = some t) : TaskStep dns s id task .wake t := by
  simp only [ForwarderState.taskStep, hstage] at h
  split at h
  · rename_i d hrx
    split at h
    · rename_i hlen
      rw [← Option.some.inj h]
      exact .tooShort hstage hrx hlen
    · rename_i hlen
      split at h
      · rename_i hresponse
        rw [← Option.some.inj h]
        exact .answerPanics hstage hrx (Nat.not_lt.mp hlen) hresponse
      · rename_i hresponse
        rw [← Option.some.inj h]
        exact .answers hstage hrx hresponse
  · rename_i hrx
    rw [← Option.some.inj h]
    exact .givesUp hstage (.inl hrx)
  · rename_i hrx
    simp only [Option.ite_none_right_eq_some, Option.some.injEq] at h
    obtain ⟨hlate, h⟩ := h
    rw [← h]
    exact .givesUp hstage (.inr ⟨hrx, hlate⟩)

theorem taskStep_cases (h : s.taskStep dns id task act = some t) : TaskStep dns s id task act t := by
  cases hstage : task.stage with
  | lookup =>
    cases act with
    | lookup => exact lookup_cases hstage h
    | _ => simp [ForwarderState.taskStep, hstage] at h
  | upstream =>
    cases act with
    | upstream =>
      simp only [ForwarderState.taskStep, hstage, Option.some.injEq] at h
      rw [← h]
      exact .upstream hstage
    | _ => simp [ForwarderState.taskStep, hstage] at h
  | register upstreamIp =>
    cases act with
    | register draws => exact register_cases hstage h
    | _ => simp [ForwarderState.taskStep, hstage] at h
  | sending reg forwardedQuery =>
    cases act with
    | sent ok =>
      cases ok with
      | true =>
        simp only [ForwarderState.taskStep, hstage, Option.some.injEq] at h
        rw [← h]
        exact .sends hstage
      | false =>
        simp only [ForwarderState.taskStep, hstage, Option.some.injEq] at h
        rw [← h]
        exact .sendFails hstage
    | _ => simp [ForwarderState.taskStep, hstage] at h
  | waiting reg deadline =>
    cases act with
    | wake => exact wake_cases hstage h
    | _ => simp [ForwarderState.taskStep, hstage] at h
  | cleanup reg =>
    cases act with
    | cleanup =>
      simp only [ForwarderState.taskStep, hstage, Option.some.injEq] at h
      rw [← h]
      exact .cleans hstage
    | _ => simp [ForwarderState.taskStep, hstage] at h
  | caching response =>
    cases act with
    | insert =>
      simp only [ForwarderState.taskStep, hstage, Option.some.injEq] at h
      rw [← h]
      exact .inserts hstage
    | _ => simp [ForwarderState.taskStep, hstage] at h
  | done reply => cases act <;> simp [ForwarderState.taskStep, hstage] at h
  | panicked => cases act <;> simp [ForwarderState.taskStep, hstage] at h

end RustyRouter.Dns
