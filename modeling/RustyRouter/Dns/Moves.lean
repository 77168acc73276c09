import RustyRouter.Dns.Steps

/-! What a step of the forwarder can do.

`Moves` lists the steps, with what is known in each case, as far as the map of pending
queries, the receiver and the tasks are concerned; `forwarder_moves` is the proof. The
invariants of the forwarder are derived from it. -/
namespace RustyRouter.Dns
open Store Transition

/-- The registration of a task that has one and has not finished with it. -/
def Stage.reg : Stage → Option Registration
  | .sending reg _ => some reg
  | .waiting reg _ => some reg
  | .cleanup reg => some reg
  | _ => none

/-- Before the registration. -/
def Stage.Early : Stage → Prop
  | .lookup => True
  | .upstream => True
  | .register _ => True
  | _ => False

/-- Two states that differ at most in the clock, the DNS servers and the cache. -/
structure SameQueries (s t : ForwarderState) : Prop where
  tasks : t.tasks = s.tasks
  pendingQueries : t.pendingQueries = s.pendingQueries
  receiver : t.receiver = s.receiver
  taken : t.taken = s.taken

theorem SameQueries.refl (s : ForwarderState) : SameQueries s s := ⟨rfl, rfl, rfl, rfl⟩

/-! ### Setting a task, writing to a channel -/

section Frame
variable (s : ForwarderState) (id : TaskId) (task : Task) (tx : TaskId) (channel : Channel)

@[simp] theorem setTask_tasks_self : (s.setTask id task).tasks id = some task := if_pos rfl

theorem setTask_tasks_of_ne {i : TaskId} (h : i ≠ id) : (s.setTask id task).tasks i = s.tasks i := if_neg h

/-- The task after something was put on its channel. -/
def Task.put (task : Task) (channel : Channel) : Task :=
  if task.listens && task.rx == .empty then { task with rx := channel } else task

@[simp] theorem Task.put_stage : (task.put channel).stage = task.stage := by
  unfold Task.put
  split <;> rfl

@[simp] theorem Task.put_forwarded : (task.put channel).forwarded = task.forwarded := by
  unfold Task.put
  split <;> rfl

@[simp] theorem Task.put_answer : (task.put channel).answer = task.answer := by
  unfold Task.put
  split <;> rfl

@[simp] theorem Task.put_query : (task.put channel).query = task.query := by
  unfold Task.put
  split <;> rfl

@[simp] theorem Task.put_cacheKey : (task.put channel).cacheKey = task.cacheKey := by
  unfold Task.put
  split <;> rfl

theorem Task.put_rx : (task.put channel).rx = task.rx ∨
    task.listens = true ∧ task.rx = .empty ∧ (task.put channel).rx = channel := by
  unfold Task.put
  split
  · rename_i h
    simp only [Bool.and_eq_true, beq_iff_eq] at h
    exact .inr ⟨h.1, h.2, rfl⟩
  · exact .inl rfl

theorem put_tasks (i : TaskId) :
    (s.put tx channel).tasks i = if i = tx then (s.tasks i).map (Task.put · channel) else s.tasks i := by
  unfold ForwarderState.put
  by_cases hi : i = tx
  · subst hi
    rw [if_pos rfl]
    cases h : s.tasks i with
    | none => exact h
    | some task =>
      show (if task.listens && task.rx == .empty then _ else _ : ForwarderState).tasks i = some (task.put channel)
      unfold Task.put
      split
      · exact setTask_tasks_self s i _
      · exact h
  · rw [if_neg hi]
    split
    · split
      · exact setTask_tasks_of_ne s tx _ hi
      · rfl
    · rfl

@[simp] theorem put_pendingQueries : (s.put tx channel).pendingQueries = s.pendingQueries := by
  unfold ForwarderState.put
  split
  · split <;> rfl
  · rfl

@[simp] theorem put_receiver : (s.put tx channel).receiver = s.receiver := by
  unfold ForwarderState.put
  split
  · split <;> rfl
  · rfl

@[simp] theorem put_taken : (s.put tx channel).taken = s.taken := by
  unfold ForwarderState.put
  split
  · split <;> rfl
  · rfl

/-- A task after a put is a task before it, up to its channel. -/
theorem put_tasks_eq_some {i : TaskId} {task' : Task} :
    (s.put tx channel).tasks i = some task' ↔
      ∃ task, s.tasks i = some task ∧ task' = if i = tx then task.put channel else task := by
  rw [put_tasks]
  by_cases hi : i = tx
  · simp only [hi, if_true, Option.map_eq_some_iff]
    exact exists_congr fun _ => and_congr_right fun _ => eq_comm
  · simp [hi]

section Removal
variable (xid : UInt16)

@[simp] theorem removePending_pendingQueries :
    (s.removePending id task xid).pendingQueries = s.pendingQueries.remove xid := by
  simp only [ForwarderState.removePending]
  split
  · rfl
  · exact put_pendingQueries _ _ _

@[simp] theorem removePending_receiver : (s.removePending id task xid).receiver = s.receiver := by
  simp only [ForwarderState.removePending]
  split
  · rfl
  · exact put_receiver _ _ _

@[simp] theorem removePending_taken : (s.removePending id task xid).taken = s.taken := by
  simp only [ForwarderState.removePending]
  split
  · rfl
  · exact put_taken _ _ _

theorem removePending_tasks_self :
    (s.removePending id task xid).tasks id = some { task with stage := .done none } := by
  simp only [ForwarderState.removePending]
  split
  · exact setTask_tasks_self _ id _
  · rw [put_tasks, setTask_tasks_self]
    split <;> rfl

end Removal

end Frame

/-! ### The steps -/

variable (s : ForwarderState)

/-- One step, up to the clock, the DNS servers and the cache. -/
inductive Moves : Event → ForwarderState → Prop where
  /-- The clock, the DNS servers, the cache, or a datagram that is ignored. -/
  | quiet {e : Event} : Moves e s
  | spawns {id : TaskId} {bytes : List UInt8} {task : Task} (hnew : s.tasks id = none)
      (hstage : task.stage = .lookup ∨ task.stage = .done none) (hrx : task.rx = .empty)
      (hforwarded : task.forwarded = none) (hanswer : task.answer = none) :
      Moves (.query id bytes) (s.setTask id task)
  /-- A step before the registration or after the response. -/
  | advances {id : TaskId} {act : Act} {task : Task} {stage : Stage} (htask : s.tasks id = some task)
      (hfrom : task.stage.reg = none) (hto : stage.reg = none) (hearly : stage.Early → task.stage.Early)
      (hcaching : ∀ response, stage ≠ .caching response) :
      Moves (.act id act) (s.setTask id { task with stage := stage })
  | registers {id : TaskId} {draws : List UInt16} {task : Task} {upstreamIp : Ipv4Addr} {xid : UInt16}
      {forwardedQuery : List UInt8} (htask : s.tasks id = some task)
      (hstage : task.stage = .register upstreamIp)
      (hlen : dnsHeaderSize ≤ task.query.length) (hroom : s.pendingQueries.len < maxPendingQueries)
      (hdraw : draws.find? (fun xid => !s.pendingQueries.containsKey xid) = some xid)
      (hquery : withXid xid task.query = some forwardedQuery) :
      Moves (.act id (.register draws))
        ({ s with pendingQueries := s.pendingQueries.insert xid ⟨id, upstreamIp⟩ }.setTask id
          { task with stage := .sending ⟨xid, upstreamIp⟩ forwardedQuery })
  | forwards {id : TaskId} {task : Task} {reg : Registration} {forwardedQuery : List UInt8} {deadline : Nat}
      (htask : s.tasks id = some task) (hstage : task.stage = .sending reg forwardedQuery) :
      Moves (.act id (.sent true)) (s.setTask id { task with
        stage := .waiting reg deadline, forwarded := some (reg, forwardedQuery) })
  /-- Neither a failed send nor a wait without a response changes anything yet. -/
  | fails {id : TaskId} {act : Act} {task : Task} {reg : Registration} (htask : s.tasks id = some task)
      (hstage : (∃ forwardedQuery, task.stage = .sending reg forwardedQuery) ∨
        (∃ deadline, task.stage = .waiting reg deadline) ∧ ∀ d, task.rx ≠ .value d) :
      Moves (.act id act) (s.setTask id { task with stage := .cleanup reg })
  | answers {id : TaskId} {task : Task} {reg : Registration} {deadline : Nat} {d : Datagram}
      {response : List UInt8} (htask : s.tasks id = some task)
      (hstage : task.stage = .waiting reg deadline) (hrx : task.rx = .value d)
      (hresponse : withXidOf task.query d.payload = some response) :
      Moves (.act id .wake) (s.setTask id { task with stage := .caching response, answer := some d })
  /-- A response that is too short. -/
  | refuses {id : TaskId} {task : Task} {stage : Stage} {reg : Registration} {deadline : Nat} {d : Datagram}
      (htask : s.tasks id = some task) (hstage : task.stage = .waiting reg deadline)
      (hrx : task.rx = .value d) (hto : stage = .done none ∨ stage = .panicked) :
      Moves (.act id .wake) (s.setTask id { task with stage := stage })
  | cleans {id : TaskId} {task : Task} {reg : Registration} (htask : s.tasks id = some task)
      (hstage : task.stage = .cleanup reg) : Moves (.act id .cleanup) (s.removePending id task reg.xid)
  | takes {d : Datagram} {xid : UInt16} {p : PendingQuery} (hidle : s.receiver = none)
      (hlen : dnsHeaderSize ≤ d.payload.length) (hxid : xidOf d.payload = some xid)
      (hget : s.pendingQueries.get xid = some p) :
      Moves (.receive d)
        { s with
          pendingQueries := s.pendingQueries.remove xid, receiver := some (p, d), taken := p.tx :: s.taken }
  | delivers {p : PendingQuery} {d : Datagram} (hreceiver : s.receiver = some (p, d)) :
      Moves .deliver (s.deliver p d)

variable {s}

theorem SameQueries.eq {t : ForwarderState} (h : SameQueries s t) :
    t = { s with now := t.now, dnsServers := t.dnsServers, cache := t.cache } := by
  obtain ⟨now, dnsServers, cache, pendingQueries, receiver, tasks, taken⟩ := t
  obtain ⟨rfl, rfl, rfl, rfl⟩ := h
  rfl

theorem receive_moves (hidle : s.receiver = none) (d : Datagram) :
    Moves s (.receive d) (s.receive d) := by
  unfold ForwarderState.receive
  split
  · exact .quiet
  · rename_i hlen
    split
    · exact .quiet
    · rename_i xid hxid
      split
      · exact .quiet
      · rename_i p hget
        exact .takes hidle (Nat.not_lt.mp hlen) hxid hget

theorem spawn_moves (dns : DnsParser) {id : TaskId} (hnew : s.tasks id = none) (bytes : List UInt8) :
    Moves s (.query id bytes) (s.spawn dns id bytes) := by
  simp only [ForwarderState.spawn]
  cases if bytes.length < dnsHeaderSize then none else getCacheKey dns bytes with
  | none => exact .spawns hnew (.inr rfl) rfl rfl rfl
  | some key => exact .spawns hnew (.inl rfl) rfl rfl rfl

theorem act_moves {dns : DnsParser} {id : TaskId} {task : Task} {act : Act} {t : ForwarderState}
    (htask : s.tasks id = some task) (h : s.taskStep dns id task act = some t) :
    ∃ t', Moves s (.act id act) t' ∧ SameQueries t' t := by
  -- before the registration and after the response only the stage changes
  have hadvances : ∀ stage : Stage, task.stage.reg = none → stage.reg = none →
      (stage.Early → task.stage.Early) → (∀ response, stage ≠ .caching response) →
      Moves s (.act id act) (s.setTask id { task with stage := stage }) :=
    fun stage hfrom hto hearly hcaching => .advances htask hfrom hto hearly hcaching
  cases taskStep_cases h with
  | misses hstage | hits hstage | hitPanics hstage | upstream hstage =>
    exact ⟨_, hadvances _ (by rw [hstage]; rfl) rfl (fun _ => by rw [hstage]; trivial) (by simp),
      rfl, rfl, rfl, rfl⟩
  | refuses hstage | inserts hstage =>
    exact ⟨_, hadvances _ (by rw [hstage]; rfl) rfl (fun hearly => by exact hearly.elim) (by simp),
      rfl, rfl, rfl, rfl⟩
  | registers hstage hlen hroom hdraw hquery =>
    exact ⟨_, .registers htask hstage hlen hroom hdraw hquery, .refl _⟩
  | sends hstage => exact ⟨_, .forwards htask hstage, .refl _⟩
  | sendFails hstage => exact ⟨_, .fails htask (.inl ⟨_, hstage⟩), .refl _⟩
  | tooShort hstage hrx => exact ⟨_, .refuses htask hstage hrx (.inl rfl), .refl _⟩
  | answerPanics hstage hrx => exact ⟨_, .refuses htask hstage hrx (.inr rfl), .refl _⟩
  | answers hstage hrx hresponse => exact ⟨_, .answers htask hstage hrx hresponse, .refl _⟩
  | givesUp hstage hrx =>
    have hempty : ∀ d, task.rx ≠ .value d := by
      intro d hvalue
      rcases hrx with hclosed | ⟨hempty, -⟩
      · exact absurd (hclosed.symm.trans hvalue) (by simp)
      · exact absurd (hempty.symm.trans hvalue) (by simp)
    exact ⟨_, .fails htask (.inr ⟨⟨_, hstage⟩, hempty⟩), .refl _⟩
  | cleans hstage => exact ⟨_, .cleans htask hstage, .refl _⟩

/-- **What a step of the forwarder can do**, up to the clock, the DNS servers and the cache. -/
theorem forwarder_moves {dns : DnsParser} {e : Event} {t : ForwarderState}
    (h : (forwarder dns).step s e = some t) : ∃ t', Moves s e t' ∧ SameQueries t' t := by
  cases e with
  | tick now =>
    simp only [forwarder, Option.ite_none_right_eq_some, Option.some.injEq] at h
    rw [← h.2]
    exact ⟨s, .quiet, rfl, rfl, rfl, rfl⟩
  | lease dnsServers =>
    rw [← Option.some.inj h]
    exact ⟨s, .quiet, rfl, rfl, rfl, rfl⟩
  | query id bytes =>
    simp only [forwarder, Option.ite_none_right_eq_some, Option.isNone_iff_eq_none, Option.some.injEq] at h
    rw [← h.2]
    exact ⟨_, spawn_moves dns h.1 bytes, .refl _⟩
  | act id act =>
    simp only [forwarder, Option.bind_eq_some_iff] at h
    obtain ⟨task, htask, h⟩ := h
    exact act_moves htask h
  | receive d =>
    simp only [forwarder, Option.ite_none_right_eq_some, Option.isNone_iff_eq_none, Option.some.injEq] at h
    rw [← h.2]
    exact ⟨_, receive_moves h.1 d, .refl _⟩
  | deliver =>
    simp only [forwarder, Option.map_eq_some_iff] at h
    obtain ⟨⟨p, d⟩, hreceiver, rfl⟩ := h
    exact ⟨_, .delivers hreceiver, .refl _⟩
  | prune =>
    rw [← Option.some.inj h]
    exact ⟨s, .quiet, rfl, rfl, rfl, rfl⟩

end RustyRouter.Dns
