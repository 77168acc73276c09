import RustyRouter.Dns.Moves

/-! What a step of the forwarder can do to one task, and to one entry of the map.

A step may touch several tasks: its own, and the one whose channel it uses. `Turn` lists
what can become of a single one. -/
namespace RustyRouter.Dns
open Store Transition

variable (s : ForwarderState)

/-- What a query starts as. -/
structure Task.Fresh (task : Task) : Prop where
  stage : task.stage = .lookup ∨ task.stage = .done none
  rx : task.rx = .empty
  forwarded : task.forwarded = none
  answer : task.answer = none

theorem Task.Fresh.reg {task : Task} (h : task.Fresh) : task.stage.reg = none := by
  rcases h.stage with hstage | hstage <;> rw [hstage] <;> rfl

/-- The step registers the task `id`, under the first free ID it draws. -/
inductive Registers : Event → TaskId → Registration → Prop where
  | intro {id : TaskId} {draws : List UInt16} {task : Task} {reg : Registration}
      (htask : s.tasks id = some task) (hstage : task.stage = .register reg.upstreamIp)
      (hlen : dnsHeaderSize ≤ task.query.length) (hroom : s.pendingQueries.len < maxPendingQueries)
      (hdraw : draws.find? (fun xid => !s.pendingQueries.containsKey xid) = some reg.xid) :
      Registers (.act id (.register draws)) id reg

/-- What a step can do to the task `id`. -/
inductive Turn (e : Event) (id : TaskId) : Task → Task → Prop where
  | same {task : Task} : Turn e id task task
  /-- Its sending end is dropped. -/
  | loses {task : Task} : Turn e id task (task.put .closed)
  | hears {task : Task} {p : PendingQuery} {d : Datagram} (hreceiver : s.receiver = some (p, d))
      (htx : p.tx = id) (hsource : d.source = p.upstreamIp) : Turn e id task (task.put (.value d))
  | advances {task : Task} {stage : Stage} (hfrom : task.stage.reg = none) (hto : stage.reg = none)
      (hearly : stage.Early → task.stage.Early)
      (hcaching : ∀ response, stage ≠ .caching response) : Turn e id task { task with stage := stage }
  | registers {task : Task} {reg : Registration} {forwardedQuery : List UInt8}
      (hregisters : Registers s e id reg) (hstage : task.stage = .register reg.upstreamIp)
      (hlen : dnsHeaderSize ≤ task.query.length)
      (hquery : withXid reg.xid task.query = some forwardedQuery) :
      Turn e id task { task with stage := .sending reg forwardedQuery }
  | forwards {task : Task} {reg : Registration} {forwardedQuery : List UInt8} {deadline : Nat}
      (hstage : task.stage = .sending reg forwardedQuery) :
      Turn e id task { task with
        stage := .waiting reg deadline, forwarded := some (reg, forwardedQuery) }
  | fails {task : Task} {reg : Registration} (hreg : task.stage.reg = some reg)
      (hrx : (∃ deadline, task.stage = .waiting reg deadline) → ∀ d, task.rx ≠ .value d) :
      Turn e id task { task with stage := .cleanup reg }
  | answers {task : Task} {reg : Registration} {deadline : Nat} {d : Datagram} {response : List UInt8}
      (hstage : task.stage = .waiting reg deadline) (hrx : task.rx = .value d)
      (hresponse : withXidOf task.query d.payload = some response) :
      Turn e id task { task with stage := .caching response, answer := some d }
  /-- The end of a query without a response. -/
  | ends {task : Task} {stage : Stage} {reg : Registration} (hreg : task.stage.reg = some reg)
      (hto : stage = .done none ∨ stage = .panicked) : Turn e id task { task with stage := stage }

variable {s}

theorem Registers.free {e : Event} {id : TaskId} {reg : Registration} (h : Registers s e id reg) :
    s.pendingQueries.get reg.xid = none := by
  cases h with
  | intro _ _ _ _ hdraw => simpa [HashMap.containsKey] using List.find?_some hdraw

theorem Registers.unique {e : Event} {id id' : TaskId} {reg reg' : Registration} (h : Registers s e id reg)
    (h' : Registers s e id' reg') : id = id' ∧ reg = reg' := by
  cases h with
  | intro htask hstage _ _ hdraw =>
    cases h' with
    | intro htask' hstage' _ _ hdraw' =>
      obtain rfl := Option.some.inj (htask.symm.trans htask')
      have hxid := Option.some.inj (hdraw.symm.trans hdraw')
      have hip := Stage.register.inj (hstage.symm.trans hstage')
      obtain ⟨xid, ip⟩ := reg
      obtain ⟨xid', ip'⟩ := reg'
      exact ⟨rfl, congrArg₂ Registration.mk hxid hip⟩

theorem registers_step {e : Event} {id : TaskId} {reg : Registration} (dns : DnsParser)
    (h : Registers s e id reg) : ∃ task query, s.tasks id = some task ∧
      withXid reg.xid task.query = some query ∧
      (forwarder dns).step s e = some ({ s with
        pendingQueries := s.pendingQueries.insert reg.xid ⟨id, reg.upstreamIp⟩ }.setTask id
          { task with stage := .sending reg query }) := by
  cases h with
  | @intro _ draws task _ htask hstage hlen hroom hdraw =>
    obtain ⟨query, hquery, -⟩ := withXid_eq_some reg.xid (le_trans (by decide) hlen)
    refine ⟨task, query, htask, hquery, ?_⟩
    simp only [forwarder, htask, Option.bind_some, ForwarderState.taskStep, hstage,
      if_neg (Nat.not_lt.mpr hlen), if_neg (Nat.not_le.mpr hroom), hdraw, hquery]

theorem Turn.setTask {s' : ForwarderState} {e : Event} {id i : TaskId} {task task' after : Task}
    (htasks : s'.tasks = s.tasks) (htask : s.tasks id = some task) (hturn : Turn s e id task task')
    (hafter : (s'.setTask id task').tasks i = some after) :
    ∃ before, s.tasks i = some before ∧ Turn s e i before after := by
  by_cases hi : i = id
  · subst hi
    rw [setTask_tasks_self] at hafter
    rw [← Option.some.inj hafter]
    exact ⟨task, htask, hturn⟩
  · rw [setTask_tasks_of_ne _ _ _ hi, htasks] at hafter
    exact ⟨after, hafter, .same⟩

/-- A removal ends the query of its own task, and drops the sending end of the entry's. -/
theorem removePending_turn {e : Event} {id i : TaskId} {task after : Task} {reg : Registration}
    (htask : s.tasks id = some task) (hreg : task.stage.reg = some reg)
    (hafter : (s.removePending id task reg.xid).tasks i = some after) :
    ∃ before, s.tasks i = some before ∧ Turn s e i before after := by
  have hends : Turn s e id task { task with stage := .done none } := .ends hreg (.inl rfl)
  simp only [ForwarderState.removePending] at hafter
  split at hafter
  · exact hends.setTask rfl htask hafter
  · obtain ⟨mid, hmid, rfl⟩ := (put_tasks_eq_some _ _ _).mp hafter
    by_cases hi : i = id
    · subst hi
      rw [setTask_tasks_self] at hmid
      obtain rfl := Option.some.inj hmid
      refine ⟨task, htask, ?_⟩
      split
      · exact hends
      · exact hends
    · rw [setTask_tasks_of_ne _ _ _ hi] at hmid
      refine ⟨mid, hmid, ?_⟩
      split
      · exact .loses
      · exact .same

/-- **A task after a step** is new, or is what it was after one turn. -/
theorem Moves.turn {e : Event} {t : ForwarderState} (h : Moves s e t) {i : TaskId} {after : Task}
    (hafter : t.tasks i = some after) :
    (s.tasks i = none ∧ after.Fresh) ∨ ∃ before, s.tasks i = some before ∧ Turn s e i before after := by
  cases h with
  | quiet => exact .inr ⟨after, hafter, .same⟩
  | @spawns id _ task hnew hstage hrx hforwarded hanswer =>
    by_cases hi : i = id
    · subst hi
      rw [setTask_tasks_self] at hafter
      obtain rfl := Option.some.inj hafter
      exact .inl ⟨hnew, hstage, hrx, hforwarded, hanswer⟩
    · rw [setTask_tasks_of_ne _ _ _ hi] at hafter
      exact .inr ⟨after, hafter, .same⟩
  | advances htask hfrom hto hearly hcaching =>
    exact .inr (Turn.setTask rfl htask (.advances hfrom hto hearly hcaching) hafter)
  | @registers id draws task upstreamIp xid _ htask hstage hlen hroom hdraw hquery =>
    have hregisters : Registers s (.act id (.register draws)) id ⟨xid, upstreamIp⟩ :=
      .intro htask hstage hlen hroom hdraw
    exact .inr (Turn.setTask rfl htask (.registers hregisters hstage hlen hquery) hafter)
  | forwards htask hstage => exact .inr (Turn.setTask rfl htask (.forwards hstage) hafter)
  | fails htask hstage =>
    refine .inr (Turn.setTask rfl htask (.fails ?_ ?_) hafter)
    · rcases hstage with ⟨query, hstage⟩ | ⟨⟨deadline, hstage⟩, -⟩
      · rw [hstage]
        rfl
      · rw [hstage]
        rfl
    · intro ⟨deadline, hwaits⟩
      rcases hstage with ⟨query, hstage⟩ | ⟨-, hrx⟩
      · rw [hwaits] at hstage
        exact absurd hstage (by simp)
      · exact hrx
  | answers htask hstage hrx hresponse =>
    exact .inr (Turn.setTask rfl htask (.answers hstage hrx hresponse) hafter)
  | refuses htask hstage _ hto =>
    exact .inr (Turn.setTask rfl htask (.ends (by rw [hstage]; rfl) hto) hafter)
  | cleans htask hstage => exact .inr (removePending_turn htask (by rw [hstage]; rfl) hafter)
  | takes => exact .inr ⟨after, hafter, .same⟩
  | @delivers p d hreceiver =>
    obtain ⟨before, hbefore, rfl⟩ := (put_tasks_eq_some s p.tx _).mp hafter
    refine .inr ⟨before, hbefore, ?_⟩
    split
    · rename_i hi
      split
      · rename_i hsource
        exact .hears hreceiver hi.symm hsource
      · exact .loses
    · exact .same

/-- An entry after a step was there before, or is the one of a task registered now. -/
theorem Moves.entry {e : Event} {t : ForwarderState} (h : Moves s e t) {x : UInt16} {p : PendingQuery}
    (hget : t.pendingQueries.get x = some p) :
    s.pendingQueries.get x = some p ∨ Registers s e p.tx ⟨x, p.upstreamIp⟩ := by
  cases h with
  | registers htask hstage hlen hroom hdraw =>
    have hget' : (s.pendingQueries.insert _ _).get x = some p := hget
    rw [HashMap.get_insert] at hget'
    split at hget'
    · rename_i hx
      rw [← Option.some.inj hget', hx]
      exact .inr (.intro htask hstage hlen hroom hdraw)
    · exact .inl hget'
  | cleans =>
    rw [removePending_pendingQueries] at hget
    exact .inl (HashMap.get_remove_eq_some.mp hget).2
  | takes => exact .inl (HashMap.get_remove_eq_some.mp hget).2
  | delivers => exact .inl (by simpa [ForwarderState.deliver] using hget)
  | _ => exact .inl hget

theorem forwarder_turn {dns : DnsParser} {e : Event} {t : ForwarderState}
    (h : (forwarder dns).step s e = some t) {i : TaskId} {after : Task} (hafter : t.tasks i = some after) :
    (s.tasks i = none ∧ after.Fresh) ∨ ∃ before, s.tasks i = some before ∧ Turn s e i before after := by
  obtain ⟨t', hmoves, hsame⟩ := forwarder_moves h
  exact hmoves.turn (hsame.tasks ▸ hafter)

/-- What every new task has and every turn keeps, every task keeps over a step. -/
theorem forwarder_tasks {dns : DnsParser} {e : Event} {t : ForwarderState} {Q : TaskId → Task → Prop}
    (h : (forwarder dns).step s e = some t)
    (hnew : ∀ i task, task.Fresh → Q i task)
    (hturn : ∀ i before after, s.tasks i = some before → Turn s e i before after → Q i before → Q i after)
    (hs : ∀ i task, s.tasks i = some task → Q i task) : ∀ i task, t.tasks i = some task → Q i task := by
  intro i after hafter
  rcases forwarder_turn h hafter with ⟨-, hfresh⟩ | ⟨before, hbefore, hone⟩
  · exact hnew i after hfresh
  · exact hturn i before after hbefore hone (hs i before hbefore)

/-- No task disappears. -/
theorem forwarder_persists {dns : DnsParser} {e : Event} {t : ForwarderState}
    (h : (forwarder dns).step s e = some t) {i : TaskId} {before : Task} (hbefore : s.tasks i = some before) :
    ∃ after, t.tasks i = some after ∧ Turn s e i before after := by
  have hsome : ∃ after, t.tasks i = some after := by
    obtain ⟨t', hmoves, hsame⟩ := forwarder_moves h
    have hset : ∀ (s' : ForwarderState) (id : TaskId) (task : Task), s'.tasks = s.tasks →
        ∃ after, (s'.setTask id task).tasks i = some after := by
      intro s' id task hs'
      by_cases hi : i = id
      · exact ⟨task, by rw [hi, setTask_tasks_self]⟩
      · exact ⟨before, by rw [setTask_tasks_of_ne _ _ _ hi, hs', hbefore]⟩
    rw [hsame.tasks]
    cases hmoves with
    | quiet => exact ⟨before, hbefore⟩
    | takes => exact ⟨before, hbefore⟩
    | cleans htask =>
      obtain ⟨after, hafter⟩ := hset _ _ _ rfl
      simp only [ForwarderState.removePending]
      split
      · exact ⟨after, hafter⟩
      · exact ⟨_, (put_tasks_eq_some _ _ _).mpr ⟨after, hafter, rfl⟩⟩
    | delivers => exact ⟨_, (put_tasks_eq_some s _ _).mpr ⟨before, hbefore, rfl⟩⟩
    | _ => exact hset _ _ _ rfl
  obtain ⟨after, hafter⟩ := hsome
  rcases forwarder_turn h hafter with ⟨hnone, -⟩ | ⟨before', hbefore', hturn⟩
  · exact absurd (hnone.symm.trans hbefore) (by simp)
  · obtain rfl := Option.some.inj (hbefore.symm.trans hbefore')
    exact ⟨after, hafter, hturn⟩

/-- What the receiver has in hand it had before, or has just received. -/
theorem forwarder_receiver {dns : DnsParser} {e : Event} {t : ForwarderState}
    (h : (forwarder dns).step s e = some t) {p : PendingQuery} {d : Datagram}
    (hreceiver : t.receiver = some (p, d)) : s.receiver = some (p, d) ∨ e = .receive d := by
  obtain ⟨t', hmoves, hsame⟩ := forwarder_moves h
  rw [hsame.receiver] at hreceiver
  cases hmoves with
  | takes =>
    obtain ⟨-, rfl⟩ := Prod.mk.inj (Option.some.inj hreceiver)
    exact .inr rfl
  | delivers => exact absurd hreceiver (by simp [ForwarderState.deliver])
  | cleans => exact .inl (by simpa using hreceiver)
  | _ => exact .inl hreceiver

theorem forwarder_entry {dns : DnsParser} {e : Event} {t : ForwarderState}
    (h : (forwarder dns).step s e = some t) {x : UInt16} {p : PendingQuery}
    (hget : t.pendingQueries.get x = some p) :
    s.pendingQueries.get x = some p ∨ Registers s e p.tx ⟨x, p.upstreamIp⟩ := by
  obtain ⟨t', hmoves, hsame⟩ := forwarder_moves h
  exact hmoves.entry (hsame.pendingQueries ▸ hget)

end RustyRouter.Dns
