import RustyRouter.Dns.Turns

/-! The map of pending queries.

Whatever happens, an entry of the map belongs to a task that is registered under its
transaction ID and that nothing has reached yet, and what the receiver has in hand belongs
to no entry any more (`Registered`). -/
namespace RustyRouter.Dns
open Store Transition

/-- The documented use of the map: from a transaction ID to the task that waits for it. -/
structure Registered (s : ForwarderState) : Prop where
  entry : ∀ x p, s.pendingQueries.get x = some p → ∃ task, s.tasks p.tx = some task ∧
    task.stage.reg = some ⟨x, p.upstreamIp⟩ ∧ task.rx = .empty ∧ p.tx ∉ s.taken
  /-- The receiver's entry was under the ID of its datagram. -/
  receiving : ∀ p d, s.receiver = some (p, d) → p.tx ∈ s.taken ∧
    ∀ task reg, s.tasks p.tx = some task → task.stage.reg = some reg →
      xidOf d.payload = some reg.xid ∧ reg.upstreamIp = p.upstreamIp
  known : ∀ id ∈ s.taken, ∃ task, s.tasks id = some task
  early : ∀ id task, s.tasks id = some task → task.stage.Early →
    task.rx = .empty ∧ task.forwarded = none ∧ id ∉ s.taken
  waiting : ∀ id task reg deadline, s.tasks id = some task → task.stage = .waiting reg deadline →
    ∃ query, task.forwarded = some (reg, query)

variable {s t : ForwarderState} {id : TaskId} {task : Task}

/-- A task goes on without a new registration, and finishes only without an entry. -/
theorem Registered.setTask (h : Registered s) {task' : Task} (htask : s.tasks id = some task)
    (hreg : task'.stage.reg = task.stage.reg ∨
      task'.stage.reg = none ∧ ∀ x p, s.pendingQueries.get x = some p → p.tx ≠ id)
    (hrx : task'.rx = task.rx)
    (hearly : task'.stage.Early → task.stage.Early ∧ task'.forwarded = task.forwarded)
    (hwaiting : ∀ reg deadline, task'.stage = .waiting reg deadline →
      ∃ query, task'.forwarded = some (reg, query)) : Registered (s.setTask id task') where
  entry x p hget := by
    obtain ⟨owner, howner, hx, hempty, htaken⟩ := h.entry x p hget
    by_cases hid : p.tx = id
    · rw [hid] at howner htaken ⊢
      obtain rfl : task = owner := Option.some.inj (htask.symm.trans howner)
      refine ⟨task', setTask_tasks_self s id task', ?_, hrx.trans hempty, htaken⟩
      rcases hreg with hreg | ⟨-, hno⟩
      · exact hreg.trans hx
      · exact absurd hid (hno x p hget)
    · exact ⟨owner, (setTask_tasks_of_ne s id task' hid).trans howner, hx, hempty, htaken⟩
  receiving p d hreceiver := by
    obtain ⟨htaken, hbound⟩ := h.receiving p d hreceiver
    refine ⟨htaken, fun owner reg howner hx => ?_⟩
    by_cases hid : p.tx = id
    · rw [hid, setTask_tasks_self] at howner
      obtain rfl : task' = owner := Option.some.inj howner
      rcases hreg with hreg | ⟨hnone, -⟩
      · exact hbound task reg (hid ▸ htask) (hreg.symm.trans hx)
      · exact absurd (hnone.symm.trans hx) (by simp)
    · exact hbound owner reg ((setTask_tasks_of_ne s id task' hid).symm.trans howner) hx
  known i hi := by
    by_cases hid : i = id
    · exact ⟨task', hid ▸ setTask_tasks_self s id task'⟩
    · rw [setTask_tasks_of_ne s id task' hid]
      exact h.known i hi
  early i other hother hearly' := by
    by_cases hid : i = id
    · rw [hid, setTask_tasks_self] at hother
      obtain rfl : task' = other := Option.some.inj hother
      obtain ⟨hbefore, hforwarded⟩ := hearly hearly'
      obtain ⟨hempty, hnone, htaken⟩ := h.early id task htask hbefore
      exact ⟨hrx.trans hempty, hforwarded.trans hnone, hid ▸ htaken⟩
    · exact h.early i other ((setTask_tasks_of_ne s id task' hid).symm.trans hother) hearly'
  waiting i other reg deadline hother hstage := by
    by_cases hid : i = id
    · rw [hid, setTask_tasks_self] at hother
      obtain rfl : task' = other := Option.some.inj hother
      exact hwaiting reg deadline hstage
    · exact h.waiting i other reg deadline ((setTask_tasks_of_ne s id task' hid).symm.trans hother) hstage

/-- A task that has no entry any more gets something on its channel. -/
theorem Registered.put (h : Registered s) {tx : TaskId} (channel : Channel)
    (hno : ∀ x p, s.pendingQueries.get x = some p → p.tx ≠ tx)
    (hlate : ∀ task, s.tasks tx = some task → ¬ task.stage.Early) : Registered (s.put tx channel) where
  entry x p hget := by
    rw [put_pendingQueries] at hget
    obtain ⟨owner, howner, hx, hempty, htaken⟩ := h.entry x p hget
    refine ⟨owner, ?_, hx, hempty, by rwa [put_taken]⟩
    rw [put_tasks, if_neg (hno x p hget), howner]
  receiving p d hreceiver := by
    rw [put_receiver] at hreceiver
    obtain ⟨htaken, hbound⟩ := h.receiving p d hreceiver
    refine ⟨by rwa [put_taken], fun owner reg howner hx => ?_⟩
    obtain ⟨before, hbefore, rfl⟩ := (put_tasks_eq_some s tx channel).mp howner
    refine hbound before reg hbefore ?_
    split at hx
    · rwa [Task.put_stage] at hx
    · exact hx
  known i hi := by
    rw [put_taken] at hi
    obtain ⟨before, hbefore⟩ := h.known i hi
    exact ⟨_, (put_tasks_eq_some s tx channel).mpr ⟨before, hbefore, rfl⟩⟩
  early i other hother hearly := by
    obtain ⟨before, hbefore, rfl⟩ := (put_tasks_eq_some s tx channel).mp hother
    by_cases hi : i = tx
    · rw [if_pos hi, Task.put_stage] at hearly
      exact absurd hearly (hlate before (hi ▸ hbefore))
    · rw [if_neg hi] at hearly ⊢
      rw [put_taken]
      exact h.early i before hbefore hearly
  waiting i other reg deadline hother hstage := by
    obtain ⟨before, hbefore, rfl⟩ := (put_tasks_eq_some s tx channel).mp hother
    by_cases hi : i = tx
    · rw [if_pos hi, Task.put_stage] at hstage
      rw [if_pos hi, Task.put_forwarded]
      exact h.waiting i before reg deadline hbefore hstage
    · rw [if_neg hi] at hstage ⊢
      exact h.waiting i before reg deadline hbefore hstage

/-! ### One step -/

theorem initial_registered : Registered .initial where
  entry x p hget := absurd hget (by simp [ForwarderState.initial])
  receiving p d hreceiver := absurd hreceiver (by simp [ForwarderState.initial])
  known id hid := absurd hid (by simp [ForwarderState.initial])
  early id task htask := absurd htask (by simp [ForwarderState.initial])
  waiting id task reg deadline htask := absurd htask (by simp [ForwarderState.initial])

theorem Stage.Early.reg {stage : Stage} (h : stage.Early) : stage.reg = none := by
  cases stage <;> first | rfl | exact h.elim

/-- The owner of an entry is registered under its ID, and under no other. -/
theorem Registered.owner (h : Registered s) {x : UInt16} {p : PendingQuery}
    (hget : s.pendingQueries.get x = some p) (htask : s.tasks p.tx = some task) :
    task.stage.reg = some ⟨x, p.upstreamIp⟩ := by
  obtain ⟨owner, howner, hx, -⟩ := h.entry x p hget
  obtain rfl : task = owner := Option.some.inj (htask.symm.trans howner)
  exact hx

/-- A task that a response has reached has no entry any more. -/
theorem Registered.no_entry (h : Registered s) {d : Datagram} {x : UInt16} {p : PendingQuery}
    (htask : s.tasks id = some task) (hrx : task.rx = .value d)
    (hget : s.pendingQueries.get x = some p) : p.tx ≠ id := by
  intro hid
  obtain ⟨owner, howner, -, hempty, -⟩ := h.entry x p hget
  rw [hid, htask] at howner
  obtain rfl := Option.some.inj howner
  exact absurd (hrx.symm.trans hempty) (by simp)

theorem Registered.spawns (h : Registered s) (hnew : s.tasks id = none)
    (hstage : task.stage = .lookup ∨ task.stage = .done none) (hrx : task.rx = .empty)
    (hforwarded : task.forwarded = none) : Registered (s.setTask id task) := by
  have hold : ∀ {i other}, s.tasks i = some other → (s.setTask id task).tasks i = some other := by
    intro i other hother
    rw [setTask_tasks_of_ne, hother]
    intro hi
    rw [hi, hnew] at hother
    exact absurd hother (by simp)
  have hback : ∀ {i other}, (s.setTask id task).tasks i = some other → i ≠ id →
      s.tasks i = some other := by
    intro i other hother hi
    rwa [setTask_tasks_of_ne s id task hi] at hother
  refine ⟨fun x p hget => ?_, fun p d hreceiver => ?_, fun i hi => ?_, fun i other hother hearly => ?_,
    fun i other reg deadline hother hwaits => ?_⟩
  · obtain ⟨owner, howner, hrest⟩ := h.entry x p hget
    exact ⟨owner, hold howner, hrest⟩
  · obtain ⟨htaken, hbound⟩ := h.receiving p d hreceiver
    refine ⟨htaken, fun owner reg howner => hbound owner reg (hback howner ?_)⟩
    intro hi
    obtain ⟨before, hbefore⟩ := h.known p.tx htaken
    rw [hi, hnew] at hbefore
    exact absurd hbefore (by simp)
  · obtain ⟨before, hbefore⟩ := h.known i hi
    exact ⟨before, hold hbefore⟩
  · by_cases hi : i = id
    · rw [hi, setTask_tasks_self] at hother
      obtain rfl : task = other := Option.some.inj hother
      refine ⟨hrx, hforwarded, fun htaken => ?_⟩
      obtain ⟨before, hbefore⟩ := h.known i htaken
      rw [hi, hnew] at hbefore
      exact absurd hbefore (by simp)
    · exact h.early i other (hback hother hi) hearly
  · by_cases hi : i = id
    · rw [hi, setTask_tasks_self] at hother
      obtain rfl : task = other := Option.some.inj hother
      rcases hstage with hstage | hstage <;> simp [hstage] at hwaits
    · exact h.waiting i other reg deadline (hback hother hi) hwaits

theorem Registered.registers (h : Registered s) {upstreamIp : Ipv4Addr} {xid : UInt16}
    {query : List UInt8} (htask : s.tasks id = some task) (hstage : task.stage = .register upstreamIp) :
    Registered ({ s with pendingQueries := s.pendingQueries.insert xid ⟨id, upstreamIp⟩ }.setTask id
      { task with stage := .sending ⟨xid, upstreamIp⟩ query }) := by
  have hearly : task.stage.Early := by
    rw [hstage]
    trivial
  obtain ⟨hempty, -, htaken⟩ := h.early id task htask hearly
  have hnone : task.stage.reg = none := hearly.reg
  refine ⟨fun x p hget => ?_, fun p d hreceiver => ?_, fun i hi => ?_, fun i other hother hlater => ?_,
    fun i other reg deadline hother hwaits => ?_⟩
  · have hget' : (s.pendingQueries.insert xid ⟨id, upstreamIp⟩).get x = some p := hget
    rw [HashMap.get_insert] at hget'
    split at hget'
    · rename_i hx
      obtain rfl : (⟨id, upstreamIp⟩ : PendingQuery) = p := Option.some.inj hget'
      exact ⟨_, setTask_tasks_self _ id _, by rw [hx]; rfl, hempty, htaken⟩
    · obtain ⟨owner, howner, hx, hrest⟩ := h.entry x p hget'
      refine ⟨owner, ?_, hx, hrest⟩
      rw [setTask_tasks_of_ne, ← howner]
      intro hi
      rw [hi, htask] at howner
      obtain rfl := Option.some.inj howner
      exact absurd (hnone.symm.trans hx) (by simp)
  · obtain ⟨hin, hbound⟩ := h.receiving p d hreceiver
    refine ⟨hin, fun owner reg howner => hbound owner reg ?_⟩
    rwa [setTask_tasks_of_ne] at howner
    intro hi
    exact htaken (hi ▸ hin)
  · obtain ⟨before, hbefore⟩ := h.known i hi
    by_cases hid : i = id
    · rw [hid]
      exact ⟨_, setTask_tasks_self _ id _⟩
    · exact ⟨before, (setTask_tasks_of_ne _ id _ hid).trans hbefore⟩
  · by_cases hi : i = id
    · rw [hi, setTask_tasks_self] at hother
      rw [← Option.some.inj hother] at hlater
      exact hlater.elim
    · rw [setTask_tasks_of_ne _ id _ hi] at hother
      exact h.early i other hother hlater
  · by_cases hi : i = id
    · rw [hi, setTask_tasks_self] at hother
      rw [← Option.some.inj hother] at hwaits
      simp at hwaits
    · rw [setTask_tasks_of_ne _ id _ hi] at hother
      exact h.waiting i other reg deadline hother hwaits

theorem Registered.remove (h : Registered s) (xid : UInt16) :
    Registered { s with pendingQueries := s.pendingQueries.remove xid } where
  entry x p hget := by
    exact h.entry x p (HashMap.get_remove_eq_some.mp hget).2
  receiving := h.receiving
  known := h.known
  early := h.early
  waiting := h.waiting

/-- Once an entry is removed, its owner has none. -/
theorem Registered.removed (h : Registered s) {xid x : UInt16} {p : PendingQuery} {reg : Registration}
    (htask : s.tasks id = some task) (hreg : task.stage.reg = some reg) (hxid : reg.xid = xid)
    (hget : (s.pendingQueries.remove xid).get x = some p) : p.tx ≠ id := by
  intro hid
  obtain ⟨hne, hget⟩ := HashMap.get_remove_eq_some.mp hget
  have hx := h.owner hget (hid ▸ htask)
  rw [hreg] at hx
  obtain rfl := Option.some.inj hx
  exact hne hxid

theorem Registered.cleans (h : Registered s) {reg : Registration} (htask : s.tasks id = some task)
    (hstage : task.stage = .cleanup reg) : Registered (s.removePending id task reg.xid) := by
  have hreg : task.stage.reg = some reg := by rw [hstage]; rfl
  have hremoved : Registered ({ s with pendingQueries := s.pendingQueries.remove reg.xid }.setTask id
      { task with stage := .done none }) := by
    refine (h.remove reg.xid).setTask htask (.inr ⟨rfl, fun x p hget => ?_⟩) rfl
      (fun hearly => hearly.elim) (by simp)
    exact h.removed htask hreg rfl hget
  simp only [ForwarderState.removePending]
  split
  · exact hremoved
  · rename_i p hget
    obtain ⟨owner, howner, hx, -⟩ := h.entry reg.xid p hget
    refine hremoved.put .closed (fun x q hq => h.removed howner hx rfl hq) fun after hafter hearly => ?_
    by_cases hid : p.tx = id
    · rw [hid, setTask_tasks_self] at hafter
      rw [← Option.some.inj hafter] at hearly
      exact hearly.elim
    · rw [setTask_tasks_of_ne _ id _ hid] at hafter
      obtain rfl : owner = after := Option.some.inj (howner.symm.trans hafter)
      exact absurd (hearly.reg.symm.trans hx) (by simp)

theorem Registered.takes (h : Registered s) {d : Datagram} {xid : UInt16} {p : PendingQuery}
    (hxid : xidOf d.payload = some xid) (hget : s.pendingQueries.get xid = some p) :
    Registered { s with
      pendingQueries := s.pendingQueries.remove xid, receiver := some (p, d), taken := p.tx :: s.taken } := by
  obtain ⟨owner, howner, hx, -⟩ := h.entry xid p hget
  refine ⟨fun y q hq => ?_, fun q d' hreceiver => ?_, fun i hi => ?_, fun i other hother hearly => ?_, h.waiting⟩
  · obtain ⟨other, hother, hy, hempty, htaken⟩ := (h.remove xid).entry y q hq
    refine ⟨other, hother, hy, hempty, fun hin => ?_⟩
    rcases List.mem_cons.mp hin with htx | hin
    · exact h.removed howner hx rfl hq htx
    · exact htaken hin
  · obtain ⟨rfl, rfl⟩ := Prod.mk.inj (Option.some.inj hreceiver)
    refine ⟨List.mem_cons_self, fun other reg hother hreg => ?_⟩
    obtain rfl : owner = other := Option.some.inj (howner.symm.trans hother)
    obtain rfl := Option.some.inj (hx.symm.trans hreg)
    exact ⟨hxid, rfl⟩
  · rcases List.mem_cons.mp hi with rfl | hi
    · exact ⟨owner, howner⟩
    · exact h.known i hi
  · obtain ⟨hempty, hforwarded, htaken⟩ := h.early i other hother hearly
    refine ⟨hempty, hforwarded, fun hin => ?_⟩
    rcases List.mem_cons.mp hin with rfl | hin
    · obtain rfl : owner = other := Option.some.inj (howner.symm.trans hother)
      exact absurd (hearly.reg.symm.trans hx) (by simp)
    · exact htaken hin

theorem Registered.delivers (h : Registered s) {p : PendingQuery} {d : Datagram}
    (hreceiver : s.receiver = some (p, d)) : Registered (s.deliver p d) := by
  obtain ⟨htaken, -⟩ := h.receiving p d hreceiver
  have hput : Registered (s.put p.tx (if d.source = p.upstreamIp then .value d else .closed)) := by
    refine h.put _ (fun x q hget htx => ?_) fun task htask hearly => ?_
    · obtain ⟨-, -, -, -, hnot⟩ := h.entry x q hget
      exact hnot (htx ▸ htaken)
    · exact (h.early p.tx task htask hearly).2.2 htaken
  exact ⟨hput.entry, fun q d' hnone => absurd hnone (by simp [ForwarderState.deliver]), hput.known,
    hput.early, hput.waiting⟩

theorem Registered.moves (h : Registered s) {e : Event} (hmoves : Moves s e t) : Registered t := by
  cases hmoves with
  | quiet => exact h
  | spawns hnew hstage hrx hforwarded => exact h.spawns hnew hstage hrx hforwarded
  | advances htask hfrom hto hearly _ =>
    refine h.setTask htask (.inl (hto.trans hfrom.symm)) rfl (fun hl => ⟨hearly hl, rfl⟩) ?_
    intro reg deadline hstage
    simp only at hstage
    rw [hstage] at hto
    exact absurd hto (by simp [Stage.reg])
  | registers htask hstage => exact h.registers htask hstage
  | @forwards _ _ _ query _ htask hstage =>
    refine h.setTask htask (.inl (by rw [hstage]; rfl)) rfl (fun hl => hl.elim) ?_
    intro reg deadline hwaits
    obtain ⟨rfl, -⟩ := Stage.waiting.inj hwaits
    exact ⟨query, rfl⟩
  | fails htask hstage =>
    refine h.setTask htask (.inl ?_) rfl (fun hl => hl.elim) (by simp)
    rcases hstage with ⟨query, hstage⟩ | ⟨⟨deadline, hstage⟩, -⟩
    · rw [hstage]
      rfl
    · rw [hstage]
      rfl
  | answers htask _ hrx _ =>
    exact h.setTask htask (.inr ⟨rfl, fun x p hget => h.no_entry htask hrx hget⟩) rfl
      (fun hl => hl.elim) (by simp)
  | refuses htask _ hrx hto =>
    refine h.setTask htask (.inr ⟨?_, fun x p hget => h.no_entry htask hrx hget⟩) rfl ?_ ?_
    · rcases hto with rfl | rfl <;> rfl
    · rcases hto with rfl | rfl <;> exact fun hl => hl.elim
    · rcases hto with rfl | rfl <;> simp
  | cleans htask hstage => exact h.cleans htask hstage
  | takes _ _ hxid hget => exact h.takes hxid hget
  | delivers hreceiver => exact h.delivers hreceiver

/-- Every step keeps the registry in order. -/
theorem registered_step (dns : DnsParser) (s : ForwarderState) (e : Event) (t : ForwarderState)
    (h : Registered s) (hstep : (forwarder dns).step s e = some t) : Registered t := by
  obtain ⟨t', hmoves, hsame⟩ := forwarder_moves hstep
  rw [hsame.eq]
  obtain ⟨hentry, hreceiving, hknown, hearly, hwaiting⟩ := h.moves hmoves
  exact ⟨hentry, hreceiving, hknown, hearly, hwaiting⟩

end RustyRouter.Dns
