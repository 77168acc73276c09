import RustyRouter.Dns.Registry

/-! The removal on the failure path.

A task whose send failed, whose wait ran out or whose channel was closed removes whatever
is in the map under its transaction ID. That is its own entry or nothing as long as the ID
is not taken again in the meantime, which the registration does not check: it looks at the
map, and the receiver may have taken the entry out already. -/
namespace RustyRouter.Dns
open Store Transition

/-! ### The property -/

/-- A task that has registered and not finished has its own entry in the map, unless the
receiver took it out. -/
def Owns (s : ForwarderState) : Prop :=
  ∀ id task reg, s.tasks id = some task → task.stage.reg = some reg →
    id ∈ s.taken ∨ ∃ p, s.pendingQueries.get reg.xid = some p ∧ p.tx = id

/-- If the step is a removal on the failure path, it removes the task's own entry or nothing. -/
def OwnRemoval (s : ForwarderState) (e : Event) : Prop :=
  ∀ id task reg p, e = .act id .cleanup → s.tasks id = some task → task.stage = .cleanup reg →
    s.pendingQueries.get reg.xid = some p → p.tx = id

/-! ### The condition -/

/-- The task is registered, and its wait may still fail: a response has not reached it. -/
structure Task.MayClean (task : Task) (reg : Registration) : Prop where
  registered : task.stage.reg = some reg
  unanswered : (∃ deadline, task.stage = .waiting reg deadline) → ∀ d, task.rx ≠ .value d

/-- A transaction ID is not taken while another task may still remove what is under it. -/
def NoReuse (s : ForwarderState) (e : Event) : Prop :=
  ∀ id reg, Registers s e id reg → ∀ other task reg', other ≠ id → s.tasks other = some task →
    task.MayClean reg' → reg'.xid ≠ reg.xid

variable {dns : DnsParser} {s t : ForwarderState} {e : Event} {id : TaskId} {before after : Task}
  {reg : Registration}

/-! ### Tasks -/

/-- A task that is registered after a step was so before, or is registered by it. -/
theorem Turn.registered (h : Turn s e id before after) (hreg : after.stage.reg = some reg) :
    before.stage.reg = some reg ∨ Registers s e id reg := by
  cases h with
  | same => exact .inl hreg
  | loses => exact .inl (by simpa using hreg)
  | hears => exact .inl (by simpa using hreg)
  | advances _ hto => exact absurd (hto.symm.trans hreg) (by simp)
  | registers hregisters =>
    obtain rfl := Option.some.inj hreg
    exact .inr hregisters
  | forwards hstage =>
    rw [hstage]
    exact .inl hreg
  | fails hbefore =>
    rw [hbefore]
    exact .inl hreg
  | answers => exact absurd hreg (by simp [Stage.reg])
  | ends _ hto => rcases hto with rfl | rfl <;> exact absurd hreg (by simp [Stage.reg])

/-- What a put leaves able to fail was so before. -/
theorem Task.MayClean.of_put {task : Task} {channel : Channel} (h : (task.put channel).MayClean reg) :
    task.MayClean reg := by
  obtain ⟨hreg, hrx⟩ := h
  rw [Task.put_stage] at hreg hrx
  refine ⟨hreg, fun hwaits d => ?_⟩
  rcases Task.put_rx task channel with heq | ⟨-, hempty, -⟩
  · rw [← heq]
    exact hrx hwaits d
  · simp [hempty]

theorem Turn.mayClean (h : Turn s e id before after) (hclean : after.MayClean reg) :
    before.MayClean reg ∨ Registers s e id reg := by
  cases h with
  | same => exact .inl hclean
  | loses => exact .inl hclean.of_put
  | hears => exact .inl hclean.of_put
  | fails hreg hrx =>
    obtain rfl := Option.some.inj hclean.registered
    exact .inl ⟨hreg, hrx⟩
  | forwards hstage =>
    obtain rfl := Option.some.inj hclean.registered
    exact .inl ⟨by rw [hstage]; rfl, by simp [hstage]⟩
  | registers hregisters =>
    obtain rfl := Option.some.inj hclean.registered
    exact .inr hregisters
  | advances _ hto => exact absurd (hto.symm.trans hclean.registered) (by simp)
  | answers => exact absurd hclean.registered (by simp [Stage.reg])
  | ends _ hto => rcases hto with rfl | rfl <;> exact absurd hclean.registered (by simp [Stage.reg])

/-! ### The map -/

theorem cleanup_step {task : Task} (dns : DnsParser) (htask : s.tasks id = some task)
    (hstage : task.stage = .cleanup reg) :
    (forwarder dns).step s (.act id .cleanup) = some (s.removePending id task reg.xid) := by
  simp [forwarder, htask, ForwarderState.taskStep, hstage]

/-- The tasks whose entry the receiver took out stay such. -/
theorem forwarder_taken (h : (forwarder dns).step s e = some t) (hid : id ∈ s.taken) : id ∈ t.taken := by
  obtain ⟨t', hmoves, hsame⟩ := forwarder_moves h
  rw [hsame.taken]
  cases hmoves with
  | cleans => simpa using hid
  | takes => exact List.mem_cons_of_mem _ hid
  | delivers => simpa [ForwarderState.deliver] using hid
  | _ => exact hid

/-- An entry stays, unless the receiver takes it out or a removal on a failure path does. -/
theorem forwarder_keeps (h : (forwarder dns).step s e = some t) {x : UInt16} {p : PendingQuery}
    (hget : s.pendingQueries.get x = some p) :
    t.pendingQueries.get x = some p ∨ p.tx ∈ t.taken ∨
      ∃ other task reg, e = .act other .cleanup ∧ s.tasks other = some task ∧ task.stage = .cleanup reg ∧
        reg.xid = x := by
  obtain ⟨t', hmoves, hsame⟩ := forwarder_moves h
  rw [hsame.pendingQueries, hsame.taken]
  cases hmoves with
  | @registers other draws _ upstreamIp xid _ htask hstage hlen hroom hdraw =>
    have hregisters : Registers s (.act other (.register draws)) other ⟨xid, upstreamIp⟩ :=
      .intro htask hstage hlen hroom hdraw
    have hfree : s.pendingQueries.get xid = none := hregisters.free
    refine .inl ((HashMap.get_insert_of_ne s.pendingQueries ?_ _).trans hget)
    rintro rfl
    exact absurd (hfree.symm.trans hget) (by simp)
  | @cleans other task reg htask hstage =>
    by_cases hx : reg.xid = x
    · exact .inr (.inr ⟨other, task, reg, rfl, htask, hstage, hx⟩)
    · rw [removePending_pendingQueries, HashMap.get_remove_of_ne _ (Ne.symm hx)]
      exact .inl hget
  | @takes _ xid q _ _ _ hq =>
    by_cases hx : x = xid
    · obtain rfl := Option.some.inj (hget.symm.trans (hx ▸ hq))
      exact .inr (.inl List.mem_cons_self)
    · exact .inl ((HashMap.get_remove_of_ne _ hx).trans hget)
  | delivers => exact .inl (by simpa [ForwarderState.deliver] using hget)
  | _ => exact .inl hget

/-! ### Removals and entries -/

/-- Every registered task keeps its entry over a step precisely when the step removes no
other task's. -/
theorem owns_step_iff (dns : DnsParser) (s : ForwarderState) (e : Event) (t : ForwarderState)
    (hR : Registered s) (hs : Owns s) (h : (forwarder dns).step s e = some t) :
    Owns t ↔ OwnRemoval s e := by
  refine ⟨fun ht id task reg p he htask hstage hget => ?_, fun hown id after reg hafter hreg => ?_⟩
  · subst he
    obtain rfl := Option.some.inj ((cleanup_step dns htask hstage).symm.trans h)
    by_contra hne
    obtain ⟨owner, howner, hx, -, htaken⟩ := hR.entry reg.xid p hget
    -- the owner is registered as before, and its entry is gone
    obtain ⟨owner', howner', hx'⟩ : ∃ owner', (s.removePending id task reg.xid).tasks p.tx = some owner' ∧
        owner'.stage.reg = some ⟨reg.xid, p.upstreamIp⟩ := by
      simp only [ForwarderState.removePending, hget, put_tasks, if_true, setTask_tasks_of_ne _ id _ hne]
      exact ⟨owner.put .closed, by rw [howner]; rfl, by rwa [Task.put_stage]⟩
    rcases ht p.tx owner' _ howner' hx' with hin | ⟨q, hq, -⟩
    · exact htaken (by simpa using hin)
    · simp at hq
  · rcases forwarder_turn h hafter with ⟨-, hfresh⟩ | ⟨before, hbefore, hturn⟩
    · exact absurd (hfresh.reg.symm.trans hreg) (by simp)
    · rcases hturn.registered hreg with hreg' | hregisters
      · rcases hs id before reg hbefore hreg' with hin | ⟨p, hget, rfl⟩
        · exact .inl (forwarder_taken h hin)
        · rcases forwarder_keeps h hget with hget | hin | ⟨other, task, reg', rfl, htask, hstage, hx⟩
          · exact .inr ⟨p, hget, rfl⟩
          · exact .inl hin
          · have hsame := hown other task reg' p rfl htask hstage (hx ▸ hget)
            obtain rfl := Option.some.inj ((cleanup_step dns htask hstage).symm.trans h)
            rw [hsame, removePending_tasks_self] at hafter
            rw [← Option.some.inj hafter] at hreg
            exact absurd hreg (by simp [Stage.reg])
      · obtain ⟨task, query, -, -, hstep⟩ := registers_step dns hregisters
        obtain rfl := Option.some.inj (hstep.symm.trans h)
        exact .inr ⟨⟨id, reg.upstreamIp⟩, HashMap.get_insert_self _ _ _, rfl⟩

/-! ### Transaction IDs that are not taken again too early -/

/-- What a task may still remove from under its ID is its own. -/
def Sole (s : ForwarderState) : Prop :=
  ∀ id task reg p, s.tasks id = some task → task.MayClean reg →
    s.pendingQueries.get reg.xid = some p → p.tx = id

theorem initial_sole : Sole .initial := by
  intro id task reg p htask
  exact absurd htask (by simp [ForwarderState.initial])

theorem sole_step (hs : Sole s) (hno : NoReuse s e) (h : (forwarder dns).step s e = some t) : Sole t := by
  intro id after reg p hafter hclean hget
  rcases forwarder_turn h hafter with ⟨-, hfresh⟩ | ⟨before, hbefore, hturn⟩
  · exact absurd (hfresh.reg.symm.trans hclean.registered) (by simp)
  · rcases forwarder_entry h hget with hget | hregisters
    · rcases hturn.mayClean hclean with hclean | hregisters
      · exact hs id before reg p hbefore hclean hget
      · exact absurd (hregisters.free.symm.trans hget) (by simp)
    · rcases hturn.mayClean hclean with hclean | hregisters'
      · by_contra hne
        exact hno p.tx _ hregisters id before reg (Ne.symm hne) hbefore hclean rfl
      · exact (hregisters.unique hregisters').1

theorem Sole.ownRemoval (hs : Sole s) : OwnRemoval s e := by
  intro id task reg p _ htask hstage hget
  exact hs id task reg p htask ⟨by rw [hstage]; rfl, by simp [hstage]⟩ hget

/-- A task that may still remove something gets there without touching the map. -/
theorem Task.MayClean.reaches {task : Task} (h : task.MayClean reg) (dns : DnsParser)
    (htask : s.tasks id = some task) : ∃ es u task', (forwarder dns).run s es = some u ∧
      u.tasks id = some task' ∧ task'.stage = .cleanup reg ∧ u.pendingQueries = s.pendingQueries := by
  cases hstage : task.stage with
  | sending r query =>
    obtain rfl : r = reg := by simpa [hstage, Stage.reg] using h.registered
    refine ⟨[.act id (.sent false)], _, { task with stage := .cleanup r }, ?_, setTask_tasks_self s id _, rfl, rfl⟩
    simp [System.run, forwarder, htask, ForwarderState.taskStep, hstage]
  | waiting r deadline =>
    obtain rfl : r = reg := by simpa [hstage, Stage.reg] using h.registered
    cases hrx : task.rx with
    | empty =>
      -- the wait runs out
      let late := { s with now := max s.now deadline }
      have htick : (forwarder dns).step s (.tick late.now) = some late := if_pos (le_max_left _ _)
      have hwake : (forwarder dns).step late (.act id .wake) =
          some (late.setTask id { task with stage := .cleanup r }) := by
        have hlate : late.tasks id = some task := htask
        have hdeadline : deadline ≤ late.now := le_max_right _ _
        simp only [forwarder, hlate, Option.bind_some, ForwarderState.taskStep, hstage, hrx, if_pos hdeadline]
      refine ⟨[.tick late.now, .act id .wake], _, { task with stage := .cleanup r }, ?_,
        setTask_tasks_self late id _, rfl, rfl⟩
      exact System.run_step _ htick (System.run_one _ hwake)
    | closed =>
      refine ⟨[.act id .wake], _, { task with stage := .cleanup r }, ?_, setTask_tasks_self s id _, rfl, rfl⟩
      simp [System.run, forwarder, htask, ForwarderState.taskStep, hstage, hrx]
    | value d => exact absurd hrx (h.unanswered ⟨deadline, hstage⟩ d)
  | cleanup r =>
    obtain rfl : r = reg := by simpa [hstage, Stage.reg] using h.registered
    exact ⟨[], s, task, rfl, htask, hstage, rfl⟩
  | _ => exact absurd h.registered (by simp [hstage, Stage.reg])

/-- Once an ID is taken too early, the other task may remove the entry that is there now. -/
theorem reuse_removes (hno : ¬ NoReuse s e) (h : (forwarder dns).step s e = some t) :
    ∃ es u other, (forwarder dns).run t es = some u ∧ ¬ OwnRemoval u (.act other .cleanup) ∧
      ((forwarder dns).step u (.act other .cleanup)).isSome := by
  simp only [NoReuse, not_forall, not_not] at hno
  obtain ⟨id, reg, hregisters, other, task, reg', hne, htask, hclean, hx⟩ := hno
  obtain ⟨registered, query, -, -, hstep⟩ := registers_step dns hregisters
  obtain rfl := Option.some.inj (hstep.symm.trans h)
  have htask' := (setTask_tasks_of_ne { s with
    pendingQueries := s.pendingQueries.insert reg.xid ⟨id, reg.upstreamIp⟩ } id
    { registered with stage := .sending reg query } hne).trans htask
  obtain ⟨es, u, task', hrun, hu, hstage, hpending⟩ := hclean.reaches dns htask'
  refine ⟨es, u, other, hrun, fun hown => ?_, by rw [cleanup_step dns hu hstage]; rfl⟩
  have hget : u.pendingQueries.get reg'.xid = some ⟨id, reg.upstreamIp⟩ := by
    rw [hpending, hx]
    exact HashMap.get_insert_self _ _ _
  exact hne (hown other task' reg' _ rfl hu hstage hget).symm

/-! ### Runs -/

/-- **A removal touches only its own registration** in every run that never takes a
transaction ID while another task may still remove what is under it; and a run that does
so goes on to the removal of another task's entry. In either form of the property: a run
removes no other task's entry precisely when every registered task keeps its own. -/
theorem cleanup_own_iff (dns : DnsParser) (es : List Event) :
    ((forwarder dns).Always Owns .initial es ↔ (forwarder dns).Along OwnRemoval .initial es) ∧
    ((forwarder dns).Along NoReuse .initial es → (forwarder dns).Along OwnRemoval .initial es) ∧
    ∀ s e t, (forwarder dns).run .initial es = some s → (forwarder dns).step s e = some t →
      ¬ NoReuse s e → ∃ rest, ¬ (forwarder dns).Along OwnRemoval .initial (es ++ e :: rest) := by
  refine ⟨?_, fun h => ?_, fun s e t hs he hno => ?_⟩
  · refine System.always_iff_along (registered_step dns) (owns_step_iff dns) initial_registered ?_
    intro id task reg htask
    exact absurd htask (by simp [ForwarderState.initial])
  · have hsole : (forwarder dns).Always Sole .initial es :=
      System.always_of_along (fun s e t hs hno ht => sole_step hs hno ht) initial_sole h
    exact hsole.along fun s e t hs _ => hs.ownRemoval
  · obtain ⟨rest, u, other, hrun, hown, hstep⟩ := reuse_removes hno he
    obtain ⟨v, hv⟩ := Option.isSome_iff_exists.mp hstep
    refine ⟨rest ++ [.act other .cleanup], fun h => hown ?_⟩
    have hu : (forwarder dns).run .initial (es ++ e :: rest) = some u :=
      (System.run_append_eq_some _).mpr ⟨s, hs, System.run_step _ he hrun⟩
    exact h (es ++ e :: rest) _ u v (by simp) hu hv

/-- A query is forwarded under the ID 7 and loses its entry to a datagram of another
sender; the next query draws the same ID before the first one's task has woken up. -/
def reused : List Event :=
  Plain.asked 0 0x61 ++ [.receive ⟨Ipv4Addr.new 192 0 2 66, Plain.reply 7 0x61, none⟩, .deliver] ++
    Plain.asked 1 0x62 ++ [.act 0 .wake]

/-- The first task's removal takes the second one's entry out. -/
theorem entry_of_another_removed :
    ¬ ∀ es, (forwarder Plain.dnsParser).Along OwnRemoval .initial es := by
  intro h
  have hrun : ((forwarder Plain.dnsParser).run .initial reused).map (fun s =>
      ((s.tasks 0).map Task.stage, s.pendingQueries.get 7)) =
      some (some (.cleanup ⟨7, fallbackDnsServer⟩), some ⟨1, fallbackDnsServer⟩) := by
    decide +kernel
  obtain ⟨s, hs, heq⟩ := Option.map_eq_some_iff.mp hrun
  obtain ⟨hstage, hget⟩ := Prod.mk.inj heq
  obtain ⟨task, htask, hstage⟩ := Option.map_eq_some_iff.mp hstage
  have hstep := cleanup_step Plain.dnsParser htask hstage
  exact absurd (h (reused ++ [.act 0 .cleanup]) reused _ s _ (List.prefix_refl _) hs hstep 0 task _ _ rfl
    htask hstage hget) (by decide)

end RustyRouter.Dns
