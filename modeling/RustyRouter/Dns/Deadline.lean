import RustyRouter.Dns.Pending
import RustyRouter.Dns.Upstream

/-! Every query ends.

A task goes through its stages in one direction, so it takes six steps at most. It is never
stuck: unless it waits for a response it can take its next step, and there is always an ID
to register it under, since the map has room for far fewer entries than there are IDs. And
the wait has a deadline, so where no task dawdles, each is done three seconds after its
query came in (`queries_end`). -/
namespace RustyRouter.Dns
open Store Transition

variable {dns : DnsParser} {s t u : ForwarderState} {e : Event} {es : List Event} {id : TaskId}
  {task before after : Task} {act : Act}

/-! ### The number of steps -/

/-- How many steps a task has left at most. -/
def Stage.left : Stage → Nat
  | .lookup => 6
  | .upstream => 5
  | .register _ => 4
  | .sending _ _ => 3
  | .waiting _ _ => 2
  | .cleanup _ => 1
  | .caching _ => 1
  | .done _ => 0
  | .panicked => 0

theorem TaskStep.left (h : TaskStep dns s id task act t) (hafter : t.tasks id = some after) :
    after.stage.left + 1 ≤ task.stage.left := by
  cases h with
  | cleans hstage =>
    rw [removePending_tasks_self] at hafter
    obtain rfl := Option.some.inj hafter
    simp [hstage, Stage.left]
  | misses hstage | hits hstage | hitPanics hstage | upstream hstage | refuses hstage | registers hstage
  | sends hstage | sendFails hstage | tooShort hstage | answerPanics hstage | answers hstage | givesUp hstage
  | inserts hstage =>
    rw [setTask_tasks_self] at hafter
    obtain rfl := Option.some.inj hafter
    simp [hstage, Stage.left]

/-- The event is a step of this task. -/
def Event.actOf (id : TaskId) : Event → Bool
  | .act i _ => i == id
  | _ => false

theorem actOf_eq_true : e.actOf id = true ↔ ∃ act, e = .act id act := by
  cases e <;> simp [Event.actOf]

/-- The steps a task has taken and those it has left are six at most. -/
def Counted (id : TaskId) (es : List Event) (s : ForwarderState) : Prop :=
  match s.tasks id with
  | none => es.countP (Event.actOf id) = 0
  | some task => es.countP (Event.actOf id) + task.stage.left ≤ 6

theorem counted_step (hs : Counted id es s) (h : (forwarder dns).step s e = some t) : Counted id (es ++ [e]) t := by
  unfold Counted at hs ⊢
  rw [List.countP_append, List.countP_singleton]
  by_cases hact : ∃ act, e = .act id act
  · obtain ⟨act, rfl⟩ := hact
    obtain ⟨task, htask, hstep⟩ := forwarder_acts h
    obtain ⟨after, hafter, -⟩ := forwarder_persists h htask
    have hleft := hstep.left hafter
    rw [htask] at hs
    rw [hafter, if_pos (actOf_eq_true.mpr ⟨act, rfl⟩)]
    simp only at hs ⊢
    omega
  · rw [if_neg (by rwa [actOf_eq_true]), Nat.add_zero]
    cases hafter : t.tasks id with
    | none =>
      cases hbefore : s.tasks id with
      | none =>
        rw [hbefore] at hs
        exact hs
      | some before =>
        obtain ⟨after, hsome, -⟩ := forwarder_persists h hbefore
        exact absurd (hafter.symm.trans hsome) (by simp)
    | some after =>
      cases hbefore : s.tasks id with
      | none =>
        rw [hbefore] at hs
        rcases forwarder_turn h hafter with ⟨-, hfresh⟩ | ⟨before, hsome, -⟩
        · simp only at hs ⊢
          rcases hfresh.stage with hstage | hstage <;> simp [hs, hstage, Stage.left]
        · exact absurd (hbefore.symm.trans hsome) (by simp)
      | some before =>
        rw [hbefore] at hs
        have halone := forwarder_alone h (fun act he => hact ⟨act, he⟩) hbefore hafter
        simp only [halone.stage]
        exact hs

theorem counted_run (h : (forwarder dns).run .initial es = some s) : Counted id es s := by
  have hinitial : Counted id [] .initial := rfl
  exact (forwarder dns).run_history hinitial (fun _ _ _ _ _ hs hstep => counted_step hs hstep) h

/-! ### The next step -/

def Stage.Finished (stage : Stage) : Prop := stage = .panicked ∨ ∃ reply, stage = .done reply

/-- The task waits for a response that has not come, and may still do so. -/
def Task.Waits (task : Task) (now : Nat) : Prop :=
  ∃ reg deadline, task.stage = .waiting reg deadline ∧ task.rx = .empty ∧ now ≤ deadline

/-- The IDs it draws may be such that the task goes on, whatever the map has in it. -/
theorem register_acts (dns : DnsParser) (s : ForwarderState) (id : TaskId) {upstreamIp : Ipv4Addr}
    (hstage : task.stage = .register upstreamIp) : ∃ draws t, s.taskStep dns id task (.register draws) = some t := by
  by_cases hshort : task.query.length < dnsHeaderSize
  · exact ⟨[], _, by simp only [ForwarderState.taskStep, hstage, if_pos hshort]; rfl⟩
  · by_cases hfull : maxPendingQueries ≤ s.pendingQueries.len
    · exact ⟨[], _, by simp only [ForwarderState.taskStep, hstage, if_neg hshort, if_pos hfull]; rfl⟩
    · obtain ⟨xid, hfree⟩ := exists_free_xid (Nat.le_of_lt (Nat.not_le.mp hfull))
      have hfind : [xid].find? (fun xid => !s.pendingQueries.containsKey xid) = some xid :=
        List.find?_cons_of_pos (by simp [HashMap.containsKey, hfree])
      obtain ⟨query, hquery, -⟩ := withXid_eq_some xid (Nat.le_trans (by decide) (Nat.not_lt.mp hshort))
      exact ⟨[xid], _, by simp only [ForwarderState.taskStep, hstage, if_neg hshort, if_neg hfull, hfind, hquery]; rfl⟩

/-- **A task is never stuck.** -/
theorem task_acts (dns : DnsParser) (htask : s.tasks id = some task) :
    task.stage.Finished ∨ task.Waits s.now ∨ ∃ act t, (forwarder dns).step s (.act id act) = some t := by
  have hstep : (∃ act t, s.taskStep dns id task act = some t) →
      ∃ act t, (forwarder dns).step s (.act id act) = some t := by
    rintro ⟨act, t, hact⟩
    exact ⟨act, t, by simpa only [forwarder, htask, Option.bind_some] using hact⟩
  cases hstage : task.stage with
  | lookup =>
    refine .inr (.inr (hstep ⟨.lookup, ?_⟩))
    simp only [ForwarderState.taskStep, hstage]
    split <;> exact ⟨_, rfl⟩
  | upstream => exact .inr (.inr (hstep ⟨.upstream, _, by simp only [ForwarderState.taskStep, hstage]; rfl⟩))
  | register upstreamIp =>
    obtain ⟨draws, t, hdraws⟩ := register_acts dns s id hstage
    exact .inr (.inr (hstep ⟨.register draws, t, hdraws⟩))
  | sending reg query => exact .inr (.inr (hstep ⟨.sent true, _, by simp only [ForwarderState.taskStep, hstage]; rfl⟩))
  | waiting reg deadline =>
    cases hrx : task.rx with
    | empty =>
      by_cases hnow : s.now ≤ deadline
      · exact .inr (.inl ⟨reg, deadline, hstage, hrx, hnow⟩)
      · refine .inr (.inr (hstep ⟨.wake, ?_⟩))
        simp only [ForwarderState.taskStep, hstage, hrx, if_pos (Nat.le_of_lt (Nat.not_le.mp hnow))]
        exact ⟨_, rfl⟩
    | value d =>
      refine .inr (.inr (hstep ⟨.wake, ?_⟩))
      simp only [ForwarderState.taskStep, hstage, hrx]
      split
      · exact ⟨_, rfl⟩
      · split <;> exact ⟨_, rfl⟩
    | closed =>
      refine .inr (.inr (hstep ⟨.wake, ?_⟩))
      simp only [ForwarderState.taskStep, hstage, hrx]
      exact ⟨_, rfl⟩
  | cleanup reg => exact .inr (.inr (hstep ⟨.cleanup, _, by simp only [ForwarderState.taskStep, hstage]; rfl⟩))
  | caching response => exact .inr (.inr (hstep ⟨.insert, _, by simp only [ForwarderState.taskStep, hstage]; rfl⟩))
  | done reply => exact .inl (.inr ⟨reply, rfl⟩)
  | panicked => exact .inl (.inl rfl)

/-! ### The deadline -/

/-- Nobody dawdles: the clock moves on when every task is done or waits, and then not past
a deadline. -/
def Prompt (s : ForwarderState) : Event → Prop
  | .tick now => ∀ id task, s.tasks id = some task → task.stage.Finished ∨ task.Waits now
  | _ => True

/-- How far a query that came in at `born` may be. -/
def Stage.Timely (born now : Nat) : Stage → Prop
  | .lookup | .upstream | .register _ | .sending _ _ => now = born
  | .waiting _ deadline => now ≤ deadline ∧ deadline ≤ born + upstreamTimeout
  | .cleanup _ | .caching _ => now ≤ born + upstreamTimeout
  | .done _ | .panicked => True

theorem Stage.Timely.le {stage : Stage} {born now : Nat} (h : stage.Timely born now) :
    now ≤ born + upstreamTimeout ∨ stage.Finished := by
  cases stage with
  | done reply => exact .inr (.inr ⟨reply, rfl⟩)
  | panicked => exact .inr (.inl rfl)
  | waiting => exact .inl (Nat.le_trans h.1 h.2)
  | cleanup | caching => exact .inl h
  | _ =>
    obtain rfl : now = born := h
    exact .inl (Nat.le_add_right _ _)

/-- A step of its own takes no time, and sets the deadline no later than that. -/
theorem TaskStep.timely {born : Nat} (h : TaskStep dns s id task act t) (hafter : t.tasks id = some after)
    (htask : task.stage.Timely born s.now) : after.stage.Timely born t.now := by
  have hle : s.now ≤ born + upstreamTimeout ∨ task.stage.Finished := htask.le
  rw [h.setting.1]
  cases h with
  | cleans hstage =>
    rw [removePending_tasks_self] at hafter
    obtain rfl := Option.some.inj hafter
    simp [Stage.Timely]
  | sends hstage =>
    rw [setTask_tasks_self] at hafter
    obtain rfl := Option.some.inj hafter
    rw [hstage] at htask
    obtain rfl : s.now = born := htask
    exact ⟨Nat.le_add_right _ _, Nat.le_refl _⟩
  | misses hstage | upstream hstage | registers hstage =>
    rw [setTask_tasks_self] at hafter
    obtain rfl := Option.some.inj hafter
    rw [hstage] at htask
    exact htask
  | sendFails hstage | answers hstage | givesUp hstage =>
    rw [setTask_tasks_self] at hafter
    obtain rfl := Option.some.inj hafter
    refine hle.resolve_right ?_
    simp [hstage, Stage.Finished]
  | _ =>
    rw [setTask_tasks_self] at hafter
    obtain rfl := Option.some.inj hafter
    simp [Stage.Timely]

/-- The clock may move on. -/
theorem Stage.Timely.tick {born now now' : Nat} (h : task.stage.Timely born now)
    (hprompt : task.stage.Finished ∨ task.Waits now') : task.stage.Timely born now' := by
  rcases hprompt with (hpanic | ⟨reply, hdone⟩) | ⟨reg, deadline, hwaiting, -, hle⟩
  · rw [hpanic]
    trivial
  · rw [hdone]
    trivial
  · rw [hwaiting] at h ⊢
    exact ⟨hle, h.2⟩

/-- The query of the task came in at `born`, and is on time. -/
def OnTime (id : TaskId) (born : Nat) (s : ForwarderState) : Prop :=
  ∃ task, s.tasks id = some task ∧ task.stage.Timely born s.now

theorem onTime_step {born : Nat} (hs : OnTime id born s) (hprompt : Prompt s e)
    (h : (forwarder dns).step s e = some t) : OnTime id born t := by
  obtain ⟨before, hbefore, htimely⟩ := hs
  obtain ⟨after, hafter, -⟩ := forwarder_persists h hbefore
  refine ⟨after, hafter, ?_⟩
  by_cases hact : ∃ act, e = .act id act
  · obtain ⟨act, rfl⟩ := hact
    obtain ⟨task, htask, hstep⟩ := forwarder_acts h
    obtain rfl := Option.some.inj (hbefore.symm.trans htask)
    exact hstep.timely hafter htimely
  · have halone := forwarder_alone h (fun act he => hact ⟨act, he⟩) hbefore hafter
    rw [halone.stage]
    rcases (forwarder_setting h).1 with hnow | ⟨rfl, -⟩
    · rwa [hnow]
    · exact htimely.tick (hprompt id before hbefore)

/-- A query that comes in is on time. -/
theorem onTime_query {bytes : List UInt8} (h : (forwarder dns).step s (.query id bytes) = some t) :
    OnTime id s.now t := by
  simp only [forwarder, Option.ite_none_right_eq_some, Option.some.injEq] at h
  obtain ⟨-, rfl⟩ := h
  simp only [ForwarderState.spawn]
  split
  · exact ⟨_, setTask_tasks_self s id _, trivial⟩
  · exact ⟨_, setTask_tasks_self s id _, rfl⟩

/-- **Every query ends.** In every run, a task takes six steps at most, and can take the
next one unless it is done, or waits for a response before its deadline; and where the
clock leaves nobody behind, it is done three seconds after its query came in. -/
theorem queries_end (dns : DnsParser) (h : (forwarder dns).run .initial es = some s) (htask : s.tasks id = some task) :
    es.countP (Event.actOf id) + task.stage.left ≤ 6 ∧
    ((∃ reply, task.stage = .done reply) ∨ task.Waits s.now ∨
      ∃ act t, (forwarder dns).step s (.act id act) = some t) ∧
    ((forwarder dns).Along Prompt .initial es → ∀ before bytes after u, es = before ++ .query id bytes :: after →
      (forwarder dns).run .initial before = some u →
      s.now ≤ u.now + upstreamTimeout ∨ ∃ reply, task.stage = .done reply) := by
  have hfinished : task.stage.Finished → ∃ reply, task.stage = .done reply := by
    intro hfinished
    exact hfinished.resolve_left ((traced_run h).unpanicked id task htask)
  refine ⟨?_, (task_acts dns htask).imp_left hfinished, fun hprompt before bytes after u hes hu => ?_⟩
  · have hcounted : Counted id es s := counted_run h
    rw [Counted, htask] at hcounted
    exact hcounted
  · subst hes
    obtain ⟨v, hv, hrest⟩ := (System.run_append_eq_some _).mp h
    obtain rfl := Option.some.inj (hu.symm.trans hv)
    obtain ⟨v, hquery, hrest⟩ := (System.run_cons_eq_some _).mp hrest
    have hsuffix := System.Along.of_append hprompt hu
    have honTime : (forwarder dns).Always (OnTime id u.now) v after :=
      System.always_of_along (fun _ _ _ hs he hstep => onTime_step hs he hstep) (onTime_query hquery)
        (System.along_cons.mp hsuffix v hquery).2
    obtain ⟨task', htask', htimely⟩ := honTime.last hrest
    obtain rfl := Option.some.inj (htask.symm.trans htask')
    exact htimely.le.imp_right hfinished

/-! ### A query without a response -/

/-- Tasks come from queries. -/
theorem task_queried (h : (forwarder dns).run .initial es = some s) :
    ∀ id task, s.tasks id = some task → ∃ bytes, .query id bytes ∈ es := by
  refine (forwarder dns).run_history (I := fun es s => ∀ id task, s.tasks id = some task → ∃ bytes, .query id bytes ∈ es)
    (fun id task htask => absurd htask (by simp [ForwarderState.initial])) ?_ h
  intro before u e v _ ih hstep id task htask
  rcases forwarder_task hstep htask with ⟨bytes, rfl, -⟩ | ⟨before', hbefore, -⟩
  · exact ⟨bytes, by simp⟩
  · obtain ⟨bytes, hmem⟩ := ih id before' hbefore
    exact ⟨bytes, List.mem_append_left _ hmem⟩

/-- The clock may move on where there is one task, and it is not left behind. -/
theorem prompt_alone {now : Nat} (h : (forwarder dns).run .initial es = some s)
    (hone : ∀ i bytes, .query i bytes ∈ es → i = id) (htask : s.tasks id = some task) (hkept : task.stage.Finished ∨ task.Waits now) : Prompt s (.tick now) := by
  intro other otherTask hother
  obtain ⟨bytes, hmem⟩ := task_queried h other otherTask hother
  obtain rfl := hone other bytes hmem
  rwa [← Option.some.inj (htask.symm.trans hother)]

/-- The task waits its three seconds, and gives up. -/
def givenUp : List Event := Plain.asked 0 0x61 ++ [.tick upstreamTimeout, .act 0 .wake, .act 0 .cleanup]

/-- Then the clock moves on. -/
def unanswered : List Event := givenUp ++ [.tick (upstreamTimeout + 1)]

theorem asked_only {es : List Event} (hes : es = Plain.asked 0 0x61 ∨ es = givenUp) :
    ∀ i bytes, .query i bytes ∈ es → i = 0 := by
  intro i bytes hmem
  rcases hes with rfl | rfl <;>
  · simp only [givenUp, Plain.asked, List.mem_append, List.mem_cons, Event.query.injEq, reduceCtorEq, List.not_mem_nil,
      or_false] at hmem
    exact hmem.1

/-- At the first tick the task waits, at the second one it is done. -/
theorem unanswered_prompt : (forwarder Plain.dnsParser).Along Prompt .initial unanswered := by
  have hstates : ((forwarder Plain.dnsParser).run .initial (Plain.asked 0 0x61)).any (fun s =>
      (s.tasks 0).any fun task => decide (task.stage = .waiting ⟨7, fallbackDnsServer⟩ upstreamTimeout ∧ task.rx = .empty)) =
        true ∧
      ((forwarder Plain.dnsParser).run .initial givenUp).any (fun s =>
        (s.tasks 0).any fun task => decide (task.stage = .done none)) = true := by
    decide +kernel
  obtain ⟨hwaits, hgivenUp⟩ := hstates
  obtain ⟨v, hv, hwaits⟩ := Option.any_eq_true _ _ |>.mp hwaits
  obtain ⟨waiting, hwaiting, hwaits⟩ := Option.any_eq_true _ _ |>.mp hwaits
  obtain ⟨hstage, hrx⟩ := of_decide_eq_true hwaits
  have hdeadline : Prompt v (.tick upstreamTimeout) :=
    prompt_alone hv (asked_only (.inl rfl)) hwaiting (.inr ⟨_, _, hstage, hrx, Nat.le_refl _⟩)
  obtain ⟨w, hw, hdone⟩ := Option.any_eq_true _ _ |>.mp hgivenUp
  obtain ⟨finished, hfinished, hdone⟩ := Option.any_eq_true _ _ |>.mp hdone
  have hlater : Prompt w (.tick (upstreamTimeout + 1)) :=
    prompt_alone hw (asked_only (.inr rfl)) hfinished (.inl (.inr ⟨none, of_decide_eq_true hdone⟩))
  have hasked : (forwarder Plain.dnsParser).Along Prompt .initial (Plain.asked 0 0x61) := by
    refine System.along_of_forall_mem fun e he u => ?_
    simp only [Plain.asked, List.mem_cons, List.not_mem_nil, or_false] at he
    rcases he with rfl | rfl | rfl | rfl | rfl <;> trivial
  have hactions : ∀ x, (forwarder Plain.dnsParser).Along Prompt x [.act 0 .wake, .act 0 .cleanup] := by
    refine fun x => System.along_of_forall_mem fun e he u => ?_
    simp only [List.mem_cons, List.not_mem_nil, or_false] at he
    rcases he with rfl | rfl <;> trivial
  obtain ⟨x, hx, -⟩ := (System.run_append_eq_some _ (a := Plain.asked 0 0x61 ++ [.tick upstreamTimeout])).mp hw
  exact ((hasked.snoc hv hdeadline).append hx (hactions x)).snoc hw hlater

/-- After three seconds it is done. -/
theorem queries_end_unanswered : ∃ s task, (forwarder Plain.dnsParser).run .initial unanswered = some s ∧
    s.tasks 0 = some task ∧ upstreamTimeout < s.now ∧ unanswered.countP (Event.actOf 0) + task.stage.left ≤ 6 ∧
    ∃ reply, task.stage = .done reply := by
  have hend : ((forwarder Plain.dnsParser).run .initial unanswered).any (fun s =>
      (s.tasks 0).isSome && decide (upstreamTimeout < s.now)) = true := by
    decide +kernel
  obtain ⟨s, hs, hend⟩ := Option.any_eq_true _ _ |>.mp hend
  obtain ⟨htask, hlate⟩ := Bool.and_eq_true_iff.mp hend
  obtain ⟨task, htask⟩ := Option.isSome_iff_exists.mp htask
  have hnow := of_decide_eq_true hlate
  obtain ⟨hcount, -, htime⟩ := queries_end Plain.dnsParser hs htask
  refine ⟨s, task, hs, htask, hnow, hcount, ?_⟩
  rcases htime unanswered_prompt [] (Plain.query 0x61) _ .initial rfl rfl with hsoon | hdone
  · exact absurd hsoon (Nat.not_le.mpr ((Nat.zero_add upstreamTimeout).symm ▸ hnow))
  · exact hdone

end RustyRouter.Dns
