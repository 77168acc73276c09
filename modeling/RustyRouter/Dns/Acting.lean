import RustyRouter.Dns.Provenance

/-! The step of one task, with what it replies.

`Turn` leaves out what a task replies and how it can panic. `forwarder_task` says so: over
a step, a task is new, is left alone up to its channel, or takes the step itself
(`Acted`). A reply is made from a cached response or is the one just fetched, and the only
panics there could be are those of a transaction ID written into a message too short for
it. -/
namespace RustyRouter.Dns
open Store Transition

/-! ### Writing a transaction ID -/

theorem withXidOf_eq_some {query bytes reply : List UInt8} : withXidOf query bytes = some reply ↔
    2 ≤ query.length ∧ 2 ≤ bytes.length ∧ reply = query.take 2 ++ bytes.drop 2 := by
  match query, bytes with
  | [], _ => simp [withXidOf]
  | [_], _ => simp [withXidOf]
  | _ :: _ :: _, [] => simp [withXidOf, setXid]
  | _ :: _ :: _, [_] => simp [withXidOf, setXid]
  | _ :: _ :: _, _ :: _ :: _ =>
    simp only [withXidOf, setXid, Option.some.injEq, List.length_cons, List.take_succ_cons, List.take_zero,
      List.drop_succ_cons, List.drop_zero, List.cons_append, List.nil_append]
    exact ⟨fun h => ⟨by omega, by omega, h.symm⟩, fun h => h.2.2.symm⟩

theorem withXidOf_ne_none {query bytes : List UInt8} (hquery : 2 ≤ query.length) (hbytes : 2 ≤ bytes.length) :
    withXidOf query bytes ≠ none := by
  rw [withXidOf_eq_some.mpr ⟨hquery, hbytes, rfl⟩]
  exact Option.some_ne_none _

/-! ### The tasks that do not act -/

/-- Everything but the channel is as it was. -/
structure LeftAlone (before after : Task) : Prop where
  stage : after.stage = before.stage
  query : after.query = before.query
  cacheKey : after.cacheKey = before.cacheKey
  forwarded : after.forwarded = before.forwarded

theorem LeftAlone.refl (task : Task) : LeftAlone task task := ⟨rfl, rfl, rfl, rfl⟩

theorem leftAlone_put (task : Task) (channel : Channel) : LeftAlone task (task.put channel) :=
  ⟨by simp, by simp, by simp, by simp⟩

variable {dns : DnsParser} {s t : ForwarderState} {e : Event} {id i : TaskId} {task before after : Task}
  {act : Act}

theorem put_leftAlone {tx : TaskId} {channel : Channel} (h : (s.put tx channel).tasks i = some after) :
    ∃ before, s.tasks i = some before ∧ LeftAlone before after := by
  obtain ⟨before, hbefore, rfl⟩ := (put_tasks_eq_some s tx channel).mp h
  refine ⟨before, hbefore, ?_⟩
  split
  · exact leftAlone_put before channel
  · exact .refl before

theorem removePending_leftAlone {xid : UInt16} (hne : i ≠ id)
    (h : (s.removePending id task xid).tasks i = some after) :
    ∃ before, s.tasks i = some before ∧ LeftAlone before after := by
  simp only [ForwarderState.removePending] at h
  split at h
  · exact ⟨after, (setTask_tasks_of_ne _ id _ hne).symm.trans h, .refl after⟩
  · obtain ⟨before, hbefore, halone⟩ := put_leftAlone h
    exact ⟨before, (setTask_tasks_of_ne _ id _ hne).symm.trans hbefore, halone⟩

/-- The step of a task leaves the others alone. -/
theorem taskStep_leftAlone (htask : s.tasks id = some task) (h : s.taskStep dns id task act = some t)
    (hne : i ≠ id) (hafter : t.tasks i = some after) :
    ∃ before, s.tasks i = some before ∧ LeftAlone before after := by
  rcases taskStep_sets htask h with ⟨s', task', rfl, htasks, -, -⟩ | ⟨reg, -, rfl⟩
  · rw [setTask_tasks_of_ne _ _ _ hne, htasks] at hafter
    exact ⟨after, hafter, .refl after⟩
  · exact removePending_leftAlone hne hafter

/-! ### The task that acts -/

/-- What the step of a task says about the task itself. -/
structure Acted (s : ForwarderState) (before after : Task) : Prop where
  query : after.query = before.query
  cacheKey : after.cacheKey = before.cacheKey
  unfinished : ∀ reply, before.stage ≠ .done reply
  /-- A reply is a cached response under the query's ID, or what was just fetched. -/
  replies : ∀ reply, after.stage = .done (some reply) →
    before.stage = .caching reply ∨ before.stage = .lookup ∧ after.forwarded = before.forwarded ∧
      ∃ response, (lookupCache s.now before.cacheKey s.cache).2 = some response ∧
        withXidOf before.query response = some reply
  /-- A panic is an ID that does not fit a cached response, or a datagram of full length. -/
  panics : after.stage = .panicked → ∃ bytes, withXidOf before.query bytes = none ∧
    ((lookupCache s.now before.cacheKey s.cache).2 = some bytes ∨ dnsHeaderSize ≤ bytes.length)

/-- A step to a stage that is neither a reply nor a panic. -/
theorem set_quietly {s' : ForwarderState} {task' : Task} (hafter : (s'.setTask id task').tasks id = some after)
    (hlive : ∀ reply, before.stage ≠ .done reply) (hquery : task'.query = before.query)
    (hkey : task'.cacheKey = before.cacheKey) (hreply : ∀ reply, task'.stage ≠ .done (some reply))
    (hpanic : task'.stage ≠ .panicked) : Acted s before after := by
  rw [setTask_tasks_self] at hafter
  obtain rfl := Option.some.inj hafter
  exact ⟨hquery, hkey, hlive, fun reply hstage => absurd hstage (hreply reply), fun hstage => absurd hstage hpanic⟩

theorem taskStep_acted (h : s.taskStep dns id task act = some t) (hafter : t.tasks id = some after) :
    Acted s task after := by
  cases taskStep_cases h with
  | misses hstage | upstream hstage | refuses hstage | registers hstage | sends hstage
  | sendFails hstage | tooShort hstage | answers hstage | givesUp hstage =>
    exact set_quietly hafter (by simp [hstage]) rfl rfl (by simp) (by simp)
  | @hits response reply hstage hfound hreply =>
    rw [setTask_tasks_self] at hafter
    obtain rfl := Option.some.inj hafter
    refine ⟨rfl, rfl, by simp [hstage], fun other hother => .inr ⟨hstage, rfl, response, hfound, ?_⟩, by simp⟩
    obtain rfl : reply = other := by simpa using hother
    exact hreply
  | @hitPanics response hstage hfound hreply =>
    rw [setTask_tasks_self] at hafter
    obtain rfl := Option.some.inj hafter
    exact ⟨rfl, rfl, by simp [hstage], by simp, fun _ => ⟨response, hreply, .inl hfound⟩⟩
  | @answerPanics _ _ d hstage hrx hlen hresponse =>
    rw [setTask_tasks_self] at hafter
    obtain rfl := Option.some.inj hafter
    exact ⟨rfl, rfl, by simp [hstage], by simp, fun _ => ⟨d.payload, hresponse, .inr hlen⟩⟩
  | cleans hstage =>
    rw [removePending_tasks_self] at hafter
    obtain rfl := Option.some.inj hafter
    exact ⟨rfl, rfl, by simp [hstage], by simp, by simp⟩
  | @inserts response hstage =>
    rw [setTask_tasks_self] at hafter
    obtain rfl := Option.some.inj hafter
    refine ⟨rfl, rfl, by simp [hstage], fun reply hreply => .inl ?_, by simp⟩
    obtain rfl : response = reply := by simpa using hreply
    exact hstage

/-! ### A task over a step -/

/-- What a query starts as: done with, where it is too short or has no cache key, and else
about to be looked up. -/
def Task.Spawned (dns : DnsParser) (bytes : List UInt8) (task : Task) : Prop :=
  task.query = bytes ∧ task.rx = .empty ∧ task.answer = none ∧ (task.stage = .done none ∨
    task.stage = .lookup ∧ dnsHeaderSize ≤ bytes.length ∧ getCacheKey dns bytes = some task.cacheKey)

theorem spawn_tasks {bytes : List UInt8} (hafter : (s.spawn dns id bytes).tasks i = some after) :
    i = id ∧ after.Spawned dns bytes ∨ s.tasks i = some after := by
  by_cases hi : i = id
  · subst hi
    refine .inl ⟨rfl, ?_⟩
    simp only [ForwarderState.spawn] at hafter
    split at hafter
    · rw [setTask_tasks_self] at hafter
      obtain rfl := Option.some.inj hafter
      exact ⟨rfl, rfl, rfl, .inl rfl⟩
    · rename_i key hkey
      rw [setTask_tasks_self] at hafter
      obtain rfl := Option.some.inj hafter
      simp only [Option.ite_none_left_eq_some, Nat.not_lt] at hkey
      exact ⟨rfl, rfl, rfl, .inr ⟨rfl, hkey⟩⟩
  · refine .inr ?_
    simp only [ForwarderState.spawn] at hafter
    split at hafter <;> rwa [setTask_tasks_of_ne _ _ _ hi] at hafter

theorem receive_tasks (d : Datagram) : (s.receive d).tasks = s.tasks := by
  unfold ForwarderState.receive
  split
  · rfl
  · split
    · rfl
    · split <;> rfl

/-- **A task over a step** is new, or left alone, or the one that acts. -/
theorem forwarder_task (h : (forwarder dns).step s e = some t) (hafter : t.tasks i = some after) :
    (∃ bytes, e = .query i bytes ∧ after.Spawned dns bytes) ∨
      ∃ before, s.tasks i = some before ∧ (LeftAlone before after ∨ Acted s before after) := by
  cases e with
  | query id bytes =>
    simp only [forwarder, Option.ite_none_right_eq_some, Option.some.injEq] at h
    rw [← h.2] at hafter
    rcases spawn_tasks hafter with ⟨rfl, hspawned⟩ | hbefore
    · exact .inl ⟨bytes, rfl, hspawned⟩
    · exact .inr ⟨after, hbefore, .inl (.refl after)⟩
  | act id act =>
    simp only [forwarder, Option.bind_eq_some_iff] at h
    obtain ⟨task, htask, h⟩ := h
    refine .inr ?_
    by_cases hi : i = id
    · subst hi
      exact ⟨task, htask, .inr (taskStep_acted h hafter)⟩
    · obtain ⟨before, hbefore, halone⟩ := taskStep_leftAlone htask h hi hafter
      exact ⟨before, hbefore, .inl halone⟩
  | receive d =>
    simp only [forwarder, Option.ite_none_right_eq_some, Option.some.injEq] at h
    rw [← h.2, receive_tasks] at hafter
    exact .inr ⟨after, hafter, .inl (.refl after)⟩
  | deliver =>
    simp only [forwarder, Option.map_eq_some_iff] at h
    obtain ⟨⟨p, d⟩, -, rfl⟩ := h
    obtain ⟨before, hbefore, halone⟩ := put_leftAlone hafter
    exact .inr ⟨before, hbefore, .inl halone⟩
  | tick now =>
    simp only [forwarder, Option.ite_none_right_eq_some, Option.some.injEq] at h
    rw [← h.2] at hafter
    exact .inr ⟨after, hafter, .inl (.refl after)⟩
  | lease dnsServers =>
    rw [← Option.some.inj h] at hafter
    exact .inr ⟨after, hafter, .inl (.refl after)⟩
  | prune =>
    rw [← Option.some.inj h] at hafter
    exact .inr ⟨after, hafter, .inl (.refl after)⟩

end RustyRouter.Dns
