import RustyRouter.Dns.Upstream

/-! What the forwarder answers from its cache.

The operations that a run does on the cache come from its tasks: a response is stored by a
task that has fetched it, under the key of its own query (`lastStored_fetched`). A lookup
finds the last one stored under the key of the query, exactly while it is fresh; the query is
then answered with it, and goes upstream otherwise (`cached_fresh`). -/
namespace RustyRouter.Dns
open Store Transition

variable {dns : DnsParser} {es : List Event} {s t : ForwarderState} {e : Event} {id : TaskId} {task after : Task}

/-- In the run, at `since`, a task stored what it had fetched for a query with this key. -/
def Fetched (dns : DnsParser) (es : List Event) (key response : List UInt8) (since : Nat) : Prop :=
  ∃ before origin u task, before ++ [.act origin .insert] <+: es ∧ (forwarder dns).run .initial before = some u ∧
    u.tasks origin = some task ∧ getCacheKey dns task.query = some key ∧ task.stage = .caching response ∧ u.now = since

/-- Only the task that is about to store a response stores one. -/
theorem cacheEvent_insert {since : Nat} {key response : List UInt8}
    (hdoes : s.cacheEvent e = some ⟨since, .insert key response⟩) (h : (forwarder dns).step s e = some t) :
    ∃ id task, e = .act id .insert ∧ s.tasks id = some task ∧ task.cacheKey = key ∧ task.stage = .caching response ∧
      s.now = since := by
  cases e with
  | act id act =>
    obtain ⟨task, htask, hstep⟩ := forwarder_acts h
    rw [ForwarderState.cacheEvent, htask, Option.bind_some, Task.cacheEvent] at hdoes
    cases hstep with
    | inserts hstage =>
      rw [hstage] at hdoes
      simp only [Option.some.injEq, CacheEvent.mk.injEq, CacheOp.insert.injEq] at hdoes
      obtain ⟨hnow, hkey, rfl⟩ := hdoes
      exact ⟨id, task, rfl, htask, hkey, hstage, hnow⟩
    | misses hstage | hits hstage | hitPanics hstage | upstream hstage | refuses hstage | registers hstage | sends hstage
    | sendFails hstage | tooShort hstage | answerPanics hstage | answers hstage | givesUp hstage | cleans hstage =>
      simp [hstage] at hdoes
  | _ => simp [ForwarderState.cacheEvent] at hdoes

/-- Whatever was stored last, some task fetched it. -/
theorem lastStored_fetched (h : (forwarder dns).run .initial es = some s) {key response : List UInt8} {since : Nat}
    (hlast : LastStored dns key (operations dns es) since response) : Fetched dns es key response since := by
  obtain ⟨earlier, op, later, hops, hnow, ⟨hop, -⟩, -⟩ := hlast
  have hmem : op ∈ operations dns es := by simp [hops]
  obtain ⟨before, e, u, hprefix, hu, hdoes⟩ := System.mem_trace _ hmem
  obtain ⟨rest, rfl⟩ := hprefix
  obtain ⟨v, hv, -⟩ := (System.run_append_eq_some _).mp h
  obtain ⟨u', hu', hstep⟩ := (System.run_snoc_eq_some _).mp hv
  obtain rfl := Option.some.inj (hu'.symm.trans hu)
  have hinsert : u'.cacheEvent e = some ⟨since, .insert key response⟩ := by
    rw [hdoes, ← hnow, ← hop]
  obtain ⟨origin, task, rfl, htask, hkey, hstage, hsince⟩ := cacheEvent_insert hinsert hstep
  refine ⟨before, origin, u', task, List.prefix_append _ _, hu, htask, ?_, hstage, hsince⟩
  rcases (traced_run hu).keyed origin task htask with hdone | ⟨-, hquery⟩
  · exact absurd (hstage.symm.trans hdone) (by simp)
  · rw [hquery, hkey]

/-- **What is cached is fresh.** In every run, a query that is looked up is answered at once
precisely if the response stored last under its key is fresh, and then with that one under
its own ID; otherwise it goes upstream. -/
theorem cached_fresh (h : (forwarder dns).run .initial es = some s) (htask : s.tasks id = some task)
    (hstep : (forwarder dns).step s (.act id .lookup) = some t) (hafter : t.tasks id = some after) :
    (∀ reply, after.stage = .done (some reply) ↔ ∃ since response,
      LastStored dns task.cacheKey (operations dns es) since response ∧ Fetched dns es task.cacheKey response since ∧
      Fresh dns response since s.now ∧ reply = task.query.take 2 ++ response.drop 2) ∧
    (after.stage = .upstream ↔ ¬ ∃ since response,
      LastStored dns task.cacheKey (operations dns es) since response ∧ Fresh dns response since s.now) := by
  have hfound := forwarder_lookup_fresh h (Nat.le_refl s.now) task.cacheKey
  have hpanic : after.stage ≠ .panicked :=
    (traced_run ((forwarder dns).run_snoc h hstep)).unpanicked id after hafter
  obtain ⟨task', htask', hact⟩ := forwarder_acts hstep
  obtain rfl := Option.some.inj (htask.symm.trans htask')
  cases hact with
  | misses hstage hnone =>
    rw [setTask_tasks_self] at hafter
    obtain rfl := Option.some.inj hafter
    have hno : ∀ since response, ¬ (LastStored dns task.cacheKey (operations dns es) since response ∧
        Fresh dns response since s.now) := by
      intro since response hfresh
      exact absurd (hnone.symm.trans ((hfound response).mpr ⟨since, hfresh⟩)) (by simp)
    constructor
    · intro reply
      refine ⟨fun hdone => by simp at hdone, ?_⟩
      rintro ⟨since, response, hlast, -, hfresh, -⟩
      exact absurd ⟨hlast, hfresh⟩ (hno since response)
    · exact iff_of_true rfl fun ⟨since, response, hfresh⟩ => hno since response hfresh
  | @hits response reply hstage hsome hreply =>
    rw [setTask_tasks_self] at hafter
    obtain rfl := Option.some.inj hafter
    obtain ⟨since, hlast, hfresh⟩ := (hfound response).mp hsome
    obtain ⟨-, -, rfl⟩ := withXidOf_eq_some.mp hreply
    constructor
    · intro other
      constructor
      · intro hdone
        obtain rfl : _ = other := by simpa using hdone
        exact ⟨since, response, hlast, lastStored_fetched h hlast, hfresh, rfl⟩
      · rintro ⟨since', response', hlast', -, hfresh', rfl⟩
        obtain rfl := Option.some.inj (hsome.symm.trans ((hfound response').mpr ⟨since', hlast', hfresh'⟩))
        rfl
    · exact iff_of_false (by simp) (not_not_intro ⟨since, response, hlast, hfresh⟩)
  | hitPanics =>
    rw [setTask_tasks_self] at hafter
    obtain rfl := Option.some.inj hafter
    exact absurd rfl hpanic

/-! ### Asking again -/

/-- The query is asked again after so many seconds; what it is answered with may be kept for
a minute. -/
def again (secs : Nat) : List Event :=
  Plain.asked 0 0x61 ++ [.receive ⟨fallbackDnsServer, Plain.reply 7 0x61, some 0⟩, .deliver, .act 0 .wake,
    .act 0 .insert, .tick (Duration.fromSecs secs), .query 1 (Plain.query 0x61)]

/-- A run that ends with the lookup. -/
theorem lookup_run {stage : Stage} (h : ((forwarder dns).run .initial (es ++ [.act id .lookup])).any (fun t =>
      (t.tasks id).any fun after => decide (after.stage = stage)) = true) :
    ∃ s task t after, (forwarder dns).run .initial es = some s ∧ s.tasks id = some task ∧
      (forwarder dns).step s (.act id .lookup) = some t ∧ t.tasks id = some after ∧ after.stage = stage := by
  obtain ⟨t, ht, hafter⟩ := Option.any_eq_true _ _ |>.mp h
  obtain ⟨after, hafter, hstage⟩ := Option.any_eq_true _ _ |>.mp hafter
  obtain ⟨s, hs, hstep⟩ := (System.run_snoc_eq_some _).mp ht
  obtain ⟨task, htask, -⟩ := forwarder_acts hstep
  exact ⟨s, task, t, after, hs, htask, hstep, hafter, of_decide_eq_true hstage⟩

/-- After 59 seconds the response is fresh, after 60 it is not. -/
theorem cached_fresh_minute :
    (∃ s task, (forwarder Plain.dnsParser).run .initial (again 59) = some s ∧ s.tasks 1 = some task ∧
      ∃ since response, LastStored Plain.dnsParser task.cacheKey (operations Plain.dnsParser (again 59)) since response ∧
        Fetched Plain.dnsParser (again 59) task.cacheKey response since ∧ Fresh Plain.dnsParser response since s.now) ∧
    ∃ s task, (forwarder Plain.dnsParser).run .initial (again 60) = some s ∧ s.tasks 1 = some task ∧
      ¬ ∃ since response, LastStored Plain.dnsParser task.cacheKey (operations Plain.dnsParser (again 60)) since response ∧
        Fresh Plain.dnsParser response since s.now := by
  constructor
  · have hrun : ((forwarder Plain.dnsParser).run .initial (again 59 ++ [.act 1 .lookup])).any (fun t =>
        (t.tasks 1).any fun after => decide (after.stage = .done (some (Plain.reply 1 0x61)))) = true := by
      decide +kernel
    obtain ⟨s, task, t, after, hs, htask, hstep, hafter, hstage⟩ := lookup_run hrun
    obtain ⟨since, response, hlast, hfetched, hfresh, -⟩ := ((cached_fresh hs htask hstep hafter).1 _).mp hstage
    exact ⟨s, task, hs, htask, since, response, hlast, hfetched, hfresh⟩
  · have hrun : ((forwarder Plain.dnsParser).run .initial (again 60 ++ [.act 1 .lookup])).any (fun t =>
        (t.tasks 1).any fun after => decide (after.stage = .upstream)) = true := by
      decide +kernel
    obtain ⟨s, task, t, after, hs, htask, hstep, hafter, hstage⟩ := lookup_run hrun
    exact ⟨s, task, hs, htask, (cached_fresh hs htask hstep hafter).2.mp hstage⟩

end RustyRouter.Dns
