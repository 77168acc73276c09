import RustyRouter.Dns.Replies

/-! Answers and the questions they are for.

A reply is matched to a task by its transaction ID and its sender alone. With an honest
upstream, whose datagrams are replies to queries it was sent, that finds the right task as
long as no two tasks ever forward under the same ID to the same server. The registration
only sees to it that the ID is not in the map, from which it is gone once the earlier task
has finished, while the reply to it may still be on its way. -/
namespace RustyRouter.Dns
open Store Transition

/-! ### The property -/

/-- Every response that was returned, and every one that is cached, is a reply to the query
that its task forwarded. -/
structure Paired (s : ForwarderState) : Prop where
  answered : ∀ id task d, s.tasks id = some task → task.answer = some d → d.re = some id
  cached : ∀ key entry, s.cache.get key = some entry → ∃ id task d, s.tasks id = some task ∧
    task.cacheKey = key ∧ task.answer = some d ∧ d.re = some id ∧
    withXidOf task.query d.payload = some entry.response

/-- What arrives is a reply: to a query that was forwarded to its sender, with the same
transaction ID and the same questions. -/
def Honest (dns : DnsParser) (s : ForwarderState) : Event → Prop
  | .receive d => ∃ id ∈ d.re, ∃ task ∈ s.tasks id, ∃ f ∈ task.forwarded,
      d.source = f.1.upstreamIp ∧ xidOf d.payload = some f.1.xid ∧
      (dns.parse d.payload).map Packet.questions = (dns.parse f.2).map Packet.questions
  | _ => True

instance (dns : DnsParser) (s : ForwarderState) (e : Event) : Decidable (Honest dns s e) :=
  match e with
  | .receive d => inferInstanceAs (Decidable (∃ id ∈ d.re, ∃ task ∈ s.tasks id, ∃ f ∈ task.forwarded,
      d.source = f.1.upstreamIp ∧ xidOf d.payload = some f.1.xid ∧
      (dns.parse d.payload).map Packet.questions = (dns.parse f.2).map Packet.questions))
  | .tick _ => isTrue trivial
  | .lease _ => isTrue trivial
  | .query _ _ => isTrue trivial
  | .act _ _ => isTrue trivial
  | .deliver => isTrue trivial
  | .prune => isTrue trivial

/-! ### The condition -/

/-- The task has forwarded its query under this ID to this server, or is about to. -/
def Task.MayForward (task : Task) (reg : Registration) : Prop :=
  ∃ query, task.stage = .sending reg query ∨ task.forwarded = some (reg, query)

/-- A registration does not repeat the ID and the server of another task's query, be it
finished or not. -/
def Unrepeated (s : ForwarderState) (e : Event) : Prop :=
  ∀ id reg, Registers s e id reg → ∀ other task, other ≠ id → s.tasks other = some task →
    ¬ task.MayForward reg

variable {dns : DnsParser} {s t : ForwarderState} {e : Event} {id : TaskId} {before after : Task}
  {reg : Registration}

/-! ### What a turn does to a forwarded query -/

theorem Turn.mayForward (hturn : Turn s e id before after) (h : after.MayForward reg) :
    before.MayForward reg ∨ Registers s e id reg := by
  obtain ⟨query, hsending | hforwarded⟩ := h
  · cases hturn with
    | same => exact .inl ⟨query, .inl hsending⟩
    | loses => exact .inl ⟨query, .inl (by simpa using hsending)⟩
    | hears => exact .inl ⟨query, .inl (by simpa using hsending)⟩
    | advances _ hto => exact absurd (hto.symm.trans (congrArg Stage.reg hsending)) (by simp [Stage.reg])
    | registers hregisters =>
      obtain ⟨rfl, -⟩ := Stage.sending.inj hsending
      exact .inr hregisters
    | ends _ hto => rcases hto with rfl | rfl <;> exact absurd hsending (by simp)
    | _ => exact absurd hsending (by simp)
  · cases hturn with
    | loses => exact .inl ⟨query, .inr (by simpa using hforwarded)⟩
    | hears => exact .inl ⟨query, .inr (by simpa using hforwarded)⟩
    | forwards hstage =>
      obtain ⟨rfl, rfl⟩ := Prod.mk.inj (Option.some.inj hforwarded)
      exact .inl ⟨_, .inl hstage⟩
    | _ => exact .inl ⟨query, .inr hforwarded⟩

/-- Once a task listens, it has forwarded its query or is about to. -/
theorem Registered.mayForward (hR : Registered s) (hbefore : s.tasks id = some before)
    (hlistens : before.listens = true) : ∃ reg, before.stage.reg = some reg ∧ before.MayForward reg := by
  cases hstage : before.stage with
  | sending reg query => exact ⟨reg, rfl, query, .inl hstage⟩
  | waiting reg deadline =>
    obtain ⟨query, hforwarded⟩ := hR.waiting id before reg deadline hbefore hstage
    exact ⟨reg, rfl, query, .inr hforwarded⟩
  | _ => simp [Task.listens, hstage] at hlistens

/-! ### Distinct queries -/

/-- What holds as long as no ID is repeated. -/
structure Matched (s : ForwarderState) : Prop where
  distinct : ∀ i j task task' reg, s.tasks i = some task → s.tasks j = some task' →
    task.MayForward reg → task'.MayForward reg → i = j
  receiving : ∀ p d, s.receiver = some (p, d) → ∃ id task f, d.re = some id ∧ s.tasks id = some task ∧
    task.forwarded = some f ∧ d.source = f.1.upstreamIp ∧ xidOf d.payload = some f.1.xid
  heard : ∀ id task d, s.tasks id = some task → task.rx = .value d → d.re = some id
  paired : Paired s

theorem initial_matched : Matched .initial where
  distinct i j task task' reg htask := absurd htask (by simp [ForwarderState.initial])
  receiving p d hreceiver := absurd hreceiver (by simp [ForwarderState.initial])
  heard id task d htask := absurd htask (by simp [ForwarderState.initial])
  paired :=
    { answered := fun id task d htask => absurd htask (by simp [ForwarderState.initial])
      cached := fun key entry hget => absurd hget (by simp [ForwarderState.initial]) }

/-- The datagram in hand, once its sender is checked, is a reply to the task it goes to. -/
theorem Matched.delivered (h : Matched s) (hR : Registered s) {p : PendingQuery} {d : Datagram}
    (hreceiver : s.receiver = some (p, d)) (hsource : d.source = p.upstreamIp)
    (htask : s.tasks p.tx = some before) (hlistens : before.listens = true) : d.re = some p.tx := by
  obtain ⟨id, task, ⟨f, query⟩, hre, hid, hforwarded, hfrom, hxid⟩ := h.receiving p d hreceiver
  obtain ⟨reg, hreg, hmay⟩ := hR.mayForward htask hlistens
  obtain ⟨hxid', hip⟩ := (hR.receiving p d hreceiver).2 before reg htask hreg
  have hsame : f = reg := by
    obtain ⟨fx, fip⟩ := f
    obtain ⟨rx, rip⟩ := reg
    obtain rfl : fx = rx := Option.some.inj (hxid.symm.trans hxid')
    obtain rfl : fip = rip := (hfrom.symm.trans hsource).trans hip.symm
    rfl
  obtain rfl := h.distinct id p.tx task before reg hid htask ⟨query, .inr (hsame ▸ hforwarded)⟩ hmay
  exact hre

theorem matched_distinct (h : Matched s) (hun : Unrepeated s e) (hstep : (forwarder dns).step s e = some t) :
    ∀ i j task task' reg, t.tasks i = some task → t.tasks j = some task' →
      task.MayForward reg → task'.MayForward reg → i = j := by
  intro i j task task' reg hi hj hmay hmay'
  have hback : ∀ {k after}, t.tasks k = some after → after.MayForward reg →
      (∃ before, s.tasks k = some before ∧ before.MayForward reg) ∨ Registers s e k reg := by
    intro k after hk hmay
    rcases forwarder_turn hstep hk with ⟨-, hfresh⟩ | ⟨before, hbefore, hturn⟩
    · obtain ⟨query, hsending | hforwarded⟩ := hmay
      · exact absurd (hfresh.reg.symm.trans (congrArg Stage.reg hsending)) (by simp [Stage.reg])
      · exact absurd (hfresh.forwarded.symm.trans hforwarded) (by simp)
    · rcases hturn.mayForward hmay with hmay | hregisters
      · exact .inl ⟨before, hbefore, hmay⟩
      · exact .inr hregisters
  rcases hback hi hmay with ⟨b, hb, hbmay⟩ | hregisters <;>
    rcases hback hj hmay' with ⟨b', hb', hbmay'⟩ | hregisters'
  · exact h.distinct i j b b' reg hb hb' hbmay hbmay'
  · by_contra hne
    exact hun j reg hregisters' i b hne hb hbmay
  · by_contra hne
    exact hun i reg hregisters j b' (Ne.symm hne) hb' hbmay'
  · exact (hregisters.unique hregisters').1

theorem matched_receiving (h : Matched s) (hS : Sourced s) (hhonest : Honest dns s e)
    (hstep : (forwarder dns).step s e = some t) :
    ∀ p d, t.receiver = some (p, d) → ∃ id task f, d.re = some id ∧ t.tasks id = some task ∧
      task.forwarded = some f ∧ d.source = f.1.upstreamIp ∧ xidOf d.payload = some f.1.xid := by
  intro p d hreceiver
  have hsent : ∃ id task f, d.re = some id ∧ s.tasks id = some task ∧ task.forwarded = some f ∧
      d.source = f.1.upstreamIp ∧ xidOf d.payload = some f.1.xid := by
    rcases forwarder_receiver hstep hreceiver with hbefore | rfl
    · exact h.receiving p d hbefore
    · obtain ⟨id, hid, task, htask, f, hf, hsource, hxid, -⟩ := hhonest
      exact ⟨id, task, f, hid, htask, hf, hsource, hxid⟩
  obtain ⟨id, task, f, hre, htask, hforwarded, hrest⟩ := hsent
  obtain ⟨after, hafter, hturn⟩ := forwarder_persists hstep htask
  exact ⟨id, after, f, hre, hafter, (hturn.keeps (hS id task htask)).2.2.1 f hforwarded, hrest⟩

theorem matched_heard (h : Matched s) (hR : Registered s) (hstep : (forwarder dns).step s e = some t) :
    ∀ id task d, t.tasks id = some task → task.rx = .value d → d.re = some id := by
  suffices hall : ∀ id task, t.tasks id = some task → ∀ d, task.rx = .value d → d.re = some id from
    fun id task d htask => hall id task htask d
  refine forwarder_tasks (Q := fun id task => ∀ d, task.rx = .value d → d.re = some id) hstep ?_ ?_
    fun id task htask d => h.heard id task d htask
  · intro i task hfresh d hvalue
    exact absurd (hfresh.rx.symm.trans hvalue) (by simp)
  · intro i before after hbefore hturn hheard d hvalue
    cases hturn with
    | loses =>
      rcases Task.put_rx before .closed with hrx | ⟨-, -, hrx⟩
      · exact hheard d (hrx.symm.trans hvalue)
      · exact absurd (hrx.symm.trans hvalue) (by simp)
    | @hears p d' hreceiver htx hsource =>
      rcases Task.put_rx before (.value d') with hrx | ⟨hlistens, -, hrx⟩
      · exact hheard d (hrx.symm.trans hvalue)
      · obtain rfl := Channel.value.inj (hrx.symm.trans hvalue)
        subst htx
        exact h.delivered hR hreceiver hsource hbefore hlistens
    | _ => exact hheard d hvalue

theorem matched_paired (h : Matched s) (hS : Sourced s) (hstep : (forwarder dns).step s e = some t) :
    Paired t where
  answered := by
    intro id after d hafter hanswer
    rcases forwarder_turn hstep hafter with ⟨-, hfresh⟩ | ⟨before, hbefore, hturn⟩
    · exact absurd (hfresh.answer.symm.trans hanswer) (by simp)
    · have hheard : ∀ d, before.answer = some d → d.re = some id :=
        fun d => h.paired.answered id before d hbefore
      cases hturn with
      | loses => exact hheard d (by simpa using hanswer)
      | hears => exact hheard d (by simpa using hanswer)
      | answers _ hrx =>
        obtain rfl := Option.some.inj hanswer
        exact h.heard id before _ hbefore hrx
      | _ => exact hheard d hanswer
  cached := by
    intro key entry hget
    have hsource : ∃ id task d, s.tasks id = some task ∧ task.cacheKey = key ∧ task.answer = some d ∧
        d.re = some id ∧ withXidOf task.query d.payload = some entry.response := by
      rcases forwarder_cache hstep hget with hget | ⟨id, task, htask, hstage, hkey⟩
      · exact h.paired.cached key entry hget
      · obtain ⟨d, hanswer, hresponse⟩ := (hS id task htask).caching _ hstage
        exact ⟨id, task, d, htask, hkey, hanswer, h.paired.answered id task d htask hanswer, hresponse⟩
    obtain ⟨id, task, d, htask, hkey, hanswer, hre, hresponse⟩ := hsource
    obtain ⟨after, hafter, hturn⟩ := forwarder_persists hstep htask
    obtain ⟨hquery, hcacheKey, -, hsame⟩ := hturn.keeps (hS id task htask)
    exact ⟨id, after, d, hafter, hcacheKey.trans hkey, hsame d hanswer, hre, hquery ▸ hresponse⟩

theorem matched_step (hR : Registered s) (hS : Sourced s) (h : Matched s)
    (hcond : Honest dns s e ∧ Unrepeated s e) (hstep : (forwarder dns).step s e = some t) : Matched t :=
  ⟨matched_distinct h hcond.2 hstep, matched_receiving h hS hcond.1 hstep, matched_heard h hR hstep,
    matched_paired h hS hstep⟩

/-! ### A repeated ID -/

/-- The task `id` waits under an ID under which `other` has forwarded its query, to the
same server, and the receiver is idle. -/
structure Primed (s : ForwarderState) (id other : TaskId) (reg : Registration) : Prop where
  ne : other ≠ id
  idle : s.receiver = none
  entry : s.pendingQueries.get reg.xid = some ⟨id, reg.upstreamIp⟩
  waits : ∃ task deadline, s.tasks id = some task ∧ task.stage = .waiting reg deadline
  forwarded : ∃ task query, s.tasks other = some task ∧ task.forwarded = some (reg, query)

theorem honest_of_ne (h : ∀ d, e ≠ .receive d) : Honest dns s e := by
  cases e with
  | receive d => exact absurd rfl (h d)
  | _ => trivial

/-- A reply is honest with all that follows from it. -/
theorem along_reply {d : Datagram} (h : Honest dns s (.receive d)) :
    (forwarder dns).Along (Honest dns) s [.receive d, .deliver, .act id .wake] := by
  refine System.along_cons.mpr fun _ _ => ⟨h, System.along_of_forall_mem fun e he s => honest_of_ne ?_⟩
  rcases List.mem_pair.mp he with rfl | rfl <;> simp

/-- The reply to the other query comes, and is taken for the answer. -/
theorem Primed.mispairs {other : TaskId} (h : Primed s id other reg) (hR : Registered s) (hS : Sourced s) :
    ∃ es u, (forwarder dns).run s es = some u ∧ (forwarder dns).Along (Honest dns) s es ∧ ¬ Paired u := by
  obtain ⟨task, deadline, htask, hstage⟩ := h.waits
  obtain ⟨sender, query, hsender, hforwarded⟩ := h.forwarded
  obtain ⟨hquery, hlen⟩ := (hS other sender hsender).forwarded reg query hforwarded
  obtain ⟨hquerylen, hxid⟩ := withXid_sent hlen hquery
  let d : Datagram := ⟨reg.upstreamIp, query, some other⟩
  obtain ⟨u, after, hrun, hafter, hanswer⟩ :=
    reply_answers dns hR hS h.idle h.entry htask hstage (d := d) rfl hquerylen hxid
  have hhonest : Honest dns s (.receive d) :=
    ⟨other, rfl, sender, hsender, (reg, query), hforwarded, rfl, hxid, rfl⟩
  refine ⟨_, u, hrun, along_reply hhonest, fun hpaired => h.ne ?_⟩
  exact Option.some.inj (hpaired.answered id after d hafter hanswer)

theorem Task.MayForward.forwards (h : before.MayForward reg) (dns : DnsParser)
    (htask : s.tasks id = some before) : ∃ es u after query, (forwarder dns).run s es = some u ∧
      (∀ e ∈ es, e = .act id (.sent true)) ∧ u.receiver = s.receiver ∧ u.pendingQueries = s.pendingQueries ∧
      u.tasks id = some after ∧ after.forwarded = some (reg, query) ∧ ∀ i, i ≠ id → u.tasks i = s.tasks i := by
  obtain ⟨query, hsending | hforwarded⟩ := h
  · let after : Task := { before with
      stage := .waiting reg (s.now + upstreamTimeout), forwarded := some (reg, query) }
    refine ⟨[.act id (.sent true)], s.setTask id after, after, query, ?_, by simp, rfl, rfl,
      setTask_tasks_self s id after, rfl, fun i hi => setTask_tasks_of_ne s id after hi⟩
    exact System.run_one _ (sent_step dns htask hsending)
  · exact ⟨[], s, before, query, rfl, by simp, rfl, rfl, htask, hforwarded, fun _ _ => rfl⟩

theorem repeat_primes {other : TaskId} (h : Registers s e id reg) (hstep : (forwarder dns).step s e = some t)
    (hne : other ≠ id) (hother : s.tasks other = some before) (hmay : before.MayForward reg) :
    ∃ es u, (forwarder dns).run t es = some u ∧ (∀ e ∈ es, ∀ d, e ≠ .receive d) ∧ Primed u id other reg := by
  obtain ⟨task, query, -, -, hregister⟩ := registers_step dns h
  obtain rfl := Option.some.inj (hregister.symm.trans hstep)
  let t := { s with pendingQueries := s.pendingQueries.insert reg.xid ⟨id, reg.upstreamIp⟩ }.setTask id
    { task with stage := .sending reg query }
  -- the receiver finishes, the other task sends its query, then this one does
  obtain ⟨es₁, t₁, hrun₁, hes₁, hidle, hpending₁, htasks₁⟩ := idles dns t
  obtain ⟨task₁, htask₁, hstage₁, -⟩ := htasks₁ id _ (setTask_tasks_self _ id _)
  obtain ⟨other₁, hother₁, hotherstage, hotherforwarded⟩ :=
    htasks₁ other before ((setTask_tasks_of_ne _ id _ hne).trans hother)
  have hmay₁ : other₁.MayForward reg := by
    obtain ⟨q, hq⟩ := hmay
    exact ⟨q, hq.imp hotherstage.trans hotherforwarded.trans⟩
  obtain ⟨es₂, t₂, other₂, query₂, hrun₂, hes₂, hidle₂, hpending₂, hother₂, hforwarded₂, hrest₂⟩ :=
    hmay₁.forwards dns hother₁
  have htask₂ : t₂.tasks id = some task₁ := (hrest₂ id (Ne.symm hne)).trans htask₁
  let waiter : Task := { task₁ with
    stage := .waiting reg (t₂.now + upstreamTimeout), forwarded := some (reg, query) }
  refine ⟨es₁ ++ (es₂ ++ [.act id (.sent true)]), t₂.setTask id waiter,
    (System.run_append_eq_some _).mpr ⟨t₁, hrun₁, System.run_snoc _ hrun₂ (sent_step dns htask₂ hstage₁)⟩,
    fun e he d => ?_, hne, hidle₂.trans hidle, ?_, ⟨waiter, _, setTask_tasks_self t₂ id waiter, rfl⟩,
    ⟨other₂, query₂, (setTask_tasks_of_ne t₂ id waiter hne).trans hother₂, hforwarded₂⟩⟩
  · simp only [List.mem_append, List.mem_singleton] at he
    rcases he with he | he | rfl
    · simp [hes₁ e he]
    · simp [hes₂ e he]
    · simp
  · show t₂.pendingQueries.get reg.xid = some ⟨id, reg.upstreamIp⟩
    rw [hpending₂, hpending₁]
    exact HashMap.get_insert_self _ _ _

/-! ### Runs -/

/-- **Answers go to the question that was asked** in every run with an honest upstream in
which no registration repeats the ID and the server of another task's query; and where one
does, replies that are late but honest lead to an answer to another question. -/
theorem paired_while_unrepeated (dns : DnsParser) (es : List Event) :
    ((forwarder dns).Along (Honest dns) .initial es → (forwarder dns).Along Unrepeated .initial es →
      (forwarder dns).Always Paired .initial es) ∧
    ∀ s e t, (forwarder dns).run .initial es = some s → (forwarder dns).Along (Honest dns) .initial es →
      (forwarder dns).step s e = some t → ¬ Unrepeated s e →
      ∃ rest, (forwarder dns).Along (Honest dns) .initial (es ++ e :: rest) ∧
        ¬ (forwarder dns).Always Paired .initial (es ++ e :: rest) := by
  refine ⟨fun hhonest hun => ?_, fun s e t hs hhonest he hno => ?_⟩
  · have hall := System.always_of_along
      (P := fun s => (Registered s ∧ Sourced s) ∧ Matched s)
      (fun s e t hs hcond ht => ⟨⟨registered_step dns s e t hs.1.1 ht, sourced_step hs.1.1 hs.1.2 ht⟩,
        matched_step hs.1.1 hs.1.2 hs.2 hcond ht⟩)
      ⟨⟨initial_registered, initial_sourced⟩, initial_matched⟩ (hhonest.and hun)
    exact hall.mono fun s hs => hs.2.paired
  · simp only [Unrepeated, not_forall, not_not] at hno
    obtain ⟨id, reg, hregisters, other, task, hne, htask, hmay⟩ := hno
    obtain ⟨es₁, u, hrun₁, hes₁, hprimed⟩ := repeat_primes hregisters he hne htask hmay
    have hu : (forwarder dns).run .initial (es ++ e :: es₁) = some u :=
      (System.run_append_eq_some _).mpr ⟨s, hs, System.run_step _ he hrun₁⟩
    obtain ⟨hR, hS⟩ := reachable_sourced hu
    obtain ⟨es₂, v, hrun₂, hhonest₂, hmispaired⟩ := hprimed.mispairs hR hS
    have hquiet : (forwarder dns).Along (Honest dns) s (e :: es₁) := by
      refine System.along_of_forall_mem fun e' he' s' => honest_of_ne fun d => ?_
      rcases List.mem_cons.mp he' with rfl | he'
      · cases hregisters
        simp
      · exact hes₁ e' he' d
    refine ⟨es₁ ++ es₂, ?_, fun halways => hmispaired ?_⟩
    · have hlong := (hhonest.append hs hquiet).append hu hhonest₂
      simpa using hlong
    · refine halways.last ?_
      have hv := (System.run_append_eq_some _).mpr ⟨u, hu, hrun₂⟩
      simpa using hv

/-- A query is forwarded under the ID 7 and not answered in time; the next query draws the
same ID, and the answer to the first one comes. -/
def late : List Event :=
  Plain.asked 0 0x61 ++ [.tick upstreamTimeout, .act 0 .wake, .act 0 .cleanup] ++ Plain.asked 1 0x62 ++
    [.receive ⟨fallbackDnsServer, Plain.reply 7 0x61, some 0⟩, .deliver, .act 1 .wake, .act 1 .insert]

/-- The second query gets the answer to the first one, and it is cached under its key. -/
theorem late_reply_mispaired : ¬ ∀ es, (forwarder Plain.dnsParser).Along (Honest Plain.dnsParser) .initial es →
    (forwarder Plain.dnsParser).Always Paired .initial es := by
  intro h
  have hhonest : (forwarder Plain.dnsParser).Along (Honest Plain.dnsParser) .initial late :=
    (System.along_of_check (r := fun s e => decide (Honest Plain.dnsParser s e)) (by decide +kernel)).mono
      fun s e he => of_decide_eq_true he
  have hrun : ((forwarder Plain.dnsParser).run .initial late).map (fun s =>
      ((s.tasks 1).bind Task.answer).map Datagram.re) = some (some (some 0)) := by
    decide +kernel
  obtain ⟨s, hs, hre⟩ := Option.map_eq_some_iff.mp hrun
  obtain ⟨d, hd, hre⟩ := Option.map_eq_some_iff.mp hre
  obtain ⟨task, htask, hanswer⟩ := Option.bind_eq_some_iff.mp hd
  exact absurd (hre.symm.trans (((h late hhonest).last hs).answered 1 task d htask hanswer)) (by decide)

end RustyRouter.Dns
