import RustyRouter.Dns.Transparency

/-! Whom the forwarder asks.

A task takes its upstream server from the lease as it finds it, and keeps to it; the map
holds the same address, so that only this server can answer. Where every list of servers
that the lease ever has is as `P` says, each query goes to a server picked from such a
list, and each reply comes from one, also if it was cached on the way. -/
namespace RustyRouter.Dns
open Store Transition

variable {dns : DnsParser} {s t : ForwarderState} {e : Event} {es : List Event} {id : TaskId} {task before after : Task}
  {act : Act} {P : List Ipv4Addr → Prop} {ip : Ipv4Addr}

/-! ### Who acts -/

theorem forwarder_acts (h : (forwarder dns).step s (.act id act) = some t) :
    ∃ task, s.tasks id = some task ∧ TaskStep dns s id task act t := by
  simp only [forwarder, Option.bind_eq_some_iff] at h
  obtain ⟨task, htask, h⟩ := h
  exact ⟨task, htask, taskStep_cases h⟩

/-- A task that does not act is left alone. -/
theorem forwarder_alone (h : (forwarder dns).step s e = some t) (hne : ∀ act, e ≠ .act id act)
    (hbefore : s.tasks id = some before) (hafter : t.tasks id = some after) : LeftAlone before after := by
  have hsame : s.tasks id = some after → LeftAlone before after := by
    intro hsafter
    rw [Option.some.inj (hbefore.symm.trans hsafter)]
    exact .refl after
  have htasks : t.tasks = s.tasks → LeftAlone before after := fun htasks => hsame (htasks ▸ hafter)
  have hput : ∀ tx channel, (s.put tx channel).tasks id = some after → LeftAlone before after := by
    intro tx channel hput
    obtain ⟨before', hbefore', hleft⟩ := put_leftAlone hput
    rwa [Option.some.inj (hbefore.symm.trans hbefore')]
  cases e with
  | query i bytes =>
    simp only [forwarder, Option.ite_none_right_eq_some, Option.some.injEq, Option.isNone_iff_eq_none] at h
    rw [← h.2] at hafter
    rcases spawn_tasks hafter with ⟨rfl, -⟩ | hsafter
    · exact absurd (h.1.symm.trans hbefore) (by simp)
    · exact hsame hsafter
  | act i act =>
    simp only [forwarder, Option.bind_eq_some_iff] at h
    obtain ⟨task, htask, h⟩ := h
    have hother : id ≠ i := by
      rintro rfl
      exact hne act rfl
    obtain ⟨before', hbefore', hleft⟩ := taskStep_leftAlone htask h hother hafter
    rwa [Option.some.inj (hbefore.symm.trans hbefore')]
  | receive d =>
    simp only [forwarder, Option.ite_none_right_eq_some, Option.some.injEq] at h
    exact htasks (by rw [← h.2, receive_tasks])
  | deliver =>
    simp only [forwarder, Option.map_eq_some_iff] at h
    obtain ⟨hand, -, rfl⟩ := h
    exact hput _ _ hafter
  | tick now =>
    simp only [forwarder, Option.ite_none_right_eq_some, Option.some.injEq] at h
    exact htasks (by rw [← h.2])
  | lease dnsServers => exact htasks (by rw [← Option.some.inj h])
  | prune => exact htasks (by rw [← Option.some.inj h]; rfl)

/-! ### The clock and the servers -/

theorem receive_setting (s : ForwarderState) (d : Datagram) :
    (s.receive d).now = s.now ∧ (s.receive d).dnsServers = s.dnsServers := by
  unfold ForwarderState.receive
  split
  · exact ⟨rfl, rfl⟩
  · split
    · exact ⟨rfl, rfl⟩
    · split <;> exact ⟨rfl, rfl⟩

theorem TaskStep.setting (h : TaskStep dns s id task act t) : t.now = s.now ∧ t.dnsServers = s.dnsServers := by
  cases h with
  | cleans =>
    obtain ⟨tasks, hremoved⟩ := removePending_frame s id task _
    rw [hremoved]
    exact ⟨rfl, rfl⟩
  | _ => exact ⟨rfl, rfl⟩

/-- Only the clock moves the clock, and only the DHCP client sets the servers. -/
theorem forwarder_setting (h : (forwarder dns).step s e = some t) :
    (t.now = s.now ∨ e = .tick t.now ∧ s.now ≤ t.now) ∧ (t.dnsServers = s.dnsServers ∨ e = .lease t.dnsServers) := by
  have hkeeps : t.now = s.now ∧ t.dnsServers = s.dnsServers →
      (t.now = s.now ∨ e = .tick t.now ∧ s.now ≤ t.now) ∧ (t.dnsServers = s.dnsServers ∨ e = .lease t.dnsServers) :=
    fun hkeeps => ⟨.inl hkeeps.1, .inl hkeeps.2⟩
  cases e with
  | tick now =>
    simp only [forwarder, Option.ite_none_right_eq_some, Option.some.injEq] at h
    rw [← h.2]
    exact ⟨.inr ⟨rfl, h.1⟩, .inl rfl⟩
  | lease dnsServers =>
    rw [← Option.some.inj h]
    exact ⟨.inl rfl, .inr rfl⟩
  | query i bytes =>
    simp only [forwarder, Option.ite_none_right_eq_some, Option.some.injEq] at h
    rw [← h.2] at hkeeps ⊢
    refine hkeeps ?_
    simp only [ForwarderState.spawn]
    split <;> exact ⟨rfl, rfl⟩
  | act i act =>
    obtain ⟨task, -, hstep⟩ := forwarder_acts h
    exact hkeeps hstep.setting
  | receive d =>
    simp only [forwarder, Option.ite_none_right_eq_some, Option.some.injEq] at h
    rw [← h.2] at hkeeps ⊢
    exact hkeeps (receive_setting s d)
  | deliver =>
    simp only [forwarder, Option.map_eq_some_iff] at h
    obtain ⟨hand, -, rfl⟩ := h
    obtain ⟨tasks, hdelivered⟩ := deliver_frame s hand.1 hand.2
    rw [hdelivered] at hkeeps ⊢
    exact hkeeps ⟨rfl, rfl⟩
  | prune =>
    rw [← Option.some.inj h] at hkeeps ⊢
    exact hkeeps ⟨rfl, rfl⟩

/-! ### The server of a task -/

/-- It is the one to ask under a lease with these servers. -/
def Picked (P : List Ipv4Addr → Prop) (ip : Ipv4Addr) : Prop := ∃ servers, P servers ∧ getUpstreamDns servers = ip

/-- The servers a task asks, or has asked. -/
structure Task.Asks (P : List Ipv4Addr → Prop) (task : Task) : Prop where
  register : ∀ upstreamIp, task.stage = .register upstreamIp → Picked P upstreamIp
  reg : ∀ reg, task.stage.reg = some reg → Picked P reg.upstreamIp
  forwarded : ∀ reg query, task.forwarded = some (reg, query) → Picked P reg.upstreamIp

/-- The lease has such servers, and the tasks ask such servers. -/
structure Asking (P : List Ipv4Addr → Prop) (s : ForwarderState) : Prop where
  servers : P s.dnsServers
  asks : ∀ id task, s.tasks id = some task → task.Asks P

theorem LeftAlone.asks (h : LeftAlone before after) (hbefore : before.Asks P) : after.Asks P := by
  constructor
  · rw [h.stage]
    exact hbefore.register
  · rw [h.stage]
    exact hbefore.reg
  · rw [h.forwarded]
    exact hbefore.forwarded

theorem Task.Fresh.asks (h : task.Fresh) : task.Asks P := by
  refine ⟨fun ip hregister => ?_, fun reg hreg => ?_, fun reg query hsome => ?_⟩
  · rcases h.stage with hstage | hstage <;> exact absurd (hstage.symm.trans hregister) (by simp)
  · exact absurd (h.reg.symm.trans hreg) (by simp)
  · exact absurd (h.forwarded.symm.trans hsome) (by simp)

/-- Without a server in the stage it comes to, only what it has asked matters. -/
theorem Task.Asks.leaves (h : task.Asks P) (hregister : ∀ upstreamIp, after.stage ≠ .register upstreamIp)
    (hreg : after.stage.reg = none) (hforwarded : after.forwarded = task.forwarded) : after.Asks P := by
  refine ⟨fun ip hip => absurd hip (hregister ip), fun reg hsome => ?_, ?_⟩
  · exact absurd (hreg.symm.trans hsome) (by simp)
  · rw [hforwarded]
    exact h.forwarded

/-- With a registration it had, or has made for its server. -/
theorem Task.Asks.keeps (h : task.Asks P) {reg : Registration} (hpicked : Picked P reg.upstreamIp)
    (hreg : after.stage.reg = some reg)
    (hforwarded : after.forwarded = task.forwarded ∨ ∃ query, after.forwarded = some (reg, query)) : after.Asks P := by
  refine ⟨fun ip hip => ?_, fun reg' hreg' => ?_, fun reg' query hsome => ?_⟩
  · rw [hip] at hreg
    exact absurd hreg (by simp [Stage.reg])
  · obtain rfl := Option.some.inj (hreg.symm.trans hreg')
    exact hpicked
  · rcases hforwarded with hsame | ⟨query', hquery'⟩
    · exact h.forwarded reg' query (hsame ▸ hsome)
    · obtain rfl := (Prod.mk.inj (Option.some.inj (hquery'.symm.trans hsome))).1
      exact hpicked

/-! ### One step -/

/-- The task that acts asks the server of the lease, or the one it asked before. -/
theorem TaskStep.asks (h : TaskStep dns s id task act t) (hs : P s.dnsServers) (htask : task.Asks P)
    (hafter : t.tasks id = some after) : after.Asks P := by
  cases h with
  | cleans hstage =>
    rw [removePending_tasks_self] at hafter
    obtain rfl := Option.some.inj hafter
    exact htask.leaves (by simp) (by simp [Stage.reg]) (by simp)
  | upstream hstage =>
    rw [setTask_tasks_self] at hafter
    obtain rfl := Option.some.inj hafter
    refine ⟨fun ip hip => ⟨s.dnsServers, hs, Stage.register.inj hip⟩, fun reg hreg => ?_, htask.forwarded⟩
    exact absurd hreg (by simp [Stage.reg])
  | registers hstage =>
    rw [setTask_tasks_self] at hafter
    obtain rfl := Option.some.inj hafter
    exact htask.keeps (htask.register _ hstage) rfl (.inl rfl)
  | sends hstage =>
    rw [setTask_tasks_self] at hafter
    obtain rfl := Option.some.inj hafter
    exact htask.keeps (htask.reg _ (congrArg Stage.reg hstage)) rfl (.inr ⟨_, rfl⟩)
  | sendFails hstage | givesUp hstage =>
    rw [setTask_tasks_self] at hafter
    obtain rfl := Option.some.inj hafter
    exact htask.keeps (htask.reg _ (congrArg Stage.reg hstage)) rfl (.inl rfl)
  | _ =>
    rw [setTask_tasks_self] at hafter
    obtain rfl := Option.some.inj hafter
    exact htask.leaves (by simp) rfl rfl

theorem asking_step (hs : Asking P s) (he : ∀ servers, e = .lease servers → P servers)
    (h : (forwarder dns).step s e = some t) : Asking P t := by
  constructor
  · rcases (forwarder_setting h).2 with hsame | hlease
    · rw [hsame]
      exact hs.servers
    · exact he _ hlease
  · intro id after hafter
    rcases forwarder_turn h hafter with ⟨-, hfresh⟩ | ⟨before, hbefore, -⟩
    · exact hfresh.asks
    · by_cases hact : ∃ act, e = .act id act
      · obtain ⟨act, rfl⟩ := hact
        obtain ⟨task, htask, hstep⟩ := forwarder_acts h
        exact hstep.asks hs.servers (hs.asks id task htask) hafter
      · have halone := forwarder_alone h (fun act hact' => hact ⟨act, hact'⟩) hbefore hafter
        exact halone.asks (hs.asks id before hbefore)

/-! ### Whole runs -/

theorem Arrived.received {query : List UInt8} {upstreamIp : Ipv4Addr} {d : Datagram}
    (h : Arrived dns es id query upstreamIp d) : .receive d ∈ es := by
  obtain ⟨before, _, _, _, hstart, -⟩ := h
  exact hstart.subset (List.mem_append_right _ (List.mem_singleton_self _))

section Runs
variable (hempty : P []) (hlease : ∀ servers, .lease servers ∈ es → P servers)
include hempty hlease

theorem asking_run (h : (forwarder dns).run .initial es = some s) : Asking P s := by
  have hinitial : Asking P .initial := ⟨hempty, fun id task htask => absurd htask (by simp [ForwarderState.initial])⟩
  have hrun := (forwarder dns).run_history (I := fun es s => (∀ servers, .lease servers ∈ es → P servers) → Asking P s)
    (fun _ => hinitial) (fun before u e v _ ih hstep hmem => ?_) h
  · exact hrun hlease
  · refine asking_step (ih fun servers hservers => hmem servers ?_) (fun servers he => hmem servers ?_) hstep
    · exact List.mem_append_left _ hservers
    · exact List.mem_append_right _ (by simp [he])

/-- A datagram that came in for a query is from the server that it was to go to. -/
theorem Arrived.picked {query : List UInt8} {upstreamIp : Ipv4Addr} {d : Datagram}
    (h : Arrived dns es id query upstreamIp d) : Picked P upstreamIp := by
  obtain ⟨before, u, task, reg, hstart, hrun, htask, -, hreg, rfl, -⟩ := h
  have hbefore : ∀ servers, .lease servers ∈ before → P servers :=
    fun servers hmem => hlease servers (hstart.subset (List.mem_append_left _ hmem))
  exact ((asking_run hempty hbefore hrun).asks id task htask).reg reg hreg

/-- What a client is answered came in, and from such a server. -/
theorem reply_picked (h : (forwarder dns).run .initial es = some s) (htask : s.tasks id = some task)
    {reply : List UInt8} (hstage : task.stage = .done (some reply)) :
    ∃ d, .receive d ∈ es ∧ Picked P d.source ∧ withXidOf task.query d.payload = some reply := by
  obtain ⟨origin, query, d, harrived, -, hreply, -⟩ := (traced_run h).replied id task reply htask hstage
  exact ⟨d, harrived.received, harrived.picked hempty hlease, hreply⟩

end Runs

end RustyRouter.Dns
