import Mathlib.Data.UInt
import RustyRouter.Dns.Steps
import RustyRouter.Store.Expiring

/-! The response cache.

`cacheOps` is the cache on its own: its two operations and the periodic cleanup, at clock
readings that do not go back. A response is stored only if it is worth it (`Cacheable`),
for the smallest of its answers' times to live, and neither a removal on the way of a
lookup nor a cleanup is ever noticed. So a lookup finds precisely the last response that
was stored under its key, as long as that is fresh (`lookup_fresh`). The cache of the
forwarder is such a cache: its steps do such operations on it (`forwarder_operates`). -/
namespace RustyRouter.Dns
open Store Transition

/-! ### What is stored, and for how long -/

/-- Long enough, parsed, and without an answer that must not be kept. -/
def Cacheable (dns : DnsParser) (response : List UInt8) : Prop :=
  dnsHeaderSize ≤ response.length ∧ ∃ packet, dns.parse response = some packet ∧ 0 ∉ packet.answerTtls

/-- At `now`, a response stored at `since` is within an hour and within the times to live
of all its answers, or within the default where it has none. -/
def Fresh (dns : DnsParser) (response : List UInt8) (since now : Nat) : Prop :=
  now < since + Duration.fromSecs 3600 ∧
    ∀ packet, dns.parse response = some packet →
      (∀ ttl ∈ packet.answerTtls, now < since + Duration.fromSecs ttl.toNat) ∧
      (packet.answerTtls = [] → now < since + Duration.fromSecs 30)

/-- The entry a response is stored as. -/
def cacheEntry (dns : DnsParser) (now : Nat) (response : List UInt8) : Option CacheEntry :=
  if response.length < dnsHeaderSize then none
  else
    match dns.parse response with
    | none => none
    | some packet =>
      let ttl := packet.answerTtls.min?.getD defaultTtlSecs
      if ttl = 0 then none
      else some ⟨response, now + Duration.fromSecs (min maxTtlSecs ttl).toNat⟩

variable {dns : DnsParser} {now later : Nat} {key response : List UInt8} {cache : HashMap (List UInt8) CacheEntry}

theorem insertCache_eq : insertCache dns now key response cache =
    match cacheEntry dns now response with
    | some entry => cache.insert key entry
    | none => cache := by
  unfold insertCache cacheEntry
  split
  · rfl
  · cases dns.parse response with
    | none => rfl
    | some packet =>
      dsimp only
      split <;> rfl

/-- The time to live that counts is the smallest one, and at most an hour. -/
theorem lt_ttl_iff (ttls : List UInt32) (since t : Nat) :
    t < since + Duration.fromSecs (min maxTtlSecs (ttls.min?.getD defaultTtlSecs)).toNat ↔
      t < since + Duration.fromSecs 3600 ∧ (∀ ttl ∈ ttls, t < since + Duration.fromSecs ttl.toNat) ∧
        (ttls = [] → t < since + Duration.fromSecs 30) := by
  have hmin : ∀ ttl : UInt32, t < since + Duration.fromSecs (min maxTtlSecs ttl).toNat ↔
      t < since + Duration.fromSecs 3600 ∧ t < since + Duration.fromSecs ttl.toNat := by
    intro ttl
    rw [UInt32.toNat_min, show maxTtlSecs.toNat = 3600 from rfl]
    simp only [Duration.fromSecs]
    omega
  rw [hmin]
  refine and_congr_right fun _ => ?_
  cases hsmallest : ttls.min? with
  | none =>
    rw [List.min?_eq_none_iff] at hsmallest
    subst hsmallest
    simp [show defaultTtlSecs.toNat = 30 from rfl]
  | some smallest =>
    obtain ⟨hmem, hle⟩ := List.min?_eq_some_iff.mp hsmallest
    have hne : ttls ≠ [] := List.ne_nil_of_mem hmem
    simp only [Option.getD_some, hne, false_implies, and_true]
    refine ⟨fun h ttl httl => ?_, fun h => h smallest hmem⟩
    have := Duration.fromSecs_le_fromSecs.mpr (UInt32.le_iff_toNat_le.mp (hle ttl httl))
    omega

/-- The smallest time to live is zero precisely when one of them is. -/
theorem smallest_ttl_eq_zero_iff (ttls : List UInt32) : ttls.min?.getD defaultTtlSecs = 0 ↔ 0 ∈ ttls := by
  cases hsmallest : ttls.min? with
  | none =>
    rw [List.min?_eq_none_iff] at hsmallest
    subst hsmallest
    decide
  | some smallest =>
    obtain ⟨hmem, hle⟩ := List.min?_eq_some_iff.mp hsmallest
    rw [Option.getD_some]
    constructor
    · rintro rfl
      exact hmem
    · exact fun hzero => UInt32.le_zero_iff.mp (hle 0 hzero)

theorem cacheEntry_eq_none : cacheEntry dns now response = none ↔ ¬ Cacheable dns response := by
  unfold cacheEntry Cacheable
  split
  · rename_i hshort
    simp [Nat.not_le.mpr hshort]
  · rename_i hlong
    cases hparse : dns.parse response with
    | none => simp
    | some packet =>
      simp only [Option.some.injEq, exists_eq_left', Nat.not_lt.mp hlong, true_and, not_not]
      rw [← smallest_ttl_eq_zero_iff]
      split <;> simp_all

/-- What is stored is the response itself, and it is live as long as it is fresh. -/
theorem cacheEntry_spec {entry : CacheEntry} (h : cacheEntry dns now response = some entry) :
    entry.response = response ∧ ∀ t, t < entry.expiry ↔ Fresh dns response now t := by
  unfold cacheEntry at h
  split at h
  · exact absurd h (by simp)
  · cases hparse : dns.parse response with
    | none => simp [hparse] at h
    | some packet =>
      simp only [hparse] at h
      split at h
      · exact absurd h (by simp)
      · rw [← Option.some.inj h]
        refine ⟨rfl, fun t => ?_⟩
        simp only [Fresh, hparse, Option.some.injEq, forall_eq']
        exact lt_ttl_iff packet.answerTtls now t

/-! ### The cache on its own -/

inductive CacheOp where
  | insert (cacheKey response : List UInt8)
  | lookup (cacheKey : List UInt8)
  | cleanup

structure CacheEvent where
  now : Nat
  op : CacheOp

structure CacheState where
  cache : HashMap (List UInt8) CacheEntry
  clock : Nat

def CacheState.initial : CacheState := ⟨HashMap.empty, 0⟩

/-- What an operation leaves. -/
def cacheStep (dns : DnsParser) (e : CacheEvent) (cache : HashMap (List UInt8) CacheEntry) :
    HashMap (List UInt8) CacheEntry :=
  match e.op with
  | .insert cacheKey response => insertCache dns e.now cacheKey response cache
  | .lookup cacheKey => (lookupCache e.now cacheKey cache).1
  | .cleanup => cache.retain fun _ entry => decide (e.now < entry.expiry)

/-- Any operations, at clock readings that do not go back. -/
def cacheOps (dns : DnsParser) : System CacheState CacheEvent where
  step s e := if s.clock ≤ e.now then some ⟨cacheStep dns e s.cache, e.now⟩ else none

/-- The entry a lookup finds. -/
abbrev liveEntry (cache : HashMap (List UInt8) CacheEntry) (now : Nat) (key : List UInt8) : Option CacheEntry :=
  cache.live CacheEntry.expiry now key

theorem lookupCache_snd : (lookupCache now key cache).2 = (liveEntry cache now key).map CacheEntry.response := by
  unfold lookupCache liveEntry HashMap.live
  cases cache.get key with
  | none => rfl
  | some entry =>
    rw [Option.filter_some]
    by_cases hlt : now < entry.expiry
    · simp [hlt]
    · simp [hlt]

theorem live_lookupCache (hle : now ≤ later) (other : List UInt8) :
    liveEntry (lookupCache now key cache).1 later other = liveEntry cache later other := by
  unfold lookupCache
  cases hget : cache.get key with
  | none => rfl
  | some entry =>
    by_cases hlt : now < entry.expiry
    · simp only [hlt, if_true]
    · simp only [hlt, if_false]
      refine HashMap.live_remove_dead fun v hv => ?_
      obtain rfl := Option.some.inj (hget.symm.trans hv)
      omega

/-- The operation stores a response under `key`. -/
def Stores (dns : DnsParser) (key : List UInt8) (e : CacheEvent) (response : List UInt8) : Prop :=
  e.op = .insert key response ∧ Cacheable dns response

/-- The last response stored under `key` is this one, and was stored at `since`. -/
def LastStored (dns : DnsParser) (key : List UInt8) (es : List CacheEvent) (since : Nat)
    (response : List UInt8) : Prop :=
  ∃ before e after, es = before ++ e :: after ∧ e.now = since ∧ Stores dns key e response ∧
    ∀ e' ∈ after, ∀ other, ¬ Stores dns key e' other

theorem not_lastStored_nil {since : Nat} : ¬ LastStored dns key [] since response := by
  rintro ⟨before, e, after, heq, -⟩
  simp at heq

/-- One operation more. -/
theorem lastStored_snoc {es : List CacheEvent} {e : CacheEvent} {since : Nat} :
    LastStored dns key (es ++ [e]) since response ↔
      (Stores dns key e response ∧ e.now = since) ∨
        (LastStored dns key es since response ∧ ∀ other, ¬ Stores dns key e other) := by
  constructor
  · intro ⟨before, e₀, after, heq, hnow, hstores, hafter⟩
    rcases List.eq_nil_or_concat after with rfl | ⟨after', e', rfl⟩
    · obtain ⟨-, hlast⟩ := List.append_inj' heq rfl
      obtain rfl := List.singleton_inj.mp hlast
      exact .inl ⟨hstores, hnow⟩
    · rw [List.concat_eq_append, ← List.cons_append, ← List.append_assoc] at heq
      obtain ⟨rfl, hlast⟩ := List.append_inj' heq rfl
      obtain rfl := List.singleton_inj.mp hlast
      refine .inr ⟨⟨before, e₀, after', rfl, hnow, hstores, fun x hx => hafter x ?_⟩, hafter e ?_⟩
      · simp [hx]
      · simp
  · rintro (⟨hstores, hnow⟩ | ⟨⟨before, e₀, after, rfl, hnow, hstores, hafter⟩, hno⟩)
    · exact ⟨es, e, [], rfl, hnow, hstores, by simp⟩
    · refine ⟨before, e₀, after ++ [e], by simp, hnow, hstores, fun e' he' => ?_⟩
      rcases List.mem_append.mp he' with he' | he'
      · exact hafter e' he'
      · obtain rfl := List.mem_singleton.mp he'
        exact hno

/-! ### What one operation does -/

/-- An operation that stores nothing under `key` leaves what lookups find there. -/
theorem live_cacheStep {e : CacheEvent} (hno : ∀ other, ¬ Stores dns key e other) (hle : e.now ≤ later) :
    liveEntry (cacheStep dns e cache) later key = liveEntry cache later key := by
  unfold cacheStep
  cases hop : e.op with
  | insert cacheKey other =>
    simp only [insertCache_eq]
    cases hentry : cacheEntry dns e.now other with
    | none => rfl
    | some entry =>
      refine HashMap.live_insert_of_ne fun hkey => ?_
      have hcacheable : Cacheable dns other := by
        by_contra hnot
        exact absurd (hentry.symm.trans (cacheEntry_eq_none.mpr hnot)) (by simp)
      exact hno other ⟨hkey ▸ hop, hcacheable⟩
  | lookup cacheKey => exact live_lookupCache hle key
  | cleanup => exact HashMap.live_sweep hle

/-- What a lookup finds after a response was stored. -/
theorem live_stored {e : CacheEvent} {other : List UInt8} (hstores : Stores dns key e other) :
    (liveEntry (cacheStep dns e cache) later key).map CacheEntry.response = some response ↔
      response = other ∧ Fresh dns other e.now later := by
  obtain ⟨hop, hcacheable⟩ := hstores
  cases hentry : cacheEntry dns e.now other with
  | none => exact absurd hcacheable (cacheEntry_eq_none.mp hentry)
  | some entry =>
    obtain ⟨hresponse, hfresh⟩ := cacheEntry_spec hentry
    simp only [cacheStep, hop, insertCache_eq, hentry, Option.map_eq_some_iff, liveEntry,
      HashMap.live_insert_self, hfresh]
    constructor
    · rintro ⟨_, ⟨rfl, hlt⟩, rfl⟩
      exact ⟨hresponse, hlt⟩
    · rintro ⟨rfl, hlt⟩
      exact ⟨entry, ⟨rfl, hlt⟩, hresponse⟩

/-! ### Runs -/

/-- From now on a lookup finds the last response stored, while it is fresh. -/
def Remembers (dns : DnsParser) (es : List CacheEvent) (s : CacheState) : Prop :=
  ∀ key response later, s.clock ≤ later →
    ((liveEntry s.cache later key).map CacheEntry.response = some response ↔
      ∃ since, LastStored dns key es since response ∧ Fresh dns response since later)

theorem remembers_initial : Remembers dns [] .initial := by
  intro key response later _
  simp [CacheState.initial, liveEntry, not_lastStored_nil]

theorem remembers_step {es : List CacheEvent} {s s' : CacheState} {e : CacheEvent} (h : Remembers dns es s)
    (hstep : (cacheOps dns).step s e = some s') : Remembers dns (es ++ [e]) s' := by
  simp only [cacheOps, Option.ite_none_right_eq_some, Option.some.injEq] at hstep
  obtain ⟨hclock, rfl⟩ := hstep
  intro key response later hle
  by_cases hstores : ∃ other, Stores dns key e other
  · obtain ⟨other, hstores⟩ := hstores
    rw [live_stored hstores]
    simp only [lastStored_snoc]
    constructor
    · rintro ⟨rfl, hfresh⟩
      exact ⟨e.now, .inl ⟨hstores, rfl⟩, hfresh⟩
    · rintro ⟨since, ⟨hsame, rfl⟩ | ⟨-, hno⟩, hfresh⟩
      · obtain ⟨-, rfl⟩ := CacheOp.insert.inj (hsame.1.symm.trans hstores.1)
        exact ⟨rfl, hfresh⟩
      · exact absurd hstores (hno other)
  · have hno : ∀ other, ¬ Stores dns key e other := fun other h => hstores ⟨other, h⟩
    rw [live_cacheStep hno hle, h key response later (Nat.le_trans hclock hle)]
    simp only [lastStored_snoc, hno, false_and, false_or, not_false_eq_true, implies_true, and_true]

theorem remembers_run {es : List CacheEvent} {s : CacheState}
    (h : (cacheOps dns).run .initial es = some s) : Remembers dns es s :=
  (cacheOps dns).run_history remembers_initial (fun _ _ _ _ _ hu hstep => remembers_step hu hstep) h

/-- **Cache freshness.** After any operations, a lookup returns precisely the last response
that was stored under its key, and only while it is fresh: within an hour, and within the
times to live of all its answers. What cannot be cached is never stored. -/
theorem lookup_fresh (dns : DnsParser) {es : List CacheEvent} {s : CacheState}
    (h : (cacheOps dns).run .initial es = some s) {now : Nat} (hle : s.clock ≤ now)
    (key response : List UInt8) :
    (lookupCache now key s.cache).2 = some response ↔
      ∃ since, LastStored dns key es since response ∧ Fresh dns response since now := by
  rw [lookupCache_snd]
  exact remembers_run h key response now hle

/-- A response that may be kept for a minute, looked up within it. -/
theorem lookup_fresh_plain :
    ∃ s, (cacheOps Plain.dnsParser).run .initial [⟨0, .insert [0x61] (Plain.reply 7 0x61)⟩] = some s ∧
      ((lookupCache (Duration.fromSecs 59) [0x61] s.cache).2 = some (Plain.reply 7 0x61) ↔
        ∃ since, LastStored Plain.dnsParser [0x61] [⟨0, .insert [0x61] (Plain.reply 7 0x61)⟩] since
          (Plain.reply 7 0x61) ∧ Fresh Plain.dnsParser (Plain.reply 7 0x61) since (Duration.fromSecs 59)) :=
  ⟨_, rfl, lookup_fresh Plain.dnsParser rfl (Nat.zero_le _) [0x61] (Plain.reply 7 0x61)⟩

/-! ### The cache of the forwarder -/

/-- What is put into a channel changes nothing but the task that listens. -/
theorem put_frame (s : ForwarderState) (tx : TaskId) (channel : Channel) :
    ∃ tasks, s.put tx channel = { s with tasks := tasks } := by
  unfold ForwarderState.put
  split
  · split
    · exact ⟨_, rfl⟩
    · exact ⟨s.tasks, rfl⟩
  · exact ⟨s.tasks, rfl⟩

theorem removePending_frame (s : ForwarderState) (id : TaskId) (task : Task) (xid : UInt16) :
    ∃ tasks, s.removePending id task xid =
      { s with pendingQueries := s.pendingQueries.remove xid, tasks := tasks } := by
  unfold ForwarderState.removePending
  cases s.pendingQueries.get xid with
  | none => exact ⟨_, rfl⟩
  | some p =>
    let removed := ({ s with pendingQueries := s.pendingQueries.remove xid } : ForwarderState).setTask id
      { task with stage := .done none }
    obtain ⟨tasks, hput⟩ := put_frame removed p.tx .closed
    exact ⟨tasks, hput⟩

theorem deliver_frame (s : ForwarderState) (p : PendingQuery) (d : Datagram) :
    ∃ tasks, s.deliver p d = { s with tasks := tasks, receiver := none } := by
  obtain ⟨tasks, hput⟩ := put_frame s p.tx (if d.source = p.upstreamIp then .value d else .closed)
  exact ⟨tasks, by rw [ForwarderState.deliver, hput]⟩

/-- The operation that a step of the task does. -/
def Task.cacheEvent (task : Task) (now : Nat) : Option CacheEvent :=
  match task.stage with
  | .lookup => some ⟨now, .lookup task.cacheKey⟩
  | .caching response => some ⟨now, .insert task.cacheKey response⟩
  | _ => none

/-- The operation that a step of the forwarder does. -/
def ForwarderState.cacheEvent (s : ForwarderState) : Event → Option CacheEvent
  | .act id _ => (s.tasks id).bind fun task => task.cacheEvent s.now
  | .prune => some ⟨s.now, .cleanup⟩
  | _ => none

/-- What a step of the forwarder does to the cache: nothing, or one operation. -/
inductive CacheMove (dns : DnsParser) (s : ForwarderState) :
    Option CacheEvent → HashMap (List UInt8) CacheEntry → Prop where
  | same : CacheMove dns s none s.cache
  | looksUp {id : TaskId} {task : Task} (htask : s.tasks id = some task) (hstage : task.stage = .lookup) :
      CacheMove dns s (some ⟨s.now, .lookup task.cacheKey⟩) (cacheStep dns ⟨s.now, .lookup task.cacheKey⟩ s.cache)
  | stores {id : TaskId} {task : Task} {response : List UInt8} (htask : s.tasks id = some task)
      (hstage : task.stage = .caching response) :
      CacheMove dns s (some ⟨s.now, .insert task.cacheKey response⟩)
        (cacheStep dns ⟨s.now, .insert task.cacheKey response⟩ s.cache)
  | cleans : CacheMove dns s (some ⟨s.now, .cleanup⟩) (cacheStep dns ⟨s.now, .cleanup⟩ s.cache)

variable {s t : ForwarderState} {id : TaskId} {task : Task} {act : Act}

/-- A step of a task sets its own record, and at most operates the cache; or it takes out
the entry that the task registered. -/
theorem taskStep_sets (htask : s.tasks id = some task) (h : s.taskStep dns id task act = some t) :
    (∃ (s' : ForwarderState) (task' : Task), t = s'.setTask id task' ∧ s'.tasks = s.tasks ∧ s'.now = s.now ∧
      CacheMove dns s (task.cacheEvent s.now) s'.cache) ∨
    (∃ reg, task.stage = .cleanup reg ∧ t = s.removePending id task reg.xid) := by
  unfold Task.cacheEvent
  cases taskStep_cases h with
  | misses hstage | hits hstage | hitPanics hstage =>
    rw [hstage]
    exact .inl ⟨_, _, rfl, rfl, rfl, .looksUp htask hstage⟩
  | inserts hstage =>
    rw [hstage]
    exact .inl ⟨_, _, rfl, rfl, rfl, .stores htask hstage⟩
  | cleans hstage => exact .inr ⟨_, hstage, rfl⟩
  | upstream hstage | refuses hstage | registers hstage | sends hstage | sendFails hstage | tooShort hstage
  | answerPanics hstage | answers hstage | givesUp hstage =>
    rw [hstage]
    exact .inl ⟨_, _, rfl, rfl, rfl, .same⟩

theorem taskStep_cacheMove (htask : s.tasks id = some task) (h : s.taskStep dns id task act = some t) :
    t.now = s.now ∧ CacheMove dns s (task.cacheEvent s.now) t.cache := by
  rcases taskStep_sets htask h with ⟨s', task', rfl, -, hnow, hmove⟩ | ⟨reg, hstage, rfl⟩
  · exact ⟨hnow, hmove⟩
  · obtain ⟨tasks, hremoved⟩ := removePending_frame s id task reg.xid
    rw [hremoved, Task.cacheEvent, hstage]
    exact ⟨rfl, .same⟩

theorem forwarder_cacheMove {e : Event} (h : (forwarder dns).step s e = some t) :
    s.now ≤ t.now ∧ CacheMove dns s (s.cacheEvent e) t.cache := by
  cases e with
  | tick now =>
    simp only [forwarder, Option.ite_none_right_eq_some, Option.some.injEq] at h
    rw [← h.2]
    exact ⟨h.1, .same⟩
  | lease dnsServers =>
    rw [← Option.some.inj h]
    exact ⟨Nat.le_refl _, .same⟩
  | query id bytes =>
    simp only [forwarder, Option.ite_none_right_eq_some, Option.some.injEq] at h
    rw [← h.2]
    simp only [ForwarderState.spawn]
    split <;> exact ⟨Nat.le_refl _, .same⟩
  | act id act =>
    simp only [forwarder, Option.bind_eq_some_iff] at h
    obtain ⟨task, htask, h⟩ := h
    obtain ⟨hnow, hmove⟩ := taskStep_cacheMove htask h
    refine ⟨Nat.le_of_eq hnow.symm, ?_⟩
    rw [ForwarderState.cacheEvent, htask]
    exact hmove
  | receive d =>
    simp only [forwarder, Option.ite_none_right_eq_some, Option.some.injEq] at h
    rw [← h.2]
    unfold ForwarderState.receive
    split
    · exact ⟨Nat.le_refl _, .same⟩
    · split
      · exact ⟨Nat.le_refl _, .same⟩
      · split <;> exact ⟨Nat.le_refl _, .same⟩
  | deliver =>
    simp only [forwarder, Option.map_eq_some_iff] at h
    obtain ⟨⟨p, d⟩, -, rfl⟩ := h
    obtain ⟨tasks, hdelivered⟩ := deliver_frame s p d
    rw [hdelivered]
    exact ⟨Nat.le_refl _, .same⟩
  | prune =>
    rw [← Option.some.inj h]
    exact ⟨Nat.le_refl _, .cleans⟩

/-- The operations of a run, in its order. -/
def operations (dns : DnsParser) (es : List Event) : List CacheEvent :=
  (forwarder dns).trace ForwarderState.cacheEvent .initial es

/-- The forwarder operates its cache, and at no time goes back. -/
theorem forwarder_operates {es : List Event} (h : (forwarder dns).run .initial es = some s) :
    ∃ c, (cacheOps dns).run .initial (operations dns es) = some c ∧ c.cache = s.cache ∧ c.clock ≤ s.now := by
  refine (forwarder dns).run_history (I := fun es s => ∃ c, (cacheOps dns).run .initial (operations dns es) = some c ∧
    c.cache = s.cache ∧ c.clock ≤ s.now) ⟨.initial, rfl, rfl, Nat.le_refl _⟩ ?_ h
  intro es s e t hrun ⟨c, hops, hcache, hclock⟩ hstep
  obtain ⟨hnow, hmove⟩ := forwarder_cacheMove hstep
  have hop : ∀ op, ∃ c', (cacheOps dns).run .initial (operations dns es ++ [⟨s.now, op⟩]) = some c' ∧
      c'.cache = cacheStep dns ⟨s.now, op⟩ s.cache ∧ c'.clock ≤ t.now := by
    intro op
    refine ⟨⟨cacheStep dns ⟨s.now, op⟩ s.cache, s.now⟩, (cacheOps dns).run_snoc hops ?_, rfl, hnow⟩
    rw [← hcache]
    exact if_pos hclock
  rw [operations, System.trace_snoc _ hrun hstep]
  generalize s.cacheEvent e = op at hmove
  generalize t.cache = after at hmove
  cases hmove with
  | same =>
    rw [Option.toList_none, List.append_nil]
    exact ⟨c, hops, hcache, Nat.le_trans hclock hnow⟩
  | looksUp => exact hop _
  | stores => exact hop _
  | cleans => exact hop _

/-- In every reachable state of the forwarder, a lookup returns the last response that the
run has stored under its key, and only while it is fresh. -/
theorem forwarder_lookup_fresh {es : List Event} (h : (forwarder dns).run .initial es = some s)
    (hle : s.now ≤ now) (key response : List UInt8) : (lookupCache now key s.cache).2 = some response ↔
      ∃ since, LastStored dns key (operations dns es) since response ∧ Fresh dns response since now := by
  obtain ⟨c, hops, hcache, hclock⟩ := forwarder_operates h
  rw [← hcache, lookupCache_snd]
  exact remembers_run hops key response now (Nat.le_trans hclock hle)

end RustyRouter.Dns
