import RustyRouter.Dns.Cache
import RustyRouter.Dns.Registry

/-! Where queries and responses come from.

What a task sends upstream is the client's query under the task's transaction ID, and what
it returns is the datagram that reached it under the client's ID; a response in the cache
was returned by a task with that cache key. -/
namespace RustyRouter.Dns
open Store Transition

structure Task.Sourced (task : Task) : Prop where
  sending : ∀ reg query, task.stage = .sending reg query →
    withXid reg.xid task.query = some query ∧ dnsHeaderSize ≤ task.query.length ∧ task.forwarded = none
  forwarded : ∀ reg query, task.forwarded = some (reg, query) →
    withXid reg.xid task.query = some query ∧ dnsHeaderSize ≤ task.query.length
  unanswered : task.stage.Early ∨ (∃ reg, task.stage.reg = some reg) → task.answer = none
  caching : ∀ response, task.stage = .caching response →
    ∃ d, task.answer = some d ∧ withXidOf task.query d.payload = some response

def Sourced (s : ForwarderState) : Prop := ∀ id task, s.tasks id = some task → task.Sourced

variable {dns : DnsParser} {s t : ForwarderState} {e : Event} {id : TaskId} {before after : Task}
  {reg : Registration}

theorem Task.Sourced.put (h : before.Sourced) (channel : Channel) : (before.put channel).Sourced := by
  constructor
  · simpa using h.sending
  · simpa using h.forwarded
  · simpa using h.unanswered
  · simpa using h.caching

theorem Turn.sourced (hR : Registered s) (hbefore : s.tasks id = some before) (hturn : Turn s e id before after)
    (h : before.Sourced) : after.Sourced := by
  cases hturn with
  | same => exact h
  | loses => exact h.put .closed
  | hears => exact h.put _
  | advances hfrom hto hearly hcaching =>
    refine ⟨fun reg query hstage => ?_, h.forwarded, fun hun => h.unanswered ?_, fun response hstage => ?_⟩
    · exact absurd (hto.symm.trans (congrArg Stage.reg hstage)) (by simp [Stage.reg])
    · rcases hun with hun | ⟨reg, hreg⟩
      · exact .inl (hearly hun)
      · exact absurd (hto.symm.trans hreg) (by simp)
    · exact absurd hstage (hcaching response)
  | registers _ hstage hlen hquery =>
    have hearly : before.stage.Early := by
      rw [hstage]
      trivial
    refine ⟨fun reg query hsending => ?_, h.forwarded, fun _ => h.unanswered (.inl hearly), by simp⟩
    obtain ⟨rfl, rfl⟩ := Stage.sending.inj hsending
    exact ⟨hquery, hlen, (hR.early id before hbefore hearly).2.1⟩
  | forwards hstage =>
    obtain ⟨hquery, hlen, -⟩ := h.sending _ _ hstage
    refine ⟨by simp, fun reg query hforwarded => ?_, fun _ => h.unanswered (.inr ⟨_, by rw [hstage]; rfl⟩), by simp⟩
    obtain ⟨rfl, rfl⟩ := Prod.mk.inj (Option.some.inj hforwarded)
    exact ⟨hquery, hlen⟩
  | fails hreg => exact ⟨by simp, h.forwarded, fun _ => h.unanswered (.inr ⟨_, hreg⟩), by simp⟩
  | @answers _ _ d response hstage hrx hresponse =>
    refine ⟨by simp, h.forwarded, fun hun => ?_, fun other hcaching => ?_⟩
    · rcases hun with hun | ⟨reg, hreg⟩
      · exact hun.elim
      · exact absurd hreg (by simp [Stage.reg])
    · obtain rfl := Stage.caching.inj hcaching
      exact ⟨d, rfl, hresponse⟩
  | ends hreg hto =>
    rcases hto with rfl | rfl <;>
      exact ⟨by simp, h.forwarded, fun _ => h.unanswered (.inr ⟨_, hreg⟩), by simp⟩

theorem sourced_step (hR : Registered s) (hs : Sourced s) (h : (forwarder dns).step s e = some t) :
    Sourced t := by
  refine forwarder_tasks (Q := fun _ task => task.Sourced) h (fun _ task hfresh => ?_)
    (fun id before after hbefore hturn hsourced => hturn.sourced hR hbefore hsourced) hs
  refine ⟨fun reg query hsending => ?_, fun reg query hforwarded => ?_, fun _ => hfresh.answer,
    fun response hcaching => ?_⟩
  · exact absurd (hfresh.reg.symm.trans (congrArg Stage.reg hsending)) (by simp [Stage.reg])
  · exact absurd (hfresh.forwarded.symm.trans hforwarded) (by simp)
  · rcases hfresh.stage with hstage | hstage <;> exact absurd (hstage.symm.trans hcaching) (by simp)

/-- The registry stays in order, and every task sourced, over every run. -/
theorem run_sourced {es : List Event} (hR : Registered s) (hS : Sourced s)
    (h : (forwarder dns).run s es = some t) : Registered t ∧ Sourced t :=
  (forwarder dns).run_invariant (I := fun s => Registered s ∧ Sourced s)
    (fun s e t hs ht => ⟨registered_step dns s e t hs.1 ht, sourced_step hs.1 hs.2 ht⟩) ⟨hR, hS⟩ h

theorem initial_sourced : Sourced .initial := by
  intro id task htask
  exact absurd htask (by simp [ForwarderState.initial])

theorem reachable_sourced {es : List Event} (h : (forwarder dns).run .initial es = some s) :
    Registered s ∧ Sourced s :=
  run_sourced initial_registered initial_sourced h

/-- The query of a task and its key never change, nor does what it has forwarded or got its
answer from. -/
theorem Turn.keeps (hturn : Turn s e id before after) (h : before.Sourced) :
    after.query = before.query ∧ after.cacheKey = before.cacheKey ∧
      (∀ f, before.forwarded = some f → after.forwarded = some f) ∧
      ∀ d, before.answer = some d → after.answer = some d := by
  cases hturn with
  | loses => simp
  | hears => simp
  | forwards hstage =>
    refine ⟨rfl, rfl, fun f hf => ?_, fun _ hd => hd⟩
    rw [(h.sending _ _ hstage).2.2] at hf
    exact absurd hf (by simp)
  | answers hstage =>
    refine ⟨rfl, rfl, fun _ hf => hf, fun d hd => ?_⟩
    rw [h.unanswered (.inr ⟨_, by rw [hstage]; rfl⟩)] at hd
    exact absurd hd (by simp)
  | _ => exact ⟨rfl, rfl, fun _ hf => hf, fun _ hd => hd⟩

/-- What is sent upstream is long enough and under the task's transaction ID. -/
theorem withXid_sent {xid : UInt16} {bytes query : List UInt8} (hlen : dnsHeaderSize ≤ bytes.length)
    (h : withXid xid bytes = some query) : dnsHeaderSize ≤ query.length ∧ xidOf query = some xid := by
  obtain ⟨rest, hrest, hlength, hxid⟩ := withXid_eq_some xid (le_trans (by decide) hlen)
  obtain rfl := Option.some.inj (hrest.symm.trans h)
  exact ⟨hlength ▸ hlen, hxid⟩

/-! ### The cache -/

theorem get_lookupCache {now : Nat} {cacheKey key : List UInt8} {cache : HashMap (List UInt8) CacheEntry}
    {entry : CacheEntry} (h : (lookupCache now cacheKey cache).1.get key = some entry) :
    cache.get key = some entry := by
  unfold lookupCache at h
  split at h
  · split at h
    · exact h
    · exact (HashMap.get_remove_eq_some.mp h).2
  · exact h

theorem get_insertCache {now : Nat} {cacheKey response key : List UInt8}
    {cache : HashMap (List UInt8) CacheEntry} {entry : CacheEntry}
    (h : (insertCache dns now cacheKey response cache).get key = some entry) :
    cache.get key = some entry ∨ cacheKey = key ∧ entry.response = response := by
  unfold insertCache at h
  split at h
  · exact .inl h
  · split at h
    · exact .inl h
    · simp only at h
      split at h
      · exact .inl h
      · rw [HashMap.get_insert] at h
        split at h
        · rename_i hkey
          exact .inr ⟨hkey.symm, by rw [← Option.some.inj h]⟩
        · exact .inl h

/-- What is cached was cached before, or is the response of a task with that key. -/
theorem forwarder_cache (h : (forwarder dns).step s e = some t) {key : List UInt8} {entry : CacheEntry}
    (hget : t.cache.get key = some entry) : s.cache.get key = some entry ∨
      ∃ id task, s.tasks id = some task ∧ task.stage = .caching entry.response ∧ task.cacheKey = key := by
  have hmove := (forwarder_cacheMove h).2
  generalize s.cacheEvent e = op at hmove
  generalize t.cache = after at hmove hget
  cases hmove with
  | same => exact .inl hget
  | looksUp => exact .inl (get_lookupCache hget)
  | @stores id task response htask hstage =>
    rcases get_insertCache hget with hget | ⟨hkey, hresponse⟩
    · exact .inl hget
    · exact .inr ⟨id, task, htask, hresponse ▸ hstage, hkey⟩
  | cleans =>
    simp only [cacheStep, HashMap.get_retain, Option.filter_eq_some_iff] at hget
    exact .inl hget.1

end RustyRouter.Dns
