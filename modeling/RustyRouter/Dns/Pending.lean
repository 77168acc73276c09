import RustyRouter.Dns.Registry

/-! The map of pending queries, entry by entry.

A registration checks that there is room and draws until it finds a free ID; everybody
else only removes entries. So the map never overflows, and no entry is ever replaced. The
owner of an entry is registered, and has not returned, because whatever ends a
`forward_query` goes through a removal: its own, or the receiver's (`pending_in_order`). -/
namespace RustyRouter.Dns
open Store Transition

/-- `forward_query` has returned, or was never called. -/
def Stage.Returned : Stage → Prop
  | .caching _ => True
  | .done _ => True
  | .panicked => True
  | _ => False

variable {dns : DnsParser} {s t : ForwarderState} {e : Event}

/-- A step keeps the map within its bound. -/
theorem forwarder_bounded (h : (forwarder dns).step s e = some t)
    (hs : s.pendingQueries.len ≤ maxPendingQueries) : t.pendingQueries.len ≤ maxPendingQueries := by
  obtain ⟨t', hmoves, hsame⟩ := forwarder_moves h
  rw [hsame.pendingQueries]
  cases hmoves with
  | registers _ _ _ hroom => exact Nat.le_trans (HashMap.len_insert_le s.pendingQueries _ _) hroom
  | cleans =>
    rw [removePending_pendingQueries]
    exact Nat.le_trans (HashMap.len_remove_le s.pendingQueries _) hs
  | takes => exact Nat.le_trans (HashMap.len_remove_le s.pendingQueries _) hs
  | delivers => simpa [ForwarderState.deliver] using hs
  | _ => exact hs

/-- A step replaces no entry by another. -/
theorem forwarder_no_overwrite (h : (forwarder dns).step s e = some t) {x : UInt16} {p q : PendingQuery}
    (hp : s.pendingQueries.get x = some p) (hq : t.pendingQueries.get x = some q) : q = p := by
  rcases forwarder_entry h hq with hget | hregisters
  · exact Option.some.inj (hget.symm.trans hp)
  · exact absurd (hregisters.free.symm.trans hp) (by simp)

/-- There are more IDs than a full map has entries. -/
theorem exists_free_xid {m : HashMap UInt16 PendingQuery} (hle : m.len ≤ maxPendingQueries) :
    ∃ xid, m.get xid = none := by
  have hnodup : ((List.range 65536).map UInt16.ofNat).Nodup := by
    refine List.Nodup.map_on (fun i hi j hj hij => ?_) List.nodup_range
    have := congrArg UInt16.toNat hij
    rw [UInt16.toNat_ofNat', UInt16.toNat_ofNat', Nat.mod_eq_of_lt (List.mem_range.mp hi),
      Nat.mod_eq_of_lt (List.mem_range.mp hj)] at this
    exact this
  obtain ⟨xid, -, hfree⟩ := m.exists_get_eq_none hnodup (by
    rw [List.length_map, List.length_range]
    exact Nat.lt_of_le_of_lt hle (by decide))
  exact ⟨xid, hfree⟩

theorem Stage.Returned.reg {stage : Stage} (h : stage.Returned) : stage.reg = none := by
  cases stage <;> first | rfl | exact h.elim

/-- A task without a registration has no entry. -/
theorem Registered.no_entry_of_reg (h : Registered s) {id : TaskId} {task : Task}
    (htask : s.tasks id = some task) (hreg : task.stage.reg = none) {x : UInt16} {p : PendingQuery}
    (hget : s.pendingQueries.get x = some p) : p.tx ≠ id := by
  intro hid
  have hx := h.owner hget (hid ▸ htask)
  exact absurd (hreg.symm.trans hx) (by simp)

/-- **The map of pending queries is in order** in every reachable state: it is within its
bound and has a free ID; the next step, whatever it is, replaces no entry; an entry belongs
to a task that is registered under its ID and has not returned, and different entries to
different tasks; and a task that has returned, on whatever path, has none. -/
theorem pending_in_order (dns : DnsParser) {es : List Event}
    (h : (forwarder dns).run .initial es = some s) :
    (s.pendingQueries.len ≤ maxPendingQueries ∧ ∃ xid, s.pendingQueries.get xid = none) ∧
    (∀ e t x p q, (forwarder dns).step s e = some t → s.pendingQueries.get x = some p →
      t.pendingQueries.get x = some q → q = p) ∧
    (∀ x p, s.pendingQueries.get x = some p → ∃ task, s.tasks p.tx = some task ∧
      task.stage.reg = some ⟨x, p.upstreamIp⟩ ∧ ¬ task.stage.Returned) ∧
    (∀ x y p q, s.pendingQueries.get x = some p → s.pendingQueries.get y = some q → x ≠ y → p.tx ≠ q.tx) ∧
    ∀ id task, s.tasks id = some task → task.stage.Returned →
      ∀ x p, s.pendingQueries.get x = some p → p.tx ≠ id := by
  have hR : Registered s := (forwarder dns).run_invariant (registered_step dns) initial_registered h
  have hbound : s.pendingQueries.len ≤ maxPendingQueries := by
    have hstep : ∀ (u : ForwarderState) e v, u.pendingQueries.len ≤ maxPendingQueries →
        (forwarder dns).step u e = some v → v.pendingQueries.len ≤ maxPendingQueries :=
      fun u e v hu hv => forwarder_bounded hv hu
    refine (forwarder dns).run_invariant (I := fun u => u.pendingQueries.len ≤ maxPendingQueries) hstep ?_ h
    exact Nat.zero_le _
  refine ⟨⟨hbound, exists_free_xid hbound⟩, ?_, ?_, ?_, ?_⟩
  · exact fun e t x p q hstep hp hq => forwarder_no_overwrite hstep hp hq
  · intro x p hget
    obtain ⟨task, htask, hreg, -⟩ := hR.entry x p hget
    refine ⟨task, htask, hreg, fun hreturned => ?_⟩
    exact absurd (hreturned.reg.symm.trans hreg) (by simp)
  · intro x y p q hp hq hne hsame
    obtain ⟨task, htask, hreg, -⟩ := hR.entry x p hp
    have hreg' := hR.owner hq (hsame ▸ htask)
    exact hne (congrArg Registration.xid (Option.some.inj (hreg.symm.trans hreg')))
  · exact fun id task htask hreturned x p hget => hR.no_entry_of_reg htask hreturned.reg hget

/-- While a query is pending. -/
theorem pending_in_order_asked :
    ∃ s, (forwarder Plain.dnsParser).run .initial (Plain.asked 0 0x61) = some s ∧
      s.pendingQueries.len ≤ maxPendingQueries ∧ ∃ xid, s.pendingQueries.get xid = none := by
  have hrun : ((forwarder Plain.dnsParser).run .initial (Plain.asked 0 0x61)).isSome = true := by
    decide +kernel
  obtain ⟨s, hs⟩ := Option.isSome_iff_exists.mp hrun
  exact ⟨s, hs, (pending_in_order Plain.dnsParser hs).1⟩

end RustyRouter.Dns
