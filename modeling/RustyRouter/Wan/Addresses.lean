import RustyRouter.Wan.Advertised
import RustyRouter.Wan.Dialogue
import RustyRouter.Wan.Masks

/-! The addresses of the WAN interface.

Four things that hold along the client's runs, from what the kernel does not get wrong to
what it does. Whatever it answers, an address is added only for an ACK that was
asked for (`addresses_answered`). If the interface keeps its index, no other interface is touched
(`others_untouched`). If deletions succeed as well, the interface never has two addresses
(`one_address`). And if every request succeeds, the interface has exactly the address of
the shared lease, and none without a lease, throughout a run precisely when no ACK with a
mask that is not contiguous is applied (`held_iff`): such an ACK fails before the old
address is deleted, and its lease is cleared without one. -/
namespace RustyRouter.Wan
open Lan (IpAddr)
open Transition

variable {c : DhcpClient} {answers : Answers} {wanInterface : String} {ip mask : Ipv4Addr}
  {table : List AddressEntry} {w : Nat} {s t : WiredState} {e : WiredEvent} {es : List WiredEvent}

/-! ### One request -/

theorem openWan_eq_ok {index prefixLen : Nat} : openWan answers wanInterface mask = .ok (index, prefixLen) ↔
    maskToPrefixLen mask = .ok prefixLen ∧ answers.newConnection = .ok () ∧
      answers.linkIndex wanInterface = .ok (some index) := by
  unfold openWan
  cases maskToPrefixLen mask with
  | error e => simp [bind, Except.bind]
  | ok n =>
    cases answers.newConnection with
    | error e => simp [bind, Except.bind, Except.mapError]
    | ok =>
      cases answers.linkIndex wanInterface with
      | error e => simp [bind, Except.bind, Except.mapError]
      | ok found =>
        cases found with
        | none => simp [bind, Except.bind, Except.mapError]
        | some i => simp [bind, Except.bind, Except.mapError, and_comm]

/-- What is not meant is not deleted. -/
theorem filter_deleteAddresses {meant q : AddressEntry → Bool} (h : ∀ entry, q entry = true → meant entry = false) :
    (deleteAddresses answers table meant).filter q = table.filter q := by
  obtain ⟨first, rest, htable, hdeleted, -⟩ := deleteAddresses_eq answers table meant
  rw [hdeleted, List.filter_append, List.filter_filter, htable, List.filter_append]
  congr 1
  apply List.filter_congr
  intro entry _
  cases hq : q entry with
  | true => simp [h entry hq]
  | false => rfl

theorem mem_of_mem_deleteAddresses {meant : AddressEntry → Bool} {entry : AddressEntry}
    (h : entry ∈ deleteAddresses answers table meant) : entry ∈ table := by
  obtain ⟨first, rest, htable, hdeleted, -⟩ := deleteAddresses_eq answers table meant
  rw [hdeleted, List.mem_append] at h
  rw [htable, List.mem_append]
  exact h.imp (fun h => (List.mem_filter.mp h).1) id

/-- What is meant is deleted, where the listing and the deletions succeed. -/
theorem filter_deleteAddresses_eq_nil {meant q : AddressEntry → Bool} (hlist : answers.listAddresses = .ok ())
    (h : ∀ entry ∈ table, q entry = true → meant entry = true ∧ answers.deletes entry = true) :
    (deleteAddresses answers table meant).filter q = [] := by
  obtain ⟨first, rest, htable, hdeleted, hrest⟩ := deleteAddresses_eq answers table meant
  rw [hdeleted, hrest hlist, List.append_nil, List.filter_filter, List.filter_eq_nil_iff]
  intro entry hentry hq
  rw [Bool.and_eq_true] at hq
  obtain ⟨hmeant, hdel⟩ := h entry (by simp [htable, hentry]) hq.1
  simp [hmeant, hdel] at hq

/-- `configure_wan` fails with the table at most flushed, or flushes it and adds one entry. -/
theorem configureWanOn_cases (answers : Answers) (wanInterface : String) (ip mask : Ipv4Addr)
    (table : List AddressEntry) :
    (∃ err, openWan answers wanInterface mask = .error err ∧
        configureWanOn answers wanInterface ip mask table = (table, .error err)) ∨
      ∃ index prefixLen, openWan answers wanInterface mask = .ok (index, prefixLen) ∧
        ((∃ err, configureWanOn answers wanInterface ip mask table =
            (deleteAddresses answers table fun entry => entry.index == index, .error err)) ∨
          answers.listAddresses = .ok () ∧ configureWanOn answers wanInterface ip mask table =
            ((deleteAddresses answers table fun entry => entry.index == index) ++
              [⟨index, [.v4 ip], prefixLen⟩], .ok ())) := by
  unfold configureWanOn
  cases hopen : openWan answers wanInterface mask with
  | error err => exact .inl ⟨err, rfl, rfl⟩
  | ok opened =>
    obtain ⟨index, prefixLen⟩ := opened
    refine .inr ⟨index, prefixLen, rfl, ?_⟩
    cases hlist : answers.listAddresses with
    | error e => exact .inl ⟨.rtNetlink e, rfl⟩
    | ok =>
      cases hup : answers.linkUp index with
      | error e => exact .inl ⟨.rtNetlink e, by simp [bind, Except.bind, hup]⟩
      | ok =>
        cases hadd : answers.addAddress index ip prefixLen with
        | error e => exact .inl ⟨.rtNetlink e, by simp [bind, Except.bind, hup, hadd]⟩
        | ok => exact .inr ⟨rfl, by simp [bind, Except.bind, hup, hadd]⟩

theorem deconfigureWanOn_cases (answers : Answers) (wanInterface : String) (ip mask : Ipv4Addr)
    (table : List AddressEntry) :
    (∃ err, openWan answers wanInterface mask = .error err) ∧
        (deconfigureWanOn answers wanInterface ip mask table).1 = table ∨
      ∃ index prefixLen, openWan answers wanInterface mask = .ok (index, prefixLen) ∧
        (deconfigureWanOn answers wanInterface ip mask table).1 =
          deleteAddresses answers table fun entry => entry.index == index && entry.locals.contains (.v4 ip) := by
  unfold deconfigureWanOn
  cases openWan answers wanInterface mask with
  | error err => exact .inl ⟨⟨err, rfl⟩, rfl⟩
  | ok opened => exact .inr ⟨opened.1, opened.2, rfl, rfl⟩

/-! ### Other interfaces -/

/-- The entries of an interface. -/
def entriesOf (w : Nat) (table : List AddressEntry) : List AddressEntry :=
  table.filter fun entry => entry.index == w

/-- The entries of all other interfaces. -/
def entriesBut (w : Nat) (table : List AddressEntry) : List AddressEntry :=
  table.filter fun entry => entry.index != w

/-- The WAN interface has this index, where the kernel finds it. -/
def Indexed (wanInterface : String) (w : Nat) (answers : Answers) : Prop :=
  ∀ index, answers.linkIndex wanInterface = .ok (some index) → index = w

theorem Indexed.openWan_eq (h : Indexed wanInterface w answers) {index prefixLen : Nat}
    (hopen : openWan answers wanInterface mask = .ok (index, prefixLen)) : index = w :=
  h index (openWan_eq_ok.mp hopen).2.2

theorem entriesBut_deleteAddresses {meant : AddressEntry → Bool}
    (h : ∀ entry, meant entry = true → (entry.index == w) = true) :
    entriesBut w (deleteAddresses answers table meant) = entriesBut w table := by
  apply filter_deleteAddresses
  intro entry hother
  cases hmeant : meant entry with
  | false => rfl
  | true => simp [bne, h entry hmeant] at hother

theorem configureWanOn_others (h : Indexed wanInterface w answers) :
    entriesBut w (configureWanOn answers wanInterface ip mask table).1 = entriesBut w table := by
  rcases configureWanOn_cases answers wanInterface ip mask table with
    ⟨err, -, heq⟩ | ⟨index, prefixLen, hopen, ⟨err, heq⟩ | ⟨-, heq⟩⟩
  · rw [heq]
  · obtain rfl := h.openWan_eq hopen
    rw [heq]
    exact entriesBut_deleteAddresses fun entry hentry => hentry
  · obtain rfl := h.openWan_eq hopen
    have hdeleted : entriesBut index (deleteAddresses answers table fun entry => entry.index == index) =
        entriesBut index table := entriesBut_deleteAddresses fun entry hentry => hentry
    rw [heq, ← hdeleted]
    simp [entriesBut]

theorem deconfigureWanOn_others (h : Indexed wanInterface w answers) :
    entriesBut w (deconfigureWanOn answers wanInterface ip mask table).1 = entriesBut w table := by
  rcases deconfigureWanOn_cases answers wanInterface ip mask table with ⟨-, heq⟩ | ⟨index, prefixLen, hopen, heq⟩
  · rw [heq]
  · obtain rfl := h.openWan_eq hopen
    rw [heq]
    apply entriesBut_deleteAddresses
    intro entry hmeant
    exact (Bool.and_eq_true_iff.mp hmeant).1

/-- What a step makes of the table is made by one of the two functions. -/
theorem addressesAfter_cases (answers : Answers) (wanInterface : String) (table : List AddressEntry)
    (s t : ClientState) :
    (∃ ack, s.phase = .configuring ack ∧ addressesAfter answers wanInterface table s t =
        (configureWanOn answers wanInterface ack.ip ack.mask table).1) ∨
      (∀ ack, s.phase ≠ .configuring ack) ∧
        ((∃ ip mask, s.lease.ip = some ip ∧ s.lease.mask = some mask ∧ t.lease = .default ∧
            addressesAfter answers wanInterface table s t =
              (deconfigureWanOn answers wanInterface ip mask table).1) ∨
          (t.lease = .default → s.lease.ip = none ∨ s.lease.mask = none) ∧
            addressesAfter answers wanInterface table s t = table) := by
  unfold addressesAfter
  split
  · rename_i ack hphase
    exact .inl ⟨ack, hphase, rfl⟩
  · rename_i hphase
    refine .inr ⟨hphase, ?_⟩
    cases hip : s.lease.ip with
    | none => exact .inr ⟨fun _ => .inl rfl, rfl⟩
    | some ip =>
      cases hmask : s.lease.mask with
      | none => exact .inr ⟨fun _ => .inr rfl, rfl⟩
      | some mask =>
        by_cases hcleared : t.lease = .default
        · exact .inl ⟨ip, mask, rfl, rfl, hcleared, if_pos hcleared⟩
        · exact .inr ⟨fun h => absurd h hcleared, if_neg hcleared⟩

/-- A step of the client and the table. -/
theorem wired_step (h : (wired c).step s e = some t) : (client c).step s.client e.taken = some t.client ∧
    t.addresses = addressesAfter e.answers c.wanInterface s.addresses s.client t.client := by
  obtain ⟨v, hv, rfl⟩ := Option.map_eq_some_iff.mp h
  exact ⟨hv, rfl⟩

/-- **No other interface is touched** by a run, whatever the kernel answers. -/
theorem others_untouched (hindexed : ∀ e ∈ es, Indexed c.wanInterface w e.answers)
    (h : (wired c).run s es = some t) : entriesBut w t.addresses = entriesBut w s.addresses := by
  refine System.Always.last (P := fun t => entriesBut w t.addresses = entriesBut w s.addresses)
    (System.always_of_along (R := fun _ e => Indexed c.wanInterface w e.answers) ?_ rfl
      (System.along_of_forall_mem fun e he _ => hindexed e he)) h
  intro u e v hu hindex hstep
  rw [(wired_step hstep).2, ← hu]
  rcases addressesAfter_cases e.answers c.wanInterface u.addresses u.client v.client with
    ⟨ack, -, heq⟩ | ⟨-, ⟨ip, mask, -, -, -, heq⟩ | ⟨-, heq⟩⟩
  · rw [heq, configureWanOn_others hindex]
  · rw [heq, deconfigureWanOn_others hindex]
  · rw [heq]

theorem loopback_untouched : ∃ t, (wired Uplink.router).run ⟨.initial, [Uplink.loopback]⟩ Uplink.wiredNegotiation =
    some t ∧ entriesBut 2 t.addresses = [Uplink.loopback] := by
  obtain ⟨t, ht, -⟩ := Uplink.wiredNegotiation_run
  refine ⟨t, ht, (others_untouched (w := 2) ?_ ht).trans rfl⟩
  intro e he index hindex
  obtain ⟨event, -, rfl⟩ := List.mem_map.mp he
  exact (Option.some.inj (Except.ok.inj hindex)).symm

/-! ### Where the addresses come from -/

/-- The entry is what `configure_wan` adds for the ACK. -/
def AddressEntry.IsFor (entry : AddressEntry) (ack : DhcpAck) : Prop :=
  entry.locals = [.v4 ack.ip] ∧ maskToPrefixLen ack.mask = .ok entry.prefixLen

theorem mem_configureWanOn {ack : DhcpAck} {entry : AddressEntry}
    (h : entry ∈ (configureWanOn answers wanInterface ack.ip ack.mask table).1) :
    entry ∈ table ∨ entry.IsFor ack := by
  rcases configureWanOn_cases answers wanInterface ack.ip ack.mask table with
    ⟨err, -, heq⟩ | ⟨index, prefixLen, hopen, ⟨err, heq⟩ | ⟨-, heq⟩⟩
  · rw [heq] at h
    exact .inl h
  · rw [heq] at h
    exact .inl (mem_of_mem_deleteAddresses h)
  · rw [heq] at h
    rcases List.mem_append.mp h with h | h
    · exact .inl (mem_of_mem_deleteAddresses h)
    · rw [List.mem_singleton.mp h]
      exact .inr ⟨rfl, (openWan_eq_ok.mp hopen).1⟩

/-- Every entry was there before, or is for an ACK that answered a REQUEST of the client's. -/
def Provided (c : DhcpClient) (before : List AddressEntry) (es : List WiredEvent) (s : WiredState) : Prop :=
  ∀ entry ∈ s.addresses, entry ∈ before ∨
    ∃ ack, Answered c (es.map WiredEvent.taken) s.client.sent ack s.client.now ∧ entry.IsFor ack

theorem provided_step (hencodes : c.dhcproto.Encodes) {before : List AddressEntry}
    (hrun : (wired c).run ⟨.initial, before⟩ es = some s) (hs : Provided c before es s)
    (h : (wired c).step s e = some t) : Provided c before (es ++ [e]) t := by
  have hdialogue := dialogue_run hencodes (wired_run hrun)
  obtain ⟨hstep, haddresses⟩ := wired_step h
  have hpast : es.map WiredEvent.taken ⊆ (es ++ [e]).map WiredEvent.taken :=
    List.map_subset _ (List.subset_append_left es [e])
  have hnow : s.client.now ≤ t.client.now := (client_le hstep).trans (Nat.le_of_eq (client_now hstep).symm)
  have hlater : ∀ ack, Answered c (es.map WiredEvent.taken) s.client.sent ack s.client.now →
      Answered c ((es ++ [e]).map WiredEvent.taken) t.client.sent ack t.client.now :=
    fun ack hack => hack.later hpast (client_sent_subset hencodes hstep) hnow
  have hold : ∀ entry ∈ s.addresses, entry ∈ before ∨
      ∃ ack, Answered c ((es ++ [e]).map WiredEvent.taken) t.client.sent ack t.client.now ∧ entry.IsFor ack := by
    intro entry hentry
    apply (hs entry hentry).imp id
    intro ⟨ack, hack, hfor⟩
    exact ⟨ack, hlater ack hack, hfor⟩
  intro entry hentry
  rw [haddresses] at hentry
  rcases addressesAfter_cases e.answers c.wanInterface s.addresses s.client t.client with
    ⟨ack, hphase, heq⟩ | ⟨-, ⟨ip, mask, -, -, -, heq⟩ | ⟨-, heq⟩⟩
  · rw [heq] at hentry
    rcases mem_configureWanOn hentry with hentry | hfor
    · exact hold entry hentry
    · have hanswered := hdialogue.phase
      rw [hphase] at hanswered
      exact .inr ⟨ack, hlater ack hanswered, hfor⟩
  · rw [heq] at hentry
    apply hold
    rcases deconfigureWanOn_cases e.answers c.wanInterface ip mask s.addresses with ⟨-, hsame⟩ | ⟨_, _, -, hdel⟩
    · rwa [hsame] at hentry
    · rw [hdel] at hentry
      exact mem_of_mem_deleteAddresses hentry
  · rw [heq] at hentry
    exact hold entry hentry

/-- **An address is added only for an ACK that was asked for**, whatever the kernel answers. -/
theorem addresses_answered (hencodes : c.dhcproto.Encodes) {before : List AddressEntry}
    (h : (wired c).run ⟨.initial, before⟩ es = some t) {entry : AddressEntry} (hentry : entry ∈ t.addresses) :
    entry ∈ before ∨
      ∃ ack, Answered c (es.map WiredEvent.taken) t.client.sent ack t.client.now ∧ entry.IsFor ack := by
  have hprovided : Provided c before es t := by
    apply (wired c).run_history (fun entry hentry => .inl hentry) _ h
    exact fun es s e u hrun hs hstep => provided_step hencodes hrun hs hstep
  exact hprovided entry hentry

theorem negotiated_address : ∃ t entry ack,
    (wired Uplink.router).run ⟨.initial, [Uplink.loopback]⟩ Uplink.wiredNegotiation = some t ∧ entry ∈ t.addresses ∧
      Answered Uplink.router (Uplink.wiredNegotiation.map WiredEvent.taken) t.client.sent ack t.client.now ∧
      entry.IsFor ack := by
  obtain ⟨t, ht, -, haddresses⟩ := Uplink.wiredNegotiation_run
  have hentry : ⟨2, [.v4 (Ipv4Addr.new 10 0 2 15)], 24⟩ ∈ t.addresses := by simp [haddresses]
  rcases addresses_answered Wire.dhcproto_encodes ht hentry with hbefore | ⟨ack, hack⟩
  · exact absurd (List.mem_singleton.mp hbefore) (by decide)
  · exact ⟨t, _, ack, ht, hentry, hack⟩

/-! ### One address -/

/-- The kernel deletes what it is asked to delete of the interface. -/
def Deletes (w : Nat) (answers : Answers) : Prop := ∀ entry, entry.index = w → answers.deletes entry = true

theorem entriesOf_deleteAddresses_length (meant : AddressEntry → Bool) :
    (entriesOf w (deleteAddresses answers table meant)).length ≤ (entriesOf w table).length := by
  obtain ⟨first, rest, htable, hdeleted, -⟩ := deleteAddresses_eq answers table meant
  rw [hdeleted, htable]
  exact (((List.filter_sublist).append (List.Sublist.refl rest)).filter _).length_le

theorem configureWanOn_length (hindexed : Indexed wanInterface w answers) (hdel : Deletes w answers) :
    (entriesOf w (configureWanOn answers wanInterface ip mask table).1).length ≤
      max 1 (entriesOf w table).length := by
  rcases configureWanOn_cases answers wanInterface ip mask table with
    ⟨err, -, heq⟩ | ⟨index, prefixLen, hopen, ⟨err, heq⟩ | ⟨hlist, heq⟩⟩
  · rw [heq]
    exact Nat.le_max_right _ _
  · rw [heq]
    exact (entriesOf_deleteAddresses_length _).trans (Nat.le_max_right _ _)
  · obtain rfl := hindexed.openWan_eq hopen
    have hflushed : entriesOf index (deleteAddresses answers table fun entry => entry.index == index) = [] :=
      filter_deleteAddresses_eq_nil hlist fun entry _ hentry => ⟨hentry, hdel entry (eq_of_beq hentry)⟩
    rw [heq, entriesOf, List.filter_append, ← entriesOf, hflushed]
    exact (List.length_filter_le _ _).trans (Nat.le_max_left _ _)

/-- **The interface never has two addresses**, where the kernel deletes what it is asked to,
whatever else fails. -/
theorem one_address (hindexed : ∀ e ∈ es, Indexed c.wanInterface w e.answers)
    (hdel : ∀ e ∈ es, Deletes w e.answers) (hs : (entriesOf w s.addresses).length ≤ 1)
    (h : (wired c).run s es = some t) : (entriesOf w t.addresses).length ≤ 1 := by
  refine System.Always.last (P := fun t => (entriesOf w t.addresses).length ≤ 1)
    (System.always_of_along (R := fun _ e => Indexed c.wanInterface w e.answers ∧ Deletes w e.answers) ?_ hs
      (System.along_of_forall_mem fun e he _ => ⟨hindexed e he, hdel e he⟩)) h
  intro u e v hu ⟨hindex, hdeletes⟩ hstep
  rw [(wired_step hstep).2]
  rcases addressesAfter_cases e.answers c.wanInterface u.addresses u.client v.client with
    ⟨ack, -, heq⟩ | ⟨-, ⟨ip, mask, -, -, -, heq⟩ | ⟨-, heq⟩⟩
  · rw [heq]
    exact (configureWanOn_length hindex hdeletes).trans (max_le (Nat.le_refl 1) hu)
  · rw [heq]
    rcases deconfigureWanOn_cases e.answers c.wanInterface ip mask u.addresses with ⟨-, hsame⟩ | ⟨_, _, -, hdel⟩
    · rwa [hsame]
    · rw [hdel]
      exact (entriesOf_deleteAddresses_length _).trans hu
  · rwa [heq]

theorem negotiated_one_address : ∃ t,
    (wired Uplink.router).run ⟨.initial, [Uplink.loopback]⟩ Uplink.wiredNegotiation = some t ∧
      (entriesOf 2 t.addresses).length ≤ 1 := by
  obtain ⟨t, ht, -⟩ := Uplink.wiredNegotiation_run
  refine ⟨t, ht, one_address (w := 2) ?_ ?_ (by decide) ht⟩
  · intro e he index hindex
    obtain ⟨event, -, rfl⟩ := List.mem_map.mp he
    exact (Option.some.inj (Except.ok.inj hindex)).symm
  · intro e he entry _
    obtain ⟨event, -, rfl⟩ := List.mem_map.mp he
    rfl

/-! ### Exactly the leased address -/

/-- Every request about the interface succeeds, the deletions too. -/
structure Answers.Work (answers : Answers) (wanInterface : String) (w : Nat) : Prop
    extends answers.toNetlink.Serves wanInterface w where
  deletes : Deletes w answers

theorem Answers.Work.openWan (h : answers.Work wanInterface w) {prefixLen : Nat}
    (hmask : maskToPrefixLen mask = .ok prefixLen) : openWan answers wanInterface mask = .ok (w, prefixLen) :=
  openWan_serves h.toServes (maskToPrefixLen_eq_ok.mp hmask)

/-- The interface has the address of the lease, and no other. -/
def Held (w : Nat) (lease : WanLease) (table : List AddressEntry) : Prop :=
  match lease.ip, lease.mask with
  | some ip, some mask =>
    ∃ prefixLen, maskToPrefixLen mask = .ok prefixLen ∧ entriesOf w table = [⟨w, [.v4 ip], prefixLen⟩]
  | _, _ => entriesOf w table = []

/-- Outside `apply_lease_config`, the interface has the address of the shared lease. -/
def HoldsLease (w : Nat) (s : WiredState) : Prop :=
  (∀ ack, s.client.phase ≠ .configuring ack) → Held w s.client.lease s.addresses

/-- An ACK that is applied now has a contiguous mask. -/
def AppliesMask (s : WiredState) (_ : WiredEvent) : Prop :=
  ∀ ack, s.client.phase = .configuring ack → ∃ prefixLen, maskToPrefixLen ack.mask = .ok prefixLen

theorem held_ofAck {ack : DhcpAck} : Held w (.ofAck ack) table ↔
    ∃ prefixLen, maskToPrefixLen ack.mask = .ok prefixLen ∧ entriesOf w table = [⟨w, [.v4 ack.ip], prefixLen⟩] :=
  Iff.rfl

theorem held_default : Held w .default table ↔ entriesOf w table = [] := Iff.rfl

theorem configureWanOn_held (h : answers.Work wanInterface w) {prefixLen : Nat}
    (hmask : maskToPrefixLen mask = .ok prefixLen) :
    entriesOf w (configureWanOn answers wanInterface ip mask table).1 = [⟨w, [.v4 ip], prefixLen⟩] := by
  have hflushed : entriesOf w (deleteAddresses answers table fun entry => entry.index == w) = [] :=
    filter_deleteAddresses_eq_nil h.listAddresses fun entry _ hentry =>
      ⟨hentry, h.deletes entry (eq_of_beq hentry)⟩
  have hadded : (configureWanOn answers wanInterface ip mask table).1 =
      (deleteAddresses answers table fun entry => entry.index == w) ++ [⟨w, [.v4 ip], prefixLen⟩] := by
    simp [configureWanOn, h.openWan hmask, h.listAddresses, h.linkUp, h.addAddress, bind, Except.bind]
  rw [hadded, entriesOf, List.filter_append, ← entriesOf, hflushed]
  simp

theorem deconfigureWanOn_held (h : answers.Work wanInterface w) {prefixLen : Nat}
    (hmask : maskToPrefixLen mask = .ok prefixLen) (htable : entriesOf w table = [⟨w, [.v4 ip], prefixLen⟩]) :
    entriesOf w (deconfigureWanOn answers wanInterface ip mask table).1 = [] := by
  simp only [deconfigureWanOn, h.openWan hmask]
  apply filter_deleteAddresses_eq_nil h.listAddresses
  intro entry hentry hw
  have hthis : entry = ⟨w, [.v4 ip], prefixLen⟩ := by
    rw [← List.mem_singleton, ← htable]
    exact List.mem_filter.mpr ⟨hentry, hw⟩
  have hindex : entry.index = w := eq_of_beq hw
  exact ⟨by simp [hthis], h.deletes entry hindex⟩

/-- A step of the client outside `apply_lease_config` keeps the shared lease, clears it, or
goes into `apply_lease_config`. -/
theorem lease_step {s t : ClientState} {e : Event} (h : (client c).step s e = some t)
    (hphase : ∀ ack, s.phase ≠ .configuring ack) :
    t.lease = s.lease ∨ t.lease = .default ∨ ∃ ack, t.phase = .configuring ack := by
  cases client_moves h with
  | negotiates _ _ _ hlease => exact .inl hlease
  | abandons _ _ hlease => exact .inr (.inl hlease)
  | waits => exact .inl rfl
  | @accepts ack =>
    unfold applyLeaseConfig
    split
    · exact .inr (.inr ⟨ack, rfl⟩)
    · exact .inl rfl
  | configures hfrom => exact absurd hfrom (hphase _)
  | configureFails hfrom => exact absurd hfrom (hphase _)
  | sleeps => exact .inl rfl
  | wakes => exact .inl rfl
  | listens _ hlease => exact .inl hlease

/-- The step lemma: an applied ACK is held precisely if its mask is contiguous, and
nothing else changes what is held. -/
theorem holdsLease_step (hwork : e.answers.Work c.wanInterface w) (hrecorded : Recorded s.client)
    (hs : HoldsLease w s) (h : (wired c).step s e = some t) : HoldsLease w t ↔ AppliesMask s e := by
  obtain ⟨hstep, haddresses⟩ := wired_step h
  rcases addressesAfter_cases e.answers c.wanInterface s.addresses s.client t.client with
    ⟨ack, hphase, heq⟩ | ⟨hphase, hafter⟩
  · obtain ⟨replies, -, hlease, hnext⟩ := configuring_step hphase hstep
    have hsettled : ∀ other, t.client.phase ≠ .configuring other := by
      rcases hnext with ⟨-, hbound⟩ | ⟨-, hexchanging⟩
      · simp [hbound]
      · exact hexchanging.negotiating.ne_configuring
    have hlease' : t.client.lease = .ofAck ack := hlease.trans (hrecorded.configuring hphase)
    have hmask : AppliesMask s e ↔ ∃ prefixLen, maskToPrefixLen ack.mask = .ok prefixLen := by
      constructor
      · exact fun happlies => happlies ack hphase
      · intro hmask other hother
        rwa [← Phase.configuring.inj (hphase.symm.trans hother)]
    rw [hmask]
    constructor
    · intro ht
      have hheld := ht hsettled
      rw [hlease', held_ofAck] at hheld
      exact hheld.imp fun _ hprefix => hprefix.1
    · intro ⟨prefixLen, hprefix⟩ _
      rw [hlease', held_ofAck, haddresses, heq]
      exact ⟨prefixLen, hprefix, configureWanOn_held hwork hprefix⟩
  · have happlies : AppliesMask s e := fun ack hack => absurd hack (hphase ack)
    refine iff_of_true (fun hsettled => ?_) happlies
    have hheld := hs hphase
    rw [haddresses]
    rcases hafter with ⟨ip, mask, hip, hmask, hcleared, heq⟩ | ⟨hnot, heq⟩
    · simp only [Held, hip, hmask] at hheld
      obtain ⟨prefixLen, hprefix, htable⟩ := hheld
      rw [hcleared, held_default, heq]
      exact deconfigureWanOn_held hwork hprefix htable
    · rw [heq]
      rcases lease_step hstep hphase with hsame | hcleared | ⟨ack, hconfiguring⟩
      · rwa [hsame]
      · rw [hcleared, held_default]
        unfold Held at hheld
        rcases hnot hcleared with hip | hmask
        · simpa only [hip] using hheld
        · cases hip : s.client.lease.ip with
          | none => simpa only [hip] using hheld
          | some ip => simpa only [hip, hmask] using hheld
      · exact absurd hconfiguring (hsettled ack)

theorem wired_recorded (c : DhcpClient) (s : WiredState) (e : WiredEvent) (t : WiredState)
    (hs : Recorded s.client) (h : (wired c).step s e = some t) : Recorded t.client :=
  recorded_step c s.client e.taken t.client hs (wired_step h).1

/-- **The interface has exactly the address of the shared lease** throughout a run whose
requests the kernel all grants, precisely when every ACK that is applied has a contiguous
mask. -/
theorem held_iff {before : List AddressEntry} (hwork : ∀ e ∈ es, e.answers.Work c.wanInterface w)
    (hbefore : entriesOf w before = []) :
    (wired c).Always (HoldsLease w) ⟨.initial, before⟩ es ↔ (wired c).Along AppliesMask ⟨.initial, before⟩ es :=
  System.always_iff_along_of_forall_mem (wired_recorded c)
    (fun _ _ _ hwork hrecorded hs hstep => holdsLease_step hwork hrecorded hs hstep) hwork initial_recorded
    fun _ => hbefore

theorem Uplink.granting_works : Uplink.granting.Work "eth0" 2 :=
  ⟨⟨rfl, rfl, rfl, rfl, fun _ _ => rfl⟩, fun _ _ => rfl⟩

theorem negotiated_held :
    (wired Uplink.router).Always (HoldsLease 2) ⟨.initial, [Uplink.loopback]⟩ Uplink.wiredNegotiation ↔
      (wired Uplink.router).Along AppliesMask ⟨.initial, [Uplink.loopback]⟩ Uplink.wiredNegotiation := by
  apply held_iff _ (by decide)
  intro e he
  obtain ⟨event, -, rfl⟩ := List.mem_map.mp he
  exact Uplink.granting_works

end RustyRouter.Wan
