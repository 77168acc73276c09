import RustyRouter.Dns.Transparency
import RustyRouter.Text.Separated

/-! What the cache key says about the question.

The key is `name:type:class` of the first question. Its type and class can be read back,
and of the name the text it is displayed as; what cannot be read back is where that text's
dots are label boundaries, and what further questions the query asks. So two queries with
one key ask the same, unless they differ in just that (`cache_key_iff`). -/
namespace RustyRouter.Dns
open Store Transition

/-! ### What is assumed of the crate -/

/-- A question the parser has read from some message. -/
def DnsParser.Asked (dns : DnsParser) (q : Question) : Prop :=
  ∃ bytes packet, dns.parse bytes = some packet ∧ q ∈ packet.questions

/-- Labels are not empty and are displayed verbatim, joined by dots; types and classes have
distinct names, without colons. -/
structure DnsParser.Documented (dns : DnsParser) : Prop where
  label_ne_nil : ∀ q, dns.Asked q → ∀ label ∈ q.qname, label ≠ []
  displayName_eq : ∀ q, dns.Asked q → dns.displayName q.qname = [0x2e].intercalate q.qname
  debugType_inj : ∀ q q', dns.Asked q → dns.Asked q' → dns.debugType q.qtype = dns.debugType q'.qtype →
    q.qtype = q'.qtype
  debugClass_inj : ∀ q q', dns.Asked q → dns.Asked q' → dns.debugClass q.qclass = dns.debugClass q'.qclass →
    q.qclass = q'.qclass
  debugType_colon : ∀ q, dns.Asked q → 0x3a ∉ dns.debugType q.qtype
  debugClass_colon : ∀ q, dns.Asked q → 0x3a ∉ dns.debugClass q.qclass

/-! ### What the key tells apart -/

/-- The dot-free pieces of a name. -/
def namePieces (qname : List (List UInt8)) : List (List UInt8) := Text.pieces 0x2e qname

/-- Two queries that cannot be told apart by their first questions' types, classes and
pieces of names, and yet ask for different names or ask different further questions. -/
def Ambiguous (p q : Packet) : Prop :=
  ∃ a as b bs, p.questions = a :: as ∧ q.questions = b :: bs ∧ a.qtype = b.qtype ∧ a.qclass = b.qclass ∧
    namePieces a.qname = namePieces b.qname ∧ (a.qname ≠ b.qname ∨ as ≠ bs)

variable {dns : DnsParser} {bytes bytes' key key' : List UInt8} {p p' : Packet}

/-- A message with a key has a first question. -/
theorem getCacheKey_eq_some (hparse : dns.parse bytes = some p) (hkey : getCacheKey dns bytes = some key) :
    ∃ a as, p.questions = a :: as ∧ dns.Asked a ∧
      key = dns.displayName a.qname ++ [0x3a] ++ dns.debugType a.qtype ++ [0x3a] ++ dns.debugClass a.qclass := by
  unfold getCacheKey at hkey
  rw [hparse] at hkey
  cases hquestions : p.questions with
  | nil => simp [hquestions] at hkey
  | cons a as =>
    simp only [hquestions, Option.some.injEq] at hkey
    refine ⟨a, as, rfl, ⟨bytes, p, hparse, ?_⟩, hkey.symm⟩
    rw [hquestions]
    exact List.mem_cons_self

theorem parse_of_key (hkey : getCacheKey dns bytes = some key) : ∃ packet, dns.parse bytes = some packet := by
  unfold getCacheKey at hkey
  cases hparse : dns.parse bytes with
  | none => simp [hparse] at hkey
  | some packet => exact ⟨packet, rfl⟩

/-- Two first questions have one key precisely when they have one type, one class and the
same pieces of a name. -/
theorem key_eq_iff (hdoc : dns.Documented) {a b : Question} (ha : dns.Asked a) (hb : dns.Asked b) :
    dns.displayName a.qname ++ [0x3a] ++ dns.debugType a.qtype ++ [0x3a] ++ dns.debugClass a.qclass =
        dns.displayName b.qname ++ [0x3a] ++ dns.debugType b.qtype ++ [0x3a] ++ dns.debugClass b.qclass ↔
      a.qtype = b.qtype ∧ a.qclass = b.qclass ∧ namePieces a.qname = namePieces b.qname := by
  rw [Text.last_field_inj (hdoc.debugClass_colon a ha) (hdoc.debugClass_colon b hb),
    Text.last_field_inj (hdoc.debugType_colon a ha) (hdoc.debugType_colon b hb),
    hdoc.displayName_eq a ha, hdoc.displayName_eq b hb,
    Text.join_eq_join_iff (hdoc.label_ne_nil a ha) (hdoc.label_ne_nil b hb)]
  constructor
  · intro ⟨⟨hname, htype⟩, hclass⟩
    exact ⟨hdoc.debugType_inj a b ha hb htype, hdoc.debugClass_inj a b ha hb hclass, hname⟩
  · intro ⟨htype, hclass, hname⟩
    exact ⟨⟨hname, by rw [htype]⟩, by rw [hclass]⟩

/-- One key means one list of questions, precisely for queries that are not ambiguous. -/
theorem same_questions_iff (hdoc : dns.Documented) (hparse : dns.parse bytes = some p)
    (hparse' : dns.parse bytes' = some p') (hkey : getCacheKey dns bytes = some key)
    (hkey' : getCacheKey dns bytes' = some key') :
    (key = key' → p.questions = p'.questions) ↔ ¬ Ambiguous p p' := by
  obtain ⟨a, as, hp, ha, rfl⟩ := getCacheKey_eq_some hparse hkey
  obtain ⟨b, bs, hp', hb, rfl⟩ := getCacheKey_eq_some hparse' hkey'
  rw [key_eq_iff hdoc ha hb, hp, hp']
  constructor
  · intro hsame hambiguous
    obtain ⟨a', as', b', bs', hq, hq', htype, hclass, hname, hdiffers⟩ := hambiguous
    obtain ⟨rfl, rfl⟩ := List.cons.inj (hp.symm.trans hq)
    obtain ⟨rfl, rfl⟩ := List.cons.inj (hp'.symm.trans hq')
    obtain ⟨rfl, rfl⟩ := List.cons.inj (hsame ⟨htype, hclass, hname⟩)
    rcases hdiffers with hne | hne <;> exact hne rfl
  · intro hclear ⟨htype, hclass, hname⟩
    by_contra hne
    refine hclear ⟨a, as, b, bs, hp, hp', htype, hclass, hname, ?_⟩
    by_contra hsame
    simp only [not_or, not_not] at hsame
    obtain ⟨aname, atype, aclass⟩ := a
    obtain ⟨bname, btype, bclass⟩ := b
    simp only at htype hclass hsame
    exact hne (by rw [htype, hclass, hsame.1, hsame.2])

/-- Queries with one question each, and names without dots inside labels, are not ambiguous. -/
theorem not_ambiguous_of_plain {a b : Question} (hp : p.questions = [a]) (hp' : p'.questions = [b])
    (ha : ∀ label ∈ a.qname, 0x2e ∉ label) (hb : ∀ label ∈ b.qname, 0x2e ∉ label) : ¬ Ambiguous p p' := by
  intro hambiguous
  obtain ⟨a', as, b', bs, hq, hq', -, -, hname, hdiffers⟩ := hambiguous
  obtain ⟨rfl, rfl⟩ := List.cons.inj (hp.symm.trans hq)
  obtain ⟨rfl, rfl⟩ := List.cons.inj (hp'.symm.trans hq')
  rw [namePieces, namePieces, Text.pieces_eq_self ha, Text.pieces_eq_self hb] at hname
  rcases hdiffers with hne | hne
  · exact hne hname
  · exact hne rfl

/-! ### A parser with these properties -/

namespace Plain

theorem readName_ne_nil {fuel : Nat} {bytes rest : List UInt8} {labels : List (List UInt8)}
    (h : readName fuel bytes = some (labels, rest)) : ∀ label ∈ labels, label ≠ [] := by
  induction fuel generalizing bytes rest labels with
  | zero => simp [readName] at h
  | succ fuel ih =>
    cases bytes with
    | nil => simp [readName] at h
    | cons length bytes =>
      rw [readName] at h
      split at h
      · obtain ⟨rfl, -⟩ := Prod.mk.inj (Option.some.inj h)
        simp
      · rename_i hlength
        split at h
        · simp at h
        · rename_i hfits
          obtain ⟨⟨labels', rest'⟩, hread, heq⟩ := Option.map_eq_some_iff.mp h
          obtain ⟨rfl, rfl⟩ := Prod.mk.inj heq
          have hpos : length.toNat ≠ 0 := fun hzero => hlength (UInt8.toNat_inj.mp hzero)
          intro label hlabel
          rcases List.mem_cons.mp hlabel with rfl | hlabel
          · rw [← List.length_pos_iff, List.length_take]
            omega
          · exact ih hread label hlabel

theorem readQuestions_ne_nil {count : Nat} {bytes rest : List UInt8} {questions : List Question}
    (h : readQuestions count bytes = some (questions, rest)) :
    ∀ q ∈ questions, ∀ label ∈ q.qname, label ≠ [] := by
  induction count generalizing bytes rest questions with
  | zero =>
    obtain ⟨rfl, -⟩ := Prod.mk.inj (Option.some.inj h)
    simp
  | succ count ih =>
    rw [readQuestions] at h
    split at h
    · rename_i qname t0 t1 c0 c1 bytes' hname
      obtain ⟨⟨questions', rest'⟩, hread, heq⟩ := Option.map_eq_some_iff.mp h
      obtain ⟨rfl, rfl⟩ := Prod.mk.inj heq
      intro q hq
      rcases List.mem_cons.mp hq with rfl | hq
      · exact readName_ne_nil hname
      · exact ih hread q hq
    · simp at h

theorem parse_ne_nil {bytes : List UInt8} {packet : Packet} (h : parse bytes = some packet) :
    ∀ q ∈ packet.questions, ∀ label ∈ q.qname, label ≠ [] := by
  unfold parse at h
  split at h
  · split at h
    · simp at h
    · rename_i hread
      obtain ⟨ttls, -, rfl⟩ := Option.map_eq_some_iff.mp h
      exact readQuestions_ne_nil hread
  · simp at h

/-- The questions for addresses on the Internet. -/
def Question.known (q : Question) : Bool := (q.qtype == 1 || q.qtype == 28) && q.qclass == 1

/-- The messages whose questions have a type and a class with a name. -/
def knownParser : DnsParser :=
  { dnsParser with parse := fun bytes => (parse bytes).filter fun packet => packet.questions.all Question.known }

theorem asked_known {q : Question} (h : knownParser.Asked q) :
    (∀ label ∈ q.qname, label ≠ []) ∧ (q.qtype = 1 ∨ q.qtype = 28) ∧ q.qclass = 1 := by
  obtain ⟨bytes, packet, hparse, hq⟩ := h
  obtain ⟨hparse, hknown⟩ := Option.filter_eq_some_iff.mp hparse
  refine ⟨parse_ne_nil hparse q hq, ?_⟩
  simpa [Question.known] using List.all_eq_true.mp hknown q hq

theorem knownParser_documented : knownParser.Documented where
  label_ne_nil q hq := (asked_known hq).1
  displayName_eq _ _ := rfl
  debugType_inj q q' hq hq' h := by
    rcases (asked_known hq).2.1 with htype | htype <;> rcases (asked_known hq').2.1 with htype' | htype' <;>
      simp [htype, htype', knownParser, dnsParser, typeName] at h ⊢
  debugClass_inj q q' hq hq' _ := (asked_known hq).2.2.trans (asked_known hq').2.2.symm
  debugType_colon q hq := by
    rcases (asked_known hq).2.1 with htype | htype <;> simp [htype, knownParser, dnsParser, typeName]
  debugClass_colon q hq := by
    simp [(asked_known hq).2.2, knownParser, dnsParser, className]

/-- A query for the `A` record of a name, in its encoding. -/
def queryFor (name : List UInt8) : List UInt8 :=
  [0, 1, 1, 0, 0, 1, 0, 0, 0, 0, 0, 0] ++ name ++ [0, 1, 0, 1]

end Plain

/-! ### The key and the cache -/

/-- **What the cache key determines.** Two queries with one key ask the same questions,
unless they are ambiguous, which queries of a single question with dot-free labels never
are. And whenever a task finds a response in the cache, the response was fetched for a query
that asks the task's own questions, unless the two are ambiguous. -/
theorem cache_key_iff (dns : DnsParser) (hdoc : dns.Documented) :
    (∀ bytes bytes' p p' key key', dns.parse bytes = some p → dns.parse bytes' = some p' →
      getCacheKey dns bytes = some key → getCacheKey dns bytes' = some key' →
      ((key = key' → p.questions = p'.questions) ↔ ¬ Ambiguous p p')) ∧
    (∀ p p' : Packet, p.questions.length = 1 → p'.questions.length = 1 →
      (∀ q ∈ p.questions ++ p'.questions, ∀ label ∈ q.qname, 0x2e ∉ label) → ¬ Ambiguous p p') ∧
    ∀ es s id task response, (forwarder dns).run .initial es = some s → s.tasks id = some task →
      task.stage = .lookup → (lookupCache s.now task.cacheKey s.cache).2 = some response →
      ∃ origin query d p p', Arrived dns es origin query d.source d ∧
        withXidOf query d.payload = some response ∧ dns.parse query = some p ∧
        dns.parse task.query = some p' ∧ (p.questions = p'.questions ↔ ¬ Ambiguous p p') := by
  refine ⟨fun bytes bytes' p p' key key' => same_questions_iff hdoc, ?_, ?_⟩
  · intro p p' hp hp' hplain
    obtain ⟨a, ha⟩ := List.length_eq_one_iff.mp hp
    obtain ⟨b, hb⟩ := List.length_eq_one_iff.mp hp'
    simp only [ha, hb, List.singleton_append, List.mem_cons, List.not_mem_nil, or_false, forall_eq_or_imp,
      forall_eq] at hplain
    exact not_ambiguous_of_plain ha hb hplain.1 hplain.2
  · intro es s id task response hrun htask hstage hfound
    have hT := traced_run hrun
    obtain ⟨origin, query, d, harrived, hkey, hresponse⟩ := hT.found hfound
    rcases hT.keyed id task htask with hdone | ⟨-, htaskKey⟩
    · exact absurd (hstage.symm.trans hdone) (by simp)
    · obtain ⟨p, hparse⟩ := parse_of_key hkey
      obtain ⟨p', hparse'⟩ := parse_of_key htaskKey
      have hiff := same_questions_iff hdoc hparse hparse' hkey htaskKey
      exact ⟨origin, query, d, p, p', harrived, hresponse, hparse, hparse', by simpa using hiff⟩

/-- The name `a.b` in two labels, and in one. -/
def splitQuery : List UInt8 := Plain.queryFor [1, 0x61, 1, 0x62, 0]
def dottedQuery : List UInt8 := Plain.queryFor [3, 0x61, 0x2e, 0x62, 0]

/-- A label with a dot in it has the key of two labels. -/
theorem dotted_label_has_key_of_two : ¬ ∀ dns : DnsParser, dns.Documented → ∀ bytes bytes' p p' key,
    dns.parse bytes = some p → dns.parse bytes' = some p' → getCacheKey dns bytes = some key →
    getCacheKey dns bytes' = some key → p.questions = p'.questions := by
  intro h
  have hsplit : Plain.knownParser.parse splitQuery = some ⟨[⟨[[0x61], [0x62]], 1, 1⟩], []⟩ := by decide +kernel
  have hdotted : Plain.knownParser.parse dottedQuery = some ⟨[⟨[[0x61, 0x2e, 0x62]], 1, 1⟩], []⟩ := by
    decide +kernel
  have heq := h Plain.knownParser Plain.knownParser_documented splitQuery dottedQuery _ _
    [0x61, 0x2e, 0x62, 0x3a, 0x41, 0x3a, 0x49, 0x4e] hsplit hdotted (by decide +kernel) (by decide +kernel)
  exact absurd heq (by decide)

/-- One query has been answered, and the same is asked again. -/
def askedAgain : List Event :=
  Plain.asked 0 0x61 ++ [.receive ⟨fallbackDnsServer, Plain.reply 7 0x61, some 0⟩, .deliver, .act 0 .wake,
    .act 0 .insert, .query 1 (Plain.query 0x61)]

theorem cache_key_iff_asked_again :
    (∀ p p', Plain.knownParser.parse splitQuery = some p → Plain.knownParser.parse dottedQuery = some p' →
      Ambiguous p p') ∧
    ∃ s task response, (forwarder Plain.knownParser).run .initial askedAgain = some s ∧ s.tasks 1 = some task ∧
      (lookupCache s.now task.cacheKey s.cache).2 = some response ∧ ∃ origin query d p p',
        Arrived Plain.knownParser askedAgain origin query d.source d ∧
          Plain.knownParser.parse query = some p ∧ Plain.knownParser.parse task.query = some p' ∧
          (p.questions = p'.questions ↔ ¬ Ambiguous p p') := by
  obtain ⟨hpairs, -, hcache⟩ := cache_key_iff Plain.knownParser Plain.knownParser_documented
  constructor
  · intro p p' hp hp'
    have hdiffers : p.questions ≠ p'.questions := by
      intro heq
      have hmap : (Plain.knownParser.parse splitQuery).map Packet.questions =
          (Plain.knownParser.parse dottedQuery).map Packet.questions := by
        rw [hp, hp', Option.map_some, Option.map_some, heq]
      exact absurd hmap (by decide +kernel)
    have hiff := hpairs splitQuery dottedQuery p p' [0x61, 0x2e, 0x62, 0x3a, 0x41, 0x3a, 0x49, 0x4e]
      [0x61, 0x2e, 0x62, 0x3a, 0x41, 0x3a, 0x49, 0x4e] hp hp' (by decide +kernel) (by decide +kernel)
    by_contra hclear
    exact hdiffers (hiff.mpr hclear rfl)
  · have hrun : ((forwarder Plain.knownParser).run .initial askedAgain).any (fun s =>
        (s.tasks 1).any fun task => decide (task.stage = .lookup) &&
          (lookupCache s.now task.cacheKey s.cache).2.isSome) = true := by
      decide +kernel
    obtain ⟨s, hs, htask⟩ := Option.any_eq_true _ _ |>.mp hrun
    obtain ⟨task, htask, hready⟩ := Option.any_eq_true _ _ |>.mp htask
    simp only [Bool.and_eq_true, decide_eq_true_eq] at hready
    obtain ⟨response, hfound⟩ := Option.isSome_iff_exists.mp hready.2
    obtain ⟨origin, query, d, p, p', harrived, -, hparse, hparse', hiff⟩ :=
      hcache askedAgain s 1 task response hs htask hready.1 hfound
    exact ⟨s, task, response, hs, htask, hfound, origin, query, d, p, p', harrived, hparse, hparse', hiff⟩

end RustyRouter.Dns
