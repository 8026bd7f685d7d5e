import DaygleDns.Dispatch.RecursiveAnswer

/-! Whether a client gets an address through DNS64 that the filters withhold from it. -/
namespace DaygleDns.Dispatch

open Text Policy Settings Authoritative

namespace ClientQuery

def forA (q : ClientQuery) : ClientQuery := { q with qtype := .a }

def forAaaa (q : ClientQuery) : ClientQuery := { q with qtype := .aaaa }

end ClientQuery

/-- The name's IPv4 answer is found, and withheld from the client by a filter. -/
structure WithholdsA (d : Dispatcher) (q : ClientQuery) (effort : Effort) (found : Lookup) : Prop where
  early : d.earlyResponse q.forA = none
  permit : effort.permit = true
  inTime : effort.inTime = true
  looked : d.resolver.lookupForClient q.asker.client q.qname .a = .ok found
  withheld : (d.withheld q.forA effort found.answers).isSome = true

/-- The query for IPv6 addresses finds none. -/
def NoAaaa (d : Dispatcher) (q : ClientQuery) (effort : Effort) : Prop :=
  ∀ found, d.lookup q.forAaaa effort = .ok found → ∀ record ∈ found.answers, ∀ ip, record.data ≠ .aaaa ip

/-- The response has an address made from one of these records. -/
def CarriesSynthesized (dns64 : Dns64) (answers : List AnswerRecord) (response : Response) : Prop :=
  ∃ code records authorities additionals, response = .recursive code records authorities additionals ∧
    ∃ record ∈ answers, ∃ v4 v6, record.data = .a v4 ∧ dns64.synthesize v4 = some v6 ∧
      ∃ other ∈ records, other.name = record.name ∧ other.data = .aaaa v6

/-- A name that has an IPv4 address among the records, or is an alias of one that has. -/
inductive LeadsToAddress (answers : List AnswerRecord) : Text → Prop where
  | address {record : AnswerRecord} {name : Text} {ip : Ipv4Addr} :
      record ∈ answers → record.data = .a ip → eqIgnoreAsciiCase record.name name = true →
      LeadsToAddress answers name
  | alias {record : AnswerRecord} {name target : Text} :
      record ∈ answers → record.data = .cname target → eqIgnoreAsciiCase record.name name = true →
      LeadsToAddress answers target → LeadsToAddress answers name

/-- The record is one of the CNAMEs that lead to the IPv4 addresses of an answer. -/
def OnChain (answers : List AnswerRecord) (record : AnswerRecord) : Prop :=
  ∃ link ∈ answers, ∃ target target', link.data = .cname target ∧ record.data = .cname target' ∧
    eqIgnoreAsciiCase link.name record.name = true ∧ eqIgnoreAsciiCase target target' = true ∧
    LeadsToAddress answers target

/-- The records of a name's data that a response has; a response policy zone or a
redirect answers with data of its own. -/
def Response.answers : Response → List AnswerRecord
  | .hosted answer => answer.answers
  | .recursive _ answers _ _ => answers
  | _ => []

/-- A filter's answer in place of the name's data. -/
def Response.fromFilter : Response → Bool
  | .error _ | .empty | .redirect _ | .policyZone _ => true
  | .hosted _ | .negative _ _ | .recursive _ _ _ _ => false

/-- The response has a CNAME of the chain that leads to these addresses. -/
def CarriesChain (answers : List AnswerRecord) (response : Response) : Prop :=
  ∃ record ∈ response.answers, OnChain answers record

/-- What is withheld from a client as IPv4 addresses does not reach it as IPv6 ones, and
the chain of CNAMEs that leads to them does not either. -/
def FiltersCover (d : Dispatcher) (q : ClientQuery) (effortA effort : Effort) : Prop :=
  ∀ found dns64, WithholdsA d q effortA found → d.dns64For q = some dns64 → NoAaaa d q effort →
    ¬ CarriesSynthesized dns64 found.answers (d.handleRequest q.forAaaa effort) ∧
      ¬ CarriesChain found.answers (d.handleRequest q.forAaaa effort)

/-- The query for IPv6 addresses is not stopped before DNS64: it is let through to
recursion and ends with NODATA, either as an error or with an answer that its own
filters let through, and there is capacity for the lookup of the IPv4 addresses. -/
structure ReachesSynthesis (d : Dispatcher) (q : ClientQuery) (effort : Effort) : Prop where
  early : d.earlyResponse q.forAaaa = none
  permit : effort.permit = true
  nodata : match d.lookup q.forAaaa effort with
    | .ok found => d.withheld q.forAaaa effort found.answers = none ∧ found.responseCode = noError
    | .error e => e.responseCode = some noError
  synthesisPermit : effort.synthesisPermit = true
  synthesisInTime : effort.synthesisInTime = true

/-- An answer that the server has for a query without DNS64 and does not keep back: the
data it holds itself, or what its lookup found and the filters let through. -/
inductive LetsThrough (d : Dispatcher) (q : ClientQuery) (effort : Effort) : List AnswerRecord → Prop where
  | hosted {answer : LocalAnswer} (early : d.earlyResponse q = some (.hosted answer)) :
      LetsThrough d q effort answer.answers
  | found {own : Lookup} (early : d.earlyResponse q = none) (permit : effort.permit = true)
      (looked : d.lookup q effort = .ok own) (withheld : d.withheld q effort own.answers = none) :
      LetsThrough d q effort own.answers

namespace Dispatcher

theorem eqIgnoreAsciiCase_self (name : Text) : eqIgnoreAsciiCase name name = true := beq_self_eq_true _

theorem mem_orderFrom {owner : Text} {fuel : Nat} {rest : List AnswerRecord} {record : AnswerRecord} :
    record ∈ orderFrom owner fuel rest ↔ record ∈ rest := by
  induction fuel generalizing owner rest with
  | zero => rfl
  | succ fuel ih =>
    rw [orderFrom]
    split
    · rw [List.mem_append, ih]
      simp only [List.mem_filter]
      cases eqIgnoreAsciiCase record.name owner <;> simp
    · rw [List.mem_append]
      simp only [List.mem_filter]
      cases eqIgnoreAsciiCase record.name owner <;> simp

theorem mem_orderCnameChain {qname : Text} {records : List AnswerRecord} {record : AnswerRecord} :
    record ∈ orderCnameChain qname records ↔ record ∈ records := mem_orderFrom

theorem hasRealAaaa_eq_false {answers : List AnswerRecord} (h : ∀ record ∈ answers, ∀ ip, record.data ≠ .aaaa ip) :
    hasRealAaaa answers = false := by
  unfold hasRealAaaa
  rw [List.any_eq_false]
  intro record hrecord
  cases hdata : record.data with
  | aaaa ip => exact absurd hdata (h record hrecord ip)
  | _ => simp

variable {d : Dispatcher} {q : ClientQuery} {effort : Effort} {dns64 : Dns64} {found : Lookup}

/-- DNS64 gives the mapped records where there are any and the lookup succeeds. -/
theorem synthesizeAaaa_eq (hfound : d.resolver.lookupForClient q.asker.client q.qname .a = .ok found)
    (authorities : List AnswerRecord) :
    d.synthesizeAaaa dns64 q.forAaaa effort authorities =
      if effort.synthesisPermit && effort.synthesisInTime && found.answers.any (mapped dns64) then
        some (found.answers.filterMap (synthesizeRecord dns64 (negativeTtl authorities)))
      else none := by
  unfold synthesizeAaaa ClientQuery.forAaaa
  dsimp only
  rw [hfound]
  cases effort.synthesisPermit <;> cases effort.synthesisInTime <;> simp

theorem dns64For_forAaaa : d.dns64For q.forAaaa = d.dns64For q := rfl

/-- The records that DNS64 makes carry every address that it maps. -/
theorem carries_synthesizeRecord {answers : List AnswerRecord} (ttl : UInt32)
    (h : answers.any (mapped dns64) = true) :
    ∃ record ∈ answers, ∃ v4 v6, record.data = .a v4 ∧ dns64.synthesize v4 = some v6 ∧
      ∃ other ∈ answers.filterMap (synthesizeRecord dns64 ttl), other.name = record.name ∧ other.data = .aaaa v6 := by
  obtain ⟨record, hrecord, hmapped⟩ := List.any_eq_true.mp h
  unfold mapped at hmapped
  cases hdata : record.data with
  | a v4 =>
    rw [hdata] at hmapped
    obtain ⟨v6, hv6⟩ := Option.isSome_iff_exists.mp hmapped
    refine ⟨record, hrecord, v4, v6, hdata, hv6, ⟨record.name, min record.ttl ttl, .aaaa v6⟩, ?_, rfl, rfl⟩
    apply List.mem_filterMap.mpr
    refine ⟨record, hrecord, ?_⟩
    simp [synthesizeRecord, hdata, hv6]
  | _ =>
    rw [hdata] at hmapped
    cases hmapped

theorem any_mapped {answers : List AnswerRecord} {record : AnswerRecord} {v4 : Ipv4Addr} {v6 : Ipv6Addr}
    (hrecord : record ∈ answers) (hdata : record.data = .a v4) (hv6 : dns64.synthesize v4 = some v6) :
    answers.any (mapped dns64) = true := by
  apply List.any_eq_true.mpr
  exact ⟨record, hrecord, by simp [mapped, hdata, hv6]⟩

theorem answerFound_of_nodata (hfound : d.resolver.lookupForClient q.asker.client q.qname .a = .ok found)
    (hdns64 : d.dns64For q = some dns64) {own : Lookup}
    (hown : ∀ record ∈ own.answers, ∀ ip, record.data ≠ .aaaa ip)
    (hwithheld : d.withheld q.forAaaa effort own.answers = none) (hcode : own.responseCode = noError) :
    d.answerFound q.forAaaa effort own =
      if effort.synthesisPermit && effort.synthesisInTime && found.answers.any (mapped dns64) then
        .recursive noError (orderCnameChain q.qname
          (found.answers.filterMap (synthesizeRecord dns64 (negativeTtl own.authorities)))) [] []
      else .recursive noError (orderCnameChain q.qname own.answers) own.authorities own.additionals := by
  have hreal := hasRealAaaa_eq_false hown
  unfold answerFound
  simp only [hwithheld, hcode, hreal, dns64For_forAaaa, hdns64]
  rw [if_pos (by simp [ClientQuery.forAaaa]), Option.bind_some, synthesizeAaaa_eq hfound]
  cases effort.synthesisPermit && effort.synthesisInTime && found.answers.any (mapped dns64) <;> rfl

theorem answerFailed_of_nodata (hfound : d.resolver.lookupForClient q.asker.client q.qname .a = .ok found)
    (hdns64 : d.dns64For q = some dns64) {e : ResolutionError} (hcode : e.responseCode = some noError)
    (hcapacity : (effort.synthesisPermit && effort.synthesisInTime && found.answers.any (mapped dns64)) = true) :
    d.answerFailed q.forAaaa effort e =
      .recursive noError (found.answers.filterMap (synthesizeRecord dns64 (negativeTtl []))) [] [] := by
  unfold answerFailed
  simp only [hcode, dns64For_forAaaa, hdns64]
  rw [if_pos ⟨rfl, rfl⟩, Option.bind_some, synthesizeAaaa_eq hfound, if_pos hcapacity]

/-! What the filters answer in place of a name's data. -/

theorem fromFilter_redirectTo (qtype : QueryType) (ip : IpAddr) : (redirectTo qtype ip).fromFilter = true := by
  unfold redirectTo
  split <;> try split
  all_goals rfl

theorem fromFilter_deny (qtype : QueryType) (action : Action) : (d.deny qtype action).fromFilter = true := by
  unfold deny
  split
  · rfl
  · exact fromFilter_redirectTo _ _
  · rfl
  · split
    · exact fromFilter_redirectTo _ _
    · rfl
    · rfl
  · rfl

theorem fromFilter_policyResponse {response : Response} (h : d.policyResponse q = some response) :
    response.fromFilter = true := by
  unfold policyResponse at h
  dsimp only at h
  split at h
  · cases h
  · cases h
    exact fromFilter_deny _ _

theorem fromFilter_groupResponse {response : Response} (h : d.groupResponse q = some response) :
    response.fromFilter = true := by
  unfold groupResponse at h
  split at h
  · cases h
  · obtain ⟨decision, _, hdenied⟩ := Option.map_eq_some_iff.mp h
    cases hdenied
    exact fromFilter_deny _ _

/-- A query is answered before the lookup by a filter, or from the data held here. -/
theorem earlyResponse_cases {response : Response} (h : d.earlyResponse q = some response) :
    response.fromFilter = true ∨ ∃ answer, response = .hosted answer := by
  unfold earlyResponse at h
  rcases Option.or_eq_some_iff.mp h with h | ⟨_, h⟩
  · exact .inl (fromFilter_policyResponse h)
  rcases Option.or_eq_some_iff.mp h with h | ⟨_, h⟩
  · exact .inl (fromFilter_groupResponse h)
  rcases Option.or_eq_some_iff.mp h with h | ⟨_, h⟩
  · obtain ⟨hit, _, hresponse⟩ := Option.bind_eq_some_iff.mp h
    split at hresponse <;> cases hresponse
    exact .inl rfl
  · obtain ⟨answer, _, hresponse⟩ := Option.map_eq_some_iff.mp h
    exact .inr ⟨answer, hresponse.symm⟩

theorem fromFilter_cnameResponse {answers : List AnswerRecord} {response : Response}
    (h : d.cnameResponse q answers = some response) : response.fromFilter = true := by
  unfold cnameResponse at h
  split at h
  · obtain ⟨name, _, hname⟩ := List.exists_of_findSome?_eq_some h
    dsimp only at hname
    split at hname
    · cases hname
    split at hname
    · cases hname
      exact fromFilter_deny _ _
    · obtain ⟨decision, _, hdenied⟩ := Option.map_eq_some_iff.mp hname
      cases hdenied
      exact fromFilter_deny _ _
  · cases h

theorem fromFilter_withheld {answers : List AnswerRecord} {response : Response}
    (h : d.withheld q effort answers = some response) : response.fromFilter = true := by
  unfold withheld at h
  rcases Option.or_eq_some_iff.mp h with h | ⟨_, h⟩
  · exact fromFilter_cnameResponse h
  rcases Option.or_eq_some_iff.mp h with h | ⟨_, h⟩
  · unfold rpzAnswerResponse at h
    split at h
    · obtain ⟨hit, _, hresponse⟩ := Option.bind_eq_some_iff.mp h
      split at hresponse <;> cases hresponse
      rfl
    · cases h
  · obtain ⟨reason, _, hresponse⟩ := Option.map_eq_some_iff.mp h
    cases hresponse
    rfl

/-! Which responses come from where. -/

/-- Data held here is sent before the lookup or not at all. -/
theorem earlyResponse_of_hosted {answer : LocalAnswer} (h : d.handleRequest q effort = .hosted answer) :
    d.earlyResponse q = some (.hosted answer) := by
  unfold handleRequest at h
  cases hearly : d.earlyResponse q with
  | some response =>
    simp only [hearly] at h
    rw [h]
  | none =>
    simp only [hearly] at h
    split at h
    · cases h
    split at h
    · unfold answerFound at h
      split at h
      next response hwithheld =>
        rw [h] at hwithheld
        exact absurd (fromFilter_withheld hwithheld) Bool.false_ne_true
      next =>
        dsimp only at h
        split at h <;> cases h
    · unfold answerFailed at h
      dsimp only at h
      split at h
      · cases h
      split at h
      · split at h <;> cases h
      · cases h

theorem carries_of_reaches (hfound : d.resolver.lookupForClient q.asker.client q.qname .a = .ok found)
    (hdns64 : d.dns64For q = some dns64) (hown : NoAaaa d q effort) (hreaches : ReachesSynthesis d q effort)
    (hmapped : found.answers.any (mapped dns64) = true) :
    CarriesSynthesized dns64 found.answers (d.handleRequest q.forAaaa effort) := by
  have hcapacity : (effort.synthesisPermit && effort.synthesisInTime && found.answers.any (mapped dns64)) = true := by
    rw [hreaches.synthesisPermit, hreaches.synthesisInTime, hmapped]
    rfl
  have hnodata := hreaches.nodata
  unfold handleRequest
  simp only [hreaches.early, hreaches.permit, Bool.not_true, Bool.false_eq_true, if_false]
  cases hlookup : d.lookup q.forAaaa effort with
  | ok own =>
    rw [hlookup] at hnodata
    dsimp only
    rw [answerFound_of_nodata hfound hdns64 (hown own hlookup) hnodata.1 hnodata.2, if_pos hcapacity]
    obtain ⟨record, hrecord, v4, v6, hdata, hv6, other, hother, hname, hmade⟩ :=
      carries_synthesizeRecord (negativeTtl own.authorities) hmapped
    exact ⟨_, _, _, _, rfl, record, hrecord, v4, v6, hdata, hv6, other, mem_orderCnameChain.mpr hother, hname, hmade⟩
  | error e =>
    rw [hlookup] at hnodata
    dsimp only
    rw [answerFailed_of_nodata hfound hdns64 hnodata hcapacity]
    exact ⟨_, _, _, _, rfl, carries_synthesizeRecord _ hmapped⟩

/-- A lookup that succeeded is answered by its own records or by those that DNS64 makes. -/
theorem answerFound_cases (hfound : d.resolver.lookupForClient q.asker.client q.qname .a = .ok found)
    (hdns64 : d.dns64For q = some dns64) {own : Lookup}
    (hown : ∀ record ∈ own.answers, ∀ ip, record.data ≠ .aaaa ip) {code : Nat}
    {records authorities additionals : List AnswerRecord}
    (hresponse : d.answerFound q.forAaaa effort own = .recursive code records authorities additionals) :
    d.withheld q.forAaaa effort own.answers = none ∧
      (records = orderCnameChain q.qname own.answers ∨
        own.responseCode = noError ∧
        (effort.synthesisPermit && effort.synthesisInTime && found.answers.any (mapped dns64)) = true ∧
        records = orderCnameChain q.qname
          (found.answers.filterMap (synthesizeRecord dns64 (negativeTtl own.authorities)))) := by
  cases hwithheld : d.withheld q.forAaaa effort own.answers with
  | some response =>
    unfold answerFound at hresponse
    simp only [hwithheld] at hresponse
    have hfilter := fromFilter_withheld hwithheld
    rw [hresponse] at hfilter
    cases hfilter
  | none =>
    refine ⟨rfl, ?_⟩
    by_cases hcode : own.responseCode = noError
    · rw [answerFound_of_nodata hfound hdns64 hown hwithheld hcode] at hresponse
      cases hcapacity : effort.synthesisPermit && effort.synthesisInTime && found.answers.any (mapped dns64) with
      | false =>
        rw [hcapacity, if_neg (by decide)] at hresponse
        cases hresponse
        exact .inl rfl
      | true =>
        rw [hcapacity, if_pos rfl] at hresponse
        cases hresponse
        exact .inr ⟨hcode, rfl, rfl⟩
    · unfold answerFound at hresponse
      simp only [hwithheld, hcode, false_and, and_false, if_false, Option.bind_none] at hresponse
      cases hresponse
      exact .inl rfl

/-- A lookup that gave no answer is answered by records only through DNS64. -/
theorem answerFailed_cases (hfound : d.resolver.lookupForClient q.asker.client q.qname .a = .ok found)
    (hdns64 : d.dns64For q = some dns64) {e : ResolutionError} {code : Nat}
    {records authorities additionals : List AnswerRecord}
    (hresponse : d.answerFailed q.forAaaa effort e = .recursive code records authorities additionals) :
    e.responseCode = some noError ∧
      (effort.synthesisPermit && effort.synthesisInTime && found.answers.any (mapped dns64)) = true ∧
      records = found.answers.filterMap (synthesizeRecord dns64 (negativeTtl [])) := by
  by_cases hcode : e.responseCode = some noError
  · cases hcapacity : effort.synthesisPermit && effort.synthesisInTime && found.answers.any (mapped dns64) with
    | true =>
      rw [answerFailed_of_nodata hfound hdns64 hcode hcapacity] at hresponse
      cases hresponse
      exact ⟨hcode, rfl, rfl⟩
    | false =>
      unfold answerFailed at hresponse
      simp only [hcode, dns64For_forAaaa, hdns64] at hresponse
      rw [if_pos ⟨rfl, rfl⟩, Option.bind_some, synthesizeAaaa_eq hfound, hcapacity, if_neg (by decide)] at hresponse
      dsimp only at hresponse
      split at hresponse
      · split at hresponse <;> cases hresponse
      · cases hresponse
  · have hgetD : e.responseCode.getD servFail ≠ noError := by
      cases hresponseCode : e.responseCode with
      | none => decide
      | some n =>
        intro hn
        exact hcode (hresponseCode.trans (congrArg some hn))
    unfold answerFailed at hresponse
    dsimp only at hresponse
    rw [if_neg (fun h => hgetD h.1), Option.bind_none] at hresponse
    dsimp only at hresponse
    split at hresponse
    · split at hresponse <;> cases hresponse
    · cases hresponse

/-- A response by recursion has the query's own answer, let through, or was made by DNS64. -/
theorem handleRequest_cases (hfound : d.resolver.lookupForClient q.asker.client q.qname .a = .ok found)
    (hdns64 : d.dns64For q = some dns64) (hown : NoAaaa d q effort) {code : Nat}
    {records authorities additionals : List AnswerRecord}
    (hresponse : d.handleRequest q.forAaaa effort = .recursive code records authorities additionals) :
    (∃ own : Lookup, d.lookup q.forAaaa effort = .ok own ∧ LetsThrough d q.forAaaa effort own.answers ∧
      records = orderCnameChain q.qname own.answers) ∨
      ReachesSynthesis d q effort ∧ found.answers.any (mapped dns64) = true := by
  unfold handleRequest at hresponse
  cases hearly : d.earlyResponse q.forAaaa with
  | some response =>
    simp only [hearly] at hresponse
    rw [hresponse] at hearly
    rcases earlyResponse_cases hearly with hfilter | ⟨answer, hhosted⟩
    · cases hfilter
    · cases hhosted
  | none =>
    simp only [hearly] at hresponse
    cases hpermit : effort.permit with
    | false =>
      rw [hpermit] at hresponse
      cases hresponse
    | true =>
      rw [hpermit] at hresponse
      simp only [Bool.not_true, Bool.false_eq_true, if_false] at hresponse
      cases hlookup : d.lookup q.forAaaa effort with
      | ok own =>
        rw [hlookup] at hresponse
        obtain ⟨hwithheld, hplain | ⟨hcode, hcapacity, _⟩⟩ :=
          answerFound_cases hfound hdns64 (hown own hlookup) hresponse
        · exact .inl ⟨own, rfl, .found hearly hpermit hlookup hwithheld, hplain⟩
        · rw [Bool.and_eq_true, Bool.and_eq_true] at hcapacity
          refine .inr ⟨⟨hearly, hpermit, ?_, hcapacity.1.1, hcapacity.1.2⟩, hcapacity.2⟩
          rw [hlookup]
          exact ⟨hwithheld, hcode⟩
      | error e =>
        rw [hlookup] at hresponse
        obtain ⟨hcode, hcapacity, _⟩ := answerFailed_cases hfound hdns64 hresponse
        rw [Bool.and_eq_true, Bool.and_eq_true] at hcapacity
        refine .inr ⟨⟨hearly, hpermit, ?_, hcapacity.1.1, hcapacity.1.2⟩, hcapacity.2⟩
        rw [hlookup]
        exact hcode

/-- A response with such an address went through DNS64. -/
theorem reaches_of_carries (hfound : d.resolver.lookupForClient q.asker.client q.qname .a = .ok found)
    (hdns64 : d.dns64For q = some dns64) (hown : NoAaaa d q effort)
    (h : CarriesSynthesized dns64 found.answers (d.handleRequest q.forAaaa effort)) :
    ReachesSynthesis d q effort ∧ found.answers.any (mapped dns64) = true := by
  obtain ⟨code, records, authorities, additionals, hresponse, record, hrecord, v4, v6, hdata, hv6, other, hother,
    hname, hmade⟩ := h
  rcases handleRequest_cases hfound hdns64 hown hresponse with ⟨own, hlookup, _, hplain⟩ | hreaches
  · rw [hplain, mem_orderCnameChain] at hother
    exact absurd hmade (hown own hlookup other hother v6)
  · exact hreaches

/-- A response with a CNAME of the chain has it from an answer that was let through, or
went through DNS64. -/
theorem letsThrough_of_carriesChain (hfound : d.resolver.lookupForClient q.asker.client q.qname .a = .ok found)
    (hdns64 : d.dns64For q = some dns64) (hown : NoAaaa d q effort)
    (h : CarriesChain found.answers (d.handleRequest q.forAaaa effort)) :
    (∃ own, LetsThrough d q.forAaaa effort own ∧ ∃ record ∈ own, OnChain found.answers record) ∨
      ReachesSynthesis d q effort ∧ found.answers.any (mapped dns64) = true := by
  obtain ⟨record, hrecord, hchain⟩ := h
  cases hresponse : d.handleRequest q.forAaaa effort with
  | hosted answer =>
    rw [hresponse] at hrecord
    exact .inl ⟨answer.answers, .hosted (earlyResponse_of_hosted hresponse), record, hrecord, hchain⟩
  | recursive code records authorities additionals =>
    rw [hresponse] at hrecord
    rcases handleRequest_cases hfound hdns64 hown hresponse with ⟨own, _, hlets, hplain⟩ | hreaches
    · rw [hplain] at hrecord
      exact .inl ⟨own.answers, hlets, record, mem_orderCnameChain.mp hrecord, hchain⟩
    · exact .inr hreaches
  | _ =>
    rw [hresponse] at hrecord
    cases hrecord

/-- A link of the chain in an answer that is let through is sent: with that answer, or
with the records that DNS64 makes, which keep every CNAME. -/
theorem carriesChain_of_letsThrough (hfound : d.resolver.lookupForClient q.asker.client q.qname .a = .ok found)
    (hdns64 : d.dns64For q = some dns64) (hown : NoAaaa d q effort) {own : List AnswerRecord}
    (hlets : LetsThrough d q.forAaaa effort own) {record : AnswerRecord} (hrecord : record ∈ own)
    (hchain : OnChain found.answers record) :
    CarriesChain found.answers (d.handleRequest q.forAaaa effort) := by
  cases hlets with
  | hosted hearly =>
    refine ⟨record, ?_, hchain⟩
    unfold handleRequest
    rw [hearly]
    exact hrecord
  | @found own hearly hpermit hlookup hwithheld =>
    unfold handleRequest
    simp only [hearly, hpermit, hlookup, Bool.not_true, Bool.false_eq_true, if_false]
    by_cases hcode : own.responseCode = noError
    · rw [answerFound_of_nodata hfound hdns64 (hown own hlookup) hwithheld hcode]
      split
      · obtain ⟨link, hlink, target, target', hdata, _, _, _, hleads⟩ := hchain
        refine ⟨link, mem_orderCnameChain.mpr ?_, link, hlink, target, target, hdata, hdata, ?_, ?_, hleads⟩
        · exact List.mem_filterMap.mpr ⟨link, hlink, by simp [synthesizeRecord, hdata]⟩
        · exact eqIgnoreAsciiCase_self _
        · exact eqIgnoreAsciiCase_self _
      · exact ⟨record, mem_orderCnameChain.mpr hrecord, hchain⟩
    · refine ⟨record, ?_, hchain⟩
      unfold answerFound
      simp only [hwithheld, hcode, false_and, and_false, if_false, Option.bind_none]
      exact mem_orderCnameChain.mpr hrecord

end Dispatcher

/-- A withheld IPv4 answer stays with the server exactly where the query for IPv6
addresses ends before DNS64, or DNS64 maps none of the addresses, and the answer that this
query is given without DNS64 has no CNAME of the chain. -/
theorem filters_cover_iff (d : Dispatcher) (q : ClientQuery) (effortA effort : Effort) :
    FiltersCover d q effortA effort ↔
      ∀ found dns64, WithholdsA d q effortA found → d.dns64For q = some dns64 → NoAaaa d q effort →
        (ReachesSynthesis d q effort → ∀ record ∈ found.answers, Dispatcher.mapped dns64 record = false) ∧
          ∀ own, LetsThrough d q.forAaaa effort own → ∀ record ∈ own, ¬ OnChain found.answers record := by
  constructor
  · intro hcover found dns64 hwithholds hdns64 hown
    obtain ⟨hnoAddress, hnoChain⟩ := hcover found dns64 hwithholds hdns64 hown
    refine ⟨fun hreaches record hrecord => ?_, fun own hlets record hrecord hchain => ?_⟩
    · cases hmapped : Dispatcher.mapped dns64 record with
      | false => rfl
      | true =>
        have hany : found.answers.any (Dispatcher.mapped dns64) = true :=
          List.any_eq_true.mpr ⟨record, hrecord, hmapped⟩
        exact absurd (Dispatcher.carries_of_reaches hwithholds.looked hdns64 hown hreaches hany) hnoAddress
    · exact hnoChain (Dispatcher.carriesChain_of_letsThrough hwithholds.looked hdns64 hown hlets hrecord hchain)
  · intro hcondition found dns64 hwithholds hdns64 hown
    obtain ⟨hnever, hnoChain⟩ := hcondition found dns64 hwithholds hdns64 hown
    have hsafe : ¬ (ReachesSynthesis d q effort ∧ found.answers.any (Dispatcher.mapped dns64) = true) := by
      rintro ⟨hreaches, hany⟩
      obtain ⟨record, hrecord, hmapped⟩ := List.any_eq_true.mp hany
      rw [hnever hreaches record hrecord] at hmapped
      cases hmapped
    constructor
    · intro hcarries
      exact hsafe (Dispatcher.reaches_of_carries hwithholds.looked hdns64 hown hcarries)
    · intro hcarries
      rcases Dispatcher.letsThrough_of_carriesChain hwithholds.looked hdns64 hown hcarries with
        ⟨own, hlets, record, hrecord, hchain⟩ | hreaches
      · exact hnoChain own hlets record hrecord hchain
      · exact hsafe hreaches

/-! A public name with a private address. -/

def rebindQuery : ClientQuery where
  asker := ⟨.v4 (BitVec.ofNat 32 0xc000022a), none, none⟩
  udp := true
  qname := "rebind.example.com".toList
  qtype := .aaaa
  validating := false
  now := ⟨2, 720⟩

def rebindAnswer : Lookup :=
  ⟨noError, [⟨"rebind.example.com.".toList, 60, .a (BitVec.ofNat 32 0xc0a8010a)⟩], [], []⟩

/-- Nothing but rebinding protection and DNS64 is on; the name has one IPv4 address. -/
def rebindDispatcher : Dispatcher where
  libs := plainLibraries
  policy := ⟨false, none, none, none, none, none, [], [], false, none, none⟩
  cnameInspection := false
  blocking := ⟨[], ⟨fun _ => none, ⟨[], []⟩, fun _ => none⟩⟩
  rpz := ⟨[]⟩
  config := some ⟨⟨true, "2001:db8:64::/96".toList, []⟩, [], true, ⟨false, [], []⟩⟩
  reputation := ⟨fun _ => none, fun _ => none⟩
  resolver := ⟨fun _ _ qtype => if qtype = .a then .ok rebindAnswer else .error ⟨some noError, none⟩,
    fun _ _ _ => none, fun _ => false⟩
  answerLocally := fun _ => none

def fullEffort : Effort := ⟨true, true, fun _ _ => true, true, true, true⟩

/-- DNS64 hands out the private address that rebinding protection withholds. -/
theorem rebinding_passes_dns64 : ¬ FiltersCover rebindDispatcher rebindQuery fullEffort fullEffort := by
  have hwithholds : WithholdsA rebindDispatcher rebindQuery fullEffort rebindAnswer := by
    refine ⟨rfl, rfl, rfl, rfl, ?_⟩
    decide
  have hdns64 : rebindDispatcher.dns64For rebindQuery =
      some ⟨⟨BitVec.ofNat 128 (0x20010db80064 * 2 ^ 80), 96⟩, []⟩ := by
    decide
  have hown : NoAaaa rebindDispatcher rebindQuery fullEffort := by
    intro found hfound
    cases hfound
  intro hcover
  apply (hcover rebindAnswer _ hwithholds hdns64 hown).1
  refine ⟨noError, _, _, _, rfl, _, List.mem_singleton.mpr rfl, _, _, rfl, rfl, ?_⟩
  exact ⟨_, List.mem_singleton.mpr rfl, rfl, rfl⟩

end DaygleDns.Dispatch
