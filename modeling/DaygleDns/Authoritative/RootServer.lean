import DaygleDns.Authoritative.RootAnswer

/-! What a root server answers, and that the copy of the root zone answers so. -/
namespace DaygleDns.Authoritative.Root

open Framing WireName

variable {R : Type} (wire : ZoneWire R) (records : List R)

def Delegated (label : Bytes) : Prop :=
  ∃ record ∈ records, owner wire record = [label] ∧ ∃ target, wire.data record = .ns target

/-- The root and the delegated names of one label. -/
def InChain (name : WireName) : Prop := name = [] ∨ ∃ label, name = [label] ∧ Delegated wire records label

/-- The next name of the chain, or the root behind the last. -/
def Follows (name next : WireName) : Prop :=
  (InChain wire records next ∧ canonicalKey name < canonicalKey next ∧
    ∀ other, InChain wire records other → canonicalKey name < canonicalKey other →
      canonicalKey next ≤ canonicalKey other) ∨
  (next = [] ∧ ∀ other, InChain wire records other → canonicalKey other ≤ canonicalKey name)

/-- A root zone: the SOA, the NS RRset, and the chain of the NSEC records. -/
structure RootList : Prop where
  soa : ∃ record, rrsetOf wire records [] .SOA = [record]
  ns : rrsetOf wire records [] .NS ≠ []
  owners : ∀ record ∈ records, ∀ next, wire.data record = .nsec next → InChain wire records (owner wire record)
  nsec : ∀ name, InChain wire records name → ∃ record next, rrsetOf wire records name .NSEC = [record] ∧
    wire.data record = .nsec next ∧ Follows wire records name next.toLowercase

/-- An NSEC record that matches a name, or covers it: the owner comes before the name, and the next owner
behind it, unless it is the last of the chain. -/
def Denies (record : R) (name : WireName) : Prop :=
  ∃ next, wire.data record = .nsec next ∧
    (owner wire record = name ∨
      canonicalKey (owner wire record) < canonicalKey name ∧
        (next.toLowercase = [] ∨ canonicalKey name < canonicalKey next.toLowercase))

/-- Every RRset with all its signatures, but for those that `exempt` names. -/
def CarriesSignatures (exempt : R → Prop) (message : List R) : Prop :=
  ∀ record ∈ message, (wire.data record).isRrsig = false → ¬exempt record →
    ∀ signature ∈ signaturesOf wire records (owner wire record) (wire.data record).recordType, signature ∈ message

/-- The records of a section that are not signatures. -/
def plain (message : List R) : List R := message.filter fun record => !(wire.data record).isRrsig

/-- The RRset, or that there is none, with the SOA. -/
structure FromZone (name : WireName) (rtype : RecordType) (response : Response R) : Prop where
  authoritative : response.authoritative = true
  noError : response.responseCode = .noError
  answers : plain wire response.answers = rrsetOf wire records name rtype
  nodata : rrsetOf wire records name rtype = [] → response.answers = [] ∧
    rrsetOf wire records [] .SOA ⊆ response.authorities

/-- The addresses in the zone of the name servers of a delegation. -/
def IsGlue (label : Bytes) (record : R) : Prop :=
  ∃ ns ∈ rrsetOf wire records [label] .NS, ∃ target, wire.data ns = .ns target ∧
    (record ∈ rrsetOf wire records target.toLowercase .A ∨ record ∈ rrsetOf wire records target.toLowercase .AAAA)

/-- The name servers of a delegation; beside them only the DS RRset or its denial. -/
structure Refers (label : Bytes) (response : Response R) : Prop where
  authoritative : response.authoritative = false
  noError : response.responseCode = .noError
  answers : response.answers = []
  ns : (plain wire response.authorities).filter (fun record => (wire.data record).recordType = .NS) =
    rrsetOf wire records [label] .NS
  others : ∀ record ∈ plain wire response.authorities, (wire.data record).recordType = .NS ∨
    record ∈ rrsetOf wire records [label] .DS ∨ record ∈ rrsetOf wire records [label] .NSEC
  glue : ∀ record, record ∈ response.additionals ↔ IsGlue wire records label record

/-- What a root server answers to a query for a name in lower case. -/
structure AnswersAsRoot (qname : WireName) (rtype : RecordType) (dnssec : Bool) (response : Response R) : Prop where
  nxDomain : response.responseCode = .nxDomain ↔ ∃ front label, qname = front ++ [label] ∧ ¬Delegated wire records label
  denial : response.responseCode = .nxDomain → response.authoritative = true ∧ response.answers = [] ∧
    rrsetOf wire records [] .SOA ⊆ response.authorities
  apex : qname = [] → FromZone wire records [] rtype response
  ds : ∀ label, qname = [label] → Delegated wire records label → rtype = .DS →
    FromZone wire records [label] .DS response
  referral : ∀ front label, qname = front ++ [label] → Delegated wire records label → ¬(front = [] ∧ rtype = .DS) →
    Refers wire records label response
  signed : dnssec = true → CarriesSignatures wire records (fun _ => False) response.answers ∧
    CarriesSignatures wire records
      (fun record => response.authoritative = false ∧ (wire.data record).recordType = .NS) response.authorities
  denied : dnssec = true → response.responseCode = .nxDomain ∨ response.authoritative = true ∧ response.answers = [] →
    ∃ record ∈ response.authorities, Denies wire record qname
  wildcard : dnssec = true → response.responseCode = .nxDomain → ∃ record ∈ response.authorities, Denies wire record [[42]]
  unsigned : dnssec = true → ∀ front label, qname = front ++ [label] → response.authoritative = false →
    rrsetOf wire records [label] .DS = [] → ∃ record ∈ response.authorities, Denies wire record [label]

variable {wire records}

theorem mem_rrsetOf {name : WireName} {rtype : RecordType} {record : R} :
    record ∈ rrsetOf wire records name rtype ↔ record ∈ records ∧ owner wire record = name ∧
      (wire.data record).recordType = rtype ∧ (wire.data record).isRrsig = false := by
  simp [rrsetOf]

theorem mem_signaturesOf {name : WireName} {rtype : RecordType} {record : R} :
    record ∈ signaturesOf wire records name rtype ↔
      record ∈ records ∧ owner wire record = name ∧ wire.data record = .rrsig rtype := by
  simp [signaturesOf]

/-! The closest NSEC record. -/

theorem RootList.nsec_rrset (h : RootList wire records) {record : R} {next : WireName} (hrecord : record ∈ records)
    (hdata : wire.data record = .nsec next) :
    rrsetOf wire records (owner wire record) .NSEC = [record] ∧ Follows wire records (owner wire record) next.toLowercase := by
  obtain ⟨found, following, hfound, hnext, hfollows⟩ := h.nsec (owner wire record) (h.owners record hrecord next hdata)
  have hmem : record ∈ rrsetOf wire records (owner wire record) .NSEC :=
    mem_rrsetOf.mpr ⟨hrecord, rfl, by rw [hdata]; rfl, by rw [hdata]; rfl⟩
  rw [hfound, List.mem_singleton] at hmem
  rw [← hmem, hdata] at hnext
  injection hnext with hnext
  rw [hnext]
  exact ⟨by rw [hfound, hmem], hfollows⟩

theorem not_inChain {label : Bytes} (h : ¬Delegated wire records label) : ¬InChain wire records [label] := by
  rintro (hroot | ⟨other, hsame, hdelegated⟩)
  · cases hroot
  · injection hsame with hsame
    exact h (hsame ▸ hdelegated)

/-- The chain has a row for each of its names. -/
theorem RootList.row (h : RootList wire records) {name : WireName} (hchain : InChain wire records name) :
    ∃ row ∈ (Indexes.ofRecords wire records).nsecs.rows, row.1 = name := by
  obtain ⟨record, next, hrrset, hdata, -⟩ := h.nsec name hchain
  have hmem : record ∈ rrsetOf wire records name .NSEC := hrrset ▸ List.mem_singleton_self record
  obtain ⟨hrecord, howner, -⟩ := mem_rrsetOf.mp hmem
  rw [← howner]
  exact Indexes.nsecs_of_nsec wire hrecord hdata

/-- An NSEC record whose owner is the last of the chain before a label that is not delegated covers the label
and the names below it. -/
theorem RootList.denies_below (h : RootList wire records) {record : R} {next : WireName} {label : Bytes}
    (hrecord : record ∈ records) (hdata : wire.data record = .nsec next) (hnot : ¬Delegated wire records label)
    (hle : canonicalKey (owner wire record) ≤ canonicalKey [label])
    (hlast : ∀ name, InChain wire records name → canonicalKey name ≤ canonicalKey [label] →
      canonicalKey name ≤ canonicalKey (owner wire record)) (front : WireName) :
    Denies wire record (front ++ [label]) := by
  have howner : owner wire record ≠ [label] := fun hsame => not_inChain hnot (hsame ▸ h.owners record hrecord next hdata)
  have hlt : canonicalKey (owner wire record) < canonicalKey [label] :=
    lt_of_le_of_ne hle fun hsame => howner (canonicalKey_injective hsame)
  refine ⟨next, hdata, .inr ⟨lt_of_lt_of_le hlt (canonicalKey_le_below front label), ?_⟩⟩
  rcases (h.nsec_rrset hrecord hdata).2 with ⟨hchain, hnext, -⟩ | ⟨hroot, -⟩
  · have hbehind : canonicalKey [label] < canonicalKey next.toLowercase :=
      not_le.mp fun hbefore => absurd hnext (not_lt.mpr (hlast _ hchain hbefore))
    rcases hchain with hroot | ⟨following, hfollowing, -⟩
    · exact .inl hroot
    · rw [hfollowing] at hbehind ⊢
      exact .inr (canonicalKey_below_lt front hbehind)
  · exact .inl hroot

/-- The closest NSEC record of a name of the chain is its own, and that of another name of one label covers it
and the names below it. -/
theorem RootList.coveringNsec (h : RootList wire records) (name : WireName) :
    ∃ record, (Indexes.ofRecords wire records).coveringNsec name = some record ∧
      rrsetOf wire records (owner wire record) .NSEC = [record] ∧
      (InChain wire records name → Denies wire record name) ∧
      (∀ label, name = [label] → ¬Delegated wire records label → ∀ front, Denies wire record (front ++ [label])) := by
  obtain ⟨first, hfirst, hroot⟩ := h.row (.inl rfl)
  have hsome : ((Indexes.ofRecords wire records).nsecs.floor (canonicalKey name)).isSome :=
    OrderedTable.floor_isSome hfirst (by rw [hroot]; exact canonicalKey_nil_le name)
  obtain ⟨row, hrow⟩ := Option.isSome_iff_exists.mp hsome
  obtain ⟨hmem, hle, hgreatest⟩ := OrderedTable.floor_spec hrow
  obtain ⟨hrecord, howner, next, hdata⟩ := Indexes.nsec_of_mem_nsecs wire hmem
  rw [howner] at hle hgreatest
  have hlast (other : WireName) (hchain : InChain wire records other) (hother : canonicalKey other ≤ canonicalKey name) :
      canonicalKey other ≤ canonicalKey (owner wire row.2) := by
    obtain ⟨found, hfound, rfl⟩ := h.row hchain
    exact hgreatest found hfound hother
  refine ⟨row.2, by rw [Indexes.coveringNsec, hrow]; rfl, (h.nsec_rrset hrecord hdata).1, ?_, ?_⟩
  · intro hchain
    exact ⟨next, hdata, .inl (canonicalKey_injective (le_antisymm hle (hlast name hchain le_rfl)))⟩
  · rintro label rfl hnot front
    exact h.denies_below hrecord hdata hnot hle hlast front

/-! The sections. -/

theorem signed_eq (name : WireName) (rtype : RecordType) (dnssec : Bool) :
    (Indexes.ofRecords wire records).signed name rtype dnssec =
      if dnssec = true ∧ rrsetOf wire records name rtype ≠ [] then
        rrsetOf wire records name rtype ++ signaturesOf wire records name rtype
      else rrsetOf wire records name rtype := by
  simp only [Indexes.signed, Indexes.rrset_ofRecords, Indexes.signatures_ofRecords]

theorem signed_eq_nil {name : WireName} {rtype : RecordType} {dnssec : Bool} :
    (Indexes.ofRecords wire records).signed name rtype dnssec = [] ↔ rrsetOf wire records name rtype = [] := by
  rw [signed_eq]
  split
  next h => simp [h.2]
  next => rfl

theorem rrsetOf_subset_signed (name : WireName) (rtype : RecordType) (dnssec : Bool) :
    rrsetOf wire records name rtype ⊆ (Indexes.ofRecords wire records).signed name rtype dnssec := by
  rw [signed_eq]
  split
  · exact List.subset_append_left _ _
  · exact List.Subset.refl _

theorem plain_rrsetOf (name : WireName) (rtype : RecordType) :
    plain wire (rrsetOf wire records name rtype) = rrsetOf wire records name rtype := by
  rw [plain, List.filter_eq_self]
  intro record hrecord
  simp [(mem_rrsetOf.mp hrecord).2.2.2]

theorem plain_signaturesOf (name : WireName) (rtype : RecordType) :
    plain wire (signaturesOf wire records name rtype) = [] := by
  rw [plain, List.filter_eq_nil_iff]
  intro record hrecord
  simp [(mem_signaturesOf.mp hrecord).2.2, RecordData.isRrsig]

theorem plain_append (first second : List R) : plain wire (first ++ second) = plain wire first ++ plain wire second :=
  List.filter_append ..

theorem plain_signed (name : WireName) (rtype : RecordType) (dnssec : Bool) :
    plain wire ((Indexes.ofRecords wire records).signed name rtype dnssec) = rrsetOf wire records name rtype := by
  rw [signed_eq]
  split
  · rw [plain_append, plain_rrsetOf, plain_signaturesOf, List.append_nil]
  · exact plain_rrsetOf name rtype

variable {exempt : R → Prop}

theorem carriesSignatures_nil : CarriesSignatures wire records exempt [] := by
  intro record hrecord
  cases hrecord

theorem CarriesSignatures.append {first second : List R} (hfirst : CarriesSignatures wire records exempt first)
    (hsecond : CarriesSignatures wire records exempt second) : CarriesSignatures wire records exempt (first ++ second) := by
  intro record hrecord hplain hexempt signature hsignature
  rcases List.mem_append.mp hrecord with hrecord | hrecord
  · exact List.mem_append_left _ (hfirst record hrecord hplain hexempt signature hsignature)
  · exact List.mem_append_right _ (hsecond record hrecord hplain hexempt signature hsignature)

theorem carriesSignatures_of_exempt {message : List R} (h : ∀ record ∈ message, exempt record) :
    CarriesSignatures wire records exempt message :=
  fun record hrecord _ hnot => absurd (h record hrecord) hnot

theorem carriesSignatures_signed (name : WireName) (rtype : RecordType) :
    CarriesSignatures wire records exempt ((Indexes.ofRecords wire records).signed name rtype true) := by
  intro record hrecord hplain _ signature hsignature
  have hrrset : record ∈ rrsetOf wire records name rtype := by
    rw [← plain_signed name rtype true]
    exact List.mem_filter.mpr ⟨hrecord, by simp [hplain]⟩
  obtain ⟨-, howner, htype, -⟩ := mem_rrsetOf.mp hrrset
  rw [howner, htype] at hsignature
  rw [signed_eq, if_pos ⟨rfl, List.ne_nil_of_mem hrrset⟩]
  exact List.mem_append_right _ hsignature

theorem carriesSignatures_denials (names added : List WireName) :
    CarriesSignatures wire records exempt ((Indexes.ofRecords wire records).denials wire added names) := by
  induction names generalizing added with
  | nil => exact carriesSignatures_nil
  | cons name names ih =>
    rw [Indexes.denials]
    split
    · exact ih added
    · split
      · exact ih added
      · exact (carriesSignatures_signed _ _).append (ih _)

/-- A closest NSEC record is among the denials, unless its RRset is there already. -/
theorem mem_denials {names added : List WireName} {name : WireName} {record : R} (hname : name ∈ names)
    (hcovering : (Indexes.ofRecords wire records).coveringNsec name = some record)
    (hrrset : rrsetOf wire records (owner wire record) .NSEC = [record]) (hnew : owner wire record ∉ added) :
    record ∈ (Indexes.ofRecords wire records).denials wire added names := by
  induction names generalizing added with
  | nil => cases hname
  | cons first names ih =>
    rw [Indexes.denials]
    split
    next hnone =>
      rcases List.mem_cons.mp hname with rfl | hrest
      · rw [hcovering] at hnone
        cases hnone
      · exact ih hrest hnew
    next found hfound =>
      have hown (h : owner wire found = owner wire record) :
          record ∈ (Indexes.ofRecords wire records).signed (owner wire found) .NSEC true := by
        apply rrsetOf_subset_signed
        rw [h, hrrset]
        exact List.mem_singleton_self record
      rcases List.mem_cons.mp hname with rfl | hrest
      · rw [hcovering] at hfound
        injection hfound with hfound
        rw [if_neg (hfound ▸ hnew)]
        exact List.mem_append_left _ (hown (by rw [hfound]))
      · split
        · exact ih hrest hnew
        · by_cases hsame : owner wire found = owner wire record
          · exact List.mem_append_left _ (hown hsame)
          · apply List.mem_append_right
            apply ih hrest
            rw [List.mem_cons, not_or]
            exact ⟨Ne.symm hsame, hnew⟩

theorem apexNegative_authorities (response : Response R) (dnssec : Bool) (names : List WireName)
    (h : response.authorities = []) :
    ((Indexes.ofRecords wire records).apexNegative wire dnssec names response).authorities =
      (Indexes.ofRecords wire records).signed [] .SOA dnssec ++
        if dnssec then (Indexes.ofRecords wire records).denials wire [] names else [] := by
  rw [Indexes.apexNegative, h, List.nil_append]

theorem soa_apexNegative (response : Response R) (dnssec : Bool) (names : List WireName) (h : response.authorities = []) :
    rrsetOf wire records [] .SOA ⊆
      ((Indexes.ofRecords wire records).apexNegative wire dnssec names response).authorities := by
  rw [apexNegative_authorities response dnssec names h]
  exact List.subset_append_of_subset_left _ (rrsetOf_subset_signed [] .SOA dnssec)

theorem carriesSignatures_apexNegative (response : Response R) (names : List WireName) (h : response.authorities = []) :
    CarriesSignatures wire records exempt
      ((Indexes.ofRecords wire records).apexNegative wire true names response).authorities := by
  rw [apexNegative_authorities response true names h]
  exact (carriesSignatures_signed [] .SOA).append (carriesSignatures_denials names [])

theorem RootList.denied (h : RootList wire records) (response : Response R) {names : List WireName} {name : WireName}
    (hname : name ∈ names) (hempty : response.authorities = []) :
    ∃ record ∈ ((Indexes.ofRecords wire records).apexNegative wire true names response).authorities,
      (InChain wire records name → Denies wire record name) ∧
      (∀ label, name = [label] → ¬Delegated wire records label → ∀ front, Denies wire record (front ++ [label])) := by
  obtain ⟨record, hcovering, hrrset, hdenies⟩ := h.coveringNsec name
  refine ⟨record, ?_, hdenies⟩
  rw [apexNegative_authorities response true names hempty]
  exact List.mem_append_right _ (mem_denials hname hcovering hrrset List.not_mem_nil)

/-- An answer from the zone itself. -/
theorem RootList.atOwner (h : RootList wire records) {name : WireName} (rtype : RecordType) (dnssec : Bool)
    {response : Response R} (hchain : InChain wire records name) (hcode : response.responseCode = .noError)
    (hanswers : response.answers = []) (hempty : response.authorities = []) :
    let answered := (Indexes.ofRecords wire records).atOwner wire dnssec name rtype response
    FromZone wire records name rtype answered ∧
      (dnssec = true → CarriesSignatures wire records (fun _ => False) answered.answers ∧
        CarriesSignatures wire records exempt answered.authorities ∧
        (answered.answers = [] → ∃ record ∈ answered.authorities, Denies wire record name)) := by
  intro answered
  have hanswered : answered = (Indexes.ofRecords wire records).atOwner wire dnssec name rtype response := rfl
  rw [Indexes.atOwner] at hanswered
  by_cases hnone : rrsetOf wire records name rtype = []
  · rw [if_pos (signed_eq_nil.mpr hnone)] at hanswered
    rw [hanswered]
    refine ⟨⟨rfl, hcode, ?_, fun _ => ⟨hanswers, soa_apexNegative _ dnssec [name] hempty⟩⟩, ?_⟩
    · rw [hnone, Indexes.apexNegative, hanswers]
      rfl
    · rintro rfl
      refine ⟨?_, carriesSignatures_apexNegative _ [name] hempty, fun _ => ?_⟩
      · rw [Indexes.apexNegative, hanswers]
        exact carriesSignatures_nil
      · obtain ⟨record, hrecord, hdenies, -⟩ := h.denied _ (List.mem_singleton_self name) hempty
        exact ⟨record, hrecord, hdenies hchain⟩
  · rw [if_neg (mt signed_eq_nil.mp hnone), hanswers, List.nil_append] at hanswered
    rw [hanswered]
    refine ⟨⟨rfl, hcode, plain_signed name rtype dnssec, fun h => absurd h hnone⟩, ?_⟩
    rintro rfl
    refine ⟨carriesSignatures_signed name rtype, by rw [hempty]; exact carriesSignatures_nil, fun hnil => ?_⟩
    exact absurd (signed_eq_nil.mp hnil) hnone

theorem mem_glue {label : Bytes} {record : R} :
    record ∈ (Indexes.ofRecords wire records).glue wire (rrsetOf wire records [label] .NS) ↔
      IsGlue wire records label record := by
  rw [Indexes.glue, List.mem_flatMap, IsGlue]
  refine exists_congr fun ns => and_congr_right fun _ => ?_
  cases hdata : wire.data ns with
  | ns target => simp [Indexes.rrset_ofRecords]
  | _ => simp

theorem filter_ns_rrsetOf {name : WireName} {rtype : RecordType} :
    (rrsetOf wire records name rtype).filter (fun record => (wire.data record).recordType = .NS) =
      if rtype = .NS then rrsetOf wire records name rtype else [] := by
  split
  next h =>
    rw [List.filter_eq_self]
    intro record hrecord
    exact decide_eq_true ((mem_rrsetOf.mp hrecord).2.2.1.trans h)
  next h =>
    rw [List.filter_eq_nil_iff]
    intro record hrecord
    rw [decide_eq_true_eq, (mem_rrsetOf.mp hrecord).2.2.1]
    exact h

/-- The type of the RRset that a referral carries with the name servers. -/
def proofType (wire : ZoneWire R) (records : List R) (label : Bytes) : RecordType :=
  if (rrsetOf wire records [label] .DS).isEmpty then .NSEC else .DS

theorem proofType_ne_ns (label : Bytes) : proofType wire records label ≠ .NS := by
  rw [proofType]
  split <;> decide

theorem referral_authorities (label : Bytes) (dnssec : Bool) {response : Response R} (h : response.authorities = []) :
    ((Indexes.ofRecords wire records).referral wire dnssec [label] response).authorities =
      rrsetOf wire records [label] .NS ++
        if dnssec then (Indexes.ofRecords wire records).signed [label] (proofType wire records label) true else [] := by
  rw [Indexes.referral, h, Indexes.rrset_ofRecords, List.nil_append]
  cases dnssec with
  | false => rfl
  | true =>
    rw [if_neg Bool.true_eq_false.mp, if_pos rfl, proofType]
    by_cases hds : rrsetOf wire records [label] .DS = []
    · rw [if_pos (signed_eq_nil.mpr hds), if_pos (List.isEmpty_iff.mpr hds)]
    · rw [if_neg (mt signed_eq_nil.mp hds), if_neg (mt List.isEmpty_iff.mp hds)]

/-- A referral to a delegation. -/
theorem RootList.referral (h : RootList wire records) {label : Bytes} (dnssec : Bool) {response : Response R}
    (hdelegated : Delegated wire records label) (hcode : response.responseCode = .noError)
    (hauthoritative : response.authoritative = false) (hanswers : response.answers = [])
    (hempty : response.authorities = []) (hadditionals : response.additionals = []) :
    let answered := (Indexes.ofRecords wire records).referral wire dnssec [label] response
    Refers wire records label answered ∧
      (dnssec = true →
        CarriesSignatures wire records (fun record => (wire.data record).recordType = .NS) answered.authorities ∧
        (rrsetOf wire records [label] .DS = [] → ∃ record ∈ answered.authorities, Denies wire record [label])) := by
  intro answered
  have hauthorities : answered.authorities = _ := referral_authorities label dnssec hempty
  have hplain : plain wire answered.authorities = rrsetOf wire records [label] .NS ++
      if dnssec then rrsetOf wire records [label] (proofType wire records label) else [] := by
    rw [hauthorities, plain_append, plain_rrsetOf]
    cases dnssec with
    | false => rfl
    | true => exact congrArg _ (plain_signed [label] (proofType wire records label) true)
  refine ⟨⟨hauthoritative, hcode, hanswers, ?_, ?_, ?_⟩, ?_⟩
  · rw [hplain, List.filter_append, filter_ns_rrsetOf, if_pos rfl]
    cases dnssec with
    | false => exact List.append_nil _
    | true =>
      rw [if_pos rfl, filter_ns_rrsetOf, if_neg (proofType_ne_ns label)]
      exact List.append_nil _
  · intro record hrecord
    rw [hplain, List.mem_append] at hrecord
    rcases hrecord with hns | hproof
    · exact .inl (mem_rrsetOf.mp hns).2.2.1
    · cases dnssec with
      | false => cases hproof
      | true =>
        rw [if_pos rfl, proofType] at hproof
        split at hproof
        · exact .inr (.inr hproof)
        · exact .inr (.inl hproof)
  · intro record
    have hglue : answered.additionals = (Indexes.ofRecords wire records).glue wire (rrsetOf wire records [label] .NS) := by
      rw [← Indexes.rrset_ofRecords]
      exact congrArg (· ++ _) hadditionals
    rw [hglue]
    exact mem_glue
  · rintro rfl
    rw [hauthorities, if_pos rfl]
    constructor
    · apply (carriesSignatures_of_exempt _).append (carriesSignatures_signed _ _)
      exact fun record hrecord => (mem_rrsetOf.mp hrecord).2.2.1
    · intro hds
      obtain ⟨record, next, hrrset, hdata, -⟩ := h.nsec [label] (.inr ⟨label, rfl, hdelegated⟩)
      have hmem : record ∈ rrsetOf wire records [label] .NSEC := hrrset ▸ List.mem_singleton_self record
      refine ⟨record, List.mem_append_right _ ?_, next, hdata, .inl (mem_rrsetOf.mp hmem).2.1⟩
      rw [proofType, if_pos (List.isEmpty_iff.mpr hds)]
      exact rrsetOf_subset_signed _ _ _ hmem

/-! The name that a query is about. -/

theorem trimTo_snoc (front : WireName) (label : Bytes) : trimTo 1 (front ++ [label]) = [label] := by
  rw [trimTo]
  split
  next h =>
    cases front with
    | nil => rfl
    | cons first front =>
      simp only [numLabels, List.cons_append, List.length_cons, List.length_append, List.length_nil] at h
      split at h <;> omega
  next => simp

theorem mem_tlds {label : Bytes} :
    [label] ∈ (Indexes.ofRecords wire records).tlds ↔ label ≠ [42] ∧ Delegated wire records label := by
  have hone : numLabels [label] = 1 ↔ label ≠ [42] := by
    by_cases h : label = [42]
    · subst h
      decide
    · simp [numLabels, h]
  rw [Indexes.mem_tlds_ofRecords, hone]
  rfl

section Questions

variable {query : Query} {question : Question} (hquestion : query.queries.head? = some question)
  (hcode : query.opCode = .query) (hclass : question.queryClass = .in_)

include hquestion hcode hclass

theorem answer_root (h : question.name.toLowercase = []) :
    (Indexes.ofRecords wire records).answer wire query =
      (Indexes.ofRecords wire records).atOwner wire query.dnssec [] question.queryType
        { query.response with queries := [question] } := by
  simp [Indexes.answer, hquestion, hcode, hclass, h]

theorem answer_below {front : WireName} {label : Bytes} (hname : question.name.toLowercase = front ++ [label]) :
    (Indexes.ofRecords wire records).answer wire query =
      if [label] ∉ (Indexes.ofRecords wire records).tlds then
        (Indexes.ofRecords wire records).apexNegative wire query.dnssec [[label], [[42]]]
          { query.response with queries := [question], authoritative := true, responseCode := .nxDomain }
      else if front = [] ∧ question.queryType = .DS then
        (Indexes.ofRecords wire records).atOwner wire query.dnssec [label] .DS
          { query.response with queries := [question] }
      else
        (Indexes.ofRecords wire records).referral wire query.dnssec [label]
          { query.response with queries := [question] } := by
  have hne : question.name.toLowercase ≠ [] := by
    rw [hname]
    exact List.append_ne_nil_of_right_ne_nil _ (List.cons_ne_nil label [])
  have htrim : trimTo 1 question.name.toLowercase = [label] := by rw [hname, trimTo_snoc]
  have hwhole : question.name.toLowercase = [label] ↔ front = [] := by
    rw [hname]
    exact List.append_left_eq_self
  simp only [Indexes.answer, hquestion, hcode, hclass, ne_eq, not_true_eq_false, if_false, hne, htrim, hwhole]

end Questions

/-! The cases of the answer. -/

theorem InChain.front {front : WireName} {label : Bytes} (h : InChain wire records (front ++ [label])) :
    front = [] ∧ Delegated wire records label := by
  rcases h with hroot | ⟨other, hsame, hdelegated⟩
  · exact absurd hroot (by simp)
  · rw [← List.nil_append [other], List.append_singleton_inj] at hsame
    exact ⟨hsame.1, hsame.2 ▸ hdelegated⟩

theorem RootList.zone_asRoot (h : RootList wire records) {name : WireName} {rtype : RecordType} (dnssec : Bool)
    {response : Response R} (hchain : InChain wire records name) (htype : name ≠ [] → rtype = .DS)
    (hcode : response.responseCode = .noError) (hanswers : response.answers = []) (hempty : response.authorities = []) :
    AnswersAsRoot wire records name rtype dnssec
      ((Indexes.ofRecords wire records).atOwner wire dnssec name rtype response) := by
  obtain ⟨hzone, hsigned⟩ := h.atOwner rtype dnssec hchain hcode hanswers hempty
  have hknown (hnx : ((Indexes.ofRecords wire records).atOwner wire dnssec name rtype response).responseCode = .nxDomain) :
      False := by
    rw [hzone.noError] at hnx
    cases hnx
  constructor
  case nxDomain =>
    constructor
    · exact fun hnx => (hknown hnx).elim
    · rintro ⟨front, label, rfl, hnot⟩
      exact absurd hchain.front.2 hnot
  case denial => exact fun hnx => (hknown hnx).elim
  case apex =>
    rintro rfl
    exact hzone
  case ds =>
    rintro label rfl - rfl
    exact hzone
  case referral =>
    rintro front label rfl - hnot
    exact absurd ⟨hchain.front.1, htype (by simp)⟩ hnot
  case signed => exact fun hdnssec => ⟨(hsigned hdnssec).1, (hsigned hdnssec).2.1⟩
  case denied =>
    rintro hdnssec (hnx | ⟨-, hnil⟩)
    · exact (hknown hnx).elim
    · exact (hsigned hdnssec).2.2 hnil
  case wildcard => exact fun _ hnx => (hknown hnx).elim
  case unsigned =>
    intro _ front label _ hreferral
    rw [hzone.authoritative] at hreferral
    cases hreferral

theorem RootList.unknown_asRoot (h : RootList wire records) {front : WireName} {label : Bytes} (rtype : RecordType)
    (dnssec : Bool) {response : Response R} (hnot : ¬Delegated wire records label)
    (hcode : response.responseCode = .nxDomain) (hauthoritative : response.authoritative = true)
    (hanswers : response.answers = []) (hempty : response.authorities = []) :
    AnswersAsRoot wire records (front ++ [label]) rtype dnssec
      ((Indexes.ofRecords wire records).apexNegative wire dnssec [[label], [[42]]] response) := by
  constructor
  case nxDomain => exact ⟨fun _ => ⟨front, label, rfl, hnot⟩, fun _ => hcode⟩
  case denial => exact fun _ => ⟨hauthoritative, hanswers, soa_apexNegative response dnssec _ hempty⟩
  case apex =>
    intro hroot
    exact absurd hroot (by simp)
  case ds =>
    intro other hname hdelegated
    rw [← List.nil_append [other], List.append_singleton_inj] at hname
    exact absurd (hname.2 ▸ hdelegated) hnot
  case referral =>
    intro other last hname hdelegated
    exact absurd ((List.append_singleton_inj.mp hname).2 ▸ hdelegated) hnot
  case signed =>
    rintro rfl
    refine ⟨?_, carriesSignatures_apexNegative response _ hempty⟩
    rw [Indexes.apexNegative, hanswers]
    exact carriesSignatures_nil
  case denied =>
    rintro rfl -
    obtain ⟨record, hrecord, -, hdenies⟩ := h.denied response (List.mem_cons_self : [label] ∈ [[label], [[42]]]) hempty
    exact ⟨record, hrecord, hdenies label rfl hnot front⟩
  case wildcard =>
    rintro rfl -
    obtain ⟨record, hrecord, hmatches, hcovers⟩ :=
      h.denied response (by simp : [[42]] ∈ [[label], [[42]]]) hempty
    refine ⟨record, hrecord, ?_⟩
    by_cases hstar : Delegated wire records [42]
    · exact hmatches (.inr ⟨[42], rfl, hstar⟩)
    · exact hcovers [42] rfl hstar []
  case unsigned =>
    intro _ _ _ _ hreferral
    have hreferral : response.authoritative = false := hreferral
    rw [hauthoritative] at hreferral
    cases hreferral

theorem RootList.referral_asRoot (h : RootList wire records) {front : WireName} {label : Bytes} {rtype : RecordType}
    (dnssec : Bool) {response : Response R} (hdelegated : Delegated wire records label)
    (hds : ¬(front = [] ∧ rtype = .DS)) (hcode : response.responseCode = .noError)
    (hauthoritative : response.authoritative = false) (hanswers : response.answers = [])
    (hempty : response.authorities = []) (hadditionals : response.additionals = []) :
    AnswersAsRoot wire records (front ++ [label]) rtype dnssec
      ((Indexes.ofRecords wire records).referral wire dnssec [label] response) := by
  obtain ⟨hrefers, hproofs⟩ := h.referral dnssec hdelegated hcode hauthoritative hanswers hempty hadditionals
  have hknown (hnx : ((Indexes.ofRecords wire records).referral wire dnssec [label] response).responseCode = .nxDomain) :
      False := by
    rw [hrefers.noError] at hnx
    cases hnx
  constructor
  case nxDomain =>
    constructor
    · exact fun hnx => (hknown hnx).elim
    · rintro ⟨other, last, hname, hnot⟩
      exact absurd ((List.append_singleton_inj.mp hname).2 ▸ hdelegated) hnot
  case denial => exact fun hnx => (hknown hnx).elim
  case apex =>
    intro hroot
    exact absurd hroot (by simp)
  case ds =>
    intro other hname _ htype
    rw [← List.nil_append [other], List.append_singleton_inj] at hname
    exact absurd ⟨hname.1, htype⟩ hds
  case referral =>
    intro other last hname _ _
    rw [← (List.append_singleton_inj.mp hname).2]
    exact hrefers
  case signed =>
    intro hdnssec
    constructor
    · rw [hrefers.answers]
      exact carriesSignatures_nil
    · intro record hrecord hplain hnot signature hsignature
      exact (hproofs hdnssec).1 record hrecord hplain (fun hns => hnot ⟨hrefers.authoritative, hns⟩) signature hsignature
  case denied =>
    rintro - (hnx | ⟨hauthority, -⟩)
    · exact (hknown hnx).elim
    · rw [hrefers.authoritative] at hauthority
      cases hauthority
  case wildcard => exact fun _ hnx => (hknown hnx).elim
  case unsigned =>
    intro hdnssec other last hname _ hnone
    rw [← (List.append_singleton_inj.mp hname).2] at hnone ⊢
    exact (hproofs hdnssec).2 hnone

/-- A copy of the root zone answers as a root server, but for names below a delegated `*`. -/
theorem RootZone.answers_as_root {records : List R} {checkedAt : UInt64} {zone : RootZone R}
    (hbuild : RootZone.build wire.toWire records checkedAt = .ok zone)
    (hlist : RootList wire (withoutRepeat wire.toWire records)) {query : Query} {question : Question}
    (hquestion : query.queries.head? = some question) (hcode : query.opCode = .query)
    (hclass : question.queryClass = .in_) :
    AnswersAsRoot wire (withoutRepeat wire.toWire records) question.name.toLowercase question.queryType query.dnssec
        (zone.answer wire query) ↔
      ¬∃ front, question.name.toLowercase = front ++ [[42]] ∧
        Delegated wire (withoutRepeat wire.toWire records) [42] := by
  have hrecords : zone.records = withoutRepeat wire.toWire records := by
    simp only [RootZone.build] at hbuild
    split at hbuild
    · cases hbuild
    · injection hbuild with hbuild
      rw [← hbuild]
  rw [RootZone.answer, hrecords]
  rcases List.eq_nil_or_concat' question.name.toLowercase with hroot | ⟨front, label, hname⟩
  · rw [answer_root hquestion hcode hclass hroot, hroot]
    refine iff_of_true (hlist.zone_asRoot query.dnssec (.inl rfl) (fun hne => absurd rfl hne) rfl rfl rfl) ?_
    rintro ⟨front, hsnoc, -⟩
    exact absurd hsnoc.symm (by simp)
  · rw [answer_below hquestion hcode hclass hname, hname]
    by_cases hdelegated : Delegated wire (withoutRepeat wire.toWire records) label
    · by_cases hstar : label = [42]
      · -- A `*` is not among the delegated names, for it has no labels.
        subst hstar
        rw [if_pos fun hmem => (mem_tlds.mp hmem).1 rfl]
        refine iff_of_false (fun hroot => ?_) (fun hnot => hnot ⟨front, rfl, hdelegated⟩)
        obtain ⟨other, last, hsame, hnot⟩ := hroot.nxDomain.mp rfl
        exact hnot ((List.append_singleton_inj.mp hsame).2 ▸ hdelegated)
      · rw [if_neg (not_not.mpr (mem_tlds.mpr ⟨hstar, hdelegated⟩))]
        refine iff_of_true ?_ ?_
        · split
          next hds =>
            rw [hds.1, hds.2]
            exact hlist.zone_asRoot query.dnssec (.inr ⟨label, rfl, hdelegated⟩) (fun _ => rfl) rfl rfl rfl
          next hds => exact hlist.referral_asRoot query.dnssec hdelegated hds rfl rfl rfl rfl rfl
        · rintro ⟨other, hsame, -⟩
          exact hstar (List.append_singleton_inj.mp hsame).2
    · rw [if_pos fun hmem => hdelegated (mem_tlds.mp hmem).2]
      refine iff_of_true (hlist.unknown_asRoot _ query.dnssec hdelegated rfl rfl rfl rfl) ?_
      rintro ⟨other, hsame, hstar⟩
      exact hdelegated ((List.append_singleton_inj.mp hsame).2 ▸ hstar)

/-! A root zone with one delegation. -/

def plainWire : ZoneWire (WireName × RecordData) where
  rootSoa := fun record => if record = ([], .other .SOA) then some ⟨2026, 1800, 900, 604800⟩ else none
  same := fun first second => first == second
  emit := fun _ => .error "not written".toList
  read := fun _ => .error "not read".toList
  masterAddr := fun _ => none
  verifyZone := fun _ _ _ => .ok ()
  name := Prod.fst
  data := Prod.snd

def oneDelegation (label : Bytes) : List (WireName × RecordData) :=
  [([], .other .SOA), ([], .rrsig .SOA), ([], .ns [[97], label]), ([], .nsec [label]), ([], .rrsig .NSEC),
    ([label], .ns [[97], label]), ([label], .nsec []), ([label], .rrsig .NSEC), ([[97], label], .other .A)]

theorem delegated_oneDelegation {label other : Bytes} (hlower : label.map lowerByte = label) :
    Delegated plainWire (oneDelegation label) other ↔ other = label := by
  simp [Delegated, oneDelegation, owner, plainWire, toLowercase, hlower, eq_comm]

theorem rrsetOf_oneDelegation {label : Bytes} (hlower : label.map lowerByte = label) :
    rrsetOf plainWire (oneDelegation label) [] .SOA = [([], .other .SOA)] ∧
      rrsetOf plainWire (oneDelegation label) [] .NS = [([], .ns [[97], label])] ∧
      rrsetOf plainWire (oneDelegation label) [] .NSEC = [([], .nsec [label])] ∧
      rrsetOf plainWire (oneDelegation label) [label] .NSEC = [([label], .nsec [])] := by
  have htypes : RecordType.A ≠ .NSEC ∧ RecordType.NS ≠ .SOA ∧ RecordType.NS ≠ .NSEC ∧ RecordType.NSEC ≠ .SOA ∧
      RecordType.NSEC ≠ .NS ∧ RecordType.SOA ≠ .NS ∧ RecordType.SOA ≠ .NSEC := by decide
  simp [rrsetOf, oneDelegation, owner, plainWire, toLowercase, hlower, RecordData.recordType, RecordData.isRrsig, htypes]

theorem rootList_oneDelegation {label : Bytes} (hlower : label.map lowerByte = label) :
    RootList plainWire (oneDelegation label) := by
  obtain ⟨hsoa, hns, hroot, hlabel⟩ := rrsetOf_oneDelegation hlower
  have hchain (name : WireName) : InChain plainWire (oneDelegation label) name ↔ name = [] ∨ name = [label] := by
    simp only [InChain, delegated_oneDelegation hlower, exists_eq_right]
  have hafter : canonicalKey [] < canonicalKey [label] := canonicalKey_pos (by simp)
  constructor
  case soa => exact ⟨_, hsoa⟩
  case ns =>
    rw [hns]
    exact List.cons_ne_nil _ _
  case owners =>
    intro record hrecord next hdata
    rw [hchain]
    simp only [oneDelegation, List.mem_cons, List.not_mem_nil, or_false] at hrecord
    rcases hrecord with rfl | rfl | rfl | rfl | rfl | rfl | rfl | rfl | rfl
    all_goals
      simp only [plainWire, reduceCtorEq] at hdata
    all_goals
      simp [owner, plainWire, toLowercase, hlower]
  case nsec =>
    intro name hname
    rcases (hchain name).mp hname with rfl | rfl
    · refine ⟨_, _, hroot, rfl, .inl ⟨?_, ?_, ?_⟩⟩
      · simp [hchain, toLowercase, hlower]
      · simpa [toLowercase, hlower] using hafter
      · intro other hother hbehind
        rcases (hchain other).mp hother with rfl | rfl
        · exact absurd hbehind (lt_irrefl _)
        · simp [toLowercase, hlower]
    · refine ⟨_, _, hlabel, rfl, .inr ⟨rfl, ?_⟩⟩
      intro other hother
      rcases (hchain other).mp hother with rfl | rfl
      · exact hafter.le
      · exact le_rfl

def comName : WireName := [[99, 111, 109]]

def starName : WireName := [[42]]

def askA (name : WireName) : Query := ⟨1, .query, false, some ⟨4096, true⟩, [⟨name, .A, .in_⟩]⟩

theorem RootZone.answers_as_root_com :
    AnswersAsRoot plainWire (oneDelegation [99, 111, 109]) ([119, 119, 119] :: comName) .A true
      (RootZone.answer plainWire ⟨2026, 1800, 900, 604800, 0, oneDelegation [99, 111, 109]⟩
        (askA ([119, 119, 119] :: comName))) := by
  have hbuild : RootZone.build plainWire.toWire (oneDelegation [99, 111, 109]) 0 =
      .ok ⟨2026, 1800, 900, 604800, 0, oneDelegation [99, 111, 109]⟩ := by decide
  have hquestion : (askA ([119, 119, 119] :: comName)).queries.head? = some ⟨[119, 119, 119] :: comName, .A, .in_⟩ := rfl
  apply (RootZone.answers_as_root hbuild (rootList_oneDelegation rfl) hquestion rfl rfl).mpr
  rintro ⟨front, hname, -⟩
  have hname : [[119, 119, 119]] ++ comName = front ++ starName := hname
  exact absurd (List.append_singleton_inj.mp hname).2 (by decide)

/-- A delegated `*` is denied. -/
theorem RootZone.answers_as_root_fails :
    ∃ (records : List (WireName × RecordData)) (zone : RootZone (WireName × RecordData)) (query : Query)
      (question : Question),
      RootZone.build plainWire.toWire records 0 = .ok zone ∧
        RootList plainWire (withoutRepeat plainWire.toWire records) ∧
        query.queries.head? = some question ∧ query.opCode = .query ∧ question.queryClass = .in_ ∧
        ¬AnswersAsRoot plainWire (withoutRepeat plainWire.toWire records) question.name.toLowercase
          question.queryType query.dnssec (zone.answer plainWire query) := by
  refine ⟨oneDelegation [42], ⟨2026, 1800, 900, 604800, 0, oneDelegation [42]⟩, askA starName, ⟨starName, .A, .in_⟩,
    by decide, rootList_oneDelegation rfl, rfl, rfl, rfl, fun hroot => ?_⟩
  obtain ⟨front, label, hname, hnot⟩ := hroot.nxDomain.mp (by decide)
  have hname : [] ++ starName = front ++ [label] := hname
  exact hnot ((delegated_oneDelegation rfl).mpr (List.append_singleton_inj.mp hname).2.symm)

end DaygleDns.Authoritative.Root
