import DaygleDns.Addresses
import DaygleDns.Authoritative.NameFacts
import DaygleDns.Authoritative.UpdateFacts
import DaygleDns.Quoting

/-! Records that were stored as they were typed, and dynamic updates that name their data. -/
namespace DaygleDns.Authoritative

open Text Fallible

/-- `RData::try_from_str`; what is read is of the type that was asked for. -/
structure RDataReader where
  parseRecordType : Text → Except Text Unit
  parse : Text → Text → Except Text RData
  ofType : ∀ rtype content data, parse rtype content = .ok data → data.recordType.text = rtype ∧ data.isUpdate0 = false

def RDataReader.hickory (reader : RDataReader) : Hickory where
  parseRecordType := reader.parseRecordType
  tryFromStr := fun rtype content => (reader.parse rtype content).map fun _ => ()

/-- A message that asks whether a name has this data. -/
def UpdateMessage.asking (base : UpdateMessage) (name : Text) (data : RData) (ttl : UInt32) : UpdateMessage :=
  { base with prerequisites := [⟨name, .IN, data, ttl⟩], updates := [] }

/-- A message that removes this data of a name. -/
def UpdateMessage.removing (base : UpdateMessage) (name : Text) (data : RData) (ttl : UInt32) : UpdateMessage :=
  { base with prerequisites := [], updates := [⟨name, .NONE, data, ttl⟩] }

/-- The message passes the gates, and is about this zone. -/
def AdmitsUpdate (server : UpdateServer) (store : ZoneStore) (base : UpdateMessage) (zone : Zone) : Prop :=
  ∃ zoneName, requestedZone server base = .ok zoneName ∧ primaryZone (fun _ => none) store zoneName = .ok zone

def removalOf (name rtype content : Text) : DeleteSpec where
  name := name
  rtype := some rtype
  content := some content

/-- The record's text is the one that its data has in updates, under a name that updates
can have; it is shown to prerequisites, and may be removed. -/
structure Recognisable (store : ZoneStore) (zone : Zone) (record : Record) (data : RData) : Prop where
  name : normalizeFqdn record.name = record.name
  inside : nameInZone record.name zone.name = true
  content : record.content = rdataToContent data
  shown : if record.name = zone.name ∧ record.rtype = "SOA".toList then record.content = synthesizedSoaContent zone
    else ∃ twin ∈ store.records.rows, twin.zoneId = zone.id ∧ twin.disabled = false ∧ twin.name = record.name ∧
      twin.rtype = record.rtype ∧ twin.content = record.content
  spared : wouldRemoveLastApexNs zone (store.listRecords zone.id)
    { deletes := [removalOf record.name record.rtype record.content] } = false

section Handled

variable {hickory : Hickory} {server : UpdateServer} {store : ZoneStore} {base : UpdateMessage} {zone : Zone}

theorem wouldRemoveLastApexNs_empty (zone : Zone) (records : List Record) :
    wouldRemoveLastApexNs zone records {} = false := by
  simp only [wouldRemoveLastApexNs, List.foldl_nil]
  cases records.filter (isApexNs zone) <;> simp

theorem admitUpdate_of_admitted (h : AdmitsUpdate server store base zone) {msg : UpdateMessage}
    (hsame : requestedZone server msg = requestedZone server base) :
    admitUpdate server (fun _ => none) store msg = (do
      checkPrerequisites zone (store.listRecords zone.id) msg.prerequisites
      let plan ← buildPlan zone msg.updates
      if wouldRemoveLastApexNs zone (store.listRecords zone.id) plan then throw .refused else pure (zone, plan)) := by
  obtain ⟨zoneName, hrequested, hzone⟩ := h
  rw [hrequested] at hsame
  simp only [admitUpdate, hsame, ok_bind, hzone, Faults.call]
  rfl

theorem zone_of_admits (h : AdmitsUpdate server store base zone) : zone ∈ store.zones.rows := by
  obtain ⟨zoneName, -, hzone⟩ := h
  have hfound := primaryZone_eq_ok hzone
  unfold ZoneStore.findZoneByName at hfound
  exact List.mem_of_find?_eq_some hfound

theorem handle_asking (h : AdmitsUpdate server store base zone) (name : Text) (data : RData) (ttl : UInt32) (now : Time) :
    (handleUpdate hickory server (fun _ => none) store (base.asking name data ttl) now).1 = .noError ↔
      checkPrerequisites zone (store.listRecords zone.id) [⟨name, .IN, data, ttl⟩] = .ok () := by
  have hgate := admitUpdate_of_admitted h (show requestedZone server (base.asking name data ttl) = _ from rfl)
  have hplan : buildPlan zone (base.asking name data ttl).updates = .ok {} := rfl
  have hguard := wouldRemoveLastApexNs_empty zone (store.listRecords zone.id)
  have hdeclines := declines_admitUpdate server (fun _ => none) store (base.asking name data ttl)
  change _ ↔ checkPrerequisites zone _ (base.asking name data ttl).prerequisites = .ok ()
  cases hcheck : checkPrerequisites zone (store.listRecords zone.id) (base.asking name data ttl).prerequisites with
  | ok _ =>
    rw [hcheck, hplan, ok_bind, ok_bind, hguard, if_neg (by decide)] at hgate
    simp only [handleUpdate, hgate, pure_eq]
    exact iff_of_true rfl trivial
  | error code =>
    rw [hcheck, error_bind] at hgate
    simp only [handleUpdate, hgate]
    rw [hgate] at hdeclines
    refine iff_of_false (fun hcode => hdeclines ?_) error_ne_ok
    exact congrArg _ hcode

/-- What a removal asks for, once its name has been read. -/
theorem buildPlan_removing (name : Text) {data : RData} (ttl : UInt32) (hany : data.recordType ≠ .any)
    (hdata : data.isUpdate0 = false) :
    buildPlan zone (base.removing name data ttl).updates =
      if nameInZone (lowerName name) zone.name then
        .ok { deletes := [removalOf (lowerName name) data.recordType.text (rdataToContent data)] }
      else .error .notZone := by
  have hbuild : buildUpdate zone (lowerName name) ⟨name, .NONE, data, ttl⟩ {} =
      .ok { deletes := [removalOf (lowerName name) data.recordType.text (rdataToContent data)] } := by
    simp only [buildUpdate, if_neg hany, hdata]
    rfl
  simp only [buildPlan, UpdateMessage.removing, List.foldlM_cons, List.foldlM_nil, planRecord, hbuild, require]
  cases nameInZone (lowerName name) zone.name <;> rfl

/-- A removal takes away what it hits, unless it is refused. -/
theorem handle_removing (h : AdmitsUpdate server store base zone) (name : Text) {data : RData} (ttl : UInt32) (now : Time)
    (hany : data.recordType ≠ .any) (hdata : data.isUpdate0 = false) (record : Record) (hstored : record ∈ store.records.rows) :
    record ∉ (handleUpdate hickory server (fun _ => none) store (base.removing name data ttl) now).2.records.rows ↔
      nameInZone (lowerName name) zone.name = true ∧
        wouldRemoveLastApexNs zone (store.listRecords zone.id)
          { deletes := [removalOf (lowerName name) data.recordType.text (rdataToContent data)] } = false ∧
        (removalOf (lowerName name) data.recordType.text (rdataToContent data)).hits zone.id record = true := by
  have hgate := admitUpdate_of_admitted h (show requestedZone server (base.removing name data ttl) = _ from rfl)
  have hcheck : checkPrerequisites zone (store.listRecords zone.id) (base.removing name data ttl).prerequisites = .ok () :=
    rfl
  rw [hcheck, ok_bind, buildPlan_removing name ttl hany hdata] at hgate
  by_cases hinside : nameInZone (lowerName name) zone.name = true
  · rw [if_pos hinside, ok_bind] at hgate
    by_cases hguard : wouldRemoveLastApexNs zone (store.listRecords zone.id)
        { deletes := [removalOf (lowerName name) data.recordType.text (rdataToContent data)] } = true
    · rw [if_pos hguard] at hgate
      simp only [handleUpdate, hgate, throw_eq]
      simp [hstored, hguard]
    · rw [if_neg hguard, pure_eq] at hgate
      have hzone := (getZone_eq_some_iff store zone.id zone).mpr ⟨zone_of_admits h, rfl⟩
      have hrequire : requireZone store zone.id = .ok zone := requireZone_eq_ok.mpr hzone
      have happly : applyDynamicUpdates hickory store zone.id
          { deletes := [removalOf (lowerName name) data.recordType.text (rdataToContent data)] } now =
            .ok ((deleteMatching store zone.id
              (removalOf (lowerName name) data.recordType.text (rdataToContent data))).updateZone zone.id
                (fun row => { row with serial := nextSerial zone.serial, lastModifiedAt := now }) (fun _ => rfl)) := by
        rw [applyDynamicUpdates, hrequire]
        rfl
      simp only [handleUpdate, hgate, happly, Faults.call]
      rw [Bool.not_eq_true] at hguard
      change record ∉ store.records.rows.filter _ ↔ _
      rw [List.mem_filter]
      simp [hstored, hinside, hguard]
  · rw [if_neg hinside, error_bind] at hgate
    simp only [handleUpdate, hgate]
    simp [hstored, hinside]

end Handled

theorem require_eq_ok {holds : Bool} {code : ResponseCode} : require holds code = .ok () ↔ holds = true := by
  cases holds <;> simp [require]

theorem checkPrerequisites_value {zone : Zone} {records : List Record} {name : Text} {data : RData} {ttl : UInt32}
    (hany : data.recordType ≠ .any) :
    checkPrerequisites zone records [⟨name, .IN, data, ttl⟩] = .ok () ↔
      nameInZone (lowerName name) zone.name = true ∧ rdataMatches zone records (lowerName name) data = true := by
  rw [checkPrerequisites, Fallible.forM_eq_ok]
  simp only [List.mem_singleton, forall_eq, checkPrerequisite, if_neg hany, bind_eq_ok, require_eq_ok]
  constructor
  · rintro ⟨_, hinside, hmatches⟩
    exact ⟨require_eq_ok.mp hinside, hmatches⟩
  · rintro ⟨hinside, hmatches⟩
    exact ⟨(), require_eq_ok.mpr hinside, hmatches⟩

theorem known_upper : ∀ rtype ∈ knownRecordTypes, toAsciiUppercase rtype = rtype := by decide

theorem removalOf_hits {zoneId : Uuid} {name rtype content : Text} {record : Record} :
    (removalOf name rtype content).hits zoneId record = true ↔
      record.zoneId = zoneId ∧ record.name = normalizeFqdn name ∧ record.rtype = toAsciiUppercase rtype ∧
        record.content = content := by
  simp [DeleteSpec.hits, removalOf, and_assoc]

theorem rdataMatches_iff {store : ZoneStore} {zone : Zone} {name : Text} {data : RData} :
    rdataMatches zone (store.listRecords zone.id) name data = true ↔
      if name = zone.name ∧ data.recordType.text = "SOA".toList then rdataToContent data = synthesizedSoaContent zone
      else ∃ twin ∈ store.records.rows, twin.zoneId = zone.id ∧ twin.disabled = false ∧ twin.name = name ∧
        twin.rtype = data.recordType.text ∧ twin.content = rdataToContent data := by
  have hsoa : data.recordType = .soa ↔ data.recordType.text = "SOA".toList := by
    cases data.recordType
    simp [RecordType.soa]
  simp only [rdataMatches, hsoa]
  split
  · rw [beq_iff_eq]
  · rw [List.any_eq_true]
    apply exists_congr
    intro twin
    rw [mem_listRecords]
    simp [and_assoc]

/-- Updates recognise a stored record exactly when its text is the one that its data has in
them, under a name that they can have. -/
theorem stored_data_recognised_iff (reader : RDataReader) (server : UpdateServer) (base : UpdateMessage)
    (before inserted store : ZoneStore) (zone : Zone) (input : RecordInput) (record : Record) (data : RData) (name : Text)
    (ttl : UInt32) (stamp now : Time)
    (haccepted : insertRecordInTx reader.hickory before zone.id zone.name input stamp = .ok (record, inserted))
    (hstored : record ∈ store.records.rows) (hread : reader.parse record.rtype record.content = .ok data)
    (hadmits : AdmitsUpdate server store base zone) (hname : lowerName name = normalizeFqdn record.name) :
    ((handleUpdate reader.hickory server (fun _ => none) store (base.asking name data ttl) now).1 = .noError ∧
        record ∉ (handleUpdate reader.hickory server (fun _ => none) store (base.removing name data ttl) now).2.records.rows) ↔
      Recognisable store zone record data := by
  obtain ⟨htype, hdata⟩ := reader.ofType _ _ _ hread
  obtain ⟨⟨hknown, -⟩, hrow, -⟩ := insertRecordInTx_eq_ok.mp haccepted
  have hrtype : record.rtype = toAsciiUppercase input.rtype := by rw [hrow]; rfl
  have hzone : record.zoneId = zone.id := by rw [hrow]; rfl
  have hany : data.recordType ≠ .any := by
    intro hsame
    rw [hsame, hrtype] at htype
    rw [← htype] at hknown
    exact absurd hknown (by decide)
  obtain ⟨core, dots, blank, hshape⟩ := insertRecordInTx_nameShape haccepted
  have hcore : lowerName name = core := hname.trans hshape.normalized
  have hnormal : normalizeFqdn core = core := hshape.core.normalized
  rw [handle_asking hadmits, checkPrerequisites_value hany, handle_removing hadmits name ttl now hany hdata record hstored,
    hcore, htype, removalOf_hits, rdataMatches_iff, hnormal, htype]
  have hupper : toAsciiUppercase record.rtype = record.rtype := by
    rw [hrtype]
    exact known_upper _ hknown
  have hnamed : normalizeFqdn record.name = record.name ↔ record.name = core := by
    rw [hshape.normalized]
    exact eq_comm
  constructor
  · rintro ⟨⟨hinside, hmatches⟩, -, hguard, -, hsame, -, hcontent⟩
    rw [← hsame] at hinside hmatches hguard
    rw [← hcontent] at hmatches hguard
    exact ⟨hnamed.mpr hsame, hinside, hcontent, hmatches, hguard⟩
  · rintro ⟨hnormalized, hinside, hcontent, hshown, hguard⟩
    have hsame := hnamed.mp hnormalized
    rw [← hsame, ← hcontent]
    exact ⟨⟨hinside, hshown⟩, hinside, hguard, hzone, rfl, hupper.symm, rfl⟩

/-- The two types of addresses have wire forms. -/
theorem a_has_wire : toAsciiUppercase "A" ∉ (["ALIAS", "AUTOPTR"] : List Text) := by decide

theorem aaaa_has_wire : toAsciiUppercase "AAAA" ∉ (["ALIAS", "AUTOPTR"] : List Text) := by decide

/-- Addresses are read and printed as the standard library does, and nothing else is read. -/
def readAddress (rtype content : Text) : Except Text RData :=
  if rtype = "A" then
    match parseIpv4 content with
    | some ip => .ok (.other ⟨"A", a_has_wire⟩ (IpAddr.v4 ip).toText)
    | none => .error "invalid address"
  else if rtype = "AAAA" then
    match parseIpv6 content with
    | some ip => .ok (.other ⟨"AAAA", aaaa_has_wire⟩ (IpAddr.v6 ip).toText)
    | none => .error "invalid address"
  else .error "not an address"

theorem readAddress_ofType (rtype content : Text) (data : RData) (h : readAddress rtype content = .ok data) :
    data.recordType.text = rtype ∧ data.isUpdate0 = false := by
  unfold readAddress at h
  split at h
  next ha =>
    split at h <;> cases h
    exact ⟨ha.symm, rfl⟩
  next =>
    split at h
    next haaaa =>
      split at h <;> cases h
      exact ⟨haaaa.symm, rfl⟩
    next => cases h

def RDataReader.addresses : RDataReader where
  parseRecordType := fun _ => .ok ()
  parse := readAddress
  ofType := readAddress_ofType

/-- The address of a host, as it is printed. -/
def hostAddress : RData := .other ⟨"AAAA", aaaa_has_wire⟩ "2001:db8::1"

def hostRecord (content : Text) : RecordInput where
  name := "host"
  rtype := "AAAA"
  content := content

/-- The store with that address, as it was typed. -/
def ZoneStore.withHost (content : Text) : ZoneStore :=
  match insertRecordInTx RDataReader.addresses.hickory .exampleCom 0 "example.com" (hostRecord content) 0 with
  | .ok (_, store) => store
  | .error _ => .empty

def storedHost (content : Text) : Record where
  id := 1
  zoneId := 0
  name := "host.example.com"
  rtype := "AAAA"
  content := content
  ttl := 3600
  priority := 0
  disabled := false
  lastModifiedAt := 0
  lastUsedAt := none

theorem admitsUpdate_host (content : Text) (hzone : primaryZone (fun _ => none) (.withHost content) "example.com" = .ok .exampleCom) :
    AdmitsUpdate .open (.withHost content) (.exampleCom []) .exampleCom :=
  ⟨"example.com".toList, by decide, hzone⟩

/-- An address that was typed in upper case: it is not found, and it is not removed. -/
theorem stored_data_recognised_fails :
    insertRecordInTx RDataReader.addresses.hickory .exampleCom 0 "example.com" (hostRecord "2001:DB8::1") 0 =
        .ok (storedHost "2001:DB8::1", .withHost "2001:DB8::1") ∧
      RDataReader.addresses.parse "AAAA" "2001:DB8::1" = .ok hostAddress ∧
      AdmitsUpdate .open (.withHost "2001:DB8::1") (.exampleCom []) .exampleCom ∧
      (handleUpdate RDataReader.addresses.hickory .open (fun _ => none) (.withHost "2001:DB8::1")
          ((UpdateMessage.exampleCom []).asking "host.example.com." hostAddress 0) 1).1 = .nxRRSet ∧
      storedHost "2001:DB8::1" ∈ (handleUpdate RDataReader.addresses.hickory .open (fun _ => none)
          (.withHost "2001:DB8::1") ((UpdateMessage.exampleCom []).removing "host.example.com." hostAddress 0) 1).2.records.rows := by
  refine ⟨rfl, by decide, admitsUpdate_host _ (by decide), by decide, by decide⟩

theorem stored_data_recognised_lower_case :
    (handleUpdate RDataReader.addresses.hickory .open (fun _ => none) (.withHost "2001:db8::1")
          ((UpdateMessage.exampleCom []).asking "host.example.com." hostAddress 0) 1).1 = .noError ∧
      storedHost "2001:db8::1" ∉ (handleUpdate RDataReader.addresses.hickory .open (fun _ => none)
        (.withHost "2001:db8::1") ((UpdateMessage.exampleCom []).removing "host.example.com." hostAddress 0) 1).2.records.rows := by
  apply (stored_data_recognised_iff .addresses .open (.exampleCom []) .exampleCom (.withHost "2001:db8::1")
    (.withHost "2001:db8::1") .exampleCom (hostRecord "2001:db8::1") (storedHost "2001:db8::1") hostAddress
    "host.example.com." 0 0 1 rfl (by decide) (by decide) (admitsUpdate_host _ (by decide)) (by decide)).mpr
  constructor
  · decide
  · decide
  · rfl
  · rw [if_neg (by decide)]
    exact ⟨storedHost "2001:db8::1", by decide, rfl, rfl, rfl, rfl, rfl⟩
  · decide

/-! TXT data of updates: it is stored as one quoted string, which is read again when the
zone is served. -/

/-- TXT data as it is displayed and as `RData::try_from_str` reads it. The display has
neither separators nor escapes; what is read is a list of quoted strings. -/
structure TxtPresentation where
  display : List Text → Text
  tryFromStr : Text → Except Text (List Text)
  display_eq : ∀ strings, display strings = strings.flatten
  tryFromStr_quoted : ∀ items : List (Text × Text), (∀ item ∈ items, Escaped item.1 item.2) →
    tryFromStr (quotedStrings (items.map Prod.fst)) = .ok (items.map Prod.snd)

namespace TxtPresentation

variable (txt : TxtPresentation)

def data (strings : List Text) : RData := .other .txt (txt.display strings)

theorem rdataToContent_data (strings : List Text) :
    rdataToContent (txt.data strings) = doubleQuoted (strings.flatten.flatMap escapeChar) := by
  have htype : (txt.data strings).recordType = .txt := rfl
  have htext : (txt.data strings).text = txt.display strings := rfl
  rw [rdataToContent, if_pos htype, htext, replace_backslashes_quotes, txt.display_eq]
  rfl

/-- The strings come back joined, whatever their boundaries were. -/
theorem tryFromStr_rdataToContent {strings : List Text} (h : ∀ s ∈ strings, ∀ c ∈ s, isPrintable c = true) :
    txt.tryFromStr (rdataToContent (txt.data strings)) = .ok [strings.flatten] := by
  have hprintable : ∀ c ∈ strings.flatten, isPrintable c = true := by
    intro c hc
    obtain ⟨s, hs, hmem⟩ := List.mem_flatten.mp hc
    exact h s hs c hmem
  have hread := txt.tryFromStr_quoted [(strings.flatten.flatMap escapeChar, strings.flatten)] (by
    intro item hitem
    rw [List.mem_singleton.mp hitem]
    exact escaped_flatMap hprintable)
  rw [txt.rdataToContent_data]
  simpa [quotedStrings, List.intercalate] using hread

end TxtPresentation

/-- A list of strings comes back as it was exactly when it is one string. -/
theorem txt_preserved_iff (txt : TxtPresentation) (strings : List Text)
    (h : ∀ s ∈ strings, ∀ c ∈ s, isPrintable c = true) :
    txt.tryFromStr (rdataToContent (txt.data strings)) = .ok strings ↔ strings.length = 1 := by
  rw [txt.tryFromStr_rdataToContent h]
  constructor
  · intro hsame
    rw [← Except.ok.inj hsame]
    rfl
  · intro hlength
    obtain ⟨s, rfl⟩ := List.length_eq_one_iff.mp hlength
    rw [List.flatten_singleton]

/-- The reader of quoted strings. -/
def TxtPresentation.quotedOnly : TxtPresentation where
  display := List.flatten
  tryFromStr := fun content =>
    match readQuotedFrom none content with
    | some strings => .ok strings
    | none => .error "unexpected token"
  display_eq := fun _ => rfl
  tryFromStr_quoted := fun _ h => by rw [readQuotedFrom_quotedStrings h]

theorem txt_preserved_of_specials :
    TxtPresentation.quotedOnly.tryFromStr
        (rdataToContent (TxtPresentation.quotedOnly.data ["a \"b\"; c\\d".toList])) = .ok ["a \"b\"; c\\d".toList] :=
  (txt_preserved_iff .quotedOnly ["a \"b\"; c\\d".toList] (by decide)).mpr rfl

/-- Two strings are stored, and read again, as one. -/
theorem txt_preserved_fails :
    rdataToContent (TxtPresentation.quotedOnly.data ["v=spf1 ".toList, "-all".toList]) = "\"v=spf1 -all\"".toList ∧
      TxtPresentation.quotedOnly.tryFromStr
          (rdataToContent (TxtPresentation.quotedOnly.data ["v=spf1 ".toList, "-all".toList])) =
        .ok ["v=spf1 -all".toList] ∧
      ¬∀ strings : List Text, (∀ s ∈ strings, ∀ c ∈ s, isPrintable c = true) →
        TxtPresentation.quotedOnly.tryFromStr (rdataToContent (TxtPresentation.quotedOnly.data strings)) = .ok strings := by
  have hread : TxtPresentation.quotedOnly.tryFromStr
      (rdataToContent (TxtPresentation.quotedOnly.data ["v=spf1 ".toList, "-all".toList])) =
        .ok ["v=spf1 -all".toList] := by rfl
  refine ⟨rfl, hread, ?_⟩
  intro h
  have hsame := h ["v=spf1 ".toList, "-all".toList] (by decide)
  rw [hread] at hsame
  exact absurd (Except.ok.inj hsame) (by decide)

end DaygleDns.Authoritative
