import DaygleDns.Authoritative.Store

/-! What the store's transactions do when they succeed. -/
namespace DaygleDns.Authoritative

open Text Fallible

/-- Everything but the record table is as before. -/
structure SameButRecords (before after : ZoneStore) : Prop where
  zones : after.zones = before.zones
  dnssecKeys : after.dnssecKeys = before.dnssecKeys
  zoneAliases : after.zoneAliases = before.zoneAliases
  secondaryZones : after.secondaryZones = before.secondaryZones
  zoneTransfers : after.zoneTransfers = before.zoneTransfers

theorem SameButRecords.refl (store : ZoneStore) : SameButRecords store store :=
  ⟨rfl, rfl, rfl, rfl, rfl⟩

theorem SameButRecords.trans {a b c : ZoneStore} (hab : SameButRecords a b)
    (hbc : SameButRecords b c) : SameButRecords a c :=
  ⟨hbc.zones.trans hab.zones, hbc.dnssecKeys.trans hab.dnssecKeys,
    hbc.zoneAliases.trans hab.zoneAliases, hbc.secondaryZones.trans hab.secondaryZones,
    hbc.zoneTransfers.trans hab.zoneTransfers⟩

theorem SameButRecords.getZone {before after : ZoneStore} (h : SameButRecords before after)
    (id : Uuid) : after.getZone id = before.getZone id := by
  unfold ZoneStore.getZone
  rw [h.zones]

@[simp] theorem updateZone_records (store : ZoneStore) (zoneId : Uuid) (change : Zone → Zone)
    (hkey : ∀ zone, (change zone).id = zone.id) :
    (store.updateZone zoneId change hkey).records = store.records := rfl

@[simp] theorem updateZone_dnssecKeys (store : ZoneStore) (zoneId : Uuid) (change : Zone → Zone)
    (hkey : ∀ zone, (change zone).id = zone.id) :
    (store.updateZone zoneId change hkey).dnssecKeys = store.dnssecKeys := rfl

theorem getZone_eq_some_iff (store : ZoneStore) (id : Uuid) (zone : Zone) :
    store.getZone id = some zone ↔ zone ∈ store.zones.rows ∧ zone.id = id :=
  store.zones.find?_eq_some_iff id zone

theorem getZone_updateZone (store : ZoneStore) (zoneId id : Uuid) (change : Zone → Zone)
    (hkey : ∀ zone, (change zone).id = zone.id) :
    (store.updateZone zoneId change hkey).getZone id =
      (store.getZone id).map fun zone => if zoneId = id then change zone else zone := by
  have hfind : ∀ rows : List Zone,
      (rows.map fun zone => if zone.id == zoneId then change zone else zone).find?
          (fun zone => zone.id == id) =
        (rows.find? fun zone => zone.id == id).map
          fun zone => if zoneId = id then change zone else zone := by
    intro rows
    induction rows with
    | nil => rfl
    | cons zone rows ih =>
      have hid : (if zone.id == zoneId then change zone else zone).id = zone.id := by
        by_cases h : zone.id = zoneId <;> simp [h, hkey]
      rw [List.map_cons, List.find?_cons, List.find?_cons, hid]
      by_cases h : zone.id = id
      · have hhit : (zone.id == id) = true := beq_iff_eq.mpr h
        rw [h] at hhit
        simp only [hhit, h, beq_iff_eq, Option.map_some, eq_comm (a := id)]
      · have hhit : (zone.id == id) = false := beq_eq_false_iff_ne.mpr h
        simp only [hhit, ih]
  exact hfind store.zones.rows

theorem requireZone_eq_ok {store : ZoneStore} {zoneId : Uuid} {zone : Zone} :
    requireZone store zoneId = .ok zone ↔ store.getZone zoneId = some zone := by
  unfold requireZone
  cases store.getZone zoneId <;> simp

theorem requireZone_id {store : ZoneStore} {zoneId : Uuid} {zone : Zone}
    (h : requireZone store zoneId = .ok zone) : zone.id = zoneId :=
  ((getZone_eq_some_iff store zoneId zone).mp (requireZone_eq_ok.mp h)).2

theorem mem_listRecords {store : ZoneStore} {zoneId : Uuid} {record : Record} :
    record ∈ store.listRecords zoneId ↔ record ∈ store.records.rows ∧ record.zoneId = zoneId := by
  unfold ZoneStore.listRecords
  rw [List.mem_insertionSort, List.mem_filter, beq_iff_eq]

theorem bumpSerialIn_eq_ok {store after : ZoneStore} {zoneId : Uuid} {now : Time} {next : UInt32}
    (h : bumpSerialIn store zoneId now = .ok (next, after)) :
    ∃ zone, store.getZone zoneId = some zone ∧ next = nextSerial zone.serial ∧
      after = store.updateZone zoneId
        (fun zone => { zone with serial := next, lastModifiedAt := now }) (fun _ => rfl) := by
  unfold bumpSerialIn at h
  obtain ⟨zone, hzone, h⟩ := bind_eq_ok.mp h
  cases h
  exact ⟨zone, requireZone_eq_ok.mp hzone, rfl, rfl⟩

/-- The content an accepted record is stored with: ALIAS targets and AUTOPTR
templates are lower-cased and end in a dot. -/
def storedContent (rtype content : Text) : Text :=
  if rtype = "ALIAS" ∨ rtype = "AUTOPTR" then
    toAsciiLowercase (trimEndMatches '.' (trim content)) ++ ['.']
  else content

/-- The row an accepted input is stored as. -/
def storedRow (zoneId : Uuid) (zoneName : Text) (input : RecordInput) (now : Time)
    (id : Uuid) : Record where
  id := id
  zoneId := zoneId
  name := qualifyName input.name zoneName
  rtype := toAsciiUppercase input.rtype
  content := storedContent (toAsciiUppercase input.rtype) (trim input.content)
  ttl := input.ttl
  priority := input.priority
  disabled := input.disabled
  lastModifiedAt := now
  lastUsedAt := none

/-- The enabled records of a type at a name of a zone. -/
def enabledAt (store : ZoneStore) (zoneId : Uuid) (name rtype : Text) (record : Record) : Prop :=
  record ∈ store.records.rows ∧ record.zoneId = zoneId ∧ record.name = name ∧
    record.rtype = rtype ∧ record.disabled = false

theorem checkAlias_eq_ok {store : ZoneStore} {zoneId : Uuid} {name target content : Text}
    (h : checkAlias store zoneId name target = .ok content) :
    content = toAsciiLowercase (trimEndMatches '.' (trim target)) ++ ['.'] ∧
      ∀ record ∈ store.records.rows, record.zoneId = zoneId → record.name = name →
        record.rtype ∉ aliasClashTypes := by
  unfold checkAlias at h
  simp only [throw_eq, pure_eq, error_bind, bind_eq_ok, guard_eq_ok] at h
  obtain ⟨_, _, _, _, hclash⟩ := h
  split at hclash
  next hnone =>
    cases hclash
    refine ⟨rfl, fun record hrecord hzone hname htype => ?_⟩
    have := List.find?_eq_none.mp hnone record hrecord
    simp [hzone, hname, htype] at this
  next clash _ =>
    split at hclash <;> cases hclash

theorem checkAutoPtr_eq_ok {store : ZoneStore} {zoneId : Uuid} {name template content : Text}
    {disabled : Bool} (h : checkAutoPtr store zoneId name template disabled = .ok content) :
    content = toAsciiLowercase (trimEndMatches '.' (trim template)) ++ ['.'] ∧
      (disabled = false → ∀ record, ¬ enabledAt store zoneId name "AUTOPTR" record) := by
  unfold checkAutoPtr at h
  simp only [throw_eq, pure_eq, error_bind, bind_eq_ok, guard_eq_ok] at h
  obtain ⟨_, _, _, _, _, hclash, hcontent⟩ := h
  refine ⟨(Except.ok.inj hcontent).symm, ?_⟩
  rintro rfl record ⟨hrecord, hzone, hname, htype, henabled⟩
  apply hclash
  simp only [Bool.not_false, Bool.true_and, List.any_eq_true]
  exact ⟨record, hrecord, by simp [hzone, hname, htype, henabled]⟩

theorem checkRData_eq_ok {hickory : Hickory} {store : ZoneStore} {zoneId : Uuid}
    {name rtype content stored : Text} {disabled : Bool} :
    checkRData hickory store zoneId name rtype content disabled = .ok stored ↔
      hickory.parseRecordType rtype = .ok () ∧ hickory.tryFromStr rtype content = .ok () ∧
        (rtype ∈ (["A", "AAAA", "CNAME"] : List Text) → disabled = false →
          ∀ record, ¬ enabledAt store zoneId name "ALIAS" record) ∧ stored = content := by
  unfold checkRData
  simp only [throw_eq, pure_eq, error_bind, bind_eq_ok, guard_eq_ok]
  constructor
  · rintro ⟨_, hparse, _, hread, hclash, hstored⟩
    refine ⟨?_, ?_, ?_, (Except.ok.inj hstored).symm⟩
    · cases h : hickory.parseRecordType rtype <;> simp [h, Except.mapError] at hparse ⊢
    · cases h : hickory.tryFromStr rtype content <;> simp [h, Except.mapError] at hread ⊢
    · rintro htype rfl record ⟨hrecord, hzone, hname, halias, henabled⟩
      apply hclash
      simp only [htype, decide_true, Bool.not_false, Bool.true_and, List.any_eq_true]
      exact ⟨record, hrecord, by simp [hzone, hname, halias, henabled]⟩
  · rintro ⟨hparse, hread, hclash, rfl⟩
    refine ⟨(), by rw [hparse]; rfl, (), by rw [hread]; rfl, ?_, rfl⟩
    intro hbad
    simp only [Bool.and_eq_true, decide_eq_true_eq, Bool.not_eq_true', List.any_eq_true,
      beq_iff_eq] at hbad
    obtain ⟨⟨htype, hdisabled⟩, record, hrecord, ⟨⟨hzone, hname⟩, halias⟩, henabled⟩ := hbad
    exact hclash htype hdisabled record ⟨hrecord, hzone, hname, halias, henabled⟩

theorem checkContent_eq_stored {hickory : Hickory} {store : ZoneStore} {zoneId : Uuid}
    {name rtype content stored : Text} {disabled : Bool}
    (h : checkContent hickory store zoneId name rtype content disabled = .ok stored) :
    stored = storedContent rtype content := by
  unfold checkContent at h
  unfold storedContent
  split at h
  next halias => rw [if_pos (.inl halias), (checkAlias_eq_ok h).1]
  next halias =>
    split at h
    next hauto => rw [if_pos (.inr hauto), (checkAutoPtr_eq_ok h).1]
    next hauto => rw [if_neg (not_or.mpr ⟨halias, hauto⟩), (checkRData_eq_ok.mp h).2.2.2]

/-- What the insertion of one record checks: the first two conditions look at
the input alone, the third at the store as well. -/
theorem insertRecordInTx_eq_ok {hickory : Hickory} {store after : ZoneStore} {zoneId : Uuid}
    {zoneName : Text} {input : RecordInput} {now : Time} {record : Record} :
    insertRecordInTx hickory store zoneId zoneName input now = .ok (record, after) ↔
      (toAsciiUppercase input.rtype ∈ knownRecordTypes ∧
        validateOwnerName (qualifyName input.name zoneName) = .ok () ∧
        ∃ content, checkContent hickory store zoneId (qualifyName input.name zoneName)
          (toAsciiUppercase input.rtype) (trim input.content) input.disabled = .ok content) ∧
      record = storedRow zoneId zoneName input now store.records.next ∧
      after = { store with
        records := store.records.insert (storedRow zoneId zoneName input now) (fun _ => rfl) } := by
  unfold insertRecordInTx
  simp only [throw_eq, pure_eq, error_bind, bind_eq_ok, guard_eq_ok, not_not]
  constructor
  · rintro ⟨hknown, _, hname, content, hcontent, hresult⟩
    cases checkContent_eq_stored hcontent
    cases hresult
    exact ⟨⟨hknown, hname, _, hcontent⟩, rfl, rfl⟩
  · rintro ⟨⟨hknown, hname, content, hcontent⟩, rfl, rfl⟩
    cases checkContent_eq_stored hcontent
    exact ⟨hknown, (), hname, _, hcontent, rfl⟩

theorem insertRecordInTx_same {hickory : Hickory} {store after : ZoneStore} {zoneId : Uuid}
    {zoneName : Text} {input : RecordInput} {now : Time} {record : Record}
    (h : insertRecordInTx hickory store zoneId zoneName input now = .ok (record, after)) :
    SameButRecords store after := by
  rw [(insertRecordInTx_eq_ok.mp h).2.2]
  exact ⟨rfl, rfl, rfl, rfl, rfl⟩

theorem insertRecords_cons {hickory : Hickory} {zoneId : Uuid} {zoneName : Text} {now : Time}
    {store after : ZoneStore} {input : RecordInput} {inputs : List RecordInput} :
    insertRecords hickory zoneId zoneName now store (input :: inputs) = .ok after ↔
      ∃ record middle,
        insertRecordInTx hickory store zoneId zoneName input now = .ok (record, middle) ∧
        insertRecords hickory zoneId zoneName now middle inputs = .ok after := by
  unfold insertRecords
  rw [List.foldlM_cons, bind_eq_ok]
  constructor
  · rintro ⟨middle, hinsert, hrest⟩
    obtain ⟨⟨record, store'⟩, hinsert, hmiddle⟩ := bind_eq_ok.mp hinsert
    cases hmiddle
    exact ⟨record, _, hinsert, hrest⟩
  · rintro ⟨record, middle, hinsert, hrest⟩
    exact ⟨middle, bind_eq_ok.mpr ⟨_, hinsert, rfl⟩, hrest⟩

/-- The rows a batch of accepted inputs adds, in order. -/
def storedRows (zoneId : Uuid) (zoneName : Text) (now : Time) :
    Uuid → List RecordInput → List Record
  | _, [] => []
  | id, input :: inputs =>
      storedRow zoneId zoneName input now id :: storedRows zoneId zoneName now (id + 1) inputs

@[simp] theorem storedRows_nil (zoneId : Uuid) (zoneName : Text) (now : Time) (id : Uuid) :
    storedRows zoneId zoneName now id [] = [] := rfl

@[simp] theorem storedRows_cons (zoneId : Uuid) (zoneName : Text) (now : Time) (id : Uuid)
    (input : RecordInput) (inputs : List RecordInput) :
    storedRows zoneId zoneName now id (input :: inputs) =
      storedRow zoneId zoneName input now id ::
        storedRows zoneId zoneName now (id + 1) inputs := rfl

theorem insertRecords_eq_ok {hickory : Hickory} {zoneId : Uuid} {zoneName : Text} {now : Time}
    {store after : ZoneStore} {inputs : List RecordInput}
    (h : insertRecords hickory zoneId zoneName now store inputs = .ok after) :
    SameButRecords store after ∧ after.records.rows = store.records.rows ++
      storedRows zoneId zoneName now store.records.next inputs := by
  induction inputs generalizing store with
  | nil =>
    cases h
    exact ⟨.refl _, by simp⟩
  | cons input inputs ih =>
    obtain ⟨record, middle, hinsert, hrest⟩ := insertRecords_cons.mp h
    have hsame := insertRecordInTx_same hinsert
    obtain ⟨_, _, rfl⟩ := insertRecordInTx_eq_ok.mp hinsert
    obtain ⟨hlater, hrows⟩ := ih hrest
    refine ⟨hsame.trans hlater, ?_⟩
    rw [hrows]
    simp [Table.insert]

theorem mem_storedRows {zoneId : Uuid} {zoneName : Text} {now : Time} {record : Record}
    {id : Uuid} {inputs : List RecordInput}
    (h : record ∈ storedRows zoneId zoneName now id inputs) :
    ∃ input ∈ inputs, ∃ id, record = storedRow zoneId zoneName input now id := by
  induction inputs generalizing id with
  | nil => simp at h
  | cons input inputs ih =>
    rcases List.mem_cons.mp h with rfl | h
    · exact ⟨input, by simp, id, rfl⟩
    · obtain ⟨other, hother, hid⟩ := ih h
      exact ⟨other, List.mem_cons_of_mem _ hother, hid⟩

theorem storedRows_above {zoneId : Uuid} {zoneName : Text} {now : Time} {record : Record} {id : Uuid}
    {inputs : List RecordInput} (h : record ∈ storedRows zoneId zoneName now id inputs) :
    id ≤ record.id := by
  induction inputs generalizing id with
  | nil => simp at h
  | cons input inputs ih =>
    rcases List.mem_cons.mp h with rfl | h
    · exact Nat.le_refl _
    · exact Nat.le_of_succ_le (ih h)

theorem storedRow_mem_storedRows {zoneId : Uuid} {zoneName : Text} {now : Time}
    {inputs : List RecordInput} {input : RecordInput} (hinput : input ∈ inputs) (id : Uuid) :
    ∃ other, storedRow zoneId zoneName input now other ∈
      storedRows zoneId zoneName now id inputs := by
  induction inputs generalizing id with
  | nil => simp at hinput
  | cons first inputs ih =>
    rcases List.mem_cons.mp hinput with rfl | hinput
    · exact ⟨id, by simp⟩
    · obtain ⟨other, hother⟩ := ih hinput (id + 1)
      exact ⟨other, List.mem_cons_of_mem _ hother⟩

/-- A zone is created by one row of its own and its NS record. -/
theorem createZone_eq_ok {hickory : Hickory} {store after : ZoneStore} {input : ZoneInput}
    {now : Time} {created : Zone} (h : createZone hickory store input now = .ok (created, after)) :
    ∃ zone hrow zoneId zoneName nsRecord record,
      insertRecordInTx hickory { store with zones := store.zones.insert zone hrow } zoneId zoneName
        nsRecord now = .ok (record, after) := by
  unfold createZone at h
  simp only [throw_eq, pure_eq, error_bind, bind_eq_ok] at h
  rcases h with ⟨_, _, h⟩
  split at h
  next => exact absurd h error_ne_ok
  next =>
    rcases bind_eq_ok.mp (guard_eq_ok.mp h).2 with ⟨⟨record, grown⟩, hinsert, hafter⟩
    cases hafter
    exact ⟨_, _, _, _, _, record, hinsert⟩

theorem createZone_keeps {hickory : Hickory} {store after : ZoneStore} {input : ZoneInput}
    {now : Time} {created : Zone} (h : createZone hickory store input now = .ok (created, after))
    {zone : Zone} (hzone : zone ∈ store.zones.rows) : zone ∈ after.zones.rows := by
  rcases createZone_eq_ok h with ⟨_, _, _, _, _, _, hinsert⟩
  rw [(insertRecordInTx_same hinsert).zones]
  exact List.mem_append_left _ hzone

/-- The records of one zone, taken out of the table. -/
def withoutRecords (store : ZoneStore) (zoneId : Uuid) : ZoneStore :=
  { store with records := store.records.delete fun record => record.zoneId == zoneId }

theorem replaceRecords_eq_ok {hickory : Hickory} {store after : ZoneStore} {zoneId : Uuid}
    {records : List RecordInput} {now : Time} :
    replaceRecords hickory store zoneId records now = .ok after ↔
      ∃ zone middle, store.getZone zoneId = some zone ∧
        insertRecords hickory zoneId zone.name now (withoutRecords store zoneId) records =
          .ok middle ∧
        middle.updateZone zoneId (fun zone => { zone with lastModifiedAt := now }) (fun _ => rfl) =
          after := by
  unfold replaceRecords
  simp only [pure_eq, bind_eq_ok, requireZone_eq_ok, Except.ok.injEq]
  constructor
  · intro h
    rcases h with ⟨zone, hzone, middle, hinsert, hafter⟩
    exact ⟨zone, middle, hzone, hinsert, hafter⟩
  · intro h
    rcases h with ⟨zone, middle, hzone, hinsert, hafter⟩
    exact ⟨zone, hzone, middle, hinsert, hafter⟩

/-- What is accepted depends on the records and the signing keys alone. -/
theorem checkContent_congr {hickory : Hickory} {first second : ZoneStore} {zoneId : Uuid}
    {name rtype content : Text} {disabled : Bool} (hrecords : first.records = second.records)
    (hkeys : first.dnssecKeys = second.dnssecKeys) :
    checkContent hickory first zoneId name rtype content disabled =
      checkContent hickory second zoneId name rtype content disabled := by
  unfold checkContent checkAlias checkAutoPtr checkRData ZoneStore.isSigned
  rw [hrecords, hkeys]

theorem insertRecords_congr {hickory : Hickory} {first second after : ZoneStore} {zoneId : Uuid}
    {zoneName : Text} {now : Time} {inputs : List RecordInput}
    (hrecords : first.records = second.records) (hkeys : first.dnssecKeys = second.dnssecKeys)
    (h : insertRecords hickory zoneId zoneName now first inputs = .ok after) :
    ∃ other, insertRecords hickory zoneId zoneName now second inputs = .ok other := by
  induction inputs generalizing first second with
  | nil => exact ⟨second, rfl⟩
  | cons input inputs ih =>
    rcases insertRecords_cons.mp h with ⟨record, middle, hinsert, hrest⟩
    rcases insertRecordInTx_eq_ok.mp hinsert with ⟨⟨hknown, hname, content, hcontent⟩, _, rfl⟩
    rw [checkContent_congr hrecords hkeys] at hcontent
    let grown : ZoneStore := { second with
      records := second.records.insert (storedRow zoneId zoneName input now) (fun _ => rfl) }
    have hgrown : insertRecordInTx hickory second zoneId zoneName input now =
        .ok (storedRow zoneId zoneName input now second.records.next, grown) :=
      insertRecordInTx_eq_ok.mpr ⟨⟨hknown, hname, content, hcontent⟩, rfl, rfl⟩
    rw [hrecords] at hrest
    have hlater : ∃ other, insertRecords hickory zoneId zoneName now grown inputs = .ok other := by
      refine ih ?_ ?_ hrest
      · rfl
      · exact hkeys
    rcases hlater with ⟨other, hother⟩
    exact ⟨other, insertRecords_cons.mpr ⟨_, _, hgrown, hother⟩⟩

theorem deleteAll_same (zoneId : Uuid) (dels : List DeleteSpec) (store : ZoneStore) :
    SameButRecords store (dels.foldl (fun store del => deleteMatching store zoneId del) store) := by
  induction dels generalizing store with
  | nil => exact .refl store
  | cons del dels ih =>
    have hfirst : SameButRecords store (deleteMatching store zoneId del) :=
      ⟨rfl, rfl, rfl, rfl, rfl⟩
    exact hfirst.trans (ih _)

theorem deleteAll_rows (zoneId : Uuid) (dels : List DeleteSpec) (store : ZoneStore) :
    (dels.foldl (fun store del => deleteMatching store zoneId del) store).records.rows =
      store.records.rows.filter fun record => !dels.any fun del => del.hits zoneId record := by
  induction dels generalizing store with
  | nil => simp
  | cons del dels ih =>
    rw [List.foldl_cons, ih, deleteMatching, Table.delete_rows, List.filter_filter]
    apply List.filter_congr
    intro record _
    simp [Bool.and_comm]

end DaygleDns.Authoritative
