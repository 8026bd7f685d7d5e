import DaygleDns.Authoritative.UpdateFacts
import DaygleDns.EditScript

/-! A dynamic update deletes everything it deletes before it adds anything. RFC
2136 processes the update records in message order; here the two are compared. -/
namespace DaygleDns.Authoritative

open Text Fallible Edit Bids

/-- What a stored record says, apart from its row's identity and history. -/
def Record.value (record : Record) : RecordInput where
  name := record.name
  rtype := record.rtype
  content := record.content
  ttl := record.ttl
  priority := record.priority
  disabled := record.disabled

def recordValues (store : ZoneStore) (zoneId : Uuid) : List RecordInput :=
  (store.records.rows.filter fun record => record.zoneId == zoneId).map Record.value

def Zone.soa (zone : Zone) : SoaUpdate where
  primaryNs := zone.primaryNs
  adminMailbox := zone.adminMailbox
  serial := zone.serial
  refresh := zone.refresh
  retry := zone.retry
  expire := zone.expire
  minimum := zone.minimum

/-- The same records, whatever their number and order, and the same SOA. -/
structure SameRecordSet (zoneId : Uuid) (first second : ZoneStore) : Prop where
  values : ∀ value, value ∈ recordValues first zoneId ↔ value ∈ recordValues second zoneId
  soa : (first.getZone zoneId).map Zone.soa = (second.getZone zoneId).map Zone.soa

/-! The update records taken one at a time, each on the result of those before. -/

structure Progress where
  store : ZoneStore
  soa : Option SoaUpdate
  changed : Bool

/-- The zone with the SOA that the records so far have given it. -/
def Progress.zoneNow (progress : Progress) (zone : Zone) : Zone :=
  match progress.soa with
  | some soa => soa.writeTo zone.lastModifiedAt zone
  | none => zone

def updateOne (hickory : Hickory) (zone : Zone) (now : Time) (progress : Progress)
    (record : UpdateRecord) : Except ResponseCode Progress := do
  let plan ← planRecord (progress.zoneNow zone) {} record
  let store := plan.deletes.foldl (fun store del => deleteMatching store zone.id del) progress.store
  let store ← (insertRecords hickory zone.id zone.name now store plan.adds).mapError
    fun _ => ResponseCode.refused
  pure { store, soa := plan.soa.or progress.soa, changed := progress.changed || !plan.isEmpty }

theorem moved_id (zone : Zone) (now : Time) (row : Zone) :
    { row with serial := nextSerial zone.serial, lastModifiedAt := now : Zone }.id = row.id := rfl

/-- The serial moves once for the whole message. -/
def Progress.settle (progress : Progress) (zone : Zone) (now : Time) : ZoneStore :=
  match progress.soa with
  | some soa => progress.store.updateZone zone.id (soa.writeTo now) (soa.writeTo_id now)
  | none =>
      if progress.changed then
        progress.store.updateZone zone.id
          (fun row => { row with serial := nextSerial zone.serial, lastModifiedAt := now })
          (moved_id zone now)
      else progress.store

def updateOneByOne (hickory : Hickory) (store : ZoneStore) (zone : Zone)
    (updates : List UpdateRecord) (now : Time) : Except ResponseCode ZoneStore := do
  let done ← updates.foldlM (updateOne hickory zone now) ⟨store, none, false⟩
  pure (done.settle zone now)

/-! The changes as a script on record values and as bids for the SOA. -/

/-- What the insertion of an input stores. -/
def storedValue (zoneName : Text) (input : RecordInput) : RecordInput where
  name := qualifyName input.name zoneName
  rtype := toAsciiUppercase input.rtype
  content := storedContent (toAsciiUppercase input.rtype) (trim input.content)
  ttl := input.ttl
  priority := input.priority
  disabled := input.disabled

@[simp] theorem storedRow_value (zoneId : Uuid) (zoneName : Text) (input : RecordInput)
    (now : Time) (id : Uuid) :
    (storedRow zoneId zoneName input now id).value = storedValue zoneName input := rfl

def DeleteSpec.covers (del : DeleteSpec) (value : RecordInput) : Bool :=
  value.name == normalizeFqdn del.name &&
    del.rtype.all (fun rtype => value.rtype == toAsciiUppercase rtype) &&
    del.content.all (fun content => value.content == content)

theorem hits_eq_covers (zoneId : Uuid) (del : DeleteSpec) (record : Record) :
    del.hits zoneId record = (record.zoneId == zoneId && del.covers record.value) := by
  simp only [DeleteSpec.hits, DeleteSpec.covers, Record.value, Bool.and_assoc]

def Change.edit (zoneName : Text) : Change → Option (Edit RecordInput)
  | .add input => some (.add (storedValue zoneName input))
  | .delete del => some (.remove del.covers)
  | .soa _ => none

def Change.bid : Change → Option SoaUpdate
  | .add _ => none
  | .delete _ => none
  | .soa wanted => some wanted

def editScript (zoneName : Text) (updates : List UpdateRecord) : List (Edit RecordInput) :=
  (changesOf zoneName updates).filterMap (Change.edit zoneName)

def soaBids (zoneName : Text) (updates : List UpdateRecord) : List SoaUpdate :=
  (changesOf zoneName updates).filterMap Change.bid

def newerSoa (soa : SoaUpdate) (serial : UInt32) : Bool := serialNewer soa.serial serial

/-- An enabled ALIAS refuses address and CNAME records at its name. -/
def aliasRefuses (other value : RecordInput) : Bool :=
  other.rtype == ("ALIAS" : Text) && !other.disabled && other.name == value.name &&
    decide (value.rtype ∈ (["A", "AAAA", "CNAME"] : List Text)) && !value.disabled

/-- Message order makes no difference: every record added is added where no
later record deletes it; the ALIAS records in its way are deleted before; and
the last of the newer SOA records wins in its turn as well. -/
structure OrderFree (store : ZoneStore) (zone : Zone) (updates : List UpdateRecord) : Prop where
  lasting : ∀ value ∈ additions (editScript zone.name updates),
    Lasting value (editScript zone.name updates)
  unrefused : Unrefused aliasRefuses (recordValues store zone.id) (editScript zone.name updates)
  soa : LastWins newerSoa SoaUpdate.serial zone.serial (soaBids zone.name updates)

/-! The plan is the script run in one batch. -/

theorem foldl_addTo (zoneName : Text) (serial : UInt32) (changes : List Change)
    (plan : DynamicUpdate) :
    let after := changes.foldl (Change.addTo serial) plan
    after.deletes.map DeleteSpec.covers = plan.deletes.map DeleteSpec.covers ++
        removals (changes.filterMap (Change.edit zoneName)) ∧
      after.adds.map (storedValue zoneName) = plan.adds.map (storedValue zoneName) ++
        additions (changes.filterMap (Change.edit zoneName)) ∧
      after.soa = (lastNewer newerSoa serial (changes.filterMap Change.bid)).or plan.soa := by
  induction changes generalizing plan with
  | nil => simp [removals, additions, lastNewer]
  | cons change changes ih =>
    rw [List.foldl_cons]
    rcases ih (change.addTo serial plan) with ⟨hdeletes, hadds, hsoa⟩
    cases change with
    | add input =>
      simp only [Change.addTo, List.map_append, List.map_cons, List.map_nil] at hdeletes hadds hsoa
      simp [Change.edit, Change.bid, Change.addTo, hdeletes, hadds, hsoa, List.filterMap_cons]
    | delete del =>
      simp only [Change.addTo, List.map_append, List.map_cons, List.map_nil] at hdeletes hadds hsoa
      simp [Change.edit, Change.bid, Change.addTo, hdeletes, hadds, hsoa, List.filterMap_cons]
    | soa soa =>
      by_cases hnewer : serialNewer soa.serial serial = true
      · simp only [Change.addTo, hnewer, if_true] at hdeletes hadds hsoa
        simp only [Change.edit, Change.bid, Change.addTo, hnewer, if_true, List.filterMap_cons,
          hdeletes, hadds, hsoa, true_and]
        simp only [lastNewer, newerSoa, List.filter_cons, hnewer, if_true, List.getLast?_cons]
        cases (List.filter (fun bid : SoaUpdate => serialNewer bid.serial serial)
          (changes.filterMap Change.bid)).getLast? <;> rfl
      · simp only [Change.addTo, hnewer, if_false, Bool.false_eq_true] at hdeletes hadds hsoa
        simp [Change.edit, Change.bid, Change.addTo, hnewer, hdeletes, hadds, hsoa, lastNewer,
          newerSoa, List.filterMap_cons]

theorem storedRows_values (zoneId : Uuid) (zoneName : Text) (now : Time) (id : Uuid)
    (inputs : List RecordInput) :
    (storedRows zoneId zoneName now id inputs).map Record.value =
      inputs.map (storedValue zoneName) := by
  induction inputs generalizing id with
  | nil => rfl
  | cons input inputs ih => simp [ih]

theorem storedRows_zoneId (zoneId : Uuid) (zoneName : Text) (now : Time) (id : Uuid)
    (inputs : List RecordInput) :
    (storedRows zoneId zoneName now id inputs).filter (fun record => record.zoneId == zoneId) =
      storedRows zoneId zoneName now id inputs := by
  apply List.filter_eq_self.mpr
  intro record hrecord
  rcases mem_storedRows hrecord with ⟨input, _, other, rfl⟩
  simp [storedRow]

theorem deleteAll_values (zoneId : Uuid) (dels : List DeleteSpec) (store : ZoneStore) :
    recordValues (dels.foldl (fun store del => deleteMatching store zoneId del) store) zoneId =
      (recordValues store zoneId).filter fun value =>
        !(dels.map DeleteSpec.covers).any fun hits => hits value := by
  unfold recordValues
  rw [deleteAll_rows, List.filter_map, List.filter_filter, List.filter_filter]
  apply congrArg
  apply List.filter_congr
  intro record _
  by_cases hzone : record.zoneId = zoneId
  · simp [hits_eq_covers, hzone, Function.comp_def]
  · have hmiss : (record.zoneId == zoneId) = false := beq_eq_false_iff_ne.mpr hzone
    simp [hmiss]

theorem insertRecords_values {hickory : Hickory} {zoneId : Uuid} {zoneName : Text} {now : Time}
    {store after : ZoneStore} {inputs : List RecordInput}
    (h : insertRecords hickory zoneId zoneName now store inputs = .ok after) :
    recordValues after zoneId = recordValues store zoneId ++ inputs.map (storedValue zoneName) := by
  unfold recordValues
  rw [(insertRecords_eq_ok h).2, List.filter_append, List.map_append, storedRows_zoneId,
    storedRows_values]

/-- What the insertion of a record of a wire type checks of the input alone. -/
structure Insertable (hickory : Hickory) (zoneName : Text) (input : RecordInput) : Prop where
  wire : toAsciiUppercase input.rtype ∉ (["ALIAS", "AUTOPTR"] : List Text)
  known : toAsciiUppercase input.rtype ∈ knownRecordTypes
  name : validateOwnerName (qualifyName input.name zoneName) = .ok ()
  parses : hickory.parseRecordType (toAsciiUppercase input.rtype) = .ok ()
  content : hickory.tryFromStr (toAsciiUppercase input.rtype) (trim input.content) = .ok ()

theorem checkContent_wire {hickory : Hickory} {store : ZoneStore} {zoneId : Uuid}
    {name rtype content : Text} {disabled : Bool}
    (hwire : rtype ∉ (["ALIAS", "AUTOPTR"] : List Text)) :
    checkContent hickory store zoneId name rtype content disabled =
      checkRData hickory store zoneId name rtype content disabled := by
  rw [List.mem_cons, List.mem_singleton, not_or] at hwire
  unfold checkContent
  rw [if_neg hwire.1, if_neg hwire.2]

/-- Only an ALIAS can still refuse what is insertable. -/
theorem unrefused_iff {store : ZoneStore} {zoneId : Uuid} {zoneName : Text} {input : RecordInput} :
    (∀ other ∈ recordValues store zoneId, aliasRefuses other (storedValue zoneName input) = false) ↔
      (toAsciiUppercase input.rtype ∈ (["A", "AAAA", "CNAME"] : List Text) →
        input.disabled = false →
        ∀ record, ¬ enabledAt store zoneId (qualifyName input.name zoneName) "ALIAS" record) := by
  constructor
  · intro h htype hdisabled record henabled
    rcases henabled with ⟨hrecord, hzone, hname, halias, henabled⟩
    have hvalue : record.value ∈ recordValues store zoneId :=
      List.mem_map.mpr ⟨record, List.mem_filter.mpr ⟨hrecord, by simp [hzone]⟩, rfl⟩
    have hfree := h record.value hvalue
    simp only [aliasRefuses, storedValue, Record.value, halias, henabled, hname, htype, hdisabled,
      decide_true, beq_self_eq_true, Bool.not_false, Bool.and_self] at hfree
    exact absurd hfree (by decide)
  · intro h other hother
    rcases List.mem_map.mp hother with ⟨record, hrecord, rfl⟩
    rcases List.mem_filter.mp hrecord with ⟨hrecord, hzone⟩
    rw [Bool.eq_false_iff]
    intro hrefuses
    simp only [aliasRefuses, storedValue, Record.value, Bool.and_eq_true, beq_iff_eq,
      Bool.not_eq_true'] at hrefuses
    rcases hrefuses with ⟨⟨⟨⟨halias, henabled⟩, hname⟩, htype⟩, hdisabled⟩
    exact h (of_decide_eq_true htype) hdisabled record
      ⟨hrecord, by simpa using hzone, hname, halias, henabled⟩

theorem insertRecordInTx_insertable {hickory : Hickory} {store after : ZoneStore} {zoneId : Uuid}
    {zoneName : Text} {input : RecordInput} {now : Time} {record : Record}
    (hwire : toAsciiUppercase input.rtype ∉ (["ALIAS", "AUTOPTR"] : List Text))
    (h : insertRecordInTx hickory store zoneId zoneName input now = .ok (record, after)) :
    Insertable hickory zoneName input := by
  rcases insertRecordInTx_eq_ok.mp h with ⟨⟨hknown, hname, content, hcontent⟩, _⟩
  rw [checkContent_wire hwire, checkRData_eq_ok] at hcontent
  exact ⟨hwire, hknown, hname, hcontent.1, hcontent.2.1⟩

theorem insertRecords_insertable {hickory : Hickory} {zoneId : Uuid} {zoneName : Text}
    {now : Time} {store after : ZoneStore} {inputs : List RecordInput}
    (hwire : ∀ input ∈ inputs, toAsciiUppercase input.rtype ∉ (["ALIAS", "AUTOPTR"] : List Text))
    (h : insertRecords hickory zoneId zoneName now store inputs = .ok after) :
    ∀ input ∈ inputs, Insertable hickory zoneName input := by
  induction inputs generalizing store with
  | nil => simp
  | cons first inputs ih =>
    rcases insertRecords_cons.mp h with ⟨record, middle, hfirst, hrest⟩
    intro input hinput
    rcases List.mem_cons.mp hinput with rfl | hinput
    · exact insertRecordInTx_insertable (hwire input List.mem_cons_self) hfirst
    · exact ih (fun other hother => hwire other (List.mem_cons_of_mem _ hother)) hrest input hinput

theorem insertOne_ok_iff {hickory : Hickory} {zoneName : Text} {input : RecordInput}
    (hinput : Insertable hickory zoneName input) (zoneId : Uuid) (now : Time) (store : ZoneStore) :
    (∃ after, insertRecords hickory zoneId zoneName now store [input] = .ok after) ↔
      ∀ other ∈ recordValues store zoneId,
        aliasRefuses other (storedValue zoneName input) = false := by
  rw [unrefused_iff]
  constructor
  · intro h
    rcases h with ⟨after, h⟩
    rcases insertRecords_cons.mp h with ⟨record, middle, hfirst, _⟩
    rcases insertRecordInTx_eq_ok.mp hfirst with ⟨⟨_, _, content, hcontent⟩, _⟩
    rw [checkContent_wire hinput.wire, checkRData_eq_ok] at hcontent
    exact hcontent.2.2.1
  · intro h
    have hcontent : checkContent hickory store zoneId (qualifyName input.name zoneName)
        (toAsciiUppercase input.rtype) (trim input.content) input.disabled =
          .ok (trim input.content) := by
      rw [checkContent_wire hinput.wire, checkRData_eq_ok]
      exact ⟨hinput.parses, hinput.content, h, rfl⟩
    have hinsert : insertRecordInTx hickory store zoneId zoneName input now = .ok (_, _) :=
      insertRecordInTx_eq_ok.mpr ⟨⟨hinput.known, hinput.name, _, hcontent⟩, rfl, rfl⟩
    exact ⟨_, insertRecords_cons.mpr ⟨_, _, hinsert, rfl⟩⟩

/-! One record at a time, the changes are the script replayed. -/

/-- What some edits and bids make of the progress so far. -/
structure Progress.Follows (zone : Zone) (script : List (Edit RecordInput))
    (bids : List SoaUpdate) (before after : Progress) : Prop where
  values : replayUnless aliasRefuses (recordValues before.store zone.id) script =
    some (recordValues after.store zone.id)
  soa : after.soa = bids.foldl (take newerSoa SoaUpdate.serial zone.serial) before.soa
  same : SameButRecords before.store after.store
  changed : after.soa = none → after.changed = (before.changed || !script.isEmpty)

/-- The result agrees with the script: it goes through, or both are refused. -/
def Agrees (zone : Zone) (script : List (Edit RecordInput)) (bids : List SoaUpdate)
    (before : Progress) : Except ResponseCode Progress → Prop
  | .ok after => before.Follows zone script bids after
  | .error _ => replayUnless aliasRefuses (recordValues before.store zone.id) script = none

theorem take_eq_none {current : Option SoaUpdate} {serial : UInt32} {bids : List SoaUpdate}
    (h : bids.foldl (take newerSoa SoaUpdate.serial serial) current = none) : current = none := by
  cases current with
  | none => rfl
  | some soa =>
    rcases foldl_take_mem newerSoa SoaUpdate.serial serial bids (some soa) with hsame | ⟨_, _, hsame⟩
    · rw [hsame] at h
      exact h
    · rw [hsame] at h
      cases h

theorem Progress.Follows.trans {zone : Zone} {script more : List (Edit RecordInput)}
    {bids others : List SoaUpdate} {before middle after : Progress}
    (hfirst : before.Follows zone script bids middle)
    (hrest : middle.Follows zone more others after) :
    before.Follows zone (script ++ more) (bids ++ others) after where
  values := by
    rw [replayUnless_append, hfirst.values]
    exact hrest.values
  soa := by rw [List.foldl_append, ← hfirst.soa, hrest.soa]
  same := hfirst.same.trans hrest.same
  changed := by
    intro hnone
    have hmiddle : middle.soa = none := take_eq_none (hrest.soa.symm.trans hnone)
    rw [hrest.changed hnone, hfirst.changed hmiddle]
    cases script <;> simp

theorem zoneNow_name (progress : Progress) (zone : Zone) :
    (progress.zoneNow zone).name = zone.name := by
  unfold Progress.zoneNow
  cases progress.soa <;> rfl

theorem zoneNow_serial (progress : Progress) (zone : Zone) :
    (progress.zoneNow zone).serial = progress.soa.elim zone.serial SoaUpdate.serial := by
  unfold Progress.zoneNow
  cases progress.soa <;> rfl

theorem updateOne_agrees {hickory : Hickory} {zone : Zone} {record : UpdateRecord}
    {change : Change} (hchange : changeOf zone.name record = .ok change)
    (hinput : ∀ input, change = .add input → Insertable hickory zone.name input) (now : Time)
    (progress : Progress) :
    Agrees zone (change.edit zone.name).toList change.bid.toList progress
      (updateOne hickory zone now progress record) := by
  unfold updateOne
  rw [planRecord_eq, zoneNow_name, hchange, zoneNow_serial]
  simp only [Except.map, ok_bind]
  cases change with
  | add input =>
    have hiff := insertOne_ok_iff (hinput input rfl) zone.id now progress.store
    have hreplay : replayUnless aliasRefuses (recordValues progress.store zone.id)
        [.add (storedValue zone.name input)] =
          if (recordValues progress.store zone.id).any
            fun other => aliasRefuses other (storedValue zone.name input) then none
          else some (recordValues progress.store zone.id ++ [storedValue zone.name input]) := rfl
    simp only [Change.addTo, List.nil_append, List.foldl_nil]
    cases hinsert : insertRecords hickory zone.id zone.name now progress.store [input] with
    | error e =>
      change replayUnless _ _ [.add (storedValue zone.name input)] = none
      rw [hreplay, if_pos]
      by_contra hfree
      rw [List.any_eq_true] at hfree
      push Not at hfree
      rcases hiff.mpr fun other hother => by simpa using hfree other hother with ⟨after, hok⟩
      rw [hinsert] at hok
      exact error_ne_ok hok
    | ok after =>
      have hfree := hiff.mp ⟨after, hinsert⟩
      have hvalues := insertRecords_values hinsert
      exact {
        values := by
          change replayUnless _ _ [.add (storedValue zone.name input)] = _
          rw [hreplay, if_neg]
          · rw [hvalues]
            rfl
          · rw [List.any_eq_true]
            push Not
            intro other hother
            simp [hfree other hother]
        soa := rfl
        same := (insertRecords_eq_ok hinsert).1
        changed := fun _ => by simp [DynamicUpdate.isEmpty, Change.edit] }
  | delete del =>
    have hvalues := deleteAll_values zone.id [del] progress.store
    exact {
      values := by
        rw [List.foldl_cons, List.foldl_nil] at hvalues
        change some _ = some (recordValues (deleteMatching progress.store zone.id del) zone.id)
        rw [hvalues]
        simp [Edit.run]
      soa := rfl
      same := deleteAll_same zone.id [del] progress.store
      changed := fun _ => by simp [DynamicUpdate.isEmpty, Change.edit, Change.addTo] }
  | soa wanted =>
    have htake : take newerSoa SoaUpdate.serial zone.serial progress.soa wanted =
        if serialNewer wanted.serial (progress.soa.elim zone.serial SoaUpdate.serial)
          then some wanted else progress.soa := rfl
    cases hnewer : serialNewer wanted.serial (progress.soa.elim zone.serial SoaUpdate.serial) with
    | true =>
      simp only [Change.addTo, hnewer, if_true]
      exact {
        values := rfl
        soa := by
          change some wanted = take newerSoa SoaUpdate.serial zone.serial progress.soa wanted
          rw [htake, hnewer]
          rfl
        same := .refl _
        changed := fun hnone => by cases hnone }
    | false =>
      simp only [Change.addTo, hnewer, Bool.false_eq_true, if_false]
      exact {
        values := rfl
        soa := by
          change progress.soa = take newerSoa SoaUpdate.serial zone.serial progress.soa wanted
          rw [htake, hnewer]
          rfl
        same := .refl _
        changed := fun _ => by simp [DynamicUpdate.isEmpty, Change.edit] }

theorem filterMap_cons_toList {α β : Type} (f : α → Option β) (a : α) (as : List α) :
    (a :: as).filterMap f = (f a).toList ++ as.filterMap f := by
  rw [List.filterMap_cons]
  cases f a <;> rfl

theorem changesOf_cons {zoneName : Text} {record : UpdateRecord} {change : Change}
    (h : changeOf zoneName record = .ok change) (updates : List UpdateRecord) :
    changesOf zoneName (record :: updates) = change :: changesOf zoneName updates := by
  simp [changesOf, h, Except.toOption]

/-- The additions of a message that the server understood all went in. -/
def Insertables (hickory : Hickory) (zoneName : Text) (updates : List UpdateRecord) : Prop :=
  ∀ input, .add input ∈ changesOf zoneName updates → Insertable hickory zoneName input

theorem updates_agree {hickory : Hickory} {zone : Zone} {updates : List UpdateRecord}
    (hok : Understood zone.name updates) (hinputs : Insertables hickory zone.name updates)
    (now : Time) (progress : Progress) :
    Agrees zone (editScript zone.name updates) (soaBids zone.name updates) progress
      (updates.foldlM (updateOne hickory zone now) progress) := by
  induction updates generalizing progress with
  | nil => exact ⟨rfl, rfl, .refl _, fun _ => by simp [editScript, changesOf]⟩
  | cons record updates ih =>
    rcases hok record List.mem_cons_self with ⟨change, hchange⟩
    unfold Insertables at hinputs
    rw [changesOf_cons hchange] at hinputs
    have hinput : ∀ input, change = .add input → Insertable hickory zone.name input :=
      fun input hadd => hinputs input (hadd ▸ List.mem_cons_self)
    have hfirst := updateOne_agrees hchange hinput now progress
    have hrest : ∀ middle, Agrees zone (editScript zone.name updates) (soaBids zone.name updates)
        middle (updates.foldlM (updateOne hickory zone now) middle) :=
      ih (fun other hother => hok other (List.mem_cons_of_mem _ hother))
        fun input hinput => hinputs input (List.mem_cons_of_mem _ hinput)
    unfold editScript soaBids at hrest ⊢
    rw [changesOf_cons hchange, filterMap_cons_toList, filterMap_cons_toList, List.foldlM_cons]
    cases hstep : updateOne hickory zone now progress record with
    | error code =>
      rw [hstep] at hfirst
      change replayUnless _ _ _ = none at hfirst
      change replayUnless _ _ _ = none
      rw [replayUnless_append, hfirst]
      rfl
    | ok middle =>
      rw [hstep] at hfirst
      rw [ok_bind]
      have hlater := hrest middle
      cases hdone : updates.foldlM (updateOne hickory zone now) middle with
      | error code =>
        rw [hdone] at hlater
        change replayUnless _ _ _ = none at hlater
        change replayUnless _ _ _ = none
        rw [replayUnless_append, hfirst.values]
        exact hlater
      | ok after =>
        rw [hdone] at hlater
        exact hfirst.trans hlater

theorem classChange_wire {zoneName name : Text} {record : UpdateRecord} {input : RecordInput}
    (h : classChange zoneName name record = .ok (.add input)) :
    toAsciiUppercase input.rtype ∉ (["ALIAS", "AUTOPTR"] : List Text) := by
  unfold classChange at h
  cases hclass : record.dnsClass with
  | IN =>
    simp only [hclass] at h
    split at h
    · exact absurd h error_ne_ok
    · split at h
      · split at h
        · cases h
        · exact absurd h error_ne_ok
      · cases h
        exact record.data.recordType.wire
  | other =>
    rw [hclass] at h
    exact absurd h error_ne_ok
  | _ =>
    simp only [hclass] at h
    split at h
    · cases h
    · split at h <;> cases h

theorem added_wire {zoneName : Text} {updates : List UpdateRecord} {input : RecordInput}
    (h : .add input ∈ changesOf zoneName updates) :
    toAsciiUppercase input.rtype ∉ (["ALIAS", "AUTOPTR"] : List Text) := by
  rcases List.mem_filterMap.mp h with ⟨record, _, hrecord⟩
  cases hchange : changeOf zoneName record with
  | error code => simp [hchange, Except.toOption] at hrecord
  | ok change =>
    simp only [hchange, Except.toOption, Option.some.injEq] at hrecord
    rw [hrecord] at hchange
    rcases bind_eq_ok.mp hchange with ⟨_, _, hclass⟩
    exact classChange_wire hclass

theorem mem_foldl_adds {serial : UInt32} {changes : List Change} {plan : DynamicUpdate}
    {input : RecordInput} :
    input ∈ (changes.foldl (Change.addTo serial) plan).adds ↔
      input ∈ plan.adds ∨ .add input ∈ changes := by
  induction changes generalizing plan with
  | nil => simp
  | cons change changes ih =>
    rw [List.foldl_cons, ih, List.mem_cons]
    cases change with
    | add other => simp [Change.addTo, or_assoc]
    | delete del => simp [Change.addTo]
    | soa wanted =>
      simp only [Change.addTo]
      split <;> simp

/-- What the transaction leaves. -/
theorem applyDynamicUpdatesTx_eq_ok {hickory : Hickory} {store after : ZoneStore} {zone : Zone}
    {plan : DynamicUpdate} {now : Time}
    (h : applyDynamicUpdatesTx hickory store zone plan now = .ok after) :
    ∃ middle, insertRecords hickory zone.id zone.name now
        (plan.deletes.foldl (fun store del => deleteMatching store zone.id del) store) plan.adds =
          .ok middle ∧
      after = match plan.soa with
        | some soa => middle.updateZone zone.id (soa.writeTo now) (soa.writeTo_id now)
        | none => middle.updateZone zone.id
            (fun row => { row with serial := nextSerial zone.serial, lastModifiedAt := now })
            (fun _ => rfl) := by
  unfold applyDynamicUpdatesTx at h
  rcases bind_eq_ok.mp h with ⟨middle, hinsert, hsoa⟩
  refine ⟨middle, hinsert, ?_⟩
  cases hplan : plan.soa with
  | none =>
    rw [hplan] at hsoa
    exact (Except.ok.inj hsoa).symm
  | some soa =>
    rw [hplan] at hsoa
    rcases bind_eq_ok.mp hsoa with ⟨_, _, hwrite⟩
    exact (Except.ok.inj hwrite).symm

/-- The SOA a zone ends with, from the one a message gave it, if any. -/
def soaAfter (zone : Zone) (soa : Option SoaUpdate) (changed : Bool) : SoaUpdate :=
  match soa with
  | some soa => soa
  | none => if changed then { zone.soa with serial := nextSerial zone.serial } else zone.soa

theorem soaAfter_eq_iff (zone : Zone) (first second : Option SoaUpdate) (changed : Bool)
    (h : first.isSome = second.isSome) :
    soaAfter zone first changed = soaAfter zone second changed ↔ first = second := by
  cases first with
  | none => cases second <;> simp at h ⊢
  | some soa => cases second <;> simp [soaAfter] at h ⊢

theorem settle_soa {store : ZoneStore} {zone : Zone} {progress : Progress} (now : Time)
    (hzone : store.getZone zone.id = some zone) (hsame : SameButRecords store progress.store) :
    ((progress.settle zone now).getZone zone.id).map Zone.soa =
      some (soaAfter zone progress.soa progress.changed) := by
  have hget : progress.store.getZone zone.id = some zone := (hsame.getZone zone.id).trans hzone
  unfold Progress.settle soaAfter
  cases progress.soa with
  | some soa =>
    dsimp only
    rw [getZone_updateZone, hget]
    simp [SoaUpdate.writeTo, Zone.soa]
  | none =>
    dsimp only
    cases progress.changed with
    | true =>
      simp only [if_true]
      rw [getZone_updateZone, hget]
      simp [Zone.soa]
    | false =>
      simp only [Bool.false_eq_true, if_false]
      rw [hget]
      rfl

theorem settle_values (progress : Progress) (zone : Zone) (now : Time) (id : Uuid) :
    recordValues (progress.settle zone now) id = recordValues progress.store id := by
  unfold Progress.settle
  cases progress.soa with
  | some soa => rfl
  | none =>
    dsimp only
    split <;> rfl

theorem batch_outcome {hickory : Hickory} {store after : ZoneStore} {zone : Zone}
    {plan : DynamicUpdate} {now : Time} (hzone : store.getZone zone.id = some zone)
    (h : (plan.isEmpty = true ∧ after = store) ∨
      (plan.isEmpty = false ∧ applyDynamicUpdates hickory store zone.id plan now = .ok after)) :
    recordValues after zone.id =
        (recordValues store zone.id).filter (fun value =>
          !(plan.deletes.map DeleteSpec.covers).any fun hits => hits value) ++
          plan.adds.map (storedValue zone.name) ∧
      (after.getZone zone.id).map Zone.soa = some (soaAfter zone plan.soa (!plan.isEmpty)) ∧
      ((∀ input ∈ plan.adds, toAsciiUppercase input.rtype ∉ (["ALIAS", "AUTOPTR"] : List Text)) →
        ∀ input ∈ plan.adds, Insertable hickory zone.name input) := by
  rcases h with ⟨hempty, rfl⟩ | ⟨hchanged, h⟩
  · have hparts := hempty
    simp only [DynamicUpdate.isEmpty, Bool.and_eq_true, List.isEmpty_iff,
      Option.isNone_iff_eq_none] at hparts
    rcases hparts with ⟨⟨hadds, hdeletes⟩, hsoa⟩
    simp [hadds, hdeletes, hsoa, hempty, hzone, soaAfter]
  · unfold applyDynamicUpdates at h
    rcases bind_eq_ok.mp h with ⟨row, hrow, h⟩
    rw [requireZone_eq_ok, hzone] at hrow
    cases hrow
    rcases applyDynamicUpdatesTx_eq_ok h with ⟨middle, hinsert, hafter⟩
    have hsame := (deleteAll_same zone.id plan.deletes store).trans (insertRecords_eq_ok hinsert).1
    have hsettled : after = Progress.settle ⟨middle, plan.soa, true⟩ zone now := by
      rw [hafter]
      cases plan.soa <;> rfl
    refine ⟨?_, ?_, fun hwire => insertRecords_insertable hwire hinsert⟩
    · rw [hsettled, settle_values, insertRecords_values hinsert, deleteAll_values]
    · rw [hsettled, settle_soa now hzone hsame, hchanged]
      rfl

theorem updatedZone_getZone {store : ZoneStore} {msg : UpdateMessage} {zone : Zone}
    (h : updatedZone store msg = some zone) : store.getZone zone.id = some zone := by
  unfold updatedZone at h
  rcases Option.bind_eq_some_iff.mp h with ⟨query, _, hfind⟩
  exact (getZone_eq_some_iff store zone.id zone).mpr ⟨List.mem_of_find?_eq_some hfind, rfl⟩

/-- A plan holds the script's removals and additions and the winning SOA bid. -/
structure PlanOf (zone : Zone) (updates : List UpdateRecord) (plan : DynamicUpdate) : Prop where
  understood : Understood zone.name updates
  deletes : plan.deletes.map DeleteSpec.covers = removals (editScript zone.name updates)
  adds : plan.adds.map (storedValue zone.name) = additions (editScript zone.name updates)
  soa : plan.soa = lastNewer newerSoa zone.serial (soaBids zone.name updates)
  added : ∀ input, input ∈ plan.adds ↔ .add input ∈ changesOf zone.name updates

theorem buildPlan_eq_ok {zone : Zone} {updates : List UpdateRecord} {plan : DynamicUpdate}
    (h : buildPlan zone updates = .ok plan) : PlanOf zone updates plan := by
  rcases foldlM_planRecord h with ⟨hok, hplan⟩
  have hparts := foldl_addTo zone.name zone.serial (changesOf zone.name updates) {}
  simp only [← hplan, List.map_nil, List.nil_append, Option.or_none] at hparts
  refine ⟨hok, hparts.1, hparts.2.1, hparts.2.2, ?_⟩
  intro input
  rw [hplan, mem_foldl_adds]
  simp

theorem PlanOf.isEmpty {zone : Zone} {updates : List UpdateRecord} {plan : DynamicUpdate}
    (h : PlanOf zone updates plan) (hsoa : plan.soa = none) :
    plan.isEmpty = (editScript zone.name updates).isEmpty := by
  rw [isEmpty_eq, ← h.adds, ← h.deletes, DynamicUpdate.isEmpty, hsoa]
  simp

theorem additions_refuse_nothing (zoneName : Text) (updates : List UpdateRecord) :
    ∀ value ∈ additions (editScript zoneName updates), ∀ other,
      aliasRefuses value other = false := by
  intro value hvalue other
  rcases List.mem_filterMap.mp hvalue with ⟨edit, hedit, hadd⟩
  rcases List.mem_filterMap.mp hedit with ⟨change, hchange, hof⟩
  cases change with
  | add input =>
    have hwire := added_wire hchange
    rw [List.mem_cons, not_or] at hwire
    cases hof
    cases hadd
    simp only [aliasRefuses, storedValue, beq_eq_false_iff_ne.mpr hwire.1, Bool.false_and]
  | delete del =>
    cases hof
    cases hadd
  | soa wanted => cases hof

theorem sameRecordSet_iff {store after : ZoneStore} {zone : Zone} {updates : List UpdateRecord}
    {plan : DynamicUpdate} {done : Progress} (now : Time) (hplan : PlanOf zone updates plan)
    (hget : store.getZone zone.id = some zone)
    (hvalues : recordValues after zone.id =
      batch (recordValues store zone.id) (editScript zone.name updates))
    (hsoa : (after.getZone zone.id).map Zone.soa = some (soaAfter zone plan.soa (!plan.isEmpty)))
    (hdone : Progress.Follows zone (editScript zone.name updates) (soaBids zone.name updates)
      ⟨store, none, false⟩ done)
    (hreplay : recordValues done.store zone.id =
      replay (recordValues store zone.id) (editScript zone.name updates)) :
    SameRecordSet zone.id after (done.settle zone now) ↔
      (∀ value ∈ additions (editScript zone.name updates),
        Lasting value (editScript zone.name updates)) ∧
      LastWins newerSoa SoaUpdate.serial zone.serial (soaBids zone.name updates) := by
  have hforce : done.soa =
      inForce newerSoa SoaUpdate.serial zone.serial (soaBids zone.name updates) := hdone.soa
  have hfinal := settle_soa now hget hdone.same
  have hchanged : soaAfter zone done.soa done.changed = soaAfter zone done.soa (!plan.isEmpty) := by
    cases hnone : done.soa with
    | some soa => rfl
    | none =>
      have hplanSoa : plan.soa = none := by
        rw [hplan.soa, ← Option.not_isSome_iff_eq_none, ← inForce_isSome_iff newerSoa
          SoaUpdate.serial, ← hforce, hnone]
        simp
      rw [hdone.changed hnone, hplan.isEmpty hplanSoa]
      rfl
  have hsame : soaAfter zone plan.soa (!plan.isEmpty) = soaAfter zone done.soa done.changed ↔
      LastWins newerSoa SoaUpdate.serial zone.serial (soaBids zone.name updates) := by
    rw [hchanged, soaAfter_eq_iff, hforce, hplan.soa, eq_comm, inForce_eq_lastNewer_iff]
    rw [hforce, hplan.soa, inForce_isSome_iff]
  have hrecords : (∀ value, value ∈ recordValues after zone.id ↔
      value ∈ recordValues (done.settle zone now) zone.id) ↔
      ∀ value ∈ additions (editScript zone.name updates),
        Lasting value (editScript zone.name updates) := by
    rw [← replay_same_rows_iff (recordValues store zone.id), hvalues, settle_values, hreplay]
    exact forall_congr' fun value => Iff.comm
  rw [← hrecords, ← hsame]
  constructor
  · intro h
    refine ⟨h.values, ?_⟩
    have hboth := h.soa
    rw [hsoa, hfinal] at hboth
    exact Option.some.inj hboth
  · intro h
    refine ⟨h.1, ?_⟩
    rw [hsoa, hfinal, h.2]

/-- An accepted update leaves the records and the SOA that its records leave
one at a time exactly when their order makes no difference. -/
theorem update_one_by_one_iff {hickory : Hickory} {server : UpdateServer} {faults : Faults}
    {store after : ZoneStore} {msg : UpdateMessage} {now : Time} {zone : Zone}
    (hzone : updatedZone store msg = some zone)
    (haccepted : handleUpdate hickory server faults store msg now = (.noError, after)) :
    (∃ final, updateOneByOne hickory store zone msg.updates now = .ok final ∧
      SameRecordSet zone.id after final) ↔ OrderFree store zone msg.updates := by
  rcases handleUpdate_accepted haccepted with ⟨found, plan, hplanned, houtcome⟩
  rcases admitUpdate_eq_ok hplanned with ⟨hfound, hbuilt, _⟩
  rw [hzone] at hfound
  cases hfound
  have hget := updatedZone_getZone hzone
  have hplan := buildPlan_eq_ok hbuilt
  rcases batch_outcome hget houtcome with ⟨hvalues, hsoa, hinsertable⟩
  rw [hplan.deletes, hplan.adds] at hvalues
  have hinputs : Insertables hickory zone.name msg.updates := fun input hinput =>
    hinsertable (fun other hother => added_wire ((hplan.added other).mp hother)) input
      ((hplan.added input).mpr hinput)
  have hreplay := replayUnless_eq_some_iff aliasRefuses (recordValues store zone.id)
    (editScript zone.name msg.updates) (additions_refuse_nothing zone.name msg.updates)
  have hagrees := updates_agree hplan.understood hinputs now ⟨store, none, false⟩
  unfold updateOneByOne
  cases hrun : msg.updates.foldlM (updateOne hickory zone now) ⟨store, none, false⟩ with
  | error code =>
    rw [hrun] at hagrees
    constructor
    · intro h
      rcases h with ⟨final, hfinal, _⟩
      exact absurd hfinal error_ne_ok
    · intro h
      have hsome := (hreplay _).mpr ⟨h.unrefused, rfl⟩
      have hnone : replayUnless aliasRefuses (recordValues store zone.id)
        (editScript zone.name msg.updates) = none := hagrees
      rw [hnone] at hsome
      cases hsome
  | ok done =>
    rw [hrun] at hagrees
    rcases (hreplay _).mp hagrees.values with ⟨hunrefused, hdone⟩
    have hiff := sameRecordSet_iff now hplan hget hvalues hsoa hagrees hdone
    constructor
    · intro h
      rcases h with ⟨final, hfinal, hsame⟩
      cases hfinal
      rcases hiff.mp hsame with ⟨hlasting, hwins⟩
      exact ⟨hlasting, hunrefused, hwins⟩
    · intro h
      exact ⟨_, rfl, hiff.mpr ⟨h.lasting, h.soa⟩⟩

theorem wire_a : toAsciiUppercase "A" ∉ (["ALIAS", "AUTOPTR"] : List Text) := by decide

def addressOfWww (dnsClass : DNSClass) : UpdateRecord where
  name := "www.example.com."
  dnsClass := dnsClass
  data := .other ⟨"A", wire_a⟩ "192.0.2.1"
  ttl := 300

/-- A record added and then deleted in one message. -/
def addThenDelete : UpdateMessage := .exampleCom [addressOfWww .IN, addressOfWww .NONE]

def deleteThenAdd : UpdateMessage := .exampleCom [addressOfWww .NONE, addressOfWww .IN]

/-- The deleted record is there after the update. -/
theorem update_one_by_one_fails :
    updatedZone .exampleCom addThenDelete = some .exampleCom ∧
    (handleUpdate .acceptAll .open (fun _ => none) .exampleCom addThenDelete 1).1 = .noError ∧
    ¬ ∃ final,
      updateOneByOne .acceptAll .exampleCom .exampleCom addThenDelete.updates 1 = .ok final ∧
      SameRecordSet 0
        (handleUpdate .acceptAll .open (fun _ => none) .exampleCom addThenDelete 1).2 final := by
  refine ⟨by decide, by decide, ?_⟩
  intro h
  rcases h with ⟨final, hfinal, hsame⟩
  have hcount : ((updateOneByOne .acceptAll .exampleCom .exampleCom addThenDelete.updates 1).map
      fun store => (recordValues store 0).map RecordInput.rtype) = .ok ["NS"] := by decide
  rw [hfinal] at hcount
  have htypes : (recordValues final 0).map RecordInput.rtype = ["NS"] := Except.ok.inj hcount
  have hbatch : (recordValues (handleUpdate .acceptAll .open (fun _ => none) .exampleCom
      addThenDelete 1).2 0).any (fun value => value.rtype == ("A" : Text)) = true := by decide
  rcases List.any_eq_true.mp hbatch with ⟨value, hvalue, htype⟩
  have hmem : value.rtype ∈ (recordValues final 0).map RecordInput.rtype :=
    List.mem_map_of_mem ((hsame.values value).mp hvalue)
  rw [htypes, beq_iff_eq.mp htype] at hmem
  exact absurd hmem (by decide)

theorem update_one_by_one_delete_first : ∃ final,
    updateOneByOne .acceptAll .exampleCom .exampleCom deleteThenAdd.updates 1 = .ok final ∧
    SameRecordSet 0
      (handleUpdate .acceptAll .open (fun _ => none) .exampleCom deleteThenAdd 1).2 final := by
  have hbids : soaBids Zone.exampleCom.name deleteThenAdd.updates = [] := by decide
  apply (update_one_by_one_iff (by decide) (Prod.ext (by decide) rfl)).mpr
  refine ⟨by decide, by decide, ?_⟩
  rw [hbids]
  intro earlier bid later h
  simp at h

end DaygleDns.Authoritative
