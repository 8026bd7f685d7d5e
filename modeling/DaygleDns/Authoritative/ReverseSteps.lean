import DaygleDns.Authoritative.ReverseZones

/-! What the requests of the record routes and `sync` do to the records. -/
namespace DaygleDns.Authoritative

open Text Dhcp Fallible

/-- Whether `record` asks for the PTR record. -/
def justifies (ptr record : Record) : Bool :=
  !record.disabled && (recordAddress record).any (fun ip => sameName ptr.name (reverseName ip)) && sameName ptr.content record.name

def justified (store : ZoneStore) (ptr : Record) : Bool := store.records.rows.any (justifies ptr)

def isPtr (record : Record) : Bool := record.rtype == "PTR".toList

theorem justifies_iff {ptr record : Record} : justifies ptr record = true ↔ record.disabled = false ∧
    (∃ ip, recordAddress record = some ip ∧ sameName ptr.name (reverseName ip) = true) ∧ sameName ptr.content record.name = true := by
  simp [justifies, Option.any_eq_true, and_assoc]

theorem justified_iff {store : ZoneStore} {ptr : Record} :
    justified store ptr = true ↔ ∃ record ∈ store.records.rows, justifies ptr record = true := List.any_eq_true

/-- The names of the zones and what is secondary are as before. -/
structure ZonesKept (before after : ZoneStore) : Prop where
  names : zoneNames after = zoneNames before
  secondary : after.secondaryZones = before.secondaryZones

theorem ZonesKept.refl (store : ZoneStore) : ZonesKept store store := ⟨rfl, rfl⟩

theorem ZonesKept.trans {a b c : ZoneStore} (hab : ZonesKept a b) (hbc : ZonesKept b c) : ZonesKept a c :=
  ⟨hbc.names.trans hab.names, hbc.secondary.trans hab.secondary⟩

theorem isSecondary_kept {before after : ZoneStore} (h : ZonesKept before after) (zoneId : Uuid) :
    isSecondary after zoneId = isSecondary before zoneId := by
  rw [isSecondary, h.secondary, isSecondary]

theorem zonesKept_of_same {before after : ZoneStore} (h : SameButRecords before after) : ZonesKept before after :=
  ⟨by rw [zoneNames, h.zones, zoneNames], h.secondaryZones⟩

variable {hickory : Hickory} {store after : ZoneStore} {now : Time}

theorem bumpSerialIn_zonesKept {zoneId : Uuid} {next : UInt32} (h : bumpSerialIn store zoneId now = .ok (next, after)) :
    ZonesKept store after := by
  obtain ⟨_, _, _, rfl⟩ := bumpSerialIn_eq_ok h
  constructor
  · unfold zoneNames ZoneStore.updateZone
    rw [Table.update_rows, List.map_map]
    apply List.map_congr_left
    intro zone _
    cases hzone : zone.id == zoneId <;> simp only [Function.comp_apply, hzone] <;> rfl
  · rfl

theorem upsertRecord_rows {zoneId : Uuid} {input : RecordInput} {record : Record}
    (h : upsertRecord hickory store zoneId input now = .ok (record, after)) :
    ZonesKept store after ∧ after.records.rows = store.records.rows ++ [record] ∧ after.records.next = store.records.next + 1 ∧
      ∃ zone, store.getZone zoneId = some zone ∧ record = storedRow zone.id zone.name input now store.records.next := by
  unfold upsertRecord upsertRecordTx at h
  obtain ⟨zone, hzone, h⟩ := bind_eq_ok.mp h
  obtain ⟨⟨inserted, middle⟩, hinsert, h⟩ := bind_eq_ok.mp h
  obtain ⟨⟨next, bumped⟩, hbump, h⟩ := bind_eq_ok.mp h
  cases h
  have hkept := (zonesKept_of_same (insertRecordInTx_same hinsert)).trans (bumpSerialIn_zonesKept hbump)
  obtain ⟨-, hrecord, hmiddle⟩ := insertRecordInTx_eq_ok.mp hinsert
  have hrecords := bumpSerialIn_records hbump
  rw [hmiddle] at hrecords
  exact ⟨hkept, by rw [hrecords, hrecord]; rfl, by rw [hrecords]; rfl, zone, requireZone_eq_ok.mp hzone, hrecord⟩

theorem deleteRecord_rows {id : Uuid} {found : Bool} (h : deleteRecord store id now = .ok (found, after)) :
    ZonesKept store after ∧ after.records.rows = store.records.rows.filter (fun record => record.id ≠ id) ∧
      after.records.next = store.records.next := by
  have hrows := (deleteRecord_facts h).1
  unfold deleteRecord at h
  split at h
  · cases h
    exact ⟨.refl _, hrows, rfl⟩
  · obtain ⟨⟨next, bumped⟩, hbump, h⟩ := bind_eq_ok.mp h
    cases h
    refine ⟨?_, hrows, ?_⟩
    · exact (zonesKept_of_same (by exact ⟨rfl, rfl, rfl, rfl, rfl⟩)).trans (bumpSerialIn_zonesKept hbump)
    · rw [bumpSerialIn_records hbump]
      rfl

theorem setRecordDisabled_rows {id : Uuid} {disabled found : Bool}
    (h : setRecordDisabled store id disabled now = .ok (found, after)) :
    ZonesKept store after ∧ after.records.next = store.records.next ∧
      (after.records.rows = store.records.rows ∧ (∀ record, store.getRecord id = some record → record.disabled = disabled) ∨
        after.records.rows = store.records.rows.map fun record =>
          if record.id == id then { record with disabled, lastModifiedAt := now } else record) := by
  unfold setRecordDisabled at h
  split at h
  · rename_i hnone
    cases h
    exact ⟨.refl _, rfl, .inl ⟨rfl, fun record hrecord => by rw [hnone] at hrecord; cases hrecord⟩⟩
  · rename_i record hrecord
    split at h
    · rename_i hsame
      cases h
      refine ⟨.refl _, rfl, .inl ⟨rfl, fun other hother => ?_⟩⟩
      rw [hrecord] at hother
      exact Option.some.inj hother ▸ hsame
    · obtain ⟨⟨next, bumped⟩, hbump, h⟩ := bind_eq_ok.mp h
      cases h
      have hrecords := bumpSerialIn_records hbump
      refine ⟨?_, by rw [hrecords]; rfl, .inr (by rw [hrecords]; rfl)⟩
      exact (zonesKept_of_same (by exact ⟨rfl, rfl, rfl, rfl, rfl⟩)).trans (bumpSerialIn_zonesKept hbump)

/-- The row that was inserted last is the only one that gets another key. -/
theorem rekeyed_rows (records : Table Record Record.id) (recordId : Uuid) (row : Uuid → Record) (change : Record → Record)
    (hrow : ∀ id, (row id).id = id) :
    (((records.delete fun record => record.id == recordId).insert row hrow).rows.map fun record =>
        if record.id == (row records.next).id then change record else record) =
      records.rows.filter (fun record => record.id ≠ recordId) ++ [change (row records.next)] := by
  rw [Table.insert_rows, Table.delete_rows, List.map_append]
  congr 1
  · have hkept : ∀ record ∈ records.rows.filter (fun record => !(record.id == recordId)),
        (if record.id == (row records.next).id then change record else record) = record := by
      intro record hrecord
      have hbelow := records.below record (List.mem_of_mem_filter hrecord)
      have hne : (record.id == (row records.next).id) = false := by
        rw [hrow, beq_eq_false_iff_ne]
        exact Nat.ne_of_lt hbelow
      rw [hne]
      rfl
    rw [List.map_congr_left hkept, List.map_id']
    apply List.filter_congr
    intro record _
    by_cases hid : record.id = recordId <;> simp [hid]
  · simp [Table.delete]

theorem replaceRecord_rows {zoneId recordId : Uuid} {input : RecordInput} {record : Record}
    (h : replaceRecord hickory store zoneId recordId input now = .ok (some record, after)) :
    ZonesKept store after ∧ store.records.next ≤ after.records.next ∧
      ∃ prior, store.getRecord recordId = some prior ∧ record.id = recordId ∧ record.disabled = prior.disabled ∧
        record.rtype = toAsciiUppercase input.rtype ∧
        after.records.rows = store.records.rows.filter (fun other => other.id ≠ recordId) ++ [record] := by
  unfold replaceRecord replaceRecordTx at h
  obtain ⟨zone, hzone, h⟩ := bind_eq_ok.mp h
  split at h
  · cases h
  · rename_i prior hprior
    obtain ⟨⟨inserted, middle⟩, hinsert, h⟩ := bind_eq_ok.mp h
    dsimp only at h
    split at h
    · rename_i records hrekey
      obtain ⟨⟨next, bumped⟩, hbump, h⟩ := bind_eq_ok.mp h
      cases h
      have hsame := insertRecordInTx_same hinsert
      have hkept : ZonesKept store { middle with records } :=
        zonesKept_of_same ⟨hsame.zones, hsame.dnssecKeys, hsame.zoneAliases, hsame.secondaryZones, hsame.zoneTransfers⟩
      obtain ⟨-, hrecord, hmiddle⟩ := insertRecordInTx_eq_ok.mp hinsert
      have hrecords := bumpSerialIn_records hbump
      have hrows := Table.rekey_rows _ _ _ _ _ _ hrekey
      refine ⟨hkept.trans (bumpSerialIn_zonesKept hbump), ?_, prior, ?_, rfl, ?_, ?_, ?_⟩
      · have hnext := Table.rekey_next _ _ _ _ _ _ hrekey
        rw [hmiddle] at hnext
        rw [hrecords]
        exact Nat.le_of_succ_le hnext
      · exact (Option.filter_eq_some_iff.mp hprior).1
      · rw [hrecord]; rfl
      · rw [hrecord]; rfl
      · rw [hrecords]
        change records.rows = _
        rw [hrows, hmiddle, hrecord]
        exact rekeyed_rows store.records recordId (storedRow zone.id zone.name { input with disabled := prior.disabled } now)
          (fun row => { row with id := recordId, lastModifiedAt := now, lastUsedAt := prior.lastUsedAt }) fun _ => rfl
    · cases h

theorem createZone_rows {input : ZoneInput} {created : Zone} (h : createZone hickory store input now = .ok (created, after)) :
    zoneNames after = zoneNames store ++ [(created.id, normalizeFqdn input.name)] ∧ created.name = normalizeFqdn input.name ∧
      created ∈ after.zones.rows ∧ after.secondaryZones = store.secondaryZones ∧
      (∀ zone ∈ store.zones.rows, zone.name ≠ normalizeFqdn input.name) ∧
      ∃ record, record.rtype = "NS".toList ∧ record.id = store.records.next ∧ after.records.rows = store.records.rows ++ [record] ∧
        after.records.next = store.records.next + 1 := by
  unfold createZone at h
  simp only [throw_eq, pure_eq, error_bind, bind_eq_ok] at h
  obtain ⟨_, _, h⟩ := h
  split at h
  · exact absurd h error_ne_ok
  · obtain ⟨hfree, h⟩ := guard_eq_ok.mp h
    obtain ⟨⟨record, grown⟩, hinsert, hafter⟩ := bind_eq_ok.mp h
    cases hafter
    have hsame := insertRecordInTx_same hinsert
    obtain ⟨-, hrecord, hgrown⟩ := insertRecordInTx_eq_ok.mp hinsert
    refine ⟨?_, rfl, ?_, hsame.secondaryZones, ?_, record, ?_, ?_, ?_, ?_⟩
    · rw [zoneNames, hsame.zones, Table.insert_rows, List.map_append]
      rfl
    · rw [hsame.zones, Table.insert_rows]
      simp
    · intro zone hzone heq
      apply hfree
      rw [List.any_eq_true]
      exact ⟨zone, hzone, beq_iff_eq.mpr heq⟩
    · rw [hrecord]
      rfl
    · rw [hrecord]
      rfl
    · rw [hgrown, hrecord]
      rfl
    · rw [hgrown]
      rfl

/-! Removing. -/

/-- The PTR records that `removePtr` takes out. -/
def removable (store : ZoneStore) (ip : IpAddr) (name : Text) (record : Record) : Bool :=
  (reverseZone store (reverseName ip)).any fun zone =>
    !isSecondary store zone.id && record.zoneId == zone.id && pointsBack (reverseName ip) name record

/-- Some records have gone. -/
structure Removed (store after : ZoneStore) (hit : Record → Bool) : Prop where
  zones : ZonesKept store after
  next : after.records.next = store.records.next
  rows : after.records.rows = store.records.rows.filter fun record => !hit record

variable (setting : ReverseSetting)

theorem removeFrom_removed (owner name : Text) (records : List Record) {store : ZoneStore} (outcome : ReverseOutcome)
    (hzones : ∀ record ∈ store.records.rows, ∀ listed ∈ records, record.id = listed.id → (store.getZone record.zoneId).isSome) :
    (∃ after, (removeFrom setting owner name records store outcome).1 = .ok after) ∧
      Removed store (removeFrom setting owner name records store outcome).2
        (fun record => records.any fun listed => pointsBack owner name listed && listed.id == record.id) := by
  induction records generalizing store outcome with
  | nil =>
    refine ⟨⟨outcome, rfl⟩, .refl _, rfl, ?_⟩
    simp [removeFrom]
  | cons first rest ih =>
    unfold removeFrom
    cases hback : pointsBack owner name first with
    | false =>
      simp only [Bool.false_eq_true, if_false]
      have hrest := ih outcome (fun record hrecord listed hlisted => hzones record hrecord listed (List.mem_cons_of_mem _ hlisted))
      refine ⟨hrest.1, hrest.2.zones, hrest.2.next, ?_⟩
      rw [hrest.2.rows]
      apply List.filter_congr
      intro record _
      rw [List.any_cons, hback]
      rfl
    | true =>
      simp only [if_true]
      have hdeletes : ∃ found after, deleteRecord store first.id setting.now = .ok (found, after) :=
        deleteRecord_succeeds fun record hrecord hid => hzones record hrecord first List.mem_cons_self hid
      obtain ⟨found, after, hdelete⟩ := hdeletes
      have hfacts := deleteRecord_rows hdelete
      have hstay := (deleteRecord_facts hdelete).2
      have hlater : ∀ record ∈ after.records.rows, ∀ listed ∈ rest, record.id = listed.id → (after.getZone record.zoneId).isSome := by
        intro record hrecord listed hlisted hid
        rw [hfacts.2.1] at hrecord
        exact hstay _ (hzones record (List.mem_of_mem_filter hrecord) listed (List.mem_cons_of_mem _ hlisted) hid)
      rw [hdelete]
      have hrest := @ih after (if found then { outcome with removed := outcome.removed ++ [owner] } else outcome) hlater
      refine ⟨hrest.1, hfacts.1.trans hrest.2.zones, hrest.2.next.trans hfacts.2.2, ?_⟩
      rw [hrest.2.rows, hfacts.2.1, List.filter_filter]
      apply List.filter_congr
      intro record _
      rw [List.any_cons, hback, Bool.true_and, Bool.not_or, Bool.and_comm]
      congr 1
      by_cases hid : record.id = first.id
      · simp [hid]
      · simp [hid, Ne.symm hid]

theorem removePtr_removed (hnames : NormalNames (zoneNames store)) (ip : IpAddr) (name : Text) (outcome : ReverseOutcome) :
    (∃ after, (removePtr setting store ip name outcome).1 = .ok after) ∧
      Removed store (removePtr setting store ip name outcome).2 (removable store ip name) := by
  have hnothing : Removed store store fun _ => false := ⟨.refl _, rfl, by simp⟩
  unfold removePtr removable
  cases hzone : reverseZone store (reverseName ip) with
  | none => exact ⟨⟨outcome, rfl⟩, hnothing⟩
  | some zone =>
    cases hsecondary : isSecondary store zone.id with
    | true =>
      simp only [if_true, Option.any_some, hsecondary, Bool.not_true, Bool.false_and]
      exact ⟨⟨outcome, rfl⟩, hnothing⟩
    | false =>
      simp only [Bool.false_eq_true, if_false, Option.any_some, hsecondary, Bool.not_false, Bool.true_and]
      have hmem := (heldIn_of_reverseZone hnames hzone).1
      have hget : store.getZone zone.id = some zone := (getZone_eq_some_iff store zone.id zone).mpr ⟨hmem, rfl⟩
      have hzones : ∀ record ∈ store.records.rows, ∀ listed ∈ store.listRecords zone.id,
          record.id = listed.id → (store.getZone record.zoneId).isSome := by
        intro record hrecord listed hlisted hid
        rw [mem_listRecords] at hlisted
        have heq := store.records.eq_of_key_eq hrecord hlisted.1 hid
        rw [heq, hlisted.2, hget]
        rfl
      have hremoved := removeFrom_removed setting (reverseName ip) name (store.listRecords zone.id) outcome hzones
      refine ⟨hremoved.1, hremoved.2.zones, hremoved.2.next, ?_⟩
      rw [hremoved.2.rows]
      apply List.filter_congr
      intro record hrecord
      congr 1
      rw [Bool.eq_iff_iff, List.any_eq_true, Bool.and_eq_true, beq_iff_eq]
      constructor
      · rintro ⟨listed, hlisted, hhit⟩
        rw [Bool.and_eq_true, beq_iff_eq] at hhit
        rw [mem_listRecords] at hlisted
        have heq := store.records.eq_of_key_eq hlisted.1 hrecord hhit.2
        exact ⟨heq ▸ hlisted.2, heq ▸ hhit.1⟩
      · rintro ⟨hid, hhit⟩
        exact ⟨record, mem_listRecords.mpr ⟨hrecord, hid⟩, by simp [hhit]⟩

/-! Adding. -/

/-- At most a zone for the address and its PTR record are new. -/
structure PtrAdded (store after : ZoneStore) (ip : IpAddr) (name : Text) : Prop where
  names : NormalNames (zoneNames after)
  secondary : after.secondaryZones = store.secondaryZones
  held : ∀ owner zoneId zone, HeldIn (zoneNames store) owner zoneId zone → HeldIn (zoneNames after) owner zoneId zone
  next : store.records.next ≤ after.records.next
  rows : ∀ record ∈ store.records.rows, record ∈ after.records.rows
  fresh : ∀ record ∈ after.records.rows, record ∈ store.records.rows ∨ store.records.next ≤ record.id ∧
    (isPtr record = true → record.name = reverseName ip ∧ record.content = trim (trimEndMatches '.' name ++ ['.']) ∧
      isSecondary after record.zoneId = false ∧ ∃ zone, HeldIn (zoneNames after) (reverseName ip) record.zoneId zone)

theorem PtrAdded.refl (hnames : NormalNames (zoneNames store)) (ip : IpAddr) (name : Text) : PtrAdded store store ip name where
  names := hnames
  secondary := rfl
  held := fun _ _ _ h => h
  next := Nat.le_refl _
  rows := fun _ h => h
  fresh := fun _ h => .inl h

theorem PtrAdded.trans {first second third : ZoneStore} {ip : IpAddr} {name : Text} (h : PtrAdded first second ip name)
    (h' : PtrAdded second third ip name) : PtrAdded first third ip name where
  names := h'.names
  secondary := h'.secondary.trans h.secondary
  held := fun owner zoneId zone hheld => h'.held owner zoneId zone (h.held owner zoneId zone hheld)
  next := h.next.trans h'.next
  rows := fun record hrecord => h'.rows record (h.rows record hrecord)
  fresh := by
    intro record hrecord
    cases h'.fresh record hrecord with
    | inr hnew => exact .inr ⟨h.next.trans hnew.1, hnew.2⟩
    | inl hmem =>
      cases h.fresh record hmem with
      | inl hold => exact .inl hold
      | inr hnew =>
        refine .inr ⟨hnew.1, fun hptr => ?_⟩
        obtain ⟨hname, hcontent, hsecondary, zone, hheld⟩ := hnew.2 hptr
        refine ⟨hname, hcontent, ?_, zone, h'.held _ _ _ hheld⟩
        rw [isSecondary, h'.secondary]
        exact hsecondary

theorem qualifyName_reverse (ip : IpAddr) (zoneName : Text) : qualifyName (reverseName ip ++ ['.']) zoneName = reverseName ip := by
  have hreverse := reverse_reverseName ip
  have hsolid : Solid (reverseName ip ++ ['.']) := hreverse.solid.append (by decide)
  have hempty : (reverseName ip ++ ['.']).isEmpty = false := by
    cases reverseName ip <;> rfl
  have happex : eqIgnoreAsciiCase (reverseName ip ++ ['.']) (trimEndMatches '.' (trim zoneName)) = false := by
    rw [eqIgnoreAsciiCase, beq_eq_false_iff_ne]
    intro heq
    have hlast := congrArg List.getLast? heq
    rw [toAsciiLowercase_append, List.getLast?_append] at hlast
    exact getLast?_normalizeFqdn zoneName hlast.symm
  have hat : (reverseName ip ++ ['.'] == ['@']) = false := by
    rw [beq_eq_false_iff_ne]
    intro heq
    have hlast := congrArg List.getLast? heq
    rw [List.getLast?_append] at hlast
    cases hlast
  unfold qualifyName
  rw [hsolid.trim]
  simp only [hat, happex, hempty, Bool.or_false, Bool.false_eq_true, if_false, stripSuffix_append]
  exact hreverse.lowered

/-- The name and the content under which the PTR record is stored. -/
theorem ptrInput_row (ip : IpAddr) (name : Text) (ttl : UInt32) (zone : Zone) (now : Time) (id : Uuid) :
    (storedRow zone.id zone.name (ptrInput (reverseName ip) name ttl) now id).name = reverseName ip ∧
      (storedRow zone.id zone.name (ptrInput (reverseName ip) name ttl) now id).content = trim (trimEndMatches '.' name ++ ['.']) := by
  constructor
  · exact qualifyName_reverse ip zone.name
  · have htype : ¬(toAsciiUppercase "PTR".toList = "ALIAS" ∨ toAsciiUppercase "PTR".toList = "AUTOPTR") := by decide
    change storedContent (toAsciiUppercase "PTR".toList) _ = _
    rw [storedContent, if_neg htype]
    rfl

theorem addTo_added (hnames : NormalNames (zoneNames store)) {zone : Zone} {ip : IpAddr}
    (hheld : HeldIn (zoneNames store) (reverseName ip) zone.id zone.name) (name : Text) (ttl : UInt32) (outcome : ReverseOutcome) :
    PtrAdded store (addTo setting zone store ip name ttl outcome).2 ip name := by
  unfold addTo
  cases hsecondary : isSecondary store zone.id with
  | true => exact .refl hnames ip name
  | false =>
    simp only [Bool.false_eq_true, if_false]
    split
    · exact .refl hnames ip name
    · split
      · exact .refl hnames ip name
      · cases hupsert : upsertRecord setting.hickory store zone.id (ptrInput (reverseName ip) name ttl) setting.now with
        | error e => exact .refl hnames ip name
        | ok result =>
          obtain ⟨record, after⟩ := result
          obtain ⟨hkept, hrows, hnext, found, hfound, hrecord⟩ := upsertRecord_rows hupsert
          have hid := ((getZone_eq_some_iff store zone.id found).mp hfound).2
          have hrow := ptrInput_row ip name ttl found setting.now store.records.next
          rw [← hrecord] at hrow
          have hzoneId : record.zoneId = zone.id := by
            rw [hrecord]
            exact hid
          constructor
          · exact hkept.names ▸ hnames
          · exact hkept.secondary
          · intro owner zoneId zone hheld
            exact hkept.names ▸ hheld
          · exact hnext ▸ Nat.le_succ _
          · intro other hother
            exact hrows ▸ List.mem_append_left _ hother
          · intro other hother
            rw [hrows, List.mem_append, List.mem_singleton] at hother
            cases hother with
            | inl hmem => exact .inl hmem
            | inr heq =>
              subst heq
              refine .inr ⟨by rw [hrecord]; exact Nat.le_refl _, fun _ => ⟨hrow.1, hrow.2, ?_, zone.name, ?_⟩⟩
              · rw [hzoneId, isSecondary_kept hkept, hsecondary]
              · rw [hzoneId, hkept.names]
                exact hheld

theorem addPtr_added (hnames : NormalNames (zoneNames store)) (ip : IpAddr) (name : Text) (ttl : UInt32) (outcome : ReverseOutcome) :
    PtrAdded store (addPtr setting store ip name ttl outcome).2 ip name := by
  unfold addPtr
  cases hzone : reverseZone store (reverseName ip) with
  | some zone => exact addTo_added setting hnames (heldIn_of_reverseZone hnames hzone).2 name ttl outcome
  | none =>
    dsimp only
    split
    · split
      · exact .refl hnames ip name
      · rename_i zone grown hcreate
        have hnone := not_under_of_reverseZone hnames hzone
        have hreverse := (reverse_reverseName ip).under (under_defaultReverseZone ip)
        obtain ⟨hnewNames, hname, hmem, hsecondary, hfree, record, htype, hid, hrows, hnext⟩ := createZone_rows hcreate
        rw [hreverse.normalized] at hnewNames hname hfree
        have hgrown : PtrAdded store grown ip name := by
          constructor
          · rw [hnewNames]
            constructor
            · intro entry hentry
              rw [List.mem_append, List.mem_singleton] at hentry
              cases hentry with
              | inl hentry => exact hnames.lower entry hentry
              | inr heq =>
                rw [heq]
                exact hreverse.lowered
            · rw [List.map_append, List.nodup_append]
              refine ⟨hnames.nodup, by simp, ?_⟩
              intro old hold new hnew heq
              obtain ⟨entry, hentry, rfl⟩ := List.mem_map.mp hold
              obtain ⟨other, hother, rfl⟩ := List.mem_map.mp hentry
              rw [List.map_singleton, List.mem_singleton] at hnew
              exact hfree other hother (heq.trans hnew)
          · exact hsecondary
          · intro owner zoneId zone hheld
            rw [hnewNames]
            exact hheld.append (under_defaultReverseZone ip) hnone
          · exact hnext ▸ Nat.le_succ _
          · intro other hother
            exact hrows ▸ List.mem_append_left _ hother
          · intro other hother
            rw [hrows, List.mem_append, List.mem_singleton] at hother
            cases hother with
            | inl hmem => exact .inl hmem
            | inr heq =>
              subst heq
              refine .inr ⟨hid ▸ Nat.le_refl _, fun hptr => ?_⟩
              rw [isPtr, htype] at hptr
              exact absurd hptr (by decide)
        have hheld : HeldIn (zoneNames grown) (reverseName ip) zone.id zone.name := by
          rw [hnewNames, hname]
          exact heldIn_new (under_defaultReverseZone ip) hnone
        exact hgrown.trans (addTo_added setting hgrown.names hheld name ttl _)
    · exact .refl hnames ip name

/-! The requests. -/

/-- The requests are about A and AAAA records. -/
def addressTypes : List Text := ["A".toList, "AAAA".toList]

def OnAddresses (store : ZoneStore) : RecordRequest → Prop
  | .upsert _ input => toAsciiUppercase input.rtype ∈ addressTypes
  | .replace _ recordId input =>
      toAsciiUppercase input.rtype ∈ addressTypes ∧ ∀ record ∈ store.getRecord recordId, record.rtype ∈ addressTypes
  | .delete _ recordId | .setDisabled _ recordId _ => ∀ record ∈ store.getRecord recordId, record.rtype ∈ addressTypes

instance decidableOnAddresses (store : ZoneStore) (request : RecordRequest) : Decidable (OnAddresses store request) := by
  cases request <;> unfold OnAddresses <;> infer_instance

/-- What has changed is seen by `sync`: a PTR record that is no longer asked for was asked for by what goes. -/
structure Performed (store : ZoneStore) (before after : Option Record) (changed : ZoneStore) : Prop where
  zones : ZonesKept store changed
  next : store.records.next ≤ changed.records.next
  ptrs : ∀ record, isPtr record = true → (record ∈ changed.records.rows ↔ record ∈ store.records.rows)
  justified : ∀ ptr, justified store ptr = true → justified changed ptr = true ∨
    ∃ ip name, goes before after = some (ip, name) ∧ sameName ptr.name (reverseName ip) = true ∧ sameName ptr.content name = true
  stored : ∀ record, after = some record → record ∈ changed.records.rows

theorem not_ptr_of_address {record : Record} (h : record.rtype ∈ addressTypes) : isPtr record = false := by
  rw [isPtr, beq_eq_false_iff_ne]
  intro heq
  rw [heq] at h
  exact absurd h (by decide)

theorem goes_of_none {record : Record} {ip : IpAddr} (h : recordAddress record = some ip) :
    goes (some record) none = some (ip, record.name) := by
  simp only [goes, h]
  rfl

theorem performed_upsert {zoneId : Uuid} {input : RecordInput} {record : Record}
    (htype : toAsciiUppercase input.rtype ∈ addressTypes)
    (h : upsertRecord hickory store zoneId input now = .ok (record, after)) : Performed store none (some record) after := by
  obtain ⟨hkept, hrows, hnext, zone, -, hrecord⟩ := upsertRecord_rows h
  constructor
  · exact hkept
  · exact hnext ▸ Nat.le_succ _
  · intro other hother
    rw [hrows, List.mem_append, List.mem_singleton]
    apply or_iff_left
    intro heq
    rw [heq, hrecord, not_ptr_of_address (by exact htype)] at hother
    cases hother
  · intro ptr hptr
    obtain ⟨other, hother, hjustifies⟩ := justified_iff.mp hptr
    exact .inl (justified_iff.mpr ⟨other, hrows ▸ List.mem_append_left _ hother, hjustifies⟩)
  · intro other hother
    cases hother
    rw [hrows]
    exact List.mem_append_right _ (List.mem_singleton.mpr rfl)

theorem performed_replace {zoneId recordId : Uuid} {input : RecordInput} {record : Record}
    (htype : toAsciiUppercase input.rtype ∈ addressTypes ∧ ∀ record ∈ store.getRecord recordId, record.rtype ∈ addressTypes)
    (h : replaceRecord hickory store zoneId recordId input now = .ok (some record, after)) :
    Performed store (store.getRecord recordId) (some record) after := by
  obtain ⟨hkept, hnext, prior, hprior, hid, hdisabled, hrtype, hrows⟩ := replaceRecord_rows h
  obtain ⟨hpriorMem, hpriorId⟩ := (store.records.find?_eq_some_iff recordId prior).mp hprior
  have hgone : ∀ other ∈ store.records.rows, other.id = recordId → other = prior :=
    fun other hother hsame => store.records.eq_of_key_eq hother hpriorMem (hsame.trans hpriorId.symm)
  constructor
  · exact hkept
  · exact hnext
  · intro other hother
    rw [hrows, List.mem_append, List.mem_singleton, List.mem_filter, decide_eq_true_eq]
    constructor
    · intro hmem
      cases hmem with
      | inl hmem => exact hmem.1
      | inr heq =>
        rw [heq, not_ptr_of_address (hrtype ▸ htype.1)] at hother
        cases hother
    · intro hmem
      refine .inl ⟨hmem, fun hsame => ?_⟩
      rw [hgone other hmem hsame, not_ptr_of_address (htype.2 prior hprior)] at hother
      cases hother
  · intro ptr hptr
    obtain ⟨other, hother, hjustifies⟩ := justified_iff.mp hptr
    by_cases hsame : other.id = recordId
    · obtain rfl := hgone other hother hsame
      obtain ⟨henabled, ⟨ip, haddress, hname⟩, hcontent⟩ := justifies_iff.mp hjustifies
      rw [hprior]
      by_cases hunchanged : recordAddress record = some ip ∧ sameName record.name other.name = true
      · refine .inl (justified_iff.mpr ⟨record, hrows ▸ by simp, justifies_iff.mpr ?_⟩)
        exact ⟨hdisabled.trans henabled, ⟨ip, hunchanged.1, hname⟩, sameName_trans hcontent (sameName_symm hunchanged.2)⟩
      · refine .inr ⟨ip, other.name, ?_, hname, hcontent⟩
        have hfalse : (recordAddress record == some ip && sameName record.name other.name) = false := by
          rw [Bool.eq_false_iff]
          intro htrue
          rw [Bool.and_eq_true, beq_iff_eq] at htrue
          exact hunchanged htrue
        simp [goes, haddress, hfalse]
    · refine .inl (justified_iff.mpr ⟨other, ?_, hjustifies⟩)
      rw [hrows]
      exact List.mem_append_left _ (List.mem_filter.mpr ⟨hother, decide_eq_true hsame⟩)
  · intro other hother
    cases hother
    rw [hrows]
    exact List.mem_append_right _ (List.mem_singleton.mpr rfl)

theorem performed_delete {recordId : Uuid} {record : Record} {found : Bool} (hrecord : store.getRecord recordId = some record)
    (htype : record.rtype ∈ addressTypes) (h : deleteRecord store recordId now = .ok (found, after)) :
    Performed store (some record) none after := by
  obtain ⟨hkept, hrows, hnext⟩ := deleteRecord_rows h
  obtain ⟨hmem, hid⟩ := (store.records.find?_eq_some_iff recordId record).mp hrecord
  have hgone : ∀ other ∈ store.records.rows, other.id = recordId → other = record :=
    fun other hother hsame => store.records.eq_of_key_eq hother hmem (hsame.trans hid.symm)
  constructor
  · exact hkept
  · exact Nat.le_of_eq hnext.symm
  · intro other hother
    rw [hrows, List.mem_filter, decide_eq_true_eq]
    refine and_iff_left_of_imp fun hmem hsame => ?_
    rw [hgone other hmem hsame, not_ptr_of_address htype] at hother
    cases hother
  · intro ptr hptr
    obtain ⟨other, hother, hjustifies⟩ := justified_iff.mp hptr
    by_cases hsame : other.id = recordId
    · obtain rfl := hgone other hother hsame
      obtain ⟨-, ⟨ip, haddress, hname⟩, hcontent⟩ := justifies_iff.mp hjustifies
      exact .inr ⟨ip, other.name, goes_of_none haddress, hname, hcontent⟩
    · refine .inl (justified_iff.mpr ⟨other, ?_, hjustifies⟩)
      rw [hrows]
      exact List.mem_filter.mpr ⟨hother, decide_eq_true hsame⟩
  · intro other hother
    cases hother

theorem performed_setDisabled {recordId : Uuid} {prior record : Record} {disabled found : Bool}
    (hprior : store.getRecord recordId = some prior) (htype : prior.rtype ∈ addressTypes)
    (h : setRecordDisabled store recordId disabled now = .ok (found, after)) (hrecord : after.getRecord recordId = some record) :
    Performed store (if disabled then some record else none) (if disabled then none else some record) after := by
  obtain ⟨hkept, hnext, hrows⟩ := setRecordDisabled_rows h
  obtain ⟨hmem, hid⟩ := (store.records.find?_eq_some_iff recordId prior).mp hprior
  have hstored : ∀ other, (if disabled then none else some record) = some other → other ∈ after.records.rows := by
    intro other hother
    split at hother
    · cases hother
    · cases hother
      exact ((after.records.find?_eq_some_iff recordId record).mp hrecord).1
  have hgone : ∀ other ∈ store.records.rows, other.id = recordId → other = prior :=
    fun other hother hsame => store.records.eq_of_key_eq hother hmem (hsame.trans hid.symm)
  refine ⟨hkept, Nat.le_of_eq hnext.symm, ?_, ?_, hstored⟩
  · intro other hother
    cases hrows with
    | inl hrows => rw [hrows.1]
    | inr hrows =>
      have hother' : isPtr prior = false := not_ptr_of_address htype
      rw [hrows, List.mem_map]
      constructor
      · rintro ⟨old, hold, rfl⟩
        by_cases hsame : old.id = recordId
        · rw [hgone old hold hsame, hid, beq_self_eq_true, if_pos rfl] at hother
          exact absurd (hother.symm.trans hother') (by decide)
        · rw [beq_eq_false_iff_ne.mpr hsame]
          exact hold
      · intro hold
        refine ⟨other, hold, ?_⟩
        have hsame : other.id ≠ recordId := by
          intro hsame
          rw [hgone other hold hsame, hother'] at hother
          cases hother
        rw [beq_eq_false_iff_ne.mpr hsame]
        rfl
  · intro ptr hptr
    obtain ⟨other, hother, hjustifies⟩ := justified_iff.mp hptr
    cases hrows with
    | inl hrows => exact .inl (justified_iff.mpr ⟨other, hrows.1 ▸ hother, hjustifies⟩)
    | inr hrows =>
      by_cases hsame : other.id = recordId
      · obtain rfl := hgone other hother hsame
        have hnew : ({ other with disabled, lastModifiedAt := now } : Record) ∈ after.records.rows := by
          rw [hrows]
          exact List.mem_map.mpr ⟨other, hother, by simp [hid]⟩
        cases disabled with
        | false =>
          refine .inl (justified_iff.mpr ⟨_, hnew, ?_⟩)
          obtain ⟨-, haddress, hcontent⟩ := justifies_iff.mp hjustifies
          exact justifies_iff.mpr ⟨rfl, haddress, hcontent⟩
        | true =>
          obtain ⟨hrecordMem, hrecordId⟩ := (after.records.find?_eq_some_iff recordId record).mp hrecord
          obtain ⟨-, ⟨ip, haddress, hname⟩, hcontent⟩ := justifies_iff.mp hjustifies
          obtain rfl := after.records.eq_of_key_eq hrecordMem hnew (hrecordId.trans hid.symm)
          exact .inr ⟨ip, other.name, goes_of_none haddress, hname, hcontent⟩
      · refine .inl (justified_iff.mpr ⟨other, ?_, hjustifies⟩)
        rw [hrows]
        exact List.mem_map.mpr ⟨other, hother, by simp [hsame]⟩

theorem getRecord_setDisabled {recordId : Uuid} {prior : Record} {disabled found : Bool}
    (hprior : store.getRecord recordId = some prior) (h : setRecordDisabled store recordId disabled now = .ok (found, after)) :
    ∃ record, after.getRecord recordId = some record := by
  obtain ⟨-, -, hrows⟩ := setRecordDisabled_rows h
  obtain ⟨hmem, hid⟩ := (store.records.find?_eq_some_iff recordId prior).mp hprior
  cases hrows with
  | inl hrows => exact ⟨prior, (after.records.find?_eq_some_iff recordId prior).mpr ⟨hrows.1 ▸ hmem, hid⟩⟩
  | inr hrows =>
    refine ⟨{ prior with disabled, lastModifiedAt := now }, (after.records.find?_eq_some_iff recordId _).mpr ⟨?_, hid⟩⟩
    rw [hrows]
    exact List.mem_map.mpr ⟨prior, hmem, by simp [hid]⟩

theorem performed_of_perform {before after : Option Record} {request : RecordRequest} {changed : ZoneStore}
    (honly : OnAddresses store request) (h : request.perform setting store = some (before, after, changed)) :
    Performed store before after changed := by
  unfold RecordRequest.perform at h
  cases request with
  | upsert zoneId input =>
    dsimp only at h
    split at h
    · cases h
    · split at h
      · rename_i hupsert
        cases h
        exact performed_upsert honly hupsert
      · cases h
  | replace zoneId recordId input =>
    dsimp only at h
    split at h
    · cases h
    · split at h
      · rename_i hreplace
        cases h
        exact performed_replace honly hreplace
      · cases h
      · cases h
  | delete zoneId recordId =>
    dsimp only at h
    split at h
    · cases h
    · split at h
      · cases h
      · rename_i record hrecord
        split at h
        · split at h
          · rename_i hdelete
            cases h
            exact performed_delete hrecord (honly record hrecord) hdelete
          · cases h
          · cases h
        · cases h
  | setDisabled zoneId recordId disabled =>
    dsimp only at h
    split at h
    · cases h
    · split at h
      · cases h
      · rename_i prior hprior
        split at h
        · split at h
          · rename_i hdisable
            split at h
            · rename_i hnone
              obtain ⟨record, hrecord⟩ := getRecord_setDisabled hprior hdisable
              rw [hnone] at hrecord
              cases hrecord
            · rename_i record hrecord
              have hperformed := performed_setDisabled hprior (honly prior hprior) hdisable hrecord
              cases disabled <;> cases h <;> exact hperformed
          · cases h
          · cases h
        · cases h

end DaygleDns.Authoritative
