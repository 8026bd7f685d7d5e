import DaygleDns.Authoritative.StoreFacts
import DaygleDns.Runs

/-! ALIAS and AUTOPTR records stand alone at their names. The store checks that
when it inserts a record, and `set_record_disabled` does not. -/
namespace DaygleDns.Authoritative

open Text Fallible Runs

/-- The operations that change the records of the store. -/
inductive StoreOp where
  | createZone (input : ZoneInput)
  | upsertRecord (zoneId : Uuid) (input : RecordInput)
  | replaceRecord (zoneId recordId : Uuid) (input : RecordInput)
  | setRecordDisabled (id : Uuid) (disabled : Bool)
  | deleteRecord (id : Uuid)
  | replaceRecords (zoneId : Uuid) (records : List RecordInput)
  | applyDynamicUpdates (zoneId : Uuid) (update : DynamicUpdate)

def runOp (hickory : Hickory) (store : ZoneStore) (now : Time) :
    StoreOp → Except DaygleError ZoneStore
  | .createZone input => Prod.snd <$> createZone hickory store input now
  | .upsertRecord zoneId input => Prod.snd <$> upsertRecord hickory store zoneId input now
  | .replaceRecord zoneId recordId input =>
      Prod.snd <$> replaceRecord hickory store zoneId recordId input now
  | .setRecordDisabled id disabled => Prod.snd <$> setRecordDisabled store id disabled now
  | .deleteRecord id => Prod.snd <$> deleteRecord store id now
  | .replaceRecords zoneId records => replaceRecords hickory store zoneId records now
  | .applyDynamicUpdates zoneId update => applyDynamicUpdates hickory store zoneId update now

/-- An operation that fails leaves the store as it was. -/
def applyOp (hickory : Hickory) (store : ZoneStore) (op : StoreOp × Time) : ZoneStore :=
  match runOp hickory store op.2 op.1 with
  | .ok after => after
  | .error _ => store

/-- No owner name has an enabled ALIAS beside another enabled ALIAS, A, AAAA or
CNAME record, and none has two enabled AUTOPTR records. -/
structure AliasExclusive (store : ZoneStore) : Prop where
  aliasAlone : ∀ zoneId name record, enabledAt store zoneId name "ALIAS" record →
    ∀ rtype ∈ aliasClashTypes, ∀ other, enabledAt store zoneId name rtype other → other = record
  autoPtrSingle : ∀ zoneId name record other, enabledAt store zoneId name "AUTOPTR" record →
    enabledAt store zoneId name "AUTOPTR" other → other = record

/-- Two enabled records that may not both be at their owner name. -/
def Clash (a b : Record) : Prop :=
  a.zoneId = b.zoneId ∧ a.name = b.name ∧ a.disabled = false ∧ b.disabled = false ∧
    ((a.rtype = "ALIAS" ∧ b.rtype ∈ aliasClashTypes) ∨
      (b.rtype = "ALIAS" ∧ a.rtype ∈ aliasClashTypes) ∨
      (a.rtype = "AUTOPTR" ∧ b.rtype = "AUTOPTR"))

instance (a b : Record) : Decidable (Clash a b) := inferInstanceAs (Decidable (_ ∧ _))

/-- What re-enabling a record of a stored zone would have to check: enabled as it
would be, it clashes with no other record. -/
def EnableClear (store : ZoneStore) (op : StoreOp × Time) : Prop :=
  match op.1 with
  | .setRecordDisabled id false => ∀ record zone, store.getRecord id = some record →
      store.getZone record.zoneId = some zone →
      ∀ other ∈ store.records.rows, other.id ≠ id → ¬ Clash { record with disabled := false } other
  | _ => True

theorem Clash.symm {a b : Record} (h : Clash a b) : Clash b a := by
  obtain ⟨hzone, hname, ha, hb, htypes⟩ := h
  refine ⟨hzone.symm, hname.symm, hb, ha, ?_⟩
  rcases htypes with h | h | ⟨ha, hb⟩
  · exact .inr (.inl h)
  · exact .inl h
  · exact .inr (.inr ⟨hb, ha⟩)

theorem aliasExclusive_iff (store : ZoneStore) :
    AliasExclusive store ↔ Exclusive Clash store.records.rows := by
  constructor
  · rintro ⟨haliasAlone, hautoPtrSingle⟩ a ha b hb ⟨hzone, hname, hadis, hbdis, htypes⟩
    rcases htypes with ⟨halias, htype⟩ | ⟨halias, htype⟩ | ⟨haauto, hbauto⟩
    · exact (haliasAlone a.zoneId a.name a ⟨ha, rfl, rfl, halias, hadis⟩ b.rtype htype b
        ⟨hb, hzone.symm, hname.symm, rfl, hbdis⟩).symm
    · exact haliasAlone b.zoneId b.name b ⟨hb, rfl, rfl, halias, hbdis⟩ a.rtype htype a
        ⟨ha, hzone, hname, rfl, hadis⟩
    · exact hautoPtrSingle b.zoneId b.name b a ⟨hb, rfl, rfl, hbauto, hbdis⟩
        ⟨ha, hzone, hname, haauto, hadis⟩
  · intro h
    constructor
    · rintro zoneId name record ⟨hrecord, hzone, hname, halias, henabled⟩ rtype htype other
        ⟨hother, hzone', hname', htype', henabled'⟩
      refine h other hother record hrecord ⟨hzone'.trans hzone.symm, hname'.trans hname.symm,
        henabled', henabled, .inr (.inl ⟨halias, ?_⟩)⟩
      rwa [htype']
    · rintro zoneId name record other ⟨hrecord, hzone, hname, hauto, henabled⟩
        ⟨hother, hzone', hname', hauto', henabled'⟩
      exact h other hother record hrecord ⟨hzone'.trans hzone.symm, hname'.trans hname.symm,
        henabled', henabled, .inr (.inr ⟨hauto', hauto⟩)⟩

/-! The insertion checks keep records apart. -/

theorem checkContent_no_clash {hickory : Hickory} {store : ZoneStore} {zoneId : Uuid}
    {name rtype content stored : Text} {row : Record}
    (h : checkContent hickory store zoneId name rtype content row.disabled = .ok stored)
    (hzone : row.zoneId = zoneId) (hname : row.name = name) (htype : row.rtype = rtype) :
    ∀ other ∈ store.records.rows, ¬ Clash row other := by
  rintro other hother ⟨hz, hn, hrow, hdis, htypes⟩
  have henabled : enabledAt store zoneId name other.rtype other :=
    ⟨hother, hz.symm.trans hzone, hn.symm.trans hname, rfl, hdis⟩
  rw [htype] at htypes
  unfold checkContent at h
  split at h
  next halias =>
    -- an ALIAS is refused beside any row of its types, disabled ones too
    have hfree := (checkAlias_eq_ok h).2 other hother henabled.2.1 henabled.2.2.1
    rcases htypes with ⟨_, hmem⟩ | ⟨hmem, _⟩ | ⟨hauto, _⟩
    · exact hfree hmem
    · exact hfree (by rw [hmem]; decide)
    · rw [halias] at hauto
      exact absurd hauto (by decide)
  next halias =>
    split at h
    next hauto =>
      have hfree := (checkAutoPtr_eq_ok h).2 hrow
      rcases htypes with ⟨hmem, _⟩ | ⟨_, hmem⟩ | ⟨_, hother⟩
      · exact halias hmem
      · rw [hauto] at hmem
        exact absurd hmem (by decide)
      · rw [hother] at henabled
        exact hfree other henabled
    next hauto =>
      have hfree := (checkRData_eq_ok.mp h).2.2.1
      rcases htypes with ⟨hmem, _⟩ | ⟨hother, hmem⟩ | ⟨hmem, _⟩
      · exact halias hmem
      · rw [hother] at henabled
        refine hfree ?_ hrow other henabled
        simp only [aliasClashTypes, List.mem_cons, halias] at hmem
        simpa using hmem
      · exact hauto hmem

theorem insertRecordInTx_exclusive {hickory : Hickory} {store after : ZoneStore} {zoneId : Uuid}
    {zoneName : Text} {input : RecordInput} {now : Time} {record : Record}
    (hclash : Exclusive Clash store.records.rows)
    (h : insertRecordInTx hickory store zoneId zoneName input now = .ok (record, after)) :
    Exclusive Clash after.records.rows := by
  obtain ⟨⟨_, _, content, hcontent⟩, _, rfl⟩ := insertRecordInTx_eq_ok.mp h
  have hfree : ∀ other ∈ store.records.rows,
      ¬ Clash (storedRow zoneId zoneName input now store.records.next) other :=
    checkContent_no_clash hcontent rfl rfl rfl
  exact hclash.append_row (fun _ _ => Clash.symm) hfree

theorem insertRecords_exclusive {hickory : Hickory} {store after : ZoneStore} {zoneId : Uuid}
    {zoneName : Text} {inputs : List RecordInput} {now : Time}
    (hclash : Exclusive Clash store.records.rows)
    (h : insertRecords hickory zoneId zoneName now store inputs = .ok after) :
    Exclusive Clash after.records.rows := by
  refine foldlM_invariant (fun store => Exclusive Clash store.records.rows) ?_ inputs hclash h
  intro before input after hbefore hstep
  obtain ⟨⟨record, _⟩, hinsert, hafter⟩ := bind_eq_ok.mp hstep
  cases hafter
  exact insertRecordInTx_exclusive hbefore hinsert

/-! Each operation, by what it leaves in the record table. -/

theorem map_snd_eq_ok {α : Type} {x : Except DaygleError (α × ZoneStore)} {after : ZoneStore} :
    Prod.snd <$> x = .ok after ↔ ∃ a, x = .ok (a, after) := by
  cases x with
  | error e => simp
  | ok pair =>
    obtain ⟨a, store⟩ := pair
    simp [eq_comm]

theorem bumpSerialIn_records {store after : ZoneStore} {zoneId : Uuid} {now : Time}
    {next : UInt32} (h : bumpSerialIn store zoneId now = .ok (next, after)) :
    after.records = store.records := by
  obtain ⟨_, _, _, rfl⟩ := bumpSerialIn_eq_ok h
  rfl

theorem createZone_exclusive {hickory : Hickory} {store after : ZoneStore} {input : ZoneInput}
    {now : Time} {zone : Zone} (hclash : Exclusive Clash store.records.rows)
    (h : createZone hickory store input now = .ok (zone, after)) :
    Exclusive Clash after.records.rows := by
  rcases createZone_eq_ok h with ⟨_, _, _, _, _, _, hinsert⟩
  exact insertRecordInTx_exclusive (by exact hclash) hinsert

theorem upsertRecordTx_exclusive {hickory : Hickory} {store after : ZoneStore} {zone : Zone}
    {input : RecordInput} {now : Time} {record : Record}
    (hclash : Exclusive Clash store.records.rows)
    (h : upsertRecordTx hickory store zone input now = .ok (record, after)) :
    Exclusive Clash after.records.rows := by
  unfold upsertRecordTx at h
  simp only [pure_eq, bind_eq_ok] at h
  obtain ⟨⟨_, middle⟩, hinsert, ⟨_, _⟩, hbump, hafter⟩ := h
  cases hafter
  rw [bumpSerialIn_records hbump]
  exact insertRecordInTx_exclusive hclash hinsert

theorem replaceRecordTx_exclusive {hickory : Hickory} {store after : ZoneStore} {zone : Zone}
    {recordId : Uuid} {input : RecordInput} {now : Time} {record : Option Record}
    (hclash : Exclusive Clash store.records.rows)
    (h : replaceRecordTx hickory store zone recordId input now = .ok (record, after)) :
    Exclusive Clash after.records.rows := by
  unfold replaceRecordTx at h
  split at h
  next =>
    cases h
    exact hclash
  next prior _ =>
    simp only [throw_eq, pure_eq, bind_eq_ok] at h
    obtain ⟨⟨inserted, middle⟩, hinsert, h⟩ := h
    split at h
    next records hrekey =>
      obtain ⟨⟨_, _⟩, hbump, hafter⟩ := bind_eq_ok.mp h
      cases hafter
      rw [bumpSerialIn_records hbump, Table.rekey_rows _ _ _ _ _ _ hrekey]
      refine (insertRecordInTx_exclusive (by exact hclash.filter _) hinsert).map _ ?_
      -- the row that takes over the identifier keeps what a clash looks at
      intro a b
      by_cases ha : (a.id == inserted.id) = true <;> by_cases hb : (b.id == inserted.id) = true <;>
        simp only [ha, hb] <;> exact id
    next => exact absurd h error_ne_ok

theorem deleteRecord_exclusive {store after : ZoneStore} {id : Uuid} {now : Time} {found : Bool}
    (hclash : Exclusive Clash store.records.rows)
    (h : deleteRecord store id now = .ok (found, after)) :
    Exclusive Clash after.records.rows := by
  unfold deleteRecord at h
  split at h
  next =>
    cases h
    exact hclash
  next =>
    simp only [pure_eq, bind_eq_ok] at h
    obtain ⟨⟨_, _⟩, hbump, hafter⟩ := h
    cases hafter
    rw [bumpSerialIn_records hbump]
    exact hclash.filter _

theorem replaceRecords_exclusive {hickory : Hickory} {store after : ZoneStore} {zoneId : Uuid}
    {records : List RecordInput} {now : Time} (hclash : Exclusive Clash store.records.rows)
    (h : replaceRecords hickory store zoneId records now = .ok after) :
    Exclusive Clash after.records.rows := by
  obtain ⟨_, middle, _, hinsert, rfl⟩ := replaceRecords_eq_ok.mp h
  change Exclusive Clash middle.records.rows
  exact insertRecords_exclusive (by exact hclash.filter _) hinsert

theorem applyDynamicUpdatesTx_exclusive {hickory : Hickory} {store after : ZoneStore} {zone : Zone}
    {update : DynamicUpdate} {now : Time} (hclash : Exclusive Clash store.records.rows)
    (h : applyDynamicUpdatesTx hickory store zone update now = .ok after) :
    Exclusive Clash after.records.rows := by
  unfold applyDynamicUpdatesTx at h
  obtain ⟨middle, hinsert, h⟩ := bind_eq_ok.mp h
  have hmiddle : Exclusive Clash middle.records.rows := by
    refine insertRecords_exclusive ?_ hinsert
    rw [deleteAll_rows]
    exact hclash.filter _
  split at h
  next =>
    unfold setZoneSoa at h
    obtain ⟨_, _, hafter⟩ := bind_eq_ok.mp h
    cases hafter
    exact hmiddle
  next =>
    cases h
    exact hmiddle

theorem getRecord_eq_some_iff {store : ZoneStore} {id : Uuid} {record : Record} :
    store.getRecord id = some record ↔ record ∈ store.records.rows ∧ record.id = id :=
  store.records.find?_eq_some_iff id record

theorem setRecordDisabled_eq {store : ZoneStore} {id : Uuid} {record : Record} {zone : Zone}
    {disabled : Bool} (now : Time) (hrecord : store.getRecord id = some record)
    (hzone : store.getZone record.zoneId = some zone) (hchange : record.disabled ≠ disabled) :
    ∃ after, setRecordDisabled store id disabled now = .ok (true, after) ∧
      after.records.rows = store.records.rows.map fun other =>
        if other.id == id then { other with disabled, lastModifiedAt := now } else other := by
  simp only [setRecordDisabled, hrecord, hchange, if_false, bumpSerialIn, requireZone]
  rw [show ∀ records, ({ store with records } : ZoneStore).getZone record.zoneId = some zone from
    fun _ => hzone]
  exact ⟨_, rfl, rfl⟩

/-- The one operation to be told apart: enabling a record keeps the records apart
exactly when the record, enabled, clashes with no other. -/
theorem setRecordDisabled_exclusive_iff {hickory : Hickory} {store : ZoneStore} {id : Uuid}
    {disabled : Bool} {now : Time} (hclash : Exclusive Clash store.records.rows) :
    Exclusive Clash (applyOp hickory store (.setRecordDisabled id disabled, now)).records.rows ↔
      EnableClear store (.setRecordDisabled id disabled, now) := by
  cases hrecord : store.getRecord id with
  | none =>
    have hclear : EnableClear store (.setRecordDisabled id disabled, now) := by
      cases disabled <;> simp [EnableClear, hrecord]
    simpa [applyOp, runOp, setRecordDisabled, hrecord, hclear] using hclash
  | some record =>
    obtain ⟨hmem, hid⟩ := getRecord_eq_some_iff.mp hrecord
    by_cases hchange : record.disabled = disabled
    · have hclear : EnableClear store (.setRecordDisabled id disabled, now) := by
        cases disabled with
        | true => trivial
        | false =>
          intro record' zone hrecord' _ other hother hne hbad
          obtain rfl : record = record' := Option.some.inj (hrecord.symm.trans hrecord')
          have hsame : { record with disabled := false } = record := by rw [← hchange]
          rw [hsame] at hbad
          exact hne ((hclash record hmem other hother hbad) ▸ hid)
      simpa [applyOp, runOp, setRecordDisabled, hrecord, hchange, hclear] using hclash
    · cases hzone : store.getZone record.zoneId with
      | none =>
        have hclear : EnableClear store (.setRecordDisabled id disabled, now) := by
          cases disabled with
          | true => trivial
          | false =>
            intro record' zone hrecord' hzone'
            obtain rfl : record = record' := Option.some.inj (hrecord.symm.trans hrecord')
            rw [hzone] at hzone'
            contradiction
        have hfail : requireZone { store with
            records := store.records.update (fun record => record.id == id)
              (fun record => { record with disabled, lastModifiedAt := now }) (fun _ => rfl) }
            record.zoneId = .error (.notFound ("zone " ++ ofNat record.zoneId)) := by
          unfold requireZone
          rw [show ∀ records, ({ store with records } : ZoneStore).getZone record.zoneId = none from
            fun _ => hzone]
        simpa [applyOp, runOp, setRecordDisabled, hrecord, hchange, bumpSerialIn, hfail, hclear]
          using hclash
      | some zone =>
        obtain ⟨after, hrun, hrows⟩ := setRecordDisabled_eq now hrecord hzone hchange
        have hafter : applyOp hickory store (.setRecordDisabled id disabled, now) = after := by
          simp [applyOp, runOp, hrun]
        rw [hafter, hrows]
        cases disabled with
        | true =>
          refine iff_of_true (hclash.map _ ?_) trivial
          -- disabling can only end a clash
          rintro a b ⟨hz, hn, ha, hb, htypes⟩
          by_cases hai : a.id = id <;> by_cases hbi : b.id = id <;>
            simp [hai, hbi] at hz hn ha hb htypes
          exact ⟨hz, hn, ha, hb, htypes⟩
        | false =>
          have hiff := hclash.map_row_iff store.records.nodup (fun _ _ => Clash.symm)
            (fun other => { other with disabled := false, lastModifiedAt := now }) (fun _ => rfl)
            hmem
          rw [hid] at hiff
          rw [hiff]
          constructor
          · intro h record' zone' hrecord' _
            obtain rfl : record = record' := Option.some.inj (hrecord.symm.trans hrecord')
            exact h
          · intro h
            exact h record zone hrecord hzone

theorem applyOp_exclusive_iff (hickory : Hickory) (store : ZoneStore) (op : StoreOp × Time)
    (hclash : Exclusive Clash store.records.rows) :
    Exclusive Clash (applyOp hickory store op).records.rows ↔ EnableClear store op := by
  obtain ⟨op, now⟩ := op
  -- every operation but one keeps the records apart whatever its input is
  have hkept : (∀ after, runOp hickory store now op = .ok after →
      Exclusive Clash after.records.rows) →
      Exclusive Clash (applyOp hickory store (op, now)).records.rows := by
    intro h
    unfold applyOp
    split
    next after hafter => exact h after hafter
    next => exact hclash
  cases op with
  | createZone input =>
    refine iff_of_true (hkept fun after h => ?_) trivial
    obtain ⟨_, h⟩ := map_snd_eq_ok.mp h
    exact createZone_exclusive hclash h
  | upsertRecord zoneId input =>
    refine iff_of_true (hkept fun after h => ?_) trivial
    obtain ⟨_, h⟩ := map_snd_eq_ok.mp h
    obtain ⟨_, _, h⟩ := bind_eq_ok.mp h
    exact upsertRecordTx_exclusive hclash h
  | replaceRecord zoneId recordId input =>
    refine iff_of_true (hkept fun after h => ?_) trivial
    obtain ⟨_, h⟩ := map_snd_eq_ok.mp h
    obtain ⟨_, _, h⟩ := bind_eq_ok.mp h
    exact replaceRecordTx_exclusive hclash h
  | setRecordDisabled id disabled => exact setRecordDisabled_exclusive_iff hclash
  | deleteRecord id =>
    refine iff_of_true (hkept fun after h => ?_) trivial
    obtain ⟨_, h⟩ := map_snd_eq_ok.mp h
    exact deleteRecord_exclusive hclash h
  | replaceRecords zoneId records =>
    exact iff_of_true (hkept fun after h => replaceRecords_exclusive hclash h) trivial
  | applyDynamicUpdates zoneId update =>
    refine iff_of_true (hkept fun after h => ?_) trivial
    obtain ⟨_, _, h⟩ := bind_eq_ok.mp h
    exact applyDynamicUpdatesTx_exclusive hclash h

/-- From an empty store, ALIAS and AUTOPTR records stand alone in every state of
a run exactly when no step of it enables a record that clashes with another. -/
theorem aliasExclusive_always_iff (hickory : Hickory) (ops : List (StoreOp × Time)) :
    Always (applyOp hickory) AliasExclusive .empty ops ↔
      Each (applyOp hickory) EnableClear .empty ops := by
  refine always_iff_each (fun _ => True) _ _ (fun _ _ _ => trivial) ?_ ops trivial ?_
  · intro store op _ hexclusive
    rw [aliasExclusive_iff] at hexclusive ⊢
    exact applyOp_exclusive_iff hickory store op hexclusive
  · rw [aliasExclusive_iff]
    intro first hfirst
    simp [ZoneStore.empty, Table.empty] at hfirst

/-- An ALIAS, then an address staged as disabled beside it, then enabled. -/
def enableBesideAlias : List (StoreOp × Time) :=
  [(.createZone { name := "example.com" }, 0),
    (.upsertRecord 0 { name := "www", rtype := "ALIAS", content := "cdn.example.net" }, 1),
    (.upsertRecord 0 { name := "www", rtype := "A", content := "192.0.2.1", disabled := true }, 2),
    (.setRecordDisabled 2 false, 3)]

theorem aliasExclusive_fails :
    ¬ AliasExclusive (run (applyOp .acceptAll) .empty enableBesideAlias) := by
  rw [aliasExclusive_iff]
  decide

end DaygleDns.Authoritative
