import DaygleDns.Authoritative.Secondary
import DaygleDns.Authoritative.StoreFacts

/-! A transfer that fails half-way: what it leaves of the zone's serial, by
which the next refresh decides whether to try again. -/
namespace DaygleDns.Authoritative

open Text Fallible Persist Framing

/-- The next refresh takes the zone for up to date with a master at that serial. -/
structure SkipsTransfer (store : ZoneStore) (zoneId : Uuid) (masterSerial : UInt32) : Prop where
  transferred : hasTransferred store zoneId = true
  records : store.listRecords zoneId ≠ []
  wire : transferData store zoneId ≠ none
  serial : ∃ zone, store.getZone zoneId = some zone ∧ serialNewer masterSerial zone.serial = false

/-- The serial is what it was, so that a refresh that finds the old records
decides as it did before. -/
def KeptForRetry (zoneId : Uuid) (masterSerial : UInt32) (start after : ZoneStore) : Prop :=
  (after.getZone zoneId).map Zone.serial = (start.getZone zoneId).map Zone.serial ∧
    (after.listRecords zoneId = start.listRecords zoneId →
      SkipsTransfer after zoneId masterSerial → SkipsTransfer start zoneId masterSerial)

/-- The write of the SOA is not stopped from outside. -/
def SoaReachable (refresher : Refresher) (records : List MessageRecord) : Prop :=
  refresher.faults .setZoneSoa = none ∧
    (lastSoa records = none → refresher.faults .getZone = none)

/-- The serial that is written. -/
def transferSerial (masterSerial : UInt32) (records : List MessageRecord) : UInt32 :=
  ((lastSoa records).map SoaUpdate.serial).getD masterSerial

/-- Every record is accepted, and no later call is stopped. -/
structure ContentsStorable (refresher : Refresher) (store : ZoneStore) (zoneId : Uuid)
    (records : List MessageRecord) : Prop where
  reachable : refresher.faults .replaceRecords = none
  accepted : ∃ after, replaceRecords refresher.hickory store zoneId
    (recordsToInputs records).2 refresher.now = .ok after
  wire : refresher.faults .setTransferData = none
  time : refresher.faults .touchSecondary = none
  catalog : refresher.faults .reload = none

/-! The first write. -/

/-- The store with the SOA written. -/
def withSoa (store : ZoneStore) (zoneId : Uuid) (soa : SoaUpdate) (now : Time) : ZoneStore :=
  store.updateZone zoneId (soa.writeTo now) (soa.writeTo_id now)

theorem setZoneSoa_eq_ok {store after : ZoneStore} {zoneId : Uuid} {soa : SoaUpdate} {now : Time} :
    setZoneSoa store zoneId soa now = .ok after ↔
      ∃ zone, store.getZone zoneId = some zone ∧ withSoa store zoneId soa now = after := by
  unfold setZoneSoa
  simp only [pure_eq, bind_eq_ok, requireZone_eq_ok, Except.ok.injEq]
  rfl

theorem getZone_withSoa {store : ZoneStore} {zoneId : Uuid} {zone : Zone} (soa : SoaUpdate)
    (now : Time) (h : store.getZone zoneId = some zone) :
    (withSoa store zoneId soa now).getZone zoneId = some (soa.writeTo now zone) := by
  unfold withSoa
  rw [getZone_updateZone, h]
  simp

theorem exec_setZoneSoa {store : ZoneStore} {zoneId : Uuid} {zone : Zone} {fault : Option DaygleError}
    (soa : SoaUpdate) (now : Time) (hfault : fault = none) (h : store.getZone zoneId = some zone) :
    exec (transact fault fun store => setZoneSoa store zoneId soa now) store =
      (.ok (), withSoa store zoneId soa now) :=
  exec_transact_eq_ok.mpr ⟨hfault, setZoneSoa_eq_ok.mpr ⟨zone, h, rfl⟩⟩

theorem exec_setZoneSoa_failed {store : ZoneStore} {zoneId : Uuid} {fault : Option DaygleError}
    (soa : SoaUpdate) (now : Time) (h : ¬ (fault = none ∧ ∃ zone, store.getZone zoneId = some zone)) :
    ∃ e, exec (transact fault fun store => setZoneSoa store zoneId soa now) store =
      (.error e, store) := by
  rw [exec_transact]
  cases hfault : fault with
  | some e => exact ⟨e, rfl⟩
  | none =>
    cases hwrite : setZoneSoa store zoneId soa now with
    | error e => exact ⟨e, rfl⟩
    | ok after =>
      rcases setZoneSoa_eq_ok.mp hwrite with ⟨zone, hzone, _⟩
      exact absurd ⟨hfault, zone, hzone⟩ h

/-- The SOA is written as it should be, or nothing is. -/
theorem storeSoa_cases (refresher : Refresher) (masterSerial : UInt32) (zoneId : Uuid)
    (records : List MessageRecord) (start : ZoneStore) :
    (∃ zone soa, SoaReachable refresher records ∧ start.getZone zoneId = some zone ∧
      soa.serial = transferSerial masterSerial records ∧
      exec (storeSoa refresher masterSerial zoneId (lastSoa records)) start =
        (.ok (), withSoa start zoneId soa refresher.now)) ∨
    (¬ (SoaReachable refresher records ∧ ∃ zone, start.getZone zoneId = some zone)) ∧
      ∃ e, exec (storeSoa refresher masterSerial zoneId (lastSoa records)) start =
        (.error e, start) := by
  by_cases hready : SoaReachable refresher records ∧ ∃ zone, start.getZone zoneId = some zone
  · left
    rcases hready with ⟨hreachable, zone, hzone⟩
    unfold storeSoa transferSerial
    cases hsoa : lastSoa records with
    | some soa =>
      exact ⟨zone, soa, hreachable, hzone, rfl, exec_setZoneSoa soa _ hreachable.1 hzone⟩
    | none =>
      refine ⟨zone, ⟨zone.primaryNs, zone.adminMailbox, masterSerial, zone.refresh, zone.retry,
        zone.expire, zone.minimum⟩, hreachable, hzone, rfl, ?_⟩
      simp only [exec_guarded_bind, exec_read_bind, exec_result_bind, hreachable.2 hsoa,
        requireZone_eq_ok.mpr hzone]
      exact exec_setZoneSoa _ _ hreachable.1 hzone
  · right
    refine ⟨hready, ?_⟩
    unfold storeSoa
    cases hsoa : lastSoa records with
    | some soa =>
      apply exec_setZoneSoa_failed
      intro h
      exact hready ⟨⟨h.1, fun hnone => by rw [hsoa] at hnone; cases hnone⟩, h.2⟩
    | none =>
      simp only [exec_guarded_bind, exec_read_bind, exec_result_bind]
      cases hget : refresher.faults .getZone with
      | some e => exact ⟨e, rfl⟩
      | none =>
        cases hfound : requireZone start zoneId with
        | error e => exact ⟨e, rfl⟩
        | ok zone =>
          apply exec_setZoneSoa_failed
          intro h
          exact hready ⟨⟨h.1, fun _ => hget⟩, h.2⟩

/-! The later writes. -/

theorem replaceRecords_withSoa {hickory : Hickory} {start : ZoneStore} {zoneId : Uuid}
    {inputs : List RecordInput} {soa : SoaUpdate} {now : Time} :
    (∃ after, replaceRecords hickory (withSoa start zoneId soa now) zoneId inputs now = .ok after) ↔
      ∃ after, replaceRecords hickory start zoneId inputs now = .ok after := by
  constructor
  · intro h
    rcases h with ⟨after, hafter⟩
    rcases replaceRecords_eq_ok.mp hafter with ⟨zone, middle, hzone, hinsert, _⟩
    have hstart : ∃ old, start.getZone zoneId = some old ∧ soa.writeTo now old = zone := by
      unfold withSoa at hzone
      rw [getZone_updateZone] at hzone
      simpa using hzone
    rcases hstart with ⟨old, hold, hname⟩
    have hsame : zone.name = old.name := by rw [← hname]; rfl
    rw [hsame] at hinsert
    have hother : ∃ other, insertRecords hickory zoneId old.name now (withoutRecords start zoneId)
        inputs = .ok other := by
      refine insertRecords_congr ?_ ?_ hinsert
      · rfl
      · rfl
    rcases hother with ⟨other, hother⟩
    exact ⟨_, replaceRecords_eq_ok.mpr ⟨old, other, hold, hother, rfl⟩⟩
  · intro h
    rcases h with ⟨after, hafter⟩
    rcases replaceRecords_eq_ok.mp hafter with ⟨zone, middle, hzone, hinsert, _⟩
    have hother : ∃ other, insertRecords hickory zoneId zone.name now
        (withoutRecords (withSoa start zoneId soa now) zoneId) inputs = .ok other := by
      refine insertRecords_congr ?_ ?_ hinsert
      · rfl
      · rfl
    rcases hother with ⟨other, hother⟩
    exact ⟨_, replaceRecords_eq_ok.mpr ⟨_, other, getZone_withSoa soa now hzone, hother, rfl⟩⟩

theorem storeContents_eq_ok {refresher : Refresher} {zoneId : Uuid} {inputs : List RecordInput}
    {wire : List UInt8} {store : ZoneStore} :
    (∃ after, exec (storeContents refresher zoneId inputs wire) store = (.ok (), after)) ↔
      refresher.faults .replaceRecords = none ∧
        (∃ after, replaceRecords refresher.hickory store zoneId inputs refresher.now = .ok after) ∧
        refresher.faults .setTransferData = none ∧ refresher.faults .touchSecondary = none ∧
        refresher.faults .reload = none := by
  unfold storeContents
  simp only [exec_bind_eq_ok, exec_transact_eq_ok, exec_guarded_eq_ok]
  constructor
  · intro h
    rcases h with ⟨_, _, first, ⟨hreachable, haccepted⟩, _, second, ⟨hwire, _⟩, _, third,
      ⟨htime, _⟩, hcatalog, _⟩
    exact ⟨hreachable, ⟨first, haccepted⟩, hwire, htime, hcatalog⟩
  · intro h
    rcases h with ⟨hreachable, ⟨first, haccepted⟩, hwire, htime, hcatalog⟩
    exact ⟨_, (), first, ⟨hreachable, haccepted⟩, (), _, ⟨hwire, rfl⟩, (), _, ⟨htime, rfl⟩,
      hcatalog, rfl⟩

/-- The records are untouched, or they are the new ones under the old serial. -/
theorem storeContents_leads (refresher : Refresher) (zoneId : Uuid) (inputs : List RecordInput)
    (wire : List UInt8) (start : ZoneStore) :
    Leads (fun store => store = start)
      (fun after => after = start ∨ ∃ replaced,
        replaceRecords refresher.hickory start zoneId inputs refresher.now = .ok replaced ∧
          after.zones = replaced.zones ∧ after.records = replaced.records)
      (storeContents refresher zoneId inputs wire) := by
  intro store hstore
  rw [hstore]
  unfold storeContents
  rw [exec_bind]
  rcases hexec : exec (transact (refresher.faults .replaceRecords) fun store =>
      replaceRecords refresher.hickory store zoneId inputs refresher.now) start with ⟨_ | _, middle⟩
  · left
    rw [exec_transact] at hexec
    split at hexec <;> cases hexec <;> rfl
  · right
    refine ⟨middle, (exec_transact_eq_ok.mp hexec).2, ?_⟩
    have hkeeps : Leads (fun after => after.zones = middle.zones ∧ after.records = middle.records)
        (fun after => after.zones = middle.zones ∧ after.records = middle.records)
        (do
          transact (refresher.faults .setTransferData) fun store =>
            .ok (setTransferData store zoneId wire)
          transact (refresher.faults .touchSecondary) fun store =>
            .ok (touchSecondary store zoneId refresher.now)
          guarded (refresher.faults .reload)) := by
      refine Leads.bind (leads_transact (fun _ h => h) ?_) ?_
      · intro before after h hwrite
        cases hwrite
        exact h
      · intro _
        refine Leads.bind (leads_transact (fun _ h => h) ?_) ?_
        · intro before after h hwrite
          cases hwrite
          exact h
        · intro _
          exact keeps_guarded _
    exact hkeeps middle ⟨rfl, rfl⟩

theorem replaceRecords_serial {hickory : Hickory} {store after : ZoneStore} {zoneId : Uuid}
    {inputs : List RecordInput} {now : Time}
    (h : replaceRecords hickory store zoneId inputs now = .ok after) (id : Uuid) :
    (after.getZone id).map Zone.serial = (store.getZone id).map Zone.serial := by
  rcases replaceRecords_eq_ok.mp h with ⟨zone, middle, _, hinsert, rfl⟩
  have hsame : middle.getZone id = store.getZone id := (insertRecords_eq_ok hinsert).1.getZone id
  rw [getZone_updateZone, hsame, Option.map_map]
  apply Option.map_congr
  intro row _
  rw [Function.comp_apply]
  split <;> rfl

theorem serial_withSoa {start : ZoneStore} {zoneId : Uuid} {zone : Zone} {soa : SoaUpdate} (now : Time)
    (h : start.getZone zoneId = some zone) :
    ((withSoa start zoneId soa now).getZone zoneId).map Zone.serial = some soa.serial := by
  rw [getZone_withSoa soa now h]
  rfl

/-- New records are seen to be new by their identifiers. -/
theorem listRecords_replaced {hickory : Hickory} {store after : ZoneStore} {zoneId : Uuid}
    {inputs : List RecordInput} {now : Time}
    (h : replaceRecords hickory store zoneId inputs now = .ok after)
    (hsame : after.listRecords zoneId = store.listRecords zoneId) : after.listRecords zoneId = [] := by
  rcases replaceRecords_eq_ok.mp h with ⟨zone, middle, _, hinsert, rfl⟩
  have hrows := (insertRecords_eq_ok hinsert).2
  apply List.eq_nil_iff_forall_not_mem.mpr
  intro record hrecord
  have hold := hrecord
  rw [hsame] at hold
  rcases mem_listRecords.mp hrecord with ⟨hmem, hzone⟩
  rw [updateZone_records, hrows] at hmem
  rcases List.mem_append.mp hmem with hkept | hadded
  · have hother := (List.mem_filter.mp hkept).2
    simp [hzone] at hother
  · have hbelow := store.records.below record (mem_listRecords.mp hold).1
    have hnew := storedRows_above hadded
    exact absurd hbelow (Nat.not_lt.mpr hnew)

/-! What a failed transfer leaves. -/

theorem keptForRetry_refl (zoneId : Uuid) (masterSerial : UInt32) (start : ZoneStore) :
    KeptForRetry zoneId masterSerial start start := ⟨rfl, fun _ h => h⟩

/-- Once the SOA is written, all depends on its serial. -/
theorem keptForRetry_iff {refresher : Refresher} {zoneId : Uuid} {masterSerial : UInt32}
    {start after : ZoneStore} {zone : Zone} {soa : SoaUpdate} {inputs : List RecordInput}
    {wire : List UInt8} {outcome : Except DaygleError Unit} (hzone : start.getZone zoneId = some zone)
    (h : exec (storeContents refresher zoneId inputs wire) (withSoa start zoneId soa refresher.now) =
      (outcome, after)) :
    KeptForRetry zoneId masterSerial start after ↔ soa.serial = zone.serial := by
  have hafter := storeContents_leads refresher zoneId inputs wire
    (withSoa start zoneId soa refresher.now) (withSoa start zoneId soa refresher.now) rfl
  rw [h] at hafter
  dsimp only at hafter
  have hserial : (after.getZone zoneId).map Zone.serial = some soa.serial := by
    rcases hafter with hsame | ⟨replaced, hreplaced, hzones, _⟩
    · rw [hsame]
      exact serial_withSoa _ hzone
    · have hrow : after.getZone zoneId = replaced.getZone zoneId := by
        unfold ZoneStore.getZone
        rw [hzones]
      rw [hrow, replaceRecords_serial hreplaced]
      exact serial_withSoa _ hzone
  constructor
  · intro hkept
    have hsame := hkept.1
    rw [hserial, hzone] at hsame
    exact Option.some.inj hsame
  · intro hsame
    refine ⟨by rw [hserial, hzone, hsame]; rfl, ?_⟩
    intro hrecords hskips
    rcases hafter with hunchanged | ⟨replaced, hreplaced, _, htable⟩
    · -- the records are the old ones, and so is all else that decides
      rw [hunchanged] at hskips
      refine ⟨hskips.transferred, hskips.records, hskips.wire, zone, hzone, ?_⟩
      rcases hskips.serial with ⟨row, hrow, hnewer⟩
      rw [getZone_withSoa soa _ hzone] at hrow
      rw [← Option.some.inj hrow] at hnewer
      rw [← hsame]
      exact hnewer
    · have hlist : after.listRecords zoneId = replaced.listRecords zoneId := by
        unfold ZoneStore.listRecords
        rw [htable]
      have hnone : replaced.listRecords zoneId = [] := by
        apply listRecords_replaced hreplaced
        rw [← hlist, hrecords]
        rfl
      exact absurd (hlist.trans hnone) hskips.records

theorem contentsStorable_iff {refresher : Refresher} {start : ZoneStore} {zoneId : Uuid}
    {soa : SoaUpdate} {records : List MessageRecord} {wire : List UInt8} :
    (∃ after, exec (storeContents refresher zoneId (recordsToInputs records).2 wire)
      (withSoa start zoneId soa refresher.now) = (.ok (), after)) ↔
      ContentsStorable refresher start zoneId records := by
  rw [storeContents_eq_ok, replaceRecords_withSoa]
  constructor
  · intro h
    exact ⟨h.1, h.2.1, h.2.2.1, h.2.2.2.1, h.2.2.2.2⟩
  · intro h
    exact ⟨h.reachable, h.accepted, h.wire, h.time, h.catalog⟩

theorem exec_storeTransfer (refresher : Refresher) (masterSerial : UInt32) (zoneId : Uuid)
    (received : ReceivedTransfer) (start : ZoneStore) :
    exec (storeTransfer refresher masterSerial zoneId received) start =
      match exec (storeSoa refresher masterSerial zoneId (lastSoa received.records)) start with
      | (.ok _, middle) =>
        exec (storeContents refresher zoneId (recordsToInputs received.records).2 received.wire) middle
      | (.error e, middle) => (.error e, middle) := by
  change exec (storeSoa refresher masterSerial zoneId (lastSoa received.records) >>= fun _ =>
    storeContents refresher zoneId (recordsToInputs received.records).2 received.wire) start = _
  rw [exec_bind]
  rcases exec (storeSoa refresher masterSerial zoneId (lastSoa received.records)) start with
    ⟨_ | _, _⟩ <;> rfl

theorem storeTransfer_retried_iff (refresher : Refresher) (masterSerial : UInt32) (zoneId : Uuid)
    (received : ReceivedTransfer) (start : ZoneStore) :
    (∀ e after, exec (storeTransfer refresher masterSerial zoneId received) start =
        (.error e, after) → KeptForRetry zoneId masterSerial start after) ↔
      ∀ zone, start.getZone zoneId = some zone → SoaReachable refresher received.records →
        transferSerial masterSerial received.records = zone.serial ∨
          ContentsStorable refresher start zoneId received.records := by
  rw [exec_storeTransfer]
  rcases storeSoa_cases refresher masterSerial zoneId received.records start with
    ⟨zone, soa, hreachable, hzone, hserial, hwritten⟩ | ⟨hnot, e, hfailed⟩
  · rw [hwritten]
    dsimp only
    rcases hexec : exec (storeContents refresher zoneId (recordsToInputs received.records).2
      received.wire) (withSoa start zoneId soa refresher.now) with ⟨_ | _, after⟩
    · rw [← hserial]
      constructor
      · intro h other hother _
        rw [hzone] at hother
        rw [← Option.some.inj hother]
        exact .inl ((keptForRetry_iff hzone hexec).mp (h _ after rfl))
      · intro h e' after' heq
        cases heq
        apply (keptForRetry_iff hzone hexec).mpr
        apply (h zone hzone hreachable).resolve_right
        intro hstorable
        rcases contentsStorable_iff.mpr hstorable with ⟨done, hdone⟩
        rw [hexec] at hdone
        cases hdone
    · constructor
      · intro _ _ _ _
        exact .inr (contentsStorable_iff.mp ⟨after, hexec⟩)
      · intro _ e after h
        cases h
  · rw [hfailed]
    constructor
    · intro _ zone hzone hreachable
      exact absurd ⟨hreachable, zone, hzone⟩ hnot
    · intro _ e' after h
      cases h
      exact keptForRetry_refl _ _ _

theorem exec_transferFrom (refresher : Refresher) (client : XfrClient) (master : Master)
    (zoneName : Text) (masterSerial : UInt32) (currentSerial : Option UInt32) (zoneId : Uuid)
    (start : ZoneStore) :
    exec (transferFrom refresher client master zoneName masterSerial currentSerial zoneId) start =
      match receiveTransfer client master zoneName currentSerial with
      | .error e => (.error e, start)
      | .ok none => (.ok false, start)
      | .ok (some received) =>
        match exec (storeTransfer refresher masterSerial zoneId received) start with
        | (.ok _, after) => (.ok true, after)
        | (.error e, after) => (.error e, after) := by
  unfold transferFrom
  rw [exec_result_bind]
  cases receiveTransfer client master zoneName currentSerial with
  | error e => rfl
  | ok outcome =>
    cases outcome with
    | none => rfl
    | some received =>
      change exec (storeTransfer refresher masterSerial zoneId received >>= fun _ => pure true)
        start = _
      rw [exec_bind]
      rcases hexec : exec (storeTransfer refresher masterSerial zoneId received) start with
        ⟨_ | _, _⟩ <;> simp [hexec]

/-! The decision of the next refresh. -/

theorem needsFull_eq {refresher : Refresher} {zoneId : Uuid} {store : ZoneStore}
    (hsecondary : refresher.faults .listSecondary = none)
    (hrecords : refresher.faults .listRecords = none)
    (hwire : refresher.faults .transferData = none) :
    exec (needsFull refresher zoneId) store =
      (.ok (!hasTransferred store zoneId || (store.listRecords zoneId).isEmpty ||
        (transferData store zoneId).isNone), store) := by
  unfold needsFull
  simp only [exec_guarded_bind, exec_read_bind, hsecondary]
  cases htransferred : hasTransferred store zoneId with
  | false => simp
  | true =>
    simp only [Bool.not_true, Bool.false_eq_true, if_false, exec_guarded_bind, exec_read_bind,
      hrecords]
    cases hempty : (store.listRecords zoneId).isEmpty with
    | true => simp
    | false =>
      simp only [Bool.false_eq_true, if_false, exec_guarded_bind, hwire, exec_read, Bool.false_or]

/-- A refresh that reaches a master's SOA passes the zone over, or transfers it. -/
theorem refreshFrom_decides {refresher : Refresher} {client : XfrClient} {config : SecondaryZoneConfig}
    {zone : Zone} {zoneName : Text} {master : Text} {addr : Master} {soa : MessageRecord}
    {store : ZoneStore} (lastError : Option DaygleError) (masters : List Text)
    (hmaster : refresher.masters master = .ok addr)
    (hsoa : querySoa client addr zoneName = .ok (some soa))
    (hsecondary : refresher.faults .listSecondary = none)
    (hrecords : refresher.faults .listRecords = none)
    (hwire : refresher.faults .transferData = none)
    (hzone : store.getZone zone.id = some zone) :
    (SkipsTransfer store zone.id (soa.soaSerial.getD 0) ∧
      exec (refreshFrom refresher client config zone zoneName lastError (master :: masters)) store =
        (.ok false, store)) ∨
    (¬ SkipsTransfer store zone.id (soa.soaSerial.getD 0) ∧ ∃ currentSerial,
      exec (refreshFrom refresher client config zone zoneName lastError (master :: masters)) store =
        exec (transferFrom refresher client addr zoneName (soa.soaSerial.getD 0) currentSerial
          zone.id) store) := by
  have hskips : SkipsTransfer store zone.id (soa.soaSerial.getD 0) ↔
      (!(!hasTransferred store zone.id || (store.listRecords zone.id).isEmpty ||
          (transferData store zone.id).isNone) &&
        !serialNewer (soa.soaSerial.getD 0) zone.serial) = true := by
    simp only [Bool.and_eq_true, Bool.not_eq_true', Bool.or_eq_false_iff, Bool.not_eq_false',
      List.isEmpty_eq_false_iff, Option.isNone_eq_false_iff, Option.isSome_iff_ne_none]
    constructor
    · intro h
      rcases h.serial with ⟨row, hrow, hnewer⟩
      rw [hzone] at hrow
      rw [← Option.some.inj hrow] at hnewer
      exact ⟨⟨⟨h.transferred, h.records⟩, h.wire⟩, hnewer⟩
    · intro h
      exact ⟨h.1.1.1, h.1.1.2, h.1.2, zone, hzone, h.2⟩
  rw [hskips, refreshFrom, hmaster]
  simp only [Except.mapError, exec_result_bind, hsoa]
  rw [exec_bind, needsFull_eq hsecondary hrecords hwire]
  dsimp only
  split
  next h => exact .inl ⟨h, rfl⟩
  next h => exact .inr ⟨h, _, rfl⟩

/-- A transfer that fails is tried again, whatever fails in it, exactly when the
serial it brings is the zone's own or nothing can fail once it is written. -/
theorem failedTransfer_retried_iff (refresher : Refresher) (client : XfrClient) (master : Master)
    (zoneName : Text) (masterSerial : UInt32) (currentSerial : Option UInt32) (zoneId : Uuid)
    (start : ZoneStore) :
    (∀ e after, exec (transferFrom refresher client master zoneName masterSerial currentSerial
        zoneId) start = (.error e, after) → KeptForRetry zoneId masterSerial start after) ↔
      ∀ received zone, receiveTransfer client master zoneName currentSerial = .ok (some received) →
        start.getZone zoneId = some zone → SoaReachable refresher received.records →
          transferSerial masterSerial received.records = zone.serial ∨
            ContentsStorable refresher start zoneId received.records := by
  rw [exec_transferFrom]
  cases hreceived : receiveTransfer client master zoneName currentSerial with
  | error e =>
    constructor
    · intro _ received zone h
      cases h
    · intro _ e after h
      cases h
      exact keptForRetry_refl _ _ _
  | ok outcome =>
    cases outcome with
    | none =>
      constructor
      · intro _ received zone h
        cases h
      · intro _ e after h
        cases h
    | some received =>
      have hstore := storeTransfer_retried_iff refresher masterSerial zoneId received start
      constructor
      · intro h other zone hother
        cases hother
        apply hstore.mp
        intro e after hexec
        apply h e after
        simp only [hexec]
      · intro h e after hexec
        apply hstore.mpr (fun zone => h received zone rfl) e after
        dsimp only at hexec
        split at hexec
        next => cases hexec
        next => cases hexec; assumption

/-- The example zone as a copy of serial 1 with its NS record. -/
def ZoneStore.replicated : ZoneStore :=
  { ZoneStore.exampleCom with
    secondaryZones := [⟨0, ["192.0.2.53"], 3600, some 0⟩]
    zoneTransfers := [(0, [])] }

/-- The label of the new record ends in a hyphen. -/
def hyphenTransfer : List MessageRecord :=
  [exampleSoa 2, exampleAddress "foo-.example.com.", exampleSoa 2]

def hyphenReplyBytes : Bytes :=
  exampleHeader 0x8400 3 0 ++ exampleQuestion 251 ++ exampleSoaBytes 2 ++
    exampleAddressBytes (toBeBytes 7 0x04666f6f2dc00c) ++ exampleSoaBytes 2

/-- Records by themselves have their names in full. -/
def hyphenCodec : MessageCodec := .ofTable
  [(exampleSoa 2, exampleSoaInFull 2),
    (exampleAddress "foo-.example.com.",
      exampleAddressBytes (toBeBytes 18 0x04666f6f2d076578616d706c6503636f6d00))]
  [(buildQuery "example.com." "SOA", soaQueryBytes),
    (replyTo (buildQuery "example.com." "SOA") [exampleSoa 2], soaReplyBytes 2),
    (ixfrQuery "example.com." 1, ixfrQueryBytes 1),
    (replyTo (ixfrQuery "example.com." 1) hyphenTransfer, hyphenReplyBytes)]

def hyphenMaster : Master := .ofTable "192.0.2.53:53"
  [(soaQueryBytes, [soaReplyBytes 2]), (ixfrQueryBytes 1, [hyphenReplyBytes])]

def hyphenRefresher : Refresher where
  hickory := .acceptAll
  client := ⟨hyphenCodec, none, fun _ _ => 0⟩
  masters := fun _ => .ok hyphenMaster
  tsigKeys := fun _ => none
  faults := fun _ => none
  now := 1

def hyphenConfig : SecondaryZoneConfig where
  name := "example.com"
  masters := ["192.0.2.53"]
  refreshSecs := 3600
  enabled := true
  tsigKey := []

def hyphenRefused : Except DaygleError Bool × ZoneStore :=
  exec (transferFrom hyphenRefresher hyphenRefresher.client hyphenMaster "example.com." 2 (some 1) 0)
    .replicated

/-- The new serial is there without the new records, and the next refresh has
nothing to do. -/
theorem failedTransfer_retried_fails : ∃ e after,
    exec (transferFrom hyphenRefresher hyphenRefresher.client hyphenMaster "example.com." 2 (some 1)
      0) .replicated = (.error e, after) ∧
      ¬ KeptForRetry 0 2 .replicated after ∧
      after.listRecords 0 = ZoneStore.replicated.listRecords 0 ∧
      (exec (refreshZone hyphenRefresher hyphenConfig) after).1 = .ok false := by
  have hrefused : hyphenRefused.1 =
      .error (.invalidRecord "invalid label 'foo-' in 'foo-.example.com'") := by decide +kernel
  have hexec : hyphenRefused = (.error (.invalidRecord "invalid label 'foo-' in 'foo-.example.com'"),
      hyphenRefused.2) := by rw [← hrefused]
  have hserial : (hyphenRefused.2.getZone 0).map Zone.serial ≠
      (ZoneStore.replicated.getZone 0).map Zone.serial := by decide +kernel
  have hrecords : hyphenRefused.2.listRecords 0 = ZoneStore.replicated.listRecords 0 := by
    decide +kernel
  have hnext : (exec (refreshZone hyphenRefresher hyphenConfig) hyphenRefused.2).1 = .ok false := by
    decide +kernel
  exact ⟨_, hyphenRefused.2, hexec, fun h => hserial h.1, hrecords, hnext⟩

end DaygleDns.Authoritative
