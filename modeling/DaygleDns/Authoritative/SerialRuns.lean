import DaygleDns.Authoritative.UpdateOrder
import DaygleDns.Runs

/-! Serials of the zones while operations interleave. Every lock on the
connection is one step; calls that read the zone first take two. -/
namespace DaygleDns.Authoritative

open Fallible Runs

theorem serialNewer_iff (master localSerial : UInt32) :
    serialNewer master localSerial = true ↔
      0 < (master - localSerial).toNat ∧ (master - localSerial).toNat < 2 ^ 31 := by
  have hsub : (master - localSerial).toInt32.toInt = (master - localSerial).toBitVec.toInt := rfl
  have hne : master ≠ localSerial ↔ (master - localSerial).toNat ≠ 0 := by
    rw [ne_eq, ← UInt32.toNat_inj, UInt32.toNat_sub]
    have := master.toNat_lt
    have := localSerial.toNat_lt
    omega
  unfold serialNewer
  rw [Bool.and_eq_true, bne_iff_ne, decide_eq_true_eq, Int32.lt_iff_toInt_lt, Int32.toInt_zero,
    hsub, BitVec.toInt_eq_toNat_cond, UInt32.toNat_toBitVec, hne]
  have := (master - localSerial).toNat_lt
  split <;> omega

theorem nextSerial_toNat (serial : UInt32) :
    (nextSerial serial).toNat = if serial.toNat = 2 ^ 32 - 1 then 1 else serial.toNat + 1 := by
  have hmax : nextSerial serial = if serial + 1 ≤ 1 then 1 else serial + 1 := rfl
  have hone : (1 : UInt32).toNat = 1 := rfl
  have := serial.toNat_lt
  rw [hmax]
  simp only [UInt32.le_iff_toNat_le, UInt32.toNat_add, hone]
  split
  · rw [hone]
    split <;> omega
  · rw [UInt32.toNat_add, hone]
    split <;> omega

theorem serialNewer_nextSerial (serial : UInt32) : serialNewer (nextSerial serial) serial = true := by
  rw [serialNewer_iff, UInt32.toNat_sub, nextSerial_toNat]
  have := serial.toNat_lt
  split <;> omega

/-- The successor of a serial that was read is newer than the current serial:
the zone has not moved since; or it has only stepped over the wrap-around to
zero; or it is so far ahead that the number space calls it behind. -/
def StillNext (read current : UInt32) : Prop :=
  let ahead := (current - read).toNat
  if read.toNat = 2 ^ 32 - 1 then ahead ≤ 1 ∨ 2 ^ 31 + 2 < ahead
  else ahead = 0 ∨ 2 ^ 31 + 1 < ahead

theorem serialNewer_nextSerial_iff (read current : UInt32) :
    serialNewer (nextSerial read) current = true ↔ StillNext read current := by
  unfold StillNext
  rw [serialNewer_iff, UInt32.toNat_sub, nextSerial_toNat, UInt32.toNat_sub]
  have := read.toNat_lt
  have := current.toNat_lt
  split <;> omega

/-- The calls that read the zone before their transaction. -/
inductive ZoneCall where
  | upsertRecord (zoneId : Uuid) (input : RecordInput)
  | replaceRecord (zoneId recordId : Uuid) (input : RecordInput)
  | applyDynamicUpdates (zoneId : Uuid) (update : DynamicUpdate)

def ZoneCall.zoneId : ZoneCall → Uuid
  | .upsertRecord zoneId _ => zoneId
  | .replaceRecord zoneId _ _ => zoneId
  | .applyDynamicUpdates zoneId _ => zoneId

/-- One section under the connection lock. -/
inductive Section where
  | read (call : ZoneCall)
  | transact (index : Nat)
  | setRecordDisabled (id : Uuid) (disabled : Bool)
  | deleteRecord (id : Uuid)
  | bumpSerial (zoneId : Uuid)

/-- The store and the calls between their two sections, each with its zone. -/
structure Calls where
  store : ZoneStore
  pending : List (Zone × ZoneCall)

/-- The zone a transaction changes and the store it commits, if it commits. -/
def ZoneCall.transact (hickory : Hickory) (store : ZoneStore) (zone : Zone) (now : Time) :
    ZoneCall → Option (Uuid × ZoneStore)
  | .upsertRecord _ input =>
      match upsertRecordTx hickory store zone input now with
      | .ok (_, after) => some (zone.id, after)
      | .error _ => none
  | .replaceRecord _ recordId input =>
      match replaceRecordTx hickory store zone recordId input now with
      | .ok (some _, after) => some (zone.id, after)
      | .ok (none, _) => none
      | .error _ => none
  | .applyDynamicUpdates _ update =>
      match applyDynamicUpdatesTx hickory store zone update now with
      | .ok after => some (zone.id, after)
      | .error _ => none

def committed (hickory : Hickory) (calls : Calls) (now : Time) : Section → Option (Uuid × ZoneStore)
  | .read _ => none
  | .transact index =>
      calls.pending[index]?.bind fun entry => entry.2.transact hickory calls.store entry.1 now
  | .setRecordDisabled id disabled =>
      match calls.store.getRecord id with
      | none => none
      | some record =>
          if record.disabled = disabled then none
          else match setRecordDisabled calls.store id disabled now with
            | .ok (_, after) => some (record.zoneId, after)
            | .error _ => none
  | .deleteRecord id =>
      match calls.store.getRecord id with
      | none => none
      | some record =>
          match deleteRecord calls.store id now with
          | .ok (_, after) => some (record.zoneId, after)
          | .error _ => none
  | .bumpSerial zoneId =>
      match bumpSerial calls.store zoneId now with
      | .ok (_, after) => some (zoneId, after)
      | .error _ => none

def stillPending (calls : Calls) : Section → List (Zone × ZoneCall)
  | .read call =>
      match calls.store.getZone call.zoneId with
      | some zone => calls.pending ++ [(zone, call)]
      | none => calls.pending
  | .transact index => calls.pending.eraseIdx index
  | _ => calls.pending

def runSection (hickory : Hickory) (calls : Calls) (entry : Section × Time) : Calls where
  store := ((committed hickory calls entry.2 entry.1).map Prod.snd).getD calls.store
  pending := stillPending calls entry.1

/-- A committed change leaves its zone with a newer serial. -/
def MovesForward (hickory : Hickory) (calls : Calls) (entry : Section × Time) : Prop :=
  ∀ zoneId after, committed hickory calls entry.2 entry.1 = some (zoneId, after) →
    ∃ old new, calls.store.getZone zoneId = some old ∧ after.getZone zoneId = some new ∧
      serialNewer new.serial old.serial = true

/-- A dynamic update that commits writes an SOA newer than the zone's, or the
zone is where the update read it. -/
def WritesNewer (hickory : Hickory) (calls : Calls) (entry : Section × Time) : Prop :=
  ∀ index zone zoneId update current, entry.1 = .transact index →
    calls.pending[index]? = some (zone, .applyDynamicUpdates zoneId update) →
    calls.store.getZone zone.id = some current →
    (∃ after, applyDynamicUpdatesTx hickory calls.store zone update entry.2 = .ok after) →
    match update.soa with
    | some soa => serialNewer soa.serial current.serial = true
    | none => StillNext zone.serial current.serial

/-! What each transaction does to the serial. -/

/-- No zone is lost. -/
def KeepsZones (before after : ZoneStore) : Prop :=
  ∀ id, (before.getZone id).isSome → (after.getZone id).isSome

theorem updateZone_keepsZones {before middle : ZoneStore} (hsame : SameButRecords before middle)
    (zoneId : Uuid) (change : Zone → Zone) (hkey : ∀ zone, (change zone).id = zone.id) :
    KeepsZones before (middle.updateZone zoneId change hkey) := by
  intro id h
  rw [getZone_updateZone, hsame.getZone, Option.isSome_map]
  exact h

/-- The serial of one zone moved to its successor. -/
structure Bumped (before after : ZoneStore) (zoneId : Uuid) : Prop where
  keeps : KeepsZones before after
  serial : ∃ old new, before.getZone zoneId = some old ∧ after.getZone zoneId = some new ∧
    new.serial = nextSerial old.serial

theorem Bumped.forward {before after : ZoneStore} {zoneId : Uuid} (h : Bumped before after zoneId) :
    ∃ old new, before.getZone zoneId = some old ∧ after.getZone zoneId = some new ∧
      serialNewer new.serial old.serial = true := by
  rcases h.serial with ⟨old, new, hold, hnew, hserial⟩
  refine ⟨old, new, hold, hnew, ?_⟩
  rw [hserial]
  exact serialNewer_nextSerial old.serial

theorem bumpSerialIn_bumped {before middle after : ZoneStore} {zoneId : Uuid} {now : Time}
    {next : UInt32} (hsame : SameButRecords before middle)
    (h : bumpSerialIn middle zoneId now = .ok (next, after)) : Bumped before after zoneId := by
  rcases bumpSerialIn_eq_ok h with ⟨zone, hzone, hnext, hafter⟩
  refine ⟨?_, zone, { zone with serial := next, lastModifiedAt := now }, ?_, ?_, hnext⟩
  · rw [hafter]
    exact updateZone_keepsZones hsame _ _ _
  · rw [← hsame.getZone, hzone]
  · rw [hafter, getZone_updateZone, hzone]
    simp

theorem upsertRecordTx_bumped {hickory : Hickory} {store after : ZoneStore} {zone : Zone}
    {input : RecordInput} {now : Time} {record : Record}
    (h : upsertRecordTx hickory store zone input now = .ok (record, after)) :
    Bumped store after zone.id := by
  unfold upsertRecordTx at h
  rcases bind_eq_ok.mp h with ⟨⟨inserted, middle⟩, hinsert, h⟩
  rcases bind_eq_ok.mp h with ⟨⟨next, bumped⟩, hbump, h⟩
  cases h
  exact bumpSerialIn_bumped (insertRecordInTx_same hinsert) hbump

theorem replaceRecordTx_bumped {hickory : Hickory} {store after : ZoneStore} {zone : Zone}
    {recordId : Uuid} {input : RecordInput} {now : Time} {record : Record}
    (h : replaceRecordTx hickory store zone recordId input now = .ok (some record, after)) :
    Bumped store after zone.id := by
  unfold replaceRecordTx at h
  split at h
  next => cases h
  next prior _ =>
    simp only [throw_eq, pure_eq, bind_eq_ok] at h
    rcases h with ⟨⟨inserted, middle⟩, hinsert, h⟩
    split at h
    next records _ =>
      rcases bind_eq_ok.mp h with ⟨⟨next, bumped⟩, hbump, h⟩
      cases h
      have hinserted := insertRecordInTx_same hinsert
      have hsame : SameButRecords store { middle with records } :=
        ⟨hinserted.zones, hinserted.dnssecKeys, hinserted.zoneAliases, hinserted.secondaryZones,
          hinserted.zoneTransfers⟩
      exact bumpSerialIn_bumped hsame hbump
    next => exact absurd h error_ne_ok

theorem setRecordDisabled_bumped {store after : ZoneStore} {id : Uuid} {disabled : Bool}
    {now : Time} {record : Record} {found : Bool} (hrecord : store.getRecord id = some record)
    (hchanged : record.disabled ≠ disabled)
    (h : setRecordDisabled store id disabled now = .ok (found, after)) :
    Bumped store after record.zoneId := by
  unfold setRecordDisabled at h
  rw [hrecord] at h
  dsimp only at h
  rw [if_neg hchanged] at h
  rcases bind_eq_ok.mp h with ⟨⟨next, bumped⟩, hbump, h⟩
  cases h
  exact bumpSerialIn_bumped (by exact ⟨rfl, rfl, rfl, rfl, rfl⟩) hbump

theorem deleteRecord_bumped {store after : ZoneStore} {id : Uuid} {now : Time} {record : Record}
    {found : Bool} (hrecord : store.getRecord id = some record)
    (h : deleteRecord store id now = .ok (found, after)) : Bumped store after record.zoneId := by
  unfold deleteRecord at h
  rw [hrecord] at h
  rcases bind_eq_ok.mp h with ⟨⟨next, bumped⟩, hbump, h⟩
  cases h
  exact bumpSerialIn_bumped (by exact ⟨rfl, rfl, rfl, rfl, rfl⟩) hbump

def writtenSerial (zone : Zone) (update : DynamicUpdate) : UInt32 :=
  match update.soa with
  | some soa => soa.serial
  | none => nextSerial zone.serial

theorem applyDynamicUpdatesTx_serial {hickory : Hickory} {store after : ZoneStore} {zone : Zone}
    {update : DynamicUpdate} {now : Time}
    (h : applyDynamicUpdatesTx hickory store zone update now = .ok after) :
    KeepsZones store after ∧ ∀ old, store.getZone zone.id = some old →
      ∃ new, after.getZone zone.id = some new ∧ new.serial = writtenSerial zone update := by
  rcases applyDynamicUpdatesTx_eq_ok h with ⟨middle, hinsert, hafter⟩
  have hsame := (deleteAll_same zone.id update.deletes store).trans (insertRecords_eq_ok hinsert).1
  unfold writtenSerial
  cases hsoa : update.soa with
  | some soa =>
    rw [hsoa] at hafter
    rw [hafter]
    refine ⟨updateZone_keepsZones hsame _ _ _, fun old hold => ⟨soa.writeTo now old, ?_, rfl⟩⟩
    rw [getZone_updateZone, hsame.getZone, hold]
    simp
  | none =>
    rw [hsoa] at hafter
    rw [hafter]
    refine ⟨updateZone_keepsZones hsame _ _ _, fun old hold =>
      ⟨{ old with serial := nextSerial zone.serial, lastModifiedAt := now }, ?_, rfl⟩⟩
    rw [getZone_updateZone, hsame.getZone, hold]
    simp

/-- Every section but a dynamic update's moves the serial to its successor. -/
theorem committed_cases {hickory : Hickory} {calls : Calls} {now : Time} {part : Section}
    {zoneId : Uuid} {after : ZoneStore}
    (h : committed hickory calls now part = some (zoneId, after)) :
    Bumped calls.store after zoneId ∨
      ∃ index zone target update, part = .transact index ∧
        calls.pending[index]? = some (zone, .applyDynamicUpdates target update) ∧
        zoneId = zone.id ∧ applyDynamicUpdatesTx hickory calls.store zone update now = .ok after := by
  cases part with
  | read call => cases h
  | transact index =>
    rcases Option.bind_eq_some_iff.mp h with ⟨⟨zone, call⟩, hentry, htransact⟩
    cases call with
    | upsertRecord target input =>
      left
      simp only [ZoneCall.transact] at htransact
      split at htransact
      next record middle htx =>
        cases htransact
        exact upsertRecordTx_bumped htx
      next => cases htransact
    | replaceRecord target recordId input =>
      left
      simp only [ZoneCall.transact] at htransact
      split at htransact
      next record middle htx =>
        cases htransact
        exact replaceRecordTx_bumped htx
      next => cases htransact
      next => cases htransact
    | applyDynamicUpdates target update =>
      right
      simp only [ZoneCall.transact] at htransact
      split at htransact
      next middle htx =>
        cases htransact
        exact ⟨index, zone, target, update, rfl, hentry, rfl, htx⟩
      next => cases htransact
  | setRecordDisabled id disabled =>
    left
    simp only [committed] at h
    split at h
    next => cases h
    next record hrecord =>
      split at h
      next => cases h
      next hchanged =>
        split at h
        next htx =>
          cases h
          exact setRecordDisabled_bumped hrecord hchanged htx
        next => cases h
  | deleteRecord id =>
    left
    simp only [committed] at h
    split at h
    next => cases h
    next record hrecord =>
      split at h
      next htx =>
        cases h
        exact deleteRecord_bumped hrecord htx
      next => cases h
  | bumpSerial target =>
    left
    simp only [committed] at h
    split at h
    next htx =>
      cases h
      exact bumpSerialIn_bumped (.refl _) htx
    next => cases h

/-- The zone of every pending call is stored. -/
def PendingKnown (calls : Calls) : Prop :=
  ∀ entry ∈ calls.pending, (calls.store.getZone entry.1.id).isSome

theorem runSection_keepsZones (hickory : Hickory) (calls : Calls) (entry : Section × Time) :
    KeepsZones calls.store (runSection hickory calls entry).store := by
  unfold runSection
  cases hcommit : committed hickory calls entry.2 entry.1 with
  | none => exact fun _ h => h
  | some result =>
    rcases result with ⟨zoneId, after⟩
    rcases committed_cases hcommit with hbumped | ⟨_, zone, _, update, _, _, _, htx⟩
    · exact hbumped.keeps
    · exact (applyDynamicUpdatesTx_serial htx).1

theorem runSection_pendingKnown (hickory : Hickory) (calls : Calls) (entry : Section × Time)
    (h : PendingKnown calls) : PendingKnown (runSection hickory calls entry) := by
  intro pending hpending
  apply runSection_keepsZones
  unfold runSection stillPending at hpending
  split at hpending
  next call _ =>
    split at hpending
    next zone hzone =>
      rcases List.mem_append.mp hpending with hpending | hpending
      · exact h pending hpending
      · rw [List.mem_singleton.mp hpending]
        have hid := ((getZone_eq_some_iff calls.store call.zoneId zone).mp hzone).2
        change (calls.store.getZone zone.id).isSome
        rw [hid, hzone]
        rfl
    next => exact h pending hpending
  next => exact h pending (List.mem_of_mem_eraseIdx hpending)
  next => exact h pending hpending

theorem movesForward_iff {hickory : Hickory} {calls : Calls} {entry : Section × Time}
    (hknown : PendingKnown calls) :
    MovesForward hickory calls entry ↔ WritesNewer hickory calls entry := by
  have hwritten : ∀ (zone current : Zone) (update : DynamicUpdate),
      serialNewer (writtenSerial zone update) current.serial = true ↔
        match update.soa with
        | some soa => serialNewer soa.serial current.serial = true
        | none => StillNext zone.serial current.serial := by
    intro zone current update
    unfold writtenSerial
    cases update.soa with
    | some soa => rfl
    | none => exact serialNewer_nextSerial_iff zone.serial current.serial
  constructor
  · intro h index zone target update current hpart hentry hcurrent htx
    rcases htx with ⟨after, htx⟩
    have hcommit : committed hickory calls entry.2 entry.1 = some (zone.id, after) := by
      rw [hpart]
      simp [committed, hentry, ZoneCall.transact, htx]
    rcases h zone.id after hcommit with ⟨old, new, hold, hnew, hnewer⟩
    rcases (applyDynamicUpdatesTx_serial htx).2 old hold with ⟨row, hrow, hserial⟩
    rw [hcurrent] at hold
    rw [hnew] at hrow
    cases hold
    cases hrow
    rw [hserial] at hnewer
    exact (hwritten zone current update).mp hnewer
  · intro h zoneId after hcommit
    rcases committed_cases hcommit with hbumped | ⟨index, zone, target, update, hpart, hentry, rfl, htx⟩
    · exact hbumped.forward
    · have hsome := hknown _ (List.mem_of_getElem? hentry)
      rcases Option.isSome_iff_exists.mp hsome with ⟨current, hcurrent⟩
      rcases (applyDynamicUpdatesTx_serial htx).2 current hcurrent with ⟨new, hnew, hserial⟩
      refine ⟨current, new, hcurrent, hnew, ?_⟩
      rw [hserial, hwritten]
      exact h index zone target update current hpart hentry hcurrent ⟨after, htx⟩

/-- Whatever the order of the sections, every committed change leaves a newer
serial exactly when every dynamic update that commits writes a newer one. -/
theorem serials_forward_iff (hickory : Hickory) (store : ZoneStore)
    (sections : List (Section × Time)) :
    Each (runSection hickory) (MovesForward hickory) ⟨store, []⟩ sections ↔
      Each (runSection hickory) (WritesNewer hickory) ⟨store, []⟩ sections := by
  apply each_congr PendingKnown
  · exact fun calls entry => runSection_pendingKnown hickory calls entry
  · exact fun calls entry hknown => movesForward_iff hknown
  · intro entry hentry
    simp at hentry

/-- A dynamic update reads the zone, a record is added, the update commits. -/
def addBetween : List (Section × Time) :=
  [(.read (.applyDynamicUpdates 0 { adds := [{ name := "a", rtype := "A", content := "192.0.2.1" }] }), 1),
    (.read (.upsertRecord 0 { name := "b", rtype := "A", content := "192.0.2.2" }), 2),
    (.transact 1, 3), (.transact 0, 4)]

/-- The calls when the update is about to commit. -/
def addedBetween : Calls :=
  run (runSection .acceptAll) ⟨.exampleCom, []⟩ (addBetween.take 3)

/-- Both leave the zone with the serial 2. -/
theorem serials_forward_fails :
    ¬ Each (runSection .acceptAll) (MovesForward .acceptAll) ⟨.exampleCom, []⟩ addBetween := by
  intro h
  have hlast : MovesForward .acceptAll addedBetween (.transact 0, 4) := h.2.2.2.1
  have hbefore : (addedBetween.store.getZone 0).map Zone.serial = some 2 := by decide
  have hcommit : (committed .acceptAll addedBetween 4 (.transact 0)).map
      (fun result => (result.1, (result.2.getZone 0).map Zone.serial)) = some (0, some 2) := by
    decide
  rcases Option.map_eq_some_iff.mp hcommit with ⟨⟨zoneId, after⟩, hafter, hresult⟩
  rcases Prod.mk.inj hresult with ⟨rfl, hserial⟩
  rcases hlast 0 after hafter with ⟨old, new, hold, hnew, hnewer⟩
  rw [hnew, Option.map_some] at hserial
  rw [hold, Option.map_some] at hbefore
  rw [Option.some.inj hserial, Option.some.inj hbefore] at hnewer
  exact absurd hnewer (by decide)

end DaygleDns.Authoritative
