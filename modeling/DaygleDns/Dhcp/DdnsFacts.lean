import DaygleDns.Authoritative.Alias
import DaygleDns.Dhcp.Ddns

/-! What registering and unregistering a lease does to the records of the store. -/
namespace DaygleDns.Dhcp

open Text Authoritative Fallible

variable {hickory : Hickory} {faults : DdnsFaults} {stamp : Time} {store after : ZoneStore}

theorem attempt_eq_ok {α : Type} {call : DdnsCall} {result : Except DaygleError α} {a : α} :
    attempt faults call result = .ok a ↔ faults call = none ∧ result = .ok a := by
  unfold attempt
  cases faults call with
  | some e => simp
  | none => cases result <;> simp [Except.mapError]

/-- No zone goes. -/
def ZonesStay (before after : ZoneStore) : Prop :=
  ∀ id, (before.getZone id).isSome → (after.getZone id).isSome

theorem ZonesStay.refl (store : ZoneStore) : ZonesStay store store := fun _ h => h

theorem ZonesStay.trans {first second third : ZoneStore} (h : ZonesStay first second)
    (h' : ZonesStay second third) : ZonesStay first third :=
  fun id hid => h' id (h id hid)

theorem bumpSerialIn_zonesStay {zoneId : Uuid} {next : UInt32}
    (h : bumpSerialIn store zoneId stamp = .ok (next, after)) : ZonesStay store after := by
  obtain ⟨_, _, _, rfl⟩ := bumpSerialIn_eq_ok h
  intro id hid
  rw [getZone_updateZone, Option.isSome_map]
  exact hid

theorem deleteRecord_facts {id : Uuid} {found : Bool} (h : deleteRecord store id stamp = .ok (found, after)) :
    after.records.rows = store.records.rows.filter (fun r => r.id ≠ id) ∧ ZonesStay store after := by
  unfold deleteRecord at h
  split at h
  next hnone =>
    cases h
    refine ⟨(List.filter_eq_self.mpr fun r hr => ?_).symm, .refl store⟩
    have hother := List.find?_eq_none.mp hnone r hr
    simpa using hother
  next =>
    simp only [pure_eq, bind_eq_ok] at h
    obtain ⟨⟨_, _⟩, hbump, hafter⟩ := h
    cases hafter
    refine ⟨?_, fun zoneId hzone => bumpSerialIn_zonesStay hbump zoneId hzone⟩
    rw [bumpSerialIn_records hbump]
    refine List.filter_congr fun r _ => ?_
    by_cases hr : r.id = id <;> simp [hr]

theorem deleteRecord_succeeds {id : Uuid}
    (h : ∀ r ∈ store.records.rows, r.id = id → (store.getZone r.zoneId).isSome) :
    ∃ found after, deleteRecord store id stamp = .ok (found, after) := by
  unfold deleteRecord
  cases hfind : store.getRecord id with
  | none => exact ⟨false, store, rfl⟩
  | some r =>
    obtain ⟨hmem, hid⟩ := (store.records.find?_eq_some_iff id r).mp hfind
    obtain ⟨zone, hzone⟩ := Option.isSome_iff_exists.mp (h r hmem hid)
    simp only [bumpSerialIn]
    have hrequire : requireZone { store with records := store.records.delete fun record => record.id == id }
        r.zoneId = .ok zone := requireZone_eq_ok.mpr hzone
    rw [hrequire]
    exact ⟨_, _, rfl⟩

theorem upsertRecord_facts {zoneId : Uuid} {input : RecordInput} {record : Record}
    (h : upsertRecord hickory store zoneId input stamp = .ok (record, after)) :
    after.records.rows = store.records.rows ++ [record] ∧ record.zoneId = zoneId ∧
      (store.getZone zoneId).isSome ∧ ZonesStay store after := by
  unfold upsertRecord upsertRecordTx at h
  obtain ⟨zone, hzone, h⟩ := bind_eq_ok.mp h
  have hid := requireZone_id hzone
  simp only [pure_eq, bind_eq_ok] at h
  obtain ⟨⟨inserted, middle⟩, hinsert, ⟨_, _⟩, hbump, hafter⟩ := h
  cases hafter
  have hsame := insertRecordInTx_same hinsert
  obtain ⟨_, hrow, hmiddle⟩ := insertRecordInTx_eq_ok.mp hinsert
  refine ⟨?_, ?_, by rw [requireZone_eq_ok.mp hzone]; rfl, fun id hzoneId => ?_⟩
  · rw [bumpSerialIn_records hbump, hmiddle, hrow]
    rfl
  · rw [hrow, ← hid]
    rfl
  · apply bumpSerialIn_zonesStay hbump
    rw [hsame.getZone]
    exact hzoneId

/-- The records from `base` on are in zones that exist. -/
def Housed (base : Uuid) (store : ZoneStore) : Prop :=
  ∀ r ∈ store.records.rows, base ≤ r.id → (store.getZone r.zoneId).isSome

/-- Records may have gone, zones not. -/
structure Shrunk (before after : ZoneStore) : Prop where
  rows : ∀ r ∈ after.records.rows, r ∈ before.records.rows
  zones : ZonesStay before after

theorem Shrunk.refl (store : ZoneStore) : Shrunk store store := ⟨fun _ h => h, .refl store⟩

theorem Shrunk.trans {first second third : ZoneStore} (h : Shrunk first second) (h' : Shrunk second third) :
    Shrunk first third :=
  ⟨fun r hr => h.rows r (h'.rows r hr), h.zones.trans h'.zones⟩

theorem Shrunk.housed {base : Uuid} (h : Shrunk store after) (hhoused : Housed base store) :
    Housed base after :=
  fun r hr hbase => h.zones _ (hhoused r (h.rows r hr) hbase)

theorem dropRecord_shrunk (faults : DdnsFaults) (stamp : Time) (store : ZoneStore) (id : Uuid) :
    Shrunk store (dropRecord faults stamp store id) := by
  unfold dropRecord
  split
  next found after hdelete =>
    obtain ⟨hrows, hzones⟩ := deleteRecord_facts (attempt_eq_ok.mp hdelete).2
    refine ⟨fun r hr => ?_, hzones⟩
    rw [hrows] at hr
    exact List.mem_of_mem_filter hr
  next => exact .refl store

theorem dropRecord_gone {base id : Uuid} (hfault : faults (.deleteRecord id) = none) (hbase : base ≤ id)
    (hhoused : Housed base store) : ∀ r ∈ (dropRecord faults stamp store id).records.rows, r.id ≠ id := by
  obtain ⟨found, after, hdelete⟩ : ∃ found after, deleteRecord store id stamp = .ok (found, after) :=
    deleteRecord_succeeds fun r hr hid => hhoused r hr (hid ▸ hbase)
  unfold dropRecord
  rw [attempt_eq_ok.mpr ⟨hfault, hdelete⟩]
  intro r hr
  rw [(deleteRecord_facts hdelete).1] at hr
  simpa using (List.mem_filter.mp hr).2

theorem foldl_dropRecord (base : Uuid) (ids : List Uuid) {store : ZoneStore} (hhoused : Housed base store)
    (hfaults : ∀ id ∈ ids, faults (.deleteRecord id) = none) :
    Shrunk store (ids.foldl (dropRecord faults stamp) store) ∧
      ∀ r ∈ (ids.foldl (dropRecord faults stamp) store).records.rows, base ≤ r.id → r.id ∉ ids := by
  induction ids generalizing store with
  | nil => exact ⟨.refl store, fun _ _ _ => List.not_mem_nil⟩
  | cons id ids ih =>
    have hfirst := dropRecord_shrunk faults stamp store id
    obtain ⟨hshrunk, hgone⟩ := ih (hfirst.housed hhoused) fun other hother => hfaults other (List.mem_cons_of_mem _ hother)
    refine ⟨hfirst.trans hshrunk, fun r hr hbase hmem => ?_⟩
    rcases List.mem_cons.mp hmem with hid | hmem
    · have hfault := hfaults id List.mem_cons_self
      exact dropRecord_gone hfault (hid ▸ hbase) hhoused r (hshrunk.rows r hr) hid
    · exact hgone r hr hbase hmem

/-- Records may have come, under the identifiers that are listed. -/
structure Grown (before after : ZoneStore) (ids : List Uuid) : Prop where
  rows : ∀ r ∈ after.records.rows, r ∈ before.records.rows ∨ r.id ∈ ids ∧ (after.getZone r.zoneId).isSome
  zones : ZonesStay before after

theorem Grown.refl (store : ZoneStore) (ids : List Uuid) : Grown store store ids :=
  ⟨fun _ h => .inl h, .refl store⟩

theorem Grown.trans {first second third : ZoneStore} {ids : List Uuid} (h : Grown first second ids)
    (h' : Grown second third ids) : Grown first third ids := by
  refine ⟨fun r hr => ?_, h.zones.trans h'.zones⟩
  rcases h'.rows r hr with hr | hr
  · exact (h.rows r hr).imp_right fun ⟨hid, hzone⟩ => ⟨hid, h'.zones _ hzone⟩
  · exact .inr hr

theorem Grown.mono {ids more : List Uuid} (h : Grown store after ids) (hsub : ∀ id ∈ ids, id ∈ more) :
    Grown store after more :=
  ⟨fun r hr => (h.rows r hr).imp_right fun ⟨hid, hzone⟩ => ⟨hsub _ hid, hzone⟩, h.zones⟩

theorem Grown.of_upsert {zoneId : Uuid} {input : RecordInput} {record : Record}
    (h : upsertRecord hickory store zoneId input stamp = .ok (record, after)) : Grown store after [record.id] := by
  obtain ⟨hrows, hzoneId, hzone, hzones⟩ := upsertRecord_facts h
  refine ⟨fun r hr => ?_, hzones⟩
  rw [hrows] at hr
  rcases List.mem_append.mp hr with hr | hr
  · exact .inl hr
  · have hrecord : r = record := List.mem_singleton.mp hr
    subst hrecord
    exact .inr ⟨List.mem_singleton.mpr rfl, hzones _ (hzoneId ▸ hzone)⟩

theorem addAddress_grown {zone name : Text} {lease : DhcpLease} {ours : List Uuid} {id : Uuid}
    (h : addAddress hickory faults stamp store zone name lease ours = .ok (id, after)) : Grown store after [id] := by
  unfold addAddress at h
  simp only [bind_eq_ok] at h
  obtain ⟨found, _, h⟩ := h
  split at h
  · cases h
  · obtain ⟨existing, _, h⟩ := bind_eq_ok.mp h
    simp only [guard_eq_ok, bind_eq_ok, pure_eq] at h
    obtain ⟨_, _, ⟨record, grown⟩, hupsert, hresult⟩ := h
    cases hresult
    exact .of_upsert (attempt_eq_ok.mp hupsert).2

theorem addPointer_grown {name : Text} {address : IpAddr} {pointer : Option Uuid}
    (h : addPointer hickory faults stamp store name address = .ok (pointer, after)) :
    Grown store after pointer.toList := by
  unfold addPointer at h
  simp only [bind_eq_ok] at h
  obtain ⟨_, _, h⟩ := h
  split at h
  · cases h
    exact .refl store _
  · obtain ⟨records, _, h⟩ := bind_eq_ok.mp h
    split at h
    · cases h
      exact .refl store _
    · split at h
      next record grown hupsert =>
        cases h
        exact .of_upsert (attempt_eq_ok.mp hupsert).2
      next =>
        cases h
        exact .refl store _

/-- Without an error of the two later listings, the pointer is added or left out. -/
theorem addPointer_succeeds {name : Text} {address : IpAddr} (hzones : faults .listZones = none)
    (hreverse : faults .listReverse = none) : ∃ pointer after, addPointer hickory faults stamp store name address =
      .ok (pointer, after) := by
  unfold addPointer
  simp only [attempt_eq_ok.mpr ⟨hzones, rfl⟩, ok_bind]
  split
  · exact ⟨_, _, rfl⟩
  · simp only [attempt_eq_ok.mpr ⟨hreverse, rfl⟩, ok_bind]
    split
    · exact ⟨_, _, rfl⟩
    · split <;> exact ⟨_, _, rfl⟩

/-- A lease but for its name and the records registered for it. -/
structure SameLease (first second : DhcpLease) : Prop where
  address : second.address = first.address
  state : second.state = first.state

theorem register_grown (hickory : Hickory) (faults : DdnsFaults) (stamp : Time) (store : ZoneStore) (zone name : Text)
    (lease : DhcpLease) (ours : List Uuid) :
    SameLease lease (register hickory faults stamp store zone name lease ours).2.2 ∧
      Grown store (register hickory faults stamp store zone name lease ours).2.1
        (register hickory faults stamp store zone name lease ours).2.2.dnsRecords := by
  unfold register
  split
  next => exact ⟨⟨rfl, rfl⟩, .refl store _⟩
  next id middle haddress =>
    have hmiddle := addAddress_grown haddress
    simp only
    split
    next => exact ⟨⟨rfl, rfl⟩, hmiddle⟩
    next after hpointer =>
      refine ⟨⟨rfl, rfl⟩, hmiddle.trans ?_⟩
      exact (addPointer_grown hpointer).mono fun _ h => absurd h List.not_mem_nil
    next pointer after hpointer =>
      refine ⟨⟨rfl, rfl⟩, (hmiddle.mono ?_).trans ((addPointer_grown hpointer).mono ?_)⟩
      · intro other hother
        exact List.mem_cons.mpr (.inl (List.mem_singleton.mp hother))
      · intro other hother
        have hsame : other = pointer := by simpa using hother
        simp [hsame]

/-- An error leaves nothing behind where the listings after the address record do not fail. -/
theorem register_error {zone name : Text} {lease left : DhcpLease} {ours : List Uuid} {e : Text}
    (hzones : faults .listZones = none) (hreverse : faults .listReverse = none)
    (h : register hickory faults stamp store zone name lease ours = (.error e, after, left)) : after = store := by
  unfold register at h
  split at h
  next => cases h; rfl
  next id middle haddress =>
    obtain ⟨pointer, grown, hpointer⟩ : ∃ pointer grown,
        addPointer hickory faults stamp middle name lease.address = .ok (pointer, grown) :=
      addPointer_succeeds hzones hreverse
    simp only [hpointer] at h
    cases pointer <;> cases h

end DaygleDns.Dhcp
