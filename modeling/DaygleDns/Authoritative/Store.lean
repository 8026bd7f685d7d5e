import DaygleDns.Authoritative.Names
import DaygleDns.Fallible
import DaygleDns.Table
import Mathlib.Data.List.Sort

/-! The zone store. A transaction takes the database to its next state or
fails and leaves it alone; `now` is the clock reading of the operation. -/
namespace DaygleDns.Authoritative

open Text

/-- RFC 1982: `master` is ahead of `local` by less than half the number space. -/
def serialNewer (master localSerial : UInt32) : Bool :=
  master != localSerial && decide (0 < (master - localSerial).toInt32)

/-- The two readers of Hickory that decide which record content is accepted,
with the message of the error they report. -/
structure Hickory where
  parseRecordType : Text → Except Text Unit
  tryFromStr : Text → Text → Except Text Unit

/-- Readers that accept every content. -/
def Hickory.acceptAll : Hickory := ⟨fun _ => .ok (), fun _ _ => .ok ()⟩

structure ZoneStore where
  zones : Table Zone Zone.id
  records : Table Record Record.id
  dnssecKeys : Table SigningKeyRecord SigningKeyRecord.id
  zoneAliases : List ZoneAlias
  secondaryZones : List SecondaryZone
  zoneTransfers : List (Uuid × List UInt8)

namespace ZoneStore

def empty : ZoneStore := ⟨.empty, .empty, .empty, [], [], []⟩

def getZone (store : ZoneStore) (id : Uuid) : Option Zone := store.zones.find? id

def findZoneByName (store : ZoneStore) (name : Text) : Option Zone :=
  store.zones.rows.find? fun zone => zone.name == normalizeFqdn name

/-- `ORDER BY name, rtype`, with SQLite's comparison of texts. -/
def recordBefore (a b : Record) : Prop :=
  a.name < b.name ∨ (a.name = b.name ∧ a.rtype ≤ b.rtype)

instance (a b : Record) : Decidable (recordBefore a b) :=
  inferInstanceAs (Decidable (_ ∨ _))

def listRecords (store : ZoneStore) (zoneId : Uuid) : List Record :=
  (store.records.rows.filter fun record => record.zoneId == zoneId).insertionSort recordBefore

def getRecord (store : ZoneStore) (id : Uuid) : Option Record := store.records.find? id

/-- Whether `SELECT COUNT(*) FROM dnssec_keys` for the zone is positive. -/
def isSigned (store : ZoneStore) (zoneId : Uuid) : Bool :=
  store.dnssecKeys.rows.any fun key => key.zoneId == zoneId

def updateZone (store : ZoneStore) (zoneId : Uuid) (change : Zone → Zone)
    (hkey : ∀ zone, (change zone).id = zone.id) : ZoneStore :=
  { store with zones := store.zones.update (fun zone => zone.id == zoneId) change hkey }

end ZoneStore

def requireZone (store : ZoneStore) (zoneId : Uuid) : Except DaygleError Zone :=
  match store.getZone zoneId with
  | some zone => .ok zone
  | none => .error (.notFound ("zone " ++ ofNat zoneId))

/-- The serial after `serial`: zero is skipped at the wrap-around. -/
def nextSerial (serial : UInt32) : UInt32 := max (serial + 1) 1

def bumpSerialIn (store : ZoneStore) (zoneId : Uuid) (now : Time) :
    Except DaygleError (UInt32 × ZoneStore) := do
  let zone ← requireZone store zoneId
  let next := nextSerial zone.serial
  pure (next, store.updateZone zoneId
    (fun zone => { zone with serial := next, lastModifiedAt := now }) (fun _ => rfl))

/-- The types whose records an ALIAS stands in for, and ALIAS itself. -/
def aliasClashTypes : List Text := ["A", "AAAA", "CNAME", "ALIAS"]

def checkAlias (store : ZoneStore) (zoneId : Uuid) (name target : Text) :
    Except DaygleError Text := do
  let target := toAsciiLowercase (trimEndMatches '.' (trim target))
  (validateName target false).mapError fun _ =>
    .invalidRecord ("ALIAS target '" ++ target ++ "' is not a domain name")
  if target = name then
    throw (.invalidRecord "an ALIAS cannot point to itself")
  if store.isSigned zoneId then
    throw (.invalidRecord ("ALIAS records cannot be used in a DNSSEC-signed zone: " ++
      "their answers are made when asked and cannot be signed" : String))
  match store.records.rows.find? fun record => record.zoneId == zoneId && record.name == name &&
      decide (record.rtype ∈ aliasClashTypes) with
  | none => pure (target ++ ['.'])
  | some clash =>
      if clash.rtype = "ALIAS" then
        throw (.invalidRecord (name ++ " already has an ALIAS record"))
      else
        throw (.invalidRecord (name ++ " has " ++ clash.rtype ++
          " records: an ALIAS supplies the addresses itself, so remove them first"))

def ipPlaceholder : Text := "\x7bip\x7d"

/-- `auto_ptr::expand` for an address already written with dashes. -/
def expandTemplate (template dashed : Text) : Text :=
  replace ipPlaceholder dashed (trimEndMatches '.' template)

/-- `192.0.2.255` and `2001:db8::ffff:1`, as `auto_ptr::expand` writes them. -/
def sampleAddresses : List Text := ["192-0-2-255", "2001-db8-0-0-0-0-ffff-1"]

def checkSampleHost (template sample : Text) : Except DaygleError Unit :=
  let host := expandTemplate template sample
  (validateName host false).mapError fun _ => .invalidRecord ("the AUTOPTR template '" ++ template ++
    "' does not make a host name (" ++ host ++ ")")

def checkAutoPtr (store : ZoneStore) (zoneId : Uuid) (name template : Text) (disabled : Bool) :
    Except DaygleError Text := do
  if !(endsWith "in-addr.arpa" name || endsWith "ip6.arpa" name) then
    throw (.invalidRecord "AUTOPTR records belong in a reverse zone (in-addr.arpa or ip6.arpa)")
  let template := toAsciiLowercase (trimEndMatches '.' (trim template))
  if !contains ipPlaceholder template then
    throw (.invalidRecord ("the AUTOPTR template must contain " ++ ipPlaceholder ++
      ", e.g. ip-" ++ ipPlaceholder ++ ".home.arpa"))
  sampleAddresses.forM (checkSampleHost template)
  if store.isSigned zoneId then
    throw (.invalidRecord ("AUTOPTR records cannot be used in a DNSSEC-signed zone: " ++
      "their answers are made when asked and cannot be signed" : String))
  if !disabled && store.records.rows.any fun record => record.zoneId == zoneId &&
      record.name == name && record.rtype == ("AUTOPTR" : Text) && !record.disabled then
    throw (.invalidRecord (name ++ " already has an AUTOPTR record"))
  pure (template ++ ['.'])

/-- Content of an ordinary type: it has to parse, and an enabled address or
CNAME record may not stand beside an enabled ALIAS. -/
def checkRData (hickory : Hickory) (store : ZoneStore) (zoneId : Uuid)
    (name rtype content : Text) (disabled : Bool) : Except DaygleError Text := do
  (hickory.parseRecordType rtype).mapError fun e =>
    .invalidRecord ("record type '" ++ rtype ++ "': " ++ e)
  (hickory.tryFromStr rtype content).mapError fun e =>
    .invalidRecord ("invalid " ++ rtype ++ " record '" ++ content ++ "': " ++ e)
  if decide (rtype ∈ (["A", "AAAA", "CNAME"] : List Text)) && !disabled &&
      store.records.rows.any fun record => record.zoneId == zoneId && record.name == name &&
        record.rtype == ("ALIAS" : Text) && !record.disabled then
    throw (.invalidRecord (name ++
      " has an ALIAS record, which supplies its addresses: remove it to add " ++ rtype ++ " records"))
  pure content

def checkContent (hickory : Hickory) (store : ZoneStore) (zoneId : Uuid)
    (name rtype content : Text) (disabled : Bool) : Except DaygleError Text :=
  if rtype = "ALIAS" then checkAlias store zoneId name content
  else if rtype = "AUTOPTR" then checkAutoPtr store zoneId name content disabled
  else checkRData hickory store zoneId name rtype content disabled

def insertRecordInTx (hickory : Hickory) (store : ZoneStore) (zoneId : Uuid) (zoneName : Text)
    (input : RecordInput) (now : Time) : Except DaygleError (Record × ZoneStore) := do
  let rtype := toAsciiUppercase input.rtype
  if rtype ∉ knownRecordTypes then
    throw (.invalidRecord ("unsupported record type '" ++ input.rtype ++ "'"))
  let name := qualifyName input.name zoneName
  validateOwnerName name
  let content ← checkContent hickory store zoneId name rtype (trim input.content) input.disabled
  let record : Uuid → Record := fun id =>
    { id, zoneId, name, rtype, content, ttl := input.ttl, priority := input.priority,
      disabled := input.disabled, lastModifiedAt := now, lastUsedAt := none }
  pure (record store.records.next, { store with
    records := store.records.insert record (fun _ => rfl) })

/-- The loop of a transaction over the records it inserts. -/
def insertRecords (hickory : Hickory) (zoneId : Uuid) (zoneName : Text) (now : Time)
    (store : ZoneStore) (inputs : List RecordInput) : Except DaygleError ZoneStore :=
  inputs.foldlM (fun store input => do
    let (_, store) ← insertRecordInTx hickory store zoneId zoneName input now
    pure store) store

/-- Create a zone with a default NS record for the host of its primary. -/
def createZone (hickory : Hickory) (store : ZoneStore) (input : ZoneInput) (now : Time) :
    Except DaygleError (Zone × ZoneStore) := do
  let name := normalizeFqdn input.name
  validateName name false
  let zone : Uuid → Zone := fun id =>
    { id, name
      primaryNs := input.primaryNs.getD ("ns1." ++ name ++ ".")
      adminMailbox := input.adminMailbox.getD ("admin." ++ name ++ ".")
      serial := input.serial.getD 1
      enabled := true
      refresh := input.refresh.getD 3600
      retry := input.retry.getD 600
      expire := input.expire.getD 86400
      minimum := input.minimum.getD 3600
      createdAt := now
      lastModifiedAt := now }
  let target := store.zoneAliases.findSome? fun entry =>
    if entry.name == name then store.getZone entry.zoneId else none
  if let some target := target then
    throw (.alreadyExists (name ++ " is an alias of the zone " ++ target.name ++
      ": remove the alias first"))
  if store.zones.rows.any fun zone => zone.name == name then
    throw (.alreadyExists "zone already exists")
  let created := zone store.zones.next
  let store := { store with zones := store.zones.insert zone (fun _ => rfl) }
  let nsRecord : RecordInput :=
    { name := "@"
      rtype := "NS"
      content := trimEndMatches '.' created.primaryNs ++ ['.']
      ttl := max created.minimum 3600 }
  let (_, store) ← insertRecordInTx hickory store created.id name nsRecord now
  pure (created, store)

def Zone.exampleCom : Zone where
  id := 0
  name := "example.com"
  primaryNs := "ns1.example.com."
  adminMailbox := "admin.example.com."
  serial := 1
  enabled := true
  refresh := 3600
  retry := 600
  expire := 86400
  minimum := 3600
  createdAt := 0
  lastModifiedAt := 0

/-- The store with that zone as it is created. -/
def ZoneStore.exampleCom : ZoneStore :=
  match createZone .acceptAll .empty { name := "example.com" } 0 with
  | .ok (_, store) => store
  | .error _ => .empty

def bumpSerial (store : ZoneStore) (zoneId : Uuid) (now : Time) :
    Except DaygleError (UInt32 × ZoneStore) :=
  bumpSerialIn store zoneId now

def SoaUpdate.writeTo (soa : SoaUpdate) (now : Time) (zone : Zone) : Zone :=
  { zone with
    primaryNs := soa.primaryNs
    adminMailbox := soa.adminMailbox
    serial := soa.serial
    refresh := soa.refresh
    retry := soa.retry
    expire := soa.expire
    minimum := soa.minimum
    lastModifiedAt := now }

theorem SoaUpdate.writeTo_id (soa : SoaUpdate) (now : Time) (zone : Zone) :
    (soa.writeTo now zone).id = zone.id := rfl

def setZoneSoa (store : ZoneStore) (zoneId : Uuid) (soa : SoaUpdate) (now : Time) :
    Except DaygleError ZoneStore := do
  let _ ← requireZone store zoneId
  pure (store.updateZone zoneId (soa.writeTo now) (soa.writeTo_id now))

/-- The transaction of `upsert_record`, on the zone read before it. -/
def upsertRecordTx (hickory : Hickory) (store : ZoneStore) (zone : Zone) (input : RecordInput)
    (now : Time) : Except DaygleError (Record × ZoneStore) := do
  let (record, store) ← insertRecordInTx hickory store zone.id zone.name input now
  let (_, store) ← bumpSerialIn store zone.id now
  pure (record, store)

def upsertRecord (hickory : Hickory) (store : ZoneStore) (zoneId : Uuid) (input : RecordInput)
    (now : Time) : Except DaygleError (Record × ZoneStore) := do
  let zone ← requireZone store zoneId
  upsertRecordTx hickory store zone input now

def setRecordDisabled (store : ZoneStore) (id : Uuid) (disabled : Bool) (now : Time) :
    Except DaygleError (Bool × ZoneStore) :=
  match store.getRecord id with
  | none => .ok (false, store)
  | some record =>
      if record.disabled = disabled then .ok (true, store)
      else do
        let store := { store with
          records := store.records.update (fun record => record.id == id)
            (fun record => { record with disabled, lastModifiedAt := now }) (fun _ => rfl) }
        let (_, store) ← bumpSerialIn store record.zoneId now
        pure (true, store)

def deleteRecord (store : ZoneStore) (id : Uuid) (now : Time) :
    Except DaygleError (Bool × ZoneStore) :=
  match store.getRecord id with
  | none => .ok (false, store)
  | some record => do
      let store := { store with records := store.records.delete fun record => record.id == id }
      let (_, store) ← bumpSerialIn store record.zoneId now
      pure (true, store)

/-- The transaction of `replace_record`, on the zone read before it. The new row
takes over the identifier, the disabled state and the last use of the old one. -/
def replaceRecordTx (hickory : Hickory) (store : ZoneStore) (zone : Zone) (recordId : Uuid)
    (input : RecordInput) (now : Time) : Except DaygleError (Option Record × ZoneStore) :=
  match (store.getRecord recordId).filter fun record => record.zoneId == zone.id with
  | none => .ok (none, store)
  | some prior => do
      let store := { store with
        records := store.records.delete fun record => record.id == recordId }
      let input := { input with disabled := prior.disabled }
      let (inserted, store) ← insertRecordInTx hickory store zone.id zone.name input now
      let keepIdentity := fun row : Record =>
        { row with id := recordId, lastModifiedAt := now, lastUsedAt := prior.lastUsedAt }
      let some records := store.records.rekey inserted.id recordId keepIdentity (fun _ => rfl)
        | throw (.database "UNIQUE constraint failed: records.id")
      let (_, store) ← bumpSerialIn { store with records } zone.id now
      pure (some (keepIdentity inserted), store)

def replaceRecord (hickory : Hickory) (store : ZoneStore) (zoneId recordId : Uuid)
    (input : RecordInput) (now : Time) : Except DaygleError (Option Record × ZoneStore) := do
  let zone ← requireZone store zoneId
  replaceRecordTx hickory store zone recordId input now

/-- The `WHERE` clause of a dynamic update's `DELETE`. -/
def DeleteSpec.hits (zoneId : Uuid) (del : DeleteSpec) (record : Record) : Bool :=
  record.zoneId == zoneId && record.name == normalizeFqdn del.name &&
    del.rtype.all (fun rtype => record.rtype == toAsciiUppercase rtype) &&
    del.content.all (fun content => record.content == content)

def deleteMatching (store : ZoneStore) (zoneId : Uuid) (del : DeleteSpec) : ZoneStore :=
  { store with records := store.records.delete (del.hits zoneId) }

/-- The transaction of `apply_dynamic_updates`, on the zone read before it. -/
def applyDynamicUpdatesTx (hickory : Hickory) (store : ZoneStore) (zone : Zone)
    (update : DynamicUpdate) (now : Time) : Except DaygleError ZoneStore := do
  let store := update.deletes.foldl (fun store del => deleteMatching store zone.id del) store
  let store ← insertRecords hickory zone.id zone.name now store update.adds
  match update.soa with
  | some soa => setZoneSoa store zone.id soa now
  | none => pure (store.updateZone zone.id
      (fun row => { row with serial := nextSerial zone.serial, lastModifiedAt := now })
      (fun _ => rfl))

def applyDynamicUpdates (hickory : Hickory) (store : ZoneStore) (zoneId : Uuid)
    (update : DynamicUpdate) (now : Time) : Except DaygleError ZoneStore := do
  let zone ← requireZone store zoneId
  applyDynamicUpdatesTx hickory store zone update now

def replaceRecords (hickory : Hickory) (store : ZoneStore) (zoneId : Uuid)
    (records : List RecordInput) (now : Time) : Except DaygleError ZoneStore := do
  let zone ← requireZone store zoneId
  let store := { store with records := store.records.delete fun record => record.zoneId == zoneId }
  let store ← insertRecords hickory zoneId zone.name now store records
  pure (store.updateZone zoneId (fun zone => { zone with lastModifiedAt := now }) (fun _ => rfl))

def setTransferData (store : ZoneStore) (zoneId : Uuid) (records : List UInt8) : ZoneStore :=
  { store with
    zoneTransfers := (zoneId, records) :: store.zoneTransfers.filter fun row => row.1 != zoneId }

def transferData (store : ZoneStore) (zoneId : Uuid) : Option (List UInt8) :=
  (store.zoneTransfers.find? fun row => row.1 == zoneId).map Prod.snd

def touchSecondary (store : ZoneStore) (zoneId : Uuid) (now : Time) : ZoneStore :=
  { store with
    secondaryZones := store.secondaryZones.map fun row =>
      if row.zoneId == zoneId then { row with lastTransfer := some now } else row }

/-- The rows of other tables that refer to the zone go with it. -/
def deleteZone (store : ZoneStore) (zoneId : Uuid) : ZoneStore where
  zones := store.zones.delete fun zone => zone.id == zoneId
  records := store.records.delete fun record => record.zoneId == zoneId
  dnssecKeys := store.dnssecKeys.delete fun key => key.zoneId == zoneId
  zoneAliases := store.zoneAliases.filter fun row => row.zoneId != zoneId
  secondaryZones := store.secondaryZones.filter fun row => row.zoneId != zoneId
  zoneTransfers := store.zoneTransfers.filter fun row => row.1 != zoneId

/-! Calls into the database may fail by themselves, whatever the data. -/

inductive StoreCall where
  | getZone
  | findZoneByName
  | createZone
  | setSecondary
  | listSecondary
  | listRecords
  | applyDynamicUpdates
  | setZoneSoa
  | replaceRecords
  | transferData
  | setTransferData
  | touchSecondary
  | catalogMembers
  | addCatalogMember
  | listZones
  | deleteZone
  | reload
deriving DecidableEq, Repr

abbrev Faults := StoreCall → Option DaygleError

def Faults.call {α : Type} (faults : Faults) (call : StoreCall) (result : Except DaygleError α) :
    Except DaygleError α :=
  match faults call with
  | some e => .error e
  | none => result

end DaygleDns.Authoritative
