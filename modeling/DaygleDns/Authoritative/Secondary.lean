import DaygleDns.Authoritative.Transfer
import DaygleDns.Persist

/-! Refreshing a secondary zone from its masters. The serial, the records, the
wire copy and the time of a transfer are written by calls that each commit by
themselves. -/
namespace DaygleDns.Authoritative

open Text Persist Framing

abbrev Refresh (α : Type) := Persist ZoneStore DaygleError α

/-- What a refresh works with: the client, the masters by the text they are
configured with, the failures of the store by themselves, and the clock. -/
structure Refresher where
  hickory : Hickory
  client : XfrClient
  masters : Text → Except Text Master
  tsigKeys : Text → Option TsigKey
  faults : Faults
  now : Time

structure SecondaryZoneConfig where
  name : Text
  masters : List Text
  refreshSecs : Nat
  enabled : Bool
  tsigKey : Text
deriving DecidableEq

/-- The types `RecordType::is_dnssec` names. -/
def dnssecTypes : List Text :=
  ["CDNSKEY", "CDS", "DNSKEY", "DS", "KEY", "NSEC", "NSEC3", "NSEC3PARAM", "RRSIG", "SIG"]

/-- The types that are served from the transfer only. -/
def notStored (rtype : Text) : Bool :=
  (decide (rtype ∈ dnssecTypes) && rtype != ("DS" : Text)) || rtype == ("OPT" : Text)

/-- Negative times count as zero. -/
def nonNegative (n : Int32) : UInt32 := if n < 0 then 0 else n.toUInt32

def soaFields (soa : SoaData) : SoaUpdate where
  primaryNs := soa.mname
  adminMailbox := soa.rname
  serial := soa.serial
  refresh := nonNegative soa.refresh
  retry := nonNegative soa.retry
  expire := nonNegative soa.expire
  minimum := soa.minimum

/-- The input a transferred record is stored from, where it is stored. -/
def recordToInput (record : MessageRecord) : Option RecordInput :=
  let rtype := record.recordType.text
  if isSoa record || notStored rtype || decide (rtype ∉ knownRecordTypes) then none
  else some
    { name := trimEndMatches '.' record.name
      rtype := rtype
      content := record.data.text
      ttl := record.ttl }

/-- The last SOA that carries data. -/
def lastSoa (records : List MessageRecord) : Option SoaUpdate :=
  records.foldl (fun soa record =>
    match record.data with
    | .soa data _ => some (soaFields data)
    | _ => soa) none

def recordsToInputs (records : List MessageRecord) : Option SoaUpdate × List RecordInput :=
  (lastSoa records, records.filterMap recordToInput)

def encodeRecord (codec : MessageCodec) (record : MessageRecord) :
    Except DaygleError (List UInt8) := do
  let bytes ← (codec.recordToBytes record).mapError fun e =>
    .internal ("encode transferred record: " ++ e)
  pure (toBeBytes 4 bytes.length ++ bytes)

def encodeTransfer (codec : MessageCodec) (records : List MessageRecord) :
    Except DaygleError (List UInt8) := do
  let encoded ← records.mapM (encodeRecord codec)
  pure encoded.flatten

/-- A transfer opens and closes with the SOA. -/
def transferComplete (records : List MessageRecord) : Bool :=
  decide (2 ≤ records.length) && records.head?.any isSoa && records.getLast?.any isSoa

structure ReceivedTransfer where
  records : List MessageRecord
  wire : List UInt8
deriving DecidableEq

/-- The first part of `transfer_from`, before anything is stored. -/
def receiveTransfer (client : XfrClient) (master : Master) (zoneName : Text)
    (currentSerial : Option UInt32) : Except DaygleError (Option ReceivedTransfer) := do
  let some records ← (match currentSerial with
    | some serial => ixfrOrAxfr client master zoneName serial
    | none => (axfrSigned client master zoneName).map some) | pure none
  if !transferComplete records then
    throw (.proto ("incomplete transfer of " ++ zoneName ++ " from " ++ master.address))
  let wire ← encodeTransfer client.codec records.dropLast
  pure (some ⟨records, wire⟩)

/-- The SOA of the transfer, or the master's serial where it has none. -/
def storeSoa (refresher : Refresher) (masterSerial : UInt32) (zoneId : Uuid)
    (soa : Option SoaUpdate) : Refresh Unit :=
  match soa with
  | some soa => transact (refresher.faults .setZoneSoa) fun store =>
      setZoneSoa store zoneId soa refresher.now
  | none => do
      guarded (refresher.faults .getZone)
      let zone ← read fun store => requireZone store zoneId
      let zone ← result zone
      transact (refresher.faults .setZoneSoa) fun store => setZoneSoa store zoneId
        ⟨zone.primaryNs, zone.adminMailbox, masterSerial, zone.refresh, zone.retry, zone.expire,
          zone.minimum⟩ refresher.now

/-- The records, the wire copy and the time, and then the catalog. -/
def storeContents (refresher : Refresher) (zoneId : Uuid) (inputs : List RecordInput)
    (wire : List UInt8) : Refresh Unit := do
  transact (refresher.faults .replaceRecords) fun store =>
    replaceRecords refresher.hickory store zoneId inputs refresher.now
  transact (refresher.faults .setTransferData) fun store =>
    .ok (setTransferData store zoneId wire)
  transact (refresher.faults .touchSecondary) fun store =>
    .ok (touchSecondary store zoneId refresher.now)
  guarded (refresher.faults .reload)

/-- The second part of `transfer_from`: one call to the store after the other. -/
def storeTransfer (refresher : Refresher) (masterSerial : UInt32) (zoneId : Uuid)
    (received : ReceivedTransfer) : Refresh Unit := do
  let (soa, inputs) := recordsToInputs received.records
  storeSoa refresher masterSerial zoneId soa
  storeContents refresher zoneId inputs received.wire

def transferFrom (refresher : Refresher) (client : XfrClient) (master : Master) (zoneName : Text)
    (masterSerial : UInt32) (currentSerial : Option UInt32) (zoneId : Uuid) : Refresh Bool := do
  let some received ← result (receiveTransfer client master zoneName currentSerial) | pure false
  storeTransfer refresher masterSerial zoneId received
  pure true

def hasTransferred (store : ZoneStore) (zoneId : Uuid) : Bool :=
  store.secondaryZones.any fun row => row.zoneId == zoneId && row.lastTransfer.isSome

/-- Whether the zone is pulled in full, whatever its serial. -/
def needsFull (refresher : Refresher) (zoneId : Uuid) : Refresh Bool := do
  guarded (refresher.faults .listSecondary)
  if !(← read fun store => hasTransferred store zoneId) then pure true
  else do
    guarded (refresher.faults .listRecords)
    if ← read fun store => (store.listRecords zoneId).isEmpty then pure true
    else do
      guarded (refresher.faults .transferData)
      read fun store => (transferData store zoneId).isNone

def setSecondary (store : ZoneStore) (zoneId : Uuid) (masters : List Text) (refreshSecs : Nat) :
    ZoneStore :=
  if store.secondaryZones.any fun row => row.zoneId == zoneId then
    { store with secondaryZones := store.secondaryZones.map fun row =>
        if row.zoneId == zoneId then { row with masters, refreshSecs } else row }
  else { store with secondaryZones := store.secondaryZones ++ [⟨zoneId, masters, refreshSecs, none⟩] }

/-- The zone's row, created where it is not there, and marked as secondary. -/
def ensureZone (refresher : Refresher) (config : SecondaryZoneConfig) : Refresh Zone := do
  guarded (refresher.faults .findZoneByName)
  let found ← read fun store => store.findZoneByName config.name
  let zone ← match found with
    | some zone => pure zone
    | none => do
        guarded (refresher.faults .createZone)
        let outcome ← read fun store =>
          createZone refresher.hickory store { name := config.name } refresher.now
        let (zone, after) ← result outcome
        write fun _ => after
        pure zone
  transact (refresher.faults .setSecondary) fun store =>
    .ok (setSecondary store zone.id config.masters config.refreshSecs)
  pure zone

def refreshKey (refresher : Refresher) (config : SecondaryZoneConfig) :
    Except DaygleError (Option TsigKey) :=
  match trim config.tsigKey with
  | [] => .ok none
  | name => match refresher.tsigKeys name with
    | some key => .ok (some key)
    | none => .error (.config ("secondary zone '" ++ config.name ++ "' names TSIG key '" ++ name ++
        "', which is not configured"))

/-- The masters in order, until one answers with an SOA. -/
def refreshFrom (refresher : Refresher) (client : XfrClient) (config : SecondaryZoneConfig)
    (zone : Zone) (zoneName : Text) : Option DaygleError → List Text → Refresh Bool
  | lastError, [] => result (.error (lastError.getD (.proto
      ("no reachable master for secondary zone '" ++ config.name ++ "'"))))
  | lastError, master :: masters => do
      let addr ← result ((refresher.masters master).mapError fun e => .config
        ("bad master '" ++ master ++ "': " ++ e))
      match querySoa client addr zoneName with
      | .ok (some soa) => do
          let masterSerial := soa.soaSerial.getD 0
          let full ← needsFull refresher zone.id
          if !full && !serialNewer masterSerial zone.serial then
            pure false
          else
            let currentSerial := if full then none else some zone.serial
            transferFrom refresher client addr zoneName masterSerial currentSerial zone.id
      | .ok none => refreshFrom refresher client config zone zoneName lastError masters
      | .error e => refreshFrom refresher client config zone zoneName (some e) masters

/-- `fqdn` of a configured name. -/
def fqdn (name : Text) : Text := trimEndMatches '.' (trim name) ++ ['.']

def refreshZone (refresher : Refresher) (config : SecondaryZoneConfig) : Refresh Bool := do
  let zone ← ensureZone refresher config
  let tsig ← result (refreshKey refresher config)
  refreshFrom refresher { refresher.client with tsig } config zone (fqdn config.name) none
    config.masters

end DaygleDns.Authoritative
