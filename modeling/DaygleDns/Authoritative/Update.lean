import DaygleDns.Authoritative.Store

/-! RFC 2136 dynamic updates: the gates, the prerequisites and the plan of
additions and deletions that is written in one transaction. -/
namespace DaygleDns.Authoritative

open Text

inductive ResponseCode where
  | noError
  | formErr
  | servFail
  | refused
  | nxDomain
  | yxDomain
  | yxRRSet
  | nxRRSet
  | notAuth
  | notZone
deriving DecidableEq, Repr

inductive DNSClass where
  | IN
  | ANY
  | NONE
  | other
deriving DecidableEq, Repr

/-- A record type of the wire by its display form. The two types this server
makes up itself have no wire form. -/
structure RecordType where
  text : Text
  wire : toAsciiUppercase text ∉ (["ALIAS", "AUTOPTR"] : List Text)
deriving DecidableEq

namespace RecordType

def any : RecordType := ⟨"ANY", by decide⟩

def zero : RecordType := ⟨"ZERO", by decide⟩

def soa : RecordType := ⟨"SOA", by decide⟩

def txt : RecordType := ⟨"TXT", by decide⟩

end RecordType

structure SoaData where
  mname : Text
  rname : Text
  serial : UInt32
  refresh : Int32
  retry : Int32
  expire : Int32
  minimum : UInt32
deriving DecidableEq

def SoaData.update (soa : SoaData) : SoaUpdate where
  primaryNs := soa.mname
  adminMailbox := soa.rname
  serial := soa.serial
  refresh := soa.refresh.toUInt32
  retry := soa.retry.toUInt32
  expire := soa.expire.toUInt32
  minimum := soa.minimum

/-- RDATA with its display form; `update0` is the empty RDATA of an update. -/
inductive RData where
  | soa (soa : SoaData) (text : Text)
  | update0 (rtype : RecordType) (text : Text)
  | other (rtype : RecordType) (text : Text)
deriving DecidableEq

namespace RData

def recordType : RData → RecordType
  | .soa _ _ => .soa
  | .update0 rtype _ => rtype
  | .other rtype _ => rtype

def text : RData → Text
  | .soa _ text => text
  | .update0 _ text => text
  | .other _ text => text

def isUpdate0 : RData → Bool
  | .update0 _ _ => true
  | _ => false

end RData

/-- A record of an update message; `name` is in its ASCII form. -/
structure UpdateRecord where
  name : Text
  dnsClass : DNSClass
  data : RData
  ttl : UInt32
deriving DecidableEq

structure ZoneQuery where
  name : Text
  queryType : RecordType
  queryClass : DNSClass

inductive TsigVerifyOutcome where
  | valid (keyName : Text)
  | invalid
  | unsigned

/-- `zone` is the zone section where it holds exactly one record, `outcome` what
`verify_request` makes of the message's bytes. -/
structure UpdateMessage where
  client : List UInt8
  zone : Option ZoneQuery
  outcome : TsigVerifyOutcome
  prerequisites : List UpdateRecord
  updates : List UpdateRecord

/-- `parseNetwork` gives the addresses of a network; `tsigUpdateKey` the name of
the key that updates of a zone have to be signed with. -/
structure UpdateServer where
  allowDynamicUpdates : Bool
  updateNetworks : List Text
  parseNetwork : Text → Option (List UInt8 → Bool)
  tsigUpdateKey : Text → Option Text

/-- TXT values are quoted, so that their whitespace survives. -/
def rdataToContent (data : RData) : Text :=
  if data.recordType = .txt then
    '"' :: replace ['"'] ['\\', '"'] (replace ['\\'] ['\\', '\\'] data.text) ++ ['"']
  else data.text

def updateClientAllowed (server : UpdateServer) (client : List UInt8) : Bool :=
  server.updateNetworks.isEmpty ||
    server.updateNetworks.any fun net => (server.parseNetwork net).any fun network => network client

/-- The gates before any zone data is read: the zone section, the policy and
the signature. They give the name of the zone. -/
def requestedZone (server : UpdateServer) (msg : UpdateMessage) : Except ResponseCode Text := do
  let some query := msg.zone | throw .formErr
  if query.queryType ≠ .soa then
    throw .formErr
  if query.queryClass ≠ .IN then
    throw .refused
  let zoneName := lowerName query.name
  if !server.allowDynamicUpdates || !updateClientAllowed server msg.client then
    throw .refused
  match server.tsigUpdateKey zoneName with
  | none =>
      -- with neither an allow-list nor a key, anyone could spoof an update
      if server.updateNetworks.isEmpty then throw .refused else pure zoneName
  | some required =>
      match msg.outcome with
      | .valid keyName => if keyName = required then pure zoneName else throw .refused
      | .invalid => throw .refused
      | .unsigned => throw .refused

/-- The zone has to be hosted here, enabled and primary. -/
def primaryZone (faults : Faults) (store : ZoneStore) (zoneName : Text) :
    Except ResponseCode Zone := do
  let found ← (faults.call .findZoneByName (.ok (store.findZoneByName zoneName))).mapError
    fun _ => ResponseCode.servFail
  let some zone := found | throw .notAuth
  if !zone.enabled then
    throw .notAuth
  let secondary ← (faults.call .listSecondary (.ok store.secondaryZones)).mapError
    fun _ => ResponseCode.servFail
  if secondary.any fun row => row.zoneId == zone.id then
    throw .refused
  pure zone

def nameHasRecords (zone : Zone) (records : List Record) (name : Text) : Bool :=
  name == zone.name || records.any fun r => !r.disabled && r.name == name

def rrsetExists (zone : Zone) (records : List Record) (name : Text) (rtype : RecordType) : Bool :=
  (name == zone.name && decide (rtype = .soa)) ||
    records.any fun r => !r.disabled && r.name == name && r.rtype == rtype.text

def synthesizedSoaContent (zone : Zone) : Text :=
  zone.primaryNs ++ ' ' :: zone.adminMailbox ++ ' ' :: ofNat zone.serial.toNat ++
    ' ' :: ofNat zone.refresh.toNat ++ ' ' :: ofNat zone.retry.toNat ++
    ' ' :: ofNat zone.expire.toNat ++ ' ' :: ofNat zone.minimum.toNat

def rdataMatches (zone : Zone) (records : List Record) (name : Text) (data : RData) : Bool :=
  let content := rdataToContent data
  if name = zone.name ∧ data.recordType = .soa then content == synthesizedSoaContent zone
  else records.any fun r => !r.disabled && r.name == name && r.rtype == data.recordType.text &&
    r.content == content

def require (holds : Bool) (code : ResponseCode) : Except ResponseCode Unit :=
  if holds then .ok () else .error code

/-- Class NONE asks for absence, ANY for presence, IN for presence by value. -/
def checkPrerequisite (zone : Zone) (records : List Record) (prereq : UpdateRecord)
    (name : Text) : Except ResponseCode Unit :=
  let rtype := prereq.data.recordType
  match prereq.dnsClass with
  | .NONE =>
      if rtype = .any then require (!nameHasRecords zone records name) .yxDomain
      else require (!rrsetExists zone records name rtype) .yxRRSet
  | .ANY =>
      if rtype = .any then require (nameHasRecords zone records name) .nxDomain
      else require (rrsetExists zone records name rtype) .nxRRSet
  | .IN =>
      if rtype = .any then require (nameHasRecords zone records name) .nxDomain
      else require (rdataMatches zone records name prereq.data) .nxRRSet
  | .other => throw .formErr

def checkPrerequisites (zone : Zone) (records : List Record) (prereqs : List UpdateRecord) :
    Except ResponseCode Unit :=
  prereqs.forM fun prereq => do
    let name := lowerName prereq.name
    require (nameInZone name zone.name) .notZone
    checkPrerequisite zone records prereq name

/-- Class IN adds, ANY without RDATA deletes an RRset, type ANY everything at
the name, NONE with RDATA one RR. An SOA at the apex rewrites the zone's SOA,
if it is newer. -/
def buildUpdate (zone : Zone) (name : Text) (record : UpdateRecord) (plan : DynamicUpdate) :
    Except ResponseCode DynamicUpdate :=
  let rtype := record.data.recordType
  let delete (del : DeleteSpec) : DynamicUpdate := { plan with deletes := plan.deletes ++ [del] }
  match record.dnsClass with
  | .IN =>
      if rtype = .any ∨ rtype = .zero then .error .formErr
      else if rtype = .soa ∧ name = zone.name then
        match record.data with
        | .soa soa _ =>
            if serialNewer soa.serial zone.serial then .ok { plan with soa := some soa.update }
            else .ok plan
        | _ => .error .formErr
      else .ok { plan with adds := plan.adds ++ [
        { name := name ++ ['.'], rtype := rtype.text, content := rdataToContent record.data,
          ttl := record.ttl, priority := 0, disabled := false }] }
  | .ANY | .NONE =>
      if rtype = .any then .ok (delete { name })
      else if record.data.isUpdate0 then .ok (delete { name, rtype := some rtype.text })
      else .ok (delete
        { name, rtype := some rtype.text, content := some (rdataToContent record.data) })
  | .other => .error .refused

/-- One record of the update section. -/
def planRecord (zone : Zone) (plan : DynamicUpdate) (record : UpdateRecord) :
    Except ResponseCode DynamicUpdate := do
  let name := lowerName record.name
  require (nameInZone name zone.name) .notZone
  buildUpdate zone name record plan

def buildPlan (zone : Zone) (updates : List UpdateRecord) : Except ResponseCode DynamicUpdate :=
  updates.foldlM (planRecord zone) {}

/-- What a delete leaves of the enabled apex NS records, by the count. -/
def countRemaining (zone : Zone) (apexNs : List Record) (remaining : Nat) (del : DeleteSpec) : Nat :=
  if del.name ≠ zone.name then remaining
  else match del.rtype with
    | none => 0
    | some rtype =>
        if rtype = "NS" then
          match del.content with
          | none => 0
          | some content =>
              if apexNs.any fun r => r.content == content then remaining - 1 else remaining
        else remaining

def isApexNs (zone : Zone) (record : Record) : Bool :=
  !record.disabled && record.name == zone.name && record.rtype == ("NS" : Text)

def wouldRemoveLastApexNs (zone : Zone) (records : List Record) (plan : DynamicUpdate) : Bool :=
  let apexNs := records.filter (isApexNs zone)
  !apexNs.isEmpty && plan.deletes.foldl (countRemaining zone apexNs) apexNs.length == 0

def DynamicUpdate.isEmpty (plan : DynamicUpdate) : Bool :=
  plan.adds.isEmpty && plan.deletes.isEmpty && plan.soa.isNone

/-- Everything up to the transaction: the zone and the plan, or the refusal. -/
def admitUpdate (server : UpdateServer) (faults : Faults) (store : ZoneStore)
    (msg : UpdateMessage) : Except ResponseCode (Zone × DynamicUpdate) := do
  let zoneName ← requestedZone server msg
  let zone ← primaryZone faults store zoneName
  let records ← (faults.call .listRecords (.ok (store.listRecords zone.id))).mapError
    fun _ => ResponseCode.servFail
  checkPrerequisites zone records msg.prerequisites
  let plan ← buildPlan zone msg.updates
  if wouldRemoveLastApexNs zone records plan then
    throw .refused
  pure (zone, plan)

/-- The response and the store it leaves; updates are handled one at a time. -/
def handleUpdate (hickory : Hickory) (server : UpdateServer) (faults : Faults) (store : ZoneStore)
    (msg : UpdateMessage) (now : Time) : ResponseCode × ZoneStore :=
  match admitUpdate server faults store msg with
  | .error code => (code, store)
  | .ok (zone, plan) =>
      if plan.isEmpty then (.noError, store)
      else match faults.call .applyDynamicUpdates
          (applyDynamicUpdates hickory store zone.id plan now) with
        | .error (.invalidRecord _) => (.refused, store)
        | .error _ => (.servFail, store)
        | .ok after =>
            match faults.call .reload (.ok ()) with
            | .error _ => (.servFail, after)
            | .ok () => (.noError, after)

/-- A server that takes updates from everyone on its one, open network. -/
def UpdateServer.open : UpdateServer where
  allowDynamicUpdates := true
  updateNetworks := ["0.0.0.0/0"]
  parseNetwork := fun _ => some fun _ => true
  tsigUpdateKey := fun _ => none

/-- An unsigned update of `example.com` without prerequisites. -/
def UpdateMessage.exampleCom (updates : List UpdateRecord) : UpdateMessage where
  client := [192, 0, 2, 7]
  zone := some { name := "example.com.", queryType := .soa, queryClass := .IN }
  outcome := .unsigned
  prerequisites := []
  updates := updates

end DaygleDns.Authoritative
