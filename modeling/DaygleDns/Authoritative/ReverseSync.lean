import DaygleDns.Authoritative.StoreFacts
import DaygleDns.Dhcp.Ddns
import DaygleDns.LastMax
import DaygleDns.Policy.Groups

/-! Reverse records kept in step with A and AAAA records by the record routes, with their option
`update_ptr` given. -/
namespace DaygleDns.Authoritative

open Text Dhcp

structure ReverseOutcome where
  added : List Text := []
  removed : List Text := []
  zoneCreated : Option Text := none
  problem : Option Text := none
deriving DecidableEq, Repr

/-- What the calls of a request bring along: its option `create_reverse_zone`, the clock, the
defaults for new zones, and the readers of record data. -/
structure ReverseSetting where
  createZone : Bool
  now : Time
  primaryNs : Option Text
  adminMailbox : Option Text
  hickory : Hickory
  display : IpAddr → Text

/-- The address of an A or AAAA record. -/
def recordAddress (record : Record) : Option IpAddr :=
  if record.rtype = "A".toList ∨ record.rtype = "AAAA".toList then Policy.parseIpAddr (trim record.content) else none

def sameName (a b : Text) : Bool := eqIgnoreAsciiCase (trimEndMatches '.' (trim a)) (trimEndMatches '.' (trim b))

def coversOwner (owner : Text) (zone : Zone) : Bool :=
  owner == toAsciiLowercase zone.name || endsWith ('.' :: toAsciiLowercase zone.name) owner

/-- The most specific hosted zone that holds `owner`. -/
def reverseZone (store : ZoneStore) (owner : Text) : Option Zone :=
  lastMaxBy (fun zone => utf8Len zone.name) ((listZones store).filter (coversOwner owner))

/-- The reverse zone to create for `ip`: its /24 or /64, without the labels of the host part. -/
def defaultReverseZone (ip : IpAddr) : Text :=
  let skip := match ip with
    | .v4 _ => 1
    | .v6 _ => 16
  (['.'] : Text).intercalate (((reverseName ip).splitOn '.').drop skip)

def isSecondary (store : ZoneStore) (zoneId : Uuid) : Bool :=
  store.secondaryZones.any fun item => item.zoneId == zoneId

/-- The PTR records at `owner` that point at `name`. -/
def pointsBack (owner name : Text) (record : Record) : Bool :=
  record.rtype == "PTR".toList && sameName record.name owner && sameName record.content name

section Sync

variable (setting : ReverseSetting)

/-- The loop of `remove` over the records of the zone. -/
def removeFrom (owner name : Text) : List Record → ZoneStore → ReverseOutcome → Except Text ReverseOutcome × ZoneStore
  | [], store, outcome => (.ok outcome, store)
  | record :: rest, store, outcome =>
      if pointsBack owner name record then
        match deleteRecord store record.id setting.now with
        | .error e => (.error (errorText e), store)
        | .ok (deleted, store) =>
            removeFrom owner name rest store
              (if deleted then { outcome with removed := outcome.removed ++ [owner] } else outcome)
      else removeFrom owner name rest store outcome

/-- Remove the PTR records for `ip` that point at `name`. -/
def removePtr (store : ZoneStore) (ip : IpAddr) (name : Text) (outcome : ReverseOutcome) :
    Except Text ReverseOutcome × ZoneStore :=
  match reverseZone store (reverseName ip) with
  | none => (.ok outcome, store)
  | some zone =>
      if isSecondary store zone.id then (.ok outcome, store)
      else removeFrom setting (reverseName ip) name (store.listRecords zone.id) store outcome

def ptrInput (owner name : Text) (ttl : UInt32) : RecordInput :=
  { name := owner ++ ['.']
    rtype := "PTR".toList
    content := trimEndMatches '.' name ++ ['.']
    ttl
    priority := 0
    disabled := false }

/-- Put the PTR record into its zone, unless one is there. -/
def addTo (zone : Zone) (store : ZoneStore) (ip : IpAddr) (name : Text) (ttl : UInt32) (outcome : ReverseOutcome) :
    Except Text ReverseOutcome × ZoneStore :=
  let owner := reverseName ip
  if isSecondary store zone.id then
    (.ok { outcome with problem := some ("the reverse zone ".toList ++ zone.name ++
      " is a secondary zone, so the PTR record was not added".toList) }, store)
  else
    let existing := (store.listRecords zone.id).filter fun record => record.rtype == "PTR".toList && sameName record.name owner
    if existing.any fun record => sameName record.content name then (.ok outcome, store)
    else match existing.head? with
      | some other =>
          (.ok { outcome with problem := some (setting.display ip ++ " already has a PTR record for ".toList ++
            trimEndMatches '.' other.content ++ ", which was left as it is".toList) }, store)
      | none =>
          match upsertRecord setting.hickory store zone.id (ptrInput owner name ttl) setting.now with
          | .error e => (.error (errorText e), store)
          | .ok (_, store) => (.ok { outcome with added := outcome.added ++ [owner] }, store)

/-- Add the PTR record for `ip` pointing at `name`, creating the reverse zone first when asked to. -/
def addPtr (store : ZoneStore) (ip : IpAddr) (name : Text) (ttl : UInt32) (outcome : ReverseOutcome) :
    Except Text ReverseOutcome × ZoneStore :=
  match reverseZone store (reverseName ip) with
  | some zone => addTo setting zone store ip name ttl outcome
  | none =>
      if setting.createZone then
        let input : ZoneInput :=
          { name := defaultReverseZone ip
            primaryNs := setting.primaryNs
            adminMailbox := setting.adminMailbox }
        match Authoritative.createZone setting.hickory store input setting.now with
        | .error e => (.error (errorText e), store)
        | .ok (zone, store) => addTo setting zone store ip name ttl { outcome with zoneCreated := some zone.name }
      else
        (.ok { outcome with problem := some ("no hosted reverse zone covers ".toList ++ setting.display ip ++
          ", so no PTR record was added".toList) }, store)

/-- The address and name whose PTR record goes. -/
def goes (before after : Option Record) : Option (IpAddr × Text) :=
  match before with
  | none => none
  | some record =>
      match recordAddress record with
      | none => none
      | some ip =>
          if after.any fun new => recordAddress new == some ip && sameName new.name record.name then none
          else some (ip, record.name)

/-- The first half of `sync`. -/
def removeGone (store : ZoneStore) (before after : Option Record) : Except Text ReverseOutcome × ZoneStore :=
  match goes before after with
  | some (ip, name) => removePtr setting store ip name {}
  | none => (.ok {}, store)

/-- Bring the reverse records in line after a record changed from `before` to `after`. -/
def sync (store : ZoneStore) (before after : Option Record) : Except Text ReverseOutcome × ZoneStore :=
  match removeGone setting store before after with
  | (.error e, store) => (.error e, store)
  | (.ok outcome, store) =>
      match after with
      | none => (.ok outcome, store)
      | some record =>
          match recordAddress record with
          | none => (.ok outcome, store)
          -- A disabled record is not served, so neither is its PTR.
          | some ip =>
              if record.disabled then (.ok outcome, store) else addPtr setting store ip record.name record.ttl outcome

/-- The requests of the record routes. -/
inductive RecordRequest where
  | upsert (zoneId : Uuid) (input : RecordInput)
  | replace (zoneId recordId : Uuid) (input : RecordInput)
  | delete (zoneId recordId : Uuid)
  | setDisabled (zoneId recordId : Uuid) (disabled : Bool)

/-- What a request does to the records, and what it hands on to `sync`; none where it is refused. -/
def RecordRequest.perform (store : ZoneStore) : RecordRequest → Option (Option Record × Option Record × ZoneStore)
  | .upsert zoneId input =>
      if isSecondary store zoneId then none
      else match upsertRecord setting.hickory store zoneId input setting.now with
        | .ok (record, store) => some (none, some record, store)
        | .error _ => none
  | .replace zoneId recordId input =>
      if isSecondary store zoneId then none
      else match replaceRecord setting.hickory store zoneId recordId input setting.now with
        | .ok (some record, after) => some (store.getRecord recordId, some record, after)
        | .ok (none, _) => none
        | .error _ => none
  | .delete zoneId recordId =>
      if isSecondary store zoneId then none
      else match store.getRecord recordId with
        | none => none
        | some record =>
            if record.zoneId = zoneId then
              match deleteRecord store recordId setting.now with
              | .ok (true, store) => some (some record, none, store)
              | .ok (false, _) => none
              | .error _ => none
            else none
  | .setDisabled zoneId recordId disabled =>
      if isSecondary store zoneId then none
      else match store.getRecord recordId with
        | none => none
        | some record =>
            if record.zoneId = zoneId then
              match setRecordDisabled store recordId disabled setting.now with
              | .ok (true, store) =>
                  match store.getRecord recordId with
                  | none => some (none, none, store)
                  | some record => some (if disabled then (some record, none, store) else (none, some record, store))
              | .ok (false, _) => none
              | .error _ => none
            else none

end Sync

end DaygleDns.Authoritative
