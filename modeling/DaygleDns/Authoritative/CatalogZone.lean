import DaygleDns.Authoritative.Secondary

/-! Following a catalog zone: its member zones are served as secondary zones,
and those it drops are removed. -/
namespace DaygleDns.Authoritative

open Text Persist

structure CatalogConsumerConfig where
  name : Text
  masters : List Text
  refreshSecs : Nat
  enabled : Bool

/-- `owners` is the table of the zones that catalogs added, `refreshed` what the
refresher works on, `serials` the serial last applied of each catalog. -/
structure CatalogState where
  store : ZoneStore
  owners : List (Uuid × Text)
  refreshed : List SecondaryZoneConfig
  serials : List (Text × UInt32)

abbrev Follow (α : Type) := Persist CatalogState DaygleError α

/-- The labels of a name in its ASCII form, where a backslash escapes a dot. -/
def splitLabels : Text → List Text
  | [] => [[]]
  | '\\' :: c :: rest =>
      match splitLabels rest with
      | [] => [['\\', c]]
      | label :: labels => ('\\' :: c :: label) :: labels
  | '.' :: rest => [] :: splitLabels rest
  | c :: rest =>
      match splitLabels rest with
      | [] => [[c]]
      | label :: labels => (c :: label) :: labels

def labels (name : Text) : List Text := (splitLabels name).filter fun label => !label.isEmpty

/-- `num_labels` does not count a leading wildcard. -/
def numLabels (name : Text) : Nat :=
  match labels name with
  | ['*'] :: rest => rest.length
  | all => all.length

/-- `zone_of`, which ignores case. -/
def zoneOf (zone name : Text) : Bool :=
  ((labels zone).map toAsciiLowercase).isSuffixOf ((labels name).map toAsciiLowercase)

/-- The text a TXT record displays. -/
def txtText (record : MessageRecord) : Option Text :=
  match record.data with
  | .other rtype text => if rtype = .txt then some text else none
  | _ => none

/-- The target a PTR record displays. -/
def ptrTarget (record : MessageRecord) : Option Text :=
  match record.data with
  | .other rtype text => if rtype.text = "PTR" then some text else none
  | _ => none

/-- A text as Rust's debug form writes it. -/
def debugText (s : Text) : Text :=
  '"' :: replace ['"'] ['\\', '"'] (replace ['\\'] ['\\', '\\'] s) ++ ['"']

def debugTexts (texts : List Text) : Text :=
  '[' :: ((texts.map debugText).intersperse (", " : String).toList).flatten ++ [']']

/-- A label lists one zone, and a zone is listed once. -/
def addMember (zones : Text) (found : List Text × List Text) (record : MessageRecord) :
    List Text × List Text :=
  match ptrTarget record with
  | none => found
  | some target =>
      let (seenLabels, members) := found
      let label := toAsciiLowercase record.name
      if numLabels record.name ≠ numLabels zones + 1 || !zoneOf zones record.name ||
          decide (label ∈ seenLabels) then found
      else
        let member := normalizeFqdn target
        (label :: seenLabels,
          if member.isEmpty || decide (member ∈ members) then members else members ++ [member])

def catalogMembers (catalog : Text) (records : List MessageRecord) :
    Except DaygleError (List Text) :=
  let versions := (records.filter fun record => record.recordType == .txt &&
    record.name == "version." ++ catalog).filterMap txtText
  if versions.map (fun version => trimEndMatches '"' (version.dropWhile (· == '"'))) = ["2"] then
    .ok (records.foldl (addMember ("zones." ++ catalog)) ([], [])).2
  else .error (.proto ("catalog zone " ++ catalog ++ " does not declare schema version 2 (found " ++
    debugTexts versions ++ ")"))

def zoneConfig (state : CatalogState) (name : Text) : Option SecondaryZoneConfig :=
  state.refreshed.find? fun config =>
    eqIgnoreAsciiCase (trimEndMatches '.' config.name) (trimEndMatches '.' name)

/-- `set_zone` of the refresher. -/
def setZone (config : SecondaryZoneConfig) (state : CatalogState) : CatalogState :=
  { state with refreshed :=
      match state.refreshed.findIdx? fun other => eqIgnoreAsciiCase other.name config.name with
      | some i => state.refreshed.set i config
      | none => state.refreshed ++ [config] }

/-- `remove_zone` of the refresher. -/
def removeZone (name : Text) (state : CatalogState) : CatalogState :=
  { state with refreshed := state.refreshed.filter fun other =>
      !eqIgnoreAsciiCase other.name name }

def memberConfig (consumer : CatalogConsumerConfig) (member : Text) : SecondaryZoneConfig where
  name := member
  masters := consumer.masters
  refreshSecs := consumer.refreshSecs
  enabled := true
  tsigKey := []

def markSecondary (refresher : Refresher) (consumer : CatalogConsumerConfig) (zoneId : Uuid) :
    Follow Unit :=
  transact (refresher.faults .setSecondary) fun state => .ok { state with
    store := setSecondary state.store zoneId consumer.masters consumer.refreshSecs }

/-- A member zone that is not here yet. -/
def createMember (refresher : Refresher) (consumer : CatalogConsumerConfig) (member : Text) :
    Follow Unit := do
  guarded (refresher.faults .createZone)
  let outcome ← read fun state =>
    createZone refresher.hickory state.store { name := member } refresher.now
  let (zone, store) ← result outcome
  write fun state => { state with store }
  markSecondary refresher consumer zone.id
  transact (refresher.faults .addCatalogMember) fun state => .ok { state with
    owners := (zone.id, normalizeFqdn consumer.name) ::
      state.owners.filter fun row => row.1 != zone.id }
  write (setZone (memberConfig consumer member))

def ownerOf (owners : List (Uuid × Text)) (zoneId : Uuid) : Option Text :=
  (owners.find? fun row => row.1 == zoneId).map Prod.snd

/-- One wanted zone, with the owners and the zones as they were read. -/
def serveMember (refresher : Refresher) (consumer : CatalogConsumerConfig)
    (owners : List (Uuid × Text)) (zones : List Zone) (changed : Bool) (member : Text) :
    Follow Bool :=
  match zones.find? fun zone => eqIgnoreAsciiCase zone.name member with
  | some zone =>
      if ownerOf owners zone.id = some (normalizeFqdn consumer.name) then do
        let known ← read fun state => zoneConfig state member
        if known ≠ some (memberConfig consumer member) then
          markSecondary refresher consumer zone.id
          write (setZone (memberConfig consumer member))
        pure changed
      else pure changed
  | none => do
      createMember refresher consumer member
      pure true

def removeMember (refresher : Refresher) (zone : Text) (zoneId : Uuid) : Follow Unit := do
  transact (refresher.faults .deleteZone) fun state => .ok { state with
    store := deleteZone state.store zoneId
    owners := state.owners.filter fun row => row.1 != zoneId }
  write (removeZone zone)

/-- The zones the catalog added, by their lower-case names. -/
def ownedZones (consumer : CatalogConsumerConfig) (owners : List (Uuid × Text)) (zones : List Zone) :
    List (Text × Uuid) :=
  (zones.filter fun zone => ownerOf owners zone.id == some (normalizeFqdn consumer.name)).map
    fun zone => (toAsciiLowercase zone.name, zone.id)

def dropMember (refresher : Refresher) (wanted : List Text) (changed : Bool) (owned : Text × Uuid) :
    Follow Bool :=
  if owned.1 ∈ wanted then pure changed
  else do
    removeMember refresher owned.1 owned.2
    pure true

/-- Bring the zones in line with the members, or where the list is unchanged
only see that the zones already added are being refreshed. -/
def reconcile (refresher : Refresher) (consumer : CatalogConsumerConfig)
    (members : Option (List Text)) : Follow Bool := do
  guarded (refresher.faults .catalogMembers)
  let owners ← read CatalogState.owners
  guarded (refresher.faults .listZones)
  let zones ← read fun state => state.store.zones.rows
  let owned := ownedZones consumer owners zones
  let wanted := members.getD (owned.map Prod.fst)
  let changed ← wanted.foldlM (serveMember refresher consumer owners zones) false
  let changed ← (if members.isSome then owned else []).foldlM (dropMember refresher wanted) changed
  if changed then
    guarded (refresher.faults .reload)
  pure changed

def lastSerial (state : CatalogState) (name : Text) : Option UInt32 :=
  (state.serials.find? fun row => row.1 == name).map Prod.snd

def recordSerial (name : Text) (serial : UInt32) (state : CatalogState) : CatalogState :=
  { state with serials := (name, serial) :: state.serials.filter fun row => row.1 != name }

/-- The serial is recorded once all else has succeeded. -/
def reconcileAt (refresher : Refresher) (consumer : CatalogConsumerConfig)
    (members : Option (List Text)) (serial : UInt32) : Follow Bool := do
  let changed ← reconcile refresher consumer members
  write (recordSerial (normalizeFqdn consumer.name) serial)
  pure changed

/-- The masters in order, until one has the catalog. -/
def followFrom (refresher : Refresher) (consumer : CatalogConsumerConfig) (apex : Text)
    (last : Option UInt32) : Option DaygleError → List Text → Follow Bool
  | lastError, [] => result (.error (lastError.getD (.proto
      ("no reachable master for catalog zone '" ++ normalizeFqdn consumer.name ++ "'"))))
  | lastError, master :: masters => do
      let addr ← result ((refresher.masters master).mapError fun e => .config
        ("bad master '" ++ master ++ "': " ++ e))
      match querySoa refresher.client addr apex with
      | .ok (some soa) =>
          match soa.soaSerial with
          | none => followFrom refresher consumer apex last lastError masters
          | some serial =>
              if last = some serial then reconcileAt refresher consumer none serial
              else
                match axfrSigned { refresher.client with tsig := none } addr apex with
                | .error e => followFrom refresher consumer apex last (some e) masters
                | .ok records => do
                    let members ← result (catalogMembers apex records)
                    reconcileAt refresher consumer (some members) serial
      | .ok none => followFrom refresher consumer apex last (some (.proto (master ++
          " has no SOA for catalog zone " ++ normalizeFqdn consumer.name))) masters
      | .error e => followFrom refresher consumer apex last (some e) masters

/-- `refresh` of a catalog. -/
def refreshCatalog (refresher : Refresher) (consumer : CatalogConsumerConfig) : Follow Bool := do
  let name := normalizeFqdn consumer.name
  let last ← read fun state => lastSerial state name
  followFrom refresher consumer (name ++ ['.']) last none consumer.masters

end DaygleDns.Authoritative
