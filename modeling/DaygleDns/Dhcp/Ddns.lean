import DaygleDns.Authoritative.Store
import DaygleDns.Dhcp.Leases

/-! DNS names for leases: the address record of a bound lease with a host name,
and its pointer record in the hosted reverse zone. Any call into the store may
fail by itself. -/
namespace DaygleDns.Dhcp

open Text Authoritative

def TTL : UInt32 := 300

/-- The calls into the store that a lease's registration makes. -/
inductive DdnsCall where
  | getRecord (id : Uuid)
  | deleteRecord (id : Uuid)
  | findZone
  | listRecords
  | upsertAddress
  | listZones
  | listReverse
  | upsertPointer
  | putLease
  | deleteLease
deriving DecidableEq, Repr

abbrev DdnsFaults := DdnsCall → Option DaygleError

def noFaults : DdnsFaults := fun _ => none

def errorText : DaygleError → Text
  | .config message => "configuration error: ".toList ++ message
  | .invalidRecord message => "invalid record data: ".toList ++ message
  | .proto message => "dns protocol error: ".toList ++ message
  | .notFound message => "not found: ".toList ++ message
  | .alreadyExists message => "already exists: ".toList ++ message
  | .database message => "database error: ".toList ++ message
  | .internal message => "internal error: ".toList ++ message

/-- The result of a call, with an error as text. -/
def attempt {α : Type} (faults : DdnsFaults) (call : DdnsCall) (result : Except DaygleError α) : Except Text α :=
  match faults call with
  | some e => .error (errorText e)
  | none => result.mapError errorText

/-- The reverse-lookup name of `ip`, without a trailing dot. -/
def reverseName : IpAddr → Text
  | .v4 ip =>
      (['.'] : Text).intercalate ([0, 1, 2, 3].map fun i => ofNat (ip.toNat / 256 ^ i % 256)) ++
        ".in-addr.arpa".toList
  | .v6 ip =>
      (['.'] : Text).intercalate ((List.range 32).map fun i => [hexDigit (ip.toNat / 16 ^ i % 16)]) ++
        ".ip6.arpa".toList

/-- The fully qualified name that `lease` should have in `zone`. -/
def wantedName (lease : DhcpLease) (zone : Text) : Option Text :=
  let zone := toAsciiLowercase (trimEndMatches '.' (trim zone))
  if !lease.hostname.isEmpty && !zone.isEmpty && lease.state = .bound then
    some (lease.hostname ++ '.' :: zone)
  else none

def dropRecord (faults : DdnsFaults) (stamp : Time) (store : ZoneStore) (id : Uuid) : ZoneStore :=
  match attempt faults (.deleteRecord id) (deleteRecord store id stamp) with
  | .ok (_, store) => store
  | .error _ => store

/-- Remove the records registered for `lease`; whether there was anything to remove. -/
def unregister (faults : DdnsFaults) (stamp : Time) (store : ZoneStore) (lease : DhcpLease) :
    Bool × ZoneStore × DhcpLease :=
  (!lease.dnsRecords.isEmpty || !lease.dnsName.isEmpty,
    lease.dnsRecords.foldl (dropRecord faults stamp) store,
    { lease with dnsName := [], dnsRecords := [] })

/-- Whether the records of `lease` are still in place. -/
def registered (faults : DdnsFaults) (store : ZoneStore) (lease : DhcpLease) : Bool :=
  !lease.dnsRecords.isEmpty &&
    lease.dnsRecords.all fun id => (faults (.getRecord id)).isNone && (store.getRecord id).isSome

def addressType (address : IpAddr) : Text := if address.isIpv4 then "A" else "AAAA"

def listZones (store : ZoneStore) : List Zone :=
  store.zones.rows.insertionSort fun first second => first.name ≤ second.name

/-- The zone of the longest name among those the reverse name is in, the last of several. -/
def reverseZone (store : ZoneStore) (reverse : Text) : Option Zone :=
  let covering := (listZones store).filter fun zone =>
    let name := toAsciiLowercase zone.name
    reverse == name || endsWith ('.' :: name) reverse
  covering.foldl (fun best zone =>
    match best with
    | none => some zone
    | some other => if utf8Len zone.name < utf8Len other.name then some other else some zone) none

/-- Add the address record. `ours` holds the records that leases registered: a
name that has others is left alone, as is one that another lease holds. -/
def addAddress (hickory : Hickory) (faults : DdnsFaults) (stamp : Time) (store : ZoneStore) (zone name : Text)
    (lease : DhcpLease) (ours : List Uuid) : Except Text (Uuid × ZoneStore) := do
  let zoneName := trimEndMatches '.' (trim zone)
  let found ← attempt faults .findZone (.ok (store.findZoneByName zoneName))
  match found with
  | none => .error ("the zone ".toList ++ zoneName ++ " is not hosted here".toList)
  | some zone =>
      let existing ← attempt faults .listRecords (.ok (store.listRecords zone.id))
      let atName := existing.filter fun r => eqIgnoreAsciiCase r.name name
      if atName.any fun r => !ours.contains r.id then
        .error (name ++ " already has records of its own".toList)
      else if atName.any fun r => r.rtype == addressType lease.address then
        .error (name ++ " is already registered by another lease".toList)
      else do
        let relative := (stripSuffix ('.' :: zoneName) name).getD name
        let (record, store) ← attempt faults .upsertAddress (upsertRecord hickory store zone.id
          { name := relative, rtype := addressType lease.address, content := lease.address.toText, ttl := TTL }
          stamp)
        return (record.id, store)

/-- Add the pointer record in the most specific hosted reverse zone, if there is one. -/
def addPointer (hickory : Hickory) (faults : DdnsFaults) (stamp : Time) (store : ZoneStore) (name : Text)
    (address : IpAddr) : Except Text (Option Uuid × ZoneStore) := do
  let reverse := reverseName address
  let _ ← attempt faults .listZones (.ok ())
  match reverseZone store reverse with
  | none => return (none, store)
  | some zone =>
      let records ← attempt faults .listReverse (.ok (store.listRecords zone.id))
      if records.any fun r => eqIgnoreAsciiCase r.name reverse && r.rtype == ("PTR" : Text) then
        return (none, store)
      else
        match attempt faults .upsertPointer (upsertRecord hickory store zone.id
          { name := reverse ++ ['.'], rtype := "PTR", content := name ++ ['.'], ttl := TTL } stamp) with
        | .ok (record, store) => return (some record.id, store)
        | .error _ => return (none, store)

/-- Register `lease` as `name` in `zone`. An error after the address record was
added leaves that record in the store and in the lease. -/
def register (hickory : Hickory) (faults : DdnsFaults) (stamp : Time) (store : ZoneStore) (zone name : Text)
    (lease : DhcpLease) (ours : List Uuid) : Except Text Unit × ZoneStore × DhcpLease :=
  match addAddress hickory faults stamp store zone name lease ours with
  | .error e => (.error e, store, lease)
  | .ok (id, store) =>
      let lease := { lease with dnsName := name, dnsRecords := [id] }
      match addPointer hickory faults stamp store name lease.address with
      | .error e => (.error e, store, lease)
      | .ok (none, store) => (.ok (), store, lease)
      | .ok (some pointer, store) => (.ok (), store, { lease with dnsRecords := [id, pointer] })

end DaygleDns.Dhcp
