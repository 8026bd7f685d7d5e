import DaygleDns.Text

/-! Stored zones and records, and the payloads of the operations on them.
Identifiers stand for UUIDs, times for RFC 3339 timestamps. -/
namespace DaygleDns.Authoritative

abbrev Uuid := Nat

/-- Nanoseconds since an epoch. -/
abbrev Time := Int

inductive DaygleError where
  | config (message : Text)
  | invalidRecord (message : Text)
  | proto (message : Text)
  | notFound (message : Text)
  | alreadyExists (message : Text)
  | database (message : Text)
  | internal (message : Text)
deriving DecidableEq, Repr

structure Zone where
  id : Uuid
  name : Text
  primaryNs : Text
  adminMailbox : Text
  serial : UInt32
  enabled : Bool
  refresh : UInt32
  retry : UInt32
  expire : UInt32
  minimum : UInt32
  createdAt : Time
  lastModifiedAt : Time
deriving DecidableEq, Repr

structure ZoneInput where
  name : Text
  primaryNs : Option Text := none
  adminMailbox : Option Text := none
  serial : Option UInt32 := none
  refresh : Option UInt32 := none
  retry : Option UInt32 := none
  expire : Option UInt32 := none
  minimum : Option UInt32 := none
deriving DecidableEq, Repr

/-- `active` keys sign the zone; `retired` ones are published but do not sign. -/
inductive KeyState where
  | active
  | retired
deriving DecidableEq, Repr

/-- `createdAt` and `retiredAt` are what the stored timestamps parse to. -/
structure SigningKeyRecord where
  id : Uuid
  zoneId : Uuid
  algorithm : UInt8
  keyDer : List UInt8
  state : KeyState
  createdAt : Option Time
  retiredAt : Option Time
deriving DecidableEq, Repr

def SigningKeyRecord.isActive (key : SigningKeyRecord) : Bool := key.state == .active

def SigningKeyRecord.isRetired (key : SigningKeyRecord) : Bool := key.state == .retired

structure Record where
  id : Uuid
  zoneId : Uuid
  name : Text
  rtype : Text
  content : Text
  ttl : UInt32
  priority : UInt16
  disabled : Bool
  lastModifiedAt : Time
  lastUsedAt : Option Time
deriving DecidableEq, Repr

structure RecordInput where
  name : Text
  rtype : Text
  content : Text
  ttl : UInt32 := 3600
  priority : UInt16 := 0
  disabled : Bool := false
deriving DecidableEq, Repr

def knownRecordTypes : List Text :=
  ["A", "AAAA", "CNAME", "MX", "TXT", "NS", "SOA", "SRV", "PTR", "CAA", "HTTPS", "SVCB", "DS",
    "TLSA", "SSHFP", "NAPTR", "ALIAS", "AUTOPTR"]

structure ZoneAlias where
  name : Text
  zoneId : Uuid
deriving DecidableEq, Repr

/-- An RRset (name and type), one RR (with content), or all of a name. -/
structure DeleteSpec where
  name : Text
  rtype : Option Text := none
  content : Option Text := none
deriving DecidableEq, Repr

structure SoaUpdate where
  primaryNs : Text
  adminMailbox : Text
  serial : UInt32
  refresh : UInt32
  retry : UInt32
  expire : UInt32
  minimum : UInt32
deriving DecidableEq, Repr

structure DynamicUpdate where
  adds : List RecordInput := []
  deletes : List DeleteSpec := []
  soa : Option SoaUpdate := none
deriving DecidableEq, Repr

structure SecondaryZone where
  zoneId : Uuid
  masters : List Text
  refreshSecs : Nat
  lastTransfer : Option Time
deriving DecidableEq, Repr

end DaygleDns.Authoritative
