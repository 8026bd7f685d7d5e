import DaygleDns.Addresses
import DaygleDns.OrderedTable

/-! The lease table: every address handed out, offered or declined, with the
changes that are still to be written out. -/
namespace DaygleDns.Dhcp

open Text

inductive LeaseState where
  | offered
  | bound
  | declined
  | released
deriving DecidableEq, Repr

/-- How long an offer holds its address. -/
def OFFER_SECS : Int := 120

/-- How long a declined address is skipped. -/
def DECLINE_SECS : Int := 3600

structure DhcpLease where
  address : IpAddr
  scope : Text
  clientId : Text
  hwAddress : Text
  hostname : Text
  state : LeaseState
  expires : Int
  dnsName : Text
  dnsRecords : List Nat
deriving DecidableEq, Repr

abbrev LeaseTable := OrderedTable DhcpLease IpAddr DhcpLease.address

abbrev AddressSet := OrderedTable IpAddr IpAddr id

structure Leases where
  byAddress : LeaseTable
  /-- Addresses changed since the last `takeChanges`. -/
  changed : AddressSet
  /-- Addresses newly bound to a client, for the log. -/
  granted : List IpAddr
deriving DecidableEq

/-- A change of a lease that stays on its address. -/
structure Change where
  apply : DhcpLease → DhcpLease
  address : ∀ l, (apply l).address = l.address

namespace Change

def renew (expires : Int) : Change := ⟨fun l => { l with expires := expires }, fun _ => rfl⟩

def release (now : Int) : Change :=
  ⟨fun l => { l with state := .released, expires := now }, fun _ => rfl⟩

def decline (now : Int) : Change :=
  ⟨fun l => { l with state := .declined, clientId := "declined", expires := now + DECLINE_SECS },
    fun _ => rfl⟩

/-- The end of a bound lease's time. -/
def lapse : Change := ⟨fun l => { l with state := .released }, fun _ => rfl⟩

end Change

namespace Leases

/-- The table of the saved leases. -/
def new (saved : List DhcpLease) : Leases := ⟨OrderedTable.empty.putAll saved, .empty, []⟩

def get (leases : Leases) (address : IpAddr) : Option DhcpLease := leases.byAddress.get address

def all (leases : Leases) : List DhcpLease := leases.byAddress.rows

/-- The live lease or offer that a client holds in a scope. -/
def ofClient (leases : Leases) (scope clientId : Text) (now : Int) : Option DhcpLease :=
  leases.all.find? fun l =>
    l.scope = scope ∧ l.clientId = clientId ∧ (l.state = .offered ∨ l.state = .bound) ∧ now < l.expires

/-- Whether nobody but the client holds the address. -/
def freeFor (leases : Leases) (address : IpAddr) (clientId : Text) (now : Int) : Bool :=
  match leases.get address with
  | none => true
  | some l =>
      if l.clientId = clientId ∧ l.state ≠ .declined then true
      else l.expires ≤ now ∨ l.state = .released

def put (leases : Leases) (lease : DhcpLease) : Leases :=
  let renewal := (leases.get lease.address).any fun old =>
    old.state = .bound ∧ old.clientId = lease.clientId
  { byAddress := leases.byAddress.put lease
    changed := leases.changed.put lease.address
    granted := if lease.state = .bound ∧ !renewal then leases.granted ++ [lease.address] else leases.granted }

def update (leases : Leases) (address : IpAddr) (change : Change) : Leases :=
  if (leases.get address).isSome then
    { leases with
      byAddress := leases.byAddress.modify address change.apply change.address
      changed := leases.changed.put address }
  else leases

def remove (leases : Leases) (address : IpAddr) : Leases :=
  if (leases.get address).isSome then
    { leases with
      byAddress := leases.byAddress.erase address
      changed := leases.changed.put address }
  else leases

/-- Replace a lease that is already written out, so that no change is recorded. -/
def restore (leases : Leases) (lease : DhcpLease) : Leases :=
  { leases with byAddress := leases.byAddress.put lease }

/-- Record every lease as changed. -/
def touchAll (leases : Leases) : Leases :=
  { leases with changed := leases.changed.putAll (leases.all.map DhcpLease.address) }

def forgetChange (leases : Leases) (address : IpAddr) : Leases :=
  { leases with changed := leases.changed.erase address }

def takeGranted (leases : Leases) : List IpAddr × Leases := (leases.granted, { leases with granted := [] })

def takeChanges (leases : Leases) : List IpAddr × Leases :=
  (leases.changed.rows, { leases with changed := .empty })

/-- The end of the time of the lease on `address`: a bound one becomes
released, so that its names are removed, and others are forgotten. -/
def expireAt (leases : Leases) (address : IpAddr) : Leases :=
  if (leases.get address).any fun l => l.state = .bound then leases.update address .lapse
  else leases.remove address

/-- Released leases are kept a day for the record. -/
def expire (leases : Leases) (now : Int) : Leases :=
  let expired := (leases.all.filter fun l => l.expires ≤ now ∧ l.state ≠ .released).map DhcpLease.address
  let leases := expired.foldl expireAt leases
  let stale := (leases.all.filter fun l => l.state = .released ∧ l.expires + 86400 ≤ now).map
    DhcpLease.address
  stale.foldl remove leases

end Leases

/-- A fresh lease, for which no name is registered. -/
def lease (address : IpAddr) (scope clientId hwAddress hostname : Text) (state : LeaseState)
    (expires : Int) : DhcpLease :=
  { address, scope, clientId, hwAddress, hostname, state, expires, dnsName := [], dnsRecords := [] }

/-- A host name made safe for DNS: one lowercase label of letters, digits and hyphens. -/
def cleanHostname (name : Text) : Text :=
  let label := (trim name).takeWhile (· != '.')
  let cleaned := label.map fun c =>
    let c := c.toLower
    if c.isAlphanum || c == '-' then c else '-'
  let cleaned := trimEndMatches '-' (cleaned.dropWhile (· == '-'))
  trimEndMatches '-' (cleaned.take 63)

def hexDigit (n : Nat) : Char := Char.ofNat (if n < 10 then '0'.toNat + n else 'a'.toNat + (n - 10))

/-- Lowercase hexadecimal, two digits for each byte. -/
def hex (bytes : List UInt8) : Text :=
  bytes.flatMap fun b => [hexDigit (b.toNat / 16), hexDigit (b.toNat % 16)]

end DaygleDns.Dhcp
