import DaygleDns.Dhcp.Ddns

/-! The DHCP service: the lease table, its saved rows, and the worker that saves
leases and keeps their DNS names in step. -/
namespace DaygleDns.Dhcp

open Text Authoritative

/-- `saved` are the rows of the `dhcp_leases` table. -/
structure Service where
  store : ZoneStore
  saved : LeaseTable
  leases : Leases
  dnsZone : Text

/-- The order in which a hash set is gone through. -/
structure HashOrder where
  shuffle : List IpAddr → List IpAddr
  perm : ∀ addresses, (shuffle addresses).Perm addresses

def HashOrder.plain : HashOrder := ⟨id, fun _ => .refl _⟩

namespace Service

/-- `dns_zone` of new settings. -/
def applyZone (service : Service) (zone : Text) : Service :=
  { service with
    leases := if trim service.dnsZone ≠ trim zone then service.leases.touchAll else service.leases
    dnsZone := zone }

def deleteRow (faults : DdnsFaults) (service : Service) (address : IpAddr) : Except DaygleError Service :=
  match faults .deleteLease with
  | some e => .error e
  | none => .ok { service with saved := service.saved.erase address }

def putRow (faults : DdnsFaults) (service : Service) (lease : DhcpLease) : Service :=
  match faults .putLease with
  | some _ => service
  | none => { service with saved := service.saved.put lease }

/-- Forget the lease on `address` and remove its DNS names. -/
def deleteLease (stamp : Time) (faults : DdnsFaults) (service : Service) (address : IpAddr) : Service :=
  match service.leases.get address with
  | none => service
  | some lease =>
      let service := { service with leases := service.leases.remove address }
      let (_, store, _) := unregister faults stamp service.store lease
      let service := { service with store }
      match deleteRow faults service address with
      | .error _ => service
      | .ok service => { service with leases := service.leases.forgetChange address }

/-- What a sweep carries along: the records of leases, and whether zones are to be reloaded. -/
structure Sweep where
  service : Service
  ours : List Uuid
  zonesChanged : Bool

/-- A lease with its names in line, and the store that goes with it. -/
structure Renamed where
  modified : Bool
  store : ZoneStore
  lease : DhcpLease
  ours : List Uuid

/-- New names for a lease whose old ones are not in place. -/
def rename (hickory : Hickory) (stamp : Time) (faults : DdnsFaults) (zone : Text) (store : ZoneStore)
    (ours : List Uuid) (lease : DhcpLease) (wanted : Option Text) : Renamed :=
  let ours := ours.filter fun id => !lease.dnsRecords.contains id
  let (removed, store, lease) := unregister faults stamp store lease
  match wanted with
  | none => ⟨removed, store, lease, ours⟩
  | some name =>
      match register hickory faults stamp store zone name lease ours with
      | (.ok _, store, lease) => ⟨true, store, lease, ours ++ lease.dnsRecords⟩
      | (.error _, store, lease) => ⟨removed, store, lease, ours⟩

def bringInLine (hickory : Hickory) (stamp : Time) (faults : DdnsFaults) (zone : Text) (store : ZoneStore)
    (ours : List Uuid) (lease : DhcpLease) : Renamed :=
  let wanted := wantedName lease zone
  if wanted == some lease.dnsName && registered faults store lease then ⟨false, store, lease, ours⟩
  else rename hickory stamp faults zone store ours lease wanted

/-- Save the lease on one address and bring its names in line. -/
def lookAt (hickory : Hickory) (stamp : Time) (faults : DdnsFaults) (zone : Text) (changes : List IpAddr)
    (sweep : Sweep) (address : IpAddr) : Sweep :=
  match sweep.service.leases.get address with
  | none =>
      match sweep.service.deleteRow faults address with
      | .error _ => sweep
      | .ok service => { sweep with service }
  | some lease =>
      let renamed := bringInLine hickory stamp faults zone sweep.service.store sweep.ours lease
      let service := { sweep.service with store := renamed.store }
      { service :=
          if renamed.modified || changes.contains address then
            { service.putRow faults renamed.lease with leases := service.leases.restore renamed.lease }
          else service
        ours := renamed.ours
        zonesChanged := sweep.zonesChanged || renamed.modified }

/-- The addresses a sweep looks at: changed leases, and bound ones still waiting for their name. -/
def lookedAt (order : HashOrder) (changes : List IpAddr) (zone : Text) (leases : Leases) : List IpAddr :=
  order.shuffle changes ++
    ((leases.all.filter fun l => !changes.contains l.address).filter fun l =>
      (wantedName l zone).any fun name => name ≠ l.dnsName).map DhcpLease.address

/-- The start of a sweep: leases expire, and the changes are taken. -/
def beginSweep (now : Int) (service : Service) : List IpAddr × Sweep :=
  let leases := service.leases.expire now
  let (_, leases) := leases.takeGranted
  let (changes, leases) := leases.takeChanges
  (changes, ⟨{ service with leases }, leases.all.flatMap DhcpLease.dnsRecords, false⟩)

/-- Expire leases, save changes and bring DNS names in line. -/
def sweep (hickory : Hickory) (now : Int) (stamp : Time) (faults : IpAddr → DdnsFaults) (order : HashOrder)
    (service : Service) : Service :=
  let (changes, start) := beginSweep now service
  let zone := trim service.dnsZone
  ((lookedAt order changes zone start.service.leases).foldl
    (fun sweep address => lookAt hickory stamp (faults address) zone changes sweep address) start).service

end Service

end DaygleDns.Dhcp
