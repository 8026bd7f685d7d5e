import DaygleDns.Authoritative.Store
import DaygleDns.Obligations

/-! The catalog zone this server publishes: its members, its serial, and the calls that render
it, each a run of calls into the store with others between them. -/
namespace DaygleDns.Authoritative

open Text Obligations

/-- What names are, and what is made of them. `before` orders members, `builds` is whether the
records and the handler of the catalog zone can be made, `served` the zones whose RRsets are
transferred as they are served (none where a zone cannot be built). -/
structure CatalogNames (N : Type) where
  idText : Uuid → Text
  fqdnName : Text → Option N
  display : N → Text
  before : Text × N → Text × N → Bool
  builds : Text → List (Text × N) → Bool
  served : ZoneStore → Option (List Text)

/-- A row of `catalog_state`. -/
structure CatalogRow where
  name : Text
  digest : Text
  serial : UInt32
deriving DecidableEq, Repr

/-- The serial for a member list with this digest, and whether it was advanced. -/
def catalogSerial (rows : List CatalogRow) (name digest : Text) (now : UInt32) : (UInt32 × Bool) × List CatalogRow :=
  match rows.find? fun row => row.name == name with
  | some row =>
      if row.digest = digest then ((row.serial, false), rows)
      else
        let serial := max (row.serial + 1) 1
        ((serial, true), rows.map fun row => if row.name == name then { row with digest, serial } else row)
  | none =>
      let serial := max now 1
      ((serial, true), rows ++ [⟨name, digest, serial⟩])

inductive Caller where
  | reload (sets : List Text)
  | transfer
deriving DecidableEq, Repr

/-- Where a call of `reload` or of `transfer_records` is; each phase ends with a call into the
store, the settings or the server's own tables. -/
inductive CatalogCall (N : Type) where
  | lock
  | settings
  | data (catalog : Text)
  | hosted (catalog : Text) (sets : List Text)
  | served (zoneName : Text)
  | findZone (zoneName : Text)
  | catalogName (zoneName : Text)
  | secondary (caller : Caller) (catalog : Text)
  | zones (caller : Caller) (catalog : Text) (secondary : List Uuid)
  | serial (caller : Caller) (catalog : Text) (members : List (Text × N))
  | publish (zone : Option (Text × List (Text × N))) (sets : List Text) (changed : Bool)
  | notify (changed : Bool)
  | splitHorizon
  | returned

/-- The reload lock is held. -/
def CatalogCall.holdsLock {N : Type} : CatalogCall N → Bool
  | .settings | .data _ | .hosted _ _ | .publish _ _ _ | .notify _ | .splitHorizon => true
  | .secondary (.reload _) _ | .zones (.reload _) _ _ | .serial (.reload _) _ _ => true
  | _ => false

structure Publisher (N : Type) where
  store : ZoneStore
  rows : List CatalogRow
  catalogZone : Text
  reloading : Bool
  transferSets : List Text
  calls : List (CatalogCall N)
  trace : List Event

section Steps

variable {N : Type} (names : CatalogNames N)

def memberLabel (zone : Zone) : Text :=
  toAsciiLowercase (((names.idText zone.id).filter Char.isAlphanum).take 63)

/-- Sorted; none where the name of a zone is no name. -/
def publishedMembers (catalog : Text) (secondary : List Uuid) (zones : List Zone) : Option (List (Text × N)) :=
  let members := zones.filter fun zone =>
    zone.enabled && !secondary.contains zone.id && !eqIgnoreAsciiCase zone.name catalog
  (members.mapM fun zone => (names.fqdnName zone.name).map fun name => (memberLabel names zone, name)).map
    fun members => members.mergeSort names.before

def catalogDigest (members : List (Text × N)) : Text :=
  ([','] : Text).intercalate (members.map fun member => member.1 ++ '=' :: names.display member.2)

namespace Publisher

variable (w : Publisher N)

def goTo (i : Nat) (next : CatalogCall N) : Publisher N := { w with calls := w.calls.set i next }

/-- The call returns, with an error or without; the lock is released. -/
def finish (i : Nat) (from_ : CatalogCall N) : Publisher N :=
  { w.goTo i .returned with reloading := w.reloading && !from_.holdsLock }

/-- The next call of call `i` into the store, the settings or the tables; `fails` where the
database reports an error. -/
def act (i : Nat) (call : CatalogCall N) (fails : Bool) (now : UInt32) : Publisher N :=
  match call with
  | .lock => if w.reloading then w else { w.goTo i .settings with reloading := true }
  | .settings => w.goTo i (.data w.catalogZone)
  | .data catalog =>
      if fails then w.finish i call
      else match names.served w.store with
        | none => w.finish i call
        | some sets => w.goTo i (if catalog.isEmpty then .publish none sets false else .hosted catalog sets)
  | .hosted catalog sets =>
      if fails then w.finish i call
      -- A hosted zone has the catalog zone's name, so the catalog is not published.
      else if (w.store.findZoneByName catalog).any (·.enabled) then w.goTo i (.publish none sets false)
      else w.goTo i (.secondary (.reload sets) catalog)
  | .served zoneName =>
      if normalizeFqdn zoneName ∈ w.transferSets then w.finish i call else w.goTo i (.findZone zoneName)
  | .findZone zoneName =>
      if fails then w.finish i call
      else if (w.store.findZoneByName zoneName).isSome then w.finish i call
      else w.goTo i (.catalogName zoneName)
  | .catalogName zoneName =>
      if w.catalogZone.isEmpty || normalizeFqdn zoneName != w.catalogZone then w.finish i call
      else w.goTo i (.secondary .transfer w.catalogZone)
  | .secondary caller catalog =>
      if fails || (names.fqdnName catalog).isNone then w.finish i call
      else w.goTo i (.zones caller catalog (w.store.secondaryZones.map SecondaryZone.zoneId))
  | .zones caller catalog secondary =>
      if fails then w.finish i call
      else match publishedMembers names catalog secondary w.store.zones.rows with
        | none => w.finish i call
        | some members => w.goTo i (.serial caller catalog members)
  | .serial caller catalog members =>
      if fails then w.finish i call
      else
        let (serial, rows) := catalogSerial w.rows catalog (catalogDigest names members) now
        let after := match caller with
          | .reload sets => w.goTo i (.publish (some (catalog, members)) sets serial.2)
          | .transfer => w.finish i call
        { after with rows, trace := if serial.2 then .changed i :: w.trace else w.trace }
  | .publish zone sets changed =>
      if zone.all fun zone => names.builds zone.1 zone.2 then
        { w.goTo i (.notify changed) with transferSets := sets }
      else w.finish i call
  | .notify changed =>
      { w.goTo i .splitHorizon with trace := if changed then .reported i :: w.trace else w.trace }
  | .splitHorizon => w.finish i call
  | .returned => w

end Publisher

/-- What happens next: the zones or the catalog's name are changed, a call is made, or one of
the calls goes on. -/
inductive CatalogInput where
  | change (store : ZoneStore)
  | configure (catalogZone : Text)
  | reload
  | transfer (zoneName : Text)
  | step (call : Nat) (fails : Bool) (now : UInt32)

def Publisher.step (w : Publisher N) : CatalogInput → Publisher N
  | .change store => { w with store }
  | .configure catalogZone => { w with catalogZone }
  | .reload => { w with calls := w.calls ++ [.lock] }
  | .transfer zoneName => { w with calls := w.calls ++ [.served zoneName] }
  | .step i fails now =>
      match w.calls[i]? with
      | some call => w.act names i call fails now
      | none => w

end Steps

end DaygleDns.Authoritative
