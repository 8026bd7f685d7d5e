import DaygleDns.Authoritative.Store
import DaygleDns.Persist

/-! Key rollover of the zones this server signs. Every store call of a pass
commits by itself, so what a failing pass has done so far stays done. -/
namespace DaygleDns.Authoritative

open Persist

/-- Durations in nanoseconds. -/
structure MaintenanceConfig where
  rolloverAfter : Nat
  overlap : Nat
  retire : Nat

/-- The calls of a pass that may fail by themselves, each by its subject. -/
inductive KeyCall where
  | listSecondary
  | listZones
  | listSigningKeys (zoneId : Uuid)
  | storeSigningKey (zoneId : Uuid)
  | setKeyState (keyId : Uuid)
  | deleteKey (keyId : Uuid)
  | reload
deriving DecidableEq

/-- One pass of the rollover, `elapsed` after the one before it. `generate` is
the new key material for a zone, or the failure to make it. -/
structure RolloverPass where
  elapsed : Nat
  config : MaintenanceConfig
  generate : Uuid → Except DaygleError (UInt8 × List UInt8)
  fault : KeyCall → Option DaygleError

def zoneKeys (store : ZoneStore) (zoneId : Uuid) : List SigningKeyRecord :=
  store.dnssecKeys.rows.filter fun key => key.zoneId == zoneId

def newKey (zoneId : Uuid) (material : UInt8 × List UInt8) (now : Time) (id : Uuid) :
    SigningKeyRecord where
  id := id
  zoneId := zoneId
  algorithm := material.1
  keyDer := material.2
  state := .active
  createdAt := some now
  retiredAt := none

def SigningKeyRecord.retiredNow (key : SigningKeyRecord) (now : Time) : SigningKeyRecord :=
  { key with state := .retired, retiredAt := some now }

theorem newKey_id (zoneId : Uuid) (material : UInt8 × List UInt8) (now : Time) (id : Uuid) :
    (newKey zoneId material now id).id = id := rfl

theorem SigningKeyRecord.retiredNow_id (now : Time) (key : SigningKeyRecord) :
    (key.retiredNow now).id = key.id := rfl

def storeSigningKey (store : ZoneStore) (zoneId : Uuid) (material : UInt8 × List UInt8)
    (now : Time) : ZoneStore :=
  { store with
    dnssecKeys := store.dnssecKeys.insert (newKey zoneId material now)
      (newKey_id zoneId material now) }

/-- `set_key_state` to `retired`. -/
def setKeyRetired (store : ZoneStore) (keyId : Uuid) (now : Time) : ZoneStore :=
  { store with
    dnssecKeys := store.dnssecKeys.update (fun key => key.id == keyId)
      (fun key => key.retiredNow now) (SigningKeyRecord.retiredNow_id now) }

def deleteKey (store : ZoneStore) (keyId : Uuid) : ZoneStore :=
  { store with dnssecKeys := store.dnssecKeys.delete fun key => key.id == keyId }

/-- Whether an `UPDATE` or `DELETE` by identifier finds a row. -/
def hasKey (store : ZoneStore) (keyId : Uuid) : Bool :=
  store.dnssecKeys.rows.any fun key => key.id == keyId

/-- What does not parse counts as created now. -/
def keyCreatedAt (now : Time) (key : SigningKeyRecord) : Time := key.createdAt.getD now

/-- Whole seconds since `past`, none for a time in the future. -/
def ageSince (now past : Time) : Nat := ((now - past) / 1000000000).toNat * 1000000000

def keyAge (now : Time) (key : SigningKeyRecord) : Nat := ageSince now (keyCreatedAt now key)

/-- The latest creation among the active keys. -/
def newestActive (now : Time) (first : SigningKeyRecord) (rest : List SigningKeyRecord) : Time :=
  rest.foldl (fun newest key => max newest (keyCreatedAt now key)) (keyCreatedAt now first)

abbrev Rollover (α : Type) := Persist ZoneStore DaygleError α

/-- The zones this server signs itself. -/
def primaryZones (pass : RolloverPass) : Rollover (List Zone) := do
  guarded (pass.fault .listSecondary)
  let secondary ← read ZoneStore.secondaryZones
  guarded (pass.fault .listZones)
  let zones ← read fun store => store.zones.rows
  pure (zones.filter fun zone => !secondary.any fun row => row.zoneId == zone.id)

def startsRollover (config : MaintenanceConfig) (now : Time) (first : SigningKeyRecord)
    (rest retired : List SigningKeyRecord) : Bool :=
  config.rolloverAfter != 0 && rest.isEmpty && retired.isEmpty &&
    decide (config.rolloverAfter ≤ keyAge now first)

/-- A new key, where the only key is old enough and no rollover is running. -/
def startRollover (pass : RolloverPass) (now : Time) (zone : Zone) (first : SigningKeyRecord)
    (rest retired : List SigningKeyRecord) (events : Nat) : Rollover Nat :=
  if startsRollover pass.config now first rest retired then do
    let material ← result (pass.generate zone.id)
    guarded (pass.fault (.storeSigningKey zone.id))
    write fun store => storeSigningKey store zone.id material now
    pure (events + 1)
  else pure events

def supersededBy (config : MaintenanceConfig) (now newest : Time) (key : SigningKeyRecord) : Bool :=
  decide (keyCreatedAt now key < newest) && decide (config.overlap ≤ ageSince now newest)

def retireSuperseded (pass : RolloverPass) (now newest : Time) (events : Nat)
    (key : SigningKeyRecord) : Rollover Nat :=
  if supersededBy pass.config now newest key then do
    guarded (pass.fault (.setKeyState key.id))
    let changed ← read fun store => hasKey store key.id
    write fun store => setKeyRetired store key.id now
    pure (if changed then events + 1 else events)
  else pure events

def agedOut (config : MaintenanceConfig) (now : Time) (key : SigningKeyRecord) : Bool :=
  decide (config.retire ≤ ageSince now (key.retiredAt.getD now))

def deleteAgedOut (pass : RolloverPass) (now : Time) (events : Nat) (key : SigningKeyRecord) :
    Rollover Nat :=
  if agedOut pass.config now key then do
    guarded (pass.fault (.deleteKey key.id))
    let changed ← read fun store => hasKey store key.id
    write fun store => deleteKey store key.id
    pure (if changed then events + 1 else events)
  else pure events

/-- The three stages on the keys of one zone as they were read. -/
def rolloverKeys (pass : RolloverPass) (now : Time) (zone : Zone) (events : Nat)
    (keys : List SigningKeyRecord) : Rollover Nat :=
  let retired := keys.filter SigningKeyRecord.isRetired
  match keys.filter SigningKeyRecord.isActive with
  | [] => pure events
  | first :: rest => do
      let events ← startRollover pass now zone first rest retired events
      let newest := newestActive now first rest
      let events ← (first :: rest).foldlM (retireSuperseded pass now newest) events
      retired.foldlM (deleteAgedOut pass now) events

def rolloverZone (pass : RolloverPass) (now : Time) (events : Nat) (zone : Zone) :
    Rollover Nat := do
  guarded (pass.fault (.listSigningKeys zone.id))
  let keys ← read fun store => zoneKeys store zone.id
  rolloverKeys pass now zone events keys

def processRollover (pass : RolloverPass) (now : Time) : Rollover Nat := do
  let zones ← primaryZones pass
  let events ← zones.foldlM (rolloverZone pass now) 0
  if events ≠ 0 then
    guarded (pass.fault .reload)
  pure events

/-- The store and the clock of the last pass. -/
structure Maintained where
  store : ZoneStore
  clock : Time

def Maintained.next (state : Maintained) (pass : RolloverPass) : Time := state.clock + pass.elapsed

def runPass (state : Maintained) (pass : RolloverPass) : Maintained where
  store := (exec (processRollover pass (state.next pass)) state.store).2
  clock := state.next pass

end DaygleDns.Authoritative
