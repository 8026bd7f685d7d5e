import DaygleDns.Dhcp.DdnsFacts
import DaygleDns.Dhcp.Service
import DaygleDns.Tasks

/-! The work on the names of a lease, call by call: what a sweep and a deletion
do to the store while others may use it. -/
namespace DaygleDns.Dhcp

open Text Authoritative

/-- One call into the store, which fails by its own answer only. -/
def callStore {α : Type} (op : ZoneStore → Except DaygleError (α × ZoneStore)) : Task ZoneStore (Except Text α) :=
  .perform fun store =>
    match op store with
    | .ok (a, after) => (.ok a, after)
    | .error e => (.error (errorText e), store)

def readStore {α : Type} (read : ZoneStore → α) : Task ZoneStore α := .perform fun store => (read store, store)

def unregisterTask (stamp : Time) (lease : DhcpLease) : Task ZoneStore (Bool × DhcpLease) := do
  Task.forEach (fun id => .perform fun store => ((), dropRecord noFaults stamp store id)) lease.dnsRecords
  return (!lease.dnsRecords.isEmpty || !lease.dnsName.isEmpty, { lease with dnsName := [], dnsRecords := [] })

def registeredTask (lease : DhcpLease) : Task ZoneStore Bool :=
  if lease.dnsRecords.isEmpty then return false
  else Task.all (fun id => readStore fun store => (store.getRecord id).isSome) lease.dnsRecords

def addAddressTask (hickory : Hickory) (stamp : Time) (zone name : Text) (lease : DhcpLease) (ours : List Uuid) :
    Task ZoneStore (Except Text Uuid) := do
  let zoneName := trimEndMatches '.' (trim zone)
  match ← readStore fun store => store.findZoneByName zoneName with
  | none => return .error ("the zone ".toList ++ zoneName ++ " is not hosted here".toList)
  | some zone =>
      let existing ← readStore fun store => store.listRecords zone.id
      let atName := existing.filter fun r => eqIgnoreAsciiCase r.name name
      if atName.any fun r => !ours.contains r.id then
        return .error (name ++ " already has records of its own".toList)
      else if atName.any fun r => r.rtype == addressType lease.address then
        return .error (name ++ " is already registered by another lease".toList)
      else
        let relative := (stripSuffix ('.' :: zoneName) name).getD name
        match ← callStore fun store => upsertRecord hickory store zone.id
            { name := relative, rtype := addressType lease.address, content := lease.address.toText, ttl := TTL }
            stamp with
        | .error e => return .error e
        | .ok record => return .ok record.id

def addPointerTask (hickory : Hickory) (stamp : Time) (name : Text) (address : IpAddr) :
    Task ZoneStore (Option Uuid) := do
  let reverse := reverseName address
  match ← readStore fun store => reverseZone store reverse with
  | none => return none
  | some zone =>
      let records ← readStore fun store => store.listRecords zone.id
      if records.any fun r => eqIgnoreAsciiCase r.name reverse && r.rtype == ("PTR" : Text) then
        return none
      else
        match ← callStore fun store => upsertRecord hickory store zone.id
            { name := reverse ++ ['.'], rtype := "PTR", content := name ++ ['.'], ttl := TTL } stamp with
        | .error _ => return none
        | .ok record => return some record.id

def registerTask (hickory : Hickory) (stamp : Time) (zone name : Text) (lease : DhcpLease) (ours : List Uuid) :
    Task ZoneStore (Except Text Unit × DhcpLease) := do
  match ← addAddressTask hickory stamp zone name lease ours with
  | .error e => return (.error e, lease)
  | .ok id =>
      match ← addPointerTask hickory stamp name lease.address with
      | none => return (.ok (), { lease with dnsName := name, dnsRecords := [id] })
      | some pointer => return (.ok (), { lease with dnsName := name, dnsRecords := [id, pointer] })

/-- A lease with its names in line. -/
structure InLine where
  modified : Bool
  lease : DhcpLease
  ours : List Uuid

def renameTask (hickory : Hickory) (stamp : Time) (zone : Text) (ours : List Uuid) (lease : DhcpLease)
    (wanted : Option Text) : Task ZoneStore InLine := do
  let ours := ours.filter fun id => !lease.dnsRecords.contains id
  let (removed, lease) ← unregisterTask stamp lease
  match wanted with
  | none => return ⟨removed, lease, ours⟩
  | some name =>
      match ← registerTask hickory stamp zone name lease ours with
      | (.ok _, lease) => return ⟨true, lease, ours ++ lease.dnsRecords⟩
      | (.error _, lease) => return ⟨removed, lease, ours⟩

def bringInLineTask (hickory : Hickory) (stamp : Time) (zone : Text) (ours : List Uuid) (lease : DhcpLease) :
    Task ZoneStore InLine := do
  let wanted := wantedName lease zone
  let inPlace ← if wanted == some lease.dnsName then registeredTask lease else pure false
  if inPlace then return ⟨false, lease, ours⟩
  else renameTask hickory stamp zone ours lease wanted

/-! Without interruption the tasks do what the functions do at once. -/

@[simp] theorem attempt_noFaults {α : Type} (call : DdnsCall) (result : Except DaygleError α) :
    attempt noFaults call result = result.mapError errorText := rfl

theorem run_unregister (stamp : Time) (lease : DhcpLease) (store : ZoneStore) :
    (unregisterTask stamp lease).run store =
      (((unregister noFaults stamp store lease).1, (unregister noFaults stamp store lease).2.2),
        (unregister noFaults stamp store lease).2.1) := by
  unfold unregisterTask
  rw [Task.run_bind, Task.run_forEach _ (dropRecord noFaults stamp) fun _ _ => rfl]
  rfl

theorem run_registered (lease : DhcpLease) (store : ZoneStore) :
    (registeredTask lease).run store = (registered noFaults store lease, store) := by
  unfold registeredTask registered
  by_cases hnone : lease.dnsRecords.isEmpty
  · simp [hnone]
  · have hall := Task.run_all (fun id => readStore fun store => (store.getRecord id).isSome)
      (fun store id => (store.getRecord id).isSome) (fun _ _ => rfl) lease.dnsRecords store
    simp only [hnone, noFaults]
    exact hall

theorem run_readStore_bind {α β : Type} (read : ZoneStore → α) (f : α → Task ZoneStore β) (store : ZoneStore) :
    (readStore read >>= f).run store = (f (read store)).run store := rfl

theorem run_callStore {α : Type} (op : ZoneStore → Except DaygleError (α × ZoneStore)) (store : ZoneStore) :
    (callStore op).run store =
      match (op store).mapError errorText with
      | .ok (a, after) => (.ok a, after)
      | .error e => (.error e, store) := by
  unfold callStore
  rw [Task.run_perform]
  cases op store <;> rfl

theorem run_addAddress (hickory : Hickory) (stamp : Time) (zone name : Text) (lease : DhcpLease) (ours : List Uuid)
    (store : ZoneStore) :
    (addAddressTask hickory stamp zone name lease ours).run store =
      match addAddress hickory noFaults stamp store zone name lease ours with
      | .ok (id, after) => (.ok id, after)
      | .error e => (.error e, store) := by
  unfold addAddressTask addAddress
  simp only [attempt_noFaults, run_readStore_bind]
  cases store.findZoneByName (trimEndMatches '.' (trim zone)) with
  | none => rfl
  | some found =>
    simp only [Except.mapError, Fallible.ok_bind, run_readStore_bind]
    split
    · rfl
    · split
      · rfl
      · rw [Task.run_bind, run_callStore]
        cases hupsert : upsertRecord hickory store found.id _ stamp <;> rfl

theorem run_addPointer (hickory : Hickory) (stamp : Time) (name : Text) (address : IpAddr) (store : ZoneStore) :
    addPointer hickory noFaults stamp store name address =
      .ok ((addPointerTask hickory stamp name address).run store) := by
  unfold addPointerTask addPointer
  simp only [attempt_noFaults, run_readStore_bind, Except.mapError, Fallible.ok_bind]
  cases reverseZone store (reverseName address) with
  | none => rfl
  | some zone =>
    simp only [run_readStore_bind]
    split
    · rfl
    · rw [Task.run_bind, run_callStore]
      cases hupsert : upsertRecord hickory store zone.id _ stamp <;> rfl

theorem run_register (hickory : Hickory) (stamp : Time) (zone name : Text) (lease : DhcpLease) (ours : List Uuid)
    (store : ZoneStore) :
    (registerTask hickory stamp zone name lease ours).run store =
      (((register hickory noFaults stamp store zone name lease ours).1,
        (register hickory noFaults stamp store zone name lease ours).2.2),
        (register hickory noFaults stamp store zone name lease ours).2.1) := by
  unfold registerTask register
  rw [Task.run_bind, run_addAddress]
  cases addAddress hickory noFaults stamp store zone name lease ours with
  | error e => rfl
  | ok result =>
    obtain ⟨id, middle⟩ := result
    simp only [Task.run_bind, run_addPointer]
    cases (addPointerTask hickory stamp name lease.address).run middle with
    | mk pointer after => cases pointer <;> rfl

theorem run_rename (hickory : Hickory) (stamp : Time) (zone : Text) (store : ZoneStore) (ours : List Uuid)
    (lease : DhcpLease) (wanted : Option Text) :
    let renamed := Service.rename hickory stamp noFaults zone store ours lease wanted
    (renameTask hickory stamp zone ours lease wanted).run store =
      (⟨renamed.modified, renamed.lease, renamed.ours⟩, renamed.store) := by
  unfold renameTask Service.rename
  simp only [Task.run_bind, run_unregister]
  cases wanted with
  | none => rfl
  | some name =>
    simp only [Task.run_bind, run_register]
    cases register hickory noFaults stamp _ zone name _ _ with
    | mk result rest => cases result <;> rfl

theorem run_bringInLine (hickory : Hickory) (stamp : Time) (zone : Text) (store : ZoneStore) (ours : List Uuid)
    (lease : DhcpLease) :
    let renamed := Service.bringInLine hickory stamp noFaults zone store ours lease
    (bringInLineTask hickory stamp zone ours lease).run store =
      (⟨renamed.modified, renamed.lease, renamed.ours⟩, renamed.store) := by
  unfold bringInLineTask Service.bringInLine
  by_cases hwanted : wantedName lease zone == some lease.dnsName
  · simp only [hwanted, if_true, Task.run_bind, run_registered, Bool.true_and]
    split
    · rfl
    · exact run_rename hickory stamp zone store ours lease _
  · simp only [hwanted, Bool.false_and]
    exact run_rename hickory stamp zone store ours lease _

end DaygleDns.Dhcp
