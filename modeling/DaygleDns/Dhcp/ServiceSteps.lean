import DaygleDns.Dhcp.DdnsTasks
import DaygleDns.Dhcp.V4
import DaygleDns.Dhcp.V6
import Mathlib.Logic.Relation

/-! The service as its threads run it: messages, one sweep at a time and any
number of deletions. A message is handled under the lock, a sweep holds the lock
from its start to its end, and a deletion works on the store without it. -/
namespace DaygleDns.Dhcp

open Text Authoritative Relation

/-- A deletion past its first step, which removed the lease from the table. -/
structure Deletion where
  address : IpAddr
  /-- What is left of removing the names. -/
  work : Task ZoneStore Unit
  rowDeleted : Bool

/-- The sweep that has the lock. `work` is what is left to do for the names of
the lease on the first address. -/
structure Sweeping where
  changes : List IpAddr
  zone : Text
  stamp : Time
  ours : List Uuid
  lookAt : List IpAddr
  work : Option (Task ZoneStore InLine)

structure Running where
  service : Service
  sweeping : Option Sweeping
  deletions : List Deletion

inductive Act where
  | v4 (ctx : V4.Context) (msg : V4.Message)
  | v6 (ctx : V6.Context) (msg : V6.Message)
  | sweep (now : Int) (stamp : Time) (order : HashOrder)
  | sweepOn
  | delete (stamp : Time) (address : IpAddr)
  | deleteOn (i : Nat)

namespace Running

/-- A service that has loaded the saved leases. -/
def start (store : ZoneStore) (saved : LeaseTable) (dnsZone : Text) : Running :=
  { service := { store, saved, leases := .new saved.rows, dnsZone }, sweeping := none, deletions := [] }

def onLeases (running : Running) (change : Leases → Leases) : Running :=
  { running with service := { running.service with leases := change running.service.leases } }

def sweep (now : Int) (stamp : Time) (order : HashOrder) (running : Running) : Running :=
  let (changes, begun) := Service.beginSweep now running.service
  let zone := trim running.service.dnsZone
  { running with
    service := begun.service
    sweeping := some
      { changes, zone, stamp, ours := begun.ours
        lookAt := Service.lookedAt order changes zone begun.service.leases, work := none } }

/-- The next call of the sweep, or its end, which gives the lock back. -/
def sweepOn (hickory : Hickory) (running : Running) : Running :=
  match running.sweeping with
  | none => running
  | some sweep =>
      match sweep.lookAt with
      | [] => { running with sweeping := none }
      | address :: rest =>
          let service := running.service
          match sweep.work with
          | none =>
              match service.leases.get address with
              | none =>
                  { running with
                    service := { service with saved := service.saved.erase address }
                    sweeping := some { sweep with lookAt := rest } }
              | some lease =>
                  { running with
                    sweeping := some
                      { sweep with work := some (bringInLineTask hickory sweep.stamp sweep.zone sweep.ours lease) } }
          | some (.call write next) =>
              { running with
                service := { service with store := write service.store }
                sweeping := some { sweep with work := some (next service.store) } }
          | some (.done inLine) =>
              { running with
                service :=
                  if inLine.modified || sweep.changes.contains address then
                    { service with
                      saved := service.saved.put inLine.lease
                      leases := service.leases.restore inLine.lease }
                  else service
                sweeping := some { sweep with ours := inLine.ours, lookAt := rest, work := none } }

def delete (stamp : Time) (address : IpAddr) (running : Running) : Running :=
  match running.service.leases.get address with
  | none => running
  | some lease =>
      { running.onLeases fun leases => leases.remove address with
        deletions := running.deletions ++
          [{ address, work := do let _ ← unregisterTask stamp lease, rowDeleted := false }] }

/-- The next call of a deletion, or its last step, which takes the lock. -/
def deleteOn (i : Nat) (running : Running) : Running :=
  match running.deletions[i]? with
  | none => running
  | some deletion =>
      let service := running.service
      match deletion.work with
      | .call write next =>
          { running with
            service := { service with store := write service.store }
            deletions := running.deletions.set i { deletion with work := next service.store } }
      | .done _ =>
          if !deletion.rowDeleted then
            { running with
              service := { service with saved := service.saved.erase deletion.address }
              deletions := running.deletions.set i { deletion with rowDeleted := true } }
          else if running.sweeping.isSome then running
          else
            { running.onLeases fun leases => leases.forgetChange deletion.address with
              deletions := running.deletions.eraseIdx i }

/-- One step of one thread. What takes the lock waits while a sweep has it. -/
def step (hickory : Hickory) (running : Running) (act : Act) : Running :=
  match act with
  | .sweepOn => running.sweepOn hickory
  | .deleteOn i => running.deleteOn i
  | act =>
      if running.sweeping.isSome then running
      else
        match act with
        | .v4 ctx msg => running.onLeases fun leases => (V4.handle ctx msg leases).2
        | .v6 ctx msg => running.onLeases fun leases => (V6.handle ctx msg leases).2
        | .sweep now stamp order => running.sweep now stamp order
        | .delete stamp address => running.delete stamp address
        | _ => running

end Running

/-! Without interruption the steps of a sweep or a deletion do what the service
does at once. -/

variable {hickory : Hickory}

/-- The sweep goes on from the one state to the other, with nothing in between. -/
def SweepsTo (hickory : Hickory) : Running → Running → Prop :=
  ReflTransGen fun before after => before.sweepOn hickory = after

def DeletesTo (i : Nat) : Running → Running → Prop := ReflTransGen fun before after => before.deleteOn i = after

/-- A sweep that is to look at the addresses of a list next. -/
def Running.looksAt (running : Running) (sweep : Sweeping) (service : Service) (ours : List Uuid)
    (addresses : List IpAddr) : Running :=
  { running with service, sweeping := some { sweep with ours, lookAt := addresses, work := none } }

theorem sweepsTo_work {sweep : Sweeping} {address : IpAddr} {rest : List IpAddr} (hlook : sweep.lookAt = address :: rest)
    (task : Task ZoneStore InLine) (running : Running) :
    SweepsTo hickory { running with sweeping := some { sweep with work := some task } }
      { running with
        service := { running.service with store := (task.run running.service.store).2 }
        sweeping := some { sweep with work := some (.done (task.run running.service.store).1) } } := by
  induction task generalizing running with
  | done inLine => exact .refl
  | call write next ih =>
    have hrest := ih running.service.store
      { running with service := { running.service with store := write running.service.store } }
    refine ReflTransGen.head ?_ hrest
    simp only [Running.sweepOn, hlook]

theorem sweepsTo_lookAt {sweep : Sweeping} (running : Running) (service : Service) (ours : List Uuid) (address : IpAddr)
    (rest : List IpAddr) (zonesChanged : Bool) :
    let looked := Service.lookAt hickory sweep.stamp noFaults sweep.zone sweep.changes ⟨service, ours, zonesChanged⟩
      address
    SweepsTo hickory (running.looksAt sweep service ours (address :: rest))
      (running.looksAt sweep looked.service looked.ours rest) := by
  cases hget : service.leases.get address with
  | none =>
    apply ReflTransGen.single
    simp only [Running.sweepOn, Running.looksAt, Service.lookAt, Service.deleteRow, noFaults, hget]
  | some lease =>
    have hrun := run_bringInLine hickory sweep.stamp sweep.zone service.store ours lease
    have hwork := @sweepsTo_work hickory { sweep with ours, lookAt := address :: rest } address rest rfl
      (bringInLineTask hickory sweep.stamp sweep.zone ours lease) { running with service }
    refine ReflTransGen.head ?_ (hwork.tail ?_)
    · simp only [Running.sweepOn, Running.looksAt, hget]
    · simp only [Running.sweepOn, Running.looksAt, Service.lookAt, Service.putRow, noFaults, hget, hrun]

theorem sweepsTo_lookAll {sweep : Sweeping} (running : Running) (addresses : List IpAddr) (start : Service.Sweep) :
    let swept := addresses.foldl (fun swept address =>
      Service.lookAt hickory sweep.stamp noFaults sweep.zone sweep.changes swept address) start
    SweepsTo hickory (running.looksAt sweep start.service start.ours addresses)
      (running.looksAt sweep swept.service swept.ours []) := by
  induction addresses generalizing start with
  | nil => exact .refl
  | cons address rest ih =>
    exact (sweepsTo_lookAt running start.service start.ours address rest start.zonesChanged).trans (ih _)

theorem sweep_alone (running : Running) (now : Int) (stamp : Time) (order : HashOrder) :
    SweepsTo hickory (running.sweep now stamp order)
      { running with
        service := running.service.sweep hickory now stamp (fun _ => noFaults) order, sweeping := none } := by
  have hall := @sweepsTo_lookAll hickory
    { changes := (Service.beginSweep now running.service).1, zone := trim running.service.dnsZone, stamp
      ours := [], lookAt := [], work := none }
    running (Service.lookedAt order (Service.beginSweep now running.service).1 (trim running.service.dnsZone)
      (Service.beginSweep now running.service).2.service.leases) (Service.beginSweep now running.service).2
  exact hall.tail rfl

theorem deletesTo_work {i : Nat} (task : Task ZoneStore Unit) {running : Running} {deletion : Deletion}
    (hdeletion : running.deletions[i]? = some { deletion with work := task }) :
    DeletesTo i running
      { running with
        service := { running.service with store := (task.run running.service.store).2 }
        deletions := running.deletions.set i { deletion with work := .done () } } := by
  induction task generalizing running with
  | done result =>
    have hsame : running.deletions.set i { deletion with work := .done () } = running.deletions := by
      obtain ⟨hlt, hget⟩ := List.getElem?_eq_some_iff.mp hdeletion
      rw [← hget, List.set_getElem_self]
    rw [hsame]
    exact .refl
  | call write next ih =>
    have hlt := (List.getElem?_eq_some_iff.mp hdeletion).1
    have hrest := @ih running.service.store
      { running with
        service := { running.service with store := write running.service.store }
        deletions := running.deletions.set i { deletion with work := next running.service.store } }
      (List.getElem?_set_self hlt)
    simp only [List.set_set] at hrest
    refine ReflTransGen.head ?_ hrest
    simp only [Running.deleteOn, hdeletion]

theorem delete_alone (running : Running) (hfree : running.sweeping = none) (stamp : Time) (address : IpAddr) :
    DeletesTo running.deletions.length (running.delete stamp address)
      { running with service := running.service.deleteLease stamp noFaults address } := by
  unfold Running.delete Service.deleteLease
  cases hget : running.service.leases.get address with
  | none => exact .refl
  | some lease =>
    have hset (deletion new : Deletion) :
        (running.deletions ++ [deletion]).set running.deletions.length new = running.deletions ++ [new] := by simp
    have hget? (deletion : Deletion) :
        (running.deletions ++ [deletion])[running.deletions.length]? = some deletion := by simp
    have hwork := @deletesTo_work running.deletions.length (do let _ ← unregisterTask stamp lease)
      { running.onLeases fun leases => leases.remove address with
        deletions := running.deletions ++
          [{ address, work := do let _ ← unregisterTask stamp lease, rowDeleted := false }] }
      { address, work := .done (), rowDeleted := false } (hget? _)
    simp only [hset, Task.run_bind, run_unregister, Running.onLeases, Task.run_pure] at hwork
    have hrow := ReflTransGen.tail hwork (by simp only [Running.deleteOn, hget?, hset, Bool.not_false, if_true]; rfl)
    refine ReflTransGen.tail hrow ?_
    simp [Running.deleteOn, hfree, Running.onLeases, Service.deleteRow, noFaults, List.eraseIdx_append_of_length_le]

end DaygleDns.Dhcp
