import DaygleDns.Dhcp.Held
import DaygleDns.Dhcp.V4Exclusive

/-! The DNS records of leases over time: whether every record that was registered
and is still there is known to a lease, so that it can be removed again. -/
namespace DaygleDns.Dhcp

open Text Authoritative Leases Runs

inductive ServiceEvent where
  | v4 (ctx : V4.Context) (msg : V4.Message)
  | v6 (ctx : V6.Context) (msg : V6.Message)
  | sweep (now : Int) (stamp : Time) (faults : IpAddr → DdnsFaults) (order : HashOrder)
  | delete (stamp : Time) (faults : DdnsFaults) (address : IpAddr)
  | applyZone (zone : Text)

def serve (hickory : Hickory) (service : Service) : ServiceEvent → Service
  | .v4 ctx msg => { service with leases := (V4.handle ctx msg service.leases).2 }
  | .v6 ctx msg => { service with leases := (V6.handle ctx msg service.leases).2 }
  | .sweep now stamp faults order => service.sweep hickory now stamp faults order
  | .delete stamp faults address => service.deleteLease stamp faults address
  | .applyZone zone => service.applyZone zone

/-- The records from `base` on: in a run that starts where the store gives out
`base` next, those that `register` added. -/
def Listed (base : Uuid) (service : Service) : Prop :=
  ∀ r ∈ service.store.records.rows, base ≤ r.id → ∃ l ∈ service.leases.all, r.id ∈ l.dnsRecords

/-- Every one of them belongs to a lease that is still bound. -/
def BelongsToBound (base : Uuid) (service : Service) : Prop :=
  ∀ r ∈ service.store.records.rows, base ≤ r.id →
    ∃ l ∈ service.leases.all, r.id ∈ l.dnsRecords ∧ l.state = .bound

def SweptClean (hickory : Hickory) (base : Uuid) (service : Service) : ServiceEvent → Prop
  | .sweep now stamp faults order => BelongsToBound base (service.sweep hickory now stamp faults order)
  | _ => True

def KeepsNames (service : Service) : ServiceEvent → Prop
  | .v4 ctx msg => KeepsV4 service.store ctx msg service.leases
  | .v6 ctx msg => KeepsV6 service.store ctx msg service.leases
  | .sweep now _ faults _ => KeepsSweep now faults service
  | .delete _ faults address => ∀ l ∈ service.leases.get address, Deletable faults l
  | .applyZone _ => True

variable {base : Uuid}

theorem Held.listed {service : Service} {pending : IpAddr → Prop} (h : Held base service.store service.leases pending) :
    Listed base service := by
  intro r hr hbase
  obtain ⟨_, l, hget, hid, _⟩ := h r hr hbase
  exact ⟨l, mem_all_iff.mpr hget, hid⟩

/-- Every record that leases registered is held, and belongs to a lease that is
bound or that the next sweep looks at. -/
def NamesHeld (base : Uuid) (service : Service) : Prop :=
  Held base service.store service.leases (· ∈ service.leases.changed.rows)

theorem namesHeld_of_swept {service : Service} (h : Held base service.store service.leases fun _ => False) :
    NamesHeld base service :=
  h.mono fun _ hfalse => hfalse.elim

theorem namesHeld_applyZone {service : Service} (h : NamesHeld base service) (zone : Text) :
    NamesHeld base (service.applyZone zone) := by
  unfold Service.applyZone
  split
  · exact h.mono fun a ha => OrderedTable.mem_putAll.mpr (.inr ha)
  · exact h

theorem namesHeld_serve (hickory : Hickory) (service : Service) (event : ServiceEvent) (h : NamesHeld base service)
    (hkeeps : KeepsNames service event) : NamesHeld base (serve hickory service event) := by
  cases event with
  | v4 ctx msg =>
    exact h.of_carries (V4.carries_outcome (V4.handle_outcome ctx msg service.leases) hkeeps)
      (V4.recorded_handle ctx msg service.leases)
  | v6 ctx msg =>
    exact h.of_carries (V6.carries_outcome (V6.handle_outcome ctx msg service.leases) hkeeps)
      (V6.recorded_handle ctx msg service.leases)
  | sweep now stamp faults order => exact namesHeld_of_swept (held_sweep order h hkeeps)
  | delete stamp faults address => exact held_deleteLease h hkeeps
  | applyZone zone => exact namesHeld_applyZone h zone

theorem sweptClean_of_namesHeld (hickory : Hickory) (service : Service) (event : ServiceEvent)
    (h : NamesHeld base service) (hkeeps : KeepsNames service event) : SweptClean hickory base service event := by
  cases event with
  | sweep now stamp faults order =>
    intro r hr hbase
    obtain ⟨_, l, hget, hid, _, hbound⟩ := held_sweep order h hkeeps r hr hbase
    exact ⟨l, mem_all_iff.mpr hget, hid, hbound.resolve_right id⟩
  | v4 | v6 | delete | applyZone => trivial

theorem namesHeld_start (service : Service) : NamesHeld service.store.records.next service := by
  intro r hr hbase
  exact absurd (service.store.records.below r hr) (Nat.not_lt.mpr hbase)

/-- While nothing replaces or drops a lease that has records, every record is
listed, and each sweep leaves those of bound leases only. -/
theorem names_listed (hickory : Hickory) (start : Service) (events : List ServiceEvent)
    (hkeeps : Each (serve hickory) KeepsNames start events) :
    Always (serve hickory) (Listed start.store.records.next) start events ∧
      Each (serve hickory) (SweptClean hickory start.store.records.next) start events := by
  have hstart := namesHeld_start start
  constructor
  · exact always_mono (fun _ => Held.listed)
      (always_of_invariant (NamesHeld start.store.records.next) (namesHeld_serve hickory) events hstart hkeeps)
  · exact each_of_invariant (NamesHeld start.store.records.next) (namesHeld_serve hickory)
      (sweptClean_of_namesHeld hickory) events hstart hkeeps

instance (store : ZoneStore) (l : DhcpLease) : Decidable (Bare store l) :=
  inferInstanceAs (Decidable (∀ id ∈ l.dnsRecords, store.getRecord id = none))

-- The instance for bit vectors would go through all the addresses.
instance (store : ZoneStore) (ctx : V4.Context) (msg : V4.Message) (leases : Leases) :
    Decidable (KeepsV4 store ctx msg leases) :=
  @instDecidableAnd _ _ (@instDecidableForall _ _ _ (Option.decidableForallMem _))
    (@instDecidableForall _ _ _ (Option.decidableForallMem _))

instance (store : ZoneStore) (ctx : V6.Context) (duid : Text) (binds : Bool) (leases : Leases)
    (input : Bool × V6.IANA) : Decidable (KeepsAssociation store ctx duid binds leases input) :=
  @Option.decidableForallMem _ _ (fun _ => @Option.decidableForallMem _ _ (fun _ => inferInstance) _) _

instance (store : ZoneStore) (ctx : V6.Context) (msg : V6.Message) (leases : Leases) :
    Decidable (KeepsV6 store ctx msg leases) :=
  inferInstanceAs (Decidable (_ → ∀ duid ∈ V6.clientDuid msg, Each _ _ leases _))

instance (faults : DdnsFaults) (l : DhcpLease) : Decidable (Deletable faults l) :=
  inferInstanceAs (Decidable (∀ id ∈ l.dnsRecords, faults (.deleteRecord id) = none))

instance (faults : DdnsFaults) (changed : Prop) [Decidable changed] (l : DhcpLease) :
    Decidable (Saves faults changed l) :=
  inferInstanceAs (Decidable (_ ∧ _ ∨ changed ∨ _ ∨ _))

instance (now : Int) (faults : IpAddr → DdnsFaults) (service : Service) : Decidable (KeepsSweep now faults service) :=
  inferInstanceAs (Decidable (∀ l ∈ service.leases.all, _ ∧ ∀ l' ∈ afterExpiry now l, _))

instance (service : Service) : ∀ event, Decidable (KeepsNames service event)
  | .v4 ctx msg => inferInstanceAs (Decidable (KeepsV4 service.store ctx msg service.leases))
  | .v6 ctx msg => inferInstanceAs (Decidable (KeepsV6 service.store ctx msg service.leases))
  | .sweep now _ faults _ => inferInstanceAs (Decidable (KeepsSweep now faults service))
  | .delete _ faults address =>
      inferInstanceAs (Decidable (∀ l ∈ service.leases.get address, Deletable faults l))
  | .applyZone _ => inferInstanceAs (Decidable True)

instance (base : Uuid) (service : Service) : Decidable (Listed base service) :=
  inferInstanceAs (Decidable (∀ r ∈ service.store.records.rows, _ → ∃ l ∈ service.leases.all, r.id ∈ l.dnsRecords))

/-- A server for the names of one hosted zone, with no leases. -/
def home : Service where
  store :=
    { ZoneStore.empty with
      zones := Table.empty.insert (fun id =>
        { id, name := "home.arpa", primaryNs := "ns.home.arpa", adminMailbox := "admin.home.arpa", serial := 1,
          enabled := true, refresh := 7200, retry := 3600, expire := 1209600, minimum := 300, createdAt := 0,
          lastModifiedAt := 0 }) (fun _ => rfl) }
  saved := .empty
  leases := .new []
  dnsZone := "home.arpa"

/-- A device that sends its host name takes an address, and its name is registered. -/
def leasesName : List ServiceEvent :=
  [.v4 V4.lan (V4.clientMessage .request 1 [.requestedIpAddress 0x0A000002#32, .hostname "pc"]),
    .sweep 1 1 (fun _ => noFaults) .plain]

/-- Another device is offered the address once the lease has ended. -/
def offersAgain : ServiceEvent := .v4 (V4.lan.at 3601) (V4.clientMessage .discover 2 [])

/-- An offer made before the sweep that would have removed the names of the
ended lease leaves them behind. -/
theorem names_listed_fails :
    ¬ ∀ (hickory : Hickory) (start : Service) (events : List ServiceEvent),
      Always (serve hickory) (Listed start.store.records.next) start events ∧
        Each (serve hickory) (SweptClean hickory start.store.records.next) start events := by
  intro h
  have hlisted := (always_iff_prefixes _ _ _).mp (h .acceptAll home (leasesName ++ [offersAgain])).1 _ List.prefix_rfl
  revert hlisted
  decide

theorem names_listed_swept :
    Always (serve .acceptAll) (Listed home.store.records.next) home
        (leasesName ++ [.sweep 3601 3601 (fun _ => noFaults) .plain, offersAgain]) ∧
      Each (serve .acceptAll) (SweptClean .acceptAll home.store.records.next) home
        (leasesName ++ [.sweep 3601 3601 (fun _ => noFaults) .plain, offersAgain]) :=
  names_listed .acceptAll home _ (by decide)

end DaygleDns.Dhcp
