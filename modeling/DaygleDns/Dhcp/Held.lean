import DaygleDns.Dhcp.Carried
import DaygleDns.Dhcp.Changes
import DaygleDns.Dhcp.DdnsFacts
import DaygleDns.Dhcp.Service

/-! A record is held while a lease lists it; a lease that is no longer bound is
looked at by the next sweep. -/
namespace DaygleDns.Dhcp

open Text Authoritative Leases

/-- No record of the lease fails to be deleted. -/
def Deletable (faults : DdnsFaults) (l : DhcpLease) : Prop :=
  ∀ id ∈ l.dnsRecords, faults (.deleteRecord id) = none

/-- The later listings of a registration do not fail, or the lease is saved anyway. -/
def Saves (faults : DdnsFaults) (changed : Prop) (l : DhcpLease) : Prop :=
  faults .listZones = none ∧ faults .listReverse = none ∨ changed ∨ l.dnsRecords ≠ [] ∨ l.dnsName ≠ []

/-- A sweep drops no lease that has records, and fails at no call that would lose one. -/
def KeepsSweep (now : Int) (faults : IpAddr → DdnsFaults) (service : Service) : Prop :=
  ∀ l ∈ service.leases.all,
    (afterExpiry now l = none → Bare service.store l) ∧
    ∀ l' ∈ afterExpiry now l, Deletable (faults l.address) l ∧
      Saves (faults l.address) (l.address ∈ service.leases.changed.rows ∨ l' ≠ l) l

variable {store : ZoneStore} {leases : Leases}

/-- Every record from `base` on has its zone, and a lease that lists it. The
leases that are not bound are among those to be looked at. -/
def Held (base : Uuid) (store : ZoneStore) (leases : Leases) (pending : IpAddr → Prop) : Prop :=
  ∀ r ∈ store.records.rows, base ≤ r.id → (store.getZone r.zoneId).isSome ∧
    ∃ l, leases.get l.address = some l ∧ r.id ∈ l.dnsRecords ∧ l.state ≠ .offered ∧
      (l.state = .bound ∨ pending l.address)

variable {base : Uuid} {pending : IpAddr → Prop}

theorem Held.housed (h : Held base store leases pending) : Housed base store :=
  fun r hr hbase => (h r hr hbase).1

theorem not_bare_of_mem {r : Record} {l : DhcpLease} (hr : r ∈ store.records.rows) (hid : r.id ∈ l.dnsRecords) :
    ¬Bare store l := by
  intro hbare
  have hfind := (store.records.find?_eq_some_iff r.id r).mpr ⟨hr, rfl⟩
  have hnone : store.records.find? r.id = none := hbare r.id hid
  rw [hfind] at hnone
  cases hnone

theorem Held.of_carries {before after : Leases} (h : Held base store before (· ∈ before.changed.rows))
    (hcarries : Carries store before after) (hrecorded : Recorded before after) :
    Held base store after (· ∈ after.changed.rows) := by
  intro r hr hbase
  obtain ⟨hzone, l, hget, hid, hstate, hpending⟩ := h r hr hbase
  obtain ⟨l', hget', hrecords, hstate'⟩ := hcarries l.address l hget (not_bare_of_mem hr hid) hstate
  have haddress := address_of_get hget'
  refine ⟨hzone, l', by rw [haddress, hget'], by rwa [hrecords], hstate', ?_⟩
  by_cases hsame : after.get l.address = before.get l.address
  · have hl : l' = l := Option.some.inj (hget'.symm.trans (hsame.trans hget))
    rw [hl]
    exact hpending.imp_right (hrecorded.grows _)
  · rw [haddress]
    exact .inr (hrecorded.noted _ hsame)

theorem Held.mono {other : IpAddr → Prop} (h : Held base store leases pending)
    (hsub : ∀ a, pending a → other a) : Held base store leases other := by
  intro r hr hbase
  obtain ⟨hzone, l, hget, hid, hstate, hpending⟩ := h r hr hbase
  exact ⟨hzone, l, hget, hid, hstate, hpending.imp_right (hsub _)⟩

/-- The records of a lease that is unregistered are gone. -/
theorem held_unregister {l : DhcpLease} {faults : DdnsFaults} (stamp : Time) (h : Held base store leases pending)
    (hget : leases.get l.address = some l) (hdeletable : Deletable faults l) :
    Shrunk store (unregister faults stamp store l).2.1 ∧
      ∀ r ∈ (unregister faults stamp store l).2.1.records.rows, base ≤ r.id →
        ((unregister faults stamp store l).2.1.getZone r.zoneId).isSome ∧ r.id ∉ l.dnsRecords ∧
          ∃ other, leases.get other.address = some other ∧ other.address ≠ l.address ∧ r.id ∈ other.dnsRecords ∧
            other.state ≠ .offered ∧ (other.state = .bound ∨ pending other.address) := by
  obtain ⟨hshrunk, hgone⟩ := @foldl_dropRecord faults stamp base l.dnsRecords store h.housed hdeletable
  refine ⟨hshrunk, fun r hr hbase => ?_⟩
  have hnot := hgone r hr hbase
  obtain ⟨hzone, other, hother, hid, hstate, hpending⟩ := h r (hshrunk.rows r hr) hbase
  refine ⟨hshrunk.zones _ hzone, hnot, other, hother, fun haddress => ?_, hid, hstate, hpending⟩
  have hsame : other = l := Option.some.inj (hother.symm.trans (haddress ▸ hget))
  exact hnot (hsame ▸ hid)

theorem held_deleteLease {service : Service} {stamp : Time} {faults : DdnsFaults} {address : IpAddr}
    (h : Held base service.store service.leases (· ∈ service.leases.changed.rows))
    (hdeletable : ∀ l ∈ service.leases.get address, Deletable faults l) :
    Held base (service.deleteLease stamp faults address).store (service.deleteLease stamp faults address).leases
      (· ∈ (service.deleteLease stamp faults address).leases.changed.rows) := by
  unfold Service.deleteLease
  cases hget : service.leases.get address with
  | none => exact h
  | some l =>
    have haddress := address_of_get hget
    obtain ⟨_, hrest⟩ := held_unregister stamp h (haddress ▸ hget) (hdeletable l hget)
    -- The witnesses stand on other addresses, whose changes stay recorded.
    have hremoved : Held base (unregister faults stamp service.store l).2.1 (service.leases.remove address)
        (fun a => a ∈ (service.leases.remove address).changed.rows ∧ a ≠ address) := by
      intro r hr hbase
      obtain ⟨hzone, _, other, hother, hne, hid, hstate, hpending⟩ := hrest r hr hbase
      have hne : other.address ≠ address := haddress ▸ hne
      refine ⟨hzone, other, (get_remove _ _ _).trans ((if_neg hne).trans hother), hid, hstate, ?_⟩
      exact hpending.imp_right fun hchanged => ⟨(recorded_remove _ _).grows _ hchanged, hne⟩
    simp only [Service.deleteRow]
    cases faults .deleteLease with
    | some e => exact hremoved.mono fun a ha => ha.1
    | none =>
      refine hremoved.mono fun a ha => ?_
      exact OrderedTable.mem_erase.mpr ⟨ha.2, ha.1⟩

/-- What renaming a lease does to the records: its old ones are gone, and new
ones are its own. -/
theorem held_rename (hickory : Hickory) {faults : DdnsFaults} {l : DhcpLease} (zone : Text) (ours : List Uuid)
    (wanted : Option Text) (stamp : Time) (h : Held base store leases pending)
    (hget : leases.get l.address = some l) (hdeletable : Deletable faults l) :
    let renamed := Service.rename hickory stamp faults zone store ours l wanted
    SameLease l renamed.lease ∧
      ∀ r ∈ renamed.store.records.rows, base ≤ r.id →
        (renamed.store.getZone r.zoneId).isSome ∧
          (r.id ∈ renamed.lease.dnsRecords ∧ wanted.isSome ∨
            ∃ other, leases.get other.address = some other ∧ other.address ≠ l.address ∧
              r.id ∈ other.dnsRecords ∧ other.state ≠ .offered ∧ (other.state = .bound ∨ pending other.address)) := by
  obtain ⟨_, hrest⟩ := held_unregister stamp h hget hdeletable
  cases wanted with
  | none =>
    refine ⟨⟨rfl, rfl⟩, fun r hr hbase => ?_⟩
    obtain ⟨hzone, _, hother⟩ := hrest r hr hbase
    exact ⟨hzone, .inr hother⟩
  | some name =>
    have hregister := register_grown hickory faults stamp (unregister faults stamp store l).2.1 zone name
      (unregister faults stamp store l).2.2 (ours.filter fun id => !l.dnsRecords.contains id)
    simp only [Service.rename]
    split
    all_goals
      rename_i heq
      have hsame := hregister.1
      have hgrown := hregister.2
      simp only [unregister] at hsame hgrown heq
      rw [heq] at hsame hgrown
      refine ⟨⟨hsame.address, hsame.state⟩, fun r hr hbase => ?_⟩
      rcases hgrown.rows r hr with hold | ⟨hid, hzone⟩
      · obtain ⟨hzone, _, hother⟩ := hrest r hold hbase
        exact ⟨hgrown.zones _ hzone, .inr hother⟩
      · exact ⟨hzone, .inl ⟨hid, rfl⟩⟩

/-- A lease that is not modified had no records, and got none. -/
theorem rename_unmodified {hickory : Hickory} {faults : DdnsFaults} {stamp : Time} {l : DhcpLease} {zone : Text}
    {ours : List Uuid} {wanted : Option Text}
    (h : (Service.rename hickory stamp faults zone store ours l wanted).modified = false)
    (hsaves : faults .listZones = none ∧ faults .listReverse = none ∨ l.dnsRecords ≠ [] ∨ l.dnsName ≠ []) :
    (Service.rename hickory stamp faults zone store ours l wanted).store = store ∧ l.dnsRecords = [] := by
  have hempty (h : (unregister faults stamp store l).1 = false) :
      (unregister faults stamp store l).2.1 = store ∧ l.dnsRecords = [] ∧ l.dnsName = [] := by
    simp only [unregister, Bool.or_eq_false_iff, Bool.not_eq_false', List.isEmpty_iff] at h
    refine ⟨?_, h.1, h.2⟩
    simp only [unregister, h.1, List.foldl_nil]
  unfold Service.rename at h ⊢
  cases wanted with
  | none => exact ⟨(hempty h).1, (hempty h).2.1⟩
  | some name =>
    simp only at h ⊢
    split at h
    next => cases h
    next e after left heq =>
      obtain ⟨hstore, hrecords, hname⟩ := hempty h
      have hzones : faults .listZones = none ∧ faults .listReverse = none := by
        rcases hsaves with hsaves | hsaves | hsaves
        · exact hsaves
        · exact absurd hrecords hsaves
        · exact absurd hname hsaves
      exact ⟨(register_error hzones.1 hzones.2 heq).trans hstore, hrecords⟩

section Sweeping

variable {hickory : Hickory} {stamp : Time} {zone : Text} {changes : List IpAddr} {address : IpAddr}

open Service

/-- The one lease that a look at its address may change. -/
theorem get_lookAt (hickory : Hickory) (stamp : Time) (faults : DdnsFaults) (zone : Text) (changes : List IpAddr)
    (sweep : Sweep) {l : DhcpLease} (hget : sweep.service.leases.get address = some l)
    (hsame : SameLease l (bringInLine hickory stamp faults zone sweep.service.store sweep.ours l).lease) (a : IpAddr) :
    (lookAt hickory stamp faults zone changes sweep address).service.leases.get a =
      if a = address ∧
          ((bringInLine hickory stamp faults zone sweep.service.store sweep.ours l).modified ∨ address ∈ changes) then
        some (bringInLine hickory stamp faults zone sweep.service.store sweep.ours l).lease
      else sweep.service.leases.get a := by
  have haddress := hsame.address.trans (address_of_get hget)
  have hkept : ((bringInLine hickory stamp faults zone sweep.service.store sweep.ours l).modified ||
      changes.contains address) = true ↔
      ((bringInLine hickory stamp faults zone sweep.service.store sweep.ours l).modified ∨ address ∈ changes) := by
    simp
  unfold lookAt
  simp only [hget, hkept]
  split
  next hsaved =>
    rw [get_restore, haddress]
    by_cases ha : a = address
    · simp [ha, hsaved]
    · simp [ha, Ne.symm ha]
  next hskipped => simp [hskipped]

theorem store_lookAt {faults : DdnsFaults} {sweep : Sweep} {l : DhcpLease}
    (hget : sweep.service.leases.get address = some l) :
    (lookAt hickory stamp faults zone changes sweep address).service.store =
      (bringInLine hickory stamp faults zone sweep.service.store sweep.ours l).store := by
  unfold lookAt
  simp only [hget]
  split
  · unfold putRow
    split <;> rfl
  · rfl

theorem rename_same (hickory : Hickory) (stamp : Time) (faults : DdnsFaults) (zone : Text) (store : ZoneStore)
    (ours : List Uuid) (l : DhcpLease) (wanted : Option Text) :
    SameLease l (rename hickory stamp faults zone store ours l wanted).lease := by
  cases wanted with
  | none => exact ⟨rfl, rfl⟩
  | some name =>
    have hsame := (register_grown hickory faults stamp (unregister faults stamp store l).2.1 zone name
      (unregister faults stamp store l).2.2 (ours.filter fun id => !l.dnsRecords.contains id)).1
    simp only [rename]
    split
    all_goals
      rename_i heq
      simp only [unregister] at hsame heq
      rw [heq] at hsame
      exact ⟨hsame.address, hsame.state⟩

theorem bringInLine_same (hickory : Hickory) (stamp : Time) (faults : DdnsFaults) (zone : Text) (store : ZoneStore)
    (ours : List Uuid) (l : DhcpLease) :
    SameLease l (bringInLine hickory stamp faults zone store ours l).lease := by
  unfold bringInLine
  simp only
  split
  · exact ⟨rfl, rfl⟩
  · exact rename_same hickory stamp faults zone store ours l _

theorem bound_of_wantedName {l : DhcpLease} (h : (wantedName l zone).isSome) : l.state = .bound := by
  unfold wantedName at h
  simp only at h
  split at h
  next hwanted => simpa using (Bool.and_eq_true_iff.mp hwanted).2
  next => cases h

/-- A lease that was looked at is bound, or has no record left. -/
theorem held_lookAt {faults : DdnsFaults} {sweep : Sweep} {rest : List IpAddr}
    (h : Held base sweep.service.store sweep.service.leases (· ∈ address :: rest))
    (hsafe : ∀ l, sweep.service.leases.get address = some l →
      Deletable faults l ∧ Saves faults (address ∈ changes) l) :
    Held base (lookAt hickory stamp faults zone changes sweep address).service.store
      (lookAt hickory stamp faults zone changes sweep address).service.leases (· ∈ rest) := by
  cases hget : sweep.service.leases.get address with
  | none =>
    have hstay : Held base sweep.service.store sweep.service.leases (· ∈ rest) := by
      intro r hr hbase
      obtain ⟨hhoused, l, hl, hid, hstate, hpending⟩ := h r hr hbase
      refine ⟨hhoused, l, hl, hid, hstate, hpending.imp_right fun hmem => ?_⟩
      apply (List.mem_cons.mp hmem).resolve_left
      intro haddress
      rw [haddress, hget] at hl
      cases hl
    unfold lookAt deleteRow
    simp only [hget]
    cases faults .deleteLease <;> exact hstay
  | some l =>
    have haddress := address_of_get hget
    obtain ⟨hdeletable, hsaves⟩ := hsafe l hget
    have hsame := bringInLine_same hickory stamp faults zone sweep.service.store sweep.ours l
    have hlook := get_lookAt hickory stamp faults zone changes sweep hget hsame
    -- What stands on the other addresses stays there.
    have hkeep : ∀ other, sweep.service.leases.get other.address = some other → other.address ≠ address →
        (lookAt hickory stamp faults zone changes sweep address).service.leases.get other.address = some other := by
      intro other hother hne
      rw [hlook, if_neg (fun hboth => hne hboth.1), hother]
    have hstay (hgone : ∀ id ∈ l.dnsRecords, l.state = .bound ∧
          (lookAt hickory stamp faults zone changes sweep address).service.leases.get address = some l) :
        Held base sweep.service.store
          (lookAt hickory stamp faults zone changes sweep address).service.leases (· ∈ rest) := by
      intro r hr hbase
      obtain ⟨hhoused, other, hother, hid, hstate, hpending⟩ := h r hr hbase
      by_cases hne : other.address = address
      · have hl : other = l := Option.some.inj (hother.symm.trans (hne ▸ hget))
        subst hl
        obtain ⟨hbound, hlooked⟩ := hgone r.id hid
        exact ⟨hhoused, other, hne ▸ hlooked, hid, hstate, .inl hbound⟩
      · exact ⟨hhoused, other, hkeep other hother hne, hid, hstate,
          hpending.imp_right fun hmem => (List.mem_cons.mp hmem).resolve_left hne⟩
    rw [store_lookAt hget]
    by_cases hplace : wantedName l zone = some l.dnsName ∧ registered faults sweep.service.store l
    · have hin : bringInLine hickory stamp faults zone sweep.service.store sweep.ours l =
          ⟨false, sweep.service.store, l, sweep.ours⟩ := by
        unfold bringInLine
        simp [hplace]
      rw [hin] at hlook ⊢
      apply hstay
      intro _ _
      refine ⟨bound_of_wantedName (by rw [hplace.1]; rfl), ?_⟩
      rw [hlook, hget, ite_self]
    · have hin : bringInLine hickory stamp faults zone sweep.service.store sweep.ours l =
          rename hickory stamp faults zone sweep.service.store sweep.ours l (wantedName l zone) := by
        unfold bringInLine
        simp only
        rw [if_neg]
        simpa using hplace
      rw [hin] at hlook hsame ⊢
      by_cases hsaved : (rename hickory stamp faults zone sweep.service.store sweep.ours l
          (wantedName l zone)).modified ∨ address ∈ changes
      · obtain ⟨_, hrest⟩ := held_rename hickory zone sweep.ours (wantedName l zone) stamp h (haddress ▸ hget) hdeletable
        intro r hr hbase
        obtain ⟨hhoused, hown | ⟨other, hother, hne, hid, hstate, hpending⟩⟩ := hrest r hr hbase
        · have hnew := hlook address
          rw [if_pos ⟨rfl, hsaved⟩] at hnew
          have hbound := hsame.state.trans (bound_of_wantedName hown.2)
          refine ⟨hhoused, _, ?_, hown.1, by simp [hbound], .inl hbound⟩
          rw [hsame.address, haddress, hnew]
        · have hne : other.address ≠ address := haddress ▸ hne
          exact ⟨hhoused, other, hkeep other hother hne, hid, hstate,
            hpending.imp_right fun hmem => (List.mem_cons.mp hmem).resolve_left hne⟩
      · have hunmodified : (rename hickory stamp faults zone sweep.service.store sweep.ours l
            (wantedName l zone)).modified = false := by simpa using fun hmod => hsaved (.inl hmod)
        obtain ⟨hstore, hnone⟩ := rename_unmodified hunmodified
          (hsaves.imp_right fun hor => hor.resolve_left fun hmem => hsaved (.inr hmem))
        rw [hstore]
        apply hstay
        intro id hid
        rw [hnone] at hid
        cases hid

theorem get_lookAt_of_ne (hickory : Hickory) (stamp : Time) (faults : DdnsFaults) (zone : Text) (changes : List IpAddr)
    (sweep : Sweep) {a : IpAddr} (hne : a ≠ address) :
    (lookAt hickory stamp faults zone changes sweep address).service.leases.get a = sweep.service.leases.get a := by
  cases hget : sweep.service.leases.get address with
  | none =>
    unfold lookAt deleteRow
    simp only [hget]
    cases faults .deleteLease <;> rfl
  | some l =>
    rw [get_lookAt hickory stamp faults zone changes sweep hget (bringInLine_same ..), if_neg fun hboth => hne hboth.1]

theorem held_lookAll {faults : IpAddr → DdnsFaults} (addresses : List IpAddr) (hnodup : addresses.Nodup) {sweep : Sweep}
    (h : Held base sweep.service.store sweep.service.leases (· ∈ addresses))
    (hsafe : ∀ a ∈ addresses, ∀ l, sweep.service.leases.get a = some l →
      Deletable (faults a) l ∧ Saves (faults a) (a ∈ changes) l) :
    let swept := addresses.foldl (fun sweep a => lookAt hickory stamp (faults a) zone changes sweep a) sweep
    Held base swept.service.store swept.service.leases fun _ => False := by
  induction addresses generalizing sweep with
  | nil => exact h.mono fun a ha => absurd ha List.not_mem_nil
  | cons address rest ih =>
    obtain ⟨hnot, hrest⟩ := List.nodup_cons.mp hnodup
    refine ih hrest (held_lookAt h (hsafe address List.mem_cons_self)) fun a ha l hget => ?_
    rw [get_lookAt_of_ne] at hget
    · exact hsafe a (List.mem_cons_of_mem _ ha) l hget
    · intro haddress
      exact hnot (haddress ▸ ha)

theorem nodup_lookedAt (order : HashOrder) {changes : List IpAddr} (hnodup : changes.Nodup) (zone : Text)
    (leases : Leases) : (lookedAt order changes zone leases).Nodup := by
  unfold lookedAt
  rw [List.filter_filter]
  apply List.Nodup.append
  · exact (order.perm changes).nodup_iff.mpr hnodup
  · exact nodup_map_address leases _
  · intro a hchange hother
    obtain ⟨l, hl, rfl⟩ := List.mem_map.mp hother
    have hfilter := (List.mem_filter.mp hl).2
    have hmem := (order.perm changes).mem_iff.mp hchange
    simp [hmem] at hfilter

theorem mem_lookedAt (order : HashOrder) {a : IpAddr} (h : a ∈ changes) (zone : Text) (leases : Leases) :
    a ∈ lookedAt order changes zone leases :=
  List.mem_append_left _ ((order.perm changes).mem_iff.mpr h)

theorem afterExpiry_same {now : Int} {l l' : DhcpLease} (h : afterExpiry now l = some l') :
    l' = l ∨ l' = Change.lapse.apply l := by
  unfold afterExpiry lapsed at h
  grind

/-- After a sweep no record is left to be looked at. -/
theorem held_sweep {now : Int} {faults : IpAddr → DdnsFaults} {service : Service} (order : HashOrder)
    (h : Held base service.store service.leases (· ∈ service.leases.changed.rows))
    (hkeeps : KeepsSweep now faults service) :
    Held base (service.sweep hickory now stamp faults order).store (service.sweep hickory now stamp faults order).leases
      fun _ => False := by
  have hexpired : Held base service.store (service.leases.expire now) (· ∈ (service.leases.expire now).changed.rows) :=
    h.of_carries (carries_expire fun l hl => (hkeeps l hl).1) (recorded_expire service.leases now)
  have hnodup : (service.leases.expire now).changed.rows.Nodup := by
    simpa using (service.leases.expire now).changed.nodup_keys
  apply held_lookAll _ (nodup_lookedAt order hnodup _ _)
  · exact hexpired.mono fun a ha => mem_lookedAt order ha _ _
  · intro a _ l' hget'
    have hget' : (service.leases.expire now).get a = some l' := hget'
    have hbefore := get_expire service.leases now a
    rw [hget'] at hbefore
    obtain ⟨l, hget, hafter⟩ := Option.bind_eq_some_iff.mp hbefore.symm
    have haddress := address_of_get hget
    obtain ⟨hdeletable, hsaves⟩ := (hkeeps l (mem_all_iff.mpr (haddress ▸ hget))).2 l' hafter
    have hchanged : l.address ∈ service.leases.changed.rows ∨ l' ≠ l → a ∈ (service.leases.expire now).changed.rows := by
      rintro (hmem | hne)
      · exact (recorded_expire service.leases now).grows a (haddress ▸ hmem)
      · apply (recorded_expire service.leases now).noted a
        rw [hget', hget]
        simpa using hne
    rw [haddress] at hdeletable hsaves hchanged
    rcases afterExpiry_same hafter with rfl | rfl
    · exact ⟨hdeletable, hsaves.imp_right fun hor => hor.imp_left hchanged⟩
    · exact ⟨hdeletable, hsaves.imp_right fun hor => hor.imp_left hchanged⟩

end Sweeping

end DaygleDns.Dhcp
