import DaygleDns.Dhcp.Held
import DaygleDns.Dhcp.ServiceSteps
import DaygleDns.Dhcp.V4Exclusive
import DaygleDns.Runs

/-! The saved rows and the lease table, over every interleaving: what a restart
would lose. -/
namespace DaygleDns.Dhcp

open Text Authoritative Leases Runs

/-- The table on disk is the one in memory, also once it is loaded again. -/
def Matches (running : Running) : Prop :=
  running.sweeping = none → running.deletions = [] → running.service.leases.changed.rows = [] →
    running.service.saved = running.service.leases.byAddress ∧
      (Leases.new running.service.saved.rows).byAddress = running.service.leases.byAddress

/-- The lease on the address is still to be written out. -/
def Pending (running : Running) (a : IpAddr) : Prop :=
  a ∈ running.service.leases.changed.rows ∨
    ∃ sweep ∈ running.sweeping, a ∈ sweep.changes ∧ a ∈ sweep.lookAt

/-- When a deletion deletes the row, no saved lease stands on the address again,
and the change that it forgets in the end has nothing left to write. -/
def Undisturbed (running : Running) : Act → Prop
  | .deleteOn i =>
      ∀ deletion ∈ running.deletions[i]?, deletion.work.isDone →
        (deletion.rowDeleted = false →
          running.service.leases.get deletion.address = none ∨ Pending running deletion.address) ∧
        (deletion.rowDeleted = true → running.sweeping = none →
          deletion.address ∈ running.service.leases.changed.rows →
            running.service.saved.get deletion.address = running.service.leases.get deletion.address)
  | _ => True

/-! The work on the names of a lease gives back a lease on the same address. -/

theorem unregisterTask_ends {good : Bool × DhcpLease → Prop} {stamp : Time} {lease : DhcpLease}
    (h : ∀ removed, good (removed, { lease with dnsName := [], dnsRecords := [] })) :
    (unregisterTask stamp lease).Ends good := by
  apply Task.ends_bind_of_forall
  intro _
  exact h _

theorem registerTask_ends (hickory : Hickory) (stamp : Time) (zone name : Text) (lease : DhcpLease) (ours : List Uuid) :
    (registerTask hickory stamp zone name lease ours).Ends fun r => r.2.address = lease.address := by
  apply Task.ends_bind_of_forall
  intro added
  cases added with
  | error e => exact rfl
  | ok id =>
    apply Task.ends_bind_of_forall
    intro pointer
    cases pointer <;> exact rfl

theorem renameTask_ends (hickory : Hickory) (stamp : Time) (zone : Text) (ours : List Uuid) (lease : DhcpLease)
    (wanted : Option Text) :
    (renameTask hickory stamp zone ours lease wanted).Ends fun r => r.lease.address = lease.address := by
  apply Task.ends_bind
  apply unregisterTask_ends
  intro removed
  cases wanted with
  | none => exact rfl
  | some name =>
    apply Task.ends_bind
    refine (registerTask_ends hickory stamp zone name _ _).mono fun r hr => ?_
    obtain ⟨result, left⟩ := r
    cases result <;> exact hr

theorem bringInLineTask_ends (hickory : Hickory) (stamp : Time) (zone : Text) (ours : List Uuid) (lease : DhcpLease) :
    (bringInLineTask hickory stamp zone ours lease).Ends fun r => r.lease.address = lease.address := by
  unfold bringInLineTask
  simp only
  split
  all_goals
    apply Task.ends_bind_of_forall
    intro inPlace
    cases inPlace with
    | true => exact rfl
    | false => exact renameTask_ends hickory stamp zone ours lease _

/-- A deletion is about to delete the row of an address without a lease. -/
def Doomed (running : Running) (a : IpAddr) : Prop :=
  running.service.leases.get a = none ∧
    ∃ deletion ∈ running.deletions, deletion.address = a ∧ deletion.rowDeleted = false

/-- Where nothing is to be written out and no row is to be deleted, row and lease agree. -/
structure Kept (running : Running) : Prop where
  rows : ∀ a, Pending running a ∨ running.service.saved.get a = running.service.leases.get a ∨ Doomed running a
  work : ∀ sweep ∈ running.sweeping, ∀ task ∈ sweep.work, ∀ address ∈ sweep.lookAt.head?,
    task.Ends fun r => r.lease.address = address

theorem matches_of_kept {running : Running} (h : Kept running) : Matches running := by
  intro hsweeping hdeletions hchanged
  have hsame : running.service.saved = running.service.leases.byAddress := by
    apply OrderedTable.ext_get
    intro a
    rcases h.rows a with hpending | hsame | hdoomed
    · simp [Pending, hchanged, hsweeping] at hpending
    · exact hsame
    · simp [Doomed, hdeletions] at hdoomed
  refine ⟨hsame, ?_⟩
  rw [hsame]
  exact OrderedTable.putAll_rows _

theorem kept_start (store : ZoneStore) (saved : LeaseTable) (dnsZone : Text) :
    Kept (.start store saved dnsZone) := by
  constructor
  · intro a
    refine .inr (.inl ?_)
    have hload : (Leases.new saved.rows).byAddress = saved := OrderedTable.putAll_rows saved
    exact congrArg (OrderedTable.get · a) hload.symm
  · intro sweep hsweep
    cases hsweep

/-- A step that records what it changes, and takes no work or deletion away. -/
theorem kept_onLeases {running after : Running} {leases : Leases} (h : Kept running)
    (hservice : after.service = { running.service with leases }) (hsweeping : after.sweeping = running.sweeping)
    (hdeletions : ∀ deletion ∈ running.deletions, deletion ∈ after.deletions)
    (hrecorded : Recorded running.service.leases leases) : Kept after := by
  constructor
  · intro a
    by_cases hget : leases.get a = running.service.leases.get a
    · rcases h.rows a with hpending | hsame | ⟨hnone, deletion, hdeletion, hdeleted⟩
      · refine .inl ?_
        rw [Pending, hservice, hsweeping]
        exact hpending.imp_left (hrecorded.grows a)
      · rw [hservice]
        exact .inr (.inl (hsame.trans hget.symm))
      · refine .inr (.inr ⟨?_, deletion, hdeletions deletion hdeletion, hdeleted⟩)
        rw [hservice]
        exact hget.trans hnone
    · refine .inl (.inl ?_)
      rw [hservice]
      exact hrecorded.noted a hget
  · rw [hsweeping]
    exact h.work

theorem kept_sweep {running : Running} (h : Kept running) (hfree : running.sweeping = none) (now : Int) (stamp : Time)
    (order : HashOrder) : Kept (running.sweep now stamp order) := by
  have hrecorded := recorded_expire running.service.leases now
  constructor
  · intro a
    have hexpired : a ∈ (running.service.leases.expire now).changed.rows ∨
        running.service.saved.get a = (running.service.leases.expire now).get a ∨
        (running.service.leases.expire now).get a = none ∧
          ∃ deletion ∈ running.deletions, deletion.address = a ∧ deletion.rowDeleted = false := by
      by_cases hget : (running.service.leases.expire now).get a = running.service.leases.get a
      · rw [hget]
        rcases h.rows a with hpending | hsame | hdoomed
        · simp only [Pending, hfree, Option.mem_def, reduceCtorEq, false_and, exists_false, or_false] at hpending
          exact .inl (hrecorded.grows a hpending)
        · exact .inr (.inl hsame)
        · exact .inr (.inr hdoomed)
      · exact .inl (hrecorded.noted a hget)
    rcases hexpired with hchanged | hsame | hdoomed
    · exact .inl (.inr ⟨_, rfl, hchanged, mem_lookedAt order hchanged _ _⟩)
    · exact .inr (.inl hsame)
    · exact .inr (.inr hdoomed)
  · intro sweep hsweep task htask
    cases hsweep
    cases htask

/-- The first address has been looked at: its lease and row agree, or it was not
among the changes and nothing happened to it. -/
theorem kept_looked {running : Running} {sweep : Sweeping} {address : IpAddr} {rest : List IpAddr} (after : Service)
    (h : Kept running) (hsweep : running.sweeping = some sweep) (hlook : sweep.lookAt = address :: rest)
    (hothers : ∀ a, a ≠ address → after.saved.get a = running.service.saved.get a ∧
      after.leases.get a = running.service.leases.get a)
    (hchanged : after.leases.changed = running.service.leases.changed)
    (haddress : after.saved.get address = after.leases.get address ∨ address ∉ sweep.changes ∧ after = running.service)
    (ours : List Uuid) :
    Kept { running with service := after, sweeping := some { sweep with ours, lookAt := rest, work := none } } := by
  constructor
  · intro a
    have hold := h.rows a
    simp only [Pending, Doomed, hsweep, Option.mem_def, Option.some.injEq, exists_eq_left'] at hold ⊢
    by_cases ha : a = address
    · subst ha
      rcases haddress with hsame | ⟨hother, rfl⟩
      · exact .inr (.inl hsame)
      · rcases hold with (hchanged | ⟨hmem, _⟩) | hrest
        · exact .inl (.inl hchanged)
        · exact absurd hmem hother
        · exact .inr hrest
    · obtain ⟨hsaved, hget⟩ := hothers a ha
      rw [hsaved, hget, hchanged]
      refine hold.imp_left fun hpending => hpending.imp_right fun ⟨hmem, hlooked⟩ => ⟨hmem, ?_⟩
      rw [hlook] at hlooked
      exact (List.mem_cons.mp hlooked).resolve_left ha
  · intro other hother task htask
    cases hother
    cases htask

/-- Nothing but the names and the rest of the work has changed. -/
theorem kept_worked {running : Running} {sweep : Sweeping} {store : ZoneStore} {task : Task ZoneStore InLine}
    (h : Kept running) (hsweep : running.sweeping = some sweep)
    (htask : ∀ address ∈ sweep.lookAt.head?, task.Ends fun r => r.lease.address = address) :
    Kept { running with
      service := { running.service with store }
      sweeping := some { sweep with work := some task } } := by
  constructor
  · intro a
    have hold := h.rows a
    simpa only [Pending, Doomed, hsweep, Option.mem_def, Option.some.injEq, exists_eq_left'] using hold
  · intro other hother work hwork
    cases hother
    cases hwork
    exact htask

theorem kept_sweepOn (hickory : Hickory) {running : Running} (h : Kept running) :
    Kept (running.sweepOn hickory) := by
  unfold Running.sweepOn
  cases hsweep : running.sweeping with
  | none => exact h
  | some sweep =>
    have hwork := h.work sweep hsweep
    simp only
    split
    next hnone =>
      constructor
      · intro a
        have hold := h.rows a
        simpa only [Pending, Doomed, hsweep, hnone, Option.mem_def, Option.some.injEq, exists_eq_left',
          List.not_mem_nil, and_false, or_false, reduceCtorEq, false_and, exists_false] using hold
      · intro other hother
        cases hother
    next address rest hlook =>
      have hhead : address ∈ sweep.lookAt.head? := by simp [hlook]
      split
      next hidle =>
        split
        next hget =>
          have hlooked := kept_looked { running.service with saved := running.service.saved.erase address }
            h hsweep hlook ?_ rfl ?_ sweep.ours
          · simpa only [hidle] using hlooked
          · exact fun a ha => ⟨by rw [OrderedTable.get_erase, if_neg ha], rfl⟩
          · exact .inl (by rw [OrderedTable.get_erase, if_pos rfl]; exact hget.symm)
        next lease hget =>
          refine kept_worked h hsweep fun other hother => ?_
          have hsame : other = address := Option.some.inj (hother.symm.trans hhead)
          rw [hsame, ← address_of_get hget]
          exact bringInLineTask_ends hickory sweep.stamp sweep.zone sweep.ours lease
      next write next hcall =>
        exact kept_worked h hsweep fun other hother => hwork _ hcall other hother running.service.store
      next inLine hdone =>
        have hends : inLine.lease.address = address := hwork _ hdone address hhead
        apply kept_looked _ h hsweep hlook
        · intro a ha
          split
          · have hne : inLine.lease.address ≠ a := fun hsame => ha (hsame.symm.trans hends)
            exact ⟨by rw [OrderedTable.get_put, if_neg hne], by rw [get_restore, if_neg hne]⟩
          · exact ⟨rfl, rfl⟩
        · split <;> rfl
        · split
          · exact .inl (by rw [OrderedTable.get_put, get_restore, if_pos hends, if_pos hends])
          next hskipped =>
            refine .inr ⟨fun hmem => hskipped ?_, rfl⟩
            simp [hmem]

theorem kept_delete {running : Running} (h : Kept running) (stamp : Time) (address : IpAddr) :
    Kept (running.delete stamp address) := by
  unfold Running.delete
  cases running.service.leases.get address with
  | none => exact h
  | some lease =>
    exact kept_onLeases h rfl rfl (fun _ hmem => List.mem_append_left _ hmem) (recorded_remove _ address)

theorem mem_set_of_ne {α : Type} {items : List α} {i : Nat} {item old : α} (new : α) (h : item ∈ items)
    (hold : items[i]? = some old) (hne : item ≠ old) : item ∈ items.set i new := by
  obtain ⟨j, hj⟩ := List.mem_iff_getElem?.mp h
  have hij : i ≠ j := by
    rintro rfl
    exact hne (Option.some.inj (hj.symm.trans hold))
  refine List.mem_iff_getElem?.mpr ⟨j, ?_⟩
  rw [List.getElem?_set_ne hij, hj]

theorem mem_eraseIdx_of_ne {α : Type} {items : List α} {i : Nat} {item old : α} (h : item ∈ items)
    (hold : items[i]? = some old) (hne : item ≠ old) : item ∈ items.eraseIdx i := by
  obtain ⟨j, hj⟩ := List.mem_iff_getElem?.mp h
  refine List.mem_eraseIdx_iff_getElem?.mpr ⟨j, ?_, hj⟩
  rintro rfl
  exact hne (Option.some.inj (hj.symm.trans hold))

theorem kept_deleteOn {running : Running} {i : Nat} (h : Kept running) (hcalm : Undisturbed running (.deleteOn i)) :
    Kept (running.deleteOn i) := by
  unfold Running.deleteOn
  cases hdeletion : running.deletions[i]? with
  | none => exact h
  | some deletion =>
    have hcalm := hcalm deletion hdeletion
    have hmem : deletion ∈ running.deletions := List.mem_of_getElem? hdeletion
    simp only
    split
    next write next hcall =>
      refine ⟨fun a => ?_, h.work⟩
      refine (h.rows a).imp_right (Or.imp_right fun ⟨hnone, other, hother, haddress, hdeleted⟩ => ⟨hnone, ?_⟩)
      by_cases hsame : other = deletion
      · have hlt := (List.getElem?_eq_some_iff.mp hdeletion).1
        exact ⟨_, List.mem_set hlt _, hsame ▸ haddress, hsame ▸ hdeleted⟩
      · exact ⟨other, mem_set_of_ne _ hother hdeletion hsame, haddress, hdeleted⟩
    next result hdone =>
      have hfinished : deletion.work.isDone := by rw [hdone]; rfl
      obtain ⟨hrow, hforget⟩ := hcalm hfinished
      split
      next hdeleted =>
        have hdeleted : deletion.rowDeleted = false := by simpa using hdeleted
        refine ⟨fun a => ?_, h.work⟩
        by_cases ha : a = deletion.address
        · rcases hrow hdeleted with hnone | hpending
          · refine .inr (.inl ?_)
            rw [OrderedTable.get_erase, if_pos ha, ha]
            exact hnone.symm
          · exact .inl (ha ▸ hpending)
        · rw [OrderedTable.get_erase, if_neg ha]
          refine (h.rows a).imp_right (Or.imp_right fun ⟨hnone, other, hother, haddress, hrest⟩ => ⟨hnone, other, ?_, haddress, hrest⟩)
          refine mem_set_of_ne _ hother hdeletion fun hsame => ha ?_
          rw [← haddress, hsame]
      next hdeleted =>
        have hdeleted : deletion.rowDeleted = true := by simpa using hdeleted
        split
        next => exact h
        next hfree =>
          have hfree : running.sweeping = none := by simpa using hfree
          refine ⟨fun a => ?_, h.work⟩
          have hold := h.rows a
          simp only [Pending, Doomed, hfree, Option.mem_def, reduceCtorEq, false_and, exists_false, or_false,
            Running.onLeases, get_forgetChange] at hold ⊢
          have hdoomed : (∃ other ∈ running.deletions, other.address = a ∧ other.rowDeleted = false) →
              ∃ other ∈ running.deletions.eraseIdx i, other.address = a ∧ other.rowDeleted = false := by
            rintro ⟨other, hother, haddress, hrest⟩
            refine ⟨other, mem_eraseIdx_of_ne hother hdeletion ?_, haddress, hrest⟩
            rintro rfl
            rw [hdeleted] at hrest
            cases hrest
          rcases hold with hchanged | hsame | ⟨hnone, hdoom⟩
          · by_cases ha : a = deletion.address
            · exact .inr (.inl (ha ▸ hforget hdeleted hfree (ha ▸ hchanged)))
            · exact .inl (OrderedTable.mem_erase.mpr ⟨ha, hchanged⟩)
          · exact .inr (.inl hsame)
          · exact .inr (.inr ⟨hnone, hdoomed hdoom⟩)

theorem kept_step (hickory : Hickory) (running : Running) (act : Act) (h : Kept running)
    (hcalm : Undisturbed running act) : Kept (running.step hickory act) := by
  cases act with
  | sweepOn => exact kept_sweepOn hickory h
  | deleteOn i => exact kept_deleteOn h hcalm
  | v4 ctx msg =>
    simp only [Running.step]
    split
    · exact h
    · exact kept_onLeases h rfl rfl (fun _ hmem => hmem) (V4.recorded_handle ctx msg _)
  | v6 ctx msg =>
    simp only [Running.step]
    split
    · exact h
    · exact kept_onLeases h rfl rfl (fun _ hmem => hmem) (V6.recorded_handle ctx msg _)
  | sweep now stamp order =>
    simp only [Running.step]
    split
    next => exact h
    next hfree => exact kept_sweep h (by simpa using hfree) now stamp order
  | delete stamp address =>
    simp only [Running.step]
    split
    · exact h
    · exact kept_delete h stamp address

/-- While no deletion undoes what was put or saved on its address meanwhile, the
saved rows are the table whenever all is quiet. -/
theorem saved_matches (hickory : Hickory) (store : ZoneStore) (saved : LeaseTable) (dnsZone : Text) (acts : List Act)
    (hcalm : Each (Running.step hickory) Undisturbed (.start store saved dnsZone) acts) :
    Always (Running.step hickory) Matches (.start store saved dnsZone) acts :=
  always_mono (fun _ => matches_of_kept)
    (always_of_invariant Kept (kept_step hickory) acts (kept_start store saved dnsZone) hcalm)

instance (running : Running) : Decidable (Matches running) :=
  inferInstanceAs (Decidable (running.sweeping = none → running.deletions = [] →
    running.service.leases.changed.rows = [] → _ ∧ _))

instance (running : Running) (a : IpAddr) : Decidable (Pending running a) :=
  inferInstanceAs (Decidable (_ ∨ ∃ sweep ∈ running.sweeping, a ∈ sweep.changes ∧ a ∈ sweep.lookAt))

instance (running : Running) : ∀ act, Decidable (Undisturbed running act)
  | .deleteOn i => inferInstanceAs (Decidable (∀ deletion ∈ running.deletions[i]?, deletion.work.isDone → _ ∧ _))
  | .v4 _ _ | .v6 _ _ | .sweep _ _ _ | .sweepOn | .delete _ _ => inferInstanceAs (Decidable True)

/-- The lease of a device on the first address, as it was saved. -/
def savedLease : DhcpLease := lease (.v4 0x0A000002#32) "lan" "020000000001" "" "" .bound 3600

def deletesLease : Act := .delete 0 (.v4 0x0A000002#32)

/-- Another device takes the address. -/
def takesAddress : Act := .v4 (V4.lan.at 10) (V4.takesFirstAddress 2)

/-- A lease that is acknowledged while the one before is being deleted is never saved. -/
theorem saved_matches_fails :
    ¬ ∀ (hickory : Hickory) (store : ZoneStore) (saved : LeaseTable) (dnsZone : Text) (acts : List Act),
      Always (Running.step hickory) Matches (.start store saved dnsZone) acts := by
  intro h
  have hquiet := (always_iff_prefixes _ _ _).mp (h .acceptAll .empty (OrderedTable.empty.put savedLease) "home.arpa"
    [deletesLease, takesAddress, .deleteOn 0, .deleteOn 0]) _ List.prefix_rfl
  revert hquiet
  decide

theorem saved_matches_taken_later :
    Always (Running.step .acceptAll) Matches (.start .empty (OrderedTable.empty.put savedLease) "home.arpa")
      [deletesLease, .deleteOn 0, .deleteOn 0, takesAddress, .sweep 11 11 .plain, .sweepOn, .sweepOn, .sweepOn] :=
  saved_matches .acceptAll .empty (OrderedTable.empty.put savedLease) "home.arpa" _ (by decide)

end DaygleDns.Dhcp
