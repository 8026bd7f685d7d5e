import DaygleDns.Authoritative.CompleteTransfers
import DaygleDns.Authoritative.NameFacts

/-! What a catalog's pass does to the zones the catalog does not own: nothing. -/
namespace DaygleDns.Authoritative

open Text Fallible Persist

/-- The NS record a zone named only by its name is created with. -/
def primaryNsRecord (name : Text) : RecordInput where
  name := "@"
  rtype := "NS"
  content := trimEndMatches '.' ("ns1." ++ name ++ ".") ++ ['.']
  ttl := 3600

theorem insertNs_congr {hickory : Hickory} {first second : ZoneStore} {zoneId otherId : Uuid}
    {zoneName name content : Text} {ttl : UInt32} {now : Time} {added : Record × ZoneStore}
    (h : insertRecordInTx hickory first zoneId zoneName { name, rtype := "NS", content, ttl } now = .ok added) :
    ∃ added, insertRecordInTx hickory second otherId zoneName
      { name, rtype := "NS", content, ttl } now = .ok added := by
  rcases added with ⟨record, after⟩
  rcases insertRecordInTx_eq_ok.mp h with ⟨⟨hknown, hname, stored, hcontent⟩, _, _⟩
  refine ⟨⟨_, _⟩, insertRecordInTx_eq_ok.mpr ⟨⟨hknown, hname, stored, ?_⟩, rfl, rfl⟩⟩
  have hns : toAsciiUppercase ("NS" : Text) = ("NS" : Text) := by decide
  dsimp only at hcontent ⊢
  rw [hns] at hcontent ⊢
  change checkRData _ _ _ _ _ _ _ = _ at hcontent
  change checkRData _ _ _ _ _ _ _ = _
  rcases checkRData_eq_ok.mp hcontent with ⟨hparse, hread, _, hstored⟩
  refine checkRData_eq_ok.mpr ⟨hparse, hread, ?_, hstored⟩
  intro haddress
  exact absurd haddress (by decide)

theorem createZone_iff {hickory : Hickory} {store : ZoneStore} {name : Text} {now : Time} :
    (∃ created, createZone hickory store { name } now = .ok created) ↔
      validateName (normalizeFqdn name) false = .ok () ∧
      (∀ entry ∈ store.zoneAliases, entry.name = normalizeFqdn name → store.getZone entry.zoneId = none) ∧
      (∀ zone ∈ store.zones.rows, zone.name ≠ normalizeFqdn name) ∧
      ∃ added, insertRecordInTx hickory .empty 0 (normalizeFqdn name)
        (primaryNsRecord (normalizeFqdn name)) now = .ok added := by
  unfold createZone
  simp only [throw_eq, pure_eq, error_bind, bind_eq_ok]
  constructor
  · rintro ⟨created, _, hname, h⟩
    split at h
    next => exact absurd h error_ne_ok
    next hnone =>
      rcases guard_eq_ok.mp h with ⟨hfresh, h⟩
      rcases bind_eq_ok.mp h with ⟨added, hinsert, _⟩
      refine ⟨hname, ?_, ?_, insertNs_congr hinsert⟩
      · intro entry hentry hsame
        have hmissing := List.findSome?_eq_none_iff.mp (Option.eq_none_iff_forall_ne_some.mpr hnone)
        simpa [hsame] using hmissing entry hentry
      · intro zone hzone hsame
        apply hfresh
        rw [List.any_eq_true]
        exact ⟨zone, hzone, beq_iff_eq.mpr hsame⟩
  · rintro ⟨hname, haliases, hfresh, added, hinsert⟩
    have hnone : (store.zoneAliases.findSome? fun entry =>
        if entry.name == normalizeFqdn name then store.getZone entry.zoneId else none) = none := by
      apply List.findSome?_eq_none_iff.mpr
      intro entry hentry
      by_cases hsame : entry.name = normalizeFqdn name
      · simp [hsame, haliases entry hentry hsame]
      · simp [hsame]
    have htaken : ¬ (store.zones.rows.any fun zone => zone.name == normalizeFqdn name) = true := by
      simpa using hfresh
    rw [hnone]
    rcases insertNs_congr hinsert with ⟨stored, hstored⟩
    exact ⟨_, (), hname, guard_eq_ok.mpr ⟨htaken, bind_eq_ok.mpr ⟨stored, hstored, rfl⟩⟩⟩

/-- What the creation of a zone adds. -/
structure Creates (store after : ZoneStore) (created : Zone) : Prop where
  id : created.id = store.zones.next
  zones : after.zones.rows = store.zones.rows ++ [created]
  records : ∃ record, record.zoneId = created.id ∧ after.records.rows = store.records.rows ++ [record]
  dnssecKeys : after.dnssecKeys = store.dnssecKeys
  zoneAliases : after.zoneAliases = store.zoneAliases
  secondaryZones : after.secondaryZones = store.secondaryZones
  zoneTransfers : after.zoneTransfers = store.zoneTransfers

theorem createZone_creates {hickory : Hickory} {store after : ZoneStore} {input : ZoneInput}
    {now : Time} {created : Zone} (h : createZone hickory store input now = .ok (created, after)) :
    Creates store after created := by
  unfold createZone at h
  simp only [throw_eq, pure_eq, error_bind, bind_eq_ok] at h
  rcases h with ⟨_, _, h⟩
  split at h
  next => exact absurd h error_ne_ok
  next =>
    rcases bind_eq_ok.mp (guard_eq_ok.mp h).2 with ⟨⟨record, grown⟩, hinsert, hcreated⟩
    cases hcreated
    have hsame := insertRecordInTx_same hinsert
    rcases insertRecordInTx_eq_ok.mp hinsert with ⟨_, hrecord, hgrown⟩
    refine ⟨rfl, ?_, ⟨record, ?_, ?_⟩, hsame.dnssecKeys, hsame.zoneAliases, hsame.secondaryZones,
      hsame.zoneTransfers⟩
    · rw [hsame.zones]
      rfl
    · rw [hrecord]
      rfl
    · rw [hgrown, hrecord]
      rfl

/-! A zone the catalog does not own. -/

/-- The zone is there as before, with all that is stored about it and how it is
refreshed. -/
structure ZoneKept (zone : Zone) (before after : CatalogState) : Prop where
  row : zone ∈ after.store.zones.rows
  records : (after.store.records.rows.filter fun record => record.zoneId == zone.id) =
    before.store.records.rows.filter fun record => record.zoneId == zone.id
  dnssecKeys : (after.store.dnssecKeys.rows.filter fun key => key.zoneId == zone.id) =
    before.store.dnssecKeys.rows.filter fun key => key.zoneId == zone.id
  zoneAliases : (after.store.zoneAliases.filter fun row => row.zoneId == zone.id) =
    before.store.zoneAliases.filter fun row => row.zoneId == zone.id
  secondaryZones : (after.store.secondaryZones.filter fun row => row.zoneId == zone.id) =
    before.store.secondaryZones.filter fun row => row.zoneId == zone.id
  zoneTransfers : (after.store.zoneTransfers.filter fun row => row.1 == zone.id) =
    before.store.zoneTransfers.filter fun row => row.1 == zone.id
  owner : ownerOf after.owners zone.id = ownerOf before.owners zone.id
  refreshed : (after.refreshed.filter fun config => eqIgnoreAsciiCase config.name zone.name) =
    before.refreshed.filter fun config => eqIgnoreAsciiCase config.name zone.name

theorem ZoneKept.refl {zone : Zone} {state : CatalogState} (h : zone ∈ state.store.zones.rows) :
    ZoneKept zone state state :=
  ⟨h, rfl, rfl, rfl, rfl, rfl, rfl, rfl⟩

theorem ZoneKept.trans {zone : Zone} {first second third : CatalogState}
    (h : ZoneKept zone first second) (h' : ZoneKept zone second third) : ZoneKept zone first third :=
  ⟨h'.row, h'.records.trans h.records, h'.dnssecKeys.trans h.dnssecKeys,
    h'.zoneAliases.trans h.zoneAliases, h'.secondaryZones.trans h.secondaryZones,
    h'.zoneTransfers.trans h.zoneTransfers, h'.owner.trans h.owner, h'.refreshed.trans h.refreshed⟩

theorem filter_map_same {α : Type} {rows : List α} {keep hit : α → Bool} {change : α → α}
    (hkeep : ∀ row, hit row = true → keep row = false ∧ keep (change row) = false) :
    (rows.map fun row => if hit row then change row else row).filter keep = rows.filter keep := by
  induction rows with
  | nil => rfl
  | cons row rows ih =>
    rw [List.map_cons]
    by_cases hhit : hit row = true
    · simp [hhit, hkeep row hhit, ih]
    · simp [hhit, List.filter_cons, ih]

theorem filter_filter_same {α : Type} {rows : List α} {keep drop : α → Bool}
    (h : ∀ row, keep row = true → drop row = true) :
    (rows.filter drop).filter keep = rows.filter keep := by
  rw [List.filter_filter]
  apply List.filter_congr
  intro row _
  by_cases hrow : keep row = true <;> simp [hrow, h row]

theorem setSecondary_kept {zone : Zone} {state : CatalogState} {zoneId : Uuid} (masters : List Text)
    (refreshSecs : Nat) (hzone : zone ∈ state.store.zones.rows) (hne : zoneId ≠ zone.id) :
    ZoneKept zone state { state with store := setSecondary state.store zoneId masters refreshSecs } := by
  have hkept := ZoneKept.refl hzone
  unfold setSecondary
  split
  · refine { hkept with secondaryZones := filter_map_same ?_ }
    intro row hrow
    have hid : row.zoneId = zoneId := beq_iff_eq.mp hrow
    simp [hid, hne]
  · refine { hkept with secondaryZones := ?_ }
    simp [hne]

theorem createZone_kept {hickory : Hickory} {state : CatalogState} {after : ZoneStore}
    {input : ZoneInput} {now : Time} {created zone : Zone}
    (h : createZone hickory state.store input now = .ok (created, after))
    (hzone : zone ∈ state.store.zones.rows) :
    ZoneKept zone state { state with store := after } ∧ created.id ≠ zone.id := by
  have hcreates := createZone_creates h
  have hne : created.id ≠ zone.id := by
    rw [hcreates.id]
    exact Nat.ne_of_gt (state.store.zones.below zone hzone)
  refine ⟨?_, hne⟩
  rcases hcreates.records with ⟨record, hrecord, hrecords⟩
  refine { ZoneKept.refl hzone with
    row := ?_, records := ?_, dnssecKeys := ?_, zoneAliases := ?_, secondaryZones := ?_,
    zoneTransfers := ?_ }
  · dsimp only
    rw [hcreates.zones]
    exact List.mem_append_left _ hzone
  · simp [hrecords, hrecord, hne]
  · rw [hcreates.dnssecKeys]
  · rw [hcreates.zoneAliases]
  · rw [hcreates.secondaryZones]
  · rw [hcreates.zoneTransfers]

theorem ownerOf_filter {owners : List (Uuid × Text)} {zoneId id : Uuid} (hne : zoneId ≠ id) :
    ownerOf (owners.filter fun row => row.1 != zoneId) id = ownerOf owners id := by
  unfold ownerOf
  rw [List.find?_filter]
  congr 2
  funext row
  by_cases hrow : row.1 = id <;> simp [hrow, Ne.symm hne]

theorem addOwner_kept {zone : Zone} {state : CatalogState} {zoneId : Uuid} (catalog : Text)
    (hzone : zone ∈ state.store.zones.rows) (hne : zoneId ≠ zone.id) :
    ZoneKept zone state { state with
      owners := (zoneId, catalog) :: state.owners.filter fun row => row.1 != zoneId } := by
  refine { ZoneKept.refl hzone with owner := ?_ }
  have hfirst : (zoneId == zone.id) = false := beq_eq_false_iff_ne.mpr hne
  refine Eq.trans ?_ (ownerOf_filter hne)
  unfold ownerOf
  rw [List.find?_cons, hfirst]

theorem filter_set_same {α : Type} {rows : List α} {keep : α → Bool} {i : Nat} {old new : α}
    (hold : rows[i]? = some old) (hkeep : keep old = false) (hkeep' : keep new = false) :
    (rows.set i new).filter keep = rows.filter keep := by
  induction rows generalizing i with
  | nil => rfl
  | cons row rows ih =>
    cases i with
    | zero =>
      cases hold
      simp [hkeep, hkeep']
    | succ i => simp [List.filter_cons, ih hold]

theorem setZone_kept {zone : Zone} {state : CatalogState} {config : SecondaryZoneConfig}
    (hzone : zone ∈ state.store.zones.rows) (hne : eqIgnoreAsciiCase config.name zone.name = false) :
    ZoneKept zone state (setZone config state) := by
  refine { ZoneKept.refl hzone with refreshed := ?_ }
  unfold setZone
  dsimp only
  split
  next i hi =>
    rcases List.findIdx?_eq_some_iff_getElem.mp hi with ⟨hlt, hsame, _⟩
    apply filter_set_same (List.getElem?_eq_getElem hlt) _ hne
    unfold eqIgnoreAsciiCase at hsame hne ⊢
    rw [beq_iff_eq.mp hsame]
    exact hne
  next => simp [hne]

theorem deleteMember_kept {zone : Zone} {state : CatalogState} {zoneId : Uuid}
    (hzone : zone ∈ state.store.zones.rows) (hne : zoneId ≠ zone.id) :
    ZoneKept zone state { state with
      store := deleteZone state.store zoneId
      owners := state.owners.filter fun row => row.1 != zoneId } := by
  have hother : ∀ id : Uuid, (id == zone.id) = true → (id != zoneId) = true := by
    intro id hid
    rw [beq_iff_eq.mp hid]
    exact bne_iff_ne.mpr (Ne.symm hne)
  refine ⟨?_, ?_, ?_, ?_, ?_, ?_, ?_, rfl⟩
  · exact List.mem_filter.mpr ⟨hzone, hother _ (beq_self_eq_true _)⟩
  · exact filter_filter_same fun record => hother record.zoneId
  · exact filter_filter_same fun key => hother key.zoneId
  · exact filter_filter_same fun row => hother row.zoneId
  · exact filter_filter_same fun row => hother row.zoneId
  · exact filter_filter_same fun row => hother row.1
  · exact ownerOf_filter hne

theorem removeZone_kept {zone : Zone} {state : CatalogState} {name : Text}
    (hzone : zone ∈ state.store.zones.rows) (hne : toAsciiLowercase name ≠ toAsciiLowercase zone.name) :
    ZoneKept zone state (removeZone name state) := by
  refine { ZoneKept.refl hzone with refreshed := filter_filter_same ?_ }
  intro config hconfig
  unfold eqIgnoreAsciiCase at hconfig ⊢
  rw [beq_iff_eq.mp hconfig]
  simpa using Ne.symm hne

/-! What the schema's constraints and the creation of zones see to. -/

structure Constrained (store : ZoneStore) : Prop where
  lower : ∀ zone ∈ store.zones.rows, toAsciiLowercase zone.name = zone.name
  names : Exclusive (fun first second => first.name = second.name) store.zones.rows
  aliases : ∀ entry ∈ store.zoneAliases, ∃ zone ∈ store.zones.rows, zone.id = entry.zoneId

theorem Constrained.eq_of_ignoreCase {store : ZoneStore} (h : Constrained store) {first second : Zone}
    (hfirst : first ∈ store.zones.rows) (hsecond : second ∈ store.zones.rows)
    (hsame : toAsciiLowercase first.name = toAsciiLowercase second.name) : first = second := by
  apply h.names first hfirst second hsecond
  rw [← h.lower first hfirst, ← h.lower second hsecond, hsame]

/-- The catalog added the zone. -/
def Owns (consumer : CatalogConsumerConfig) (state : CatalogState) (zone : Zone) : Prop :=
  ownerOf state.owners zone.id = some (normalizeFqdn consumer.name)

section Kept

variable (refresher : Refresher) (consumer : CatalogConsumerConfig) {start : CatalogState} {zone : Zone}

theorem markSecondary_zoneKept {zoneId : Uuid} (hne : zoneId ≠ zone.id) :
    Leads (ZoneKept zone start) (ZoneKept zone start) (markSecondary refresher consumer zoneId) := by
  refine leads_transact (fun _ h => h) ?_
  intro state after h hmarked
  cases hmarked
  exact h.trans (setSecondary_kept _ _ h.row hne)

theorem createMember_zoneKept {member : Text}
    (hother : eqIgnoreAsciiCase member zone.name = false) :
    Leads (ZoneKept zone start) (ZoneKept zone start) (createMember refresher consumer member) := by
  refine leads_createMember (fun state created store h hcreated => ?_) fun _ h => h.trans (setZone_kept h.row hother)
  rcases createZone_kept hcreated h.row with ⟨hgrown, hne⟩
  exact ⟨h.trans hgrown, markSecondary_zoneKept refresher consumer hne,
    fun _ h => h.trans (addOwner_kept _ h.row hne)⟩

theorem serveMember_zoneKept (hstart : Constrained start.store) (hzone : zone ∈ start.store.zones.rows)
    (hforeign : ¬ Owns consumer start zone) (changed : Bool) (member : Text) :
    Leads (ZoneKept zone start) (ZoneKept zone start)
      (serveMember refresher consumer start.owners start.store.zones.rows changed member) := by
  unfold serveMember
  split
  next hosted hfound =>
    have hhosted := List.mem_of_find?_eq_some hfound
    have hnamed := List.find?_some hfound
    split
    next howner =>
      have hne : hosted ≠ zone := by
        intro hsame
        rw [hsame] at howner
        exact hforeign howner
      refine Leads.bind (keeps_read _) fun known => ?_
      split
      · refine Leads.bind (markSecondary_zoneKept refresher consumer ?_) fun _ => ?_
        · exact fun hsame => hne (start.store.zones.eq_of_key_eq hhosted hzone hsame)
        · refine Leads.bind (leads_write fun _ h => h.trans (setZone_kept h.row ?_)) fun _ => keeps_pure _
          refine beq_eq_false_iff_ne.mpr fun hsame => hne ?_
          exact hstart.eq_of_ignoreCase hhosted hzone ((beq_iff_eq.mp hnamed).trans hsame)
      · exact keeps_pure _
    · exact keeps_pure _
  next hnone =>
    refine Leads.bind (createMember_zoneKept refresher consumer ?_) fun _ => keeps_pure _
    have := List.find?_eq_none.mp hnone zone hzone
    refine beq_eq_false_iff_ne.mpr fun hsame => this (beq_iff_eq.mpr hsame.symm)

theorem dropMember_zoneKept (hstart : Constrained start.store) (hzone : zone ∈ start.store.zones.rows)
    (hforeign : ¬ Owns consumer start zone) (wanted : List Text) (changed : Bool) {owned : Text × Uuid}
    (howned : owned ∈ ownedZones consumer start.owners start.store.zones.rows) :
    Leads (ZoneKept zone start) (ZoneKept zone start)
      (dropMember refresher wanted changed owned) := by
  rcases List.mem_map.mp howned with ⟨other, hother, rfl⟩
  rcases List.mem_filter.mp hother with ⟨hmem, howner⟩
  have hne : other ≠ zone := by
    intro hsame
    rw [hsame] at howner
    exact hforeign (beq_iff_eq.mp howner)
  unfold dropMember
  split
  · exact keeps_pure _
  · refine Leads.bind ?_ fun _ => keeps_pure _
    refine Leads.bind (leads_transact (fun _ h => h) ?_) fun _ => ?_
    · intro before after h hdeleted
      cases hdeleted
      refine h.trans (deleteMember_kept h.row ?_)
      exact fun hsame => hne (start.store.zones.eq_of_key_eq hmem hzone hsame)
    · refine leads_write fun _ h => h.trans (removeZone_kept h.row ?_)
      rw [toAsciiLowercase_idem]
      exact fun hsame => hne (hstart.eq_of_ignoreCase hmem hzone hsame)

/-- Whatever fails on the way, a zone the catalog does not own stays as it is. -/
theorem reconcile_zoneKept (members : Option (List Text)) (hstart : Constrained start.store)
    (hzone : zone ∈ start.store.zones.rows) (hforeign : ¬ Owns consumer start zone) :
    ZoneKept zone start (exec (reconcile refresher consumer members) start).2 := by
  have hkept := ZoneKept.refl hzone
  unfold reconcile
  rw [exec_guarded_bind]
  split
  · exact hkept
  · rw [exec_read_bind, exec_guarded_bind]
    split
    · exact hkept
    · rw [exec_read_bind]
      refine Leads.bind (keeps_foldlM _ ?_ _) (fun changed => ?_) start hkept
      · exact fun changed member _ =>
          serveMember_zoneKept refresher consumer hstart hzone hforeign changed member
      refine Leads.bind (keeps_foldlM _ ?_ _) fun changed => ?_
      · intro changed owned howned
        apply dropMember_zoneKept refresher consumer hstart hzone hforeign
        split at howned
        · exact howned
        · simp at howned
      · split
        · exact Leads.bind (keeps_guarded _) fun _ => keeps_pure _
        · exact keeps_pure _

end Kept

theorem createZone_constrained {hickory : Hickory} {store after : ZoneStore} {name : Text} {now : Time}
    {created : Zone} (h : createZone hickory store { name } now = .ok (created, after))
    (hstore : Constrained store) : Constrained after := by
  have hcreates := createZone_creates h
  have hname := (createZone_name h).1
  have hfresh := (createZone_iff.mp ⟨_, h⟩).2.2.1
  refine ⟨?_, ?_, ?_⟩
  · intro zone hzone
    rw [hcreates.zones] at hzone
    rcases List.mem_append.mp hzone with hzone | hzone
    · exact hstore.lower zone hzone
    · rw [List.mem_singleton.mp hzone, hname]
      exact toAsciiLowercase_idem _
  · rw [hcreates.zones]
    refine hstore.names.append_row (fun _ _ => Eq.symm) ?_
    intro other hother hsame
    exact hfresh other hother (hsame.symm.trans hname)
  · intro entry hentry
    rw [hcreates.zoneAliases] at hentry
    rcases hstore.aliases entry hentry with ⟨zone, hzone, hid⟩
    exact ⟨zone, hcreates.zones ▸ List.mem_append_left _ hzone, hid⟩

theorem setSecondary_constrained {store : ZoneStore} (zoneId : Uuid) (masters : List Text)
    (refreshSecs : Nat) (h : Constrained store) :
    Constrained (setSecondary store zoneId masters refreshSecs) := by
  unfold setSecondary
  split <;> exact ⟨h.lower, h.names, h.aliases⟩

theorem deleteZone_constrained {store : ZoneStore} (zoneId : Uuid) (h : Constrained store) :
    Constrained (deleteZone store zoneId) := by
  refine ⟨fun zone hzone => h.lower zone (List.mem_of_mem_filter hzone), h.names.filter _, ?_⟩
  intro entry hentry
  rcases List.mem_filter.mp hentry with ⟨hmem, hother⟩
  rcases h.aliases entry hmem with ⟨zone, hzone, hid⟩
  refine ⟨zone, List.mem_filter.mpr ⟨hzone, ?_⟩, hid⟩
  dsimp only
  rw [hid]
  exact hother

/-- A pass leaves the next one a store of the same kind. -/
theorem reconcile_constrained (refresher : Refresher) (consumer : CatalogConsumerConfig)
    (members : Option (List Text)) : Leads (fun state => Constrained state.store)
      (fun state => Constrained state.store) (reconcile refresher consumer members) := by
  have hmark : ∀ zoneId, Leads (fun state => Constrained state.store)
      (fun state => Constrained state.store) (markSecondary refresher consumer zoneId) := by
    intro zoneId
    refine leads_transact (fun _ h => h) ?_
    intro state after h hmarked
    cases hmarked
    exact setSecondary_constrained _ _ _ h
  have hcreate : ∀ member, Leads (fun state => Constrained state.store)
      (fun state => Constrained state.store) (createMember refresher consumer member) := by
    intro member
    refine leads_createMember (fun state created store h hcreated => ?_) fun _ h => h
    exact ⟨createZone_constrained hcreated h, hmark _, fun _ h => h⟩
  unfold reconcile
  refine Leads.bind (keeps_guarded _) fun _ => Leads.bind (keeps_read _) fun owners => ?_
  refine Leads.bind (keeps_guarded _) fun _ => Leads.bind (keeps_read _) fun zones => ?_
  refine Leads.bind (keeps_foldlM _ ?_ _) fun changed => Leads.bind (keeps_foldlM _ ?_ _) fun changed => ?_
  · intro changed member _
    unfold serveMember
    split
    · split
      · refine Leads.bind (keeps_read _) fun known => ?_
        split
        · exact Leads.bind (hmark _) fun _ => Leads.bind (leads_write fun _ h => h) fun _ => keeps_pure _
        · exact keeps_pure _
      · exact keeps_pure _
    · exact Leads.bind (hcreate member) fun _ => keeps_pure _
  · intro changed owned _
    unfold dropMember
    split
    · exact keeps_pure _
    · refine Leads.bind ?_ fun _ => keeps_pure _
      refine Leads.bind (leads_transact (fun _ h => h) ?_) fun _ => leads_write fun _ h => h
      intro before after h hdeleted
      cases hdeleted
      exact deleteZone_constrained _ h
  · split
    · exact Leads.bind (keeps_guarded _) fun _ => keeps_pure _
    · exact keeps_pure _

end DaygleDns.Authoritative
