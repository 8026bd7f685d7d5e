import DaygleDns.Authoritative.UpdateOrder

/-! The guard for the last NS record counts deletes, where the transaction
deletes every row that a delete names. -/
namespace DaygleDns.Authoritative

open Text Fallible

def ApexNsStored (store : ZoneStore) (zone : Zone) : Prop :=
  ∃ record ∈ store.records.rows, record.zoneId = zone.id ∧ isApexNs zone record = true

/-- A stored apex NS record is hit by no delete, or another one is added. -/
def SparesApexNs (store : ZoneStore) (zone : Zone) (plan : DynamicUpdate) : Prop :=
  (∃ record ∈ store.records.rows, (record.zoneId = zone.id ∧ isApexNs zone record = true) ∧
    ∀ del ∈ plan.deletes, del.hits zone.id record = false) ∨
  ∃ input ∈ plan.adds, input.disabled = false ∧ qualifyName input.name zone.name = zone.name ∧
    toAsciiUppercase input.rtype = "NS"

/-- Spelled as the guard compares it, if the transaction takes it for apex NS. -/
def DeleteSpec.Plain (zone : Zone) (del : DeleteSpec) : Prop :=
  (normalizeFqdn del.name = zone.name → del.name = zone.name) ∧
    ∀ rtype ∈ del.rtype, toAsciiUppercase rtype = "NS" → rtype = "NS"

theorem isApexNs_iff (zone : Zone) (record : Record) :
    isApexNs zone record = true ↔
      record.disabled = false ∧ record.name = zone.name ∧ record.rtype = "NS" := by
  simp only [isApexNs, Bool.and_eq_true, Bool.not_eq_true', beq_iff_eq, and_assoc]

/-- The rows an update leaves. -/
theorem applyDynamicUpdates_rows {hickory : Hickory} {store after : ZoneStore} {zone : Zone}
    {plan : DynamicUpdate} {now : Time} (hzone : store.getZone zone.id = some zone)
    (h : applyDynamicUpdates hickory store zone.id plan now = .ok after) :
    ∃ id, after.records.rows =
      store.records.rows.filter (fun record => !plan.deletes.any fun del => del.hits zone.id record) ++
        storedRows zone.id zone.name now id plan.adds := by
  unfold applyDynamicUpdates at h
  rcases bind_eq_ok.mp h with ⟨row, hrow, h⟩
  rw [requireZone_eq_ok, hzone] at hrow
  cases hrow
  rcases applyDynamicUpdatesTx_eq_ok h with ⟨middle, hinsert, hafter⟩
  have hrecords : after.records = middle.records := by
    rw [hafter]
    cases plan.soa <;> rfl
  have hrows := (insertRecords_eq_ok hinsert).2
  rw [deleteAll_rows] at hrows
  exact ⟨_, by rw [hrecords, hrows]⟩

theorem apexNsStored_iff {hickory : Hickory} {store after : ZoneStore} {zone : Zone}
    {plan : DynamicUpdate} {now : Time} (hzone : store.getZone zone.id = some zone)
    (h : applyDynamicUpdates hickory store zone.id plan now = .ok after) :
    ApexNsStored after zone ↔ SparesApexNs store zone plan := by
  rcases applyDynamicUpdates_rows hzone h with ⟨id, hrows⟩
  unfold ApexNsStored SparesApexNs
  rw [hrows]
  constructor
  · intro h
    rcases h with ⟨record, hrecord, hns⟩
    rcases List.mem_append.mp hrecord with hrecord | hrecord
    · rcases List.mem_filter.mp hrecord with ⟨hrecord, hspared⟩
      left
      refine ⟨record, hrecord, hns, fun del hdel => ?_⟩
      rw [Bool.not_eq_true', List.any_eq_false] at hspared
      exact Bool.eq_false_iff.mpr (hspared del hdel)
    · right
      rcases mem_storedRows hrecord with ⟨input, hinput, other, rfl⟩
      exact ⟨input, hinput, (isApexNs_iff zone _).mp hns.2⟩
  · intro h
    rcases h with ⟨record, hrecord, hns, hspared⟩ | ⟨input, hinput, hns⟩
    · refine ⟨record, List.mem_append_left _ (List.mem_filter.mpr ⟨hrecord, ?_⟩), hns⟩
      rw [Bool.not_eq_true', List.any_eq_false]
      intro del hdel
      rw [hspared del hdel]
      exact Bool.false_ne_true
    · have hstored : ∃ other, storedRow zone.id zone.name input now other ∈
          storedRows zone.id zone.name now id plan.adds := storedRow_mem_storedRows hinput id
      rcases hstored with ⟨other, hother⟩
      exact ⟨_, List.mem_append_right _ hother, rfl, (isApexNs_iff zone _).mpr hns⟩

/-! What the guard is enough for. -/

/-- Of rows with different contents, one content names at most one. -/
theorem length_le_of_content {rows : List Record} (hnodup : (rows.map Record.content).Nodup)
    (content : Text) :
    rows.length ≤ (rows.filter fun record => record.content != content).length + 1 := by
  induction rows with
  | nil => simp
  | cons record rows ih =>
    rw [List.map_cons, List.nodup_cons] at hnodup
    by_cases hcontent : record.content = content
    · have hrest : (rows.filter fun record => record.content != content) = rows := by
        apply List.filter_eq_self.mpr
        intro other hother
        rw [bne_iff_ne]
        intro hsame
        exact hnodup.1 (List.mem_map.mpr ⟨other, hother, hsame.trans hcontent.symm⟩)
      simp [hcontent, hrest]
    · have hlater := ih hnodup.2
      simp only [List.filter_cons, bne_iff_ne, ne_eq, hcontent, not_false_eq_true, if_true,
        List.length_cons]
      omega

/-- One delete leaves at least as many apex NS rows as the guard counts. -/
theorem countRemaining_le {zone : Zone} {apexNs rows : List Record} {remaining : Nat}
    {del : DeleteSpec} (hplain : del.Plain zone)
    (hrows : ∀ record ∈ rows, record ∈ apexNs ∧ record.zoneId = zone.id ∧
      isApexNs zone record = true)
    (hnodup : (rows.map Record.content).Nodup) (hcount : remaining ≤ rows.length) :
    countRemaining zone apexNs remaining del ≤
      (rows.filter fun record => !del.hits zone.id record).length := by
  have hkept : (∀ record ∈ rows, del.hits zone.id record = false) →
      remaining ≤ (rows.filter fun record => !del.hits zone.id record).length := by
    intro hmiss
    rw [List.filter_eq_self.mpr fun record hrecord => by simp [hmiss record hrecord]]
    exact hcount
  have hhits : ∀ record ∈ rows, del.hits zone.id record = (zone.name == normalizeFqdn del.name &&
      del.rtype.all (fun rtype => ("NS" : Text) == toAsciiUppercase rtype) &&
      del.content.all (fun content => record.content == content)) := by
    intro record hrecord
    rcases hrows record hrecord with ⟨_, hzone, hns⟩
    rcases (isApexNs_iff zone record).mp hns with ⟨_, hname, htype⟩
    simp [DeleteSpec.hits, hzone, hname, htype]
  unfold countRemaining
  split
  next hname =>
    apply hkept
    intro record hrecord
    have hother : (zone.name == normalizeFqdn del.name) = false :=
      beq_eq_false_iff_ne.mpr fun h => hname (hplain.1 h.symm)
    rw [hhits record hrecord, hother, Bool.false_and, Bool.false_and]
  next hname =>
    split
    next => exact Nat.zero_le _
    next rtype hrtype =>
      split
      next hns =>
        split
        next => exact Nat.zero_le _
        next content hcontent =>
          split
          next =>
            have hlength := length_le_of_content hnodup content
            have hle : (rows.filter fun record => record.content != content).length ≤
                (rows.filter fun record => !del.hits zone.id record).length := by
              apply List.Sublist.length_le
              apply List.monotone_filter_right
              intro record hother
              have hmiss : (record.content == content) = false := by
                simpa [bne] using hother
              simp [DeleteSpec.hits, hcontent, hmiss]
            omega
          next hmiss =>
            apply hkept
            intro record hrecord
            rw [hhits record hrecord, hcontent]
            have hother : (record.content == content) = false := by
              rw [List.any_eq_true] at hmiss
              push Not at hmiss
              exact Bool.eq_false_iff.mpr (hmiss record (hrows record hrecord).1)
            simp [hother]
      next hns =>
        apply hkept
        intro record hrecord
        have hother : (("NS" : Text) == toAsciiUppercase rtype) = false :=
          beq_eq_false_iff_ne.mpr fun h => hns (hplain.2 rtype hrtype h.symm)
        rw [hhits record hrecord, hrtype]
        simp only [Option.all_some, hother, Bool.and_false, Bool.false_and]

theorem foldl_countRemaining_le {zone : Zone} {apexNs rows : List Record} {remaining : Nat}
    {dels : List DeleteSpec} (hplain : ∀ del ∈ dels, del.Plain zone)
    (hrows : ∀ record ∈ rows, record ∈ apexNs ∧ record.zoneId = zone.id ∧
      isApexNs zone record = true)
    (hnodup : (rows.map Record.content).Nodup) (hcount : remaining ≤ rows.length) :
    dels.foldl (countRemaining zone apexNs) remaining ≤
      (rows.filter fun record => !dels.any fun del => del.hits zone.id record).length := by
  induction dels generalizing rows remaining with
  | nil => simpa using hcount
  | cons del dels ih =>
    have hfirst := countRemaining_le (hplain del List.mem_cons_self) hrows hnodup hcount
    have hrest := ih (fun other hother => hplain other (List.mem_cons_of_mem _ hother))
      (fun record hrecord => hrows record (List.mem_of_mem_filter hrecord))
      (hnodup.sublist (List.filter_sublist.map _)) hfirst
    rw [List.filter_filter] at hrest
    rw [List.foldl_cons]
    apply hrest.trans
    apply List.Sublist.length_le
    apply List.monotone_filter_right
    intro record h
    simpa [and_comm] using h

/-- Where no two stored apex NS records have the same content, a plan the guard
lets through spares one of them. -/
theorem guard_spares {store : ZoneStore} {zone : Zone} {plan : DynamicUpdate}
    (hstored : ApexNsStored store zone)
    (hguard : wouldRemoveLastApexNs zone (store.listRecords zone.id) plan = false)
    (hplain : ∀ del ∈ plan.deletes, del.Plain zone)
    (hnodup : (((store.listRecords zone.id).filter (isApexNs zone)).map Record.content).Nodup) :
    SparesApexNs store zone plan := by
  have hrows : ∀ record ∈ (store.listRecords zone.id).filter (isApexNs zone),
      record ∈ (store.listRecords zone.id).filter (isApexNs zone) ∧ record.zoneId = zone.id ∧
        isApexNs zone record = true := by
    intro record hrecord
    rcases List.mem_filter.mp hrecord with ⟨hlisted, hns⟩
    exact ⟨hrecord, (mem_listRecords.mp hlisted).2, hns⟩
  have hcount := foldl_countRemaining_le hplain hrows hnodup (Nat.le_refl _)
  have hpositive : plan.deletes.foldl
      (countRemaining zone ((store.listRecords zone.id).filter (isApexNs zone)))
      ((store.listRecords zone.id).filter (isApexNs zone)).length ≠ 0 := by
    rcases hstored with ⟨record, hrecord, hzone, hns⟩
    have hmem : record ∈ (store.listRecords zone.id).filter (isApexNs zone) :=
      List.mem_filter.mpr ⟨mem_listRecords.mpr ⟨hrecord, hzone⟩, hns⟩
    have hempty : ((store.listRecords zone.id).filter (isApexNs zone)).isEmpty = false := by
      rw [List.isEmpty_eq_false_iff]
      exact List.ne_nil_of_mem hmem
    simpa [wouldRemoveLastApexNs, hempty] using hguard
  rcases List.exists_mem_of_length_pos (by omega : 0 < (List.filter (fun record =>
    !plan.deletes.any fun del => del.hits zone.id record)
      ((store.listRecords zone.id).filter (isApexNs zone))).length) with ⟨record, hrecord⟩
  rcases List.mem_filter.mp hrecord with ⟨hapex, hspared⟩
  rcases hrows record hapex with ⟨_, hzone, hns⟩
  rw [Bool.not_eq_true', List.any_eq_false] at hspared
  exact .inl ⟨record, (mem_listRecords.mp (List.mem_of_mem_filter hapex)).1, ⟨hzone, hns⟩,
    fun del hdel => Bool.eq_false_iff.mpr (hspared del hdel)⟩

/-- After a plan the guard lets through, an enabled NS record stands at the apex
exactly when the plan spares or adds one; it does where no two of them had the
same content. -/
theorem apexNs_kept_iff {hickory : Hickory} {store after : ZoneStore} {zone : Zone}
    {plan : DynamicUpdate} {now : Time} (hzone : store.getZone zone.id = some zone)
    (hstored : ApexNsStored store zone)
    (hguard : wouldRemoveLastApexNs zone (store.listRecords zone.id) plan = false)
    (happly : applyDynamicUpdates hickory store zone.id plan now = .ok after) :
    (ApexNsStored after zone ↔ SparesApexNs store zone plan) ∧
      ((∀ del ∈ plan.deletes, del.Plain zone) →
        (((store.listRecords zone.id).filter (isApexNs zone)).map Record.content).Nodup →
        ApexNsStored after zone) := by
  have hiff := apexNsStored_iff hzone happly
  exact ⟨hiff, fun hplain hnodup => hiff.mpr (guard_spares hstored hguard hplain hnodup)⟩

/-- The zone with its NS record stored twice. -/
def ZoneStore.doubledNs : ZoneStore :=
  match upsertRecord .acceptAll .exampleCom 0
      { name := "@", rtype := "NS", content := "ns1.example.com." } 1 with
  | .ok (_, store) => store
  | .error _ => .empty

def deleteNs (content : Text) : DynamicUpdate where
  deletes := [{ name := "example.com", rtype := some "NS", content := some content }]

instance (store : ZoneStore) (zone : Zone) : Decidable (ApexNsStored store zone) :=
  inferInstanceAs (Decidable (∃ record ∈ store.records.rows,
    record.zoneId = zone.id ∧ isApexNs zone record = true))

/-- One delete of the record that is stored twice takes both rows. -/
theorem apexNs_kept_fails :
    ApexNsStored .doubledNs .exampleCom ∧
    wouldRemoveLastApexNs .exampleCom (ZoneStore.doubledNs.listRecords 0)
      (deleteNs "ns1.example.com.") = false ∧
    (applyDynamicUpdates .acceptAll .doubledNs 0 (deleteNs "ns1.example.com.") 2).toOption.any
      fun after => decide (¬ ApexNsStored after .exampleCom) := by
  decide

theorem apexNs_kept_other : ∃ after,
    applyDynamicUpdates .acceptAll .exampleCom 0 (deleteNs "ns2.example.com.") 2 = .ok after ∧
    ApexNsStored after .exampleCom := by
  have hzone : ZoneStore.exampleCom.getZone 0 = some .exampleCom := by decide
  have hstored : ApexNsStored .exampleCom .exampleCom := by decide
  have hguard : wouldRemoveLastApexNs .exampleCom (ZoneStore.exampleCom.listRecords 0)
      (deleteNs "ns2.example.com.") = false := by decide
  have hspared : SparesApexNs .exampleCom .exampleCom (deleteNs "ns2.example.com.") :=
    .inl (by decide)
  have happly : applyDynamicUpdates .acceptAll .exampleCom 0 (deleteNs "ns2.example.com.") 2 =
      .ok _ := rfl
  exact ⟨_, happly, (apexNs_kept_iff hzone hstored hguard happly).1.mpr hspared⟩

end DaygleDns.Authoritative
