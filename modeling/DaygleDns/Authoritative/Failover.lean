import DaygleDns.Authoritative.Model
import DaygleDns.Grouping
import Mathlib.Data.Finset.Basic

/-! Health-checked failover: which address records of a zone are served. -/
namespace DaygleDns.Authoritative

open Text

/-- An enabled address record. -/
def isAddress (r : Record) : Bool := (r.rtype == "A".toList || r.rtype == "AAAA".toList) && !r.disabled

def failoverKey (r : Record) : Text × Text := (toAsciiLowercase r.name, r.rtype)

def lowestPriority (group : List Record) : Option UInt16 := (group.map Record.priority).min?

/-- The RRsets that are filtered, and the records that are kept of them. -/
structure FailoverSets where
  filtered : List (Text × Text)
  keep : List Uuid

section Failover

variable (checked unhealthy : Finset Uuid)

def healthyOf (group : List Record) : List Record := group.filter fun r => decide (r.id ∉ unhealthy)

def failoverGroup (sets : FailoverSets) (entry : (Text × Text) × List Record) : FailoverSets :=
  if !entry.2.any fun r => decide (r.id ∈ checked) then sets
  else
    match lowestPriority (healthyOf unhealthy entry.2) with
    | none => sets
    | some best =>
        { filtered := entry.1 :: sets.filtered
          keep := sets.keep ++ ((healthyOf unhealthy entry.2).filter fun r => r.priority == best).map Record.id }

/-- The groups are in the order of their first records here; only sets are made of them. -/
def failoverSets (records : List Record) : FailoverSets :=
  (Grouping.group failoverKey (records.filter isAddress)).foldl (failoverGroup checked unhealthy) ⟨[], []⟩

def failover (records : List Record) : List Record :=
  if checked = ∅ then records
  else records.filter fun r => decide (failoverKey r ∉ (failoverSets checked unhealthy records).filtered) || r.disabled ||
    decide (r.id ∈ (failoverSets checked unhealthy records).keep)

/-! What is served of an RRset. -/

/-- The enabled address records of a name, in any case, and a type. -/
def rrset (records : List Record) (k : Text × Text) : List Record :=
  records.filter fun r => isAddress r && decide (failoverKey r = k)

/-- The healthy records whose priority no healthy record undercuts. -/
def lowestHealthy (group : List Record) : List Record :=
  (healthyOf unhealthy group).filter fun r => (healthyOf unhealthy group).all fun other => decide (r.priority ≤ other.priority)

/-- What is kept of an RRset that is filtered. -/
def chosen (group : List Record) : Option (List Record) :=
  if (∃ r ∈ group, r.id ∈ checked) ∧ healthyOf unhealthy group ≠ [] then some (lowestHealthy unhealthy group) else none

variable {checked unhealthy}

theorem lowestPriority_healthy {group : List Record} (h : healthyOf unhealthy group ≠ []) :
    ∃ best, lowestPriority (healthyOf unhealthy group) = some best ∧
      ((healthyOf unhealthy group).filter fun r => r.priority == best) = lowestHealthy unhealthy group := by
  have hsome : ∃ best, lowestPriority (healthyOf unhealthy group) = some best := by
    cases hmin : lowestPriority (healthyOf unhealthy group) with
    | some best => exact ⟨best, rfl⟩
    | none =>
      rw [lowestPriority, List.min?_eq_none_iff, List.map_eq_nil_iff] at hmin
      exact absurd hmin h
  obtain ⟨best, hbest⟩ := hsome
  refine ⟨best, hbest, ?_⟩
  obtain ⟨hmem, hlow⟩ := List.min?_eq_some_iff.mp hbest
  obtain ⟨first, hfirst, hpriority⟩ := List.mem_map.mp hmem
  apply List.filter_congr
  intro r hr
  rw [Bool.eq_iff_iff, beq_iff_eq, List.all_eq_true]
  constructor
  · rintro rfl other hother
    exact decide_eq_true (hlow other.priority (List.mem_map_of_mem hother))
  · intro hall
    apply UInt16.le_antisymm
    · rw [← hpriority]
      exact of_decide_eq_true (hall first hfirst)
    · exact hlow r.priority (List.mem_map_of_mem hr)

theorem failoverGroup_eq (sets : FailoverSets) (entry : (Text × Text) × List Record) :
    failoverGroup checked unhealthy sets entry =
      match chosen checked unhealthy entry.2 with
      | none => sets
      | some kept => ⟨entry.1 :: sets.filtered, sets.keep ++ kept.map Record.id⟩ := by
  have hany : (entry.2.any fun r => decide (r.id ∈ checked)) = true ↔ ∃ r ∈ entry.2, r.id ∈ checked := by simp
  unfold failoverGroup chosen
  by_cases hchecked : ∃ r ∈ entry.2, r.id ∈ checked
  · rw [hany.mpr hchecked, if_neg (by decide)]
    by_cases hhealthy : healthyOf unhealthy entry.2 = []
    · rw [hhealthy, if_neg (fun h => h.2 rfl)]
      rfl
    · obtain ⟨best, hbest, hlowest⟩ := lowestPriority_healthy hhealthy
      rw [hbest, if_pos ⟨hchecked, hhealthy⟩]
      simp only [hlowest]
  · have hnone : (entry.2.any fun r => decide (r.id ∈ checked)) = false := by
      rw [Bool.eq_false_iff, Ne, hany]
      exact hchecked
    rw [hnone, if_pos (by decide), if_neg (fun h => hchecked h.1)]

theorem chosen_eq_some {group kept : List Record} :
    chosen checked unhealthy group = some kept ↔
      (∃ r ∈ group, r.id ∈ checked) ∧ healthyOf unhealthy group ≠ [] ∧ kept = lowestHealthy unhealthy group := by
  unfold chosen
  rw [Option.ite_none_right_eq_some, Option.some.injEq, and_assoc, eq_comm]

/-- What the loop over the groups has put into the sets. -/
theorem mem_foldl_failoverGroup (groups : List ((Text × Text) × List Record)) (sets : FailoverSets) :
    (∀ k, k ∈ (groups.foldl (failoverGroup checked unhealthy) sets).filtered ↔
        k ∈ sets.filtered ∨ ∃ entry ∈ groups, entry.1 = k ∧ ∃ kept, chosen checked unhealthy entry.2 = some kept) ∧
      ∀ id, id ∈ (groups.foldl (failoverGroup checked unhealthy) sets).keep ↔
        id ∈ sets.keep ∨ ∃ entry ∈ groups, ∃ kept, chosen checked unhealthy entry.2 = some kept ∧ ∃ r ∈ kept, r.id = id := by
  induction groups generalizing sets with
  | nil => simp
  | cons entry groups ih =>
    rw [List.foldl_cons, failoverGroup_eq]
    obtain ⟨hfiltered, hkeep⟩ := ih (match chosen checked unhealthy entry.2 with
      | none => sets
      | some kept => ⟨entry.1 :: sets.filtered, sets.keep ++ kept.map Record.id⟩)
    cases hchosen : chosen checked unhealthy entry.2 with
    | none =>
      simp only [hchosen] at hfiltered hkeep
      constructor
      · intro k
        rw [hfiltered]
        simp [hchosen]
      · intro id
        rw [hkeep]
        simp [hchosen]
    | some kept =>
      simp only [hchosen] at hfiltered hkeep
      constructor
      · intro k
        rw [hfiltered, List.exists_mem_cons_iff, List.mem_cons, hchosen]
        simp only [Option.some.injEq, exists_eq', and_true, eq_comm, or_assoc, or_left_comm]
      · intro id
        rw [hkeep, List.exists_mem_cons_iff, List.mem_append, List.mem_map, hchosen, or_assoc]
        simp only [Option.some.injEq, exists_eq_left']

theorem group_rrset (records : List Record) {entry : (Text × Text) × List Record} :
    entry ∈ Grouping.group failoverKey (records.filter isAddress) ↔
      entry.2 = rrset records entry.1 ∧ rrset records entry.1 ≠ [] := by
  have hrrset : (records.filter isAddress).filter (failoverKey · = entry.1) = rrset records entry.1 := by
    rw [List.filter_filter]
    apply List.filter_congr
    intro r _
    exact Bool.and_comm _ _
  rw [Grouping.mem_group, hrrset]
  constructor
  · rintro ⟨heq, hne⟩
    exact ⟨heq, heq ▸ hne⟩
  · rintro ⟨heq, hne⟩
    exact ⟨heq, heq ▸ hne⟩

theorem rrset_of_chosen {records kept : List Record} {k : Text × Text}
    (h : chosen checked unhealthy (rrset records k) = some kept) : rrset records k ≠ [] := by
  obtain ⟨⟨r, hr, -⟩, -⟩ := chosen_eq_some.mp h
  exact List.ne_nil_of_mem hr

theorem mem_filtered {records : List Record} {k : Text × Text} :
    k ∈ (failoverSets checked unhealthy records).filtered ↔ ∃ kept, chosen checked unhealthy (rrset records k) = some kept := by
  rw [failoverSets, (mem_foldl_failoverGroup _ _).1]
  simp only [List.not_mem_nil, false_or]
  constructor
  · rintro ⟨entry, hentry, rfl, kept, hkept⟩
    rw [((group_rrset records).mp hentry).1] at hkept
    exact ⟨kept, hkept⟩
  · rintro ⟨kept, hkept⟩
    exact ⟨(k, rrset records k), (group_rrset records).mpr ⟨rfl, rrset_of_chosen hkept⟩, rfl, kept, hkept⟩

theorem mem_keep {records : List Record} {id : Uuid} :
    id ∈ (failoverSets checked unhealthy records).keep ↔
      ∃ k kept, chosen checked unhealthy (rrset records k) = some kept ∧ ∃ r ∈ kept, r.id = id := by
  rw [failoverSets, (mem_foldl_failoverGroup _ _).2]
  simp only [List.not_mem_nil, false_or]
  constructor
  · rintro ⟨entry, hentry, kept, hkept, hid⟩
    rw [((group_rrset records).mp hentry).1] at hkept
    exact ⟨entry.1, kept, hkept, hid⟩
  · rintro ⟨k, kept, hkept, hid⟩
    exact ⟨(k, rrset records k), (group_rrset records).mpr ⟨rfl, rrset_of_chosen hkept⟩, kept, hkept, hid⟩

/-- The records that pass the filter. Without checks nothing is filtered. -/
theorem failover_eq_filter (records : List Record) :
    failover checked unhealthy records =
      records.filter fun r => decide (failoverKey r ∉ (failoverSets checked unhealthy records).filtered) || r.disabled ||
        decide (r.id ∈ (failoverSets checked unhealthy records).keep) := by
  unfold failover
  split
  next hempty =>
    apply (List.filter_eq_self.mpr _).symm
    intro r _
    have hfree : failoverKey r ∉ (failoverSets checked unhealthy records).filtered := by
      rw [mem_filtered]
      rintro ⟨kept, hkept⟩
      obtain ⟨⟨other, -, hother⟩, -⟩ := chosen_eq_some.mp hkept
      rw [hempty] at hother
      exact absurd hother (Finset.notMem_empty _)
    simp [hfree]
  next => rfl

theorem mem_rrset {records : List Record} {k : Text × Text} {r : Record} :
    r ∈ rrset records k ↔ r ∈ records ∧ isAddress r = true ∧ failoverKey r = k := by
  simp [rrset]

theorem mem_healthyOf {group : List Record} {r : Record} : r ∈ healthyOf unhealthy group ↔ r ∈ group ∧ r.id ∉ unhealthy := by
  simp [healthyOf]

theorem mem_lowestHealthy {group : List Record} {r : Record} :
    r ∈ lowestHealthy unhealthy group ↔
      r ∈ healthyOf unhealthy group ∧ ∀ other ∈ healthyOf unhealthy group, r.priority ≤ other.priority := by
  rw [lowestHealthy, List.mem_filter, List.all_eq_true]
  simp only [decide_eq_true_eq]

theorem lowestHealthy_subset (group : List Record) : lowestHealthy unhealthy group ⊆ group :=
  fun _ hr => (mem_healthyOf.mp (mem_lowestHealthy.mp hr).1).1

theorem key_of_kept {records kept : List Record} {k : Text × Text} {r : Record}
    (h : chosen checked unhealthy (rrset records k) = some kept) (hr : r ∈ kept) :
    r ∈ records ∧ isAddress r = true ∧ failoverKey r = k := by
  obtain ⟨-, -, rfl⟩ := chosen_eq_some.mp h
  exact mem_rrset.mp (lowestHealthy_subset _ hr)

theorem not_disabled_of_isAddress {r : Record} (h : isAddress r = true) : r.disabled = false := by
  simpa using (Bool.and_eq_true_iff.mp h).2

/-- An RRset of which nothing is chosen is left as it is. -/
theorem rrset_untouched {records : List Record} {k : Text × Text} (h : chosen checked unhealthy (rrset records k) = none) :
    rrset (failover checked unhealthy records) k = rrset records k := by
  rw [failover_eq_filter, rrset, List.filter_filter]
  apply List.filter_congr
  intro r _
  by_cases hr : isAddress r = true ∧ failoverKey r = k
  · have hfree : k ∉ (failoverSets checked unhealthy records).filtered := by
      rw [mem_filtered, h]
      rintro ⟨kept, hkept⟩
      cases hkept
    simp [hr, hfree]
  · have hother : (isAddress r && decide (failoverKey r = k)) = false := by
      rw [Bool.eq_false_iff]
      simpa using hr
    rw [hother, Bool.false_and]

/-- What is chosen is kept. -/
theorem mem_of_chosen {records kept : List Record} {k : Text × Text} {r : Record}
    (h : chosen checked unhealthy (rrset records k) = some kept) (hr : r ∈ kept) : r ∈ failover checked unhealthy records := by
  have hkeep : r.id ∈ (failoverSets checked unhealthy records).keep := mem_keep.mpr ⟨k, kept, h, r, hr, rfl⟩
  rw [failover_eq_filter, List.mem_filter]
  exact ⟨(key_of_kept h hr).1, by simp [hkeep]⟩

theorem lowestHealthy_ne_nil {group : List Record} (h : healthyOf unhealthy group ≠ []) : lowestHealthy unhealthy group ≠ [] := by
  obtain ⟨best, hbest, hlowest⟩ := lowestPriority_healthy h
  obtain ⟨hmem, -⟩ := List.min?_eq_some_iff.mp hbest
  obtain ⟨r, hr, hpriority⟩ := List.mem_map.mp hmem
  rw [← hlowest]
  exact List.ne_nil_of_mem (List.mem_filter.mpr ⟨hr, by simpa using hpriority⟩)

theorem rrset_ne_nil {records : List Record} {k : Text × Text} (h : rrset records k ≠ []) :
    rrset (failover checked unhealthy records) k ≠ [] := by
  cases hchosen : chosen checked unhealthy (rrset records k) with
  | none => rwa [rrset_untouched hchosen]
  | some kept =>
    obtain ⟨-, hhealthy, hkept⟩ := chosen_eq_some.mp hchosen
    obtain ⟨r, hr⟩ := List.exists_mem_of_ne_nil _ (lowestHealthy_ne_nil hhealthy)
    rw [← hkept] at hr
    exact List.ne_nil_of_mem (mem_rrset.mpr ⟨mem_of_chosen hchosen hr, (key_of_kept hchosen hr).2⟩)

/-- Of records with their own identifiers, what is chosen of an RRset is all that is kept of it. -/
theorem rrset_chosen {records kept : List Record} (hids : (records.map Record.id).Nodup) {k : Text × Text}
    (h : chosen checked unhealthy (rrset records k) = some kept) : rrset (failover checked unhealthy records) k = kept := by
  obtain ⟨-, -, hlowest⟩ := chosen_eq_some.mp h
  have hmem : ∀ r ∈ records, isAddress r = true → failoverKey r = k →
      (r.id ∈ (failoverSets checked unhealthy records).keep ↔ r ∈ kept) := by
    intro r hr _ hkey
    rw [mem_keep]
    constructor
    · rintro ⟨other, otherKept, hother, twin, htwin, hid⟩
      obtain ⟨hrecord, -, htwinKey⟩ := key_of_kept hother htwin
      have hsame : twin = r := List.inj_on_of_nodup_map hids hrecord hr hid
      rw [hsame, hkey] at htwinKey
      rw [← htwinKey, h] at hother
      rw [Option.some.inj hother, ← hsame]
      exact htwin
    · intro hkept
      exact ⟨k, kept, h, r, hkept, rfl⟩
  have hkept : kept = (rrset records k).filter fun r => decide (r ∈ kept) := by
    obtain ⟨p, hp⟩ : ∃ p, kept = (rrset records k).filter p := ⟨_, hlowest.trans List.filter_filter⟩
    rw [hp]
    apply List.filter_congr
    intro r hr
    simp [hr]
  conv_rhs => rw [hkept]
  rw [failover_eq_filter, rrset, rrset, List.filter_filter, List.filter_filter]
  apply List.filter_congr
  intro r hr
  by_cases haddress : isAddress r = true ∧ failoverKey r = k
  · have hfiltered : k ∈ (failoverSets checked unhealthy records).filtered := mem_filtered.mpr ⟨kept, h⟩
    simp [haddress, hfiltered, not_disabled_of_isAddress haddress.1, hmem r hr haddress.1 haddress.2]
  · have hother : (isAddress r && decide (failoverKey r = k)) = false := by
      rw [Bool.eq_false_iff]
      simpa using haddress
    rw [hother, Bool.false_and, Bool.and_false]

theorem healthyOf_lowestHealthy (group : List Record) :
    healthyOf unhealthy (lowestHealthy unhealthy group) = lowestHealthy unhealthy group := by
  apply List.filter_eq_self.mpr
  intro r hr
  exact decide_eq_true (mem_healthyOf.mp (mem_lowestHealthy.mp hr).1).2

/-- A second choice takes all that the first one has left. -/
theorem lowestHealthy_again (group : List Record) :
    lowestHealthy unhealthy (lowestHealthy unhealthy group) = lowestHealthy unhealthy group := by
  conv_lhs => rw [lowestHealthy, healthyOf_lowestHealthy]
  apply List.filter_eq_self.mpr
  intro r hr
  apply List.all_eq_true.mpr
  intro other hother
  exact decide_eq_true ((mem_lowestHealthy.mp hr).2 other (mem_lowestHealthy.mp hother).1)

/-- Disabled records and those of other types have no filtered RRset, or are kept in it. -/
theorem other_passes (records : List Record) {r : Record} (h : isAddress r = false) :
    (decide (failoverKey r ∉ (failoverSets checked unhealthy records).filtered) || r.disabled) = true := by
  cases hdisabled : r.disabled with
  | true => simp
  | false =>
    rw [Bool.or_false, decide_eq_true_eq, mem_filtered]
    rintro ⟨kept, hkept⟩
    obtain ⟨other, hother⟩ := List.exists_mem_of_ne_nil _ (rrset_of_chosen hkept)
    obtain ⟨-, haddress, hkey⟩ := mem_rrset.mp hother
    have htype : other.rtype = r.rtype := congrArg Prod.snd hkey
    have hsame : isAddress other = isAddress r := by
      unfold isAddress
      rw [htype, hdisabled, not_disabled_of_isAddress haddress]
    rw [hsame, h] at haddress
    cases haddress

theorem others_kept (records : List Record) :
    (failover checked unhealthy records).filter (fun r => !isAddress r) = records.filter fun r => !isAddress r := by
  rw [failover_eq_filter, List.filter_filter]
  apply List.filter_congr
  intro r _
  cases haddress : isAddress r with
  | true => rfl
  | false => rw [other_passes records haddress]; rfl

theorem failover_again {records : List Record} (hids : (records.map Record.id).Nodup) :
    failover checked unhealthy (failover checked unhealthy records) = failover checked unhealthy records := by
  conv_lhs => rw [failover_eq_filter]
  apply List.filter_eq_self.mpr
  intro r hr
  cases haddress : isAddress r with
  | false => rw [other_passes _ haddress]; rfl
  | true =>
    have hmem : r ∈ rrset (failover checked unhealthy records) (failoverKey r) := mem_rrset.mpr ⟨hr, haddress, rfl⟩
    cases hagain : chosen checked unhealthy (rrset (failover checked unhealthy records) (failoverKey r)) with
    | none =>
      have hfree : failoverKey r ∉ (failoverSets checked unhealthy (failover checked unhealthy records)).filtered := by
        rw [mem_filtered, hagain]
        rintro ⟨kept, hkept⟩
        cases hkept
      simp [hfree]
    | some group =>
      have hgroup : rrset (failover checked unhealthy records) (failoverKey r) = group := by
        obtain ⟨-, -, hlowest⟩ := chosen_eq_some.mp hagain
        cases hchosen : chosen checked unhealthy (rrset records (failoverKey r)) with
        | none =>
          rw [rrset_untouched hchosen, hchosen] at hagain
          cases hagain
        | some kept =>
          obtain ⟨-, -, hkept⟩ := chosen_eq_some.mp hchosen
          rw [rrset_chosen hids hchosen] at hlowest ⊢
          rw [hlowest, hkept, lowestHealthy_again]
      rw [hgroup] at hmem
      have hkeep : r.id ∈ (failoverSets checked unhealthy (failover checked unhealthy records)).keep :=
        mem_keep.mpr ⟨_, group, hagain, r, hmem, rfl⟩
      simp [hkeep]

/-- Records that are no enabled addresses stay, no RRset is emptied, RRsets without a check stay
as they are, and the order is kept. Records with their own identifiers are served as their
health and their priorities say, and serving them again changes nothing. -/
theorem failover_correct (checked unhealthy : Finset Uuid) (records : List Record) :
    (failover checked unhealthy records).filter (fun r => !isAddress r) = records.filter (fun r => !isAddress r) ∧
      (∀ k, rrset records k ≠ [] → rrset (failover checked unhealthy records) k ≠ []) ∧
      (∀ k, (∀ r ∈ rrset records k, r.id ∉ checked) → rrset (failover checked unhealthy records) k = rrset records k) ∧
      (failover checked unhealthy records).Sublist records ∧
      ((records.map Record.id).Nodup →
        (∀ k, (∃ r ∈ rrset records k, r.id ∈ checked) →
          rrset (failover checked unhealthy records) k =
            if healthyOf unhealthy (rrset records k) = [] then rrset records k
            else lowestHealthy unhealthy (rrset records k)) ∧
        failover checked unhealthy (failover checked unhealthy records) = failover checked unhealthy records) := by
  refine ⟨others_kept records, fun k => rrset_ne_nil, ?_, ?_, ?_⟩
  · intro k hchecks
    apply rrset_untouched
    unfold chosen
    rw [if_neg]
    rintro ⟨⟨r, hr, hchecked⟩, -⟩
    exact hchecks r hr hchecked
  · rw [failover_eq_filter]
    exact List.filter_sublist
  · intro hids
    refine ⟨?_, failover_again hids⟩
    intro k hchecked
    by_cases hhealthy : healthyOf unhealthy (rrset records k) = []
    · rw [if_pos hhealthy]
      apply rrset_untouched
      unfold chosen
      rw [if_neg fun h => h.2 hhealthy]
    · rw [if_neg hhealthy]
      exact rrset_chosen hids (chosen_eq_some.mpr ⟨hchecked, hhealthy, rfl⟩)

end Failover

/-- An address of a web server. -/
def webHost (id : Uuid) (priority : UInt16) : Record where
  id := id
  zoneId := 0
  name := "www.example.com"
  rtype := "A"
  content := "192.0.2.1"
  ttl := 60
  priority := priority
  disabled := false
  lastModifiedAt := 0
  lastUsedAt := none

/-- Both primaries are down, so the backup is served. -/
theorem failover_correct_backup :
    rrset (failover {1, 2} {1, 2} [webHost 1 0, webHost 2 0, webHost 3 10]) ("www.example.com".toList, "A".toList) =
      [webHost 3 10] :=
  (((failover_correct {1, 2} {1, 2} [webHost 1 0, webHost 2 0, webHost 3 10]).2.2.2.2 (by decide)).1 _ (by decide)).trans
    (by decide)

end DaygleDns.Authoritative
