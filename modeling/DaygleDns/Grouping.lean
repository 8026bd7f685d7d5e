import Mathlib.Data.List.Induction
import Mathlib.Data.List.Nodup

/-! Items in groups by a key, each group in the order of the items. -/
namespace DaygleDns.Grouping

variable {α κ : Type} [DecidableEq κ] (key : α → κ)

/-- `entry(k).or_default().push(item)`. -/
def push (item : α) : List (κ × List α) → List (κ × List α)
  | [] => [(key item, [item])]
  | entry :: rest =>
      if entry.1 = key item then (entry.1, entry.2 ++ [item]) :: rest else entry :: push item rest

def group (items : List α) : List (κ × List α) := items.foldl (fun groups item => push key item groups) []

theorem keys_push (item : α) (groups : List (κ × List α)) :
    (push key item groups).map Prod.fst =
      if key item ∈ groups.map Prod.fst then groups.map Prod.fst else groups.map Prod.fst ++ [key item] := by
  induction groups with
  | nil => rfl
  | cons entry rest ih =>
    by_cases hentry : entry.1 = key item
    · rw [push, if_pos hentry, if_pos (by simp [hentry])]
      rfl
    · rw [push, if_neg hentry, List.map_cons, ih]
      by_cases hrest : key item ∈ rest.map Prod.fst
      · rw [if_pos hrest, if_pos (by simp [List.mem_map.mp hrest])]
        rfl
      · rw [if_neg hrest, if_neg]
        · rfl
        · rw [List.map_cons, List.mem_cons, not_or]
          exact ⟨Ne.symm hentry, hrest⟩

theorem nodup_push (item : α) {groups : List (κ × List α)} (h : (groups.map Prod.fst).Nodup) :
    ((push key item groups).map Prod.fst).Nodup := by
  rw [keys_push]
  split
  next => exact h
  next hnew =>
    apply List.nodup_append.mpr
    refine ⟨h, List.nodup_singleton _, ?_⟩
    intro k hk other hother
    rw [List.mem_singleton.mp hother]
    rintro rfl
    exact hnew hk

/-- The items of a key. -/
def members (k : κ) : List (κ × List α) → List α
  | [] => []
  | entry :: rest => if entry.1 = k then entry.2 else members k rest

theorem members_push (item : α) (groups : List (κ × List α)) (k : κ) :
    members k (push key item groups) = if key item = k then members k groups ++ [item] else members k groups := by
  induction groups with
  | nil => simp [push, members]
  | cons entry rest ih =>
    by_cases hentry : entry.1 = key item
    · rw [push, if_pos hentry, members, members, hentry]
      split <;> rfl
    · rw [push, if_neg hentry, members, members, ih]
      by_cases hk : entry.1 = k
      · have hother : key item ≠ k := fun h => hentry (hk.trans h.symm)
        rw [if_pos hk, if_pos hk, if_neg hother]
      · rw [if_neg hk, if_neg hk]

theorem members_of_mem {groups : List (κ × List α)} (h : (groups.map Prod.fst).Nodup) {entry : κ × List α}
    (hentry : entry ∈ groups) : members entry.1 groups = entry.2 := by
  induction groups with
  | nil => cases hentry
  | cons first rest ih =>
    rw [List.map_cons, List.nodup_cons] at h
    rw [members]
    rcases List.mem_cons.mp hentry with rfl | hrest
    · rw [if_pos rfl]
    · have hother : first.1 ≠ entry.1 := by
        intro hsame
        apply h.1
        rw [hsame]
        exact List.mem_map_of_mem hrest
      rw [if_neg hother]
      exact ih h.2 hrest

theorem nodup_group (items : List α) : ((group key items).map Prod.fst).Nodup := by
  induction items using List.reverseRecOn with
  | nil => exact List.nodup_nil
  | append_singleton items item ih =>
    rw [group, List.foldl_append]
    exact nodup_push key item ih

theorem members_group (items : List α) (k : κ) : members k (group key items) = items.filter (key · = k) := by
  induction items using List.reverseRecOn with
  | nil => rfl
  | append_singleton items item ih =>
    have hpush : group key (items ++ [item]) = push key item (group key items) := by rw [group, List.foldl_append]; rfl
    rw [hpush, members_push, ih, List.filter_append]
    by_cases hk : key item = k <;> simp [hk]

theorem mem_keys_group (items : List α) (k : κ) : k ∈ (group key items).map Prod.fst ↔ ∃ item ∈ items, key item = k := by
  induction items using List.reverseRecOn with
  | nil => simp [group]
  | append_singleton items item ih =>
    have hpush : group key (items ++ [item]) = push key item (group key items) := by rw [group, List.foldl_append]; rfl
    have hsplit : (∃ other ∈ items ++ [item], key other = k) ↔ (∃ other ∈ items, key other = k) ∨ key item = k := by
      simp [or_and_right, exists_or]
    rw [hpush, keys_push, hsplit, ← ih]
    split
    next hold =>
      constructor
      · exact .inl
      · rintro (h | rfl)
        · exact h
        · exact hold
    next => rw [List.mem_append, List.mem_singleton, eq_comm]

/-- A group holds the items of its key. -/
theorem mem_group (items : List α) {entry : κ × List α} :
    entry ∈ group key items ↔ entry.2 = items.filter (key · = entry.1) ∧ entry.2 ≠ [] := by
  constructor
  · intro h
    have hitems := (members_of_mem (nodup_group key items) h).symm
    rw [members_group] at hitems
    obtain ⟨item, hitem, hkey⟩ := (mem_keys_group key items entry.1).mp (List.mem_map_of_mem h)
    refine ⟨hitems, ?_⟩
    rw [hitems]
    exact List.ne_nil_of_mem (List.mem_filter.mpr ⟨hitem, by simpa using hkey⟩)
  · intro h
    obtain ⟨item, hitem⟩ := List.exists_mem_of_ne_nil _ h.2
    rw [h.1, List.mem_filter] at hitem
    have hkey : ∃ item ∈ items, key item = entry.1 := ⟨item, hitem.1, by simpa using hitem.2⟩
    obtain ⟨other, hother, hsame⟩ := List.mem_map.mp ((mem_keys_group key items entry.1).mpr hkey)
    have hitems := members_of_mem (nodup_group key items) hother
    rw [members_group, hsame, ← h.1] at hitems
    rwa [Prod.ext hsame.symm hitems]

end DaygleDns.Grouping
