import Mathlib.Data.List.AList
import Mathlib.Data.List.Perm.Subperm

/-! A map with finitely many keys: its size, and the removal of the entries that fail a test. -/
namespace DaygleDns

abbrev KeyedMap (κ α : Type) := AList fun _ : κ => α

namespace KeyedMap

variable {κ α : Type}

def size (map : KeyedMap κ α) : Nat := map.entries.length

/-- The entries that pass the test. -/
def retain (keep : κ → α → Bool) (map : KeyedMap κ α) : KeyedMap κ α where
  entries := map.entries.filter fun entry => keep entry.1 entry.2
  nodupKeys := map.nodupKeys.sublist List.filter_sublist

@[simp] theorem size_empty : (∅ : KeyedMap κ α).size = 0 := rfl

theorem size_retain_le (keep : κ → α → Bool) (map : KeyedMap κ α) : (map.retain keep).size ≤ map.size :=
  List.length_filter_le _ _

theorem length_keys (map : KeyedMap κ α) : map.keys.length = map.size := List.length_map _

variable [DecidableEq κ]

theorem lookup_retain (keep : κ → α → Bool) (map : KeyedMap κ α) (key : κ) :
    (map.retain keep).lookup key = (map.lookup key).filter (keep key) := by
  apply Option.ext
  intro value
  rw [← Option.mem_def, AList.mem_lookup_iff, Option.filter_eq_some_iff, ← Option.mem_def, AList.mem_lookup_iff]
  exact List.mem_filter

theorem lookup_insert (map : KeyedMap κ α) (key other : κ) (value : α) :
    AList.lookup other (map.insert key value) = if other = key then some value else map.lookup other := by
  by_cases h : other = key
  · rw [if_pos h, h, AList.lookup_insert]
  · rw [if_neg h, AList.lookup_insert_ne h]

/-- A map that has the keys of another is at least as large. -/
theorem size_le_of_keys {β : Type} {first : KeyedMap κ α} {second : KeyedMap κ β}
    (h : ∀ key, (first.lookup key).isSome → (second.lookup key).isSome) : first.size ≤ second.size := by
  have hsubset : first.keys ⊆ second.keys := by
    intro key hkey
    rw [← AList.mem_keys, ← AList.lookup_isSome] at hkey ⊢
    exact h key hkey
  have hlength := (List.subperm_of_subset first.keys_nodup hsubset).length_le
  rwa [length_keys, length_keys] at hlength

theorem size_insert_of_mem {map : KeyedMap κ α} {key : κ} (h : (map.lookup key).isSome) (value : α) :
    KeyedMap.size (map.insert key value) = map.size := by
  have hkey := AList.mem_keys.mp (AList.lookup_isSome.mp h)
  have hpos : 0 < map.keys.length := List.length_pos_of_mem hkey
  have hlength : (AList.insert key value map).keys.length = map.keys.length := by
    rw [AList.keys_insert, List.length_cons, List.length_erase_of_mem hkey]
    omega
  rwa [length_keys, length_keys] at hlength

theorem size_insert_of_not_mem {map : KeyedMap κ α} {key : κ} (h : map.lookup key = none) (value : α) :
    KeyedMap.size (map.insert key value) = map.size + 1 := by
  rw [size, AList.entries_insert_of_notMem (AList.lookup_eq_none.mp h)]
  rfl

theorem size_insert_le (map : KeyedMap κ α) (key : κ) (value : α) :
    KeyedMap.size (map.insert key value) ≤ map.size + 1 := by
  cases h : map.lookup key with
  | none => rw [size_insert_of_not_mem h]
  | some old =>
    rw [size_insert_of_mem (by rw [h]; rfl)]
    omega

/-- What a loop leaves under a key, where each of its items is for at most one key. -/
theorem lookup_foldl {β : Type} {step : KeyedMap κ α → β → KeyedMap κ α} {key : β → Option κ}
    {next : Option α → β → Option α}
    (h : ∀ map item k, (step map item).lookup k = if key item = some k then next (map.lookup k) item else map.lookup k)
    (items : List β) (map : KeyedMap κ α) (k : κ) :
    (items.foldl step map).lookup k = (items.filter fun item => key item == some k).foldl next (map.lookup k) := by
  induction items generalizing map with
  | nil => rfl
  | cons item items ih =>
    rw [List.foldl_cons, ih, h]
    by_cases hkey : key item = some k
    · rw [if_pos hkey, List.filter_cons, hkey, beq_self_eq_true, if_pos rfl, List.foldl_cons]
    · rw [if_neg hkey, List.filter_cons, if_neg (by rwa [beq_iff_eq])]

/-- The items that the entries have under a key. -/
theorem flatMap_of_key {β : Type} {entries : List (κ × α)} (h : (entries.map Prod.fst).Nodup)
    (items : α → List β) {key : κ} {value : α} (hmem : (key, value) ∈ entries) :
    entries.flatMap (fun entry => if entry.1 = key then items entry.2 else []) = items value := by
  induction entries with
  | nil => cases hmem
  | cons entry entries ih =>
    rw [List.map_cons, List.nodup_cons] at h
    rw [List.flatMap_cons]
    rcases List.mem_cons.mp hmem with rfl | hlater
    · have hnone : entries.flatMap (fun entry => if entry.1 = key then items entry.2 else []) = [] := by
        rw [List.flatMap_eq_nil_iff]
        intro entry hentry
        exact if_neg fun hkey => h.1 (List.mem_map.mpr ⟨entry, hentry, hkey⟩)
      rw [if_pos rfl, hnone, List.append_nil]
    · have hne : entry.1 ≠ key := fun hkey => h.1 (List.mem_map.mpr ⟨_, hlater, hkey.symm⟩)
      rw [if_neg hne, List.nil_append, ih h.2 hlater]

end KeyedMap

end DaygleDns
