import Mathlib.Data.List.Perm.Lattice
import Mathlib.Order.Lattice

/-! Rows in the strict order of their keys, as B-tree maps and sets keep them.
A set is a table whose rows are their own keys. -/
namespace DaygleDns

structure OrderedTable (α κ : Type) [LinearOrder κ] (key : α → κ) where
  rows : List α
  sorted : rows.Pairwise fun first second => key first < key second
deriving DecidableEq

/-- An order in which the elements of a hash map or set are gone through. -/
structure Shuffle (α : Type) where
  shuffle : List α → List α
  perm : ∀ items, (shuffle items).Perm items

def Shuffle.plain {α : Type} : Shuffle α := ⟨id, fun _ => .refl _⟩

namespace OrderedTable

variable {α κ : Type} [LinearOrder κ] {key : α → κ}

/-- Put `row` in its place, instead of the row of the same key if there is one. -/
def insertRow (key : α → κ) (row : α) : List α → List α
  | [] => [row]
  | other :: rest =>
      if key row < key other then row :: other :: rest
      else if key row = key other then row :: rest
      else other :: insertRow key row rest

theorem mem_insertRow {row other : α} {rows : List α} (h : other ∈ insertRow key row rows) :
    other = row ∨ other ∈ rows := by
  induction rows with
  | nil => simpa [insertRow] using h
  | cons first rest ih =>
    simp only [insertRow] at h
    split at h
    · simpa using h
    · split at h
      · rcases List.mem_cons.mp h with h | h
        · exact .inl h
        · exact .inr (List.mem_cons_of_mem _ h)
      · rcases List.mem_cons.mp h with h | h
        · exact .inr (by simp [h])
        · exact (ih h).imp_right (List.mem_cons_of_mem _)

theorem sorted_insertRow (row : α) {rows : List α}
    (h : rows.Pairwise fun first second => key first < key second) :
    (insertRow key row rows).Pairwise fun first second => key first < key second := by
  induction rows with
  | nil => simp [insertRow]
  | cons first rest ih =>
    obtain ⟨hfirst, hrest⟩ := List.pairwise_cons.mp h
    simp only [insertRow]
    split
    next hlt =>
      refine List.pairwise_cons.mpr ⟨fun other hother => ?_, h⟩
      rcases List.mem_cons.mp hother with rfl | hother
      · exact hlt
      · exact hlt.trans (hfirst other hother)
    next hnot =>
      split
      next heq => exact List.pairwise_cons.mpr ⟨fun other hother => heq ▸ hfirst other hother, hrest⟩
      next hne =>
        have hgt : key first < key row := lt_of_le_of_ne (not_lt.mp hnot) (Ne.symm hne)
        refine List.pairwise_cons.mpr ⟨fun other hother => ?_, ih hrest⟩
        rcases mem_insertRow hother with rfl | hother
        · exact hgt
        · exact hfirst other hother

theorem find?_insertRow (row : α) (k : κ) (rows : List α) :
    (insertRow key row rows).find? (fun other => key other = k) =
      if key row = k then some row else rows.find? fun other => key other = k := by
  induction rows with
  | nil => by_cases hk : key row = k <;> simp [insertRow, hk]
  | cons first rest ih =>
    simp only [insertRow]
    split
    · by_cases hk : key row = k <;> simp [List.find?_cons, hk]
    · split
      next heq => by_cases hk : key row = k <;> simp [hk, ← heq]
      next hne =>
        by_cases hk : key row = k
        · have hfirst : key first ≠ k := fun h => hne (hk.trans h.symm)
          simp [hfirst, ih, hk]
        · simp [List.find?_cons, ih, hk]

def empty : OrderedTable α κ key := ⟨[], List.Pairwise.nil⟩

def get (table : OrderedTable α κ key) (k : κ) : Option α :=
  table.rows.find? fun row => key row = k

def contains (table : OrderedTable α κ key) (k : κ) : Bool := (table.get k).isSome

/-- Insert a row or replace the one of its key. -/
def put (table : OrderedTable α κ key) (row : α) : OrderedTable α κ key :=
  ⟨insertRow key row table.rows, sorted_insertRow row table.sorted⟩

def putAll (table : OrderedTable α κ key) (rows : List α) : OrderedTable α κ key :=
  rows.foldl put table

def erase (table : OrderedTable α κ key) (k : κ) : OrderedTable α κ key :=
  ⟨table.rows.filter fun row => key row ≠ k, table.sorted.filter _⟩

/-- The rows that `keep` accepts. -/
def retain (table : OrderedTable α κ key) (keep : α → Bool) : OrderedTable α κ key :=
  ⟨table.rows.filter keep, table.sorted.filter _⟩

def eraseAll (table : OrderedTable α κ key) (ks : List κ) : OrderedTable α κ key := ks.foldl erase table

/-- Change the row of key `k` in place, in columns other than the key. -/
def modify (table : OrderedTable α κ key) (k : κ) (change : α → α)
    (hkey : ∀ row, key (change row) = key row) : OrderedTable α κ key :=
  ⟨table.rows.map fun row => if key row = k then change row else row, by
    refine List.pairwise_map.mpr (table.sorted.imp fun {first second} h => ?_)
    split <;> split <;> simpa only [hkey] using h⟩

theorem key_of_get {table : OrderedTable α κ key} {k : κ} {row : α} (h : table.get k = some row) :
    key row = k := by
  have hrow := List.find?_some h
  exact of_decide_eq_true hrow

theorem mem_of_get {table : OrderedTable α κ key} {k : κ} {row : α} (h : table.get k = some row) :
    row ∈ table.rows :=
  List.mem_of_find?_eq_some h

theorem nodup_keys (table : OrderedTable α κ key) : (table.rows.map key).Nodup :=
  List.pairwise_map.mpr (table.sorted.imp ne_of_lt)

theorem get_of_mem {table : OrderedTable α κ key} {row : α} (h : row ∈ table.rows) :
    table.get (key row) = some row := by
  have hsome : (table.get (key row)).isSome := List.find?_isSome.mpr ⟨row, h, by simp⟩
  obtain ⟨other, hother⟩ := Option.isSome_iff_exists.mp hsome
  have hsame := List.inj_on_of_nodup_map table.nodup_keys (mem_of_get hother) h (key_of_get hother)
  rw [hother, hsame]

theorem mem_rows_iff {table : OrderedTable α κ key} {row : α} :
    row ∈ table.rows ↔ table.get (key row) = some row :=
  ⟨get_of_mem, mem_of_get⟩

theorem get_eq_none_iff {table : OrderedTable α κ key} {k : κ} :
    table.get k = none ↔ ∀ row ∈ table.rows, key row ≠ k := by
  simp [get]

@[simp] theorem get_empty (k : κ) : (empty : OrderedTable α κ key).get k = none := rfl

theorem get_put (table : OrderedTable α κ key) (row : α) (k : κ) :
    (table.put row).get k = if key row = k then some row else table.get k :=
  find?_insertRow row k table.rows

theorem get_erase (table : OrderedTable α κ key) (gone k : κ) :
    (table.erase gone).get k = if k = gone then none else table.get k := by
  simp only [get, erase, List.find?_filter]
  by_cases hk : k = gone
  · simp [hk]
  · rw [if_neg hk]
    congr 1
    funext row
    by_cases hrow : key row = k <;> simp [hrow, hk]

theorem get_retain (table : OrderedTable α κ key) (keep : α → Bool) (k : κ) :
    (table.retain keep).get k = (table.get k).filter keep := by
  cases hget : table.get k with
  | none =>
    refine get_eq_none_iff.mpr fun row hrow => ?_
    exact get_eq_none_iff.mp hget row (List.mem_of_mem_filter hrow)
  | some row =>
    have hk := key_of_get hget
    cases hkeep : keep row with
    | true =>
      have hmem : row ∈ (table.retain keep).rows := List.mem_filter.mpr ⟨mem_of_get hget, hkeep⟩
      rw [← hk, get_of_mem hmem]
      exact (Option.filter_eq_some_iff.mpr ⟨rfl, hkeep⟩).symm
    | false =>
      have hnone : (some row).filter keep = none := Option.filter_eq_none_iff.mpr (by simp [hkeep])
      rw [hnone]
      refine get_eq_none_iff.mpr fun other hother hsame => ?_
      obtain ⟨hmem, hkept⟩ := List.mem_filter.mp hother
      have hget' := get_of_mem hmem
      rw [hsame, hget] at hget'
      rw [← Option.some.inj hget', hkeep] at hkept
      cases hkept

theorem get_eraseAll (table : OrderedTable α κ key) (ks : List κ) (k : κ) :
    (table.eraseAll ks).get k = if k ∈ ks then none else table.get k := by
  induction ks generalizing table with
  | nil => rfl
  | cons gone ks ih =>
    have hrest : table.eraseAll (gone :: ks) = (table.erase gone).eraseAll ks := rfl
    rw [hrest, ih, get_erase]
    by_cases hk : k = gone <;> simp [hk]

theorem get_modify (table : OrderedTable α κ key) (at_ k : κ) (change : α → α)
    (hkey : ∀ row, key (change row) = key row) :
    (table.modify at_ change hkey).get k =
      if k = at_ then (table.get k).map change else table.get k := by
  simp only [get, modify, List.find?_map]
  have hsame : ((fun row => decide (key row = k)) ∘ fun row => if key row = at_ then change row else row) =
      fun row => decide (key row = k) := by
    funext row
    by_cases hrow : key row = at_ <;> simp [hrow, hkey]
  rw [hsame]
  cases hfind : table.rows.find? (fun row => decide (key row = k)) with
  | none => simp
  | some row =>
    have hrow := List.find?_some hfind
    have hrow : key row = k := of_decide_eq_true hrow
    by_cases hk : k = at_ <;> simp [hrow, hk]

/-- Tables that answer every lookup alike are equal. -/
theorem ext_get {first second : OrderedTable α κ key} (h : ∀ k, first.get k = second.get k) :
    first = second := by
  have hmem (row : α) : row ∈ first.rows ↔ row ∈ second.rows := by rw [mem_rows_iff, mem_rows_iff, h]
  have hnodup (table : OrderedTable α κ key) : table.rows.Nodup :=
    List.Nodup.of_map key table.nodup_keys
  have hperm := (List.perm_ext_iff_of_nodup (hnodup first) (hnodup second)).mpr hmem
  have hrows : first.rows = second.rows :=
    hperm.eq_of_pairwise (fun a b _ _ hab hba => absurd hab (not_lt.mpr hba.le))
      first.sorted second.sorted
  cases first
  cases second
  simpa using hrows

theorem get_putAll (table : OrderedTable α κ key) {rows : List α} (hnodup : (rows.map key).Nodup) (k : κ) :
    (table.putAll rows).get k = (rows.find? fun row => key row = k).or (table.get k) := by
  induction rows generalizing table with
  | nil => rfl
  | cons row rows ih =>
    obtain ⟨hrow, hrows⟩ := List.nodup_cons.mp hnodup
    have hrest : table.putAll (row :: rows) = (table.put row).putAll rows := rfl
    rw [hrest, ih (table.put row) hrows, get_put]
    by_cases hk : key row = k
    · have hnone : rows.find? (fun other => key other = k) = none := by
        refine List.find?_eq_none.mpr fun other hother => ?_
        simp only [decide_eq_true_eq]
        intro hsame
        exact hrow (List.mem_map.mpr ⟨other, hother, hsame.trans hk.symm⟩)
      simp [hk, hnone]
    · simp [hk]

theorem get_putAll_iff {rows : List α} (hnodup : (rows.map key).Nodup)
    {row : α} : ((empty : OrderedTable α κ key).putAll rows).get (key row) = some row ↔ row ∈ rows := by
  rw [get_putAll _ hnodup, get_empty, Option.or_none]
  constructor
  · exact List.mem_of_find?_eq_some
  · intro hrow
    have hsome : (rows.find? fun other => key other = key row).isSome = true :=
      List.find?_isSome.mpr ⟨row, hrow, decide_eq_true rfl⟩
    obtain ⟨other, hother⟩ := Option.isSome_iff_exists.mp hsome
    have hfound := List.find?_some hother
    have hkey : key other = key row := of_decide_eq_true hfound
    rw [hother, List.inj_on_of_nodup_map hnodup (List.mem_of_find?_eq_some hother) hrow hkey]

/-- A table is made of its rows. -/
theorem putAll_rows (table : OrderedTable α κ key) : (empty : OrderedTable α κ key).putAll table.rows = table := by
  apply ext_get
  intro k
  rw [get_putAll _ table.nodup_keys]
  exact Option.or_none

/-- The last row up to `k`, as `range(..=k).next_back()`. -/
def floor (table : OrderedTable α κ key) (k : κ) : Option α :=
  (table.rows.filter fun row => key row ≤ k).getLast?

theorem floor_isSome {table : OrderedTable α κ key} {k : κ} {row : α} (hrow : row ∈ table.rows) (hle : key row ≤ k) :
    (table.floor k).isSome := by
  have hmem : row ∈ table.rows.filter fun row => key row ≤ k := List.mem_filter.mpr ⟨hrow, decide_eq_true hle⟩
  rw [floor, List.getLast?_eq_some_getLast (List.ne_nil_of_mem hmem)]
  rfl

theorem floor_spec {table : OrderedTable α κ key} {k : κ} {row : α} (h : table.floor k = some row) :
    row ∈ table.rows ∧ key row ≤ k ∧ ∀ other ∈ table.rows, key other ≤ k → key other ≤ key row := by
  obtain ⟨front, hrows⟩ := List.getLast?_eq_some_iff.mp h
  have hrow := List.mem_of_getLast? h
  have hfilter := List.mem_filter.mp hrow
  refine ⟨hfilter.1, of_decide_eq_true hfilter.2, ?_⟩
  intro other hother hle
  have hmem : other ∈ front ++ [row] := hrows ▸ List.mem_filter.mpr ⟨hother, decide_eq_true hle⟩
  have hsorted : (front ++ [row]).Pairwise fun first second => key first < key second := hrows ▸ table.sorted.filter _
  rcases List.mem_append.mp hmem with hfront | hlast
  · exact ((List.pairwise_append.mp hsorted).2.2 other hfront row (List.mem_singleton_self row)).le
  · exact (congrArg key (List.mem_singleton.mp hlast)).le

section Sets

variable {set : OrderedTable κ κ id}

theorem contains_iff {k : κ} : set.contains k ↔ k ∈ set.rows := by
  rw [mem_rows_iff, contains, Option.isSome_iff_exists]
  constructor
  · rintro ⟨row, hrow⟩
    have hk : row = k := key_of_get hrow
    rwa [← hk] at hrow ⊢
  · exact fun h => ⟨k, h⟩

theorem mem_put {k other : κ} : other ∈ (set.put k).rows ↔ other = k ∨ other ∈ set.rows := by
  rw [mem_rows_iff, mem_rows_iff, get_put]
  by_cases h : k = other <;> simp [h, eq_comm]

theorem mem_erase {gone other : κ} : other ∈ (set.erase gone).rows ↔ other ≠ gone ∧ other ∈ set.rows := by
  simp [erase, and_comm]

theorem mem_putAll {ks : List κ} {other : κ} :
    other ∈ (set.putAll ks).rows ↔ other ∈ ks ∨ other ∈ set.rows := by
  induction ks generalizing set with
  | nil => simp [putAll]
  | cons k ks ih =>
    have hrest : (set.putAll (k :: ks)) = (set.put k).putAll ks := rfl
    rw [hrest, ih, mem_put, List.mem_cons]
    tauto

end Sets

end OrderedTable

end DaygleDns
