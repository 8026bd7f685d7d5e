import Mathlib.Data.List.Nodup

/-! A database table: rows with distinct primary keys. `next` stands for the
supply of random identifiers, which never gives one out twice. -/
namespace DaygleDns

structure Table (α : Type) (key : α → Nat) where
  rows : List α
  next : Nat
  nodup : (rows.map key).Nodup
  below : ∀ row ∈ rows, key row < next

namespace Table

variable {α : Type} {key : α → Nat}

def empty : Table α key := ⟨[], 0, by simp, by simp⟩

def find? (table : Table α key) (id : Nat) : Option α :=
  table.rows.find? fun row => key row == id

/-- `INSERT` of a row under a fresh identifier. -/
def insert (table : Table α key) (row : Nat → α) (hrow : ∀ id, key (row id) = id) :
    Table α key where
  rows := table.rows ++ [row table.next]
  next := table.next + 1
  nodup := by
    simp only [List.map_append, List.map_cons, List.map_nil, hrow]
    refine List.nodup_append.mpr ⟨table.nodup, List.nodup_singleton _, ?_⟩
    intro id hid other hother
    obtain ⟨old, hold, rfl⟩ := List.mem_map.mp hid
    have := table.below old hold
    simp only [List.mem_singleton] at hother
    omega
  below := by
    intro old hold
    rcases List.mem_append.mp hold with hold | hold
    · exact Nat.lt_succ_of_lt (table.below old hold)
    · rw [List.mem_singleton.mp hold, hrow]
      exact Nat.lt_succ_self _

/-- `DELETE` of the rows that `hit` selects. -/
def delete (table : Table α key) (hit : α → Bool) : Table α key where
  rows := table.rows.filter fun row => !hit row
  next := table.next
  nodup := table.nodup.sublist (List.filter_sublist.map key)
  below := fun row hrow => table.below row (List.mem_of_mem_filter hrow)

/-- `UPDATE` of the rows that `hit` selects, in columns other than the key. -/
def update (table : Table α key) (hit : α → Bool) (change : α → α)
    (hkey : ∀ row, key (change row) = key row) : Table α key where
  rows := table.rows.map fun row => if hit row then change row else row
  next := table.next
  nodup := by
    have hsame : (table.rows.map fun row => if hit row then change row else row).map key =
        table.rows.map key := by
      rw [List.map_map]
      apply List.map_congr_left
      intro row _
      by_cases hrow : hit row = true <;> simp [hrow, hkey]
    rw [hsame]
    exact table.nodup
  below := by
    intro row hrow
    obtain ⟨old, hold, rfl⟩ := List.mem_map.mp hrow
    have := table.below old hold
    by_cases hhit : hit old = true <;> simpa [hhit, hkey] using this

/-- `UPDATE` of one row's primary key, together with other columns. The key's
uniqueness constraint refuses an identifier that another row has. -/
def rekey (table : Table α key) (old new : Nat) (change : α → α)
    (hkey : ∀ row, key (change row) = new) : Option (Table α key) :=
  if hnew : new ∈ table.rows.map key ∧ new ≠ old then none
  else some {
    rows := table.rows.map fun row => if key row == old then change row else row
    next := max table.next (new + 1)
    nodup := by
      have hsame : (table.rows.map fun row => if key row == old then change row else row).map key =
          (table.rows.map key).map fun id => if id = old then new else id := by
        rw [List.map_map, List.map_map]
        apply List.map_congr_left
        intro row _
        by_cases hrow : key row = old <;> simp [hrow, hkey]
      rw [hsame]
      refine table.nodup.map_on ?_
      intro first hfirst second hsecond heq
      by_cases h1 : first = old <;> by_cases h2 : second = old <;>
        simp only [h1, h2, if_true, if_false] at heq ⊢
      · exact absurd ⟨heq ▸ hsecond, fun h => h2 (heq ▸ h)⟩ hnew
      · exact absurd ⟨heq ▸ hfirst, fun h => h1 (heq.trans h)⟩ hnew
      · exact heq
    below := by
      intro row hrow
      obtain ⟨prior, hprior, rfl⟩ := List.mem_map.mp hrow
      have := table.below prior hprior
      by_cases hhit : key prior = old
      · simp only [hhit, beq_self_eq_true, if_true, hkey]
        omega
      · simp only [hhit, beq_iff_eq, if_false]
        omega }

theorem find?_eq_some_iff (table : Table α key) (id : Nat) (row : α) :
    table.find? id = some row ↔ row ∈ table.rows ∧ key row = id := by
  constructor
  · intro h
    exact ⟨List.mem_of_find?_eq_some h, by simpa using List.find?_some h⟩
  · rintro ⟨hrow, rfl⟩
    cases hfind : table.find? (key row) with
    | none =>
      have := List.find?_eq_none.mp hfind row hrow
      simp at this
    | some other =>
      have hother := List.mem_of_find?_eq_some hfind
      have hkey : key other = key row := by simpa using List.find?_some hfind
      rw [List.inj_on_of_nodup_map table.nodup hother hrow hkey]

theorem eq_of_key_eq (table : Table α key) {first second : α} (hfirst : first ∈ table.rows)
    (hsecond : second ∈ table.rows) (hkey : key first = key second) : first = second :=
  List.inj_on_of_nodup_map table.nodup hfirst hsecond hkey

@[simp] theorem insert_rows (table : Table α key) (row : Nat → α) (hrow : ∀ id, key (row id) = id) :
    (table.insert row hrow).rows = table.rows ++ [row table.next] := rfl

@[simp] theorem delete_rows (table : Table α key) (hit : α → Bool) :
    (table.delete hit).rows = table.rows.filter fun row => !hit row := rfl

@[simp] theorem update_rows (table : Table α key) (hit : α → Bool) (change : α → α)
    (hkey : ∀ row, key (change row) = key row) :
    (table.update hit change hkey).rows =
      table.rows.map fun row => if hit row then change row else row := rfl

theorem rekey_rows (table renamed : Table α key) (old new : Nat) (change : α → α)
    (hkey : ∀ row, key (change row) = new)
    (h : table.rekey old new change hkey = some renamed) :
    renamed.rows = table.rows.map fun row => if key row == old then change row else row := by
  unfold rekey at h
  split at h
  · contradiction
  · cases h
    rfl

theorem rekey_next (table renamed : Table α key) (old new : Nat) (change : α → α)
    (hkey : ∀ row, key (change row) = new)
    (h : table.rekey old new change hkey = some renamed) : table.next ≤ renamed.next := by
  unfold rekey at h
  split at h
  · contradiction
  · cases h
    exact Nat.le_max_left _ _

end Table

/-! Rows that exclude one another, as a uniqueness constraint would have it. -/

/-- No two different rows clash. -/
def Exclusive {α : Type} (clash : α → α → Prop) (rows : List α) : Prop :=
  ∀ first ∈ rows, ∀ second ∈ rows, clash first second → first = second

instance {α : Type} [DecidableEq α] (clash : α → α → Prop) [∀ a b, Decidable (clash a b)]
    (rows : List α) : Decidable (Exclusive clash rows) :=
  inferInstanceAs (Decidable (∀ first ∈ rows, ∀ second ∈ rows, clash first second → first = second))

namespace Exclusive

variable {α : Type} {clash : α → α → Prop} {rows : List α}

theorem filter (h : Exclusive clash rows) (keep : α → Bool) :
    Exclusive clash (rows.filter keep) :=
  fun first hfirst second hsecond =>
    h first (List.mem_of_mem_filter hfirst) second (List.mem_of_mem_filter hsecond)

theorem append_row (h : Exclusive clash rows) (hsymm : ∀ a b, clash a b → clash b a) {row : α}
    (hrow : ∀ other ∈ rows, ¬ clash row other) : Exclusive clash (rows ++ [row]) := by
  intro first hfirst second hsecond hclash
  rcases List.mem_append.mp hfirst with hfirst | hfirst <;>
    rcases List.mem_append.mp hsecond with hsecond | hsecond
  · exact h first hfirst second hsecond hclash
  · rw [List.mem_singleton.mp hsecond] at hclash
    exact absurd (hsymm _ _ hclash) (hrow first hfirst)
  · rw [List.mem_singleton.mp hfirst] at hclash
    exact absurd hclash (hrow second hsecond)
  · rw [List.mem_singleton.mp hfirst, List.mem_singleton.mp hsecond]

theorem map (h : Exclusive clash rows) (change : α → α)
    (hchange : ∀ a b, clash (change a) (change b) → clash a b) :
    Exclusive clash (rows.map change) := by
  intro first hfirst second hsecond hclash
  obtain ⟨a, ha, rfl⟩ := List.mem_map.mp hfirst
  obtain ⟨b, hb, rfl⟩ := List.mem_map.mp hsecond
  rw [h a ha b hb (hchange a b hclash)]

/-- Changing one row keeps the rows apart exactly when the row as changed
clashes with none of the others. -/
theorem map_row_iff {key : α → Nat} (h : Exclusive clash rows) (hnodup : (rows.map key).Nodup)
    (hsymm : ∀ a b, clash a b → clash b a) (change : α → α) (hkey : ∀ row, key (change row) = key row)
    {row : α} (hrow : row ∈ rows) :
    Exclusive clash (rows.map fun other => if key other == key row then change other else other) ↔
      ∀ other ∈ rows, key other ≠ key row → ¬ clash (change row) other := by
  have himage : ∀ other ∈ rows, key other = key row → other = row := fun other hother hsame =>
    List.inj_on_of_nodup_map hnodup hother hrow hsame
  have hmem : ∀ other, other ∈ (rows.map fun other =>
      if key other == key row then change other else other) ↔
      other = change row ∨ (other ∈ rows ∧ key other ≠ key row) := by
    intro other
    rw [List.mem_map]
    constructor
    · rintro ⟨old, hold, rfl⟩
      by_cases hsame : key old = key row
      · left
        rw [himage old hold hsame]
        simp
      · right
        simp [hsame, hold]
    · rintro (rfl | ⟨hother, hne⟩)
      · exact ⟨row, hrow, by simp⟩
      · exact ⟨other, hother, by simp [hne]⟩
  constructor
  · intro hexclusive other hother hne hclash
    have := hexclusive (change row) ((hmem _).mpr (.inl rfl)) other
      ((hmem _).mpr (.inr ⟨hother, hne⟩)) hclash
    exact hne (this ▸ hkey row)
  · intro hclear first hfirst second hsecond hclash
    rcases (hmem first).mp hfirst with rfl | ⟨hfirst, hne⟩ <;>
      rcases (hmem second).mp hsecond with rfl | ⟨hsecond, hne'⟩
    · rfl
    · exact absurd hclash (hclear second hsecond hne')
    · exact absurd (hsymm _ _ hclash) (hclear first hfirst hne)
    · exact h first hfirst second hsecond hclash

end Exclusive

end DaygleDns
