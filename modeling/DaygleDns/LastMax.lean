import Mathlib.Data.List.Induction

/-! The last of the members of a list that have the greatest key. -/
namespace DaygleDns

variable {α : Type}

def lastMaxBy (key : α → Nat) (items : List α) : Option α :=
  items.foldl
    (fun best item =>
      match best with
      | some greatest => if key greatest ≤ key item then some item else best
      | none => some item)
    none

namespace LastMax

/-- It is one of the items, and none of them has a greater key. -/
structure Greatest (key : α → Nat) (items : List α) (item : α) : Prop where
  mem : item ∈ items
  le : ∀ other ∈ items, key other ≤ key item

theorem lastMaxBy_append (key : α → Nat) (items : List α) (last : α) :
    lastMaxBy key (items ++ [last]) =
      match lastMaxBy key items with
      | some greatest => if key greatest ≤ key last then some last else some greatest
      | none => some last := by
  simp only [lastMaxBy, List.foldl_append, List.foldl_cons, List.foldl_nil]
  split
  · next h => rw [h]
  · rfl

theorem greatest_last {key : α → Nat} {items : List α} {last : α} (h : ∀ item ∈ items, key item ≤ key last) :
    Greatest key (items ++ [last]) last := by
  apply Greatest.mk
  · simp
  · intro other hother
    rw [List.mem_append, List.mem_singleton] at hother
    cases hother with
    | inl hmem => exact h other hmem
    | inr heq => exact heq ▸ Nat.le_refl _

theorem Greatest.append {key : α → Nat} {items : List α} {item last : α} (h : Greatest key items item)
    (hlast : key last ≤ key item) : Greatest key (items ++ [last]) item := by
  apply Greatest.mk
  · exact List.mem_append_left _ h.mem
  · intro other hother
    rw [List.mem_append, List.mem_singleton] at hother
    cases hother with
    | inl hmem => exact h.le other hmem
    | inr heq => exact heq ▸ hlast

/-- A list without items has no greatest one, and any other list has. -/
theorem lastMaxBy_spec (key : α → Nat) (items : List α) :
    (items = [] ∧ lastMaxBy key items = none) ∨
      ∃ item, lastMaxBy key items = some item ∧ Greatest key items item := by
  induction items using List.reverseRecOn with
  | nil => exact .inl ⟨rfl, rfl⟩
  | append_singleton items last ih =>
    apply Or.inr
    rw [lastMaxBy_append]
    obtain ⟨hnil, hnone⟩ | ⟨item, hsome, hgreatest⟩ := ih
    · rw [hnone]
      exact ⟨last, rfl, greatest_last (by simp [hnil])⟩
    · simp only [hsome]
      by_cases hle : key item ≤ key last
      · rw [if_pos hle]
        exact ⟨last, rfl, greatest_last fun other hother => Nat.le_trans (hgreatest.le other hother) hle⟩
      · rw [if_neg hle]
        exact ⟨item, rfl, hgreatest.append (by omega)⟩

theorem greatest_of_lastMaxBy {key : α → Nat} {items : List α} {item : α} (h : lastMaxBy key items = some item) :
    Greatest key items item := by
  obtain ⟨-, hnone⟩ | ⟨other, hsome, hgreatest⟩ := lastMaxBy_spec key items
  · rw [hnone] at h
    cases h
  · rw [hsome] at h
    cases h
    exact hgreatest

theorem lastMaxBy_eq_none {key : α → Nat} {items : List α} : lastMaxBy key items = none ↔ items = [] := by
  obtain ⟨hnil, hnone⟩ | ⟨other, hsome, hgreatest⟩ := lastMaxBy_spec key items
  · subst hnil
    simp [hnone]
  · rw [hsome]
    have hne : items ≠ [] := List.ne_nil_of_mem hgreatest.mem
    simp [hne]

end LastMax

end DaygleDns
