import Mathlib.Data.List.Basic
import Mathlib.Tactic.Common

/-! A list cut into parts of one size, the last of which may be shorter, and the
results of the parts put together again. -/
namespace DaygleDns.Chunks

variable {α β : Type}

/-- The first `count` parts. -/
def cut (size : Nat) : Nat → List α → List (List α)
  | _, [] => []
  | 0, _ :: _ => []
  | count + 1, item :: rest => (item :: rest).take size :: cut size count ((item :: rest).drop size)

/-- A list has no more parts than items. -/
def chunks (size : Nat) (items : List α) : List (List α) := cut size items.length items

/-- The part that an index is in. -/
def partOf (size : Nat) (items : List α) (i : Nat) : List α := (items.drop (i / size * size)).take size

theorem partOf_of_lt {size i : Nat} (items : List α) (h : i < size) : partOf size items i = items.take size := by
  rw [partOf, Nat.div_eq_of_lt h, Nat.zero_mul, List.drop_zero]

theorem partOf_add {size : Nat} (items : List α) (i : Nat) (h : 0 < size) :
    partOf size items (i + size) = partOf size (items.drop size) i := by
  rw [partOf, partOf, Nat.add_div_right i h, List.drop_drop, Nat.succ_mul, Nat.add_comm]

theorem mem_partOf {size : Nat} {items : List α} {i : Nat} {item : α} (h : 0 < size) :
    item ∈ partOf size items i ↔ ∃ k, ∃ hk : k < items.length, k / size = i / size ∧ items[k] = item := by
  rw [partOf, List.mem_iff_getElem]
  have hmul : i / size * size = size * (i / size) := Nat.mul_comm _ _
  constructor
  · rintro ⟨k, hk, hitem⟩
    rw [List.length_take, List.length_drop] at hk
    rw [List.getElem_take, List.getElem_drop] at hitem
    refine ⟨i / size * size + k, by omega, ?_, hitem⟩
    have hsmall : k < size := by omega
    rw [hmul, Nat.mul_add_div h, Nat.div_eq_of_lt hsmall, Nat.add_zero]
  · rintro ⟨k, hk, hsame, hitem⟩
    have hsplit := Nat.div_add_mod k size
    have hmod := Nat.mod_lt k h
    rw [hsame] at hsplit
    refine ⟨k % size, ?_, ?_⟩
    · rw [List.length_take, List.length_drop]
      omega
    · rw [List.getElem_take, List.getElem_drop, ← hitem]
      congr 1
      omega

theorem getElem?_partOf {size : Nat} (h : 0 < size) (items : List α) (i : Nat) :
    (partOf size items i)[i % size]? = items[i]? := by
  rw [partOf, List.getElem?_take_of_lt (Nat.mod_lt i h), List.getElem?_drop, Nat.div_add_mod']

variable {f : List α → List β}

theorem length_flatMap_cut (hf : ∀ part, (f part).length = part.length) {size : Nat} (h : 0 < size) (count : Nat)
    (items : List α) (hcount : items.length ≤ count) : ((cut size count items).flatMap f).length = items.length := by
  induction count generalizing items with
  | zero =>
    rw [List.eq_nil_of_length_eq_zero (Nat.le_zero.mp hcount)]
    rfl
  | succ count ih =>
    cases items with
    | nil => rfl
    | cons item rest =>
      rw [cut, List.flatMap_cons, List.length_append, hf, ih, List.length_take, List.length_drop]
      · omega
      · rw [List.length_drop]
        omega

/-- The result at an index is that of its own part. -/
theorem getElem?_flatMap_cut (hf : ∀ part, (f part).length = part.length) {size : Nat} (h : 0 < size) (count : Nat)
    (items : List α) (hcount : items.length ≤ count) (i : Nat) :
    ((cut size count items).flatMap f)[i]? = (f (partOf size items i))[i % size]? := by
  induction count generalizing items i with
  | zero =>
    rw [List.eq_nil_of_length_eq_zero (Nat.le_zero.mp hcount), partOf, List.drop_nil, List.take_nil,
      List.eq_nil_of_length_eq_zero (hf [])]
    rfl
  | succ count ih =>
    cases items with
    | nil =>
      rw [partOf, List.drop_nil, List.take_nil, List.eq_nil_of_length_eq_zero (hf [])]
      rfl
    | cons item rest =>
      have hrest : ((item :: rest).drop size).length ≤ count := by
        rw [List.length_drop]
        omega
      rw [cut, List.flatMap_cons]
      by_cases hi : i < size
      · rw [partOf_of_lt _ hi, Nat.mod_eq_of_lt hi]
        by_cases hshort : i < ((item :: rest).take size).length
        · exact List.getElem?_append_left ((hf _).symm ▸ hshort)
        · -- The list ends in this part.
          rw [List.length_take] at hshort
          have hempty : (item :: rest).drop size = [] := List.drop_eq_nil_of_le (by omega)
          rw [hempty, cut.eq_def]
          simp
      · obtain ⟨j, rfl⟩ : ∃ j, i = j + size := ⟨i - size, by omega⟩
        rw [partOf_add _ j h, Nat.add_mod_right, ← ih _ hrest j]
        by_cases hfull : size ≤ (item :: rest).length
        · rw [List.getElem?_append_right (by rw [hf, List.length_take]; omega), hf, List.length_take, Nat.min_eq_left hfull,
            Nat.add_sub_cancel]
        · have hempty : (item :: rest).drop size = [] := List.drop_eq_nil_of_le (by omega)
          have hcut : cut size count ([] : List α) = [] := by cases count <;> rfl
          have hend : (f ((item :: rest).take size)).length ≤ j + size := by
            rw [hf, List.length_take]
            omega
          rw [hempty, hcut, List.flatMap_nil, List.append_nil, List.getElem?_nil]
          exact List.getElem?_eq_none hend

theorem length_flatMap_chunks (hf : ∀ part, (f part).length = part.length) {size : Nat} (h : 0 < size)
    (items : List α) : ((chunks size items).flatMap f).length = items.length :=
  length_flatMap_cut hf h _ items (Nat.le_refl _)

theorem getElem?_flatMap_chunks (hf : ∀ part, (f part).length = part.length) {size : Nat} (h : 0 < size)
    (items : List α) (i : Nat) : ((chunks size items).flatMap f)[i]? = (f (partOf size items i))[i % size]? :=
  getElem?_flatMap_cut hf h _ items (Nat.le_refl _) i

end DaygleDns.Chunks
