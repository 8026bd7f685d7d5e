import DaygleDns.Authoritative.Model
import DaygleDns.KeyedMap
import Mathlib.Data.UInt

/-! Weighted address records: each answer holds one of an RRset's records, drawn
in proportion to the weights. -/
namespace DaygleDns.Authoritative

open Text

section Choice

variable {R S : Type}

/-- The sum of the weights. A `u64` holds that of 2^32 records, see `sum_u64`. -/
def totalWeight (choices : List (R × UInt32)) : Nat := (choices.map fun choice => choice.2.toNat).sum

/-- The loop over the choices, with what is left of the point. -/
def walk : List (R × UInt32) → Nat → Option R
  | [], _ => none
  | (record, weight) :: rest, point =>
      if point < weight.toNat then some record else walk rest (point - weight.toNat)

/-- The record at a point; the last one after a loop that returned none. -/
def pickAt (choices : List (R × UInt32)) (point : Nat) : Option R :=
  (walk choices point).or (choices.getLast?.map Prod.fst)

def pickWeighted (choices : List (R × UInt32)) (random : UInt64) : Option R :=
  if totalWeight choices = 0 then none else pickAt choices (random.toNat % totalWeight choices)

def placesFrom (first : Nat) (choices : List (R × UInt32)) : List (Nat × UInt32) :=
  (choices.zipIdx first).map fun entry => (entry.2, entry.1.2)

/-- The places of the list with their weights: the record picked, where records are alike. -/
def places (choices : List (R × UInt32)) : List (Nat × UInt32) := placesFrom 0 choices

/-- Each record once for every unit of its weight. -/
def draws (choices : List (R × UInt32)) : List (Option R) :=
  choices.flatMap fun choice => List.replicate choice.2.toNat (some choice.1)

theorem sum_u64 (choices : List (R × UInt32)) (h : choices.length ≤ 2 ^ 32) :
    (choices.map fun (choice : R × UInt32) => choice.2.toUInt64).sum.toNat = totalWeight choices := by
  have hbound : totalWeight choices ≤ choices.length * (2 ^ 32 - 1) ∧
      (choices.map fun (choice : R × UInt32) => choice.2.toUInt64).sum.toNat = totalWeight choices % 2 ^ 64 := by
    clear h
    induction choices with
    | nil => exact ⟨Nat.zero_le _, rfl⟩
    | cons choice rest ih =>
      have hweight := choice.2.toNat_lt
      simp only [totalWeight, List.map_cons, List.sum_cons, List.length_cons, UInt64.toNat_add,
        UInt32.toNat_toUInt64] at ih ⊢
      omega
  rw [hbound.2]
  apply Nat.mod_eq_of_lt
  have hle := hbound.1
  have hlength := Nat.mul_le_mul_right (2 ^ 32 - 1) h
  omega

theorem walk_map (f : R → S) (choices : List (R × UInt32)) (point : Nat) :
    walk (choices.map fun choice => (f choice.1, choice.2)) point = (walk choices point).map f := by
  induction choices generalizing point with
  | nil => rfl
  | cons choice rest ih =>
    rw [List.map_cons, walk, walk]
    split
    · rfl
    · exact ih _

/-- Over all points the loop returns each record as often as its weight says, in order. -/
theorem map_walk (choices : List (R × UInt32)) :
    (List.range (totalWeight choices)).map (walk choices) = draws choices := by
  induction choices with
  | nil => rfl
  | cons choice rest ih =>
    have hhead : (List.range choice.2.toNat).map (walk (choice :: rest)) =
        List.replicate choice.2.toNat (some choice.1) := by
      apply List.eq_replicate_iff.mpr
      constructor
      · simp
      · intro picked hpicked
        obtain ⟨point, hpoint, hwalk⟩ := List.mem_map.mp hpicked
        rw [← hwalk, walk, if_pos (List.mem_range.mp hpoint)]
    have htail : (walk (choice :: rest)) ∘ (choice.2.toNat + ·) = walk rest := by
      funext point
      simp [walk]
    rw [totalWeight, List.map_cons, List.sum_cons, List.range_add, List.map_append, List.map_map, hhead, htail]
    exact congrArg _ ih

theorem mem_draws_of_lt {choices : List (R × UInt32)} {point : Nat} (h : point < totalWeight choices) :
    walk choices point ∈ draws choices := by
  rw [← map_walk]
  exact List.mem_map_of_mem (List.mem_range.mpr h)

theorem mem_draws {choices : List (R × UInt32)} {picked : Option R} :
    picked ∈ draws choices ↔ ∃ choice ∈ choices, choice.2 ≠ 0 ∧ picked = some choice.1 := by
  have hzero (weight : UInt32) : weight.toNat = 0 ↔ weight = 0 := UInt32.toNat_inj (b := 0)
  simp [draws, List.mem_replicate, hzero]


theorem le_of_mem_draws {choices : List (R × UInt32)} {first place : Nat}
    (h : some place ∈ draws (placesFrom first choices)) : first ≤ place := by
  obtain ⟨choice, hchoice, -, hplace⟩ := mem_draws.mp h
  obtain ⟨entry, hentry, rfl⟩ := List.mem_map.mp hchoice
  rw [Option.some.inj hplace]
  exact (List.mem_zipIdx hentry).1

theorem count_draws (choices : List (R × UInt32)) (first i : Nat) (hi : i < choices.length) :
    (draws (placesFrom first choices)).count (some (first + i)) = (choices[i]).2.toNat := by
  induction choices generalizing first i with
  | nil => exact absurd hi (Nat.not_lt_zero _)
  | cons choice rest ih =>
    have hsplit : draws (placesFrom first (choice :: rest)) =
        List.replicate choice.2.toNat (some first) ++ draws (placesFrom (first + 1) rest) := rfl
    rw [hsplit, List.count_append]
    cases i with
    | zero =>
      have hlater : some first ∉ draws (placesFrom (first + 1) rest) := by
        intro h
        have hle := le_of_mem_draws h
        omega
      rw [Nat.add_zero, List.count_replicate_self, List.count_eq_zero_of_not_mem hlater]
      rfl
    | succ i =>
      have hother : (List.replicate choice.2.toNat (some first)).count (some (first + (i + 1))) = 0 := by
        apply List.count_eq_zero_of_not_mem
        rw [List.mem_replicate, Option.some.injEq]
        omega
      have hshift : first + (i + 1) = first + 1 + i := by omega
      rw [hother, hshift, ih (first + 1) i (Nat.lt_of_succ_lt_succ hi), Nat.zero_add]
      rfl

theorem totalWeight_placesFrom (first : Nat) (choices : List (R × UInt32)) :
    totalWeight (placesFrom first choices) = totalWeight choices := by
  induction choices generalizing first with
  | nil => rfl
  | cons choice rest ih => exact congrArg (choice.2.toNat + ·) (ih (first + 1))

/-- Below the total the loop returns, so the last record is never fallen back on. -/
theorem pickAt_of_lt {choices : List (R × UInt32)} {point : Nat} (h : point < totalWeight choices) :
    walk choices point ≠ none ∧ pickAt choices point = walk choices point := by
  obtain ⟨choice, -, -, hwalk⟩ := mem_draws.mp (mem_draws_of_lt h)
  rw [pickAt, hwalk, Option.some_or]
  exact ⟨nofun, rfl⟩

/-- One walk over the records and their places picks both. -/
theorem pickAt_places {choices : List (R × UInt32)} {point : Nat} (h : point < totalWeight choices) :
    ∃ i, ∃ hi : i < choices.length, pickAt (places choices) point = some i ∧
      pickAt choices point = some (choices[i]).1 ∧ (choices[i]).2 ≠ 0 := by
  let tagged := choices.zipIdx.map fun entry => ((entry.1.1, entry.2), entry.1.2)
  have hplaces : places choices = tagged.map fun choice => (choice.1.2, choice.2) := by
    simp [tagged, places, placesFrom, Function.comp_def]
  have hchoices : choices = tagged.map fun choice => (choice.1.1, choice.2) := by
    simp [tagged, Function.comp_def, List.zipIdx_map_fst]
  have htotal : point < totalWeight tagged := by
    rw [hchoices] at h
    simpa only [totalWeight, List.map_map, Function.comp_def] using h
  have hbelow : point < totalWeight (places choices) := by rwa [places, totalWeight_placesFrom]
  obtain ⟨choice, hchoice, hweight, hwalk⟩ := mem_draws.mp (mem_draws_of_lt htotal)
  obtain ⟨entry, hentry, rfl⟩ := List.mem_map.mp hchoice
  obtain ⟨-, hlt, hget⟩ := List.mem_zipIdx hentry
  have hpick : walk choices point = some entry.1.1 := by
    conv_lhs => rw [hchoices]
    rw [walk_map, hwalk]
    rfl
  refine ⟨entry.2, by omega, ?_, ?_, ?_⟩
  · rw [(pickAt_of_lt hbelow).2, hplaces, walk_map, hwalk]
    rfl
  · rw [(pickAt_of_lt h).2, hpick, hget]
    rfl
  · rwa [hget] at hweight

/-- Each record is picked at as many points below the total as its weight says,
none at a point it has no weight for, and the loop returns at every such point. -/
theorem pickWeighted_exact (choices : List (R × UInt32)) (h : 0 < totalWeight choices) :
    (∀ random, pickWeighted choices random = pickAt choices (random.toNat % totalWeight choices)) ∧
      (∀ point < totalWeight choices, walk choices point ≠ none ∧
        ∃ i, ∃ hi : i < choices.length, pickAt (places choices) point = some i ∧
          pickAt choices point = some (choices[i]).1 ∧ (choices[i]).2 ≠ 0) ∧
      ∀ i, (hi : i < choices.length) →
        ((List.range (totalWeight choices)).countP fun point => pickAt (places choices) point = some i) =
          (choices[i]).2.toNat := by
  refine ⟨fun random => if_neg (Nat.ne_of_gt h), fun point hpoint => ⟨(pickAt_of_lt hpoint).1, pickAt_places hpoint⟩, ?_⟩
  intro i hi
  have hcount := count_draws choices 0 i hi
  rw [← map_walk, totalWeight_placesFrom, List.count, List.countP_map, Nat.zero_add] at hcount
  rw [← hcount]
  apply List.countP_congr
  intro point hpoint
  have hbelow : point < totalWeight (places choices) := by
    rw [places, totalWeight_placesFrom]
    exact List.mem_range.mp hpoint
  rw [(pickAt_of_lt hbelow).2, decide_eq_true_iff, Function.comp_apply, beq_iff_eq]
  rfl

theorem pickWeighted_of_pair :
    ((List.range 3).countP fun point => pickAt (places [("a", 1), ("b", 0), ("c", 2)]) point = some 2) = 2 :=
  (pickWeighted_exact [("a", 1), ("b", 0), ("c", 2)] (by decide)).2.2 2 (by decide)

end Choice

section Index

variable {Rr Kind : Type} [DecidableEq Kind] (kind : Rr → Kind) (convert : Record → Option Rr)

/-- The weighted RRsets by owner name and type. -/
abbrev WeightedIndex (Rr Kind : Type) := KeyedMap (Text × Kind) (List (Rr × UInt32))

def indexedOwner (record : Record) : Text := toAsciiLowercase (trimEndMatches '.' record.name)

/-- The weight a record is served with: an unsigned zone's, other than 0. -/
def weightOf (weights : Option (Uuid → Option UInt32)) (record : Record) : Option UInt32 :=
  (weights.bind (· record.id)).filter (· != 0)

/-- What `index_records` does with the weight of a record; `convert` is
`record_to_hickory` and `kind` the type of its result. -/
def indexRecord (weights : Option (Uuid → Option UInt32)) (index : WeightedIndex Rr Kind) (record : Record) :
    WeightedIndex Rr Kind :=
  if record.disabled then index
  else if record.rtype = "A" ∨ record.rtype = "AAAA" then
    match weightOf weights record with
    | none => index
    | some weight =>
        match convert record with
        | none => index
        | some rr =>
            let key := (indexedOwner record, kind rr)
            index.insert key ((index.lookup key).getD [] ++ [(rr, weight)])
  else index

def indexRecords (weights : Option (Uuid → Option UInt32)) (index : WeightedIndex Rr Kind) (records : List Record) :
    WeightedIndex Rr Kind :=
  records.foldl (indexRecord kind convert weights) index

/-- The index of the served zones' records, each with whether the zone is unsigned. -/
def weightedIndex (weights : Uuid → Option UInt32) (zones : List (List Record × Bool)) : WeightedIndex Rr Kind :=
  zones.foldl (fun index zone => indexRecords kind convert (if zone.2 then some weights else none) index zone.1) ∅

def weightedAnswer (index : WeightedIndex Rr Kind) (name : Text) (rtype : Kind) (random : UInt64) : Option Rr :=
  (index.lookup (trimEndMatches '.' name, rtype)).bind fun choices => pickWeighted choices random

/-- No RRset of the index is empty, has a record without weight or one of another type. -/
def Drawable (index : WeightedIndex Rr Kind) : Prop :=
  ∀ key choices, index.lookup key = some choices → choices ≠ [] ∧
    ∀ choice ∈ choices, choice.2 ≠ 0 ∧ kind choice.1 = key.2

variable {kind convert}

theorem Drawable.insert {index : WeightedIndex Rr Kind} (h : Drawable kind index) {key : Text × Kind} {rr : Rr}
    {weight : UInt32} (hkind : kind rr = key.2) (hweight : weight ≠ 0) :
    Drawable kind (index.insert key ((index.lookup key).getD [] ++ [(rr, weight)])) := by
  intro other choices hlookup
  rw [KeyedMap.lookup_insert] at hlookup
  split at hlookup
  next hother =>
    subst hother
    rw [← Option.some.inj hlookup]
    constructor
    · simp
    · intro choice hchoice
      rw [List.mem_append, List.mem_singleton] at hchoice
      cases hchoice with
      | inl hold =>
        cases hset : index.lookup other with
        | none => simp [hset] at hold
        | some set =>
          rw [hset] at hold
          exact (h other set hset).2 choice hold
      | inr hnew =>
        subst hnew
        exact ⟨hweight, hkind⟩
  next => exact h other choices hlookup

theorem weightOf_ne_zero {weights : Option (Uuid → Option UInt32)} {record : Record} {weight : UInt32}
    (h : weightOf weights record = some weight) : weight ≠ 0 := by
  simpa using (Option.filter_eq_some_iff.mp h).2

theorem drawable_indexRecord (weights : Option (Uuid → Option UInt32)) {index : WeightedIndex Rr Kind} (record : Record)
    (h : Drawable kind index) : Drawable kind (indexRecord kind convert weights index record) := by
  unfold indexRecord
  split
  · exact h
  · split
    · split
      · exact h
      · next weight hweight =>
        split
        · exact h
        · exact h.insert rfl (weightOf_ne_zero hweight)
    · exact h

theorem drawable_indexRecords (weights : Option (Uuid → Option UInt32)) (records : List Record)
    {index : WeightedIndex Rr Kind} (h : Drawable kind index) :
    Drawable kind (indexRecords kind convert weights index records) := by
  induction records generalizing index with
  | nil => exact h
  | cons record rest ih => exact ih (drawable_indexRecord weights record h)

theorem drawable_weightedIndex (weights : Uuid → Option UInt32) (zones : List (List Record × Bool)) :
    Drawable kind (weightedIndex kind convert weights zones) := by
  induction zones using List.reverseRecOn with
  | nil =>
    intro key choices hlookup
    rw [weightedIndex, List.foldl_nil, AList.lookup_empty] at hlookup
    cases hlookup
  | append_singleton zones zone ih =>
    rw [weightedIndex, List.foldl_append]
    exact drawable_indexRecords _ _ ih

theorem totalWeight_pos {R : Type} {choices : List (R × UInt32)} (hne : choices ≠ [])
    (h : ∀ choice ∈ choices, choice.2 ≠ 0) : 0 < totalWeight choices := by
  cases choices with
  | nil => exact absurd rfl hne
  | cons choice rest =>
    have hweight : choice.2.toNat ≠ 0 := fun hzero => h choice List.mem_cons_self (UInt32.toNat_inj.mp hzero)
    rw [totalWeight, List.map_cons, List.sum_cons]
    omega

/-- A query for an RRset of the index is answered with one of its records, whatever
number is drawn, and any other is not answered here. -/
theorem weightedAnswer_eq (weights : Uuid → Option UInt32) (zones : List (List Record × Bool)) (name : Text)
    (rtype : Kind) (random : UInt64) :
    match (weightedIndex kind convert weights zones).lookup (trimEndMatches '.' name, rtype) with
    | none => weightedAnswer (weightedIndex kind convert weights zones) name rtype random = none
    | some choices => ∃ choice ∈ choices, kind choice.1 = rtype ∧
        weightedAnswer (weightedIndex kind convert weights zones) name rtype random = some choice.1 := by
  unfold weightedAnswer
  split
  next hnone => rw [hnone, Option.bind_none]
  next choices hchoices =>
    obtain ⟨hne, hall⟩ := drawable_weightedIndex weights zones _ _ hchoices
    have hpos := totalWeight_pos hne fun choice hchoice => (hall choice hchoice).1
    obtain ⟨i, hi, -, hpick, -⟩ := pickAt_places (Nat.mod_lt random.toNat hpos)
    refine ⟨choices[i], List.getElem_mem hi, (hall _ (List.getElem_mem hi)).2, ?_⟩
    rw [hchoices, Option.bind_some, pickWeighted, if_neg (Nat.ne_of_gt hpos), hpick]

end Index

end DaygleDns.Authoritative
