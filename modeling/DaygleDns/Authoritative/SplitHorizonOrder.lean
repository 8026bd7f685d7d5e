import DaygleDns.Authoritative.SplitHorizon
import DaygleDns.Fallible
import DaygleDns.Runs
import Mathlib.Logic.Equiv.Basic

/-! The positions of split-horizon entries: whether those of one domain stay apart, and
what a move does to the order in which they are tried. -/
namespace DaygleDns.Authoritative

open Text Canonical Runs Fallible

section Lists

variable {α κ : Type} [LinearOrder κ] {key : α → κ}

theorem nodup_sortBy {items : List α} (h : items.Nodup) : (sortBy key items).Nodup :=
  (List.perm_insertionSort _ items).nodup_iff.mpr h

theorem mem_sortBy {items : List α} {a : α} : a ∈ sortBy key items ↔ a ∈ items :=
  (List.perm_insertionSort _ items).mem_iff

/-- Two places next to each other. -/
theorem exists_split {items : List α} {i : Nat} {a b : α} (ha : items[i]? = some a) (hb : items[i + 1]? = some b) :
    ∃ front back, items = front ++ a :: b :: back := by
  induction items generalizing i with
  | nil => cases ha
  | cons first rest ih =>
    cases i with
    | zero =>
      cases rest with
      | nil => cases hb
      | cons second rest =>
        cases ha
        cases hb
        exact ⟨[], rest, rfl⟩
    | succ i =>
      obtain ⟨front, back, h⟩ := ih ha hb
      exact ⟨first :: front, back, by rw [h]; rfl⟩

end Lists

variable {ι δ : Type} {canonicalize : ι → Except DaygleError δ} {uuidText : Uuid → Text}
  {table after : SplitHorizonEntries δ} {a b entry row other : SplitHorizonEntry δ} {domain : Text} {id : Uuid}
  {direction : MoveDirection}

/-- A lookup of one domain goes through both, at one position. -/
def SamePlace (a b : SplitHorizonEntry δ) : Prop :=
  normalizeFqdn a.domain = normalizeFqdn b.domain ∧ a.position = b.position

instance (a b : SplitHorizonEntry δ) : Decidable (SamePlace a b) :=
  inferInstanceAs (Decidable (_ ∧ _))

/-- The entries of one domain have different positions. -/
def PositionsApart (table : SplitHorizonEntries δ) : Prop := Exclusive SamePlace table.rows

instance [DecidableEq δ] (table : SplitHorizonEntries δ) : Decidable (PositionsApart table) :=
  inferInstanceAs (Decidable (Exclusive SamePlace table.rows))

/-- The entries of a domain as they are tried, those included that are not in use. -/
def evaluationOrder (table : SplitHorizonEntries δ) (domain : Text) : List Uuid :=
  (SplitHorizonIndex.entriesOf (sortBy SplitHorizonEntry.position (listSplitHorizonEntries table)) domain).map
    SplitHorizonEntry.id

/-- The entry changes places with the one next to it, and all others stay in their order. -/
def Swaps (direction : MoveDirection) (id : Uuid) (before after : List Uuid) : Prop :=
  ∃ front back other, match direction with
    | .up => before = front ++ other :: id :: back ∧ after = front ++ id :: other :: back
    | .down => before = front ++ id :: other :: back ∧ after = front ++ other :: id :: back

/-- A move that succeeds swaps two entries of one domain, and leaves the order of the others. -/
def MovesByOne (uuidText : Uuid → Text) (table : SplitHorizonEntries δ) : SplitHorizonCall ι → Prop
  | .move id direction fault =>
      (moveSplitHorizonEntry uuidText table id direction fault).1 = .ok .moved →
        ∃ entry ∈ table.rows, entry.id = id ∧ ∀ domain,
          let after := (moveSplitHorizonEntry uuidText table id direction fault).2
          if domain = normalizeFqdn entry.domain then
            Swaps direction id (evaluationOrder table domain) (evaluationOrder after domain)
          else evaluationOrder after domain = evaluationOrder table domain
  | _ => True

/-- A domain whose normal form stays as it is when it is read again. -/
def SpelledPlainly (input : SplitHorizonEntryInput ι) : Prop :=
  normalizeFqdn (normalizeFqdn input.domain) = normalizeFqdn input.domain

instance (input : SplitHorizonEntryInput ι) : Decidable (SpelledPlainly input) :=
  inferInstanceAs (Decidable (_ = _))

/-- No update takes an entry to a domain where its position is in use, no move stops
half-way, and no domain is typed with blanks before its last dots. -/
def KeepsApart (canonicalize : ι → Except DaygleError δ) (uuidText : Uuid → Text) (table : SplitHorizonEntries δ) :
    SplitHorizonCall ι → Prop
  | .create input _ => (∃ checked, checkedEntry canonicalize input = .ok checked) → SpelledPlainly input
  | .update id input _ => (∃ checked, checkedEntry canonicalize input = .ok checked) → SpelledPlainly input ∧
      ∀ entry ∈ table.rows, entry.id = id → ∀ other ∈ table.rows, other.id ≠ id →
        other.domain = normalizeFqdn input.domain → other.position ≠ entry.position
  | .delete _ => True
  | .move id direction fault => fault = none ∨ ∃ result, neighbours uuidText table id direction = .error result

/-- Every domain is stored in its normal form. -/
def StoredPlainly (table : SplitHorizonEntries δ) : Prop :=
  ∀ entry ∈ table.rows, normalizeFqdn entry.domain = entry.domain

/-! The order of a domain. -/

/-- The entries of a domain by position. -/
def ranked (table : SplitHorizonEntries δ) (domain : Text) : List (SplitHorizonEntry δ) :=
  sortBy SplitHorizonEntry.position (table.rows.filter fun entry => normalizeFqdn entry.domain = domain)

theorem mem_ranked : entry ∈ ranked table domain ↔ entry ∈ table.rows ∧ normalizeFqdn entry.domain = domain := by
  simp [ranked, mem_sortBy]

/-- Entries of one domain that are sorted by position are sorted strictly. -/
theorem strict_of_sorted (h : PositionsApart table) {entries : List (SplitHorizonEntry δ)} (hnodup : entries.Nodup)
    (hsorted : entries.Pairwise fun first second => first.position ≤ second.position)
    (hmem : ∀ entry ∈ entries, entry ∈ table.rows ∧ normalizeFqdn entry.domain = domain) :
    entries.Pairwise fun first second => first.position < second.position := by
  refine (List.Pairwise.and hnodup hsorted).imp_of_mem ?_
  intro a b ha hb hab
  obtain ⟨ha, hdomain⟩ := hmem a ha
  obtain ⟨hb, hdomain'⟩ := hmem b hb
  apply lt_of_le_of_ne hab.2
  intro hposition
  exact hab.1 (h a ha b hb ⟨hdomain.trans hdomain'.symm, hposition⟩)

theorem rows_nodup (table : SplitHorizonEntries δ) : table.rows.Nodup := table.nodup.of_map _

theorem ranked_strict (h : PositionsApart table) (domain : Text) :
    (ranked table domain).Pairwise fun first second => first.position < second.position :=
  strict_of_sorted h (nodup_sortBy ((rows_nodup table).filter _)) (sortBy_sorted _) fun _ => mem_ranked.mp

theorem evaluationOrder_eq (h : PositionsApart table) (domain : Text) :
    evaluationOrder table domain = (ranked table domain).map SplitHorizonEntry.id := by
  unfold evaluationOrder SplitHorizonIndex.entriesOf
  apply congrArg (List.map SplitHorizonEntry.id)
  have hmem : ∀ entry, entry ∈ (sortBy SplitHorizonEntry.position (listSplitHorizonEntries table)).filter
      (fun entry => decide (normalizeFqdn entry.domain = domain)) ↔ entry ∈ ranked table domain := by
    intro entry
    rw [mem_ranked, List.mem_filter, mem_sortBy, listSplitHorizonEntries, mem_sortBy, decide_eq_true_iff]
  refine eq_of_mem_iff ?_ (ranked_strict h domain) hmem
  refine strict_of_sorted h ?_ ?_ fun entry hentry => mem_ranked.mp ((hmem entry).mp hentry)
  · exact (nodup_sortBy (nodup_sortBy (rows_nodup table))).filter _
  · exact (sortBy_sorted _).sublist List.filter_sublist

/-- The index tries the entries that are in use in that order. -/
theorem entriesOf_build (h : PositionsApart table) (filled : δ → Bool) (domain : Text) :
    SplitHorizonIndex.entriesOf (SplitHorizonIndex.build filled (listSplitHorizonEntries table)) domain =
      (ranked table domain).filter fun entry => !entry.disabled && filled entry.content := by
  have hmem : ∀ entry, entry ∈ SplitHorizonIndex.entriesOf (SplitHorizonIndex.build filled (listSplitHorizonEntries table)) domain ↔
      entry ∈ (ranked table domain).filter fun entry => !entry.disabled && filled entry.content := by
    intro entry
    rw [SplitHorizonIndex.entriesOf, SplitHorizonIndex.build, List.mem_filter, List.mem_filter, mem_sortBy, List.mem_filter,
      mem_ranked, listSplitHorizonEntries, mem_sortBy, decide_eq_true_iff]
    tauto
  refine eq_of_mem_iff ?_ ((ranked_strict h domain).sublist List.filter_sublist) hmem
  refine strict_of_sorted h ?_ ?_ fun entry hentry => mem_ranked.mp (List.mem_of_mem_filter ((hmem entry).mp hentry))
  · exact (nodup_sortBy ((nodup_sortBy (rows_nodup table)).filter _)).filter _
  · exact (sortBy_sorted _).sublist List.filter_sublist

/-- The rows that a move looks at, by their identifiers too. -/
theorem orderedRows_eq (h : PositionsApart table) (hplain : StoredPlainly table) :
    orderedRows uuidText table domain = ranked table domain := by
  have hmem : ∀ entry, entry ∈ orderedRows uuidText table domain ↔ entry ∈ ranked table domain := by
    intro entry
    rw [mem_ranked, orderedRows, mem_sortBy, List.mem_filter, decide_eq_true_iff]
    apply and_congr_right
    intro hentry
    rw [hplain entry hentry]
  refine eq_of_mem_iff ?_ (ranked_strict h domain) hmem
  refine strict_of_sorted h ?_ ?_ fun entry hentry => mem_ranked.mp ((hmem entry).mp hentry)
  · exact nodup_sortBy ((rows_nodup table).filter _)
  · refine (sortBy_sorted _).imp fun hle => ?_
    rcases Prod.Lex.le_iff.mp hle with hlt | heq
    · exact le_of_lt hlt
    · exact le_of_eq heq.1

/-! A move. -/

/-- What the two updates of a move make of a row. -/
def exchanged (a b entry : SplitHorizonEntry δ) : SplitHorizonEntry δ :=
  if entry.id = a.id then { entry with position := b.position }
  else if entry.id = b.id then { entry with position := a.position }
  else entry

theorem exchanged_domain (a b entry : SplitHorizonEntry δ) : (exchanged a b entry).domain = entry.domain := by
  unfold exchanged
  split
  · rfl
  · split <;> rfl

theorem exchanged_id (a b entry : SplitHorizonEntry δ) : (exchanged a b entry).id = entry.id := by
  unfold exchanged
  split
  · rfl
  · split <;> rfl

theorem exchanged_comm (hne : a.id ≠ b.id) : exchanged a b = exchanged b a := by
  funext entry
  unfold exchanged
  by_cases ha : entry.id = a.id
  · rw [if_pos ha, if_neg (fun hb => hne (ha.symm.trans hb)), if_pos ha]
  · by_cases hb : entry.id = b.id
    · rw [if_neg ha, if_pos hb, if_pos hb]
    · rw [if_neg ha, if_neg hb, if_neg hb, if_neg ha]

theorem rows_exchanged (hne : a.id ≠ b.id) :
    (setPosition (setPosition table a.id b.position) b.id a.position).rows = table.rows.map (exchanged a b) := by
  simp only [setPosition, Table.update_rows, List.map_map]
  apply List.map_congr_left
  intro entry _
  simp only [Function.comp_apply, exchanged, beq_iff_eq]
  by_cases ha : entry.id = a.id
  · have hb : ¬ a.id = b.id := hne
    simp [ha, hb]
  · by_cases hb : entry.id = b.id
    · have ha : ¬ b.id = a.id := fun ha => hne ha.symm
      simp [ha, hb]
    · simp [ha, hb]

/-- Two entries of one domain, at different positions. -/
structure Pair (table : SplitHorizonEntries δ) (a b : SplitHorizonEntry δ) : Prop where
  first : a ∈ table.rows
  second : b ∈ table.rows
  domain : normalizeFqdn a.domain = normalizeFqdn b.domain
  apart : a.id ≠ b.id

/-- In the domain of the two the positions are transposed. -/
theorem position_exchanged (h : PositionsApart table) (hpair : Pair table a b) (hentry : entry ∈ table.rows)
    (hdomain : normalizeFqdn entry.domain = normalizeFqdn a.domain) :
    (exchanged a b entry).position = Equiv.swap a.position b.position entry.position := by
  unfold exchanged
  by_cases ha : entry.id = a.id
  · rw [if_pos ha, table.eq_of_key_eq hentry hpair.first ha, Equiv.swap_apply_left]
  · by_cases hb : entry.id = b.id
    · rw [if_neg ha, if_pos hb, table.eq_of_key_eq hentry hpair.second hb, Equiv.swap_apply_right]
    · rw [if_neg ha, if_neg hb, Equiv.swap_apply_of_ne_of_ne]
      · intro hposition
        exact ha (congrArg SplitHorizonEntry.id (h entry hentry a hpair.first ⟨hdomain, hposition⟩))
      · intro hposition
        exact hb (congrArg SplitHorizonEntry.id
          (h entry hentry b hpair.second ⟨hdomain.trans hpair.domain, hposition⟩))

/-- Other domains are left alone. -/
theorem exchanged_of_other (hpair : Pair table a b) (hentry : entry ∈ table.rows)
    (hdomain : normalizeFqdn entry.domain ≠ normalizeFqdn a.domain) : exchanged a b entry = entry := by
  unfold exchanged
  have ha : entry.id ≠ a.id := fun ha => hdomain (by rw [table.eq_of_key_eq hentry hpair.first ha])
  have hb : entry.id ≠ b.id := fun hb =>
    hdomain (by rw [table.eq_of_key_eq hentry hpair.second hb, hpair.domain])
  rw [if_neg ha, if_neg hb]

theorem positionsApart_exchanged (h : PositionsApart table) (hpair : Pair table a b)
    (hrows : after.rows = table.rows.map (exchanged a b)) : PositionsApart after := by
  unfold PositionsApart
  rw [hrows]
  intro first hfirst second hsecond hclash
  obtain ⟨x, hx, rfl⟩ := List.mem_map.mp hfirst
  obtain ⟨y, hy, rfl⟩ := List.mem_map.mp hsecond
  obtain ⟨hdomain, hposition⟩ := hclash
  rw [exchanged_domain, exchanged_domain] at hdomain
  have hsame : x.position = y.position := by
    by_cases hhere : normalizeFqdn x.domain = normalizeFqdn a.domain
    · rw [position_exchanged h hpair hx hhere, position_exchanged h hpair hy (hdomain.symm.trans hhere)] at hposition
      exact (Equiv.swap _ _).injective hposition
    · rwa [exchanged_of_other hpair hx hhere,
        exchanged_of_other hpair hy (fun hother => hhere (hdomain.trans hother))] at hposition
  rw [h x hx y hy ⟨hdomain, hsame⟩]

theorem mem_ranked_after (hrows : after.rows = table.rows.map (exchanged a b)) :
    entry ∈ ranked after domain ↔ entry ∈ (ranked table domain).map (exchanged a b) := by
  rw [mem_ranked, hrows, List.mem_map, List.mem_map]
  constructor
  · rintro ⟨⟨x, hx, rfl⟩, hdomain⟩
    rw [exchanged_domain] at hdomain
    exact ⟨x, mem_ranked.mpr ⟨hx, hdomain⟩, rfl⟩
  · rintro ⟨x, hx, rfl⟩
    obtain ⟨hx, hdomain⟩ := mem_ranked.mp hx
    exact ⟨⟨x, hx, rfl⟩, by rw [exchanged_domain, hdomain]⟩

theorem ranked_of_other (h : PositionsApart table) (hpair : Pair table a b)
    (hrows : after.rows = table.rows.map (exchanged a b)) (hdomain : domain ≠ normalizeFqdn a.domain) :
    ranked after domain = ranked table domain := by
  refine eq_of_mem_iff (ranked_strict (positionsApart_exchanged h hpair hrows) domain) (ranked_strict h domain) ?_
  intro entry
  rw [mem_ranked_after hrows]
  have hsame : (ranked table domain).map (exchanged a b) = ranked table domain := by
    apply (List.map_congr_left fun entry hentry => ?_).trans (List.map_id _)
    obtain ⟨hrow, hhere⟩ := mem_ranked.mp hentry
    exact exchanged_of_other hpair hrow fun hother => hdomain (hhere.symm.trans hother)
  rw [hsame]

theorem ids_apart (h : PositionsApart table) (domain : Text) :
    (ranked table domain).Pairwise fun first second => first.id ≠ second.id := by
  refine (ranked_strict h domain).imp_of_mem fun {x y} hx hy hlt hid => ?_
  rw [table.eq_of_key_eq (mem_ranked.mp hx).1 (mem_ranked.mp hy).1 hid] at hlt
  exact lt_irrefl _ hlt

theorem pair_of_split (h : PositionsApart table) {front back : List (SplitHorizonEntry δ)}
    (hsplit : ranked table domain = front ++ a :: b :: back) : Pair table a b := by
  have hids := ids_apart h domain
  have ha : a ∈ ranked table domain := by simp [hsplit]
  have hb : b ∈ ranked table domain := by simp [hsplit]
  rw [hsplit] at hids
  have hlater := (List.pairwise_append.mp hids).2.1
  have hapart := (List.pairwise_cons.mp hlater).1 b List.mem_cons_self
  exact ⟨(mem_ranked.mp ha).1, (mem_ranked.mp hb).1, (mem_ranked.mp ha).2.trans (mem_ranked.mp hb).2.symm, hapart⟩

/-- Two neighbours change places. -/
theorem ranked_swapped (h : PositionsApart table) {front back : List (SplitHorizonEntry δ)}
    (hrows : after.rows = table.rows.map (exchanged a b)) (hsplit : ranked table domain = front ++ a :: b :: back) :
    (ranked after domain).map SplitHorizonEntry.id = front.map SplitHorizonEntry.id ++ b.id :: a.id ::
      back.map SplitHorizonEntry.id := by
  have hmem : ∀ entry ∈ front ++ a :: b :: back, entry ∈ table.rows ∧ normalizeFqdn entry.domain = domain := by
    intro entry hentry
    rw [← hsplit] at hentry
    exact mem_ranked.mp hentry
  obtain ⟨ha, hdomain⟩ := hmem a (by simp)
  obtain ⟨hb, hdomain'⟩ := hmem b (by simp)
  have hpair := pair_of_split h hsplit
  have hstrict := ranked_strict h domain
  rw [hsplit] at hstrict
  have hids := ids_apart h domain
  rw [hsplit] at hids
  obtain ⟨_, hlater, hcross⟩ := List.pairwise_append.mp hids
  obtain ⟨hfirst, hlater⟩ := List.pairwise_cons.mp hlater
  obtain ⟨hsecond, _⟩ := List.pairwise_cons.mp hlater
  have hkept : ∀ entry ∈ front ++ back, exchanged a b entry = entry := by
    intro entry hentry
    unfold exchanged
    rcases List.mem_append.mp hentry with hentry | hentry
    · rw [if_neg (hcross entry hentry a (by simp)), if_neg (hcross entry hentry b (by simp))]
    · rw [if_neg (Ne.symm (hfirst entry (by simp [hentry]))), if_neg (Ne.symm (hsecond entry hentry))]
  have hfront : front.map (exchanged a b) = front :=
    (List.map_congr_left fun entry hentry => hkept entry (List.mem_append_left _ hentry)).trans (List.map_id _)
  have hback : back.map (exchanged a b) = back :=
    (List.map_congr_left fun entry hentry => hkept entry (List.mem_append_right _ hentry)).trans (List.map_id _)
  have hswapped : ranked after domain = front ++ exchanged a b b :: exchanged a b a :: back := by
    refine eq_of_mem_iff (ranked_strict (positionsApart_exchanged h hpair hrows) domain) ?_ ?_
    · -- the positions stand in the order in which they stood
      have hpositions : (front ++ exchanged a b b :: exchanged a b a :: back).map SplitHorizonEntry.position =
          (front ++ a :: b :: back).map SplitHorizonEntry.position := by
        rw [List.map_append, List.map_append, List.map_cons, List.map_cons, List.map_cons, List.map_cons,
          position_exchanged h hpair hb (hdomain'.trans hdomain.symm), position_exchanged h hpair ha rfl,
          Equiv.swap_apply_left, Equiv.swap_apply_right]
      rw [← List.pairwise_map (f := SplitHorizonEntry.position) (R := fun first second => first < second), hpositions]
      exact List.pairwise_map.mpr hstrict
    · intro entry
      rw [mem_ranked_after hrows, hsplit, List.map_append, List.map_cons, List.map_cons, hfront, hback]
      simp only [List.mem_append, List.mem_cons]
      tauto
  rw [hswapped]
  simp [exchanged_id]

/-! What a call keeps. -/

theorem neighbours_eq_ok (h : PositionsApart table) (hplain : StoredPlainly table)
    (hneighbours : neighbours uuidText table id direction = .ok (row, other)) :
    row.id = id ∧ ∃ front back, match direction with
      | .up => ranked table (normalizeFqdn row.domain) = front ++ other :: row :: back
      | .down => ranked table (normalizeFqdn row.domain) = front ++ row :: other :: back := by
  unfold neighbours at hneighbours
  cases hentry : table.find? id with
  | none =>
    simp only [hentry] at hneighbours
    cases hneighbours
  | some entry =>
    obtain ⟨hmem, hid⟩ := (table.find?_eq_some_iff id entry).mp hentry
    simp only [hentry, orderedRows_eq h hplain] at hneighbours
    cases hidx : (ranked table entry.domain).findIdx? fun row => row.id == id with
    | none =>
      simp only [hidx] at hneighbours
      cases hneighbours
    | some idx =>
      obtain ⟨hlt, hfound, _⟩ := List.findIdx?_eq_some_iff_getElem.mp hidx
      have hat : (ranked table entry.domain)[idx]? = some (ranked table entry.domain)[idx] :=
        List.getElem?_eq_getElem hlt
      have hsame : (ranked table entry.domain)[idx] = entry :=
        table.eq_of_key_eq (mem_ranked.mp (List.getElem_mem hlt)).1 hmem
          ((beq_iff_eq.mp hfound).trans hid.symm)
      rw [hsame] at hat
      simp only [hidx] at hneighbours
      cases hswap : swapIndex direction idx with
      | none =>
        simp only [hswap] at hneighbours
        cases hneighbours
      | some swapIdx =>
        cases hother : (ranked table entry.domain)[swapIdx]? with
        | none =>
          simp only [hswap, hat, hother] at hneighbours
          cases hneighbours
        | some neighbour =>
          simp only [hswap, hat, hother] at hneighbours
          cases hneighbours
          refine ⟨hid, ?_⟩
          rw [hplain _ hmem]
          cases direction with
          | up =>
            cases idx with
            | zero => cases hswap
            | succ idx =>
              cases hswap
              exact exists_split hother hat
          | down =>
            cases hswap
            exact exists_split hat hother

/-- What a move that goes through leaves. -/
theorem moved_spec (h : PositionsApart table) (hplain : StoredPlainly table)
    (hneighbours : neighbours uuidText table id direction = .ok (row, other))
    (hafter : after = setPosition (setPosition table row.id other.position) other.id row.position) :
    row ∈ table.rows ∧ row.id = id ∧ PositionsApart after ∧ StoredPlainly after ∧
      Swaps direction id (evaluationOrder table (normalizeFqdn row.domain))
        (evaluationOrder after (normalizeFqdn row.domain)) ∧
      ∀ domain, domain ≠ normalizeFqdn row.domain → evaluationOrder after domain = evaluationOrder table domain := by
  obtain ⟨hid, front, back, hsplit⟩ := neighbours_eq_ok h hplain hneighbours
  have hpair : Pair table row other := by
    cases direction with
    | up =>
      have hpair := pair_of_split h hsplit
      exact ⟨hpair.second, hpair.first, hpair.domain.symm, hpair.apart.symm⟩
    | down => exact pair_of_split h hsplit
  have hrows : after.rows = table.rows.map (exchanged row other) := by
    rw [hafter]
    exact rows_exchanged hpair.apart
  have hkept := positionsApart_exchanged h hpair hrows
  refine ⟨hpair.first, hid, hkept, ?_, ?_, ?_⟩
  · intro entry hentry
    rw [hrows] at hentry
    obtain ⟨old, hold, rfl⟩ := List.mem_map.mp hentry
    rw [exchanged_domain]
    exact hplain old hold
  · rw [evaluationOrder_eq h, evaluationOrder_eq hkept]
    refine ⟨front.map SplitHorizonEntry.id, back.map SplitHorizonEntry.id, other.id, ?_⟩
    cases direction with
    | up =>
      rw [exchanged_comm hpair.apart] at hrows
      refine ⟨?_, ?_⟩
      · rw [hsplit]
        simp [hid]
      · rw [ranked_swapped h hrows hsplit, hid]
    | down =>
      refine ⟨?_, ?_⟩
      · rw [hsplit]
        simp [hid]
      · rw [ranked_swapped h hrows hsplit, hid]
  · intro domain hdomain
    rw [evaluationOrder_eq h, evaluationOrder_eq hkept, ranked_of_other h hpair hrows hdomain]

theorem checkedEntry_domain {input : SplitHorizonEntryInput ι} {checked : Text × δ}
    (h : checkedEntry canonicalize input = .ok checked) : checked.1 = normalizeFqdn input.domain := by
  obtain ⟨_, _, h⟩ := bind_eq_ok.mp h
  obtain ⟨_, _, h⟩ := bind_eq_ok.mp h
  cases h
  rfl

/-- A position that comes after all those of the domain. -/
theorem lt_nextPosition (hentry : entry ∈ table.rows) : entry.position < nextPosition table entry.domain := by
  have hmem : entry.position ∈ (table.rows.filter fun other => other.domain = entry.domain).map
      SplitHorizonEntry.position :=
    List.mem_map_of_mem (List.mem_filter.mpr ⟨hentry, by simp⟩)
  unfold nextPosition
  cases hmax : ((table.rows.filter fun other => other.domain = entry.domain).map SplitHorizonEntry.position).max? with
  | none =>
    rw [List.max?_eq_none_iff.mp hmax] at hmem
    cases hmem
  | some greatest =>
    have := (List.max?_eq_some_iff.mp hmax).2 _ hmem
    simp only [Option.getD_some]
    omega

theorem samePlace_symm (a b : SplitHorizonEntry δ) (h : SamePlace a b) : SamePlace b a := ⟨h.1.symm, h.2.symm⟩

/-! The steps. -/

section Steps

variable {input : SplitHorizonEntryInput ι} {now : Time} {content : δ}

theorem step_create_ok (hchecked : checkedEntry canonicalize input = .ok (domain, content)) :
    (splitHorizonStep canonicalize uuidText table (.create input now)).rows =
      table.rows ++ [⟨table.next, domain, content, input.disabled, nextPosition table domain, now⟩] := by
  simp only [splitHorizonStep, createSplitHorizonEntry, hchecked]
  rfl

theorem step_create_error {e : DaygleError} (hchecked : checkedEntry canonicalize input = .error e) :
    splitHorizonStep canonicalize uuidText table (.create input now) = table := by
  simp only [splitHorizonStep, createSplitHorizonEntry, hchecked]
  rfl

theorem step_update_ok (hchecked : checkedEntry canonicalize input = .ok (domain, content))
    (hentry : entry ∈ table.rows) :
    (splitHorizonStep canonicalize uuidText table (.update entry.id input now)).rows =
      table.rows.map fun row => if row.id == entry.id then
        { row with domain, content, disabled := input.disabled, lastModifiedAt := now } else row := by
  have hfind : table.find? entry.id = some entry := (table.find?_eq_some_iff entry.id entry).mpr ⟨hentry, rfl⟩
  simp only [splitHorizonStep, updateSplitHorizonEntry, hchecked, bind, Except.bind, hfind]
  rfl

theorem step_update_none (hfind : table.find? id = none) :
    splitHorizonStep canonicalize uuidText table (.update id input now) = table := by
  cases hchecked : checkedEntry canonicalize input with
  | error e =>
    simp only [splitHorizonStep, updateSplitHorizonEntry, hchecked]
    rfl
  | ok checked =>
    simp only [splitHorizonStep, updateSplitHorizonEntry, hchecked, bind, Except.bind, hfind]
    rfl

theorem step_update_error {e : DaygleError} (hchecked : checkedEntry canonicalize input = .error e) :
    splitHorizonStep canonicalize uuidText table (.update id input now) = table := by
  simp only [splitHorizonStep, updateSplitHorizonEntry, hchecked]
  rfl

end Steps

section Kept

variable {input : SplitHorizonEntryInput ι} {now : Time}

theorem create_keeps (h : PositionsApart table) (hplain : StoredPlainly table)
    (hcall : KeepsApart canonicalize uuidText table (.create input now)) :
    PositionsApart (splitHorizonStep canonicalize uuidText table (.create input now)) ∧
      StoredPlainly (splitHorizonStep canonicalize uuidText table (.create input now)) := by
  cases hchecked : checkedEntry canonicalize input with
  | error e =>
    rw [step_create_error hchecked]
    exact ⟨h, hplain⟩
  | ok checked =>
    have hspelled : SpelledPlainly input := hcall ⟨checked, hchecked⟩
    have hdomain := checkedEntry_domain hchecked
    obtain ⟨domain, content⟩ := checked
    obtain rfl : domain = normalizeFqdn input.domain := hdomain
    unfold PositionsApart StoredPlainly
    rw [step_create_ok hchecked]
    apply And.intro
    · apply Exclusive.append_row h samePlace_symm
      rintro entry hentry ⟨hdomain, hposition⟩
      have hlt := lt_nextPosition hentry
      have hhere : entry.domain = normalizeFqdn input.domain := by
        rw [← hplain entry hentry, ← hdomain]
        exact hspelled
      rw [hhere, ← hposition] at hlt
      exact lt_irrefl _ hlt
    · intro entry hentry
      rcases List.mem_append.mp hentry with hentry | hentry
      · exact hplain entry hentry
      · rw [List.mem_singleton.mp hentry]
        exact hspelled

theorem update_keeps (h : PositionsApart table) (hplain : StoredPlainly table)
    (hcall : KeepsApart canonicalize uuidText table (.update id input now)) :
    PositionsApart (splitHorizonStep canonicalize uuidText table (.update id input now)) ∧
      StoredPlainly (splitHorizonStep canonicalize uuidText table (.update id input now)) := by
  cases hchecked : checkedEntry canonicalize input with
  | error e =>
    rw [step_update_error hchecked]
    exact ⟨h, hplain⟩
  | ok checked =>
    cases hfind : table.find? id with
    | none =>
      rw [step_update_none hfind]
      exact ⟨h, hplain⟩
    | some entry =>
      obtain ⟨hspelled, hfree⟩ := hcall ⟨checked, hchecked⟩
      have hdomain := checkedEntry_domain hchecked
      obtain ⟨domain, content⟩ := checked
      obtain rfl : domain = normalizeFqdn input.domain := hdomain
      obtain ⟨hentry, rfl⟩ := (table.find?_eq_some_iff id entry).mp hfind
      unfold PositionsApart StoredPlainly
      rw [step_update_ok hchecked hentry]
      apply And.intro
      · refine (Exclusive.map_row_iff h table.nodup samePlace_symm
          (fun row => { row with domain := _, content, disabled := input.disabled, lastModifiedAt := now })
          (fun _ => rfl) hentry).mpr ?_
        rintro other hother hne ⟨hdomain, hposition⟩
        apply hfree entry hentry rfl other hother hne ?_ hposition.symm
        rw [← hplain other hother, ← hdomain]
        exact hspelled
      · intro changed hchanged
        obtain ⟨old, hold, rfl⟩ := List.mem_map.mp hchanged
        split
        · exact hspelled
        · exact hplain old hold

/-- What a call keeps that meets the condition. -/
theorem splitHorizonStep_keeps {call : SplitHorizonCall ι} (h : PositionsApart table) (hplain : StoredPlainly table)
    (hcall : KeepsApart canonicalize uuidText table call) :
    PositionsApart (splitHorizonStep canonicalize uuidText table call) ∧
      StoredPlainly (splitHorizonStep canonicalize uuidText table call) := by
  cases call with
  | create input now => exact create_keeps h hplain hcall
  | update id input now => exact update_keeps h hplain hcall
  | delete id => exact ⟨h.filter _, fun entry hentry => hplain entry (List.mem_of_mem_filter hentry)⟩
  | move id direction fault =>
    cases hneighbours : neighbours uuidText table id direction with
    | error result =>
      simp only [splitHorizonStep, moveSplitHorizonEntry, hneighbours]
      exact ⟨h, hplain⟩
    | ok pair =>
      rcases hcall with rfl | ⟨result, hresult⟩
      · obtain ⟨_, _, hapart, hplain, _⟩ := moved_spec h hplain hneighbours rfl
        simp only [splitHorizonStep, moveSplitHorizonEntry, hneighbours]
        exact ⟨hapart, hplain⟩
      · rw [hneighbours] at hresult
        cases hresult

end Kept

/-- A move never answers that it moved unless it did. -/
theorem neighbours_ne_moved : neighbours uuidText table id direction ≠ .error .moved := by
  unfold neighbours
  intro h
  cases hentry : table.find? id with
  | none =>
    simp only [hentry] at h
    cases h
  | some entry =>
    simp only [hentry] at h
    cases hidx : (orderedRows uuidText table entry.domain).findIdx? fun row => row.id == id with
    | none =>
      simp only [hidx] at h
      cases h
    | some idx =>
      simp only [hidx] at h
      cases hswap : swapIndex direction idx with
      | none =>
        simp only [hswap] at h
        cases h
      | some swapIdx =>
        simp only [hswap] at h
        split at h <;> cases h

theorem movesByOne {call : SplitHorizonCall ι} (h : PositionsApart table) (hplain : StoredPlainly table) :
    MovesByOne uuidText table call := by
  cases call with
  | move id direction fault =>
    simp only [MovesByOne, moveSplitHorizonEntry]
    cases hneighbours : neighbours uuidText table id direction with
    | error result =>
      intro hmoved
      injection hmoved with hmoved
      rw [hmoved] at hneighbours
      exact absurd hneighbours neighbours_ne_moved
    | ok pair =>
      cases fault with
      | some e =>
        intro hmoved
        cases hmoved
      | none =>
        intro _
        obtain ⟨hrow, hid, _, _, hswaps, hothers⟩ := moved_spec h hplain hneighbours rfl
        refine ⟨pair.1, hrow, hid, fun domain => ?_⟩
        dsimp only
        split
        next hdomain =>
          rw [hdomain]
          exact hswaps
        next hdomain => exact hothers domain hdomain
  | _ => trivial

/-- The positions of a domain stay apart, and every move swaps two neighbours, as long as
no update changes a domain to one where the position is taken, no move stops half-way,
and no domain is typed with blanks before its last dots. -/
theorem positions_apart (canonicalize : ι → Except DaygleError δ) (uuidText : Uuid → Text)
    (calls : List (SplitHorizonCall ι))
    (hcalls : Each (splitHorizonStep canonicalize uuidText) (KeepsApart canonicalize uuidText) Table.empty calls) :
    Always (splitHorizonStep canonicalize uuidText) PositionsApart Table.empty calls ∧
      Each (splitHorizonStep canonicalize uuidText) (MovesByOne uuidText) Table.empty calls := by
  have hstart : PositionsApart (Table.empty : SplitHorizonEntries δ) ∧
      StoredPlainly (Table.empty : SplitHorizonEntries δ) := by
    apply And.intro
    · intro entry hentry
      cases hentry
    · intro entry hentry
      cases hentry
  have hstep : ∀ table call, PositionsApart table ∧ StoredPlainly table → KeepsApart canonicalize uuidText table call →
      PositionsApart (splitHorizonStep canonicalize uuidText table call) ∧
        StoredPlainly (splitHorizonStep canonicalize uuidText table call) :=
    fun table call h hcall => splitHorizonStep_keeps h.1 h.2 hcall
  apply And.intro
  · exact always_mono (fun table h => h.1) (always_of_invariant _ hstep calls hstart hcalls)
  · exact each_of_invariant _ hstep (fun table call h _ => movesByOne h.1 h.2) calls hstart hcalls

/-- A second entry of a domain, which is tried first after a move, and then goes to a
domain of its own. -/
theorem positions_apart_moved :
    let step := splitHorizonStep (δ := Unit) (fun _ : Unit => .ok ()) (fun _ => [])
    let calls : List (SplitHorizonCall Unit) :=
      [.create ⟨"Nas.Test.".toList, (), false⟩ 0, .create ⟨"nas.test".toList, (), false⟩ 1, .move 1 .up none,
        .update 1 ⟨"mail.test".toList, (), true⟩ 2]
    Always step PositionsApart Table.empty calls ∧ Each step (MovesByOne fun _ => []) Table.empty calls :=
  positions_apart _ _ _
    ⟨fun _ => by decide, fun _ => by decide, .inl rfl,
      fun _ => ⟨by decide, by decide⟩, trivial⟩

/-- An entry at the first position of a domain is given a domain that has an entry at its
first position. -/
theorem positions_apart_fails :
    ¬ ∀ calls : List (SplitHorizonCall Unit),
      let step := splitHorizonStep (δ := Unit) (fun _ => .ok ()) (fun _ => [])
      Always step PositionsApart Table.empty calls ∧ Each step (MovesByOne fun _ => []) Table.empty calls := by
  intro h
  have hrun := (h [.create ⟨"nas.test".toList, (), false⟩ 0, .create ⟨"mail.test".toList, (), false⟩ 1,
    .update 1 ⟨"nas.test".toList, (), false⟩ 2]).1
  have hlast := hrun.2.2.2
  unfold Always at hlast
  revert hlast
  decide

end DaygleDns.Authoritative
