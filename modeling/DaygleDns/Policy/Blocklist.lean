import DaygleDns.OrderedTable
import DaygleDns.Text
import DaygleDns.TextFacts
import Mathlib.Data.Char
import Mathlib.Data.List.Lex

/-! Domain lists: exact names, `*.suffix` wildcards that match strict subdomains,
and `@@` exceptions. Names are normalized: lower-case, no trailing dot. -/
namespace DaygleDns.Policy

open Text

/-- A set of strings. -/
abbrev TextSet := OrderedTable Text Text id

def TextSet.empty : TextSet := OrderedTable.empty

def TextSet.isEmpty (set : TextSet) : Bool := set.rows.isEmpty

/-- `extend`. -/
def TextSet.extend (set other : TextSet) : TextSet := set.putAll other.rows

def exceptionPrefix : Text := ("@@" : String)

def wildcardPrefix : Text := ("*." : String)

/-- What stands after each dot of `domain`, the nearest parent first: what the
loops over `split_once('.')` go through. -/
def parents : Text → List Text
  | [] => []
  | c :: rest => if c == '.' then rest :: parents rest else parents rest

def parentMatch (suffixes : TextSet) (domain : Text) : Option Text :=
  if suffixes.isEmpty then none else (parents domain).find? suffixes.contains

def parentIn (suffixes : TextSet) (domain : Text) : Bool := (parentMatch suffixes domain).isSome

/-- The entry of a raw set that lists `domain`. -/
def entryFor (entries : TextSet) (domain : Text) : Option Text :=
  if entries.contains domain then some domain
  else ((parents domain).map (wildcardPrefix ++ ·)).find? entries.contains

structure Blocklist where
  exact : TextSet
  suffixes : TextSet
  exceptExact : TextSet
  exceptSuffixes : TextSet
deriving DecidableEq

namespace Blocklist

def new : Blocklist := ⟨.empty, .empty, .empty, .empty⟩

def insertEntry (list : Blocklist) (entry : Text) : Blocklist :=
  match stripPrefix exceptionPrefix entry with
  | some entry =>
      match stripPrefix wildcardPrefix entry with
      | some suffix => { list with exceptSuffixes := list.exceptSuffixes.put suffix }
      | none => { list with exceptExact := list.exceptExact.put entry }
  | none =>
      match stripPrefix wildcardPrefix entry with
      | some suffix => { list with suffixes := list.suffixes.put suffix }
      | none => { list with exact := list.exact.put entry }

def fromSet (entries : TextSet) : Blocklist := entries.rows.foldl insertEntry new

def isEmpty (list : Blocklist) : Bool := list.exact.isEmpty && list.suffixes.isEmpty

def contains (list : Blocklist) (domain : Text) : Bool :=
  let listed := list.exact.contains domain || parentIn list.suffixes domain
  listed && !(list.exceptExact.contains domain || parentIn list.exceptSuffixes domain)

/-- The entry that puts `domain` in the list. -/
def matchingEntry (list : Blocklist) (domain : Text) : Option Text :=
  if !list.contains domain then none
  else if list.exact.contains domain then some domain
  else (parentMatch list.suffixes domain).map (wildcardPrefix ++ ·)

theorem matchingEntry_isSome (list : Blocklist) (domain : Text) :
    (list.matchingEntry domain).isSome = list.contains domain := by
  unfold matchingEntry
  cases hcontains : list.contains domain with
  | false => simp
  | true =>
    cases hexact : list.exact.contains domain with
    | true => simp
    | false =>
      have hparent : parentIn list.suffixes domain = true := by
        simp only [contains, hexact, Bool.false_or, Bool.and_eq_true] at hcontains
        exact hcontains.1
      simpa [parentIn] using hparent

theorem matchingEntry_eq_none {list : Blocklist} {domain : Text} :
    list.matchingEntry domain = none ↔ list.contains domain = false := by
  rw [← matchingEntry_isSome, Option.isSome_eq_false_iff, Option.isNone_iff_eq_none]

theorem contains_of_isEmpty {list : Blocklist} (h : list.isEmpty = true) (domain : Text) :
    list.contains domain = false := by
  simp only [isEmpty, TextSet.isEmpty, Bool.and_eq_true, List.isEmpty_iff] at h
  simp [contains, parentIn, parentMatch, TextSet.isEmpty, OrderedTable.contains, OrderedTable.get, h.1, h.2]

end Blocklist

/-! Which names a domain list covers: the walks over the parents of a name find what testing every
entry finds. -/

/-- A pattern `*.s` covers the names that end in `.s`, any other one itself. -/
def PatternCovers (pattern name : Text) : Prop :=
  match stripPrefix wildcardPrefix pattern with
  | some suffix => ('.' :: suffix) <:+ name
  | none => pattern = name

instance (pattern name : Text) : Decidable (PatternCovers pattern name) :=
  match h : stripPrefix wildcardPrefix pattern with
  | some suffix => decidable_of_iff (('.' :: suffix) <:+ name) (by rw [PatternCovers, h])
  | none => decidable_of_iff (pattern = name) (by rw [PatternCovers, h])

/-- The entry is an exception with this pattern. -/
def ExceptionOf (pattern entry : Text) : Prop := entry = exceptionPrefix ++ pattern

/-- The entry is not marked as an exception. -/
def Unmarked (entry : Text) : Prop := stripPrefix exceptionPrefix entry = none

theorem mem_parents {parent name : Text} : parent ∈ parents name ↔ ('.' :: parent) <:+ name := by
  induction name with
  | nil => simp [parents]
  | cons c rest ih =>
    rw [parents, List.suffix_cons_iff, List.cons_eq_cons]
    by_cases hdot : c = '.'
    · rw [if_pos (beq_iff_eq.mpr hdot), List.mem_cons, ih]
      simp [hdot]
    · rw [if_neg (by simpa using hdot), ih]
      simp [Ne.symm hdot]

theorem parentMatch_eq (suffixes : TextSet) (name : Text) :
    parentMatch suffixes name = (parents name).find? suffixes.contains := by
  unfold parentMatch
  split
  next hempty =>
    symm
    apply List.find?_eq_none.mpr
    intro parent _
    rw [TextSet.isEmpty, List.isEmpty_iff] at hempty
    rw [OrderedTable.contains_iff, hempty]
    exact List.not_mem_nil
  next => rfl

theorem parentIn_iff {suffixes : TextSet} {name : Text} :
    parentIn suffixes name = true ↔ ∃ parent ∈ suffixes.rows, ('.' :: parent) <:+ name := by
  rw [parentIn, parentMatch_eq, List.find?_isSome]
  simp only [mem_parents, OrderedTable.contains_iff]
  exact exists_congr fun parent => and_comm

namespace Blocklist

/-- What a set of the list holds once the entries have been put in. -/
theorem mem_foldl (set : Blocklist → TextSet) (puts : Text → Text → Prop)
    (hstep : ∀ list entry row, row ∈ (set (insertEntry list entry)).rows ↔ puts entry row ∨ row ∈ (set list).rows)
    (entries : List Text) (list : Blocklist) (row : Text) :
    row ∈ (set (entries.foldl insertEntry list)).rows ↔ (∃ entry ∈ entries, puts entry row) ∨ row ∈ (set list).rows := by
  induction entries generalizing list with
  | nil => simp
  | cons entry entries ih => rw [List.foldl_cons, ih, hstep, List.exists_mem_cons_iff, or_left_comm, or_assoc]

variable (entries : TextSet) (row : Text)

theorem mem_exact : row ∈ (fromSet entries).exact.rows ↔
    row ∈ entries.rows ∧ Unmarked row ∧ stripPrefix wildcardPrefix row = none := by
  have hstep : ∀ list entry row, row ∈ (insertEntry list entry).exact.rows ↔
      (row = entry ∧ Unmarked entry ∧ stripPrefix wildcardPrefix entry = none) ∨ row ∈ list.exact.rows := by
    intro list entry row
    unfold insertEntry Unmarked
    cases hmarked : stripPrefix exceptionPrefix entry with
    | some rest =>
      dsimp only
      split <;> simp
    | none =>
      dsimp only
      split <;> simp [OrderedTable.mem_put, *]
  have hall := mem_foldl exact _ hstep entries.rows new row
  rw [fromSet, hall]
  simp only [new, TextSet.empty, OrderedTable.empty, List.not_mem_nil, or_false]
  constructor
  · rintro ⟨entry, hentry, hrow, hplain⟩
    rw [hrow]
    exact ⟨hentry, hplain⟩
  · rintro ⟨hentry, hplain⟩
    exact ⟨row, hentry, rfl, hplain⟩

theorem mem_suffixes : row ∈ (fromSet entries).suffixes.rows ↔ wildcardPrefix ++ row ∈ entries.rows := by
  have hstep : ∀ list entry row, row ∈ (insertEntry list entry).suffixes.rows ↔
      entry = wildcardPrefix ++ row ∨ row ∈ list.suffixes.rows := by
    intro list entry row
    unfold insertEntry
    cases hmarked : stripPrefix exceptionPrefix entry with
    | some rest =>
      have hother : entry ≠ wildcardPrefix ++ row := by
        rw [stripPrefix_eq_some.mp hmarked]
        exact fun hsame => absurd (List.cons_eq_cons.mp hsame).1 (by decide)
      dsimp only
      split <;> simp [hother]
    | none =>
      cases hwild : stripPrefix wildcardPrefix entry with
      | some suffix =>
        rw [stripPrefix_eq_some.mp hwild, OrderedTable.mem_put, List.append_cancel_left_eq, eq_comm]
      | none =>
        have hother : entry ≠ wildcardPrefix ++ row := by
          intro hsame
          rw [stripPrefix_eq_some.mpr hsame] at hwild
          cases hwild
        simp [hother]
  have hall := mem_foldl suffixes _ hstep entries.rows new row
  rw [fromSet, hall]
  simp only [new, TextSet.empty, OrderedTable.empty, List.not_mem_nil, or_false, exists_eq_right]

theorem mem_exceptExact : row ∈ (fromSet entries).exceptExact.rows ↔
    exceptionPrefix ++ row ∈ entries.rows ∧ stripPrefix wildcardPrefix row = none := by
  have hstep : ∀ list entry row, row ∈ (insertEntry list entry).exceptExact.rows ↔
      (entry = exceptionPrefix ++ row ∧ stripPrefix wildcardPrefix row = none) ∨ row ∈ list.exceptExact.rows := by
    intro list entry row
    unfold insertEntry
    cases hmarked : stripPrefix exceptionPrefix entry with
    | some rest =>
      rw [stripPrefix_eq_some.mp hmarked, List.append_cancel_left_eq]
      cases hwild : stripPrefix wildcardPrefix rest with
      | some suffix =>
        have hother : ¬(rest = row ∧ stripPrefix wildcardPrefix row = none) := by
          rintro ⟨hsame, hnone⟩
          rw [← hsame, hwild] at hnone
          cases hnone
        simp [hwild, hother]
      | none =>
        simp only [hwild, OrderedTable.mem_put]
        apply or_congr_left
        constructor
        · intro hsame
          rw [hsame]
          exact ⟨rfl, hwild⟩
        · exact fun h => h.1.symm
    | none =>
      have hother : entry ≠ exceptionPrefix ++ row := by
        intro hsame
        rw [stripPrefix_eq_some.mpr hsame] at hmarked
        cases hmarked
      dsimp only
      split <;> simp [hother]
  have hall := mem_foldl exceptExact _ hstep entries.rows new row
  rw [fromSet, hall]
  simp only [new, TextSet.empty, OrderedTable.empty, List.not_mem_nil, or_false]
  constructor
  · rintro ⟨entry, hentry, hrow, hplain⟩
    rw [← hrow]
    exact ⟨hentry, hplain⟩
  · rintro ⟨hentry, hplain⟩
    exact ⟨_, hentry, rfl, hplain⟩

theorem mem_exceptSuffixes : row ∈ (fromSet entries).exceptSuffixes.rows ↔
    exceptionPrefix ++ (wildcardPrefix ++ row) ∈ entries.rows := by
  have hstep : ∀ list entry row, row ∈ (insertEntry list entry).exceptSuffixes.rows ↔
      entry = exceptionPrefix ++ (wildcardPrefix ++ row) ∨ row ∈ list.exceptSuffixes.rows := by
    intro list entry row
    unfold insertEntry
    cases hmarked : stripPrefix exceptionPrefix entry with
    | some rest =>
      rw [stripPrefix_eq_some.mp hmarked, List.append_cancel_left_eq]
      cases hwild : stripPrefix wildcardPrefix rest with
      | some suffix =>
        simp only [hwild, OrderedTable.mem_put]
        rw [stripPrefix_eq_some.mp hwild, List.append_cancel_left_eq, eq_comm]
      | none =>
        have hother : rest ≠ wildcardPrefix ++ row := by
          intro hsame
          rw [stripPrefix_eq_some.mpr hsame] at hwild
          cases hwild
        simp [hwild, hother]
    | none =>
      have hother : entry ≠ exceptionPrefix ++ (wildcardPrefix ++ row) := by
        intro hsame
        rw [stripPrefix_eq_some.mpr hsame] at hmarked
        cases hmarked
      dsimp only
      split <;> simp [hother]
  have hall := mem_foldl exceptSuffixes _ hstep entries.rows new row
  rw [fromSet, hall]
  simp only [new, TextSet.empty, OrderedTable.empty, List.not_mem_nil, or_false, exists_eq_right]

end Blocklist

/-! Testing every entry. -/

/-- An entry that is no exception covers the name. -/
def Listed (entries : TextSet) (name : Text) : Prop :=
  ∃ entry ∈ entries.rows, Unmarked entry ∧ PatternCovers entry name

/-- An exception covers the name. -/
def Excepted (entries : TextSet) (name : Text) : Prop :=
  ∃ entry ∈ entries.rows, ∃ pattern, ExceptionOf pattern entry ∧ PatternCovers pattern name

theorem patternCovers_wildcard {suffix name : Text} : PatternCovers (wildcardPrefix ++ suffix) name ↔ ('.' :: suffix) <:+ name := by
  have hstrip : stripPrefix wildcardPrefix (wildcardPrefix ++ suffix) = some suffix := stripPrefix_eq_some.mpr rfl
  rw [PatternCovers, hstrip]

theorem patternCovers_exact {pattern name : Text} (h : stripPrefix wildcardPrefix pattern = none) :
    PatternCovers pattern name ↔ pattern = name := by
  rw [PatternCovers, h]

theorem unmarked_wildcard (suffix : Text) : Unmarked (wildcardPrefix ++ suffix) := rfl

/-- A name covered by a wildcard that a pattern may or may not be. -/
theorem patternCovers_iff {pattern name : Text} : PatternCovers pattern name ↔
    (stripPrefix wildcardPrefix pattern = none ∧ pattern = name) ∨
      ∃ suffix, pattern = wildcardPrefix ++ suffix ∧ ('.' :: suffix) <:+ name := by
  unfold PatternCovers
  cases hwild : stripPrefix wildcardPrefix pattern with
  | none =>
    have hother : ∀ suffix, pattern ≠ wildcardPrefix ++ suffix := by
      intro suffix hsame
      rw [stripPrefix_eq_some.mpr hsame] at hwild
      cases hwild
    simp [hother]
  | some suffix =>
    rw [stripPrefix_eq_some.mp hwild]
    simp

namespace Blocklist

variable (entries : TextSet) (name : Text)

theorem listed_iff : Listed entries name ↔
    ((fromSet entries).exact.contains name || parentIn (fromSet entries).suffixes name) = true := by
  rw [Bool.or_eq_true, OrderedTable.contains_iff, parentIn_iff, mem_exact]
  simp only [Listed, patternCovers_iff, mem_suffixes]
  constructor
  · intro ⟨entry, hentry, hplain, hcovers⟩
    cases hcovers with
    | inl hexact => exact .inl ⟨hexact.2 ▸ hentry, hexact.2 ▸ hplain, hexact.2 ▸ hexact.1⟩
    | inr hwild =>
      have ⟨suffix, hsame, hname⟩ := hwild
      exact .inr ⟨suffix, hsame ▸ hentry, hname⟩
  · intro h
    cases h with
    | inl hexact => exact ⟨name, hexact.1, hexact.2.1, .inl ⟨hexact.2.2, rfl⟩⟩
    | inr hwild =>
      have ⟨suffix, hentry, hname⟩ := hwild
      exact ⟨_, hentry, unmarked_wildcard suffix, .inr ⟨suffix, rfl, hname⟩⟩

theorem excepted_iff : Excepted entries name ↔
    ((fromSet entries).exceptExact.contains name || parentIn (fromSet entries).exceptSuffixes name) = true := by
  rw [Bool.or_eq_true, OrderedTable.contains_iff, parentIn_iff, mem_exceptExact]
  simp only [Excepted, ExceptionOf, patternCovers_iff, mem_exceptSuffixes]
  constructor
  · intro ⟨entry, hentry, pattern, hmark, hcovers⟩
    rw [hmark] at hentry
    cases hcovers with
    | inl hexact => exact .inl ⟨hexact.2 ▸ hentry, hexact.2 ▸ hexact.1⟩
    | inr hwild =>
      have ⟨suffix, hsame, hname⟩ := hwild
      exact .inr ⟨suffix, hsame ▸ hentry, hname⟩
  · intro h
    cases h with
    | inl hexact => exact ⟨_, hexact.1, name, rfl, .inl ⟨hexact.2, rfl⟩⟩
    | inr hwild =>
      have ⟨suffix, hentry, hname⟩ := hwild
      exact ⟨_, hentry, _, rfl, .inr ⟨suffix, rfl, hname⟩⟩

theorem contains_iff_covered : (fromSet entries).contains name = true ↔ Listed entries name ∧ ¬Excepted entries name := by
  rw [listed_iff, excepted_iff, contains, Bool.and_eq_true, Bool.not_eq_true', Bool.not_eq_true]

/-- The entry that is reported is one of the list's that cover the name. -/
theorem matchingEntry_covers {entry : Text} (h : (fromSet entries).matchingEntry name = some entry) :
    entry ∈ entries.rows ∧ Unmarked entry ∧ PatternCovers entry name := by
  unfold matchingEntry at h
  split at h
  · cases h
  · split at h
    next hexact =>
      cases h
      have hrow := (mem_exact entries name).mp (OrderedTable.contains_iff.mp hexact)
      exact ⟨hrow.1, hrow.2.1, (patternCovers_exact hrow.2.2).mpr rfl⟩
    next =>
      rw [parentMatch_eq] at h
      have ⟨parent, hfound, hentry⟩ := Option.map_eq_some_iff.mp h
      rw [← hentry, patternCovers_wildcard]
      have hsuffix := OrderedTable.contains_iff.mp (List.find?_some hfound)
      exact ⟨(mem_suffixes entries parent).mp hsuffix, unmarked_wildcard parent,
        mem_parents.mp (List.mem_of_find?_eq_some hfound)⟩

end Blocklist

theorem patternCovers_self (name : Text) : PatternCovers name name := by
  unfold PatternCovers
  split
  next suffix hwild =>
    rw [stripPrefix_eq_some.mp hwild]
    exact ⟨['*'], rfl⟩
  next => rfl

/-- What a source reports is one of its own entries that cover the name. -/
theorem entryFor_covers {source : TextSet} {name entry : Text} (h : entryFor source name = some entry) :
    entry ∈ source.rows ∧ PatternCovers entry name := by
  unfold entryFor at h
  split at h
  next hexact =>
    cases h
    exact ⟨OrderedTable.contains_iff.mp hexact, patternCovers_self name⟩
  next =>
    have ⟨suffix, hparent, hentry⟩ := List.mem_map.mp (List.mem_of_find?_eq_some h)
    rw [← hentry] at h ⊢
    exact ⟨OrderedTable.contains_iff.mp (List.find?_some h), patternCovers_wildcard.mpr (mem_parents.mp hparent)⟩

/-- A source with an entry that covers the name reports one. -/
theorem entryFor_isSome {source : TextSet} {name entry : Text} (hentry : entry ∈ source.rows)
    (hcovers : PatternCovers entry name) : (entryFor source name).isSome = true := by
  unfold entryFor
  split
  next => rfl
  next hexact =>
    cases patternCovers_iff.mp hcovers with
    | inl hsame => exact absurd (OrderedTable.contains_iff.mpr (hsame.2 ▸ hentry)) hexact
    | inr hwild =>
      have ⟨suffix, hsame, hname⟩ := hwild
      apply List.find?_isSome.mpr
      exact ⟨entry, List.mem_map.mpr ⟨suffix, mem_parents.mpr hname, hsame.symm⟩, OrderedTable.contains_iff.mpr hentry⟩

/-- The list holds the names that testing every entry says it holds; the entry it reports for such a
name covers it, and however the entries are split into sources, one of the sources reports an entry
of its own for the name. -/
theorem contains_as_tested (entries : TextSet) (name : Text) :
    let list := Blocklist.fromSet entries
    (list.contains name = true ↔ Listed entries name ∧ ¬Excepted entries name) ∧
      ((list.matchingEntry name).isSome = list.contains name) ∧
      (∀ entry, list.matchingEntry name = some entry → entry ∈ entries.rows ∧ Unmarked entry ∧ PatternCovers entry name) ∧
      ∀ sources : List TextSet, (∀ row, row ∈ entries.rows ↔ ∃ source ∈ sources, row ∈ source.rows) →
        list.contains name = true →
          ∃ source ∈ sources, ∃ entry, entryFor source name = some entry ∧
            entry ∈ source.rows ∧ PatternCovers entry name := by
  intro list
  apply And.intro (Blocklist.contains_iff_covered entries name)
  apply And.intro (Blocklist.matchingEntry_isSome list name)
  apply And.intro fun entry h => Blocklist.matchingEntry_covers entries name h
  intro sources hparts hcontains
  have ⟨entry, hentry, _, hcovers⟩ := ((Blocklist.contains_iff_covered entries name).mp hcontains).1
  have ⟨source, hsource, hrow⟩ := (hparts entry).mp hentry
  have ⟨reported, hreported⟩ := Option.isSome_iff_exists.mp (entryFor_isSome hrow hcovers)
  exact ⟨source, hsource, reported, hreported, entryFor_covers hreported⟩

end DaygleDns.Policy
