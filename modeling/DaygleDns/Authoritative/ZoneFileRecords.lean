import DaygleDns.Authoritative.ZoneFileLines

/-! The records of an export, read back. -/
namespace DaygleDns.Authoritative

open Text Fallible

/-- An enabled record of the zone that was accepted when it was stored, with its
content on one line. -/
structure StoredEntry (zone : Zone) (record : Record) : Prop where
  accepted : ∃ hickory store zoneId input now row after,
    insertRecordInTx hickory store zoneId zone.name input now = .ok (row, after) ∧
      record.name = row.name ∧ record.rtype = row.rtype ∧ record.content = row.content
  enabled : record.disabled = false
  singleLine : '\n' ∉ record.content

def importEntry (record : Record) : RecordInput where
  name := record.name
  rtype := record.rtype
  content := record.content
  ttl := record.ttl

/-! Reading line by line. -/

theorem parseLines_ok {state after : ZoneFileState} {line : Text} {entry : Option RecordInput}
    (h : parseLine state line = .ok (after, entry)) (lines : List Text) :
    parseLines state (line :: lines) = (parseLines after lines).map (entry.toList ++ ·) := by
  rw [parseLines, h, ok_bind]
  dsimp only
  cases parseLines after lines <;> rfl

theorem parseLines_none {state after : ZoneFileState} {line : Text}
    (h : parseLine state line = .ok (after, none)) (lines : List Text) :
    parseLines state (line :: lines) = parseLines after lines := by
  rw [parseLines_ok h]
  cases parseLines after lines <;> rfl

theorem parseLines_error {state : ZoneFileState} {line : Text} {e : DaygleError}
    (h : parseLine state line = .error e) (lines : List Text) :
    parseLines state (line :: lines) = .error e := by
  rw [parseLines, h]
  rfl

/-- The first entry that is read is that of the first line. -/
theorem parseLines_first {state after : ZoneFileState} {line : Text} {entry first : RecordInput}
    {lines : List Text} {entries : List RecordInput}
    (h : parseLine state line = .ok (after, some entry))
    (hread : parseLines state (line :: lines) = .ok (first :: entries)) :
    entry = first ∧ parseLines after lines = .ok entries := by
  rw [parseLines_ok h] at hread
  cases hlater : parseLines after lines with
  | error e =>
    rw [hlater] at hread
    cases hread
  | ok later =>
    rw [hlater] at hread
    cases hread
    exact ⟨rfl, rfl⟩

/-! Stored records. -/

theorem trim_storedContent (rtype content : Text) :
    trim (storedContent rtype (trim content)) = storedContent rtype (trim content) := by
  unfold storedContent
  split
  · have hlast : ∀ s : Text, trimEnd (s ++ ['.']) = s ++ ['.'] := by
      intro s
      rw [trimEnd_concat, if_neg (by decide)]
    rcases prefix_nil_or_flush (trim_nil_or_flush (trim content))
      (trimEndMatches_leads '.' (trim (trim content))) with hnil | hflush
    · rw [hnil]
      decide
    · rw [trim_of_flush (hflush.toAsciiLowercase.append _), hlast]
  · exact trim_trim content

namespace StoredEntry

variable {zone : Zone} {record : Record}

theorem nameShape (h : StoredEntry zone record) :
    ∃ core dots blank, NameShape record.name core dots blank := by
  obtain ⟨_, _, _, _, _, _, _, hinsert, hname, _⟩ := h.accepted
  rw [hname]
  exact insertRecordInTx_nameShape hinsert

theorem known (h : StoredEntry zone record) : record.rtype ∈ knownRecordTypes := by
  obtain ⟨_, _, _, _, _, _, _, hinsert, _, hrtype, _⟩ := h.accepted
  obtain ⟨⟨hknown, _⟩, hrow, _⟩ := insertRecordInTx_eq_ok.mp hinsert
  rw [hrtype, hrow]
  exact hknown

theorem trimmed (h : StoredEntry zone record) : trim record.content = record.content := by
  obtain ⟨_, _, _, _, _, _, _, hinsert, _, _, hcontent⟩ := h.accepted
  obtain ⟨_, hrow, _⟩ := insertRecordInTx_eq_ok.mp hinsert
  rw [hcontent, hrow]
  exact trim_storedContent _ _

end StoredEntry

/-- Where the name of a record ends in whitespace, its dots are not trimmed. -/
theorem NameShape.written {name core dots blank : Text} (h : NameShape name core dots blank) :
    (blank = [] ∧ trimEndMatches '.' name = core) ∨ (blank ≠ [] ∧ trimEndMatches '.' name = name) := by
  cases hblank : blank using List.reverseRecOn with
  | nil =>
    left
    rw [h.name, hblank, List.append_nil]
    exact ⟨rfl, trimEndMatches_dots h.core.last h.dots⟩
  | append_singleton more c =>
    right
    refine ⟨by simp, ?_⟩
    apply trimEndMatches_of_last
    rw [h.name, hblank, ← List.append_assoc, ← List.append_assoc, List.getLast?_concat]
    intro hdot
    have hspace := h.blank c (by rw [hblank]; simp)
    rw [Option.some.inj hdot] at hspace
    exact absurd hspace (by decide)

theorem renderRecord_enabled {record : Record} (h : record.disabled = false) (rest : Text) :
    renderRecord record ++ rest =
      entryText (trimEndMatches '.' record.name) record.ttl record.rtype record.content ++
        '\n' :: rest := by
  unfold renderRecord renderLine entryText fieldsText
  rw [h, if_neg Bool.false_ne_true]
  simp

/-- The record is read back as it is. -/
structure Survives (record : Record) : Prop where
  owner : normalizeFqdn record.name = record.name
  nonempty : record.content ≠ []
  uncommented : hasComment false record.content = false

theorem unnested_stripComment {s : Text} (h : Unnested s) (inQuotes : Bool) :
    Unnested (stripComment inQuotes s) := h.subset (stripComment_leads inQuotes s).subset

/-- A record that survives, in front of other lines. -/
theorem parseLines_survives {zone : Zone} {record : Record} (h : StoredEntry zone record)
    (hunnested : Unnested record.content) (hsurvives : Survives record) (state : ZoneFileState)
    (rest : Text) :
    parseLines state (logicalLines (renderRecord record ++ rest)) =
      (parseLines { state with lastOwner := record.name } (logicalLines rest)).map
        (importEntry record :: ·) := by
  obtain ⟨core, dots, blank, hshape⟩ := h.nameShape
  obtain ⟨hdots, hblank⟩ := hshape.normal_iff.mp hsurvives.owner
  have hname : record.name = core := by
    rw [hshape.name, hdots, hblank]
    simp
  have hplain : PlainName record.name := hname ▸ hshape.core
  have hrtype := typeWord_of_known h.known
  have hcontent : ¬ Blank record.content := by
    intro hblank
    apply hsurvives.nonempty
    rw [← h.trimmed, trim_eq_nil.mpr hblank]
  rw [renderRecord_enabled h.enabled, trimEndMatches_of_last hplain.last,
    logicalLines_entry hplain.inert hplain.flush _ hrtype h.singleLine
      (unnested_stripComment hunnested false), stripComment_self hsurvives.uncommented,
    parseLines_ok (parseLine_entry state hplain record.ttl hrtype hcontent), h.trimmed]
  rfl

theorem parseLines_spaced {state : ZoneFileState} {name core dots blank : Text}
    (h : NameShape name core dots blank) (hblank : blank ≠ []) {ttl : UInt32} {rtype content : Text}
    {lines : List Text} {first : RecordInput} {entries : List RecordInput}
    (hread : parseLines state (trimEnd (entryText name ttl rtype content) :: lines) =
      .ok (first :: entries)) : first.rtype = ['.'] := by
  cases hline : parseLine state (trimEnd (entryText name ttl rtype content)) with
  | error e =>
    rw [parseLines_error hline] at hread
    cases hread
  | ok found =>
    obtain ⟨entry, hentry, hdot⟩ := parseLine_spaced state h hblank ttl rtype content hline
    obtain ⟨after, entry'⟩ := found
    dsimp only at hentry
    rw [hentry] at hline
    rw [← (parseLines_first hline hread).1]
    exact hdot

/-- A line feed in the name leaves it alone on its line. -/
theorem parseLines_feed {name core dots blank : Text} (h : NameShape name core dots blank)
    (hfeed : '\n' ∈ blank) (state : ZoneFileState) (rest : Text) :
    ∃ e, parseLines state (logicalLines (name ++ rest)) = .error e := by
  obtain ⟨before, after, hsplit, hbefore⟩ := List.eq_append_cons_of_mem hfeed
  have hblank : Blank before := fun c hc => h.blank c (by
    rw [hsplit]
    exact List.mem_append_left _ hc)
  have htext : name ++ rest = core ++ (dots ++ before) ++ '\n' :: (after ++ rest) := by
    rw [h.name, hsplit]
    simp
  obtain ⟨e, herror⟩ := parseLine_alone state h.core h.dots
  rw [htext, logicalLines_alone h.core h.dots hblank hbefore, parseLines_error herror]
  exact ⟨e, rfl⟩

/-- A record that is read back as it is survives. -/
theorem survives_of_parseLines {zone : Zone} {record : Record} (h : StoredEntry zone record)
    (hunnested : Unnested record.content) {state : ZoneFileState} {rest : Text}
    {entries : List RecordInput} (hread : parseLines state (logicalLines (renderRecord record ++ rest)) =
      .ok (importEntry record :: entries)) : Survives record := by
  obtain ⟨core, dots, blank, hshape⟩ := h.nameShape
  have hrtype := typeWord_of_known h.known
  have hstripped := unnested_stripComment hunnested false
  rw [renderRecord_enabled h.enabled] at hread
  rcases hshape.written with ⟨hblank, hwritten⟩ | ⟨hblank, hwritten⟩
  · rw [hwritten, logicalLines_entry hshape.core.inert hshape.core.flush _ hrtype h.singleLine
      hstripped] at hread
    by_cases hempty : Blank (stripComment false record.content)
    · obtain ⟨e, herror⟩ := parseLine_blank state hshape.core record.ttl hrtype hempty
      rw [parseLines_error herror] at hread
      cases hread
    · have hentry := (parseLines_first (parseLine_entry state hshape.core record.ttl hrtype hempty)
        hread).1
      have hname : core = record.name := congrArg RecordInput.name hentry
      have hcontent : trim (stripComment false record.content) = record.content :=
        congrArg RecordInput.content hentry
      refine ⟨?_, ?_, ?_⟩
      · rw [hshape.normalized, hname]
      · intro hnil
        rw [hnil] at hempty
        exact hempty blank_nil
      · cases hcomment : hasComment false record.content with
        | false => rfl
        | true =>
          have hless := stripComment_length hcomment
          have htrim := length_trim_le (stripComment false record.content)
          rw [hcontent] at htrim
          omega
  · rw [hwritten] at hread
    exfalso
    by_cases hfeed : '\n' ∈ blank
    · obtain ⟨e, herror⟩ := parseLines_feed hshape hfeed state
        ('.' :: ' ' :: fieldsText record.ttl record.rtype record.content ++ '\n' :: rest)
      unfold entryText at hread
      rw [List.append_assoc, herror] at hread
      cases hread
    · have hflush : Flush record.name := by
        rw [hshape.name]
        exact hshape.core.flush.append _
      rw [logicalLines_entry (hshape.inert hfeed) hflush _ hrtype h.singleLine hstripped] at hread
      have hdot : record.rtype = ['.'] := parseLines_spaced hshape hblank hread
      have hknown := h.known
      rw [hdot] at hknown
      exact absurd hknown (by decide)

/-- The enabled records of an export are read back as they are exactly when each
of them survives. -/
theorem parseLines_records_iff {zone : Zone} {records : List Record}
    (h : ∀ record ∈ records, StoredEntry zone record)
    (hunnested : ∀ record ∈ records, Unnested record.content) (state : ZoneFileState) :
    parseLines state (logicalLines (records.flatMap renderRecord)) =
      .ok (records.map importEntry) ↔ ∀ record ∈ records, Survives record := by
  induction records generalizing state with
  | nil =>
    constructor
    · intro _ record hrecord
      exact absurd hrecord List.not_mem_nil
    · intro _
      rfl
  | cons record records ih =>
    have hrecord := h record List.mem_cons_self
    have hinner := hunnested record List.mem_cons_self
    have hlater := ih (fun other hother => h other (List.mem_cons_of_mem _ hother))
      fun other hother => hunnested other (List.mem_cons_of_mem _ hother)
    rw [List.flatMap_cons, List.map_cons, List.forall_mem_cons]
    constructor
    · intro hread
      have hsurvives := survives_of_parseLines hrecord hinner hread
      rw [parseLines_survives hrecord hinner hsurvives] at hread
      refine ⟨hsurvives, (hlater { state with lastOwner := record.name }).mp ?_⟩
      cases hrest : parseLines { state with lastOwner := record.name }
          (logicalLines (records.flatMap renderRecord)) with
      | error e =>
        rw [hrest] at hread
        cases hread
      | ok entries =>
        rw [hrest] at hread
        exact congrArg Except.ok (List.cons.inj (Except.ok.inj hread)).2
    · intro hall
      rw [parseLines_survives hrecord hinner hall.1, (hlater _).mpr hall.2]
      rfl

end DaygleDns.Authoritative
