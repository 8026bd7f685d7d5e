import DaygleDns.Authoritative.StoreFacts
import DaygleDns.TextFacts

/-! Which names the checks let in: the store's names are plain ones, but for dots
and whitespace that the checks trim away before they look. -/
namespace DaygleDns.Authoritative

open Text Fallible

/-- A letter, a digit or one of the marks of names. -/
def isNameChar (c : Char) : Bool := c.isAlphanum || c == '-' || c == '_' || c == '.' || c == '*'

/-- A name in lower case that does not end in a dot. -/
structure PlainName (name : Text) : Prop where
  nonempty : name ≠ []
  chars : ∀ c ∈ name, isNameChar c = true
  lower : toAsciiLowercase name = name
  last : name.getLast? ≠ some '.'

/-- A plain name, with dots and then whitespace behind it. -/
structure NameShape (name core dots blank : Text) : Prop where
  name : name = core ++ (dots ++ blank)
  core : PlainName core
  dots : ∀ c ∈ dots, c = '.'
  blank : Blank blank

theorem isAlphanum_toNat {c : Char} (h : c.isAlphanum = true) :
    48 ≤ c.toNat ∧ c.toNat ≤ 57 ∨ 65 ≤ c.toNat ∧ c.toNat ≤ 90 ∨ 97 ≤ c.toNat ∧ c.toNat ≤ 122 := by
  change ((decide (65 ≤ c.val ∧ c.val ≤ 90) || (decide (97 ≤ c.val) && decide (c.val ≤ 122))) ||
    (decide (48 ≤ c.val) && decide (c.val ≤ 57))) = true at h
  simp only [Bool.or_eq_true, Bool.and_eq_true, decide_eq_true_eq, UInt32.le_iff_toNat_le] at h
  rcases h with (h | h) | h
  · exact .inr (.inl h)
  · exact .inr (.inr h)
  · exact .inl h

theorem isNameChar_toNat {c : Char} (h : isNameChar c = true) :
    48 ≤ c.toNat ∧ c.toNat ≤ 57 ∨ 65 ≤ c.toNat ∧ c.toNat ≤ 90 ∨ 97 ≤ c.toNat ∧ c.toNat ≤ 122 ∨
      c.toNat = 45 ∨ c.toNat = 95 ∨ c.toNat = 46 ∨ c.toNat = 42 := by
  simp only [isNameChar, Bool.or_eq_true, beq_iff_eq] at h
  rcases h with (((h | rfl) | rfl) | rfl) | rfl
  · rcases isAlphanum_toNat h with h | h | h
    · exact .inl h
    · exact .inr (.inl h)
    · exact .inr (.inr (.inl h))
  all_goals decide

theorem isWhitespace_of_isNameChar {c : Char} (h : isNameChar c = true) :
    isWhitespace c = false := by
  have hcases := isNameChar_toNat h
  unfold isWhitespace
  simp
  omega

theorem PlainName.solid {name : Text} (h : PlainName name) : Solid name :=
  fun c hc => isWhitespace_of_isNameChar (h.chars c hc)

theorem PlainName.flush {name : Text} (h : PlainName name) : Flush name :=
  h.solid.flush h.nonempty

theorem PlainName.normalized {name : Text} (h : PlainName name) : normalizeFqdn name = name := by
  unfold normalizeFqdn
  rw [h.solid.trim, trimEndMatches_of_last h.last, h.lower]

theorem trimEndMatches_dots {s dots : Text} (hs : s.getLast? ≠ some '.')
    (hdots : ∀ c ∈ dots, c = '.') : trimEndMatches '.' (s ++ dots) = s := by
  have hnil : trimEndMatches '.' dots = [] := by
    apply List.rdropWhile_eq_nil_iff.mpr
    intro c hc
    exact beq_iff_eq.mpr (hdots c hc)
  unfold trimEndMatches at hnil ⊢
  rw [rdropWhile_append, if_pos hnil]
  exact trimEndMatches_of_last hs

theorem solid_dots {dots : Text} (h : ∀ c ∈ dots, c = '.') : Solid dots := by
  intro c hc
  rw [h c hc]
  decide

theorem NameShape.normalized {name core dots blank : Text} (h : NameShape name core dots blank) :
    normalizeFqdn name = core := by
  unfold normalizeFqdn
  have hsolid : Solid (core ++ dots) := h.core.solid.append (solid_dots h.dots)
  have htrim : trim name = core ++ dots := by
    rw [h.name, ← List.append_assoc, trim_of_flush ((h.core.flush.append dots).append blank),
      trimEnd_append_blank _ h.blank, hsolid.trimEnd]
  rw [htrim, trimEndMatches_dots h.core.last h.dots, h.core.lower]

/-- A name is in normal form where nothing stands behind the plain one. -/
theorem NameShape.normal_iff {name core dots blank : Text} (h : NameShape name core dots blank) :
    normalizeFqdn name = name ↔ dots = [] ∧ blank = [] := by
  rw [h.normalized]
  constructor
  · intro hsame
    have hlength := congrArg List.length (hsame.trans h.name)
    rw [List.length_append, List.length_append] at hlength
    constructor <;> apply List.eq_nil_of_length_eq_zero <;> omega
  · intro hnil
    rw [h.name, hnil.1, hnil.2]
    simp

/-! The checks. -/

theorem chars_of_labels {s : Text} {ok : Char → Prop}
    (h : ∀ label ∈ s.splitOn '.', ∀ c ∈ label, ok c) : ∀ c ∈ s, c = '.' ∨ ok c := by
  have hjoined : ∀ labels : List Text, (∀ label ∈ labels, ∀ c ∈ label, ok c) →
      ∀ c ∈ ['.'].intercalate labels, c = '.' ∨ ok c := by
    intro labels
    induction labels with
    | nil => simp
    | cons label labels ih =>
      intro hlabels c hc
      have hfirst := hlabels label List.mem_cons_self
      have hrest := ih fun other hother => hlabels other (List.mem_cons_of_mem _ hother)
      cases labels with
      | nil =>
        rw [List.intercalate_singleton] at hc
        exact .inr (hfirst c hc)
      | cons next labels =>
        rw [List.intercalate_cons_cons, List.mem_append, List.mem_append] at hc
        rcases hc with (hc | hc) | hc
        · exact .inr (hfirst c hc)
        · exact .inl (List.mem_singleton.mp hc)
        · exact hrest c hc
  have hs := hjoined _ h
  rwa [List.intercalate_splitOn] at hs

theorem validateLabel_chars {name label : Text} (h : validateLabel name label = .ok ()) :
    ∀ c ∈ label, isNameChar c = true := by
  unfold validateLabel at h
  simp only [guard_eq_ok, Bool.or_eq_true, not_or, Bool.not_eq_true, List.any_eq_false] at h
  intro c hc
  have hmark := h.2.2.1.2 c hc
  unfold isNameChar
  simp at hmark ⊢
  grind

/-- What is checked of a name. -/
theorem validateName_eq_ok {name : Text} (h : validateName name false = .ok ()) :
    trimEndMatches '.' (trim name) ≠ [] ∧
      ∀ c ∈ trimEndMatches '.' (trim name), isNameChar c = true := by
  unfold validateName at h
  simp only [throw_eq, pure_eq, error_bind, guard_eq_ok, bind_eq_ok] at h
  obtain ⟨hne, u, hlabels, _⟩ := h
  refine ⟨by simpa using hne, ?_⟩
  intro c hc
  have hchars := chars_of_labels
    (fun label hlabel => validateLabel_chars (forM_eq_ok.mp hlabels label hlabel)) c hc
  rcases hchars with rfl | hc
  · decide
  · exact hc

theorem validateOwnerName_eq_ok {name : Text} (h : validateOwnerName name = .ok ()) :
    trimEndMatches '.' (trim name) ≠ [] ∧
      ∀ c ∈ trimEndMatches '.' (trim name), isNameChar c = true := by
  unfold validateOwnerName at h
  rw [guard_eq_ok] at h
  obtain ⟨hsolid, h⟩ := h
  have htrimmed : Solid (trim name) := by
    intro c hc
    simp only [List.any_eq_true, not_exists, not_and, Bool.not_eq_true] at hsolid
    exact hsolid c hc
  split at h
  next rest hrest =>
    have hname : trim name = ['*', '.'] ++ rest := stripPrefix_eq_some.mp hrest
    have hrestSolid : Solid rest := by
      intro c hc
      apply htrimmed
      rw [hname]
      exact List.mem_append_right _ hc
    have hchecked := validateName_eq_ok h
    rw [hrestSolid.trim] at hchecked
    rw [hname, trimEndMatches_append_of_ne _ hchecked.1]
    refine ⟨List.cons_ne_nil _ _, ?_⟩
    intro c hc
    rcases List.mem_append.mp hc with hc | hc
    · have hmarks : ∀ c ∈ ['*', '.'], isNameChar c = true := by decide
      exact hmarks c hc
    · exact hchecked.2 c hc
  next =>
    have hchecked := validateName_eq_ok h
    rwa [trim_trim] at hchecked

/-- A name that is flush and in lower case has the shape, where its trimmed
form consists of name characters. -/
theorem nameShape_of_checked {name : Text} (hflush : Flush name)
    (hlower : toAsciiLowercase name = name) (hne : trimEndMatches '.' (trim name) ≠ [])
    (hchars : ∀ c ∈ trimEndMatches '.' (trim name), isNameChar c = true) :
    ∃ core dots blank, NameShape name core dots blank := by
  rw [trim_of_flush hflush] at hne hchars
  have hdots := List.rdropWhile_append_rtakeWhile (p := (· == '.')) (l := trimEnd name)
  have hblank := List.rdropWhile_append_rtakeWhile (p := isWhitespace) (l := name)
  have hname : name = trimEndMatches '.' (trimEnd name) ++
      ((trimEnd name).rtakeWhile (· == '.') ++ name.rtakeWhile isWhitespace) := by
    rw [← List.append_assoc]
    conv => lhs; rw [← hblank]
    rw [show trimEndMatches '.' (trimEnd name) ++ (trimEnd name).rtakeWhile (· == '.') =
      trimEnd name from hdots]
    rfl
  refine ⟨_, _, _, hname, ⟨hne, hchars, ?_, getLast?_trimEndMatches '.' _⟩, ?_, ?_⟩
  · rw [hname, toAsciiLowercase_append] at hlower
    exact (List.append_inj hlower (List.length_map _)).1
  · intro c hc
    have hdot := List.mem_rtakeWhile_imp hc
    exact beq_iff_eq.mp hdot
  · intro c hc
    exact List.mem_rtakeWhile_imp hc

theorem flush_of_checked {name : Text} (hlower : ∃ s, name = toAsciiLowercase s ∧ (s = [] ∨ Flush s))
    (hne : trimEndMatches '.' (trim name) ≠ []) : Flush name := by
  obtain ⟨s, rfl, rfl | hs⟩ := hlower
  · exact absurd rfl hne
  · exact hs.toAsciiLowercase

theorem prefix_nil_or_flush {a s : Text} (h : s = [] ∨ Flush s) (ha : a <+: s) :
    a = [] ∨ Flush a := by
  rcases h with rfl | h
  · exact .inl (List.prefix_nil.mp ha)
  · by_cases hne : a = []
    · exact .inl hne
    · exact .inr (h.initial ha hne)

theorem trimEndMatches_leads (c : Char) (s : Text) : trimEndMatches c s <+: s :=
  List.rdropWhile_prefix _ s

theorem qualifyName_lower (owner zoneName : Text) :
    ∃ s, qualifyName owner zoneName = toAsciiLowercase s ∧ (s = [] ∨ Flush s) := by
  refine ⟨_, rfl, ?_⟩
  have hzone : trimEndMatches '.' (trim zoneName) = [] ∨ Flush (trimEndMatches '.' (trim zoneName)) :=
    prefix_nil_or_flush (trim_nil_or_flush zoneName) (trimEndMatches_leads '.' _)
  split
  next => exact hzone
  next hother =>
    have howner : Flush (trim owner) := by
      apply (trim_nil_or_flush owner).resolve_left
      intro hnil
      apply hother
      simp [hnil]
    split
    next stripped hstripped =>
      apply prefix_nil_or_flush (.inr howner)
      unfold stripSuffix at hstripped
      split at hstripped
      · cases hstripped
        exact List.take_prefix _ _
      · cases hstripped
    next =>
      split
      · exact .inr howner
      · exact .inr (howner.append _)

/-- The name of a record that was stored. -/
theorem insertRecordInTx_nameShape {hickory : Hickory} {store after : ZoneStore} {zoneId : Uuid}
    {zoneName : Text} {input : RecordInput} {now : Time} {record : Record}
    (h : insertRecordInTx hickory store zoneId zoneName input now = .ok (record, after)) :
    ∃ core dots blank, NameShape record.name core dots blank := by
  obtain ⟨⟨_, hname, _⟩, rfl, _⟩ := insertRecordInTx_eq_ok.mp h
  have hchecked := validateOwnerName_eq_ok hname
  have hlower := qualifyName_lower input.name zoneName
  change ∃ core dots blank, NameShape (qualifyName input.name zoneName) core dots blank
  apply nameShape_of_checked (flush_of_checked hlower hchecked.1) _ hchecked.1 hchecked.2
  obtain ⟨s, hs, _⟩ := hlower
  rw [hs, toAsciiLowercase_idem]

theorem createZone_name {hickory : Hickory} {store after : ZoneStore} {input : ZoneInput} {now : Time}
    {created : Zone} (h : createZone hickory store input now = .ok (created, after)) :
    created.name = normalizeFqdn input.name ∧ validateName (normalizeFqdn input.name) false = .ok () := by
  unfold createZone at h
  simp only [throw_eq, pure_eq, error_bind, bind_eq_ok] at h
  rcases h with ⟨u, hname, h⟩
  split at h
  next => exact absurd h error_ne_ok
  next =>
    rcases bind_eq_ok.mp (guard_eq_ok.mp h).2 with ⟨⟨record, grown⟩, _, hcreated⟩
    cases hcreated
    exact ⟨rfl, hname⟩

theorem getLast?_normalizeFqdn (name : Text) : (normalizeFqdn name).getLast? ≠ some '.' := by
  unfold normalizeFqdn
  rw [show toAsciiLowercase (trimEndMatches '.' (trim name)) =
    (trimEndMatches '.' (trim name)).map Char.toLower from rfl, List.getLast?_map]
  intro hlast
  obtain ⟨c, hc, hdot⟩ := Option.map_eq_some_iff.mp hlast
  apply getLast?_trimEndMatches '.' (trim name)
  rw [hc, toLower_eq_dot.mp hdot]

/-- The name of a zone that was created; it does not end in a dot. -/
theorem createZone_nameShape {hickory : Hickory} {store after : ZoneStore} {input : ZoneInput}
    {now : Time} {created : Zone} (h : createZone hickory store input now = .ok (created, after)) :
    (∃ core dots blank, NameShape created.name core dots blank) ∧
      created.name.getLast? ≠ some '.' := by
  obtain ⟨hname, hvalid⟩ := createZone_name h
  have hchecked := validateName_eq_ok hvalid
  have hflush : Flush (normalizeFqdn input.name) := by
    apply flush_of_checked ⟨_, rfl, _⟩ hchecked.1
    exact prefix_nil_or_flush (trim_nil_or_flush input.name) (trimEndMatches_leads '.' _)
  rw [hname]
  constructor
  · apply nameShape_of_checked hflush _ hchecked.1 hchecked.2
    exact toAsciiLowercase_idem _
  · exact getLast?_normalizeFqdn input.name

end DaygleDns.Authoritative
