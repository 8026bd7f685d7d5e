import DaygleDns.AddressText
import DaygleDns.Authoritative.NameFacts
import DaygleDns.Templates

/-! AUTOPTR records: the host names that their templates make of addresses. -/
namespace DaygleDns.Authoritative

open Text Fallible

/-- An address with dashes for separators. -/
def dashedAddress : IpAddr → Text
  | .v4 ip => (['-'] : Text).intercalate (ip.octets.map ofNat)
  | .v6 ip => (['-'] : Text).intercalate (ip.segments.map hexText)

def expand (template : Text) (address : IpAddr) : Text := expandTemplate template (dashedAddress address)

example : sampleAddresses = [dashedAddress (.v4 0xc00002ff), dashedAddress (.v6 0x20010db80000000000000000ffff0001)] := by
  decide

/-- What a name is made of. -/
def isLabelChar (c : Char) : Bool := c.isAlphanum || c == '-' || c == '_'

/-- What may stand in a label wherever labels may be. -/
structure LabelPart (value : Text) : Prop where
  nonempty : value ≠ []
  chars : ∀ c ∈ value, isLabelChar c = true
  head : value.head? ≠ some '-'
  last : value.getLast? ≠ some '-'

theorem isLabelChar_iff {c : Char} : isLabelChar c = true ↔ (c.isAlphanum = true ∨ c = '-') ∨ c = '_' := by
  simp [isLabelChar]

theorem validateLabel_eq_ok {name label : Text} :
    validateLabel name label = .ok () ↔ utf8Len label ≤ 63 ∧ LabelPart label := by
  unfold validateLabel
  simp only [guard_eq_ok, Bool.or_eq_true, beq_iff_eq, not_or, List.any_eq_true, not_exists, not_and, Bool.not_eq_true',
    Bool.not_eq_false, and_true]
  constructor
  · rintro ⟨hempty, hlong, ⟨hhead, hlast⟩, hchars⟩
    exact ⟨Nat.le_of_not_lt hlong, by simpa using hempty, fun c hc => isLabelChar_iff.mpr (hchars c hc), hhead, hlast⟩
  · rintro ⟨hshort, hword⟩
    exact ⟨by simpa using hword.nonempty, Nat.not_lt_of_le hshort, ⟨hword.head, hword.last⟩,
      fun c hc => isLabelChar_iff.mp (hword.chars c hc)⟩

theorem validateName_iff {name : Text} :
    validateName name false = .ok () ↔
      trimEndMatches '.' (trim name) ≠ [] ∧
        (∀ label ∈ (trimEndMatches '.' (trim name)).splitOn '.', utf8Len label ≤ 63 ∧ LabelPart label) ∧
        '.' ∈ trimEndMatches '.' (trim name) := by
  have hlabels : ((trimEndMatches '.' (trim name)).splitOn '.').forM (validateLabel name) = .ok () ↔
      ∀ label ∈ (trimEndMatches '.' (trim name)).splitOn '.', utf8Len label ≤ 63 ∧ LabelPart label := by
    rw [Fallible.forM_eq_ok]
    simp only [validateLabel_eq_ok]
  unfold validateName
  simp only [throw_eq, pure_eq, error_bind, guard_eq_ok, bind_eq_ok]
  constructor
  · rintro ⟨hne, _, hforM, hdot, -⟩
    exact ⟨by simpa using hne, hlabels.mp hforM, by simpa using hdot⟩
  · rintro ⟨hne, hall, hdot⟩
    exact ⟨by simpa using hne, (), hlabels.mpr hall, by simpa using hdot, trivial⟩

theorem labelPart_fill {value : Text} (h : LabelPart value) (template : List Piece) :
    LabelPart (fill value template) ↔ template ≠ [] ∧ (∀ c, some c ∈ template → isLabelChar c = true) ∧
      template.head? ≠ some (some '-') ∧ template.getLast? ≠ some (some '-') := by
  have hhead := head?_fill h.nonempty h.head template
  have hlast := getLast?_fill h.nonempty h.last template
  have hchars := @forall_mem_fill value _ h.chars template
  constructor
  · rintro ⟨hne, hall, hfirst, hend⟩
    exact ⟨fun hnil => hne ((fill_eq_nil h.nonempty).mpr hnil), hchars.mp hall, fun hsome => hfirst (hhead.mpr hsome),
      fun hsome => hend (hlast.mpr hsome)⟩
  · rintro ⟨hne, hall, hfirst, hend⟩
    exact ⟨fun hnil => hne ((fill_eq_nil h.nonempty).mp hnil), hchars.mpr hall, fun hsome => hfirst (hhead.mp hsome),
      fun hsome => hend (hlast.mp hsome)⟩

/-! What is checked of a host name, in terms of its template. -/

/-- The pieces of a template that are left when its host names are trimmed. -/
def trimPieces (template : List Piece) : List Piece :=
  ((template.dropWhile (·.any isWhitespace)).rdropWhile (·.any isWhitespace)).rdropWhile (·.any (· == '.'))

/-- The labels of a template, without what the check of its host names trims away. -/
def templateLabels (template : Text) : List (List Piece) :=
  (trimPieces (pieces ipPlaceholder (trimEndMatches '.' template))).splitOn (some '.')

theorem LabelPart.solid {value : Text} (h : LabelPart value) : Solid value := by
  intro c hc
  apply isWhitespace_of_isNameChar
  have hchar := isLabelChar_iff.mp (h.chars c hc)
  unfold isNameChar
  simp only [Bool.or_eq_true, beq_iff_eq]
  tauto

theorem LabelPart.no_dot {value : Text} (h : LabelPart value) : '.' ∉ value := by
  intro hdot
  exact absurd (h.chars '.' hdot) (by decide)

theorem trim_fill {value : Text} (h : LabelPart value) (template : List Piece) :
    trimEndMatches '.' (trim (fill value template)) = fill value (trimPieces template) := by
  obtain ⟨first, rest, hfirst, hfirstInk⟩ := h.solid.flush h.nonempty
  obtain ⟨front, last, hlast⟩ : ∃ front last, value = front ++ [last] :=
    ⟨_, _, (List.dropLast_append_getLast h.nonempty).symm⟩
  have hmem : last ∈ value := by rw [hlast]; simp
  have hlastInk := h.solid last hmem
  have hlastDot : (last == '.') = false := beq_false_of_ne fun hdot => h.no_dot (hdot ▸ hmem)
  rw [trim, trimStart, dropWhile_fill hfirst hfirstInk, trimEnd, rdropWhile_fill hlast hlastInk, trimEndMatches,
    rdropWhile_fill hlast hlastDot]
  rfl

/-- The demands on a template that do not depend on what is put into it. -/
def WellShaped (template : Text) : Prop :=
  some '.' ∈ trimPieces (pieces ipPlaceholder (trimEndMatches '.' template)) ∧
    ∀ label ∈ templateLabels template, label ≠ [] ∧ (∀ c, some c ∈ label → isLabelChar c = true) ∧
      label.head? ≠ some (some '-') ∧ label.getLast? ≠ some (some '-')

/-- Every label has room for an address of that length at each of its placeholders. -/
def HasRoom (template : Text) (length : Nat) : Prop :=
  ∀ label ∈ templateLabels template, filledLen length label ≤ 63

theorem validateName_expand {value : Text} (h : LabelPart value) (template : Text) :
    validateName (expandTemplate template value) false = .ok () ↔ WellShaped template ∧ HasRoom template (utf8Len value) := by
  rw [validateName_iff, expandTemplate, replace_eq_fill, trim_fill h, splitOn_fill h.no_dot, mem_fill h.no_dot,
    Ne, fill_eq_nil h.nonempty]
  simp only [List.forall_mem_map, utf8Len_fill, labelPart_fill h]
  unfold WellShaped HasRoom
  constructor
  · rintro ⟨-, hlabels, hdot⟩
    exact ⟨⟨hdot, fun label hlabel => (hlabels label hlabel).2⟩, fun label hlabel => (hlabels label hlabel).1⟩
  · rintro ⟨⟨hdot, hshape⟩, hroom⟩
    exact ⟨List.ne_nil_of_mem hdot, fun label hlabel => ⟨hroom label hlabel, hshape label hlabel⟩, hdot⟩

/-! Addresses. -/

theorem ne_dash_of_isAlphanum {c : Char} (h : c.isAlphanum = true) : c ≠ '-' := by
  rintro rfl
  exact absurd h (by decide)

theorem labelPart_of_alphanum {part : Text} (hne : part ≠ []) (h : ∀ c ∈ part, c.isAlphanum = true) : LabelPart part where
  nonempty := hne
  chars := fun c hc => isLabelChar_iff.mpr (.inl (.inl (h c hc)))
  head := fun hhead => ne_dash_of_isAlphanum (h '-' (List.mem_of_mem_head? hhead)) rfl
  last := fun hlast => ne_dash_of_isAlphanum (h '-' (List.mem_of_getLast? hlast)) rfl

theorem LabelPart.dash {a b : Text} (ha : LabelPart a) (hb : LabelPart b) : LabelPart (a ++ '-' :: b) where
  nonempty := by simp
  chars := by
    intro c hc
    rcases List.mem_append.mp hc with hc | hc
    · exact ha.chars c hc
    · rcases List.mem_cons.mp hc with rfl | hc
      · decide
      · exact hb.chars c hc
  head := by
    rw [List.head?_append_of_ne_nil _ ha.nonempty]
    exact ha.head
  last := by
    rw [List.getLast?_append_of_ne_nil _ (by simp), List.getLast?_cons_of_ne_nil hb.nonempty]
    exact hb.last

theorem labelPart_intercalate {parts : List Text} (hne : parts ≠ []) (h : ∀ part ∈ parts, LabelPart part) :
    LabelPart ((['-'] : Text).intercalate parts) := by
  induction parts with
  | nil => exact absurd rfl hne
  | cons part parts ih =>
    have hpart := h part List.mem_cons_self
    cases parts with
    | nil => simpa [List.intercalate] using hpart
    | cons next parts =>
      have hrest := ih (by simp) fun other hother => h other (List.mem_cons_of_mem part hother)
      have hsplit : (['-'] : Text).intercalate (part :: next :: parts) = part ++ '-' :: (['-'] : Text).intercalate (next :: parts) := by
        simp [List.intercalate]
      rw [hsplit]
      exact hpart.dash hrest

theorem isAlphanum_of_isHexDigit {c : Char} (h : isHexDigit c = true) : c.isAlphanum = true := by
  simp only [isHexDigit, Bool.or_eq_true, Bool.and_eq_true, decide_eq_true_eq] at h
  have hletters : c.isAlphanum = ((decide (c.val ≥ 'A'.val ∧ c.val ≤ 'Z'.val) ||
      (decide (c.val ≥ 'a'.val) && decide (c.val ≤ 'z'.val))) || c.isDigit) := rfl
  simp only [hletters, Bool.or_eq_true, Bool.and_eq_true, decide_eq_true_eq]
  rcases h with (h | ⟨hlow, hhigh⟩) | ⟨hlow, hhigh⟩
  · exact .inr h
  · exact .inl (.inr ⟨hlow, hhigh.trans (by decide)⟩)
  · exact .inl (.inl ⟨hlow, hhigh.trans (by decide)⟩)

theorem labelPart_dashedAddress (address : IpAddr) : LabelPart (dashedAddress address) := by
  cases address with
  | v4 ip =>
    apply labelPart_intercalate (by simp [Ipv4Addr.octets])
    intro part hpart
    obtain ⟨n, -, rfl⟩ := List.mem_map.mp hpart
    apply labelPart_of_alphanum (ofNat_ne_nil n)
    intro c hc
    simp [Char.isAlphanum, isDigit_ofNat hc]
  | v6 ip =>
    apply labelPart_intercalate (by simp [Ipv6Addr.segments])
    intro part hpart
    obtain ⟨n, -, rfl⟩ := List.mem_map.mp hpart
    apply labelPart_of_alphanum (hexText_ne_nil n)
    intro c hc
    exact isAlphanum_of_isHexDigit (isHexDigit_hexText hc)

/-! Accepted templates. -/

theorem checkSampleHost_eq_ok {template sample : Text} :
    checkSampleHost template sample = .ok () ↔ validateName (expandTemplate template sample) false = .ok () := by
  unfold checkSampleHost
  cases hvalid : validateName (expandTemplate template sample) false with
  | ok _ => simp only [hvalid, Except.mapError]
  | error _ => simp only [hvalid, Except.mapError, reduceCtorEq]

/-- What the acceptance of a template says about its host names. -/
theorem wellShaped_of_checked {store : ZoneStore} {zoneId : Uuid} {name template content : Text} {disabled : Bool}
    (h : checkAutoPtr store zoneId name template disabled = .ok content) : WellShaped content := by
  have hcontent := (checkAutoPtr_eq_ok h).1
  unfold checkAutoPtr at h
  simp only [throw_eq, pure_eq, error_bind, bind_eq_ok, guard_eq_ok] at h
  obtain ⟨_, _, _, hsamples, _⟩ := h
  have hsample := checkSampleHost_eq_ok.mp (Fallible.forM_eq_ok.mp hsamples "192-0-2-255" (by decide))
  have hword := labelPart_dashedAddress (.v4 0xc00002ff)
  have hshape := ((validateName_expand hword _).mp hsample).1
  rw [hcontent]
  unfold WellShaped templateLabels at hshape ⊢
  rwa [trimEndMatches_concat]

/-- An accepted template makes a host name of an address exactly when each of its labels has
room for the address. -/
theorem expand_valid_iff {store : ZoneStore} {zoneId : Uuid} {name template content : Text} {disabled : Bool}
    (h : checkAutoPtr store zoneId name template disabled = .ok content) (address : IpAddr) :
    validateName (expand content address) false = .ok () ↔ HasRoom content (utf8Len (dashedAddress address)) := by
  rw [expand, validateName_expand (labelPart_dashedAddress address)]
  exact and_iff_right (wellShaped_of_checked h)

/-- The reverse zone of 192.0.2.0/24. -/
def ZoneStore.reverse : ZoneStore :=
  match createZone .acceptAll .empty { name := "2.0.192.in-addr.arpa" } 0 with
  | .ok (_, store) => store
  | .error _ => .empty

/-- Two addresses in a label: the samples fit, but the longest addresses do not. -/
theorem expand_valid_fails :
    checkAutoPtr .reverse 0 "2.0.192.in-addr.arpa" "\x7bip\x7d-\x7bip\x7d.lan" false =
        .ok "\x7bip\x7d-\x7bip\x7d.lan.".toList ∧
      expand "\x7bip\x7d-\x7bip\x7d.lan." (.v6 0x20010db8111122223333444455556666) =
        "2001-db8-1111-2222-3333-4444-5555-6666-2001-db8-1111-2222-3333-4444-5555-6666.lan".toList ∧
      validateName (expand "\x7bip\x7d-\x7bip\x7d.lan." (.v6 0x20010db8111122223333444455556666)) false ≠ .ok () := by
  refine ⟨by decide, Eq.trans ?_ String.toList_ofList.symm, by decide⟩
  decide

theorem expand_valid_ip : validateName (expand "ip-\x7bip\x7d.lan." (.v6 0x20010db8111122223333444455556666)) false = .ok () :=
  (expand_valid_iff (show checkAutoPtr .reverse 0 "2.0.192.in-addr.arpa" "ip-\x7bip\x7d.lan" false =
    .ok "ip-\x7bip\x7d.lan.".toList by decide) (.v6 0x20010db8111122223333444455556666)).mpr
      (by unfold HasRoom; decide)

end DaygleDns.Authoritative
