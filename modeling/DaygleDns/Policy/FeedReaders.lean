import DaygleDns.Authoritative.RpzCompile
import DaygleDns.Authoritative.ZoneFileFacts
import DaygleDns.Policy.RpzFeed

/-! Response policy zones for their two readers: the one takes the text as a list of names, the other as a zone file. -/
namespace DaygleDns.Policy

open Text Fallible
open Authoritative (LocalRecord RdataReader RecordInput Unnested ZoneFileState cnameOf joinLines joinLines_unnested
  localRecord parseEntry parseLine parseLine_record parseLines parseRecord parseZoneFile resolveOwner splitFirst splitOwner
  stripComment takeClass takeTtl toUpper_eq_dollar)

/-! Words. -/

theorem words_break {c : Char} (hc : isWhitespace c = true) (a b : Text) : words (a ++ c :: b) = words a ++ words b := by
  unfold words
  rw [List.splitOnP_append_cons a b hc, List.filter_append]

theorem words_solid {word : Text} (h : Solid word) (hne : word ≠ []) : words word = [word] := by
  unfold words
  rw [List.splitOnP_eq_singleton h]
  simp [hne]

theorem words_blank_append {a : Text} (h : Blank a) (b : Text) : words (a ++ b) = words b := by
  induction a with
  | nil => rfl
  | cons c a ih =>
    have hfirst := words_break (h c List.mem_cons_self) [] (a ++ b)
    rw [List.cons_append]
    exact hfirst.trans (ih fun d hd => h d (List.mem_cons_of_mem _ hd))

theorem words_blank {s : Text} (h : Blank s) : words s = [] := by
  have happend := words_blank_append h []
  rwa [List.append_nil] at happend

theorem words_trimStart (s : Text) : words (trimStart s) = words s := by
  obtain ⟨hblank, hnil⟩ | ⟨a, hblank, hs, -⟩ := trimStart_cases s
  · rw [hnil, words_blank hblank]
    rfl
  · conv => rhs; rw [hs, words_blank_append hblank]

theorem words_append_blank (a : Text) {b : Text} (h : Blank b) : words (a ++ b) = words a := by
  cases b with
  | nil => rw [List.append_nil]
  | cons c b =>
    rw [words_break (h c List.mem_cons_self), words_blank fun d hd => h d (List.mem_cons_of_mem _ hd), List.append_nil]

theorem words_trimEnd (s : Text) : words (trimEnd s) = words s := by
  have hblank : Blank (s.rtakeWhile isWhitespace) := fun c hc => List.mem_rtakeWhile_imp hc
  have happend := words_append_blank (trimEnd s) hblank
  rw [trimEnd, List.rdropWhile_append_rtakeWhile] at happend
  exact happend.symm

theorem ne_nil_of_words {s word : Text} (h : word ∈ words s) : word ≠ [] := by
  have hfilter := (List.mem_filter.mp h).2
  simpa using hfilter

/-- A text is a word, or a word with a blank and the rest. -/
theorem word_cases (s : Text) :
    ∃ word, Solid word ∧ (s = word ∨ ∃ c rest, isWhitespace c = true ∧ s = word ++ c :: rest) := by
  induction s with
  | nil => exact ⟨[], nofun, .inl rfl⟩
  | cons c s ih =>
    cases hc : isWhitespace c with
    | true => exact ⟨[], nofun, .inr ⟨c, s, hc, rfl⟩⟩
    | false =>
      obtain ⟨word, hsolid, hs⟩ := ih
      have hword : Solid (c :: word) := by
        intro d hd
        exact (List.mem_cons.mp hd).elim (fun h => h ▸ hc) (hsolid d)
      obtain rfl | ⟨d, rest, hd, rfl⟩ := hs
      · exact ⟨_, hword, .inl rfl⟩
      · exact ⟨_, hword, .inr ⟨d, rest, hd, rfl⟩⟩

/-- The first word of a text that begins with one. -/
theorem flush_word {s : Text} (h : Flush s) : ∃ word, Solid word ∧ word ≠ [] ∧
    (s = word ∧ words s = [word] ∨
      ∃ c rest, isWhitespace c = true ∧ s = word ++ c :: rest ∧ words s = word :: words rest) := by
  obtain ⟨word, hsolid, hs⟩ := word_cases s
  have hne : word ≠ [] := by
    rintro rfl
    obtain ⟨d, tail, hflush, hd⟩ := h
    obtain rfl | ⟨c, rest, hc, rfl⟩ := hs
    · cases hflush
    · cases hflush
      rw [hc] at hd
      cases hd
  refine ⟨word, hsolid, hne, ?_⟩
  obtain rfl | ⟨c, rest, hc, rfl⟩ := hs
  · exact .inl ⟨rfl, words_solid hsolid hne⟩
  · exact .inr ⟨c, rest, hc, rfl, by rw [words_break hc, words_solid hsolid hne]; rfl⟩

theorem head?_word {s first : Text} {rest : List Text} (h : Flush s) (hwords : words s = first :: rest) :
    s.head? = first.head? := by
  obtain ⟨word, -, hne, ⟨hs, hone⟩ | ⟨c, tail, -, hs, hcons⟩⟩ := flush_word h
  · rw [hone] at hwords
    rw [hs, (List.cons.inj hwords).1]
  · rw [hcons] at hwords
    obtain ⟨d, more, rfl⟩ := List.exists_cons_of_ne_nil hne
    rw [hs, ← (List.cons.inj hwords).1]
    rfl

theorem words_eq_nil {s : Text} : words s = [] ↔ Blank s := by
  refine ⟨fun h => ?_, words_blank⟩
  obtain ⟨hblank, -⟩ | ⟨a, -, -, hflush⟩ := trimStart_cases s
  · exact hblank
  · rw [← words_trimStart] at h
    obtain ⟨word, -, -, ⟨-, hwords⟩ | ⟨c, rest, -, -, hwords⟩⟩ := flush_word hflush <;> rw [hwords] at h <;> cases h

/-- A text of one word is that word. -/
theorem trim_of_words {s word : Text} (h : words s = [word]) : trim s = word := by
  obtain ⟨hblank, -⟩ | ⟨a, -, -, hflush⟩ := trimStart_cases s
  · rw [words_blank hblank] at h
    cases h
  · rw [← words_trimStart] at h
    unfold trim
    obtain ⟨found, hsolid, -, ⟨hs, hwords⟩ | ⟨c, rest, hc, hs, hwords⟩⟩ := flush_word hflush
    · rw [hwords] at h
      cases h
      rw [hs, hsolid.trimEnd]
    · rw [hwords] at h
      obtain ⟨rfl, hrest⟩ := List.cons.inj h
      have hblank : Blank (c :: rest) := by
        intro d hd
        exact (List.mem_cons.mp hd).elim (fun h => h ▸ hc) (words_eq_nil.mp hrest d)
      rw [hs, trimEnd_append_blank _ hblank, hsolid.trimEnd]

/-- The first of several words. -/
theorem splitOnce_words {s first second : Text} {more : List Text} (h : Flush s) (hwords : words s = first :: second :: more) :
    ∃ c rest, isWhitespace c = true ∧ Solid first ∧ s = first ++ c :: rest ∧ words rest = second :: more := by
  obtain ⟨word, hsolid, -, ⟨-, hone⟩ | ⟨c, rest, hc, hs, hcons⟩⟩ := flush_word h
  · rw [hone] at hwords
    cases hwords
  · rw [hcons] at hwords
    obtain ⟨rfl, hrest⟩ := List.cons.inj hwords
    exact ⟨c, rest, hc, hsolid, hs, hrest⟩

/-! A zone file's line by its words. -/

theorem splitFirst_cases (s : Text) :
    Blank s ∧ splitFirst s = (none, []) ∨ ∃ first rest, splitFirst s = (some first, rest) ∧
      words s = first :: words rest ∧ trimStart rest = rest := by
  unfold splitFirst
  dsimp only
  obtain ⟨hblank, hnil⟩ | ⟨a, -, -, hflush⟩ := trimStart_cases s
  · rw [hnil]
    exact .inl ⟨hblank, rfl⟩
  · right
    rw [← words_trimStart s]
    obtain ⟨word, hsolid, hne, ⟨hs, hwords⟩ | ⟨c, rest, hc, hs, hwords⟩⟩ := flush_word hflush
    · rw [hwords, hs, splitOnceWhitespace_solid hsolid]
      refine ⟨word, [], ?_, rfl, rfl⟩
      cases word with
      | nil => exact absurd rfl hne
      | cons c word => rfl
    · rw [hwords, hs, splitOnceWhitespace_word hsolid hc]
      exact ⟨word, trimStart rest, rfl, by rw [words_trimStart], List.dropWhile_idempotent _ _⟩

/-- The words without the first, where that is one of these. -/
def skipOne (p : Text → Bool) : List Text → List Text
  | [] => []
  | first :: rest => if p first then rest else first :: rest

/-- A text without its first word, where that is one of these. -/
def skipWord (p : Text → Bool) (s : Text) : Text :=
  match splitFirst s with
  | (some first, rest) => if p first then rest else s
  | (none, _) => s

theorem words_skipWord (p : Text → Bool) (s : Text) : words (skipWord p s) = skipOne p (words s) := by
  unfold skipWord
  obtain ⟨hblank, hsplit⟩ | ⟨first, rest, hsplit, hwords, -⟩ := splitFirst_cases s
  · rw [hsplit, words_blank hblank]
    rfl
  · rw [hsplit, hwords]
    dsimp only [skipOne]
    split
    · rfl
    · exact hwords

theorem trimStart_skipWord (p : Text → Bool) {s : Text} (h : trimStart s = s) :
    trimStart (skipWord p s) = skipWord p s := by
  unfold skipWord
  obtain ⟨-, hsplit⟩ | ⟨first, rest, hsplit, -, hrest⟩ := splitFirst_cases s
  · rw [hsplit]
    exact h
  · rw [hsplit]
    dsimp only
    split
    · exact hrest
    · exact h

def isNumber (field : Text) : Bool := field.all Char.isDigit

def isClassName (field : Text) : Bool := Authoritative.classNames.contains (toAsciiUppercase field)

theorem takeTtl_skipWord (defaultTtl : UInt32) (s : Text) :
    (takeTtl defaultTtl s).2 = skipWord isNumber s := by
  unfold takeTtl skipWord isNumber
  obtain ⟨-, hsplit⟩ | ⟨first, rest, hsplit, -, -⟩ := splitFirst_cases s
  · simp only [hsplit]
  · simp only [hsplit]
    split <;> rfl

theorem takeClass_skipWord (s : Text) : takeClass s = skipWord isClassName s := by
  unfold takeClass skipWord isClassName
  obtain ⟨-, hsplit⟩ | ⟨first, rest, hsplit, -, -⟩ := splitFirst_cases s
  · simp only [hsplit]
  · simp only [hsplit, List.contains_iff_mem]

/-- What stands behind the owner, by its words. -/
theorem parseEntry_words {state : ZoneFileState} {line owner s rtype target : Text} {more : List Text}
    (h : trimStart s = s) (hwords : skipOne isClassName (skipOne isNumber (words s)) = rtype :: target :: more) :
    ∃ ttl content, parseEntry state line owner s =
        .ok { name := owner, rtype := toAsciiUppercase rtype, content := content, ttl := ttl } ∧
      (more = [] → content = target) := by
  have hentry : words (skipWord isClassName (skipWord isNumber s)) = rtype :: target :: more := by
    rw [words_skipWord, words_skipWord, hwords]
  have hflush : Flush (skipWord isClassName (skipWord isNumber s)) := by
    have hstart := trimStart_skipWord isClassName (trimStart_skipWord isNumber h)
    obtain ⟨hblank, -⟩ | ⟨a, -, -, hflush⟩ := trimStart_cases (skipWord isClassName (skipWord isNumber s))
    · rw [words_blank hblank] at hentry
      cases hentry
    · rwa [hstart] at hflush
  obtain ⟨c, rest, hc, hsolid, hs, hrest⟩ := splitOnce_words hflush hentry
  refine ⟨(takeTtl state.defaultTtl s).1, trim rest, ?_, ?_⟩
  · have htaken : takeTtl state.defaultTtl s =
        ((takeTtl state.defaultTtl s).1, skipWord isNumber s) := Prod.ext rfl (takeTtl_skipWord _ s)
    unfold parseEntry
    rw [htaken]
    dsimp only
    rw [takeClass_skipWord, hs, splitOnceWhitespace_word hsolid hc]
    dsimp only
    rw [hsolid.trim]
  · rintro rfl
    exact trim_of_words hrest

/-! Lines that both readers of a response policy zone take alike. -/

/-- Whether the origin is known to be that of the zone: to the reader of lists, and to that of zone files. -/
structure Origins where
  feed : Bool
  file : Bool

namespace Origins

def feedOrigin (zone : Text) (known : Origins) : Option Text := if known.feed then some (zone ++ ['.']) else none

def fileOrigin (zone : Text) (known : Origins) : Text := if known.file then zone else []

/-- The SOA record of the zone tells the reader of lists its origin. -/
def after (zone : Text) (known : Origins) (owner rtype : Text) : Origins :=
  if toAsciiUppercase rtype = "SOA".toList ∧ toAsciiLowercase owner = zone ++ ['.'] then { known with feed := true } else known

end Origins

/-- An owner with the trigger that it stands for: the apex, a name under the zone, or one that is relative to it. -/
inductive PlainOwner (zone : Text) (known : Origins) : Text → Option Text → Prop where
  | apex (hfile : known.file = true) : PlainOwner zone known ['@'] none
  | zone {owner : Text} (howner : toAsciiLowercase owner = zone ++ ['.']) : PlainOwner zone known owner none
  | absolute {owner lead : Text} (hfeed : known.feed = true) (howner : toAsciiLowercase owner = lead ++ '.' :: zone ++ ['.']) :
      PlainOwner zone known owner (some lead)
  | relative {owner : Text} (hat : toAsciiLowercase owner ≠ ['@']) (hne : owner ≠ []) (hlast : owner.getLast? ≠ some '.')
      (hzone : toAsciiLowercase owner ≠ zone) (hunder : stripSuffix ('.' :: zone) (toAsciiLowercase owner) = none) :
      PlainOwner zone known owner (some (toAsciiLowercase owner))

/-- The name that a CNAME leads to, with its dot at the end and no escapes. -/
structure PlainTarget (target : Text) : Prop where
  last : target.getLast? = some '.'
  chars : ∀ c ∈ target, c.isAlphanum = true ∨ c ∈ ['-', '_', '*', '.']

def isClass (field : Text) : Bool := ["IN".toList, "CH".toList, "HS".toList].contains (toAsciiUppercase field)

/-- The fields of a record: at most a TTL and then a class, the name of a type and its data. -/
structure PlainFields (fields : List Text) (rtype target : Text) (more : List Text) : Prop where
  entry : skipOne isClass (skipOne isNumber fields) = rtype :: target :: more
  noClass : ttlOrClass rtype = false ∧ isClassName rtype = false
  mnemonic : "TYPE".toList.isPrefixOf (toAsciiUppercase rtype) = false
  aliased : toAsciiUppercase rtype = "CNAME".toList → more = [] ∧ PlainTarget target

def beforeComment (raw : Text) : Text := raw.takeWhile (· != ';')

/-- A line with a word at its start, and neither quotes nor parentheses. -/
structure PlainText (line : Text) : Prop where
  flush : Flush line
  chars : ∀ c ∈ line, c ≠ '"' ∧ c ≠ '(' ∧ c ≠ ')'

/-- A blank line, a directive or a record, between what is known of the origins before it and after. -/
inductive PlainLine (zone : Text) (known : Origins) (raw : Text) : Origins → Prop where
  | blank (hblank : Blank (beforeComment raw)) : PlainLine zone known raw known
  | ttl {name ttl : Text} (hplain : PlainText (beforeComment raw)) (hwords : words (beforeComment raw) = [name, ttl])
      (hname : toAsciiUppercase name = "$TTL".toList) (hnumber : isNumber ttl = true) (hsmall : (parseU32 ttl).isSome = true) :
      PlainLine zone known raw known
  | origin {name origin : Text} (hplain : PlainText (beforeComment raw)) (hwords : words (beforeComment raw) = [name, origin])
      (hname : toAsciiUppercase name = "$ORIGIN".toList) (horigin : toAsciiLowercase origin = zone ++ ['.']) :
      PlainLine zone known raw ⟨true, true⟩
  | record {owner rtype target : Text} {fields more : List Text} {trigger : Option Text}
      (hplain : PlainText (beforeComment raw)) (hwords : words (beforeComment raw) = owner :: fields)
      (hdirective : owner.head? ≠ some '$') (howner : PlainOwner zone known owner trigger)
      (hfields : PlainFields fields rtype target more) : PlainLine zone known raw (known.after zone owner rtype)

theorem Origins.after_other {zone owner rtype : Text} {known : Origins} (h : toAsciiUppercase rtype ≠ "SOA".toList) :
    known.after zone owner rtype = known := if_neg fun hsoa => h hsoa.1

/-- A record that is no SOA record tells no origin. -/
theorem PlainLine.other {zone raw owner rtype target : Text} {known : Origins} {fields more : List Text} {trigger : Option Text}
    (hplain : PlainText (beforeComment raw)) (hwords : words (beforeComment raw) = owner :: fields)
    (hdirective : owner.head? ≠ some '$') (howner : PlainOwner zone known owner trigger)
    (hfields : PlainFields fields rtype target more) (h : toAsciiUppercase rtype ≠ "SOA".toList) :
    PlainLine zone known raw known := by
  have hline := PlainLine.record hplain hwords hdirective howner hfields
  rwa [Origins.after_other h] at hline

inductive PlainLines (zone : Text) : Origins → List Text → Prop where
  | nil (known : Origins) : PlainLines zone known []
  | cons {known next : Origins} {raw : Text} {rest : List Text} (line : PlainLine zone known raw next)
      (others : PlainLines zone next rest) : PlainLines zone known (raw :: rest)

def lowerZone (zone : Text) : Text := toAsciiLowercase (trimEndMatches '.' zone)

/-- A response policy zone under one origin, with a record on each line. -/
structure PlainFeed (zone text : Text) : Prop where
  named : lowerZone zone ≠ []
  lines : PlainLines (lowerZone zone) ⟨false, false⟩ (lines text)

/-! Where an owner is placed. -/

/-- The trigger of an owner under the zone. -/
def placeUnder (zone owner : Text) : Option Text :=
  let owner := toAsciiLowercase (trimEndMatches '.' owner)
  if owner = zone ∨ owner = [] ∨ owner = "@".toList then none else some ((stripSuffix ('.' :: zone) owner).getD owner)

structure ZoneName (zone : Text) : Prop where
  nonempty : zone ≠ []
  lower : toAsciiLowercase zone = zone
  last : zone.getLast? ≠ some '.'

theorem zoneName_lowerZone {zone : Text} (h : lowerZone zone ≠ []) : ZoneName (lowerZone zone) := by
  refine ⟨h, toAsciiLowercase_idem _, ?_⟩
  rw [lowerZone, Ne, getLast?_toAsciiLowercase]
  exact getLast?_trimEndMatches '.' zone

section Placed

variable {zone owner : Text} {known : Origins} {trigger : Option Text}

theorem ZoneName.trimDot (h : ZoneName zone) : trimEndMatches '.' (zone ++ ['.']) = zone := by
  rw [trimEndMatches_concat, trimEndMatches_of_last h.last]

theorem ZoneName.last_under (h : ZoneName zone) (lead : Text) : (lead ++ '.' :: zone).getLast? ≠ some '.' := by
  have hlast : (lead ++ '.' :: zone).getLast? = zone.getLast? := by
    obtain ⟨c, tail, rfl⟩ := List.exists_cons_of_ne_nil h.nonempty
    rw [List.getLast?_append_of_ne_nil _ (List.cons_ne_nil _ _), List.getLast?_cons_cons]
  rw [hlast]
  exact h.last

/-- A name under the zone is placed at what is before the zone. -/
theorem ZoneName.placeUnder_lead (h : ZoneName zone) (lead : Text) :
    placeUnder zone (lead ++ '.' :: zone) = some (toAsciiLowercase lead) := by
  have hdot : toAsciiLowercase ('.' :: zone) = '.' :: zone := by
    change '.' :: toAsciiLowercase zone = _
    rw [h.lower]
  unfold placeUnder
  rw [trimEndMatches_of_last (h.last_under lead), toAsciiLowercase_append, hdot]
  dsimp only
  rw [if_neg, stripSuffix_append]
  · rfl
  rintro (hzone | hnil | hat)
  · have hlength := congrArg List.length hzone
    simp at hlength
    omega
  · simp at hnil
  · have hmem : '.' ∈ "@".toList := hat ▸ List.mem_append_right _ List.mem_cons_self
    exact absurd hmem (by decide)

theorem relativeOwner_plain (hzone : ZoneName zone) (h : PlainOwner zone known owner trigger) (hat : owner ≠ ['@']) :
    relativeOwner (known.feedOrigin zone) (toAsciiLowercase owner) = trigger := by
  unfold relativeOwner Origins.feedOrigin
  cases h with
  | apex => exact absurd rfl hat
  | zone howner =>
    rw [howner, stripSuffix_append]
    cases known.feed with
    | false => rfl
    | true =>
      rw [if_pos rfl]
      dsimp only
      rw [hzone.trimDot, if_pos rfl]
  | @absolute _ lead hfeed howner =>
    have hne : lead ++ '.' :: zone ≠ zone := by
      intro hsame
      have hlength := congrArg List.length hsame
      rw [List.length_append, List.length_cons] at hlength
      omega
    rw [howner, stripSuffix_append, hfeed, if_pos rfl]
    dsimp only
    rw [hzone.trimDot, if_neg hne, stripSuffix_append]
  | relative _ _ hlast =>
    have hnone : stripSuffix ['.'] (toAsciiLowercase owner) = none := by
      cases hstrip : stripSuffix ['.'] (toAsciiLowercase owner) with
      | none => rfl
      | some lead =>
        refine absurd ((getLast?_toAsciiLowercase owner).mp ?_) hlast
        rw [stripSuffix_eq_some.mp hstrip, List.getLast?_concat]
    rw [hnone]

theorem resolveOwner_ended {origin : Text} (h : owner.getLast? = some '.') :
    resolveOwner owner origin = .ok (trimEndMatches '.' (toAsciiLowercase owner)) := by
  have hat : owner ≠ ['@'] := by
    rintro rfl
    cases h
  unfold resolveOwner
  rw [if_neg hat, if_pos (List.mem_of_getLast? h), if_pos h]
  exact congrArg Except.ok (rdropWhile_lower isDot_toLower owner).symm

theorem resolveOwner_plain (hzone : ZoneName zone) (h : PlainOwner zone known owner trigger) :
    ∃ resolved, resolveOwner owner (known.fileOrigin zone) = .ok resolved ∧ placeUnder zone resolved = trigger := by
  have happex : placeUnder zone zone = none := by
    unfold placeUnder
    rw [trimEndMatches_of_last hzone.last, hzone.lower]
    exact if_pos (.inl rfl)
  cases h with
  | apex hfile =>
    refine ⟨zone, ?_, happex⟩
    unfold resolveOwner Origins.fileOrigin
    rw [hfile]
    simp [hzone.nonempty]
  | zone howner =>
    refine ⟨_, resolveOwner_ended ((getLast?_toAsciiLowercase owner).mp (by rw [howner, List.getLast?_concat])), ?_⟩
    rw [howner, hzone.trimDot]
    exact happex
  | @absolute _ lead hfeed howner =>
    have hlead : toAsciiLowercase lead = lead := by
      have hlower := toAsciiLowercase_idem owner
      rw [howner] at hlower
      simp only [toAsciiLowercase_append, List.append_assoc] at hlower
      exact (List.append_inj hlower (by simp [toAsciiLowercase])).1
    refine ⟨_, resolveOwner_ended ((getLast?_toAsciiLowercase owner).mp (by rw [howner, List.getLast?_concat])), ?_⟩
    rw [howner, trimEndMatches_concat, trimEndMatches_of_last (hzone.last_under lead), hzone.placeUnder_lead, hlead]
  | relative hat hne hlast hzone' hunder =>
    have hself : placeUnder zone (toAsciiLowercase owner) = some (toAsciiLowercase owner) := by
      have hlast' : (toAsciiLowercase owner).getLast? ≠ some '.' := fun h => hlast ((getLast?_toAsciiLowercase owner).mp h)
      unfold placeUnder
      rw [trimEndMatches_of_last hlast', toAsciiLowercase_idem]
      dsimp only
      rw [if_neg, hunder]
      · rfl
      rintro (hsame | hnil | hsign)
      · exact hzone' hsame
      · exact hne (List.map_eq_nil_iff.mp hnil)
      · exact hat hsign
    have hplain : owner ≠ ['@'] := by
      rintro rfl
      exact hat rfl
    unfold resolveOwner
    rw [if_neg hplain, if_neg hlast]
    unfold Origins.fileOrigin
    cases known.file with
    | false =>
      refine ⟨_, ?_, hself⟩
      simp
    | true =>
      simp only [if_true, List.isEmpty_iff, hzone.nonempty]
      split
      · split
        · exact ⟨_, rfl, hzone.placeUnder_lead owner⟩
        · exact ⟨_, rfl, hself⟩
      · simp only [if_false]
        exact ⟨_, rfl, hzone.placeUnder_lead owner⟩

end Placed

/-! The reader of lists. -/

theorem dropWhile_skipOne {p q : Text → Bool} {fields : List Text} (h : ∀ field ∈ fields, q field = true → p field = true) :
    (skipOne q fields).dropWhile p = fields.dropWhile p := by
  cases fields with
  | nil => rfl
  | cons first rest =>
    rw [skipOne]
    split
    next hq => rw [List.dropWhile_cons_of_pos (h first List.mem_cons_self hq)]
    next => rfl

/-- The reader of lists takes the fields alike. -/
theorem PlainFields.dropWhile {fields : List Text} {rtype target : Text} {more : List Text}
    (h : PlainFields fields rtype target more) (hne : ∀ field ∈ fields, field ≠ []) :
    fields.dropWhile ttlOrClass = rtype :: target :: more := by
  have hnumber : ∀ field ∈ fields, isNumber field = true → ttlOrClass field = true := by
    intro field hfield hdigits
    obtain ⟨c, tail, rfl⟩ := List.exists_cons_of_ne_nil (hne field hfield)
    have hc : c.isDigit = true := List.all_eq_true.mp hdigits c List.mem_cons_self
    simp [ttlOrClass, hc]
  have hclass : ∀ field ∈ skipOne isNumber fields, isClass field = true → ttlOrClass field = true := by
    intro field _ hclass
    simp only [isClass, List.contains_iff_mem, List.mem_cons, List.not_mem_nil, or_false] at hclass
    simp only [ttlOrClass, Bool.or_eq_true, List.contains_iff_mem, List.mem_cons]
    exact .inr (hclass.imp_right fun h => h.imp_right .inl)
  rw [← dropWhile_skipOne hnumber, ← dropWhile_skipOne hclass, h.entry]
  exact List.dropWhile_cons_of_neg (by simp [h.noClass.1])

/-- The reader of zone files takes the fields alike. -/
theorem PlainFields.skipped {fields : List Text} {rtype target : Text} {more : List Text}
    (h : PlainFields fields rtype target more) : skipOne isClassName (skipOne isNumber fields) = rtype :: target :: more := by
  have hentry := h.entry
  cases hfields : skipOne isNumber fields with
  | nil =>
    rw [hfields] at hentry
    cases hentry
  | cons first rest =>
    rw [hfields, skipOne] at hentry
    rw [skipOne]
    split at hentry
    next hclass =>
      have hname : isClassName first = true := by
        simp only [isClass, List.contains_iff_mem, List.mem_cons, List.not_mem_nil, or_false] at hclass
        simp only [isClassName, Authoritative.classNames, List.contains_iff_mem, List.mem_cons]
        exact hclass.imp_right fun h => h.imp_right .inl
      rw [if_pos hname, hentry]
    next =>
      obtain ⟨rfl, -⟩ := List.cons.inj hentry
      rw [if_neg (by simp [h.noClass.2]), hentry]

section Feed

variable {zone owner rtype target : Text} {known : Origins} {trigger : Option Text} {fields more : List Text}

/-- What the reader of lists makes of a record. -/
def feedRecord (rtype target : Text) (trigger : Option Text) : Option RpzRecord :=
  if toAsciiUppercase rtype = "SOA".toList ∨ toAsciiUppercase rtype = "NS".toList then none
  else trigger.map fun name => ⟨name, toAsciiUppercase rtype, some (toAsciiLowercase target)⟩

theorem PlainOwner.soa_origin (h : PlainOwner zone known owner trigger)
    (hsoa : toAsciiUppercase rtype = "SOA".toList) :
    (if (known.feedOrigin zone).isNone && endsWith ['.'] (toAsciiLowercase owner) then some (toAsciiLowercase owner)
      else known.feedOrigin zone) = (known.after zone owner rtype).feedOrigin zone := by
  have hends : endsWith ['.'] (toAsciiLowercase owner) = true ↔ owner.getLast? = some '.' := by
    rw [← getLast?_toAsciiLowercase, List.getLast?_eq_some_iff, endsWith, List.isSuffixOf_iff_suffix]
    exact exists_congr fun lead => eq_comm
  have hafter : known.after zone owner rtype =
      if toAsciiLowercase owner = zone ++ ['.'] then { known with feed := true } else known := by
    unfold Origins.after
    rw [hsoa]
    simp only [true_and]
  rw [hafter]
  unfold Origins.feedOrigin
  cases hfeed : known.feed with
  | true =>
    have hstill : (if toAsciiLowercase owner = zone ++ ['.'] then { known with feed := true } else known).feed = true := by
      split
      · rfl
      · exact hfeed
    simp [hstill]
  | false =>
    have hother : owner.getLast? ≠ some '.' → toAsciiLowercase owner ≠ zone ++ ['.'] := by
      intro hlast hsame
      exact hlast ((getLast?_toAsciiLowercase owner).mp (by rw [hsame, List.getLast?_concat]))
    cases h with
    | apex => simp [hends, hother (by decide), hfeed]
    | zone howner => simp [howner, endsWith]
    | absolute hknown =>
      rw [hfeed] at hknown
      cases hknown
    | relative _ _ hlast => simp [hends, hother hlast, hlast, hfeed]

theorem readTrigger_plain (hzone : ZoneName zone) (howner : PlainOwner zone known owner trigger)
    (hdirective : owner.head? ≠ some '$') (hfields : fields.dropWhile ttlOrClass = rtype :: target :: more) :
    readTrigger (known.feedOrigin zone) owner fields =
      ((known.after zone owner rtype).feedOrigin zone, feedRecord rtype target trigger) := by
  have hname : owner ≠ "$ORIGIN".toList := by
    rintro rfl
    exact hdirective rfl
  unfold readTrigger feedRecord
  rw [if_neg hname, if_neg hdirective, hfields]
  dsimp only
  by_cases hsoa : toAsciiUppercase rtype = "SOA".toList
  · rw [if_pos hsoa, howner.soa_origin hsoa, if_pos (.inl hsoa)]
  · rw [if_neg hsoa, Origins.after_other hsoa]
    by_cases hns : toAsciiUppercase rtype = "NS".toList
    · rw [if_pos (.inl hns), if_pos (.inr hns)]
    · rw [if_neg (not_or.mpr ⟨hsoa, hns⟩)]
      by_cases hat : toAsciiLowercase owner = "@".toList
      · rw [if_pos (.inr hat)]
        have hnone : trigger = none := by
          cases howner with
          | apex => rfl
          | zone => rfl
          | absolute _ h =>
            have hlength := congrArg List.length (h.symm.trans hat)
            simp at hlength
            omega
          | relative hother => exact absurd hat hother
        rw [hnone]
        rfl
      · have hplain : owner ≠ ['@'] := by
          rintro rfl
          exact hat rfl
        rw [if_neg (not_or.mpr ⟨hns, hat⟩), relativeOwner_plain hzone howner hplain]
        rfl

end Feed

/-- The triggers of the records that are left. -/
def triggersFrom : Option Text → List (Text × List Text) → List RpzRecord
  | _, [] => []
  | origin, item :: rest =>
      (readTrigger origin item.1 item.2).2.toList ++ triggersFrom (readTrigger origin item.1 item.2).1 rest

theorem rpzRecords_eq (text : Text) : rpzRecords text = triggersFrom none (zoneRecords text) := by
  have hfold : ∀ (items : List (Text × List Text)) (origin : Option Text) (read : List RpzRecord),
      (items.foldl (fun read record =>
        let placed := readTrigger read.1 record.1 record.2
        (placed.1, read.2 ++ placed.2.toList)) (origin, read)).2 = read ++ triggersFrom origin items := by
    intro items
    induction items with
    | nil => exact fun _ read => (List.append_nil read).symm
    | cons item items ih =>
      intro origin read
      rw [List.foldl_cons, triggersFrom, ← List.append_assoc]
      exact ih _ _
  exact (hfold (zoneRecords text) none []).trans (List.nil_append _)

theorem readLine_unnested {reading : ZoneReading} (hpending : reading.pending = none) (hdepth : reading.depth = 0) {raw : Text}
    (h : Unnested (beforeComment raw)) :
    readLine reading raw = if (words (beforeComment raw)).isEmpty then reading else
      reading.record ((beforeComment raw).head? == some ' ' || (beforeComment raw).head? == some '\t')
        (words (beforeComment raw)) := by
  have hmap : ((beforeComment raw).map fun c => if c == '(' || c == ')' then ' ' else c) = beforeComment raw := by
    refine (List.map_congr_left fun c hc => ?_).trans (List.map_id _)
    simp [h c hc]
  have hopen : (beforeComment raw).count '(' = 0 := List.count_eq_zero.mpr fun hmem => (h _ hmem).1 rfl
  have hclose : (beforeComment raw).count ')' = 0 := List.count_eq_zero.mpr fun hmem => (h _ hmem).2 rfl
  obtain ⟨records, owner, pending, depth⟩ := reading
  dsimp only at hpending hdepth
  subst hpending hdepth
  unfold readLine
  rw [show raw.takeWhile (· != ';') = beforeComment raw from rfl]
  dsimp only
  rw [hmap, hopen, hclose]
  simp

/-! The reader of zone files. -/

theorem stripComment_plain {raw : Text} (h : ∀ c ∈ beforeComment raw, c ≠ '"') :
    stripComment false raw = beforeComment raw := by
  unfold beforeComment at h ⊢
  induction raw with
  | nil => rfl
  | cons c raw ih =>
    by_cases hc : c = ';'
    · rw [hc]
      rfl
    · have hkept : (c :: raw).takeWhile (· != ';') = c :: raw.takeWhile (· != ';') :=
        List.takeWhile_cons_of_pos (by simpa using hc)
      rw [hkept] at h ⊢
      rw [stripComment, if_neg (h c List.mem_cons_self), if_neg fun hsemi => hc hsemi.1,
        ih fun d hd => h d (List.mem_cons_of_mem _ hd)]

theorem head?_directive {name word : Text} (h : toAsciiUppercase name = '$' :: word) : name.head? = some '$' := by
  cases name with
  | nil => cases h
  | cons c tail => rw [List.head?_cons, toUpper_eq_dollar (List.cons.inj h).1]

/-- A directive with its argument. -/
theorem directive_words {line name given : Text} {word : Text} (h : Flush line) (hwords : words line = [name, given])
    (hname : toAsciiUppercase name = '$' :: word) :
    trimStart (trimEnd line) = trimEnd line ∧ (trim (trimEnd line)).isEmpty = false ∧ (trimEnd line).head? ≠ some ';' ∧
      ∃ rest, toAsciiUppercase (trimEnd line) = '$' :: word ++ rest ∧ trim rest = toAsciiUppercase given := by
  have hflush := h.trimEnd
  have hsplit := splitOnce_words hflush ((words_trimEnd line).trans hwords)
  obtain ⟨c, rest, hc, -, hline, hrest⟩ := hsplit
  refine ⟨trimStart_of_flush hflush, ?_, ?_, toAsciiUppercase (c :: rest), ?_, ?_⟩
  · have hne : trim (trimEnd line) ≠ [] := fun hnil => not_blank_of_flush hflush (trim_eq_nil.mp hnil)
    simpa using hne
  · have hdollar := head?_directive hname
    rw [hline, List.head?_append, hdollar]
    simp
  · rw [hline, toAsciiUppercase, List.map_append]
    exact congrArg (· ++ _) hname
  · have hblank : words (c :: rest) = [given] := (words_break hc [] rest).trans hrest
    rw [trim_upper, trim_of_words hblank]

theorem parseLine_setOrigin {line name given : Text} (h : Flush line) (hwords : words line = [name, given])
    (hname : toAsciiUppercase name = "$ORIGIN".toList) (state : ZoneFileState) :
    parseLine state (trimEnd line) =
      .ok ({ state with origin := trimEndMatches '.' (toAsciiLowercase given) }, none) := by
  obtain ⟨hstart, hblank, hcomment, rest, hupper, hrest⟩ := directive_words h hwords hname
  have horigin : stripPrefix ("$ORIGIN" : Text) (toAsciiUppercase (trimEnd line)) = some rest :=
    stripPrefix_eq_some.mpr hupper
  have hgiven : toAsciiLowercase (trimEndMatches '.' (toAsciiUppercase given)) =
      trimEndMatches '.' (toAsciiLowercase given) := by
    rw [← toAsciiLowercase_toAsciiUppercase given]
    exact (rdropWhile_lower isDot_toLower _).symm
  unfold parseLine
  dsimp only
  rw [trimEnd_trimEnd, hstart, hblank, if_neg (by simpa using hcomment), horigin]
  dsimp only
  rw [hrest, hgiven]

theorem parseLine_setTtl {line name given : Text} (h : Flush line) (hwords : words line = [name, given])
    (hname : toAsciiUppercase name = "$TTL".toList) (hnumber : isNumber given = true) (hsmall : (parseU32 given).isSome = true)
    (state : ZoneFileState) :
    ∃ ttl, parseLine state (trimEnd line) = .ok ({ state with defaultTtl := ttl }, none) := by
  obtain ⟨hstart, hblank, hcomment, rest, hupper, hrest⟩ := directive_words h hwords hname
  have horigin : stripPrefix ("$ORIGIN" : Text) (toAsciiUppercase (trimEnd line)) = none := by
    rw [hupper]
    rfl
  have httl : stripPrefix ("$TTL" : Text) (toAsciiUppercase (trimEnd line)) = some rest := stripPrefix_eq_some.mpr hupper
  have hdigits : toAsciiUppercase given = given := by
    refine (List.map_congr_left fun c hc => ?_).trans (List.map_id _)
    have hdigit := isDigit_bounds (List.all_eq_true.mp hnumber c hc)
    apply (toUpper_cases c).resolve_right
    omega
  obtain ⟨ttl, hparsed⟩ := Option.isSome_iff_exists.mp hsmall
  refine ⟨ttl, ?_⟩
  unfold parseLine
  dsimp only
  rw [trimEnd_trimEnd, hstart, hblank, if_neg (by simpa using hcomment), horigin, httl]
  dsimp only
  rw [hrest, hdigits, hparsed]

theorem parseRecord_words {line owner target rtype resolved : Text} {fields more : List Text} (h : Flush line)
    (hwords : words line = owner :: fields) (hfields : PlainFields fields rtype target more)
    {state : ZoneFileState} (hresolved : resolveOwner owner state.origin = .ok resolved) :
    ∃ ttl content, parseRecord state (trimEnd line) = .ok ({ state with lastOwner := resolved },
        some { name := resolved, rtype := toAsciiUppercase rtype, content := content, ttl := ttl }) ∧
      (more = [] → content = target) := by
  have hflush := h.trimEnd
  have htrimmed : words (trimEnd line) = owner :: fields := (words_trimEnd line).trans hwords
  cases hmore : fields with
  | nil =>
    have hentry := hfields.entry
    rw [hmore] at hentry
    cases hentry
  | cons second others =>
    rw [hmore] at htrimmed
    obtain ⟨c, rest, hc, hsolid, hline, hrest⟩ := splitOnce_words hflush htrimmed
    rw [← words_trimStart, ← hmore] at hrest
    have hskipped := hfields.skipped
    rw [← hrest] at hskipped
    obtain ⟨ttl, content, hentry, hcontent⟩ := @parseEntry_words state (trimEnd line) resolved (trimStart rest) rtype target more
      (List.dropWhile_idempotent _ _) hskipped
    refine ⟨ttl, content, ?_, hcontent⟩
    have hhead : (trimEnd line).head?.any isWhitespace = false := by
      obtain ⟨d, tail, htrim, hd⟩ := hflush
      rw [htrim]
      simp [hd]
    have howner : splitOwner (trimEnd line) state.origin state.lastOwner = .ok (resolved, trimStart rest) := by
      unfold splitOwner
      rw [hhead, if_neg Bool.false_ne_true, hline, splitOnceWhitespace_word hsolid hc]
      dsimp only
      rw [hsolid.trim, hresolved]
      rfl
    unfold parseRecord
    rw [howner]
    change (parseEntry state (trimEnd line) resolved (trimStart rest) >>= _) = _
    rw [hentry]
    rfl

/-! What the readers make of the records. -/

/-- What a record does to a client: an exemption, a retry over TCP, or something that keeps it off the name. -/
inductive TriggerUse where
  | passthru
  | tcpOnly
  | other
deriving DecidableEq, Repr

def RpzRecord.use (record : RpzRecord) : TriggerUse :=
  if record.isPassthru then .passthru else if record.isTcpOnly then .tcpOnly else .other

def useOf (record : LocalRecord) : TriggerUse :=
  if cnameOf record = some "rpz-passthru.".toList then .passthru
  else if cnameOf record = some "rpz-tcp-only.".toList then .tcpOnly
  else .other

/-- The trigger that a record is about: none at the apex, and none for SOA and NS records. -/
def triggerOf (zone : Text) (item : Text × LocalRecord) : Option Text :=
  if item.2.rtype = "SOA".toList ∨ item.2.rtype = "NS".toList then none else placeUnder (lowerZone zone) item.1

/-- The trigger of a record, with what it does. -/
def ruleUse (zone : Text) (item : Text × LocalRecord) : Option (Text × TriggerUse) :=
  (triggerOf zone item).map fun trigger => (trigger, useOf item.2)

/-- The names of types stand for themselves, and what a CNAME leads to is read as it is written. -/
structure LawfulReader (reader : RdataReader) : Prop where
  kind : ∀ name rtype, "TYPE".toList.isPrefixOf name = false → reader.recordType name = some rtype →
    ∀ kind ∈ ["CNAME".toList, "SOA".toList, "NS".toList], rtype = kind ↔ name = kind
  target : ∀ target rdata, PlainTarget target → reader.rdata "CNAME".toList target = .ok rdata →
    toAsciiLowercase rdata = toAsciiLowercase target

/-- The entries of the one reader are the triggers of the other. -/
def SameUses (zone : Text) (triggers : List RpzRecord) (entries : List RecordInput) : Prop :=
  ∀ reader, LawfulReader reader → ∀ rules, entries.mapM (localRecord reader) = .ok rules →
    triggers.map (fun record => (record.name, record.use)) = rules.filterMap (ruleUse zone)

theorem sameUses_nil (zone : Text) : SameUses zone [] [] := by
  intro reader _ rules hrules
  cases hrules
  rfl

theorem SameUses.append {zone : Text} {triggers others : List RpzRecord} {entries more : List RecordInput}
    (h : SameUses zone triggers entries) (hothers : SameUses zone others more) :
    SameUses zone (triggers ++ others) (entries ++ more) := by
  intro reader hlawful rules hrules
  rw [List.mapM_append, bind_eq_ok] at hrules
  obtain ⟨first, hfirst, hrest⟩ := hrules
  obtain ⟨second, hsecond, hboth⟩ := bind_eq_ok.mp hrest
  cases hboth
  rw [List.map_append, List.filterMap_append, h reader hlawful first hfirst, hothers reader hlawful second hsecond]

/-- A record that both readers place alike does the same to both. -/
theorem sameUses_record {zone rtype target resolved content : Text} {fields more : List Text} {trigger : Option Text}
    {ttl : UInt32} (hfields : PlainFields fields rtype target more) (hplaced : placeUnder (lowerZone zone) resolved = trigger)
    (hcontent : more = [] → content = target) :
    SameUses zone (feedRecord rtype target trigger).toList
      [{ name := resolved, rtype := toAsciiUppercase rtype, content := content, ttl := ttl }] := by
  intro reader hlawful rules hrules
  obtain ⟨item, hitem, rfl⟩ : ∃ item, localRecord reader
      { name := resolved, rtype := toAsciiUppercase rtype, content := content, ttl := ttl } = .ok item ∧ rules = [item] := by
    cases mapM_eq_ok.mp hrules with
    | cons hitem hnil =>
      cases hnil
      exact ⟨_, hitem, rfl⟩
  unfold localRecord at hitem
  dsimp only at hitem
  split at hitem
  · cases hitem
  next kind hkind =>
    have hnamed := hlawful.kind _ kind hfields.mnemonic hkind
    split at hitem
    · cases hitem
    next rdata hrdata =>
      cases hitem
      have hcname := hnamed "CNAME".toList (by decide)
      have hskipped : (kind = "SOA".toList ∨ kind = "NS".toList) ↔
          toAsciiUppercase rtype = "SOA".toList ∨ toAsciiUppercase rtype = "NS".toList :=
        or_congr (hnamed _ (by decide)) (hnamed _ (by decide))
      unfold feedRecord
      rw [List.filterMap_cons, ruleUse, triggerOf, hplaced]
      by_cases hskip : toAsciiUppercase rtype = "SOA".toList ∨ toAsciiUppercase rtype = "NS".toList
      · rw [if_pos hskip, if_pos (hskipped.mpr hskip)]
        rfl
      rw [if_neg hskip, if_neg fun h => hskip (hskipped.mp h)]
      cases trigger with
      | none => rfl
      | some name =>
        have huse : RpzRecord.use ⟨name, toAsciiUppercase rtype, some (toAsciiLowercase target)⟩ =
            useOf { rtype := kind, ttl := ttl, rdata := rdata } := by
          unfold RpzRecord.use RpzRecord.isPassthru RpzRecord.isTcpOnly useOf cnameOf
          dsimp only
          by_cases halias : toAsciiUppercase rtype = "CNAME".toList
          · have hread : toAsciiLowercase rdata = toAsciiLowercase target := by
              obtain ⟨hnone, htarget⟩ := hfields.aliased halias
              rw [hcname.mpr halias, hcontent hnone] at hrdata
              exact hlawful.target target rdata htarget hrdata
            rw [if_pos (hcname.mpr halias), hread, halias, beq_self_eq_true, Bool.true_and, Bool.true_and]
            simp only [beq_iff_eq]
          · rw [if_neg fun h => halias (hcname.mp h), beq_eq_false_iff_ne.mpr halias]
            rfl
        exact congrArg (fun use => [(name, use)]) huse

/-- What the readers make of a line, between what is known of the origins before it and after. -/
structure LineRead (zone : Text) (known next : Origins) (raw : Text) (items : List (Text × List Text))
    (triggers : List RpzRecord) : Prop where
  feed : ∀ reading : ZoneReading, reading.pending = none → reading.depth = 0 →
    ∃ owner, readLine reading raw = { records := reading.records ++ items, owner := owner, pending := none, depth := 0 }
  triggered : ∀ rest, triggersFrom (known.feedOrigin (lowerZone zone)) (items ++ rest) =
    triggers ++ triggersFrom (next.feedOrigin (lowerZone zone)) rest
  unnested : Unnested (stripComment false raw)
  file : ∀ state : ZoneFileState, state.origin = known.fileOrigin (lowerZone zone) →
    ∃ after entries, after.origin = next.fileOrigin (lowerZone zone) ∧ SameUses zone triggers entries ∧
      ∀ rest, parseLines state (Authoritative.completed (stripComment false raw) ++ rest) =
        (parseLines after rest).map (entries ++ ·)

theorem parseLines_read {state after : ZoneFileState} {line : Text} {entry : Option RecordInput}
    (h : parseLine state line = .ok (after, entry)) (rest : List Text) :
    parseLines state ([line] ++ rest) = (parseLines after rest).map (entry.toList ++ ·) := by
  change (parseLine state line >>= _) = _
  rw [h]
  change (parseLines after rest >>= _) = _
  cases parseLines after rest <;> rfl

theorem PlainText.unnested {line : Text} (h : PlainText line) : Unnested line := fun c hc => (h.chars c hc).2

theorem PlainText.stripped {raw : Text} (h : PlainText (beforeComment raw)) :
    stripComment false raw = beforeComment raw := stripComment_plain fun c hc => (h.chars c hc).1

/-- A line of words is taken as a record by the reader of lists, a directive under its own name. -/
theorem readLine_words {reading : ZoneReading} (hpending : reading.pending = none) (hdepth : reading.depth = 0)
    {raw first : Text} {rest : List Text} (h : PlainText (beforeComment raw)) (hwords : words (beforeComment raw) = first :: rest) :
    ∃ owner, readLine reading raw =
      { records := reading.records ++ [(if first.head? = some '$' then toAsciiUppercase first else first, rest)]
        owner := owner
        pending := none
        depth := 0 } := by
  have hblank : ((beforeComment raw).head? == some ' ' || (beforeComment raw).head? == some '\t') = false := by
    obtain ⟨c, tail, hline, hc⟩ := h.flush
    rw [hline, Bool.or_eq_false_iff]
    constructor <;> simp only [List.head?_cons, beq_eq_false_iff_ne, ne_eq, Option.some.injEq] <;> rintro rfl <;> cases hc
  rw [readLine_unnested hpending hdepth h.unnested, hwords, hblank]
  change ∃ owner, reading.record false (first :: rest) = _
  unfold ZoneReading.record
  dsimp only
  split
  · exact ⟨_, rfl⟩
  · exact ⟨_, rfl⟩

theorem plainLine_read {zone raw : Text} {known next : Origins} (hzone : ZoneName (lowerZone zone))
    (h : PlainLine (lowerZone zone) known raw next) : ∃ items triggers, LineRead zone known next raw items triggers := by
  cases h with
  | blank hblank =>
    have hstripped : stripComment false raw = beforeComment raw := by
      refine stripComment_plain fun c hc => ?_
      rintro rfl
      exact absurd (hblank _ hc) (by decide)
    have hunnested : Unnested (beforeComment raw) := by
      intro c hc
      constructor <;> rintro rfl <;> exact absurd (hblank _ hc) (by decide)
    refine ⟨[], [], ?_, fun rest => rfl, hstripped ▸ hunnested, ?_⟩
    · intro reading hpending hdepth
      refine ⟨reading.owner, ?_⟩
      rw [readLine_unnested hpending hdepth hunnested, words_blank hblank, List.append_nil, ← hpending, ← hdepth]
      rfl
    · intro state hstate
      refine ⟨state, [], hstate, sameUses_nil zone, fun rest => ?_⟩
      rw [hstripped, Authoritative.completed_blank hblank, List.nil_append]
      cases parseLines state rest <;> rfl
  | @ttl name ttl hplain hwords hname hnumber hsmall =>
    have hdollar := head?_directive hname
    refine ⟨[("$TTL".toList, [ttl])], [], ?_, fun rest => rfl, hplain.stripped ▸ hplain.unnested, ?_⟩
    · intro reading hpending hdepth
      have hread := readLine_words hpending hdepth hplain hwords
      rwa [if_pos hdollar, hname] at hread
    · intro state hstate
      obtain ⟨value, hparsed⟩ := parseLine_setTtl hplain.flush hwords hname hnumber hsmall state
      refine ⟨{ state with defaultTtl := value }, [], hstate, sameUses_nil zone, fun rest => ?_⟩
      rw [hplain.stripped, Authoritative.completed_flush hplain.flush]
      exact parseLines_read hparsed rest
  | @origin name origin hplain hwords hname horigin =>
    have hdollar := head?_directive hname
    refine ⟨[("$ORIGIN".toList, [origin])], [], ?_, fun rest => ?_, hplain.stripped ▸ hplain.unnested, ?_⟩
    · intro reading hpending hdepth
      have hread := readLine_words hpending hdepth hplain hwords
      rwa [if_pos hdollar, hname] at hread
    · have hends : endsWith ['.'] (lowerZone zone ++ ['.']) = true := by simp [endsWith]
      change triggersFrom (some (nextOrigin _ origin)) rest = triggersFrom (some (lowerZone zone ++ ['.'])) rest
      unfold nextOrigin
      rw [horigin]
      dsimp only
      rw [if_pos hends]
    · intro state hstate
      have hparsed := parseLine_setOrigin hplain.flush hwords hname state
      rw [horigin, hzone.trimDot] at hparsed
      refine ⟨{ state with origin := lowerZone zone }, [], rfl, sameUses_nil zone, fun rest => ?_⟩
      rw [hplain.stripped, Authoritative.completed_flush hplain.flush]
      exact parseLines_read hparsed rest
  | @record owner rtype target fields more trigger hplain hwords hdirective howner hfields =>
    have hne : ∀ field ∈ fields, field ≠ [] := by
      intro field hfield
      exact @ne_nil_of_words (beforeComment raw) field (by rw [hwords]; exact List.mem_cons_of_mem _ hfield)
    refine ⟨[(owner, fields)], (feedRecord rtype target trigger).toList, ?_, fun rest => ?_,
      hplain.stripped ▸ hplain.unnested, ?_⟩
    · intro reading hpending hdepth
      have hread := readLine_words hpending hdepth hplain hwords
      rwa [if_neg hdirective] at hread
    · change triggersFrom _ ((owner, fields) :: rest) = _
      rw [triggersFrom, readTrigger_plain hzone howner hdirective (hfields.dropWhile hne)]
    · intro state hstate
      obtain ⟨resolved, hresolved, hplaced⟩ := resolveOwner_plain hzone howner
      rw [← hstate] at hresolved
      obtain ⟨ttl, content, hparsed, hcontent⟩ := parseRecord_words hplain.flush hwords hfields hresolved
      have hcomment : (beforeComment raw).head? ≠ some ';' := by
        intro hhead
        have hkept := List.mem_takeWhile_imp (List.mem_of_head? hhead)
        simp at hkept
      have hline := parseLine_record hplain.flush (head?_word hplain.flush hwords ▸ hdirective) hcomment state
      have hfile : (known.after (lowerZone zone) owner rtype).file = known.file := by
        unfold Origins.after
        split <;> rfl
      refine ⟨{ state with lastOwner := resolved },
        [{ name := resolved, rtype := toAsciiUppercase rtype, content := content, ttl := ttl }], ?_,
        sameUses_record hfields hplaced hcontent, fun rest => ?_⟩
      · rw [Origins.fileOrigin, hfile]
        exact hstate
      · rw [hplain.stripped, Authoritative.completed_flush hplain.flush]
        exact parseLines_read (hline.trans hparsed) rest

/-- Both readers see the same in a plain feed. -/
theorem plainLines_read {zone : Text} (hzone : ZoneName (lowerZone zone)) {known : Origins} {physical : List Text}
    (h : PlainLines (lowerZone zone) known physical) {reading : ZoneReading} (hpending : reading.pending = none)
    (hdepth : reading.depth = 0) {state : ZoneFileState}
    (hstate : state.origin = known.fileOrigin (lowerZone zone)) :
    ∃ items entries, (physical.foldl readLine reading).records = reading.records ++ items ∧
      parseLines state (joinLines [] 0 physical) = .ok entries ∧
      SameUses zone (triggersFrom (known.feedOrigin (lowerZone zone)) items) entries := by
  induction h generalizing reading state with
  | nil known => exact ⟨[], [], (List.append_nil _).symm, rfl, sameUses_nil zone⟩
  | cons line others ih =>
    obtain ⟨items, triggers, hread⟩ := plainLine_read hzone line
    obtain ⟨owner, hfeed⟩ := hread.feed reading hpending hdepth
    obtain ⟨after, entries, hafter, huses, hfile⟩ := hread.file state hstate
    obtain ⟨moreItems, moreEntries, hrecords, hparsed, hothers⟩ :=
      @ih ⟨reading.records ++ items, owner, none, 0⟩ rfl rfl after hafter
    refine ⟨items ++ moreItems, entries ++ moreEntries, ?_, ?_, ?_⟩
    · rw [List.foldl_cons, hfeed, hrecords, List.append_assoc]
    · rw [joinLines_unnested hread.unnested rfl, if_pos rfl, List.nil_append, hfile, hparsed]
      rfl
    · rw [hread.triggered]
      exact huses.append hothers

theorem plainFeed_uses {zone text : Text} (h : PlainFeed zone text) : ∃ entries,
    parseZoneFile text = .ok entries ∧ SameUses zone (rpzRecords text) entries := by
  obtain ⟨items, entries, hitems, hentries, huses⟩ := @plainLines_read zone (zoneName_lowerZone h.named) ⟨false, false⟩
    (lines text) h.lines ⟨[], [], none, 0⟩ rfl rfl ⟨[], 3600, []⟩ rfl
  refine ⟨entries, hentries, ?_⟩
  rw [rpzRecords_eq, zoneRecords, hitems]
  exact huses

end DaygleDns.Policy
