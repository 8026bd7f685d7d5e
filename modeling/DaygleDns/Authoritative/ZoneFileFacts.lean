import DaygleDns.Authoritative.NameFacts
import DaygleDns.Authoritative.ZoneFile

/-! How the reader of zone files takes lines apart. -/
namespace DaygleDns.Authoritative

open Text Fallible

/-- A semicolon outside of the strings, which each quote starts or ends. -/
def hasComment : Bool → Text → Bool
  | _, [] => false
  | inQuotes, c :: rest =>
      if c = '"' then hasComment (!inQuotes) rest
      else decide (c = ';' ∧ inQuotes = false) || hasComment inQuotes rest

/-- Whether a string is open after the text. -/
def quotesAfter : Bool → Text → Bool
  | inQuotes, [] => inQuotes
  | inQuotes, c :: rest => quotesAfter (if c = '"' then !inQuotes else inQuotes) rest

theorem stripComment_leads (inQuotes : Bool) (s : Text) : stripComment inQuotes s <+: s := by
  induction s generalizing inQuotes with
  | nil => exact List.nil_prefix
  | cons c s ih =>
    unfold stripComment
    split
    · exact List.cons_prefix_cons.mpr ⟨rfl, ih _⟩
    · split
      · exact List.nil_prefix
      · exact List.cons_prefix_cons.mpr ⟨rfl, ih _⟩

theorem stripComment_append {inQuotes : Bool} {a : Text} (h : hasComment inQuotes a = false)
    (b : Text) : stripComment inQuotes (a ++ b) = a ++ stripComment (quotesAfter inQuotes a) b := by
  induction a generalizing inQuotes with
  | nil => rfl
  | cons c a ih =>
    unfold hasComment at h
    rw [List.cons_append, stripComment, quotesAfter]
    split at h
    next hquote =>
      rw [if_pos hquote, if_pos hquote, ih h]
      rfl
    next hquote =>
      obtain ⟨hc, hrest⟩ := Bool.or_eq_false_iff.mp h
      rw [if_neg hquote, if_neg hquote, if_neg (of_decide_eq_false hc), ih hrest]
      rfl

theorem stripComment_append_comment {inQuotes : Bool} {a : Text}
    (h : hasComment inQuotes a = true) (b : Text) :
    stripComment inQuotes (a ++ b) = stripComment inQuotes a := by
  induction a generalizing inQuotes with
  | nil => cases h
  | cons c a ih =>
    unfold hasComment at h
    rw [List.cons_append, stripComment, stripComment]
    split at h
    next hquote => rw [if_pos hquote, if_pos hquote, ih h]
    next hquote =>
      rw [if_neg hquote, if_neg hquote]
      split
      · rfl
      next hc =>
        rw [decide_eq_false hc, Bool.false_or] at h
        rw [ih h]

theorem stripComment_self {inQuotes : Bool} {s : Text} (h : hasComment inQuotes s = false) :
    stripComment inQuotes s = s := by
  have happend := stripComment_append h []
  rwa [List.append_nil, stripComment, List.append_nil] at happend

/-- With a comment there is less left. -/
theorem stripComment_length {inQuotes : Bool} {s : Text} (h : hasComment inQuotes s = true) :
    (stripComment inQuotes s).length < s.length := by
  induction s generalizing inQuotes with
  | nil => cases h
  | cons c s ih =>
    unfold hasComment at h
    unfold stripComment
    split at h
    next hquote =>
      rw [if_pos hquote]
      exact Nat.succ_lt_succ (ih h)
    next hquote =>
      rw [if_neg hquote]
      split
      · exact Nat.zero_lt_succ _
      next hc =>
        rw [decide_eq_false hc, Bool.false_or] at h
        exact Nat.succ_lt_succ (ih h)

/-- Neither a quote nor a semicolon. -/
def Unmarked (s : Text) : Prop := ∀ c ∈ s, c ≠ '"' ∧ c ≠ ';'

theorem Unmarked.append {a b : Text} (ha : Unmarked a) (hb : Unmarked b) : Unmarked (a ++ b) :=
  fun c hc => (List.mem_append.mp hc).elim (ha c) (hb c)

theorem Unmarked.quotesAfter {s : Text} (h : Unmarked s) (inQuotes : Bool) :
    quotesAfter inQuotes s = inQuotes := by
  induction s with
  | nil => rfl
  | cons c s ih =>
    rw [Authoritative.quotesAfter, if_neg (h c List.mem_cons_self).1]
    exact ih fun d hd => h d (List.mem_cons_of_mem _ hd)

theorem Unmarked.hasComment {s : Text} (h : Unmarked s) (inQuotes : Bool) :
    hasComment inQuotes s = false := by
  induction s with
  | nil => rfl
  | cons c s ih =>
    have hc := h c List.mem_cons_self
    rw [Authoritative.hasComment, if_neg hc.1, ih fun d hd => h d (List.mem_cons_of_mem _ hd)]
    simp [hc.2]

theorem Unmarked.stripComment_append {a : Text} (h : Unmarked a) (b : Text) :
    stripComment false (a ++ b) = a ++ stripComment false b := by
  rw [Authoritative.stripComment_append (h.hasComment false), h.quotesAfter]

/-! Joining lines. -/

/-- No parenthesis. -/
def Unnested (s : Text) : Prop := ∀ c ∈ s, c ≠ '(' ∧ c ≠ ')'

theorem Unnested.append {a b : Text} (ha : Unnested a) (hb : Unnested b) : Unnested (a ++ b) :=
  fun c hc => (List.mem_append.mp hc).elim (ha c) (hb c)

theorem Unnested.subset {a b : Text} (hb : Unnested b) (h : a ⊆ b) : Unnested a :=
  fun c hc => hb c (h hc)

theorem Unnested.joinChar {s : Text} (h : Unnested s) (joined : Text × Nat) :
    s.foldl joinChar joined = (joined.1 ++ s, joined.2) := by
  induction s generalizing joined with
  | nil => simp
  | cons c s ih =>
    have hc := h c List.mem_cons_self
    have hjoined : Authoritative.joinChar joined c = (joined.1 ++ [c], joined.2) := by
      unfold Authoritative.joinChar
      rw [if_neg hc.1, if_neg hc.2]
    rw [List.foldl_cons, hjoined, ih fun d hd => h d (List.mem_cons_of_mem _ hd)]
    simp

theorem joinLines_unnested {stripped : Text} (hunnested : Unnested stripped) {raw : Text}
    (hraw : stripComment false raw = stripped) (current : Text) (depth : Nat) (rest : List Text) :
    joinLines current depth (raw :: rest) =
      if depth = 0 then completed (current ++ stripped) ++ joinLines [] 0 rest
      else joinLines (current ++ stripped) depth rest := by
  rw [joinLines, hraw, hunnested.joinChar]

theorem completed_trimEnd (s : Text) : completed (trimEnd s) = completed s := by
  simp [completed]

theorem completed_congr {a b : Text} (h : trimEnd a = trimEnd b) : completed a = completed b := by
  rw [← completed_trimEnd a, ← completed_trimEnd b, h]

theorem completed_blank {s : Text} (h : Blank s) : completed s = [] := by
  simp [completed, trimEnd_eq_nil.mpr h]

theorem completed_flush {s : Text} (h : Flush s) : completed s = [trimEnd s] := by
  have hne : trimEnd s ≠ [] := fun hnil => not_blank_of_flush h (trimEnd_eq_nil.mp hnil)
  simp [completed, hne]

/-- A carriage return at the end of a line comes to nothing. -/
theorem trimEnd_stripComment_chomp (s : Text) :
    trimEnd (stripComment false (chomp s)) = trimEnd (stripComment false s) := by
  rcases chomp_cases s with hsame | hsame
  · rw [hsame]
  · cases hcomment : hasComment false (chomp s) with
    | true =>
      conv => rhs; rw [hsame, stripComment_append_comment hcomment]
    | false =>
      have hreturn : Blank (stripComment (quotesAfter false (chomp s)) ['\r']) := by
        intro c hc
        have hmem := (stripComment_leads _ _).subset hc
        rw [List.mem_singleton.mp hmem]
        decide
      conv => rhs; rw [hsame, stripComment_append hcomment, trimEnd_append_blank _ hreturn]
      rw [stripComment_self hcomment]

/-- A line outside of parentheses is taken by itself. -/
theorem logicalLines_line {line : Text} (hfeed : '\n' ∉ line)
    (hunnested : Unnested (stripComment false line)) (rest : Text) :
    logicalLines (line ++ '\n' :: rest) = completed (stripComment false line) ++ logicalLines rest := by
  have hchomped : Unnested (stripComment false (chomp line)) := by
    intro c hc
    apply hunnested c
    rcases chomp_cases line with hsame | hsame
    · rwa [hsame] at hc
    · cases hcomment : hasComment false (chomp line) with
      | true => rwa [hsame, stripComment_append_comment hcomment]
      | false =>
        rw [hsame, stripComment_append hcomment]
        rw [stripComment_self hcomment] at hc
        exact List.mem_append_left _ hc
  unfold logicalLines
  rw [lines_line hfeed, joinLines_unnested hchomped rfl, if_pos rfl, List.nil_append,
    completed_congr (trimEnd_stripComment_chomp line)]

/-! What no logical line holds. -/

theorem joinChar_chars {s : Text} (hs : '\n' ∉ s) (joined : Text × Nat)
    (hjoined : Unnested joined.1 ∧ '\n' ∉ joined.1) :
    Unnested (s.foldl joinChar joined).1 ∧ '\n' ∉ (s.foldl joinChar joined).1 := by
  induction s generalizing joined with
  | nil => exact hjoined
  | cons c s ih =>
    have hc : '\n' ≠ c := fun heq => hs (heq ▸ List.mem_cons_self)
    apply ih (fun hmem => hs (List.mem_cons_of_mem _ hmem))
    have hspace : Unnested [' '] ∧ '\n' ∉ [' '] := by
      constructor
      · intro d hd
        rw [List.mem_singleton.mp hd]
        decide
      · decide
    unfold joinChar
    split
    · exact ⟨hjoined.1.append hspace.1, by simp [hjoined.2]⟩
    · split
      · exact ⟨hjoined.1.append hspace.1, by simp [hjoined.2]⟩
      next hopen hclose =>
        refine ⟨hjoined.1.append ?_, by simp [hjoined.2, hc]⟩
        intro d hd
        rw [List.mem_singleton.mp hd]
        exact ⟨hopen, hclose⟩

theorem mem_completed {current line : Text} (h : line ∈ completed current) : line ⊆ current := by
  unfold completed at h
  split at h
  · cases h
  · rw [List.mem_singleton.mp h]
    exact trimEnd_subset current

theorem joinLines_chars {physical : List Text} (hphysical : ∀ raw ∈ physical, '\n' ∉ raw)
    {current : Text} (hcurrent : Unnested current ∧ '\n' ∉ current) (depth : Nat) :
    ∀ line ∈ joinLines current depth physical, Unnested line ∧ '\n' ∉ line := by
  have hdone : ∀ current : Text, Unnested current ∧ '\n' ∉ current →
      ∀ line ∈ completed current, Unnested line ∧ '\n' ∉ line := by
    intro current hcurrent line hline
    have hsubset := mem_completed hline
    exact ⟨hcurrent.1.subset hsubset, fun hmem => hcurrent.2 (hsubset hmem)⟩
  have hempty : Unnested ([] : Text) ∧ '\n' ∉ ([] : Text) :=
    ⟨fun _ hc => absurd hc List.not_mem_nil, List.not_mem_nil⟩
  induction physical generalizing current depth with
  | nil => exact hdone current hcurrent
  | cons raw physical ih =>
    have hothers : ∀ other ∈ physical, '\n' ∉ other :=
      fun other hother => hphysical other (List.mem_cons_of_mem _ hother)
    have hstripped : '\n' ∉ stripComment false raw := by
      intro hmem
      exact hphysical raw List.mem_cons_self ((stripComment_leads false raw).subset hmem)
    have hjoined := joinChar_chars hstripped (current, depth) hcurrent
    unfold joinLines
    dsimp only
    split
    · intro line hline
      rcases List.mem_append.mp hline with hline | hline
      · exact hdone _ hjoined line hline
      · exact ih hothers hempty 0 line hline
    · exact ih hothers hjoined _

theorem logicalLines_chars {text line : Text} (h : line ∈ logicalLines text) :
    Unnested line ∧ '\n' ∉ line := by
  refine joinLines_chars (fun raw hraw => not_mem_lines hraw) ?_ 0 line h
  exact ⟨fun _ hc => absurd hc List.not_mem_nil, List.not_mem_nil⟩

/-! Reading a line. -/

theorem splitFirst_word {word : Text} (h : Solid word) (hne : word ≠ []) {c : Char}
    (hc : isWhitespace c = true) (rest : Text) :
    splitFirst (word ++ c :: rest) = (some word, trimStart rest) := by
  have hstart : trimStart (word ++ c :: rest) = word ++ c :: rest :=
    trimStart_of_flush ((h.flush hne).append _)
  unfold splitFirst
  dsimp only
  rw [hstart, splitOnceWhitespace_word h hc]

theorem takeTtl_number (defaultTtl ttl : UInt32) {c : Char} (hc : isWhitespace c = true)
    (rest : Text) :
    takeTtl defaultTtl (ofNat ttl.toNat ++ c :: rest) = (ttl, trimStart rest) := by
  have hdigits : (ofNat ttl.toNat).all Char.isDigit = true :=
    List.all_eq_true.mpr fun _ => isDigit_ofNat
  unfold takeTtl
  rw [splitFirst_word (solid_ofNat _) (ofNat_ne_nil _) hc]
  dsimp only
  rw [if_pos hdigits, parseU32_ofNat]
  rfl

theorem takeClass_in (rest : Text) : takeClass ('I' :: 'N' :: ' ' :: rest) = trimStart rest := by
  have hsplit : splitFirst (['I', 'N'] ++ ' ' :: rest) = (some ['I', 'N'], trimStart rest) := by
    exact splitFirst_word (by decide) (List.cons_ne_nil _ _) (by decide) rest
  change takeClass (['I', 'N'] ++ ' ' :: rest) = trimStart rest
  unfold takeClass
  rw [hsplit]
  dsimp only
  rw [if_pos (by decide)]

/-- A word that the store knows as a type. -/
structure TypeWord (rtype : Text) : Prop where
  flush : Flush rtype
  solid : Solid rtype
  upper : toAsciiUppercase rtype = rtype
  unmarked : Unmarked rtype
  unnested : Unnested rtype

theorem typeWord_of_known {rtype : Text} (h : rtype ∈ knownRecordTypes) : TypeWord rtype := by
  have hne : ∀ rtype ∈ knownRecordTypes, rtype ≠ [] := by decide
  have hsolid : ∀ rtype ∈ knownRecordTypes, ∀ c ∈ rtype, isWhitespace c = false := by decide
  have hupper : ∀ rtype ∈ knownRecordTypes, toAsciiUppercase rtype = rtype := by decide
  have hunmarked : ∀ rtype ∈ knownRecordTypes, ∀ c ∈ rtype, c ≠ '"' ∧ c ≠ ';' := by decide
  have hunnested : ∀ rtype ∈ knownRecordTypes, ∀ c ∈ rtype, c ≠ '(' ∧ c ≠ ')' := by decide
  exact ⟨Solid.flush (hsolid rtype h) (hne rtype h), hsolid rtype h, hupper rtype h,
    hunmarked rtype h, hunnested rtype h⟩

/-- What an export writes behind the owner. -/
def fieldsText (ttl : UInt32) (rtype content : Text) : Text :=
  ofNat ttl.toNat ++ ' ' :: 'I' :: 'N' :: ' ' :: (rtype ++ ' ' :: content)

theorem flush_in (rest : Text) : Flush ('I' :: 'N' :: ' ' :: rest) := ⟨'I', _, rfl, by decide⟩

theorem parseEntry_fieldsText (state : ZoneFileState) (line owner : Text) (ttl : UInt32)
    {rtype content : Text} (hrtype : TypeWord rtype) :
    parseEntry state line owner (fieldsText ttl rtype content) =
      .ok { name := owner, rtype := rtype, content := trim content, ttl := ttl } := by
  have hfields : Flush (rtype ++ ' ' :: content) := hrtype.flush.append _
  unfold parseEntry fieldsText
  rw [takeTtl_number _ _ (by decide), trimStart_of_flush (flush_in _)]
  dsimp only
  rw [takeClass_in, trimStart_of_flush hfields, splitOnceWhitespace_word hrtype.solid (by decide)]
  dsimp only
  rw [hrtype.solid.trim, hrtype.upper]

/-- The fields of a line without content. -/
theorem parseEntry_blank (state : ZoneFileState) (line owner : Text) (ttl : UInt32) {rtype : Text}
    (hrtype : TypeWord rtype) :
    parseEntry state line owner (ofNat ttl.toNat ++ ' ' :: 'I' :: 'N' :: ' ' :: rtype) =
      .error (.invalidRecord ("missing rdata in '" ++ line ++ "'")) := by
  unfold parseEntry
  rw [takeTtl_number _ _ (by decide), trimStart_of_flush (flush_in _)]
  dsimp only
  rw [takeClass_in, trimStart_of_flush hrtype.flush, splitOnceWhitespace_solid hrtype.solid]

/-- The fields without the whitespace at the end of the line. -/
theorem trimEnd_fieldsText (ttl : UInt32) {rtype : Text} (hrtype : TypeWord rtype) (content : Text) :
    trimEnd (fieldsText ttl rtype content) =
      if Blank content then ofNat ttl.toNat ++ ' ' :: 'I' :: 'N' :: ' ' :: rtype
      else fieldsText ttl rtype (trimEnd content) := by
  have hassoc : ∀ tail : Text, ofNat ttl.toNat ++ ' ' :: 'I' :: 'N' :: ' ' :: (rtype ++ tail) =
      (ofNat ttl.toNat ++ [' ', 'I', 'N', ' ']) ++ (rtype ++ tail) := by
    intro tail
    simp
  have htrim : trimEnd rtype ≠ [] := by
    rw [hrtype.solid.trimEnd]
    obtain ⟨c, rest, hs, _⟩ := hrtype.flush
    rw [hs]
    exact List.cons_ne_nil _ _
  split
  next hblank =>
    have hspace : Blank (' ' :: content) := by
      intro c hc
      rcases List.mem_cons.mp hc with rfl | hc
      · decide
      · exact hblank c hc
    have hword := hassoc []
    rw [List.append_nil] at hword
    unfold fieldsText
    rw [hassoc, ← List.append_assoc, trimEnd_append_blank _ hspace, trimEnd_append_of_ne _ htrim,
      hrtype.solid.trimEnd, hword]
  next hblank =>
    have hne : trimEnd content ≠ [] := fun hnil => hblank (trimEnd_eq_nil.mp hnil)
    have hcons : fieldsText ttl rtype content =
        (ofNat ttl.toNat ++ ' ' :: 'I' :: 'N' :: ' ' :: (rtype ++ [' '])) ++ content := by
      simp [fieldsText]
    rw [hcons, trimEnd_append_of_ne _ hne]
    simp [fieldsText]

/-! Reading the owner. -/

theorem resolveOwner_dotted {core : Text} (h : PlainName core) (origin : Text) :
    resolveOwner (core ++ ['.']) origin = .ok core := by
  have hat : core ++ ['.'] ≠ ['@'] := by
    intro heq
    have hlast := congrArg List.getLast? heq
    rw [List.getLast?_concat] at hlast
    cases hlast
  unfold resolveOwner
  rw [if_neg hat, if_pos (List.mem_append_right _ List.mem_cons_self),
    if_pos List.getLast?_concat, trimEndMatches_concat, trimEndMatches_of_last h.last, h.lower]

theorem splitOwner_dotted {core : Text} (h : PlainName core) (origin lastOwner rest : Text) :
    splitOwner (core ++ '.' :: ' ' :: rest) origin lastOwner = .ok (core, trimStart rest) := by
  have hsolid : Solid (core ++ ['.']) := h.solid.append (by decide)
  have hassoc : core ++ '.' :: ' ' :: rest = (core ++ ['.']) ++ ' ' :: rest := by simp
  obtain ⟨c, tail, hcore, hc⟩ := h.flush
  have hhead : (core ++ '.' :: ' ' :: rest).head?.any isWhitespace = false := by
    rw [hcore]
    simp [hc]
  unfold splitOwner
  rw [hhead, if_neg Bool.false_ne_true, hassoc, splitOnceWhitespace_word hsolid (by decide)]
  dsimp only
  rw [hsolid.trim, resolveOwner_dotted h]
  rfl

theorem toUpper_eq_dollar {c : Char} (h : c.toUpper = '$') : c = '$' := by
  rcases toUpper_cases c with hsame | ⟨hlow, hhigh, hupper⟩
  · rw [← hsame, h]
  · rw [h] at hupper
    have hdollar : ('$' : Char).toNat = 36 := rfl
    omega

/-- A line that begins with another word than a directive is about a record. -/
theorem parseLine_record {line : Text} (h : Flush line) (hdirective : line.head? ≠ some '$') (hcomment : line.head? ≠ some ';')
    (state : ZoneFileState) :
    parseLine state (trimEnd line) = parseRecord state (trimEnd line) := by
  have hflush := h.trimEnd
  have hblank : trim (trimEnd line) ≠ [] := fun hnil => not_blank_of_flush hflush (trim_eq_nil.mp hnil)
  have hhead : (trimEnd line).head? = line.head? := by
    obtain ⟨c, tail, htrim, -⟩ := hflush
    have hlead := trimEnd_leads line
    rw [htrim] at hlead ⊢
    obtain ⟨more, hmore⟩ := hlead
    rw [← hmore]
    rfl
  have hnone : ∀ word : Text, stripPrefix ('$' :: word) (toAsciiUppercase (trimEnd line)) = none := by
    intro word
    apply Option.eq_none_iff_forall_ne_some.mpr
    intro found hfound
    have hfirst := congrArg List.head? (stripPrefix_eq_some.mp hfound)
    rw [toAsciiUppercase, List.head?_map, hhead] at hfirst
    obtain ⟨c, hc, hupper⟩ := Option.map_eq_some_iff.mp hfirst
    exact hdirective (toUpper_eq_dollar hupper ▸ hc)
  unfold parseLine
  dsimp only
  rw [trimEnd_trimEnd, trimStart_of_flush hflush, if_neg]
  · rw [show stripPrefix ("$ORIGIN" : Text) _ = none from hnone "ORIGIN",
      show stripPrefix ("$TTL" : Text) _ = none from hnone "TTL",
      show stripPrefix ("$INCLUDE" : Text) _ = none from hnone "INCLUDE"]
  · simp [hblank, hhead, hcomment]

/-- A line that begins as a name does is about a record. -/
theorem parseLine_named {name rest : Text} (h : PlainName name) (state : ZoneFileState) :
    parseLine state (trimEnd (name ++ rest)) = parseRecord state (trimEnd (name ++ rest)) := by
  have hother : ∀ d, isNameChar d = false → (name ++ rest).head? ≠ some d := by
    intro d hd heq
    obtain ⟨c, tail, hname⟩ := List.exists_cons_of_ne_nil h.nonempty
    rw [hname] at heq
    have hc : isNameChar d = true := h.chars d (by rw [hname, ← Option.some.inj heq]; exact List.mem_cons_self)
    rw [hd] at hc
    cases hc
  exact parseLine_record (h.flush.append rest) (hother '$' rfl) (hother ';' rfl) state

/-! What is read holds no parenthesis and no line feed. -/

theorem splitFirst_subset {s remainder : Text} {first : Option Text}
    (h : splitFirst s = (first, remainder)) : remainder ⊆ s := by
  unfold splitFirst at h
  dsimp only at h
  split at h
  next word rest hsplit =>
    cases h
    obtain ⟨c, _, hs⟩ := splitOnceWhitespace_eq_some hsplit
    intro d hd
    apply trimStart_subset s
    rw [hs]
    exact List.mem_append_right _ (List.mem_cons_of_mem _ (trimStart_subset rest hd))
  next =>
    split at h <;> cases h <;> exact List.nil_subset s

theorem takeTtl_subset (defaultTtl : UInt32) (rest : Text) : (takeTtl defaultTtl rest).2 ⊆ rest := by
  unfold takeTtl
  split
  next first remainder hsplit =>
    split
    · exact splitFirst_subset hsplit
    · exact List.Subset.refl rest
  next => exact List.Subset.refl rest

theorem takeClass_subset (rest : Text) : takeClass rest ⊆ rest := by
  unfold takeClass
  split
  next first remainder hsplit =>
    split
    · exact splitFirst_subset hsplit
    · exact List.Subset.refl rest
  next => exact List.Subset.refl rest

theorem parseEntry_content {state : ZoneFileState} {line owner rest : Text} {entry : RecordInput}
    (h : parseEntry state line owner rest = .ok entry) : entry.content ⊆ rest := by
  unfold parseEntry at h
  dsimp only at h
  split at h
  next => cases h
  next rtype rdata hsplit =>
    cases h
    obtain ⟨c, _, hs⟩ := splitOnceWhitespace_eq_some hsplit
    intro d hd
    apply takeTtl_subset state.defaultTtl rest
    apply takeClass_subset
    rw [hs]
    exact List.mem_append_right _ (List.mem_cons_of_mem _ (trim_subset rdata hd))

theorem splitOwner_subset {line origin lastOwner owner rest : Text}
    (h : splitOwner line origin lastOwner = .ok (owner, rest)) : rest ⊆ line := by
  unfold splitOwner at h
  split at h
  · rw [guard_eq_ok] at h
    cases h.2
    exact trimStart_subset line
  · split at h
    next => cases h
    next word tail hsplit =>
      obtain ⟨c, _, hs⟩ := splitOnceWhitespace_eq_some hsplit
      cases hresolved : resolveOwner (trim word) origin with
      | error e =>
        rw [hresolved] at h
        cases h
      | ok resolved =>
        rw [hresolved] at h
        cases h
        intro d hd
        rw [hs]
        exact List.mem_append_right _ (List.mem_cons_of_mem _ (trimStart_subset tail hd))

theorem parseRecord_content {state : ZoneFileState} {line : Text}
    {after : ZoneFileState × Option RecordInput} (h : parseRecord state line = .ok after) :
    ∃ entry, after.2 = some entry ∧ entry.content ⊆ line := by
  unfold parseRecord at h
  obtain ⟨⟨owner, rest⟩, hsplit, h⟩ := bind_eq_ok.mp h
  obtain ⟨entry, hentry, h⟩ := bind_eq_ok.mp h
  cases h
  exact ⟨entry, rfl, fun d hd => splitOwner_subset hsplit (parseEntry_content hentry hd)⟩

theorem parseLine_content {state after : ZoneFileState} {raw : Text} {entry : RecordInput}
    (h : parseLine state raw = .ok (after, some entry)) : entry.content ⊆ raw := by
  unfold parseLine at h
  dsimp only at h
  split at h
  · cases h
  · split at h
    · cases h
    · split at h <;> cases h
    · cases h
    · obtain ⟨found, hfound, hsubset⟩ := parseRecord_content h
      cases hfound
      exact fun d hd => trimEnd_subset raw (hsubset hd)

theorem parseLines_contents {state : ZoneFileState} {lines : List Text} {entries : List RecordInput}
    (h : parseLines state lines = .ok entries) :
    ∀ entry ∈ entries, ∃ line ∈ lines, entry.content ⊆ line := by
  induction lines generalizing state entries with
  | nil =>
    cases h
    exact fun _ hentry => absurd hentry List.not_mem_nil
  | cons line lines ih =>
    unfold parseLines at h
    obtain ⟨⟨after, found⟩, hline, h⟩ := bind_eq_ok.mp h
    obtain ⟨later, hlater, h⟩ := bind_eq_ok.mp h
    cases h
    intro entry hentry
    rcases List.mem_append.mp hentry with hentry | hentry
    · rw [Option.mem_toList] at hentry
      rw [hentry] at hline
      exact ⟨line, List.mem_cons_self, parseLine_content hline⟩
    · obtain ⟨other, hother, hsubset⟩ := ih hlater entry hentry
      exact ⟨other, List.mem_cons_of_mem _ hother, hsubset⟩

theorem parseZoneFile_chars {text : Text} {entries : List RecordInput}
    (h : parseZoneFile text = .ok entries) :
    ∀ entry ∈ entries, Unnested entry.content ∧ '\n' ∉ entry.content := by
  intro entry hentry
  obtain ⟨line, hline, hsubset⟩ := parseLines_contents h entry hentry
  have hchars := logicalLines_chars hline
  exact ⟨hchars.1.subset hsubset, fun hmem => hchars.2 (hsubset hmem)⟩

end DaygleDns.Authoritative
