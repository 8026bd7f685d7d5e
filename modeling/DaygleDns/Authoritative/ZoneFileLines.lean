import DaygleDns.Authoritative.ZoneFileFacts

/-! The lines of an export: which logical lines they are read as, and what the
reader makes of each. -/
namespace DaygleDns.Authoritative

open Text Fallible

/-- A line of an export, without its line feed. -/
def entryText (owner : Text) (ttl : UInt32) (rtype content : Text) : Text :=
  owner ++ '.' :: ' ' :: fieldsText ttl rtype content

theorem fieldsText_flush (ttl : UInt32) (rtype content : Text) :
    Flush (fieldsText ttl rtype content) :=
  ((solid_ofNat ttl.toNat).flush (ofNat_ne_nil _)).append _

theorem trimEnd_entryText (owner : Text) (ttl : UInt32) (rtype content : Text) :
    trimEnd (entryText owner ttl rtype content) =
      owner ++ '.' :: ' ' :: trimEnd (fieldsText ttl rtype content) := by
  have hne : trimEnd (fieldsText ttl rtype content) ≠ [] := fun hnil =>
    not_blank_of_flush (fieldsText_flush ttl rtype content) (trimEnd_eq_nil.mp hnil)
  have hassoc : entryText owner ttl rtype content =
      (owner ++ ['.', ' ']) ++ fieldsText ttl rtype content := by
    simp [entryText]
  rw [hassoc, trimEnd_append_of_ne _ hne]
  simp

theorem trimStart_trimEnd_fieldsText (ttl : UInt32) (rtype content : Text) :
    trimStart (trimEnd (fieldsText ttl rtype content)) = trimEnd (fieldsText ttl rtype content) :=
  trimStart_of_flush (fieldsText_flush ttl rtype content).trimEnd

/-- A line under a plain name, with content. -/
theorem parseLine_entry (state : ZoneFileState) {owner : Text} (howner : PlainName owner)
    (ttl : UInt32) {rtype content : Text} (hrtype : TypeWord rtype) (hcontent : ¬ Blank content) :
    parseLine state (trimEnd (entryText owner ttl rtype content)) =
      .ok ({ state with lastOwner := owner },
        some { name := owner, rtype := rtype, content := trim content, ttl := ttl }) := by
  have hline : entryText owner ttl rtype content =
      owner ++ ('.' :: ' ' :: fieldsText ttl rtype content) := rfl
  rw [hline, parseLine_named howner, ← hline, trimEnd_entryText]
  unfold parseRecord
  rw [splitOwner_dotted howner, trimStart_trimEnd_fieldsText, ok_bind]
  dsimp only
  rw [trimEnd_fieldsText ttl hrtype, if_neg hcontent, parseEntry_fieldsText _ _ _ _ hrtype,
    trim_trimEnd]
  rfl

/-- A line under a plain name, without content. -/
theorem parseLine_blank (state : ZoneFileState) {owner : Text} (howner : PlainName owner)
    (ttl : UInt32) {rtype content : Text} (hrtype : TypeWord rtype) (hcontent : Blank content) :
    ∃ e, parseLine state (trimEnd (entryText owner ttl rtype content)) = .error e := by
  have hline : entryText owner ttl rtype content =
      owner ++ ('.' :: ' ' :: fieldsText ttl rtype content) := rfl
  rw [hline, parseLine_named howner, ← hline, trimEnd_entryText]
  unfold parseRecord
  rw [splitOwner_dotted howner, trimStart_trimEnd_fieldsText, ok_bind]
  dsimp only
  rw [trimEnd_fieldsText ttl hrtype, if_pos hcontent, parseEntry_blank _ _ _ _ hrtype]
  exact ⟨_, rfl⟩

/-- A dot by itself is taken for a type. -/
theorem parseEntry_dot (state : ZoneFileState) (line owner rest : Text) :
    ∃ entry, parseEntry state line owner (['.'] ++ ' ' :: rest) = .ok entry ∧
      entry.rtype = ['.'] := by
  have hdot : Solid ['.'] := by decide
  have hfirst : splitFirst (['.'] ++ ' ' :: rest) = (some ['.'], trimStart rest) :=
    splitFirst_word hdot (List.cons_ne_nil _ _) (by decide) rest
  have httl : takeTtl state.defaultTtl (['.'] ++ ' ' :: rest) =
      (state.defaultTtl, ['.'] ++ ' ' :: rest) := by
    unfold takeTtl
    rw [hfirst]
    rfl
  have hclass : takeClass (['.'] ++ ' ' :: rest) = ['.'] ++ ' ' :: rest := by
    unfold takeClass
    rw [hfirst]
    dsimp only
    rw [if_neg (by decide)]
  unfold parseEntry
  rw [httl]
  dsimp only
  rw [hclass, splitOnceWhitespace_word hdot (by decide)]
  refine ⟨_, rfl, ?_⟩
  change toAsciiUppercase (trim ['.']) = ['.']
  decide

/-- Whitespace behind the name leaves the dot for the type. -/
theorem parseLine_spaced (state : ZoneFileState) {name core dots blank : Text}
    (h : NameShape name core dots blank) (hblank : blank ≠ []) (ttl : UInt32) (rtype content : Text)
    {after : ZoneFileState × Option RecordInput}
    (hread : parseLine state (trimEnd (entryText name ttl rtype content)) = .ok after) :
    ∃ entry, after.2 = some entry ∧ entry.rtype = ['.'] := by
  obtain ⟨b, more, hb⟩ := List.exists_cons_of_ne_nil hblank
  have hspace : isWhitespace b = true := h.blank b (by rw [hb]; exact List.mem_cons_self)
  have hmore : Blank more := fun c hc => h.blank c (by rw [hb]; exact List.mem_cons_of_mem _ hc)
  have hword : Solid (core ++ dots) := h.core.solid.append (solid_dots h.dots)
  have hname : name = (core ++ dots) ++ b :: more := by rw [h.name, hb, List.append_assoc]
  have hline : entryText name ttl rtype content =
      core ++ (dots ++ b :: more ++ '.' :: ' ' :: fieldsText ttl rtype content) := by
    rw [hname]
    simp [entryText]
  have htrimmed : trimEnd (entryText name ttl rtype content) = (core ++ dots) ++ b :: (more ++
      (['.'] ++ ' ' :: trimEnd (fieldsText ttl rtype content))) := by
    rw [trimEnd_entryText, hname]
    simp
  have hhead : (trimEnd (entryText name ttl rtype content)).head?.any isWhitespace = false := by
    obtain ⟨c, tail, hcore, hc⟩ := h.core.flush
    rw [htrimmed, hcore]
    simp [hc]
  have hrest : trimStart (more ++ (['.'] ++ ' ' :: trimEnd (fieldsText ttl rtype content))) =
      ['.'] ++ ' ' :: trimEnd (fieldsText ttl rtype content) := by
    rw [trimStart_blank_append hmore]
    exact trimStart_of_flush ⟨'.', _, rfl, by decide⟩
  rw [hline, parseLine_named h.core, ← hline] at hread
  unfold parseRecord at hread
  obtain ⟨⟨owner, rest⟩, hsplit, hread⟩ := bind_eq_ok.mp hread
  obtain ⟨entry, hentry, hafter⟩ := bind_eq_ok.mp hread
  cases hafter
  refine ⟨entry, rfl, ?_⟩
  unfold splitOwner at hsplit
  rw [hhead, if_neg Bool.false_ne_true, htrimmed, splitOnceWhitespace_word hword hspace] at hsplit
  dsimp only at hsplit
  rw [hrest] at hsplit
  cases howner : resolveOwner (trim (core ++ dots)) state.origin with
  | error e =>
    rw [howner] at hsplit
    cases hsplit
  | ok resolved =>
    rw [howner] at hsplit
    cases hsplit
    obtain ⟨found, hfound, hdot⟩ := parseEntry_dot state
      (trimEnd (entryText name ttl rtype content)) owner (trimEnd (fieldsText ttl rtype content))
    rw [hfound] at hentry
    cases hentry
    exact hdot

/-- A name alone on its line. -/
theorem parseLine_alone (state : ZoneFileState) {core dots : Text} (hcore : PlainName core)
    (hdots : ∀ c ∈ dots, c = '.') : ∃ e, parseLine state (core ++ dots) = .error e := by
  have hword : Solid (core ++ dots) := hcore.solid.append (solid_dots hdots)
  have hhead : (core ++ dots).head?.any isWhitespace = false := by
    obtain ⟨c, tail, hname, hc⟩ := hcore.flush
    rw [hname]
    simp [hc]
  have hline := @parseLine_named _ dots hcore state
  rw [hword.trimEnd] at hline
  rw [hline]
  unfold parseRecord splitOwner
  rw [hhead, if_neg Bool.false_ne_true, splitOnceWhitespace_solid hword]
  exact ⟨_, rfl⟩

/-! The text of names. -/

/-- Text that the joining of lines leaves as it is. -/
structure Inert (s : Text) : Prop where
  unmarked : Unmarked s
  unnested : Unnested s
  feedless : '\n' ∉ s

theorem Inert.append {a b : Text} (ha : Inert a) (hb : Inert b) : Inert (a ++ b) :=
  ⟨ha.unmarked.append hb.unmarked, ha.unnested.append hb.unnested,
    fun h => (List.mem_append.mp h).elim ha.feedless hb.feedless⟩

theorem inert_of_chars {s : Text} {p : Char → Bool} (h : ∀ c ∈ s, p c = true)
    (hmarks : p '"' = false ∧ p ';' = false ∧ p '(' = false ∧ p ')' = false ∧ p '\n' = false) :
    Inert s := by
  have hne : ∀ mark, p mark = false → mark ∉ s := by
    intro mark hmark hmem
    rw [h mark hmem] at hmark
    cases hmark
  refine ⟨fun c hc => ⟨?_, ?_⟩, fun c hc => ⟨?_, ?_⟩, hne _ hmarks.2.2.2.2⟩
  · exact fun heq => hne _ hmarks.1 (heq ▸ hc)
  · exact fun heq => hne _ hmarks.2.1 (heq ▸ hc)
  · exact fun heq => hne _ hmarks.2.2.1 (heq ▸ hc)
  · exact fun heq => hne _ hmarks.2.2.2.1 (heq ▸ hc)

theorem PlainName.inert {name : Text} (h : PlainName name) : Inert name :=
  inert_of_chars h.chars (by decide)

theorem inert_ofNat (n : Nat) : Inert (ofNat n) :=
  inert_of_chars (p := Char.isDigit) (fun _ => isDigit_ofNat) (by decide)

theorem inert_dots {dots : Text} (h : ∀ c ∈ dots, c = '.') : Inert dots := by
  apply inert_of_chars (p := fun c => c == '.') _ (by decide)
  intro c hc
  exact beq_iff_eq.mpr (h c hc)

theorem inert_blank {blank : Text} (h : Blank blank) (hfeed : '\n' ∉ blank) : Inert blank := by
  apply inert_of_chars (p := fun c => isWhitespace c && c != '\n') _ (by decide)
  intro c hc
  have hne : c ≠ '\n' := fun heq => hfeed (heq ▸ hc)
  simp [h c hc, hne]

theorem TypeWord.inert {rtype : Text} (h : TypeWord rtype) : Inert rtype := by
  refine ⟨h.unmarked, h.unnested, ?_⟩
  intro hmem
  have hspace := h.solid '\n' hmem
  exact absurd hspace (by decide)

theorem NameShape.inert {name core dots blank : Text} (h : NameShape name core dots blank)
    (hfeed : '\n' ∉ blank) : Inert name := by
  rw [h.name]
  exact h.core.inert.append ((inert_dots h.dots).append (inert_blank h.blank hfeed))

/-! Logical lines. -/

/-- What stands before the content of a line. -/
theorem inert_lead {owner : Text} (howner : Inert owner) (ttl : UInt32) {rtype : Text}
    (hrtype : TypeWord rtype) :
    Inert (owner ++ '.' :: ' ' :: (ofNat ttl.toNat ++ ' ' :: 'I' :: 'N' :: ' ' :: (rtype ++ [' ']))) := by
  have hdot : Inert ['.', ' '] := inert_of_chars (p := fun c => c == '.' || c == ' ') (by decide)
    (by decide)
  have hclass : Inert [' ', 'I', 'N', ' '] :=
    inert_of_chars (p := fun c => c == ' ' || c == 'I' || c == 'N') (by decide) (by decide)
  have hspace : Inert [' '] := inert_of_chars (p := fun c => c == ' ') (by decide) (by decide)
  have hall := howner.append (hdot.append ((inert_ofNat ttl.toNat).append
    (hclass.append (hrtype.inert.append hspace))))
  simpa using hall

theorem entryText_lead (owner : Text) (ttl : UInt32) (rtype content : Text) :
    entryText owner ttl rtype content =
      (owner ++ '.' :: ' ' :: (ofNat ttl.toNat ++ ' ' :: 'I' :: 'N' :: ' ' :: (rtype ++ [' ']))) ++
        content := by
  simp [entryText, fieldsText]

theorem stripComment_entryText {owner : Text} (howner : Inert owner) (ttl : UInt32) {rtype : Text}
    (hrtype : TypeWord rtype) (content : Text) :
    stripComment false (entryText owner ttl rtype content) =
      entryText owner ttl rtype (stripComment false content) := by
  rw [entryText_lead, (inert_lead howner ttl hrtype).unmarked.stripComment_append, ← entryText_lead]

/-- A line of an export whose content has no parenthesis before a comment. -/
theorem logicalLines_entry {owner : Text} (howner : Inert owner) (hflush : Flush owner) (ttl : UInt32)
    {rtype content : Text} (hrtype : TypeWord rtype) (hfeed : '\n' ∉ content)
    (hunnested : Unnested (stripComment false content)) (rest : Text) :
    logicalLines (entryText owner ttl rtype content ++ '\n' :: rest) =
      trimEnd (entryText owner ttl rtype (stripComment false content)) :: logicalLines rest := by
  have hlead := inert_lead howner ttl hrtype
  have hline : '\n' ∉ entryText owner ttl rtype content := by
    rw [entryText_lead]
    exact fun h => (List.mem_append.mp h).elim hlead.feedless hfeed
  have hstripped := stripComment_entryText howner ttl hrtype content
  rw [logicalLines_line hline, hstripped, completed_flush]
  · rfl
  · exact hflush.append _
  · rw [hstripped, entryText_lead]
    exact hlead.unnested.append hunnested

/-- A line that ends in the middle of a name. -/
theorem logicalLines_alone {core dots blank : Text} (hcore : PlainName core)
    (hdots : ∀ c ∈ dots, c = '.') (hblank : Blank blank) (hfeed : '\n' ∉ blank) (rest : Text) :
    logicalLines (core ++ (dots ++ blank) ++ '\n' :: rest) = (core ++ dots) :: logicalLines rest := by
  have hinert := hcore.inert.append ((inert_dots hdots).append (inert_blank hblank hfeed))
  have hword : Solid (core ++ dots) := hcore.solid.append (solid_dots hdots)
  have hstripped := stripComment_self (hinert.unmarked.hasComment false)
  rw [logicalLines_line hinert.feedless, hstripped, completed_flush (hcore.flush.append _),
    ← List.append_assoc, trimEnd_append_blank _ hblank, hword.trimEnd]
  · rfl
  · rw [hstripped]
    exact hinert.unnested

/-- A blank that has begun, and goes on in its line. -/
theorem blank_snoc {begun : Text} {c : Char} (hbegun : Blank begun) (hfeed : '\n' ∉ begun) (hblank : isWhitespace c = true)
    (hc : c ≠ '\n') : Blank (begun ++ [c]) ∧ '\n' ∉ begun ++ [c] := by
  constructor
  · apply hbegun.append
    intro d hd
    rw [List.mem_singleton.mp hd]
    exact hblank
  · simp [hfeed, Ne.symm hc]

/-- Blank lines, of which the first has begun. -/
theorem logicalLines_blank {blank : Text} (hblank : Blank blank) {begun : Text} (hbegun : Blank begun)
    (hfeed : '\n' ∉ begun) (rest : Text) :
    logicalLines (begun ++ (blank ++ '\n' :: rest)) = logicalLines rest := by
  have hline : ∀ begun rest, Blank begun → '\n' ∉ begun →
      logicalLines (begun ++ '\n' :: rest) = logicalLines rest := by
    intro begun rest hbegun hfeed
    have hinert := inert_blank hbegun hfeed
    have hstripped := stripComment_self (hinert.unmarked.hasComment false)
    rw [logicalLines_line hfeed, hstripped, completed_blank hbegun]
    · rfl
    · rw [hstripped]
      exact hinert.unnested
  induction blank generalizing begun with
  | nil => exact hline begun rest hbegun hfeed
  | cons c blank ih =>
    have hrest : Blank blank := fun d hd => hblank d (List.mem_cons_of_mem _ hd)
    by_cases hc : c = '\n'
    · rw [hc, List.cons_append, hline begun _ hbegun hfeed]
      exact ih hrest blank_nil List.not_mem_nil
    · obtain ⟨hnext, hnone⟩ := blank_snoc hbegun hfeed (hblank c List.mem_cons_self) hc
      have happend : begun ++ (c :: blank ++ '\n' :: rest) =
          (begun ++ [c]) ++ (blank ++ '\n' :: rest) := by simp
      rw [happend]
      exact ih hrest hnext hnone

/-- A dot behind whitespace that may hold line feeds. -/
theorem logicalLines_dot {blank : Text} (hblank : Blank blank) {begun : Text} (hbegun : Blank begun)
    (hfeed : '\n' ∉ begun) (rest : Text) :
    ∃ last, Blank last ∧ logicalLines (begun ++ (blank ++ '.' :: '\n' :: rest)) =
      (last ++ ['.']) :: logicalLines rest := by
  induction blank generalizing begun with
  | nil =>
    have hdot : Inert ['.'] := inert_dots (by simp)
    have hinert := (inert_blank hbegun hfeed).append hdot
    have hstripped := stripComment_self (hinert.unmarked.hasComment false)
    have hsolid : Solid ['.'] := by decide
    have htrim : trimEnd (begun ++ ['.']) = begun ++ ['.'] := by
      rw [trimEnd_append_of_ne, hsolid.trimEnd]
      rw [hsolid.trimEnd]
      exact List.cons_ne_nil _ _
    refine ⟨begun, hbegun, ?_⟩
    have happend : begun ++ ([] ++ '.' :: '\n' :: rest) = (begun ++ ['.']) ++ '\n' :: rest := by simp
    rw [happend, logicalLines_line hinert.feedless, hstripped]
    · unfold completed
      rw [htrim, if_neg (by simp)]
      rfl
    · rw [hstripped]
      exact hinert.unnested
  | cons c blank ih =>
    have hrest : Blank blank := fun d hd => hblank d (List.mem_cons_of_mem _ hd)
    by_cases hc : c = '\n'
    · have hbegins := @logicalLines_blank [] blank_nil _ hbegun hfeed
        (blank ++ '.' :: '\n' :: rest)
      rw [List.nil_append] at hbegins
      rw [hc, List.cons_append, hbegins]
      exact ih hrest blank_nil List.not_mem_nil
    · obtain ⟨hnext, hnone⟩ := blank_snoc hbegun hfeed (hblank c List.mem_cons_self) hc
      have happend : begun ++ (c :: blank ++ '.' :: '\n' :: rest) =
          (begun ++ [c]) ++ (blank ++ '.' :: '\n' :: rest) := by simp
      rw [happend]
      exact ih hrest hnext hnone

end DaygleDns.Authoritative
