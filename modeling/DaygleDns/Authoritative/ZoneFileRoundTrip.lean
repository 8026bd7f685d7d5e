import DaygleDns.Authoritative.ZoneFileRecords

/-! An export read back: the SOA, and which zones come through. -/
namespace DaygleDns.Authoritative

open Text Fallible

/-- The name is one that `create_zone` gave. -/
def NamedByStore (zone : Zone) : Prop :=
  ∃ hickory store input now created after,
    createZone hickory store input now = .ok (created, after) ∧ zone.name = created.name

/-- The numbers of the SOA, each with the comment that is written behind it. -/
def soaNumbers (zone : Zone) : List (UInt32 × Text) :=
  [(zone.serial, "serial"), (zone.refresh, "refresh"), (zone.retry, "retry"),
    (zone.expire, "expire"), (zone.minimum, "minimum")]

def numberText (number : UInt32) : Text := '\t' :: ofNat number.toNat ++ ['\t']

/-- The host and the mailbox, as they stand in the SOA. -/
def soaNames (zone : Zone) : Text := zone.primaryNs ++ ' ' :: zone.adminMailbox

/-- The SOA with its lines joined, its parentheses blanked out and its comments
left out. -/
def soaText (zone : Zone) : Text :=
  soaNames zone ++ ' ' :: ' ' :: ((soaNumbers zone).flatMap fun entry => numberText entry.1) ++ [' ']

def soaEntry (zone : Zone) : RecordInput where
  name := zone.name
  rtype := "SOA"
  content := trim (soaText zone)
  ttl := exportTtl zone

/-- Text that the reader takes as it stands: no parenthesis, even in quotes, and
no semicolon outside of them, where an escaped quote counts as a quote. -/
def Verbatim (s : Text) : Prop := Unnested s ∧ hasComment false s = false

structure Reimports (zone : Zone) (records : List Record) : Prop where
  zoneName : normalizeFqdn zone.name = zone.name
  soa : Verbatim (soaNames zone) ∧ '\n' ∉ soaNames zone
  owners : ∀ record ∈ records, normalizeFqdn record.name = record.name
  contents : ∀ record ∈ records, record.content ≠ [] ∧ Verbatim record.content

/-! The header. -/

theorem trimEnd_directive {word : Text} (hsolid : Solid word) (rest : Text) :
    trimEnd (word ++ rest) = word ++ trimEnd rest := by
  rw [trimEnd_append]
  split
  next h => rw [hsolid.trimEnd, h, List.append_nil]
  next => rfl

theorem parseLine_origin (state : ZoneFileState) (rest : Text) :
    ∃ origin, parseLine state (trimEnd ("$ORIGIN" ++ rest)) = .ok ({ state with origin }, none) := by
  have hword : Solid ("$ORIGIN" : Text) := by decide
  have hflush : Flush (("$ORIGIN" : Text) ++ trimEnd rest) := ⟨'$', _, rfl, by decide⟩
  have hne : trim (("$ORIGIN" : Text) ++ trimEnd rest) ≠ [] := fun hnil =>
    not_blank_of_flush hflush (trim_eq_nil.mp hnil)
  have hupper : stripPrefix ("$ORIGIN" : Text) (toAsciiUppercase ("$ORIGIN" ++ trimEnd rest)) =
      some (toAsciiUppercase (trimEnd rest)) := stripPrefix_eq_some.mpr rfl
  rw [trimEnd_directive hword]
  unfold parseLine
  dsimp only
  rw [trimEnd_directive hword, trimEnd_trimEnd, trimStart_of_flush hflush, if_neg]
  · rw [hupper]
    exact ⟨_, rfl⟩
  · simpa using hne

theorem toAsciiUppercase_ofNat (n : Nat) : toAsciiUppercase (ofNat n) = ofNat n :=
  (List.map_congr_left fun _ hc => toUpper_of_isDigit (isDigit_ofNat hc)).trans (List.map_id _)

theorem parseLine_ttl (state : ZoneFileState) (ttl : UInt32) :
    parseLine state ("$TTL " ++ ofNat ttl.toNat) = .ok ({ state with defaultTtl := ttl }, none) := by
  have hend : trimEnd (("$TTL " : Text) ++ ofNat ttl.toNat) = "$TTL " ++ ofNat ttl.toNat := by
    rw [trimEnd_append_of_ne, (solid_ofNat _).trimEnd]
    rw [(solid_ofNat _).trimEnd]
    exact ofNat_ne_nil _
  have hflush : Flush (("$TTL " : Text) ++ ofNat ttl.toNat) := ⟨'$', _, rfl, by decide⟩
  have hne : trim (("$TTL " : Text) ++ ofNat ttl.toNat) ≠ [] := fun hnil =>
    not_blank_of_flush hflush (trim_eq_nil.mp hnil)
  have hupper : stripPrefix ("$TTL" : Text) (toAsciiUppercase ("$TTL " ++ ofNat ttl.toNat)) =
      some (' ' :: toAsciiUppercase (ofNat ttl.toNat)) := stripPrefix_eq_some.mpr rfl
  have horigin : stripPrefix ("$ORIGIN" : Text) (toAsciiUppercase ("$TTL " ++ ofNat ttl.toNat)) =
      none := rfl
  have hnumber : trim (' ' :: toAsciiUppercase (ofNat ttl.toNat)) = ofNat ttl.toNat := by
    rw [toAsciiUppercase_ofNat]
    exact (solid_ofNat _).trim
  unfold parseLine
  dsimp only
  rw [hend, trimStart_of_flush hflush, if_neg]
  · rw [hupper, horigin]
    dsimp only
    rw [hnumber, parseU32_ofNat]
  · simpa using hne

/-- A text is written out from its first character on. -/
theorem toList_cons {c : Char} {rest : Text} :
    (String.ofList (c :: rest)).toList = c :: (String.ofList rest).toList := by
  rw [String.toList_ofList, String.toList_ofList]

theorem renderHeader_append (zone : Zone) (rest : Text) :
    renderHeader zone ++ rest = ';' :: (" zone file exported by daygle-dns for " ++ zone.name) ++
      '\n' :: (("$ORIGIN " ++ zone.name ++ ['.']) ++
        '\n' :: (("$TTL " ++ ofNat (exportTtl zone).toNat) ++ '\n' :: rest)) := by
  have hcomment : ("; zone file exported by daygle-dns for " : Text) =
      ';' :: " zone file exported by daygle-dns for " := toList_cons
  have horigin : ("\n$ORIGIN " : Text) = '\n' :: "$ORIGIN " := toList_cons
  have httl : (".\n$TTL " : Text) = '.' :: '\n' :: "$TTL " := rfl
  have hend : ("\n" : Text) = ['\n'] := rfl
  unfold renderHeader
  rw [hcomment, horigin, httl, hend]
  simp only [List.append_assoc, List.cons_append, List.nil_append]

/-! The SOA. -/

def numberLine (entry : UInt32 × Text) : Text :=
  numberText entry.1 ++ ';' :: ' ' :: entry.2 ++ ['\n']

theorem renderSoa_append (zone : Zone) (rest : Text) :
    renderSoa zone ++ rest =
      entryText zone.name (exportTtl zone) "SOA" (soaNames zone ++ [' ', '(']) ++
        '\n' :: ((soaNumbers zone).flatMap numberLine ++ ')' :: '\n' :: rest) := by
  unfold renderSoa entryText fieldsText soaNames soaNumbers numberLine numberText
  simp

theorem chomp_of_last {s : Text} (h : s.getLast? ≠ some '\r') : chomp s = s := by
  apply (chomp_cases s).resolve_right
  intro hreturn
  apply h
  rw [hreturn, List.getLast?_concat]

/-- A word that can stand at the end of a comment. -/
structure LabelWord (label : Text) : Prop where
  feedless : '\n' ∉ label
  last : ∃ c, label.getLast? = some c ∧ c ≠ '\r'

/-- Lines of numbers inside of the parentheses. -/
theorem joinLines_numbers {entries : List (UInt32 × Text)} (h : ∀ entry ∈ entries, LabelWord entry.2)
    (current rest : Text) :
    joinLines current 1 (lines (entries.flatMap numberLine ++ rest)) =
      joinLines (current ++ entries.flatMap fun entry => numberText entry.1) 1 (lines rest) := by
  induction entries generalizing current with
  | nil => simp
  | cons entry entries ih =>
    have hlabel := h entry List.mem_cons_self
    have htab : Inert ['\t'] := inert_of_chars (p := fun c => c == '\t') (by decide) (by decide)
    have hnumber : Inert (numberText entry.1) :=
      (htab.append (inert_ofNat entry.1.toNat)).append htab
    have hfeed : '\n' ∉ numberText entry.1 ++ ';' :: ' ' :: entry.2 := by
      simp [hnumber.feedless, hlabel.feedless]
    have hchomp : chomp (numberText entry.1 ++ ';' :: ' ' :: entry.2) =
        numberText entry.1 ++ ';' :: ' ' :: entry.2 := by
      obtain ⟨c, hlast, hc⟩ := hlabel.last
      apply chomp_of_last
      have hassoc : numberText entry.1 ++ ';' :: ' ' :: entry.2 =
          (numberText entry.1 ++ [';', ' ']) ++ entry.2 := by simp
      rw [hassoc, List.getLast?_append, hlast]
      exact fun heq => hc (Option.some.inj heq)
    have hstripped : stripComment false (numberText entry.1 ++ ';' :: ' ' :: entry.2) =
        numberText entry.1 := by
      rw [hnumber.unmarked.stripComment_append, stripComment, if_neg (by decide), if_pos (by decide),
        List.append_nil]
    have htext : (entry :: entries).flatMap numberLine ++ rest =
        (numberText entry.1 ++ ';' :: ' ' :: entry.2) ++
          '\n' :: (entries.flatMap numberLine ++ rest) := by
      simp [numberLine]
    rw [htext, lines_line hfeed, hchomp, joinLines_unnested hnumber.unnested hstripped,
      if_neg (by decide), ih fun other hother => h other (List.mem_cons_of_mem _ hother),
      List.append_assoc, List.flatMap_cons]

theorem soaNumbers_labels (zone : Zone) : ∀ entry ∈ soaNumbers zone, LabelWord entry.2 := by
  intro entry hentry
  have hlabel : entry.2 ∈ (["serial", "refresh", "retry", "expire", "minimum"] : List Text) :=
    List.mem_map_of_mem (f := Prod.snd) hentry
  have hfeed : ∀ label ∈ (["serial", "refresh", "retry", "expire", "minimum"] : List Text),
      '\n' ∉ label := by decide
  have hlast : ∀ label ∈ (["serial", "refresh", "retry", "expire", "minimum"] : List Text),
      label.getLast? ≠ some '\r' ∧ label ≠ [] := by decide
  refine ⟨hfeed _ hlabel, entry.2.getLast (hlast _ hlabel).2,
    List.getLast?_eq_some_getLast _, ?_⟩
  intro heq
  apply (hlast _ hlabel).1
  rw [List.getLast?_eq_some_getLast (hlast _ hlabel).2, heq]

theorem typeWord_soa : TypeWord "SOA" := typeWord_of_known (by decide)

/-- The first line of the SOA opens the parentheses. -/
theorem joinLines_open {zone : Zone} (hname : Inert zone.name) (hnames : Verbatim (soaNames zone))
    (hfeed : '\n' ∉ soaNames zone) (rest : Text) :
    joinLines [] 0 (lines (entryText zone.name (exportTtl zone) "SOA" (soaNames zone ++ [' ', '(']) ++
        '\n' :: rest)) =
      joinLines (entryText zone.name (exportTtl zone) "SOA" (soaNames zone ++ [' ', ' '])) 1
        (lines rest) := by
  have hlead := inert_lead hname (exportTtl zone) typeWord_soa
  have hline : entryText zone.name (exportTtl zone) "SOA" (soaNames zone ++ [' ', '(']) =
      entryText zone.name (exportTtl zone) "SOA" (soaNames zone ++ [' ']) ++ ['('] := by
    simp [entryText, fieldsText]
  have hspace : Unnested [' '] := by
    intro c hc
    rw [List.mem_singleton.mp hc]
    decide
  have hbefore : Unnested (entryText zone.name (exportTtl zone) "SOA" (soaNames zone ++ [' '])) := by
    rw [entryText_lead]
    exact hlead.unnested.append (hnames.1.append hspace)
  have hnofeed : '\n' ∉ entryText zone.name (exportTtl zone) "SOA" (soaNames zone ++ [' ', '(']) := by
    rw [entryText_lead]
    intro hmem
    rcases List.mem_append.mp hmem with hmem | hmem
    · exact hlead.feedless hmem
    · simp [hfeed] at hmem
  have hchomp : chomp (entryText zone.name (exportTtl zone) "SOA" (soaNames zone ++ [' ', '('])) =
      entryText zone.name (exportTtl zone) "SOA" (soaNames zone ++ [' ', '(']) := by
    apply chomp_of_last
    rw [hline, List.getLast?_concat]
    decide
  have hmark : stripComment (quotesAfter false (soaNames zone)) [' ', '('] = [' ', '('] := by
    cases quotesAfter false (soaNames zone) <;> rfl
  have hstripped := stripComment_entryText hname (exportTtl zone) typeWord_soa
    (soaNames zone ++ [' ', '('])
  rw [stripComment_append hnames.2, hmark, hline] at hstripped
  rw [lines_line hnofeed, hchomp, joinLines, hline, hstripped, List.foldl_append,
    hbefore.joinChar, List.foldl_cons, List.foldl_nil]
  have hopened : joinChar ([] ++ entryText zone.name (exportTtl zone) "SOA" (soaNames zone ++ [' ']), 0)
      '(' = (entryText zone.name (exportTtl zone) "SOA" (soaNames zone ++ [' ', ' ']), 1) := by
    simp [joinChar, entryText, fieldsText]
  rw [hopened]
  rfl

theorem joinLines_close (current rest : Text) :
    joinLines current 1 (lines (')' :: '\n' :: rest)) =
      completed (current ++ [' ']) ++ joinLines [] 0 (lines rest) := by
  have hline : lines ([')'] ++ '\n' :: rest) = chomp [')'] :: lines rest := lines_line (by decide) rest
  change joinLines current 1 (lines ([')'] ++ '\n' :: rest)) = _
  rw [hline, joinLines]
  rfl

/-- The SOA of an export whose host and mailbox are taken as they stand. -/
theorem logicalLines_soa {zone : Zone} (hname : Inert zone.name) (hflush : Flush zone.name)
    (hnames : Verbatim (soaNames zone)) (hfeed : '\n' ∉ soaNames zone) (rest : Text) :
    logicalLines (renderSoa zone ++ rest) =
      trimEnd (entryText zone.name (exportTtl zone) "SOA" (soaText zone)) :: logicalLines rest := by
  have hjoined : entryText zone.name (exportTtl zone) "SOA" (soaNames zone ++ [' ', ' ']) ++
      ((soaNumbers zone).flatMap fun entry => numberText entry.1) ++ [' '] =
        entryText zone.name (exportTtl zone) "SOA" (soaText zone) := by
    simp [entryText, fieldsText, soaText]
  have hstart : Flush (entryText zone.name (exportTtl zone) "SOA" (soaText zone)) := hflush.append _
  unfold logicalLines
  rw [renderSoa_append, joinLines_open hname hnames hfeed,
    joinLines_numbers (soaNumbers_labels zone), joinLines_close, hjoined, completed_flush hstart]
  rfl

/-- An SOA whose host or mailbox is not: its numbers are not on its line. -/
theorem logicalLines_brokenSoa {zone : Zone} (hname : Inert zone.name) (hflush : Flush zone.name)
    (hunnested : Unnested (soaNames zone))
    (hbroken : hasComment false (soaNames zone) = true ∨ '\n' ∈ soaNames zone) (rest : Text) :
    ∃ content more, inked content ≤ inked (soaNames zone) ∧
      logicalLines (renderSoa zone ++ rest) =
        trimEnd (entryText zone.name (exportTtl zone) "SOA" content) :: more := by
  have hink : ∀ {a b : Text}, a <+: b → inked a ≤ inked b := fun h => h.sublist.countP_le
  have hstrip := stripComment_leads false (soaNames zone)
  rw [renderSoa_append]
  by_cases hfeed : '\n' ∈ soaNames zone
  · obtain ⟨before, after, hsplit, hbefore⟩ := List.eq_append_cons_of_mem hfeed
    have hlead : before <+: soaNames zone := by
      rw [hsplit]
      exact List.prefix_append _ _
    have hinner : Unnested before := hunnested.subset hlead.subset
    have htext : ∀ tail : Text,
        entryText zone.name (exportTtl zone) "SOA" (soaNames zone ++ [' ', '(']) ++ '\n' :: tail =
          entryText zone.name (exportTtl zone) "SOA" before ++
            '\n' :: (after ++ ' ' :: '(' :: '\n' :: tail) := by
      intro tail
      rw [hsplit]
      simp [entryText, fieldsText]
    rw [htext, logicalLines_entry hname hflush _ typeWord_soa hbefore
      (unnested_stripComment hinner false)]
    exact ⟨_, _, (hink (stripComment_leads false before)).trans (hink hlead), rfl⟩
  · have hcomment := hbroken.resolve_right hfeed
    have hstripped := stripComment_append_comment hcomment [' ', '(']
    have hopen : '\n' ∉ soaNames zone ++ [' ', '('] := by simp [hfeed]
    rw [logicalLines_entry hname hflush _ typeWord_soa hopen, hstripped]
    · exact ⟨_, _, hink hstrip, rfl⟩
    · rw [hstripped]
      exact hunnested.subset hstrip.subset

theorem inked_soaNames_lt (zone : Zone) : inked (soaNames zone) < inked (soaText zone) := by
  have hserial : 0 < inked (ofNat zone.serial.toNat) :=
    ((solid_ofNat _).flush (ofNat_ne_nil _)).inked_pos
  have hsplit : soaText zone = soaNames zone ++ ([' ', ' ', '\t'] ++ (ofNat zone.serial.toNat ++
      ('\t' :: (((soaNumbers zone).drop 1).flatMap fun entry => numberText entry.1) ++ [' ']))) := by
    simp [soaText, soaNumbers, numberText]
  rw [hsplit, inked_append, inked_append, inked_append]
  omega

/-! Export and import. -/

/-- A comment is no logical line. -/
theorem logicalLines_comment {comment : Text} (hfeed : '\n' ∉ comment) (rest : Text) :
    logicalLines (';' :: comment ++ '\n' :: rest) = logicalLines rest := by
  have hstripped : stripComment false (';' :: comment) = [] := by
    rw [stripComment, if_neg (by decide), if_pos (by decide)]
  have hline : '\n' ∉ ';' :: comment := by simp [hfeed]
  rw [logicalLines_line hline, hstripped, completed_blank blank_nil]
  · rfl
  · rw [hstripped]
    exact fun _ hc => absurd hc List.not_mem_nil

/-- A directive is a logical line. -/
theorem logicalLines_directive {line : Text} (hinert : Inert line) (hflush : Flush line)
    (rest : Text) : logicalLines (line ++ '\n' :: rest) = trimEnd line :: logicalLines rest := by
  have hstripped := stripComment_self (hinert.unmarked.hasComment false)
  rw [logicalLines_line hinert.feedless, hstripped, completed_flush hflush]
  · rfl
  · rw [hstripped]
    exact hinert.unnested

theorem inert_origin : Inert ("$ORIGIN " : Text) :=
  inert_of_chars (p := fun c => c.isUpper || c == '$' || c == ' ') (by decide) (by decide)

theorem inert_ttl (ttl : UInt32) : Inert (("$TTL " : Text) ++ ofNat ttl.toNat) := by
  have hword : Inert ("$TTL " : Text) :=
    inert_of_chars (p := fun c => c.isUpper || c == '$' || c == ' ') (by decide) (by decide)
  exact hword.append (inert_ofNat _)

/-- The header leaves no entry. -/
theorem parseLines_header {zone : Zone} (hname : Inert zone.name) :
    ∃ state, ∀ rest, parseLines ⟨[], 3600, []⟩ (logicalLines (renderHeader zone ++ rest)) =
      parseLines state (logicalLines rest) := by
  have horigin : Inert (("$ORIGIN " : Text) ++ zone.name ++ ['.']) :=
    (inert_origin.append hname).append (inert_dots (by simp))
  have hcomment : '\n' ∉ (" zone file exported by daygle-dns for " : Text) ++ zone.name := by
    intro hmem
    rcases List.mem_append.mp hmem with hmem | hmem
    · exact absurd hmem (by decide)
    · exact hname.feedless hmem
  obtain ⟨origin, hline⟩ := parseLine_origin ⟨[], 3600, []⟩ (' ' :: zone.name ++ ['.'])
  refine ⟨{ origin, defaultTtl := exportTtl zone, lastOwner := [] }, fun rest => ?_⟩
  have hend : trimEnd (("$TTL " : Text) ++ ofNat (exportTtl zone).toNat) =
      "$TTL " ++ ofNat (exportTtl zone).toNat := by
    rw [trimEnd_append_of_ne, (solid_ofNat _).trimEnd]
    rw [(solid_ofNat _).trimEnd]
    exact ofNat_ne_nil _
  rw [renderHeader_append, logicalLines_comment hcomment, logicalLines_directive horigin ⟨'$', _, rfl, by decide⟩,
    logicalLines_directive (inert_ttl _) ⟨'$', _, rfl, by decide⟩, hend]
  change parseLines _ (trimEnd ("$ORIGIN" ++ (' ' :: zone.name ++ ['.'])) :: _) = _
  rw [parseLines_none hline, parseLines_none (parseLine_ttl _ _)]

/-- A dot by itself is no record, nor is one behind whitespace where there is no
owner to go on with. -/
theorem parseLine_dot {state : ZoneFileState} (hstate : state.lastOwner = []) {blank : Text}
    (hblank : Blank blank) : ∃ e, parseLine state (blank ++ ['.']) = .error e := by
  have hsolid : Solid ['.'] := by decide
  have hstart : trimStart (blank ++ ['.']) = ['.'] := by
    rw [trimStart_blank_append hblank, trimStart_of_flush (hsolid.flush (List.cons_ne_nil _ _))]
  have hend : trimEnd (blank ++ ['.']) = blank ++ ['.'] := by
    rw [trimEnd_append_of_ne, hsolid.trimEnd]
    rw [hsolid.trimEnd]
    exact List.cons_ne_nil _ _
  have hline : parseLine state (blank ++ ['.']) = parseRecord state (blank ++ ['.']) := by
    unfold parseLine trim
    dsimp only
    rw [hend, hstart, hsolid.trimEnd, if_neg (by decide)]
    rfl
  rw [hline]
  unfold parseRecord splitOwner
  cases blank with
  | nil => exact ⟨_, rfl⟩
  | cons c blank =>
    have hhead : (c :: blank ++ ['.']).head?.any isWhitespace = true := hblank c List.mem_cons_self
    rw [hhead, if_pos rfl, hstate]
    exact ⟨_, rfl⟩

/-- A line feed in the name of the zone breaks the header: the dot behind the
name is a line of its own, or one that begins with whitespace. -/
theorem parseLines_brokenHeader {zone : Zone} {core dots blank : Text}
    (h : NameShape zone.name core dots blank) (hfeed : '\n' ∈ blank) (rest : Text) :
    ∃ e, parseLines ⟨[], 3600, []⟩ (logicalLines (renderHeader zone ++ rest)) = .error e := by
  obtain ⟨before, after, hsplit, hbefore⟩ := List.eq_append_cons_of_mem hfeed
  have hblank : Blank before := fun c hc => h.blank c (by
    rw [hsplit]
    exact List.mem_append_left _ hc)
  have hafter : Blank after := fun c hc => h.blank c (by
    rw [hsplit]
    exact List.mem_append_right _ (List.mem_cons_of_mem _ hc))
  have hinert : Inert (core ++ (dots ++ before)) :=
    h.core.inert.append ((inert_dots h.dots).append (inert_blank hblank hbefore))
  have hcomment : '\n' ∉ (" zone file exported by daygle-dns for " : Text) ++
      (core ++ (dots ++ before)) := by
    intro hmem
    rcases List.mem_append.mp hmem with hmem | hmem
    · exact absurd hmem (by decide)
    · exact hinert.feedless hmem
  have htext : renderHeader zone ++ rest =
      (';' :: ((" zone file exported by daygle-dns for " : Text) ++ (core ++ (dots ++ before)))) ++
        '\n' :: ([] ++ (after ++ '\n' :: ((("$ORIGIN " : Text) ++ (core ++ (dots ++ before))) ++
          '\n' :: ([] ++ (after ++ '.' :: '\n' ::
            (("$TTL " ++ ofNat (exportTtl zone).toNat) ++ '\n' :: rest)))))) := by
    rw [renderHeader_append, h.name, hsplit]
    simp only [List.append_assoc, List.cons_append, List.nil_append]
  obtain ⟨origin, hline⟩ := parseLine_origin ⟨[], 3600, []⟩ (' ' :: (core ++ (dots ++ before)))
  obtain ⟨last, hlast, hdot⟩ := logicalLines_dot hafter blank_nil List.not_mem_nil
    (("$TTL " ++ ofNat (exportTtl zone).toNat) ++ '\n' :: rest)
  rw [htext, logicalLines_comment hcomment, logicalLines_blank hafter blank_nil List.not_mem_nil,
    logicalLines_directive (inert_origin.append hinert) ⟨'$', _, rfl, by decide⟩, hdot]
  change ∃ e, parseLines _ (trimEnd ("$ORIGIN" ++ (' ' :: (core ++ (dots ++ before)))) :: _) = _
  rw [parseLines_none hline]
  obtain ⟨e, herror⟩ := @parseLine_dot { origin, defaultTtl := 3600, lastOwner := [] } rfl _ hlast
  exact ⟨e, parseLines_error herror _⟩

/-- A paren or line feed of the host or the mailbox shows in what is read. -/
theorem unnested_of_trim {s : Text} (h : Unnested (trim s)) : Unnested s := by
  intro c hc
  constructor
  · intro heq
    have hkept : '(' ∈ trim s := (mem_trim (by decide)).mpr (heq ▸ hc)
    exact (h '(' hkept).1 rfl
  · intro heq
    have hkept : ')' ∈ trim s := (mem_trim (by decide)).mpr (heq ▸ hc)
    exact (h ')' hkept).2 rfl

theorem not_blank_soaText (zone : Zone) : ¬ Blank (soaText zone) := by
  intro hblank
  have hless := inked_soaNames_lt zone
  rw [hblank.inked] at hless
  omega

/-- The SOA is on a line whose content is the text above, or has less in it. -/
theorem logicalLines_soa_cases {zone : Zone} (hname : Inert zone.name) (hflush : Flush zone.name)
    (hunnested : Unnested (soaNames zone)) (rest : Text) :
    ∃ content more, logicalLines (renderSoa zone ++ rest) =
        trimEnd (entryText zone.name (exportTtl zone) "SOA" content) :: more ∧
      ((hasComment false (soaNames zone) = false ∧ '\n' ∉ soaNames zone ∧
          content = soaText zone ∧ more = logicalLines rest) ∨
        inked content ≤ inked (soaNames zone)) := by
  by_cases hwhole : hasComment false (soaNames zone) = false ∧ '\n' ∉ soaNames zone
  · refine ⟨_, _, logicalLines_soa hname hflush ⟨hunnested, hwhole.1⟩ hwhole.2 rest, .inl ?_⟩
    exact ⟨hwhole.1, hwhole.2, rfl, rfl⟩
  · have hbroken : hasComment false (soaNames zone) = true ∨ '\n' ∈ soaNames zone := by
      rcases not_and_or.mp hwhole with hcomment | hfeed
      · exact .inl (Bool.not_eq_false _ ▸ hcomment)
      · exact .inr (not_not.mp hfeed)
    obtain ⟨content, more, hless, hlines⟩ := logicalLines_brokenSoa hname hflush hunnested hbroken rest
    exact ⟨content, more, hlines, .inr hless⟩

theorem NamedByStore.nameShape {zone : Zone} (h : NamedByStore zone) :
    (∃ core dots blank, NameShape zone.name core dots blank) ∧ zone.name.getLast? ≠ some '.' := by
  obtain ⟨_, _, _, _, created, _, hcreate, hname⟩ := h
  rw [hname]
  exact createZone_nameShape hcreate

/-- Where no whitespace stands behind the name, no dot does. -/
theorem NamedByStore.dots_nil {zone : Zone} (h : NamedByStore zone) {core dots blank : Text}
    (hshape : NameShape zone.name core dots blank) (hblank : blank = []) : dots = [] := by
  cases hdots : dots using List.reverseRecOn with
  | nil => rfl
  | append_singleton before c =>
    exfalso
    apply h.nameShape.2
    have hc : c = '.' := hshape.dots c (by rw [hdots]; simp)
    rw [hshape.name, hblank, List.append_nil, hdots, ← List.append_assoc, List.getLast?_concat, hc]

theorem NamedByStore.plainName {zone : Zone} (h : NamedByStore zone) {core dots blank : Text}
    (hshape : NameShape zone.name core dots blank) (hblank : blank = []) : PlainName zone.name := by
  rw [hshape.name, h.dots_nil hshape hblank, hblank, List.append_nil, List.append_nil]
  exact hshape.core

/-- The SOA and the records behind the header, where they are read back. -/
theorem reimports_of_parseLines {zone : Zone} {records : List Record} (hzone : NamedByStore zone)
    (hrecords : ∀ record ∈ records, StoredEntry zone record) {core dots blank : Text}
    (hshape : NameShape zone.name core dots blank) (hfeed : '\n' ∉ blank)
    (hnames : Unnested (soaNames zone)) (hcontents : ∀ record ∈ records, Unnested record.content)
    {state : ZoneFileState}
    (hread : parseLines state (logicalLines (renderSoa zone ++ records.flatMap renderRecord)) =
      .ok (soaEntry zone :: records.map importEntry)) : Reimports zone records := by
  have hflush : Flush zone.name := by
    rw [hshape.name]
    exact hshape.core.flush.append _
  obtain ⟨content, more, hlines, hcases⟩ := logicalLines_soa_cases (hshape.inert hfeed) hflush hnames
    (records.flatMap renderRecord)
  rw [hlines] at hread
  have hblank : blank = [] := by
    by_contra hne
    have hdot : (soaEntry zone).rtype = ['.'] := parseLines_spaced hshape hne hread
    change ("SOA" : Text) = ['.'] at hdot
    exact absurd hdot (by decide)
  have hplain := hzone.plainName hshape hblank
  have hcontent : ¬ Blank content := by
    intro hempty
    obtain ⟨e, herror⟩ := parseLine_blank state hplain (exportTtl zone) typeWord_soa hempty
    rw [parseLines_error herror] at hread
    cases hread
  obtain ⟨hentry, hlater⟩ := parseLines_first
    (parseLine_entry state hplain (exportTtl zone) typeWord_soa hcontent) hread
  have htrim : trim content = trim (soaText zone) := congrArg RecordInput.content hentry
  rcases hcases with ⟨hcomment, hnofeed, _, hmore⟩ | hless
  · rw [hmore] at hlater
    have hsurvive := (parseLines_records_iff hrecords hcontents _).mp hlater
    refine ⟨hplain.normalized, ⟨⟨hnames, hcomment⟩, hnofeed⟩,
      fun record hrecord => (hsurvive record hrecord).owner, fun record hrecord => ?_⟩
    exact ⟨(hsurvive record hrecord).nonempty, hcontents record hrecord,
      (hsurvive record hrecord).uncommented⟩
  · have hmarks := congrArg inked htrim
    rw [inked_trim, inked_trim] at hmarks
    have hmore := inked_soaNames_lt zone
    omega

/-- The SOA and the records behind the header, of a zone that comes through. -/
theorem parseLines_of_reimports {zone : Zone} {records : List Record} (hzone : NamedByStore zone)
    (hrecords : ∀ record ∈ records, StoredEntry zone record) (h : Reimports zone records)
    (state : ZoneFileState) :
    parseLines state (logicalLines (renderSoa zone ++ records.flatMap renderRecord)) =
      .ok (soaEntry zone :: records.map importEntry) := by
  obtain ⟨⟨core, dots, blank, hshape⟩, _⟩ := hzone.nameShape
  have hplain := hzone.plainName hshape (hshape.normal_iff.mp h.zoneName).2
  have hsurvive : ∀ record ∈ records, Survives record := fun record hrecord =>
    ⟨h.owners record hrecord, (h.contents record hrecord).1, (h.contents record hrecord).2.2⟩
  have hunnested : ∀ record ∈ records, Unnested record.content :=
    fun record hrecord => (h.contents record hrecord).2.1
  rw [logicalLines_soa hplain.inert hplain.flush h.soa.1 h.soa.2, parseLines_ok
    (parseLine_entry state hplain (exportTtl zone) typeWord_soa (not_blank_soaText zone)),
    (parseLines_records_iff hrecords hunnested _).mpr hsurvive]
  rfl

/-- What is exported is imported again, the SOA and every record, exactly when
all of it is text that the reader takes as it stands. -/
theorem exported_imports_iff {zone : Zone} {records : List Record} (hzone : NamedByStore zone)
    (hrecords : ∀ record ∈ records, StoredEntry zone record) :
    parseZoneFile (renderZoneFile zone records) =
      .ok (soaEntry zone :: records.map importEntry) ↔ Reimports zone records := by
  obtain ⟨⟨core, dots, blank, hshape⟩, _⟩ := hzone.nameShape
  have htext : renderZoneFile zone records =
      renderHeader zone ++ (renderSoa zone ++ records.flatMap renderRecord) := by
    unfold renderZoneFile
    rw [List.append_assoc]
  constructor
  · intro hread
    have hchars := parseZoneFile_chars hread
    have hnames : Unnested (soaNames zone) := by
      apply (unnested_of_trim (hchars _ List.mem_cons_self).1).subset
      intro c hc
      unfold soaText
      exact List.mem_append_left _ (List.mem_append_left _ hc)
    have hcontents : ∀ record ∈ records, Unnested record.content := by
      intro record hrecord
      exact (hchars _ (List.mem_cons_of_mem _ (List.mem_map_of_mem hrecord))).1
    unfold parseZoneFile at hread
    rw [htext] at hread
    by_cases hfeed : '\n' ∈ blank
    · obtain ⟨e, herror⟩ := parseLines_brokenHeader hshape hfeed
        (renderSoa zone ++ records.flatMap renderRecord)
      rw [herror] at hread
      cases hread
    · obtain ⟨state, hheader⟩ := parseLines_header (hshape.inert hfeed)
      rw [hheader] at hread
      exact reimports_of_parseLines hzone hrecords hshape hfeed hnames hcontents hread
  · intro h
    have hplain := hzone.plainName hshape (hshape.normal_iff.mp h.zoneName).2
    obtain ⟨state, hheader⟩ := parseLines_header hplain.inert
    unfold parseZoneFile
    rw [htext, hheader]
    exact parseLines_of_reimports hzone hrecords h state

/-- A text record of the example zone, stored under its id. -/
def textInput (content : Text) : RecordInput where
  name := "www"
  rtype := "TXT"
  content := content

def textRecord (content : Text) : Record := storedRow 0 "example.com" (textInput content) 0 1

theorem namedByStore_exampleCom : NamedByStore .exampleCom := by
  have hcreated : (createZone .acceptAll .empty { name := "example.com" } 0).map
      (fun created => created.1.name) = .ok Zone.exampleCom.name := by decide
  cases hcreate : createZone .acceptAll .empty { name := "example.com" } 0 with
  | error e =>
    rw [hcreate] at hcreated
    cases hcreated
  | ok created =>
    rw [hcreate] at hcreated
    exact ⟨_, _, _, _, created.1, created.2, hcreate, (Except.ok.inj hcreated).symm⟩

theorem storedEntry_textRecord {content : Text}
    (hcheck : checkContent .acceptAll .exampleCom 0 (qualifyName "www" "example.com") "TXT"
      (trim content) false = .ok (trim content)) (hfeed : '\n' ∉ (textRecord content).content) :
    StoredEntry .exampleCom (textRecord content) := by
  have hname : validateOwnerName (qualifyName "www" "example.com") = .ok () := by decide
  have hknown : toAsciiUppercase ("TXT" : Text) ∈ knownRecordTypes := by decide
  refine ⟨⟨.acceptAll, .exampleCom, 0, textInput content, 0, _, _,
    insertRecordInTx_eq_ok.mpr ⟨⟨hknown, hname, _, hcheck⟩, rfl, rfl⟩, rfl, rfl, rfl⟩, rfl, hfeed⟩

/-- Parentheses in a quoted string come back as spaces. -/
theorem exported_imports_fails : ∃ record, StoredEntry .exampleCom record ∧
    record.content = ("\"a(b)\"" : String).toList ∧
    ∃ soa entry, parseZoneFile (renderZoneFile .exampleCom [record]) = .ok [soa, entry] ∧
      entry.content = ("\"a b \"" : String).toList := by
  have hcheck : checkContent .acceptAll .exampleCom 0 (qualifyName "www" "example.com") "TXT"
      (trim ("\"a(b)\"" : Text)) false = .ok (trim ("\"a(b)\"" : Text)) := by decide
  have hread : (parseZoneFile (renderZoneFile .exampleCom [textRecord "\"a(b)\""])).map (·.tail.map RecordInput.content) =
      .ok [("\"a b \"" : String).toList] := by
    decide +kernel
  obtain ⟨entries, hentries, hcontents⟩ := Fallible.map_eq_ok.mp hread
  cases entries with
  | nil => cases hcontents
  | cons soa rest =>
    obtain ⟨entry, rfl, hcontent⟩ := List.map_eq_singleton_iff.mp hcontents.symm
    exact ⟨_, storedEntry_textRecord hcheck (by decide), by decide, soa, entry, hentries, hcontent⟩

theorem exported_imports_iff_text :
    parseZoneFile (renderZoneFile .exampleCom [textRecord "\"a;b\""]) =
      .ok (soaEntry .exampleCom :: [textRecord "\"a;b\""].map importEntry) := by
  have hcheck : checkContent .acceptAll .exampleCom 0 (qualifyName "www" "example.com") "TXT"
      (trim ("\"a;b\"" : Text)) false = .ok (trim ("\"a;b\"" : Text)) := by decide
  have hnames : ∀ c ∈ soaNames .exampleCom, c ≠ '(' ∧ c ≠ ')' := by decide
  have hcontent : ∀ c ∈ (textRecord "\"a;b\"").content, c ≠ '(' ∧ c ≠ ')' := by decide
  apply (exported_imports_iff namedByStore_exampleCom ?_).mpr
  · refine ⟨by decide, ⟨⟨hnames, by decide⟩, by decide⟩, ?_, ?_⟩
    all_goals
      intro record hrecord
      rw [List.mem_singleton.mp hrecord]
    · decide
    · exact ⟨by decide, hcontent, by decide⟩
  · intro record hrecord
    rw [List.mem_singleton.mp hrecord]
    exact storedEntry_textRecord hcheck (by decide)

end DaygleDns.Authoritative
