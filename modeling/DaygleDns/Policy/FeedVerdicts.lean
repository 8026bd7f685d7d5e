import DaygleDns.Authoritative.NameFacts
import DaygleDns.Fallible
import DaygleDns.Policy.GroupClients
import DaygleDns.Policy.Blocklist
import DaygleDns.Policy.FeedReaders

/-! Response policy zones read as lists: the texts for which the list blocks what the zone blocks. -/
namespace DaygleDns.Policy

open Text Fallible
open Authoritative (CompiledZone LocalRecord RpzAction RdataReader actionOf cnameOf groupRecords nameTrigger addressTrigger
  pushRecord ruleKey ruleWrites textRecords)

/-- A trigger on the names that are queried: not on addresses and name servers. -/
structure QnameTrigger (name : Text) : Prop where
  plain : ∀ c ∈ name, '!' ≤ c ∧ c ≤ '~' ∧ c ≠ '@'
  nonempty : name ≠ []
  last : name.getLast? ≠ some '.'
  queried : ((name.splitOn '.').getLast?.map "rpz-".toList.isPrefixOf).getD false = false

instance (name : Text) : Decidable (QnameTrigger name) :=
  decidable_of_iff ((∀ c ∈ name, '!' ≤ c ∧ c ≤ '~' ∧ c ≠ '@') ∧ name ≠ [] ∧ name.getLast? ≠ some '.' ∧
      ((name.splitOn '.').getLast?.map "rpz-".toList.isPrefixOf).getD false = false)
    ⟨fun h => ⟨h.1, h.2.1, h.2.2.1, h.2.2.2⟩, fun h => ⟨h.plain, h.nonempty, h.last, h.queried⟩⟩

/-! What is read of a record. -/

theorem readTrigger_eq_some {origin : Option Text} {owner : Text} {fields : List Text} {record : RpzRecord}
    (h : (readTrigger origin owner fields).2 = some record) :
    toAsciiLowercase record.name = record.name ∧ record.rtype ≠ "SOA".toList ∧ record.rtype ≠ "NS".toList := by
  unfold readTrigger at h
  split at h
  · split at h <;> cases h
  split at h
  · cases h
  split at h
  · cases h
  dsimp only at h
  split at h
  · cases h
  next hsoa =>
    split at h
    · cases h
    next hns =>
      have ⟨name, hname, hrecord⟩ := Option.map_eq_some_iff.mp h
      rw [← hrecord]
      refine ⟨?_, hsoa, fun h => hns (.inl h)⟩
      unfold relativeOwner at hname
      split at hname
      · cases hname
        exact toAsciiLowercase_idem owner
      next absolute habsolute =>
        split at hname
        · cases hname
        split at hname
        · cases hname
        · have hlower := toAsciiLowercase_idem owner
          rw [stripSuffix_eq_some.mp habsolute, stripSuffix_eq_some.mp hname] at hlower
          simp only [toAsciiLowercase_append, List.append_assoc] at hlower
          exact (List.append_inj hlower (by simp [toAsciiLowercase])).1

/-- Every record that is read has a name in lower case, and is no SOA or NS record. -/
theorem rpzRecords_read {text : Text} {record : RpzRecord} (h : record ∈ rpzRecords text) :
    toAsciiLowercase record.name = record.name ∧ record.rtype ≠ "SOA".toList ∧ record.rtype ≠ "NS".toList := by
  unfold rpzRecords at h
  generalize zoneRecords text = read at h
  induction read using List.reverseRecOn with
  | nil => cases h
  | append_singleton read item ih =>
    rw [List.foldl_append, List.foldl_cons, List.foldl_nil, List.mem_append] at h
    cases h with
    | inl hread => exact ih hread
    | inr hitem => exact readTrigger_eq_some (Option.mem_toList.mp hitem)

/-! The names that are listed. -/

/-- The list takes the trigger over: it has at least two labels, a record that blocks, and none that exempts. -/
def Kept (records : List RpzRecord) (name : Text) : Prop :=
  '.' ∈ name ∧ (∃ record ∈ records, record.name = name ∧ record.isPassthru = false ∧ record.isTcpOnly = false) ∧
    ∀ record ∈ records, record.name = name → record.isPassthru = false

theorem getLast?_splitOn {d : Char} {label : Text} (h : d ∉ label) (lead : Text) :
    ((lead ++ d :: label).splitOn d).getLast? = some label := by
  have hlabel : label.splitOnP (· == d) = [label] := by
    apply List.splitOnP_eq_singleton
    intro c hc
    exact beq_false_of_ne fun hsame => h (hsame ▸ hc)
  have hlead := @List.splitOnP_append_cons _ (· == d) lead label d BEq.rfl
  rw [List.splitOn_eq_splitOnP, hlead, hlabel]
  simp

theorem QnameTrigger.skips {name : Text} (h : QnameTrigger name) : skipsTrigger name = false ↔ '.' ∈ name := by
  have hspecial : ((name.splitOn '.').getLast?.map specialTriggers.contains).getD false = false := by
    have hqueried := h.queried
    cases hlast : (name.splitOn '.').getLast? with
    | none => rfl
    | some label =>
      rw [hlast] at hqueried
      simp only [Option.map_some, Option.getD_some] at hqueried ⊢
      rw [← Bool.not_eq_true, List.contains_iff_mem]
      intro hmem
      simp only [specialTriggers, List.mem_cons, List.not_mem_nil, or_false] at hmem
      obtain rfl | rfl | rfl | rfl | rfl := hmem <;> exact absurd hqueried (by decide)
  unfold skipsTrigger
  rw [hspecial, Bool.or_false, Bool.or_eq_false_iff, Bool.and_eq_false_iff]
  constructor
  · intro ⟨_, hdot⟩
    cases hdot with
    | inl helem => simpa using helem
    | inr hwild =>
      rw [Bool.not_eq_false'] at hwild
      have ⟨rest, hrest⟩ := List.isPrefixOf_iff_prefix.mp hwild
      rw [← hrest]
      exact List.mem_append_left _ (by decide)
  · intro hdot
    constructor
    · apply beq_false_of_ne
      intro hsame
      rw [hsame] at hdot
      exact absurd hdot (by decide)
    · left
      simpa using hdot

theorem QnameTrigger.solid {name : Text} (h : QnameTrigger name) : Solid name := by
  intro c hc
  have ⟨hlow, hhigh, _⟩ := h.plain c hc
  have hlow : 33 ≤ c.toNat := hlow
  have hhigh : c.toNat ≤ 126 := hhigh
  unfold isWhitespace
  rw [Bool.eq_false_iff, Ne, Bool.or_eq_true]
  simp only [Bool.or_eq_true, Bool.and_eq_true, decide_eq_true_eq, beq_iff_eq]
  omega

theorem QnameTrigger.ascii {name : Text} (h : QnameTrigger name) : isAscii name = true := by
  apply List.all_eq_true.mpr
  intro c hc
  have hhigh : c.toNat ≤ 126 := (h.plain c hc).2.1
  exact decide_eq_true (by omega)

theorem mem_listed (name : Text) (records : List RpzRecord) :
    let listed := records.foldl listRecord (TextSet.empty, TextSet.empty)
    (name ∈ listed.1.rows ↔ skipsTrigger name = false ∧
        ∃ record ∈ records, record.name = name ∧ record.isPassthru = false ∧ record.isTcpOnly = false) ∧
      (name ∈ listed.2.rows ↔ skipsTrigger name = false ∧
        ∃ record ∈ records, record.name = name ∧ record.isPassthru = true) := by
  induction records using List.reverseRecOn with
  | nil => simp [TextSet.empty, OrderedTable.empty]
  | append_singleton records record ih =>
    simp only [List.foldl_append, List.foldl_cons, List.foldl_nil]
    generalize records.foldl listRecord (TextSet.empty, TextSet.empty) = listed at ih
    unfold listRecord
    simp only [List.mem_append, List.mem_singleton, or_and_right, exists_or, exists_eq_left]
    by_cases hname : record.name = name
    · rw [hname]
      cases hskips : skipsTrigger name <;> cases hpass : record.isPassthru <;> cases htcp : record.isTcpOnly <;>
        simp_all [OrderedTable.mem_put]
    · cases hskips : skipsTrigger record.name <;> cases hpass : record.isPassthru <;> cases htcp : record.isTcpOnly <;>
        simp [OrderedTable.mem_put, hname, Ne.symm hname, ih]

variable {records : List RpzRecord} (libs : Libraries)

/-- In a text of triggers on queried names the list has those that it takes over, as they are. -/
theorem mem_parseRpz {text : Text} (h : ∀ record ∈ rpzRecords text, QnameTrigger record.name) (name : Text) :
    name ∈ (parseRpz libs text).rows ↔ Kept (rpzRecords text) name := by
  have hnormal : ∀ record ∈ rpzRecords text,
      toAsciiLowercase (toAsciiDomain libs (trimEndMatches '.' (trim record.name))) = record.name := by
    intro record hrecord
    have hplain := h record hrecord
    rw [hplain.solid.trim, trimEndMatches_of_last hplain.last, toAsciiDomain, if_pos hplain.ascii]
    exact (rpzRecords_read hrecord).1
  have hkept : ∀ name, (name ∈ ((rpzRecords text).foldl listRecord (TextSet.empty, TextSet.empty)).1.rows ∧
      ¬((rpzRecords text).foldl listRecord (TextSet.empty, TextSet.empty)).2.contains name = true) ↔
      Kept (rpzRecords text) name := by
    intro name
    rw [OrderedTable.contains_iff, (mem_listed name _).1, (mem_listed name _).2]
    constructor
    · rintro ⟨⟨hskips, record, hrecord, hname, hblocks⟩, hspared⟩
      refine ⟨(hname ▸ (h record hrecord)).skips.mp hskips, ⟨record, hrecord, hname, hblocks⟩, ?_⟩
      intro other hother hsame
      rw [← Bool.not_eq_true]
      exact fun hpass => hspared ⟨hskips, other, hother, hsame, hpass⟩
    · rintro ⟨hdot, ⟨record, hrecord, hname, hblocks⟩, hspared⟩
      have hskips : skipsTrigger name = false := (hname ▸ (h record hrecord)).skips.mpr hdot
      refine ⟨⟨hskips, record, hrecord, hname, hblocks⟩, ?_⟩
      rintro ⟨_, other, hother, hsame, hpass⟩
      rw [hspared other hother hsame] at hpass
      cases hpass
  unfold parseRpz normalizeDomains
  simp only [OrderedTable.mem_putAll, TextSet.empty, OrderedTable.empty, List.not_mem_nil, or_false, List.mem_filter,
    List.mem_map]
  constructor
  · rintro ⟨⟨raw, hraw, hname⟩, _⟩
    rw [Bool.not_eq_true', ← Bool.not_eq_true] at hraw
    have hin := (hkept raw).mp hraw
    obtain ⟨record, hrecord, hsame, _⟩ := hin.2.1
    rw [← hsame, hnormal record hrecord, hsame] at hname
    exact hname ▸ hin
  · intro hin
    obtain ⟨record, hrecord, hsame, _⟩ := hin.2.1
    have hraw := (hkept name).mpr hin
    refine ⟨⟨name, ⟨hraw.1, ?_⟩, ?_⟩, ?_⟩
    · rw [Bool.not_eq_true', ← Bool.not_eq_true]
      exact hraw.2
    · rw [← hsame]
      exact hnormal record hrecord
    · simpa [← hsame] using (h record hrecord).nonempty

/-- A trigger that the list takes over covers the name. -/
def UnderKept (records : List RpzRecord) (name : Text) : Prop :=
  ∃ pattern, Kept records pattern ∧ PatternCovers pattern name

/-- The list of the text blocks the names under the triggers that it takes over. -/
theorem contains_parseRpz {text : Text} (h : ∀ record ∈ rpzRecords text, QnameTrigger record.name) (name : Text) :
    (Blocklist.fromSet (parseRpz libs text)).contains name = true ↔ UnderKept (rpzRecords text) name := by
  have hunmarked : ∀ pattern, Kept (rpzRecords text) pattern → ∀ rest, pattern ≠ exceptionPrefix ++ rest := by
    intro pattern hkept rest hmarked
    obtain ⟨record, hrecord, hname, _⟩ := hkept.2.1
    rw [← hname] at hmarked
    exact ((h record hrecord).plain '@' (hmarked ▸ List.mem_cons_self)).2.2 rfl
  rw [Blocklist.contains_iff_covered]
  constructor
  · intro ⟨⟨entry, hentry, _, hcovers⟩, _⟩
    exact ⟨entry, (mem_parseRpz libs h entry).mp hentry, hcovers⟩
  · intro ⟨pattern, hkept, hcovers⟩
    constructor
    · refine ⟨pattern, (mem_parseRpz libs h pattern).mpr hkept, ?_, hcovers⟩
      unfold Unmarked
      cases hmarked : stripPrefix exceptionPrefix pattern with
      | none => rfl
      | some rest => exact absurd (stripPrefix_eq_some.mp hmarked) (hunmarked pattern hkept rest)
    · intro ⟨entry, hentry, rest, hmarked, _⟩
      exact hunmarked entry ((mem_parseRpz libs h entry).mp hentry) rest hmarked

/-! The zone that is made of the text. -/

/-- What the zone has at a trigger. -/
def recordsAt (zone : Text) (records : List (Text × LocalRecord)) (trigger : Text) : List LocalRecord :=
  (records.filter fun item => triggerOf zone item = some trigger).map Prod.snd

/-- What the zone does at a trigger. -/
def actionAt (zone : Text) (records : List (Text × LocalRecord)) (trigger : Text) : RpzAction :=
  actionOf trigger (lowerZone zone) (recordsAt zone records trigger)

theorem lookup_pushRecord (trigger : Text) (record : LocalRecord) (grouped : List (Text × List LocalRecord)) (name : Text) :
    (pushRecord trigger record grouped).lookup name =
      if trigger = name then some ((grouped.lookup name).getD [] ++ [record]) else grouped.lookup name := by
  induction grouped with
  | nil =>
    rw [pushRecord, List.lookup_cons]
    by_cases hname : trigger = name
    · simp [hname]
    · rw [if_neg hname, beq_eq_false_iff_ne.mpr (Ne.symm hname)]
  | cons group rest ih =>
    rw [pushRecord]
    by_cases hgroup : group.1 = trigger
    · rw [if_pos hgroup, List.lookup_cons, List.lookup_cons, hgroup]
      by_cases hname : trigger = name
      · simp [hname]
      · rw [if_neg hname, beq_eq_false_iff_ne.mpr (Ne.symm hname)]
    · rw [if_neg hgroup, List.lookup_cons, List.lookup_cons, ih]
      by_cases hname : trigger = name
      · rw [← hname, beq_eq_false_iff_ne.mpr (Ne.symm hgroup)]
      · rw [if_neg hname, if_neg hname]

variable {zone : Text} {rules : List (Text × LocalRecord)}

/-- The groups of the zone are the triggers with their records. -/
theorem lookup_groupRecords (zone : Text) (rules : List (Text × LocalRecord)) (trigger : Text) :
    (groupRecords zone rules).lookup trigger =
      if recordsAt zone rules trigger = [] then none else some (recordsAt zone rules trigger) := by
  induction rules using List.reverseRecOn with
  | nil => rfl
  | append_singleton rules item ih =>
    have hgroups : groupRecords zone (rules ++ [item]) =
        (triggerOf zone item).elim (groupRecords zone rules) fun found => pushRecord found item.2 (groupRecords zone rules) := by
      unfold triggerOf placeUnder lowerZone
      simp only [groupRecords, List.foldl_append, List.foldl_cons, List.foldl_nil]
      split_ifs <;> rfl
    have hat : recordsAt zone (rules ++ [item]) trigger =
        if triggerOf zone item = some trigger then recordsAt zone rules trigger ++ [item.2] else recordsAt zone rules trigger := by
      unfold recordsAt
      by_cases hitem : triggerOf zone item = some trigger <;> simp [hitem]
    rw [hgroups, hat]
    cases hitem : triggerOf zone item with
    | none => simpa using ih
    | some found =>
      rw [Option.elim_some, lookup_pushRecord, ih]
      by_cases hfound : found = trigger
      · rw [if_pos hfound, if_pos (congrArg some hfound), if_neg (List.concat_ne_nil _ _)]
        split
        next hnil => rw [hnil]; rfl
        next => rfl
      · rw [if_neg hfound, if_neg fun h => hfound (Option.some.inj h)]

/-- A group is a trigger with all its records. -/
theorem mem_groupRecords (group : Text × List LocalRecord) :
    group ∈ groupRecords zone rules ↔ recordsAt zone rules group.1 ≠ [] ∧ group.2 = recordsAt zone rules group.1 := by
  have hlookup := lookup_groupRecords zone rules group.1
  constructor
  · intro hgroup
    have hsome : recordsAt zone rules group.1 ≠ [] := by
      intro hnil
      rw [if_pos hnil, List.lookup_eq_none_iff] at hlookup
      simpa using hlookup group hgroup
    rw [if_neg hsome] at hlookup
    obtain ⟨before, after, hgroups, _⟩ := List.lookup_eq_some_iff.mp hlookup
    have hmem : (group.1, recordsAt zone rules group.1) ∈ groupRecords zone rules := by simp [hgroups]
    have hsame := List.inj_on_of_nodup_map (Authoritative.nodup_groupRecords _ _) hgroup hmem rfl
    exact ⟨hsome, congrArg Prod.snd hsame⟩
  · rintro ⟨hsome, hrecords⟩
    rw [if_neg hsome, ← hrecords] at hlookup
    obtain ⟨before, after, hgroups, _⟩ := List.lookup_eq_some_iff.mp hlookup
    simp [hgroups]

theorem QnameTrigger.no_suffix {name : Text} (h : QnameTrigger name) (label : Text) (hdot : '.' ∉ label)
    (hspecial : "rpz-".toList.isPrefixOf label = true) : stripSuffix ('.' :: label) name = none := by
  cases hstrip : stripSuffix ('.' :: label) name with
  | none => rfl
  | some lead =>
    have hqueried := h.queried
    rw [stripSuffix_eq_some.mp hstrip, getLast?_splitOn hdot] at hqueried
    rw [Option.map_some, Option.getD_some, hspecial] at hqueried
    cases hqueried

theorem QnameTrigger.ruleKey_eq {name : Text} (h : QnameTrigger name) : ruleKey name =
    match stripPrefix wildcardPrefix name with
    | some suffix => some (.name .wildcard suffix)
    | none => if name = "*".toList then none else some (.name .exact name) := by
  have hclient : stripSuffix ".rpz-client-ip".toList name = none := h.no_suffix "rpz-client-ip".toList (by decide) (by decide)
  have hresponse : stripSuffix ".rpz-ip".toList name = none := h.no_suffix "rpz-ip".toList (by decide) (by decide)
  have hns : stripSuffix ".rpz-nsip".toList name = none := h.no_suffix "rpz-nsip".toList (by decide) (by decide)
  have hdname : stripSuffix ".rpz-nsdname".toList name = none := h.no_suffix "rpz-nsdname".toList (by decide) (by decide)
  have haddress : addressTrigger name = none := by
    unfold addressTrigger
    rw [hclient, hresponse, hns]
    rfl
  have hname : nameTrigger name =
      match stripPrefix wildcardPrefix name with
      | some suffix => some (.wildcard, suffix)
      | none => if name = "*".toList then none else some (.exact, name) := by
    unfold nameTrigger
    rw [hdname]
    dsimp only
    rw [h.queried, if_neg Bool.false_ne_true]
    rfl
  rw [ruleKey, haddress, hname]
  dsimp only
  cases stripPrefix wildcardPrefix name with
  | some suffix => rfl
  | none =>
    dsimp only
    split <;> rfl

/-- Whether the name is looked up as it is, and is no wildcard. -/
def ExactName (name : Text) : Prop := stripPrefix wildcardPrefix name = none ∧ name ≠ "*".toList

theorem QnameTrigger.ruleKey_exact {name found : Text} (h : QnameTrigger name) :
    ruleKey name = some (.name .exact found) ↔ name = found ∧ ExactName found := by
  rw [h.ruleKey_eq]
  unfold ExactName
  cases hwild : stripPrefix wildcardPrefix name with
  | some suffix =>
    simp only [Option.some.injEq, Authoritative.RuleKey.name.injEq, reduceCtorEq, false_and, false_iff]
    intro ⟨hsame, hnone, _⟩
    rw [← hsame, hwild] at hnone
    cases hnone
  | none =>
    by_cases hstar : name = "*".toList
    · simp only [if_pos hstar, reduceCtorEq, false_iff]
      exact fun ⟨hsame, _, hother⟩ => hother (hsame ▸ hstar)
    · simp only [if_neg hstar, Option.some.injEq, Authoritative.RuleKey.name.injEq, true_and]
      constructor
      · intro hsame
        exact ⟨hsame, hsame ▸ hwild, hsame ▸ hstar⟩
      · exact And.left

theorem QnameTrigger.ruleKey_wildcard {name suffix : Text} (h : QnameTrigger name) :
    ruleKey name = some (.name .wildcard suffix) ↔ name = wildcardPrefix ++ suffix := by
  rw [h.ruleKey_eq, ← stripPrefix_eq_some]
  cases hwild : stripPrefix wildcardPrefix name with
  | some found => simp
  | none =>
    dsimp only
    split <;> simp

theorem trigger_of_nameKey {trigger name : Text} {kind : Authoritative.NameKind}
    (h : ruleKey trigger = some (.name kind name)) : trigger = Authoritative.spellName kind name := by
  obtain ⟨_, _, net, _, _, hkey⟩ | ⟨_, _, hname, hkey⟩ := Authoritative.ruleKey_cases h
  · cases net <;> cases hkey
  · cases hkey
    exact Authoritative.spell_of_nameTrigger hname

theorem mem_shuffled (order : Shuffle (Text × List LocalRecord)) (group : Text × List LocalRecord) :
    group ∈ order.shuffle (groupRecords zone rules) ↔
      recordsAt zone rules group.1 ≠ [] ∧ group.2 = recordsAt zone rules group.1 := by
  rw [(order.perm _).mem_iff, mem_groupRecords]

/-- What the tables of the zone hold for a trigger that has records. -/
theorem get_of_trigger (order : Shuffle (Text × List LocalRecord)) {kind : Authoritative.NameKind} {name trigger : Text}
    (hkey : ruleKey trigger = some (.name kind name)) (hrecords : recordsAt zone rules trigger ≠ []) :
    (CompiledZone.fromRecords order zone rules).get (.name kind name) = some (actionAt zone rules trigger) := by
  have hgroup := (mem_shuffled order (trigger, recordsAt zone rules trigger)).mpr ⟨hrecords, rfl⟩
  obtain ⟨item, hitem, hwritten, hget⟩ := (ruleWrites (lowerZone zone)).get_run_of_written ⟨_, hgroup, hkey⟩ CompiledZone.empty
  have hsame : item.1 = trigger := (trigger_of_nameKey hwritten).trans (trigger_of_nameKey hkey).symm
  refine hget.trans (congrArg some ?_)
  change actionOf item.1 _ item.2 = _
  rw [((mem_shuffled order item).mp hitem).2, hsame]
  rfl

theorem get_of_no_trigger (order : Shuffle (Text × List LocalRecord)) {kind : Authoritative.NameKind} {name : Text}
    (h : ∀ trigger, ruleKey trigger = some (.name kind name) → recordsAt zone rules trigger = []) :
    (CompiledZone.fromRecords order zone rules).get (.name kind name) = none := by
  have hother : ∀ item ∈ order.shuffle (groupRecords zone rules),
      (ruleWrites (lowerZone zone)).key item ≠ some (.name kind name) :=
    fun item hitem hwritten => ((mem_shuffled order item).mp hitem).1 (h item.1 hwritten)
  refine ((ruleWrites (lowerZone zone)).get_run_of_not_written hother CompiledZone.empty).trans ?_
  cases kind <;> rfl

/-! The closest trigger. -/

/-- The action keeps a client off the name. -/
def Blocks (action : RpzAction) : Prop := action ≠ .passthru ∧ action ≠ .tcpOnly

/-- The trigger that decides the name in the zone keeps clients off it. -/
def ZoneBlocks (compiled : CompiledZone) (name : Text) : Prop :=
  ∃ trigger action, compiled.qname name = some (trigger, action) ∧ Blocks action

theorem authoritative_parents (name : Text) : Authoritative.parents name = parents name := by
  induction name with
  | nil => rfl
  | cons c rest ih =>
    by_cases hdot : c = '.'
    · rw [hdot, Authoritative.parents, ih]
      rfl
    · rw [Authoritative.parents, parents, if_neg (by simpa using hdot), ih]
      exact fun h => hdot h

/-- The closest of the parents that are asked for. -/
theorem exists_closest (wanted : Text → Prop) {name : Text} (h : ∃ parent ∈ parents name, wanted parent) :
    ∃ before parent, parents name = before ++ parent :: parents parent ∧ wanted parent ∧
      ∀ closer ∈ before, ¬wanted closer := by
  induction name with
  | nil => simp [parents] at h
  | cons c rest ih =>
    rw [parents] at h ⊢
    split
    next hdot =>
      rw [if_pos hdot] at h
      by_cases hrest : wanted rest
      · exact ⟨[], rest, rfl, hrest, by simp⟩
      · obtain ⟨before, parent, hparents, hparent, hbefore⟩ := ih (by simpa [hrest] using h)
        refine ⟨rest :: before, parent, by rw [hparents]; rfl, hparent, ?_⟩
        intro closer hcloser
        cases List.mem_cons.mp hcloser with
        | inl hsame => exact hsame ▸ hrest
        | inr hmem => exact hbefore closer hmem
    next hdot =>
      rw [if_neg hdot] at h
      exact ih h

section Lookup

variable (order : Shuffle (Text × List LocalRecord))

theorem lookup_exact {name : Text} (hquery : QnameTrigger name) (hexact : ExactName name)
    (hname : recordsAt zone rules name ≠ []) :
    (CompiledZone.fromRecords order zone rules).exact.lookup name = some (actionAt zone rules name) :=
  get_of_trigger order (hquery.ruleKey_exact.mpr ⟨rfl, hexact⟩) hname

theorem lookup_exact_none {name : Text} (hquery : recordsAt zone rules name ≠ [] → QnameTrigger name)
    (hname : ¬(ExactName name ∧ recordsAt zone rules name ≠ [])) :
    (CompiledZone.fromRecords order zone rules).exact.lookup name = none := by
  refine @get_of_no_trigger zone rules order .exact name fun trigger hkey => ?_
  obtain rfl : trigger = name := trigger_of_nameKey hkey
  by_contra hsome
  exact hname ⟨((hquery hsome).ruleKey_exact.mp hkey).2, hsome⟩

theorem lookup_wildcard {suffix : Text} (hquery : QnameTrigger (wildcardPrefix ++ suffix))
    (hsuffix : recordsAt zone rules (wildcardPrefix ++ suffix) ≠ []) :
    (CompiledZone.fromRecords order zone rules).wildcard.lookup suffix =
      some (actionAt zone rules (wildcardPrefix ++ suffix)) :=
  get_of_trigger order (hquery.ruleKey_wildcard.mpr rfl) hsuffix

theorem lookup_wildcard_none {suffix : Text} (hsuffix : recordsAt zone rules (wildcardPrefix ++ suffix) = []) :
    (CompiledZone.fromRecords order zone rules).wildcard.lookup suffix = none := by
  refine @get_of_no_trigger zone rules order .wildcard suffix fun trigger hkey => ?_
  rw [show trigger = wildcardPrefix ++ suffix from trigger_of_nameKey hkey]
  exact hsuffix

/-- The triggers that a name can fall under. -/
def triggersOver (name : Text) : List Text := name :: (parents name).map (wildcardPrefix ++ ·)

/-- What the zone has over the name are triggers on queried names. -/
def Queried (zone : Text) (rules : List (Text × LocalRecord)) (name : Text) : Prop :=
  ∀ trigger ∈ triggersOver name, recordsAt zone rules trigger ≠ [] → QnameTrigger trigger

theorem mem_triggersOver_parent {name parent : Text} (h : parent ∈ parents name) :
    wildcardPrefix ++ parent ∈ triggersOver name := List.mem_cons_of_mem _ (List.mem_map_of_mem h)

/-- A trigger on the name itself decides. -/
theorem qname_exact {name : Text} (hquery : Queried zone rules name) (hexact : ExactName name)
    (hname : recordsAt zone rules name ≠ []) :
    (CompiledZone.fromRecords order zone rules).qname name = some (name, actionAt zone rules name) := by
  simp [CompiledZone.qname, Authoritative.matchName,
    lookup_exact order (hquery name List.mem_cons_self hname) hexact hname]

/-- Else the wildcard over the closest parent that has one. -/
theorem qname_wildcard {name parent : Text} {before after : List Text} (hquery : Queried zone rules name)
    (hname : ¬(ExactName name ∧ recordsAt zone rules name ≠ [])) (hparents : parents name = before ++ parent :: after)
    (hbefore : ∀ closer ∈ before, recordsAt zone rules (wildcardPrefix ++ closer) = [])
    (hparent : recordsAt zone rules (wildcardPrefix ++ parent) ≠ []) :
    (CompiledZone.fromRecords order zone rules).qname name =
      some (wildcardPrefix ++ parent, actionAt zone rules (wildcardPrefix ++ parent)) := by
  have hnone : before.findSome? (fun parent =>
      ((CompiledZone.fromRecords order zone rules).wildcard.lookup parent).map
        fun action => ('*' :: '.' :: parent, action)) = none := by
    apply List.findSome?_eq_none_iff.mpr
    intro closer hcloser
    rw [lookup_wildcard_none order (hbefore closer hcloser)]
    rfl
  have hmem : parent ∈ parents name := by rw [hparents]; simp
  have hfound := lookup_wildcard order (hquery _ (mem_triggersOver_parent hmem) hparent) hparent
  simp [CompiledZone.qname, Authoritative.matchName, lookup_exact_none order (hquery name List.mem_cons_self) hname,
    authoritative_parents, hparents, List.findSome?_append, hnone, hfound, wildcardPrefix]

/-- Else nothing. -/
theorem qname_none {name : Text} (hquery : Queried zone rules name)
    (hname : ¬(ExactName name ∧ recordsAt zone rules name ≠ []))
    (hparents : ∀ parent ∈ parents name, recordsAt zone rules (wildcardPrefix ++ parent) = []) :
    (CompiledZone.fromRecords order zone rules).qname name = none := by
  have hnone : (parents name).findSome? (fun parent =>
      ((CompiledZone.fromRecords order zone rules).wildcard.lookup parent).map
        fun action => ('*' :: '.' :: parent, action)) = none := by
    apply List.findSome?_eq_none_iff.mpr
    intro parent hparent
    rw [lookup_wildcard_none order (hparents parent hparent)]
    rfl
  simp [CompiledZone.qname, Authoritative.matchName, lookup_exact_none order (hquery name List.mem_cons_self) hname,
    authoritative_parents, hnone]

end Lookup

/-! The triggers that the list takes over, by what the zone has at them. -/

/-- Something keeps clients off the name, and nothing exempts it. -/
def Taken (uses : List TriggerUse) : Prop := .other ∈ uses ∧ .passthru ∉ uses

instance (uses : List TriggerUse) : Decidable (Taken uses) := inferInstanceAs (Decidable (_ ∧ _))

/-- The list takes the trigger over: it has two labels or more, and its records are taken. -/
def TakenOver (zone : Text) (rules : List (Text × LocalRecord)) (trigger : Text) : Prop :=
  '.' ∈ trigger ∧ Taken ((recordsAt zone rules trigger).map useOf)

/-- A trigger that the list takes over covers the name. -/
def UnderTaken (zone : Text) (rules : List (Text × LocalRecord)) (name : Text) : Prop :=
  ∃ pattern, TakenOver zone rules pattern ∧ PatternCovers pattern name

/-- Both readers of the text see the same at the triggers over the name. -/
def ReadAlike (zone text : Text) (rules : List (Text × LocalRecord)) (name : Text) : Prop :=
  ∀ trigger ∈ triggersOver name,
    ((rpzRecords text).filter fun record => record.name = trigger).map RpzRecord.use = (recordsAt zone rules trigger).map useOf

instance (zone text : Text) (rules : List (Text × LocalRecord)) (name : Text) : Decidable (ReadAlike zone text rules name) :=
  inferInstanceAs (Decidable (∀ trigger ∈ _, _))

/-- What is done at a trigger, by the uses of all records. -/
theorem uses_recordsAt (zone : Text) (rules : List (Text × LocalRecord)) (trigger : Text) :
    (recordsAt zone rules trigger).map useOf =
      ((rules.filterMap (ruleUse zone)).filter fun used => used.1 = trigger).map Prod.snd := by
  induction rules with
  | nil => rfl
  | cons item rules ih =>
    unfold recordsAt at ih ⊢
    rw [List.filter_cons, List.filterMap_cons, ruleUse]
    cases hitem : triggerOf zone item with
    | none => simpa using ih
    | some found => by_cases hfound : found = trigger <;> simp [hfound, ← ih]

/-- They do where they see the same in the whole text. -/
theorem readAlike_of_uses {text : Text}
    (h : (rpzRecords text).map (fun record => (record.name, record.use)) = rules.filterMap (ruleUse zone)) (name : Text) :
    ReadAlike zone text rules name := by
  intro trigger _
  have hfeed : ((rpzRecords text).filter fun record => record.name = trigger).map RpzRecord.use =
      (((rpzRecords text).map fun record => (record.name, record.use)).filter fun used => used.1 = trigger).map Prod.snd := by
    rw [List.filter_map, List.map_map]
    rfl
  rw [hfeed, uses_recordsAt, h]

theorem use_passthru {record : RpzRecord} : record.use = .passthru ↔ record.isPassthru = true := by
  unfold RpzRecord.use
  cases record.isPassthru <;> cases record.isTcpOnly <;> simp

theorem use_other {record : RpzRecord} : record.use = .other ↔ record.isPassthru = false ∧ record.isTcpOnly = false := by
  unfold RpzRecord.use
  cases record.isPassthru <;> cases record.isTcpOnly <;> simp

theorem kept_iff_taken {records : List RpzRecord} {name : Text} :
    Kept records name ↔ '.' ∈ name ∧ Taken ((records.filter fun record => record.name = name).map RpzRecord.use) := by
  unfold Kept Taken
  simp [use_passthru, use_other, and_assoc]

theorem TakenOver.hasRecords {trigger : Text} (h : TakenOver zone rules trigger) : recordsAt zone rules trigger ≠ [] := by
  intro hnil
  have hother := h.2.1
  rw [hnil] at hother
  cases hother

theorem mem_triggersOver {pattern name : Text} (h : PatternCovers pattern name) : pattern ∈ triggersOver name := by
  obtain ⟨-, rfl⟩ | ⟨suffix, rfl, hsuffix⟩ := patternCovers_iff.mp h
  · exact List.mem_cons_self
  · exact mem_triggersOver_parent (mem_parents.mpr hsuffix)

theorem underKept_iff_underTaken {text name : Text} (halike : ReadAlike zone text rules name) :
    UnderKept (rpzRecords text) name ↔ UnderTaken zone rules name := by
  apply exists_congr
  intro pattern
  apply and_congr_left
  intro hcovers
  rw [kept_iff_taken, halike pattern (mem_triggersOver hcovers), TakenOver]

theorem queried_of_alike {text name : Text} (h : ∀ record ∈ rpzRecords text, QnameTrigger record.name)
    (halike : ReadAlike zone text rules name) : Queried zone rules name := by
  intro trigger htrigger hrecords
  have huses : (recordsAt zone rules trigger).map useOf ≠ [] := fun hnil => hrecords (List.map_eq_nil_iff.mp hnil)
  rw [← halike trigger htrigger, Ne, List.map_eq_nil_iff, List.filter_eq_nil_iff] at huses
  push Not at huses
  obtain ⟨record, hrecord, hname⟩ := huses
  rw [decide_eq_true_eq] at hname
  exact hname ▸ h record hrecord

/-- The name is covered as the closest wildcard over it is, where it is no trigger itself. -/
theorem underTaken_wildcard {name parent : Text} {before : List Text}
    (hname : ¬(ExactName name ∧ recordsAt zone rules name ≠ [])) (hparents : parents name = before ++ parent :: parents parent)
    (hbefore : ∀ closer ∈ before, recordsAt zone rules (wildcardPrefix ++ closer) = []) :
    UnderTaken zone rules name ↔ UnderTaken zone rules (wildcardPrefix ++ parent) := by
  apply exists_congr
  intro pattern
  apply and_congr_right
  intro htaken
  rw [patternCovers_iff, patternCovers_iff]
  have hexact : ¬(stripPrefix wildcardPrefix pattern = none ∧ pattern = name) := by
    rintro ⟨hnone, rfl⟩
    refine hname ⟨⟨hnone, ?_⟩, htaken.hasRecords⟩
    rintro rfl
    exact absurd htaken.1 (by decide)
  have hwild : ¬(stripPrefix wildcardPrefix pattern = none ∧ pattern = wildcardPrefix ++ parent) := by
    rintro ⟨hnone, hsame⟩
    rw [stripPrefix_eq_some.mpr hsame] at hnone
    cases hnone
  rw [or_iff_right hexact, or_iff_right hwild]
  apply exists_congr
  intro suffix
  apply and_congr_right
  rintro rfl
  have hstar : parents (wildcardPrefix ++ parent) = parent :: parents parent := rfl
  rw [← mem_parents, ← mem_parents, hparents, hstar, List.mem_append]
  apply or_iff_right
  intro hcloser
  exact htaken.hasRecords (hbefore suffix hcloser)

/-- A name is decided by a trigger over it, and is covered exactly where that is, or by none, and is not covered. -/
theorem decider_cases (order : Shuffle (Text × List LocalRecord)) {name : Text} (hquery : Queried zone rules name) :
    (∃ trigger, (CompiledZone.fromRecords order zone rules).qname name = some (trigger, actionAt zone rules trigger) ∧
        recordsAt zone rules trigger ≠ [] ∧ (UnderTaken zone rules name ↔ UnderTaken zone rules trigger)) ∨
      (CompiledZone.fromRecords order zone rules).qname name = none ∧ ¬UnderTaken zone rules name := by
  by_cases hname : ExactName name ∧ recordsAt zone rules name ≠ []
  · exact .inl ⟨name, qname_exact order hquery hname.1 hname.2, hname.2, Iff.rfl⟩
  by_cases hwild : ∃ parent ∈ parents name, recordsAt zone rules (wildcardPrefix ++ parent) ≠ []
  · obtain ⟨before, parent, hparents, hparent, hbefore⟩ := exists_closest _ hwild
    have hcloser : ∀ closer ∈ before, recordsAt zone rules (wildcardPrefix ++ closer) = [] :=
      fun closer hmem => not_not.mp (hbefore closer hmem)
    exact .inl ⟨wildcardPrefix ++ parent, qname_wildcard order hquery hname hparents hcloser hparent, hparent,
      underTaken_wildcard hname hparents hcloser⟩
  · have hnone : ∀ parent ∈ parents name, recordsAt zone rules (wildcardPrefix ++ parent) = [] :=
      fun parent hmem => not_not.mp fun hsome => hwild ⟨parent, hmem, hsome⟩
    refine .inr ⟨qname_none order hquery hname hnone, ?_⟩
    rintro ⟨pattern, htaken, hcovers⟩
    obtain ⟨hplain, rfl⟩ | ⟨suffix, rfl, hsuffix⟩ := patternCovers_iff.mp hcovers
    · refine hname ⟨⟨hplain, ?_⟩, htaken.hasRecords⟩
      rintro rfl
      exact absurd htaken.1 (by decide)
    · exact htaken.hasRecords (hnone suffix (mem_parents.mpr hsuffix))

/-- The records at the trigger say one thing: data without a CNAME, or one CNAME that does not lead back to it. -/
def Unmixed (zone : Text) (rules : List (Text × LocalRecord)) (trigger : Text) : Prop :=
  (∀ record ∈ recordsAt zone rules trigger, cnameOf record = none) ∨
    ∃ record target, recordsAt zone rules trigger = [record] ∧ cnameOf record = some target ∧
      trimEndMatches '.' target ≠ trigger ∧ trimEndMatches '.' target ≠ trigger ++ '.' :: lowerZone zone

/-- Such a trigger is taken over where its action keeps clients off the name. -/
theorem taken_iff_blocks {trigger : Text} (hunmixed : Unmixed zone rules trigger) (hrecords : recordsAt zone rules trigger ≠ []) :
    Taken ((recordsAt zone rules trigger).map useOf) ↔ Blocks (actionAt zone rules trigger) := by
  obtain hdata | ⟨record, target, hone, hcname, hname, hzone⟩ := hunmixed
  · have huses : ∀ use ∈ (recordsAt zone rules trigger).map useOf, use = .other := by
      intro use huse
      obtain ⟨record, hrecord, rfl⟩ := List.mem_map.mp huse
      rw [useOf, hdata record hrecord]
      rfl
    have haction : actionAt zone rules trigger = .localData (recordsAt zone rules trigger) := by
      have hnone : (recordsAt zone rules trigger).findSome? cnameOf = none := List.findSome?_eq_none_iff.mpr hdata
      rw [actionAt, actionOf, hnone]
    obtain ⟨record, hrecord⟩ := List.exists_mem_of_ne_nil _ hrecords
    have hother := huses _ (List.mem_map_of_mem hrecord)
    refine iff_of_true ⟨hother ▸ List.mem_map_of_mem hrecord, fun hpass => ?_⟩ ?_
    · cases huses _ hpass
    · rw [haction]
      exact ⟨nofun, nofun⟩
  · have haction : actionAt zone rules trigger = actionOf trigger (lowerZone zone) [record] := by rw [actionAt, hone]
    rw [haction, hone]
    simp only [List.map_cons, List.map_nil, Taken, List.mem_singleton, useOf, actionOf, List.findSome?_cons, hcname, Blocks,
      Option.some.injEq]
    split_ifs <;> simp_all

/-- A trigger is covered where it is taken over itself, or another wildcard over it is. -/
theorem underTaken_trigger {trigger : Text} :
    UnderTaken zone rules trigger ↔ TakenOver zone rules trigger ∨
      ∃ pattern, pattern ≠ trigger ∧ TakenOver zone rules pattern ∧ PatternCovers pattern trigger := by
  constructor
  · rintro ⟨pattern, htaken, hcovers⟩
    by_cases hsame : pattern = trigger
    · exact .inl (hsame ▸ htaken)
    · exact .inr ⟨pattern, hsame, htaken, hcovers⟩
  · rintro (htaken | ⟨pattern, -, htaken, hcovers⟩)
    · exact ⟨trigger, htaken, patternCovers_self trigger⟩
    · exact ⟨pattern, htaken, hcovers⟩

/-- What the list makes of a name, beside the trigger that decides it in the zone. -/
structure FeedVerdict (compiled : CompiledZone) (zone : Text) (rules : List (Text × LocalRecord)) (name : Text)
    (listed : Prop) : Prop where
  taken : listed ↔ ∃ trigger action, compiled.qname name = some (trigger, action) ∧ UnderTaken zone rules trigger
  agrees : (listed ↔ ZoneBlocks compiled name) ↔
    ∀ trigger action, compiled.qname name = some (trigger, action) → (UnderTaken zone rules trigger ↔ Blocks action)
  unmixed : ∀ trigger action, compiled.qname name = some (trigger, action) → '.' ∈ trigger → Unmixed zone rules trigger →
    (listed ↔ Blocks action ∨ ∃ pattern, pattern ≠ trigger ∧ TakenOver zone rules pattern ∧ PatternCovers pattern trigger)

theorem feedVerdict_of_underTaken (order : Shuffle (Text × List LocalRecord)) {name : Text} (hquery : Queried zone rules name) :
    FeedVerdict (CompiledZone.fromRecords order zone rules) zone rules name (UnderTaken zone rules name) := by
  obtain ⟨trigger, hdecides, hrecords, hcovered⟩ | ⟨hnone, huncovered⟩ := decider_cases order hquery
  · constructor
    · simp [hdecides, hcovered]
    · simp [ZoneBlocks, hdecides, hcovered]
    · intro found action hfound hdot hunmixed
      rw [hdecides] at hfound
      cases hfound
      rw [hcovered, underTaken_trigger, TakenOver, taken_iff_blocks hunmixed hrecords, and_iff_right hdot]
  · constructor <;> simp [ZoneBlocks, hnone, huncovered]

/-- A response policy zone of triggers on queried names is read as a list and compiled from the same text: a name over which
both see the same is listed exactly where the trigger that decides it is taken over, or a wildcard over that. Over a
plain feed they see the same at every name. -/
theorem feed_blocks_as_zone (libs : Libraries) (reader : RdataReader) (order : Shuffle (Text × List LocalRecord))
    (zone text : Text) (rules : List (Text × LocalRecord)) (htext : textRecords reader text = .ok rules)
    (htriggers : ∀ record ∈ rpzRecords text, QnameTrigger record.name) :
    (∃ compiled, CompiledZone.fromText reader order zone text = .ok compiled ∧ ∀ name, ReadAlike zone text rules name →
      FeedVerdict compiled zone rules name ((Blocklist.fromSet (parseRpz libs text)).contains name = true)) ∧
    (PlainFeed zone text → LawfulReader reader → ∀ name, ReadAlike zone text rules name) := by
  refine ⟨⟨CompiledZone.fromRecords order zone rules, ?_, fun name halike => ?_⟩, fun hplain hlawful => ?_⟩
  · rw [CompiledZone.fromText, htext]
    rfl
  · rw [contains_parseRpz libs htriggers, underKept_iff_underTaken halike]
    exact feedVerdict_of_underTaken order (queried_of_alike htriggers halike)
  · obtain ⟨entries, hentries, huses⟩ := plainFeed_uses hplain
    rw [textRecords, hentries] at htext
    exact readAlike_of_uses (huses reader hlawful rules htext)

/-! The verdict is decided over the triggers that a name can fall under. -/

instance (trigger : Text) : Decidable (TakenOver zone rules trigger) := inferInstanceAs (Decidable (_ ∧ _))

instance (name : Text) : Decidable (UnderTaken zone rules name) :=
  decidable_of_iff (∃ pattern ∈ triggersOver name, TakenOver zone rules pattern ∧ PatternCovers pattern name) (by
    constructor
    · rintro ⟨pattern, -, htaken, hcovers⟩
      exact ⟨pattern, htaken, hcovers⟩
    · rintro ⟨pattern, htaken, hcovers⟩
      exact ⟨pattern, mem_triggersOver hcovers, htaken, hcovers⟩)

/-- Types and data as they are written. -/
def plainReader : RdataReader := ⟨some, fun _ content => .ok content⟩

/-- A line by its words. -/
def feedLine (words : List String) : Text := [' '].intercalate (words.map String.toList)

/-- A text by its lines. -/
def feedText (lines : List (List String)) : Text := lines.flatMap fun words => feedLine words ++ ['\n']

/-- A wildcard, and an exempt name elsewhere. -/
def agreeingFeed : Text :=
  feedText [["$ORIGIN", "rpz.test."], ["*.bad.example", "CNAME", "."],
    ["ok.example.rpz.test.", "60", "IN", "CNAME", "rpz-passthru."]]

/-- What the zone file of the feed says. -/
def agreeingRules : List (Text × LocalRecord) :=
  [("*.bad.example.rpz.test".toList, ⟨"CNAME".toList, 3600, ".".toList⟩),
    ("ok.example.rpz.test".toList, ⟨"CNAME".toList, 60, "rpz-passthru.".toList⟩)]

theorem lawful_plainReader : LawfulReader plainReader := by
  constructor
  · intro name rtype _ hread kind _
    cases hread
    rfl
  · intro target rdata _ hread
    cases hread
    rfl

theorem plainFeed_agreeing : PlainFeed "rpz.test".toList agreeingFeed := by
  have hlines : lines agreeingFeed = [feedLine ["$ORIGIN", "rpz.test."], feedLine ["*.bad.example", "CNAME", "."],
      feedLine ["ok.example.rpz.test.", "60", "IN", "CNAME", "rpz-passthru."]] := by
    decide +kernel
  have horigin : PlainLine "rpz.test".toList ⟨false, false⟩ (feedLine ["$ORIGIN", "rpz.test."]) ⟨true, true⟩ :=
    .origin ⟨⟨_, _, rfl, rfl⟩, by decide +kernel⟩ rfl rfl rfl
  have hwildcard : PlainLine "rpz.test".toList ⟨true, true⟩ (feedLine ["*.bad.example", "CNAME", "."]) ⟨true, true⟩ :=
    .other ⟨⟨_, _, rfl, rfl⟩, by decide +kernel⟩ rfl (by decide)
      (.relative (by decide) (by decide) (by decide) (by decide) rfl)
      ⟨rfl, by decide, by decide, fun _ => ⟨rfl, rfl, by decide⟩⟩ (by decide)
  have hexempt : PlainLine "rpz.test".toList ⟨true, true⟩
      (feedLine ["ok.example.rpz.test.", "60", "IN", "CNAME", "rpz-passthru."]) ⟨true, true⟩ :=
    .other ⟨⟨_, _, rfl, rfl⟩, by decide +kernel⟩ rfl (by decide) (@PlainOwner.absolute _ _ _ "ok.example".toList rfl rfl)
      ⟨rfl, by decide, by decide, fun _ => ⟨rfl, rfl, by decide⟩⟩ (by decide)
  refine ⟨by decide, ?_⟩
  rw [hlines]
  exact .cons horigin (.cons hwildcard (.cons hexempt (.nil _)))

theorem feed_blocks_as_zone_agreeing :
    (∃ compiled, CompiledZone.fromText plainReader .plain "rpz.test".toList agreeingFeed = .ok compiled ∧
        ∀ name, FeedVerdict compiled "rpz.test".toList agreeingRules name
          ((Blocklist.fromSet (parseRpz bareLibraries agreeingFeed)).contains name = true)) ∧
      UnderTaken "rpz.test".toList agreeingRules "*.bad.example".toList ∧
      ¬UnderTaken "rpz.test".toList agreeingRules "ok.example".toList := by
  obtain ⟨⟨compiled, hcompiled, hverdict⟩, halike⟩ := feed_blocks_as_zone bareLibraries plainReader .plain "rpz.test".toList
    agreeingFeed agreeingRules (by decide +kernel) (by decide +kernel)
  refine ⟨⟨compiled, hcompiled, fun name => ?_⟩, by decide +kernel, by decide +kernel⟩
  exact hverdict name (halike plainFeed_agreeing lawful_plainReader name)

/-- A trigger of one label. -/
def oneLabelFeed : Text := feedText [["localhost", "CNAME", "."]]

/-- An exempt name under a wildcard that blocks. -/
def exemptFeed : Text := feedText [["*.bad.example", "CNAME", "."], ["ok.bad.example", "CNAME", "rpz-passthru."]]

/-- A name under an origin that is not the zone's. -/
def originFeed : Text := feedText [["$ORIGIN", "example.rpz.test."], ["ads.www", "CNAME", "."]]

def feedZone (text : Text) : Except Text CompiledZone := CompiledZone.fromText plainReader .plain "rpz.test".toList text

/-- The first is not listed though the zone blocks it, the second is listed though the zone exempts it; the third is
listed under another name than it has in the zone. -/
theorem feed_blocks_as_zone_fails :
    ((Blocklist.fromSet (parseRpz bareLibraries oneLabelFeed)).contains "localhost".toList = false ∧
        (feedZone oneLabelFeed).map (·.qname "localhost".toList) = .ok (some ("localhost".toList, .nxDomain))) ∧
      ((Blocklist.fromSet (parseRpz bareLibraries exemptFeed)).contains "ok.bad.example".toList = true ∧
        (feedZone exemptFeed).map (·.qname "ok.bad.example".toList) = .ok (some ("ok.bad.example".toList, .passthru))) ∧
      ((Blocklist.fromSet (parseRpz bareLibraries originFeed)).contains "ads.www".toList = true ∧
        (feedZone originFeed).map (·.qname "ads.www".toList) = .ok none) ∧
      ¬∀ (libs : Libraries) (reader : RdataReader) (order : Shuffle (Text × List LocalRecord)) (zone text : Text)
          (compiled : CompiledZone), CompiledZone.fromText reader order zone text = .ok compiled →
        (∀ record ∈ rpzRecords text, QnameTrigger record.name) →
          ∀ name, (Blocklist.fromSet (parseRpz libs text)).contains name = true ↔ ZoneBlocks compiled name := by
  have hlabel : (Blocklist.fromSet (parseRpz bareLibraries oneLabelFeed)).contains "localhost".toList = false ∧
      (feedZone oneLabelFeed).map (·.qname "localhost".toList) = .ok (some ("localhost".toList, .nxDomain)) := by
    decide +kernel
  refine ⟨hlabel, by decide +kernel, by decide +kernel, fun hall => ?_⟩
  obtain ⟨compiled, hcompiled, hdecides⟩ := map_eq_ok.mp hlabel.2
  have hblocked := (hall bareLibraries plainReader .plain "rpz.test".toList oneLabelFeed compiled hcompiled (by decide +kernel)
    "localhost".toList).mpr ⟨_, _, hdecides.symm, by decide, by decide⟩
  rw [hlabel.1] at hblocked
  cases hblocked

end DaygleDns.Policy
