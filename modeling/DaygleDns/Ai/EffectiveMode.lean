import DaygleDns.Ai.Scanner
import DaygleDns.Policy.Groups
import DaygleDns.Policy.GroupClients

/-! The AI policy plugin, and the filtering groups as it reads them. -/
namespace DaygleDns.Ai

open Text Policy

/-- A filtering group with its AI settings. -/
structure AiGroup where
  group : BlockingGroup
  aiMode : Option AiMode
  blockedCategories : List Text

structure CompiledAiGroup where
  group : CompiledGroup
  aiMode : Option AiMode
  blockedCategories : List Text

variable (libs : Libraries)

def AiGroup.compile (g : AiGroup) : CompiledAiGroup where
  group := compileGroup libs g.group
  aiMode := g.aiMode
  blockedCategories := (g.blockedCategories.map fun c => toAsciiLowercase (trim c)).filter (!·.isEmpty)

/-- `AdvancedBlocking::build`: the enabled groups. -/
def buildGroups (groups : List AiGroup) : List CompiledAiGroup :=
  (groups.filter (·.group.enabled)).map (·.compile libs)

def firstGroup (groups : List CompiledAiGroup) (asker : Asker) (week : WeekTime) : Option CompiledAiGroup :=
  groups.find? (·.group.applies libs asker week)

def groupMode (groups : List CompiledAiGroup) (asker : Asker) (week : WeekTime) (default : AiMode) : AiMode :=
  match firstGroup libs groups asker week with
  | some g => g.aiMode.getD default
  | none => default

/-- The first of the domain and its parents with an entry that has not expired. -/
def suffixMatch {α : Type} (name : Text) (get : Text → Option α) (now : Int) (expiresAt : α → Int) : Option α :=
  (withParents name).findSome? fun candidate => (get candidate).filter fun found => decide (now < expiresAt found)

def threatDecision (queryName category : Text) : Decision :=
  ((Decision.new (quoted queryName ++ " auto-blocked by AI threat detection (category ".toList ++ quoted category ++
    ")".toList) .block).withGroup "ai".toList).withSource Source.ai (some category)

def categoryDecision (queryName category groupName : Text) : Decision :=
  ((Decision.new (quoted queryName ++ " blocked by category policy (category ".toList ++ quoted category ++
    ", group ".toList ++ quoted groupName ++ ")".toList) .block).withGroup "ai".toList).withSource Source.ai
    (some category)

/-- The name as it is looked up. -/
def lookupName (queryName : Text) : Text := toAsciiLowercase (trimEndMatches '.' queryName)

/-- The client's mode: that of the groups where they are installed. -/
def effectiveMode (settings : AiSettings) (groups : Option (List CompiledAiGroup)) (asker : Asker) (week : WeekTime) :
    AiMode :=
  match groups with
  | none => settings.mode
  | some groups => groupMode libs groups asker week settings.mode

/-- What detected threats make of the query. -/
def threatBlock (settings : AiSettings) (published : Published) (groups : Option (List CompiledAiGroup))
    (asker : Asker) (queryName : Text) (now : Int) (week : WeekTime) : Option Decision :=
  if effectiveMode libs settings groups asker week = .enforce then
    ((suffixMatch (lookupName queryName) published.blocks.get now (·.expiresAt)).filter fun _ =>
      !exempt (lookupName queryName) published.exemptions).map fun block => threatDecision queryName block.category
  else none

/-- What the categories make of it that the client's group blocks. -/
def categoryBlock (published : Published) (groups : Option (List CompiledAiGroup)) (asker : Asker)
    (queryName : Text) (now : Int) (week : WeekTime) : Option Decision := do
  let groups ← groups
  let group ← firstGroup libs groups asker week
  if group.blockedCategories.isEmpty then none
  else
    let labelled ← suffixMatch (lookupName queryName) published.categories.get now (·.expiresAt)
    if !group.blockedCategories.any (eqIgnoreAsciiCase · labelled.category) ||
        exempt (lookupName queryName) published.exemptions then none
    else some (categoryDecision queryName labelled.category group.group.name)

/-- `AiBlockPlugin::evaluate` -/
def evaluate (settings : AiSettings) (published : Published) (groups : Option (List CompiledAiGroup))
    (asker : Asker) (queryName : Text) (now : Int) (week : WeekTime) : Option Decision :=
  if !settings.enabled then none
  else
    (threatBlock libs settings published groups asker queryName now week).or
      (categoryBlock libs published groups asker queryName now week)

/-! Which queries are blocked as detected threats: the scanner publishes by the global mode,
the plugin decides by the client's. -/

/-! What the overrides exempt. -/

theorem mem_allowOverrides {store : AiStore} {domain : Text} :
    domain ∈ store.allowOverrides.rows ↔ ∃ o ∈ store.overrides.rows, o.domain = domain ∧ o.action = "allow".toList := by
  have hempty : TextSet.empty.rows = [] := rfl
  unfold AiStore.allowOverrides
  rw [OrderedTable.mem_putAll, hempty, List.mem_map]
  simp only [List.mem_filter, beq_iff_eq, List.not_mem_nil, or_false, and_assoc]
  apply exists_congr
  intro o
  apply and_congr_right
  intro _
  exact and_comm

/-- The name or a parent of it has an allow override. -/
def Exempted (store : AiStore) (name : Text) : Prop :=
  ∃ candidate ∈ withParents name, ∃ o ∈ store.overrides.rows, o.domain = candidate ∧ o.action = "allow".toList

theorem exempt_iff (store : AiStore) (name : Text) : exempt name store.allowOverrides = true ↔ Exempted store name := by
  unfold exempt Exempted
  simp only [List.any_eq_true, OrderedTable.contains_iff, mem_allowOverrides]

/-! What qualifies for auto-blocking. -/

/-- The verdict qualifies. -/
structure Eligible (store : AiStore) (cfg : AiSettings) (now : Int) (v : Verdict) : Prop where
  threat : v.channel = .threat
  classified : v.status = "classified".toList
  undisputed : v.severity ≠ "disputed".toList
  confident : cfg.blockThreshold ≤ v.confidence
  fresh : now < v.expiresAt
  autoBlock : cfg.isAutoBlockCategory v.category = true
  notExempted : ¬ Exempted store v.domain

theorem vetoed_iff (store : AiStore) (domain : Text) :
    store.vetoed domain = true ↔ ∃ o ∈ store.overrides.rows, o.domain = domain ∧ o.action = "allow".toList := by
  simp [AiStore.vetoed]

theorem eligible_iff (store : AiStore) (cfg : AiSettings) (now : Int) (v : Verdict) :
    Eligible store cfg now v ↔ store.isFreshBlocked now cfg.blockThreshold v = true ∧
      (cfg.isAutoBlockCategory v.category && !exempt v.domain store.allowOverrides) = true := by
  have hveto : store.vetoed v.domain = true → Exempted store v.domain :=
    fun h => ⟨v.domain, List.mem_cons_self, (vetoed_iff store v.domain).mp h⟩
  unfold AiStore.isFreshBlocked
  simp only [Bool.and_eq_true, beq_iff_eq, bne_iff_ne, decide_eq_true_eq, Bool.not_eq_true', ← Bool.not_eq_true,
    exempt_iff]
  constructor
  · intro h
    refine ⟨⟨⟨⟨⟨⟨h.threat, h.classified⟩, h.undisputed⟩, h.confident⟩, h.fresh⟩, ?_⟩, h.autoBlock, h.notExempted⟩
    exact fun hvetoed => h.notExempted (hveto hvetoed)
  · rintro ⟨⟨⟨⟨⟨⟨hthreat, hclassified⟩, hundisputed⟩, hconfident⟩, hfresh⟩, -⟩, hauto, hexempt⟩
    exact ⟨hthreat, hclassified, hundisputed, hconfident, hfresh, hauto, hexempt⟩

theorem eligibleBlocks_eq (store : AiStore) (cfg : AiSettings) (now : Int) :
    store.eligibleBlocks cfg now = OrderedTable.empty.putAll
      ((store.verdicts.rows.filter fun v => store.isFreshBlocked now cfg.blockThreshold v &&
        (cfg.isAutoBlockCategory v.category && !exempt v.domain store.allowOverrides)).map fun v =>
          ⟨v.domain, v.category, v.expiresAt⟩) := by
  unfold AiStore.eligibleBlocks AiStore.blocksWith AiStore.freshBlocked
  rw [List.filter_filter]
  simp only [Bool.and_comm]

/-- The threat verdicts have distinct domains. -/
theorem nodup_threats (store : AiStore) (keep : Verdict → Bool) (hkeep : ∀ v, keep v = true → v.channel = .threat) :
    ((store.verdicts.rows.filter keep).map (·.domain)).Nodup := by
  have hnodup := store.verdicts.distinct.sublist ((List.filter_sublist (p := keep)).map fun v => (v.domain, v.channel))
  apply List.Nodup.of_map fun domain => (domain, Channel.threat)
  rw [List.map_map]
  have hsame : (store.verdicts.rows.filter keep).map ((fun domain => (domain, Channel.threat)) ∘ (·.domain)) =
      (store.verdicts.rows.filter keep).map fun v => (v.domain, v.channel) := by
    apply List.map_congr_left
    intro v hv
    exact congrArg (Prod.mk v.domain) (hkeep v (List.mem_filter.mp hv).2).symm
  rwa [hsame]

/-- The verdicts listed are those that qualify. -/
theorem get_eligibleBlocks (store : AiStore) (cfg : AiSettings) (now : Int) (block : ActiveBlock) :
    (store.eligibleBlocks cfg now).get block.domain = some block ↔
      ∃ v ∈ store.verdicts.rows, Eligible store cfg now v ∧ ⟨v.domain, v.category, v.expiresAt⟩ = block := by
  have hthreat : ∀ v : Verdict, (store.isFreshBlocked now cfg.blockThreshold v &&
      (cfg.isAutoBlockCategory v.category && !exempt v.domain store.allowOverrides)) = true → v.channel = .threat :=
    fun v hv => ((eligible_iff store cfg now v).mpr (Bool.and_eq_true_iff.mp hv)).threat
  have hnodup := nodup_threats store _ hthreat
  rw [eligibleBlocks_eq, OrderedTable.get_putAll_iff]
  · simp only [List.mem_map, List.mem_filter, Bool.and_eq_true_iff (x := store.isFreshBlocked _ _ _), ← eligible_iff,
      and_assoc]
  · rwa [List.map_map]

/-! What the plugin looks up. -/

/-- The name or a parent of it is in the snapshot and has not expired. -/
def Listed (blocks : BlockSnapshot) (now : Int) (name : Text) : Prop :=
  ∃ candidate ∈ withParents name, ∃ block, blocks.get candidate = some block ∧ now < block.expiresAt

theorem listed_iff (blocks : BlockSnapshot) (now : Int) (name : Text) :
    (suffixMatch name blocks.get now (·.expiresAt)).isSome = true ↔ Listed blocks now name := by
  unfold suffixMatch Listed
  rw [List.findSome?_isSome_iff]
  simp only [Option.isSome_iff_exists, Option.filter_eq_some_iff, decide_eq_true_eq]

/-- The decision is that of threat detection. -/
def BlockedAsThreat (queryName : Text) (decision : Option Decision) : Prop :=
  ∃ category, decision = some (threatDecision queryName category)

theorem categoryDecision_ne (queryName category groupName threat : Text) :
    categoryDecision queryName category groupName ≠ threatDecision queryName threat := by
  intro h
  have hreason := congrArg Decision.reason h
  simp only [categoryDecision, threatDecision, Decision.withSource, Decision.withGroup, Decision.new,
    List.append_assoc, List.append_cancel_left_eq] at hreason
  have hcategory : " blocked by category policy (category ".toList =
      ' ' :: 'b' :: "locked by category policy (category ".toList := by decide
  have hthreat : " auto-blocked by AI threat detection (category ".toList =
      ' ' :: 'a' :: "uto-blocked by AI threat detection (category ".toList := by decide
  rw [hcategory, hthreat] at hreason
  simp only [List.cons_append, List.cons.injEq, true_and] at hreason
  exact absurd hreason.1 (by decide)

theorem threatBlock_iff (settings : AiSettings) (published : Published) (groups : Option (List CompiledAiGroup))
    (asker : Asker) (queryName : Text) (now : Int) (week : WeekTime) :
    BlockedAsThreat queryName (threatBlock libs settings published groups asker queryName now week) ↔
      effectiveMode libs settings groups asker week = .enforce ∧
        Listed published.blocks now (lookupName queryName) ∧
        exempt (lookupName queryName) published.exemptions = false := by
  unfold BlockedAsThreat threatBlock
  by_cases hmode : effectiveMode libs settings groups asker week = .enforce
  · rw [if_pos hmode, ← listed_iff]
    cases hmatch : suffixMatch (lookupName queryName) published.blocks.get now (·.expiresAt) with
    | none => simp
    | some block => cases exempt (lookupName queryName) published.exemptions <;> simp [hmode]
  · simp [hmode]

theorem categoryBlock_eq_some {published : Published} {groups : Option (List CompiledAiGroup)} {asker : Asker}
    {queryName : Text} {now : Int} {week : WeekTime} {decision : Decision}
    (h : categoryBlock libs published groups asker queryName now week = some decision) :
    ∃ category groupName, decision = categoryDecision queryName category groupName := by
  unfold categoryBlock at h
  simp only [bind, Option.bind_eq_some_iff] at h
  obtain ⟨groups, -, group, -, h⟩ := h
  split at h
  · cases h
  · obtain ⟨labelled, -, h⟩ := Option.bind_eq_some_iff.mp h
    split at h
    · cases h
    · exact ⟨labelled.category, group.group.name, (Option.some.inj h).symm⟩

theorem evaluate_iff {settings : AiSettings} (henabled : settings.enabled = true) (published : Published)
    (groups : Option (List CompiledAiGroup)) (asker : Asker) (queryName : Text) (now : Int) (week : WeekTime) :
    BlockedAsThreat queryName (evaluate libs settings published groups asker queryName now week) ↔
      BlockedAsThreat queryName (threatBlock libs settings published groups asker queryName now week) := by
  unfold evaluate BlockedAsThreat
  simp only [henabled, Bool.not_true, Bool.false_eq_true, if_false]
  cases hthreat : threatBlock libs settings published groups asker queryName now week with
  | some decision => rfl
  | none =>
    rw [Option.none_or]
    constructor
    · rintro ⟨threat, h⟩
      obtain ⟨category, groupName, hsame⟩ := categoryBlock_eq_some libs h
      exact absurd hsame.symm (categoryDecision_ne queryName category groupName threat)
    · rintro ⟨threat, h⟩
      cases h

/-- What the client's mode demands of the query: it is blocked as a detected threat. -/
structure Demanded (settings : AiSettings) (store : AiStore) (listedAt : Int) (groups : Option (List CompiledAiGroup))
    (asker : Asker) (queryName : Text) (now : Int) (week : WeekTime) : Prop where
  mode : effectiveMode libs settings groups asker week = .enforce
  listed : Listed (store.eligibleBlocks settings listedAt) now (lookupName queryName)
  notExempted : ¬ Exempted store (lookupName queryName)

/-- What a refresh publishes where its reads succeed. -/
theorem refreshSnapshot_blocks {fails : SnapshotRead → Bool}
    (hpublished : fails .overrides = false ∧ fails .blocks = false) (store : AiStore) (settings : AiSettings)
    (now : Int) (before : Published) :
    (refreshSnapshot store settings now fails before).blocks =
      if settings.mode = .enforce then store.eligibleBlocks settings now else OrderedTable.empty := by
  unfold refreshSnapshot
  simp only [hpublished, Bool.false_eq_true, if_false]
  rfl

theorem refreshSnapshot_exemptions {fails : SnapshotRead → Bool} (hpublished : fails .overrides = false)
    (store : AiStore) (settings : AiSettings) (now : Int) (before : Published) :
    (refreshSnapshot store settings now fails before).exemptions = store.allowOverrides := by
  unfold refreshSnapshot
  simp only [hpublished, Bool.false_eq_true, if_false]

theorem not_listed_empty (now : Int) (name : Text) : ¬ Listed OrderedTable.empty now name := by
  rintro ⟨candidate, -, block, h, -⟩
  cases h

/-- The plugin blocks as detected threats the queries that the client's mode demands exactly
where the global mode is to enforce, or the client's mode demands nothing of the query. -/
theorem threats_blocked_iff (settings : AiSettings) (henabled : settings.enabled = true) (store : AiStore)
    (groups : Option (List CompiledAiGroup)) (asker : Asker) (queryName : Text) (refreshedAt now : Int)
    (week : WeekTime) (fails : SnapshotRead → Bool) (hpublished : fails .overrides = false ∧ fails .blocks = false)
    (before : Published) :
    (BlockedAsThreat queryName (evaluate libs settings (refreshSnapshot store settings refreshedAt fails before)
        groups asker queryName now week) ↔
      Demanded libs settings store refreshedAt groups asker queryName now week) ↔
    settings.mode = .enforce ∨ effectiveMode libs settings groups asker week = .train ∨
      ¬ Listed (store.eligibleBlocks settings refreshedAt) now (lookupName queryName) ∨
      Exempted store (lookupName queryName) := by
  have hmode : ∀ mode : AiMode, mode = .train ↔ ¬ mode = .enforce := by
    intro mode
    cases mode <;> simp
  have hdemanded : Demanded libs settings store refreshedAt groups asker queryName now week ↔
      effectiveMode libs settings groups asker week = .enforce ∧
        Listed (store.eligibleBlocks settings refreshedAt) now (lookupName queryName) ∧
        ¬ Exempted store (lookupName queryName) :=
    ⟨fun h => ⟨h.mode, h.listed, h.notExempted⟩, fun h => ⟨h.1, h.2.1, h.2.2⟩⟩
  rw [evaluate_iff libs henabled, threatBlock_iff, refreshSnapshot_blocks hpublished,
    refreshSnapshot_exemptions hpublished.1, hdemanded, ← Bool.not_eq_true, exempt_iff, hmode]
  by_cases henforce : settings.mode = .enforce
  · simp [henforce]
  · have hempty := not_listed_empty now (lookupName queryName)
    simp only [henforce, if_false, hempty, false_and, and_false, false_iff, false_or]
    tauto

/-! A group set to enforce, and a verdict. -/

def enforcingGroup : AiGroup where
  group := { orphanGroup with clients := [], schedule := [] }
  aiMode := some .enforce
  blockedCategories := []

def malwareStore : AiStore where
  verdicts := ⟨[⟨"bad.test".toList, .threat, "malware".toList, "high".toList, "classified".toList, 9 / 10, 1000⟩],
    List.nodup_singleton _⟩
  overrides := OrderedTable.empty
  relabels := OrderedTable.empty

def malwareSettings (mode : AiMode) : AiSettings := ⟨true, mode, ["Malware".toList], 4 / 5⟩

def anyAsker : Asker := ⟨.v4 0xC0000207, none, none⟩

def nothingPublished : Published := ⟨TextSet.empty, OrderedTable.empty, OrderedTable.empty⟩

theorem malware_demanded (mode : AiMode) : Demanded bareLibraries (malwareSettings mode) malwareStore 0
    (some (buildGroups bareLibraries [enforcingGroup])) anyAsker "www.bad.test.".toList 10 ⟨0, 0⟩ where
  mode := by cases mode <;> decide
  listed := by
    refine ⟨"bad.test".toList, by decide, ⟨"bad.test".toList, "malware".toList, 1000⟩, ?_, by decide⟩
    cases mode <;> decide +kernel
  notExempted := by
    rintro ⟨candidate, -, o, h, -⟩
    cases h

/-- A group set to enforce does not block while the global mode is to train. -/
theorem enforcing_group_trains : ¬ ∀ (libs : Libraries) (settings : AiSettings), settings.enabled = true →
    ∀ (store : AiStore) (groups : Option (List CompiledAiGroup)) (asker : Asker) (queryName : Text)
      (refreshedAt now : Int) (week : WeekTime) (fails : SnapshotRead → Bool),
    fails .overrides = false ∧ fails .blocks = false → ∀ before : Published,
    (BlockedAsThreat queryName (evaluate libs settings (refreshSnapshot store settings refreshedAt fails before)
        groups asker queryName now week) ↔
      Demanded libs settings store refreshedAt groups asker queryName now week) := by
  intro h
  have hblocked := (h bareLibraries (malwareSettings .train) rfl malwareStore _ anyAsker "www.bad.test.".toList 0 10
    ⟨0, 0⟩ (fun _ => false) ⟨rfl, rfl⟩ nothingPublished).mpr (malware_demanded .train)
  obtain ⟨category, hsome⟩ := hblocked
  have hnone : evaluate bareLibraries (malwareSettings .train)
      (refreshSnapshot malwareStore (malwareSettings .train) 0 (fun _ => false) nothingPublished)
      (some (buildGroups bareLibraries [enforcingGroup])) anyAsker "www.bad.test.".toList 10 ⟨0, 0⟩ = none := by
    decide
  rw [hnone] at hsome
  cases hsome

/-- It does where the server enforces. -/
theorem enforcing_server_blocks : BlockedAsThreat "www.bad.test.".toList
    (evaluate bareLibraries (malwareSettings .enforce)
      (refreshSnapshot malwareStore (malwareSettings .enforce) 0 (fun _ => false) nothingPublished)
      (some (buildGroups bareLibraries [enforcingGroup])) anyAsker "www.bad.test.".toList 10 ⟨0, 0⟩) := by
  have hiff := (threats_blocked_iff bareLibraries (malwareSettings .enforce) rfl malwareStore
    (some (buildGroups bareLibraries [enforcingGroup])) anyAsker "www.bad.test.".toList 0 10 ⟨0, 0⟩ (fun _ => false)
    ⟨rfl, rfl⟩ nothingPublished).mpr (.inl rfl)
  exact hiff.mpr (malware_demanded .enforce)

end DaygleDns.Ai
