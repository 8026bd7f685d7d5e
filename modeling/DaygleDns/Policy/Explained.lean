import DaygleDns.Policy.Groups
import Mathlib.Data.Option.Basic

/-! The explanation of a query agrees with the decision on it: the first check that
blocks or allows is the one that decided, in the engine and in the groups. -/
namespace DaygleDns.Policy

open Text

section FirstDecision

variable {α β γ : Type} {r : α → β → Prop}

theorem rel_or {first second : Option α} {left right : Option β} (hfirst : Option.Rel r first left)
    (hsecond : Option.Rel r second right) : Option.Rel r (first.or second) (left.or right) := by
  cases hfirst with
  | some h => exact .some h
  | none => exact hsecond

theorem rel_findSome? {p : γ → Bool} {f : γ → Option α} {g : γ → β} (items : List γ)
    (h : ∀ item, Option.Rel r (f item) (if p item then some (g item) else none)) :
    Option.Rel r (items.findSome? f) ((items.find? p).map g) := by
  induction items with
  | nil => exact .none
  | cons item items ih =>
    have hitem := h item
    rw [List.findSome?_cons, List.find?_cons]
    generalize f item = answer at hitem
    cases hp : p item with
    | true =>
      rw [hp, if_pos rfl] at hitem
      cases hitem with
      | some hrel => exact .some hrel
    | false =>
      rw [hp, if_neg Bool.false_ne_true] at hitem
      cases hitem with
      | none => exact ih

end FirstDecision

namespace Source

theorem deniedNetwork_ne : deniedNetwork ≠ [] := by decide

theorem allowlist_ne : allowlist ≠ [] := by decide

theorem blocklist_ne : blocklist ≠ [] := by decide

theorem blocklistSource_ne : blocklistSource ≠ [] := by decide

theorem clientRule_ne : clientRule ≠ [] := by decide

theorem aaaaFilter_ne : aaaaFilter ≠ [] := by decide

end Source

/-- What a check says of the decision that it stands for. -/
structure Check.Names (check : Check) (decision : Decision) : Prop where
  source : check.source = decision.source
  matched : check.matched = decision.matched
  group : check.group = decision.group
  result : check.result = if decision.action = .allow then .allow else .block
  action : check.action = if decision.action = .allow then none else some decision.action.asStr
  named : decision.source ≠ []

/-- A decision that names no source is shown as that of a plugin. -/
theorem Check.names_fromDecision (decision : Decision) : (fromDecision decision).Names
    (if decision.source.isEmpty then { decision with source := Source.plugin } else decision) := by
  cases hsource : decision.source.isEmpty with
  | true =>
    rw [if_pos rfl]
    refine ⟨if_pos hsource, rfl, rfl, rfl, ?_, List.cons_ne_nil _ _⟩
    by_cases hallow : decision.action = .allow <;> simp [fromDecision, hallow]
  | false =>
    have hnamed : decision.source ≠ [] := by
      intro hnil
      rw [hnil] at hsource
      cases hsource
    rw [if_neg Bool.false_ne_true]
    refine ⟨if_neg (by simp [hsource]), rfl, rfl, rfl, ?_, hnamed⟩
    by_cases hallow : decision.action = .allow <;> simp [fromDecision, hallow]

/-- The first of the checks that decides stands for the decision. -/
def Explains (checks : List Check) (decision : Option Decision) : Prop :=
  Option.Rel Check.Names (checks.find? Check.decides) decision

theorem Explains.append {first second : List Check} {left right : Option Decision}
    (hfirst : Explains first left) (hsecond : Explains second right) :
    Explains (first ++ second) (left.or right) := by
  unfold Explains
  rw [List.find?_append]
  exact rel_or hfirst hsecond

theorem explains_nil : Explains [] none := .none

theorem explains_none {check : Check} (h : check.decides = false) : Explains [check] none := by
  simp only [Explains, List.find?_cons, h, List.find?_nil]
  exact .none

theorem explains_some {check : Check} {decision : Decision} (h : check.Names decision) :
    Explains [check] (some decision) := by
  have hdecides : check.decides = true := by
    simp only [Check.decides, h.result]
    split <;> rfl
  simp only [Explains, List.find?_cons, hdecides]
  exact .some h

namespace PolicyEngine

variable (engine : PolicyEngine) (client : IpAddr) (queryName recordType : Text) (listener : Option Listener)

theorem explains_acl : Explains (engine.aclChecks client) (engine.aclDecision client) := by
  unfold aclChecks aclDecision
  cases engine.acl with
  | none => exact explains_nil
  | some acl =>
    by_cases hallowed : acl.isAllowed client
    · simp only [if_pos hallowed]
      exact explains_none rfl
    · simp only [if_neg hallowed]
      exact explains_some ⟨rfl, rfl, rfl, rfl, rfl, Source.deniedNetwork_ne⟩

theorem explains_allowlist : Explains (engine.allowlistChecks queryName) (engine.allowlistDecision queryName) := by
  unfold allowlistChecks allowlistDecision
  cases engine.allowlist with
  | none => exact explains_nil
  | some list =>
    cases hempty : list.isEmpty with
    | true =>
      have hnone := Blocklist.matchingEntry_eq_none.mpr (Blocklist.contains_of_isEmpty hempty queryName)
      simp only [Option.filter_some, hempty, Bool.not_true, hnone]
      exact explains_nil
    | false =>
      simp only [Option.filter_some, hempty, Bool.not_false, if_true]
      cases list.matchingEntry queryName with
      | none => exact explains_none rfl
      | some entry => exact explains_some ⟨rfl, rfl, rfl, rfl, rfl, Source.allowlist_ne⟩

theorem explains_blocklist : Explains (engine.blocklistChecks queryName) (engine.blocklistDecision queryName) := by
  unfold blocklistChecks blocklistDecision
  cases engine.blocklist with
  | none => exact explains_nil
  | some list =>
    cases hempty : list.isEmpty with
    | true =>
      have hnone := Blocklist.matchingEntry_eq_none.mpr (Blocklist.contains_of_isEmpty hempty queryName)
      simp only [Option.filter_some, hempty, Bool.not_true, hnone]
      exact explains_nil
    | false =>
      simp only [Option.filter_some, hempty, Bool.not_false, if_true]
      cases list.matchingEntry queryName with
      | none => exact explains_none rfl
      | some entry => exact explains_some ⟨rfl, rfl, rfl, rfl, rfl, Source.blocklist_ne⟩

theorem explains_source (list : Option Blocklist) (dot : Bool) :
    Explains (engine.sourceChecks list queryName dot) (engine.sourceDecision list queryName dot) := by
  unfold sourceChecks sourceDecision
  cases list with
  | none => exact explains_nil
  | some list =>
    cases hempty : list.isEmpty with
    | true =>
      have hcontains := Blocklist.contains_of_isEmpty hempty queryName
      simp only [Option.filter_some, hempty, Bool.not_true, hcontains]
      exact explains_nil
    | false =>
      simp only [Option.filter_some, hempty, Bool.not_false, if_true]
      cases hcontains : list.contains queryName with
      | false => exact explains_none rfl
      | true =>
        simp only [Bool.not_true, Bool.false_eq_true, if_false, if_true, sourceBlock]
        cases engine.sourcesListing queryName dot with
        | nil => exact explains_some ⟨rfl, rfl, rfl, rfl, rfl, Source.blocklistSource_ne⟩
        | cons source listing => exact .some ⟨rfl, rfl, rfl, rfl, rfl, Source.blocklistSource_ne⟩

theorem explains_rules : Explains (engine.ruleChecks client queryName) (engine.ruleDecision client queryName) := by
  unfold ruleChecks ruleDecision
  induction engine.rules with
  | nil => exact explains_nil
  | cons rule rules ih =>
    rw [List.filter_cons, List.find?_cons]
    cases ruleMatches client queryName rule with
    | false => exact ih
    | true =>
      apply @Explains.append [_] _ (some _)
      · refine explains_some ⟨rfl, rfl, rfl, rfl, ?_, Source.clientRule_ne⟩
        by_cases hallow : rule.action = .allow <;> simp [hallow, Decision.new, Decision.withSource]
      · exact ih

theorem explains_aaaa : Explains (engine.aaaaChecks queryName recordType)
    (engine.aaaaDecision queryName recordType) := by
  unfold aaaaChecks aaaaDecision
  cases hasked : engine.filterAaaa && eqIgnoreAsciiCase recordType "AAAA".toList with
  | false =>
    have hnot : engine.aaaaFiltered queryName recordType = false := by
      rw [aaaaFiltered, hasked, Bool.false_and]
    simp only [hnot, Bool.false_eq_true, if_false]
    exact explains_nil
  | true =>
    cases engine.aaaaFiltered queryName recordType with
    | true => exact explains_some ⟨rfl, rfl, rfl, rfl, rfl, Source.aaaaFilter_ne⟩
    | false => exact explains_none rfl

theorem explains_plugins (context : PolicyContext) :
    Explains (engine.pluginChecks context) (engine.pluginDecision context) := by
  unfold pluginChecks pluginDecision
  cases hplugins : engine.plugins with
  | nil => exact explains_nil
  | cons plugin plugins =>
    simp only [List.isEmpty_cons, Bool.false_eq_true, if_false]
    cases evaluatePlugins (plugin :: plugins) context with
    | none => exact explains_none rfl
    | some decision =>
      apply explains_some
      dsimp only
      have hnames := Check.names_fromDecision decision
      cases hsource : decision.source.isEmpty with
      | true =>
        rw [hsource, if_pos rfl] at hnames
        exact ⟨rfl, hnames.matched, hnames.group, hnames.result, hnames.action, hnames.named⟩
      | false =>
        rw [hsource, if_neg Bool.false_ne_true] at hnames
        exact hnames

/-- The decision of the checks, before the default. -/
def decided : Option Decision :=
  (engine.aclDecision client).or <|
    (engine.allowlistDecision queryName).or <|
    (engine.blocklistDecision queryName).or <|
    (engine.sourceDecision engine.remoteBlocklist queryName false).or <|
    (if listener = some .dot then engine.sourceDecision engine.dotBlocklist queryName true else none).or <|
    (engine.ruleDecision client queryName).or <|
    (engine.aaaaDecision queryName recordType).or <|
    engine.pluginDecision ⟨client, queryName, recordType, listener⟩

theorem explains_decided (henabled : engine.enabled = true) :
    Explains (engine.explain client queryName recordType listener)
      (engine.decided client queryName recordType listener) := by
  have hdot : Explains (if listener = some .dot then engine.sourceChecks engine.dotBlocklist queryName true else [])
      (if listener = some .dot then engine.sourceDecision engine.dotBlocklist queryName true else none) := by
    split
    · exact engine.explains_source queryName engine.dotBlocklist true
    · exact explains_nil
  rw [explain, henabled, Bool.not_true, if_neg Bool.false_ne_true]
  exact (engine.explains_acl client).append <|
    (engine.explains_allowlist queryName).append <|
    (engine.explains_blocklist queryName).append <|
    (engine.explains_source queryName engine.remoteBlocklist false).append <|
    hdot.append <|
    (engine.explains_rules client queryName).append <|
    (engine.explains_aaaa queryName recordType).append <|
    engine.explains_plugins ⟨client, queryName, recordType, listener⟩

/-- The first deciding check of an engine's explanation stands for its decision, and
there is none where the decision is the default. -/
theorem explain_agrees :
    let first := (engine.explain client queryName recordType listener).find? Check.decides
    let decision := engine.evaluateOn client queryName recordType listener
    (first = none ↔ decision = .allow) ∧ ∀ check ∈ first, check.Names decision := by
  intro first decision
  cases henabled : engine.enabled with
  | false =>
    have hfirst : first = none := by simp only [first, explain, henabled]; rfl
    have hdecision : decision = .allow := by simp only [decision, evaluateOn, henabled]; rfl
    rw [hfirst, hdecision]
    exact ⟨⟨fun _ => rfl, fun _ => rfl⟩, fun _ hcheck => by cases hcheck⟩
  | true =>
    have hrel := engine.explains_decided client queryName recordType listener henabled
    have hdecision : decision = (engine.decided client queryName recordType listener).getD .allow := by
      simp only [decision, evaluateOn, henabled]
      rfl
    rw [hdecision]
    have hrel : Option.Rel Check.Names first (engine.decided client queryName recordType listener) := hrel
    generalize first = first at hrel
    generalize engine.decided client queryName recordType listener = decided at hrel
    cases hrel with
    | none => exact ⟨⟨fun _ => rfl, fun _ => rfl⟩, fun _ hcheck => by cases hcheck⟩
    | some hnames =>
      refine ⟨⟨fun h => (by cases h), fun h => ?_⟩, fun check hcheck => ?_⟩
      · rw [Option.getD_some] at h
        exact absurd (congrArg Decision.source h) hnames.named
      · rw [← Option.mem_some.mp hcheck]
        exact hnames

end PolicyEngine

/-! The groups. -/

/-- A check of a group that says what in the group blocks the name. -/
structure Check.Blocks (group : CompiledGroup) (check : Check) (found : Text × Text × Text) : Prop where
  result : check.result = .block
  source : check.source = found.2.1
  matched : check.matched = some found.2.2
  named : check.group = some group.name
  action : check.action = some group.action.asStr

namespace CompiledGroup

variable (libs : Libraries) (group : CompiledGroup) (qname : Text)

def ExplainsFound (checks : List Check) (found : Option (Text × Text × Text)) : Prop :=
  Option.Rel (Check.Blocks group) (checks.find? Check.decides) found

variable {group}

theorem ExplainsFound.append {first second : List Check} {left right : Option (Text × Text × Text)}
    (hfirst : group.ExplainsFound first left) (hsecond : group.ExplainsFound second right) :
    group.ExplainsFound (first ++ second) (left.or right) := by
  unfold ExplainsFound
  rw [List.find?_append]
  exact rel_or hfirst hsecond

theorem ExplainsFound.flatMap {γ : Type} {items : List γ} {checks : γ → List Check} {p : γ → Bool}
    {found : γ → Text × Text × Text}
    (h : ∀ item, group.ExplainsFound (checks item) (if p item then some (found item) else none)) :
    group.ExplainsFound (items.flatMap checks) ((items.find? p).map found) := by
  unfold ExplainsFound
  rw [List.find?_flatMap]
  exact rel_findSome? items h

theorem firstPattern_isSome (set : RegexSet) : (firstPattern set qname).isSome = set.isMatch qname := by
  unfold firstPattern RegexSet.isMatch
  cases set.matching qname <;> rfl

theorem allowMatch_isSome : (group.allowMatch qname).isSome = group.allows qname := by
  rw [allowMatch, Option.isSome_or, Blocklist.matchingEntry_isSome, firstPattern_isSome, allows]

theorem blocks_inGroupMatched (kind entry detail reason : Text) :
    Check.Blocks group (group.inGroupMatched .block kind entry detail) (reason, kind, entry) :=
  ⟨rfl, rfl, rfl, rfl, rfl⟩

theorem explains_block : group.ExplainsFound (group.blockChecks qname) (group.blockFound qname) := by
  unfold blockChecks blockFound
  cases group.blockMatch qname with
  | none => exact .none
  | some entry => exact .some (blocks_inGroupMatched _ _ _ _)

theorem explains_services : group.ExplainsFound (group.serviceChecks qname) (group.serviceFound qname) := by
  apply ExplainsFound.flatMap
  intro service
  cases service.2.contains qname with
  | true => exact .some (blocks_inGroupMatched _ _ _ _)
  | false => exact .none

theorem explains_categories (feeds : Text → Option Blocklist) :
    group.ExplainsFound (group.security.flatMap (group.categoryChecks libs qname feeds))
      (group.categoryFound libs qname feeds) := by
  apply ExplainsFound.flatMap
  intro category
  unfold categoryChecks
  cases hdetector : category.detector with
  | some detector =>
    simp only [Option.isSome_some, Option.isNone_some, Bool.false_and, if_true, Bool.false_eq_true, if_false]
    exact .none
  | none =>
    simp only [Option.isSome_none, Option.isNone_none, Bool.true_and, Bool.false_eq_true, if_false]
    cases feeds category.id with
    | none => exact .none
    | some list =>
      simp only [Option.any_some, ← Blocklist.matchingEntry_isSome]
      cases list.matchingEntry qname with
      | none => exact .none
      | some entry => exact .some (blocks_inGroupMatched _ _ _ _)

theorem explains_tlds : group.ExplainsFound (group.tldChecks qname) (group.tldFound qname) := by
  unfold tldChecks tldFound
  cases group.tlds.matchingEntry qname with
  | none => exact .none
  | some entry => exact .some (blocks_inGroupMatched _ _ _ _)

theorem explains_blocklists (lists : Text → Option Blocklist) :
    group.ExplainsFound (group.blocklistChecks qname lists) (group.blocklistFound qname lists) := by
  apply ExplainsFound.flatMap
  intro key
  cases lists key.1 with
  | none => exact .none
  | some list =>
    rw [Option.bind_some, Option.any_some, ← Blocklist.matchingEntry_isSome]
    cases list.matchingEntry qname with
    | none => exact .none
    | some entry => exact .some (blocks_inGroupMatched _ _ _ _)

/-- All checks of a group but those of its allow rules. -/
def restChecks (group : CompiledGroup) (qname : Text) (lists : GroupBlocklists) : List Check :=
  group.blockChecks qname ++ (group.serviceChecks qname ++
    (group.security.flatMap (group.categoryChecks libs qname lists.feeds) ++ (group.tldChecks qname ++
      group.blocklistChecks qname lists.lists)))

theorem explains_rest (lists : GroupBlocklists) :
    group.ExplainsFound (group.restChecks libs qname lists) (group.found libs qname lists) :=
  (explains_block qname).append <|
    (explains_services qname).append <|
    (explains_categories libs qname lists.feeds).append <|
    (explains_tlds qname).append <|
    explains_blocklists qname lists.lists

theorem find?_activeChecks (lists : GroupBlocklists) :
    (group.activeChecks libs qname lists).find? Check.decides =
      (group.allowChecks qname ++ group.restChecks libs qname lists).find? Check.decides := by
  have hshape : group.activeChecks libs qname lists =
      if (group.allowChecks qname ++ group.restChecks libs qname lists).isEmpty then
        [group.inGroup .none Source.group ("Group ".toList ++ quoted group.name ++
          " covers this device; nothing in it matches".toList)]
      else group.allowChecks qname ++ group.restChecks libs qname lists := rfl
  rw [hshape]
  split
  next hempty =>
    rw [List.isEmpty_iff.mp hempty]
    rfl
  next => rfl

/-- A group that lets the name through says so first. -/
theorem find?_of_allows (lists : GroupBlocklists) (h : group.allows qname = true) :
    ∃ check, (group.activeChecks libs qname lists).find? Check.decides = some check ∧ check.result = .allow := by
  rw [← allowMatch_isSome] at h
  obtain ⟨entry, hentry⟩ := Option.isSome_iff_exists.mp h
  rw [find?_activeChecks, allowChecks, hentry]
  exact ⟨_, rfl, rfl⟩

/-- A group that does not let the name through says first what blocks it. -/
theorem find?_of_not_allows (lists : GroupBlocklists) (h : group.allows qname = false) :
    Option.Rel (Check.Blocks group) ((group.activeChecks libs qname lists).find? Check.decides)
      (group.found libs qname lists) := by
  rw [← allowMatch_isSome, Option.isSome_eq_false_iff, Option.isNone_iff_eq_none] at h
  rw [find?_activeChecks, allowChecks, h]
  exact explains_rest libs qname lists

theorem find?_explainChecks_of_not_applies (asker : Asker) (lists : GroupBlocklists) (now : WeekTime)
    (h : group.applies libs asker now = false) :
    (group.explainChecks libs asker qname lists now).find? Check.decides = none := by
  unfold explainChecks
  rw [h]
  split <;> rfl

theorem explainChecks_of_applies (asker : Asker) (lists : GroupBlocklists) (now : WeekTime)
    (h : group.applies libs asker now = true) :
    group.explainChecks libs asker qname lists now = group.activeChecks libs qname lists := by
  have hmatches : group.matchesClient libs asker = true := by
    unfold applies at h
    exact (Bool.and_eq_true_iff.mp h).1
  simp [explainChecks, hmatches, h]

end CompiledGroup

/-- What the first deciding check of the groups says of their decision. -/
structure Check.Tells (check : Check) (decision : Decision) : Prop where
  result : check.result = .block
  source : check.source = decision.source
  matched : check.matched = decision.matched
  group : check.group = decision.group
  action : check.action = some decision.action.asStr

namespace AdvancedBlocking

variable (libs : Libraries)

/-- The first deciding check of the groups blocks exactly where they decide. -/
inductive Agrees : Option Check → Option Decision → Prop where
  | absent : Agrees none none
  | allowed {check : Check} (h : check.result = .allow) : Agrees (some check) none
  | blocked {check : Check} {decision : Decision} (h : check.Tells decision) : Agrees (some check) (some decision)

theorem agrees_groups (asker : Asker) (qname : Text) (lists : GroupBlocklists) (now : WeekTime)
    (groups : List CompiledGroup) :
    Agrees ((groups.flatMap fun group => group.explainChecks libs asker qname lists now).find? Check.decides)
      (evaluateGroups libs asker qname lists now groups) := by
  induction groups with
  | nil => exact .absent
  | cons group groups ih =>
    rw [List.flatMap_cons, List.find?_append, evaluateGroups]
    cases happlies : group.applies libs asker now with
    | false =>
      rw [CompiledGroup.find?_explainChecks_of_not_applies libs qname asker lists now happlies]
      exact ih
    | true =>
      rw [CompiledGroup.explainChecks_of_applies libs qname asker lists now happlies]
      cases hallows : group.allows qname with
      | true =>
        obtain ⟨check, hcheck, hresult⟩ := CompiledGroup.find?_of_allows libs qname lists hallows
        rw [hcheck]
        exact .allowed hresult
      | false =>
        have hrel := CompiledGroup.find?_of_not_allows libs qname lists hallows
        simp only [Bool.not_true, Bool.false_eq_true, if_false]
        generalize (group.activeChecks libs qname lists).find? Check.decides = first at hrel
        generalize group.found libs qname lists = found at hrel
        cases hrel with
        | none => exact ih
        | some hblocks =>
          exact .blocked ⟨hblocks.result, hblocks.source, hblocks.matched, hblocks.named, hblocks.action⟩

end AdvancedBlocking

/-- The explanation agrees with the decision: the first check of an engine's
explanation that blocks or allows has the source, the action and the entry of its
decision, and is missing exactly where the decision is the default; the first such
check of the groups is missing or allows exactly where they do not block, and else
has the group, the source, the action and the entry of their decision. -/
theorem explanation_agrees :
    (∀ (engine : PolicyEngine) (client : IpAddr) (queryName recordType : Text) (listener : Option Listener),
      let first := (engine.explain client queryName recordType listener).find? Check.decides
      let decision := engine.evaluateOn client queryName recordType listener
      (first = none ↔ decision = .allow) ∧
        ∀ check ∈ first, check.source = decision.source ∧ check.matched = decision.matched ∧
          check.result = (if decision.action = .allow then .allow else .block) ∧
          check.action = if decision.action = .allow then none else some decision.action.asStr) ∧
    ∀ (libs : Libraries) (blocking : AdvancedBlocking) (asker : Asker) (qname : Text) (now : WeekTime),
      let first := (blocking.explain libs asker qname now).find? Check.decides
      let decision := blocking.evaluate libs asker qname now
      ((∀ check ∈ first, check.result = .allow) ↔ decision = none) ∧
        ∀ taken ∈ decision, ∃ check, first = some check ∧ check.result = .block ∧ check.group = taken.group ∧
          check.source = taken.source ∧ check.action = some taken.action.asStr ∧ check.matched = taken.matched := by
  constructor
  · intro engine client queryName recordType listener
    have hagrees := engine.explain_agrees client queryName recordType listener
    refine ⟨hagrees.1, fun check hcheck => ?_⟩
    have hnames := hagrees.2 check hcheck
    exact ⟨hnames.source, hnames.matched, hnames.result, hnames.action⟩
  · intro libs blocking asker qname now first decision
    have hagrees : AdvancedBlocking.Agrees first decision :=
      AdvancedBlocking.agrees_groups libs asker qname blocking.lists now blocking.groups
    generalize first = first at hagrees
    generalize decision = decision at hagrees
    cases hagrees with
    | absent => simp
    | allowed h => simp [h]
    | blocked h => simp [h.result, h.group, h.source, h.action, h.matched]

end DaygleDns.Policy
