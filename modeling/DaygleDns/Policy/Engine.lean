import DaygleDns.Addresses
import DaygleDns.Policy.BlocklistSources

/-! The policy engine: its decision on a query, and the list of all its checks that
the console shows. A plugin is a function of the query's context. -/
namespace DaygleDns.Policy

open Text

inductive Action where
  | allow | refused | block
  | redirect (address : IpAddr)
  | noData
deriving DecidableEq

def Action.asStr : Action → Text
  | .allow => "allow".toList
  | .refused => "refused".toList
  | .block => "block".toList
  | .redirect _ => "redirect".toList
  | .noData => "nodata".toList

/-! The names of what can decide a query. -/

namespace Source

def deniedNetwork : Text := "denied_network".toList
def allowlist : Text := "allowlist".toList
def blocklist : Text := "blocklist".toList
def blocklistSource : Text := "blocklist_source".toList
def clientRule : Text := "client_rule".toList
def aaaaFilter : Text := "aaaa_filter".toList
def ai : Text := "ai".toList
def plugin : Text := "plugin".toList
def group : Text := "group".toList
def service : Text := "service".toList
def security : Text := "security".toList
def tld : Text := "tld".toList
def privacy : Text := "privacy".toList
def groupBlocklist : Text := "group_blocklist".toList

end Source

structure Decision where
  action : Action
  reason : Text
  group : Option Text
  source : Text
  matched : Option Text
deriving DecidableEq

namespace Decision

def new (reason : Text) (action : Action) : Decision := ⟨action, reason, none, [], none⟩

def withGroup (decision : Decision) (group : Text) : Decision := { decision with group := some group }

def withSource (decision : Decision) (source : Text) (matched : Option Text) : Decision :=
  { decision with source := source, matched := matched }

def allow : Decision := new "no policy matched".toList .allow

end Decision

/-- The encrypted listeners; a query over plain DNS has none. -/
inductive Listener where
  | dot | doh | doq
deriving DecidableEq

inductive CheckResult where
  | block | allow | rewrite | none | off
deriving DecidableEq

/-- One check of an explanation. -/
structure Check where
  source : Text
  result : CheckResult
  detail : Text
  matched : Option Text
  group : Option Text
  action : Option Text
deriving DecidableEq

namespace Check

def new (source : Text) (result : CheckResult) (detail : Text) : Check :=
  ⟨source, result, detail, none, none, none⟩

def fromDecision (decision : Decision) : Check :=
  let result := if decision.action = .allow then CheckResult.allow else .block
  { source := if decision.source.isEmpty then Source.plugin else decision.source
    result := result
    detail := decision.reason
    matched := decision.matched
    group := decision.group
    action := if result = .block then some decision.action.asStr else none }

/-- Whether the check blocks or allows the query. -/
def decides (check : Check) : Bool := check.result = .block || check.result = .allow

end Check

structure Acl where
  denied : List Network
  allowed : List Network

def Acl.isAllowed (acl : Acl) (client : IpAddr) : Bool :=
  !acl.denied.any (·.contains client) && (acl.allowed.isEmpty || acl.allowed.any (·.contains client))

structure PerClientRule where
  clients : List Network
  domains : Option Blocklist
  action : Action

namespace PerClientRule

def matchesClient (rule : PerClientRule) (client : IpAddr) : Bool := rule.clients.any (·.contains client)

def matchesDomain (rule : PerClientRule) (domain : Text) : Bool :=
  match rule.domains with
  | none => true
  | some list => list.contains domain

end PerClientRule

structure PolicyContext where
  client : IpAddr
  queryName : Text
  recordType : Text
  listener : Option Listener

abbrev PolicyPlugin := PolicyContext → Option Decision

/-- The decision of the first plugin that has one. -/
def evaluatePlugins (plugins : List PolicyPlugin) (context : PolicyContext) : Option Decision :=
  plugins.findSome? fun plugin => plugin context

/-- The lists that the refreshes publish: those of group-scoped sources by name, the
entries behind the merged lists, and the feeds of the security categories. -/
structure GroupBlocklists where
  lists : Text → Option Blocklist
  mergedSources : MergedSources
  feeds : Text → Option Blocklist

/-- The merged sources that list `domain`, each with its entry, in source order. -/
def GroupBlocklists.sourcesListing (lists : GroupBlocklists) (domain : Text) (dot : Bool) : List (Text × Text) :=
  (if dot then lists.mergedSources.dot else lists.mergedSources.everyone).filterMap fun source =>
    (entryFor source.2 domain).map fun entry => (source.1, entry)

structure PolicyEngine where
  enabled : Bool
  acl : Option Acl
  allowlist : Option Blocklist
  blocklist : Option Blocklist
  remoteBlocklist : Option Blocklist
  dotBlocklist : Option Blocklist
  rules : List PerClientRule
  plugins : List PolicyPlugin
  filterAaaa : Bool
  filterAaaaBypass : Option Blocklist
  sourceLists : Option GroupBlocklists

/-- `name` between single quotes. -/
def quoted (name : Text) : Text := '\x27' :: name ++ ['\x27']

namespace PolicyEngine

def sourcesListing (engine : PolicyEngine) (domain : Text) (dot : Bool) : List (Text × Text) :=
  match engine.sourceLists with
  | none => []
  | some lists => lists.sourcesListing domain dot

def sourceBlock (engine : PolicyEngine) (domain : Text) (dot : Bool) : Decision :=
  let scope := if dot then " (DoT)".toList else []
  match (engine.sourcesListing domain dot).head? with
  | some (name, entry) =>
      (Decision.new (quoted domain ++ " is on the blocklist source ".toList ++ quoted name ++ scope ++
        " (entry ".toList ++ quoted entry ++ ")".toList) .block).withSource Source.blocklistSource (some name)
  | none =>
      (Decision.new (quoted domain ++ " matched remote blocklist source".toList ++ scope) .block).withSource
        Source.blocklistSource none

def aaaaFiltered (engine : PolicyEngine) (queryName recordType : Text) : Bool :=
  engine.filterAaaa && eqIgnoreAsciiCase recordType "AAAA".toList &&
    !engine.filterAaaaBypass.any (·.contains queryName)

/-! The checks of `evaluate_with`, each with what `explain` lists for it. -/

def aclDecision (engine : PolicyEngine) (client : IpAddr) : Option Decision :=
  match engine.acl with
  | none => none
  | some acl =>
      if acl.isAllowed client then none
      else some ((Decision.new ("client ".toList ++ client.toText ++ " is in a denied network".toList)
        .refused).withSource Source.deniedNetwork none)

def aclChecks (engine : PolicyEngine) (client : IpAddr) : List Check :=
  match engine.acl with
  | none => []
  | some acl =>
      if acl.isAllowed client then
        [.new Source.deniedNetwork .none (client.toText ++ " is not in a denied network".toList)]
      else
        [{ Check.new Source.deniedNetwork .block
            (client.toText ++ " is in a denied network: every query is refused".toList) with
          action := some Action.refused.asStr }]

def allowlistDecision (engine : PolicyEngine) (queryName : Text) : Option Decision :=
  match engine.allowlist with
  | none => none
  | some list => (list.matchingEntry queryName).map fun entry =>
      (Decision.new (quoted queryName ++ " is on the allowlist (entry ".toList ++ quoted entry ++ ")".toList)
        .allow).withSource Source.allowlist (some entry)

def allowlistChecks (engine : PolicyEngine) (queryName : Text) : List Check :=
  match engine.allowlist.filter (!·.isEmpty) with
  | none => []
  | some list =>
      match list.matchingEntry queryName with
      | some entry =>
          [{ Check.new Source.allowlist .allow ("On the allowlist (entry ".toList ++ quoted entry ++
              "): no blocklist, group or response policy zone blocks it".toList) with
            matched := some entry }]
      | none => [.new Source.allowlist .none "Not on the allowlist".toList]

def blocklistDecision (engine : PolicyEngine) (queryName : Text) : Option Decision :=
  match engine.blocklist with
  | none => none
  | some list => (list.matchingEntry queryName).map fun entry =>
      (Decision.new (quoted queryName ++ " is on the blocklist (entry ".toList ++ quoted entry ++ ")".toList)
        .block).withSource Source.blocklist (some entry)

def blocklistChecks (engine : PolicyEngine) (queryName : Text) : List Check :=
  match engine.blocklist.filter (!·.isEmpty) with
  | none => []
  | some list =>
      match list.matchingEntry queryName with
      | some entry =>
          [{ Check.new Source.blocklist .block
              ("On the blocklist (entry ".toList ++ quoted entry ++ ")".toList) with
            matched := some entry
            action := some Action.block.asStr }]
      | none => [.new Source.blocklist .none "Not on the blocklist".toList]

def sourceDecision (engine : PolicyEngine) (list : Option Blocklist) (queryName : Text) (dot : Bool) :
    Option Decision :=
  match list with
  | none => none
  | some list => if list.contains queryName then some (engine.sourceBlock queryName dot) else none

/-- `source_checks` -/
def sourceChecks (engine : PolicyEngine) (list : Option Blocklist) (queryName : Text) (dot : Bool) : List Check :=
  let scope := if dot then " for the DoT listener".toList else []
  match list.filter (!·.isEmpty) with
  | none => []
  | some list =>
      if !list.contains queryName then
        [.new Source.blocklistSource .none ("Not on any blocklist source".toList ++ scope)]
      else
        let listing := engine.sourcesListing queryName dot
        (if listing.isEmpty then
          [{ Check.new Source.blocklistSource .block ("On a blocklist source".toList ++ scope) with
            action := some Action.block.asStr }]
        else []) ++
        listing.map fun (name, entry) =>
          { Check.new Source.blocklistSource .block ("On the blocklist source ".toList ++ quoted name ++ scope ++
              " (entry ".toList ++ quoted entry ++ ")".toList) with
            matched := some name
            action := some Action.block.asStr }

def ruleMatches (client : IpAddr) (queryName : Text) (rule : PerClientRule) : Bool :=
  rule.matchesClient client && rule.matchesDomain queryName

def ruleDecision (engine : PolicyEngine) (client : IpAddr) (queryName : Text) : Option Decision :=
  (engine.rules.find? (ruleMatches client queryName)).map fun rule =>
    (Decision.new (quoted queryName ++ " matched per-client rule".toList) rule.action).withSource
      Source.clientRule none

def ruleChecks (engine : PolicyEngine) (client : IpAddr) (queryName : Text) : List Check :=
  (engine.rules.filter (ruleMatches client queryName)).map fun rule =>
    { Check.new Source.clientRule (if rule.action = .allow then .allow else .block)
        "Matches a per-client rule in the configuration".toList with
      action := if rule.action ≠ .allow then some rule.action.asStr else none }

def aaaaDecision (engine : PolicyEngine) (queryName recordType : Text) : Option Decision :=
  if engine.aaaaFiltered queryName recordType then
    some ((Decision.new ("AAAA filtered for ".toList ++ quoted queryName) .noData).withSource Source.aaaaFilter none)
  else none

def aaaaChecks (engine : PolicyEngine) (queryName recordType : Text) : List Check :=
  if engine.filterAaaa && eqIgnoreAsciiCase recordType "AAAA".toList then
    if engine.aaaaFiltered queryName recordType then
      [{ Check.new Source.aaaaFilter .block "Filter AAAA answers IPv6 queries with no addresses".toList with
        action := some Action.noData.asStr }]
    else [.new Source.aaaaFilter .none "Exempt from Filter AAAA".toList]
  else []

def pluginDecision (engine : PolicyEngine) (context : PolicyContext) : Option Decision :=
  (evaluatePlugins engine.plugins context).map fun decision =>
    if decision.source.isEmpty then { decision with source := Source.plugin } else decision

def pluginChecks (engine : PolicyEngine) (context : PolicyContext) : List Check :=
  if engine.plugins.isEmpty then []
  else match evaluatePlugins engine.plugins context with
    | some decision =>
        let check := Check.fromDecision decision
        [if decision.source.isEmpty then { check with source := Source.plugin } else check]
    | none =>
        [.new Source.ai .none ("The AI scanner does not block it (no blocking verdict, Train mode, or the ".toList ++
          "device's group has AI blocking off)".toList)]

/-- The first check that decides, in the order of the source. -/
def evaluateWith (engine : PolicyEngine) (client : IpAddr) (queryName recordType : Text)
    (listener : Option Listener) : Decision :=
  ((engine.aclDecision client).or <|
    (engine.allowlistDecision queryName).or <|
    (engine.blocklistDecision queryName).or <|
    (engine.sourceDecision engine.remoteBlocklist queryName false).or <|
    (if listener = some .dot then engine.sourceDecision engine.dotBlocklist queryName true else none).or <|
    (engine.ruleDecision client queryName).or <|
    (engine.aaaaDecision queryName recordType).or <|
    engine.pluginDecision ⟨client, queryName, recordType, listener⟩).getD .allow

def evaluateOn (engine : PolicyEngine) (client : IpAddr) (queryName recordType : Text)
    (listener : Option Listener) : Decision :=
  if !engine.enabled then .allow else engine.evaluateWith client queryName recordType listener

def explain (engine : PolicyEngine) (client : IpAddr) (queryName recordType : Text)
    (listener : Option Listener) : List Check :=
  if !engine.enabled then
    [.new Source.blocklist .off "Filtering is turned off, so no list or rule blocks anything".toList]
  else
    engine.aclChecks client ++ (engine.allowlistChecks queryName ++ (engine.blocklistChecks queryName ++
      (engine.sourceChecks engine.remoteBlocklist queryName false ++
        ((if listener = some .dot then engine.sourceChecks engine.dotBlocklist queryName true else []) ++
          (engine.ruleChecks client queryName ++ (engine.aaaaChecks queryName recordType ++
            engine.pluginChecks ⟨client, queryName, recordType, listener⟩))))))

end PolicyEngine

end DaygleDns.Policy
