import DaygleDns.Settings.NetworkLists
import DaygleDns.Settings.RuntimeSettings

/-! The components that are built from the configuration at the start, and the live reload,
which rebuilds those whose settings changed. -/
namespace DaygleDns.Settings.Reload

open Text Policy Dispatch

/-! The configuration. What a section has besides is a value of `σ`. -/

structure PolicyRule where
  clients : List Text
  domains : List Text
  action : Text
  redirect : Option IpAddr
deriving DecidableEq

structure PolicySettings (σ : Type) where
  enabled : Bool
  allowlist : List Text
  blocklist : List Text
  blocklistFiles : List Text
  deniedNetworks : List Text
  allowedNetworks : List Text
  rules : List PolicyRule
  filterAaaa : Bool
  filterAaaaExcept : List Text
  cnameInspection : Bool
  safeSearch : Bool
  youtubeRestricted : Bool
  others : σ
deriving DecidableEq

structure ServerSettings (σ : Type) where
  proxyProtocol : List Text
  others : σ
deriving DecidableEq

structure RateLimitSettings where
  enabled : Bool
  clientMaxQueries : UInt32
  clientWindowSecs : UInt64
  domainMaxQueries : UInt32
  domainWindowSecs : UInt64
  exemptLoopback : Bool
  clientIpv6Prefix : UInt8
deriving DecidableEq

structure RrlSettings where
  enabled : Bool
  responsesPerSecond : UInt32
  nxdomainsPerSecond : UInt32
  errorsPerSecond : UInt32
  windowSecs : UInt32
  slip : UInt32
  ipv4Prefix : UInt8
  ipv6Prefix : UInt8
  exempt : List Text
  logOnly : Bool
deriving DecidableEq

structure Configuration (σ : Type) where
  networks : List NamedNetwork
  server : ServerSettings σ
  recursive : Runtime.RecursiveSettings σ
  authoritative : Runtime.AuthoritativeSettings σ
  dot : Runtime.DotSettings
  doh : Runtime.DohSettings
  doq : Runtime.DoqSettings
  policy : PolicySettings σ
  rateLimit : RateLimitSettings
  dns64 : Dns64Settings
  rrl : RrlSettings
  others : Text
deriving DecidableEq

variable {σ ρ : Type}

namespace Configuration

/-- Its lists that may name networks. -/
def named (config : Configuration σ) : DaygleConfig where
  networks := config.networks
  recursionNetworks := config.recursive.recursionNetworks
  deniedNetworks := config.policy.deniedNetworks
  allowedNetworks := config.policy.allowedNetworks
  dns64 := config.dns64
  axfrNetworks := config.authoritative.axfrNetworks
  updateNetworks := config.authoritative.updateNetworks
  proxyProtocol := config.server.proxyProtocol
  dotAllowedNetworks := config.dot.allowedNetworks
  dohAllowedNetworks := config.doh.allowedNetworks
  doqAllowedNetworks := config.doq.allowedNetworks
  rrlExempt := config.rrl.exempt
  clientPolicies := config.recursive.clientPolicies.map fun p => ⟨p.name, p.clients⟩
  policyRules := config.policy.rules.map fun r => ⟨r.clients⟩
  others := config.others

def allNetworks (config : Configuration σ) : List NamedNetwork := config.named.allNetworks

/-- A change of every list of `network_lists_mut`. -/
def mapLists (change : List Text → List Text) (config : Configuration σ) : Configuration σ :=
  { config with
    server := { config.server with proxyProtocol := change config.server.proxyProtocol }
    recursive := { config.recursive with
      recursionNetworks := change config.recursive.recursionNetworks
      clientPolicies := config.recursive.clientPolicies.map fun p => { p with clients := change p.clients } }
    authoritative := { config.authoritative with
      axfrNetworks := change config.authoritative.axfrNetworks
      updateNetworks := change config.authoritative.updateNetworks }
    dot := { config.dot with allowedNetworks := change config.dot.allowedNetworks }
    doh := { config.doh with allowedNetworks := change config.doh.allowedNetworks }
    doq := { config.doq with allowedNetworks := change config.doq.allowedNetworks }
    policy := { config.policy with
      deniedNetworks := change config.policy.deniedNetworks
      allowedNetworks := change config.policy.allowedNetworks
      rules := config.policy.rules.map fun r => { r with clients := change r.clients } }
    dns64 := { config.dns64 with clients := change config.dns64.clients }
    rrl := { config.rrl with exempt := change config.rrl.exempt } }

def withNetworksResolved (libs : Libraries) (config : Configuration σ) : Configuration σ :=
  config.mapLists (resolveNetworkList libs config.allNetworks)

/-- The lists are those that the console renames and resolves. -/
theorem named_withNetworksResolved (libs : Libraries) (config : Configuration σ) :
    (config.withNetworksResolved libs).named = config.named.withNetworksResolved libs := by
  unfold withNetworksResolved DaygleConfig.withNetworksResolved mapLists DaygleConfig.mapLists
  simp only [named, allNetworks, List.map_map]
  rfl

/-- The networks that the entries stand for; an entry that is none is an error. -/
def resolveNetworks (libs : Libraries) (config : Configuration σ) : List Text → Except Text (List Network)
  | [] => .ok []
  | entry :: rest => do
      let entry := trim entry
      if entry.isEmpty then config.resolveNetworks libs rest
      else match parseNetwork libs entry with
        | some net => return net :: (← config.resolveNetworks libs rest)
        | none =>
            match config.named.findNetwork entry with
            | some network => return parseNetworks libs network.cidrs ++ (← config.resolveNetworks libs rest)
            | none => .error (quoted entry ++ " is not a network, an address or a network name".toList)

end Configuration

/-- What the builds take from the outside: the libraries, the files, and the resolver. -/
structure Environment (σ ρ : Type) where
  libs : Libraries
  readFile : Text → Except Text Text
  buildResolver : Runtime.RecursiveSettings σ → List Runtime.StubZoneConfig → Except Text ρ

/-! The policy engine. -/

/-- The engine, with the settings that no decision reads. -/
structure BuiltEngine where
  engine : PolicyEngine
  youtubeRestricted : Bool
  safeSearch : Bool
  cnameInspection : Bool

def parseAction (text : Text) : Except Text Action :=
  let lower := toAsciiLowercase text
  if lower = "allow".toList then .ok .allow
  else if lower ∈ ["refused".toList, "refuse".toList, "deny".toList] then .ok .refused
  else if lower ∈ ["block".toList, "nxdomain".toList] then .ok .block
  else .error ("unknown action ".toList ++ quoted text)

/-- `str::parse::<IpNet>` of each entry. -/
def parseAll (libs : Libraries) (label : Text) (entries : List Text) : Except Text (List Network) :=
  entries.mapM fun net =>
    match libs.parseIpNet net with
    | some parsed => .ok parsed
    | none => .error ("bad ".toList ++ label ++ " network ".toList ++ quoted net)

/-- `0.0.0.0/0` -/
def everyIpv4 : Network := .v4 ⟨0, 0⟩

/-- The list of the entries, where it has any. -/
def listed (entries : TextSet) : Option Blocklist := if entries.isEmpty then none else some (.fromSet entries)

def perClientRule (libs : Libraries) (rule : PolicyRule) : Except Text PerClientRule := do
  let clients ← parseAll libs "client".toList rule.clients
  let action ←
    if rule.action = "redirect".toList then
      match rule.redirect with
      | some address => .ok (.redirect address)
      | none => .error "redirect rule is missing `redirect` address".toList
    else parseAction rule.action
  return {
    clients := if clients.isEmpty then [everyIpv4] else clients
    domains := listed (normalizeDomains libs rule.domains)
    action := action }

/-- The inline entries with those of the files. -/
def readBlocklist (env : Environment σ ρ) (domains : TextSet) : List Text → Except Text TextSet
  | [] => .ok domains
  | file :: rest =>
      match env.readFile file with
      | .error e => .error ("cannot read blocklist ".toList ++ file ++ ": ".toList ++ e)
      | .ok text => readBlocklist env (domains.extend (normalizeDomains env.libs (lines text))) rest

def buildEngine (env : Environment σ ρ) (settings : PolicySettings σ) : Except Text BuiltEngine := do
  let domains ← readBlocklist env (normalizeDomains env.libs settings.blocklist) settings.blocklistFiles
  let denied ← parseAll env.libs "denied".toList settings.deniedNetworks
  let allowed ← parseAll env.libs "allowed".toList settings.allowedNetworks
  let rules ← settings.rules.mapM (perClientRule env.libs)
  return {
    engine := {
      enabled := settings.enabled
      acl := some ⟨denied, allowed⟩
      allowlist := listed (normalizeDomains env.libs settings.allowlist)
      blocklist := listed domains
      remoteBlocklist := none
      dotBlocklist := none
      rules := rules
      plugins := []
      filterAaaa := settings.filterAaaa
      filterAaaaBypass := if settings.filterAaaa then listed (normalizeDomains env.libs settings.filterAaaaExcept) else none
      sourceLists := none }
    youtubeRestricted := settings.youtubeRestricted
    safeSearch := settings.safeSearch
    cnameInspection := settings.cnameInspection }

namespace BuiltEngine

/-- What the refresher of the sources and the start-up own is taken from `other`. -/
def adoptSourceLists (built other : BuiltEngine) : BuiltEngine :=
  { built with
    engine := { built.engine with
      remoteBlocklist := other.engine.remoteBlocklist
      dotBlocklist := other.engine.dotBlocklist
      plugins := other.engine.plugins
      sourceLists := other.engine.sourceLists } }

/-- What is built from the settings alone. -/
def static (built : BuiltEngine) : BuiltEngine :=
  { built with
    engine := { built.engine with remoteBlocklist := none, dotBlocklist := none, plugins := [], sourceLists := none } }

@[simp] theorem static_adoptSourceLists (built other : BuiltEngine) :
    (built.adoptSourceLists other).static = built.static := rfl

end BuiltEngine

/-! The limiters. -/

structure RateLimiter where
  enabled : Bool
  clientLimit : UInt32
  clientWindow : UInt64
  domainLimit : UInt32
  domainWindow : UInt64
  exemptLoopback : Bool
  ipv6Prefix : UInt8
deriving DecidableEq

namespace RateLimiter

def new (settings : RateLimitSettings) : RateLimiter where
  enabled := settings.enabled
  clientLimit := settings.clientMaxQueries
  clientWindow := settings.clientWindowSecs
  domainLimit := settings.domainMaxQueries
  domainWindow := settings.domainWindowSecs
  exemptLoopback := settings.exemptLoopback
  ipv6Prefix := settings.clientIpv6Prefix

def setSettings (limiter : RateLimiter) (settings : RateLimitSettings) : RateLimiter :=
  { limiter with
    enabled := settings.enabled
    clientLimit := settings.clientMaxQueries
    clientWindow := settings.clientWindowSecs
    domainLimit := settings.domainMaxQueries
    domainWindow := settings.domainWindowSecs
    exemptLoopback := settings.exemptLoopback
    ipv6Prefix := settings.clientIpv6Prefix }

@[simp] theorem setSettings_eq (limiter : RateLimiter) (settings : RateLimitSettings) :
    limiter.setSettings settings = new settings := rfl

end RateLimiter

structure ResponseRateLimiter where
  enabled : Bool
  settings : RrlSettings
  exempt : List Network
deriving DecidableEq

namespace ResponseRateLimiter

def new (settings : RrlSettings) (exempt : List Network) : ResponseRateLimiter := ⟨settings.enabled, settings, exempt⟩

def setSettings (limiter : ResponseRateLimiter) (settings : RrlSettings) (exempt : List Network) :
    ResponseRateLimiter :=
  { limiter with enabled := settings.enabled, settings := settings, exempt := exempt }

end ResponseRateLimiter

/-- The exemptions; one that is not a network leaves none. -/
def rrlExemptions (libs : Libraries) (config : Configuration σ) : List Network :=
  match config.resolveNetworks libs config.rrl.exempt with
  | .ok exempt => exempt
  | .error _ => []

/-! The catalog: its settings, and the index of the split-horizon entries. -/

def splitHorizonIndex (libs : Libraries) (networks : List NamedNetwork) (entries : List SplitHorizonEntry) :
    List (Text × List Network × Bool) :=
  (entries.filter (!·.disabled)).map fun entry => (entry.domain, indexedEntry libs networks entry)

structure AuthorityCatalog (σ : Type) where
  settings : Runtime.AuthoritativeSettings σ
  networks : List NamedNetwork
  splitHorizon : List (Text × List Network × Bool)

namespace AuthorityCatalog

/-- `indexFails`: the entries cannot be read. -/
def setNetworks (libs : Libraries) (entries : List SplitHorizonEntry) (indexFails : Bool)
    (networks : List NamedNetwork) (catalog : AuthorityCatalog σ) : AuthorityCatalog σ :=
  if catalog.networks = networks then catalog
  else if indexFails then catalog
  else { catalog with networks := networks, splitHorizon := splitHorizonIndex libs networks entries }

def updateGateSettings (axfrEnabled : Bool) (axfrNetworks : List Text) (allowDynamicUpdates : Bool)
    (updateNetworks : List Text) (catalog : AuthorityCatalog σ) : AuthorityCatalog σ :=
  { catalog with
    settings := { catalog.settings with
      axfrEnabled := axfrEnabled
      axfrNetworks := axfrNetworks
      allowDynamicUpdates := allowDynamicUpdates
      updateNetworks := updateNetworks } }

/-- Whether the zones have to be signed again, and the catalog with the new settings. -/
def updateDnssecSettings (new : Runtime.AuthoritativeSettings σ) (catalog : AuthorityCatalog σ) :
    Bool × AuthorityCatalog σ :=
  let old := catalog.settings
  let resign := old.dnssecEnabled != new.dnssecEnabled || old.dnssecSigValidityDays != new.dnssecSigValidityDays
  let unchanged := !resign &&
    old.dnssecRolloverDays == new.dnssecRolloverDays &&
    old.dnssecRolloverOverlapDays == new.dnssecRolloverOverlapDays &&
    old.dnssecRolloverRetireDays == new.dnssecRolloverRetireDays &&
    old.dnssecMaintenanceSecs == new.dnssecMaintenanceSecs
  if unchanged then (false, catalog)
  else
    (resign, { catalog with
      settings := { old with
        dnssecEnabled := new.dnssecEnabled
        dnssecSigValidityDays := new.dnssecSigValidityDays
        dnssecRolloverDays := new.dnssecRolloverDays
        dnssecRolloverOverlapDays := new.dnssecRolloverOverlapDays
        dnssecRolloverRetireDays := new.dnssecRolloverRetireDays
        dnssecMaintenanceSecs := new.dnssecMaintenanceSecs } })

end AuthorityCatalog

/-- The number of the algorithm that `generate_signing_key` makes a key for. -/
def signingAlgorithm (name : Text) : Nat := ((Runtime.parseDnssecAlgorithm name).map Prod.snd).getD 13

/-! The shared state, with the stored groups and entries. -/

structure Shared (σ ρ : Type) where
  config : Configuration σ
  policy : BuiltEngine
  advancedBlocking : List CompiledGroup
  resolver : Option ρ
  catalog : AuthorityCatalog σ
  rrl : ResponseRateLimiter
  rateLimiter : RateLimiter
  groups : List BlockingGroup
  entries : List SplitHorizonEntry

/-- The stored groups in use, compiled with their clients resolved. -/
def compileGroups (libs : Libraries) (config : Configuration σ) (groups : List BlockingGroup) : List CompiledGroup :=
  ((groups.map (config.named.resolveBlockingGroup libs)).filter (·.enabled)).map (compileGroup libs)

def startResolver (env : Environment σ ρ) (resolved : Configuration σ) : Except Text (Option ρ) :=
  if resolved.recursive.enabled then
    (env.buildResolver resolved.recursive resolved.authoritative.stubZones).map some
  else .ok none

/-- The start of the server. -/
def start (env : Environment σ ρ) (config : Configuration σ) (groups : List BlockingGroup)
    (entries : List SplitHorizonEntry) : Except Text (Shared σ ρ) := do
  let resolved := config.withNetworksResolved env.libs
  let resolver ← startResolver env resolved
  let policy ← buildEngine env resolved.policy
  return {
    config := config
    policy := policy
    advancedBlocking := compileGroups env.libs config groups
    resolver := resolver
    catalog := ⟨resolved.authoritative, config.allNetworks, splitHorizonIndex env.libs config.allNetworks entries⟩
    rrl := .new config.rrl (rrlExemptions env.libs config)
    rateLimiter := .new config.rateLimit
    groups := groups
    entries := entries }

section Reload

variable [DecidableEq σ] (env : Environment σ ρ) (old new : Configuration σ)

/-- Whether the listeners have to be bound again. -/
def listenersChanged : Bool :=
  let oldR := old.withNetworksResolved env.libs
  let newR := new.withNetworksResolved env.libs
  oldR.server != newR.server || oldR.dot != newR.dot || oldR.doh != newR.doh || oldR.doq != newR.doq

/-- A failed build keeps the engine. -/
def reloadPolicy (policy : BuiltEngine) : BuiltEngine :=
  let oldR := old.withNetworksResolved env.libs
  let newR := new.withNetworksResolved env.libs
  if oldR.policy = newR.policy then policy
  else match buildEngine env newR.policy with
    | .ok engine => engine.adoptSourceLists policy
    | .error _ => policy

def reloadNetworks (entries : List SplitHorizonEntry) (indexFails : Bool) (catalog : AuthorityCatalog σ) :
    AuthorityCatalog σ :=
  if old.networks = new.networks then catalog
  else catalog.setNetworks env.libs entries indexFails new.allNetworks

def reloadResolver (resolver : Option ρ) : Option ρ :=
  let oldR := old.withNetworksResolved env.libs
  let newR := new.withNetworksResolved env.libs
  if oldR.recursive = newR.recursive ∧ oldR.authoritative.stubZones = newR.authoritative.stubZones then resolver
  else if newR.recursive.enabled then
    match env.buildResolver newR.recursive newR.authoritative.stubZones with
    | .ok built => some built
    | .error _ => resolver
  else none

def reloadGates (catalog : AuthorityCatalog σ) : AuthorityCatalog σ :=
  let oldGates := (old.withNetworksResolved env.libs).authoritative
  let newGates := (new.withNetworksResolved env.libs).authoritative
  if oldGates.axfrEnabled = newGates.axfrEnabled ∧ oldGates.axfrNetworks = newGates.axfrNetworks ∧
      oldGates.allowDynamicUpdates = newGates.allowDynamicUpdates ∧
      oldGates.updateNetworks = newGates.updateNetworks then catalog
  else catalog.updateGateSettings newGates.axfrEnabled newGates.axfrNetworks newGates.allowDynamicUpdates
    newGates.updateNetworks

def applyRrl (rrl : ResponseRateLimiter) : ResponseRateLimiter := rrl.setSettings new.rrl (rrlExemptions env.libs new)

def reloadRrl (rrl : ResponseRateLimiter) : ResponseRateLimiter :=
  if old.rrl = new.rrl ∧ old.networks = new.networks then rrl else applyRrl env new rrl

def reloadRateLimit (limiter : RateLimiter) : RateLimiter :=
  if old.rateLimit = new.rateLimit then limiter else limiter.setSettings new.rateLimit

/-- `apply_config`: whether the listeners changed, and the shared state. -/
def applyConfig (indexFails : Bool) (shared : Shared σ ρ) : Bool × Shared σ ρ :=
  let old := shared.config
  (listenersChanged env old new,
    { shared with
      config := new
      policy := reloadPolicy env old new shared.policy
      resolver := reloadResolver env old new shared.resolver
      catalog := (AuthorityCatalog.updateDnssecSettings new.authoritative
        (reloadGates env old new (reloadNetworks env old new shared.entries indexFails shared.catalog))).2
      rrl := reloadRrl env old new shared.rrl
      rateLimiter := reloadRateLimit old new shared.rateLimiter })

end Reload

end DaygleDns.Settings.Reload
