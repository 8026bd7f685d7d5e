import DaygleDns.Fallible
import DaygleDns.Settings.Reload

/-! What a reload leaves in effect, against a restart on the new configuration: all of it,
except for the clients of the filtering groups and the algorithm of the next signing key. -/
namespace DaygleDns.Settings.Reload

open Text Policy

structure Gates where
  axfrEnabled : Bool
  axfrNetworks : List Text
  allowDynamicUpdates : Bool
  updateNetworks : List Text

structure SigningSettings where
  enabled : Bool
  sigValidityDays : UInt32
  rolloverDays : UInt32
  rolloverOverlapDays : UInt32
  rolloverRetireDays : UInt32
  maintenanceSecs : UInt64

variable {σ ρ : Type}

def gatesOf (settings : Runtime.AuthoritativeSettings σ) : Gates :=
  ⟨settings.axfrEnabled, settings.axfrNetworks, settings.allowDynamicUpdates, settings.updateNetworks⟩

def signingOf (settings : Runtime.AuthoritativeSettings σ) : SigningSettings :=
  ⟨settings.dnssecEnabled, settings.dnssecSigValidityDays, settings.dnssecRolloverDays,
    settings.dnssecRolloverOverlapDays, settings.dnssecRolloverRetireDays, settings.dnssecMaintenanceSecs⟩

/-- The settings that the components act by. -/
structure Effective (ρ : Type) where
  policy : BuiltEngine
  groupClients : List (List Network)
  resolver : Option ρ
  networks : List NamedNetwork
  splitHorizon : List (Text × List Network × Bool)
  gates : Gates
  signing : SigningSettings
  nextAlgorithm : Nat
  rrl : ResponseRateLimiter
  rateLimiter : RateLimiter

def Shared.effective (shared : Shared σ ρ) : Effective ρ where
  policy := shared.policy.static
  groupClients := shared.advancedBlocking.map (·.clients)
  resolver := shared.resolver
  networks := shared.catalog.networks
  splitHorizon := shared.catalog.splitHorizon
  gates := gatesOf shared.catalog.settings
  signing := signingOf shared.catalog.settings
  nextAlgorithm := signingAlgorithm shared.catalog.settings.dnssecAlgorithm
  rrl := shared.rrl
  rateLimiter := shared.rateLimiter

/-- The networks that a group's clients stand for. -/
def clientNetworks (libs : Libraries) (config : Configuration σ) (group : BlockingGroup) : List Network :=
  (compileGroup libs (config.named.resolveBlockingGroup libs group)).clients

variable {env : Environment σ ρ}

/-- What a start that succeeds builds. -/
theorem start_ok {config : Configuration σ} {groups : List BlockingGroup} {entries : List SplitHorizonEntry}
    {shared : Shared σ ρ} (h : start env config groups entries = .ok shared) :
    ∃ resolver policy, startResolver env (config.withNetworksResolved env.libs) = .ok resolver ∧
      buildEngine env (config.withNetworksResolved env.libs).policy = .ok policy ∧
      shared = {
        config := config
        policy := policy
        advancedBlocking := compileGroups env.libs config groups
        resolver := resolver
        catalog := ⟨(config.withNetworksResolved env.libs).authoritative, config.allNetworks,
          splitHorizonIndex env.libs config.allNetworks entries⟩
        rrl := .new config.rrl (rrlExemptions env.libs config)
        rateLimiter := .new config.rateLimit
        groups := groups
        entries := entries } := by
  simp only [start, Fallible.bind_eq_ok] at h
  obtain ⟨resolver, hresolver, policy, hpolicy, hshared⟩ := h
  exact ⟨resolver, policy, hresolver, hpolicy, (Except.ok.inj hshared).symm⟩

theorem map_clients_compileGroups (libs : Libraries) (config : Configuration σ) (groups : List BlockingGroup) :
    (compileGroups libs config groups).map (·.clients) =
      (groups.filter (·.enabled)).map (clientNetworks libs config) := by
  have henabled : (·.enabled) ∘ config.named.resolveBlockingGroup libs = (·.enabled) := rfl
  simp only [compileGroups, List.filter_map, henabled, List.map_map]
  rfl

/-! Each component. -/

section Components

variable [DecidableEq σ] {old new : Configuration σ}

theorem static_reloadPolicy {policy before after : BuiltEngine}
    (hbefore : buildEngine env (old.withNetworksResolved env.libs).policy = .ok before)
    (hafter : buildEngine env (new.withNetworksResolved env.libs).policy = .ok after)
    (h : policy.static = before.static) : (reloadPolicy env old new policy).static = after.static := by
  unfold reloadPolicy
  by_cases hsame : (old.withNetworksResolved env.libs).policy = (new.withNetworksResolved env.libs).policy
  · rw [hsame, hafter] at hbefore
    simp only [hsame, if_true]
    rw [h, Except.ok.inj hbefore]
  · simp only [hsame, if_false, hafter, BuiltEngine.static_adoptSourceLists]

theorem reloadResolver_eq {before after : Option ρ}
    (hbefore : startResolver env (old.withNetworksResolved env.libs) = .ok before)
    (hafter : startResolver env (new.withNetworksResolved env.libs) = .ok after) :
    reloadResolver env old new before = after := by
  unfold reloadResolver
  unfold startResolver at hbefore hafter
  by_cases hsame : (old.withNetworksResolved env.libs).recursive = (new.withNetworksResolved env.libs).recursive ∧
      (old.withNetworksResolved env.libs).authoritative.stubZones =
        (new.withNetworksResolved env.libs).authoritative.stubZones
  · rw [hsame.1, hsame.2, hafter] at hbefore
    simp only [hsame, and_self, if_true]
    exact (Except.ok.inj hbefore).symm
  · simp only [hsame, if_false]
    by_cases henabled : (new.withNetworksResolved env.libs).recursive.enabled = true
    · simp only [henabled, if_true] at hafter ⊢
      cases hbuild : env.buildResolver (new.withNetworksResolved env.libs).recursive
          (new.withNetworksResolved env.libs).authoritative.stubZones with
      | error e =>
        rw [hbuild] at hafter
        cases hafter
      | ok built =>
        rw [hbuild] at hafter
        exact Except.ok.inj hafter
    · simp only [henabled] at hafter ⊢
      exact Except.ok.inj hafter

omit [DecidableEq σ] in
theorem resolveNetworks_congr (libs : Libraries) (h : old.networks = new.networks) (entries : List Text) :
    old.resolveNetworks libs entries = new.resolveNetworks libs entries := by
  have hfind : ∀ name, old.named.findNetwork name = new.named.findNetwork name := by
    intro name
    unfold DaygleConfig.findNetwork DaygleConfig.allNetworks Configuration.named
    rw [h]
  induction entries with
  | nil => rfl
  | cons entry rest ih => simp only [Configuration.resolveNetworks, ih, hfind]

omit [DecidableEq σ] in
theorem reloadRrl_eq : reloadRrl env old new (.new old.rrl (rrlExemptions env.libs old)) =
    .new new.rrl (rrlExemptions env.libs new) := by
  unfold reloadRrl
  by_cases hsame : old.rrl = new.rrl ∧ old.networks = new.networks
  · rw [if_pos hsame]
    unfold rrlExemptions
    rw [resolveNetworks_congr env.libs hsame.2, hsame.1]
  · rw [if_neg hsame]
    rfl

omit [DecidableEq σ] in
theorem reloadRateLimit_eq : reloadRateLimit old new (.new old.rateLimit) = .new new.rateLimit := by
  unfold reloadRateLimit
  by_cases hsame : old.rateLimit = new.rateLimit
  · rw [if_pos hsame, hsame]
  · rw [if_neg hsame, RateLimiter.setSettings_eq]

/-! The catalog. -/

omit [DecidableEq σ] in
@[simp] theorem settings_reloadNetworks (env : Environment σ ρ) (old new : Configuration σ)
    (entries : List SplitHorizonEntry) (fails : Bool) (catalog : AuthorityCatalog σ) :
    (reloadNetworks env old new entries fails catalog).settings = catalog.settings := by
  unfold reloadNetworks AuthorityCatalog.setNetworks
  split
  · rfl
  · split
    · rfl
    · split <;> rfl

omit [DecidableEq σ] in
/-- The index follows the networks. -/
theorem reloadNetworks_index (new : Configuration σ) {entries : List SplitHorizonEntry} {catalog : AuthorityCatalog σ}
    (hnetworks : catalog.networks = old.allNetworks)
    (hindex : catalog.splitHorizon = splitHorizonIndex env.libs old.allNetworks entries) :
    (reloadNetworks env old new entries false catalog).networks = new.allNetworks ∧
      (reloadNetworks env old new entries false catalog).splitHorizon =
        splitHorizonIndex env.libs new.allNetworks entries := by
  unfold reloadNetworks AuthorityCatalog.setNetworks
  by_cases hsame : old.networks = new.networks
  · have hall : old.allNetworks = new.allNetworks := by
      unfold Configuration.allNetworks DaygleConfig.allNetworks Configuration.named
      rw [hsame]
    rw [if_pos hsame, ← hall]
    exact ⟨hnetworks, hindex⟩
  · rw [if_neg hsame]
    by_cases hkept : catalog.networks = new.allNetworks
    · rw [if_pos hkept]
      rw [hnetworks] at hkept
      rw [← hkept]
      exact ⟨hnetworks, hindex⟩
    · rw [if_neg hkept]
      exact ⟨rfl, rfl⟩

omit [DecidableEq σ] in
/-- What the gates' reload does. -/
theorem reloadGates_cases (env : Environment σ ρ) (old new : Configuration σ) (catalog : AuthorityCatalog σ) :
    (reloadGates env old new catalog = catalog ∧
      gatesOf (old.withNetworksResolved env.libs).authoritative =
        gatesOf (new.withNetworksResolved env.libs).authoritative) ∨
    ∃ gates : Gates, gates = gatesOf (new.withNetworksResolved env.libs).authoritative ∧
      reloadGates env old new catalog = catalog.updateGateSettings gates.axfrEnabled gates.axfrNetworks
        gates.allowDynamicUpdates gates.updateNetworks := by
  simp only [reloadGates]
  split
  next hsame =>
    left
    refine ⟨rfl, ?_⟩
    unfold gatesOf
    rw [hsame.1, hsame.2.1, hsame.2.2.1, hsame.2.2.2]
  next => exact .inr ⟨_, rfl, rfl⟩

omit [DecidableEq σ] in
/-- The gates' reload changes nothing else. -/
theorem reloadGates_frame (env : Environment σ ρ) (old new : Configuration σ) (catalog : AuthorityCatalog σ) :
    (reloadGates env old new catalog).networks = catalog.networks ∧
      (reloadGates env old new catalog).splitHorizon = catalog.splitHorizon ∧
      signingOf (reloadGates env old new catalog).settings = signingOf catalog.settings ∧
      (reloadGates env old new catalog).settings.dnssecAlgorithm = catalog.settings.dnssecAlgorithm := by
  cases reloadGates_cases env old new catalog with
  | inl h => rw [h.1]; exact ⟨rfl, rfl, rfl, rfl⟩
  | inr h =>
    obtain ⟨gates, -, h⟩ := h
    rw [h]
    exact ⟨rfl, rfl, rfl, rfl⟩

omit [DecidableEq σ] in
theorem gates_reloadGates (new : Configuration σ) {catalog : AuthorityCatalog σ}
    (h : gatesOf catalog.settings = gatesOf (old.withNetworksResolved env.libs).authoritative) :
    gatesOf (reloadGates env old new catalog).settings =
      gatesOf (new.withNetworksResolved env.libs).authoritative := by
  cases reloadGates_cases env old new catalog with
  | inl hcase => rw [hcase.1, h, hcase.2]
  | inr hcase =>
    obtain ⟨gates, hgates, hcase⟩ := hcase
    rw [hcase, ← hgates]
    rfl

omit [DecidableEq σ] in
/-- What the reload of the signing settings does. -/
theorem updateDnssecSettings_cases (settings : Runtime.AuthoritativeSettings σ) (catalog : AuthorityCatalog σ) :
    ((catalog.updateDnssecSettings settings).2 = catalog ∧ signingOf catalog.settings = signingOf settings) ∨
    (catalog.updateDnssecSettings settings).2 = { catalog with
      settings := { catalog.settings with
        dnssecEnabled := settings.dnssecEnabled
        dnssecSigValidityDays := settings.dnssecSigValidityDays
        dnssecRolloverDays := settings.dnssecRolloverDays
        dnssecRolloverOverlapDays := settings.dnssecRolloverOverlapDays
        dnssecRolloverRetireDays := settings.dnssecRolloverRetireDays
        dnssecMaintenanceSecs := settings.dnssecMaintenanceSecs } } := by
  simp only [AuthorityCatalog.updateDnssecSettings]
  split
  next h =>
    left
    refine ⟨rfl, ?_⟩
    simp only [Bool.and_eq_true, Bool.not_eq_true', Bool.or_eq_false_iff, bne_eq_false_iff_eq, beq_iff_eq] at h
    obtain ⟨⟨⟨⟨⟨henabled, hvalidity⟩, hrollover⟩, hoverlap⟩, hretire⟩, hmaintenance⟩ := h
    unfold signingOf
    rw [henabled, hvalidity, hrollover, hoverlap, hretire, hmaintenance]
  next => exact .inr rfl

omit [DecidableEq σ] in
/-- The signing settings are taken, and the rest stays, the algorithm included. -/
theorem updateDnssecSettings_spec (settings : Runtime.AuthoritativeSettings σ) (catalog : AuthorityCatalog σ) :
    signingOf (catalog.updateDnssecSettings settings).2.settings = signingOf settings ∧
      (catalog.updateDnssecSettings settings).2.networks = catalog.networks ∧
      (catalog.updateDnssecSettings settings).2.splitHorizon = catalog.splitHorizon ∧
      gatesOf (catalog.updateDnssecSettings settings).2.settings = gatesOf catalog.settings ∧
      (catalog.updateDnssecSettings settings).2.settings.dnssecAlgorithm = catalog.settings.dnssecAlgorithm := by
  cases updateDnssecSettings_cases settings catalog with
  | inl h => rw [h.1]; exact ⟨h.2, rfl, rfl, rfl, rfl⟩
  | inr h => rw [h]; exact ⟨rfl, rfl, rfl, rfl, rfl⟩

/-- The catalog after a reload. -/
theorem catalog_applyConfig (new : Configuration σ) {shared : Shared σ ρ} (hnetworks : shared.catalog.networks = shared.config.allNetworks)
    (hindex : shared.catalog.splitHorizon = splitHorizonIndex env.libs shared.config.allNetworks shared.entries)
    (hgates : gatesOf shared.catalog.settings = gatesOf (shared.config.withNetworksResolved env.libs).authoritative) :
    (applyConfig env new false shared).2.catalog.networks = new.allNetworks ∧
      (applyConfig env new false shared).2.catalog.splitHorizon =
        splitHorizonIndex env.libs new.allNetworks shared.entries ∧
      gatesOf (applyConfig env new false shared).2.catalog.settings =
        gatesOf (new.withNetworksResolved env.libs).authoritative ∧
      signingOf (applyConfig env new false shared).2.catalog.settings = signingOf new.authoritative ∧
      (applyConfig env new false shared).2.catalog.settings.dnssecAlgorithm =
        shared.catalog.settings.dnssecAlgorithm := by
  simp only [applyConfig]
  have hspec := updateDnssecSettings_spec new.authoritative (reloadGates env shared.config new
    (reloadNetworks env shared.config new shared.entries false shared.catalog))
  have hframe := reloadGates_frame env shared.config new
    (reloadNetworks env shared.config new shared.entries false shared.catalog)
  have hreloaded := reloadNetworks_index new hnetworks hindex
  have hgate := gates_reloadGates new ((congrArg gatesOf (settings_reloadNetworks env shared.config new
    shared.entries false shared.catalog)).trans hgates)
  refine ⟨?_, ?_, ?_, hspec.1, ?_⟩
  · rw [hspec.2.1, hframe.1, hreloaded.1]
  · rw [hspec.2.2.1, hframe.2.1, hreloaded.2]
  · rw [hspec.2.2.2.1, hgate]
  · rw [hspec.2.2.2.2, hframe.2.2.2, settings_reloadNetworks]

end Components

/-! The reload. -/

/-- The shared state acts as a start with its configuration would have it. -/
def InEffect (env : Environment σ ρ) (shared : Shared σ ρ) : Prop :=
  ∃ fresh, start env shared.config shared.groups shared.entries = .ok fresh ∧ shared.effective = fresh.effective

/-- A reload leaves in effect what a restart on the new configuration would, if and only if the
clients of the stored groups in use stand for the same networks in both configurations, and the keys
to be generated have the same algorithm. -/
theorem reload_eq_restart_iff [DecidableEq σ] {shared fresh : Shared σ ρ} (new : Configuration σ)
    (hbefore : InEffect env shared) (hfresh : start env new shared.groups shared.entries = .ok fresh) :
    (applyConfig env new false shared).2.effective = fresh.effective ↔
      (∀ group ∈ shared.groups, group.enabled →
        clientNetworks env.libs shared.config group = clientNetworks env.libs new group) ∧
        signingAlgorithm shared.config.authoritative.dnssecAlgorithm =
          signingAlgorithm new.authoritative.dnssecAlgorithm := by
  obtain ⟨before, hstart, heffective⟩ := hbefore
  obtain ⟨resolverBefore, policyBefore, hresolverBefore, hpolicyBefore, rfl⟩ := start_ok hstart
  obtain ⟨resolver, policy, hresolver, hpolicy, rfl⟩ := start_ok hfresh
  simp only [Shared.effective, Effective.mk.injEq, map_clients_compileGroups] at heffective
  obtain ⟨hstatic, hclients, hrunning, hnetworks, hindex, hgates, -, halgorithm, hrrl, hlimiter⟩ := heffective
  obtain ⟨hnewNetworks, hnewIndex, hnewGates, hnewSigning, hsameAlgorithm⟩ :=
    catalog_applyConfig new hnetworks hindex hgates
  simp only [Shared.effective, Effective.mk.injEq, map_clients_compileGroups, hnewNetworks, hnewIndex, hnewGates,
    hnewSigning, hsameAlgorithm, halgorithm]
  simp only [applyConfig, static_reloadPolicy hpolicyBefore hpolicy hstatic, hclients, hrrl, hlimiter, hrunning,
    reloadResolver_eq hresolverBefore hresolver, reloadRrl_eq, reloadRateLimit_eq, List.map_inj_left]
  simp [Configuration.withNetworksResolved, Configuration.mapLists, signingOf]

/-! A home network that moves to other addresses. -/

def homeConfig (cidrs denied : List Text) : Configuration Unit where
  networks := [⟨"LAN".toList, cidrs, []⟩]
  server := ⟨[], ()⟩
  recursive :=
    { enabled := true, mode := none, upstreams := ["9.9.9.9".toList], useSystemConfig := false, cacheSize := 8192
      timeoutSecs := 5, dnssecValidate := true, minCacheTtl := 0, negativeCacheTtl := 900, maxCacheTtl := 86400
      failureCacheTtl := 5, conditionalZones := [], prefetchEnabled := true, prefetchTtlFractionPct := 10
      prefetchMinQueries := 3, prefetchWindowSecs := 300, serveStaleSecs := 86400, maxConcurrentLookups := 512
      recursionAccess := .custom, recursionNetworks := ["LAN".toList], rootHints := [], caseRandomization := false
      rebindingProtection := true, localRoot := ⟨true, [], none, .both⟩, opportunisticEncryption := false
      outboundIpVersions := .both, clientPolicies := [], others := () }
  authoritative :=
    { defaultPrimaryNs := [], defaultAdminMailbox := [], defaultRecordTtl := 3600, dnssecEnabled := true
      dnssecAlgorithm := "ED25519".toList, dnssecSigValidityDays := 14, dnssecRolloverDays := 90
      dnssecRolloverOverlapDays := 7, dnssecRolloverRetireDays := 7, dnssecMaintenanceSecs := 3600
      axfrEnabled := false, axfrNetworks := [], allowDynamicUpdates := false, updateNetworks := [], catalogZone := []
      catalogConsumers := [], notifyEnabled := true, notifyTargets := [], notifyListenEnabled := false
      stubZones := [], emptyZones := [], others := () }
  dot := ⟨false, "0.0.0.0".toList, 853, [], [], true, [], [], 512, 10, []⟩
  doh := ⟨false, "0.0.0.0".toList, 443, [], [], true, [], "/dns-query".toList, [], 10, 512, [], false⟩
  doq := ⟨false, "0.0.0.0".toList, 853, [], [], true, [], 30, 512, 100, [], []⟩
  policy := ⟨true, [], [], [], denied, [], [], false, [], true, false, false, ()⟩
  rateLimit := ⟨false, 100, 10, 100, 10, true, 56⟩
  dns64 := ⟨false, "64:ff9b::/96".toList, []⟩
  rrl := ⟨false, 10, 10, 10, 15, 2, 24, 56, ["LAN".toList], false⟩
  others := []

/-- A group of clients, with nothing to block. -/
def clientGroup (clients : List Text) : BlockingGroup where
  name := "Kids".toList
  enabled := true
  clients := clients
  allow := []
  block := []
  allowRegex := []
  blockRegex := []
  blocklists := []
  response := .nxDomain
  schedule := []
  blockedServices := []
  blockedSecurity := []
  blockedTlds := []
  blockLocalAddresses := false
  limitPayloads := false

/-- No files, and a resolver that is its settings. -/
def homeEnvironment : Environment Unit (Runtime.RecursiveSettings Unit) where
  libs := plainLibraries
  readFile := fun _ => .error "not found".toList
  buildResolver := fun settings _ => .ok settings

def homeChecker : Checker := ⟨plainLibraries, fun _ => .ok ()⟩

/-- A group that names the network keeps its old addresses. -/
theorem named_clients_stay : ¬ ∀ (old new : Configuration Unit) (groups : List BlockingGroup)
    (entries : List SplitHorizonEntry) (before fresh : Shared Unit (Runtime.RecursiveSettings Unit)),
    old.named.validate homeChecker = .ok () → new.named.validate homeChecker = .ok () →
    start homeEnvironment old groups entries = .ok before → start homeEnvironment new groups entries = .ok fresh →
    (applyConfig homeEnvironment new false before).2.effective = fresh.effective := by
  intro h
  have hsame := h (homeConfig ["192.168.1.0/24".toList] []) (homeConfig ["10.1.0.0/16".toList] [])
    [clientGroup ["LAN".toList]] [] _ _ (by decide) (by decide) rfl rfl
  have hclients := congrArg Effective.groupClients hsame
  revert hclients
  decide

/-- A group that names addresses is not concerned. -/
theorem addressed_clients_reload : ∃ before fresh,
    start homeEnvironment (homeConfig ["192.168.1.0/24".toList] []) [clientGroup ["192.168.1.0/24".toList]] [] =
      .ok before ∧
    start homeEnvironment (homeConfig ["10.1.0.0/16".toList] ["203.0.113.0/24".toList])
      [clientGroup ["192.168.1.0/24".toList]] [] = .ok fresh ∧
    (applyConfig homeEnvironment (homeConfig ["10.1.0.0/16".toList] ["203.0.113.0/24".toList]) false
      before).2.effective = fresh.effective := by
  refine ⟨_, _, rfl, rfl, ?_⟩
  apply (reload_eq_restart_iff _ ⟨_, rfl, rfl⟩ rfl).mpr
  refine ⟨?_, rfl⟩
  intro group hgroup _
  rw [List.mem_singleton.mp hgroup]
  decide

end DaygleDns.Settings.Reload
