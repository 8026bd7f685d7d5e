import DaygleDns.Text

/-! The settings that the console owns: captured from the configuration at a save, and
laid over the configuration file at the next start. -/
namespace DaygleDns.Settings.Runtime

open Text

/-- The bits of a float. -/
abbrev F32 := UInt32

/-! The configuration. A section that is copied as it is, and what a section has besides
the settings of the console, is a value of `σ`. -/

inductive ResolutionMode where
  | recursive | forwarding
deriving DecidableEq

inductive RecursionAccess where
  | allow | privateNetworks | custom | deny
deriving DecidableEq

inductive IpVersions where
  | both | ipv4 | ipv6
deriving DecidableEq

inductive ClientPolicyAction where
  | forward | recursive | refuse
deriving DecidableEq

inductive AiMode where
  | train | enforce
deriving DecidableEq

structure ConditionalZoneConfig where
  name : Text
  upstreams : List Text
deriving DecidableEq

structure LocalRootSettings where
  enabled : Bool
  sources : List Text
  testTrustAnchor : Option (List UInt8)
  outboundIpVersions : IpVersions
deriving DecidableEq

structure ClientPolicyConfig where
  name : Text
  enabled : Bool
  clients : List Text
  action : ClientPolicyAction
  upstreams : List Text
  modifiedAt : Option Text
deriving DecidableEq

structure StubZoneConfig where
  name : Text
  nss : List Text
  refreshSecs : UInt64
  enabled : Bool
deriving DecidableEq

structure CatalogConsumerConfig where
  name : Text
  masters : List Text
  refreshSecs : UInt64
  enabled : Bool
deriving DecidableEq

structure RecursiveSettings (σ : Type) where
  enabled : Bool
  mode : Option ResolutionMode
  upstreams : List Text
  useSystemConfig : Bool
  cacheSize : Nat
  timeoutSecs : UInt64
  dnssecValidate : Bool
  minCacheTtl : UInt32
  negativeCacheTtl : UInt32
  maxCacheTtl : UInt32
  failureCacheTtl : UInt32
  conditionalZones : List ConditionalZoneConfig
  prefetchEnabled : Bool
  prefetchTtlFractionPct : UInt32
  prefetchMinQueries : UInt32
  prefetchWindowSecs : UInt64
  serveStaleSecs : UInt64
  maxConcurrentLookups : Nat
  recursionAccess : RecursionAccess
  recursionNetworks : List Text
  rootHints : List Text
  caseRandomization : Bool
  rebindingProtection : Bool
  localRoot : LocalRootSettings
  opportunisticEncryption : Bool
  outboundIpVersions : IpVersions
  clientPolicies : List ClientPolicyConfig
  others : σ
deriving DecidableEq

structure DotSettings where
  enabled : Bool
  listen : Text
  port : UInt16
  certPath : Text
  keyPath : Text
  selfSigned : Bool
  serverName : Text
  certificate : Text
  maxConnections : Nat
  handshakeTimeoutSecs : UInt64
  allowedNetworks : List Text
deriving DecidableEq

structure DohSettings where
  enabled : Bool
  listen : Text
  port : UInt16
  certPath : Text
  keyPath : Text
  selfSigned : Bool
  serverName : Text
  endpoint : Text
  certificate : Text
  handshakeTimeoutSecs : UInt64
  maxConnections : Nat
  allowedNetworks : List Text
  http3 : Bool
deriving DecidableEq

structure DoqSettings where
  enabled : Bool
  listen : Text
  port : UInt16
  certPath : Text
  keyPath : Text
  selfSigned : Bool
  serverName : Text
  idleTimeoutSecs : UInt64
  maxConnections : Nat
  maxConcurrentStreams : Nat
  certificate : Text
  allowedNetworks : List Text
deriving DecidableEq

structure PolicySettings (σ : Type) where
  allowlist : List Text
  blocklist : List Text
  blocklistSources : σ
  deniedNetworks : List Text
  allowedNetworks : List Text
  filterAaaa : Bool
  filterAaaaExcept : List Text
  cnameInspection : Bool
  safeSearch : Bool
  youtubeRestricted : Bool
  safeBrowsingKey : Text
  others : σ
deriving DecidableEq

structure AiSettings (σ : Type) where
  enabled : Bool
  mode : AiMode
  database : Text
  modelPath : Text
  workers : UInt32
  scanIntervalSecs : UInt64
  expireCheckSecs : UInt64
  maxDomainsPerScan : UInt32
  autoBlockCategories : List Text
  blockThreshold : F32
  confidenceFloor : F32
  categoryTtlSecs : UInt64
  threatTtlSecs : UInt64
  others : σ
deriving DecidableEq

structure AuthoritativeSettings (σ : Type) where
  defaultPrimaryNs : Text
  defaultAdminMailbox : Text
  defaultRecordTtl : UInt32
  dnssecEnabled : Bool
  dnssecAlgorithm : Text
  dnssecSigValidityDays : UInt32
  dnssecRolloverDays : UInt32
  dnssecRolloverOverlapDays : UInt32
  dnssecRolloverRetireDays : UInt32
  dnssecMaintenanceSecs : UInt64
  axfrEnabled : Bool
  axfrNetworks : List Text
  allowDynamicUpdates : Bool
  updateNetworks : List Text
  catalogZone : Text
  catalogConsumers : List CatalogConsumerConfig
  notifyEnabled : Bool
  notifyTargets : List Text
  notifyListenEnabled : Bool
  stubZones : List StubZoneConfig
  emptyZones : List Text
  others : σ
deriving DecidableEq

structure ServerSettings (σ : Type) where
  dnsCookies : Bool
  tcpTimeoutMs : UInt64
  clientTimeoutMs : UInt64
  others : σ
deriving DecidableEq

structure ApiSettings (σ : Type) where
  guiEnabled : Bool
  corsOrigins : List Text
  others : σ
deriving DecidableEq

structure DaygleConfig (σ : Type) where
  server : ServerSettings σ
  recursive : RecursiveSettings σ
  authoritative : AuthoritativeSettings σ
  dot : DotSettings
  doh : DohSettings
  doq : DoqSettings
  api : ApiSettings σ
  policy : PolicySettings σ
  rateLimit : σ
  logging : σ
  ai : AiSettings σ
  display : σ
  web : σ
  updates : σ
  syslog : σ
  logExport : σ
  dns64 : σ
  ecs : σ
  networks : σ
  alerts : σ
  rrl : σ
  rpz : σ
  blockPage : σ
  ddr : σ
  accounts : σ
  reports : σ
  dhcp : σ
deriving DecidableEq

/-! The overlay. -/

structure RecursiveUpdate where
  enabled : Option Bool
  cacheSize : Option Nat
  upstreams : Option (List Text)
  dnssecValidate : Option Bool
  prefetchEnabled : Option Bool
  prefetchTtlFractionPct : Option UInt32
  prefetchMinQueries : Option UInt32
  serveStaleSecs : Option UInt64
  maxCacheTtl : Option UInt32
  minCacheTtl : Option UInt32
  negativeCacheTtl : Option UInt32
  useSystemConfig : Option Bool
  failureCacheTtl : Option UInt32
  conditionalZones : Option (List ConditionalZoneConfig)
  mode : Option ResolutionMode
  recursionAccess : Option RecursionAccess
  recursionNetworks : Option (List Text)
  rootHints : Option (List Text)
  caseRandomization : Option Bool
  rebindingProtection : Option Bool
  localRoot : Option LocalRootSettings
  opportunisticEncryption : Option Bool
  outboundIpVersions : Option IpVersions
  clientPolicies : Option (List ClientPolicyConfig)
  maxConcurrentLookups : Option Nat
  timeoutSecs : Option UInt64
  prefetchWindowSecs : Option UInt64
deriving DecidableEq

/-- The update of the listeners for DoT and DoQ. -/
structure ListenerUpdate where
  enabled : Option Bool
  port : Option UInt16
  selfSigned : Option Bool
  serverName : Option Text
  certPath : Option Text
  keyPath : Option Text
  certificate : Option Text
  idleTimeoutSecs : Option UInt64
  handshakeTimeoutSecs : Option UInt64
  maxConnections : Option Nat
  maxConcurrentStreams : Option Nat
  allowedNetworks : Option (List Text)
deriving DecidableEq

structure DohUpdate where
  enabled : Option Bool
  port : Option UInt16
  selfSigned : Option Bool
  serverName : Option Text
  certPath : Option Text
  keyPath : Option Text
  endpoint : Option Text
  certificate : Option Text
  handshakeTimeoutSecs : Option UInt64
  maxConnections : Option Nat
  allowedNetworks : Option (List Text)
  http3 : Option Bool
deriving DecidableEq

structure PolicyUpdate (σ : Type) where
  allowlist : Option (List Text)
  deniedNetworks : Option (List Text)
  allowedNetworks : Option (List Text)
  blocklist : Option (List Text)
  filterAaaa : Option Bool
  filterAaaaExcept : Option (List Text)
  cnameInspection : Option Bool
  safeSearch : Option Bool
  youtubeRestricted : Option Bool
  safeBrowsingKey : Option Text
  blocklistSources : Option σ
deriving DecidableEq

structure AiUpdate where
  enabled : Option Bool
  mode : Option AiMode
  database : Option Text
  modelPath : Option Text
  workers : Option UInt32
  scanIntervalSecs : Option UInt64
  expireCheckSecs : Option UInt64
  maxDomainsPerScan : Option UInt32
  autoBlockCategories : Option (List Text)
  blockThreshold : Option F32
  confidenceFloor : Option F32
  categoryTtlSecs : Option UInt64
  threatTtlSecs : Option UInt64
deriving DecidableEq

structure AuthoritativeUpdate where
  defaultRecordTtl : Option UInt32
  defaultAdminMailbox : Option Text
  defaultPrimaryNs : Option Text
  axfrEnabled : Option Bool
  axfrNetworks : Option (List Text)
  allowDynamicUpdates : Option Bool
  updateNetworks : Option (List Text)
  notifyEnabled : Option Bool
  notifyTargets : Option (List Text)
  notifyListenEnabled : Option Bool
  stubZones : Option (List StubZoneConfig)
  catalogZone : Option Text
  catalogConsumers : Option (List CatalogConsumerConfig)
  emptyZones : Option (List Text)
  dnssecEnabled : Option Bool
  dnssecAlgorithm : Option Text
  dnssecSigValidityDays : Option UInt32
  dnssecRolloverDays : Option UInt32
  dnssecRolloverOverlapDays : Option UInt32
  dnssecRolloverRetireDays : Option UInt32
  dnssecMaintenanceSecs : Option UInt64
deriving DecidableEq

structure ServerRuntimeUpdate where
  clientTimeoutMs : Option UInt64
  tcpTimeoutMs : Option UInt64
  dnsCookies : Option Bool
deriving DecidableEq

structure ApiRuntimeUpdate where
  guiEnabled : Option Bool
  corsOrigins : Option (List Text)
deriving DecidableEq

structure RuntimeSettings (σ : Type) where
  web : Option σ
  syslog : Option σ
  logExport : Option σ
  updates : Option σ
  dns64 : Option σ
  ecs : Option σ
  networks : Option σ
  recursive : Option RecursiveUpdate
  dot : Option ListenerUpdate
  doh : Option DohUpdate
  doq : Option ListenerUpdate
  policy : Option (PolicyUpdate σ)
  authoritative : Option AuthoritativeUpdate
  ai : Option AiUpdate
  display : Option σ
  logging : Option σ
  alerts : Option σ
  rrl : Option σ
  rpz : Option σ
  blockPage : Option σ
  ddr : Option σ
  accounts : Option σ
  reports : Option σ
  dhcp : Option σ
  server : Option ServerRuntimeUpdate
  api : Option ApiRuntimeUpdate
  rateLimit : Option σ
deriving DecidableEq

/-! The form in which lists and names are stored. -/

/-- Every entry trimmed, the blank ones dropped. -/
def trimList (items : List Text) : List Text := (items.map trim).filter (!·.isEmpty)

def normalizeZoneName (name : Text) : Text := toAsciiLowercase (trimEndMatches '.' (trim name))

def normalizeConditionalZones (zones : List ConditionalZoneConfig) : List ConditionalZoneConfig :=
  zones.map fun z => { name := normalizeZoneName z.name, upstreams := trimList z.upstreams }

def normalizeStubZones (zones : List StubZoneConfig) : List StubZoneConfig :=
  zones.map fun z => { z with name := normalizeZoneName z.name, nss := trimList z.nss }

def normalizeCatalogConsumers (consumers : List CatalogConsumerConfig) : List CatalogConsumerConfig :=
  consumers.map fun c => { c with name := normalizeZoneName c.name, masters := trimList c.masters }

def normalizeClientPolicies (policies : List ClientPolicyConfig) : List ClientPolicyConfig :=
  policies.map fun p =>
    { name := trim p.name
      enabled := p.enabled
      clients := trimList p.clients
      action := p.action
      upstreams := trimList p.upstreams
      modifiedAt := p.modifiedAt }

def normalizeCategory (category : Text) : Text :=
  toAsciiLowercase (trimEndMatches ',' (trimStartMatches ',' (trim category)))

/-- The categories in order, each once; `seen` are those before them. -/
def collectCategories (seen : List Text) : List Text → List Text
  | [] => []
  | category :: rest =>
      let category := normalizeCategory category
      if category.isEmpty || seen.contains category then collectCategories seen rest
      else category :: collectCategories (category :: seen) rest

def normalizeCategories (categories : List Text) : List Text := collectCategories [] categories

def dnssecAlgorithms : List (Text × Nat) :=
  [("ECDSAP256SHA256".toList, 13), ("ECDSAP384SHA384".toList, 14), ("ED25519".toList, 15)]

/-- `str::parse::<u8>`: an optional plus sign, then digits, in range. -/
def parseU8 (s : Text) : Option Nat :=
  let digits := (stripPrefix ['+'] s).getD s
  if !digits.isEmpty && digits.all Char.isDigit && readDigits digits < 2 ^ 8 then some (readDigits digits) else none

/-- A signing algorithm by its number or its name; `none` for an unknown one. -/
def parseDnssecAlgorithm (name : Text) : Option (Text × Nat) :=
  let name := trim name
  if name.isEmpty then none
  else match parseU8 name with
    | some number => dnssecAlgorithms.find? fun a => a.2 == number
    | none => dnssecAlgorithms.find? fun a => eqIgnoreAsciiCase a.1 name

def normalizeDnssecAlgorithm (name : Text) : Text :=
  match parseDnssecAlgorithm name with
  | some (canonical, _) => canonical
  | none => "ECDSAP256SHA256".toList

/-- A primary name server with its trailing dot; a blank one is no name server. -/
def qualifyPrimaryNs (name : Text) : Text :=
  let name := trim name
  if name.isEmpty || endsWith ['.'] name then name else name ++ ['.']

def legacyPlaceholderPrimaryNs : Text := "ns1.daygle.test.".toList

def legacyPlaceholderAdminMailbox : Text := "admin.daygle.test.".toList

variable {σ : Type}

def AuthoritativeSettings.clearLegacyPlaceholders (settings : AuthoritativeSettings σ) : AuthoritativeSettings σ :=
  { settings with
    defaultPrimaryNs :=
      if trim settings.defaultPrimaryNs = legacyPlaceholderPrimaryNs then [] else settings.defaultPrimaryNs
    defaultAdminMailbox :=
      if trim settings.defaultAdminMailbox = legacyPlaceholderAdminMailbox then []
      else settings.defaultAdminMailbox }

/-- The resolution mode in effect. -/
def RecursiveSettings.effectiveMode (settings : RecursiveSettings σ) : ResolutionMode :=
  settings.mode.getD (if settings.upstreams.isEmpty then .recursive else .forwarding)

/-! The overlay laid over a configuration. -/

def RecursiveUpdate.applyResolution (update : RecursiveUpdate) (settings : RecursiveSettings σ) :
    RecursiveSettings σ :=
  { settings with
    mode := update.mode.or settings.mode
    recursionAccess := update.recursionAccess.getD settings.recursionAccess
    recursionNetworks := (update.recursionNetworks.map trimList).getD settings.recursionNetworks
    rootHints := (update.rootHints.map trimList).getD settings.rootHints
    caseRandomization := update.caseRandomization.getD settings.caseRandomization
    rebindingProtection := update.rebindingProtection.getD settings.rebindingProtection
    opportunisticEncryption := update.opportunisticEncryption.getD settings.opportunisticEncryption
    outboundIpVersions := update.outboundIpVersions.getD settings.outboundIpVersions
    minCacheTtl := update.minCacheTtl.getD settings.minCacheTtl
    negativeCacheTtl := update.negativeCacheTtl.getD settings.negativeCacheTtl
    useSystemConfig := update.useSystemConfig.getD settings.useSystemConfig
    clientPolicies := (update.clientPolicies.map normalizeClientPolicies).getD settings.clientPolicies
    localRoot := match update.localRoot with
      | some v =>
          { enabled := v.enabled
            sources := trimList v.sources
            testTrustAnchor := settings.localRoot.testTrustAnchor
            outboundIpVersions := settings.localRoot.outboundIpVersions }
      | none => settings.localRoot }

def RecursiveUpdate.applyTo (update : RecursiveUpdate) (settings : RecursiveSettings σ) : RecursiveSettings σ :=
  update.applyResolution
    { settings with
      enabled := update.enabled.getD settings.enabled
      cacheSize := update.cacheSize.getD settings.cacheSize
      upstreams := update.upstreams.getD settings.upstreams
      dnssecValidate := update.dnssecValidate.getD settings.dnssecValidate
      prefetchEnabled := update.prefetchEnabled.getD settings.prefetchEnabled
      prefetchTtlFractionPct := update.prefetchTtlFractionPct.getD settings.prefetchTtlFractionPct
      prefetchMinQueries := update.prefetchMinQueries.getD settings.prefetchMinQueries
      serveStaleSecs := update.serveStaleSecs.getD settings.serveStaleSecs
      maxCacheTtl := update.maxCacheTtl.getD settings.maxCacheTtl
      failureCacheTtl := update.failureCacheTtl.getD settings.failureCacheTtl
      maxConcurrentLookups := update.maxConcurrentLookups.getD settings.maxConcurrentLookups
      timeoutSecs := update.timeoutSecs.getD settings.timeoutSecs
      prefetchWindowSecs := update.prefetchWindowSecs.getD settings.prefetchWindowSecs
      conditionalZones := (update.conditionalZones.map normalizeConditionalZones).getD settings.conditionalZones }

def ListenerUpdate.applyDot (update : ListenerUpdate) (settings : DotSettings) : DotSettings :=
  { settings with
    enabled := update.enabled.getD settings.enabled
    port := update.port.getD settings.port
    selfSigned := update.selfSigned.getD settings.selfSigned
    serverName := update.serverName.getD settings.serverName
    certPath := update.certPath.getD settings.certPath
    keyPath := update.keyPath.getD settings.keyPath
    certificate := update.certificate.getD settings.certificate
    handshakeTimeoutSecs := update.handshakeTimeoutSecs.getD settings.handshakeTimeoutSecs
    maxConnections := update.maxConnections.getD settings.maxConnections
    allowedNetworks := (update.allowedNetworks.map trimList).getD settings.allowedNetworks }

def DohUpdate.applyTo (update : DohUpdate) (settings : DohSettings) : DohSettings :=
  { settings with
    enabled := update.enabled.getD settings.enabled
    port := update.port.getD settings.port
    selfSigned := update.selfSigned.getD settings.selfSigned
    serverName := update.serverName.getD settings.serverName
    certPath := update.certPath.getD settings.certPath
    keyPath := update.keyPath.getD settings.keyPath
    endpoint := update.endpoint.getD settings.endpoint
    certificate := update.certificate.getD settings.certificate
    handshakeTimeoutSecs := update.handshakeTimeoutSecs.getD settings.handshakeTimeoutSecs
    maxConnections := update.maxConnections.getD settings.maxConnections
    allowedNetworks := (update.allowedNetworks.map trimList).getD settings.allowedNetworks
    http3 := update.http3.getD settings.http3 }

def ListenerUpdate.applyDoq (update : ListenerUpdate) (settings : DoqSettings) : DoqSettings :=
  { settings with
    enabled := update.enabled.getD settings.enabled
    port := update.port.getD settings.port
    selfSigned := update.selfSigned.getD settings.selfSigned
    serverName := update.serverName.getD settings.serverName
    certPath := update.certPath.getD settings.certPath
    keyPath := update.keyPath.getD settings.keyPath
    certificate := update.certificate.getD settings.certificate
    idleTimeoutSecs := update.idleTimeoutSecs.getD settings.idleTimeoutSecs
    maxConnections := update.maxConnections.getD settings.maxConnections
    maxConcurrentStreams := update.maxConcurrentStreams.getD settings.maxConcurrentStreams
    allowedNetworks := (update.allowedNetworks.map trimList).getD settings.allowedNetworks }

def PolicyUpdate.applyTo (update : PolicyUpdate σ) (settings : PolicySettings σ) : PolicySettings σ :=
  { settings with
    allowlist := update.allowlist.getD settings.allowlist
    blocklist := update.blocklist.getD settings.blocklist
    filterAaaa := update.filterAaaa.getD settings.filterAaaa
    filterAaaaExcept := update.filterAaaaExcept.getD settings.filterAaaaExcept
    cnameInspection := update.cnameInspection.getD settings.cnameInspection
    safeSearch := update.safeSearch.getD settings.safeSearch
    youtubeRestricted := update.youtubeRestricted.getD settings.youtubeRestricted
    safeBrowsingKey := (update.safeBrowsingKey.map trim).getD settings.safeBrowsingKey
    deniedNetworks := (update.deniedNetworks.map trimList).getD settings.deniedNetworks
    allowedNetworks := (update.allowedNetworks.map trimList).getD settings.allowedNetworks
    blocklistSources := update.blocklistSources.getD settings.blocklistSources }

def AiUpdate.applyTo (update : AiUpdate) (settings : AiSettings σ) : AiSettings σ :=
  { settings with
    enabled := update.enabled.getD settings.enabled
    mode := update.mode.getD settings.mode
    database := (update.database.map trim).getD settings.database
    modelPath := (update.modelPath.map trim).getD settings.modelPath
    workers := update.workers.getD settings.workers
    scanIntervalSecs := update.scanIntervalSecs.getD settings.scanIntervalSecs
    expireCheckSecs := update.expireCheckSecs.getD settings.expireCheckSecs
    maxDomainsPerScan := update.maxDomainsPerScan.getD settings.maxDomainsPerScan
    autoBlockCategories := (update.autoBlockCategories.map normalizeCategories).getD settings.autoBlockCategories
    blockThreshold := update.blockThreshold.getD settings.blockThreshold
    confidenceFloor := update.confidenceFloor.getD settings.confidenceFloor
    categoryTtlSecs := update.categoryTtlSecs.getD settings.categoryTtlSecs
    threatTtlSecs := update.threatTtlSecs.getD settings.threatTtlSecs }

def AuthoritativeUpdate.applyDnssec (update : AuthoritativeUpdate) (settings : AuthoritativeSettings σ) :
    AuthoritativeSettings σ :=
  { settings with
    dnssecAlgorithm := (update.dnssecAlgorithm.map normalizeDnssecAlgorithm).getD settings.dnssecAlgorithm
    dnssecEnabled := update.dnssecEnabled.getD settings.dnssecEnabled
    dnssecSigValidityDays := update.dnssecSigValidityDays.getD settings.dnssecSigValidityDays
    dnssecRolloverDays := update.dnssecRolloverDays.getD settings.dnssecRolloverDays
    dnssecRolloverOverlapDays := update.dnssecRolloverOverlapDays.getD settings.dnssecRolloverOverlapDays
    dnssecRolloverRetireDays := update.dnssecRolloverRetireDays.getD settings.dnssecRolloverRetireDays
    dnssecMaintenanceSecs := update.dnssecMaintenanceSecs.getD settings.dnssecMaintenanceSecs }

def AuthoritativeUpdate.applyTo (update : AuthoritativeUpdate) (settings : AuthoritativeSettings σ) :
    AuthoritativeSettings σ :=
  let settings := update.applyDnssec
    { settings with
      defaultRecordTtl := update.defaultRecordTtl.getD settings.defaultRecordTtl
      axfrEnabled := update.axfrEnabled.getD settings.axfrEnabled
      axfrNetworks := (update.axfrNetworks.map trimList).getD settings.axfrNetworks
      allowDynamicUpdates := update.allowDynamicUpdates.getD settings.allowDynamicUpdates
      updateNetworks := (update.updateNetworks.map trimList).getD settings.updateNetworks
      notifyEnabled := update.notifyEnabled.getD settings.notifyEnabled
      notifyTargets := (update.notifyTargets.map trimList).getD settings.notifyTargets
      notifyListenEnabled := update.notifyListenEnabled.getD settings.notifyListenEnabled
      stubZones := (update.stubZones.map normalizeStubZones).getD settings.stubZones
      catalogZone := (update.catalogZone.map normalizeZoneName).getD settings.catalogZone
      catalogConsumers := (update.catalogConsumers.map normalizeCatalogConsumers).getD settings.catalogConsumers
      emptyZones := (update.emptyZones.map (List.map normalizeZoneName)).getD settings.emptyZones }
  { settings with
    defaultAdminMailbox := update.defaultAdminMailbox.getD settings.defaultAdminMailbox
    defaultPrimaryNs := (update.defaultPrimaryNs.map qualifyPrimaryNs).getD settings.defaultPrimaryNs }

def ServerRuntimeUpdate.applyTo (update : ServerRuntimeUpdate) (settings : ServerSettings σ) : ServerSettings σ :=
  { settings with
    clientTimeoutMs := update.clientTimeoutMs.getD settings.clientTimeoutMs
    tcpTimeoutMs := update.tcpTimeoutMs.getD settings.tcpTimeoutMs
    dnsCookies := update.dnsCookies.getD settings.dnsCookies }

def ApiRuntimeUpdate.applyTo (update : ApiRuntimeUpdate) (settings : ApiSettings σ) : ApiSettings σ :=
  { settings with
    guiEnabled := update.guiEnabled.getD settings.guiEnabled
    corsOrigins := update.corsOrigins.getD settings.corsOrigins }

/-- A section with the update of it, if there is one. -/
def overlaid {υ τ : Type} (update : Option υ) (apply : υ → τ → τ) (section_ : τ) : τ :=
  match update with
  | some update => apply update section_
  | none => section_

namespace RuntimeSettings

def applyTo (settings : RuntimeSettings σ) (config : DaygleConfig σ) : DaygleConfig σ where
  recursive := overlaid settings.recursive RecursiveUpdate.applyTo config.recursive
  dot := overlaid settings.dot ListenerUpdate.applyDot config.dot
  doh := overlaid settings.doh DohUpdate.applyTo config.doh
  doq := overlaid settings.doq ListenerUpdate.applyDoq config.doq
  policy := overlaid settings.policy PolicyUpdate.applyTo config.policy
  display := settings.display.getD config.display
  api := overlaid settings.api ApiRuntimeUpdate.applyTo config.api
  logging := settings.logging.getD config.logging
  dns64 := settings.dns64.getD config.dns64
  ecs := settings.ecs.getD config.ecs
  networks := settings.networks.getD config.networks
  syslog := settings.syslog.getD config.syslog
  logExport := settings.logExport.getD config.logExport
  alerts := settings.alerts.getD config.alerts
  rrl := settings.rrl.getD config.rrl
  rpz := settings.rpz.getD config.rpz
  blockPage := settings.blockPage.getD config.blockPage
  ddr := settings.ddr.getD config.ddr
  accounts := settings.accounts.getD config.accounts
  reports := settings.reports.getD config.reports
  dhcp := settings.dhcp.getD config.dhcp
  server := overlaid settings.server ServerRuntimeUpdate.applyTo config.server
  rateLimit := settings.rateLimit.getD config.rateLimit
  web := settings.web.getD config.web
  updates := settings.updates.getD config.updates
  ai := overlaid settings.ai AiUpdate.applyTo config.ai
  authoritative :=
    (overlaid settings.authoritative AuthoritativeUpdate.applyTo config.authoritative).clearLegacyPlaceholders

/-- A certificate that is named; a blank one is left out. -/
def captureCertificate (certificate : Text) : Option Text :=
  if !certificate.isEmpty then some certificate else none

def capture (config : DaygleConfig σ) : RuntimeSettings σ where
  recursive := some
    { enabled := some config.recursive.enabled
      cacheSize := some config.recursive.cacheSize
      upstreams := some config.recursive.upstreams
      dnssecValidate := some config.recursive.dnssecValidate
      prefetchEnabled := some config.recursive.prefetchEnabled
      prefetchTtlFractionPct := some config.recursive.prefetchTtlFractionPct
      prefetchMinQueries := some config.recursive.prefetchMinQueries
      serveStaleSecs := some config.recursive.serveStaleSecs
      maxCacheTtl := some config.recursive.maxCacheTtl
      minCacheTtl := some config.recursive.minCacheTtl
      negativeCacheTtl := some config.recursive.negativeCacheTtl
      useSystemConfig := some config.recursive.useSystemConfig
      failureCacheTtl := some config.recursive.failureCacheTtl
      maxConcurrentLookups := some config.recursive.maxConcurrentLookups
      timeoutSecs := some config.recursive.timeoutSecs
      prefetchWindowSecs := some config.recursive.prefetchWindowSecs
      conditionalZones := some config.recursive.conditionalZones
      mode := some config.recursive.effectiveMode
      recursionAccess := some config.recursive.recursionAccess
      recursionNetworks := some config.recursive.recursionNetworks
      rootHints := some config.recursive.rootHints
      caseRandomization := some config.recursive.caseRandomization
      rebindingProtection := some config.recursive.rebindingProtection
      localRoot := some config.recursive.localRoot
      opportunisticEncryption := some config.recursive.opportunisticEncryption
      outboundIpVersions := some config.recursive.outboundIpVersions
      clientPolicies := some config.recursive.clientPolicies }
  dot := some
    { enabled := some config.dot.enabled
      port := some config.dot.port
      selfSigned := some config.dot.selfSigned
      serverName := some config.dot.serverName
      certPath := some config.dot.certPath
      keyPath := some config.dot.keyPath
      certificate := captureCertificate config.dot.certificate
      idleTimeoutSecs := none
      handshakeTimeoutSecs := some config.dot.handshakeTimeoutSecs
      maxConnections := some config.dot.maxConnections
      maxConcurrentStreams := none
      allowedNetworks := some config.dot.allowedNetworks }
  doh := some
    { enabled := some config.doh.enabled
      port := some config.doh.port
      selfSigned := some config.doh.selfSigned
      serverName := some config.doh.serverName
      certPath := some config.doh.certPath
      keyPath := some config.doh.keyPath
      endpoint := some config.doh.endpoint
      certificate := captureCertificate config.doh.certificate
      handshakeTimeoutSecs := some config.doh.handshakeTimeoutSecs
      maxConnections := some config.doh.maxConnections
      allowedNetworks := some config.doh.allowedNetworks
      http3 := some config.doh.http3 }
  doq := some
    { enabled := some config.doq.enabled
      port := some config.doq.port
      selfSigned := some config.doq.selfSigned
      serverName := some config.doq.serverName
      certPath := some config.doq.certPath
      keyPath := some config.doq.keyPath
      certificate := captureCertificate config.doq.certificate
      idleTimeoutSecs := some config.doq.idleTimeoutSecs
      handshakeTimeoutSecs := none
      maxConnections := some config.doq.maxConnections
      maxConcurrentStreams := some config.doq.maxConcurrentStreams
      allowedNetworks := some config.doq.allowedNetworks }
  policy := some
    { allowlist := some config.policy.allowlist
      deniedNetworks := some config.policy.deniedNetworks
      allowedNetworks := some config.policy.allowedNetworks
      blocklist := some config.policy.blocklist
      filterAaaa := some config.policy.filterAaaa
      filterAaaaExcept := some config.policy.filterAaaaExcept
      cnameInspection := some config.policy.cnameInspection
      safeSearch := some config.policy.safeSearch
      youtubeRestricted := some config.policy.youtubeRestricted
      safeBrowsingKey := some config.policy.safeBrowsingKey
      blocklistSources := some config.policy.blocklistSources }
  authoritative := some
    { defaultRecordTtl := some config.authoritative.defaultRecordTtl
      defaultAdminMailbox := some config.authoritative.defaultAdminMailbox
      defaultPrimaryNs := some config.authoritative.defaultPrimaryNs
      axfrEnabled := some config.authoritative.axfrEnabled
      axfrNetworks := some config.authoritative.axfrNetworks
      allowDynamicUpdates := some config.authoritative.allowDynamicUpdates
      updateNetworks := some config.authoritative.updateNetworks
      notifyEnabled := some config.authoritative.notifyEnabled
      notifyTargets := some config.authoritative.notifyTargets
      notifyListenEnabled := some config.authoritative.notifyListenEnabled
      stubZones := some config.authoritative.stubZones
      catalogZone := some config.authoritative.catalogZone
      catalogConsumers := some config.authoritative.catalogConsumers
      emptyZones := some config.authoritative.emptyZones
      dnssecEnabled := some config.authoritative.dnssecEnabled
      dnssecAlgorithm := some config.authoritative.dnssecAlgorithm
      dnssecSigValidityDays := some config.authoritative.dnssecSigValidityDays
      dnssecRolloverDays := some config.authoritative.dnssecRolloverDays
      dnssecRolloverOverlapDays := some config.authoritative.dnssecRolloverOverlapDays
      dnssecRolloverRetireDays := some config.authoritative.dnssecRolloverRetireDays
      dnssecMaintenanceSecs := some config.authoritative.dnssecMaintenanceSecs }
  ai := some
    { enabled := some config.ai.enabled
      mode := some config.ai.mode
      database := some config.ai.database
      modelPath := some config.ai.modelPath
      workers := some config.ai.workers
      scanIntervalSecs := some config.ai.scanIntervalSecs
      expireCheckSecs := some config.ai.expireCheckSecs
      maxDomainsPerScan := some config.ai.maxDomainsPerScan
      autoBlockCategories := some config.ai.autoBlockCategories
      blockThreshold := some config.ai.blockThreshold
      confidenceFloor := some config.ai.confidenceFloor
      categoryTtlSecs := some config.ai.categoryTtlSecs
      threatTtlSecs := some config.ai.threatTtlSecs }
  display := some config.display
  logging := some config.logging
  web := some config.web
  updates := some config.updates
  syslog := some config.syslog
  logExport := some config.logExport
  dns64 := some config.dns64
  ecs := some config.ecs
  networks := some config.networks
  alerts := some config.alerts
  rrl := some config.rrl
  rpz := some config.rpz
  blockPage := some config.blockPage
  ddr := some config.ddr
  accounts := some config.accounts
  reports := some config.reports
  dhcp := some config.dhcp
  server := some
    { clientTimeoutMs := some config.server.clientTimeoutMs
      tcpTimeoutMs := some config.server.tcpTimeoutMs
      dnsCookies := some config.server.dnsCookies }
  rateLimit := some config.rateLimit
  api := some
    { guiEnabled := some config.api.guiEnabled
      corsOrigins := some config.api.corsOrigins }

/-- The overlay as it is written: two fields of the local root are skipped. -/
def serialized (settings : RuntimeSettings σ) : RuntimeSettings σ :=
  { settings with
    recursive := settings.recursive.map fun r =>
      { r with localRoot := r.localRoot.map fun l => { l with testTrustAnchor := none, outboundIpVersions := .both } } }

end RuntimeSettings

end DaygleDns.Settings.Runtime
