import DaygleDns.Console.UserRequests
import DaygleDns.Settings.RuntimeSettings
import Mathlib.Data.List.Sort

/-! The sections of a settings update, merged into the configuration one by one. What a section
has besides the fields that are looked at is a value of `σ`. -/
namespace DaygleDns.Settings.Save

open Text
open DaygleDns.Settings.Runtime (RecursiveSettings DotSettings DohSettings DoqSettings PolicySettings AiSettings AuthoritativeSettings
  ListenerUpdate DohUpdate AiUpdate overlaid trimList normalizeZoneName)

/-! The configuration. -/

structure ServerSettings (σ : Type) where
  listen : Text
  ipv6Only : Bool
  port : UInt16
  proxyProtocol : List Text
  udpEnabled : Bool
  tcpEnabled : Bool
  reloadEnabled : Bool
  clientTimeoutMs : UInt64
  tcpTimeoutMs : UInt64
  dnsCookies : Bool
  others : σ
deriving DecidableEq

structure ApiSettings (σ : Type) where
  enabled : Bool
  port : UInt16
  guiEnabled : Bool
  corsOrigins : List Text
  others : σ

structure Dns64Settings (σ : Type) where
  pref : Text
  clients : List Text
  others : σ

structure EcsSettings (σ : Type) where
  subnet : Text
  others : σ

inductive RpzSource where
  | local_ | url | transfer
deriving DecidableEq

structure RpzZoneConfig (σ : Type) where
  name : Text
  source : RpzSource
  primaries : List Text
  tsigKey : Text
  url : Text
  rules : Text
  cnameTarget : Text
  others : σ

structure DhcpSettings (σ : Type) where
  dnsZone : Text
  others : σ

structure ReportSettings (σ : Type) where
  enabled : Bool
  frequency : Text
  weekday : Text
  others : σ

structure DdrSettings (σ : Type) where
  name : Text
  others : σ

structure AccountSettings (σ : Type) where
  domain : Text
  others : σ

structure BlockPageSettings (σ : Type) where
  enabled : Bool
  ipv4 : Text
  ipv6 : Text
  listen : Text
  port : UInt16
  others : σ

structure RrlSettings (σ : Type) where
  exempt : List Text
  others : σ

structure AlertSettings (σ : Type) where
  webhookUrl : Text
  smtpServer : Text
  smtpSecurity : Text
  smtpUsername : Text
  smtpPassword : Text
  emailFrom : Text
  emailTo : List Text
  others : σ

structure LoggingSettings (σ : Type) where
  queryDbEnabled : Bool
  queryDbMaxRows : Nat
  queryDbRetentionDays : UInt32
  queryLogEnabled : Bool
  queryLogDir : Text
  queryLogRetentionDays : UInt32
  others : σ

structure SyslogSettings (σ : Type) where
  server : Text
  facility : Text
  level : Text
  others : σ

structure LogExportSettings (σ : Type) where
  url : Text
  format : Text
  authorization : Text
  others : σ

structure WebSettings where
  httpEnabled : Bool
  httpPort : UInt16
  httpsEnabled : Bool
  httpsPort : UInt16
  httpsCertificate : Text
  redirectHttp : Bool
deriving DecidableEq

structure DisplaySettings where
  timeZone : Text
  dateFormat : Text
  timeFormat : Text
  theme : Text

structure Config (σ : Type) where
  server : ServerSettings σ
  recursive : RecursiveSettings σ
  authoritative : AuthoritativeSettings σ
  dot : DotSettings
  doh : DohSettings
  doq : DoqSettings
  api : ApiSettings σ
  policy : PolicySettings σ
  ai : AiSettings σ
  rateLimit : σ
  logging : LoggingSettings σ
  display : DisplaySettings
  web : WebSettings
  updates : σ
  syslog : SyslogSettings σ
  logExport : LogExportSettings σ
  dns64 : Dns64Settings σ
  ecs : EcsSettings σ
  alerts : AlertSettings σ
  rrl : RrlSettings σ
  rpz : List (RpzZoneConfig σ)
  blockPage : BlockPageSettings σ
  ddr : DdrSettings σ
  accounts : AccountSettings σ
  reports : ReportSettings σ
  dhcp : DhcpSettings σ
  networks : σ

/-! The update. -/

structure ServerUpdate where
  listen : Option Text
  ipv6Only : Option Bool
  port : Option UInt16
  udpEnabled : Option Bool
  tcpEnabled : Option Bool
  reloadEnabled : Option Bool
  proxyProtocol : Option (List Text)
  clientTimeoutMs : Option UInt64
  tcpTimeoutMs : Option UInt64
  dnsCookies : Option Bool

structure ApiUpdate where
  guiEnabled : Option Bool
  corsOrigins : Option (List Text)

structure LoggingUpdate where
  queryDbEnabled : Option Bool
  queryDbMaxRows : Option Nat
  queryDbRetentionDays : Option UInt32
  queryLogEnabled : Option Bool
  queryLogDir : Option Text
  queryLogRetentionDays : Option UInt32

structure WebUpdate where
  httpEnabled : Option Bool := none
  httpPort : Option UInt16 := none
  httpsEnabled : Option Bool := none
  httpsPort : Option UInt16 := none
  httpsCertificate : Option Text := none
  redirectHttp : Option Bool := none

structure DisplayUpdate where
  timeZone : Option Text
  dateFormat : Option Text
  timeFormat : Option Text
  theme : Option Text

structure PolicyUpdate where
  allowlist : Option (List Text)
  deniedNetworks : Option (List Text)
  allowedNetworks : Option (List Text)
  blocklist : Option (List Text)
  filterAaaa : Option Bool
  filterAaaaExcept : Option (List Text)
  youtubeRestricted : Option Bool
  safeSearch : Option Bool
  cnameInspection : Option Bool
  safeBrowsingKey : Option Text

structure SettingsUpdate (σ : Type) where
  server : Option ServerUpdate := none
  recursive : Option Runtime.RecursiveUpdate := none
  dot : Option ListenerUpdate := none
  doh : Option DohUpdate := none
  doq : Option ListenerUpdate := none
  api : Option ApiUpdate := none
  policy : Option PolicyUpdate := none
  authoritative : Option Runtime.AuthoritativeUpdate := none
  ai : Option AiUpdate := none
  display : Option DisplayUpdate := none
  web : Option WebUpdate := none
  logging : Option LoggingUpdate := none
  syslog : Option (SyslogSettings σ) := none
  logExport : Option (LogExportSettings σ) := none
  rrl : Option (RrlSettings σ) := none
  rateLimit : Option σ := none
  rpz : Option (List (RpzZoneConfig σ)) := none
  blockPage : Option (BlockPageSettings σ) := none
  dhcp : Option (DhcpSettings σ) := none
  ddr : Option (DdrSettings σ) := none
  accounts : Option (AccountSettings σ) := none
  reports : Option (ReportSettings σ) := none
  alerts : Option (AlertSettings σ) := none
  dns64 : Option (Dns64Settings σ) := none
  ecs : Option (EcsSettings σ) := none
  updates : Option σ := none

/-! What other modules say of a section. -/

/-- The second argument of `compileDns64` and the first of `isNetworkEntry` are the named networks. -/
structure Checks (σ : Type) where
  parseUpstreams : List Text → Except Text Unit
  parseUpstreamsFor : List Text → Runtime.IpVersions → Except Text Unit
  compileDns64 : Dns64Settings σ → σ → Except Text Unit
  compileEcs : EcsSettings σ → Except Text Unit
  checkRpzZones : List (RpzZoneConfig σ) → AuthoritativeSettings σ → Except Text Unit
  readRules : Text → Text → Except Text Unit
  checkDhcp : DhcpSettings σ → Except Text Unit
  checkReports : ReportSettings σ → Except Text Unit
  checkDdr : DdrSettings σ → Except Text Unit
  checkAccounts : AccountSettings σ → Except Text Unit
  checkBlockPage : BlockPageSettings σ → Except Text Unit
  checkRrl : RrlSettings σ → Except Text Unit
  isNetworkEntry : σ → Text → Bool
  checkAlerts : AlertSettings σ → Except Text Unit
  checkSyslog : SyslogSettings σ → Except Text Unit
  checkLogExport : LogExportSettings σ → Except Text Unit
  mailboxToRname : Text → Except Text Text
  validate : Config σ → Except Authoritative.DaygleError Unit

abbrev Answer (α : Type) := Except Console.Response α

def badRequest (message : Text) : Console.Response := ⟨400, message⟩

/-- A check whose message is answered with a label before it. -/
def checked (label : String) (result : Except Text Unit) : Answer Unit :=
  result.mapError fun message => badRequest (label.toList ++ ": ".toList ++ message)

variable {σ : Type} (checks : Checks σ)

/-! The sections. -/

def ServerUpdate.applyTo (update : ServerUpdate) (settings : ServerSettings σ) : ServerSettings σ :=
  { settings with
    listen := update.listen.getD settings.listen
    ipv6Only := update.ipv6Only.getD settings.ipv6Only
    port := update.port.getD settings.port
    proxyProtocol := (update.proxyProtocol.map trimList).getD settings.proxyProtocol
    udpEnabled := update.udpEnabled.getD settings.udpEnabled
    tcpEnabled := update.tcpEnabled.getD settings.tcpEnabled
    reloadEnabled := update.reloadEnabled.getD settings.reloadEnabled
    clientTimeoutMs := update.clientTimeoutMs.getD settings.clientTimeoutMs
    tcpTimeoutMs := update.tcpTimeoutMs.getD settings.tcpTimeoutMs
    dnsCookies := update.dnsCookies.getD settings.dnsCookies }

def sameUnstamped (first second : Runtime.ClientPolicyConfig) : Bool :=
  first.enabled == second.enabled && first.clients == second.clients && first.action == second.action &&
    first.upstreams == second.upstreams

/-- Unchanged policies keep the time of their last change. -/
def stampClientPolicies (now : Text) (old new : List Runtime.ClientPolicyConfig) : List Runtime.ClientPolicyConfig :=
  new.map fun policy =>
    match old.find? fun previous => previous.name == policy.name with
    | some previous =>
        { policy with modifiedAt := if sameUnstamped previous policy then previous.modifiedAt else some now }
    | none => { policy with modifiedAt := some now }

def checkPolicyUpstreams (policy : Runtime.ClientPolicyConfig) : Answer Unit :=
  if policy.action = .forward then
    (checks.parseUpstreams policy.upstreams).mapError fun e =>
      badRequest ("client policy '".toList ++ trim policy.name ++ "': ".toList ++ e)
  else .ok ()

def mergeRecursive (now : Text) (update : Runtime.RecursiveUpdate) (settings : RecursiveSettings σ) : RecursiveSettings σ :=
  let merged := { update with upstreams := update.upstreams.map trimList }.applyTo settings
  if update.clientPolicies.isSome then
    { merged with clientPolicies := stampClientPolicies now settings.clientPolicies merged.clientPolicies }
  else merged

def applyRecursive (now : Text) (update : Runtime.RecursiveUpdate) (settings : RecursiveSettings σ) : Answer (RecursiveSettings σ) := do
  (update.clientPolicies.getD []).forM (checkPolicyUpstreams checks)
  pure (mergeRecursive now update settings)

def ApiUpdate.applyTo (update : ApiUpdate) (settings : ApiSettings σ) : ApiSettings σ :=
  { settings with
    guiEnabled := update.guiEnabled.getD settings.guiEnabled
    corsOrigins := update.corsOrigins.getD settings.corsOrigins }

def normalizeDns64 (input : Dns64Settings σ) : Dns64Settings σ :=
  { input with pref := trim input.pref, clients := trimList input.clients }

def applyDns64 (update : Dns64Settings σ) (config : Config σ) : Answer (Config σ) := do
  let dns64 := normalizeDns64 update
  checked "dns64" (checks.compileDns64 dns64 config.networks)
  pure { config with dns64 }

def normalizeEcs (input : EcsSettings σ) : EcsSettings σ := { input with subnet := trim input.subnet }

def applyEcs (update : EcsSettings σ) (config : Config σ) : Answer (Config σ) := do
  let ecs := normalizeEcs update
  checked "ecs" (checks.compileEcs ecs)
  pure { config with ecs }

def normalizeRpz (zone : RpzZoneConfig σ) : RpzZoneConfig σ :=
  { zone with
    name := normalizeZoneName zone.name
    url := trim zone.url
    tsigKey := trim zone.tsigKey
    cnameTarget := trimEndMatches '.' (trim zone.cnameTarget)
    primaries := trimList zone.primaries }

def applyRpz (update : List (RpzZoneConfig σ)) (config : Config σ) : Answer (Config σ) := do
  let zones := update.map normalizeRpz
  checked "rpz" (checks.checkRpzZones zones config.authoritative)
  (zones.filter fun zone => zone.source == .local_).forM fun zone =>
    (checks.readRules zone.name zone.rules).mapError fun message =>
      badRequest ("rpz: zone '".toList ++ zone.name ++ "': ".toList ++ message)
  pure { config with rpz := zones }

def normalizeDhcp (input : DhcpSettings σ) : DhcpSettings σ := { input with dnsZone := normalizeZoneName input.dnsZone }

def applyDhcp (update : DhcpSettings σ) (config : Config σ) : Answer (Config σ) := do
  let dhcp := normalizeDhcp update
  checked "dhcp" (checks.checkDhcp dhcp)
  pure { config with dhcp }

def normalizeReports (input : ReportSettings σ) : ReportSettings σ :=
  { input with frequency := toAsciiLowercase (trim input.frequency), weekday := toAsciiLowercase (trim input.weekday) }

def applyReports (update : ReportSettings σ) (config : Config σ) : Answer (Config σ) := do
  let reports := normalizeReports update
  checked "reports" (checks.checkReports reports)
  pure { config with reports }

def normalizeDdr (input : DdrSettings σ) : DdrSettings σ := { input with name := normalizeZoneName input.name }

def applyDdr (update : DdrSettings σ) (config : Config σ) : Answer (Config σ) := do
  let ddr := normalizeDdr update
  checked "ddr" (checks.checkDdr ddr)
  pure { config with ddr }

def normalizeAccounts (input : AccountSettings σ) : AccountSettings σ := { input with domain := normalizeZoneName input.domain }

def applyAccounts (update : AccountSettings σ) (config : Config σ) : Answer (Config σ) := do
  let accounts := normalizeAccounts update
  checked "accounts" (checks.checkAccounts accounts)
  pure { config with accounts }

def normalizeBlockPage (input : BlockPageSettings σ) : BlockPageSettings σ :=
  { input with ipv4 := trim input.ipv4, ipv6 := trim input.ipv6, listen := trim input.listen }

def applyBlockPage (update : BlockPageSettings σ) (config : Config σ) : Answer (Config σ) := do
  let page := normalizeBlockPage update
  checked "block page" (checks.checkBlockPage page)
  pure { config with blockPage := page }

def normalizeRrl (input : RrlSettings σ) : RrlSettings σ := { input with exempt := trimList input.exempt }

def applyRrl (update : RrlSettings σ) (config : Config σ) : Answer (Config σ) := do
  let rrl := normalizeRrl update
  checked "rrl" (checks.checkRrl rrl)
  match rrl.exempt.find? fun entry => !checks.isNetworkEntry config.networks entry with
  | some bad => throw (badRequest ("rrl: '".toList ++ bad ++ "' is not a network, an address or a network name".toList))
  | none => pure { config with rrl }

/-- Stands for a stored secret in what the browser sends back. -/
def redacted : Text := "[redacted]".toList

def normalizeAlerts (input stored : AlertSettings σ) : AlertSettings σ :=
  { input with
    webhookUrl := trim input.webhookUrl
    smtpServer := trim input.smtpServer
    smtpSecurity := toAsciiLowercase (trim input.smtpSecurity)
    smtpUsername := trim input.smtpUsername
    smtpPassword := if input.smtpPassword = redacted then stored.smtpPassword else input.smtpPassword
    emailFrom := trim input.emailFrom
    emailTo := trimList input.emailTo }

def applyAlerts (update : AlertSettings σ) (config : Config σ) : Answer (Config σ) := do
  let alerts := normalizeAlerts update config.alerts
  checked "alerts" (checks.checkAlerts alerts)
  pure { config with alerts }

/-- A full path that does not climb out of where it points. -/
def isLogDir (dir : Text) : Bool := dir.head? == some '/' && !(dir.splitOn '/').contains "..".toList

def LoggingUpdate.applyTo (update : LoggingUpdate) (settings : LoggingSettings σ) : LoggingSettings σ :=
  { settings with
    queryDbEnabled := update.queryDbEnabled.getD settings.queryDbEnabled
    queryDbMaxRows := update.queryDbMaxRows.getD settings.queryDbMaxRows
    queryDbRetentionDays := update.queryDbRetentionDays.getD settings.queryDbRetentionDays
    queryLogEnabled := update.queryLogEnabled.getD settings.queryLogEnabled
    queryLogDir := (update.queryLogDir.map trim).getD settings.queryLogDir
    queryLogRetentionDays := update.queryLogRetentionDays.getD settings.queryLogRetentionDays }

def applyLogging (update : LoggingUpdate) (settings : LoggingSettings σ) : Answer (LoggingSettings σ) :=
  match update.queryLogDir.map trim with
  | some dir =>
      if !dir.isEmpty && !isLogDir dir then
        .error (badRequest "logging: the query log folder must be a full path, like /var/log/daygle-dns".toList)
      else .ok (update.applyTo settings)
  | none => .ok (update.applyTo settings)

def normalizeSyslog (input : SyslogSettings σ) : SyslogSettings σ :=
  { input with server := trim input.server, facility := trim input.facility, level := trim input.level }

def applySyslog (update : SyslogSettings σ) (config : Config σ) : Answer (Config σ) := do
  let syslog := normalizeSyslog update
  checked "syslog" (checks.checkSyslog syslog)
  pure { config with syslog }

def normalizeLogExport (input stored : LogExportSettings σ) : LogExportSettings σ :=
  let format := toAsciiLowercase (trim input.format)
  { input with
    url := trim input.url
    format := if format.isEmpty then "ndjson".toList else format
    authorization := if input.authorization = redacted then stored.authorization else trim input.authorization }

def applyLogExport (update : LogExportSettings σ) (config : Config σ) : Answer (Config σ) := do
  let logExport := normalizeLogExport update config.logExport
  checked "log_export" (checks.checkLogExport logExport)
  pure { config with logExport }

/-- A section that is there is applied. -/
def applied {υ α : Type} (update : Option υ) (apply : υ → α → Answer α) (value : α) : Answer α :=
  match update with
  | some update => apply update value
  | none => .ok value

/-- The sections before that of the web console, in their order. -/
def applyBeforeWeb (now : Text) (update : SettingsUpdate σ) (config : Config σ) : Answer (Config σ) := do
  let recursive ← applied update.recursive (applyRecursive checks now) config.recursive
  let config := { config with
    server := overlaid update.server ServerUpdate.applyTo config.server
    recursive
    dot := overlaid update.dot ListenerUpdate.applyDot config.dot
    doh := overlaid update.doh DohUpdate.applyTo config.doh
    doq := overlaid update.doq ListenerUpdate.applyDoq config.doq
    api := overlaid update.api ApiUpdate.applyTo config.api }
  let config ← applied update.dns64 (applyDns64 checks) config
  let config ← applied update.ecs (applyEcs checks) config
  let config ← applied update.rpz (applyRpz checks) config
  let config ← applied update.dhcp (applyDhcp checks) config
  let config ← applied update.reports (applyReports checks) config
  let config ← applied update.ddr (applyDdr checks) config
  let config ← applied update.accounts (applyAccounts checks) config
  let config ← applied update.blockPage (applyBlockPage checks) config
  let config ← applied update.rrl (applyRrl checks) config
  let config ← applied update.alerts (applyAlerts checks) config
  let logging ← applied update.logging applyLogging config.logging
  let config := { config with logging }
  let config ← applied update.syslog (applySyslog checks) config
  let config ← applied update.logExport (applyLogExport checks) config
  pure { config with updates := update.updates.getD config.updates }

def WebUpdate.applyTo (update : WebUpdate) (settings : WebSettings) : WebSettings where
  httpEnabled := update.httpEnabled.getD settings.httpEnabled
  httpPort := update.httpPort.getD settings.httpPort
  httpsEnabled := update.httpsEnabled.getD settings.httpsEnabled
  httpsPort := update.httpsPort.getD settings.httpsPort
  httpsCertificate := (update.httpsCertificate.map trim).getD settings.httpsCertificate
  redirectHttp := update.redirectHttp.getD settings.redirectHttp

def WebSettings.effectiveHttpPort (settings : WebSettings) (apiPort : UInt16) : UInt16 :=
  if settings.httpPort = 0 then apiPort else settings.httpPort

def WebSettings.check (settings : WebSettings) (apiPort : UInt16) : Except Text Unit :=
  let httpPort := settings.effectiveHttpPort apiPort
  if !settings.httpEnabled && !settings.httpsEnabled then
    .error "enable HTTP, HTTPS or both, or the console cannot be reached".toList
  else if settings.httpsEnabled && settings.httpsPort == 0 then .error "choose an HTTPS port".toList
  else if settings.httpEnabled && settings.httpsEnabled && httpPort == settings.httpsPort && httpPort != 0 then
    .error ("HTTP and HTTPS cannot share port ".toList ++ ofNat httpPort.toNat)
  else if settings.redirectHttp && !(settings.httpEnabled && settings.httpsEnabled) then
    .error "redirecting HTTP to HTTPS needs both enabled".toList
  else .ok ()

def DisplayUpdate.applyTo (update : DisplayUpdate) (settings : DisplaySettings) : DisplaySettings where
  timeZone := (update.timeZone.map trim).getD settings.timeZone
  dateFormat := update.dateFormat.getD settings.dateFormat
  timeFormat := update.timeFormat.getD settings.timeFormat
  theme := update.theme.getD settings.theme

/-- The mailbox is written as a name before the section is merged. -/
def applyAuthoritative (update : Runtime.AuthoritativeUpdate) (settings : AuthoritativeSettings σ) :
    Answer (AuthoritativeSettings σ) :=
  match update.defaultAdminMailbox with
  | none => .ok (update.applyTo settings)
  | some mailbox =>
      match checks.mailboxToRname mailbox with
      | .error message => .error (badRequest message)
      | .ok rname => .ok ({ update with defaultAdminMailbox := some rname }.applyTo settings)

/-- The members of a `BTreeSet`: in order, each once. -/
def normalizePolicyDomains (items : List Text) : List Text :=
  (((items.map normalizeZoneName).filter (!·.isEmpty)).dedup).insertionSort fun first second => first ≤ second

def PolicyUpdate.applyTo (update : PolicyUpdate) (settings : PolicySettings σ) : PolicySettings σ :=
  { settings with
    allowlist := (update.allowlist.map normalizePolicyDomains).getD settings.allowlist
    blocklist := (update.blocklist.map normalizePolicyDomains).getD settings.blocklist
    deniedNetworks := (update.deniedNetworks.map trimList).getD settings.deniedNetworks
    allowedNetworks := (update.allowedNetworks.map trimList).getD settings.allowedNetworks
    filterAaaa := update.filterAaaa.getD settings.filterAaaa
    cnameInspection := update.cnameInspection.getD settings.cnameInspection
    safeSearch := update.safeSearch.getD settings.safeSearch
    youtubeRestricted := update.youtubeRestricted.getD settings.youtubeRestricted
    safeBrowsingKey := ((update.safeBrowsingKey.filter (· ≠ redacted)).map trim).getD settings.safeBrowsingKey
    filterAaaaExcept := (update.filterAaaaExcept.map normalizePolicyDomains).getD settings.filterAaaaExcept }

/-- And those after it. -/
def applyAfterWeb (update : SettingsUpdate σ) (config : Config σ) : Answer (Config σ) := do
  let authoritative ← applied update.authoritative (applyAuthoritative checks) config.authoritative
  pure { config with
    display := overlaid update.display DisplayUpdate.applyTo config.display
    authoritative
    rateLimit := update.rateLimit.getD config.rateLimit
    policy := overlaid update.policy PolicyUpdate.applyTo config.policy
    ai := overlaid update.ai AiUpdate.applyTo config.ai }

end DaygleDns.Settings.Save
