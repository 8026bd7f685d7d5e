import DaygleDns.Settings.SaveSections

/-! The settings update of the console: the merged settings are checked, the web listeners moved,
the resolver built and the settings stored, one after the other, before anything is published. -/
namespace DaygleDns.Settings.Save

open Text Authoritative
open DaygleDns.Settings.Runtime (RecursiveSettings ConditionalZoneConfig)

structure TlsCertificate where
  name : Text
  serverName : Text
  certPem : Text
  keyPem : Text
  createdAt : Text
deriving DecidableEq

/-- The table `tls_certificates`; the name is its primary key. -/
abbrev Certificates := OrderedTable TlsCertificate Text TlsCertificate.name

/-! The console's listeners. -/

/-- The settings in force, the certificate of the HTTPS listener, and the ports that are listened on.
The redirect and the handshakes read the first two. -/
structure WebServer where
  apiPort : UInt16
  settings : WebSettings
  tls : Option TlsCertificate
  http : Option UInt16
  https : Option UInt16
deriving DecidableEq

/-- The hook through which the settings reach the listeners. -/
inductive WebApply where
  | absent
  | starting
  | running (server : WebServer)
deriving DecidableEq

/-- The statements on the database. -/
inductive SettingsCall where
  | selfSigned
  | putTlsCertificate
  | selected (label : Text)
  | loadTls
  | putRuntimeSettings
deriving DecidableEq

/-- What the rest of the process, the database and the operating system do during the update. -/
structure Outside (σ κ ρ : Type) where
  faults : SettingsCall → Option DaygleError
  now : Text
  detectServerName : Option Text
  generateSelfSignedPem : Text → Except DaygleError (Text × Text)
  tlsConfigFromPem : Text → Text → Except Text Unit
  bind : UInt16 → String → Except Text Unit
  withNetworksResolved : Config σ → Config σ
  buildResolver : Config σ → Except Text ρ
  capture : Config σ → κ

structure AppState (σ κ ρ : Type) where
  config : Config σ
  runtimeSettings : Option κ
  certificates : Certificates
  web : WebApply
  resolver : Option ρ

variable {σ κ ρ : Type} [DecidableEq σ] (checks : Checks σ) (outside : Outside σ κ ρ)

section Web

omit [DecidableEq σ]

def loadTls (certificates : Certificates) (name : Text) : Except Text TlsCertificate :=
  if name.isEmpty then .error "choose a certificate for HTTPS".toList
  else match outside.faults .loadTls with
    | some e => .error ("cannot read certificate '".toList ++ name ++ "': ".toList ++ (Console.mapErr e).error)
    | none =>
        match certificates.get name with
        | none => .error ("certificate '".toList ++ name ++ "' does not exist".toList)
        | some cert =>
            match outside.tlsConfigFromPem cert.certPem cert.keyPem with
            | .ok () => .ok cert
            | .error e => .error ("certificate '".toList ++ name ++ "' cannot be used: ".toList ++ e)

/-- A listener that is wanted on another port than it runs on gets a new socket. -/
def bindMoved (running want : Option UInt16) (label : String) : Except Text Unit :=
  match want with
  | some port => if running = some port then .ok () else outside.bind port label
  | none => .ok ()

/-- Move the listeners. What can fail comes before the running listeners are touched. -/
def WebServer.apply (certificates : Certificates) (new : WebSettings) (server : WebServer) : Except Text WebServer := do
  new.check server.apiPort
  let tls ← if new.httpsEnabled then (loadTls outside certificates new.httpsCertificate).map some else pure none
  let http := if new.httpEnabled then some (new.effectiveHttpPort server.apiPort) else none
  let https := if new.httpsEnabled then some new.httpsPort else none
  bindMoved outside server.http http "HTTP"
  bindMoved outside server.https https "HTTPS"
  pure { server with settings := new, tls, http, https }

def WebApply.call (certificates : Certificates) (new : WebSettings) : WebApply → Except Text WebApply
  | .absent => .ok .absent
  | .starting => .error "the web console is still starting".toList
  | .running server => (server.apply outside certificates new).map .running

/-- The certificate that is generated where none is chosen. -/
def webSelfSignedCert : Text := "web-console".toList

/-- Whether a self-signed certificate is generated: a failed read counts as none being there. -/
def needsCertificate (web : WebSettings) (certificates : Certificates) : Bool :=
  web.httpsEnabled && web.httpsCertificate.isEmpty &&
    !((outside.faults .selfSigned).isNone && certificates.contains webSelfSignedCert)

/-- The certificate that is generated. -/
def selfSigned : Except DaygleError TlsCertificate :=
  let serverName := (outside.detectServerName.map (trimEndMatches '.')).getD "daygle.local".toList
  (outside.generateSelfSignedPem serverName).map fun (certPem, keyPem) =>
    { name := webSelfSignedCert, serverName, certPem, keyPem, createdAt := outside.now }

/-- Generate it and store it. -/
def storeSelfSigned (certificates : Certificates) : Answer Certificates := do
  let cert ← (selfSigned outside).mapError Console.mapErr
  match outside.faults .putTlsCertificate with
  | some e => throw (Console.mapErr e)
  | none => pure (certificates.put cert)

/-- The section of the web console, with its check. -/
def mergeWeb (update : WebUpdate) (config : Config σ) : Answer (Config σ) := do
  let web := update.applyTo config.web
  (web.check config.api.port).mapError badRequest
  pure { config with web }

/-- With HTTPS on and no certificate chosen, the self-signed one is. -/
def WebSettings.chooseCertificate (web : WebSettings) : WebSettings :=
  if web.httpsEnabled && web.httpsCertificate.isEmpty then { web with httpsCertificate := webSelfSignedCert } else web

end Web

/-! The checks of the merged settings. -/

/-- The certificates that are selected. -/
def selectedCertificates (config : Config σ) : List (Text × Text) :=
  [("DoT".toList, config.dot.certificate), ("DoH".toList, config.doh.certificate), ("DoQ".toList, config.doq.certificate),
    ("HTTPS".toList, config.web.httpsCertificate)]

/-- A selected certificate must be stored. -/
def checkSelected (certificates : Certificates) (selected : Text × Text) : Answer Unit :=
  if !selected.2.isEmpty && !((outside.faults (.selected selected.1)).isNone && certificates.contains selected.2) then
    .error (badRequest ("unknown certificate '".toList ++ selected.2 ++ "' selected for ".toList ++ selected.1))
  else .ok ()

/-- An error that the live configuration has as well is no reason to refuse. -/
def validateConfigUpdate (old new : Config σ) : Answer Unit :=
  match checks.validate new with
  | .ok () => .ok ()
  | .error e =>
      match checks.validate old with
      | .ok () => .error (Console.mapErr e)
      | .error previous =>
          if (Console.mapErr previous).error = (Console.mapErr e).error then .ok () else .error (Console.mapErr e)

def checkOutboundServers (r : RecursiveSettings σ) : Except Text Unit :=
  if r.outboundIpVersions = .both then .ok ()
  else do
    if r.effectiveMode = .forwarding ∧ !r.useSystemConfig then
      (checks.parseUpstreamsFor r.upstreams r.outboundIpVersions).mapError ("upstreams: ".toList ++ ·)
    r.conditionalZones.forM fun zone : ConditionalZoneConfig =>
      (checks.parseUpstreamsFor zone.upstreams r.outboundIpVersions).mapError fun e =>
        "conditional forwarder '".toList ++ zone.name ++ "': ".toList ++ e
    (r.clientPolicies.filter fun p => p.enabled && p.action == .forward).forM fun policy : Runtime.ClientPolicyConfig =>
      (checks.parseUpstreamsFor policy.upstreams r.outboundIpVersions).mapError fun e =>
        "client policy '".toList ++ policy.name ++ "': ".toList ++ e

/-- The sections behind that of the web console, and the checks up to the listeners. -/
def checkMerged (old : Config σ) (update : SettingsUpdate σ) (certificates : Certificates) (config : Config σ) :
    Answer (Config σ) := do
  let config ← applyAfterWeb checks update config
  (selectedCertificates config).forM (checkSelected outside certificates)
  validateConfigUpdate checks old config
  if config.recursive ≠ old.recursive then
    (checkOutboundServers checks config.recursive).mapError badRequest
  pure config

def moveListeners (old config : Config σ) (certificates : Certificates) (web : WebApply) : Answer WebApply :=
  if old.web ≠ config.web then (web.call outside certificates config.web).mapError badRequest else .ok web

def AlertSettings.emailConfigured (alerts : AlertSettings σ) : Bool :=
  !(trim alerts.smtpServer).isEmpty && !alerts.emailTo.isEmpty

/-- The ports that are in use besides the block page's. -/
def Config.usedPorts (config : Config σ) : List (Text × UInt16 × Bool) :=
  [("the web console (HTTP)".toList, config.web.httpPort, config.web.httpEnabled),
    ("the web console (HTTPS)".toList, config.web.httpsPort, config.web.httpsEnabled),
    ("the API".toList, config.api.port, config.api.enabled),
    ("DNS over HTTPS".toList, config.doh.port, config.doh.enabled),
    ("DNS over TLS".toList, config.dot.port, config.dot.enabled)]

def Config.checkBlockPagePort (config : Config σ) : Except Text Unit :=
  if config.blockPage.enabled then
    match config.usedPorts.find? fun used => used.2.2 && used.2.1 == config.blockPage.port with
    | some (name, port, _) => .error ("port ".toList ++ ofNat port.toNat ++ " is already used by ".toList ++ name)
    | none => .ok ()
  else .ok ()

def recursiveChanged (old config : Config σ) : Bool :=
  old.recursive != config.recursive || old.authoritative.stubZones != config.authoritative.stubZones

/-- What comes between the move of the listeners and the publication: two checks, the resolver,
and the stored settings. -/
def prepare (old config : Config σ) : Answer (Option ρ) := do
  if config.reports.enabled && (trim config.alerts.webhookUrl).isEmpty && !config.alerts.emailConfigured then
    throw (badRequest "reports: set up a webhook or email under Alerts first: reports are sent there".toList)
  checked "block page" config.checkBlockPagePort
  let resolver ←
    if recursiveChanged old config && config.recursive.enabled then
      match outside.buildResolver (outside.withNetworksResolved config) with
      | .ok resolver => pure (some resolver)
      | .error e => throw (badRequest ("recursive resolver rebuild failed: ".toList ++ e))
    else pure none
  match outside.faults .putRuntimeSettings with
  | some e => throw (Console.mapErr e)
  | none => pure resolver

/-- The merged settings up to the section of the web console, with its check. -/
def mergedWithWeb (update : SettingsUpdate σ) (config : Config σ) : Answer (Config σ) := do
  let config ← applyBeforeWeb checks outside.now update config
  applied update.web mergeWeb config

/-- The certificates once the self-signed one is there, where it is needed. -/
def certificatesFor (update : SettingsUpdate σ) (merged : Config σ) (certificates : Certificates) : Answer Certificates :=
  if update.web.isSome && needsCertificate outside merged.web certificates then storeSelfSigned outside certificates
  else .ok certificates

def chosenFor (update : SettingsUpdate σ) (merged : Config σ) : Config σ :=
  { merged with web := if update.web.isSome then merged.web.chooseCertificate else merged.web }

def updateSettings (state : AppState σ κ ρ) (update : SettingsUpdate σ) : Answer Unit × AppState σ κ ρ :=
  match mergedWithWeb checks outside update state.config with
  | .error response => (.error response, state)
  | .ok merged =>
  match certificatesFor outside update merged state.certificates with
  | .error response => (.error response, state)
  | .ok certificates =>
  let stored := { state with certificates }
  match checkMerged checks outside state.config update certificates (chosenFor update merged) with
  | .error response => (.error response, stored)
  | .ok config =>
  -- The listeners move first: a port that cannot be bound rejects the whole update.
  match moveListeners outside state.config config certificates state.web with
  | .error response => (.error response, stored)
  | .ok web =>
  let moved := { stored with web }
  match prepare outside state.config config with
  | .error response => (.error response, moved)
  | .ok resolver =>
      (.ok (), { moved with
        config
        runtimeSettings := some (outside.capture config)
        resolver := if recursiveChanged state.config config then resolver else state.resolver })

end DaygleDns.Settings.Save
