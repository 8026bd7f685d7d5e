import DaygleDns.Fallible
import DaygleDns.Settings.UpdateSettings

/-! What a settings update that is rejected leaves behind. -/
namespace DaygleDns.Settings.Save

open Text Authoritative Fallible
open DaygleDns.Settings.Runtime (RecursiveSettings AuthoritativeSettings ListenerUpdate DohUpdate AiUpdate overlaid)

variable {σ κ ρ : Type} [DecidableEq σ] (checks : Checks σ) (outside : Outside σ κ ρ)

/-- A rejected update leaves everything as it was. -/
def RejectedUnchanged (state : AppState σ κ ρ) (update : SettingsUpdate σ) : Prop :=
  ∀ response, (updateSettings checks outside state update).1 = .error response →
    (updateSettings checks outside state update).2 = state

/-! What an update asks for, of the configuration that is live. -/

section Requested

omit [DecidableEq σ]

/-- The sections up to that of the web console. -/
def withSections (now : Text) (update : SettingsUpdate σ) (live : Config σ) : Config σ :=
  { live with
    server := overlaid update.server ServerUpdate.applyTo live.server
    recursive := (update.recursive.map (mergeRecursive now · live.recursive)).getD live.recursive
    dot := overlaid update.dot ListenerUpdate.applyDot live.dot
    doh := overlaid update.doh DohUpdate.applyTo live.doh
    doq := overlaid update.doq ListenerUpdate.applyDoq live.doq
    api := overlaid update.api ApiUpdate.applyTo live.api
    dns64 := (update.dns64.map normalizeDns64).getD live.dns64
    ecs := (update.ecs.map normalizeEcs).getD live.ecs
    rpz := (update.rpz.map (List.map normalizeRpz)).getD live.rpz
    dhcp := (update.dhcp.map normalizeDhcp).getD live.dhcp
    reports := (update.reports.map normalizeReports).getD live.reports
    ddr := (update.ddr.map normalizeDdr).getD live.ddr
    accounts := (update.accounts.map normalizeAccounts).getD live.accounts
    blockPage := (update.blockPage.map normalizeBlockPage).getD live.blockPage
    rrl := (update.rrl.map normalizeRrl).getD live.rrl
    alerts := (update.alerts.map (normalizeAlerts · live.alerts)).getD live.alerts
    logging := (update.logging.map (·.applyTo live.logging)).getD live.logging
    syslog := (update.syslog.map normalizeSyslog).getD live.syslog
    logExport := (update.logExport.map (normalizeLogExport · live.logExport)).getD live.logExport
    updates := update.updates.getD live.updates
    web := (update.web.map (·.applyTo live.web)).getD live.web }

/-- The mailbox is written as a name where it can be. -/
def mergeAuthoritative (update : Runtime.AuthoritativeUpdate) (settings : AuthoritativeSettings σ) : AuthoritativeSettings σ :=
  Runtime.AuthoritativeUpdate.applyTo
    { update with
      defaultAdminMailbox := update.defaultAdminMailbox.bind fun mailbox => (checks.mailboxToRname mailbox).toOption }
    settings

/-- The whole configuration. -/
def requested (now : Text) (update : SettingsUpdate σ) (live : Config σ) : Config σ :=
  { chosenFor update (withSections now update live) with
    display := overlaid update.display DisplayUpdate.applyTo live.display
    authoritative := (update.authoritative.map (mergeAuthoritative checks · live.authoritative)).getD live.authoritative
    rateLimit := update.rateLimit.getD live.rateLimit
    policy := overlaid update.policy PolicyUpdate.applyTo live.policy
    ai := overlaid update.ai AiUpdate.applyTo live.ai }

/-- A certificate is to be made for the console. -/
def asksCertificate (update : SettingsUpdate σ) (live : Config σ) (certificates : Certificates) : Bool :=
  update.web.isSome && needsCertificate outside ((update.web.map (·.applyTo live.web)).getD live.web) certificates

/-- The certificates with the one that is made, where one is. -/
def requestedCertificates (update : SettingsUpdate σ) (live : Config σ) (certificates : Certificates) : Certificates :=
  match selfSigned outside with
  | .ok cert => if asksCertificate outside update live certificates then certificates.put cert else certificates
  | .error _ => certificates

/-- The listeners once they have the settings. -/
def WebServer.moved (certificates : Certificates) (new : WebSettings) (server : WebServer) : WebServer :=
  { server with
    settings := new
    tls := if new.httpsEnabled then (loadTls outside certificates new.httpsCertificate).toOption else none
    http := if new.httpEnabled then some (new.effectiveHttpPort server.apiPort) else none
    https := if new.httpsEnabled then some new.httpsPort else none }

def WebApply.moved (certificates : Certificates) (new : WebSettings) : WebApply → WebApply
  | .running server => .running (server.moved outside certificates new)
  | web => web

end Requested

/-! What must be so of an update for each part of the handler to let it through. -/

/-- The sections up to that of the web console are in order. -/
structure SectionsAccepted (update : SettingsUpdate σ) (live : Config σ) : Prop where
  policies : ∀ input ∈ update.recursive, ∀ policy ∈ input.clientPolicies.getD [], policy.action = .forward →
    checks.parseUpstreams policy.upstreams = .ok ()
  dns64 : ∀ input ∈ update.dns64, checks.compileDns64 (normalizeDns64 input) live.networks = .ok ()
  ecs : ∀ input ∈ update.ecs, checks.compileEcs (normalizeEcs input) = .ok ()
  rpz : ∀ input ∈ update.rpz, checks.checkRpzZones (input.map normalizeRpz) live.authoritative = .ok () ∧
    ∀ zone ∈ input.map normalizeRpz, zone.source = .local_ → checks.readRules zone.name zone.rules = .ok ()
  dhcp : ∀ input ∈ update.dhcp, checks.checkDhcp (normalizeDhcp input) = .ok ()
  reports : ∀ input ∈ update.reports, checks.checkReports (normalizeReports input) = .ok ()
  ddr : ∀ input ∈ update.ddr, checks.checkDdr (normalizeDdr input) = .ok ()
  accounts : ∀ input ∈ update.accounts, checks.checkAccounts (normalizeAccounts input) = .ok ()
  blockPage : ∀ input ∈ update.blockPage, checks.checkBlockPage (normalizeBlockPage input) = .ok ()
  rrl : ∀ input ∈ update.rrl, checks.checkRrl (normalizeRrl input) = .ok () ∧
    ∀ entry ∈ (normalizeRrl input).exempt, checks.isNetworkEntry live.networks entry = true
  alerts : ∀ input ∈ update.alerts, checks.checkAlerts (normalizeAlerts input live.alerts) = .ok ()
  logging : ∀ input ∈ update.logging, ∀ dir ∈ input.queryLogDir, trim dir = [] ∨ isLogDir (trim dir) = true
  syslog : ∀ input ∈ update.syslog, checks.checkSyslog (normalizeSyslog input) = .ok ()
  logExport : ∀ input ∈ update.logExport, checks.checkLogExport (normalizeLogExport input live.logExport) = .ok ()
  web : ∀ input ∈ update.web, (input.applyTo live.web).check live.api.port = .ok ()

/-- The certificate for the console is there, or can be made and stored. -/
structure CertificateAccepted (update : SettingsUpdate σ) (live : Config σ) (certificates : Certificates) : Prop where
  generated : asksCertificate outside update live certificates = true → ∃ cert, selfSigned outside = .ok cert
  written : asksCertificate outside update live certificates = true → outside.faults .putTlsCertificate = none

/-- The mailbox and the certificates that are chosen are good, and so is the configuration, unless its error is there
already. -/
structure MergedAccepted (update : SettingsUpdate σ) (live config : Config σ) (certificates : Certificates) : Prop where
  mailbox : ∀ input ∈ update.authoritative, ∀ mailbox ∈ input.defaultAdminMailbox,
    ∃ rname, checks.mailboxToRname mailbox = .ok rname
  selected : ∀ selected ∈ selectedCertificates config, selected.2 ≠ [] →
    outside.faults (.selected selected.1) = none ∧ certificates.contains selected.2 = true
  valid : ∀ e, checks.validate config = .error e →
    ∃ previous, checks.validate live = .error previous ∧ (Console.mapErr previous).error = (Console.mapErr e).error
  outbound : config.recursive ≠ live.recursive → checkOutboundServers checks config.recursive = .ok ()

/-- The listeners can take the settings: these are good, the certificate loads, and a new port is free. -/
structure WebServer.Ready (certificates : Certificates) (new : WebSettings) (server : WebServer) : Prop where
  settings : new.check server.apiPort = .ok ()
  certificate : new.httpsEnabled = true → ∃ cert, loadTls outside certificates new.httpsCertificate = .ok cert
  http : new.httpEnabled = true → server.http ≠ some (new.effectiveHttpPort server.apiPort) →
    outside.bind (new.effectiveHttpPort server.apiPort) "HTTP" = .ok ()
  https : new.httpsEnabled = true → server.https ≠ some new.httpsPort → outside.bind new.httpsPort "HTTPS" = .ok ()

def WebApply.Ready (certificates : Certificates) (new : WebSettings) : WebApply → Prop
  | .absent => True
  | .starting => False
  | .running server => server.Ready outside certificates new

/-- Reports have somewhere to go, the block page's port is free, the resolver can be built and the settings written. -/
structure SaveAccepted (live config : Config σ) : Prop where
  reports : config.reports.enabled = true → trim config.alerts.webhookUrl ≠ [] ∨ config.alerts.emailConfigured = true
  blockPage : config.checkBlockPagePort = .ok ()
  resolver : recursiveChanged live config = true → config.recursive.enabled = true →
    ∃ resolver, outside.buildResolver (outside.withNetworksResolved config) = .ok resolver
  written : outside.faults .putRuntimeSettings = none

/-! The two effects that come before a check. -/

/-- A certificate is made for the console, and it is not the one that is stored. -/
structure StoresCertificate (state : AppState σ κ ρ) (update : SettingsUpdate σ) : Prop where
  sections : SectionsAccepted checks update state.config
  asked : asksCertificate outside update state.config state.certificates = true
  written : outside.faults .putTlsCertificate = none
  differs : ∃ cert, selfSigned outside = .ok cert ∧ state.certificates.put cert ≠ state.certificates

/-- Everything behind the certificate is in order. -/
structure BehindCertificate (state : AppState σ κ ρ) (update : SettingsUpdate σ) (config : Config σ)
    (certificates : Certificates) : Prop where
  merged : MergedAccepted checks outside update state.config config certificates
  ready : state.config.web ≠ config.web → state.web.Ready outside certificates config.web
  saved : SaveAccepted outside state.config config

/-- The console's settings change, everything before the listeners is in order, and they run otherwise then. -/
structure MovesListeners (state : AppState σ κ ρ) (update : SettingsUpdate σ) (config : Config σ)
    (certificates : Certificates) : Prop where
  sections : SectionsAccepted checks update state.config
  certificate : CertificateAccepted outside update state.config state.certificates
  merged : MergedAccepted checks outside update state.config config certificates
  changes : state.config.web ≠ config.web
  ready : state.web.Ready outside certificates config.web
  differs : state.web.moved outside certificates config.web ≠ state.web

/-- Where the update has a certificate stored, or the listeners moved, what comes behind is in order. -/
def Undisturbed (state : AppState σ κ ρ) (update : SettingsUpdate σ) : Prop :=
  let config := requested checks outside.now update state.config
  let certificates := requestedCertificates outside update state.config state.certificates
  (StoresCertificate checks outside state update → BehindCertificate checks outside state update config certificates) ∧
    (MovesListeners checks outside state update config certificates → SaveAccepted outside state.config config)

/-! Each part of the handler lets an update through exactly so. -/

variable {update : SettingsUpdate σ} {live config : Config σ} {certificates : Certificates}

omit [DecidableEq σ] in
theorem checked_eq_ok {label : String} {result : Except Text Unit} : checked label result = .ok () ↔ result = .ok () :=
  mapError_eq_ok

omit [DecidableEq σ] in
/-- A section that is checked and takes its place in the configuration. -/
theorem applied_eq_ok {υ τ α : Type} {update : Option υ} {apply : υ → α → Answer α} {value out : α} (put : τ → α) {field : τ}
    (hput : put field = value) (merge : υ → τ) {passes : υ → Prop}
    (h : ∀ input out, apply input value = .ok out ↔ passes input ∧ out = put (merge input)) :
    applied update apply value = .ok out ↔ (∀ input ∈ update, passes input) ∧ out = put ((update.map merge).getD field) := by
  cases update with
  | none => simp [applied, hput, eq_comm]
  | some input => simp [applied, h]

theorem checked_then_eq_ok {α : Type} {label : String} {result : Except Text Unit} {value out : α} :
    (checked label result >>= fun _ => pure value) = .ok out ↔ result = .ok () ∧ out = value := by
  rw [then_eq_ok, checked_eq_ok, pure_eq_ok]

/-- The same before the sections that follow. -/
theorem applied_then_eq_ok {υ τ α β : Type} {update : Option υ} {apply : υ → α → Answer α} {value : α} (put : τ → α) {field : τ}
    (hput : put field = value) (merge : υ → τ) {passes : υ → Prop}
    (h : ∀ input out, apply input value = .ok out ↔ passes input ∧ out = put (merge input)) {next : α → Answer β} {out : β} :
    (applied update apply value >>= next) = .ok out ↔
      (∀ input ∈ update, passes input) ∧ next (put ((update.map merge).getD field)) = .ok out := by
  rw [bind_eq_ok]
  simp only [applied_eq_ok put hput merge h, and_assoc, exists_and_left, exists_eq_left]

section Sections

omit [DecidableEq σ]

variable {out : Config σ}

theorem applyRecursive_eq_ok {now : Text} {input : Runtime.RecursiveUpdate} {settings result : RecursiveSettings σ} :
    applyRecursive checks now input settings = .ok result ↔
      (∀ policy ∈ input.clientPolicies.getD [], policy.action = .forward → checks.parseUpstreams policy.upstreams = .ok ()) ∧
        result = mergeRecursive now input settings := by
  have hpolicy : ∀ policy, checkPolicyUpstreams checks policy = .ok () ↔
      (policy.action = .forward → checks.parseUpstreams policy.upstreams = .ok ()) := by
    intro policy
    unfold checkPolicyUpstreams
    split <;> simp [mapError_eq_ok, *]
  unfold applyRecursive
  rw [then_eq_ok, forM_eq_ok, pure_eq_ok]
  simp only [hpolicy]

theorem applyRpz_eq_ok {input : List (RpzZoneConfig σ)} :
    applyRpz checks input config = .ok out ↔
      (checks.checkRpzZones (input.map normalizeRpz) config.authoritative = .ok () ∧
        ∀ zone ∈ input.map normalizeRpz, zone.source = .local_ → checks.readRules zone.name zone.rules = .ok ()) ∧
        out = { config with rpz := input.map normalizeRpz } := by
  unfold applyRpz
  rw [then_eq_ok, then_eq_ok, checked_eq_ok, forM_eq_ok, pure_eq_ok, and_assoc]
  simp only [mapError_eq_ok, List.mem_filter, beq_iff_eq, and_imp]

theorem applyRrl_eq_ok {input : RrlSettings σ} :
    applyRrl checks input config = .ok out ↔
      (checks.checkRrl (normalizeRrl input) = .ok () ∧
        ∀ entry ∈ (normalizeRrl input).exempt, checks.isNetworkEntry config.networks entry = true) ∧
        out = { config with rrl := normalizeRrl input } := by
  unfold applyRrl
  rw [then_eq_ok, checked_eq_ok, and_assoc]
  apply and_congr_right'
  split
  next bad hbad =>
    have hfound := List.find?_some hbad
    have hmem := List.mem_of_find?_eq_some hbad
    simp only [Bool.not_eq_true'] at hfound
    refine iff_of_false error_ne_ok fun h => ?_
    rw [h.1 bad hmem] at hfound
    cases hfound
  next hnone =>
    have hall : ∀ entry ∈ (normalizeRrl input).exempt, checks.isNetworkEntry config.networks entry = true := by
      simpa using hnone
    rw [pure_eq_ok]
    exact (and_iff_right hall).symm

theorem applyLogging_eq_ok {input : LoggingUpdate} {settings result : LoggingSettings σ} :
    applyLogging input settings = .ok result ↔
      (∀ dir ∈ input.queryLogDir, trim dir = [] ∨ isLogDir (trim dir) = true) ∧ result = input.applyTo settings := by
  unfold applyLogging
  cases hdir : input.queryLogDir with
  | none =>
    rw [Option.map_none]
    exact ⟨fun h => ⟨nofun, (Except.ok.inj h).symm⟩, fun h => congrArg Except.ok h.2.symm⟩
  | some dir =>
    rw [Option.map_some]
    dsimp only
    rw [guard_eq_ok, Except.ok.injEq]
    apply and_congr _ eq_comm
    simp [or_iff_not_imp_left]

theorem mergeWeb_eq_ok {input : WebUpdate} :
    mergeWeb input config = .ok out ↔
      (input.applyTo config.web).check config.api.port = .ok () ∧ out = { config with web := input.applyTo config.web } := by
  unfold mergeWeb
  rw [then_eq_ok, mapError_eq_ok, pure_eq_ok]

theorem api_port (update : Option ApiUpdate) (settings : ApiSettings σ) :
    (overlaid update ApiUpdate.applyTo settings).port = settings.port := by
  cases update <;> rfl

/-! Each section in its place. -/

variable {next : Config σ → Answer (Config σ)}

theorem recursive_then {now : Text} {update : Option Runtime.RecursiveUpdate} {next : RecursiveSettings σ → Answer (Config σ)} :
    (applied update (applyRecursive checks now) config.recursive >>= next) = .ok out ↔
      (∀ input ∈ update, ∀ policy ∈ input.clientPolicies.getD [], policy.action = .forward →
        checks.parseUpstreams policy.upstreams = .ok ()) ∧
      next ((update.map (mergeRecursive now · config.recursive)).getD config.recursive) = .ok out :=
  applied_then_eq_ok id rfl _ fun _ _ => applyRecursive_eq_ok checks

theorem logging_then {update : Option LoggingUpdate} {next : LoggingSettings σ → Answer (Config σ)} :
    (applied update applyLogging config.logging >>= next) = .ok out ↔
      (∀ input ∈ update, ∀ dir ∈ input.queryLogDir, trim dir = [] ∨ isLogDir (trim dir) = true) ∧
      next ((update.map (·.applyTo config.logging)).getD config.logging) = .ok out :=
  applied_then_eq_ok id rfl _ fun _ _ => applyLogging_eq_ok

theorem dns64_then {update : Option (Dns64Settings σ)} :
    (applied update (applyDns64 checks) config >>= next) = .ok out ↔
      (∀ input ∈ update, checks.compileDns64 (normalizeDns64 input) config.networks = .ok ()) ∧
      next { config with dns64 := (update.map normalizeDns64).getD config.dns64 } = .ok out :=
  applied_then_eq_ok (fun dns64 => { config with dns64 }) rfl _ fun _ _ => checked_then_eq_ok

theorem ecs_then {update : Option (EcsSettings σ)} :
    (applied update (applyEcs checks) config >>= next) = .ok out ↔
      (∀ input ∈ update, checks.compileEcs (normalizeEcs input) = .ok ()) ∧
      next { config with ecs := (update.map normalizeEcs).getD config.ecs } = .ok out :=
  applied_then_eq_ok (fun ecs => { config with ecs }) rfl _ fun _ _ => checked_then_eq_ok

theorem rpz_then {update : Option (List (RpzZoneConfig σ))} :
    (applied update (applyRpz checks) config >>= next) = .ok out ↔
      (∀ input ∈ update, checks.checkRpzZones (input.map normalizeRpz) config.authoritative = .ok () ∧
        ∀ zone ∈ input.map normalizeRpz, zone.source = .local_ → checks.readRules zone.name zone.rules = .ok ()) ∧
      next { config with rpz := (update.map (List.map normalizeRpz)).getD config.rpz } = .ok out :=
  applied_then_eq_ok (fun rpz => { config with rpz }) rfl _ fun _ _ => applyRpz_eq_ok checks

theorem dhcp_then {update : Option (DhcpSettings σ)} :
    (applied update (applyDhcp checks) config >>= next) = .ok out ↔
      (∀ input ∈ update, checks.checkDhcp (normalizeDhcp input) = .ok ()) ∧
      next { config with dhcp := (update.map normalizeDhcp).getD config.dhcp } = .ok out :=
  applied_then_eq_ok (fun dhcp => { config with dhcp }) rfl _ fun _ _ => checked_then_eq_ok

theorem reports_then {update : Option (ReportSettings σ)} :
    (applied update (applyReports checks) config >>= next) = .ok out ↔
      (∀ input ∈ update, checks.checkReports (normalizeReports input) = .ok ()) ∧
      next { config with reports := (update.map normalizeReports).getD config.reports } = .ok out :=
  applied_then_eq_ok (fun reports => { config with reports }) rfl _ fun _ _ => checked_then_eq_ok

theorem ddr_then {update : Option (DdrSettings σ)} :
    (applied update (applyDdr checks) config >>= next) = .ok out ↔
      (∀ input ∈ update, checks.checkDdr (normalizeDdr input) = .ok ()) ∧
      next { config with ddr := (update.map normalizeDdr).getD config.ddr } = .ok out :=
  applied_then_eq_ok (fun ddr => { config with ddr }) rfl _ fun _ _ => checked_then_eq_ok

theorem accounts_then {update : Option (AccountSettings σ)} :
    (applied update (applyAccounts checks) config >>= next) = .ok out ↔
      (∀ input ∈ update, checks.checkAccounts (normalizeAccounts input) = .ok ()) ∧
      next { config with accounts := (update.map normalizeAccounts).getD config.accounts } = .ok out :=
  applied_then_eq_ok (fun accounts => { config with accounts }) rfl _ fun _ _ => checked_then_eq_ok

theorem blockPage_then {update : Option (BlockPageSettings σ)} :
    (applied update (applyBlockPage checks) config >>= next) = .ok out ↔
      (∀ input ∈ update, checks.checkBlockPage (normalizeBlockPage input) = .ok ()) ∧
      next { config with blockPage := (update.map normalizeBlockPage).getD config.blockPage } = .ok out :=
  applied_then_eq_ok (fun blockPage => { config with blockPage }) rfl _ fun _ _ => checked_then_eq_ok

theorem rrl_then {update : Option (RrlSettings σ)} :
    (applied update (applyRrl checks) config >>= next) = .ok out ↔
      (∀ input ∈ update, checks.checkRrl (normalizeRrl input) = .ok () ∧
        ∀ entry ∈ (normalizeRrl input).exempt, checks.isNetworkEntry config.networks entry = true) ∧
      next { config with rrl := (update.map normalizeRrl).getD config.rrl } = .ok out :=
  applied_then_eq_ok (fun rrl => { config with rrl }) rfl _ fun _ _ => applyRrl_eq_ok checks

theorem alerts_then {update : Option (AlertSettings σ)} :
    (applied update (applyAlerts checks) config >>= next) = .ok out ↔
      (∀ input ∈ update, checks.checkAlerts (normalizeAlerts input config.alerts) = .ok ()) ∧
      next { config with alerts := (update.map (normalizeAlerts · config.alerts)).getD config.alerts } = .ok out :=
  applied_then_eq_ok (fun alerts => { config with alerts }) rfl _ fun _ _ => checked_then_eq_ok

theorem syslog_then {update : Option (SyslogSettings σ)} :
    (applied update (applySyslog checks) config >>= next) = .ok out ↔
      (∀ input ∈ update, checks.checkSyslog (normalizeSyslog input) = .ok ()) ∧
      next { config with syslog := (update.map normalizeSyslog).getD config.syslog } = .ok out :=
  applied_then_eq_ok (fun syslog => { config with syslog }) rfl _ fun _ _ => checked_then_eq_ok

theorem logExport_then {update : Option (LogExportSettings σ)} :
    (applied update (applyLogExport checks) config >>= next) = .ok out ↔
      (∀ input ∈ update, checks.checkLogExport (normalizeLogExport input config.logExport) = .ok ()) ∧
      next { config with logExport := (update.map (normalizeLogExport · config.logExport)).getD config.logExport } = .ok out :=
  applied_then_eq_ok (fun logExport => { config with logExport }) rfl _ fun _ _ => checked_then_eq_ok

theorem applied_web {update : Option WebUpdate} :
    applied update mergeWeb config = .ok out ↔ (∀ input ∈ update, (input.applyTo config.web).check config.api.port = .ok ()) ∧
      out = { config with web := (update.map (·.applyTo config.web)).getD config.web } :=
  applied_eq_ok (fun web => { config with web }) rfl _ fun _ _ => mergeWeb_eq_ok

/-- The handler merges what is asked for, where every section is in order. -/
theorem mergedWithWeb_eq_ok :
    mergedWithWeb checks outside update live = .ok out ↔
      SectionsAccepted checks update live ∧ out = withSections outside.now update live := by
  unfold mergedWithWeb applyBeforeWeb
  simp only [bind_assoc, pure_bind, recursive_then, dns64_then, ecs_then, rpz_then, dhcp_then, reports_then, ddr_then,
    accounts_then, blockPage_then, rrl_then, alerts_then, logging_then, syslog_then, logExport_then, applied_web, api_port]
  constructor
  · rintro ⟨hpolicies, hdns64, hecs, hrpz, hdhcp, hreports, hddr, haccounts, hblockPage, hrrl, halerts, hlogging, hsyslog,
      hlogExport, hweb, rfl⟩
    exact ⟨⟨hpolicies, hdns64, hecs, hrpz, hdhcp, hreports, hddr, haccounts, hblockPage, hrrl, halerts, hlogging, hsyslog,
      hlogExport, hweb⟩, rfl⟩
  · rintro ⟨h, rfl⟩
    exact ⟨h.policies, h.dns64, h.ecs, h.rpz, h.dhcp, h.reports, h.ddr, h.accounts, h.blockPage, h.rrl, h.alerts, h.logging,
      h.syslog, h.logExport, h.web, rfl⟩

theorem storeSelfSigned_eq_ok {after : Certificates} :
    storeSelfSigned outside certificates = .ok after ↔
      ∃ cert, selfSigned outside = .ok cert ∧ outside.faults .putTlsCertificate = none ∧ after = certificates.put cert := by
  unfold storeSelfSigned
  rw [bind_eq_ok]
  apply exists_congr
  intro cert
  rw [mapError_eq_ok]
  apply and_congr_right'
  cases outside.faults .putTlsCertificate with
  | none => simp only [pure_eq_ok, true_and]
  | some e => exact iff_of_false error_ne_ok nofun

theorem certificatesFor_eq_ok {after : Certificates} :
    certificatesFor outside update (withSections outside.now update live) certificates = .ok after ↔
      CertificateAccepted outside update live certificates ∧ after = requestedCertificates outside update live certificates := by
  unfold certificatesFor requestedCertificates
  change (if asksCertificate outside update live certificates = true then _ else _) = _ ↔ _
  cases hasked : asksCertificate outside update live certificates with
  | false =>
    have haccepted : CertificateAccepted outside update live certificates := by
      constructor <;> rw [hasked] <;> exact nofun
    rw [if_neg Bool.false_ne_true, Except.ok.injEq, eq_comm, and_iff_right haccepted]
    cases selfSigned outside <;> rfl
  | true =>
    rw [if_pos rfl, storeSelfSigned_eq_ok]
    constructor
    · rintro ⟨cert, hcert, hwritten, rfl⟩
      refine ⟨⟨fun _ => ⟨cert, hcert⟩, fun _ => hwritten⟩, ?_⟩
      rw [hcert]
      rfl
    · rintro ⟨haccepted, rfl⟩
      obtain ⟨cert, hcert⟩ := haccepted.generated hasked
      refine ⟨cert, hcert, haccepted.written hasked, ?_⟩
      rw [hcert]
      rfl

theorem applyAuthoritative_eq_ok {input : Runtime.AuthoritativeUpdate} {settings result : AuthoritativeSettings σ} :
    applyAuthoritative checks input settings = .ok result ↔
      (∀ mailbox ∈ input.defaultAdminMailbox, ∃ rname, checks.mailboxToRname mailbox = .ok rname) ∧
        result = mergeAuthoritative checks input settings := by
  unfold applyAuthoritative mergeAuthoritative
  cases hmailbox : input.defaultAdminMailbox with
  | none =>
    have hsame : { input with defaultAdminMailbox := none } = input := by rw [← hmailbox]
    simp [hsame, eq_comm]
  | some mailbox => cases hrname : checks.mailboxToRname mailbox <;> simp [hrname, Except.toOption, eq_comm]

theorem authoritative_then {update : Option Runtime.AuthoritativeUpdate} {next : AuthoritativeSettings σ → Answer (Config σ)} :
    (applied update (applyAuthoritative checks) config.authoritative >>= next) = .ok out ↔
      (∀ input ∈ update, ∀ mailbox ∈ input.defaultAdminMailbox, ∃ rname, checks.mailboxToRname mailbox = .ok rname) ∧
      next ((update.map (mergeAuthoritative checks · config.authoritative)).getD config.authoritative) = .ok out :=
  applied_then_eq_ok id rfl _ fun _ _ => applyAuthoritative_eq_ok checks

/-- The later sections are merged, where the mailbox is good. -/
theorem applyAfterWeb_eq_ok {now : Text} :
    applyAfterWeb checks update (chosenFor update (withSections now update live)) = .ok out ↔
      (∀ input ∈ update.authoritative, ∀ mailbox ∈ input.defaultAdminMailbox,
        ∃ rname, checks.mailboxToRname mailbox = .ok rname) ∧ out = requested checks now update live := by
  unfold applyAfterWeb
  rw [authoritative_then, pure_eq_ok]
  rfl

end Sections

omit [DecidableEq σ] in
theorem checkSelected_eq_ok {selected : Text × Text} :
    checkSelected outside certificates selected = .ok () ↔
      (selected.2 ≠ [] → outside.faults (.selected selected.1) = none ∧ certificates.contains selected.2 = true) := by
  unfold checkSelected
  rw [guard_eq_ok, and_iff_left rfl]
  simp [Option.isNone_iff_eq_none]

omit [DecidableEq σ] in
theorem validateConfigUpdate_eq_ok :
    validateConfigUpdate checks live config = .ok () ↔ ∀ e, checks.validate config = .error e →
      ∃ previous, checks.validate live = .error previous ∧ (Console.mapErr previous).error = (Console.mapErr e).error := by
  unfold validateConfigUpdate
  cases checks.validate config with
  | ok value => simp
  | error e =>
    cases checks.validate live with
    | ok value => simp
    | error previous => by_cases hsame : (Console.mapErr previous).error = (Console.mapErr e).error <;> simp [hsame]

/-- What is asked for comes behind its checks. -/
theorem checkMerged_eq_ok :
    checkMerged checks outside live update certificates (chosenFor update (withSections outside.now update live)) = .ok config ↔
      MergedAccepted checks outside update live (requested checks outside.now update live) certificates ∧
        config = requested checks outside.now update live := by
  unfold checkMerged
  constructor
  · intro h
    obtain ⟨_, hmerged, h⟩ := bind_eq_ok.mp h
    obtain ⟨hmailbox, rfl⟩ := (applyAfterWeb_eq_ok checks).mp hmerged
    obtain ⟨hselected, h⟩ := then_eq_ok.mp h
    obtain ⟨hvalid, h⟩ := then_eq_ok.mp h
    obtain ⟨houtbound, h⟩ := check_then_eq_ok.mp h
    refine ⟨⟨hmailbox, fun selected hmem => ?_, ?_, fun hchanges => ?_⟩, pure_eq_ok.mp h⟩
    · exact (checkSelected_eq_ok outside).mp (forM_eq_ok.mp hselected selected hmem)
    · exact (validateConfigUpdate_eq_ok checks).mp hvalid
    · exact mapError_eq_ok.mp (houtbound hchanges)
  · rintro ⟨h, rfl⟩
    refine bind_eq_ok.mpr ⟨_, (applyAfterWeb_eq_ok checks).mpr ⟨h.mailbox, rfl⟩, ?_⟩
    refine then_eq_ok.mpr ⟨forM_eq_ok.mpr fun selected hmem => ?_, ?_⟩
    · exact (checkSelected_eq_ok outside).mpr (h.selected selected hmem)
    refine then_eq_ok.mpr ⟨(validateConfigUpdate_eq_ok checks).mpr h.valid, ?_⟩
    exact check_then_eq_ok.mpr ⟨fun hchanges => mapError_eq_ok.mpr (h.outbound hchanges), rfl⟩

section Listeners

omit [DecidableEq σ]

theorem bindMoved_eq_ok {running want : Option UInt16} {label : String} :
    bindMoved outside running want label = .ok () ↔ ∀ port ∈ want, running ≠ some port → outside.bind port label = .ok () := by
  unfold bindMoved
  cases want with
  | none => simp
  | some port => by_cases hsame : running = some port <;> simp [hsame]

theorem WebServer.apply_eq_ok {new : WebSettings} {server after : WebServer} :
    server.apply outside certificates new = .ok after ↔
      server.Ready outside certificates new ∧ after = server.moved outside certificates new := by
  have hload : ∀ finish : Option TlsCertificate → Except Text WebServer,
      (if new.httpsEnabled = true then (loadTls outside certificates new.httpsCertificate).map some >>= finish
        else pure none >>= finish) = .ok after ↔
      (new.httpsEnabled = true → ∃ cert, loadTls outside certificates new.httpsCertificate = .ok cert) ∧
        finish (if new.httpsEnabled then (loadTls outside certificates new.httpsCertificate).toOption else none) = .ok after := by
    intro finish
    by_cases hhttps : new.httpsEnabled = true
    · rw [if_pos hhttps, if_pos hhttps, forall_prop_of_true hhttps]
      cases loadTls outside certificates new.httpsCertificate <;> simp [Except.map, Except.toOption]
    · rw [if_neg hhttps, if_neg hhttps, pure_bind]
      exact (and_iff_right fun h => absurd h hhttps).symm
  unfold WebServer.apply
  rw [then_eq_ok]
  dsimp only
  rw [hload, then_eq_ok, then_eq_ok, bindMoved_eq_ok, bindMoved_eq_ok, pure_eq_ok]
  constructor
  · rintro ⟨hsettings, hcertificate, hhttp, hhttps, hafter⟩
    refine ⟨⟨hsettings, hcertificate, fun henabled => hhttp _ ?_, fun henabled => hhttps _ ?_⟩, hafter⟩
    · rw [if_pos henabled]
      rfl
    · rw [if_pos henabled]
      rfl
  · rintro ⟨hready, hafter⟩
    refine ⟨hready.settings, hready.certificate, fun port hport => ?_, fun port hport => ?_, hafter⟩
    · obtain ⟨henabled, hsame⟩ := Option.ite_none_right_eq_some.mp hport
      cases hsame
      exact hready.http henabled
    · obtain ⟨henabled, hsame⟩ := Option.ite_none_right_eq_some.mp hport
      cases hsame
      exact hready.https henabled

theorem WebApply.call_eq_ok {new : WebSettings} {web after : WebApply} :
    web.call outside certificates new = .ok after ↔
      web.Ready outside certificates new ∧ after = web.moved outside certificates new := by
  cases web with
  | absent => simp [WebApply.call, WebApply.Ready, WebApply.moved, eq_comm]
  | starting => simp [WebApply.call, WebApply.Ready]
  | running server =>
    unfold WebApply.call WebApply.Ready WebApply.moved
    rw [map_eq_ok]
    constructor
    · rintro ⟨moved, hmoved, rfl⟩
      obtain ⟨hready, rfl⟩ := (WebServer.apply_eq_ok outside).mp hmoved
      exact ⟨hready, rfl⟩
    · rintro ⟨hready, rfl⟩
      exact ⟨_, (WebServer.apply_eq_ok outside).mpr ⟨hready, rfl⟩, rfl⟩

end Listeners

omit [DecidableEq σ] in
theorem moveListeners_eq_ok {web after : WebApply} :
    moveListeners outside live config certificates web = .ok after ↔
      (live.web ≠ config.web → web.Ready outside certificates config.web) ∧
        after = if live.web ≠ config.web then web.moved outside certificates config.web else web := by
  unfold moveListeners
  by_cases hchanges : live.web ≠ config.web
  · rw [if_pos hchanges, if_pos hchanges, mapError_eq_ok, WebApply.call_eq_ok, forall_prop_of_true hchanges]
  · rw [if_neg hchanges, if_neg hchanges, Except.ok.injEq, eq_comm, and_iff_right fun h => absurd h hchanges]

theorem prepare_ok_iff :
    (∃ resolver, prepare outside live config = .ok resolver) ↔ SaveAccepted outside live config := by
  have hreports : (config.reports.enabled && (trim config.alerts.webhookUrl).isEmpty && !config.alerts.emailConfigured) = true ↔
      ¬(config.reports.enabled = true → trim config.alerts.webhookUrl ≠ [] ∨ config.alerts.emailConfigured = true) := by
    simp [and_assoc]
  unfold prepare
  dsimp only
  by_cases hsent : config.reports.enabled = true → trim config.alerts.webhookUrl ≠ [] ∨ config.alerts.emailConfigured = true
  · rw [if_neg fun h => hreports.mp h hsent]
    simp only [then_eq_ok, checked_eq_ok, exists_and_left, pure_bind]
    by_cases hbuilds : (recursiveChanged live config && config.recursive.enabled) = true
    · rw [if_pos hbuilds]
      rw [Bool.and_eq_true] at hbuilds
      cases hbuild : outside.buildResolver (outside.withNetworksResolved config) with
      | error e =>
        refine iff_of_false (fun ⟨_, _, h⟩ => error_ne_ok h) fun h => ?_
        obtain ⟨resolver, hresolver⟩ := h.resolver hbuilds.1 hbuilds.2
        exact error_ne_ok (hbuild.symm.trans hresolver)
      | ok resolver =>
        cases hput : outside.faults .putRuntimeSettings with
        | none => exact ⟨fun h => ⟨hsent, h.1, fun _ _ => ⟨resolver, hbuild⟩, hput⟩, fun h => ⟨h.blockPage, _, rfl⟩⟩
        | some e => exact iff_of_false (fun ⟨_, _, h⟩ => error_ne_ok h) fun h => nomatch hput.symm.trans h.written
    · rw [if_neg hbuilds]
      rw [Bool.and_eq_true, not_and] at hbuilds
      have hidle : recursiveChanged live config = true → config.recursive.enabled = true →
          ∃ resolver, outside.buildResolver (outside.withNetworksResolved config) = .ok resolver :=
        fun hchanged henabled => absurd henabled (hbuilds hchanged)
      cases hput : outside.faults .putRuntimeSettings with
      | none => exact ⟨fun h => ⟨hsent, h.1, hidle, hput⟩, fun h => ⟨h.blockPage, _, rfl⟩⟩
      | some e => exact iff_of_false (fun ⟨_, _, h⟩ => error_ne_ok h) fun h => nomatch hput.symm.trans h.written
  · rw [if_pos (hreports.mpr hsent)]
    exact iff_of_false (fun ⟨_, h⟩ => error_ne_ok h) fun h => hsent h.reports

/-! How far an update gets. -/

/-- What the handler has done where a check fails, and that it fails only there. -/
inductive Reached (state : AppState σ κ ρ) (update : SettingsUpdate σ) (config : Config σ) (certificates : Certificates) :
    Answer Unit × AppState σ κ ρ → Prop where
  | unchanged (response : Console.Response)
      (refused : ¬(SectionsAccepted checks update state.config ∧
        CertificateAccepted outside update state.config state.certificates)) :
      Reached state update config certificates (.error response, state)
  | stored (response : Console.Response) (sections : SectionsAccepted checks update state.config)
      (certificate : CertificateAccepted outside update state.config state.certificates)
      (refused : ¬(MergedAccepted checks outside update state.config config certificates ∧
        (state.config.web ≠ config.web → state.web.Ready outside certificates config.web))) :
      Reached state update config certificates (.error response, { state with certificates })
  | moved (response : Console.Response) (sections : SectionsAccepted checks update state.config)
      (certificate : CertificateAccepted outside update state.config state.certificates)
      (merged : MergedAccepted checks outside update state.config config certificates)
      (ready : state.config.web ≠ config.web → state.web.Ready outside certificates config.web)
      (refused : ¬SaveAccepted outside state.config config) :
      Reached state update config certificates (.error response, { state with
        certificates
        web := if state.config.web ≠ config.web then state.web.moved outside certificates config.web else state.web })
  | saved (after : AppState σ κ ρ) (merged : MergedAccepted checks outside update state.config config certificates)
      (ready : state.config.web ≠ config.web → state.web.Ready outside certificates config.web)
      (accepted : SaveAccepted outside state.config config) :
      Reached state update config certificates (.ok (), after)

theorem updateSettings_reached (state : AppState σ κ ρ) (update : SettingsUpdate σ) :
    Reached checks outside state update (requested checks outside.now update state.config)
      (requestedCertificates outside update state.config state.certificates) (updateSettings checks outside state update) := by
  unfold updateSettings
  cases hmerged : mergedWithWeb checks outside update state.config with
  | error response =>
    refine .unchanged response fun h => ?_
    exact error_ne_ok (hmerged.symm.trans ((mergedWithWeb_eq_ok checks outside).mpr ⟨h.1, rfl⟩))
  | ok merged =>
    obtain ⟨hsections, rfl⟩ := (mergedWithWeb_eq_ok checks outside).mp hmerged
    dsimp only
    cases hcertificates : certificatesFor outside update (withSections outside.now update state.config) state.certificates with
    | error response =>
      refine .unchanged response fun h => ?_
      exact error_ne_ok (hcertificates.symm.trans ((certificatesFor_eq_ok outside).mpr ⟨h.2, rfl⟩))
    | ok certificates =>
      obtain ⟨hcertificate, rfl⟩ := (certificatesFor_eq_ok outside).mp hcertificates
      dsimp only
      cases hcheck : checkMerged checks outside state.config update
          (requestedCertificates outside update state.config state.certificates)
          (chosenFor update (withSections outside.now update state.config)) with
      | error response =>
        refine .stored response hsections hcertificate fun h => ?_
        exact error_ne_ok (hcheck.symm.trans ((checkMerged_eq_ok checks outside).mpr ⟨h.1, rfl⟩))
      | ok config =>
        obtain ⟨haccepted, rfl⟩ := (checkMerged_eq_ok checks outside).mp hcheck
        dsimp only
        cases hmove : moveListeners outside state.config (requested checks outside.now update state.config)
            (requestedCertificates outside update state.config state.certificates) state.web with
        | error response =>
          refine .stored response hsections hcertificate fun h => ?_
          exact error_ne_ok (hmove.symm.trans ((moveListeners_eq_ok outside).mpr ⟨h.2, rfl⟩))
        | ok web =>
          obtain ⟨hready, rfl⟩ := (moveListeners_eq_ok outside).mp hmove
          dsimp only
          cases hprepare : prepare outside state.config (requested checks outside.now update state.config) with
          | error response =>
            refine .moved response hsections hcertificate haccepted hready fun h => ?_
            obtain ⟨resolver, hresolver⟩ := (prepare_ok_iff outside).mpr h
            exact error_ne_ok (hprepare.symm.trans hresolver)
          | ok resolver => exact .saved _ haccepted hready ((prepare_ok_iff outside).mp ⟨resolver, hprepare⟩)

omit [DecidableEq σ] in
/-- The certificates change exactly where one is stored. -/
theorem requestedCertificates_ne_iff {state : AppState σ κ ρ} (hsections : SectionsAccepted checks update state.config)
    (hcertificate : CertificateAccepted outside update state.config state.certificates) :
    requestedCertificates outside update state.config state.certificates ≠ state.certificates ↔
      StoresCertificate checks outside state update := by
  cases hasked : asksCertificate outside update state.config state.certificates with
  | false =>
    refine iff_of_false (fun hne => hne ?_) fun h => ?_
    · unfold requestedCertificates
      rw [hasked]
      cases selfSigned outside <;> rfl
    · exact Bool.false_ne_true (hasked.symm.trans h.asked)
  | true =>
    obtain ⟨cert, hcert⟩ := hcertificate.generated hasked
    have hput : requestedCertificates outside update state.config state.certificates = state.certificates.put cert := by
      unfold requestedCertificates
      rw [hcert, hasked]
      rfl
    rw [hput]
    constructor
    · exact fun hne => ⟨hsections, hasked, hcertificate.written hasked, cert, hcert, hne⟩
    · intro h
      obtain ⟨other, hother, hne⟩ := h.differs
      rw [hcert] at hother
      cases hother
      exact hne

/-- A rejected update changes nothing exactly where no check behind an effect fails. -/
theorem rejected_unchanged_iff (state : AppState σ κ ρ) (update : SettingsUpdate σ) :
    RejectedUnchanged checks outside state update ↔ Undisturbed checks outside state update := by
  have hreached := updateSettings_reached checks outside state update
  have hcertificates := @requestedCertificates_ne_iff σ κ ρ checks outside update state
  unfold RejectedUnchanged Undisturbed
  dsimp only
  generalize requested checks outside.now update state.config = config at hreached ⊢
  generalize requestedCertificates outside update state.config state.certificates = certificates at hreached hcertificates ⊢
  generalize updateSettings checks outside state update = result at hreached ⊢
  cases hreached with
  | unchanged response refused =>
    refine iff_of_true (fun _ _ => rfl) ⟨fun h => ?_, fun h => absurd ⟨h.sections, h.certificate⟩ refused⟩
    have haccepted : CertificateAccepted outside update state.config state.certificates :=
      ⟨fun _ => ⟨_, h.differs.choose_spec.1⟩, fun _ => h.written⟩
    exact absurd ⟨h.sections, haccepted⟩ refused
  | stored response sections certificate refused =>
    have hstores := hcertificates sections certificate
    constructor
    · intro h
      have hsame : certificates = state.certificates := congrArg AppState.certificates (h response rfl)
      exact ⟨fun h => absurd hsame (hstores.mpr h), fun h => absurd ⟨h.merged, fun _ => h.ready⟩ refused⟩
    · intro h _ _
      have hsame : certificates = state.certificates := by
        by_contra hne
        have hbehind := h.1 (hstores.mp hne)
        exact refused ⟨hbehind.merged, hbehind.ready⟩
      dsimp only
      rw [hsame]
  | moved response sections certificate merged ready refused =>
    have hstores := hcertificates sections certificate
    constructor
    · intro h
      have hstate := h response rfl
      have hsame : certificates = state.certificates := congrArg AppState.certificates hstate
      have hweb : (if state.config.web ≠ config.web then state.web.moved outside certificates config.web else state.web) =
          state.web := congrArg AppState.web hstate
      refine ⟨fun h => absurd hsame (hstores.mpr h), fun h => ?_⟩
      rw [if_pos h.changes] at hweb
      exact absurd hweb h.differs
    · intro h _ _
      have hsame : certificates = state.certificates := by
        by_contra hne
        exact refused (h.1 (hstores.mp hne)).saved
      have hweb : (if state.config.web ≠ config.web then state.web.moved outside certificates config.web else state.web) =
          state.web := by
        by_cases hchanges : state.config.web ≠ config.web
        · rw [if_pos hchanges]
          by_contra hne
          exact refused (h.2 ⟨sections, certificate, merged, hchanges, ready hchanges, hne⟩)
        · rw [if_neg hchanges]
      dsimp only
      rw [hweb, hsame]
  | saved after merged ready accepted => exact iff_of_true nofun ⟨fun _ => ⟨merged, ready, accepted⟩, fun _ => accepted⟩

/-! A server with its console on port 8080. -/

def plainConfig : Config Unit where
  server := ⟨"0.0.0.0".toList, false, 53, [], true, true, true, 3000, 10000, true, ()⟩
  recursive :=
    { enabled := true
      mode := none
      upstreams := []
      useSystemConfig := false
      cacheSize := 10000
      timeoutSecs := 5
      dnssecValidate := true
      minCacheTtl := 0
      negativeCacheTtl := 300
      maxCacheTtl := 86400
      failureCacheTtl := 10
      conditionalZones := []
      prefetchEnabled := true
      prefetchTtlFractionPct := 10
      prefetchMinQueries := 5
      prefetchWindowSecs := 3600
      serveStaleSecs := 0
      maxConcurrentLookups := 1000
      recursionAccess := .privateNetworks
      recursionNetworks := []
      rootHints := []
      caseRandomization := true
      rebindingProtection := true
      localRoot := ⟨false, [], none, .both⟩
      opportunisticEncryption := false
      outboundIpVersions := .both
      clientPolicies := []
      others := () }
  authoritative :=
    { defaultPrimaryNs := []
      defaultAdminMailbox := []
      defaultRecordTtl := 3600
      dnssecEnabled := false
      dnssecAlgorithm := "ECDSAP256SHA256".toList
      dnssecSigValidityDays := 30
      dnssecRolloverDays := 0
      dnssecRolloverOverlapDays := 7
      dnssecRolloverRetireDays := 7
      dnssecMaintenanceSecs := 3600
      axfrEnabled := false
      axfrNetworks := []
      allowDynamicUpdates := false
      updateNetworks := []
      catalogZone := []
      catalogConsumers := []
      notifyEnabled := false
      notifyTargets := []
      notifyListenEnabled := false
      stubZones := []
      emptyZones := []
      others := () }
  dot := ⟨false, [], 853, [], [], true, [], [], 150, 10, []⟩
  doh := ⟨false, [], 443, [], [], true, [], [], [], 10, 150, [], false⟩
  doq := ⟨false, [], 853, [], [], true, [], 30, 150, 100, [], []⟩
  api := ⟨true, 8080, true, [], ()⟩
  policy := ⟨[], [], (), [], [], false, [], true, false, false, [], ()⟩
  ai := ⟨false, .train, [], [], 1, 3600, 3600, 100, [], 0, 0, 86400, 86400, ()⟩
  rateLimit := ()
  logging := ⟨true, 100000, 7, false, [], 7, ()⟩
  display := ⟨"system".toList, "system".toList, "system".toList, "light".toList⟩
  web := ⟨true, 0, false, 8443, [], false⟩
  updates := ()
  syslog := ⟨[], "daemon".toList, "info".toList, ()⟩
  logExport := ⟨[], "ndjson".toList, [], ()⟩
  dns64 := ⟨[], [], ()⟩
  ecs := ⟨[], ()⟩
  alerts := ⟨[], [], [], [], [], [], [], ()⟩
  rrl := ⟨[], ()⟩
  rpz := []
  blockPage := ⟨false, [], [], [], 80, ()⟩
  ddr := ⟨[], ()⟩
  accounts := ⟨[], ()⟩
  reports := ⟨false, "weekly".toList, "monday".toList, ()⟩
  dhcp := ⟨[], ()⟩
  networks := ()

def plainChecks : Checks Unit where
  parseUpstreams := fun _ => .ok ()
  parseUpstreamsFor := fun _ _ => .ok ()
  compileDns64 := fun _ _ => .ok ()
  compileEcs := fun _ => .ok ()
  checkRpzZones := fun _ _ => .ok ()
  readRules := fun _ _ => .ok ()
  checkDhcp := fun _ => .ok ()
  checkReports := fun _ => .ok ()
  checkDdr := fun _ => .ok ()
  checkAccounts := fun _ => .ok ()
  checkBlockPage := fun _ => .ok ()
  checkRrl := fun _ => .ok ()
  isNetworkEntry := fun _ _ => true
  checkAlerts := fun _ => .ok ()
  checkSyslog := fun _ => .ok ()
  checkLogExport := fun _ => .ok ()
  mailboxToRname := .ok
  validate := fun _ => .ok ()

def plainOutside : Outside Unit Unit Unit where
  faults := fun _ => none
  now := "2026-01-01T00:00:00+00:00".toList
  detectServerName := none
  generateSelfSignedPem := fun name => .ok (name, name)
  tlsConfigFromPem := fun _ _ => .ok ()
  bind := fun _ _ => .ok ()
  withNetworksResolved := id
  buildResolver := fun _ => .ok ()
  capture := fun _ => ()

def plainState : AppState Unit Unit Unit where
  config := plainConfig
  runtimeSettings := none
  certificates := .empty
  web := .running ⟨8080, plainConfig.web, none, some 8080, none⟩
  resolver := none

/-- Reports are turned on with nowhere to send them to. -/
def reportsOn : ReportSettings Unit := ⟨true, "weekly".toList, "monday".toList, ()⟩

/-- The database does not take the settings. -/
def unwritable : Outside Unit Unit Unit :=
  { plainOutside with faults := fun call => if call = .putRuntimeSettings then some (.database []) else none }

/-- The console's port and the reports are saved at once, and the console has moved though the save
is rejected; HTTPS is turned on without a certificate, and the one that was made for it is left. -/
theorem rejected_unchanged_fails :
    (∃ response, updateSettings plainChecks plainOutside plainState
        { web := some { httpPort := some 9090 }, reports := some reportsOn } =
      (.error response, { plainState with web := .running ⟨8080, { plainConfig.web with httpPort := 9090 }, none, some 9090, none⟩ })) ∧
    ¬RejectedUnchanged plainChecks plainOutside plainState { web := some { httpPort := some 9090 }, reports := some reportsOn } ∧
    ¬RejectedUnchanged plainChecks unwritable plainState { web := some { httpsEnabled := some true } } := by
  have hmoved : updateSettings plainChecks plainOutside plainState
        { web := some { httpPort := some 9090 }, reports := some reportsOn } =
      (.error ⟨400, "reports: set up a webhook or email under Alerts first: reports are sent there".toList⟩,
        { plainState with web := .running ⟨8080, { plainConfig.web with httpPort := 9090 }, none, some 9090, none⟩ }) := rfl
  refine ⟨⟨_, hmoved⟩, fun h => ?_, fun h => ?_⟩
  · have hweb := congrArg AppState.web (h _ (congrArg Prod.fst hmoved))
    rw [hmoved] at hweb
    exact absurd hweb (by decide)
  · have hstored : (updateSettings plainChecks unwritable plainState { web := some { httpsEnabled := some true } }).1 =
        .error ⟨500, "database error: ".toList⟩ := rfl
    have hrows := congrArg (fun state => state.certificates.rows.length) (h _ hstored)
    exact absurd hrows (by decide)

end DaygleDns.Settings.Save
