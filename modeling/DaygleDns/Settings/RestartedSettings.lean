import DaygleDns.Settings.RuntimeSettings
import DaygleDns.TextFacts

/-! What the console saved is in force after a restart, but for a certificate that it
cleared and the file still names. -/
namespace DaygleDns.Settings.Runtime

open Text

/-! The form in which lists and names are stored. -/

/-- An entry as a list keeps it. -/
def Trimmed (entry : Text) : Prop := trim entry = entry ∧ entry ≠ []

/-- The name of a zone as it is kept. -/
def ZoneName (name : Text) : Prop := trim name = name ∧ name.getLast? ≠ some '.' ∧ toAsciiLowercase name = name

/-- A category as it is kept. -/
def Category (category : Text) : Prop :=
  trim category = category ∧ category.head? ≠ some ',' ∧ category.getLast? ≠ some ',' ∧
    toAsciiLowercase category = category

instance (entry : Text) : Decidable (Trimmed entry) :=
  inferInstanceAs (Decidable (trim entry = entry ∧ entry ≠ []))

instance (name : Text) : Decidable (ZoneName name) :=
  inferInstanceAs (Decidable (trim name = name ∧ name.getLast? ≠ some '.' ∧ toAsciiLowercase name = name))

instance (category : Text) : Decidable (Category category) :=
  inferInstanceAs (Decidable (trim category = category ∧ category.head? ≠ some ',' ∧
    category.getLast? ≠ some ',' ∧ toAsciiLowercase category = category))

theorem trimList_eq_self {items : List Text} (h : ∀ entry ∈ items, Trimmed entry) : trimList items = items := by
  have hmap : items.map trim = items := by
    conv_rhs => rw [← List.map_id items]
    apply List.map_congr_left
    intro entry hentry
    exact (h entry hentry).1
  unfold trimList
  rw [hmap, List.filter_eq_self]
  intro entry hentry
  rw [Bool.not_eq_true', List.isEmpty_eq_false_iff]
  exact (h entry hentry).2

theorem normalizeZoneName_eq_self {name : Text} (h : ZoneName name) : normalizeZoneName name = name := by
  obtain ⟨htrim, hlast, hlower⟩ := h
  rw [normalizeZoneName, htrim, trimEndMatches_of_last hlast, hlower]

theorem normalizeCategory_eq_self {category : Text} (h : Category category) : normalizeCategory category = category := by
  obtain ⟨htrim, hhead, hlast, hlower⟩ := h
  have hstart : trimStartMatches ',' category = category := by
    unfold trimStartMatches
    cases category with
    | nil => rfl
    | cons c rest =>
      apply List.dropWhile_cons_of_neg
      intro hc
      apply hhead
      rw [List.head?_cons, beq_iff_eq.mp hc]
  rw [normalizeCategory, htrim, hstart, trimEndMatches_of_last hlast, hlower]

theorem collectCategories_eq_self {seen categories : List Text} (h : ∀ c ∈ categories, Category c ∧ c ≠ [] ∧ c ∉ seen)
    (hnodup : categories.Nodup) : collectCategories seen categories = categories := by
  induction categories generalizing seen with
  | nil => rfl
  | cons category rest ih =>
    obtain ⟨hcategory, hne, hnew⟩ := h category List.mem_cons_self
    obtain ⟨hfirst, hrest⟩ := List.nodup_cons.mp hnodup
    unfold collectCategories
    rw [normalizeCategory_eq_self hcategory, if_neg, ih _ hrest]
    · intro c hc
      obtain ⟨hform, hblank, hunseen⟩ := h c (List.mem_cons_of_mem _ hc)
      refine ⟨hform, hblank, ?_⟩
      rw [List.mem_cons, not_or]
      exact ⟨fun heq => hfirst (heq ▸ hc), hunseen⟩
    · simp [hne, hnew]

theorem normalizeDnssecAlgorithm_eq_self {name : Text} (h : name ∈ dnssecAlgorithms.map Prod.fst) :
    normalizeDnssecAlgorithm name = name := by
  have hall : ∀ a ∈ dnssecAlgorithms.map Prod.fst, normalizeDnssecAlgorithm a = a := by decide
  exact hall name h

theorem qualifyPrimaryNs_eq_self {name : Text} (htrim : trim name = name) (h : name = [] ∨ endsWith ['.'] name = true) :
    qualifyPrimaryNs name = name := by
  unfold qualifyPrimaryNs
  rw [htrim, if_pos]
  rw [Bool.or_eq_true, List.isEmpty_iff]
  exact h

variable {σ : Type}

theorem clearLegacyPlaceholders_eq_self {settings : AuthoritativeSettings σ}
    (hns : trim settings.defaultPrimaryNs ≠ legacyPlaceholderPrimaryNs)
    (hmailbox : trim settings.defaultAdminMailbox ≠ legacyPlaceholderAdminMailbox) :
    settings.clearLegacyPlaceholders = settings := by
  unfold AuthoritativeSettings.clearLegacyPlaceholders
  rw [if_neg hns, if_neg hmailbox]

/-- The lists and names of a configuration are as the overlay stores them, and it has no
placeholder of an earlier version. -/
structure AsStored (config : DaygleConfig σ) : Prop where
  conditionalZones : ∀ z ∈ config.recursive.conditionalZones, ZoneName z.name ∧ ∀ u ∈ z.upstreams, Trimmed u
  recursionNetworks : ∀ n ∈ config.recursive.recursionNetworks, Trimmed n
  rootHints : ∀ h ∈ config.recursive.rootHints, Trimmed h
  clientPolicies : ∀ p ∈ config.recursive.clientPolicies,
    trim p.name = p.name ∧ (∀ c ∈ p.clients, Trimmed c) ∧ ∀ u ∈ p.upstreams, Trimmed u
  localRoot : ∀ s ∈ config.recursive.localRoot.sources, Trimmed s
  dotNetworks : ∀ n ∈ config.dot.allowedNetworks, Trimmed n
  dohNetworks : ∀ n ∈ config.doh.allowedNetworks, Trimmed n
  doqNetworks : ∀ n ∈ config.doq.allowedNetworks, Trimmed n
  safeBrowsingKey : trim config.policy.safeBrowsingKey = config.policy.safeBrowsingKey
  deniedNetworks : ∀ n ∈ config.policy.deniedNetworks, Trimmed n
  allowedNetworks : ∀ n ∈ config.policy.allowedNetworks, Trimmed n
  aiDatabase : trim config.ai.database = config.ai.database
  aiModelPath : trim config.ai.modelPath = config.ai.modelPath
  autoBlockCategories : ∀ c ∈ config.ai.autoBlockCategories, Category c ∧ c ≠ []
  autoBlockNodup : config.ai.autoBlockCategories.Nodup
  axfrNetworks : ∀ n ∈ config.authoritative.axfrNetworks, Trimmed n
  updateNetworks : ∀ n ∈ config.authoritative.updateNetworks, Trimmed n
  notifyTargets : ∀ n ∈ config.authoritative.notifyTargets, Trimmed n
  stubZones : ∀ z ∈ config.authoritative.stubZones, ZoneName z.name ∧ ∀ n ∈ z.nss, Trimmed n
  catalogZone : ZoneName config.authoritative.catalogZone
  catalogConsumers : ∀ c ∈ config.authoritative.catalogConsumers, ZoneName c.name ∧ ∀ m ∈ c.masters, Trimmed m
  emptyZones : ∀ z ∈ config.authoritative.emptyZones, ZoneName z
  dnssecAlgorithm : config.authoritative.dnssecAlgorithm ∈ dnssecAlgorithms.map Prod.fst
  primaryNs : trim config.authoritative.defaultPrimaryNs = config.authoritative.defaultPrimaryNs ∧
    (config.authoritative.defaultPrimaryNs = [] ∨ endsWith ['.'] config.authoritative.defaultPrimaryNs = true)
  noPlaceholderNs : trim config.authoritative.defaultPrimaryNs ≠ legacyPlaceholderPrimaryNs
  noPlaceholderMailbox : trim config.authoritative.defaultAdminMailbox ≠ legacyPlaceholderAdminMailbox

/-! What a restart should leave. -/

/-- The settings of the console as they were saved, the rest as the file has it. -/
def restored (saved file : DaygleConfig σ) : DaygleConfig σ :=
  { saved with
    server := { saved.server with others := file.server.others }
    recursive :=
      { saved.recursive with
        mode := some saved.recursive.effectiveMode
        localRoot :=
          { saved.recursive.localRoot with
            testTrustAnchor := file.recursive.localRoot.testTrustAnchor
            outboundIpVersions := file.recursive.localRoot.outboundIpVersions }
        others := file.recursive.others }
    authoritative := { saved.authoritative with others := file.authoritative.others }
    dot := { saved.dot with listen := file.dot.listen }
    doh := { saved.doh with listen := file.doh.listen }
    doq := { saved.doq with listen := file.doq.listen }
    api := { saved.api with others := file.api.others }
    policy := { saved.policy with others := file.policy.others }
    ai := { saved.ai with others := file.ai.others } }

/-- The saved settings are in force over the file, and saving them again changes nothing. -/
def Survives (saved file : DaygleConfig σ) : Prop :=
  (RuntimeSettings.capture saved).applyTo file = restored saved file ∧
  (RuntimeSettings.capture ((RuntimeSettings.capture saved).applyTo file)).serialized =
    (RuntimeSettings.capture saved).serialized

/-- A certificate is named, or the file names none either. -/
def CertificateKept (saved file : Text) : Prop := saved = [] → file = []

theorem captureCertificate_getD {saved file : Text} :
    (RuntimeSettings.captureCertificate saved).getD file = saved ↔ CertificateKept saved file := by
  unfold RuntimeSettings.captureCertificate CertificateKept
  cases saved with
  | nil => simp
  | cons c rest => simp

/-! Section by section. -/

section Restored

variable {saved : DaygleConfig σ} (h : AsStored saved) (file : DaygleConfig σ)

include h

theorem recursive_restored :
    ((RuntimeSettings.capture saved).applyTo file).recursive = (restored saved file).recursive := by
  have hzones : normalizeConditionalZones saved.recursive.conditionalZones = saved.recursive.conditionalZones := by
    unfold normalizeConditionalZones
    conv_rhs => rw [← List.map_id saved.recursive.conditionalZones]
    apply List.map_congr_left
    intro z hz
    obtain ⟨hname, hupstreams⟩ := h.conditionalZones z hz
    rw [normalizeZoneName_eq_self hname, trimList_eq_self hupstreams, id]
  have hpolicies : normalizeClientPolicies saved.recursive.clientPolicies = saved.recursive.clientPolicies := by
    unfold normalizeClientPolicies
    conv_rhs => rw [← List.map_id saved.recursive.clientPolicies]
    apply List.map_congr_left
    intro p hp
    obtain ⟨hname, hclients, hupstreams⟩ := h.clientPolicies p hp
    rw [hname, trimList_eq_self hclients, trimList_eq_self hupstreams, id]
  simp only [RuntimeSettings.applyTo, RuntimeSettings.capture, overlaid, RecursiveUpdate.applyTo,
    RecursiveUpdate.applyResolution, Option.map_some, Option.getD_some, Option.some_or, restored, hzones, hpolicies,
    trimList_eq_self h.recursionNetworks, trimList_eq_self h.rootHints, trimList_eq_self h.localRoot]

theorem policy_restored : ((RuntimeSettings.capture saved).applyTo file).policy = (restored saved file).policy := by
  simp only [RuntimeSettings.applyTo, RuntimeSettings.capture, overlaid, PolicyUpdate.applyTo, Option.map_some,
    Option.getD_some, restored, h.safeBrowsingKey, trimList_eq_self h.deniedNetworks,
    trimList_eq_self h.allowedNetworks]

theorem ai_restored : ((RuntimeSettings.capture saved).applyTo file).ai = (restored saved file).ai := by
  have hcategories : normalizeCategories saved.ai.autoBlockCategories = saved.ai.autoBlockCategories := by
    apply collectCategories_eq_self _ h.autoBlockNodup
    intro c hc
    obtain ⟨hform, hne⟩ := h.autoBlockCategories c hc
    exact ⟨hform, hne, List.not_mem_nil⟩
  simp only [RuntimeSettings.applyTo, RuntimeSettings.capture, overlaid, AiUpdate.applyTo, Option.map_some,
    Option.getD_some, restored, h.aiDatabase, h.aiModelPath, hcategories]

theorem authoritative_restored :
    ((RuntimeSettings.capture saved).applyTo file).authoritative = (restored saved file).authoritative := by
  have hstubs : normalizeStubZones saved.authoritative.stubZones = saved.authoritative.stubZones := by
    unfold normalizeStubZones
    conv_rhs => rw [← List.map_id saved.authoritative.stubZones]
    apply List.map_congr_left
    intro z hz
    obtain ⟨hname, hnss⟩ := h.stubZones z hz
    rw [normalizeZoneName_eq_self hname, trimList_eq_self hnss, id]
  have hconsumers : normalizeCatalogConsumers saved.authoritative.catalogConsumers =
      saved.authoritative.catalogConsumers := by
    unfold normalizeCatalogConsumers
    conv_rhs => rw [← List.map_id saved.authoritative.catalogConsumers]
    apply List.map_congr_left
    intro c hc
    obtain ⟨hname, hmasters⟩ := h.catalogConsumers c hc
    rw [normalizeZoneName_eq_self hname, trimList_eq_self hmasters, id]
  have hempty : saved.authoritative.emptyZones.map normalizeZoneName = saved.authoritative.emptyZones := by
    conv_rhs => rw [← List.map_id saved.authoritative.emptyZones]
    apply List.map_congr_left
    intro z hz
    rw [normalizeZoneName_eq_self (h.emptyZones z hz), id]
  have hns := qualifyPrimaryNs_eq_self h.primaryNs.1 h.primaryNs.2
  simp only [RuntimeSettings.applyTo, RuntimeSettings.capture, overlaid, AuthoritativeUpdate.applyTo,
    AuthoritativeUpdate.applyDnssec, Option.map_some, Option.getD_some, restored, hstubs, hconsumers, hempty, hns,
    trimList_eq_self h.axfrNetworks, trimList_eq_self h.updateNetworks, trimList_eq_self h.notifyTargets,
    normalizeZoneName_eq_self h.catalogZone, normalizeDnssecAlgorithm_eq_self h.dnssecAlgorithm]
  exact clearLegacyPlaceholders_eq_self h.noPlaceholderNs h.noPlaceholderMailbox

/-- A listener is restored exactly where its certificate is kept. -/
theorem dot_restored :
    ((RuntimeSettings.capture saved).applyTo file).dot = (restored saved file).dot ↔
      CertificateKept saved.dot.certificate file.dot.certificate := by
  rw [← captureCertificate_getD]
  simp only [RuntimeSettings.applyTo, RuntimeSettings.capture, overlaid, ListenerUpdate.applyDot, Option.map_some,
    Option.getD_some, restored, trimList_eq_self h.dotNetworks, DotSettings.mk.injEq, true_and, and_true]

theorem doh_restored :
    ((RuntimeSettings.capture saved).applyTo file).doh = (restored saved file).doh ↔
      CertificateKept saved.doh.certificate file.doh.certificate := by
  rw [← captureCertificate_getD]
  simp only [RuntimeSettings.applyTo, RuntimeSettings.capture, overlaid, DohUpdate.applyTo, Option.map_some,
    Option.getD_some, restored, trimList_eq_self h.dohNetworks, DohSettings.mk.injEq, true_and, and_true]

theorem doq_restored :
    ((RuntimeSettings.capture saved).applyTo file).doq = (restored saved file).doq ↔
      CertificateKept saved.doq.certificate file.doq.certificate := by
  rw [← captureCertificate_getD]
  simp only [RuntimeSettings.applyTo, RuntimeSettings.capture, overlaid, ListenerUpdate.applyDoq, Option.map_some,
    Option.getD_some, restored, trimList_eq_self h.doqNetworks, DoqSettings.mk.injEq, true_and, and_true]

end Restored

/-- What is restored is captured as it was. -/
theorem capture_restored (saved file : DaygleConfig σ) :
    (RuntimeSettings.capture (restored saved file)).serialized = (RuntimeSettings.capture saved).serialized := rfl

theorem settings_survive_iff {saved : DaygleConfig σ} (h : AsStored saved) (file : DaygleConfig σ) :
    Survives saved file ↔
      CertificateKept saved.dot.certificate file.dot.certificate ∧
      CertificateKept saved.doh.certificate file.doh.certificate ∧
      CertificateKept saved.doq.certificate file.doq.certificate := by
  constructor
  · intro ⟨hrestored, _⟩
    refine ⟨(dot_restored h file).mp ?_, (doh_restored h file).mp ?_, (doq_restored h file).mp ?_⟩
    · rw [hrestored]
    · rw [hrestored]
    · rw [hrestored]
  · intro ⟨hdot, hdoh, hdoq⟩
    have hrestored : (RuntimeSettings.capture saved).applyTo file = restored saved file := by
      calc (RuntimeSettings.capture saved).applyTo file
          = { restored saved file with
              recursive := ((RuntimeSettings.capture saved).applyTo file).recursive
              policy := ((RuntimeSettings.capture saved).applyTo file).policy
              ai := ((RuntimeSettings.capture saved).applyTo file).ai
              authoritative := ((RuntimeSettings.capture saved).applyTo file).authoritative
              dot := ((RuntimeSettings.capture saved).applyTo file).dot
              doh := ((RuntimeSettings.capture saved).applyTo file).doh
              doq := ((RuntimeSettings.capture saved).applyTo file).doq } := rfl
        _ = restored saved file := by
          rw [recursive_restored h, policy_restored h, ai_restored h, authoritative_restored h,
            (dot_restored h file).mpr hdot, (doh_restored h file).mpr hdoh, (doq_restored h file).mpr hdoq]
    refine ⟨hrestored, ?_⟩
    rw [hrestored, capture_restored]

/-! A certificate of the DoT listener. -/

def listenerConfig (certificate : Text) : DaygleConfig Unit where
  server := ⟨true, 10000, 2000, ()⟩
  recursive :=
    { enabled := true, mode := none, upstreams := ["9.9.9.9".toList], useSystemConfig := false, cacheSize := 8192
      timeoutSecs := 5, dnssecValidate := true, minCacheTtl := 0, negativeCacheTtl := 900, maxCacheTtl := 86400
      failureCacheTtl := 5, conditionalZones := [⟨"corp.example".toList, ["10.0.0.53".toList]⟩]
      prefetchEnabled := true, prefetchTtlFractionPct := 10, prefetchMinQueries := 3, prefetchWindowSecs := 300
      serveStaleSecs := 86400, maxConcurrentLookups := 512, recursionAccess := .privateNetworks
      recursionNetworks := [], rootHints := [], caseRandomization := false, rebindingProtection := true
      localRoot := ⟨true, [], none, .both⟩, opportunisticEncryption := false, outboundIpVersions := .both
      clientPolicies := [], others := () }
  authoritative :=
    { defaultPrimaryNs := [], defaultAdminMailbox := [], defaultRecordTtl := 3600, dnssecEnabled := true
      dnssecAlgorithm := "ED25519".toList, dnssecSigValidityDays := 14, dnssecRolloverDays := 90
      dnssecRolloverOverlapDays := 7, dnssecRolloverRetireDays := 7, dnssecMaintenanceSecs := 3600
      axfrEnabled := false, axfrNetworks := [], allowDynamicUpdates := false, updateNetworks := [], catalogZone := []
      catalogConsumers := [], notifyEnabled := true, notifyTargets := [], notifyListenEnabled := false
      stubZones := [], emptyZones := ["10.in-addr.arpa".toList], others := () }
  dot := ⟨true, "0.0.0.0".toList, 853, [], [], true, [], certificate, 512, 10, ["LAN".toList]⟩
  doh := ⟨false, "0.0.0.0".toList, 443, [], [], true, [], "/dns-query".toList, [], 10, 512, [], false⟩
  doq := ⟨false, "0.0.0.0".toList, 853, [], [], true, [], 30, 512, 100, [], []⟩
  api := ⟨true, [], ()⟩
  policy := ⟨[], [], (), [], [], false, [], true, false, false, [], ()⟩
  ai := ⟨true, .train, [], [], 2, 300, 3600, 500, ["malware".toList, "phishing".toList], 0, 0, 604800, 86400, ()⟩
  rateLimit := ()
  logging := ()
  display := ()
  web := ()
  updates := ()
  syslog := ()
  logExport := ()
  dns64 := ()
  ecs := ()
  networks := ()
  alerts := ()
  rrl := ()
  rpz := ()
  blockPage := ()
  ddr := ()
  accounts := ()
  reports := ()
  dhcp := ()

theorem asStored_listenerConfig (certificate : Text) : AsStored (listenerConfig certificate) := by
  have hcleared : AsStored (listenerConfig []) := by constructor <;> decide
  exact { hcleared with }

/-- A certificate that is named comes back. -/
theorem certificate_survives : Survives (listenerConfig "office".toList) (listenerConfig "old".toList) :=
  (settings_survive_iff (asStored_listenerConfig _) _).mpr ⟨nofun, fun _ => rfl, fun _ => rfl⟩

/-- One that was cleared does not stay cleared. -/
theorem cleared_certificate_returns :
    AsStored (listenerConfig []) ∧ ¬ Survives (listenerConfig []) (listenerConfig "old".toList) := by
  refine ⟨asStored_listenerConfig [], ?_⟩
  intro h
  have hcertificate := congrArg (fun c => c.dot.certificate) h.1
  revert hcertificate
  decide

end DaygleDns.Settings.Runtime
