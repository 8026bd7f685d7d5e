import DaygleDns.Authoritative.TransferServer
import DaygleDns.Authoritative.UpdateFacts
import DaygleDns.Authoritative.NameFacts

/-! A zone bound to a key is served and changed only for requests that are signed with
that key, exactly where the text of the binding names the key as the ring does. -/
namespace DaygleDns.Authoritative

open Text Framing Fallible

variable {reader : SettingsReader}

/-- The keys of a configuration that load, in its order. -/
def loadedKeys (reader : SettingsReader) (configs : List TsigKeyConfig) : List TsigKey :=
  configs.filterMap fun config => (TsigKey.fromConfig reader config).toOption

theorem find?_insert (ring : List TsigKey) (key : TsigKey) (name : Text) :
    (TsigKeyRing.insert ring key).find? (fun other => other.name == name) =
      if key.name = name then some key else ring.find? fun other => other.name == name := by
  rw [TsigKeyRing.insert, List.find?_cons, List.find?_filter]
  by_cases hname : key.name = name
  · simp [hname]
  · rw [if_neg hname, beq_false_of_ne hname]
    apply congrFun (congrArg List.find? _)
    funext other
    by_cases hother : other.name = name <;> simp [hother, Ne.symm hname]

/-- The last key of a name is the one in the ring. -/
theorem find?_fromConfigs {configs : List TsigKeyConfig} {start ring : List TsigKey}
    (h : configs.foldlM (fun ring config => (TsigKey.fromConfig reader config).map (TsigKeyRing.insert ring)) start =
      .ok ring) (name : Text) :
    ring.find? (fun key => key.name == name) =
      ((loadedKeys reader configs).reverse.find? fun key => key.name == name).or
        (start.find? fun key => key.name == name) := by
  induction configs generalizing start with
  | nil =>
    cases h
    rfl
  | cons config configs ih =>
    rw [List.foldlM_cons] at h
    cases hkey : TsigKey.fromConfig reader config with
    | error e =>
      rw [hkey] at h
      cases h
    | ok key =>
      rw [hkey] at h
      have hloaded : loadedKeys reader (config :: configs) = key :: loadedKeys reader configs := by
        simp [loadedKeys, hkey, Except.toOption]
      rw [ih h, hloaded, List.reverse_cons, List.find?_append, find?_insert, Option.or_assoc]
      by_cases hname : key.name = name <;> simp [hname]

/-- The binding's text is a spelling of the name of `key`, which no later key has. -/
def NamesKey (reader : SettingsReader) (settings : AuthoritativeSettings) (text : Text) (key : TsigKey) : Prop :=
  normalizeKeyName reader text = .ok key.name ∧
    (loadedKeys reader settings.tsigKeys).reverse.find? (fun other => other.name == key.name) = some key

/-- The binding's text is no spelling of the name of a key. -/
def NamesNone (reader : SettingsReader) (settings : AuthoritativeSettings) (text : Text) : Prop :=
  ∀ name, normalizeKeyName reader text = .ok name →
    (loadedKeys reader settings.tsigKeys).reverse.find? (fun other => other.name == name) = none

theorem normalizeKeyName_lower {text name : Text} (h : normalizeKeyName reader text = .ok name) :
    toAsciiLowercase name = name := by
  unfold normalizeKeyName at h
  cases hread : reader.fromAscii
      (if endsWith ['.'] (trim text) then trim text else trim text ++ ['.']) with
  | error e =>
    simp only [hread] at h
    cases h
  | ok display =>
    simp only [hread] at h
    cases h
    exact toAsciiLowercase_idem display

section Ring

variable {settings : AuthoritativeSettings} {ring : List TsigKey}
  (hring : TsigKeyRing.fromConfigs reader settings.tsigKeys = .ok ring)

include hring

theorem keyRing_eq : keyRing reader settings = ring := by
  rw [keyRing, hring]
  rfl

theorem get_eq {name : Text} (hlower : toAsciiLowercase name = name) :
    TsigKeyRing.get ring name =
      (loadedKeys reader settings.tsigKeys).reverse.find? fun key => key.name == name := by
  rw [TsigKeyRing.get, hlower, find?_fromConfigs hring, List.find?_nil, Option.or_none]

theorem getByConfigName_eq_some {text : Text} {key : TsigKey} :
    TsigKeyRing.getByConfigName reader ring text = some key ↔ NamesKey reader settings text key := by
  unfold TsigKeyRing.getByConfigName NamesKey
  cases hname : normalizeKeyName reader text with
  | error e => simp [Except.toOption]
  | ok name =>
    have hlower := normalizeKeyName_lower hname
    simp only [Except.toOption, Option.bind_some, get_eq hring hlower, Except.ok.injEq]
    constructor
    · intro hfound
      have hsame := List.find?_some hfound
      rw [← beq_iff_eq.mp hsame] at hfound
      exact ⟨(beq_iff_eq.mp hsame).symm, hfound⟩
    · intro h
      rw [h.1]
      exact h.2

theorem getByConfigName_eq_none {text : Text} :
    TsigKeyRing.getByConfigName reader ring text = none ↔ NamesNone reader settings text := by
  unfold TsigKeyRing.getByConfigName NamesNone
  cases hname : normalizeKeyName reader text with
  | error e => simp [Except.toOption]
  | ok name =>
    simp [Except.toOption, get_eq hring (normalizeKeyName_lower hname)]

end Ring

/-- A message carries a TSIG that verifies under the key at the time. -/
structure VerifiesUnder (codec : MessageCodec) (key : TsigKey) (raw : Bytes) (now : UInt64) : Prop where
  signed : ∃ message tsig, codec.fromVec raw = .ok message ∧ message.signature = some tsig ∧
    toAsciiLowercase tsig.name = key.name
  mac : ∃ window, codec.verifyMessageByte key raw = .ok window ∧ window now = true

theorem verifyRequest_valid {codec : MessageCodec} {ring : List TsigKey} {raw : Bytes} {id : UInt16} {now : UInt64}
    {key : TsigKey} {context : TSigResponseContext}
    (h : verifyRequest codec ring raw id now = .valid key context) :
    VerifiesUnder codec key raw now ∧ ring.find? (fun other => other.name == key.name) = some key := by
  unfold verifyRequest at h
  split at h
  · cases h
  split at h
  · cases h
  split at h
  · cases h
  next tsig hsigned =>
    split at h
    · cases h
    next found hfound =>
      split at h
      · cases h
      next window hwindow =>
        split at h
        · cases h
        next hnow =>
          split at h
          · cases h
          · cases h
            have hmatch := List.find?_some hfound
            have hname := beq_iff_eq.mp hmatch
            obtain ⟨message, hmessage, htsig⟩ := Option.bind_eq_some_iff.mp hsigned
            refine ⟨⟨⟨message, tsig, ?_, htsig, hname.symm⟩, window, hwindow, by simpa using hnow⟩, ?_⟩
            · cases hread : codec.fromVec raw with
              | error e =>
                rw [hread] at hmessage
                cases hmessage
              | ok read =>
                rw [hread] at hmessage
                cases hmessage
                rfl
            · rw [hname]
              exact hfound

/-! Transfers. -/

/-- Whatever the zone holds, nothing of it is sent for a request that does not carry
a TSIG that verifies under the key. -/
def GuardsTransfers (reader : SettingsReader) (settings : AuthoritativeSettings) (ring : List TsigKey) (qname : Text)
    (key : TsigKey) : Prop :=
  ∀ (codec : MessageCodec) (transferRecords : Text → Except DaygleError (Option (MessageRecord × List MessageRecord)))
    (clock : Nat → UInt64) (request : TransferRequest),
    ¬ VerifiesUnder codec key request.raw (clock 0) →
      ∀ message ∈ handleTransfer ⟨codec, reader, settings, ring, transferRecords, clock⟩ request qname,
        message.answers = []

/-- Nobody may transfer zones at all. -/
def TransfersClosed (reader : SettingsReader) (settings : AuthoritativeSettings) : Prop :=
  settings.axfrEnabled = true → ∀ client, transferClientAllowed reader settings.axfrNetworks client = false

theorem errorReply_answers {request : TransferRequest} {code : Nat} :
    ∀ message ∈ [errorReply request code], message.answers = [] := by
  intro message hmessage
  rw [List.mem_singleton.mp hmessage]
  rfl

/-- A zone of nothing but its SOA. -/
def bareZoneRecords : Text → Except DaygleError (Option (MessageRecord × List MessageRecord)) :=
  fun zone => .ok (some (⟨zone, .soa ⟨zone, zone, 1, 3600, 600, 86400, 3600⟩ [], 3600⟩, []))

def requestFrom (client : List UInt8) (raw : Bytes) : TransferRequest :=
  ⟨raw, ⟨0, false, 0, false, false, false⟩, ([], []), client⟩

/-- A codec under which every message is signed by the one key and no other verifies. -/
def oneKeyCodec (key : TsigKey) : MessageCodec :=
  let signature : TsigRecord := ⟨key.name, ⟨key.algorithm, 0, key.fudge, [], 0, none, []⟩⟩
  { recordToBytes := fun _ => .ok []
    toVec := fun _ => .ok []
    fromVec := fun _ => .ok ⟨⟨0, false, 0, false, false, false⟩, ([], []), [], [], some signature⟩
    macData := fun _ _ _ => .ok []
    verifyMac := fun _ _ _ _ => true
    messageTbs := fun _ _ _ => .ok []
    signedBitmessageToBuf := fun _ _ => .ok ([], signature)
    verifyMessageByte := fun other _ => if other = key then .ok fun _ => true else .error []
    signInContext := fun _ _ => .ok signature }

/-- A header that counts one additional record. -/
def signedHeader : Bytes := [0, 0, 0, 0, 0, 0, 0, 0, 0, 0, 0, 1]

theorem verifyRequest_oneKey {ring : List TsigKey} {key : TsigKey}
    (hget : ring.find? (fun other => other.name == key.name) = some key) (hlower : toAsciiLowercase key.name = key.name)
    (id : UInt16) (now : UInt64) :
    ∃ context, verifyRequest (oneKeyCodec key) ring signedHeader id now = .valid key context := by
  refine ⟨⟨id, now, key, []⟩, ?_⟩
  have hadditionals : hasAdditionals signedHeader = true := by decide
  have hlength : ¬ signedHeader.length < 12 := by decide
  simp [verifyRequest, hadditionals, hlength, oneKeyCodec, Except.toOption, hlower, hget]

theorem not_verifiesUnder_oneKey {key other : TsigKey} (h : key ≠ other) (raw : Bytes) (now : UInt64) :
    ¬ VerifiesUnder (oneKeyCodec other) key raw now := by
  intro hverifies
  obtain ⟨window, hwindow, _⟩ := hverifies.mac
  simp only [oneKeyCodec, if_neg h] at hwindow
  cases hwindow

theorem not_verifiesUnder_ofTable (key : TsigKey) (raw : Bytes) (now : UInt64) :
    ¬ VerifiesUnder (.ofTable [] []) key raw now := by
  intro hverifies
  obtain ⟨message, tsig, hread, _, _⟩ := hverifies.signed
  simp [MessageCodec.ofTable] at hread

theorem tsigTransferKey_eq {settings : AuthoritativeSettings} {ring : List TsigKey} {qname text : Text}
    (hring : TsigKeyRing.fromConfigs reader settings.tsigKeys = .ok ring)
    (hbound : boundKeyName reader settings.tsigTransferZones qname = some text) :
    tsigTransferKey reader settings qname = TsigKeyRing.getByConfigName reader ring text := by
  rw [tsigTransferKey, hbound, Option.bind_some, keyRing_eq hring]

theorem guardsTransfers_of_closed {settings : AuthoritativeSettings} {ring : List TsigKey} {qname : Text}
    {key : TsigKey} (h : TransfersClosed reader settings) : GuardsTransfers reader settings ring qname key := by
  intro codec transferRecords clock request _
  cases henabled : settings.axfrEnabled with
  | false =>
    simp only [handleTransfer, henabled, Bool.not_false, Bool.true_or, if_true]
    exact errorReply_answers
  | true =>
    simp only [handleTransfer, henabled, h henabled request.client, Bool.not_false, Bool.or_true, if_true]
    exact errorReply_answers

theorem guardsTransfers_of_namesKey {settings : AuthoritativeSettings} {ring : List TsigKey} {qname text : Text}
    {key : TsigKey} (hring : TsigKeyRing.fromConfigs reader settings.tsigKeys = .ok ring)
    (hbound : boundKeyName reader settings.tsigTransferZones qname = some text)
    (h : NamesKey reader settings text key) : GuardsTransfers reader settings ring qname key := by
  intro codec transferRecords clock request hunverified
  have hkey := (tsigTransferKey_eq hring hbound).trans ((getByConfigName_eq_some hring).mpr h)
  have hget : ring.find? (fun other => other.name == key.name) = some key := by
    rw [find?_fromConfigs hring, h.2, Option.some_or]
  unfold handleTransfer
  simp only [hkey]
  split
  · exact errorReply_answers
  · split
    next other context hvalid =>
      obtain ⟨hverifies, hother⟩ := verifyRequest_valid hvalid
      split
      next hname =>
        rw [hname, hget] at hother
        cases hother
        exact absurd hverifies hunverified
      next => exact errorReply_answers
    next => exact errorReply_answers
    next => exact errorReply_answers

theorem handleTransfer_unbound (server : TransferServer) (request : TransferRequest) {qname : Text}
    (henabled : server.settings.axfrEnabled = true)
    (hallowed : transferClientAllowed server.reader server.settings.axfrNetworks request.client = true)
    (hkey : tsigTransferKey server.reader server.settings qname = none) :
    handleTransfer server request qname = sendZone server request qname none := by
  simp [handleTransfer, henabled, hallowed, hkey]

theorem handleTransfer_signed (server : TransferServer) (request : TransferRequest) {qname : Text} {key : TsigKey}
    {context : TSigResponseContext} (henabled : server.settings.axfrEnabled = true)
    (hallowed : transferClientAllowed server.reader server.settings.axfrNetworks request.client = true)
    (hkey : tsigTransferKey server.reader server.settings qname = some key)
    (hvalid : verifyRequest server.codec server.tsigKeys request.raw request.metadata.id (server.clock 0) =
      .valid key context) :
    handleTransfer server request qname = sendZone server request qname (some (key, context)) := by
  simp [handleTransfer, henabled, hallowed, hkey, hvalid]

/-- Without the required key the whole zone goes out to an unsigned request; with
another key, to a request signed with that one. -/
theorem namesKey_of_guardsTransfers {settings : AuthoritativeSettings} {ring : List TsigKey} {qname text : Text}
    {key : TsigKey} (hring : TsigKeyRing.fromConfigs reader settings.tsigKeys = .ok ring)
    (hbound : boundKeyName reader settings.tsigTransferZones qname = some text)
    (hopen : ¬ TransfersClosed reader settings) (h : GuardsTransfers reader settings ring qname key) :
    NamesKey reader settings text key := by
  unfold TransfersClosed at hopen
  push Not at hopen
  obtain ⟨henabled, client, hallowed⟩ := hopen
  rw [ne_eq, Bool.not_eq_false] at hallowed
  apply (getByConfigName_eq_some hring).mp
  have hkey := tsigTransferKey_eq hring hbound
  cases hget : TsigKeyRing.getByConfigName reader ring text with
  | none =>
    have hunverified : ¬ VerifiesUnder (.ofTable [] []) key (requestFrom client []).raw 0 :=
      not_verifiesUnder_ofTable key [] 0
    have hsent := h (.ofTable [] []) bareZoneRecords (fun _ => 0) (requestFrom client []) hunverified
    rw [handleTransfer_unbound ⟨.ofTable [] [], reader, settings, ring, bareZoneRecords, fun _ => 0⟩ (requestFrom client [])
      henabled hallowed (hkey.trans hget)] at hsent
    simp [requestFrom, sendZone, bareZoneRecords, transferChunks, chunksFrom,
      recordLength, MessageCodec.ofTable, transferBudget, sendChunks, transferMessage] at hsent
  | some other =>
    by_contra hother
    have hne : key ≠ other := fun heq => hother (congrArg some heq.symm)
    have hnames := (getByConfigName_eq_some hring).mp hget
    have hfound : ring.find? (fun candidate => candidate.name == other.name) = some other := by
      rw [find?_fromConfigs hring, hnames.2, Option.some_or]
    obtain ⟨context, hvalid⟩ := verifyRequest_oneKey hfound (normalizeKeyName_lower hnames.1) 0 0
    have hunverified : ¬ VerifiesUnder (oneKeyCodec other) key (requestFrom client signedHeader).raw 0 :=
      not_verifiesUnder_oneKey hne _ _
    have hsent := h (oneKeyCodec other) bareZoneRecords (fun _ => 0) (requestFrom client signedHeader) hunverified
    rw [handleTransfer_signed ⟨oneKeyCodec other, reader, settings, ring, bareZoneRecords, fun _ => 0⟩
      (requestFrom client signedHeader) henabled hallowed (hkey.trans hget) hvalid] at hsent
    simp [requestFrom, sendZone, bareZoneRecords, transferChunks, chunksFrom,
      recordLength, oneKeyCodec, sendChunks, transferMessage, chunkSignature] at hsent

/-! Updates. -/

/-- Nothing changes for an update of the zone that does not carry a TSIG that verifies
under the key. -/
def GuardsUpdates (reader : SettingsReader) (settings : AuthoritativeSettings) (qname : Text) (key : TsigKey) : Prop :=
  ∀ (codec : MessageCodec) (hickory : Hickory) (faults : Faults) (store : ZoneStore) (request : UpdateRequest)
    (query : ZoneQuery) (now : Time) (seconds : UInt64), request.zone = some query → lowerName query.name = qname →
      ¬ VerifiesUnder codec key request.raw seconds →
        (handleUpdateRequest reader codec settings hickory faults store request now seconds).2 = store

/-- Nobody may update zones at all. -/
def UpdatesClosed (reader : SettingsReader) (settings : AuthoritativeSettings) : Prop :=
  settings.allowDynamicUpdates = true → ∀ client, updateClientAllowed (updateServer reader settings) client = false

/-- What the gates ask of an update for the zone. -/
def Admits (server : UpdateServer) (msg : UpdateMessage) (zoneName : Text) : Prop :=
  server.allowDynamicUpdates = true ∧ updateClientAllowed server msg.client = true ∧
    match server.tsigUpdateKey zoneName with
    | none => server.updateNetworks ≠ []
    | some required => ∃ keyName, msg.outcome = .valid keyName ∧ keyName = required

theorem admits_of_requestedZone {server : UpdateServer} {msg : UpdateMessage} {zoneName : Text}
    (h : requestedZone server msg = .ok zoneName) : Admits server msg zoneName := by
  have hname := requestedZone_eq_ok h
  unfold requestedZone at h
  cases hzone : msg.zone with
  | none =>
    rw [hzone] at h
    exact absurd h error_ne_ok
  | some query =>
    rw [hzone] at h hname
    rw [Option.map_some, Option.some.injEq] at hname
    simp only [throw_eq, pure_eq, error_bind, guard_eq_ok, hname] at h
    obtain ⟨_, _, hpolicy, hgate⟩ := h
    rw [Bool.or_eq_true, Bool.not_eq_true', Bool.not_eq_true', not_or, Bool.not_eq_false, Bool.not_eq_false] at hpolicy
    refine ⟨hpolicy.1, hpolicy.2, ?_⟩
    cases hkey : server.tsigUpdateKey zoneName with
    | none =>
      rw [hkey] at hgate
      simpa using (guard_eq_ok.mp hgate).1
    | some required =>
      rw [hkey] at hgate
      dsimp only at hgate ⊢
      cases houtcome : msg.outcome with
      | valid keyName =>
        rw [houtcome] at hgate
        dsimp only at hgate
        split at hgate
        next hsame => exact ⟨keyName, rfl, hsame⟩
        next => cases hgate
      | invalid =>
        rw [houtcome] at hgate
        cases hgate
      | unsigned =>
        rw [houtcome] at hgate
        cases hgate

theorem requestedZone_of_admits {server : UpdateServer} {msg : UpdateMessage} (query : ZoneQuery)
    (hzone : msg.zone = some query) (htype : query.queryType = .soa) (hclass : query.queryClass = .IN)
    (h : Admits server msg (lowerName query.name)) : requestedZone server msg = .ok (lowerName query.name) := by
  obtain ⟨hallow, hclient, hgate⟩ := h
  cases hkey : server.tsigUpdateKey (lowerName query.name) with
  | none =>
    rw [hkey] at hgate
    simp [requestedZone, hzone, htype, hclass, hallow, hclient, hkey, List.isEmpty_eq_false_iff.mpr hgate]
  | some required =>
    rw [hkey] at hgate
    obtain ⟨keyName, houtcome, hsame⟩ := hgate
    simp [requestedZone, hzone, htype, hclass, hallow, hclient, hkey, houtcome, hsame]

theorem handleUpdate_refused {hickory : Hickory} {server : UpdateServer} {faults : Faults} {store : ZoneStore}
    {msg : UpdateMessage} {now : Time} (h : ∀ zoneName, requestedZone server msg ≠ .ok zoneName) :
    (handleUpdate hickory server faults store msg now).2 = store := by
  unfold handleUpdate admitUpdate
  cases hrequested : requestedZone server msg with
  | error code => rfl
  | ok zoneName => exact absurd hrequested (h zoneName)

/-- A store with one zone and nothing in it. -/
def zoneAlone (name : Text) : ZoneStore :=
  { ZoneStore.empty with
    zones := Table.empty.insert (fun id => { Zone.exampleCom with id := id, name := name }) (fun _ => rfl) }

/-- Everything at the name is to go. -/
def deleteAll (name : Text) : UpdateRecord := ⟨name, .ANY, .other .any [], 0⟩

theorem lowerName_normalizeFqdn (name : Text) : lowerName (normalizeFqdn name) = normalizeFqdn name := by
  unfold lowerName
  rw [trimEndMatches_of_last (getLast?_normalizeFqdn name)]
  exact toAsciiLowercase_idem _

/-- An admitted update takes effect. -/
theorem handleUpdate_zoneAlone {hickory : Hickory} {server : UpdateServer} {msg : UpdateMessage} {zoneName : Text}
    (h : requestedZone server msg = .ok zoneName) (hprerequisites : msg.prerequisites = [])
    (hupdates : msg.updates = [deleteAll (normalizeFqdn zoneName)]) (now : Time) :
    (handleUpdate hickory server (fun _ => none) (zoneAlone (normalizeFqdn zoneName)) msg now).2 ≠
      zoneAlone (normalizeFqdn zoneName) := by
  intro hsame
  have hserial := congrArg (fun store : ZoneStore => store.zones.rows.map Zone.serial) hsame
  simp [handleUpdate, admitUpdate, h, primaryZone, Faults.call, zoneAlone, Table.insert, Table.empty,
    ZoneStore.findZoneByName, Except.mapError, Zone.exampleCom, ZoneStore.empty, ZoneStore.listRecords,
    checkPrerequisites, hprerequisites, hupdates, buildPlan, planRecord, deleteAll, lowerName_normalizeFqdn,
    nameInZone, require, buildUpdate, RData.recordType, wouldRemoveLastApexNs, DynamicUpdate.isEmpty,
    applyDynamicUpdates, requireZone, ZoneStore.getZone, Table.find?, applyDynamicUpdatesTx, insertRecords,
    ZoneStore.updateZone, deleteMatching, nextSerial] at hserial
  exact absurd hserial (by decide)

theorem guardsUpdates_of_closed {settings : AuthoritativeSettings} {qname : Text} {key : TsigKey}
    (h : UpdatesClosed reader settings) : GuardsUpdates reader settings qname key := by
  intro codec hickory faults store request query now seconds _ _ _
  apply handleUpdate_refused
  intro zoneName hrequested
  obtain ⟨hallow, hclient, _⟩ := admits_of_requestedZone hrequested
  rw [h hallow request.client] at hclient
  cases hclient

section Updates

variable {settings : AuthoritativeSettings} {ring : List TsigKey} {qname text : Text} {key : TsigKey}
  (hring : TsigKeyRing.fromConfigs reader settings.tsigKeys = .ok ring)
  (hbound : boundKeyName reader settings.tsigUpdateZones qname = some text)

include hring hbound

theorem updateServer_tsigUpdateKey :
    (updateServer reader settings).tsigUpdateKey qname =
      (TsigKeyRing.getByConfigName reader ring text).map TsigKey.name := by
  unfold updateServer
  dsimp only
  rw [tsigUpdateKey, hbound, Option.bind_some, keyRing_eq hring]

theorem guardsUpdates_of_namesKey (h : NamesKey reader settings text key) :
    GuardsUpdates reader settings qname key := by
  intro codec hickory faults store request query now seconds hzone hname hunverified
  apply handleUpdate_refused
  intro zoneName hrequested
  have hzoneName := requestedZone_eq_ok hrequested
  dsimp only at hzoneName
  rw [hzone, Option.map_some, Option.some.injEq, hname] at hzoneName
  rw [← hzoneName] at hrequested
  obtain ⟨_, _, hgate⟩ := admits_of_requestedZone hrequested
  rw [updateServer_tsigUpdateKey hring hbound, (getByConfigName_eq_some hring).mpr h] at hgate
  obtain ⟨keyName, houtcome, hsame⟩ := hgate
  dsimp only at houtcome
  rw [keyRing_eq hring] at houtcome
  cases hverified : verifyRequest codec ring request.raw request.id seconds with
  | valid other context =>
    rw [hverified] at houtcome
    cases houtcome
    obtain ⟨hverifies, hother⟩ := verifyRequest_valid hverified
    rw [hsame, find?_fromConfigs hring, h.2, Option.some_or] at hother
    cases hother
    exact hunverified hverifies
  | invalid failure =>
    rw [hverified] at houtcome
    cases houtcome
  | unsigned =>
    rw [hverified] at houtcome
    cases houtcome

theorem guardsUpdates_of_namesNone (hnetworks : settings.updateNetworks = []) (h : NamesNone reader settings text) :
    GuardsUpdates reader settings qname key := by
  intro codec hickory faults store request query now seconds hzone hname hunverified
  apply handleUpdate_refused
  intro zoneName hrequested
  have hzoneName := requestedZone_eq_ok hrequested
  dsimp only at hzoneName
  rw [hzone, Option.map_some, Option.some.injEq, hname] at hzoneName
  rw [← hzoneName] at hrequested
  obtain ⟨_, _, hgate⟩ := admits_of_requestedZone hrequested
  rw [updateServer_tsigUpdateKey hring hbound, (getByConfigName_eq_none hring).mpr h] at hgate
  exact hgate hnetworks

end Updates

/-- An update that clears the zone, in the spelling given. -/
def clearRequest (client : List UInt8) (name : Text) (raw : Bytes) : UpdateRequest :=
  ⟨client, some ⟨name, .soa, .IN⟩, raw, 0, [], [deleteAll (normalizeFqdn (lowerName name))]⟩

theorem not_guardsUpdates {settings : AuthoritativeSettings} {name : Text} {key : TsigKey} {client : List UInt8}
    {codec : MessageCodec} {raw : Bytes} (hunverified : ¬ VerifiesUnder codec key raw 0)
    (hadmits : Admits (updateServer reader settings)
      ⟨client, some ⟨name, .soa, .IN⟩, (verifyRequest codec (keyRing reader settings) raw 0 0).outcome, [],
        [deleteAll (normalizeFqdn (lowerName name))]⟩ (lowerName name)) :
    ¬ GuardsUpdates reader settings (lowerName name) key := by
  intro h
  have hsame := h codec .acceptAll (fun _ => none) (zoneAlone (normalizeFqdn (lowerName name)))
    (clearRequest client name raw) ⟨name, .soa, .IN⟩ 0 0 rfl rfl hunverified
  have hrequested := requestedZone_of_admits ⟨name, .soa, .IN⟩ rfl rfl rfl hadmits
  unfold handleUpdateRequest clearRequest at hsame
  exact handleUpdate_zoneAlone hrequested rfl rfl 0 hsame

theorem namesKey_of_guardsUpdates {settings : AuthoritativeSettings} {ring : List TsigKey} {name text : Text}
    {key : TsigKey} (hring : TsigKeyRing.fromConfigs reader settings.tsigKeys = .ok ring)
    (hbound : boundKeyName reader settings.tsigUpdateZones (lowerName name) = some text)
    (hopen : ¬ UpdatesClosed reader settings) (h : GuardsUpdates reader settings (lowerName name) key) :
    NamesKey reader settings text key ∨ (settings.updateNetworks = [] ∧ NamesNone reader settings text) := by
  unfold UpdatesClosed at hopen
  push Not at hopen
  obtain ⟨hallow, client, hclient⟩ := hopen
  rw [ne_eq, Bool.not_eq_false] at hclient
  have hkey := updateServer_tsigUpdateKey hring hbound
  cases hget : TsigKeyRing.getByConfigName reader ring text with
  | none =>
    have hnone := (getByConfigName_eq_none hring).mp hget
    by_cases hnetworks : settings.updateNetworks = []
    · exact .inr ⟨hnetworks, hnone⟩
    · rw [hget, Option.map_none] at hkey
      have hunverified : ¬ VerifiesUnder (.ofTable [] []) key [] 0 := not_verifiesUnder_ofTable key [] 0
      refine absurd h (not_guardsUpdates hunverified ⟨hallow, hclient, ?_⟩)
      rw [hkey]
      exact hnetworks
  | some other =>
    by_cases hsame : key = other
    · rw [hsame]
      exact .inl ((getByConfigName_eq_some hring).mp hget)
    · rw [hget, Option.map_some] at hkey
      have hnames := (getByConfigName_eq_some hring).mp hget
      have hfound : ring.find? (fun candidate => candidate.name == other.name) = some other := by
        rw [find?_fromConfigs hring, hnames.2, Option.some_or]
      obtain ⟨context, hvalid⟩ := verifyRequest_oneKey hfound (normalizeKeyName_lower hnames.1) 0 0
      have hunverified := not_verifiesUnder_oneKey hsame signedHeader 0
      refine absurd h (not_guardsUpdates hunverified ⟨hallow, hclient, ?_⟩)
      rw [hkey, keyRing_eq hring, hvalid]
      exact ⟨other.name, rfl, rfl⟩

theorem sameZone_boundKeyName {a b : Text} (h : sameZone reader a b = true) (bindings : List Text) :
    boundKeyName reader bindings a = boundKeyName reader bindings b := by
  unfold boundKeyName
  apply congrArg (fun found => bindings.findSome? found)
  funext binding
  cases splitOnce ['='] binding with
  | none => rfl
  | some parts =>
    have hsame : sameZone reader parts.1 a = sameZone reader parts.1 b := by
      rw [sameZone, beq_iff_eq.mp h]
      rfl
    dsimp only
    rw [hsame]

/-- A server whose keys load holds back a zone bound to a key exactly where the text of
the binding reads as the name of that key, and no later key has that name. -/
theorem binding_holds_back {settings : AuthoritativeSettings} {ring : List TsigKey} (zone text : Text) (key : TsigKey)
    (hring : TsigKeyRing.fromConfigs reader settings.tsigKeys = .ok ring) :
    (boundKeyName reader settings.tsigTransferZones zone = some text →
      ∀ qname, sameZone reader qname zone = true →
        (GuardsTransfers reader settings ring qname key ↔
          TransfersClosed reader settings ∨ NamesKey reader settings text key)) ∧
      (boundKeyName reader settings.tsigUpdateZones zone = some text →
        ∀ name, sameZone reader (lowerName name) zone = true →
          (GuardsUpdates reader settings (lowerName name) key ↔
            UpdatesClosed reader settings ∨ NamesKey reader settings text key ∨
              (settings.updateNetworks = [] ∧ NamesNone reader settings text))) := by
  constructor
  · intro hbound qname hspelling
    rw [← sameZone_boundKeyName hspelling] at hbound
    constructor
    · intro hguards
      by_cases hclosed : TransfersClosed reader settings
      · exact .inl hclosed
      · exact .inr (namesKey_of_guardsTransfers hring hbound hclosed hguards)
    · intro h
      cases h with
      | inl hclosed => exact guardsTransfers_of_closed hclosed
      | inr hnames => exact guardsTransfers_of_namesKey hring hbound hnames
  · intro hbound name hspelling
    rw [← sameZone_boundKeyName hspelling] at hbound
    constructor
    · intro hguards
      by_cases hclosed : UpdatesClosed reader settings
      · exact .inl hclosed
      · exact .inr (namesKey_of_guardsUpdates hring hbound hclosed hguards)
    · intro h
      rcases h with hclosed | hnames | ⟨hnetworks, hnone⟩
      · exact guardsUpdates_of_closed hclosed
      · exact guardsUpdates_of_namesKey hring hbound hnames
      · exact guardsUpdates_of_namesNone hring hbound hnetworks hnone

/-! One key, and zones bound to it. -/

/-- A reader that knows one secret and one network; a name may not have empty labels. -/
def SettingsReader.example : SettingsReader where
  fromAscii := fun text => if contains "..".toList text then .error "empty label".toList else .ok text
  asciiForm := fun _ => none
  toLowercase := toAsciiLowercase
  decodeBase64 := fun text =>
    if text = "c2VjcmV0".toList then .ok [115, 101, 99, 114, 101, 116] else .error "invalid base64".toList
  parseNetwork := fun text => if text = "0.0.0.0/0".toList then some fun client => client.length == 4 else none

def TsigKeyConfig.foo : TsigKeyConfig := ⟨"foo".toList, "hmac-sha256".toList, "c2VjcmV0".toList⟩

def TsigKey.foo : TsigKey := ⟨"foo.".toList, .hmacSha256, [115, 101, 99, 114, 101, 116], 300, rfl⟩

/-- Transfers and updates are open to everyone, but for the zone that is bound. -/
def AuthoritativeSettings.bindingExampleCom (keyName : Text) : AuthoritativeSettings where
  axfrEnabled := true
  axfrNetworks := []
  allowDynamicUpdates := true
  updateNetworks := ["0.0.0.0/0".toList]
  tsigKeys := [.foo]
  tsigTransferZones := ["example.com=".toList ++ keyName]
  tsigUpdateZones := ["example.com=".toList ++ keyName]

theorem fromConfigs_foo : TsigKeyRing.fromConfigs .example [.foo] = .ok [.foo] := by
  decide

/-- The zone is held back where its binding says `foo`, in any spelling of its name. -/
theorem binding_holds_back_foo :
    GuardsTransfers .example (.bindingExampleCom "foo".toList) [.foo] "EXAMPLE.com.".toList .foo ∧
      GuardsUpdates .example (.bindingExampleCom "foo".toList) (lowerName "Example.COM.".toList) .foo := by
  have hnames : NamesKey .example (.bindingExampleCom "foo".toList) "foo".toList .foo := by
    constructor <;> decide
  have hring : TsigKeyRing.fromConfigs .example
      (AuthoritativeSettings.bindingExampleCom "foo".toList).tsigKeys = .ok [.foo] := fromConfigs_foo
  have hguards := binding_holds_back "example.com".toList "foo".toList .foo hring
  exact ⟨(hguards.1 (by decide) _ (by decide)).mpr (.inr hnames),
    (hguards.2 (by decide) _ (by decide)).mpr (.inr (.inl hnames))⟩

/-- The check of the configuration trims every dot after a name, where the ring reads an
empty label; the binding then asks for no key, and an unsigned request gets the zone. -/
theorem trailing_dots_bind_nothing :
    validateTsig .example (.bindingExampleCom "foo..".toList) = .ok () ∧
      boundKeyName .example [("example.com=foo..".toList)] "example.com".toList = some "foo..".toList ∧
      checkedName "foo..".toList = checkedName "foo".toList ∧
      ¬ VerifiesUnder (.ofTable [] []) .foo (requestFrom [192, 0, 2, 7] []).raw 0 ∧
      ∃ server, TransferServer.start (.ofTable [] []) .example (.bindingExampleCom "foo..".toList) bareZoneRecords
          (fun _ => 0) = .ok server ∧
        (handleTransfer server (requestFrom [192, 0, 2, 7] []) "example.com".toList).flatMap Message.answers ≠ [] := by
  refine ⟨by decide, by decide, by decide, not_verifiesUnder_ofTable _ _ _, ?_⟩
  refine ⟨⟨.ofTable [] [], .example, .bindingExampleCom "foo..".toList, [.foo], bareZoneRecords, fun _ => 0⟩, ?_, ?_⟩
  · unfold TransferServer.start
    rw [show (AuthoritativeSettings.bindingExampleCom "foo..".toList).tsigKeys = [.foo] from rfl, fromConfigs_foo]
    rfl
  · rw [handleTransfer_unbound _ _ rfl (by decide) (by decide)]
    simp [sendZone, bareZoneRecords, transferChunks, chunksFrom,
      recordLength, MessageCodec.ofTable, transferBudget, sendChunks, transferMessage]

end DaygleDns.Authoritative
