import DaygleDns.Authoritative.CatalogZone
import DaygleDns.Authoritative.SecondaryRetry
import DaygleDns.Authoritative.TransferFacts

/-! Which transfers replace or remove zone data. -/
namespace DaygleDns.Authoritative

open Text Fallible Persist Framing

/-- The messages are what a master sends in answer to a request for the zone, up
to where the client stops, and the records are theirs. -/
structure ReadFrom (client : XfrClient) (master : Master) (zone : Text) (messages : List Message)
    (records : List MessageRecord) : Prop where
  replies : ∃ query wire verifier stream rest,
    (query = buildQuery zone "AXFR" ∨ ∃ serial, query = ixfrQuery zone serial) ∧
      encodeRequest client query = .ok (wire, verifier) ∧
      master.answer (frame wire) = .ok stream ∧ Frames client.codec stream messages rest
  records : records = messages.flatMap Message.answers

theorem request_complete_iff {client : XfrClient} {master : Master} {zone : Text} {query : Message}
    {limit : Nat} {loneSoaEnds : Bool} {records : List MessageRecord}
    (hquery : query = buildQuery zone "AXFR" ∨ ∃ serial, query = ixfrQuery zone serial)
    (h : request client master query limit loneSoaEnds = .ok records) :
    ∃ messages, ReadFrom client master zone messages records ∧
      (Complete records ↔ OpensAndCloses messages) := by
  unfold request at h
  cases hexchange : exchangeOf client master query limit loneSoaEnds with
  | error e =>
    rw [hexchange] at h
    cases h
  | ok exchange =>
    rw [hexchange] at h
    have hrecords : exchange.allAnswers = records := Except.ok.inj h
    rcases exchangeOf_eq_ok hexchange with
      ⟨wire, verifier, stream, messages, hencode, hstream, hframes, hanswers, hstops⟩
    rw [hrecords] at hanswers
    refine ⟨messages, ⟨⟨query, wire, verifier, stream, _, hquery, hencode, hstream, hframes⟩,
      hanswers⟩, ?_⟩
    rw [hanswers]
    exact complete_iff hstops

theorem axfrSigned_complete_iff {client : XfrClient} {master : Master} {zone : Text}
    {records : List MessageRecord} (h : axfrSigned client master zone = .ok records) :
    ∃ messages, ReadFrom client master zone messages records ∧
      (Complete records ↔ OpensAndCloses messages) :=
  request_complete_iff (.inl rfl) h

theorem ixfrOrAxfr_complete_iff {client : XfrClient} {master : Master} {zone : Text}
    {currentSerial : UInt32} {records : List MessageRecord}
    (h : ixfrOrAxfr client master zone currentSerial = .ok (some records)) :
    ∃ messages, ReadFrom client master zone messages records ∧
      (Complete records ↔ OpensAndCloses messages) := by
  have haxfr : (axfrSigned client master zone).map some = .ok (some records) →
      ∃ messages, ReadFrom client master zone messages records ∧
        (Complete records ↔ OpensAndCloses messages) := by
    intro hmap
    cases hanswer : axfrSigned client master zone with
    | error e =>
      rw [hanswer] at hmap
      cases hmap
    | ok other =>
      rw [hanswer] at hmap
      cases hmap
      exact axfrSigned_complete_iff hanswer
  unfold ixfrOrAxfr at h
  rcases bind_eq_ok.mp h with ⟨answers, hanswers, h⟩
  split at h
  · split at h
    · exact haxfr h
    · cases h
  · cases h
    exact request_complete_iff (.inr ⟨currentSerial, rfl⟩) hanswers
  · exact haxfr h

theorem receiveTransfer_complete_iff {client : XfrClient} {master : Master} {zone : Text}
    {currentSerial : Option UInt32} {received : ReceivedTransfer}
    (h : receiveTransfer client master zone currentSerial = .ok (some received)) :
    ∃ messages, ReadFrom client master zone messages received.records ∧
      (Complete received.records ↔ OpensAndCloses messages) := by
  unfold receiveTransfer at h
  rcases bind_eq_ok.mp h with ⟨outcome, hfetch, h⟩
  cases outcome with
  | none => cases h
  | some records =>
    simp only [throw_eq, pure_eq, error_bind, guard_eq_ok] at h
    rcases bind_eq_ok.mp h.2 with ⟨wire, _, hreceived⟩
    cases hreceived
    cases currentSerial with
    | some serial => exact ixfrOrAxfr_complete_iff hfetch
    | none =>
      cases hanswer : axfrSigned client master zone with
      | error e =>
        dsimp only at hfetch
        rw [hanswer] at hfetch
        cases hfetch
      | ok other =>
        dsimp only at hfetch
        rw [hanswer] at hfetch
        cases hfetch
        exact axfrSigned_complete_iff hanswer

/-! What a catalog removes. -/

def HasZone (zoneId : Uuid) (state : CatalogState) : Prop :=
  ∃ zone ∈ state.store.zones.rows, zone.id = zoneId

theorem markSecondary_keeps (refresher : Refresher) (consumer : CatalogConsumerConfig)
    (marked zoneId : Uuid) :
    Leads (HasZone zoneId) (HasZone zoneId) (markSecondary refresher consumer marked) := by
  refine leads_transact (fun _ h => h) ?_
  intro state after h hmarked
  cases hmarked
  unfold HasZone setSecondary
  dsimp only
  split <;> exact h

/-- What the creation of a zone keeps, with its mark and its owner, the creation of a member keeps. -/
theorem leads_createMember {inv : CatalogState → Prop} {refresher : Refresher} {consumer : CatalogConsumerConfig}
    {member : Text}
    (h : ∀ state zone store, inv state →
      createZone refresher.hickory state.store { name := member } refresher.now = .ok (zone, store) →
        inv { state with store } ∧ Leads inv inv (markSecondary refresher consumer zone.id) ∧
          ∀ middle, inv middle → inv { middle with
            owners := (zone.id, normalizeFqdn consumer.name) :: middle.owners.filter fun row => row.1 != zone.id })
    (hset : ∀ state, inv state → inv (setZone (memberConfig consumer member) state)) :
    Leads inv inv (createMember refresher consumer member) := by
  intro state hstate
  unfold createMember
  rw [exec_guarded_bind]
  split
  · exact hstate
  · rw [exec_read_bind, exec_result_bind]
    split
    next created hcreated =>
      obtain ⟨hgrown, hmark, howner⟩ := h state created.1 created.2 hstate hcreated
      have hrest : Leads inv inv (do
          markSecondary refresher consumer created.1.id
          transact (refresher.faults .addCatalogMember) fun state => .ok { state with
            owners := (created.1.id, normalizeFqdn consumer.name) ::
              state.owners.filter fun row => row.1 != created.1.id }
          write (setZone (memberConfig consumer member))) := by
        refine Leads.bind hmark fun _ => Leads.bind (leads_transact (fun _ h => h) ?_) fun _ => leads_write hset
        intro before after hbefore hadded
        cases hadded
        exact howner before hbefore
      exact hrest _ hgrown
    next => exact hstate

theorem createMember_keeps (refresher : Refresher) (consumer : CatalogConsumerConfig)
    (member : Text) (zoneId : Uuid) :
    Leads (HasZone zoneId) (HasZone zoneId) (createMember refresher consumer member) := by
  refine leads_createMember (fun state created store h hcreated => ?_) fun _ h => h
  rcases h with ⟨zone, hzone, hid⟩
  exact ⟨⟨zone, createZone_keeps hcreated hzone, hid⟩, markSecondary_keeps refresher consumer _ zoneId, fun _ h => h⟩

theorem serveMember_keeps (refresher : Refresher) (consumer : CatalogConsumerConfig)
    (owners : List (Uuid × Text)) (zones : List Zone) (changed : Bool) (member : Text)
    (zoneId : Uuid) : Leads (HasZone zoneId) (HasZone zoneId)
      (serveMember refresher consumer owners zones changed member) := by
  unfold serveMember
  split
  · split
    · refine Leads.bind (keeps_read _) fun known => ?_
      split
      · refine Leads.bind (markSecondary_keeps refresher consumer _ zoneId) fun _ => ?_
        exact Leads.bind (leads_write fun _ h => h) fun _ => keeps_pure _
      · exact keeps_pure _
    · exact keeps_pure _
  · exact Leads.bind (createMember_keeps refresher consumer member zoneId) fun _ => keeps_pure _

theorem dropMember_keeps (refresher : Refresher) (wanted : List Text) (changed : Bool)
    {owned : Text × Uuid} {zoneId : Uuid} (h : owned.2 = zoneId → owned.1 ∈ wanted) :
    Leads (HasZone zoneId) (HasZone zoneId) (dropMember refresher wanted changed owned) := by
  unfold dropMember
  split
  next => exact keeps_pure _
  next hdropped =>
    refine Leads.bind ?_ fun _ => keeps_pure _
    refine Leads.bind (leads_transact (fun _ h => h) ?_) fun _ => leads_write fun _ h => h
    intro before after hbefore hdeleted
    cases hdeleted
    rcases hbefore with ⟨zone, hzone, hid⟩
    refine ⟨zone, List.mem_filter.mpr ⟨hzone, ?_⟩, hid⟩
    have hne : zone.id ≠ owned.2 := fun hsame => hdropped (h (hsame.symm.trans hid))
    simp [hne]

/-- A zone that is there before is there after, unless the members leave it out. -/
theorem reconcile_keeps (refresher : Refresher) (consumer : CatalogConsumerConfig)
    {members : Option (List Text)} {start : CatalogState} {zone : Zone}
    (hzone : zone ∈ start.store.zones.rows)
    (hlisted : ∀ listed, members = some listed → toAsciiLowercase zone.name ∈ listed) :
    HasZone zone.id (exec (reconcile refresher consumer members) start).2 := by
  have hstart : HasZone zone.id start := ⟨zone, hzone, rfl⟩
  unfold reconcile
  rw [exec_guarded_bind]
  split
  · exact hstart
  · rw [exec_read_bind, exec_guarded_bind]
    split
    · exact hstart
    · rw [exec_read_bind]
      refine Leads.bind (keeps_foldlM _ ?_ _) (fun changed => ?_) start hstart
      · exact fun changed member _ => serveMember_keeps refresher consumer _ _ changed member zone.id
      refine Leads.bind (keeps_foldlM _ ?_ _) fun changed => ?_
      · intro changed owned howned
        apply dropMember_keeps
        intro hid
        cases hmembers : members with
        | none =>
          rw [hmembers] at howned
          simp at howned
        | some listed =>
          rw [hmembers] at howned
          rcases List.mem_map.mp howned with ⟨other, hother, rfl⟩
          have hsame : other = zone :=
            start.store.zones.eq_of_key_eq (List.mem_of_mem_filter hother) hzone hid
          rw [hsame]
          exact hlisted listed hmembers
      · split
        · exact Leads.bind (keeps_guarded _) fun _ => keeps_pure _
        · exact keeps_pure _

/-- What a refresh of a catalog did is what the members do that one of the
masters sent. -/
structure Applies (refresher : Refresher) (consumer : CatalogConsumerConfig) (masters : List Text)
    (start : CatalogState) (outcome : Except DaygleError Bool × CatalogState) (apex : Text)
    (master : Master) (records : List MessageRecord) (members : List Text) : Prop where
  reached : ∃ address ∈ masters, refresher.masters address = .ok master
  sent : axfrSigned { refresher.client with tsig := none } master apex = .ok records
  listed : catalogMembers apex records = .ok members
  applied : ∃ serial, outcome = exec (reconcileAt refresher consumer (some members) serial) start

theorem Applies.later {refresher : Refresher} {consumer : CatalogConsumerConfig}
    {masters : List Text} {start : CatalogState} {outcome : Except DaygleError Bool × CatalogState}
    {apex : Text} {master : Master} {records : List MessageRecord} {members : List Text}
    (h : Applies refresher consumer masters start outcome apex master records members)
    (address : Text) :
    Applies refresher consumer (address :: masters) start outcome apex master records members := by
  rcases h.reached with ⟨other, hother, hmaster⟩
  exact ⟨⟨other, List.mem_cons_of_mem _ hother, hmaster⟩, h.sent, h.listed, h.applied⟩

theorem reconcileAt_keeps (refresher : Refresher) (consumer : CatalogConsumerConfig)
    {members : Option (List Text)} (serial : UInt32) {start : CatalogState} {zone : Zone}
    (hzone : zone ∈ start.store.zones.rows)
    (hlisted : ∀ listed, members = some listed → toAsciiLowercase zone.name ∈ listed) :
    HasZone zone.id (exec (reconcileAt refresher consumer members serial) start).2 := by
  have hkept := reconcile_keeps refresher consumer hzone hlisted
  unfold reconcileAt
  rw [exec_bind]
  rcases hexec : exec (reconcile refresher consumer members) start with ⟨_ | changed, middle⟩
  · rw [hexec] at hkept
    exact hkept
  · rw [hexec] at hkept
    have hrest : Leads (HasZone zone.id) (HasZone zone.id) (do
        write (recordSerial (normalizeFqdn consumer.name) serial)
        pure changed : Follow Bool) := Leads.bind (leads_write fun _ h => h) fun _ => keeps_pure _
    exact hrest middle hkept

theorem followFrom_removes {refresher : Refresher} {consumer : CatalogConsumerConfig} {apex : Text}
    {last : Option UInt32} {masters : List Text} {lastError : Option DaygleError}
    {start : CatalogState} {zone : Zone} (hzone : zone ∈ start.store.zones.rows)
    (hremoved : ¬ HasZone zone.id
      (exec (followFrom refresher consumer apex last lastError masters) start).2) :
    ∃ master records members, Applies refresher consumer masters start
      (exec (followFrom refresher consumer apex last lastError masters) start) apex master records
      members ∧ toAsciiLowercase zone.name ∉ members := by
  have hstart : HasZone zone.id start := ⟨zone, hzone, rfl⟩
  induction masters generalizing lastError with
  | nil => exact absurd hstart hremoved
  | cons address masters ih =>
    have hnext : ∀ lastError, ¬ HasZone zone.id
        (exec (followFrom refresher consumer apex last lastError masters) start).2 →
        ∃ master records members, Applies refresher consumer (address :: masters) start
          (exec (followFrom refresher consumer apex last lastError masters) start) apex master
          records members ∧ toAsciiLowercase zone.name ∉ members := by
      intro lastError hlater
      rcases ih hlater with ⟨master, records, members, happlies, hleft⟩
      exact ⟨master, records, members, happlies.later address, hleft⟩
    unfold followFrom at hremoved ⊢
    rw [exec_result_bind] at hremoved ⊢
    cases hmaster : refresher.masters address with
    | error e =>
      rw [hmaster] at hremoved
      exact absurd hstart hremoved
    | ok master =>
      rw [hmaster] at hremoved
      dsimp only [Except.mapError] at hremoved ⊢
      cases hsoa : querySoa refresher.client master apex with
      | error e =>
        rw [hsoa] at hremoved
        exact hnext _ hremoved
      | ok found =>
        rw [hsoa] at hremoved
        cases found with
        | none => exact hnext _ hremoved
        | some soa =>
          dsimp only at hremoved ⊢
          cases hserial : soa.soaSerial with
          | none =>
            rw [hserial] at hremoved
            exact hnext _ hremoved
          | some serial =>
            rw [hserial] at hremoved
            dsimp only at hremoved ⊢
            split at hremoved
            · apply absurd _ hremoved
              exact reconcileAt_keeps refresher consumer serial hzone fun _ h => nomatch h
            next hnewer =>
              rw [if_neg hnewer]
              cases hrecords : axfrSigned { refresher.client with tsig := none } master apex with
              | error e =>
                rw [hrecords] at hremoved
                exact hnext _ hremoved
              | ok records =>
                rw [hrecords] at hremoved
                dsimp only at hremoved ⊢
                rw [exec_result_bind] at hremoved ⊢
                cases hmembers : catalogMembers apex records with
                | error e =>
                  rw [hmembers] at hremoved
                  exact absurd hstart hremoved
                | ok members =>
                  rw [hmembers] at hremoved
                  refine ⟨master, records, members, ⟨⟨address, List.mem_cons_self, hmaster⟩,
                    hrecords, hmembers, serial, rfl⟩, ?_⟩
                  intro hlisted
                  apply hremoved
                  apply reconcileAt_keeps refresher consumer serial hzone
                  intro listed h
                  rw [← Option.some.inj h]
                  exact hlisted

/-- The name a catalog is asked for by. -/
def catalogApex (consumer : CatalogConsumerConfig) : Text := normalizeFqdn consumer.name ++ ['.']

/-- A zone that a refresh of a catalog removes is left out of a transfer of it. -/
theorem refreshCatalog_removes {refresher : Refresher} {consumer : CatalogConsumerConfig}
    {start : CatalogState} {zone : Zone} (hzone : zone ∈ start.store.zones.rows)
    (hremoved : ¬ HasZone zone.id (exec (refreshCatalog refresher consumer) start).2) :
    ∃ master records members, Applies refresher consumer consumer.masters start
      (exec (refreshCatalog refresher consumer) start) (catalogApex consumer) master records
      members ∧ toAsciiLowercase zone.name ∉ members := by
  unfold refreshCatalog at hremoved ⊢
  rw [exec_read_bind] at hremoved ⊢
  exact followFrom_removes hzone hremoved

/-- The transfer ends well, or has written to the store. -/
def Stores (outcome : Except DaygleError Bool × ZoneStore) (start : ZoneStore) : Prop :=
  outcome.1 = .ok true ∨ outcome.2 ≠ start

/-- What is stored is what was received. -/
theorem transferFrom_stores {refresher : Refresher} {client : XfrClient} {master : Master}
    {zoneName : Text} {masterSerial : UInt32} {currentSerial : Option UInt32} {zoneId : Uuid}
    {start : ZoneStore}
    (h : Stores (exec (transferFrom refresher client master zoneName masterSerial currentSerial
      zoneId) start) start) :
    ∃ received, receiveTransfer client master zoneName currentSerial = .ok (some received) := by
  rw [exec_transferFrom] at h
  split at h
  · rcases h with h | h
    · cases h
    · exact absurd rfl h
  · rcases h with h | h
    · cases h
    · exact absurd rfl h
  next received hreceived => exact ⟨received, hreceived⟩

/-- A transfer that replaces or removes zone data is complete exactly when the
master opens it with SOA data, sends one more SOA and no empty message last. -/
theorem usedTransfers_complete_iff (refresher : Refresher) :
    (∀ client master zoneName masterSerial currentSerial zoneId start,
      Stores (exec (transferFrom refresher client master zoneName masterSerial currentSerial zoneId)
        start) start → ∃ received messages,
        receiveTransfer client master zoneName currentSerial = .ok (some received) ∧
          ReadFrom client master zoneName messages received.records ∧
          (Complete received.records ↔ OpensAndCloses messages)) ∧
    (∀ consumer start, ∀ zone ∈ start.store.zones.rows,
      ¬ HasZone zone.id (exec (refreshCatalog refresher consumer) start).2 →
        ∃ master records members messages, Applies refresher consumer consumer.masters start
          (exec (refreshCatalog refresher consumer) start) (catalogApex consumer) master records
          members ∧ toAsciiLowercase zone.name ∉ members ∧
          ReadFrom { refresher.client with tsig := none } master (catalogApex consumer) messages
            records ∧
          (Complete records ↔ OpensAndCloses messages)) := by
  constructor
  · intro client master zoneName masterSerial currentSerial zoneId start hstores
    rcases transferFrom_stores hstores with ⟨received, hreceived⟩
    rcases receiveTransfer_complete_iff hreceived with ⟨messages, hread, hcomplete⟩
    exact ⟨received, messages, hreceived, hread, hcomplete⟩
  · intro consumer start zone hzone hremoved
    rcases refreshCatalog_removes hzone hremoved with ⟨master, records, members, happlies, hleft⟩
    rcases axfrSigned_complete_iff happlies.sent with ⟨messages, hread, hcomplete⟩
    exact ⟨master, records, members, messages, happlies, hleft, hread, hcomplete⟩

/-- A complete transfer has the same serial at both ends. -/
theorem Complete.serials {records : List MessageRecord} (h : Complete records) :
    records.head?.bind MessageRecord.soaSerial = records.getLast?.bind MessageRecord.soaSerial := by
  rcases h with ⟨opening, middle, closing, serial, hrecords, hopening, hclosing, _⟩
  rw [hrecords, ← List.cons_append, List.getLast?_concat]
  exact hopening.trans hclosing.symm

/-- The zone changes while it is sent, and the master stops there. -/
def changedTransfer : List MessageRecord :=
  [exampleSoa 2, exampleAddress "www.example.com.", exampleSoa 3]

def changedReplyBytes : Bytes :=
  exampleHeader 0x8400 3 0 ++ exampleQuestion 252 ++ exampleSoaBytes 2 ++
    exampleAddressBytes (toBeBytes 6 0x03777777c00c) ++ exampleSoaBytes 3

def exampleVersion : MessageRecord where
  name := "version.example.com."
  data := .other .txt "2"
  ttl := 0

/-- A catalog cut off before its first member. -/
def cutOffCatalog : List MessageRecord := [exampleSoa 2, exampleVersion]

def cutOffReplyBytes : Bytes :=
  exampleHeader 0x8400 2 0 ++ exampleQuestion 252 ++ exampleSoaBytes 2 ++
    toBeBytes 10 0x0776657273696f6ec00c ++ toBeBytes 12 0x001000010000000000020132

def emptyReplyBytes : Bytes := exampleHeader 0x8400 0 0 ++ exampleQuestion 252

def cutOffCodec : MessageCodec := .ofTable
  [(exampleSoa 2, exampleSoaInFull 2),
    (exampleAddress "www.example.com.",
      exampleAddressBytes (toBeBytes 17 0x03777777076578616d706c6503636f6d00))]
  [(buildQuery "example.com." "SOA", soaQueryBytes),
    (replyTo (buildQuery "example.com." "SOA") [exampleSoa 2], soaReplyBytes 2),
    (buildQuery "example.com." "AXFR", axfrQueryBytes),
    (replyTo (buildQuery "example.com." "AXFR") changedTransfer, changedReplyBytes),
    (replyTo (buildQuery "example.com." "AXFR") cutOffCatalog, cutOffReplyBytes),
    (replyTo (buildQuery "example.com." "AXFR") [], emptyReplyBytes)]

/-- Each record behind its length, without the closing one. -/
def changedWire : List UInt8 :=
  toBeBytes 4 79 ++ exampleSoaInFull 2 ++ toBeBytes 4 31 ++
    exampleAddressBytes (toBeBytes 17 0x03777777076578616d706c6503636f6d00)

def changedMaster : Master := .ofTable "192.0.2.53:53"
  [(axfrQueryBytes, [changedReplyBytes, emptyReplyBytes])]

def cutOffMaster : Master := .ofTable "192.0.2.53:53"
  [(soaQueryBytes, [soaReplyBytes 2]), (axfrQueryBytes, [cutOffReplyBytes, emptyReplyBytes])]

def cutOffRefresher : Refresher where
  hickory := .acceptAll
  client := ⟨cutOffCodec, none, fun _ _ => 0⟩
  masters := fun _ => .ok cutOffMaster
  tsigKeys := fun _ => none
  faults := fun _ => none
  now := 1

def cutOffConsumer : CatalogConsumerConfig where
  name := "example.com"
  masters := ["192.0.2.53"]
  refreshSecs := 3600
  enabled := true

def Zone.memberTest : Zone :=
  { Zone.exampleCom with
    name := "member.test"
    primaryNs := "ns1.member.test."
    adminMailbox := "admin.member.test." }

/-- The one zone here came from the catalog. -/
def CatalogState.memberTest : CatalogState where
  store := match createZone .acceptAll .empty { name := "member.test" } 0 with
    | .ok (_, store) => store
    | .error _ => .empty
  owners := [(0, "example.com")]
  refreshed := []
  serials := []

/-- A zone takes over records of two versions, and a catalog cut off before its
first member removes the zones it listed. -/
theorem usedTransfers_complete_fails :
    (∃ received, receiveTransfer cutOffRefresher.client changedMaster "example.com." none =
        .ok (some received) ∧ ¬ Complete received.records ∧
      (exec (transferFrom cutOffRefresher cutOffRefresher.client changedMaster "example.com." 2 none
        0) .exampleCom).1 = .ok true) ∧
    (∃ records, axfrSigned cutOffRefresher.client cutOffMaster (catalogApex cutOffConsumer) =
        .ok records ∧ ¬ Complete records ∧
      Zone.memberTest ∈ CatalogState.memberTest.store.zones.rows ∧
      (exec (refreshCatalog cutOffRefresher cutOffConsumer) .memberTest).1 = .ok true ∧
      (exec (refreshCatalog cutOffRefresher cutOffConsumer) .memberTest).2.store.zones.rows = []) := by
  constructor
  · refine ⟨⟨changedTransfer, changedWire⟩, ?_, ?_, ?_⟩
    · decide +kernel
    · intro h
      exact absurd h.serials (by decide)
    · decide +kernel
  · refine ⟨cutOffCatalog, ?_, ?_, ?_, ?_, ?_⟩
    · decide +kernel
    · intro h
      exact absurd h.serials (by decide)
    · decide
    · decide +kernel
    · decide +kernel

/-- Both parts for the same two transfers. -/
theorem usedTransfers_complete_iff_cutOff :
    (∃ received messages,
      receiveTransfer cutOffRefresher.client changedMaster "example.com." none =
          .ok (some received) ∧
        ReadFrom cutOffRefresher.client changedMaster "example.com." messages received.records ∧
        (Complete received.records ↔ OpensAndCloses messages)) ∧
    (∃ master records members messages,
      Applies cutOffRefresher cutOffConsumer cutOffConsumer.masters .memberTest
          (exec (refreshCatalog cutOffRefresher cutOffConsumer) .memberTest)
          (catalogApex cutOffConsumer) master records members ∧
        toAsciiLowercase Zone.memberTest.name ∉ members ∧
        ReadFrom { cutOffRefresher.client with tsig := none } master (catalogApex cutOffConsumer)
          messages records ∧
        (Complete records ↔ OpensAndCloses messages)) := by
  constructor
  · apply (usedTransfers_complete_iff cutOffRefresher).1 _ _ _ 2 _ 0 .exampleCom
    left
    decide +kernel
  · apply (usedTransfers_complete_iff cutOffRefresher).2 cutOffConsumer .memberTest Zone.memberTest
    · decide
    · rintro ⟨zone, hzone, _⟩
      have hnone : (exec (refreshCatalog cutOffRefresher cutOffConsumer)
          .memberTest).2.store.zones.rows = [] := by decide +kernel
      rw [hnone] at hzone
      cases hzone

end DaygleDns.Authoritative
