import DaygleDns.Authoritative.ReadTransfers

/-! A zone transfer between this server and this client: what is sent is received whole. -/
namespace DaygleDns.Authoritative

open Text Framing Fallible

/-- The zone that the name in a question stands for. -/
def servedName (name : Text) : Text := toAsciiLowercase (trimEndMatches '.' name)

/-- The messages that a client at an address gets for its request, where the server has a clock
for each type of request. -/
def TransferServer.replies (server : TransferServer) (clock : Text → Nat → UInt64) (address : List UInt8) (raw : Bytes)
    (message : Message) : List Message :=
  handleTransfer { server with clock := clock message.query.2 } ⟨raw, message.metadata, message.query, address⟩
    (servedName message.query.1)

def TransferServer.answer (server : TransferServer) (clock : Text → Nat → UInt64) (address : List UInt8) (framed : Bytes) :
    Except DaygleError Bytes := do
  let (raw, message, _) ← readMessage server.codec framed
  let wires ← ((server.replies clock address raw message).mapM server.codec.toVec).mapError .proto
  pure (wires.flatMap frame)

/-- The server as the master of a client. -/
def TransferServer.master (server : TransferServer) (clock : Text → Nat → UInt64) (address : List UInt8) (name : Text) :
    Master :=
  ⟨name, none, server.answer clock address⟩

/-- The server gives this zone to the client, under the key that the client has or without one. -/
structure ServesTo (server : TransferServer) (client : XfrClient) (address : List UInt8) (zone : Text) (soa : MessageRecord)
    (records : List MessageRecord) : Prop where
  codec : client.codec = server.codec
  enabled : server.settings.axfrEnabled = true
  allowed : transferClientAllowed server.reader server.settings.axfrNetworks address = true
  serves : server.transferRecords (servedName zone) = .ok (some (soa, records))
  unbound : client.tsig = none → tsigTransferKey server.reader server.settings (servedName zone) = none
  bound : ∀ key, client.tsig = some key →
    (∃ required, tsigTransferKey server.reader server.settings (servedName zone) = some required ∧ key.name = required.name) ∧
      (server.tsigKeys.find? fun held => held.name == toAsciiLowercase key.name) = some key

/-- The messages of an exchange can be written, and their lengths in two bytes. -/
structure Fits (server : TransferServer) (client : XfrClient) (clock : Text → Nat → UInt64) (address : List UInt8)
    (query : Message) (answers : List MessageRecord) : Prop where
  request : ∃ wire verifier, encodeRequest client query = .ok (wire, verifier) ∧ wire.length < 65536
  unsigned : ∀ chunk ∈ transferChunks server.codec answers,
    ∃ raw, server.codec.toVec (transferMessage ⟨[], query.metadata, query.query, address⟩ chunk) = .ok raw
  replies : ∀ wire verifier message, encodeRequest client query = .ok (wire, verifier) →
    server.codec.fromVec wire = .ok message → ∀ reply ∈ server.replies clock address wire message,
      ∃ raw, server.codec.toVec reply = .ok raw ∧ raw.length < 65536

/-- The clocks of the two sides are within what the signatures of an exchange allow. -/
structure InTime (client : XfrClient) (clock : Text → Nat → UInt64) (type : Text) (count : Nat) (key : TsigKey) : Prop where
  after : (client.clock type 0).toNat ≤ (clock type 0).toNat + key.fudge.toNat
  before : (clock type 0).toNat < (client.clock type 0).toNat + key.fudge.toNat
  replies : ∀ sent < count,
    ResponseVerifier.absDiff (client.clock type (sent + 1)) (signedAt (clock type) sent) ≤ key.fudge.toUInt64

section Exchanged

variable {server : TransferServer} {client : XfrClient} {clock : Text → Nat → UInt64} {address : List UInt8}
  {tsigFields : Text → Tsig → Bytes} {zone name : Text} {soa : MessageRecord} {records : List MessageRecord} {query : Message}

theorem verifyRequest_signed {codec : MessageCodec} (hcodec : codec.LawfulRequests tsigFields) {ring : List TsigKey}
    {key : TsigKey} {wire mac : Bytes} {signed now : UInt64} (hquery : query.signature = none)
    (hsign : signRequestWithMac codec query key signed = .ok (wire, mac))
    (hring : (ring.find? fun held => held.name == toAsciiLowercase key.name) = some key)
    (hafter : signed.toNat ≤ now.toNat + key.fudge.toNat) (hbefore : now.toNat < signed.toNat + key.fudge.toNat) :
    (∃ signature, codec.fromVec wire = .ok { query with signature := some signature }) ∧
      verifyRequest codec ring wire query.metadata.id now = .valid key ⟨query.metadata.id, now, key, mac⟩ := by
  unfold signRequestWithMac at hsign
  obtain ⟨tbs, htbs, hsign⟩ := bind_eq_ok.mp hsign
  obtain ⟨found, hmac, hsign⟩ := bind_eq_ok.mp hsign
  obtain ⟨raw, hraw, hsign⟩ := bind_eq_ok.mp hsign
  cases hsign
  rw [mapError_eq_ok] at htbs hmac hraw
  obtain ⟨body, hbody, rfl⟩ := hcodec.requestTbs htbs
  have hread := hcodec.reads hraw
  refine ⟨⟨_, hread⟩, ?_⟩
  have hparts := hcodec.covers true hquery rfl hbody hraw
  rw [if_pos rfl, hcodec.fieldsOfMac] at hparts
  obtain ⟨window, hwindow, hin⟩ := hcodec.verifiesBytes hparts rfl rfl (hcodec.macVerifies hmac)
  have hshort : ¬ wire.length < 12 := Nat.not_lt.mpr (hcodec.header hread)
  have hcounted : (!hasAdditionals wire) = false := by rw [hcodec.additionals hraw rfl]; rfl
  have hopen : (!window now) = false := by rw [hin now hafter hbefore]; rfl
  unfold verifyRequest
  simp only [hshort, hcounted, hread, hring, hwindow, hopen, hparts, if_false, Except.toOption, Option.bind_some,
    Bool.false_eq_true]

theorem replies_unbound (hserves : ServesTo server client address zone soa records) (htsig : client.tsig = none)
    (hzone : query.query.1 = zone) (clock : Text → Nat → UInt64) (wire : Bytes) :
    server.replies clock address wire query =
      sendChunks { server with clock := clock query.query.2 } ⟨wire, query.metadata, query.query, address⟩ none none 0
        (transferChunks server.codec (soa :: records ++ [soa])) := by
  unfold TransferServer.replies
  rw [hzone, handleTransfer_unbound]
  · simp only [sendZone, hserves.serves]
  · exact hserves.enabled
  · exact hserves.allowed
  · exact hserves.unbound htsig

/-- The messages that the client gets are those of the groups, and it can read them all. -/
theorem reads_replies (hcodec : server.codec.LawfulRequests tsigFields)
    (hserves : ServesTo server client address zone soa records) (hquery : query.signature = none)
    (hzone : query.query.1 = zone) (htruncation : query.metadata.truncation = false)
    (hfits : Fits server client clock address query (soa :: records ++ [soa]))
    (htime : ∀ key, client.tsig = some key →
      InTime client clock query.query.2 (transferChunks server.codec (soa :: records ++ [soa])).length key)
    {wire : Bytes} {verifier : Option ResponseVerifier} (hencode : encodeRequest client query = .ok (wire, verifier))
    (master : Master) :
    ∃ message, server.codec.fromVec wire = .ok message ∧
      Reads server.codec master (client.clock query.query.2) verifier 0 (server.replies clock address wire message) ∧
      (server.replies clock address wire message).map Message.answers =
        transferChunks server.codec (soa :: records ++ [soa]) := by
  have hcodecs := hserves.codec
  cases htsig : client.tsig with
  | none =>
    have hplain := hencode
    unfold encodeRequest at hplain
    rw [htsig] at hplain
    dsimp only at hplain
    cases hwire : client.codec.toVec query with
    | error message =>
      rw [hwire] at hplain
      cases hplain
    | ok raw =>
      rw [hwire] at hplain
      cases hplain
      rw [hcodecs] at hwire
      have hread := hcodec.reads hwire
      have hreplies := replies_unbound hserves htsig hzone clock wire
      have hsmall := hfits.replies wire none query hencode hread
      rw [hreplies] at hsmall
      refine ⟨query, hread, ?_⟩
      rw [hreplies]
      exact reads_unsigned htruncation _ hsmall
  | some key =>
    have hplain := hencode
    unfold encodeRequest at hplain
    rw [htsig] at hplain
    dsimp only at hplain
    cases hsign : signRequestWithMac client.codec query key (client.clock query.query.2 0) with
    | error message =>
      rw [hsign] at hplain
      cases hplain
    | ok signed =>
      obtain ⟨raw, mac⟩ := signed
      rw [hsign] at hplain
      obtain ⟨rfl, rfl⟩ : raw = wire ∧ some (ResponseVerifier.start key mac) = verifier := by
        cases hplain
        exact ⟨rfl, rfl⟩
      rw [hcodecs] at hsign
      obtain ⟨⟨required, hrequired, hname⟩, hring⟩ := hserves.bound key htsig
      have hclocks := htime key htsig
      obtain ⟨⟨signature, hread⟩, hvalid⟩ :=
        verifyRequest_signed hcodec hquery hsign hring hclocks.after hclocks.before
      have hreplies : server.replies clock address raw { query with signature := some signature } =
          sendChunks { server with clock := clock query.query.2 } ⟨raw, query.metadata, query.query, address⟩
            (some (key, ⟨query.metadata.id, clock query.query.2 0, key, mac⟩)) none 0
            (transferChunks server.codec (soa :: records ++ [soa])) := by
        unfold TransferServer.replies handleTransfer sendZone
        rw [hzone]
        simp only [hserves.enabled, hserves.allowed, hrequired, hvalid, hname, hserves.serves, Bool.not_true, Bool.or_self,
          Bool.false_eq_true, if_false, if_true]
      have hsmall := hfits.replies raw _ _ hencode hread
      rw [hreplies] at hsmall
      refine ⟨_, hread, ?_⟩
      rw [hreplies]
      apply reads_signed { server with clock := clock query.query.2 } ⟨raw, query.metadata, query.query, address⟩ hcodec
        htruncation
      · exact ⟨rfl, rfl, rfl⟩
      · exact ⟨fun _ => rfl, fun _ => rfl⟩
      · exact ⟨rfl, rfl, rfl, rfl, rfl⟩
      · exact hfits.unsigned
      · exact hsmall
      · rw [Nat.zero_add]
        exact hclocks.replies

theorem answers_of_chunks {codec : MessageCodec} {replies : List Message} {answers : List MessageRecord}
    (h : replies.map Message.answers = transferChunks codec answers) :
    replies.flatMap Message.answers = answers ∧ ∀ message ∈ replies, message.answers ≠ [] := by
  apply And.intro
  · rw [List.flatMap_def, h, flatten_transferChunks]
  · intro message hmessage
    apply nonempty_of_transferChunks
    rw [← h]
    exact List.mem_map_of_mem hmessage

/-- An exchange with the server ends with the message that its replies end with, if that is not
behind the last one that is read. -/
theorem exchangeOf_replies (hcodec : server.codec.LawfulRequests tsigFields)
    (hserves : ServesTo server client address zone soa records) (hquery : query.signature = none)
    (hzone : query.query.1 = zone) (htruncation : query.metadata.truncation = false)
    (hfits : Fits server client clock address query (soa :: records ++ [soa]))
    (htime : ∀ key, client.tsig = some key →
      InTime client clock query.query.2 (transferChunks server.codec (soa :: records ++ [soa])).length key) :
    ∃ (first : Message) (rest : List Message),
      (first :: rest).length = (transferChunks server.codec (soa :: records ++ [soa])).length ∧
      (first :: rest).flatMap Message.answers = soa :: records ++ [soa] ∧
      (∀ message ∈ first :: rest, message.answers ≠ []) ∧
      ∀ messages later loneSoaEnds limit, first :: rest = messages ++ later → StopsAt loneSoaEnds none 0 messages →
        (messages.length ≤ limit →
          ∃ exchange, exchangeOf client (server.master clock address name) query limit loneSoaEnds = .ok exchange ∧
            exchange.allAnswers = messages.flatMap Message.answers ∧ exchange.messages = messages.length ∧
            (later = [] → exchange.unread = [])) ∧
        (limit < messages.length →
          ∃ e, exchangeOf client (server.master clock address name) query limit loneSoaEnds = .error e) := by
  obtain ⟨wire, verifier, hencode, hlength⟩ := hfits.request
  obtain ⟨message, hread, hreads, hanswers⟩ := reads_replies hcodec hserves hquery hzone htruncation hfits htime hencode
    (server.master clock address name)
  obtain ⟨hflat, hfilled⟩ := answers_of_chunks hanswers
  obtain ⟨reply, rest, hreplies⟩ := List.exists_cons_of_ne_nil fun hnone =>
    List.cons_ne_nil _ _ (hflat.symm.trans (congrArg (List.flatMap Message.answers) hnone))
  have hcount := congrArg List.length hanswers
  rw [List.length_map, hreplies] at hcount
  refine ⟨reply, rest, hcount, hreplies ▸ hflat, hreplies ▸ hfilled, ?_⟩
  rw [← hreplies]
  intro messages later loneSoaEnds limit hsplit hstops
  obtain ⟨wires, hwires⟩ := mapM_ok_iff.mpr fun reply hreply =>
    (hfits.replies wire verifier message hencode hread reply hreply).imp fun _ h => h.1
  have hstream : server.answer clock address (frame wire) = .ok (wires.flatMap frame) := by
    have hrequest := readMessage_frame hread hlength []
    rw [List.append_nil] at hrequest
    unfold TransferServer.answer
    simp only [hrequest, ok_bind, hwires, Except.mapError, pure_eq]
  rw [hsplit, List.mapM_append] at hwires
  obtain ⟨first, hfirst, hwires⟩ := bind_eq_ok.mp hwires
  obtain ⟨second, hsecond, hwires⟩ := bind_eq_ok.mp hwires
  cases hwires
  rw [hsplit] at hreads
  have hexchange : exchangeOf client (server.master clock address name) query limit loneSoaEnds = (do
      let exchange ← readReplies server.codec (client.clock query.query.2) (server.master clock address name) loneSoaEnds
        limit ⟨(first ++ second).flatMap frame, verifier, [], none, 0⟩
      finishReplies (server.master clock address name) exchange
      pure exchange) := by
    unfold exchangeOf TransferServer.master
    simp only [hencode, ok_bind, hstream, hserves.codec]
  rw [hexchange]
  constructor
  · intro hlimit
    obtain ⟨after, hafter, hunread, hall, hcount, hfinish⟩ :=
      @readReplies_of_reads _ _ (server.master clock address name) (client.clock query.query.2) loneSoaEnds hcodec.toLawful
        messages first (second.flatMap frame) limit ⟨(first ++ second).flatMap frame, verifier, [], none, 0⟩
        (mapM_eq_ok.mp hfirst) List.flatMap_append (reads_append hreads) hstops hlimit
    refine ⟨after, ?_, hall, by simpa using hcount, ?_⟩
    · simp only [hafter, ok_bind, hfinish, pure_eq]
    · intro hnone
      rw [hnone] at hsecond
      cases hsecond
      exact hunread
  · intro hlimit
    obtain ⟨e, he⟩ :=
      @readReplies_exceeded _ _ (server.master clock address name) (client.clock query.query.2) loneSoaEnds hcodec.toLawful
        messages first (second.flatMap frame) limit ⟨(first ++ second).flatMap frame, verifier, [], none, 0⟩
        (mapM_eq_ok.mp hfirst) List.flatMap_append (reads_append hreads) hstops hlimit
    exact ⟨e, by rw [he, error_bind]⟩

/-- The replies to a request for the whole zone are read to the last one, unless they are too many. -/
theorem axfr_exchange (hcodec : server.codec.LawfulRequests tsigFields)
    (hserves : ServesTo server client address zone soa records) {serial : UInt32} (hsoa : soa.soaSerial = some serial)
    (hrecords : ∀ record ∈ records, isSoa record = false)
    (hfits : Fits server client clock address (buildQuery zone "AXFR") (soa :: records ++ [soa]))
    (htime : ∀ key, client.tsig = some key →
      InTime client clock "AXFR" (transferChunks server.codec (soa :: records ++ [soa])).length key) :
    ((transferChunks server.codec (soa :: records ++ [soa])).length ≤ maxMessages →
      ∃ exchange, exchangeOf client (server.master clock address name) (buildQuery zone "AXFR") maxMessages false =
          .ok exchange ∧ exchange.allAnswers = soa :: records ++ [soa] ∧
        exchange.messages = (transferChunks server.codec (soa :: records ++ [soa])).length ∧ exchange.unread = []) ∧
    (maxMessages < (transferChunks server.codec (soa :: records ++ [soa])).length →
      ∃ e, axfrSigned client (server.master clock address name) zone = .error e) := by
  obtain ⟨first, rest, hlength, hflat, hfilled, hexchange⟩ := @exchangeOf_replies server client clock address tsigFields
    zone name soa records (buildQuery zone "AXFR") hcodec hserves rfl rfl rfl hfits htime
  have hstops := stopsAt_transfer hsoa hrecords hfilled hflat (fun _ => (rfl : false = false))
  obtain ⟨hread, hexceeded⟩ := hexchange (first :: rest) [] false maxMessages (List.append_nil _).symm hstops
  rw [hlength] at hread hexceeded
  constructor
  · intro hcount
    obtain ⟨exchange, hok, hall, hmessages, hunread⟩ := hread hcount
    exact ⟨exchange, hok, hall.trans hflat, hmessages, hunread rfl⟩
  · intro hcount
    obtain ⟨e, he⟩ := hexceeded hcount
    refine ⟨e, ?_⟩
    unfold axfrSigned request
    rw [he]
    rfl

theorem soaSerials_transfer {serial : UInt32} (hsoa : soa.soaSerial = some serial)
    (hrecords : ∀ record ∈ records, isSoa record = false) :
    (soa :: records ++ [soa]).filterMap MessageRecord.soaSerial = [serial, serial] := by
  have hnone : records.filterMap MessageRecord.soaSerial = [] := by
    apply List.filterMap_eq_nil_iff.mpr
    intro record hrecord
    cases hserial : record.soaSerial with
    | none => rfl
    | some other =>
      have hmatch := isSoa_of_soaSerial hserial
      rw [hrecords record hrecord] at hmatch
      exact absurd hmatch Bool.false_ne_true
  simp [hsoa, hnone]

/-- The reply to an IXFR request is the whole zone, or the SOA by itself, upon which the client
asks again for the whole zone. -/
theorem ixfr_received (hcodec : server.codec.LawfulRequests tsigFields)
    (hserves : ServesTo server client address zone soa records) {serial current : UInt32}
    (hsoa : soa.soaSerial = some serial) (hrecords : ∀ record ∈ records, isSoa record = false)
    (hcount : (transferChunks server.codec (soa :: records ++ [soa])).length ≤ maxMessages)
    (hfits : Fits server client clock address (ixfrQuery zone current) (soa :: records ++ [soa]))
    (htime : ∀ key, client.tsig = some key →
      InTime client clock "IXFR" (transferChunks server.codec (soa :: records ++ [soa])).length key)
    (haxfr : axfrSigned client (server.master clock address name) zone = .ok (soa :: records ++ [soa]))
    (hnewer : serialNewer serial current = true) :
    ixfrOrAxfr client (server.master clock address name) zone current = .ok (some (soa :: records ++ [soa])) := by
  obtain ⟨first, rest, hlength, hflat, hfilled, hexchange⟩ := @exchangeOf_replies server client clock address tsigFields
    zone name soa records (ixfrQuery zone current) hcodec hserves rfl rfl rfl hfits htime
  unfold ixfrOrAxfr request
  by_cases halone : first.answers = [soa]
  · have hstops : StopsAt true none 0 [first] := by
      change isTerminal true (startSerial none first.answers) 0 first.answers = true
      rw [halone, startSerial_cons hsoa, isTerminal_iff List.getLast?_singleton]
      exact ⟨hsoa, .inr rfl⟩
    obtain ⟨exchange, hok, hall, _⟩ := (hexchange [first] rest true maxMessages rfl hstops).1 (by simp [maxMessages])
    rw [hok]
    have hserials : exchange.allAnswers = [soa] := by simp [hall, halone]
    simp only [Except.map, ok_bind, hserials, List.filterMap_cons, hsoa, List.filterMap_nil, List.length_singleton, hnewer,
      if_true, haxfr]
  · have hstops : StopsAt true none 0 (first :: rest) :=
      stopsAt_transfer hsoa hrecords hfilled hflat (fun h => absurd h halone)
    obtain ⟨exchange, hok, hall, _⟩ := (hexchange (first :: rest) [] true maxMessages (List.append_nil _).symm hstops).1
      (by rw [hlength]; exact hcount)
    rw [hok]
    simp only [Except.map, ok_bind, hall, hflat, soaSerials_transfer hsoa hrecords, pure_eq]

end Exchanged

theorem answers_of_sendChunks {server : TransferServer} {request : TransferRequest}
    {tsig : Option (TsigKey × TSigResponseContext)} {previousMac : Option Bytes} {sent : Nat}
    {chunks : List (List MessageRecord)} :
    ∀ reply ∈ sendChunks server request tsig previousMac sent chunks, reply.answers = [] ∨ reply.answers ∈ chunks := by
  induction chunks generalizing previousMac sent with
  | nil => simp [sendChunks]
  | cons chunk rest ih =>
    intro reply hreply
    unfold sendChunks at hreply
    have hlater : ∀ (previousMac : Option Bytes) (sent : Nat),
        reply ∈ sendChunks server request tsig previousMac sent rest → reply.answers = [] ∨ reply.answers ∈ chunk :: rest :=
      fun _ _ h => (ih reply h).imp_right (List.mem_cons_of_mem _)
    split at hreply
    next =>
      rcases List.mem_cons.mp hreply with rfl | hmem
      · exact .inr List.mem_cons_self
      · exact hlater _ _ hmem
    next =>
      dsimp only at hreply
      split at hreply
      next =>
        rw [List.mem_singleton.mp hreply]
        exact .inl rfl
      next =>
        split at hreply
        next =>
          rw [List.mem_singleton.mp hreply]
          exact .inl rfl
        next =>
          rcases List.mem_cons.mp hreply with rfl | hmem
          · exact .inr List.mem_cons_self
          · exact hlater _ _ hmem

/-- A message of a transfer has one record or is small. -/
theorem replies_small {server : TransferServer} {tsigFields : Text → Tsig → Bytes}
    (hcodec : server.codec.LawfulRequests tsigFields) (request : TransferRequest) (qname : Text) :
    ∀ reply ∈ handleTransfer server request qname,
      reply.answers.length ≤ 1 ∨ chunkLength server.codec reply.answers ≤ transferBudget := by
  have herror : ∀ code, ∀ reply ∈ [errorReply request code], reply.answers.length ≤ 1 ∨
      chunkLength server.codec reply.answers ≤ transferBudget := by
    intro code reply hreply
    rw [List.mem_singleton.mp hreply]
    exact .inl (Nat.zero_le _)
  have hzone : ∀ tsig, ∀ reply ∈ sendZone server request qname tsig, reply.answers.length ≤ 1 ∨
      chunkLength server.codec reply.answers ≤ transferBudget := by
    intro tsig reply hreply
    unfold sendZone at hreply
    split at hreply
    · rcases answers_of_sendChunks reply hreply with hnone | hmem
      · rw [hnone]
        exact .inl (Nat.zero_le _)
      · exact small_of_transferChunks hcodec _ hmem
    · exact herror _ reply hreply
    · exact herror _ reply hreply
  unfold handleTransfer
  split
  · exact herror _
  · split
    · exact hzone _
    · split
      · split
        · exact hzone _
        · exact herror _
      · exact herror _
      · exact herror _

/-- A zone that the server sends is received whole, where its messages are not more than a client
reads and the clocks are within what the signatures allow. -/
theorem transfers_received (server : TransferServer) (tsigFields : Text → Tsig → Bytes)
    (hcodec : server.codec.LawfulRequests tsigFields) (client : XfrClient) (clock : Text → Nat → UInt64)
    (address : List UInt8) (zone name : Text) (soa : MessageRecord) (records : List MessageRecord) (serial : UInt32)
    (hserves : ServesTo server client address zone soa records) (hsoa : soa.soaSerial = some serial)
    (hrecords : ∀ record ∈ records, isSoa record = false)
    (hcount : (transferChunks server.codec (soa :: records ++ [soa])).length ≤ maxMessages)
    (hfits : Fits server client clock address (buildQuery zone "AXFR") (soa :: records ++ [soa]))
    (htime : ∀ key, client.tsig = some key →
      InTime client clock "AXFR" (transferChunks server.codec (soa :: records ++ [soa])).length key) :
    (∀ (request : TransferRequest) (qname : Text), ∀ reply ∈ handleTransfer server request qname,
      reply.answers.length ≤ 1 ∨ chunkLength server.codec reply.answers ≤ transferBudget) ∧
    (∃ exchange, exchangeOf client (server.master clock address name) (buildQuery zone "AXFR") maxMessages false = .ok exchange ∧
      exchange.messages = (transferChunks server.codec (soa :: records ++ [soa])).length ∧ exchange.unread = []) ∧
    axfrSigned client (server.master clock address name) zone = .ok (soa :: records ++ [soa]) ∧
    ∀ current, serialNewer serial current = true →
      Fits server client clock address (ixfrQuery zone current) (soa :: records ++ [soa]) →
      (∀ key, client.tsig = some key →
        InTime client clock "IXFR" (transferChunks server.codec (soa :: records ++ [soa])).length key) →
      ixfrOrAxfr client (server.master clock address name) zone current = .ok (some (soa :: records ++ [soa])) := by
  obtain ⟨exchange, hexchange, hall, hread, hunread⟩ := (@axfr_exchange server client clock address tsigFields zone name soa
    records hcodec hserves serial hsoa hrecords hfits htime).1 hcount
  have haxfr : axfrSigned client (server.master clock address name) zone = .ok (soa :: records ++ [soa]) := by
    unfold axfrSigned request
    rw [hexchange, ← hall]
    rfl
  refine ⟨replies_small hcodec, ⟨exchange, hexchange, hread, hunread⟩, haxfr, ?_⟩
  intro current hnewer hfits' htime'
  exact ixfr_received hcodec hserves hsoa hrecords hcount hfits' htime' haxfr hnewer

/-! A zone of one address that is bound to a key, and a zone of records that each need a message
of their own. -/

def exampleAxfr : Message := buildQuery "example.com." "AXFR"

def exampleTransferRequest : TransferRequest :=
  ⟨[], (buildQuery "example.com." "AXFR").metadata, (buildQuery "example.com." "AXFR").query, []⟩

/-- The names in the second SOA point to those in the first. -/
def exampleSoaAgainBytes : Bytes :=
  toBeBytes 16 0xc00c0006000100000e100018c029c02f ++ toBeBytes 4 1 ++ toBeBytes 16 0x00000e10000002580001518000000e10

def boundZone : List MessageRecord := [exampleSoa 1, exampleAddress "example.com.", exampleSoa 1]

def boundZoneBytes : Bytes := exampleQuestion 252 ++ exampleSoaBytes 1 ++ exampleAddressBytes (be16 0xc00c) ++ exampleSoaAgainBytes

def boundReplyMac : Bytes := toBeBytes 32 0xabf1aed0e63b0e3ef37827d845ee6b6180f8fd3bfba453a8994f908218d6e599

def headerWithSignature (flags answers : Nat) : Bytes :=
  be16 0 ++ be16 flags ++ be16 1 ++ be16 answers ++ be16 0 ++ be16 1

def signedAxfrBytes : Bytes := headerWithSignature 0 0 ++ exampleQuestion 252 ++ (chainSignature chainRequestMac).wire

def signedReplyBytes : Bytes := headerWithSignature 0x8400 3 ++ boundZoneBytes ++ (chainSignature boundReplyMac).wire

def boundMac (data : Bytes) : Bytes :=
  if data = axfrQueryBytes ++ tsigVariables TsigKey.foo.name (chainSignature []).data then chainRequestMac
  else if data = frame chainRequestMac ++ (exampleHeader 0x8400 3 0 ++ boundZoneBytes) ++
      tsigVariables TsigKey.foo.name (chainSignature []).data then boundReplyMac
  else []

def boundRecords : List (MessageRecord × Bytes) :=
  [(exampleSoa 1, exampleSoaInFull 1),
    (exampleAddress "example.com.", exampleAddressBytes (toBeBytes 13 0x076578616d706c6503636f6d00))]

def boundMessages : List (Message × Bytes) :=
  [(buildQuery "example.com." "AXFR", axfrQueryBytes),
    ({ buildQuery "example.com." "AXFR" with signature := some (chainSignature chainRequestMac) }, signedAxfrBytes),
    (transferMessage exampleTransferRequest boundZone, exampleHeader 0x8400 3 0 ++ boundZoneBytes),
    ({ transferMessage exampleTransferRequest boundZone with signature := some (chainSignature boundReplyMac) },
      signedReplyBytes)]

def boundCodec : MessageCodec := .ofMac boundRecords boundMessages fun _ _ => boundMac

theorem boundCodec_lawful : boundCodec.LawfulRequests tsigVariables :=
  MessageCodec.ofMac_lawfulRequests
    { reads := by decide +kernel
      header := by decide +kernel
      macSize := by decide
      recordBytes := by decide
      additionals := by decide }

def boundServer : TransferServer where
  codec := boundCodec
  reader := .example
  settings := .bindingExampleCom "foo"
  tsigKeys := [.foo]
  transferRecords name := .ok (if name = "example.com" then some (exampleSoa 1, [exampleAddress "example.com."]) else none)
  clock _ := chainTime

/-- A client whose clock goes so many seconds while it waits for the reply. -/
def boundClient (late : UInt64) : XfrClient where
  codec := boundCodec
  tsig := some .foo
  clock _ read := if read = 0 then chainTime else chainTime + late

def boundMaster : Master := boundServer.master (fun _ _ => chainTime) [192, 0, 2, 7] "192.0.2.53:53"

/-- What the bound server computes: its keys for the zone, and the exchange of the signed query. -/
structure BoundRun : Prop where
  required : tsigTransferKey boundServer.reader boundServer.settings (servedName "example.com.") = some .foo
  held : (boundServer.tsigKeys.find? fun held => held.name == toAsciiLowercase TsigKey.foo.name) = some .foo
  chunks : transferChunks boundServer.codec boundZone = [boundZone]
  signed : signRequestWithMac boundCodec exampleAxfr .foo chainTime = .ok (signedAxfrBytes, chainRequestMac)
  read : boundCodec.fromVec signedAxfrBytes = .ok { exampleAxfr with signature := some (chainSignature chainRequestMac) }
  unsigned : boundCodec.toVec (transferMessage exampleTransferRequest boundZone) =
    .ok (exampleHeader 0x8400 3 0 ++ boundZoneBytes)
  replies : boundServer.replies (fun _ _ => chainTime) [192, 0, 2, 7] signedAxfrBytes
      { exampleAxfr with signature := some (chainSignature chainRequestMac) } =
    [{ transferMessage exampleTransferRequest boundZone with signature := some (chainSignature boundReplyMac) }]
  reply : boundCodec.toVec
      { transferMessage exampleTransferRequest boundZone with signature := some (chainSignature boundReplyMac) } =
    .ok signedReplyBytes
  lengths : signedAxfrBytes.length < 65536 ∧ signedReplyBytes.length < 65536

theorem boundServer_run : BoundRun := by
  constructor <;> decide +kernel

theorem servedName_example : servedName "example.com." = "example.com".toList := by decide

theorem boundServer_serves (late : UInt64) :
    ServesTo boundServer (boundClient late) [192, 0, 2, 7] "example.com." (exampleSoa 1) [exampleAddress "example.com."] where
  codec := rfl
  enabled := rfl
  allowed := rfl
  serves := congrArg Except.ok (if_pos servedName_example)
  unbound h := nomatch h
  bound key h := by
    cases h
    exact ⟨⟨.foo, boundServer_run.required, rfl⟩, boundServer_run.held⟩

theorem boundServer_chunks : transferChunks boundServer.codec boundZone = [boundZone] := boundServer_run.chunks

theorem boundServer_fits (late : UInt64) :
    Fits boundServer (boundClient late) (fun _ _ => chainTime) [192, 0, 2, 7] (buildQuery "example.com." "AXFR") boundZone := by
  have hsign : signRequestWithMac boundCodec (buildQuery "example.com." "AXFR") .foo chainTime =
      .ok (signedAxfrBytes, chainRequestMac) := boundServer_run.signed
  have hencode : encodeRequest (boundClient late) (buildQuery "example.com." "AXFR") =
      .ok (signedAxfrBytes, some (ResponseVerifier.start .foo chainRequestMac)) := by
    unfold encodeRequest boundClient
    simp only [if_true, hsign]
    rfl
  constructor
  · exact ⟨_, _, hencode, boundServer_run.lengths.1⟩
  · intro chunk hchunk
    rw [boundServer_chunks] at hchunk
    rw [List.mem_singleton.mp hchunk]
    exact ⟨_, boundServer_run.unsigned⟩
  · intro wire verifier message hwire hmessage reply hreply
    rw [hencode] at hwire
    cases hwire
    obtain rfl := Except.ok.inj (boundServer_run.read.symm.trans hmessage)
    rw [boundServer_run.replies] at hreply
    rw [List.mem_singleton.mp hreply]
    exact ⟨signedReplyBytes, boundServer_run.reply, boundServer_run.lengths.2⟩

theorem boundClient_inTime :
    InTime (boundClient 300) (fun _ _ => chainTime) "AXFR" (transferChunks boundServer.codec boundZone).length .foo where
  after := by decide
  before := by decide
  replies := by
    rw [boundServer_chunks]
    decide

/-- The zone that is bound to a key is received at the end of the time of its signatures. -/
theorem transfers_received_bound :
    (∃ exchange, exchangeOf (boundClient 300) boundMaster (buildQuery "example.com." "AXFR") maxMessages false = .ok exchange ∧
      exchange.messages = 1 ∧ exchange.unread = []) ∧
    axfrSigned (boundClient 300) boundMaster "example.com." = .ok boundZone := by
  have h := transfers_received boundServer tsigVariables boundCodec_lawful (boundClient 300) (fun _ _ => chainTime)
    [192, 0, 2, 7] "example.com." "192.0.2.53:53" (exampleSoa 1) [exampleAddress "example.com."] 1 (boundServer_serves 300) rfl
    (by decide) ((congrArg List.length boundServer_chunks).trans_le (by decide)) (boundServer_fits 300)
    (fun key hkey => by cases hkey; exact boundClient_inTime)
  obtain ⟨_, ⟨exchange, hexchange, hmessages, hunread⟩, haxfr, _⟩ := h
  exact ⟨⟨exchange, hexchange, hmessages.trans (congrArg List.length boundServer_chunks), hunread⟩, haxfr⟩

theorem txt_has_wire : toAsciiUppercase "TXT" ∉ (["ALIAS", "AUTOPTR"] : List Text) := by decide

/-- A TXT record that has its own message. -/
def longRecord (text : Text) : MessageRecord where
  name := "example.com."
  data := .other ⟨"TXT", txt_has_wire⟩ text
  ttl := 300

def longRecordBytes (strings owner : Bytes) : Bytes := owner ++ toBeBytes 10 0x001000010000012c4000 ++ strings

def longReply (record : MessageRecord) : Message := transferMessage exampleTransferRequest [record]

def longReplyBytes (strings : Bytes) : Bytes :=
  exampleHeader 0x8400 1 0 ++ exampleQuestion 252 ++ longRecordBytes strings (be16 0xc00c)

def longRecords (text : Text) (strings : Bytes) : List (MessageRecord × Bytes) :=
  [(exampleSoa 1, exampleSoaInFull 1), (longRecord text, longRecordBytes strings (toBeBytes 13 0x076578616d706c6503636f6d00))]

def longMessages (text : Text) (strings : Bytes) : List (Message × Bytes) :=
  [(exampleAxfr, axfrQueryBytes), (longReply (exampleSoa 1), axfrSoaBytes),
    (longReply (longRecord text), longReplyBytes strings)]

def longCodec (text : Text) (strings : Bytes) : MessageCodec :=
  .ofMac (longRecords text strings) (longMessages text strings) fun _ _ _ => []

section Long

variable {text : Text} {strings : Bytes} (hstrings : strings.length = 16384)

include hstrings

theorem length_longReplyBytes : (longReplyBytes strings).length = 16425 := by
  have hhead : (exampleHeader 0x8400 1 0 ++ exampleQuestion 252).length = 29 := by decide
  have howner : (be16 0xc00c).length = 2 := rfl
  unfold longReplyBytes longRecordBytes
  simp only [List.length_append, hhead, howner, length_toBeBytes, hstrings]

theorem longMessages_readable (text : Text) : Requestable (longRecords text strings) (longMessages text strings) := by
  have hquery : (axfrQueryBytes == longReplyBytes strings) = false := by
    apply beq_false_of_ne
    intro h
    have hlength := congrArg List.length h
    rw [length_longReplyBytes hstrings] at hlength
    exact absurd hlength (by decide)
  have hsoa : (axfrSoaBytes == longReplyBytes strings) = false := by
    apply beq_false_of_ne
    intro h
    have hlength := congrArg List.length h
    rw [length_longReplyBytes hstrings] at hlength
    exact absurd hlength (by decide)
  have hboth : (axfrQueryBytes == axfrSoaBytes) = false := by decide
  constructor
  · constructor
    · simp [longMessages, MessageCodec.ofTable, List.find?_cons, hquery, hsoa, hboth]
    · have hlong := length_longReplyBytes hstrings
      have hfirst : 12 ≤ axfrQueryBytes.length := by decide
      have hsecond : 12 ≤ axfrSoaBytes.length := by decide
      simp [longMessages, hlong, hfirst, hsecond]
    · simp [longMessages, longReply, transferMessage, exampleAxfr, buildQuery]
  · have hfull : exampleSoaInFull 1 ≠ [] := by decide
    have hlong : longRecordBytes strings (toBeBytes 13 0x076578616d706c6503636f6d00) ≠ [] := by
      unfold longRecordBytes
      simp [toBeBytes]
    simp [longRecords, hfull, hlong]
  · simp [longMessages, longReply, transferMessage, exampleAxfr, buildQuery]

theorem recordLength_longRecord : recordLength (longCodec text strings) (longRecord text) = 16407 := by
  have hsoa : (exampleSoa 1 == longRecord text) = false := by
    apply beq_false_of_ne
    intro h
    have httl : (3600 : UInt32) = 300 := congrArg MessageRecord.ttl h
    exact absurd httl (by decide)
  have hlength : (longRecordBytes strings (toBeBytes 13 0x076578616d706c6503636f6d00)).length = 16407 := by
    unfold longRecordBytes
    simp only [List.length_append, length_toBeBytes, hstrings]
  simp [recordLength, longCodec, MessageCodec.ofMac, MessageCodec.ofTable, longRecords, List.find?_cons, hsoa, hlength]

omit hstrings in
theorem recordLength_soa : recordLength (longCodec text strings) (exampleSoa 1) = 79 := by
  have hlength : (exampleSoaInFull 1).length = 79 := by decide
  simp [recordLength, longCodec, MessageCodec.ofMac, MessageCodec.ofTable, longRecords, List.find?_cons, hlength]

/-- Each of the long records goes out by itself. -/
theorem chunksFrom_longRecord (n : Nat) :
    chunksFrom (longCodec text strings) [longRecord text] 16407 (List.replicate n (longRecord text) ++ [exampleSoa 1]) =
      List.replicate (n + 1) [longRecord text] ++ [[exampleSoa 1]] := by
  induction n with
  | zero => simp [chunksFrom, recordLength_soa, transferBudget]
  | succ n ih =>
    rw [List.replicate_succ, List.cons_append, chunksFrom, recordLength_longRecord hstrings, if_pos (by decide), ih]
    rfl

theorem transferChunks_longRecord (text : Text) (n : Nat) :
    transferChunks (longCodec text strings) (exampleSoa 1 :: List.replicate (n + 1) (longRecord text) ++ [exampleSoa 1]) =
      [exampleSoa 1] :: (List.replicate (n + 1) [longRecord text] ++ [[exampleSoa 1]]) := by
  unfold transferChunks
  rw [List.replicate_succ, List.cons_append, List.cons_append, chunksFrom, recordLength_soa, if_neg (by decide), chunksFrom,
    recordLength_longRecord hstrings, if_pos (by decide), chunksFrom_longRecord hstrings]
  rfl

omit hstrings in
theorem toVec_query : (longCodec text strings).toVec exampleAxfr = .ok axfrQueryBytes := by
  simp [longCodec, MessageCodec.ofMac, MessageCodec.ofTable, longMessages]

theorem fits_longReply {record : MessageRecord} (h : record = exampleSoa 1 ∨ record = longRecord text) :
    ∃ raw, (longCodec text strings).toVec (longReply record) = .ok raw ∧ raw.length < 65536 := by
  have hquery : ∀ record, (exampleAxfr == longReply record) = false := by
    intro record
    apply beq_false_of_ne
    intro hsame
    have hresponse : false = true := congrArg (fun message => message.metadata.response) hsame
    exact Bool.false_ne_true hresponse
  rcases h with rfl | rfl
  · refine ⟨axfrSoaBytes, ?_, by decide⟩
    simp [longCodec, MessageCodec.ofMac, MessageCodec.ofTable, longMessages, List.find?_cons, hquery]
  · have hsoa : (longReply (exampleSoa 1) == longReply (longRecord text)) = false := by
      apply beq_false_of_ne
      intro hsame
      have httl : [(3600 : UInt32)] = [300] := congrArg (fun message => message.answers.map MessageRecord.ttl) hsame
      exact absurd httl (by decide)
    refine ⟨longReplyBytes strings, ?_, ?_⟩
    · simp [longCodec, MessageCodec.ofMac, MessageCodec.ofTable, longMessages, List.find?_cons, hquery, hsoa]
    · rw [length_longReplyBytes hstrings]
      decide

omit hstrings in
theorem sendChunks_unsigned (server : TransferServer) (request : TransferRequest) (previousMac : Option Bytes) (sent : Nat)
    (chunks : List (List MessageRecord)) :
    sendChunks server request none previousMac sent chunks = chunks.map (transferMessage request) := by
  induction chunks generalizing sent with
  | nil => rfl
  | cons chunk rest ih =>
    rw [sendChunks, ih]
    rfl

def longServer (text : Text) (strings : Bytes) (count : Nat) : TransferServer where
  codec := longCodec text strings
  reader := .example
  settings := { AuthoritativeSettings.bindingExampleCom "foo" with tsigKeys := [], tsigTransferZones := [] }
  tsigKeys := []
  transferRecords name :=
    .ok (if name = "example.com" then some (exampleSoa 1, List.replicate count (longRecord text)) else none)
  clock _ := chainTime

def longClient (text : Text) (strings : Bytes) : XfrClient := ⟨longCodec text strings, none, fun _ _ => chainTime⟩

omit hstrings in
theorem longServer_serves (text : Text) (strings : Bytes) (count : Nat) :
    ServesTo (longServer text strings count) (longClient text strings) [192, 0, 2, 7] "example.com." (exampleSoa 1)
      (List.replicate count (longRecord text)) where
  codec := rfl
  enabled := rfl
  allowed := rfl
  serves := congrArg Except.ok (if_pos servedName_example)
  unbound _ := rfl
  bound _ h := nomatch h

theorem longServer_fits (text : Text) (n : Nat) :
    Fits (longServer text strings (n + 1)) (longClient text strings) (fun _ _ => chainTime) [192, 0, 2, 7]
      (buildQuery "example.com." "AXFR") (exampleSoa 1 :: List.replicate (n + 1) (longRecord text) ++ [exampleSoa 1]) := by
  have hchunk : ∀ chunk ∈ transferChunks (longCodec text strings)
      (exampleSoa 1 :: List.replicate (n + 1) (longRecord text) ++ [exampleSoa 1]),
      ∃ raw, (longCodec text strings).toVec (transferMessage exampleTransferRequest chunk) = .ok raw ∧ raw.length < 65536 := by
    intro chunk hchunk
    rw [transferChunks_longRecord hstrings text] at hchunk
    rcases List.mem_cons.mp hchunk with rfl | hchunk
    · exact fits_longReply hstrings (.inl rfl)
    · rcases List.mem_append.mp hchunk with hlong | hlast
      · rw [List.eq_of_mem_replicate hlong]
        exact fits_longReply hstrings (.inr rfl)
      · rw [List.mem_singleton.mp hlast]
        exact fits_longReply hstrings (.inl rfl)
  have hencode : encodeRequest (longClient text strings) (buildQuery "example.com." "AXFR") = .ok (axfrQueryBytes, none) := by
    have hquery : (longCodec text strings).toVec (buildQuery "example.com." "AXFR") = .ok axfrQueryBytes := toVec_query
    unfold encodeRequest longClient
    simp only [hquery]
    rfl
  constructor
  · exact ⟨_, _, hencode, by decide⟩
  · intro chunk hmem
    obtain ⟨raw, hraw, _⟩ := hchunk chunk hmem
    exact ⟨raw, hraw⟩
  · intro wire verifier message hwire hmessage reply hreply
    rw [hencode] at hwire
    cases hwire
    have hread := (longMessages_readable hstrings text).reads _ List.mem_cons_self
    obtain rfl := Except.ok.inj (hread.symm.trans hmessage)
    have hreplies := replies_unbound (longServer_serves text strings (n + 1)) rfl
      (rfl : (buildQuery "example.com." "AXFR").query.1 = "example.com.".toList) (fun _ _ => chainTime) axfrQueryBytes
    rw [sendChunks_unsigned] at hreplies
    change reply ∈ (longServer text strings (n + 1)).replies _ _ _ (buildQuery "example.com." "AXFR") at hreply
    rw [hreplies] at hreply
    obtain ⟨chunk, hmem, rfl⟩ := List.mem_map.mp hreply
    exact hchunk chunk hmem

end Long

def longText : Text := List.replicate 16320 'a'

/-- 64 strings of 255 letters, each behind its length. -/
def longStrings : Bytes := (List.replicate 64 (255 :: List.replicate 255 97)).flatten

theorem length_longStrings : longStrings.length = 16384 := by
  unfold longStrings
  rw [List.length_flatten, List.map_replicate, List.sum_replicate_nat, List.length_cons, List.length_replicate]

/-- A zone of more messages than the client reads is not received, and a message is not received
a second after its time. -/
theorem transfers_not_received :
    (¬ ∀ (server : TransferServer) (tsigFields : Text → Tsig → Bytes), server.codec.LawfulRequests tsigFields →
      ∀ (client : XfrClient) (clock : Text → Nat → UInt64) (address : List UInt8) (zone name : Text) (soa : MessageRecord)
        (records : List MessageRecord) (serial : UInt32), ServesTo server client address zone soa records →
        soa.soaSerial = some serial → (∀ record ∈ records, isSoa record = false) →
        Fits server client clock address (buildQuery zone "AXFR") (soa :: records ++ [soa]) →
        (∀ key, client.tsig = some key →
          InTime client clock "AXFR" (transferChunks server.codec (soa :: records ++ [soa])).length key) →
          axfrSigned client (server.master clock address name) zone = .ok (soa :: records ++ [soa])) ∧
    (¬ ∀ (server : TransferServer) (tsigFields : Text → Tsig → Bytes), server.codec.LawfulRequests tsigFields →
      ∀ (client : XfrClient) (clock : Text → Nat → UInt64) (address : List UInt8) (zone name : Text) (soa : MessageRecord)
        (records : List MessageRecord) (serial : UInt32), ServesTo server client address zone soa records →
        soa.soaSerial = some serial → (∀ record ∈ records, isSoa record = false) →
        Fits server client clock address (buildQuery zone "AXFR") (soa :: records ++ [soa]) →
        (transferChunks server.codec (soa :: records ++ [soa])).length ≤ maxMessages →
          axfrSigned client (server.master clock address name) zone = .ok (soa :: records ++ [soa])) := by
  constructor
  · intro h
    have hstrings := length_longStrings
    have hlawful : (longServer longText longStrings 65535).codec.LawfulRequests tsigVariables :=
      MessageCodec.ofMac_lawfulRequests (longMessages_readable hstrings longText)
    have hserves := longServer_serves longText longStrings 65535
    have hfits := longServer_fits hstrings longText 65534
    have hrecords : ∀ record ∈ List.replicate 65535 (longRecord longText), isSoa record = false := by
      intro record hrecord
      rw [List.eq_of_mem_replicate hrecord]
      rfl
    have hsoa : (exampleSoa 1).soaSerial = some 1 := rfl
    have hreceived := h _ tsigVariables hlawful _ (fun _ _ => chainTime) [192, 0, 2, 7] "example.com." "192.0.2.53:53"
      (exampleSoa 1) _ 1 hserves hsoa hrecords hfits (fun key hkey => nomatch hkey)
    have hcount : maxMessages < (transferChunks (longServer longText longStrings 65535).codec
        (exampleSoa 1 :: List.replicate 65535 (longRecord longText) ++ [exampleSoa 1])).length := by
      have hchunks := congrArg List.length (transferChunks_longRecord hstrings longText 65534)
      rw [List.length_cons, List.length_append, List.length_replicate, List.length_singleton] at hchunks
      exact Nat.lt_of_lt_of_eq (by decide) hchunks.symm
    obtain ⟨e, he⟩ := (axfr_exchange hlawful hserves hsoa hrecords hfits (fun key hkey => nomatch hkey)).2 hcount
    exact absurd (he.symm.trans hreceived) error_ne_ok
  · intro h
    have hreceived := h boundServer tsigVariables boundCodec_lawful (boundClient 301) (fun _ _ => chainTime) [192, 0, 2, 7]
      "example.com." "192.0.2.53:53" (exampleSoa 1) [exampleAddress "example.com."] 1 (boundServer_serves 301) rfl
      (by decide) (boundServer_fits 301) (by decide)
    revert hreceived
    decide +kernel

end DaygleDns.Authoritative
