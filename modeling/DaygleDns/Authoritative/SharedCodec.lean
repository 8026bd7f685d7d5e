import DaygleDns.Authoritative.TransferServer

/-! What the two sides of an exchange rely on of the codec they share, and a codec that keeps
to it: a table of messages, with signatures over any MAC function. -/
namespace DaygleDns.Authoritative

open Text Framing Fallible

/-- The codec reads what it writes, and a signature covers the message without it and `tsigFields`
of the signature, behind a first message only its times. -/
structure MessageCodec.Lawful (codec : MessageCodec) (tsigFields : Text → Tsig → Bytes) : Prop where
  reads {message : Message} {raw : Bytes} : codec.toVec message = .ok raw → codec.fromVec raw = .ok message
  header {message : Message} {raw : Bytes} : codec.fromVec raw = .ok message → 12 ≤ raw.length
  /-- The length of a MAC is sent in two bytes. -/
  macSize {raw body : Bytes} {first : Bool} {record : TsigRecord} :
    codec.signedBitmessageToBuf raw first = .ok (body, record) → record.data.mac.length < 65536
  macVerifies {algorithm : TsigAlgorithm} {secret data mac : Bytes} :
    codec.macData algorithm secret data = .ok mac → codec.verifyMac algorithm secret data mac = true
  covers {message : Message} {body raw : Bytes} {record : TsigRecord} (first : Bool) :
    message.signature = none → message.metadata.id = record.data.originalId → codec.toVec message = .ok body →
    codec.toVec { message with signature := some record } = .ok raw →
    codec.signedBitmessageToBuf raw first =
      .ok (body ++ if first then tsigFields record.name record.data
        else be48 record.data.time ++ be16 record.data.fudge.toNat, record)
  signsInContext {context : TSigResponseContext} {body : Bytes} {record : TsigRecord} :
    codec.signInContext context body = .ok record →
    ∃ mac, record = ⟨context.signer.name,
        ⟨context.signer.algorithm, context.time, context.signer.fudge, mac, context.requestId, none, []⟩⟩ ∧
      codec.macData context.signer.algorithm context.signer.secret
        (be16 context.requestMac.length ++ context.requestMac ++ body ++ tsigFields record.name record.data) = .ok mac

/-! A codec by its tables. -/

def wireName (name : Text) : Bytes :=
  (name.splitOn '.').flatMap fun label => UInt8.ofNat label.length :: label.map fun c => UInt8.ofNat c.toNat

def TsigAlgorithm.name : TsigAlgorithm → Text
  | .hmacSha256 => "hmac-sha256.".toList
  | .hmacSha384 => "hmac-sha384.".toList
  | .hmacSha512 => "hmac-sha512.".toList
  | .unknown name => name

/-- What is signed of a TSIG record with a first message. -/
def tsigVariables (name : Text) (tsig : Tsig) : Bytes :=
  wireName name ++ be16 255 ++ toBeBytes 4 0 ++ wireName tsig.algorithm.name ++ be48 tsig.time ++
    be16 tsig.fudge.toNat ++ be16 (tsig.error.getD 0).toNat ++ be16 tsig.other.length ++ tsig.other

/-- The signature of a message as read, and what it signs of the message. -/
def MessageCodec.signedParts (codec : MessageCodec) (raw : Bytes) (first : Bool) : Except Text (Bytes × TsigRecord) := do
  let message ← codec.fromVec raw
  let some record := message.signature | throw "no signature".toList
  let body ← codec.toVec message.unsigned
  pure (body ++ if first then tsigVariables record.name record.data
    else be48 record.data.time ++ be16 record.data.fudge.toNat, record)

def TSigResponseContext.stub (context : TSigResponseContext) : Tsig :=
  ⟨context.signer.algorithm, context.time, context.signer.fudge, [], context.requestId, none, []⟩

def MessageCodec.ofMac (records : List (MessageRecord × Bytes)) (messages : List (Message × Bytes))
    (mac : TsigAlgorithm → Bytes → Bytes → Bytes) : MessageCodec :=
  let table := MessageCodec.ofTable records messages
  { table with
    macData := fun algorithm secret data => .ok (mac algorithm secret data)
    verifyMac := fun algorithm secret data given => mac algorithm secret data == given
    messageTbs := fun message tsig name => (table.toVec message).map fun body => body ++ tsigVariables name tsig
    signedBitmessageToBuf := table.signedParts
    verifyMessageByte := fun key raw => do
      let (tbs, record) ← table.signedParts raw true
      if record.name ≠ key.name ∨ record.data.algorithm ≠ key.algorithm ∨
          mac key.algorithm key.secret tbs ≠ record.data.mac then
        throw "wrong signature".toList
      pure fun now => decide (record.data.time.toNat ≤ now.toNat + record.data.fudge.toNat) &&
        decide (now.toNat < record.data.time.toNat + record.data.fudge.toNat)
    signInContext := fun context body =>
      .ok ⟨context.signer.name, { context.stub with
        mac := mac context.signer.algorithm context.signer.secret
          (be16 context.requestMac.length ++ context.requestMac ++ body ++
            tsigVariables context.signer.name context.stub) }⟩ }

/-- A table from which messages can be read back. -/
structure Readable (records : List (MessageRecord × Bytes)) (messages : List (Message × Bytes)) : Prop where
  reads : ∀ entry ∈ messages, (MessageCodec.ofTable records messages).fromVec entry.2 = .ok entry.1
  header : ∀ entry ∈ messages, 12 ≤ entry.2.length
  macSize : ∀ entry ∈ messages, ∀ record ∈ entry.1.signature, record.data.mac.length < 65536

section OfMac

variable {records : List (MessageRecord × Bytes)} {messages : List (Message × Bytes)}
  {mac : TsigAlgorithm → Bytes → Bytes → Bytes}

theorem mem_of_toVec (records : List (MessageRecord × Bytes)) {message : Message} {raw : Bytes}
    (h : (MessageCodec.ofTable records messages).toVec message = .ok raw) :
    (message, raw) ∈ messages := by
  unfold MessageCodec.ofTable at h
  dsimp only at h
  split at h
  next entry hentry =>
    cases h
    have hsame : entry.1 = message := by simpa using List.find?_some hentry
    rw [← hsame]
    exact List.mem_of_find?_eq_some hentry
  next => cases h

theorem mem_of_fromVec (records : List (MessageRecord × Bytes)) {message : Message} {raw : Bytes}
    (h : (MessageCodec.ofTable records messages).fromVec raw = .ok message) :
    (message, raw) ∈ messages := by
  unfold MessageCodec.ofTable at h
  dsimp only at h
  split at h
  next entry hentry =>
    cases h
    have hsame : entry.2 = raw := by simpa using List.find?_some hentry
    rw [← hsame]
    exact List.mem_of_find?_eq_some hentry
  next => cases h

/-- The parts of a signed message that the table holds, with the message unsigned. -/
theorem signedParts_eq (htable : Readable records messages) {message : Message} {body raw : Bytes} {record : TsigRecord}
    (hunsigned : message.signature = none) (hbody : (MessageCodec.ofTable records messages).toVec message = .ok body)
    (hraw : (MessageCodec.ofTable records messages).toVec { message with signature := some record } = .ok raw)
    (first : Bool) :
    (MessageCodec.ofTable records messages).signedParts raw first =
      .ok (body ++ if first then tsigVariables record.name record.data
        else be48 record.data.time ++ be16 record.data.fudge.toNat, record) := by
  have hread := htable.reads _ (mem_of_toVec records hraw)
  have hsame : ({ message with signature := some record } : Message).unsigned = message := by
    cases message
    cases hunsigned
    rfl
  simp only [MessageCodec.signedParts, hread, ok_bind, hsame, hbody, pure_eq]

theorem signature_of_signedParts {raw body : Bytes} {first : Bool} {record : TsigRecord}
    (h : (MessageCodec.ofTable records messages).signedParts raw first = .ok (body, record)) :
    ∃ message, (message, raw) ∈ messages ∧ message.signature = some record := by
  unfold MessageCodec.signedParts at h
  obtain ⟨message, hmessage, hrest⟩ := bind_eq_ok.mp h
  refine ⟨message, mem_of_fromVec records hmessage, ?_⟩
  cases hsignature : message.signature with
  | none =>
    rw [hsignature] at hrest
    cases hrest
  | some found =>
    rw [hsignature] at hrest
    obtain ⟨_, _, hparts⟩ := bind_eq_ok.mp hrest
    cases hparts
    rfl

theorem MessageCodec.ofMac_lawful (htable : Readable records messages) :
    (MessageCodec.ofMac records messages mac).Lawful tsigVariables where
  reads h := htable.reads _ (mem_of_toVec records h)
  header h := htable.header _ (mem_of_fromVec records h)
  macSize h := by
    obtain ⟨message, hmem, hsignature⟩ := signature_of_signedParts h
    exact htable.macSize _ hmem _ hsignature
  macVerifies h := by
    cases h
    exact beq_self_eq_true _
  covers first hunsigned _ hbody hraw := signedParts_eq htable hunsigned hbody hraw first
  signsInContext h := by
    cases h
    exact ⟨_, rfl, rfl⟩

end OfMac

end DaygleDns.Authoritative
