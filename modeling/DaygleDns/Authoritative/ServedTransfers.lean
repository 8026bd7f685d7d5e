import DaygleDns.Authoritative.SignedStreams
import DaygleDns.Authoritative.TransferFacts

/-! Zone transfers as they are served: the groups of records, and that a client can read each
message of a transfer and end with it. -/
namespace DaygleDns.Authoritative

open Text Framing Fallible

/-- What requests rely on of the codec besides: records have bytes, signed messages count their
signature, and a request is verified by its own MAC within its time. -/
structure MessageCodec.LawfulRequests (codec : MessageCodec) (tsigFields : Text → Tsig → Bytes) : Prop
    extends codec.Lawful tsigFields where
  recordBytes {record : MessageRecord} {bytes : Bytes} : codec.recordToBytes record = .ok bytes → bytes ≠ []
  additionals {message : Message} {raw : Bytes} : codec.toVec message = .ok raw → message.signature.isSome = true →
    hasAdditionals raw = true
  macs (key : TsigKey) (data : Bytes) : ∃ mac, codec.macData key.algorithm key.secret data = .ok mac
  contexts (context : TSigResponseContext) (body : Bytes) : ∃ record, codec.signInContext context body = .ok record
  /-- The fields of a signature that are signed are not its MAC. -/
  fieldsOfMac (name : Text) (tsig : Tsig) (mac : Bytes) : tsigFields name { tsig with mac := mac } = tsigFields name tsig
  requestTbs {message : Message} {tsig : Tsig} {name : Text} {tbs : Bytes} :
    codec.messageTbs message tsig name = .ok tbs → ∃ body, codec.toVec message = .ok body ∧ tbs = body ++ tsigFields name tsig
  verifiesBytes {key : TsigKey} {raw tbs : Bytes} {record : TsigRecord} :
    codec.signedBitmessageToBuf raw true = .ok (tbs, record) → record.name = key.name →
    record.data.algorithm = key.algorithm → codec.verifyMac key.algorithm key.secret tbs record.data.mac = true →
    ∃ window, codec.verifyMessageByte key raw = .ok window ∧ ∀ now : UInt64,
      record.data.time.toNat ≤ now.toNat + record.data.fudge.toNat →
      now.toNat < record.data.time.toNat + record.data.fudge.toNat → window now = true

/-- A table whose records have bytes and whose signed messages count their signature. -/
structure Requestable (records : List (MessageRecord × Bytes)) (messages : List (Message × Bytes)) : Prop
    extends Readable records messages where
  recordBytes : ∀ entry ∈ records, entry.2 ≠ []
  additionals : ∀ entry ∈ messages, entry.1.signature.isSome = true → hasAdditionals entry.2 = true

theorem mem_of_recordToBytes {records : List (MessageRecord × Bytes)} (messages : List (Message × Bytes))
    {record : MessageRecord} {bytes : Bytes} (h : (MessageCodec.ofTable records messages).recordToBytes record = .ok bytes) :
    (record, bytes) ∈ records := by
  unfold MessageCodec.ofTable at h
  dsimp only at h
  split at h
  next entry hentry =>
    cases h
    have hsame : entry.1 = record := by simpa using List.find?_some hentry
    rw [← hsame]
    exact List.mem_of_find?_eq_some hentry
  next => cases h

theorem MessageCodec.ofMac_lawfulRequests {records : List (MessageRecord × Bytes)} {messages : List (Message × Bytes)}
    {mac : TsigAlgorithm → Bytes → Bytes → Bytes} (htable : Requestable records messages) :
    (MessageCodec.ofMac records messages mac).LawfulRequests tsigVariables where
  toLawful := MessageCodec.ofMac_lawful htable.toReadable
  recordBytes h := htable.recordBytes _ (mem_of_recordToBytes messages h)
  additionals h := htable.additionals _ (mem_of_toVec records h)
  macs _ _ := ⟨_, rfl⟩
  contexts _ _ := ⟨_, rfl⟩
  fieldsOfMac _ _ _ := rfl
  requestTbs {message tsig name tbs} h := by
    change ((MessageCodec.ofTable records messages).toVec message).map _ = _ at h
    change ∃ body, (MessageCodec.ofTable records messages).toVec message = _ ∧ _
    cases hbody : (MessageCodec.ofTable records messages).toVec message with
    | error e =>
      rw [hbody] at h
      cases h
    | ok body =>
      rw [hbody] at h
      cases h
      exact ⟨body, rfl, rfl⟩
  verifiesBytes {key raw tbs record} hparts hname halgorithm hmac := by
    have hmac : mac key.algorithm key.secret tbs = record.data.mac := by simpa [ofMac] using hmac
    refine ⟨fun now => decide (record.data.time.toNat ≤ now.toNat + record.data.fudge.toNat) &&
      decide (now.toNat < record.data.time.toNat + record.data.fudge.toNat), ?_, ?_⟩
    · have hparts' : (MessageCodec.ofTable records messages).signedParts raw true = .ok (tbs, record) := hparts
      simp [ofMac, hparts', hname, halgorithm, hmac]
    · intro now hafter hbefore
      simp [hafter, hbefore]

section Chunks

variable {codec : MessageCodec} {tsigFields : Text → Tsig → Bytes} {chunk rest answers : List MessageRecord} {size : Nat}

def chunkLength (codec : MessageCodec) (chunk : List MessageRecord) : Nat := (chunk.map (recordLength codec)).sum

theorem recordLength_pos (hcodec : codec.LawfulRequests tsigFields) (record : MessageRecord) : 0 < recordLength codec record := by
  unfold recordLength
  split
  next bytes hbytes => exact List.length_pos_iff.mpr (hcodec.recordBytes hbytes)
  next => decide

theorem flatten_chunksFrom : (chunksFrom codec chunk size rest).flatten = chunk ++ rest := by
  induction rest generalizing chunk size with
  | nil =>
    unfold chunksFrom
    cases chunk <;> simp
  | cons record rest ih =>
    unfold chunksFrom
    split
    · rw [List.flatten_cons, ih, List.singleton_append]
    · rw [ih, List.append_assoc, List.singleton_append]

theorem flatten_transferChunks (codec : MessageCodec) (answers : List MessageRecord) :
    (transferChunks codec answers).flatten = answers :=
  flatten_chunksFrom

theorem nonempty_of_chunksFrom (h : chunk = [] → size = 0) : ∀ group ∈ chunksFrom codec chunk size rest, group ≠ [] := by
  induction rest generalizing chunk size with
  | nil =>
    unfold chunksFrom
    cases chunk <;> simp
  | cons record rest ih =>
    unfold chunksFrom
    split
    next hfull =>
      intro group hgroup
      rcases List.mem_cons.mp hgroup with rfl | hlater
      · intro hnil
        rw [h hnil] at hfull
        simp at hfull
      · exact ih (fun hnil => absurd hnil (List.cons_ne_nil _ _)) group hlater
    next => exact ih (fun hnil => absurd hnil (by simp))

theorem nonempty_of_transferChunks : ∀ group ∈ transferChunks codec answers, group ≠ [] :=
  nonempty_of_chunksFrom fun _ => rfl

theorem small_of_chunksFrom (hcodec : codec.LawfulRequests tsigFields) (hsize : size = chunkLength codec chunk)
    (h : chunk.length ≤ 1 ∨ size ≤ transferBudget) :
    ∀ group ∈ chunksFrom codec chunk size rest, group.length ≤ 1 ∨ chunkLength codec group ≤ transferBudget := by
  induction rest generalizing chunk size with
  | nil =>
    unfold chunksFrom
    intro group hgroup
    split at hgroup
    · cases hgroup
    · rw [List.mem_singleton.mp hgroup, ← hsize]
      exact h
  | cons record rest ih =>
    unfold chunksFrom
    split
    next =>
      intro group hgroup
      rcases List.mem_cons.mp hgroup with rfl | hlater
      · rw [← hsize]
        exact h
      · exact ih (by simp [chunkLength]) (.inl (Nat.le_refl _)) group hlater
    next hroom =>
      apply ih
      · rw [hsize]
        simp [chunkLength]
      · cases chunk with
        | nil => exact .inl (Nat.le_refl _)
        | cons first others =>
          have hpos := recordLength_pos hcodec first
          have hfilled : 0 < size := by
            rw [hsize, chunkLength, List.map_cons, List.sum_cons]
            omega
          simp only [Bool.and_eq_true, decide_eq_true_eq, not_and, Nat.not_lt] at hroom
          exact .inr (hroom hfilled)

theorem small_of_transferChunks (hcodec : codec.LawfulRequests tsigFields) :
    ∀ group ∈ transferChunks codec answers, group.length ≤ 1 ∨ chunkLength codec group ≤ transferBudget :=
  small_of_chunksFrom hcodec rfl (.inl (Nat.zero_le _))

end Chunks

/-- A client can read these messages one after the other, and end with any of them. -/
def Reads (codec : MessageCodec) (master : Master) (clock : Nat → UInt64) : Option ResponseVerifier → Nat → List Message → Prop
  | _, _, [] => True
  | verifier, read, message :: rest => ∃ raw after, codec.toVec message = .ok raw ∧ raw.length < 65536 ∧
      verifyReply codec master verifier raw (clock (read + 1)) = .ok after ∧ (∀ last ∈ after, last.finish = .ok ()) ∧
      checkReply master message = .ok () ∧ Reads codec master clock after (read + 1) rest

theorem reads_append {codec : MessageCodec} {master : Master} {clock : Nat → UInt64} {verifier : Option ResponseVerifier}
    {read : Nat} {messages later : List Message} (h : Reads codec master clock verifier read (messages ++ later)) :
    Reads codec master clock verifier read messages := by
  induction messages generalizing verifier read with
  | nil => trivial
  | cons message rest ih =>
    obtain ⟨raw, after, hraw, hlength, hverify, hfinish, hcheck, hrest⟩ := h
    exact ⟨raw, after, hraw, hlength, hverify, hfinish, hcheck, ih hrest⟩

section Sent

variable {server : TransferServer} {request : TransferRequest} {tsigFields : Text → Tsig → Bytes} {master : Master}
  {clock : Nat → UInt64}

/-- When a message is signed: the first one as the request is verified. -/
def signedAt (clock : Nat → UInt64) (sent : Nat) : UInt64 := if sent = 0 then clock 0 else clock (sent + 1)

theorem checkReply_transferMessage (hopen : request.metadata.truncation = false) (chunk : List MessageRecord)
    (signature : Option TsigRecord) :
    checkReply master { transferMessage request chunk with signature := signature } = .ok () := by
  simp [checkReply, transferMessage, noError, hopen]

theorem chunkSignature_context {key : TsigKey} {context : TSigResponseContext} {previousMac : Option Bytes} {tbs : Bytes}
    {sent : Nat} (hcontext : context.requestId = request.metadata.id ∧ context.time = server.clock 0 ∧ context.signer = key)
    (hfirst : previousMac.isNone = true ↔ sent = 0) :
    chunkSignature server.codec key context previousMac tbs request.metadata.id (server.clock (sent + 1)) =
      chunkSignature server.codec key ⟨request.metadata.id, signedAt server.clock sent, key, context.requestMac⟩ previousMac tbs
        request.metadata.id (signedAt server.clock sent) := by
  unfold signedAt
  cases previousMac with
  | none =>
    rw [if_pos (hfirst.mp rfl)]
    obtain ⟨hid, htime, hsigner⟩ := hcontext
    rw [← hid, ← htime, ← hsigner]
    rfl
  | some mac =>
    have hlater : ¬ sent = 0 := fun hzero => Bool.false_ne_true (hfirst.mpr hzero)
    rw [if_neg hlater]
    rfl

theorem reads_unsigned (hopen : request.metadata.truncation = false) (chunks : List (List MessageRecord))
    {previousMac : Option Bytes} {sent read : Nat}
    (hfits : ∀ message ∈ sendChunks server request none previousMac sent chunks,
      ∃ raw, server.codec.toVec message = .ok raw ∧ raw.length < 65536) :
    Reads server.codec master clock none read (sendChunks server request none previousMac sent chunks) ∧
      (sendChunks server request none previousMac sent chunks).map Message.answers = chunks := by
  induction chunks generalizing sent read with
  | nil => exact ⟨trivial, rfl⟩
  | cons chunk rest ih =>
    rw [sendChunks] at hfits ⊢
    obtain ⟨raw, hraw, hlength⟩ := hfits _ List.mem_cons_self
    obtain ⟨hreads, hanswers⟩ := ih (fun message hmessage => hfits message (List.mem_cons_of_mem _ hmessage))
    refine ⟨⟨raw, none, hraw, hlength, rfl, by simp, ?_, hreads⟩, ?_⟩
    · exact checkReply_transferMessage hopen chunk none
    · rw [List.map_cons, hanswers]
      rfl

theorem chunkSignature_ok (hcodec : server.codec.LawfulRequests tsigFields) (key : TsigKey) (context : TSigResponseContext)
    (previousMac : Option Bytes) (tbs : Bytes) (id : UInt16) (now : UInt64) :
    ∃ signature, chunkSignature server.codec key context previousMac tbs id now = .ok signature := by
  cases previousMac with
  | none => exact hcodec.contexts context tbs
  | some mac =>
    obtain ⟨next, hnext⟩ := hcodec.macs key (subsequentTbs mac tbs now key.fudge)
    unfold chunkSignature signSubsequent
    simp only [hnext, Except.mapError, ok_bind]
    exact ⟨_, rfl⟩

/-- Each signed message is read by a verifier that has come as far as the signatures. -/
theorem reads_signed (server : TransferServer) (request : TransferRequest)
    (hcodec : server.codec.LawfulRequests tsigFields) (hopen : request.metadata.truncation = false)
    {key : TsigKey} {context : TSigResponseContext}
    (hcontext : context.requestId = request.metadata.id ∧ context.time = server.clock 0 ∧ context.signer = key)
    (chunks : List (List MessageRecord)) {previousMac : Option Bytes} {sent : Nat} {verifier : ResponseVerifier}
    (hfirst : previousMac.isNone = true ↔ sent = 0) (hstep : InStep key context.requestMac previousMac verifier)
    (hencodes : ∀ chunk ∈ chunks, ∃ raw, server.codec.toVec (transferMessage request chunk) = .ok raw)
    (hfits : ∀ message ∈ sendChunks server request (some (key, context)) previousMac sent chunks,
      ∃ raw, server.codec.toVec message = .ok raw ∧ raw.length < 65536)
    (htime : ∀ later < sent + chunks.length,
      ResponseVerifier.absDiff (clock (later + 1)) (signedAt server.clock later) ≤ key.fudge.toUInt64) :
    Reads server.codec master clock (some verifier) sent
        (sendChunks server request (some (key, context)) previousMac sent chunks) ∧
      (sendChunks server request (some (key, context)) previousMac sent chunks).map Message.answers = chunks := by
  induction chunks generalizing previousMac sent verifier with
  | nil => exact ⟨trivial, rfl⟩
  | cons chunk rest ih =>
    obtain ⟨body, hbody⟩ := hencodes chunk List.mem_cons_self
    obtain ⟨signature, hsignature⟩ :=
      chunkSignature_ok hcodec key context previousMac body request.metadata.id (server.clock (sent + 1))
    rw [sendChunks] at hfits ⊢
    simp only [hbody, hsignature] at hfits ⊢
    obtain ⟨raw, hraw, hlength⟩ := hfits _ List.mem_cons_self
    have hnow := htime sent (by simp)
    rw [chunkSignature_context hcontext hfirst] at hsignature
    have hid : (transferMessage request chunk).metadata.id = request.metadata.id := rfl
    rw [← hid] at hsignature
    obtain ⟨after, hverify, hnext⟩ := verify_signed hcodec.toLawful hstep rfl hbody hsignature hraw hnow
    have hlater : (some signature.data.mac).isNone = true ↔ sent + 1 = 0 := by simp
    obtain ⟨hreads, hanswers⟩ := ih hlater hnext (fun other hother => hencodes other (List.mem_cons_of_mem _ hother))
      (fun message hmessage => hfits message (List.mem_cons_of_mem _ hmessage))
      (fun later hlt => htime later (by rw [List.length_cons]; omega))
    refine ⟨⟨raw, some after, hraw, hlength, ?_, ?_, ?_, hreads⟩, ?_⟩
    · simp only [verifyReply, hverify]
      rfl
    · intro last hlast
      cases hlast
      exact ResponseVerifier.finish_eq_ok.mpr ⟨hnext.first, hnext.unsignedCount⟩
    · exact checkReply_transferMessage hopen chunk (some signature)
    · rw [List.map_cons, hanswers]
      rfl

end Sent

end DaygleDns.Authoritative
