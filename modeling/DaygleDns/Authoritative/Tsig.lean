import DaygleDns.Authoritative.Update
import DaygleDns.Framing

/-! TSIG: messages signed with a shared key, each reply chained from the MAC of
the message before it. -/
namespace DaygleDns.Authoritative

open Text Framing

/-- A record of a message; `name` is in its ASCII form. -/
structure MessageRecord where
  name : Text
  data : RData
  ttl : UInt32
deriving DecidableEq

def MessageRecord.recordType (record : MessageRecord) : RecordType := record.data.recordType

/-- The serial of a record that carries SOA data. -/
def MessageRecord.soaSerial (record : MessageRecord) : Option UInt32 :=
  match record.data with
  | .soa soa _ => some soa.serial
  | _ => none

inductive TsigAlgorithm where
  | hmacSha256
  | hmacSha384
  | hmacSha512
  | unknown (name : Text)
deriving DecidableEq

def TsigAlgorithm.supported : TsigAlgorithm → Bool
  | .unknown _ => false
  | _ => true

/-- `time` in seconds; `error` none where the record reports no error. -/
structure Tsig where
  algorithm : TsigAlgorithm
  time : UInt64
  fudge : UInt16
  mac : Bytes
  originalId : UInt16
  error : Option UInt16
  other : Bytes
deriving DecidableEq

structure TsigRecord where
  name : Text
  data : Tsig
deriving DecidableEq

structure Metadata where
  id : UInt16
  response : Bool
  responseCode : Nat
  authoritative : Bool
  truncation : Bool
  recursionAvailable : Bool
deriving DecidableEq

structure Message where
  metadata : Metadata
  query : Text × Text
  answers : List MessageRecord
  authorities : List MessageRecord
  signature : Option TsigRecord
deriving DecidableEq

def Message.unsigned (message : Message) : Message := { message with signature := none }

/-- A key as the configuration gives it: only supported algorithms load. -/
structure TsigKey where
  name : Text
  algorithm : TsigAlgorithm
  secret : Bytes
  fudge : UInt16
  supported : algorithm.supported = true
deriving DecidableEq

structure TSigResponseContext where
  requestId : UInt16
  time : UInt64
  signer : TsigKey
  requestMac : Bytes

/-- What Hickory does for this program: records and messages to bytes and back,
the MACs, and the signatures of requests and first replies. -/
structure MessageCodec where
  recordToBytes : MessageRecord → Except Text Bytes
  toVec : Message → Except Text Bytes
  fromVec : Bytes → Except Text Message
  macData : TsigAlgorithm → Bytes → Bytes → Except Text Bytes
  verifyMac : TsigAlgorithm → Bytes → Bytes → Bytes → Bool
  messageTbs : Message → Tsig → Text → Except Text Bytes
  signedBitmessageToBuf : Bytes → Bool → Except Text (Bytes × TsigRecord)
  verifyMessageByte : TsigKey → Bytes → Except Text (UInt64 → Bool)
  signInContext : TSigResponseContext → Bytes → Except Text TsigRecord

/-- A codec that knows these records and messages and no key. -/
def MessageCodec.ofTable (records : List (MessageRecord × Bytes)) (messages : List (Message × Bytes)) :
    MessageCodec where
  recordToBytes record := match records.find? fun entry => entry.1 == record with
    | some entry => .ok entry.2
    | none => .error "unknown record"
  toVec message := match messages.find? fun entry => entry.1 == message with
    | some entry => .ok entry.2
    | none => .error "unknown message"
  fromVec raw := match messages.find? fun entry => entry.2 == raw with
    | some entry => .ok entry.1
    | none => .error "unknown message"
  macData _ _ _ := .error "unsupported"
  verifyMac _ _ _ _ := false
  messageTbs _ _ _ := .error "unsupported"
  signedBitmessageToBuf _ _ := .error "unsupported"
  verifyMessageByte _ _ := .error "unsupported"
  signInContext _ _ := .error "unsupported"

inductive TsigFailure where
  | unknownKey
  | badSignature
  | badTime
  | malformed
deriving DecidableEq

inductive TsigVerification where
  | valid (key : TsigKey) (context : TSigResponseContext)
  | invalid (failure : TsigFailure)
  | unsigned

/-- Whether the header of a message counts additional records. -/
def hasAdditionals (raw : Bytes) : Bool :=
  raw[10]?.getD 0 != 0 || raw[11]?.getD 0 != 0

/-- `verify_request` at the clock reading `now`. -/
def verifyRequest (codec : MessageCodec) (keyRing : List TsigKey) (raw : Bytes) (requestId : UInt16)
    (now : UInt64) : TsigVerification :=
  if raw.length < 12 then .invalid .malformed
  else if !hasAdditionals raw then .unsigned
  else match (codec.fromVec raw).toOption.bind Message.signature with
    | none => .invalid .malformed
    | some tsig =>
      match keyRing.find? fun key => key.name == toAsciiLowercase tsig.name with
      | none => .invalid .unknownKey
      | some key =>
        match codec.verifyMessageByte key raw with
        | .error _ => .invalid .badSignature
        | .ok window =>
          if !window now then .invalid .badTime
          else match codec.signedBitmessageToBuf raw true with
            | .error _ => .invalid .malformed
            | .ok (_, record) => .valid key ⟨requestId, now, key, record.data.mac⟩

/-- `u64::to_be_bytes` without the two bytes on top. -/
def be48 (time : UInt64) : Bytes := toBeBytes 6 time.toNat

/-- The signed request and its MAC. -/
def signRequestWithMac (codec : MessageCodec) (message : Message) (key : TsigKey) (now : UInt64) :
    Except Text (Bytes × Bytes) := do
  let preTsig : Tsig := ⟨key.algorithm, now, key.fudge, [], message.metadata.id, none, []⟩
  let tbs ← (codec.messageTbs message preTsig key.name).mapError ("tsig request tbs failed: " ++ ·)
  let mac ← (codec.macData key.algorithm key.secret tbs).mapError ("tsig request mac failed: " ++ ·)
  let signed := { message with signature := some ⟨key.name, { preTsig with mac }⟩ }
  let wire ← (codec.toVec signed).mapError ("tsig request encoding failed: " ++ ·)
  pure (wire, mac)

def subsequentTbs (previousMac data : Bytes) (time : UInt64) (fudge : UInt16) : Bytes :=
  be16 previousMac.length ++ previousMac ++ data ++ be48 time ++ be16 fudge.toNat

/-- The TSIG of the second or a later message of a response. -/
def signSubsequent (codec : MessageCodec) (key : TsigKey) (previousMac body : Bytes)
    (originalId : UInt16) (now : UInt64) : Except Text TsigRecord := do
  let tbs := subsequentTbs previousMac body now key.fudge
  let mac ← (codec.macData key.algorithm key.secret tbs).mapError ("tsig response mac failed: " ++ ·)
  pure ⟨key.name, ⟨key.algorithm, now, key.fudge, mac, originalId, none, []⟩⟩

structure ResponseVerifier where
  key : TsigKey
  previousMac : Bytes
  first : Bool
  unsigned : Bytes
  unsignedCount : Nat

namespace ResponseVerifier

def start (key : TsigKey) (requestMac : Bytes) : ResponseVerifier := ⟨key, requestMac, true, [], 0⟩

/-- `abs_diff` of two clock readings. -/
def absDiff (a b : UInt64) : UInt64 := if a < b then b - a else a - b

/-- A message without a TSIG, to be covered by a later signature. -/
def verifyUnsigned (verifier : ResponseVerifier) (raw : Bytes) : Except Text ResponseVerifier :=
  if verifier.first then .error "the response is not TSIG-signed"
  else if 100 ≤ verifier.unsignedCount + 1 then .error "more than 99 unsigned messages in a row"
  else .ok { verifier with
    unsigned := verifier.unsigned ++ raw
    unsignedCount := verifier.unsignedCount + 1 }

def verifySigned (codec : MessageCodec) (verifier : ResponseVerifier) (raw : Bytes) (now : UInt64) :
    Except Text ResponseVerifier := do
  let (body, record) ← (codec.signedBitmessageToBuf raw verifier.first).mapError
    ("malformed TSIG: " ++ ·)
  if record.name ≠ verifier.key.name then
    throw ("response signed with another key (" ++ record.name ++ ")")
  if let some error := record.data.error then
    throw ("the server reported TSIG error " ++ ofNat error.toNat)
  let tbs := be16 verifier.previousMac.length ++ verifier.previousMac ++ verifier.unsigned ++ body
  if !codec.verifyMac verifier.key.algorithm verifier.key.secret tbs record.data.mac then
    throw ("TSIG signature does not verify" : Text)
  if record.data.fudge.toUInt64 < absDiff now record.data.time then
    throw ("TSIG time " ++ ofNat record.data.time.toNat ++ " is outside the accepted window (now " ++
      ofNat now.toNat ++ ")")
  pure { verifier with previousMac := record.data.mac, first := false, unsigned := [], unsignedCount := 0 }

def verify (codec : MessageCodec) (verifier : ResponseVerifier) (raw : Bytes) (now : UInt64) :
    Except Text ResponseVerifier := do
  let message ← (codec.fromVec raw).mapError ("cannot decode response: " ++ ·)
  if message.signature.isNone then verifier.verifyUnsigned raw
  else verifier.verifySigned codec raw now

def finish (verifier : ResponseVerifier) : Except Text Unit :=
  if verifier.first || 0 < verifier.unsignedCount then
    .error "the response does not end with a TSIG-signed message"
  else .ok ()

end ResponseVerifier

end DaygleDns.Authoritative
