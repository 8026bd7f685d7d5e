import DaygleDns.Authoritative.Tsig

/-! The zone-transfer client: requests over TCP, and when it takes the replies
to a request as complete. -/
namespace DaygleDns.Authoritative

open Text Framing

/-- A master by its address: the failure to connect to it, and the bytes it
sends in answer to a request until it stops or is too late. -/
structure Master where
  address : Text
  connect : Option DaygleError
  answer : Bytes → Except DaygleError Bytes

/-- The client's side: the codec, the key, and for each type of request the
clock as it signs the request and as it reads each reply to it. -/
structure XfrClient where
  codec : MessageCodec
  tsig : Option TsigKey
  clock : Text → Nat → UInt64

/-- What the loop over the replies has read so far. -/
structure Exchange where
  unread : Bytes
  verifier : Option ResponseVerifier
  allAnswers : List MessageRecord
  startSoaSerial : Option UInt32
  messages : Nat

def noError : Nat := 0

def maxMessages : Nat := 65535

def buildQuery (zone rtype : Text) : Message where
  metadata := ⟨0, false, noError, false, false, false⟩
  query := (zone, rtype)
  answers := []
  authorities := []
  signature := none

/-- The display form of a record that carries only a serial is never read. -/
def soaRecord (zone : Text) (serial : UInt32) : MessageRecord where
  name := zone
  data := .soa ⟨zone, zone, serial, 3600, 600, 86400, 3600⟩ []
  ttl := 3600

/-- The next reply of a stream, with what is left behind it. -/
def readMessage (codec : MessageCodec) (stream : Bytes) :
    Except DaygleError (Bytes × Message × Bytes) := do
  let some (length, stream) := readLength stream | throw (.proto "read length")
  let some (body, stream) := readExact length stream | throw (.proto "read message")
  let message ← (codec.fromVec body).mapError fun e => .proto ("decode message: " ++ e)
  pure (body, message, stream)

def isSoa (record : MessageRecord) : Bool := record.recordType == .soa

/-- The serial of the opening SOA, looked for until a message has one. -/
def startSerial (known : Option UInt32) (answers : List MessageRecord) : Option UInt32 :=
  match known with
  | some serial => some serial
  | none => (answers.find? isSoa).bind MessageRecord.soaSerial

/-- A message without answers ends the exchange, and so does one whose last
record is an SOA with the opening serial. -/
def isTerminal (loneSoaEnds : Bool) (start : Option UInt32) (before : Nat)
    (answers : List MessageRecord) : Bool :=
  match answers.getLast? with
  | none => true
  | some last => isSoa last &&
      (match last.soaSerial, start with
        | some serial, some start => serial == start
        | _, _ => false) &&
      (decide (1 < before + answers.length) || loneSoaEnds)

def checkReply (master : Master) (message : Message) : Except DaygleError Unit :=
  if message.metadata.responseCode ≠ noError then
    .error (.proto ("master " ++ master.address ++ " answered " ++
      ofNat message.metadata.responseCode))
  else if message.metadata.truncation then
    .error (.proto ("truncated transfer from " ++ master.address))
  else .ok ()

def verifyReply (codec : MessageCodec) (master : Master) (verifier : Option ResponseVerifier)
    (raw : Bytes) (now : UInt64) : Except DaygleError (Option ResponseVerifier) :=
  match verifier with
  | none => .ok none
  | some verifier => ((verifier.verify codec raw now).map some).mapError fun e =>
      .proto ("TSIG check of the reply from " ++ master.address ++ " failed: " ++ e)

/-- One round of the loop, and whether it was the last one. -/
def readReply (codec : MessageCodec) (clock : Nat → UInt64) (master : Master) (loneSoaEnds : Bool)
    (exchange : Exchange) : Except DaygleError (Exchange × Bool) := do
  let (raw, message, unread) ← readMessage codec exchange.unread
  let verifier ← verifyReply codec master exchange.verifier raw (clock (exchange.messages + 1))
  checkReply master message
  let start := startSerial exchange.startSoaSerial message.answers
  pure ({ unread, verifier
          allAnswers := exchange.allAnswers ++ message.answers
          startSoaSerial := start
          messages := exchange.messages + 1 },
    isTerminal loneSoaEnds start exchange.allAnswers.length message.answers)

/-- The loop, for at most `limit` more messages. -/
def readReplies (codec : MessageCodec) (clock : Nat → UInt64) (master : Master)
    (loneSoaEnds : Bool) : Nat → Exchange → Except DaygleError Exchange
  | 0, exchange => .error (.proto ("transfer from " ++ master.address ++ " exceeded " ++
      ofNat exchange.messages ++ " messages"))
  | limit + 1, exchange => do
      let (exchange, terminal) ← readReply codec clock master loneSoaEnds exchange
      if terminal then pure exchange
      else readReplies codec clock master loneSoaEnds limit exchange

/-- The request in wire form, and what checks the replies to it. -/
def encodeRequest (client : XfrClient) (query : Message) :
    Except DaygleError (Bytes × Option ResponseVerifier) :=
  match client.tsig with
  | some key =>
      ((signRequestWithMac client.codec query key (client.clock query.query.2 0)).mapError fun e =>
        .proto ("sign query: " ++ e)).map
        fun (wire, mac) => (wire, some (ResponseVerifier.start key mac))
  | none =>
      ((client.codec.toVec query).mapError fun e => .proto ("encode query: " ++ e)).map
        fun wire => (wire, none)

def finishReplies (master : Master) (exchange : Exchange) : Except DaygleError Unit :=
  match exchange.verifier with
  | none => .ok ()
  | some verifier => verifier.finish.mapError fun e =>
      .proto ("TSIG check of the reply from " ++ master.address ++ " failed: " ++ e)

/-- The exchange as it stands when the client is done with it. -/
def exchangeOf (client : XfrClient) (master : Master) (query : Message) (limit : Nat)
    (loneSoaEnds : Bool) : Except DaygleError Exchange := do
  if let some e := master.connect then
    throw e
  let (wire, verifier) ← encodeRequest client query
  let stream ← master.answer (frame wire)
  let exchange ← readReplies client.codec (client.clock query.query.2) master loneSoaEnds limit
    ⟨stream, verifier, [], none, 0⟩
  finishReplies master exchange
  pure exchange

/-- The answers of all the replies to a request, one after the other. -/
def request (client : XfrClient) (master : Master) (query : Message) (limit : Nat)
    (loneSoaEnds : Bool) : Except DaygleError (List MessageRecord) :=
  (exchangeOf client master query limit loneSoaEnds).map Exchange.allAnswers

/-- The serial check is a hint and goes unsigned. -/
def querySoa (client : XfrClient) (master : Master) (zone : Text) :
    Except DaygleError (Option MessageRecord) :=
  (request { client with tsig := none } master (buildQuery zone "SOA") 1 true).map
    fun records => records.find? isSoa

def axfrSigned (client : XfrClient) (master : Master) (zone : Text) :
    Except DaygleError (List MessageRecord) :=
  request client master (buildQuery zone "AXFR") maxMessages false

def ixfrQuery (zone : Text) (currentSerial : UInt32) : Message :=
  { buildQuery zone "IXFR" with authorities := [soaRecord zone currentSerial] }

/-- The whole zone, or none where the master says that the copy is current. -/
def ixfrOrAxfr (client : XfrClient) (master : Master) (zone : Text) (currentSerial : UInt32) :
    Except DaygleError (Option (List MessageRecord)) := do
  let answers ← request client master (ixfrQuery zone currentSerial) maxMessages true
  match answers.filterMap MessageRecord.soaSerial, answers.length with
  | [serial], 1 =>
      if serialNewer serial currentSerial then (axfrSigned client master zone).map some
      else pure none
  | [_, _], _ => pure (some answers)
  | _, _ => (axfrSigned client master zone).map some

/-! Records and messages of the example zone, with their bytes. Names in a message
point back to the one in its question; a record by itself has them in full. -/

def exampleSoa (serial : UInt32) : MessageRecord where
  name := "example.com."
  data := .soa ⟨"ns1.example.com.", "admin.example.com.", serial, 3600, 600, 86400, 3600⟩ []
  ttl := 3600

def exampleAddress (owner : Text) : MessageRecord where
  name := owner
  data := .other ⟨"A", by decide⟩ "192.0.2.1"
  ttl := 300

def replyTo (query : Message) (answers : List MessageRecord) : Message where
  metadata := { query.metadata with response := true, authoritative := true }
  query := query.query
  answers := answers
  authorities := []
  signature := none

def exampleHeader (flags answers authorities : Nat) : Bytes :=
  be16 0 ++ be16 flags ++ be16 1 ++ be16 answers ++ be16 authorities ++ be16 0

def exampleQuestion (qtype : Nat) : Bytes :=
  toBeBytes 13 0x076578616d706c6503636f6d00 ++ be16 qtype ++ be16 1

/-- The record header, the primary and the mailbox, the serial and the times. -/
def exampleSoaBytes (serial : UInt32) : Bytes :=
  toBeBytes 12 0xc00c0006000100000e100022 ++ toBeBytes 14 0x036e7331c00c0561646d696ec00c ++
    toBeBytes 4 serial.toNat ++ toBeBytes 16 0x00000e10000002580001518000000e10

def exampleSoaInFull (serial : UInt32) : Bytes :=
  toBeBytes 13 0x076578616d706c6503636f6d00 ++ toBeBytes 10 0x0006000100000e100038 ++
    toBeBytes 17 0x036e7331076578616d706c6503636f6d00 ++
    toBeBytes 19 0x0561646d696e076578616d706c6503636f6d00 ++
    toBeBytes 4 serial.toNat ++ toBeBytes 16 0x00000e10000002580001518000000e10

def exampleAddressBytes (owner : Bytes) : Bytes :=
  owner ++ toBeBytes 14 0x000100010000012c0004c0000201

/-- The SOA that `soaRecord` makes up for a request. -/
def exampleSerialBytes (serial : UInt32) : Bytes :=
  toBeBytes 12 0xc00c0006000100000e100018 ++ toBeBytes 4 0xc00cc00c ++
    toBeBytes 4 serial.toNat ++ toBeBytes 16 0x00000e10000002580001518000000e10

def soaQueryBytes : Bytes := exampleHeader 0 0 0 ++ exampleQuestion 6

def soaReplyBytes (serial : UInt32) : Bytes :=
  exampleHeader 0x8400 1 0 ++ exampleQuestion 6 ++ exampleSoaBytes serial

def axfrQueryBytes : Bytes := exampleHeader 0 0 0 ++ exampleQuestion 252

def ixfrQueryBytes (serial : UInt32) : Bytes :=
  exampleHeader 0 0 1 ++ exampleQuestion 251 ++ exampleSerialBytes serial

/-- A master that knows the answers to some requests. -/
def Master.ofTable (address : Text) (replies : List (Bytes × List Bytes)) : Master where
  address := address
  connect := none
  answer wire := match replies.find? fun entry => frame entry.1 == wire with
    | some entry => .ok (entry.2.flatMap frame)
    | none => .error (.proto "read length")

end DaygleDns.Authoritative
