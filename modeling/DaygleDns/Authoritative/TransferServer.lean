import DaygleDns.Authoritative.TsigKeys

/-! Zone transfers as they are served: the gates, and the zone in messages that each
stay under the limit, signed in a chain where the zone is bound to a key. -/
namespace DaygleDns.Authoritative

open Text Framing

structure TransferRequest where
  raw : Bytes
  metadata : Metadata
  query : Text × Text
  client : List UInt8

/-- The dispatcher with what it serves transfers from: the settings, the key ring it
was started with, and the zones by name, each as its SOA and its other records. -/
structure TransferServer where
  codec : MessageCodec
  reader : SettingsReader
  settings : AuthoritativeSettings
  tsigKeys : List TsigKey
  transferRecords : Text → Except DaygleError (Option (MessageRecord × List MessageRecord))
  /-- The clock, as it is read for the request and for each later signature. -/
  clock : Nat → UInt64

/-- Keys that do not load are a failure to start. -/
def TransferServer.start (codec : MessageCodec) (reader : SettingsReader) (settings : AuthoritativeSettings)
    (transferRecords : Text → Except DaygleError (Option (MessageRecord × List MessageRecord)))
    (clock : Nat → UInt64) : Except DaygleError TransferServer := do
  let tsigKeys ← (TsigKeyRing.fromConfigs reader settings.tsigKeys).mapError .config
  return ⟨codec, reader, settings, tsigKeys, transferRecords, clock⟩

def refusedCode : Nat := 5

def servFailCode : Nat := 2

/-- `send_error` -/
def errorReply (request : TransferRequest) (code : Nat) : Message where
  metadata := ⟨request.metadata.id, true, code, false, false, false⟩
  query := request.query
  answers := []
  authorities := []
  signature := none

def transferClientAllowed (reader : SettingsReader) (networks : List Text) (client : List UInt8) : Bool :=
  networks.isEmpty || networks.any fun net => (reader.parseNetwork net).any fun network => network client

def transferBudget : Nat := 16 * 1024

def recordLength (codec : MessageCodec) (record : MessageRecord) : Nat :=
  match codec.recordToBytes record with
  | .ok bytes => bytes.length
  | .error _ => transferBudget

/-- The groups still to come, after the records in `chunk` of `size` bytes. -/
def chunksFrom (codec : MessageCodec) (chunk : List MessageRecord) (size : Nat) :
    List MessageRecord → List (List MessageRecord)
  | [] => if chunk.isEmpty then [] else [chunk]
  | record :: rest =>
      if 0 < size && transferBudget < size + recordLength codec record then
        chunk :: chunksFrom codec [record] (recordLength codec record) rest
      else chunksFrom codec (chunk ++ [record]) (size + recordLength codec record) rest

def transferChunks (codec : MessageCodec) (answers : List MessageRecord) : List (List MessageRecord) :=
  chunksFrom codec [] 0 answers

def transferMessage (request : TransferRequest) (chunk : List MessageRecord) : Message where
  metadata := { request.metadata with
    response := true
    responseCode := 0
    authoritative := true
    recursionAvailable := false }
  query := request.query
  answers := chunk
  authorities := []
  signature := none

/-- The signature of a message: the first one in the context of the request, a later
one from the MAC before it. -/
def chunkSignature (codec : MessageCodec) (key : TsigKey) (context : TSigResponseContext)
    (previousMac : Option Bytes) (tbs : Bytes) (id : UInt16) (now : UInt64) : Except Text TsigRecord :=
  match previousMac with
  | none => codec.signInContext context tbs
  | some mac => signSubsequent codec key mac tbs id now

/-- The messages of the remaining groups; a failure to sign ends them with an error. -/
def sendChunks (server : TransferServer) (request : TransferRequest) (tsig : Option (TsigKey × TSigResponseContext))
    (previousMac : Option Bytes) (sent : Nat) : List (List MessageRecord) → List Message
  | [] => []
  | chunk :: rest =>
      let response := transferMessage request chunk
      match tsig with
      | none => response :: sendChunks server request tsig previousMac (sent + 1) rest
      | some (key, context) =>
          match server.codec.toVec response with
          | .error _ => [errorReply request servFailCode]
          | .ok tbs =>
              match chunkSignature server.codec key context previousMac tbs request.metadata.id
                  (server.clock (sent + 1)) with
              | .error _ => [errorReply request servFailCode]
              | .ok signature =>
                  { response with signature := some signature } ::
                    sendChunks server request tsig (some signature.data.mac) (sent + 1) rest

/-- The answer section of a transfer, between the zone's SOA and the SOA again. -/
def sendZone (server : TransferServer) (request : TransferRequest) (qname : Text)
    (tsig : Option (TsigKey × TSigResponseContext)) : List Message :=
  match server.transferRecords qname with
  | .ok (some (soa, records)) =>
      sendChunks server request tsig none 0 (transferChunks server.codec (soa :: records ++ [soa]))
  | .ok none => [errorReply request refusedCode]
  | .error _ => [errorReply request servFailCode]

/-- The messages sent in answer to a request, where sending does not fail. -/
def handleTransfer (server : TransferServer) (request : TransferRequest) (qname : Text) : List Message :=
  if !server.settings.axfrEnabled ||
      !transferClientAllowed server.reader server.settings.axfrNetworks request.client then
    [errorReply request refusedCode]
  else match tsigTransferKey server.reader server.settings qname with
    | none => sendZone server request qname none
    | some required =>
        match verifyRequest server.codec server.tsigKeys request.raw request.metadata.id (server.clock 0) with
        | .valid key context =>
            if key.name = required.name then sendZone server request qname (some (key, context))
            else [errorReply request refusedCode]
        | .invalid _ => [errorReply request refusedCode]
        | .unsigned => [errorReply request refusedCode]

end DaygleDns.Authoritative
