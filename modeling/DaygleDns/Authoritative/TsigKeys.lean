import DaygleDns.Addresses
import DaygleDns.Authoritative.Tsig

/-! TSIG keys as they are configured: the check of the configuration, the key ring,
and the keys that zones are bound to. -/
namespace DaygleDns.Authoritative

open Text Framing

structure TsigKeyConfig where
  name : Text
  algorithm : Text
  secret : Text
deriving DecidableEq

/-- The settings that the transfer and update gates read. -/
structure AuthoritativeSettings where
  axfrEnabled : Bool
  axfrNetworks : List Text
  allowDynamicUpdates : Bool
  updateNetworks : List Text
  tsigKeys : List TsigKeyConfig
  tsigTransferZones : List Text
  tsigUpdateZones : List Text

/-- What other libraries read: a name in ASCII to its display form, a name with other
characters to its ASCII form, base64, and networks. -/
structure SettingsReader where
  fromAscii : Text → Except Text Text
  asciiForm : Text → Option Text
  toLowercase : Text → Text
  decodeBase64 : Text → Except Text Bytes
  parseNetwork : Text → Option (List UInt8 → Bool)

variable (reader : SettingsReader)

/-- A key name as `validate` compares it. -/
def checkedName (name : Text) : Text := toAsciiLowercase (trimEndMatches '.' name)

def quotedName (name : Text) : Text := '\x27' :: name ++ ['\x27']

def checkKey (key : TsigKeyConfig) : Except Text Unit :=
  let algorithm := trim key.algorithm
  if (trim key.name).isEmpty then .error "authoritative.tsig_keys contains a key with an empty name".toList
  else if algorithm ∉ ["hmac-sha256".toList, "hmac-sha384".toList, "hmac-sha512".toList] then
    .error ("tsig key ".toList ++ quotedName key.name ++ " uses unsupported algorithm ".toList ++
      quotedName algorithm ++ " (supported: hmac-sha256, hmac-sha384, hmac-sha512)".toList)
  else if (trim key.secret).isEmpty then
    .error ("tsig key ".toList ++ quotedName key.name ++ " has an empty secret".toList)
  else match reader.decodeBase64 (trim key.secret) with
    | .error _ => .error ("tsig key ".toList ++ quotedName key.name ++ " secret is not valid base64".toList)
    | .ok _ => .ok ()

def checkBinding (settings : AuthoritativeSettings) (binding : Text) : Except Text Unit :=
  match splitOnce ['='] binding with
  | none => .error ("tsig zone binding ".toList ++ quotedName binding ++ " must be ".toList ++
      quotedName "zone=key-name".toList)
  | some (_, key) =>
      if checkedName key ∈ settings.tsigKeys.map fun key => checkedName key.name then .ok ()
      else .error ("tsig zone binding ".toList ++ quotedName binding ++ " references unknown key ".toList ++
        quotedName key)

/-- The part of `DaygleConfig::validate` about TSIG. -/
def validateTsig (settings : AuthoritativeSettings) : Except Text Unit := do
  if ¬ (settings.tsigKeys.map fun key => checkedName key.name).Nodup then
    throw "authoritative.tsig_keys contains duplicate names".toList
  settings.tsigKeys.forM (checkKey reader)
  (settings.tsigTransferZones ++ settings.tsigUpdateZones).forM (checkBinding settings)

/-! The keys. -/

def TsigAlgorithm.fromName (name : Text) : TsigAlgorithm :=
  if name = "hmac-sha256".toList then .hmacSha256
  else if name = "hmac-sha384".toList then .hmacSha384
  else if name = "hmac-sha512".toList then .hmacSha512
  else .unknown name

def normalizeKeyName (name : Text) : Except Text Text :=
  let trimmed := trim name
  let withDot := if endsWith ['.'] trimmed then trimmed else trimmed ++ ['.']
  ((reader.fromAscii withDot).map toAsciiLowercase).mapError fun e => "invalid tsig key name ".toList ++ quotedName name ++ ": ".toList ++ e

def defaultFudge : UInt16 := 300

def TsigKey.fromConfig (config : TsigKeyConfig) : Except Text TsigKey := do
  let algorithm ← (reader.fromAscii (trim config.algorithm)).mapError fun e =>
    "tsig key ".toList ++ quotedName config.name ++ " has invalid algorithm name: ".toList ++ e
  if h : (TsigAlgorithm.fromName algorithm).supported = true then do
    let secret ← (reader.decodeBase64 (trim config.secret)).mapError fun e =>
      "tsig key ".toList ++ quotedName config.name ++ " secret is not valid base64: ".toList ++ e
    if secret.isEmpty then
      throw ("tsig key ".toList ++ quotedName config.name ++ " has an empty secret".toList)
    let name ← normalizeKeyName reader config.name
    return ⟨name, .fromName algorithm, secret, defaultFudge, h⟩
  else
    throw ("tsig key ".toList ++ quotedName config.name ++ " uses algorithm ".toList ++ quotedName config.algorithm ++
      " which hickory cannot sign (supported: hmac-sha256, hmac-sha384, hmac-sha512)".toList)

namespace TsigKeyRing

/-- A key replaces the one of its name. -/
def insert (ring : List TsigKey) (key : TsigKey) : List TsigKey :=
  key :: ring.filter fun other => other.name ≠ key.name

def fromConfigs (configs : List TsigKeyConfig) : Except Text (List TsigKey) :=
  configs.foldlM (fun ring config => (TsigKey.fromConfig reader config).map (insert ring)) []

def get (ring : List TsigKey) (name : Text) : Option TsigKey :=
  ring.find? fun key => key.name == toAsciiLowercase name

def getByConfigName (ring : List TsigKey) (name : Text) : Option TsigKey :=
  (normalizeKeyName reader name).toOption.bind (get ring)

end TsigKeyRing

/-! The bindings. -/

/-- A name in the form in which names are matched. -/
def asciiName (name : Text) : Text :=
  let name := trimEndMatches '.' (trim name)
  if name.all fun c => c.toNat < 128 then toAsciiLowercase name
  else match reader.asciiForm name with
    | some ascii => toAsciiLowercase (trimEndMatches '.' ascii)
    | none => reader.toLowercase name

def sameZone (a b : Text) : Bool := asciiName reader a == asciiName reader b

/-- The key name of the first binding that is for the zone. -/
def boundKeyName (bindings : List Text) (zoneName : Text) : Option Text :=
  bindings.findSome? fun binding =>
    match splitOnce ['='] binding with
    | some (zone, key) => if sameZone reader zone zoneName then some key else none
    | none => none

/-- A ring that does not load is an empty one. -/
def keyRing (settings : AuthoritativeSettings) : List TsigKey :=
  (TsigKeyRing.fromConfigs reader settings.tsigKeys).toOption.getD []

def tsigTransferKey (settings : AuthoritativeSettings) (zoneName : Text) : Option TsigKey :=
  (boundKeyName reader settings.tsigTransferZones zoneName).bind
    (TsigKeyRing.getByConfigName reader (keyRing reader settings))

def tsigUpdateKey (settings : AuthoritativeSettings) (zoneName : Text) : Option TsigKey :=
  (boundKeyName reader settings.tsigUpdateZones zoneName).bind
    (TsigKeyRing.getByConfigName reader (keyRing reader settings))

/-! Updates under these settings. -/

def updateServer (settings : AuthoritativeSettings) : UpdateServer where
  allowDynamicUpdates := settings.allowDynamicUpdates
  updateNetworks := settings.updateNetworks
  parseNetwork := reader.parseNetwork
  tsigUpdateKey := fun zoneName => (tsigUpdateKey reader settings zoneName).map TsigKey.name

/-- An update as it arrives; `zone` is the zone section where it holds exactly one record. -/
structure UpdateRequest where
  client : List UInt8
  zone : Option ZoneQuery
  raw : Bytes
  id : UInt16
  prerequisites : List UpdateRecord
  updates : List UpdateRecord

def TsigVerification.outcome : TsigVerification → TsigVerifyOutcome
  | .valid key _ => .valid key.name
  | .invalid _ => .invalid
  | .unsigned => .unsigned

/-- `handle_update_with_notify`; `seconds` is the clock as the signature is checked. -/
def handleUpdateRequest (codec : MessageCodec) (settings : AuthoritativeSettings) (hickory : Hickory) (faults : Faults)
    (store : ZoneStore) (request : UpdateRequest) (now : Time) (seconds : UInt64) : ResponseCode × ZoneStore :=
  let outcome := (verifyRequest codec (keyRing reader settings) request.raw request.id seconds).outcome
  handleUpdate hickory (updateServer reader settings) faults store
    ⟨request.client, request.zone, outcome, request.prerequisites, request.updates⟩ now

end DaygleDns.Authoritative
