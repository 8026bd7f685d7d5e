import DaygleDns.Authoritative.Names
import DaygleDns.Policy.Groups

/-! What in a resolved answer must not reach a client: local network addresses of
public names, large payloads, disguised trackers, and names too new or listed. -/
namespace DaygleDns.Policy

open Text

/-! The filters of the groups. -/

namespace Source

def localAddress : Text := "local_address".toList
def payload : Text := "payload".toList

end Source

/-- The groups whose filters apply to an answer. -/
structure ResponseFilters where
  localAddresses : Option Text
  payloads : Option Text
  newlyRegistered : Option Text
  safeBrowsing : Option Text
  cnameTrackers : Option Text
deriving DecidableEq

def ResponseFilters.none : ResponseFilters := ⟨.none, .none, .none, .none, .none⟩

/-- The first group of a kind keeps it. -/
def ResponseFilters.claim (filters : ResponseFilters) (group : CompiledGroup) : ResponseFilters where
  localAddresses := filters.localAddresses.or (if group.blockLocalAddresses then some group.name else .none)
  payloads := filters.payloads.or (if group.limitPayloads then some group.name else .none)
  newlyRegistered := filters.newlyRegistered.or (if group.uses .newlyRegistered then some group.name else .none)
  safeBrowsing := filters.safeBrowsing.or (if group.uses .safeBrowsing then some group.name else .none)
  cnameTrackers := filters.cnameTrackers.or (if group.uses .cnameTracker then some group.name else .none)

def responseFiltersFrom (libs : Libraries) (asker : Asker) (qname : Text) (now : WeekTime)
    (filters : ResponseFilters) : List CompiledGroup → ResponseFilters
  | [] => filters
  | group :: rest =>
      if !group.applies libs asker now then responseFiltersFrom libs asker qname now filters rest
      else if group.allows qname then filters
      else responseFiltersFrom libs asker qname now (filters.claim group) rest

def AdvancedBlocking.responseFilters (libs : Libraries) (blocking : AdvancedBlocking) (asker : Asker) (qname : Text)
    (now : WeekTime) : ResponseFilters :=
  responseFiltersFrom libs asker qname now .none blocking.groups

/-! Registered domains. -/

def secondLevel : List Text :=
  ["co".toList, "com".toList, "net".toList, "org".toList, "gov".toList, "edu".toList, "ac".toList, "or".toList,
    "ne".toList, "go".toList, "gob".toList, "nic".toList, "mil".toList, "ltd".toList, "plc".toList, "sch".toList,
    "nom".toList, "info".toList, "biz".toList, "gen".toList, "web".toList, "in".toList]

/-- How many labels at the end of the name are its registered domain. -/
def registeredLabels (reversed : List Text) : Option Nat :=
  match reversed with
  | tld :: second :: rest =>
      if utf8Len tld = 2 ∧ second ∈ secondLevel ∧ rest ≠ [] then some 3 else some 2
  | _ => none

def registeredDomain (qname : Text) : Option Text :=
  let reversed := (qname.splitOn '.').reverse
  (registeredLabels reversed).map fun n => (['.'] : Text).intercalate (reversed.take n).reverse

/-- The first target on the list of trackers that is under another registered domain. -/
def disguisedTracker (qname : Text) (targets : List Text) (trackers : Blocklist) : Option Text :=
  match registeredDomain qname with
  | none => none
  | some firstParty => targets.find? fun target =>
      trackers.contains target && (registeredDomain target).any (· != firstParty)

example : registeredDomain "a.b.example.co.uk".toList = some "example.co.uk".toList := by decide

end DaygleDns.Policy

namespace DaygleDns.Dispatch

open Text Policy

/-! Records of answers. -/

/-- The data of a record, as far as the dispatcher reads it. -/
inductive AnswerData where
  | a (ip : Ipv4Addr)
  | aaaa (ip : Ipv6Addr)
  | cname (target : Text)
  | ns (name : Text)
  | soa (minimum : UInt32)
  | txt (lengths : List Nat)
  | null
  | unknown (code : Text) (length : Nat)
  | other (rtype : Text)
deriving DecidableEq

structure AnswerRecord where
  name : Text
  ttl : UInt32
  data : AnswerData
deriving DecidableEq

def AnswerRecord.address (record : AnswerRecord) : Option IpAddr :=
  match record.data with
  | .a ip => some (.v4 ip)
  | .aaaa ip => some (.v6 ip)
  | _ => none

/-- The name that a CNAME leads to, without its dot and in lower case. -/
def AnswerRecord.cnameTarget (record : AnswerRecord) : Option Text :=
  match record.data with
  | .cname target => some (Authoritative.lowerName target)
  | _ => none

/-! The checks on an answer. -/

def txtLimit : Nat := 1024

def unknownLimit : Nat := 255

def localSuffixes : List Text :=
  ["home.arpa".toList, "local".toList, "lan".toList, "internal".toList, "localdomain".toList, "localhost".toList,
    "home".toList, "corp".toList, "intranet".toList, "private".toList, "fritz.box".toList]

def rebindingDenyNetworks : List Text :=
  ["127.0.0.0/8".toList, "10.0.0.0/8".toList, "172.16.0.0/12".toList, "192.168.0.0/16".toList,
    "100.64.0.0/10".toList, "169.254.0.0/16".toList, "0.0.0.0/8".toList, "::1/128".toList, "::/128".toList,
    "::ffff:0:0/96".toList, "fc00::/7".toList, "fe80::/10".toList]

def isLocalName (qname : Text) : Bool :=
  !contains ['.'] qname || localSuffixes.any fun suffix =>
    qname == suffix || (stripSuffix suffix qname).any fun rest => endsWith ['.'] rest

/-- The first local network address of an answer. -/
def localAddress (libs : Libraries) (answers : List AnswerRecord) : Option IpAddr :=
  (answers.filterMap AnswerRecord.address).find? fun ip =>
    (rebindingDenyNetworks.filterMap libs.parseIpNet).any (·.contains ip)

/-- What in an answer is over the limits, after `txt` bytes of TXT data. -/
def oversizedFrom (txt : Nat) : List AnswerRecord → Option Text
  | [] => if txtLimit < txt then some (ofNat txt ++ " bytes of TXT data".toList) else none
  | record :: rest =>
      match record.data with
      | .null => some "NULL record".toList
      | .unknown code length =>
          if unknownLimit < length then some (ofNat length ++ " bytes in a ".toList ++ code ++ " record".toList)
          else oversizedFrom txt rest
      | .txt lengths => oversizedFrom (txt + lengths.sum) rest
      | _ => oversizedFrom txt rest

def oversizedPayload (answers : List AnswerRecord) : Option Text := oversizedFrom 0 answers

structure BlockReason where
  source : Text
  group : Option Text
  matched : Option Text
  reason : Text
deriving DecidableEq

/-- What the filters ask elsewhere: whether a domain was registered lately, and when,
and the threat that Safe Browsing lists a name for. -/
structure Reputation where
  newlyRegistered : Text → Option Text
  safeBrowsing : Text → Option Text

def groupText (group : Text) : Text := "group ".toList ++ quoted group

/-- `filter_response` -/
def filterResponse (libs : Libraries) (groups : AdvancedBlocking) (rebindingProtection : Bool)
    (reputation : Reputation) (asker : Asker) (now : WeekTime) (qname : Text) (answers : List AnswerRecord) :
    Option BlockReason :=
  let filters := groups.responseFilters libs asker qname now
  let localFound :=
    if (rebindingProtection || filters.localAddresses.isSome) && !isLocalName qname then
      (localAddress libs answers).map fun ip =>
        ⟨Source.localAddress, filters.localAddresses, some ip.toText,
          quoted qname ++ " answered with the local network address ".toList ++ ip.toText ++ ", blocked by ".toList ++
            (filters.localAddresses.map groupText).getD "rebinding protection".toList⟩
    else none
  let payloadFound := filters.payloads.bind fun group =>
    (oversizedPayload answers).map fun what =>
      ⟨Source.payload, some group, some what,
        quoted qname ++ " answered with ".toList ++ what ++ ", over the DNS payload limit of ".toList ++
          groupText group⟩
  let trackerFound := filters.cnameTrackers.bind fun group =>
    ((groups.lists.feeds "disguised_trackers".toList).bind fun trackers =>
      disguisedTracker qname (answers.filterMap AnswerRecord.cnameTarget) trackers).map fun target =>
        ⟨Source.privacy, some group, some "Disguised Third-Party Trackers".toList,
          quoted qname ++ " is a disguised third-party tracker (CNAME to ".toList ++ target ++
            "), blocked by ".toList ++ groupText group⟩
  let registeredFound := filters.newlyRegistered.bind fun group =>
    (registeredDomain qname).bind fun domain =>
      (reputation.newlyRegistered domain).map fun date =>
        ⟨Source.security, some group, some "Newly Registered Domains".toList,
          quoted domain ++ " was registered on ".toList ++ date ++
            ", blocked as Newly Registered Domains by ".toList ++ groupText group⟩
  localFound.or (payloadFound.or (trackerFound.or registeredFound))

def threatKind (threat : Text) : Text :=
  if threat = "SOCIAL_ENGINEERING".toList then "phishing".toList
  else if threat = "UNWANTED_SOFTWARE".toList then "unwanted software".toList
  else if threat = "POTENTIALLY_HARMFUL_APPLICATION".toList then "harmful apps".toList
  else "malware".toList

def safeBrowsingBlock (libs : Libraries) (groups : AdvancedBlocking) (reputation : Reputation) (asker : Asker)
    (now : WeekTime) (qname : Text) : Option BlockReason :=
  (groups.responseFilters libs asker qname now).safeBrowsing.bind fun group =>
    (reputation.safeBrowsing qname).map fun threat =>
      ⟨Source.security, some group, some "Google Safe Browsing".toList,
        quoted qname ++ " is listed by Google Safe Browsing for ".toList ++ threatKind threat ++
          ", blocked by ".toList ++ groupText group⟩

end DaygleDns.Dispatch
