import DaygleDns.Authoritative.Rpz
import DaygleDns.Dispatch.Dns64
import DaygleDns.Dispatch.ResponseFilter

/-! A query that is answered by recursion: the policy checks before the lookup, the
filters on its answer, and DNS64 where there are no IPv6 addresses. -/
namespace DaygleDns.Dispatch

open Text Policy Settings Authoritative

inductive QueryType where
  | a | aaaa | ns
  | other (text : Text)
deriving DecidableEq

def QueryType.text : QueryType → Text
  | .a => "A".toList
  | .aaaa => "AAAA".toList
  | .ns => "NS".toList
  | .other text => text

/-- A query; `qname` is in lower case and has no dot at its end. `validating` where the
client asked to validate by itself. -/
structure ClientQuery where
  asker : Asker
  udp : Bool
  qname : Text
  qtype : QueryType
  validating : Bool
  now : WeekTime

structure Lookup where
  responseCode : Nat
  answers : List AnswerRecord
  authorities : List AnswerRecord
  additionals : List AnswerRecord

/-- A lookup that gave no answer; a negative answer has a response code. -/
structure ResolutionError where
  responseCode : Option Nat
  negativeSoa : Option AnswerRecord

structure RecursiveResolver where
  lookupForClient : IpAddr → Text → QueryType → Except ResolutionError Lookup
  staleAnswerForClient : IpAddr → Text → QueryType → Option Lookup
  isZoneRouted : Text → Bool

structure BlockPage where
  enabled : Bool
  ipv4 : Text
  ipv6 : Text

structure DispatchConfig where
  dns64 : Dns64Settings
  networks : List NamedNetwork
  rebindingProtection : Bool
  blockPage : BlockPage

/-- An answer, or an error, from what this server holds itself. -/
structure LocalAnswer where
  code : Nat
  answers : List AnswerRecord

/-- How a response is made: by an error, empty, with one address in place of the name's
own, by a response policy zone, from data hosted here, negative with an SOA, or with
what recursion found. -/
inductive Response where
  | error (code : Nat)
  | empty
  | redirect (ip : IpAddr)
  | policyZone (hit : RpzHit)
  | hosted (answer : LocalAnswer)
  | negative (code : Nat) (soa : AnswerRecord)
  | recursive (code : Nat) (answers authorities additionals : List AnswerRecord)

/-- What a query meets. `answerLocally` stands for the steps between the policy checks
and recursion: safe search, split horizon, hosted zones and the access to recursion. -/
structure Dispatcher where
  libs : Libraries
  policy : PolicyEngine
  cnameInspection : Bool
  blocking : AdvancedBlocking
  rpz : RpzSet
  config : Option DispatchConfig
  reputation : Reputation
  resolver : RecursiveResolver
  answerLocally : ClientQuery → Option LocalAnswer

/-- Which of a query's lookups the server has capacity for, and which end in time. -/
structure Effort where
  permit : Bool
  inTime : Bool
  nsPermit : Text → QueryType → Bool
  nsInTime : Bool
  synthesisPermit : Bool
  synthesisInTime : Bool

def noError : Nat := 0
def servFail : Nat := 2
def nxDomain : Nat := 3
def refused : Nat := 5

def AnswerRecord.nsName (record : AnswerRecord) : Option Text :=
  match record.data with
  | .ns name => some (lowerName name)
  | _ => none

/-! Response policy zones with answer triggers. -/

def IpTriggers.isEmpty (triggers : IpTriggers) : Bool := triggers.v4.groups.isEmpty && triggers.v6.groups.isEmpty

def hasNsTriggers (zone : ActiveZone) : Bool :=
  !zone.data.nsExact.isEmpty || !zone.data.nsWildcard.isEmpty || !IpTriggers.isEmpty zone.data.nsIp

def checksAnswers (rpz : RpzSet) : Bool :=
  rpz.zones.any fun zone => !zone.data.exact.isEmpty || !zone.data.wildcard.isEmpty ||
    !IpTriggers.isEmpty zone.data.responseIp || hasNsTriggers zone

def checksNameServers (rpz : RpzSet) : Bool := rpz.zones.any hasNsTriggers

def checksNameServerIps (rpz : RpzSet) : Bool := rpz.zones.any fun zone => !IpTriggers.isEmpty zone.data.nsIp

def rpzLetsThrough (action : RpzAction) (udp : Bool) : Bool :=
  match action with
  | .passthru => true
  | .tcpOnly => !udp
  | _ => false

namespace Dispatcher

variable (d : Dispatcher)

def trusted (q : ClientQuery) : Bool := d.policy.allowlist.any (·.contains q.qname)

/-- `send_redirect` -/
def redirectTo (qtype : QueryType) (ip : IpAddr) : Response :=
  match ip, qtype with
  | .v4 v4, .a => .redirect (.v4 v4)
  | .v6 v6, .aaaa => .redirect (.v6 v6)
  | .v4 v4, .aaaa => if v4 = 0 then .redirect (.v6 0) else .empty
  | .v6 v6, .a => if v6 = 0 then .redirect (.v4 0) else .empty
  | .v4 v4, .other text => if text = "ANY".toList then .redirect (.v4 v4) else .empty
  | .v6 v6, .other text => if text = "ANY".toList then .redirect (.v6 v6) else .empty
  | _, .ns => .empty

/-- With the block page on, the page's address or nothing; `none` leaves it to NXDOMAIN. -/
def blockPageAnswer (qtype : QueryType) : Option (Option IpAddr) :=
  match d.config with
  | none => none
  | some config =>
      if !config.blockPage.enabled then none
      else
        let v4 := parseIpv4 (trim config.blockPage.ipv4)
        let v6 := parseIpv6 (trim config.blockPage.ipv6)
        match qtype with
        | .a => v4.map fun ip => some (.v4 ip)
        | .aaaa => if v4.isSome || v6.isSome then some (v6.map .v6) else none
        | .other text =>
            if (text = "HTTPS".toList ∨ text = "SVCB".toList) ∧ (v4.isSome || v6.isSome) then some none else none
        | .ns => none

/-- The response to a query that a decision denies. -/
def deny (qtype : QueryType) (action : Action) : Response :=
  match action with
  | .refused => .error refused
  | .redirect ip => redirectTo qtype ip
  | .noData => .empty
  | .block =>
      match d.blockPageAnswer qtype with
      | some (some ip) => redirectTo qtype ip
      | some none => .empty
      | none => .error nxDomain
  | .allow => .error nxDomain

/-! Before the lookup. -/

def policyResponse (q : ClientQuery) : Option Response :=
  let decision := d.policy.evaluateOn q.asker.client q.qname q.qtype.text q.asker.listener
  if decision.action = .allow then none else some (d.deny q.qtype decision.action)

def groupResponse (q : ClientQuery) : Option Response :=
  if d.trusted q then none
  else (d.blocking.evaluate d.libs q.asker q.qname q.now).map fun decision => d.deny q.qtype decision.action

def rpzHit (q : ClientQuery) : Option RpzHit :=
  if d.rpz.zones.isEmpty || d.trusted q then none else d.rpz.checkQuery q.asker.client q.qname

def rpzResponse (q : ClientQuery) : Option Response :=
  (d.rpzHit q).bind fun hit => if rpzLetsThrough hit.action q.udp then none else some (.policyZone hit)

/-- Whether the rest of the response policy zones is skipped. -/
def rpzDone (q : ClientQuery) : Bool := d.rpz.zones.isEmpty || d.trusted q || (d.rpzHit q).isSome

def earlyResponse (q : ClientQuery) : Option Response :=
  (d.policyResponse q).or ((d.groupResponse q).or ((d.rpzResponse q).or ((d.answerLocally q).map .hosted)))

/-! The filters on an answer. -/

/-- `blocked_cname_target`, as the response to the query. -/
def cnameResponse (q : ClientQuery) (answers : List AnswerRecord) : Option Response :=
  if d.cnameInspection && !d.trusted q then
    (answers.filterMap AnswerRecord.cnameTarget).findSome? fun name =>
      if d.policy.allowlist.any (·.contains name) then none
      else
        let decision := d.policy.evaluateOn q.asker.client name "A".toList q.asker.listener
        if decision.action ≠ .allow then some (d.deny q.qtype decision.action)
        else (d.blocking.evaluate d.libs q.asker name q.now).map fun decision => d.deny q.qtype decision.action
  else none

def resolverAnswers (client : IpAddr) (effort : Effort) (name : Text) (qtype : QueryType) : List AnswerRecord :=
  if !effort.nsPermit name qtype then []
  else match d.resolver.lookupForClient client name qtype with
    | .ok lookup => lookup.answers
    | .error _ => []

/-- The NS names of the closest enclosing name that has any, above the top-level
domain; every step drops a label. -/
def closestNsNames (client : IpAddr) (effort : Effort) : Nat → Text → List Text
  | 0, _ => []
  | fuel + 1, candidate =>
      let names := (d.resolverAnswers client effort candidate .ns).filterMap AnswerRecord.nsName
      if !names.isEmpty then names
      else match splitOnce ['.'] candidate with
        | some (_, parent) => if contains ['.'] parent then closestNsNames client effort fuel parent else []
        | none => []

def nameServersOf (client : IpAddr) (effort : Effort) (qname : Text) (withIps : Bool) : NameServers :=
  let names := d.closestNsNames client effort (qname.length + 1) qname
  let ips := if withIps then
      (names.take 4).flatMap fun name =>
        [QueryType.a, .aaaa].flatMap fun qtype =>
          (d.resolverAnswers client effort name qtype).filterMap AnswerRecord.address
    else []
  ⟨names, ips⟩

def rpzAnswerResponse (q : ClientQuery) (effort : Effort) (answers : List AnswerRecord) : Option Response :=
  if !d.rpzDone q && checksAnswers d.rpz then
    let names := answers.filterMap AnswerRecord.cnameTarget
    let ips := answers.filterMap AnswerRecord.address
    let ns := if checksNameServers d.rpz && effort.nsInTime then
        some (d.nameServersOf q.asker.client effort q.qname (checksNameServerIps d.rpz))
      else none
    (d.rpz.checkAnswer names ips ns).bind fun hit =>
      if rpzLetsThrough hit.action q.udp then none else some (.policyZone hit)
  else none

def filterBlock (q : ClientQuery) (answers : List AnswerRecord) : Option BlockReason :=
  if !d.trusted q && !d.resolver.isZoneRouted q.qname then
    (filterResponse d.libs d.blocking (d.config.any (·.rebindingProtection)) d.reputation q.asker q.now q.qname
      answers).or (safeBrowsingBlock d.libs d.blocking d.reputation q.asker q.now q.qname)
  else none

/-- What a client gets in place of an answer that a filter withholds. -/
def withheld (q : ClientQuery) (effort : Effort) (answers : List AnswerRecord) : Option Response :=
  (d.cnameResponse q answers).or ((d.rpzAnswerResponse q effort answers).or
    ((d.filterBlock q answers).map fun _ => .empty))

/-! DNS64. -/

def dns64For (q : ClientQuery) : Option Dns64 :=
  match d.config with
  | none => none
  | some config =>
      match config.dns64.compile d.libs (builtinNetworks ++ config.networks) with
      | .ok (some dns64) => if dns64.appliesTo q.asker.client && !q.validating then some dns64 else none
      | _ => none

def negativeTtl (authorities : List AnswerRecord) : UInt32 :=
  (authorities.findSome? fun record =>
    match record.data with
    | .soa minimum => some (min minimum record.ttl)
    | _ => none).getD 600

/-- What a record of the IPv4 answer becomes. -/
def synthesizeRecord (dns64 : Dns64) (ttl : UInt32) (record : AnswerRecord) : Option AnswerRecord :=
  match record.data with
  | .a v4 => (dns64.synthesize v4).map fun v6 => ⟨record.name, min record.ttl ttl, .aaaa v6⟩
  | .cname _ => some record
  | _ => none

def mapped (dns64 : Dns64) (record : AnswerRecord) : Bool :=
  match record.data with
  | .a v4 => (dns64.synthesize v4).isSome
  | _ => false

def synthesizeAaaa (dns64 : Dns64) (q : ClientQuery) (effort : Effort) (authorities : List AnswerRecord) :
    Option (List AnswerRecord) :=
  if !effort.synthesisPermit || !effort.synthesisInTime then none
  else match d.resolver.lookupForClient q.asker.client q.qname .a with
    | .error _ => none
    | .ok lookup =>
        if lookup.answers.any (mapped dns64) then
          some (lookup.answers.filterMap (synthesizeRecord dns64 (negativeTtl authorities)))
        else none

/-- An IPv6 address that is no IPv4 one in disguise. -/
def hasRealAaaa (answers : List AnswerRecord) : Bool :=
  answers.any fun record =>
    match record.data with
    | .aaaa ip => ip.toNat / 2 ^ 32 != 0xffff
    | _ => false

/-- The records owned by a name first, then those of its CNAME's target, and so on;
each step has its owner's records out of the way. -/
def orderFrom (owner : Text) : Nat → List AnswerRecord → List AnswerRecord
  | 0, rest => rest
  | fuel + 1, rest =>
      let here := rest.filter fun record => eqIgnoreAsciiCase record.name owner
      let others := rest.filter fun record => !eqIgnoreAsciiCase record.name owner
      match here.findSome? fun record => match record.data with | .cname target => some target | _ => none with
      | some target => here ++ orderFrom target fuel others
      | none => here ++ others

def orderCnameChain (qname : Text) (records : List AnswerRecord) : List AnswerRecord :=
  orderFrom (qname ++ ['.']) (records.length + 1) records

/-! The answer. -/

def lookup (q : ClientQuery) (effort : Effort) : Except ResolutionError Lookup :=
  if effort.inTime then d.resolver.lookupForClient q.asker.client q.qname q.qtype
  else match d.resolver.staleAnswerForClient q.asker.client q.qname q.qtype with
    | some stale => .ok stale
    | none => .error ⟨none, none⟩

/-- A lookup that succeeded. -/
def answerFound (q : ClientQuery) (effort : Effort) (found : Lookup) : Response :=
  match d.withheld q effort found.answers with
  | some response => response
  | none =>
      let dns64 := if q.qtype = .aaaa ∧ found.responseCode = noError ∧ ¬ hasRealAaaa found.answers then
        d.dns64For q else none
      match dns64.bind fun dns64 => d.synthesizeAaaa dns64 q effort found.authorities with
      | some records => .recursive found.responseCode (orderCnameChain q.qname records) [] []
      | none => .recursive found.responseCode (orderCnameChain q.qname found.answers) found.authorities
          found.additionals

/-- A lookup that gave no answer; NODATA for AAAA may have one after all. -/
def answerFailed (q : ClientQuery) (effort : Effort) (e : ResolutionError) : Response :=
  let code := e.responseCode.getD servFail
  let dns64 := if code = noError ∧ q.qtype = .aaaa then d.dns64For q else none
  match dns64.bind fun dns64 => d.synthesizeAaaa dns64 q effort [] with
  | some records => .recursive noError records [] []
  | none =>
      match e.negativeSoa with
      | some soa => if code = noError ∨ code = nxDomain then .negative code soa else .error code
      | none => .error code

/-- `handle_request`, from the policy checks on. -/
def handleRequest (q : ClientQuery) (effort : Effort) : Response :=
  match d.earlyResponse q with
  | some response => response
  | none =>
      if !effort.permit then .error servFail
      else match d.lookup q effort with
        | .ok found => d.answerFound q effort found
        | .error e => d.answerFailed q effort e

end Dispatcher

end DaygleDns.Dispatch
