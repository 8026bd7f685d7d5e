import DaygleDns.Dispatch.RecursiveAnswer
import DaygleDns.Recursive.DeepestZone

/-! Reverse names between the empty zones that this server answers and the zones that are
configured with servers of their own. -/
namespace DaygleDns.Dispatch.EmptyZone

open Recursive Text

/-- A forwarding resolver, as what it was built for. -/
inductive Forwarder (S : Type) where
  | upstreams (servers : List S)
  | zone (name : Text) (servers : List S)
deriving DecidableEq, Repr

structure ConditionalZoneConfig where
  name : Text
  upstreams : List Text

structure StubZoneConfig where
  name : Text
  nss : List Text
  enabled : Bool

/-- How servers are read; the names of a stub zone's ones are looked up. -/
structure ServerNames (S : Type) where
  parseUpstreams : List Text → Except Text (List S)
  parseStubNss : List Text → List S

/-- The default upstreams and those of the client policies have been read. -/
structure RecursiveSettings (S : Type) where
  default : DefaultBackend (List S)
  policies : List (ClientPolicy (List S))
  conditionalZones : List ConditionalZoneConfig
  stubZones : List StubZoneConfig
  /-- The clients that may recurse; `none` are all of them. -/
  allowedClients : Option (List Network)
  privateNetworks : Bool

structure Resolver (S : Type) where
  inner : Inner (Forwarder S)
  allowedClients : Option (List Network)
  privateNetworks : Bool

def buildDefault {S : Type} : DefaultBackend (List S) → DefaultBackend (Forwarder S)
  | .forward servers => .forward (.upstreams servers)
  | .recursive => .recursive

def buildPolicy {S : Type} (policy : ClientPolicy (List S)) : ClientPolicy (Forwarder S) where
  networks := policy.networks
  backend :=
    match policy.backend with
    | .forward servers => .forward (.upstreams servers)
    | .recursive => .recursive
    | .refuse => .refuse

section Build

variable {S : Type} (servers : ServerNames S)

def buildConditional (zone : ConditionalZoneConfig) : Except Text (ConditionalResolver (Forwarder S)) := do
  let upstreams ← servers.parseUpstreams zone.upstreams
  return ⟨normalizeZone zone.name, .zone (normalizeZone zone.name) upstreams⟩

/-- A stub zone without a usable nameserver is skipped. -/
def buildStub (stub : StubZoneConfig) : Option (ConditionalResolver (Forwarder S)) :=
  if !stub.enabled || stub.nss.isEmpty then none
  else
    let nss := servers.parseStubNss stub.nss
    if nss.isEmpty then none else some ⟨normalizeZone stub.name, .zone (normalizeZone stub.name) nss⟩

/-- `RecursiveResolver::build` -/
def build (settings : RecursiveSettings S) : Except Text (Resolver S) := do
  let conditional ← settings.conditionalZones.mapM (buildConditional servers)
  let stubs := settings.stubZones.filterMap (buildStub servers)
  return ⟨.build (buildDefault settings.default) (settings.policies.map buildPolicy) conditional stubs,
    settings.allowedClients, settings.privateNetworks⟩

end Build

def Resolver.allowsClientWithListener {S : Type} (resolver : Resolver S) (onLink : List Network) (client : IpAddr)
    (listenerAllowed : Bool) : Bool :=
  let allowed := listenerAllowed ||
    match resolver.allowedClients with
    | none => true
    | some networks =>
        let client := client.toCanonical
        networks.any (·.contains client) ||
          (!client.isIpv4 && resolver.privateNetworks && onLink.any (·.contains client))
  allowed && !resolver.inner.refuses client

/-- The longest of the empty zones that contain a name, the last of several. -/
def emptyZoneCovering (config : Option (List Text)) (qname : Text) : Option Text :=
  if !(endsWith ".in-addr.arpa".toList qname || endsWith ".ip6.arpa".toList qname) then none
  else
    config.bind fun emptyZones =>
      let zones := emptyZones.map fun zone => toAsciiLowercase (trimEndMatches '.' (trim zone))
      -- A text that ends in the bytes of another one ends in its characters.
      lastMaxBy utf8Len <| zones.filter fun zone =>
        !zone.isEmpty && (eqIgnoreAsciiCase qname zone || endsWith ('.' :: zone) (toAsciiLowercase qname))

structure Query where
  client : IpAddr
  /-- In lower case, without a dot at its end. -/
  qname : Text
  rtype : UInt16
  /-- The encrypted listener of the query allows the client. -/
  listenerAllowed : Bool
  /-- There is capacity for one more lookup. -/
  permit : Bool

inductive ZoneRecord where
  | soa
  | ns
deriving DecidableEq, Repr

/-- How a query is handled; the steps before the hosted zones answer with an `E`. -/
inductive Handled (S E : Type) where
  | earlier (answer : E)
  | authoritative
  | emptyZone (zone : Text) (code : Nat) (answers : List ZoneRecord) (authority : Option ZoneRecord)
  | error (code : Nat)
  | lookup (route : Route (Forwarder S)) (kind : RouteKind) (scope : UInt16)
deriving DecidableEq, Repr

structure DnsDispatcher (N S E : Type) where
  names : HickoryNames N
  /-- `Name::from_ascii` reads the text. -/
  isAsciiName : Text → Bool
  view : LocalRootView
  onLink : List Network
  answerEarlier : Query → Option E
  /-- `Catalog::contains` -/
  hosts : Text → Bool
  /-- `authoritative.empty_zones`, of a server with a configuration -/
  emptyZones : Option (List Text)
  resolver : Option (Resolver S)

def NS : UInt16 := 2

def SOA : UInt16 := 6

namespace DnsDispatcher

variable {N S E : Type} (d : DnsDispatcher N S E)

def serveEmptyZone (rtype : UInt16) (zone : Text) (atApex : Bool) : Handled S E :=
  if !d.isAsciiName zone then .error servFail
  else if atApex then
    if rtype = SOA then .emptyZone zone noError [.soa] none
    else if rtype = NS then .emptyZone zone noError [.ns] none
    else .emptyZone zone noError [] none
  else .emptyZone zone nxDomain [] (some .soa)

def lookupForClient (resolver : Resolver S) (q : Query) : Handled S E :=
  match d.names.fromUtf8 q.qname with
  | .error _ => .error servFail
  | .ok name =>
      let (route, kind, scope) := resolver.inner.route d.names d.view name (resolver.inner.policyFor q.client)
      .lookup route kind scope

/-- `handle_request`, from the hosted zones on. -/
def handleRequest (q : Query) : Handled S E :=
  match d.answerEarlier q with
  | some answer => .earlier answer
  | none =>
      if d.hosts q.qname then .authoritative
      else
        match emptyZoneCovering d.emptyZones q.qname with
        | some zone => d.serveEmptyZone q.rtype zone (eqIgnoreAsciiCase q.qname zone)
        | none =>
            match d.resolver with
            | none => .error refused
            | some resolver =>
                if !resolver.allowsClientWithListener d.onLink q.client q.listenerAllowed then .error refused
                else if !q.permit then .error servFail
                else d.lookupForClient resolver q

end DnsDispatcher

end DaygleDns.Dispatch.EmptyZone
