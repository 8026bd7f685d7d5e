import DaygleDns.Addresses
import DaygleDns.Recursive.CacheAssist

/-! Which servers a name is looked up at for a client, and the scope under which
the cache assistant keeps their answers. `R` are the forwarding resolvers, told
apart by their upstream servers. -/
namespace DaygleDns.Recursive

open Text

inductive DefaultBackend (R : Type) where
  | forward (resolver : R)
  | recursive
deriving DecidableEq, Repr

inductive PolicyBackend (R : Type) where
  | forward (resolver : R)
  | recursive
  | refuse
deriving DecidableEq, Repr

def PolicyBackend.isRecursive {R : Type} : PolicyBackend R → Bool
  | .recursive => true
  | .forward _ | .refuse => false

structure ClientPolicy (R : Type) where
  networks : List Network
  backend : PolicyBackend R
deriving DecidableEq, Repr

structure ConditionalResolver (R : Type) where
  zone : Text
  resolver : R
deriving DecidableEq, Repr

inductive RouteKind where
  | recursive
  | forwarding
  | conditional
  | stub
  | clientPolicy
  | localRoot
deriving DecidableEq, Repr

inductive Route (R : Type) where
  | forward (resolver : R)
  | recursive
  | noSuchTld
  | noRecursor
deriving DecidableEq, Repr

structure Inner (R : Type) where
  default : DefaultBackend R
  /-- Whether a recursor was built. -/
  recursor : Bool
  policies : List (ClientPolicy R)
  conditional : List (ConditionalResolver R)
  stubs : List (ConditionalResolver R)
deriving Repr

/-- What the local root zone says of a top-level domain, if it is served. -/
abbrev LocalRootView := Text → Option Bool

def SCOPE_DEFAULT : UInt16 := 0

def SCOPE_RECURSOR : UInt16 := 1

def SCOPE_POLICY : UInt16 := 2

/-- Normalize a zone name for suffix matching. -/
def normalizeZone (name : Text) : Text :=
  toAsciiLowercase (trimEndMatches '.' (trimStartMatches '.' (trim name)))

def isLabelAlignedSuffix (qname zone : Text) : Bool := qname = zone || endsWith ('.' :: zone) qname

/-- The longest of the zones that the name is in, the last of them where several
are as long, and its index. The zone without a name is the root. -/
def matchConditionalZonesByName (zones : List Text) (name : Text) : Option Nat :=
  let qname := normalizeZone name
  let matching := zones.zipIdx.filter fun zone => zone.1.isEmpty || isLabelAlignedSuffix qname zone.1
  (matching.foldl
    (fun (best : Option (Text × Nat)) zone =>
      match best with
      | some longest => if utf8Len longest.1 ≤ utf8Len zone.1 then some zone else best
      | none => some zone)
    none).map Prod.snd

variable {N R : Type}

def matchConditionalZones (zones : List (ConditionalResolver R)) (name : Text) : Option (ConditionalResolver R) :=
  (matchConditionalZonesByName (zones.map ConditionalResolver.zone) name).bind (zones[·]?)

/-- The most specific conditional or stub zone of a name; the conditional one if
both are as deep. -/
def zoneResolver (conditional stubs : List (ConditionalResolver R)) (name : Text) : Option (R × RouteKind) :=
  match (matchConditionalZones conditional name, matchConditionalZones stubs name) with
  | (none, none) => none
  | (none, some stub) => some (stub.resolver, .stub)
  | (some zone, none) => some (zone.resolver, .conditional)
  | (some zone, some stub) =>
      if utf8Len zone.zone < utf8Len stub.zone then some (stub.resolver, .stub) else some (zone.resolver, .conditional)

/-- The local root zone does not have the top-level domain of the name. -/
def tldMissing (names : HickoryNames N) (view : LocalRootView) (name : N) : Bool :=
  (names.topLevel name).bind view = some false

namespace Inner

/-- The recursor is built where a route can lead to it. -/
def build (default : DefaultBackend R) (policies : List (ClientPolicy R)) (conditional stubs : List (ConditionalResolver R)) :
    Inner R where
  default := default
  recursor :=
    (match default with
      | .recursive => true
      | .forward _ => false) ||
    policies.any fun p => p.backend.isRecursive
  policies := policies
  conditional := conditional
  stubs := stubs

/-- The first policy that covers the client. -/
def policyFor (inner : Inner R) (client : IpAddr) : Option Nat :=
  if inner.policies.isEmpty then none
  else
    let client := client.toCanonical
    inner.policies.findIdx? fun p => p.networks.any (·.contains client)

/-- The policy of a scope, for the refreshes that have only the key. -/
def policyForScope (inner : Inner R) (scope : UInt16) : Option Nat :=
  if scope = SCOPE_DEFAULT then none
  else if scope = SCOPE_RECURSOR then
    inner.policies.findIdx? fun p => p.backend.isRecursive
  else some (scope - SCOPE_POLICY).toNat

def recursiveRoute (inner : Inner R) : Route R := if inner.recursor then .recursive else .noRecursor

/-- The resolver of a name under a policy, and the scope that its answers belong to. -/
def route (inner : Inner R) (names : HickoryNames N) (view : LocalRootView) (name : N) (policy : Option Nat) :
    Route R × RouteKind × UInt16 :=
  match zoneResolver inner.conditional inner.stubs (names.toText name) with
  | some (resolver, kind) => (.forward resolver, kind, SCOPE_DEFAULT)
  | none =>
      match (policy.bind fun i => inner.policies[i]?.map fun p => (i, p), inner.default) with
      | (some (i, p), default) =>
          match p.backend with
          | .forward resolver =>
              if tldMissing names view name then (.noSuchTld, .localRoot, SCOPE_DEFAULT)
              else (.forward resolver, .clientPolicy, SCOPE_POLICY + UInt16.ofNat i)
          | .recursive | .refuse =>
              (inner.recursiveRoute, .clientPolicy,
                match default with
                | .recursive => SCOPE_DEFAULT
                | .forward _ => SCOPE_RECURSOR)
      | (none, .recursive) => (inner.recursiveRoute, .recursive, SCOPE_DEFAULT)
      | (none, .forward resolver) =>
          if tldMissing names view name then (.noSuchTld, .localRoot, SCOPE_DEFAULT)
          else (.forward resolver, .forwarding, SCOPE_DEFAULT)

/-- A policy of the client refuses recursion. -/
def refuses (inner : Inner R) (client : IpAddr) : Bool :=
  match (inner.policyFor client).bind (inner.policies[·]?) with
  | some ⟨_, .refuse⟩ => true
  | _ => false

end Inner

end DaygleDns.Recursive
