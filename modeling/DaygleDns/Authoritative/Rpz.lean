import DaygleDns.Addresses

/-! Response policy zones: rules for queries and answers, published as zones. -/
namespace DaygleDns.Authoritative

open Text

structure LocalRecord where
  rtype : Text
  ttl : UInt32
  rdata : Text
deriving DecidableEq, Repr

inductive RpzAction where
  | nxDomain
  | noData
  | passthru
  | drop
  | tcpOnly
  | localData (records : List LocalRecord)
deriving DecidableEq, Repr

inductive RpzPolicy where
  | given
  | disabled
  | nxdomain
  | nodata
  | passthru
  | drop
  | tcpOnly
  | cname
deriving DecidableEq, Repr

/-- What a rule matched, which its text in the logs tells. -/
inductive RpzTrigger where
  | clientIp (client : IpAddr) (len : Nat)
  | qname (trigger : Text)
  | cnameTarget (trigger : Text)
  | answerIp (ip : IpAddr) (len : Nat)
  | nsdname (trigger : Text)
  | nsIp (ip : IpAddr) (len : Nat)
deriving DecidableEq, Repr

structure RpzHit where
  zone : Text
  trigger : RpzTrigger
  action : RpzAction
deriving DecidableEq, Repr

def prefixMask (w len : Nat) : BitVec w := if len = 0 then 0 else BitVec.allOnes w <<< (w - len)

/-- Networks by their prefix length, the longest first. -/
structure PrefixTable (w : Nat) where
  groups : List (Nat × List (BitVec w × RpzAction))
  sorted : groups.Pairwise fun first second => second.1 < first.1

def PrefixTable.find {w : Nat} (table : PrefixTable w) (ip : BitVec w) : Option (Nat × RpzAction) :=
  table.groups.findSome? fun (len, nets) =>
    (nets.lookup (ip &&& prefixMask w len)).map fun action => (len, action)

structure IpTriggers where
  v4 : PrefixTable 32
  v6 : PrefixTable 128

/-- The longest-prefix trigger containing `ip`, with its prefix length. -/
def IpTriggers.find (triggers : IpTriggers) (ip : IpAddr) : Option (Nat × RpzAction) :=
  match ip.toCanonical with
  | .v4 bits => triggers.v4.find bits
  | .v6 bits => triggers.v6.find bits

def IpTriggers.none : IpTriggers := ⟨⟨[], List.Pairwise.nil⟩, ⟨[], List.Pairwise.nil⟩⟩

/-- Tables of names as HashMaps are: a key's first entry counts. -/
abbrev NameRules := List (Text × RpzAction)

/-- `wildcard` and `nsWildcard` are keyed by what follows `*.`. -/
structure CompiledZone where
  exact : NameRules
  wildcard : NameRules
  clientIp : IpTriggers
  responseIp : IpTriggers
  nsExact : NameRules
  nsWildcard : NameRules
  nsIp : IpTriggers

/-- The names above `name`, the closest first. -/
def parents : Text → List Text
  | [] => []
  | '.' :: parent => parent :: parents parent
  | _ :: rest => parents rest

def matchName (exact wildcard : NameRules) (name : Text) : Option (Text × RpzAction) :=
  match exact.lookup name with
  | some action => some (name, action)
  | none => (parents name).findSome? fun parent =>
      (wildcard.lookup parent).map fun action => ('*' :: '.' :: parent, action)

def CompiledZone.qname (data : CompiledZone) (qname : Text) : Option (Text × RpzAction) :=
  matchName data.exact data.wildcard qname

def CompiledZone.nsdname (data : CompiledZone) (name : Text) : Option (Text × RpzAction) :=
  matchName data.nsExact data.nsWildcard name

structure NameServers where
  names : List Text
  ips : List IpAddr

structure ActiveZone where
  name : Text
  policy : RpzPolicy
  cnameTarget : Option Text
  data : CompiledZone

/-- Nothing when the zone only counts its matches. -/
def ActiveZone.apply (zone : ActiveZone) (action : RpzAction) : Option RpzAction :=
  match zone.policy with
  | .given => some action
  | .disabled => none
  | .nxdomain => some .nxDomain
  | .nodata => some .noData
  | .passthru => some .passthru
  | .drop => some .drop
  | .tcpOnly => some .tcpOnly
  | .cname => match zone.cnameTarget with
      | some target => some (.localData [⟨"CNAME", 300, target⟩])
      | none => some .nxDomain

def ActiveZone.hit (zone : ActiveZone) (trigger : RpzTrigger) (action : RpzAction) : Option RpzHit :=
  (zone.apply action).map fun action => ⟨zone.name, trigger, action⟩

/-- What `check_query` finds in one zone. -/
def ActiveZone.queryTrigger (zone : ActiveZone) (client : IpAddr) (qname : Text) :
    Option (RpzTrigger × RpzAction) :=
  ((zone.data.clientIp.find client).map fun (len, action) => (.clientIp client len, action)).or
    ((zone.data.qname qname).map fun (trigger, action) => (.qname trigger, action))

def ActiveZone.nsTrigger (zone : ActiveZone) (servers : NameServers) :
    Option (RpzTrigger × RpzAction) :=
  (servers.names.findSome? fun name =>
      (zone.data.nsdname name).map fun (trigger, action) => (.nsdname trigger, action)).or
    (servers.ips.findSome? fun ip =>
      (zone.data.nsIp.find ip).map fun (len, action) => (.nsIp ip len, action))

/-- What `check_answer` finds in one zone. -/
def ActiveZone.answerTrigger (zone : ActiveZone) (names : List Text) (ips : List IpAddr)
    (ns : Option NameServers) : Option (RpzTrigger × RpzAction) :=
  ((names.findSome? fun name =>
      (zone.data.qname name).map fun (trigger, action) => (.cnameTarget trigger, action)).or
    (ips.findSome? fun ip =>
      (zone.data.responseIp.find ip).map fun (len, action) => (.answerIp ip len, action))).or
    (ns.bind zone.nsTrigger)

structure RpzSet where
  zones : List ActiveZone

def RpzSet.checkQuery (set : RpzSet) (client : IpAddr) (qname : Text) : Option RpzHit :=
  set.zones.findSome? fun zone =>
    (zone.queryTrigger client qname).bind fun (trigger, action) => zone.hit trigger action

def RpzSet.checkAnswer (set : RpzSet) (names : List Text) (ips : List IpAddr)
    (ns : Option NameServers) : Option RpzHit :=
  set.zones.findSome? fun zone =>
    (zone.answerTrigger names ips ns).bind fun (trigger, action) => zone.hit trigger action

/-- `check_query` and, when it returns nothing, `check_answer`. -/
def RpzSet.check (set : RpzSet) (client : IpAddr) (qname : Text) (names : List Text)
    (ips : List IpAddr) (ns : Option NameServers) : Option RpzHit :=
  match set.checkQuery client qname with
  | some hit => some hit
  | none => set.checkAnswer names ips ns

end DaygleDns.Authoritative
