import DaygleDns.Dhcp.Leases
import DaygleDns.Dhcp.Scope

/-! DHCPv6: the answer to a message, and what it does to the lease table. -/
namespace DaygleDns.Dhcp.V6

open Text

inductive MessageType where
  | solicit
  | advertise
  | request
  | confirm
  | renew
  | rebind
  | reply
  | release
  | decline
  | informationRequest
  | other (code : UInt8)
deriving DecidableEq, Repr

inductive Status where
  | success
  | noAddrsAvail
  | notOnLink
deriving DecidableEq, Repr

structure IAAddr where
  addr : Ipv6Addr
  preferredLife : UInt32
  validLife : UInt32
deriving DecidableEq, Repr

inductive IaOption where
  | iaAddr (address : IAAddr)
  | statusCode (status : Status) (msg : Text)
deriving DecidableEq, Repr

/-- One of a client's address associations. -/
structure IANA where
  id : UInt32
  t1 : UInt32
  t2 : UInt32
  opts : List IaOption
deriving DecidableEq, Repr

inductive DhcpOption where
  | clientId (id : List UInt8)
  | serverId (id : List UInt8)
  | iana (ia : IANA)
  | statusCode (status : Status) (msg : Text)
  | rapidCommit
  | domainNameServers (servers : List Ipv6Addr)
  | domainSearchList (names : List Text)
  | clientFqdn (data : List UInt8)
deriving DecidableEq, Repr

structure Message where
  msgType : MessageType
  xid : UInt32
  opts : List DhcpOption
deriving DecidableEq, Repr

namespace Message

def insert (msg : Message) (o : DhcpOption) : Message := { msg with opts := msg.opts ++ [o] }

def clientIdOption (msg : Message) : Option (List UInt8) :=
  msg.opts.findSome? fun o => match o with
    | .clientId id => some id
    | _ => none

def serverIdOption (msg : Message) : Option (List UInt8) :=
  msg.opts.findSome? fun o => match o with
    | .serverId id => some id
    | _ => none

def clientFqdn (msg : Message) : Option (List UInt8) :=
  msg.opts.findSome? fun o => match o with
    | .clientFqdn data => some data
    | _ => none

end Message

/-- How many addresses of a range are tried before giving up. -/
def PROBES : Nat := 4096

structure Context where
  scope : Dhcp6Scope
  net : IpNet 128
  serverDuid : List UInt8
  /-- This server's address on the client's network, if it has one. -/
  dnsDefault : Option Ipv6Addr
  now : Int
  /-- `Name::from_ascii`; a name is a text. -/
  fromAscii : Text → Option Text

def clientDuid (msg : Message) : Option Text :=
  match msg.clientIdOption with
  | some id => if !id.isEmpty then some (hex id) else none
  | none => none

/-- Eight hexadecimal digits. -/
def hexIaid (iaid : UInt32) : Text :=
  [7, 6, 5, 4, 3, 2, 1, 0].map fun i => hexDigit (iaid.toNat / 16 ^ i % 16)

/-- The lease key of one of a client's address associations. -/
def leaseClient (duid : Text) (iaid : UInt32) : Text := duid ++ '/' :: hexIaid iaid

/-- The first label of the client's name, which stands in wire format after a flags byte. -/
def hostname (msg : Message) : Text :=
  match msg.clientFqdn with
  | some (_ :: len :: rest) =>
      if len.toNat ≤ rest.length then cleanHostname (utf8Lossy (rest.take len.toNat)) else []
  | _ => []

def iaNas (msg : Message) : List IANA :=
  msg.opts.filterMap fun o => match o with
    | .iana ia => some ia
    | _ => none

def iaAddrs (ia : IANA) : List IAAddr :=
  ia.opts.filterMap fun o => match o with
    | .iaAddr address => some address
    | _ => none

def iaAddresses (ia : IANA) : List Ipv6Addr := (iaAddrs ia).map IAAddr.addr

/-- The address reserved for this DUID, with its name. -/
def reservation (scope : Dhcp6Scope) (duid : Text) : Option (Ipv6Addr × Text) := do
  let r ← scope.reservations.find? fun r => normalizeDuid r.client == some duid
  let ip ← parseIpv6 (trim r.address)
  return (ip, cleanHostname r.hostname)

def reservedForOther (scope : Dhcp6Scope) (ip : Ipv6Addr) (duid : Text) : Bool :=
  scope.reservations.any fun r =>
    parseIpv6 (trim r.address) == some ip && normalizeDuid r.client != some duid

def inRange (scope : Dhcp6Scope) (ip : Ipv6Addr) : Bool :=
  scope.range.any fun (start, last) => start.toNat ≤ ip.toNat && ip.toNat ≤ last.toNat

def reservedHere (scope : Dhcp6Scope) (ip : Ipv6Addr) (duid : Text) : Bool :=
  (reservation scope duid).any fun (r, _) => r == ip

/-- Whether `ip` may be handed to the client. -/
def usable (ctx : Context) (leases : Leases) (ip : Ipv6Addr) (duid id : Text) : Bool :=
  ctx.net.contains ip && some ip != ctx.dnsDefault && leases.freeFor (.v6 ip) id ctx.now &&
    (inRange ctx.scope ip || reservedHere ctx.scope ip duid) && !reservedForOther ctx.scope ip duid

/-- A stable starting point in the range, so that a client tends to get the same
address back: FNV-1a over the bytes of the key. -/
def spread (id : Text) : Nat :=
  ((id.flatMap String.utf8EncodeChar).foldl
    (fun (h : UInt64) b => (h ^^^ b.toUInt64) * 0x0100000001b3) 0xcbf29ce484222325).toNat

/-- The address of the association's live lease or offer. -/
def leased (ctx : Context) (leases : Leases) (id : Text) : Option Ipv6Addr :=
  match (leases.ofClient ctx.scope.name id ctx.now).map DhcpLease.address with
  | some (.v6 ip) => some ip
  | _ => none

/-- The addresses of the range that are tried, from the starting point on. -/
def probed (scope : Dhcp6Scope) (id : Text) : List Ipv6Addr :=
  match scope.range with
  | none => []
  | some (start, last) =>
      if last.toNat < start.toNat then []
      else
        let size := min (last.toNat - start.toNat + 1) (2 ^ 128 - 1)
        let base := spread id % size
        (List.range (min size PROBES)).map fun i => BitVec.ofNat 128 (start.toNat + (base + i) % size)

/-- The address for one association: the reservation (for the `first` one), its
current lease, an address the client asked for, or a free one. -/
def choose (ctx : Context) (leases : Leases) (duid id : Text) (first : Bool) (asked : List Ipv6Addr) :
    Option Ipv6Addr :=
  let usable := fun ip => usable ctx leases ip duid id
  ((if first then (reservation ctx.scope duid).map Prod.fst else none).filter usable).or
    (((leased ctx leases id).filter usable).or
      ((asked.find? usable).or ((probed ctx.scope id).find? usable)))

/-- A reply of `kind`, with both DUIDs and the DNS settings. -/
def reply (ctx : Context) (request : Message) (kind : MessageType) : Message :=
  let dns := ctx.scope.dnsServers.filterMap fun d => parseIpv6 (trim d)
  let dns := if dns.isEmpty then ctx.dnsDefault.toList else dns
  let search := ctx.scope.domainSearch.filterMap fun d => ctx.fromAscii (trimEndMatches '.' (trim d) ++ ['.'])
  { msgType := kind
    xid := request.xid
    opts := (request.clientIdOption.map DhcpOption.clientId).toList ++ [.serverId ctx.serverDuid] ++
      (if dns.isEmpty then [] else [.domainNameServers dns]) ++
      (if search.isEmpty then [] else [.domainSearchList search]) }

/-- An association with its address, or without one; the others in `dropped` get
zero lifetimes, so that the client stops using them. -/
def iaWith (ctx : Context) (iaid : UInt32) (address : Option Ipv6Addr) (dropped : List Ipv6Addr) : IANA :=
  let preferred := ctx.scope.preferredSecs
  let held := match address with
    | some addr => .iaAddr ⟨addr, preferred, ctx.scope.validSecs⟩
    | none => .statusCode .noAddrsAvail "no addresses available"
  { id := iaid
    t1 := if address.isSome then preferred / 2 else 0
    t2 := if address.isSome then preferred / 5 * 4 else 0
    opts := held :: (dropped.filter fun addr => some addr ≠ address).map fun addr => .iaAddr ⟨addr, 0, 0⟩ }

/-- The name of the reservation, or else the client's own. -/
def leaseName (ctx : Context) (request : Message) (duid : Text) : Text :=
  (((reservation ctx.scope duid).map Prod.snd).filter fun name => !name.isEmpty).getD (hostname request)

/-- An older lease of the association on another address than `ip` goes. -/
def releaseOlder (ctx : Context) (leases : Leases) (id : Text) (ip : Ipv6Addr) : Leases :=
  match (leases.ofClient ctx.scope.name id ctx.now).map DhcpLease.address with
  | some old => if old ≠ .v6 ip then leases.update old (.release ctx.now) else leases
  | none => leases

/-- The association's own lease on `ip`. -/
def current (leases : Leases) (ip : Ipv6Addr) (id : Text) : Option DhcpLease :=
  (leases.get (.v6 ip)).filter fun l => l.clientId = id

def bind (ctx : Context) (leases : Leases) (duid id name : Text) (ip : Ipv6Addr) : Leases :=
  let expires := ctx.now + ctx.scope.validSecs.toNat
  let fresh := lease (.v6 ip) ctx.scope.name id duid name .bound expires
  match current leases ip id with
  | some l =>
      if l.state = .bound ∧ l.hostname = name then leases.update (.v6 ip) (.renew expires)
      else leases.put { fresh with dnsName := l.dnsName, dnsRecords := l.dnsRecords }
  | none => leases.put fresh

def advertise (ctx : Context) (leases : Leases) (duid id name : Text) (ip : Ipv6Addr) : Leases :=
  if (current leases ip id).all fun l => l.state ≠ .bound ∨ l.expires ≤ ctx.now then
    leases.put (lease (.v6 ip) ctx.scope.name id duid name .offered (ctx.now + OFFER_SECS))
  else leases

/-- Bind an address to one association or, for an advertisement, offer it. Only
the `first` association of a message carries the name. -/
def assignOne (ctx : Context) (duid name : Text) (binds : Bool) (leases : Leases) (first : Bool) (ia : IANA) :
    IANA × Leases :=
  let id := leaseClient duid ia.id
  let asked := iaAddresses ia
  let chosen := choose ctx leases duid id first asked
  let leases :=
    match chosen with
    | none => leases
    | some ip =>
        let leases := releaseOlder ctx leases id ip
        let name := if first then name else []
        if binds then bind ctx leases duid id name ip else advertise ctx leases duid id name ip
  (iaWith ctx ia.id chosen asked, leases)

def assignAll (ctx : Context) (duid name : Text) (binds : Bool) (leases : Leases) :
    List (Bool × IANA) → List IANA × Leases
  | [] => ([], leases)
  | (first, ia) :: rest =>
      let (answer, leases) := assignOne ctx duid name binds leases first ia
      let (answers, leases) := assignAll ctx duid name binds leases rest
      (answer :: answers, leases)

/-- The associations of a message, with the first one marked. -/
def marked : List IANA → List (Bool × IANA)
  | [] => []
  | ia :: rest => (true, ia) :: rest.map fun ia => (false, ia)

/-- Bind or offer an address to every association in `request`. -/
def assign (ctx : Context) (request : Message) (leases : Leases) (duid : Text) (binds : Bool) (msg : Message) :
    Message × Leases :=
  let (answers, leases) :=
    assignAll ctx duid (leaseName ctx request duid) binds leases (marked (iaNas request))
  ((answers.map DhcpOption.iana).foldl Message.insert msg, leases)

/-- Change the leases that the associations of a message have on the addresses it lists. -/
def updateOwn (duid : Text) (change : Change) (leases : Leases) (ia : IANA) : Leases :=
  (iaAddresses ia).foldl (fun leases ip =>
    if (leases.get (.v6 ip)).any fun l => l.clientId = leaseClient duid ia.id then
      leases.update (.v6 ip) change
    else leases) leases

/-- Whether a message names this server. -/
def ours (ctx : Context) (msg : Message) : Option Bool := msg.serverIdOption.map fun id => id == ctx.serverDuid

def solicit (ctx : Context) (request : Message) (leases : Leases) : Option Message × Leases :=
  match clientDuid request with
  | none => (none, leases)
  | some duid =>
      if ctx.scope.stateless || (ours ctx request).isSome || (iaNas request).isEmpty then (none, leases)
      else
        let rapid := request.opts.contains .rapidCommit
        let msg := reply ctx request (if rapid then .reply else .advertise)
        let msg := if rapid then msg.insert .rapidCommit else msg
        let (msg, leases) := assign ctx request leases duid rapid msg
        (some msg, leases)

/-- `Request` and `Renew` name their server, `Rebind` goes to any. -/
def request (ctx : Context) (request : Message) (leases : Leases) : Option Message × Leases :=
  match clientDuid request with
  | none => (none, leases)
  | some duid =>
      if request.msgType ≠ .rebind ∧ ours ctx request ≠ some true then (none, leases)
      else if ctx.scope.stateless then (none, leases)
      else
        let (msg, leases) := assign ctx request leases duid true (reply ctx request .reply)
        (some msg, leases)

def release (ctx : Context) (request : Message) (leases : Leases) : Option Message × Leases :=
  match clientDuid request with
  | none => (none, leases)
  | some duid =>
      if ours ctx request ≠ some true then (none, leases)
      else
        let change := if request.msgType = .decline then Change.decline ctx.now else .release ctx.now
        (some ((reply ctx request .reply).insert (.statusCode .success [])),
          (iaNas request).foldl (updateOwn duid change) leases)

def confirm (ctx : Context) (request : Message) : Option Message :=
  let addresses := (iaNas request).flatMap iaAddresses
  if (clientDuid request).isNone || addresses.isEmpty || ctx.scope.stateless then none
  else some ((reply ctx request .reply).insert
    (if addresses.all ctx.net.contains then .statusCode .success []
      else .statusCode .notOnLink "not on this link"))

/-- Answer `msg`; nothing is sent back where there is no reply. -/
def handle (ctx : Context) (msg : Message) (leases : Leases) : Option Message × Leases :=
  match msg.msgType with
  | .solicit => solicit ctx msg leases
  | .request | .renew | .rebind => request ctx msg leases
  | .release | .decline => release ctx msg leases
  | .confirm => (confirm ctx msg, leases)
  | .informationRequest =>
      (if ours ctx msg = some false then none else some (reply ctx msg .reply), leases)
  | _ => (none, leases)

end DaygleDns.Dhcp.V6
