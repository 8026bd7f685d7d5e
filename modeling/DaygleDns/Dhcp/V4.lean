import DaygleDns.Dhcp.Leases
import DaygleDns.Dhcp.Scope

/-! DHCPv4: the answer to a request, and what it does to the lease table. -/
namespace DaygleDns.Dhcp.V4

open Text

inductive Opcode where
  | bootRequest
  | bootReply
  | unknown (code : UInt8)
deriving DecidableEq, Repr

inductive MessageType where
  | discover
  | offer
  | request
  | decline
  | ack
  | nak
  | release
  | inform
  | other (code : UInt8)
deriving DecidableEq, Repr

inductive DhcpOption where
  | subnetMask (mask : Ipv4Addr)
  | router (routers : List Ipv4Addr)
  | domainNameServer (servers : List Ipv4Addr)
  | hostname (name : Text)
  | domainName (name : Text)
  | broadcastAddr (ip : Ipv4Addr)
  | ntpServers (servers : List Ipv4Addr)
  | requestedIpAddress (ip : Ipv4Addr)
  | addressLeaseTime (secs : UInt32)
  | messageType (kind : MessageType)
  | serverIdentifier (ip : Ipv4Addr)
  | renewal (secs : UInt32)
  | rebinding (secs : UInt32)
  | clientIdentifier (id : List UInt8)
  | clientFqdn (domain : Text)
  | domainSearch (names : List Text)
  | unknown (code : UInt8) (data : List UInt8)
deriving DecidableEq, Repr

def DhcpOption.code : DhcpOption → UInt8
  | .subnetMask _ => 1
  | .router _ => 3
  | .domainNameServer _ => 6
  | .hostname _ => 12
  | .domainName _ => 15
  | .broadcastAddr _ => 28
  | .ntpServers _ => 42
  | .requestedIpAddress _ => 50
  | .addressLeaseTime _ => 51
  | .messageType _ => 53
  | .serverIdentifier _ => 54
  | .renewal _ => 58
  | .rebinding _ => 59
  | .clientIdentifier _ => 61
  | .clientFqdn _ => 81
  | .domainSearch _ => 119
  | .unknown code _ => code

/-- A message, with one option of each code at most. -/
structure Message where
  opcode : Opcode
  htype : UInt8
  xid : UInt32
  flags : UInt16
  ciaddr : Ipv4Addr
  yiaddr : Ipv4Addr
  siaddr : Ipv4Addr
  giaddr : Ipv4Addr
  chaddr : List UInt8
  opts : List DhcpOption
deriving DecidableEq, Repr

namespace Message

def get (msg : Message) (code : UInt8) : Option DhcpOption := msg.opts.find? fun o => o.code == code

def insert (msg : Message) (o : DhcpOption) : Message :=
  { msg with opts := msg.opts.filter (fun other => other.code != o.code) ++ [o] }

def msgType (msg : Message) : Option MessageType :=
  match msg.get 53 with
  | some (.messageType kind) => some kind
  | _ => none

end Message

structure Context where
  scope : DhcpScope
  net : IpNet 32
  /-- This server's address on the client's network. -/
  serverIp : Ipv4Addr
  now : Int
  /-- `Name::from_ascii`; a name is a text. -/
  fromAscii : Text → Option Text

/-- The client's identity: its client identifier if it sent one, else its hardware address. -/
def clientId (msg : Message) : Text :=
  match msg.get 61 with
  | some (.clientIdentifier id) => if !id.isEmpty then hex id else hex msg.chaddr
  | _ => hex msg.chaddr

def mac (msg : Message) : Text :=
  if msg.chaddr.length == 6 then (normalizeMac (hex msg.chaddr)).getD [] else []

def hostname (msg : Message) : Text :=
  match msg.get 12 with
  | some (.hostname name) => cleanHostname name
  | _ =>
      match msg.get 81 with
      | some (.clientFqdn domain) => cleanHostname domain
      | _ => []

/-- The address reserved for this client in the scope, with its name. -/
def reservation (scope : DhcpScope) (mac : Text) : Option (Ipv4Addr × Text) :=
  if mac.isEmpty then none
  else do
    let r ← scope.reservations.find? fun r => normalizeMac r.client == some mac
    let ip ← parseIpv4 (trim r.address)
    return (ip, cleanHostname r.hostname)

def reservedForOther (scope : DhcpScope) (ip : Ipv4Addr) (mac : Text) : Bool :=
  scope.reservations.any fun r =>
    parseIpv4 (trim r.address) == some ip && normalizeMac r.client != some mac

def inRange (scope : DhcpScope) (ip : Ipv4Addr) : Bool :=
  scope.range.any fun (start, last) => start.toNat ≤ ip.toNat && ip.toNat ≤ last.toNat

def reservedHere (scope : DhcpScope) (ip : Ipv4Addr) (mac : Text) : Bool :=
  (reservation scope mac).any fun (r, _) => r == ip

/-- Whether `ip` may be handed to the client. -/
def usable (ctx : Context) (leases : Leases) (ip : Ipv4Addr) (id mac : Text) : Bool :=
  ctx.net.contains ip && ip != ctx.net.network && ip != ctx.net.broadcast && ip != ctx.serverIp &&
    leases.freeFor (.v4 ip) id ctx.now && (inRange ctx.scope ip || reservedHere ctx.scope ip mac) &&
    parseIpv4 (trim ctx.scope.router) != some ip && !reservedForOther ctx.scope ip mac

/-- The address of the client's live lease or offer. -/
def leased (ctx : Context) (leases : Leases) (id : Text) : Option Ipv4Addr :=
  match (leases.ofClient ctx.scope.name id ctx.now).map DhcpLease.address with
  | some (.v4 ip) => some ip
  | _ => none

/-- The address to offer: the client's reservation, its current lease, the
address it asked for, or the first free one. -/
def choose (ctx : Context) (leases : Leases) (id mac : Text) (requested : Option Ipv4Addr) :
    Option Ipv4Addr :=
  let usable := fun ip => usable ctx leases ip id mac
  (((reservation ctx.scope mac).map Prod.fst).filter usable).or
    (((leased ctx leases id).filter usable).or
      ((requested.filter usable).or
        (ctx.scope.range.bind fun (start, last) => (addressRange start last).find? usable)))

/-- A reply to `request`, with the server identifier. -/
def reply (ctx : Context) (request : Message) (kind : MessageType) (yiaddr : Ipv4Addr) : Message :=
  let flags :=
    if kind = .nak ∧ request.giaddr ≠ 0 then request.flags ||| 0x8000 else request.flags
  let msg : Message :=
    { opcode := .bootReply
      htype := request.htype
      xid := request.xid
      flags := flags
      ciaddr := if kind = .nak then 0 else request.ciaddr
      yiaddr := yiaddr
      siaddr := 0
      giaddr := request.giaddr
      chaddr := request.chaddr
      opts := [] }
  (msg.insert (.messageType kind)).insert (.serverIdentifier ctx.serverIp)

/-- The scope's own options, and for a lease its times. -/
def scopeOptions (ctx : Context) (leaseSecs : Option UInt32) : List DhcpOption :=
  let dns := ctx.scope.dnsServers.filterMap fun d => parseIpv4 (trim d)
  let domain := trimEndMatches '.' (trim ctx.scope.domainName)
  let ntp := ctx.scope.ntpServers.filterMap fun n => parseIpv4 (trim n)
  [.subnetMask ctx.net.netmask, .broadcastAddr ctx.net.broadcast] ++
    ((parseIpv4 (trim ctx.scope.router)).map fun router => .router [router]).toList ++
    [.domainNameServer (if dns.isEmpty then [ctx.serverIp] else dns)] ++
    (if domain.isEmpty then []
      else .domainName domain :: ((ctx.fromAscii (domain ++ ['.'])).map fun name => .domainSearch [name]).toList) ++
    (if ntp.isEmpty then [] else [.ntpServers ntp]) ++
    (match leaseSecs with
      | some secs => [.addressLeaseTime secs, .renewal (secs / 2), .rebinding (secs / 8 * 7)]
      | none => [])

/-- Add the scope's options to a reply, the custom ones last. -/
def addOptions (ctx : Context) (msg : Message) (leaseSecs : Option UInt32) : Message :=
  let custom := ctx.scope.options.filterMap fun custom =>
    (customOptionBytes custom.value).toOption.map (DhcpOption.unknown custom.code)
  (scopeOptions ctx leaseSecs ++ custom).foldl Message.insert msg

def requestedIp (msg : Message) : Option Ipv4Addr :=
  match msg.get 50 with
  | some (.requestedIpAddress ip) => some ip
  | _ => none

def serverId (msg : Message) : Option Ipv4Addr :=
  match msg.get 54 with
  | some (.serverIdentifier ip) => some ip
  | _ => none

/-- Drop an older offer to the client for another address than `ip`. -/
def dropOlderOffer (ctx : Context) (leases : Leases) (id : Text) (ip : Ipv4Addr) : Leases :=
  match leases.ofClient ctx.scope.name id ctx.now with
  | some old => if old.address ≠ .v4 ip ∧ old.state = .offered then leases.remove old.address else leases
  | none => leases

/-- Whether the client has `ip` bound already. -/
def holds (ctx : Context) (leases : Leases) (ip : Ipv4Addr) (id : Text) : Bool :=
  (leases.get (.v4 ip)).any fun l => l.state = .bound ∧ l.clientId = id ∧ ctx.now < l.expires

def discover (ctx : Context) (request : Message) (leases : Leases) : Option Message × Leases :=
  let id := clientId request
  let mac := mac request
  match choose ctx leases id mac (requestedIp request) with
  | none => (none, leases)
  | some ip =>
      let leases := dropOlderOffer ctx leases id ip
      let leases :=
        if holds ctx leases ip id then leases
        else leases.put
          (lease (.v4 ip) ctx.scope.name id mac (hostname request) .offered (ctx.now + OFFER_SECS))
      (some (addOptions ctx (reply ctx request .offer ip) (some ctx.scope.leaseSecs)), leases)

/-- The client took another server's offer. -/
def dropOffer (ctx : Context) (leases : Leases) (id : Text) : Leases :=
  match leases.ofClient ctx.scope.name id ctx.now with
  | some l => if l.state = .offered then leases.remove l.address else leases
  | none => leases

def wantedIp (request : Message) : Option Ipv4Addr :=
  (requestedIp request).or (if request.ciaddr ≠ 0 then some request.ciaddr else none)

/-- The name of the reservation, or else the client's own. -/
def leaseName (ctx : Context) (request : Message) : Text :=
  (((reservation ctx.scope (mac request)).map Prod.snd).filter fun name => !name.isEmpty).getD
    (hostname request)

/-- Bind `ip` to the client. A changed name registers anew, so the records of
the old one are kept for the service to remove. -/
def bind (ctx : Context) (request : Message) (leases : Leases) (ip : Ipv4Addr) : Leases :=
  let id := clientId request
  let name := leaseName ctx request
  let expires := ctx.now + ctx.scope.leaseSecs.toNat
  let renewal := (leases.get (.v4 ip)).any fun l =>
    l.clientId = id ∧ l.state = .bound ∧ l.hostname = name
  if renewal then leases.update (.v4 ip) (.renew expires)
  else
    let fresh := lease (.v4 ip) ctx.scope.name id (mac request) name .bound expires
    match (leases.get (.v4 ip)).filter fun l => l.clientId = id with
    | some old => leases.put { fresh with dnsName := old.dnsName, dnsRecords := old.dnsRecords }
    | none => leases.put fresh

def request (ctx : Context) (request : Message) (leases : Leases) : Option Message × Leases :=
  let id := clientId request
  if (serverId request).any fun sid => sid != ctx.serverIp then (none, dropOffer ctx leases id)
  else
    match wantedIp request with
    | none => (some (reply ctx request .nak 0), leases)
    | some ip =>
        if !usable ctx leases ip id (mac request) then (some (reply ctx request .nak 0), leases)
        else
          (some (addOptions ctx (reply ctx request .ack ip) (some ctx.scope.leaseSecs)),
            bind ctx request leases ip)

/-- Change the lease on `ip` if it is the client's. -/
def updateOwn (leases : Leases) (ip : Ipv4Addr) (id : Text) (change : Change) : Leases :=
  if (leases.get (.v4 ip)).any fun l => l.clientId = id then leases.update (.v4 ip) change else leases

def decline (ctx : Context) (request : Message) (leases : Leases) : Leases :=
  match requestedIp request with
  | some ip => updateOwn leases ip (clientId request) (.decline ctx.now)
  | none => leases

def release (ctx : Context) (request : Message) (leases : Leases) : Leases :=
  updateOwn leases request.ciaddr (clientId request) (.release ctx.now)

/-- Answer `request`; nothing is sent back where there is no reply. -/
def handle (ctx : Context) (msg : Message) (leases : Leases) : Option Message × Leases :=
  if msg.opcode ≠ .bootRequest then (none, leases)
  else
    match msg.msgType with
    | some .discover => discover ctx msg leases
    | some .request => request ctx msg leases
    | some .decline => (none, decline ctx msg leases)
    | some .release => (none, release ctx msg leases)
    | some .inform => (some (addOptions ctx (reply ctx msg .ack 0) none), leases)
    | _ => (none, leases)

end DaygleDns.Dhcp.V4
