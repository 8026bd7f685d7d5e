import DaygleDns.Authoritative.Model
import DaygleDns.Dispatch.ProxyProtocol

/-! Entries of the list of upstream servers. -/
namespace DaygleDns.Recursive

open Text Policy Dispatch
open Authoritative (DaygleError)

inductive IpVersions where
  | both | ipv4 | ipv6
deriving DecidableEq

def IpVersions.allows (versions : IpVersions) (ip : IpAddr) : Bool :=
  match versions with
  | .both => true
  | .ipv4 => ip.toCanonical.isIpv4
  | .ipv6 => !ip.toCanonical.isIpv4

def IpVersions.label : IpVersions → Text
  | .both => "IPv4 or IPv6".toList
  | .ipv4 => "IPv4".toList
  | .ipv6 => "IPv6".toList

inductive ProtocolConfig where
  | udp
  | tcp
  | tls (serverName : Text)
  | https (serverName path : Text)
  | quic (serverName : Text)
deriving DecidableEq

structure ConnectionConfig where
  protocol : ProtocolConfig
  port : UInt16
deriving DecidableEq

structure NameServerConfig where
  ip : IpAddr
  trustNegativeResponses : Bool
  connections : List ConnectionConfig
deriving DecidableEq

def failed {α : Type} (message : Text) : Except DaygleError α := .error (.config message)

/-- What stands before and after the last occurrence of a character. -/
def rsplitOnce (c : Char) (s : Text) : Option (Text × Text) :=
  (splitOnce [c] s.reverse).map fun parts => (parts.2.reverse, parts.1.reverse)

def readPort (message port : Text) : Except DaygleError UInt16 :=
  match parseU16 port with
  | some port => .ok port
  | none => failed message

def readLiteral (message host : Text) : Except DaygleError IpAddr :=
  match parseIpAddr host with
  | some ip => .ok ip
  | none => failed message

def splitHostPort (rest : Text) : Except DaygleError (IpAddr × UInt16) :=
  let rest := trim rest
  let badPort := "bad port in upstream ".toList ++ quoted rest
  let notLiteral := "upstream ".toList ++ quoted rest ++ " is not an IP literal".toList
  match stripPrefix ['['] rest with
  | some stripped =>
      match splitOnce [']'] stripped with
      | some (host, tail) => do
          let port ← match stripPrefix [':'] tail with
            | some port => readPort badPort port
            | none => .ok 53
          return (← readLiteral notLiteral host, port)
      | none => failed ("unbalanced '[' in upstream ".toList ++ quoted rest)
  | none => do
      let (host, port) ← match rsplitOnce ':' rest with
        | some (host, port) =>
            -- An IPv6 address without brackets has more colons.
            if List.contains host ':' then .ok (rest, 53)
            else do pure (host, ← readPort badPort port)
        | none => .ok (rest, 53)
      return (← readLiteral notLiteral (trim host), port)

def splitAuthority (authority : Text) : Except DaygleError (Text × UInt16) :=
  let authority := trim authority
  let badPort := "bad port in ".toList ++ quoted authority
  match stripPrefix ['['] authority with
  | some stripped =>
      match splitOnce [']'] stripped with
      | some (host, tail) =>
          match stripPrefix [':'] tail with
          | some port => do return (host, ← readPort badPort port)
          | none => .ok (host, 443)
      | none => failed ("unbalanced '[' in ".toList ++ quoted authority)
  | none =>
      match rsplitOnce ':' authority with
      | some (host, port) =>
          if List.contains host ':' then .ok (authority, 443)
          else do return (host, ← readPort badPort port)
      | none => .ok (authority, 443)

def parsePlain (rest : Text) (udp tcp : Bool) : Except DaygleError NameServerConfig := do
  let (ip, port) ← splitHostPort rest
  return ⟨ip, true, (if udp then [⟨.udp, port⟩] else []) ++ if tcp then [⟨.tcp, port⟩] else []⟩

/-- `parse_tls` and `parse_quic`: the address, and the name of the server behind the first `@`. -/
def parseNamed (scheme : Text) (protocol : Text → ProtocolConfig) (rest : Text) : Except DaygleError NameServerConfig :=
  match splitOnce ['@'] rest with
  | some (addr, serverName) => do
      let (ip, port) ← splitHostPort addr
      return ⟨ip, true, [⟨protocol (trim serverName), port⟩]⟩
  | none => failed (scheme ++ " upstream ".toList ++ quoted rest ++ " must be ".toList ++ scheme ++ "://IP:port@hostname".toList)

def parseTls (rest : Text) : Except DaygleError NameServerConfig := parseNamed "tls".toList .tls rest

def parseQuic (rest : Text) : Except DaygleError NameServerConfig := parseNamed "quic".toList .quic rest

section Lookup

-- The addresses of a host name as the system resolves it, or its error.
variable (lookup : Text → Except Text (List IpAddr))

def resolveHost (host : Text) (versions : IpVersions) : Except DaygleError IpAddr :=
  match parseIpAddr host with
  | some ip => .ok ip
  | none =>
      match lookup host with
      | .error e => failed ("cannot resolve DoH host ".toList ++ quoted host ++ ": ".toList ++ e)
      | .ok addresses =>
          match addresses.find? versions.allows with
          | some ip => .ok ip
          | none =>
              failed ("DoH host ".toList ++ quoted host ++ " resolved to no ".toList ++ versions.label ++
                " addresses".toList)

/-- The authority and the path, which is `/dns-query` if there is none. -/
def webParts (rest : Text) : Text × Text :=
  match splitOnce ['/'] rest with
  | some (authority, tail) => (authority, '/' :: tail)
  | none => (rest, "/dns-query".toList)

def parseHttps (rest : Text) (versions : IpVersions) : Except DaygleError NameServerConfig := do
  let (authority, path) := webParts rest
  let (host, port) ← splitAuthority authority
  let ip ← resolveHost lookup host versions
  return ⟨ip, true, [⟨.https host path, port⟩]⟩

def parseUpstream (entry : Text) (versions : IpVersions) : Except DaygleError NameServerConfig :=
  let trimmed := trim entry
  if trimmed.isEmpty then failed "empty upstream entry".toList
  else
    match stripPrefix "tls://".toList trimmed with
    | some rest => parseTls rest
    | none =>
    match stripPrefix "udp://".toList trimmed with
    | some rest => parsePlain rest true false
    | none =>
    match stripPrefix "tcp://".toList trimmed with
    | some rest => parsePlain rest false true
    | none =>
    match stripPrefix "https://".toList trimmed with
    | some rest => parseHttps lookup rest versions
    | none =>
    match stripPrefix "quic://".toList trimmed with
    | some rest => parseQuic rest
    | none =>
      if "h3://".toList.isPrefixOf trimmed then
        failed ("upstream protocol not enabled in this build: ".toList ++ quoted trimmed ++ " (use https://)".toList)
      else parsePlain trimmed true true

def parseUpstreamsFor (entries : List Text) (versions : IpVersions) : Except DaygleError (List NameServerConfig) := do
  let configs ← entries.mapM fun entry => parseUpstream lookup entry versions
  let out := configs.filter fun config => versions.allows config.ip
  if out.isEmpty && !entries.isEmpty then
    failed ("none of the upstream servers (".toList ++ (", ".toList).intercalate entries ++ ") can be reached over ".toList ++
      versions.label ++ ", the only IP version Outbound IP Versions allows".toList)
  else return out

def parseUpstreams (entries : List Text) : Except DaygleError (List NameServerConfig) :=
  parseUpstreamsFor lookup entries .both

end Lookup

end DaygleDns.Recursive
