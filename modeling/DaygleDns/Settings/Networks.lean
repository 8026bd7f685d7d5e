import DaygleDns.Policy.Groups

/-! Named networks, and the lists whose entries are networks, addresses or such names. -/
namespace DaygleDns.Settings

open Text Policy

structure NamedNetwork where
  name : Text
  cidrs : List Text
  description : Text
deriving DecidableEq

def privateNetworks : List Text :=
  ["127.0.0.0/8".toList, "10.0.0.0/8".toList, "172.16.0.0/12".toList, "192.168.0.0/16".toList,
    "100.64.0.0/10".toList, "169.254.0.0/16".toList, "::1/128".toList, "fc00::/7".toList, "fe80::/10".toList]

def builtinNetworks : List NamedNetwork :=
  [⟨"Private".toList, privateNetworks, "Private, shared, link-local and loopback addresses".toList⟩,
    ⟨"This Server".toList, ["127.0.0.0/8".toList, "::1/128".toList],
      "Loopback: queries from this machine".toList⟩]

variable (libs : Libraries)

/-- What an entry of a network list stands for. -/
def expandEntry (networks : List NamedNetwork) (entry : Text) : List Text :=
  let entry := trim entry
  if entry.isEmpty then []
  else if (parseNetwork libs entry).isSome then [entry]
  else match networks.find? fun n => eqIgnoreAsciiCase (trim n.name) entry with
    | some network => (network.cidrs.map trim).filter fun c => (parseNetwork libs c).isSome
    | none => [entry]

/-- Expand the names in a network list; an unknown name is kept as it is. -/
def resolveNetworkList (networks : List NamedNetwork) (entries : List Text) : List Text :=
  entries.flatMap (expandEntry libs networks)

/-! Networks as text. -/

def netOf {w : Nat} (addr : BitVec w) (length : Nat) : Option (IpNet w) :=
  if h : length < w + 1 then some ⟨addr, ⟨length, h⟩⟩ else none

def readPrefixLength (text : Text) : Option UInt32 :=
  if text.all Char.isDigit then parseU32 text else none

/-- An address and a prefix length around a slash. -/
def readIpNet (text : Text) : Option Network := do
  let (addr, length) ← splitOnce ['/'] text
  let length ← readPrefixLength length
  match parseIpv4 addr with
  | some ip => (netOf ip length.toNat).map .v4
  | none => do
      let ip ← parseIpv6 addr
      (netOf ip length.toNat).map .v6

/-- Libraries that read networks, with empty tables and no patterns. -/
def plainLibraries : Libraries where
  services := []
  securityCategories := []
  parseIpNet := readIpNet
  hostAscii := fun _ => none
  regexCompiles := fun _ => false
  regexSet := fun _ => ⟨[], fun _ => []⟩
  toLowercase := toAsciiLowercase

example : readIpNet "10.0.0.0/8".toList = some (.v4 ⟨BitVec.ofNat 32 0x0a000000, 8⟩) := by decide

end DaygleDns.Settings
