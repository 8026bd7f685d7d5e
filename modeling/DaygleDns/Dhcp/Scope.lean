import DaygleDns.Addresses

/-! The DHCP settings of the configuration file: what is handed out on a network. -/
namespace DaygleDns.Dhcp

open Text

/-- A fixed address for one device, which its MAC address (DHCPv4) or its DUID
in hexadecimal (DHCPv6) names. -/
structure DhcpReservation where
  client : Text
  address : Text
  hostname : Text
deriving DecidableEq, Repr

/-- `value` is text, or hexadecimal after `0x`. -/
structure DhcpCustomOption where
  code : UInt8
  value : Text
deriving DecidableEq, Repr

structure DhcpScope where
  name : Text
  rangeStart : Text
  rangeEnd : Text
  router : Text
  dnsServers : List Text
  domainName : Text
  ntpServers : List Text
  leaseSecs : UInt32
  reservations : List DhcpReservation
  options : List DhcpCustomOption
deriving DecidableEq, Repr

structure Dhcp6Scope where
  name : Text
  rangeStart : Text
  rangeEnd : Text
  dnsServers : List Text
  domainSearch : List Text
  preferredSecs : UInt32
  validSecs : UInt32
  reservations : List DhcpReservation
deriving DecidableEq, Repr

/-- Two digits at a time, with a colon between the pairs. -/
def joinPairs : Text → Text
  | a :: b :: c :: rest => a :: b :: ':' :: joinPairs (c :: rest)
  | short => short

/-- The address as `aa:bb:cc:dd:ee:ff`. -/
def normalizeMac (text : Text) : Option Text :=
  let hex := toAsciiLowercase (text.filter fun c => c != ':' && c != '-' && c != '.')
  if hex.length != 12 || !hex.all isHexDigit then none else some (joinPairs hex)

/-- The identifier in lowercase hexadecimal. -/
def normalizeDuid (text : Text) : Option Text :=
  let hex := toAsciiLowercase (text.filter fun c => c != ':' && c != '-')
  if 4 ≤ hex.length && hex.length ≤ 260 && hex.length % 2 == 0 && hex.all isHexDigit then some hex else none

def hexPairs : Text → List UInt8
  | a :: b :: rest => UInt8.ofNat (16 * hexDigitValue a + hexDigitValue b) :: hexPairs rest
  | _ => []

def customOptionBytes (value : Text) : Except Text (List UInt8) := do
  let bytes ←
    match stripPrefix "0x" (trim value) with
    | some hex =>
        let hex := hex.filter fun c => !isWhitespace c && c != ':'
        if hex.length % 2 != 0 || !hex.all isHexDigit then .error "not valid hex" else pure (hexPairs hex)
    | none => pure (value.flatMap String.utf8EncodeChar)
  if bytes.isEmpty || 255 < bytes.length then .error "the value must be 1 to 255 bytes" else pure bytes

def DhcpScope.range (scope : DhcpScope) : Option (Ipv4Addr × Ipv4Addr) := do
  return (← parseIpv4 (trim scope.rangeStart), ← parseIpv4 (trim scope.rangeEnd))

def Dhcp6Scope.range (scope : Dhcp6Scope) : Option (Ipv6Addr × Ipv6Addr) := do
  return (← parseIpv6 (trim scope.rangeStart), ← parseIpv6 (trim scope.rangeEnd))

/-- Whether the scope only hands out DNS settings. -/
def Dhcp6Scope.stateless (scope : Dhcp6Scope) : Bool :=
  (trim scope.rangeStart).isEmpty && (trim scope.rangeEnd).isEmpty

end DaygleDns.Dhcp
