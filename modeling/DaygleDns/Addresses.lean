import DaygleDns.Text
import Mathlib.Order.Basic

/-! Internet addresses: their order, their networks and the standard library's
readers of their text. -/
namespace DaygleDns

abbrev Ipv4Addr := BitVec 32

abbrev Ipv6Addr := BitVec 128

inductive IpAddr where
  | v4 (bits : Ipv4Addr)
  | v6 (bits : Ipv6Addr)
deriving DecidableEq, Repr

namespace IpAddr

/-- An IPv4 address in an IPv6 one becomes IPv4. -/
def toCanonical : IpAddr → IpAddr
  | .v4 bits => .v4 bits
  | .v6 bits => if bits.toNat / 2 ^ 32 = 0xffff then .v4 (bits.setWidth 32) else .v6 bits

/-- IPv4 addresses come before IPv6 ones, each kind in numeric order. -/
def rank : IpAddr → Nat
  | .v4 bits => bits.toNat
  | .v6 bits => 2 ^ 32 + bits.toNat

theorem rank_injective : Function.Injective rank := by
  intro first second h
  cases first with
  | v4 first =>
    cases second with
    | v4 second => exact congrArg v4 (BitVec.eq_of_toNat_eq h)
    | v6 second =>
      have := first.isLt
      simp only [rank] at h
      omega
  | v6 first =>
    cases second with
    | v4 second =>
      have := second.isLt
      simp only [rank] at h
      omega
    | v6 second =>
      simp only [rank] at h
      exact congrArg v6 (BitVec.eq_of_toNat_eq (by omega))

instance : LinearOrder IpAddr where
  le first second := rank first ≤ rank second
  le_refl _ := Nat.le_refl _
  le_trans _ _ _ := Nat.le_trans
  le_antisymm _ _ hle hge := rank_injective (Nat.le_antisymm hle hge)
  le_total first second := Nat.le_total (rank first) (rank second)
  toDecidableLE first second := inferInstanceAs (Decidable (rank first ≤ rank second))
  toDecidableEq := inferInstance

def isIpv4 : IpAddr → Bool
  | .v4 _ => true
  | .v6 _ => false

end IpAddr

namespace Text

/-- What stands before and after the first occurrence of `pattern`. -/
def splitOnce (pattern : Text) : Text → Option (Text × Text)
  | [] => if pattern.isEmpty then some ([], []) else none
  | c :: rest =>
      if pattern.isPrefixOf (c :: rest) then some ([], (c :: rest).drop pattern.length)
      else (splitOnce pattern rest).map fun parts => (c :: parts.1, parts.2)

def isHexDigit (c : Char) : Bool :=
  c.isDigit || ('a' ≤ c && c ≤ 'f') || ('A' ≤ c && c ≤ 'F')

def hexDigitValue (c : Char) : Nat :=
  if c.isDigit then c.toNat - '0'.toNat
  else if 'a' ≤ c then c.toNat - 'a'.toNat + 10
  else c.toNat - 'A'.toNat + 10

def readHex (s : Text) : Nat := s.foldl (fun n c => 16 * n + hexDigitValue c) 0

/-- One to three digits without a leading zero, at most 255. -/
def parseOctet (s : Text) : Option Nat :=
  if 1 ≤ s.length && s.length ≤ 3 && s.all Char.isDigit && (s.length == 1 || s.head? != some '0') &&
      readDigits s < 256 then
    some (readDigits s)
  else none

/-- `str::parse::<Ipv4Addr>`. -/
def parseIpv4 (s : Text) : Option Ipv4Addr :=
  match (s.splitOn '.').mapM parseOctet with
  | some [a, b, c, d] => some (BitVec.ofNat 32 (((a * 256 + b) * 256 + c) * 256 + d))
  | _ => none

/-- One to four hexadecimal digits. -/
def parseGroup (s : Text) : Option Nat :=
  if 1 ≤ s.length && s.length ≤ 4 && s.all isHexDigit then some (readHex s) else none

/-- The 16-bit groups of a part of an IPv6 address. A part that `ends` the
address may close with an IPv4 one, which counts as two groups. -/
def parseGroups (ends : Bool) : List Text → Option (List Nat)
  | [] => some []
  | [last] =>
      match (parseGroup last, if ends then parseIpv4 last else none) with
      | (some group, _) => some [group]
      | (none, some v4) => some [v4.toNat / 65536, v4.toNat % 65536]
      | (none, none) => none
  | group :: rest => do
      let group ← parseGroup group
      let rest ← parseGroups ends rest
      return group :: rest

def groupsOf (ends : Bool) (part : Text) : Option (List Nat) :=
  if part.isEmpty then some [] else parseGroups ends (part.splitOn ':')

/-- `str::parse::<Ipv6Addr>`: eight groups, or fewer around one `::`. -/
def parseIpv6 (s : Text) : Option Ipv6Addr := do
  let groups ←
    match splitOnce [':', ':'] s with
    | none => groupsOf true s
    | some (head, tail) => do
        let head ← groupsOf false head
        let tail ← groupsOf true tail
        if head.length + tail.length ≤ 7 then
          some (head ++ List.replicate (8 - head.length - tail.length) 0 ++ tail)
        else none
  if groups.length = 8 then
    some (BitVec.ofNat 128 (groups.foldl (fun n group => 65536 * n + group) 0))
  else none

end Text

/-- The eight groups of an IPv6 address. -/
def Ipv6Addr.segments (ip : Ipv6Addr) : List Nat :=
  [7, 6, 5, 4, 3, 2, 1, 0].map fun i => ip.toNat / 65536 ^ i % 65536

/-- Where the first of the longest runs of zero groups starts, and its length;
`start` and `length` are those of the run that is being read. -/
def longestZeros : List Nat → (at_ start length : Nat) → (best : Nat × Nat) → Nat × Nat
  | [], _, _, _, best => best
  | group :: rest, at_, start, length, best =>
      if group = 0 then
        let start := if length = 0 then at_ else start
        let best := if best.2 < length + 1 then (start, length + 1) else best
        longestZeros rest (at_ + 1) start (length + 1) best
      else longestZeros rest (at_ + 1) 0 0 best

def dotted (ip : Ipv4Addr) : Text :=
  (['.'] : Text).intercalate ([3, 2, 1, 0].map fun i => Text.ofNat (ip.toNat / 256 ^ i % 256))

def colonHex (groups : List Nat) : Text := ([':'] : Text).intercalate (groups.map (Nat.toDigits 16))

/-- `Display` of an address. -/
def IpAddr.toText : IpAddr → Text
  | .v4 ip => dotted ip
  | .v6 ip =>
      if ip.toNat / 2 ^ 32 = 0xffff then "::ffff:".toList ++ dotted (ip.setWidth 32)
      else
        let groups := ip.segments
        let (start, length) := longestZeros groups 0 0 0 (0, 0)
        if 1 < length then colonHex (groups.take start) ++ ':' :: ':' :: colonHex (groups.drop (start + length))
        else colonHex groups

namespace Text

/-- The width of the UTF-8 sequence that a byte leads; 0 where none starts with it. -/
def utf8Width (lead : UInt8) : Nat :=
  if lead < 0x80 then 1
  else if 0xC2 ≤ lead && lead ≤ 0xDF then 2
  else if 0xE0 ≤ lead && lead ≤ 0xEF then 3
  else if 0xF0 ≤ lead && lead ≤ 0xF4 then 4
  else 0

def utf8Continues (low high : UInt8) : UInt8 → Bool := fun b => low ≤ b && b ≤ high

/-- How many of the bytes after a lead byte continue its sequence. -/
def utf8Continued (lead : UInt8) (rest : List UInt8) : Nat :=
  let second :=
    if lead == 0xE0 then utf8Continues 0xA0 0xBF
    else if lead == 0xED then utf8Continues 0x80 0x9F
    else if lead == 0xF0 then utf8Continues 0x90 0xBF
    else if lead == 0xF4 then utf8Continues 0x80 0x8F
    else utf8Continues 0x80 0xBF
  match rest.take (utf8Width lead - 1) with
  | [] => 0
  | b :: more => if second b then 1 + (more.takeWhile (utf8Continues 0x80 0xBF)).length else 0

def utf8Scalar (lead : UInt8) (rest : List UInt8) : Nat :=
  let bits := match utf8Width lead with
    | 2 => lead.toNat % 32
    | 3 => lead.toNat % 16
    | 4 => lead.toNat % 8
    | _ => lead.toNat
  rest.foldl (fun n b => 64 * n + b.toNat % 64) bits

/-- `String::from_utf8_lossy`: each ill-formed piece becomes one U+FFFD. Every
step takes a byte at least, so the number of bytes is enough fuel. -/
def utf8LossyFrom : Nat → List UInt8 → Text
  | 0, _ => []
  | _ + 1, [] => []
  | fuel + 1, lead :: rest =>
      let continued := utf8Continued lead rest
      let c := if continued + 1 = utf8Width lead then Char.ofNat (utf8Scalar lead (rest.take continued))
        else Char.ofNat 0xFFFD
      c :: utf8LossyFrom fuel (rest.drop continued)

def utf8Lossy (bytes : List UInt8) : Text := utf8LossyFrom bytes.length bytes

end Text

/-- A network: an address in it and how many of its leading bits are common. -/
structure IpNet (w : Nat) where
  addr : BitVec w
  prefixLen : Fin (w + 1)
deriving DecidableEq, Repr

/-! The lengths of a network's prefix, as literals. -/

instance (priority := 2000) neZeroV4 : NeZero (32 + 1) := inferInstance

instance (priority := 2000) neZeroV6 : NeZero (128 + 1) := inferInstance

namespace IpNet

variable {w : Nat}

def hostBits (net : IpNet w) : Nat := w - net.prefixLen

/-- The first address of the network. -/
def network (net : IpNet w) : BitVec w :=
  BitVec.ofNat w (net.addr.toNat / 2 ^ net.hostBits * 2 ^ net.hostBits)

/-- The last address of the network. -/
def broadcast (net : IpNet w) : BitVec w :=
  BitVec.ofNat w (net.network.toNat + (2 ^ net.hostBits - 1))

def netmask (net : IpNet w) : BitVec w := BitVec.ofNat w (2 ^ w - 2 ^ net.hostBits)

def contains (net : IpNet w) (ip : BitVec w) : Bool :=
  net.network.toNat ≤ ip.toNat && ip.toNat ≤ net.broadcast.toNat

end IpNet

inductive Network where
  | v4 (net : IpNet 32)
  | v6 (net : IpNet 128)
deriving DecidableEq, Repr

def Network.contains : Network → IpAddr → Bool
  | .v4 net, .v4 ip => net.contains ip
  | .v6 net, .v6 ip => net.contains ip
  | _, _ => false

/-- The addresses of an inclusive range, in order. -/
def addressRange {w : Nat} (start last : BitVec w) : List (BitVec w) :=
  (List.range' start.toNat (last.toNat + 1 - start.toNat)).map (BitVec.ofNat w)

namespace IpNet

/-! Networks as ranges of addresses: an address is in a network when it has the network's prefix. -/

variable {w : Nat} (net : IpNet w)

theorem toNat_network : net.network.toNat = net.addr.toNat / 2 ^ net.hostBits * 2 ^ net.hostBits := by
  have hle : net.addr.toNat / 2 ^ net.hostBits * 2 ^ net.hostBits ≤ net.addr.toNat := Nat.div_mul_le_self _ _
  have hlt := net.addr.isLt
  rw [network, BitVec.toNat_ofNat, Nat.mod_eq_of_lt (by omega)]

theorem toNat_broadcast : net.broadcast.toNat = net.network.toNat + (2 ^ net.hostBits - 1) := by
  have hpow : 2 ^ net.hostBits * 2 ^ (net.prefixLen : Nat) = 2 ^ w := by
    have hlen : (net.prefixLen : Nat) ≤ w := Nat.le_of_lt_succ net.prefixLen.isLt
    rw [← Nat.pow_add, hostBits]
    congr 1
    omega
  have hpos : 0 < 2 ^ net.hostBits := Nat.two_pow_pos _
  have hquotient : net.addr.toNat / 2 ^ net.hostBits < 2 ^ (net.prefixLen : Nat) := by
    rw [Nat.div_lt_iff_lt_mul hpos, Nat.mul_comm, hpow]
    exact net.addr.isLt
  have hnext : (net.addr.toNat / 2 ^ net.hostBits + 1) * 2 ^ net.hostBits ≤ 2 ^ w := by
    rw [← hpow, Nat.mul_comm (2 ^ net.hostBits)]
    exact Nat.mul_le_mul_right _ hquotient
  rw [broadcast, BitVec.toNat_ofNat, toNat_network, Nat.mod_eq_of_lt]
  rw [Nat.add_mul] at hnext
  omega

theorem contains_iff (ip : BitVec w) :
    net.contains ip = true ↔ ip.toNat / 2 ^ net.hostBits = net.addr.toNat / 2 ^ net.hostBits := by
  have hpos : 0 < 2 ^ net.hostBits := Nat.two_pow_pos _
  simp only [contains, Bool.and_eq_true, decide_eq_true_eq, toNat_broadcast, toNat_network]
  have hmod := Nat.div_add_mod ip.toNat (2 ^ net.hostBits)
  have hrest := Nat.mod_lt ip.toNat hpos
  rw [Nat.mul_comm] at hmod
  constructor
  · intro ⟨hlow, hhigh⟩
    apply Nat.div_eq_of_lt_le
    · exact hlow
    · rw [Nat.add_mul]
      omega
  · intro hsame
    rw [← hsame]
    omega

end IpNet

end DaygleDns
