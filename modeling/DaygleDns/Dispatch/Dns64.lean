import DaygleDns.Settings.Networks
import DaygleDns.Addresses
import DaygleDns.Numerals

/-! DNS64: IPv6 addresses made from IPv4 ones, inside a prefix. -/
namespace DaygleDns.Dispatch

open Text Policy Settings

structure Dns64Settings where
  enabled : Bool
  prefixText : Text
  clients : List Text
deriving DecidableEq

/-- The settings, parsed. -/
structure Dns64 where
  net : IpNet 128
  clients : List Network
deriving DecidableEq

/-- The bytes of an address of `n` bytes. -/
def octets (n : Nat) {w : Nat} (ip : BitVec w) : List Nat :=
  (List.range n).reverse.map fun i => ip.toNat / 256 ^ i % 256

def ofOctets (bytes : List Nat) : Ipv6Addr := BitVec.ofNat 128 (bytes.foldl (fun n b => 256 * n + b) 0)

def dns64WellKnown : Ipv6Addr := BitVec.ofNat 128 (0x64ff9b * 2 ^ 96)

def prefixLengths : List Nat := [32, 40, 48, 56, 64, 96]

def Dns64Settings.compile (libs : Libraries) (settings : Dns64Settings) (networks : List NamedNetwork) :
    Except Text (Option Dns64) := do
  let some (.v6 net) := libs.parseIpNet (trim settings.prefixText)
    | throw (quoted (trim settings.prefixText) ++ " is not an IPv6 prefix".toList)
  if net.prefixLen.val ∉ prefixLengths then
    throw ("the prefix must be a /32, /40, /48, /56, /64 or /96 (RFC 6052), not /".toList ++ ofNat net.prefixLen)
  let net : IpNet 128 := ⟨net.network, net.prefixLen⟩
  if (octets 16 net.addr)[8]? ≠ some 0 then
    throw "bits 64 to 71 of the prefix must be zero (RFC 6052)".toList
  let clients ← (resolveNetworkList libs networks settings.clients).mapM fun entry =>
    match parseNetwork libs entry with
    | some net => .ok net
    | none => .error (quoted entry ++ " is not a network, an address or a network name".toList)
  pure (if settings.enabled then some ⟨net, clients⟩ else none)

/-- Whether the address is globally reachable. -/
def isGlobalV4 (ip : Ipv4Addr) : Bool :=
  let n := ip.toNat
  let a := n / 2 ^ 24
  !(a == 10 || n / 2 ^ 20 == 0xac1 || n / 2 ^ 16 == 0xc0a8 || a == 127 || n / 2 ^ 16 == 0xa9fe || n == 0 ||
    n == 0xffffffff || n / 2 ^ 8 == 0xc00002 || n / 2 ^ 8 == 0xc63364 || n / 2 ^ 8 == 0xcb0071 ||
    n / 2 ^ 28 == 0xe || a == 0 || n / 2 ^ 22 == 0x191 || n / 2 ^ 8 == 0xc00000 || n / 2 ^ 17 == 0x6309 ||
    240 ≤ a)

/-- Write the bytes from a place on, around byte 8, which is reserved. -/
def embedAt (target : List Nat) (at_ : Nat) : List Nat → List Nat
  | [] => target
  | byte :: rest =>
      let at_ := if at_ = 8 then at_ + 1 else at_
      embedAt (target.set at_ byte) (at_ + 1) rest

namespace Dns64

def appliesTo (dns64 : Dns64) (client : IpAddr) : Bool :=
  dns64.clients.isEmpty || dns64.clients.any (·.contains client.toCanonical)

/-- Nothing for an address that the well-known prefix must not carry. -/
def synthesize (dns64 : Dns64) (v4 : Ipv4Addr) : Option Ipv6Addr :=
  if dns64.net.addr = dns64WellKnown ∧ ¬ isGlobalV4 v4 then none
  else some (ofOctets (embedAt (octets 16 dns64.net.addr) (dns64.net.prefixLen.val / 8) (octets 4 v4)))

example : synthesize ⟨⟨BitVec.ofNat 128 (0x20010db8 * 2 ^ 96), 32⟩, []⟩ (BitVec.ofNat 32 0xc0000221) =
    some (BitVec.ofNat 128 (0x20010db8c0000221 * 2 ^ 64)) := by
  decide

end Dns64

/-! The addresses that DNS64 makes: where in them the prefix, the reserved byte and the IPv4
address are. -/

theorem octets_eq_reverse (n : Nat) {w : Nat} (ip : BitVec w) : octets n ip = (lowDigits 256 n ip.toNat).reverse := by
  rw [octets, lowDigits, List.map_reverse]

theorem length_octets (n : Nat) {w : Nat} (ip : BitVec w) : (octets n ip).length = n := by simp [octets]

theorem octets_lt (n : Nat) {w : Nat} (ip : BitVec w) : ∀ byte ∈ octets n ip, byte < 256 := by
  intro byte hbyte
  rw [octets_eq_reverse, List.mem_reverse] at hbyte
  exact lowDigits_lt (by decide) _ _ byte hbyte

theorem octets_ofOctets {bytes : List Nat} (hlength : bytes.length = 16) (h : ∀ byte ∈ bytes, byte < 256) :
    octets 16 (ofOctets bytes) = bytes := by
  have hdigits : ∀ byte ∈ bytes.reverse, byte < 256 := fun byte hbyte => h byte (List.mem_reverse.mp hbyte)
  have hread := lowDigits_toNat (w := 128) (by decide) hdigits (by rw [List.length_reverse, hlength]; decide)
  have hvalue := foldl_reverse_eq_ofDigits 256 bytes.reverse
  rw [List.reverse_reverse] at hvalue
  rw [List.length_reverse, hlength] at hread
  rw [octets_eq_reverse, ofOctets, hvalue, hread, List.reverse_reverse]

/-- The bits of an address, byte by byte. -/
theorem getMsbD_eq (n : Nat) (ip : BitVec (8 * n)) {i : Nat} (hi : i < 8 * n) :
    ip.getMsbD i = ((octets n ip).getD (i / 8) 0).testBit (7 - i % 8) := by
  have hplace : 8 * n - 1 - i = 8 * (n - 1 - i / 8) + (7 - i % 8) := by omega
  have hbyte : (octets n ip).getD (i / 8) 0 = ip.toNat / 2 ^ (8 * (n - 1 - i / 8)) % 2 ^ 8 := by
    have hlt : i / 8 < n := by omega
    rw [List.getD_eq_getElem?_getD, List.getElem?_eq_getElem (by rw [length_octets]; exact hlt), Option.getD_some, Nat.pow_mul]
    simp only [octets, List.getElem_map, List.getElem_reverse, List.getElem_range, List.length_range]
    rfl
  have hsmall : 7 - i % 8 < 8 := by omega
  rw [hbyte, Nat.testBit_mod_two_pow, Nat.testBit_div_two_pow, BitVec.getMsbD, BitVec.getLsbD]
  simp only [hi, hsmall, decide_true, Bool.true_and]
  rw [hplace, Nat.add_comm]

/-- The leading bytes of an address are those of its prefix. -/
theorem prefix_of_octets {n k : Nat} (hk : k ≤ n) {first second : BitVec (8 * n)}
    (h : (octets n first).take k = (octets n second).take k) :
    first.toNat / 256 ^ (n - k) = second.toNat / 256 ^ (n - k) := by
  have hdrop (x : Nat) : (lowDigits 256 n x).drop (n - k) = lowDigits 256 k (x / 256 ^ (n - k)) := by
    unfold lowDigits
    rw [← List.map_drop, List.range_eq_range', List.drop_range', List.range_eq_range', List.range'_eq_map_range,
      List.range'_eq_map_range, List.map_map, List.map_map]
    rw [show n - (n - k) = k by omega]
    apply List.map_congr_left
    intro i _
    simp only [Function.comp_apply, Nat.zero_add, Nat.mul_one]
    rw [Nat.pow_add, Nat.div_div_eq_div_mul]
  have hread (ip : BitVec (8 * n)) :
      Nat.ofDigits 256 ((octets n ip).take k).reverse = ip.toNat / 256 ^ (n - k) := by
    have hlt : ip.toNat / 256 ^ (n - k) < 256 ^ k := by
      rw [Nat.div_lt_iff_lt_mul (by positivity), ← Nat.pow_add, Nat.add_sub_cancel' hk]
      have hsize : (256 : Nat) ^ n = 2 ^ (8 * n) := by rw [Nat.pow_mul]
      rw [hsize]
      exact ip.isLt
    have hlength : (lowDigits 256 n ip.toNat).length = n := by simp [lowDigits]
    rw [octets_eq_reverse, List.take_reverse, List.reverse_reverse, hlength, hdrop, ofDigits_lowDigits, Nat.mod_eq_of_lt hlt]
  rw [← hread first, ← hread second, h]

/-- `embedAt` with the indexes checked, as the code's indexing is. -/
def embedChecked (target : List Nat) (at_ : Nat) : List Nat → Option (List Nat)
  | [] => some target
  | byte :: rest =>
      let at_ := if at_ = 8 then at_ + 1 else at_
      if at_ < target.length then embedChecked (target.set at_ byte) (at_ + 1) rest else none

/-- The bytes of the prefix stand. -/
theorem take_embedAt (target : List Nat) {k at_ : Nat} (h : k ≤ at_) (bytes : List Nat) :
    (embedAt target at_ bytes).take k = target.take k := by
  induction bytes generalizing target at_ with
  | nil => rfl
  | cons byte rest ih =>
    have hle : k ≤ if at_ = 8 then at_ + 1 else at_ := by
      split <;> omega
    rw [embedAt, ih _ (by omega), List.take_set_of_le hle]

theorem length_embedAt (target : List Nat) (at_ : Nat) (bytes : List Nat) :
    (embedAt target at_ bytes).length = target.length := by
  induction bytes generalizing target at_ with
  | nil => rfl
  | cons byte rest ih => rw [embedAt, ih, List.length_set]

theorem embedAt_lt {target : List Nat} (at_ : Nat) {bytes : List Nat} (htarget : ∀ byte ∈ target, byte < 256)
    (hbytes : ∀ byte ∈ bytes, byte < 256) : ∀ byte ∈ embedAt target at_ bytes, byte < 256 := by
  induction bytes generalizing target at_ with
  | nil => exact htarget
  | cons byte rest ih =>
    rw [List.forall_mem_cons] at hbytes
    apply ih _ _ hbytes.2
    intro other hother
    rcases List.mem_or_eq_of_mem_set hother with hmem | rfl
    · exact htarget other hmem
    · exact hbytes.1

/-- Where the byte `j` of the IPv4 address is, behind a prefix of `k` bytes. -/
def placeOf (k j : Nat) : Nat := if k ≤ 8 ∧ 8 ≤ k + j then k + j + 1 else k + j

def prefixBytes : List Nat := [4, 5, 6, 7, 8, 12]

theorem getElem?_embedAt {target : List Nat} (hlength : target.length = 16) {k : Nat} (hk : k ∈ prefixBytes)
    (a b c d i : Nat) : (embedAt target k [a, b, c, d])[i]? =
      if i = placeOf k 0 then some a else if i = placeOf k 1 then some b
      else if i = placeOf k 2 then some c else if i = placeOf k 3 then some d else target[i]? := by
  simp only [prefixBytes, List.mem_cons, List.not_mem_nil, or_false] at hk
  rcases hk with rfl | rfl | rfl | rfl | rfl | rfl <;>
    simp only [embedAt, placeOf, List.getElem?_set, List.length_set, hlength] <;> grind

theorem embedChecked_eq {target : List Nat} (hlength : target.length = 16) {k : Nat} (hk : k ∈ prefixBytes)
    (a b c d : Nat) : embedChecked target k [a, b, c, d] = some (embedAt target k [a, b, c, d]) := by
  simp only [prefixBytes, List.mem_cons, List.not_mem_nil, or_false] at hk
  rcases hk with rfl | rfl | rfl | rfl | rfl | rfl <;> simp [embedChecked, embedAt, hlength]

/-- Where the bits of the IPv4 address end, behind a prefix of `len` bits. -/
def embeddedEnd (len : Nat) : Nat := if 32 < len ∧ len ≤ 64 then len + 40 else len + 32

/-- The 32 bits behind the prefix, without bits 64 to 71. -/
def embedded (len : Nat) (ip : Ipv6Addr) : List Bool :=
  (((List.range 128).filter fun i => decide (len ≤ i) && !(decide (64 ≤ i) && decide (i < 72))).take 32).map ip.getMsbD

/-- What `compile` checks of a prefix. -/
structure Embeds (net : IpNet 128) : Prop where
  length : net.prefixLen.val ∈ prefixLengths
  truncated : net.network = net.addr
  reserved : (octets 16 net.addr)[8]? = some 0

theorem network_network (net : IpNet 128) : (⟨net.network, net.prefixLen⟩ : IpNet 128).network = net.network := by
  apply BitVec.eq_of_toNat_eq
  have hpos : 0 < 2 ^ net.hostBits := Nat.two_pow_pos _
  rw [IpNet.toNat_network, IpNet.hostBits]
  change net.network.toNat / 2 ^ net.hostBits * 2 ^ net.hostBits = _
  rw [IpNet.toNat_network, Nat.mul_div_cancel _ hpos]

theorem embeds_of_compile {libs : Libraries} {settings : Dns64Settings} {networks : List NamedNetwork} {dns64 : Dns64}
    (h : settings.compile libs networks = .ok (some dns64)) : Embeds dns64.net := by
  unfold Dns64Settings.compile at h
  split at h
  next net hnet =>
    simp only [Fallible.throw_bind_eq_ok] at h
    obtain ⟨hlength, hreserved, h⟩ := h
    obtain ⟨clients, -, h⟩ := Fallible.bind_eq_ok.mp h
    cases henabled : settings.enabled with
    | false =>
      rw [henabled] at h
      cases h
    | true =>
      rw [henabled] at h
      cases h
      exact ⟨not_not.mp hlength, network_network net, not_not.mp hreserved⟩
  next => cases h

theorem prefixBytes_of_length {len : Nat} (h : len ∈ prefixLengths) : len / 8 ∈ prefixBytes ∧ len = 8 * (len / 8) := by
  simp only [prefixLengths, List.mem_cons, List.not_mem_nil, or_false] at h
  rcases h with rfl | rfl | rfl | rfl | rfl | rfl <;> decide

theorem embeddedEnd_eq {k : Nat} (h : k ∈ prefixBytes) : embeddedEnd (8 * k) = 8 * (placeOf k 3 + 1) := by
  simp only [prefixBytes, List.mem_cons, List.not_mem_nil, or_false] at h
  rcases h with rfl | rfl | rfl | rfl | rfl | rfl <;> decide

theorem placeOf_ne_reserved (k j : Nat) : placeOf k j ≠ 8 := by
  unfold placeOf
  split <;> omega

theorem placeOf_inj {k first second : Nat} : placeOf k first = placeOf k second ↔ first = second := by
  unfold placeOf
  split <;> split <;> omega

/-- Where the bits are that are read back. -/
theorem embedded_eq {k : Nat} (h : k ∈ prefixBytes) (ip : Ipv6Addr) :
    embedded (8 * k) ip = (List.range 32).map fun i => ip.getMsbD (8 * placeOf k (i / 8) + i % 8) := by
  have hplaces : ((List.range 128).filter fun i => decide (8 * k ≤ i) && !(decide (64 ≤ i) && decide (i < 72))).take 32 =
      (List.range 32).map fun i => 8 * placeOf k (i / 8) + i % 8 := by
    simp only [prefixBytes, List.mem_cons, List.not_mem_nil, or_false] at h
    rcases h with rfl | rfl | rfl | rfl | rfl | rfl <;> decide
  rw [embedded, hplaces, List.map_map]
  rfl

theorem octets_v4 (v4 : Ipv4Addr) : ∃ a b c d, octets 4 v4 = [a, b, c, d] := ⟨_, _, _, _, rfl⟩

namespace Embeds

variable {net : IpNet 128} (hnet : Embeds net)

include hnet

/-- Behind the prefix the bytes are zero. -/
theorem getElem?_addr {i : Nat} (hlow : net.prefixLen.val / 8 ≤ i) (hi : i < 16) : (octets 16 net.addr)[i]? = some 0 := by
  have hlen := (prefixBytes_of_length hnet.length).2
  have hhost : 2 ^ net.hostBits = 256 ^ (16 - net.prefixLen.val / 8) := by
    rw [IpNet.hostBits, show (256 : Nat) = 2 ^ 8 from rfl, ← Nat.pow_mul]
    congr 1
    omega
  have hplace : 16 - net.prefixLen.val / 8 = (i - net.prefixLen.val / 8) + 1 + (15 - i) := by omega
  have haddr : net.addr.toNat =
      net.addr.toNat / 2 ^ net.hostBits * 256 ^ (i - net.prefixLen.val / 8) * 256 * 256 ^ (15 - i) := by
    calc net.addr.toNat = net.addr.toNat / 2 ^ net.hostBits * 2 ^ net.hostBits := by rw [← net.toNat_network, hnet.truncated]
      _ = _ := by rw [hhost, hplace, Nat.pow_add, Nat.pow_succ, Nat.mul_assoc, Nat.mul_assoc, Nat.mul_assoc]
  have hzero : net.addr.toNat / 256 ^ (15 - i) % 256 = 0 := by
    rw [haddr, Nat.mul_div_cancel _ (by positivity), Nat.mul_mod_left]
  rw [List.getElem?_eq_getElem (by rw [length_octets]; exact hi)]
  simp only [octets, List.getElem_map, List.getElem_reverse, List.getElem_range, List.length_range]
  rw [show 16 - 1 - i = 15 - i by omega, hzero]

variable {clients : List Network} {v4 : Ipv4Addr} {v6 : Ipv6Addr} (h : (⟨net, clients⟩ : Dns64).synthesize v4 = some v6)

include h

omit hnet in
theorem octets_synthesize :
    octets 16 v6 = embedAt (octets 16 net.addr) (net.prefixLen.val / 8) (octets 4 v4) := by
  unfold Dns64.synthesize at h
  split at h
  · cases h
  · cases h
    rw [octets_ofOctets]
    · rw [length_embedAt, length_octets]
    · exact embedAt_lt _ (octets_lt 16 _) (octets_lt 4 v4)

theorem byte_embedded {j : Nat} (hj : j < 4) :
    (octets 16 v6).getD (placeOf (net.prefixLen.val / 8) j) 0 = (octets 4 v4).getD j 0 := by
  obtain ⟨a, b, c, d, hbytes⟩ := octets_v4 v4
  have hk := (prefixBytes_of_length hnet.length).1
  rw [octets_synthesize h, hbytes, List.getD_eq_getElem?_getD, getElem?_embedAt (length_octets 16 _) hk]
  interval_cases j <;> simp [placeOf_inj]

theorem byte_behind {i : Nat} (hi : i < 16) (h8 : i = 8 ∨ placeOf (net.prefixLen.val / 8) 3 < i) :
    (octets 16 v6).getD i 0 = 0 := by
  obtain ⟨a, b, c, d, hbytes⟩ := octets_v4 v4
  have hk := (prefixBytes_of_length hnet.length).1
  have hother : ∀ j < 4, i ≠ placeOf (net.prefixLen.val / 8) j := by
    intro j hj hsame
    rcases h8 with h8 | hlater
    · exact placeOf_ne_reserved _ j (hsame.symm.trans h8)
    · unfold placeOf at hsame hlater
      grind
  rw [octets_synthesize h, hbytes, List.getD_eq_getElem?_getD, getElem?_embedAt (length_octets 16 _) hk,
    if_neg (hother 0 (by decide)), if_neg (hother 1 (by decide)), if_neg (hother 2 (by decide)), if_neg (hother 3 (by decide))]
  rcases h8 with rfl | hlater
  · rw [hnet.reserved, Option.getD_some]
  · have hlow : net.prefixLen.val / 8 ≤ i := by
      unfold placeOf at hlater
      grind
    rw [getElem?_addr hnet hlow hi, Option.getD_some]

theorem contains_synthesize : net.contains v6 = true := by
  obtain ⟨hk, hlen⟩ := prefixBytes_of_length hnet.length
  have hle : net.prefixLen.val / 8 ≤ 16 := by omega
  have htake : (octets 16 v6).take (net.prefixLen.val / 8) = (octets 16 net.addr).take (net.prefixLen.val / 8) := by
    rw [octets_synthesize h, take_embedAt _ (Nat.le_refl _)]
  have hprefix := @prefix_of_octets 16 _ hle v6 net.addr htake
  have hhost : 2 ^ net.hostBits = 256 ^ (16 - net.prefixLen.val / 8) := by
    rw [IpNet.hostBits, show (256 : Nat) = 2 ^ 8 from rfl, ← Nat.pow_mul]
    congr 1
    omega
  rw [IpNet.contains_iff, hhost]
  exact hprefix

end Embeds

/-- Every address that is made lies in the prefix, has zeros in bits 64 to 71 and behind the IPv4
address, and gives that address back; and no byte is written outside of it. -/
theorem synthesized_addresses (libs : Libraries) (settings : Dns64Settings) (networks : List NamedNetwork) (dns64 : Dns64)
    (hcompile : settings.compile libs networks = .ok (some dns64)) :
    (∀ v4 v6, dns64.synthesize v4 = some v6 →
      dns64.net.contains v6 = true ∧ (∀ i, 64 ≤ i → i < 72 → v6.getMsbD i = false) ∧
      (∀ i, embeddedEnd dns64.net.prefixLen.val ≤ i → v6.getMsbD i = false) ∧
      embedded dns64.net.prefixLen.val v6 = (List.range 32).map v4.getMsbD) ∧
    (∀ first second v6, dns64.synthesize first = some v6 → dns64.synthesize second = some v6 → first = second) ∧
    ∀ v4 : Ipv4Addr, embedChecked (octets 16 dns64.net.addr) (dns64.net.prefixLen.val / 8) (octets 4 v4) =
      some (embedAt (octets 16 dns64.net.addr) (dns64.net.prefixLen.val / 8) (octets 4 v4)) := by
  have hnet := embeds_of_compile hcompile
  obtain ⟨hk, hlen⟩ := prefixBytes_of_length hnet.length
  have hbits (v6 : Ipv6Addr) {i : Nat} (hi : i < 128) :
      v6.getMsbD i = ((octets 16 v6).getD (i / 8) 0).testBit (7 - i % 8) := @getMsbD_eq 16 v6 i hi
  have hback : ∀ v4 v6, dns64.synthesize v4 = some v6 →
      embedded dns64.net.prefixLen.val v6 = (List.range 32).map v4.getMsbD := by
    intro v4 v6 h
    rw [hlen, embedded_eq hk]
    apply List.map_congr_left
    intro i hi
    have hi := List.mem_range.mp hi
    have hplace : placeOf (dns64.net.prefixLen.val / 8) (i / 8) < 16 := by
      simp only [prefixBytes, List.mem_cons, List.not_mem_nil, or_false] at hk
      unfold placeOf
      grind
    have hbyte := Embeds.byte_embedded hnet h (show i / 8 < 4 by omega)
    have hv4 : v4.getMsbD i = ((octets 4 v4).getD (i / 8) 0).testBit (7 - i % 8) := @getMsbD_eq 4 v4 i hi
    rw [hbits v6 (by omega), hv4, Nat.mul_add_div (by decide), Nat.div_eq_of_lt (Nat.mod_lt i (by decide)), Nat.add_zero,
      hbyte, Nat.mul_add_mod, Nat.mod_mod]
  refine ⟨fun v4 v6 h => ⟨hnet.contains_synthesize h, ?_, ?_, hback v4 v6 h⟩, ?_, ?_⟩
  · intro i hlow hhigh
    have hbyte := hnet.byte_behind h (show i / 8 < 16 by omega) (.inl (by omega))
    rw [hbits v6 (by omega), hbyte, Nat.zero_testBit]
  · intro i hlow
    rw [hlen, embeddedEnd_eq hk] at hlow
    by_cases hi : i < 128
    · have hbyte := hnet.byte_behind h (show i / 8 < 16 by omega) (.inr (by omega))
      rw [hbits v6 hi, hbyte, Nat.zero_testBit]
    · exact BitVec.getMsbD_of_ge v6 i (by omega)
  · intro first second v6 hfirst hsecond
    have hsame := (hback first v6 hfirst).symm.trans (hback second v6 hsecond)
    apply BitVec.eq_of_getMsbD_eq
    intro i hi
    exact List.map_inj_left.mp hsame i (List.mem_range.mpr hi)
  · intro v4
    obtain ⟨a, b, c, d, hbytes⟩ := octets_v4 v4
    rw [hbytes]
    exact embedChecked_eq (length_octets 16 _) hk a b c d

def documentationSettings : Dns64Settings := ⟨true, "2001:db8:100::/40", []⟩

/-- Around bits 64 to 71: three bytes of the IPv4 address before them, one behind. -/
theorem synthesized_addresses_documentation :
    ∃ v6, (⟨⟨BitVec.ofNat 128 (0x20010db801 * 2 ^ 88), 40⟩, []⟩ : Dns64).synthesize (BitVec.ofNat 32 0xc0000221) = some v6 ∧
      v6 = BitVec.ofNat 128 (0x20010db801c000020021 * 2 ^ 48) ∧
      embedded 40 v6 = (List.range 32).map (BitVec.ofNat 32 0xc0000221).getMsbD := by
  have h := synthesized_addresses plainLibraries documentationSettings [] _
    (show _ = Except.ok (some ⟨⟨BitVec.ofNat 128 (0x20010db801 * 2 ^ 88), 40⟩, []⟩) by decide)
  have hmade : (⟨⟨BitVec.ofNat 128 (0x20010db801 * 2 ^ 88), 40⟩, []⟩ : Dns64).synthesize (BitVec.ofNat 32 0xc0000221) =
      some (BitVec.ofNat 128 (0x20010db801c000020021 * 2 ^ 48)) := by decide
  exact ⟨_, hmade, rfl, (h.1 _ _ hmade).2.2.2⟩

end DaygleDns.Dispatch
