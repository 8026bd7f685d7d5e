import DaygleDns.AddressFacts
import DaygleDns.Fallible
import DaygleDns.Recursive.Upstreams

/-! The forms of upstream entries, and the texts that are read though they have none of them. -/
namespace DaygleDns.Recursive

open Text Policy Dispatch

/-! The documented forms. -/

/-- Digits, and no more than fit. -/
structure IsPort (s : Text) (port : UInt16) : Prop where
  ne_nil : s ≠ []
  digits : ∀ c ∈ s, c.isDigit = true
  value : readDigits s = port.toNat

/-- An address and perhaps a port, which an IPv6 address has behind its brackets. There may be blanks
around an address without them. -/
inductive HostPort : Text → IpAddr → Option UInt16 → Prop
  | bare {s : Text} {ip : IpAddr} : parseIpAddr s = some ip → HostPort s ip none
  | ported {host p : Text} {ip : IpAddr} {port : UInt16} : ':' ∉ host → parseIpAddr (trim host) = some ip →
      IsPort p port → HostPort (host ++ ':' :: p) ip (some port)
  | bracketed {host : Text} {ip : Ipv6Addr} : parseIpv6 host = some ip → HostPort ('[' :: host ++ [']']) (.v6 ip) none
  | bracketedPort {host p : Text} {ip : Ipv6Addr} {port : UInt16} : parseIpv6 host = some ip → IsPort p port →
      HostPort ('[' :: host ++ ']' :: ':' :: p) (.v6 ip) (some port)

/-- A host name or an address, and perhaps a port. -/
inductive WebHost : Text → Text → Option UInt16 → Prop
  | address {s : Text} : parseIpAddr s ≠ none → WebHost s s none
  | name {s : Text} : ':' ∉ s → s.head? ≠ some '[' → WebHost s s none
  | ported {host p : Text} {port : UInt16} : ':' ∉ host → host.head? ≠ some '[' → IsPort p port →
      WebHost (host ++ ':' :: p) host (some port)
  | bracketed {host : Text} : parseIpv6 host ≠ none → WebHost ('[' :: host ++ [']']) host none
  | bracketedPort {host p : Text} {port : UInt16} : parseIpv6 host ≠ none → IsPort p port →
      WebHost ('[' :: host ++ ']' :: ':' :: p) host (some port)

inductive Scheme where
  | plain | udp | tcp | tls | https | quic
deriving DecidableEq

def Scheme.lead : Scheme → Text
  | .plain => []
  | .udp => "udp://".toList
  | .tcp => "tcp://".toList
  | .tls => "tls://".toList
  | .https => "https://".toList
  | .quic => "quic://".toList

section Forms

-- The addresses of a host name as the system resolves it, or its error.
variable (lookup : Text → Except Text (List IpAddr))

/-- The address itself, or the first one of the name. -/
def Resolves (host : Text) (ip : IpAddr) : Prop :=
  parseIpAddr host = some ip ∨ parseIpAddr host = none ∧ ∃ others, lookup host = .ok (ip :: others)

/-- What an entry of the scheme means. -/
inductive Form : Scheme → Text → NameServerConfig → Prop
  | plain {rest : Text} {ip : IpAddr} {given : Option UInt16} : HostPort (trim rest) ip given →
      Form .plain rest ⟨ip, true, [⟨.udp, given.getD 53⟩, ⟨.tcp, given.getD 53⟩]⟩
  | udp {rest : Text} {ip : IpAddr} {given : Option UInt16} : HostPort (trim rest) ip given →
      Form .udp rest ⟨ip, true, [⟨.udp, given.getD 53⟩]⟩
  | tcp {rest : Text} {ip : IpAddr} {given : Option UInt16} : HostPort (trim rest) ip given →
      Form .tcp rest ⟨ip, true, [⟨.tcp, given.getD 53⟩]⟩
  | tls {addr serverName : Text} {ip : IpAddr} {given : Option UInt16} : '@' ∉ addr → HostPort (trim addr) ip given →
      trim serverName ≠ [] →
      Form .tls (addr ++ '@' :: serverName) ⟨ip, true, [⟨.tls (trim serverName), given.getD 853⟩]⟩
  | quic {addr serverName : Text} {ip : IpAddr} {given : Option UInt16} : '@' ∉ addr → HostPort (trim addr) ip given →
      trim serverName ≠ [] →
      Form .quic (addr ++ '@' :: serverName) ⟨ip, true, [⟨.quic (trim serverName), given.getD 853⟩]⟩
  | https {authority tail host : Text} {ip : IpAddr} {given : Option UInt16} : '/' ∉ authority →
      WebHost (trim authority) host given → Resolves lookup host ip →
      Form .https (authority ++ '/' :: tail) ⟨ip, true, [⟨.https host ('/' :: tail), given.getD 443⟩]⟩
  | httpsDefault {authority host : Text} {ip : IpAddr} {given : Option UInt16} : '/' ∉ authority →
      WebHost (trim authority) host given → Resolves lookup host ip →
      Form .https authority ⟨ip, true, [⟨.https host "/dns-query".toList, given.getD 443⟩]⟩

/-- The entry is of a documented form, and this is what it says. -/
def Documented (entry : Text) (config : NameServerConfig) : Prop :=
  ∃ scheme rest, trim entry = scheme.lead ++ rest ∧ Form lookup scheme rest config

end Forms

/-! How a text is split. -/

/-- The whole text, what stands around its only colon, or what is in brackets and what is behind. -/
inductive Shape where
  | bare (host : Text)
  | ported (host port : Text)
  | bracketed (host tail : Text)
  | unbalanced
deriving DecidableEq

def shapeOf (s : Text) : Shape :=
  match stripPrefix ['['] s with
  | some stripped =>
      match splitOnce [']'] stripped with
      | some (host, tail) => .bracketed host tail
      | none => .unbalanced
  | none =>
      match rsplitOnce ':' s with
      | some (host, port) => if List.contains host ':' then .bare s else .ported host port
      | none => .bare s

namespace Shape

def host : Shape → Option Text
  | .bare host => some host
  | .ported host _ => some host
  | .bracketed host _ => some host
  | .unbalanced => none

/-- The address, with blanks around it where there are no brackets. -/
def literal : Shape → Option IpAddr
  | .bare host => parseIpAddr (trim host)
  | .ported host _ => parseIpAddr (trim host)
  | .bracketed host _ => parseIpAddr host
  | .unbalanced => none

/-- The port that is given, if it can be read. -/
def given : Shape → Option (Option UInt16)
  | .bare _ => some none
  | .ported _ port => (parseU16 port).map some
  | .bracketed _ tail =>
      match stripPrefix [':'] tail with
      | some port => (parseU16 port).map some
      | none => some none
  | .unbalanced => none

/-- Brackets around no IPv6 address, other text behind them, or a plus sign before a port. -/
def Loose : Shape → Prop
  | .bare _ => False
  | .ported _ port => port.head? = some '+'
  | .bracketed host tail =>
      parseIpv6 host = none ∨ tail ≠ [] ∧ tail.head? ≠ some ':' ∨ ∃ digits, tail = ':' :: '+' :: digits
  | .unbalanced => False

end Shape

/-- The text has colons, and is no address. -/
def Shape.Crowded : Shape → Prop
  | .bare host => ':' ∈ host ∧ parseIpAddr host = none
  | _ => False

theorem readPort_eq_ok {message s : Text} {port : UInt16} : readPort message s = .ok port ↔ parseU16 s = some port := by
  unfold readPort failed
  cases parseU16 s <;> simp

theorem readLiteral_eq_ok {message host : Text} {ip : IpAddr} :
    readLiteral message host = .ok ip ↔ parseIpAddr host = some ip := by
  unfold readLiteral failed
  cases parseIpAddr host <;> simp

theorem map_some_eq {α : Type} {x : Option α} {given : Option α} :
    x.map some = some given ↔ ∃ value, x = some value ∧ given = some value := by
  cases x <;> simp [eq_comm]

theorem splitHostPort_eq_ok {rest : Text} {ip : IpAddr} {port : UInt16} :
    splitHostPort rest = .ok (ip, port) ↔ (shapeOf (trim rest)).literal = some ip ∧
      ∃ given, (shapeOf (trim rest)).given = some given ∧ given.getD 53 = port := by
  unfold splitHostPort shapeOf
  dsimp only
  generalize trim rest = s
  generalize "bad port in upstream ".toList ++ quoted s = badPort
  generalize "upstream ".toList ++ quoted s ++ " is not an IP literal".toList = notLiteral
  cases stripPrefix ['['] s with
  | some stripped =>
    dsimp only
    cases splitOnce [']'] stripped with
    | none => simp only [failed, Shape.literal, reduceCtorEq, false_and]
    | some parts =>
      dsimp only
      cases htail : stripPrefix [':'] parts.2 with
      | none =>
        simp only [Shape.literal, Shape.given, htail, Fallible.pure_eq, Fallible.ok_bind, Fallible.bind_eq_ok,
          readLiteral_eq_ok]
        simp
      | some p =>
        simp only [Shape.literal, Shape.given, htail, Fallible.pure_eq, Fallible.bind_eq_ok, readLiteral_eq_ok,
          readPort_eq_ok, map_some_eq]
        simp
        exact and_comm
  | none =>
    dsimp only
    cases rsplitOnce ':' s with
    | none =>
      simp only [Shape.literal, Shape.given, Fallible.pure_eq, Fallible.ok_bind, Fallible.bind_eq_ok, readLiteral_eq_ok]
      simp
    | some parts =>
      dsimp only
      split
      next =>
        simp only [Shape.literal, Shape.given, Fallible.pure_eq, Fallible.ok_bind, Fallible.bind_eq_ok, readLiteral_eq_ok]
        simp
      next =>
        simp only [Shape.literal, Shape.given, Fallible.pure_eq, Fallible.bind_eq_ok, readLiteral_eq_ok, readPort_eq_ok,
          map_some_eq]
        simp
        exact and_comm

theorem splitAuthority_eq_ok {authority host : Text} {port : UInt16} :
    splitAuthority authority = .ok (host, port) ↔ (shapeOf (trim authority)).host = some host ∧
      ∃ given, (shapeOf (trim authority)).given = some given ∧ given.getD 443 = port := by
  unfold splitAuthority shapeOf
  dsimp only
  generalize trim authority = s
  generalize "bad port in ".toList ++ quoted s = badPort
  cases stripPrefix ['['] s with
  | some stripped =>
    dsimp only
    cases splitOnce [']'] stripped with
    | none => simp only [failed, Shape.host, reduceCtorEq, false_and]
    | some parts =>
      dsimp only
      cases htail : stripPrefix [':'] parts.2 with
      | none =>
        simp only [Shape.host, Shape.given, htail]
        simp
      | some p =>
        simp only [Shape.host, Shape.given, htail, Fallible.pure_eq, Fallible.bind_eq_ok, readPort_eq_ok, map_some_eq]
        simp
        exact and_comm
  | none =>
    dsimp only
    cases rsplitOnce ':' s with
    | none =>
      simp only [Shape.host, Shape.given]
      simp
    | some parts =>
      dsimp only
      split
      next =>
        simp only [Shape.host, Shape.given]
        simp
      next =>
        simp only [Shape.host, Shape.given, Fallible.pure_eq, Fallible.bind_eq_ok, readPort_eq_ok, map_some_eq]
        simp
        exact and_comm

theorem rsplitOnce_char {c : Char} {tail : Text} (h : c ∉ tail) (head : Text) :
    rsplitOnce c (head ++ c :: tail) = some (head, tail) := by
  have hreverse : (head ++ c :: tail).reverse = tail.reverse ++ c :: head.reverse := by simp
  have htail : c ∉ tail.reverse := fun hmem => h (List.mem_reverse.mp hmem)
  rw [rsplitOnce, hreverse, splitOnce_char htail, Option.map_some, List.reverse_reverse, List.reverse_reverse]

theorem rsplitOnce_of_not_mem {c : Char} {s : Text} (h : c ∉ s) : rsplitOnce c s = none := by
  have hreverse : c ∉ s.reverse := fun hmem => h (List.mem_reverse.mp hmem)
  rw [rsplitOnce, splitOnce_of_not_mem hreverse, Option.map_none]

theorem shapeOf_bracketed {host : Text} (h : ']' ∉ host) (tail : Text) :
    shapeOf ('[' :: host ++ ']' :: tail) = .bracketed host tail := by
  have hstrip : stripPrefix ['['] ('[' :: host ++ ']' :: tail) = some (host ++ ']' :: tail) := stripPrefix_eq_some.mpr rfl
  unfold shapeOf
  rw [hstrip]
  dsimp only
  rw [splitOnce_char h]

theorem stripPrefix_bracket {s : Text} (h : s.head? ≠ some '[') : stripPrefix ['['] s = none := by
  cases hstrip : stripPrefix ['['] s with
  | none => rfl
  | some rest =>
    rw [stripPrefix_eq_some.mp hstrip] at h
    exact absurd rfl h

theorem shapeOf_ported {host port : Text} (hstart : (host ++ ':' :: port).head? ≠ some '[') (hhost : ':' ∉ host)
    (hport : ':' ∉ port) : shapeOf (host ++ ':' :: port) = .ported host port := by
  unfold shapeOf
  rw [stripPrefix_bracket hstart]
  dsimp only
  rw [rsplitOnce_char hport]
  dsimp only
  rw [if_neg (by simpa using hhost)]

theorem shapeOf_bare {s : Text} (hstart : s.head? ≠ some '[') (hcolons : s.count ':' ≠ 1) : shapeOf s = .bare s := by
  unfold shapeOf
  rw [stripPrefix_bracket hstart]
  dsimp only
  by_cases hcolon : ':' ∈ s
  · obtain ⟨tail, head, hreverse, htail⟩ := List.eq_append_cons_of_mem (List.mem_reverse.mpr hcolon)
    have hs : s = head.reverse ++ ':' :: tail.reverse := by
      rw [← List.reverse_reverse s, hreverse]
      simp
    have htail' : ':' ∉ tail.reverse := fun hmem => htail (List.mem_reverse.mp hmem)
    rw [hs, rsplitOnce_char htail']
    dsimp only
    rw [if_pos]
    rw [List.contains_iff_mem]
    by_contra hhead
    apply hcolons
    rw [hs, List.count_append, List.count_cons_self, List.count_eq_zero_of_not_mem hhead, List.count_eq_zero_of_not_mem htail']
  · rw [rsplitOnce_of_not_mem hcolon]

/-- How a text has come to its shape. -/
inductive Shaped : Text → Shape → Prop
  | bare {s : Text} : s.head? ≠ some '[' → s.count ':' ≠ 1 → Shaped s (.bare s)
  | ported {host port : Text} : (host ++ ':' :: port).head? ≠ some '[' → ':' ∉ host → ':' ∉ port →
      Shaped (host ++ ':' :: port) (.ported host port)
  | bracketed {host tail : Text} : ']' ∉ host → Shaped ('[' :: host ++ ']' :: tail) (.bracketed host tail)
  | unbalanced {s : Text} : Shaped s .unbalanced

theorem shaped (s : Text) : Shaped s (shapeOf s) := by
  by_cases hstart : s.head? = some '['
  · obtain ⟨rest, rfl⟩ := List.head?_eq_some_iff.mp hstart
    obtain ⟨hrest, hnone⟩ | ⟨host, tail, rfl, hhost, -⟩ := splitOnce_cases ']' rest
    · have hstrip : stripPrefix ['['] ('[' :: rest) = some rest := stripPrefix_eq_some.mpr rfl
      unfold shapeOf
      rw [hstrip]
      dsimp only
      rw [hnone]
      exact .unbalanced
    · rw [← List.cons_append, shapeOf_bracketed hhost]
      exact .bracketed hhost
  · by_cases hcolons : s.count ':' = 1
    · have hcolon : ':' ∈ s := List.count_pos_iff.mp (by omega)
      obtain ⟨host, port, rfl, hhost⟩ := List.eq_append_cons_of_mem hcolon
      have hport : ':' ∉ port := by
        rw [List.count_append, List.count_cons_self] at hcolons
        exact List.count_eq_zero.mp (by omega)
      rw [shapeOf_ported hstart hhost hport]
      exact .ported hstart hhost hport
    · rw [shapeOf_bare hstart hcolons]
      exact .bare hstart hcolons

/-! What the texts of the forms are read as. -/

theorem isPort_iff {s : Text} {port : UInt16} : IsPort s port ↔ parseU16 s = some port ∧ s.head? ≠ some '+' := by
  constructor
  · intro h
    have hhead : s.head? ≠ some '+' := by
      intro hplus
      have hdigit := h.digits '+' (List.mem_of_head? hplus)
      exact absurd hdigit (by decide)
    have hstrip : stripPrefix ['+'] s = none := by
      cases hstrip : stripPrefix ['+'] s with
      | none => rfl
      | some rest =>
        rw [stripPrefix_eq_some.mp hstrip] at hhead
        exact absurd rfl hhead
    have hall : s.all Char.isDigit = true := List.all_eq_true.mpr h.digits
    have hlt := port.toNat_lt
    refine ⟨?_, hhead⟩
    unfold parseU16
    simp [hstrip, hall, h.ne_nil, h.value, hlt]
  · rintro ⟨hparse, hhead⟩
    have hstrip : stripPrefix ['+'] s = none := by
      cases hstrip : stripPrefix ['+'] s with
      | none => rfl
      | some rest =>
        rw [stripPrefix_eq_some.mp hstrip] at hhead
        exact absurd rfl hhead
    unfold parseU16 at hparse
    simp only [hstrip, Option.getD_none] at hparse
    split at hparse
    next hgood =>
      simp only [Bool.and_eq_true, Bool.not_eq_true', List.isEmpty_eq_false_iff, List.all_eq_true, decide_eq_true_eq] at hgood
      refine ⟨hgood.1.1, hgood.1.2, ?_⟩
      rw [← Option.some.inj hparse, UInt16.toNat_ofNat', Nat.mod_eq_of_lt hgood.2]
    next => cases hparse

theorem IsPort.no_colon {s : Text} {port : UInt16} (h : IsPort s port) : ':' ∉ s := fun hmem =>
  absurd (h.digits ':' hmem) (by decide)

theorem chars_of_parseIpAddr {s : Text} {ip : IpAddr} (h : parseIpAddr s = some ip) : ∀ c ∈ s, isAddressChar c = true := by
  unfold parseIpAddr at h
  split at h
  next v4 hv4 => exact chars_of_parseIpv4 (by rw [hv4]; rfl)
  next =>
    apply chars_of_parseIpv6
    rw [← Option.isSome_map, h]
    rfl

/-- An address has no colon, or more than one. -/
theorem colons_of_parseIpAddr {s : Text} {ip : IpAddr} (h : parseIpAddr s = some ip) : s.count ':' ≠ 1 := by
  unfold parseIpAddr at h
  split at h
  next v4 hv4 =>
    rw [List.count_eq_zero_of_not_mem (no_colon_of_parseIpv4 (by rw [hv4]; rfl))]
    decide
  next =>
    have htwo : 2 ≤ s.count ':' := by
      apply two_colons_of_parseIpv6
      rw [← Option.isSome_map, h]
      rfl
    omega

theorem start_of_parseIpAddr {s : Text} {ip : IpAddr} (h : parseIpAddr s = some ip) : s.head? ≠ some '[' := by
  intro hstart
  exact absurd (chars_of_parseIpAddr h '[' (List.mem_of_head? hstart)) (by decide)

theorem parseIpAddr_of_parseIpv6 {s : Text} {ip : Ipv6Addr} (h : parseIpv6 s = some ip) : parseIpAddr s = some (.v6 ip) := by
  have hcolons := two_colons_of_parseIpv6 (s := s) (by rw [h]; rfl)
  unfold parseIpAddr
  cases hv4 : parseIpv4 s with
  | none =>
    rw [h]
    rfl
  | some v4 =>
    rw [List.count_eq_zero_of_not_mem (no_colon_of_parseIpv4 (by rw [hv4]; rfl))] at hcolons
    omega

theorem no_bracket_of_parseIpv6 {s : Text} (h : parseIpv6 s ≠ none) : ']' ∉ s := by
  intro hmem
  exact absurd (chars_of_parseIpv6 (Option.isSome_iff_ne_none.mpr h) ']' hmem) (by decide)

theorem start_of_host {host rest : Text} (h : parseIpAddr (trim host) ≠ none) : (host ++ ':' :: rest).head? ≠ some '[' := by
  obtain ⟨ip, hip⟩ := Option.ne_none_iff_exists'.mp h
  cases host with
  | nil => simp
  | cons c more =>
    intro hstart
    cases hstart
    have hmem : '[' ∈ trim ('[' :: more) := (mem_trim (by decide)).mpr List.mem_cons_self
    exact absurd (chars_of_parseIpAddr hip '[' hmem) (by decide)

theorem stripPrefix_colon (port : Text) : stripPrefix [':'] (':' :: port) = some port := stripPrefix_eq_some.mpr rfl

/-- What is behind brackets, as the port that it gives. -/
theorem given_bracketed {host tail : Text} {given : Option UInt16} :
    (Shape.bracketed host tail).given = some given ∧ ¬ (Shape.bracketed host tail).Loose ↔
      parseIpv6 host ≠ none ∧
        (tail = [] ∧ given = none ∨ ∃ port value, tail = ':' :: port ∧ IsPort port value ∧ given = some value) := by
  rw [Shape.Loose, not_or, not_or]
  constructor
  · rintro ⟨hgiven, hv6, hjunk, hplus⟩
    refine ⟨hv6, ?_⟩
    cases tail with
    | nil =>
      cases hgiven
      exact .inl ⟨rfl, rfl⟩
    | cons c rest =>
      have hcolon : c = ':' := by
        by_contra hc
        exact hjunk ⟨List.cons_ne_nil _ _, by simpa using hc⟩
      subst hcolon
      rw [Shape.given, stripPrefix_colon] at hgiven
      obtain ⟨value, hvalue, rfl⟩ := map_some_eq.mp hgiven
      refine .inr ⟨rest, value, rfl, isPort_iff.mpr ⟨hvalue, ?_⟩, rfl⟩
      intro hhead
      obtain ⟨digits, rfl⟩ := List.head?_eq_some_iff.mp hhead
      exact hplus ⟨digits, rfl⟩
  · rintro ⟨hv6, ⟨rfl, rfl⟩ | ⟨port, value, rfl, hport, rfl⟩⟩
    · exact ⟨rfl, hv6, fun h => h.1 rfl, nofun⟩
    · obtain ⟨hparse, hplus⟩ := isPort_iff.mp hport
      refine ⟨?_, hv6, fun h => h.2 rfl, ?_⟩
      · rw [Shape.given, stripPrefix_colon]
        exact map_some_eq.mpr ⟨value, hparse, rfl⟩
      · rintro ⟨digits, hdigits⟩
        cases hdigits
        exact hplus rfl

theorem hostPort_iff {s : Text} (hs : trim s = s) {ip : IpAddr} {given : Option UInt16} :
    HostPort s ip given ↔ (shapeOf s).literal = some ip ∧ (shapeOf s).given = some given ∧ ¬(shapeOf s).Loose := by
  constructor
  · intro h
    cases h with
    | bare hip =>
      rw [shapeOf_bare (start_of_parseIpAddr hip) (colons_of_parseIpAddr hip)]
      exact ⟨by rwa [Shape.literal, hs], rfl, id⟩
    | @ported host p ip port hhost hip hport =>
      have hstart : (host ++ ':' :: p).head? ≠ some '[' := start_of_host (by simp [hip])
      obtain ⟨hparse, hplus⟩ := isPort_iff.mp hport
      rw [shapeOf_ported hstart hhost hport.no_colon]
      exact ⟨hip, by rw [Shape.given, hparse]; rfl, hplus⟩
    | @bracketed host ip hip =>
      have hv6 : parseIpv6 host ≠ none := by simp [hip]
      rw [shapeOf_bracketed (no_bracket_of_parseIpv6 hv6)]
      exact ⟨parseIpAddr_of_parseIpv6 hip, given_bracketed.mpr ⟨hv6, .inl ⟨rfl, rfl⟩⟩⟩
    | @bracketedPort host p ip port hip hport =>
      have hv6 : parseIpv6 host ≠ none := by simp [hip]
      rw [shapeOf_bracketed (no_bracket_of_parseIpv6 hv6)]
      exact ⟨parseIpAddr_of_parseIpv6 hip, given_bracketed.mpr ⟨hv6, .inr ⟨p, port, rfl, hport, rfl⟩⟩⟩
  · rintro ⟨hip, hread⟩
    have hshaped := shaped s
    generalize shapeOf s = shape at hshaped hip hread
    cases hshaped with
    | bare hstart hcolons =>
      rw [Shape.literal, hs] at hip
      cases hread.1
      exact .bare hip
    | ported hstart hhost hp =>
      obtain ⟨port, hport, rfl⟩ := map_some_eq.mp hread.1
      exact .ported hhost hip (isPort_iff.mpr ⟨hport, hread.2⟩)
    | @bracketed host tail hhost =>
      obtain ⟨hv6, hgiven⟩ := given_bracketed.mp hread
      obtain ⟨v6, hv6⟩ := Option.ne_none_iff_exists'.mp hv6
      rw [Shape.literal, parseIpAddr_of_parseIpv6 hv6] at hip
      cases hip
      cases hgiven with
      | inl hnone =>
        obtain ⟨rfl, rfl⟩ := hnone
        exact .bracketed hv6
      | inr hsome =>
        obtain ⟨port, value, rfl, hport, rfl⟩ := hsome
        exact .bracketedPort hv6 hport
    | unbalanced => cases hip

theorem webHost_iff {s host : Text} {given : Option UInt16} :
    WebHost s host given ↔ (shapeOf s).host = some host ∧ (shapeOf s).given = some given ∧
      ¬(shapeOf s).Loose ∧ ¬(shapeOf s).Crowded := by
  constructor
  · intro h
    cases h with
    | address hip =>
      obtain ⟨ip, hip⟩ := Option.ne_none_iff_exists'.mp hip
      rw [shapeOf_bare (start_of_parseIpAddr hip) (colons_of_parseIpAddr hip)]
      refine ⟨rfl, rfl, id, ?_⟩
      rw [Shape.Crowded, hip]
      simp
    | name hcolon hstart =>
      have hcolons : s.count ':' ≠ 1 := by
        rw [List.count_eq_zero_of_not_mem hcolon]
        decide
      rw [shapeOf_bare hstart hcolons]
      exact ⟨rfl, rfl, id, fun hcrowded => hcolon hcrowded.1⟩
    | @ported host p port hhost hstart hport =>
      have hstart' : (host ++ ':' :: p).head? ≠ some '[' := by
        cases host with
        | nil => simp
        | cons c rest => simpa using hstart
      obtain ⟨hparse, hplus⟩ := isPort_iff.mp hport
      rw [shapeOf_ported hstart' hhost hport.no_colon]
      exact ⟨rfl, by rw [Shape.given, hparse]; rfl, hplus, id⟩
    | bracketed hv6 =>
      obtain ⟨hgiven, hstrict⟩ := given_bracketed.mpr ⟨hv6, .inl ⟨rfl, rfl⟩⟩
      rw [shapeOf_bracketed (no_bracket_of_parseIpv6 hv6)]
      exact ⟨rfl, hgiven, hstrict, id⟩
    | @bracketedPort host p port hv6 hport =>
      obtain ⟨hgiven, hstrict⟩ := given_bracketed.mpr ⟨hv6, .inr ⟨p, port, rfl, hport, rfl⟩⟩
      rw [shapeOf_bracketed (no_bracket_of_parseIpv6 hv6)]
      exact ⟨rfl, hgiven, hstrict, id⟩
  · rintro ⟨hhost, hgiven, hstrict, hcrowded⟩
    have hshaped := shaped s
    generalize shapeOf s = shape at hshaped hhost hgiven hstrict hcrowded
    cases hshaped with
    | bare hstart hcolons =>
      cases hhost
      cases hgiven
      by_cases hcolon : ':' ∈ s
      · exact .address fun hnone => hcrowded ⟨hcolon, hnone⟩
      · exact .name hcolon hstart
    | ported hstart hcolon hp =>
      cases hhost
      obtain ⟨port, hport, rfl⟩ := map_some_eq.mp hgiven
      refine .ported hcolon ?_ (isPort_iff.mpr ⟨hport, hstrict⟩)
      intro hbracket
      rw [List.head?_append, hbracket] at hstart
      exact hstart rfl
    | @bracketed host tail _ =>
      cases hhost
      obtain ⟨hv6, ⟨rfl, rfl⟩ | ⟨port, value, rfl, hport, rfl⟩⟩ := given_bracketed.mp ⟨hgiven, hstrict⟩
      · exact .bracketed hv6
      · exact .bracketedPort hv6 hport
    | unbalanced => cases hhost

end DaygleDns.Recursive
