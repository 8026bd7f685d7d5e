import DaygleDns.Fallible
import DaygleDns.Recursive.UpstreamForms

/-! Upstream entries are read as what their forms say, but for the slack ones. -/
namespace DaygleDns.Recursive

open Text Policy Dispatch

/-- What is read, and what is meant, of the same text agree where it is meant so. -/
theorem agree_iff {α X : Type} {read meant : α → Prop} {found good : X → Prop} {first second : X → α}
    (hunique : ∀ x y, found x → found y → x = y) (hread : ∀ a, read a ↔ ∃ x, found x ∧ a = first x)
    (hmeant : ∀ a, meant a ↔ ∃ x, found x ∧ good x ∧ a = second x) :
    (∀ a, read a ↔ meant a) ↔ ∀ x, found x → good x ∧ first x = second x := by
  constructor
  · intro h x hx
    obtain ⟨y, hy, hgood, hsame⟩ := (hmeant _).mp ((h (first x)).mp ((hread _).mpr ⟨x, hx, rfl⟩))
    cases hunique x y hx hy
    exact ⟨hgood, hsame⟩
  · intro h a
    rw [hread, hmeant]
    constructor
    · rintro ⟨x, hx, rfl⟩
      exact ⟨x, hx, (h x hx).1, (h x hx).2⟩
    · rintro ⟨x, hx, hgood, rfl⟩
      exact ⟨x, hx, (h x hx).2.symm⟩

section Entries

variable (lookup : Text → Except Text (List IpAddr))

theorem resolveHost_eq_ok {host : Text} {ip : IpAddr} :
    resolveHost lookup host .both = .ok ip ↔ Resolves lookup host ip := by
  unfold resolveHost Resolves failed
  cases parseIpAddr host with
  | some other => simp
  | none =>
    cases lookup host with
    | error e => simp
    | ok addresses =>
      cases addresses with
      | nil => simp
      | cons first others =>
        have hfirst : (first :: others).find? IpVersions.both.allows = some first := List.find?_cons_of_pos rfl
        dsimp only
        rw [hfirst]
        simp [eq_comm]

/-- An address and a port are read, or none. -/
def Shape.Readable (shape : Shape) : Prop := shape.literal ≠ none ∧ shape.given ≠ none

/-- An entry that is read as something else than its form says, or without having one: an address
that is loosely spelled, the port of plain DNS for another protocol, a server without a name, or colons
in the name of a host. -/
def Slack : Scheme → Text → Prop
  | .plain, rest => (shapeOf (trim rest)).Readable ∧ (shapeOf (trim rest)).Loose
  | .udp, rest => (shapeOf (trim rest)).Readable ∧ (shapeOf (trim rest)).Loose
  | .tcp, rest => (shapeOf (trim rest)).Readable ∧ (shapeOf (trim rest)).Loose
  | .tls, rest => ∃ addr serverName, rest = addr ++ '@' :: serverName ∧ '@' ∉ addr ∧ (shapeOf (trim addr)).Readable ∧
      ((shapeOf (trim addr)).Loose ∨ (shapeOf (trim addr)).given = some none ∨ trim serverName = [])
  | .quic, rest => ∃ addr serverName, rest = addr ++ '@' :: serverName ∧ '@' ∉ addr ∧ (shapeOf (trim addr)).Readable ∧
      ((shapeOf (trim addr)).Loose ∨ (shapeOf (trim addr)).given = some none ∨ trim serverName = [])
  | .https, rest =>
      let shape := shapeOf (trim (webParts rest).1)
      shape.given ≠ none ∧ (∃ host ip, shape.host = some host ∧ Resolves lookup host ip) ∧
        (shape.Loose ∨ shape.Crowded)

def parseScheme : Scheme → Text → Except Authoritative.DaygleError NameServerConfig
  | .plain, rest => parsePlain rest true true
  | .udp, rest => parsePlain rest true false
  | .tcp, rest => parsePlain rest false true
  | .tls, rest => parseTls rest
  | .quic, rest => parseQuic rest
  | .https, rest => parseHttps lookup rest .both

/-- The address and the port that are read in a text. -/
def FoundIn (s : Text) (x : IpAddr × Option UInt16) : Prop :=
  (shapeOf s).literal = some x.1 ∧ (shapeOf s).given = some x.2

theorem FoundIn.unique {s : Text} {x y : IpAddr × Option UInt16} (hx : FoundIn s x) (hy : FoundIn s y) : x = y :=
  Prod.ext (Option.some.inj (hx.1.symm.trans hy.1)) (Option.some.inj (hx.2.symm.trans hy.2))

theorem exists_foundIn {s : Text} : (∃ x, FoundIn s x) ↔ (shapeOf s).Readable := by
  simp only [FoundIn, Shape.Readable, Prod.exists, Option.ne_none_iff_exists', exists_and_left, exists_and_right]

theorem splitHostPort_iff {rest : Text} {x : IpAddr × UInt16} :
    splitHostPort rest = .ok x ↔ ∃ found, FoundIn (trim rest) found ∧ (found.1, found.2.getD 53) = x := by
  rw [← Prod.eta x, splitHostPort_eq_ok]
  constructor
  · rintro ⟨hip, given, hgiven, hport⟩
    exact ⟨(x.1, given), ⟨hip, hgiven⟩, Prod.ext rfl hport⟩
  · rintro ⟨found, ⟨hip, hgiven⟩, hx⟩
    rw [Prod.mk.injEq] at hx
    exact ⟨hx.1 ▸ hip, found.2, hgiven, hx.2⟩

theorem hostPort_foundIn {rest : Text} {x : IpAddr × Option UInt16} :
    HostPort (trim rest) x.1 x.2 ↔ FoundIn (trim rest) x ∧ ¬(shapeOf (trim rest)).Loose := by
  rw [hostPort_iff (trim_trim rest), FoundIn, and_assoc]

/-- The server of a plain entry. -/
def plainServer (udp tcp : Bool) (x : IpAddr × Option UInt16) : NameServerConfig :=
  ⟨x.1, true, (if udp then [⟨.udp, x.2.getD 53⟩] else []) ++ if tcp then [⟨.tcp, x.2.getD 53⟩] else []⟩

theorem parsePlain_eq_ok {rest : Text} {udp tcp : Bool} {config : NameServerConfig} :
    parsePlain rest udp tcp = .ok config ↔ ∃ x, FoundIn (trim rest) x ∧ config = plainServer udp tcp x := by
  simp only [parsePlain, Fallible.bind_eq_ok, splitHostPort_iff, Fallible.pure_eq, Except.ok.injEq]
  constructor
  · rintro ⟨_, ⟨x, hx, rfl⟩, rfl⟩
    exact ⟨x, hx, rfl⟩
  · rintro ⟨x, hx, rfl⟩
    exact ⟨_, ⟨x, hx, rfl⟩, rfl⟩

/-- Plain DNS, over the protocols that are named. -/
theorem agree_plain {rest : Text} (udp tcp : Bool) {meant : NameServerConfig → Prop}
    (hmeant : ∀ config, meant config ↔ ∃ x, HostPort (trim rest) x.1 x.2 ∧ config = plainServer udp tcp x) :
    (∀ config, parsePlain rest udp tcp = .ok config ↔ meant config) ↔
      ¬((shapeOf (trim rest)).Readable ∧ (shapeOf (trim rest)).Loose) := by
  have hgood : ∀ config, meant config ↔
      ∃ x, FoundIn (trim rest) x ∧ ¬(shapeOf (trim rest)).Loose ∧ config = plainServer udp tcp x := by
    intro config
    simp only [hmeant, hostPort_foundIn, and_assoc]
  rw [agree_iff (fun _ _ => FoundIn.unique) (fun _ => parsePlain_eq_ok) hgood, ← exists_foundIn]
  simp only [and_true, not_and, forall_exists_index]

/-- The server of an entry with a server name. -/
def namedServer (protocol : Text → ProtocolConfig) (default : UInt16) (serverName : Text) (x : IpAddr × Option UInt16) :
    NameServerConfig := ⟨x.1, true, [⟨protocol (trim serverName), x.2.getD default⟩]⟩

/-- A text is split at the first of its separators in one way. -/
theorem exists_split {c : Char} {head tail : Text} (h : c ∉ head) {p : Text → Text → Prop} :
    (∃ first rest, head ++ c :: tail = first ++ c :: rest ∧ c ∉ first ∧ p first rest) ↔ p head tail := by
  constructor
  · rintro ⟨first, rest, hsame, hfirst, hp⟩
    have hsplit := congrArg (splitOnce [c]) hsame
    rw [splitOnce_char h, splitOnce_char hfirst] at hsplit
    cases hsplit
    exact hp
  · intro hp
    exact ⟨head, tail, rfl, h, hp⟩

theorem not_exists_split {c : Char} {s : Text} (h : c ∉ s) {p : Text → Text → Prop} :
    ¬∃ first rest, s = first ++ c :: rest ∧ c ∉ first ∧ p first rest := by
  rintro ⟨first, rest, rfl, -, -⟩
  exact h (List.mem_append_right _ List.mem_cons_self)

theorem parseNamed_split {scheme addr serverName : Text} {protocol : Text → ProtocolConfig} {config : NameServerConfig}
    (h : '@' ∉ addr) : parseNamed scheme protocol (addr ++ '@' :: serverName) = .ok config ↔
      ∃ x, FoundIn (trim addr) x ∧ config = namedServer protocol 53 serverName x := by
  simp only [parseNamed, splitOnce_char h, Fallible.bind_eq_ok, splitHostPort_iff, Fallible.pure_eq, Except.ok.injEq]
  constructor
  · rintro ⟨_, ⟨x, hx, rfl⟩, rfl⟩
    exact ⟨x, hx, rfl⟩
  · rintro ⟨x, hx, rfl⟩
    exact ⟨_, ⟨x, hx, rfl⟩, rfl⟩

theorem namedServer_port {protocol : Text → ProtocolConfig} {serverName : Text} {x : IpAddr × Option UInt16} :
    namedServer protocol 53 serverName x = namedServer protocol 853 serverName x ↔ x.2 ≠ none := by
  cases hport : x.2 with
  | none => simp [namedServer, hport]
  | some port => simp [namedServer, hport]

/-- An encrypted protocol, which has the port of plain DNS for its default. -/
theorem agree_named {scheme rest : Text} (protocol : Text → ProtocolConfig) {meant : NameServerConfig → Prop}
    (hmeant : ∀ config, meant config ↔ ∃ addr serverName, rest = addr ++ '@' :: serverName ∧ '@' ∉ addr ∧
      trim serverName ≠ [] ∧ ∃ x, HostPort (trim addr) x.1 x.2 ∧ config = namedServer protocol 853 serverName x) :
    (∀ config, parseNamed scheme protocol rest = .ok config ↔ meant config) ↔
      ¬∃ addr serverName, rest = addr ++ '@' :: serverName ∧ '@' ∉ addr ∧ (shapeOf (trim addr)).Readable ∧
        ((shapeOf (trim addr)).Loose ∨ (shapeOf (trim addr)).given = some none ∨ trim serverName = []) := by
  obtain ⟨hat, hnone⟩ | ⟨addr, serverName, rfl, hat, -⟩ := splitOnce_cases '@' rest
  · refine iff_of_true (fun config => ?_) (not_exists_split hat)
    rw [hmeant, parseNamed, hnone]
    exact iff_of_false nofun (not_exists_split hat)
  · have hgood : ∀ config, meant config ↔ ∃ x, FoundIn (trim addr) x ∧
        (¬(shapeOf (trim addr)).Loose ∧ trim serverName ≠ []) ∧ config = namedServer protocol 853 serverName x := by
      intro config
      rw [hmeant, exists_split hat]
      constructor
      · rintro ⟨hnamed, x, hx, hconfig⟩
        obtain ⟨hfound, hstrict⟩ := hostPort_foundIn.mp hx
        exact ⟨x, hfound, ⟨hstrict, hnamed⟩, hconfig⟩
      · rintro ⟨x, hfound, ⟨hstrict, hnamed⟩, hconfig⟩
        exact ⟨hnamed, x, hostPort_foundIn.mpr ⟨hfound, hstrict⟩, hconfig⟩
    rw [agree_iff (fun _ _ => FoundIn.unique) (fun _ => parseNamed_split hat) hgood, exists_split hat, ← exists_foundIn]
    constructor
    · rintro hall ⟨⟨x, hx⟩, hslack⟩
      obtain ⟨⟨hstrict, hnamed⟩, hport⟩ := hall x hx
      rw [namedServer_port] at hport
      rcases hslack with hloose | hgiven | hunnamed
      · exact hstrict hloose
      · exact hport (Option.some.inj (hx.2.symm.trans hgiven))
      · exact hnamed hunnamed
    · intro hfine x hx
      have hread := fun hslack => hfine ⟨⟨x, hx⟩, hslack⟩
      refine ⟨⟨fun hloose => hread (.inl hloose), fun hunnamed => hread (.inr (.inr hunnamed))⟩, ?_⟩
      rw [namedServer_port]
      exact fun hnone => hread (.inr (.inl (hnone ▸ hx.2)))

/-- What is found for a web address: its host, its port and the address of the host. -/
def FoundAt (s : Text) (x : Text × Option UInt16 × IpAddr) : Prop :=
  (shapeOf s).host = some x.1 ∧ (shapeOf s).given = some x.2.1 ∧ Resolves lookup x.1 x.2.2

theorem Resolves.unique {host : Text} {first second : IpAddr} (h : Resolves lookup host first)
    (hother : Resolves lookup host second) : first = second := by
  rw [← resolveHost_eq_ok] at h hother
  exact Except.ok.inj (h.symm.trans hother)

theorem FoundAt.unique {s : Text} {x y : Text × Option UInt16 × IpAddr} (hx : FoundAt lookup s x) (hy : FoundAt lookup s y) :
    x = y := by
  obtain ⟨host, given, ip⟩ := x
  obtain ⟨host', given', ip'⟩ := y
  obtain ⟨hhost, hgiven, hip⟩ := hx
  obtain ⟨hhost', hgiven', hip'⟩ := hy
  cases Option.some.inj (hhost.symm.trans hhost')
  cases Option.some.inj (hgiven.symm.trans hgiven')
  cases hip.unique lookup hip'
  rfl

def webServer (path : Text) (x : Text × Option UInt16 × IpAddr) : NameServerConfig :=
  ⟨x.2.2, true, [⟨.https x.1 path, x.2.1.getD 443⟩]⟩

theorem parseHttps_eq_ok {rest : Text} {config : NameServerConfig} :
    parseHttps lookup rest .both = .ok config ↔
      ∃ x, FoundAt lookup (trim (webParts rest).1) x ∧ config = webServer (webParts rest).2 x := by
  simp only [parseHttps, Fallible.bind_eq_ok, resolveHost_eq_ok, Fallible.pure_eq, Except.ok.injEq, Prod.exists,
    splitAuthority_eq_ok]
  constructor
  · rintro ⟨host, port, ⟨hhost, given, hgiven, rfl⟩, ip, hip, rfl⟩
    exact ⟨host, given, ip, ⟨hhost, hgiven, hip⟩, rfl⟩
  · rintro ⟨host, given, ip, ⟨hhost, hgiven, hip⟩, rfl⟩
    exact ⟨host, _, ⟨hhost, given, hgiven, rfl⟩, ip, hip, rfl⟩

theorem form_https {rest : Text} {config : NameServerConfig} :
    Form lookup .https rest config ↔ ∃ x, FoundAt lookup (trim (webParts rest).1) x ∧
      (¬(shapeOf (trim (webParts rest).1)).Loose ∧ ¬(shapeOf (trim (webParts rest).1)).Crowded) ∧
        config = webServer (webParts rest).2 x := by
  constructor
  · intro h
    cases h with
    | @https authority tail host ip given hslash hhost hip =>
      have hparts : webParts (authority ++ '/' :: tail) = (authority, '/' :: tail) := by rw [webParts, splitOnce_char hslash]
      obtain ⟨hhost, hgiven, hstrict⟩ := webHost_iff.mp hhost
      rw [hparts]
      exact ⟨(host, given, ip), ⟨hhost, hgiven, hip⟩, hstrict, rfl⟩
    | @httpsDefault authority host ip given hslash hhost hip =>
      have hparts : webParts rest = (rest, "/dns-query".toList) := by rw [webParts, splitOnce_of_not_mem hslash]
      obtain ⟨hhost, hgiven, hstrict⟩ := webHost_iff.mp hhost
      rw [hparts]
      exact ⟨(host, given, ip), ⟨hhost, hgiven, hip⟩, hstrict, rfl⟩
  · rintro ⟨⟨host, given, ip⟩, ⟨hhost, hgiven, hip⟩, hstrict, rfl⟩
    have hweb := webHost_iff.mpr ⟨hhost, hgiven, hstrict⟩
    obtain ⟨hslash, hnone⟩ | ⟨authority, tail, rfl, hslash, hsome⟩ := splitOnce_cases '/' rest
    · have hparts : webParts rest = (rest, "/dns-query".toList) := by rw [webParts, hnone]
      rw [hparts] at hweb ⊢
      exact .httpsDefault hslash hweb hip
    · have hparts : webParts (authority ++ '/' :: tail) = (authority, '/' :: tail) := by rw [webParts, hsome]
      rw [hparts] at hweb ⊢
      exact .https hslash hweb hip

theorem agree_https {rest : Text} :
    (∀ config, parseHttps lookup rest .both = .ok config ↔ Form lookup .https rest config) ↔
      ¬Slack lookup .https rest := by
  rw [agree_iff (fun _ _ => FoundAt.unique lookup) (fun _ => parseHttps_eq_ok lookup) (fun _ => form_https lookup)]
  constructor
  · rintro hall ⟨hgiven, ⟨host, ip, hhost, hip⟩, hslack⟩
    obtain ⟨given, hgiven⟩ := Option.ne_none_iff_exists'.mp hgiven
    have hfine := (hall (host, given, ip) ⟨hhost, hgiven, hip⟩).1
    exact hslack.elim hfine.1 hfine.2
  · intro hfine x hx
    have hread (hslack : (shapeOf (trim (webParts rest).1)).Loose ∨ (shapeOf (trim (webParts rest).1)).Crowded) : False :=
      hfine ⟨by simp [hx.2.1], ⟨x.1, x.2.2, hx.1, hx.2.2⟩, hslack⟩
    exact ⟨⟨fun hloose => hread (.inl hloose), fun hcrowded => hread (.inr hcrowded)⟩, rfl⟩

/-- Of any scheme, an entry is read as it is meant unless it is slack. -/
theorem parseScheme_agrees (scheme : Scheme) (rest : Text) :
    (∀ config, parseScheme lookup scheme rest = .ok config ↔ Form lookup scheme rest config) ↔
      ¬Slack lookup scheme rest := by
  cases scheme with
  | plain =>
    apply agree_plain true true
    intro config
    constructor
    · intro h
      cases h with
      | plain hx => exact ⟨(_, _), hx, rfl⟩
    · rintro ⟨x, hx, rfl⟩
      exact .plain hx
  | udp =>
    apply agree_plain true false
    intro config
    constructor
    · intro h
      cases h with
      | udp hx => exact ⟨(_, _), hx, rfl⟩
    · rintro ⟨x, hx, rfl⟩
      exact .udp hx
  | tcp =>
    apply agree_plain false true
    intro config
    constructor
    · intro h
      cases h with
      | tcp hx => exact ⟨(_, _), hx, rfl⟩
    · rintro ⟨x, hx, rfl⟩
      exact .tcp hx
  | tls =>
    apply agree_named .tls
    intro config
    constructor
    · intro h
      cases h with
      | tls hat hx hnamed => exact ⟨_, _, rfl, hat, hnamed, (_, _), hx, rfl⟩
    · rintro ⟨addr, serverName, rfl, hat, hnamed, x, hx, rfl⟩
      exact .tls hat hx hnamed
  | quic =>
    apply agree_named .quic
    intro config
    constructor
    · intro h
      cases h with
      | quic hat hx hnamed => exact ⟨_, _, rfl, hat, hnamed, (_, _), hx, rfl⟩
    · rintro ⟨addr, serverName, rfl, hat, hnamed, x, hx, rfl⟩
      exact .quic hat hx hnamed
  | https => exact agree_https lookup

/-! The schemes of entries. -/

theorem lead_unique {first second : Scheme} (hfirst : first ≠ .plain) (hsecond : second ≠ .plain) {rest other : Text}
    (h : first.lead ++ rest = second.lead ++ other) : first = second ∧ rest = other := by
  have hleads : ∀ first second : Scheme, first ≠ .plain → second ≠ .plain → first.lead <+: second.lead →
      first = second := by
    intro first second hfirst hsecond
    cases first <;> cases second <;> first | exact absurd rfl hfirst | exact absurd rfl hsecond | decide
  have hone : first.lead <+: second.lead ++ other := h ▸ List.prefix_append _ _
  have hsame : first = second := by
    cases List.prefix_or_prefix_of_prefix hone (List.prefix_append second.lead other) with
    | inl hle => exact hleads first second hfirst hsecond hle
    | inr hle => exact (hleads second first hsecond hfirst hle).symm
  subst hsame
  exact ⟨rfl, List.append_cancel_left h⟩

/-- What an address can start with, where it has no blanks around it. -/
theorem start_of_literal {s : Text} (hs : trim s = s) (h : (shapeOf s).literal ≠ none) :
    ∃ c rest, s = c :: rest ∧ (c = '[' ∨ isAddressChar c = true) := by
  obtain ⟨ip, hip⟩ := Option.ne_none_iff_exists'.mp h
  have hshaped := shaped s
  generalize shapeOf s = shape at hshaped hip
  cases hshaped with
  | bare hstart hcolons =>
    rw [Shape.literal, hs] at hip
    cases s with
    | nil => cases hip
    | cons c rest => exact ⟨c, rest, rfl, .inr (chars_of_parseIpAddr hip c List.mem_cons_self)⟩
  | @ported host port _ _ _ =>
    rw [Shape.literal] at hip
    cases host with
    | nil => cases hip
    | cons c rest =>
      obtain hnil | ⟨d, others, hflush, hd⟩ := trim_nil_or_flush (c :: rest ++ ':' :: port)
      · rw [hs] at hnil
        cases hnil
      · rw [hs] at hflush
        cases hflush
        have hmem : c ∈ trim (c :: rest) := (mem_trim hd).mpr List.mem_cons_self
        exact ⟨c, _, rfl, .inr (chars_of_parseIpAddr hip c hmem)⟩
  | bracketed _ => exact ⟨'[', _, rfl, .inl rfl⟩
  | unbalanced => cases hip

theorem literal_of_lead {s rest : Text} (hs : trim s = s) {lead : Text} (hlead : lead.head? ∈ ['t', 'u', 'h', 'q'].map some)
    (h : s = lead ++ rest) : (shapeOf s).literal = none := by
  by_contra hliteral
  obtain ⟨c, more, hc, hstart⟩ := start_of_literal hs hliteral
  cases lead with
  | nil => simp at hlead
  | cons d others =>
    cases hc.symm.trans h
    simp only [List.head?_cons, List.map_cons, List.map_nil, List.mem_cons, Option.some.injEq,
      List.not_mem_nil, or_false] at hlead
    rcases hlead with rfl | rfl | rfl | rfl <;> exact absurd hstart (by decide)

theorem literal_of_form {rest : Text} {config : NameServerConfig} (h : Form lookup .plain rest config) :
    (shapeOf (trim rest)).literal ≠ none := by
  cases h with
  | plain hx =>
    rw [(hostPort_iff (trim_trim rest)).mp hx |>.1]
    simp

theorem literal_of_slack {rest : Text} (h : Slack lookup .plain rest) : (shapeOf (trim rest)).literal ≠ none := h.1.1

theorem parseUpstream_lead {scheme : Scheme} (hscheme : scheme ≠ .plain) {entry rest : Text}
    (h : trim entry = scheme.lead ++ rest) : parseUpstream lookup entry .both = parseScheme lookup scheme rest := by
  unfold parseUpstream
  rw [h]
  cases scheme with
  | plain => exact absurd rfl hscheme
  | udp => rfl
  | tcp => rfl
  | tls => rfl
  | https => rfl
  | quic => rfl

theorem head_lead {scheme : Scheme} (h : scheme ≠ .plain) : scheme.lead.head? ∈ ['t', 'u', 'h', 'q'].map some := by
  cases scheme <;> first | exact absurd rfl h | decide

/-- An entry is of one scheme. -/
theorem exists_scheme {s : Text} (hs : trim s = s) {scheme : Scheme} {rest : Text} (h : s = scheme.lead ++ rest)
    (hplain : scheme = .plain → ∀ other : Scheme, other ≠ .plain → ∀ tail, s ≠ other.lead ++ tail)
    (p : Scheme → Text → Prop) (hp : p .plain s → (shapeOf (trim s)).literal ≠ none) :
    (∃ other tail, s = other.lead ++ tail ∧ p other tail) ↔ p scheme rest := by
  constructor
  · rintro ⟨other, tail, hother, hpother⟩
    by_cases hscheme : scheme = .plain
    · by_cases hotherPlain : other = .plain
      · subst hscheme hotherPlain
        cases List.append_cancel_left (h.symm.trans hother)
        exact hpother
      · exact absurd hother (hplain hscheme other hotherPlain tail)
    · by_cases hotherPlain : other = .plain
      · subst hotherPlain
        have hsame : s = tail := hother
        subst hsame
        have hliteral := hp hpother
        rw [hs] at hliteral
        exact absurd (literal_of_lead hs (head_lead hscheme) h) hliteral
      · obtain ⟨rfl, rfl⟩ := lead_unique hscheme hotherPlain (h.symm.trans hother)
        exact hpother
  · intro hscheme
    exact ⟨scheme, rest, h, hscheme⟩

theorem failed_ne_ok {α : Type} (message : Text) (a : α) : failed message ≠ .ok a := nofun

theorem parsePlain_ne_ok {s : Text} (hs : trim s = s) (h : (shapeOf s).literal = none) (udp tcp : Bool)
    (config : NameServerConfig) : parsePlain s udp tcp ≠ .ok config := by
  rw [Ne, parsePlain_eq_ok]
  rintro ⟨x, hx, -⟩
  rw [FoundIn, hs, h] at hx
  cases hx.1

/-- An entry without a scheme is plain, and what is refused at once has no address. -/
theorem parseUpstream_plain {entry : Text}
    (h : ∀ other : Scheme, other ≠ .plain → ∀ tail, trim entry ≠ other.lead ++ tail)
    (config : NameServerConfig) :
    parseUpstream lookup entry .both = .ok config ↔ parsePlain (trim entry) true true = .ok config := by
  have hs := trim_trim entry
  unfold parseUpstream
  generalize trim entry = s at h hs
  have hnone (scheme : Scheme) (hscheme : scheme ≠ .plain) : stripPrefix scheme.lead s = none := by
    cases hstrip : stripPrefix scheme.lead s with
    | none => rfl
    | some rest => exact absurd (stripPrefix_eq_some.mp hstrip) (h scheme hscheme rest)
  have htls : stripPrefix "tls://".toList s = none := hnone .tls (by decide)
  have hudp : stripPrefix "udp://".toList s = none := hnone .udp (by decide)
  have htcp : stripPrefix "tcp://".toList s = none := hnone .tcp (by decide)
  have hhttps : stripPrefix "https://".toList s = none := hnone .https (by decide)
  have hquic : stripPrefix "quic://".toList s = none := hnone .quic (by decide)
  simp only [htls, hudp, htcp, hhttps, hquic]
  by_cases hempty : s.isEmpty = true
  · have hliteral : (shapeOf s).literal = none := by
      rw [List.isEmpty_iff.mp hempty]
      rfl
    rw [if_pos hempty]
    exact iff_of_false (failed_ne_ok _ _) (parsePlain_ne_ok hs hliteral _ _ _)
  · rw [if_neg hempty]
    by_cases hh3 : "h3://".toList.isPrefixOf s = true
    · obtain ⟨rest, hrest⟩ := List.isPrefixOf_iff_prefix.mp hh3
      have hliteral := literal_of_lead hs (by decide) hrest.symm
      rw [if_pos hh3]
      exact iff_of_false (failed_ne_ok _ _) (parsePlain_ne_ok hs hliteral _ _ _)
    · rw [if_neg hh3]

/-- An entry that is read without having a form, or as something else than its form says. -/
def SlackEntry (entry : Text) : Prop := ∃ scheme rest, trim entry = scheme.lead ++ rest ∧ Slack lookup scheme rest

theorem parseUpstream_agrees (entry : Text) :
    (∀ config, parseUpstream lookup entry .both = .ok config ↔ Documented lookup entry config) ↔
      ¬SlackEntry lookup entry := by
  have hmain {scheme : Scheme} {rest : Text} (hentry : trim entry = scheme.lead ++ rest)
      (hplain : scheme = .plain → ∀ other : Scheme, other ≠ .plain → ∀ tail, trim entry ≠ other.lead ++ tail)
      (hread : ∀ config, parseUpstream lookup entry .both = .ok config ↔ parseScheme lookup scheme rest = .ok config) :
      (∀ config, parseUpstream lookup entry .both = .ok config ↔ Documented lookup entry config) ↔
        ¬SlackEntry lookup entry := by
    have hslack : SlackEntry lookup entry ↔ Slack lookup scheme rest :=
      exists_scheme (trim_trim entry) hentry hplain (Slack lookup) (literal_of_slack lookup)
    have hform (config : NameServerConfig) : Documented lookup entry config ↔ Form lookup scheme rest config :=
      exists_scheme (trim_trim entry) hentry hplain (fun scheme rest => Form lookup scheme rest config)
        (literal_of_form lookup)
    rw [hslack, ← parseScheme_agrees]
    exact forall_congr' fun config => by rw [hread, hform]
  by_cases hscheme : ∃ scheme : Scheme, scheme ≠ .plain ∧ ∃ rest, trim entry = scheme.lead ++ rest
  · obtain ⟨scheme, hother, rest, hentry⟩ := hscheme
    apply hmain hentry (fun h => absurd h hother)
    intro config
    rw [parseUpstream_lead lookup hother hentry]
  · have hplain : ∀ other : Scheme, other ≠ .plain → ∀ tail, trim entry ≠ other.lead ++ tail :=
      fun other hother tail hentry => hscheme ⟨other, hother, tail, hentry⟩
    exact @hmain .plain _ rfl (fun _ => hplain) (parseUpstream_plain lookup hplain)

/-- With both IP versions allowed, no server is dropped. -/
theorem parseUpstreams_eq_ok {entries : List Text} {configs : List NameServerConfig} :
    parseUpstreams lookup entries = .ok configs ↔
      List.Forall₂ (fun entry config => parseUpstream lookup entry .both = .ok config) entries configs := by
  have hkept (configs : List NameServerConfig) : (configs.filter fun config => IpVersions.both.allows config.ip) = configs :=
    List.filter_eq_self.mpr fun _ _ => rfl
  unfold parseUpstreams parseUpstreamsFor
  rw [Fallible.bind_eq_ok]
  simp only [hkept, Fallible.mapM_eq_ok]
  constructor
  · rintro ⟨others, hall, hok⟩
    split at hok
    next => exact absurd hok (failed_ne_ok _ _)
    next =>
      cases hok
      exact hall
  · intro hall
    refine ⟨configs, hall, if_neg ?_⟩
    cases hall with
    | nil => simp
    | cons _ _ => simp

/-- A list of entries that are not slack is what its entries say. -/
theorem parseUpstreams_documented {entries : List Text} (h : ∀ entry ∈ entries, ¬SlackEntry lookup entry)
    (configs : List NameServerConfig) :
    parseUpstreams lookup entries = .ok configs ↔ List.Forall₂ (Documented lookup) entries configs := by
  rw [parseUpstreams_eq_ok]
  induction entries generalizing configs with
  | nil => simp
  | cons entry rest ih =>
    have hentry := (parseUpstream_agrees lookup entry).mpr (h entry List.mem_cons_self)
    have hrest := ih fun other hother => h other (List.mem_cons_of_mem entry hother)
    cases configs with
    | nil => simp
    | cons config others => rw [List.forall₂_cons, List.forall₂_cons, hentry, hrest]

/-- An entry is read as exactly what its form says, and refused without a form, exactly where it is
not slack. -/
theorem parseUpstreams_forms (entry : Text) :
    (∀ configs, parseUpstreams lookup [entry] = .ok configs ↔
        ∃ config, configs = [config] ∧ Documented lookup entry config) ↔
      ¬SlackEntry lookup entry := by
  rw [← parseUpstream_agrees]
  constructor
  · intro h config
    have hone := h [config]
    rw [parseUpstreams_eq_ok, List.forall₂_cons, and_iff_left .nil] at hone
    rw [hone]
    simp
  · intro h configs
    rw [parseUpstreams_eq_ok]
    constructor
    · intro hall
      cases hall with
      | cons hread hnone =>
        cases hnone
        exact ⟨_, rfl, (h _).mp hread⟩
    · rintro ⟨config, rfl, hmeant⟩
      exact .cons ((h config).mpr hmeant) .nil

end Entries

/-- A system that resolves no names. -/
def noNames (_ : Text) : Except Text (List IpAddr) := .ok []

def tlsEntry : Text := "tls://1.1.1.1@cloudflare-dns.com".toList

def junkEntry : Text := "[::1] 5353".toList

/-- The first entry is sent to the port of plain DNS, and so is the second, whose text behind the brackets
is ignored. -/
theorem parseUpstreams_forms_fails :
    Documented noNames tlsEntry ⟨.v4 0x01010101, true, [⟨.tls "cloudflare-dns.com".toList, 853⟩]⟩ ∧
      parseUpstreams noNames [tlsEntry] = .ok [⟨.v4 0x01010101, true, [⟨.tls "cloudflare-dns.com".toList, 53⟩]⟩] ∧
      (∀ config, ¬Documented noNames junkEntry config) ∧
      parseUpstreams noNames [junkEntry] = .ok [⟨.v6 1, true, [⟨.udp, 53⟩, ⟨.tcp, 53⟩]⟩] := by
  refine ⟨?_, by decide, ?_, by decide⟩
  · have hplain : HostPort (trim "1.1.1.1".toList) (.v4 0x01010101) none := .bare (by decide)
    exact ⟨.tls, "1.1.1.1".toList ++ '@' :: "cloudflare-dns.com".toList, by decide,
      .tls (by decide) hplain (by decide)⟩
  · rintro config ⟨scheme, rest, hentry, hform⟩
    have hshape : shapeOf (trim junkEntry) = .bracketed "::1".toList " 5353".toList := by decide
    have hscheme : scheme = .plain := by
      by_contra hother
      have hliteral := literal_of_lead (trim_trim junkEntry) (head_lead hother) hentry
      rw [hshape] at hliteral
      exact absurd hliteral (by decide)
    subst hscheme
    cases hform with
    | plain hx =>
      have hstrict := ((hostPort_iff (trim_trim rest)).mp hx).2.2
      have hrest : trim rest = trim junkEntry := by
        rw [← trim_trim junkEntry, hentry]
        rfl
      rw [hrest, hshape] at hstrict
      exact hstrict (.inr (.inl ⟨by decide, by decide⟩))

end DaygleDns.Recursive
