import DaygleDns.Authoritative.SplitHorizon
import DaygleDns.KeyedMap
import DaygleDns.Settings.Networks

/-! The answers of split-horizon entries: which entry answers a client's query. -/
namespace DaygleDns.Authoritative

open Text Canonical Policy Settings

structure SplitHorizonRecord where
  rtype : Text
  content : Text
deriving DecidableEq

/-- Whom an entry answers, and what. -/
structure SplitHorizonContent where
  networks : List Text
  ips : List Text
  records : List SplitHorizonRecord
  ttl : UInt32
deriving DecidableEq

/-- The readers and constants of the DNS library: record types of `T`, record data of `D` and names of `N`. -/
structure RecordCodec (T D N : Type) where
  parseType : Text → Option T
  parseData : T → Text → Option D
  parseName : Text → Option N
  cname : T
  any : T
  a : T
  aaaa : T
  ofV4 : Ipv4Addr → D
  ofV6 : Ipv6Addr → D

structure ResolvedEntry (T D : Type) where
  id : Uuid
  domain : Text
  networks : List Network
  matchAll : Bool
  records : List (T × D)
  ttl : UInt32
  position : Int

/-- The answer: records of the queried name. -/
structure SplitHorizonMatch (D N : Type) where
  entryId : Uuid
  records : List (N × UInt32 × D)

variable {T D N : Type} [DecidableEq T] (libs : Libraries) (codec : RecordCodec T D N)

/-- An entry with `ips` alone is from before records had types. -/
def parseRecords (content : SplitHorizonContent) : List (T × D) :=
  if content.records.isEmpty then
    content.ips.filterMap fun ip =>
      match parseIpv4 ip with
      | some v4 => some (codec.a, codec.ofV4 v4)
      | none => (parseIpv6 ip).map fun v6 => (codec.aaaa, codec.ofV6 v6)
  else
    content.records.filterMap fun r => do
      let rtype ← codec.parseType r.rtype
      let rdata ← codec.parseData rtype r.content
      return (rtype, rdata)

/-- The networks that have addresses, by their names. -/
def networksByName (networks : List NamedNetwork) : KeyedMap Text (List Network) :=
  networks.foldl
    (fun byName net =>
      let cidrs := parseNetworks libs net.cidrs
      if cidrs.isEmpty then byName else byName.insert (toAsciiLowercase (trim net.name)) cidrs)
    ∅

/-- A literal network or address, or a network's name. -/
def resolveNetwork (byName : KeyedMap Text (List Network)) (entry : Text) : List Network :=
  match parseNetwork libs entry with
  | some net => [net]
  | none => (byName.lookup (toAsciiLowercase (trim entry))).getD []

/-- The entries that can answer, in the order in which they are stored. -/
def resolvedEntries (networks : List NamedNetwork) (entries : List (SplitHorizonEntry SplitHorizonContent)) :
    List (ResolvedEntry T D) :=
  let byName := networksByName libs networks
  (entries.filter fun e => !e.disabled && (!e.content.ips.isEmpty || !e.content.records.isEmpty)).map fun e =>
    { id := e.id
      domain := normalizeFqdn e.domain
      networks := e.content.networks.flatMap (resolveNetwork libs byName)
      matchAll := e.content.networks.isEmpty
      records := parseRecords codec e.content
      ttl := e.content.ttl
      position := e.position }

def buildIndex (networks : List NamedNetwork) (entries : List (SplitHorizonEntry SplitHorizonContent)) :
    List (ResolvedEntry T D) :=
  sortBy ResolvedEntry.position (resolvedEntries libs codec networks entries)

namespace ResolvedEntry

variable {codec}

def inNetwork (entry : ResolvedEntry T D) (client : IpAddr) : Bool :=
  entry.matchAll || entry.networks.any (·.contains client)

/-- The records for a type: a CNAME answers every one. -/
def selected (codec : RecordCodec T D N) (entry : ResolvedEntry T D) (rtype : T) : List (T × D) :=
  if entry.records.any fun r => r.1 = codec.cname then entry.records.filter fun r => r.1 = codec.cname
  else if rtype = codec.any then entry.records
  else entry.records.filter fun r => r.1 = rtype

def answer (codec : RecordCodec T D N) (entry : ResolvedEntry T D) (client : IpAddr) (name : N) (rtype : T) :
    Option (SplitHorizonMatch D N) :=
  if !entry.inNetwork client || entry.records.isEmpty then none
  else
    let selected := entry.selected codec rtype
    if selected.isEmpty then none
    else some ⟨entry.id, selected.map fun r => (name, entry.ttl, r.2)⟩

end ResolvedEntry

/-- The wildcards that cover a name, the closest first. -/
def wildcards : Text → List Text
  | [] => []
  | c :: rest => if c = '.' then ('*' :: c :: rest) :: wildcards rest else wildcards rest

/-- The domains whose entries are tried for a name. -/
def triedDomains (qname : Text) : List Text := qname :: wildcards qname

def lookup (index : List (ResolvedEntry T D)) (client : IpAddr) (qname : Text) (rtype : T) :
    Option (SplitHorizonMatch D N) := do
  let qname := normalizeFqdn qname
  let name ← codec.parseName (qname ++ ".".toList)
  (triedDomains qname).findSome? fun domain =>
    (index.filter fun e => e.domain = domain).findSome? fun e => e.answer codec client name rtype

/-! What is found first in a sorted list. -/

section Sorted

variable {α β κ : Type} [LinearOrder κ] {key : α → κ} {p : α → Bool}

theorem find?_orderedInsert_of_false {x : α} (hx : p x = false) (items : List α) :
    (items.orderedInsert (fun first second => key first ≤ key second) x).find? p = items.find? p := by
  induction items with
  | nil => simp [hx]
  | cons y items ih =>
    rw [List.orderedInsert_cons]
    split
    · rw [List.find?_cons, hx]
    · rw [List.find?_cons, List.find?_cons, ih]

/-- A hit that is put into its place is found, unless a hit with a smaller key is. -/
theorem find?_orderedInsert_of_true {x : α} (hx : p x = true) {items : List α}
    (hsorted : items.Pairwise fun first second => key first ≤ key second) :
    (items.orderedInsert (fun first second => key first ≤ key second) x).find? p =
      some ((items.find? p).elim x fun y => if key x ≤ key y then x else y) := by
  induction items with
  | nil => simp [hx]
  | cons y items ih =>
    rw [List.pairwise_cons] at hsorted
    rw [List.orderedInsert_cons]
    split
    next hle =>
      rw [List.find?_cons, hx]
      cases hfound : (y :: items).find? p with
      | none => rfl
      | some hit =>
        have hhit : key y ≤ key hit := by
          cases List.mem_cons.mp (List.mem_of_find?_eq_some hfound) with
          | inl hsame => rw [hsame]
          | inr hmem => exact hsorted.1 hit hmem
        rw [Option.elim_some, if_pos (hle.trans hhit)]
    next hlater =>
      rw [List.find?_cons, List.find?_cons]
      cases hy : p y with
      | true => rw [Option.elim_some, if_neg hlater]
      | false => exact ih hsorted.2

/-- The item is a hit; the hits before it have larger keys, and those behind it none smaller. -/
def FirstHit (key : α → κ) (p : α → Bool) (items : List α) (a : α) : Prop :=
  ∃ first rest, items = first ++ a :: rest ∧ p a = true ∧ (∀ x ∈ first, p x = true → key a < key x) ∧
    ∀ x ∈ rest, p x = true → key a ≤ key x

theorem firstHit_head {x : α} {items : List α} (hx : p x = true) (hle : ∀ y ∈ items, p y = true → key x ≤ key y) :
    FirstHit key p (x :: items) x :=
  ⟨[], items, rfl, hx, by simp, hle⟩

theorem FirstHit.behind {x a : α} {items : List α} (h : FirstHit key p items a) (hx : p x = true → key a < key x) :
    FirstHit key p (x :: items) a := by
  obtain ⟨first, rest, hitems, ha, hfirst, hrest⟩ := h
  refine ⟨x :: first, rest, by rw [hitems]; rfl, ha, ?_, hrest⟩
  intro y hy hhit
  cases List.mem_cons.mp hy with
  | inl hsame =>
    rw [hsame] at hhit ⊢
    exact hx hhit
  | inr hmem => exact hfirst y hmem hhit

theorem FirstHit.le {a : α} {items : List α} (h : FirstHit key p items a) {y : α} (hy : y ∈ items) (hhit : p y = true) :
    key a ≤ key y := by
  obtain ⟨first, rest, hitems, _, hfirst, hrest⟩ := h
  rw [hitems, List.mem_append, List.mem_cons] at hy
  obtain hy | hy | hy := hy
  · exact (hfirst y hy hhit).le
  · rw [hy]
  · exact hrest y hy hhit

/-- A search of the sorted items finds the first hit of the smallest key. -/
theorem firstHit_of_find? {items : List α} {a : α} (h : (sortBy key items).find? p = some a) :
    FirstHit key p items a := by
  induction items generalizing a with
  | nil => cases h
  | cons x items ih =>
    have hinsert : sortBy key (x :: items) =
        (sortBy key items).orderedInsert (fun first second => key first ≤ key second) x := rfl
    rw [hinsert] at h
    cases hx : p x with
    | false =>
      rw [find?_orderedInsert_of_false hx] at h
      exact (ih h).behind (by simp [hx])
    | true =>
      rw [find?_orderedInsert_of_true hx (sortBy_sorted items)] at h
      have ha := Option.some.inj h
      cases hfound : (sortBy key items).find? p with
      | none =>
        rw [hfound, Option.elim_none] at ha
        rw [← ha]
        apply firstHit_head hx
        intro y hy hhit
        exact absurd hhit (List.find?_eq_none.mp hfound y ((List.perm_insertionSort _ items).mem_iff.mpr hy))
      | some y =>
        rw [hfound, Option.elim_some] at ha
        have hlater := ih hfound
        by_cases hle : key x ≤ key y
        · rw [if_pos hle] at ha
          rw [← ha]
          exact firstHit_head hx fun z hz hhit => hle.trans (hlater.le hz hhit)
        · rw [if_neg hle] at ha
          rw [← ha]
          exact hlater.behind fun _ => not_le.mp hle

theorem findSome?_eq_bind (f : α → Option β) (items : List α) :
    items.findSome? f = (items.find? fun x => (f x).isSome).bind f := by
  induction items with
  | nil => rfl
  | cons x items ih =>
    rw [List.findSome?_cons, List.find?_cons]
    cases hx : f x with
    | none => exact ih
    | some b => exact hx.symm

end Sorted

/-! The domains that cover a name. -/

/-- The domain is the name, or a wildcard above it. -/
def Covers (domain qname : Text) : Prop :=
  domain = qname ∨ ∃ before above, qname = before ++ '.' :: above ∧ domain = '*' :: '.' :: above

theorem mem_wildcards {qname domain : Text} :
    domain ∈ wildcards qname ↔ ∃ before above, qname = before ++ '.' :: above ∧ domain = '*' :: '.' :: above := by
  induction qname with
  | nil => simp [wildcards]
  | cons c rest ih =>
    have hstep : (∃ before above, c :: rest = before ++ '.' :: above ∧ domain = '*' :: '.' :: above) ↔
        (c = '.' ∧ domain = '*' :: '.' :: rest) ∨
          ∃ before above, rest = before ++ '.' :: above ∧ domain = '*' :: '.' :: above := by
      constructor
      · rintro ⟨before, above, hsplit, hdomain⟩
        cases before with
        | nil =>
          have hcons := List.cons.inj hsplit
          exact .inl ⟨hcons.1, by rw [hdomain, hcons.2]⟩
        | cons b before => exact .inr ⟨before, above, (List.cons.inj hsplit).2, hdomain⟩
      · rintro (⟨hdot, hdomain⟩ | ⟨before, above, hsplit, hdomain⟩)
        · exact ⟨[], rest, by rw [hdot]; rfl, hdomain⟩
        · exact ⟨c :: before, above, by rw [hsplit]; rfl, hdomain⟩
    rw [wildcards, hstep, ← ih]
    split
    next hdot => rw [List.mem_cons, hdot, and_iff_right rfl]
    next hdot => simp [hdot]

theorem mem_triedDomains {qname domain : Text} : domain ∈ triedDomains qname ↔ Covers domain qname := by
  rw [triedDomains, List.mem_cons, mem_wildcards, Covers]

/-- Of the domains that cover a name, the name itself is the closest, and then the longest wildcard. -/
def closeness (qname domain : Text) : Nat := if domain = qname then qname.length + 2 else domain.length

theorem length_wildcards {qname domain : Text} (h : domain ∈ wildcards qname) : domain.length ≤ qname.length + 1 := by
  obtain ⟨before, above, hsplit, hdomain⟩ := mem_wildcards.mp h
  rw [hsplit, hdomain]
  simp only [List.length_cons, List.length_append]
  omega

theorem wildcards_shorter (qname : Text) :
    (wildcards qname).Pairwise fun first second => second.length < first.length := by
  induction qname with
  | nil => exact .nil
  | cons c rest ih =>
    rw [wildcards]
    split
    · refine List.pairwise_cons.mpr ⟨?_, ih⟩
      intro domain hdomain
      have hlength := length_wildcards hdomain
      simp only [List.length_cons]
      omega
    · exact ih

/-- A domain that is tried later is farther from the name, or the same. -/
theorem triedDomains_closest_first (qname : Text) :
    (triedDomains qname).Pairwise fun first second =>
      second = first ∨ closeness qname second < closeness qname first := by
  refine List.pairwise_cons.mpr ⟨?_, ?_⟩
  · intro domain hdomain
    by_cases hsame : domain = qname
    · exact .inl hsame
    · apply Or.inr
      have hlength := length_wildcards hdomain
      rw [closeness, closeness, if_neg hsame, if_pos rfl]
      omega
  · refine (wildcards_shorter qname).imp_of_mem ?_
    intro first second hfirst _ hlt
    apply Or.inr
    have hother : second ≠ qname := by
      -- a name that is a wildcard has no wildcard longer than itself
      intro hsame
      obtain ⟨before, above, hsplit, hdomain⟩ := mem_wildcards.mp hfirst
      have hsecond : second ∈ wildcards qname := by assumption
      obtain ⟨_, _, _, hstar⟩ := mem_wildcards.mp hsecond
      have hlength := congrArg List.length hsplit
      rw [hsame, hdomain] at hlt
      simp only [List.length_append, List.length_cons] at hlength hlt
      cases before with
      | nil =>
        rw [← hsame, hstar] at hsplit
        exact absurd (List.cons.inj hsplit).1 (by decide)
      | cons b before =>
        rw [List.length_cons] at hlength
        omega
    have hclose : first.length ≤ closeness qname first := by
      rw [closeness]
      split
      next hsame =>
        rw [hsame]
        omega
      · exact Nat.le_refl _
    rw [closeness, if_neg hother]
    omega

/-! The entry that answers. -/

/-- `entry` is tried before `other`: its domain is closer to the name, or the same and its position is lower. -/
def TriedBefore (qname : Text) (entry other : ResolvedEntry T D) : Prop :=
  closeness qname other.domain < closeness qname entry.domain ∨
    entry.domain = other.domain ∧ entry.position < other.position

/-- The entries that have an answer of their own to the query. -/
def CanAnswer (client : IpAddr) (qname : Text) (name : N) (rtype : T) (entry : ResolvedEntry T D) : Prop :=
  Covers entry.domain qname ∧ (entry.answer codec client name rtype).isSome

/-- What the search gives for one of the domains that are tried. -/
def domainAnswer (index : List (ResolvedEntry T D)) (client : IpAddr) (name : N) (rtype : T) (domain : Text) :
    Option (SplitHorizonMatch D N) :=
  (index.find? fun e => e.domain = domain && (e.answer codec client name rtype).isSome).bind fun e =>
    e.answer codec client name rtype

theorem find?_entries (index : List (ResolvedEntry T D)) (client : IpAddr) (name : N) (rtype : T) (domain : Text) :
    ((index.filter fun e => e.domain = domain).findSome? fun e => e.answer codec client name rtype) =
      domainAnswer codec index client name rtype domain := by
  rw [domainAnswer, findSome?_eq_bind, List.find?_filter]
  congr 2
  funext e
  rw [Bool.eq_iff_iff]
  simp

theorem domainAnswer_eq_none {index : List (ResolvedEntry T D)} {client : IpAddr} {name : N} {rtype : T} {domain : Text}
    (h : domainAnswer codec index client name rtype domain = none) {e : ResolvedEntry T D} (he : e ∈ index)
    (hdomain : e.domain = domain) : ¬(e.answer codec client name rtype).isSome = true := by
  rw [← find?_entries, List.findSome?_eq_none_iff] at h
  have hnone := h e (List.mem_filter.mpr ⟨he, decide_eq_true hdomain⟩)
  simp [hnone]

/-- Where one of the tried domains answers, whatever else has an answer is of that domain, or of one that is farther. -/
theorem farther_of_missed {index : List (ResolvedEntry T D)} {client : IpAddr} {qname : Text} {name : N} {rtype : T}
    {closer farther : List Text} {domain : Text} (hdomains : triedDomains qname = closer ++ domain :: farther)
    (hmissed : ∀ other ∈ closer, domainAnswer codec index client name rtype other = none) {other : ResolvedEntry T D}
    (hother : other ∈ index) (hcan : CanAnswer codec client qname name rtype other) :
    other.domain = domain ∨ closeness qname other.domain < closeness qname domain := by
  have hpairs := triedDomains_closest_first qname
  rw [hdomains, List.pairwise_append, List.pairwise_cons] at hpairs
  have htried := mem_triedDomains.mpr hcan.1
  rw [hdomains, List.mem_append, List.mem_cons] at htried
  obtain hcloser | hsame | hfarther := htried
  · exact absurd hcan.2 (domainAnswer_eq_none codec (hmissed other.domain hcloser) hother rfl)
  · exact .inl hsame
  · exact hpairs.2.1.1 other.domain hfarther

/-- What a lookup should give for entries in the order in which they are stored: nothing where none has an answer; else
the answer of one that is tried before all others that have one, where those of the same place follow their order. -/
def AnswersFirst (entries : List (ResolvedEntry T D)) (client : IpAddr) (qname : Text) (name : N) (rtype : T) :
    Option (SplitHorizonMatch D N) → Prop
  | none => ∀ e ∈ entries, ¬CanAnswer codec client qname name rtype e
  | some found =>
      ∃ first e rest, entries = first ++ e :: rest ∧ CanAnswer codec client qname name rtype e ∧
        e.answer codec client name rtype = some found ∧
        (∀ other ∈ first, CanAnswer codec client qname name rtype other → TriedBefore qname e other) ∧
        ∀ other ∈ rest, CanAnswer codec client qname name rtype other → ¬TriedBefore qname other e

/-- The nested search through the sorted index answers from the entry of the closest domain, then of the lowest
position, then the one stored first, among those that hold something for this client and type. -/
theorem lookup_first (networks : List NamedNetwork) (entries : List (SplitHorizonEntry SplitHorizonContent))
    (client : IpAddr) (qname : Text) (rtype : T) (name : N)
    (hname : codec.parseName (normalizeFqdn qname ++ ".".toList) = some name) :
    AnswersFirst codec (resolvedEntries libs codec networks entries) client (normalizeFqdn qname) name rtype
      (lookup codec (buildIndex libs codec networks entries) client qname rtype) := by
  have hlookup : lookup codec (buildIndex libs codec networks entries) client qname rtype =
      (triedDomains (normalizeFqdn qname)).findSome?
        (domainAnswer codec (buildIndex libs codec networks entries) client name rtype) := by
    simp only [lookup, hname, Option.bind_eq_bind, Option.bind_some, find?_entries]
  have hmem (e : ResolvedEntry T D) :
      e ∈ buildIndex libs codec networks entries ↔ e ∈ resolvedEntries libs codec networks entries :=
    (List.perm_insertionSort _ _).mem_iff
  rw [hlookup]
  cases hfound : (triedDomains (normalizeFqdn qname)).findSome?
      (domainAnswer codec (buildIndex libs codec networks entries) client name rtype) with
  | none =>
    rw [List.findSome?_eq_none_iff] at hfound
    rintro e he ⟨hcovers, hanswer⟩
    have hnone := hfound e.domain (mem_triedDomains.mpr hcovers)
    exact domainAnswer_eq_none codec hnone ((hmem e).mpr he) rfl hanswer
  | some found =>
    rw [List.findSome?_eq_some_iff] at hfound
    obtain ⟨closer, domain, farther, hdomains, hhit, hmissed⟩ := hfound
    obtain ⟨e, hfirst, hanswer⟩ := Option.bind_eq_some_iff.mp hhit
    obtain ⟨first, rest, hentries, he, hbefore, hafter⟩ := firstHit_of_find? hfirst
    have hsome : (e.answer codec client name rtype).isSome = true := by rw [hanswer]; rfl
    have hdomain : e.domain = domain := by simpa [hsome] using he
    have hcovers : Covers e.domain (normalizeFqdn qname) := by
      rw [hdomain, ← mem_triedDomains, hdomains]
      simp
    have hothers : ∀ other ∈ resolvedEntries libs codec networks entries,
        CanAnswer codec client (normalizeFqdn qname) name rtype other → other.domain = domain ∨
          closeness (normalizeFqdn qname) other.domain < closeness (normalizeFqdn qname) domain :=
      fun other hother hcan => farther_of_missed codec hdomains hmissed ((hmem other).mpr hother) hcan
    refine ⟨first, e, rest, hentries, ⟨hcovers, hsome⟩, hanswer, ?_, ?_⟩
    · intro other hother hcan
      have hin : other ∈ resolvedEntries libs codec networks entries := by rw [hentries]; simp [hother]
      cases hothers other hin hcan with
      | inl hsame => exact .inr ⟨hdomain.trans hsame.symm, hbefore other hother (by simp [hsame, hcan.2])⟩
      | inr hfar => exact .inl (hdomain ▸ hfar)
    · intro other hother hcan htried
      have hin : other ∈ resolvedEntries libs codec networks entries := by rw [hentries]; simp [hother]
      have hnear : closeness (normalizeFqdn qname) other.domain ≤ closeness (normalizeFqdn qname) e.domain := by
        cases hothers other hin hcan with
        | inl hsame => rw [hsame, hdomain]
        | inr hfar =>
          rw [hdomain]
          exact hfar.le
      cases htried with
      | inl hcloser => exact Nat.not_le.mpr hcloser hnear
      | inr hlower =>
        have hle := hafter other hother (by simp [hlower.1, hdomain, hcan.2])
        exact absurd hlower.2 (not_lt.mpr hle)

/-- A codec whose types, data and names are their texts. -/
def textCodec : RecordCodec Text Text Text where
  parseType := some
  parseData := fun _ content => some content
  parseName := some
  cname := "CNAME"
  any := "ANY"
  a := "A"
  aaaa := "AAAA"
  ofV4 := fun ip => (IpAddr.v4 ip).toText
  ofV6 := fun ip => (IpAddr.v6 ip).toText

def storedEntry (id : Uuid) (domain : Text) (networks : List Text) (position : Int) : SplitHorizonEntry SplitHorizonContent where
  id := id
  domain := domain
  content := ⟨networks, [], [⟨"A".toList, "10.0.0.5".toList⟩], 60⟩
  disabled := false
  position := position
  lastModifiedAt := 0

/-- A wildcard, and two closer ones of one domain, the first for a private network only. -/
def storedEntries : List (SplitHorizonEntry SplitHorizonContent) :=
  [storedEntry 1 "*.test".toList [] 0, storedEntry 2 "*.lan.test".toList ["10.0.0.0/8".toList] 0,
    storedEntry 3 "*.lan.test".toList [] 1]

theorem lookup_first_closest :
    AnswersFirst textCodec (resolvedEntries plainLibraries textCodec [] storedEntries) (.v4 0x08080808)
        (normalizeFqdn "NAS.lan.test.".toList) "nas.lan.test.".toList "A".toList
        (lookup textCodec (buildIndex plainLibraries textCodec [] storedEntries) (.v4 0x08080808) "NAS.lan.test.".toList
          "A".toList) ∧
      ((lookup textCodec (buildIndex plainLibraries textCodec [] storedEntries) (.v4 0x08080808) "NAS.lan.test.".toList
        "A".toList).map SplitHorizonMatch.entryId) = some 3 :=
  ⟨lookup_first plainLibraries textCodec [] storedEntries _ _ _ _ (by decide), by decide⟩

end DaygleDns.Authoritative
