import DaygleDns.Addresses
import DaygleDns.Policy.Engine

/-! Filtering groups: as stored, as compiled for queries, and the walks of a query
over them. The tables of services and security categories, the parsers of other
libraries and the Unicode tables are parameters. -/
namespace DaygleDns.Policy

open Text

/-! Schedules: weekly time windows. -/

/-- Short and full day names, Monday first. -/
def dayNames : List (Text × Text) :=
  [("mon".toList, "monday".toList), ("tue".toList, "tuesday".toList), ("wed".toList, "wednesday".toList),
    ("thu".toList, "thursday".toList), ("fri".toList, "friday".toList), ("sat".toList, "saturday".toList),
    ("sun".toList, "sunday".toList)]

structure ScheduleWindow where
  days : List Text
  start : Text
  stop : Text
deriving DecidableEq

/-- A day, 0 for Monday, and a minute of it. -/
structure WeekTime where
  day : Nat
  minute : Nat
deriving DecidableEq

/-- A window starts on day `n` where bit `n` of `days` is set. -/
structure CompiledWindow where
  days : Nat
  start : Nat
  stop : Nat
deriving DecidableEq

def badTime (text : Text) : Text :=
  '\x27' :: text ++ "\x27 is not a time (use HH:MM, 24-hour)".toList

/-- `HH:MM` as a minute of the day. -/
def parseTime (text : Text) : Except Text Nat :=
  match splitOnce [':'] (trim text) with
  | none => .error (badTime text)
  | some (h, m) =>
      match (parseU32 h, parseU32 m) with
      | (some hours, some minutes) =>
          if !(1 ≤ utf8Len h && utf8Len h ≤ 2) || utf8Len m ≠ 2 || 23 < hours.toNat || 59 < minutes.toNat then
            .error (badTime text)
          else .ok (hours.toNat * 60 + minutes.toNat)
      | _ => .error (badTime text)

namespace CompiledWindow

/-- The day that `day` names. -/
def dayIndex (day : Text) : Option Nat :=
  let lowered := toAsciiLowercase (trim day)
  dayNames.findIdx? fun names => lowered == names.1 || lowered == names.2

def parseDays (days : List Text) : Except Text Nat :=
  days.foldlM (fun mask day =>
    match dayIndex day with
    | some index => .ok (mask ||| 1 <<< index)
    | none => .error ('\x27' :: day ++ "\x27 is not a day of the week".toList)) 0

def parse (window : ScheduleWindow) : Except Text CompiledWindow := do
  let days ← parseDays window.days
  let start ← parseTime window.start
  let stop ← parseTime window.stop
  return { days := if days = 0 then 0x7f else days, start := start, stop := stop }

def startsOn (window : CompiledWindow) (day : Nat) : Bool := window.days.testBit (day % 7)

def contains (window : CompiledWindow) (now : WeekTime) : Bool :=
  if window.start = window.stop then window.startsOn now.day
  else if window.start < window.stop then
    window.startsOn now.day && window.start ≤ now.minute && now.minute < window.stop
  else
    -- The evening of a listed day, or the morning after one.
    (window.startsOn now.day && window.start ≤ now.minute) ||
      (window.startsOn (now.day + 6) && now.minute < window.stop)

end CompiledWindow

def scheduleActive (windows : List CompiledWindow) (now : WeekTime) : Bool :=
  windows.isEmpty || windows.any (·.contains now)

/-! The stored groups. -/

inductive BlockResponse where
  | nxDomain | refused | noData
  | redirect (address : IpAddr)
deriving DecidableEq

structure BlockingGroup where
  name : Text
  enabled : Bool
  clients : List Text
  allow : List Text
  block : List Text
  allowRegex : List Text
  blockRegex : List Text
  blocklists : List Text
  response : BlockResponse
  schedule : List ScheduleWindow
  blockedServices : List Text
  blockedSecurity : List Text
  blockedTlds : List Text
  blockLocalAddresses : Bool
  limitPayloads : Bool
deriving DecidableEq

/-! The tables. -/

structure Service where
  id : Text
  name : Text
  domains : List Text

inductive Detector where
  | newlyRegistered | safeBrowsing | cnameTracker
deriving DecidableEq

inductive Section where
  | security | privacy
deriving DecidableEq

structure SecurityCategory where
  id : Text
  name : Text
  section_ : Section
  detector : Option Detector
deriving DecidableEq

/-- A set of patterns; `matching` gives the places of those that match a text, in order. -/
structure RegexSet where
  patterns : List Text
  matching : Text → List (Fin patterns.length)

def RegexSet.isMatch (set : RegexSet) (text : Text) : Bool := !(set.matching text).isEmpty

/-- What the program takes from its static tables and from other libraries. -/
structure Libraries where
  services : List Service
  securityCategories : List SecurityCategory
  parseIpNet : Text → Option Network
  /-- The ASCII form of a host name that has other characters. -/
  hostAscii : Text → Option Text
  regexCompiles : Text → Bool
  regexSet : List Text → RegexSet
  toLowercase : Text → Text

variable (libs : Libraries)

/-! Client-list entries. -/

def Listener.keyword : Listener → Text
  | .dot => "dot".toList
  | .doh => "doh".toList
  | .doq => "doq".toList

def listenerKeywords : List Listener := [.dot, .doh, .doq]

def accountPrefix : Text := "account:".toList

/-- The account that an entry names. -/
def accountEntry (entry : Text) : Option Text :=
  let entry := trim entry
  if eqIgnoreAsciiCase (entry.take accountPrefix.length) accountPrefix then
    let name := trim (entry.drop accountPrefix.length)
    if name.isEmpty then none else some name
  else none

def isListenerKeyword (entry : Text) : Bool :=
  listenerKeywords.any fun k => k.keyword == toAsciiLowercase (trim entry)

def networklessListeners (entries : List Text) : List Listener :=
  entries.filterMap fun entry =>
    listenerKeywords.find? fun k => eqIgnoreAsciiCase (toAsciiLowercase (trim entry)) k.keyword

def parseIpAddr (text : Text) : Option IpAddr :=
  match parseIpv4 text with
  | some ip => some (.v4 ip)
  | none => (parseIpv6 text).map .v6

/-- The network of one address. -/
def hostNetwork : IpAddr → Network
  | .v4 ip => .v4 ⟨ip, 32⟩
  | .v6 ip => .v6 ⟨ip, 128⟩

/-- A network, or an address as the network of itself. -/
def parseNetwork (text : Text) : Option Network :=
  let text := trim text
  match libs.parseIpNet text with
  | some net => some net
  | none => (parseIpAddr text).map hostNetwork

def parseNetworks (cidrs : List Text) : List Network := cidrs.filterMap (parseNetwork libs)

/-! Domain lists. -/

def isAscii (text : Text) : Bool := text.all fun c => c.toNat < 128

def toAsciiDomain (entry : Text) : Text :=
  if isAscii entry then entry
  else
    let (exception, rest) := match stripPrefix exceptionPrefix entry with
      | some rest => (exceptionPrefix, rest)
      | none => ([], entry)
    let (wildcard, name) := match stripPrefix wildcardPrefix rest with
      | some name => (wildcardPrefix, name)
      | none => ([], rest)
    match libs.hostAscii name with
    | some ascii => exception ++ wildcard ++ ascii
    | none => entry

def normalizeDomains (entries : List Text) : TextSet :=
  TextSet.empty.putAll ((entries.map fun d =>
    toAsciiLowercase (toAsciiDomain libs (trimEndMatches '.' (trim d)))).filter (!·.isEmpty))

def normalizeTld (raw : Text) : Option Text :=
  let trimmed := trim raw
  let trimmed := (stripPrefix wildcardPrefix trimmed).getD trimmed
  let trimmed := trimEndMatches '.' (trimStartMatches '.' trimmed)
  if trimmed.isEmpty || trimmed.any (· == '.') then none
  else match (normalizeDomains libs [trimmed]).rows.head? with
    | none => none
    | some tld =>
        if utf8Len tld ≤ 63 && tld.all (fun c => c.isAlphanum || c == '-') && tld.head? != some '-' &&
            tld.getLast? != some '-' && !tld.all Char.isDigit then
          some tld
        else none

def compileRegex (patterns : List Text) : RegexSet := libs.regexSet (patterns.filter libs.regexCompiles)

def findService (id : Text) : Option Service :=
  libs.services.find? fun s => eqIgnoreAsciiCase s.id (trim id)

def findCategory (id : Text) : Option SecurityCategory :=
  libs.securityCategories.find? fun c => eqIgnoreAsciiCase c.id (trim id)

def responseToAction : BlockResponse → Action
  | .nxDomain => .block
  | .refused => .refused
  | .noData => .noData
  | .redirect address => .redirect address

/-! The compiled groups. -/

structure CompiledGroup where
  name : Text
  clients : List Network
  listeners : List Listener
  accounts : List Text
  allow : Blocklist
  block : Blocklist
  allowRegex : RegexSet
  blockRegex : RegexSet
  /-- The names of group-scoped sources, in lower case and as written. -/
  blocklists : List (Text × Text)
  action : Action
  schedule : List CompiledWindow
  services : List (Text × Blocklist)
  security : List SecurityCategory
  tlds : Blocklist
  blockLocalAddresses : Bool
  limitPayloads : Bool

def compileGroup (g : BlockingGroup) : CompiledGroup :=
  let others := g.clients.filter fun c => (accountEntry c).isNone
  { name := g.name
    accounts := (g.clients.filterMap accountEntry).map libs.toLowercase
    listeners := networklessListeners (others.filter isListenerKeyword)
    clients := parseNetworks libs (others.filter (!isListenerKeyword ·))
    allow := .fromSet (normalizeDomains libs g.allow)
    block := .fromSet (normalizeDomains libs g.block)
    allowRegex := compileRegex libs g.allowRegex
    blockRegex := compileRegex libs g.blockRegex
    blocklists := g.blocklists.map fun n => (toAsciiLowercase n, n)
    action := responseToAction g.response
    schedule := g.schedule.filterMap fun w => (CompiledWindow.parse w).toOption
    services := (g.blockedServices.filterMap (findService libs)).map fun s =>
      (s.name, .fromSet (normalizeDomains libs (s.domains.flatMap fun d => [d, wildcardPrefix ++ d])))
    security := g.blockedSecurity.filterMap (findCategory libs)
    tlds := .fromSet (TextSet.empty.putAll
      ((g.blockedTlds.filterMap (normalizeTld libs)).map (wildcardPrefix ++ ·)))
    blockLocalAddresses := g.blockLocalAddresses
    limitPayloads := g.limitPayloads }

/-- Who asks: the address, the encrypted listener if any, and the account the
connection was recognised as, if any. -/
structure Asker where
  client : IpAddr
  listener : Option Listener
  account : Option Text

/-- The first pattern that matches, between slashes. -/
def firstPattern (set : RegexSet) (qname : Text) : Option Text :=
  (set.matching qname).head?.map fun i => '/' :: set.patterns.get i ++ ['/']

namespace CompiledGroup

def matchesClient (group : CompiledGroup) (asker : Asker) : Bool :=
  if group.clients.isEmpty && group.listeners.isEmpty && group.accounts.isEmpty then true
  else
    group.clients.any (·.contains asker.client) ||
      asker.listener.any (group.listeners.contains ·) ||
      (!group.accounts.isEmpty && asker.account.any fun account => group.accounts.contains (libs.toLowercase account))

def applies (group : CompiledGroup) (asker : Asker) (now : WeekTime) : Bool :=
  group.matchesClient libs asker && (group.schedule.isEmpty || scheduleActive group.schedule now)

def securityMatch (group : CompiledGroup) (qname : Text) (feeds : Text → Option Blocklist) :
    Option SecurityCategory :=
  group.security.find? fun c => c.detector.isNone && (feeds c.id).any (·.contains qname)

def uses (group : CompiledGroup) (detector : Detector) : Bool :=
  group.security.any fun c => c.detector == some detector

def allows (group : CompiledGroup) (qname : Text) : Bool :=
  group.allow.contains qname || group.allowRegex.isMatch qname

def allowMatch (group : CompiledGroup) (qname : Text) : Option Text :=
  (group.allow.matchingEntry qname).or (firstPattern group.allowRegex qname)

def blockMatch (group : CompiledGroup) (qname : Text) : Option Text :=
  (group.block.matchingEntry qname).or (firstPattern group.blockRegex qname)

end CompiledGroup

structure AdvancedBlocking where
  groups : List CompiledGroup
  lists : GroupBlocklists

def AdvancedBlocking.build (groups : List BlockingGroup) (lists : GroupBlocklists) : AdvancedBlocking :=
  ⟨(groups.filter (·.enabled)).map (compileGroup libs), lists⟩

/-- The block source of a category. -/
def categorySource (name : Text) : Text :=
  if libs.securityCategories.any fun c => c.name == name && c.section_ == .privacy then Source.privacy
  else Source.security

def tldOf (entry : Text) : Text := (stripPrefix wildcardPrefix entry).getD entry

namespace CompiledGroup

/-! What in the group blocks the name: the reason, the source and the entry. -/

def blockFound (group : CompiledGroup) (qname : Text) : Option (Text × Text × Text) :=
  (group.blockMatch qname).map fun entry =>
    (quoted qname ++ " blocked by group ".toList ++ quoted group.name ++ " (entry ".toList ++ quoted entry ++
      ")".toList, Source.group, entry)

def serviceFound (group : CompiledGroup) (qname : Text) : Option (Text × Text × Text) :=
  (group.services.find? fun service => service.2.contains qname).map fun service =>
    (quoted qname ++ " blocked as part of ".toList ++ service.1 ++ " by group ".toList ++ quoted group.name,
      Source.service, service.1)

def categoryFound (group : CompiledGroup) (qname : Text) (feeds : Text → Option Blocklist) :
    Option (Text × Text × Text) :=
  (group.securityMatch qname feeds).map fun category =>
    (quoted qname ++ " blocked as ".toList ++ category.name ++ " by group ".toList ++ quoted group.name,
      categorySource libs category.name, category.name)

def tldFound (group : CompiledGroup) (qname : Text) : Option (Text × Text × Text) :=
  (group.tlds.matchingEntry qname).map fun entry =>
    (quoted qname ++ " blocked by group ".toList ++ quoted group.name ++ " (TLD ".toList ++ quoted (tldOf entry) ++
      ")".toList, Source.tld, entry)

def blocklistFound (group : CompiledGroup) (qname : Text) (lists : Text → Option Blocklist) :
    Option (Text × Text × Text) :=
  (group.blocklists.find? fun key => (lists key.1).any (·.contains qname)).map fun key =>
    (quoted qname ++ " blocked by blocklist ".toList ++ quoted key.2 ++ " in group ".toList ++ quoted group.name,
      Source.groupBlocklist, key.2)

def found (group : CompiledGroup) (qname : Text) (lists : GroupBlocklists) : Option (Text × Text × Text) :=
  (group.blockFound qname).or <|
    (group.serviceFound qname).or <|
    (group.categoryFound libs qname lists.feeds).or <|
    (group.tldFound qname).or <|
    group.blocklistFound qname lists.lists

/-- A check of the group. -/
def inGroup (group : CompiledGroup) (result : CheckResult) (kind detail : Text) : Check :=
  { Check.new kind result detail with
    group := some group.name
    action := if result = .block then some group.action.asStr else none }

def inGroupMatched (group : CompiledGroup) (result : CheckResult) (kind matched detail : Text) : Check :=
  { group.inGroup result kind detail with matched := some matched }

def allowChecks (group : CompiledGroup) (qname : Text) : List Check :=
  match group.allowMatch qname with
  | some entry =>
      [group.inGroupMatched .allow Source.group entry
        ("Allowed by group ".toList ++ quoted group.name ++ " (entry ".toList ++ quoted entry ++ ")".toList)]
  | none => []

def blockChecks (group : CompiledGroup) (qname : Text) : List Check :=
  match group.blockMatch qname with
  | some entry =>
      [group.inGroupMatched .block Source.group entry
        ("Blocked by group ".toList ++ quoted group.name ++ " (entry ".toList ++ quoted entry ++ ")".toList)]
  | none => []

def serviceChecks (group : CompiledGroup) (qname : Text) : List Check :=
  group.services.flatMap fun service =>
    if service.2.contains qname then
      [group.inGroupMatched .block Source.service service.1
        ("Part of ".toList ++ service.1 ++ ", blocked by group ".toList ++ quoted group.name)]
    else []

def categoryChecks (group : CompiledGroup) (qname : Text) (feeds : Text → Option Blocklist)
    (category : SecurityCategory) : List Check :=
  let kind := categorySource libs category.name
  if category.detector.isSome then
    [group.inGroup .none kind (category.name ++ ": group ".toList ++ quoted group.name ++
      " checks the domain once it resolves".toList)]
  else match feeds category.id with
    | none => [group.inGroup .none kind (category.name ++
        ": its list has not been downloaded yet, so it blocks nothing".toList)]
    | some list =>
        match list.matchingEntry qname with
        | some entry =>
            [group.inGroupMatched .block kind category.name (category.name ++ " (entry ".toList ++ quoted entry ++
              "), blocked by group ".toList ++ quoted group.name)]
        | none => []

def tldChecks (group : CompiledGroup) (qname : Text) : List Check :=
  match group.tlds.matchingEntry qname with
  | some entry =>
      [group.inGroupMatched .block Source.tld entry ("In the TLD ".toList ++ quoted (tldOf entry) ++
        ", blocked by group ".toList ++ quoted group.name)]
  | none => []

def blocklistChecks (group : CompiledGroup) (qname : Text) (lists : Text → Option Blocklist) : List Check :=
  group.blocklists.flatMap fun key =>
    match (lists key.1).bind (·.matchingEntry qname) with
    | some entry =>
        [group.inGroupMatched .block Source.groupBlocklist key.2 ("On the blocklist ".toList ++ quoted key.2 ++
          " (entry ".toList ++ quoted entry ++ "), selected by group ".toList ++ quoted group.name)]
    | none => []

/-- The checks of a group that covers the client and is inside its schedule. -/
def activeChecks (group : CompiledGroup) (qname : Text) (lists : GroupBlocklists) : List Check :=
  let checks := group.allowChecks qname ++ (group.blockChecks qname ++ (group.serviceChecks qname ++
    (group.security.flatMap (group.categoryChecks libs qname lists.feeds) ++ (group.tldChecks qname ++
      group.blocklistChecks qname lists.lists))))
  if checks.isEmpty then
    [group.inGroup .none Source.group ("Group ".toList ++ quoted group.name ++
      " covers this device; nothing in it matches".toList)]
  else checks

def explainChecks (group : CompiledGroup) (asker : Asker) (qname : Text) (lists : GroupBlocklists)
    (now : WeekTime) : List Check :=
  if !group.matchesClient libs asker then []
  else if !group.applies libs asker now then
    [group.inGroup .off Source.group ("Group ".toList ++ quoted group.name ++
      " covers this device but is outside its schedule now".toList)]
  else group.activeChecks libs qname lists

end CompiledGroup

namespace AdvancedBlocking

def evaluateGroups (asker : Asker) (qname : Text) (lists : GroupBlocklists) (now : WeekTime) :
    List CompiledGroup → Option Decision
  | [] => none
  | group :: rest =>
      if !group.applies libs asker now then evaluateGroups asker qname lists now rest
      else if group.allows qname then none
      else match group.found libs qname lists with
        | some (reason, kind, entry) =>
            some (((Decision.new reason group.action).withGroup group.name).withSource kind (some entry))
        | none => evaluateGroups asker qname lists now rest

/-- The decision of the groups; `none` for a name that is allowed or in no group. -/
def evaluate (blocking : AdvancedBlocking) (asker : Asker) (qname : Text) (now : WeekTime) : Option Decision :=
  evaluateGroups libs asker qname blocking.lists now blocking.groups

def explain (blocking : AdvancedBlocking) (asker : Asker) (qname : Text) (now : WeekTime) : List Check :=
  blocking.groups.flatMap fun group => group.explainChecks libs asker qname blocking.lists now

end AdvancedBlocking

end DaygleDns.Policy
