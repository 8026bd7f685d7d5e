import DaygleDns.Authoritative.RpzSpellings
import DaygleDns.Authoritative.ZoneFile
import DaygleDns.Dhcp.Ddns
import DaygleDns.OrderedTable
import DaygleDns.Writes

/-! The tables of a response policy zone, which are made of its records in the order of a
hash map. -/
namespace DaygleDns.Authoritative

open Text
open DaygleDns.Dhcp (errorText)

/-- The target of a CNAME record, in lower case. -/
def cnameOf (record : LocalRecord) : Option Text :=
  if record.rtype = "CNAME".toList then some (toAsciiLowercase record.rdata) else none

/-- The action that the records at a trigger give. -/
def actionOf (trigger zone : Text) (records : List LocalRecord) : RpzAction :=
  match records.findSome? cnameOf with
  | none => .localData records
  | some target =>
      if target = ".".toList then .nxDomain
      else if target = "*.".toList then .noData
      else if target = "rpz-passthru.".toList then .passthru
      else if target = "rpz-drop.".toList then .drop
      else if target = "rpz-tcp-only.".toList then .tcpOnly
      else if trimEndMatches '.' target = trigger ∨ trimEndMatches '.' target = trigger ++ '.' :: zone then .passthru
      else .localData records

abbrev Grouped := List (Text × List LocalRecord)

/-- Add a record to those of its trigger. -/
def pushRecord (trigger : Text) (record : LocalRecord) : Grouped → Grouped
  | [] => [(trigger, [record])]
  | group :: rest =>
      if group.1 = trigger then (group.1, group.2 ++ [record]) :: rest else group :: pushRecord trigger record rest

/-- The records of a zone by their triggers; those at the apex, and SOA and NS records, are left out. -/
def groupRecords (zone : Text) (records : List (Text × LocalRecord)) : Grouped :=
  let zone := toAsciiLowercase (trimEndMatches '.' zone)
  records.foldl
    (fun grouped item =>
      let owner := toAsciiLowercase (trimEndMatches '.' item.1)
      if owner = zone ∨ owner = [] ∨ owner = "@".toList then grouped
      else
        let relative := (stripSuffix ('.' :: zone) owner).getD owner
        if item.2.rtype = "SOA".toList ∨ item.2.rtype = "NS".toList then grouped
        else pushRecord relative item.2 grouped)
    []

inductive AddressKind where
  | client
  | response
  | ns
deriving DecidableEq, Repr

inductive NameKind where
  | exact
  | wildcard
  | nsExact
  | nsWildcard
deriving DecidableEq, Repr

/-- The address part of a trigger, and which addresses it is about. -/
def addressTrigger (trigger : Text) : Option (AddressKind × Text) :=
  match stripSuffix ".rpz-client-ip".toList trigger with
  | some ip => some (.client, ip)
  | none =>
      match stripSuffix ".rpz-ip".toList trigger with
      | some ip => some (.response, ip)
      | none => (stripSuffix ".rpz-nsip".toList trigger).map fun ip => (.ns, ip)

/-- The table of names that a trigger belongs to, and its name there. -/
def nameTrigger (trigger : Text) : Option (NameKind × Text) :=
  match stripSuffix ".rpz-nsdname".toList trigger with
  | some name =>
      match stripPrefix "*.".toList name with
      | some suffix => some (.nsWildcard, suffix)
      | none => some (.nsExact, name)
  | none =>
      if ((trigger.splitOn '.').getLast?.map "rpz-".toList.isPrefixOf).getD false then none
      else
        match stripPrefix "*.".toList trigger with
        | some suffix => some (.wildcard, suffix)
        | none => if trigger = "*".toList then none else some (.exact, trigger)

namespace CompiledZone

def insertAddress (compiled : CompiledZone) (kind : AddressKind) (net : Network) (action : RpzAction) : CompiledZone :=
  match kind with
  | .client => { compiled with clientIp := compiled.clientIp.insert net action }
  | .response => { compiled with responseIp := compiled.responseIp.insert net action }
  | .ns => { compiled with nsIp := compiled.nsIp.insert net action }

def insertName (compiled : CompiledZone) (kind : NameKind) (name : Text) (action : RpzAction) : CompiledZone :=
  match kind with
  | .exact => { compiled with exact := (name, action) :: compiled.exact }
  | .wildcard => { compiled with wildcard := (name, action) :: compiled.wildcard }
  | .nsExact => { compiled with nsExact := (name, action) :: compiled.nsExact }
  | .nsWildcard => { compiled with nsWildcard := (name, action) :: compiled.nsWildcard }

/-- One trigger; those that are not read or not known are skipped. -/
def addTrigger (zone : Text) (compiled : CompiledZone) (group : Text × List LocalRecord) : CompiledZone :=
  let action := actionOf group.1 zone group.2
  match addressTrigger group.1 with
  | some (kind, ip) =>
      match parseIpTrigger ip with
      | some net => compiled.insertAddress kind net action
      | .none => compiled
  | .none =>
      match nameTrigger group.1 with
      | some (kind, name) => compiled.insertName kind name action
      | .none => compiled

/-- `CompiledZone::default` -/
def empty : CompiledZone := ⟨[], [], .none, .none, [], [], .none⟩

/-- `CompiledZone::from_records`; `order` is that of the hash map of the groups. -/
def fromRecords (order : Shuffle (Text × List LocalRecord)) (zone : Text) (records : List (Text × LocalRecord)) :
    CompiledZone :=
  (order.shuffle (groupRecords zone records)).foldl (addTrigger (toAsciiLowercase (trimEndMatches '.' zone))) empty

end CompiledZone

/-- What the DNS library reads: the type that a name stands for, and the data of a record of a type,
which comes back as it is written. -/
structure RdataReader where
  recordType : Text → Option Text
  rdata : Text → Text → Except Text Text

/-- The record of a zone file's entry. -/
def localRecord (reader : RdataReader) (input : RecordInput) : Except Text (Text × LocalRecord) :=
  match reader.recordType input.rtype with
  | none => .error ("unknown record type '" ++ input.rtype ++ "'")
  | some rtype =>
      match reader.rdata rtype input.content with
      | .error e => .error ("'" ++ input.name ++ " " ++ input.rtype ++ " " ++ input.content ++ "': " ++ e)
      | .ok rdata => .ok (input.name, { rtype := rtype, ttl := input.ttl, rdata := rdata })

/-- The records of a zone file. -/
def textRecords (reader : RdataReader) (text : Text) : Except Text (List (Text × LocalRecord)) :=
  (parseZoneFile text).mapError errorText >>= List.mapM (localRecord reader)

/-- `CompiledZone::from_text` -/
def CompiledZone.fromText (reader : RdataReader) (order : Shuffle (Text × List LocalRecord)) (zone text : Text) :
    Except Text CompiledZone :=
  (textRecords reader text).map (CompiledZone.fromRecords order zone)

/-! What the tables hold, and the trigger that it is from. -/

inductive RuleKey where
  | name (kind : NameKind) (name : Text)
  | v4 (kind : AddressKind) (length : Nat) (net : BitVec 32)
  | v6 (kind : AddressKind) (length : Nat) (net : BitVec 128)
deriving DecidableEq

def netKey (kind : AddressKind) : Network → RuleKey
  | .v4 net => .v4 kind net.prefixLen net.network
  | .v6 net => .v6 kind net.prefixLen net.network

def ruleKey (trigger : Text) : Option RuleKey :=
  match addressTrigger trigger with
  | some (kind, ip) => (parseIpTrigger ip).map (netKey kind)
  | none => (nameTrigger trigger).map fun found => .name found.1 found.2

namespace CompiledZone

def names (compiled : CompiledZone) : NameKind → NameRules
  | .exact => compiled.exact
  | .wildcard => compiled.wildcard
  | .nsExact => compiled.nsExact
  | .nsWildcard => compiled.nsWildcard

def addresses (compiled : CompiledZone) : AddressKind → IpTriggers
  | .client => compiled.clientIp
  | .response => compiled.responseIp
  | .ns => compiled.nsIp

def get (compiled : CompiledZone) : RuleKey → Option RpzAction
  | .name kind name => (compiled.names kind).lookup name
  | .v4 kind length net => (compiled.addresses kind).v4.get length net
  | .v6 kind length net => (compiled.addresses kind).v6.get length net

end CompiledZone

theorem lookup_of_short {w length : Nat} {groups : List (Nat × List (BitVec w × RpzAction))}
    (h : ∀ group ∈ groups, group.1 < length) : groups.lookup length = none := by
  rw [List.lookup_eq_none_iff]
  intro group hgroup
  exact bne_iff_ne.mpr (h group hgroup).ne'

/-- In sorted groups a network is kept where it was put, and the others stay. -/
theorem lookup_insertNet {w : Nat} {length : Nat} (net : BitVec w) (action : RpzAction)
    {groups : List (Nat × List (BitVec w × RpzAction))}
    (hsorted : groups.Pairwise fun first second => second.1 < first.1) :
    (PrefixTable.insertNet length net action groups).lookup length =
        some ((net, action) :: (groups.lookup length).getD []) ∧
      ∀ other, other ≠ length → (PrefixTable.insertNet length net action groups).lookup other = groups.lookup other := by
  induction groups with
  | nil =>
    constructor
    · simp [PrefixTable.insertNet]
    · intro other hother
      rw [PrefixTable.insertNet, List.lookup_cons, beq_eq_false_iff_ne.mpr hother]
  | cons first rest ih =>
    obtain ⟨len, nets⟩ := first
    obtain ⟨hfirst, hrest⟩ := List.pairwise_cons.mp hsorted
    simp only [PrefixTable.insertNet]
    split
    next hlt =>
      have hnone : ((len, nets) :: rest).lookup length = none := by
        apply lookup_of_short
        intro group hgroup
        obtain rfl | hmem := List.mem_cons.mp hgroup
        · exact hlt
        · exact (hfirst group hmem).trans hlt
      rw [hnone]
      constructor
      · simp
      · intro other hother
        rw [List.lookup_cons, beq_eq_false_iff_ne.mpr hother]
    split
    next hle heq =>
      subst heq
      constructor
      · simp
      · intro other hother
        rw [List.lookup_cons, List.lookup_cons, beq_eq_false_iff_ne.mpr hother]
    next hle hne =>
      constructor
      · rw [List.lookup_cons, List.lookup_cons, beq_eq_false_iff_ne.mpr (Ne.symm hne)]
        exact (ih hrest).1
      · intro other hother
        rw [List.lookup_cons, List.lookup_cons, (ih hrest).2 other hother]

theorem PrefixTable.get_insert {w : Nat} (table : PrefixTable w) (net : IpNet w) (action : RpzAction) (length : Nat)
    (bits : BitVec w) :
    (table.insert net action).get length bits =
      if (net.prefixLen : Nat) = length ∧ net.network = bits then some action else table.get length bits := by
  obtain ⟨hput, hother⟩ := @lookup_insertNet w net.prefixLen net.network action table.groups table.sorted
  simp only [PrefixTable.get, PrefixTable.insert]
  by_cases hlength : (net.prefixLen : Nat) = length
  · subst hlength
    rw [hput]
    by_cases hbits : net.network = bits
    · subst hbits
      simp
    · rw [if_neg (fun h => hbits h.2), Option.bind_some, List.lookup_cons, beq_eq_false_iff_ne.mpr (Ne.symm hbits)]
      cases table.groups.lookup (net.prefixLen : Nat) <;> rfl
  · rw [if_neg (fun h => hlength h.1), hother length (Ne.symm hlength)]

namespace CompiledZone

theorem addresses_insertAddress (compiled : CompiledZone) (kind other : AddressKind) (net : Network) (action : RpzAction) :
    (compiled.insertAddress kind net action).addresses other =
      if kind = other then (compiled.addresses other).insert net action else compiled.addresses other := by
  cases kind <;> cases other <;> rfl

theorem names_insertAddress (compiled : CompiledZone) (kind : AddressKind) (other : NameKind) (net : Network)
    (action : RpzAction) : (compiled.insertAddress kind net action).names other = compiled.names other := by
  cases kind <;> cases other <;> rfl

theorem names_insertName (compiled : CompiledZone) (kind other : NameKind) (name : Text) (action : RpzAction) :
    (compiled.insertName kind name action).names other =
      if kind = other then (name, action) :: compiled.names other else compiled.names other := by
  cases kind <;> cases other <;> rfl

theorem addresses_insertName (compiled : CompiledZone) (kind : NameKind) (other : AddressKind) (name : Text)
    (action : RpzAction) : (compiled.insertName kind name action).addresses other = compiled.addresses other := by
  cases kind <;> cases other <;> rfl

theorem get_insertAddress (compiled : CompiledZone) (kind : AddressKind) (net : Network) (action : RpzAction)
    (key : RuleKey) :
    (compiled.insertAddress kind net action).get key = if netKey kind net = key then some action else compiled.get key := by
  cases key with
  | name other name =>
    rw [if_neg (by cases net <;> simp [netKey])]
    simp only [get, names_insertAddress]
  | v4 other length bits =>
    simp only [get, addresses_insertAddress]
    by_cases hkind : kind = other
    · rw [if_pos hkind]
      cases net with
      | v4 net =>
        simp only [IpTriggers.insert, PrefixTable.get_insert, netKey, RuleKey.v4.injEq, hkind, true_and]
      | v6 net => rw [if_neg (by simp [netKey]), IpTriggers.insert]
    · rw [if_neg hkind, if_neg (by cases net <;> simp [netKey, hkind])]
  | v6 other length bits =>
    simp only [get, addresses_insertAddress]
    by_cases hkind : kind = other
    · rw [if_pos hkind]
      cases net with
      | v4 net => rw [if_neg (by simp [netKey]), IpTriggers.insert]
      | v6 net =>
        simp only [IpTriggers.insert, PrefixTable.get_insert, netKey, RuleKey.v6.injEq, hkind, true_and]
    · rw [if_neg hkind, if_neg (by cases net <;> simp [netKey, hkind])]

theorem get_insertName (compiled : CompiledZone) (kind : NameKind) (name : Text) (action : RpzAction) (key : RuleKey) :
    (compiled.insertName kind name action).get key = if .name kind name = key then some action else compiled.get key := by
  cases key with
  | name other found =>
    simp only [get, names_insertName]
    by_cases hkind : kind = other
    · by_cases hname : name = found
      · subst hname
        rw [if_pos hkind, if_pos (by rw [hkind]), List.lookup_cons, BEq.rfl]
      · rw [if_pos hkind, if_neg (by simp [hname]), List.lookup_cons, beq_eq_false_iff_ne.mpr (Ne.symm hname)]
    · rw [if_neg hkind, if_neg (by simp [hkind])]
  | v4 other length bits =>
    rw [if_neg (by simp)]
    simp only [get, addresses_insertName]
  | v6 other length bits =>
    rw [if_neg (by simp)]
    simp only [get, addresses_insertName]

theorem get_addTrigger (zone : Text) (compiled : CompiledZone) (group : Text × List LocalRecord) (key : RuleKey) :
    (addTrigger zone compiled group).get key =
      if ruleKey group.1 = some key then some (actionOf group.1 zone group.2) else compiled.get key := by
  cases haddress : addressTrigger group.1 with
  | some found =>
    cases hnet : parseIpTrigger found.2 with
    | some net => simp only [addTrigger, ruleKey, haddress, hnet, get_insertAddress, Option.map_some, Option.some.injEq]
    | none => simp [addTrigger, ruleKey, haddress, hnet]
  | none =>
    cases hname : nameTrigger group.1 with
    | some found => simp only [addTrigger, ruleKey, haddress, hname, get_insertName, Option.map_some, Option.some.injEq]
    | none => simp [addTrigger, ruleKey, haddress, hname]

end CompiledZone

/-- The triggers of a zone as what is written to its tables. -/
def ruleWrites (zone : Text) : Writes CompiledZone (Text × List LocalRecord) RuleKey RpzAction where
  step := CompiledZone.addTrigger zone
  get := CompiledZone.get
  key := fun group => ruleKey group.1
  value := fun group => actionOf group.1 zone group.2
  get_step := CompiledZone.get_addTrigger zone

/-! Two triggers have one key only where they spell one network. -/

theorem mem_pushRecord {trigger : Text} {record : LocalRecord} {grouped : Grouped} {key : Text}
    (h : key ∈ (pushRecord trigger record grouped).map Prod.fst) : key = trigger ∨ key ∈ grouped.map Prod.fst := by
  induction grouped with
  | nil => simpa [pushRecord] using h
  | cons group rest ih =>
    simp only [pushRecord] at h
    split at h
    · exact .inr h
    · rw [List.map_cons, List.mem_cons] at h ⊢
      cases h with
      | inl hhead => exact .inr (.inl hhead)
      | inr hrest => exact (ih hrest).imp_right .inr

theorem nodup_pushRecord (trigger : Text) (record : LocalRecord) {grouped : Grouped}
    (h : (grouped.map Prod.fst).Nodup) : ((pushRecord trigger record grouped).map Prod.fst).Nodup := by
  induction grouped with
  | nil => simp [pushRecord]
  | cons group rest ih =>
    simp only [pushRecord]
    split
    · exact h
    next hne =>
      rw [List.map_cons, List.nodup_cons] at h ⊢
      refine ⟨fun hmem => ?_, ih h.2⟩
      cases mem_pushRecord hmem with
      | inl htrigger => exact hne htrigger
      | inr hrest => exact h.1 hrest

theorem nodup_groupRecords (zone : Text) (records : List (Text × LocalRecord)) :
    ((groupRecords zone records).map Prod.fst).Nodup := by
  simp only [groupRecords]
  generalize toAsciiLowercase (trimEndMatches '.' zone) = zone
  induction records using List.reverseRecOn with
  | nil => exact List.nodup_nil
  | append_singleton records item ih =>
    rw [List.foldl_append, List.foldl_cons, List.foldl_nil]
    split
    · exact ih
    split
    · exact ih
    · exact nodup_pushRecord _ _ ih

def spellName (kind : NameKind) (name : Text) : Text :=
  match kind with
  | .exact => name
  | .wildcard => "*.".toList ++ name
  | .nsExact => name ++ ".rpz-nsdname".toList
  | .nsWildcard => "*.".toList ++ name ++ ".rpz-nsdname".toList

theorem spell_of_nameTrigger {trigger name : Text} {kind : NameKind} (h : nameTrigger trigger = some (kind, name)) :
    trigger = spellName kind name := by
  unfold nameTrigger at h
  split at h
  next inner hinner =>
    obtain rfl := stripSuffix_eq_some.mp hinner
    split at h
    next suffix hsuffix =>
      cases h
      rw [stripPrefix_eq_some.mp hsuffix, spellName]
    next => cases h; rfl
  next =>
    split at h
    · cases h
    split at h
    next suffix hsuffix =>
      cases h
      rw [stripPrefix_eq_some.mp hsuffix, spellName]
    next =>
      split at h
      · cases h
      · cases h
        rfl

theorem netKey_injective {first second : Network} {kind other : AddressKind} (hfirst : NoHostBits first)
    (hsecond : NoHostBits second) (h : netKey kind first = netKey other second) : kind = other ∧ first = second := by
  cases first with
  | v4 first =>
    cases second with
    | v4 second =>
      obtain ⟨faddr, flen⟩ := first
      obtain ⟨saddr, slen⟩ := second
      simp only [netKey, RuleKey.v4.injEq] at h
      change IpNet.network _ = faddr at hfirst
      change IpNet.network _ = saddr at hsecond
      rw [hfirst, hsecond] at h
      obtain ⟨hkind, hlen, haddr⟩ := h
      exact ⟨hkind, by rw [haddr, Fin.ext hlen]⟩
    | v6 second => simp [netKey] at h
  | v6 first =>
    cases second with
    | v4 second => simp [netKey] at h
    | v6 second =>
      obtain ⟨faddr, flen⟩ := first
      obtain ⟨saddr, slen⟩ := second
      simp only [netKey, RuleKey.v6.injEq] at h
      change IpNet.network _ = faddr at hfirst
      change IpNet.network _ = saddr at hsecond
      rw [hfirst, hsecond] at h
      obtain ⟨hkind, hlen, haddr⟩ := h
      exact ⟨hkind, by rw [haddr, Fin.ext hlen]⟩

/-- Two triggers of one kind that spell one network give one action. -/
def SpellingsAgree (zone : Text) (records : List (Text × LocalRecord)) : Prop :=
  ∀ first ∈ groupRecords zone records, ∀ second ∈ groupRecords zone records, ∀ kind ip other net,
    addressTrigger first.1 = some (kind, ip) → addressTrigger second.1 = some (kind, other) →
    parseIpTrigger ip = some net → parseIpTrigger other = some net →
    actionOf first.1 (toAsciiLowercase (trimEndMatches '.' zone)) first.2 =
      actionOf second.1 (toAsciiLowercase (trimEndMatches '.' zone)) second.2

theorem ruleKey_address {trigger ip : Text} {kind : AddressKind} {net : Network}
    (htrigger : addressTrigger trigger = some (kind, ip)) (hnet : parseIpTrigger ip = some net) :
    ruleKey trigger = some (netKey kind net) := by
  simp only [ruleKey, htrigger, hnet, Option.map_some]

/-- Where a key comes from. -/
theorem ruleKey_cases {trigger : Text} {key : RuleKey} (h : ruleKey trigger = some key) :
    (∃ kind ip net, addressTrigger trigger = some (kind, ip) ∧ parseIpTrigger ip = some net ∧ key = netKey kind net) ∨
      ∃ kind name, nameTrigger trigger = some (kind, name) ∧ key = .name kind name := by
  unfold ruleKey at h
  split at h
  next kind ip haddress =>
    obtain ⟨net, hnet, hkey⟩ := Option.map_eq_some_iff.mp h
    exact .inl ⟨kind, ip, net, haddress, hnet, hkey.symm⟩
  next =>
    obtain ⟨found, hfound, hkey⟩ := Option.map_eq_some_iff.mp h
    exact .inr ⟨found.1, found.2, hfound, hkey.symm⟩

theorem agree_iff_spellings (zone : Text) (records : List (Text × LocalRecord)) :
    (ruleWrites (toAsciiLowercase (trimEndMatches '.' zone))).Agree (groupRecords zone records) ↔
      SpellingsAgree zone records := by
  constructor
  · intro h first hfirst second hsecond kind ip other net hip hother hnet hnet'
    exact h first hfirst second hsecond (netKey kind net) (ruleKey_address hip hnet) (ruleKey_address hother hnet')
  · intro h first hfirst second hsecond key hkey hkey'
    change ruleKey first.1 = some key at hkey
    change ruleKey second.1 = some key at hkey'
    obtain ⟨kind, ip, net, hip, hnet, rfl⟩ | ⟨kind, name, hname, rfl⟩ := ruleKey_cases hkey
    · obtain ⟨kind', other, net', hother, hnet', hsame⟩ | ⟨kind', name, -, hsame⟩ := ruleKey_cases hkey'
      · obtain ⟨rfl, rfl⟩ := netKey_injective (noHostBits_of_read hnet) (noHostBits_of_read hnet') hsame
        exact h first hfirst second hsecond kind ip other net hip hother hnet hnet'
      · cases net <;> simp [netKey] at hsame
    · obtain ⟨kind', other, net', -, -, hsame⟩ | ⟨kind', name', hname', hsame⟩ := ruleKey_cases hkey'
      · cases net' <;> simp [netKey] at hsame
      · cases hsame
        have htrigger : first.1 = second.1 := (spell_of_nameTrigger hname).trans (spell_of_nameTrigger hname').symm
        rw [List.inj_on_of_nodup_map (nodup_groupRecords zone records) hfirst hsecond htrigger]

/-- A visit of one list in another order. -/
def orderTo {α : Type} [DecidableEq α] {items order : List α} (h : order.Perm items) : Shuffle α where
  shuffle := fun visited => if visited = items then order else visited
  perm := by
    intro visited
    by_cases hvisited : visited = items
    · rw [if_pos hvisited, hvisited]
      exact h
    · rw [if_neg hvisited]

theorem orderTo_shuffle {α : Type} [DecidableEq α] {items order : List α} (h : order.Perm items) :
    (orderTo h).shuffle items = order := if_pos rfl

/-- The order of the hash map shows in the tables exactly when two triggers spell one network
and give different actions. -/
theorem tables_same_iff (zone : Text) (records : List (Text × LocalRecord)) :
    (∀ first second key, (CompiledZone.fromRecords first zone records).get key =
        (CompiledZone.fromRecords second zone records).get key) ↔
      SpellingsAgree zone records := by
  rw [← agree_iff_spellings, ← Writes.same_iff_agree _ _ CompiledZone.empty]
  constructor
  · intro h first second hfirst hsecond key
    have hsame := h (orderTo hfirst) (orderTo hsecond) key
    rw [CompiledZone.fromRecords, CompiledZone.fromRecords, orderTo_shuffle, orderTo_shuffle] at hsame
    exact hsame
  · intro h first second key
    exact h _ _ (first.perm _) (second.perm _) key

/-- 2001:db8::/64 is denied under one spelling and exempted under another. -/
def twiceSpelled : List (Text × LocalRecord) :=
  [("64.zz.db8.2001.rpz-ip".toList, ⟨"CNAME", 300, "."⟩),
    ("64.0.zz.db8.2001.rpz-ip".toList, ⟨"CNAME", 300, "rpz-passthru."⟩)]

theorem tables_same_fails :
    (CompiledZone.fromRecords .plain "rpz.local" twiceSpelled).get (.v6 .response 64 0x20010db8000000000000000000000000) =
        some .passthru ∧
      (CompiledZone.fromRecords ⟨List.reverse, List.reverse_perm⟩ "rpz.local" twiceSpelled).get
        (.v6 .response 64 0x20010db8000000000000000000000000) = some .nxDomain ∧
      ¬∀ zone records first second key, (CompiledZone.fromRecords first zone records).get key =
        (CompiledZone.fromRecords second zone records).get key := by
  have hplain : (CompiledZone.fromRecords .plain "rpz.local" twiceSpelled).get
      (.v6 .response 64 0x20010db8000000000000000000000000) = some .passthru := by decide
  have hreverse : (CompiledZone.fromRecords ⟨List.reverse, List.reverse_perm⟩ "rpz.local" twiceSpelled).get
      (.v6 .response 64 0x20010db8000000000000000000000000) = some .nxDomain := by decide
  refine ⟨hplain, hreverse, fun h => ?_⟩
  rw [h "rpz.local" twiceSpelled .plain ⟨List.reverse, List.reverse_perm⟩, hreverse] at hplain
  cases hplain

end DaygleDns.Authoritative
