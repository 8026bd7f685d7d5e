import DaygleDns.Policy.Groups

/-! Response policy zones as sources of domain lists: the names that are read off their
triggers. -/
namespace DaygleDns.Policy

open Text

/-- `split_whitespace` -/
def words (line : Text) : List Text := (line.splitOnP isWhitespace).filter (!·.isEmpty)

/-! The records of a zone file. -/

structure ZoneReading where
  records : List (Text × List Text)
  owner : Text
  /-- A record whose parentheses are still open: whether it began with a blank, and its fields. -/
  pending : Option (Bool × List Text)
  depth : Int

/-- A directive comes back under its own name, a record without an owner under the one before. -/
def ZoneReading.record (reading : ZoneReading) (blank : Bool) (fields : List Text) : ZoneReading :=
  let closed := { reading with pending := none, depth := 0 }
  match blank, fields with
  | false, first :: rest =>
      if first.head? = some '$' then { closed with records := reading.records ++ [(toAsciiUppercase first, rest)] }
      else { closed with records := reading.records ++ [(first, rest)], owner := first }
  | _, fields => { closed with records := reading.records ++ [(reading.owner, fields)] }

def readLine (reading : ZoneReading) (raw : Text) : ZoneReading :=
  let line := raw.takeWhile (· != ';')
  let startsBlank := line.head? == some ' ' || line.head? == some '\t'
  let tokens := words (line.map fun c => if c == '(' || c == ')' then ' ' else c)
  let depth := reading.depth + (line.count '(' - line.count ')' : Int)
  let go (blank : Bool) (fields : List Text) : ZoneReading :=
    if 0 < depth then { reading with pending := some (blank, fields), depth := depth }
    else reading.record blank fields
  match reading.pending with
  | some (blank, fields) => go blank (fields ++ tokens)
  | none => if tokens.isEmpty then { reading with depth := depth } else go startsBlank tokens

/-- The records as owners with their fields. -/
def zoneRecords (text : Text) : List (Text × List Text) :=
  ((lines text).foldl readLine ⟨[], [], none, 0⟩).records

/-! The triggers. -/

/-- A record at a trigger, by its name relative to the zone. -/
structure RpzRecord where
  name : Text
  rtype : Text
  target : Option Text
deriving DecidableEq, Repr

def specialTriggers : List Text :=
  ["rpz-ip".toList, "rpz-nsdname".toList, "rpz-nsip".toList, "rpz-client-ip".toList, "rpz-ip6".toList]

/-- The TTL and the class, which may come in either order. -/
def ttlOrClass (field : Text) : Bool :=
  (field.head?.map Char.isDigit).getD false ||
    ["IN".toList, "CH".toList, "HS".toList, "CS".toList].contains (toAsciiUppercase field)

/-- The origin that `$ORIGIN` sets. -/
def nextOrigin (origin : Option Text) (given : Text) : Text :=
  let given := toAsciiLowercase given
  if endsWith ['.'] given then given
  else match origin with
    | some current => given ++ '.' :: current
    | none => given ++ ['.']

/-- The owner relative to the origin of the zone. -/
def relativeOwner (origin : Option Text) (owner : Text) : Option Text :=
  match stripSuffix ['.'] owner with
  | none => some owner
  | some absolute =>
      match origin with
      | none => none
      | some origin =>
          if absolute = trimEndMatches '.' origin then none
          else stripSuffix ('.' :: trimEndMatches '.' origin) absolute

/-- One record: the origin after it, and what it says of a trigger. -/
def readTrigger (origin : Option Text) (owner : Text) (fields : List Text) : Option Text × Option RpzRecord :=
  if owner = "$ORIGIN".toList then
    match fields.head? with
    | some given => (some (nextOrigin origin given), none)
    | none => (origin, none)
  else if owner.head? = some '$' then (origin, none)
  else match fields.dropWhile ttlOrClass with
    | [] => (origin, none)
    | rtype :: rest =>
        let rtype := toAsciiUppercase rtype
        let owner := toAsciiLowercase owner
        if rtype = "SOA".toList then
          -- A zone without `$ORIGIN` is named by its SOA.
          (if origin.isNone && endsWith ['.'] owner then some owner else origin, none)
        else if rtype = "NS".toList ∨ owner = "@".toList then (origin, none)
        else (origin, (relativeOwner origin owner).map fun name => ⟨name, rtype, rest.head?.map toAsciiLowercase⟩)

def rpzRecords (text : Text) : List RpzRecord :=
  ((zoneRecords text).foldl
    (fun read record =>
      let (origin, trigger) := readTrigger read.1 record.1 record.2
      (origin, read.2 ++ trigger.toList))
    ((none : Option Text), [])).2

/-! Which of them are listed. -/

/-- Triggers that are no names to block: of one label, or of addresses and name servers. -/
def skipsTrigger (name : Text) : Bool :=
  name == "*".toList || (!name.elem '.' && !wildcardPrefix.isPrefixOf name) ||
    ((name.splitOn '.').getLast?.map specialTriggers.contains).getD false

def RpzRecord.isPassthru (record : RpzRecord) : Bool :=
  record.rtype == "CNAME".toList && record.target == some "rpz-passthru.".toList

def RpzRecord.isTcpOnly (record : RpzRecord) : Bool :=
  record.rtype == "CNAME".toList && record.target == some "rpz-tcp-only.".toList

/-- The names that are blocked and those that are exempt. -/
def listRecord (listed : TextSet × TextSet) (record : RpzRecord) : TextSet × TextSet :=
  if skipsTrigger record.name then listed
  else if record.isPassthru then (listed.1, listed.2.put record.name)
  else if record.isTcpOnly then listed
  else (listed.1.put record.name, listed.2)

def parseRpz (libs : Libraries) (text : Text) : TextSet :=
  let (blocked, passthru) := (rpzRecords text).foldl listRecord (TextSet.empty, TextSet.empty)
  normalizeDomains libs (blocked.rows.filter fun name => !passthru.contains name)

end DaygleDns.Policy
