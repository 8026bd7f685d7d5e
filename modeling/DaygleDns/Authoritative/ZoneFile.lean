import DaygleDns.Authoritative.Store

/-! Zone files: the text an export writes and the reader of the import. -/
namespace DaygleDns.Authoritative

open Text

/-- The minimum of the SOA, though at least five minutes. -/
def exportTtl (zone : Zone) : UInt32 := max zone.minimum 300

def renderSoa (zone : Zone) : Text :=
  zone.name ++ ". " ++ ofNat (exportTtl zone).toNat ++ " IN SOA " ++ zone.primaryNs ++ " " ++
    zone.adminMailbox ++ " (\n\t" ++ ofNat zone.serial.toNat ++ "\t; serial\n\t" ++
    ofNat zone.refresh.toNat ++ "\t; refresh\n\t" ++ ofNat zone.retry.toNat ++ "\t; retry\n\t" ++
    ofNat zone.expire.toNat ++ "\t; expire\n\t" ++ ofNat zone.minimum.toNat ++ "\t; minimum\n)\n"

def renderHeader (zone : Zone) : Text :=
  "; zone file exported by daygle-dns for " ++ zone.name ++ "\n$ORIGIN " ++ zone.name ++
    ".\n$TTL " ++ ofNat (exportTtl zone).toNat ++ "\n"

def renderLine (record : Record) : Text :=
  trimEndMatches '.' record.name ++ ". " ++ ofNat record.ttl.toNat ++ " IN " ++ record.rtype ++
    " " ++ record.content ++ "\n"

/-- A disabled record is written as a comment. -/
def renderRecord (record : Record) : Text :=
  if record.disabled then "; disabled: " ++ trimEnd (renderLine record) ++ "\n"
  else renderLine record

def renderZoneFile (zone : Zone) (records : List Record) : Text :=
  renderHeader zone ++ renderSoa zone ++ records.flatMap renderRecord

/-- A line up to its comment, which a semicolon starts outside of quotes. -/
def stripComment : Bool → Text → Text
  | _, [] => []
  | inQuotes, c :: rest =>
      if c = '"' then c :: stripComment (!inQuotes) rest
      else if c = ';' ∧ inQuotes = false then []
      else c :: stripComment inQuotes rest

/-- One character of a line, after the text of the lines it is joined with and
the depth of their parentheses. -/
def joinChar (joined : Text × Nat) (c : Char) : Text × Nat :=
  if c = '(' then (joined.1 ++ [' '], joined.2 + 1)
  else if c = ')' then (joined.1 ++ [' '], joined.2 - 1)
  else (joined.1 ++ [c], joined.2)

/-- A joined line without its trailing whitespace, where anything is left. -/
def completed (current : Text) : List Text :=
  if (trimEnd current).isEmpty then [] else [trimEnd current]

/-- Lines are joined until their parentheses are closed. -/
def joinLines : Text → Nat → List Text → List Text
  | current, _, [] => completed current
  | current, depth, raw :: rest =>
      let (current, depth) := (stripComment false raw).foldl joinChar (current, depth)
      if depth = 0 then completed current ++ joinLines [] 0 rest
      else joinLines current depth rest

def logicalLines (text : Text) : List Text := joinLines [] 0 (lines text)

structure ZoneFileState where
  origin : Text
  defaultTtl : UInt32
  lastOwner : Text
deriving DecidableEq

def resolveOwner (owner origin : Text) : Except DaygleError Text :=
  if owner = ['@'] then
    if origin.isEmpty then .error (.invalidRecord "@ used before $ORIGIN was set")
    else .ok origin
  else if '.' ∈ owner then
    if owner.getLast? = some '.' then .ok (toAsciiLowercase (trimEndMatches '.' owner))
    else if !origin.isEmpty && !endsWith ('.' :: origin) owner then .ok (owner ++ '.' :: origin)
    else .ok (toAsciiLowercase owner)
  else if origin.isEmpty then .ok (toAsciiLowercase owner)
  else .ok (owner ++ '.' :: origin)

/-- A line that starts with whitespace is about the owner of the line before. -/
def splitOwner (line origin lastOwner : Text) : Except DaygleError (Text × Text) :=
  if line.head?.any isWhitespace then
    if lastOwner.isEmpty then
      .error (.invalidRecord "continuation line without a previous owner")
    else .ok (lastOwner, trimStart line)
  else match splitOnceWhitespace line with
    | none => .error (.invalidRecord ("cannot parse '" ++ line ++ "'"))
    | some (owner, rest) =>
        (resolveOwner (trim owner) origin).map fun owner => (owner, trimStart rest)

def splitFirst (s : Text) : Option Text × Text :=
  let s := trimStart s
  match splitOnceWhitespace s with
  | some (first, rest) => (some first, trimStart rest)
  | none => if s.isEmpty then (none, []) else (some s, [])

/-- An optional TTL. -/
def takeTtl (defaultTtl : UInt32) (rest : Text) : UInt32 × Text :=
  match splitFirst rest with
  | (some first, remainder) =>
      if first.all Char.isDigit then ((parseU32 first).getD defaultTtl, remainder)
      else (defaultTtl, rest)
  | (none, _) => (defaultTtl, rest)

def classNames : List Text := ["IN", "CH", "HS", "CLASS1", "CLASS3", "CLASS4"]

/-- An optional class, which is skipped. -/
def takeClass (rest : Text) : Text :=
  match splitFirst rest with
  | (some first, remainder) =>
      if toAsciiUppercase first ∈ classNames then remainder else rest
  | (none, _) => rest

/-- What stands behind the owner of a record. -/
def parseEntry (state : ZoneFileState) (line owner rest : Text) : Except DaygleError RecordInput :=
  let (ttl, rest) := takeTtl state.defaultTtl rest
  match splitOnceWhitespace (takeClass rest) with
  | none => .error (.invalidRecord ("missing rdata in '" ++ line ++ "'"))
  | some (rtype, rdata) => .ok
      { name := owner
        rtype := toAsciiUppercase (trim rtype)
        content := trim rdata
        ttl := ttl }

def parseRecord (state : ZoneFileState) (line : Text) :
    Except DaygleError (ZoneFileState × Option RecordInput) := do
  let (owner, rest) ← splitOwner line state.origin state.lastOwner
  let entry ← parseEntry state line owner rest
  pure ({ state with lastOwner := owner }, some entry)

/-- One logical line: blank, a directive or a record. -/
def parseLine (state : ZoneFileState) (raw : Text) :
    Except DaygleError (ZoneFileState × Option RecordInput) :=
  let line := trimEnd raw
  if (trim line).isEmpty || (trimStart line).head? == some ';' then .ok (state, none)
  else
    let upper := toAsciiUppercase (trimStart line)
    match stripPrefix "$ORIGIN" upper, stripPrefix "$TTL" upper, stripPrefix "$INCLUDE" upper with
    | some rest, _, _ =>
        .ok ({ state with origin := toAsciiLowercase (trimEndMatches '.' (trim rest)) }, none)
    | none, some rest, _ =>
        match parseU32 (trim rest) with
        | some ttl => .ok ({ state with defaultTtl := ttl }, none)
        | none => .error (.invalidRecord ("bad $TTL in '" ++ line ++ "'"))
    | none, none, some rest =>
        .error (.invalidRecord ("$INCLUDE is not supported: '" ++ rest ++ "'"))
    | none, none, none => parseRecord state line

def parseLines : ZoneFileState → List Text → Except DaygleError (List RecordInput)
  | _, [] => .ok []
  | state, raw :: rest => do
      let (state, entry) ← parseLine state raw
      let entries ← parseLines state rest
      pure (entry.toList ++ entries)

def parseZoneFile (text : Text) : Except DaygleError (List RecordInput) :=
  parseLines ⟨[], 3600, []⟩ (logicalLines text)

end DaygleDns.Authoritative
