import DaygleDns.Reading
import DaygleDns.Recursive.CacheAssist
import DaygleDns.TextFacts
import DaygleDns.Recursive.Restarts

/-! The snapshot file of the resolver's cache: a magic header, the number of
entries, and the entries one after the other. -/
namespace DaygleDns.Recursive

open Framing Reading Text

variable {N D : Type}

/-- Marks the file and its layout version. -/
def SNAPSHOT_MAGIC : Bytes := ("DAYGLE-CACHE-1\n" : Text).map fun c => UInt8.ofNat c.toNat

namespace HickoryWire

variable (wire : HickoryWire N D)

def encodeName (name : Text) : Bytes :=
  match wire.fromUtf8 name with
  | .error _ => []
  | .ok name =>
      match wire.emitName name with
      | some body => frame body
      | none => be16 0

def encodeRecord (record : Record D) : Bytes :=
  match wire.emitRecord record with
  | some body => frame body
  | none => be16 0

def encodeEntry (entry : PersistedEntry N D) : Bytes :=
  toBeBytes 2 entry.key.scope.toNat ++ toBeBytes 2 entry.key.rtype.toNat ++
    toBeBytes 8 entry.validThroughSecs ++ toBeBytes 8 entry.failureThroughSecs ++
    [if entry.failureCode.isSome then 1 else 0] ++
    entry.failureCode.toList.flatMap (fun code => toBeBytes 2 code.toNat) ++
    wire.encodeName (wire.toText entry.query.name) ++
    [if entry.failureSoa.isSome then 1 else 0] ++
    entry.failureSoa.toList.flatMap wire.encodeRecord ++
    toBeBytes 2 entry.answers.length ++ entry.answers.flatMap wire.encodeRecord

/-- The bytes of the file. -/
def writeSnapshot (entries : List (PersistedEntry N D)) : Bytes :=
  SNAPSHOT_MAGIC ++ toBeBytes 4 entries.length ++ entries.flatMap wire.encodeEntry

def readU16 : Reader UInt16 := UInt16.ofNat <$> be ("truncated u16: " ++ wire.shortRead) 2

def readU64 : Reader Nat := be ("truncated u64: " ++ wire.shortRead) 8

def readFlag : Reader Bool := (fun flag => flag != 0) <$> be ("truncated flag: " ++ wire.shortRead) 1

/-- A value behind the length of its bytes; `what` it is, the errors tell. -/
def readFramed {α : Type} (what : Text) (parse : Bytes → Except Text α) : Reader α := do
  let wireLen ← wire.readU16
  if wireLen = 0 then fail ("empty " ++ what)
  let body ← slice ("truncated " ++ what ++ ": " ++ wire.shortRead) wireLen.toNat
  match parse body with
  | .ok a => return a
  | .error e => fail ("bad " ++ what ++ ": " ++ e)

def readOwner : Reader N := wire.readFramed "name" wire.readName

def readRecords (count : Nat) : Reader (List (Record D)) := readMany (wire.readFramed "record" wire.readRecord) count

/-- A value behind a flag that tells whether there is one. -/
def readOption {α : Type} (value : Reader α) : Reader (Option α) := do
  if ← wire.readFlag then some <$> value else pure none

def readSoa : Reader (Record D) := do
  match (← wire.readRecords 1).getLast? with
  | some soa => return soa
  | none => fail "missing failure SOA"

def decodeEntry : Reader (PersistedEntry N D) := do
  let scope ← wire.readU16
  let rtype ← wire.readU16
  let validThroughSecs ← wire.readU64
  let failureThroughSecs ← wire.readU64
  let failureCode ← wire.readOption wire.readU16
  let name ← wire.readOwner
  let failureSoa ← wire.readOption wire.readSoa
  let count ← wire.readU16
  let answers ← wire.readRecords count.toNat
  return {
    key := ⟨toAsciiLowercase (wire.toText name), rtype, scope⟩
    query := ⟨name, rtype⟩
    answers
    validThroughSecs
    failureThroughSecs
    failureCode
    failureSoa }

end HickoryWire

/-- What `std::fs::read` makes of the path. -/
inductive FileRead where
  | found (bytes : Bytes)
  | notFound
  | failed (e : Text)

def HickoryWire.readSnapshot (wire : HickoryWire N D) : FileRead → Except Text (List (PersistedEntry N D))
  | .notFound => .ok []
  | .failed e => .error ("cannot read: " ++ e)
  | .found bytes =>
      let header := SNAPSHOT_MAGIC.length + 4
      if bytes.length < header ∨ bytes.take SNAPSHOT_MAGIC.length ≠ SNAPSHOT_MAGIC then
        .error "not a forward-cache snapshot file"
      else
        let count := ofBeBytes ((bytes.take header).drop SNAPSHOT_MAGIC.length)
        Prod.fst <$> (do
          let _ ← slice ("bad header: " ++ wire.shortRead) header
          readMany wire.decodeEntry count) bytes

/-! What is read of the snapshot file that was written. -/

/-- The entry that is read for one that was written: its name is qualified, and
its key is made from that name. -/
def HickoryWire.reloaded (wire : HickoryWire N D) (entry : PersistedEntry N D) : PersistedEntry N D :=
  { entry with
    key := ⟨toAsciiLowercase (wire.toText (wire.qualify entry.query.name)), entry.key.rtype, entry.key.scope⟩
    query := ⟨wire.qualify entry.query.name, entry.key.rtype⟩ }

def HickoryWire.reload (wire : HickoryWire N D) : Reload N D := ⟨wire.reloaded, fun _ => rfl⟩

/-- An entry of a cache whose keys are made of the names that were looked up: the
answers are those of that name, spelled with a trailing dot or without. -/
structure Exportable (wire : HickoryWire N D) (entry : PersistedEntry N D) : Prop where
  key : ∃ name scope, entry.key = (cacheKey wire.toHickoryNames name entry.key.rtype).scopedTo scope ∧
    toAsciiLowercase (wire.toText (wire.qualify entry.query.name)) =
      toAsciiLowercase (wire.toText (wire.qualify name))
  rtype : entry.query.rtype = entry.key.rtype
  validThroughSecs : entry.validThroughSecs < 2 ^ 64
  failureThroughSecs : entry.failureThroughSecs < 2 ^ 64

/-- The file gives the entries back, and no strict prefix of it is accepted. -/
def RoundTrips (wire : HickoryWire N D) (entries : List (PersistedEntry N D)) : Prop :=
  wire.readSnapshot (.found (wire.writeSnapshot entries)) = .ok entries ∧
    ∀ part, part <+: wire.writeSnapshot entries → part ≠ wire.writeSnapshot entries →
      ∃ e, wire.readSnapshot (.found part) = .error e

variable {wire : HickoryWire N D}

theorem reads_u16 (n : UInt16) : Reads wire.readU16 (toBeBytes 2 n.toNat) n := by
  have hread : Reads wire.readU16 (toBeBytes 2 n.toNat) (UInt16.ofNat n.toNat) :=
    reads_map UInt16.ofNat (reads_be _ (UInt16.toNat_lt n))
  rwa [UInt16.ofNat_toNat] at hread

theorem reads_u64 {n : Nat} (h : n < 2 ^ 64) : Reads wire.readU64 (toBeBytes 8 n) n :=
  reads_be _ h

theorem reads_flag (flag : Bool) : Reads wire.readFlag [if flag then 1 else 0] flag := by
  cases flag
  · exact reads_map (fun flag => flag != 0) (@reads_be _ 1 0 (by decide))
  · exact reads_map (fun flag => flag != 0) (@reads_be _ 1 1 (by decide))

theorem reads_framed {α : Type} {what : Text} {parse : Bytes → Except Text α} {body : Bytes} {a : α}
    (hne : body ≠ []) (hlength : body.length < 2 ^ 16) (hparse : parse body = .ok a) :
    Reads (wire.readFramed what parse) (frame body) a := by
  have hpositive : 0 < body.length := List.length_pos_iff.mpr hne
  have hnat : (UInt16.ofNat body.length).toNat = body.length := by
    rw [UInt16.toNat_ofNat']
    omega
  have hread := @reads_u16 N D wire (UInt16.ofNat body.length)
  rw [hnat] at hread
  apply reads_bind hread
  have hzero : UInt16.ofNat body.length ≠ 0 := by
    intro h
    have hsame := congrArg UInt16.toNat h
    rw [hnat] at hsame
    exact absurd hsame (by simp; omega)
  rw [if_neg hzero, hnat]
  apply reads_bind_last (reads_slice _ body)
  rw [hparse]
  exact reads_pure a

theorem reads_option {α β : Type} {value : Reader α} {encode : β → Bytes} (decoded : β → α) (item : Option β)
    (h : ∀ b, item = some b → Reads value (encode b) (decoded b)) :
    Reads (wire.readOption value) ([if item.isSome then 1 else 0] ++ item.toList.flatMap encode)
      (item.map decoded) := by
  apply reads_bind (reads_flag item.isSome)
  cases item with
  | none => exact reads_pure none
  | some b =>
    have hvalue := reads_map some (h b rfl)
    simpa using hvalue

theorem reads_owner (h : wire.Lawful) (name : N) :
    Reads wire.readOwner (wire.encodeName (wire.toText name)) (wire.qualify name) := by
  obtain ⟨body, hemit, hne, hlength, hparse⟩ := h.name name
  simp only [HickoryWire.encodeName, h.fromUtf8_toText, hemit]
  exact reads_framed hne hlength hparse

theorem reads_record (h : wire.Lawful) (record : Record D) :
    Reads (wire.readFramed "record" wire.readRecord) (wire.encodeRecord record) record := by
  obtain ⟨body, hemit, hne, hlength, hparse⟩ := h.record record
  simp only [HickoryWire.encodeRecord, hemit]
  exact reads_framed hne hlength hparse

theorem reads_records (h : wire.Lawful) (records : List (Record D)) :
    Reads (wire.readRecords records.length) (records.flatMap wire.encodeRecord) records := by
  have hmany := @reads_many _ _ (wire.readFramed "record" wire.readRecord) wire.encodeRecord id records
    fun record _ => reads_record h record
  rwa [List.map_id] at hmany

theorem reads_soa (h : wire.Lawful) (soa : Record D) : Reads wire.readSoa (wire.encodeRecord soa) soa := by
  have hone := reads_records h [soa]
  have hsoa : Reads wire.readSoa ([soa].flatMap wire.encodeRecord ++ []) soa := reads_bind hone (reads_pure soa)
  simpa using hsoa

theorem reads_entry (h : wire.Lawful) {entry : PersistedEntry N D} (hvalid : entry.validThroughSecs < 2 ^ 64)
    (hfailure : entry.failureThroughSecs < 2 ^ 64) (hanswers : entry.answers.length < 2 ^ 16) :
    Reads wire.decodeEntry (wire.encodeEntry entry) (wire.reloaded entry) := by
  have hcode := @reads_option N D wire _ _ wire.readU16 (fun code : UInt16 => toBeBytes 2 code.toNat) id
    entry.failureCode fun code _ => reads_u16 code
  have hsoa := @reads_option N D wire _ _ wire.readSoa wire.encodeRecord id entry.failureSoa
    fun soa _ => reads_soa h soa
  have hcount := @reads_u16 N D wire (UInt16.ofNat entry.answers.length)
  have hnat : (UInt16.ofNat entry.answers.length).toNat = entry.answers.length := by
    rw [UInt16.toNat_ofNat']
    omega
  rw [hnat] at hcount
  rw [Option.map_id] at hcode hsoa
  rw [← List.append_nil (wire.encodeEntry entry), HickoryWire.encodeEntry]
  simp only [List.append_assoc]
  apply reads_bind (reads_u16 entry.key.scope)
  apply reads_bind (reads_u16 entry.key.rtype)
  apply reads_bind (reads_u64 hvalid)
  apply reads_bind (reads_u64 hfailure)
  rw [← List.append_assoc]
  apply reads_bind hcode
  apply reads_bind (reads_owner h entry.query.name)
  rw [← List.append_assoc]
  apply reads_bind hsoa
  apply reads_bind hcount
  rw [hnat]
  apply reads_bind (reads_records h entry.answers)
  exact reads_pure _

/-- Behind the header, so many entries are read. -/
theorem readSnapshot_body (n : Nat) (body : Bytes) :
    wire.readSnapshot (.found (SNAPSHOT_MAGIC ++ toBeBytes 4 n ++ body)) =
      Prod.fst <$> readMany wire.decodeEntry (n % 2 ^ 32) body := by
  have hheader : (SNAPSHOT_MAGIC ++ toBeBytes 4 n).length = SNAPSHOT_MAGIC.length + 4 := by
    rw [List.length_append, length_toBeBytes]
  have hlong : ¬ ((SNAPSHOT_MAGIC ++ toBeBytes 4 n ++ body).length < SNAPSHOT_MAGIC.length + 4 ∨
      (SNAPSHOT_MAGIC ++ toBeBytes 4 n ++ body).take SNAPSHOT_MAGIC.length ≠ SNAPSHOT_MAGIC) := by
    rw [List.append_assoc, List.take_left, List.length_append, List.length_append, length_toBeBytes]
    simp
  have hcount : ((SNAPSHOT_MAGIC ++ toBeBytes 4 n ++ body).take (SNAPSHOT_MAGIC.length + 4)).drop
      SNAPSHOT_MAGIC.length = toBeBytes 4 n := by
    rw [← hheader, List.take_left, List.drop_left]
  unfold HickoryWire.readSnapshot
  simp only
  rw [if_neg hlong, hcount, ofBeBytes_toBeBytes]
  have hslice := (reads_slice ("bad header: " ++ wire.shortRead) (SNAPSHOT_MAGIC ++ toBeBytes 4 n)).whole body
  rw [hheader] at hslice
  simp only [bind, StateT.bind, hslice, Except.bind]
  norm_num

/-- A file that is shorter than the header is rejected. -/
theorem readSnapshot_short {bytes : Bytes} (h : bytes.length < SNAPSHOT_MAGIC.length + 4) :
    wire.readSnapshot (.found bytes) = .error "not a forward-cache snapshot file" :=
  if_pos (.inl h)

/-- The counts of the file are those of the entries. -/
structure InRange (entries : List (PersistedEntry N D)) : Prop where
  count : entries.length < 2 ^ 32
  answers : ∀ entry ∈ entries, entry.answers.length < 2 ^ 16

theorem reads_entries (h : wire.Lawful) {entries : List (PersistedEntry N D)}
    (hentries : ∀ entry ∈ entries, Exportable wire entry) (hrange : InRange entries) :
    Reads (readMany wire.decodeEntry entries.length) (entries.flatMap wire.encodeEntry)
      (entries.map wire.reloaded) := by
  apply reads_many
  intro entry hentry
  have hexport := hentries entry hentry
  exact reads_entry h hexport.validThroughSecs hexport.failureThroughSecs (hrange.answers entry hentry)

theorem readSnapshot_written (h : wire.Lawful) {entries : List (PersistedEntry N D)}
    (hentries : ∀ entry ∈ entries, Exportable wire entry) (hrange : InRange entries) :
    wire.readSnapshot (.found (wire.writeSnapshot entries)) = .ok (entries.map wire.reloaded) := by
  have hread := (reads_entries h hentries hrange).whole []
  rw [List.append_nil] at hread
  rw [HickoryWire.writeSnapshot, readSnapshot_body, Nat.mod_eq_of_lt hrange.count, hread]
  rfl

/-- A snapshot file that is cut short is rejected. -/
theorem readSnapshot_cut (h : wire.Lawful) {entries : List (PersistedEntry N D)}
    (hentries : ∀ entry ∈ entries, Exportable wire entry) (hrange : InRange entries) {part : Bytes}
    (hlead : part <+: wire.writeSnapshot entries) (hne : part ≠ wire.writeSnapshot entries) :
    ∃ e, wire.readSnapshot (.found part) = .error e := by
  rcases Nat.lt_or_ge part.length (SNAPSHOT_MAGIC.length + 4) with hshort | hlong
  · exact ⟨_, readSnapshot_short hshort⟩
  · have hheader : SNAPSHOT_MAGIC ++ toBeBytes 4 entries.length <+: part := by
      apply List.prefix_of_prefix_length_le (List.prefix_append _ (entries.flatMap wire.encodeEntry)) hlead
      rwa [List.length_append, length_toBeBytes]
    obtain ⟨body, rfl⟩ := hheader
    have hbody : body <+: entries.flatMap wire.encodeEntry := (List.prefix_append_right_inj _).mp hlead
    obtain ⟨e, herror⟩ := (reads_entries h hentries hrange).cut body hbody fun hsame => hne (by rw [hsame]; rfl)
    rw [readSnapshot_body, Nat.mod_eq_of_lt hrange.count, herror]
    exact ⟨e, rfl⟩

/-- No entry is read with more answers than its count can tell. -/
theorem yields_decodeEntry : Yields wire.decodeEntry fun entry => entry.answers.length < 2 ^ 16 := by
  unfold HickoryWire.decodeEntry
  iterate 7
    apply yields_bind (yields_any _)
    intro _ _
  apply yields_bind (yields_any _)
  intro count _
  apply yields_bind (yields_many (yields_any _) count.toNat)
  intro answers hanswers
  apply yields_pure
  exact hanswers.1 ▸ UInt16.toNat_lt count

/-- What is read of a file has the counts of one. -/
theorem inRange_read {n : Nat} {body : Bytes} {entries : List (PersistedEntry N D)}
    (h : wire.readSnapshot (.found (SNAPSHOT_MAGIC ++ toBeBytes 4 n ++ body)) = .ok entries) : InRange entries := by
  rw [readSnapshot_body] at h
  cases hread : readMany wire.decodeEntry (n % 2 ^ 32) body with
  | error e =>
    rw [hread] at h
    cases h
  | ok result =>
    rw [hread] at h
    cases h
    have hmany := (yields_many yields_decodeEntry (n % 2 ^ 32)).value body result.1 result.2 hread
    exact ⟨by rw [hmany.1]; exact Nat.mod_lt _ (by decide), hmany.2⟩

theorem fullyQualified_lowercase (s : Text) : FullyQualified (toAsciiLowercase s) ↔ FullyQualified s := by
  unfold FullyQualified toAsciiLowercase
  rw [List.getLast?_map, Option.map_eq_some_iff]
  constructor
  · rintro ⟨c, hlast, hc⟩
    rw [hlast, toLower_eq_dot.mp hc]
  · exact fun hlast => ⟨'.', hlast, rfl⟩

theorem fullyQualified_qualify (h : wire.Lawful) (name : N) : FullyQualified (wire.toText (wire.qualify name)) := by
  rw [h.toText_qualify]
  split
  next hdot => exact hdot
  next => exact List.getLast?_concat

theorem qualify_eq_self (h : wire.Lawful) {name : N} (hdot : FullyQualified (wire.toText name)) :
    wire.qualify name = name := by
  have htext := h.toText_qualify name
  rw [if_pos hdot] at htext
  have hparsed := h.fromUtf8_toText (wire.qualify name)
  rw [htext, h.fromUtf8_toText] at hparsed
  exact (Except.ok.inj hparsed).symm

/-- An entry is read as it was written exactly if its names are fully qualified. -/
theorem reloaded_eq_self (h : wire.Lawful) {entry : PersistedEntry N D} (hexport : Exportable wire entry) :
    wire.reloaded entry = entry ↔ FullyQualified entry.key.name ∧ FullyQualified (wire.toText entry.query.name) := by
  constructor
  · intro hsame
    have hkey := congrArg (fun e : PersistedEntry N D => e.key.name) hsame
    have hname := congrArg (fun e : PersistedEntry N D => e.query.name) hsame
    simp only [HickoryWire.reloaded] at hkey hname
    rw [← hkey, fullyQualified_lowercase, ← hname, hname]
    exact ⟨fullyQualified_qualify h _, hname ▸ fullyQualified_qualify h _⟩
  · rintro ⟨hkey, hquery⟩
    obtain ⟨name, scope, hmade, hspelled⟩ := hexport.key
    have hkeyName : entry.key.name = toAsciiLowercase (wire.toText name) := by rw [hmade]; rfl
    rw [hkeyName, fullyQualified_lowercase] at hkey
    rw [qualify_eq_self h hquery, qualify_eq_self h hkey, ← hkeyName] at hspelled
    have hsame : (⟨entry.query.name, entry.key.rtype⟩ : Query N) = entry.query := by
      rw [← hexport.rtype]
    unfold HickoryWire.reloaded
    rw [qualify_eq_self h hquery, hspelled, hsame]

/-- A snapshot gives its entries back exactly if there are not too many of them and
their names are fully qualified. -/
theorem snapshot_round_trips (wire : HickoryWire N D) (h : wire.Lawful) (entries : List (PersistedEntry N D))
    (hentries : ∀ entry ∈ entries, Exportable wire entry) :
    RoundTrips wire entries ↔ InRange entries ∧
      ∀ entry ∈ entries, FullyQualified entry.key.name ∧ FullyQualified (wire.toText entry.query.name) := by
  have hsame : entries.map wire.reloaded = entries ↔
      ∀ entry ∈ entries, FullyQualified entry.key.name ∧ FullyQualified (wire.toText entry.query.name) := by
    conv_lhs => rhs; rw [← List.map_id entries]
    rw [List.map_inj_left]
    exact forall₂_congr fun entry hentry => reloaded_eq_self h (hentries entry hentry)
  constructor
  · rintro ⟨hread, _⟩
    have hrange := inRange_read hread
    rw [readSnapshot_written h hentries hrange] at hread
    exact ⟨hrange, hsame.mp (Except.ok.inj hread)⟩
  · rintro ⟨hrange, hdots⟩
    refine ⟨?_, fun part hlead hne => readSnapshot_cut h hentries hrange hlead hne⟩
    rw [readSnapshot_written h hentries hrange, hsame.mpr hdots]

/-- The name www.example.com, as a client's query gives it and as it is decoded. -/
inductive WwwName where
  | relative
  | qualified
deriving DecidableEq, Repr

def WwwName.toText : WwwName → Text
  | .relative => "www.example.com"
  | .qualified => "www.example.com."

def wwwBody : Bytes := [3, 119, 119, 119, 7, 101, 120, 97, 109, 112, 108, 101, 3, 99, 111, 109, 0]

/-- The name's only records, those of its address. -/
def wwwWire : HickoryWire WwwName Unit where
  fromUtf8 text :=
    if text = WwwName.toText .relative then .ok .relative
    else if text = WwwName.toText .qualified then .ok .qualified
    else .error "invalid name"
  toText := WwwName.toText
  qualify _ := .qualified
  topLevel _ := some "com"
  emitName _ := some wwwBody
  readName body := if body = wwwBody then .ok .qualified else .error "bad label"
  emitRecord record := some (wwwBody ++ [0, 1, 0, 1] ++ toBeBytes 4 record.ttl.toNat ++ [0, 4, 192, 0, 2, 7])
  readRecord body :=
    if body.take 21 = wwwBody ++ [0, 1, 0, 1] ∧ body.drop 25 = [0, 4, 192, 0, 2, 7] then
      .ok ⟨(), UInt32.ofNat (ofBeBytes ((body.drop 21).take 4))⟩
    else .error "bad record"
  shortRead := "unexpected end of input reached"

theorem wwwWire_lawful : wwwWire.Lawful where
  fromUtf8_toText name := by cases name <;> decide
  toText_qualify name := by cases name <;> decide
  name name := ⟨wwwBody, rfl, by decide, by decide, rfl⟩
  record record := by
    refine ⟨_, rfl, by simp, by simp [wwwBody], ?_⟩
    have httl : UInt32.ofNat (ofBeBytes (toBeBytes 4 record.ttl.toNat)) = record.ttl := by
      have hlt : record.ttl.toNat < 256 ^ 4 := UInt32.toNat_lt record.ttl
      rw [ofBeBytes_toBeBytes, Nat.mod_eq_of_lt hlt, UInt32.ofNat_toNat]
    simp only [wwwWire]
    rw [if_pos (by simp [wwwBody, toBeBytes])]
    have hmiddle : ((wwwBody ++ [0, 1, 0, 1] ++ toBeBytes 4 record.ttl.toNat ++ [0, 4, 192, 0, 2, 7]).drop 21).take 4 =
        toBeBytes 4 record.ttl.toNat := by
      simp [wwwBody, toBeBytes]
    rw [hmiddle, httl]

def wwwEntry (key : Text) (query : WwwName) : PersistedEntry WwwName Unit where
  key := ⟨key, 1, 0⟩
  query := ⟨query, 1⟩
  answers := [⟨(), 300⟩]
  validThroughSecs := 1700000300
  failureThroughSecs := 0
  failureCode := none
  failureSoa := none

theorem exportable_wwwEntry (name query : WwwName) : Exportable wwwWire (wwwEntry name.toText query) where
  key := ⟨name, 0, by cases name <;> rfl, rfl⟩
  rtype := rfl
  validThroughSecs := by simp [wwwEntry]
  failureThroughSecs := by simp [wwwEntry]

/-- The name of a client's query comes back with a dot. -/
theorem snapshot_round_trips_fails :
    wwwWire.Lawful ∧ ¬ ∀ entries : List (PersistedEntry WwwName Unit),
      (∀ entry ∈ entries, Exportable wwwWire entry ∧ ¬ FullyQualified entry.key.name) → RoundTrips wwwWire entries := by
  refine ⟨wwwWire_lawful, fun h => ?_⟩
  have hentry : ∀ entry ∈ [wwwEntry "www.example.com" .qualified],
      Exportable wwwWire entry ∧ ¬ FullyQualified entry.key.name := by
    intro entry hentry
    rw [List.mem_singleton.mp hentry]
    exact ⟨exportable_wwwEntry .relative .qualified, by decide⟩
  have hread := (h _ hentry).1
  rw [readSnapshot_written wwwWire_lawful (fun entry he => (hentry entry he).1)
    ⟨by decide, by simp [wwwEntry]⟩] at hread
  have hkeys := congrArg (List.map fun entry : PersistedEntry WwwName Unit => entry.key) (Except.ok.inj hread)
  revert hkeys
  decide

theorem snapshot_round_trips_qualified :
    RoundTrips wwwWire [wwwEntry "www.example.com." .qualified] := by
  have hentry : ∀ entry ∈ [wwwEntry "www.example.com." .qualified], Exportable wwwWire entry := by
    intro entry hentry
    rw [List.mem_singleton.mp hentry]
    exact exportable_wwwEntry .qualified .qualified
  exact (snapshot_round_trips wwwWire wwwWire_lawful _ hentry).mpr
    ⟨⟨by decide, by simp [wwwEntry]⟩, by simp only [List.mem_singleton, forall_eq]; decide⟩

end DaygleDns.Recursive
