import DaygleDns.Authoritative.Secondary
import DaygleDns.Authoritative.ServedTransfers
import DaygleDns.Fallible
import DaygleDns.KeyedMap
import DaygleDns.Reading

/-! Secondary zones as they are served: the records of a transfer, from the bytes in which they
are stored, in their RRsets with their signatures. -/
namespace DaygleDns.Authoritative

open Text Framing Fallible

structure Nsec3Params where
  algorithm : UInt8
  salt : Bytes
  iterations : UInt16
deriving DecidableEq

/-- How the zone proves that a name does not exist. -/
inductive NxProofKind where
  | nsec
  | nsec3 (params : Nsec3Params) (optOut : Bool)
deriving DecidableEq

/-- What the DNSSEC data of a record says. -/
inductive RecordKind where
  | rrsig (typeCovered : RecordType)
  | nsec
  | nsec3 (optOut : Bool)
  | nsec3param (params : Nsec3Params)
  | other
deriving DecidableEq

/-- The owner of an RRset, in lower case, and its type. -/
structure RrKey where
  name : Text
  recordType : RecordType
deriving DecidableEq

def rrKey (record : MessageRecord) : RrKey := ⟨toAsciiLowercase record.name, record.recordType⟩

/-- RRsets, which are not made here. -/
structure RecordSets (S : Type) where
  withTtl : Text → RecordType → UInt32 → S
  insert : S → MessageRecord → S
  insertRrsig : S → MessageRecord → S
  recordsWithoutRrsigs : S → List MessageRecord
  rrsigs : S → List MessageRecord

def RecordSets.view {S : Type} (sets : RecordSets S) (set : S) : List MessageRecord × List MessageRecord :=
  (sets.recordsWithoutRrsigs set, sets.rrsigs set)

/-- What a zone is made with; `newZone` gives the RRsets of the zone where it accepts those it is given. -/
structure ZoneBuilder (S : Type) extends RecordSets S where
  origin : Text
  codec : MessageCodec
  readRecord : Reading.Reader MessageRecord
  kind : RData → RecordKind
  newZone : KeyedMap RrKey S → Option NxProofKind → Except Text (KeyedMap RrKey S)

/-- The bytes of the next record, and those behind it. -/
def splitRecord (wire : Bytes) : Option (Bytes × Bytes) :=
  (readExact 4 wire).bind fun parts => readExact (ofBeBytes parts.1) parts.2

theorem splitRecord_shorter {wire record rest : Bytes} (h : splitRecord wire = some (record, rest)) :
    rest.length < wire.length := by
  obtain ⟨parts, hlength, hrecord⟩ := Option.bind_eq_some_iff.mp h
  simp only [readExact, Option.ite_none_right_eq_some, Option.some.injEq] at hlength hrecord
  obtain ⟨hfour, hparts⟩ := hlength
  obtain ⟨_, hrest⟩ := hrecord
  have hlast : rest = parts.2.drop (ofBeBytes parts.1) := (Prod.mk.inj hrest).2.symm
  rw [hlast, ← hparts, List.length_drop, List.length_drop]
  omega

def truncatedTransfer : DaygleError := .internal "stored transfer is truncated"

def decodeTransfer (readRecord : Reading.Reader MessageRecord) (wire : Bytes) : Except DaygleError (List MessageRecord) :=
  if wire.isEmpty then .ok []
  else
    match _hsplit : splitRecord wire with
    | none => .error truncatedTransfer
    | some (bytes, rest) => do
        let (record, _) ← (readRecord bytes).mapError fun e => .internal ("decode stored transfer: " ++ e)
        let records ← decodeTransfer readRecord rest
        return record :: records
termination_by wire.length
decreasing_by exact splitRecord_shorter (by assumption)

/-! Reading a stored transfer. -/

/-- A record that is written reads back, and its length fits in the four bytes before it. -/
structure ZoneBuilder.Lawful {S : Type} (builder : ZoneBuilder S) : Prop where
  rrsigType : ∀ data typeCovered, builder.kind data = .rrsig typeCovered → data.recordType = ⟨"RRSIG", by decide⟩
  reads : ∀ record bytes, builder.codec.recordToBytes record = .ok bytes → Reading.Reads builder.readRecord bytes record
  short : ∀ record bytes, builder.codec.recordToBytes record = .ok bytes → bytes.length < 2 ^ 32

variable {S : Type} {builder : ZoneBuilder S}

theorem splitRecord_framed {bytes : Bytes} (h : bytes.length < 2 ^ 32) (rest : Bytes) :
    splitRecord (toBeBytes 4 bytes.length ++ bytes ++ rest) = some (bytes, rest) := by
  have hfour : readExact 4 (toBeBytes 4 bytes.length ++ (bytes ++ rest)) = some (toBeBytes 4 bytes.length, bytes ++ rest) :=
    readExact_append (toBeBytes 4 bytes.length) (bytes ++ rest)
  rw [splitRecord, List.append_assoc, hfour, Option.bind_some, ofBeBytes_toBeBytes, Nat.mod_eq_of_lt (by omega)]
  exact readExact_append bytes rest

/-- Fewer bytes than those of the record hold none. -/
theorem splitRecord_cut {bytes part : Bytes} (h : bytes.length < 2 ^ 32) (hpart : part <+: toBeBytes 4 bytes.length ++ bytes)
    (hne : part ≠ toBeBytes 4 bytes.length ++ bytes) : splitRecord part = none := by
  cases hsplit : splitRecord part with
  | none => rfl
  | some found =>
    exfalso
    have ⟨rest, hrest⟩ := hpart
    have ⟨parts, hlength, hrecord⟩ := Option.bind_eq_some_iff.mp hsplit
    simp only [readExact, Option.ite_none_right_eq_some, Option.some.injEq] at hlength hrecord
    have hhead : part.take 4 = toBeBytes 4 bytes.length := by
      have htake := congrArg (List.take 4) hrest
      rw [List.take_append_of_le_length hlength.1, List.take_left' (length_toBeBytes 4 _)] at htake
      exact htake
    have hbytes : ofBeBytes parts.1 = bytes.length := by
      rw [← hlength.2, hhead, ofBeBytes_toBeBytes, Nat.mod_eq_of_lt (by omega)]
    have hlong : bytes.length ≤ part.length - 4 := by
      have hdrop : part.drop 4 = parts.2 := congrArg Prod.snd hlength.2
      rw [← hbytes, ← List.length_drop, hdrop]
      exact hrecord.1
    have hwhole := congrArg List.length hrest
    rw [List.length_append, List.length_append, length_toBeBytes] at hwhole
    have hnone : rest = [] := List.eq_nil_of_length_eq_zero (by omega)
    rw [hnone, List.append_nil] at hrest
    exact hne hrest

theorem decodeTransfer_nil (readRecord : Reading.Reader MessageRecord) : decodeTransfer readRecord [] = .ok [] := by
  rw [decodeTransfer]
  rfl

theorem decodeTransfer_framed (h : builder.Lawful) {record : MessageRecord} {bytes : Bytes}
    (hbytes : builder.codec.recordToBytes record = .ok bytes) (rest : Bytes) :
    decodeTransfer builder.readRecord (toBeBytes 4 bytes.length ++ bytes ++ rest) =
      (decodeTransfer builder.readRecord rest).map (record :: ·) := by
  have hread := (h.reads record bytes hbytes).whole []
  rw [List.append_nil] at hread
  have hne : (toBeBytes 4 bytes.length ++ bytes ++ rest).isEmpty = false := by
    rw [List.isEmpty_eq_false_iff]
    intro hnil
    have hlength := congrArg List.length hnil
    rw [List.length_append, List.length_append, length_toBeBytes] at hlength
    simp at hlength
  have hsplit := splitRecord_framed (h.short record bytes hbytes) rest
  rw [decodeTransfer, hne, if_neg (by decide)]
  split
  next hnone =>
    rw [hsplit] at hnone
    cases hnone
  next found others hfound =>
    rw [hsplit] at hfound
    cases hfound
    rw [hread]
    cases decodeTransfer builder.readRecord rest <;> rfl

theorem encodeTransfer_cons (codec : MessageCodec) (record : MessageRecord) (records : List MessageRecord) (wire : Bytes) :
    encodeTransfer codec (record :: records) = .ok wire ↔
      ∃ bytes later, codec.recordToBytes record = .ok bytes ∧ encodeTransfer codec records = .ok later ∧
        wire = toBeBytes 4 bytes.length ++ bytes ++ later := by
  simp only [encodeTransfer, encodeRecord, List.mapM_cons, bind_eq_ok, mapError_eq_ok, pure_eq, Except.ok.injEq]
  constructor
  · rintro ⟨_, ⟨_, ⟨bytes, hbytes, hframe⟩, frames, hframes, hall⟩, hwire⟩
    refine ⟨bytes, frames.flatten, hbytes, ⟨frames, hframes, rfl⟩, ?_⟩
    rw [← hwire, ← hall, ← hframe]
    rfl
  · rintro ⟨bytes, _, hbytes, ⟨frames, hframes, hlater⟩, hwire⟩
    refine ⟨_, ⟨_, ⟨bytes, hbytes, rfl⟩, frames, hframes, rfl⟩, ?_⟩
    rw [hwire, ← hlater]
    rfl

theorem decodeTransfer_encode (h : builder.Lawful) {records : List MessageRecord} {wire : Bytes}
    (hwire : encodeTransfer builder.codec records = .ok wire) : decodeTransfer builder.readRecord wire = .ok records := by
  induction records generalizing wire with
  | nil =>
    cases hwire
    exact decodeTransfer_nil _
  | cons record records ih =>
    obtain ⟨bytes, later, hbytes, hlater, rfl⟩ := (encodeTransfer_cons _ _ _ _).mp hwire
    rw [decodeTransfer_framed h hbytes, ih hlater]
    rfl

/-- A part of a stored transfer ends between two of its records, or is found to be truncated. -/
theorem decodeTransfer_part (h : builder.Lawful) {records : List MessageRecord} {wire part : Bytes}
    (hwire : encodeTransfer builder.codec records = .ok wire) (hpart : part <+: wire) :
    (∃ n, encodeTransfer builder.codec (records.take n) = .ok part) ∨
      decodeTransfer builder.readRecord part = .error truncatedTransfer := by
  induction records generalizing wire part with
  | nil =>
    have hnil : wire = [] := (Except.ok.inj hwire).symm
    rw [hnil, List.prefix_nil] at hpart
    exact .inl ⟨0, by rw [hpart]; rfl⟩
  | cons record records ih =>
    obtain ⟨bytes, later, hbytes, hlater, rfl⟩ := (encodeTransfer_cons _ _ _ _).mp hwire
    obtain hfirst | ⟨more, rfl, hmore⟩ := Reading.prefix_append hpart
    · by_cases hwhole : part = toBeBytes 4 bytes.length ++ bytes
      · refine .inl ⟨1, (encodeTransfer_cons _ _ _ _).mpr ⟨bytes, [], hbytes, rfl, ?_⟩⟩
        rw [hwhole, List.append_nil]
      · cases part with
        | nil => exact .inl ⟨0, rfl⟩
        | cons first rest =>
          apply Or.inr
          have hcut := splitRecord_cut (h.short record bytes hbytes) hfirst hwhole
          rw [decodeTransfer]
          split
          next hnone => cases hnone
          · split
            · rfl
            next hfound =>
              rw [hcut] at hfound
              cases hfound
    · obtain ⟨n, hn⟩ | herror := ih hlater hmore
      · exact .inl ⟨n + 1, (encodeTransfer_cons _ _ _ _).mpr ⟨bytes, more, hbytes, hn, rfl⟩⟩
      · apply Or.inr
        rw [decodeTransfer_framed h hbytes, herror]
        rfl

/-- A stored transfer reads back as its records; a part of it gives the records that are whole in it, where it ends with
one, and the error for a truncated transfer elsewhere. -/
theorem stored_transfer_reads (h : builder.Lawful) {records : List MessageRecord} {wire : Bytes}
    (hwire : encodeTransfer builder.codec records = .ok wire) :
    decodeTransfer builder.readRecord wire = .ok records ∧
      ∀ part, part <+: wire →
        (∃ n, encodeTransfer builder.codec (records.take n) = .ok part ∧
          decodeTransfer builder.readRecord part = .ok (records.take n)) ∨
        decodeTransfer builder.readRecord part = .error truncatedTransfer := by
  refine ⟨decodeTransfer_encode h hwire, fun part hpart => ?_⟩
  obtain ⟨n, hn⟩ | herror := decodeTransfer_part h hwire hpart
  · exact .inl ⟨n, hn, decodeTransfer_encode h hn⟩
  · exact .inr herror

/-- RRsets of the records as they come, one for each data. -/
structure ListedSet where
  records : List MessageRecord
  rrsigs : List MessageRecord

/-- A reader of the records of a table. -/
def readTable (table : List (MessageRecord × Bytes)) : Reading.Reader MessageRecord := fun bytes =>
  match table.find? fun entry => entry.2.isPrefixOf bytes with
  | some entry => .ok (entry.1, bytes.drop entry.2.length)
  | none => .error "unknown record"

theorem reads_readTable {table : List (MessageRecord × Bytes)}
    (h : ∀ first ∈ table, ∀ second ∈ table, first.2 <+: second.2 → first = second) {entry : MessageRecord × Bytes}
    (hentry : entry ∈ table) : Reading.Reads (readTable table) entry.2 entry.1 := by
  constructor
  · intro rest
    have hfound : ∃ found, table.find? (fun found => found.2.isPrefixOf (entry.2 ++ rest)) = some found := by
      rw [← Option.isSome_iff_exists, List.find?_isSome]
      exact ⟨entry, hentry, List.isPrefixOf_iff_prefix.mpr (List.prefix_append _ _)⟩
    obtain ⟨found, hfound⟩ := hfound
    have hmem := List.mem_of_find?_eq_some hfound
    have hopens := List.find?_some hfound
    have hsame : found = entry := by
      obtain hshort | ⟨later, hlater, _⟩ := Reading.prefix_append (List.isPrefixOf_iff_prefix.mp hopens)
      · exact h found hmem entry hentry hshort
      · exact (h entry hentry found hmem ⟨later, hlater.symm⟩).symm
    unfold readTable
    rw [hfound, hsame]
    dsimp only
    rw [List.drop_left]
  · intro part hpart hne
    have hnone : table.find? (fun found => found.2.isPrefixOf part) = none := by
      refine List.find?_eq_none.mpr fun found hfound hopens => hne ?_
      have hopens := List.isPrefixOf_iff_prefix.mp hopens
      rw [h found hfound entry hentry (hopens.trans hpart)] at hopens
      exact hpart.eq_of_length (Nat.le_antisymm hpart.length_le hopens.length_le)
    refine ⟨"unknown record", ?_⟩
    unfold readTable
    rw [hnone]

/-- A builder of zones without DNSSEC, over a table of records. -/
def ZoneBuilder.ofTable (codec : MessageCodec) (table : List (MessageRecord × Bytes)) (origin : Text) :
    ZoneBuilder ListedSet where
  withTtl _ _ _ := ⟨[], []⟩
  insert set record := { set with records := set.records.filter (fun other => other.data != record.data) ++ [record] }
  insertRrsig set rrsig := { set with rrsigs := set.rrsigs ++ [rrsig] }
  recordsWithoutRrsigs := ListedSet.records
  rrsigs := ListedSet.rrsigs
  origin := origin
  codec := codec
  readRecord := readTable table
  kind _ := .other
  newZone map _ := .ok map

theorem ZoneBuilder.ofTable_lawful {codec : MessageCodec} {table : List (MessageRecord × Bytes)} (origin : Text)
    (htable : ∀ record bytes, codec.recordToBytes record = .ok bytes → (record, bytes) ∈ table)
    (h : ∀ first ∈ table, ∀ second ∈ table, first.2 <+: second.2 → first = second)
    (hshort : ∀ entry ∈ table, entry.2.length < 2 ^ 32) : (ZoneBuilder.ofTable codec table origin).Lawful where
  rrsigType _ _ hkind := nomatch hkind
  reads record bytes hbytes := reads_readTable h (htable record bytes hbytes)
  short record bytes hbytes := hshort _ (htable record bytes hbytes)

def storedTable : List (MessageRecord × Bytes) :=
  [(exampleSoa 1, exampleSoaInFull 1),
    (exampleAddress "example.com.", exampleAddressBytes (toBeBytes 13 0x076578616d706c6503636f6d00))]

def storedBuilder : ZoneBuilder ListedSet := .ofTable (.ofTable storedTable []) storedTable "example.com."

theorem storedBuilder_lawful : storedBuilder.Lawful :=
  ZoneBuilder.ofTable_lawful _ (fun _ _ h => mem_of_recordToBytes [] h) (by decide) (by decide)

def storedWire : Bytes := storedTable.flatMap fun entry => toBeBytes 4 entry.2.length ++ entry.2

/-- The two records of a zone, and what is left of them where the last byte is lost. -/
theorem stored_transfer_reads_two :
    ∃ wire, encodeTransfer storedBuilder.codec [exampleSoa 1, exampleAddress "example.com."] = .ok wire ∧
      decodeTransfer storedBuilder.readRecord wire = .ok [exampleSoa 1, exampleAddress "example.com."] ∧
      decodeTransfer storedBuilder.readRecord wire.dropLast = .error truncatedTransfer := by
  have hwire : encodeTransfer storedBuilder.codec [exampleSoa 1, exampleAddress "example.com."] = .ok storedWire := rfl
  have hreads := stored_transfer_reads storedBuilder_lawful hwire
  refine ⟨storedWire, hwire, hreads.1, ?_⟩
  obtain ⟨n, hpart, _⟩ | herror := hreads.2 storedWire.dropLast (List.dropLast_prefix _)
  · match n with
    | 0 | 1 => exact absurd hpart (by decide)
    | n + 2 =>
      rw [List.take_of_length_le (by simp), hwire] at hpart
      exact absurd (Except.ok.inj hpart) (by decide)
  · exact herror

/-! The zone that is served. -/

/-- What the loop over the records keeps. -/
structure SortedRecords (S : Type) where
  map : KeyedMap RrKey S
  rrsigs : List MessageRecord
  nsec : Bool
  nsec3 : Option Nsec3Params
  optOut : Bool

section Zone

variable (builder : ZoneBuilder S)

def insertRecordSet (map : KeyedMap RrKey S) (record : MessageRecord) : KeyedMap RrKey S :=
  match map.lookup (rrKey record) with
  | some set => map.insert (rrKey record) (builder.insert set record)
  | none => map.insert (rrKey record) (builder.insert (builder.withTtl record.name record.recordType record.ttl) record)

def atOrigin (record : MessageRecord) : Bool := toAsciiLowercase record.name == toAsciiLowercase builder.origin

def sortRecord (s : SortedRecords S) (record : MessageRecord) : SortedRecords S :=
  match builder.kind record.data with
  | .rrsig _ => { s with rrsigs := s.rrsigs ++ [record] }
  | .nsec => { s with map := insertRecordSet builder s.map record, nsec := true }
  | .nsec3 optOut => { s with map := insertRecordSet builder s.map record, optOut := s.optOut || optOut }
  | .nsec3param params =>
      if atOrigin builder record then { s with map := insertRecordSet builder s.map record, nsec3 := some params }
      else { s with map := insertRecordSet builder s.map record }
  | .other => { s with map := insertRecordSet builder s.map record }

def SortedRecords.nxProofKind (s : SortedRecords S) : Option NxProofKind :=
  match s.nsec3 with
  | some params => some (.nsec3 params s.optOut)
  | none => if s.nsec then some .nsec else none

/-- The RRset that a signature is for. -/
def coveredKey (record : MessageRecord) : Option RrKey :=
  match builder.kind record.data with
  | .rrsig typeCovered => some ⟨toAsciiLowercase record.name, typeCovered⟩
  | _ => none

/-- A signature of an RRset that the zone does not have is left out. -/
def attachRrsig (served : KeyedMap RrKey S) (rrsig : MessageRecord) : KeyedMap RrKey S :=
  match coveredKey builder rrsig with
  | none => served
  | some key =>
      match served.lookup key with
      | some set => served.insert key (builder.insertRrsig set rrsig)
      | none => served

structure ServedZone (S : Type) where
  records : KeyedMap RrKey S
  nxProofKind : Option NxProofKind

def secondaryZone (wire : Bytes) : Except DaygleError (ServedZone S) := do
  let records ← decodeTransfer builder.readRecord wire
  let s := records.foldl (sortRecord builder) ⟨∅, [], false, none, false⟩
  let served ← (builder.newZone s.map s.nxProofKind).mapError .invalidRecord
  return ⟨s.rrsigs.foldl (attachRrsig builder) served, s.nxProofKind⟩

/-! What it serves of the records. -/

def ownRecords (key : RrKey) (records : List MessageRecord) : List MessageRecord :=
  records.filter fun record => coveredKey builder record == none && rrKey record == key

def coveringRrsigs (key : RrKey) (records : List MessageRecord) : List MessageRecord :=
  records.filter fun record => coveredKey builder record == some key

/-- The records of an RRset and the signatures on it. -/
def rrsetOf (key : RrKey) (records : List MessageRecord) : Option (List MessageRecord × List MessageRecord) :=
  if ownRecords builder key records = [] then none
  else some (ownRecords builder key records, coveringRrsigs builder key records)

def isNsec (record : MessageRecord) : Bool := builder.kind record.data == .nsec

def isOptOut (record : MessageRecord) : Bool := builder.kind record.data == .nsec3 true

def originParams (record : MessageRecord) : Option Nsec3Params :=
  match builder.kind record.data with
  | .nsec3param params => if atOrigin builder record then some params else none
  | _ => none

def denialOf (records : List MessageRecord) : Option NxProofKind :=
  match (records.filterMap (originParams builder)).getLast? with
  | some params => some (.nsec3 params (records.any (isOptOut builder)))
  | none => if records.any (isNsec builder) then some .nsec else none

end Zone

/-- A record that takes the place of another in an RRset. -/
def Replaces (record other : MessageRecord) : Prop :=
  record.data = other.data ∨ record.recordType = .soa ∨ record.recordType = ⟨"CNAME", by decide⟩

/-- What an RRset holds after a record of its own, and what a new zone holds of the RRsets it is made with. -/
structure ZoneBuilder.KeepsRecords (builder : ZoneBuilder S) : Prop where
  first : ∀ record, builder.view (builder.insert (builder.withTtl record.name record.recordType record.ttl) record) =
    ([record], [])
  insert : ∀ set record, builder.recordsWithoutRrsigs set ≠ [] →
    (∀ other ∈ builder.recordsWithoutRrsigs set, rrKey other = rrKey record ∧ ¬ Replaces record other) →
    builder.view (builder.insert set record) = (builder.recordsWithoutRrsigs set ++ [record], builder.rrsigs set)
  insertRrsig : ∀ set record,
    builder.view (builder.insertRrsig set record) = (builder.recordsWithoutRrsigs set, builder.rrsigs set ++ [record])
  newZone : ∀ map kind served, builder.newZone map kind = .ok served →
    (∀ key set, map.lookup key = some set → builder.rrsigs set = []) →
    ∀ key, (served.lookup key).map builder.view = (map.lookup key).map builder.view

section Serves

/-- An RRset after one more record. -/
def addRecord (builder : ZoneBuilder S) (set : Option S) (record : MessageRecord) : Option S :=
  match set with
  | some set => some (builder.insert set record)
  | none => some (builder.insert (builder.withTtl record.name record.recordType record.ttl) record)

theorem lookup_insertRecordSet (map : KeyedMap RrKey S) (record : MessageRecord) (key : RrKey) :
    (insertRecordSet builder map record).lookup key =
      if rrKey record = key then addRecord builder (map.lookup key) record else map.lookup key := by
  have hinsert (set : S) :
      (map.insert (rrKey record) set).lookup key = if rrKey record = key then some set else map.lookup key := by
    rw [KeyedMap.lookup_insert]
    by_cases hkey : rrKey record = key
    · rw [if_pos hkey, if_pos hkey.symm]
    · rw [if_neg hkey, if_neg (Ne.symm hkey)]
  unfold insertRecordSet
  split
  next set hset =>
    rw [hinsert]
    split
    next hkey =>
      rw [← hkey, hset]
      rfl
    next => rfl
  next hnone =>
    rw [hinsert]
    split
    next hkey =>
      rw [← hkey, hnone]
      rfl
    next => rfl

theorem lookup_attachRrsig (served : KeyedMap RrKey S) (rrsig : MessageRecord) (key : RrKey) :
    (attachRrsig builder served rrsig).lookup key =
      if coveredKey builder rrsig = some key then (served.lookup key).map (builder.insertRrsig · rrsig)
      else served.lookup key := by
  unfold attachRrsig
  split
  next hnone =>
    rw [hnone, if_neg nofun]
  next covered hcovered =>
    rw [hcovered]
    split
    next set hset =>
      rw [KeyedMap.lookup_insert]
      by_cases hkey : covered = key
      · rw [if_pos hkey.symm, if_pos (congrArg some hkey), ← hkey, hset]
        rfl
      · rw [if_neg (Ne.symm hkey), if_neg fun hsame => hkey (Option.some.inj hsame)]
    next hnone =>
      split
      next hkey =>
        rw [← Option.some.inj hkey, hnone]
        rfl
      next => rfl

/-! The loop over the records. -/

/-- A record goes into an RRset or to the signatures. -/
theorem sortRecord_eq (s : SortedRecords S) (record : MessageRecord) :
    sortRecord builder s record =
      { map := if coveredKey builder record = none then insertRecordSet builder s.map record else s.map
        rrsigs := if coveredKey builder record = none then s.rrsigs else s.rrsigs ++ [record]
        nsec := s.nsec || isNsec builder record
        nsec3 := (originParams builder record).or s.nsec3
        optOut := s.optOut || isOptOut builder record } := by
  unfold sortRecord coveredKey isNsec originParams isOptOut
  cases builder.kind record.data with
  | rrsig typeCovered => simp
  | nsec => simp
  | nsec3 optOut => cases optOut <;> simp
  | nsec3param params => cases h : atOrigin builder record <;> simp
  | other => simp

theorem foldl_sortRecord (s : SortedRecords S) (records : List MessageRecord) :
    records.foldl (sortRecord builder) s =
      { map := (records.filter fun record => coveredKey builder record == none).foldl (insertRecordSet builder) s.map
        rrsigs := s.rrsigs ++ records.filter fun record => coveredKey builder record != none
        nsec := s.nsec || records.any (isNsec builder)
        nsec3 := (records.filterMap (originParams builder)).getLast?.or s.nsec3
        optOut := s.optOut || records.any (isOptOut builder) } := by
  induction records generalizing s with
  | nil => simp
  | cons record records ih =>
    have hlast (found : Option Nsec3Params) (rest : List Nsec3Params) :
        rest.getLast?.or (found.or s.nsec3) = (found.toList ++ rest).getLast?.or s.nsec3 := by
      rw [List.getLast?_append, Option.or_assoc]
      cases found <;> rfl
    have hparams : (record :: records).filterMap (originParams builder) =
        (originParams builder record).toList ++ records.filterMap (originParams builder) := by
      rw [List.filterMap_cons]
      cases originParams builder record <;> rfl
    rw [List.foldl_cons, ih, sortRecord_eq, hparams, ← hlast]
    by_cases hbare : coveredKey builder record = none
    · simp [hbare, Bool.or_assoc]
    · simp [hbare, Bool.or_assoc]

theorem denial_sorted (records : List MessageRecord) :
    (records.foldl (sortRecord builder) ⟨∅, [], false, none, false⟩).nxProofKind = denialOf builder records := by
  rw [foldl_sortRecord]
  simp only [SortedRecords.nxProofKind, denialOf, Option.or_none, Bool.false_or]

/-! The RRsets. -/

theorem addRecord_view (h : builder.KeepsRecords) {set : Option S} {record : MessageRecord} {own : List MessageRecord}
    (hset : set.map builder.view = if own = [] then none else some (own, []))
    (hown : ∀ other ∈ own, rrKey other = rrKey record ∧ ¬ Replaces record other) :
    (addRecord builder set record).map builder.view = some (own ++ [record], []) := by
  cases set with
  | none =>
    have hnil : own = [] := by
      by_contra hne
      rw [if_neg hne] at hset
      cases hset
    rw [hnil]
    exact congrArg some (h.first record)
  | some set =>
    have hne : own ≠ [] := by
      intro hnil
      rw [if_pos hnil] at hset
      cases hset
    rw [if_neg hne, Option.map_some, Option.some.injEq] at hset
    have hrecords : builder.recordsWithoutRrsigs set = own := congrArg Prod.fst hset
    have hrrsigs : builder.rrsigs set = [] := congrArg Prod.snd hset
    have hinsert := h.insert set record (by rwa [hrecords]) (by rwa [hrecords])
    rw [hrecords, hrrsigs] at hinsert
    exact congrArg some hinsert

theorem foldl_addRecord_view (h : builder.KeepsRecords) {set : Option S} {own records : List MessageRecord} {key : RrKey}
    (hset : set.map builder.view = if own = [] then none else some (own, []))
    (hkeys : ∀ record ∈ own ++ records, rrKey record = key)
    (hapart : (own ++ records).Pairwise fun first second => ¬ Replaces second first) :
    (records.foldl (addRecord builder) set).map builder.view =
      if own ++ records = [] then none else some (own ++ records, []) := by
  induction records generalizing set own with
  | nil => simpa using hset
  | cons record records ih =>
    have hown : ∀ other ∈ own, rrKey other = rrKey record ∧ ¬ Replaces record other := by
      intro other hother
      refine ⟨?_, (List.pairwise_append.mp hapart).2.2 other hother record List.mem_cons_self⟩
      rw [hkeys other (List.mem_append_left _ hother),
        hkeys record (List.mem_append_right _ List.mem_cons_self)]
    have hadded := addRecord_view h hset hown
    have hsplit : own ++ record :: records = own ++ [record] ++ records := by rw [List.append_assoc, List.singleton_append]
    rw [hsplit] at hkeys hapart ⊢
    exact ih (by rw [hadded, if_neg (by simp)]) hkeys hapart

theorem foldl_insertRrsig_view (h : builder.KeepsRecords) (set : S) (rrsigs : List MessageRecord) :
    builder.view (rrsigs.foldl builder.insertRrsig set) = (builder.recordsWithoutRrsigs set, builder.rrsigs set ++ rrsigs) := by
  induction rrsigs generalizing set with
  | nil => rw [List.append_nil]; rfl
  | cons rrsig rrsigs ih =>
    have hset := h.insertRrsig set rrsig
    have hrecords : builder.recordsWithoutRrsigs (builder.insertRrsig set rrsig) = builder.recordsWithoutRrsigs set :=
      congrArg Prod.fst hset
    have hrrsigs : builder.rrsigs (builder.insertRrsig set rrsig) = builder.rrsigs set ++ [rrsig] := congrArg Prod.snd hset
    rw [List.foldl_cons, ih, hrecords, hrrsigs, List.append_assoc, List.singleton_append]

theorem lookup_sorted (records : List MessageRecord) (key : RrKey) :
    ((records.filter fun record => coveredKey builder record == none).foldl (insertRecordSet builder) ∅).lookup key =
      (ownRecords builder key records).foldl (addRecord builder) none := by
  have hown : (records.filter fun record => coveredKey builder record == none).filter
      (fun record => some (rrKey record) == some key) = ownRecords builder key records := by
    rw [List.filter_filter]
    apply List.filter_congr
    intro record _
    rw [Bool.and_comm]
    rfl
  have hstep (map : KeyedMap RrKey S) (record : MessageRecord) (k : RrKey) :
      (insertRecordSet builder map record).lookup k =
        if some (rrKey record) = some k then addRecord builder (map.lookup k) record else map.lookup k := by
    rw [lookup_insertRecordSet]
    simp only [Option.some.injEq]
  rw [← hown]
  exact KeyedMap.lookup_foldl hstep _ ∅ key

theorem lookup_attached (records : List MessageRecord) (served : KeyedMap RrKey S) (key : RrKey) :
    ((records.filter fun record => coveredKey builder record != none).foldl (attachRrsig builder) served).lookup key =
      (served.lookup key).map fun set => (coveringRrsigs builder key records).foldl builder.insertRrsig set := by
  have hcovering : (records.filter fun record => coveredKey builder record != none).filter
      (fun record => coveredKey builder record == some key) = coveringRrsigs builder key records := by
    rw [List.filter_filter]
    apply List.filter_congr
    intro record _
    cases coveredKey builder record with
    | none => rfl
    | some covered => simp
  have hfold (set : Option S) (rrsigs : List MessageRecord) :
      rrsigs.foldl (fun set rrsig => set.map (builder.insertRrsig · rrsig)) set =
        set.map fun set => rrsigs.foldl builder.insertRrsig set := by
    induction rrsigs generalizing set with
    | nil => simp
    | cons rrsig rrsigs ih =>
      rw [List.foldl_cons, ih, Option.map_map]
      rfl
  rw [← hcovering, ← hfold]
  exact KeyedMap.lookup_foldl lookup_attachRrsig _ served key

/-- The secondary zone has the RRsets of the records it was sent, each with its signatures. -/
theorem secondaryZone_eq (h : builder.Lawful) (hkeeps : builder.KeepsRecords) {records : List MessageRecord} {wire : Bytes}
    (hwire : encodeTransfer builder.codec records = .ok wire) {zone : ServedZone S} (hzone : secondaryZone builder wire = .ok zone)
    (hapart : ∀ key, (ownRecords builder key records).Pairwise fun first second => ¬ Replaces second first) :
    (∀ key, (zone.records.lookup key).map builder.view = rrsetOf builder key records) ∧
      zone.nxProofKind = denialOf builder records := by
  unfold secondaryZone at hzone
  rw [decodeTransfer_encode h hwire, ok_bind] at hzone
  obtain ⟨served, hserved, hzone⟩ := bind_eq_ok.mp hzone
  rw [mapError_eq_ok] at hserved
  cases hzone
  refine ⟨fun key => ?_, denial_sorted records⟩
  have hsets (key : RrKey) :
      ((ownRecords builder key records).foldl (addRecord builder) none).map builder.view =
        if ownRecords builder key records = [] then none else some (ownRecords builder key records, []) := by
    have hkeys : ∀ record ∈ [] ++ ownRecords builder key records, rrKey record = key := by
      intro record hrecord
      have hkey := (List.mem_filter.mp hrecord).2
      rw [Bool.and_eq_true, beq_iff_eq, beq_iff_eq] at hkey
      exact hkey.2
    exact foldl_addRecord_view hkeeps rfl hkeys (hapart key)
  have hview := hkeeps.newZone _ _ _ hserved
  rw [foldl_sortRecord] at hview ⊢
  dsimp only at hview ⊢
  replace hview := hview (fun key set hset => by
    have hsame := hsets key
    rw [← lookup_sorted, hset, Option.map_some] at hsame
    split at hsame
    · cases hsame
    · exact congrArg Prod.snd (Option.some.inj hsame)) key
  rw [lookup_sorted, hsets] at hview
  have hcovered : builder.view ∘ (fun set => (coveringRrsigs builder key records).foldl builder.insertRrsig set) =
      (fun rrset => (rrset.1, rrset.2 ++ coveringRrsigs builder key records)) ∘ builder.view :=
    funext fun set => foldl_insertRrsig_view hkeeps set _
  rw [List.nil_append, lookup_attached, Option.map_map, hcovered, ← Option.map_map, hview, rrsetOf]
  split <;> rfl

end Serves

end DaygleDns.Authoritative
