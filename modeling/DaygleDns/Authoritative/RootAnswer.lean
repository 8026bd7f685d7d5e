import DaygleDns.Authoritative.RootZone
import DaygleDns.CanonicalNames
import DaygleDns.Grouping
import DaygleDns.OrderedTable

/-! The indexes of a root zone, and the answer to a query as a root server gives it. -/
namespace DaygleDns.Authoritative.Root

open Framing Grouping WireName

abbrev RecordType := UInt16

namespace RecordType

def A : RecordType := 1
def NS : RecordType := 2
def SOA : RecordType := 6
def AAAA : RecordType := 28
def DS : RecordType := 43
def RRSIG : RecordType := 46
def NSEC : RecordType := 47

end RecordType

/-- What the answers look at in the data of a record. -/
inductive RecordData where
  | ns (target : WireName)
  | rrsig (typeCovered : RecordType)
  | nsec (nextDomainName : WireName)
  | other (recordType : RecordType)
deriving DecidableEq, Repr

def RecordData.recordType : RecordData → RecordType
  | .ns _ => .NS
  | .rrsig _ => .RRSIG
  | .nsec _ => .NSEC
  | .other recordType => recordType

def RecordData.isRrsig : RecordData → Bool
  | .rrsig _ => true
  | _ => false

/-- The names and the data of records. -/
structure ZoneWire (R : Type) extends Wire R where
  name : R → WireName
  data : R → RecordData

/-- The labels of a name, without a `*` in front. -/
def numLabels (name : WireName) : Nat := if name.head? = some [42] then name.length - 1 else name.length

/-- The last `count` labels, where the name has as many. -/
def trimTo (count : Nat) (name : WireName) : WireName :=
  if numLabels name < count then name else name.drop (name.length - count)

variable {R : Type} (wire : ZoneWire R)

def owner (record : R) : WireName := (wire.name record).toLowercase

/-- `rrsets` without RRSIGs, by owner and type; `signatures`: RRSIGs, by owner and covered type; `nsecs`, by
owner in canonical order; `tlds`: delegated top-level domains. -/
structure Indexes (R : Type) where
  rrsets : List ((WireName × RecordType) × List R)
  signatures : List ((WireName × RecordType) × List R)
  nsecs : OrderedTable (WireName × R) (List (List Nat)) fun row => canonicalKey row.1
  tlds : List WireName

namespace Indexes

def empty : Indexes R := ⟨[], [], .empty, []⟩

/-- Under its owner and type. -/
def pushRrset (record : R) (indexes : Indexes R) : Indexes R :=
  { indexes with
    rrsets := push (fun record => (owner wire record, (wire.data record).recordType)) record indexes.rrsets }

def add (indexes : Indexes R) (record : R) : Indexes R :=
  let owner := owner wire record
  match wire.data record with
  | .rrsig covered => { indexes with signatures := push (fun _ => (owner, covered)) record indexes.signatures }
  | .nsec _ => pushRrset wire record { indexes with nsecs := indexes.nsecs.put (owner, record) }
  | .ns _ =>
      pushRrset wire record
        (if numLabels owner = 1 then { indexes with tlds := indexes.tlds.insert owner } else indexes)
  | .other _ => pushRrset wire record indexes

def ofRecords (records : List R) : Indexes R := records.foldl (add wire) empty

def rrset (indexes : Indexes R) (owner : WireName) (rtype : RecordType) : List R :=
  members (owner, rtype) indexes.rrsets

/-- `rtype` at `owner` plus its signatures when `dnssec`. -/
def signed (indexes : Indexes R) (owner : WireName) (rtype : RecordType) (dnssec : Bool) : List R :=
  let out := indexes.rrset owner rtype
  if dnssec = true ∧ out ≠ [] then out ++ members (owner, rtype) indexes.signatures else out

/-- The closest NSEC owner at or before `name`. -/
def coveringNsec (indexes : Indexes R) (name : WireName) : Option R :=
  (indexes.nsecs.floor (canonicalKey name)).map (·.2)

/-- The NSEC RRsets for `names`, each only once. -/
def denials (indexes : Indexes R) : List WireName → List WireName → List R
  | _, [] => []
  | added, name :: names =>
      match indexes.coveringNsec name with
      | none => indexes.denials added names
      | some nsec =>
          if owner wire nsec ∈ added then indexes.denials added names
          else indexes.signed (owner wire nsec) .NSEC true ++ indexes.denials (owner wire nsec :: added) names

end Indexes

inductive OpCode where
  | query
  | other (code : UInt8)
deriving DecidableEq, Repr

inductive DnsClass where
  | in_
  | other (code : UInt16)
deriving DecidableEq, Repr

inductive ResponseCode where
  | noError
  | formErr
  | nxDomain
  | notImp
  | refused
deriving DecidableEq, Repr

structure Edns where
  maxPayload : UInt16
  dnssecOk : Bool
deriving DecidableEq, Repr

structure Question where
  name : WireName
  queryType : RecordType
  queryClass : DnsClass
deriving DecidableEq, Repr

/-- A query, as far as it is read. -/
structure Query where
  id : UInt16
  opCode : OpCode
  recursionDesired : Bool
  edns : Option Edns
  queries : List Question
deriving DecidableEq, Repr

structure Response (R : Type) where
  id : UInt16
  opCode : OpCode
  recursionDesired : Bool
  authoritative : Bool
  responseCode : ResponseCode
  edns : Option Edns
  queries : List Question
  answers : List R
  authorities : List R
  additionals : List R
deriving DecidableEq, Repr

namespace Query

def dnssec (query : Query) : Bool := (query.edns.map (·.dnssecOk)).getD false

/-- The response before the question is looked at. -/
def response (query : Query) : Response R where
  id := query.id
  opCode := query.opCode
  recursionDesired := query.recursionDesired
  authoritative := false
  responseCode := .noError
  edns := query.edns.map fun _ => ⟨1232, query.dnssec⟩
  queries := []
  answers := []
  authorities := []
  additionals := []

end Query

namespace Indexes

/-- The SOA of the root and the denials for `names`. -/
def apexNegative (indexes : Indexes R) (dnssec : Bool) (names : List WireName) (response : Response R) :
    Response R :=
  { response with
    authorities := response.authorities ++ indexes.signed [] .SOA dnssec ++
      if dnssec then indexes.denials wire [] names else [] }

/-- An RRset of the zone itself, or that there is none. -/
def atOwner (indexes : Indexes R) (dnssec : Bool) (owner : WireName) (rtype : RecordType) (response : Response R) :
    Response R :=
  let response := { response with authoritative := true }
  let answer := indexes.signed owner rtype dnssec
  if answer = [] then indexes.apexNegative wire dnssec [owner] response
  else { response with answers := response.answers ++ answer }

/-- The addresses in the zone of the targets of NS records. -/
def glue (indexes : Indexes R) (ns : List R) : List R :=
  ns.flatMap fun record =>
    match wire.data record with
    | .ns target => [RecordType.A, .AAAA].flatMap fun rtype => indexes.rrset target.toLowercase rtype
    | _ => []

def referral (indexes : Indexes R) (dnssec : Bool) (tld : WireName) (response : Response R) : Response R :=
  let ns := indexes.rrset tld .NS
  let ds := indexes.signed tld .DS true
  let proof := if dnssec = false then [] else if ds = [] then indexes.signed tld .NSEC true else ds
  { response with
    authorities := ns ++ (response.authorities ++ proof)
    additionals := response.additionals ++ indexes.glue wire ns }

def answer (indexes : Indexes R) (query : Query) : Response R :=
  let response := query.response
  match query.queries.head? with
  | none => { response with responseCode := .formErr }
  | some question =>
      let response := { response with queries := [question] }
      if query.opCode ≠ .query then { response with responseCode := .notImp }
      else if question.queryClass ≠ .in_ then { response with responseCode := .refused }
      else
        let qname := question.name.toLowercase
        if qname = [] then indexes.atOwner wire query.dnssec [] question.queryType response
        else
          let tld := trimTo 1 qname
          if tld ∉ indexes.tlds then
            -- The apex NSEC covers the wildcard, unless a delegation stands before or at it.
            indexes.apexNegative wire query.dnssec [tld, [[42]]]
              { response with authoritative := true, responseCode := .nxDomain }
          else if qname = tld ∧ question.queryType = .DS then indexes.atOwner wire query.dnssec tld .DS response
          else indexes.referral wire query.dnssec tld response

end Indexes

/-- Answer one query the way a root server would. -/
def RootZone.answer (zone : RootZone R) (query : Query) : Response R :=
  (Indexes.ofRecords wire zone.records).answer wire query

/-! What the indexes hold. -/

def rrsetOf (records : List R) (name : WireName) (rtype : RecordType) : List R :=
  records.filter fun record =>
    owner wire record = name ∧ (wire.data record).recordType = rtype ∧ (wire.data record).isRrsig = false

def signaturesOf (records : List R) (name : WireName) (rtype : RecordType) : List R :=
  records.filter fun record => owner wire record = name ∧ wire.data record = .rrsig rtype

namespace Indexes

theorem rrset_pushRrset (indexes : Indexes R) (record : R) (name : WireName) (rtype : RecordType)
    (h : (wire.data record).isRrsig = false) :
    (indexes.pushRrset wire record).rrset name rtype = indexes.rrset name rtype ++ rrsetOf wire [record] name rtype := by
  rw [rrset, pushRrset, members_push, rrsetOf, List.filter_singleton]
  by_cases hkey : owner wire record = name ∧ (wire.data record).recordType = rtype
  · simp [hkey, h, rrset]
  · have hmiss : ¬(owner wire record = name ∧ (wire.data record).recordType = rtype ∧
        (wire.data record).isRrsig = false) := fun hall => hkey ⟨hall.1, hall.2.1⟩
    simp [hkey, hmiss, rrset]

theorem rrset_add (indexes : Indexes R) (record : R) (name : WireName) (rtype : RecordType) :
    (indexes.add wire record).rrset name rtype = indexes.rrset name rtype ++ rrsetOf wire [record] name rtype := by
  cases hdata : wire.data record with
  | rrsig covered => simp [add, rrset, rrsetOf, hdata, RecordData.isRrsig]
  | nsec next =>
    simp only [add, hdata]
    exact rrset_pushRrset wire _ record name rtype (by rw [hdata]; rfl)
  | ns target =>
    simp only [add, hdata]
    rw [rrset_pushRrset wire _ record name rtype (by rw [hdata]; rfl)]
    split <;> rfl
  | other recordType =>
    simp only [add, hdata]
    exact rrset_pushRrset wire _ record name rtype (by rw [hdata]; rfl)

theorem signatures_add (indexes : Indexes R) (record : R) (name : WireName) (rtype : RecordType) :
    members (name, rtype) (indexes.add wire record).signatures =
      members (name, rtype) indexes.signatures ++ signaturesOf wire [record] name rtype := by
  rw [signaturesOf, List.filter_singleton]
  cases hdata : wire.data record with
  | rrsig covered =>
    simp only [add, hdata, members_push]
    by_cases hkey : owner wire record = name ∧ covered = rtype
    · simp [hkey]
    · simp [hkey]
  | nsec next => simp [add, hdata, pushRrset]
  | ns target =>
    simp only [add, hdata, pushRrset]
    split <;> simp
  | other recordType => simp [add, hdata, pushRrset]

/-- The owners of NS records of one label. -/
theorem mem_tlds_add (indexes : Indexes R) (record : R) (name : WireName) :
    name ∈ (indexes.add wire record).tlds ↔
      name ∈ indexes.tlds ∨ numLabels name = 1 ∧ owner wire record = name ∧ ∃ target, wire.data record = .ns target := by
  cases hdata : wire.data record with
  | rrsig covered => simp [add, hdata]
  | nsec next => simp [add, hdata, pushRrset]
  | ns target =>
    simp only [add, hdata, pushRrset]
    split
    next hone =>
      rw [List.mem_insert_iff]
      constructor
      · rintro (rfl | h)
        · exact .inr ⟨hone, rfl, target, rfl⟩
        · exact .inl h
      · rintro (h | ⟨-, h, -⟩)
        · exact .inr h
        · exact .inl h.symm
    next hnot =>
      constructor
      · exact .inl
      · rintro (h | ⟨hone, rfl, -⟩)
        · exact h
        · exact absurd hone hnot
  | other recordType => simp [add, hdata, pushRrset]

theorem nsecs_add (indexes : Indexes R) (record : R) :
    (indexes.add wire record).nsecs =
      match wire.data record with
      | .nsec _ => indexes.nsecs.put (owner wire record, record)
      | _ => indexes.nsecs := by
  cases hdata : wire.data record with
  | ns target =>
    simp only [add, hdata, pushRrset]
    split <;> rfl
  | rrsig covered => simp [add, hdata]
  | nsec next => simp [add, hdata, pushRrset]
  | other recordType => simp [add, hdata, pushRrset]

theorem ofRecords_snoc (records : List R) (record : R) :
    ofRecords wire (records ++ [record]) = (ofRecords wire records).add wire record := List.foldl_concat ..

theorem rrset_ofRecords (records : List R) (name : WireName) (rtype : RecordType) :
    (ofRecords wire records).rrset name rtype = rrsetOf wire records name rtype := by
  induction records using List.reverseRecOn with
  | nil => rfl
  | append_singleton records record ih =>
    rw [ofRecords_snoc, rrset_add, ih, rrsetOf, rrsetOf, rrsetOf, List.filter_append]

theorem signatures_ofRecords (records : List R) (name : WireName) (rtype : RecordType) :
    members (name, rtype) (ofRecords wire records).signatures = signaturesOf wire records name rtype := by
  induction records using List.reverseRecOn with
  | nil => rfl
  | append_singleton records record ih =>
    rw [ofRecords_snoc, signatures_add, ih, signaturesOf, signaturesOf, signaturesOf, List.filter_append]

theorem mem_tlds_ofRecords {records : List R} {name : WireName} :
    name ∈ (ofRecords wire records).tlds ↔
      numLabels name = 1 ∧ ∃ record ∈ records, owner wire record = name ∧ ∃ target, wire.data record = .ns target := by
  induction records using List.reverseRecOn with
  | nil => simp [ofRecords, empty]
  | append_singleton records record ih =>
    rw [ofRecords_snoc, mem_tlds_add, ih]
    simp only [List.mem_append, List.mem_singleton, or_and_right, exists_or, exists_eq_left, and_or_left]

theorem nsec_of_mem_nsecs {records : List R} {row : WireName × R} (h : row ∈ (ofRecords wire records).nsecs.rows) :
    row.2 ∈ records ∧ row.1 = owner wire row.2 ∧ ∃ next, wire.data row.2 = .nsec next := by
  induction records using List.reverseRecOn with
  | nil => cases h
  | append_singleton records record ih =>
    rw [ofRecords_snoc, nsecs_add] at h
    have hearlier (h : row ∈ (ofRecords wire records).nsecs.rows) :
        row.2 ∈ records ++ [record] ∧ row.1 = owner wire row.2 ∧ ∃ next, wire.data row.2 = .nsec next :=
      ⟨List.mem_append_left _ (ih h).1, (ih h).2⟩
    split at h
    next next hdata =>
      rcases OrderedTable.mem_insertRow h with rfl | h
      · exact ⟨List.mem_append_right _ (List.mem_singleton_self record), rfl, next, hdata⟩
      · exact hearlier h
    next => exact hearlier h

theorem nsecs_of_nsec {records : List R} {record : R} {next : WireName} (hrecord : record ∈ records)
    (hdata : wire.data record = .nsec next) : ∃ row ∈ (ofRecords wire records).nsecs.rows, row.1 = owner wire record := by
  suffices hget : ((ofRecords wire records).nsecs.get (canonicalKey (owner wire record))).isSome by
    obtain ⟨row, hrow⟩ := Option.isSome_iff_exists.mp hget
    have hkey := OrderedTable.key_of_get hrow
    exact ⟨row, OrderedTable.mem_of_get hrow, canonicalKey_injective hkey⟩
  induction records using List.reverseRecOn with
  | nil => cases hrecord
  | append_singleton records last ih =>
    rw [ofRecords_snoc, nsecs_add]
    rcases List.mem_append.mp hrecord with hrecord | hlast
    · split
      · rw [OrderedTable.get_put]
        split
        · rfl
        · exact ih hrecord
      · exact ih hrecord
    · rw [← List.mem_singleton.mp hlast, hdata]
      simp only [OrderedTable.get_put]
      rfl

end Indexes

end DaygleDns.Authoritative.Root
