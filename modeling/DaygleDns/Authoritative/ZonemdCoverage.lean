import DaygleDns.Canonical
import DaygleDns.Fallible
import DaygleDns.Framing
import DaygleDns.Text
import Mathlib.Data.Prod.Lex
import Mathlib.Order.Defs.LinearOrder

/-! The digest of a zone that its ZONEMD record carries, and what it covers. -/
namespace DaygleDns.Authoritative

open Text Framing Fallible Canonical

section Digest

/-- Names and record data as Hickory has them. `Lower` is the type of names in
lower case, whose order is the canonical one. -/
structure RecordForms (Name Lower RData : Type) where
  toLowercase : Name → Lower
  zoneOf : Name → Name → Bool
  emitName : Lower → Except Text Bytes
  recordType : RData → UInt16
  /-- The type an RRSIG covers. -/
  typeCovered : RData → Option UInt16
  /-- The canonical form. -/
  emitRData : RData → Except Text Bytes
  nameText : Name → Text
  typeText : UInt16 → Text

structure ZoneRecord (Name RData : Type) where
  name : Name
  ttl : UInt32
  dnsClass : UInt16
  data : RData
deriving DecidableEq, Repr

/-- The type of ZONEMD records. -/
def zonemd : UInt16 := 63

structure DigestEntry (Name Lower RData : Type) where
  name : Lower
  rtype : UInt16
  rdata : Bytes
  record : ZoneRecord Name RData

namespace RecordForms

variable {Name Lower RData : Type} [LinearOrder Lower] (forms : RecordForms Name Lower RData)

def canonicalRData (record : ZoneRecord Name RData) : Except Text Bytes :=
  (forms.emitRData record.data).mapError fun e =>
    "cannot encode " ++ forms.nameText record.name ++ " " ++
      forms.typeText (forms.recordType record.data) ++ ": " ++ e

/-- Whether the digest covers the record: it is in the zone, and neither the
ZONEMD of the apex nor a signature of it. Names compare whatever their case. -/
def inDigest (origin : Name) (record : ZoneRecord Name RData) : Bool :=
  forms.zoneOf origin record.name &&
    !(decide (forms.toLowercase record.name = forms.toLowercase origin) &&
      (forms.recordType record.data == zonemd || forms.typeCovered record.data == some zonemd))

def digestEntry (record : ZoneRecord Name RData) : Except Text (DigestEntry Name Lower RData) := do
  let rdata ← forms.canonicalRData record
  pure ⟨forms.toLowercase record.name, forms.recordType record.data, rdata, record⟩

def digestEntries (origin : Name) (records : List (ZoneRecord Name RData)) :
    Except Text (List (DigestEntry Name Lower RData)) :=
  (records.filter (forms.inDigest origin)).mapM forms.digestEntry

end RecordForms

variable {Name Lower RData : Type} [LinearOrder Lower]

/-- Owner name, then type, then data as unsigned octets. -/
def DigestEntry.key (entry : DigestEntry Name Lower RData) : Lower ×ₗ ℕ ×ₗ List ℕ :=
  toLex (entry.name, toLex (entry.rtype.toNat, entry.rdata.map UInt8.toNat))

namespace RecordForms

variable (forms : RecordForms Name Lower RData)

/-- `rdata.len() as u16` keeps the low sixteen bits. -/
def encodeEntry (entry : DigestEntry Name Lower RData) : Except Text Bytes := do
  let name ← forms.emitName entry.name
  pure (name ++ be16 entry.rtype.toNat ++ be16 entry.record.dnsClass.toNat ++
    toBeBytes 4 entry.record.ttl.toNat ++ be16 entry.rdata.length ++ entry.rdata)

/-- The bytes that are hashed, one entry after the other. -/
def hashedBytes (entries : List (DigestEntry Name Lower RData)) : Except Text Bytes := do
  let parts ← (canonical DigestEntry.key entries).mapM forms.encodeEntry
  pure parts.flatten

def digestInput (origin : Name) (records : List (ZoneRecord Name RData)) : Except Text Bytes := do
  let entries ← forms.digestEntries origin records
  forms.hashedBytes entries

end RecordForms

structure Hashes where
  sha384 : Bytes → Bytes
  sha512 : Bytes → Bytes

def Hashes.hasher (hashes : Hashes) (hashAlgorithm : UInt8) : Except Text (Bytes → Bytes) :=
  if hashAlgorithm = 1 then .ok hashes.sha384
  else if hashAlgorithm = 2 then .ok hashes.sha512
  else .error ("unsupported ZONEMD hash algorithm " ++ ofNat hashAlgorithm.toNat)

def zoneDigest (forms : RecordForms Name Lower RData) (hashes : Hashes) (origin : Name)
    (records : List (ZoneRecord Name RData)) (hashAlgorithm : UInt8) : Except Text Bytes := do
  let entries ← forms.digestEntries origin records
  let hasher ← hashes.hasher hashAlgorithm
  let bytes ← forms.hashedBytes entries
  pure (hasher bytes)

end Digest

/-! What is covered. -/

/-- What is hashed of a record. -/
structure DigestItem (Lower : Type) where
  owner : Lower
  rtype : UInt16
  dnsClass : UInt16
  ttl : UInt32
  rdata : Bytes
deriving DecidableEq, Repr

variable {Name Lower RData : Type}

def DigestEntry.item (entry : DigestEntry Name Lower RData) : DigestItem Lower where
  owner := entry.name
  rtype := entry.rtype
  dnsClass := entry.record.dnsClass
  ttl := entry.record.ttl
  rdata := entry.rdata

/-- The part of an item that duplicates are told by. -/
def DigestItem.key (item : DigestItem Lower) : Lower ×ₗ ℕ ×ₗ List ℕ :=
  toLex (item.owner, toLex (item.rtype.toNat, item.rdata.map UInt8.toNat))

namespace RecordForms

variable (forms : RecordForms Name Lower RData)

/-- Names on the wire say where they end, and the encoder's buffer ends at
65,535 bytes. -/
structure Lawful : Prop where
  emitName_apart : ∀ a b x y s t, forms.emitName a = .ok x → forms.emitName b = .ok y →
    x ++ s = y ++ t → a = b ∧ s = t
  emitRData_short : ∀ data bytes, forms.emitRData data = .ok bytes → bytes.length < 65536

def coveredItem (record : ZoneRecord Name RData) : Option (DigestItem Lower) :=
  match forms.emitRData record.data with
  | .ok rdata => some ⟨forms.toLowercase record.name, forms.recordType record.data, record.dnsClass,
      record.ttl, rdata⟩
  | .error _ => none

def encodeItem (item : DigestItem Lower) : Except Text Bytes := do
  let name ← forms.emitName item.owner
  pure (name ++ be16 item.rtype.toNat ++ be16 item.dnsClass.toNat ++ toBeBytes 4 item.ttl.toNat ++
    be16 item.rdata.length ++ item.rdata)

theorem digestEntry_eq_ok {record : ZoneRecord Name RData} {entry : DigestEntry Name Lower RData}
    (h : forms.digestEntry record = .ok entry) :
    forms.emitRData record.data = .ok entry.rdata ∧ forms.coveredItem record = some entry.item := by
  unfold digestEntry canonicalRData at h
  unfold coveredItem
  cases hdata : forms.emitRData record.data with
  | error e =>
    rw [hdata] at h
    cases h
  | ok rdata =>
    rw [hdata] at h
    cases h
    exact ⟨rfl, rfl⟩

theorem digestEntry_ok {record : ZoneRecord Name RData} {bytes : Bytes}
    (h : forms.emitRData record.data = .ok bytes) :
    ∃ entry, forms.digestEntry record = .ok entry := by
  unfold digestEntry canonicalRData
  rw [h]
  exact ⟨_, rfl⟩

/-- An item as it is written. -/
def Writes (item : DigestItem Lower) (bytes : Bytes) : Prop :=
  forms.encodeItem item = .ok bytes ∧ item.rdata.length < 65536

variable {forms} in
theorem Lawful.delimits (h : forms.Lawful) : Delimits forms.Writes := by
  constructor
  · rintro a b x y s t ⟨ha, hashort⟩ ⟨hb, hbshort⟩ hsame
    rcases bind_eq_ok.mp ha with ⟨nameA, hnameA, hx⟩
    rcases bind_eq_ok.mp hb with ⟨nameB, hnameB, hy⟩
    cases hx
    cases hy
    simp only [List.append_assoc] at hsame
    rcases h.emitName_apart _ _ _ _ _ _ hnameA hnameB hsame with ⟨howner, hsame⟩
    rcases List.append_inj hsame (by simp [be16]) with ⟨htype, hsame⟩
    rcases List.append_inj hsame (by simp [be16]) with ⟨hclass, hsame⟩
    rcases List.append_inj hsame (by simp) with ⟨httl, hsame⟩
    rcases List.append_inj hsame (by simp [be16]) with ⟨hlength, hsame⟩
    have hlength : a.rdata.length = b.rdata.length := toBeBytes_injective hashort hbshort hlength
    rcases List.append_inj hsame hlength with ⟨hdata, htail⟩
    have htype : a.rtype = b.rtype :=
      UInt16.toNat_inj.mp (toBeBytes_injective a.rtype.toNat_lt b.rtype.toNat_lt htype)
    have hclass : a.dnsClass = b.dnsClass :=
      UInt16.toNat_inj.mp (toBeBytes_injective a.dnsClass.toNat_lt b.dnsClass.toNat_lt hclass)
    have httl : a.ttl = b.ttl :=
      UInt32.toNat_inj.mp (toBeBytes_injective a.ttl.toNat_lt b.ttl.toNat_lt httl)
    refine ⟨?_, htail⟩
    cases a
    cases b
    simp_all
  · rintro a x ⟨ha, _⟩ hnil
    rcases bind_eq_ok.mp ha with ⟨name, _, hx⟩
    cases hx
    have hlength := congrArg List.length hnil
    simp [be16] at hlength

variable [LinearOrder Lower]

/-- Owner in lower case, type, class, TTL and canonical data of the records in
the zone, without the apex ZONEMD RRset and its signatures. -/
def coveredItems (origin : Name) (records : List (ZoneRecord Name RData)) : List (DigestItem Lower) :=
  (records.filter (forms.inDigest origin)).filterMap forms.coveredItem

/-- An earlier record of the same owner, type and data has another class or TTL. -/
def Shadowed (origin : Name) (records : List (ZoneRecord Name RData)) (item : DigestItem Lower) : Prop :=
  item ∈ forms.coveredItems origin records ∧
    ¬ First DigestItem.key (forms.coveredItems origin records) item

theorem digestEntries_items {origin : Name} {records : List (ZoneRecord Name RData)}
    {entries : List (DigestEntry Name Lower RData)}
    (h : forms.digestEntries origin records = .ok entries) :
    entries.map DigestEntry.item = forms.coveredItems origin records := by
  unfold digestEntries at h
  unfold coveredItems
  generalize records.filter (forms.inDigest origin) = inside at h
  have hentries := mapM_eq_ok.mp h
  clear h
  induction hentries with
  | nil => rfl
  | cons hentry _ ih => rw [List.map_cons, ih, List.filterMap_cons, (forms.digestEntry_eq_ok hentry).2]

/-- The items hashed: of those with one owner, type and data the first. -/
def hashedItems (origin : Name) (records : List (ZoneRecord Name RData)) : List (DigestItem Lower) :=
  canonical DigestItem.key (forms.coveredItems origin records)

theorem digestInput_eq_ok {origin : Name} {records : List (ZoneRecord Name RData)} {bytes : Bytes} :
    forms.digestInput origin records = .ok bytes ↔
      (∃ entries, forms.digestEntries origin records = .ok entries) ∧
      ∃ parts, (forms.hashedItems origin records).mapM forms.encodeItem = .ok parts ∧
        parts.flatten = bytes := by
  unfold digestInput hashedBytes
  rw [bind_eq_ok]
  have hitems : ∀ entries, forms.digestEntries origin records = .ok entries →
      (canonical DigestEntry.key entries).mapM forms.encodeEntry =
        (forms.hashedItems origin records).mapM forms.encodeItem := by
    intro entries hentries
    have hview : (canonical DigestEntry.key entries).map DigestEntry.item =
        forms.hashedItems origin records := by
      unfold hashedItems
      rw [← forms.digestEntries_items hentries]
      have hkey : ∀ entry : DigestEntry Name Lower RData, entry.item.key = entry.key := fun _ => rfl
      exact map_canonical hkey entries
    rw [← hview, List.mapM_map]
    rfl
  constructor
  · rintro ⟨entries, hentries, hbytes⟩
    rcases bind_eq_ok.mp hbytes with ⟨parts, hparts, hflat⟩
    rw [hitems entries hentries] at hparts
    exact ⟨⟨entries, hentries⟩, parts, hparts, Except.ok.inj hflat⟩
  · rintro ⟨⟨entries, hentries⟩, parts, hparts, rfl⟩
    refine ⟨entries, hentries, bind_eq_ok.mpr ⟨parts, ?_, rfl⟩⟩
    rw [hitems entries hentries]
    exact hparts

/-- Every record in the zone can be encoded. -/
theorem digestEntries_ok_iff {origin : Name} {records : List (ZoneRecord Name RData)} :
    (∃ entries, forms.digestEntries origin records = .ok entries) ↔
      ∀ record ∈ records, forms.inDigest origin record = true →
        ∃ bytes, forms.emitRData record.data = .ok bytes := by
  unfold digestEntries
  rw [mapM_ok_iff]
  constructor
  · intro h record hrecord hinside
    rcases h record (List.mem_filter.mpr ⟨hrecord, hinside⟩) with ⟨entry, hentry⟩
    exact ⟨entry.rdata, (forms.digestEntry_eq_ok hentry).1⟩
  · intro h record hrecord
    rcases List.mem_filter.mp hrecord with ⟨hmem, hinside⟩
    rcases h record hmem hinside with ⟨bytes, hbytes⟩
    exact forms.digestEntry_ok hbytes

variable {forms}

/-- The hashed bytes tell which items were hashed. -/
theorem Lawful.hashedItems_eq (hforms : forms.Lawful) {origin : Name}
    {first second : List (ZoneRecord Name RData)} {bytes : Bytes}
    (hfirst : forms.digestInput origin first = .ok bytes)
    (hsecond : forms.digestInput origin second = .ok bytes) :
    forms.hashedItems origin first = forms.hashedItems origin second := by
  have hwrites : ∀ {records : List (ZoneRecord Name RData)} {parts : List Bytes},
      (forms.hashedItems origin records).mapM forms.encodeItem = .ok parts →
        List.Forall₂ forms.Writes (forms.hashedItems origin records) parts := by
    intro records parts hparts
    have hshort : ∀ item ∈ forms.hashedItems origin records, item.rdata.length < 65536 := by
      intro item hitem
      rcases List.mem_filterMap.mp (canonical_subset _ hitem) with ⟨record, _, hcovered⟩
      unfold coveredItem at hcovered
      split at hcovered
      next rdata hdata =>
        cases hcovered
        exact hforms.emitRData_short _ _ hdata
      next => cases hcovered
    have hboth := (List.forall₂_and_left _ _).mpr ⟨hshort, mapM_eq_ok.mp hparts⟩
    exact hboth.imp fun item part h => ⟨h.2, h.1⟩
  rcases (digestInput_eq_ok forms).mp hfirst with ⟨_, firstParts, hfirstParts, hfirstBytes⟩
  rcases (digestInput_eq_ok forms).mp hsecond with ⟨_, secondParts, hsecondParts, hsecondBytes⟩
  exact hforms.delimits.flatten_injective (hwrites hfirstParts) (hwrites hsecondParts)
    (hfirstBytes.trans hsecondBytes.symm)

/-- An item that is covered is hashed, or shadowed by the one that is. -/
theorem mem_coveredItems_iff {origin : Name} {records : List (ZoneRecord Name RData)}
    {item : DigestItem Lower} : item ∈ forms.coveredItems origin records ↔
      item ∈ forms.hashedItems origin records ∨ forms.Shadowed origin records item := by
  unfold Shadowed hashedItems
  rw [mem_canonical]
  constructor
  · intro hitem
    by_cases hfirst : First DigestItem.key (forms.coveredItems origin records) item
    · exact .inl hfirst
    · exact .inr ⟨hitem, hfirst⟩
  · rintro (hfirst | ⟨hitem, _⟩)
    · exact hfirst.mem
    · exact hitem

theorem not_shadowed_of_hashed {origin : Name} {records : List (ZoneRecord Name RData)}
    {item : DigestItem Lower} (h : item ∈ forms.hashedItems origin records) :
    ¬ forms.Shadowed origin records item := fun hshadowed =>
  hshadowed.2 ((mem_canonical _ item).mp h)

theorem coveredItems_perm {origin : Name} {first second : List (ZoneRecord Name RData)}
    (h : first.Perm second) :
    (forms.coveredItems origin first).Perm (forms.coveredItems origin second) :=
  (h.filter _).filterMap _

/-- With nothing shadowed, the order of the records does not matter. -/
theorem digestInput_perm {origin : Name} {first second : List (ZoneRecord Name RData)} {bytes : Bytes}
    (hperm : second.Perm first) (hclear : ∀ item, ¬ forms.Shadowed origin first item)
    (h : forms.digestInput origin first = .ok bytes) :
    forms.digestInput origin second = .ok bytes := by
  rcases (digestInput_eq_ok forms).mp h with ⟨hentries, hparts⟩
  have hitems := @coveredItems_perm _ _ _ forms _ origin _ _ hperm
  have hcovered : ∀ item, item ∈ forms.coveredItems origin first ↔
      item ∈ forms.hashedItems origin first := by
    intro item
    rw [mem_coveredItems_iff]
    simp [hclear item]
  have hhashed : forms.hashedItems origin second = forms.hashedItems origin first := by
    refine eq_of_mem_iff (canonical_strict _) (canonical_strict _) fun item => ?_
    refine Iff.trans ?_ (hcovered item)
    constructor
    · exact fun hitem => hitems.mem_iff.mp (canonical_subset _ hitem)
    · intro hitem
      refine (mem_canonical _ item).mpr (first_of_unique (hitems.mem_iff.mpr hitem) ?_)
      intro other hother hsame
      have hfirst := (mem_canonical _ other).mp ((hcovered other).mp (hitems.mem_iff.mp hother))
      exact hfirst.unique ((mem_canonical _ item).mp ((hcovered item).mp hitem)) hsame
  refine (digestInput_eq_ok forms).mpr ⟨?_, ?_⟩
  · rw [digestEntries_ok_iff] at hentries ⊢
    exact fun record hrecord => hentries record (hperm.mem_iff.mp hrecord)
  · rw [hhashed]
    exact hparts

/-- An item that the order of the records can bring to the front is hashed. -/
theorem exists_perm_hashed {origin : Name} {records : List (ZoneRecord Name RData)}
    {item : DigestItem Lower} (h : item ∈ forms.coveredItems origin records) :
    ∃ other, other.Perm records ∧ item ∈ forms.hashedItems origin other := by
  rcases List.mem_filterMap.mp h with ⟨record, hrecord, hitem⟩
  rcases List.mem_filter.mp hrecord with ⟨hmem, hinside⟩
  rcases List.append_of_mem hmem with ⟨before, after, rfl⟩
  refine ⟨record :: (before ++ after), List.perm_middle.symm, (mem_canonical _ item).mpr ?_⟩
  unfold coveredItems
  rw [List.filter_cons_of_pos hinside, List.filterMap_cons, hitem]
  exact first_cons _ item

end RecordForms

/-! Names as lists of labels, the root's first. -/

abbrev Labels := List (List ℕ)

def lowerLabels (name : Labels) : Labels :=
  name.map fun label => label.map fun c => if 65 ≤ c ∧ c ≤ 90 then c + 32 else c

/-- Labels in wire order, each behind its length. -/
def wireLabels : Labels → Bytes
  | [] => [0]
  | label :: labels => UInt8.ofNat label.length :: label.map UInt8.ofNat ++ wireLabels labels

def WireLabel (label : List ℕ) : Prop := 0 < label.length ∧ label.length < 64 ∧ ∀ c ∈ label, c < 256

instance (label : List ℕ) : Decidable (WireLabel label) :=
  inferInstanceAs (Decidable (_ ∧ _ ∧ _))

theorem map_ofNat_injective {a b : List ℕ} (ha : ∀ c ∈ a, c < 256) (hb : ∀ c ∈ b, c < 256)
    (h : a.map UInt8.ofNat = b.map UInt8.ofNat) : a = b := by
  have hread : ∀ {label : List ℕ}, (∀ c ∈ label, c < 256) →
      (label.map UInt8.ofNat).map UInt8.toNat = label := by
    intro label hlabel
    rw [List.map_map]
    conv => rhs; rw [← List.map_id label]
    apply List.map_congr_left
    intro c hc
    exact UInt8.toNat_ofNat_of_lt' (hlabel c hc)
  rw [← hread ha, ← hread hb, h]

theorem wireLabels_apart {a b : Labels} {s t : Bytes} (ha : ∀ label ∈ a, WireLabel label)
    (hb : ∀ label ∈ b, WireLabel label) (h : wireLabels a ++ s = wireLabels b ++ t) :
    a = b ∧ s = t := by
  have hlength : ∀ {label : List ℕ}, WireLabel label → (UInt8.ofNat label.length).toNat = label.length :=
    fun hlabel => UInt8.toNat_ofNat_of_lt' (Nat.lt_trans hlabel.2.1 (by decide))
  induction a generalizing b with
  | nil =>
    cases b with
    | nil => exact ⟨rfl, List.cons.inj h |>.2⟩
    | cons label labels =>
      have hfirst := congrArg UInt8.toNat (List.cons.inj h).1
      have hlabel := hb label List.mem_cons_self
      rw [hlength hlabel] at hfirst
      exact absurd hlabel.1 (by rw [← hfirst]; decide)
  | cons first rest ih =>
    have hfirst := ha first List.mem_cons_self
    cases b with
    | nil =>
      have hzero := congrArg UInt8.toNat (List.cons.inj h).1
      rw [hlength hfirst] at hzero
      exact absurd hfirst.1 (by rw [hzero]; decide)
    | cons label labels =>
      have hlabel := hb label List.mem_cons_self
      have hsame := congrArg UInt8.toNat (List.cons.inj h).1
      rw [hlength hfirst, hlength hlabel] at hsame
      have htail : (first.map UInt8.ofNat ++ wireLabels rest) ++ s =
          (label.map UInt8.ofNat ++ wireLabels labels) ++ t := (List.cons.inj h).2
      rw [List.append_assoc, List.append_assoc] at htail
      rcases List.append_inj htail (by simpa using hsame) with ⟨hmap, htail⟩
      have hequal := map_ofNat_injective hfirst.2.2 hlabel.2.2 hmap
      rcases ih (fun other hother => ha other (List.mem_cons_of_mem _ hother))
        (fun other hother => hb other (List.mem_cons_of_mem _ hother)) htail with ⟨hrest, hend⟩
      exact ⟨by rw [hequal, hrest], hend⟩

/-- Record data as its type and its canonical form, without signatures. -/
def labelForms : RecordForms Labels Labels (UInt16 × Bytes) where
  toLowercase := lowerLabels
  zoneOf := fun zone name => (lowerLabels zone).isPrefixOf (lowerLabels name)
  emitName := fun name =>
    if ∀ label ∈ name, WireLabel label then .ok (wireLabels name.reverse)
    else .error "label bytes exceed 63"
  recordType := Prod.fst
  typeCovered := fun _ => none
  emitRData := fun data =>
    if data.2.length < 65536 then .ok data.2 else .error "exceeded maximum buffer size"
  nameText := fun name => (name.reverse.map fun label => label.map Char.ofNat ++ ['.']).flatten
  typeText := fun rtype => ofNat rtype.toNat

theorem labelForms_lawful : labelForms.Lawful := by
  constructor
  · intro a b x y s t ha hb h
    dsimp only [labelForms] at ha hb
    split at ha
    next hvalid =>
      split at hb
      next hvalid' =>
        cases ha
        cases hb
        rcases wireLabels_apart (fun label hlabel => hvalid label (List.mem_reverse.mp hlabel))
          (fun label hlabel => hvalid' label (List.mem_reverse.mp hlabel)) h with ⟨hname, hrest⟩
        exact ⟨List.reverse_injective hname, hrest⟩
      next => cases hb
    next => cases ha
  · intro data bytes h
    dsimp only [labelForms] at h
    split at h
    next hshort =>
      cases h
      exact hshort
    next => cases h

def exampleLabels : Labels := [[101, 120, 97, 109, 112, 108, 101]]

/-- An address of `www.example.`, with its TTL. -/
def timedAddress (ttl : UInt32) : ZoneRecord Labels (UInt16 × Bytes) where
  name := exampleLabels ++ [[119, 119, 119]]
  ttl := ttl
  dnsClass := 1
  data := (1, [192, 0, 2, 1])

def timedItem (ttl : UInt32) : DigestItem Labels where
  owner := exampleLabels ++ [[119, 119, 119]]
  rtype := 1
  dnsClass := 1
  ttl := ttl
  rdata := [192, 0, 2, 1]

def timedBytes : Bytes :=
  [3, 119, 119, 119, 7, 101, 120, 97, 109, 112, 108, 101, 0] ++
    [0, 1, 0, 1, 0, 0, 14, 16, 0, 4, 192, 0, 2, 1]

variable [LinearOrder Lower]

open RecordForms in
/-- The hashed bytes tell the covered records but for those that are shadowed,
and depend on the order of the records only where one is. -/
theorem digestInput_covers_iff {forms : RecordForms Name Lower RData} (hforms : forms.Lawful) (origin : Name) :
    (∀ first second bytes, forms.digestInput origin first = .ok bytes →
      forms.digestInput origin second = .ok bytes →
        ((∀ item, item ∈ forms.coveredItems origin first ↔ item ∈ forms.coveredItems origin second) ↔
          (∀ item, forms.Shadowed origin first item → item ∈ forms.coveredItems origin second) ∧
            ∀ item, forms.Shadowed origin second item → item ∈ forms.coveredItems origin first)) ∧
    (∀ records bytes, forms.digestInput origin records = .ok bytes →
      ((∀ other, other.Perm records → forms.digestInput origin other = .ok bytes) ↔
        ∀ item, ¬ forms.Shadowed origin records item)) := by
  constructor
  · intro first second bytes hfirst hsecond
    have hhashed := hforms.hashedItems_eq hfirst hsecond
    constructor
    · intro hsame
      exact ⟨fun item h => (hsame item).mp h.1, fun item h => (hsame item).mpr h.1⟩
    · rintro ⟨hleft, hright⟩ item
      constructor
      · intro hitem
        rcases mem_coveredItems_iff.mp hitem with hitem | hitem
        · exact mem_coveredItems_iff.mpr (.inl (hhashed ▸ hitem))
        · exact hleft item hitem
      · intro hitem
        rcases mem_coveredItems_iff.mp hitem with hitem | hitem
        · exact mem_coveredItems_iff.mpr (.inl (hhashed ▸ hitem))
        · exact hright item hitem
  · intro records bytes hrecords
    constructor
    · intro hany item hshadowed
      rcases exists_perm_hashed hshadowed.1 with ⟨other, hperm, hitem⟩
      rw [hforms.hashedItems_eq (hany other hperm) hrecords] at hitem
      exact not_shadowed_of_hashed hitem hshadowed
    · exact fun hclear other hperm => digestInput_perm hperm hclear hrecords

/-- A second copy of a record with another TTL leaves no trace, and the other
way round the first does not. -/
theorem digestInput_covers_fails :
    (labelForms.digestInput exampleLabels [timedAddress 3600] = .ok timedBytes ∧
      labelForms.digestInput exampleLabels [timedAddress 3600, timedAddress 60] = .ok timedBytes ∧
      timedItem 60 ∈ labelForms.coveredItems exampleLabels [timedAddress 3600, timedAddress 60] ∧
      timedItem 60 ∉ labelForms.coveredItems exampleLabels [timedAddress 3600]) ∧
    labelForms.digestInput exampleLabels [timedAddress 60, timedAddress 3600] ≠ .ok timedBytes := by
  refine ⟨⟨?_, ?_, ?_, ?_⟩, ?_⟩ <;> decide

/-- Both parts for the records of that failure. -/
theorem digestInput_covers_iff_timed :
    ((∀ item, item ∈ labelForms.coveredItems exampleLabels [timedAddress 3600] ↔
        item ∈ labelForms.coveredItems exampleLabels [timedAddress 3600, timedAddress 60]) ↔
      (∀ item, labelForms.Shadowed exampleLabels [timedAddress 3600] item →
        item ∈ labelForms.coveredItems exampleLabels [timedAddress 3600, timedAddress 60]) ∧
      ∀ item, labelForms.Shadowed exampleLabels [timedAddress 3600, timedAddress 60] item →
        item ∈ labelForms.coveredItems exampleLabels [timedAddress 3600]) ∧
    ((∀ other, other.Perm [timedAddress 3600, timedAddress 60] →
        labelForms.digestInput exampleLabels other = .ok timedBytes) ↔
      ∀ item, ¬ labelForms.Shadowed exampleLabels [timedAddress 3600, timedAddress 60] item) := by
  have hiff := digestInput_covers_iff labelForms_lawful exampleLabels
  have hfirst : labelForms.digestInput exampleLabels [timedAddress 3600] = .ok timedBytes := by
    decide
  have hsecond : labelForms.digestInput exampleLabels [timedAddress 3600, timedAddress 60] =
      .ok timedBytes := by decide
  exact ⟨hiff.1 _ _ timedBytes hfirst hsecond, hiff.2 _ timedBytes hsecond⟩

end DaygleDns.Authoritative
