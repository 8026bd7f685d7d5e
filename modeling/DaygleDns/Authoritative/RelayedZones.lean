import DaygleDns.Authoritative.ReceivedTransfers
import DaygleDns.Authoritative.StoredTransfers
import Mathlib.Data.List.Lex
import Mathlib.Data.Prod.Lex

/-! Zones that are transferred as they are served, from one server to the next. -/
namespace DaygleDns.Authoritative

open Text Framing Fallible

/-- The order in which a map of RRsets is gone through. -/
structure KeyOrder where
  le : RrKey → RrKey → Bool
  trans : ∀ a b c, le a b = true → le b c = true → le a c = true
  total : ∀ a b, (le a b || le b a) = true
  antisymm : ∀ a b, le a b = true → le b a = true → a = b

variable {S : Type}

def KeyOrder.entries (order : KeyOrder) (served : KeyedMap RrKey S) : List (RrKey × S) :=
  (served.entries.map fun entry => (entry.1, entry.2)).mergeSort fun first second => order.le first.1 second.1

/-- One turn of the loop over the RRsets: the SOA is kept apart, its signatures are not. -/
def transferSet (builder : ZoneBuilder S) (s : Option MessageRecord × List MessageRecord) (entry : RrKey × S) :
    Option MessageRecord × List MessageRecord :=
  if entry.1.recordType = .soa then
    ((builder.recordsWithoutRrsigs entry.2).head?, s.2 ++ builder.rrsigs entry.2)
  else (s.1, s.2 ++ (builder.recordsWithoutRrsigs entry.2 ++ builder.rrsigs entry.2))

/-- `transfer_records` of a zone that is transferred as it is served. -/
def transferRecords (builder : ZoneBuilder S) (order : KeyOrder) (served : KeyedMap RrKey S) :
    Option (MessageRecord × List MessageRecord) :=
  let s := (order.entries served).foldl (transferSet builder) (none, [])
  s.1.map fun soa => (soa, s.2)

/-- Each RRset has records of its own, with signatures on it, and none but the zone's own name has an SOA. -/
structure SoundZone (builder : ZoneBuilder S) (served : KeyedMap RrKey S) : Prop where
  own {key : RrKey} {set : S} : served.lookup key = some set → ∀ record ∈ builder.recordsWithoutRrsigs set,
    rrKey record = key ∧ coveredKey builder record = none
  filled {key : RrKey} {set : S} : served.lookup key = some set → builder.recordsWithoutRrsigs set ≠ []
  apart {key : RrKey} {set : S} : served.lookup key = some set →
    (builder.recordsWithoutRrsigs set).Pairwise fun first second => ¬ Replaces second first
  signed {key : RrKey} {set : S} : served.lookup key = some set → ∀ rrsig ∈ builder.rrsigs set,
    coveredKey builder rrsig = some key
  soa {key : RrKey} {set : S} : served.lookup key = some set → key.recordType = .soa →
    key.name = toAsciiLowercase builder.origin

/-! The entries in their order. -/

section Entries

variable {order : KeyOrder} {served : KeyedMap RrKey S}

theorem mem_entries {entry : RrKey × S} : entry ∈ order.entries served ↔ served.lookup entry.1 = some entry.2 := by
  rw [KeyOrder.entries, List.mem_mergeSort, ← Option.mem_def, AList.mem_lookup_iff]
  constructor
  · intro h
    obtain ⟨found, hfound, rfl⟩ := List.mem_map.mp h
    exact hfound
  · intro h
    exact List.mem_map.mpr ⟨_, h, rfl⟩

theorem nodup_entries : ((order.entries served).map Prod.fst).Nodup := by
  have hperm := (List.mergeSort_perm (served.entries.map fun entry => (entry.1, entry.2))
    fun first second => order.le first.1 second.1).map Prod.fst
  rw [List.map_map] at hperm
  exact hperm.nodup_iff.mpr served.nodupKeys

theorem sorted_entries : (order.entries served).Pairwise fun first second => order.le first.1 second.1 = true :=
  List.pairwise_mergeSort (fun first second third => order.trans first.1 second.1 third.1)
    (fun first second => order.total first.1 second.1) _

/-- What a map with another content of its RRsets goes through in the same order. -/
theorem entries_view {T : Type} {view : S → T} {other : KeyedMap RrKey S}
    (h : ∀ key, (other.lookup key).map view = (served.lookup key).map view) :
    (order.entries other).map (fun entry => (entry.1, view entry.2)) =
      (order.entries served).map fun entry => (entry.1, view entry.2) := by
  have hmem (map : KeyedMap RrKey S) (pair : RrKey × T) :
      pair ∈ (order.entries map).map (fun entry => (entry.1, view entry.2)) ↔ (map.lookup pair.1).map view = some pair.2 := by
    rw [List.mem_map, Option.map_eq_some_iff]
    constructor
    · rintro ⟨entry, hentry, rfl⟩
      exact ⟨entry.2, mem_entries.mp hentry, rfl⟩
    · rintro ⟨set, hset, hview⟩
      exact ⟨(pair.1, set), mem_entries.mpr hset, by rw [hview]⟩
  have hsorted (map : KeyedMap RrKey S) :
      ((order.entries map).map fun entry => (entry.1, view entry.2)).Pairwise fun first second =>
        order.le first.1 second.1 = true :=
    List.pairwise_map.mpr sorted_entries
  have hnodup (map : KeyedMap RrKey S) : ((order.entries map).map fun entry => (entry.1, view entry.2)).Nodup := by
    apply List.Nodup.of_map Prod.fst
    rw [List.map_map]
    exact nodup_entries
  refine List.Perm.eq_of_pairwise (fun first second hfirst hsecond hle hge => ?_) (hsorted other) (hsorted served) ?_
  · have hkey := order.antisymm _ _ hle hge
    have hvalue := (hmem other first).mp hfirst
    rw [h, hkey, (hmem served second).mp hsecond] at hvalue
    exact Prod.ext hkey (Option.some.inj hvalue).symm
  · refine (List.perm_ext_iff_of_nodup (hnodup other) (hnodup served)).mpr fun pair => ?_
    rw [hmem, hmem, h]

end Entries

/-! The records of a transfer. -/

section Stream

variable {builder : ZoneBuilder S} {order : KeyOrder} {served : KeyedMap RrKey S} {soa : MessageRecord}
  {others : List MessageRecord}

theorem flatMap_entries (items : S → List MessageRecord) (key : RrKey) :
    (order.entries served).flatMap (fun entry => if entry.1 = key then items entry.2 else []) =
      ((served.lookup key).map items).getD [] := by
  cases hset : served.lookup key with
  | some set => exact KeyedMap.flatMap_of_key nodup_entries items (mem_entries.mpr hset)
  | none =>
    refine List.flatMap_eq_nil_iff.mpr fun entry hentry => if_neg fun hkey => ?_
    have hsome := mem_entries.mp hentry
    rw [hkey, hset] at hsome
    cases hsome

def transferred (builder : ZoneBuilder S) (entry : RrKey × S) : List MessageRecord :=
  if entry.1.recordType = .soa then builder.rrsigs entry.2
  else builder.recordsWithoutRrsigs entry.2 ++ builder.rrsigs entry.2

theorem foldl_transferSet (entries : List (RrKey × S)) (s : Option MessageRecord × List MessageRecord) :
    (entries.foldl (transferSet builder) s).2 = s.2 ++ entries.flatMap (transferred builder) := by
  induction entries generalizing s with
  | nil => exact (List.append_nil _).symm
  | cons entry entries ih =>
    have hstep : (transferSet builder s entry).2 = s.2 ++ transferred builder entry := by
      unfold transferSet transferred
      split <;> rfl
    rw [List.foldl_cons, ih, hstep, List.flatMap_cons, List.append_assoc]

theorem soa_of_foldl {entries : List (RrKey × S)} {s : Option MessageRecord × List MessageRecord} {found : MessageRecord}
    (h : (entries.foldl (transferSet builder) s).1 = some found) :
    s.1 = some found ∨ ∃ entry ∈ entries, entry.1.recordType = .soa ∧
      (builder.recordsWithoutRrsigs entry.2).head? = some found := by
  induction entries generalizing s with
  | nil => exact .inl h
  | cons entry entries ih =>
    obtain hstep | ⟨later, hlater, hsoa⟩ := ih h
    · unfold transferSet at hstep
      split at hstep
      next htype => exact .inr ⟨entry, List.mem_cons_self, htype, hstep⟩
      next => exact .inl hstep
    · exact .inr ⟨later, List.mem_cons_of_mem _ hlater, hsoa⟩

theorem transferRecords_eq (h : transferRecords builder order served = some (soa, others)) :
    others = (order.entries served).flatMap (transferred builder) ∧
      ∃ key set, served.lookup key = some set ∧ key.recordType = .soa ∧
        (builder.recordsWithoutRrsigs set).head? = some soa := by
  unfold transferRecords at h
  obtain ⟨found, hfound, heq⟩ := Option.map_eq_some_iff.mp h
  cases heq
  refine ⟨foldl_transferSet _ _, ?_⟩
  obtain hnone | ⟨entry, hentry, htype, hhead⟩ := soa_of_foldl hfound
  · cases hnone
  · exact ⟨entry.1, entry.2, mem_entries.mp hentry, htype, hhead⟩

/-- Records of one RRset, among those of all. -/
theorem own_of_records {key : RrKey} {records : List MessageRecord}
    (h : ∀ record ∈ records, rrKey record = key ∧ coveredKey builder record = none) (other : RrKey) :
    ownRecords builder other records = (if key = other then records else []) ∧ coveringRrsigs builder other records = [] := by
  constructor
  · split
    next hkey =>
      refine List.filter_eq_self.mpr fun record hrecord => ?_
      rw [(h record hrecord).1, (h record hrecord).2, hkey, beq_self_eq_true, beq_self_eq_true]
      rfl
    next hkey =>
      refine List.filter_eq_nil_iff.mpr fun record hrecord => ?_
      rw [(h record hrecord).1, Bool.and_eq_true, beq_iff_eq, beq_iff_eq]
      exact fun hboth => hkey hboth.2
  · refine List.filter_eq_nil_iff.mpr fun record hrecord => ?_
    rw [(h record hrecord).2, beq_iff_eq]
    exact nofun

theorem covering_of_rrsigs {key : RrKey} {rrsigs : List MessageRecord}
    (h : ∀ rrsig ∈ rrsigs, coveredKey builder rrsig = some key) (other : RrKey) :
    ownRecords builder other rrsigs = [] ∧ coveringRrsigs builder other rrsigs = if key = other then rrsigs else [] := by
  constructor
  · refine List.filter_eq_nil_iff.mpr fun rrsig hrrsig => ?_
    rw [h rrsig hrrsig, Bool.and_eq_true, beq_iff_eq]
    exact fun hboth => nomatch hboth.1
  · split
    next hkey =>
      refine List.filter_eq_self.mpr fun rrsig hrrsig => ?_
      rw [h rrsig hrrsig, hkey, beq_self_eq_true]
    next hkey =>
      refine List.filter_eq_nil_iff.mpr fun rrsig hrrsig => ?_
      rw [h rrsig hrrsig, beq_iff_eq]
      exact fun hsame => hkey (Option.some.inj hsame)

theorem own_transferred (hsound : SoundZone builder served) (key : RrKey) :
    ownRecords builder key ((order.entries served).flatMap (transferred builder)) =
      if key.recordType = .soa then [] else ((served.lookup key).map builder.recordsWithoutRrsigs).getD [] := by
  have hpiece : ∀ entry ∈ order.entries served, ownRecords builder key (transferred builder entry) =
      if entry.1 = key then (if key.recordType = .soa then [] else builder.recordsWithoutRrsigs entry.2) else [] := by
    intro entry hentry
    have hset := mem_entries.mp hentry
    have hown := (own_of_records (hsound.own hset) key).1
    have hsigs := (covering_of_rrsigs (hsound.signed hset) key).1
    unfold transferred
    split
    next htype =>
      rw [hsigs]
      split
      next hkey => rw [if_pos (hkey ▸ htype)]
      next => rfl
    next htype =>
      rw [ownRecords, List.filter_append]
      change ownRecords builder key _ ++ ownRecords builder key _ = _
      rw [hown, hsigs, List.append_nil]
      split
      next hkey => rw [if_neg (hkey ▸ htype)]
      next => rfl
  rw [ownRecords, List.filter_flatMap]
  change (order.entries served).flatMap (fun entry => ownRecords builder key (transferred builder entry)) = _
  rw [List.flatMap_congr hpiece,
    flatMap_entries (fun set => if key.recordType = .soa then [] else builder.recordsWithoutRrsigs set) key]
  split
  · cases served.lookup key <;> rfl
  · rfl

theorem covering_transferred (hsound : SoundZone builder served) (key : RrKey) :
    coveringRrsigs builder key ((order.entries served).flatMap (transferred builder)) =
      ((served.lookup key).map builder.rrsigs).getD [] := by
  have hpiece : ∀ entry ∈ order.entries served, coveringRrsigs builder key (transferred builder entry) =
      if entry.1 = key then builder.rrsigs entry.2 else [] := by
    intro entry hentry
    have hset := mem_entries.mp hentry
    have hown := (own_of_records (hsound.own hset) key).2
    have hsigs := (covering_of_rrsigs (hsound.signed hset) key).2
    unfold transferred
    split
    · exact hsigs
    · rw [coveringRrsigs, List.filter_append]
      change coveringRrsigs builder key _ ++ coveringRrsigs builder key _ = _
      rw [hown, hsigs, List.nil_append]
  rw [coveringRrsigs, List.filter_flatMap]
  change (order.entries served).flatMap (fun entry => coveringRrsigs builder key (transferred builder entry)) = _
  rw [List.flatMap_congr hpiece, flatMap_entries]

/-- The SOA is the only record of its RRset. -/
theorem soa_alone (hsound : SoundZone builder served) {key : RrKey} {set : S} (hset : served.lookup key = some set)
    (htype : key.recordType = .soa) (hhead : (builder.recordsWithoutRrsigs set).head? = some soa) :
    builder.recordsWithoutRrsigs set = [soa] := by
  have hown := hsound.own hset
  have hapart := hsound.apart hset
  cases hrecords : builder.recordsWithoutRrsigs set with
  | nil =>
    rw [hrecords] at hhead
    cases hhead
  | cons first rest =>
    rw [hrecords] at hown hapart hhead
    have hfirst : first = soa := Option.some.inj hhead
    cases rest with
    | nil => rw [hfirst]
    | cons second rest =>
      have hsecond := (hown second (List.mem_cons_of_mem _ List.mem_cons_self)).1
      have hne := (List.pairwise_cons.mp hapart).1 second List.mem_cons_self
      refine absurd (.inr (.inl ?_)) hne
      rw [← htype, ← hsecond]
      rfl

/-- The records of a transfer give the RRsets of the zone again. -/
theorem rrsetOf_transfer (hsound : SoundZone builder served)
    (h : transferRecords builder order served = some (soa, others)) (key : RrKey) :
    rrsetOf builder key (soa :: others) = (served.lookup key).map builder.view := by
  obtain ⟨hothers, apex, set, hset, htype, hhead⟩ := transferRecords_eq h
  have halone := soa_alone hsound hset htype hhead
  have hsoa : ∀ record ∈ [soa], rrKey record = apex ∧ coveredKey builder record = none := by
    rw [← halone]
    exact hsound.own hset
  have hown : ownRecords builder key (soa :: others) = ((served.lookup key).map builder.recordsWithoutRrsigs).getD [] := by
    have hcons : ownRecords builder key (soa :: others) = ownRecords builder key [soa] ++ ownRecords builder key others :=
      List.filter_append [soa] others
    rw [hcons, (own_of_records hsoa key).1, hothers, own_transferred hsound]
    by_cases hkey : apex = key
    · rw [if_pos hkey, ← hkey, if_pos htype, List.append_nil, hset, Option.map_some, Option.getD_some, halone]
    · rw [if_neg hkey, List.nil_append]
      split
      next hother =>
        cases hlookup : served.lookup key with
        | none => rfl
        | some found =>
          refine absurd ?_ hkey
          have hname := (hsound.soa hset htype).trans (hsound.soa hlookup hother).symm
          cases apex
          cases key
          cases hname
          cases htype
          cases hother
          rfl
      next => rfl
  have hcovering : coveringRrsigs builder key (soa :: others) = ((served.lookup key).map builder.rrsigs).getD [] := by
    have hcons : coveringRrsigs builder key (soa :: others) =
        coveringRrsigs builder key [soa] ++ coveringRrsigs builder key others := List.filter_append [soa] others
    rw [hcons, (own_of_records hsoa key).2, hothers, covering_transferred hsound, List.nil_append]
  rw [rrsetOf, hown, hcovering]
  cases hlookup : served.lookup key with
  | none => rfl
  | some found => exact if_neg (hsound.filled hlookup)

theorem apart_transfer (hsound : SoundZone builder served)
    (h : transferRecords builder order served = some (soa, others)) (key : RrKey) :
    (ownRecords builder key (soa :: others)).Pairwise fun first second => ¬ Replaces second first := by
  have hrrset := rrsetOf_transfer hsound h key
  unfold rrsetOf at hrrset
  split at hrrset
  next hnil =>
    rw [hnil]
    exact List.Pairwise.nil
  next =>
    obtain ⟨set, hset, hview⟩ := Option.map_eq_some_iff.mp hrrset.symm
    have hrecords : builder.recordsWithoutRrsigs set = ownRecords builder key (soa :: others) := congrArg Prod.fst hview
    rw [← hrecords]
    exact hsound.apart hset

/-- A zone with the same RRsets is as sound, and is transferred with the same records. -/
theorem sound_of_view {other : KeyedMap RrKey S} (hsound : SoundZone builder served)
    (hview : ∀ key, (other.lookup key).map builder.view = (served.lookup key).map builder.view) : SoundZone builder other := by
  have hsame {key : RrKey} {set : S} (hset : other.lookup key = some set) :
      ∃ old, served.lookup key = some old ∧ builder.recordsWithoutRrsigs set = builder.recordsWithoutRrsigs old ∧
        builder.rrsigs set = builder.rrsigs old := by
    have hkey := hview key
    rw [hset, Option.map_some] at hkey
    obtain ⟨old, hold, heq⟩ := Option.map_eq_some_iff.mp hkey.symm
    exact ⟨old, hold, (congrArg Prod.fst heq).symm, (congrArg Prod.snd heq).symm⟩
  constructor
  · intro key set hset
    obtain ⟨old, hold, hrecords, _⟩ := hsame hset
    rw [hrecords]
    exact hsound.own hold
  · intro key set hset
    obtain ⟨old, hold, hrecords, _⟩ := hsame hset
    rw [hrecords]
    exact hsound.filled hold
  · intro key set hset
    obtain ⟨old, hold, hrecords, _⟩ := hsame hset
    rw [hrecords]
    exact hsound.apart hold
  · intro key set hset
    obtain ⟨old, hold, _, hrrsigs⟩ := hsame hset
    rw [hrrsigs]
    exact hsound.signed hold
  · intro key set hset htype
    obtain ⟨old, hold, _⟩ := hsame hset
    exact hsound.soa hold htype

theorem transferRecords_of_view {other : KeyedMap RrKey S}
    (hview : ∀ key, (other.lookup key).map builder.view = (served.lookup key).map builder.view) :
    transferRecords builder order other = transferRecords builder order served := by
  have hstep (s : Option MessageRecord × List MessageRecord) (entry : RrKey × S) :
      transferSet builder s entry =
        if entry.1.recordType = .soa then ((builder.view entry.2).1.head?, s.2 ++ (builder.view entry.2).2)
        else (s.1, s.2 ++ ((builder.view entry.2).1 ++ (builder.view entry.2).2)) := rfl
  have hfold (map : KeyedMap RrKey S) (s : Option MessageRecord × List MessageRecord) :
      (order.entries map).foldl (transferSet builder) s =
        ((order.entries map).map fun entry => (entry.1, builder.view entry.2)).foldl
          (fun s entry => if entry.1.recordType = .soa then (entry.2.1.head?, s.2 ++ entry.2.2)
            else (s.1, s.2 ++ (entry.2.1 ++ entry.2.2))) s := by
    rw [List.foldl_map]
    exact congrArg (fun step => (order.entries map).foldl step s) (funext₂ hstep)
  unfold transferRecords
  rw [hfold, hfold, entries_view hview]

/-- None of the records between the two SOAs of a transfer is one. -/
theorem others_not_soa (hlawful : builder.Lawful) (hsound : SoundZone builder served)
    (h : transferRecords builder order served = some (soa, others)) : ∀ record ∈ others, isSoa record = false := by
  obtain ⟨hothers, _⟩ := transferRecords_eq h
  rw [hothers]
  intro record hrecord
  obtain ⟨entry, hentry, hpiece⟩ := List.mem_flatMap.mp hrecord
  have hset := mem_entries.mp hentry
  have hrrsigs : ∀ rrsig ∈ builder.rrsigs entry.2, isSoa rrsig = false := by
    intro rrsig hrrsig
    have hcovered := hsound.signed hset rrsig hrrsig
    unfold coveredKey at hcovered
    split at hcovered
    next typeCovered hkind =>
      have htype : rrsig.recordType = ⟨"RRSIG", by decide⟩ := hlawful.rrsigType _ _ hkind
      rw [isSoa, htype]
      decide
    next => cases hcovered
  unfold transferred at hpiece
  split at hpiece
  next => exact hrrsigs record hpiece
  next htype =>
    rcases List.mem_append.mp hpiece with hown | hrrsig
    · rw [isSoa, beq_eq_false_iff_ne]
      rw [← (hsound.own hset record hown).1] at htype
      exact htype
    · exact hrrsigs record hrrsig

end Stream

/-! One server after the other. -/

/-- A secondary server: the server that it pulls the zone from, and the serial that it asks with. -/
structure Puller where
  server : TransferServer
  client : XfrClient
  clock : Text → Nat → UInt64
  address : List UInt8
  master : Text
  zone : Text
  current : Option UInt32

def Puller.receive (puller : Puller) : Except DaygleError (Option ReceivedTransfer) :=
  receiveTransfer puller.client (puller.server.master puller.clock puller.address puller.master) puller.zone puller.current

/-- The server gives the zone to the client, in messages that it can read in time. -/
structure Puller.Gets (puller : Puller) (tsigFields : Text → Tsig → Bytes) (soa : MessageRecord) (others : List MessageRecord) :
    Prop where
  codec : puller.server.codec.LawfulRequests tsigFields
  serves : ServesTo puller.server puller.client puller.address puller.zone soa others
  serial : ∃ serial, soa.soaSerial = some serial ∧
    ∀ current, puller.current = some current → serialNewer serial current = true
  count : (transferChunks puller.server.codec (soa :: others ++ [soa])).length ≤ maxMessages
  fits : Fits puller.server puller.client puller.clock puller.address (buildQuery puller.zone "AXFR") (soa :: others ++ [soa])
  inTime : ∀ key, puller.client.tsig = some key →
    InTime puller.client puller.clock "AXFR" (transferChunks puller.server.codec (soa :: others ++ [soa])).length key
  ixfr : ∀ current, puller.current = some current →
    Fits puller.server puller.client puller.clock puller.address (ixfrQuery puller.zone current) (soa :: others ++ [soa]) ∧
      ∀ key, puller.client.tsig = some key →
        InTime puller.client puller.clock "IXFR" (transferChunks puller.server.codec (soa :: others ++ [soa])).length key

/-- The zones that a zone is served as, by a server that pulls it from another and so on. -/
inductive Relayed (builder : ZoneBuilder S) (order : KeyOrder) (tsigFields : Text → Tsig → Bytes) (primary : KeyedMap RrKey S) :
    KeyedMap RrKey S → Prop
  | primary : Relayed builder order tsigFields primary primary
  | pulled {served : KeyedMap RrKey S} {soa : MessageRecord} {others : List MessageRecord} {puller : Puller}
      {received : ReceivedTransfer} {zone : ServedZone S} : Relayed builder order tsigFields primary served →
      transferRecords builder order served = some (soa, others) → puller.Gets tsigFields soa others →
      puller.client.codec = builder.codec → puller.receive = .ok (some received) →
      secondaryZone builder received.wire = .ok zone → Relayed builder order tsigFields primary zone.records

section Relay

variable {builder : ZoneBuilder S} {order : KeyOrder} {tsigFields : Text → Tsig → Bytes} {served : KeyedMap RrKey S}
  {soa : MessageRecord} {others : List MessageRecord} {puller : Puller}

theorem receive_eq (hgets : puller.Gets tsigFields soa others) (hothers : ∀ record ∈ others, isSoa record = false) :
    puller.receive = (encodeTransfer puller.client.codec (soa :: others)).map fun wire =>
      some ⟨soa :: others ++ [soa], wire⟩ := by
  obtain ⟨serial, hserial, hnewer⟩ := hgets.serial
  have haxfr : axfrSigned puller.client (puller.server.master puller.clock puller.address puller.master) puller.zone =
      .ok (soa :: others ++ [soa]) := by
    have hexchange := @axfr_exchange puller.server puller.client puller.clock puller.address tsigFields puller.zone puller.master
      soa others hgets.codec hgets.serves serial hserial hothers hgets.fits hgets.inTime
    obtain ⟨exchange, hok, hall, _⟩ := hexchange.1 hgets.count
    unfold axfrSigned request
    rw [hok, ← hall]
    rfl
  have hsoa := isSoa_of_soaSerial hserial
  have hcomplete : transferComplete (soa :: others ++ [soa]) = true := by
    rw [transferComplete, List.getLast?_concat, List.cons_append, List.head?_cons, Option.any_some, hsoa,
      Bool.and_true, Bool.and_true, decide_eq_true_eq, List.length_cons, List.length_append, List.length_singleton]
    omega
  have hencode : puller.receive = (do
      let wire ← encodeTransfer puller.client.codec (soa :: others ++ [soa]).dropLast
      pure (some ⟨soa :: others ++ [soa], wire⟩)) := by
    unfold Puller.receive receiveTransfer
    cases hcurrent : puller.current with
    | none =>
      dsimp only
      rw [haxfr]
      simp only [Except.map, ok_bind, hcomplete, Bool.not_true, Bool.false_eq_true, if_false]
    | some current =>
      obtain ⟨hfits, htime⟩ := hgets.ixfr current hcurrent
      have hixfr := ixfr_received hgets.codec hgets.serves hserial hothers hgets.count hfits htime haxfr
        (hnewer current hcurrent)
      dsimp only
      rw [hixfr]
      simp only [ok_bind, hcomplete, Bool.not_true, Bool.false_eq_true, if_false]
  rw [hencode, List.dropLast_concat]
  cases encodeTransfer puller.client.codec (soa :: others) <;> rfl

/-- What a secondary server serves is what it was sent. -/
theorem pulled_view (hlawful : builder.Lawful) (hkeeps : builder.KeepsRecords) (hsound : SoundZone builder served)
    (htransfer : transferRecords builder order served = some (soa, others)) (hgets : puller.Gets tsigFields soa others)
    (hcodec : puller.client.codec = builder.codec) {received : ReceivedTransfer} (hreceive : puller.receive = .ok (some received))
    {zone : ServedZone S} (hzone : secondaryZone builder received.wire = .ok zone) :
    (∀ key, (zone.records.lookup key).map builder.view = (served.lookup key).map builder.view) ∧
      zone.nxProofKind = denialOf builder (soa :: others) := by
  rw [receive_eq hgets (others_not_soa hlawful hsound htransfer), hcodec] at hreceive
  cases hwire : encodeTransfer builder.codec (soa :: others) with
  | error e =>
    rw [hwire] at hreceive
    cases hreceive
  | ok wire =>
    rw [hwire] at hreceive
    cases hreceive
    have hserves := secondaryZone_eq hlawful hkeeps hwire hzone (apart_transfer hsound htransfer)
    exact ⟨fun key => (hserves.1 key).trans (rrsetOf_transfer hsound htransfer key), hserves.2⟩

theorem relayed_view (hlawful : builder.Lawful) (hkeeps : builder.KeepsRecords) {primary : KeyedMap RrKey S}
    (hsound : SoundZone builder primary) (h : Relayed builder order tsigFields primary served) (key : RrKey) :
    (served.lookup key).map builder.view = (primary.lookup key).map builder.view := by
  induction h generalizing key with
  | primary => rfl
  | pulled _ htransfer hgets hcodec hreceive hzone ih =>
    have hstep := pulled_view hlawful hkeeps (sound_of_view hsound ih) htransfer hgets hcodec hreceive hzone
    rw [hstep.1, ih]

theorem encodeTransfer_ok (codec : MessageCodec) {records : List MessageRecord}
    (h : ∀ record ∈ records, ∃ bytes, codec.recordToBytes record = .ok bytes) :
    ∃ wire, encodeTransfer codec records = .ok wire := by
  induction records with
  | nil => exact ⟨[], rfl⟩
  | cons record records ih =>
    obtain ⟨bytes, hbytes⟩ := h record List.mem_cons_self
    obtain ⟨later, hlater⟩ := ih fun other hother => h other (List.mem_cons_of_mem _ hother)
    exact ⟨_, (encodeTransfer_cons codec record records _).mpr ⟨bytes, later, hbytes, hlater, rfl⟩⟩

/-- However many servers a zone is pulled through, it is served with the RRsets and the signatures of the primary's and sent
on with the same records; a server that pulls it anew can do so, and gets the same zone. -/
theorem relayed_serves_primary (hlawful : builder.Lawful) (hkeeps : builder.KeepsRecords) {primary : KeyedMap RrKey S}
    (hsound : SoundZone builder primary) (h : Relayed builder order tsigFields primary served) :
    (∀ key, (served.lookup key).map builder.view = (primary.lookup key).map builder.view) ∧
      transferRecords builder order served = transferRecords builder order primary ∧
      ∀ puller : Puller, transferRecords builder order served = some (soa, others) → puller.Gets tsigFields soa others →
        puller.client.codec = builder.codec →
        (∀ record ∈ soa :: others, ∃ bytes, builder.codec.recordToBytes record = .ok bytes) →
        ∃ received, puller.receive = .ok (some received) ∧ ∀ zone, secondaryZone builder received.wire = .ok zone →
          (∀ key, (zone.records.lookup key).map builder.view = (primary.lookup key).map builder.view) ∧
            zone.nxProofKind = denialOf builder (soa :: others) := by
  have hview := relayed_view hlawful hkeeps hsound h
  have hserved := sound_of_view hsound hview
  refine ⟨hview, transferRecords_of_view hview, ?_⟩
  intro puller htransfer hgets hcodec hbytes
  obtain ⟨wire, hwire⟩ := encodeTransfer_ok builder.codec hbytes
  have hreceive := receive_eq hgets (others_not_soa hlawful hserved htransfer)
  rw [hcodec, hwire] at hreceive
  refine ⟨_, hreceive, fun zone hzone => ?_⟩
  have hpulled := pulled_view hlawful hkeeps hserved htransfer hgets hcodec hreceive hzone
  exact ⟨fun key => (hpulled.1 key).trans (hview key), hpulled.2⟩

end Relay

/-! A zone of one address, bound to a key, that two servers pull one after the other. -/

def rrKeyRank (key : RrKey) : Text ×ₗ Text := toLex (key.name, key.recordType.text)

def KeyOrder.byName : KeyOrder where
  le first second := decide (rrKeyRank first ≤ rrKeyRank second)
  trans first second third hle hle' :=
    decide_eq_true (le_trans (of_decide_eq_true hle) (of_decide_eq_true hle'))
  total first second := by
    rw [Bool.or_eq_true, decide_eq_true_eq, decide_eq_true_eq]
    exact le_total _ _
  antisymm first second hle hge := by
    have hrank := toLex.injective (le_antisymm (of_decide_eq_true hle) (of_decide_eq_true hge))
    obtain ⟨name, text, wire⟩ := first
    obtain ⟨name', text', wire'⟩ := second
    cases hrank
    rfl

theorem ZoneBuilder.ofTable_keeps (codec : MessageCodec) (table : List (MessageRecord × Bytes)) (origin : Text) :
    (ZoneBuilder.ofTable codec table origin).KeepsRecords where
  first _ := rfl
  insert set record _ hown := by
    have hfilter : set.records.filter (fun other => other.data != record.data) = set.records := by
      refine List.filter_eq_self.mpr fun other hother => ?_
      rw [bne_iff_ne]
      exact fun hdata => (hown other hother).2 (.inl hdata.symm)
    exact congrArg (fun records => (records ++ [record], set.rrsigs)) hfilter
  insertRrsig _ _ := rfl
  newZone _ _ _ h _ _ := by
    cases h
    rfl

def boundBuilder : ZoneBuilder ListedSet := .ofTable boundCodec boundRecords "example.com."

theorem boundBuilder_lawful : boundBuilder.Lawful :=
  ZoneBuilder.ofTable_lawful _ (fun _ _ h => mem_of_recordToBytes boundMessages h) (by decide) (by decide)

def boundSoaKey : RrKey := ⟨"example.com.", .soa⟩

def boundAddressKey : RrKey := ⟨"example.com.", (exampleAddress "example.com.").recordType⟩

def boundServed : KeyedMap RrKey ListedSet :=
  ((∅ : KeyedMap RrKey ListedSet).insert boundSoaKey ⟨[exampleSoa 1], []⟩).insert boundAddressKey
    ⟨[exampleAddress "example.com."], []⟩

theorem boundServed_cases {key : RrKey} {set : ListedSet} (h : boundServed.lookup key = some set) :
    (key = boundSoaKey ∧ set = ⟨[exampleSoa 1], []⟩) ∨
      (key = boundAddressKey ∧ set = ⟨[exampleAddress "example.com."], []⟩) := by
  rw [boundServed, KeyedMap.lookup_insert, KeyedMap.lookup_insert] at h
  split at h
  next hkey => exact .inr ⟨hkey, (Option.some.inj h).symm⟩
  next =>
    split at h
    next hkey => exact .inl ⟨hkey, (Option.some.inj h).symm⟩
    next => cases h

theorem boundServed_sound : SoundZone boundBuilder boundServed := by
  constructor
  · intro key set hset record hrecord
    rcases boundServed_cases hset with ⟨rfl, rfl⟩ | ⟨rfl, rfl⟩
    · rw [List.mem_singleton.mp hrecord]
      exact ⟨by decide, rfl⟩
    · rw [List.mem_singleton.mp hrecord]
      exact ⟨by decide, rfl⟩
  · intro key set hset
    rcases boundServed_cases hset with ⟨rfl, rfl⟩ | ⟨rfl, rfl⟩
    · exact List.cons_ne_nil _ _
    · exact List.cons_ne_nil _ _
  · intro key set hset
    rcases boundServed_cases hset with ⟨rfl, rfl⟩ | ⟨rfl, rfl⟩
    · exact List.pairwise_singleton _ _
    · exact List.pairwise_singleton _ _
  · intro key set hset rrsig hrrsig
    rcases boundServed_cases hset with ⟨rfl, rfl⟩ | ⟨rfl, rfl⟩
    · cases hrrsig
    · cases hrrsig
  · intro key set hset _
    rcases boundServed_cases hset with ⟨rfl, rfl⟩ | ⟨rfl, rfl⟩
    · decide
    · decide

theorem boundServed_transfer :
    transferRecords boundBuilder .byName boundServed = some (exampleSoa 1, [exampleAddress "example.com."]) := by
  have hentries : KeyOrder.byName.entries boundServed =
      [(boundAddressKey, ⟨[exampleAddress "example.com."], []⟩), (boundSoaKey, ⟨[exampleSoa 1], []⟩)] := by
    refine List.mergeSort_of_pairwise (List.pairwise_pair.mpr ?_)
    decide
  rw [transferRecords, hentries]
  rfl

def boundPuller : Puller :=
  ⟨boundServer, boundClient 300, fun _ _ => chainTime, [192, 0, 2, 7], "192.0.2.53:53", "example.com.", none⟩

theorem boundPuller_gets : boundPuller.Gets tsigVariables (exampleSoa 1) [exampleAddress "example.com."] where
  codec := boundCodec_lawful
  serves := boundServer_serves 300
  serial := ⟨1, rfl, nofun⟩
  count := (congrArg List.length boundServer_chunks).trans_le (by decide)
  fits := boundServer_fits 300
  inTime key hkey := by
    cases hkey
    exact boundClient_inTime
  ixfr := nofun

/-- A server that pulls the zone from one that has it. -/
theorem relayed_again {served : KeyedMap RrKey ListedSet}
    (h : Relayed boundBuilder .byName tsigVariables boundServed served) :
    ∃ zone : ServedZone ListedSet, Relayed boundBuilder .byName tsigVariables boundServed zone.records := by
  have htransfer := (transferRecords_of_view (relayed_view boundBuilder_lawful (ZoneBuilder.ofTable_keeps _ _ _)
    boundServed_sound h)).trans boundServed_transfer
  have hencode : ∃ wire, encodeTransfer boundBuilder.codec [exampleSoa 1, exampleAddress "example.com."] = .ok wire :=
    ⟨_, rfl⟩
  obtain ⟨wire, hwire⟩ := hencode
  have hreceive := receive_eq boundPuller_gets (by decide)
  have hzone : ∃ zone, secondaryZone boundBuilder wire = .ok zone := by
    unfold secondaryZone
    rw [decodeTransfer_encode boundBuilder_lawful hwire]
    exact ⟨_, rfl⟩
  obtain ⟨zone, hzone⟩ := hzone
  have hcodec : boundPuller.client.codec = boundBuilder.codec := rfl
  rw [hcodec, hwire] at hreceive
  exact ⟨zone, .pulled h htransfer boundPuller_gets hcodec hreceive hzone⟩

theorem relayed_serves_primary_twice :
    ∃ second third : ServedZone ListedSet, Relayed boundBuilder .byName tsigVariables boundServed second.records ∧
      Relayed boundBuilder .byName tsigVariables boundServed third.records ∧
      transferRecords boundBuilder .byName third.records = some (exampleSoa 1, [exampleAddress "example.com."]) ∧
      ∀ key, (third.records.lookup key).map boundBuilder.view = (boundServed.lookup key).map boundBuilder.view := by
  obtain ⟨second, hsecond⟩ := relayed_again .primary
  obtain ⟨third, hthird⟩ := relayed_again hsecond
  have h := @relayed_serves_primary ListedSet boundBuilder .byName tsigVariables third.records (exampleSoa 1)
    [exampleAddress "example.com."] boundBuilder_lawful (ZoneBuilder.ofTable_keeps _ _ _) boundServed boundServed_sound hthird
  exact ⟨second, third, hsecond, hthird, h.2.1.trans boundServed_transfer, h.1⟩

end DaygleDns.Authoritative
