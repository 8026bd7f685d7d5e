import DaygleDns.Authoritative.ReverseSteps
import DaygleDns.Runs

/-! Runs of the record routes with the option `update_ptr`: which PTR records follow the address records. -/
namespace DaygleDns.Authoritative

open Text Dhcp Runs

/-- The store, what PTR records `sync` has added, and those it has removed though they were asked for. -/
structure ReverseDesk where
  store : ZoneStore
  added : List Uuid
  lost : List Record

namespace ReverseDesk

def new (store : ZoneStore) : ReverseDesk := ⟨store, [], []⟩

def newPtrs (before after : ZoneStore) : List Uuid :=
  (after.records.rows.filter fun record => isPtr record && (before.getRecord record.id).isNone).map Record.id

def lostPtrs (before after : ZoneStore) : List Record :=
  before.records.rows.filter fun record => isPtr record && (after.getRecord record.id).isNone && justified before record

/-- A request is carried out, and the reverse records are brought in line. -/
def step (desk : ReverseDesk) (input : ReverseSetting × RecordRequest) : ReverseDesk :=
  match input.2.perform input.1 desk.store with
  | none => desk
  | some (before, after, changed) =>
      let synced := (sync input.1 changed before after).2
      { store := synced
        added := desk.added ++ newPtrs changed synced
        lost := desk.lost ++ lostPtrs changed synced }

/-- Added PTR records have as target the owner of an enabled record with their address, and none
that was asked for has been removed. -/
structure Follows (desk : ReverseDesk) : Prop where
  justified : ∀ record ∈ desk.store.records.rows, isPtr record = true → record.id ∈ desk.added → justified desk.store record = true
  lost : desk.lost = []

end ReverseDesk

/-- The PTR records that `sync` removes. -/
def gone (store : ZoneStore) (before after : Option Record) (record : Record) : Bool :=
  (goes before after).any fun entry => removable store entry.1 entry.2 record

/-- The target written for the record is its owner. -/
def Targeted (record : Record) : Prop :=
  (recordAddress record).isSome = true → record.disabled = false → sameName (trimEndMatches '.' record.name ++ ['.']) record.name = true

instance decidableTargeted (record : Record) : Decidable (Targeted record) := inferInstanceAs (Decidable (_ → _ → _))

/-- An enabled record with this owner and this address is stored. -/
def Owned (store : ZoneStore) (ip : IpAddr) (name : Text) : Prop :=
  ∃ record ∈ store.records.rows, record.disabled = false ∧ recordAddress record = some ip ∧ sameName record.name name = true

instance decidableOwned (store : ZoneStore) (ip : IpAddr) (name : Text) : Decidable (Owned store ip name) :=
  inferInstanceAs (Decidable (∃ record ∈ _, _ ∧ _ ∧ _))

/-- The reverse name of the address is in a hosted zone whose records are kept here. -/
def reverseHosted (store : ZoneStore) (ip : IpAddr) : Bool :=
  (reverseZone store (reverseName ip)).any fun zone => !isSecondary store zone.id

/-- No other record has the owner and the address that go, and the new owner does not end in whitespace. -/
def Clear (changed : ZoneStore) (before after : Option Record) : Prop :=
  (∀ entry ∈ goes before after, reverseHosted changed entry.1 = true → ¬ Owned changed entry.1 entry.2) ∧
    ∀ record ∈ after, Targeted record

instance decidableClear (changed : ZoneStore) (before after : Option Record) : Decidable (Clear changed before after) :=
  inferInstanceAs (Decidable ((∀ entry ∈ _, _ → ¬ _) ∧ _))

namespace ReverseDesk

def Meets (desk : ReverseDesk) (input : ReverseSetting × RecordRequest) : Prop :=
  ∀ performed ∈ input.2.perform input.1 desk.store, Clear performed.2.2 performed.1 performed.2.1

instance decidableMeets (desk : ReverseDesk) (input : ReverseSetting × RecordRequest) : Decidable (desk.Meets input) :=
  inferInstanceAs (Decidable (∀ performed ∈ _, _))

end ReverseDesk

variable {store : ZoneStore} (setting : ReverseSetting)

/-- First some PTR records go, then one may come. -/
theorem sync_steps (hnames : NormalNames (zoneNames store)) (before after : Option Record) :
    ∃ middle, Removed store middle (gone store before after) ∧
      ((sync setting store before after).2 = middle ∨ ∃ record ip, after = some record ∧ recordAddress record = some ip ∧
        record.disabled = false ∧ PtrAdded middle (sync setting store before after).2 ip record.name) := by
  have hfirst : ∃ outcome middle, removeGone setting store before after = (.ok outcome, middle) ∧
      Removed store middle (gone store before after) := by
    unfold removeGone gone
    cases goes before after with
    | none => exact ⟨{}, store, rfl, .refl _, rfl, by simp⟩
    | some entry =>
      obtain ⟨⟨outcome, hok⟩, hremoved⟩ := removePtr_removed setting hnames entry.1 entry.2 {}
      exact ⟨outcome, _, Prod.ext hok rfl, hremoved⟩
  obtain ⟨outcome, middle, hremove, hremoved⟩ := hfirst
  have hmiddle : NormalNames (zoneNames middle) := hremoved.zones.names ▸ hnames
  refine ⟨middle, hremoved, ?_⟩
  unfold sync
  rw [hremove]
  cases after with
  | none => exact .inl rfl
  | some record =>
    dsimp only
    cases haddress : recordAddress record with
    | none => exact .inl rfl
    | some ip =>
      dsimp only
      cases hdisabled : record.disabled with
      | true => exact .inl rfl
      | false => exact .inr ⟨record, ip, rfl, haddress, hdisabled, addPtr_added setting hmiddle ip record.name record.ttl outcome⟩

/-- A PTR record that follows an address record, in the zone where it is looked for. -/
structure Following (store : ZoneStore) (record : Record) : Prop where
  justified : justified store record = true
  primary : isSecondary store record.zoneId = false
  held : ∃ ip zone, sameName record.name (reverseName ip) = true ∧ HeldIn (zoneNames store) (reverseName ip) record.zoneId zone

theorem not_ptr_of_recordAddress {record : Record} {ip : IpAddr} (h : recordAddress record = some ip) : isPtr record = false := by
  unfold recordAddress at h
  split at h
  · rename_i htype
    apply not_ptr_of_address
    cases htype with
    | inl heq =>
      rw [heq]
      decide
    | inr heq =>
      rw [heq]
      decide
  · cases h

theorem isPtr_of_gone {before after : Option Record} {record : Record} (h : gone store before after record = true) :
    isPtr record = true := by
  obtain ⟨entry, -, hremovable⟩ := (Option.any_eq_true _ _).mp h
  obtain ⟨zone, -, hremovable⟩ := (Option.any_eq_true _ _).mp hremovable
  rw [pointsBack] at hremovable
  simp only [Bool.and_eq_true] at hremovable
  exact hremovable.2.1.1

/-- What asks for a PTR record that `sync` removes has the owner and the address that go. -/
theorem owned_of_gone {before after : Option Record} {ptr : Record} (hgone : gone store before after ptr = true)
    (hjustified : justified store ptr = true) :
    ∃ entry ∈ goes before after, reverseHosted store entry.1 = true ∧ Owned store entry.1 entry.2 := by
  obtain ⟨⟨ip, name⟩, hgoes, hremovable⟩ := (Option.any_eq_true _ _).mp hgone
  obtain ⟨zone, hzone, hremovable⟩ := (Option.any_eq_true _ _).mp hremovable
  obtain ⟨record, hrecord, hjustifies⟩ := justified_iff.mp hjustified
  obtain ⟨henabled, ⟨address, haddress, hname⟩, hcontent⟩ := justifies_iff.mp hjustifies
  rw [pointsBack] at hremovable
  simp only [Bool.and_eq_true] at hremovable
  obtain ⟨⟨hprimary, -⟩, ⟨-, howner⟩, htarget⟩ := hremovable
  obtain rfl := address_of_sameName hname howner
  refine ⟨_, hgoes, ?_, record, hrecord, henabled, haddress, sameName_trans (sameName_symm hcontent) htarget⟩
  exact (Option.any_eq_true _ _).mpr ⟨zone, hzone, hprimary⟩

theorem not_gone_of_justifies {ptr record : Record} (h : justifies ptr record = true) (before after : Option Record) :
    gone store before after record = false := by
  obtain ⟨-, ⟨ip, haddress, -⟩, -⟩ := justifies_iff.mp h
  rw [Bool.eq_false_iff]
  intro hgone
  exact absurd ((isPtr_of_gone hgone).symm.trans (not_ptr_of_recordAddress haddress)) (by decide)

theorem Removed.justified {middle : ZoneStore} {before after : Option Record} (h : Removed store middle (gone store before after))
    {ptr : Record} (hptr : justified store ptr = true) : justified middle ptr = true := by
  obtain ⟨record, hrecord, hjustifies⟩ := justified_iff.mp hptr
  refine justified_iff.mpr ⟨record, ?_, hjustifies⟩
  rw [h.rows]
  exact List.mem_filter.mpr ⟨hrecord, by rw [not_gone_of_justifies hjustifies]; rfl⟩

theorem PtrAdded.justified {after : ZoneStore} {ip : IpAddr} {name : Text} (h : PtrAdded store after ip name) {ptr : Record}
    (hptr : justified store ptr = true) : justified after ptr = true := by
  obtain ⟨record, hrecord, hjustifies⟩ := justified_iff.mp hptr
  exact justified_iff.mpr ⟨record, h.rows record hrecord, hjustifies⟩

theorem Following.kept {middle : ZoneStore} {record : Record} (h : Following store record) (hzones : ZonesKept store middle)
    (hjustified : Authoritative.justified middle record = true) : Following middle record :=
  ⟨hjustified, (isSecondary_kept hzones _).trans h.primary, hzones.names ▸ h.held⟩

theorem Following.added {after : ZoneStore} {record : Record} {ip : IpAddr} {name : Text} (h : Following store record)
    (hadded : PtrAdded store after ip name) : Following after record := by
  obtain ⟨address, zone, hname, hheld⟩ := h.held
  refine ⟨hadded.justified h.justified, ?_, address, zone, hname, hadded.held _ _ _ hheld⟩
  rw [isSecondary, hadded.secondary]
  exact h.primary

/-- A PTR record that nothing asks for any more is taken out. -/
theorem Following.gone {changed : ZoneStore} {before after : Option Record} {record : Record} (h : Following store record)
    (hnames : NormalNames (zoneNames changed)) (hperformed : Performed store before after changed)
    (hptr : isPtr record = true) (hjustified : ¬Authoritative.justified changed record = true) :
    Authoritative.gone changed before after record = true := by
  obtain hstill | ⟨ip, name, hgoes, hname, hcontent⟩ := hperformed.justified record h.justified
  · exact absurd hstill hjustified
  · obtain ⟨address, zone, haddress, hheld⟩ := h.held
    obtain rfl := address_of_sameName haddress hname
    rw [← hperformed.zones.names] at hheld
    obtain ⟨found, hfound, hid⟩ := reverseZone_of_heldIn hnames hheld
    have hprimary := (isSecondary_kept hperformed.zones record.zoneId).trans h.primary
    refine (Option.any_eq_true _ _).mpr ⟨_, hgoes, (Option.any_eq_true _ _).mpr ⟨found, hfound, ?_⟩⟩
    have hback : pointsBack (reverseName address) name record = true := by
      rw [pointsBack, haddress, hcontent, Bool.and_true, Bool.and_true]
      exact hptr
    simp [hprimary, hid, hback]

/-- What `sync` adds follows an address record as well. -/
structure PtrSettled (middle final : ZoneStore) : Prop where
  names : NormalNames (zoneNames final)
  next : middle.records.next ≤ final.records.next
  rows : ∀ record ∈ middle.records.rows, record ∈ final.records.rows
  following : ∀ record, Following middle record → Following final record
  fresh : ∀ record ∈ final.records.rows, isPtr record = true →
    record ∈ middle.records.rows ∨ middle.records.next ≤ record.id ∧ Following final record

theorem PtrSettled.refl (hnames : NormalNames (zoneNames store)) : PtrSettled store store :=
  ⟨hnames, Nat.le_refl _, fun _ h => h, fun _ h => h, fun _ h _ => .inl h⟩

theorem PtrAdded.settled {final : ZoneStore} {ip : IpAddr} {record : Record} (h : PtrAdded store final ip record.name)
    (hrecord : record ∈ store.records.rows) (haddress : recordAddress record = some ip) (henabled : record.disabled = false)
    (htargeted : Targeted record) : PtrSettled store final where
  names := h.names
  next := h.next
  rows := h.rows
  following := fun _ hfollowing => hfollowing.added h
  fresh := by
    intro ptr hptr hisPtr
    cases h.fresh ptr hptr with
    | inl hold => exact .inl hold
    | inr hnew =>
      obtain ⟨hname, hcontent, hprimary, zone, hheld⟩ := hnew.2 hisPtr
      have hsame : sameName ptr.name (reverseName ip) = true := sameName_iff.mpr (by rw [hname])
      have htarget : sameName ptr.content record.name = true := by
        have htarget := htargeted (by rw [haddress]; rfl) henabled
        rw [sameName_iff, nameKey] at htarget ⊢
        rw [hcontent, trim_trim, htarget]
      have hjustifies : justifies ptr record = true := justifies_iff.mpr ⟨henabled, ⟨ip, haddress, hsame⟩, htarget⟩
      exact .inr ⟨hnew.1, justified_iff.mpr ⟨record, h.rows record hrecord, hjustifies⟩, hprimary, ip, zone, hsame, hheld⟩

namespace ReverseDesk

structure Inv (desk : ReverseDesk) : Prop where
  names : NormalNames (zoneNames desk.store)
  below : ∀ id ∈ desk.added, id < desk.store.records.next
  following : ∀ record ∈ desk.store.records.rows, isPtr record = true → record.id ∈ desk.added → Following desk.store record
  lost : desk.lost = []

theorem Inv.follows {desk : ReverseDesk} (h : desk.Inv) : desk.Follows :=
  ⟨fun record hrecord hptr hid => (h.following record hrecord hptr hid).justified, h.lost⟩

theorem inv_step {desk : ReverseDesk} (h : desk.Inv) {input : ReverseSetting × RecordRequest}
    (honly : OnAddresses desk.store input.2) (hmeets : desk.Meets input) : (desk.step input).Inv := by
  unfold step
  cases hperform : input.2.perform input.1 desk.store with
  | none => exact h
  | some performed =>
    obtain ⟨before, after, changed⟩ := performed
    have hperformed := performed_of_perform input.1 honly hperform
    obtain ⟨hclear, htargeted⟩ := hmeets _ hperform
    have hnames : NormalNames (zoneNames changed) := hperformed.zones.names ▸ h.names
    obtain ⟨middle, hremoved, hsync⟩ := sync_steps input.1 hnames before after
    have hmiddle : NormalNames (zoneNames middle) := hremoved.zones.names ▸ hnames
    have hfollowing : ∀ record ∈ middle.records.rows, isPtr record = true → record.id ∈ desk.added → Following middle record := by
      intro record hrecord hptr hid
      rw [hremoved.rows, List.mem_filter, Bool.not_eq_true'] at hrecord
      have hbefore := h.following record ((hperformed.ptrs record hptr).mp hrecord.1) hptr hid
      by_cases hjustified : justified changed record = true
      · exact (hbefore.kept hperformed.zones hjustified).kept hremoved.zones (hremoved.justified hjustified)
      · rw [hbefore.gone hnames hperformed hptr hjustified] at hrecord
        cases hrecord.2
    have hkept : ∀ record ∈ changed.records.rows, isPtr record = true → justified changed record = true → record ∈ middle.records.rows := by
      intro record hrecord hptr hjustified
      rw [hremoved.rows, List.mem_filter, Bool.not_eq_true']
      refine ⟨hrecord, Bool.eq_false_iff.mpr fun hgone => ?_⟩
      obtain ⟨entry, hgoes, hhosted, howned⟩ := owned_of_gone hgone hjustified
      exact hclear entry hgoes hhosted howned
    have hnext : ∀ id ∈ desk.added, id < middle.records.next := by
      intro id hid
      rw [hremoved.next]
      exact Nat.lt_of_lt_of_le (h.below id hid) hperformed.next
    have hsettled : PtrSettled middle (sync input.1 changed before after).2 := by
      cases hsync with
      | inl heq =>
        rw [heq]
        exact .refl hmiddle
      | inr hadded =>
        obtain ⟨record, ip, hafter, haddress, henabled, hadded⟩ := hadded
        have hstored := hperformed.stored record hafter
        refine hadded.settled ?_ haddress henabled (htargeted record hafter)
        rw [hremoved.rows, List.mem_filter, Bool.not_eq_true']
        refine ⟨hstored, Bool.eq_false_iff.mpr fun hgone => ?_⟩
        exact absurd ((isPtr_of_gone hgone).symm.trans (not_ptr_of_recordAddress haddress)) (by decide)
    have hnew : ∀ id ∈ newPtrs changed (sync input.1 changed before after).2,
        id < (sync input.1 changed before after).2.records.next ∧ changed.getRecord id = none := by
      intro id hid
      obtain ⟨record, hrecord, rfl⟩ := List.mem_map.mp hid
      obtain ⟨hmem, hfresh⟩ := List.mem_filter.mp hrecord
      rw [Bool.and_eq_true, Option.isNone_iff_eq_none] at hfresh
      exact ⟨(sync input.1 changed before after).2.records.below record hmem, hfresh.2⟩
    constructor
    · exact hsettled.names
    · intro id hid
      cases List.mem_append.mp hid with
      | inl hold => exact Nat.lt_of_lt_of_le (hnext id hold) hsettled.next
      | inr hid => exact (hnew id hid).1
    · intro record hrecord hptr hid
      cases hsettled.fresh record hrecord hptr with
      | inr hfresh => exact hfresh.2
      | inl hmem =>
        apply hsettled.following
        cases List.mem_append.mp hid with
        | inl hold => exact hfollowing record hmem hptr hold
        | inr hid =>
          rw [hremoved.rows] at hmem
          have hsome := (changed.records.find?_eq_some_iff record.id record).mpr ⟨List.mem_of_mem_filter hmem, rfl⟩
          exact absurd (hsome.symm.trans (hnew record.id hid).2) (by simp)
    · change desk.lost ++ lostPtrs changed (sync input.1 changed before after).2 = []
      rw [h.lost, List.nil_append]
      apply List.filter_eq_nil_iff.mpr
      intro record hrecord hlost
      rw [Bool.and_eq_true, Bool.and_eq_true, Option.isNone_iff_eq_none] at hlost
      obtain ⟨⟨hptr, hnone⟩, hjustified⟩ := hlost
      have hmem := hsettled.rows record (hkept record hrecord hptr hjustified)
      have hsome := ((sync input.1 changed before after).2.records.find?_eq_some_iff record.id record).mpr ⟨hmem, rfl⟩
      exact absurd (hsome.symm.trans hnone) (by simp)

/-- In every run in which no owner and address go while another record has both, and no owner ends in whitespace. -/
theorem reverse_follows (store : ZoneStore) (hnames : NormalNames (zoneNames store)) (inputs : List (ReverseSetting × RecordRequest))
    (honly : Each step (fun desk input => OnAddresses desk.store input.2) (new store) inputs) (hmeets : Each step Meets (new store) inputs) :
    Always step Follows (new store) inputs := by
  have hstart : (new store).Inv := by
    constructor
    · exact hnames
    · intro id hid
      cases hid
    · intro record _ _ hid
      cases hid
    · rfl
  apply always_mono fun desk h => Inv.follows h
  exact always_of_invariant Inv (fun desk input h hboth => inv_step h hboth.1 hboth.2) inputs hstart (each_and honly hmeets)

/-! A zone, and the reverse zones that are created when they are needed. -/

def plainSetting : ReverseSetting where
  createZone := true
  now := 0
  primaryNs := none
  adminMailbox := none
  hickory := .acceptAll
  display := fun _ => []

/-- A record for www.example.com with the address 192.0.2.1. -/
def www : RecordRequest := .upsert 0
  { name := "www".toList
    rtype := "A".toList
    content := "192.0.2.1".toList
    ttl := 300
    priority := 0
    disabled := false }

/-- The record is created, disabled, enabled again and deleted. -/
theorem reverse_follows_www :
    Always step Follows (new .exampleCom)
      [(plainSetting, www), (plainSetting, .setDisabled 0 1 true), (plainSetting, .setDisabled 0 1 false), (plainSetting, .delete 0 1)] :=
  reverse_follows .exampleCom ⟨by decide, by decide⟩ _ (by decide) (by decide)

/-- The record is stored twice, as nothing forbids; its PTR record goes with the second one. -/
theorem reverse_follows_fails :
    ¬Always step Follows (new .exampleCom) [(plainSetting, www), (plainSetting, www), (plainSetting, .delete 0 4)] := by
  intro h
  have hlast := (always_iff_prefixes _ _ _).mp h _ (List.prefix_refl _)
  exact absurd hlast.lost (by decide)

end ReverseDesk

end DaygleDns.Authoritative
