import DaygleDns.Authoritative.Dnssec
import Mathlib.Order.MinMax

/-! What one pass of the key rollover can do to the keys of a zone. -/
namespace DaygleDns.Authoritative

open Persist

/-- An older active key, once the newest one is out for the overlap. -/
def MayRetire (config : MaintenanceConfig) (now : Time) (keys : List SigningKeyRecord)
    (key : SigningKeyRecord) : Prop :=
  key.isActive ∧ ∃ newest ∈ keys, newest.isActive ∧
    (∀ other ∈ keys, other.isActive → keyCreatedAt now other ≤ keyCreatedAt now newest) ∧
    keyCreatedAt now key < keyCreatedAt now newest ∧
    config.overlap ≤ ageSince now (keyCreatedAt now newest)

/-- A retired key, after the retire period; a zone without an active key is
left alone. -/
def MayDelete (config : MaintenanceConfig) (now : Time) (keys : List SigningKeyRecord)
    (key : SigningKeyRecord) : Prop :=
  key.isRetired ∧ (∃ other ∈ keys, other.isActive = true) ∧
    config.retire ≤ ageSince now (key.retiredAt.getD now)

def MayStart (config : MaintenanceConfig) (now : Time) (keys : List SigningKeyRecord) : Prop :=
  config.rolloverAfter ≠ 0 ∧ keys.filter SigningKeyRecord.isRetired = [] ∧
    ∃ key, keys.filter SigningKeyRecord.isActive = [key] ∧ config.rolloverAfter ≤ keyAge now key

/-- A change of a zone's keys that a pass is allowed, `next` being the first
identifier that is still free. -/
structure Advance (config : MaintenanceConfig) (now : Time) (next : Nat)
    (keys : List SigningKeyRecord) where
  retired : List Uuid
  deleted : List Uuid
  added : List SigningKeyRecord
  mayRetire : ∀ key ∈ keys, key.id ∈ retired → MayRetire config now keys key
  mayDelete : ∀ key ∈ keys, key.id ∈ deleted → MayDelete config now keys key
  mayStart : added ≠ [] → MayStart config now keys
  fresh : ∀ key ∈ added, key.isActive ∧ key.createdAt = some now ∧ next ≤ key.id
  single : added.length ≤ 1

namespace Advance

variable {config : MaintenanceConfig} {now : Time} {next : Nat} {keys : List SigningKeyRecord}

def retire (advance : Advance config now next keys) (key : SigningKeyRecord) : SigningKeyRecord :=
  if key.id ∈ advance.retired then key.retiredNow now else key

def keysAfter (advance : Advance config now next keys) : List SigningKeyRecord :=
  (keys.filter fun key => decide (key.id ∉ advance.deleted)).map advance.retire ++ advance.added

/-- Nothing happens. -/
def idle (config : MaintenanceConfig) (now : Time) (next : Nat) (keys : List SigningKeyRecord) :
    Advance config now next keys where
  retired := []
  deleted := []
  added := []
  mayRetire := fun _ _ h => by simp at h
  mayDelete := fun _ _ h => by simp at h
  mayStart := fun h => absurd rfl h
  fresh := fun _ h => by simp at h
  single := Nat.zero_le _

def start (hstart : MayStart config now keys) (key : SigningKeyRecord) (hactive : key.isActive)
    (hcreated : key.createdAt = some now) (hid : next ≤ key.id) : Advance config now next keys :=
  { idle config now next keys with
    added := [key]
    mayStart := fun _ => hstart
    fresh := fun other hother => by
      rw [List.mem_singleton.mp hother]
      exact ⟨hactive, hcreated, hid⟩
    single := Nat.le_refl _ }

def alsoRetire (advance : Advance config now next keys) (hnodup : (keys.map SigningKeyRecord.id).Nodup)
    {key : SigningKeyRecord} (hkey : key ∈ keys) (hmay : MayRetire config now keys key) :
    Advance config now next keys :=
  { advance with
    retired := key.id :: advance.retired
    mayRetire := fun other hother hid => by
      rcases List.mem_cons.mp hid with hid | hid
      · rw [List.inj_on_of_nodup_map hnodup hother hkey hid]
        exact hmay
      · exact advance.mayRetire other hother hid }

def alsoDelete (advance : Advance config now next keys) (hnodup : (keys.map SigningKeyRecord.id).Nodup)
    {key : SigningKeyRecord} (hkey : key ∈ keys) (hmay : MayDelete config now keys key) :
    Advance config now next keys :=
  { advance with
    deleted := key.id :: advance.deleted
    mayDelete := fun other hother hid => by
      rcases List.mem_cons.mp hid with hid | hid
      · rw [List.inj_on_of_nodup_map hnodup hother hkey hid]
        exact hmay
      · exact advance.mayDelete other hother hid }

theorem retire_id (advance : Advance config now next keys) (key : SigningKeyRecord) :
    (advance.retire key).id = key.id := by
  unfold retire
  split <;> rfl

theorem idle_keysAfter : (idle config now next keys).keysAfter = keys := by
  unfold keysAfter retire idle
  simp

theorem start_keysAfter (hstart : MayStart config now keys) (key : SigningKeyRecord)
    (hactive : key.isActive) (hcreated : key.createdAt = some now) (hid : next ≤ key.id) :
    (start hstart key hactive hcreated hid).keysAfter = keys ++ [key] := by
  unfold keysAfter retire start idle
  simp

theorem alsoRetire_keysAfter (advance : Advance config now next keys)
    (hnodup : (keys.map SigningKeyRecord.id).Nodup) {key : SigningKeyRecord} (hkey : key ∈ keys)
    (hmay : MayRetire config now keys key) (hnext : key.id < next) :
    (advance.alsoRetire hnodup hkey hmay).keysAfter = advance.keysAfter.map
      fun other => if other.id == key.id then other.retiredNow now else other := by
  unfold keysAfter
  rw [List.map_append, List.map_map]
  congr 1
  · apply List.map_congr_left
    intro other _
    simp only [Function.comp_apply, retire_id, beq_iff_eq]
    unfold retire alsoRetire
    by_cases hsame : other.id = key.id
    · simp only [hsame, List.mem_cons_self, if_true]
      split <;> rfl
    · simp only [List.mem_cons, hsame, false_or, if_false]
  · symm
    calc
      _ = advance.added.map id := by
        apply List.map_congr_left
        intro other hother
        have hne : other.id ≠ key.id :=
          Nat.ne_of_gt (Nat.lt_of_lt_of_le hnext (advance.fresh other hother).2.2)
        simp [hne]
      _ = _ := List.map_id _

theorem alsoDelete_keysAfter (advance : Advance config now next keys)
    (hnodup : (keys.map SigningKeyRecord.id).Nodup) {key : SigningKeyRecord} (hkey : key ∈ keys)
    (hmay : MayDelete config now keys key) (hnext : key.id < next) :
    (advance.alsoDelete hnodup hkey hmay).keysAfter =
      advance.keysAfter.filter fun other => !(other.id == key.id) := by
  unfold keysAfter
  rw [List.filter_append, List.filter_map, List.filter_filter]
  congr 1
  · have hretire : (advance.alsoDelete hnodup hkey hmay).retire = advance.retire := rfl
    rw [hretire]
    congr 1
    apply List.filter_congr
    intro other _
    rw [Function.comp_apply, retire_id]
    simp only [alsoDelete, List.mem_cons, not_or]
    by_cases hsame : other.id = key.id <;> simp [hsame]
  · symm
    apply List.filter_eq_self.mpr
    intro other hother
    have hne : other.id ≠ key.id :=
      Nat.ne_of_gt (Nat.lt_of_lt_of_le hnext (advance.fresh other hother).2.2)
    simp [hne]

end Advance

def Advanced (config : MaintenanceConfig) (now : Time) (next : Nat)
    (keys after : List SigningKeyRecord) : Prop :=
  ∃ advance : Advance config now next keys, after = advance.keysAfter

/-! The writes of a pass, zone by zone. -/

theorem zoneKeys_storeSigningKey (store : ZoneStore) (zoneId id : Uuid)
    (material : UInt8 × List UInt8) (now : Time) :
    zoneKeys (storeSigningKey store zoneId material now) id = zoneKeys store id ++
      if zoneId = id then [newKey zoneId material now store.dnssecKeys.next] else [] := by
  unfold zoneKeys storeSigningKey
  rw [Table.insert_rows, List.filter_append]
  by_cases h : zoneId = id <;> simp [newKey, h]

theorem zoneKeys_setKeyRetired (store : ZoneStore) (keyId id : Uuid) (now : Time) :
    zoneKeys (setKeyRetired store keyId now) id = (zoneKeys store id).map
      fun key => if key.id == keyId then key.retiredNow now else key := by
  unfold zoneKeys setKeyRetired
  rw [Table.update_rows, List.filter_map]
  congr 1
  apply List.filter_congr
  intro key _
  rw [Function.comp_apply]
  split <;> rfl

theorem zoneKeys_deleteKey (store : ZoneStore) (keyId id : Uuid) :
    zoneKeys (deleteKey store keyId) id =
      (zoneKeys store id).filter fun key => !(key.id == keyId) := by
  unfold zoneKeys deleteKey
  rw [Table.delete_rows, List.filter_comm]

theorem zoneKeys_nodup (store : ZoneStore) (zoneId : Uuid) :
    ((zoneKeys store zoneId).map SigningKeyRecord.id).Nodup :=
  store.dnssecKeys.nodup.sublist (List.filter_sublist.map _)

theorem zoneKeys_below (store : ZoneStore) (zoneId : Uuid) :
    ∀ key ∈ zoneKeys store zoneId, key.id < store.dnssecKeys.next := fun key hkey =>
  store.dnssecKeys.below key (List.mem_of_mem_filter hkey)

/-- Keys of different zones have different identifiers. -/
theorem zoneKeys_apart {store : ZoneStore} {first second : Uuid} (hne : first ≠ second)
    {key other : SigningKeyRecord} (hkey : key ∈ zoneKeys store first)
    (hother : other ∈ zoneKeys store second) : other.id ≠ key.id := by
  intro hid
  rcases List.mem_filter.mp hkey with ⟨hkey, hfirst⟩
  rcases List.mem_filter.mp hother with ⟨hother, hsecond⟩
  rw [store.dnssecKeys.eq_of_key_eq hother hkey hid, beq_iff_eq] at hsecond
  rw [beq_iff_eq] at hfirst
  exact hne (hfirst.symm.trans hsecond)

/-- No zone is changed, and no identifier of a key is given out again. -/
structure OnlyKeys (before after : ZoneStore) : Prop where
  zones : after.zones = before.zones
  secondaryZones : after.secondaryZones = before.secondaryZones
  next : before.dnssecKeys.next ≤ after.dnssecKeys.next

theorem OnlyKeys.refl (store : ZoneStore) : OnlyKeys store store := ⟨rfl, rfl, Nat.le_refl _⟩

theorem OnlyKeys.trans {a b c : ZoneStore} (hab : OnlyKeys a b) (hbc : OnlyKeys b c) :
    OnlyKeys a c :=
  ⟨hbc.zones.trans hab.zones, hbc.secondaryZones.trans hab.secondaryZones, hab.next.trans hbc.next⟩

theorem storeSigningKey_only (store : ZoneStore) (zoneId : Uuid) (material : UInt8 × List UInt8)
    (now : Time) : OnlyKeys store (storeSigningKey store zoneId material now) :=
  ⟨rfl, rfl, Nat.le_succ _⟩

theorem setKeyRetired_only (store : ZoneStore) (keyId : Uuid) (now : Time) :
    OnlyKeys store (setKeyRetired store keyId now) := ⟨rfl, rfl, Nat.le_refl _⟩

theorem deleteKey_only (store : ZoneStore) (keyId : Uuid) :
    OnlyKeys store (deleteKey store keyId) := ⟨rfl, rfl, Nat.le_refl _⟩

/-- The keys of the zone have advanced from `keys`. -/
structure Advancing (config : MaintenanceConfig) (now : Time) (zoneId : Uuid) (start store : ZoneStore) :
    Prop where
  only : OnlyKeys start store
  keys : Advanced config now start.dnssecKeys.next (zoneKeys start zoneId) (zoneKeys store zoneId)

/-- The keys of a zone are as they were. -/
structure Untouched (zoneId : Uuid) (start store : ZoneStore) : Prop where
  only : OnlyKeys start store
  keys : zoneKeys store zoneId = zoneKeys start zoneId

theorem Advancing.refl (config : MaintenanceConfig) (now : Time) (zoneId : Uuid)
    (store : ZoneStore) : Advancing config now zoneId store store :=
  ⟨.refl _, Advance.idle _ _ _ _, Advance.idle_keysAfter.symm⟩

theorem Untouched.refl (zoneId : Uuid) (store : ZoneStore) : Untouched zoneId store store :=
  ⟨.refl _, rfl⟩

theorem newestActive_spec (now : Time) (first : SigningKeyRecord) (rest : List SigningKeyRecord) :
    (∃ key ∈ first :: rest, keyCreatedAt now key = newestActive now first rest) ∧
      ∀ key ∈ first :: rest, keyCreatedAt now key ≤ newestActive now first rest := by
  unfold newestActive
  suffices h : ∀ (rest : List SigningKeyRecord) (newest : Time),
      (rest.foldl (fun newest key => max newest (keyCreatedAt now key)) newest = newest ∨
        ∃ key ∈ rest, keyCreatedAt now key =
          rest.foldl (fun newest key => max newest (keyCreatedAt now key)) newest) ∧
      newest ≤ rest.foldl (fun newest key => max newest (keyCreatedAt now key)) newest ∧
      ∀ key ∈ rest, keyCreatedAt now key ≤
        rest.foldl (fun newest key => max newest (keyCreatedAt now key)) newest by
    rcases h rest (keyCreatedAt now first) with ⟨hreached, hfirst, hrest⟩
    refine ⟨?_, ?_⟩
    · rcases hreached with hsame | ⟨key, hkey, hsame⟩
      · exact ⟨first, List.mem_cons_self, hsame.symm⟩
      · exact ⟨key, List.mem_cons_of_mem _ hkey, hsame⟩
    · intro key hkey
      rcases List.mem_cons.mp hkey with rfl | hkey
      · exact hfirst
      · exact hrest key hkey
  intro rest
  induction rest with
  | nil => simp
  | cons key rest ih =>
    intro newest
    rw [List.foldl_cons]
    rcases ih (max newest (keyCreatedAt now key)) with ⟨hreached, hstart, hrest⟩
    refine ⟨?_, (le_max_left _ _).trans hstart, ?_⟩
    · rcases hreached with hsame | ⟨other, hother, hsame⟩
      · rcases max_choice newest (keyCreatedAt now key) with hmax | hmax
        · exact .inl (hsame.trans hmax)
        · exact .inr ⟨key, List.mem_cons_self, (hsame.trans hmax).symm⟩
      · exact .inr ⟨other, List.mem_cons_of_mem _ hother, hsame⟩
    · intro other hother
      rcases List.mem_cons.mp hother with rfl | hother
      · exact (le_max_right _ _).trans hstart
      · exact hrest other hother

theorem leads_retireSuperseded {pass : RolloverPass} {now : Time} {inv : ZoneStore → Prop} (newest : Time) (events : Nat) (key : SigningKeyRecord)
    (h : supersededBy pass.config now newest key = true → ∀ store, inv store → inv (setKeyRetired store key.id now)) :
    Leads inv inv (retireSuperseded pass now newest events key) := by
  unfold retireSuperseded
  split
  next hsuperseded => exact keeps_change (h hsuperseded)
  next => exact keeps_pure _

theorem leads_deleteAgedOut {pass : RolloverPass} {now : Time} {inv : ZoneStore → Prop} (events : Nat) (key : SigningKeyRecord)
    (h : agedOut pass.config now key = true → ∀ store, inv store → inv (deleteKey store key.id)) :
    Leads inv inv (deleteAgedOut pass now events key) := by
  unfold deleteAgedOut
  split
  next haged => exact keeps_change (h haged)
  next => exact keeps_pure _

section Stages

variable {pass : RolloverPass} {now : Time} {start : ZoneStore} {zone : Zone}
  {first : SigningKeyRecord} {rest : List SigningKeyRecord}
  (hactive : (zoneKeys start zone.id).filter SigningKeyRecord.isActive = first :: rest)

include hactive

theorem mem_active {key : SigningKeyRecord} :
    key ∈ first :: rest ↔ key ∈ zoneKeys start zone.id ∧ key.isActive = true := by
  rw [← hactive, List.mem_filter]

theorem supersededBy_mayRetire {key : SigningKeyRecord} (hkey : key ∈ first :: rest)
    (h : supersededBy pass.config now (newestActive now first rest) key = true) :
    MayRetire pass.config now (zoneKeys start zone.id) key := by
  simp only [supersededBy, Bool.and_eq_true, decide_eq_true_eq] at h
  rcases newestActive_spec now first rest with ⟨⟨newest, hnewest, hcreated⟩, hlatest⟩
  rw [← hcreated] at h hlatest
  rcases (mem_active hactive).mp hnewest with ⟨hmem, hnewestActive⟩
  refine ⟨((mem_active hactive).mp hkey).2, newest, hmem, hnewestActive, ?_, h.1, h.2⟩
  intro other hother hotherActive
  exact hlatest other ((mem_active hactive).mpr ⟨hother, hotherActive⟩)

theorem startsRollover_mayStart
    (h : startsRollover pass.config now first rest
      ((zoneKeys start zone.id).filter SigningKeyRecord.isRetired) = true) :
    MayStart pass.config now (zoneKeys start zone.id) := by
  simp only [startsRollover, Bool.and_eq_true, bne_iff_ne, List.isEmpty_iff,
    decide_eq_true_eq] at h
  rcases h with ⟨⟨⟨hon, hrest⟩, hretired⟩, hage⟩
  rw [hrest] at hactive
  exact ⟨hon, hretired, first, hactive, hage⟩

theorem startRollover_leads (events : Nat) :
    Leads (fun store => store = start) (Advancing pass.config now zone.id start)
      (startRollover pass now zone first rest
        ((zoneKeys start zone.id).filter SigningKeyRecord.isRetired) events) := by
  have hidle : ∀ store, store = start → Advancing pass.config now zone.id start store := by
    intro store h
    rw [h]
    exact .refl _ _ _ _
  unfold startRollover
  split
  next hstarts =>
    have hmay := startsRollover_mayStart hactive hstarts
    apply Leads.before (fun _ => rfl) hidle
    intro material
    apply Leads.before (guarded_same _) hidle
    intro _
    apply Leads.bind
    · apply leads_write
      intro store h
      rw [h]
      have hkey : (newKey zone.id material now start.dnssecKeys.next).isActive = true := rfl
      have hcreated : (newKey zone.id material now start.dnssecKeys.next).createdAt = some now := rfl
      have hnext : start.dnssecKeys.next ≤ (newKey zone.id material now start.dnssecKeys.next).id :=
        Nat.le_refl _
      refine ⟨storeSigningKey_only _ _ _ _, Advance.start hmay _ hkey hcreated hnext, ?_⟩
      rw [Advance.start_keysAfter, zoneKeys_storeSigningKey, if_pos rfl]
    · intro _
      exact keeps_pure _
  next => exact fun store h => hidle store h

theorem retireSuperseded_keeps (events : Nat) {key : SigningKeyRecord} (hkey : key ∈ first :: rest) :
    Leads (Advancing pass.config now zone.id start) (Advancing pass.config now zone.id start)
      (retireSuperseded pass now (newestActive now first rest) events key) := by
  apply leads_retireSuperseded
  intro hsuperseded store h
  have hmay := supersededBy_mayRetire hactive hkey hsuperseded
  have hmem := ((mem_active hactive).mp hkey).1
  rcases h.keys with ⟨advance, hafter⟩
  refine ⟨h.only.trans (setKeyRetired_only _ _ _),
    advance.alsoRetire (zoneKeys_nodup _ _) hmem hmay, ?_⟩
  rw [Advance.alsoRetire_keysAfter _ _ _ _ (zoneKeys_below _ _ key hmem),
    zoneKeys_setKeyRetired, hafter]

theorem deleteAgedOut_keeps (events : Nat) {key : SigningKeyRecord}
    (hkey : key ∈ (zoneKeys start zone.id).filter SigningKeyRecord.isRetired) :
    Leads (Advancing pass.config now zone.id start) (Advancing pass.config now zone.id start)
      (deleteAgedOut pass now events key) := by
  rcases List.mem_filter.mp hkey with ⟨hmem, hretired⟩
  apply leads_deleteAgedOut
  intro haged store h
  rcases (mem_active hactive).mp List.mem_cons_self with ⟨hfirst, hfirstActive⟩
  have hmay : MayDelete pass.config now (zoneKeys start zone.id) key :=
    ⟨hretired, ⟨first, hfirst, hfirstActive⟩, of_decide_eq_true haged⟩
  rcases h.keys with ⟨advance, hafter⟩
  refine ⟨h.only.trans (deleteKey_only _ _),
    advance.alsoDelete (zoneKeys_nodup _ _) hmem hmay, ?_⟩
  rw [Advance.alsoDelete_keysAfter _ _ _ _ (zoneKeys_below _ _ key hmem), zoneKeys_deleteKey,
    hafter]

end Stages

theorem rolloverKeys_leads (pass : RolloverPass) (now : Time) (start : ZoneStore) (zone : Zone)
    (events : Nat) :
    Leads (fun store => store = start) (Advancing pass.config now zone.id start)
      (rolloverKeys pass now zone events (zoneKeys start zone.id)) := by
  unfold rolloverKeys
  dsimp only
  split
  next =>
    intro store h
    rw [h]
    exact .refl _ _ _ _
  next first rest hactive =>
    apply (startRollover_leads hactive events).bind
    intro events
    apply Leads.bind
    · apply keeps_foldlM
      exact fun events key hkey => retireSuperseded_keeps hactive events hkey
    · intro events
      apply keeps_foldlM
      exact fun events key hkey => deleteAgedOut_keeps hactive events hkey

/-! Passing over the keys of another zone. -/

theorem setKeyRetired_untouched {start store : ZoneStore} {zoneId other : Uuid} (now : Time)
    (hne : zoneId ≠ other) {key : SigningKeyRecord} (hkey : key ∈ zoneKeys start zoneId)
    (h : Untouched other start store) : Untouched other start (setKeyRetired store key.id now) := by
  refine ⟨h.only.trans (setKeyRetired_only _ _ _), ?_⟩
  rw [zoneKeys_setKeyRetired, h.keys]
  calc
    _ = (zoneKeys start other).map id := by
      apply List.map_congr_left
      intro third hthird
      simp [zoneKeys_apart hne hkey hthird]
    _ = _ := List.map_id _

theorem deleteKey_untouched {start store : ZoneStore} {zoneId other : Uuid}
    (hne : zoneId ≠ other) {key : SigningKeyRecord} (hkey : key ∈ zoneKeys start zoneId)
    (h : Untouched other start store) : Untouched other start (deleteKey store key.id) := by
  refine ⟨h.only.trans (deleteKey_only _ _), ?_⟩
  rw [zoneKeys_deleteKey, h.keys]
  apply List.filter_eq_self.mpr
  intro third hthird
  simp [zoneKeys_apart hne hkey hthird]

theorem rolloverKeys_untouched (pass : RolloverPass) (now : Time) (start : ZoneStore) {zone : Zone}
    {other : Uuid} (hne : zone.id ≠ other) (events : Nat) :
    Leads (Untouched other start) (Untouched other start)
      (rolloverKeys pass now zone events (zoneKeys start zone.id)) := by
  unfold rolloverKeys
  dsimp only
  split
  next => exact keeps_pure _
  next first rest hactive =>
    apply Leads.bind
    · unfold startRollover
      split
      · refine Leads.bind (keeps_result _) ?_
        intro material
        refine Leads.bind (keeps_guarded _) ?_
        intro _
        apply Leads.bind
        · apply leads_write
          intro store h
          refine ⟨h.only.trans (storeSigningKey_only _ _ _ _), ?_⟩
          rw [zoneKeys_storeSigningKey, if_neg hne, List.append_nil, h.keys]
        · intro _
          exact keeps_pure _
      · exact keeps_pure _
    · intro events
      apply Leads.bind
      · apply keeps_foldlM
        intro events key hkey
        apply leads_retireSuperseded
        intro _ store h
        exact setKeyRetired_untouched now hne ((mem_active hactive).mp hkey).1 h
      · intro events
        apply keeps_foldlM
        intro events key hkey
        apply leads_deleteAgedOut
        intro _ store h
        exact deleteKey_untouched hne (List.mem_of_mem_filter hkey) h

/-! From one zone to the pass. -/

theorem Untouched.advancing {config : MaintenanceConfig} {now : Time} {zoneId : Uuid}
    {start middle store : ZoneStore} (hfirst : Untouched zoneId start middle)
    (hrest : Advancing config now zoneId middle store) : Advancing config now zoneId start store := by
  refine ⟨hfirst.only.trans hrest.only, ?_⟩
  rcases hrest.keys with ⟨advance, hafter⟩
  rw [hafter, ← hfirst.keys]
  have hnext := hfirst.only.next
  exact ⟨{ advance with
    fresh := fun key hkey =>
      ⟨(advance.fresh key hkey).1, (advance.fresh key hkey).2.1,
        hnext.trans (advance.fresh key hkey).2.2⟩ }, rfl⟩

theorem Advancing.untouched {config : MaintenanceConfig} {now : Time} {zoneId : Uuid}
    {start middle store : ZoneStore} (hfirst : Advancing config now zoneId start middle)
    (hrest : Untouched zoneId middle store) : Advancing config now zoneId start store := by
  refine ⟨hfirst.only.trans hrest.only, ?_⟩
  rw [hrest.keys]
  exact hfirst.keys

theorem Untouched.trans {zoneId : Uuid} {start middle store : ZoneStore}
    (hfirst : Untouched zoneId start middle) (hrest : Untouched zoneId middle store) :
    Untouched zoneId start store :=
  ⟨hfirst.only.trans hrest.only, hrest.keys.trans hfirst.keys⟩

theorem exec_rolloverZone (pass : RolloverPass) (now : Time) (events : Nat) (zone : Zone)
    (store : ZoneStore) :
    exec (rolloverZone pass now events zone) store =
      match pass.fault (.listSigningKeys zone.id) with
      | some e => (.error e, store)
      | none => exec (rolloverKeys pass now zone events (zoneKeys store zone.id)) store := by
  unfold rolloverZone
  rw [exec_bind]
  unfold guarded
  cases pass.fault (.listSigningKeys zone.id) with
  | some e => rfl
  | none =>
    change exec (read _ >>= _) store = _
    rw [exec_bind]
    rfl

theorem rolloverZone_advancing (pass : RolloverPass) (now : Time) (events : Nat) (zone : Zone)
    (store : ZoneStore) :
    Advancing pass.config now zone.id store (exec (rolloverZone pass now events zone) store).2 := by
  rw [exec_rolloverZone]
  cases pass.fault (.listSigningKeys zone.id) with
  | some e => exact .refl _ _ _ _
  | none => exact rolloverKeys_leads pass now store zone events store rfl

theorem rolloverZone_untouched (pass : RolloverPass) (now : Time) (events : Nat) {zone : Zone}
    {other : Uuid} (hne : zone.id ≠ other) (store : ZoneStore) :
    Untouched other store (exec (rolloverZone pass now events zone) store).2 := by
  rw [exec_rolloverZone]
  cases pass.fault (.listSigningKeys zone.id) with
  | some e => exact .refl _ _
  | none => exact rolloverKeys_untouched pass now store hne events store (.refl _ _)

theorem rolloverZones_untouched (pass : RolloverPass) (now : Time) (other : Uuid)
    (zones : List Zone) (hne : ∀ zone ∈ zones, zone.id ≠ other) (events : Nat)
    (store : ZoneStore) :
    Untouched other store (exec (zones.foldlM (rolloverZone pass now) events) store).2 := by
  have hkeeps : Leads (Untouched other store) (Untouched other store)
      (zones.foldlM (rolloverZone pass now) events) := by
    apply keeps_foldlM
    intro events zone hzone middle hmiddle
    exact hmiddle.trans (rolloverZone_untouched pass now events (hne zone hzone) middle)
  exact hkeeps store (.refl _ _)

theorem rolloverZones_advancing (pass : RolloverPass) (now : Time) (zoneId : Uuid)
    {zones : List Zone} (hnodup : (zones.map Zone.id).Nodup) (events : Nat) (store : ZoneStore) :
    Advancing pass.config now zoneId store
      (exec (zones.foldlM (rolloverZone pass now) events) store).2 := by
  induction zones generalizing events store with
  | nil => exact .refl _ _ _ _
  | cons zone zones ih =>
    rw [List.map_cons, List.nodup_cons] at hnodup
    rw [List.foldlM_cons, exec_bind]
    by_cases hzone : zone.id = zoneId
    · have hfirst := rolloverZone_advancing pass now events zone store
      rw [hzone] at hfirst
      rcases hexec : exec (rolloverZone pass now events zone) store with ⟨_ | events, middle⟩
      · rw [hexec] at hfirst
        exact hfirst
      · rw [hexec] at hfirst
        apply hfirst.untouched
        apply rolloverZones_untouched
        intro other hother hid
        exact hnodup.1 (List.mem_map.mpr ⟨other, hother, hid.trans hzone.symm⟩)
    · have hfirst := rolloverZone_untouched pass now events hzone store
      rcases hexec : exec (rolloverZone pass now events zone) store with ⟨_ | events, middle⟩
      · rw [hexec] at hfirst
        exact hfirst.advancing (.refl _ _ _ _)
      · rw [hexec] at hfirst
        exact hfirst.advancing (ih hnodup.2 events middle)

/-- The zones a pass looks at. -/
def isPrimary (store : ZoneStore) (zone : Zone) : Bool :=
  !store.secondaryZones.any fun row => row.zoneId == zone.id

theorem exec_primaryZones (pass : RolloverPass) (store : ZoneStore) :
    (∃ e, exec (primaryZones pass) store = (.error e, store)) ∨
      exec (primaryZones pass) store = (.ok (store.zones.rows.filter (isPrimary store)), store) := by
  unfold primaryZones
  rw [exec_bind]
  unfold guarded
  cases pass.fault .listSecondary with
  | some e => exact .inl ⟨e, rfl⟩
  | none =>
    change (∃ e, exec (read _ >>= _) store = _) ∨ exec (read _ >>= _) store = _
    rw [exec_bind]
    cases hfault : pass.fault .listZones with
    | some e => exact .inl ⟨e, rfl⟩
    | none => exact .inr rfl

/-- What a pass does to the keys of a zone, whatever fails in it. -/
theorem processRollover_advancing (pass : RolloverPass) (now : Time) (zoneId : Uuid)
    (store : ZoneStore) :
    Advancing pass.config now zoneId store (exec (processRollover pass now) store).2 := by
  unfold processRollover
  rw [exec_bind]
  rcases exec_primaryZones pass store with ⟨e, hzones⟩ | hzones
  · rw [hzones]
    exact .refl _ _ _ _
  · rw [hzones]
    have hnodup : ((store.zones.rows.filter (isPrimary store)).map Zone.id).Nodup :=
      store.zones.nodup.sublist (List.filter_sublist.map _)
    have hkeeps : Leads (fun middle => middle = store)
        (Advancing pass.config now zoneId store)
        (do
          let events ← (store.zones.rows.filter (isPrimary store)).foldlM (rolloverZone pass now) 0
          if events ≠ 0 then
            guarded (pass.fault .reload)
          pure events) := by
      apply Leads.bind
      · intro middle hmiddle
        rw [hmiddle]
        exact rolloverZones_advancing pass now zoneId hnodup 0 store
      · intro events
        split
        · exact Leads.bind (keeps_guarded _) fun _ => keeps_pure _
        · exact keeps_pure _
    exact hkeeps store rfl

end DaygleDns.Authoritative
