import DaygleDns.Authoritative.RolloverFacts
import DaygleDns.Runs

/-! Runs of the key rollover: an active key is always left, and no key goes
before its time, however far apart the passes are and whatever fails in them. -/
namespace DaygleDns.Authoritative

open Runs

theorem ageSince_le (now past : Time) : (ageSince now past : Int) ≤ max 0 (now - past) := by
  unfold ageSince
  omega

/-! One pass on the keys of one zone. -/

section Pass

variable {config : MaintenanceConfig} {now : Time} {next : Nat} {keys after : List SigningKeyRecord}

theorem Advance.mem_keysAfter (advance : Advance config now next keys) (key : SigningKeyRecord) :
    key ∈ advance.keysAfter ↔
      (∃ old ∈ keys, old.id ∉ advance.deleted ∧ key = advance.retire old) ∨ key ∈ advance.added := by
  unfold Advance.keysAfter
  rw [List.mem_append, List.mem_map]
  apply or_congr_left
  constructor
  · intro h
    rcases h with ⟨old, hold, rfl⟩
    rcases List.mem_filter.mp hold with ⟨hmem, hkept⟩
    exact ⟨old, hmem, of_decide_eq_true hkept, rfl⟩
  · intro h
    rcases h with ⟨old, hmem, hkept, rfl⟩
    exact ⟨old, List.mem_filter.mpr ⟨hmem, decide_eq_true hkept⟩, rfl⟩

theorem active_not_retired {key : SigningKeyRecord} : key.isActive = true ↔ ¬ key.isRetired = true := by
  unfold SigningKeyRecord.isActive SigningKeyRecord.isRetired
  cases key.state <;> decide

/-- The key that follows one of `keys` with the same identifier. -/
theorem Advance.follows (advance : Advance config now next keys)
    (hnodup : (keys.map SigningKeyRecord.id).Nodup) (hbelow : ∀ key ∈ keys, key.id < next)
    {key later : SigningKeyRecord} (hkey : key ∈ keys) (hlater : later ∈ advance.keysAfter)
    (hid : later.id = key.id) : later = advance.retire key := by
  rcases (advance.mem_keysAfter later).mp hlater with ⟨old, hold, _, rfl⟩ | hadded
  · rw [advance.retire_id] at hid
    rw [List.inj_on_of_nodup_map hnodup hold hkey hid]
  · have hfresh := (advance.fresh later hadded).2.2
    have hold := hbelow key hkey
    rw [hid] at hfresh
    exact absurd hold (Nat.not_lt.mpr hfresh)

/-- The newest active key is neither retired nor deleted. -/
theorem Advance.newest_kept (advance : Advance config now next keys) {newest : SigningKeyRecord}
    (hmem : newest ∈ keys) (hactive : newest.isActive = true)
    (hlatest : ∀ other ∈ keys, other.isActive = true →
      keyCreatedAt now other ≤ keyCreatedAt now newest) : newest ∈ advance.keysAfter := by
  rw [advance.mem_keysAfter]
  left
  refine ⟨newest, hmem, ?_, ?_⟩
  · intro hdeleted
    exact active_not_retired.mp hactive (advance.mayDelete newest hmem hdeleted).1
  · unfold Advance.retire
    rw [if_neg]
    intro hretired
    rcases (advance.mayRetire newest hmem hretired).2 with ⟨other, hother, hotherActive, _, hnewer, _⟩
    have hle := hlatest other hother hotherActive
    exact absurd hnewer (not_lt.mpr hle)

theorem exists_newest (now : Time) {keys : List SigningKeyRecord}
    (h : ∃ key ∈ keys, key.isActive = true) :
    ∃ newest ∈ keys, newest.isActive = true ∧ ∀ other ∈ keys, other.isActive = true →
      keyCreatedAt now other ≤ keyCreatedAt now newest := by
  cases hactive : keys.filter SigningKeyRecord.isActive with
  | nil =>
    rcases h with ⟨key, hkey, hkeyActive⟩
    have hmem := List.mem_filter.mpr ⟨hkey, hkeyActive⟩
    rw [hactive] at hmem
    simp at hmem
  | cons first rest =>
    have hmem : ∀ key, key ∈ first :: rest ↔ key ∈ keys ∧ key.isActive = true := by
      intro key
      rw [← hactive, List.mem_filter]
    rcases newestActive_spec now first rest with ⟨⟨newest, hnewest, hcreated⟩, hlatest⟩
    rw [← hcreated] at hlatest
    rcases (hmem newest).mp hnewest with ⟨hkey, hkeyActive⟩
    exact ⟨newest, hkey, hkeyActive, fun other hother hotherActive =>
      hlatest other ((hmem other).mpr ⟨hother, hotherActive⟩)⟩

theorem Advanced.active_kept (hafter : Advanced config now next keys after)
    (h : ∃ key ∈ keys, key.isActive = true) : ∃ key ∈ after, key.isActive = true := by
  rcases hafter with ⟨advance, rfl⟩
  rcases exists_newest now h with ⟨newest, hmem, hactive, hlatest⟩
  exact ⟨newest, advance.newest_kept hmem hactive hlatest, hactive⟩

/-- A key that a pass retires is dated by the pass. -/
theorem Advanced.retires (hafter : Advanced config now next keys after)
    (hnodup : (keys.map SigningKeyRecord.id).Nodup) (hbelow : ∀ key ∈ keys, key.id < next)
    {key later : SigningKeyRecord} (hkey : key ∈ keys) (hactive : key.isActive = true)
    (hlater : later ∈ after) (hid : later.id = key.id) (hretired : later.isRetired = true) :
    later = key.retiredNow now ∧ ∃ newer ∈ keys, newer.isActive = true ∧ newer ∈ after ∧
      keyCreatedAt now key < keyCreatedAt now newer ∧
      config.overlap ≤ ageSince now (keyCreatedAt now newer) := by
  rcases hafter with ⟨advance, rfl⟩
  have hsame := advance.follows hnodup hbelow hkey hlater hid
  unfold Advance.retire at hsame
  split at hsame
  next hmem =>
    rcases (advance.mayRetire key hkey hmem).2 with
      ⟨newer, hnewer, hnewerActive, hlatest, hcreated, hage⟩
    exact ⟨hsame, newer, hnewer, hnewerActive, advance.newest_kept hnewer hnewerActive hlatest,
      hcreated, hage⟩
  next =>
    rw [hsame] at hretired
    exact absurd hretired (active_not_retired.mp hactive)

/-- A retired key stays what it is until it is deleted. -/
theorem Advanced.retired_kept (hafter : Advanced config now next keys after)
    (hnodup : (keys.map SigningKeyRecord.id).Nodup) (hbelow : ∀ key ∈ keys, key.id < next)
    {key later : SigningKeyRecord} (hkey : key ∈ keys) (hretired : key.isRetired = true)
    (hlater : later ∈ after) (hid : later.id = key.id) : later = key := by
  rcases hafter with ⟨advance, rfl⟩
  have hsame := advance.follows hnodup hbelow hkey hlater hid
  unfold Advance.retire at hsame
  split at hsame
  next hmem =>
    exact absurd hretired (active_not_retired.mp (advance.mayRetire key hkey hmem).1)
  next => exact hsame

theorem Advanced.deletes (hafter : Advanced config now next keys after) {key : SigningKeyRecord}
    (hkey : key ∈ keys) (hgone : ∀ later ∈ after, later.id ≠ key.id) :
    MayDelete config now keys key := by
  rcases hafter with ⟨advance, rfl⟩
  by_cases hdeleted : key.id ∈ advance.deleted
  · exact advance.mayDelete key hkey hdeleted
  · have hkept := (advance.mem_keysAfter _).mpr (.inl ⟨key, hkey, hdeleted, rfl⟩)
    exact absurd (advance.retire_id key) (hgone _ hkept)

/-- An identifier that is gone is not used again. -/
theorem Advanced.stays_gone (hafter : Advanced config now next keys after) {id : Uuid}
    (hid : id < next) (hgone : ∀ key ∈ keys, key.id ≠ id) : ∀ key ∈ after, key.id ≠ id := by
  rcases hafter with ⟨advance, rfl⟩
  intro key hkey
  rcases (advance.mem_keysAfter key).mp hkey with ⟨old, hold, _, rfl⟩ | hadded
  · rw [advance.retire_id]
    exact hgone old hold
  · have hfresh := (advance.fresh key hadded).2.2
    exact Nat.ne_of_gt (Nat.lt_of_lt_of_le hid hfresh)

theorem length_states (keys : List SigningKeyRecord) :
    keys.length = (keys.filter SigningKeyRecord.isActive).length +
      (keys.filter SigningKeyRecord.isRetired).length := by
  induction keys with
  | nil => rfl
  | cons key keys ih =>
    cases hactive : key.isActive with
    | true =>
      have hretired := Bool.eq_false_iff.mpr (active_not_retired.mp hactive)
      simp only [List.filter_cons, hactive, hretired, if_true, List.length_cons, ih]
      simp only [Bool.false_eq_true, if_false]
      omega
    | false =>
      have hretired : key.isRetired = true := by
        by_contra h
        rw [active_not_retired.mpr h] at hactive
        cases hactive
      simp only [List.filter_cons, hactive, hretired, if_true, List.length_cons, ih]
      simp only [Bool.false_eq_true, if_false]
      omega

/-- A key is added only beside a single one. -/
theorem Advanced.length_le (hafter : Advanced config now next keys after) (h : keys.length ≤ 2) :
    after.length ≤ 2 := by
  rcases hafter with ⟨advance, rfl⟩
  have hkept : (keys.filter fun key => decide (key.id ∉ advance.deleted)).length ≤ keys.length :=
    List.length_filter_le _ _
  unfold Advance.keysAfter
  rw [List.length_append, List.length_map]
  by_cases hadded : advance.added = []
  · rw [hadded, List.length_nil]
    omega
  · rcases advance.mayStart hadded with ⟨_, hretired, key, hactive, _⟩
    have hone := length_states keys
    rw [hactive, hretired] at hone
    simp only [List.length_cons, List.length_nil] at hone
    have := advance.single
    omega

end Pass

/-! Runs of passes. -/

theorem runPass_advanced (state : Maintained) (pass : RolloverPass) (zoneId : Uuid) :
    Advanced pass.config (state.next pass) state.store.dnssecKeys.next
      (zoneKeys state.store zoneId) (zoneKeys (runPass state pass).store zoneId) :=
  (processRollover_advancing pass (state.next pass) zoneId state.store).keys

def HasActive (zoneId : Uuid) (state : Maintained) : Prop :=
  ∃ key ∈ zoneKeys state.store zoneId, key.isActive = true

/-- A key that the pass retires has a newer active one, which is out for the
overlap and stays active. -/
def RetiresSafely (zoneId : Uuid) (state : Maintained) (pass : RolloverPass) : Prop :=
  ∀ key ∈ zoneKeys state.store zoneId, key.isActive = true →
    ∀ later ∈ zoneKeys (runPass state pass).store zoneId, later.id = key.id →
      later.isRetired = true →
        ∃ newer ∈ zoneKeys state.store zoneId, newer.isActive = true ∧
          newer ∈ zoneKeys (runPass state pass).store zoneId ∧
          keyCreatedAt (state.next pass) key < keyCreatedAt (state.next pass) newer ∧
          (pass.config.overlap : Int) ≤
            max 0 (state.next pass - keyCreatedAt (state.next pass) newer)

/-- A key that the pass deletes is retired, for the retire period at least. -/
def DeletesAged (zoneId : Uuid) (state : Maintained) (pass : RolloverPass) : Prop :=
  ∀ key ∈ zoneKeys state.store zoneId,
    (∀ later ∈ zoneKeys (runPass state pass).store zoneId, later.id ≠ key.id) →
      key.isRetired = true ∧ (pass.config.retire : Int) ≤
        max 0 (state.next pass - key.retiredAt.getD (state.next pass))

theorem runPass_hasActive (zoneId : Uuid) (state : Maintained) (pass : RolloverPass)
    (h : HasActive zoneId state) : HasActive zoneId (runPass state pass) :=
  (runPass_advanced state pass zoneId).active_kept h

theorem runPass_retiresSafely (zoneId : Uuid) (state : Maintained) (pass : RolloverPass) :
    RetiresSafely zoneId state pass := by
  intro key hkey hactive later hlater hid hretired
  rcases (runPass_advanced state pass zoneId).retires (zoneKeys_nodup _ _) (zoneKeys_below _ _)
    hkey hactive hlater hid hretired with ⟨_, newer, hnewer, hnewerActive, hstays, hcreated, hage⟩
  refine ⟨newer, hnewer, hnewerActive, hstays, hcreated, ?_⟩
  exact (Int.ofNat_le.mpr hage).trans (ageSince_le _ _)

theorem runPass_deletesAged (zoneId : Uuid) (state : Maintained) (pass : RolloverPass) :
    DeletesAged zoneId state pass := by
  intro key hkey hgone
  rcases (runPass_advanced state pass zoneId).deletes hkey hgone with ⟨hretired, _, hage⟩
  exact ⟨hretired, (Int.ofNat_le.mpr hage).trans (ageSince_le _ _)⟩

/-- A retired key is still there as it was, or gone for good. -/
def Settled (zoneId : Uuid) (key : SigningKeyRecord) (state : Maintained) : Prop :=
  key ∈ zoneKeys state.store zoneId ∨
    (key.id < state.store.dnssecKeys.next ∧
      ∀ other ∈ zoneKeys state.store zoneId, other.id ≠ key.id)

theorem runPass_settled (zoneId : Uuid) {key : SigningKeyRecord} (hretired : key.isRetired = true)
    (state : Maintained) (pass : RolloverPass) (h : Settled zoneId key state) :
    Settled zoneId key (runPass state pass) := by
  have hadvanced := runPass_advanced state pass zoneId
  have hnext : state.store.dnssecKeys.next ≤ (runPass state pass).store.dnssecKeys.next :=
    (processRollover_advancing pass (state.next pass) zoneId state.store).only.next
  rcases h with hmem | ⟨hid, hgone⟩
  · by_cases hstays : ∃ later ∈ zoneKeys (runPass state pass).store zoneId, later.id = key.id
    · rcases hstays with ⟨later, hlater, hid⟩
      have hsame := hadvanced.retired_kept (zoneKeys_nodup _ _) (zoneKeys_below _ _) hmem hretired
        hlater hid
      exact .inl (hsame ▸ hlater)
    · push Not at hstays
      exact .inr ⟨(zoneKeys_below _ _ key hmem).trans_le hnext, hstays⟩
  · exact .inr ⟨hid.trans_le hnext, hadvanced.stays_gone hid hgone⟩

theorem Maintained.clock_le_next (state : Maintained) (pass : RolloverPass) :
    state.clock ≤ state.next pass := Int.le_add_of_nonneg_right (Int.natCast_nonneg _)

theorem runPass_clock {time : Time} (state : Maintained) (pass : RolloverPass)
    (h : time ≤ state.clock) : time ≤ (runPass state pass).clock :=
  h.trans (state.clock_le_next pass)

/-- Between the pass that retires a key and the pass that deletes it lies the
retire period. -/
def RetirementsLast (zoneId : Uuid) (start : Maintained) (passes : List RolloverPass) : Prop :=
  ∀ first retiring middle deleting last,
    passes = first ++ retiring :: (middle ++ deleting :: last) →
    let before := run runPass start first
    let retired := runPass before retiring
    let kept := run runPass retired middle
    ∀ key ∈ zoneKeys before.store zoneId, key.isActive = true →
      (∃ later ∈ zoneKeys retired.store zoneId, later.id = key.id ∧ later.isRetired = true) →
      (∃ later ∈ zoneKeys kept.store zoneId, later.id = key.id) →
      (∀ later ∈ zoneKeys (runPass kept deleting).store zoneId, later.id ≠ key.id) →
      (deleting.config.retire : Int) ≤ (runPass kept deleting).clock - retired.clock

theorem retirementsLast (zoneId : Uuid) (start : Maintained) (passes : List RolloverPass) :
    RetirementsLast zoneId start passes := by
  intro first retiring middle deleting last _ before retired kept key hkey hactive hretires hkept
    hgone
  rcases hretires with ⟨later, hlater, hid, hretired⟩
  rcases hkept with ⟨still, hstill, hstillId⟩
  have hdated : later = key.retiredNow retired.clock :=
    ((runPass_advanced before retiring zoneId).retires (zoneKeys_nodup _ _) (zoneKeys_below _ _)
      hkey hactive hlater hid hretired).1
  have hsettled : Settled zoneId later kept :=
    run_invariant (Settled zoneId later) (runPass_settled zoneId hretired) middle (.inl hlater)
  have hclock : retired.clock ≤ kept.clock :=
    run_invariant (fun state : Maintained => retired.clock ≤ state.clock) runPass_clock middle
      (Int.le_refl _)
  have hmem : later ∈ zoneKeys kept.store zoneId :=
    hsettled.resolve_right fun h => h.2 still hstill (hstillId.trans hid.symm)
  have hage := (runPass_deletesAged zoneId kept deleting later hmem
    fun other hother => hid ▸ hgone other hother).2
  have hat : later.retiredAt = some retired.clock := by rw [hdated]; rfl
  rw [hat, Option.getD_some] at hage
  have hlater : retired.clock ≤ kept.next deleting := hclock.trans (kept.clock_le_next deleting)
  rw [max_eq_right (Int.sub_nonneg_of_le hlater)] at hage
  exact hage

/-- From an active key on, whatever the thresholds, the gaps between the passes
and the failures in them: an active key is left in every state, a key retires
only for a newer active one that is out for the overlap, it is deleted only when
it was retired for the retire period, and a zone with one key never has three. -/
theorem rollover_safe (zoneId : Uuid) (start : Maintained) (passes : List RolloverPass)
    (hactive : HasActive zoneId start) :
    Always runPass (HasActive zoneId) start passes ∧
      Each runPass (RetiresSafely zoneId) start passes ∧
      Each runPass (DeletesAged zoneId) start passes ∧
      RetirementsLast zoneId start passes ∧
      (((zoneKeys start.store zoneId).filter SigningKeyRecord.isActive).length = 1 →
        (zoneKeys start.store zoneId).filter SigningKeyRecord.isRetired = [] →
        Always runPass (fun state => (zoneKeys state.store zoneId).length ≤ 2) start passes) := by
  refine ⟨always_of_step (runPass_hasActive zoneId) passes hactive,
    each_of_forall (runPass_retiresSafely zoneId) passes start,
    each_of_forall (runPass_deletesAged zoneId) passes start,
    retirementsLast zoneId start passes, ?_⟩
  intro hone hnone
  apply always_of_step
  · exact fun state pass h => (runPass_advanced state pass zoneId).length_le h
  · have hlength := length_states (zoneKeys start.store zoneId)
    rw [hone, hnone, List.length_nil] at hlength
    omega

/-- The example zone with one key, created at the start of the clock. -/
def Maintained.exampleCom : Maintained where
  store := storeSigningKey .exampleCom 0 (13, [1]) 0
  clock := 0

/-- A pass one day after the last, with thresholds of a day. -/
def dailyPass : RolloverPass where
  elapsed := 86400000000000
  config := ⟨86400000000000, 86400000000000, 86400000000000⟩
  generate := fun _ => .ok (13, [2])
  fault := fun _ => none

theorem rollover_safe_daily :
    Always runPass (fun state => (zoneKeys state.store 0).length ≤ 2) .exampleCom
      [dailyPass, dailyPass, dailyPass] := by
  have hactive : HasActive 0 .exampleCom := ⟨newKey 0 (13, [1]) 0 0, by decide, rfl⟩
  exact (rollover_safe 0 .exampleCom [dailyPass, dailyPass, dailyPass] hactive).2.2.2.2
    (by decide) (by decide)

/-- Three days later the second key has taken over. -/
example : (zoneKeys (run runPass .exampleCom [dailyPass, dailyPass, dailyPass]).store 0).map
    (fun key => (key.id, key.state)) = [(1, .active)] := by decide

end DaygleDns.Authoritative
