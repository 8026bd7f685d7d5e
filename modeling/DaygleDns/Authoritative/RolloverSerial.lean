import DaygleDns.Authoritative.RolloverRuns
import DaygleDns.Authoritative.SerialRuns

/-! The rollover changes the keys of a zone and never its serial, by which the
secondaries see that there is something to transfer. -/
namespace DaygleDns.Authoritative

open Persist Runs

/-- The pairs of key and state, which the transferred zone's DNSKEY, CDS and
RRSIG records are made from. -/
def keyStates (store : ZoneStore) (zoneId : Uuid) : List (Uuid × KeyState) :=
  (zoneKeys store zoneId).map fun key => (key.id, key.state)

def KeyStatesChanged (zoneId : Uuid) (before after : ZoneStore) : Prop :=
  ¬ ∀ pair, pair ∈ keyStates before zoneId ↔ pair ∈ keyStates after zoneId

/-- If the pass changes the keys, it leaves the zone with a newer serial. -/
def ReachesSecondaries (zoneId : Uuid) (state : Maintained) (pass : RolloverPass) : Prop :=
  KeyStatesChanged zoneId state.store (runPass state pass).store →
    ∃ old new, state.store.getZone zoneId = some old ∧
      (runPass state pass).store.getZone zoneId = some new ∧
      serialNewer new.serial old.serial = true

/-- A stage of the rollover is due for the zone. -/
def StageDue (zoneId : Uuid) (state : Maintained) (pass : RolloverPass) : Prop :=
  (∃ zone ∈ state.store.zones.rows, zone.id = zoneId ∧ isPrimary state.store zone = true) ∧
    (MayStart pass.config (state.next pass) (zoneKeys state.store zoneId) ∨
      ∃ key ∈ zoneKeys state.store zoneId,
        MayRetire pass.config (state.next pass) (zoneKeys state.store zoneId) key ∨
        MayDelete pass.config (state.next pass) (zoneKeys state.store zoneId) key)

/-- `process_rollover` returns without an error. -/
def Succeeds (state : Maintained) (pass : RolloverPass) : Prop :=
  ∃ events after,
    exec (processRollover pass (state.next pass)) state.store = (.ok events, after)

theorem runPass_getZone (state : Maintained) (pass : RolloverPass) (zoneId : Uuid) :
    (runPass state pass).store.getZone zoneId = state.store.getZone zoneId := by
  have hzones := (processRollover_advancing pass (state.next pass) zoneId state.store).only.zones
  unfold ZoneStore.getZone runPass
  rw [hzones]

/-- The serial stays, so only a pass that changes no key is in order. -/
theorem reachesSecondaries_iff (zoneId : Uuid) (state : Maintained) (pass : RolloverPass) :
    ReachesSecondaries zoneId state pass ↔
      ¬ KeyStatesChanged zoneId state.store (runPass state pass).store := by
  constructor
  · intro h hchanged
    rcases h hchanged with ⟨old, new, hold, hnew, hnewer⟩
    rw [runPass_getZone, hold] at hnew
    rw [← Option.some.inj hnew] at hnewer
    unfold serialNewer at hnewer
    simp at hnewer
  · exact fun h hchanged => absurd hchanged h

/-! Nothing due, nothing done. -/

theorem rolloverZones_secondary (pass : RolloverPass) (now : Time) (store : ZoneStore)
    (zoneId : Uuid)
    (h : ¬ ∃ zone ∈ store.zones.rows, zone.id = zoneId ∧ isPrimary store zone = true) :
    Untouched zoneId store (exec (processRollover pass now) store).2 := by
  unfold processRollover
  rw [exec_bind]
  rcases exec_primaryZones pass store with ⟨e, hzones⟩ | hzones
  · rw [hzones]
    exact .refl _ _
  · rw [hzones]
    have hleads : Leads (fun middle => middle = store) (Untouched zoneId store)
        (do
          let events ← (store.zones.rows.filter (isPrimary store)).foldlM (rolloverZone pass now) 0
          if events ≠ 0 then
            guarded (pass.fault .reload)
          pure events) := by
      apply Leads.bind
      · intro middle hmiddle
        rw [hmiddle]
        apply rolloverZones_untouched
        intro zone hzone hid
        rcases List.mem_filter.mp hzone with ⟨hmem, hprimary⟩
        exact h ⟨zone, hmem, hid, hprimary⟩
      · intro events
        split
        · exact Leads.bind (keeps_guarded _) fun _ => keeps_pure _
        · exact keeps_pure _
    exact hleads store rfl

theorem keyStates_of_not_due {zoneId : Uuid} {state : Maintained} {pass : RolloverPass}
    (h : ¬ StageDue zoneId state pass) :
    ¬ KeyStatesChanged zoneId state.store (runPass state pass).store := by
  have hsame : zoneKeys (runPass state pass).store zoneId = zoneKeys state.store zoneId := by
    by_cases hprimary : ∃ zone ∈ state.store.zones.rows,
        zone.id = zoneId ∧ isPrimary state.store zone = true
    · have hdue := fun hstage => h ⟨hprimary, hstage⟩
      rcases runPass_advanced state pass zoneId with ⟨advance, hafter⟩
      have hadded : advance.added = [] := by
        by_contra hadded
        exact hdue (.inl (advance.mayStart hadded))
      have hkept : (zoneKeys state.store zoneId).filter
          (fun key => decide (key.id ∉ advance.deleted)) = zoneKeys state.store zoneId := by
        apply List.filter_eq_self.mpr
        intro key hkey
        apply decide_eq_true
        intro hdeleted
        exact hdue (.inr ⟨key, hkey, .inr (advance.mayDelete key hkey hdeleted)⟩)
      have hretire : ∀ key ∈ zoneKeys state.store zoneId, advance.retire key = id key := by
        intro key hkey
        unfold Advance.retire
        rw [if_neg]
        · rfl
        · intro hretired
          exact hdue (.inr ⟨key, hkey, .inl (advance.mayRetire key hkey hretired)⟩)
      rw [hafter, Advance.keysAfter, hadded, hkept, List.append_nil, List.map_congr_left hretire,
        List.map_id]
    · exact (rolloverZones_secondary pass (state.next pass) state.store zoneId hprimary).keys
  intro hchanged
  apply hchanged
  intro pair
  unfold keyStates
  rw [hsame]

/-! A stage that is due in a pass that succeeds is carried out. -/

/-- What the writes to the keys of other identifiers leave standing. -/
structure Lasts (inv : ZoneStore → Prop) (ids : List Uuid) : Prop where
  retire : ∀ store id now, id ∈ ids → inv store → inv (setKeyRetired store id now)
  delete : ∀ store id, id ∈ ids → inv store → inv (deleteKey store id)

theorem retireSuperseded_lasts {inv : ZoneStore → Prop} {ids : List Uuid} (hinv : Lasts inv ids)
    (pass : RolloverPass) (now newest : Time) (events : Nat) {key : SigningKeyRecord}
    (hkey : key.id ∈ ids) : Leads inv inv (retireSuperseded pass now newest events key) :=
  leads_retireSuperseded newest events key fun _ store h => hinv.retire store key.id now hkey h

theorem deleteAgedOut_lasts {inv : ZoneStore → Prop} {ids : List Uuid} (hinv : Lasts inv ids)
    (pass : RolloverPass) (now : Time) (events : Nat) {key : SigningKeyRecord}
    (hkey : key.id ∈ ids) : Leads inv inv (deleteAgedOut pass now events key) :=
  leads_deleteAgedOut events key fun _ store h => hinv.delete store key.id hkey h

theorem retireSuperseded_done {pass : RolloverPass} {now newest : Time} {key : SigningKeyRecord}
    (hdue : supersededBy pass.config now newest key = true) {events count : Nat}
    {store after : ZoneStore}
    (h : exec (retireSuperseded pass now newest events key) store = (.ok count, after)) :
    after = setKeyRetired store key.id now := by
  unfold retireSuperseded at h
  rw [if_pos hdue] at h
  exact exec_change_eq_ok h

theorem deleteAgedOut_done {pass : RolloverPass} {now : Time} {key : SigningKeyRecord}
    (hdue : agedOut pass.config now key = true) {events count : Nat} {store after : ZoneStore}
    (h : exec (deleteAgedOut pass now events key) store = (.ok count, after)) :
    after = deleteKey store key.id := by
  unfold deleteAgedOut at h
  rw [if_pos hdue] at h
  exact exec_change_eq_ok h

theorem startRollover_done {pass : RolloverPass} {now : Time} {zone : Zone}
    {first : SigningKeyRecord} {rest retired : List SigningKeyRecord}
    (hdue : startsRollover pass.config now first rest retired = true) {events count : Nat}
    {store after : ZoneStore}
    (h : exec (startRollover pass now zone first rest retired events) store = (.ok count, after)) :
    ∃ material, after = storeSigningKey store zone.id material now := by
  unfold startRollover at h
  rw [if_pos hdue] at h
  rcases exec_bind_eq_ok.mp h with ⟨material, made, hmade, h⟩
  rcases exec_bind_eq_ok.mp h with ⟨_, second, hguard, h⟩
  rcases exec_bind_eq_ok.mp h with ⟨_, third, hwrite, h⟩
  have hfirst : store = made := congrArg Prod.snd hmade
  have hsecond := (exec_guarded_eq_ok.mp hguard).2
  have hthird : storeSigningKey second zone.id material now = third := congrArg Prod.snd hwrite
  have hafter : third = after := congrArg Prod.snd h
  exact ⟨material, by rw [← hafter, ← hthird, ← hsecond, ← hfirst]⟩

/-! What is seen of each stage from then on. -/

def RetiredFromNow (zoneId keyId : Uuid) (store : ZoneStore) : Prop :=
  ∀ key ∈ zoneKeys store zoneId, key.id = keyId → key.isRetired = true

def GoneFromNow (zoneId keyId : Uuid) (store : ZoneStore) : Prop :=
  ∀ key ∈ zoneKeys store zoneId, key.id ≠ keyId

/-- There is a key with an identifier from `next` on. -/
def StartedFromNow (zoneId : Uuid) (next : Nat) (store : ZoneStore) : Prop :=
  ∃ key ∈ zoneKeys store zoneId, next ≤ key.id

theorem mem_setKeyRetired {store : ZoneStore} {keyId zoneId : Uuid} {now : Time}
    {key : SigningKeyRecord} (h : key ∈ zoneKeys (setKeyRetired store keyId now) zoneId) :
    ∃ old ∈ zoneKeys store zoneId, key = if old.id == keyId then old.retiredNow now else old := by
  rw [zoneKeys_setKeyRetired] at h
  rcases List.mem_map.mp h with ⟨old, hold, hkey⟩
  exact ⟨old, hold, hkey.symm⟩

theorem retiredFromNow_lasts (zoneId keyId : Uuid) (ids : List Uuid) :
    Lasts (RetiredFromNow zoneId keyId) ids where
  retire := by
    intro store id now _ h key hkey hid
    rcases mem_setKeyRetired hkey with ⟨old, hold, rfl⟩
    split at hid
    · rw [if_pos (by assumption)]
      rfl
    · rw [if_neg (by assumption)]
      exact h old hold hid
  delete := by
    intro store id _ h key hkey hid
    rw [zoneKeys_deleteKey] at hkey
    exact h key (List.mem_of_mem_filter hkey) hid

theorem goneFromNow_lasts (zoneId keyId : Uuid) (ids : List Uuid) :
    Lasts (GoneFromNow zoneId keyId) ids where
  retire := by
    intro store id now _ h key hkey
    rcases mem_setKeyRetired hkey with ⟨old, hold, rfl⟩
    split <;> exact h old hold
  delete := by
    intro store id _ h key hkey
    rw [zoneKeys_deleteKey] at hkey
    exact h key (List.mem_of_mem_filter hkey)

theorem startedFromNow_lasts (zoneId : Uuid) {next : Nat} {ids : List Uuid}
    (hbelow : ∀ id ∈ ids, id < next) : Lasts (StartedFromNow zoneId next) ids where
  retire := by
    intro store id now _ h
    rcases h with ⟨key, hkey, hid⟩
    refine ⟨if key.id == id then key.retiredNow now else key, ?_, ?_⟩
    · rw [zoneKeys_setKeyRetired]
      exact List.mem_map_of_mem hkey
    · split <;> exact hid
  delete := by
    intro store id hmem h
    rcases h with ⟨key, hkey, hid⟩
    refine ⟨key, ?_, hid⟩
    rw [zoneKeys_deleteKey]
    apply List.mem_filter.mpr
    refine ⟨hkey, ?_⟩
    have hne : key.id ≠ id := Nat.ne_of_gt (Nat.lt_of_lt_of_le (hbelow id hmem) hid)
    simp [hne]

/-- Every stage that was due is carried out. -/
structure CarriedOut (config : MaintenanceConfig) (now : Time) (zoneId : Uuid)
    (start after : ZoneStore) : Prop where
  started : MayStart config now (zoneKeys start zoneId) →
    StartedFromNow zoneId start.dnssecKeys.next after
  retired : ∀ key ∈ zoneKeys start zoneId, MayRetire config now (zoneKeys start zoneId) key →
    RetiredFromNow zoneId key.id after
  deleted : ∀ key ∈ zoneKeys start zoneId, MayDelete config now (zoneKeys start zoneId) key →
    GoneFromNow zoneId key.id after

section Due

variable {pass : RolloverPass} {now : Time} {start after : ZoneStore} {zone : Zone}
  {first : SigningKeyRecord} {rest : List SigningKeyRecord}

theorem mayStart_startsRollover
    (hactive : (zoneKeys start zone.id).filter SigningKeyRecord.isActive = first :: rest)
    (h : MayStart pass.config now (zoneKeys start zone.id)) :
    startsRollover pass.config now first rest
      ((zoneKeys start zone.id).filter SigningKeyRecord.isRetired) = true := by
  rcases h with ⟨hon, hretired, key, hkey, hage⟩
  rw [hactive] at hkey
  injection hkey with hfirst hrest
  rw [startsRollover, hretired, hrest, hfirst]
  simp [hon, hage]

theorem mayRetire_supersededBy
    (hactive : (zoneKeys start zone.id).filter SigningKeyRecord.isActive = first :: rest)
    {key : SigningKeyRecord} (h : MayRetire pass.config now (zoneKeys start zone.id) key) :
    supersededBy pass.config now (newestActive now first rest) key = true := by
  rcases h.2 with ⟨newest, hmem, hnewestActive, hlatest, hcreated, hage⟩
  rcases newestActive_spec now first rest with ⟨⟨top, htop, htopCreated⟩, hbound⟩
  have hle := hbound newest ((mem_active hactive).mpr ⟨hmem, hnewestActive⟩)
  have htopMem := (mem_active hactive).mp htop
  have hge := hlatest top htopMem.1 htopMem.2
  rw [htopCreated] at hge
  have hsame : keyCreatedAt now newest = newestActive now first rest := le_antisymm hle hge
  rw [supersededBy, ← hsame, decide_eq_true hcreated, decide_eq_true hage]
  rfl

/-- What the three stages on the captured keys have done by their end. -/
theorem rolloverKeys_carriedOut {events count : Nat}
    (h : exec (rolloverKeys pass now zone events (zoneKeys start zone.id)) start =
      (.ok count, after)) : CarriedOut pass.config now zone.id start after := by
  unfold rolloverKeys at h
  dsimp only at h
  split at h
  next hnone =>
    -- without an active key no stage is due
    have hinactive : ∀ key ∈ zoneKeys start zone.id, ¬ key.isActive = true := by
      intro key hkey hkeyActive
      have hmem := List.mem_filter.mpr ⟨hkey, hkeyActive⟩
      rw [hnone] at hmem
      simp at hmem
    constructor
    · intro hstart
      rcases hstart with ⟨_, _, key, hkey, _⟩
      rw [hnone] at hkey
      cases hkey
    · intro key hkey hretire
      exact absurd hretire.1 (hinactive key hkey)
    · intro key _ hdelete
      rcases hdelete.2.1 with ⟨other, hother, hotherActive⟩
      exact absurd hotherActive (hinactive other hother)
  next first rest hactive =>
    rcases exec_bind_eq_ok.mp h with ⟨started, middle, hstarted, h⟩
    rcases exec_bind_eq_ok.mp h with ⟨retired, last, hretired, hdeleted⟩
    have hbelow := zoneKeys_below start zone.id
    have hactiveKeys : ∀ key ∈ first :: rest, key ∈ zoneKeys start zone.id :=
      fun key hkey => ((mem_active hactive).mp hkey).1
    -- every stage works on the keys as they were read
    have hretires : ∀ {inv : ZoneStore → Prop},
        Lasts inv ((zoneKeys start zone.id).map SigningKeyRecord.id) → ∀ events,
        ∀ key ∈ first :: rest, Leads inv inv
          (retireSuperseded pass now (newestActive now first rest) events key) :=
      fun hinv events key hkey => retireSuperseded_lasts hinv pass now _ events
        (List.mem_map_of_mem (hactiveKeys key hkey))
    have hdeletes : ∀ {inv : ZoneStore → Prop},
        Lasts inv ((zoneKeys start zone.id).map SigningKeyRecord.id) → ∀ events,
        ∀ key ∈ (zoneKeys start zone.id).filter SigningKeyRecord.isRetired, Leads inv inv
          (deleteAgedOut pass now events key) :=
      fun hinv events key hkey => deleteAgedOut_lasts hinv pass now events
        (List.mem_map_of_mem (List.mem_of_mem_filter hkey))
    have hafterRetire : ∀ {inv : ZoneStore → Prop},
        Lasts inv ((zoneKeys start zone.id).map SigningKeyRecord.id) → inv last → inv after := by
      intro inv hinv hlast
      have hkept := keeps_foldlM _ (hdeletes hinv) retired last hlast
      rw [hdeleted] at hkept
      exact hkept
    constructor
    · intro hstart
      have hlasts : Lasts (StartedFromNow zone.id start.dnssecKeys.next)
          ((zoneKeys start zone.id).map SigningKeyRecord.id) := by
        apply startedFromNow_lasts
        intro id hid
        rcases List.mem_map.mp hid with ⟨key, hkey, rfl⟩
        exact hbelow key hkey
      apply hafterRetire hlasts
      rcases startRollover_done (mayStart_startsRollover hactive hstart) hstarted with
        ⟨material, hmiddle⟩
      have hmiddleStarted : StartedFromNow zone.id start.dnssecKeys.next middle := by
        refine ⟨newKey zone.id material now start.dnssecKeys.next, ?_, Nat.le_refl _⟩
        rw [hmiddle, zoneKeys_storeSigningKey, if_pos rfl]
        exact List.mem_append_right _ (List.mem_singleton.mpr rfl)
      have hkept := keeps_foldlM _ (hretires hlasts) started middle hmiddleStarted
      rw [hretired] at hkept
      exact hkept
    · intro key hkey hretire
      have hlasts := retiredFromNow_lasts zone.id key.id
        ((zoneKeys start zone.id).map SigningKeyRecord.id)
      apply hafterRetire hlasts
      apply foldlM_ensures ((mem_active hactive).mpr ⟨hkey, hretire.1⟩) _ (hretires hlasts) hretired
      intro events store count final hdone
      rw [retireSuperseded_done (mayRetire_supersededBy hactive hretire) hdone]
      intro later hlater hid
      rcases mem_setKeyRetired hlater with ⟨old, _, rfl⟩
      split at hid
      · rw [if_pos (by assumption)]
        rfl
      next hne => exact absurd (beq_iff_eq.mpr hid) hne
    · intro key hkey hdelete
      have hlasts := goneFromNow_lasts zone.id key.id
        ((zoneKeys start zone.id).map SigningKeyRecord.id)
      apply foldlM_ensures (List.mem_filter.mpr ⟨hkey, hdelete.1⟩) _ (hdeletes hlasts) hdeleted
      intro events store count final hdone
      rw [deleteAgedOut_done (decide_eq_true hdelete.2.2) hdone]
      intro later hlater
      rw [zoneKeys_deleteKey] at hlater
      have hne := (List.mem_filter.mp hlater).2
      simpa using hne

end Due

/-- The zone's keys are there as they were when the pass comes to it, and as
they are left when it goes on. -/
theorem rolloverZones_carriedOut (pass : RolloverPass) (now : Time) (zoneId : Uuid)
    {zones : List Zone} (hnodup : (zones.map Zone.id).Nodup) (hzone : zoneId ∈ zones.map Zone.id)
    {events count : Nat} {store after : ZoneStore}
    (h : exec (zones.foldlM (rolloverZone pass now) events) store = (.ok count, after)) :
    CarriedOut pass.config now zoneId store after := by
  induction zones generalizing events store with
  | nil => simp at hzone
  | cons zone zones ih =>
    rw [List.map_cons, List.nodup_cons] at hnodup
    rw [List.foldlM_cons, exec_bind_eq_ok] at h
    rcases h with ⟨next, middle, hfirst, hrest⟩
    by_cases hid : zone.id = zoneId
    · have hkept := rolloverZones_untouched pass now zoneId zones
        (fun other hother hsame =>
          hnodup.1 (List.mem_map.mpr ⟨other, hother, hsame.trans hid.symm⟩)) next middle
      rw [hrest] at hkept
      rw [exec_rolloverZone] at hfirst
      split at hfirst
      next => cases congrArg Prod.fst hfirst
      next =>
        have hcarried := rolloverKeys_carriedOut hfirst
        rw [hid] at hcarried
        refine ⟨?_, ?_, ?_⟩
        · intro hstart
          rw [StartedFromNow, hkept.keys]
          exact hcarried.started hstart
        · intro key hkey hretire
          rw [RetiredFromNow, hkept.keys]
          exact hcarried.retired key hkey hretire
        · intro key hkey hdelete
          rw [GoneFromNow, hkept.keys]
          exact hcarried.deleted key hkey hdelete
    · have hkept := rolloverZone_untouched pass now events hid store
      rw [hfirst] at hkept
      have hmem : zoneId ∈ zones.map Zone.id := by
        rw [List.map_cons] at hzone
        exact (List.mem_cons.mp hzone).resolve_left fun hsame => hid hsame.symm
      have hcarried := ih hnodup.2 hmem hrest
      refine ⟨?_, ?_, ?_⟩
      · intro hstart
        rw [← hkept.keys] at hstart
        rcases hcarried.started hstart with ⟨key, hkey, hnext⟩
        exact ⟨key, hkey, hkept.only.next.trans hnext⟩
      · intro key hkey hretire
        rw [← hkept.keys] at hkey hretire
        exact hcarried.retired key hkey hretire
      · intro key hkey hdelete
        rw [← hkept.keys] at hkey hdelete
        exact hcarried.deleted key hkey hdelete

theorem processRollover_carriedOut {pass : RolloverPass} {now : Time} {zoneId : Uuid}
    {store after : ZoneStore} {events : Nat}
    (hprimary : ∃ zone ∈ store.zones.rows, zone.id = zoneId ∧ isPrimary store zone = true)
    (h : exec (processRollover pass now) store = (.ok events, after)) :
    CarriedOut pass.config now zoneId store after := by
  unfold processRollover at h
  rcases exec_bind_eq_ok.mp h with ⟨zones, middle, hzones, h⟩
  rcases exec_bind_eq_ok.mp h with ⟨count, last, hrolled, h⟩
  have hread : zones = store.zones.rows.filter (isPrimary store) ∧ middle = store := by
    rcases exec_primaryZones pass store with ⟨e, hfailed⟩ | hread
    · rw [hfailed] at hzones
      cases congrArg Prod.fst hzones
    · rw [hread] at hzones
      injection hzones with hlist hstore
      injection hlist with hlist
      exact ⟨hlist.symm, hstore.symm⟩
  rw [hread.1, hread.2] at hrolled
  have hnodup : ((store.zones.rows.filter (isPrimary store)).map Zone.id).Nodup :=
    store.zones.nodup.sublist (List.filter_sublist.map _)
  have hmem : zoneId ∈ (store.zones.rows.filter (isPrimary store)).map Zone.id := by
    rcases hprimary with ⟨zone, hzone, hid, hthis⟩
    exact List.mem_map.mpr ⟨zone, List.mem_filter.mpr ⟨hzone, hthis⟩, hid⟩
  have hcarried := rolloverZones_carriedOut pass now zoneId hnodup hmem hrolled
  have hlast : after = last := by
    split at h
    · rcases exec_bind_eq_ok.mp h with ⟨_, reloaded, hreload, hend⟩
      have hsame : reloaded = after := congrArg Prod.snd hend
      rw [← hsame]
      exact (exec_guarded_eq_ok.mp hreload).2.symm
    · exact (congrArg Prod.snd h).symm
  rw [hlast]
  exact hcarried

theorem keyStates_of_due {zoneId : Uuid} {state : Maintained} {pass : RolloverPass}
    (hsucceeds : Succeeds state pass) (hdue : StageDue zoneId state pass) :
    KeyStatesChanged zoneId state.store (runPass state pass).store := by
  rcases hsucceeds with ⟨events, after, hexec⟩
  have hafter : (runPass state pass).store = after := congrArg Prod.snd hexec
  have hcarried := processRollover_carriedOut hdue.1 hexec
  rw [hafter]
  intro hsame
  rcases hdue.2 with hstart | ⟨key, hkey, hretire | hdelete⟩
  · rcases hcarried.started hstart with ⟨key, hkey, hnext⟩
    have hbefore := (hsame (key.id, key.state)).mpr (List.mem_map_of_mem hkey)
    rcases List.mem_map.mp hbefore with ⟨old, hold, hpair⟩
    have hbelow := zoneKeys_below state.store zoneId old hold
    have hid : old.id = key.id := congrArg Prod.fst hpair
    rw [hid] at hbelow
    exact absurd hbelow (Nat.not_lt.mpr hnext)
  · have hstill := (hsame (key.id, key.state)).mp (List.mem_map_of_mem hkey)
    rcases List.mem_map.mp hstill with ⟨later, hlater, hpair⟩
    have hretired := hcarried.retired key hkey hretire later hlater (congrArg Prod.fst hpair)
    have hstate : later.state = key.state := congrArg Prod.snd hpair
    apply active_not_retired.mp hretire.1
    unfold SigningKeyRecord.isRetired at hretired ⊢
    rw [← hstate]
    exact hretired
  · have hstill := (hsame (key.id, key.state)).mp (List.mem_map_of_mem hkey)
    rcases List.mem_map.mp hstill with ⟨later, hlater, hpair⟩
    exact hcarried.deleted key hkey hdelete later hlater (congrArg Prod.fst hpair)

/-- A run in which no stage is due in any pass keeps every key change in step
with the serial, and where the passes succeed there is no other such run. -/
theorem keyChanges_reach_iff (zoneId : Uuid) (start : Maintained) (passes : List RolloverPass) :
    (Each runPass (fun state pass => ¬ StageDue zoneId state pass) start passes →
      Each runPass (ReachesSecondaries zoneId) start passes) ∧
    (Each runPass Succeeds start passes →
      (Each runPass (ReachesSecondaries zoneId) start passes ↔
        Each runPass (fun state pass => ¬ StageDue zoneId state pass) start passes)) := by
  have hstep : ∀ state pass, ¬ StageDue zoneId state pass → ReachesSecondaries zoneId state pass :=
    fun state pass h => (reachesSecondaries_iff zoneId state pass).mpr (keyStates_of_not_due h)
  refine ⟨each_mono hstep passes start, ?_⟩
  intro hsucceeds
  refine ⟨?_, each_mono hstep passes start⟩
  intro hreach
  apply each_mono _ passes start (each_and hsucceeds hreach)
  intro state pass h hdue
  exact (reachesSecondaries_iff zoneId state pass).mp h.2 (keyStates_of_due h.1 hdue)

theorem keyChanges_reach_iff_daily :
    Each runPass (ReachesSecondaries 0) .exampleCom [dailyPass] ↔
      Each runPass (fun state pass => ¬ StageDue 0 state pass) .exampleCom [dailyPass] :=
  (keyChanges_reach_iff 0 .exampleCom [dailyPass]).2 ⟨⟨1, _, rfl⟩, trivial⟩

/-- The day after, a second key is there under the old serial. -/
theorem keyChanges_reach_fails :
    ¬ Each runPass (ReachesSecondaries 0) .exampleCom [dailyPass] := by
  intro h
  apply (reachesSecondaries_iff 0 .exampleCom dailyPass).mp h.1
  intro hsame
  have hnew : (1, KeyState.active) ∈ keyStates (runPass .exampleCom dailyPass).store 0 := by decide
  have hold := (hsame (1, .active)).mpr hnew
  revert hold
  decide

end DaygleDns.Authoritative
