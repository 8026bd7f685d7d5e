import DaygleDns.Authoritative.CatalogKept

/-! Which zones a catalog owns after a pass over its members. -/
namespace DaygleDns.Authoritative

open Text Fallible Persist

/-- A zone here has the member's name, whatever its case. -/
def Hosted (store : ZoneStore) (member : Text) : Prop :=
  ∃ zone ∈ store.zones.rows, eqIgnoreAsciiCase zone.name member = true

instance (store : ZoneStore) (member : Text) : Decidable (Hosted store member) :=
  inferInstanceAs (Decidable (∃ zone ∈ store.zones.rows, eqIgnoreAsciiCase zone.name member = true))

def Creatable (refresher : Refresher) (store : ZoneStore) (member : Text) : Prop :=
  ∃ created, createZone refresher.hickory store { name := member } refresher.now = .ok created

/-- The names of the zones that the members not here yet are created as. -/
def addedNames (store : ZoneStore) (members : List Text) : List Text :=
  (members.filter fun member => decide (¬ Hosted store member)).map normalizeFqdn

/-- The creation of the member fails, by itself or after those before it. -/
def Refused (refresher : Refresher) (store : ZoneStore) (before : List Text) (member : Text) : Prop :=
  ¬ Hosted store member ∧
    (¬ Creatable refresher store member ∨ normalizeFqdn member ∈ addedNames store before)

def OwnedName (consumer : CatalogConsumerConfig) (state : CatalogState) (name : Text) : Prop :=
  ∃ zone ∈ state.store.zones.rows, zone.name = name ∧ Owns consumer state zone

def Listed (members : List Text) (name : Text) : Prop :=
  ∃ member ∈ members, eqIgnoreAsciiCase name member = true

/-- The member is not here and can be, as the zone of that name. -/
def Wanted (refresher : Refresher) (store : ZoneStore) (members : List Text) (name : Text) : Prop :=
  ∃ member ∈ members, ¬ Hosted store member ∧ Creatable refresher store member ∧
    normalizeFqdn member = name

/-- The catalog's zones are those of its members that nothing else serves. -/
def OwnedAsListed (refresher : Refresher) (consumer : CatalogConsumerConfig) (start : CatalogState)
    (members : List Text) (after : CatalogState) : Prop :=
  ∀ name, OwnedName consumer after name ↔
    (OwnedName consumer start name ∧ Listed members name) ∨
      Wanted refresher start.store members name

/-- A member that is refused is followed by none that can be created and leaves
no zone to remove; where none is refused, the catalog's zones are listed in
lower case. -/
structure NoneHeldUp (refresher : Refresher) (consumer : CatalogConsumerConfig) (start : CatalogState)
    (members : List Text) : Prop where
  refused : ∀ before member later, members = before ++ member :: later →
    Refused refresher start.store before member →
      (∀ name, Wanted refresher start.store later name → name ∈ addedNames start.store before) ∧
      ∀ name, OwnedName consumer start name → Listed members name
  spelled : (∀ before member later, members = before ++ member :: later →
    ¬ Refused refresher start.store before member) →
      ∀ name, OwnedName consumer start name → Listed members name → name ∈ members

/-- The pass has created zones of these names and changed no others. -/
structure Adds (consumer : CatalogConsumerConfig) (start state : CatalogState) (names : List Text) :
    Prop where
  zones : ∃ created, state.store.zones.rows = start.store.zones.rows ++ created ∧
    created.map Zone.name = names ∧ ∀ zone ∈ created, Owns consumer state zone
  aliases : state.store.zoneAliases = start.store.zoneAliases
  owners : ∀ zone ∈ start.store.zones.rows,
    ownerOf state.owners zone.id = ownerOf start.owners zone.id

theorem addedNames_append (store : ZoneStore) (first second : List Text) :
    addedNames store (first ++ second) = addedNames store first ++ addedNames store second := by
  unfold addedNames
  rw [List.filter_append, List.map_append]

theorem addedNames_hosted {store : ZoneStore} {member : Text} (h : Hosted store member) :
    addedNames store [member] = [] := by
  simp [addedNames, h]

theorem addedNames_missing {store : ZoneStore} {member : Text} (h : ¬ Hosted store member) :
    addedNames store [member] = [normalizeFqdn member] := by
  simp [addedNames, h]

theorem creatable_later {refresher : Refresher} {consumer : CatalogConsumerConfig}
    {start state : CatalogState} {names : List Text} {member : Text}
    (hstart : Constrained start.store) (h : Adds consumer start state names) :
    Creatable refresher state.store member ↔
      Creatable refresher start.store member ∧ normalizeFqdn member ∉ names := by
  rcases h.zones with ⟨created, hrows, hnames, _⟩
  have halias : ∀ entry ∈ start.store.zoneAliases,
      (state.store.getZone entry.zoneId = none ↔ start.store.getZone entry.zoneId = none) := by
    intro entry hentry
    rcases hstart.aliases entry hentry with ⟨zone, hzone, hid⟩
    have hbefore := (getZone_eq_some_iff start.store entry.zoneId zone).mpr ⟨hzone, hid⟩
    have hafter := (getZone_eq_some_iff state.store entry.zoneId zone).mpr
      ⟨hrows ▸ List.mem_append_left _ hzone, hid⟩
    rw [hbefore, hafter]
  unfold Creatable
  rw [createZone_iff, createZone_iff, h.aliases, hrows, ← hnames]
  constructor
  · rintro ⟨hname, haliases, hfresh, hrecord⟩
    refine ⟨⟨hname, ?_, ?_, hrecord⟩, ?_⟩
    · exact fun entry hentry hsame => (halias entry hentry).mp (haliases entry hentry hsame)
    · exact fun zone hzone => hfresh zone (List.mem_append_left _ hzone)
    · intro hmem
      rcases List.mem_map.mp hmem with ⟨zone, hzone, hsame⟩
      exact hfresh zone (List.mem_append_right _ hzone) hsame
  · rintro ⟨⟨hname, haliases, hfresh, hrecord⟩, hnew⟩
    refine ⟨hname, ?_, ?_, hrecord⟩
    · exact fun entry hentry hsame => (halias entry hentry).mpr (haliases entry hentry hsame)
    · intro zone hzone hsame
      rcases List.mem_append.mp hzone with hzone | hzone
      · exact hfresh zone hzone hsame
      · exact hnew (List.mem_map.mpr ⟨zone, hzone, hsame⟩)

section Pass

variable {refresher : Refresher} {consumer : CatalogConsumerConfig} {start : CatalogState}

theorem exec_transact_reliable {transaction : CatalogState → CatalogState} {call : StoreCall}
    (hfaults : ∀ call, refresher.faults call = none) (state : CatalogState) :
    exec (transact (refresher.faults call) fun state => .ok (transaction state)) state =
      (.ok (), transaction state) := by
  rw [exec_transact, hfaults]

theorem Adds.mark {state : CatalogState} {names : List Text} (h : Adds consumer start state names)
    (zoneId : Uuid) (masters : List Text) (refreshSecs : Nat) :
    Adds consumer start
      { state with store := setSecondary state.store zoneId masters refreshSecs } names := by
  unfold setSecondary
  split <;> exact ⟨h.zones, h.aliases, h.owners⟩

theorem serveMember_hosted {state : CatalogState} {names : List Text} {member : Text}
    (hfaults : ∀ call, refresher.faults call = none) (h : Adds consumer start state names)
    (hhosted : Hosted start.store member) (changed : Bool) :
    ∃ after, exec (serveMember refresher consumer start.owners start.store.zones.rows changed member)
      state = (.ok changed, after) ∧ Adds consumer start after names := by
  unfold serveMember
  split
  next hosted hfound =>
    split
    · rw [exec_read_bind]
      split
      · refine ⟨setZone (memberConfig consumer member) { state with
          store := setSecondary state.store hosted.id consumer.masters consumer.refreshSecs }, ?_, ?_⟩
        · unfold markSecondary
          rw [exec_bind, exec_transact_reliable hfaults]
          rfl
        · have hmarked := h.mark hosted.id consumer.masters consumer.refreshSecs
          exact ⟨hmarked.zones, hmarked.aliases, hmarked.owners⟩
      · exact ⟨state, rfl, h⟩
    · exact ⟨state, rfl, h⟩
  next hnone =>
    rcases hhosted with ⟨zone, hzone, hsame⟩
    exact absurd hsame (List.find?_eq_none.mp hnone zone hzone)

theorem serveMember_missing {member : Text} (hmissing : ¬ Hosted start.store member) (changed : Bool) :
    serveMember refresher consumer start.owners start.store.zones.rows changed member =
      (do createMember refresher consumer member; pure true) := by
  unfold serveMember
  split
  next zone hfound =>
    have hsame := List.find?_some hfound
    exact absurd ⟨zone, List.mem_of_find?_eq_some hfound, hsame⟩ hmissing
  next => rfl

theorem serveMember_refused {state : CatalogState} {before : List Text} {member : Text}
    (hfaults : ∀ call, refresher.faults call = none) (hstart : Constrained start.store)
    (h : Adds consumer start state (addedNames start.store before))
    (hrefused : Refused refresher start.store before member) (changed : Bool) :
    ∃ e, exec (serveMember refresher consumer start.owners start.store.zones.rows changed member)
      state = (.error e, state) := by
  have hnot : ¬ Creatable refresher state.store member := by
    rw [creatable_later hstart h]
    rintro ⟨hcreatable, hnew⟩
    rcases hrefused.2 with hbad | htaken
    · exact hbad hcreatable
    · exact hnew htaken
  rw [serveMember_missing hrefused.1]
  unfold createMember
  rw [exec_bind, exec_guarded_bind, hfaults]
  dsimp only
  rw [exec_read_bind, exec_result_bind]
  cases houtcome : createZone refresher.hickory state.store { name := member } refresher.now with
  | ok created => exact absurd ⟨created, houtcome⟩ hnot
  | error e => exact ⟨e, rfl⟩

theorem serveMember_created {state : CatalogState} {names : List Text} {member : Text}
    (hfaults : ∀ call, refresher.faults call = none) (hstart : Constrained start.store)
    (h : Adds consumer start state names) (hmissing : ¬ Hosted start.store member)
    (hcreatable : Creatable refresher start.store member) (hnew : normalizeFqdn member ∉ names)
    (changed : Bool) :
    ∃ after, exec (serveMember refresher consumer start.owners start.store.zones.rows changed member)
      state = (.ok true, after) ∧ Adds consumer start after (names ++ [normalizeFqdn member]) := by
  rcases (creatable_later hstart h).mpr ⟨hcreatable, hnew⟩ with ⟨⟨zone, store⟩, hcreated⟩
  have hcreates := createZone_creates hcreated
  have hname := (createZone_name hcreated).1
  rcases h.zones with ⟨created, hrows, hnames, howned⟩
  rw [serveMember_missing hmissing]
  refine ⟨setZone (memberConfig consumer member)
    { state with
      store := setSecondary store zone.id consumer.masters consumer.refreshSecs
      owners := (zone.id, normalizeFqdn consumer.name) ::
        state.owners.filter fun row => row.1 != zone.id }, ?_, ?_⟩
  · unfold createMember markSecondary
    rw [exec_bind, exec_guarded_bind, hfaults]
    dsimp only
    rw [exec_read_bind, exec_result_bind, hcreated]
    dsimp only
    rw [exec_bind, exec_write]
    dsimp only
    rw [exec_bind, exec_transact_reliable hfaults]
    dsimp only
    rw [exec_bind, exec_transact_reliable hfaults]
    rfl
  · have hstored : (setSecondary store zone.id consumer.masters consumer.refreshSecs).zones = store.zones ∧
        (setSecondary store zone.id consumer.masters consumer.refreshSecs).zoneAliases =
          store.zoneAliases := by
      unfold setSecondary
      split <;> exact ⟨rfl, rfl⟩
    have hother : ∀ other ∈ state.store.zones.rows,
        ownerOf ((zone.id, normalizeFqdn consumer.name) ::
          state.owners.filter fun row => row.1 != zone.id) other.id = ownerOf state.owners other.id := by
      intro other hother
      have hne : zone.id ≠ other.id := by
        rw [hcreates.id]
        exact Nat.ne_of_gt (state.store.zones.below other hother)
      exact (addOwner_kept (normalizeFqdn consumer.name) hother hne).owner
    refine ⟨⟨created ++ [zone], ?_, ?_, ?_⟩, ?_, ?_⟩
    · change (setSecondary store _ _ _).zones.rows = _
      rw [hstored.1, hcreates.zones, hrows, List.append_assoc]
    · rw [List.map_append, hnames, List.map_singleton, hname]
    · intro other hmem
      rcases List.mem_append.mp hmem with hmem | hmem
      · refine Eq.trans (hother other ?_) (howned other hmem)
        rw [hrows]
        exact List.mem_append_right _ hmem
      · rw [List.mem_singleton.mp hmem]
        change ownerOf ((zone.id, _) :: _) zone.id = _
        unfold ownerOf
        simp
    · change (setSecondary store _ _ _).zoneAliases = _
      rw [hstored.2, hcreates.zoneAliases, h.aliases]
    · intro other hmem
      refine Eq.trans (hother other ?_) (h.owners other hmem)
      rw [hrows]
      exact List.mem_append_left _ hmem

theorem serveMember_done {state : CatalogState} {before : List Text} {member : Text}
    (hfaults : ∀ call, refresher.faults call = none) (hstart : Constrained start.store)
    (h : Adds consumer start state (addedNames start.store before))
    (hserved : ¬ Refused refresher start.store before member) (changed : Bool) :
    ∃ result after,
      exec (serveMember refresher consumer start.owners start.store.zones.rows changed member) state =
        (.ok result, after) ∧
      Adds consumer start after (addedNames start.store (before ++ [member])) := by
  rw [addedNames_append]
  by_cases hhosted : Hosted start.store member
  · rw [addedNames_hosted hhosted, List.append_nil]
    rcases serveMember_hosted hfaults h hhosted changed with ⟨after, hexec, hadds⟩
    exact ⟨changed, after, hexec, hadds⟩
  · rw [addedNames_missing hhosted]
    have hgood : Creatable refresher start.store member ∧
        normalizeFqdn member ∉ addedNames start.store before := by
      constructor
      · by_contra hbad
        exact hserved ⟨hhosted, .inl hbad⟩
      · exact fun htaken => hserved ⟨hhosted, .inr htaken⟩
    rcases serveMember_created hfaults hstart h hhosted hgood.1 hgood.2 changed with
      ⟨after, hexec, hadds⟩
    exact ⟨true, after, hexec, hadds⟩

/-- No member of the list is refused, after those before it. -/
def NoneRefused (refresher : Refresher) (store : ZoneStore) (members : List Text) : Prop :=
  ∀ before member later, members = before ++ member :: later → ¬ Refused refresher store before member

theorem noneRefused_nil (refresher : Refresher) (store : ZoneStore) : NoneRefused refresher store [] := by
  intro before member later h
  simp at h

theorem NoneRefused.concat {store : ZoneStore} {members : List Text} {member : Text}
    (h : NoneRefused refresher store members) (hlast : ¬ Refused refresher store members member) :
    NoneRefused refresher store (members ++ [member]) := by
  intro before other later hsplit
  rcases List.eq_nil_or_concat later with rfl | ⟨init, last, rfl⟩
  · rcases List.append_inj' hsplit rfl with ⟨rfl, hother⟩
    cases hother
    exact hlast
  · rw [List.concat_eq_append, ← List.cons_append, ← List.append_assoc] at hsplit
    exact h before other init (List.append_inj' hsplit rfl).1

/-- The loop over the members serves them all, or stops at the first refused. -/
theorem serveMembers (hfaults : ∀ call, refresher.faults call = none)
    (hstart : Constrained start.store) (before later : List Text) {state : CatalogState}
    (h : Adds consumer start state (addedNames start.store before))
    (hnone : NoneRefused refresher start.store before) (changed : Bool) :
    (∃ result after,
      exec (later.foldlM (serveMember refresher consumer start.owners start.store.zones.rows) changed)
        state = (.ok result, after) ∧
      Adds consumer start after (addedNames start.store (before ++ later)) ∧
      NoneRefused refresher start.store (before ++ later)) ∨
    ∃ done member rest e after, later = done ++ member :: rest ∧
      exec (later.foldlM (serveMember refresher consumer start.owners start.store.zones.rows) changed)
        state = (.error e, after) ∧
      Adds consumer start after (addedNames start.store (before ++ done)) ∧
      NoneRefused refresher start.store (before ++ done) ∧
      Refused refresher start.store (before ++ done) member := by
  induction later generalizing before state changed with
  | nil =>
    left
    exact ⟨changed, state, rfl, by simpa using h, by simpa using hnone⟩
  | cons member later ih =>
    rw [List.foldlM_cons]
    by_cases hrefused : Refused refresher start.store before member
    · right
      rcases serveMember_refused hfaults hstart h hrefused changed with ⟨e, herror⟩
      refine ⟨[], member, later, e, state, rfl, ?_, by simpa using h, by simpa using hnone,
        by simpa using hrefused⟩
      rw [exec_bind, herror]
    · rcases serveMember_done hfaults hstart h hrefused changed with ⟨served, middle, hserved, hmiddle⟩
      rw [exec_bind, hserved]
      rcases ih (before ++ [member]) hmiddle (hnone.concat hrefused) served with hall | hstop
      · left
        simpa using hall
      · right
        rcases hstop with ⟨done, refused, rest, e, after, hsplit, hexec, hadds, hdone, hlast⟩
        refine ⟨member :: done, refused, rest, e, after, by rw [hsplit]; rfl, hexec, ?_, ?_, ?_⟩
        · simpa using hadds
        · simpa using hdone
        · simpa using hlast

/-- The loop over the catalog's zones removes those that are not wanted. -/
theorem dropMembers (hfaults : ∀ call, refresher.faults call = none) (wanted : List Text)
    (owned : List (Text × Uuid)) (changed : Bool) (state : CatalogState) :
    ∃ result after, exec (owned.foldlM (dropMember refresher wanted) changed) state =
        (.ok result, after) ∧
      (after.store.zones.rows = state.store.zones.rows.filter fun zone =>
        !owned.any fun row => decide (row.1 ∉ wanted) && row.2 == zone.id) ∧
      ∀ id, (∀ row ∈ owned, row.1 ∉ wanted → row.2 ≠ id) →
        ownerOf after.owners id = ownerOf state.owners id := by
  induction owned generalizing changed state with
  | nil => exact ⟨changed, state, rfl, by simp, fun _ _ => rfl⟩
  | cons first owned ih =>
    rw [List.foldlM_cons]
    by_cases hwanted : first.1 ∈ wanted
    · have hstep : exec (dropMember refresher wanted changed first) state = (.ok changed, state) := by
        unfold dropMember
        rw [if_pos hwanted]
        rfl
      rw [exec_bind, hstep]
      rcases ih changed state with ⟨result, after, hexec, hrows, howners⟩
      refine ⟨result, after, hexec, ?_, ?_⟩
      · rw [hrows]
        simp [hwanted]
      · exact fun id hkept => howners id fun row hrow => hkept row (List.mem_cons_of_mem _ hrow)
    · let removed := removeZone first.1 { state with
        store := deleteZone state.store first.2
        owners := state.owners.filter fun row => row.1 != first.2 }
      have hstep : exec (dropMember refresher wanted changed first) state = (.ok true, removed) := by
        unfold dropMember removeMember
        rw [if_neg hwanted, exec_bind, exec_bind, exec_transact_reliable hfaults]
        rfl
      rw [exec_bind, hstep]
      rcases ih true removed with ⟨result, after, hexec, hrows, howners⟩
      refine ⟨result, after, hexec, ?_, ?_⟩
      · rw [hrows]
        change (List.filter _ (List.filter _ state.store.zones.rows)) = _
        rw [List.filter_filter]
        apply List.filter_congr
        intro zone _
        by_cases hid : first.2 = zone.id
        · simp [hwanted, hid]
        · have hleft : (first.2 == zone.id) = false := beq_eq_false_iff_ne.mpr hid
          have hright : (zone.id == first.2) = false := beq_eq_false_iff_ne.mpr (Ne.symm hid)
          simp [hwanted, hleft, hright]
      · intro id hkept
        refine (howners id fun row hrow => hkept row (List.mem_cons_of_mem _ hrow)).trans ?_
        exact ownerOf_filter (hkept first List.mem_cons_self hwanted)

theorem adds_start : Adds consumer start start [] :=
  ⟨⟨[], by simp⟩, rfl, fun _ _ => rfl⟩

theorem Adds.ownedName {state : CatalogState} {names : List Text}
    (h : Adds consumer start state names) (name : Text) :
    OwnedName consumer state name ↔ OwnedName consumer start name ∨ name ∈ names := by
  rcases h.zones with ⟨created, hrows, hnames, howned⟩
  unfold OwnedName Owns
  rw [hrows, ← hnames]
  constructor
  · rintro ⟨zone, hzone, hname, howner⟩
    rcases List.mem_append.mp hzone with hzone | hzone
    · rw [h.owners zone hzone] at howner
      exact .inl ⟨zone, hzone, hname, howner⟩
    · exact .inr (List.mem_map.mpr ⟨zone, hzone, hname⟩)
  · rintro (⟨zone, hzone, hname, howner⟩ | hmem)
    · refine ⟨zone, List.mem_append_left _ hzone, hname, ?_⟩
      rw [h.owners zone hzone]
      exact howner
    · rcases List.mem_map.mp hmem with ⟨zone, hzone, hname⟩
      exact ⟨zone, List.mem_append_right _ hzone, hname, howned zone hzone⟩

theorem NoneRefused.mem_addedNames {store : ZoneStore} {members : List Text} {name : Text}
    (h : NoneRefused refresher store members) :
    name ∈ addedNames store members ↔ Wanted refresher store members name := by
  unfold addedNames Wanted
  rw [List.mem_map]
  constructor
  · rintro ⟨member, hmember, hname⟩
    rcases List.mem_filter.mp hmember with ⟨hmem, hmissing⟩
    have hhosted : ¬ Hosted store member := of_decide_eq_true hmissing
    rcases List.append_of_mem hmem with ⟨before, later, hsplit⟩
    refine ⟨member, hmem, hhosted, ?_, hname⟩
    by_contra hbad
    exact h before member later hsplit ⟨hhosted, .inl hbad⟩
  · rintro ⟨member, hmem, hhosted, _, hname⟩
    exact ⟨member, List.mem_filter.mpr ⟨hmem, decide_eq_true hhosted⟩, hname⟩

/-- What can still be created is not the catalog's yet. -/
theorem Wanted.not_owned {members : List Text} {name : Text}
    (h : Wanted refresher start.store members name) : ¬ OwnedName consumer start name := by
  rcases h with ⟨member, _, _, hcreatable, hname⟩
  rintro ⟨zone, hzone, hsame, _⟩
  exact (createZone_iff.mp hcreatable).2.2.1 zone hzone (hsame.trans hname.symm)

theorem mem_ownedZones {zone : Zone} {row : Text × Uuid} (hstart : Constrained start.store)
    (hrow : row ∈ ownedZones consumer start.owners start.store.zones.rows)
    (hzone : zone ∈ start.store.zones.rows) (hid : row.2 = zone.id) :
    row.1 = zone.name ∧ Owns consumer start zone := by
  rcases List.mem_map.mp hrow with ⟨other, hother, rfl⟩
  rcases List.mem_filter.mp hother with ⟨hmem, howner⟩
  have hsame := start.store.zones.eq_of_key_eq hmem hzone hid
  rw [← hsame]
  exact ⟨hstart.lower other hmem, beq_iff_eq.mp howner⟩

/-- After the removals the catalog has, of its zones from before, the listed. -/
theorem ownedName_dropped {middle after : CatalogState} {names members : List Text}
    (hstart : Constrained start.store) (hadds : Adds consumer start middle names)
    (hrows : after.store.zones.rows = middle.store.zones.rows.filter fun zone =>
      !(ownedZones consumer start.owners start.store.zones.rows).any fun row =>
        decide (row.1 ∉ members) && row.2 == zone.id)
    (howners : ∀ id, (∀ row ∈ ownedZones consumer start.owners start.store.zones.rows,
      row.1 ∉ members → row.2 ≠ id) → ownerOf after.owners id = ownerOf middle.owners id)
    (name : Text) :
    OwnedName consumer after name ↔
      (OwnedName consumer start name ∧ name ∈ members) ∨ name ∈ names := by
  rcases hadds.zones with ⟨created, hgrown, hnames, howned⟩
  have hafter : ∀ zone, zone ∈ after.store.zones.rows ↔ zone ∈ middle.store.zones.rows ∧
      ∀ row ∈ ownedZones consumer start.owners start.store.zones.rows,
        row.1 ∉ members → row.2 ≠ zone.id := by
    intro zone
    rw [hrows, List.mem_filter]
    simp
  have hnew : ∀ zone ∈ created, ∀ row ∈ ownedZones consumer start.owners start.store.zones.rows,
      row.2 ≠ zone.id := by
    intro zone hzone row hrow hid
    rcases List.mem_map.mp hrow with ⟨other, hother, rfl⟩
    have hnodup := middle.store.zones.nodup
    rw [hgrown, List.map_append] at hnodup
    exact (List.nodup_append.mp hnodup).2.2 other.id
      (List.mem_map.mpr ⟨other, List.mem_of_mem_filter hother, rfl⟩) zone.id
      (List.mem_map.mpr ⟨zone, hzone, rfl⟩) hid
  rw [← hnames]
  constructor
  · rintro ⟨zone, hzone, hname, howner⟩
    rcases (hafter zone).mp hzone with ⟨hmiddle, hkept⟩
    have howns : Owns consumer middle zone := (howners zone.id hkept).symm.trans howner
    rw [hgrown] at hmiddle
    rcases List.mem_append.mp hmiddle with hold | hcreated
    · left
      have hfirst : Owns consumer start zone := (hadds.owners zone hold).symm.trans howns
      refine ⟨⟨zone, hold, hname, hfirst⟩, ?_⟩
      by_contra hunlisted
      have hrow : (toAsciiLowercase zone.name, zone.id) ∈
          ownedZones consumer start.owners start.store.zones.rows :=
        List.mem_map.mpr ⟨zone, List.mem_filter.mpr ⟨hold, beq_iff_eq.mpr hfirst⟩, rfl⟩
      refine hkept _ hrow ?_ rfl
      rw [hstart.lower zone hold, hname]
      exact hunlisted
    · right
      exact List.mem_map.mpr ⟨zone, hcreated, hname⟩
  · rintro (⟨⟨zone, hold, hname, howner⟩, hlisted⟩ | hmem)
    · have hkept : ∀ row ∈ ownedZones consumer start.owners start.store.zones.rows,
          row.1 ∉ members → row.2 ≠ zone.id := by
        intro row hrow hunlisted hid
        apply hunlisted
        rw [(mem_ownedZones hstart hrow hold hid).1, hname]
        exact hlisted
      refine ⟨zone, (hafter zone).mpr ⟨hgrown ▸ List.mem_append_left _ hold, hkept⟩, hname, ?_⟩
      exact (howners zone.id hkept).trans ((hadds.owners zone hold).trans howner)
    · rcases List.mem_map.mp hmem with ⟨zone, hcreated, hname⟩
      have hkept : ∀ row ∈ ownedZones consumer start.owners start.store.zones.rows,
          row.1 ∉ members → row.2 ≠ zone.id := fun row hrow _ => hnew zone hcreated row hrow
      refine ⟨zone, (hafter zone).mpr ⟨hgrown ▸ List.mem_append_right _ hcreated, hkept⟩, hname, ?_⟩
      exact (howners zone.id hkept).trans (howned zone hcreated)

/-- Where the pass stops early nothing is removed. -/
theorem reconcile_owned (hfaults : ∀ call, refresher.faults call = none)
    (hstart : Constrained start.store) (members : List Text) :
    (∃ done member rest, members = done ++ member :: rest ∧
      NoneRefused refresher start.store done ∧ Refused refresher start.store done member ∧
      ∀ name, OwnedName consumer (exec (reconcile refresher consumer (some members)) start).2 name ↔
        OwnedName consumer start name ∨ name ∈ addedNames start.store done) ∨
    (NoneRefused refresher start.store members ∧
      ∀ name, OwnedName consumer (exec (reconcile refresher consumer (some members)) start).2 name ↔
        (OwnedName consumer start name ∧ name ∈ members) ∨ name ∈ addedNames start.store members) := by
  have hreconcile : exec (reconcile refresher consumer (some members)) start =
      exec (do
        let changed ← members.foldlM
          (serveMember refresher consumer start.owners start.store.zones.rows) false
        let changed ← (ownedZones consumer start.owners start.store.zones.rows).foldlM
          (dropMember refresher members) changed
        if changed then
          guarded (refresher.faults .reload)
        pure changed) start := by
    unfold reconcile
    rw [exec_guarded_bind, hfaults]
    dsimp only
    rw [exec_read_bind, exec_guarded_bind, hfaults]
    dsimp only
    rw [exec_read_bind]
    rfl
  rw [hreconcile, exec_bind]
  rcases @serveMembers refresher consumer _ hfaults hstart [] members
    _ adds_start (noneRefused_nil refresher start.store) false with hall | hstop
  · right
    rcases hall with ⟨served, middle, hserved, hadds, hnone⟩
    rw [hserved]
    dsimp only
    rcases dropMembers hfaults members (ownedZones consumer start.owners start.store.zones.rows) served
      middle with ⟨dropped, after, hdropped, hrows, howners⟩
    rw [exec_bind, hdropped]
    dsimp only
    have hlast : (exec (do
        if dropped = true then
          guarded (refresher.faults .reload)
        pure dropped : Follow Bool) after).2 = after := by
      split
      · rw [exec_guarded_bind, hfaults]
        rfl
      · rfl
    refine ⟨hnone, fun name => ?_⟩
    rw [hlast]
    exact ownedName_dropped hstart hadds hrows howners name
  · left
    rcases hstop with ⟨done, member, rest, e, after, hsplit, hexec, hadds, hnone, hrefused⟩
    rw [hexec]
    exact ⟨done, member, rest, hsplit, hnone, hrefused, hadds.ownedName⟩

end Pass

/-- No zone of another is touched, whatever fails. The catalog's zones are those
listed that nothing else serves exactly when no refused member holds up what
comes after it. -/
theorem reconcile_exact_iff (refresher : Refresher) (consumer : CatalogConsumerConfig)
    (start : CatalogState) (members : List Text) (hstart : Constrained start.store) :
    (∀ zone ∈ start.store.zones.rows, ¬ Owns consumer start zone →
      ZoneKept zone start (exec (reconcile refresher consumer (some members)) start).2) ∧
    ((∀ call, refresher.faults call = none) →
      (OwnedAsListed refresher consumer start members
          (exec (reconcile refresher consumer (some members)) start).2 ↔
        NoneHeldUp refresher consumer start members)) := by
  constructor
  · exact fun zone hzone hforeign =>
      reconcile_zoneKept refresher consumer (some members) hstart hzone hforeign
  intro hfaults
  rcases reconcile_owned hfaults hstart members with hstop | hall
  · rcases hstop with ⟨done, member, rest, hsplit, hnone, hrefused, howned⟩
    have hproperty : OwnedAsListed refresher consumer start members
        (exec (reconcile refresher consumer (some members)) start).2 ↔
        ∀ name, (OwnedName consumer start name ∨ Wanted refresher start.store done name) ↔
          (OwnedName consumer start name ∧ Listed members name) ∨
            Wanted refresher start.store members name := by
      refine forall_congr' fun name => ?_
      rw [howned name, hnone.mem_addedNames]
    rw [hproperty]
    constructor
    · intro hexact
      refine ⟨?_, fun hclear => absurd hrefused (hclear done member rest hsplit)⟩
      intro before other later hother hbad
      have hdone : done <+: members := ⟨member :: rest, hsplit.symm⟩
      have hearly : done <+: before := by
        apply List.prefix_of_prefix_length_le hdone ⟨other :: later, hother.symm⟩
        by_contra hshort
        have hother' : before ++ [other] <+: members := ⟨later, by simp [hother]⟩
        have hwithin : before ++ [other] <+: done := by
          apply List.prefix_of_prefix_length_le hother' hdone
          rw [List.length_append, List.length_singleton]
          omega
        rcases hwithin with ⟨tail, htail⟩
        exact hnone before other tail (by rw [← htail]; simp) hbad
      constructor
      · rintro name ⟨wanted, hmem, hwanted⟩
        have hnow : Wanted refresher start.store members name :=
          ⟨wanted, hother ▸ List.mem_append_right _ (List.mem_cons_of_mem _ hmem), hwanted⟩
        have hdone := ((hexact name).mpr (.inr hnow)).resolve_left hnow.not_owned
        rcases hearly with ⟨tail, rfl⟩
        rw [addedNames_append]
        exact List.mem_append_left _ (hnone.mem_addedNames.mpr hdone)
      · intro name hname
        rcases (hexact name).mp (.inl hname) with hlisted | hwanted
        · exact hlisted.2
        · exact absurd hname hwanted.not_owned
    · intro hmet name
      have hheld := hmet.refused done member rest hsplit hrefused
      constructor
      · rintro (hname | ⟨early, hearly, hwanted⟩)
        · exact .inl ⟨hname, hheld.2 name hname⟩
        · exact .inr ⟨early, hsplit ▸ List.mem_append_left _ hearly, hwanted⟩
      · rintro (⟨hname, _⟩ | ⟨wanted, hmem, hwanted⟩)
        · exact .inl hname
        · right
          rw [← hnone.mem_addedNames]
          rw [hsplit] at hmem
          rcases List.mem_append.mp hmem with hmem | hmem
          · exact hnone.mem_addedNames.mpr ⟨wanted, hmem, hwanted⟩
          · rcases List.mem_cons.mp hmem with rfl | hmem
            · rcases hrefused.2 with hbad | htaken
              · exact absurd hwanted.2.1 hbad
              · rw [← hwanted.2.2]
                exact htaken
            · exact hheld.1 name ⟨wanted, hmem, hwanted⟩
  · rcases hall with ⟨hnone, howned⟩
    have hproperty : OwnedAsListed refresher consumer start members
        (exec (reconcile refresher consumer (some members)) start).2 ↔
        ∀ name, ((OwnedName consumer start name ∧ name ∈ members) ∨
            Wanted refresher start.store members name) ↔
          (OwnedName consumer start name ∧ Listed members name) ∨
            Wanted refresher start.store members name := by
      refine forall_congr' fun name => ?_
      rw [howned name, hnone.mem_addedNames]
    rw [hproperty]
    constructor
    · intro hexact
      refine ⟨fun before member later hsplit hrefused => absurd hrefused (hnone before member later hsplit), ?_⟩
      intro _ name hname hlisted
      rcases (hexact name).mpr (.inl ⟨hname, hlisted⟩) with hkept | hwanted
      · exact hkept.2
      · exact absurd hname hwanted.not_owned
    · intro hmet name
      constructor
      · rintro (⟨hname, hmem⟩ | hwanted)
        · exact .inl ⟨hname, name, hmem, by simp [eqIgnoreAsciiCase]⟩
        · exact .inr hwanted
      · rintro (⟨hname, hlisted⟩ | hwanted)
        · exact .inl ⟨hname, hmet.spelled hnone name hname hlisted⟩
        · exact .inr hwanted

/-- Two listed zones, the first under a name that is not fully qualified. -/
def heldUpMembers : List Text := ["localhost", "example.com"]

theorem memberTest_constrained : Constrained CatalogState.memberTest.store :=
  ⟨by decide, by decide, by decide⟩

/-- The second zone is not added, and the one no longer listed is kept. -/
theorem reconcile_exact_fails :
    Creatable cutOffRefresher CatalogState.memberTest.store "example.com" ∧
      (exec (reconcile cutOffRefresher cutOffConsumer (some heldUpMembers)) .memberTest).2.store.zones.rows =
        [Zone.memberTest] ∧
      ¬ OwnedAsListed cutOffRefresher cutOffConsumer .memberTest heldUpMembers
        (exec (reconcile cutOffRefresher cutOffConsumer (some heldUpMembers)) .memberTest).2 := by
  have hcreatable : Creatable cutOffRefresher CatalogState.memberTest.store "example.com" := by
    have hok : (createZone cutOffRefresher.hickory CatalogState.memberTest.store
        { name := "example.com" } cutOffRefresher.now).isOk = true := by decide
    unfold Creatable
    cases houtcome : createZone cutOffRefresher.hickory CatalogState.memberTest.store
        { name := "example.com" } cutOffRefresher.now with
    | ok created => exact ⟨created, rfl⟩
    | error e =>
      rw [houtcome] at hok
      cases hok
  have hrows : (exec (reconcile cutOffRefresher cutOffConsumer (some heldUpMembers))
      .memberTest).2.store.zones.rows = [Zone.memberTest] := by decide
  refine ⟨hcreatable, hrows, fun hexact => ?_⟩
  have hwanted : Wanted cutOffRefresher CatalogState.memberTest.store heldUpMembers "example.com" := by
    refine ⟨"example.com", ?_, ?_, hcreatable, ?_⟩
    · decide
    · decide
    · decide
  rcases (hexact "example.com").mpr (.inr hwanted) with ⟨zone, hzone, hname, _⟩
  rw [hrows, List.mem_singleton] at hzone
  rw [hzone] at hname
  exact absurd hname (by decide)

/-- The same catalog, where every name it lists is fully qualified. -/
theorem reconcile_exact_iff_memberTest :
    (∀ zone ∈ CatalogState.memberTest.store.zones.rows,
      ¬ Owns cutOffConsumer .memberTest zone → ZoneKept zone .memberTest
        (exec (reconcile cutOffRefresher cutOffConsumer (some ["example.com"])) .memberTest).2) ∧
    (OwnedAsListed cutOffRefresher cutOffConsumer .memberTest ["example.com"]
        (exec (reconcile cutOffRefresher cutOffConsumer (some ["example.com"])) .memberTest).2 ↔
      NoneHeldUp cutOffRefresher cutOffConsumer .memberTest ["example.com"]) := by
  have hexact := reconcile_exact_iff cutOffRefresher cutOffConsumer .memberTest ["example.com"]
    memberTest_constrained
  exact ⟨hexact.1, hexact.2 fun _ => rfl⟩

end DaygleDns.Authoritative
