import DaygleDns.Recursive.RouteScopes

/-! Flushing a name, and what is replayed of it afterwards. -/
namespace DaygleDns.Recursive

open CacheAssistant Runs Text

variable {N D R : Type}

/-- The texts of one name, in any letter case and with a trailing dot or without. -/
def SameName (first second : Text) : Prop :=
  trimEndMatches '.' (toAsciiLowercase first) = trimEndMatches '.' (toAsciiLowercase second)

instance (first second : Text) : Decidable (SameName first second) :=
  inferInstanceAs (Decidable (trimEndMatches '.' (toAsciiLowercase first) = trimEndMatches '.' (toAsciiLowercase second)))

/-- The name under which `flushName` finds what is kept. -/
def flushedName (names : HickoryNames N) (name : N) : Text := (cacheKey names (names.qualify name) 1).name

/-- Flush one record type of a name or all; whether that was complete. The recursor
keeps what it has. `recordTypes` reads the mnemonics. -/
def flushName (site : Site N D R) (recordTypes : Text → Option UInt16) (name : Text) (recordType : Option Text)
    (state : Served N D R) : Except Text (Bool × Served N D R) := do
  let name ←
    match site.names.fromUtf8 (trim name) with
    | .ok parsed => pure (site.names.qualify parsed)
    | .error e => throw ("invalid name '" ++ name ++ "': " ++ e)
  let rtype ←
    match recordType with
    | none => pure none
    | some t =>
        match recordTypes (toAsciiUppercase t) with
        | some rtype => pure (some rtype)
        | none => throw ("unknown record type '" ++ t ++ "'")
  let key := (cacheKey site.names name 1).name
  let complete := !(site.inner state.policies).recursor ||
    (zoneResolver site.conditional site.stubs (site.names.toText name)).isSome
  return (complete, { state with assistant := state.assistant.forget key rtype })

/-- Nothing of the name is replayed from `since` on, to whichever client. -/
def Forgotten (since : Nat) (name : Text) (state : Served N D R) : Prop :=
  ∀ key, SameName key.name name → ∀ now, since ≤ now →
    state.assistant.cachedFailureCode now key = none ∧ state.assistant.freshAnswer now key = none ∧
      state.assistant.staleAnswer now key = none

/-- A lookup or a refresh from which something of the name may be kept. -/
def Records (site : Site N D R) (name : Text) (state : Served N D R) : ServedEvent N D R → Prop
  | .lookup _ _ _ client _ view other rtype upstream =>
      SameName (site.names.toText other) name ∧
        match ((Served.routed site state client view other rtype).route.outcome upstream : Upstream N D) with
        | .answered _ | .failed (some _) _ => True
        | .failed none _ | .broken => False
  | .refreshed _ _ task _ _ => ∃ running, state.tasks[task]? = some running ∧ SameName running.1.name name
  | .restart .. => True
  | .timedOut .. | .flushed .. | .cleared => False

/-- An event from `since` on that keeps nothing new of the name. -/
def Unrecorded (site : Site N D R) (since : Nat) (name : Text) (state : Served N D R) (event : ServedEvent N D R) : Prop :=
  ¬ Records site name state event ∧
    match event with
    | .lookup asked .. => since ≤ asked
    | _ => True

/-- A snapshot of which something is replayed at some time from `since` on. -/
def Replayable (config : PrefetchConfig) (since : Nat) (snapshot : Snapshot N D) : Prop :=
  config.failureCacheTtl ≠ 0 ∧ FailureLasts snapshot since ∨
    snapshot.restored = true ∧ snapshot.answers ≠ [] ∧ since ≤ snapshot.validUntil ∨
      config.serveStaleSecs ≠ 0 ∧ since ≤ snapshot.validUntil + fromSecs config.serveStaleSecs

theorem sameName_lower (first second : Text) : SameName (toAsciiLowercase first) second ↔ SameName first second := by
  unfold SameName
  rw [toAsciiLowercase_idem]

variable {assistant : CacheAssistant N D} {key : CacheKey} {snapshot : Snapshot N D}

theorem staleAnswer_isSome (h : assistant.get key = some snapshot) (now : Nat) :
    (assistant.staleAnswer now key).isSome ↔ assistant.config.serveStaleSecs ≠ 0 ∧ snapshot.validUntil < now ∧
      now - snapshot.validUntil ≤ fromSecs assistant.config.serveStaleSecs := by
  rw [Option.isSome_iff_exists]
  simp only [staleAnswer_eq_some, h, Option.some.injEq, exists_and_left, exists_eq_left', exists_eq, and_true]

theorem replayable_iff (h : assistant.get key = some snapshot) (since : Nat) :
    Replayable assistant.config since snapshot ↔
      ∃ now, since ≤ now ∧ ((assistant.cachedFailureCode now key).isSome ∨ (assistant.freshAnswer now key).isSome ∨
        (assistant.staleAnswer now key).isSome) := by
  simp only [cachedFailureCode_isSome, freshAnswer_isSome_iff, staleAnswer_isSome h, h, Option.some.injEq, exists_eq_left']
  constructor
  · rintro (hfailure | ⟨hrestored, hanswers, hvalid⟩ | ⟨hon, hage⟩)
    · exact ⟨since, Nat.le_refl _, .inl hfailure⟩
    · exact ⟨since, Nat.le_refl _, .inr (.inl ⟨hrestored, hanswers, hvalid⟩)⟩
    · have hpositive : 1 ≤ fromSecs assistant.config.serveStaleSecs := by
        unfold fromSecs
        omega
      refine ⟨max since (snapshot.validUntil + 1), Nat.le_max_left _ _, .inr (.inr ⟨hon, ?_, ?_⟩)⟩ <;> omega
  · rintro ⟨now, hsince, ⟨hon, until_, huntil, hlasts⟩ | ⟨hrestored, hanswers, hvalid⟩ | ⟨hon, hstale, hage⟩⟩
    · exact .inl ⟨hon, until_, huntil, by omega⟩
    · exact .inr (.inl ⟨hrestored, hanswers, by omega⟩)
    · exact .inr (.inr ⟨hon, by omega⟩)

theorem forgotten_iff (since : Nat) (name : Text) (state : Served N D R) :
    Forgotten since name state ↔ ∀ key snapshot, state.assistant.get key = some snapshot → SameName key.name name →
      ¬ Replayable state.assistant.config since snapshot := by
  constructor
  · intro h key snapshot hget hname hreplayable
    obtain ⟨now, hsince, hsome⟩ := (replayable_iff hget since).mp hreplayable
    obtain ⟨hfailure, hfresh, hstale⟩ := h key hname now hsince
    simp [hfailure, hfresh, hstale] at hsome
  · intro h key hname now hsince
    simp only [← Option.not_isSome_iff_eq_none]
    cases hget : state.assistant.get key with
    | none => simp [cachedFailureCode, freshAnswer, staleAnswer, hget]
    | some snapshot =>
      have hnot := h key snapshot hget hname
      rw [replayable_iff hget] at hnot
      refine ⟨fun hfailure => hnot ⟨now, hsince, .inl hfailure⟩, fun hfresh => hnot ⟨now, hsince, .inr (.inl hfresh)⟩,
        fun hstale => hnot ⟨now, hsince, .inr (.inr hstale)⟩⟩

/-- Flushing without a type removes what is kept under the one spelling. -/
theorem get_forget_name (assistant : CacheAssistant N D) (name : Text) (key : CacheKey) :
    (assistant.forget name none).get key = if key.name = name then none else assistant.get key := by
  simp only [CacheAssistant.get, CacheAssistant.forget, OrderedTable.get_retain]
  cases hget : assistant.snapshots.get key with
  | none => simp
  | some entry =>
    have hkey : entry.1 = key := OrderedTable.key_of_get hget
    by_cases hname : key.name = name <;> simp [Option.filter, hkey, hname]

theorem replay_forgotten {since : Nat} {name : Text} {state : Served N D R} (h : Forgotten since name state)
    {key : CacheKey} (hname : SameName key.name name) (orders : MapOrders N D) {now : Nat} (hsince : since ≤ now)
    (shared : Bool) : replay orders now shared state.assistant key = none := by
  obtain ⟨hfailure, hfresh, _⟩ := h key hname now hsince
  unfold replay
  rw [hfailure, hfresh, ite_self]

/-- What an event may change under the keys of a name it keeps nothing of. -/
theorem get_unrecorded {site : Site N D R} {since : Nat} {name : Text} {state : Served N D R}
    {event : ServedEvent N D R} (hforgotten : Forgotten since name state)
    (hevent : Unrecorded site since name state event) {key : CacheKey} (hname : SameName key.name name)
    {snapshot : Snapshot N D} (h : (Served.step site state event).assistant.get key = some snapshot) :
    state.assistant.get key = some snapshot := by
  obtain ⟨hrecords, htime⟩ := hevent
  cases event with
  | timedOut => exact h
  | cleared => cases h
  | restart => exact absurd trivial hrecords
  | flushed text rtype => exact get_forget state.assistant text rtype key snapshot h
  | refreshed now orders task view found =>
    simp only [Served.step] at h
    split at h
    next => exact h
    next running hrunning =>
      have hother : running.1.name ≠ key.name := by
        intro hsame
        exact hrecords ⟨running, hrunning, hsame ▸ hname⟩
      unfold Served.refreshed at h
      simp only at h
      split at h
      next => exact h
      next => exact h
      next =>
        split at h
        next lookup _ =>
          exact (stored_onSuccess orders now state.assistant running.1 lookup).others key
            (fun hsame => hother (by rw [hsame])) snapshot h
        next => exact h
        next => exact h
  | lookup asked answered orders client perClient view other rtype upstream =>
    simp only [Served.step] at h
    split at h
    next => exact h
    next =>
      by_cases hkey : key = (Served.routed site state client view other rtype).key
      · subst hkey
        have hsame : SameName (site.names.toText other) name := (sameName_lower _ _).mp hname
        have hnothing := fun shared => replay_forgotten hforgotten hname orders htime shared
        simp only [Served.lookup, lookupOwned, hnothing, Option.getD_none] at h
        simp only [Records, hsame, true_and] at hrecords
        generalize (Served.routed site state client view other rtype).route.outcome upstream = outcome at h hrecords
        cases outcome with
        | answered => exact absurd trivial hrecords
        | broken => exact h
        | failed code soa =>
          cases code with
          | some => exact absurd trivial hrecords
          | none =>
            simp only [settle] at h
            split at h <;> exact h
      · exact get_lookupOwned_other orders _ _ _ site.nameOf state.assistant hkey _ snapshot h

theorem served_config_step (site : Site N D R) (state : Served N D R) {event : ServedEvent N D R}
    (hevent : ∀ persistAt writtenAt loadAt readAt written loaded policies,
      event ≠ .restart persistAt writtenAt loadAt readAt written loaded policies) :
    (Served.step site state event).assistant.config = state.assistant.config := by
  cases event with
  | timedOut => rfl
  | cleared => rfl
  | flushed => rfl
  | restart => exact absurd rfl (hevent _ _ _ _ _ _ _)
  | refreshed now orders task view found =>
    simp only [Served.step]
    split
    · rfl
    · unfold Served.refreshed
      simp only
      split
      · rfl
      · rfl
      · split <;> rfl
  | lookup =>
    simp only [Served.step]
    split
    · rfl
    · exact config_lookupOwned ..

/-- A name stays forgotten until a new lookup keeps something of it. -/
theorem forgotten_step (site : Site N D R) {since : Nat} {name : Text} (state : Served N D R)
    (event : ServedEvent N D R) (h : Forgotten since name state) (hevent : Unrecorded site since name state event) :
    Forgotten since name (Served.step site state event) := by
  rw [forgotten_iff, served_config_step site state]
  · intro key snapshot hget hname
    exact (forgotten_iff since name state).mp h key snapshot (get_unrecorded h hevent hname hget) hname
  · rintro _ _ _ _ _ _ _ rfl
    exact hevent.1 trivial

/-- After a flush nothing of the name is replayed until a new lookup of it, exactly if
nothing that could be replayed was kept under another spelling than the flushed one. -/
theorem flush_forgets (site : Site N D R) (recordTypes : Text → Option UInt16) (policies : List (ClientPolicy R))
    (before : List (ServedEvent N D R)) (since : Nat) (text : Text) (name : N)
    (hname : site.names.fromUtf8 (trim text) = .ok name) (complete : Bool) (flushed : Served N D R)
    (hflush : flushName site recordTypes text none (run (Served.step site) (.start site policies) before) =
      .ok (complete, flushed)) :
    (∀ later, Each (Served.step site) (Unrecorded site since (site.names.toText name)) flushed later →
      Always (Served.step site) (Forgotten since (site.names.toText name)) flushed later) ↔
    ∀ key snapshot, (run (Served.step site) (.start site policies) before).assistant.get key = some snapshot →
      SameName key.name (site.names.toText name) → key.name ≠ flushedName site.names name →
        ¬ Replayable (run (Served.step site) (.start site policies) before).assistant.config since snapshot := by
  generalize run (Served.step site) (.start site policies) before = state at hflush ⊢
  have hresult : flushed = { state with assistant := state.assistant.forget (flushedName site.names name) none } := by
    unfold flushName at hflush
    simp only [hname] at hflush
    cases hflush
    rfl
  have hget (key : CacheKey) : flushed.assistant.get key =
      if key.name = flushedName site.names name then none else state.assistant.get key := by
    rw [hresult]
    exact get_forget_name state.assistant (flushedName site.names name) key
  have hconfig : flushed.assistant.config = state.assistant.config := by
    rw [hresult]
    rfl
  constructor
  · intro h key snapshot hkept hsame hother
    have hforgotten := (forgotten_iff since _ flushed).mp (h [] trivial) key snapshot (by rw [hget, if_neg hother, hkept])
    rw [hconfig] at hforgotten
    exact hforgotten hsame
  · intro h later hlater
    refine always_of_invariant (Forgotten since (site.names.toText name)) (forgotten_step site) later ?_ hlater
    rw [forgotten_iff]
    intro key snapshot hkept hsame
    rw [hget] at hkept
    rw [hconfig]
    split at hkept
    · cases hkept
    next hother => exact h key snapshot hkept hsame hother

/-- Lookups ask for names as the dispatcher spells them. -/
def FromDispatcher (site : Site N D R) : ServedEvent N D R → Prop
  | .lookup _ _ _ _ _ _ name _ _ =>
      toAsciiLowercase (site.names.toText name) = site.names.toText name ∧ ¬ FullyQualified (site.names.toText name)
  | _ => True

def officeAsked : ServedEvent WwwName Unit Text :=
  .lookup (fromSecs 10) (fromSecs 10) .plain none false (fun _ => none) .relative 1
    (.answered ⟨⟨.qualified, 1⟩, [⟨(), 300⟩], fromSecs 310⟩)

/-- The flushed spelling has a dot, the kept one has none. -/
theorem flush_forgets_fails :
    ¬ ∀ (recordTypes : Text → Option UInt16) (policies : List (ClientPolicy Text))
      (before : List (ServedEvent WwwName Unit Text)), (∀ event ∈ before, FromDispatcher office event) →
      ∀ (since : Nat) (text : Text) (name : WwwName), office.names.fromUtf8 (trim text) = .ok name →
      ∀ (complete : Bool) (flushed : Served WwwName Unit Text),
        flushName office recordTypes text none (run (Served.step office) (.start office policies) before) =
          .ok (complete, flushed) →
        ∀ later, Each (Served.step office) (Unrecorded office since (office.names.toText name)) flushed later →
          Always (Served.step office) (Forgotten since (office.names.toText name)) flushed later := by
  intro h
  have hasked : ∀ event ∈ [officeAsked], FromDispatcher office event := by
    simp only [List.mem_singleton, forall_eq]
    exact ⟨by decide, by decide⟩
  have hforgotten := h (fun _ => none) [] [officeAsked] hasked (fromSecs 20) "www.example.com" .relative rfl true _ rfl []
    trivial
  have hstale := (hforgotten wwwKey (by decide) (fromSecs 400) (by decide)).2.2
  rw [← Option.not_isSome_iff_eq_none] at hstale
  revert hstale
  decide

theorem flush_forgets_qualified :
    Always (Served.step office) (Forgotten (fromSecs 20) "www.example.com.")
      { run (Served.step office) (.start office []) [lookedUp 10 0x0a000005] with
        assistant := (run (Served.step office) (.start office []) [lookedUp 10 0x0a000005]).assistant.forget
          "www.example.com." none } [] := by
  refine (flush_forgets office (fun _ => none) [] [lookedUp 10 0x0a000005] (fromSecs 20) "www.example.com." .qualified rfl
    true _ rfl).mpr ?_ [] trivial
  intro key snapshot hget _ hother
  have hrows : ∀ entry ∈ (run (Served.step office) (.start office []) [lookedUp 10 0x0a000005]).assistant.snapshots.rows,
      entry.1.name = flushedName office.names .qualified := by decide
  obtain ⟨entry, hentry, _⟩ := Option.map_eq_some_iff.mp hget
  have hname := hrows entry (OrderedTable.mem_of_get hentry)
  rw [OrderedTable.key_of_get hentry] at hname
  exact absurd hname hother

end DaygleDns.Recursive
