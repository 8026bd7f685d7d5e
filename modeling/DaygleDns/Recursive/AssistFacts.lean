import DaygleDns.Recursive.CacheAssist

/-! What each call of the cache assistant does to the snapshot under one key. -/
namespace DaygleDns.Recursive

namespace CacheAssistant

variable {N D : Type} {assistant : CacheAssistant N D}

/-- The snapshot stays as it is, or is evicted. -/
def KeptAt (k : CacheKey) (before after : CacheMap (Snapshot N D)) : Prop :=
  after.get k = before.get k ∨ after.get k = none

theorem keptAt_makeRoom (order : Shuffle (CacheKey × Snapshot N D)) (snapshots : CacheMap (Snapshot N D))
    (key k : CacheKey) : KeptAt k snapshots (makeRoom order snapshots key) := by
  unfold makeRoom
  split
  · unfold evictBatch KeptAt
    simp only [OrderedTable.get_eraseAll]
    split
    · exact .inr rfl
    · exact .inl rfl
  · exact .inl rfl

/-- Room is made for new keys only. -/
theorem get_makeRoom_self (order : Shuffle (CacheKey × Snapshot N D)) (snapshots : CacheMap (Snapshot N D))
    (key : CacheKey) : (makeRoom order snapshots key).get key = snapshots.get key := by
  rcases keptAt_makeRoom order snapshots key key with hsame | hnone
  · exact hsame
  · unfold makeRoom at hnone ⊢
    split at hnone
    next hfull =>
      rw [if_pos hfull, hnone]
      have hnew : snapshots.contains key = false := by
        simpa using (Bool.and_eq_true_iff.mp hfull).2
      exact (Option.isNone_iff_eq_none.mp (by simpa [OrderedTable.contains] using hnew)).symm
    next hroom => rw [if_neg hroom]

/-- What a call that stores one snapshot leaves under each key. -/
structure Stored (key : CacheKey) (snapshot : Snapshot N D) (before after : CacheAssistant N D) : Prop where
  self : after.get key = some snapshot
  others : ∀ k, k ≠ key → ∀ s, after.get k = some s → before.get k = some s
  config : after.config = before.config

theorem stored_put {order : Shuffle (CacheKey × Snapshot N D)} {key : CacheKey} {snapshot : Snapshot N D}
    {after : CacheAssistant N D}
    (hsnapshots : after.snapshots = (makeRoom order assistant.snapshots key).put (key, snapshot))
    (hconfig : after.config = assistant.config) : Stored key snapshot assistant after := by
  refine ⟨?_, fun k hk s hget => ?_, hconfig⟩
  · simp [get, hsnapshots, OrderedTable.get_put]
  · simp only [get, hsnapshots, OrderedTable.get_put, if_neg (Ne.symm hk)] at hget
    rcases keptAt_makeRoom order assistant.snapshots key k with hsame | hnone
    · rw [hsame] at hget
      exact hget
    · rw [hnone] at hget
      cases hget

/-- The snapshot of an answer that was just looked up. -/
def answered (config : PrefetchConfig) (now : Nat) (lookup : Lookup N D) : Snapshot N D where
  query := lookup.query
  answers := clampAnswerTtls lookup.answers config.maxCacheTtl
  validUntil := effectiveDeadline config now lookup
  fetchedAt := now
  failureUntil := none
  failureCode := none
  failureSoa := none
  restored := false

theorem stored_onSuccess (orders : MapOrders N D) (now : Nat) (assistant : CacheAssistant N D) (key : CacheKey)
    (lookup : Lookup N D) :
    Stored key (answered assistant.config now lookup) assistant (onSuccess orders now assistant key lookup).2 :=
  stored_put rfl rfl

/-- The snapshot under which a failure is recorded. -/
def underlying (now : Nat) (query : Query N) (snapshot : Option (Snapshot N D)) : Snapshot N D :=
  snapshot.getD
    { query
      answers := []
      validUntil := nowInThePast now
      fetchedAt := now
      failureUntil := none
      failureCode := none
      failureSoa := none
      restored := false }

theorem stored_recordFailure (order : Shuffle (CacheKey × Snapshot N D)) (now : Nat)
    (assistant : CacheAssistant N D) (key : CacheKey) (query : Query N) (code : UInt16) (until_ : Nat) :
    Stored key
      { underlying now query (assistant.get key) with
        failureUntil := some until_, failureCode := some code, failureSoa := none }
      assistant (recordFailure order now assistant key query code until_) := by
  refine @stored_put N D assistant order key _ _ ?_ rfl
  simp only [recordFailure, get_makeRoom_self]
  rfl

theorem get_setFailureSoa (assistant : CacheAssistant N D) (key : CacheKey) (soa : Record D) (k : CacheKey) :
    (setFailureSoa assistant key soa).get k =
      if k = key then (assistant.get k).map fun s => { s with failureSoa := some soa } else assistant.get k := by
  unfold setFailureSoa
  cases hget : assistant.get key with
  | none =>
    by_cases hk : k = key
    · rw [if_pos hk, hk, hget]
      rfl
    · rw [if_neg hk]
  | some snapshot =>
    by_cases hk : k = key
    · rw [if_pos hk, hk, hget]
      simp [get, OrderedTable.get_put]
    · simp [get, OrderedTable.get_put, hk, Ne.symm hk]

theorem get_forget (assistant : CacheAssistant N D) (name : Text) (rtype : Option UInt16) (k : CacheKey)
    (snapshot : Snapshot N D) (h : (forget assistant name rtype).get k = some snapshot) :
    assistant.get k = some snapshot := by
  simp only [get, forget, OrderedTable.get_retain, Option.map_eq_some_iff, Option.filter_eq_some_iff] at h ⊢
  obtain ⟨entry, ⟨hget, _⟩, hsame⟩ := h
  exact ⟨entry, hget, hsame⟩

@[simp] theorem get_new (config : PrefetchConfig) (k : CacheKey) :
    (new config : CacheAssistant N D).get k = none := rfl

/-- What an entry is restored to. -/
theorem restoreEntry_eq_some {config : PrefetchConfig} {now nowWall : Nat} {entry : PersistedEntry N D}
    {snapshot : Snapshot N D} (h : restoreEntry config now nowWall entry = some snapshot) :
    snapshot.answers = entry.answers ∧ snapshot.restored = true ∧
      (∃ left, left = (if 0 < config.maxCacheTtl then min (entry.validThroughSecs - nowWall) config.maxCacheTtl.toNat
          else entry.validThroughSecs - nowWall) ∧
        snapshot.validUntil = if 0 < left then now + fromSecs left else nowInThePast now) ∧
      (snapshot.failureUntil ≠ none → nowWall < entry.failureThroughSecs ∧ 0 < config.failureCacheTtl) := by
  unfold restoreEntry at h
  simp only at h
  split at h
  · cases h
  · split at h
    · cases h
    · split at h
      · cases h
      · rw [← Option.some.inj h]
        refine ⟨rfl, rfl, ⟨_, rfl, rfl⟩, fun hfailure => ?_⟩
        simp only [ne_eq, ite_eq_right_iff, reduceCtorEq, imp_false, not_not, Bool.and_eq_true, decide_eq_true_eq] at hfailure
        exact ⟨Nat.lt_of_sub_pos hfailure.1, hfailure.2⟩

/-- An entry of the file is dropped, or stored under its key. -/
theorem importEntry_cases (order : Shuffle (CacheKey × Snapshot N D)) (now : Nat) (nowWall : Nat)
    (assistant : CacheAssistant N D) (entry : PersistedEntry N D) :
    restoreEntry assistant.config now nowWall entry = none ∧
        importEntry order now nowWall assistant entry = assistant ∨
      ∃ snapshot, restoreEntry assistant.config now nowWall entry = some snapshot ∧
        Stored entry.key snapshot assistant (importEntry order now nowWall assistant entry) := by
  unfold importEntry
  cases hrestore : restoreEntry assistant.config now nowWall entry with
  | none => exact .inl ⟨rfl, rfl⟩
  | some snapshot => exact .inr ⟨snapshot, rfl, stored_put rfl rfl⟩

theorem importEntry_config (order : Shuffle (CacheKey × Snapshot N D)) (now nowWall : Nat)
    (assistant : CacheAssistant N D) (entry : PersistedEntry N D) :
    (importEntry order now nowWall assistant entry).config = assistant.config := by
  unfold importEntry
  split <;> rfl

theorem importAll_config (order : Shuffle (CacheKey × Snapshot N D)) (now nowWall : Nat)
    (entries : List (PersistedEntry N D)) (assistant : CacheAssistant N D) :
    (entries.foldl (importEntry order now nowWall) assistant).config = assistant.config := by
  induction entries generalizing assistant with
  | nil => rfl
  | cons entry rest ih => exact (ih _).trans (importEntry_config order now nowWall assistant entry)

theorem staleAnswer_eq_some {now : Nat} {key : CacheKey} {lookup : Lookup N D} :
    staleAnswer now assistant key = some lookup ↔
      assistant.config.serveStaleSecs ≠ 0 ∧ ∃ snapshot, assistant.get key = some snapshot ∧
        snapshot.validUntil < now ∧ now - snapshot.validUntil ≤ fromSecs assistant.config.serveStaleSecs ∧
          lookup = { query := snapshot.query, answers := staleAnswers snapshot.answers
                     validUntil := now + fromSecs STALE_TTL_SECS.toNat } := by
  unfold staleAnswer
  by_cases hoff : assistant.config.serveStaleSecs = 0
  · simp [hoff]
  · simp only [hoff, if_false, ne_eq, not_false_eq_true, true_and]
    cases assistant.get key with
    | none => simp
    | some snapshot =>
      simp only [Option.bind_eq_bind, Option.bind_some, Option.some.injEq, exists_eq_left']
      split
      next hfresh => simp only [reduceCtorEq, false_iff]; omega
      next hstale =>
        simp only [Option.some.injEq]
        constructor
        · intro hlookup
          exact ⟨by omega, by omega, hlookup.symm⟩
        · exact fun h => h.2.2.symm

end CacheAssistant

end DaygleDns.Recursive
