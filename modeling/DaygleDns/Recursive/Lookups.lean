import DaygleDns.Recursive.CacheAssist
import DaygleDns.Recursive.AssistFacts
import Mathlib.Logic.Function.Basic

/-! One lookup for a client: what is replayed from the cache assistant, and what
an answer or a failure from upstream leaves there. -/
namespace DaygleDns.Recursive

open CacheAssistant

variable {N D : Type}

/-- What the route's servers answer. A failure without a code is one of the
transport; `soa` is the one that a negative answer came with. -/
inductive Upstream (N D : Type) where
  | answered (lookup : Lookup N D)
  | failed (code : Option UInt16) (soa : Option (Record D))
  | broken
deriving DecidableEq, Repr

inductive Reply (N D : Type) where
  | answer (lookup : Lookup N D)
  | stale (lookup : Lookup N D)
  | failed (code : Option UInt16) (soa : Option (Record D))
  | broken
deriving DecidableEq, Repr

/-- Record an answer, and that a prefetch of the name is under way if one is due. -/
def recordAnswer (orders : MapOrders N D) (now : Nat) (assistant : CacheAssistant N D) (key : CacheKey)
    (lookup : Lookup N D) : CacheAssistant N D :=
  let (due, assistant) := assistant.onSuccess orders now key lookup
  if due then (assistant.tryBeginPrefetch key).2 else assistant

/-- A reply without a question upstream: a cached failure or a restored answer.
`shared` is false for an answer to the client's own network alone. -/
def replay (orders : MapOrders N D) (now : Nat) (shared : Bool) (assistant : CacheAssistant N D) (key : CacheKey) :
    Option (Reply N D × CacheAssistant N D) :=
  if !shared then none
  else
    match assistant.cachedFailureCode now key with
    | some code => some (.failed (some code) (assistant.cachedFailureSoa now key), assistant)
    | none =>
        match assistant.freshAnswer now key with
        | some restored => some (.answer restored, recordAnswer orders now assistant key restored)
        | none => none

/-- A negative answer is cached for the next time. -/
def cacheFailure (orders : MapOrders N D) (now : Nat) (nameOf : Text → N) (assistant : CacheAssistant N D)
    (key : CacheKey) (code : UInt16) (soa : Option (Record D)) : CacheAssistant N D :=
  let until_ := now + fromSecs assistant.config.failureCacheTtl.toNat
  let assistant := assistant.recordFailure orders.snapshots now key ⟨nameOf key.name, key.rtype⟩ code until_
  match soa with
  | some soa => assistant.setFailureSoa key soa
  | none => assistant

def settle (orders : MapOrders N D) (now : Nat) (shared : Bool) (nameOf : Text → N) (assistant : CacheAssistant N D)
    (key : CacheKey) : Upstream N D → Reply N D × CacheAssistant N D
  | .answered lookup => (.answer lookup, if shared then recordAnswer orders now assistant key lookup else assistant)
  | .failed none soa =>
      match assistant.staleAnswer now key with
      | some stale => (.stale stale, assistant)
      | none => (.failed none soa, assistant)
  | .failed (some code) soa =>
      (.failed (some code) soa,
        if shared && 0 < assistant.config.failureCacheTtl then cacheFailure orders now nameOf assistant key code soa
        else assistant)
  | .broken => (.broken, assistant)

/-- The lookup of a key at `asked`, which the route's servers answer at `answered`.
`nameOf` reads a name, or gives the empty one. -/
def lookupOwned (orders : MapOrders N D) (asked answered : Nat) (shared : Bool) (nameOf : Text → N)
    (assistant : CacheAssistant N D) (key : CacheKey) (upstream : Upstream N D) : Reply N D × CacheAssistant N D :=
  (replay orders asked shared assistant key).getD (settle orders answered shared nameOf assistant key upstream)

/-! What a lookup replays, what it leaves under each key, and what is restored of a
snapshot file. -/

variable {assistant : CacheAssistant N D} {config : PrefetchConfig} {key : CacheKey}
  {snapshot : Snapshot N D}

/-- The failure of a snapshot is still replayed. -/
def FailureLasts (snapshot : Snapshot N D) (now : Nat) : Prop := ∃ until_ ∈ snapshot.failureUntil, now < until_

theorem cachedFailureCode_isSome (now : Nat) :
    (assistant.cachedFailureCode now key).isSome ↔
      assistant.config.failureCacheTtl ≠ 0 ∧ ∃ s, assistant.get key = some s ∧ FailureLasts s now := by
  unfold cachedFailureCode FailureLasts
  by_cases hoff : assistant.config.failureCacheTtl = 0
  · simp [hoff]
  · cases assistant.get key with
    | none => simp [hoff]
    | some s =>
      cases hfailure : s.failureUntil with
      | none => simp [hoff, hfailure]
      | some until_ => 
        by_cases hlate : until_ ≤ now
        · simp [hoff, hfailure, hlate]
        · simp [hoff, hfailure, hlate, Nat.lt_of_not_le hlate]

theorem freshAnswer_isSome_iff (now : Nat) :
    (assistant.freshAnswer now key).isSome ↔
      ∃ s, assistant.get key = some s ∧ s.restored = true ∧ s.answers ≠ [] ∧ now ≤ s.validUntil := by
  unfold freshAnswer
  cases assistant.get key with
  | none => simp
  | some s => by_cases hold : s.restored <;> by_cases hnone : s.answers = [] <;> simp [hold, hnone]

theorem stored_recordAnswer (orders : MapOrders N D) (now : Nat) (assistant : CacheAssistant N D) (key : CacheKey)
    (lookup : Lookup N D) :
    Stored key (answered assistant.config now lookup) assistant (recordAnswer orders now assistant key lookup) := by
  obtain ⟨hself, hothers, hconfig⟩ := stored_onSuccess orders now assistant key lookup
  unfold recordAnswer
  simp only
  split
  · exact ⟨hself, hothers, hconfig⟩
  · exact ⟨hself, hothers, hconfig⟩

theorem config_lookupOwned (orders : MapOrders N D) (asked answered : Nat) (shared : Bool) (nameOf : Text → N)
    (assistant : CacheAssistant N D) (key : CacheKey) (upstream : Upstream N D) :
    (lookupOwned orders asked answered shared nameOf assistant key upstream).2.config = assistant.config := by
  have hrecorded (now : Nat) (lookup : Lookup N D) :
      (recordAnswer orders now assistant key lookup).config = assistant.config :=
    (stored_recordAnswer orders now assistant key lookup).config
  have hfailed (code : UInt16) (soa : Option (Record D)) :
      (cacheFailure orders answered nameOf assistant key code soa).config = assistant.config := by
    cases soa with
    | none => rfl
    | some soa =>
      simp only [cacheFailure, setFailureSoa]
      split <;> rfl
  unfold lookupOwned
  cases hreplay : replay orders asked shared assistant key with
  | some replayed =>
    unfold replay at hreplay
    grind
  | none =>
    simp only [Option.getD_none]
    unfold settle
    grind

section Replies

variable {orders : MapOrders N D} {now : Nat} {shared : Bool} {after : CacheAssistant N D}

/-- Only what is there is replayed. -/
theorem kept_of_replay {reply : Reply N D × CacheAssistant N D}
    (h : replay orders now shared assistant key = some reply) : (assistant.get key).isSome := by
  unfold replay at h
  split at h
  · cases h
  · split at h
    next code hcode =>
      obtain ⟨_, s, hget, _⟩ := (cachedFailureCode_isSome now).mp (Option.isSome_of_mem hcode)
      exact Option.isSome_of_mem hget
    next =>
      split at h
      next restored hfresh =>
        obtain ⟨s, hget, _⟩ := (freshAnswer_isSome_iff now).mp (Option.isSome_of_mem hfresh)
        exact Option.isSome_of_mem hget
      next => cases h

theorem failure_of_replay {code : Option UInt16} {soa : Option (Record D)}
    (h : replay orders now shared assistant key = some (.failed code soa, after)) :
    ∃ s, assistant.get key = some s ∧ s.failureUntil ≠ none := by
  unfold replay at h
  split at h
  · cases h
  · split at h
    next code hcode =>
      obtain ⟨_, s, hget, until_, huntil, _⟩ := (cachedFailureCode_isSome now).mp (Option.isSome_of_mem hcode)
      exact ⟨s, hget, Option.ne_none_iff_exists'.mpr ⟨until_, huntil⟩⟩
    next =>
      split at h
      next => cases h
      next => cases h

/-- After a replay there is a failure under the key only if there was one before. -/
theorem failure_after_replay {reply : Reply N D} (h : replay orders now shared assistant key = some (reply, after))
    {s : Snapshot N D} (hget : after.get key = some s) (hfailure : s.failureUntil ≠ none) :
    assistant.get key = some s := by
  unfold replay at h
  split at h
  · cases h
  · split at h
    next =>
      cases h
      exact hget
    next =>
      split at h
      next restored hfresh =>
        cases h
        rw [(stored_recordAnswer orders now assistant key restored).self] at hget
        exact absurd (by rw [← Option.some.inj hget]; rfl) hfailure
      next => cases h

theorem kept_of_stale {nameOf : Text → N} {upstream : Upstream N D} {stale : Lookup N D}
    (h : (settle orders now shared nameOf assistant key upstream).1 = .stale stale) : (assistant.get key).isSome := by
  cases upstream with
  | answered => cases h
  | broken => cases h
  | failed code soa =>
    cases code with
    | some => cases h
    | none =>
      simp only [settle] at h
      split at h
      next found hfound =>
        obtain ⟨_, s, hget, _⟩ := staleAnswer_eq_some.mp hfound
        exact Option.isSome_of_mem hget
      next => cases h

end Replies

/-- A question for an answer that is not shared leaves nothing behind. -/
theorem settle_unshared (orders : MapOrders N D) (now : Nat) (nameOf : Text → N) (assistant : CacheAssistant N D)
    (key : CacheKey) (upstream : Upstream N D) :
    (settle orders now false nameOf assistant key upstream).2 = assistant := by
  cases upstream with
  | answered => rfl
  | broken => rfl
  | failed code soa =>
    cases code with
    | some => rfl
    | none =>
      simp only [settle]
      split <;> rfl

/-- A lookup of another key leaves the entry, or evicts it. -/
theorem get_lookupOwned_other (orders : MapOrders N D) (asked answered : Nat) (shared : Bool) (nameOf : Text → N)
    (assistant : CacheAssistant N D) {k : CacheKey} (hk : key ≠ k) (upstream : Upstream N D) (s : Snapshot N D)
    (h : (lookupOwned orders asked answered shared nameOf assistant k upstream).2.get key = some s) :
    assistant.get key = some s := by
  have hrecorded (now : Nat) (lookup : Lookup N D)
      (hget : (recordAnswer orders now assistant k lookup).get key = some s) : assistant.get key = some s :=
    (stored_recordAnswer orders now assistant k lookup).others key hk s hget
  have hfailed (code : UInt16) (soa : Option (Record D))
      (hget : (cacheFailure orders answered nameOf assistant k code soa).get key = some s) :
      assistant.get key = some s := by
    apply (stored_recordFailure orders.snapshots answered assistant k ⟨nameOf k.name, k.rtype⟩ code
      (answered + fromSecs assistant.config.failureCacheTtl.toNat)).others key hk s
    cases soa with
    | none => exact hget
    | some soa =>
      rw [cacheFailure, get_setFailureSoa, if_neg hk] at hget
      exact hget
  unfold lookupOwned at h
  cases hreplay : replay orders asked shared assistant k with
  | some replayed =>
    rw [hreplay] at h
    unfold replay at hreplay
    grind
  | none =>
    rw [hreplay, Option.getD_none] at h
    unfold settle at h
    grind

theorem restoreEntry_validUntil {config : PrefetchConfig} {now nowWall : Nat} {entry : PersistedEntry N D}
    {snapshot : Snapshot N D} (h : restoreEntry config now nowWall entry = some snapshot) :
    (entry.validThroughSecs ≤ nowWall → snapshot.validUntil = nowInThePast now) ∧
      (nowWall < entry.validThroughSecs →
        snapshot.validUntil ≤ now + fromSecs (entry.validThroughSecs - nowWall)) := by
  obtain ⟨-, -, ⟨left, hleft, huntil⟩, -⟩ := restoreEntry_eq_some h
  have hbound : left ≤ entry.validThroughSecs - nowWall := by
    rw [hleft]
    split <;> omega
  have hpositive (hvalid : nowWall < entry.validThroughSecs) : 0 < left := by
    rw [hleft]
    split
    next hcap =>
      have hcap : 0 < config.maxCacheTtl.toNat := UInt32.lt_iff_toNat_lt.mp hcap
      omega
    next => omega
  rw [huntil]
  constructor
  · intro hspent
    rw [if_neg (by omega)]
  · intro hvalid
    rw [if_pos (hpositive hvalid), fromSecs, fromSecs]
    omega

theorem restoreEntry_restored {now nowWall : Nat} {entry : PersistedEntry N D}
    (h : restoreEntry config now nowWall entry = some snapshot) :
    snapshot.restored = true ∧ (snapshot.failureUntil ≠ none → config.failureCacheTtl ≠ 0) := by
  obtain ⟨-, hrestored, -, hkept⟩ := restoreEntry_eq_some h
  refine ⟨hrestored, fun hfailure hoff => ?_⟩
  have hpositive := (hkept hfailure).2
  rw [hoff] at hpositive
  exact absurd hpositive (by decide)

/-- A failure is restored only where one was saved. -/
theorem failure_of_restored {reload : Reload N D} {persistAt writtenAt now nowWall : Nat} {saved : Snapshot N D}
    (h : restoreEntry config now nowWall (reload.apply (exportEntry persistAt writtenAt key saved)) = some snapshot)
    (hfailure : snapshot.failureUntil ≠ none) : saved.failureUntil ≠ none := by
  intro hnone
  have hthrough : (reload.apply (exportEntry persistAt writtenAt key saved)).failureThroughSecs = 0 := by
    rw [reload.keeps]
    simp only [exportEntry, hnone]
  obtain ⟨-, -, -, hkept⟩ := restoreEntry_eq_some h
  have hlater := (hkept hfailure).1
  rw [hthrough] at hlater
  exact absurd hlater (Nat.not_lt_zero _)

/-- A tag of every entry goes with it through the file: what holds of the restored
entries and their tags, holds of the snapshots. -/
theorem carried_importAll {β : Type} (order : Shuffle (CacheKey × Snapshot N D)) (now nowWall : Nat)
    (reload : CacheKey × Snapshot N D → PersistedEntry N D) (tag : CacheKey × Snapshot N D → β)
    (good : CacheKey → Snapshot N D → β → Prop) (entries : List (CacheKey × Snapshot N D))
    {assistant : CacheAssistant N D} {tags : CacheKey → β} (hconfig : assistant.config = config)
    (h : ∀ k s, assistant.get k = some s → good k s (tags k))
    (hentries : ∀ entry ∈ entries, ∀ s, restoreEntry config now nowWall (reload entry) = some s →
      good (reload entry).key s (tag entry)) (k : CacheKey) (s : Snapshot N D)
    (hget : ((entries.map reload).foldl (importEntry order now nowWall) assistant).get k = some s) :
    good k s
      (entries.foldl
        (fun tags entry =>
          if (restoreEntry config now nowWall (reload entry)).isSome then
            Function.update tags (reload entry).key (tag entry)
          else tags)
        tags k) := by
  induction entries generalizing assistant tags with
  | nil => exact h k s hget
  | cons entry rest ih =>
    rw [List.map_cons, List.foldl_cons] at hget
    refine ih ((importEntry_config ..).trans hconfig) ?_ (fun e he => hentries e (List.mem_cons_of_mem entry he)) hget
    intro k' s' hget'
    rcases importEntry_cases order now nowWall assistant (reload entry) with ⟨hnone, hsame⟩ | ⟨kept, hsome, hstored⟩
    · rw [hconfig] at hnone
      rw [hsame] at hget'
      simp only [hnone, Option.isSome_none, Bool.false_eq_true, if_false]
      exact h k' s' hget'
    · rw [hconfig] at hsome
      simp only [hsome, Option.isSome_some, if_true]
      by_cases hk : k' = (reload entry).key
      · subst hk
        rw [hstored.self] at hget'
        rw [Function.update_self, ← Option.some.inj hget']
        exact hentries entry List.mem_cons_self kept hsome
      · rw [Function.update_of_ne hk]
        exact h k' s' (hstored.others k' hk s' hget')

end DaygleDns.Recursive
