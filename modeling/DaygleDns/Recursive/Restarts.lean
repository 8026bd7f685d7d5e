import DaygleDns.Recursive.Lookups
import DaygleDns.Recursive.StaleAnswers

/-! How old an answer may be when it is served stale, over lookups, prefetches
and restarts. -/
namespace DaygleDns.Recursive

open CacheAssistant Runs

variable {N D : Type}

/-- Seconds of the wall clock, which is `offset` ahead of the monotonic one. -/
def unixSecs (offset now : Nat) : Nat := asSecs (now + offset)

/-- What stays the same in a run. -/
structure Installation (N D : Type) where
  config : PrefetchConfig
  offset : Nat
  nameOf : Text → N
  reload : Reload N D

/-- The assistant over time. `stopped` tells when the answer under each key
stopped, or stops, being valid. -/
structure Life (N D : Type) where
  assistant : CacheAssistant N D
  clock : Nat
  stopped : CacheKey → Nat

inductive LifeEvent (N D : Type) where
  | lookup (wait took : Nat) (orders : MapOrders N D) (shared : Bool) (key : CacheKey) (upstream : Upstream N D)
  | refreshed (wait : Nat) (orders : MapOrders N D) (key : CacheKey) (lookup : Lookup N D)
  | restart (wait downtime : Nat) (written loaded : Shuffle (CacheKey × Snapshot N D))

namespace Life

def start (installation : Installation N D) (clock : Nat) : Life N D :=
  { assistant := .new installation.config, clock, stopped := fun _ => 0 }

/-- The times at which answers stop being valid, once `upstream` has answered. -/
def settleStopped (now : Nat) (shared : Bool) (life : Life N D) (key : CacheKey) : Upstream N D → CacheKey → Nat
  | .answered lookup =>
      if shared then Function.update life.stopped key (effectiveDeadline life.assistant.config now lookup)
      else life.stopped
  | .failed (some _) _ =>
      if (life.assistant.get key).isNone then Function.update life.stopped key (nowInThePast now) else life.stopped
  | .failed none _ | .broken => life.stopped

def lookup (installation : Installation N D) (asked answered : Nat) (orders : MapOrders N D) (shared : Bool)
    (key : CacheKey) (upstream : Upstream N D) (life : Life N D) : Life N D where
  assistant := (lookupOwned orders asked answered shared installation.nameOf life.assistant key upstream).2
  clock := answered
  stopped :=
    if (replay orders asked shared life.assistant key).isSome then life.stopped
    else settleStopped answered shared life key upstream

/-- What the next process reads of the snapshot under a key. -/
def reloaded (installation : Installation N D) (persistAt : Nat) (entry : CacheKey × Snapshot N D) :
    PersistedEntry N D :=
  installation.reload.apply (exportEntry persistAt (unixSecs installation.offset persistAt) entry.1 entry.2)

/-- What the next process makes of it. -/
def restored (installation : Installation N D) (persistAt loadAt : Nat) (entry : CacheKey × Snapshot N D) :
    Option (Snapshot N D) :=
  restoreEntry installation.config loadAt (unixSecs installation.offset loadAt)
    (reloaded installation persistAt entry)

def restart (installation : Installation N D) (persistAt loadAt : Nat)
    (written loaded : Shuffle (CacheKey × Snapshot N D)) (life : Life N D) : Life N D where
  assistant :=
    ((CacheAssistant.new installation.config).importPersisted loaded loadAt (unixSecs installation.offset loadAt)
      ((life.assistant.exportPersisted written persistAt (unixSecs installation.offset persistAt)).map
        installation.reload.apply)).2
  clock := loadAt
  stopped :=
    (written.shuffle life.assistant.snapshots.rows).foldl
      (fun stopped entry =>
        if (restored installation persistAt loadAt entry).isSome then
          Function.update stopped (reloaded installation persistAt entry).key (life.stopped entry.1)
        else stopped)
      life.stopped

def step (installation : Installation N D) (life : Life N D) : LifeEvent N D → Life N D
  | .lookup wait took orders shared key upstream =>
      life.lookup installation (life.clock + wait) (life.clock + wait + took) orders shared key upstream
  | .refreshed wait orders key lookup =>
      { assistant := (life.assistant.onSuccess orders (life.clock + wait) key lookup).2.endPrefetch key
        clock := life.clock + wait
        stopped := Function.update life.stopped key
          (effectiveDeadline life.assistant.config (life.clock + wait) lookup) }
  | .restart wait downtime written loaded =>
      life.restart installation (life.clock + wait) (life.clock + wait + downtime) written loaded

end Life

/-- Whatever is served stale stopped being valid at most `serve_stale_secs` ago. -/
def StaleInTime (life : Life N D) : Prop :=
  ∀ now key lookup, life.assistant.staleAnswer now key = some lookup →
    now ≤ life.stopped key + fromSecs life.assistant.config.serveStaleSecs

/-- The whole seconds that the file leaves to an answer end no later than it
does; an answer with none left is no older than the deadline it is given. -/
def Timely (offset persistAt loadAt validUntil : Nat) : Prop :=
  if unixSecs offset loadAt < unixSecs offset persistAt + asSecs (validUntil - persistAt) then
    (loadAt + offset) % 10 ^ 9 ≤ (persistAt + offset) % 10 ^ 9 + (validUntil - persistAt) % 10 ^ 9
  else nowInThePast loadAt ≤ validUntil

/-- A restart keeps the answers that are restored no longer than they were valid. -/
def KeepsExpiry (installation : Installation N D) (life : Life N D) : LifeEvent N D → Prop
  | .restart wait downtime _ _ =>
      ∀ entry ∈ life.assistant.snapshots.rows,
        (Life.restored installation (life.clock + wait) (life.clock + wait + downtime) entry).isSome →
          Timely installation.offset (life.clock + wait) (life.clock + wait + downtime) entry.2.validUntil
  | _ => True

/-- No snapshot is valid beyond the time at which its answer stops being so. -/
def InTime (assistant : CacheAssistant N D) (stopped : CacheKey → Nat) : Prop :=
  ∀ key snapshot, assistant.get key = some snapshot → snapshot.validUntil ≤ stopped key

theorem staleInTime_of_inTime {life : Life N D} (h : InTime life.assistant life.stopped) : StaleInTime life := by
  intro now key lookup hstale
  obtain ⟨_, snapshot, hget, _, hage, _⟩ := staleAnswer_eq_some.mp hstale
  have hvalid := h key snapshot hget
  omega

/-- A call that stores one snapshot, whose time is written down. -/
theorem inTime_stored {before after : CacheAssistant N D} {stopped : CacheKey → Nat} {key : CacheKey}
    {snapshot : Snapshot N D} (h : InTime before stopped) (hstored : Stored key snapshot before after) (time : Nat)
    (htime : snapshot.validUntil ≤ time) : InTime after (Function.update stopped key time) := by
  intro k s hget
  by_cases hk : k = key
  · subst hk
    rw [hstored.self] at hget
    rw [Function.update_self, ← Option.some.inj hget]
    exact htime
  · rw [Function.update_of_ne hk]
    exact h k s (hstored.others k hk s hget)

theorem inTime_stored_same {before after : CacheAssistant N D} {stopped : CacheKey → Nat} {key : CacheKey}
    {snapshot : Snapshot N D} (h : InTime before stopped) (hstored : Stored key snapshot before after)
    (htime : snapshot.validUntil ≤ stopped key) : InTime after stopped := by
  have hupdated := inTime_stored h hstored (stopped key) htime
  rwa [Function.update_eq_self] at hupdated

/-- What `freshAnswer` gives is valid as long as its snapshot, which has not ended. -/
theorem freshAnswer_validUntil {assistant : CacheAssistant N D} {now : Nat} {key : CacheKey} {restored : Lookup N D}
    (h : assistant.freshAnswer now key = some restored) :
    ∃ snapshot, assistant.get key = some snapshot ∧ restored.validUntil = snapshot.validUntil ∧
      now ≤ snapshot.validUntil := by
  unfold freshAnswer at h
  cases hget : assistant.get key with
  | none => simp [hget] at h
  | some snapshot =>
    simp only [hget, Option.bind_eq_bind, Option.bind_some] at h
    split at h
    · cases h
    · split at h
      · cases h
      · split at h
        · cases h
        next hvalid => exact ⟨snapshot, rfl, by rw [← Option.some.inj h], by omega⟩

theorem inTime_replay {orders : MapOrders N D} {now : Nat} {shared : Bool} {assistant after : CacheAssistant N D}
    {stopped : CacheKey → Nat} {key : CacheKey} {reply : Reply N D} (h : InTime assistant stopped)
    (hreplay : replay orders now shared assistant key = some (reply, after)) : InTime after stopped := by
  unfold replay at hreplay
  split at hreplay
  · cases hreplay
  · split at hreplay
    · cases hreplay
      exact h
    · split at hreplay
      next restored hfresh =>
        cases hreplay
        obtain ⟨snapshot, hget, hvalid, hnow⟩ := freshAnswer_validUntil hfresh
        refine inTime_stored_same h (stored_recordAnswer orders now assistant key restored) ?_
        have hbefore := h key snapshot hget
        simp only [answered, effectiveDeadline, hvalid]
        split <;> omega
      next => cases hreplay

theorem inTime_setFailureSoa {assistant : CacheAssistant N D} {stopped : CacheKey → Nat} (h : InTime assistant stopped)
    (key : CacheKey) (soa : Record D) : InTime (assistant.setFailureSoa key soa) stopped := by
  intro k snapshot hget
  rw [get_setFailureSoa] at hget
  split at hget
  · obtain ⟨old, hold, rfl⟩ := Option.map_eq_some_iff.mp hget
    exact h k old hold
  · exact h k snapshot hget

theorem inTime_cacheFailure {assistant : CacheAssistant N D} {stopped : CacheKey → Nat} (h : InTime assistant stopped)
    (orders : MapOrders N D) (now : Nat) (nameOf : Text → N) (key : CacheKey) (code : UInt16) (soa : Option (Record D)) :
    InTime (cacheFailure orders now nameOf assistant key code soa)
      (if (assistant.get key).isNone then Function.update stopped key (nowInThePast now) else stopped) := by
  have hstored := stored_recordFailure orders.snapshots now assistant key ⟨nameOf key.name, key.rtype⟩ code
    (now + fromSecs assistant.config.failureCacheTtl.toNat)
  have hrecorded : InTime
      (recordFailure orders.snapshots now assistant key ⟨nameOf key.name, key.rtype⟩ code
        (now + fromSecs assistant.config.failureCacheTtl.toNat))
      (if (assistant.get key).isNone then Function.update stopped key (nowInThePast now) else stopped) := by
    cases hget : assistant.get key with
    | none =>
      apply inTime_stored h hstored
      simp [hget, underlying]
    | some snapshot =>
      apply inTime_stored_same h hstored
      simp only [hget, underlying, Option.getD_some]
      exact h key snapshot hget
  unfold cacheFailure
  cases soa with
  | none => exact hrecorded
  | some soa => exact inTime_setFailureSoa hrecorded key soa

theorem inTime_settle {orders : MapOrders N D} {now : Nat} {shared : Bool} {nameOf : Text → N} {life : Life N D}
    (h : InTime life.assistant life.stopped) (key : CacheKey) (upstream : Upstream N D) :
    InTime (settle orders now shared nameOf life.assistant key upstream).2
      (Life.settleStopped now shared life key upstream) := by
  cases upstream with
  | answered lookup =>
    cases shared with
    | true => exact inTime_stored h (stored_recordAnswer orders now life.assistant key lookup) _ (Nat.le_refl _)
    | false => exact h
  | broken => exact h
  | failed code soa =>
    cases code with
    | none =>
      simp only [settle]
      split <;> exact h
    | some code =>
      simp only [settle, Life.settleStopped]
      split
      · exact inTime_cacheFailure h orders now nameOf key code soa
      · split
        next hnone =>
          -- Nothing was recorded, and there is no snapshot under the key.
          intro k snapshot hget
          by_cases hk : k = key
          · rw [hk] at hget
            rw [hget] at hnone
            cases hnone
          · rw [Function.update_of_ne hk]
            exact h k snapshot hget
        next => exact h

theorem inTime_lookup {installation : Installation N D} {life : Life N D} (h : InTime life.assistant life.stopped)
    (asked answered : Nat) (orders : MapOrders N D) (shared : Bool) (key : CacheKey) (upstream : Upstream N D) :
    InTime (life.lookup installation asked answered orders shared key upstream).assistant
      (life.lookup installation asked answered orders shared key upstream).stopped := by
  simp only [Life.lookup, lookupOwned]
  cases hreplay : replay orders asked shared life.assistant key with
  | none => exact inTime_settle h key upstream
  | some replayed => exact inTime_replay h hreplay

/-- A timely restart does not prolong an answer. -/
theorem restored_validUntil {installation : Installation N D} {persistAt loadAt : Nat}
    {entry : CacheKey × Snapshot N D} {snapshot : Snapshot N D} (hdowntime : persistAt ≤ loadAt)
    (h : Life.restored installation persistAt loadAt entry = some snapshot)
    (htimely : Timely installation.offset persistAt loadAt entry.2.validUntil) :
    snapshot.validUntil ≤ entry.2.validUntil := by
  obtain ⟨hspent, hleft⟩ := restoreEntry_validUntil h
  have hthrough : (Life.reloaded installation persistAt entry).validThroughSecs =
      unixSecs installation.offset persistAt + asSecs (entry.2.validUntil - persistAt) := by
    rw [Life.reloaded, installation.reload.keeps]
    rfl
  rw [hthrough] at hspent hleft
  unfold Timely at htimely
  split at htimely
  next hlive =>
    have hbound := hleft hlive
    simp only [unixSecs, asSecs, fromSecs, Nat.reducePow] at hbound hlive htimely
    omega
  next hdead =>
    rw [hspent (by omega)]
    exact htimely

/-- The restored entries, one after the other, with their times. -/
theorem inTime_reload {installation : Installation N D} {persistAt loadAt : Nat} (hdowntime : persistAt ≤ loadAt)
    (loaded : Shuffle (CacheKey × Snapshot N D)) {stopped : CacheKey → Nat}
    (entries : List (CacheKey × Snapshot N D)) {assistant : CacheAssistant N D} {later : CacheKey → Nat}
    (h : InTime assistant later) (hconfig : assistant.config = installation.config)
    (hentries : ∀ entry ∈ entries, entry.2.validUntil ≤ stopped entry.1 ∧
      ((Life.restored installation persistAt loadAt entry).isSome →
        Timely installation.offset persistAt loadAt entry.2.validUntil)) :
    InTime
      ((entries.map (Life.reloaded installation persistAt)).foldl
        (importEntry loaded loadAt (unixSecs installation.offset loadAt)) assistant)
      (entries.foldl
        (fun later entry =>
          if (Life.restored installation persistAt loadAt entry).isSome then
            Function.update later (Life.reloaded installation persistAt entry).key (stopped entry.1)
          else later)
        later) := by
  refine carried_importAll loaded loadAt (unixSecs installation.offset loadAt) (Life.reloaded installation persistAt)
    (fun entry => stopped entry.1) (fun _ snapshot time => snapshot.validUntil ≤ time) entries hconfig h ?_
  intro entry hentry snapshot hrestore
  obtain ⟨hvalid, htimely⟩ := hentries entry hentry
  have hrestored : Life.restored installation persistAt loadAt entry = some snapshot := hrestore
  exact (restored_validUntil hdowntime hrestored (htimely (by rw [hrestored]; rfl))).trans hvalid

theorem life_config_step (installation : Installation N D) (life : Life N D) (event : LifeEvent N D)
    (h : life.assistant.config = installation.config) :
    (life.step installation event).assistant.config = installation.config := by
  cases event with
  | lookup => exact (config_lookupOwned ..).trans h
  | refreshed => exact h
  | restart => exact importAll_config ..

/-- Every snapshot is in time, under the settings of the installation. -/
structure Kept (installation : Installation N D) (life : Life N D) : Prop where
  inTime : InTime life.assistant life.stopped
  config : life.assistant.config = installation.config

theorem kept_step (installation : Installation N D) (life : Life N D) (event : LifeEvent N D)
    (h : Kept installation life) (hkeeps : KeepsExpiry installation life event) :
    Kept installation (life.step installation event) := by
  refine ⟨?_, life_config_step installation life event h.config⟩
  cases event with
  | lookup wait took orders shared key upstream => exact inTime_lookup h.inTime _ _ orders shared key upstream
  | refreshed wait orders key lookup =>
    have hstored := stored_onSuccess orders (life.clock + wait) life.assistant key lookup
    exact inTime_stored h.inTime hstored _ (Nat.le_refl _)
  | restart wait downtime written loaded =>
    simp only [Life.step, Life.restart, importPersisted, exportPersisted, List.map_map]
    refine inTime_reload (Nat.le_add_right _ _) loaded _ (fun k s hget => by cases hget) rfl fun entry hentry => ?_
    have hmem := (written.perm _).mem_iff.mp hentry
    refine ⟨h.inTime entry.1 entry.2 ?_, hkeeps entry hmem⟩
    simp only [CacheAssistant.get, OrderedTable.get_of_mem hmem, Option.map_some]

/-- Where no restart prolongs an answer, or nothing is served stale, staleness is bounded. -/
theorem staleness_bounded (installation : Installation N D) (clock : Nat) (events : List (LifeEvent N D))
    (h : installation.config.serveStaleSecs = 0 ∨
      Each (Life.step installation) (KeepsExpiry installation) (.start installation clock) events) :
    Always (Life.step installation) StaleInTime (.start installation clock) events := by
  rcases h with hoff | hkeeps
  · have hconfig : Always (Life.step installation) (fun life => life.assistant.config = installation.config)
        (.start installation clock) events :=
      always_of_step (life_config_step installation) events rfl
    refine always_mono (fun life hsame now key lookup hstale => ?_) hconfig
    have hon := (staleAnswer_eq_some.mp hstale).1
    rw [hsame] at hon
    exact absurd hoff hon
  · have hstart : Kept installation (.start installation clock) := ⟨fun k s hget => (by cases hget), rfl⟩
    exact always_mono (fun _ hkept => staleInTime_of_inTime hkept.inTime)
      (always_of_invariant (Kept installation) (kept_step installation) events hstart hkeeps)

instance (offset persistAt loadAt validUntil : Nat) : Decidable (Timely offset persistAt loadAt validUntil) :=
  inferInstanceAs (Decidable (if unixSecs offset loadAt < unixSecs offset persistAt + asSecs (validUntil - persistAt)
    then (loadAt + offset) % 10 ^ 9 ≤ (persistAt + offset) % 10 ^ 9 + (validUntil - persistAt) % 10 ^ 9
    else nowInThePast loadAt ≤ validUntil))

instance (installation : Installation N D) (life : Life N D) : ∀ event, Decidable (KeepsExpiry installation life event)
  | .restart wait downtime _ _ =>
      inferInstanceAs (Decidable (∀ entry ∈ life.assistant.snapshots.rows,
        (Life.restored installation (life.clock + wait) (life.clock + wait + downtime) entry).isSome → Timely ..))
  | .lookup .. | .refreshed .. => inferInstanceAs (Decidable True)

/-- A server whose wall clock is a few years ahead of the monotonic one, and a
snapshot file that spells every name as it was. -/
def household : Installation Text Text where
  config := servesStale
  offset := fromSecs 1700000000
  nameOf := id
  reload := .same

def wwwFqdn : CacheKey := ⟨"www.example.com.", 1, 0⟩

/-- The name is looked up ten seconds after the start, with an answer for five minutes. -/
def answeredAtTen : LifeEvent Text Text :=
  .lookup (fromSecs 10) 0 .plain true wwwFqdn (.answered ⟨⟨"www.example.com.", 1⟩, [⟨"192.0.2.7", 300⟩], fromSecs 310⟩)

/-- A restart when an answer is long expired starts its time to be served stale again. -/
theorem staleness_bounded_fails :
    ¬ ∀ (installation : Installation Text Text) (clock : Nat) (events : List (LifeEvent Text Text)),
      Always (Life.step installation) StaleInTime (.start installation clock) events := by
  intro h
  have hbounded := (always_iff_prefixes _ _ _).mp
    (h household 0 [answeredAtTen, .restart (fromSecs 3000) 0 .plain .plain]) _ List.prefix_rfl
  have hlate := hbounded (fromSecs 6010) wwwFqdn
    { query := ⟨"www.example.com.", 1⟩, answers := [⟨"192.0.2.7", 30⟩], validUntil := fromSecs 6040 } (by decide)
  revert hlate
  decide

theorem staleness_bounded_valid :
    Always (Life.step household) StaleInTime (.start household 0)
      [answeredAtTen, .restart (fromSecs 100) (fromSecs 20) .plain .plain] :=
  staleness_bounded household 0 _ (.inr (by decide))

end DaygleDns.Recursive
