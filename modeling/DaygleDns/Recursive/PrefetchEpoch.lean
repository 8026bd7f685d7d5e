import DaygleDns.Recursive.AssistFacts
import DaygleDns.Runs

/-! When a name is looked up again before it expires: what the remaining time is compared
with when the resolver serves one entry of its cache over and over. -/
namespace DaygleDns.Recursive

open Runs

namespace CacheAssistant

variable {N D : Type}

/-- A successful lookup under one key. -/
structure Hit (N D : Type) where
  orders : MapOrders N D
  now : Nat
  lookup : Lookup N D

def observe (key : CacheKey) (assistant : CacheAssistant N D) (hit : Hit N D) : CacheAssistant N D :=
  (onSuccess hit.orders hit.now assistant key hit.lookup).2

def triggers (key : CacheKey) (assistant : CacheAssistant N D) (hit : Hit N D) : Bool :=
  (onSuccess hit.orders hit.now assistant key hit.lookup).1

def popularAt (key : CacheKey) (assistant : CacheAssistant N D) (hit : Hit N D) : Bool :=
  (bumpPopularity hit.orders.popular hit.now assistant key).1

/-- The lookup found the entry that expires then, and the cap on TTLs does not matter. -/
def Reserves (config : PrefetchConfig) (deadline : Nat) (hit : Hit N D) : Prop :=
  hit.lookup.validUntil = deadline ∧
    (config.maxCacheTtl = 0 ∨ deadline - hit.now ≤ fromSecs config.maxCacheTtl.toNat)

/-- When the entry was first observed. -/
def epochStart (before : List (Hit N D)) (hit : Hit N D) : Nat := (before.head?.map Hit.now).getD hit.now

/-- When it was observed last. -/
def lastSeen (before : List (Hit N D)) (hit : Hit N D) : Nat := (before.getLast?.map Hit.now).getD hit.now

/-- Less than the fraction is left of the time since `start`. -/
def Late (config : PrefetchConfig) (deadline start now : Nat) : Prop :=
  (deadline - now) * 100 < (deadline - start) * config.ttlFractionPct

instance (config : PrefetchConfig) (deadline start now : Nat) : Decidable (Late config deadline start now) :=
  inferInstanceAs (Decidable (_ < _))

variable {start : CacheAssistant N D} {key : CacheKey} {deadline : Nat} {before : List (Hit N D)} {hit : Hit N D}
  {config : PrefetchConfig}

theorem effectiveDeadline_eq (h : Reserves config deadline hit) (hnow : hit.now ≤ deadline) :
    effectiveDeadline config hit.now hit.lookup = deadline := by
  obtain ⟨hvalid, hcap⟩ := h
  unfold effectiveDeadline
  rw [hvalid]
  split
  next hpos =>
    have hle := hcap.resolve_left (fun hzero => by simp [hzero] at hpos)
    rw [Nat.min_eq_left hle]
    omega
  next => rfl

theorem effectiveDeadline_le (h : Reserves config deadline hit) (hnow : deadline ≤ hit.now) :
    effectiveDeadline config hit.now hit.lookup ≤ hit.now := by
  unfold effectiveDeadline
  rw [h.1]
  split <;> omega

theorem observe_config (key : CacheKey) (assistant : CacheAssistant N D) (hit : Hit N D) :
    (observe key assistant hit).config = assistant.config :=
  (stored_onSuccess hit.orders hit.now assistant key hit.lookup).config

theorem run_observe_config (start : CacheAssistant N D) (key : CacheKey) (hits : List (Hit N D)) : (run (observe key) start hits).config = start.config :=
  run_invariant (fun assistant => assistant.config = start.config)
    (fun assistant hit h => (observe_config key assistant hit).trans h) hits rfl

/-- The time that the remaining time is compared with. -/
def fullTtl (assistant : CacheAssistant N D) (key : CacheKey) (deadline now : Nat) : Nat :=
  match assistant.get key with
  | some prev => if prev.validUntil = deadline ∧ now < deadline then deadline - prev.fetchedAt else deadline - now
  | none => deadline - now

/-- What a call decides, by the snapshot that it finds. -/
theorem triggers_eq (assistant : CacheAssistant N D) (h : effectiveDeadline assistant.config hit.now hit.lookup = deadline) :
    triggers key assistant hit = (assistant.config.enabled && popularAt key assistant hit &&
      decide ((deadline - hit.now) * 100 < fullTtl assistant key deadline hit.now * assistant.config.ttlFractionPct)) := by
  have hsnapshot : (makeRoom hit.orders.snapshots assistant.snapshots key).get key = assistant.snapshots.get key :=
    get_makeRoom_self _ _ _
  unfold triggers onSuccess fullTtl get
  simp only [h, hsnapshot]
  rfl

/-- An entry that is observed for the first time. -/
theorem triggers_new (assistant : CacheAssistant N D) (h : effectiveDeadline assistant.config hit.now hit.lookup = deadline)
    (hnew : ∀ prev, assistant.get key = some prev → prev.validUntil ≠ deadline) :
    triggers key assistant hit = true ↔ assistant.config.enabled = true ∧ popularAt key assistant hit = true ∧
      Late assistant.config deadline hit.now hit.now := by
  have hfull : fullTtl assistant key deadline hit.now = deadline - hit.now := by
    unfold fullTtl
    cases hget : assistant.get key with
    | none => rfl
    | some prev => exact if_neg fun hsame => hnew prev hget hsame.1
  rw [triggers_eq assistant h, hfull, Bool.and_eq_true, Bool.and_eq_true, decide_eq_true_eq, and_assoc]
  rfl

/-- An entry that was observed before is measured from then. -/
theorem triggers_again (assistant : CacheAssistant N D) (h : effectiveDeadline assistant.config hit.now hit.lookup = deadline)
    {prev : Snapshot N D} (hget : assistant.get key = some prev) (hvalid : prev.validUntil = deadline)
    (hnow : hit.now < deadline) :
    triggers key assistant hit = true ↔ assistant.config.enabled = true ∧ popularAt key assistant hit = true ∧
      Late assistant.config deadline prev.fetchedAt hit.now := by
  have hfull : fullTtl assistant key deadline hit.now = deadline - prev.fetchedAt := by
    unfold fullTtl
    rw [hget]
    exact if_pos ⟨hvalid, hnow⟩
  rw [triggers_eq assistant h, hfull, Bool.and_eq_true, Bool.and_eq_true, decide_eq_true_eq, and_assoc]
  rfl

/-- An entry that has expired is not looked up ahead. -/
theorem triggers_expired (assistant : CacheAssistant N D)
    (h : effectiveDeadline assistant.config hit.now hit.lookup ≤ hit.now) : triggers key assistant hit = false := by
  have hfull : fullTtl assistant key (effectiveDeadline assistant.config hit.now hit.lookup) hit.now = 0 := by
    unfold fullTtl
    split
    · rw [if_neg (fun hsame => absurd hsame.2 (Nat.not_lt.mpr h))]
      omega
    · omega
  rw [triggers_eq assistant rfl, hfull, Nat.zero_mul]
  simp

theorem epochStart_le_lastSeen (htimes : (before ++ [hit]).Pairwise fun first second => first.now < second.now) :
    epochStart before hit ≤ lastSeen before hit := by
  cases before with
  | nil => exact Nat.le_refl _
  | cons first rest =>
    rcases List.eq_nil_or_concat' rest with rfl | ⟨middle, last, rfl⟩
    · exact Nat.le_refl _
    · have hlt := (List.pairwise_cons.mp htimes).1 last (by simp)
      simpa [epochStart, lastSeen, List.getLast?_cons] using Nat.le_of_lt hlt

/-- The call is measured from when the entry was seen last, and is late only by when it was
seen first; or the entry has expired. -/
def Missed (config : PrefetchConfig) (deadline : Nat) (before : List (Hit N D)) (hit : Hit N D) : Prop :=
  Late config deadline (epochStart before hit) hit.now ∧
    (deadline ≤ hit.now ∨ ¬ Late config deadline (lastSeen before hit) hit.now)

theorem late_of_lastSeen (config : PrefetchConfig) (deadline : Nat)
    (htimes : (before ++ [hit]).Pairwise fun first second => first.now < second.now)
    (h : Late config deadline (lastSeen before hit) hit.now) : Late config deadline (epochStart before hit) hit.now := by
  have hle := epochStart_le_lastSeen htimes
  have hwider : deadline - lastSeen before hit ≤ deadline - epochStart before hit := by omega
  exact Nat.lt_of_lt_of_le h (Nat.mul_le_mul_right _ hwider)

theorem triggers_iff (hnew : ∀ prev, start.get key = some prev → prev.validUntil ≠ deadline)
    (htimes : (before ++ [hit]).Pairwise fun first second => first.now < second.now)
    (hsame : ∀ other ∈ before ++ [hit], Reserves start.config deadline other) :
    triggers key (run (observe key) start before) hit = true ↔ start.config.enabled = true ∧
      popularAt key (run (observe key) start before) hit = true ∧
        hit.now < deadline ∧ Late start.config deadline (lastSeen before hit) hit.now := by
  have hconfig := run_observe_config start key before
  have hhit := hsame hit (by simp)
  rcases Nat.lt_or_ge hit.now deadline with hlt | hge
  · have hdeadline : effectiveDeadline (run (observe key) start before).config hit.now hit.lookup = deadline := by
      rw [hconfig]
      exact effectiveDeadline_eq hhit (Nat.le_of_lt hlt)
    rcases List.eq_nil_or_concat' before with rfl | ⟨front, last, rfl⟩
    · rw [triggers_new _ hdeadline hnew]
      simp [hlt, lastSeen]
    · have hlast : last.now < hit.now := by
        have := (List.pairwise_append.mp htimes).2.2 last (by simp) hit (by simp)
        exact this
      have hstored := (stored_onSuccess last.orders last.now (run (observe key) start front) key last.lookup).self
      have hprev : effectiveDeadline (run (observe key) start front).config last.now last.lookup = deadline := by
        rw [run_observe_config start key front]
        exact effectiveDeadline_eq (hsame last (by simp)) (by omega)
      have hget : (run (observe key) start (front ++ [last])).get key =
          some (answered (run (observe key) start front).config last.now last.lookup) := by
        rw [run_append]
        exact hstored
      rw [triggers_again _ hdeadline hget hprev hlt, hconfig]
      simp [hlt, lastSeen, answered]
  · have hexpired : effectiveDeadline (run (observe key) start before).config hit.now hit.lookup ≤ hit.now := by
      rw [hconfig]
      exact effectiveDeadline_le hhit hge
    rw [triggers_expired _ hexpired]
    simp [Nat.not_lt.mpr hge]

/-- A name is looked up ahead by what is left of the whole time since its entry was first
observed, unless it is popular and the call is one of those that are missed. -/
theorem prefetch_measures_epoch (start : CacheAssistant N D) (key : CacheKey) (deadline : Nat)
    (before : List (Hit N D)) (hit : Hit N D)
    (hnew : ∀ prev, start.get key = some prev → prev.validUntil ≠ deadline)
    (htimes : (before ++ [hit]).Pairwise fun first second => first.now < second.now)
    (hsame : ∀ other ∈ before ++ [hit], Reserves start.config deadline other) :
    let assistant := run (observe key) start before
    let popular := start.config.enabled = true ∧ popularAt key assistant hit = true
    (triggers key assistant hit = true ↔ popular ∧ Late start.config deadline (epochStart before hit) hit.now) ↔
      ¬ (popular ∧ Missed start.config deadline before hit) := by
  dsimp only
  rw [triggers_iff hnew htimes hsame]
  have hlate := late_of_lastSeen start.config deadline htimes
  unfold Missed
  rw [← Nat.not_lt]
  tauto

/-- A tenth of a TTL, for names with two queries a minute. -/
def tenth : PrefetchConfig := ⟨true, 10, 2, fromSecs 60, 0, 0, 0⟩

def lateExample : CacheKey := ⟨"late.example.".toList, 1, 0⟩

/-- A lookup that finds the entry that expires after 100 seconds. -/
def hitAt (secs : Nat) : Hit Nat Nat := ⟨.plain, fromSecs secs, ⟨⟨0, 1⟩, [], fromSecs 100⟩⟩

/-- One hit after the first, close to the end. -/
theorem prefetch_measures_epoch_late :
    let start : CacheAssistant Nat Nat := .new tenth
    let assistant := run (observe lateExample) start [hitAt 50]
    let popular := tenth.enabled = true ∧ popularAt lateExample assistant (hitAt 97) = true
    (triggers lateExample assistant (hitAt 97) = true ↔
        popular ∧ Late tenth (fromSecs 100) (epochStart [hitAt 50] (hitAt 97)) (hitAt 97).now) ↔
      ¬ (popular ∧ Missed tenth (fromSecs 100) [hitAt 50] (hitAt 97)) :=
  prefetch_measures_epoch (.new tenth) lateExample (fromSecs 100) [hitAt 50] (hitAt 97)
    (fun prev h => by cases h)
    (by decide)
    (fun other hother => by
      rcases List.mem_cons.mp hother with rfl | hother
      · exact ⟨rfl, .inl rfl⟩
      · rw [List.mem_singleton.mp hother]
        exact ⟨rfl, .inl rfl⟩)

/-- Two hits after the first: ten seconds before the end, and five. -/
theorem prefetch_misses_epoch :
    ¬ ∀ (before : List (Hit Nat Nat)) (hit : Hit Nat Nat),
      (before ++ [hit]).Pairwise (fun first second => first.now < second.now) →
      (∀ other ∈ before ++ [hit], Reserves tenth (fromSecs 100) other) →
        let assistant := run (observe lateExample) (.new tenth) before
        triggers lateExample assistant hit = true ↔
          (tenth.enabled = true ∧ popularAt lateExample assistant hit = true) ∧
            Late tenth (fromSecs 100) (epochStart before hit) hit.now := by
  intro h
  have hiff := h [hitAt 0, hitAt 90] (hitAt 95) (by decide) (fun other hother => by
    simp only [List.cons_append, List.nil_append, List.mem_cons, List.not_mem_nil, or_false] at hother
    rcases hother with rfl | rfl | rfl
    all_goals exact ⟨rfl, .inl rfl⟩)
  revert hiff
  decide

end CacheAssistant

end DaygleDns.Recursive
