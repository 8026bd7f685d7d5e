import DaygleDns.Ai.EffectiveMode
import DaygleDns.Ai.Scanning
import DaygleDns.Runs

/-! What is published once no refresh is under way: the blocks of the settings in force, where
every refresh that ends with none other under way was made with these settings. -/
namespace DaygleDns.Ai

open Text Policy Runs

/-- The blocks that the settings and the store give. -/
def snapshotFor (cfg : AiSettings) (store : AiStore) (now : Int) : BlockSnapshot :=
  if cfg.mode = .enforce then store.eligibleBlocks cfg now else OrderedTable.empty

namespace Engine

/-- A refresh with none of the others in between. -/
theorem step_uninterrupted (w : Engine) (k : Nat) (cfg : AiSettings) (now : Int) (hlock : w.lock = none)
    (htask : w.tasks k = .ready cfg now) (fails : SnapshotRead → Bool) :
    (run step w [.lock k (fails .overrides), .label k (fails .relabels || fails .categories),
      .finish k (fails .blocks)]).published = refreshSnapshot w.store cfg now fails w.published := by
  unfold refreshSnapshot
  cases hoverrides : fails .overrides with
  | true => simp [run, step, hlock, htask, lockSnapshots, setTask]
  | false =>
    by_cases hmode : cfg.mode = .enforce
    · cases hblocks : fails .blocks <;>
        simp [run, step, hlock, htask, hmode, lockSnapshots, publishCategories, publishBlocks, setTask]
    · simp [run, step, hlock, htask, hmode, lockSnapshots, publishCategories, publishBlocks, setTask]

/-- No refresh is under way or to come. -/
def Quiet (w : Engine) : Prop := ∀ k, (w.tasks k).refreshing = false

/-- The blocks published are those of the settings and the overrides in force, for the verdicts
and at the time of their publication. -/
def Current (w : Engine) : Prop :=
  w.published.blocks = snapshotFor w.settings { w.store with verdicts := w.basis } w.publishedAt

/-- Some other refresh is under way or to come. -/
def OthersRefresh (w : Engine) (k : Nat) : Prop := ∃ j, j ≠ k ∧ (w.tasks j).refreshing = true

/-- The settings agree in what the blocks depend on. -/
structure SameBlocks (first second : AiSettings) : Prop where
  mode : first.mode = second.mode
  threshold : first.blockThreshold = second.blockThreshold
  categories : first.autoBlockCategories = second.autoBlockCategories

/-- A refresh that ends with none other under way reads the store without failures, and was
made with the settings in force. -/
def Timely (w : Engine) : Event → Prop
  | .lock k fails =>
      ∀ cfg now, w.lock = none → w.tasks k = .ready cfg now → fails = true → w.OthersRefresh k
  | .finish k fails =>
      ∀ cfg now overrides, w.tasks k = .labelled cfg now overrides → ¬ w.OthersRefresh k →
        SameBlocks cfg w.settings ∧ (cfg.mode = .enforce → fails = false)
  | _ => True

/-- What all runs keep of the lock, and timely ones of the snapshots. -/
structure Consistent (w : Engine) : Prop where
  lockHeld : ∀ k, (w.tasks k).locking = true → w.lock = some k
  overridesRead : ∀ k cfg now overrides,
    w.tasks k = .publishing cfg now overrides ∨ w.tasks k = .labelled cfg now overrides →
      overrides = w.store.allowOverrides ∨ w.OthersRefresh k
  current : w.Quiet → w.Current

theorem refreshing_of_locking {task : Task} (h : task.locking = true) : task.refreshing = true := by
  cases task <;> first | rfl | cases h

/-- A task that has read the overrides holds the lock. -/
theorem locking_of_read {task : Task} {cfg : AiSettings} {now : Int} {overrides : TextSet}
    (h : task = .publishing cfg now overrides ∨ task = .labelled cfg now overrides) : task.locking = true := by
  cases h with
  | inl h => rw [h]; rfl
  | inr h => rw [h]; rfl

@[simp] theorem setTask_tasks (w : Engine) (k : Nat) (task : Task) :
    (w.setTask k task).tasks = Function.update w.tasks k task := rfl

/-! What starts or goes on with a refresh, before it holds the lock. -/

section Steps

variable {w after : Engine}

theorem consistent_of_refreshing (h : Consistent w) {k : Nat} {task : Task}
    (htasks : after.tasks = Function.update w.tasks k task) (hlock : after.lock = w.lock)
    (hrefreshing : task.refreshing = true) (hlocking : task.locking = false) : Consistent after := by
  have hself : after.tasks k = task := by rw [htasks, Function.update_self]
  have hother : ∀ j, j ≠ k → after.tasks j = w.tasks j := fun j hj => by rw [htasks, Function.update_of_ne hj]
  have hapart : ∀ j, (after.tasks j).locking = true → j ≠ k := by
    intro j hj hsame
    rw [hsame, hself, hlocking] at hj
    cases hj
  constructor
  · intro j hj
    rw [hlock]
    rw [hother j (hapart j hj)] at hj
    exact h.lockHeld j hj
  · intro j cfg now overrides hj
    right
    exact ⟨k, Ne.symm (hapart j (locking_of_read hj)), hself ▸ hrefreshing⟩
  · intro hquiet
    have := hquiet k
    rw [hself, hrefreshing] at this
    cases this

/-- What has to do with no refresh. -/
theorem consistent_of_resting (h : Consistent w) {k : Nat} {task : Task}
    (htasks : after.tasks = Function.update w.tasks k task) (hbefore : (w.tasks k).refreshing = false)
    (hafter : task.refreshing = false) {verdicts : VerdictTable}
    (hrest : after = { w with tasks := after.tasks, store := { w.store with verdicts := verdicts } }) :
    Consistent after := by
  have hself : after.tasks k = task := by rw [htasks, Function.update_self]
  have hother : ∀ j, j ≠ k → after.tasks j = w.tasks j := fun j hj => by rw [htasks, Function.update_of_ne hj]
  have hsame : ∀ j, (after.tasks j).refreshing = (w.tasks j).refreshing := by
    intro j
    by_cases hj : j = k
    · rw [hj, hself, hbefore, hafter]
    · rw [hother j hj]
  have hkept : ∀ j, (after.tasks j).refreshing = true → after.tasks j = w.tasks j := by
    intro j hj
    apply hother j
    intro hjk
    rw [hjk, hself, hafter] at hj
    cases hj
  constructor
  · intro j hj
    rw [hkept j (refreshing_of_locking hj)] at hj
    rw [hrest]
    exact h.lockHeld j hj
  · intro j cfg now overrides hj
    rw [hkept j (refreshing_of_locking (locking_of_read hj))] at hj
    have hread := h.overridesRead j cfg now overrides hj
    cases hread with
    | inl hread =>
      left
      rw [hread, hrest]
      rfl
    | inr hothers =>
      right
      obtain ⟨i, hi, hrefreshing⟩ := hothers
      exact ⟨i, hi, (hsame i).trans hrefreshing⟩
  · intro hquiet
    have hcurrent := h.current fun j => (hsame j).symm.trans (hquiet j)
    rw [hrest]
    exact hcurrent

/-- No task holds the lock while it is free. -/
theorem Consistent.not_locking (h : Consistent w) (hlock : w.lock = none) (j : Nat) : (w.tasks j).locking = false := by
  cases hj : (w.tasks j).locking with
  | false => rfl
  | true =>
    have := h.lockHeld j hj
    rw [hlock] at this
    cases this

/-- Where no task holds the lock, only the blocks published matter. -/
theorem consistent_of_unlocked (hfree : ∀ j, (after.tasks j).locking = false) (hcurrent : after.Quiet → after.Current) :
    Consistent after := by
  constructor
  · intro j hj
    rw [hfree j] at hj
    cases hj
  · intro j cfg now overrides hj
    have := locking_of_read hj
    rw [hfree j] at this
    cases this
  · exact hcurrent

theorem not_quiet_of_others {k : Nat} {task : Task} (htasks : after.tasks = Function.update w.tasks k task)
    (h : w.OthersRefresh k) : ¬ after.Quiet := by
  intro hquiet
  obtain ⟨j, hj, hrefreshing⟩ := h
  have := hquiet j
  rw [htasks, Function.update_of_ne hj, hrefreshing] at this
  cases this

theorem consistent_lock (h : Consistent w) {k : Nat} {cfg : AiSettings} {now : Int} (hlock : w.lock = none)
    {fails : Bool} (htimely : fails = true → w.OthersRefresh k) : Consistent (w.lockSnapshots k cfg now fails) := by
  have hfree := h.not_locking hlock
  cases fails with
  | true =>
    apply consistent_of_unlocked
    · intro j
      change (Function.update w.tasks k Task.idle j).locking = false
      by_cases hj : j = k
      · rw [hj, Function.update_self]
        rfl
      · rw [Function.update_of_ne hj]
        exact hfree j
    · exact fun hquiet => absurd hquiet (not_quiet_of_others rfl (htimely rfl))
  | false =>
    have hself : (w.lockSnapshots k cfg now false).tasks k = .publishing cfg now w.store.allowOverrides :=
      Function.update_self ..
    have hholder : ∀ j, ((w.lockSnapshots k cfg now false).tasks j).locking = true → j = k := by
      intro j hj
      by_contra hne
      have hother : (w.lockSnapshots k cfg now false).tasks j = w.tasks j := Function.update_of_ne hne ..
      rw [hother, hfree j] at hj
      cases hj
    constructor
    · intro j hj
      rw [hholder j hj]
      rfl
    · intro j other later overrides hj
      left
      rw [hholder j (locking_of_read hj), hself] at hj
      cases hj with
      | inl hj =>
        cases hj
        rfl
      | inr hj => cases hj
    · intro hquiet
      have := hquiet k
      rw [hself] at this
      cases this

theorem consistent_label (h : Consistent w) {k : Nat} {cfg : AiSettings} {now : Int} {overrides : TextSet}
    (htask : w.tasks k = .publishing cfg now overrides) (fails : Bool) :
    Consistent (w.publishCategories k cfg now overrides fails) := by
  have hself : (w.publishCategories k cfg now overrides fails).tasks k = .labelled cfg now overrides :=
    Function.update_self ..
  have hother : ∀ j, j ≠ k → (w.publishCategories k cfg now overrides fails).tasks j = w.tasks j :=
    fun j hj => Function.update_of_ne hj ..
  have hsame : ∀ j, ((w.publishCategories k cfg now overrides fails).tasks j).refreshing = (w.tasks j).refreshing := by
    intro j
    by_cases hj : j = k
    · rw [hj, hself, htask]
      rfl
    · rw [hother j hj]
  have hothers : ∀ j, w.OthersRefresh j → (w.publishCategories k cfg now overrides fails).OthersRefresh j := by
    intro j hothers
    obtain ⟨i, hi, hrefreshing⟩ := hothers
    exact ⟨i, hi, (hsame i).trans hrefreshing⟩
  constructor
  · intro j hj
    change w.lock = some j
    by_cases hjk : j = k
    · rw [hjk]
      exact h.lockHeld k (by rw [htask]; rfl)
    · rw [hother j hjk] at hj
      exact h.lockHeld j hj
  · intro j other later read hj
    change read = w.store.allowOverrides ∨ _
    by_cases hjk : j = k
    · rw [hjk, hself] at hj
      cases hj with
      | inl hj => cases hj
      | inr hj =>
        cases hj
        rw [hjk]
        exact (h.overridesRead k cfg now overrides (.inl htask)).imp id (hothers k)
    · rw [hother j hjk] at hj
      exact (h.overridesRead j other later read hj).imp id (hothers j)
  · intro hquiet
    have := hquiet k
    rw [hself] at this
    cases this

theorem blocksWith_congr {first second : AiSettings} (h : SameBlocks first second) (store : AiStore) (now : Int)
    (overrides : TextSet) : store.blocksWith first now overrides = store.blocksWith second now overrides := by
  unfold AiStore.blocksWith AiSettings.isAutoBlockCategory
  rw [h.threshold, h.categories]

theorem consistent_finish (h : Consistent w) {k : Nat} {cfg : AiSettings} {now : Int} {overrides : TextSet}
    (htask : w.tasks k = .labelled cfg now overrides) {fails : Bool}
    (htimely : ¬ w.OthersRefresh k → SameBlocks cfg w.settings ∧ (cfg.mode = .enforce → fails = false)) :
    Consistent (w.publishBlocks k cfg now overrides fails) := by
  have htasks : (w.publishBlocks k cfg now overrides fails).tasks = Function.update w.tasks k .idle := by
    unfold publishBlocks
    split <;> rfl
  have hholder : w.lock = some k := h.lockHeld k (by rw [htask]; rfl)
  apply consistent_of_unlocked
  · intro j
    rw [htasks]
    by_cases hj : j = k
    · rw [hj, Function.update_self]
      rfl
    · rw [Function.update_of_ne hj]
      cases hlocking : (w.tasks j).locking with
      | false => rfl
      | true =>
        have := h.lockHeld j hlocking
        rw [hholder] at this
        exact absurd (Option.some.inj this).symm hj
  · intro hquiet
    have halone : ¬ w.OthersRefresh k := fun hothers => not_quiet_of_others htasks hothers hquiet
    obtain ⟨hsame, hreads⟩ := htimely halone
    have hread := (h.overridesRead k cfg now overrides (.inr htask)).resolve_right halone
    have hdone : ¬ (cfg.mode = .enforce ∧ fails = true) := by
      intro hfailed
      rw [hreads hfailed.1] at hfailed
      cases hfailed.2
    unfold publishBlocks
    rw [if_neg hdone]
    change (if cfg.mode = .enforce then w.store.blocksWith cfg now overrides else OrderedTable.empty) =
      snapshotFor w.settings w.store now
    unfold snapshotFor AiStore.eligibleBlocks
    rw [hsame.mode, hread, blocksWith_congr hsame]

/-- What a timely step keeps. -/
theorem consistent_step (h : Consistent w) (e : Event) (htimely : w.Timely e) : Consistent (w.step e) := by
  cases e with
  | startCycle k =>
    simp only [step]
    split
    next htask => exact consistent_of_resting h rfl (by rw [htask]; rfl) rfl rfl
    next => exact h
  | harvest k verdicts =>
    simp only [step]
    split
    next cfg htask =>
      exact consistent_of_resting h (Function.update_eq_self k w.tasks).symm (by rw [htask]; rfl) (by rw [htask]; rfl) rfl
    next => exact h
  | saveVerdicts k verdicts now =>
    simp only [step]
    split
    next => exact consistent_of_refreshing h rfl rfl rfl rfl
    next => exact h
  | failCycle k =>
    simp only [step]
    split
    next cfg htask => exact consistent_of_resting h rfl (by rw [htask]; rfl) rfl rfl
    next => exact h
  | changeSettings k settings =>
    simp only [step]
    split
    next => exact consistent_of_refreshing h rfl rfl rfl rfl
    next => exact h
  | setAllowOverride k domain =>
    simp only [step]
    split
    next => exact consistent_of_refreshing h rfl rfl rfl rfl
    next => exact h
  | clearOverride k domain =>
    simp only [step]
    split
    next =>
      split
      next => exact consistent_of_refreshing h rfl rfl rfl rfl
      next => exact h
    next => exact h
  | setCategoryOverride k domain category =>
    simp only [step]
    split
    next => exact consistent_of_refreshing h rfl rfl rfl rfl
    next => exact h
  | clearCategoryOverride k domain =>
    simp only [step]
    split
    next =>
      split
      next => exact consistent_of_refreshing h rfl rfl rfl rfl
      next => exact h
    next => exact h
  | capture k now =>
    simp only [step]
    split
    next => exact consistent_of_refreshing h rfl rfl rfl rfl
    next => exact h
  | lock k fails =>
    simp only [step]
    split
    next cfg now hlock htask => exact consistent_lock h hlock fun hfails => htimely cfg now hlock htask hfails
    next => exact h
  | label k fails =>
    simp only [step]
    split
    next cfg now overrides htask => exact consistent_label h htask fails
    next => exact h
  | finish k fails =>
    simp only [step]
    split
    next cfg now overrides htask => exact consistent_finish h htask (htimely cfg now overrides htask)
    next => exact h

end Steps

/-- Through a run whose last refreshes are made with the settings in force, whenever no refresh
is under way the blocks published are those of the settings and the overrides in force. -/
theorem snapshots_follow (w : Engine) (hidle : ∀ k, w.tasks k = .idle) (hcurrent : w.Current) (events : List Event)
    (htimely : Each step Timely w events) : Always step (fun w => w.Quiet → w.Current) w events := by
  have hstart : Consistent w := by
    apply consistent_of_unlocked
    · intro k
      rw [hidle k]
      rfl
    · exact fun _ => hcurrent
  have hconsistent : Always step Consistent w events :=
    always_of_invariant Consistent (fun _ e h => consistent_step h e) events hstart htimely
  exact always_mono (fun _ h => h.current) hconsistent

end Engine

/-! An engine that trains, with a verdict to enforce. -/

def trainingEngine : Engine where
  settings := malwareSettings .train
  store := malwareStore
  published := nothingPublished
  tasks := fun _ => .idle
  lock := none
  basis := malwareStore.verdicts
  publishedAt := 0

/-- The settings change to enforce, and their refresh is done. -/
def enforced : List Event :=
  [.changeSettings 1 (malwareSettings .enforce), .capture 1 10, .lock 1 false, .label 1 false, .finish 1 false]

/-- A cycle that started before the change takes the blocks back. -/
theorem cycle_takes_back : ¬ ∀ (w : Engine), (∀ k, w.tasks k = .idle) → w.Current → ∀ events : List Event,
    Always Engine.step (fun w => w.Quiet → w.Current) w events := by
  intro h
  have hrun := h trainingEngine (fun _ => rfl) rfl
    ([.startCycle 0] ++ enforced ++
      [.saveVerdicts 0 malwareStore.verdicts 20, .lock 0 false, .label 0 false, .finish 0 false])
  have hquiet : (run Engine.step trainingEngine ([.startCycle 0] ++ enforced ++
      [.saveVerdicts 0 malwareStore.verdicts 20, .lock 0 false, .label 0 false, .finish 0 false])).Quiet := by
    intro k
    cases k with
    | zero => rfl
    | succ k =>
      cases k with
      | zero => rfl
      | succ k => rfl
  have hempty := congrArg OrderedTable.rows ((always_iff_prefixes _ _ _).mp hrun _ List.prefix_rfl hquiet)
  revert hempty
  decide +kernel

/-- Without it they stay. -/
theorem enforced_stays :
    Always Engine.step (fun w => w.Quiet → w.Current) trainingEngine ([.startCycle 0] ++ enforced) := by
  apply Engine.snapshots_follow trainingEngine (fun _ => rfl) rfl
  refine ⟨trivial, trivial, trivial, ?_, trivial, ?_, trivial⟩
  · intro cfg now _ _ hfails
    cases hfails
  · intro cfg now overrides htask _
    cases htask
    exact ⟨⟨rfl, rfl, rfl⟩, fun _ => rfl⟩

end DaygleDns.Ai
