import DaygleDns.Ai.EffectiveMode
import DaygleDns.Ai.Scanning
import DaygleDns.Runs

/-! The categories that a refresh publishes for relabelled domains, and the one that the plugin finds. -/
namespace DaygleDns.Ai

open Text Policy Runs

/-- The category that the plugin finds for a query. -/
def foundCategory (published : Published) (queryName : Text) (now : Int) : Option Text :=
  (suffixMatch (lookupName queryName) published.categories.get now (·.expiresAt)).map (·.category)

/-- What it finds where it goes on to the parents. -/
def parentCategory (published : Published) (queryName : Text) (now : Int) : Option Text :=
  ((parents (lookupName queryName)).findSome? fun candidate =>
    (published.categories.get candidate).filter fun found => decide (now < found.expiresAt)).map (·.category)

theorem foundCategory_of_get {published : Published} {queryName : Text} {entry : ActiveCategory}
    (h : published.categories.get (lookupName queryName) = some entry) (now : Int) :
    foundCategory published queryName now =
      if now < entry.expiresAt then some entry.category else parentCategory published queryName now := by
  unfold foundCategory suffixMatch withParents parentCategory
  rw [List.findSome?_cons, h]
  by_cases hfresh : now < entry.expiresAt
  · have hkept : (some entry).filter (fun found => decide (now < found.expiresAt)) = some entry :=
      Option.filter_some_pos (decide_eq_true hfresh)
    rw [hkept, if_pos hfresh]
    rfl
  · have hgone : (some entry).filter (fun found => decide (now < found.expiresAt)) = none :=
      Option.filter_some_neg (by simpa using hfresh)
    rw [hgone, if_neg hfresh]

/-- When the entry of a relabelled domain expires: with the content verdict that is fresh for it. -/
def relabelExpiry (store : AiStore) (now : Int) (domain : Text) : Int :=
  (((store.freshCategories now).find? fun v => v.domain = domain).map (·.expiresAt)).getD AiStore.never

theorem get_foldl_relabels (rows : List Relabel) (snapshot : CategorySnapshot) (domain : Text) :
    (rows.foldl
      (fun (snapshot : CategorySnapshot) r =>
        if snapshot.contains r.domain then snapshot else snapshot.put ⟨r.domain, r.category, AiStore.never⟩)
      snapshot).get domain =
      (snapshot.get domain).or
        ((rows.find? fun r => r.domain = domain).map fun r => ⟨r.domain, r.category, AiStore.never⟩) := by
  induction rows generalizing snapshot with
  | nil => exact Option.or_none.symm
  | cons r rows ih =>
    rw [List.foldl_cons, ih, List.find?_cons]
    by_cases hsame : r.domain = domain
    · simp only [hsame, decide_true]
      cases hget : snapshot.get domain with
      | none => simp [OrderedTable.contains, hget, OrderedTable.get_put, hsame]
      | some entry => simp [OrderedTable.contains, hget]
    · simp only [hsame, decide_false]
      split
      · rfl
      · rw [OrderedTable.get_put, if_neg hsame]

theorem nodup_freshCategories (store : AiStore) (now : Int) : ((store.freshCategories now).map (·.domain)).Nodup := by
  have hpairs : ((store.freshCategories now).map fun v => (v.domain, v.channel)).Nodup :=
    store.verdicts.distinct.sublist (List.filter_sublist.map _)
  have hcontent : ∀ v ∈ store.freshCategories now, v.channel = .content := by
    intro v hv
    have hfresh := (List.mem_filter.mp hv).2
    simp only [Bool.and_eq_true, beq_iff_eq] at hfresh
    exact hfresh.1.1.1
  have hsame : ((store.freshCategories now).map fun v => (v.domain, v.channel)) =
      ((store.freshCategories now).map (·.domain)).map fun domain => (domain, Channel.content) := by
    rw [List.map_map]
    exact List.map_congr_left fun v hv => by rw [hcontent v hv]; rfl
  rw [hsame] at hpairs
  exact hpairs.of_map _

theorem find?_filter_exempt {α : Type} (rows : List α) (key : α → Text) {domain : Text} {overrides : TextSet}
    (h : exempt domain overrides = false) {p : α → Bool} (hp : ∀ row, p row = true → key row = domain) :
    (rows.filter fun row => !exempt (key row) overrides).find? p = rows.find? p := by
  rw [List.find?_filter]
  congr 1
  funext row
  cases hrow : p row with
  | true => simp [hp row hrow, h]
  | false => simp

theorem get_labelled {verdicts : List Verdict} (hnodup : (verdicts.map (·.domain)).Nodup) (label : Verdict → Text)
    (domain : Text) :
    ((OrderedTable.empty : CategorySnapshot).putAll
      (verdicts.map fun v => ⟨v.domain, label v, v.expiresAt⟩)).get domain =
      (verdicts.find? fun v => v.domain = domain).map fun v => ⟨v.domain, label v, v.expiresAt⟩ := by
  rw [OrderedTable.get_putAll _ (by rw [List.map_map]; exact hnodup), OrderedTable.get_empty, Option.or_none,
    List.find?_map]
  congr 2
  funext v
  exact decide_eq_decide.mpr Iff.rfl

/-- A refresh publishes a relabelled domain under its label. -/
theorem get_categoriesWith {store : AiStore} {overrides : TextSet} {domain label : Text}
    (hlabel : store.relabels.get domain = some ⟨domain, label⟩) (hexempt : exempt domain overrides = false) (now : Int) :
    (store.categoriesWith now overrides).get domain = some ⟨domain, label, relabelExpiry store now domain⟩ := by
  have hrelabel : store.relabels.rows.find? (fun r => r.domain = domain) = some ⟨domain, label⟩ := by
    rw [← hlabel, OrderedTable.get]
    congr 1
    funext r
    exact decide_eq_decide.mpr Iff.rfl
  have hnodup : (((store.freshCategories now).filter fun v => !exempt v.domain overrides).map (·.domain)).Nodup :=
    (nodup_freshCategories store now).sublist (List.filter_sublist.map _)
  unfold AiStore.categoriesWith
  dsimp only
  rw [get_foldl_relabels, get_labelled hnodup fun v => ((store.relabels.get v.domain).map (·.category)).getD v.category,
    find?_filter_exempt store.relabels.rows Relabel.domain hexempt fun row hrow => of_decide_eq_true hrow,
    find?_filter_exempt _ Verdict.domain hexempt fun row hrow => of_decide_eq_true hrow, hrelabel, relabelExpiry]
  cases hfind : (store.freshCategories now).find? fun v => decide (v.domain = domain) with
  | none => rfl
  | some v =>
    have hdomain : v.domain = domain := by simpa using List.find?_some hfind
    simp [hdomain, hlabel]

/-! What becomes of an operator's relabel: the category that the plugin finds for the domain from the
return of the call that set it, while it is neither cleared, nor replaced, nor the domain exempted. -/

/-- How far the relabel is. -/
inductive Standing where
  | absent
  /-- It is stored, and the task's call has not returned. -/
  | saved (k : Nat)
  | inForce
deriving DecidableEq

/-- `seen` and `seenAt` are the store and the clock of the last publication of categories. -/
structure Observed where
  engine : Engine
  seen : AiStore
  seenAt : Int
  standing : Standing

inductive Observation where
  | event (event : Event)
  | query (name : Text) (now : Int)

namespace Observed

variable (domain label : Text) (o : Observed)

def isIdle (k : Nat) : Bool :=
  match o.engine.tasks k with
  | .idle => true
  | _ => false

def standingAfter : Event → Standing
  | .setCategoryOverride k other category =>
      if o.isIdle k && other == domain then
        if toAsciiLowercase category == label && !exempt domain o.engine.store.allowOverrides then .saved k else .absent
      else o.standing
  | .clearCategoryOverride k other => if o.isIdle k && other == domain then .absent else o.standing
  | .setAllowOverride k other => if o.isIdle k && (withParents domain).contains other then .absent else o.standing
  | .lock k fails =>
      match o.engine.lock, o.engine.tasks k with
      | none, .ready .. => if fails && o.standing == .saved k then .inForce else o.standing
      | _, _ => o.standing
  | .finish k _ =>
      match o.engine.tasks k with
      | .labelled .. => if o.standing == .saved k then .inForce else o.standing
      | _ => o.standing
  | _ => o.standing

def seenAfter : Event → AiStore × Int
  | .label k fails =>
      match o.engine.tasks k with
      | .publishing _ now _ => if fails then (o.seen, o.seenAt) else (o.engine.store, now)
      | _ => (o.seen, o.seenAt)
  | _ => (o.seen, o.seenAt)

def step : Observation → Observed
  | .event event =>
      ⟨o.engine.step event, (o.seenAfter event).1, (o.seenAfter event).2, o.standingAfter domain label event⟩
  | .query .. => o

/-- The reads of the refresh do not fail that the relabel is published with. -/
def Reads : Observation → Prop
  | .event (.lock k fails) => fails = true → o.standing ≠ .saved k
  | .event (.label k fails) => fails = true → o.standing ≠ .saved k
  | _ => True

/-- A query for the domain finds the label. -/
def FindsLabel : Observation → Prop
  | .query name now =>
      o.standing = .inForce → lookupName name = domain → foundCategory o.engine.published name now = some label
  | _ => True

/-- The verdict that was fresh when the label was last published has not expired, or a parent has the label. -/
def Unexpired : Observation → Prop
  | .query name now =>
      o.standing = .inForce → lookupName name = domain →
        now < relabelExpiry o.seen o.seenAt domain ∨ parentCategory o.engine.published name now = some label
  | _ => True

def Labelled : Prop :=
  o.engine.published.categories.get domain = some ⟨domain, label, relabelExpiry o.seen o.seenAt domain⟩

/-- What is kept: a task that is about to publish the categories while the relabel is in force, or for it, has
read that the domain is not exempted. -/
structure Stands : Prop where
  lockHeld : ∀ k, (o.engine.tasks k).locking = true → o.engine.lock = some k
  stored : o.standing ≠ .absent →
    o.engine.store.relabels.get domain = some ⟨domain, label⟩ ∧ exempt domain o.engine.store.allowOverrides = false
  saved : ∀ k, o.standing = .saved k → (o.engine.tasks k).refreshing = true ∧ ∀ cfg now overrides,
    (o.engine.tasks k = .publishing cfg now overrides → exempt domain overrides = false) ∧
      (o.engine.tasks k = .labelled cfg now overrides → o.Labelled domain label)
  inForce : o.standing = .inForce → o.Labelled domain label ∧
    ∀ k cfg now overrides, o.engine.tasks k = .publishing cfg now overrides → exempt domain overrides = false

variable {domain label} {o}

theorem Stands.not_saved (h : o.Stands domain label) {k : Nat} (htask : (o.engine.tasks k).refreshing = false) :
    o.standing ≠ .saved k := by
  intro hsaved
  have hrefreshing := (h.saved k hsaved).1
  rw [htask] at hrefreshing
  cases hrefreshing

theorem Stands.locked_alone (h : o.Stands domain label) {j k : Nat} (hj : (o.engine.tasks j).locking = true)
    (hk : (o.engine.tasks k).locking = true) : j = k :=
  Option.some.inj ((h.lockHeld j hj).symm.trans (h.lockHeld k hk))

theorem isIdle_iff {k : Nat} : o.isIdle k = true ↔ o.engine.tasks k = .idle := by
  unfold isIdle
  split
  next h => simp [h]
  next h => simp only [Bool.false_eq_true, false_iff]; exact h

theorem exempt_of_put {store : AiStore} {other : Text} (h : exempt domain store.allowOverrides = false)
    (hother : other ∉ withParents domain) :
    exempt domain { store with overrides := store.overrides.put ⟨other, "allow".toList⟩ }.allowOverrides = false := by
  rw [← Bool.not_eq_true, exempt_iff] at h ⊢
  intro ⟨candidate, hcandidate, row, hrow, hdomain, haction⟩
  cases OrderedTable.mem_insertRow hrow with
  | inl hnew =>
    apply hother
    have hsame : other = candidate := by rw [← hdomain, hnew]
    exact hsame ▸ hcandidate
  | inr hold => exact h ⟨candidate, hcandidate, row, hold, hdomain, haction⟩

theorem exempt_of_erase {store : AiStore} (other : Text) (h : exempt domain store.allowOverrides = false) :
    exempt domain { store with overrides := store.overrides.erase other }.allowOverrides = false := by
  rw [← Bool.not_eq_true, exempt_iff] at h ⊢
  intro ⟨candidate, hcandidate, row, hrow, hsame⟩
  exact h ⟨candidate, hcandidate, row, List.mem_of_mem_filter hrow, hsame⟩

section Steps

variable {event : Event} {w : Engine} {k : Nat} {task : Task}

/-- What has to do with no publication. -/
theorem stands_of_task (h : o.Stands domain label) (hengine : o.engine.step event = w)
    (hstanding : o.standingAfter domain label event = o.standing) (hseen : o.seenAfter event = (o.seen, o.seenAt))
    (htasks : w.tasks = Function.update o.engine.tasks k task) (hlock : w.lock = o.engine.lock)
    (hcategories : w.published.categories = o.engine.published.categories) (hlocking : task.locking = false)
    (hrefreshing : o.standing = .saved k → task.refreshing = true)
    (hstored : o.standing ≠ .absent → w.store.relabels.get domain = some ⟨domain, label⟩ ∧
      exempt domain w.store.allowOverrides = false) : (o.step domain label (.event event)).Stands domain label := by
  have hafter : o.step domain label (.event event) = ⟨w, o.seen, o.seenAt, o.standing⟩ := by
    rw [step, hengine, hseen, hstanding]
  rw [hafter]
  have hlabelled : o.Labelled domain label → (⟨w, o.seen, o.seenAt, o.standing⟩ : Observed).Labelled domain label := by
    unfold Labelled
    rw [hcategories]
    exact id
  have hself : w.tasks k = task := by rw [htasks, Function.update_self]
  have hother : ∀ j, j ≠ k → w.tasks j = o.engine.tasks j := fun j hj => by rw [htasks, Function.update_of_ne hj]
  have hapart : ∀ j, (w.tasks j).locking = true → j ≠ k := by
    intro j hj hsame
    rw [hsame, hself, hlocking] at hj
    cases hj
  constructor
  · intro j hj
    change w.lock = some j
    rw [hlock]
    rw [hother j (hapart j hj)] at hj
    exact h.lockHeld j hj
  · exact hstored
  · intro j hj
    have ⟨hrunning, hpublishing⟩ := h.saved j hj
    constructor
    · change (w.tasks j).refreshing = true
      by_cases hjk : j = k
      · rw [hjk, hself]
        exact hrefreshing (hjk ▸ hj)
      · rw [hother j hjk]
        exact hrunning
    · intro cfg now overrides
      constructor
      · intro htask
        have hj := hother j (hapart j (by rw [htask]; rfl))
        exact (hpublishing cfg now overrides).1 (hj.symm.trans htask)
      · intro htask
        have hj := hother j (hapart j (by rw [htask]; rfl))
        exact hlabelled ((hpublishing cfg now overrides).2 (hj.symm.trans htask))
  · intro hin
    have ⟨hentry, hpublishing⟩ := h.inForce hin
    refine ⟨hlabelled hentry, fun j cfg now overrides htask => ?_⟩
    have hj := hother j (hapart j (by rw [htask]; rfl))
    exact hpublishing j cfg now overrides (hj.symm.trans htask)

/-- The relabel is stored, or gone. -/
theorem stands_of_change (h : o.Stands domain label) (hengine : o.engine.step event = w)
    (hseen : o.seenAfter event = (o.seen, o.seenAt)) (htasks : w.tasks = Function.update o.engine.tasks k .changed)
    (hlock : w.lock = o.engine.lock)
    (hstanding : o.standingAfter domain label event = .absent ∨ o.standingAfter domain label event = .saved k ∧
      w.store.relabels.get domain = some ⟨domain, label⟩ ∧ exempt domain w.store.allowOverrides = false) :
    (o.step domain label (.event event)).Stands domain label := by
  have hafter : o.step domain label (.event event) = ⟨w, o.seen, o.seenAt, o.standingAfter domain label event⟩ := by
    rw [step, hengine, hseen]
  rw [hafter]
  have hself : w.tasks k = .changed := by rw [htasks, Function.update_self]
  constructor
  · intro j hj
    change w.lock = some j
    rw [hlock]
    by_cases hjk : j = k
    · change (w.tasks j).locking = true at hj
      rw [hjk, hself] at hj
      cases hj
    · change (w.tasks j).locking = true at hj
      rw [htasks, Function.update_of_ne hjk] at hj
      exact h.lockHeld j hj
  · intro hpresent
    exact (hstanding.resolve_left hpresent).2
  · intro j hj
    change o.standingAfter domain label event = .saved j at hj
    cases hstanding with
    | inl habsent =>
      rw [habsent] at hj
      cases hj
    | inr hsaved =>
      rw [hsaved.1] at hj
      cases hj
      change (w.tasks k).refreshing = true ∧ ∀ cfg now overrides,
        (w.tasks k = .publishing cfg now overrides → _) ∧ (w.tasks k = .labelled cfg now overrides → _)
      rw [hself]
      exact ⟨rfl, fun cfg now overrides => ⟨nofun, nofun⟩⟩
  · intro hin
    change o.standingAfter domain label event = .inForce at hin
    cases hstanding with
    | inl habsent =>
      rw [habsent] at hin
      cases hin
    | inr hsaved =>
      rw [hsaved.1] at hin
      cases hin

/-- An event that is not possible. -/
theorem stands_of_same (h : o.Stands domain label) (hengine : o.engine.step event = o.engine)
    (hseen : o.seenAfter event = (o.seen, o.seenAt)) (hstanding : o.standingAfter domain label event = o.standing) :
    (o.step domain label (.event event)).Stands domain label := by
  have hafter : o.step domain label (.event event) = o := by rw [step, hengine, hseen, hstanding]
  rw [hafter]
  exact h

end Steps

theorem isIdle_of_ne {k : Nat} (htask : o.engine.tasks k ≠ .idle) : o.isIdle k = false := by
  rw [← Bool.not_eq_true, isIdle_iff]
  exact htask

/-- The task that changes what the operator has set. -/
def changer : Event → Option Nat
  | .setAllowOverride k _ => some k
  | .setCategoryOverride k _ _ => some k
  | .clearCategoryOverride k _ => some k
  | _ => none

/-- A change by a task that is not idle is not made. -/
theorem stands_of_busy (h : o.Stands domain label) {event : Event} {k : Nat} (htask : o.engine.tasks k ≠ .idle)
    (hevent : changer event = some k) : (o.step domain label (.event event)).Stands domain label := by
  cases event
  case setAllowOverride | setCategoryOverride | clearCategoryOverride =>
    injection hevent with hevent
    subst hevent
    apply stands_of_same h _ rfl
    · rw [standingAfter, isIdle_of_ne htask]
      rfl
    · rw [Engine.step]
      split
      next hidle => exact absurd hidle htask
      next => rfl
  all_goals cases hevent

theorem step_setAllowOverride {k : Nat} (htask : o.engine.tasks k = .idle) (other : Text) :
    o.engine.step (.setAllowOverride k other) =
      (o.engine.setOverrides (o.engine.store.overrides.put ⟨other, "allow".toList⟩)).setTask k .changed := by
  rw [Engine.step]
  simp only [htask]

theorem stands_setAllowOverride (h : o.Stands domain label) (k : Nat) (other : Text) :
    (o.step domain label (.event (.setAllowOverride k other))).Stands domain label := by
  by_cases htask : o.engine.tasks k = .idle
  · have hidle : o.isIdle k = true := isIdle_iff.mpr htask
    by_cases hother : other ∈ withParents domain
    · apply stands_of_change h (step_setAllowOverride htask other) rfl rfl rfl
      left
      rw [standingAfter, hidle, if_pos (by simpa using hother)]
    · apply stands_of_task h (step_setAllowOverride htask other) _ rfl rfl rfl rfl rfl (fun _ => rfl)
      · intro hpresent
        have ⟨hlabel, hexempt⟩ := h.stored hpresent
        exact ⟨hlabel, exempt_of_put hexempt hother⟩
      · rw [standingAfter, if_neg (by simpa using fun _ => hother)]
  · exact stands_of_busy h htask rfl

theorem stands_setCategoryOverride (h : o.Stands domain label) (k : Nat) (other category : Text) :
    (o.step domain label (.event (.setCategoryOverride k other category))).Stands domain label := by
  by_cases htask : o.engine.tasks k = .idle
  · have hidle : o.isIdle k = true := isIdle_iff.mpr htask
    have hengine : o.engine.step (.setCategoryOverride k other category) =
        (o.engine.setRelabels (o.engine.store.relabels.put ⟨other, toAsciiLowercase category⟩)).setTask k .changed := by
      rw [Engine.step]
      simp only [htask]
    by_cases hother : other = domain
    · apply stands_of_change h hengine rfl rfl rfl
      rw [standingAfter, hidle, if_pos (by simpa using hother)]
      split
      next hlabel =>
        rw [Bool.and_eq_true, beq_iff_eq, Bool.not_eq_true'] at hlabel
        refine .inr ⟨rfl, ?_, hlabel.2⟩
        change (o.engine.store.relabels.put ⟨other, toAsciiLowercase category⟩).get domain = _
        rw [OrderedTable.get_put, if_pos hother, hother, hlabel.1]
      next => exact .inl rfl
    · apply stands_of_task h hengine _ rfl rfl rfl rfl rfl (fun _ => rfl)
      · intro hpresent
        have ⟨hlabel, hexempt⟩ := h.stored hpresent
        refine ⟨?_, hexempt⟩
        change (o.engine.store.relabels.put ⟨other, toAsciiLowercase category⟩).get domain = _
        rw [OrderedTable.get_put, if_neg hother]
        exact hlabel
      · rw [standingAfter, if_neg (by simpa using fun _ => hother)]
  · exact stands_of_busy h htask rfl

theorem stands_clearCategoryOverride (h : o.Stands domain label) (k : Nat) (other : Text) :
    (o.step domain label (.event (.clearCategoryOverride k other))).Stands domain label := by
  by_cases htask : o.engine.tasks k = .idle
  · have hidle : o.isIdle k = true := isIdle_iff.mpr htask
    by_cases hknown : o.engine.store.relabels.contains other = true
    · have hengine : o.engine.step (.clearCategoryOverride k other) =
          (o.engine.setRelabels (o.engine.store.relabels.erase other)).setTask k .changed := by
        rw [Engine.step]
        simp only [htask, hknown, if_true]
      by_cases hother : other = domain
      · apply stands_of_change h hengine rfl rfl rfl
        left
        rw [standingAfter, hidle, if_pos (by simpa using hother)]
      · apply stands_of_task h hengine _ rfl rfl rfl rfl rfl (fun _ => rfl)
        · intro hpresent
          have ⟨hlabel, hexempt⟩ := h.stored hpresent
          refine ⟨?_, hexempt⟩
          change (o.engine.store.relabels.erase other).get domain = _
          rw [OrderedTable.get_erase, if_neg (Ne.symm hother)]
          exact hlabel
        · rw [standingAfter, if_neg (by simpa using fun _ => hother)]
    · apply stands_of_same h _ rfl
      · rw [standingAfter]
        split
        next hboth =>
          rw [Bool.and_eq_true, beq_iff_eq] at hboth
          by_contra hpresent
          have hlabel := (h.stored fun habsent => hpresent habsent.symm).1
          exact hknown (by rw [hboth.2, OrderedTable.contains, hlabel]; rfl)
        next => rfl
      · rw [Engine.step]
        simp only [htask, hknown, if_false, Bool.false_eq_true]
  · exact stands_of_busy h htask rfl

theorem stands_clearOverride (h : o.Stands domain label) (k : Nat) (other : Text) :
    (o.step domain label (.event (.clearOverride k other))).Stands domain label := by
  by_cases hpossible : o.engine.tasks k = .idle ∧ o.engine.store.overrides.contains other = true
  · have hengine : o.engine.step (.clearOverride k other) =
        (o.engine.setOverrides (o.engine.store.overrides.erase other)).setTask k .changed := by
      rw [Engine.step]
      simp only [hpossible.1, hpossible.2, if_true]
    apply stands_of_task h hengine rfl rfl rfl rfl rfl rfl (fun _ => rfl)
    intro hpresent
    have ⟨hlabel, hexempt⟩ := h.stored hpresent
    exact ⟨hlabel, exempt_of_erase other hexempt⟩
  · apply stands_of_same h _ rfl rfl
    rw [Engine.step]
    split
    next hidle => rw [if_neg fun hknown => hpossible ⟨hidle, hknown⟩]
    next => rfl

theorem stands_lock (h : o.Stands domain label) {k : Nat} {cfg : AiSettings} {now : Int} (hlock : o.engine.lock = none)
    (htask : o.engine.tasks k = .ready cfg now) {fails : Bool} (hreads : fails = true → o.standing ≠ .saved k) :
    (o.step domain label (.event (.lock k fails))).Stands domain label := by
  have hfree : ∀ j, (o.engine.tasks j).locking = false := by
    intro j
    cases hj : (o.engine.tasks j).locking with
    | false => rfl
    | true =>
      have := h.lockHeld j hj
      rw [hlock] at this
      cases this
  have hengine : (o.step domain label (.event (.lock k fails))).engine = o.engine.lockSnapshots k cfg now fails := by
    change o.engine.step (.lock k fails) = _
    rw [Engine.step]
    simp only [hlock, htask]
  have hstanding : (o.step domain label (.event (.lock k fails))).standing = o.standing := by
    change o.standingAfter domain label (.lock k fails) = _
    rw [standingAfter]
    simp only [hlock, htask]
    cases fails with
    | false => rfl
    | true => simp [hreads rfl]
  cases fails with
  | true =>
    exact stands_of_task h hengine hstanding rfl rfl rfl rfl rfl (fun hsaved => absurd hsaved (hreads rfl)) h.stored
  | false =>
    have htasks : (o.step domain label (.event (.lock k false))).engine.tasks =
        Function.update o.engine.tasks k (.publishing cfg now o.engine.store.allowOverrides) := by rw [hengine]; rfl
    have hholder : ∀ j, ((o.step domain label (.event (.lock k false))).engine.tasks j).locking = true → j = k := by
      intro j hj
      by_contra hne
      rw [htasks, Function.update_of_ne hne, hfree j] at hj
      cases hj
    have hself : (o.step domain label (.event (.lock k false))).engine.tasks k =
        .publishing cfg now o.engine.store.allowOverrides := by rw [htasks, Function.update_self]
    constructor
    · intro j hj
      rw [hholder j hj, hengine]
      rfl
    · rw [hstanding, hengine]
      exact h.stored
    · intro j hj
      rw [hstanding] at hj
      have hstored := (h.stored (by rw [hj]; exact nofun)).2
      refine ⟨?_, fun other later overrides => ⟨fun htask => ?_, fun htask => ?_⟩⟩
      · by_cases hjk : j = k
        · rw [hjk, hself]
          rfl
        · rw [htasks, Function.update_of_ne hjk]
          exact (h.saved j hj).1
      · rw [hholder j (by rw [htask]; rfl), hself] at htask
        cases htask
        exact hstored
      · rw [hholder j (by rw [htask]; rfl), hself] at htask
        cases htask
    · intro hin
      rw [hstanding] at hin
      have hlabelled := (h.inForce hin).1
      refine ⟨?_, fun j other later overrides htask => ?_⟩
      · unfold Labelled at hlabelled ⊢
        rw [hengine]
        exact hlabelled
      · rw [hholder j (by rw [htask]; rfl), hself] at htask
        cases htask
        exact (h.stored (by rw [hin]; exact nofun)).2

theorem stands_label (h : o.Stands domain label) {k : Nat} {cfg : AiSettings} {now : Int} {overrides : TextSet}
    (htask : o.engine.tasks k = .publishing cfg now overrides) {fails : Bool}
    (hreads : fails = true → o.standing ≠ .saved k) :
    (o.step domain label (.event (.label k fails))).Stands domain label := by
  have hengine : (o.step domain label (.event (.label k fails))).engine =
      o.engine.publishCategories k cfg now overrides fails := by
    change o.engine.step (.label k fails) = _
    rw [Engine.step]
    simp only [htask]
  have htasks : (o.step domain label (.event (.label k fails))).engine.tasks =
      Function.update o.engine.tasks k (.labelled cfg now overrides) := by rw [hengine]; rfl
  have hself : (o.step domain label (.event (.label k fails))).engine.tasks k = .labelled cfg now overrides := by
    rw [htasks, Function.update_self]
  have halone : ∀ j, (o.engine.tasks j).locking = true → j = k := fun j hj => h.locked_alone hj (by rw [htask]; rfl)
  have hpublished : (o.standing = .inForce → fails = true → o.Labelled domain label) → o.standing ≠ .absent →
      exempt domain overrides = false → (o.standing = .saved k ∨ o.standing = .inForce) →
      (o.step domain label (.event (.label k fails))).Labelled domain label := by
    intro hbefore hpresent hexempt hstanding
    unfold Labelled
    rw [hengine]
    change (if fails then o.engine.published.categories else o.engine.store.categoriesWith now overrides).get domain =
      some ⟨domain, label, relabelExpiry (o.seenAfter (.label k fails)).1 (o.seenAfter (.label k fails)).2 domain⟩
    rw [seenAfter]
    simp only [htask]
    cases fails with
    | true =>
      cases hstanding with
      | inl hsaved => exact absurd hsaved (hreads rfl)
      | inr hin => exact hbefore hin rfl
    | false => exact get_categoriesWith (h.stored hpresent).1 hexempt now
  constructor
  · intro j hj
    rw [hengine]
    change o.engine.lock = some j
    by_cases hjk : j = k
    · rw [hjk]
      exact h.lockHeld k (by rw [htask]; rfl)
    · rw [htasks, Function.update_of_ne hjk] at hj
      exact h.lockHeld j hj
  · rw [hengine]
    exact h.stored
  · intro j hj
    change o.standing = .saved j at hj
    have ⟨hrunning, hpublishing⟩ := h.saved j hj
    by_cases hjk : j = k
    · rw [hjk] at hj hpublishing ⊢
      have hexempt := (hpublishing cfg now overrides).1 htask
      rw [hself]
      refine ⟨rfl, fun other later read => ⟨nofun, fun _ => ?_⟩⟩
      exact hpublished (fun hin => by rw [hj] at hin; cases hin) (by rw [hj]; exact nofun) hexempt (.inl hj)
    · rw [htasks, Function.update_of_ne hjk]
      refine ⟨hrunning, fun other later read => ⟨fun htask => ?_, fun htask => ?_⟩⟩
      · exact absurd (halone j (by rw [htask]; rfl)) hjk
      · exact absurd (halone j (by rw [htask]; rfl)) hjk
  · intro hin
    change o.standing = .inForce at hin
    have ⟨hlabelled, hexempt⟩ := h.inForce hin
    refine ⟨hpublished (fun _ _ => hlabelled) (by rw [hin]; exact nofun) (hexempt k cfg now overrides htask) (.inr hin), ?_⟩
    intro j other later read hj
    by_cases hjk : j = k
    · rw [hjk, hself] at hj
      cases hj
    · rw [htasks, Function.update_of_ne hjk] at hj
      exact hexempt j other later read hj

theorem stands_finish (h : o.Stands domain label) {k : Nat} {cfg : AiSettings} {now : Int} {overrides : TextSet}
    (htask : o.engine.tasks k = .labelled cfg now overrides) (fails : Bool) :
    (o.step domain label (.event (.finish k fails))).Stands domain label := by
  have hengine : (o.step domain label (.event (.finish k fails))).engine =
      o.engine.publishBlocks k cfg now overrides fails := by
    change o.engine.step (.finish k fails) = _
    rw [Engine.step]
    simp only [htask]
  have htasks : (o.step domain label (.event (.finish k fails))).engine.tasks =
      Function.update o.engine.tasks k .idle := by
    rw [hengine]
    unfold Engine.publishBlocks
    split <;> rfl
  have hcategories : (o.step domain label (.event (.finish k fails))).engine.published.categories =
      o.engine.published.categories := by
    rw [hengine]
    unfold Engine.publishBlocks
    split <;> rfl
  have hstore : (o.step domain label (.event (.finish k fails))).engine.store = o.engine.store := by
    rw [hengine]
    unfold Engine.publishBlocks
    split <;> rfl
  have hstanding : (o.step domain label (.event (.finish k fails))).standing =
      if o.standing == .saved k then .inForce else o.standing := by
    change o.standingAfter domain label (.finish k fails) = _
    rw [standingAfter]
    simp only [htask]
  have hfree : ∀ j, ((o.step domain label (.event (.finish k fails))).engine.tasks j).locking = false := by
    intro j
    by_cases hjk : j = k
    · rw [hjk, htasks, Function.update_self]
      rfl
    · rw [htasks, Function.update_of_ne hjk]
      cases hj : (o.engine.tasks j).locking with
      | false => rfl
      | true => exact absurd (h.locked_alone hj (by rw [htask]; rfl)) hjk
  have hnot {j : Nat} {task : Task} (hj : (o.step domain label (.event (.finish k fails))).engine.tasks j = task)
      (hlocking : task.locking = true) : False := by
    rw [← hj, hfree j] at hlocking
    cases hlocking
  have hlabelled : o.Labelled domain label → (o.step domain label (.event (.finish k fails))).Labelled domain label := by
    unfold Labelled
    rw [hcategories]
    exact id
  constructor
  · intro j hj
    rw [hfree j] at hj
    cases hj
  · rw [hstanding, hstore]
    split
    next hsaved =>
      intro _
      rw [beq_iff_eq] at hsaved
      exact h.stored (by rw [hsaved]; exact nofun)
    next => exact h.stored
  · intro j hj
    rw [hstanding] at hj
    split at hj
    next => cases hj
    next hother =>
      have hjk : j ≠ k := by
        rintro rfl
        exact hother (by rw [hj, beq_self_eq_true])
      refine ⟨?_, fun other later read => ⟨fun htask => (hnot htask rfl).elim, fun htask => (hnot htask rfl).elim⟩⟩
      rw [htasks, Function.update_of_ne hjk]
      exact (h.saved j hj).1
  · intro hin
    rw [hstanding] at hin
    refine ⟨hlabelled ?_, fun j other later read htask => (hnot htask rfl).elim⟩
    split at hin
    next hsaved =>
      rw [beq_iff_eq] at hsaved
      exact ((h.saved k hsaved).2 cfg now overrides).2 htask
    next => exact (h.inForce hin).1

theorem stands_event (h : o.Stands domain label) (event : Event) (hreads : o.Reads (.event event)) :
    (o.step domain label (.event event)).Stands domain label := by
  cases event with
  | startCycle k =>
    by_cases htask : o.engine.tasks k = .idle
    · have hengine : o.engine.step (.startCycle k) = o.engine.setTask k (.scanning o.engine.settings) := by
        rw [Engine.step]
        simp only [htask]
      have hnot : o.standing ≠ .saved k := h.not_saved (by rw [htask]; rfl)
      exact stands_of_task h hengine rfl rfl rfl rfl rfl rfl (fun hsaved => absurd hsaved hnot) h.stored
    · apply stands_of_same h _ rfl rfl
      rw [Engine.step]
      split
      next hidle => exact absurd hidle htask
      next => rfl
  | harvest k verdicts =>
    cases htask : o.engine.tasks k with
    | scanning cfg =>
      have hengine : o.engine.step (.harvest k verdicts) = o.engine.setVerdicts verdicts := by
        rw [Engine.step]
        simp only [htask]
      have hnot : o.standing ≠ .saved k := h.not_saved (by rw [htask]; rfl)
      have htasks : o.engine.tasks = Function.update o.engine.tasks k (.scanning cfg) := by
        rw [← htask, Function.update_eq_self]
      exact stands_of_task h hengine rfl rfl htasks rfl rfl rfl (fun hsaved => absurd hsaved hnot) h.stored
    | _ => exact stands_of_same h (by simp only [Engine.step, htask]) rfl rfl
  | saveVerdicts k verdicts now =>
    cases htask : o.engine.tasks k with
    | scanning cfg =>
      have hengine : o.engine.step (.saveVerdicts k verdicts now) =
          (o.engine.setVerdicts verdicts).setTask k (.ready cfg now) := by
        rw [Engine.step]
        simp only [htask]
      exact stands_of_task h hengine rfl rfl rfl rfl rfl rfl (fun _ => rfl) h.stored
    | _ => exact stands_of_same h (by simp only [Engine.step, htask]) rfl rfl
  | failCycle k =>
    cases htask : o.engine.tasks k with
    | scanning cfg =>
      have hengine : o.engine.step (.failCycle k) = o.engine.setTask k .idle := by
        rw [Engine.step]
        simp only [htask]
      have hnot : o.standing ≠ .saved k := h.not_saved (by rw [htask]; rfl)
      exact stands_of_task h hengine rfl rfl rfl rfl rfl rfl (fun hsaved => absurd hsaved hnot) h.stored
    | _ => exact stands_of_same h (by simp only [Engine.step, htask]) rfl rfl
  | changeSettings k settings =>
    cases htask : o.engine.tasks k with
    | idle =>
      have hengine : o.engine.step (.changeSettings k settings) =
          { o.engine with settings := settings }.setTask k .changed := by
        rw [Engine.step]
        simp only [htask]
      exact stands_of_task h hengine rfl rfl rfl rfl rfl rfl (fun _ => rfl) h.stored
    | _ => exact stands_of_same h (by simp only [Engine.step, htask]) rfl rfl
  | setAllowOverride k other => exact stands_setAllowOverride h k other
  | clearOverride k other => exact stands_clearOverride h k other
  | setCategoryOverride k other category => exact stands_setCategoryOverride h k other category
  | clearCategoryOverride k other => exact stands_clearCategoryOverride h k other
  | capture k now =>
    cases htask : o.engine.tasks k with
    | changed =>
      have hengine : o.engine.step (.capture k now) = o.engine.setTask k (.ready o.engine.settings now) := by
        rw [Engine.step]
        simp only [htask]
      exact stands_of_task h hengine rfl rfl rfl rfl rfl rfl (fun _ => rfl) h.stored
    | _ => exact stands_of_same h (by simp only [Engine.step, htask]) rfl rfl
  | lock k fails =>
    cases hlock : o.engine.lock with
    | some j =>
      exact stands_of_same h (by simp only [Engine.step, hlock]) rfl (by simp only [standingAfter, hlock])
    | none =>
      cases htask : o.engine.tasks k with
      | ready cfg now => exact stands_lock h hlock htask hreads
      | _ =>
        exact stands_of_same h (by simp only [Engine.step, hlock, htask]) rfl (by simp only [standingAfter, hlock, htask])
  | label k fails =>
    cases htask : o.engine.tasks k with
    | publishing cfg now overrides => exact stands_label h htask hreads
    | _ => exact stands_of_same h (by simp only [Engine.step, htask]) (by simp only [seenAfter, htask]) rfl
  | finish k fails =>
    cases htask : o.engine.tasks k with
    | labelled cfg now overrides => exact stands_finish h htask fails
    | _ => exact stands_of_same h (by simp only [Engine.step, htask]) rfl (by simp only [standingAfter, htask])

theorem stands_step (h : o.Stands domain label) (input : Observation) (hreads : o.Reads input) :
    (o.step domain label input).Stands domain label := by
  cases input with
  | event event => exact stands_event h event hreads
  | query name now => exact h

theorem findsLabel_iff (h : o.Stands domain label) (input : Observation) :
    o.FindsLabel domain label input ↔ o.Unexpired domain label input := by
  cases input with
  | event event => exact Iff.rfl
  | query name now =>
    apply forall_congr'
    intro hin
    apply forall_congr'
    intro hname
    have hentry := (h.inForce hin).1
    rw [Labelled, ← hname] at hentry
    rw [foundCategory_of_get hentry, ← hname]
    by_cases hfresh : now < relabelExpiry o.seen o.seenAt (lookupName name) <;> simp [hfresh]

/-- The engine at rest, with no call for the relabel. -/
def atRest (w : Engine) : Observed := ⟨w, w.store, 0, .absent⟩

theorem stands_atRest {w : Engine} (hidle : ∀ k, w.tasks k = .idle) : (atRest w).Stands domain label where
  lockHeld := by
    intro k hk
    change (w.tasks k).locking = true at hk
    rw [hidle k] at hk
    cases hk
  stored := fun hpresent => absurd rfl hpresent
  saved := nofun
  inForce := nofun

theorem relabel_holds (domain label : Text) (w : Engine) (hidle : ∀ k, w.tasks k = .idle) (inputs : List Observation)
    (hreads : Each (step domain label) Reads (atRest w) inputs) :
    Each (step domain label) (FindsLabel domain label) (atRest w) inputs ↔
      Each (step domain label) (Unexpired domain label) (atRest w) inputs :=
  each_congr_of_allowed (Stands domain label) Reads (FindsLabel domain label) (Unexpired domain label)
    (fun _ input h hinput => stands_step h input hinput) (fun _ input h => findsLabel_iff h input) inputs
    (stands_atRest hidle) hreads

end Observed

/-! A shop that the model labels as news, for an hour, and its parent, for two. -/

def newsStore : AiStore where
  verdicts := ⟨[⟨"shop.thing.example".toList, .content, "news".toList, "info".toList, "classified".toList, 9 / 10, 3600⟩,
    ⟨"thing.example".toList, .content, "news".toList, "info".toList, "classified".toList, 9 / 10, 7200⟩],
    List.nodup_cons.mpr ⟨by simp, List.nodup_singleton _⟩⟩
  overrides := OrderedTable.empty
  relabels := OrderedTable.empty

def newsEngine : Engine where
  settings := malwareSettings .train
  store := newsStore
  published := nothingPublished
  tasks := fun _ => .idle
  lock := none
  basis := newsStore.verdicts
  publishedAt := 0

/-- The shop is relabelled and then queried. -/
def relabelledShop (now : Int) : List Observation :=
  [.event (.setCategoryOverride 1 "shop.thing.example".toList "gambling".toList), .event (.capture 1 0),
    .event (.lock 1 false), .event (.label 1 false), .event (.finish 1 false), .query "shop.thing.example.".toList now]

namespace Observed

theorem reads_relabelledShop (now : Int) : Each (step "shop.thing.example".toList "gambling".toList) Reads
    (atRest newsEngine) (relabelledShop now) :=
  ⟨trivial, trivial, nofun, nofun, trivial, trivial, trivial⟩

theorem relabel_holds_fresh : Each (step "shop.thing.example".toList "gambling".toList)
    (FindsLabel "shop.thing.example".toList "gambling".toList) (atRest newsEngine) (relabelledShop 60) :=
  (relabel_holds _ _ newsEngine (fun _ => rfl) (relabelledShop 60) (reads_relabelledShop 60)).mpr
    ⟨trivial, trivial, trivial, trivial, trivial, fun _ _ => .inl (by decide), trivial⟩

/-- The label is gone with the verdict of the model, and the parent's found. -/
theorem relabel_holds_fails :
    (run (step "shop.thing.example".toList "gambling".toList) (atRest newsEngine) (relabelledShop 4000)).standing =
        .inForce ∧
      foundCategory (run (step "shop.thing.example".toList "gambling".toList) (atRest newsEngine)
        (relabelledShop 4000)).engine.published "shop.thing.example.".toList 4000 = some "news".toList ∧
      ¬∀ (domain label : Text) (w : Engine), (∀ k, w.tasks k = .idle) → ∀ inputs : List Observation,
        Each (step domain label) Reads (atRest w) inputs →
          Each (step domain label) (FindsLabel domain label) (atRest w) inputs := by
  have hstanding : (run (step "shop.thing.example".toList "gambling".toList) (atRest newsEngine)
      (relabelledShop 4000)).standing = .inForce := by decide
  have hfound : foundCategory (run (step "shop.thing.example".toList "gambling".toList) (atRest newsEngine)
      (relabelledShop 4000)).engine.published "shop.thing.example.".toList 4000 = some "news".toList := by decide
  refine ⟨hstanding, hfound, fun h => ?_⟩
  have hreads : Each (step "shop.thing.example".toList "gambling".toList) Reads (atRest newsEngine)
      (relabelledShop 4000 ++ [.query "shop.thing.example.".toList 4000]) :=
    ⟨trivial, trivial, nofun, nofun, trivial, trivial, trivial, trivial⟩
  have heach := h _ _ newsEngine (fun _ => rfl) _ hreads
  have hfinds := (each_append heach).1 hstanding (by decide)
  rw [hfound] at hfinds
  exact absurd hfinds (by decide)

end Observed

end DaygleDns.Ai
