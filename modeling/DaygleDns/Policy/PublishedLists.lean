import DaygleDns.Policy.BlocklistSources
import DaygleDns.Runs

/-! The published lists follow the source list, in runs of edits and overlapping
refreshes of one manager, as long as the refreshes publish in the order in which they
merged the caches. -/
namespace DaygleDns.Policy

open Text Runs

namespace Merge

/-- A merge that has the sources of `rows` in it, and nothing else. -/
structure Gathers (merge : Merge) (rows : List (BlocklistSourceConfig × SourceStatus)) : Prop where
  groupSets : merge.groupSets = ((rows.filter fun row => row.1.enabled && row.1.scope == .groups).map
    fun row => (toAsciiLowercase row.1.name, row.2.cachedDomains))
  everyone : merge.mergedSources.everyone = ((rows.filter fun row => row.1.enabled && row.1.scope == .everyone).map
    fun row => (row.1.name, row.2.cachedDomains))
  dot : merge.mergedSources.dot = ((rows.filter fun row => row.1.enabled && row.1.scope == .dot).map
    fun row => (row.1.name, row.2.cachedDomains))
  dotMerged : merge.dotMerged = together merge.mergedSources.dot

theorem gathers_empty : empty.Gathers [] := ⟨rfl, rfl, rfl, rfl⟩

theorem Gathers.addSource {merge : Merge} {rows : List (BlocklistSourceConfig × SourceStatus)}
    (h : merge.Gathers rows) {row : BlocklistSourceConfig × SourceStatus} (hrow : describes row.2 row.1 = true) :
    (merge.addSource row).Gathers (rows ++ [row]) := by
  obtain ⟨source, st⟩ := row
  cases henabled : source.enabled with
  | false =>
    have hsame : merge.addSource (source, st) = merge := by simp [Merge.addSource, henabled]
    rw [hsame]
    constructor
    · simp [h.groupSets, henabled]
    · simp [h.everyone, henabled]
    · simp [h.dot, henabled]
    · exact h.dotMerged
  | true =>
    cases hscope : source.scope with
    | everyone =>
      constructor
      · simp [Merge.addSource, henabled, hscope, hrow, h.groupSets]
      · simp [Merge.addSource, henabled, hscope, hrow, h.everyone]
      · simp [Merge.addSource, henabled, hscope, hrow, h.dot]
      · simp [Merge.addSource, henabled, hscope, hrow, h.dotMerged]
    | groups =>
      constructor
      · simp [Merge.addSource, henabled, hscope, hrow, h.groupSets]
      · simp [Merge.addSource, henabled, hscope, hrow, h.everyone]
      · simp [Merge.addSource, henabled, hscope, hrow, h.dot]
      · simp [Merge.addSource, henabled, hscope, hrow, h.dotMerged]
    | dot =>
      constructor
      · simp [Merge.addSource, henabled, hscope, hrow, h.groupSets]
      · simp [Merge.addSource, henabled, hscope, hrow, h.everyone]
      · simp [Merge.addSource, henabled, hscope, hrow, h.dot]
      · simp [Merge.addSource, henabled, hscope, hrow, h.dotMerged, together]

theorem gathers_foldl {merge : Merge} {before rows : List (BlocklistSourceConfig × SourceStatus)}
    (h : merge.Gathers before) (hrows : ∀ row ∈ rows, describes row.2 row.1 = true) :
    (rows.foldl Merge.addSource merge).Gathers (before ++ rows) := by
  induction rows generalizing merge before with
  | nil => simpa using h
  | cons row rows ih =>
    have hnext := ih (h.addSource (hrows row List.mem_cons_self))
      fun other hother => hrows other (List.mem_cons_of_mem row hother)
    simpa using hnext

end Merge

/-- Every source has its row at its place. -/
def Aligned (sources : List BlocklistSourceConfig) (status : List SourceStatus) : Prop :=
  List.Forall₂ (fun source st => describes st source = true) sources status

theorem Merge.gathers_ofCaches {sources : List BlocklistSourceConfig} {status : List SourceStatus}
    (h : Aligned sources status) : (Merge.ofCaches sources status).Gathers (sources.zip status) :=
  gathers_foldl gathers_empty fun _ hrow => (List.forall₂_iff_zip.mp h).2 hrow

theorem describes_new (source : BlocklistSourceConfig) : describes (.new source) source = true := by
  simp [describes, SourceStatus.new]

namespace BlocklistSourceManager

theorem describes_carryForward (previous : List SourceStatus) (source : BlocklistSourceConfig) :
    describes (carryForward previous source) source = true := by
  unfold carryForward
  simp only
  split
  · exact describes_new source
  · split <;> exact describes_new source

theorem describes_recordIn (st : SourceStatus) (source other : BlocklistSourceConfig) (now wall : Nat)
    (fetched : Except Text TextSet) : describes (recordIn st source now wall fetched) other = describes st other := by
  cases fetched <;> rfl

/-- The compiled forms are those of the sets they were built from. -/
def Compiled (compiled : Text → Option (TextSet × Blocklist)) : Prop :=
  ∀ name set list, compiled name = some (set, list) → list = .fromSet set

theorem compile_eq {compiled : Text → Option (TextSet × Blocklist)} (h : Compiled compiled) (name : Text)
    (domains : TextSet) : compile compiled name domains = .fromSet domains := by
  unfold compile
  cases hmemo : compiled name with
  | none => rfl
  | some built =>
    obtain ⟨builtFrom, list⟩ := built
    by_cases hsame : builtFrom = domains
    · simp only [hsame, if_true]
      rw [h name builtFrom list hmemo, hsame]
    · simp only [hsame, if_false]

theorem compileAll_eq {compiled : Text → Option (TextSet × Blocklist)} (h : Compiled compiled)
    (sets : List (Text × TextSet)) (name : Text) :
    compileAll compiled sets name =
      (sets.reverse.find? fun set => set.1 == name).map fun set => (set.2, .fromSet set.2) := by
  unfold compileAll
  induction sets using List.reverseRecOn with
  | nil => rfl
  | append_singleton sets set ih =>
    simp only [List.foldl_append, List.foldl_cons, List.foldl_nil, List.reverse_append, List.reverse_cons,
      List.reverse_nil, List.nil_append, List.cons_append, List.find?_cons]
    by_cases hname : set.1 = name
    · simp [hname, compile_eq h]
    · have hother : (set.1 == name) = false := beq_false_of_ne hname
      simp [hother, Ne.symm hname, ih]

theorem compiled_compileAll {compiled : Text → Option (TextSet × Blocklist)} (h : Compiled compiled)
    (sets : List (Text × TextSet)) : Compiled (compileAll compiled sets) := by
  intro name set list hget
  rw [compileAll_eq h] at hget
  obtain ⟨found, _, hpair⟩ := Option.map_eq_some_iff.mp hget
  rw [Prod.mk.injEq] at hpair
  rw [← hpair.1, ← hpair.2]

end BlocklistSourceManager

/-- A refresh under way, with the number of edits made before it began and the place
of its merge among all merges. -/
structure Running where
  refresh : Refresh
  epoch : Nat
  ticket : Nat
deriving DecidableEq

/-- A manager, the `set_sources` call that holds the source lock and the refreshes
under way; then what only the statements read: how many edits and merges were made,
the merge that each published part is of, and the epochs of the refreshes that ended,
the last one at the end. -/
structure World where
  manager : BlocklistSourceManager
  editing : Option (List SourceStatus × List BlocklistSourceConfig)
  running : List Running
  returned : Option Blocklist
  epoch : Nat
  merges : Nat
  listsBy : Nat
  sourcesBy : Nat
  dotBy : Nat
  finished : List Nat

inductive Input where
  | beginEdit (sources : List BlocklistSourceConfig)
  | commitEdit
  | resetDue
  | begin (now : Nat)
  | advance (k : Nat) (fetched : Except Text TextSet) (wall : Nat)

namespace World

def start (sources : List BlocklistSourceConfig) : World where
  manager := .new sources
  editing := none
  running := []
  returned := none
  epoch := 0
  merges := 0
  listsBy := 0
  sourcesBy := 0
  dotBy := 0
  finished := []

/-- A section of refresh `k` by itself: whom the merge and the publications are of. -/
def mark (world : World) (running : Running) : World × Running :=
  match running.refresh.stage with
  | .scan i =>
      if running.refresh.snapshot[i]? = none then
        ({ world with merges := world.merges + 1 }, { running with ticket := world.merges + 1 })
      else (world, running)
  | .fetch _ _ => (world, running)
  | .lists _ => ({ world with listsBy := running.ticket }, running)
  | .sources _ => ({ world with sourcesBy := running.ticket }, running)
  | .dot _ => ({ world with dotBy := running.ticket, finished := world.finished ++ [running.epoch] }, running)

def advance (world : World) (k : Nat) (running : Running) (fetched : Except Text TextSet) (wall : Nat) : World :=
  let (world, running) := world.mark running
  match running.refresh.step world.manager fetched wall with
  | (.inl refresh, manager) =>
      { world with manager := manager, running := world.running.set k { running with refresh := refresh } }
  | (.inr returned, manager) =>
      { world with manager := manager, running := world.running.eraseIdx k, returned := some returned }

/-- One lock section. A section that waits for the source lock is not one yet. -/
def step (world : World) : Input → World
  | .beginEdit sources =>
      if world.editing.isNone && world.manager.sources != sources then
        { world with editing := some (world.manager.status, sources) }
      else world
  | .commitEdit =>
      match world.editing with
      | none => world
      | some (previous, sources) =>
          { world with
            manager := world.manager.setSources previous sources
            editing := none
            epoch := world.epoch + 1 }
  | .resetDue => { world with manager := world.manager.resetDue }
  | .begin now =>
      if world.editing.isNone then
        { world with running := world.running ++ [⟨.start world.manager now, world.epoch, 0⟩] }
      else world
  | .advance k fetched wall =>
      match world.running[k]? with
      | none => world
      | some running => world.advance k running fetched wall

/-- No refresh runs, and one that began after the last edit has ended. -/
def Settled (world : World) : Prop := world.running = [] ∧ world.epoch ∈ world.finished

/-- The published lists are those of the source list and its caches. -/
def FollowsSources (world : World) : Prop :=
  world.manager.published = .expected world.manager.sources world.manager.status

/-- A refresh does not publish over a refresh that merged the caches after it did, and
does not end after one that began after a later edit. -/
def MayPublish (world : World) (running : Running) : Stage → Prop
  | .scan _ | .fetch _ _ => True
  | .lists _ => world.listsBy ≤ running.ticket
  | .sources _ => world.sourcesBy ≤ running.ticket
  | .dot _ => world.dotBy ≤ running.ticket ∧ ∀ ended ∈ world.finished, ended ≤ running.epoch

def InOrder (world : World) : Input → Prop
  | .advance k _ _ => ∀ running ∈ world.running[k]?, world.MayPublish running running.refresh.stage
  | _ => True

instance (world : World) (running : Running) : ∀ stage, Decidable (world.MayPublish running stage)
  | .scan _ | .fetch _ _ => .isTrue trivial
  | .lists _ => inferInstanceAs (Decidable (world.listsBy ≤ running.ticket))
  | .sources _ => inferInstanceAs (Decidable (world.sourcesBy ≤ running.ticket))
  | .dot _ => inferInstanceAs
      (Decidable (world.dotBy ≤ running.ticket ∧ ∀ ended ∈ world.finished, ended ≤ running.epoch))

instance (world : World) : ∀ input, Decidable (world.InOrder input)
  | .advance k _ _ => inferInstanceAs
      (Decidable (∀ running ∈ world.running[k]?, world.MayPublish running running.refresh.stage))
  | .beginEdit _ | .commitEdit | .resetDue | .begin _ => .isTrue trivial

end World

theorem Merge.ofCaches_resetDue (sources : List BlocklistSourceConfig) (manager : BlocklistSourceManager) :
    Merge.ofCaches sources manager.resetDue.status = Merge.ofCaches sources manager.status := by
  simp only [Merge.ofCaches, BlocklistSourceManager.resetDue, List.zip_map_right, List.foldl_map]
  rfl

theorem aligned_resetDue {sources : List BlocklistSourceConfig} {manager : BlocklistSourceManager}
    (h : Aligned sources manager.status) : Aligned sources manager.resetDue.status := by
  apply List.forall₂_map_right_iff.mpr
  exact h.imp fun _ _ hrow => hrow

theorem aligned_setSources (manager : BlocklistSourceManager) (previous : List SourceStatus)
    (sources : List BlocklistSourceConfig) : Aligned sources (manager.setSources previous sources).status := by
  apply List.forall₂_map_right_iff.mpr
  apply List.forall₂_same.mpr
  exact fun source _ => BlocklistSourceManager.describes_carryForward previous source

theorem aligned_record {sources : List BlocklistSourceConfig} {manager : BlocklistSourceManager}
    (h : Aligned sources manager.status) (now wall i : Nat) (source : BlocklistSourceConfig)
    (fetched : Except Text TextSet) : Aligned sources (manager.record now wall i source fetched).status := by
  apply List.forall₂_iff_get.mpr
  obtain ⟨hlength, hrows⟩ := List.forall₂_iff_get.mp h
  refine ⟨by simpa [BlocklistSourceManager.record] using hlength, fun j hj hj' => ?_⟩
  have hrow := hrows j hj (by simpa [BlocklistSourceManager.record] using hj')
  simp only [BlocklistSourceManager.record, List.get_eq_getElem, List.getElem_modify] at hrow ⊢
  split
  · split
    · rw [BlocklistSourceManager.describes_recordIn]
      exact hrow
    · exact hrow
  · exact hrow

/-- The merge that a refresh has made and not fully published. -/
def Stage.merge? : Stage → Option Merge
  | .scan _ | .fetch _ _ => none
  | .lists merge | .sources merge | .dot merge => some merge

namespace World

/-- The group lists of a merge. -/
def listsOf (merge : Merge) (name : Text) : Option Blocklist :=
  (merge.groupSets.reverse.find? fun set => set.1 == name).map fun set => .fromSet set.2

def dotOf (merge : Merge) : Option Blocklist :=
  if merge.dotMerged.isEmpty then none else some (.fromSet merge.dotMerged)

/-- `merge` is the last merge made, by a refresh begun in `epoch`: each of its parts is
published or still to be published by that refresh, and it has what the caches hold
unless a refresh still has to merge them. -/
structure Latest (world : World) (epoch : Nat) (merge : Merge) : Prop where
  bound : epoch ≤ world.epoch
  own : ∀ r ∈ world.running, r.ticket = world.merges → ∀ m, r.refresh.stage.merge? = some m →
    m = merge ∧ r.epoch = epoch
  lists : (world.listsBy = world.merges ∧ world.manager.groupLists = listsOf merge) ∨
    ∃ r ∈ world.running, r.ticket = world.merges ∧ r.refresh.stage = .lists merge
  sources : (world.sourcesBy = world.merges ∧ world.manager.mergedSources = merge.mergedSources) ∨
    ∃ r ∈ world.running, r.ticket = world.merges ∧
      (r.refresh.stage = .lists merge ∨ r.refresh.stage = .sources merge)
  dot : (world.dotBy = world.merges ∧ world.manager.dotList = dotOf merge ∧
      ∀ ended ∈ world.finished, ended ≤ epoch) ∨
    ∃ r ∈ world.running, r.ticket = world.merges ∧ r.refresh.stage.merge? = some merge
  fresh : epoch = world.epoch →
    merge = .ofCaches world.manager.sources world.manager.status ∨
      ∃ r ∈ world.running, r.refresh.stage.merge? = none

structure Inv (world : World) : Prop where
  aligned : Aligned world.manager.sources world.manager.status
  compiled : BlocklistSourceManager.Compiled world.manager.compiled
  current : ∀ r ∈ world.running, r.epoch ≤ world.epoch ∧
    (r.epoch = world.epoch → r.refresh.snapshot = world.manager.sources)
  tickets : ∀ r ∈ world.running, r.ticket ≤ world.merges
  latest : (world.finished = [] ∧ ∀ r ∈ world.running, r.refresh.stage.merge? = none) ∨
    ∃ epoch merge, world.Latest epoch merge

theorem inv_start (sources : List BlocklistSourceConfig) : (start sources).Inv where
  aligned := List.forall₂_map_right_iff.mpr (List.forall₂_same.mpr fun source _ => describes_new source)
  compiled := fun _ _ _ h => by cases h
  current := by simp [start]
  tickets := by simp [start]
  latest := .inl ⟨rfl, by simp [start]⟩

/-- In a settled world everything of the last merge is published, and it is the
merge of the present caches. -/
theorem Inv.followsSources {world : World} (h : world.Inv) (hsettled : world.Settled) :
    world.FollowsSources := by
  obtain ⟨hquiet, hfinished⟩ := hsettled
  rcases h.latest with ⟨hnone, _⟩ | ⟨epoch, merge, hlatest⟩
  · rw [hnone] at hfinished
    cases hfinished
  · have hidle (p : Running → Prop) : ¬ ∃ r ∈ world.running, p r := by simp [hquiet]
    have hlists := (hlatest.lists.resolve_right (hidle _)).2
    have hsources := (hlatest.sources.resolve_right (hidle _)).2
    have hdot := (hlatest.dot.resolve_right (hidle _)).2
    have hepoch : epoch = world.epoch := le_antisymm hlatest.bound (hdot.2 world.epoch hfinished)
    have hmerge := (hlatest.fresh hepoch).resolve_right (hidle _)
    have hgathers := Merge.gathers_ofCaches h.aligned
    rw [← hmerge] at hgathers
    unfold FollowsSources BlocklistSourceManager.published Published.expected
    rw [hlists, hsources, hdot.1]
    have hgroup : listsOf merge = fun name =>
        ((contributing .groups world.manager.sources world.manager.status).reverse.find?
          fun set => toAsciiLowercase set.1 == name).map fun set => .fromSet set.2 := by
      funext name
      unfold listsOf contributing
      rw [hgathers.groupSets]
      simp only [← List.map_reverse, List.find?_map, Option.map_map]
      rfl
    have hnames : merge.mergedSources = ⟨contributing .everyone world.manager.sources world.manager.status,
        contributing .dot world.manager.sources world.manager.status⟩ := by
      unfold contributing
      rw [← hgathers.everyone, ← hgathers.dot]
    have hlast : dotOf merge =
        let all := together (contributing .dot world.manager.sources world.manager.status)
        if all.isEmpty then none else some (.fromSet all) := by
      unfold dotOf
      rw [hgathers.dotMerged, hnames]
    rw [hgroup, hnames, hlast]

section Elements

variable {α : Type} {items : List α} {k : Nat} {item changed : α} {p : α → Prop}

theorem exists_set (hk : items[k]? = some item) (h : ∃ other ∈ items, p other) (hp : p item → p changed) :
    ∃ other ∈ items.set k changed, p other := by
  obtain ⟨other, hother, hgood⟩ := h
  by_cases hsame : other = item
  · rw [hsame] at hgood
    exact ⟨changed, List.mem_set (List.getElem?_eq_some_iff.mp hk).1 changed, hp hgood⟩
  · obtain ⟨j, hj⟩ := List.mem_iff_getElem?.mp hother
    have hjk : k ≠ j := by
      intro heq
      rw [heq, hj] at hk
      exact hsame (Option.some.inj hk)
    exact ⟨other, List.mem_iff_getElem?.mpr ⟨j, by rwa [List.getElem?_set_ne hjk]⟩, hgood⟩

theorem exists_eraseIdx (hk : items[k]? = some item) (h : ∃ other ∈ items, p other) (hp : ¬ p item) :
    ∃ other ∈ items.eraseIdx k, p other := by
  obtain ⟨other, hother, hgood⟩ := h
  obtain ⟨j, hj⟩ := List.mem_iff_getElem?.mp hother
  have hjk : j ≠ k := by
    intro heq
    rw [heq, hk] at hj
    exact hp (Option.some.inj hj ▸ hgood)
  exact ⟨other, List.mem_eraseIdx_iff_getElem?.mpr ⟨j, hjk, hj⟩, hgood⟩

theorem forall_set (h : ∀ other ∈ items, p other) (hp : p changed) : ∀ other ∈ items.set k changed, p other := by
  intro other hother
  rcases List.mem_or_eq_of_mem_set hother with hother | rfl
  · exact h other hother
  · exact hp

end Elements

variable {world : World} {k : Nat} {running : Running}

/-- A refresh that has not merged goes on, perhaps with a row recorded. -/
theorem Inv.scan (h : world.Inv) (hk : world.running[k]? = some running) (stage : Stage)
    (hfrom : running.refresh.stage.merge? = none) (hto : stage.merge? = none) {status : List SourceStatus}
    (haligned : Aligned world.manager.sources status) :
    ({ world with
        manager := { world.manager with status := status }
        running := world.running.set k { running with refresh := running.refresh.goTo stage } } : World).Inv := by
  have hmem := List.mem_of_getElem? hk
  refine ⟨haligned, h.compiled, forall_set h.current (h.current running hmem),
    forall_set h.tickets (h.tickets running hmem), ?_⟩
  rcases h.latest with ⟨hnone, hunmerged⟩ | ⟨epoch, merge, hlatest⟩
  · exact .inl ⟨hnone, forall_set hunmerged hto⟩
  · refine .inr ⟨epoch, merge, hlatest.bound, ?_, ?_, ?_, ?_, fun _ => .inr ?_⟩
    · apply forall_set hlatest.own
      intro _ m hm
      rw [show (running.refresh.goTo stage).stage = stage from rfl, hto] at hm
      cases hm
    · refine hlatest.lists.imp_right fun hpending => exists_set hk hpending fun hrunning => ?_
      rw [hrunning.2] at hfrom
      cases hfrom
    · refine hlatest.sources.imp_right fun hpending => exists_set hk hpending fun hrunning => ?_
      rcases hrunning.2 with hstage | hstage <;> (rw [hstage] at hfrom; cases hfrom)
    · refine hlatest.dot.imp_right fun hpending => exists_set hk hpending fun hrunning => ?_
      rw [hrunning.2] at hfrom
      cases hfrom
    · exact ⟨_, List.mem_set (List.getElem?_eq_some_iff.mp hk).1 _, hto⟩

/-- A merge is the last one made. -/
theorem Inv.merge (h : world.Inv) (hk : world.running[k]? = some running) :
    ({ world with
        merges := world.merges + 1
        running := world.running.set k
          { running with
            ticket := world.merges + 1
            refresh := running.refresh.goTo
              (.lists (.ofCaches running.refresh.snapshot world.manager.status)) } } : World).Inv := by
  have hmem := List.mem_of_getElem? hk
  have hcurrent := h.current running hmem
  have hself := List.mem_set (List.getElem?_eq_some_iff.mp hk).1
    { running with
      ticket := world.merges + 1
      refresh := running.refresh.goTo (.lists (.ofCaches running.refresh.snapshot world.manager.status)) }
  refine ⟨h.aligned, h.compiled, forall_set h.current hcurrent, ?_, .inr ⟨running.epoch,
    .ofCaches running.refresh.snapshot world.manager.status, hcurrent.1, ?_, .inr ⟨_, hself, rfl, rfl⟩,
    .inr ⟨_, hself, rfl, .inl rfl⟩, .inr ⟨_, hself, rfl, rfl⟩, ?_⟩⟩
  · exact forall_set (fun r hr => Nat.le_succ_of_le (h.tickets r hr)) (le_refl (world.merges + 1))
  · intro r hr hticket m hm
    rcases List.mem_or_eq_of_mem_set hr with hr | rfl
    · have hle := h.tickets r hr
      simp only at hticket
      omega
    · exact ⟨(Option.some.inj hm).symm, rfl⟩
  · intro hepoch
    exact .inl (by rw [hcurrent.2 hepoch])

/-- The part that a refresh publishes next is the last merge's, or the last merge's is
still to come. -/
theorem Latest.published {epoch : Nat} {merge : Merge} (h : world.Inv) (hlatest : world.Latest epoch merge)
    (hmem : running ∈ world.running) {m : Merge} (hstage : running.refresh.stage.merge? = some m) {by_ : Nat}
    (horder : by_ ≤ running.ticket) :
    (running.ticket = world.merges ∧ m = merge ∧ running.epoch = epoch) ∨
      (running.ticket ≠ world.merges ∧ by_ ≠ world.merges) := by
  by_cases hticket : running.ticket = world.merges
  · exact .inl ⟨hticket, hlatest.own running hmem hticket m hstage⟩
  · have hle := h.tickets running hmem
    exact .inr ⟨hticket, by omega⟩

theorem Inv.exists_latest (h : world.Inv) (hmem : running ∈ world.running) {m : Merge}
    (hstage : running.refresh.stage.merge? = some m) : ∃ epoch merge, world.Latest epoch merge := by
  rcases h.latest with ⟨_, hunmerged⟩ | hlatest
  · rw [hunmerged running hmem] at hstage
    cases hstage
  · exact hlatest

theorem groupLists_publish {manager : BlocklistSourceManager}
    (h : BlocklistSourceManager.Compiled manager.compiled) (merge : Merge) :
    (manager.publishGroupLists merge.groupSets).groupLists = listsOf merge := by
  funext name
  simp only [BlocklistSourceManager.publishGroupLists, BlocklistSourceManager.compileAll_eq h, listsOf,
    Option.map_map]
  rfl

theorem Inv.publishLists (h : world.Inv) (hk : world.running[k]? = some running) {m : Merge}
    (hstage : running.refresh.stage = .lists m) (horder : world.listsBy ≤ running.ticket) :
    ({ world with
        manager := world.manager.publishGroupLists m.groupSets
        listsBy := running.ticket
        running := world.running.set k { running with refresh := running.refresh.goTo (.sources m) } } :
      World).Inv := by
  have hmem := List.mem_of_getElem? hk
  have hmerge : running.refresh.stage.merge? = some m := by rw [hstage]; rfl
  obtain ⟨epoch, merge, hlatest⟩ := h.exists_latest hmem hmerge
  refine ⟨h.aligned, BlocklistSourceManager.compiled_compileAll h.compiled m.groupSets,
    forall_set h.current (h.current running hmem), forall_set h.tickets (h.tickets running hmem),
    .inr ⟨epoch, merge, hlatest.bound, ?_, ?_, ?_, ?_, ?_⟩⟩
  · apply forall_set hlatest.own
    intro hticket other hother
    rw [← Option.some.inj hother]
    exact hlatest.own running hmem hticket m hmerge
  · rcases hlatest.published h hmem hmerge horder with ⟨hticket, hsame, _⟩ | ⟨hticket, hby⟩
    · refine .inl ⟨hticket, ?_⟩
      rw [← hsame]
      exact groupLists_publish h.compiled m
    · exact .inr (exists_set hk (hlatest.lists.resolve_left fun hdone => hby hdone.1)
        fun hrunning => absurd hrunning.1 hticket)
  · refine hlatest.sources.imp_right fun hpending => exists_set hk hpending fun hrunning => ?_
    have hsame := hlatest.own running hmem hrunning.1 m hmerge
    exact ⟨hrunning.1, .inr (by rw [← hsame.1]; rfl)⟩
  · refine hlatest.dot.imp_right fun hpending => exists_set hk hpending fun hrunning => ?_
    have hsame := hlatest.own running hmem hrunning.1 m hmerge
    exact ⟨hrunning.1, by rw [← hsame.1]; rfl⟩
  · refine fun hepoch => (hlatest.fresh hepoch).imp_right fun hpending => exists_set hk hpending fun hnone => ?_
    rw [hmerge] at hnone
    cases hnone

theorem Inv.publishSources (h : world.Inv) (hk : world.running[k]? = some running) {m : Merge}
    (hstage : running.refresh.stage = .sources m) (horder : world.sourcesBy ≤ running.ticket) :
    ({ world with
        manager := world.manager.setMergedSources m.mergedSources
        sourcesBy := running.ticket
        running := world.running.set k { running with refresh := running.refresh.goTo (.dot m) } } :
      World).Inv := by
  have hmem := List.mem_of_getElem? hk
  have hmerge : running.refresh.stage.merge? = some m := by rw [hstage]; rfl
  obtain ⟨epoch, merge, hlatest⟩ := h.exists_latest hmem hmerge
  refine ⟨h.aligned, h.compiled, forall_set h.current (h.current running hmem),
    forall_set h.tickets (h.tickets running hmem), .inr ⟨epoch, merge, hlatest.bound, ?_, ?_, ?_, ?_, ?_⟩⟩
  · apply forall_set hlatest.own
    intro hticket other hother
    rw [← Option.some.inj hother]
    exact hlatest.own running hmem hticket m hmerge
  · refine hlatest.lists.imp_right fun hpending => exists_set hk hpending fun hrunning => ?_
    rw [hstage] at hrunning
    cases hrunning.2
  · rcases hlatest.published h hmem hmerge horder with ⟨hticket, hsame, _⟩ | ⟨hticket, hby⟩
    · exact .inl ⟨hticket, by rw [← hsame]; rfl⟩
    · exact .inr (exists_set hk (hlatest.sources.resolve_left fun hdone => hby hdone.1)
        fun hrunning => absurd hrunning.1 hticket)
  · refine hlatest.dot.imp_right fun hpending => exists_set hk hpending fun hrunning => ?_
    have hsame := hlatest.own running hmem hrunning.1 m hmerge
    exact ⟨hrunning.1, by rw [← hsame.1]; rfl⟩
  · refine fun hepoch => (hlatest.fresh hepoch).imp_right fun hpending => exists_set hk hpending fun hnone => ?_
    rw [hmerge] at hnone
    cases hnone

theorem forall_eraseIdx {α : Type} {items : List α} {k : Nat} {p : α → Prop} (h : ∀ other ∈ items, p other) :
    ∀ other ∈ items.eraseIdx k, p other :=
  fun other hother => h other (List.mem_of_mem_eraseIdx hother)

theorem Inv.publishDot (h : world.Inv) (hk : world.running[k]? = some running) {m : Merge}
    (hstage : running.refresh.stage = .dot m) (horder : world.dotBy ≤ running.ticket)
    (hended : ∀ ended ∈ world.finished, ended ≤ running.epoch) (returned : Option Blocklist) :
    ({ world with
        manager := world.manager.publishDot m.dotMerged
        dotBy := running.ticket
        finished := world.finished ++ [running.epoch]
        running := world.running.eraseIdx k
        returned := returned } : World).Inv := by
  have hmem := List.mem_of_getElem? hk
  have hmerge : running.refresh.stage.merge? = some m := by rw [hstage]; rfl
  obtain ⟨epoch, merge, hlatest⟩ := h.exists_latest hmem hmerge
  refine ⟨h.aligned, h.compiled, forall_eraseIdx h.current, forall_eraseIdx h.tickets,
    .inr ⟨epoch, merge, hlatest.bound, forall_eraseIdx hlatest.own, ?_, ?_, ?_, ?_⟩⟩
  · refine hlatest.lists.imp_right fun hpending => exists_eraseIdx hk hpending fun hrunning => ?_
    rw [hstage] at hrunning
    cases hrunning.2
  · refine hlatest.sources.imp_right fun hpending => exists_eraseIdx hk hpending fun hrunning => ?_
    rw [hstage] at hrunning
    rcases hrunning.2 with hother | hother <;> cases hother
  · rcases hlatest.published h hmem hmerge horder with ⟨hticket, hsame, hepoch⟩ | ⟨hticket, hby⟩
    · refine .inl ⟨hticket, by rw [← hsame]; rfl, fun ended hmember => ?_⟩
      rcases List.mem_append.mp hmember with hmember | hmember
      · exact hepoch ▸ hended ended hmember
      · exact le_of_eq ((List.mem_singleton.mp hmember).trans hepoch)
    · exact .inr (exists_eraseIdx hk (hlatest.dot.resolve_left fun hdone => hby hdone.1)
        fun hrunning => hticket hrunning.1)
  · refine fun hepoch => (hlatest.fresh hepoch).imp_right fun hpending =>
      exists_eraseIdx hk hpending fun hnone => ?_
    rw [hmerge] at hnone
    cases hnone

/-- An edit opens a new epoch, in which no refresh has begun. -/
theorem Inv.commitEdit (h : world.Inv) (previous : List SourceStatus) (sources : List BlocklistSourceConfig) :
    ({ world with
        manager := world.manager.setSources previous sources
        editing := none
        epoch := world.epoch + 1 } : World).Inv := by
  refine ⟨aligned_setSources world.manager previous sources, h.compiled, ?_, h.tickets, ?_⟩
  · intro r hr
    have hbound := (h.current r hr).1
    refine ⟨Nat.le_succ_of_le hbound, fun hepoch => ?_⟩
    simp only at hepoch
    omega
  · apply h.latest.imp_right
    intro ⟨epoch, merge, hlatest⟩
    have hbound := hlatest.bound
    refine ⟨epoch, merge, Nat.le_succ_of_le hbound, hlatest.own, hlatest.lists, hlatest.sources, hlatest.dot, ?_⟩
    intro hepoch
    simp only at hepoch
    omega

theorem Inv.resetDue (h : world.Inv) : ({ world with manager := world.manager.resetDue } : World).Inv := by
  refine ⟨aligned_resetDue h.aligned, h.compiled, h.current, h.tickets, h.latest.imp_right ?_⟩
  intro ⟨epoch, merge, hlatest⟩
  refine ⟨epoch, merge, hlatest.bound, hlatest.own, hlatest.lists, hlatest.sources, hlatest.dot, ?_⟩
  intro hepoch
  refine (hlatest.fresh hepoch).imp_left fun hmerge => hmerge.trans ?_
  exact (Merge.ofCaches_resetDue world.manager.sources world.manager).symm

theorem Inv.begin (h : world.Inv) (now : Nat) :
    ({ world with running := world.running ++ [⟨.start world.manager now, world.epoch, 0⟩] } : World).Inv := by
  have hstill (p : Running → Prop) (hpending : ∃ r ∈ world.running, p r) :
      ∃ r ∈ world.running ++ [⟨.start world.manager now, world.epoch, 0⟩], p r := by
    obtain ⟨r, hr, hgood⟩ := hpending
    exact ⟨r, List.mem_append_left _ hr, hgood⟩
  have hall (p : Running → Prop) (hold : ∀ r ∈ world.running, p r)
      (hnew : p ⟨.start world.manager now, world.epoch, 0⟩) :
      ∀ r ∈ world.running ++ [⟨.start world.manager now, world.epoch, 0⟩], p r := by
    intro r hr
    rcases List.mem_append.mp hr with hr | hr
    · exact hold r hr
    · rw [List.mem_singleton.mp hr]
      exact hnew
  refine ⟨h.aligned, h.compiled, hall _ h.current ⟨le_refl _, fun _ => rfl⟩, hall _ h.tickets (Nat.zero_le _), ?_⟩
  rcases h.latest with ⟨hnone, hunmerged⟩ | ⟨epoch, merge, hlatest⟩
  · exact .inl ⟨hnone, hall _ hunmerged rfl⟩
  · exact .inr ⟨epoch, merge, hlatest.bound, hall _ hlatest.own (fun _ _ hm => by cases hm),
      hlatest.lists.imp_right (hstill _), hlatest.sources.imp_right (hstill _),
      hlatest.dot.imp_right (hstill _), fun hepoch => (hlatest.fresh hepoch).imp_right (hstill _)⟩

theorem Inv.advance (h : world.Inv) (hk : world.running[k]? = some running) (fetched : Except Text TextSet)
    (wall : Nat) (horder : world.InOrder (.advance k fetched wall)) :
    (world.advance k running fetched wall).Inv := by
  have horder : world.MayPublish running running.refresh.stage := horder running hk
  cases hstage : running.refresh.stage with
  | scan i =>
    have hfrom : running.refresh.stage.merge? = none := by rw [hstage]; rfl
    cases hsource : running.refresh.snapshot[i]? with
    | none =>
      simp only [World.advance, mark, Refresh.step, hstage, hsource, if_true]
      exact h.merge hk
    | some source =>
      cases hdue : source.enabled && world.manager.isDue running.refresh.now i source with
      | true =>
        simp only [World.advance, mark, Refresh.step, hstage, hsource, hdue, reduceCtorEq, if_false, if_true]
        exact h.scan hk (.fetch i source) hfrom rfl h.aligned
      | false =>
        simp only [World.advance, mark, Refresh.step, hstage, hsource, hdue, reduceCtorEq, Bool.false_eq_true,
          if_false]
        exact h.scan hk (.scan (i + 1)) hfrom rfl h.aligned
  | fetch i source =>
    have hfrom : running.refresh.stage.merge? = none := by rw [hstage]; rfl
    simp only [World.advance, mark, Refresh.step, hstage]
    exact h.scan hk (.scan (i + 1)) hfrom rfl (aligned_record h.aligned _ _ _ _ _)
  | lists m =>
    rw [hstage] at horder
    simp only [World.advance, mark, Refresh.step, hstage]
    exact h.publishLists hk hstage horder
  | sources m =>
    rw [hstage] at horder
    simp only [World.advance, mark, Refresh.step, hstage]
    exact h.publishSources hk hstage horder
  | dot m =>
    rw [hstage] at horder
    simp only [World.advance, mark, Refresh.step, hstage]
    exact h.publishDot hk hstage horder.1 horder.2 _

theorem Inv.step (h : world.Inv) {input : Input} (horder : world.InOrder input) : (world.step input).Inv := by
  cases input with
  | beginEdit sources =>
    simp only [World.step]
    split
    · exact ⟨h.aligned, h.compiled, h.current, h.tickets, h.latest.imp_right fun ⟨epoch, merge, hlatest⟩ =>
        ⟨epoch, merge, hlatest.bound, hlatest.own, hlatest.lists, hlatest.sources, hlatest.dot, hlatest.fresh⟩⟩
    · exact h
  | commitEdit =>
    simp only [World.step]
    split
    · exact h
    · exact h.commitEdit _ _
  | resetDue => exact h.resetDue
  | begin now =>
    simp only [World.step]
    split
    · exact h.begin now
    · exact h
  | advance k fetched wall =>
    cases hk : world.running[k]? with
    | none =>
      simp only [World.step, hk]
      exact h
    | some running =>
      simp only [World.step, hk]
      exact h.advance hk fetched wall horder

/-- In every run from a new manager whose refreshes publish in the order of their
merges and end in the order of the edits they saw, whenever no refresh runs and one
that began after the last edit has ended, the published lists follow the source list. -/
theorem published_follow_sources (sources : List BlocklistSourceConfig) (inputs : List Input)
    (horder : Each step InOrder (start sources) inputs) :
    Always step (fun world => world.Settled → world.FollowsSources) (start sources) inputs := by
  have hinv := always_of_invariant Inv (fun _ _ h => h.step) inputs (inv_start sources) horder
  exact always_mono (fun _ h => h.followsSources) hinv

def groupSource (name : Text) : BlocklistSourceConfig where
  name := name
  url := ("https://lists.example/" : String)
  format := .domains
  refreshSecs := 3600
  enabled := true
  scope := .groups

def listing (domain : Text) : Except Text TextSet := .ok (TextSet.empty.put domain)

def adsSource : BlocklistSourceConfig := groupSource ("Ads" : String)

def trackersSource : BlocklistSourceConfig := groupSource ("Trackers" : String)

/-- A refresh of a list with one source, from the first section to the merge. -/
def fetchAndMerge (k : Nat) (domain : Text) : List Input :=
  [.advance k (listing domain) 0, .advance k (listing domain) 0, .advance k (listing domain) 0]

def goOn (k : Nat) : Input := .advance k (.ok .empty) 0

theorem published_follow_edit :
    let inputs := [.begin 0] ++ fetchAndMerge 0 ("a.test" : String) ++ [goOn 0, goOn 0, goOn 0,
      .beginEdit [trackersSource], .commitEdit, .resetDue, .begin 1] ++
      fetchAndMerge 0 ("b.test" : String) ++ [goOn 0, goOn 0, goOn 0]
    Always step (fun world => world.Settled → world.FollowsSources) (start [adsSource]) inputs ∧
      (run step (start [adsSource]) inputs).Settled := by
  refine ⟨published_follow_sources _ _ (by decide), ?_⟩
  unfold Settled
  decide

/-- A refresh of the list before an edit publishes its group lists, and then all the
rest, between two publications of the refresh after the edit, which ends last: the
removed source goes on blocking. -/
theorem slow_refresh_replaces :
    let inputs := [.begin 0] ++ fetchAndMerge 0 ("a.test" : String) ++
      [.beginEdit [trackersSource], .commitEdit, .begin 1] ++ fetchAndMerge 1 ("b.test" : String) ++
      [goOn 1, goOn 0, goOn 0, goOn 0, goOn 0, goOn 0]
    let world := run step (start [adsSource]) inputs
    world.running = [] ∧ world.finished.getLast? = some world.epoch ∧ ¬ world.FollowsSources := by
  refine ⟨by decide, by decide, fun h => ?_⟩
  have hads := congrFun (congrArg Published.groupLists h) ("ads" : String).toList
  revert hads
  decide

end World

end DaygleDns.Policy
