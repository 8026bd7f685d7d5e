import Mathlib.Logic.Function.Basic
import DaygleDns.Policy.Blocklist

/-! Remote blocklist sources: the configured list, the status row of each source
with the domains it last gave, and the lists published from them. Between two lock
sections of a refresh or of an edit the manager is anybody's, so each section is an
operation of its own. -/
namespace DaygleDns.Policy

open Text

inductive BlocklistFormat where
  | domains | wildcard | hosts | adblock | rpz
deriving DecidableEq

inductive BlocklistScope where
  | everyone | groups | dot
deriving DecidableEq

structure BlocklistSourceConfig where
  name : Text
  url : Text
  format : BlocklistFormat
  refreshSecs : Nat
  enabled : Bool
  scope : BlocklistScope
deriving DecidableEq

structure SourceStatus where
  name : Text
  url : Text
  enabled : Bool
  format : BlocklistFormat
  refreshSecs : Nat
  scope : BlocklistScope
  lastFetch : Option Nat
  lastFetchAt : Option Nat
  domains : Nat
  cachedDomains : TextSet
  lastError : Option Text
deriving DecidableEq

/-- A source that was not fetched yet. -/
def SourceStatus.new (source : BlocklistSourceConfig) : SourceStatus where
  name := source.name
  url := source.url
  enabled := source.enabled
  format := source.format
  refreshSecs := source.refreshSecs
  scope := source.scope
  lastFetch := none
  lastFetchAt := none
  domains := 0
  cachedDomains := .empty
  lastError := none

/-- Whether the status row still describes the source. -/
def describes (st : SourceStatus) (source : BlocklistSourceConfig) : Bool :=
  st.name == source.name && st.url == source.url && st.format == source.format

def domainCount (domains : TextSet) : BlocklistFormat → Nat
  | .wildcard => (domains.rows.filter fun d => !wildcardPrefix.isPrefixOf d).length
  | .adblock => (domains.rows.filter fun d =>
      !exceptionPrefix.isPrefixOf d &&
        !(wildcardPrefix.isPrefixOf d && domains.contains (d.drop 2))).length
  | _ => domains.rows.length

/-- The entries of the sources that are merged into the engine's lists. -/
structure MergedSources where
  everyone : List (Text × TextSet)
  dot : List (Text × TextSet)
deriving DecidableEq

structure BlocklistSourceManager where
  sources : List BlocklistSourceConfig
  status : List SourceStatus
  compiled : Text → Option (TextSet × Blocklist)
  groupLists : Text → Option Blocklist
  mergedSources : MergedSources
  dotList : Option Blocklist

namespace BlocklistSourceManager

def new (sources : List BlocklistSourceConfig) : BlocklistSourceManager where
  sources := sources
  status := sources.map .new
  compiled := fun _ => none
  groupLists := fun _ => none
  mergedSources := ⟨[], []⟩
  dotList := none

/-- The row of a source of the new list. `previous` is indexed by name and URL,
where the last row of a key wins. -/
def carryForward (previous : List SourceStatus) (source : BlocklistSourceConfig) : SourceStatus :=
  let fresh := SourceStatus.new source
  match previous.reverse.find? fun st => st.name == source.name && st.url == source.url with
  | none => fresh
  | some prev =>
      if prev.format = fresh.format ∧ prev.refreshSecs = fresh.refreshSecs ∧ prev.enabled = fresh.enabled then
        { fresh with
          lastFetch := prev.lastFetch
          lastFetchAt := prev.lastFetchAt
          domains := prev.domains
          cachedDomains := prev.cachedDomains
          lastError := prev.lastError }
      else fresh

/-- The end of `set_sources`, with the rows it read when it took the source lock. -/
def setSources (manager : BlocklistSourceManager) (previous : List SourceStatus)
    (sources : List BlocklistSourceConfig) : BlocklistSourceManager :=
  { manager with sources := sources, status := sources.map (carryForward previous) }

/-- What `refresh_all` does first. -/
def resetDue (manager : BlocklistSourceManager) : BlocklistSourceManager :=
  { manager with status := manager.status.map fun st => { st with lastFetch := none } }

def nanosPerSec : Nat := 1000000000

/-- Whether the source in row `i` has to be fetched at `now`. -/
def isDue (manager : BlocklistSourceManager) (now i : Nat) (source : BlocklistSourceConfig) : Bool :=
  match manager.status[i]? with
  | none => false
  | some st =>
      describes st source &&
        match st.lastFetch with
        | some last => source.refreshSecs * nanosPerSec ≤ now - last
        | none => true

def recordIn (st : SourceStatus) (source : BlocklistSourceConfig) (now wall : Nat) :
    Except Text TextSet → SourceStatus
  | .ok domains =>
      { st with
        lastFetch := some now
        lastFetchAt := some wall
        domains := domainCount domains source.format
        cachedDomains := domains
        lastError := none }
  | .error e => { st with lastError := some e }

/-- A fetch of the source in row `i` ended: its domains, or the error. -/
def record (manager : BlocklistSourceManager) (now wall i : Nat) (source : BlocklistSourceConfig)
    (fetched : Except Text TextSet) : BlocklistSourceManager :=
  { manager with
    status := manager.status.modify i fun st =>
      if describes st source then recordIn st source now wall fetched else st }

end BlocklistSourceManager

/-- What a refresh makes of the caches. -/
structure Merge where
  merged : TextSet
  groupSets : List (Text × TextSet)
  dotMerged : TextSet
  mergedSources : MergedSources
deriving DecidableEq

namespace Merge

def empty : Merge := ⟨.empty, [], .empty, ⟨[], []⟩⟩

/-- A source of the snapshot, with the status row at its place. -/
def addSource (merge : Merge) (row : BlocklistSourceConfig × SourceStatus) : Merge :=
  let (source, st) := row
  if source.enabled && describes st source then
    match source.scope with
    | .everyone =>
        { merge with
          merged := merge.merged.extend st.cachedDomains
          mergedSources := { merge.mergedSources with
            everyone := merge.mergedSources.everyone ++ [(source.name, st.cachedDomains)] } }
    | .groups =>
        { merge with groupSets := merge.groupSets ++ [(toAsciiLowercase source.name, st.cachedDomains)] }
    | .dot =>
        { merge with
          dotMerged := merge.dotMerged.extend st.cachedDomains
          mergedSources := { merge.mergedSources with
            dot := merge.mergedSources.dot ++ [(source.name, st.cachedDomains)] } }
  else merge

/-- The merge loop; a source without a row in the table is left out. -/
def ofCaches (sources : List BlocklistSourceConfig) (status : List SourceStatus) : Merge :=
  (sources.zip status).foldl addSource empty

end Merge

namespace BlocklistSourceManager

/-- The compiled form of a set, reused when the source gave the same one. -/
def compile (compiled : Text → Option (TextSet × Blocklist)) (name : Text) (domains : TextSet) : Blocklist :=
  match compiled name with
  | some (builtFrom, list) => if builtFrom = domains then list else .fromSet domains
  | none => .fromSet domains

def compileAll (compiled : Text → Option (TextSet × Blocklist)) (sets : List (Text × TextSet)) :
    Text → Option (TextSet × Blocklist) :=
  sets.foldl (fun next set => Function.update next set.1 (some (set.2, compile compiled set.1 set.2)))
    fun _ => none

def publishGroupLists (manager : BlocklistSourceManager) (sets : List (Text × TextSet)) :
    BlocklistSourceManager :=
  let next := compileAll manager.compiled sets
  { manager with
    groupLists := fun name => (next name).map Prod.snd
    compiled := next }

def setMergedSources (manager : BlocklistSourceManager) (merged : MergedSources) : BlocklistSourceManager :=
  { manager with mergedSources := merged }

def publishDot (manager : BlocklistSourceManager) (dotMerged : TextSet) : BlocklistSourceManager :=
  { manager with dotList := if dotMerged.isEmpty then none else some (.fromSet dotMerged) }

end BlocklistSourceManager

/-- Where a `refresh_due` stands: before row `i` of its snapshot, in the fetch of
row `i`, or after the merge before one of its three publications. -/
inductive Stage where
  | scan (i : Nat)
  | fetch (i : Nat) (source : BlocklistSourceConfig)
  | lists (merge : Merge)
  | sources (merge : Merge)
  | dot (merge : Merge)
deriving DecidableEq

/-- A `refresh_due` call: its snapshot of the sources and its clock reading. -/
structure Refresh where
  snapshot : List BlocklistSourceConfig
  now : Nat
  stage : Stage
deriving DecidableEq

namespace Refresh

def start (manager : BlocklistSourceManager) (now : Nat) : Refresh := ⟨manager.sources, now, .scan 0⟩

def goTo (refresh : Refresh) (stage : Stage) : Refresh := { refresh with stage := stage }

/-- The next lock section. A fetch under way ends with `fetched` at the time `wall`;
the last section returns the merged list. -/
def step (refresh : Refresh) (manager : BlocklistSourceManager) (fetched : Except Text TextSet) (wall : Nat) :
    (Refresh ⊕ Blocklist) × BlocklistSourceManager :=
  match refresh.stage with
  | .scan i =>
      match refresh.snapshot[i]? with
      | none => (.inl (refresh.goTo (.lists (.ofCaches refresh.snapshot manager.status))), manager)
      | some source =>
          if source.enabled && manager.isDue refresh.now i source then
            (.inl (refresh.goTo (.fetch i source)), manager)
          else (.inl (refresh.goTo (.scan (i + 1))), manager)
  | .fetch i source =>
      (.inl (refresh.goTo (.scan (i + 1))), manager.record refresh.now wall i source fetched)
  | .lists merge => (.inl (refresh.goTo (.sources merge)), manager.publishGroupLists merge.groupSets)
  | .sources merge => (.inl (refresh.goTo (.dot merge)), manager.setMergedSources merge.mergedSources)
  | .dot merge => (.inr (.fromSet merge.merged), manager.publishDot merge.dotMerged)

end Refresh

/-! What the lists should be. -/

/-- The enabled sources of one scope, with the domains of their rows. -/
def contributing (scope : BlocklistScope) (sources : List BlocklistSourceConfig) (status : List SourceStatus) :
    List (Text × TextSet) :=
  ((sources.zip status).filter fun row => row.1.enabled && row.1.scope == scope).map
    fun row => (row.1.name, row.2.cachedDomains)

def together (sets : List (Text × TextSet)) : TextSet := sets.foldl (fun all set => all.extend set.2) .empty

structure Published where
  groupLists : Text → Option Blocklist
  mergedSources : MergedSources
  dotList : Option Blocklist

/-- The lists of a source list and its caches: each group list is the one of the
last source of its name, the DoT list is made of all DoT-scoped sources. -/
def Published.expected (sources : List BlocklistSourceConfig) (status : List SourceStatus) : Published where
  groupLists := fun name =>
    ((contributing .groups sources status).reverse.find? fun set => toAsciiLowercase set.1 == name).map
      fun set => .fromSet set.2
  mergedSources := ⟨contributing .everyone sources status, contributing .dot sources status⟩
  dotList :=
    let all := together (contributing .dot sources status)
    if all.isEmpty then none else some (.fromSet all)

def BlocklistSourceManager.published (manager : BlocklistSourceManager) : Published :=
  ⟨manager.groupLists, manager.mergedSources, manager.dotList⟩

end DaygleDns.Policy
