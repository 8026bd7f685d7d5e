import DaygleDns.Policy.Blocklist
import Mathlib.Algebra.Order.Ring.Rat

/-! The AI scanner's verdicts and overrides, and the snapshots it publishes of them. -/
namespace DaygleDns.Ai

open Text Policy

inductive AiMode where
  | train | enforce
deriving DecidableEq

structure AiSettings where
  enabled : Bool
  mode : AiMode
  autoBlockCategories : List Text
  blockThreshold : Rat
deriving DecidableEq

def AiSettings.isAutoBlockCategory (cfg : AiSettings) (category : Text) : Bool :=
  cfg.autoBlockCategories.any fun c => eqIgnoreAsciiCase c category

inductive Channel where
  | content | threat
deriving DecidableEq

structure Verdict where
  domain : Text
  channel : Channel
  category : Text
  severity : Text
  status : Text
  confidence : Rat
  expiresAt : Int
deriving DecidableEq

structure OverrideRow where
  domain : Text
  action : Text
deriving DecidableEq

structure Relabel where
  domain : Text
  category : Text
deriving DecidableEq

/-- One verdict for each domain and channel. -/
structure VerdictTable where
  rows : List Verdict
  distinct : (rows.map fun v => (v.domain, v.channel)).Nodup

structure AiStore where
  verdicts : VerdictTable
  overrides : OrderedTable OverrideRow Text (·.domain)
  relabels : OrderedTable Relabel Text (·.domain)

structure ActiveBlock where
  domain : Text
  category : Text
  expiresAt : Int
deriving DecidableEq

structure ActiveCategory where
  domain : Text
  category : Text
  expiresAt : Int
deriving DecidableEq

abbrev BlockSnapshot := OrderedTable ActiveBlock Text (·.domain)

abbrev CategorySnapshot := OrderedTable ActiveCategory Text (·.domain)

/-- The domain and its parents, as the walks over them meet them. -/
def withParents (domain : Text) : List Text := domain :: parents domain

/-- An allow override on the domain or a parent exempts it. -/
def exempt (domain : Text) (overrides : TextSet) : Bool := (withParents domain).any overrides.contains

namespace AiStore

/-- The domains with an `allow` override. -/
def allowOverrides (store : AiStore) : TextSet :=
  TextSet.empty.putAll ((store.overrides.rows.filter fun o => o.action == "allow".toList).map (·.domain))

def vetoed (store : AiStore) (domain : Text) : Bool :=
  store.overrides.rows.any fun o => o.domain == domain && o.action == "allow".toList

def isFreshBlocked (store : AiStore) (now : Int) (threshold : Rat) (v : Verdict) : Bool :=
  v.channel == .threat && v.status == "classified".toList && v.severity != "disputed".toList &&
    decide (threshold ≤ v.confidence) && decide (now < v.expiresAt) && !store.vetoed v.domain

def freshBlocked (store : AiStore) (now : Int) (threshold : Rat) : List Verdict :=
  store.verdicts.rows.filter (store.isFreshBlocked now threshold)

def freshCategories (store : AiStore) (now : Int) : List Verdict :=
  store.verdicts.rows.filter fun v =>
    v.channel == .content && v.status == "classified".toList && v.category != [] && decide (now < v.expiresAt)

def blocksWith (store : AiStore) (cfg : AiSettings) (now : Int) (overrides : TextSet) : BlockSnapshot :=
  OrderedTable.empty.putAll
    (((store.freshBlocked now cfg.blockThreshold).filter fun v =>
      cfg.isAutoBlockCategory v.category && !exempt v.domain overrides).map fun v =>
        ⟨v.domain, v.category, v.expiresAt⟩)

def eligibleBlocks (store : AiStore) (cfg : AiSettings) (now : Int) : BlockSnapshot :=
  store.blocksWith cfg now store.allowOverrides

/-- `i64::MAX` -/
def never : Int := 2 ^ 63 - 1

def categoriesWith (store : AiStore) (now : Int) (overrides : TextSet) : CategorySnapshot :=
  let labelled : CategorySnapshot := OrderedTable.empty.putAll
    (((store.freshCategories now).filter fun v => !exempt v.domain overrides).map fun v =>
      ⟨v.domain, ((store.relabels.get v.domain).map (·.category)).getD v.category, v.expiresAt⟩)
  (store.relabels.rows.filter fun r => !exempt r.domain overrides).foldl
    (fun snapshot r => if snapshot.contains r.domain then snapshot else snapshot.put ⟨r.domain, r.category, never⟩)
    labelled

end AiStore

/-- What the policy plugin reads. -/
structure Published where
  exemptions : TextSet
  categories : CategorySnapshot
  blocks : BlockSnapshot

/-- The reads of the store that a refresh makes. -/
inductive SnapshotRead where
  | overrides | relabels | categories | blocks
deriving DecidableEq

/-- `refresh_snapshot`; `fails` tells which reads of the store fail, each of which leaves what
it was for as it was published before. -/
def refreshSnapshot (store : AiStore) (cfg : AiSettings) (now : Int) (fails : SnapshotRead → Bool)
    (published : Published) : Published :=
  if fails .overrides then published
  else
    let overrides := store.allowOverrides
    let categories :=
      if fails .relabels || fails .categories then published.categories else store.categoriesWith now overrides
    let blocks :=
      if cfg.mode = .enforce then
        if fails .blocks then published.blocks else store.blocksWith cfg now overrides
      else OrderedTable.empty
    ⟨overrides, categories, blocks⟩

end DaygleDns.Ai
