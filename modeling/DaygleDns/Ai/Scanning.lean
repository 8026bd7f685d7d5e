import DaygleDns.Ai.Scanner

/-! Scan cycles, changes of the settings and of the overrides, and the refreshes that each of
them ends with, in any order. A refresh reads the settings before it waits for the lock. -/
namespace DaygleDns.Ai

open Text Policy

/-- How far a task has come. A cycle scans with the settings that it read at its start; what
has stored a change is about to read the settings and the clock; a refresh waits for the lock,
and holds it from its read of the overrides to its publication of the blocks. -/
inductive Task where
  | idle
  | scanning (cfg : AiSettings)
  | changed
  | ready (cfg : AiSettings) (now : Int)
  | publishing (cfg : AiSettings) (now : Int) (overrides : TextSet)
  | labelled (cfg : AiSettings) (now : Int) (overrides : TextSet)

/-- A refresh is under way, or to come. -/
def Task.refreshing : Task → Bool
  | .idle => false
  | .scanning _ => false
  | _ => true

/-- The task holds the lock. -/
def Task.locking : Task → Bool
  | .publishing .. => true
  | .labelled .. => true
  | _ => false

/-- The engine and its tasks. `basis` and `publishedAt` are the verdicts and the clock of the
last publication of blocks. -/
structure Engine where
  settings : AiSettings
  store : AiStore
  published : Published
  tasks : Nat → Task
  lock : Option Nat
  basis : VerdictTable
  publishedAt : Int

inductive Event where
  | startCycle (k : Nat)
  /-- The cycle re-queues expired verdicts or records the names that were queried. -/
  | harvest (k : Nat) (verdicts : VerdictTable)
  /-- It saves its verdicts and reads the clock. -/
  | saveVerdicts (k : Nat) (verdicts : VerdictTable) (now : Int)
  | failCycle (k : Nat)
  | changeSettings (k : Nat) (settings : AiSettings)
  | setAllowOverride (k : Nat) (domain : Text)
  | clearOverride (k : Nat) (domain : Text)
  | setCategoryOverride (k : Nat) (domain category : Text)
  | clearCategoryOverride (k : Nat) (domain : Text)
  /-- `refresh_snapshot_now` reads the settings and the clock. -/
  | capture (k : Nat) (now : Int)
  | lock (k : Nat) (fails : Bool)
  | label (k : Nat) (fails : Bool)
  | finish (k : Nat) (fails : Bool)

namespace Engine

def setTask (w : Engine) (k : Nat) (task : Task) : Engine := { w with tasks := Function.update w.tasks k task }

def setVerdicts (w : Engine) (verdicts : VerdictTable) : Engine := { w with store := { w.store with verdicts := verdicts } }

def setOverrides (w : Engine) (overrides : OrderedTable OverrideRow Text (·.domain)) : Engine :=
  { w with store := { w.store with overrides := overrides } }

def setRelabels (w : Engine) (relabels : OrderedTable Relabel Text (·.domain)) : Engine :=
  { w with store := { w.store with relabels := relabels } }

/-- The first part of `refresh_snapshot`: the lock and the exemptions. -/
def lockSnapshots (w : Engine) (k : Nat) (cfg : AiSettings) (now : Int) (fails : Bool) : Engine :=
  if fails then w.setTask k .idle
  else
    { w with
      published := { w.published with exemptions := w.store.allowOverrides }
      lock := some k }.setTask k (.publishing cfg now w.store.allowOverrides)

/-- The second: the categories. -/
def publishCategories (w : Engine) (k : Nat) (cfg : AiSettings) (now : Int) (overrides : TextSet) (fails : Bool) :
    Engine :=
  { w with
    published := { w.published with
      categories := if fails then w.published.categories else w.store.categoriesWith now overrides } }.setTask k
    (.labelled cfg now overrides)

/-- The last: the blocks. -/
def publishBlocks (w : Engine) (k : Nat) (cfg : AiSettings) (now : Int) (overrides : TextSet) (fails : Bool) :
    Engine :=
  if cfg.mode = .enforce ∧ fails = true then { w with lock := none }.setTask k .idle
  else
    { w with
      published := { w.published with
        blocks := if cfg.mode = AiMode.enforce then w.store.blocksWith cfg now overrides else OrderedTable.empty }
      lock := none
      basis := w.store.verdicts
      publishedAt := now }.setTask k .idle

def step (w : Engine) : Event → Engine
  | .startCycle k =>
      match w.tasks k with
      | .idle => w.setTask k (.scanning w.settings)
      | _ => w
  | .harvest k verdicts =>
      match w.tasks k with
      | .scanning _ => w.setVerdicts verdicts
      | _ => w
  | .saveVerdicts k verdicts now =>
      match w.tasks k with
      | .scanning cfg => (w.setVerdicts verdicts).setTask k (.ready cfg now)
      | _ => w
  | .failCycle k =>
      match w.tasks k with
      | .scanning _ => w.setTask k .idle
      | _ => w
  | .changeSettings k settings =>
      match w.tasks k with
      | .idle => { w with settings := settings }.setTask k .changed
      | _ => w
  | .setAllowOverride k domain =>
      match w.tasks k with
      | .idle => (w.setOverrides (w.store.overrides.put ⟨domain, "allow".toList⟩)).setTask k .changed
      | _ => w
  | .clearOverride k domain =>
      match w.tasks k with
      | .idle =>
          if w.store.overrides.contains domain then (w.setOverrides (w.store.overrides.erase domain)).setTask k .changed
          else w
      | _ => w
  | .setCategoryOverride k domain category =>
      match w.tasks k with
      | .idle => (w.setRelabels (w.store.relabels.put ⟨domain, toAsciiLowercase category⟩)).setTask k .changed
      | _ => w
  | .clearCategoryOverride k domain =>
      match w.tasks k with
      | .idle =>
          if w.store.relabels.contains domain then (w.setRelabels (w.store.relabels.erase domain)).setTask k .changed
          else w
      | _ => w
  | .capture k now =>
      match w.tasks k with
      | .changed => w.setTask k (.ready w.settings now)
      | _ => w
  | .lock k fails =>
      match w.lock, w.tasks k with
      | none, .ready cfg now => w.lockSnapshots k cfg now fails
      | _, _ => w
  | .label k fails =>
      match w.tasks k with
      | .publishing cfg now overrides => w.publishCategories k cfg now overrides fails
      | _ => w
  | .finish k fails =>
      match w.tasks k with
      | .labelled cfg now overrides => w.publishBlocks k cfg now overrides fails
      | _ => w

end Engine

end DaygleDns.Ai
