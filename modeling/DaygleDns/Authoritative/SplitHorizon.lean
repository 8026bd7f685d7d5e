import DaygleDns.Authoritative.Names
import DaygleDns.Canonical
import DaygleDns.Table
import Mathlib.Data.List.Lex
import Mathlib.Data.Prod.Lex

/-! Split-horizon entries: the table with its four operations, and the order in which the
entries of a domain are tried. What the networks and records of an entry are is a
value of `δ`, read from one of `ι` as it was typed. -/
namespace DaygleDns.Authoritative

open Text Canonical

structure SplitHorizonEntryInput (ι : Type) where
  domain : Text
  content : ι
  disabled : Bool

structure SplitHorizonEntry (δ : Type) where
  id : Uuid
  domain : Text
  content : δ
  disabled : Bool
  position : Int
  lastModifiedAt : Time
deriving DecidableEq

/-- The table `split_horizon_entries`. -/
abbrev SplitHorizonEntries (δ : Type) := Table (SplitHorizonEntry δ) SplitHorizonEntry.id

inductive MoveDirection where
  | up
  | down
deriving DecidableEq

inductive MoveResult where
  | moved
  | atBoundary
  | notFound
deriving DecidableEq

variable {ι δ : Type} (canonicalize : ι → Except DaygleError δ) (uuidText : Uuid → Text)

/-- The domain and the content of an entry that may be stored. -/
def checkedEntry (input : SplitHorizonEntryInput ι) : Except DaygleError (Text × δ) := do
  validateOwnerName (normalizeFqdn input.domain)
  let content ← canonicalize input.content
  pure (normalizeFqdn input.domain, content)

/-- `SELECT COALESCE(MAX(position), -1) + 1` of a domain. -/
def nextPosition (table : SplitHorizonEntries δ) (domain : Text) : Int :=
  (((table.rows.filter fun entry => entry.domain = domain).map SplitHorizonEntry.position).max?.getD (-1)) + 1

def createSplitHorizonEntry (table : SplitHorizonEntries δ) (input : SplitHorizonEntryInput ι) (now : Time) :
    Except DaygleError (SplitHorizonEntries δ) := do
  let (domain, content) ← checkedEntry canonicalize input
  pure (table.insert (fun id => ⟨id, domain, content, input.disabled, nextPosition table domain, now⟩) fun _ => rfl)

/-- The entry keeps its position, whatever its domain becomes. -/
def updateSplitHorizonEntry (table : SplitHorizonEntries δ) (id : Uuid) (input : SplitHorizonEntryInput ι) (now : Time) :
    Except DaygleError (Option (SplitHorizonEntry δ) × SplitHorizonEntries δ) := do
  let (domain, content) ← checkedEntry canonicalize input
  if (table.find? id).isNone then
    pure (none, table)
  else
    let table := table.update (fun entry => entry.id == id)
      (fun entry => { entry with domain, content, disabled := input.disabled, lastModifiedAt := now }) fun _ => rfl
    pure (table.find? id, table)

def deleteSplitHorizonEntry (table : SplitHorizonEntries δ) (id : Uuid) : Bool × SplitHorizonEntries δ :=
  ((table.find? id).isSome, table.delete fun entry => entry.id == id)

/-- `ORDER BY position, id` -/
def orderedRows (table : SplitHorizonEntries δ) (domain : Text) : List (SplitHorizonEntry δ) :=
  sortBy (fun entry => toLex (entry.position, uuidText entry.id))
    (table.rows.filter fun entry => entry.domain = domain)

def swapIndex (direction : MoveDirection) (idx : Nat) : Option Nat :=
  match direction with
  | .up => if idx = 0 then none else some (idx - 1)
  | .down => some (idx + 1)

/-- The entry to move, and the one that it changes places with. -/
def neighbours (table : SplitHorizonEntries δ) (id : Uuid) (direction : MoveDirection) :
    Except MoveResult (SplitHorizonEntry δ × SplitHorizonEntry δ) := do
  let some entry := table.find? id | throw .notFound
  let rows := orderedRows uuidText table entry.domain
  let some idx := rows.findIdx? fun row => row.id == id | throw .notFound
  let some swapIdx := swapIndex direction idx | throw .atBoundary
  match rows[idx]?, rows[swapIdx]? with
  | some row, some other => pure (row, other)
  | _, _ => throw .atBoundary

def setPosition (table : SplitHorizonEntries δ) (id : Uuid) (position : Int) : SplitHorizonEntries δ :=
  table.update (fun entry => entry.id == id) (fun entry => { entry with position }) fun _ => rfl

/-- `move_split_horizon_entry`; `fault` is a failure of its second `UPDATE`, which stands
outside of a transaction. -/
def moveSplitHorizonEntry (table : SplitHorizonEntries δ) (id : Uuid) (direction : MoveDirection)
    (fault : Option DaygleError) : Except DaygleError MoveResult × SplitHorizonEntries δ :=
  match neighbours uuidText table id direction with
  | .error result => (.ok result, table)
  | .ok (row, other) =>
      let table := setPosition table row.id other.position
      match fault with
      | some e => (.error e, table)
      | none => (.ok .moved, setPosition table other.id row.position)

/-! The index. -/

/-- `ORDER BY domain, position` -/
def listSplitHorizonEntries (table : SplitHorizonEntries δ) : List (SplitHorizonEntry δ) :=
  sortBy (fun entry => toLex (entry.domain, entry.position)) table.rows

/-- `SplitHorizonIndex::build`; `filled` tells which entries have addresses or records. -/
def SplitHorizonIndex.build (filled : δ → Bool) (entries : List (SplitHorizonEntry δ)) : List (SplitHorizonEntry δ) :=
  sortBy SplitHorizonEntry.position (entries.filter fun entry => !entry.disabled && filled entry.content)

/-- The entries that a lookup of the domain goes through. -/
def SplitHorizonIndex.entriesOf (index : List (SplitHorizonEntry δ)) (domain : Text) : List (SplitHorizonEntry δ) :=
  index.filter fun entry => normalizeFqdn entry.domain = domain

/-! The operations over time. -/

inductive SplitHorizonCall (ι : Type) where
  | create (input : SplitHorizonEntryInput ι) (now : Time)
  | update (id : Uuid) (input : SplitHorizonEntryInput ι) (now : Time)
  | delete (id : Uuid)
  | move (id : Uuid) (direction : MoveDirection) (fault : Option DaygleError)

/-- What a call leaves; a call that is refused leaves the table alone. -/
def splitHorizonStep (table : SplitHorizonEntries δ) : SplitHorizonCall ι → SplitHorizonEntries δ
  | .create input now => (createSplitHorizonEntry canonicalize table input now).toOption.getD table
  | .update id input now =>
      ((updateSplitHorizonEntry canonicalize table id input now).toOption.map Prod.snd).getD table
  | .delete id => (deleteSplitHorizonEntry table id).2
  | .move id direction fault => (moveSplitHorizonEntry uuidText table id direction fault).2

end DaygleDns.Authoritative
