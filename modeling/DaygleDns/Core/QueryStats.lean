import DaygleDns.KeyedMap
import DaygleDns.Canonical
import DaygleDns.Text
import Mathlib.Data.List.Lex
import Mathlib.Data.Prod.Lex

/-! The statistics of the dashboard: counters of the queries of each minute, and how often
each client and each name was seen. The clock reads seconds since the epoch, before it too. -/
namespace DaygleDns.Core

open Canonical

/-- 24 h of one-minute buckets. -/
def MAX_BUCKETS : Nat := 1440

def MAX_TOP_ENTRIES : Nat := 5000

def TOP_KEEP : Nat := 2000

inductive Outcome where
  | authoritative
  | recursive
  | splitHorizon
  | blocked
  | rateLimited
  | error
deriving DecidableEq, Repr

structure Bucket where
  minute : Nat
  queries : Nat
  authoritative : Nat
  recursive : Nat
  splitHorizon : Nat
  blocked : Nat
  rateLimited : Nat
  errors : Nat
deriving DecidableEq, Repr

def Bucket.new (minute : Nat) : Bucket := ⟨minute, 0, 0, 0, 0, 0, 0, 0⟩

def Bucket.count (bucket : Bucket) (outcome : Outcome) : Bucket :=
  let bucket := { bucket with queries := bucket.queries + 1 }
  match outcome with
  | .authoritative => { bucket with authoritative := bucket.authoritative + 1 }
  | .recursive => { bucket with recursive := bucket.recursive + 1 }
  | .splitHorizon => { bucket with splitHorizon := bucket.splitHorizon + 1 }
  | .blocked => { bucket with blocked := bucket.blocked + 1 }
  | .rateLimited => { bucket with rateLimited := bucket.rateLimited + 1 }
  | .error => { bucket with errors := bucket.errors + 1 }

structure SeriesPoint where
  t : Nat
  queries : Nat
  authoritative : Nat
  recursive : Nat
  blocked : Nat
  errors : Nat
  rateLimited : Nat
deriving DecidableEq, Repr

structure TopEntry where
  key : Text
  count : Nat
deriving DecidableEq, Repr

structure QueryStats where
  buckets : List Bucket
  clients : KeyedMap Text Nat
  domains : KeyedMap Text Nat
  blockedDomains : KeyedMap Text Nat

def epochMinutes (clock : Int) : Nat := clock.toNat / 60

/-- The rows of a table, those that were seen most often first. -/
def topRows (map : KeyedMap Text Nat) : List TopEntry :=
  sortBy (fun entry => toLex (OrderDual.toDual entry.count, entry.key))
    (map.entries.map fun entry => ⟨entry.1, entry.2⟩)

/-- Keep the `TOP_KEEP` keys that were seen most often. -/
def prune (map : KeyedMap Text Nat) : KeyedMap Text Nat :=
  ((topRows map).take TOP_KEEP).foldl (fun map row => map.insert row.key row.count) ∅

def bump (map : KeyedMap Text Nat) (key : Text) : KeyedMap Text Nat :=
  match map.lookup key with
  | some count => map.insert key (count + 1)
  | none =>
      let map := if MAX_TOP_ENTRIES ≤ map.size then prune map else map
      map.insert key 1

theorem size_prune_le (map : KeyedMap Text Nat) : (prune map).size ≤ TOP_KEEP := by
  have hinsert : ∀ (rows : List TopEntry) (start : KeyedMap Text Nat),
      KeyedMap.size (rows.foldl (fun map row => map.insert row.key row.count) start) ≤ start.size + rows.length := by
    intro rows
    induction rows with
    | nil => exact fun start => Nat.le_refl _
    | cons row rows ih =>
      intro start
      have hrest := ih (start.insert row.key row.count)
      have hrow := start.size_insert_le row.key row.count
      simp only [List.foldl_cons, List.length_cons]
      omega
  have hall := hinsert ((topRows map).take TOP_KEEP) ∅
  have hlength := (topRows map).length_take_le TOP_KEEP
  rw [KeyedMap.size_empty] at hall
  unfold prune
  omega

/-- A table of the dashboard never has more keys than it may. -/
theorem size_bump_le {map : KeyedMap Text Nat} (h : map.size ≤ MAX_TOP_ENTRIES) (key : Text) :
    (bump map key).size ≤ MAX_TOP_ENTRIES := by
  unfold bump
  split
  next count hcount =>
    have hsame := KeyedMap.size_insert_of_mem (by rw [hcount]; rfl) (count + 1)
    rw [hsame]
    exact h
  next =>
    have hprune := size_prune_le map
    split
    · have hinsert := (prune map).size_insert_le key 1
      unfold TOP_KEEP at hprune
      apply hinsert.trans
      unfold MAX_TOP_ENTRIES
      omega
    · apply (map.size_insert_le key 1).trans
      omega

def top (map : KeyedMap Text Nat) (n : Nat) : List TopEntry := (topRows map).take n

namespace QueryStats

def new : QueryStats := ⟨[], ∅, ∅, ∅⟩

/-- Count an outcome in the bucket of the minute, which is not before the last one. -/
def recordMinute (buckets : List Bucket) (nowMin : Nat) (outcome : Outcome) : List Bucket :=
  let nowMin := max nowMin ((buckets.getLast?.map Bucket.minute).getD nowMin)
  let buckets :=
    if buckets.getLast?.any fun bucket => bucket.minute = nowMin then buckets
    else
      let buckets := buckets ++ [Bucket.new nowMin]
      buckets.drop (buckets.length - MAX_BUCKETS)
  buckets.modifyLast fun bucket => bucket.count outcome

def record (stats : QueryStats) (clock : Int) (client qname : Text) (outcome : Outcome) : QueryStats where
  buckets := recordMinute stats.buckets (epochMinutes clock) outcome
  clients := bump stats.clients client
  domains := bump stats.domains qname
  blockedDomains := if outcome = .blocked then bump stats.blockedDomains qname else stats.blockedDomains

def seriesWindow (windowMinutes : UInt32) : Nat := min (max windowMinutes.toNat 1) MAX_BUCKETS

/-- The last minute of a series, which is that of the last bucket if the clock is behind it. -/
def seriesEnd (stats : QueryStats) (clock : Int) : Nat :=
  max (epochMinutes clock) ((stats.buckets.getLast?.map Bucket.minute).getD 0)

def seriesStart (stats : QueryStats) (clock : Int) (windowMinutes : UInt32) : Nat :=
  stats.seriesEnd clock - (seriesWindow windowMinutes - 1)

def point (minute : Nat) (bucket : Option Bucket) : SeriesPoint where
  t := minute * 60
  queries := (bucket.map Bucket.queries).getD 0
  authoritative := (bucket.map Bucket.authoritative).getD 0
  recursive := (bucket.map Bucket.recursive).getD 0
  blocked := (bucket.map Bucket.blocked).getD 0
  errors := (bucket.map Bucket.errors).getD 0
  rateLimited := (bucket.map Bucket.rateLimited).getD 0

/-- The last bucket of a minute. -/
def byMinute (buckets : List Bucket) (minute : Nat) : Option Bucket :=
  buckets.reverse.find? fun bucket => bucket.minute = minute

def series (stats : QueryStats) (clock : Int) (windowMinutes : UInt32) : List SeriesPoint :=
  let first := stats.seriesStart clock windowMinutes
  (List.range' first (stats.seriesEnd clock + 1 - first)).map fun minute =>
    point minute (byMinute stats.buckets minute)

end QueryStats

end DaygleDns.Core
