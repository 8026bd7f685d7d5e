import DaygleDns.OrderedTable
import DaygleDns.Text
import DaygleDns.Framing
import Mathlib.Data.Char
import Mathlib.Data.List.Lex
import Mathlib.Data.List.Sort
import Mathlib.Data.Prod.Lex

/-! The cache assistant of the resolver: a copy of the last good answer for a
name and type, served again when the upstream servers fail, and the failure
that came last. Instants are nanoseconds on the monotonic clock. -/
namespace DaygleDns.Recursive

open Text

def fromSecs (n : Nat) : Nat := n * 10 ^ 9

def asSecs (duration : Nat) : Nat := duration / 10 ^ 9

def MAX_TRACKED_ENTRIES : Nat := 10000

def STALE_TTL_SECS : UInt32 := 30

def EVICT_BATCH : Nat := MAX_TRACKED_ENTRIES / 10

def MAX_RESTORED_VALID_SECS : Nat := 7 * 24 * 60 * 60

/-- `ResponseCode::ServFail`. -/
def SERV_FAIL : UInt16 := 2

structure PrefetchConfig where
  enabled : Bool
  ttlFractionPct : Nat
  minQueries : Nat
  window : Nat
  serveStaleSecs : Nat
  maxCacheTtl : UInt32
  failureCacheTtl : UInt32
deriving DecidableEq, Repr

structure Query (N : Type) where
  name : N
  rtype : UInt16
deriving DecidableEq, Repr

/-- `data` is all of a record but its TTL. -/
structure Record (D : Type) where
  data : D
  ttl : UInt32
deriving DecidableEq, Repr

structure Lookup (N D : Type) where
  query : Query N
  answers : List (Record D)
  validUntil : Nat
deriving DecidableEq, Repr

structure CacheKey where
  name : Text
  rtype : UInt16
  /-- Which resolver the answers came from; 0 for the default one. -/
  scope : UInt16
deriving DecidableEq, Repr

namespace CacheKey

/-- The same name and type under another resolver's scope. -/
def scopedTo (key : CacheKey) (scope : UInt16) : CacheKey := { key with scope }

def rank (key : CacheKey) : Text ×ₗ Nat ×ₗ Nat := toLex (key.name, toLex (key.rtype.toNat, key.scope.toNat))

theorem rank_injective : Function.Injective rank := by
  intro first second h
  have hname := Prod.mk.inj (toLex.injective h)
  have hnumbers := Prod.mk.inj (toLex.injective hname.2)
  cases first
  cases second
  rw [CacheKey.mk.injEq]
  exact ⟨hname.1, UInt16.toNat_inj.mp hnumbers.1, UInt16.toNat_inj.mp hnumbers.2⟩

instance : LinearOrder CacheKey := LinearOrder.lift' rank rank_injective

end CacheKey

/-- A table by cache keys. -/
abbrev CacheMap (α : Type) := OrderedTable (CacheKey × α) CacheKey Prod.fst

/-- A stored copy of the last good answer for one key. -/
structure Snapshot (N D : Type) where
  query : Query N
  answers : List (Record D)
  validUntil : Nat
  fetchedAt : Nat
  failureUntil : Option Nat
  failureCode : Option UInt16
  failureSoa : Option (Record D)
  restored : Bool
deriving DecidableEq, Repr

/-- One entry of the snapshot file; its times are seconds of the wall clock. -/
structure PersistedEntry (N D : Type) where
  key : CacheKey
  query : Query N
  answers : List (Record D)
  validThroughSecs : Nat
  failureThroughSecs : Nat
  failureCode : Option UInt16
  failureSoa : Option (Record D)
deriving DecidableEq, Repr

/-- What the snapshot file does to an entry: its key and its name may be spelled
another way, all else is read as it was written. -/
structure Reload (N D : Type) where
  apply : PersistedEntry N D → PersistedEntry N D
  keeps : ∀ entry, apply entry = { entry with key := (apply entry).key, query := (apply entry).query }

def Reload.same : Reload N D := ⟨id, fun _ => rfl⟩

structure Popularity where
  count : Nat
  windowStart : Nat
deriving DecidableEq, Repr

structure CacheAssistant (N D : Type) where
  snapshots : CacheMap (Snapshot N D)
  popular : CacheMap Popularity
  inFlight : OrderedTable CacheKey CacheKey id
  config : PrefetchConfig

/-- The orders in which the hash maps of one call are gone through. -/
structure MapOrders (N D : Type) where
  snapshots : Shuffle (CacheKey × Snapshot N D)
  popular : Shuffle (CacheKey × Popularity)

variable {N D : Type}

def MapOrders.plain : MapOrders N D := ⟨.plain, .plain⟩

/-- A deadline in the past, for snapshots that must never look fresh. -/
def nowInThePast (now : Nat) : Nat := if fromSecs 1 ≤ now then now - fromSecs 1 else now

def staleAnswers (answers : List (Record D)) : List (Record D) :=
  answers.map fun r => { r with ttl := STALE_TTL_SECS }

def clampAnswerTtls (answers : List (Record D)) (cap : UInt32) : List (Record D) :=
  if cap = 0 then answers else answers.map fun r => if cap < r.ttl then { r with ttl := cap } else r

/-- Remove the `EVICT_BATCH` entries of the smallest rank. -/
def evictBatch {α ρ : Type} [LinearOrder ρ] (order : Shuffle (CacheKey × α)) (rank : α → ρ) (map : CacheMap α) :
    CacheMap α :=
  let count := min (max EVICT_BATCH 1) (max map.rows.length 1)
  let ranked := (order.shuffle map.rows).insertionSort fun first second => rank first.2 ≤ rank second.2
  map.eraseAll ((ranked.take count).map Prod.fst)

namespace CacheAssistant

def new (config : PrefetchConfig) : CacheAssistant N D := ⟨.empty, .empty, .empty, config⟩

def get (assistant : CacheAssistant N D) (key : CacheKey) : Option (Snapshot N D) :=
  (assistant.snapshots.get key).map Prod.snd

/-- The snapshots with room for one under `key`. -/
def makeRoom (order : Shuffle (CacheKey × Snapshot N D)) (snapshots : CacheMap (Snapshot N D)) (key : CacheKey) :
    CacheMap (Snapshot N D) :=
  if MAX_TRACKED_ENTRIES ≤ snapshots.rows.length && !snapshots.contains key then
    evictBatch order Snapshot.fetchedAt snapshots
  else snapshots

/-- Count a query in the sliding window; whether the name is popular in it. -/
def bumpPopularity (order : Shuffle (CacheKey × Popularity)) (now : Nat) (assistant : CacheAssistant N D)
    (key : CacheKey) : Bool × CacheAssistant N D :=
  let window := assistant.config.window
  let popular := assistant.popular
  let popular :=
    if MAX_TRACKED_ENTRIES ≤ popular.rows.length && !popular.contains key then
      let lively := popular.retain fun entry => now - entry.2.windowStart < window
      if MAX_TRACKED_ENTRIES ≤ lively.rows.length then
        evictBatch order (fun p => toLex (p.count, p.windowStart)) lively
      else lively
    else popular
  let entry := ((popular.get key).map Prod.snd).getD ⟨0, now⟩
  let entry := if window ≤ now - entry.windowStart then ⟨0, now⟩ else entry
  let entry := { entry with count := entry.count + 1 }
  (assistant.config.minQueries ≤ entry.count, { assistant with popular := popular.put (key, entry) })

def effectiveDeadline (config : PrefetchConfig) (now : Nat) (lookup : Lookup N D) : Nat :=
  if 0 < config.maxCacheTtl then now + min (lookup.validUntil - now) (fromSecs config.maxCacheTtl.toNat)
  else lookup.validUntil

/-- Record a successful lookup, and whether it is time to look the name up again
before it expires. Fractions of a TTL are exact. -/
def onSuccess (orders : MapOrders N D) (now : Nat) (assistant : CacheAssistant N D) (key : CacheKey)
    (lookup : Lookup N D) : Bool × CacheAssistant N D :=
  let config := assistant.config
  let deadline := effectiveDeadline config now lookup
  let snapshots := makeRoom orders.snapshots assistant.snapshots key
  let fullTtl :=
    match (snapshots.get key).map Prod.snd with
    | some prev =>
        if prev.validUntil = deadline ∧ now < deadline then deadline - prev.fetchedAt else deadline - now
    | none => deadline - now
  -- The snapshot before goes, and a failure that was in effect with it.
  let snapshots := snapshots.put (key,
    { query := lookup.query
      answers := clampAnswerTtls lookup.answers config.maxCacheTtl
      validUntil := deadline
      fetchedAt := now
      failureUntil := none
      failureCode := none
      failureSoa := none
      restored := false })
  let (popular, assistant) := bumpPopularity orders.popular now { assistant with snapshots } key
  (config.enabled && popular && (deadline - now) * 100 < fullTtl * config.ttlFractionPct, assistant)

/-- The code of a cached failure that has not expired. -/
def cachedFailureCode (now : Nat) (assistant : CacheAssistant N D) (key : CacheKey) : Option UInt16 := do
  if assistant.config.failureCacheTtl = 0 then none
  else
    let snapshot ← assistant.get key
    let until_ ← snapshot.failureUntil
    if until_ ≤ now then none else some (snapshot.failureCode.getD SERV_FAIL)

/-- After a failure upstream, the answer that expired at most `serveStaleSecs` ago. -/
def staleAnswer (now : Nat) (assistant : CacheAssistant N D) (key : CacheKey) : Option (Lookup N D) := do
  if assistant.config.serveStaleSecs = 0 then none
  else
    let snapshot ← assistant.get key
    let maxAge := fromSecs assistant.config.serveStaleSecs
    let expiredFor := now - snapshot.validUntil
    if now ≤ snapshot.validUntil ∨ maxAge < expiredFor then none
    else
      some
        { query := snapshot.query
          answers := staleAnswers snapshot.answers
          validUntil := now + fromSecs STALE_TTL_SECS.toNat }

/-- Record a failure for `key`, under a snapshot without answers if there is none. -/
def recordFailure (order : Shuffle (CacheKey × Snapshot N D)) (now : Nat) (assistant : CacheAssistant N D)
    (key : CacheKey) (query : Query N) (code : UInt16) (until_ : Nat) : CacheAssistant N D :=
  let snapshots := makeRoom order assistant.snapshots key
  let snapshot := ((snapshots.get key).map Prod.snd).getD
    { query
      answers := []
      validUntil := nowInThePast now
      fetchedAt := now
      failureUntil := none
      failureCode := none
      failureSoa := none
      restored := false }
  { assistant with
    snapshots := snapshots.put (key,
      { snapshot with failureUntil := some until_, failureCode := some code, failureSoa := none }) }

/-- Keep the SOA of the negative answer just recorded. -/
def setFailureSoa (assistant : CacheAssistant N D) (key : CacheKey) (soa : Record D) : CacheAssistant N D :=
  match assistant.get key with
  | none => assistant
  | some snapshot =>
      { assistant with snapshots := assistant.snapshots.put (key, { snapshot with failureSoa := some soa }) }

/-- The SOA of a cached failure, its TTL cut to what is left of the failure. -/
def cachedFailureSoa (now : Nat) (assistant : CacheAssistant N D) (key : CacheKey) : Option (Record D) := do
  let snapshot ← assistant.get key
  let until_ ← snapshot.failureUntil
  if until_ < now then none
  else
    let soa ← snapshot.failureSoa
    let left := asSecs (until_ - now)
    return { soa with ttl := min soa.ttl (if left < 2 ^ 32 then UInt32.ofNat left else UInt32.ofNat (2 ^ 32 - 1)) }

/-- Mark a prefetch as started; `false` means that one is already running. -/
def tryBeginPrefetch (assistant : CacheAssistant N D) (key : CacheKey) : Bool × CacheAssistant N D :=
  (!assistant.inFlight.contains key, { assistant with inFlight := assistant.inFlight.put key })

def endPrefetch (assistant : CacheAssistant N D) (key : CacheKey) : CacheAssistant N D :=
  { assistant with inFlight := assistant.inFlight.erase key }

def clear (assistant : CacheAssistant N D) : CacheAssistant N D := .new assistant.config

/-- Drop what is tracked for a name, for one record type or all, in every scope. -/
def forget (assistant : CacheAssistant N D) (name : Text) (rtype : Option UInt16) : CacheAssistant N D :=
  let hit (key : CacheKey) : Bool := key.name = name && rtype.all (· = key.rtype)
  { assistant with
    snapshots := assistant.snapshots.retain fun entry => !hit entry.1
    popular := assistant.popular.retain fun entry => !hit entry.1 }

/-- The end of a time as seconds of the wall clock, which reads `unixNow`. -/
def through (now : Nat) (unixNow : Nat) (deadline : Nat) : Nat := unixNow + asSecs (deadline - now)

def exportEntry (now : Nat) (unixNow : Nat) (key : CacheKey) (snapshot : Snapshot N D) : PersistedEntry N D where
  key := key
  query := snapshot.query
  answers := snapshot.answers
  validThroughSecs := through now unixNow snapshot.validUntil
  failureThroughSecs :=
    match snapshot.failureUntil with
    | some until_ => if now ≤ until_ then through now unixNow until_ else 0
    | none => 0
  failureCode := snapshot.failureCode
  failureSoa := snapshot.failureSoa

/-- Every stored entry, expired ones too. -/
def exportPersisted (order : Shuffle (CacheKey × Snapshot N D)) (now : Nat) (unixNow : Nat)
    (assistant : CacheAssistant N D) : List (PersistedEntry N D) :=
  (order.shuffle assistant.snapshots.rows).map fun entry => exportEntry now unixNow entry.1 entry.2

/-- What becomes of an entry of the snapshot file; nothing if it is spent. -/
def restoreEntry (config : PrefetchConfig) (now : Nat) (nowWall : Nat) (entry : PersistedEntry N D) :
    Option (Snapshot N D) :=
  let validLeft := entry.validThroughSecs - nowWall
  let expiredFor := nowWall - entry.validThroughSecs
  let failureLeft := entry.failureThroughSecs - nowWall
  let hasAnswers := !entry.answers.isEmpty
  let failureKeep := 0 < failureLeft && 0 < config.failureCacheTtl
  if !hasAnswers && !failureKeep then none
  else if hasAnswers && validLeft = 0 && config.serveStaleSecs < expiredFor && !failureKeep then none
  else if MAX_RESTORED_VALID_SECS < validLeft then none
  else
    let cappedValid := if 0 < config.maxCacheTtl then min validLeft config.maxCacheTtl.toNat else validLeft
    some
      { query := entry.query
        answers := entry.answers
        validUntil := if 0 < cappedValid then now + fromSecs cappedValid else nowInThePast now
        fetchedAt := now
        failureUntil :=
          if failureKeep then some (now + fromSecs (min failureLeft config.failureCacheTtl.toNat)) else none
        failureCode := entry.failureCode
        failureSoa := entry.failureSoa
        restored := true }

/-- One round of `importPersisted`. -/
def importEntry (order : Shuffle (CacheKey × Snapshot N D)) (now : Nat) (nowWall : Nat)
    (assistant : CacheAssistant N D) (entry : PersistedEntry N D) : CacheAssistant N D :=
  match restoreEntry assistant.config now nowWall entry with
  | none => assistant
  | some snapshot =>
      { assistant with snapshots := (makeRoom order assistant.snapshots entry.key).put (entry.key, snapshot) }

/-- Restore the entries of a snapshot file, and how many were imported. -/
def importPersisted (order : Shuffle (CacheKey × Snapshot N D)) (now : Nat) (nowWall : Nat)
    (assistant : CacheAssistant N D) (entries : List (PersistedEntry N D)) : Nat × CacheAssistant N D :=
  ((entries.filter fun entry => (restoreEntry assistant.config now nowWall entry).isSome).length,
    entries.foldl (importEntry order now nowWall) assistant)

/-- A restored answer that is still valid, its TTLs cut to what is left. -/
def freshAnswer (now : Nat) (assistant : CacheAssistant N D) (key : CacheKey) : Option (Lookup N D) := do
  let snapshot ← assistant.get key
  if !snapshot.restored then none
  else if snapshot.answers.isEmpty then none
  else if snapshot.validUntil < now then none
  else
    let left := asSecs (snapshot.validUntil - now)
    let ttl := if left < 2 ^ 32 then UInt32.ofNat left else UInt32.ofNat (2 ^ 32 - 1)
    some
      { query := snapshot.query
        answers := snapshot.answers.map fun r => { r with ttl }
        validUntil := snapshot.validUntil }

end CacheAssistant

/-! Names and records as Hickory reads, prints and encodes them, and the keys
that the cache assistant makes of names. -/

open Framing Text

structure HickoryNames (N : Type) where
  /-- `Name::from_utf8` -/
  fromUtf8 : Text → Except Text N
  /-- `Display` -/
  toText : N → Text
  /-- `set_fqdn(true)` -/
  qualify : N → N
  /-- The label under the root, as `from_utf8_lossy` reads it. -/
  topLevel : N → Option Text

structure HickoryWire (N D : Type) extends HickoryNames N where
  emitName : N → Option Bytes
  readName : Bytes → Except Text N
  emitRecord : Record D → Option Bytes
  readRecord : Bytes → Except Text (Record D)
  /-- What a `BinDecoder` says when its bytes have come to an end. -/
  shortRead : Text

/-- The text of a name ends in a dot. -/
def FullyQualified (s : Text) : Prop := s.getLast? = some '.'

instance (s : Text) : Decidable (FullyQualified s) := inferInstanceAs (Decidable (s.getLast? = some '.'))

/-- A printed name is read back, and has a trailing dot exactly when it is fully
qualified. -/
structure HickoryNames.Lawful {N : Type} (names : HickoryNames N) : Prop where
  fromUtf8_toText : ∀ name, names.fromUtf8 (names.toText name) = .ok name
  toText_qualify : ∀ name, names.toText (names.qualify name) =
    if FullyQualified (names.toText name) then names.toText name else names.toText name ++ ['.']

/-- Every name and record has a form of at most 65535 bytes, which is read back;
a name that is read is fully qualified. -/
structure HickoryWire.Lawful (wire : HickoryWire N D) : Prop extends wire.toHickoryNames.Lawful where
  name : ∀ name, ∃ body, wire.emitName name = some body ∧ body ≠ [] ∧ body.length < 2 ^ 16 ∧
    wire.readName body = .ok (wire.qualify name)
  record : ∀ record, ∃ body, wire.emitRecord record = some body ∧ body ≠ [] ∧ body.length < 2 ^ 16 ∧
    wire.readRecord body = .ok record

/-- Key for a name and type. -/
def cacheKey (names : HickoryNames N) (name : N) (rtype : UInt16) : CacheKey :=
  ⟨toAsciiLowercase (names.toText name), rtype, 0⟩

end DaygleDns.Recursive
