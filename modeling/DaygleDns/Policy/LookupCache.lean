import DaygleDns.KeyedMap

/-! A cache of slow lookups that queries wait for: a lookup runs as its own task, and the queries for
its key meanwhile wait for that one. -/
namespace DaygleDns.Policy

/-- A running lookup, by its channel; or a result, until an instant. -/
inductive CacheEntry (V : Type) where
  | pending (channel : Nat)
  | known (value : V) (expiry : Nat)
deriving DecidableEq, Repr

namespace CacheEntry

variable {V : Type}

def fresh (now : Nat) : CacheEntry V → Bool
  | .pending _ => false
  | .known _ expiry => now < expiry

def value : CacheEntry V → Option V
  | .pending _ => none
  | .known value _ => some value

def isPending (channel : Nat) : CacheEntry V → Bool
  | .pending running => running == channel
  | .known .. => false

end CacheEntry

structure LookupCache (K V : Type) where
  entries : KeyedMap K (CacheEntry V)
  cap : Nat

/-- What a query finds under its lock. -/
inductive Found (V : Type) where
  | value (value : V)
  /-- A lookup that is running. -/
  | joins (channel : Nat)
  /-- It starts a lookup. -/
  | starts
deriving DecidableEq, Repr

namespace LookupCache

variable {K V : Type} [DecidableEq K]

def new (cap : Nat) : LookupCache K V := ⟨∅, cap⟩

/-- At capacity only the results that have not expired are kept, and none if they still fill the cache. -/
def evict (cache : LookupCache K V) (now : Nat) : KeyedMap K (CacheEntry V) :=
  if cache.cap ≤ cache.entries.size then
    let kept := cache.entries.retain fun _ entry => entry.fresh now
    if cache.cap ≤ kept.size then ∅ else kept
  else cache.entries

def find (cache : LookupCache K V) (key : K) (now : Nat) : Found V :=
  match cache.entries.lookup key with
  | some (.known value expiry) => if now < expiry then .value value else .starts
  | some (.pending running) => .joins running
  | none => .starts

/-- A lookup begins, which reports on `channel`. -/
def start (cache : LookupCache K V) (key : K) (now channel : Nat) : LookupCache K V :=
  { cache with entries := (cache.evict now).insert key (.pending channel) }

/-- The lookup for `key` is over. -/
def record (cache : LookupCache K V) (key : K) (value : V) (expiry : Nat) : LookupCache K V :=
  { cache with entries := cache.entries.insert key (.known value expiry) }

/-- The end of `get`: a lookup that is over without a result has left its placeholder. -/
def reread (cache : LookupCache K V) (key : K) (channel : Nat) (finished : Bool) : LookupCache K V × Option V :=
  let entries :=
    if finished && (cache.entries.lookup key).any (·.isPending channel) then cache.entries.erase key else cache.entries
  ({ cache with entries }, (entries.lookup key).bind CacheEntry.value)

end LookupCache

/-! The calls of `get` and the lookups, each with its own position. -/

inductive LookupState where
  | running
  /-- Its result is in the cache, and its sender not yet dropped. -/
  | recorded
  | closed
deriving DecidableEq, Repr

/-- A call that waits. -/
structure WaitingCall (K : Type) where
  key : K
  channel : Nat
  /-- Its wait was over while the sender was there. -/
  timedOut : Bool
deriving DecidableEq, Repr

structure LookupService (K V : Type) where
  cache : LookupCache K V
  nextChannel : Nat
  lookups : KeyedMap Nat (K × LookupState)
  calls : KeyedMap Nat (WaitingCall K)

inductive LookupEvent (K V : Type) where
  | get (call : Nat) (key : K) (now : Nat)
  | record (channel : Nat) (value : V) (expiry : Nat)
  /-- The task is over, and its sender dropped. -/
  | close (channel : Nat)
  | timeOut (call : Nat)
  /-- The call goes on behind its wait and returns. -/
  | reread (call : Nat)
deriving DecidableEq, Repr

namespace LookupService

variable {K V : Type} [DecidableEq K]

def new (cap : Nat) : LookupService K V := ⟨.new cap, 0, ∅, ∅⟩

def isClosed (service : LookupService K V) (channel : Nat) : Bool :=
  (service.lookups.lookup channel).any fun lookup => lookup.2 == .closed

/-- The wait of the call is over. -/
def resumes (service : LookupService K V) (call : WaitingCall K) : Bool := call.timedOut || service.isClosed call.channel

/-- An event that is not possible changes nothing. -/
def step (service : LookupService K V) : LookupEvent K V → LookupService K V
  | .get call key now =>
      if (service.calls.lookup call).isSome then service
      else match service.cache.find key now with
        | .value _ => service
        | .joins channel => { service with calls := service.calls.insert call ⟨key, channel, false⟩ }
        | .starts =>
            { cache := service.cache.start key now service.nextChannel
              nextChannel := service.nextChannel + 1
              lookups := service.lookups.insert service.nextChannel (key, .running)
              calls := service.calls.insert call ⟨key, service.nextChannel, false⟩ }
  | .record channel value expiry =>
      match service.lookups.lookup channel with
      | some (key, .running) =>
          { service with
            cache := service.cache.record key value expiry
            lookups := service.lookups.insert channel (key, .recorded) }
      | _ => service
  | .close channel =>
      match service.lookups.lookup channel with
      | some (key, _) => { service with lookups := service.lookups.insert channel (key, .closed) }
      | none => service
  | .timeOut call =>
      match service.calls.lookup call with
      | some waiting =>
          if service.isClosed waiting.channel then service
          else { service with calls := service.calls.insert call { waiting with timedOut := true } }
      | none => service
  | .reread call =>
      match service.calls.lookup call with
      | some waiting =>
          if service.resumes waiting then
            { service with
              cache := (service.cache.reread waiting.key waiting.channel (!waiting.timedOut)).1
              calls := service.calls.erase call }
          else service
      | none => service

/-- What a call returns, where the event lets one return. -/
def returns (service : LookupService K V) : LookupEvent K V → Option (Option V)
  | .get call key now =>
      if (service.calls.lookup call).isSome then none
      else match service.cache.find key now with
        | .value value => some (some value)
        | _ => none
  | .reread call =>
      match service.calls.lookup call with
      | some waiting =>
          if service.resumes waiting then
            some (service.cache.reread waiting.key waiting.channel (!waiting.timedOut)).2
          else none
      | none => none
  | _ => none

end LookupService

end DaygleDns.Policy
