import DaygleDns.AddressText
import DaygleDns.Framing
import DaygleDns.KeyedMap

/-! Safe Browsing checks: hash prefixes that are kept locally, and two caches of what the server said
about the full hashes. -/
namespace DaygleDns.Policy

open Framing Text

/-- `sha2`, `base64`, and the seconds of `str::parse::<f64>`, in nanoseconds, where they are finite and
not negative. -/
structure SafeBrowsingCodecs where
  sha256 : Text → Bytes
  decode : Text → Option Bytes
  seconds : Text → Option Nat

def cacheCap : Nat := 50000

/-- The host and up to four parent domains, of its last five labels. -/
def expressions (host : Text) : List Text :=
  let host := trimEndMatches '.' host
  if (readIpAddr host).isSome then [host ++ ['/']]
  else
    let labels := host.splitOn '.'
    let start := labels.length - 5
    let parents := (List.range' start (labels.length - 1 - start)).map fun i => ['.'].intercalate (labels.drop i)
    ((host :: parents).map (· ++ ['/'])).eraseDups

/-- `threat.hash`, `threatType` and `cacheDuration` of a match, where they are strings. -/
structure ThreatMatch where
  hash : Option Text
  threatType : Option Text
  cacheDuration : Option Text
deriving DecidableEq, Repr

structure HashResponse where
  hits : List ThreatMatch
  negativeCacheDuration : Option Text
deriving DecidableEq, Repr

/-- A match whose hash is one. -/
structure Threat where
  hash : Bytes
  type : Text
  ttl : Nat
deriving DecidableEq, Repr

namespace SafeBrowsingCodecs

variable (codecs : SafeBrowsingCodecs)

def parseDuration (value : Option Text) : Option Nat := do
  let secs ← stripSuffix ['s'] (← value)
  codecs.seconds secs

def readMatch (hit : ThreatMatch) : Option Threat := do
  let hash ← codecs.decode (← hit.hash)
  if hash.length = 32 then
    some ⟨hash, hit.threatType.getD "MALWARE".toList, (codecs.parseDuration hit.cacheDuration).getD 0⟩
  else none

def threats (response : HashResponse) : List Threat := response.hits.filterMap codecs.readMatch

def negativeTtl (response : HashResponse) : Nat := (codecs.parseDuration response.negativeCacheDuration).getD 0

end SafeBrowsingCodecs

abbrev FullCache := KeyedMap Bytes (Text × Nat)

/-- A prefix known to match no threat, until `expiry`. `listed` is not kept by the code: the hashes that
the response behind the entry listed. -/
structure NegativeEntry where
  expiry : Nat
  listed : List Bytes
deriving DecidableEq, Repr

/-- Where a check is. -/
inductive CheckStage where
  /-- Before the full hashes are looked up. -/
  | started
  /-- None of its hashes is cached as a threat. -/
  | passed
  | matched (prefixes : List Bytes)
  | asking (prefixes : List Bytes)
  | answered (prefixes : List Bytes) (response : HashResponse) (now : Nat)
  | recorded (prefixes : List Bytes) (response : HashResponse) (now : Nat) (found : Option Text)
deriving DecidableEq, Repr

structure RunningCheck where
  hashes : List Bytes
  now : Nat
  stage : CheckStage
deriving DecidableEq, Repr

/-- How far `reset` is. -/
inductive ResetStage where
  | idle
  | databaseCleared
  | fullCleared
deriving DecidableEq, Repr

structure SafeBrowsing where
  clock : Nat
  /-- The update loop runs. -/
  running : Bool
  /-- Every list's prefixes, by length. -/
  index : List (Nat × List Bytes)
  full : FullCache
  negative : KeyedMap Bytes NegativeEntry
  reset : ResetStage
  checks : KeyedMap Nat RunningCheck

inductive SafeBrowsingEvent where
  | tick (elapsed : Nat)
  | arrive (check : Nat) (qname key : Text)
  | readFull (check : Nat)
  | readIndex (check : Nat)
  | readNegative (check : Nat)
  /-- The request fails, or times out. -/
  | fail (check : Nat)
  | respond (check : Nat) (response : HashResponse)
  /-- The matches go to the cache of full hashes. -/
  | record (check : Nat)
  /-- The prefixes go to the negative cache, and the check returns. -/
  | settle (check : Nat)
  | update (index : List (Nat × List Bytes))
  | resetDatabase
  | resetFull
  | resetNegative
deriving DecidableEq, Repr

/-- The cached threat of the first hash that has one. -/
def cachedThreat (full : FullCache) (hashes : List Bytes) (now : Nat) : Option Text :=
  hashes.findSome? fun hash => ((full.lookup hash).filter fun entry => now < entry.2).map Prod.fst

/-- The prefixes of the hashes that are in a list, each one once. -/
def matchingPrefixes (index : List (Nat × List Bytes)) (hashes : List Bytes) : List Bytes :=
  (hashes.flatMap fun hash => (index.map fun set => (hash.take (min set.1 32), set.2)).filterMap fun (start, set) =>
    if set.contains start then some start else none).eraseDups

def toAsk (negative : KeyedMap Bytes NegativeEntry) (prefixes : List Bytes) (now : Nat) : List Bytes :=
  prefixes.filter fun start => (negative.lookup start).all fun entry => entry.expiry ≤ now

def recordThreat (now : Nat) (full : FullCache) (threat : Threat) : FullCache :=
  full.insert threat.hash (threat.type, now + threat.ttl)

def recordThreats (full : FullCache) (threats : List Threat) (now : Nat) : FullCache :=
  let full := if cacheCap ≤ full.size then full.retain fun _ entry => now < entry.2 else full
  threats.foldl (recordThreat now) full

/-- The type of the first threat that is one of the check's hashes. -/
def foundThreat (hashes : List Bytes) (threats : List Threat) : Option Text :=
  (threats.find? fun threat => hashes.contains threat.hash).map Threat.type

def recordPrefixes (negative : KeyedMap Bytes NegativeEntry) (prefixes : List Bytes) (now : Nat) (entry : NegativeEntry) :
    KeyedMap Bytes NegativeEntry :=
  let negative := if cacheCap ≤ negative.size then negative.retain fun _ old => now < old.expiry else negative
  prefixes.foldl (fun negative start => negative.insert start entry) negative

namespace SafeBrowsing

def new : SafeBrowsing := ⟨0, false, [], ∅, ∅, .idle, ∅⟩

variable (codecs : SafeBrowsingCodecs) (service : SafeBrowsing)

def track (id : Nat) (check : RunningCheck) : SafeBrowsing := { service with checks := service.checks.insert id check }

def finish (id : Nat) : SafeBrowsing := { service with checks := service.checks.erase id }

/-- An event that is not possible changes nothing. -/
def step : SafeBrowsingEvent → SafeBrowsing
  | .tick elapsed => { service with clock := service.clock + elapsed }
  | .arrive id qname key =>
      if (service.checks.lookup id).isSome then service
      else if key.isEmpty then { service with running := true }
      else
        { service with
          running := true
          checks := service.checks.insert id ⟨(expressions qname).map codecs.sha256, service.clock, .started⟩ }
  | .readFull id =>
      match service.checks.lookup id with
      | some ⟨hashes, now, .started⟩ =>
          if (cachedThreat service.full hashes now).isSome then service.finish id
          else service.track id ⟨hashes, now, .passed⟩
      | _ => service
  | .readIndex id =>
      match service.checks.lookup id with
      | some ⟨hashes, now, .passed⟩ =>
          service.track id ⟨hashes, now, .matched (matchingPrefixes service.index hashes)⟩
      | _ => service
  | .readNegative id =>
      match service.checks.lookup id with
      | some ⟨hashes, now, .matched prefixes⟩ =>
          let asked := toAsk service.negative prefixes now
          if asked.isEmpty then service.finish id
          else service.track id ⟨hashes, now, .asking asked⟩
      | _ => service
  | .fail id =>
      match service.checks.lookup id with
      | some ⟨_, _, .asking _⟩ => service.finish id
      | _ => service
  | .respond id response =>
      match service.checks.lookup id with
      | some ⟨hashes, now, .asking prefixes⟩ =>
          service.track id ⟨hashes, now, .answered prefixes response service.clock⟩
      | _ => service
  | .record id =>
      match service.checks.lookup id with
      | some ⟨hashes, started, .answered prefixes response now⟩ =>
          { service with
            full := recordThreats service.full (codecs.threats response) now
            checks := service.checks.insert id
              ⟨hashes, started, .recorded prefixes response now (foundThreat hashes (codecs.threats response))⟩ }
      | _ => service
  | .settle id =>
      match service.checks.lookup id with
      | some ⟨_, _, .recorded prefixes response now found⟩ =>
          let ttl := codecs.negativeTtl response
          if found.isNone && ttl != 0 then
            { service with
              negative := recordPrefixes service.negative prefixes now
                ⟨now + ttl, (codecs.threats response).map Threat.hash⟩
              checks := service.checks.erase id }
          else service.finish id
      | _ => service
  | .update index => if service.running && service.reset == .idle then { service with index } else service
  | .resetDatabase =>
      if service.running && service.reset == .idle then { service with index := [], reset := .databaseCleared } else service
  | .resetFull =>
      match service.reset with
      | .databaseCleared => { service with full := ∅, reset := .fullCleared }
      | _ => service
  | .resetNegative =>
      match service.reset with
      | .fullCleared => { service with negative := ∅, reset := .idle }
      | _ => service

/-- What `check` returns, where the event lets it return. -/
def returns : SafeBrowsingEvent → Option (Option Text)
  | .arrive id _ key => if (service.checks.lookup id).isNone && key.isEmpty then some none else none
  | .readFull id =>
      match service.checks.lookup id with
      | some ⟨hashes, now, .started⟩ => (cachedThreat service.full hashes now).map some
      | _ => none
  | .readNegative id =>
      match service.checks.lookup id with
      | some ⟨_, now, .matched prefixes⟩ => if (toAsk service.negative prefixes now).isEmpty then some none else none
      | _ => none
  | .fail id =>
      match service.checks.lookup id with
      | some ⟨_, _, .asking _⟩ => some none
      | _ => none
  | .settle id =>
      match service.checks.lookup id with
      | some ⟨_, _, .recorded _ _ _ found⟩ => some found
      | _ => none
  | _ => none

end SafeBrowsing

end DaygleDns.Policy
