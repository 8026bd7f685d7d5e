import DaygleDns.Core.ResponseRateLimit

/-! Rate limiting of queries: a bucket with a window for each client and each domain, and the
sweeps that keep the maps of buckets small. A query reads the clock at its bucket and once
more at the sweep behind it. -/
namespace DaygleDns.Core

def SWEEP_INTERVAL : Nat := 30 * SECOND

def SWEEP_AT_ENTRIES : Nat := 10000

/-- The least time between sweeps of large maps. -/
def SIZE_SWEEP_MIN_GAP : Nat := SECOND

def CLIENT_BUCKETS_CAP : Nat := 50000

def DOMAIN_BUCKETS_CAP : Nat := 50000

/-- How many times the limit a client with a valid cookie may send. -/
def VERIFIED_CLIENT_ALLOWANCE : Nat := 10

structure RateLimitSettings where
  enabled : Bool
  clientMaxQueries : UInt32
  clientWindowSecs : UInt64
  domainMaxQueries : UInt32
  domainWindowSecs : UInt64
  exemptLoopback : Bool
  clientIpv6Prefix : UInt8
deriving DecidableEq, Repr

namespace RateLimiter

structure Bucket where
  windowStart : Nat
  count : Nat
deriving DecidableEq, Repr

end RateLimiter

structure RateLimiter where
  clients : KeyedMap IpAddr RateLimiter.Bucket
  domains : KeyedMap Text RateLimiter.Bucket
  enabled : Bool
  clientLimit : UInt32
  clientWindow : Nat
  domainLimit : UInt32
  domainWindow : Nat
  exemptLoopback : Bool
  ipv6Prefix : UInt8
  lastSweep : Nat

def saturatingMul (limit : UInt32) (factor : Nat) : Nat := min (limit.toNat * factor) (2 ^ 32 - 1)

def isLoopback : IpAddr → Bool
  | .v4 bits => bits.toNat / 2 ^ 24 = 127
  | .v6 bits => bits.toNat = 1

namespace RateLimiter

def new (settings : RateLimitSettings) (now : Nat) : RateLimiter where
  clients := ∅
  domains := ∅
  enabled := settings.enabled
  clientLimit := settings.clientMaxQueries
  clientWindow := settings.clientWindowSecs.toNat * SECOND
  domainLimit := settings.domainMaxQueries
  domainWindow := settings.domainWindowSecs.toNat * SECOND
  exemptLoopback := settings.exemptLoopback
  ipv6Prefix := settings.clientIpv6Prefix
  lastSweep := now

/-- Existing buckets are kept. -/
def setSettings (limiter : RateLimiter) (settings : RateLimitSettings) : RateLimiter :=
  { new settings limiter.lastSweep with clients := limiter.clients, domains := limiter.domains }

/-- Count a query in a bucket, which starts anew when its window is over. -/
def advanceBucket (window limit now : Nat) (bucket : Bucket) : Bool × Bucket :=
  let bucket := if window ≤ now - bucket.windowStart then ⟨now, 0⟩ else bucket
  if limit ≤ bucket.count then (false, bucket) else (true, { bucket with count := bucket.count + 1 })

/-- A query of a client that has no bucket yet. -/
def checkBucket (window limit now : Nat) : Bool × Bucket := advanceBucket window limit now ⟨now, 0⟩

/-- A query under a key: `fresh` is what becomes of it without a bucket. Where there are too
many buckets, it is admitted without one. -/
def takeQuery {κ : Type} [DecidableEq κ] (cap : Nat) (fresh : Bool × Bucket) (advance : Bucket → Bool × Bucket)
    (map : KeyedMap κ Bucket) (key : κ) : Bool × KeyedMap κ Bucket :=
  match map.lookup key with
  | some bucket => ((advance bucket).1, map.insert key (advance bucket).2)
  | none => if cap ≤ map.size then (true, map) else (fresh.1, map.insert key fresh.2)

/-- Drop the buckets whose window is over, from time to time. -/
def maybeSweep (limiter : RateLimiter) (now : Nat) : RateLimiter :=
  let sinceLast := now - limiter.lastSweep
  let dueByTime := SWEEP_INTERVAL ≤ sinceLast
  let dueBySize := SWEEP_AT_ENTRIES ≤ limiter.clients.size + limiter.domains.size ∧ SIZE_SWEEP_MIN_GAP ≤ sinceLast
  if ¬ dueByTime ∧ ¬ dueBySize then limiter
  else
    { limiter with
      lastSweep := now
      clients := limiter.clients.retain fun _ bucket => now - bucket.windowStart < limiter.clientWindow
      domains := limiter.domains.retain fun _ bucket => now - bucket.windowStart < limiter.domainWindow }

/-- IPv6 clients share a bucket for each network. -/
def clientKey (limiter : RateLimiter) : IpAddr → IpAddr
  | .v4 bits => .v4 bits
  | .v6 bits => .v6 (netAddress bits limiter.ipv6Prefix)

def checkClientScaled (limiter : RateLimiter) (client : IpAddr) (factor now sweepNow : Nat) : Bool × RateLimiter :=
  if !limiter.enabled then (true, limiter)
  else if limiter.exemptLoopback && isLoopback client then (true, limiter)
  else
    let window := limiter.clientWindow
    let limit := saturatingMul limiter.clientLimit factor
    let (allowed, clients) := takeQuery CLIENT_BUCKETS_CAP (checkBucket window limit now) (advanceBucket window limit now)
      limiter.clients (limiter.clientKey client)
    (allowed, { limiter with clients }.maybeSweep sweepNow)

def checkClient (limiter : RateLimiter) (client : IpAddr) (now sweepNow : Nat) : Bool × RateLimiter :=
  limiter.checkClientScaled client 1 now sweepNow

def checkVerifiedClient (limiter : RateLimiter) (client : IpAddr) (now sweepNow : Nat) : Bool × RateLimiter :=
  limiter.checkClientScaled client VERIFIED_CLIENT_ALLOWANCE now sweepNow

def checkDomain (limiter : RateLimiter) (domain : Text) (now sweepNow : Nat) : Bool × RateLimiter :=
  if !limiter.enabled then (true, limiter)
  else
    let window := limiter.domainWindow
    let limit := limiter.domainLimit.toNat
    -- a fresh bucket admits its first query
    let (allowed, domains) := takeQuery DOMAIN_BUCKETS_CAP (true, ⟨now, 1⟩) (advanceBucket window limit now)
      limiter.domains domain
    (allowed, { limiter with domains }.maybeSweep sweepNow)

end RateLimiter

end DaygleDns.Core
