import DaygleDns.Addresses
import DaygleDns.KeyedMap
import DaygleDns.Runs
import Mathlib.Algebra.Order.Field.Rat

/-! Response rate limiting: identical responses to one network share an account, which earns
credit over time and pays for each response. Instants are nanoseconds on the monotonic
clock, and balances are exact. -/
namespace DaygleDns.Core

open Text

def SECOND : Nat := 10 ^ 9

/-- Past this, new accounts are not tracked. -/
def MAX_ACCOUNTS : Nat := 200000

def SWEEP_EVERY : Nat := 10 * SECOND

inductive ResponseClass where
  | answer
  | nxDomain
  | error
deriving DecidableEq, Repr

inductive Verdict where
  | send
  | slip
  | drop
deriving DecidableEq, Repr

structure RrlSettings where
  enabled : Bool
  responsesPerSecond : UInt32
  nxdomainsPerSecond : UInt32
  errorsPerSecond : UInt32
  windowSecs : UInt32
  slip : UInt32
  ipv4Prefix : UInt8
  ipv6Prefix : UInt8
deriving DecidableEq, Repr

/-- Credits per second; 0 for no limit. -/
def RrlSettings.rate (settings : RrlSettings) : ResponseClass → UInt32
  | .answer => settings.responsesPerSecond
  | .nxDomain => settings.nxdomainsPerSecond
  | .error => settings.errorsPerSecond

structure AccountKey where
  network : IpAddr
  responseClass : ResponseClass
  name : Text
deriving DecidableEq, Repr

structure Account where
  balance : ℚ
  last : Nat
  /-- Limited responses so far. -/
  limited : UInt32
deriving DecidableEq, Repr

structure ResponseRateLimiter where
  enabled : Bool
  settings : RrlSettings
  exempt : List Network
  accounts : KeyedMap AccountKey Account
  lastSweep : Nat

def netAddress {w : Nat} (bits : BitVec w) (length : UInt8) : BitVec w :=
  IpNet.network ⟨bits, ⟨min length.toNat w, by omega⟩⟩

/-- The network that a client is counted in. -/
def networkOf (client : IpAddr) (v4 v6 : UInt8) : IpAddr :=
  match client with
  | .v4 bits => .v4 (netAddress bits v4)
  | .v6 bits => .v6 (netAddress bits v6)

/-- The name without its first label; a single label stays as it is. -/
def parent (name : Text) : Text :=
  let name := trimEndMatches '.' name
  match splitOnce ['.'] name with
  | some (_, rest) => if rest.isEmpty then name else rest
  | none => name

def accountKey (settings : RrlSettings) (client : IpAddr) (responseClass : ResponseClass) (name : Text) :
    AccountKey where
  network := networkOf client settings.ipv4Prefix settings.ipv6Prefix
  responseClass := responseClass
  name :=
    match responseClass with
    | .answer => toAsciiLowercase name
    | .nxDomain => toAsciiLowercase (parent name)
    | .error => []

/-- What an account earns from one instant to another. -/
def earned (rate : UInt32) (last now : Nat) : ℚ := ((now - last : Nat) : ℚ) / SECOND * rate.toNat

/-- Charge an account for one response. -/
def Account.respond (settings : RrlSettings) (rate : UInt32) (now : Nat) (account : Account) : Verdict × Account :=
  let balance := min (account.balance + earned rate account.last now) rate.toNat - 1
  let balance := max balance (-(rate.toNat * settings.windowSecs.toNat))
  if 0 ≤ balance then (.send, { account with balance, last := now })
  else
    let limited := account.limited + 1
    (if 0 < settings.slip && limited % settings.slip = 0 then .slip else .drop, ⟨balance, now, limited⟩)

namespace ResponseRateLimiter

def new (settings : RrlSettings) (exempt : List Network) (now : Nat) : ResponseRateLimiter :=
  ⟨settings.enabled, settings, exempt, ∅, now⟩

/-- Accounts are kept unless their keys would no longer match. -/
def setSettings (limiter : ResponseRateLimiter) (settings : RrlSettings) (exempt : List Network) :
    ResponseRateLimiter where
  enabled := settings.enabled
  settings := settings
  exempt := exempt
  accounts :=
    if limiter.settings.ipv4Prefix ≠ settings.ipv4Prefix || limiter.settings.ipv6Prefix ≠ settings.ipv6Prefix ||
        !settings.enabled then
      ∅
    else limiter.accounts
  lastSweep := limiter.lastSweep

/-- How long an account may be idle. -/
def idle (limiter : ResponseRateLimiter) : Nat := (limiter.settings.windowSecs.toNat + 1) * SECOND

/-- Forget the idle accounts from time to time. -/
def sweep (limiter : ResponseRateLimiter) (now : Nat) : ResponseRateLimiter :=
  if SWEEP_EVERY ≤ now - limiter.lastSweep then
    { limiter with
      lastSweep := now
      accounts := limiter.accounts.retain fun _ account => now - account.last < limiter.idle }
  else limiter

/-- Charge the account of a response; there is none where too many are tracked. -/
def track (limiter : ResponseRateLimiter) (key : AccountKey) (rate : UInt32) (now : Nat) :
    Verdict × ResponseRateLimiter :=
  let charge (account : Account) : Verdict × ResponseRateLimiter :=
    let (verdict, account) := account.respond limiter.settings rate now
    (verdict, { limiter with accounts := limiter.accounts.insert key account })
  match limiter.accounts.lookup key with
  | some account => charge account
  | none =>
      if MAX_ACCOUNTS ≤ limiter.accounts.size then (.send, limiter)
      else charge ⟨rate.toNat, now, 0⟩

def checkAt (limiter : ResponseRateLimiter) (client : IpAddr) (responseClass : ResponseClass) (name : Text)
    (now : Nat) : Verdict × ResponseRateLimiter :=
  if !limiter.enabled then (.send, limiter)
  else
    let rate := limiter.settings.rate responseClass
    if rate = 0 || limiter.exempt.any fun net => net.contains client then (.send, limiter)
    else (limiter.sweep now).track (accountKey limiter.settings client responseClass name) rate now

end ResponseRateLimiter

end DaygleDns.Core
