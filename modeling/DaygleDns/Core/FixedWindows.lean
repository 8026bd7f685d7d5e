import DaygleDns.Core.RateLimit
import Mathlib.Data.List.Dedup

/-! Rate limiting beside plain counters: one for each key, which is never forgotten and starts
anew with the first query at or after the end of its window. -/
namespace DaygleDns.Core

open Runs

namespace RateLimiter

inductive Subject where
  | client (client : IpAddr)
  | verified (client : IpAddr)
  | domain (domain : Text)
deriving DecidableEq

structure Query where
  subject : Subject
  now : Nat
  sweepNow : Nat
deriving DecidableEq

def answer (limiter : RateLimiter) (query : Query) : Bool × RateLimiter :=
  match query.subject with
  | .client client => limiter.checkClient client query.now query.sweepNow
  | .verified client => limiter.checkVerifiedClient client query.now query.sweepNow
  | .domain domain => limiter.checkDomain domain query.now query.sweepNow

/-! The counters. -/

structure Counters where
  clients : IpAddr → Option Bucket
  domains : Text → Option Bucket

/-- The counter of a key at an instant. -/
def current (window now : Nat) : Option Bucket → Bucket
  | some counter => if now < counter.windowStart + window then counter else ⟨now, 0⟩
  | none => ⟨now, 0⟩

/-- Admit and count a query while the count is below the limit. -/
def tick (limit : Nat) (counter : Bucket) : Bool × Bucket :=
  if counter.count < limit then (true, { counter with count := counter.count + 1 }) else (false, counter)

def countQuery {κ : Type} [DecidableEq κ] (window limit now : Nat) (counters : κ → Option Bucket) (key : κ) :
    Bool × (κ → Option Bucket) :=
  let (admitted, counter) := tick limit (current window now (counters key))
  (admitted, Function.update counters key (some counter))

namespace Counters

def empty : Counters := ⟨fun _ => none, fun _ => none⟩

/-- An IPv4 address, or the network of an IPv6 one. -/
def clientKey (settings : RateLimitSettings) : IpAddr → IpAddr
  | .v4 bits => .v4 bits
  | .v6 bits => .v6 (netAddress bits settings.clientIpv6Prefix)

def answerClient (settings : RateLimitSettings) (limit : Nat) (counters : Counters) (client : IpAddr) (now : Nat) :
    Bool × Counters :=
  if settings.exemptLoopback && isLoopback client then (true, counters)
  else
    let (admitted, clients) :=
      countQuery (settings.clientWindowSecs.toNat * SECOND) limit now counters.clients (clientKey settings client)
    (admitted, { counters with clients })

def answerDomain (settings : RateLimitSettings) (counters : Counters) (domain : Text) (now : Nat) : Bool × Counters :=
  let (admitted, domains) :=
    countQuery (settings.domainWindowSecs.toNat * SECOND) settings.domainMaxQueries.toNat now counters.domains domain
  (admitted, { counters with domains })

/-- `verifiedLimit` is that of a verified client, on the same counter. -/
def answer (settings : RateLimitSettings) (verifiedLimit : Nat) (counters : Counters) (query : Query) : Bool × Counters :=
  if !settings.enabled then (true, counters)
  else
    match query.subject with
    | .client client => answerClient settings settings.clientMaxQueries.toNat counters client query.now
    | .verified client => answerClient settings verifiedLimit counters client query.now
    | .domain domain => answerDomain settings counters domain query.now

end Counters

/-! One map of buckets. -/

section Mirrors

variable {κ : Type} [DecidableEq κ] {window limit cap now later : Nat} {map : KeyedMap κ Bucket}
  {counters : κ → Option Bucket} {key : κ}

/-- The buckets are the counters, but for those whose window is over. -/
structure Mirrors (window now : Nat) (map : KeyedMap κ Bucket) (counters : κ → Option Bucket) : Prop where
  tracked : ∀ key bucket, map.lookup key = some bucket → counters key = some bucket ∧ bucket.windowStart ≤ now
  dropped : ∀ key counter, counters key = some counter → map.lookup key = none → counter.windowStart + window ≤ now

theorem mirrors_later (h : Mirrors window now map counters) (hle : now ≤ later) : Mirrors window later map counters where
  tracked key bucket hlookup := by
    obtain ⟨hsame, hstart⟩ := h.tracked key bucket hlookup
    exact ⟨hsame, hstart.trans hle⟩
  dropped key counter hcounter hnone := (h.dropped key counter hcounter hnone).trans hle

theorem mirrors_retain (h : Mirrors window now map counters) :
    Mirrors window now (map.retain fun _ bucket => now - bucket.windowStart < window) counters where
  tracked key bucket hlookup := by
    rw [KeyedMap.lookup_retain] at hlookup
    exact h.tracked key bucket (Option.filter_eq_some_iff.mp hlookup).1
  dropped key counter hcounter hnone := by
    rw [KeyedMap.lookup_retain] at hnone
    cases hlookup : map.lookup key with
    | none => exact h.dropped key counter hcounter hlookup
    | some bucket =>
      obtain ⟨hsame, hstart⟩ := h.tracked key bucket hlookup
      obtain rfl : bucket = counter := Option.some.inj (hsame.symm.trans hcounter)
      have hover : ¬ now - bucket.windowStart < window := by
        simpa [hlookup, Option.filter] using hnone
      omega

theorem advanceBucket_eq {bucket : Bucket} (hstart : bucket.windowStart ≤ now) :
    advanceBucket window limit now bucket = tick limit (current window now (some bucket)) := by
  have hcurrent : (if window ≤ now - bucket.windowStart then ⟨now, 0⟩ else bucket) = current window now (some bucket) := by
    simp only [current]
    by_cases hover : window ≤ now - bucket.windowStart
    · rw [if_pos hover, if_neg (by omega)]
    · rw [if_neg hover, if_pos (by omega)]
  unfold advanceBucket tick
  simp only [hcurrent]
  by_cases hbelow : (current window now (some bucket)).count < limit
  · rw [if_pos hbelow, if_neg (Nat.not_le.mpr hbelow)]
  · rw [if_neg hbelow, if_pos (Nat.not_lt.mp hbelow)]

theorem checkBucket_eq : checkBucket window limit now = tick limit ⟨now, 0⟩ := by
  unfold checkBucket
  rw [advanceBucket_eq (Nat.le_refl now)]
  simp only [current]
  split <;> rfl

theorem tick_start (limit : Nat) (counter : Bucket) : (tick limit counter).2.windowStart = counter.windowStart := by
  unfold tick
  split <;> rfl

/-- What a query under a key does to its bucket is what it does to its counter. -/
theorem takeQuery_eq (h : Mirrors window now map counters) {fresh : Bool × Bucket} (hfresh : fresh = tick limit ⟨now, 0⟩)
    (hroom : map.lookup key = none → map.size < cap) :
    (current window now (counters key)).windowStart ≤ now ∧
      takeQuery cap fresh (advanceBucket window limit now) map key =
        ((tick limit (current window now (counters key))).1,
          map.insert key (tick limit (current window now (counters key))).2) := by
  unfold takeQuery
  cases hlookup : map.lookup key with
  | some bucket =>
    obtain ⟨hsame, hstart⟩ := h.tracked key bucket hlookup
    have hcurrent : (current window now (some bucket)).windowStart ≤ now := by
      simp only [current]
      split
      · exact hstart
      · exact Nat.le_refl _
    rw [hsame]
    exact ⟨hcurrent, by simp only [advanceBucket_eq hstart]⟩
  | none =>
    have hcurrent : current window now (counters key) = ⟨now, 0⟩ := by
      cases hcounter : counters key with
      | none => rfl
      | some counter =>
        have hover := h.dropped key counter hcounter hlookup
        simp only [current]
        exact if_neg (by omega)
    have hsize := hroom hlookup
    rw [hcurrent, ← hfresh]
    exact ⟨Nat.le_refl _, if_neg (by omega)⟩

theorem mirrors_insert (h : Mirrors window now map counters) {bucket : Bucket} (hstart : bucket.windowStart ≤ now) :
    Mirrors window now (map.insert key bucket) (Function.update counters key (some bucket)) where
  tracked other found hlookup := by
    rw [KeyedMap.lookup_insert] at hlookup
    split at hlookup
    next hsame =>
      cases hlookup
      rw [hsame, Function.update_self]
      exact ⟨rfl, hstart⟩
    next hother =>
      rw [Function.update_of_ne hother]
      exact h.tracked other found hlookup
  dropped other counter hcounter hnone := by
    rw [KeyedMap.lookup_insert] at hnone
    split at hnone
    next => cases hnone
    next hother =>
      rw [Function.update_of_ne hother] at hcounter
      exact h.dropped other counter hcounter hnone

/-- A query under a key, and the counter of the key. -/
theorem mirrors_takeQuery (h : Mirrors window now map counters) {fresh : Bool × Bucket} (hfresh : fresh = tick limit ⟨now, 0⟩)
    (hroom : map.lookup key = none → map.size < cap) :
    (takeQuery cap fresh (advanceBucket window limit now) map key).1 = (countQuery window limit now counters key).1 ∧
      Mirrors window now (takeQuery cap fresh (advanceBucket window limit now) map key).2
        (countQuery window limit now counters key).2 := by
  obtain ⟨hstart, htaken⟩ := takeQuery_eq h hfresh hroom
  rw [htaken]
  refine ⟨rfl, mirrors_insert h ?_⟩
  rwa [tick_start]

end Mirrors

/-! The caps. -/

theorem size_takeQuery_le {κ : Type} [DecidableEq κ] {cap : Nat} {fresh : Bool × Bucket} {advance : Bucket → Bool × Bucket}
    {map : KeyedMap κ Bucket} {key : κ} (h : map.size ≤ cap) : (takeQuery cap fresh advance map key).2.size ≤ cap := by
  unfold takeQuery
  cases hlookup : map.lookup key with
  | some bucket =>
    have hsame := KeyedMap.size_insert_of_mem (by rw [hlookup]; rfl) (advance bucket).2
    exact hsame.trans_le h
  | none =>
    by_cases hfull : cap ≤ map.size
    · simp only [if_pos hfull]
      exact h
    · simp only [if_neg hfull]
      have hsize := map.size_insert_le key fresh.2
      exact hsize.trans (by omega)

theorem keys_takeQuery {κ : Type} [DecidableEq κ] {cap : Nat} {fresh : Bool × Bucket} {advance : Bucket → Bool × Bucket}
    {map : KeyedMap κ Bucket} {key other : κ} (h : ((takeQuery cap fresh advance map key).2.lookup other).isSome) :
    other = key ∨ (map.lookup other).isSome := by
  have hinsert : ∀ bucket, ((AList.insert key bucket map).lookup other).isSome →
      other = key ∨ (map.lookup other).isSome := by
    intro bucket hsome
    rw [KeyedMap.lookup_insert] at hsome
    split at hsome
    next hsame => exact .inl hsame
    next => exact .inr hsome
  unfold takeQuery at h
  cases hlookup : map.lookup key with
  | some bucket =>
    simp only [hlookup] at h
    exact hinsert _ h
  | none =>
    simp only [hlookup] at h
    split at h
    · exact .inr h
    · exact hinsert _ h

/-- Both maps are within their caps. -/
def Capped (limiter : RateLimiter) : Prop :=
  limiter.clients.size ≤ CLIENT_BUCKETS_CAP ∧ limiter.domains.size ≤ DOMAIN_BUCKETS_CAP

theorem capped_maybeSweep {limiter : RateLimiter} (h : limiter.Capped) (now : Nat) : (limiter.maybeSweep now).Capped := by
  unfold maybeSweep
  dsimp only
  split
  · exact h
  · exact ⟨(KeyedMap.size_retain_le _ _).trans h.1, (KeyedMap.size_retain_le _ _).trans h.2⟩

theorem capped_checkClientScaled {limiter : RateLimiter} (h : limiter.Capped) (client : IpAddr) (factor now sweepNow : Nat) :
    (limiter.checkClientScaled client factor now sweepNow).2.Capped := by
  unfold checkClientScaled
  split
  · exact h
  · split
    · exact h
    · apply capped_maybeSweep
      exact ⟨size_takeQuery_le h.1, h.2⟩

theorem capped_checkDomain {limiter : RateLimiter} (h : limiter.Capped) (domain : Text) (now sweepNow : Nat) :
    (limiter.checkDomain domain now sweepNow).2.Capped := by
  unfold checkDomain
  split
  · exact h
  · apply capped_maybeSweep
    exact ⟨h.1, size_takeQuery_le h.2⟩

theorem capped_answer {limiter : RateLimiter} (h : limiter.Capped) (query : Query) : (limiter.answer query).2.Capped := by
  unfold answer
  split
  · exact capped_checkClientScaled h _ _ _ _
  · exact capped_checkClientScaled h _ _ _ _
  · exact capped_checkDomain h _ _ _

/-! Both side by side. -/

/-- The settings are in force. -/
structure Configured (settings : RateLimitSettings) (limiter : RateLimiter) : Prop where
  enabled : limiter.enabled = settings.enabled
  clientLimit : limiter.clientLimit = settings.clientMaxQueries
  clientWindow : limiter.clientWindow = settings.clientWindowSecs.toNat * SECOND
  domainLimit : limiter.domainLimit = settings.domainMaxQueries
  domainWindow : limiter.domainWindow = settings.domainWindowSecs.toNat * SECOND
  exemptLoopback : limiter.exemptLoopback = settings.exemptLoopback
  ipv6Prefix : limiter.ipv6Prefix = settings.clientIpv6Prefix

/-- The limiter's buckets are the counters, at an instant. -/
structure InStep (settings : RateLimitSettings) (limiter : RateLimiter) (counters : Counters) (now : Nat) : Prop where
  configured : Configured settings limiter
  clients : Mirrors (settings.clientWindowSecs.toNat * SECOND) now limiter.clients counters.clients
  domains : Mirrors (settings.domainWindowSecs.toNat * SECOND) now limiter.domains counters.domains

section InStep

variable {settings : RateLimitSettings} {limiter : RateLimiter} {counters : Counters} {now later sweepNow : Nat}
  {client : IpAddr} {factor : Nat} {domain : Text}

theorem inStep_later (h : InStep settings limiter counters now) (hle : now ≤ later) : InStep settings limiter counters later :=
  ⟨h.configured, mirrors_later h.clients hle, mirrors_later h.domains hle⟩

/-- No sweep shows. -/
theorem inStep_maybeSweep (h : InStep settings limiter counters now) :
    InStep settings (limiter.maybeSweep now) counters now := by
  unfold maybeSweep
  dsimp only
  split
  · exact h
  · have hconfigured := h.configured
    refine ⟨⟨hconfigured.enabled, hconfigured.clientLimit, hconfigured.clientWindow, hconfigured.domainLimit,
      hconfigured.domainWindow, hconfigured.exemptLoopback, hconfigured.ipv6Prefix⟩, ?_, ?_⟩
    · rw [hconfigured.clientWindow]
      exact mirrors_retain h.clients
    · rw [hconfigured.domainWindow]
      exact mirrors_retain h.domains

theorem clientKey_eq (h : Configured settings limiter) (client : IpAddr) :
    limiter.clientKey client = Counters.clientKey settings client := by
  cases client with
  | v4 bits => rfl
  | v6 bits => simp only [clientKey, Counters.clientKey, h.ipv6Prefix]

theorem inStep_client (factor : Nat) (h : InStep settings limiter counters now) (hsweep : now ≤ sweepNow) (henabled : settings.enabled = true)
    (hroom : limiter.clients.lookup (Counters.clientKey settings client) = none → limiter.clients.size < CLIENT_BUCKETS_CAP) :
    let limit := saturatingMul settings.clientMaxQueries factor
    (limiter.checkClientScaled client factor now sweepNow).1 = (counters.answerClient settings limit client now).1 ∧
      InStep settings (limiter.checkClientScaled client factor now sweepNow).2
        (counters.answerClient settings limit client now).2 sweepNow := by
  have hconfigured := h.configured
  have hon : (!limiter.enabled) = false := by rw [hconfigured.enabled, henabled]; rfl
  unfold checkClientScaled Counters.answerClient
  simp only [hon, Bool.false_eq_true, if_false, hconfigured.exemptLoopback, hconfigured.clientWindow, hconfigured.clientLimit,
    clientKey_eq hconfigured]
  cases settings.exemptLoopback && isLoopback client with
  | true => exact ⟨rfl, inStep_later h hsweep⟩
  | false =>
    obtain ⟨hsame, hmirrors⟩ := mirrors_takeQuery h.clients
      checkBucket_eq hroom
    refine ⟨hsame, ?_⟩
    apply inStep_maybeSweep
    apply inStep_later _ hsweep
    exact ⟨⟨hconfigured.enabled, rfl, rfl, hconfigured.domainLimit, hconfigured.domainWindow, rfl,
      hconfigured.ipv6Prefix⟩, hmirrors, h.domains⟩

theorem inStep_domain (h : InStep settings limiter counters now) (hsweep : now ≤ sweepNow) (henabled : settings.enabled = true)
    (hlimit : settings.domainMaxQueries ≠ 0)
    (hroom : limiter.domains.lookup domain = none → limiter.domains.size < DOMAIN_BUCKETS_CAP) :
    (limiter.checkDomain domain now sweepNow).1 = (counters.answerDomain settings domain now).1 ∧
      InStep settings (limiter.checkDomain domain now sweepNow).2 (counters.answerDomain settings domain now).2 sweepNow := by
  have hconfigured := h.configured
  have hon : (!limiter.enabled) = false := by rw [hconfigured.enabled, henabled]; rfl
  have hpos : 0 < settings.domainMaxQueries.toNat := by
    apply Nat.pos_of_ne_zero
    intro hzero
    exact hlimit (UInt32.toNat_inj.mp hzero)
  have hfresh : (true, (⟨now, 1⟩ : Bucket)) = tick settings.domainMaxQueries.toNat ⟨now, 0⟩ := by
    unfold tick
    exact (if_pos hpos).symm
  unfold checkDomain Counters.answerDomain
  simp only [hon, Bool.false_eq_true, if_false, hconfigured.domainWindow, hconfigured.domainLimit]
  obtain ⟨hsame, hmirrors⟩ := mirrors_takeQuery h.domains hfresh hroom
  refine ⟨hsame, ?_⟩
  apply inStep_maybeSweep
  apply inStep_later _ hsweep
  exact ⟨⟨hconfigured.enabled, hconfigured.clientLimit, hconfigured.clientWindow, rfl, rfl,
    hconfigured.exemptLoopback, hconfigured.ipv6Prefix⟩, h.clients, hmirrors⟩

end InStep

/-! Runs. -/

/-- A query in the limiter and at the counters. -/
def stepBoth (settings : RateLimitSettings) (verifiedLimit : Nat) (pair : RateLimiter × Counters) (query : Query) :
    RateLimiter × Counters :=
  ((pair.1.answer query).2, (pair.2.answer settings verifiedLimit query).2)

def SameAnswer (settings : RateLimitSettings) (verifiedLimit : Nat) (pair : RateLimiter × Counters) (query : Query) : Prop :=
  (pair.1.answer query).1 = (pair.2.answer settings verifiedLimit query).1

/-- The clock does not go back. -/
def Ordered (queries : List Query) : Prop :=
  (∀ query ∈ queries, query.now ≤ query.sweepNow) ∧ queries.Pairwise fun first second => first.sweepNow ≤ second.now

instance (queries : List Query) : Decidable (Ordered queries) :=
  inferInstanceAs (Decidable (_ ∧ _))

def clientOf (settings : RateLimitSettings) (query : Query) : Option IpAddr :=
  match query.subject with
  | .client client => some (Counters.clientKey settings client)
  | .verified client => some (Counters.clientKey settings client)
  | .domain _ => none

def domainOf (query : Query) : Option Text :=
  match query.subject with
  | .domain domain => some domain
  | _ => none

/-- There are no more clients and domains than may have a bucket. -/
def FewKeys (settings : RateLimitSettings) (queries : List Query) : Prop :=
  (queries.filterMap (clientOf settings)).dedup.length ≤ CLIENT_BUCKETS_CAP ∧
    (queries.filterMap domainOf).dedup.length ≤ DOMAIN_BUCKETS_CAP

instance (settings : RateLimitSettings) (queries : List Query) : Decidable (FewKeys settings queries) :=
  inferInstanceAs (Decidable (_ ∧ _))

/-- The keys of a map are among those of the run. -/
def KeysIn {κ : Type} [DecidableEq κ] (map : KeyedMap κ Bucket) (keys : List κ) : Prop :=
  ∀ key, (map.lookup key).isSome → key ∈ keys

/-- The limiter has buckets for these keys only. -/
def Known (clients : List IpAddr) (domains : List Text) (limiter : RateLimiter) : Prop :=
  KeysIn limiter.clients clients ∧ KeysIn limiter.domains domains

section Runs

variable {settings : RateLimitSettings} {limiter : RateLimiter} {counters : Counters} {now : Nat} {query : Query}
  {clients : List IpAddr} {domains : List Text}

theorem size_lt_of_keysIn {κ : Type} [DecidableEq κ] {map : KeyedMap κ Bucket} {keys : List κ} {key : κ} {cap : Nat}
    (h : KeysIn map keys) (hkey : key ∈ keys) (hnone : map.lookup key = none) (hcap : keys.dedup.length ≤ cap) :
    map.size < cap := by
  have hsubset : key :: map.keys ⊆ keys.dedup := by
    intro other hother
    rw [List.mem_dedup]
    rcases List.mem_cons.mp hother with rfl | hother
    · exact hkey
    · exact h other (AList.lookup_isSome.mpr (AList.mem_keys.mpr hother))
  have hnodup : (key :: map.keys).Nodup := by
    apply List.nodup_cons.mpr
    refine ⟨?_, map.keys_nodup⟩
    rw [← AList.mem_keys, ← AList.lookup_eq_none]
    exact hnone
  have hlength := (List.subperm_of_subset hnodup hsubset).length_le
  rw [List.length_cons, KeyedMap.length_keys] at hlength
  omega

theorem keysIn_retain {κ : Type} [DecidableEq κ] {map : KeyedMap κ Bucket} {keys : List κ} (h : KeysIn map keys)
    (keep : κ → Bucket → Bool) : KeysIn (map.retain keep) keys := by
  intro key hkey
  rw [KeyedMap.lookup_retain] at hkey
  apply h key
  cases hlookup : map.lookup key with
  | none =>
    rw [hlookup] at hkey
    cases hkey
  | some bucket => rfl

theorem known_maybeSweep (h : Known clients domains limiter) (now : Nat) : Known clients domains (limiter.maybeSweep now) := by
  unfold maybeSweep
  dsimp only
  split
  · exact h
  · exact ⟨keysIn_retain h.1 _, keysIn_retain h.2 _⟩

theorem known_client {client : IpAddr} (h : Known clients domains limiter) (hkey : limiter.clientKey client ∈ clients)
    (factor now sweepNow : Nat) : Known clients domains (limiter.checkClientScaled client factor now sweepNow).2 := by
  unfold checkClientScaled
  split
  · exact h
  · split
    · exact h
    · apply known_maybeSweep
      refine ⟨?_, h.2⟩
      intro key hknown
      rcases keys_takeQuery hknown with rfl | hold
      · exact hkey
      · exact h.1 key hold

theorem known_domain {domain : Text} (h : Known clients domains limiter) (hkey : domain ∈ domains) (now sweepNow : Nat) :
    Known clients domains (limiter.checkDomain domain now sweepNow).2 := by
  unfold checkDomain
  split
  · exact h
  · apply known_maybeSweep
    refine ⟨h.1, ?_⟩
    intro key hknown
    rcases keys_takeQuery hknown with rfl | hold
    · exact hkey
    · exact h.2 key hold

theorem known_answer (h : Known clients domains limiter) (hconfigured : Configured settings limiter)
    (hclient : ∀ key ∈ clientOf settings query, key ∈ clients) (hdomain : ∀ key ∈ domainOf query, key ∈ domains) :
    Known clients domains (limiter.answer query).2 := by
  unfold clientOf at hclient
  unfold domainOf at hdomain
  unfold answer
  split
  next client hsubject =>
    apply known_client h
    rw [clientKey_eq hconfigured]
    exact hclient _ (by rw [hsubject]; rfl)
  next client hsubject =>
    apply known_client h
    rw [clientKey_eq hconfigured]
    exact hclient _ (by rw [hsubject]; rfl)
  next domain hsubject => exact known_domain h (hdomain _ (by rw [hsubject]; rfl)) _ _

/-- One query on both sides. -/
theorem inStep_answer (query : Query) (h : InStep settings limiter counters now) (hlimit : settings.domainMaxQueries ≠ 0)
    (hnow : now ≤ query.now) (hsweep : query.now ≤ query.sweepNow)
    (hclient : ∀ key ∈ clientOf settings query, limiter.clients.lookup key = none → limiter.clients.size < CLIENT_BUCKETS_CAP)
    (hdomain : ∀ key ∈ domainOf query, limiter.domains.lookup key = none → limiter.domains.size < DOMAIN_BUCKETS_CAP) :
    SameAnswer settings (saturatingMul settings.clientMaxQueries VERIFIED_CLIENT_ALLOWANCE) (limiter, counters) query ∧
      InStep settings (limiter.answer query).2
        (counters.answer settings (saturatingMul settings.clientMaxQueries VERIFIED_CLIENT_ALLOWANCE) query).2
        query.sweepNow := by
  have hhere := inStep_later h hnow
  have hone : saturatingMul settings.clientMaxQueries 1 = settings.clientMaxQueries.toNat := by
    have := settings.clientMaxQueries.toNat_lt
    unfold saturatingMul
    omega
  unfold SameAnswer answer Counters.answer
  unfold clientOf at hclient
  unfold domainOf at hdomain
  cases henabled : settings.enabled with
  | false =>
    have hoff : (!limiter.enabled) = true := by rw [h.configured.enabled, henabled]; rfl
    have hsame : ∀ result : Bool × RateLimiter, result = (true, limiter) → result.1 = true ∧
        InStep settings result.2 counters query.sweepNow := by
      rintro result rfl
      exact ⟨rfl, inStep_later hhere hsweep⟩
    cases query.subject with
    | client client => exact hsame _ (if_pos hoff)
    | verified client => exact hsame _ (if_pos hoff)
    | domain domain => exact hsame _ (if_pos hoff)
  | true =>
    simp only [Bool.not_true, Bool.false_eq_true, if_false]
    cases hsubject : query.subject with
    | client client =>
      rw [hsubject] at hclient
      have hboth := inStep_client 1 hhere hsweep henabled (hclient _ rfl)
      rw [hone] at hboth
      exact hboth
    | verified client =>
      rw [hsubject] at hclient
      exact inStep_client _ hhere hsweep henabled (hclient _ rfl)
    | domain domain =>
      rw [hsubject] at hdomain
      exact inStep_domain hhere hsweep henabled hlimit (hdomain _ rfl)

end Runs

theorem configured_new (settings : RateLimitSettings) (start : Nat) : Configured settings (new settings start) :=
  ⟨rfl, rfl, rfl, rfl, rfl, rfl, rfl⟩

theorem mirrors_empty {κ : Type} [DecidableEq κ] (window now : Nat) :
    Mirrors window now (∅ : KeyedMap κ Bucket) (fun _ => none) where
  tracked key bucket hlookup := by cases hlookup
  dropped key counter hcounter := by cases hcounter

theorem inStep_new (settings : RateLimitSettings) (start now : Nat) : InStep settings (new settings start) .empty now :=
  ⟨configured_new settings start, mirrors_empty _ _, mirrors_empty _ _⟩

theorem known_new (settings : RateLimitSettings) (start : Nat) (clients : List IpAddr) (domains : List Text) :
    Known clients domains (new settings start) := by
  apply And.intro
  · intro key hkey
    cases hkey
  · intro key hkey
    cases hkey

/-- The answers of a run are those of the counters. -/
theorem same_answers {settings : RateLimitSettings} (hlimit : settings.domainMaxQueries ≠ 0) {clients : List IpAddr}
    {domains : List Text} (hclients : clients.dedup.length ≤ CLIENT_BUCKETS_CAP)
    (hdomains : domains.dedup.length ≤ DOMAIN_BUCKETS_CAP) (queries : List Query) {limiter : RateLimiter}
    {counters : Counters} {now : Nat} (h : InStep settings limiter counters now) (hknown : Known clients domains limiter)
    (hlater : ∀ query ∈ queries, now ≤ query.now) (hordered : Ordered queries)
    (hclient : ∀ query ∈ queries, ∀ key ∈ clientOf settings query, key ∈ clients)
    (hdomain : ∀ query ∈ queries, ∀ key ∈ domainOf query, key ∈ domains) :
    Each (stepBoth settings (saturatingMul settings.clientMaxQueries VERIFIED_CLIENT_ALLOWANCE))
      (SameAnswer settings (saturatingMul settings.clientMaxQueries VERIFIED_CLIENT_ALLOWANCE)) (limiter, counters) queries := by
  induction queries generalizing limiter counters now with
  | nil => trivial
  | cons query queries ih =>
    obtain ⟨hreadings, hpairs⟩ := hordered
    obtain ⟨hfirst, hrest⟩ := List.pairwise_cons.mp hpairs
    have hquery := hclient query List.mem_cons_self
    have hquery' := hdomain query List.mem_cons_self
    obtain ⟨hsame, hnext⟩ := inStep_answer query h hlimit (hlater query List.mem_cons_self) (hreadings query List.mem_cons_self)
      (fun key hkey hnone => size_lt_of_keysIn hknown.1 (hquery key hkey) hnone hclients)
      (fun key hkey hnone => size_lt_of_keysIn hknown.2 (hquery' key hkey) hnone hdomains)
    refine ⟨hsame, ih hnext (known_answer hknown h.configured hquery hquery') hfirst ?_ ?_ ?_⟩
    · exact ⟨fun other hother => hreadings other (List.mem_cons_of_mem _ hother), hrest⟩
    · exact fun other hother => hclient other (List.mem_cons_of_mem _ hother)
    · exact fun other hother => hdomain other (List.mem_cons_of_mem _ hother)

/-- The maps never have more buckets than they may, and where there are no more keys than
that the answers are those of plain counters. -/
theorem answers_as_counted (settings : RateLimitSettings) (start : Nat) (queries : List Query) :
    Always (fun limiter query => (limiter.answer query).2) Capped (new settings start) queries ∧
      (settings.domainMaxQueries ≠ 0 → Ordered queries → FewKeys settings queries →
        let verifiedLimit := min (settings.clientMaxQueries.toNat * 10) (2 ^ 32 - 1)
        Each (stepBoth settings verifiedLimit) (SameAnswer settings verifiedLimit) (new settings start, .empty) queries) := by
  apply And.intro
  · have hstart : (new settings start).Capped := ⟨Nat.zero_le _, Nat.zero_le _⟩
    have hstep : ∀ (limiter : RateLimiter) (query : Query), limiter.Capped → (limiter.answer query).2.Capped :=
      fun limiter query h => capped_answer h query
    exact always_of_step hstep queries hstart
  · intro hlimit hordered hfew
    apply same_answers hlimit hfew.1 hfew.2 queries (inStep_new settings start 0) (known_new settings start _ _)
      (fun _ _ => Nat.zero_le _) hordered
    · exact fun query hquery key hkey => List.mem_filterMap.mpr ⟨query, hquery, hkey⟩
    · exact fun query hquery key hkey => List.mem_filterMap.mpr ⟨query, hquery, hkey⟩

def twoAMinute : RateLimitSettings := ⟨true, 2, 60, 1, 60, true, 56⟩

/-- A client with and without a cookie, and a domain before and after a sweep. -/
theorem answers_as_counted_twoAMinute :
    let client : IpAddr := .v4 0xC0000207
    let domain : Text := "www.example".toList
    let queries : List Query := [⟨.client client, 0, 0⟩, ⟨.verified client, SECOND, SECOND⟩, ⟨.client client, SECOND, SECOND⟩,
      ⟨.domain domain, 2 * SECOND, 2 * SECOND⟩, ⟨.domain domain, 62 * SECOND, 63 * SECOND⟩]
    Each (stepBoth twoAMinute 20) (SameAnswer twoAMinute 20) (new twoAMinute 0, .empty) queries :=
  (answers_as_counted twoAMinute 0 _).2 (by decide) (by decide) (by decide)

/-! A limit of which ten times are more than can be counted. -/

def largeLimit : RateLimitSettings := ⟨true, 429496730, 60, 1, 60, true, 56⟩

def verifiedClient : IpAddr := .v4 0xC0000207

def verifiedQuery : Query := ⟨.verified verifiedClient, 0, 0⟩

/-- So many queries of the client were counted. -/
def HasCounted (n : Nat) (counters : Counters) : Prop :=
  current (60 * SECOND) 0 (counters.clients verifiedClient) = ⟨0, n⟩

theorem answer_verifiedQuery {n limit : Nat} {counters : Counters} (h : HasCounted n counters) :
    counters.answer largeLimit limit verifiedQuery =
      ((tick limit ⟨0, n⟩).1, { counters with
        clients := Function.update counters.clients verifiedClient (some (tick limit ⟨0, n⟩).2) }) := by
  have hcount : countQuery (60 * SECOND) limit 0 counters.clients verifiedClient =
      ((tick limit ⟨0, n⟩).1, Function.update counters.clients verifiedClient (some (tick limit ⟨0, n⟩).2)) := by
    unfold countQuery
    rw [h]
  have hanswer : counters.answer largeLimit limit verifiedQuery =
      ((countQuery (60 * SECOND) limit 0 counters.clients verifiedClient).1, { counters with
        clients := (countQuery (60 * SECOND) limit 0 counters.clients verifiedClient).2 }) := rfl
  rw [hanswer, hcount]

theorem hasCounted_succ {n limit : Nat} {counters : Counters} (h : HasCounted n counters) (hlt : n < limit) :
    HasCounted (n + 1) (counters.answer largeLimit limit verifiedQuery).2 := by
  have htick : tick limit ⟨0, n⟩ = (true, ⟨0, n + 1⟩) := if_pos hlt
  rw [answer_verifiedQuery h, htick]
  unfold HasCounted
  dsimp only
  rw [Function.update_self]
  simp only [current]
  exact if_pos (by unfold SECOND; omega)

/-- As long as both admit the client, it does not matter which of two limits there is. -/
theorem answer_limits {n limit : Nat} (other : Nat) {counters : Counters} (h : HasCounted n counters) (hlt : n < limit)
    (hlt' : n < other) : counters.answer largeLimit limit verifiedQuery = counters.answer largeLimit other verifiedQuery := by
  have htick : tick limit ⟨0, n⟩ = tick other ⟨0, n⟩ := by
    unfold tick
    rw [if_pos hlt, if_pos hlt']
  rw [answer_verifiedQuery h, answer_verifiedQuery h, htick]

/-- After so many queries at one instant. -/
theorem run_verifiedQueries (verifiedLimit n : Nat) (hn : n ≤ 2 ^ 32 - 1) (hlimit : 2 ^ 32 - 1 ≤ verifiedLimit) :
    InStep largeLimit (run (stepBoth largeLimit verifiedLimit) (new largeLimit 0, .empty) (List.replicate n verifiedQuery)).1
        (run (stepBoth largeLimit verifiedLimit) (new largeLimit 0, .empty) (List.replicate n verifiedQuery)).2 0 ∧
      Known [verifiedClient] []
        (run (stepBoth largeLimit verifiedLimit) (new largeLimit 0, .empty) (List.replicate n verifiedQuery)).1 ∧
      HasCounted n
        (run (stepBoth largeLimit verifiedLimit) (new largeLimit 0, .empty) (List.replicate n verifiedQuery)).2 := by
  have hcap : ([verifiedClient] : List IpAddr).dedup.length ≤ CLIENT_BUCKETS_CAP := by decide
  have hsaturated : saturatingMul largeLimit.clientMaxQueries VERIFIED_CLIENT_ALLOWANCE = 2 ^ 32 - 1 := by decide
  induction n with
  | zero => exact ⟨inStep_new _ _ _, known_new _ _ _ _, rfl⟩
  | succ n ih =>
    obtain ⟨hstep, hknown, hcounted⟩ := ih (by omega)
    rw [List.replicate_succ', run_append]
    have hroom : ∀ key ∈ clientOf largeLimit verifiedQuery, key ∈ [verifiedClient] := by
      intro key hkey
      cases hkey
      exact List.mem_cons_self
    obtain ⟨_, hnext⟩ := inStep_answer verifiedQuery hstep (by decide) (Nat.le_refl 0) (Nat.le_refl 0)
      (fun key hkey hnone => size_lt_of_keysIn hknown.1 (hroom key hkey) hnone hcap)
      (fun key hkey => by cases hkey)
    rw [hsaturated, answer_limits verifiedLimit hcounted (by omega) (by omega)] at hnext
    exact ⟨hnext, known_answer hknown hstep.configured hroom (fun key hkey => by cases hkey),
      hasCounted_succ hcounted (by omega)⟩

/-- A client with a cookie that sends 2^32 queries within a window is not admitted ten times the limit. -/
theorem answers_not_as_counted :
    ¬ ∀ (settings : RateLimitSettings) (start : Nat) (queries : List Query),
      settings.clientMaxQueries ≠ 0 → settings.domainMaxQueries ≠ 0 → Ordered queries → FewKeys settings queries →
        let verifiedLimit := settings.clientMaxQueries.toNat * 10
        Each (stepBoth settings verifiedLimit) (SameAnswer settings verifiedLimit) (new settings start, .empty) queries := by
  intro h
  have hlimit : largeLimit.clientMaxQueries.toNat * 10 = 2 ^ 32 + 4 := by decide
  have hordered : ∀ n, Ordered (List.replicate n verifiedQuery) := by
    intro n
    apply And.intro
    · intro query hquery
      rw [List.eq_of_mem_replicate hquery]
      exact Nat.le_refl 0
    · exact List.pairwise_replicate.mpr (.inr (Nat.le_refl 0))
  have hfew : ∀ n, FewKeys largeLimit (List.replicate n verifiedQuery) := by
    intro n
    apply And.intro
    · have hsubset : ((List.replicate n verifiedQuery).filterMap (clientOf largeLimit)).dedup ⊆ [verifiedClient] := by
        intro key hkey
        obtain ⟨query, hquery, hclient⟩ := List.mem_filterMap.mp (List.mem_dedup.mp hkey)
        rw [List.eq_of_mem_replicate hquery] at hclient
        cases hclient
        exact List.mem_cons_self
      have hlength := (List.subperm_of_subset (List.nodup_dedup _) hsubset).length_le
      exact hlength.trans (by decide)
    · have hnone : (List.replicate n verifiedQuery).filterMap domainOf = [] := by
        apply List.filterMap_eq_nil_iff.mpr
        intro query hquery
        rw [List.eq_of_mem_replicate hquery]
        rfl
      rw [hnone]
      exact Nat.zero_le _
  obtain ⟨n, hn⟩ : ∃ n, n = 2 ^ 32 - 1 := ⟨_, rfl⟩
  have hrun := h largeLimit 0 (List.replicate (n + 1) verifiedQuery) (by decide) (by decide) (hordered _) (hfew _)
  dsimp only at hrun
  rw [List.replicate_succ'] at hrun
  have hlast := (each_append hrun).1
  obtain ⟨hstep, hknown, hcounted⟩ := run_verifiedQueries (largeLimit.clientMaxQueries.toNat * 10) n
    (by omega) (by omega)
  obtain ⟨hsame, _⟩ := inStep_answer verifiedQuery hstep (by decide) (Nat.le_refl 0) (Nat.le_refl 0)
    (fun key hkey hnone => by
      cases hkey
      exact size_lt_of_keysIn hknown.1 List.mem_cons_self hnone (by decide))
    (fun key hkey => by cases hkey)
  have hsaturated : saturatingMul largeLimit.clientMaxQueries VERIFIED_CLIENT_ALLOWANCE = 2 ^ 32 - 1 := by decide
  unfold SameAnswer at hsame hlast
  rw [hsaturated, answer_verifiedQuery hcounted] at hsame
  rw [answer_verifiedQuery hcounted] at hlast
  have hdenied : (tick (2 ^ 32 - 1) ⟨0, n⟩).1 = false := by
    unfold tick
    rw [if_neg (by simp only; omega)]
  have hadmitted : (tick (largeLimit.clientMaxQueries.toNat * 10) ⟨0, n⟩).1 = true := by
    unfold tick
    rw [if_pos (by simp only; omega)]
  rw [hdenied] at hsame
  rw [hadmitted] at hlast
  exact absurd (hsame.symm.trans hlast) (by decide)

end RateLimiter

end DaygleDns.Core
