import DaygleDns.Core.ResponseRateLimit
import Mathlib.Tactic.Linarith
import Mathlib.Tactic.Positivity

/-! What one response does to the accounts of response rate limiting: whose account it is,
what the sweep forgets before it, and within which bounds the balances stay. -/
namespace DaygleDns.Core

open Runs

structure RrlCall where
  client : IpAddr
  responseClass : ResponseClass
  name : Text
  now : Nat
deriving DecidableEq, Repr

section Respond

variable {settings : RrlSettings} {rate : UInt32} {now : Nat} {account : Account}

theorem earned_nonneg (rate : UInt32) (last now : Nat) : 0 ≤ earned rate last now := by
  unfold earned
  positivity

/-- The debt that an account may run up. -/
def debt (settings : RrlSettings) (rate : UInt32) : ℚ := rate.toNat * settings.windowSecs.toNat

theorem debt_nonneg (settings : RrlSettings) (rate : UInt32) : 0 ≤ debt settings rate := by
  unfold debt
  positivity

theorem one_le_rate (hrate : rate ≠ 0) : (1 : ℚ) ≤ rate.toNat := by
  have hpos : 0 < rate.toNat := by
    apply Nat.pos_of_ne_zero
    intro hzero
    exact hrate (UInt32.toNat_inj.mp hzero)
  exact_mod_cast hpos

theorem debt_pos (hrate : rate ≠ 0) (hwindow : settings.windowSecs ≠ 0) : 0 < debt settings rate := by
  have hr := one_le_rate hrate
  have hw := one_le_rate hwindow
  unfold debt
  positivity

@[simp] theorem respond_last : (account.respond settings rate now).2.last = now := by
  unfold Account.respond
  simp only
  split <;> rfl

theorem respond_balance : (account.respond settings rate now).2.balance =
    max (min (account.balance + earned rate account.last now) rate.toNat - 1) (-debt settings rate) := by
  unfold Account.respond debt
  simp only
  split <;> rfl

theorem respond_send : (account.respond settings rate now).1 = .send ↔ 0 ≤ (account.respond settings rate now).2.balance := by
  rw [respond_balance]
  unfold Account.respond debt
  simp only
  split
  next h => simp [h]
  next h =>
    split <;> simp [h]

/-- A response is sent that the account can pay for. -/
theorem respond_send_iff (hrate : rate ≠ 0) : (account.respond settings rate now).1 = .send ↔
    settings.windowSecs = 0 ∨ 1 ≤ account.balance + earned rate account.last now := by
  have hr := one_le_rate hrate
  rw [respond_send, respond_balance, le_max_iff, sub_nonneg, le_min_iff]
  by_cases hwindow : settings.windowSecs = 0
  · simp [debt, hwindow]
  · have hdebt := debt_pos hrate hwindow
    have hnot : ¬ 0 ≤ -debt settings rate := by linarith
    simp [hwindow, hnot, hr]

theorem respond_ge : -debt settings rate ≤ (account.respond settings rate now).2.balance := by
  rw [respond_balance]
  exact le_max_right _ _

theorem respond_le (settings : RrlSettings) (now : Nat) (account : Account) (hrate : rate ≠ 0) : (account.respond settings rate now).2.balance ≤ rate.toNat - 1 := by
  have hr := one_le_rate hrate
  have hdebt := debt_nonneg settings rate
  rw [respond_balance]
  apply max_le
  · linarith [min_le_right (account.balance + earned rate account.last now) (rate.toNat : ℚ)]
  · linarith

end Respond

namespace ResponseRateLimiter

variable {limiter : ResponseRateLimiter} {call : RrlCall} {key : AccountKey} {rate : UInt32} {now : Nat} {account : Account}

def check (limiter : ResponseRateLimiter) (call : RrlCall) : Verdict × ResponseRateLimiter :=
  limiter.checkAt call.client call.responseClass call.name call.now

def step (limiter : ResponseRateLimiter) (call : RrlCall) : ResponseRateLimiter := (limiter.check call).2

def keyOf (limiter : ResponseRateLimiter) (call : RrlCall) : AccountKey :=
  accountKey limiter.settings call.client call.responseClass call.name

def rateOf (limiter : ResponseRateLimiter) (call : RrlCall) : UInt32 := limiter.settings.rate call.responseClass

/-- The response is one that accounts are kept for. -/
def limits (limiter : ResponseRateLimiter) (call : RrlCall) : Bool :=
  limiter.enabled && !(limiter.rateOf call = 0 || limiter.exempt.any fun net => net.contains call.client)

theorem check_of_not_limits (h : limiter.limits call = false) : limiter.check call = (.send, limiter) := by
  unfold check checkAt
  unfold limits rateOf at h
  cases henabled : limiter.enabled with
  | false => rfl
  | true =>
    rw [henabled, Bool.true_and, Bool.not_eq_false'] at h
    simp only [Bool.not_true, Bool.false_eq_true, if_false, h, if_true]

theorem check_of_limits (h : limiter.limits call = true) :
    limiter.check call = (limiter.sweep call.now).track (limiter.keyOf call) (limiter.rateOf call) call.now := by
  unfold check checkAt keyOf rateOf
  unfold limits rateOf at h
  obtain ⟨henabled, hlimited⟩ := Bool.and_eq_true_iff.mp h
  rw [Bool.not_eq_true'] at hlimited
  simp only [henabled, hlimited, Bool.not_true, Bool.false_eq_true, if_false]

theorem rateOf_ne_zero (h : limiter.limits call = true) : limiter.rateOf call ≠ 0 := by
  intro hzero
  unfold limits at h
  simp [hzero] at h

theorem rate_keyOf : limiter.settings.rate (limiter.keyOf call).responseClass = limiter.rateOf call := rfl

/-! The sweep. -/

theorem lookup_sweep : (limiter.sweep now).accounts.lookup key =
    if SWEEP_EVERY ≤ now - limiter.lastSweep then
      (limiter.accounts.lookup key).filter fun account => now - account.last < limiter.idle
    else limiter.accounts.lookup key := by
  unfold sweep
  split
  · exact KeyedMap.lookup_retain _ _ _
  · rfl

theorem lookup_of_sweep (h : (limiter.sweep now).accounts.lookup key = some account) :
    limiter.accounts.lookup key = some account := by
  rw [lookup_sweep] at h
  split at h
  · exact (Option.filter_eq_some_iff.mp h).1
  · exact h

/-- An account that the sweep forgets has been idle for long. -/
theorem forgotten_idle (h : limiter.accounts.lookup key = some account)
    (hgone : (limiter.sweep now).accounts.lookup key = none) : limiter.idle ≤ now - account.last := by
  rw [lookup_sweep, h] at hgone
  split at hgone
  · simpa [Option.filter] using hgone
  · cases hgone

@[simp] theorem sweep_settings : (limiter.sweep now).settings = limiter.settings := by
  unfold sweep
  split <;> rfl

@[simp] theorem sweep_enabled : (limiter.sweep now).enabled = limiter.enabled := by
  unfold sweep
  split <;> rfl

@[simp] theorem sweep_exempt : (limiter.sweep now).exempt = limiter.exempt := by
  unfold sweep
  split <;> rfl

/-! The account of a response. -/

/-- The account that a response is charged to. -/
def chargedTo (limiter : ResponseRateLimiter) (key : AccountKey) (rate : UInt32) (now : Nat) : Option Account :=
  match limiter.accounts.lookup key with
  | some account => some account
  | none => if MAX_ACCOUNTS ≤ limiter.accounts.size then none else some ⟨rate.toNat, now, 0⟩

theorem track_untracked (h : limiter.chargedTo key rate now = none) : limiter.track key rate now = (.send, limiter) := by
  unfold chargedTo at h
  unfold track
  cases hlookup : limiter.accounts.lookup key with
  | some account =>
    rw [hlookup] at h
    cases h
  | none =>
    by_cases hfull : MAX_ACCOUNTS ≤ limiter.accounts.size
    · exact if_pos hfull
    · simp only [hlookup, if_neg hfull] at h
      cases h

theorem track_charged (h : limiter.chargedTo key rate now = some account) : limiter.track key rate now =
    ((account.respond limiter.settings rate now).1,
      { limiter with accounts := limiter.accounts.insert key (account.respond limiter.settings rate now).2 }) := by
  unfold chargedTo at h
  unfold track
  cases hlookup : limiter.accounts.lookup key with
  | some found =>
    rw [hlookup] at h
    cases h
    rfl
  | none =>
    by_cases hfull : MAX_ACCOUNTS ≤ limiter.accounts.size
    · simp only [hlookup, if_pos hfull] at h
      cases h
    · simp only [hlookup, if_neg hfull] at h
      cases h
      exact if_neg hfull

theorem track_settings : (limiter.track key rate now).2.settings = limiter.settings := by
  cases h : limiter.chargedTo key rate now with
  | none => rw [track_untracked h]
  | some account => rw [track_charged h]

@[simp] theorem step_settings : (limiter.step call).settings = limiter.settings := by
  unfold step
  cases h : limiter.limits call with
  | false => rw [check_of_not_limits h]
  | true => rw [check_of_limits h, track_settings, sweep_settings]

/-! Balances. -/

/-- The balance is between the greatest debt and the whole credit. -/
def Within (settings : RrlSettings) (key : AccountKey) (account : Account) : Prop :=
  settings.rate key.responseClass ≠ 0 ∧ -debt settings (settings.rate key.responseClass) ≤ account.balance ∧
    account.balance ≤ (settings.rate key.responseClass).toNat

def Bounded (limiter : ResponseRateLimiter) : Prop :=
  ∀ key account, limiter.accounts.lookup key = some account → Within limiter.settings key account

theorem bounded_sweep (h : limiter.Bounded) : (limiter.sweep now).Bounded := by
  intro key account hlookup
  rw [sweep_settings]
  exact h key account (lookup_of_sweep hlookup)

theorem bounded_track (h : limiter.Bounded) (hrate : limiter.settings.rate key.responseClass = rate) (hpos : rate ≠ 0) :
    (limiter.track key rate now).2.Bounded := by
  cases hcharged : limiter.chargedTo key rate now with
  | none =>
    rw [track_untracked hcharged]
    exact h
  | some charged =>
    rw [track_charged hcharged]
    intro other account hlookup
    rw [KeyedMap.lookup_insert] at hlookup
    split at hlookup
    next hsame =>
      cases hlookup
      rw [hsame]
      unfold Within
      dsimp only
      rw [hrate]
      refine ⟨hpos, respond_ge, ?_⟩
      linarith [respond_le limiter.settings now charged hpos]
    next => exact h other account hlookup

theorem bounded_step (h : limiter.Bounded) (call : RrlCall) : (limiter.step call).Bounded := by
  unfold step
  cases hlimits : limiter.limits call with
  | false =>
    rw [check_of_not_limits hlimits]
    exact h
  | true =>
    rw [check_of_limits hlimits]
    apply bounded_track (bounded_sweep h)
    · rw [sweep_settings, rate_keyOf]
    · exact rateOf_ne_zero hlimits

theorem bounded_new (settings : RrlSettings) (exempt : List Network) (now : Nat) : (new settings exempt now).Bounded := by
  intro key account hlookup
  cases hlookup

theorem bounded_run (settings : RrlSettings) (exempt : List Network) (now : Nat) (calls : List RrlCall) :
    (run step (new settings exempt now) calls).Bounded :=
  run_invariant Bounded (fun _ call h => bounded_step h call) calls (bounded_new settings exempt now)

end ResponseRateLimiter

end DaygleDns.Core
