import DaygleDns.Core.RrlAccounts

/-! When response rate limiting forgives a flood: whether the first response after a whole
window without one is sent. -/
namespace DaygleDns.Core

open Runs

namespace ResponseRateLimiter

variable {limiter : ResponseRateLimiter} {call : RrlCall} {key : AccountKey} {rate : UInt32} {now : Nat} {account : Account}

/-- Over a time an account earns what the time is worth. -/
theorem le_earned (rate : UInt32) {last : Nat} (secs : Nat) (h : last + secs * SECOND ≤ now) : (rate.toNat * secs : ℚ) ≤ earned rate last now := by
  have hgap : secs * SECOND ≤ now - last := by omega
  have hgap' : (secs : ℚ) * SECOND ≤ ((now - last : Nat) : ℚ) := by exact_mod_cast hgap
  have hsecond : (0 : ℚ) < SECOND := by
    unfold SECOND
    norm_num
  have hsecs : (secs : ℚ) ≤ ((now - last : Nat) : ℚ) / SECOND := by
    rw [le_div_iff₀ hsecond]
    exact hgap'
  have hrate : (0 : ℚ) ≤ rate.toNat := Nat.cast_nonneg _
  unfold earned
  rw [mul_comm]
  exact mul_le_mul_of_nonneg_right hsecs hrate

/-- An account that was idle for longer than the window is back to full credit. -/
theorem full_of_idle (h : Within limiter.settings key account) (hidle : limiter.idle ≤ now - account.last)
    (hrate : limiter.settings.rate key.responseClass = rate) :
    (rate.toNat : ℚ) ≤ account.balance + earned rate account.last now := by
  have hpos : 0 < limiter.idle := by
    unfold idle SECOND
    omega
  have hgap : account.last + (limiter.settings.windowSecs.toNat + 1) * SECOND ≤ now := by
    unfold idle at hidle hpos
    omega
  have hearned := le_earned rate _ hgap
  obtain ⟨_, hbalance, _⟩ := h
  rw [hrate] at hbalance
  unfold debt at hbalance
  push_cast at hearned
  linarith

/-- The response is sent if there is no account, or the account can pay. -/
theorem check_send_iff (h : limiter.Bounded) (hlimits : limiter.limits call = true) :
    (limiter.check call).1 = .send ↔ limiter.settings.windowSecs = 0 ∨
      ∀ account ∈ limiter.accounts.lookup (limiter.keyOf call),
        1 ≤ account.balance + earned (limiter.rateOf call) account.last call.now := by
  have hrate := rateOf_ne_zero hlimits
  have hone := one_le_rate hrate
  have hgone : (limiter.sweep call.now).accounts.lookup (limiter.keyOf call) = none →
      ∀ account ∈ limiter.accounts.lookup (limiter.keyOf call),
        1 ≤ account.balance + earned (limiter.rateOf call) account.last call.now := by
    intro hnone account haccount
    exact hone.trans (full_of_idle (h _ account haccount) (forgotten_idle haccount hnone) rate_keyOf)
  rw [check_of_limits hlimits]
  cases hlookup : (limiter.sweep call.now).accounts.lookup (limiter.keyOf call) with
  | some account =>
    have hcharged : (limiter.sweep call.now).chargedTo (limiter.keyOf call) (limiter.rateOf call) call.now = some account := by
      simp only [chargedTo, hlookup]
    rw [track_charged hcharged, respond_send_iff hrate, sweep_settings, lookup_of_sweep hlookup]
    simp
  | none =>
    have hright := hgone hlookup
    cases hcharged : (limiter.sweep call.now).chargedTo (limiter.keyOf call) (limiter.rateOf call) call.now with
    | none =>
      rw [track_untracked hcharged]
      simp only [true_iff]
      exact .inr hright
    | some account =>
      have hfresh : account = ⟨(limiter.rateOf call).toNat, call.now, 0⟩ := by
        unfold chargedTo at hcharged
        simp only [hlookup] at hcharged
        split at hcharged
        · cases hcharged
        · exact (Option.some.inj hcharged).symm
      rw [track_charged hcharged, respond_send_iff hrate, hfresh]
      apply iff_of_true
      · right
        have := earned_nonneg (limiter.rateOf call) call.now call.now
        linarith
      · exact .inr hright

/-- No response was charged to the account for a whole window. -/
def Quiet (limiter : ResponseRateLimiter) (call : RrlCall) : Prop :=
  ∀ account ∈ limiter.accounts.lookup (limiter.keyOf call),
    account.last + limiter.settings.windowSecs.toNat * SECOND ≤ call.now

instance (limiter : ResponseRateLimiter) (call : RrlCall) : Decidable (limiter.Quiet call) :=
  inferInstanceAs (Decidable (∀ account ∈ _, _))

/-- The response after a quiet window is sent. -/
def Forgives (limiter : ResponseRateLimiter) (call : RrlCall) : Prop :=
  limiter.Quiet call → (limiter.check call).1 = .send

/-- What the account earned in a quiet window pays off its debt, and a response. -/
def PaidOff (limiter : ResponseRateLimiter) (call : RrlCall) : Prop :=
  limiter.Quiet call → limiter.limits call = true → limiter.settings.windowSecs = 0 ∨
    ∀ account ∈ limiter.accounts.lookup (limiter.keyOf call),
      1 ≤ account.balance + earned (limiter.rateOf call) account.last call.now

theorem forgives_iff_paidOff (h : limiter.Bounded) (call : RrlCall) : limiter.Forgives call ↔ limiter.PaidOff call := by
  unfold Forgives PaidOff
  apply imp_congr_right
  intro _
  cases hlimits : limiter.limits call with
  | false => simp [check_of_not_limits hlimits]
  | true =>
    rw [check_send_iff h hlimits]
    simp

/-- A second more than the window pays off every debt. -/
theorem paidOff_of_longer (h : limiter.Bounded) (hlonger : ∀ account ∈ limiter.accounts.lookup (limiter.keyOf call),
    account.last + (limiter.settings.windowSecs.toNat + 1) * SECOND ≤ call.now) : limiter.PaidOff call := by
  intro _ hlimits
  right
  intro account haccount
  have hgap := hlonger account haccount
  have hidle : limiter.idle ≤ call.now - account.last := by
    unfold idle
    omega
  exact (one_le_rate (rateOf_ne_zero hlimits)).trans (full_of_idle (h _ account haccount) hidle rate_keyOf)

/-- Every response after a quiet window is sent exactly where the debt is paid off by then. -/
theorem forgiven_when_paid_off (settings : RrlSettings) (exempt : List Network) (start : Nat) (calls : List RrlCall) :
    Each step Forgives (new settings exempt start) calls ↔ Each step PaidOff (new settings exempt start) calls :=
  each_congr Bounded Forgives PaidOff (fun _ call h => bounded_step h call)
    (fun _ call h => forgives_iff_paidOff h call) calls (bounded_new settings exempt start)

/-- One response a second, and a window of one second. -/
def oneASecond : RrlSettings := ⟨true, 1, 1, 1, 1, 0, 24, 56⟩

def errorAt (now : Nat) : RrlCall := ⟨.v4 0xC0000201, .error, [], now⟩

/-- Three responses at once use up the credit and the whole debt, and a second pays off the
debt alone. -/
theorem forgiven_after_window_fails :
    ¬ ∀ (settings : RrlSettings) (exempt : List Network) (start : Nat) (calls : List RrlCall),
      Each step Forgives (new settings exempt start) calls := by
  intro h
  have hrun := h oneASecond [] 0 [errorAt 0, errorAt 0, errorAt 0, errorAt SECOND]
  have hlast := hrun.2.2.2.1
  unfold Forgives at hlast
  revert hlast
  decide +kernel

end ResponseRateLimiter

end DaygleDns.Core
