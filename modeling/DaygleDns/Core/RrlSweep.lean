import DaygleDns.Core.RrlForgiveness
import Mathlib.Data.Nat.ModEq

/-! Whether it shows that response rate limiting forgets idle accounts: a run beside the same
run without the sweep. -/
namespace DaygleDns.Core

open Runs

namespace ResponseRateLimiter

variable {limiter kept : ResponseRateLimiter} {call : RrlCall} {key : AccountKey} {rate slip : UInt32} {now : Nat}
  {account first second : Account} {settings : RrlSettings}

/-- `checkAt` without the sweep. -/
def checkKept (limiter : ResponseRateLimiter) (call : RrlCall) : Verdict × ResponseRateLimiter :=
  if limiter.limits call then limiter.track (limiter.keyOf call) (limiter.rateOf call) call.now else (.send, limiter)

/-- A call in both runs. -/
def stepBoth (pair : ResponseRateLimiter × ResponseRateLimiter) (call : RrlCall) : ResponseRateLimiter × ResponseRateLimiter :=
  (pair.1.step call, (pair.2.checkKept call).2)

def SameVerdict (pair : ResponseRateLimiter × ResponseRateLimiter) (call : RrlCall) : Prop :=
  (pair.1.check call).1 = (pair.2.checkKept call).1

instance (pair : ResponseRateLimiter × ResponseRateLimiter) (call : RrlCall) : Decidable (SameVerdict pair call) :=
  inferInstanceAs (Decidable (_ = _))

/-- There are fewer accounts than may be tracked. -/
def HasRoom (pair : ResponseRateLimiter × ResponseRateLimiter) (_call : RrlCall) : Prop :=
  pair.2.accounts.size < MAX_ACCOUNTS

instance (pair : ResponseRateLimiter × ResponseRateLimiter) (call : RrlCall) : Decidable (HasRoom pair call) :=
  inferInstanceAs (Decidable (_ < _))

/-- What a sweep forgets has had a whole number of slips, and no counter starts over that
does not do so with a slip. -/
def SweepsCleanly (pair : ResponseRateLimiter × ResponseRateLimiter) (call : RrlCall) : Prop :=
  (pair.1.limits call = true → SWEEP_EVERY ≤ call.now - pair.1.lastSweep →
    ∀ entry ∈ pair.1.accounts.entries, pair.1.idle ≤ call.now - entry.2.last →
      pair.1.settings.slip = 0 ∨ pair.1.settings.slip.toNat ∣ entry.2.limited.toNat) ∧
  (pair.1.settings.slip = 0 ∨ pair.1.settings.slip.toNat ∣ 2 ^ 32 ∨
    ∀ account ∈ pair.2.accounts.lookup (pair.2.keyOf call), account.limited.toNat + 1 < 2 ^ 32)

instance (pair : ResponseRateLimiter × ResponseRateLimiter) (call : RrlCall) : Decidable (SweepsCleanly pair call) :=
  inferInstanceAs (Decidable (_ ∧ _))

/-! Counters. -/

/-- Two counters that pick the same of the responses to come for a slip. -/
def SameSlips (slip first second : UInt32) : Prop :=
  slip = 0 ∨ first.toNat % slip.toNat = second.toNat % slip.toNat ∧ (slip.toNat ∣ 2 ^ 32 ∨ first.toNat ≤ second.toNat)

/-- The counter does not start over, or does so with a slip. -/
def Counts32 (slip counter : UInt32) : Prop := slip = 0 ∨ slip.toNat ∣ 2 ^ 32 ∨ counter.toNat + 1 < 2 ^ 32

theorem sameSlips_refl (slip counter : UInt32) : SameSlips slip counter counter := .inr ⟨rfl, .inr (Nat.le_refl _)⟩

theorem sameSlips_succ {a b : UInt32} (h : SameSlips slip a b) (hcounts : Counts32 slip b) :
    SameSlips slip (a + 1) (b + 1) := by
  rcases h with hzero | ⟨hmod, hle⟩
  · exact .inl hzero
  rcases hcounts with hzero | hdvd | hlt
  · exact .inl hzero
  · right
    refine ⟨?_, .inl hdvd⟩
    rw [UInt32.toNat_add, UInt32.toNat_add, Nat.mod_mod_of_dvd _ hdvd, Nat.mod_mod_of_dvd _ hdvd]
    exact Nat.ModEq.add_right _ hmod
  · rcases hle with hdvd | hle
    · right
      refine ⟨?_, .inl hdvd⟩
      rw [UInt32.toNat_add, UInt32.toNat_add, Nat.mod_mod_of_dvd _ hdvd, Nat.mod_mod_of_dvd _ hdvd]
      exact Nat.ModEq.add_right _ hmod
    · right
      have hone : (1 : UInt32).toNat = 1 := rfl
      have hfirst : (a.toNat + 1) % 2 ^ 32 = a.toNat + 1 := Nat.mod_eq_of_lt (by omega)
      rw [UInt32.toNat_add, UInt32.toNat_add, hone, hfirst, Nat.mod_eq_of_lt hlt]
      exact ⟨Nat.ModEq.add_right _ hmod, .inr (by omega)⟩

theorem slips_iff {a b : UInt32} (h : SameSlips slip a b) (hslip : slip ≠ 0) : a % slip = 0 ↔ b % slip = 0 := by
  have hmod := (h.resolve_left hslip).1
  rw [← UInt32.toNat_inj, ← UInt32.toNat_inj, UInt32.toNat_mod, UInt32.toNat_mod, hmod]

/-! Two accounts. -/

/-- Accounts that can pay the same, and pick the same responses for a slip. -/
structure Alike (slip : UInt32) (first second : Account) : Prop where
  balance : first.balance = second.balance
  last : first.last = second.last
  slips : SameSlips slip first.limited second.limited

theorem respond_alike (hpays : min (first.balance + earned rate first.last now) rate.toNat =
      min (second.balance + earned rate second.last now) rate.toNat)
    (hslips : SameSlips settings.slip first.limited second.limited) (hcounts : Counts32 settings.slip second.limited) :
    (first.respond settings rate now).1 = (second.respond settings rate now).1 ∧
      Alike settings.slip (first.respond settings rate now).2 (second.respond settings rate now).2 := by
  have hsucc := sameSlips_succ hslips hcounts
  unfold Account.respond
  simp only [hpays]
  split
  · exact ⟨rfl, rfl, rfl, hslips⟩
  · refine ⟨?_, rfl, rfl, hsucc⟩
    by_cases hslip : settings.slip = 0
    · simp [hslip]
    · simp only [slips_iff hsucc hslip]

/-! Two runs. -/

/-- The run with the sweep beside the one without, at an instant: what the first has
forgotten is as good as new. -/
structure Beside (limiter kept : ResponseRateLimiter) (now : Nat) : Prop where
  enabled : limiter.enabled = kept.enabled
  settings : limiter.settings = kept.settings
  exempt : limiter.exempt = kept.exempt
  bounded : kept.Bounded
  tracked : ∀ key first, limiter.accounts.lookup key = some first →
    ∃ second, kept.accounts.lookup key = some second ∧ Alike kept.settings.slip first second
  forgotten : ∀ key second, kept.accounts.lookup key = some second → limiter.accounts.lookup key = none →
    kept.idle ≤ now - second.last ∧ SameSlips kept.settings.slip 0 second.limited

theorem beside_limits (h : Beside limiter kept now) (call : RrlCall) : limiter.limits call = kept.limits call := by
  unfold limits rateOf
  rw [h.enabled, h.settings, h.exempt]

theorem beside_later {later : Nat} (h : Beside limiter kept now) (hle : now ≤ later) : Beside limiter kept later where
  enabled := h.enabled
  settings := h.settings
  exempt := h.exempt
  bounded := h.bounded
  tracked := h.tracked
  forgotten := by
    intro key second hsecond hnone
    obtain ⟨hidle, hslips⟩ := h.forgotten key second hsecond hnone
    exact ⟨hidle.trans (Nat.sub_le_sub_right hle _), hslips⟩

theorem beside_sweep (h : Beside limiter kept call.now) (hlimits : limiter.limits call = true)
    (hclean : SweepsCleanly (limiter, kept) call) : Beside (limiter.sweep call.now) kept call.now where
  enabled := by rw [sweep_enabled, h.enabled]
  settings := by rw [sweep_settings, h.settings]
  exempt := by rw [sweep_exempt, h.exempt]
  bounded := h.bounded
  tracked := fun key first hfirst => h.tracked key first (lookup_of_sweep hfirst)
  forgotten := by
    intro key second hsecond hnone
    cases hfirst : limiter.accounts.lookup key with
    | none => exact h.forgotten key second hsecond hfirst
    | some first =>
      obtain ⟨other, hother, halike⟩ := h.tracked key first hfirst
      obtain rfl : other = second := Option.some.inj (hother.symm.trans hsecond)
      have hidle := forgotten_idle hfirst hnone
      have hdue : SWEEP_EVERY ≤ call.now - limiter.lastSweep := by
        by_contra hearly
        rw [lookup_sweep, if_neg hearly, hfirst] at hnone
        cases hnone
      have hmem : (⟨key, first⟩ : Sigma fun _ : AccountKey => Account) ∈ limiter.accounts.entries :=
        AList.mem_lookup_iff.mp hfirst
      have hwhole := hclean.1 hlimits hdue _ hmem hidle
      refine ⟨?_, ?_⟩
      · rw [← halike.last]
        have hsame : limiter.idle = kept.idle := by
          unfold idle
          rw [h.settings]
        exact hsame ▸ hidle
      · rw [h.settings] at hwhole
        rcases hwhole with hzero | hdvd
        · exact .inl hzero
        · rcases halike.slips with hzero | ⟨hmod, _⟩
          · exact .inl hzero
          · right
            rw [Nat.mod_eq_zero_of_dvd hdvd] at hmod
            exact ⟨by simpa using hmod, .inr (Nat.zero_le _)⟩

theorem beside_size (h : Beside limiter kept now) : limiter.accounts.size ≤ kept.accounts.size := by
  apply KeyedMap.size_le_of_keys
  intro key hkey
  obtain ⟨first, hfirst⟩ := Option.isSome_iff_exists.mp hkey
  obtain ⟨second, hsecond, _⟩ := h.tracked key first hfirst
  rw [hsecond]
  rfl

/-- The accounts that the two runs charge. -/
theorem charged_alike (key : AccountKey) (rate : UInt32) (h : Beside limiter kept now) (hroom : kept.accounts.size < MAX_ACCOUNTS)
    (hrate : kept.settings.rate key.responseClass = rate) :
    ∃ first second, limiter.chargedTo key rate now = some first ∧ kept.chargedTo key rate now = some second ∧
      min (first.balance + earned rate first.last now) rate.toNat =
        min (second.balance + earned rate second.last now) rate.toNat ∧
      SameSlips kept.settings.slip first.limited second.limited ∧
      (second.limited = 0 ∨ kept.accounts.lookup key = some second) := by
  have hfirstRoom : ¬ MAX_ACCOUNTS ≤ limiter.accounts.size := by
    have := beside_size h
    omega
  have hsecondRoom : ¬ MAX_ACCOUNTS ≤ kept.accounts.size := by omega
  unfold chargedTo
  cases hfirst : limiter.accounts.lookup key with
  | some first =>
    obtain ⟨second, hsecond, halike⟩ := h.tracked key first hfirst
    refine ⟨first, second, rfl, ?_, ?_, halike.slips, .inr hsecond⟩
    · simp only [hsecond]
    · rw [halike.balance, halike.last]
  | none =>
    simp only [if_neg hfirstRoom]
    cases hsecond : kept.accounts.lookup key with
    | none =>
      simp only [if_neg hsecondRoom]
      exact ⟨_, _, rfl, rfl, rfl, sameSlips_refl _ _, .inl rfl⟩
    | some second =>
      obtain ⟨hidle, hslips⟩ := h.forgotten key second hsecond hfirst
      have hfull := full_of_idle (h.bounded key second hsecond) hidle hrate
      refine ⟨_, second, rfl, rfl, ?_, hslips, .inr rfl⟩
      rw [min_eq_right hfull]
      apply min_eq_right
      linarith [earned_nonneg rate now now]

/-- Both runs keep what the account of a response became. -/
theorem beside_insert (h : Beside limiter kept now) (hbounded : Within kept.settings key second)
    (halike : Alike kept.settings.slip first second) :
    Beside { limiter with accounts := limiter.accounts.insert key first }
      { kept with accounts := kept.accounts.insert key second } now where
  enabled := h.enabled
  settings := h.settings
  exempt := h.exempt
  bounded := by
    intro other account hlookup
    rw [KeyedMap.lookup_insert] at hlookup
    split at hlookup
    next hsame =>
      cases hlookup
      rw [hsame]
      exact hbounded
    next => exact h.bounded other account hlookup
  tracked := by
    intro other account hlookup
    rw [KeyedMap.lookup_insert] at hlookup ⊢
    split at hlookup
    next hsame =>
      cases hlookup
      exact ⟨second, if_pos hsame, halike⟩
    next hother =>
      obtain ⟨found, hfound, hlike⟩ := h.tracked other account hlookup
      exact ⟨found, by rwa [if_neg hother], hlike⟩
  forgotten := by
    intro other account hlookup hnone
    rw [KeyedMap.lookup_insert] at hlookup hnone
    split at hnone
    next => cases hnone
    next hother =>
      rw [if_neg hother] at hlookup
      exact h.forgotten other account hlookup hnone

/-- One call in both runs. -/
theorem beside_step (h : Beside limiter kept now) (hle : now ≤ call.now) (hroom : HasRoom (limiter, kept) call)
    (hclean : SweepsCleanly (limiter, kept) call) :
    SameVerdict (limiter, kept) call ∧
      Beside (stepBoth (limiter, kept) call).1 (stepBoth (limiter, kept) call).2 call.now := by
  have hnow := beside_later h hle
  have hlimits := beside_limits h call
  unfold SameVerdict stepBoth step checkKept
  dsimp only
  rw [← hlimits]
  cases hlimited : limiter.limits call with
  | false =>
    rw [check_of_not_limits hlimited]
    exact ⟨rfl, hnow⟩
  | true =>
    have hsweep := beside_sweep hnow hlimited hclean
    have hkey : limiter.keyOf call = kept.keyOf call := by
      unfold keyOf
      rw [h.settings]
    have hrate : limiter.rateOf call = kept.rateOf call := by
      unfold rateOf
      rw [h.settings]
    have hpos : kept.rateOf call ≠ 0 := rateOf_ne_zero (hlimits ▸ hlimited)
    rw [check_of_limits hlimited, hkey, hrate, if_pos rfl]
    obtain ⟨first, second, hfirst, hsecond, hpays, hslips, hwhose⟩ :=
      charged_alike (kept.keyOf call) (kept.rateOf call) hsweep hroom rfl
    have hcounts : Counts32 kept.settings.slip second.limited := by
      rcases hclean.2 with hzero | hdvd | hlt
      · exact .inl (h.settings ▸ hzero)
      · exact .inr (.inl (h.settings ▸ hdvd))
      · right
        right
        rcases hwhose with hfresh | hfound
        · rw [hfresh]
          decide
        · exact hlt second hfound
    obtain ⟨hverdict, halike⟩ := respond_alike hpays hslips hcounts
    have hwithin : Within kept.settings (kept.keyOf call)
        (second.respond kept.settings (kept.rateOf call) call.now).2 := by
      unfold Within
      rw [rate_keyOf]
      refine ⟨hpos, respond_ge, ?_⟩
      linarith [respond_le kept.settings call.now second hpos]
    have hinsert := beside_insert hsweep hwithin halike
    rw [hsweep.settings] at hinsert
    rw [track_charged hfirst, track_charged hsecond, hsweep.settings]
    exact ⟨hverdict, hinsert⟩

/-- The verdicts are those of the run without the sweep, if what a sweep forgets has had a
whole number of slips. -/
theorem forgetting_changes_nothing (settings : RrlSettings) (exempt : List Network) (start : Nat) (calls : List RrlCall)
    (hnow : calls.Pairwise fun first second => first.now ≤ second.now)
    (hroom : Each stepBoth HasRoom (new settings exempt start, new settings exempt start) calls)
    (hclean : Each stepBoth SweepsCleanly (new settings exempt start, new settings exempt start) calls) :
    Each stepBoth SameVerdict (new settings exempt start, new settings exempt start) calls := by
  have hrun : ∀ (calls : List RrlCall) (pair : ResponseRateLimiter × ResponseRateLimiter) (now : Nat),
      Beside pair.1 pair.2 now → (∀ call ∈ calls, now ≤ call.now) →
      calls.Pairwise (fun first second => first.now ≤ second.now) →
      Each stepBoth HasRoom pair calls → Each stepBoth SweepsCleanly pair calls → Each stepBoth SameVerdict pair calls := by
    intro calls
    induction calls with
    | nil => exact fun _ _ _ _ _ _ _ => trivial
    | cons call calls ih =>
      rintro ⟨limiter, kept⟩ now h hlater hnow ⟨hroom, hrooms⟩ ⟨hclean, hcleans⟩
      obtain ⟨hfirst, hrest⟩ := List.pairwise_cons.mp hnow
      obtain ⟨hsame, hnext⟩ := beside_step h (hlater call List.mem_cons_self) hroom hclean
      exact ⟨hsame, ih _ call.now hnext hfirst hrest hrooms hcleans⟩
  apply hrun calls _ 0 _ (fun _ _ => Nat.zero_le _) hnow hroom hclean
  refine ⟨rfl, rfl, rfl, bounded_new settings exempt start, ?_, ?_⟩
  · intro key first hfirst
    cases hfirst
  · intro key second hsecond
    cases hsecond

/-- A slip for every second response that is limited. -/
def everySecond : RrlSettings := ⟨true, 1, 1, 1, 1, 2, 24, 56⟩

/-- An account that is forgotten after two limited responses. -/
theorem forgetting_changes_nothing_whole :
    let limiter := new everySecond [] 0
    let calls := [errorAt 0, errorAt 0, errorAt 0, errorAt (12 * SECOND), errorAt (12 * SECOND)]
    Each stepBoth SameVerdict (limiter, limiter) calls :=
  forgetting_changes_nothing everySecond [] 0
    [errorAt 0, errorAt 0, errorAt 0, errorAt (12 * SECOND), errorAt (12 * SECOND)]
    (by decide +kernel) (by decide +kernel) (by decide +kernel)

/-- An account that is forgotten after one: the next response that is limited would have
been sent truncated. -/
theorem forgetting_shows :
    ¬ ∀ (settings : RrlSettings) (exempt : List Network) (start : Nat) (calls : List RrlCall),
      calls.Pairwise (fun first second => first.now ≤ second.now) →
      Each stepBoth HasRoom (new settings exempt start, new settings exempt start) calls →
      Each stepBoth SameVerdict (new settings exempt start, new settings exempt start) calls := by
  intro h
  have hrun := h everySecond [] 0 [errorAt 0, errorAt 0, errorAt (12 * SECOND), errorAt (12 * SECOND)]
    (by decide) (by decide)
  revert hrun
  decide +kernel

end ResponseRateLimiter

end DaygleDns.Core
