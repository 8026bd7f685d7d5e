import DaygleDns.Core.RrlForgiveness

/-! How many responses of one account are sent over a time, in whatever order the calls that
account for them get hold of the lock. -/
namespace DaygleDns.Core

open Runs

namespace ResponseRateLimiter

variable {limiter : ResponseRateLimiter} {call : RrlCall} {key : AccountKey} {rate : UInt32} {now : Nat} {account : Account}

/-- The account that a response is sent or limited by. -/
def accountedTo (limiter : ResponseRateLimiter) (call : RrlCall) : Option AccountKey :=
  if limiter.limits call then
    ((limiter.sweep call.now).chargedTo (limiter.keyOf call) (limiter.rateOf call) call.now).map fun _ => limiter.keyOf call
  else none

/-- How many responses of the account are sent. -/
def sends (key : AccountKey) : ResponseRateLimiter → List RrlCall → Nat
  | _, [] => 0
  | limiter, call :: calls =>
      (if limiter.accountedTo call = some key ∧ (limiter.check call).1 = .send then 1 else 0) +
        sends key (limiter.step call) calls

/-- The instants of the account's responses do not go back. Where the account was forgotten
in between, it is a second older. -/
def Orderly (key : AccountKey) : ResponseRateLimiter → Option Nat → List RrlCall → Prop
  | _, _, [] => True
  | limiter, seen, call :: calls =>
      if limiter.accountedTo call = some key then
        (∀ last ∈ seen, if ((limiter.sweep call.now).accounts.lookup key).isSome then last ≤ call.now
          else last + SECOND ≤ call.now) ∧
          Orderly key (limiter.step call) (some call.now) calls
      else Orderly key (limiter.step call) seen calls

instance decidableOrderly (key : AccountKey) : ∀ (limiter : ResponseRateLimiter) (seen : Option Nat) (calls : List RrlCall),
    Decidable (Orderly key limiter seen calls)
  | _, _, [] => .isTrue trivial
  | limiter, seen, call :: calls =>
      have := decidableOrderly key (limiter.step call) (some call.now) calls
      have := decidableOrderly key (limiter.step call) seen calls
      inferInstanceAs (Decidable (if limiter.accountedTo call = some key then _ ∧ _ else _))

theorem earned_add (rate : UInt32) {first second third : Nat} (h : first ≤ second) (h' : second ≤ third) :
    earned rate first second + earned rate second third = earned rate first third := by
  have hgap : ((third - first : Nat) : ℚ) = ((second - first : Nat) : ℚ) + ((third - second : Nat) : ℚ) := by
    rw [← Nat.cast_add]
    congr 1
    omega
  unfold earned
  rw [hgap, add_div, add_mul]

theorem earned_mono (rate : UInt32) {first second : Nat} (third : Nat) (h : first ≤ second) :
    earned rate second third ≤ earned rate first third := by
  rcases Nat.le_total second third with h' | h'
  · rw [← earned_add rate h h']
    linarith [earned_nonneg rate first second]
  · have hzero : earned rate second third = 0 := by
      unfold earned
      rw [Nat.sub_eq_zero_of_le h']
      simp
    rw [hzero]
    exact earned_nonneg rate first third

/-- What the responses of an account may cost from now on. -/
def credit (account : Option Account) : ℚ := (account.map fun account => max account.balance 0).getD 0

theorem credit_nonneg (account : Option Account) : 0 ≤ credit account := by
  cases account with
  | none => exact le_refl _
  | some account => exact le_max_right _ _

/-- A response that is sent is paid for. -/
theorem respond_pays {settings : RrlSettings} (now : Nat) (account : Account) (hrate : rate ≠ 0) (hwindow : settings.windowSecs ≠ 0) :
    (if (account.respond settings rate now).1 = .send then 1 else 0) + credit (some (account.respond settings rate now).2) ≤
      max (min (account.balance + earned rate account.last now) rate.toNat) 0 := by
  have hdebt := debt_pos hrate hwindow
  unfold credit
  simp only [Option.map_some, Option.getD_some]
  by_cases hsend : (account.respond settings rate now).1 = .send
  · have hpos := respond_send.mp hsend
    rw [if_pos hsend, max_eq_left hpos]
    rw [respond_balance] at hpos ⊢
    rcases le_total (min (account.balance + earned rate account.last now) rate.toNat - 1) (-debt settings rate) with hle | hle
    · rw [max_eq_right hle] at hpos
      linarith
    · rw [max_eq_left hle]
      apply le_max_of_le_left
      linarith
  · have hneg : (account.respond settings rate now).2.balance < 0 := lt_of_not_ge fun hge => hsend (respond_send.mpr hge)
    rw [if_neg hsend, max_eq_right (le_of_lt hneg)]
    exact le_max_of_le_right (by norm_num)

/-! The account of a key after a call. -/

theorem lookup_step_other (h : limiter.accountedTo call ≠ some key) :
    (limiter.step call).accounts.lookup key = limiter.accounts.lookup key ∨
      (limiter.step call).accounts.lookup key = none := by
  have hsweep : (limiter.sweep call.now).accounts.lookup key = limiter.accounts.lookup key ∨
      (limiter.sweep call.now).accounts.lookup key = none := by
    cases hlookup : (limiter.sweep call.now).accounts.lookup key with
    | none => exact .inr rfl
    | some account => exact .inl (lookup_of_sweep hlookup).symm
  unfold step
  cases hlimits : limiter.limits call with
  | false =>
    rw [check_of_not_limits hlimits]
    exact .inl rfl
  | true =>
    rw [check_of_limits hlimits]
    cases hcharged : (limiter.sweep call.now).chargedTo (limiter.keyOf call) (limiter.rateOf call) call.now with
    | none =>
      rw [track_untracked hcharged]
      exact hsweep
    | some charged =>
      have hother : key ≠ limiter.keyOf call := by
        rintro rfl
        apply h
        simp [accountedTo, hlimits, hcharged]
      rw [track_charged hcharged, KeyedMap.lookup_insert, if_neg hother]
      exact hsweep

/-- A response that is accounted for: the account that it finds, and what it leaves. -/
theorem accounted_cases (h : limiter.accountedTo call = some key) :
    limiter.keyOf call = key ∧ limiter.rateOf call ≠ 0 ∧ ∃ charged : Account,
      ((limiter.sweep call.now).accounts.lookup key = some charged ∨
        (limiter.sweep call.now).accounts.lookup key = none ∧ charged = ⟨(limiter.rateOf call).toNat, call.now, 0⟩) ∧
      (limiter.check call).1 = (charged.respond limiter.settings (limiter.rateOf call) call.now).1 ∧
      (limiter.step call).accounts.lookup key =
        some (charged.respond limiter.settings (limiter.rateOf call) call.now).2 := by
  unfold accountedTo at h
  split at h
  next hlimits =>
    obtain ⟨charged, hcharged, rfl⟩ := Option.map_eq_some_iff.mp h
    refine ⟨rfl, rateOf_ne_zero hlimits, charged, ?_, ?_, ?_⟩
    · unfold chargedTo at hcharged
      cases hlookup : (limiter.sweep call.now).accounts.lookup (limiter.keyOf call) with
      | some account =>
        simp only [hlookup] at hcharged
        exact .inl hcharged
      | none =>
        simp only [hlookup] at hcharged
        split at hcharged
        · cases hcharged
        · exact .inr ⟨rfl, (Option.some.inj hcharged).symm⟩
    · rw [check_of_limits hlimits, track_charged hcharged, sweep_settings]
    · unfold step
      rw [check_of_limits hlimits, track_charged hcharged, sweep_settings, KeyedMap.lookup_insert, if_pos rfl]
  next => cases h

/-! The bound. -/

/-- How many responses can be sent up to the last instant; `seen` is that of the response before. -/
def allowance (key : AccountKey) (rate : UInt32) (earliest latest : Nat) (limiter : ResponseRateLimiter) : Option Nat → ℚ
  | none => rate.toNat + earned rate earliest latest
  | some last => credit (limiter.accounts.lookup key) + earned rate last latest

/-- The account's last response is the one that was seen last. -/
def SeenLast (key : AccountKey) (limiter : ResponseRateLimiter) (seen : Option Nat) : Prop :=
  ∀ last ∈ seen, ∀ account ∈ limiter.accounts.lookup key, account.last = last

/-- What a response leaves of the allowance. -/
theorem allowance_accounted {earliest latest : Nat} {seen : Option Nat} (hwindow : limiter.settings.windowSecs ≠ 0)
    (hrate : limiter.settings.rate key.responseClass = rate) (hseen : SeenLast key limiter seen)
    (haccounted : limiter.accountedTo call = some key) (hfirst : earliest ≤ call.now) (hlatest : call.now ≤ latest)
    (horderly : ∀ last ∈ seen, if ((limiter.sweep call.now).accounts.lookup key).isSome then last ≤ call.now
      else last + SECOND ≤ call.now) :
    (if (limiter.check call).1 = .send then 1 else 0) +
        allowance key rate earliest latest (limiter.step call) (some call.now) ≤
      allowance key rate earliest latest limiter seen := by
  obtain ⟨hkey, hpos, charged, hfound, hverdict, hlookup⟩ := accounted_cases haccounted
  have hrateOf : limiter.rateOf call = rate := by rw [← rate_keyOf, hkey, hrate]
  rw [hrateOf] at hpos hfound hverdict hlookup
  have hpays := respond_pays call.now charged hpos hwindow
  have hafter : allowance key rate earliest latest (limiter.step call) (some call.now) =
      credit (some (charged.respond limiter.settings rate call.now).2) + earned rate call.now latest := by
    unfold allowance
    rw [hlookup]
  have hcap : max (min (charged.balance + earned rate charged.last call.now) rate.toNat) 0 ≤ (rate.toNat : ℚ) :=
    max_le (min_le_right _ _) (Nat.cast_nonneg _)
  rw [hverdict, hafter]
  cases seen with
  | none =>
    have hmono := earned_mono rate latest hfirst
    simp only [allowance]
    linarith
  | some last =>
    have horder := horderly last rfl
    have hcredit := credit_nonneg (limiter.accounts.lookup key)
    simp only [allowance]
    rcases hfound with hkept | ⟨hgone, rfl⟩
    · -- the account is still there, and earned what the time since is worth
      rw [hkept, Option.isSome_some, if_pos rfl] at horder
      have hbefore := lookup_of_sweep hkept
      rw [hseen last rfl charged hbefore] at hpays
      have hsum := earned_add rate horder hlatest
      have hearned := earned_nonneg rate last call.now
      have hmax : max (min (charged.balance + earned rate last call.now) rate.toNat) 0 ≤
          max charged.balance 0 + earned rate last call.now := by
        apply max_le
        · have := le_max_left charged.balance 0
          linarith [min_le_left (charged.balance + earned rate last call.now) (rate.toNat : ℚ)]
        · have := le_max_right charged.balance 0
          linarith
      rw [hbefore]
      have : credit (some charged) = max charged.balance 0 := rfl
      linarith
    · -- it was forgotten, and a second is worth the credit of a new one
      rw [hgone, if_neg (by simp)] at horder
      have hsecond := le_earned rate 1 (show last + 1 * SECOND ≤ call.now by rwa [Nat.one_mul])
      have hsum := earned_add rate (show last ≤ call.now by omega) hlatest
      push_cast at hsecond
      linarith

theorem allowance_other (rate : UInt32) (earliest latest : Nat) (seen : Option Nat) (h : limiter.accountedTo call ≠ some key) :
    allowance key rate earliest latest (limiter.step call) seen ≤ allowance key rate earliest latest limiter seen := by
  cases seen with
  | none => exact le_refl _
  | some last =>
    simp only [allowance]
    rcases lookup_step_other h with hsame | hnone
    · rw [hsame]
    · have := credit_nonneg (limiter.accounts.lookup key)
      rw [hnone]
      have : credit (none : Option Account) = 0 := rfl
      linarith

theorem sends_le_allowance (calls : List RrlCall) {limiter : ResponseRateLimiter} {seen : Option Nat} {earliest latest : Nat}
    (hwindow : limiter.settings.windowSecs ≠ 0) (hrate : limiter.settings.rate key.responseClass = rate)
    (hseen : SeenLast key limiter seen)
    (hbetween : ∀ call ∈ calls, limiter.keyOf call = key → earliest ≤ call.now ∧ call.now ≤ latest)
    (horderly : Orderly key limiter seen calls) :
    (sends key limiter calls : ℚ) ≤ allowance key rate earliest latest limiter seen := by
  induction calls generalizing limiter seen with
  | nil =>
    cases seen with
    | none =>
      have hearned := earned_nonneg rate earliest latest
      have hcredit : (0 : ℚ) ≤ rate.toNat := Nat.cast_nonneg _
      simp only [sends, allowance, Nat.cast_zero]
      linarith
    | some last =>
      have hearned := earned_nonneg rate last latest
      have hcredit := credit_nonneg (limiter.accounts.lookup key)
      simp only [sends, allowance, Nat.cast_zero]
      linarith
  | cons call calls ih =>
    have hkeyOf : ∀ other, (limiter.step call).keyOf other = limiter.keyOf other := by
      intro other
      unfold keyOf
      rw [step_settings]
    have hlater : ∀ other ∈ calls, (limiter.step call).keyOf other = key → earliest ≤ other.now ∧ other.now ≤ latest := by
      intro other hother hkey
      rw [hkeyOf] at hkey
      exact hbetween other (List.mem_cons_of_mem _ hother) hkey
    unfold Orderly at horderly
    unfold sends
    by_cases haccounted : limiter.accountedTo call = some key
    · rw [if_pos haccounted] at horderly
      obtain ⟨hfirst, hlatest⟩ := hbetween call List.mem_cons_self (accounted_cases haccounted).1
      have hstep := allowance_accounted hwindow hrate hseen haccounted hfirst hlatest horderly.1
      have hnext : SeenLast key (limiter.step call) (some call.now) := by
        obtain ⟨_, _, charged, _, _, hlookup⟩ := accounted_cases haccounted
        intro last hlast account haccount
        cases hlast
        rw [hlookup] at haccount
        cases haccount
        exact respond_last
      have hrest := ih (by rwa [step_settings]) (by rwa [step_settings]) hnext hlater horderly.2
      push_cast
      simp only [haccounted, true_and]
      linarith
    · rw [if_neg haccounted] at horderly
      have hstep := allowance_other rate earliest latest seen haccounted
      have hnext : SeenLast key (limiter.step call) seen := by
        intro last hlast account haccount
        rcases lookup_step_other haccounted with hsame | hnone
        · rw [hsame] at haccount
          exact hseen last hlast account haccount
        · rw [hnone] at haccount
          cases haccount
      have hrest := ih (by rwa [step_settings]) (by rwa [step_settings]) hnext hlater horderly
      simp only [haccounted, false_and, if_false, Nat.zero_add]
      linarith

theorem run_settings (calls : List RrlCall) : (run step limiter calls).settings = limiter.settings :=
  run_invariant (fun after : ResponseRateLimiter => after.settings = limiter.settings) (fun _ _ h => step_settings.trans h) calls rfl

/-- No more responses of an account are sent than it has credit for and earns, if the
instants of its responses do not go back. -/
theorem sends_within_credit (settings : RrlSettings) (exempt : List Network) (start : Nat) (earlier calls : List RrlCall)
    (key : AccountKey) (earliest latest : Nat) (hwindow : settings.windowSecs ≠ 0)
    (hbetween : ∀ call ∈ calls, accountKey settings call.client call.responseClass call.name = key →
      earliest ≤ call.now ∧ call.now ≤ latest)
    (horderly : Orderly key (run step (new settings exempt start) earlier) none calls) :
    (sends key (run step (new settings exempt start) earlier) calls : ℚ) ≤
      (settings.rate key.responseClass).toNat * (((latest - earliest : Nat) : ℚ) / SECOND) +
        (settings.rate key.responseClass).toNat := by
  have hsettings : (run step (new settings exempt start) earlier).settings = settings := run_settings earlier
  have hbound := sends_le_allowance calls
    (by rwa [hsettings]) (by rw [hsettings]) (by intro last hlast; cases hlast)
    (by
      intro call hcall hkey
      unfold keyOf at hkey
      rw [hsettings] at hkey
      exact hbetween call hcall hkey)
    horderly
  simp only [allowance, earned] at hbound
  rw [mul_comm, add_comm]
  exact hbound

def twoASecond : RrlSettings := ⟨true, 2, 2, 2, 5, 0, 24, 56⟩

def errorsOf : AccountKey := ⟨.v4 0xC0000200, .error, []⟩

/-- Four responses in a second, after one that came before. -/
theorem sends_within_credit_in_order :
    (sends errorsOf (run step (new twoASecond [] 0) [errorAt 0]) [errorAt 0, errorAt 0, errorAt SECOND, errorAt SECOND] : ℚ) ≤
      (2 : UInt32).toNat * (((SECOND - 0 : Nat) : ℚ) / SECOND) + (2 : UInt32).toNat :=
  sends_within_credit twoASecond [] 0 [errorAt 0] [errorAt 0, errorAt 0, errorAt SECOND, errorAt SECOND] errorsOf 0 SECOND
    (by decide) (by decide) (by decide)

/-- Three calls that read the clock before two others, and get hold of the lock in turn with them. -/
theorem sends_beyond_credit :
    ¬ ∀ (settings : RrlSettings) (exempt : List Network) (start : Nat) (earlier calls : List RrlCall) (key : AccountKey)
      (earliest latest : Nat), settings.windowSecs ≠ 0 →
      (∀ call ∈ calls, accountKey settings call.client call.responseClass call.name = key →
        earliest ≤ call.now ∧ call.now ≤ latest) →
      (sends key (run step (new settings exempt start) earlier) calls : ℚ) ≤
        (settings.rate key.responseClass).toNat * (((latest - earliest : Nat) : ℚ) / SECOND) +
          (settings.rate key.responseClass).toNat := by
  intro h
  have hbound := h twoASecond [] 0 [] [errorAt 0, errorAt SECOND, errorAt 0, errorAt SECOND, errorAt 0] errorsOf 0 SECOND
    (by decide) (by decide)
  revert hbound
  decide +kernel

end ResponseRateLimiter

end DaygleDns.Core
