import DaygleDns.Runs
import DaygleDns.Tallies
import Mathlib.Data.Bool.Basic

/-! The admission of recursive lookups: a limit and the number of active lookups, which the
attempts to get a permit share without a lock. Every atomic access is a step of its own. -/
namespace DaygleDns.Dispatch

open Runs

/-- An `AtomicUsize`, with the values that it had before. A load may still find one of these;
an exchange or a subtraction always acts on the last. -/
structure Atomic where
  value : UInt64
  older : List UInt64

namespace Atomic

def values (a : Atomic) : List UInt64 := a.value :: a.older

def load (a : Atomic) (age : Nat) : UInt64 := a.values.getD age a.value

def store (a : Atomic) (value : UInt64) : Atomic := ⟨value, a.values⟩

@[simp] theorem values_store (a : Atomic) (value : UInt64) : (a.store value).values = value :: a.values := rfl

@[simp] theorem value_store (a : Atomic) (value : UInt64) : (a.store value).value = value := rfl

theorem value_mem (a : Atomic) : a.value ∈ a.values := List.mem_cons_self

theorem load_mem (a : Atomic) (age : Nat) : a.load age ∈ a.values := by
  rw [load, List.getD_eq_getElem?_getD]
  cases h : a.values[age]? with
  | none => exact a.value_mem
  | some value => exact List.mem_of_getElem? h

end Atomic

/-- How far a call of `try_acquire` is, and then its permit. -/
inductive Attempt where
  | looping
  /-- It has read the limit, -/
  | limited (limit : UInt64)
  /-- and fewer active lookups than that. -/
  | below (active : UInt64)
  /-- It counts as active, -/
  | raised
  /-- and has read the count again. -/
  | counted (active : UInt64)
  | rollingBack
  | refused
  | permitted
  | dropped
deriving DecidableEq

/-- Whether the attempt has raised the count, and not yet lowered it. -/
def Attempt.active : Attempt → Bool
  | .raised => true
  | .counted _ => true
  | .rollingBack => true
  | .permitted => true
  | _ => false

/-- Whether the attempt may go on where the limit forbids it, as it has read an older one. -/
def Attempt.eager (limit : UInt64) : Attempt → Bool
  | .limited other => limit < other
  | .below active => limit ≤ active
  | _ => false

structure RecursiveAdmission where
  limit : Atomic
  active : Atomic
  attempts : List Attempt

inductive AdmissionEvent where
  | setLimit (limit : UInt64)
  | tryAcquire
  /-- Attempt `i` makes its next access. A load reads what was stored `age` stores ago; an
  exchange may fail for no reason. -/
  | access (i age : Nat) (spurious : Bool)

def AdmissionEvent.KeepsLimit : AdmissionEvent → Prop
  | .setLimit _ => False
  | _ => True

/-- A load of the step finds the value of the last store. -/
def AdmissionEvent.Current : AdmissionEvent → Prop
  | .access _ age _ => age = 0
  | _ => True

namespace RecursiveAdmission

def new (limit : UInt64) : RecursiveAdmission := ⟨⟨limit, []⟩, ⟨0, []⟩, []⟩

/-- The number of active lookups after an attempt's next access, and where the attempt is then. -/
def access (s : RecursiveAdmission) (age : Nat) (spurious : Bool) : Attempt → Atomic × Attempt
  | .looping => (s.active, .limited (s.limit.load age))
  | .limited limit =>
      let active := s.active.load age
      (s.active, if active ≥ limit then .refused else .below active)
  | .below active =>
      if s.active.value = active && !spurious then (s.active.store (active + 1), .raised)
      else (s.active, .looping)
  | .raised => (s.active, .counted (s.active.load age))
  | .counted active => (s.active, if active ≤ s.limit.load age then .permitted else .rollingBack)
  | .rollingBack => (s.active.store (s.active.value - 1), .refused)
  | .permitted => (s.active.store (s.active.value - 1), .dropped)
  | .refused => (s.active, .refused)
  | .dropped => (s.active, .dropped)

def step (s : RecursiveAdmission) : AdmissionEvent → RecursiveAdmission
  | .setLimit limit => { s with limit := s.limit.store limit }
  | .tryAcquire => { s with attempts := s.attempts ++ [.looping] }
  | .access i age spurious =>
      match s.attempts[i]? with
      | none => s
      | some attempt =>
          let (active, next) := s.access age spurious attempt
          { s with active, attempts := s.attempts.set i next }

/-- The permits that are held. -/
def permits (s : RecursiveAdmission) : Nat := s.attempts.countP (· = .permitted)

/-- A limit that was set is at least so much. -/
def Within (s : RecursiveAdmission) (n : Nat) : Prop := ∃ limit ∈ s.limit.values, n ≤ limit.toNat

/-- What an attempt has read is within the limits. -/
def Fits (s : RecursiveAdmission) : Attempt → Prop
  | .limited limit => limit ∈ s.limit.values
  | .below active => s.Within (active.toNat + 1)
  | .counted active => s.Within active.toNat
  | _ => True

structure Sound (s : RecursiveAdmission) : Prop where
  counts : s.active.value.toNat = s.attempts.countP Attempt.active
  within : ∀ value ∈ s.active.values, s.Within value.toNat
  fits : ∀ attempt ∈ s.attempts, s.Fits attempt

variable {s : RecursiveAdmission}

theorem sound_new (limit : UInt64) : Sound (new limit) := by
  refine ⟨rfl, ?_, by simp [new]⟩
  intro value hvalue
  obtain rfl : value = 0 := by simpa [new, Atomic.values] using hvalue
  exact ⟨limit, List.mem_cons_self, Nat.zero_le _⟩

/-- Limits are only added. -/
theorem Within.of_limits {t : RecursiveAdmission} {n : Nat} (hlimits : ∀ limit ∈ s.limit.values, limit ∈ t.limit.values)
    (h : s.Within n) : t.Within n := by
  have ⟨limit, hlimit, hle⟩ := h
  exact ⟨limit, hlimits limit hlimit, hle⟩

theorem Fits.of_limits {t : RecursiveAdmission} {attempt : Attempt}
    (hlimits : ∀ limit ∈ s.limit.values, limit ∈ t.limit.values) (h : s.Fits attempt) : t.Fits attempt := by
  cases attempt with
  | limited limit => exact hlimits limit h
  | below active => exact Within.of_limits hlimits h
  | counted active => exact Within.of_limits hlimits h
  | _ => trivial

/-- What an attempt's access leaves is within the limits. -/
theorem fits_access (h : Sound s) (age : Nat) (spurious : Bool) {attempt : Attempt} (hfits : s.Fits attempt) :
    s.Fits (s.access age spurious attempt).2 := by
  cases attempt with
  | looping => exact s.limit.load_mem age
  | limited limit =>
    simp only [access]
    split
    · trivial
    · next hbelow =>
      have hlt : (s.active.load age).toNat < limit.toNat := by
        rwa [ge_iff_le, UInt64.le_iff_toNat_le, Nat.not_le] at hbelow
      exact ⟨limit, hfits, hlt⟩
  | below active =>
    simp only [access]
    split <;> trivial
  | raised => exact h.within _ (s.active.load_mem age)
  | counted active =>
    simp only [access]
    split <;> trivial
  | _ => trivial

theorem toNat_raised {active limit : UInt64} (h : active.toNat + 1 ≤ limit.toNat) : (active + 1).toNat = active.toNat + 1 := by
  rw [UInt64.toNat_add]
  exact Nat.mod_eq_of_lt (Nat.lt_of_le_of_lt h limit.toNat_lt)

theorem toNat_raised_le (active : UInt64) : (active + 1).toNat ≤ active.toNat + 1 := by
  rw [UInt64.toNat_add]
  exact Nat.mod_le _ _

theorem toNat_lowered {active : UInt64} (h : 0 < active.toNat) : (active - 1).toNat + 1 = active.toNat := by
  have hle : (1 : UInt64) ≤ active := UInt64.le_iff_toNat_le.mpr h
  rw [UInt64.toNat_sub_of_le _ _ hle]
  exact Nat.sub_add_cancel h

theorem toNat_lowered_le {active : UInt64} (h : 0 < active.toNat) : (active - 1).toNat ≤ active.toNat :=
  Nat.le.intro (toNat_lowered h)

/-- The count follows the attempt into and out of the active ones. It cannot wrap: an attempt raises it
below a limit, and lowers it while it counts as active itself. -/
theorem count_access (age : Nat) (spurious : Bool) {attempt : Attempt} (hfits : s.Fits attempt)
    (hpos : attempt.active = true → 0 < s.active.value.toNat) :
    (s.access age spurious attempt).1.value.toNat + attempt.active.toNat =
      s.active.value.toNat + (s.access age spurious attempt).2.active.toNat := by
  cases attempt with
  | limited limit =>
    simp only [access]
    split <;> rfl
  | below active =>
    simp only [access]
    split
    · next hsame =>
      rw [Bool.and_eq_true, decide_eq_true_eq] at hsame
      have ⟨limit, _, hle⟩ := hfits
      rw [Atomic.value_store, toNat_raised hle, hsame.1]
      rfl
    · rfl
  | counted active =>
    simp only [access]
    split <;> rfl
  | rollingBack => exact toNat_lowered (hpos rfl)
  | permitted => exact toNat_lowered (hpos rfl)
  | _ => rfl

/-- An access stores nothing beyond the limits. -/
theorem within_access (h : Sound s) (age : Nat) (spurious : Bool) {attempt : Attempt} (hfits : s.Fits attempt)
    (hpos : attempt.active = true → 0 < s.active.value.toNat) :
    ∀ value ∈ (s.access age spurious attempt).1.values, s.Within value.toNat := by
  have hstored (value : UInt64) (hvalue : s.Within value.toNat) :
      ∀ other ∈ (s.active.store value).values, s.Within other.toNat := by
    intro other hother
    rw [Atomic.values_store, List.mem_cons] at hother
    cases hother with
    | inl hsame => rwa [hsame]
    | inr hold => exact h.within other hold
  have hlower : 0 < s.active.value.toNat → s.Within (s.active.value - 1).toNat := by
    intro hlt
    have ⟨limit, hlimit, hle⟩ := h.within _ s.active.value_mem
    exact ⟨limit, hlimit, Nat.le_trans (toNat_lowered_le hlt) hle⟩
  cases attempt with
  | below active =>
    simp only [access]
    split
    · have ⟨limit, hlimit, hle⟩ := hfits
      apply hstored
      exact ⟨limit, hlimit, Nat.le_trans (toNat_raised_le active) hle⟩
    · exact h.within
  | rollingBack => exact hstored _ (hlower (hpos rfl))
  | permitted => exact hstored _ (hlower (hpos rfl))
  | _ => exact h.within

theorem sound_step (event : AdmissionEvent) (h : Sound s) : Sound (s.step event) := by
  cases event with
  | setLimit limit =>
    have hlimits : ∀ other ∈ s.limit.values, other ∈ (s.limit.store limit).values :=
      fun other hother => List.mem_cons_of_mem _ hother
    exact ⟨h.counts, fun value hvalue => Within.of_limits hlimits (h.within value hvalue),
      fun attempt hattempt => Fits.of_limits hlimits (h.fits attempt hattempt)⟩
  | tryAcquire =>
    refine ⟨?_, h.within, ?_⟩
    · rw [step, h.counts, List.countP_append]
      rfl
    · intro attempt hattempt
      rw [step, List.mem_append, List.mem_singleton] at hattempt
      cases hattempt with
      | inl hold => exact h.fits attempt hold
      | inr hnew => rw [hnew]; trivial
  | access i age spurious =>
    cases hi : s.attempts[i]? with
    | none =>
      simp only [step, hi]
      exact h
    | some attempt =>
      have hmem := List.mem_of_getElem? hi
      have hfits := h.fits attempt hmem
      have hpos : attempt.active = true → 0 < s.active.value.toNat := by
        intro hactive
        rw [h.counts]
        exact List.countP_pos_iff.mpr ⟨attempt, hmem, hactive⟩
      simp only [step, hi]
      refine ⟨?_, within_access h age spurious hfits hpos, ?_⟩
      · have hcount := count_access age spurious hfits hpos
        have hset := countP_set_add Attempt.active hi (s.access age spurious attempt).2
        have hbefore := h.counts
        dsimp only
        omega
      · intro other hother
        cases List.mem_or_eq_of_mem_set hother with
        | inl hold => exact h.fits other hold
        | inr hnew =>
          rw [hnew]
          exact fits_access h age spurious hfits

/-- The attempts between raising the count and a permit or a refusal. -/
def settling (s : RecursiveAdmission) : Nat :=
  s.attempts.countP fun attempt => attempt.active && attempt ≠ .permitted

theorem countP_active (s : RecursiveAdmission) : s.attempts.countP Attempt.active = s.permits + s.settling := by
  rw [List.countP_eq_countP_filter_add _ Attempt.active fun attempt => attempt = .permitted, List.countP_filter,
    List.countP_filter, permits, settling]
  congr 1
  · apply List.countP_congr
    intro attempt _
    rw [Bool.and_eq_true, decide_eq_true_eq, and_iff_right_iff_imp]
    intro hpermitted
    rw [hpermitted]
    rfl
  · apply List.countP_congr
    intro attempt _
    rw [decide_not]

/-- However the accesses of the attempts and the changes of the limit interleave, and however old the values
are that they read, the count is the number of permits and of attempts about to get or give back one, and never
above every limit that was set. -/
theorem active_exact (limit : UInt64) (steps : List AdmissionEvent) :
    Always step (fun s => s.active.value.toNat = s.permits + s.settling ∧
      ∃ limit ∈ s.limit.values, s.permits + s.settling ≤ limit.toNat) (new limit) steps := by
  apply always_mono _ (always_of_step (fun s event h => sound_step event h) steps (sound_new limit))
  intro s h
  have hcount := h.counts
  rw [countP_active] at hcount
  refine ⟨hcount, ?_⟩
  rw [← hcount]
  exact h.within _ s.active.value_mem

/-! With a limit that stays. -/

structure Steady (limit : UInt64) (s : RecursiveAdmission) : Prop extends Sound s where
  one : s.limit.values = [limit]
  kept : ∀ attempt ∈ s.attempts, attempt ≠ .rollingBack

theorem Steady.le_of_within {limit : UInt64} (h : Steady limit s) {n : Nat} (hwithin : s.Within n) :
    n ≤ limit.toNat := by
  have ⟨other, hother, hle⟩ := hwithin
  rw [h.one, List.mem_singleton] at hother
  rwa [hother] at hle

theorem Steady.load_limit {limit : UInt64} (h : Steady limit s) (age : Nat) : s.limit.load age = limit := by
  have hmem := s.limit.load_mem age
  rwa [h.one, List.mem_singleton] at hmem

/-- A count that was read fits in the limit, so no attempt takes its permit back. -/
theorem Steady.access_ne {limit : UInt64} (h : Steady limit s) (age : Nat) (spurious : Bool) {attempt : Attempt}
    (hfits : s.Fits attempt) : (s.access age spurious attempt).2 ≠ .rollingBack := by
  cases attempt with
  | limited limit =>
    simp only [access]
    split <;> exact nofun
  | below active =>
    simp only [access]
    split <;> exact nofun
  | counted active =>
    have hle : active ≤ s.limit.load age := by
      rw [h.load_limit, UInt64.le_iff_toNat_le]
      exact h.le_of_within hfits
    simp only [access, if_pos hle]
    exact nofun
  | _ => exact nofun

theorem steady_step {limit : UInt64} (event : AdmissionEvent) (h : Steady limit s) (hkeeps : event.KeepsLimit) :
    Steady limit (s.step event) := by
  have hsound := sound_step event h.toSound
  cases event with
  | setLimit other => exact hkeeps.elim
  | tryAcquire =>
    refine ⟨hsound, h.one, ?_⟩
    intro attempt hattempt
    rw [step, List.mem_append, List.mem_singleton] at hattempt
    cases hattempt with
    | inl hold => exact h.kept attempt hold
    | inr hnew => rw [hnew]; exact nofun
  | access i age spurious =>
    cases hi : s.attempts[i]? with
    | none =>
      simp only [step, hi]
      exact h
    | some attempt =>
      simp only [step, hi] at hsound ⊢
      refine ⟨hsound, h.one, ?_⟩
      intro other hother
      cases List.mem_or_eq_of_mem_set hother with
      | inl hold => exact h.kept other hold
      | inr hnew =>
        rw [hnew]
        exact h.access_ne age spurious (h.fits attempt (List.mem_of_getElem? hi))

/-- A change of one entry that lets more entries pass. -/
theorem passes_of_countP_lt {α : Type} {p : α → Bool} {entries : List α} {i : Nat} {old entry : α}
    (h : entries[i]? = some old) (hmore : entries.countP p < (entries.set i entry).countP p) :
    p entry = true ∧ p old = false := by
  have hset := countP_set_add p h entry
  cases hentry : p entry with
  | false =>
    have hzero : (p entry).toNat = 0 := by rw [hentry]; rfl
    omega
  | true =>
    cases hold : p old with
    | false => exact ⟨rfl, rfl⟩
    | true =>
      rw [hentry, hold] at hset
      omega

def refusals (s : RecursiveAdmission) : Nat := s.attempts.countP (· = .refused)

/-- An attempt that reads the last values is refused at the limit only. -/
theorem Steady.full_of_refused {limit : UInt64} (h : Steady limit s) (event : AdmissionEvent) (hcurrent : event.Current)
    (hmore : s.refusals < (s.step event).refusals) : s.active.value = limit := by
  cases event with
  | setLimit other => exact absurd hmore (Nat.lt_irrefl _)
  | tryAcquire => simp [step, refusals] at hmore
  | access i age spurious =>
    cases hi : s.attempts[i]? with
    | none => simp [step, hi] at hmore
    | some attempt =>
      have hmem := List.mem_of_getElem? hi
      simp only [step, hi, refusals] at hmore
      have ⟨hnew, hold⟩ := passes_of_countP_lt hi hmore
      have hrefused : (s.access age spurious attempt).2 = .refused ∧ attempt ≠ .refused :=
        ⟨of_decide_eq_true hnew, of_decide_eq_false hold⟩
      cases attempt with
      | limited other =>
        obtain rfl : other = limit := by
          have hfits : other ∈ s.limit.values := h.fits _ hmem
          rwa [h.one, List.mem_singleton] at hfits
        obtain rfl : age = 0 := hcurrent
        have hge : s.active.value ≥ other := by
          by_contra hlt
          exact absurd hrefused.1 (by simp [access, Atomic.load, Atomic.values, if_neg hlt])
        have hle := h.le_of_within (h.within _ s.active.value_mem)
        exact UInt64.le_antisymm (UInt64.le_iff_toNat_le.mpr hle) hge
      | rollingBack => exact absurd rfl (h.kept _ hmem)
      | refused => exact absurd rfl hrefused.2
      | below active =>
        simp only [access] at hrefused
        split at hrefused <;> exact absurd hrefused.1 nofun
      | counted active =>
        simp only [access] at hrefused
        split at hrefused <;> exact absurd hrefused.1 nofun
      | _ => exact absurd hrefused.1 nofun

/-- While the limit stays, no more permits are out than it allows, and no attempt that raised the count has to lower
it again. Where attempts read the last values, one is refused only when as many lookups are active as the limit. -/
theorem steady_limit (limit : UInt64) (steps : List AdmissionEvent)
    (hkeeps : Each step (fun _ event => event.KeepsLimit) (new limit) steps) :
    Always step (fun s => s.permits ≤ limit.toNat ∧ .rollingBack ∉ s.attempts) (new limit) steps ∧
      Each step (fun s event => event.Current → s.refusals < (s.step event).refusals → s.active.value = limit)
        (new limit) steps := by
  have hstart : Steady limit (new limit) := ⟨sound_new limit, rfl, by simp [new]⟩
  have hstep (s : RecursiveAdmission) (event : AdmissionEvent) (h : Steady limit s) (hmeets : event.KeepsLimit) :=
    steady_step event h hmeets
  constructor
  · apply always_mono _ (always_of_invariant (Steady limit) hstep steps hstart hkeeps)
    intro s h
    have hcount := h.counts
    rw [countP_active] at hcount
    have hle := h.le_of_within (h.within _ s.active.value_mem)
    exact ⟨by omega, fun hmem => h.kept _ hmem rfl⟩
  · exact each_of_invariant (Steady limit) hstep (fun s event h _ hcurrent hmore => h.full_of_refused event hcurrent hmore)
      steps hstart hkeeps

/-- Two attempts at one permit. The second reads the limit before the first has raised the count, and is refused
when it reads it once more. -/
def twoAttempts : List AdmissionEvent :=
  [.tryAcquire, .tryAcquire, .access 0 0 false, .access 1 0 false, .access 0 0 false, .access 1 0 false,
    .access 0 0 true, .access 0 0 false, .access 0 0 false, .access 0 0 false, .access 1 0 false, .access 0 0 false,
    .access 0 0 false, .access 1 0 false, .access 1 0 false]

theorem steady_limit_of_two :
    (Always step (fun s => s.permits ≤ (1 : UInt64).toNat ∧ .rollingBack ∉ s.attempts) (new 1) twoAttempts ∧
      Each step (fun s event => event.Current → s.refusals < (s.step event).refusals → s.active.value = 1)
        (new 1) twoAttempts) ∧
      (run step (new 1) twoAttempts).attempts = [.permitted, .refused] :=
  ⟨steady_limit 1 twoAttempts (by simp [twoAttempts, Each, AdmissionEvent.KeepsLimit]), by decide⟩

/-! After a reload. -/

def eager (limit : UInt64) (s : RecursiveAdmission) : Nat := s.attempts.countP (Attempt.eager limit)

/-- With `most` lookups active and `eagerAt` eager attempts at the reload. -/
structure Reloaded (limit : UInt64) (most eagerAt : Nat) (s : RecursiveAdmission) : Prop extends Sound s where
  newest : s.limit.value = limit
  fewer : s.eager limit ≤ eagerAt
  bounded : s.active.value.toNat + s.eager limit ≤ max limit.toNat most + eagerAt

theorem eager_access {limit : UInt64} (hnewest : s.limit.value = limit) (spurious : Bool) {attempt : Attempt}
    (h : (s.access 0 spurious attempt).2.eager limit = true) : attempt.eager limit = true := by
  cases attempt with
  | looping => simp [access, Atomic.load, Atomic.values, Attempt.eager, hnewest] at h
  | limited other =>
    simp only [access] at h
    split at h
    · exact absurd h nofun
    · next hbelow =>
      have hle := UInt64.le_iff_toNat_le.mp (of_decide_eq_true h)
      rw [ge_iff_le, UInt64.le_iff_toNat_le] at hbelow
      exact decide_eq_true (UInt64.lt_iff_toNat_lt.mpr (by omega))
  | below active =>
    simp only [access] at h
    split at h <;> exact absurd h nofun
  | counted active =>
    simp only [access] at h
    split at h <;> exact absurd h nofun
  | _ => exact absurd h nofun

/-- An attempt goes over the limit only as one of the eager ones, and is none of them any more. -/
theorem active_access {limit : UInt64} (spurious : Bool) {attempt : Attempt}
    (hpos : attempt.active = true → 0 < s.active.value.toNat)
    (hnext : (s.access 0 spurious attempt).2.eager limit = true → attempt.eager limit = true) :
    (s.access 0 spurious attempt).1.value.toNat + ((s.access 0 spurious attempt).2.eager limit).toNat ≤
        s.active.value.toNat + (attempt.eager limit).toNat ∨
      (s.access 0 spurious attempt).1.value.toNat ≤ limit.toNat := by
  have hless : ((s.access 0 spurious attempt).2.eager limit).toNat ≤ (attempt.eager limit).toNat :=
    Bool.toNat_le_toNat hnext
  cases attempt with
  | below active =>
    simp only [access] at hless ⊢
    split
    next hsame =>
      rw [Bool.and_eq_true, decide_eq_true_eq] at hsame
      have hvalue := hsame.1
      have hraise := toNat_raised_le active
      by_cases hover : limit ≤ active
      · apply Or.inl
        simp only [Atomic.value_store, Attempt.eager, hvalue, decide_eq_true hover, Bool.toNat_true, Bool.toNat_false]
        exact hraise
      · apply Or.inr
        rw [UInt64.le_iff_toNat_le] at hover
        simp only [Atomic.value_store]
        omega
    next hdiffers =>
      rw [if_neg hdiffers] at hless
      exact .inl (Nat.add_le_add_left hless _)
  | rollingBack => exact .inl (Nat.add_le_add (toNat_lowered_le (hpos rfl)) hless)
  | permitted => exact .inl (Nat.add_le_add (toNat_lowered_le (hpos rfl)) hless)
  | limited other => exact .inl (Nat.add_le_add_left hless _)
  | _ => exact .inl (Nat.add_le_add_left hless _)

theorem reloaded_step {limit : UInt64} {most eagerAt : Nat} (event : AdmissionEvent) (h : Reloaded limit most eagerAt s)
    (hmeets : event.KeepsLimit ∧ event.Current) : Reloaded limit most eagerAt (s.step event) := by
  have hsound := sound_step event h.toSound
  have hfewer := h.fewer
  have hbounded := h.bounded
  cases event with
  | setLimit other => exact hmeets.1.elim
  | tryAcquire =>
    have hsame : (s.step .tryAcquire).eager limit = s.eager limit := by
      rw [eager, step, List.countP_append]
      rfl
    exact ⟨hsound, h.newest, by rwa [hsame], by rwa [hsame]⟩
  | access i age spurious =>
    cases hi : s.attempts[i]? with
    | none =>
      simp only [step, hi]
      exact h
    | some attempt =>
      obtain rfl : age = 0 := hmeets.2
      have hmem := List.mem_of_getElem? hi
      have hpos : attempt.active = true → 0 < s.active.value.toNat := by
        intro hactive
        rw [h.counts]
        exact List.countP_pos_iff.mpr ⟨attempt, hmem, hactive⟩
      have hnext : (s.access 0 spurious attempt).2.eager limit = true → attempt.eager limit = true :=
        eager_access h.newest spurious
      have hless : ((s.access 0 spurious attempt).2.eager limit).toNat ≤ (attempt.eager limit).toNat :=
        Bool.toNat_le_toNat hnext
      have hactive := active_access spurious hpos hnext
      have hset := countP_set_add (Attempt.eager limit) hi (s.access 0 spurious attempt).2
      simp only [step, hi] at hsound ⊢
      rw [eager] at hfewer hbounded
      refine ⟨hsound, h.newest, ?_, ?_⟩
      · dsimp only [eager]
        omega
      · have hmost := Nat.le_max_left limit.toNat most
        dsimp only [eager]
        omega

/-- After a reload at any moment, so long as loads find the last values: the lookups active beyond the new limit are
those that were at the reload, and those of attempts that had read an older limit by then. -/
theorem active_after_reload (first limit : UInt64) (before later : List AdmissionEvent)
    (h : Each step (fun _ event => event.KeepsLimit ∧ event.Current)
      ((run step (new first) before).step (.setLimit limit)) later) :
    Always step
      (fun s => s.permits + s.settling ≤
        max limit.toNat (run step (new first) before).active.value.toNat + (run step (new first) before).eager limit)
      ((run step (new first) before).step (.setLimit limit)) later := by
  have hsound := run_invariant Sound (fun s event h => sound_step event h) before (sound_new first)
  have hstart : Reloaded limit (run step (new first) before).active.value.toNat
      ((run step (new first) before).eager limit) ((run step (new first) before).step (.setLimit limit)) := by
    refine ⟨sound_step (.setLimit limit) hsound, rfl, Nat.le_refl _, ?_⟩
    exact Nat.add_le_add_right (Nat.le_max_right _ _) _
  apply always_mono _ (always_of_invariant _ (fun s event h hmeets => reloaded_step event h hmeets) later hstart h)
  intro s hreloaded
  have hcount := hreloaded.counts
  have hbounded := hreloaded.bounded
  rw [countP_active] at hcount
  omega

/-- The first attempt has its permit, and the second has read the limit that was 2, when it becomes 1. -/
def beforeReload : List AdmissionEvent :=
  [.tryAcquire, .access 0 0 false, .access 0 0 false, .access 0 0 false, .access 0 0 false, .access 0 0 false,
    .tryAcquire, .access 1 0 false, .access 1 0 false]

def afterReload : List AdmissionEvent :=
  [.access 1 0 false, .access 1 0 false, .access 1 0 false, .access 1 0 false]

theorem active_after_reload_rolled_back :
    Always step
      (fun s => s.permits + s.settling ≤
        max (1 : UInt64).toNat (run step (new 2) beforeReload).active.value.toNat +
          (run step (new 2) beforeReload).eager 1)
      ((run step (new 2) beforeReload).step (.setLimit 1)) afterReload ∧
      (run step ((run step (new 2) beforeReload).step (.setLimit 1)) afterReload).attempts = [.permitted, .refused] :=
  ⟨active_after_reload 2 1 beforeReload afterReload
    (by simp [afterReload, Each, AdmissionEvent.KeepsLimit, AdmissionEvent.Current]), by decide⟩

end RecursiveAdmission

end DaygleDns.Dispatch
