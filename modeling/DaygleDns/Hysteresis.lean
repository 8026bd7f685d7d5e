import Mathlib.Data.List.Infix

/-! A switch that goes down after so many failures in a row, and up again after so many
passes in a row. Results are listed with the newest first. -/
namespace DaygleDns.Hysteresis

/-- There were `down` failures in a row, and no `up` passes in a row since. -/
def Down (down up : Nat) (results : List Bool) : Prop :=
  ∃ later earlier, results = later ++ List.replicate down false ++ earlier ∧ ¬List.replicate up true <:+: later

/-- How many of the last results are `b`. -/
def streak (b : Bool) (results : List Bool) : Nat := (results.takeWhile (· == b)).length

@[simp] theorem streak_nil (b : Bool) : streak b [] = 0 := rfl

@[simp] theorem streak_cons_self (b : Bool) (results : List Bool) : streak b (b :: results) = streak b results + 1 := by
  simp [streak]

@[simp] theorem streak_false_cons_true (results : List Bool) : streak false (true :: results) = 0 := rfl

@[simp] theorem streak_true_cons_false (results : List Bool) : streak true (false :: results) = 0 := rfl

theorem replicate_prefix_iff (n : Nat) (b : Bool) (results : List Bool) :
    List.replicate n b <+: results ↔ n ≤ streak b results := by
  induction n generalizing results with
  | zero => simp
  | succ n ih =>
    cases results with
    | nil => simp [List.replicate_succ]
    | cons result results =>
      rw [List.replicate_succ, List.cons_prefix_cons, ih]
      by_cases hsame : b = result
      · rw [hsame, streak_cons_self, Nat.succ_le_succ_iff]
        exact and_iff_right rfl
      · have hzero : streak b (result :: results) = 0 := by
          simp [streak, Ne.symm hsame]
        rw [hzero]
        exact iff_of_false (fun h => hsame h.1) (Nat.not_succ_le_zero n)

variable {down up : Nat}

theorem not_infix_nil (hup : 0 < up) : ¬List.replicate up true <:+: ([] : List Bool) := by
  rw [List.infix_nil, List.replicate_eq_nil_iff]
  exact Nat.ne_of_gt hup

theorem not_down_nil (hdown : 0 < down) : ¬Down down up [] := by
  intro ⟨later, earlier, hresults, _⟩
  have hlength := congrArg List.length hresults
  simp only [List.length_append, List.length_replicate, List.length_nil] at hlength
  omega

theorem down_of_streak (hup : 0 < up) {results : List Bool} (h : down ≤ streak false results) : Down down up results := by
  have ⟨earlier, hresults⟩ := (replicate_prefix_iff down false results).mpr h
  exact ⟨[], earlier, hresults.symm, not_infix_nil hup⟩

/-- The results after the failures are too few passes at their end. -/
theorem streak_lt_of_down (hdown : 0 < down) {results : List Bool} (h : Down down up results) : streak true results < up := by
  have ⟨later, earlier, hresults, hnone⟩ := h
  by_contra hnot
  have hprefix := (replicate_prefix_iff up true results).mpr (Nat.not_lt.mp hnot)
  apply hnone
  rw [hresults, List.append_assoc] at hprefix
  -- the passes end before the first of the failures
  cases List.prefix_or_prefix_of_prefix hprefix (List.prefix_append later _) with
  | inl hlater => exact hlater.isInfix
  | inr hlonger =>
    have ⟨more, hmore⟩ := hlonger
    cases more with
    | nil => exact ⟨[], [], by simpa using hmore.symm⟩
    | cons first more =>
      rw [← hmore, List.prefix_append_right_inj] at hprefix
      obtain ⟨rest, hrest⟩ := hprefix
      have hfirst : first = true := by
        have hmem : first ∈ List.replicate up true := by rw [← hmore]; simp
        exact List.eq_of_mem_replicate hmem
      have hsplit : List.replicate down false = false :: List.replicate (down - 1) false := by
        rw [← List.replicate_succ]
        congr 1
        omega
      rw [hsplit, hfirst] at hrest
      exact absurd (List.cons.inj hrest).1 (by decide)

theorem down_cons_false (hup : 0 < up) (results : List Bool) :
    Down down up (false :: results) ↔ Down down up results ∨ down ≤ streak false results + 1 := by
  constructor
  · intro ⟨later, earlier, hresults, hnone⟩
    cases later with
    | nil =>
      apply Or.inr
      rw [← streak_cons_self, ← replicate_prefix_iff]
      exact ⟨earlier, hresults.symm⟩
    | cons first later =>
      apply Or.inl
      rw [List.cons_append, List.cons_append] at hresults
      exact ⟨later, earlier, (List.cons.inj hresults).2, fun h => hnone (List.infix_cons h)⟩
  · intro h
    cases h with
    | inl h =>
      have ⟨later, earlier, hresults, hnone⟩ := h
      refine ⟨false :: later, earlier, by rw [hresults]; rfl, ?_⟩
      rw [List.infix_cons_iff, replicate_prefix_iff, streak_true_cons_false]
      exact fun h => h.elim (Nat.not_le.mpr hup) hnone
    | inr h =>
      rw [← streak_cons_self] at h
      exact down_of_streak hup h

theorem down_cons_true (hdown : 0 < down) (results : List Bool) :
    Down down up (true :: results) ↔ Down down up results ∧ streak true results + 1 < up := by
  constructor
  · intro h
    have hstreak := streak_lt_of_down hdown h
    rw [streak_cons_self] at hstreak
    refine ⟨?_, hstreak⟩
    have ⟨later, earlier, hresults, hnone⟩ := h
    cases later with
    | nil =>
      cases down with
      | zero => exact absurd hdown (Nat.lt_irrefl 0)
      | succ down => exact absurd (List.cons.inj hresults).1 (by decide)
    | cons first later =>
      rw [List.cons_append, List.cons_append] at hresults
      exact ⟨later, earlier, (List.cons.inj hresults).2, fun h => hnone (List.infix_cons h)⟩
  · intro ⟨h, hstreak⟩
    have ⟨later, earlier, hresults, hnone⟩ := h
    refine ⟨true :: later, earlier, by rw [hresults]; rfl, ?_⟩
    rw [List.infix_cons_iff]
    intro hboth
    cases hboth with
    | inl hprefix =>
      have hwhole : List.replicate up true <+: true :: results := by
        rw [hresults, List.append_assoc, ← List.cons_append]
        exact hprefix.trans (List.prefix_append _ _)
      rw [replicate_prefix_iff, streak_cons_self] at hwhole
      omega
    | inr hinfix => exact hnone hinfix

end DaygleDns.Hysteresis
