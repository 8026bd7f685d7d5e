import Mathlib.Data.List.Forall2
import Mathlib.Logic.Basic
import Mathlib.Tactic.Common

/-! Inversion of computations that may fail: what a successful result says
about each of its parts. -/
namespace DaygleDns.Fallible

variable {ε α β σ : Type}

@[simp] theorem throw_eq (e : ε) : (throw e : Except ε α) = .error e := rfl

@[simp] theorem pure_eq (a : α) : (pure a : Except ε α) = .ok a := rfl

@[simp] theorem error_bind (e : ε) (f : α → Except ε β) :
    ((Except.error e : Except ε α) >>= f) = .error e := rfl

@[simp] theorem ok_bind (a : α) (f : α → Except ε β) :
    ((Except.ok a : Except ε α) >>= f) = f a := rfl

theorem bind_eq_ok {x : Except ε α} {f : α → Except ε β} {b : β} :
    (x >>= f) = .ok b ↔ ∃ a, x = .ok a ∧ f a = .ok b := by
  cases x <;> simp

theorem then_eq_ok {x : Except ε Unit} {f : Unit → Except ε α} {a : α} :
    (x >>= f) = .ok a ↔ x = .ok () ∧ f () = .ok a := by
  rw [bind_eq_ok]
  exact ⟨fun ⟨_, hx, hf⟩ => ⟨hx, hf⟩, fun ⟨hx, hf⟩ => ⟨(), hx, hf⟩⟩

theorem map_eq_ok {f : α → β} {x : Except ε α} {b : β} : x.map f = .ok b ↔ ∃ a, x = .ok a ∧ b = f a := by
  cases x <;> simp [Except.map, eq_comm]

theorem pure_eq_ok {a b : α} : (pure a : Except ε α) = .ok b ↔ b = a := by
  rw [pure_eq, Except.ok.injEq, eq_comm]

/-- A check that is made only in some cases. -/
theorem check_then_eq_ok {p : Prop} [Decidable p] {x : Except ε Unit} {f : Unit → Except ε α} {a : α} :
    (if p then x >>= f else f ()) = .ok a ↔ (p → x = .ok ()) ∧ f () = .ok a := by
  by_cases hp : p
  · rw [if_pos hp, then_eq_ok, forall_prop_of_true hp]
  · rw [if_neg hp, forall_prop_of_false hp, true_and]

theorem guard_eq_ok {p : Prop} [Decidable p] {e : ε} {x : Except ε α} {a : α} :
    (if p then .error e else x) = .ok a ↔ ¬p ∧ x = .ok a := by
  by_cases hp : p <;> simp [hp]

theorem throw_bind_eq_ok {p : Prop} [Decidable p] {e : ε} {f : β → Except ε α} {x : Except ε α} {a : α} :
    (if p then throw e >>= f else x) = .ok a ↔ ¬p ∧ x = .ok a :=
  guard_eq_ok

theorem mapError_eq_ok {ε' : Type} {f : ε → ε'} {x : Except ε α} {a : α} : x.mapError f = .ok a ↔ x = .ok a := by
  cases x <;> simp [Except.mapError]

theorem error_ne_ok {e : ε} {a : α} : (Except.error e : Except ε α) ≠ .ok a := by simp

/-- A property of the state that every step of a failing loop keeps holds after
the loop. -/
theorem foldlM_invariant {step : σ → α → Except ε σ} (good : σ → Prop)
    (hstep : ∀ before a after, good before → step before a = .ok after → good after)
    (items : List α) {before after : σ} (hgood : good before)
    (h : items.foldlM step before = .ok after) : good after := by
  induction items generalizing before with
  | nil =>
    cases h
    exact hgood
  | cons a items ih =>
    rw [List.foldlM_cons, bind_eq_ok] at h
    obtain ⟨middle, hmiddle, hrest⟩ := h
    exact ih (hstep before a middle hgood hmiddle) hrest

theorem forM_eq_ok {step : α → Except ε Unit} {items : List α} :
    items.forM step = .ok () ↔ ∀ a ∈ items, step a = .ok () := by
  induction items with
  | nil => exact ⟨fun _ a ha => absurd ha List.not_mem_nil, fun _ => rfl⟩
  | cons a items ih =>
    rw [show (a :: items).forM step = (step a >>= fun _ => items.forM step) from rfl, bind_eq_ok,
      List.forall_mem_cons, ← ih]
    exact ⟨fun ⟨_, ha, hrest⟩ => ⟨ha, hrest⟩, fun ⟨ha, hrest⟩ => ⟨(), ha, hrest⟩⟩

theorem mapM_eq_ok {step : α → Except ε β} {items : List α} {results : List β} :
    items.mapM step = .ok results ↔ List.Forall₂ (fun a b => step a = .ok b) items results := by
  induction items generalizing results with
  | nil =>
    rw [List.mapM_nil, List.forall₂_nil_left_iff]
    exact ⟨fun h => (Except.ok.inj h).symm, fun h => by rw [h]; rfl⟩
  | cons a items ih =>
    rw [List.mapM_cons, bind_eq_ok]
    constructor
    · rintro ⟨b, hb, hrest⟩
      rcases bind_eq_ok.mp hrest with ⟨others, hothers, hresults⟩
      cases hresults
      exact .cons hb (ih.mp hothers)
    · intro h
      cases h with
      | cons hb hothers => exact ⟨_, hb, bind_eq_ok.mpr ⟨_, ih.mpr hothers, rfl⟩⟩

/-- Each result is that of one of the items. -/
theorem exists_of_mapM {step : α → Except ε β} {items : List α} {results : List β} (h : items.mapM step = .ok results) :
    ∀ b ∈ results, ∃ a ∈ items, step a = .ok b := by
  rw [mapM_eq_ok] at h
  induction h with
  | nil => simp
  | cons hb _ ih =>
    intro b hmem
    cases hmem with
    | head => exact ⟨_, List.mem_cons_self, hb⟩
    | tail _ hrest =>
      obtain ⟨a, ha, hstep⟩ := ih b hrest
      exact ⟨a, List.mem_cons_of_mem _ ha, hstep⟩

theorem mapM_ok_iff {step : α → Except ε β} {items : List α} :
    (∃ results, items.mapM step = .ok results) ↔ ∀ a ∈ items, ∃ b, step a = .ok b := by
  induction items with
  | nil => exact ⟨fun _ a ha => absurd ha List.not_mem_nil, fun _ => ⟨[], rfl⟩⟩
  | cons first items ih =>
    rw [List.forall_mem_cons, ← ih]
    simp only [List.mapM_cons, bind_eq_ok]
    constructor
    · rintro ⟨_, b, hb, others, hothers, _⟩
      exact ⟨⟨b, hb⟩, others, hothers⟩
    · rintro ⟨⟨b, hb⟩, others, hothers⟩
      exact ⟨_, b, hb, others, hothers, rfl⟩

end DaygleDns.Fallible
