import Mathlib.Tactic.Common

/-! How many entries of a list pass a test, where one entry changes. -/
namespace DaygleDns

variable {α : Type}

theorem countP_set_add (p : α → Bool) {entries : List α} {i : Nat} {old : α} (h : entries[i]? = some old) (entry : α) :
    (entries.set i entry).countP p + (p old).toNat = entries.countP p + (p entry).toNat := by
  induction entries generalizing i with
  | nil => simp at h
  | cons first rest ih =>
    cases i with
    | zero =>
      obtain rfl := Option.some.inj h
      simp only [List.set_cons_zero, List.countP_cons]
      cases p first <;> cases p entry <;> rfl
    | succ i =>
      have hrest := ih (i := i) (by simpa using h)
      simp only [List.set_cons_succ, List.countP_cons]
      omega

/-- What holds of the tests entry by entry holds of the counts. -/
theorem countP_add_le {p q r s t : α → Bool} {entries : List α}
    (h : ∀ entry ∈ entries, (p entry).toNat + (q entry).toNat ≤ (r entry).toNat + (s entry).toNat + (t entry).toNat) :
    entries.countP p + entries.countP q ≤ entries.countP r + entries.countP s + entries.countP t := by
  induction entries with
  | nil => exact Nat.zero_le _
  | cons first rest ih =>
    have hfirst := h first List.mem_cons_self
    have hrest := ih fun entry hentry => h entry (List.mem_cons_of_mem _ hentry)
    have hone : ∀ test : α → Bool, (if test first = true then 1 else 0) = (test first).toNat := by
      intro test
      cases test first <;> rfl
    simp only [List.countP_cons, hone]
    omega

end DaygleDns
