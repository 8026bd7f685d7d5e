import Mathlib.Data.List.Basic

/-! Scripts of additions and removals, run in order or with every removal made
first: the two agree exactly when no addition is undone by a later removal. And
bids for one value, taken in order or all compared with the value at the start. -/
namespace DaygleDns

inductive Edit (α : Type) where
  | add (row : α)
  | remove (hits : α → Bool)

namespace Edit

variable {α : Type}

def run (rows : List α) : Edit α → List α
  | .add row => rows ++ [row]
  | .remove hits => rows.filter fun row => !hits row

/-- The script run one edit at a time. -/
def replay (rows : List α) (script : List (Edit α)) : List α := script.foldl run rows

def additions (script : List (Edit α)) : List α :=
  script.filterMap fun
    | .add row => some row
    | .remove _ => none

def removals (script : List (Edit α)) : List (α → Bool) :=
  script.filterMap fun
    | .add _ => none
    | .remove hits => some hits

/-- The script run with all removals before all additions. -/
def batch (rows : List α) (script : List (Edit α)) : List α :=
  rows.filter (fun row => !(removals script).any fun hits => hits row) ++ additions script

/-- Some addition of the row is followed by no removal that hits it. -/
def Lasting (row : α) : List (Edit α) → Prop
  | [] => False
  | .add other :: script =>
      (other = row ∧ ∀ hits ∈ removals script, hits row = false) ∨ Lasting row script
  | .remove _ :: script => Lasting row script

instance Lasting.decidable [DecidableEq α] (row : α) : (script : List (Edit α)) →
    Decidable (Lasting row script)
  | [] => inferInstanceAs (Decidable False)
  | .add other :: script =>
      have := Lasting.decidable row script
      inferInstanceAs (Decidable
        ((other = row ∧ ∀ hits ∈ removals script, hits row = false) ∨ Lasting row script))
  | .remove _ :: script => Lasting.decidable row script

@[simp] theorem additions_add (row : α) (script : List (Edit α)) :
    additions (.add row :: script) = row :: additions script := rfl

@[simp] theorem additions_remove (hits : α → Bool) (script : List (Edit α)) :
    additions (.remove hits :: script) = additions script := rfl

@[simp] theorem removals_add (row : α) (script : List (Edit α)) :
    removals (.add row :: script) = removals script := rfl

@[simp] theorem removals_remove (hits : α → Bool) (script : List (Edit α)) :
    removals (.remove hits :: script) = hits :: removals script := rfl

theorem isEmpty_eq (script : List (Edit α)) :
    script.isEmpty = ((additions script).isEmpty && (removals script).isEmpty) := by
  cases script with
  | nil => rfl
  | cons edit script =>
    cases edit with
    | add row => rfl
    | remove hits => simp

theorem mem_replay (row : α) (rows : List α) (script : List (Edit α)) :
    row ∈ replay rows script ↔
      (row ∈ rows ∧ ∀ hits ∈ removals script, hits row = false) ∨ Lasting row script := by
  induction script generalizing rows with
  | nil => simp [replay, removals, Lasting]
  | cons edit script ih =>
    change row ∈ replay (run rows edit) script ↔ _
    rw [ih]
    cases edit with
    | add other =>
      simp only [run, List.mem_append, List.mem_singleton, removals_add, Lasting]
      rw [or_and_right, or_assoc, eq_comm (a := row)]
    | remove hits =>
      simp only [run, List.mem_filter, Bool.not_eq_true', removals_remove, List.mem_cons,
        forall_eq_or_imp, Lasting, and_assoc]

theorem mem_batch (row : α) (rows : List α) (script : List (Edit α)) :
    row ∈ batch rows script ↔
      (row ∈ rows ∧ ∀ hits ∈ removals script, hits row = false) ∨ row ∈ additions script := by
  simp [batch]

theorem Lasting.added {row : α} {script : List (Edit α)} (h : Lasting row script) :
    row ∈ additions script := by
  induction script with
  | nil => exact h.elim
  | cons edit script ih =>
    cases edit with
    | add other =>
      rcases h with ⟨rfl, _⟩ | h
      · simp
      · exact List.mem_cons_of_mem _ (ih h)
    | remove hits => exact ih h

theorem lasting_of_never_hit {row : α} {script : List (Edit α)} (hadd : row ∈ additions script)
    (hhit : ∀ hits ∈ removals script, hits row = false) : Lasting row script := by
  induction script with
  | nil => simp [additions] at hadd
  | cons edit script ih =>
    cases edit with
    | add other =>
      rcases List.mem_cons.mp hadd with rfl | hadd
      · exact .inl ⟨rfl, hhit⟩
      · exact .inr (ih hadd hhit)
    | remove hits => exact ih hadd fun other hother => hhit other (List.mem_cons_of_mem _ hother)

/-- Order makes no difference to which rows are left exactly when every added
row has an addition that no later removal hits. -/
theorem replay_same_rows_iff (rows : List α) (script : List (Edit α)) :
    (∀ row, row ∈ replay rows script ↔ row ∈ batch rows script) ↔
      ∀ row ∈ additions script, Lasting row script := by
  simp only [mem_replay, mem_batch]
  constructor
  · intro h row hrow
    rcases (h row).mpr (.inr hrow) with ⟨_, hhit⟩ | hlasting
    · exact lasting_of_never_hit hrow hhit
    · exact hlasting
  · intro h row
    constructor
    · intro hrow
      exact hrow.imp_right Lasting.added
    · intro hrow
      exact hrow.imp_right (h row)

/-! Additions may be refused because of a row that is there. -/

/-- The script run one edit at a time; it stops at a refused addition. -/
def replayUnless (refuses : α → α → Bool) : List α → List (Edit α) → Option (List α)
  | rows, [] => some rows
  | rows, edit :: script =>
      match edit with
      | .add row =>
          if rows.any fun other => refuses other row then none
          else replayUnless refuses (run rows edit) script
      | .remove _ => replayUnless refuses (run rows edit) script

theorem replayUnless_append (refuses : α → α → Bool) (rows : List α)
    (first second : List (Edit α)) :
    replayUnless refuses rows (first ++ second) =
      (replayUnless refuses rows first).bind fun rows => replayUnless refuses rows second := by
  induction first generalizing rows with
  | nil => rfl
  | cons edit first ih =>
    cases edit with
    | add row =>
      simp only [List.cons_append, replayUnless]
      split
      · rfl
      · exact ih _
    | remove hits =>
      simp only [List.cons_append, replayUnless]
      exact ih _

/-- Before each addition, the rows of the start that refuse it are removed. -/
def Unrefused (refuses : α → α → Bool) : List α → List (Edit α) → Prop
  | _, [] => True
  | rows, .add row :: script =>
      (∀ other ∈ rows, refuses other row = false) ∧ Unrefused refuses rows script
  | rows, .remove hits :: script =>
      Unrefused refuses (rows.filter fun row => !hits row) script

instance Unrefused.decidable (refuses : α → α → Bool) : (rows : List α) →
    (script : List (Edit α)) → Decidable (Unrefused refuses rows script)
  | _, [] => inferInstanceAs (Decidable True)
  | rows, .add row :: script =>
      have := Unrefused.decidable refuses rows script
      inferInstanceAs (Decidable
        ((∀ other ∈ rows, refuses other row = false) ∧ Unrefused refuses rows script))
  | rows, .remove hits :: script =>
      Unrefused.decidable refuses (rows.filter fun row => !hits row) script

/-- Where an added row refuses nothing, only the rows of the start can. -/
theorem replayUnless_eq_some_iff (refuses : α → α → Bool) (rows : List α)
    (script : List (Edit α)) (harmless : ∀ row ∈ additions script, ∀ other, refuses row other = false)
    (after : List α) :
    replayUnless refuses rows script = some after ↔
      Unrefused refuses rows script ∧ after = replay rows script := by
  suffices h : ∀ added : List α, (∀ row ∈ added, ∀ other, refuses row other = false) →
      ∀ mixed : List α, (∀ row, row ∈ mixed ↔ row ∈ rows ∨ row ∈ added) →
        (replayUnless refuses mixed script = some after ↔
          Unrefused refuses rows script ∧ after = replay mixed script) by
    exact h [] (by simp) rows (by simp)
  induction script generalizing rows with
  | nil =>
    intro added _ mixed _
    simp [replayUnless, Unrefused, replay, eq_comm]
  | cons edit script ih =>
    intro added hadded mixed hmixed
    cases edit with
    | add row =>
      have hrow := harmless row (by simp)
      have hlater : ∀ other ∈ additions script, ∀ third, refuses other third = false :=
        fun other hother => harmless other (List.mem_cons_of_mem _ hother)
      have hnone : (mixed.any fun other => refuses other row) = true ↔
          ¬ ∀ other ∈ rows, refuses other row = false := by
        rw [List.any_eq_true]
        push Not
        constructor
        · intro h
          rcases h with ⟨other, hother, hrefuses⟩
          rcases (hmixed other).mp hother with hother | hother
          · exact ⟨other, hother, by simp [hrefuses]⟩
          · simp [hadded other hother row] at hrefuses
        · intro h
          rcases h with ⟨other, hother, hrefuses⟩
          exact ⟨other, (hmixed other).mpr (.inl hother), by simpa using hrefuses⟩
      have hnext := ih rows hlater (added ++ [row])
        (by
          intro other hother
          rcases List.mem_append.mp hother with hother | hother
          · exact hadded other hother
          · rw [List.mem_singleton.mp hother]
            exact hrow)
        (mixed ++ [row])
        (by
          intro other
          simp [hmixed other, or_assoc])
      simp only [replayUnless, Unrefused]
      by_cases hfree : ∀ other ∈ rows, refuses other row = false
      · rw [if_neg (by rw [hnone]; exact not_not.mpr hfree), and_assoc]
        exact hnext.trans (and_iff_right hfree).symm
      · rw [if_pos (hnone.mpr hfree)]
        simp [hfree]
    | remove hits =>
      simp only [replayUnless, Unrefused]
      refine ih _ harmless (added.filter fun row => !hits row) ?_ _ ?_
      · intro row hrow
        exact hadded row (List.mem_of_mem_filter hrow)
      · intro row
        simp only [run, List.mem_filter, hmixed row, or_and_right]

end Edit

/-! Each bid replaces the value in force if it is newer. -/
namespace Bids

variable {α β : Type} (newer : α → β → Bool) (rank : α → β) (start : β)

/-- One bid against the value in force, or against `start` where none is. -/
def take (current : Option α) (bid : α) : Option α :=
  if newer bid (current.elim start rank) then some bid else current

def inForce (bids : List α) : Option α := bids.foldl (take newer rank start) none

/-- The last bid that is newer than the value at the start. -/
def lastNewer (bids : List α) : Option α := (bids.filter fun bid => newer bid start).getLast?

/-- The last bid that is newer than the start wins its turn, and no bid after it
is newer than it. -/
def LastWins (bids : List α) : Prop :=
  ∀ earlier bid later, bids = earlier ++ bid :: later → newer bid start = true →
    (∀ other ∈ later, newer other start = false) →
    take newer rank start (inForce newer rank start earlier) bid = some bid ∧
      ∀ other ∈ later, newer other (rank bid) = false

theorem take_eq_or (current : Option α) (bid : α) :
    take newer rank start current bid = some bid ∨
      take newer rank start current bid = current := by
  unfold take
  split <;> simp

theorem foldl_take_mem (bids : List α) (current : Option α) :
    bids.foldl (take newer rank start) current = current ∨
      ∃ bid ∈ bids, bids.foldl (take newer rank start) current = some bid := by
  induction bids generalizing current with
  | nil => exact .inl rfl
  | cons bid bids ih =>
    rw [List.foldl_cons]
    rcases ih (take newer rank start current bid) with h | ⟨other, hother, h⟩
    · rw [h]
      rcases take_eq_or newer rank start current bid with hbid | hold
      · exact .inr ⟨bid, List.mem_cons_self, hbid⟩
      · exact .inl hold
    · exact .inr ⟨other, List.mem_cons_of_mem _ hother, h⟩

theorem foldl_take_stays {bids : List α} {bid : α}
    (h : ∀ other ∈ bids, newer other (rank bid) = false) :
    bids.foldl (take newer rank start) (some bid) = some bid := by
  induction bids with
  | nil => rfl
  | cons other bids ih =>
    have hother : take newer rank start (some bid) other = some bid := by
      simp [take, h other List.mem_cons_self]
    rw [List.foldl_cons, hother]
    exact ih fun third hthird => h third (List.mem_cons_of_mem _ hthird)

/-- Where the value in force survives bids that are all different from it, none
of them is newer. -/
theorem foldl_take_survives {bids : List α} {bid : α} (hne : bid ∉ bids)
    (h : bids.foldl (take newer rank start) (some bid) = some bid) :
    ∀ other ∈ bids, newer other (rank bid) = false := by
  induction bids with
  | nil => simp
  | cons other bids ih =>
    rw [List.mem_cons, not_or] at hne
    rw [List.foldl_cons] at h
    by_cases hother : newer other (rank bid) = true
    · have htaken : take newer rank start (some bid) other = some other := by
        simp [take, hother]
      rw [htaken] at h
      rcases foldl_take_mem newer rank start bids (some other) with hsame | ⟨third, hthird, hsame⟩
      · rw [h] at hsame
        exact absurd (Option.some.inj hsame) hne.1
      · rw [h] at hsame
        exact absurd (Option.some.inj hsame ▸ hthird) hne.2
    · have hkept : take newer rank start (some bid) other = some bid := by
        simp [take, hother]
      rw [hkept] at h
      intro third hthird
      rcases List.mem_cons.mp hthird with rfl | hthird
      · exact Bool.eq_false_iff.mpr hother
      · exact ih hne.2 h third hthird

theorem lastNewer_split (earlier later : List α) (bid : α) (hbid : newer bid start = true)
    (hlater : ∀ other ∈ later, newer other start = false) :
    lastNewer newer start (earlier ++ bid :: later) = some bid := by
  have hnone : later.filter (fun other => newer other start) = [] := by
    apply List.filter_eq_nil_iff.mpr
    intro other hother
    simp [hlater other hother]
  simp [lastNewer, hbid, hnone]

/-- Either no bid is newer than the start, or there is a last one that is. -/
theorem exists_last (bids : List α) :
    (∀ bid ∈ bids, newer bid start = false) ∨
      ∃ earlier bid later, bids = earlier ++ bid :: later ∧ newer bid start = true ∧
        ∀ other ∈ later, newer other start = false := by
  induction bids with
  | nil => simp
  | cons bid bids ih =>
    rcases ih with hnone | ⟨earlier, last, later, rfl, hlast, hlater⟩
    · by_cases hbid : newer bid start = true
      · exact .inr ⟨[], bid, bids, rfl, hbid, hnone⟩
      · left
        intro other hother
        rcases List.mem_cons.mp hother with rfl | hother
        · exact Bool.eq_false_iff.mpr hbid
        · exact hnone other hother
    · exact .inr ⟨bid :: earlier, last, later, rfl, hlast, hlater⟩

theorem inForce_none {bids : List α} (h : ∀ bid ∈ bids, newer bid start = false) :
    inForce newer rank start bids = none := by
  unfold inForce
  induction bids with
  | nil => rfl
  | cons bid bids ih =>
    have hbid : take newer rank start none bid = none := by
      simp [take, h bid List.mem_cons_self]
    rw [List.foldl_cons, hbid]
    exact ih fun other hother => h other (List.mem_cons_of_mem _ hother)

theorem inForce_isSome_iff (bids : List α) :
    (inForce newer rank start bids).isSome = (lastNewer newer start bids).isSome := by
  rcases exists_last newer start bids with hnone | ⟨earlier, bid, later, rfl, hbid, hlater⟩
  · rw [inForce_none newer rank start hnone]
    unfold lastNewer
    rw [List.filter_eq_nil_iff.mpr fun bid hb => by simp [hnone bid hb]]
    rfl
  · rw [lastNewer_split newer start earlier later bid hbid hlater]
    have hstep : ∀ (bids : List α) (current : Option α),
        current.isSome → (bids.foldl (take newer rank start) current).isSome := by
      intro bids current hcurrent
      rcases foldl_take_mem newer rank start bids current with h | ⟨_, _, h⟩
      · rwa [h]
      · simp [h]
    unfold inForce
    rw [List.foldl_append, List.foldl_cons]
    apply hstep
    cases hearlier : earlier.foldl (take newer rank start) none with
    | none => simp [take, hbid]
    | some other =>
      rcases take_eq_or newer rank start (some other) bid with h | h <;> simp [h]

theorem inForce_eq_lastNewer_iff (bids : List α) :
    inForce newer rank start bids = lastNewer newer start bids ↔
      LastWins newer rank start bids := by
  constructor
  · intro h earlier bid later hsplit hbid hlater
    rw [hsplit, lastNewer_split newer start earlier later bid hbid hlater] at h
    unfold inForce at h
    rw [List.foldl_append, List.foldl_cons] at h
    have hne : bid ∉ later := fun hmem => by simp [hlater bid hmem] at hbid
    have htaken : take newer rank start (inForce newer rank start earlier) bid = some bid := by
      rcases foldl_take_mem newer rank start later
        (take newer rank start (inForce newer rank start earlier) bid) with hsame | ⟨other, hother, hsame⟩
      · rw [← hsame]
        exact h
      · have hsome : some bid = some other := h.symm.trans hsame
        exact absurd (Option.some.inj hsome ▸ hother) hne
    refine ⟨htaken, foldl_take_survives newer rank start hne ?_⟩
    have hfold := h
    change later.foldl _ (take newer rank start (inForce newer rank start earlier) bid) = _ at hfold
    rwa [htaken] at hfold
  · intro h
    rcases exists_last newer start bids with hnone | ⟨earlier, bid, later, hsplit, hbid, hlater⟩
    · rw [inForce_none newer rank start hnone]
      unfold lastNewer
      rw [List.filter_eq_nil_iff.mpr fun bid hb => by simp [hnone bid hb]]
      rfl
    · rcases h earlier bid later hsplit hbid hlater with ⟨htaken, hstays⟩
      rw [hsplit, lastNewer_split newer start earlier later bid hbid hlater]
      unfold inForce
      rw [List.foldl_append, List.foldl_cons]
      change later.foldl _ (take newer rank start (inForce newer rank start earlier) bid) = _
      rw [htaken]
      exact foldl_take_stays newer rank start hstays

end Bids

end DaygleDns
