import Mathlib.Tactic.Common

/-! Resources lent for a time. A book says who holds a resource until when; a
promise is what a holder was told. Where the book backs every promise that was
made, a resource that is free for one holder is promised to no other. -/
namespace DaygleDns

/-- A holder's time on a resource. A `firm` one may be used, the others are offers. -/
structure Hold (χ : Type) where
  holder : χ
  ends : Int
  firm : Bool
deriving DecidableEq

structure Promise (ρ χ : Type) extends Hold χ where
  resource : ρ
deriving DecidableEq

namespace Promise

variable {ρ χ : Type}

/-- A promise whose time has not ended is kept by the book. -/
def Backed (book : ρ → Option (Hold χ)) (now : Int) (p : Promise ρ χ) : Prop :=
  now < p.ends → ∃ hold, book p.resource = some hold ∧ hold.holder = p.holder ∧ p.ends ≤ hold.ends ∧
    (p.firm → hold.firm)

/-- Whether the book lets `holder` have `resource`. -/
def Free (book : ρ → Option (Hold χ)) (now : Int) (resource : ρ) (holder : χ) : Prop :=
  ∀ hold, book resource = some hold → now < hold.ends → hold.holder = holder

variable {book after : ρ → Option (Hold χ)} {now next : Int} {p : Promise ρ χ}

theorem Backed.later (h : Backed book now p) (htime : now ≤ next) : Backed book next p :=
  fun hlive => h (by omega)

theorem Backed.of_eq (h : Backed book now p) (hsame : now < p.ends → after p.resource = book p.resource) :
    Backed after now p := by
  intro hlive
  rw [hsame hlive]
  exact h hlive

/-- A resource that is free for a holder is promised to nobody else. -/
theorem Backed.holder_eq (h : Backed book now p) (hlive : now < p.ends) {holder : χ}
    (hfree : Free book now p.resource holder) : p.holder = holder := by
  obtain ⟨hold, hbook, hholder, hends, _⟩ := h hlive
  rw [← hholder]
  exact hfree hold hbook (by omega)

/-- A new hold that lasts as long as the promise, and is firm if that is. -/
theorem Backed.of_hold (hold : Hold χ) (hbook : now < p.ends → after p.resource = some hold)
    (hholder : now < p.ends → hold.holder = p.holder) (hends : now < p.ends → p.ends ≤ hold.ends)
    (hfirm : now < p.ends → p.firm → hold.firm) : Backed after now p :=
  fun hlive => ⟨hold, hbook hlive, hholder hlive, hends hlive, hfirm hlive⟩

end Promise

end DaygleDns
