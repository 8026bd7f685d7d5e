import Mathlib.Tactic.Common

/-! Parties that make a change which they have to report: which of their moves keep the promise
that whoever is through has reported every change after it was made. -/
namespace DaygleDns.Obligations

inductive Event where
  | changed (party : Nat)
  | reported (party : Nat)
deriving DecidableEq, Repr

/-- Where a party is: before its change, between the change and the report, behind the report,
or through. -/
inductive Standing where
  | fresh
  | owing
  | clear
  | through
deriving DecidableEq, Repr

/-- A move of a party that reports what it has changed. -/
inductive Keeps (party : Nat) : Standing → List Event → Standing → Prop
  | stays (standing : Standing) : Keeps party standing [] standing
  | leaves : Keeps party .fresh [] .through
  | passes : Keeps party .fresh [] .clear
  | changes : Keeps party .fresh [.changed party] .owing
  | reports : Keeps party .owing [.reported party] .clear
  | ends : Keeps party .clear [] .through

/-- A move of a party that is through without the report. -/
inductive Drops (party : Nat) : Standing → List Event → Standing → Prop
  | unreported : Drops party .fresh [.changed party] .through
  | gives : Drops party .owing [] .through

/-- Every change of the party has a report of its own behind it; the latest event is first. -/
def Answered (party : Nat) (trace : List Event) : Prop :=
  ∀ later earlier, trace = later ++ .changed party :: earlier → .reported party ∈ later

/-- What the trace has of a party, by where it is. -/
def Consistent (trace : List Event) (party : Nat) : Standing → Prop
  | .fresh => .changed party ∉ trace ∧ .reported party ∉ trace
  | .owing => .changed party ∈ trace ∧ .reported party ∉ trace
  | .clear => Answered party trace
  | .through => True

variable {trace : List Event} {party : Nat}

theorem answered_of_unchanged (h : .changed party ∉ trace) : Answered party trace := by
  rintro later earlier rfl
  exact absurd (List.mem_append_right _ List.mem_cons_self) h

theorem answered_cons {event : Event} (hevent : event ≠ .changed party) (h : Answered party trace) :
    Answered party (event :: trace) := by
  intro later earlier heq
  cases later with
  | nil => exact absurd (List.cons.inj heq).1 hevent
  | cons first later =>
    rw [List.cons_append] at heq
    exact List.mem_cons_of_mem _ (h later earlier (List.cons.inj heq).2)

theorem answered_reported : Answered party (.reported party :: trace) := by
  intro later earlier heq
  cases later with
  | nil => cases (List.cons.inj heq).1
  | cons first later =>
    rw [List.cons_append] at heq
    rw [← (List.cons.inj heq).1]
    exact List.mem_cons_self

theorem not_answered (hchanged : .changed party ∈ trace) (hreported : .reported party ∉ trace) : ¬Answered party trace := by
  intro h
  obtain ⟨later, earlier, heq⟩ := List.append_of_mem hchanged
  have hmem := h later earlier heq
  rw [heq] at hreported
  exact hreported (List.mem_append_left _ hmem)

/-- Events of others change nothing. -/
theorem consistent_other {events : List Event} (h : ∀ event ∈ events, event ≠ .changed party ∧ event ≠ .reported party)
    {standing : Standing} (hold : Consistent trace party standing) : Consistent (events ++ trace) party standing := by
  induction events with
  | nil => exact hold
  | cons event events ih =>
    rw [List.forall_mem_cons] at h
    have hrest := ih h.2
    have hchanged : .changed party ∈ event :: (events ++ trace) ↔ .changed party ∈ events ++ trace := by
      rw [List.mem_cons, or_iff_right h.1.1.symm]
    have hreported : .reported party ∈ event :: (events ++ trace) ↔ .reported party ∈ events ++ trace := by
      rw [List.mem_cons, or_iff_right h.1.2.symm]
    cases standing with
    | fresh => exact ⟨fun hmem => hrest.1 (hchanged.mp hmem), fun hmem => hrest.2 (hreported.mp hmem)⟩
    | owing => exact ⟨hchanged.mpr hrest.1, fun hmem => hrest.2 (hreported.mp hmem)⟩
    | clear => exact answered_cons h.1.1 hrest
    | through => trivial

theorem answered_other {events : List Event} (h : ∀ event ∈ events, event ≠ .changed party)
    (hold : Answered party trace) : Answered party (events ++ trace) := by
  induction events with
  | nil => exact hold
  | cons event events ih =>
    rw [List.forall_mem_cons] at h
    exact answered_cons h.1 (ih h.2)

theorem Keeps.events {old new : Standing} {events : List Event} (h : Keeps party old events new) :
    ∀ event ∈ events, event = .changed party ∨ event = .reported party := by
  cases h <;> simp

theorem Drops.events {old new : Standing} {events : List Event} (h : Drops party old events new) :
    ∀ event ∈ events, event = .changed party ∨ event = .reported party := by
  cases h <;> simp

theorem Keeps.consistent {old new : Standing} {events : List Event} (h : Keeps party old events new)
    (hold : Consistent trace party old) : Consistent (events ++ trace) party new := by
  cases h with
  | stays => exact hold
  | leaves => trivial
  | passes => exact answered_of_unchanged hold.1
  | changes => exact ⟨List.mem_cons_self, by simpa using hold.2⟩
  | reports => exact answered_reported
  | ends => trivial

/-- A party that has kept its promise is through only behind its report. -/
theorem Keeps.answered {old : Standing} {events : List Event} (h : Keeps party old events .through)
    (hold : Consistent trace party old) (hthrough : old = .through → Answered party trace) : Answered party (events ++ trace) := by
  cases h with
  | stays => exact hthrough rfl
  | leaves => exact answered_of_unchanged hold.1
  | ends => exact hold

theorem Drops.not_answered {old new : Standing} {events : List Event} (h : Drops party old events new)
    (hold : Consistent trace party old) : new = .through ∧ ¬Answered party (events ++ trace) := by
  cases h with
  | unreported => exact ⟨rfl, Obligations.not_answered List.mem_cons_self (by simpa using hold.2)⟩
  | gives => exact ⟨rfl, Obligations.not_answered hold.1 hold.2⟩

/-- Where all the parties are, and what has happened. -/
structure Ledger where
  standings : List Standing
  trace : List Event

namespace Ledger

def join (ledger : Ledger) : Ledger := { ledger with standings := ledger.standings ++ [.fresh] }

def move (ledger : Ledger) (party : Nat) (events : List Event) (new : Standing) : Ledger :=
  ⟨ledger.standings.set party new, events ++ ledger.trace⟩

/-- The trace is about the parties that are there, as far as they are. -/
structure Sound (ledger : Ledger) : Prop where
  consistent : ∀ i standing, ledger.standings[i]? = some standing → Consistent ledger.trace i standing
  absent : ∀ i, ledger.standings.length ≤ i → .changed i ∉ ledger.trace ∧ .reported i ∉ ledger.trace

/-- Every party that is through has reported its changes. -/
def Kept (ledger : Ledger) : Prop := ∀ i : Nat, ledger.standings[i]? = some .through → Answered i ledger.trace

theorem sound_empty : Sound ⟨[], []⟩ := by
  constructor
  · intro i standing h
    cases h
  · intro i _
    simp

theorem kept_empty : Kept ⟨[], []⟩ := by
  intro i h
  cases h

variable {ledger : Ledger}

theorem Sound.join (h : ledger.Sound) : ledger.join.Sound := by
  constructor
  · intro i standing hstanding
    change (ledger.standings ++ [Standing.fresh])[i]? = some standing at hstanding
    by_cases hi : i < ledger.standings.length
    · rw [List.getElem?_append_left hi] at hstanding
      exact h.consistent i standing hstanding
    · rw [List.getElem?_append_right (Nat.le_of_not_lt hi)] at hstanding
      have hfresh := List.mem_of_getElem? hstanding
      rw [List.mem_singleton.mp hfresh]
      exact h.absent i (Nat.le_of_not_lt hi)
  · intro i hi
    apply h.absent i
    change (ledger.standings ++ [Standing.fresh]).length ≤ i at hi
    rw [List.length_append] at hi
    omega

theorem kept_join : ledger.join.Kept ↔ ledger.Kept := by
  constructor
  · intro h i hi
    apply h i
    have hlt := (List.getElem?_eq_some_iff.mp hi).1
    exact (List.getElem?_append_left hlt).trans hi
  · intro h i hi
    apply h i
    change (ledger.standings ++ [Standing.fresh])[i]? = some .through at hi
    by_cases hlt : i < ledger.standings.length
    · rwa [List.getElem?_append_left hlt] at hi
    · rw [List.getElem?_append_right (Nat.le_of_not_lt hlt)] at hi
      have hfresh := List.mem_singleton.mp (List.mem_of_getElem? hi)
      cases hfresh

theorem getElem?_move {party : Nat} {old : Standing} (hold : ledger.standings[party]? = some old) (events : List Event)
    (new : Standing) (i : Nat) :
    (ledger.move party events new).standings[i]? = if i = party then some new else ledger.standings[i]? := by
  have hlt := (List.getElem?_eq_some_iff.mp hold).1
  change (ledger.standings.set party new)[i]? = _
  rw [List.getElem?_set]
  by_cases hi : i = party
  · subst hi
    simp [hlt]
  · rw [if_neg hi, if_neg (Ne.symm hi)]

theorem events_of_others {party : Nat} {events : List Event}
    (h : ∀ event ∈ events, event = .changed party ∨ event = .reported party) {i : Nat} (hi : i ≠ party) :
    ∀ event ∈ events, event ≠ .changed i ∧ event ≠ .reported i := by
  intro event hevent
  rcases h event hevent with rfl | rfl <;> simp [Ne.symm hi]

theorem Sound.move {party : Nat} {old new : Standing} {events : List Event} (h : ledger.Sound)
    (hold : ledger.standings[party]? = some old)
    (hevents : ∀ event ∈ events, event = .changed party ∨ event = .reported party)
    (hnew : Consistent (events ++ ledger.trace) party new) : (ledger.move party events new).Sound := by
  have hlt := (List.getElem?_eq_some_iff.mp hold).1
  constructor
  · intro i standing hstanding
    rw [getElem?_move hold] at hstanding
    by_cases hi : i = party
    · subst hi
      rw [if_pos rfl] at hstanding
      cases hstanding
      exact hnew
    · rw [if_neg hi] at hstanding
      exact consistent_other (events_of_others hevents hi) (h.consistent i standing hstanding)
  · intro i hi
    change (ledger.standings.set party new).length ≤ i at hi
    rw [List.length_set] at hi
    have hother : i ≠ party := by omega
    have hfresh : Consistent ledger.trace i .fresh := h.absent i hi
    exact consistent_other (events_of_others hevents hother) hfresh

/-- A move by which a party keeps the promise. -/
theorem kept_move {party : Nat} {old new : Standing} {events : List Event} (h : ledger.Sound) (hkept : ledger.Kept)
    (hold : ledger.standings[party]? = some old) (hmove : Keeps party old events new) :
    (ledger.move party events new).Kept := by
  intro i hi
  rw [getElem?_move hold] at hi
  by_cases hparty : i = party
  · subst hparty
    rw [if_pos rfl] at hi
    cases hi
    exact hmove.answered (h.consistent i old hold) fun hthrough => hkept i (hthrough ▸ hold)
  · rw [if_neg hparty] at hi
    exact answered_other (fun event hevent => (events_of_others hmove.events hparty event hevent).1) (hkept i hi)

/-- A move by which it does not. -/
theorem not_kept_move {party : Nat} {old new : Standing} {events : List Event} (h : ledger.Sound)
    (hold : ledger.standings[party]? = some old) (hmove : Drops party old events new) :
    ¬(ledger.move party events new).Kept := by
  intro hkept
  obtain ⟨rfl, hanswered⟩ := hmove.not_answered (h.consistent party old hold)
  apply hanswered
  apply hkept party
  rw [getElem?_move hold, if_pos rfl]

end Ledger

end DaygleDns.Obligations
