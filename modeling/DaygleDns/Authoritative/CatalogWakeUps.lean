import DaygleDns.Authoritative.PublishedCatalog
import DaygleDns.Runs

/-! Which advances of the catalog's serial are followed by a wake-up of `catalog_zone_changed`. -/
namespace DaygleDns.Authoritative

open Text Obligations Runs

variable {N : Type} (names : CatalogNames N)

def CatalogCall.standing : CatalogCall N → Standing
  | .publish _ _ true | .notify true => .owing
  | .splitHorizon => .clear
  | .returned => .through
  | _ => .fresh

namespace Publisher

def ledger (w : Publisher N) : Ledger := ⟨w.calls.map CatalogCall.standing, w.trace⟩

/-- Every call that has returned has woken the waiters after each advance it made. -/
def Woken (w : Publisher N) : Prop := ∀ i : Nat, w.calls[i]? = some .returned → Answered i w.trace

/-- The call, about to go on, does not lose a wake-up by what it does next. -/
def spares (w : Publisher N) (fails : Bool) : CatalogCall N → Bool
  | .serial .transfer catalog members =>
      fails || (w.rows.find? fun row => row.name == catalog).any fun row => row.digest == catalogDigest names members
  | .publish zone _ true => zone.all fun zone => names.builds zone.1 zone.2
  | _ => true

/-- No transfer advances the serial, and no reload that has advanced it fails to build the zone. -/
def Meets (w : Publisher N) : CatalogInput → Prop
  | .step i fails _ => w.calls[i]?.all (w.spares names fails) = true
  | _ => True

instance decidableMeets (w : Publisher N) : ∀ input, Decidable (w.Meets names input)
  | .step i fails _ => inferInstanceAs (Decidable (w.calls[i]?.all (w.spares names fails) = true))
  | .change _ | .configure _ | .reload | .transfer _ => .isTrue trivial

variable {names}
variable {w : Publisher N} {i : Nat} {call : CatalogCall N}

theorem catalogSerial_changed (rows : List CatalogRow) (name digest : Text) (now : UInt32) :
    (catalogSerial rows name digest now).1.2 = !(rows.find? fun row => row.name == name).any fun row => row.digest == digest := by
  unfold catalogSerial
  cases rows.find? fun row => row.name == name with
  | none => simp
  | some row =>
    by_cases h : row.digest = digest
    · simp [h]
    · simp [h]

theorem kept_ledger : w.ledger.Kept ↔ w.Woken := by
  have hthrough : ∀ i : Nat, w.ledger.standings[i]? = some .through ↔ w.calls[i]? = some .returned := by
    intro i
    change (w.calls.map CatalogCall.standing)[i]? = _ ↔ _
    rw [List.getElem?_map, Option.map_eq_some_iff]
    constructor
    · intro h
      obtain ⟨call, hcall, hstanding⟩ := h
      rw [hcall]
      unfold CatalogCall.standing at hstanding
      split at hstanding <;> first | rfl | cases hstanding
    · intro h
      exact ⟨.returned, h, rfl⟩
  exact forall_congr' fun i => imp_congr_left (hthrough i)

theorem ledger_goTo (next : CatalogCall N) : (w.goTo i next).ledger = w.ledger.move i [] next.standing := by
  simp [ledger, goTo, Ledger.move, List.map_set]

theorem ledger_finish (call : CatalogCall N) : (w.finish i call).ledger = w.ledger.move i [] .through := ledger_goTo .returned

theorem ledger_stays (h : w.calls[i]? = some call) : w.ledger = w.ledger.move i [] call.standing := by
  obtain ⟨hi, hcall⟩ := List.getElem?_eq_some_iff.mp h
  have hset : w.calls.set i call = w.calls := by
    rw [← hcall]
    exact List.set_getElem_self hi
  rw [← ledger_goTo, goTo, hset]

/-- What the events and the next place of a call come to: a move that keeps its promise exactly
when it spares the wake-up. -/
def Moves (w next : Publisher N) (i : Nat) (old : Standing) (spares : Bool) : Prop :=
  ∃ events new, next.ledger = w.ledger.move i events new ∧
    (spares = true ∧ Keeps i old events new ∨ spares = false ∧ Drops i old events new)

theorem moves_keeps {next : Publisher N} {old new : Standing} {events : List Event}
    (hledger : next.ledger = w.ledger.move i events new) (hmove : Keeps i old events new) : Moves w next i old true :=
  ⟨events, new, hledger, .inl ⟨rfl, hmove⟩⟩

theorem moves_finish (old : CatalogCall N) : Moves w (w.finish i old) i .fresh true :=
  moves_keeps (ledger_finish old) .leaves

theorem moves_goTo {next : CatalogCall N} (h : next.standing = .fresh) : Moves w (w.goTo i next) i .fresh true := by
  apply moves_keeps (ledger_goTo next)
  rw [h]
  exact .stays .fresh

variable {fails : Bool} {now : UInt32}

theorem moves_lock (h : w.calls[i]? = some .lock) : Moves w (w.act names i .lock fails now) i .fresh true := by
  simp only [act]
  split
  · exact moves_keeps (ledger_stays h) (.stays .fresh)
  · exact moves_keeps (ledger_goTo .settings) (.stays .fresh)

theorem moves_serial {caller : Caller} {catalog : Text} {members : List (Text × N)} :
    Moves w (w.act names i (.serial caller catalog members) fails now) i .fresh
      (w.spares names fails (.serial caller catalog members)) := by
  cases fails with
  | true =>
    refine ⟨[], .through, ledger_finish _, .inl ⟨?_, .leaves⟩⟩
    cases caller <;> rfl
  | false =>
    have hchanged := catalogSerial_changed w.rows catalog (catalogDigest names members) now
    cases hserial : (catalogSerial w.rows catalog (catalogDigest names members) now).1.2 with
    | false =>
      rw [hserial] at hchanged
      cases caller with
      | reload sets =>
        refine ⟨[], .fresh, ?_, .inl ⟨rfl, .stays .fresh⟩⟩
        simp only [act, hserial]
        exact ledger_goTo (.publish (some (catalog, members)) sets false)
      | transfer =>
        refine ⟨[], .through, ?_, .inl ⟨by simpa [spares] using hchanged, .leaves⟩⟩
        simp only [act, hserial]
        exact ledger_finish (.serial .transfer catalog members)
    | true =>
      rw [hserial] at hchanged
      cases caller with
      | reload sets =>
        refine ⟨[.changed i], .owing, ?_, .inl ⟨rfl, .changes⟩⟩
        have hledger := ledger_goTo (w := w) (i := i) (.publish (some (catalog, members)) sets true)
        simp only [act, hserial]
        exact congrArg (fun ledger : Ledger => { ledger with trace := .changed i :: w.trace }) hledger
      | transfer =>
        refine ⟨[.changed i], .through, ?_, .inr ⟨by simpa [spares] using hchanged, .unreported⟩⟩
        have hledger := @ledger_finish N w i (.serial .transfer catalog members)
        simp only [act, hserial]
        exact congrArg (fun ledger : Ledger => { ledger with trace := .changed i :: w.trace }) hledger

theorem moves_publish {zone : Option (Text × List (Text × N))} {sets : List Text} {changed : Bool} :
    Moves w (w.act names i (.publish zone sets changed) fails now) i (CatalogCall.publish zone sets changed).standing
      (w.spares names fails (.publish zone sets changed)) := by
  cases hbuilds : zone.all fun zone => names.builds zone.1 zone.2 with
  | true =>
    have hledger := ledger_goTo (w := w) (i := i) (.notify changed)
    cases changed with
    | true =>
      refine ⟨[], .owing, ?_, .inl ⟨hbuilds, .stays .owing⟩⟩
      simp only [act, hbuilds]
      exact hledger
    | false =>
      refine ⟨[], .fresh, ?_, .inl ⟨rfl, .stays .fresh⟩⟩
      simp only [act, hbuilds]
      exact hledger
  | false =>
    have hledger := @ledger_finish N w i (.publish zone sets changed)
    cases changed with
    | true =>
      refine ⟨[], .through, ?_, .inr ⟨by simp [spares, hbuilds], .gives⟩⟩
      simp only [act, hbuilds]
      exact hledger
    | false =>
      refine ⟨[], .through, ?_, .inl ⟨rfl, .leaves⟩⟩
      simp only [act, hbuilds]
      exact hledger

theorem moves_notify {changed : Bool} :
    Moves w (w.act names i (.notify changed) fails now) i (CatalogCall.notify (N := N) changed).standing true := by
  have hledger := ledger_goTo (w := w) (i := i) (.splitHorizon)
  cases changed with
  | true => exact ⟨[.reported i], .clear, congrArg (fun ledger : Ledger => { ledger with trace := .reported i :: w.trace }) hledger, .inl ⟨rfl, .reports⟩⟩
  | false => exact ⟨[], .clear, hledger, .inl ⟨rfl, .passes⟩⟩

/-- Whatever a call does next moves it in the ledger. -/
theorem moves_act (h : w.calls[i]? = some call) :
    Moves w (w.act names i call fails now) i call.standing (w.spares names fails call) := by
  cases call with
  | lock => exact moves_lock h
  | settings => exact moves_goTo rfl
  | data catalog =>
    simp only [act]
    split
    · exact moves_finish _
    · split
      · exact moves_finish _
      · cases catalog.isEmpty <;> exact moves_goTo rfl
  | hosted catalog sets =>
    simp only [act]
    split
    · exact moves_finish _
    · split <;> exact moves_goTo rfl
  | served zoneName =>
    simp only [act]
    split
    · exact moves_finish _
    · exact moves_goTo rfl
  | findZone zoneName =>
    simp only [act]
    split
    · exact moves_finish _
    · split
      · exact moves_finish _
      · exact moves_goTo rfl
  | catalogName zoneName =>
    simp only [act]
    split
    · exact moves_finish _
    · exact moves_goTo rfl
  | secondary caller catalog =>
    simp only [act]
    split
    · exact moves_finish _
    · exact moves_goTo rfl
  | zones caller catalog secondary =>
    simp only [act]
    split
    · exact moves_finish _
    · split
      · exact moves_finish _
      · exact moves_goTo rfl
  | serial caller catalog members => exact moves_serial
  | publish zone sets changed => exact moves_publish
  | notify changed => exact moves_notify
  | splitHorizon => exact moves_keeps (ledger_finish _) .ends
  | returned => exact moves_keeps (ledger_stays h) (.stays .through)

/-- What an input does to the ledger. -/
theorem ledger_step (w : Publisher N) (input : CatalogInput) :
    ((w.step names input).ledger = w.ledger ∧ w.Meets names input) ∨
      ((w.step names input).ledger = w.ledger.join ∧ w.Meets names input) ∨
      ∃ i old spares, w.ledger.standings[i]? = some old ∧ (w.Meets names input ↔ spares = true) ∧
        Moves w (w.step names input) i old spares := by
  have hjoin : ∀ call : CatalogCall N, call.standing = .fresh →
      ({ w with calls := w.calls ++ [call] } : Publisher N).ledger = w.ledger.join := by
    intro call hfresh
    simp [ledger, Ledger.join, hfresh]
  cases input with
  | change store => exact .inl ⟨rfl, trivial⟩
  | configure catalogZone => exact .inl ⟨rfl, trivial⟩
  | reload => exact .inr (.inl ⟨hjoin .lock rfl, trivial⟩)
  | transfer zoneName => exact .inr (.inl ⟨hjoin (.served zoneName) rfl, trivial⟩)
  | step i fails now =>
    cases hcall : w.calls[i]? with
    | none =>
      simp only [step, Meets, hcall]
      exact .inl ⟨trivial, rfl⟩
    | some call =>
      have hmeets : w.Meets names (.step i fails now) ↔ w.spares names fails call := by
        rw [Meets, hcall, Option.all_some]
      have hstanding : w.ledger.standings[i]? = some call.standing := by
        simp [ledger, hcall]
      refine .inr (.inr ⟨i, call.standing, w.spares names fails call, hstanding, hmeets, ?_⟩)
      rw [step, hcall]
      exact moves_act hcall

theorem sound_step (h : w.ledger.Sound) (input : CatalogInput) : (w.step names input).ledger.Sound := by
  rcases ledger_step w input with hstep | hstep | hstep
  · rw [hstep.1]
    exact h
  · rw [hstep.1]
    exact h.join
  · obtain ⟨i, old, spares, hold, hmeets, events, new, hledger, hmove⟩ := hstep
    rw [hledger]
    rcases hmove with hkeeps | hdrops
    · exact h.move hold hkeeps.2.events (hkeeps.2.consistent (h.consistent i old hold))
    · apply h.move hold hdrops.2.events
      rw [(hdrops.2.not_answered (h.consistent i old hold)).1]
      trivial

theorem woken_step (h : w.ledger.Sound) (hwoken : w.Woken) (input : CatalogInput) :
    (w.step names input).Woken ↔ w.Meets names input := by
  rw [← kept_ledger] at hwoken ⊢
  rcases ledger_step w input with hstep | hstep | hstep
  · rw [hstep.1]
    exact iff_of_true hwoken hstep.2
  · rw [hstep.1]
    exact iff_of_true (Ledger.kept_join.mpr hwoken) hstep.2
  · obtain ⟨i, old, spares, hold, hmeets, events, new, hledger, hmove⟩ := hstep
    rw [hledger, hmeets]
    rcases hmove with hkeeps | hdrops
    · exact iff_of_true (Ledger.kept_move h hwoken hold hkeeps.2) hkeeps.1
    · exact iff_of_false (Ledger.not_kept_move h hold hdrops.2) (by simp [hdrops.1])

/-- From a server without calls under way, whatever its zones, its catalog and its serials. -/
theorem wake_ups_iff (names : CatalogNames N) (start : Publisher N) (hcalls : start.calls = []) (htrace : start.trace = [])
    (inputs : List CatalogInput) :
    Always (step names) Woken start inputs ↔ Each (step names) (Meets names) start inputs := by
  have hempty : start.ledger = ⟨[], []⟩ := by
    rw [ledger, hcalls, htrace]
    rfl
  have hwoken : start.Woken := by
    rw [← kept_ledger, hempty]
    exact Ledger.kept_empty
  have hsound : start.ledger.Sound := by
    rw [hempty]
    exact Ledger.sound_empty
  exact always_iff_each (fun w => w.ledger.Sound) Woken (Meets names) (fun w input h => sound_step h input)
    (fun w input h hwoken => woken_step h hwoken input) inputs hsound hwoken

/-- A server that publishes the catalog of no zones. -/
def published : Publisher Text where
  store := .empty
  rows := [⟨"catalog.example".toList, [], 7⟩]
  catalogZone := "catalog.example".toList
  reloading := false
  transferSets := []
  calls := []
  trace := []

/-- Names that are their own text. -/
def textNames : CatalogNames Text where
  idText := ofNat
  fqdnName := some
  display := id
  before := fun _ _ => true
  builds := fun _ _ => true
  served := fun _ => some []

def steps (call count : Nat) : List CatalogInput := List.replicate count (.step call false 0)

/-- The zone is created, and the reload tells the secondaries. -/
theorem wake_ups_reload :
    published.calls = [] ∧ published.trace = [] ∧
      Always (step textNames) Woken published (.change .exampleCom :: .reload :: steps 0 9) :=
  ⟨rfl, rfl, (wake_ups_iff textNames published rfl rfl _).mpr (by decide +kernel)⟩

/-- A secondary asks for the catalog between the creation and its reload: the serial moves on
with the transfer, and the reload has nothing to tell. -/
theorem wake_ups_fails :
    let inputs := .change .exampleCom :: .transfer "catalog.example".toList :: steps 0 6 ++ .reload :: steps 1 9
    (run (step textNames) published inputs).rows.map (fun row => row.serial) = [8] ∧
      (run (step textNames) published inputs).trace = [.changed 0] ∧
      ¬Always (step textNames) Woken published inputs := by
  intro inputs
  have htrace : (run (step textNames) published inputs).trace = [.changed 0] := by decide +kernel
  have hcalls : (run (step textNames) published inputs).calls[0]? = some .returned := rfl
  refine ⟨by decide +kernel, htrace, fun h => ?_⟩
  have hanswered := (always_iff_prefixes _ _ _).mp h inputs (List.prefix_refl _) 0 hcalls
  rw [htrace] at hanswered
  exact absurd (hanswered [] [] rfl) List.not_mem_nil

end Publisher

end DaygleDns.Authoritative
