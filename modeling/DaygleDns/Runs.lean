import Mathlib.Tactic.Common

/-! Finite runs of a machine: what one step keeps, a run keeps. -/
namespace DaygleDns.Runs

variable {σ ι : Type}

def run (step : σ → ι → σ) (start : σ) (inputs : List ι) : σ := inputs.foldl step start

/-- `holds` in every state of the run, the first and the last included. -/
def Always (step : σ → ι → σ) (holds : σ → Prop) : σ → List ι → Prop
  | state, [] => holds state
  | state, input :: inputs => holds state ∧ Always step holds (step state input) inputs

/-- `meets` of every input of the run, in the state that receives it. -/
def Each (step : σ → ι → σ) (meets : σ → ι → Prop) : σ → List ι → Prop
  | _, [] => True
  | state, input :: inputs => meets state input ∧ Each step meets (step state input) inputs

variable {step : σ → ι → σ}

@[simp] theorem run_nil (start : σ) : run step start [] = start := rfl

@[simp] theorem run_cons (start : σ) (input : ι) (inputs : List ι) :
    run step start (input :: inputs) = run step (step start input) inputs := rfl

theorem run_append (start : σ) (first second : List ι) :
    run step start (first ++ second) = run step (run step start first) second :=
  List.foldl_append

/-- An invariant of the step is an invariant of the run. -/
theorem run_invariant (inv : σ → Prop) (hstep : ∀ state input, inv state → inv (step state input))
    (inputs : List ι) {start : σ} (hstart : inv start) : inv (run step start inputs) := by
  induction inputs generalizing start with
  | nil => exact hstart
  | cons input inputs ih => exact ih (hstep start input hstart)

/-- An invariant of the steps on inputs that meet a condition. -/
theorem run_invariant_of_forall (inv : σ → Prop) {meets : ι → Prop}
    (hstep : ∀ state input, inv state → meets input → inv (step state input)) (inputs : List ι)
    (hmeets : ∀ input ∈ inputs, meets input) {start : σ} (hstart : inv start) : inv (run step start inputs) := by
  induction inputs generalizing start with
  | nil => exact hstart
  | cons input inputs ih =>
    refine ih (fun other hother => hmeets other (List.mem_cons_of_mem _ hother)) ?_
    exact hstep start input hstart (hmeets input List.mem_cons_self)

theorem always_of_step {holds : σ → Prop} (hstep : ∀ state input, holds state → holds (step state input))
    (inputs : List ι) {start : σ} (hstart : holds start) : Always step holds start inputs := by
  induction inputs generalizing start with
  | nil => exact hstart
  | cons input inputs ih => exact ⟨hstart, ih (hstep start input hstart)⟩

theorem each_of_forall {meets : σ → ι → Prop} (h : ∀ state input, meets state input)
    (inputs : List ι) (start : σ) : Each step meets start inputs := by
  induction inputs generalizing start with
  | nil => trivial
  | cons input inputs ih => exact ⟨h start input, ih (step start input)⟩

theorem each_mono {first second : σ → ι → Prop} (h : ∀ state input, first state input → second state input)
    (inputs : List ι) (start : σ) (hfirst : Each step first start inputs) :
    Each step second start inputs := by
  induction inputs generalizing start with
  | nil => trivial
  | cons input inputs ih => exact ⟨h start input hfirst.1, ih (step start input) hfirst.2⟩

/-- What inputs that meet a condition keep of the states, and what it makes good. -/
theorem each_of_invariant (inv : σ → Prop) {meets good : σ → ι → Prop}
    (hstep : ∀ state input, inv state → meets state input → inv (step state input))
    (hgood : ∀ state input, inv state → meets state input → good state input)
    (inputs : List ι) {start : σ} (hstart : inv start) (hmeets : Each step meets start inputs) :
    Each step good start inputs := by
  induction inputs generalizing start with
  | nil => trivial
  | cons input inputs ih =>
    exact ⟨hgood start input hstart hmeets.1, ih (hstep start input hstart hmeets.1) hmeets.2⟩

/-- What inputs that meet a condition keep of the states holds always. -/
theorem always_of_invariant (inv : σ → Prop) {meets : σ → ι → Prop}
    (hstep : ∀ state input, inv state → meets state input → inv (step state input))
    (inputs : List ι) {start : σ} (hstart : inv start) (hmeets : Each step meets start inputs) :
    Always step inv start inputs := by
  induction inputs generalizing start with
  | nil => exact hstart
  | cons input inputs ih => exact ⟨hstart, ih (hstep start input hstart hmeets.1) hmeets.2⟩

theorem always_mono {first second : σ → Prop} (h : ∀ state, first state → second state) {inputs : List ι}
    {start : σ} (hfirst : Always step first start inputs) : Always step second start inputs := by
  induction inputs generalizing start with
  | nil => exact h start hfirst
  | cons input inputs ih => exact ⟨h start hfirst.1, ih hfirst.2⟩

instance decidableEach (meets : σ → ι → Prop) [∀ state input, Decidable (meets state input)] :
    ∀ (start : σ) (inputs : List ι), Decidable (Each step meets start inputs)
  | _, [] => .isTrue trivial
  | start, input :: inputs =>
      have := decidableEach meets (step start input) inputs
      inferInstanceAs (Decidable (meets start input ∧ Each step meets (step start input) inputs))

theorem each_and {first second : σ → ι → Prop} {inputs : List ι} {start : σ}
    (hfirst : Each step first start inputs) (hsecond : Each step second start inputs) :
    Each step (fun state input => first state input ∧ second state input) start inputs := by
  induction inputs generalizing start with
  | nil => trivial
  | cons input inputs ih => exact ⟨⟨hfirst.1, hsecond.1⟩, ih hfirst.2 hsecond.2⟩

theorem each_append {meets : σ → ι → Prop} {first second : List ι} {start : σ}
    (h : Each step meets start (first ++ second)) : Each step meets (run step start first) second := by
  induction first generalizing start with
  | nil => exact h
  | cons input first ih => exact ih h.2

theorem always_iff_prefixes (holds : σ → Prop) (start : σ) (inputs : List ι) :
    Always step holds start inputs ↔ ∀ done, done <+: inputs → holds (run step start done) := by
  induction inputs generalizing start with
  | nil => simp [Always]
  | cons input inputs ih =>
    simp only [Always, ih]
    constructor
    · rintro ⟨hstart, hrest⟩ done hdone
      cases done with
      | nil => exact hstart
      | cons first done =>
        obtain ⟨rfl, hlater⟩ := List.cons_prefix_cons.mp hdone
        exact hrest done hlater
    · intro h
      refine ⟨h [] List.nil_prefix, fun done hdone => ?_⟩
      exact h (input :: done) (List.cons_prefix_cons.mpr ⟨rfl, hdone⟩)

/-- Where a step that is allowed keeps `holds` exactly when its input meets a condition,
every state of the run is good exactly when every input meets it. `inv` is what the
equivalence may use of the states besides. -/
theorem always_iff_each_of_allowed (inv holds : σ → Prop) (allowed meets : σ → ι → Prop)
    (hinv : ∀ state input, inv state → allowed state input → inv (step state input))
    (hiff : ∀ state input, inv state → holds state → allowed state input →
      (holds (step state input) ↔ meets state input))
    (inputs : List ι) {start : σ} (hstart : inv start) (hholds : holds start)
    (hallowed : Each step allowed start inputs) :
    Always step holds start inputs ↔ Each step meets start inputs := by
  induction inputs generalizing start with
  | nil => simp [Always, Each, hholds]
  | cons input inputs ih =>
    obtain ⟨hinput, hlater⟩ := hallowed
    have hfirst : Always step holds (step start input) inputs → holds (step start input) := by
      cases inputs with
      | nil => exact id
      | cons => exact And.left
    constructor
    · rintro ⟨_, hrest⟩
      have hnext := hfirst hrest
      exact ⟨(hiff start input hstart hholds hinput).mp hnext,
        (ih (hinv start input hstart hinput) hnext hlater).mp hrest⟩
    · rintro ⟨hmeets, hrest⟩
      have hnext := (hiff start input hstart hholds hinput).mpr hmeets
      exact ⟨hholds, (ih (hinv start input hstart hinput) hnext hlater).mpr hrest⟩

theorem always_iff_each (inv holds : σ → Prop) (meets : σ → ι → Prop)
    (hinv : ∀ state input, inv state → inv (step state input))
    (hiff : ∀ state input, inv state → holds state → (holds (step state input) ↔ meets state input))
    (inputs : List ι) {start : σ} (hstart : inv start) (hholds : holds start) :
    Always step holds start inputs ↔ Each step meets start inputs :=
  always_iff_each_of_allowed inv holds (fun _ _ => True) meets (fun state input h _ => hinv state input h)
    (fun state input h hstate _ => hiff state input h hstate) inputs hstart hholds
    (each_of_forall (fun _ _ => trivial) inputs start)

/-- Two conditions that the invariant makes equivalent, in runs whose inputs are allowed. -/
theorem each_congr_of_allowed (inv : σ → Prop) (allowed first second : σ → ι → Prop)
    (hinv : ∀ state input, inv state → allowed state input → inv (step state input))
    (hiff : ∀ state input, inv state → (first state input ↔ second state input))
    (inputs : List ι) {start : σ} (hstart : inv start) (hallowed : Each step allowed start inputs) :
    Each step first start inputs ↔ Each step second start inputs := by
  induction inputs generalizing start with
  | nil => simp [Each]
  | cons input inputs ih =>
    simp only [Each, hiff start input hstart, ih (hinv start input hstart hallowed.1) hallowed.2]

theorem each_congr (inv : σ → Prop) (first second : σ → ι → Prop)
    (hinv : ∀ state input, inv state → inv (step state input))
    (hiff : ∀ state input, inv state → (first state input ↔ second state input))
    (inputs : List ι) {start : σ} (hstart : inv start) :
    Each step first start inputs ↔ Each step second start inputs :=
  each_congr_of_allowed inv (fun _ _ => True) first second (fun state input h _ => hinv state input h) hiff inputs hstart
    (each_of_forall (fun _ _ => trivial) inputs start)

end DaygleDns.Runs
