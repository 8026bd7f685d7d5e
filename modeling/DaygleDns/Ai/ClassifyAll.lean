import DaygleDns.Ai.Scanner
import DaygleDns.Chunks
import DaygleDns.Fallible

/-! The classification of the pending domains by several workers. -/
namespace DaygleDns.Ai

open Text

/-- What a call leaves behind that does not return. -/
inductive Panic where
  | panicked
deriving DecidableEq

inductive Severity where
  | info | threat | disputed
deriving DecidableEq

/-- The verdict of a backend. -/
structure BackendVerdict where
  category : Text
  confidence : Rat
  severity : Severity
  evidence : Text
deriving DecidableEq

structure ClassificationInput where
  domain : Text
  title : Text := []
  text : Text := []

def ClassificationInput.domainOnly (domain : Text) : ClassificationInput := { domain := domain }

/-- `classify` of a backend, which may panic. -/
abbrev DomainClassifier := ClassificationInput → Except Panic (Option BackendVerdict)

section Classify

variable (content threat : DomainClassifier)

def backendOf : Channel → DomainClassifier
  | .content => content
  | .threat => threat

/-- A pair's own verdict. -/
def classify (pair : Text × Channel) : Except Panic (Option BackendVerdict) :=
  backendOf content threat pair.2 (.domainOnly pair.1)

def classifyPart (part : List (Text × Channel)) : Except Panic (List (Option BackendVerdict)) :=
  part.mapM (classify content threat)

/-- The thread that does a part, joined: its verdicts, and what is logged. -/
def joinWorker (part : List (Text × Channel)) : List (Option BackendVerdict) × Option Text :=
  match classifyPart content threat part with
  | .ok verdicts => (verdicts, none)
  | .error _ => (List.replicate part.length none,
      some ("AI classifier panicked; " ++ Text.ofNat part.length ++ " domain(s) left without a verdict"))

/-- `workers.clamp(1, 32)`, and no more than there are pairs. -/
def workerCount (pending : List (Text × Channel)) (workers : UInt32) : Nat :=
  min (max 1 (min workers.toNat 32)) (max pending.length 1)

/-- The size of a chunk: `div_ceil`. -/
def chunkSize (pending : List (Text × Channel)) (workers : UInt32) : Nat :=
  (pending.length + workerCount pending workers - 1) / workerCount pending workers

/-- The verdicts and the lines logged. One worker is no thread: a panic of it is not caught. -/
def classifyAll (pending : List (Text × Channel)) (workers : UInt32) :
    Except Panic (List (Option BackendVerdict) × List Text) :=
  if workerCount pending workers = 1 then do
    let verdicts ← classifyPart content threat pending
    return (verdicts, [])
  else
    let joined := (Chunks.chunks (chunkSize pending workers) pending).map (joinWorker content threat)
    return (joined.flatMap Prod.fst, joined.filterMap Prod.snd)

def Panics (pair : Text × Channel) : Prop := classify content threat pair = .error .panicked

/-- A pair of the chunk that pair `i` is in panics. -/
def LosesChunk (pending : List (Text × Channel)) (workers : UInt32) (i : Nat) : Prop :=
  ∃ k, ∃ hk : k < pending.length, k / chunkSize pending workers = i / chunkSize pending workers ∧
    Panics content threat pending[k]

/-- Each entry is the verdict of its own pair, or none where a pair of its chunk panicked. -/
structure KeepsOrder (pending : List (Text × Channel)) (workers : UInt32) (verdicts : List (Option BackendVerdict)) :
    Prop where
  length : verdicts.length = pending.length
  lost : ∀ i < pending.length, LosesChunk content threat pending workers i → verdicts[i]? = some none
  own : ∀ i, (hi : i < pending.length) → ¬ LosesChunk content threat pending workers i →
    ∃ verdict, classify content threat pending[i] = .ok verdict ∧ verdicts[i]? = some verdict

variable {content threat}

theorem not_panics {pair : Text × Channel} :
    ¬ Panics content threat pair ↔ ∃ verdict, classify content threat pair = .ok verdict := by
  unfold Panics
  cases classify content threat pair with
  | ok verdict => simp
  | error panic => cases panic; simp

theorem getElem_classifyPart {part : List (Text × Channel)} {verdicts : List (Option BackendVerdict)}
    (h : classifyPart content threat part = .ok verdicts) :
    verdicts.length = part.length ∧ ∀ i, (hi : i < part.length) →
      ∃ verdict, classify content threat part[i] = .ok verdict ∧ verdicts[i]? = some verdict := by
  have hall := Fallible.mapM_eq_ok.mp h
  have hlength := hall.length_eq
  refine ⟨hlength.symm, ?_⟩
  intro i hi
  have hi' : i < verdicts.length := hlength ▸ hi
  exact ⟨verdicts[i], hall.get hi hi', List.getElem?_eq_getElem hi'⟩

theorem classifyPart_ok_iff {part : List (Text × Channel)} :
    (∃ verdicts, classifyPart content threat part = .ok verdicts) ↔ ∀ pair ∈ part, ¬ Panics content threat pair := by
  simp only [not_panics]
  exact Fallible.mapM_ok_iff

theorem joinWorker_of_panics {part : List (Text × Channel)} (h : ∃ pair ∈ part, Panics content threat pair) :
    (joinWorker content threat part).1 = List.replicate part.length none := by
  unfold joinWorker
  split
  next verdicts hok =>
    obtain ⟨pair, hpair, hpanics⟩ := h
    exact absurd hpanics (classifyPart_ok_iff.mp ⟨verdicts, hok⟩ pair hpair)
  next => rfl

theorem joinWorker_of_ok {part : List (Text × Channel)} (h : ¬ ∃ pair ∈ part, Panics content threat pair) :
    classifyPart content threat part = .ok (joinWorker content threat part).1 := by
  obtain ⟨verdicts, hok⟩ := classifyPart_ok_iff.mpr fun pair hpair hpanics => h ⟨pair, hpair, hpanics⟩
  unfold joinWorker
  rw [hok]

theorem length_joinWorker (part : List (Text × Channel)) : (joinWorker content threat part).1.length = part.length := by
  by_cases h : ∃ pair ∈ part, Panics content threat pair
  · rw [joinWorker_of_panics h, List.length_replicate]
  · exact (getElem_classifyPart (joinWorker_of_ok h)).1

theorem workerCount_eq_one {pending : List (Text × Channel)} {workers : UInt32} :
    workerCount pending workers = 1 ↔ ¬ (1 < workers ∧ 1 < pending.length) := by
  have hlt : 1 < workers ↔ 1 < workers.toNat := UInt32.lt_iff_toNat_lt
  rw [hlt, workerCount]
  omega

theorem chunkSize_pos {pending : List (Text × Channel)} {workers : UInt32} (h : pending ≠ []) :
    0 < chunkSize pending workers := by
  have hlength := List.length_pos_of_ne_nil h
  have hcount : 0 < workerCount pending workers := by
    rw [workerCount]
    omega
  rw [chunkSize]
  apply Nat.div_pos
  · omega
  · exact hcount

/-- The threads' verdicts, in the order of their chunks. -/
theorem keepsOrder_joined {pending : List (Text × Channel)} {workers : UInt32} (h : pending ≠ []) :
    KeepsOrder content threat pending workers
      ((Chunks.chunks (chunkSize pending workers) pending).flatMap fun part => (joinWorker content threat part).1) := by
  have hsize : 0 < chunkSize pending workers := chunkSize_pos h
  have hlost (i : Nat) : (∃ pair ∈ Chunks.partOf (chunkSize pending workers) pending i, Panics content threat pair) ↔
      LosesChunk content threat pending workers i := by
    simp only [Chunks.mem_partOf hsize, LosesChunk]
    constructor
    · rintro ⟨_, ⟨k, hk, hsame, rfl⟩, hpanics⟩
      exact ⟨k, hk, hsame, hpanics⟩
    · rintro ⟨k, hk, hsame, hpanics⟩
      exact ⟨_, ⟨k, hk, hsame, rfl⟩, hpanics⟩
  have hget (i : Nat) (hi : i < pending.length) :
      ∃ hmod : i % chunkSize pending workers < (Chunks.partOf (chunkSize pending workers) pending i).length,
        (Chunks.partOf (chunkSize pending workers) pending i)[i % chunkSize pending workers] = pending[i] := by
    apply List.getElem?_eq_some_iff.mp
    rw [Chunks.getElem?_partOf hsize, List.getElem?_eq_getElem hi]
  apply KeepsOrder.mk
  · exact Chunks.length_flatMap_chunks length_joinWorker hsize pending
  · intro i hi hloses
    obtain ⟨hmod, -⟩ := hget i hi
    rw [Chunks.getElem?_flatMap_chunks length_joinWorker hsize, joinWorker_of_panics ((hlost i).mpr hloses),
      List.getElem?_replicate_of_lt hmod]
  · intro i hi hkeeps
    obtain ⟨hmod, hsame⟩ := hget i hi
    obtain ⟨verdict, hverdict, hentry⟩ := (getElem_classifyPart (joinWorker_of_ok fun hpanics =>
      hkeeps ((hlost i).mp hpanics))).2 _ hmod
    refine ⟨verdict, hsame ▸ hverdict, ?_⟩
    rw [Chunks.getElem?_flatMap_chunks length_joinWorker hsize, hentry]

theorem keepsOrder_single {pending : List (Text × Channel)} {verdicts : List (Option BackendVerdict)} {workers : UInt32}
    (h : classifyPart content threat pending = .ok verdicts) :
    KeepsOrder content threat pending workers verdicts := by
  have hfine := classifyPart_ok_iff.mp ⟨verdicts, h⟩
  obtain ⟨hlength, hown⟩ := getElem_classifyPart h
  apply KeepsOrder.mk hlength
  · rintro i - ⟨k, hk, -, hpanics⟩
    exact absurd hpanics (hfine _ (List.getElem_mem hk))
  · intro i hi _
    exact hown i hi

/-- Every pair's entry is its own, or none after a panic in its chunk, exactly where
there are several workers or no panic. A single worker's panic is the caller's. -/
theorem classifyAll_keepsOrder_iff (pending : List (Text × Channel)) (workers : UInt32) :
    (∃ verdicts logged, classifyAll content threat pending workers = .ok (verdicts, logged) ∧
        KeepsOrder content threat pending workers verdicts) ↔
      (1 < workers ∧ 1 < pending.length) ∨ ∀ pair ∈ pending, ¬ Panics content threat pair := by
  unfold classifyAll
  by_cases hsingle : workerCount pending workers = 1
  · rw [if_pos hsingle, or_iff_right (workerCount_eq_one.mp hsingle), ← classifyPart_ok_iff]
    constructor
    · rintro ⟨verdicts, logged, hok, -⟩
      obtain ⟨verdicts', hpart, -⟩ := Fallible.bind_eq_ok.mp hok
      exact ⟨verdicts', hpart⟩
    · rintro ⟨verdicts, hpart⟩
      rw [hpart]
      exact ⟨verdicts, [], rfl, keepsOrder_single hpart⟩
  · have hseveral := not_not.mp (workerCount_eq_one.not.mp hsingle)
    have hne : pending ≠ [] := List.ne_nil_of_length_pos (Nat.lt_of_succ_lt hseveral.2)
    rw [if_neg hsingle]
    refine iff_of_true ⟨_, _, rfl, ?_⟩ (.inl hseveral)
    rw [List.flatMap_map]
    exact keepsOrder_joined hne

/-- One pending pair is one worker's, of however many. -/
theorem classifyAll_of_one : ¬ ∃ verdicts logged,
    classifyAll (fun _ => .error .panicked) (fun _ => .ok none) [("a.example", .content)] 4 = .ok (verdicts, logged) ∧
      KeepsOrder (fun _ => .error .panicked) (fun _ => .ok none) [("a.example", .content)] 4 verdicts := by
  rintro ⟨verdicts, logged, hok, -⟩
  cases hok

end Classify

end DaygleDns.Ai
