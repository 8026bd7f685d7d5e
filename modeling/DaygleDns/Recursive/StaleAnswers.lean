import DaygleDns.Recursive.AssistFacts
import DaygleDns.Runs

/-! Where the answers that are served stale come from. -/
namespace DaygleDns.Recursive

open CacheAssistant Runs

variable {N D : Type}

/-- The calls that change what is kept, with the readings of the clocks. -/
inductive Call (N D : Type) where
  | onSuccess (now : Nat) (orders : MapOrders N D) (key : CacheKey) (lookup : Lookup N D)
  | recordFailure (now : Nat) (order : Shuffle (CacheKey × Snapshot N D)) (key : CacheKey) (query : Query N)
      (code : UInt16) (until_ : Nat)
  | setFailureSoa (key : CacheKey) (soa : Record D)
  | forget (name : Text) (rtype : Option UInt16)
  | clear
  | importPersisted (now nowWall : Nat) (order : Shuffle (CacheKey × Snapshot N D)) (entries : List (PersistedEntry N D))

/-- An assistant with the answers that it was given, by lookups or from a file. -/
structure Journal (N D : Type) where
  assistant : CacheAssistant N D
  good : List (CacheKey × List (Record D))

namespace Journal

def start (config : PrefetchConfig) : Journal N D := ⟨.new config, []⟩

def write (journal : Journal N D) (key : CacheKey) (answers : List (Record D)) : Journal N D :=
  if answers.isEmpty then journal else { journal with good := journal.good ++ [(key, answers)] }

def step (journal : Journal N D) : Call N D → Journal N D
  | .onSuccess now orders key lookup =>
      { journal.write key lookup.answers with assistant := (journal.assistant.onSuccess orders now key lookup).2 }
  | .recordFailure now order key query code until_ =>
      { journal with assistant := journal.assistant.recordFailure order now key query code until_ }
  | .setFailureSoa key soa => { journal with assistant := journal.assistant.setFailureSoa key soa }
  | .forget name rtype => { journal with assistant := journal.assistant.forget name rtype }
  | .clear => { journal with assistant := journal.assistant.clear }
  | .importPersisted now nowWall order entries =>
      { entries.foldl (fun journal entry => journal.write entry.key entry.answers) journal with
        assistant := (journal.assistant.importPersisted order now nowWall entries).2 }

end Journal

/-- The records of a good answer for the key, up to their TTLs. -/
def GoodFor (journal : Journal N D) (key : CacheKey) (answers : List (Record D)) : Prop :=
  ∃ good, (key, good) ∈ journal.good ∧ good ≠ [] ∧ answers.map Record.data = good.map Record.data

/-- Whatever is served stale is a good answer for its key. -/
def OnlyGood (journal : Journal N D) : Prop :=
  ∀ now key lookup, journal.assistant.staleAnswer now key = some lookup → GoodFor journal key lookup.answers

/-- The call leaves no snapshot without answers behind. -/
def LeavesAnswers (journal : Journal N D) : Call N D → Prop
  | .onSuccess _ _ _ lookup => lookup.answers ≠ []
  | .recordFailure _ _ key _ _ _ => (journal.assistant.get key).isSome
  | .importPersisted now nowWall _ entries =>
      ∀ entry ∈ entries, entry.answers = [] → restoreEntry journal.assistant.config now nowWall entry = none
  | _ => True

/-- Every snapshot holds a good answer. -/
def AllGood (journal : Journal N D) : Prop :=
  ∀ key snapshot, journal.assistant.get key = some snapshot → GoodFor journal key snapshot.answers

@[simp] theorem map_data_staleAnswers (answers : List (Record D)) :
    (staleAnswers answers).map Record.data = answers.map Record.data := by
  simp [staleAnswers]

@[simp] theorem map_data_clampAnswerTtls (answers : List (Record D)) (cap : UInt32) :
    (clampAnswerTtls answers cap).map Record.data = answers.map Record.data := by
  unfold clampAnswerTtls
  split
  · rfl
  · rw [List.map_map]
    apply List.map_congr_left
    intro r _
    by_cases hcap : cap < r.ttl <;> simp [hcap]

theorem onlyGood_of_allGood {journal : Journal N D} (h : AllGood journal) : OnlyGood journal := by
  intro now key lookup hstale
  obtain ⟨_, snapshot, hget, _, _, rfl⟩ := staleAnswer_eq_some.mp hstale
  obtain ⟨good, hmem, hsome, hdata⟩ := h key snapshot hget
  exact ⟨good, hmem, hsome, by rw [map_data_staleAnswers, hdata]⟩

theorem GoodFor.mono {before after : Journal N D} {key : CacheKey} {answers : List (Record D)}
    (h : GoodFor before key answers) (hgood : ∀ entry ∈ before.good, entry ∈ after.good) :
    GoodFor after key answers := by
  obtain ⟨good, hmem, hrest⟩ := h
  exact ⟨good, hgood _ hmem, hrest⟩

theorem good_write (journal : Journal N D) (key : CacheKey) (answers : List (Record D)) :
    ∀ entry ∈ journal.good, entry ∈ (journal.write key answers).good := by
  intro entry hmem
  unfold Journal.write
  split
  · exact hmem
  · exact List.mem_append_left _ hmem

theorem mem_write {journal : Journal N D} {key : CacheKey} {answers : List (Record D)} (h : answers ≠ []) :
    (key, answers) ∈ (journal.write key answers).good := by
  unfold Journal.write
  rw [if_neg (by simpa using h)]
  exact List.mem_append_right _ (List.mem_singleton.mpr rfl)

theorem good_writeAll (entries : List (PersistedEntry N D)) (journal : Journal N D) :
    (∀ entry ∈ journal.good,
      entry ∈ (entries.foldl (fun journal entry => journal.write entry.key entry.answers) journal).good) ∧
    ∀ entry ∈ entries, entry.answers ≠ [] →
      (entry.key, entry.answers) ∈
        (entries.foldl (fun journal entry => journal.write entry.key entry.answers) journal).good := by
  induction entries generalizing journal with
  | nil => exact ⟨fun _ hmem => hmem, fun _ hmem => absurd hmem List.not_mem_nil⟩
  | cons first rest ih =>
    obtain ⟨hkept, hadded⟩ := ih (journal.write first.key first.answers)
    refine ⟨fun entry hmem => hkept entry (good_write journal _ _ entry hmem), fun entry hmem hsome => ?_⟩
    rcases List.mem_cons.mp hmem with rfl | hmem
    · exact hkept _ (mem_write hsome)
    · exact hadded entry hmem hsome

/-- A call that stores one snapshot with a good answer. -/
theorem allGood_stored {before after : Journal N D} {key : CacheKey} {snapshot : Snapshot N D} (h : AllGood before)
    (hstored : Stored key snapshot before.assistant after.assistant)
    (hgood : ∀ entry ∈ before.good, entry ∈ after.good) (hsnapshot : GoodFor after key snapshot.answers) :
    AllGood after := by
  intro k s hget
  by_cases hk : k = key
  · subst hk
    rw [hstored.self] at hget
    rw [← Option.some.inj hget]
    exact hsnapshot
  · exact (h k s (hstored.others k hk s hget)).mono hgood

theorem allGood_importAll {order : Shuffle (CacheKey × Snapshot N D)} {now nowWall : Nat}
    (entries : List (PersistedEntry N D)) {journal : Journal N D} (h : AllGood journal)
    (hgood : ∀ entry ∈ entries, entry.answers ≠ [] → (entry.key, entry.answers) ∈ journal.good)
    (hleaves : ∀ entry ∈ entries, entry.answers = [] →
      restoreEntry journal.assistant.config now nowWall entry = none) :
    AllGood { journal with assistant := entries.foldl (importEntry order now nowWall) journal.assistant } := by
  induction entries generalizing journal with
  | nil => exact h
  | cons entry rest ih =>
    rcases importEntry_cases order now nowWall journal.assistant entry with ⟨_, hsame⟩ | ⟨snapshot, hrestore, hstored⟩
    · rw [List.foldl_cons, hsame]
      exact ih h (fun e he => hgood e (List.mem_cons_of_mem _ he)) fun e he => hleaves e (List.mem_cons_of_mem _ he)
    · have hsome : entry.answers ≠ [] := by
        intro hnone
        rw [hleaves entry List.mem_cons_self hnone] at hrestore
        cases hrestore
      apply @ih { journal with assistant := importEntry order now nowWall journal.assistant entry }
      · refine allGood_stored h hstored (fun _ hmem => hmem) ?_
        refine ⟨entry.answers, hgood entry List.mem_cons_self hsome, hsome, ?_⟩
        rw [(restoreEntry_eq_some hrestore).1]
      · exact fun e he => hgood e (List.mem_cons_of_mem _ he)
      · intro e he
        rw [hstored.config]
        exact hleaves e (List.mem_cons_of_mem _ he)

theorem allGood_step (journal : Journal N D) (call : Call N D) (h : AllGood journal)
    (hleaves : LeavesAnswers journal call) : AllGood (journal.step call) := by
  cases call with
  | onSuccess now orders key lookup =>
    have hstored := stored_onSuccess orders now journal.assistant key lookup
    refine allGood_stored h hstored (good_write journal key lookup.answers) ?_
    exact ⟨lookup.answers, mem_write hleaves, hleaves, map_data_clampAnswerTtls _ _⟩
  | recordFailure now order key query code until_ =>
    have hstored := stored_recordFailure order now journal.assistant key query code until_
    obtain ⟨snapshot, hget⟩ := Option.isSome_iff_exists.mp hleaves
    refine allGood_stored h hstored (fun _ hmem => hmem) ?_
    simp only [hget, underlying, Option.getD_some]
    exact h key snapshot hget
  | setFailureSoa key soa =>
    intro k snapshot hget
    simp only [Journal.step, get_setFailureSoa] at hget
    split at hget
    · obtain ⟨old, hold, rfl⟩ := Option.map_eq_some_iff.mp hget
      exact h k old hold
    · exact h k snapshot hget
  | forget name rtype => exact fun k snapshot hget => h k snapshot (get_forget _ _ _ _ _ hget)
  | clear =>
    intro k snapshot hget
    cases hget
  | importPersisted now nowWall order entries =>
    obtain ⟨hkept, hadded⟩ := good_writeAll entries journal
    have hbefore : AllGood
        { entries.foldl (fun journal entry => journal.write entry.key entry.answers) journal with
          assistant := journal.assistant } :=
      fun k snapshot hget => (h k snapshot hget).mono hkept
    exact @allGood_importAll N D order now nowWall entries _ hbefore hadded hleaves

theorem config_step (journal : Journal N D) (call : Call N D) :
    (journal.step call).assistant.config = journal.assistant.config := by
  cases call with
  | onSuccess | recordFailure | forget | clear => rfl
  | setFailureSoa key soa =>
    simp only [Journal.step, setFailureSoa]
    split <;> rfl
  | importPersisted now nowWall order entries => exact importAll_config order now nowWall entries journal.assistant

/-- Only good answers are served stale where none are, or where no call leaves
a snapshot without answers behind. -/
theorem stale_answers_good (config : PrefetchConfig) (calls : List (Call N D))
    (h : config.serveStaleSecs = 0 ∨ Each Journal.step LeavesAnswers (.start config) calls) :
    Always Journal.step OnlyGood (.start config) calls := by
  rcases h with hoff | hleaves
  · have hconfig : Always Journal.step (fun journal => journal.assistant.config = config) (.start config) calls :=
      always_of_step (fun journal call h => (config_step journal call).trans h) calls rfl
    refine always_mono (fun journal hsame now key lookup hstale => ?_) hconfig
    have hon := (staleAnswer_eq_some.mp hstale).1
    rw [hsame] at hon
    exact absurd hoff hon
  · refine always_mono (fun _ => onlyGood_of_allGood) (always_of_invariant AllGood allGood_step calls ?_ hleaves)
    intro key snapshot hget
    cases hget

instance [DecidableEq (Record D)] (journal : Journal N D) : ∀ call, Decidable (LeavesAnswers journal call)
  | .onSuccess _ _ _ lookup => inferInstanceAs (Decidable (lookup.answers ≠ []))
  | .recordFailure _ _ key _ _ _ => inferInstanceAs (Decidable ((journal.assistant.get key).isSome))
  | .importPersisted now nowWall _ entries =>
      inferInstanceAs (Decidable (∀ entry ∈ entries, entry.answers = [] →
        restoreEntry journal.assistant.config now nowWall entry = none))
  | .setFailureSoa _ _ | .forget _ _ | .clear => inferInstanceAs (Decidable True)

/-- Stale answers are served for an hour, and failures cached for half a minute. -/
def servesStale : PrefetchConfig where
  enabled := false
  ttlFractionPct := 10
  minQueries := 2
  window := fromSecs 60
  serveStaleSecs := 3600
  maxCacheTtl := 0
  failureCacheTtl := 30

def wwwKey : CacheKey := ⟨"www.example.com", 1, 0⟩

def wwwQuery : Query Text := ⟨"www.example.com", 1⟩

/-- The name does not exist, as an answer says ten seconds after the start. -/
def failsFirst : Call Text Text := .recordFailure (fromSecs 10) .plain wwwKey wwwQuery 3 (fromSecs 40)

/-- A failure of a name that never had an answer is served stale, as an answer
without records. -/
theorem stale_answers_good_fails :
    ¬ ∀ (config : PrefetchConfig) (calls : List (Call Text Text)),
      Always Journal.step OnlyGood (.start config) calls := by
  intro h
  have hgood := (always_iff_prefixes _ _ _).mp (h servesStale [failsFirst]) _ List.prefix_rfl
  obtain ⟨_, hmem, _⟩ := hgood (fromSecs 50) wwwKey
    { query := wwwQuery, answers := [], validUntil := fromSecs 80 } (by decide)
  exact absurd hmem List.not_mem_nil

def wwwAnswer : Lookup Text Text := ⟨wwwQuery, [⟨"192.0.2.7", 300⟩], fromSecs 310⟩

theorem stale_answers_good_answered :
    Always Journal.step OnlyGood (.start servesStale)
      [.onSuccess (fromSecs 10) .plain wwwKey wwwAnswer,
        .recordFailure (fromSecs 400) .plain wwwKey wwwQuery 2 (fromSecs 430)] :=
  stale_answers_good servesStale _ (.inr (by decide))

end DaygleDns.Recursive
