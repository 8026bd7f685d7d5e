import DaygleDns.Recursive.Restarts

/-! Entries of the snapshot file that are restored with answers still valid, and
the lookups of their names. -/
namespace DaygleDns.Recursive

open CacheAssistant Runs

variable {N D : Type}

/-- The server once a snapshot file with these entries has been restored. -/
def Life.loaded (installation : Installation N D) (order : Shuffle (CacheKey × Snapshot N D)) (loadAt nowWall : Nat)
    (entries : List (PersistedEntry N D)) : Life N D where
  assistant := ((CacheAssistant.new installation.config).importPersisted order loadAt nowWall entries).2
  clock := loadAt
  stopped := fun _ => 0

/-- A client's lookup of this key. -/
def AsksFor (key : CacheKey) : LifeEvent N D → Prop
  | .lookup _ _ _ _ k _ => k = key
  | _ => False

/-- A prefetch replaces the answer under the key, or the server starts again. -/
def Renews (key : CacheKey) : LifeEvent N D → Prop
  | .refreshed _ _ k _ => k = key
  | .restart .. => True
  | .lookup .. => False

/-- The lookups of the key come no later than this. -/
def AskedBy (key : CacheKey) (deadline : Nat) (life : Life N D) : LifeEvent N D → Prop
  | .lookup wait _ _ _ k _ => k = key → life.clock + wait ≤ deadline
  | _ => True

/-- A lookup of the key is answered without a question upstream. -/
def AnsweredHere (key : CacheKey) (life : Life N D) : LifeEvent N D → Prop
  | .lookup wait _ orders shared k _ =>
      k = key → (replay orders (life.clock + wait) shared life.assistant key).isSome
  | _ => True

/-- Each lookup of the key is for every client and finds the entry not evicted,
and it is the last one unless the entry's own failure lasts. -/
def LastsFor (installation : Installation N D) (key : CacheKey) (snapshot : Snapshot N D) :
    Life N D → List (LifeEvent N D) → Prop
  | _, [] => True
  | life, event :: rest =>
      (match event with
        | .lookup wait _ _ shared k _ =>
            k = key → shared = true ∧ (life.assistant.get key).isSome ∧
              (FailureLasts snapshot (life.clock + wait) ∨ ∀ later ∈ rest, ¬ AsksFor key later)
        | _ => True) ∧
      LastsFor installation key snapshot (life.step installation event) rest

/-- A restored answer that may be handed out until its deadline. -/
structure Restored (config : PrefetchConfig) (snapshot : Snapshot N D) : Prop where
  restored : snapshot.restored = true
  answers : snapshot.answers ≠ []
  failure : snapshot.failureUntil ≠ none → config.failureCacheTtl ≠ 0

/-- Under the key there is this snapshot, if it was not evicted. -/
structure Untouched (config : PrefetchConfig) (key : CacheKey) (snapshot : Snapshot N D)
    (assistant : CacheAssistant N D) : Prop where
  same : ∀ s, assistant.get key = some s → s = snapshot
  config : assistant.config = config

/-- Under the key there is only what a lookup has left there. -/
def HandedOut (key : CacheKey) (assistant : CacheAssistant N D) : Prop :=
  ∀ s, assistant.get key = some s → s.restored = false ∧ s.failureUntil = none

variable {config : PrefetchConfig} {key : CacheKey} {snapshot : Snapshot N D} {assistant : CacheAssistant N D}

theorem cachedFailureCode_untouched (hrestored : Restored config snapshot)
    (h : Untouched config key snapshot assistant) (hthere : (assistant.get key).isSome) (now : Nat) :
    (assistant.cachedFailureCode now key).isSome ↔ FailureLasts snapshot now := by
  obtain ⟨s, hget⟩ := Option.isSome_iff_exists.mp hthere
  rw [cachedFailureCode_isSome, h.config]
  constructor
  · rintro ⟨_, s', hget', hlasts⟩
    rwa [← h.same s' hget']
  · intro hlasts
    have hfailure : snapshot.failureUntil ≠ none := by
      intro hnone
      obtain ⟨until_, huntil, _⟩ := hlasts
      rw [hnone] at huntil
      cases huntil
    exact ⟨hrestored.failure hfailure, s, hget, by rwa [h.same s hget]⟩

/-- Nothing is replayed of an answer that was looked up upstream, or handed out. -/
theorem replay_handedOut (h : HandedOut key assistant) (orders : MapOrders N D) (now : Nat) (shared : Bool) :
    replay orders now shared assistant key = none := by
  have hfailure : assistant.cachedFailureCode now key = none := by
    rw [← Option.not_isSome_iff_eq_none, cachedFailureCode_isSome]
    rintro ⟨_, s, hget, until_, huntil, _⟩
    rw [(h s hget).2] at huntil
    cases huntil
  have hfresh : assistant.freshAnswer now key = none := by
    rw [← Option.not_isSome_iff_eq_none, freshAnswer_isSome_iff]
    rintro ⟨s, hget, hrestored, _⟩
    rw [(h s hget).1] at hrestored
    cases hrestored
  unfold replay
  rw [hfailure, hfresh, ite_self]

theorem replay_evicted (h : assistant.get key = none) (orders : MapOrders N D) (now : Nat) (shared : Bool) :
    replay orders now shared assistant key = none := by
  apply replay_handedOut
  intro s hget
  rw [h] at hget
  cases hget

section Untouched

variable (hrestored : Restored config snapshot) (h : Untouched config key snapshot assistant)
  (hthere : (assistant.get key).isSome) (orders : MapOrders N D) {now : Nat}

include hrestored h hthere

/-- A failure that lasts is replayed, and all stays as it was. -/
theorem replay_failure (hlasts : FailureLasts snapshot now) :
    ∃ reply, replay orders now true assistant key = some (reply, assistant) := by
  obtain ⟨code, hcode⟩ := Option.isSome_iff_exists.mp ((cachedFailureCode_untouched hrestored h hthere now).mpr hlasts)
  unfold replay
  rw [hcode]
  exact ⟨_, rfl⟩

/-- The answer is replayed once. -/
theorem replay_answer (hspent : ¬ FailureLasts snapshot now) (hvalid : now ≤ snapshot.validUntil) :
    ∃ reply after, replay orders now true assistant key = some (reply, after) ∧ HandedOut key after := by
  have hcode : assistant.cachedFailureCode now key = none := by
    rw [← Option.not_isSome_iff_eq_none, cachedFailureCode_untouched hrestored h hthere]
    exact hspent
  obtain ⟨s, hget⟩ := Option.isSome_iff_exists.mp hthere
  have hsame := h.same s hget
  subst hsame
  obtain ⟨restored, hfresh⟩ := Option.isSome_iff_exists.mp
    ((freshAnswer_isSome_iff now).mpr ⟨s, hget, hrestored.restored, hrestored.answers, hvalid⟩)
  refine ⟨.answer restored, recordAnswer orders now assistant key restored, ?_, ?_⟩
  · unfold replay
    rw [hcode, hfresh]
    rfl
  · intro after hafter
    rw [(stored_recordAnswer orders now assistant key restored).self] at hafter
    rw [← Option.some.inj hafter]
    exact ⟨rfl, rfl⟩

end Untouched

/-- Events that do not concern the key leave the entry, or evict it. -/
theorem get_step_other (installation : Installation N D) (life : Life N D) {event : LifeEvent N D}
    (hasks : ¬ AsksFor key event) (hrenews : ¬ Renews key event) (s : Snapshot N D)
    (h : (life.step installation event).assistant.get key = some s) : life.assistant.get key = some s := by
  cases event with
  | lookup wait took orders shared k upstream =>
    exact get_lookupOwned_other orders _ _ shared installation.nameOf life.assistant (Ne.symm hasks) upstream s h
  | refreshed wait orders k lookup =>
    exact (stored_onSuccess orders (life.clock + wait) life.assistant k lookup).others key (Ne.symm hrenews) s h
  | restart => exact absurd trivial hrenews

theorem lastsFor_unasked (installation : Installation N D) (snapshot : Snapshot N D) (events : List (LifeEvent N D))
    (hunasked : ∀ event ∈ events, ¬ AsksFor key event) (life : Life N D) :
    LastsFor installation key snapshot life events := by
  induction events generalizing life with
  | nil => trivial
  | cons event rest ih =>
    refine ⟨?_, ih (fun later hlater => hunasked later (List.mem_cons_of_mem _ hlater)) _⟩
    have hfirst := hunasked event List.mem_cons_self
    cases event with
    | lookup => exact fun hk => absurd hk hfirst
    | refreshed => trivial
    | restart => trivial

/-- Once the answer was handed out, only runs without another lookup are answered here. -/
theorem answered_handedOut (installation : Installation N D) (events : List (LifeEvent N D)) (life : Life N D)
    (hrenews : ∀ event ∈ events, ¬ Renews key event) (h : HandedOut key life.assistant) :
    Each (Life.step installation) (AnsweredHere key) life events ↔ ∀ event ∈ events, ¬ AsksFor key event := by
  induction events generalizing life with
  | nil => simp [Each]
  | cons event rest ih =>
    by_cases hasks : AsksFor key event
    · have hnot : ¬ AnsweredHere key life event := by
        cases event with
        | lookup wait took orders shared k upstream =>
          intro hanswered
          have hreplayed := hanswered hasks
          rw [replay_handedOut h] at hreplayed
          cases hreplayed
        | refreshed => cases hasks
        | restart => cases hasks
      constructor
      · exact fun heach => absurd heach.1 hnot
      · exact fun hunasked => absurd hasks (hunasked event List.mem_cons_self)
    · have hfirst : AnsweredHere key life event := by
        cases event with
        | lookup => exact fun hk => absurd hk hasks
        | refreshed => trivial
        | restart => trivial
      have hnext : HandedOut key (life.step installation event).assistant := fun s hget =>
        h s (get_step_other installation life hasks (hrenews event List.mem_cons_self) s hget)
      have hrest := ih (life.step installation event) (fun later hlater => hrenews later (List.mem_cons_of_mem _ hlater))
        hnext
      simp only [Each, hrest, List.forall_mem_cons, hfirst, hasks, not_false_eq_true, true_and]

theorem answered_untouched (installation : Installation N D) (hrestored : Restored installation.config snapshot)
    (events : List (LifeEvent N D)) (life : Life N D) (hrenews : ∀ event ∈ events, ¬ Renews key event)
    (hbefore : Each (Life.step installation) (AskedBy key snapshot.validUntil) life events)
    (h : Untouched installation.config key snapshot life.assistant) :
    Each (Life.step installation) (AnsweredHere key) life events ↔ LastsFor installation key snapshot life events := by
  induction events generalizing life with
  | nil => simp [Each, LastsFor]
  | cons event rest ih =>
    have hlater := fun later hlater => hrenews later (List.mem_cons_of_mem event hlater)
    have hconfig : (life.step installation event).assistant.config = installation.config :=
      life_config_step installation life event h.config
    by_cases hasks : AsksFor key event
    · cases event with
      | refreshed => cases hasks
      | restart => cases hasks
      | lookup wait took orders shared k upstream =>
        obtain rfl : k = key := hasks
        have hvalid : life.clock + wait ≤ snapshot.validUntil := hbefore.1 rfl
        simp only [Each, AnsweredHere, LastsFor, forall_const]
        cases shared with
        | false => simp [replay]
        | true =>
          cases hget : life.assistant.get k with
          | none => simp [replay_evicted hget]
          | some s =>
            have hthere : (life.assistant.get k).isSome := by rw [hget]; rfl
            by_cases hlasts : FailureLasts snapshot (life.clock + wait)
            · obtain ⟨reply, hreplay⟩ := replay_failure hrestored h hthere orders hlasts
              have hsame : (life.step installation (.lookup wait took orders true k upstream)).assistant =
                  life.assistant := by
                simp only [Life.step, Life.lookup, lookupOwned, hreplay, Option.getD_some]
              have hnext := ih _ hlater hbefore.2 ⟨by rw [hsame]; exact h.same, hconfig⟩
              simp only [hreplay, Option.isSome_some, hnext, hlasts, true_or, and_self, true_and]
            · obtain ⟨reply, after, hreplay, hout⟩ := replay_answer hrestored h hthere orders hlasts hvalid
              have hafter : (life.step installation (.lookup wait took orders true k upstream)).assistant = after := by
                simp only [Life.step, Life.lookup, lookupOwned, hreplay, Option.getD_some]
              have hnext := answered_handedOut installation rest _ hlater (hafter ▸ hout)
              simp only [hreplay, Option.isSome_some, hnext, hlasts, false_or, true_and]
              exact ⟨fun hunasked => ⟨hunasked, lastsFor_unasked installation snapshot rest hunasked _⟩, And.left⟩
    · have hnext := ih (life.step installation event) hlater hbefore.2
        ⟨fun s hget => h.same s
          (get_step_other installation life hasks (hrenews event List.mem_cons_self) s hget), hconfig⟩
      cases event with
      | lookup wait took orders shared k upstream =>
        have hk : k ≠ key := hasks
        simp only [Each, AnsweredHere, LastsFor, hnext, hk, false_implies, true_and]
      | refreshed => simp only [Each, AnsweredHere, LastsFor, hnext, true_and]
      | restart => exact absurd trivial (hrenews _ List.mem_cons_self)

/-- Whatever the file leaves in the assistant is restored. -/
theorem restored_importAll (order : Shuffle (CacheKey × Snapshot N D)) (now nowWall : Nat)
    (entries : List (PersistedEntry N D)) (assistant : CacheAssistant N D)
    (h : ∀ k s, assistant.get k = some s →
      s.restored = true ∧ (s.failureUntil ≠ none → assistant.config.failureCacheTtl ≠ 0)) (k : CacheKey)
    (s : Snapshot N D) (hget : (entries.foldl (importEntry order now nowWall) assistant).get k = some s) :
    s.restored = true ∧ (s.failureUntil ≠ none → assistant.config.failureCacheTtl ≠ 0) := by
  induction entries generalizing assistant with
  | nil => exact h k s hget
  | cons entry rest ih =>
    rw [← importEntry_config order now nowWall assistant entry]
    apply ih _ _ hget
    intro k s hfound
    rw [importEntry_config]
    rcases importEntry_cases order now nowWall assistant entry with ⟨_, hsame⟩ | ⟨snapshot, hrestore, hstored⟩
    · rw [hsame] at hfound
      exact h k s hfound
    · by_cases hk : k = entry.key
      · rw [hk, hstored.self] at hfound
        rw [← Option.some.inj hfound]
        exact restoreEntry_restored hrestore
      · exact h k s (hstored.others k hk s hfound)

/-- A restored entry answers the lookups of its key until it expires exactly if all
but the last of them come while the failure that was restored with it lasts. -/
theorem restored_entries_answer (installation : Installation N D) (order : Shuffle (CacheKey × Snapshot N D))
    (loadAt nowWall : Nat) (entries : List (PersistedEntry N D)) (key : CacheKey) (snapshot : Snapshot N D)
    (h : (Life.loaded installation order loadAt nowWall entries).assistant.get key = some snapshot)
    (hanswers : snapshot.answers ≠ []) (events : List (LifeEvent N D)) (hrenews : ∀ event ∈ events, ¬ Renews key event)
    (hbefore : Each (Life.step installation) (AskedBy key snapshot.validUntil)
      (.loaded installation order loadAt nowWall entries) events) :
    Each (Life.step installation) (AnsweredHere key) (.loaded installation order loadAt nowWall entries) events ↔
      LastsFor installation key snapshot (.loaded installation order loadAt nowWall entries) events := by
  have hrestored := restored_importAll order loadAt nowWall entries (.new installation.config)
    (fun k s hget => by cases hget) key snapshot h
  refine answered_untouched installation ⟨hrestored.1, hanswers, hrestored.2⟩ events _ hrenews hbefore ⟨?_, ?_⟩
  · intro s hget
    exact Option.some.inj (hget.symm.trans h)
  · exact importAll_config order loadAt nowWall entries (.new installation.config)

/-- An entry with five minutes left, in the file of a server that stopped at 1700000000. -/
def wwwSaved : PersistedEntry Text Text where
  key := wwwFqdn
  query := ⟨"www.example.com.", 1⟩
  answers := [⟨"192.0.2.7", 300⟩]
  validThroughSecs := 1700000300
  failureThroughSecs := 0
  failureCode := none
  failureSoa := none

def wwwRestored : Snapshot Text Text where
  query := ⟨"www.example.com.", 1⟩
  answers := [⟨"192.0.2.7", 300⟩]
  validUntil := fromSecs 301
  fetchedAt := fromSecs 1
  failureUntil := none
  failureCode := none
  failureSoa := none
  restored := true

/-- A client asks for the name ten seconds later, while nothing answers upstream. -/
def asked : LifeEvent Text Text := .lookup (fromSecs 10) 0 .plain true wwwFqdn .broken

/-- The second lookup goes upstream. -/
theorem restored_entries_answer_fails :
    ¬ ∀ snapshot,
      (Life.loaded household .plain (fromSecs 1) 1700000000 [wwwSaved]).assistant.get wwwFqdn = some snapshot →
      snapshot.answers ≠ [] → ∀ events : List (LifeEvent Text Text), (∀ event ∈ events, ¬ Renews wwwFqdn event) →
      Each (Life.step household) (AskedBy wwwFqdn snapshot.validUntil)
        (.loaded household .plain (fromSecs 1) 1700000000 [wwwSaved]) events →
      Each (Life.step household) (AnsweredHere wwwFqdn)
        (.loaded household .plain (fromSecs 1) 1700000000 [wwwSaved]) events := by
  intro h
  have hboth := h wwwRestored (by decide) (by decide) [asked, asked] (by simp [asked, Renews])
    ⟨fun _ => by decide, fun _ => by decide, trivial⟩
  have hsecond := hboth.2.1 rfl
  revert hsecond
  decide

theorem restored_entries_answer_once :
    Each (Life.step household) (AnsweredHere wwwFqdn)
      (.loaded household .plain (fromSecs 1) 1700000000 [wwwSaved]) [asked] :=
  (restored_entries_answer household .plain (fromSecs 1) 1700000000 [wwwSaved] wwwFqdn wwwRestored
    (by decide) (by decide) [asked] (by simp [asked, Renews]) ⟨fun _ => by decide, trivial⟩).mpr
    ⟨fun _ => ⟨rfl, by decide, .inr (by simp)⟩, trivial⟩

end DaygleDns.Recursive
