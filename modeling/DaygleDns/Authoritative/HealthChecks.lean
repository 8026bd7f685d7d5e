import DaygleDns.Authoritative.Failover
import DaygleDns.Hysteresis
import DaygleDns.KeyedMap
import DaygleDns.OrderedTable
import DaygleDns.Runs
import Mathlib.Data.Finset.Dedup

/-! Health checks: the probes of the checked records, and the records that are taken out of
answers for them. -/
namespace DaygleDns.Authoritative

open Text Hysteresis Runs

/-- Failures in a row before a record is taken out, -/
def downAfter : UInt32 := 2

/-- and passes in a row before it is put back. -/
def upAfter : UInt32 := 2

/-- A check as the monitor reads it; how it is probed is left to the probe. -/
structure HealthCheck where
  recordId : Uuid
  intervalSecs : UInt32
deriving DecidableEq

/-- What a probe found, and when: an instant in nanoseconds and a UNIX time. -/
structure Probe where
  result : Except Text Unit
  now : Nat
  timestamp : Int

def Probe.passed (probe : Probe) : Bool :=
  match probe.result with
  | .ok _ => true
  | .error _ => false

structure CheckState where
  healthy : Bool
  fails : UInt32
  passes : UInt32
  lastChecked : Option Int
  lastError : Option Text
  nextDue : Nat

namespace CheckState

/-- Unknown counts as healthy. -/
def new (now : Nat) : CheckState := ⟨true, 0, 0, none, none, now⟩

def record (s : CheckState) (check : HealthCheck) (probe : Probe) : CheckState :=
  let s := { s with
    nextDue := probe.now + check.intervalSecs.toNat * 1000000000
    lastChecked := some probe.timestamp }
  match probe.result with
  | .ok _ =>
      let s := { s with fails := 0, passes := s.passes + 1, lastError := none }
      if !s.healthy && s.passes ≥ upAfter then { s with healthy := true } else s
  | .error e =>
      let s := { s with passes := 0, fails := s.fails + 1 }
      let s := if s.healthy && s.fails ≥ downAfter then { s with healthy := false } else s
      { s with lastError := some e }

end CheckState

/-- `probing` are the checks that a tick is waiting for; `unhealthy` is what the catalog has been given. -/
structure HealthMonitor where
  state : KeyedMap Uuid CheckState
  probing : Option (List HealthCheck)
  unhealthy : Finset Uuid

/-- A tick has two halves, with the probes between them. -/
inductive HealthEvent where
  /-- The stored checks are read, and the probes of those due begin. `entered` are the instants at
  which new checks get their entries. -/
  | start (checks : KeyedMap Uuid HealthCheck) (now : Nat) (entered : Uuid → Nat)
  /-- All probes have ended, in an order of their own. -/
  | finish (probes : Uuid → Probe) (order : Shuffle HealthCheck)
  | recheck (recordId : Uuid) (now : Nat)

namespace HealthMonitor

def new : HealthMonitor := ⟨∅, none, ∅⟩

/-- The entry of a check, made where there is none. -/
def ensure (entered : Uuid → Nat) (state : KeyedMap Uuid CheckState) (check : HealthCheck) : KeyedMap Uuid CheckState :=
  match state.lookup check.recordId with
  | some _ => state
  | none => state.insert check.recordId (.new (entered check.recordId))

def recordProbe (probes : Uuid → Probe) (state : KeyedMap Uuid CheckState) (check : HealthCheck) :
    KeyedMap Uuid CheckState :=
  match state.lookup check.recordId with
  | none => state
  | some s => state.insert check.recordId (s.record check (probes check.recordId))

/-- The checks in the table; each is stored under its record. -/
def listed (checks : KeyedMap Uuid HealthCheck) : List HealthCheck :=
  checks.entries.map fun entry => { entry.2 with recordId := entry.1 }

def isDue (state : KeyedMap Uuid CheckState) (now : Nat) (check : HealthCheck) : Bool :=
  (state.lookup check.recordId).any fun s => s.nextDue ≤ now

def failing (state : KeyedMap Uuid CheckState) : Finset Uuid :=
  ((state.entries.filter fun entry => !entry.2.healthy).map Sigma.fst).toFinset

def step (monitor : HealthMonitor) : HealthEvent → HealthMonitor
  | .start checks now entered =>
      match monitor.probing with
      | some _ => monitor
      | none =>
          let kept := monitor.state.retain fun id _ => decide (id ∈ checks)
          let state := (listed checks).foldl (ensure entered) kept
          { monitor with state, probing := some ((listed checks).filter (isDue state now)) }
  | .finish probes order =>
      match monitor.probing with
      | none => monitor
      | some due =>
          let state := (order.shuffle due).foldl (recordProbe probes) monitor.state
          ⟨state, none, failing state⟩
  | .recheck recordId now =>
      match monitor.state.lookup recordId with
      | none => monitor
      | some s => { monitor with state := monitor.state.insert recordId { s with nextDue := now } }

/-- `status`, of one check: whether its record is healthy. -/
def healthy (monitor : HealthMonitor) (recordId : Uuid) : Bool :=
  ((monitor.state.lookup recordId).map CheckState.healthy).getD true

/-! What the probes of a check have found, the last first, since the check was listed. -/

abbrev Findings := Uuid → List Bool

def note (monitor : HealthMonitor) (found : Findings) : HealthEvent → Findings
  | .start checks _ _ =>
      match monitor.probing with
      | some _ => found
      | none => fun id => if id ∈ checks then found id else []
  | .finish probes _ =>
      match monitor.probing with
      | none => found
      | some due => fun id => if id ∈ due.map HealthCheck.recordId then (probes id).passed :: found id else found id
  | .recheck _ _ => found

/-- The monitor, and the findings beside it. -/
def watch (s : HealthMonitor × Findings) (event : HealthEvent) : HealthMonitor × Findings :=
  (s.1.step event, s.1.note s.2 event)

/-- Two failures in a row, and not two passes in a row since. -/
abbrev FoundDown (results : List Bool) : Prop := Down downAfter.toNat upAfter.toNat results

/-- What is stored of a check says what its findings say. -/
def Follows : Option CheckState → List Bool → Prop
  | none, results => results = []
  | some s, results =>
      (s.healthy = true ↔ ¬FoundDown results) ∧ (s.healthy = true → s.fails.toNat = streak false results) ∧
        (s.healthy = false → s.passes.toNat = streak true results)

theorem follows_up {s : CheckState} {results : List Bool} (hs : s.healthy = true) (hnot : ¬FoundDown results)
    (hfails : s.fails.toNat = streak false results) : Follows (some s) results := by
  refine ⟨iff_of_true hs hnot, fun _ => hfails, ?_⟩
  rw [hs]
  exact nofun

theorem follows_down {s : CheckState} {results : List Bool} (hs : s.healthy = false) (hdown : FoundDown results)
    (hpasses : s.passes.toNat = streak true results) : Follows (some s) results := by
  refine ⟨iff_of_false ?_ (fun hnot => hnot hdown), ?_, fun _ => hpasses⟩
  · rw [hs]
    exact nofun
  · rw [hs]
    exact nofun

theorem follows_new (now : Nat) : Follows (some (.new now)) [] := follows_up rfl (not_down_nil (by decide)) rfl

/-- A state that is down has been found down. -/
theorem Follows.down {s : CheckState} {results : List Bool} (h : Follows (some s) results) (hs : s.healthy = false) :
    FoundDown results := by
  by_contra hnot
  have hup := h.1.mpr hnot
  rw [hs] at hup
  cases hup

theorem toNat_succ {n : UInt32} (h : n.toNat < 2) : (n + 1).toNat = n.toNat + 1 := by
  rw [UInt32.toNat_add]
  exact Nat.mod_eq_of_lt (Nat.lt_trans (Nat.succ_lt_succ h) (by decide))

theorem follows_pass {s : CheckState} {results : List Bool} (h : Follows (some s) results) (check : HealthCheck)
    {probe : Probe} {u : Unit} (hresult : probe.result = .ok u) : Follows (some (s.record check probe)) (true :: results) := by
  have hdown : FoundDown (true :: results) ↔ FoundDown results ∧ streak true results + 1 < upAfter.toNat :=
    down_cons_true (by decide) results
  cases hs : s.healthy with
  | true =>
    simp only [CheckState.record, hresult, hs]
    exact follows_up rfl (fun hnext => h.1.mp hs (hdown.mp hnext).1) rfl
  | false =>
    have hfew : streak true results < upAfter.toNat := streak_lt_of_down (by decide) (h.down hs)
    have hpasses := h.2.2 hs
    have hsucc := toNat_succ (n := s.passes) (by rw [hpasses]; exact hfew)
    rw [hpasses] at hsucc
    simp only [CheckState.record, hresult, hs, Bool.not_false, Bool.true_and, decide_eq_true_eq, ge_iff_le,
      UInt32.le_iff_toNat_le, hsucc]
    split
    next hback => exact follows_up rfl (fun hnext => Nat.not_le.mpr (hdown.mp hnext).2 hback) rfl
    next hstill =>
      apply follows_down rfl (hdown.mpr ⟨h.down hs, Nat.not_le.mp hstill⟩)
      rw [hsucc, streak_cons_self]

theorem follows_fail {s : CheckState} {results : List Bool} (h : Follows (some s) results) (check : HealthCheck)
    {probe : Probe} {e : Text} (hresult : probe.result = .error e) :
    Follows (some (s.record check probe)) (false :: results) := by
  have hdown : FoundDown (false :: results) ↔ FoundDown results ∨ downAfter.toNat ≤ streak false results + 1 :=
    down_cons_false (by decide) results
  cases hs : s.healthy with
  | true =>
    have hnot := h.1.mp hs
    have hfew : streak false results < downAfter.toNat :=
      Nat.not_le.mp fun hmany => hnot (down_of_streak (by decide) hmany)
    have hfails := h.2.1 hs
    have hsucc := toNat_succ (n := s.fails) (by rw [hfails]; exact hfew)
    rw [hfails] at hsucc
    simp only [CheckState.record, hresult, hs, Bool.true_and, decide_eq_true_eq, ge_iff_le, UInt32.le_iff_toNat_le, hsucc]
    split
    next hmany => exact follows_down rfl (hdown.mpr (.inr hmany)) rfl
    next hstill =>
      apply follows_up rfl (fun hnext => (hdown.mp hnext).elim hnot hstill)
      rw [hsucc, streak_cons_self]
  | false =>
    simp only [CheckState.record, hresult, hs, Bool.false_and]
    exact follows_down rfl (hdown.mpr (.inl (h.down hs))) rfl

theorem follows_record {s : CheckState} {results : List Bool} (h : Follows (some s) results) (check : HealthCheck)
    (probe : Probe) : Follows (some (s.record check probe)) (probe.passed :: results) := by
  cases hresult : probe.result with
  | ok u =>
    have hpassed : probe.passed = true := by simp only [Probe.passed, hresult]
    rw [hpassed]
    exact follows_pass h check hresult
  | error e =>
    have hpassed : probe.passed = false := by simp only [Probe.passed, hresult]
    rw [hpassed]
    exact follows_fail h check hresult

/-- All entries follow the findings. -/
def Matches (state : KeyedMap Uuid CheckState) (found : Findings) : Prop := ∀ id, Follows (state.lookup id) (found id)

theorem matches_ensure {state : KeyedMap Uuid CheckState} {found : Findings} (entered : Uuid → Nat)
    (h : Matches state found) (check : HealthCheck) : Matches (ensure entered state check) found := by
  cases hlookup : state.lookup check.recordId with
  | some s =>
    simp only [ensure, hlookup]
    exact h
  | none =>
    simp only [ensure, hlookup]
    intro id
    rw [KeyedMap.lookup_insert]
    have hid := h id
    by_cases hsame : id = check.recordId
    · rw [hsame, hlookup] at hid
      have hnone : found check.recordId = [] := hid
      rw [if_pos hsame, hsame, hnone]
      exact follows_new _
    · rw [if_neg hsame]
      exact hid

theorem matches_foldl_ensure {state : KeyedMap Uuid CheckState} {found : Findings} (entered : Uuid → Nat)
    (h : Matches state found) (checks : List HealthCheck) : Matches (checks.foldl (ensure entered) state) found := by
  induction checks generalizing state with
  | nil => exact h
  | cons check checks ih => exact ih (matches_ensure entered h check)

/-- What is found of some checks, each once. -/
theorem matches_foldl_record (probes : Uuid → Probe) (due : List HealthCheck) {state : KeyedMap Uuid CheckState}
    {found : Findings} (h : Matches state found) (hids : (due.map HealthCheck.recordId).Nodup)
    (hknown : ∀ check ∈ due, (state.lookup check.recordId).isSome) :
    Matches (due.foldl (recordProbe probes) state)
      fun id => if id ∈ due.map HealthCheck.recordId then (probes id).passed :: found id else found id := by
  induction due generalizing state found with
  | nil => exact h
  | cons check due ih =>
    rw [List.map_cons, List.nodup_cons] at hids
    have ⟨s, hs⟩ := Option.isSome_iff_exists.mp (hknown check List.mem_cons_self)
    have hnext : recordProbe probes state check =
        state.insert check.recordId (s.record check (probes check.recordId)) := by
      simp only [recordProbe, hs]
    rw [List.foldl_cons, hnext]
    have hfirst : Matches (state.insert check.recordId (s.record check (probes check.recordId)))
        fun id => if id = check.recordId then (probes id).passed :: found id else found id := by
      intro id
      rw [KeyedMap.lookup_insert]
      have hid := h id
      dsimp only
      by_cases hsame : id = check.recordId
      · rw [hsame, hs] at hid
        rw [if_pos hsame, if_pos hsame, hsame]
        exact follows_record hid check _
      · rw [if_neg hsame, if_neg hsame]
        exact hid
    have hlater : ∀ other ∈ due, (AList.lookup other.recordId
        (state.insert check.recordId (s.record check (probes check.recordId)))).isSome := by
      intro other hother
      rw [KeyedMap.lookup_insert]
      split
      · rfl
      · exact hknown other (List.mem_cons_of_mem _ hother)
    intro id
    have hid := ih hfirst hids.2 hlater id
    dsimp only at hid ⊢
    by_cases hsame : id = check.recordId
    · have hnot : id ∉ due.map HealthCheck.recordId := hsame ▸ hids.1
      rw [if_neg hnot, if_pos hsame] at hid
      rw [List.map_cons, if_pos (by rw [hsame]; exact List.mem_cons_self)]
      exact hid
    · simp only [hsame, if_false] at hid
      simp only [List.map_cons, List.mem_cons, hsame, false_or]
      exact hid

theorem recordId_listed (checks : KeyedMap Uuid HealthCheck) :
    (listed checks).map HealthCheck.recordId = checks.keys := by
  rw [listed, List.map_map]
  rfl

structure Watched (s : HealthMonitor × Findings) : Prop where
  follows : Matches s.1.state s.2
  once : ∀ due, s.1.probing = some due → (due.map HealthCheck.recordId).Nodup
  known : ∀ due, s.1.probing = some due → ∀ check ∈ due, (s.1.state.lookup check.recordId).isSome

theorem watched_start {s : HealthMonitor × Findings} (h : Watched s) (checks : KeyedMap Uuid HealthCheck) (now : Nat)
    (entered : Uuid → Nat) : Watched (watch s (.start checks now entered)) := by
  cases hprobing : s.1.probing with
  | some due =>
    simp only [watch, step, note, hprobing]
    exact h
  | none =>
    have hkept : Matches (s.1.state.retain fun id _ => decide (id ∈ checks))
        fun id => if id ∈ checks then s.2 id else [] := by
      intro id
      rw [KeyedMap.lookup_retain]
      have hid := h.follows id
      dsimp only
      by_cases hlisted : id ∈ checks
      · rw [if_pos hlisted, decide_eq_true hlisted]
        cases hlookup : s.1.state.lookup id with
        | none => rwa [hlookup] at hid
        | some entry => rwa [hlookup] at hid
      · rw [if_neg hlisted, decide_eq_false hlisted]
        cases s.1.state.lookup id <;> rfl
    simp only [watch, step, note, hprobing]
    refine ⟨matches_foldl_ensure entered hkept (listed checks), ?_, ?_⟩
    · intro due hdue
      rw [← Option.some.inj hdue]
      have hnodup : ((listed checks).map HealthCheck.recordId).Nodup := by
        rw [recordId_listed]
        exact checks.keys_nodup
      exact hnodup.sublist (List.filter_sublist.map _)
    · intro due hdue check hcheck
      rw [← Option.some.inj hdue, List.mem_filter] at hcheck
      exact Option.isSome_of_any hcheck.2

theorem watched_finish {s : HealthMonitor × Findings} (h : Watched s) (probes : Uuid → Probe) (order : Shuffle HealthCheck) :
    Watched (watch s (.finish probes order)) := by
  cases hprobing : s.1.probing with
  | none =>
    simp only [watch, step, note, hprobing]
    exact h
  | some due =>
    have hperm := order.perm due
    have hids : ((order.shuffle due).map HealthCheck.recordId).Nodup :=
      (hperm.map HealthCheck.recordId).nodup_iff.mpr (h.once due hprobing)
    have hknown : ∀ check ∈ order.shuffle due, (s.1.state.lookup check.recordId).isSome :=
      fun check hcheck => h.known due hprobing check (hperm.mem_iff.mp hcheck)
    have hfound := matches_foldl_record probes (order.shuffle due) h.follows hids hknown
    simp only [watch, step, note, hprobing]
    refine ⟨?_, nofun, nofun⟩
    intro id
    have hid := hfound id
    simp only [(hperm.map HealthCheck.recordId).mem_iff] at hid
    exact hid

theorem watched_recheck {s : HealthMonitor × Findings} (h : Watched s) (recordId : Uuid) (now : Nat) :
    Watched (watch s (.recheck recordId now)) := by
  cases hlookup : s.1.state.lookup recordId with
  | none =>
    simp only [watch, step, note, hlookup]
    exact h
  | some entry =>
    simp only [watch, step, note, hlookup]
    refine ⟨?_, h.once, ?_⟩
    · intro id
      rw [KeyedMap.lookup_insert]
      have hid := h.follows id
      by_cases hsame : id = recordId
      · rw [hsame, hlookup] at hid
        rw [if_pos hsame, hsame]
        exact hid
      · rw [if_neg hsame]
        exact hid
    · intro due hdue check hcheck
      rw [KeyedMap.lookup_insert]
      split
      · rfl
      · exact h.known due hdue check hcheck

theorem watched_step (s : HealthMonitor × Findings) (event : HealthEvent) (h : Watched s) : Watched (watch s event) := by
  cases event with
  | start checks now entered => exact watched_start h checks now entered
  | finish probes order => exact watched_finish h probes order
  | recheck recordId now => exact watched_recheck h recordId now

theorem watched_new : Watched (new, fun _ => []) := ⟨fun _ => rfl, nofun, nofun⟩

theorem Watched.healthy_iff {s : HealthMonitor × Findings} (h : Watched s) (id : Uuid) :
    s.1.healthy id = true ↔ ¬FoundDown (s.2 id) := by
  have hid := h.follows id
  rw [healthy]
  cases hlookup : s.1.state.lookup id with
  | none =>
    rw [hlookup] at hid
    have hnone : s.2 id = [] := hid
    rw [hnone]
    exact iff_of_true rfl (not_down_nil (by decide))
  | some entry =>
    rw [hlookup] at hid
    exact hid.1

theorem mem_failing (state : KeyedMap Uuid CheckState) (id : Uuid) :
    id ∈ failing state ↔ ∃ s, state.lookup id = some s ∧ s.healthy = false := by
  rw [failing, List.mem_toFinset, List.mem_map]
  constructor
  · intro ⟨entry, hentry, hid⟩
    rw [List.mem_filter] at hentry
    refine ⟨entry.2, ?_, by simpa using hentry.2⟩
    rw [← hid, ← Option.mem_def, AList.mem_lookup_iff]
    exact hentry.1
  · intro ⟨s, hlookup, hdown⟩
    rw [← Option.mem_def, AList.mem_lookup_iff] at hlookup
    exact ⟨⟨id, s⟩, List.mem_filter.mpr ⟨hlookup, by simpa using hdown⟩, rfl⟩

/-- The end of a tick gives the catalog the records that are found down. -/
theorem mem_unhealthy {s : HealthMonitor × Findings} (h : Watched s) (probes : Uuid → Probe) (order : Shuffle HealthCheck)
    (hprobing : s.1.probing.isSome) (id : Uuid) :
    id ∈ (watch s (.finish probes order)).1.unhealthy ↔ FoundDown ((watch s (.finish probes order)).2 id) := by
  have hnext := (watched_finish h probes order).healthy_iff id
  have ⟨due, hdue⟩ := Option.isSome_iff_exists.mp hprobing
  have hset : (watch s (.finish probes order)).1.unhealthy = failing (watch s (.finish probes order)).1.state := by
    simp only [watch, step, hdue]
  rw [hset, mem_failing, ← not_iff_not, ← hnext, healthy]
  cases AList.lookup id (watch s (.finish probes order)).1.state with
  | none => exact iff_of_true nofun rfl
  | some entry => simp

/-- Through all ticks, rechecks and changes of the stored checks: a record is healthy unless the probes since its check
was listed found it down, two failures in a row and not two passes in a row since; and the records that the end of a
tick takes out of answers are just those. -/
theorem health_follows_probes (events : List HealthEvent) :
    Always watch (fun s => ∀ id, s.1.healthy id = true ↔ ¬FoundDown (s.2 id)) (new, fun _ => []) events ∧
      Each watch
        (fun s event => ∀ probes order, event = .finish probes order → s.1.probing.isSome →
          ∀ id, id ∈ (watch s event).1.unhealthy ↔ FoundDown ((watch s event).2 id))
        (new, fun _ => []) events := by
  have halways : Always watch Watched (new, fun _ => []) events := always_of_step watched_step events watched_new
  have hany : Each watch (fun _ _ => True) (new, fun _ => []) events := each_of_forall (fun _ _ => trivial) events _
  constructor
  · exact always_mono (fun s h => h.healthy_iff) halways
  · apply each_of_invariant Watched (fun s event h _ => watched_step s event h) _ events watched_new hany
    intro s event h _ probes order hevent hprobing
    rw [hevent]
    exact mem_unhealthy h probes order hprobing

/-- What a tick's end means for the answers of an RRset with a checked record. -/
theorem served_iff {checked unhealthy : Finset Uuid} {down : Uuid → Prop} (hdown : ∀ id, id ∈ unhealthy ↔ down id)
    {records : List Record} (hids : (records.map Record.id).Nodup) {k : Text × Text}
    (hchecked : ∃ r ∈ rrset records k, r.id ∈ checked) (hup : ∃ r ∈ rrset records k, ¬down r.id) (r : Record) :
    r ∈ rrset (failover checked unhealthy records) k ↔
      r ∈ rrset records k ∧ ¬down r.id ∧ ∀ other ∈ rrset records k, ¬down other.id → r.priority ≤ other.priority := by
  have hhealthy : healthyOf unhealthy (rrset records k) ≠ [] := by
    have ⟨other, hother, hnot⟩ := hup
    exact List.ne_nil_of_mem (mem_healthyOf.mpr ⟨hother, fun hmem => hnot ((hdown other.id).mp hmem)⟩)
  rw [rrset_chosen hids (chosen_eq_some.mpr ⟨hchecked, hhealthy, rfl⟩), mem_lowestHealthy]
  simp only [mem_healthyOf, hdown, and_assoc, and_imp]

/-- Whatever the ticks before: once a tick has ended, of each RRset that has a checked record and one not found down the
records are served that are not found down and have the lowest priority of these. -/
theorem answers_follow_probes (events : List HealthEvent) (checked : Finset Uuid) (records : List Record)
    (hids : (records.map Record.id).Nodup) :
    Each watch
      (fun s event => ∀ probes order, event = .finish probes order → s.1.probing.isSome →
        ∀ k, (∃ r ∈ rrset records k, r.id ∈ checked) → (∃ r ∈ rrset records k, ¬FoundDown ((watch s event).2 r.id)) →
          ∀ r, r ∈ rrset (failover checked (watch s event).1.unhealthy records) k ↔
            r ∈ rrset records k ∧ ¬FoundDown ((watch s event).2 r.id) ∧
              ∀ other ∈ rrset records k, ¬FoundDown ((watch s event).2 other.id) → r.priority ≤ other.priority)
      (new, fun _ => []) events := by
  have hany : Each watch (fun _ _ => True) (new, fun _ => []) events := each_of_forall (fun _ _ => trivial) events _
  apply each_of_invariant Watched (fun s event h _ => watched_step s event h) _ events watched_new hany
  intro s event h _ probes order hevent hprobing k hchecked hup r
  rw [hevent] at hup ⊢
  exact served_iff (mem_unhealthy h probes order hprobing) hids hchecked hup r

/-- The first of two hosts fails two probes, 30 seconds apart. -/
def twoFailures : List HealthEvent :=
  let checks : KeyedMap Uuid HealthCheck := AList.insert 1 ⟨1, 30⟩ (AList.insert 2 ⟨2, 30⟩ ∅)
  let probes (now : Nat) (id : Uuid) : Probe :=
    ⟨if id = 1 then .error "connection timed out".toList else .ok (), now, 0⟩
  [.start checks 0 fun _ => 0, .finish (probes 0) .plain, .start checks 30000000000 fun _ => 0,
    .finish (probes 30000000000) .plain]

theorem answers_follow_two_failures :
    Each watch
      (fun s event => ∀ probes order, event = .finish probes order → s.1.probing.isSome →
        ∀ k, (∃ r ∈ rrset [webHost 1 0, webHost 2 0, webHost 3 10] k, r.id ∈ ({1, 2} : Finset Uuid)) →
          (∃ r ∈ rrset [webHost 1 0, webHost 2 0, webHost 3 10] k, ¬FoundDown ((watch s event).2 r.id)) →
          ∀ r, r ∈ rrset (failover {1, 2} (watch s event).1.unhealthy [webHost 1 0, webHost 2 0, webHost 3 10]) k ↔
            r ∈ rrset [webHost 1 0, webHost 2 0, webHost 3 10] k ∧ ¬FoundDown ((watch s event).2 r.id) ∧
              ∀ other ∈ rrset [webHost 1 0, webHost 2 0, webHost 3 10] k,
                ¬FoundDown ((watch s event).2 other.id) → r.priority ≤ other.priority)
      (new, fun _ => []) twoFailures ∧
      (run watch (new, fun _ => []) twoFailures).1.unhealthy = {1} :=
  ⟨answers_follow_probes twoFailures {1, 2} [webHost 1 0, webHost 2 0, webHost 3 10] (by decide), by decide⟩

end HealthMonitor

end DaygleDns.Authoritative
