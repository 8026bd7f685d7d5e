import DaygleDns.Core.QueryStats
import DaygleDns.Runs
import Mathlib.Data.List.ModifyLast
import Mathlib.Data.List.Range

/-! What the series of the dashboard says of the queries recorded before it, however the
clock was set in between. -/
namespace DaygleDns.Core

open Runs

structure QueryEvent where
  clock : Int
  client : Text
  qname : Text
  outcome : Outcome

def recordEvent (stats : QueryStats) (event : QueryEvent) : QueryStats :=
  stats.record event.clock event.client event.qname event.outcome

/-- The minute that a query is counted in, which is not before that of the query before it. -/
def countedMinute (done : List (Nat × Outcome)) (clock : Int) : Nat :=
  max (epochMinutes clock) ((done.getLast?.map Prod.fst).getD 0)

/-- The minute and the outcome that each query is counted under. -/
def counted (events : List QueryEvent) : List (Nat × Outcome) :=
  events.foldl (fun done event => done ++ [(countedMinute done event.clock, event.outcome)]) []

/-- The bucket of a minute, counted anew. -/
def tally (done : List (Nat × Outcome)) (minute : Nat) : Bucket :=
  ((done.filter fun entry => entry.1 = minute).map Prod.snd).foldl Bucket.count (Bucket.new minute)

section Tally

variable {done : List (Nat × Outcome)} {minute : Nat} {outcome : Outcome}

@[simp] theorem count_minute (bucket : Bucket) (outcome : Outcome) : (bucket.count outcome).minute = bucket.minute := by
  cases outcome <;> rfl

@[simp] theorem count_queries (bucket : Bucket) (outcome : Outcome) :
    (bucket.count outcome).queries = bucket.queries + 1 := by
  cases outcome <;> rfl

theorem foldl_count_queries (outcomes : List Outcome) (bucket : Bucket) :
    (outcomes.foldl Bucket.count bucket).queries = bucket.queries + outcomes.length := by
  induction outcomes generalizing bucket with
  | nil => rfl
  | cons outcome outcomes ih =>
    rw [List.foldl_cons, ih, count_queries, List.length_cons]
    omega

theorem tally_queries (done : List (Nat × Outcome)) (minute : Nat) :
    (tally done minute).queries = done.countP fun entry => entry.1 = minute := by
  rw [tally, foldl_count_queries, List.length_map, List.countP_eq_length_filter]
  exact Nat.zero_add _

theorem tally_of_none (h : ∀ entry ∈ done, entry.1 ≠ minute) : tally done minute = Bucket.new minute := by
  have hnone : (done.filter fun entry => entry.1 = minute) = [] := by
    apply List.filter_eq_nil_iff.mpr
    intro entry hentry
    simpa using h entry hentry
  rw [tally, hnone]
  rfl

theorem tally_append_same : tally (done ++ [(minute, outcome)]) minute = (tally done minute).count outcome := by
  simp [tally, List.filter_append]

theorem tally_append_other {other : Nat} (h : minute ≠ other) : tally (done ++ [(minute, outcome)]) other = tally done other := by
  simp [tally, List.filter_append, h]

end Tally

/-- Numbers that grow reach as far as there are many of them. -/
theorem spread_le {first last : Nat} {between : List Nat} (h : (first :: (between ++ [last])).Pairwise (· < ·)) :
    first + between.length + 1 ≤ last := by
  induction between generalizing first with
  | nil =>
    have := (List.pairwise_cons.mp h).1 last (by simp)
    simp only [List.length_nil]
    omega
  | cons next between ih =>
    obtain ⟨hfirst, hrest⟩ := List.pairwise_cons.mp h
    have hnext := hfirst next (by simp)
    have := ih hrest
    simp only [List.length_cons]
    omega

/-! What the buckets hold. -/

/-- The buckets of the last minutes in which queries were counted. -/
structure Counts (done : List (Nat × Outcome)) (buckets : List Bucket) : Prop where
  ordered : (buckets.map Bucket.minute).Pairwise (· < ·)
  bounded : buckets.length ≤ MAX_BUCKETS
  last : buckets.getLast?.map Bucket.minute = done.getLast?.map Prod.fst
  tallied : ∀ bucket ∈ buckets, bucket = tally done bucket.minute
  /-- What is not there is from before the time that the buckets cover. -/
  kept : ∀ entry ∈ done, entry.1 ∈ buckets.map Bucket.minute ∨
    ∃ newest, done.getLast?.map Prod.fst = some newest ∧ entry.1 + MAX_BUCKETS ≤ newest

section Record

variable {done : List (Nat × Outcome)} {buckets front : List Bucket} {bucket : Bucket} {clock : Int} {minute : Nat}
  {outcome : Outcome}

theorem recordMinute_same (h : max minute bucket.minute = bucket.minute) :
    QueryStats.recordMinute (front ++ [bucket]) minute outcome = front ++ [bucket.count outcome] := by
  simp [QueryStats.recordMinute, h, List.modifyLast_concat]

theorem recordMinute_next (h : ∀ last ∈ buckets.getLast?, last.minute < minute) :
    QueryStats.recordMinute buckets minute outcome =
      buckets.drop (buckets.length + 1 - MAX_BUCKETS) ++ [(Bucket.new minute).count outcome] := by
  have hmax : max minute ((buckets.getLast?.map Bucket.minute).getD minute) = minute := by
    cases hlast : buckets.getLast? with
    | none => simp
    | some last => simpa using Nat.le_of_lt (h last hlast)
  have hfresh : buckets.getLast?.any (fun bucket => decide (bucket.minute = minute)) = false := by
    cases hlast : buckets.getLast? with
    | none => rfl
    | some last => simpa using Nat.ne_of_lt (h last hlast)
  have hdrop : buckets.length + 1 - MAX_BUCKETS ≤ buckets.length := by
    unfold MAX_BUCKETS
    omega
  simp only [QueryStats.recordMinute, hmax, hfresh, Bool.false_eq_true, if_false, List.length_append, List.length_singleton]
  rw [List.drop_append_of_le_length hdrop, List.modifyLast_concat]

theorem ordered_lt_last (h : Counts done (front ++ [bucket])) : ∀ old ∈ front, old.minute < bucket.minute := by
  intro old hold
  have hordered := h.ordered
  rw [List.map_append] at hordered
  exact (List.pairwise_append.mp hordered).2.2 _ (List.mem_map_of_mem hold) _ (by simp)

/-- A query that is counted in the last bucket. -/
theorem counts_same (h : Counts done (front ++ [bucket])) :
    Counts (done ++ [(bucket.minute, outcome)]) (front ++ [bucket.count outcome]) where
  ordered := by
    have := h.ordered
    simpa using this
  bounded := by
    have := h.bounded
    simpa using this
  last := by simp
  tallied := by
    intro other hother
    rcases List.mem_append.mp hother with hother | hother
    · rw [tally_append_other (Nat.ne_of_gt (ordered_lt_last h other hother))]
      exact h.tallied other (List.mem_append_left _ hother)
    · rw [List.mem_singleton.mp hother, count_minute, tally_append_same, ← h.tallied bucket (by simp)]
  kept := by
    intro entry hentry
    have hlast := h.last
    rcases List.mem_append.mp hentry with hentry | hentry
    · apply (h.kept entry hentry).imp
      · simp
      · simp [← hlast]
    · left
      simp [List.mem_singleton.mp hentry]

theorem minutes_lt (h : Counts done buckets) (hnewer : ∀ last ∈ buckets.getLast?, last.minute < minute) :
    ∀ old ∈ buckets, old.minute < minute := by
  intro old hold
  rcases List.eq_nil_or_concat' buckets with rfl | ⟨front, last, rfl⟩
  · cases hold
  · have hlast := hnewer last (by simp)
    rcases List.mem_append.mp hold with hold | hold
    · exact (ordered_lt_last h old hold).trans hlast
    · rwa [List.mem_singleton.mp hold]

theorem counted_lt (h : Counts done buckets) (hnewer : ∀ last ∈ buckets.getLast?, last.minute < minute) :
    ∀ entry ∈ done, entry.1 < minute := by
  intro entry hentry
  rcases h.kept entry hentry with hmem | ⟨newest, hnewest, hle⟩
  · obtain ⟨bucket, hbucket, hsame⟩ := List.mem_map.mp hmem
    rw [← hsame]
    exact minutes_lt h hnewer bucket hbucket
  · rw [← h.last] at hnewest
    obtain ⟨last, hlast, rfl⟩ := Option.map_eq_some_iff.mp hnewest
    have := hnewer last hlast
    omega

/-- A bucket that makes room for a new one is from before the time that the buckets cover. -/
theorem kept_or_spent (h : Counts done buckets) (hnewer : ∀ last ∈ buckets.getLast?, last.minute < minute)
    {old : Nat} (hold : old ∈ buckets.map Bucket.minute) :
    old ∈ (buckets.drop (buckets.length + 1 - MAX_BUCKETS)).map Bucket.minute ∨ old + MAX_BUCKETS ≤ minute := by
  have hlength := h.bounded
  cases buckets with
  | nil => cases hold
  | cons first rest =>
    by_cases hroom : rest.length + 1 < MAX_BUCKETS
    · left
      have hzero : (first :: rest).length + 1 - MAX_BUCKETS = 0 := by
        simp only [List.length_cons]
        omega
      rw [hzero]
      exact hold
    · have hone : (first :: rest).length + 1 - MAX_BUCKETS = 1 := by
        simp only [List.length_cons] at hlength ⊢
        omega
      rw [hone]
      rcases List.mem_cons.mp hold with rfl | hrest
      · right
        have hall : (first.minute :: (rest.map Bucket.minute ++ [minute])).Pairwise (· < ·) := by
          have hafter := minutes_lt h hnewer
          rw [← List.cons_append]
          apply List.pairwise_append.mpr
          refine ⟨h.ordered, List.pairwise_singleton _ _, ?_⟩
          intro before hbefore new hnew
          have hbefore : before ∈ (first :: rest).map Bucket.minute := hbefore
          obtain ⟨bucket, hbucket, rfl⟩ := List.mem_map.mp hbefore
          rw [List.mem_singleton.mp hnew]
          exact hafter bucket hbucket
        have hspread := spread_le hall
        rw [List.length_map] at hspread
        omega
      · exact .inl hrest

/-- A query that is counted in a bucket of its own. -/
theorem counts_next (h : Counts done buckets) (hnewer : ∀ last ∈ buckets.getLast?, last.minute < minute) :
    Counts (done ++ [(minute, outcome)])
      (buckets.drop (buckets.length + 1 - MAX_BUCKETS) ++ [(Bucket.new minute).count outcome]) where
  ordered := by
    rw [List.map_append, List.map_drop]
    apply List.pairwise_append.mpr
    refine ⟨h.ordered.sublist (List.drop_sublist _ _), List.pairwise_singleton _ _, ?_⟩
    intro old hold new hnew
    obtain ⟨bucket, hbucket, rfl⟩ := List.mem_map.mp (List.mem_of_mem_drop hold)
    rw [List.mem_singleton.mp hnew, count_minute]
    exact minutes_lt h hnewer bucket hbucket
  bounded := by
    have hlength := h.bounded
    simp only [List.length_append, List.length_drop, List.length_singleton]
    unfold MAX_BUCKETS at hlength ⊢
    omega
  last := by simp [Bucket.new]
  tallied := by
    intro bucket hbucket
    rcases List.mem_append.mp hbucket with hbucket | hbucket
    · have hold := List.mem_of_mem_drop hbucket
      rw [tally_append_other (Nat.ne_of_gt (minutes_lt h hnewer bucket hold))]
      exact h.tallied bucket hold
    · have hnone : tally done minute = Bucket.new minute :=
        tally_of_none fun entry hentry => Nat.ne_of_lt (counted_lt h hnewer entry hentry)
      rw [List.mem_singleton.mp hbucket, count_minute]
      exact (congrArg (Bucket.count · outcome) hnone.symm).trans tally_append_same.symm
  kept := by
    intro entry hentry
    rw [List.getLast?_concat]
    rcases List.mem_append.mp hentry with hentry | hentry
    · rcases h.kept entry hentry with hmem | ⟨newest, hnewest, hle⟩
      · apply (kept_or_spent h hnewer hmem).imp
        · intro hstays
          rw [List.map_append]
          exact List.mem_append_left _ hstays
        · intro hspent
          exact ⟨minute, rfl, hspent⟩
      · right
        have hlast := counted_lt h hnewer
        obtain ⟨last, hlast', rfl⟩ := Option.map_eq_some_iff.mp hnewest
        have := hlast last (List.mem_of_getLast? hlast')
        exact ⟨minute, rfl, by omega⟩
    · left
      simp [List.mem_singleton.mp hentry, Bucket.new]

/-- What recording a query keeps. -/
theorem counts_record (h : Counts done buckets) :
    Counts (done ++ [(countedMinute done clock, outcome)])
      (QueryStats.recordMinute buckets (epochMinutes clock) outcome) := by
  unfold countedMinute
  rw [← h.last]
  rcases List.eq_nil_or_concat' buckets with rfl | ⟨front, last, rfl⟩
  · rw [recordMinute_next (by simp)]
    simpa using counts_next h (by simp)
  · rw [List.getLast?_concat]
    simp only [Option.map_some, Option.getD_some]
    rcases Nat.lt_or_ge last.minute (epochMinutes clock) with hlt | hge
    · have hnewer : ∀ bucket ∈ (front ++ [last]).getLast?, bucket.minute < epochMinutes clock := by simpa using hlt
      rw [Nat.max_eq_left (Nat.le_of_lt hlt), recordMinute_next hnewer]
      exact counts_next h hnewer
    · rw [Nat.max_eq_right hge, recordMinute_same (Nat.max_eq_right hge)]
      exact counts_same h

end Record

theorem counts_run (events : List QueryEvent) :
    Counts (counted events) (run recordEvent .new events).buckets := by
  induction events using List.reverseRecOn with
  | nil => exact ⟨List.Pairwise.nil, Nat.zero_le _, rfl, by simp [QueryStats.new], by simp [counted]⟩
  | append_singleton events event ih =>
    rw [run_append, counted, List.foldl_append]
    exact counts_record ih

/-! The series. -/

section Series

variable {done : List (Nat × Outcome)} {stats : QueryStats} {clock : Int} {minute : Nat} {windowMinutes : UInt32}

theorem seriesWindow_pos (windowMinutes : UInt32) : 0 < QueryStats.seriesWindow windowMinutes := by
  unfold QueryStats.seriesWindow MAX_BUCKETS
  omega

theorem seriesWindow_le (windowMinutes : UInt32) : QueryStats.seriesWindow windowMinutes ≤ MAX_BUCKETS :=
  Nat.min_le_right _ _

theorem last_le_seriesEnd (clock : Int) (h : Counts done stats.buckets) {newest : Nat} (hnewest : done.getLast?.map Prod.fst = some newest) :
    newest ≤ stats.seriesEnd clock := by
  unfold QueryStats.seriesEnd
  rw [h.last, hnewest]
  exact Nat.le_max_right _ _

/-- A minute of the series has all the queries that were counted in it. -/
theorem point_byMinute (h : Counts done stats.buckets) (hminute : stats.seriesStart clock windowMinutes ≤ minute) :
    QueryStats.point minute (QueryStats.byMinute stats.buckets minute) = QueryStats.point minute (some (tally done minute)) := by
  cases hfound : QueryStats.byMinute stats.buckets minute with
  | some bucket =>
    have hmem := List.mem_reverse.mp (List.mem_of_find?_eq_some hfound)
    have hhit : bucket.minute = minute := by simpa using List.find?_some hfound
    rw [← hhit, ← h.tallied bucket hmem]
  | none =>
    have hnone : ∀ entry ∈ done, entry.1 ≠ minute := by
      rintro entry hentry rfl
      rcases h.kept entry hentry with hmem | ⟨newest, hnewest, hle⟩
      · obtain ⟨bucket, hbucket, hsame⟩ := List.mem_map.mp hmem
        have := List.find?_eq_none.mp hfound bucket (List.mem_reverse.mpr hbucket)
        simp [hsame] at this
      · -- it is too old for the series
        have hend := last_le_seriesEnd clock h hnewest
        have hpos := seriesWindow_pos windowMinutes
        have hle' := seriesWindow_le windowMinutes
        unfold QueryStats.seriesStart at hminute
        omega
    rw [tally_of_none hnone]
    rfl

theorem series_length : (stats.series clock windowMinutes).length =
    min (QueryStats.seriesWindow windowMinutes) (stats.seriesEnd clock + 1) := by
  have hpos := seriesWindow_pos windowMinutes
  simp only [QueryStats.series, QueryStats.seriesStart, List.length_map, List.length_range']
  omega

theorem series_times : (stats.series clock windowMinutes).map SeriesPoint.t =
    (List.range' (stats.seriesStart clock windowMinutes)
      (min (QueryStats.seriesWindow windowMinutes) (stats.seriesEnd clock + 1))).map (· * 60) := by
  rw [← series_length]
  simp [QueryStats.series, QueryStats.point, Function.comp_def]

theorem countP_cons_minute {minutes : List Nat} (h : minute ∉ minutes) (done : List (Nat × Outcome)) :
    (done.countP fun entry => entry.1 = minute) + (done.countP fun entry => entry.1 ∈ minutes) =
      done.countP fun entry => entry.1 ∈ minute :: minutes := by
  induction done with
  | nil => rfl
  | cons entry done ih =>
    rw [List.countP_cons, List.countP_cons, List.countP_cons, ← ih]
    by_cases hhere : entry.1 = minute
    · simp only [hhere, h, List.mem_cons, true_or, decide_true, decide_false, if_true, Bool.false_eq_true, if_false]
      omega
    · by_cases hlater : entry.1 ∈ minutes
      · simp only [hhere, hlater, List.mem_cons, or_true, decide_true, decide_false, if_true, Bool.false_eq_true, if_false]
        omega
      · simp only [hhere, hlater, List.mem_cons, or_false, decide_false, Bool.false_eq_true, if_false]
        omega

/-- Minute by minute no query is counted twice. -/
theorem sum_countP {minutes : List Nat} (h : minutes.Nodup) (done : List (Nat × Outcome)) :
    (minutes.map fun minute => done.countP fun entry => entry.1 = minute).sum =
      done.countP fun entry => entry.1 ∈ minutes := by
  induction minutes with
  | nil => simp
  | cons minute minutes ih =>
    obtain ⟨hminute, hrest⟩ := List.nodup_cons.mp h
    rw [List.map_cons, List.sum_cons, ih hrest, countP_cons_minute hminute]

theorem counted_le_seriesEnd (clock : Int) (h : Counts done stats.buckets) : ∀ entry ∈ done, entry.1 ≤ stats.seriesEnd clock := by
  intro entry hentry
  rcases h.kept entry hentry with hmem | ⟨newest, hnewest, hle⟩
  · rcases List.eq_nil_or_concat' stats.buckets with hnil | ⟨front, last, hbuckets⟩
    · rw [hnil] at hmem
      cases hmem
    · rw [hbuckets] at h hmem
      have hlast : last.minute ≤ stats.seriesEnd clock := by
        unfold QueryStats.seriesEnd
        rw [hbuckets]
        simp
      obtain ⟨bucket, hbucket, hsame⟩ := List.mem_map.mp hmem
      rw [← hsame]
      rcases List.mem_append.mp hbucket with hbucket | hbucket
      · exact (Nat.le_of_lt (ordered_lt_last h bucket hbucket)).trans hlast
      · rwa [List.mem_singleton.mp hbucket]
  · have := last_le_seriesEnd clock h hnewest
    omega

theorem sum_series (h : Counts done stats.buckets) :
    ((stats.series clock windowMinutes).map SeriesPoint.queries).sum =
      done.countP fun entry => stats.seriesStart clock windowMinutes ≤ entry.1 := by
  have hpoints : (stats.series clock windowMinutes).map SeriesPoint.queries =
      (List.range' (stats.seriesStart clock windowMinutes)
        (stats.seriesEnd clock + 1 - stats.seriesStart clock windowMinutes)).map
          fun minute => done.countP fun entry => entry.1 = minute := by
    rw [QueryStats.series, List.map_map]
    apply List.map_congr_left
    intro minute hminute
    rw [Function.comp_apply, point_byMinute h (List.mem_range'_1.mp hminute).1]
    exact tally_queries done minute
  rw [hpoints, sum_countP List.nodup_range']
  apply List.countP_congr
  intro entry hentry
  have hend := counted_le_seriesEnd clock h entry hentry
  rw [decide_eq_true_eq, decide_eq_true_eq, List.mem_range'_1]
  omega

theorem sum_buckets (h : Counts done stats.buckets) :
    ((stats.buckets.filter fun bucket => stats.seriesStart clock windowMinutes ≤ bucket.minute).map Bucket.queries).sum =
      done.countP fun entry => stats.seriesStart clock windowMinutes ≤ entry.1 := by
  have hqueries : ∀ buckets ⊆ stats.buckets, buckets.map Bucket.queries =
      (buckets.map Bucket.minute).map fun minute => done.countP fun entry => entry.1 = minute := by
    intro buckets hsubset
    rw [List.map_map]
    apply List.map_congr_left
    intro bucket hbucket
    rw [Function.comp_apply, ← tally_queries, ← h.tallied bucket (hsubset hbucket)]
  have hnodup : (stats.buckets.map Bucket.minute).Nodup := h.ordered.imp Nat.ne_of_lt
  rw [hqueries _ (List.filter_subset_self _), sum_countP (hnodup.sublist (List.filter_sublist.map _))]
  apply List.countP_congr
  intro entry hentry
  rw [decide_eq_true_eq, decide_eq_true_eq, List.mem_map]
  constructor
  · rintro ⟨bucket, hbucket, hsame⟩
    rw [← hsame]
    exact of_decide_eq_true (List.mem_filter.mp hbucket).2
  · intro hstart
    rcases h.kept entry hentry with hmem | ⟨newest, hnewest, hle⟩
    · obtain ⟨bucket, hbucket, hsame⟩ := List.mem_map.mp hmem
      exact ⟨bucket, List.mem_filter.mpr ⟨hbucket, by simpa [hsame] using hstart⟩, hsame⟩
    · have hend := last_le_seriesEnd clock h hnewest
      have hpos := seriesWindow_pos windowMinutes
      have hwindow := seriesWindow_le windowMinutes
      unfold QueryStats.seriesStart at hstart
      omega

end Series

/-- Whatever the clock read, the buckets stand in order, and a series has the queries of its
minutes, each of them once. -/
theorem series_counts (events : List QueryEvent) :
    Always recordEvent (fun stats => (stats.buckets.map Bucket.minute).Pairwise (· < ·) ∧
      stats.buckets.length ≤ MAX_BUCKETS) .new events ∧
    ∀ (clock : Int) (windowMinutes : UInt32),
      let stats := run recordEvent .new events
      let first := stats.seriesStart clock windowMinutes
      (stats.series clock windowMinutes).map SeriesPoint.t =
          (List.range' first (min (QueryStats.seriesWindow windowMinutes) (stats.seriesEnd clock + 1))).map (· * 60) ∧
        ((stats.series clock windowMinutes).map SeriesPoint.queries).sum =
          ((stats.buckets.filter fun bucket => first ≤ bucket.minute).map Bucket.queries).sum ∧
        ((stats.series clock windowMinutes).map SeriesPoint.queries).sum =
          (counted events).countP fun entry => first ≤ entry.1 := by
  apply And.intro
  · rw [always_iff_prefixes]
    intro before _
    exact ⟨(counts_run before).ordered, (counts_run before).bounded⟩
  · intro clock windowMinutes
    have h := counts_run events
    exact ⟨series_times, (sum_series h).trans (sum_buckets h).symm, sum_series h⟩

/-- A day and a minute is cut to a day. -/
theorem series_shorter :
    ¬ ∀ (clock : Int) (windowMinutes : UInt32), (QueryStats.new.series clock windowMinutes).length =
      min windowMinutes.toNat (QueryStats.new.seriesEnd clock + 1) := by
  intro h
  have := h 90000 1441
  rw [series_length] at this
  exact absurd this (by decide)

end DaygleDns.Core
