import DaygleDns.Dispatch.ResponseFilter
import DaygleDns.OrderedTable
import DaygleDns.Runs

/-! The query log in the database: entries are queued while queries are answered, and a task of its
own writes them in batches and keeps the table to its limits. -/
namespace DaygleDns.Dispatch.QueryDb

open Text Runs

structure QueryDbEntry where
  ts : Text
  client : Text
  qname : Text
  qtype : Text
  protocol : Text
  outcome : Text
  rcode : Option Text
  elapsedMs : UInt64
  block : Option BlockReason
  account : Option Text
deriving DecidableEq

/-- A row of the table; its `id` is zero before it is inserted. -/
structure QueryLogRow where
  id : Nat
  ts : Text
  client : Text
  qname : Text
  qtype : Text
  protocol : Text
  outcome : Text
  rcode : Option Text
  elapsedMs : Int64
  block : Option BlockReason
  account : Option Text
deriving DecidableEq

def QueryDbEntry.row (entry : QueryDbEntry) : QueryLogRow where
  id := 0
  ts := entry.ts
  client := entry.client
  qname := entry.qname
  qtype := entry.qtype
  protocol := entry.protocol
  outcome := entry.outcome
  rcode := entry.rcode
  elapsedMs := entry.elapsedMs.toInt64
  block := entry.block
  account := entry.account

/-! The table. -/

/-- The rows by their ids, and the last id that was given out. -/
structure QueryLogs where
  rows : OrderedTable QueryLogRow Nat QueryLogRow.id
  lastId : Nat
  bounded : ∀ row ∈ rows.rows, row.id ≤ lastId

namespace QueryLogs

def retain (logs : QueryLogs) (keep : QueryLogRow → Bool) : QueryLogs where
  rows := logs.rows.retain keep
  lastId := logs.lastId
  bounded row h := logs.bounded row (List.mem_of_mem_filter h)

/-- Ids are given out once. -/
def insertQueryLogRow (logs : QueryLogs) (entry : QueryLogRow) : QueryLogs where
  rows := logs.rows.put { entry with id := logs.lastId + 1 }
  lastId := logs.lastId + 1
  bounded row h := by
    rcases OrderedTable.mem_insertRow h with rfl | hold
    · exact Nat.le_refl _
    · exact Nat.le_succ_of_le (logs.bounded row hold)

def insertQueryLogs (logs : QueryLogs) (entries : List QueryLogRow) : QueryLogs := entries.foldl insertQueryLogRow logs

/-- `max as i64`, where an offset below zero counts as none. -/
def offset (max : UInt64) : Nat := max.toInt64.toInt.toNat

def trimQueryLogs (logs : QueryLogs) (max : UInt64) : QueryLogs :=
  if max = 0 then logs
  else
    match logs.rows.rows.reverse[offset max]? with
    | some cutoff => logs.retain fun row => decide (cutoff.id < row.id)
    | none => logs

def deleteQueryLogsBefore (logs : QueryLogs) (before : Text) : QueryLogs :=
  logs.retain fun row => !decide (row.ts < before)

def clearQueryLogs (logs : QueryLogs) : QueryLogs := logs.retain fun _ => false

end QueryLogs

/-- The row that an entry becomes, the one with this index of those that are inserted after the id. -/
def QueryLogRow.numbered (entry : QueryLogRow) (lastId i : Nat) : QueryLogRow := { entry with id := lastId + 1 + i }

namespace QueryLogs

variable {logs : QueryLogs}

/-- Rows that are deleted take no other's id with them. -/
structure Fewer (after before : QueryLogs) : Prop where
  lastId : after.lastId = before.lastId
  rows : ∀ row ∈ after.rows.rows, row ∈ before.rows.rows

theorem fewer_retain (logs : QueryLogs) (keep : QueryLogRow → Bool) : (logs.retain keep).Fewer logs :=
  ⟨rfl, fun _ h => List.mem_of_mem_filter h⟩

theorem fewer_trim (logs : QueryLogs) (max : UInt64) : (logs.trimQueryLogs max).Fewer logs := by
  unfold trimQueryLogs
  split
  · exact ⟨rfl, fun _ h => h⟩
  · split
    · exact fewer_retain _ _
    · exact ⟨rfl, fun _ h => h⟩

theorem mem_insertQueryLogRow {entry row : QueryLogRow} :
    row ∈ (logs.insertQueryLogRow entry).rows.rows ↔ row ∈ logs.rows.rows ∨ row = entry.numbered logs.lastId 0 := by
  have hget := OrderedTable.get_put logs.rows (entry.numbered logs.lastId 0) row.id
  change row ∈ (logs.rows.put (entry.numbered logs.lastId 0)).rows ↔ _
  rw [OrderedTable.mem_rows_iff, hget]
  split
  next hid =>
    constructor
    · exact fun h => .inr (Option.some.inj h).symm
    · rintro (hold | rfl)
      · have hle := logs.bounded row hold
        rw [← hid] at hle
        exact absurd hle (Nat.not_succ_le_self _)
      · rfl
  next hid =>
    rw [← OrderedTable.mem_rows_iff]
    refine ⟨.inl, ?_⟩
    rintro (hold | rfl)
    · exact hold
    · exact absurd rfl hid

theorem lastId_insertQueryLogs (entries : List QueryLogRow) :
    (logs.insertQueryLogs entries).lastId = logs.lastId + entries.length := by
  induction entries generalizing logs with
  | nil => rfl
  | cons entry entries ih =>
    change ((logs.insertQueryLogRow entry).insertQueryLogs entries).lastId = _
    rw [ih, List.length_cons, Nat.add_comm entries.length, ← Nat.add_assoc]
    rfl

theorem mem_insertQueryLogs {entries : List QueryLogRow} {row : QueryLogRow} :
    row ∈ (logs.insertQueryLogs entries).rows.rows ↔
      row ∈ logs.rows.rows ∨ ∃ (i : Nat) (entry : QueryLogRow), entries[i]? = some entry ∧ row = entry.numbered logs.lastId i := by
  induction entries generalizing logs with
  | nil => simp [insertQueryLogs]
  | cons first entries ih =>
    have hlater (i : Nat) (entry : QueryLogRow) :
        entry.numbered (logs.lastId + 1) i = entry.numbered logs.lastId (i + 1) := by
      rw [QueryLogRow.numbered, QueryLogRow.numbered, Nat.add_right_comm (logs.lastId + 1) 1 i]
      rfl
    change row ∈ ((logs.insertQueryLogRow first).insertQueryLogs entries).rows.rows ↔ _
    rw [ih, mem_insertQueryLogRow]
    change (_ ∨ ∃ (i : Nat) (entry : QueryLogRow), _ ∧ row = entry.numbered (logs.lastId + 1) i) ↔ _
    constructor
    · rintro ((hold | hfirst) | ⟨i, entry, hentry, hrow⟩)
      · exact .inl hold
      · exact .inr ⟨0, first, rfl, hfirst⟩
      · exact .inr ⟨i + 1, entry, hentry, hrow.trans (hlater i entry)⟩
    · rintro (hold | ⟨i, entry, hentry, hrow⟩)
      · exact .inl (.inl hold)
      · cases i with
        | zero =>
          obtain rfl := Option.some.inj hentry
          exact .inl (.inr hrow)
        | succ i => exact .inr ⟨i, entry, hentry, hrow.trans (hlater i entry).symm⟩

end QueryLogs

/-! The logger and its writer. -/

structure LoggingSettings where
  queryDbMaxRows : UInt64
  queryDbRetentionDays : UInt32

inductive AfterFlush where
  | select
  | settings
  | stop

/-- Where the writer is: at the choice of its loop, or before what it does next in a turn of it. -/
inductive Writer where
  | selecting
  | inserting (batch : List QueryLogRow) (next : AfterFlush)
  | loading
  | trimming (maxRows : UInt64) (days : UInt32)
  | aging (days : UInt32)
  | deleting (before : Text)
  | stopped

def AfterFlush.writer : AfterFlush → Writer
  | .select => .selecting
  | .settings => .loading
  | .stop => .stopped

/-- `handles` tells whether there is one left to log with. -/
structure QueryDbLogger where
  channel : List QueryDbEntry
  handles : Bool
  dropped : UInt64
  settings : LoggingSettings
  pending : List QueryLogRow
  ticksToAgeTrim : UInt32
  writer : Writer
  logs : QueryLogs

def channelCapacity : Nat := 8192

def batchMaxRows : Nat := 512

def ageTrimTicks : UInt32 := 120

/-- `log` comes with what the settings said when they were read for it, and `resume` with how the task that the writer
waits for has ended and with the time that rows are kept from. -/
inductive LogEvent where
  | log (entry : QueryDbEntry) (enabled : Bool)
  | reload (settings : LoggingSettings)
  | clear
  | dropHandles
  | shutdown
  | tick
  | recv
  | resume (ok : Bool) (before : Text)

namespace QueryDbLogger

def spawn (logs : QueryLogs) (settings : LoggingSettings) : QueryDbLogger where
  channel := []
  handles := true
  dropped := 0
  settings := settings
  pending := []
  ticksToAgeTrim := 0
  writer := .selecting
  logs := logs

/-- The channel takes an entry while it has room and the writer runs. -/
def sends (s : QueryDbLogger) : Bool :=
  match s.writer with
  | .stopped => false
  | _ => decide (s.channel.length < channelCapacity)

def log (s : QueryDbLogger) (entry : QueryDbEntry) (enabled : Bool) : QueryDbLogger :=
  if !(enabled && s.handles) then s
  else if s.sends then { s with channel := s.channel ++ [entry] }
  else { s with dropped := s.dropped + 1 }

def flush (s : QueryDbLogger) (next : AfterFlush) : QueryDbLogger :=
  if s.pending.isEmpty then { s with writer := next.writer }
  else { s with pending := [], writer := .inserting s.pending next }

def recv (s : QueryDbLogger) : QueryDbLogger :=
  match s.channel with
  | entry :: rest =>
      let s' := { s with channel := rest, pending := s.pending ++ [entry.row] }
      if batchMaxRows ≤ s'.pending.length then s'.flush .select else s'
  | [] => if s.handles then s else s.flush .stop

/-- The writer goes on; a write that failed has changed nothing. -/
def resume (s : QueryDbLogger) (ok : Bool) (before : Text) : QueryDbLogger :=
  match s.writer with
  | .selecting => s
  | .inserting batch next =>
      { s with writer := next.writer, logs := if ok then s.logs.insertQueryLogs batch else s.logs }
  | .loading =>
      if s.settings.queryDbMaxRows = 0 then { s with writer := .aging s.settings.queryDbRetentionDays }
      else { s with writer := .trimming s.settings.queryDbMaxRows s.settings.queryDbRetentionDays }
  | .trimming maxRows days =>
      { s with writer := .aging days, logs := if ok then s.logs.trimQueryLogs maxRows else s.logs }
  | .aging days =>
      if s.ticksToAgeTrim ≠ 0 then { s with writer := .selecting, ticksToAgeTrim := s.ticksToAgeTrim - 1 }
      else if days = 0 then { s with writer := .selecting, ticksToAgeTrim := ageTrimTicks - 1 }
      else { s with writer := .deleting before }
  | .deleting cutoff =>
      { s with
        writer := .selecting
        ticksToAgeTrim := ageTrimTicks - 1
        logs := if ok then s.logs.deleteQueryLogsBefore cutoff else s.logs }
  | .stopped => s

def selecting (s : QueryDbLogger) : Bool :=
  match s.writer with
  | .selecting => true
  | _ => false

def step (s : QueryDbLogger) : LogEvent → QueryDbLogger
  | .log entry enabled => s.log entry enabled
  | .reload settings => { s with settings := settings }
  | .clear => { s with logs := s.logs.clearQueryLogs }
  | .dropHandles => { s with handles := false }
  | .shutdown => if s.selecting then s.flush .stop else s
  | .tick => if s.selecting then s.flush .settings else s
  | .recv => if s.selecting then s.recv else s
  | .resume ok before => s.resume ok before

end QueryDbLogger

/-! What has become of the entries. -/

/-- The entries that were queued, how many were not, and the batches whose write has ended. -/
structure Ledger where
  accepted : List QueryDbEntry
  refused : Nat
  finished : List (List QueryLogRow × Bool)

def Ledger.empty : Ledger := ⟨[], 0, []⟩

def Ledger.record (l : Ledger) (s : QueryDbLogger) : LogEvent → Ledger
  | .log entry enabled =>
      if !(enabled && s.handles) then l
      else if s.sends then { l with accepted := l.accepted ++ [entry] }
      else { l with refused := l.refused + 1 }
  | .resume ok _ =>
      match s.writer with
      | .inserting batch _ => { l with finished := l.finished ++ [(batch, ok)] }
      | _ => l
  | _ => l

def Ledger.written (l : Ledger) : List QueryLogRow := (l.finished.filter (·.2)).flatMap (·.1)

def account (p : QueryDbLogger × Ledger) (event : LogEvent) : QueryDbLogger × Ledger := (p.1.step event, p.2.record p.1 event)

def Writer.batch : Writer → List QueryLogRow
  | .inserting batch _ => batch
  | _ => []

structure Accounted (start : QueryLogs) (most : Nat) (s : QueryDbLogger) (l : Ledger) : Prop where
  order : l.accepted.map QueryDbEntry.row =
    l.finished.flatMap (·.1) ++ s.writer.batch ++ s.pending ++ s.channel.map QueryDbEntry.row
  dropped : s.dropped = UInt64.ofNat l.refused
  queued : s.channel.length ≤ channelCapacity
  pending : s.pending.length ≤ most
  batch : s.writer.batch.length ≤ batchMaxRows
  finished : ∀ batch ∈ l.finished, batch.1.length ≤ batchMaxRows
  lastId : s.logs.lastId = start.lastId + l.written.length
  rows : ∀ row ∈ s.logs.rows.rows, row ∈ start.rows.rows ∨
    ∃ (i : Nat) (entry : QueryLogRow), l.written[i]? = some entry ∧ row = entry.numbered start.lastId i

section Steps

variable {start : QueryLogs} {s : QueryDbLogger} {l : Ledger} {most : Nat}

@[simp] theorem batch_writer (next : AfterFlush) : next.writer.batch = [] := by
  cases next <;> rfl

theorem accounted_spawn (start : QueryLogs) (settings : LoggingSettings) :
    Accounted start 511 (.spawn start settings) .empty where
  order := rfl
  dropped := rfl
  queued := Nat.zero_le _
  pending := Nat.zero_le _
  batch := Nat.zero_le _
  finished := nofun
  lastId := rfl
  rows _ h := .inl h

/-- What is pending is handed to a write. -/
theorem accounted_flush (h : Accounted start most s l) (hmost : most ≤ batchMaxRows) (hbatch : s.writer.batch = [])
    (next : AfterFlush) : Accounted start 511 (s.flush next) l := by
  have horder := h.order
  rw [hbatch, List.append_nil] at horder
  unfold QueryDbLogger.flush
  split
  next hempty =>
    have hnil := List.isEmpty_iff.mp hempty
    refine { h with order := ?_, pending := ?_, batch := ?_ }
    · rw [batch_writer, List.append_nil]
      exact horder
    · rw [hnil]
      exact Nat.zero_le _
    · rw [batch_writer]
      exact Nat.zero_le _
  next =>
    refine { h with order := ?_, pending := Nat.zero_le _, batch := h.pending.trans hmost }
    rw [Writer.batch, List.append_nil]
    exact horder

theorem accounted_log (h : Accounted start most s l) (entry : QueryDbEntry) (enabled : Bool) :
    Accounted start most (s.log entry enabled) (l.record s (.log entry enabled)) := by
  simp only [QueryDbLogger.log, Ledger.record]
  split
  · exact h
  · split
    next hsends =>
      have hroom : s.channel.length < channelCapacity := by
        unfold QueryDbLogger.sends at hsends
        split at hsends
        · cases hsends
        · exact of_decide_eq_true hsends
      refine { h with order := ?_, queued := ?_ }
      · rw [List.map_append, List.map_append, h.order, List.append_assoc _ (s.channel.map _)]
      · rw [List.length_append]
        exact hroom
    next =>
      refine { h with dropped := ?_ }
      rw [h.dropped]
      exact (UInt64.ofNat_add l.refused 1).symm

theorem accounted_recv (h : Accounted start 511 s l) (hbatch : s.writer.batch = []) : Accounted start 511 s.recv l := by
  unfold QueryDbLogger.recv
  split
  next entry rest hchannel =>
    have hmoved : Accounted start 512 { s with channel := rest, pending := s.pending ++ [entry.row] } l := by
      have horder := h.order
      have hqueued := h.queued
      rw [hchannel] at horder hqueued
      refine { h with order := ?_, queued := ?_, pending := ?_ }
      · rw [horder, ← List.append_assoc, List.append_assoc _ s.pending [entry.row]]
        simp
      · exact (Nat.le_succ _).trans hqueued
      · rw [List.length_append]
        exact Nat.succ_le_succ h.pending
    dsimp only
    split
    next => exact accounted_flush hmoved (Nat.le_refl _) hbatch .select
    next hfew => exact { hmoved with pending := Nat.le_of_lt_succ (Nat.lt_of_not_le hfew) }
  next =>
    split
    · exact h
    · exact accounted_flush h (by decide) hbatch .stop

theorem accounted_fewer (h : Accounted start most s l) {logs : QueryLogs} (hfewer : logs.Fewer s.logs) :
    Accounted start most { s with logs := logs } l :=
  { h with
    lastId := hfewer.lastId.trans h.lastId
    rows := fun row hrow => h.rows row (hfewer.rows row hrow) }

theorem written_append (l : Ledger) (batch : List QueryLogRow) (ok : Bool) :
    ({ l with finished := l.finished ++ [(batch, ok)] } : Ledger).written = l.written ++ if ok then batch else [] := by
  unfold Ledger.written
  rw [List.filter_append, List.flatMap_append]
  cases ok <;> simp

/-- A write has ended: the rows are there, or the batch is given up. -/
theorem accounted_inserted (h : Accounted start most s l) {batch : List QueryLogRow} {next : AfterFlush}
    (hwriter : s.writer = .inserting batch next) (ok : Bool) :
    Accounted start most
      { s with writer := next.writer, logs := if ok then s.logs.insertQueryLogs batch else s.logs }
      { l with finished := l.finished ++ [(batch, ok)] } := by
  have hbatch : s.writer.batch = batch := by rw [hwriter, Writer.batch]
  have hwritten := written_append l batch ok
  have hrows := h.rows
  refine { h with order := ?_, batch := ?_, finished := ?_, lastId := ?_, rows := ?_ }
  · rw [h.order, hbatch, batch_writer, List.append_nil, List.flatMap_append, List.flatMap_singleton]
  · rw [batch_writer]
    exact Nat.zero_le _
  · intro done hdone
    rcases List.mem_append.mp hdone with hold | hnew
    · exact h.finished done hold
    · rw [List.mem_singleton.mp hnew, ← hbatch]
      exact h.batch
  · rw [hwritten, List.length_append, ← Nat.add_assoc, ← h.lastId]
    cases ok
    · rfl
    · exact QueryLogs.lastId_insertQueryLogs batch
  · rw [hwritten]
    have hearlier : ∀ row ∈ s.logs.rows.rows, row ∈ start.rows.rows ∨ ∃ (i : Nat) (entry : QueryLogRow),
        (l.written ++ if ok then batch else [])[i]? = some entry ∧ row = entry.numbered start.lastId i := by
      intro row hrow
      obtain hstart | ⟨i, entry, hentry, heq⟩ := hrows row hrow
      · exact .inl hstart
      · exact .inr ⟨i, entry, by rw [List.getElem?_append_left (List.getElem?_eq_some_iff.mp hentry).1, hentry], heq⟩
    cases ok with
    | false => exact hearlier
    | true =>
      intro row hrow
      obtain hold | ⟨i, entry, hentry, heq⟩ := QueryLogs.mem_insertQueryLogs.mp hrow
      · exact hearlier row hold
      · refine .inr ⟨l.written.length + i, entry, ?_, ?_⟩
        · rw [if_pos rfl, List.getElem?_append_right (Nat.le_add_right _ _), Nat.add_sub_cancel_left]
          exact hentry
        · rw [heq, h.lastId, QueryLogRow.numbered, QueryLogRow.numbered, Nat.add_assoc start.lastId,
            Nat.add_comm l.written.length, ← Nat.add_assoc, Nat.add_assoc (start.lastId + 1)]

/-- The writer goes on to something that is no write. -/
theorem accounted_moved (h : Accounted start most s l) (hbatch : s.writer.batch = []) {writer : Writer}
    (hnext : writer.batch = []) (ticks : UInt32) :
    Accounted start most { s with writer := writer, ticksToAgeTrim := ticks } l := by
  have horder := h.order
  rw [hbatch] at horder
  refine { h with order := ?_, batch := ?_ }
  · rw [hnext]
    exact horder
  · rw [hnext]
    exact Nat.zero_le _

theorem accounted_resume (h : Accounted start most s l) (ok : Bool) (before : Text) :
    Accounted start most (s.resume ok before) (l.record s (.resume ok before)) := by
  cases hwriter : s.writer with
  | selecting => simpa only [QueryDbLogger.resume, Ledger.record, hwriter] using h
  | inserting batch next =>
    simp only [QueryDbLogger.resume, Ledger.record, hwriter]
    exact accounted_inserted h hwriter ok
  | loading =>
    have hbatch : s.writer.batch = [] := congrArg Writer.batch hwriter
    simp only [QueryDbLogger.resume, Ledger.record, hwriter]
    split
    · exact accounted_moved h hbatch rfl _
    · exact accounted_moved h hbatch rfl _
  | trimming maxRows days =>
    have hbatch : s.writer.batch = [] := congrArg Writer.batch hwriter
    simp only [QueryDbLogger.resume, Ledger.record, hwriter]
    cases ok with
    | false => exact accounted_moved h hbatch rfl _
    | true =>
      have hfewer := accounted_fewer h (QueryLogs.fewer_trim s.logs maxRows)
      have hnext : Writer.batch (.aging days) = [] := rfl
      have hmoved := accounted_moved hfewer hbatch hnext s.ticksToAgeTrim
      exact hmoved
  | aging days =>
    have hbatch : s.writer.batch = [] := congrArg Writer.batch hwriter
    simp only [QueryDbLogger.resume, Ledger.record, hwriter]
    split
    · exact accounted_moved h hbatch rfl _
    · split
      · exact accounted_moved h hbatch rfl _
      · exact accounted_moved h hbatch rfl _
  | deleting cutoff =>
    have hbatch : s.writer.batch = [] := congrArg Writer.batch hwriter
    simp only [QueryDbLogger.resume, Ledger.record, hwriter]
    cases ok with
    | false => exact accounted_moved h hbatch rfl _
    | true =>
      have hfewer := accounted_fewer h (QueryLogs.fewer_retain s.logs fun row => !decide (row.ts < cutoff))
      have hnext := accounted_moved hfewer hbatch (batch_writer .select) (ageTrimTicks - 1)
      exact hnext
  | stopped => simpa only [QueryDbLogger.resume, Ledger.record, hwriter] using h

theorem batch_of_selecting (h : s.selecting = true) : s.writer.batch = [] := by
  unfold QueryDbLogger.selecting at h
  split at h
  next hwriter => exact congrArg Writer.batch hwriter
  next => cases h

theorem accounted_step (event : LogEvent) (h : Accounted start 511 s l) :
    Accounted start 511 (s.step event) (l.record s event) := by
  cases event with
  | log entry enabled => exact accounted_log h entry enabled
  | reload settings => exact { h with }
  | clear => exact accounted_fewer h (QueryLogs.fewer_retain s.logs _)
  | dropHandles => exact { h with }
  | shutdown =>
    simp only [QueryDbLogger.step, Ledger.record]
    split
    next hselecting => exact accounted_flush h (by decide) (batch_of_selecting hselecting) .stop
    next => exact h
  | tick =>
    simp only [QueryDbLogger.step, Ledger.record]
    split
    next hselecting => exact accounted_flush h (by decide) (batch_of_selecting hselecting) .settings
    next => exact h
  | recv =>
    simp only [QueryDbLogger.step, Ledger.record]
    split
    next hselecting => exact accounted_recv h (batch_of_selecting hselecting)
    next => exact h
  | resume ok before => exact accounted_resume h ok before

end Steps

/-- Whatever is logged meanwhile and whichever writes fail: each entry that was queued is, in its order, in a batch whose
write has ended, with the writer, or in the channel, and the others are counted; a row of the table is one that was there
at the start or the entry that was written as its id says. -/
theorem entries_accounted (start : QueryLogs) (settings : LoggingSettings) (events : List LogEvent) :
    Accounted start 511 (run account (.spawn start settings, .empty) events).1
      (run account (.spawn start settings, .empty) events).2 :=
  run_invariant (fun p : QueryDbLogger × Ledger => Accounted start 511 p.1 p.2) (fun _ event h => accounted_step event h) events
    (accounted_spawn start settings)

/-! The newest rows are kept. -/

/-- A limit that leaves the newest `m` rows, and none by age. -/
def LoggingSettings.Keeps (m : Nat) (settings : LoggingSettings) : Prop :=
  (settings.queryDbMaxRows = 0 ∨ m ≤ QueryLogs.offset settings.queryDbMaxRows) ∧ settings.queryDbRetentionDays = 0

def LogEvent.Keeps (m : Nat) : LogEvent → Prop
  | .reload settings => settings.Keeps m
  | .clear => False
  | _ => True

/-- A limit that the writer has read. -/
def Writer.Keeps (m : Nat) : Writer → Prop
  | .trimming maxRows days => (maxRows = 0 ∨ m ≤ QueryLogs.offset maxRows) ∧ days = 0
  | .aging days => days = 0
  | .deleting _ => False
  | _ => True

/-- The newest `m` of the entries that were written are in the table. -/
structure NewestKept (start : QueryLogs) (m : Nat) (s : QueryDbLogger) (l : Ledger) : Prop where
  settings : s.settings.Keeps m
  writer : s.writer.Keeps m
  lastId : s.logs.lastId = start.lastId + l.written.length
  newest : ∀ i entry, l.written[i]? = some entry → l.written.length ≤ i + m →
    entry.numbered start.lastId i ∈ s.logs.rows.rows

section Newest

variable {start : QueryLogs} {m : Nat} {s : QueryDbLogger} {l : Ledger}

/-- There are at most as many newer rows as newer ids. -/
theorem id_add_le {rows : List QueryLogRow} {lastId k : Nat} {row : QueryLogRow}
    (hsorted : rows.Pairwise fun newer older => older.id < newer.id) (hbounded : ∀ row ∈ rows, row.id ≤ lastId)
    (h : rows[k]? = some row) : row.id + k ≤ lastId := by
  induction k generalizing rows lastId row with
  | zero => exact hbounded row (List.mem_of_getElem? h)
  | succ k ih =>
    cases rows with
    | nil => cases h
    | cons first rest =>
      obtain ⟨hfirst, hrest⟩ := List.pairwise_cons.mp hsorted
      have hlast := hbounded first List.mem_cons_self
      have hbelow : ∀ row ∈ rest, row.id ≤ lastId - 1 := by
        intro other hother
        have hlt := hfirst other hother
        omega
      have hmem : row ∈ rest := List.mem_of_getElem? h
      have hlt := hfirst row hmem
      have hle := ih hrest hbelow h
      omega

theorem mem_trimQueryLogs {logs : QueryLogs} {max : UInt64} {row : QueryLogRow} (hrow : row ∈ logs.rows.rows)
    (hmax : max = 0 ∨ logs.lastId < row.id + QueryLogs.offset max) : row ∈ (logs.trimQueryLogs max).rows.rows := by
  unfold QueryLogs.trimQueryLogs
  split
  · exact hrow
  next hne =>
    split
    next cutoff hcutoff =>
      have hle := id_add_le (List.pairwise_reverse.mpr logs.rows.sorted)
        (fun other hother => logs.bounded other (List.mem_reverse.mp hother)) hcutoff
      have hnewer := hmax.resolve_left hne
      exact List.mem_filter.mpr ⟨hrow, decide_eq_true (by omega)⟩
    next => exact hrow

theorem keeps_writer (next : AfterFlush) : next.writer.Keeps m := by
  cases next <;> trivial

theorem newest_flush (h : NewestKept start m s l) (next : AfterFlush) : NewestKept start m (s.flush next) l := by
  unfold QueryDbLogger.flush
  split
  · exact { h with writer := keeps_writer next }
  · exact { h with writer := trivial }

theorem newest_recv (h : NewestKept start m s l) : NewestKept start m s.recv l := by
  unfold QueryDbLogger.recv
  split
  next entry rest hchannel =>
    have hmoved : NewestKept start m { s with channel := rest, pending := s.pending ++ [entry.row] } l := { h with }
    dsimp only
    split
    · exact newest_flush hmoved .select
    · exact hmoved
  next =>
    split
    · exact h
    · exact newest_flush h .stop

theorem newest_inserted (h : NewestKept start m s l) (batch : List QueryLogRow) (next : AfterFlush) (ok : Bool) :
    NewestKept start m
      { s with writer := next.writer, logs := if ok then s.logs.insertQueryLogs batch else s.logs }
      { l with finished := l.finished ++ [(batch, ok)] } := by
  have hwritten := written_append l batch ok
  cases ok with
  | false =>
    rw [if_neg Bool.false_ne_true, List.append_nil] at hwritten
    refine { h with writer := keeps_writer next, lastId := ?_, newest := ?_ }
    · rw [hwritten]
      exact h.lastId
    · rw [hwritten]
      exact h.newest
  | true =>
    rw [if_pos rfl] at hwritten
    refine { h with writer := keeps_writer next, lastId := ?_, newest := ?_ }
    · rw [hwritten, List.length_append, ← Nat.add_assoc, ← h.lastId]
      exact QueryLogs.lastId_insertQueryLogs batch
    · rw [hwritten]
      intro i entry hentry hnew
      apply QueryLogs.mem_insertQueryLogs.mpr
      rw [List.length_append] at hnew
      by_cases hold : i < l.written.length
      · rw [List.getElem?_append_left hold] at hentry
        exact .inl (h.newest i entry hentry (by omega))
      · rw [List.getElem?_append_right (Nat.le_of_not_lt hold)] at hentry
        refine .inr ⟨i - l.written.length, entry, hentry, ?_⟩
        rw [h.lastId, QueryLogRow.numbered, QueryLogRow.numbered]
        congr 1
        omega

theorem newest_trimmed (h : NewestKept start m s l) {maxRows : UInt64} {days : UInt32}
    (hwriter : s.writer = .trimming maxRows days) (ok : Bool) :
    NewestKept start m
      { s with writer := .aging days, logs := if ok then s.logs.trimQueryLogs maxRows else s.logs } l := by
  have hread := h.writer
  rw [hwriter] at hread
  obtain ⟨hmax, hdays⟩ := hread
  cases ok with
  | false => exact { h with writer := hdays }
  | true =>
    refine { h with writer := hdays, lastId := (QueryLogs.fewer_trim s.logs maxRows).lastId.trans h.lastId, newest := ?_ }
    intro i entry hentry hnew
    refine mem_trimQueryLogs (h.newest i entry hentry hnew) (hmax.imp_right fun hroom => ?_)
    have hlast := h.lastId
    have hid : (entry.numbered start.lastId i).id = start.lastId + 1 + i := rfl
    omega

theorem newest_resume (h : NewestKept start m s l) (ok : Bool) (before : Text) :
    NewestKept start m (s.resume ok before) (l.record s (.resume ok before)) := by
  have hread := h.writer
  cases hwriter : s.writer with
  | inserting batch next =>
    simp only [QueryDbLogger.resume, Ledger.record, hwriter]
    exact newest_inserted h batch next ok
  | loading =>
    simp only [QueryDbLogger.resume, Ledger.record, hwriter]
    split
    · exact { h with writer := h.settings.2 }
    · exact { h with writer := h.settings }
  | trimming maxRows days =>
    simp only [QueryDbLogger.resume, Ledger.record, hwriter]
    exact newest_trimmed h hwriter ok
  | aging days =>
    rw [hwriter] at hread
    have hdays : days = 0 := hread
    simp only [QueryDbLogger.resume, Ledger.record, hwriter, if_pos hdays]
    split
    · exact { h with writer := trivial }
    · exact { h with writer := trivial }
  | deleting cutoff =>
    rw [hwriter] at hread
    exact hread.elim
  | selecting => simpa only [QueryDbLogger.resume, Ledger.record, hwriter] using h
  | stopped => simpa only [QueryDbLogger.resume, Ledger.record, hwriter] using h

theorem newest_step (event : LogEvent) (h : NewestKept start m s l) (hkeeps : event.Keeps m) :
    NewestKept start m (s.step event) (l.record s event) := by
  cases event with
  | log entry enabled =>
    simp only [QueryDbLogger.step, QueryDbLogger.log, Ledger.record]
    split
    · exact h
    · split
      · exact { h with }
      · exact { h with }
  | reload settings => exact { h with settings := hkeeps }
  | clear => exact hkeeps.elim
  | dropHandles => exact { h with }
  | shutdown =>
    simp only [QueryDbLogger.step, Ledger.record]
    split
    · exact newest_flush h .stop
    · exact h
  | tick =>
    simp only [QueryDbLogger.step, Ledger.record]
    split
    · exact newest_flush h .settings
    · exact h
  | recv =>
    simp only [QueryDbLogger.step, Ledger.record]
    split
    · exact newest_recv h
    · exact h
  | resume ok before => exact newest_resume h ok before

end Newest

theorem newest_spawn (start : QueryLogs) {m : Nat} {settings : LoggingSettings} (h : settings.Keeps m) :
    NewestKept start m (.spawn start settings) .empty where
  settings := h
  writer := trivial
  lastId := rfl
  newest _ _ hentry := nomatch hentry

/-- So long as the settings allow `m` rows of any age and nobody clears the log, the newest `m` of the entries that were
written are in the table, each at its id. -/
theorem newest_rows_kept (start : QueryLogs) (m : Nat) (settings : LoggingSettings) (hsettings : settings.Keeps m)
    (events : List LogEvent) (hevents : ∀ event ∈ events, event.Keeps m) (i : Nat) (entry : QueryLogRow)
    (hentry : (run account (.spawn start settings, .empty) events).2.written[i]? = some entry)
    (hnew : (run account (.spawn start settings, .empty) events).2.written.length ≤ i + m) :
    entry.numbered start.lastId i ∈ (run account (.spawn start settings, .empty) events).1.logs.rows.rows := by
  have hkept : NewestKept start m (run account (.spawn start settings, .empty) events).1
      (run account (.spawn start settings, .empty) events).2 :=
    run_invariant_of_forall (fun p : QueryDbLogger × Ledger => NewestKept start m p.1 p.2)
      (fun _ event h hkeeps => newest_step event h hkeeps) events hevents (newest_spawn start hsettings)
  exact hkept.newest i entry hentry hnew

def QueryLogs.empty : QueryLogs := ⟨.empty, 0, nofun⟩

def exampleEntry : QueryDbEntry where
  ts := "2024-05-01T12:00:00+00:00"
  client := "192.0.2.7"
  qname := "example.com."
  qtype := "A"
  protocol := "udp"
  outcome := "recursive"
  rcode := some "NOERROR"
  elapsedMs := 12
  block := none
  account := none

def secondEntry : QueryDbEntry := { exampleEntry with qname := "example.net." }

def thirdEntry : QueryDbEntry := { exampleEntry with qname := "example.org." }

/-- Three queries, logged and written, and the turn of the loop that trims the table. -/
def exampleEvents : List LogEvent :=
  [.log exampleEntry true, .log secondEntry true, .log thirdEntry true, .recv, .recv, .recv, .tick,
    .resume true [], .resume true [], .resume true [], .resume true []]

/-- Two rows are allowed, so the trim takes the first of the three. -/
theorem newest_rows_kept_two :
    (run account (.spawn .empty ⟨2, 0⟩, .empty) exampleEvents).1.logs.rows.rows.length = 2 ∧
      secondEntry.row.numbered 0 1 ∈ (run account (.spawn .empty ⟨2, 0⟩, .empty) exampleEvents).1.logs.rows.rows ∧
      thirdEntry.row.numbered 0 2 ∈ (run account (.spawn .empty ⟨2, 0⟩, .empty) exampleEvents).1.logs.rows.rows := by
  have hsettings : LoggingSettings.Keeps 2 ⟨2, 0⟩ := ⟨.inr (by decide), rfl⟩
  have hevents : ∀ event ∈ exampleEvents, event.Keeps 2 := by simp [exampleEvents, LogEvent.Keeps]
  refine ⟨by decide, ?_, ?_⟩
  · exact newest_rows_kept .empty 2 ⟨2, 0⟩ hsettings exampleEvents hevents 1 secondEntry.row rfl (by decide)
  · exact newest_rows_kept .empty 2 ⟨2, 0⟩ hsettings exampleEvents hevents 2 thirdEntry.row rfl (by decide)

end DaygleDns.Dispatch.QueryDb
