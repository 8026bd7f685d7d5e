import DaygleDns.Policy.Groups
import DaygleDns.TextFacts

/-! Whom a compiled group covers and when. The entries and windows that cannot be read
are dropped, and a list of which nothing is left covers everybody, always. -/
namespace DaygleDns.Policy

open Text

namespace CompiledWindow

theorem parseDays_lt (days : List Text) {start mask : Nat} (hstart : start < 2 ^ 7)
    (h : (days.foldlM (fun mask day => match dayIndex day with
      | some index => .ok (mask ||| 1 <<< index)
      | none => .error ('\x27' :: day ++ "\x27 is not a day of the week".toList)) start :
        Except Text Nat) = .ok mask) : mask < 2 ^ 7 := by
  induction days generalizing start with
  | nil =>
    cases h
    exact hstart
  | cons day days ih =>
    rw [List.foldlM_cons] at h
    cases hday : dayIndex day with
    | none =>
      rw [hday] at h
      cases h
    | some index =>
      rw [hday] at h
      have hindex : index < 7 := (List.findIdx?_eq_some_iff_findIdx_eq.mp hday).1
      have hbit : 1 <<< index < 2 ^ 7 := by
        rw [Nat.one_shiftLeft]
        exact Nat.pow_lt_pow_right (by decide) hindex
      exact ih (Nat.or_lt_two_pow hstart hbit) h

/-- A window that was read starts on some day. -/
theorem exists_startsOn {window : ScheduleWindow} {compiled : CompiledWindow} (h : parse window = .ok compiled) :
    ∃ day, compiled.startsOn day = true := by
  unfold parse at h
  cases hdays : parseDays window.days with
  | error e =>
    rw [hdays] at h
    cases h
  | ok mask =>
    rw [hdays] at h
    cases hstart : parseTime window.start with
    | error e =>
      rw [hstart] at h
      cases h
    | ok start =>
      rw [hstart] at h
      cases hstop : parseTime window.stop with
      | error e =>
        rw [hstop] at h
        cases h
      | ok stop =>
        rw [hstop] at h
        cases h
        have hmask := parseDays_lt window.days (by decide) hdays
        by_cases hzero : mask = 0
        · exact ⟨0, by simp [startsOn, hzero]⟩
        · obtain ⟨day, hday⟩ := Nat.exists_testBit_of_ne_zero hzero
          have hlt : day < 7 := by
            by_contra hge
            rw [Nat.testBit_lt_two_pow (lt_of_lt_of_le hmask (Nat.pow_le_pow_right (by decide) (not_lt.mp hge)))] at hday
            cases hday
          refine ⟨day, ?_⟩
          simp only [startsOn, if_neg hzero, Nat.mod_eq_of_lt hlt]
          exact hday

/-- A window holds the moment at which it starts. -/
theorem contains_start {compiled : CompiledWindow} {day : Nat} (h : compiled.startsOn day = true) :
    compiled.contains ⟨day, compiled.start⟩ = true := by
  unfold contains
  split
  · exact h
  · split
    next hlt => simp [h, hlt]
    next => simp [h]

end CompiledWindow

variable (libs : Libraries)

/-- The entry covers the asker: a network with the address, the keyword of the
listener, or the account. -/
def Covers (entry : Text) (asker : Asker) : Prop :=
  (∃ net, parseNetwork libs entry = some net ∧ net.contains asker.client = true) ∨
    (∃ listener, asker.listener = some listener ∧ toAsciiLowercase (trim entry) = listener.keyword) ∨
    ∃ name account, accountEntry entry = some name ∧ asker.account = some account ∧
      libs.toLowercase account = libs.toLowercase name

/-- An entry of one of the three kinds. -/
def Readable (entry : Text) : Prop :=
  (parseNetwork libs entry).isSome ∨ isListenerKeyword entry = true ∨ (accountEntry entry).isSome

/-- `now` is inside the window. -/
def Inside (window : ScheduleWindow) (now : WeekTime) : Prop :=
  ∃ compiled, CompiledWindow.parse window = .ok compiled ∧ compiled.contains now = true

/-- The group applies to nobody that its client list does not cover, and is active
only inside its windows. -/
structure StaysWithin (g : BlockingGroup) : Prop where
  clients : g.clients ≠ [] → ∀ asker now, (compileGroup libs g).applies libs asker now = true →
    ∃ entry ∈ g.clients, Covers libs entry asker
  schedule : g.schedule ≠ [] → ∀ now, scheduleActive (compileGroup libs g).schedule now = true →
    ∃ window ∈ g.schedule, Inside window now

theorem Covers.readable {entry : Text} {asker : Asker} (h : Covers libs entry asker) : Readable libs entry := by
  rcases h with ⟨net, hnet, _⟩ | ⟨listener, _, hkeyword⟩ | ⟨name, account, hname, _⟩
  · exact .inl (Option.isSome_of_mem hnet)
  · refine .inr (.inl (List.any_eq_true.mpr ⟨listener, ?_, ?_⟩))
    · cases listener <;> decide
    · exact beq_iff_eq.mpr hkeyword.symm
  · exact .inr (.inr (Option.isSome_of_mem hname))

theorem keyword_lower (listener : Listener) : toAsciiLowercase listener.keyword = listener.keyword := by
  cases listener <;> decide

/-- The listener that an entry names. -/
theorem mem_networklessListeners {entries : List Text} {listener : Listener} :
    listener ∈ networklessListeners entries → ∃ entry ∈ entries, toAsciiLowercase (trim entry) = listener.keyword := by
  intro h
  obtain ⟨entry, hentry, hfound⟩ := List.mem_filterMap.mp h
  have hsame := List.find?_some hfound
  rw [eqIgnoreAsciiCase, beq_iff_eq, keyword_lower, toAsciiLowercase_idem] at hsame
  exact ⟨entry, hentry, hsame⟩

theorem networklessListeners_ne_nil {entries : List Text} {entry : Text} (hmem : entry ∈ entries)
    (h : isListenerKeyword entry = true) : networklessListeners entries ≠ [] := by
  obtain ⟨listener, hlistener, hsame⟩ := List.any_eq_true.mp h
  have hfound : (listenerKeywords.find? fun k =>
      eqIgnoreAsciiCase (toAsciiLowercase (trim entry)) k.keyword).isSome := by
    refine List.find?_isSome.mpr ⟨listener, hlistener, ?_⟩
    rw [eqIgnoreAsciiCase, beq_iff_eq, keyword_lower, toAsciiLowercase_idem]
    exact (beq_iff_eq.mp hsame).symm
  obtain ⟨found, hfound⟩ := Option.isSome_iff_exists.mp hfound
  exact List.ne_nil_of_mem (List.mem_filterMap.mpr ⟨entry, hmem, hfound⟩)

section Compiled

variable {libs} {g : BlockingGroup}

/-- What is compiled of an entry that can be read: it is not lost. -/
theorem compiled_of_readable {entry : Text} (hmem : entry ∈ g.clients) (h : Readable libs entry) :
    (compileGroup libs g).clients ≠ [] ∨ (compileGroup libs g).listeners ≠ [] ∨
      (compileGroup libs g).accounts ≠ [] := by
  cases haccount : accountEntry entry with
  | some name =>
    refine .inr (.inr (List.ne_nil_of_mem (List.mem_map.mpr ⟨name, ?_, rfl⟩)))
    exact List.mem_filterMap.mpr ⟨entry, hmem, haccount⟩
  | none =>
    have hother : entry ∈ g.clients.filter fun c => (accountEntry c).isNone :=
      List.mem_filter.mpr ⟨hmem, by rw [haccount]; rfl⟩
    cases hkeyword : isListenerKeyword entry with
    | true =>
      exact .inr (.inl (networklessListeners_ne_nil (List.mem_filter.mpr ⟨hother, hkeyword⟩) hkeyword))
    | false =>
      have hnet : (parseNetwork libs entry).isSome := by
        rcases h with h | h | h
        · exact h
        · rw [hkeyword] at h
          cases h
        · rw [haccount] at h
          cases h
      obtain ⟨net, hnet⟩ := Option.isSome_iff_exists.mp hnet
      refine .inl (List.ne_nil_of_mem (List.mem_filterMap.mpr ⟨entry, ?_, hnet⟩))
      exact List.mem_filter.mpr ⟨hother, by rw [hkeyword]; rfl⟩

/-- Only entries that can be read are compiled. -/
theorem compiled_nil_of_unreadable (h : ∀ entry ∈ g.clients, ¬ Readable libs entry) :
    (compileGroup libs g).clients = [] ∧ (compileGroup libs g).listeners = [] ∧
      (compileGroup libs g).accounts = [] := by
  refine ⟨List.eq_nil_iff_forall_not_mem.mpr fun net hnet => ?_,
    List.eq_nil_iff_forall_not_mem.mpr fun listener hlistener => ?_,
    List.eq_nil_iff_forall_not_mem.mpr fun account haccount => ?_⟩
  · obtain ⟨entry, hentry, hparsed⟩ := List.mem_filterMap.mp hnet
    have hmem := List.mem_of_mem_filter (List.mem_of_mem_filter hentry)
    exact h entry hmem (.inl (Option.isSome_of_mem hparsed))
  · obtain ⟨entry, hentry, _⟩ := mem_networklessListeners hlistener
    have hmem := List.mem_of_mem_filter (List.mem_of_mem_filter hentry)
    exact h entry hmem (.inr (.inl (List.mem_filter.mp hentry).2))
  · obtain ⟨name, hname, _⟩ := List.mem_map.mp haccount
    obtain ⟨entry, hentry, hparsed⟩ := List.mem_filterMap.mp hname
    exact h entry hentry (.inr (.inr (Option.isSome_of_mem hparsed)))

/-- A client that matches a list of which something is left is covered by an entry. -/
theorem covers_of_matches {asker : Asker}
    (hsome : (compileGroup libs g).clients ≠ [] ∨ (compileGroup libs g).listeners ≠ [] ∨
      (compileGroup libs g).accounts ≠ [])
    (h : (compileGroup libs g).matchesClient libs asker = true) : ∃ entry ∈ g.clients, Covers libs entry asker := by
  unfold CompiledGroup.matchesClient at h
  have hrestricted : ((compileGroup libs g).clients.isEmpty && (compileGroup libs g).listeners.isEmpty &&
      (compileGroup libs g).accounts.isEmpty) = false := by
    rcases hsome with hne | hne | hne
    · simp [List.isEmpty_eq_false_iff.mpr hne]
    · simp [List.isEmpty_eq_false_iff.mpr hne]
    · simp [List.isEmpty_eq_false_iff.mpr hne]
  rw [hrestricted, if_neg Bool.false_ne_true, Bool.or_eq_true, Bool.or_eq_true] at h
  rcases h with (h | h) | h
  · obtain ⟨net, hnet, hcontains⟩ := List.any_eq_true.mp h
    obtain ⟨entry, hentry, hparsed⟩ := List.mem_filterMap.mp hnet
    exact ⟨entry, List.mem_of_mem_filter (List.mem_of_mem_filter hentry), .inl ⟨net, hparsed, hcontains⟩⟩
  · obtain ⟨listener, hlistener, hmem⟩ := (Option.any_eq_true _ _).mp h
    obtain ⟨entry, hentry, hsame⟩ := mem_networklessListeners (List.contains_iff_mem.mp hmem)
    exact ⟨entry, List.mem_of_mem_filter (List.mem_of_mem_filter hentry), .inr (.inl ⟨listener, hlistener, hsame⟩)⟩
  · obtain ⟨account, haccount, hmem⟩ := (Option.any_eq_true _ _).mp (Bool.and_eq_true_iff.mp h).2
    obtain ⟨name, hname, hlower⟩ := List.mem_map.mp (List.contains_iff_mem.mp hmem)
    obtain ⟨entry, hentry, hparsed⟩ := List.mem_filterMap.mp hname
    exact ⟨entry, hentry, .inr (.inr ⟨name, account, hparsed, haccount, hlower.symm⟩)⟩

theorem mem_schedule {compiled : CompiledWindow} :
    compiled ∈ (compileGroup libs g).schedule ↔ ∃ window ∈ g.schedule, CompiledWindow.parse window = .ok compiled := by
  have htoOption (window : ScheduleWindow) : (CompiledWindow.parse window).toOption = some compiled ↔
      CompiledWindow.parse window = .ok compiled := by
    cases CompiledWindow.parse window <;> simp [Except.toOption]
  simp [compileGroup, List.mem_filterMap, htoOption]

variable (libs g) in
/-- Some moment is inside the schedule, or nothing is left of it. -/
theorem exists_active : ∃ now, scheduleActive (compileGroup libs g).schedule now = true := by
  cases hschedule : (compileGroup libs g).schedule with
  | nil => exact ⟨⟨0, 0⟩, rfl⟩
  | cons compiled rest =>
    have hmem : compiled ∈ (compileGroup libs g).schedule := hschedule ▸ List.mem_cons_self
    obtain ⟨window, _, hparse⟩ := mem_schedule.mp hmem
    obtain ⟨day, hday⟩ := CompiledWindow.exists_startsOn hparse
    exact ⟨⟨day, compiled.start⟩, by simp [scheduleActive, CompiledWindow.contains_start hday]⟩

end Compiled

/-- A group stays within its client list and its schedule exactly when one entry of
the list and one window of the schedule can be read, where there are any. -/
theorem group_stays_within (g : BlockingGroup) :
    StaysWithin libs g ↔
      (g.clients = [] ∨ ∃ entry ∈ g.clients, Readable libs entry) ∧
        (g.schedule = [] ∨ ∃ window ∈ g.schedule, ∃ compiled, CompiledWindow.parse window = .ok compiled) := by
  constructor
  · intro h
    constructor
    · by_contra hnot
      obtain ⟨hclients, hunreadable⟩ := not_or.mp hnot
      have hall : ∀ entry ∈ g.clients, ¬ Readable libs entry := fun entry hentry hreadable =>
        hunreadable ⟨entry, hentry, hreadable⟩
      have hnil := compiled_nil_of_unreadable hall
      obtain ⟨now, hnow⟩ := exists_active libs g
      have happlies : (compileGroup libs g).applies libs ⟨.v4 0, none, none⟩ now = true := by
        simp [CompiledGroup.applies, CompiledGroup.matchesClient, hnil.1, hnil.2.1, hnil.2.2, hnow]
      obtain ⟨entry, hentry, hcovers⟩ := h.clients hclients _ now happlies
      exact hall entry hentry hcovers.readable
    · by_contra hnot
      obtain ⟨hschedule, hunreadable⟩ := not_or.mp hnot
      obtain ⟨now, hnow⟩ := exists_active libs g
      obtain ⟨window, hwindow, compiled, hparse, _⟩ := h.schedule hschedule now hnow
      exact hunreadable ⟨window, hwindow, compiled, hparse⟩
  · intro ⟨hclients, hschedule⟩
    constructor
    · intro hne asker now happlies
      obtain ⟨entry, hentry, hreadable⟩ := hclients.resolve_left hne
      exact covers_of_matches (compiled_of_readable hentry hreadable) (Bool.and_eq_true_iff.mp happlies).1
    · intro hne now hactive
      obtain ⟨window, hwindow, compiled, hparse⟩ := hschedule.resolve_left hne
      have hmem : compiled ∈ (compileGroup libs g).schedule := mem_schedule.mpr ⟨window, hwindow, hparse⟩
      unfold scheduleActive at hactive
      rw [List.isEmpty_eq_false_iff.mpr (List.ne_nil_of_mem hmem), Bool.false_or] at hactive
      obtain ⟨active, hin, hcontains⟩ := List.any_eq_true.mp hactive
      obtain ⟨other, hother, hread⟩ := mem_schedule.mp hin
      exact ⟨other, hother, active, hread, hcontains⟩

/-- Parsers that read nothing besides addresses, and no tables. -/
def bareLibraries : Libraries where
  services := []
  securityCategories := []
  parseIpNet := fun _ => none
  hostAscii := fun _ => none
  regexCompiles := fun _ => false
  regexSet := fun patterns => ⟨patterns, fun _ => []⟩
  toLowercase := toAsciiLowercase

/-- A group for the clients of a network that is no longer configured, at night. -/
def orphanGroup : BlockingGroup where
  name := "Kids".toList
  enabled := true
  clients := ["kids-lan".toList]
  allow := []
  block := ["games.test".toList]
  allowRegex := []
  blockRegex := []
  blocklists := []
  response := .nxDomain
  schedule := [⟨["holidays".toList], "20:00".toList, "07:00".toList⟩]
  blockedServices := []
  blockedSecurity := []
  blockedTlds := []
  blockLocalAddresses := false
  limitPayloads := false

/-- It blocks everybody, at any time. -/
theorem orphan_group_grows : ¬ StaysWithin bareLibraries orphanGroup := by
  intro h
  obtain ⟨entry, hentry, hcovers⟩ := h.clients (by decide) ⟨.v4 0xCB007109, none, none⟩ ⟨2, 720⟩ (by decide)
  have hreadable := hcovers.readable
  rw [List.mem_singleton.mp hentry] at hreadable
  revert hreadable
  unfold Readable
  decide

end DaygleDns.Policy
