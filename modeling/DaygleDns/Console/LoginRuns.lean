import DaygleDns.Console.LoginThrottle
import DaygleDns.Runs
import DaygleDns.Tallies

/-! How many passwords of an address are checked in a window of the throttle, over every order of the
steps of the requests. -/
namespace DaygleDns.Console

open Runs

namespace LoginGate

variable (ip : IpAddr)

/-- How many passwords of the address were checked in the window. -/
def checksIn (gate : LoginGate) (since : Nat) : Nat := gate.attempts.countP (PasswordAttempt.ranOf ip since)

/-- With the attempt whose failure opened the window, no more than the failures it takes and the other
permits. -/
def Bounded (gate : LoginGate) : Prop :=
  ∀ since, gate.checksIn ip since + 1 ≤ LoginThrottle.maxFailures + (passwordWork - 1)

/-- An attempt of the address has its login. -/
def signsIn (gate : LoginGate) : LoginGateEvent → Bool
  | .moves id .clears => gate.attempts[id]?.any fun attempt => attempt.clientIp = some ip && attempt.stage = .accepted
  | _ => false

/-- There is room in the throttle, and no attempt of the address signs in. -/
def Allowed (gate : LoginGate) (event : LoginGateEvent) : Prop :=
  gate.failures.size < LoginThrottle.maxTracked ∧ gate.signsIn ip event = false

instance (gate : LoginGate) (event : LoginGateEvent) : Decidable (gate.Allowed ip event) :=
  inferInstanceAs (Decidable (_ ∧ _))

/-- Where a password is to be checked, every earlier one of the window holds its permit still or is counted. -/
def Counts (gate : LoginGate) : LoginGateEvent → Prop
  | .moves id .looksAgain =>
      ∀ attempt ∈ gate.attempts[id]?, attempt.clientIp = some ip → gate.nextStage attempt .looksAgain = some .cleared →
        ∀ since ∈ gate.currentWindow (some ip), ∀ other ∈ gate.attempts, other.uncountedOf ip since = false
  | _ => True

instance (gate : LoginGate) : ∀ event, Decidable (gate.Counts ip event)
  | .moves id move =>
      match move with
      | .looksAgain =>
          inferInstanceAs
            (Decidable (∀ attempt ∈ gate.attempts[id]?, _ → _ → ∀ since ∈ gate.currentWindow (some ip), _))
      | .looks _ | .takesPermit | .checks _ | .readsCode _ | .clears | .records | .dropsPermit => .isTrue trivial
  | .elapses _ | .arrives _ _ _ | .hashes | .hashed => .isTrue trivial

/-- What is kept of the state for an address. -/
structure Gated (gate : LoginGate) : Prop where
  permits : gate.permits + gate.hashing + gate.attempts.countP (fun attempt => attempt.stage.holdsPermit) = passwordWork
  ran : ∀ attempt ∈ gate.attempts, attempt.ranIn.isSome → attempt.stage.pastCheck = true
  began : ∀ count since, gate.failures.lookup ip = some (count, since) → since ≤ gate.now
  earlier : ∀ attempt ∈ gate.attempts, ∀ start, attempt.ranOf ip start = true →
    ∃ count since, gate.failures.lookup ip = some (count, since) ∧ start ≤ since
  counted : ∀ count since, gate.failures.lookup ip = some (count, since) →
    gate.attempts.countP (PasswordAttempt.recordedOf ip since) + 1 ≤ count
  lasting : ∀ count since, gate.failures.lookup ip = some (count, since) → gate.now - since < LoginThrottle.window →
    gate.checksIn ip since + gate.attempts.countP (PasswordAttempt.clearedOf ip) + 1 ≤
      LoginThrottle.maxFailures + (passwordWork - 1)
  bounded : gate.Bounded ip

variable {ip} {gate : LoginGate} {attempt : PasswordAttempt} {move : AttemptMove} {stage : AttemptStage}

theorem lookup_share {id : Nat} (hallowed : gate.Allowed ip (.moves id move)) (hattempt : gate.attempts[id]? = some attempt)
    (h : gate.Leads attempt.clientIp attempt.stage move stage) (hother : move = .records → attempt.clientIp ≠ some ip) :
    (gate.share attempt.clientIp move).failures.lookup ip = gate.failures.lookup ip := by
  cases move with
  | records =>
    cases hclient : attempt.clientIp with
    | none => rfl
    | some other =>
      have hne : ip ≠ other := fun hsame => hother rfl (by rw [hclient, hsame])
      exact LoginThrottle.lookup_recordFailure_ne hallowed.1 hne
  | clears =>
    cases hclient : attempt.clientIp with
    | none => rfl
    | some other =>
      have hne : ip ≠ other := by
        rintro rfl
        have hstage : attempt.stage = .accepted := by
          generalize attempt.stage = old at h
          cases h
          rfl
        simpa [signsIn, hattempt, hclient, hstage] using hallowed.2
      exact AList.lookup_erase_ne hne
  | _ => rfl

/-- The permits are the bound of what is cleared, where no attempt of the window is uncounted. -/
theorem checksIn_add_cleared_le {since : Nat}
    (hpermits : gate.attempts.countP (fun attempt => attempt.stage.holdsPermit) ≤ passwordWork)
    (hran : ∀ attempt ∈ gate.attempts, attempt.ranIn.isSome → attempt.stage.pastCheck = true)
    (huncounted : ∀ attempt ∈ gate.attempts, attempt.uncountedOf ip since = false) :
    gate.checksIn ip since + gate.attempts.countP (PasswordAttempt.clearedOf ip) ≤
      gate.attempts.countP (PasswordAttempt.recordedOf ip since) + passwordWork := by
  have hle := countP_add_le fun (attempt : PasswordAttempt) (hattempt : attempt ∈ gate.attempts) =>
    attempt.ranOf_add_clearedOf_le ip since (hran attempt hattempt)
  have hnone : gate.attempts.countP (PasswordAttempt.uncountedOf ip since) = 0 :=
    List.countP_eq_zero.mpr fun attempt hattempt h => Bool.noConfusion ((huncounted attempt hattempt).symm.trans h)
  unfold checksIn
  omega

namespace Gated

/-- A step of an attempt, by the entry of the address that it leaves. -/
theorem put (h : gate.Gated ip) {id : Nat} {entry : PasswordAttempt} {after : LoginGate}
    (hattempt : gate.attempts[id]? = some attempt) (hattempts : after.attempts = gate.attempts.set id entry)
    (hpermits : after.permits + after.hashing + entry.stage.holdsPermit.toNat =
      gate.permits + gate.hashing + attempt.stage.holdsPermit.toNat)
    (hpast : entry.ranIn.isSome → entry.stage.pastCheck = true)
    (hran : ∀ since, entry.ranOf ip since = true →
      attempt.ranOf ip since = true ∨ gate.currentWindow (some ip) = some since)
    (hwindow : ∀ since, gate.currentWindow (some ip) = some since →
      after.checksIn ip since + 1 ≤ LoginThrottle.maxFailures + (passwordWork - 1))
    (hlater : ∀ old ∈ gate.failures.lookup ip,
      ∃ count since, after.failures.lookup ip = some (count, since) ∧ old.2 ≤ since)
    (hbegan : ∀ count since, after.failures.lookup ip = some (count, since) → since ≤ after.now)
    (hcounted : ∀ count since, after.failures.lookup ip = some (count, since) →
      after.attempts.countP (PasswordAttempt.recordedOf ip since) + 1 ≤ count)
    (hlasting : ∀ count since, after.failures.lookup ip = some (count, since) → after.now - since < LoginThrottle.window →
      after.checksIn ip since + after.attempts.countP (PasswordAttempt.clearedOf ip) + 1 ≤
        LoginThrottle.maxFailures + (passwordWork - 1)) : after.Gated ip := by
  have hcount := fun p : PasswordAttempt → Bool => countP_set_add p hattempt entry
  have hentries : ∀ other ∈ after.attempts, other ∈ gate.attempts ∨ other = entry := by
    intro other hother
    rw [hattempts] at hother
    exact List.mem_or_eq_of_mem_set hother
  constructor
  case permits =>
    have hsum := hcount fun attempt => attempt.stage.holdsPermit
    have hbefore := h.permits
    rw [hattempts]
    omega
  case ran =>
    intro other hother
    cases hentries other hother with
    | inl hold => exact h.ran other hold
    | inr hnew => exact hnew ▸ hpast
  case began => exact hbegan
  case earlier =>
    intro other hother start hstart
    have hbefore : ∃ count since, gate.failures.lookup ip = some (count, since) ∧ start ≤ since := by
      cases hentries other hother with
      | inl hold => exact h.earlier other hold start hstart
      | inr hnew =>
        subst hnew
        cases hran start hstart with
        | inl hbefore => exact h.earlier attempt (List.mem_of_getElem? hattempt) start hbefore
        | inr hcurrent =>
          obtain ⟨count, hentry, _⟩ := currentWindow_eq_some_iff.mp hcurrent
          exact ⟨count, start, hentry, Nat.le_refl _⟩
    obtain ⟨_, since, hentry, hle⟩ := hbefore
    obtain ⟨count, later, hlookup, hlate⟩ := hlater _ hentry
    exact ⟨count, later, hlookup, Nat.le_trans hle hlate⟩
  case counted => exact hcounted
  case lasting => exact hlasting
  case bounded =>
    intro since
    by_cases hcurrent : gate.currentWindow (some ip) = some since
    · exact hwindow since hcurrent
    · have hbefore := h.bounded since
      have hsum := hcount (PasswordAttempt.ranOf ip since)
      have hle : (entry.ranOf ip since).toNat ≤ (attempt.ranOf ip since).toNat :=
        Bool.toNat_le_toNat fun hentry => (hran since hentry).resolve_right hcurrent
      unfold checksIn at hbefore ⊢
      rw [hattempts]
      omega

/-- A step of an attempt that leaves the failures of the address as they are. -/
theorem replace (h : gate.Gated ip) {id : Nat} {entry : PasswordAttempt} {after : LoginGate}
    (hattempt : gate.attempts[id]? = some attempt) (hattempts : after.attempts = gate.attempts.set id entry)
    (hnow : after.now = gate.now) (hlookup : after.failures.lookup ip = gate.failures.lookup ip)
    (hpermits : after.permits + after.hashing + entry.stage.holdsPermit.toNat =
      gate.permits + gate.hashing + attempt.stage.holdsPermit.toNat)
    (hpast : entry.ranIn.isSome → entry.stage.pastCheck = true)
    (hran : ∀ since, entry.ranOf ip since = true →
      attempt.ranOf ip since = true ∨ gate.currentWindow (some ip) = some since)
    (hrecorded : ∀ since, entry.recordedOf ip since = true → attempt.recordedOf ip since = true)
    (hlasting : ∀ since, gate.currentWindow (some ip) = some since →
      after.checksIn ip since + after.attempts.countP (PasswordAttempt.clearedOf ip) + 1 ≤
        LoginThrottle.maxFailures + (passwordWork - 1)) : after.Gated ip := by
  apply h.put hattempt hattempts hpermits hpast hran
  case hwindow =>
    intro since hcurrent
    have hle := hlasting since hcurrent
    omega
  case hlater => exact fun old hold => ⟨old.1, old.2, hlookup.trans hold, Nat.le_refl _⟩
  case hbegan =>
    intro count since hentry
    rw [hnow]
    exact h.began count since (hlookup ▸ hentry)
  case hcounted =>
    intro count since hentry
    have hbefore := h.counted count since (hlookup ▸ hentry)
    have hsum := countP_set_add (PasswordAttempt.recordedOf ip since) hattempt entry
    have hle : (entry.recordedOf ip since).toNat ≤ (attempt.recordedOf ip since).toNat :=
      Bool.toNat_le_toNat (hrecorded since)
    rw [hattempts]
    omega
  case hlasting =>
    intro count since hentry hlive
    rw [hlookup] at hentry
    rw [hnow] at hlive
    exact hlasting since (currentWindow_eq_some_iff.mpr ⟨count, hentry, hlive⟩)

/-- No password was checked in a window that opens now. -/
theorem ranOf_now (h : gate.Gated ip) (hold : ∀ entry ∈ gate.failures.lookup ip, LoginThrottle.window ≤ gate.now - entry.2)
    {other : PasswordAttempt} (hother : other ∈ gate.attempts) : other.ranOf ip gate.now = false := by
  rw [← Bool.not_eq_true]
  intro hran
  obtain ⟨count, since, hentry, hle⟩ := h.earlier other hother gate.now hran
  have hlapsed : LoginThrottle.window ≤ gate.now - since := hold (count, since) hentry
  have hpos : 0 < LoginThrottle.window := by decide
  omega

theorem cleared_le (h : gate.Gated ip) : gate.attempts.countP (PasswordAttempt.clearedOf ip) ≤ passwordWork := by
  have hle : gate.attempts.countP (PasswordAttempt.clearedOf ip) ≤
      gate.attempts.countP fun attempt => attempt.stage.holdsPermit := by
    apply List.countP_mono_left
    intro attempt _ hcleared
    have hstage : attempt.stage = .cleared := of_decide_eq_true (Bool.and_eq_true_iff.mp hcleared).2
    rw [hstage]
    rfl
  have hpermits := h.permits
  omega

/-- The entry of the address where one of its attempts has its failure recorded. -/
theorem lookup_records (h : gate.Gated ip) (hsize : gate.failures.size < LoginThrottle.maxTracked)
    {attempts : List PasswordAttempt}
    (hrecorded : ∀ since, attempts.countP (PasswordAttempt.recordedOf ip since) ≤
      gate.attempts.countP (PasswordAttempt.recordedOf ip since) + 1)
    (hran : ∀ since, attempts.countP (PasswordAttempt.ranOf ip since) = gate.checksIn ip since) :
    ∃ count since, (gate.failures.recordFailure gate.now ip).lookup ip = some (count, since) ∧ since ≤ gate.now ∧
      (∀ earlier ∈ gate.failures.lookup ip, earlier.2 ≤ since) ∧
      attempts.countP (PasswordAttempt.recordedOf ip since) + 1 ≤ count ∧
      gate.checksIn ip since + gate.attempts.countP (PasswordAttempt.clearedOf ip) + 1 ≤
        LoginThrottle.maxFailures + (passwordWork - 1) := by
  by_cases hlive : ∃ entry ∈ gate.failures.lookup ip, gate.now - entry.2 < LoginThrottle.window
  · obtain ⟨⟨count, since⟩, hentry, hlive⟩ := hlive
    have hcounted := h.counted count since hentry
    have hmore := hrecorded since
    refine ⟨count + 1, since, LoginThrottle.lookup_recordFailure_counts hsize hentry hlive, h.began count since hentry,
      fun earlier hearlier => ?_, by omega, h.lasting count since hentry hlive⟩
    cases Option.some.inj (hentry.symm.trans hearlier)
    exact Nat.le_refl _
  · have hold : ∀ entry ∈ gate.failures.lookup ip, LoginThrottle.window ≤ gate.now - entry.2 := by
      intro entry hentry
      exact Nat.le_of_not_lt fun hlt => hlive ⟨entry, hentry, hlt⟩
    have hnone : gate.checksIn ip gate.now = 0 :=
      List.countP_eq_zero.mpr fun other hother hran => Bool.noConfusion ((h.ranOf_now hold hother).symm.trans hran)
    have hle : attempts.countP (PasswordAttempt.recordedOf ip gate.now) ≤ attempts.countP (PasswordAttempt.ranOf ip gate.now) :=
      List.countP_mono_left fun other _ hrecorded => (Bool.and_eq_true_iff.mp hrecorded).1
    rw [hran, hnone] at hle
    have hcleared := h.cleared_le
    refine ⟨1, gate.now, LoginThrottle.lookup_recordFailure_opens hsize hold, Nat.le_refl _, fun earlier hearlier =>
      h.began earlier.1 earlier.2 hearlier, by omega, ?_⟩
    rw [hnone, passwordWork, LoginThrottle.maxFailures]
    unfold passwordWork at hcleared
    omega

/-- A failure of the address is recorded. -/
theorem records (h : gate.Gated ip) {id : Nat} {entry : PasswordAttempt}
    (hattempt : gate.attempts[id]? = some attempt) (hsize : gate.failures.size < LoginThrottle.maxTracked)
    (hholds : entry.stage.holdsPermit = attempt.stage.holdsPermit) (hpast : entry.stage.pastCheck = true)
    (hran : ∀ since, entry.ranOf ip since = attempt.ranOf ip since) :
    ({ gate with failures := gate.failures.recordFailure gate.now ip, attempts := gate.attempts.set id entry } :
      LoginGate).Gated ip := by
  have hcount := fun p : PasswordAttempt → Bool => countP_set_add p hattempt entry
  have hchecks : ∀ since, (gate.attempts.set id entry).countP (PasswordAttempt.ranOf ip since) = gate.checksIn ip since := by
    intro since
    have hsum := hcount (PasswordAttempt.ranOf ip since)
    rw [hran since] at hsum
    exact Nat.add_right_cancel hsum
  have hcleared : (gate.attempts.set id entry).countP (PasswordAttempt.clearedOf ip) ≤
      gate.attempts.countP (PasswordAttempt.clearedOf ip) := by
    have hsum := hcount (PasswordAttempt.clearedOf ip)
    have hnot : entry.clearedOf ip = false := by
      cases hstage : entry.stage <;> simp_all [PasswordAttempt.clearedOf, AttemptStage.pastCheck]
    rw [hnot] at hsum
    exact Nat.le.intro hsum
  have hrecorded : ∀ since, (gate.attempts.set id entry).countP (PasswordAttempt.recordedOf ip since) ≤
      gate.attempts.countP (PasswordAttempt.recordedOf ip since) + 1 := by
    intro since
    have hsum := hcount (PasswordAttempt.recordedOf ip since)
    have hone := Bool.toNat_le (entry.recordedOf ip since)
    omega
  obtain ⟨count, since, hentry, hbegan, hlater, hcounted, hlasting⟩ := h.lookup_records hsize hrecorded hchecks
  have honly : ∀ {count' since'}, (gate.failures.recordFailure gate.now ip).lookup ip = some (count', since') →
      count' = count ∧ since' = since := fun hother => by simpa using hother.symm.trans hentry
  have hafter : ({ gate with failures := gate.failures.recordFailure gate.now ip, attempts := gate.attempts.set id entry } :
      LoginGate).attempts = gate.attempts.set id entry := rfl
  apply h.put hattempt hafter
  case hpermits => rw [hholds]
  case hpast => exact fun _ => hpast
  case hran => exact fun start hstart => .inl (hran start ▸ hstart)
  case hwindow =>
    intro start _
    unfold checksIn
    rw [hafter, hchecks start]
    exact h.bounded start
  case hlater => exact fun old hold => ⟨count, since, hentry, hlater old hold⟩
  case hbegan =>
    intro count' since' hother
    obtain ⟨rfl, rfl⟩ := honly hother
    exact hbegan
  case hcounted =>
    intro count' since' hother
    obtain ⟨rfl, rfl⟩ := honly hother
    exact hcounted
  case hlasting =>
    intro count' since' hother _
    obtain ⟨rfl, rfl⟩ := honly hother
    unfold checksIn
    rw [hafter, hchecks since']
    omega

/-- Where an attempt is cleared for the check. -/
theorem lasting_of_cleared (h : gate.Gated ip) {id since : Nat} (hattempt : gate.attempts[id]? = some attempt)
    (hleads : gate.Leads attempt.clientIp attempt.stage .looksAgain .cleared) (hclient : attempt.clientIp = some ip)
    (hcurrent : gate.currentWindow (some ip) = some since)
    (hcounts : ∀ other ∈ gate.attempts, other.uncountedOf ip since = false) :
    (gate.moved id attempt .looksAgain .cleared).checksIn ip since +
        (gate.moved id attempt .looksAgain .cleared).attempts.countP (PasswordAttempt.clearedOf ip) + 1 ≤
      LoginThrottle.maxFailures + (passwordWork - 1) := by
  have hcount : ∀ p : PasswordAttempt → Bool,
      (gate.moved id attempt .looksAgain .cleared).attempts.countP p + (p attempt).toNat =
        gate.attempts.countP p + (p (gate.next attempt .looksAgain .cleared)).toNat := fun p => countP_set_add p hattempt _
  have hpast := pastCheck_next hleads (h.ran attempt (List.mem_of_getElem? hattempt))
  obtain ⟨count, hentry, hlive⟩ := currentWindow_eq_some_iff.mp hcurrent
  have hcounted := h.counted count since hentry
  have hopen : gate.throttled attempt.clientIp = none := by
    generalize attempt.stage = old at hleads
    cases hleads
    assumption
  rw [hclient] at hopen
  have hfew := count_lt_of_throttled hopen hentry hlive
  have hrecorded : (gate.moved id attempt .looksAgain .cleared).attempts.countP (PasswordAttempt.recordedOf ip since) ≤
      gate.attempts.countP (PasswordAttempt.recordedOf ip since) := by
    have hsum := hcount (PasswordAttempt.recordedOf ip since)
    have hnot : (gate.next attempt .looksAgain .cleared).recordedOf ip since = false := Bool.and_false _
    rw [hnot] at hsum
    exact Nat.le.intro hsum
  have hholds : (gate.moved id attempt .looksAgain .cleared).attempts.countP (fun other => other.stage.holdsPermit) ≤
      passwordWork := by
    have hsum := hcount fun other => other.stage.holdsPermit
    have hpermits := h.permits
    have hheld : attempt.stage.holdsPermit = true := by
      generalize attempt.stage = old at hleads
      cases hleads
      rfl
    have hone := Bool.toNat_le (gate.next attempt .looksAgain .cleared).stage.holdsPermit
    rw [hheld, Bool.toNat_true] at hsum
    omega
  have hentries : ∀ other ∈ (gate.moved id attempt .looksAgain .cleared).attempts,
      other ∈ gate.attempts ∨ other = gate.next attempt .looksAgain .cleared := fun _ => List.mem_or_eq_of_mem_set
  have hran : ∀ other ∈ (gate.moved id attempt .looksAgain .cleared).attempts,
      other.ranIn.isSome → other.stage.pastCheck = true := by
    intro other hother
    cases hentries other hother with
    | inl hold => exact h.ran other hold
    | inr hnew => exact hnew ▸ hpast
  have huncounted : ∀ other ∈ (gate.moved id attempt .looksAgain .cleared).attempts, other.uncountedOf ip since = false := by
    intro other hother
    cases hentries other hother with
    | inl hold => exact hcounts other hold
    | inr hnew => exact hnew ▸ Bool.and_false _
  have hle := checksIn_add_cleared_le hholds hran huncounted
  unfold passwordWork at hle ⊢
  omega

/-- A step of an attempt. -/
theorem moved (h : gate.Gated ip) {id : Nat} (hallowed : gate.Allowed ip (.moves id move))
    (hcounts : gate.Counts ip (.moves id move)) (hattempt : gate.attempts[id]? = some attempt)
    (hstage : gate.nextStage attempt move = some stage) : (gate.moved id attempt move stage).Gated ip := by
  have hleads := leads_of_nextStage hstage
  have hmem : attempt ∈ gate.attempts := List.mem_of_getElem? hattempt
  have hpast := pastCheck_next hleads (h.ran attempt hmem)
  by_cases hown : move = .records ∧ attempt.clientIp = some ip
  · obtain ⟨rfl, hclient⟩ := hown
    unfold LoginGate.moved
    rw [hclient]
    apply h.records hattempt hallowed.1
    · change stage.holdsPermit = attempt.stage.holdsPermit
      generalize attempt.stage = old at hleads
      cases hleads <;> rfl
    · change stage.pastCheck = true
      generalize attempt.stage = old at hleads
      cases hleads <;> rfl
    · exact fun _ => rfl
  · have hother : move = .records → attempt.clientIp ≠ some ip := fun hmove hclient => hown ⟨hmove, hclient⟩
    have hlookup := lookup_share hallowed hattempt hleads hother
    have hattempts : (gate.moved id attempt move stage).attempts = gate.attempts.set id (gate.next attempt move stage) := rfl
    apply h.replace hattempt hattempts now_share hlookup
    case hpermits =>
      have hpermits := permits_share hleads
      have hhashing : (gate.share attempt.clientIp move).hashing = gate.hashing := hashing_share
      change _ + _ + stage.holdsPermit.toNat = _
      unfold LoginGate.moved
      dsimp only
      omega
    case hpast => exact hpast
    case hran => exact fun _ => ranOf_next
    case hrecorded =>
      intro since hrecorded
      by_cases hmove : move = .records
      · have hclient := of_decide_eq_true (Bool.and_eq_true_iff.mp (Bool.and_eq_true_iff.mp hrecorded).1).1
        exact absurd hclient (hother hmove)
      · exact recordedOf_next hleads hmove hrecorded
    case hlasting =>
      intro since hcurrent
      cases hcleared : (gate.next attempt move stage).clearedOf ip with
      | true =>
        have hboth := Bool.and_eq_true_iff.mp hcleared
        have hclient : attempt.clientIp = some ip := of_decide_eq_true hboth.1
        obtain rfl : stage = .cleared := of_decide_eq_true hboth.2
        have hmove : move = .looksAgain := by
          generalize attempt.stage = old at hleads
          cases hleads
          rfl
        subst hmove
        exact h.lasting_of_cleared hattempt hleads hclient hcurrent (hcounts attempt hattempt hclient hstage since hcurrent)
      | false =>
        obtain ⟨count, hentry, hlive⟩ := currentWindow_eq_some_iff.mp hcurrent
        have hbefore := h.lasting count since hentry hlive
        have hranSum := countP_set_add (PasswordAttempt.ranOf ip since) hattempt (gate.next attempt move stage)
        have hclearedSum := countP_set_add (PasswordAttempt.clearedOf ip) hattempt (gate.next attempt move stage)
        have hspent := spent_next_le since hleads hcleared
        unfold checksIn at hbefore ⊢
        rw [hattempts]
        omega

/-- A new attempt. -/
theorem arrives (h : gate.Gated ip) (path : PasswordPath) (clientIp : Option IpAddr) (tooLong : Bool) :
    (gate.step (.arrives path clientIp tooLong)).Gated ip := by
  have hcount : ∀ p : PasswordAttempt → Bool, p ⟨path, clientIp, tooLong, .arrived, none⟩ = false →
      (gate.step (.arrives path clientIp tooLong)).attempts.countP p = gate.attempts.countP p := by
    intro p hp
    change (gate.attempts ++ _).countP p = _
    rw [List.countP_append, List.countP_singleton, hp]
    rfl
  have hran : ∀ since, PasswordAttempt.ranOf ip since ⟨path, clientIp, tooLong, .arrived, none⟩ = false :=
    fun _ => Bool.and_false _
  have hmem : ∀ other ∈ (gate.step (.arrives path clientIp tooLong)).attempts,
      other ∈ gate.attempts ∨ other = ⟨path, clientIp, tooLong, .arrived, none⟩ := by
    intro other hother
    rwa [← List.mem_singleton, ← List.mem_append]
  constructor
  case permits =>
    rw [hcount _ rfl]
    exact h.permits
  case ran =>
    intro other hother hsome
    cases hmem other hother with
    | inl hold => exact h.ran other hold hsome
    | inr hnew =>
      subst hnew
      cases hsome
  case began => exact h.began
  case earlier =>
    intro other hother start hstart
    cases hmem other hother with
    | inl hold => exact h.earlier other hold start hstart
    | inr hnew =>
      subst hnew
      exact absurd ((hran start).symm.trans hstart) Bool.false_ne_true
  case counted =>
    intro count since hentry
    rw [hcount _ (Bool.and_false _)]
    exact h.counted count since hentry
  case lasting =>
    intro count since hentry hlive
    unfold checksIn
    rw [hcount _ (hran since), hcount _ (Bool.and_false _)]
    exact h.lasting count since hentry hlive
  case bounded =>
    intro since
    unfold checksIn
    rw [hcount _ (hran since)]
    exact h.bounded since

theorem step (h : gate.Gated ip) {event : LoginGateEvent} (hallowed : gate.Allowed ip event) (hcounts : gate.Counts ip event) :
    (gate.step event).Gated ip := by
  cases event with
  | elapses nanos =>
    exact {
      permits := h.permits
      ran := h.ran
      began := fun count since hentry => Nat.le_add_right_of_le (h.began count since hentry)
      earlier := h.earlier
      counted := h.counted
      lasting := fun count since hentry hlive =>
        h.lasting count since hentry (Nat.lt_of_le_of_lt (Nat.sub_le_sub_right (Nat.le_add_right _ _) _) hlive)
      bounded := h.bounded }
  | arrives path clientIp tooLong => exact h.arrives path clientIp tooLong
  | moves id move =>
    simp only [LoginGate.step]
    split
    next attempt hattempt =>
      split
      next stage hstage => exact h.moved hallowed hcounts hattempt hstage
      next => exact h
    next => exact h
  | hashes =>
    simp only [LoginGate.step]
    split
    next hfree =>
      have hpermits := h.permits
      exact { h with permits := by dsimp only; omega }
    next => exact h
  | hashed =>
    simp only [LoginGate.step]
    split
    next hbusy =>
      have hpermits := h.permits
      exact { h with permits := by dsimp only; omega }
    next => exact h

theorem start (now : Nat) : (start now).Gated ip := by
  constructor
  case permits => rfl
  case ran => exact fun _ h => nomatch h
  case began => exact fun _ _ h => nomatch h
  case earlier => exact fun _ h => nomatch h
  case counted => exact fun _ _ h => nomatch h
  case lasting => exact fun _ _ h => nomatch h
  case bounded =>
    intro since
    change 0 + 1 ≤ _
    decide

end Gated

end LoginGate

/-- In every order of the steps: in each window at most ten failures and the other three permits' worth of passwords
of an address are checked. -/
theorem passwordChecks_bounded (ip : IpAddr) (now : Nat) (events : List LoginGateEvent)
    (hallowed : Each LoginGate.step (LoginGate.Allowed ip) (LoginGate.start now) events)
    (hcounts : Each LoginGate.step (LoginGate.Counts ip) (LoginGate.start now) events) :
    Always LoginGate.step (LoginGate.Bounded ip) (LoginGate.start now) events := by
  have hgated := always_of_invariant (LoginGate.Gated ip) (fun gate event h hboth => h.step hboth.1 hboth.2) events
    (LoginGate.Gated.start now) (each_and hallowed hcounts)
  exact always_mono (fun _ h => h.bounded) hgated

/-- A wrong password that `auth_login` is through with. -/
def wrongLogin (id : Nat) : List LoginGateEvent :=
  [.moves id .takesPermit, .moves id .looksAgain, .moves id (.checks false), .moves id .records, .moves id .dropsPermit]

/-- Failures one after the other, and with the last that the throttle lets through the other permits. -/
def loginBurst (ip : IpAddr) : List LoginGateEvent :=
  List.replicate 13 (.arrives .authLogin (some ip) false) ++ (List.range 13).map (fun id => .moves id (.looks true)) ++
    (List.range 9).flatMap wrongLogin ++
    (List.range' 9 4).flatMap (fun id => [.moves id .takesPermit, .moves id .looksAgain]) ++
    (List.range' 9 4).map fun id => .moves id (.checks false)

theorem passwordChecks_bounded_attained :
    Always LoginGate.step (LoginGate.Bounded (.v4 0x0a000001)) (LoginGate.start 0) (loginBurst (.v4 0x0a000001)) ∧
      (run LoginGate.step (LoginGate.start 0) (loginBurst (.v4 0x0a000001))).checksIn (.v4 0x0a000001) 0 = 12 :=
  ⟨passwordChecks_bounded _ _ _ (by decide) (by decide), by decide⟩

/-- A wrong password that `confirm_password` is through with but for its failure. -/
def wrongConfirmation (id : Nat) : List LoginGateEvent :=
  [.moves id .takesPermit, .moves id .looksAgain, .moves id (.checks false), .moves id .dropsPermit]

/-- One password opens the window, and the failures of the others are still to be recorded. -/
def confirmationBurst (ip : IpAddr) (others : Nat) : List LoginGateEvent :=
  List.replicate (others + 1) (.arrives .confirmPassword (some ip) false) ++
    (List.range (others + 1)).map (fun id => .moves id (.looks true)) ++
    wrongConfirmation 0 ++ [.moves 0 .records] ++ (List.range' 1 others).flatMap wrongConfirmation

theorem passwordChecks_bounded_fails :
    ¬∀ (ip : IpAddr) (now : Nat) (events : List LoginGateEvent),
      Each LoginGate.step (LoginGate.Allowed ip) (LoginGate.start now) events →
        ∀ since, (run LoginGate.step (LoginGate.start now) events).checksIn ip since ≤
          LoginThrottle.maxFailures + (LoginGate.passwordWork - 1) := by
  intro h
  have hallowed : Each LoginGate.step (LoginGate.Allowed (.v4 0x0a000001)) (LoginGate.start 0)
      (confirmationBurst (.v4 0x0a000001) 14) := by decide +kernel
  have hchecks : (run LoginGate.step (LoginGate.start 0) (confirmationBurst (.v4 0x0a000001) 14)).checksIn
      (.v4 0x0a000001) 0 = 14 := by decide +kernel
  have hle := h (.v4 0x0a000001) 0 _ hallowed 0
  rw [hchecks] at hle
  exact absurd hle (by decide)

end DaygleDns.Console
