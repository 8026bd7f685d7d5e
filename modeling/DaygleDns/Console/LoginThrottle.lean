import DaygleDns.Addresses
import DaygleDns.KeyedMap
import Mathlib.Data.List.MinMax

/-! The throttle of failed logins, and the requests that check a password under it. Between two steps
of a request the console does the steps of others. -/
namespace DaygleDns.Console

/-- The failures of an address and since when they are counted, in nanoseconds. -/
abbrev LoginThrottle := KeyedMap IpAddr (Nat × Nat)

namespace LoginThrottle

def maxFailures : Nat := 10

def nanos : Nat := 1000000000

/-- How long failures are counted. -/
def window : Nat := 300 * nanos

def maxTracked : Nat := 10000

variable (failures : LoginThrottle) (now : Nat) (ip : IpAddr)

/-- Seconds until `ip` may try again. -/
def retryAfter : Option Nat := do
  let (count, since) ← failures.lookup ip
  let elapsed := now - since
  if maxFailures ≤ count ∧ elapsed < window then some (max ((window - elapsed) / nanos) 1) else none

/-- The map with room for one more address. -/
def makeRoom : LoginThrottle :=
  if maxTracked ≤ failures.size ∧ failures.lookup ip = none then
    let live : LoginThrottle := failures.retain fun _ entry => now - entry.2 < window
    if maxTracked ≤ live.size then
      match live.entries.argmin fun entry => entry.2.2 with
      | some oldest => live.erase oldest.1
      | none => live
    else live
  else failures

def recordFailure : LoginThrottle :=
  let failures := makeRoom failures now ip
  let entry := (failures.lookup ip).getD (0, now)
  let entry := if window ≤ now - entry.2 then (0, now) else entry
  failures.insert ip (entry.1 + 1, entry.2)

/-- After a login. -/
def clear : LoginThrottle := failures.erase ip

end LoginThrottle

/-- The handlers that check a password. -/
inductive PasswordPath where
  | authLogin
  | confirmPassword
deriving DecidableEq, Repr

/-- Where such a request is. From `admitted` to `leaving` it holds a permit, but for `unrecorded`. -/
inductive AttemptStage where
  | arrived
  | waiting
  | admitted
  | cleared
  | matched
  | accepted
  | failed
  | unrecorded
  | leaving (recorded : Bool)
  | gone (recorded : Bool)
deriving DecidableEq, Repr

/-- What `check_two_factor` comes to. -/
inductive CodeOutcome where
  | accepted
  | wrong
  | refused
deriving DecidableEq, Repr

/-- `ranIn` is the throttle window that the password check ran in; the server does not keep it. -/
structure PasswordAttempt where
  path : PasswordPath
  clientIp : Option IpAddr
  tooLong : Bool
  stage : AttemptStage
  ranIn : Option Nat
deriving DecidableEq, Repr

inductive AttemptMove where
  | looks (found : Bool)
  | takesPermit
  | looksAgain
  | checks (ok : Bool)
  | readsCode (outcome : CodeOutcome)
  | clears
  | records
  | dropsPermit
deriving DecidableEq, Repr

/-- `hashing` are the jobs that hold a permit for the hash of a new password. -/
structure LoginGate where
  now : Nat
  failures : LoginThrottle
  permits : Nat
  hashing : Nat
  attempts : List PasswordAttempt

namespace LoginGate

/-- The permits of `PASSWORD_WORK`. -/
def passwordWork : Nat := 4

def start (now : Nat) : LoginGate := ⟨now, ∅, passwordWork, 0, []⟩

variable (gate : LoginGate)

def throttled (clientIp : Option IpAddr) : Option Nat :=
  clientIp.bind fun ip => gate.failures.retryAfter gate.now ip

/-- The start of the window in which failures of the address are counted now. -/
def currentWindow (clientIp : Option IpAddr) : Option Nat := do
  let ip ← clientIp
  let (_, since) ← gate.failures.lookup ip
  if gate.now - since < LoginThrottle.window then some since else none

/-- Where a step of `auth_login` takes an attempt. -/
def authLogin (attempt : PasswordAttempt) : AttemptStage → AttemptMove → Option AttemptStage
  | .arrived, .looks found =>
      if (gate.throttled attempt.clientIp).isSome || attempt.tooLong || !found then some (.gone false) else some .waiting
  | .waiting, .takesPermit => if 0 < gate.permits then some .admitted else none
  | .admitted, .looksAgain => if (gate.throttled attempt.clientIp).isSome then some (.leaving false) else some .cleared
  | .cleared, .checks ok => if ok then some .matched else some .failed
  | .matched, .readsCode outcome =>
      match outcome with
      | .accepted => some .accepted
      | .wrong => some .failed
      | .refused => some (.leaving false)
  | .accepted, .clears => some (.leaving false)
  | .failed, .records => some (.leaving true)
  | .leaving recorded, .dropsPermit => some (.gone recorded)
  | _, _ => none

/-- Where a step of `confirm_password` takes an attempt: the permit is dropped where the block of the
check ends, before the failure is recorded. -/
def confirmPassword (attempt : PasswordAttempt) : AttemptStage → AttemptMove → Option AttemptStage
  | .arrived, .looks _ =>
      if (gate.throttled attempt.clientIp).isSome then some (.gone false)
      else if attempt.tooLong then some .unrecorded
      else some .waiting
  | .waiting, .takesPermit => if 0 < gate.permits then some .admitted else none
  | .admitted, .looksAgain => if (gate.throttled attempt.clientIp).isSome then some (.leaving false) else some .cleared
  | .cleared, .checks ok => if ok then some (.leaving false) else some .failed
  | .failed, .dropsPermit => some .unrecorded
  | .unrecorded, .records => some (.gone true)
  | .leaving recorded, .dropsPermit => some (.gone recorded)
  | _, _ => none

def nextStage (attempt : PasswordAttempt) (move : AttemptMove) : Option AttemptStage :=
  match attempt.path with
  | .authLogin => gate.authLogin attempt attempt.stage move
  | .confirmPassword => gate.confirmPassword attempt attempt.stage move

/-- What a step of an attempt of the address does to what all requests share. -/
def share (clientIp : Option IpAddr) : AttemptMove → LoginGate
  | .takesPermit => { gate with permits := gate.permits - 1 }
  | .dropsPermit => { gate with permits := gate.permits + 1 }
  | .records =>
      match clientIp with
      | some ip => { gate with failures := gate.failures.recordFailure gate.now ip }
      | none => gate
  | .clears =>
      match clientIp with
      | some ip => { gate with failures := gate.failures.clear ip }
      | none => gate
  | _ => gate

def ranAfter (attempt : PasswordAttempt) : AttemptMove → Option Nat
  | .checks _ => gate.currentWindow attempt.clientIp
  | _ => attempt.ranIn

end LoginGate

inductive LoginGateEvent where
  | elapses (nanos : Nat)
  | arrives (path : PasswordPath) (clientIp : Option IpAddr) (tooLong : Bool)
  | moves (id : Nat) (move : AttemptMove)
  | hashes
  | hashed
deriving DecidableEq, Repr

/-- An event that cannot happen changes nothing. -/
def LoginGate.step (gate : LoginGate) : LoginGateEvent → LoginGate
  | .elapses nanos => { gate with now := gate.now + nanos }
  | .arrives path clientIp tooLong =>
      { gate with attempts := gate.attempts ++ [⟨path, clientIp, tooLong, .arrived, none⟩] }
  | .moves id move =>
      match gate.attempts[id]? with
      | some attempt =>
          match gate.nextStage attempt move with
          | some stage =>
              { gate.share attempt.clientIp move with
                attempts := gate.attempts.set id { attempt with stage, ranIn := gate.ranAfter attempt move } }
          | none => gate
      | none => gate
  | .hashes => if 0 < gate.permits then { gate with permits := gate.permits - 1, hashing := gate.hashing + 1 } else gate
  | .hashed => if 0 < gate.hashing then { gate with permits := gate.permits + 1, hashing := gate.hashing - 1 } else gate

/-! What one step of a request that checks a password does to the request, and what it does to what all
requests share. -/

namespace LoginThrottle

variable {failures : LoginThrottle} {now : Nat} {ip : IpAddr}

theorem makeRoom_of_lt (hsize : failures.size < maxTracked) : failures.makeRoom now ip = failures :=
  if_neg fun h => Nat.lt_irrefl _ (Nat.lt_of_lt_of_le hsize h.1)

/-- A failure that opens a window. -/
theorem lookup_recordFailure_opens (hsize : failures.size < maxTracked)
    (hold : ∀ entry ∈ failures.lookup ip, window ≤ now - entry.2) :
    (failures.recordFailure now ip).lookup ip = some (1, now) := by
  unfold recordFailure
  rw [makeRoom_of_lt hsize]
  dsimp only
  rw [AList.lookup_insert]
  cases hentry : failures.lookup ip with
  | none => simp
  | some entry => rw [Option.getD_some, if_pos (hold entry hentry)]

theorem lookup_recordFailure_counts {count since : Nat} (hsize : failures.size < maxTracked)
    (hentry : failures.lookup ip = some (count, since)) (hlive : now - since < window) :
    (failures.recordFailure now ip).lookup ip = some (count + 1, since) := by
  unfold recordFailure
  rw [makeRoom_of_lt hsize]
  dsimp only
  rw [AList.lookup_insert, hentry, Option.getD_some, if_neg (Nat.not_le_of_lt hlive)]

theorem lookup_recordFailure_ne {other : IpAddr} (hsize : failures.size < maxTracked) (hother : ip ≠ other) :
    (failures.recordFailure now other).lookup ip = failures.lookup ip := by
  unfold recordFailure
  rw [makeRoom_of_lt hsize]
  exact AList.lookup_insert_ne hother

end LoginThrottle

namespace AttemptStage

def holdsPermit : AttemptStage → Bool
  | .admitted | .cleared | .matched | .accepted | .failed | .leaving _ => true
  | _ => false

/-- The password has been checked, where it ever is. -/
def pastCheck : AttemptStage → Bool
  | .arrived | .waiting | .admitted | .cleared => false
  | _ => true

def recorded : AttemptStage → Bool
  | .leaving recorded => recorded
  | .gone recorded => recorded
  | _ => false

/-- The permit is dropped and no failure is recorded. -/
def uncounted : AttemptStage → Bool
  | .unrecorded => true
  | .gone recorded => !recorded
  | _ => false

end AttemptStage

namespace PasswordAttempt

variable (ip : IpAddr) (since : Nat) (attempt : PasswordAttempt)

def ranOf : Bool := attempt.clientIp = some ip && attempt.ranIn = some since

def clearedOf : Bool := attempt.clientIp = some ip && attempt.stage = .cleared

def recordedOf : Bool := attempt.ranOf ip since && attempt.stage.recorded

def uncountedOf : Bool := attempt.ranOf ip since && attempt.stage.uncounted

/-- A password that has been checked in a window, or is about to be, is of an attempt that is counted, or
holds a permit, or is neither. -/
theorem ranOf_add_clearedOf_le (hran : attempt.ranIn.isSome → attempt.stage.pastCheck = true) :
    (attempt.ranOf ip since).toNat + (attempt.clearedOf ip).toNat ≤
      (attempt.recordedOf ip since).toNat + (attempt.uncountedOf ip since).toNat + attempt.stage.holdsPermit.toNat := by
  cases hof : attempt.ranOf ip since with
  | false =>
    have hcleared : (attempt.clearedOf ip).toNat ≤ attempt.stage.holdsPermit.toNat := by
      apply Bool.toNat_le_toNat
      intro h
      rw [of_decide_eq_true (Bool.and_eq_true_iff.mp h).2]
      rfl
    rw [Bool.toNat_false]
    omega
  | true =>
    have hsome : attempt.ranIn = some since := of_decide_eq_true (Bool.and_eq_true_iff.mp hof).2
    have hpast := hran (by rw [hsome]; rfl)
    unfold clearedOf recordedOf uncountedOf
    rw [hof]
    generalize attempt.stage = stage at hpast
    cases stage with
    | arrived => cases hpast
    | waiting => cases hpast
    | admitted => cases hpast
    | cleared => cases hpast
    | leaving recorded => cases recorded <;> simp [AttemptStage.recorded, AttemptStage.uncounted, AttemptStage.holdsPermit]
    | gone recorded => cases recorded <;> simp [AttemptStage.recorded, AttemptStage.uncounted, AttemptStage.holdsPermit]
    | _ => simp [AttemptStage.recorded, AttemptStage.uncounted, AttemptStage.holdsPermit]

end PasswordAttempt

namespace LoginGate

variable {gate : LoginGate} {attempt : PasswordAttempt} {clientIp : Option IpAddr} {move : AttemptMove} {stage : AttemptStage}

/-- What a step does with an attempt. -/
inductive Leads (gate : LoginGate) (clientIp : Option IpAddr) : AttemptStage → AttemptMove → AttemptStage → Prop
  | refused (found : Bool) : Leads gate clientIp .arrived (.looks found) (.gone false)
  | tooLong (found : Bool) : Leads gate clientIp .arrived (.looks found) .unrecorded
  | waits (found : Bool) : Leads gate clientIp .arrived (.looks found) .waiting
  | takes (hfree : 0 < gate.permits) : Leads gate clientIp .waiting .takesPermit .admitted
  | turnedAway : Leads gate clientIp .admitted .looksAgain (.leaving false)
  | cleared (hopen : gate.throttled clientIp = none) : Leads gate clientIp .admitted .looksAgain .cleared
  | fails : Leads gate clientIp .cleared (.checks false) .failed
  | matched : Leads gate clientIp .cleared (.checks true) .matched
  | confirmed : Leads gate clientIp .cleared (.checks true) (.leaving false)
  | accepted : Leads gate clientIp .matched (.readsCode .accepted) .accepted
  | wrongCode : Leads gate clientIp .matched (.readsCode .wrong) .failed
  | noCode : Leads gate clientIp .matched (.readsCode .refused) (.leaving false)
  | clears : Leads gate clientIp .accepted .clears (.leaving false)
  | records : Leads gate clientIp .failed .records (.leaving true)
  | recordsLate : Leads gate clientIp .unrecorded .records (.gone true)
  | dropsEarly : Leads gate clientIp .failed .dropsPermit .unrecorded
  | drops (recorded : Bool) : Leads gate clientIp (.leaving recorded) .dropsPermit (.gone recorded)

theorem leads_takesPermit (h : (if 0 < gate.permits then some AttemptStage.admitted else none) = some stage) :
    gate.Leads clientIp .waiting .takesPermit stage := by
  split at h
  next hfree =>
    cases h
    exact .takes hfree
  next => cases h

theorem leads_looksAgain
    (h : (if (gate.throttled clientIp).isSome then some (.leaving false) else some AttemptStage.cleared) = some stage) :
    gate.Leads clientIp .admitted .looksAgain stage := by
  split at h
  · cases h
    exact .turnedAway
  next hopen =>
    cases h
    exact .cleared (Option.not_isSome_iff_eq_none.mp hopen)

theorem leads_of_authLogin {old : AttemptStage} (h : gate.authLogin attempt old move = some stage) :
    gate.Leads attempt.clientIp old move stage := by
  unfold authLogin at h
  split at h
  · split at h
    · cases h
      exact .refused _
    · cases h
      exact .waits _
  · exact leads_takesPermit h
  · exact leads_looksAgain h
  next ok =>
    cases ok <;> cases h
    · exact .fails
    · exact .matched
  next outcome =>
    cases outcome <;> cases h
    · exact .accepted
    · exact .wrongCode
    · exact .noCode
  · cases h
    exact .clears
  · cases h
    exact .records
  · cases h
    exact .drops _
  · cases h

theorem leads_of_confirmPassword {old : AttemptStage} (h : gate.confirmPassword attempt old move = some stage) :
    gate.Leads attempt.clientIp old move stage := by
  unfold confirmPassword at h
  split at h
  · split at h
    · cases h
      exact .refused _
    · split at h
      · cases h
        exact .tooLong _
      · cases h
        exact .waits _
  · exact leads_takesPermit h
  · exact leads_looksAgain h
  next ok =>
    cases ok <;> cases h
    · exact .fails
    · exact .confirmed
  · cases h
    exact .dropsEarly
  · cases h
    exact .recordsLate
  · cases h
    exact .drops _
  · cases h

theorem leads_of_nextStage (h : gate.nextStage attempt move = some stage) :
    gate.Leads attempt.clientIp attempt.stage move stage := by
  unfold nextStage at h
  split at h
  · exact leads_of_authLogin h
  · exact leads_of_confirmPassword h

variable {ip : IpAddr}

theorem currentWindow_eq_some_iff {since : Nat} :
    gate.currentWindow (some ip) = some since ↔
      ∃ count, gate.failures.lookup ip = some (count, since) ∧ gate.now - since < LoginThrottle.window := by
  cases hentry : gate.failures.lookup ip with
  | none => simp [currentWindow, hentry]
  | some entry =>
    obtain ⟨count, start⟩ := entry
    simp only [currentWindow, hentry, Option.bind_eq_bind, Option.bind_some]
    constructor
    · intro h
      split at h
      next hlive =>
        cases h
        exact ⟨count, rfl, hlive⟩
      next => cases h
    · rintro ⟨_, hsame, hlive⟩
      cases hsame
      exact if_pos hlive

/-- An address that may try again has failures left. -/
theorem count_lt_of_throttled {count since : Nat} (hopen : gate.throttled (some ip) = none)
    (hentry : gate.failures.lookup ip = some (count, since)) (hlive : gate.now - since < LoginThrottle.window) :
    count < LoginThrottle.maxFailures := by
  apply Nat.lt_of_not_le
  intro hfull
  simp [throttled, LoginThrottle.retryAfter, hentry, hfull, hlive] at hopen

/-- The attempt where a step leaves it. -/
def next (gate : LoginGate) (attempt : PasswordAttempt) (move : AttemptMove) (stage : AttemptStage) : PasswordAttempt :=
  { attempt with stage, ranIn := gate.ranAfter attempt move }

def moved (gate : LoginGate) (id : Nat) (attempt : PasswordAttempt) (move : AttemptMove) (stage : AttemptStage) : LoginGate :=
  { gate.share attempt.clientIp move with attempts := gate.attempts.set id (gate.next attempt move stage) }

@[simp] theorem now_share : (gate.share clientIp move).now = gate.now := by
  cases move <;> cases clientIp <;> rfl

@[simp] theorem hashing_share : (gate.share clientIp move).hashing = gate.hashing := by
  cases move <;> cases clientIp <;> rfl

theorem permits_share {old : AttemptStage} (h : gate.Leads clientIp old move stage) :
    (gate.share clientIp move).permits + stage.holdsPermit.toNat = gate.permits + old.holdsPermit.toNat := by
  cases h with
  | takes hfree =>
    simp only [share, AttemptStage.holdsPermit, Bool.toNat_true, Bool.toNat_false]
    omega
  | records => cases clientIp <;> rfl
  | recordsLate => cases clientIp <;> rfl
  | clears => cases clientIp <;> rfl
  | _ => rfl

theorem pastCheck_next (h : gate.Leads attempt.clientIp attempt.stage move stage)
    (hran : attempt.ranIn.isSome → attempt.stage.pastCheck = true)
    (hsome : (gate.next attempt move stage).ranIn.isSome) : stage.pastCheck = true := by
  obtain ⟨path, clientIp, tooLong, old, ranIn⟩ := attempt
  cases h with
  | waits => exact hran hsome
  | takes => exact hran hsome
  | cleared => exact hran hsome
  | _ => rfl

theorem recordedOf_next {since : Nat} (h : gate.Leads attempt.clientIp attempt.stage move stage) (hmove : move ≠ .records)
    (hrecorded : (gate.next attempt move stage).recordedOf ip since = true) : attempt.recordedOf ip since = true := by
  obtain ⟨path, clientIp, tooLong, old, ranIn⟩ := attempt
  unfold PasswordAttempt.recordedOf at hrecorded ⊢
  rw [Bool.and_eq_true] at hrecorded ⊢
  cases h with
  | drops => exact hrecorded
  | records => exact absurd rfl hmove
  | recordsLate => exact absurd rfl hmove
  | _ => exact nomatch hrecorded.2

theorem ranOf_next {since : Nat} (hran : (gate.next attempt move stage).ranOf ip since = true) :
    attempt.ranOf ip since = true ∨ gate.currentWindow (some ip) = some since := by
  cases move with
  | checks ok =>
    obtain ⟨hclient, hwindow⟩ := Bool.and_eq_true_iff.mp hran
    have hclient : attempt.clientIp = some ip := of_decide_eq_true hclient
    have hwindow : gate.currentWindow attempt.clientIp = some since := of_decide_eq_true hwindow
    rw [hclient] at hwindow
    exact .inr hwindow
  | _ => exact .inl hran

/-- What a step makes of an attempt that it does not clear for the check. -/
theorem spent_next_le (since : Nat) (h : gate.Leads attempt.clientIp attempt.stage move stage)
    (hnot : (gate.next attempt move stage).clearedOf ip = false) :
    ((gate.next attempt move stage).ranOf ip since).toNat + ((gate.next attempt move stage).clearedOf ip).toNat ≤
      (attempt.ranOf ip since).toNat + (attempt.clearedOf ip).toNat := by
  rw [hnot, Bool.toNat_false, Nat.add_zero]
  obtain ⟨path, clientIp, tooLong, old, ranIn⟩ := attempt
  have hchecks : ∀ ok, ((gate.next ⟨path, clientIp, tooLong, .cleared, ranIn⟩ (.checks ok) stage).ranOf ip since).toNat ≤
      (PasswordAttempt.clearedOf ip ⟨path, clientIp, tooLong, .cleared, ranIn⟩).toNat := by
    intro ok
    unfold PasswordAttempt.ranOf PasswordAttempt.clearedOf next
    dsimp only
    cases decide (clientIp = some ip) with
    | false => exact Nat.le_refl _
    | true => exact Bool.toNat_le _
  cases h with
  | fails => exact Nat.le_trans (hchecks _) (Nat.le_add_left _ _)
  | matched => exact Nat.le_trans (hchecks _) (Nat.le_add_left _ _)
  | confirmed => exact Nat.le_trans (hchecks _) (Nat.le_add_left _ _)
  | _ => exact Nat.le_add_right _ _

end LoginGate

end DaygleDns.Console
