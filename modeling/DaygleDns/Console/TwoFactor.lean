import DaygleDns.Authoritative.Model
import DaygleDns.Console.UserRequests

/-! Two-factor login of one account: the row of the store, the codes, and the requests and
logins that work on the row with steps of others between theirs. -/
namespace DaygleDns.Console

open Text Authoritative

/-- A secret as it was generated; none is generated twice. -/
abbrev Secret := Nat

/-- What the hash of a recovery code stands for; none is generated twice. -/
abbrev RecoveryHash := Nat

/-- The code of a secret for a step, six digits, and the hash of what is typed as a recovery
code. -/
structure Totp where
  codeAt : Secret → Nat → Text
  hashRecoveryCode : Text → RecoveryHash

/-- The row of `console_user_two_factor`; a secret that is not there is the empty text. -/
structure TwoFactor where
  secret : Option Secret
  pendingSecret : Option Secret
  recoveryHashes : List RecoveryHash
  lastStep : Nat
deriving DecidableEq, Repr

def stepSecs : Nat := 30

def digits : Nat := 6

def recoveryCodes : Nat := 10

def stepAt (unixSecs : Nat) : Nat := unixSecs / stepSecs

/-- The last step around now, later than `lastStep`, whose code this is. -/
def Totp.verify (totp : Totp) (secret : Secret) (code : Text) (unixSecs lastStep : Nat) : Option Nat :=
  let code := code.filter fun c => !isWhitespace c
  if utf8Len code ≠ digits ∨ !code.all Char.isDigit then none
  else
    let now := stepAt unixSecs
    [now - 1, now, now + 1].foldl
      (fun found step => if totp.codeAt secret step = code ∧ lastStep < step then some step else found) none

def isRecoveryCode (code : Text) : Bool :=
  code.countP Char.isAlphanum == 8 && code.any Char.isAlpha

/-- A code that lets a login in. -/
inductive Code where
  | timed (secret : Secret) (step : Nat)
  | recovery (hash : RecoveryHash)
deriving DecidableEq, Repr

/-- A login that was let in with a code, and the secret that was in force. -/
structure Accepted where
  code : Code
  inForce : Option Secret
deriving DecidableEq, Repr

/-- Where a request or a login is. -/
inductive TwoFactorCall where
  | setupCheck
  | setupWrite
  | enableCheck (code : Text)
  | enableRead (code : Text)
  | enableWrite (pending : Secret) (step : Nat)
  | disableCheck
  | disableWrite
  | recoveryCheck
  | recoveryConfirm (twoFactor : Bool)
  | recoveryWrite
  | loginRead (code : Text)
  | loginRecovery (hash : RecoveryHash)
  | loginStep (secret : Secret) (step : Nat)
  | answered (response : Response)
  | loggedIn
deriving DecidableEq, Repr

/-- The row, what is generated next, the codes that logins were let in with, and the secret for
which the request that turned two-factor login on verified a code. -/
structure TwoFactorStore where
  row : Option TwoFactor
  nextSecret : Secret
  nextHash : RecoveryHash
  accepted : List Accepted
  verified : Option Secret

def twoFactorRequired (message : Text) : Response := ⟨401, message⟩

def checkFailed : Response := ⟨401, "password is incorrect".toList⟩

namespace TwoFactorStore

variable (totp : Totp) (store : TwoFactorStore)

/-- `set_two_factor_pending` with a new secret. -/
def setPending : TwoFactorStore :=
  { store with
    row := some (match store.row with
      | some row => { row with pendingSecret := some store.nextSecret }
      | none => ⟨none, some store.nextSecret, [], 0⟩)
    nextSecret := store.nextSecret + 1 }

/-- The hashes of new recovery codes. -/
def newHashes : List RecoveryHash := (List.range recoveryCodes).map (store.nextHash + ·)

/-- `enable_two_factor`: the pending secret, whichever it is by now, becomes the secret. -/
def enable (verified : Secret) (step : Nat) : Option TwoFactorStore :=
  match store.row with
  | some row =>
      match row.pendingSecret with
      | some pending => some
          { store with
            row := some ⟨some pending, none, store.newHashes, step⟩
            nextHash := store.nextHash + recoveryCodes
            verified := some verified }
      | none => none
  | none => none

def disable : TwoFactorStore := { store with row := none }

/-- `set_two_factor_recovery` with new codes. -/
def setRecovery : TwoFactorStore :=
  { store with
    row := store.row.map fun row => { row with recoveryHashes := store.newHashes }
    nextHash := store.nextHash + recoveryCodes }

/-- `use_two_factor_step`, if it accepts the step. -/
def useStep (secret : Secret) (step : Nat) : Option TwoFactorStore :=
  match store.row with
  | some row =>
      if row.lastStep < step then some
        { store with
          row := some { row with lastStep := step }
          accepted := ⟨.timed secret step, row.secret⟩ :: store.accepted }
      else none
  | none => none

/-- `use_two_factor_recovery_code`, if it accepts the code. -/
def useRecoveryCode (hash : RecoveryHash) : Option TwoFactorStore :=
  match store.row with
  | some row =>
      if hash ∈ row.recoveryHashes then some
        { store with
          row := some { row with recoveryHashes := row.recoveryHashes.filter (· != hash) }
          accepted := ⟨.recovery hash, row.secret⟩ :: store.accepted }
      else none
  | none => none

/-- Whether two-factor login is on. -/
def isOn : Bool := (store.row.bind TwoFactor.secret).isSome

/-- Where a call that reads goes, `refuses` being what the session and the password say. -/
def read (call : TwoFactorCall) (refuses : Bool) (now : Nat) : TwoFactorCall :=
  match call with
  | .setupCheck => if refuses then .answered checkFailed else .setupWrite
  | .enableCheck code => if refuses then .answered checkFailed else .enableRead code
  | .enableRead code =>
      match store.row.bind TwoFactor.pendingSecret with
      | none => .answered ⟨400, "start two-factor setup first".toList⟩
      | some pending =>
          match totp.verify pending code now 0 with
          | some step => .enableWrite pending step
          | none =>
              .answered ⟨400, "that code is not right: check the app's clock and try the newest code".toList⟩
  | .disableCheck => if refuses then .answered checkFailed else .disableWrite
  | .recoveryCheck => if refuses then .answered checkFailed else .recoveryConfirm store.isOn
  | .recoveryConfirm twoFactor =>
      if refuses then .answered checkFailed
      else if twoFactor then .recoveryWrite else .answered ⟨400, "two-factor login is not on".toList⟩
  | .loginRead code =>
      match store.row with
      | none => .loggedIn
      | some row =>
          match row.secret with
          | none => .loggedIn
          | some secret =>
              let code := trim code
              if code.isEmpty then .answered (twoFactorRequired "enter the code from your authenticator app".toList)
              else if isRecoveryCode code then .loginRecovery (totp.hashRecoveryCode code)
              else match totp.verify secret code now row.lastStep with
                | some step => .loginStep secret step
                | none => .answered (twoFactorRequired "that code is not right, or was already used".toList)
  | call => call

/-- The next step of a call, and where it goes. -/
def act (call : TwoFactorCall) (fault : Option DaygleError) (refuses : Bool) (now : Nat) : TwoFactorStore × TwoFactorCall :=
  match fault with
  | some e =>
      match call with
      | .answered response => (store, .answered response)
      | .loggedIn => (store, .loggedIn)
      | _ => (store, .answered (mapErr e))
  | none =>
      match call with
      | .setupWrite => (store.setPending, .answered ⟨200, []⟩)
      | .enableWrite pending step =>
          match store.enable pending step with
          | some store => (store, .answered ⟨200, []⟩)
          | none => (store, .answered (mapErr (.config "start two-factor setup first".toList)))
      | .disableWrite => (store.disable, .answered ⟨204, []⟩)
      | .recoveryWrite => (store.setRecovery, .answered ⟨200, []⟩)
      | .loginStep secret step =>
          match store.useStep secret step with
          | some store => (store, .loggedIn)
          | none => (store, .answered (twoFactorRequired "that code is not right, or was already used".toList))
      | .loginRecovery hash =>
          match store.useRecoveryCode hash with
          | some store => (store, .loggedIn)
          | none => (store, .answered (twoFactorRequired "that code is not right, or was already used".toList))
      | call => (store, store.read totp call refuses now)

end TwoFactorStore

inductive TwoFactorInput where
  | setup
  | enable (code : Text)
  | disable
  | newRecoveryCodes
  | login (code : Text)
  | step (call : Nat) (fault : Option DaygleError) (refuses : Bool) (now : Nat)

structure TwoFactorDesk where
  store : TwoFactorStore
  calls : List TwoFactorCall

def TwoFactorDesk.step (totp : Totp) (desk : TwoFactorDesk) : TwoFactorInput → TwoFactorDesk
  | .setup => { desk with calls := desk.calls ++ [.setupCheck] }
  | .enable code => { desk with calls := desk.calls ++ [.enableCheck code] }
  | .disable => { desk with calls := desk.calls ++ [.disableCheck] }
  | .newRecoveryCodes => { desk with calls := desk.calls ++ [.recoveryCheck] }
  | .login code => { desk with calls := desk.calls ++ [.loginRead code] }
  | .step i fault refuses now =>
      match desk.calls[i]? with
      | some call =>
          let next := desk.store.act totp call fault refuses now
          ⟨next.1, desk.calls.set i next.2⟩
      | none => desk

/-- An account that has never used two-factor login. -/
def TwoFactorDesk.new : TwoFactorDesk := ⟨⟨none, 0, 0, [], none⟩, []⟩

end DaygleDns.Console
