import DaygleDns.Console.Users

/-! The requests that manage console accounts, as calls into the store with calls of other
requests between them. -/
namespace DaygleDns.Console

open Text Authoritative

/-- What is done with passwords: the hash for a salt, and the check of a password. -/
structure Passwords where
  hash : Text → Text → Text
  verify : Text → Text → Bool

structure Response where
  status : Nat
  error : Text
deriving DecidableEq, Repr

def mapErr : DaygleError → Response
  | .notFound message => ⟨404, "not found: ".toList ++ message⟩
  | .alreadyExists message => ⟨409, "already exists: ".toList ++ message⟩
  | .invalidRecord message => ⟨400, "invalid record data: ".toList ++ message⟩
  | .config message => ⟨400, "configuration error: ".toList ++ message⟩
  | .proto message => ⟨500, "dns protocol error: ".toList ++ message⟩
  | .database message => ⟨500, "database error: ".toList ++ message⟩
  | .internal message => ⟨500, "internal error: ".toList ++ message⟩

def maxPasswordLen : Nat := 1024

def validateUsernamePassword (username password : Text) : Option Response :=
  if !isUsername username then some ⟨400, "username must be 1-64 characters with no whitespace".toList⟩
  else if password.length < 8 ∨ maxPasswordLen < utf8Len password then
    some ⟨400, "password must be 8-1024 characters".toList⟩
  else none

def parseRole (role : Text) : Except Response Role :=
  if role = "admin".toList then .ok .admin
  else if role = "viewer".toList then .ok .viewer
  else .error ⟨400, "unknown role '".toList ++ role ++ ['\x27']⟩

structure CreateUserInput where
  username : Text
  password : Text
  role : Option Text := none
  firstName : Option Text := none
  lastName : Option Text := none
  email : Option Text := none

structure UpdateUserInput where
  password : Option Text := none
  role : Option Text := none
  enabled : Option Bool := none
  firstName : Option Text := none
  lastName : Option Text := none
  email : Option Text := none

/-- What an update writes, once it is checked. -/
structure UserChange where
  username : Text
  passwordHash : Option Text
  role : Option Role
  enabled : Option Bool
  firstName : Option Text
  lastName : Option Text
  email : Option Text

/-- What `last_admin_guard` stands in front of. -/
inductive Guarded where
  | update (change : UserChange)
  | delete (username : Text)

/-- Where a request is: the call it makes next, or its answer. -/
inductive UserCall where
  | findNew (username : Text) (input : ConsoleUserInput)
  | create (username : Text) (input : ConsoleUserInput)
  | find (username : Text) (input : UpdateUserInput) (salt : Text)
  | guardUser (guarded : Guarded)
  | guardCount (guarded : Guarded)
  | setPassword (change : UserChange) (passwordHash : Text) (h : change.passwordHash = some passwordHash)
  | setRole (change : UserChange) (role : Role) (h : change.role = some role)
  | setEnabled (change : UserChange) (enabled : Bool) (h : change.enabled = some enabled)
  | setProfile (change : UserChange)
  | revoke (change : UserChange)
  | reread (change : UserChange)
  | delete (username : Text)
  | revokeDeleted (username : Text)
  | answered (response : Response)

namespace UserChange

variable (change : UserChange)

/-- Whether the live sessions of the account are revoked. -/
def revokes : Bool := change.passwordHash.isSome || change.role.isSome || change.enabled.isSome

def afterProfile : UserCall := if change.revokes then .revoke change else .reread change

def afterEnabled : UserCall :=
  if change.firstName.isSome || change.lastName.isSome || change.email.isSome then .setProfile change
  else change.afterProfile

def afterRole : UserCall :=
  match h : change.enabled with
  | some enabled => .setEnabled change enabled h
  | none => change.afterEnabled

def afterPassword : UserCall :=
  match h : change.role with
  | some role => .setRole change role h
  | none => change.afterRole

def first : UserCall :=
  match h : change.passwordHash with
  | some passwordHash => .setPassword change passwordHash h
  | none => change.afterPassword

end UserChange

def Guarded.username : Guarded → Text
  | .update change => change.username
  | .delete username => username

def Guarded.proceed : Guarded → UserCall
  | .update change => change.first
  | .delete username => .delete username

section Requests

variable (passwords : Passwords)

/-- `POST /api/users`; the account is an administrator's by default. -/
def createUser (input : CreateUserInput) (salt : Text) : UserCall :=
  let username := trim input.username
  match validateUsernamePassword username input.password with
  | some response => .answered response
  | none =>
      match input.role.elim (.ok .admin) parseRole with
      | .error response => .answered response
      | .ok role => .findNew username
          { passwordHash := passwords.hash salt input.password
            role
            enabled := true
            firstName := trim (input.firstName.getD [])
            lastName := trim (input.lastName.getD [])
            email := trim (input.email.getD []) }

/-- `PATCH /api/users/{username}` -/
def updateUser (username : Text) (input : UpdateUserInput) (salt : Text) : UserCall := .find (trim username) input salt

/-- `DELETE /api/users/{username}` -/
def deleteUser (username : Text) : UserCall := .guardUser (.delete (trim username))

/-- An update whose account is found, up to its next call into the store. -/
def UpdateUserInput.check (username : Text) (input : UpdateUserInput) (salt : Text) : UserCall :=
  match input.password.bind (validateUsernamePassword username) with
  | some response => .answered response
  | none =>
      match input.role.elim (.ok none) fun role => (parseRole role).map some with
      | .error response => .answered response
      | .ok role =>
          let change : UserChange :=
            { username
              passwordHash := input.password.map (passwords.hash salt)
              role
              enabled := input.enabled
              firstName := input.firstName.map trim
              lastName := input.lastName.map trim
              email := input.email.map trim }
          if role = some .viewer ∨ input.enabled = some false then .guardUser (.update change) else change.first

/-- A call that the database may fail. -/
def attempt {α : Type} (fault : Option DaygleError) (result : Except DaygleError α) : Except DaygleError α :=
  match fault with
  | some error => .error error
  | none => result

/-- A write: the request goes on with `next`, or answers with the error. -/
def UserCall.write (fault : Option DaygleError) (users : ConsoleUsers) (result : Except DaygleError ConsoleUsers)
    (next : UserCall) : UserCall × ConsoleUsers :=
  match attempt fault result with
  | .ok changed => (next, changed)
  | .error e => (.answered (mapErr e), users)

/-- A read: the request goes on by what it sees. -/
def UserCall.read {α : Type} (fault : Option DaygleError) (users : ConsoleUsers) (seen : α) (next : α → UserCall) :
    UserCall × ConsoleUsers :=
  match attempt fault (.ok seen) with
  | .ok seen => (next seen, users)
  | .error e => (.answered (mapErr e), users)

/-- One call of a request into the store. -/
def UserCall.act (users : ConsoleUsers) (fault : Option DaygleError) : UserCall → UserCall × ConsoleUsers
  | .findNew username input => read fault users (users.get username) fun existing =>
      if existing.isSome then .answered ⟨409, "username already exists".toList⟩ else .create username input
  | .create username input =>
      write fault users ((users.createConsoleUser username input).map Prod.snd) (.answered ⟨200, []⟩)
  | .find username input salt => read fault users (users.get username) fun existing =>
      if existing.isNone then .answered ⟨404, "user not found".toList⟩ else input.check passwords username salt
  | .guardUser guarded => read fault users (users.get guarded.username) fun user =>
      match user with
      | none => .answered ⟨404, "user not found".toList⟩
      | some user => if user.isEnabledAdmin then .guardCount guarded else guarded.proceed
  | .guardCount guarded => read fault users users.countEnabledAdmins fun enabledAdmins =>
      if enabledAdmins ≤ 1 then .answered ⟨409, "cannot remove the last enabled admin account".toList⟩
      else guarded.proceed
  | .setPassword change passwordHash _ =>
      write fault users (users.setConsoleUserPassword change.username passwordHash) change.afterPassword
  | .setRole change role _ => write fault users (users.setConsoleUserRole change.username role) change.afterRole
  | .setEnabled change enabled _ => write fault users (users.setConsoleUserEnabled change.username enabled) change.afterEnabled
  | .setProfile change =>
      write fault users (users.setConsoleUserProfile change.username change.firstName change.lastName change.email)
        change.afterProfile
  | .revoke change => (.reread change, users)
  -- Where the account is gone by now, the handler panics.
  | .reread change => read fault users (users.get change.username) fun user =>
      .answered (if user.isSome then ⟨200, []⟩ else ⟨500, []⟩)
  | .delete username =>
      match attempt fault (users.deleteConsoleUser username) with
      | .ok (true, changed) => (.revokeDeleted username, changed)
      | .ok (false, changed) => (.answered ⟨404, "user not found".toList⟩, changed)
      | .error e => (.answered (mapErr e), users)
  | .revokeDeleted _ => (.answered ⟨204, []⟩, users)
  | .answered response => (.answered response, users)

/-- The store and the requests under way. -/
structure UserDesk where
  users : ConsoleUsers
  calls : List UserCall

inductive UserInput where
  | create (input : CreateUserInput) (salt : Text)
  | update (username : Text) (input : UpdateUserInput) (salt : Text)
  | delete (username : Text)
  | step (call : Nat) (fault : Option DaygleError)

def UserDesk.step (desk : UserDesk) : UserInput → UserDesk
  | .create input salt => { desk with calls := desk.calls ++ [createUser passwords input salt] }
  | .update username input salt => { desk with calls := desk.calls ++ [updateUser username input salt] }
  | .delete username => { desk with calls := desk.calls ++ [deleteUser username] }
  | .step i fault =>
      match desk.calls[i]? with
      | some call =>
          let next := call.act passwords desk.users fault
          ⟨next.2, desk.calls.set i next.1⟩
      | none => desk

end Requests

end DaygleDns.Console
