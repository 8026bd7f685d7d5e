import DaygleDns.Console.UserRequests

/-! Login sessions: how they are granted, and the requests that end them. Between two steps of
a request the console does the steps of others. -/
namespace DaygleDns.Console

open Text Authoritative

/-- What the hash of a random token stands for. -/
abbrev Token := Nat

/-- `revision` is the state of the account the session was granted on; the server does not
keep it. -/
structure Session where
  token : Token
  username : Text
  role : Role
  revision : Nat

/-- What an account can be logged in on. -/
def ConsoleUsers.credentials (users : ConsoleUsers) (username : Text) : Option (Text × Role × Bool) :=
  (users.get username).map fun user => (user.passwordHash, user.role, user.enabled)

/-- What a request has made of an account: of which revision it is since, and which session the
request lets live. -/
structure Revision where
  username : Text
  revision : Nat
  kept : Option Token

structure LogoutInput where
  token : Token
  fromCookie : Bool
  hasConsoleHeader : Bool

structure ChangePasswordInput where
  token : Token
  currentPassword : Text
  newPassword : Text

/-- Where a request is. -/
inductive ConsoleCall where
  | managed (call : UserCall)
  | loginFind (username password : Text)
  | loginVerify (user : Option ConsoleUser) (revision : Nat) (password : Text)
  | loginTwoFactor (user : ConsoleUser) (revision : Nat)
  | loginTouch (user : ConsoleUser) (revision : Nat)
  | loginCreate (user : ConsoleUser) (revision : Nat)
  | logoutAuth (input : LogoutInput) (issued : Bool)
  | logoutRevoke (token : Token) (issued : Bool)
  | loggedOut (token : Token) (issued : Bool) (response : Response)
  | passwordSession (input : ChangePasswordInput) (salt : Text)
  | passwordFind (session : Session) (input : ChangePasswordInput) (salt : Text)
  | passwordConfirm (session : Session) (user : ConsoleUser) (input : ChangePasswordInput) (salt : Text)
  | passwordSet (session : Session) (token : Token) (passwordHash : Text)
  | passwordRevoke (session : Session) (token : Token)
  | answered (response : Response)

/-- A request and what it has made of the account it is about. -/
structure Request where
  call : ConsoleCall
  change : Option Revision

/-- `openAccess` where `api.auth_required` is off and there is no static token; the next token
is one never given out. -/
structure ConsoleState where
  users : ConsoleUsers
  sessions : List Session
  nextToken : Token
  openAccess : Bool
  revision : Text → Nat
  requests : List Request

def unauthorized (error : Text) : Response := ⟨401, error⟩

/-- The throttle of failed logins. -/
def throttledResponse : Response := ⟨429, "too many failed login attempts; try again later".toList⟩

section Steps

variable (passwords : Passwords)

/-- `SessionStore::verify` -/
def ConsoleState.verify (console : ConsoleState) (token : Token) : Option Session :=
  console.sessions.find? fun session => session.token == token

/-- What `require_auth` answers to a logout, if it does not let it through. -/
def ConsoleState.refusesLogout (console : ConsoleState) (fault : Option DaygleError) (input : LogoutInput) : Option Response :=
  if fault.isNone && console.users.rows.isEmpty then
    if console.openAccess then none else some (unauthorized "initial setup required".toList)
  else match console.verify input.token with
    | none => some (unauthorized "authentication required".toList)
    | some session =>
        if input.fromCookie && !input.hasConsoleHeader then
          some ⟨403, "cross-site request refused: missing the console's request header".toList⟩
        else if session.role = .viewer then
          some ⟨403, "read-only account: mutations require the admin role".toList⟩
        else none

/-- The checks of a password change behind the one of the current password. -/
def ChangePasswordInput.refused (input : ChangePasswordInput) : Option Response :=
  if input.newPassword.length < 8 ∨ maxPasswordLen < utf8Len input.newPassword then
    some ⟨400, "new password must be 8-1024 characters".toList⟩
  else if input.newPassword = input.currentPassword then
    some ⟨400, "new password must differ from the current password".toList⟩
  else none

/-- `SessionStore::revoke_user` and `SessionStore::revoke_user_except` -/
def revokeUser (sessions : List Session) (username : Text) (kept : Option Token) : List Session :=
  sessions.filter fun session => session.username != username || kept == some session.token

/-- The next step of a request: where it is then, the accounts, the sessions and the next
token. `refuses` is what the throttle says or, at its step, the two-factor check. -/
def ConsoleCall.act (console : ConsoleState) (fault : Option DaygleError) (refuses : Bool) :
    ConsoleCall → ConsoleCall × ConsoleUsers × List Session × Token
  | .managed call =>
      let next := call.act passwords console.users fault
      let sessions := match call with
        | .revoke change => revokeUser console.sessions change.username none
        | .revokeDeleted username => revokeUser console.sessions username none
        | _ => console.sessions
      (.managed next.1, next.2, sessions, console.nextToken)
  | .loginFind username password =>
      if refuses then stays (.answered throttledResponse)
      else match fault with
        | some e => stays (.answered (mapErr e))
        | none => stays (.loginVerify (console.users.get username) (console.revision username) password)
  | .loginVerify user revision password =>
      if refuses then stays (.answered throttledResponse)
      else match user with
        | some user =>
            if user.enabled && passwords.verify password user.passwordHash then stays (.loginTwoFactor user revision)
            else stays (.answered (unauthorized "invalid username or password".toList))
        | none => stays (.answered (unauthorized "invalid username or password".toList))
  | .loginTwoFactor user revision =>
      match fault with
      | some e => stays (.answered (mapErr e))
      | none =>
          if refuses then stays (.answered (unauthorized "that code is not right, or was already used".toList))
          else stays (.loginTouch user revision)
  | .loginTouch user revision =>
      match fault with
      | some e => stays (.answered (mapErr e))
      | none =>
          if console.users.contains user.username then stays (.loginCreate user revision)
          else stays (.answered (mapErr (.notFound ("user '".toList ++ user.username ++ ['\x27']))))
  | .loginCreate user revision =>
      (.answered ⟨200, []⟩, console.users, ⟨console.nextToken, user.username, user.role, revision⟩ :: console.sessions,
        console.nextToken + 1)
  | .logoutAuth input issued =>
      match console.refusesLogout fault input with
      | some response => stays (.loggedOut input.token issued response)
      | none => stays (.logoutRevoke input.token issued)
  | .logoutRevoke token issued =>
      (.loggedOut token issued ⟨204, []⟩, console.users, console.sessions.filter (fun session => session.token != token),
        console.nextToken)
  | .loggedOut token issued response => stays (.loggedOut token issued response)
  | .passwordSession input salt =>
      match console.verify input.token with
      | none => stays (.answered (unauthorized "not authenticated".toList))
      | some session => stays (.passwordFind session input salt)
  | .passwordFind session input salt =>
      match attempt fault (.ok (console.users.get session.username)) with
      | .error e => stays (.answered (mapErr e))
      | .ok none => stays (.answered ⟨404, "account no longer exists".toList⟩)
      | .ok (some user) =>
          if user.enabled then stays (.passwordConfirm session user input salt)
          else stays (.answered ⟨403, "account is disabled".toList⟩)
  | .passwordConfirm session user input salt =>
      if refuses then stays (.answered throttledResponse)
      else if maxPasswordLen < utf8Len input.currentPassword ∨ !passwords.verify input.currentPassword user.passwordHash then
        stays (.answered (unauthorized "current password is incorrect".toList))
      else match input.refused with
        | some response => stays (.answered response)
        | none => stays (.passwordSet session input.token (passwords.hash salt input.newPassword))
  | .passwordSet session token passwordHash =>
      match attempt fault (console.users.setConsoleUserPassword session.username passwordHash) with
      | .ok users => (.passwordRevoke session token, users, console.sessions, console.nextToken)
      | .error e => stays (.answered (mapErr e))
  -- This session survives.
  | .passwordRevoke session token =>
      (.answered ⟨204, []⟩, console.users, revokeUser console.sessions session.username (some token), console.nextToken)
  | .answered response => stays (.answered response)
where
  stays (next : ConsoleCall) : ConsoleCall × ConsoleUsers × List Session × Token :=
    (next, console.users, console.sessions, console.nextToken)

/-- The account whose revocation a call is on the way to, and the session that may go on. -/
def ConsoleCall.subject : ConsoleCall → Option (Text × Option Token)
  | .managed (.setPassword change _ _) | .managed (.setRole change _ _) | .managed (.setEnabled change _ _) =>
      some (change.username, none)
  | .managed (.delete username) => some (username, none)
  | .passwordSet session token _ => some (session.username, some token)
  | _ => none

/-- An account is of another revision when what it can be logged in on has changed. -/
def reviseAll (revision : Text → Nat) (users changed : ConsoleUsers) (username : Text) : Nat :=
  if users.credentials username = changed.credentials username then revision username else revision username + 1

/-- What the request has made of its account, after a step. -/
def Request.noted (request : Request) (revision : Text → Nat) (users changed : ConsoleUsers) : Option Revision :=
  match request.call.subject with
  | some (username, kept) =>
      if users.credentials username = changed.credentials username then request.change
      else some ⟨username, reviseAll revision users changed username, kept⟩
  | none => request.change

inductive ConsoleInput where
  | update (username : Text) (input : UpdateUserInput) (salt : Text)
  | delete (username : Text)
  | login (username password : Text)
  | logout (input : LogoutInput)
  | changePassword (input : ChangePasswordInput) (salt : Text)
  /-- The session's time is over. -/
  | expire (token : Token)
  | step (request : Nat) (fault : Option DaygleError) (refuses : Bool)

/-- A login up to its first step. -/
def authLogin (username password : Text) : ConsoleCall :=
  if 256 < utf8Len username ∨ maxPasswordLen < utf8Len password then
    .answered (unauthorized "invalid username or password".toList)
  else .loginFind (trim username) password

def ConsoleState.begin (console : ConsoleState) (call : ConsoleCall) : ConsoleState :=
  { console with requests := console.requests ++ [⟨call, none⟩] }

def ConsoleState.step (console : ConsoleState) : ConsoleInput → ConsoleState
  | .update username input salt => console.begin (.managed (updateUser username input salt))
  | .delete username => console.begin (.managed (deleteUser username))
  | .login username password => console.begin (authLogin username password)
  | .logout input => console.begin (.logoutAuth input (decide (input.token < console.nextToken)))
  | .changePassword input salt => console.begin (.passwordSession input salt)
  | .expire token => { console with sessions := console.sessions.filter fun session => session.token != token }
  | .step i fault refuses =>
      match console.requests[i]? with
      | some request =>
          let next := request.call.act passwords console fault refuses
          { console with
            users := next.2.1
            sessions := next.2.2.1
            nextToken := next.2.2.2
            revision := reviseAll console.revision console.users next.2.1
            requests := console.requests.set i
              ⟨next.1, request.noted console.revision console.users next.2.1⟩ }
      | none => console

end Steps

end DaygleDns.Console
