import DaygleDns.Console.LastAdmin
import DaygleDns.Console.Sessions
import DaygleDns.Runs

/-! Revoked access: which runs keep sessions of earlier states of an account, and sessions that
are logged out, from going on. -/
namespace DaygleDns.Console

open Text Authoritative Runs

/-- No session goes on that was granted on an earlier state of the account. -/
def Revision.Cleared (change : Revision) (sessions : List Session) : Prop :=
  ∀ session ∈ sessions, session.username = change.username →
    change.revision ≤ session.revision ∨ change.kept = some session.token

/-- What a request that has answered has made of its account. -/
def Request.answered (request : Request) : Option Revision :=
  match request.call with
  | .managed (.answered _) | .answered _ => request.change
  | _ => none

/-- The same of a request that has revoked the sessions. -/
def Request.settled (request : Request) : Option Revision :=
  match request.call with
  | .managed (.reread _) | .managed (.answered _) | .answered _ => request.change
  | _ => none

/-- A session that had been issued when its logout was asked for is gone when that is answered. -/
def Request.LoggedOut (request : Request) (sessions : List Session) : Prop :=
  match request.call with
  | .loggedOut token true _ => ∀ session ∈ sessions, session.token ≠ token
  | _ => True

instance decidableCleared (change : Revision) (sessions : List Session) : Decidable (change.Cleared sessions) :=
  inferInstanceAs (Decidable (∀ session ∈ sessions, _))

instance decidableLoggedOut (request : Request) (sessions : List Session) : Decidable (request.LoggedOut sessions) := by
  unfold Request.LoggedOut
  split <;> infer_instance

/-- Access that is revoked stays revoked. -/
def ConsoleState.Revoked (console : ConsoleState) : Prop :=
  ∀ request ∈ console.requests,
    (∀ change ∈ request.answered, change.Cleared console.sessions) ∧ request.LoggedOut console.sessions

instance decidableRevoked (console : ConsoleState) : Decidable console.Revoked := inferInstanceAs (Decidable (∀ request ∈ console.requests, _))

/-- The store does as it is told. -/
def accepts (fault : Option DaygleError) (result : Except DaygleError ConsoleUsers) : Bool := (attempt fault result).isOk

/-- The request, about to go on, does not leave a session behind by what it does next. -/
def Request.Spares (request : Request) (console : ConsoleState) (fault : Option DaygleError) : Prop :=
  match request.call with
  -- An update that has changed the account is not cut off before it revokes the sessions.
  | .managed (.setPassword change passwordHash _) =>
      request.change.isSome → accepts fault (console.users.setConsoleUserPassword change.username passwordHash)
  | .managed (.setRole change role _) =>
      request.change.isSome → accepts fault (console.users.setConsoleUserRole change.username role)
  | .managed (.setEnabled change enabled _) =>
      request.change.isSome → accepts fault (console.users.setConsoleUserEnabled change.username enabled)
  | .managed (.setProfile change) => request.change.isSome →
      accepts fault (console.users.setConsoleUserProfile change.username change.firstName change.lastName change.email)
  -- A login grants nothing on a state of the account whose sessions have been revoked.
  | .loginCreate user revision =>
      ∀ other ∈ console.requests, ∀ change ∈ other.settled, change.username = user.username → change.revision ≤ revision
  -- A session that is there is let through to its logout.
  | .logoutAuth input _ => (∃ session ∈ console.sessions, session.token = input.token) → console.refusesLogout fault input = none
  | _ => True

instance decidableRequestSpares (request : Request) (console : ConsoleState) (fault : Option DaygleError) : Decidable (request.Spares console fault) := by
  unfold Request.Spares
  split <;> infer_instance

def ConsoleState.Meets (console : ConsoleState) : ConsoleInput → Prop
  | .step i fault _ => ∀ request ∈ console.requests[i]?, request.Spares console fault
  | _ => True

instance decidableConsoleMeets (console : ConsoleState) (input : ConsoleInput) : Decidable (console.Meets input) := by
  unfold ConsoleState.Meets
  split <;> infer_instance

/-- What a request promises at the place where it is, of an account it has changed. -/
def ConsoleCall.Owes (sessions : List Session) (change : Revision) : ConsoleCall → Prop
  | .managed (.setPassword target _ _) | .managed (.setRole target _ _) | .managed (.setEnabled target _ _) |
    .managed (.revoke target) => change.username = target.username
  | .managed (.setProfile target) => change.username = target.username ∧ target.revokes = true
  | .managed (.revokeDeleted username) => change.username = username
  | .passwordRevoke session token => change.username = session.username ∧ change.kept = some token
  | .managed (.reread _) | .managed (.answered _) | .answered _ => change.Cleared sessions
  | _ => False

/-- And of the session it logs out. -/
def ConsoleCall.Ends (sessions : List Session) (nextToken : Token) : ConsoleCall → Prop
  | .logoutAuth input true => input.token < nextToken
  | .logoutRevoke token true => token < nextToken
  | .loggedOut token true _ => token < nextToken ∧ ∀ session ∈ sessions, session.token ≠ token
  | _ => True

structure Request.Sound (request : Request) (console : ConsoleState) : Prop where
  owes : ∀ change ∈ request.change, request.call.Owes console.sessions change
  ends : request.call.Ends console.sessions console.nextToken

def ConsoleState.Sound (console : ConsoleState) : Prop := ∀ request ∈ console.requests, request.Sound console

variable {console : ConsoleState} {request : Request}

theorem ConsoleState.Sound.revoked (h : console.Sound) : console.Revoked := by
  intro request hrequest
  have hsound := h request hrequest
  constructor
  · intro change hchange
    unfold Request.answered at hchange
    split at hchange
    · rename_i hcall
      have howes := hsound.owes change hchange
      rw [hcall] at howes
      exact howes
    · rename_i hcall
      have howes := hsound.owes change hchange
      rw [hcall] at howes
      exact howes
    · cases hchange
  · unfold Request.LoggedOut
    split
    · rename_i hcall
      have hends := hsound.ends
      rw [hcall] at hends
      exact hends.2
    · trivial

/-- No session is new. -/
def Shrinks (first second : ConsoleState) : Prop :=
  second.sessions ⊆ first.sessions ∧ first.nextToken ≤ second.nextToken

theorem Revision.Cleared.shrink {change : Revision} {first second : List Session} (h : change.Cleared first)
    (hsub : second ⊆ first) : change.Cleared second :=
  fun session hsession => h session (hsub hsession)

theorem owes_shrink {call : ConsoleCall} {change : Revision} {first second : List Session} (h : call.Owes first change)
    (hsub : second ⊆ first) : call.Owes second change := by
  unfold ConsoleCall.Owes at h ⊢
  split at h <;> first | exact h | exact h.shrink hsub

theorem ends_shrink {call : ConsoleCall} {first second : List Session} {token later : Token} (h : call.Ends first token)
    (hsub : second ⊆ first) (hle : token ≤ later) : call.Ends second later := by
  unfold ConsoleCall.Ends at h ⊢
  split at h
  · exact lt_of_lt_of_le h hle
  · exact lt_of_lt_of_le h hle
  · exact ⟨lt_of_lt_of_le h.1 hle, fun session hsession => h.2 session (hsub hsession)⟩
  · trivial

theorem Request.Sound.shrink {second : ConsoleState} (h : request.Sound console) (hshrinks : Shrinks console second) :
    request.Sound second :=
  ⟨fun change hchange => owes_shrink (h.owes change hchange) hshrinks.1, ends_shrink h.ends hshrinks.1 hshrinks.2⟩

section Updates

variable {target : UserChange} {change : Revision} {sessions : List Session}

theorem owes_afterProfile (hrevokes : target.revokes = true) (h : change.username = target.username) :
    (ConsoleCall.managed target.afterProfile).Owes sessions change := by
  rw [UserChange.afterProfile, if_pos hrevokes]
  exact h

theorem owes_afterEnabled (hrevokes : target.revokes = true) (h : change.username = target.username) :
    (ConsoleCall.managed target.afterEnabled).Owes sessions change := by
  unfold UserChange.afterEnabled
  split
  · exact ⟨h, hrevokes⟩
  · exact owes_afterProfile hrevokes h

theorem owes_afterRole (hrevokes : target.revokes = true) (h : change.username = target.username) :
    (ConsoleCall.managed target.afterRole).Owes sessions change := by
  unfold UserChange.afterRole
  split
  · exact h
  · exact owes_afterEnabled hrevokes h

theorem owes_afterPassword (hrevokes : target.revokes = true) (h : change.username = target.username) :
    (ConsoleCall.managed target.afterPassword).Owes sessions change := by
  unfold UserChange.afterPassword
  split
  · exact h
  · exact owes_afterRole hrevokes h

end Updates

theorem cleared_revokeUser {change : Revision} {sessions : List Session} {username : Text} {kept : Option Token}
    (husername : change.username = username) (hkept : kept.isSome → change.kept = kept) :
    change.Cleared (revokeUser sessions username kept) := by
  intro session hsession hsame
  have hkeep := (List.mem_filter.mp hsession).2
  rw [husername] at hsame
  simp only [hsame, bne_self_eq_false, Bool.false_or, beq_iff_eq] at hkeep
  right
  rw [hkept (by rw [hkeep]; rfl), hkeep]

variable (passwords : Passwords) {fault : Option DaygleError} {refuses : Bool}

/-- All but the grant of a session. -/
theorem act_shrinks {call : ConsoleCall} (h : ∀ user revision, call ≠ .loginCreate user revision) :
    (call.act passwords console fault refuses).2.2.1 ⊆ console.sessions ∧
      console.nextToken ≤ (call.act passwords console fault refuses).2.2.2 := by
  cases call with
  | managed call =>
    refine ⟨?_, le_refl _⟩
    cases call with
    | revoke change => exact List.filter_sublist.subset
    | revokeDeleted username => exact List.filter_sublist.subset
    | _ => exact List.Subset.refl _
  | loginCreate user revision => exact absurd rfl (h user revision)
  | logoutRevoke token issued => exact ⟨List.filter_sublist.subset, le_refl _⟩
  | passwordRevoke session token => exact ⟨List.filter_sublist.subset, le_refl _⟩
  | _ =>
    simp only [ConsoleCall.act, ConsoleCall.act.stays]
    repeat' split
    all_goals exact ⟨List.Subset.refl _, le_refl _⟩

/-- The account a step has changed is the one the request is about. -/
theorem noted_cases {revision : Text → Nat} {users changed : ConsoleUsers} {change : Revision}
    (h : change ∈ request.noted revision users changed) :
    change ∈ request.change ∨ ∃ username kept, request.call.subject = some (username, kept) ∧ users ≠ changed ∧
      change.username = username ∧ change.kept = kept := by
  unfold Request.noted at h
  cases hsubject : request.call.subject with
  | none =>
    simp only [hsubject] at h
    exact .inl h
  | some subject =>
    simp only [hsubject] at h
    split at h
    · exact .inl h
    · rename_i hcredentials
      cases h
      refine .inr ⟨subject.1, subject.2, rfl, ?_, rfl, rfl⟩
      rintro rfl
      exact hcredentials rfl

theorem deleted_of_ok {users changed : ConsoleUsers} {username : Text} {deleted : Bool}
    (h : attempt fault (users.deleteConsoleUser username) = .ok (deleted, changed)) : deleted = true := by
  cases fault with
  | some e => cases h
  | none =>
    unfold attempt ConsoleUsers.deleteConsoleUser at h
    cases hget : users.get username with
    | none => simp [hget] at h
    | some user =>
      simp only [hget] at h
      split at h
      · cases h
      · cases h
        rfl

/-- A write either takes the request on, or leaves the accounts and answers. -/
theorem write_cases (fault : Option DaygleError) (users : ConsoleUsers) (result : Except DaygleError ConsoleUsers)
    (next : UserCall) :
    (∃ changed, UserCall.write fault users result next = (next, changed)) ∨
      (accepts fault result = false ∧ ∃ response, UserCall.write fault users result next = (.answered response, users)) := by
  unfold UserCall.write accepts
  cases hresult : attempt fault result with
  | ok changed => exact .inl ⟨changed, rfl⟩
  | error e => exact .inr ⟨rfl, mapErr e, rfl⟩

/-- A write of an update that revokes: the account's sessions are owed whatever was written. -/
theorem owes_write {result : Except DaygleError ConsoleUsers} {next : UserCall} {change : Revision} {sessions : List Session}
    (hnext : (ConsoleCall.managed next).Owes sessions change)
    (hwritten : accepts fault result = true ∨ (UserCall.write fault console.users result next).2 ≠ console.users) :
    (ConsoleCall.managed (UserCall.write fault console.users result next).1).Owes sessions change := by
  rcases write_cases fault console.users result next with hwrite | hwrite
  · obtain ⟨changed, hwrite⟩ := hwrite
    rw [hwrite]
    exact hnext
  · obtain ⟨hrefused, response, hwrite⟩ := hwrite
    rw [hwrite, hrefused] at hwritten
    exact absurd hwritten (by simp)

/-- What a request has made of its account before the step. -/
theorem owes_act_earlier {call : ConsoleCall} {change : Revision} (h : call.Owes console.sessions change)
    (hspares : (⟨call, some change⟩ : Request).Spares console fault) :
    (call.act passwords console fault refuses).1.Owes (call.act passwords console fault refuses).2.2.1 change := by
  cases call with
  | managed call =>
    cases call with
    | setPassword target passwordHash hset =>
      exact owes_write (owes_afterPassword (by simp [UserChange.revokes, hset]) h) (.inl (hspares rfl))
    | setRole target role hset =>
      exact owes_write (owes_afterRole (by simp [UserChange.revokes, hset]) h) (.inl (hspares rfl))
    | setEnabled target enabled hset =>
      exact owes_write (owes_afterEnabled (by simp [UserChange.revokes, hset]) h) (.inl (hspares rfl))
    | setProfile target => exact owes_write (owes_afterProfile h.2 h.1) (.inl (hspares rfl))
    | revoke target => exact cleared_revokeUser h (by simp)
    | revokeDeleted username => exact cleared_revokeUser h (by simp)
    | reread target => cases fault <;> exact h
    | answered response => exact h
    | findNew _ _ => exact h.elim
    | create _ _ => exact h.elim
    | find _ _ _ => exact h.elim
    | guardUser _ => exact h.elim
    | guardCount _ => exact h.elim
    | delete _ => exact h.elim
  | passwordRevoke session token => exact cleared_revokeUser h.1 fun _ => h.2
  | answered response => exact h
  | loginFind _ _ => exact h.elim
  | loginVerify _ _ _ => exact h.elim
  | loginTwoFactor _ _ => exact h.elim
  | loginTouch _ _ => exact h.elim
  | loginCreate _ _ => exact h.elim
  | logoutAuth _ _ => exact h.elim
  | logoutRevoke _ _ => exact h.elim
  | loggedOut _ _ _ => exact h.elim
  | passwordSession _ _ => exact h.elim
  | passwordFind _ _ _ => exact h.elim
  | passwordConfirm _ _ _ _ => exact h.elim
  | passwordSet _ _ _ => exact h.elim

/-- What it makes of the account in the step. -/
theorem owes_act_new {call : ConsoleCall} {change : Revision} {username : Text} {kept : Option Token}
    (hsubject : call.subject = some (username, kept))
    (hchanged : console.users ≠ (call.act passwords console fault refuses).2.1) (hname : change.username = username)
    (hkept : change.kept = kept) :
    (call.act passwords console fault refuses).1.Owes (call.act passwords console fault refuses).2.2.1 change := by
  cases call with
  | managed call =>
    cases call with
    | setPassword target passwordHash hset =>
      cases hsubject
      exact owes_write (owes_afterPassword (by simp [UserChange.revokes, hset]) hname) (.inr hchanged.symm)
    | setRole target role hset =>
      cases hsubject
      exact owes_write (owes_afterRole (by simp [UserChange.revokes, hset]) hname) (.inr hchanged.symm)
    | setEnabled target enabled hset =>
      cases hsubject
      exact owes_write (owes_afterEnabled (by simp [UserChange.revokes, hset]) hname) (.inr hchanged.symm)
    | delete gone =>
      cases hsubject
      simp only [ConsoleCall.act, UserCall.act] at hchanged ⊢
      cases hdelete : attempt fault (console.users.deleteConsoleUser username) with
      | error e =>
        rw [hdelete] at hchanged
        exact absurd rfl hchanged
      | ok deleted =>
        obtain ⟨found, changed⟩ := deleted
        cases found with
        | true => exact hname
        | false => exact absurd (deleted_of_ok hdelete) Bool.false_ne_true
    | findNew _ _ => cases hsubject
    | create _ _ => cases hsubject
    | find _ _ _ => cases hsubject
    | guardUser _ => cases hsubject
    | guardCount _ => cases hsubject
    | setProfile _ => cases hsubject
    | revoke _ => cases hsubject
    | reread _ => cases hsubject
    | revokeDeleted _ => cases hsubject
    | answered _ => cases hsubject
  | passwordSet session token passwordHash =>
    cases hsubject
    simp only [ConsoleCall.act] at hchanged ⊢
    cases hset : attempt fault (console.users.setConsoleUserPassword session.username passwordHash) with
    | error e =>
      rw [hset] at hchanged
      exact absurd rfl hchanged
    | ok changed => exact ⟨hname, hkept⟩
  | _ => cases hsubject

/-- The session a request logs out. -/
theorem ends_act (h : request.call.Ends console.sessions console.nextToken) (hspares : request.Spares console fault) :
    (request.call.act passwords console fault refuses).1.Ends (request.call.act passwords console fault refuses).2.2.1
      (request.call.act passwords console fault refuses).2.2.2 := by
  cases hcall : request.call with
  | logoutAuth input issued =>
    rw [hcall] at h
    simp only [Request.Spares, hcall] at hspares
    simp only [ConsoleCall.act]
    cases hrefuses : console.refusesLogout fault input with
    | none => cases issued <;> exact h
    | some response =>
      cases issued with
      | false => trivial
      | true =>
        refine ⟨h, fun session hsession htoken => ?_⟩
        rw [hspares ⟨session, hsession, htoken⟩] at hrefuses
        cases hrefuses
  | logoutRevoke token issued =>
    rw [hcall] at h
    cases issued with
    | false => trivial
    | true =>
      refine ⟨h, fun session hsession => ?_⟩
      have hkeep := (List.mem_filter.mp hsession).2
      simpa using hkeep
  | loggedOut token issued response =>
    rw [hcall] at h
    exact h
  | managed call => trivial
  | loginCreate user revision => trivial
  | passwordRevoke session token => trivial
  | answered response => trivial
  | _ =>
    simp only [ConsoleCall.act, ConsoleCall.act.stays]
    repeat' split
    all_goals trivial

/-- A session that is granted is of a revision no revocation is behind. -/
theorem sound_grant {session : Session} (h : request.Sound console) (htoken : session.token = console.nextToken)
    (hsettled : ∀ change ∈ request.settled, change.username = session.username → change.revision ≤ session.revision)
    {second : ConsoleState} (hsessions : second.sessions = session :: console.sessions)
    (hnext : console.nextToken ≤ second.nextToken) : request.Sound second := by
  constructor
  · intro change hchange
    have howes := h.owes change hchange
    have hcleared : change ∈ request.settled → change.Cleared console.sessions → change.Cleared second.sessions := by
      intro hmem hold other hother hsame
      rw [hsessions, List.mem_cons] at hother
      cases hother with
      | inl hnew =>
        rw [hnew] at hsame ⊢
        exact .inl (hsettled change hmem hsame.symm)
      | inr hother => exact hold other hother hsame
    unfold Request.settled at hcleared
    unfold ConsoleCall.Owes at howes ⊢
    split at howes <;> rename_i hcall <;> simp only [hcall] at hcleared ⊢ <;>
      first | exact howes | exact hcleared hchange howes
  · have hends := h.ends
    unfold ConsoleCall.Ends at hends ⊢
    split at hends
    · exact lt_of_lt_of_le hends hnext
    · exact lt_of_lt_of_le hends hnext
    · refine ⟨lt_of_lt_of_le hends.1 hnext, fun other hother => ?_⟩
      rw [hsessions, List.mem_cons] at hother
      cases hother with
      | inl hnew =>
        rw [hnew, htoken]
        exact hends.1.ne'
      | inr hother => exact hends.2 other hother
    · trivial

/-- The request that takes the step. -/
theorem sound_act (h : request.Sound console) (hspares : request.Spares console fault) {second : ConsoleState}
    (hsessions : second.sessions = (request.call.act passwords console fault refuses).2.2.1)
    (hnext : second.nextToken = (request.call.act passwords console fault refuses).2.2.2) :
    Request.Sound
      ⟨(request.call.act passwords console fault refuses).1,
        request.noted console.revision console.users (request.call.act passwords console fault refuses).2.1⟩ second := by
  constructor
  · intro change hchange
    simp only [hsessions]
    cases noted_cases hchange with
    | inl hold =>
      apply owes_act_earlier passwords (h.owes change hold)
      rw [← show request.change = some change from hold]
      exact hspares
    | inr hnew =>
      obtain ⟨username, kept, hsubject, hchanged, hname, hkept⟩ := hnew
      exact owes_act_new passwords hsubject hchanged hname hkept
  · rw [hsessions, hnext]
    exact ends_act passwords h.ends hspares

theorem sound_begin (h : console.Sound) {call : ConsoleCall} (hends : call.Ends console.sessions console.nextToken) :
    (console.begin call).Sound := by
  intro request hrequest
  cases List.mem_append.mp hrequest with
  | inl hold => exact (h request hold).shrink ⟨List.Subset.refl _, le_refl _⟩
  | inr hnew =>
    rw [List.mem_singleton.mp hnew]
    exact ⟨fun change hchange => absurd hchange (by simp), hends⟩

theorem sound_step (h : console.Sound) (input : ConsoleInput) (hmeets : console.Meets input) :
    (console.step passwords input).Sound := by
  cases input with
  | update username input salt => exact sound_begin h trivial
  | delete username => exact sound_begin h trivial
  | login username password =>
    apply sound_begin h
    unfold authLogin
    split <;> trivial
  | logout input =>
    apply sound_begin h
    cases hissued : decide (input.token < console.nextToken) with
    | true =>
      have hlt : input.token < console.nextToken := of_decide_eq_true hissued
      exact hlt
    | false => trivial
  | changePassword input salt => exact sound_begin h trivial
  | expire token =>
    intro request hrequest
    exact (h request hrequest).shrink ⟨List.filter_sublist.subset, le_refl _⟩
  | step i fault refuses =>
    cases hget : console.requests[i]? with
    | none =>
      simp only [ConsoleState.step, hget]
      exact h
    | some request =>
      have hspares : request.Spares console fault := hmeets request hget
      have hsound := h request (List.mem_of_getElem? hget)
      simp only [ConsoleState.step, hget]
      intro other hother
      cases List.mem_or_eq_of_mem_set hother with
      | inr hself =>
        rw [hself]
        exact sound_act passwords hsound hspares rfl rfl
      | inl hold =>
        by_cases hgrant : ∃ user revision, request.call = .loginCreate user revision
        · obtain ⟨user, revision, hcall⟩ := hgrant
          simp only [Request.Spares, hcall] at hspares
          have hsessions : (request.call.act passwords console fault refuses).2.2.1 =
              ⟨console.nextToken, user.username, user.role, revision⟩ :: console.sessions := by rw [hcall]; rfl
          have hnext : console.nextToken ≤ (request.call.act passwords console fault refuses).2.2.2 := by
            rw [hcall]
            exact Nat.le_succ _
          exact sound_grant (h other hold) rfl (hspares other hold) hsessions hnext
        · apply (h other hold).shrink
          apply act_shrinks
          intro user revision hcall
          exact hgrant ⟨user, revision, hcall⟩

/-- From any accounts and sessions, before the first request. -/
theorem revoked_of_each (passwords : Passwords) (start : ConsoleState) (hrequests : start.requests = []) (inputs : List ConsoleInput)
    (h : Each (ConsoleState.step passwords) ConsoleState.Meets start inputs) :
    Always (ConsoleState.step passwords) ConsoleState.Revoked start inputs := by
  have hstart : start.Sound := by
    intro request hrequest
    rw [hrequests] at hrequest
    cases hrequest
  have hsound := always_of_invariant ConsoleState.Sound
    (fun _ input hsound hmeets => sound_step passwords hsound input hmeets) inputs hstart h
  exact always_mono (fun _ hsound => hsound.revoked) hsound

def steps (request count : Nat) : List ConsoleInput := List.replicate count (.step request none false)

/-- A console before its first request. -/
def consoleOf (user : ConsoleUser) (sessions : List Session) : ConsoleState :=
  ⟨OrderedTable.empty.put user, sessions, sessions.length, false, fun _ => 0, []⟩

def resetAlice : ConsoleInput := .update "alice".toList { password := some "other word".toList } []

/-- A login, a new password that ends its session, a login with it, and its logout. -/
theorem revoked_in_turn :
    (consoleOf alice []).requests = [] ∧
      Always (ConsoleState.step .plain) ConsoleState.Revoked (consoleOf alice [])
        (.login "alice".toList "pass word".toList :: steps 0 5 ++ resetAlice :: steps 1 4 ++
          .login "alice".toList "other word".toList :: steps 2 5 ++ .logout ⟨1, true, true⟩ :: steps 3 2) :=
  ⟨rfl, revoked_of_each .plain (consoleOf alice []) rfl _ (by decide)⟩

def carol : ConsoleUser := ⟨"carol".toList, "pass word".toList, .viewer, true, [], [], []⟩

def carolSession : Session := ⟨0, "carol".toList, .viewer, 0⟩

/-- The password is changed while a login waits for its own to be checked; a viewer logs out; the
database fails an update between its two changes. -/
theorem revoked_fails :
    ¬Always (ConsoleState.step .plain) ConsoleState.Revoked (consoleOf alice [])
        (.login "alice".toList "pass word".toList :: steps 0 4 ++ resetAlice :: steps 1 4 ++ steps 0 1) ∧
      ¬Always (ConsoleState.step .plain) ConsoleState.Revoked (consoleOf carol [carolSession])
        (.logout ⟨0, false, true⟩ :: steps 0 1) ∧
      ¬Always (ConsoleState.step .plain) ConsoleState.Revoked (consoleOf carol [carolSession])
        (.update "carol".toList { password := some "other word".toList, role := some "admin".toList } [] :: steps 0 2 ++
          [.step 0 (some (.database "disk I/O error".toList)) false]) := by
  refine ⟨fun h => ?_, fun h => ?_, fun h => ?_⟩
  · have hlast := (always_iff_prefixes _ _ _).mp h _ (List.prefix_refl _)
    exact absurd hlast (by decide)
  · have hlast := (always_iff_prefixes _ _ _).mp h _ (List.prefix_refl _)
    exact absurd hlast (by decide)
  · have hlast := (always_iff_prefixes _ _ _).mp h _ (List.prefix_refl _)
    exact absurd hlast (by decide)

end DaygleDns.Console
