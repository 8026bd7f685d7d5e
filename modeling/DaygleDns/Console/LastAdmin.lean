import DaygleDns.Console.UserRequests
import DaygleDns.Runs

/-! The last enabled administrator: which runs of the requests keep one. -/
namespace DaygleDns.Console

open Text Authoritative Runs

variable (passwords : Passwords)

/-- The call does not overwrite the only enabled administrator by a viewer. -/
def UserCall.Spares (users : ConsoleUsers) (fault : Option DaygleError) : UserCall → Prop
  | .create username input =>
      fault.isSome ∨ isUsername username = false ∨ (input.role = .admin ∧ input.enabled = true) ∨ users.OtherAdmin username
  | _ => True

instance decidableSpares (users : ConsoleUsers) (fault : Option DaygleError) : ∀ call : UserCall, Decidable (call.Spares users fault)
  | .create username input =>
      inferInstanceAs (Decidable (fault.isSome ∨ isUsername username = false ∨ (input.role = .admin ∧ input.enabled = true) ∨
        users.OtherAdmin username))
  | .findNew .. | .find .. | .guardUser .. | .guardCount .. | .setPassword .. | .setRole .. | .setEnabled .. | .setProfile .. |
    .revoke .. | .reread .. | .delete .. | .revokeDeleted .. | .answered .. => .isTrue trivial

/-- No account is created over the only enabled administrator, unless as another one. -/
def UserDesk.Meets (desk : UserDesk) : UserInput → Prop
  | .step i fault => ∀ call ∈ desk.calls[i]?, call.Spares desk.users fault
  | _ => True

instance decidableMeetsDesk (desk : UserDesk) : ∀ input, Decidable (desk.Meets input)
  | .step i fault =>
      match h : desk.calls[i]? with
      | some call => decidable_of_iff (call.Spares desk.users fault) (by simp [UserDesk.Meets, h])
      | none => .isTrue (by simp [UserDesk.Meets, h])
  | .create _ _ | .update _ _ _ | .delete _ => .isTrue trivial

variable {passwords} {users : ConsoleUsers} {fault : Option DaygleError}

theorem administered_write {result : Except DaygleError ConsoleUsers} (next : UserCall) (h : users.Administered)
    (hresult : ∀ changed, result = .ok changed → changed.Administered) :
    (UserCall.write fault users result next).2.Administered := by
  cases fault with
  | some e => exact h
  | none =>
    cases result with
    | error e => exact h
    | ok changed => exact hresult changed rfl

theorem users_read {α : Type} (seen : α) (next : α → UserCall) : (UserCall.read fault users seen next).2 = users := by
  cases fault <;> rfl

/-- One call into the store. -/
theorem administered_act (h : users.Administered) (call : UserCall) :
    (call.act passwords users fault).2.Administered ↔ call.Spares users fault := by
  cases call with
  | create username input =>
    simp only [UserCall.act, UserCall.Spares]
    cases fault with
    | some e => exact iff_of_true h (.inl rfl)
    | none =>
      cases hcreate : users.createConsoleUser username input with
      | error e =>
        have hname : isUsername username = false := by
          by_contra hname
          rw [Bool.not_eq_false] at hname
          simp [ConsoleUsers.createConsoleUser, hname] at hcreate
        exact iff_of_true h (.inr (.inl hname))
      | ok created =>
        have hname : isUsername username = true := by
          by_contra hname
          simp [ConsoleUsers.createConsoleUser, hname] at hcreate
        obtain ⟨user, changed⟩ := created
        have hiff := ConsoleUsers.administered_createConsoleUser hcreate
        simpa [hname, UserCall.write, attempt, Except.map] using hiff
  | setPassword change passwordHash hset =>
    exact iff_of_true (administered_write _ h fun _ hset => h.setConsoleUserPassword hset) trivial
  | setRole change role hset => exact iff_of_true (administered_write _ h fun _ hset => h.setConsoleUserRole hset) trivial
  | setEnabled change enabled hset => exact iff_of_true (administered_write _ h fun _ hset => h.setConsoleUserEnabled hset) trivial
  | setProfile change => exact iff_of_true (administered_write _ h fun _ hset => h.setConsoleUserProfile hset) trivial
  | delete username =>
    refine iff_of_true ?_ trivial
    simp only [UserCall.act]
    cases fault with
    | some e => exact h
    | none =>
      cases hdelete : users.deleteConsoleUser username with
      | error e => exact h
      | ok deleted =>
        obtain ⟨found, changed⟩ := deleted
        have hkept := h.deleteConsoleUser hdelete
        cases found <;> exact hkept
  | findNew username input => exact iff_of_true (by rwa [UserCall.act, users_read]) trivial
  | find username input salt => exact iff_of_true (by rwa [UserCall.act, users_read]) trivial
  | guardUser guarded => exact iff_of_true (by rwa [UserCall.act, users_read]) trivial
  | guardCount guarded => exact iff_of_true (by rwa [UserCall.act, users_read]) trivial
  | reread change => exact iff_of_true (by rwa [UserCall.act, users_read]) trivial
  | revoke change => exact iff_of_true h trivial
  | revokeDeleted username => exact iff_of_true h trivial
  | answered response => exact iff_of_true h trivial

theorem administered_step {desk : UserDesk} (h : desk.users.Administered) (input : UserInput) :
    (desk.step passwords input).users.Administered ↔ desk.Meets input := by
  cases input with
  | step i fault =>
    simp only [UserDesk.step, UserDesk.Meets]
    cases desk.calls[i]? with
    | none => exact iff_of_true h (by simp)
    | some call => simpa using administered_act h call
  | create input salt => exact iff_of_true h trivial
  | update username input salt => exact iff_of_true h trivial
  | delete username => exact iff_of_true h trivial

/-- From any requests under way. -/
theorem last_admin_iff (passwords : Passwords) (start : UserDesk) (h : start.users.Administered) (inputs : List UserInput) :
    Always (UserDesk.step passwords) (fun desk => desk.users.Administered) start inputs ↔
      Each (UserDesk.step passwords) UserDesk.Meets start inputs :=
  always_iff_each (fun _ => True) _ _ (fun _ _ _ => trivial) (fun _ input _ hdesk => administered_step hdesk input)
    inputs trivial h

/-- Passwords kept as they are. -/
def Passwords.plain : Passwords := ⟨fun _ password => password, fun password hash => password == hash⟩

def alice : ConsoleUser := ⟨"alice".toList, "pass word".toList, .admin, true, [], [], []⟩

/-- One account, and no requests. -/
def aliceAlone : UserDesk := ⟨OrderedTable.empty.put alice, []⟩

def createBob (role : Text) : UserInput :=
  .create { username := "bob".toList, password := "longer password".toList, role := some role } []

/-- Neither the refused deletion of the only administrator nor another account changes it. -/
theorem last_admin_alone :
    aliceAlone.users.Administered ∧
      Always (UserDesk.step .plain) (fun desk => desk.users.Administered) aliceAlone
        [.delete "alice".toList, .step 0 none, .step 0 none, createBob "viewer".toList, .step 1 none, .step 1 none] :=
  ⟨by decide, (last_admin_iff .plain aliceAlone (by decide) _).mpr (by decide)⟩

/-- `bob` is created as a viewer by one request and as an administrator by another between the
check and the write of the first; `alice` is deleted. -/
theorem last_admin_fails :
    let inputs := [createBob "viewer".toList, .step 0 none, createBob "admin".toList, .step 1 none, .step 1 none,
      .delete "alice".toList, .step 2 none, .step 2 none, .step 2 none, .step 0 none]
    aliceAlone.users.Administered ∧
      (run (UserDesk.step .plain) aliceAlone inputs).users.rows.map (fun user => (user.username, user.role)) =
        [("bob".toList, .viewer)] ∧
      ¬Always (UserDesk.step .plain) (fun desk => desk.users.Administered) aliceAlone inputs := by
  intro inputs
  refine ⟨by decide, by decide, fun h => ?_⟩
  have hlast := (always_iff_prefixes _ _ _).mp h inputs (List.prefix_refl _)
  exact absurd hlast (by decide)

end DaygleDns.Console
