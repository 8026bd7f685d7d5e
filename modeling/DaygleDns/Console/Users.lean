import DaygleDns.Authoritative.Model
import DaygleDns.OrderedTable

/-! The console accounts of the store. Each operation holds the store's lock from its first
statement to its last. -/
namespace DaygleDns.Console

open Text Authoritative

inductive Role where
  | admin
  | viewer
deriving DecidableEq, Repr

structure ConsoleUser where
  username : Text
  passwordHash : Text
  role : Role
  enabled : Bool
  firstName : Text
  lastName : Text
  email : Text
deriving DecidableEq, Repr

structure ConsoleUserInput where
  passwordHash : Text
  role : Role
  enabled : Bool
  firstName : Text
  lastName : Text
  email : Text
deriving DecidableEq, Repr

/-- The table `console_users`; the username is its primary key. -/
abbrev ConsoleUsers := OrderedTable ConsoleUser Text ConsoleUser.username

def ConsoleUser.isEnabledAdmin (user : ConsoleUser) : Bool := user.role == .admin && user.enabled

def isUsername (username : Text) : Bool :=
  !username.isEmpty && decide (utf8Len username ≤ 64) && !username.any isWhitespace

namespace ConsoleUsers

def countEnabledAdmins (users : ConsoleUsers) : Nat := users.rows.countP ConsoleUser.isEnabledAdmin

/-- What the store reports of a user it does not find. -/
def noUser (username : Text) : DaygleError := .config ("user '".toList ++ username ++ "' not found".toList)

def createConsoleUser (users : ConsoleUsers) (username : Text) (input : ConsoleUserInput) :
    Except DaygleError (ConsoleUser × ConsoleUsers) :=
  if isUsername username then
    let user : ConsoleUser := ⟨username, input.passwordHash, input.role, input.enabled, input.firstName, input.lastName, input.email⟩
    -- `ON CONFLICT(username) DO UPDATE`: the row of an account of that name is overwritten.
    .ok (user, users.put user)
  else .error (.config "username must be 1-64 characters with no whitespace".toList)

/-- `UPDATE .. WHERE username = ?1`, which has to find a row. -/
def updateRow (users : ConsoleUsers) (username : Text) (change : ConsoleUser → ConsoleUser)
    (hkey : ∀ user, (change user).username = user.username) : Except DaygleError ConsoleUsers :=
  if users.contains username then .ok (users.modify username change hkey) else .error (noUser username)

def setConsoleUserPassword (users : ConsoleUsers) (username passwordHash : Text) : Except DaygleError ConsoleUsers :=
  users.updateRow username (fun user => { user with passwordHash }) fun _ => rfl

def setConsoleUserProfile (users : ConsoleUsers) (username : Text) (firstName lastName email : Option Text) :
    Except DaygleError ConsoleUsers :=
  users.updateRow username (fun user => { user with
    firstName := firstName.getD user.firstName
    lastName := lastName.getD user.lastName
    email := email.getD user.email }) fun _ => rfl

def setConsoleUserRole (users : ConsoleUsers) (username : Text) (role : Role) : Except DaygleError ConsoleUsers :=
  let update := users.updateRow username (fun user => { user with role }) fun _ => rfl
  if role = .admin then update
  else match users.get username with
    | none => .error (noUser username)
    | some user =>
        if user.role = .admin ∧ users.countEnabledAdmins ≤ 1 then
          .error (.config "cannot demote the last enabled admin".toList)
        else update

def setConsoleUserEnabled (users : ConsoleUsers) (username : Text) (enabled : Bool) : Except DaygleError ConsoleUsers :=
  let update := users.updateRow username (fun user => { user with enabled }) fun _ => rfl
  if enabled then update
  else match users.get username with
    | none => .error (noUser username)
    | some user =>
        if user.isEnabledAdmin ∧ users.countEnabledAdmins ≤ 1 then
          .error (.config "cannot disable the last enabled admin".toList)
        else update

/-- And whether a row was removed. -/
def deleteConsoleUser (users : ConsoleUsers) (username : Text) : Except DaygleError (Bool × ConsoleUsers) :=
  match users.get username with
  | none => .error (noUser username)
  | some user =>
      if user.isEnabledAdmin ∧ users.countEnabledAdmins ≤ 1 then
        .error (.config "cannot delete the last enabled admin".toList)
      else .ok (true, users.erase username)

/-- Some account can administer the console. -/
def Administered (users : ConsoleUsers) : Prop := ∃ user ∈ users.rows, user.isEnabledAdmin

instance decidableAdministered (users : ConsoleUsers) : Decidable users.Administered := inferInstanceAs (Decidable (∃ user ∈ users.rows, _))

variable {users changed : ConsoleUsers} {username : Text}

theorem administered_iff : users.Administered ↔ ∃ user, users.get user.username = some user ∧ user.isEnabledAdmin := by
  simp only [Administered, OrderedTable.mem_rows_iff]

/-- The accounts of other names are as they were. -/
def SameBut (username : Text) (users changed : ConsoleUsers) : Prop :=
  ∀ other, other ≠ username → changed.get other = users.get other

/-- Somebody besides the account can administer the console. -/
def OtherAdmin (users : ConsoleUsers) (username : Text) : Prop :=
  ∃ user ∈ users.rows, user.isEnabledAdmin ∧ user.username ≠ username

instance decidableOtherAdmin (users : ConsoleUsers) (username : Text) : Decidable (users.OtherAdmin username) :=
  inferInstanceAs (Decidable (∃ user ∈ users.rows, _))

theorem OtherAdmin.administered (h : users.OtherAdmin username) (hsame : SameBut username users changed) :
    changed.Administered := by
  obtain ⟨user, hmem, hadmin, hother⟩ := h
  refine ⟨user, ?_, hadmin⟩
  rw [OrderedTable.mem_rows_iff] at hmem ⊢
  rw [hsame user.username hother, hmem]

/-- Of two enabled administrators one is somebody else. -/
theorem otherAdmin_of_count (h : 1 < users.countEnabledAdmins) (username : Text) : users.OtherAdmin username := by
  by_contra hnone
  have hsame : ∀ user ∈ users.rows.filter ConsoleUser.isEnabledAdmin, user.username = username := by
    intro user huser
    by_contra hother
    exact hnone ⟨user, List.mem_of_mem_filter huser, (List.mem_filter.mp huser).2, hother⟩
  have hnodup : ((users.rows.filter ConsoleUser.isEnabledAdmin).map ConsoleUser.username).Nodup :=
    users.nodup_keys.sublist (List.filter_sublist.map ConsoleUser.username)
  have hmap : (users.rows.filter ConsoleUser.isEnabledAdmin).map ConsoleUser.username =
      List.replicate users.countEnabledAdmins username := by
    rw [countEnabledAdmins, List.countP_eq_length_filter, List.eq_replicate_iff]
    refine ⟨List.length_map _, fun name hname => ?_⟩
    obtain ⟨user, huser, rfl⟩ := List.mem_map.mp hname
    exact hsame user huser
  rw [hmap, List.nodup_replicate] at hnodup
  omega

theorem sameBut_erase : SameBut username users (users.erase username) := by
  intro other hother
  rw [OrderedTable.get_erase, if_neg hother]

theorem sameBut_updateRow {change : ConsoleUser → ConsoleUser} {hkey : ∀ user, (change user).username = user.username}
    (h : users.updateRow username change hkey = .ok changed) : SameBut username users changed := by
  unfold updateRow at h
  split at h
  · cases h
    intro other hother
    rw [OrderedTable.get_modify, if_neg hother]
  · cases h

/-- An update that takes nobody's administration away. -/
theorem Administered.updateRow {change : ConsoleUser → ConsoleUser} {hkey : ∀ user, (change user).username = user.username}
    (hadmin : ∀ user, user.isEnabledAdmin → (change user).isEnabledAdmin) (h : users.Administered)
    (hupdate : users.updateRow username change hkey = .ok changed) : changed.Administered := by
  unfold ConsoleUsers.updateRow at hupdate
  split at hupdate
  · cases hupdate
    obtain ⟨user, hget, henabled⟩ := administered_iff.mp h
    by_cases hname : user.username = username
    · refine administered_iff.mpr ⟨change user, ?_, hadmin user henabled⟩
      rw [hkey, OrderedTable.get_modify, if_pos hname, hget]
      rfl
    · refine administered_iff.mpr ⟨user, ?_, henabled⟩
      rw [OrderedTable.get_modify, if_neg hname, hget]
  · cases hupdate

theorem Administered.setConsoleUserPassword {passwordHash : Text} (h : users.Administered)
    (hset : users.setConsoleUserPassword username passwordHash = .ok changed) : changed.Administered := by
  apply h.updateRow _ hset
  intro user henabled
  exact henabled

theorem Administered.setConsoleUserProfile {firstName lastName email : Option Text} (h : users.Administered)
    (hset : users.setConsoleUserProfile username firstName lastName email = .ok changed) : changed.Administered := by
  apply h.updateRow _ hset
  intro user henabled
  exact henabled

/-- Administration is taken from an account only while another one has it. -/
theorem administered_of_guard {user : ConsoleUser} (h : users.Administered) (hget : users.get username = some user)
    (hguard : user.isEnabledAdmin → 1 < users.countEnabledAdmins) (hsame : SameBut username users changed) :
    changed.Administered := by
  obtain ⟨other, hmem, henabled⟩ := h
  by_cases hother : other.username = username
  · have huser : user = other := by
      rw [← hother, OrderedTable.get_of_mem hmem] at hget
      exact (Option.some.inj hget).symm
    exact (otherAdmin_of_count (hguard (huser ▸ henabled)) username).administered hsame
  · exact OtherAdmin.administered ⟨other, hmem, henabled, hother⟩ hsame

theorem Administered.setConsoleUserRole {role : Role} (h : users.Administered)
    (hset : users.setConsoleUserRole username role = .ok changed) : changed.Administered := by
  unfold ConsoleUsers.setConsoleUserRole at hset
  by_cases hrole : role = .admin
  · rw [if_pos hrole] at hset
    apply h.updateRow _ hset
    intro user henabled
    simp only [ConsoleUser.isEnabledAdmin, Bool.and_eq_true] at henabled ⊢
    simp [hrole, henabled]
  · cases hget : users.get username with
    | none => simp [hrole, hget] at hset
    | some user =>
      simp only [if_neg hrole, hget] at hset
      by_cases hlast : user.role = .admin ∧ users.countEnabledAdmins ≤ 1
      · simp [hlast] at hset
      · rw [if_neg hlast] at hset
        apply administered_of_guard h hget _ (sameBut_updateRow hset)
        intro henabled
        simp only [ConsoleUser.isEnabledAdmin, Bool.and_eq_true, beq_iff_eq] at henabled
        exact not_le.mp fun hcount => hlast ⟨henabled.1, hcount⟩

theorem Administered.setConsoleUserEnabled {enabled : Bool} (h : users.Administered)
    (hset : users.setConsoleUserEnabled username enabled = .ok changed) : changed.Administered := by
  unfold ConsoleUsers.setConsoleUserEnabled at hset
  cases enabled with
  | true =>
    apply h.updateRow _ hset
    intro user henabled
    simp only [ConsoleUser.isEnabledAdmin, Bool.and_eq_true] at henabled ⊢
    simp [henabled]
  | false =>
    cases hget : users.get username with
    | none => simp [hget] at hset
    | some user =>
      simp only [Bool.false_eq_true, if_false, hget] at hset
      by_cases hlast : user.isEnabledAdmin ∧ users.countEnabledAdmins ≤ 1
      · simp [hlast] at hset
      · rw [if_neg hlast] at hset
        apply administered_of_guard h hget _ (sameBut_updateRow hset)
        intro henabled
        exact not_le.mp fun hcount => hlast ⟨henabled, hcount⟩

theorem Administered.deleteConsoleUser {deleted : Bool} (h : users.Administered)
    (hdelete : users.deleteConsoleUser username = .ok (deleted, changed)) : changed.Administered := by
  unfold ConsoleUsers.deleteConsoleUser at hdelete
  cases hget : users.get username with
  | none => simp [hget] at hdelete
  | some user =>
    simp only [hget] at hdelete
    by_cases hlast : user.isEnabledAdmin ∧ users.countEnabledAdmins ≤ 1
    · simp [hlast] at hdelete
    · rw [if_neg hlast] at hdelete
      cases hdelete
      apply administered_of_guard h hget _ sameBut_erase
      intro henabled
      exact not_le.mp fun hcount => hlast ⟨henabled, hcount⟩

/-- An account that is created takes the place of the one of its name. -/
theorem administered_createConsoleUser {input : ConsoleUserInput} {user : ConsoleUser}
    (hcreate : users.createConsoleUser username input = .ok (user, changed)) :
    changed.Administered ↔ input.role = .admin ∧ input.enabled = true ∨ users.OtherAdmin username := by
  unfold createConsoleUser at hcreate
  split at hcreate
  · cases hcreate
    constructor
    · intro h
      obtain ⟨other, hget, henabled⟩ := administered_iff.mp h
      rw [OrderedTable.get_put] at hget
      split at hget
      · cases hget
        simpa [ConsoleUser.isEnabledAdmin] using Or.inl henabled
      · rename_i hother
        exact .inr ⟨other, OrderedTable.mem_of_get hget, henabled, Ne.symm hother⟩
    · intro h
      cases h with
      | inl hinput =>
        refine administered_iff.mpr ⟨_, (OrderedTable.get_put users _ _).trans (if_pos rfl), ?_⟩
        simp [ConsoleUser.isEnabledAdmin, hinput]
      | inr hother =>
        apply hother.administered
        intro other hne
        rw [OrderedTable.get_put, if_neg hne.symm]
  · cases hcreate

end ConsoleUsers

end DaygleDns.Console
