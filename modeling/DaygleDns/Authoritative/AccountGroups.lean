import DaygleDns.Authoritative.Accounts
import DaygleDns.Runs
import DaygleDns.TextFacts

/-! The filtering groups follow the accounts they name, where an entry that names one is
spelled as its name is. -/
namespace DaygleDns.Authoritative

open Text Policy Fallible Runs

def GroupRow.entries (row : GroupRow) : List Text := row.clients.getD []

section Lowercase

variable {lower : Text → Text}

/-- The compiled group has the account exactly when the stored one names it. -/
theorem names_iff_compiled (libs : Libraries) (group : BlockingGroup) (row : GroupRow)
    (hclients : row.clients = some group.clients) (name : Text) :
    row.names libs.toLowercase name = true ↔ libs.toLowercase name ∈ (compileGroup libs group).accounts := by
  unfold GroupRow.names namesAccount compileGroup
  simp only [hclients, Option.getD_some, List.any_eq_true, Option.any_eq_true, beq_iff_eq, List.mem_map,
    List.mem_filterMap]
  constructor
  · rintro ⟨entry, hentry, named, hnamed, hlower⟩
    exact ⟨named, ⟨entry, hentry, hnamed⟩, hlower⟩
  · rintro ⟨named, ⟨entry, hentry, hnamed⟩, hlower⟩
    exact ⟨entry, hentry, named, hnamed, hlower⟩

/-! What the accounts are. -/

/-- No two accounts have one name. -/
def DistinctNames (lower : Text → Text) (store : AccountStore) : Prop :=
  Exclusive (fun first second : DnsAccount => lower first.name = lower second.name) store.accounts.rows

theorem ensureNameFree_eq_ok {store : AccountStore} {name : Text} {except : Option Uuid} :
    ensureNameFree lower store name except = .ok () ↔
      ∀ other ∈ store.accounts.rows, some other.id ≠ except → lower other.name ≠ lower name := by
  unfold ensureNameFree
  rw [guard_eq_ok]
  simp

theorem name_ne_nil_of_validate {name : Text} (h : validateAccountName name = .ok ()) : name ≠ [] := by
  intro hnil
  rw [hnil] at h
  cases h

theorem accountEntry_of_name {name : Text} (htrim : trim name = name) (hne : name ≠ []) :
    accountEntry (accountPrefix ++ name) = some name := by
  have hflush : Flush name := by
    have := trim_nil_or_flush name
    rw [htrim] at this
    exact this.resolve_left hne
  have hend : trimEnd name = name := by rw [← trim_of_flush hflush, htrim]
  have hlead : Flush accountPrefix := ⟨'a', "ccount:".toList, rfl, rfl⟩
  have hentry : trim (accountPrefix ++ name) = accountPrefix ++ name := by
    rw [trim_of_flush (hlead.append name), trimEnd_append_of_ne, hend]
    rw [hend]
    exact hne
  unfold accountEntry
  simp only [hentry, List.take_left, List.drop_left, htrim]
  simp [eqIgnoreAsciiCase, hne]

/-! What rewriting makes of the rows. -/

/-- Some entry of the row is spelled as the account is. -/
def GroupRow.spells (lower : Text → Text) (name : Text) (row : GroupRow) : Bool :=
  row.entries.any (spellsAccount lower name)

/-- Some entry of the row that is not spelled as the account `old` is names `name`. -/
def GroupRow.namesBeside (lower : Text → Text) (old name : Text) (row : GroupRow) : Bool :=
  row.entries.any fun entry => !spellsAccount lower old entry && namesAccount lower name entry

theorem rewriteEntries_cons (old : Text) (new : Option Text) (entry : Text) (entries : List Text) :
    rewriteEntries lower old new (entry :: entries) =
      (if spellsAccount lower old entry then (new.map (accountPrefix ++ ·)).toList else [entry]) ++
        rewriteEntries lower old new entries := by
  unfold rewriteEntries
  rw [List.filterMap_cons]
  cases spellsAccount lower old entry with
  | true => cases new <;> rfl
  | false => rfl

theorem rewriteEntries_of_unspelled {old : Text} {new : Option Text} {entries : List Text}
    (h : entries.any (spellsAccount lower old) = false) : rewriteEntries lower old new entries = entries := by
  induction entries with
  | nil => rfl
  | cons entry entries ih =>
    rw [List.any_cons, Bool.or_eq_false_iff] at h
    rw [rewriteEntries_cons, ih h.2, h.1]
    rfl

theorem entries_rewriteGroupRow (old : Text) (new : Option Text) (row : GroupRow) :
    (rewriteGroupRow lower old new row).entries = rewriteEntries lower old new row.entries := by
  unfold rewriteGroupRow GroupRow.entries
  cases hclients : row.clients with
  | none =>
    simp only [hclients]
    rfl
  | some entries =>
    cases hspelled : entries.any (spellsAccount lower old) with
    | true => simp only [hspelled, if_true, Option.getD_some]
    | false =>
      simp only [hspelled, Bool.false_eq_true, if_false, hclients, Option.getD_some,
        rewriteEntries_of_unspelled hspelled]

theorem names_eq (row : GroupRow) (name : Text) :
    row.names lower name = row.entries.any (namesAccount lower name) := rfl

/-- What a row names once the entries of an account are renamed, or dropped. -/
theorem names_rewritten (old name : Text) (new : Option Text) (row : GroupRow) :
    (rewriteGroupRow lower old new row).names lower name =
      ((row.spells lower old && new.any fun new => namesAccount lower name (accountPrefix ++ new)) ||
        row.namesBeside lower old name) := by
  rw [names_eq, entries_rewriteGroupRow]
  unfold GroupRow.spells GroupRow.namesBeside
  induction row.entries with
  | nil => rfl
  | cons entry entries ih =>
    rw [rewriteEntries_cons, List.any_append, ih, List.any_cons, List.any_cons]
    cases spellsAccount lower old entry with
    | true =>
      cases new with
      | none => simp
      | some new => grind
    | false => simp [Bool.or_left_comm]

theorem namesAccount_of_name {new name : Text} (htrim : trim new = new) (hne : new ≠ []) :
    namesAccount lower name (accountPrefix ++ new) = (lower new == lower name) := by
  unfold namesAccount
  rw [accountEntry_of_name htrim hne]
  rfl

/-- A row that had entries is not on without any. -/
def Occupied (row after : GroupRow) : Prop :=
  row.clients ≠ some [] → after.enabled = true → after.clients ≠ some []

theorem occupied_same (row : GroupRow) : Occupied row row := fun h _ => h

theorem occupied_rewritten (old : Text) (new : Option Text) (row : GroupRow) :
    Occupied row (rewriteGroupRow lower old new row) := by
  intro hrow
  unfold rewriteGroupRow
  cases hclients : row.clients with
  | none => simp [hclients]
  | some entries =>
    cases hspelled : entries.any (spellsAccount lower old) with
    | true =>
      simp only [hspelled, if_true]
      cases rewriteEntries lower old new entries <;> simp
    | false =>
      simp only [hspelled, Bool.false_eq_true, if_false]
      exact fun _ => hrow

/-! What the operations do. -/

def DnsAccountInput.requestedId (input : DnsAccountInput) : Text := toAsciiLowercase (trim input.clientId)

def DnsAccountInput.keptId (input : DnsAccountInput) (current : DnsAccount) : Text :=
  if input.requestedId.isEmpty then current.clientId else input.requestedId

/-- What an update of the account has to pass. -/
structure UpdateAccepted (lower : Text → Text) (store : AccountStore) (id : Uuid) (input : DnsAccountInput)
    (current : DnsAccount) : Prop where
  found : store.accounts.find? id = some current
  validName : validateAccountName (trim input.name) = .ok ()
  validId : input.requestedId.isEmpty = false → validateClientId input.requestedId = .ok ()
  free : ensureNameFree lower store (trim input.name) (some id) = .ok ()
  constraints : checkConstraints store (trim input.name) (input.keptId current) (some id) = .ok ()

/-- The account as the update leaves it. -/
def DnsAccountInput.change (input : DnsAccountInput) (current account : DnsAccount) : DnsAccount :=
  { account with name := trim input.name, clientId := input.keptId current, enabled := input.enabled }

def AccountStore.updated (lower : Text → Text) (store : AccountStore) (id : Uuid) (input : DnsAccountInput)
    (current : DnsAccount) : AccountStore where
  accounts := store.accounts.update (fun row => row.id == id) (input.change current) fun _ => rfl
  groups := if current.name ≠ trim input.name then
      rewriteGroupEntries lower current.name (some (trim input.name)) store.groups
    else store.groups

def AccountStore.deleted (lower : Text → Text) (store : AccountStore) (id : Uuid) (current : DnsAccount) :
    AccountStore where
  accounts := store.accounts.delete fun row => row.id == id
  groups := rewriteGroupEntries lower current.name none store.groups

theorem updateDnsAccount_eq (store : AccountStore) (id : Uuid) (input : DnsAccountInput) (fails : Bool) :
    updateDnsAccount lower store id input fails =
      (validateAccountName (trim input.name) >>= fun _ =>
        (if !input.requestedId.isEmpty then validateClientId input.requestedId else .ok ()) >>= fun _ =>
          if fails then .error .database
          else match store.accounts.find? id with
            | none => .error (.notFound ("account ".toList ++ quoted (ofNat id)))
            | some current =>
                ensureNameFree lower store (trim input.name) (some id) >>= fun _ =>
                  checkConstraints store (trim input.name) (input.keptId current) (some id) >>= fun _ =>
                    .ok (input.change current current, store.updated lower id input current)) := by
  have hid : toAsciiLowercase (trim input.clientId) = input.requestedId := rfl
  unfold updateDnsAccount
  simp only [hid]
  apply bind_congr
  intro _
  by_cases hrequested : (!input.requestedId.isEmpty) = true
  · simp only [if_pos hrequested]
    cases fails <;> rfl
  · simp only [if_neg hrequested]
    cases fails <;> rfl

theorem updateDnsAccount_eq_ok {store after : AccountStore} {id : Uuid} {input : DnsAccountInput} {fails : Bool}
    {account : DnsAccount} :
    updateDnsAccount lower store id input fails = .ok (account, after) ↔
      fails = false ∧ ∃ current, UpdateAccepted lower store id input current ∧
        account = input.change current current ∧ after = store.updated lower id input current := by
  rw [updateDnsAccount_eq]
  simp only [bind_eq_ok]
  constructor
  · rintro ⟨_, hname, _, hid, h⟩
    cases fails with
    | true => cases h
    | false =>
      cases hfind : store.accounts.find? id with
      | none =>
        rw [hfind] at h
        cases h
      | some current =>
        rw [hfind] at h
        simp only [Bool.false_eq_true, if_false, bind_eq_ok] at h
        obtain ⟨_, hfree, _, hconstraints, h⟩ := h
        cases h
        refine ⟨rfl, current, ⟨hfind, hname, fun hempty => ?_, hfree, hconstraints⟩, rfl, rfl⟩
        rw [hempty] at hid
        exact hid
  · rintro ⟨hfails, current, haccepted, haccount, hafter⟩
    refine ⟨(), haccepted.validName, (), ?_, ?_⟩
    · cases hempty : input.requestedId.isEmpty with
      | true => rfl
      | false => exact haccepted.validId hempty
    · simp only [hfails, haccepted.found, haccepted.free, haccepted.constraints, haccount, hafter,
        Bool.false_eq_true, if_false, ok_bind]

theorem step_update (store : AccountStore) (id : Uuid) (input : DnsAccountInput) (fails : Bool) :
    (store.step lower (.update id input fails) = store ∧
      ∀ current, fails = false → ¬ UpdateAccepted lower store id input current) ∨
    ∃ current, fails = false ∧ UpdateAccepted lower store id input current ∧
      store.step lower (.update id input fails) = store.updated lower id input current := by
  simp only [AccountStore.step]
  cases hupdate : updateDnsAccount lower store id input fails with
  | error e =>
    left
    refine ⟨rfl, fun current hfails haccepted => ?_⟩
    have := updateDnsAccount_eq_ok.mpr ⟨hfails, current, haccepted, rfl, rfl⟩
    rw [hupdate] at this
    cases this
  | ok result =>
    obtain ⟨hfails, current, haccepted, -, hafter⟩ := updateDnsAccount_eq_ok.mp hupdate
    exact .inr ⟨current, hfails, haccepted, hafter⟩

theorem step_delete (store : AccountStore) (id : Uuid) (fails : Bool) :
    (store.step lower (.delete id fails) = store ∧
      ∀ current, fails = false → store.accounts.find? id ≠ some current) ∨
    ∃ current, fails = false ∧ store.accounts.find? id = some current ∧
      store.step lower (.delete id fails) = store.deleted lower id current := by
  simp only [AccountStore.step, deleteDnsAccount]
  cases fails with
  | true =>
    left
    exact ⟨rfl, fun _ h => absurd h Bool.noConfusion⟩
  | false =>
    cases hfind : store.accounts.find? id with
    | none =>
      left
      exact ⟨rfl, fun _ _ h => absurd h (Option.some_ne_none _).symm⟩
    | some current => exact .inr ⟨current, rfl, rfl, rfl⟩

theorem step_create (store : AccountStore) (input : DnsAccountInput) (fresh : FreshAccount) (fails : Bool) :
    store.step lower (.create input fresh fails) = store ∨
    ∃ account : Uuid → DnsAccount, ∃ hid : ∀ id, (account id).id = id,
      ensureNameFree lower store (account store.accounts.next).name none = .ok () ∧
      store.step lower (.create input fresh fails) =
        { store with accounts := store.accounts.insert account hid } := by
  simp only [AccountStore.step]
  cases hcreate : createDnsAccount lower store input fresh fails with
  | error e => exact .inl rfl
  | ok result =>
    right
    unfold createDnsAccount at hcreate
    simp only [bind_eq_ok] at hcreate
    obtain ⟨-, hname, -, hid, hcreate⟩ := hcreate
    cases fails with
    | true => cases hcreate
    | false =>
      simp only [Bool.false_eq_true, if_false, bind_eq_ok] at hcreate
      obtain ⟨_, hfree, -, -, hafter⟩ := hcreate
      cases hafter
      exact ⟨_, _, hfree, rfl⟩

/-! Names stay apart. -/

theorem distinctNames_step {store : AccountStore} (h : DistinctNames lower store) (op : AccountOp) :
    DistinctNames lower (store.step lower op) := by
  cases op with
  | create input fresh fails =>
    cases step_create store input fresh fails with
    | inl hsame =>
      rw [hsame]
      exact h
    | inr hcreated =>
      obtain ⟨account, hid, hfree, hafter⟩ := hcreated
      rw [hafter]
      apply Exclusive.append_row h fun _ _ => Eq.symm
      intro other hother hclash
      exact ensureNameFree_eq_ok.mp hfree other hother (by simp) hclash.symm
  | update id input fails =>
    cases @step_update lower store id input fails with
    | inl hsame =>
      rw [hsame.1]
      exact h
    | inr hupdated =>
      obtain ⟨current, -, haccepted, hafter⟩ := hupdated
      obtain ⟨hcurrent, rfl⟩ := (Table.find?_eq_some_iff ..).mp haccepted.found
      rw [hafter]
      apply (Exclusive.map_row_iff h store.accounts.nodup (fun _ _ => Eq.symm) (input.change current)
        (fun _ => rfl) hcurrent).mpr
      intro other hother hne hclash
      exact ensureNameFree_eq_ok.mp haccepted.free other hother (by simpa using hne) hclash.symm
  | delete id fails =>
    cases @step_delete lower store id fails with
    | inl hsame =>
      rw [hsame.1]
      exact h
    | inr hdeleted =>
      obtain ⟨current, -, -, hafter⟩ := hdeleted
      rw [hafter]
      exact Exclusive.filter h _

/-! No row that had entries ends up on without any. -/

theorem occupied_step (store : AccountStore) (op : AccountOp) :
    List.Forall₂ Occupied store.groups (store.step lower op).groups := by
  have hrewritten : ∀ old new, List.Forall₂ Occupied store.groups (rewriteGroupEntries lower old new store.groups) := by
    intro old new
    exact List.forall₂_map_right_iff.mpr (List.forall₂_same.mpr fun row _ => occupied_rewritten old new row)
  have hsame : List.Forall₂ Occupied store.groups store.groups :=
    List.forall₂_same.mpr fun row _ => occupied_same row
  cases op with
  | create input fresh fails =>
    cases step_create store input fresh fails with
    | inl h => rwa [h]
    | inr h =>
      obtain ⟨account, hid, -, hafter⟩ := h
      rwa [hafter]
  | update id input fails =>
    cases @step_update lower store id input fails with
    | inl h => rwa [h.1]
    | inr h =>
      obtain ⟨current, -, -, hafter⟩ := h
      rw [hafter]
      unfold AccountStore.updated
      by_cases hname : current.name ≠ trim input.name
      · simpa only [if_pos hname] using hrewritten _ _
      · simpa only [if_neg hname] using hsame
  | delete id fails =>
    cases @step_delete lower store id fails with
    | inl h => rwa [h.1]
    | inr h =>
      obtain ⟨current, -, -, hafter⟩ := h
      rw [hafter]
      exact hrewritten _ _

/-! The groups follow the accounts. -/

/-- The row as it is afterwards names the accounts that it named, under the names they have then. -/
def NamesSame (lower : Text → Text) (before after : AccountStore) (row moved : GroupRow) : Prop :=
  ∀ account ∈ before.accounts.rows, ∀ renamed ∈ after.accounts.rows, renamed.id = account.id →
    moved.names lower renamed.name = row.names lower account.name

/-- What an operation has to make of the groups: a change of an account leaves each group the
accounts that it names, and a deletion leaves no group that names the account. -/
def Follows (lower : Text → Text) (store : AccountStore) (op : AccountOp) : Prop :=
  let after := store.step lower op
  match op with
  | .create .. => True
  | .update .. => List.Forall₂ (NamesSame lower store after) store.groups after.groups
  | .delete .. => ∀ account ∈ store.accounts.rows, (∀ other ∈ after.accounts.rows, other.id ≠ account.id) →
      ∀ row ∈ after.groups, row.names lower account.name = false

/-- The entries that name the account are spelled as it is: for a deletion all of them, for a
new name one of them, unless an entry names the new name already, and no other account is
named by these entries alone. -/
def EntriesSpelled (lower : Text → Text) (store : AccountStore) : AccountOp → Prop
  | .create .. => True
  | .update id input fails =>
      ∀ current, fails = false → UpdateAccepted lower store id input current → current.name ≠ trim input.name →
        ∀ row ∈ store.groups,
          (row.spells lower current.name || row.namesBeside lower current.name (trim input.name)) =
            row.names lower current.name ∧
          ∀ other ∈ store.accounts.rows, other.id ≠ id → row.names lower other.name = true →
            row.namesBeside lower current.name other.name = true
  | .delete id fails =>
      ∀ current, fails = false → store.accounts.find? id = some current →
        ∀ row ∈ store.groups, row.namesBeside lower current.name current.name = false

theorem namesSame_refl (store : AccountStore) (row : GroupRow) : NamesSame lower store store row row := by
  intro account haccount renamed hrenamed hid
  rw [store.accounts.eq_of_key_eq hrenamed haccount hid]

/-- The names that the accounts have after an update. -/
theorem namesSame_updated_iff (store : AccountStore) (id : Uuid) (input : DnsAccountInput) (current : DnsAccount)
    (row moved : GroupRow) :
    NamesSame lower store (store.updated lower id input current) row moved ↔
      ∀ account ∈ store.accounts.rows,
        moved.names lower (if account.id = id then trim input.name else account.name) =
          row.names lower account.name := by
  have hrows : (store.updated lower id input current).accounts.rows =
      store.accounts.rows.map fun row => if row.id == id then input.change current row else row := rfl
  have hid : ∀ account : DnsAccount,
      (if account.id == id then input.change current account else account).id = account.id := by
    intro account
    split <;> rfl
  have hname : ∀ account : DnsAccount,
      (if account.id == id then input.change current account else account).name =
        if account.id = id then trim input.name else account.name := by
    intro account
    simp only [beq_iff_eq]
    split <;> rfl
  unfold NamesSame
  rw [hrows]
  simp only [List.forall_mem_map, hid, hname]
  constructor
  · exact fun h account haccount => h account haccount account haccount rfl
  · intro h account haccount renamed hrenamed hsame
    rw [store.accounts.eq_of_key_eq hrenamed haccount hsame]
    exact h account haccount

theorem names_of_namesBeside {old name : Text} {row : GroupRow} (h : row.namesBeside lower old name = true) :
    row.names lower name = true := by
  unfold GroupRow.namesBeside at h
  rw [names_eq]
  obtain ⟨entry, hentry, hnames⟩ := List.any_eq_true.mp h
  exact List.any_eq_true.mpr ⟨entry, hentry, (Bool.and_eq_true_iff.mp hnames).2⟩

theorem namesSame_renamed_iff {store : AccountStore} {id : Uuid} {input : DnsAccountInput} {current : DnsAccount}
    (haccepted : UpdateAccepted lower store id input current) (row : GroupRow) :
    NamesSame lower store (store.updated lower id input current) row
        (rewriteGroupRow lower current.name (some (trim input.name)) row) ↔
      (row.spells lower current.name || row.namesBeside lower current.name (trim input.name)) =
          row.names lower current.name ∧
        ∀ other ∈ store.accounts.rows, other.id ≠ id → row.names lower other.name = true →
          row.namesBeside lower current.name other.name = true := by
  have hnew : ∀ name, namesAccount lower name (accountPrefix ++ trim input.name) =
      (lower (trim input.name) == lower name) := fun name =>
    namesAccount_of_name (trim_trim _) (name_ne_nil_of_validate haccepted.validName)
  obtain ⟨hcurrent, hid⟩ := (Table.find?_eq_some_iff ..).mp haccepted.found
  rw [namesSame_updated_iff]
  simp only [names_rewritten, Option.any_some, hnew]
  have hself : ∀ account ∈ store.accounts.rows, account.id = id → account = current :=
    fun account haccount h => store.accounts.eq_of_key_eq haccount hcurrent (h.trans hid.symm)
  have hother : ∀ other ∈ store.accounts.rows, other.id ≠ id →
      (lower (trim input.name) == lower other.name) = false := by
    intro other hmem hne
    rw [beq_eq_false_iff_ne]
    exact (ensureNameFree_eq_ok.mp haccepted.free other hmem (by simpa using hne)).symm
  constructor
  · intro h
    constructor
    · have := h current hcurrent
      rwa [if_pos hid, beq_self_eq_true, Bool.and_true] at this
    · intro other hmem hne hnames
      have := h other hmem
      rwa [if_neg hne, hother other hmem hne, Bool.and_false, Bool.false_or, hnames] at this
  · rintro ⟨hrenamed, hothers⟩ account hmem
    by_cases h : account.id = id
    · rw [hself account hmem h, if_pos hid, beq_self_eq_true, Bool.and_true]
      exact hrenamed
    · rw [if_neg h, hother account hmem h, Bool.and_false, Bool.false_or]
      apply Bool.eq_iff_iff.mpr
      exact ⟨names_of_namesBeside, hothers account hmem h⟩

theorem follows_update_iff (store : AccountStore) (id : Uuid) (input : DnsAccountInput) (fails : Bool) :
    Follows lower store (.update id input fails) ↔ EntriesSpelled lower store (.update id input fails) := by
  unfold Follows EntriesSpelled
  cases @step_update lower store id input fails with
  | inl hsame =>
    obtain ⟨hsame, hrefused⟩ := hsame
    simp only [hsame]
    constructor
    · exact fun _ current hfails haccepted => absurd haccepted (hrefused current hfails)
    · exact fun _ => List.forall₂_same.mpr fun row _ => namesSame_refl store row
  | inr hupdated =>
    obtain ⟨current, hfails, haccepted, hafter⟩ := hupdated
    have hfound : ∀ other, UpdateAccepted lower store id input other → other = current := by
      intro other hother
      exact Option.some.inj (hother.found.symm.trans haccepted.found)
    simp only [hafter]
    by_cases hname : current.name ≠ trim input.name
    · have hgroups : (store.updated lower id input current).groups =
          store.groups.map (rewriteGroupRow lower current.name (some (trim input.name))) := if_pos hname
      rw [hgroups, List.forall₂_map_right_iff, List.forall₂_same]
      simp only [namesSame_renamed_iff haccepted]
      constructor
      · intro h other _ hother _
        rw [hfound other hother]
        exact h
      · exact fun h => h current hfails haccepted hname
    · have hgroups : (store.updated lower id input current).groups = store.groups := if_neg hname
      rw [hgroups, List.forall₂_same]
      constructor
      · intro _ other _ hother hne
        rw [hfound other hother] at hne
        exact absurd hne hname
      · intro _ row _
        rw [namesSame_updated_iff]
        intro account haccount
        split
        · rename_i hid
          obtain ⟨hcurrent, hcurrentId⟩ := (Table.find?_eq_some_iff ..).mp haccepted.found
          rw [store.accounts.eq_of_key_eq haccount hcurrent (hid.trans hcurrentId.symm), not_ne_iff.mp hname]
        · rfl

theorem follows_delete_iff (store : AccountStore) (id : Uuid) (fails : Bool) :
    Follows lower store (.delete id fails) ↔ EntriesSpelled lower store (.delete id fails) := by
  unfold Follows EntriesSpelled
  cases @step_delete lower store id fails with
  | inl hsame =>
    obtain ⟨hsame, hmissing⟩ := hsame
    simp only [hsame]
    constructor
    · exact fun _ current hfails hfound => absurd hfound (hmissing current hfails)
    · exact fun _ account haccount hgone => absurd rfl (hgone account haccount)
  | inr hdeleted =>
    obtain ⟨current, hfails, hfound, hafter⟩ := hdeleted
    obtain ⟨hcurrent, hid⟩ := (Table.find?_eq_some_iff ..).mp hfound
    have hgroups : (store.deleted lower id current).groups =
        store.groups.map (rewriteGroupRow lower current.name none) := rfl
    have hrows : ∀ account, account ∈ (store.deleted lower id current).accounts.rows ↔
        account ∈ store.accounts.rows ∧ account.id ≠ id := by
      intro account
      simp [AccountStore.deleted]
    simp only [hafter, hgroups, List.forall_mem_map, names_rewritten, Option.any_none,
      Bool.and_false, Bool.false_or, hrows]
    constructor
    · intro h other _ hother
      obtain ⟨hmem, hother⟩ := (Table.find?_eq_some_iff ..).mp hother
      rw [store.accounts.eq_of_key_eq hmem hcurrent (hother.trans hid.symm)]
      exact h current hcurrent fun kept hkept hsame => hkept.2 (hsame.trans hid)
    · intro h account haccount hgone
      have hself : account.id = id := by
        by_contra hne
        exact hgone account ⟨haccount, hne⟩ rfl
      rw [store.accounts.eq_of_key_eq haccount hcurrent (hself.trans hid.symm)]
      exact h current hfails hfound

theorem follows_iff (store : AccountStore) (op : AccountOp) :
    Follows lower store op ↔ EntriesSpelled lower store op := by
  cases op with
  | create input fresh fails => exact Iff.rfl
  | update id input fails => exact follows_update_iff store id input fails
  | delete id fails => exact follows_delete_iff store id fails

/-- Through a run, the groups follow their accounts, no group that had entries is left on without
any, and the names of the accounts stay apart. -/
def GroupsFollow (lower : Text → Text) (start : AccountStore) (ops : List AccountOp) : Prop :=
  Always (AccountStore.step lower) (DistinctNames lower) start ops ∧
    Each (AccountStore.step lower) (fun store op =>
      Follows lower store op ∧ List.Forall₂ Occupied store.groups (store.step lower op).groups) start ops

/-- The groups follow their accounts exactly when the entries that name a renamed or deleted
account are spelled as it is. -/
theorem groups_follow_iff (lower : Text → Text) (start : AccountStore) (hstart : DistinctNames lower start)
    (ops : List AccountOp) :
    GroupsFollow lower start ops ↔ Each (AccountStore.step lower) (EntriesSpelled lower) start ops := by
  have hnames : Always (AccountStore.step lower) (DistinctNames lower) start ops :=
    always_of_step (fun _ op h => distinctNames_step h op) ops hstart
  constructor
  · intro h
    exact each_mono (fun store op hboth => (follows_iff store op).mp hboth.1) ops start h.2
  · intro h
    refine ⟨hnames, each_mono (fun store op hspelled => ?_) ops start h⟩
    exact ⟨(follows_iff store op).mpr hspelled, occupied_step store op⟩

end Lowercase

/-! A group that names the account `kids`. -/

def kidsAccount : DnsAccount := ⟨0, "kids".toList, "kids".toList, true, 0, none⟩

def kidsStore (entry : Text) : AccountStore where
  accounts := ⟨[kidsAccount], 1, by decide, by decide⟩
  groups := [⟨0, some [entry], true⟩]

theorem kidsStore_distinct (entry : Text) : DistinctNames toAsciiLowercase (kidsStore entry) := by
  intro first hfirst second hsecond _
  rw [List.mem_singleton.mp hfirst, List.mem_singleton.mp hsecond]

/-- An entry with a blank before the name is left behind by a deletion. -/
theorem blank_entry_stays : ¬ ∀ (lower : Text → Text) (start : AccountStore), DistinctNames lower start →
    ∀ ops : List AccountOp, GroupsFollow lower start ops := by
  intro h
  have hfollows := (h toAsciiLowercase _ (kidsStore_distinct "account: kids".toList) [.delete 0 false]).2.1.1
  have hnamed := hfollows kidsAccount (by decide) (by decide) ⟨0, some ["account: kids".toList], true⟩
    (by decide)
  revert hnamed
  decide

/-- A group follows the account that an entry in capitals names, and is off without it. -/
theorem capitals_follow : GroupsFollow toAsciiLowercase (kidsStore "Account:KIDS".toList)
    [.update 0 ⟨"teens".toList, [], true⟩ false, .delete 0 false] := by
  apply (groups_follow_iff toAsciiLowercase _ (kidsStore_distinct _) _).mpr
  constructor
  · intro current _ haccepted _
    have hcurrent : kidsAccount = current := Option.some.inj haccepted.found
    rw [← hcurrent]
    decide
  · refine ⟨?_, trivial⟩
    intro current _ hfound
    have hcurrent : { kidsAccount with name := "teens".toList } = current := by
      apply Option.some.inj
      rw [← hfound]
      decide
    rw [← hcurrent]
    decide

end DaygleDns.Authoritative
