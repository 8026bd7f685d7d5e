import DaygleDns.Authoritative.Model
import DaygleDns.Fallible
import DaygleDns.Policy.Groups
import DaygleDns.Table

/-! DNS accounts, and the filtering groups whose client lists name them. -/
namespace DaygleDns.Authoritative

open Text Policy

structure DnsAccount where
  id : Uuid
  name : Text
  clientId : Text
  enabled : Bool
  createdAt : Time
  lastSeenAt : Option Time
deriving DecidableEq

structure DnsAccountInput where
  name : Text
  clientId : Text
  enabled : Bool

/-- A stored group: its client list, where the column can be read, and whether it is on. -/
structure GroupRow where
  id : Uuid
  clients : Option (List Text)
  enabled : Bool
deriving DecidableEq

structure AccountStore where
  accounts : Table DnsAccount (·.id)
  groups : List GroupRow

inductive AccountError where
  | config (text : Text)
  | notFound (text : Text)
  | database
deriving DecidableEq

/-- What a new account is made of besides the input. -/
structure FreshAccount where
  clientId : Text
  now : Time

/-- `char::is_control` -/
def isControl (c : Char) : Bool := c.toNat < 32 || (127 ≤ c.toNat && c.toNat < 160)

def validateAccountName (name : Text) : Except AccountError Unit :=
  let bad (why : String) : Except AccountError Unit := .error (.config ("account name ".toList ++ why.toList))
  if name.isEmpty then bad "is required"
  else if 64 < name.length then bad "is longer than 64 characters"
  else if name.any fun c => isControl c || c == ',' || c == ':' then bad "cannot contain ',' or ':'"
  else .ok ()

def validateClientId (id : Text) : Except AccountError Unit :=
  if !id.isEmpty && id.length ≤ 63 && id.head? != some '-' && id.getLast? != some '-' &&
      id.all fun c => c.isLower || c.isDigit || c == '-' then .ok ()
  else .error (.config ("client ID ".toList ++ quoted id ++
    " must be one DNS label: lowercase letters, digits and hyphens".toList))

/-! `lower` is `str::to_lowercase`. -/

section Lowercase

variable (lower : Text → Text)

/-- The entry is `account:` and the name, in any case. -/
def spellsAccount (name entry : Text) : Bool := lower (trim entry) == lower (accountPrefix ++ name)

/-- The client list with the entries of `old` renamed, or dropped. -/
def rewriteEntries (old : Text) (new : Option Text) (entries : List Text) : List Text :=
  entries.filterMap fun entry =>
    if spellsAccount lower old entry then new.map (accountPrefix ++ ·) else some entry

def rewriteGroupRow (old : Text) (new : Option Text) (row : GroupRow) : GroupRow :=
  match row.clients with
  | none => row
  | some entries =>
      if entries.any (spellsAccount lower old) then
        let rewritten := rewriteEntries lower old new entries
        { row with clients := some rewritten, enabled := if rewritten.isEmpty then false else row.enabled }
      else row

def rewriteGroupEntries (old : Text) (new : Option Text) (groups : List GroupRow) : List GroupRow :=
  groups.map (rewriteGroupRow lower old new)

def nameTaken (name : Text) : AccountError :=
  .config ("an account named ".toList ++ quoted name ++ " already exists".toList)

/-- Refuse the name of another account than `except`. -/
def ensureNameFree (store : AccountStore) (name : Text) (except : Option Uuid) : Except AccountError Unit :=
  if store.accounts.rows.any fun other => some other.id != except && lower other.name == lower name then
    .error (nameTaken name)
  else .ok ()

/-- The uniqueness constraints of the table: names in any ASCII case, and client IDs. -/
def checkConstraints (store : AccountStore) (name clientId : Text) (except : Option Uuid) : Except AccountError Unit :=
  if store.accounts.rows.any fun other => some other.id != except && eqIgnoreAsciiCase other.name name then
    .error (nameTaken name)
  else if store.accounts.rows.any fun other => some other.id != except && other.clientId == clientId then
    .error (.config ("client ID ".toList ++ quoted clientId ++ " is already in use".toList))
  else .ok ()

/-- `create_dns_account`; `fails` tells whether a call into the database fails, which
rolls the transaction back. -/
def createDnsAccount (store : AccountStore) (input : DnsAccountInput) (fresh : FreshAccount) (fails : Bool) :
    Except AccountError (DnsAccount × AccountStore) := do
  let name := trim input.name
  validateAccountName name
  let requested := toAsciiLowercase (trim input.clientId)
  let clientId := if requested.isEmpty then fresh.clientId else requested
  validateClientId clientId
  if fails then throw .database
  ensureNameFree lower store name none
  checkConstraints store name clientId none
  let account (id : Uuid) : DnsAccount := ⟨id, name, clientId, input.enabled, fresh.now, none⟩
  pure (account store.accounts.next, { store with accounts := store.accounts.insert account fun _ => rfl })

/-- `update_dns_account` -/
def updateDnsAccount (store : AccountStore) (id : Uuid) (input : DnsAccountInput) (fails : Bool) :
    Except AccountError (DnsAccount × AccountStore) := do
  let name := trim input.name
  validateAccountName name
  let requested := toAsciiLowercase (trim input.clientId)
  if !requested.isEmpty then validateClientId requested
  if fails then throw .database
  match store.accounts.find? id with
  | none => throw (.notFound ("account ".toList ++ quoted (ofNat id)))
  | some current =>
      ensureNameFree lower store name (some id)
      let clientId := if requested.isEmpty then current.clientId else requested
      checkConstraints store name clientId (some id)
      let change (account : DnsAccount) : DnsAccount :=
        { account with name := name, clientId := clientId, enabled := input.enabled }
      pure (change current,
        { accounts := store.accounts.update (fun row => row.id == id) change fun _ => rfl
          groups := if current.name ≠ name then rewriteGroupEntries lower current.name (some name) store.groups
            else store.groups })

/-- `delete_dns_account` -/
def deleteDnsAccount (store : AccountStore) (id : Uuid) (fails : Bool) : Except AccountError (Bool × AccountStore) := do
  if fails then throw .database
  match store.accounts.find? id with
  | none => pure (false, store)
  | some current =>
      pure (true,
        { accounts := store.accounts.delete fun row => row.id == id
          groups := rewriteGroupEntries lower current.name none store.groups })

inductive AccountOp where
  | create (input : DnsAccountInput) (fresh : FreshAccount) (fails : Bool)
  | update (id : Uuid) (input : DnsAccountInput) (fails : Bool)
  | delete (id : Uuid) (fails : Bool)

/-- The store after an operation; one that fails leaves it as it was. -/
def AccountStore.step (store : AccountStore) : AccountOp → AccountStore
  | .create input fresh fails =>
      match createDnsAccount lower store input fresh fails with
      | .ok (_, after) => after
      | .error _ => store
  | .update id input fails =>
      match updateDnsAccount lower store id input fails with
      | .ok (_, after) => after
      | .error _ => store
  | .delete id fails =>
      match deleteDnsAccount lower store id fails with
      | .ok (_, after) => after
      | .error _ => store

/-- The entry names the account, as the compiled groups read it. -/
def namesAccount (name entry : Text) : Bool := (accountEntry entry).any fun named => lower named == lower name

/-- The group names the account. -/
def GroupRow.names (row : GroupRow) (name : Text) : Bool := (row.clients.getD []).any (namesAccount lower name)

end Lowercase

end DaygleDns.Authoritative
