import DaygleDns.Settings.SavedNetworks

/-! A save that succeeds keeps what the lists mean unless the new name captures an entry;
one that fails keeps everything as it is only where it fails before the first change. -/
namespace DaygleDns.Settings

open Text Policy Dispatch Authoritative Fallible

variable {libs : Libraries}

/-! The rows of a table. -/

section Rows

variable {α : Type} (fails : α → Bool) (write : α → Option α)

/-- The write of the row is made, and fails. -/
def stops (row : α) : Bool := (write row).isSome && fails row

/-- The rows before the first write that fails. -/
def rowsReached (rows : List α) : List α := rows.takeWhile fun row => !stops fails write row

/-- A row as a write leaves it. -/
def rewritten (row : α) : α := (write row).getD row

theorem writeRows_eq (rows : List α) :
    writeRows fails write rows =
      (rows.all fun row => !stops fails write row,
        (rowsReached fails write rows).map (rewritten write) ++ rows.dropWhile fun row => !stops fails write row) := by
  induction rows with
  | nil => rfl
  | cons row rest ih =>
    unfold writeRows rowsReached
    rw [ih, List.all_cons, List.takeWhile_cons, List.dropWhile_cons]
    cases hwrite : write row with
    | none => simp [stops, hwrite, rewritten, rowsReached]
    | some written =>
      cases hfails : fails row with
      | true => simp [stops, hwrite, hfails]
      | false => simp [stops, hwrite, hfails, rewritten, rowsReached]

theorem writeRows_of_all {rows : List α} (h : (writeRows fails write rows).1 = true) :
    (writeRows fails write rows).2 = rows.map (rewritten write) := by
  rw [writeRows_eq] at h ⊢
  have hall := List.all_eq_true.mp h
  dsimp only
  rw [rowsReached, List.takeWhile_eq_self_iff.mpr hall, List.dropWhile_eq_nil_iff.mpr hall, List.append_nil]

theorem writeRows_eq_self {rows : List α} :
    (writeRows fails write rows).2 = rows ↔ ∀ row ∈ rowsReached fails write rows, rewritten write row = row := by
  rw [writeRows_eq]
  conv_lhs => rhs; rw [← List.takeWhile_append_dropWhile (p := fun row => !stops fails write row) (l := rows)]
  have hmap := List.map_inj_left (l := rowsReached fails write rows) (f := rewritten write) (g := id)
  rw [List.map_id] at hmap
  rw [List.append_left_inj]
  exact hmap

end Rows

/-! The stored references. -/

theorem renameList_getD (old new : Text) (list : List Text) :
    (renameList old new list).getD list = list.map (renameEntry old new) := by
  unfold renameList
  cases hhit : list.any fun e => eqIgnoreAsciiCase (trim e) (trim old) with
  | true => rfl
  | false =>
    rw [if_neg (by decide), Option.getD_none]
    conv_lhs => rw [← List.map_id list]
    apply List.map_congr_left
    intro e he
    rw [renameEntry, if_neg (List.any_eq_false.mp hhit e he)]
    rfl

def renamedRow (rename : Text → Text) (row : StoredGroup) : StoredGroup :=
  { row with group := { row.group with clients := row.group.clients.map rename } }

def renamedSplitHorizon (rename : Text → Text) (entry : SplitHorizonEntry) : SplitHorizonEntry :=
  { entry with networks := entry.networks.map rename }

theorem renamedRow_id : renamedRow id = id := by
  funext row
  simp [renamedRow]

theorem renamedSplitHorizon_id : renamedSplitHorizon id = id := by
  funext entry
  simp [renamedSplitHorizon]

theorem rewritten_renamedGroup (old new : Text) :
    rewritten (renamedGroup old new) = renamedRow (renameEntry old new) := by
  funext row
  unfold rewritten renamedGroup renamedRow
  rw [← renameList_getD]
  cases renameList old new row.group.clients with
  | none => rfl
  | some clients => rfl

theorem rewritten_renamedEntry (old new : Text) :
    rewritten (renamedEntry old new) = renamedSplitHorizon (renameEntry old new) := by
  funext entry
  unfold rewritten renamedEntry renamedSplitHorizon
  rw [← renameList_getD]
  cases renameList old new entry.networks with
  | none => rfl
  | some networks => rfl

theorem renameStored_of_success {faults : StoreFaults} {input : NetworkInput} {console : Console}
    (h : (renameStored faults input console).1 = true) :
    (renameStored faults input console).2 =
      { console with
        entries := console.entries.map (renamedSplitHorizon (renameReference input))
        groups := console.groups.map (renamedRow (renameReference input)) } := by
  unfold renameStored at h ⊢
  cases hrenamed : input.renamed with
  | none =>
    rw [renameReference_of_none hrenamed, renamedRow_id, renamedSplitHorizon_id, List.map_id, List.map_id]
  | some original =>
    have hrename : renameReference input = renameEntry original input.network.name := by
      funext entry
      rw [renameReference, hrenamed]
    rw [hrename]
    simp only [hrenamed] at h
    dsimp only
    unfold renameStoredRefs at h ⊢
    cases hread : faults.listEntries || faults.listGroups || faults.lockConn with
    | true => simp [hread] at h
    | false =>
      cases hentries : (writeRows (fun entry => faults.updateEntry entry.id)
          (renamedEntry original input.network.name) console.entries).1 with
      | false => simp [hread, hentries] at h
      | true =>
        simp only [hread, hentries, Bool.false_eq_true, if_false, Bool.not_true] at h ⊢
        rw [writeRows_of_all _ _ hentries, writeRows_of_all _ _ h, rewritten_renamedEntry, rewritten_renamedGroup]

/-! What a save should keep. -/

/-- The lists, the groups and the index stand for what they stood for. -/
structure SameMeaning (libs : Libraries) (before after : Console) : Prop where
  lists : after.config.withNetworksResolved libs =
    { before.config.withNetworksResolved libs with networks := after.config.networks }
  groups : (after.groups.map fun row => compileGroup libs (after.config.resolveBlockingGroup libs row.group)) =
    before.groups.map fun row => compileGroup libs (before.config.resolveBlockingGroup libs row.group)
  entries : after.entries.map (indexedEntry libs after.indexed) =
    before.entries.map (indexedEntry libs before.config.allNetworks)

/-- The configuration, in use and saved, and every stored reference. -/
structure Unchanged (before after : Console) : Prop where
  config : after.config = before.config
  saved : after.saved = before.saved
  groups : after.groups = before.groups
  entries : after.entries = before.entries

/-- The tables can be read before the renaming. -/
def StoreFaults.readable (faults : StoreFaults) : Bool :=
  !(faults.listEntries || faults.listGroups || faults.lockConn)

/-- Every split-horizon entry with the name can be written. -/
def StoreFaults.entriesWritable (faults : StoreFaults) (old new : Text) (console : Console) : Bool :=
  console.entries.all fun entry => !stops (fun entry => faults.updateEntry entry.id) (renamedEntry old new) entry

def StoreFaults.groupsWritable (faults : StoreFaults) (old new : Text) (console : Console) : Bool :=
  console.groups.all fun row => !stops (fun row => faults.updateGroup row.id) (renamedGroup old new) row

/-- The renaming of the stored references goes through. -/
def StoreFaults.renames (faults : StoreFaults) (input : NetworkInput) (console : Console) : Bool :=
  input.renamed.all fun old => faults.readable && faults.entriesWritable old input.network.name console &&
    faults.groupsWritable old input.network.name console

/-- Nothing is written before the call that fails but what was there. -/
structure CleanFailure (faults : StoreFaults) (input : NetworkInput) (console : Console) (config : DaygleConfig) :
    Prop where
  entries : ∀ old ∈ input.renamed, faults.readable = true →
    ∀ entry ∈ rowsReached (fun entry => faults.updateEntry entry.id) (renamedEntry old input.network.name)
      console.entries, renamedSplitHorizon (renameEntry old input.network.name) entry = entry
  groups : ∀ old ∈ input.renamed, faults.readable = true →
    faults.entriesWritable old input.network.name console = true →
    ∀ row ∈ rowsReached (fun row => faults.updateGroup row.id) (renamedGroup old input.network.name)
      console.groups, renamedRow (renameEntry old input.network.name) row = row
  settings : faults.renames input console = true → faults.putRuntimeSettings = false →
    config = console.config ∧ config = console.saved

/-- The references that no check looks at. -/
def storedReferences (console : Console) : List Text :=
  console.groups.flatMap (·.group.clients) ++ console.entries.flatMap (·.networks)

section Meaning

variable {before after : List NamedNetwork} {network : NamedNetwork} {edited : Option NamedNetwork}
  {rename : Text → Text}

theorem indexedEntry_rename (hlibs : ReadsAddresses libs) (h : NameEdit libs before after network edited rename)
    {entry : SplitHorizonEntry} (hfree : ∀ text ∈ entry.networks, ¬ Captured network edited text) :
    indexedEntry libs after (renamedSplitHorizon rename entry) = indexedEntry libs before entry := by
  unfold indexedEntry renamedSplitHorizon
  dsimp only
  rw [List.flatMap_map, List.isEmpty_map]
  congr 1
  apply List.flatMap_congr
  intro text htext
  exact h.indexedNetworks_rename hlibs (hfree text htext)

/-- The index tells when an entry is captured. -/
theorem free_of_indexedEntry (hlibs : ReadsAddresses libs) (h : NameEdit libs before after network edited rename)
    {entry : SplitHorizonEntry}
    (hsame : indexedEntry libs after (renamedSplitHorizon rename entry) = indexedEntry libs before entry) :
    ∀ text ∈ entry.networks, ¬ Captured network edited text := by
  intro text htext hcaptured
  have hlt := length_lt_of_captured (fun e he => h.indexedNetworks_rename hlibs he)
    (fun e he => h.indexedNetworks_captured hlibs he) htext hcaptured
  have hlists := congrArg Prod.fst hsame
  unfold indexedEntry renamedSplitHorizon at hlists
  dsimp only at hlists
  rw [hlists] at hlt
  exact Nat.lt_irrefl _ hlt

theorem resolveBlockingGroup_rename {old config : DaygleConfig} (hlibs : ReadsAddresses libs)
    (h : NameEdit libs old.allNetworks config.allNetworks network edited rename) {row : StoredGroup}
    (hfree : ∀ text ∈ row.group.clients, ¬ Captured network edited text) :
    config.resolveBlockingGroup libs (renamedRow rename row).group = old.resolveBlockingGroup libs row.group := by
  unfold DaygleConfig.resolveBlockingGroup renamedRow
  dsimp only
  rw [h.resolveNetworkList_rename hlibs hfree]

/-- A compiled group tells when a client of it is captured. -/
theorem free_of_compileGroup {old config : DaygleConfig} (hlibs : ReadsAddresses libs)
    (h : NameEdit libs old.allNetworks config.allNetworks network edited rename) {row : StoredGroup}
    (hsame : compileGroup libs (config.resolveBlockingGroup libs (renamedRow rename row).group) =
      compileGroup libs (old.resolveBlockingGroup libs row.group)) :
    ∀ text ∈ row.group.clients, ¬ Captured network edited text := by
  intro text htext hcaptured
  have hlt := length_lt_of_captured (fun e he => h.groupNetworks_rename hlibs he)
    (fun e he => h.groupNetworks_captured hlibs he) htext hcaptured
  have hclients := congrArg CompiledGroup.clients hsame
  rw [clients_compileGroup, clients_compileGroup] at hclients
  unfold renamedRow at hclients
  dsimp only at hclients
  rw [hclients] at hlt
  exact Nat.lt_irrefl _ hlt

end Meaning

/-! The save. -/

section Save

variable {checker : Checker} {faults : StoreFaults} {input : NetworkInput} {console after : Console}

theorem saveNetwork_eq_ok {network : NamedNetwork}
    (h : saveNetwork checker faults input console = (.ok network, after)) :
    ∃ config, plannedConfig checker input console.config = .ok config ∧ after.config = config ∧
      after.indexed = config.allNetworks ∧
      after.entries = console.entries.map (renamedSplitHorizon (renameReference input)) ∧
      after.groups = console.groups.map (renamedRow (renameReference input)) := by
  unfold saveNetwork at h
  cases hplanned : plannedConfig checker input console.config with
  | error e => simp [hplanned] at h
  | ok config =>
    refine ⟨config, rfl, ?_⟩
    cases hrenamed : (renameStored faults input console).1 with
    | false => simp [hplanned, hrenamed] at h
    | true =>
      simp only [hplanned, hrenamed, Bool.not_true, Bool.false_eq_true, if_false] at h
      rw [renameStored_of_success hrenamed] at h
      unfold applyConfig at h
      cases hput : faults.putRuntimeSettings with
      | true => simp [hput] at h
      | false =>
        by_cases hindexed : console.indexed = config.allNetworks
        · simp only [hput, hindexed, Bool.false_eq_true, if_false, if_true, Prod.mk.injEq] at h
          rw [← h.2]
          exact ⟨rfl, rfl, rfl, rfl⟩
        · cases hbuild : faults.buildSplitHorizon with
          | true => simp [hput, hindexed, hbuild] at h
          | false =>
            simp only [hput, hindexed, hbuild, Bool.false_eq_true, if_false, if_true, Prod.mk.injEq] at h
            rw [← h.2]
            exact ⟨rfl, rfl, rfl, rfl⟩

theorem saved_same_iff (hlibs : ReadsAddresses checker.libs) (hvalid : console.config.validate checker = .ok ())
    {network : NamedNetwork} (h : saveNetwork checker faults input console = (.ok network, after))
    (hkeeps : KeepsAddresses checker.libs input console.config) :
    SameMeaning checker.libs console after ↔
      ∀ entry ∈ storedReferences console, ¬ Captured input.network (editedNetwork input console.config) entry := by
  obtain ⟨config, hplanned, hconfig, hindexed, hentries, hgroups⟩ := saveNetwork_eq_ok h
  have hname := nameEdit_of_planned hvalid hplanned hkeeps
  unfold storedReferences
  rw [List.forall_mem_append]
  constructor
  · intro hsame
    constructor
    · intro entry hentry
      obtain ⟨row, hrow, hclient⟩ := List.mem_flatMap.mp hentry
      have hcompiled := hsame.groups
      rw [hgroups, hconfig, List.map_map] at hcompiled
      exact free_of_compileGroup hlibs hname (List.map_inj_left.mp hcompiled row hrow) entry hclient
    · intro entry hentry
      obtain ⟨row, hrow, hnetwork⟩ := List.mem_flatMap.mp hentry
      have hnetworks := hsame.entries
      rw [hentries, hindexed, List.map_map] at hnetworks
      exact free_of_indexedEntry hlibs hname (List.map_inj_left.mp hnetworks row hrow) entry hnetwork
  · intro ⟨hclients, hnetworks⟩
    refine ⟨?_, ?_, ?_⟩
    · rw [hconfig]
      exact withNetworksResolved_planned hlibs hvalid hplanned hkeeps
    · rw [hgroups, hconfig, List.map_map]
      apply List.map_congr_left
      intro row hrow
      dsimp only [Function.comp]
      rw [resolveBlockingGroup_rename hlibs hname]
      intro text htext
      exact hclients text (List.mem_flatMap.mpr ⟨row, hrow, htext⟩)
    · rw [hentries, hindexed, List.map_map]
      apply List.map_congr_left
      intro entry hentry
      apply indexedEntry_rename hlibs hname
      intro text htext
      exact hnetworks text (List.mem_flatMap.mpr ⟨entry, hentry, htext⟩)

theorem renameStored_fst (faults : StoreFaults) (input : NetworkInput) (console : Console) :
    (renameStored faults input console).1 = faults.renames input console := by
  unfold renameStored StoreFaults.renames
  cases input.renamed with
  | none => rfl
  | some old =>
    dsimp only [Option.all_some]
    unfold renameStoredRefs StoreFaults.readable StoreFaults.entriesWritable StoreFaults.groupsWritable
    rw [writeRows_eq, writeRows_eq]
    cases hread : faults.listEntries || faults.listGroups || faults.lockConn with
    | true => rfl
    | false =>
      cases hentries : console.entries.all fun entry =>
          !stops (fun entry => faults.updateEntry entry.id) (renamedEntry old input.network.name) entry with
      | false => simp
      | true => simp

/-- The renaming leaves the settings alone. -/
theorem renameStored_settings (faults : StoreFaults) (input : NetworkInput) (console : Console) :
    (renameStored faults input console).2.config = console.config ∧
    (renameStored faults input console).2.saved = console.saved := by
  unfold renameStored renameStoredRefs
  cases input.renamed with
  | none => exact ⟨rfl, rfl⟩
  | some old =>
    dsimp only
    split
    · exact ⟨rfl, rfl⟩
    · split
      · exact ⟨rfl, rfl⟩
      · exact ⟨rfl, rfl⟩

theorem renameStored_entries (faults : StoreFaults) (input : NetworkInput) (console : Console) :
    (renameStored faults input console).2.entries = console.entries ↔
      ∀ old ∈ input.renamed, faults.readable = true →
        ∀ entry ∈ rowsReached (fun entry => faults.updateEntry entry.id) (renamedEntry old input.network.name)
          console.entries, renamedSplitHorizon (renameEntry old input.network.name) entry = entry := by
  unfold renameStored
  cases hrenamed : input.renamed with
  | none => simp
  | some old =>
    simp only [Option.mem_some_iff, forall_eq']
    rw [← rewritten_renamedEntry, ← writeRows_eq_self]
    unfold renameStoredRefs StoreFaults.readable
    cases hread : faults.listEntries || faults.listGroups || faults.lockConn with
    | true => simp
    | false =>
      rw [if_neg (by decide)]
      dsimp only
      split
      · simp
      · simp

theorem renameStored_groups (faults : StoreFaults) (input : NetworkInput) (console : Console) :
    (renameStored faults input console).2.groups = console.groups ↔
      ∀ old ∈ input.renamed, faults.readable = true →
        faults.entriesWritable old input.network.name console = true →
        ∀ row ∈ rowsReached (fun row => faults.updateGroup row.id) (renamedGroup old input.network.name)
          console.groups, renamedRow (renameEntry old input.network.name) row = row := by
  unfold renameStored
  cases hrenamed : input.renamed with
  | none => simp
  | some old =>
    simp only [Option.mem_some_iff, forall_eq']
    rw [← rewritten_renamedGroup, ← writeRows_eq_self]
    unfold renameStoredRefs StoreFaults.readable StoreFaults.entriesWritable
    cases hread : faults.listEntries || faults.listGroups || faults.lockConn with
    | true => simp
    | false =>
      rw [if_neg (by decide)]
      dsimp only
      rw [writeRows_eq (fun entry : SplitHorizonEntry => faults.updateEntry entry.id)]
      cases hentries : console.entries.all fun entry =>
          !stops (fun entry => faults.updateEntry entry.id) (renamedEntry old input.network.name) entry with
      | false => simp
      | true => simp

theorem applyConfig_rows (faults : StoreFaults) (config : DaygleConfig) (console : Console) :
    (applyConfig faults config console).2.entries = console.entries ∧
    (applyConfig faults config console).2.groups = console.groups := by
  unfold applyConfig
  split
  · exact ⟨rfl, rfl⟩
  · dsimp only
    split
    · exact ⟨rfl, rfl⟩
    · split
      · exact ⟨rfl, rfl⟩
      · exact ⟨rfl, rfl⟩

theorem applyConfig_settings (faults : StoreFaults) (config : DaygleConfig) (console : Console) :
    ((applyConfig faults config console).2.config = console.config ∧
      (applyConfig faults config console).2.saved = console.saved) ↔
      (faults.putRuntimeSettings = false → config = console.config ∧ config = console.saved) := by
  unfold applyConfig
  cases faults.putRuntimeSettings with
  | true => simp
  | false =>
    rw [if_neg (by decide)]
    dsimp only
    split
    · simp
    · split
      · simp
      · simp

/-- A save that fails leaves everything as it is exactly when it fails before its first
change. -/
theorem failed_unchanged_iff {e : SaveError} (h : saveNetwork checker faults input console = (.error e, after)) :
    Unchanged console after ↔
      ∀ config, plannedConfig checker input console.config = .ok config → CleanFailure faults input console config := by
  unfold saveNetwork at h
  cases hplanned : plannedConfig checker input console.config with
  | error planned =>
    simp only [hplanned, Prod.mk.injEq] at h
    rw [← h.2]
    constructor
    · intro _ config hconfig
      cases hconfig
    · intro _
      exact ⟨rfl, rfl, rfl, rfl⟩
  | ok config =>
    have hsettings := renameStored_settings faults input console
    have hentries := renameStored_entries faults input console
    have hgroups := renameStored_groups faults input console
    simp only [Except.ok.injEq, forall_eq']
    cases hrenames : faults.renames input console with
    | false =>
      simp only [hplanned, renameStored_fst, hrenames, Bool.not_false, if_true, Prod.mk.injEq] at h
      rw [← h.2]
      constructor
      · intro hsame
        refine ⟨hentries.mp hsame.entries, hgroups.mp hsame.groups, ?_⟩
        intro hall
        rw [hrenames] at hall
        cases hall
      · intro hclean
        exact ⟨hsettings.1, hsettings.2, hgroups.mpr hclean.groups, hentries.mpr hclean.entries⟩
    | true =>
      have happlied : (applyConfig faults config (renameStored faults input console).2).2 = after := by
        simp only [hplanned, renameStored_fst, hrenames, Bool.not_true, Bool.false_eq_true, if_false] at h
        split at h
        · exact (Prod.mk.inj h).2
        · exact (Prod.mk.inj h).2
      have hrows := applyConfig_rows faults config (renameStored faults input console).2
      have hput := applyConfig_settings faults config (renameStored faults input console).2
      rw [hsettings.1, hsettings.2] at hput
      rw [happlied] at hrows hput
      constructor
      · intro hsame
        refine ⟨hentries.mp (hrows.1.symm.trans hsame.entries), hgroups.mp (hrows.2.symm.trans hsame.groups), ?_⟩
        intro _
        exact hput.mp ⟨hsame.config, hsame.saved⟩
      · intro hclean
        obtain ⟨hconfig, hsaved⟩ := hput.mpr (hclean.settings hrenames)
        exact ⟨hconfig, hsaved, hrows.2.trans (hgroups.mpr hclean.groups),
          hrows.1.trans (hentries.mpr hclean.entries)⟩

/-- A save keeps what the lists mean, and one that fails keeps everything. -/
def NamesOnly (checker : Checker) (faults : StoreFaults) (input : NetworkInput) (console : Console) : Prop :=
  match saveNetwork checker faults input console with
  | (.ok _, after) => KeepsAddresses checker.libs input console.config → SameMeaning checker.libs console after
  | (.error _, after) => Unchanged console after

theorem NamesOnly.meaning (h : NamesOnly checker faults input console)
    (hok : (saveNetwork checker faults input console).1.isOk = true)
    (hkeeps : KeepsAddresses checker.libs input console.config) :
    SameMeaning checker.libs console (saveNetwork checker faults input console).2 := by
  unfold NamesOnly at h
  cases hsave : saveNetwork checker faults input console with
  | mk result after =>
    rw [hsave] at h hok
    cases result with
    | ok network => exact h hkeeps
    | error e => cases hok

theorem NamesOnly.unchanged (h : NamesOnly checker faults input console)
    (hfails : (saveNetwork checker faults input console).1.isOk = false) :
    Unchanged console (saveNetwork checker faults input console).2 := by
  unfold NamesOnly at h
  cases hsave : saveNetwork checker faults input console with
  | mk result after =>
    rw [hsave] at h hfails
    cases result with
    | ok network => cases hfails
    | error e => exact h

/-- Networks are only names, to a save that captures no stored entry; and a save that
fails changes nothing where it fails before its first change. -/
theorem save_network_iff (hlibs : ReadsAddresses checker.libs) (hvalid : console.config.validate checker = .ok ()) :
    match saveNetwork checker faults input console with
    | (.ok _, after) => KeepsAddresses checker.libs input console.config →
        (SameMeaning checker.libs console after ↔
          ∀ entry ∈ storedReferences console, ¬ Captured input.network (editedNetwork input console.config) entry)
    | (.error _, after) => Unchanged console after ↔
        ∀ config, plannedConfig checker input console.config = .ok config →
          CleanFailure faults input console config := by
  cases hsave : saveNetwork checker faults input console with
  | mk result after =>
    cases result with
    | ok network => exact saved_same_iff hlibs hvalid hsave
    | error e => exact failed_unchanged_iff hsave

end Save

/-! A group for the clients of an encrypted listener. -/

def plainChecker : Checker := ⟨plainLibraries, fun _ => .ok ()⟩

def noFaults : StoreFaults where
  listEntries := false
  listGroups := false
  lockConn := false
  updateEntry := fun _ => false
  updateGroup := fun _ => false
  putRuntimeSettings := false
  buildSplitHorizon := false

def plainConfig (networks : List NamedNetwork) : DaygleConfig where
  networks := networks
  recursionNetworks := []
  deniedNetworks := []
  allowedNetworks := []
  dns64 := ⟨false, "64:ff9b::/96".toList, []⟩
  axfrNetworks := []
  updateNetworks := []
  proxyProtocol := []
  dotAllowedNetworks := []
  dohAllowedNetworks := []
  doqAllowedNetworks := []
  rrlExempt := []
  clientPolicies := []
  policyRules := []
  others := []

def groupOf (clients : List Text) : BlockingGroup where
  name := "Kids".toList
  enabled := true
  clients := clients
  allow := []
  block := ["games.test".toList]
  allowRegex := []
  blockRegex := []
  blocklists := []
  response := .nxDomain
  schedule := []
  blockedServices := []
  blockedSecurity := []
  blockedTlds := []
  blockLocalAddresses := false
  limitPayloads := false

def consoleOf (networks : List NamedNetwork) (clients : List Text) : Console where
  config := plainConfig networks
  saved := plainConfig networks
  groups := [⟨1, groupOf clients⟩]
  entries := []
  indexed := (plainConfig networks).allNetworks

def lan : NamedNetwork := ⟨"LAN".toList, ["192.168.1.0/24".toList], []⟩

def addDot : NetworkInput := ⟨none, "DOT".toList, ["10.0.0.0/8".toList], []⟩

def renameLan : NetworkInput := ⟨some "LAN".toList, "Home".toList, ["192.168.1.0/24".toList], []⟩

/-- The clients of DNS over TLS are not blocked any more once a network is called DOT; and
a group that was of LAN is of a network that is not there when the settings fail to be
written. -/
theorem dot_network_takes_clients :
    ¬ NamesOnly plainChecker noFaults addDot (consoleOf [lan] ["dot".toList]) ∧
    ¬ NamesOnly plainChecker { noFaults with putRuntimeSettings := true } renameLan
      (consoleOf [lan] ["LAN".toList]) := by
  constructor
  · intro h
    have hsame := h.meaning (by decide) (fun n hn => nomatch hn)
    -- a client of DNS over TLS, at 203.0.113.9
    have hmatches := congrArg (List.map (CompiledGroup.matchesClient plainLibraries · ⟨.v4 0xCB007109, some .dot, none⟩))
      hsame.groups
    revert hmatches
    decide
  · intro h
    have hsame := h.unchanged (by decide)
    have hclients := congrArg (List.map (·.group.clients)) hsame.groups
    revert hclients
    decide

/-- LAN may be called Home. -/
theorem rename_lan_same :
    SameMeaning plainLibraries (consoleOf [lan] ["lan".toList])
      (saveNetwork plainChecker noFaults renameLan (consoleOf [lan] ["lan".toList])).2 := by
  have h := @save_network_iff plainChecker noFaults renameLan (consoleOf [lan] ["lan".toList]) reads_plainLibraries
    (by decide)
  have hok : (saveNetwork plainChecker noFaults renameLan (consoleOf [lan] ["lan".toList])).1.isOk = true := by
    decide
  have hedited : editedNetwork renameLan (plainConfig [lan]) = some lan := by decide
  cases hsave : saveNetwork plainChecker noFaults renameLan (consoleOf [lan] ["lan".toList]) with
  | mk result after =>
    rw [hsave] at h hok
    cases result with
    | error e => cases hok
    | ok network =>
      apply (h _).mpr
      · intro entry hentry hcaptured
        rw [show entry = "lan".toList from List.mem_singleton.mp hentry] at hcaptured
        exact absurd hcaptured.1 (by decide)
      · intro n hn
        cases hedited.symm.trans hn
        decide

end DaygleDns.Settings
