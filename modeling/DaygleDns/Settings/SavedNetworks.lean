import DaygleDns.Settings.NetworkNames

/-! A network saved from the console: what its name is written to, and what stays when a
call into the database fails. -/
namespace DaygleDns.Settings

open Text Policy Dispatch Authoritative Fallible

variable {libs : Libraries}

/-! The lists of a valid configuration. -/

theorem mapLists_congr {f g : List Text → List Text} {config : DaygleConfig}
    (h : ∀ list ∈ config.networkLists, f list.2 = g list.2) : config.mapLists f = config.mapLists g := by
  simp only [DaygleConfig.networkLists, List.forall_mem_append, List.forall_mem_cons, List.forall_mem_map] at h
  obtain ⟨⟨hlists, hpolicies⟩, hrules⟩ := h
  have hclientPolicies : config.clientPolicies.map (fun p => { p with clients := f p.clients }) =
      config.clientPolicies.map fun p => { p with clients := g p.clients } := by
    apply List.map_congr_left
    intro p hp
    rw [hpolicies p hp]
  have hpolicyRules : config.policyRules.map (fun r => { r with clients := f r.clients }) =
      config.policyRules.map fun r => { r with clients := g r.clients } := by
    apply List.map_congr_left
    intro r hr
    obtain ⟨i, hi⟩ := List.mem_iff_getElem?.mp hr
    rw [hrules (r, i) (List.mem_zipIdx_iff_getElem?.mpr hi)]
  unfold DaygleConfig.mapLists
  rw [hclientPolicies, hpolicyRules]
  simp only [hlists]

theorem mapLists_mapLists (f g : List Text → List Text) (config : DaygleConfig) :
    (config.mapLists f).mapLists g = config.mapLists (g ∘ f) := by
  simp only [DaygleConfig.mapLists, List.map_map]
  rfl

theorem mapLists_id (config : DaygleConfig) : config.mapLists id = config := by
  simp [DaygleConfig.mapLists]

/-- The entry is blank, an address or the name of a network. -/
def Stands (libs : Libraries) (networks : List NamedNetwork) (entry : Text) : Prop :=
  trim entry = [] ∨ (parseNetwork libs entry).isSome = true ∨ ∃ n ∈ networks, n.key = entryKey entry

theorem stands_of_isNetworkEntry {config : DaygleConfig} {entry : Text}
    (h : config.isNetworkEntry libs entry = true) : Stands libs config.allNetworks entry := by
  unfold DaygleConfig.isNetworkEntry at h
  rw [Bool.or_eq_true] at h
  cases h with
  | inl haddress => exact .inr (.inl haddress)
  | inr hname =>
    obtain ⟨n, hn⟩ := Option.isSome_iff_exists.mp hname
    refine .inr (.inr ⟨n, List.mem_of_find?_eq_some hn, ?_⟩)
    unfold DaygleConfig.findNetwork at hn
    have hsame := List.find?_some hn
    exact key_of_eqIgnoreAsciiCase hsame

theorem stands_of_checkEntries {config : DaygleConfig} {entries : List Text} {message : Text → Text}
    (h : checkEntries libs config entries message = .ok ()) : ∀ entry ∈ entries, Stands libs config.allNetworks entry := by
  intro entry hentry
  apply stands_of_isNetworkEntry
  have hchecked := forM_eq_ok.mp h entry hentry
  cases hknown : config.isNetworkEntry libs entry with
  | true => rfl
  | false =>
    rw [hknown] at hchecked
    cases hchecked

/-- What an entry that stands for nothing resolves to is itself, and no address. -/
theorem stands_of_expandEntry {networks : List NamedNetwork} {entry : Text}
    (h : ∀ c ∈ expandEntry libs networks entry, (parseNetwork libs c).isSome = true) :
    Stands libs networks entry := by
  rw [expandEntry_eq] at h
  by_cases hblank : trim entry = []
  · exact .inl hblank
  · rw [if_neg hblank] at h
    cases haddress : (parseNetwork libs entry).isSome with
    | true => exact .inr (.inl haddress)
    | false =>
      cases hnamed : named networks (entryKey entry) with
      | some n => exact .inr (.inr ⟨n, mem_of_named hnamed⟩)
      | none =>
        rw [haddress, if_neg (by decide), hnamed] at h
        have hparse := h (trim entry) List.mem_cons_self
        rw [parseNetwork_trim, haddress] at hparse
        cases hparse

theorem stands_of_compile {settings : Dns64Settings} {networks : List NamedNetwork} {result : Option Dns64}
    (h : settings.compile libs networks = .ok result) : ∀ entry ∈ settings.clients, Stands libs networks entry := by
  intro entry hentry
  apply stands_of_expandEntry
  intro c hc
  have hmem : c ∈ resolveNetworkList libs networks settings.clients := List.mem_flatMap.mpr ⟨entry, hentry, hc⟩
  unfold Dns64Settings.compile at h
  cases hparsed : libs.parseIpNet (trim settings.prefixText) with
  | none => simp [hparsed] at h
  | some net =>
    cases net with
    | v4 net => simp [hparsed] at h
    | v6 net =>
      simp only [hparsed, throw_eq, error_bind, pure_eq, guard_eq_ok, bind_eq_ok] at h
      obtain ⟨_, _, clients, hclients, _⟩ := h
      obtain ⟨net, hnet⟩ := mapM_ok_iff.mp ⟨clients, hclients⟩ c hmem
      cases hparse : parseNetwork libs c with
      | some net => rfl
      | none =>
        rw [hparse] at hnet
        cases hnet

/-- What the check says of networks and of the lists that name them. -/
structure ValidConfig (checker : Checker) (config : DaygleConfig) : Prop where
  networks : checkNetworks checker.libs [] config.networks = .ok ()
  lists : ∀ list ∈ config.networkLists, ∀ entry ∈ list.2, Stands checker.libs config.allNetworks entry

theorem validConfig_of_validate {checker : Checker} {config : DaygleConfig} (h : config.validate checker = .ok ()) :
    ValidConfig checker config := by
  unfold DaygleConfig.validate at h
  simp only [bind_eq_ok] at h
  obtain ⟨_, hnetworks, _, hpolicies, _, hrecursion, _, hdot, _, hdoh, _, hdoq, _, hdenied, _, hallowed, _, haxfr,
    _, hupdate, _, hrrl, _, hproxy, _, hrules, dns64, hdns64, _⟩ := h
  refine ⟨hnetworks, ?_⟩
  have hclients : ∀ entry ∈ config.dns64.clients, Stands checker.libs config.allNetworks entry := by
    cases hcompile : config.dns64.compile checker.libs config.allNetworks with
    | error e => simp [hcompile, Except.mapError] at hdns64
    | ok result => exact stands_of_compile hcompile
  simp only [DaygleConfig.networkLists, List.forall_mem_append, List.forall_mem_cons, List.forall_mem_map,
    List.not_mem_nil, false_implies, implies_true, and_true]
  refine ⟨⟨⟨stands_of_checkEntries hrecursion, stands_of_checkEntries hdenied, stands_of_checkEntries hallowed,
    hclients, stands_of_checkEntries haxfr, stands_of_checkEntries hupdate, stands_of_checkEntries hproxy,
    stands_of_checkEntries hdot, stands_of_checkEntries hdoh, stands_of_checkEntries hdoq,
    stands_of_checkEntries hrrl⟩, ?_⟩, ?_⟩
  · intro policy hpolicy
    have hchecked := forM_eq_ok.mp hpolicies policy hpolicy
    unfold checkClientPolicy at hchecked
    rw [guard_eq_ok] at hchecked
    exact stands_of_checkEntries hchecked.2
  · intro rule hrule
    exact stands_of_checkEntries (forM_eq_ok.mp hrules rule hrule)

/-! The configuration that is saved. -/

/-- The network that the request edits. -/
def editedNetwork (input : NetworkInput) (config : DaygleConfig) : Option NamedNetwork :=
  input.originalName.bind fun original => config.networks.find? fun n => eqIgnoreAsciiCase n.name (trim original)

/-- What becomes of a reference. -/
def renameReference (input : NetworkInput) (entry : Text) : Text :=
  match input.renamed with
  | some original => renameEntry original input.network.name entry
  | none => entry

theorem renameReference_of_none {input : NetworkInput} (h : input.renamed = none) : renameReference input = id := by
  funext entry
  unfold renameReference
  rw [h]
  rfl

theorem replaceNamed_eq_some {name : Text} {network : NamedNetwork} {networks replaced : List NamedNetwork}
    (h : replaceNamed name network networks = some replaced) :
    ∃ n others, networks.find? (fun n => eqIgnoreAsciiCase n.name name) = some n ∧
      networks.Perm (n :: others) ∧ replaced.Perm (network :: others) := by
  induction networks generalizing replaced with
  | nil => cases h
  | cons first rest ih =>
    unfold replaceNamed at h
    cases hname : eqIgnoreAsciiCase first.name name with
    | true =>
      simp only [hname, if_true, Option.some.injEq] at h
      refine ⟨first, rest, List.find?_cons_of_pos hname, .refl _, ?_⟩
      rw [← h]
    | false =>
      simp only [hname, Bool.false_eq_true, if_false, Option.map_eq_some_iff] at h
      obtain ⟨tail, htail, hreplaced⟩ := h
      obtain ⟨n, others, hfind, hrest, hperm⟩ := ih htail
      refine ⟨n, first :: others, ?_, ?_, ?_⟩
      · rw [List.find?_cons_of_neg (by rw [hname]; decide)]
        exact hfind
      · exact (hrest.cons first).trans (.swap n first others)
      · rw [← hreplaced]
        exact (hperm.cons first).trans (.swap network first others)

theorem editNetworks_eq_ok {input : NetworkInput} {config edited : DaygleConfig}
    (h : editNetworks input config = .ok edited) :
    edited = { config with networks := edited.networks } ∧
    (input.originalName.isSome = (editedNetwork input config).isSome) ∧ input.network ∈ edited.networks ∧
    ∃ others, config.allNetworks.Perm ((editedNetwork input config).toList ++ others) ∧
      edited.allNetworks.Perm (input.network :: others) := by
  unfold editNetworks at h
  unfold editedNetwork
  cases horiginal : input.originalName with
  | none =>
    simp only [horiginal, guard_eq_ok, Except.ok.injEq] at h
    rw [← h.2]
    refine ⟨rfl, rfl, List.mem_append_right _ List.mem_cons_self, config.allNetworks, .refl _, ?_⟩
    unfold DaygleConfig.allNetworks
    dsimp only
    rw [← List.append_assoc]
    exact List.perm_append_singleton _ _
  | some original =>
    simp only [horiginal] at h
    cases hreplaced : replaceNamed (trim original) input.network config.networks with
    | none => simp [hreplaced] at h
    | some networks =>
      simp only [hreplaced, Except.ok.injEq] at h
      obtain ⟨n, others, hfind, hbefore, hafter⟩ := replaceNamed_eq_some hreplaced
      rw [Option.bind_some, hfind, ← h]
      refine ⟨rfl, rfl, hafter.symm.subset List.mem_cons_self, builtinNetworks ++ others, ?_, ?_⟩
      · exact (hbefore.append_left _).trans List.perm_middle
      · exact (hafter.append_left _).trans List.perm_middle

theorem renameConfigRefs_eq (input : NetworkInput) (config : DaygleConfig) :
    renameConfigRefs input config = config.mapLists (List.map (renameReference input)) := by
  unfold renameConfigRefs
  cases hrenamed : input.renamed with
  | none =>
    rw [renameReference_of_none hrenamed, List.map_id_fun, mapLists_id]
  | some original =>
    unfold renameReference DaygleConfig.renameNetworkRefs
    rw [hrenamed]

theorem plannedConfig_eq_ok {checker : Checker} {input : NetworkInput} {old config : DaygleConfig}
    (hvalid : old.validate checker = .ok ()) (h : plannedConfig checker input old = .ok config) :
    config.validate checker = .ok () ∧
    ∃ edited, editNetworks input old = .ok edited ∧ config = edited.mapLists (List.map (renameReference input)) := by
  unfold plannedConfig validateConfigUpdate at h
  cases hedit : editNetworks input old with
  | error e => simp [hedit] at h
  | ok edited =>
    cases hcheck : (renameConfigRefs input edited).validate checker with
    | error e => simp [hedit, hcheck, hvalid] at h
    | ok _ =>
      simp only [hedit, hcheck, Except.ok.injEq] at h
      rw [← h]
      exact ⟨hcheck, edited, rfl, renameConfigRefs_eq input edited⟩

/-- A change of networks that keeps the other ones as they are. -/
theorem nameEdit_of_perm {before after others : List NamedNetwork} {network : NamedNetwork}
    {edited : Option NamedNetwork} {rename : Text → Text} (hbefore : before.Perm (edited.toList ++ others))
    (hafter : after.Perm (network :: others)) (hnodupBefore : (before.map NamedNetwork.key).Nodup)
    (hnodupAfter : (after.map NamedNetwork.key).Nodup) (hvalid : ValidNetwork libs network)
    (heditedValid : ∀ n, edited = some n → ValidNetwork libs n)
    (hhit : ∀ entry n, edited = some n → entryKey entry = n.key →
      rename entry = network.name ∨ (rename entry = entry ∧ n.key = network.key))
    (hmiss : ∀ entry, (∀ n, edited = some n → entryKey entry ≠ n.key) → rename entry = entry)
    (hkeeps : ∀ n, edited = some n → addresses libs network = addresses libs n) :
    NameEdit libs before after network edited rename := by
  have hfresh : network.key ∉ others.map NamedNetwork.key := by
    have hnodup := (hafter.map NamedNetwork.key).nodup_iff.mp hnodupAfter
    rw [List.map_cons, List.nodup_cons] at hnodup
    exact hnodup.1
  have hothers : ∀ n, n ∈ others ↔ n ∈ before ∧ edited ≠ some n := by
    intro n
    rw [hbefore.mem_iff, List.mem_append, Option.mem_toList]
    constructor
    · intro hn
      refine ⟨.inr hn, ?_⟩
      intro hedited
      have hnodup := (hbefore.map NamedNetwork.key).nodup_iff.mp hnodupBefore
      rw [hedited, Option.toList_some, List.singleton_append, List.map_cons, List.nodup_cons] at hnodup
      exact hnodup.1 (List.mem_map_of_mem hn)
    · intro ⟨hmem, hother⟩
      exact hmem.resolve_left hother
  refine ⟨hnodupBefore, hnodupAfter, ?_, ?_, hvalid, ?_, heditedValid, hhit, hmiss, hkeeps⟩
  · intro n
    rw [hafter.mem_iff, List.mem_cons, hothers]
  · intro n hn hother hkey
    apply hfresh
    rw [← hkey]
    exact List.mem_map_of_mem ((hothers n).mpr ⟨hn, hother⟩)
  · intro n hedited
    rw [hbefore.mem_iff, hedited]
    exact List.mem_append_left _ List.mem_cons_self

section Renaming

variable {input : NetworkInput} {config : DaygleConfig}

theorem editedNetwork_eq_some {n : NamedNetwork} (h : editedNetwork input config = some n) :
    ∃ original, input.originalName = some original ∧ n ∈ config.networks ∧ n.key = entryKey original := by
  unfold editedNetwork at h
  rw [Option.bind_eq_some_iff] at h
  obtain ⟨original, horiginal, hfind⟩ := h
  have hname := List.find?_some hfind
  exact ⟨original, horiginal, List.mem_of_find?_eq_some hfind, key_of_eqIgnoreAsciiCase hname⟩

theorem renamed_eq_some {original : Text} (h : input.renamed = some original) :
    ∃ text, input.originalName = some text ∧ original = trim text := by
  unfold NetworkInput.renamed at h
  obtain ⟨hmap, _⟩ := Option.filter_eq_some_iff.mp h
  obtain ⟨text, htext, htrim⟩ := Option.map_eq_some_iff.mp hmap
  exact ⟨text, htext, htrim.symm⟩

theorem renameEntry_trim (original new entry : Text) :
    renameEntry (trim original) new entry = if entryKey entry = entryKey original then new else entry := by
  unfold renameEntry eqIgnoreAsciiCase entryKey
  rw [trim_trim]
  simp only [beq_iff_eq]

theorem renameReference_hit {entry : Text} {n : NamedNetwork} (hedited : editedNetwork input config = some n)
    (hkey : entryKey entry = n.key) :
    renameReference input entry = input.network.name ∨
      (renameReference input entry = entry ∧ n.key = input.network.key) := by
  obtain ⟨original, horiginal, _, hn⟩ := editedNetwork_eq_some hedited
  unfold renameReference
  cases hrenamed : input.renamed with
  | some old =>
    obtain ⟨text, htext, htrim⟩ := renamed_eq_some hrenamed
    cases horiginal.symm.trans htext
    dsimp only
    rw [htrim, renameEntry_trim, if_pos (hkey.trans hn)]
    exact .inl rfl
  | none =>
    refine .inr ⟨rfl, ?_⟩
    unfold NetworkInput.renamed at hrenamed
    rw [horiginal, Option.map_some, Option.filter_eq_none_iff] at hrenamed
    have hsame := hrenamed (trim original) rfl
    rw [decide_eq_true_iff, not_not] at hsame
    rw [hn, NamedNetwork.key, ← hsame, trim_trim, entryKey]

theorem renameReference_miss {entry : Text}
    (hfound : input.originalName.isSome = (editedNetwork input config).isSome)
    (hother : ∀ n, editedNetwork input config = some n → entryKey entry ≠ n.key) :
    renameReference input entry = entry := by
  unfold renameReference
  cases hrenamed : input.renamed with
  | none => rfl
  | some old =>
    obtain ⟨text, htext, htrim⟩ := renamed_eq_some hrenamed
    rw [htext, Option.isSome_some] at hfound
    obtain ⟨n, hn⟩ := Option.isSome_iff_exists.mp hfound.symm
    obtain ⟨original, horiginal, _, hkey⟩ := editedNetwork_eq_some hn
    cases htext.symm.trans horiginal
    dsimp only
    rw [htrim, renameEntry_trim, if_neg]
    rw [← hkey]
    exact hother n hn

end Renaming

/-- The network that gives way has the same addresses. -/
def KeepsAddresses (libs : Libraries) (input : NetworkInput) (config : DaygleConfig) : Prop :=
  ∀ n, editedNetwork input config = some n → addresses libs input.network = addresses libs n

theorem nameEdit_of_planned {checker : Checker} {input : NetworkInput} {old config : DaygleConfig}
    (hvalid : old.validate checker = .ok ()) (hplanned : plannedConfig checker input old = .ok config)
    (hkeeps : KeepsAddresses checker.libs input old) :
    NameEdit checker.libs old.allNetworks config.allNetworks input.network (editedNetwork input old)
      (renameReference input) := by
  obtain ⟨hchecked, edited, hedit, hconfig⟩ := plannedConfig_eq_ok hvalid hplanned
  obtain ⟨_, hfound, hmem, others, hbefore, hafter⟩ := editNetworks_eq_ok hedit
  have hold := (validConfig_of_validate hvalid).networks
  have hnew := (validConfig_of_validate hchecked).networks
  have hnetworks : config.networks = edited.networks := by
    rw [hconfig]
    rfl
  rw [← hnetworks] at hmem
  have hafter : config.allNetworks.Perm (input.network :: others) := by
    rw [DaygleConfig.allNetworks, hnetworks]
    exact hafter
  apply nameEdit_of_perm hbefore hafter (nodup_keys hold) (nodup_keys hnew)
  · exact validNetwork_of_validate ((checkNetworks_eq_ok hnew).1 _ hmem).1
  · intro n hn
    obtain ⟨_, _, hn, _⟩ := editedNetwork_eq_some hn
    exact validNetwork_of_validate ((checkNetworks_eq_ok hold).1 n hn).1
  · intro entry n
    exact renameReference_hit
  · intro entry
    exact renameReference_miss hfound
  · exact hkeeps

/-- An entry that stands for something is not captured. -/
theorem free_of_stands {before after : List NamedNetwork} {network : NamedNetwork} {edited : Option NamedNetwork}
    {rename : Text → Text} (hlibs : ReadsAddresses libs) (h : NameEdit libs before after network edited rename)
    {entry : Text} (hstands : Stands libs before entry) : ¬ Captured network edited entry := by
  intro hcaptured
  rcases hstands with hblank | haddress | ⟨n, hn, hkey⟩
  · exact notBlank_of_key h.valid hcaptured.1 hblank
  · rw [notAddress_of_key h.valid hcaptured.1 hlibs] at haddress
    cases haddress
  · exact named_eq_none.mp (h.named_captured hcaptured) n hn hkey

/-- The lists of the configuration mean what they meant. -/
theorem withNetworksResolved_planned {checker : Checker} {input : NetworkInput} {old config : DaygleConfig}
    (hlibs : ReadsAddresses checker.libs) (hvalid : old.validate checker = .ok ())
    (hplanned : plannedConfig checker input old = .ok config) (hkeeps : KeepsAddresses checker.libs input old) :
    config.withNetworksResolved checker.libs =
      { old.withNetworksResolved checker.libs with networks := config.networks } := by
  have hname := nameEdit_of_planned hvalid hplanned hkeeps
  obtain ⟨_, edited, hedit, hconfig⟩ := plannedConfig_eq_ok hvalid hplanned
  have hnetworks : config.networks = edited.networks := by
    rw [hconfig]
    rfl
  have hlists : old.mapLists (resolveNetworkList checker.libs config.allNetworks ∘ List.map (renameReference input)) =
      old.mapLists (resolveNetworkList checker.libs old.allNetworks) := by
    apply mapLists_congr
    intro list hlist
    apply hname.resolveNetworkList_rename hlibs
    intro entry hentry
    exact free_of_stands hlibs hname ((validConfig_of_validate hvalid).lists list hlist entry hentry)
  unfold DaygleConfig.withNetworksResolved
  rw [← hlists]
  conv_lhs => rw [hconfig, mapLists_mapLists, ← hconfig, (editNetworks_eq_ok hedit).1, ← hnetworks]
  rfl

end DaygleDns.Settings
