import DaygleDns.Authoritative.Model
import DaygleDns.Dispatch.Dns64

/-! Where networks are named: the lists of the configuration, the filtering groups and
the split-horizon entries; and a network saved from the console, with its new name
written to every one of them. -/
namespace DaygleDns.Settings

open Text Policy Dispatch Authoritative

structure ClientPolicyConfig where
  name : Text
  clients : List Text
deriving DecidableEq

structure PolicyRuleConfig where
  clients : List Text
deriving DecidableEq

/-- The settings that name networks; `others` are the rest. -/
structure DaygleConfig where
  networks : List NamedNetwork
  recursionNetworks : List Text
  deniedNetworks : List Text
  allowedNetworks : List Text
  dns64 : Dns64Settings
  axfrNetworks : List Text
  updateNetworks : List Text
  proxyProtocol : List Text
  dotAllowedNetworks : List Text
  dohAllowedNetworks : List Text
  doqAllowedNetworks : List Text
  rrlExempt : List Text
  clientPolicies : List ClientPolicyConfig
  policyRules : List PolicyRuleConfig
  others : Text
deriving DecidableEq

structure SplitHorizonEntry where
  id : Uuid
  domain : Text
  networks : List Text
  disabled : Bool
deriving DecidableEq

structure StoredGroup where
  id : Uuid
  group : BlockingGroup
deriving DecidableEq

/-- The checks of the other settings, and the parsers. -/
structure Checker where
  libs : Libraries
  checkOthers : DaygleConfig → Except Text Unit

namespace DaygleConfig

def allNetworks (config : DaygleConfig) : List NamedNetwork := builtinNetworks ++ config.networks

/-- The network called `name`, in any case. -/
def findNetwork (config : DaygleConfig) (name : Text) : Option NamedNetwork :=
  config.allNetworks.find? fun n => eqIgnoreAsciiCase n.name (trim name)

def isNetworkEntry (libs : Libraries) (config : DaygleConfig) (entry : Text) : Bool :=
  (parseNetwork libs entry).isSome || (config.findNetwork entry).isSome

/-- Every list that may name networks, with its label. -/
def networkLists (config : DaygleConfig) : List (Text × List Text) :=
  [("Recursion access".toList, config.recursionNetworks), ("Denied networks".toList, config.deniedNetworks),
    ("Allowed networks".toList, config.allowedNetworks), ("DNS64".toList, config.dns64.clients),
    ("Zone transfers".toList, config.axfrNetworks), ("Dynamic updates".toList, config.updateNetworks),
    ("PROXY protocol".toList, config.proxyProtocol), ("DoT allowed networks".toList, config.dotAllowedNetworks),
    ("DoH allowed networks".toList, config.dohAllowedNetworks),
    ("DoQ allowed networks".toList, config.doqAllowedNetworks),
    ("Response rate limiting exemptions".toList, config.rrlExempt)] ++
  config.clientPolicies.map (fun p => ("Client policy ".toList ++ quoted p.name, p.clients)) ++
  config.policyRules.zipIdx.map (fun r => ("Policy rule ".toList ++ ofNat (r.2 + 1), r.1.clients))

/-- A change of every list of `network_lists_mut`. -/
def mapLists (change : List Text → List Text) (config : DaygleConfig) : DaygleConfig :=
  { config with
    recursionNetworks := change config.recursionNetworks
    deniedNetworks := change config.deniedNetworks
    allowedNetworks := change config.allowedNetworks
    dns64 := { config.dns64 with clients := change config.dns64.clients }
    axfrNetworks := change config.axfrNetworks
    updateNetworks := change config.updateNetworks
    proxyProtocol := change config.proxyProtocol
    dotAllowedNetworks := change config.dotAllowedNetworks
    dohAllowedNetworks := change config.dohAllowedNetworks
    doqAllowedNetworks := change config.doqAllowedNetworks
    rrlExempt := change config.rrlExempt
    clientPolicies := config.clientPolicies.map fun p => { p with clients := change p.clients }
    policyRules := config.policyRules.map fun r => { r with clients := change r.clients } }

/-- The two walks are over the same lists. -/
theorem networkLists_mapLists (change : List Text → List Text) (config : DaygleConfig) :
    (config.mapLists change).networkLists = config.networkLists.map fun list => (list.1, change list.2) := by
  simp only [networkLists, mapLists, List.map_append, List.map_cons, List.map_nil, List.map_map, List.zipIdx_map]
  rfl

def withNetworksResolved (libs : Libraries) (config : DaygleConfig) : DaygleConfig :=
  config.mapLists (resolveNetworkList libs config.allNetworks)

def resolveBlockingGroup (libs : Libraries) (config : DaygleConfig) (group : BlockingGroup) : BlockingGroup :=
  { group with clients := resolveNetworkList libs config.allNetworks group.clients }

end DaygleConfig

/-- An entry that is the name `old` becomes `new`. -/
def renameEntry (old new entry : Text) : Text :=
  if eqIgnoreAsciiCase (trim entry) (trim old) then new else entry

def DaygleConfig.renameNetworkRefs (old new : Text) (config : DaygleConfig) : DaygleConfig :=
  config.mapLists (List.map (renameEntry old new))

/-! The check. -/

def validateNamedNetwork (libs : Libraries) (network : NamedNetwork) : Except Text Unit :=
  let name := trim network.name
  if name.isEmpty then .error "a network needs a name".toList
  else if 64 < utf8Len name then
    .error ("network name ".toList ++ quoted name ++ " is longer than 64 characters".toList)
  else if (parseNetwork libs name).isSome || contains ['/'] name || contains [','] name then
    .error (quoted name ++ " looks like an address; give the network a name such as LAN".toList)
  else if network.cidrs.all fun c => (trim c).isEmpty then
    .error ("network ".toList ++ quoted name ++ " has no addresses".toList)
  else match network.cidrs.find? fun c => !(trim c).isEmpty && (parseNetwork libs c).isNone with
    | some cidr => .error ("network ".toList ++ quoted name ++ ": ".toList ++ quoted (trim cidr) ++
        " is not a network or address".toList)
    | none => .ok ()

/-- A network as it is looked up. -/
def NamedNetwork.key (network : NamedNetwork) : Text := toAsciiLowercase (trim network.name)

/-- The networks in order; `names` are those before them. -/
def checkNetworks (libs : Libraries) (names : List Text) : List NamedNetwork → Except Text Unit
  | [] => .ok ()
  | network :: rest => do
      validateNamedNetwork libs network
      if builtinNetworks.any fun b => eqIgnoreAsciiCase b.name network.key then
        throw (quoted (trim network.name) ++ " is a built-in network name".toList)
      if network.key ∈ names then
        throw ("two networks are named ".toList ++ quoted (trim network.name))
      checkNetworks libs (network.key :: names) rest

def checkEntries (libs : Libraries) (config : DaygleConfig) (entries : List Text) (message : Text → Text) :
    Except Text Unit :=
  entries.forM fun entry => if config.isNetworkEntry libs entry then .ok () else .error (message entry)

def checkClientPolicy (libs : Libraries) (config : DaygleConfig) (policy : ClientPolicyConfig) : Except Text Unit :=
  if policy.clients.isEmpty then
    .error ("client policy ".toList ++ quoted (trim policy.name) ++ " has no client networks".toList)
  else checkEntries libs config policy.clients fun network =>
    "client policy ".toList ++ quoted (trim policy.name) ++ " contains invalid network ".toList ++ quoted network

/-- `DaygleConfig::validate`: what it says of networks, and the rest. -/
def DaygleConfig.validate (checker : Checker) (config : DaygleConfig) : Except Text Unit := do
  let libs := checker.libs
  let invalid (label : String) (net : Text) : Text := label.toList ++ " contains invalid network ".toList ++ quoted net
  checkNetworks libs [] config.networks
  config.clientPolicies.forM (checkClientPolicy libs config)
  checkEntries libs config config.recursionNetworks (invalid "recursive.recursion_networks")
  checkEntries libs config config.dotAllowedNetworks (invalid "dot.allowed_networks")
  checkEntries libs config config.dohAllowedNetworks (invalid "doh.allowed_networks")
  checkEntries libs config config.doqAllowedNetworks (invalid "doq.allowed_networks")
  checkEntries libs config config.deniedNetworks (invalid "policy.denied_networks")
  checkEntries libs config config.allowedNetworks (invalid "policy.allowed_networks")
  checkEntries libs config config.axfrNetworks (invalid "authoritative.axfr_networks")
  checkEntries libs config config.updateNetworks (invalid "authoritative.update_networks")
  checkEntries libs config config.rrlExempt fun entry =>
    "rrl.exempt: ".toList ++ quoted entry ++ " is not a network, an address or a network name".toList
  checkEntries libs config config.proxyProtocol fun entry =>
    "server.proxy_protocol: ".toList ++ quoted entry ++ " is not a network or address".toList
  config.policyRules.zipIdx.forM fun rule => checkEntries libs config rule.1.clients fun network =>
    "policy rule ".toList ++ ofNat (rule.2 + 1) ++ " contains invalid network ".toList ++ quoted network
  let _ ← (config.dns64.compile libs config.allNetworks).mapError ("dns64: ".toList ++ ·)
  checker.checkOthers config

/-! The split-horizon index. -/

/-- The addresses of the network of that name, as the index keeps them. -/
def indexedNetwork (libs : Libraries) (networks : List NamedNetwork) (name : Text) : List Network :=
  match networks.reverse.find? fun n => n.key == toAsciiLowercase (trim name) && !(parseNetworks libs n.cidrs).isEmpty with
  | some network => parseNetworks libs network.cidrs
  | none => []

/-- What one of an entry's networks stands for in the index. -/
def indexedNetworks (libs : Libraries) (networks : List NamedNetwork) (text : Text) : List Network :=
  match parseNetwork libs text with
  | some net => [net]
  | none => indexedNetwork libs networks text

/-- The networks of an entry in the index, and whether it matches everyone. -/
def indexedEntry (libs : Libraries) (networks : List NamedNetwork) (entry : SplitHorizonEntry) :
    List Network × Bool :=
  (entry.networks.flatMap (indexedNetworks libs networks), entry.networks.isEmpty)

/-! The database. -/

/-- The calls into the database of one request that may fail. -/
structure StoreFaults where
  listEntries : Bool
  listGroups : Bool
  lockConn : Bool
  updateEntry : Uuid → Bool
  updateGroup : Uuid → Bool
  putRuntimeSettings : Bool
  buildSplitHorizon : Bool

/-- The server's settings: the configuration in use and the one saved, the stored
groups and entries, and the networks that the split-horizon index was built from. -/
structure Console where
  config : DaygleConfig
  saved : DaygleConfig
  groups : List StoredGroup
  entries : List SplitHorizonEntry
  indexed : List NamedNetwork

/-- The renamed form of a list that has the name in it. -/
def renameList (old new : Text) (list : List Text) : Option (List Text) :=
  if list.any fun e => eqIgnoreAsciiCase (trim e) (trim old) then some (list.map (renameEntry old new)) else none

/-- Write the rows that change, one after the other, until a write fails; `false` when
one did. -/
def writeRows {α : Type} (fails : α → Bool) (write : α → Option α) : List α → Bool × List α
  | [] => (true, [])
  | row :: rest =>
      match write row with
      | none => ((writeRows fails write rest).1, row :: (writeRows fails write rest).2)
      | some written =>
          if fails row then (false, row :: rest)
          else ((writeRows fails write rest).1, written :: (writeRows fails write rest).2)

def renamedEntry (old new : Text) (entry : SplitHorizonEntry) : Option SplitHorizonEntry :=
  (renameList old new entry.networks).map fun networks => { entry with networks := networks }

def renamedGroup (old new : Text) (row : StoredGroup) : Option StoredGroup :=
  (renameList old new row.group.clients).map fun clients => { row with group := { row.group with clients := clients } }

/-- `ZoneStore::rename_network_refs`: whether it succeeded, and the rows it leaves. -/
def renameStoredRefs (faults : StoreFaults) (old new : Text) (console : Console) : Bool × Console :=
  if faults.listEntries || faults.listGroups || faults.lockConn then (false, console)
  else
    let entries := writeRows (fun entry => faults.updateEntry entry.id) (renamedEntry old new) console.entries
    if !entries.1 then (false, { console with entries := entries.2 })
    else
      let groups := writeRows (fun row => faults.updateGroup row.id) (renamedGroup old new) console.groups
      (groups.1, { console with entries := entries.2, groups := groups.2 })

/-! Saving a network. -/

structure NetworkInput where
  originalName : Option Text
  name : Text
  cidrs : List Text
  description : Text

def NetworkInput.network (input : NetworkInput) : NamedNetwork where
  name := trim input.name
  cidrs := (input.cidrs.map trim).filter (!·.isEmpty)
  description := trim input.description

inductive SaveError where
  | notFound (text : Text)
  | conflict (text : Text)
  | config (text : Text)
  | database
deriving DecidableEq

/-- Put the network in the place of the first that has that name. -/
def replaceNamed (name : Text) (network : NamedNetwork) : List NamedNetwork → Option (List NamedNetwork)
  | [] => none
  | n :: rest =>
      if eqIgnoreAsciiCase n.name name then some (network :: rest)
      else (replaceNamed name network rest).map (n :: ·)

/-- The configuration with the network added or edited. -/
def editNetworks (input : NetworkInput) (config : DaygleConfig) : Except SaveError DaygleConfig :=
  match input.originalName with
  | some original =>
      match replaceNamed (trim original) input.network config.networks with
      | some networks => .ok { config with networks := networks }
      | none => .error (.notFound ("no network named ".toList ++ quoted (trim original)))
  | none =>
      if (config.findNetwork input.network.name).isSome then
        .error (.conflict ("a network named ".toList ++ quoted input.network.name ++ " already exists".toList))
      else .ok { config with networks := config.networks ++ [input.network] }

/-- The old name, where it is another one. -/
def NetworkInput.renamed (input : NetworkInput) : Option Text :=
  (input.originalName.map trim).filter fun original => original ≠ input.network.name

/-- `validate_config_update`: an error that the configuration had before does not count. -/
def validateConfigUpdate (checker : Checker) (old new : DaygleConfig) : Except SaveError Unit :=
  match new.validate checker with
  | .ok () => .ok ()
  | .error e => if old.validate checker = .error e then .ok () else .error (.config e)

/-- Save the configuration and put it in use; the index is built from the new networks
where they changed. -/
def applyConfig (faults : StoreFaults) (config : DaygleConfig) (console : Console) : Bool × Console :=
  if faults.putRuntimeSettings then (false, console)
  else
    let console := { console with saved := config, config := config }
    if console.indexed = config.allNetworks then (true, console)
    else if faults.buildSplitHorizon then (false, console)
    else (true, { console with indexed := config.allNetworks })

/-- Every reference of the configuration renamed, where the name is another one. -/
def renameConfigRefs (input : NetworkInput) (config : DaygleConfig) : DaygleConfig :=
  match input.renamed with
  | some original => config.renameNetworkRefs original input.network.name
  | none => config

/-- The configuration to be saved: edited, renamed throughout, and checked. -/
def plannedConfig (checker : Checker) (input : NetworkInput) (old : DaygleConfig) : Except SaveError DaygleConfig :=
  match editNetworks input old with
  | .error e => .error e
  | .ok edited =>
      let config := renameConfigRefs input edited
      match validateConfigUpdate checker old config with
      | .error e => .error e
      | .ok () => .ok config

def renameStored (faults : StoreFaults) (input : NetworkInput) (console : Console) : Bool × Console :=
  match input.renamed with
  | some original => renameStoredRefs faults original input.network.name console
  | none => (true, console)

/-- `save_network` -/
def saveNetwork (checker : Checker) (faults : StoreFaults) (input : NetworkInput) (console : Console) :
    Except SaveError NamedNetwork × Console :=
  match plannedConfig checker input console.config with
  | .error e => (.error e, console)
  | .ok config =>
      let renamed := renameStored faults input console
      if !renamed.1 then (.error .database, renamed.2)
      else
        let applied := applyConfig faults config renamed.2
        if applied.1 then (.ok input.network, applied.2) else (.error .database, applied.2)

end DaygleDns.Settings
