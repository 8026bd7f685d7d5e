import DaygleDns.AddressFacts
import DaygleDns.Fallible
import DaygleDns.Settings.NetworkLists
import Mathlib.Algebra.Order.BigOperators.Group.List
import Mathlib.Algebra.Order.Ring.Nat

/-! What a network list means does not depend on how its networks are called, as long as
no stored entry reads as a name before there is a network of that name. -/
namespace DaygleDns.Settings

open Text Policy Dispatch Authoritative Fallible

/-- What is known of the parser of networks: it is blind to case, and a network has
nothing but hexadecimal digits, dots, colons and the slash. -/
structure ReadsAddresses (libs : Libraries) : Prop where
  lower : ∀ text, (libs.parseIpNet (toAsciiLowercase text)).isSome = (libs.parseIpNet text).isSome
  chars : ∀ text, (libs.parseIpNet text).isSome = true → ∀ c ∈ text, isAddressChar c = true ∨ c = '/'

theorem readPrefixLength_lower (text : Text) : readPrefixLength (toAsciiLowercase text) = readPrefixLength text := by
  unfold readPrefixLength
  rw [all_isDigit_lower]
  cases h : text.all Char.isDigit with
  | true => rw [lower_of_digits h]
  | false => rfl

theorem readIpNet_lower (text : Text) : readIpNet (toAsciiLowercase text) = readIpNet text := by
  unfold readIpNet
  rw [splitOnce_lower (by decide)]
  cases splitOnce ['/'] text with
  | none => rfl
  | some parts =>
    simp only [Option.map_some, Option.bind_eq_bind, Option.bind_some, readPrefixLength_lower, parseIpv4_lower,
      parseIpv6_lower]

theorem chars_of_readIpNet {text : Text} (h : (readIpNet text).isSome = true) :
    ∀ c ∈ text, isAddressChar c = true ∨ c = '/' := by
  obtain ⟨net, hnet⟩ := Option.isSome_iff_exists.mp h
  unfold readIpNet at hnet
  simp only [Option.bind_eq_bind, Option.bind_eq_some_iff] at hnet
  obtain ⟨⟨addr, digits⟩, hsplit, length, hlength, haddr⟩ := hnet
  have hdigits : digits.all Char.isDigit = true := by
    unfold readPrefixLength at hlength
    split at hlength
    next hall => exact hall
    next => cases hlength
  have haddrChars : ∀ c ∈ addr, isAddressChar c = true := by
    cases hv4 : parseIpv4 addr with
    | some ip => exact chars_of_parseIpv4 (by rw [hv4]; rfl)
    | none =>
      simp only [hv4, Option.bind_eq_some_iff] at haddr
      obtain ⟨ip, hv6, _⟩ := haddr
      exact chars_of_parseIpv6 (by rw [hv6]; rfl)
  intro c hc
  rw [splitOnce_eq_some hsplit, List.mem_append, List.mem_append, List.mem_singleton] at hc
  rcases hc with hc | hc | hc
  · exact .inl (haddrChars c hc)
  · exact .inr hc
  · exact .inl (isAddressChar_of_isHexDigit (isHexDigit_of_isDigit (List.all_eq_true.mp hdigits c hc)))

theorem reads_plainLibraries : ReadsAddresses plainLibraries where
  lower text := congrArg Option.isSome (readIpNet_lower text)
  chars _ := chars_of_readIpNet

variable {libs : Libraries}

/-! Networks as text. -/

theorem parseNetwork_trim (text : Text) : parseNetwork libs (trim text) = parseNetwork libs text := by
  unfold parseNetwork
  rw [trim_trim]

theorem isSome_parseIpAddr (text : Text) :
    (parseIpAddr text).isSome = ((parseIpv4 text).isSome || (parseIpv6 text).isSome) := by
  unfold parseIpAddr
  cases parseIpv4 text <;> simp

theorem isSome_parseNetwork (text : Text) :
    (parseNetwork libs text).isSome =
      ((libs.parseIpNet (trim text)).isSome || ((parseIpv4 (trim text)).isSome || (parseIpv6 (trim text)).isSome)) := by
  unfold parseNetwork
  dsimp only
  rw [← isSome_parseIpAddr]
  cases libs.parseIpNet (trim text) <;> simp

section Reading

variable (hlibs : ReadsAddresses libs)

include hlibs

theorem isSome_parseNetwork_lower (text : Text) :
    (parseNetwork libs (toAsciiLowercase text)).isSome = (parseNetwork libs text).isSome := by
  rw [isSome_parseNetwork, isSome_parseNetwork, trim_lower, hlibs.lower, parseIpv4_lower, parseIpv6_lower]

/-- Two spellings of one text are both addresses or neither. -/
theorem isSome_parseNetwork_spelling {a b : Text} (h : toAsciiLowercase a = toAsciiLowercase b) :
    (parseNetwork libs a).isSome = (parseNetwork libs b).isSome := by
  rw [← isSome_parseNetwork_lower hlibs a, h, isSome_parseNetwork_lower hlibs b]

theorem chars_of_parseNetwork {text : Text} (h : (parseNetwork libs text).isSome = true) :
    ∀ c ∈ trim text, isAddressChar c = true ∨ c = '/' := by
  intro c hc
  rw [isSome_parseNetwork, Bool.or_eq_true, Bool.or_eq_true] at h
  rcases h with h | h | h
  · exact hlibs.chars _ h c hc
  · exact .inl (chars_of_parseIpv4 h c hc)
  · exact .inl (chars_of_parseIpv6 h c hc)

/-- No address has the letter that the listener keywords and account entries have. -/
theorem not_o_of_parseNetwork {text : Text} (h : (parseNetwork libs text).isSome = true) :
    'o' ∉ toAsciiLowercase (trim text) := by
  rw [← isSome_parseNetwork_lower hlibs] at h
  have hchars := chars_of_parseNetwork hlibs h
  rw [trim_lower] at hchars
  intro ho
  rcases hchars 'o' ho with hchar | hslash
  · exact absurd hchar (by decide)
  · exact absurd hslash (by decide)

theorem not_listenerKeyword_of_parseNetwork {text : Text} (h : (parseNetwork libs text).isSome = true) :
    isListenerKeyword text = false := by
  have ho := not_o_of_parseNetwork hlibs h
  unfold isListenerKeyword
  rw [List.any_eq_false]
  intro k _ hk
  apply ho
  rw [← beq_iff_eq.mp hk]
  cases k <;> decide

theorem not_accountEntry_of_parseNetwork {text : Text} (h : (parseNetwork libs text).isSome = true) :
    accountEntry text = none := by
  have ho := not_o_of_parseNetwork hlibs h
  unfold accountEntry
  dsimp only
  rw [if_neg]
  intro hlead
  apply ho
  have hlower := beq_iff_eq.mp hlead
  have hmem : 'o' ∈ toAsciiLowercase ((trim text).take accountPrefix.length) := by
    rw [hlower]
    decide
  exact List.map_subset _ (List.take_subset _ _) hmem

end Reading

/-! Networks that are valid. -/

/-- The addresses that a network stands for. -/
def addresses (libs : Libraries) (network : NamedNetwork) : List Text :=
  (network.cidrs.map trim).filter fun c => (parseNetwork libs c).isSome

theorem isSome_of_mem_addresses {network : NamedNetwork} {c : Text} (h : c ∈ addresses libs network) :
    (parseNetwork libs c).isSome = true := (List.mem_filter.mp h).2

/-- The index keeps the same networks. -/
theorem parseNetworks_cidrs (network : NamedNetwork) :
    parseNetworks libs network.cidrs = (addresses libs network).filterMap (parseNetwork libs) := by
  unfold parseNetworks addresses
  induction network.cidrs with
  | nil => rfl
  | cons c cidrs ih =>
    rw [List.map_cons, List.filter_cons, parseNetwork_trim]
    cases hparse : parseNetwork libs c with
    | none =>
      rw [List.filterMap_cons_none hparse]
      exact ih
    | some net =>
      have htrim := (@parseNetwork_trim libs c).trans hparse
      rw [List.filterMap_cons_some hparse, ih, if_pos (by rfl), List.filterMap_cons_some htrim]

structure ValidNetwork (libs : Libraries) (network : NamedNetwork) : Prop where
  named : network.key ≠ []
  notAddress : (parseNetwork libs network.name).isSome = false
  addressed : addresses libs network ≠ []

theorem validNetwork_of_validate {network : NamedNetwork} (h : validateNamedNetwork libs network = .ok ()) :
    ValidNetwork libs network := by
  unfold validateNamedNetwork at h
  simp only [guard_eq_ok] at h
  obtain ⟨hname, _, haddress, hcidrs, hparse⟩ := h
  refine ⟨?_, ?_, ?_⟩
  · intro hkey
    unfold NamedNetwork.key toAsciiLowercase at hkey
    rw [List.map_eq_nil_iff] at hkey
    exact hname (List.isEmpty_iff.mpr hkey)
  · rw [Bool.not_eq_true, Bool.or_eq_false_iff, Bool.or_eq_false_iff, parseNetwork_trim] at haddress
    exact haddress.1.1
  · rw [Bool.not_eq_true, List.all_eq_false] at hcidrs
    obtain ⟨c, hc, hblank⟩ := hcidrs
    cases hfind : network.cidrs.find? fun c => !(trim c).isEmpty && (parseNetwork libs c).isNone with
    | some cidr =>
      rw [hfind] at hparse
      cases hparse
    | none =>
      have hreads := List.find?_eq_none.mp hfind c hc
      apply List.ne_nil_of_mem (a := trim c)
      apply List.mem_filter.mpr
      refine ⟨List.mem_map_of_mem hc, ?_⟩
      rw [parseNetwork_trim]
      rw [Bool.not_eq_true] at hblank
      rw [hblank, Bool.not_false, Bool.true_and, Option.isNone_iff_eq_none] at hreads
      exact Option.isSome_iff_ne_none.mpr hreads

theorem checkNetworks_eq_ok {names : List Text} {networks : List NamedNetwork}
    (h : checkNetworks libs names networks = .ok ()) :
    (∀ n ∈ networks, validateNamedNetwork libs n = .ok () ∧ n.key ∉ builtinNetworks.map NamedNetwork.key ∧
      n.key ∉ names) ∧ (networks.map NamedNetwork.key).Nodup := by
  induction networks generalizing names with
  | nil => simp
  | cons network rest ih =>
    unfold checkNetworks at h
    simp only [throw_eq, error_bind, bind_eq_ok, guard_eq_ok] at h
    obtain ⟨_, hvalid, hbuiltin, hnames, hrest⟩ := h
    obtain ⟨hall, hnodup⟩ := ih hrest
    have hnotBuiltin : network.key ∉ builtinNetworks.map NamedNetwork.key := by
      intro hmem
      obtain ⟨b, hb, hkey⟩ := List.mem_map.mp hmem
      apply hbuiltin
      apply List.any_eq_true.mpr
      refine ⟨b, hb, ?_⟩
      have htrim : ∀ b ∈ builtinNetworks, trim b.name = b.name := by decide
      unfold eqIgnoreAsciiCase
      rw [← hkey, NamedNetwork.key, htrim b hb, toAsciiLowercase_idem]
      exact beq_self_eq_true _
    constructor
    · intro n hn
      cases List.mem_cons.mp hn with
      | inl heq =>
        rw [heq]
        exact ⟨hvalid, hnotBuiltin, hnames⟩
      | inr hmem =>
        obtain ⟨hv, hb, hnot⟩ := hall n hmem
        exact ⟨hv, hb, fun hin => hnot (List.mem_cons_of_mem _ hin)⟩
    · rw [List.map_cons, List.nodup_cons]
      refine ⟨?_, hnodup⟩
      intro hmem
      obtain ⟨n, hn, hkey⟩ := List.mem_map.mp hmem
      exact (hall n hn).2.2 (hkey ▸ List.mem_cons_self)

theorem nodup_keys {networks : List NamedNetwork} (h : checkNetworks libs [] networks = .ok ()) :
    ((builtinNetworks ++ networks).map NamedNetwork.key).Nodup := by
  obtain ⟨hall, hnodup⟩ := checkNetworks_eq_ok h
  rw [List.map_append]
  apply List.nodup_append.mpr
  refine ⟨by decide, hnodup, ?_⟩
  intro key hbuiltin other hother heq
  obtain ⟨n, hn, hkey⟩ := List.mem_map.mp hother
  apply (hall n hn).2.1
  rw [hkey, ← heq]
  exact hbuiltin

/-! Lookups. -/

def named (networks : List NamedNetwork) (key : Text) : Option NamedNetwork :=
  networks.find? fun n => n.key == key

theorem mem_of_named {networks : List NamedNetwork} {key : Text} {n : NamedNetwork}
    (h : named networks key = some n) : n ∈ networks ∧ n.key = key := by
  unfold named at h
  have hkey := List.find?_some h
  exact ⟨List.mem_of_find?_eq_some h, beq_iff_eq.mp hkey⟩

theorem named_eq_some {networks : List NamedNetwork} (hnodup : (networks.map NamedNetwork.key).Nodup) {key : Text}
    {n : NamedNetwork} : named networks key = some n ↔ n ∈ networks ∧ n.key = key := by
  constructor
  · intro h
    exact mem_of_named h
  · intro ⟨hmem, hkey⟩
    cases hfound : named networks key with
    | none =>
      have hnot := List.find?_eq_none.mp hfound n hmem
      rw [hkey] at hnot
      exact absurd (beq_self_eq_true key) hnot
    | some other =>
      obtain ⟨hother, hfoundKey⟩ := mem_of_named hfound
      have hsame : other.key = n.key := hfoundKey.trans hkey.symm
      rw [List.inj_on_of_nodup_map hnodup hother hmem hsame]

theorem named_eq_none {networks : List NamedNetwork} {key : Text} :
    named networks key = none ↔ ∀ n ∈ networks, n.key ≠ key := by
  unfold named
  rw [List.find?_eq_none]
  simp only [beq_iff_eq, ne_eq]

/-- An entry of a list as it is looked up. -/
def entryKey (entry : Text) : Text := toAsciiLowercase (trim entry)

theorem key_of_eqIgnoreAsciiCase {network : NamedNetwork} {name : Text}
    (h : eqIgnoreAsciiCase network.name (trim name) = true) : network.key = entryKey name := by
  have hlower := beq_iff_eq.mp h
  rw [NamedNetwork.key, ← trim_lower, hlower, trim_lower, trim_trim, entryKey]

theorem named_entryKey {networks : List NamedNetwork} (hnodup : (networks.map NamedNetwork.key).Nodup) {name : Text}
    {n : NamedNetwork} : named networks (entryKey name) = some n ↔ n ∈ networks ∧ n.key = entryKey name :=
  named_eq_some hnodup

theorem expandEntry_eq (networks : List NamedNetwork) (entry : Text) :
    expandEntry libs networks entry =
      if trim entry = [] then []
      else if (parseNetwork libs entry).isSome then [trim entry]
      else match named networks (entryKey entry) with
        | some network => addresses libs network
        | none => [trim entry] := by
  unfold expandEntry
  dsimp only
  rw [parseNetwork_trim]
  cases hblank : (trim entry).isEmpty with
  | true => simp [List.isEmpty_iff.mp hblank]
  | false =>
    rw [if_neg (by simp), if_neg (List.isEmpty_eq_false_iff.mp hblank)]
    rfl

theorem indexedNetwork_eq {networks : List NamedNetwork} (hnodup : (networks.map NamedNetwork.key).Nodup)
    (name : Text) :
    indexedNetwork libs networks name =
      match named networks (entryKey name) with
      | some network => parseNetworks libs network.cidrs
      | none => [] := by
  unfold indexedNetwork
  cases hfound : networks.reverse.find? fun n =>
      n.key == toAsciiLowercase (trim name) && !(parseNetworks libs n.cidrs).isEmpty with
  | some n =>
    have hcond := List.find?_some hfound
    rw [Bool.and_eq_true, beq_iff_eq] at hcond
    have hmem := List.mem_reverse.mp (List.mem_of_find?_eq_some hfound)
    rw [(named_entryKey hnodup).mpr ⟨hmem, hcond.1⟩]
  | none =>
    cases hnamed : named networks (entryKey name) with
    | none => rfl
    | some n =>
      obtain ⟨hmem, hkey⟩ := (named_eq_some hnodup).mp hnamed
      have hnot := List.find?_eq_none.mp hfound n (List.mem_reverse.mpr hmem)
      rw [hkey, show entryKey name = toAsciiLowercase (trim name) from rfl, beq_self_eq_true, Bool.true_and,
        Bool.not_eq_true', Bool.not_eq_false] at hnot
      exact (List.isEmpty_iff.mp hnot).symm

/-! One network added, or another put in the place of one. -/

/-- What a change of one network comes to; `edited` is the network that gives way to
`network`, and `rename` what becomes of an entry. -/
structure NameEdit (libs : Libraries) (before after : List NamedNetwork) (network : NamedNetwork)
    (edited : Option NamedNetwork) (rename : Text → Text) : Prop where
  nodupBefore : (before.map NamedNetwork.key).Nodup
  nodupAfter : (after.map NamedNetwork.key).Nodup
  mem_after : ∀ n, n ∈ after ↔ n = network ∨ (n ∈ before ∧ edited ≠ some n)
  fresh : ∀ n ∈ before, edited ≠ some n → n.key ≠ network.key
  valid : ValidNetwork libs network
  edited_mem : ∀ n, edited = some n → n ∈ before
  editedValid : ∀ n, edited = some n → ValidNetwork libs n
  rename_hit : ∀ entry n, edited = some n → entryKey entry = n.key →
    rename entry = network.name ∨ (rename entry = entry ∧ n.key = network.key)
  rename_miss : ∀ entry, (∀ n, edited = some n → entryKey entry ≠ n.key) → rename entry = entry
  keeps : ∀ n, edited = some n → addresses libs network = addresses libs n

/-- The entry reads as the new name, which named nothing. -/
def Captured (network : NamedNetwork) (edited : Option NamedNetwork) (entry : Text) : Prop :=
  entryKey entry = network.key ∧ ∀ n, edited = some n → n.key ≠ network.key

section Keys

variable {n : NamedNetwork} (hvalid : ValidNetwork libs n) {entry : Text} (hkey : entryKey entry = n.key)

include hvalid hkey

/-- An entry that reads as a network's name is no address. -/
theorem notAddress_of_key (hlibs : ReadsAddresses libs) : (parseNetwork libs entry).isSome = false := by
  rw [← parseNetwork_trim, isSome_parseNetwork_spelling hlibs hkey, parseNetwork_trim]
  exact hvalid.notAddress

theorem notBlank_of_key : trim entry ≠ [] := by
  intro hblank
  apply hvalid.named
  rw [← hkey, entryKey, hblank]
  rfl

theorem expandEntry_of_named (hlibs : ReadsAddresses libs) {networks : List NamedNetwork}
    (hnamed : named networks n.key = some n) : expandEntry libs networks entry = addresses libs n := by
  rw [expandEntry_eq, if_neg (notBlank_of_key hvalid hkey), notAddress_of_key hvalid hkey hlibs,
    if_neg (by decide), hkey, hnamed]

theorem indexedNetworks_of_named (hlibs : ReadsAddresses libs) {networks : List NamedNetwork}
    (hnodup : (networks.map NamedNetwork.key).Nodup) (hnamed : named networks n.key = some n) :
    indexedNetworks libs networks entry = (addresses libs n).filterMap (parseNetwork libs) := by
  have hnone := Option.isSome_eq_false_iff.mp (notAddress_of_key hvalid hkey hlibs)
  unfold indexedNetworks
  rw [Option.isNone_iff_eq_none.mp hnone, indexedNetwork_eq hnodup, hkey, hnamed]
  exact parseNetworks_cidrs n

end Keys

namespace NameEdit

variable {before after : List NamedNetwork} {network : NamedNetwork} {edited : Option NamedNetwork}
  {rename : Text → Text} (h : NameEdit libs before after network edited rename)

include h

theorem named_network : named after network.key = some network :=
  (named_eq_some h.nodupAfter).mpr ⟨(h.mem_after network).mpr (.inl rfl), rfl⟩

theorem named_edited {n : NamedNetwork} (hedited : edited = some n) : named before n.key = some n :=
  (named_eq_some h.nodupBefore).mpr ⟨h.edited_mem n hedited, rfl⟩

/-- Other names stand for what they stood for. -/
theorem named_other {key : Text} (hnew : key ≠ network.key) (hold : ∀ n, edited = some n → key ≠ n.key) :
    named after key = named before key := by
  apply Option.ext
  intro n
  rw [named_eq_some h.nodupAfter, named_eq_some h.nodupBefore, h.mem_after]
  constructor
  · intro ⟨hmem, hkey⟩
    cases hmem with
    | inl heq => exact absurd (hkey.symm.trans (congrArg NamedNetwork.key heq)) hnew
    | inr hmem => exact ⟨hmem.1, hkey⟩
  · intro ⟨hmem, hkey⟩
    exact ⟨.inr ⟨hmem, fun hedited => hold n hedited hkey.symm⟩, hkey⟩

/-- A name that is new named nothing. -/
theorem named_captured {entry : Text} (hcaptured : Captured network edited entry) :
    named before (entryKey entry) = none := by
  rw [hcaptured.1, named_eq_none]
  intro n hn hkey
  exact h.fresh n hn (fun hedited => hcaptured.2 n hedited hkey) hkey

/-- A captured entry was not to be renamed. -/
theorem rename_captured {entry : Text} (hcaptured : Captured network edited entry) : rename entry = entry := by
  apply h.rename_miss
  intro n hedited hkey
  exact hcaptured.2 n hedited (hkey.symm.trans hcaptured.1)

/-- An entry that is not captured names the edited network, and then the new one, or it
stays and names what it named. -/
theorem renamed_cases {entry : Text} (hfree : ¬ Captured network edited entry) :
    (∃ n, edited = some n ∧ entryKey entry = n.key ∧ entryKey (rename entry) = network.key) ∨
      (rename entry = entry ∧ named after (entryKey entry) = named before (entryKey entry)) := by
  by_cases hhit : ∃ n, edited = some n ∧ entryKey entry = n.key
  · obtain ⟨n, hedited, hkey⟩ := hhit
    refine .inl ⟨n, hedited, hkey, ?_⟩
    cases h.rename_hit entry n hedited hkey with
    | inl hname => rw [hname, entryKey, NamedNetwork.key]
    | inr hsame => rw [hsame.1, hkey, hsame.2]
  · have hmiss : ∀ n, edited = some n → entryKey entry ≠ n.key := fun n hedited hkey => hhit ⟨n, hedited, hkey⟩
    refine .inr ⟨h.rename_miss entry hmiss, h.named_other ?_ hmiss⟩
    intro hnew
    exact hfree ⟨hnew, fun n hedited hkey => hmiss n hedited (hnew.trans hkey.symm)⟩

variable (hlibs : ReadsAddresses libs)

include hlibs

/-- What an entry stands for stays, unless it is captured. -/
theorem expandEntry_rename {entry : Text} (hfree : ¬ Captured network edited entry) :
    expandEntry libs after (rename entry) = expandEntry libs before entry := by
  cases h.renamed_cases hfree with
  | inl hhit =>
    obtain ⟨n, hedited, hkey, hrenamed⟩ := hhit
    rw [expandEntry_of_named h.valid hrenamed hlibs h.named_network,
      expandEntry_of_named (h.editedValid n hedited) hkey hlibs (h.named_edited hedited), h.keeps n hedited]
  | inr hsame => rw [hsame.1, expandEntry_eq, expandEntry_eq, hsame.2]

theorem indexedNetworks_rename {entry : Text} (hfree : ¬ Captured network edited entry) :
    indexedNetworks libs after (rename entry) = indexedNetworks libs before entry := by
  cases h.renamed_cases hfree with
  | inl hhit =>
    obtain ⟨n, hedited, hkey, hrenamed⟩ := hhit
    rw [indexedNetworks_of_named h.valid hrenamed hlibs h.nodupAfter h.named_network,
      indexedNetworks_of_named (h.editedValid n hedited) hkey hlibs h.nodupBefore (h.named_edited hedited),
      h.keeps n hedited]
  | inr hsame =>
    unfold indexedNetworks
    rw [hsame.1, indexedNetwork_eq h.nodupAfter, indexedNetwork_eq h.nodupBefore, hsame.2]

theorem resolveNetworkList_rename {list : List Text} (hfree : ∀ entry ∈ list, ¬ Captured network edited entry) :
    resolveNetworkList libs after (list.map rename) = resolveNetworkList libs before list := by
  unfold resolveNetworkList
  rw [List.flatMap_map]
  apply List.flatMap_congr
  intro entry hentry
  exact h.expandEntry_rename hlibs (hfree entry hentry)

end NameEdit

/-! Lists with a captured entry. -/

theorem length_flatMap_lt {α β : Type} {f g : α → List β} {list : List α}
    (hle : ∀ a ∈ list, (f a).length ≤ (g a).length) {a : α} (ha : a ∈ list) (hlt : (f a).length < (g a).length) :
    (list.flatMap f).length < (list.flatMap g).length := by
  rw [List.length_flatMap, List.length_flatMap]
  exact List.sum_lt_sum _ _ hle ⟨a, ha, hlt⟩

/-- What an entry of a group's clients stands for as networks. -/
def groupNetworks (libs : Libraries) (networks : List NamedNetwork) (entry : Text) : List Network :=
  parseNetworks libs (((expandEntry libs networks entry).filter fun c => (accountEntry c).isNone).filter
    (!isListenerKeyword ·))

theorem clients_compileGroup (config : DaygleConfig) (group : BlockingGroup) :
    (compileGroup libs (config.resolveBlockingGroup libs group)).clients =
      group.clients.flatMap (groupNetworks libs config.allNetworks) := by
  unfold compileGroup DaygleConfig.resolveBlockingGroup resolveNetworkList groupNetworks parseNetworks
  dsimp only
  rw [List.filter_flatMap, List.filter_flatMap, List.filterMap_flatMap]

theorem filterMap_addresses_ne_nil {network : NamedNetwork} (hvalid : ValidNetwork libs network) :
    (addresses libs network).filterMap (parseNetwork libs) ≠ [] := by
  obtain ⟨c, hc⟩ := List.exists_mem_of_ne_nil _ hvalid.addressed
  obtain ⟨net, hnet⟩ := Option.isSome_iff_exists.mp (isSome_of_mem_addresses hc)
  exact List.ne_nil_of_mem (List.mem_filterMap.mpr ⟨c, hc, hnet⟩)

/-- No address of a network is lost as a keyword or an account. -/
theorem groupNetworks_of_named (hlibs : ReadsAddresses libs) {networks : List NamedNetwork} {n : NamedNetwork}
    (hvalid : ValidNetwork libs n) {entry : Text} (hkey : entryKey entry = n.key)
    (hnamed : named networks n.key = some n) :
    groupNetworks libs networks entry = (addresses libs n).filterMap (parseNetwork libs) := by
  unfold groupNetworks
  rw [expandEntry_of_named hvalid hkey hlibs hnamed, List.filter_eq_self.mpr, List.filter_eq_self.mpr]
  · rfl
  · intro c hc
    rw [Option.isNone_iff_eq_none]
    exact not_accountEntry_of_parseNetwork hlibs (isSome_of_mem_addresses hc)
  · intro c hc
    rw [not_listenerKeyword_of_parseNetwork hlibs (isSome_of_mem_addresses (List.mem_of_mem_filter hc))]
    rfl

/-- An entry that names nothing is no network. -/
theorem groupNetworks_unnamed {networks : List NamedNetwork} {entry : Text}
    (haddress : (parseNetwork libs entry).isSome = false) (hnamed : named networks (entryKey entry) = none) :
    groupNetworks libs networks entry = [] := by
  unfold groupNetworks parseNetworks
  rw [List.filterMap_eq_nil_iff]
  intro c hc
  have hmem := List.mem_of_mem_filter (List.mem_of_mem_filter hc)
  rw [expandEntry_eq, haddress, hnamed] at hmem
  by_cases hblank : trim entry = []
  · rw [if_pos hblank] at hmem
    exact absurd hmem List.not_mem_nil
  · rw [if_neg hblank, if_neg (by decide), List.mem_singleton] at hmem
    rw [hmem, parseNetwork_trim, ← Option.isNone_iff_eq_none, ← Option.isSome_eq_false_iff]
    exact haddress

theorem indexedNetworks_unnamed {networks : List NamedNetwork} (hnodup : (networks.map NamedNetwork.key).Nodup)
    {entry : Text} (haddress : (parseNetwork libs entry).isSome = false)
    (hnamed : named networks (entryKey entry) = none) : indexedNetworks libs networks entry = [] := by
  unfold indexedNetworks
  rw [Option.isNone_iff_eq_none.mp (Option.isSome_eq_false_iff.mp haddress), indexedNetwork_eq hnodup, hnamed]

namespace NameEdit

variable {before after : List NamedNetwork} {network : NamedNetwork} {edited : Option NamedNetwork}
  {rename : Text → Text} (h : NameEdit libs before after network edited rename) (hlibs : ReadsAddresses libs)

include h hlibs

theorem groupNetworks_rename {entry : Text} (hfree : ¬ Captured network edited entry) :
    groupNetworks libs after (rename entry) = groupNetworks libs before entry := by
  unfold groupNetworks
  rw [h.expandEntry_rename hlibs hfree]

/-- A captured entry was no network, and is one now. -/
theorem groupNetworks_captured {entry : Text} (hcaptured : Captured network edited entry) :
    groupNetworks libs before entry = [] ∧ groupNetworks libs after (rename entry) ≠ [] := by
  constructor
  · exact groupNetworks_unnamed (notAddress_of_key h.valid hcaptured.1 hlibs) (h.named_captured hcaptured)
  · rw [h.rename_captured hcaptured, groupNetworks_of_named hlibs h.valid hcaptured.1 h.named_network]
    exact filterMap_addresses_ne_nil h.valid

theorem indexedNetworks_captured {entry : Text} (hcaptured : Captured network edited entry) :
    indexedNetworks libs before entry = [] ∧ indexedNetworks libs after (rename entry) ≠ [] := by
  constructor
  · exact indexedNetworks_unnamed h.nodupBefore (notAddress_of_key h.valid hcaptured.1 hlibs)
      (h.named_captured hcaptured)
  · rw [h.rename_captured hcaptured,
      indexedNetworks_of_named h.valid hcaptured.1 hlibs h.nodupAfter h.named_network]
    exact filterMap_addresses_ne_nil h.valid

end NameEdit

/-- A list has more networks once one of its entries is captured. -/
theorem length_lt_of_captured {network : NamedNetwork} {edited : Option NamedNetwork} {rename : Text → Text}
    {stood stands : Text → List Network}
    (hfree : ∀ entry, ¬ Captured network edited entry → stands (rename entry) = stood entry)
    (hcaptured : ∀ entry, Captured network edited entry → stood entry = [] ∧ stands (rename entry) ≠ [])
    {list : List Text} {entry : Text} (hmem : entry ∈ list) (hentry : Captured network edited entry) :
    (list.flatMap stood).length < ((list.map rename).flatMap stands).length := by
  rw [List.flatMap_map]
  apply length_flatMap_lt _ hmem
  · rw [(hcaptured entry hentry).1]
    exact List.length_pos_of_ne_nil (hcaptured entry hentry).2
  · intro e _
    by_cases he : Captured network edited e
    · rw [(hcaptured e he).1]
      exact Nat.zero_le _
    · rw [hfree e he]

end DaygleDns.Settings
