import DaygleDns.Authoritative.RpzAddresses

/-! The owner names of address triggers, which are read as the networks they spell. -/
namespace DaygleDns.Authoritative

open Text

/-- No bit is set after the prefix of the network. -/
def NoHostBits (net : Network) : Prop :=
  match net with
  | .v4 net => net.network = net.addr
  | .v6 net => net.network = net.addr

/-- An owner name: the length, then the labels of an address from the last. -/
def rpzOwner (length : Nat) (labels : List Text) : Text :=
  (['.'] : Text).intercalate (ofNat length :: labels.reverse)

/-- The owner names that spell a network. Some words of an IPv6 address that are zero
may be written as `zz`. -/
inductive Spelled : Network → Text → Prop where
  | v4 (net : IpNet 32) : Spelled (.v4 net) (rpzOwner net.prefixLen ((Ipv4Addr.octets net.addr).map ofNat))
  | words (net : IpNet 128) : Spelled (.v6 net) (rpzOwner net.prefixLen ((Ipv6Addr.segments net.addr).map hexText))
  | zeros (net : IpNet 128) (head tail : List Nat) (zeros : Nat)
      (h : Ipv6Addr.segments net.addr = head ++ List.replicate (zeros + 1) 0 ++ tail) :
      Spelled (.v6 net) (rpzOwner net.prefixLen (head.map hexText ++ "zz".toList :: tail.map hexText))

/-- All eight words are written as one `zz`. -/
def Bare (net : Network) (text : Text) : Prop := text = rpzOwner (netLength net) ["zz".toList]

theorem splitOn_rpzOwner (length : Nat) {labels : List Text} (h : ∀ label ∈ labels, '.' ∉ label) :
    (rpzOwner length labels).splitOn '.' = ofNat length :: labels.reverse := by
  apply List.splitOn_intercalate
  · intro label hlabel
    obtain rfl | hmem := List.mem_cons.mp hlabel
    · exact not_mem_ofNat (by decide) length
    · exact h label (List.mem_reverse.mp hmem)
  · exact List.cons_ne_nil _ _

theorem netOf_prefixLen {w : Nat} (net : IpNet w) : Settings.netOf net.addr net.prefixLen = some net := by
  rw [Settings.netOf, dif_pos net.prefixLen.isLt]

/-- How an owner name is read once its labels are known. -/
theorem parseIpTrigger_rpzOwner {length : Nat} {labels : List Text} (hlength : length < 256)
    (h : ∀ label ∈ labels, '.' ∉ label) :
    parseIpTrigger (rpzOwner length labels) =
      (labelsAddress labels).bind fun ip =>
        (ipNetNew ip length).bind fun net => if networkAddress net = ip then some net else none := by
  unfold parseIpTrigger
  rw [splitOn_rpzOwner length h]
  simp only [readU8_ofNat hlength, List.reverse_reverse, Option.bind_eq_bind, Option.bind_some]

theorem readIpAddr_v6 {s : Text} (hdot : '.' ∉ s) : readIpAddr s = (parseIpv6 s).map .v6 := by
  rw [readIpAddr, parseIpv4_of_no_dot hdot]

theorem read_v4 {net : IpNet 32} (h : NoHostBits (.v4 net)) :
    parseIpTrigger (rpzOwner net.prefixLen ((Ipv4Addr.octets net.addr).map ofNat)) = some (.v4 net) := by
  have hlen := net.prefixLen.isLt
  have hdots : ∀ label ∈ (Ipv4Addr.octets net.addr).map ofNat, '.' ∉ label := by
    intro label hlabel
    obtain ⟨n, -, rfl⟩ := List.mem_map.mp hlabel
    exact not_mem_ofNat (by decide) n
  have hall : (((Ipv4Addr.octets net.addr).map ofNat).all fun part => (readU8 part).isSome) = true := by
    rw [List.all_eq_true]
    intro part hpart
    obtain ⟨n, hn, rfl⟩ := List.mem_map.mp hpart
    rw [readU8_ofNat (octets_lt net.addr n hn)]
    rfl
  have hcount : ((Ipv4Addr.octets net.addr).map ofNat).length = 4 := rfl
  rw [parseIpTrigger_rpzOwner (by omega) hdots, labelsAddress, hcount, hall, if_pos (by rfl), readIpAddr, parseIpv4_dotted]
  change net.network = net.addr at h
  simp only [Option.bind_some, ipNetNew, netOf_prefixLen, Option.map_some, networkAddress, h]
  rfl

theorem joined_append {first second : List Text} (hfirst : first ≠ []) (hsecond : second ≠ []) :
    ([':'] : Text).intercalate (first ++ second) =
      ([':'] : Text).intercalate first ++ ':' :: ([':'] : Text).intercalate second := by
  induction first with
  | nil => exact absurd rfl hfirst
  | cons part rest ih =>
    cases rest with
    | nil =>
      rw [List.singleton_append, List.intercalate_cons_of_ne_nil hsecond]
      simp
    | cons next rest =>
      rw [List.cons_append, List.intercalate_cons_of_ne_nil (by simp), ih (List.cons_ne_nil _ _),
        List.intercalate_cons_cons]
      simp only [List.append_assoc]

theorem colonHex_eq (groups : List Nat) : ([':'] : Text).intercalate (groups.map hexText) = colonHex groups := rfl

theorem hexText_ne_zz (n : Nat) : hexText n ≠ "zz".toList := by
  intro h
  apply not_mem_hexText (show isHexDigit 'z' = false by decide) n
  rw [h]
  decide

theorem words_unchanged (groups : List Nat) :
    ((groups.map hexText).map fun part => if part = "zz".toList then [] else part) = groups.map hexText := by
  rw [List.map_map]
  apply List.map_congr_left
  intro n _
  exact if_neg (hexText_ne_zz n)

theorem endsWith_singleton (c : Char) (s : Text) : endsWith [c] s = true ↔ s.getLast? = some c := by
  rw [endsWith, List.isSuffixOf_iff_suffix, List.getLast?_eq_some_iff]
  exact exists_congr fun lead => eq_comm

theorem last_of_spaced {s : Text} (h : Spaced s) : s.getLast? ≠ some ':' := by
  fun_induction Spaced s with
  | case1 => simp
  | case2 c => simpa using h
  | case3 c d more ih => simpa using ih h.2

theorem endsWith_colonHex {groups : List Nat} (lead : Text) (h : groups ≠ []) :
    endsWith [':'] (lead ++ colonHex groups) = false := by
  obtain ⟨group, others, rfl⟩ := List.exists_cons_of_ne_nil h
  obtain ⟨c, more, hc, -⟩ := head_colonHex group others
  have hlast := last_of_spaced (spaced_colonHex (group :: others))
  rw [Bool.eq_false_iff, ne_eq, endsWith_singleton, List.getLast?_append_of_ne_nil _ (by simp [hc])]
  exact hlast

theorem head_of_colonHex {groups : List Nat} (h : groups ≠ []) (rest : Text) :
    ([':'] : Text).isPrefixOf (colonHex groups ++ rest) = false := by
  obtain ⟨group, others, rfl⟩ := List.exists_cons_of_ne_nil h
  obtain ⟨c, more, hc, hhex⟩ := head_colonHex group others
  have hne : ':' ≠ c := by
    rintro rfl
    exact absurd hhex (by decide)
  rw [hc]
  simp [List.isPrefixOf, hne]

theorem joinWords_hexText {groups : List Nat} (h : groups ≠ []) : joinWords (groups.map hexText) = colonHex groups := by
  have hhead := head_of_colonHex h []
  have hlast := endsWith_colonHex [] h
  rw [List.append_nil] at hhead
  rw [List.nil_append] at hlast
  simp only [joinWords, words_unchanged, colonHex_eq, hhead, hlast, Bool.false_eq_true, if_false]

/-- A `zz` makes two colons, wherever it stands. -/
theorem joinWords_zz {head tail : List Nat} (h : head ≠ [] ∨ tail ≠ []) :
    joinWords (head.map hexText ++ "zz".toList :: tail.map hexText) = colonHex head ++ ':' :: ':' :: colonHex tail := by
  have hwords : ((head.map hexText ++ "zz".toList :: tail.map hexText).map fun part =>
      if part = "zz".toList then [] else part) = head.map hexText ++ [] :: tail.map hexText := by
    rw [List.map_append, List.map_cons, words_unchanged, words_unchanged, if_pos rfl]
  have hjoined : head ≠ [] → ([':'] : Text).intercalate (head.map hexText ++ [] :: tail.map hexText) =
      colonHex head ++ ':' :: ([':'] : Text).intercalate ([] :: tail.map hexText) :=
    fun hhead => joined_append (by simpa using hhead) (List.cons_ne_nil _ _)
  have htail : tail ≠ [] → ([':'] : Text).intercalate ([] :: tail.map hexText) = ':' :: colonHex tail := by
    intro hne
    rw [List.intercalate_cons_of_ne_nil (by simpa using hne), colonHex_eq]
    rfl
  unfold joinWords
  rw [hwords]
  by_cases hhead : head = []
  · subst hhead
    have hne : tail ≠ [] := by simpa using h
    have hnone : colonHex [] = [] := rfl
    have hlast := endsWith_colonHex [':', ':'] hne
    simp only [List.cons_append, List.nil_append] at hlast
    simp [htail hne, hlast, hnone]
  · rw [hjoined hhead]
    by_cases hne : tail = []
    · subst hne
      have hlast : endsWith [':'] (colonHex head ++ [':']) = true := by simp [endsWith_singleton]
      simp only [List.map_nil, List.intercalate_singleton, head_of_colonHex hhead, hlast, Bool.false_eq_true, if_false,
        if_true]
      simp [colonHex]
    · have hlast := endsWith_colonHex (colonHex head ++ [':', ':']) hne
      rw [List.append_assoc] at hlast
      simp only [List.cons_append, List.nil_append] at hlast
      simp only [htail hne, head_of_colonHex hhead, hlast, Bool.false_eq_true, if_false]

theorem labels_words (groups : List Nat) : ∀ label ∈ groups.map hexText, '.' ∉ label := by
  intro label hlabel
  obtain ⟨n, -, rfl⟩ := List.mem_map.mp hlabel
  exact not_mem_hexText (by decide) n

theorem labels_zz (head tail : List Nat) :
    ∀ label ∈ head.map hexText ++ "zz".toList :: tail.map hexText, '.' ∉ label := by
  intro label hlabel
  obtain hmem | hmem := List.mem_append.mp hlabel
  · exact labels_words head label hmem
  obtain rfl | hmem := List.mem_cons.mp hmem
  · decide
  · exact labels_words tail label hmem

/-- An IPv6 address of labels that are not those of an IPv4 one. -/
theorem read_v6 {net : IpNet 128} (h : NoHostBits (.v6 net)) {labels : List Text} (hdots : ∀ label ∈ labels, '.' ∉ label)
    (hkind : (decide (labels.length = 4) && labels.all fun part => (readU8 part).isSome) = false)
    (htext : '.' ∉ joinWords labels) (hread : parseIpv6 (joinWords labels) = some net.addr) :
    parseIpTrigger (rpzOwner net.prefixLen labels) = some (.v6 net) := by
  have hlen := net.prefixLen.isLt
  rw [parseIpTrigger_rpzOwner (by omega) hdots, labelsAddress, hkind, if_neg (by decide), readIpAddr_v6 htext, hread]
  change net.network = net.addr at h
  simp only [Option.map_some, Option.bind_some, ipNetNew, netOf_prefixLen, networkAddress, h]
  rfl

theorem not_mem_colonHex {c : Char} (hhex : isHexDigit c = false) (hcolon : c ≠ ':') (groups : List Nat) :
    c ∉ colonHex groups := by
  induction groups with
  | nil => exact List.not_mem_nil
  | cons group rest ih =>
    have hgroup := not_mem_hexText hhex group
    cases rest with
    | nil => rwa [colonHex_singleton]
    | cons next rest =>
      rw [colonHex_cons, List.mem_append, List.mem_cons]
      rintro (hmem | heq | hmem)
      · exact hgroup hmem
      · exact hcolon heq
      · exact ih hmem

theorem rpzOwner_injective {length : Nat} {first second : List Text} (hfirst : ∀ label ∈ first, '.' ∉ label)
    (hsecond : ∀ label ∈ second, '.' ∉ label) (h : rpzOwner length first = rpzOwner length second) : first = second := by
  have hsplit := congrArg (List.splitOn '.') h
  rw [splitOn_rpzOwner length hfirst, splitOn_rpzOwner length hsecond] at hsplit
  exact List.reverse_injective (List.cons.inj hsplit).2

theorem bare_iff {net : Network} {labels : List Text} (h : ∀ label ∈ labels, '.' ∉ label) :
    Bare net (rpzOwner (netLength net) labels) ↔ labels = ["zz".toList] := by
  constructor
  · exact rpzOwner_injective h (by decide)
  · rintro rfl
    rfl

/-- An owner name is read as the network it spells, unless a bare `zz` stands for its address. -/
theorem read_spelled {net : Network} {text : Text} (h : NoHostBits net) (hspelled : Spelled net text) :
    parseIpTrigger text = some net ↔ ¬Bare net text := by
  cases hspelled with
  | v4 net =>
    have hread := read_v4 h
    have hlabels : ∀ label ∈ (Ipv4Addr.octets net.addr).map ofNat, '.' ∉ label := by
      intro label hlabel
      obtain ⟨n, -, rfl⟩ := List.mem_map.mp hlabel
      exact not_mem_ofNat (by decide) n
    have hbare : ¬Bare (.v4 net) (rpzOwner net.prefixLen ((Ipv4Addr.octets net.addr).map ofNat)) := by
      rw [show (net.prefixLen : Nat) = netLength (.v4 net) from rfl, bare_iff hlabels]
      simp [Ipv4Addr.octets]
    exact iff_of_true hread hbare
  | words net =>
    have hgroups : Ipv6Addr.segments net.addr ≠ [] := by simp [Ipv6Addr.segments]
    have hread : parseIpTrigger (rpzOwner net.prefixLen ((Ipv6Addr.segments net.addr).map hexText)) = some (.v6 net) := by
      apply read_v6 h (labels_words _)
      · simp [Ipv6Addr.segments]
      · rw [joinWords_hexText hgroups]
        exact not_mem_colonHex (by decide) (by decide) _
      · rw [joinWords_hexText hgroups, parseIpv6_groups]
    have hbare : ¬Bare (.v6 net) (rpzOwner net.prefixLen ((Ipv6Addr.segments net.addr).map hexText)) := by
      rw [show (net.prefixLen : Nat) = netLength (.v6 net) from rfl, bare_iff (labels_words _)]
      simp [Ipv6Addr.segments]
    exact iff_of_true hread hbare
  | zeros net head tail zeros hsegments =>
    rw [show (net.prefixLen : Nat) = netLength (.v6 net) from rfl, bare_iff (labels_zz head tail)]
    have hkind : (decide ((head.map hexText ++ "zz".toList :: tail.map hexText).length = 4) &&
        (head.map hexText ++ "zz".toList :: tail.map hexText).all fun part => (readU8 part).isSome) = false := by
      have hzz : (readU8 "zz".toList).isSome = false := by decide
      rw [List.all_append, List.all_cons, hzz]
      simp
    by_cases hparts : head ≠ [] ∨ tail ≠ []
    · have hread : parseIpTrigger (rpzOwner (netLength (.v6 net)) (head.map hexText ++ "zz".toList :: tail.map hexText)) =
          some (.v6 net) := by
        apply read_v6 h (labels_zz head tail) hkind
        · rw [joinWords_zz hparts, List.mem_append, List.mem_cons, List.mem_cons]
          have hhead := @not_mem_colonHex '.' (by decide) (by decide) head
          have htail := @not_mem_colonHex '.' (by decide) (by decide) tail
          simp [hhead, htail]
        · rw [joinWords_zz hparts, parseIpv6_zeros hsegments]
      refine iff_of_true hread fun hbare => ?_
      have hlength := congrArg List.length hbare
      simp only [List.length_append, List.length_cons, List.length_map, List.length_nil] at hlength
      cases hparts with
      | inl hhead => exact hhead (List.eq_nil_of_length_eq_zero (by omega))
      | inr htail => exact htail (List.eq_nil_of_length_eq_zero (by omega))
    · rw [not_or, not_not, not_not] at hparts
      obtain ⟨rfl, rfl⟩ := hparts
      apply iff_of_false _ (by simp)
      have hlen := net.prefixLen.isLt
      have hnone : labelsAddress (List.map hexText [] ++ "zz".toList :: List.map hexText []) = none := by decide
      rw [parseIpTrigger_rpzOwner (show netLength (.v6 net) < 256 by simp only [netLength]; omega) (labels_zz [] []), hnone]
      simp

theorem addr_of_netOf {w : Nat} {addr : BitVec w} {length : Nat} {net : IpNet w}
    (h : Settings.netOf addr length = some net) : net.addr = addr := by
  unfold Settings.netOf at h
  split at h
  · cases h
    rfl
  · cases h

/-- No text is read as a network with host bits. -/
theorem noHostBits_of_read {text : Text} {net : Network} (h : parseIpTrigger text = some net) : NoHostBits net := by
  unfold parseIpTrigger at h
  split at h
  · cases h
  obtain ⟨length, -, h⟩ := Option.bind_eq_some_iff.mp h
  obtain ⟨ip, -, h⟩ := Option.bind_eq_some_iff.mp h
  obtain ⟨read, hread, h⟩ := Option.bind_eq_some_iff.mp h
  split at h
  next hnetwork =>
    cases h
    cases ip with
    | v4 bits =>
      obtain ⟨net, hnet, rfl⟩ := Option.map_eq_some_iff.mp hread
      exact (IpAddr.v4.inj hnetwork).trans (addr_of_netOf hnet).symm
    | v6 bits =>
      obtain ⟨net, hnet, rfl⟩ := Option.map_eq_some_iff.mp hread
      exact (IpAddr.v6.inj hnetwork).trans (addr_of_netOf hnet).symm
  · cases h

/-- Owner names are read as the networks they spell but for a bare `zz`, never as anything
else than a network, and of the networks that were put into a table the longest that an
address is in counts, as it was put in last. -/
theorem address_triggers (net : Network) (text : Text) :
    (NoHostBits net → Spelled net text → (parseIpTrigger text = some net ↔ ¬Bare net text)) ∧
      (parseIpTrigger text = some net → NoHostBits net) ∧
      ∀ items ip, (IpTriggers.none.insertAll items).find ip =
        (lastMaxBy (fun item => netLength item.1)
          (items.filter fun item : Network × RpzAction => item.1.contains ip.toCanonical)).map
            fun item => (netLength item.1, item.2) :=
  ⟨read_spelled, noHostBits_of_read, find_insertAll⟩

/-- The unspecified address, whose eight words are all zero. -/
theorem address_triggers_fails :
    Spelled (.v6 ⟨0, 128⟩) "128.zz".toList ∧ parseIpTrigger "128.zz".toList = none ∧
      ¬∀ net text, NoHostBits net → Spelled net text → parseIpTrigger text = some net := by
  have hspelled : Spelled (.v6 ⟨0, 128⟩) "128.zz".toList := .zeros ⟨0, 128⟩ [] [] 7 (by decide)
  have hnone : parseIpTrigger "128.zz".toList = none := by decide
  refine ⟨hspelled, hnone, fun h => ?_⟩
  have hread := h (.v6 ⟨0, 128⟩) _ (show (⟨0, 128⟩ : IpNet 128).network = 0 by decide) hspelled
  rw [hnone] at hread
  cases hread

example : parseIpTrigger "64.zz.db8.2001".toList = some (.v6 ⟨0x20010db8000000000000000000000000, 64⟩) := by decide

end DaygleDns.Authoritative
