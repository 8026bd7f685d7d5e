import DaygleDns.AddressText
import DaygleDns.Authoritative.Rpz
import DaygleDns.LastMax
import DaygleDns.Addresses
import DaygleDns.Settings.Networks

/-! Triggers of response policy zones that are addresses: their owner names, and the
tables that are made of them. -/
namespace DaygleDns.Authoritative

open Text

/-- `IpNet::network`, as an address. -/
def networkAddress : Network → IpAddr
  | .v4 net => .v4 net.network
  | .v6 net => .v6 net.network

/-- `IpNet::new` -/
def ipNetNew (ip : IpAddr) (length : Nat) : Option Network :=
  match ip with
  | .v4 bits => (Settings.netOf bits length).map .v4
  | .v6 bits => (Settings.netOf bits length).map .v6

/-- The text of an IPv6 address: `zz` stands for `::`, also at either end. -/
def joinWords (parts : List Text) : Text :=
  let text := ([':'] : Text).intercalate (parts.map fun part => if part = "zz".toList then [] else part)
  let text := if ([':'] : Text).isPrefixOf text then ':' :: text else text
  if endsWith [':'] text then text ++ [':'] else text

/-- The address of a trigger's labels, in the order of the address. -/
def labelsAddress (parts : List Text) : Option IpAddr :=
  if parts.length = 4 && parts.all fun part => (readU8 part).isSome then
    readIpAddr ((['.'] : Text).intercalate parts)
  else readIpAddr (joinWords parts)

/-- The network of a trigger: its length, then the labels of its address from the
last. It has to be a network itself. -/
def parseIpTrigger (text : Text) : Option Network :=
  match text.splitOn '.' with
  | [] => none
  | length :: labels => do
      let length ← readU8 length
      let ip ← labelsAddress labels.reverse
      let net ← ipNetNew ip length
      if networkAddress net = ip then some net else none

namespace PrefixTable

variable {w : Nat}

/-- Put a network in its place, in front of what is kept for the same one. -/
def insertNet (len : Nat) (net : BitVec w) (action : RpzAction) :
    List (Nat × List (BitVec w × RpzAction)) → List (Nat × List (BitVec w × RpzAction))
  | [] => [(len, [(net, action)])]
  | group :: rest =>
      if group.1 < len then (len, [(net, action)]) :: group :: rest
      else if group.1 = len then (len, (net, action) :: group.2) :: rest
      else group :: insertNet len net action rest

theorem lengths_insertNet {len : Nat} {net : BitVec w} {action : RpzAction}
    {groups : List (Nat × List (BitVec w × RpzAction))} :
    ∀ group ∈ insertNet len net action groups, group.1 = len ∨ ∃ old ∈ groups, old.1 = group.1 := by
  induction groups with
  | nil => simp [insertNet]
  | cons first rest ih =>
    intro group hgroup
    simp only [insertNet] at hgroup
    split at hgroup
    · obtain rfl | hold := List.mem_cons.mp hgroup
      · exact .inl rfl
      · exact .inr ⟨group, hold, rfl⟩
    split at hgroup
    · obtain rfl | hold := List.mem_cons.mp hgroup
      · exact .inl rfl
      · exact .inr ⟨group, List.mem_cons_of_mem _ hold, rfl⟩
    obtain rfl | hmem := List.mem_cons.mp hgroup
    · exact .inr ⟨group, List.mem_cons_self, rfl⟩
    · obtain hlen | ⟨old, hold, hsame⟩ := ih group hmem
      · exact .inl hlen
      · exact .inr ⟨old, List.mem_cons_of_mem _ hold, hsame⟩

theorem sorted_insertNet (len : Nat) (net : BitVec w) (action : RpzAction)
    {groups : List (Nat × List (BitVec w × RpzAction))}
    (h : groups.Pairwise fun first second => second.1 < first.1) :
    (insertNet len net action groups).Pairwise fun first second => second.1 < first.1 := by
  induction groups with
  | nil => exact List.pairwise_singleton _ _
  | cons first rest ih =>
    obtain ⟨hfirst, hrest⟩ := List.pairwise_cons.mp h
    simp only [insertNet]
    split
    next hlt =>
      apply List.pairwise_cons.mpr ⟨_, h⟩
      intro group hgroup
      obtain rfl | hmem := List.mem_cons.mp hgroup
      · exact hlt
      · exact Nat.lt_trans (hfirst group hmem) hlt
    next hle =>
      split
      next heq =>
        apply List.pairwise_cons.mpr ⟨_, hrest⟩
        intro group hgroup
        exact heq ▸ hfirst group hgroup
      next hne =>
        apply List.pairwise_cons.mpr ⟨_, ih hrest⟩
        intro group hgroup
        obtain hlen | ⟨old, hold, hsame⟩ := lengths_insertNet group hgroup
        · omega
        · exact hsame ▸ hfirst old hold

def insert (table : PrefixTable w) (net : IpNet w) (action : RpzAction) : PrefixTable w where
  groups := insertNet net.prefixLen net.network action table.groups
  sorted := sorted_insertNet _ _ _ table.sorted

/-- What is kept for a network. -/
def get (table : PrefixTable w) (len : Nat) (net : BitVec w) : Option RpzAction :=
  (table.groups.lookup len).bind (·.lookup net)

end PrefixTable

def IpTriggers.insert (triggers : IpTriggers) (net : Network) (action : RpzAction) : IpTriggers :=
  match net with
  | .v4 net => { triggers with v4 := triggers.v4.insert net action }
  | .v6 net => { triggers with v6 := triggers.v6.insert net action }

def IpTriggers.insertAll (triggers : IpTriggers) (items : List (Network × RpzAction)) : IpTriggers :=
  items.foldl (fun triggers item => triggers.insert item.1 item.2) triggers

/-! Which of the networks an address is in counts. -/

def netLength : Network → Nat
  | .v4 net => net.prefixLen
  | .v6 net => net.prefixLen

theorem toNat_and_prefixMask {w len : Nat} (h : len ≤ w) (ip : BitVec w) :
    (ip &&& prefixMask w len).toNat = ip.toNat / 2 ^ (w - len) * 2 ^ (w - len) := by
  have hshift : ip &&& prefixMask w len = (ip >>> (w - len)) <<< (w - len) := by
    apply BitVec.eq_of_getLsbD_eq
    intro i hi
    unfold prefixMask
    split
    next hzero =>
      subst hzero
      simp [hi]
    next hpos =>
      simp only [BitVec.getLsbD_and, BitVec.getLsbD_shiftLeft, BitVec.getLsbD_allOnes, BitVec.getLsbD_ushiftRight]
      by_cases hlow : i < w - len
      · simp [hlow]
      · have hsame : w - len + (i - (w - len)) = i := by omega
        have hbound : i - (w - len) < w := by omega
        simp [hi, hlow, hsame, hbound]
  have hle : ip.toNat / 2 ^ (w - len) * 2 ^ (w - len) ≤ ip.toNat := Nat.div_mul_le_self _ _
  have hlt := ip.isLt
  rw [hshift, BitVec.toNat_shiftLeft, BitVec.toNat_ushiftRight, Nat.shiftLeft_eq, Nat.shiftRight_eq_div_pow,
    Nat.mod_eq_of_lt (by omega)]

theorem contains_iff_mask {w : Nat} (net : IpNet w) (ip : BitVec w) :
    net.contains ip = true ↔ ip &&& prefixMask w net.prefixLen = net.network := by
  have hlen : (net.prefixLen : Nat) ≤ w := Nat.le_of_lt_succ net.prefixLen.isLt
  have hpos : 0 < 2 ^ net.hostBits := Nat.two_pow_pos _
  rw [net.contains_iff, ← BitVec.toNat_inj, toNat_and_prefixMask hlen, net.toNat_network]
  change _ ↔ ip.toNat / 2 ^ net.hostBits * 2 ^ net.hostBits = _
  rw [Nat.mul_left_inj hpos.ne']

namespace PrefixTable

variable {w : Nat}

/-- What a lookup finds among groups of networks. -/
def findIn (ip : BitVec w) (groups : List (Nat × List (BitVec w × RpzAction))) : Option (Nat × RpzAction) :=
  groups.findSome? fun group => (group.2.lookup (ip &&& prefixMask w group.1)).map fun action => (group.1, action)

/-- What is found by a longer network stays; else the one that was put in last counts. -/
def overtake (found : Option (Nat × RpzAction)) (last : Nat × RpzAction) : Option (Nat × RpzAction) :=
  match found with
  | some best => if best.1 ≤ last.1 then some last else some best
  | none => some last

theorem findIn_cons (ip : BitVec w) (len : Nat) (nets : List (BitVec w × RpzAction))
    (rest : List (Nat × List (BitVec w × RpzAction))) :
    findIn ip ((len, nets) :: rest) =
      match nets.lookup (ip &&& prefixMask w len) with
      | some action => some (len, action)
      | none => findIn ip rest := by
  unfold findIn
  rw [List.findSome?_cons]
  cases nets.lookup (ip &&& prefixMask w len) <;> rfl

theorem length_of_findIn {ip : BitVec w} {groups : List (Nat × List (BitVec w × RpzAction))}
    {found : Nat × RpzAction} (h : findIn ip groups = some found) : ∃ group ∈ groups, group.1 = found.1 := by
  obtain ⟨group, hgroup, hfound⟩ := List.exists_of_findSome?_eq_some h
  obtain ⟨action, -, rfl⟩ := Option.map_eq_some_iff.mp hfound
  exact ⟨group, hgroup, rfl⟩

theorem findIn_insertNet_other {ip net : BitVec w} {len : Nat} (action : RpzAction)
    (hout : ip &&& prefixMask w len ≠ net) (groups : List (Nat × List (BitVec w × RpzAction))) :
    findIn ip (insertNet len net action groups) = findIn ip groups := by
  have hlookup : ∀ nets : List (BitVec w × RpzAction),
      ((net, action) :: nets).lookup (ip &&& prefixMask w len) = nets.lookup (ip &&& prefixMask w len) := by
    intro nets
    rw [List.lookup_cons, beq_eq_false_iff_ne.mpr hout]
  induction groups with
  | nil => simp [insertNet, findIn, hlookup]
  | cons first rest ih =>
    simp only [insertNet]
    split
    · rw [findIn_cons, hlookup]
      rfl
    split
    next heq => rw [findIn_cons, hlookup, findIn_cons, heq]
    next hne => rw [findIn_cons, findIn_cons, ih]

theorem findIn_insertNet {ip net : BitVec w} {len : Nat} (action : RpzAction) (hin : ip &&& prefixMask w len = net)
    {groups : List (Nat × List (BitVec w × RpzAction))}
    (hsorted : groups.Pairwise fun first second => second.1 < first.1) :
    findIn ip (insertNet len net action groups) = overtake (findIn ip groups) (len, action) := by
  have hlookup : ∀ nets : List (BitVec w × RpzAction),
      ((net, action) :: nets).lookup (ip &&& prefixMask w len) = some action := by
    intro nets
    rw [List.lookup_cons, hin, BEq.rfl]
  have hshort : ∀ groups : List (Nat × List (BitVec w × RpzAction)), (∀ group ∈ groups, group.1 ≤ len) →
      overtake (findIn ip groups) (len, action) = some (len, action) := by
    intro groups hle
    cases hfound : findIn ip groups with
    | none => rfl
    | some found =>
      obtain ⟨group, hgroup, hsame⟩ := length_of_findIn hfound
      exact if_pos (hsame ▸ hle group hgroup)
  induction groups with
  | nil => simp [insertNet, findIn, hlookup, overtake]
  | cons first rest ih =>
    obtain ⟨hfirst, hrest⟩ := List.pairwise_cons.mp hsorted
    simp only [insertNet]
    split
    next hlt =>
      rw [findIn_cons, hlookup, hshort]
      intro group hgroup
      obtain rfl | hmem := List.mem_cons.mp hgroup
      · exact hlt.le
      · exact ((hfirst group hmem).trans hlt).le
    split
    next heq =>
      rw [findIn_cons, hlookup, hshort]
      intro group hgroup
      obtain rfl | hmem := List.mem_cons.mp hgroup
      · exact heq.le
      · exact heq ▸ (hfirst group hmem).le
    next hlt hne =>
      rw [findIn_cons, findIn_cons, ih hrest]
      cases first.2.lookup (ip &&& prefixMask w first.1) with
      | none => rfl
      | some other =>
        have hnot : ¬first.1 ≤ len := by omega
        exact (if_neg hnot).symm

theorem find_insert (table : PrefixTable w) (net : IpNet w) (action : RpzAction) (ip : BitVec w) :
    (table.insert net action).find ip =
      if net.contains ip then overtake (table.find ip) (net.prefixLen, action) else table.find ip := by
  by_cases hin : net.contains ip = true
  · rw [if_pos hin]
    exact findIn_insertNet action ((contains_iff_mask net ip).mp hin) table.sorted
  · rw [if_neg hin]
    exact findIn_insertNet_other action (fun h => hin ((contains_iff_mask net ip).mpr h)) table.groups

end PrefixTable

theorem find_insert (triggers : IpTriggers) (net : Network) (action : RpzAction) (ip : IpAddr) :
    (triggers.insert net action).find ip =
      if net.contains ip.toCanonical then PrefixTable.overtake (triggers.find ip) (netLength net, action)
      else triggers.find ip := by
  simp only [IpTriggers.find]
  cases ip.toCanonical with
  | v4 bits =>
    cases net with
    | v4 net => exact triggers.v4.find_insert net action bits
    | v6 net => rfl
  | v6 bits =>
    cases net with
    | v4 net => rfl
    | v6 net => exact triggers.v6.find_insert net action bits

/-- A lookup finds the action that was put in last for the longest network the address is in. -/
theorem find_insertAll (items : List (Network × RpzAction)) (ip : IpAddr) :
    (IpTriggers.none.insertAll items).find ip =
      (lastMaxBy (fun item => netLength item.1) (items.filter fun item => item.1.contains ip.toCanonical)).map
        fun item => (netLength item.1, item.2) := by
  induction items using List.reverseRecOn with
  | nil =>
    simp only [IpTriggers.find]
    cases ip.toCanonical <;> rfl
  | append_singleton items last ih =>
    rw [IpTriggers.insertAll, List.foldl_append, List.foldl_cons, List.foldl_nil, find_insert, ← IpTriggers.insertAll, ih,
      List.filter_append, List.filter_singleton]
    by_cases hin : last.1.contains ip.toCanonical = true
    · rw [if_pos hin, hin, cond_true, LastMax.lastMaxBy_append]
      cases lastMaxBy (fun item => netLength item.1)
        (items.filter fun item => item.1.contains ip.toCanonical) with
      | none => rfl
      | some best =>
        simp only [Option.map_some, PrefixTable.overtake]
        split <;> rfl
    · rw [if_neg hin, Bool.not_eq_true _ |>.mp hin, cond_false, List.append_nil]

end DaygleDns.Authoritative
