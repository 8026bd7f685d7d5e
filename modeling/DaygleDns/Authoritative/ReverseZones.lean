import DaygleDns.Authoritative.NameFacts
import DaygleDns.Authoritative.ReverseNames
import DaygleDns.Authoritative.ReverseSync
import DaygleDns.Dhcp.DdnsFacts

/-! Which zone holds a reverse name, and that a zone created for another one does not change it. -/
namespace DaygleDns.Authoritative

open Text Dhcp Fallible LastMax

/-! Names that are read label by label from their ends. -/

/-- `zone` is the name, or some of its last labels. -/
def Under (name zone : Text) : Prop := name = zone ∨ ('.' :: zone) <:+ name

instance decidableUnder (name zone : Text) : Decidable (Under name zone) := inferInstanceAs (Decidable (_ ∨ _))

theorem Under.refl (name : Text) : Under name name := .inl rfl

theorem Under.suffix {name zone : Text} (h : Under name zone) : zone <:+ name := by
  cases h with
  | inl heq => exact heq ▸ List.suffix_refl _
  | inr hsuffix => exact (List.suffix_cons _ _).trans hsuffix

theorem Under.trans {a b c : Text} (hab : Under a b) (hbc : Under b c) : Under a c := by
  cases hbc with
  | inl heq => exact heq ▸ hab
  | inr hsuffix => exact .inr (hsuffix.trans hab.suffix)

/-- Of two zones that hold a name one holds the other. -/
theorem Under.total {name a b : Text} (ha : Under name a) (hb : Under name b) : Under a b ∨ Under b a := by
  cases ha with
  | inl heq => exact .inl (heq ▸ hb)
  | inr ha =>
    cases hb with
    | inl heq => exact .inr (heq ▸ .inr ha)
    | inr hb =>
      obtain h | h := List.suffix_or_suffix_of_suffix ha hb
      · apply Or.inr
        obtain heq | h := List.suffix_cons_iff.mp h
        · exact .inl (List.cons.inj heq).2.symm
        · exact .inr h
      · apply Or.inl
        obtain heq | h := List.suffix_cons_iff.mp h
        · exact .inl (List.cons.inj heq).2.symm
        · exact .inr h

theorem utf8Len_append (a b : Text) : utf8Len (a ++ b) = utf8Len a + utf8Len b := by
  simp [utf8Len]

theorem Under.eq_of_utf8Len {name zone : Text} (h : Under name zone) (hlen : utf8Len name ≤ utf8Len zone) : name = zone := by
  cases h with
  | inl heq => exact heq
  | inr hsuffix =>
    obtain ⟨lead, rfl⟩ := hsuffix
    have hdot : utf8Len ('.' :: zone) = 1 + utf8Len zone := utf8Len_append ['.'] zone
    rw [utf8Len_append, hdot] at hlen
    omega

theorem under_of_append (lead zone : Text) : Under (lead ++ '.' :: zone) zone := .inr (List.suffix_append _ _)

/-- Without its first labels. -/
theorem under_drop (labels : List Text) (skip : Nat) (h : skip < labels.length) :
    Under ((['.'] : Text).intercalate labels) ((['.'] : Text).intercalate (labels.drop skip)) := by
  induction skip generalizing labels with
  | zero => exact .refl _
  | succ skip ih =>
    cases labels with
    | nil => cases h
    | cons label rest =>
      rw [List.length_cons] at h
      have hrest := ih rest (by omega)
      cases rest with
      | nil => simp at h
      | cons next rest =>
        rw [intercalate_cons, List.drop_succ_cons]
        exact (under_of_append label _).trans hrest

/-! Reverse names are names in lower case. -/

/-- What names are compared by. -/
def nameKey (name : Text) : Text := toAsciiLowercase (trimEndMatches '.' (trim name))

theorem sameName_iff {a b : Text} : sameName a b = true ↔ nameKey a = nameKey b := beq_iff_eq

theorem sameName_trans {a b c : Text} (hab : sameName a b = true) (hbc : sameName b c = true) : sameName a c = true :=
  sameName_iff.mpr ((sameName_iff.mp hab).trans (sameName_iff.mp hbc))

theorem sameName_symm {a b : Text} (h : sameName a b = true) : sameName b a = true :=
  sameName_iff.mpr (sameName_iff.mp h).symm

theorem reverseName_chars (ip : IpAddr) : ∀ c ∈ reverseName ip, isWhitespace c = false ∧ c.toLower = c := by
  cases ip with
  | v4 ip =>
    rw [reverseName_v4, List.forall_mem_append]
    refine ⟨forall_mem_intercalate (by decide) ?_, by decide⟩
    intro part hpart c hc
    obtain ⟨n, -, hn⟩ := List.mem_map.mp hpart
    rw [← hn] at hc
    exact ⟨solid_ofNat n c hc, toLower_of_isDigit (isDigit_ofNat hc)⟩
  | v6 ip =>
    have hdigit : ∀ n < 16, isWhitespace (hexDigit n) = false ∧ (hexDigit n).toLower = hexDigit n := by decide
    rw [reverseName_v6, List.forall_mem_append]
    refine ⟨forall_mem_intercalate (by decide) ?_, by decide⟩
    intro part hpart c hc
    obtain ⟨n, hn, hpart⟩ := List.mem_map.mp hpart
    rw [← hpart] at hc
    rw [List.mem_singleton.mp hc]
    exact hdigit n (lowDigits_lt (by decide) _ _ n hn)

theorem getLast?_reverseName (ip : IpAddr) : (reverseName ip).getLast? = some 'a' := by
  cases ip with
  | v4 ip =>
    rw [reverseName_v4, List.getLast?_append]
    rfl
  | v6 ip =>
    rw [reverseName_v6, List.getLast?_append]
    rfl

/-- A reverse name, or some last labels of one. -/
structure Reverse (name : Text) : Prop where
  solid : Solid name
  lower : ∀ c ∈ name, c.toLower = c
  last : name.getLast? = some 'a'

theorem reverse_reverseName (ip : IpAddr) : Reverse (reverseName ip) where
  solid := fun c hc => (reverseName_chars ip c hc).1
  lower := fun c hc => (reverseName_chars ip c hc).2
  last := getLast?_reverseName ip

theorem Reverse.under {name zone : Text} (h : Reverse name) (hunder : Under name zone) : Reverse zone := by
  obtain ⟨lead, hlead⟩ := hunder.suffix
  have hlast : zone.getLast? = some 'a' := by
    cases hunder with
    | inl heq => exact heq ▸ h.last
    | inr hsuffix =>
      obtain ⟨lead, hlead⟩ := hsuffix
      have hname := h.last
      rw [← hlead, List.getLast?_append, List.getLast?_cons] at hname
      cases hzone : zone.getLast? with
      | none =>
        rw [hzone] at hname
        cases hname
      | some c =>
        rw [hzone] at hname
        exact hname
  constructor
  · exact fun c hc => h.solid c (hlead ▸ List.mem_append_right lead hc)
  · exact fun c hc => h.lower c (hlead ▸ List.mem_append_right lead hc)
  · exact hlast

theorem Reverse.lowered {name : Text} (h : Reverse name) : toAsciiLowercase name = name :=
  (List.map_congr_left h.lower).trans (List.map_id _)

theorem Reverse.normalized {name : Text} (h : Reverse name) : normalizeFqdn name = name := by
  have hlast : name.getLast? ≠ some '.' := by
    rw [h.last]
    decide
  rw [normalizeFqdn, h.solid.trim, trimEndMatches_of_last hlast, h.lowered]

theorem Reverse.nameKey {name : Text} (h : Reverse name) : nameKey name = name := h.normalized

theorem reverseName_injective {first second : IpAddr} (h : reverseName first = reverseName second) : first = second := by
  have hfirst := addressOfLower_reverseName first
  rw [h, addressOfLower_reverseName second] at hfirst
  exact (Option.some.inj hfirst).symm

/-- Names that are compared as equal to reverse names of two addresses. -/
theorem address_of_sameName {name : Text} {first second : IpAddr} (hfirst : sameName name (reverseName first) = true)
    (hsecond : sameName name (reverseName second) = true) : first = second := by
  have h := sameName_iff.mp (sameName_trans (sameName_symm hfirst) hsecond)
  rw [(reverse_reverseName first).nameKey, (reverse_reverseName second).nameKey] at h
  exact reverseName_injective h

theorem intercalate_concat (separator : Text) {parts : List Text} (hne : parts ≠ []) (last : Text) :
    separator.intercalate (parts ++ [last]) = separator.intercalate parts ++ (separator ++ last) := by
  induction parts with
  | nil => exact absurd rfl hne
  | cons part parts ih =>
    cases parts with
    | nil => simp [List.intercalate]
    | cons next parts =>
      have hrest := ih (List.cons_ne_nil _ _)
      rw [List.cons_append, List.cons_append] at *
      rw [intercalate_cons, hrest, intercalate_cons, List.append_assoc, List.append_assoc]

/-- A name with the labels `parts` and two more has that many labels. -/
theorem length_labels {parts : List Text} (hne : parts ≠ []) (hdots : ∀ part ∈ parts, '.' ∉ part) {first second : Text}
    (hfirst : '.' ∉ first) (hsecond : '.' ∉ second) :
    (((['.'] : Text).intercalate parts ++ ('.' :: first ++ '.' :: second)).splitOn '.').length = parts.length + 2 := by
  have hname : (['.'] : Text).intercalate parts ++ ('.' :: first ++ '.' :: second) =
      (['.'] : Text).intercalate (parts ++ [first] ++ [second]) := by
    rw [intercalate_concat _ (by simp), intercalate_concat _ hne]
    simp
  have hall : ∀ part ∈ parts ++ [first] ++ [second], '.' ∉ part := by
    intro part hpart
    rw [List.mem_append, List.mem_append, List.mem_singleton, List.mem_singleton] at hpart
    obtain (hpart | rfl) | rfl := hpart
    · exact hdots part hpart
    · exact hfirst
    · exact hsecond
  rw [hname, List.splitOn_intercalate '.' hall (by simp)]
  simp

theorem length_splitOn_reverseName (ip : IpAddr) :
    ((reverseName ip).splitOn '.').length = match ip with | .v4 _ => 6 | .v6 _ => 34 := by
  cases ip with
  | v4 ip =>
    rw [reverseName_v4, show inAddrArpa = '.' :: "in-addr".toList ++ '.' :: "arpa".toList from rfl]
    refine (length_labels ?_ ?_ (by decide) (by decide)).trans ?_
    · simp [lowDigits]
    · intro part hpart
      obtain ⟨n, -, rfl⟩ := List.mem_map.mp hpart
      exact not_mem_ofNat (by decide) n
    · simp [lowDigits]
  | v6 ip =>
    have hdigit : ∀ n < 16, '.' ∉ [hexDigit n] := by decide
    rw [reverseName_v6, show ip6Arpa = '.' :: "ip6".toList ++ '.' :: "arpa".toList from rfl]
    refine (length_labels ?_ ?_ (by decide) (by decide)).trans ?_
    · simp [lowDigits]
    · intro part hpart
      obtain ⟨n, hn, rfl⟩ := List.mem_map.mp hpart
      exact hdigit n (lowDigits_lt (by decide) _ _ n hn)
    · simp [lowDigits]

theorem under_defaultReverseZone (ip : IpAddr) : Under (reverseName ip) (defaultReverseZone ip) := by
  have hlength := length_splitOn_reverseName ip
  have hlabels : (['.'] : Text).intercalate ((reverseName ip).splitOn '.') = reverseName ip := List.intercalate_splitOn '.'
  unfold defaultReverseZone
  cases ip with
  | v4 ip =>
    have hunder := under_drop ((reverseName (.v4 ip)).splitOn '.') 1 (by rw [hlength]; exact (by decide : 1 < 6))
    rw [hlabels] at hunder
    exact hunder
  | v6 ip =>
    have hunder := under_drop ((reverseName (.v6 ip)).splitOn '.') 16 (by rw [hlength]; exact (by decide : 16 < 34))
    rw [hlabels] at hunder
    exact hunder

/-! The names of the zones of a store. -/

def zoneNames (store : ZoneStore) : List (Uuid × Text) := store.zones.rows.map fun zone => (zone.id, zone.name)

/-- Zones are stored under different names in lower case. -/
structure NormalNames (names : List (Uuid × Text)) : Prop where
  lower : ∀ entry ∈ names, toAsciiLowercase entry.2 = entry.2
  nodup : (names.map Prod.snd).Nodup

/-- The zone is the most specific one of those that hold the name. -/
structure HeldIn (names : List (Uuid × Text)) (owner : Text) (zoneId : Uuid) (name : Text) : Prop where
  mem : (zoneId, name) ∈ names
  under : Under owner name
  longest : ∀ entry ∈ names, Under owner entry.2 → utf8Len entry.2 ≤ utf8Len name

variable {store : ZoneStore} {owner : Text}

theorem mem_listZones {zone : Zone} : zone ∈ listZones store ↔ zone ∈ store.zones.rows := by
  unfold listZones
  rw [List.mem_insertionSort]

theorem coversOwner_iff (h : NormalNames (zoneNames store)) {zone : Zone} (hzone : zone ∈ store.zones.rows) :
    coversOwner owner zone = true ↔ Under owner zone.name := by
  have hlower : toAsciiLowercase zone.name = zone.name := h.lower (zone.id, zone.name) (List.mem_map_of_mem hzone)
  unfold coversOwner Under endsWith
  rw [hlower, Bool.or_eq_true, beq_iff_eq, List.isSuffixOf_iff_suffix]

theorem HeldIn.unique {names : List (Uuid × Text)} (h : NormalNames names) {first second : Uuid} {name other : Text}
    (hfirst : HeldIn names owner first name) (hsecond : HeldIn names owner second other) :
    first = second ∧ name = other := by
  have hle := hfirst.longest _ hsecond.mem hsecond.under
  have hge := hsecond.longest _ hfirst.mem hfirst.under
  have hname : name = other := by
    cases hfirst.under.total hsecond.under with
    | inl hunder => exact hunder.eq_of_utf8Len hge
    | inr hunder => exact (hunder.eq_of_utf8Len hle).symm
  have hentry := List.inj_on_of_nodup_map h.nodup hfirst.mem hsecond.mem hname
  exact ⟨congrArg Prod.fst hentry, hname⟩

theorem heldIn_of_reverseZone (h : NormalNames (zoneNames store)) {zone : Zone}
    (hzone : reverseZone store owner = some zone) :
    zone ∈ store.zones.rows ∧ HeldIn (zoneNames store) owner zone.id zone.name := by
  have hgreatest := greatest_of_lastMaxBy hzone
  obtain ⟨hmem, hcovers⟩ := List.mem_filter.mp hgreatest.mem
  rw [mem_listZones] at hmem
  refine ⟨hmem, List.mem_map_of_mem hmem, (coversOwner_iff h hmem).mp hcovers, ?_⟩
  intro entry hentry hunder
  obtain ⟨other, hother, rfl⟩ := List.mem_map.mp hentry
  exact hgreatest.le other (List.mem_filter.mpr ⟨mem_listZones.mpr hother, (coversOwner_iff h hother).mpr hunder⟩)

theorem not_under_of_reverseZone (h : NormalNames (zoneNames store)) (hnone : reverseZone store owner = none) :
    ∀ entry ∈ zoneNames store, ¬Under owner entry.2 := by
  intro entry hentry hunder
  obtain ⟨zone, hzone, rfl⟩ := List.mem_map.mp hentry
  obtain ⟨hnil, -⟩ | ⟨other, hsome, -⟩ := lastMaxBy_spec (fun zone => utf8Len zone.name)
    ((listZones store).filter (coversOwner owner))
  · have hmem := List.mem_filter.mpr ⟨mem_listZones.mpr hzone, (coversOwner_iff h hzone).mpr hunder⟩
    rw [hnil] at hmem
    cases hmem
  · rw [reverseZone, hsome] at hnone
    cases hnone

theorem reverseZone_of_heldIn (h : NormalNames (zoneNames store)) {zoneId : Uuid} {name : Text}
    (hheld : HeldIn (zoneNames store) owner zoneId name) : ∃ zone, reverseZone store owner = some zone ∧ zone.id = zoneId := by
  cases hzone : reverseZone store owner with
  | none => exact absurd hheld.under (not_under_of_reverseZone h hzone _ hheld.mem)
  | some zone => exact ⟨zone, rfl, ((heldIn_of_reverseZone h hzone).2.unique h hheld).1⟩

/-- A zone that is new, for a name that no zone held, leaves other names where they are. -/
theorem HeldIn.append {names : List (Uuid × Text)} {other : Text} {zoneId newId : Uuid} {name newName : Text}
    (hheld : HeldIn names other zoneId name) (hnew : Under owner newName)
    (hnone : ∀ entry ∈ names, ¬Under owner entry.2) : HeldIn (names ++ [(newId, newName)]) other zoneId name := by
  refine ⟨List.mem_append_left _ hheld.mem, hheld.under, ?_⟩
  intro entry hentry hunder
  rw [List.mem_append, List.mem_singleton] at hentry
  cases hentry with
  | inl hentry => exact hheld.longest entry hentry hunder
  | inr heq =>
    subst heq
    cases hheld.under.total hunder with
    | inl hname =>
      by_contra hlong
      have heq := hname.eq_of_utf8Len (by omega)
      exact hnone _ hheld.mem (heq ▸ hnew)
    | inr hname => exact absurd (hnew.trans hname) (hnone _ hheld.mem)

theorem heldIn_new {names : List (Uuid × Text)} {newId : Uuid} {newName : Text} (hnew : Under owner newName)
    (hnone : ∀ entry ∈ names, ¬Under owner entry.2) : HeldIn (names ++ [(newId, newName)]) owner newId newName := by
  refine ⟨List.mem_append_right _ (List.mem_singleton.mpr rfl), hnew, ?_⟩
  intro entry hentry hunder
  rw [List.mem_append, List.mem_singleton] at hentry
  cases hentry with
  | inl hentry => exact absurd hunder (hnone entry hentry)
  | inr heq => rw [heq]

end DaygleDns.Authoritative
