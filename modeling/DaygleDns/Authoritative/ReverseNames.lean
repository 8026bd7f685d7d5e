import DaygleDns.AddressText
import DaygleDns.Dhcp.Ddns
import DaygleDns.Numerals

/-! Reverse names: the address that a name is read as, and the name that is made for an address. -/
namespace DaygleDns.Authoritative

open Text Dhcp

/-- No leading zeros; what the standard library reads as a byte is taken otherwise. -/
def readOctetLabel (label : Text) : Option Nat :=
  if 1 < utf8Len label ∧ label.head? = some '0' then none else readU8 label

/-- One hexadecimal digit. -/
def readNibbleLabel : Text → Option Nat
  | [c] => if isHexDigit c then some (hexDigitValue c) else none
  | _ => none

def inAddrArpa : Text := ".in-addr.arpa"

def ip6Arpa : Text := ".ip6.arpa"

def ipv4Of (rest : Text) : Option IpAddr :=
  match (rest.splitOn '.').mapM readOctetLabel with
  | some [d, c, b, a] => some (.v4 (BitVec.ofNat 32 (((a * 256 + b) * 256 + c) * 256 + d)))
  | _ => none

def ipv6Of (rest : Text) : Option IpAddr :=
  match (rest.splitOn '.').mapM readNibbleLabel with
  | some nibbles =>
      if nibbles.length = 32 then
        some (.v6 (BitVec.ofNat 128 (nibbles.reverse.foldl (fun value n => 16 * value + n) 0)))
      else none
  | none => none

/-- `address_of` on a name in lower case, without trailing dots. -/
def addressOfLower (name : Text) : Option IpAddr :=
  match stripSuffix inAddrArpa name with
  | some rest => ipv4Of rest
  | none => (stripSuffix ip6Arpa name).bind ipv6Of

def addressOf (name : Text) : Option IpAddr := addressOfLower (toAsciiLowercase (trimEndMatches '.' name))

/-! Labels. -/

/-- What the reader of bytes takes besides decimals. -/
structure Plus (label number : Text) : Prop where
  signed : label = '+' :: number
  nonempty : number ≠ []
  digits : ∀ c ∈ number, c.isDigit = true
  small : readDigits number < 256

theorem readU8_eq_some {s : Text} {n : Nat} :
    readU8 s = some n ↔ ∃ digits, (s = digits ∨ s = '+' :: digits) ∧ digits ≠ [] ∧ (∀ c ∈ digits, c.isDigit = true) ∧
      readDigits digits = n ∧ n < 256 := by
  have hread : ∀ digits : Text, (!digits.isEmpty && digits.all Char.isDigit && decide (readDigits digits < 256)) = true ↔
      digits ≠ [] ∧ (∀ c ∈ digits, c.isDigit = true) ∧ readDigits digits < 256 := by
    intro digits
    simp [and_assoc]
  unfold readU8
  simp only [hread, Option.ite_none_right_eq_some, Option.some.injEq]
  constructor
  · rintro ⟨⟨hne, hdigits, hsmall⟩, rfl⟩
    refine ⟨_, ?_, hne, hdigits, rfl, hsmall⟩
    cases hplus : stripPrefix ['+'] s with
    | none => exact .inl rfl
    | some rest =>
      unfold stripPrefix at hplus
      split at hplus
      next hlead =>
        obtain ⟨tail, rfl⟩ := List.isPrefixOf_iff_prefix.mp hlead
        cases hplus
        exact .inr rfl
      next => cases hplus
  · rintro ⟨digits, hs, hne, hdigits, rfl, hsmall⟩
    have hstrip : (stripPrefix ['+'] s).getD s = digits := by
      obtain ⟨c, rest, hcons⟩ := List.exists_cons_of_ne_nil hne
      cases hs with
      | inl hs =>
        have hc := hdigits c (by rw [hcons]; exact List.mem_cons_self)
        have hplus : '+' ≠ c := by
          rintro rfl
          exact absurd hc (by decide)
        simp [stripPrefix, hs, hcons, hplus]
      | inr hs => simp [stripPrefix, hs]
    rw [hstrip]
    exact ⟨⟨hne, hdigits, hsmall⟩, rfl⟩

theorem readOctetLabel_eq_some {label : Text} {n : Nat} :
    readOctetLabel label = some n ↔ n < 256 ∧ (label = ofNat n ∨ ∃ digits, Plus label digits ∧ readDigits digits = n) := by
  unfold readOctetLabel
  rw [Option.ite_none_left_eq_some, readU8_eq_some]
  constructor
  · rintro ⟨hlead, digits, hlabel, hne, hdigits, rfl, hsmall⟩
    refine ⟨hsmall, ?_⟩
    cases hlabel with
    | inl hlabel =>
      subst hlabel
      left
      refine (ofNat_readDigits hne hdigits fun hlong hhead => hlead ⟨?_, hhead⟩).symm
      exact Nat.lt_of_lt_of_le hlong (length_le_utf8Len label)
    | inr hlabel => exact .inr ⟨digits, ⟨hlabel, hne, hdigits, hsmall⟩, rfl⟩
  · rintro ⟨hsmall, rfl | ⟨digits, hplus, rfl⟩⟩
    · have hdigits : ∀ c ∈ ofNat n, c.isDigit = true := fun c hc => isDigit_ofNat hc
      refine ⟨?_, ofNat n, .inl rfl, ofNat_ne_nil n, hdigits, readDigits_ofNat n, hsmall⟩
      rintro ⟨hlong, hhead⟩
      rw [utf8Len_of_digits hdigits] at hlong
      exact long_ofNat hlong hhead
    · refine ⟨?_, digits, .inr hplus.signed, hplus.nonempty, hplus.digits, rfl, hsmall⟩
      rintro ⟨-, hhead⟩
      rw [hplus.signed] at hhead
      cases hhead

theorem hexDigit_cases {c : Char} (h : isHexDigit c = true) (hlower : c.toLower = c) : c ∈ "0123456789abcdef".toList := by
  have hchar : c = Char.ofNat c.toNat := (Char.ofNat_toNat c).symm
  have hbounds : 48 ≤ c.toNat ∧ c.toNat ≤ 57 ∨ 97 ≤ c.toNat ∧ c.toNat ≤ 102 ∨ 65 ≤ c.toNat ∧ c.toNat ≤ 70 := by
    simp only [isHexDigit, Bool.or_eq_true, Bool.and_eq_true, decide_eq_true_eq, Char.le_def, UInt32.le_iff_toNat_le] at h
    rcases h with (h | h) | h
    · exact .inl (isDigit_bounds h)
    · exact .inr (.inl h)
    · exact .inr (.inr h)
  generalize c.toNat = n at hbounds hchar
  subst hchar
  obtain ⟨hlow, hhigh⟩ | ⟨hlow, hhigh⟩ | ⟨hlow, hhigh⟩ := hbounds
  · interval_cases n <;> decide
  · interval_cases n <;> decide
  · interval_cases n <;> exact absurd hlower (by decide)

theorem readNibbleLabel_eq_some {label : Text} (hlower : toAsciiLowercase label = label) {n : Nat} :
    readNibbleLabel label = some n ↔ n < 16 ∧ label = [hexDigit n] := by
  have hread : ∀ c ∈ "0123456789abcdef".toList, hexDigitValue c < 16 ∧ hexDigit (hexDigitValue c) = c := by decide
  have hwrite : ∀ n < 16, isHexDigit (hexDigit n) = true ∧ hexDigitValue (hexDigit n) = n := by decide
  constructor
  · intro h
    unfold readNibbleLabel at h
    split at h
    next c =>
      rw [Option.ite_none_right_eq_some] at h
      obtain ⟨hhex, hn⟩ := h
      obtain ⟨hlt, hdigit⟩ := hread c (hexDigit_cases hhex (List.cons.inj hlower).1)
      cases hn
      exact ⟨hlt, by rw [hdigit]⟩
    next => cases h
  · rintro ⟨hlt, rfl⟩
    obtain ⟨hhex, hvalue⟩ := hwrite n hlt
    rw [readNibbleLabel, if_pos hhex, hvalue]

/-! Names. -/

theorem intercalate_cons (separator part next : Text) (parts : List Text) :
    separator.intercalate (part :: next :: parts) = part ++ (separator ++ separator.intercalate (next :: parts)) := by
  simp [List.intercalate]

theorem forall_mem_intercalate {p : Char → Prop} {separator : Text} {parts : List Text} (hseparator : ∀ c ∈ separator, p c)
    (h : ∀ part ∈ parts, ∀ c ∈ part, p c) : ∀ c ∈ separator.intercalate parts, p c := by
  induction parts with
  | nil => simp [List.intercalate]
  | cons part parts ih =>
    rw [List.forall_mem_cons] at h
    cases parts with
    | nil => simpa [List.intercalate] using h.1
    | cons next parts =>
      rw [intercalate_cons, List.forall_mem_append, List.forall_mem_append]
      exact ⟨h.1, hseparator, ih h.2⟩

theorem mem_intercalate {separator part : Text} {parts : List Text} {c : Char} (hpart : part ∈ parts) (hc : c ∈ part) :
    c ∈ separator.intercalate parts := by
  induction parts with
  | nil => cases hpart
  | cons first parts ih =>
    cases parts with
    | nil =>
      rw [List.mem_singleton.mp hpart] at hc
      simpa [List.intercalate] using hc
    | cons next parts =>
      rw [intercalate_cons, List.mem_append, List.mem_append]
      rcases List.mem_cons.mp hpart with rfl | hrest
      · exact .inl hc
      · exact .inr (.inr (ih hrest))

theorem reverseName_v4 (ip : Ipv4Addr) :
    reverseName (.v4 ip) = (['.'] : Text).intercalate ((lowDigits 256 4 ip.toNat).map ofNat) ++ inAddrArpa := rfl

theorem reverseName_v6 (ip : Ipv6Addr) :
    reverseName (.v6 ip) = (['.'] : Text).intercalate ((lowDigits 16 32 ip.toNat).map fun n => [hexDigit n]) ++ ip6Arpa := by
  rw [lowDigits, List.map_map]
  rfl

theorem no_dot_octetLabel {label : Text} {n : Nat} (h : readOctetLabel label = some n) : '.' ∉ label := by
  obtain ⟨-, rfl | ⟨digits, hplus, -⟩⟩ := readOctetLabel_eq_some.mp h
  · exact not_mem_ofNat (by decide) n
  · rw [hplus.signed]
    intro hdot
    rcases List.mem_cons.mp hdot with hdot | hdot
    · cases hdot
    · exact absurd (hplus.digits '.' hdot) (by decide)

/-- The value of four bytes. -/
theorem ipv4_ofDigits (a b c d : Nat) : ((a * 256 + b) * 256 + c) * 256 + d = Nat.ofDigits 256 [d, c, b, a] := by
  simp only [Nat.ofDigits_cons, Nat.ofDigits_nil]
  omega

theorem ipv4Of_eq_some {rest : Text} {address : IpAddr} :
    ipv4Of rest = some address ↔ ∃ ip labels, address = .v4 ip ∧ rest = (['.'] : Text).intercalate labels ∧
      List.Forall₂ (fun label n => readOctetLabel label = some n) labels (lowDigits 256 4 ip.toNat) := by
  constructor
  · intro h
    unfold ipv4Of at h
    split at h
    next d c b a hread =>
      cases h
      rw [Fallible.mapM_eq_some] at hread
      refine ⟨_, _, rfl, (List.intercalate_splitOn '.').symm, ?_⟩
      have hsmall : ∀ n ∈ [d, c, b, a], n < 256 := by
        intro n hn
        obtain ⟨label, -, hlabel⟩ := (Fallible.exists_of_forall₂ hread).2 n hn
        exact (readOctetLabel_eq_some.mp hlabel).1
      have hdigits : lowDigits 256 4 (BitVec.ofNat 32 (Nat.ofDigits 256 [d, c, b, a])).toNat = [d, c, b, a] :=
        lowDigits_toNat (by decide) hsmall (show 256 ^ 4 = 2 ^ 32 by decide)
      rw [ipv4_ofDigits, hdigits]
      exact hread
    next => cases h
  · rintro ⟨ip, labels, rfl, rfl, hread⟩
    have hdots : ∀ label ∈ labels, '.' ∉ label := by
      intro label hlabel
      obtain ⟨n, -, hn⟩ := (Fallible.exists_of_forall₂ hread).1 label hlabel
      exact no_dot_octetLabel hn
    have hne : labels ≠ [] := by
      rintro rfl
      cases hread
    have hoctets := ofNat_lowDigits (show 256 ^ 4 = 2 ^ 32 by decide) ip
    have hlist : lowDigits 256 4 ip.toNat =
        [ip.toNat / 256 ^ 0 % 256, ip.toNat / 256 ^ 1 % 256, ip.toNat / 256 ^ 2 % 256, ip.toNat / 256 ^ 3 % 256] := rfl
    rw [← Fallible.mapM_eq_some, hlist] at hread
    rw [hlist, ← ipv4_ofDigits] at hoctets
    rw [ipv4Of, List.splitOn_intercalate '.' hdots hne, hread]
    exact congrArg (fun bits => some (IpAddr.v4 bits)) hoctets

theorem forall₂_nibbles {labels : List Text} {numbers : List Nat} (hlower : ∀ label ∈ labels, toAsciiLowercase label = label) :
    List.Forall₂ (fun label n => readNibbleLabel label = some n) labels numbers ↔
      labels = numbers.map (fun n => [hexDigit n]) ∧ ∀ n ∈ numbers, n < 16 := by
  constructor
  · intro h
    induction h with
    | nil => simp
    | cons hlabel _ ih =>
      rw [List.forall_mem_cons] at hlower
      obtain ⟨hlt, rfl⟩ := (readNibbleLabel_eq_some hlower.1).mp hlabel
      obtain ⟨rfl, hrest⟩ := ih hlower.2
      exact ⟨rfl, List.forall_mem_cons.mpr ⟨hlt, hrest⟩⟩
  · rintro ⟨rfl, hsmall⟩
    rw [List.forall₂_map_left_iff, List.forall₂_same]
    intro n hn
    have hlabel := hlower [hexDigit n] (List.mem_map_of_mem hn)
    exact (readNibbleLabel_eq_some hlabel).mpr ⟨hsmall n hn, rfl⟩

theorem ipv6Of_eq_some {rest : Text} (hlower : toAsciiLowercase rest = rest) {address : IpAddr} :
    ipv6Of rest = some address ↔ ∃ ip, address = .v6 ip ∧
      rest = (['.'] : Text).intercalate ((lowDigits 16 32 ip.toNat).map fun n => [hexDigit n]) := by
  constructor
  · intro h
    unfold ipv6Of at h
    split at h
    next nibbles hread =>
      rw [Option.ite_none_right_eq_some] at h
      obtain ⟨hlength, h⟩ := h
      cases h
      rw [Fallible.mapM_eq_some, forall₂_nibbles] at hread
      · obtain ⟨hlabels, hsmall⟩ := hread
        have hdigits := lowDigits_toNat (by decide) hsmall (show 16 ^ nibbles.length = 2 ^ 128 by rw [hlength]; decide)
        rw [hlength] at hdigits
        refine ⟨_, rfl, ?_⟩
        rw [foldl_reverse_eq_ofDigits, hdigits, ← hlabels, List.intercalate_splitOn]
      · intro label hlabel
        have hparts := splitOn_lower (show ('.' : Char).toNat < 65 by decide) rest
        rw [hlower] at hparts
        exact List.map_inj_left.mp (hparts.symm.trans (List.map_id _).symm) label hlabel
    next => cases h
  · rintro ⟨ip, rfl, rfl⟩
    have hdigit : ∀ n < 16, hexDigit n ≠ '.' ∧ (hexDigit n).toLower = hexDigit n := by decide
    have hsmall := lowDigits_lt (show 0 < 16 by decide) 32 ip.toNat
    have hdots : ∀ label ∈ (lowDigits 16 32 ip.toNat).map (fun n => [hexDigit n]), '.' ∉ label := by
      intro label hlabel
      obtain ⟨n, hn, rfl⟩ := List.mem_map.mp hlabel
      rw [List.mem_singleton]
      exact (hdigit n (hsmall n hn)).1.symm
    have hlabels : ∀ label ∈ (lowDigits 16 32 ip.toNat).map (fun n => [hexDigit n]), toAsciiLowercase label = label := by
      intro label hlabel
      obtain ⟨n, hn, rfl⟩ := List.mem_map.mp hlabel
      exact congrArg (fun c => [c]) (hdigit n (hsmall n hn)).2
    have hlength : (lowDigits 16 32 ip.toNat).length = 32 := by rw [lowDigits, List.length_map, List.length_range]
    have hne : (lowDigits 16 32 ip.toNat).map (fun n => [hexDigit n]) ≠ [] := by
      intro hnil
      have hzero := congrArg List.length hnil
      rw [List.length_map, hlength] at hzero
      cases hzero
    have hread := Fallible.mapM_eq_some.mpr ((forall₂_nibbles hlabels).mpr ⟨rfl, hsmall⟩)
    simp only [ipv6Of, List.splitOn_intercalate '.' hdots hne, hread]
    rw [if_pos hlength, foldl_reverse_eq_ofDigits, ofNat_lowDigits (show 16 ^ 32 = 2 ^ 128 by decide)]

/-! Inverses. -/

theorem stripSuffix_none {tail s : Text} (h : ∀ lead, s ≠ lead ++ tail) : stripSuffix tail s = none := by
  cases hstrip : stripSuffix tail s with
  | none => rfl
  | some lead => exact absurd (stripSuffix_eq_some.mp hstrip) (h lead)

theorem inAddrArpa_ne_ip6Arpa (a b : Text) : a ++ ip6Arpa ≠ b ++ inAddrArpa := by
  intro h
  have hcancel : a ++ ".ip6".toList = b ++ ".in-addr".toList := by
    apply @List.append_cancel_right _ _ ".arpa".toList
    rw [List.append_assoc, List.append_assoc]
    exact h
  have hlast := congrArg List.getLast? hcancel
  rw [List.getLast?_append_of_ne_nil _ (by decide), List.getLast?_append_of_ne_nil _ (by decide)] at hlast
  exact absurd hlast (by decide)

/-- A reverse name with a plus sign before a byte: it is read, but it is no reverse name. -/
def SignedName (name : Text) : Prop :=
  '+' ∈ name ∧ ∃ labels, name = (['.'] : Text).intercalate labels ++ inAddrArpa ∧ labels.length = 4 ∧
    ∀ label ∈ labels, (∃ n < 256, label = ofNat n) ∨ ∃ number, Plus label number

theorem no_plus_reverseName (address : IpAddr) : '+' ∉ reverseName address := by
  have hall : ∀ c ∈ reverseName address, c ≠ '+' := by
    cases address with
    | v4 ip =>
      rw [reverseName_v4, List.forall_mem_append]
      refine ⟨forall_mem_intercalate (by decide) ?_, by decide⟩
      intro part hpart c hc
      obtain ⟨n, -, rfl⟩ := List.mem_map.mp hpart
      rintro rfl
      exact not_mem_ofNat (by decide) n hc
    | v6 ip =>
      have hdigit : ∀ n < 16, hexDigit n ≠ '+' := by decide
      rw [reverseName_v6, List.forall_mem_append]
      refine ⟨forall_mem_intercalate (by decide) ?_, by decide⟩
      intro part hpart c hc
      obtain ⟨n, hn, rfl⟩ := List.mem_map.mp hpart
      rw [List.mem_singleton.mp hc]
      exact hdigit n (lowDigits_lt (by decide) _ _ n hn)
  exact fun hplus => hall '+' hplus rfl

theorem addressOfLower_reverseName (address : IpAddr) : addressOfLower (reverseName address) = some address := by
  cases address with
  | v4 ip =>
    have hstrip : stripSuffix inAddrArpa (reverseName (.v4 ip)) =
        some ((['.'] : Text).intercalate ((lowDigits 256 4 ip.toNat).map ofNat)) :=
      stripSuffix_eq_some.mpr (reverseName_v4 ip)
    simp only [addressOfLower, hstrip]
    apply ipv4Of_eq_some.mpr
    refine ⟨ip, _, rfl, rfl, ?_⟩
    rw [List.forall₂_map_left_iff, List.forall₂_same]
    intro n hn
    obtain ⟨i, -, rfl⟩ := List.mem_map.mp hn
    exact readOctetLabel_eq_some.mpr ⟨Nat.mod_lt _ (by decide), .inl rfl⟩
  | v6 ip =>
    have hnone : stripSuffix inAddrArpa (reverseName (.v6 ip)) = none :=
      stripSuffix_none fun lead => inAddrArpa_ne_ip6Arpa _ lead
    have hstrip := stripSuffix_eq_some.mpr (reverseName_v6 ip)
    simp only [addressOfLower, hnone, hstrip, Option.bind_some]
    refine (ipv6Of_eq_some ?_).mpr ⟨ip, rfl, rfl⟩
    have hdigit : ∀ n < 16, (hexDigit n).toLower = hexDigit n := by decide
    have hall : ∀ c ∈ (['.'] : Text).intercalate ((lowDigits 16 32 ip.toNat).map fun n => [hexDigit n]), c.toLower = c := by
      apply @forall_mem_intercalate (fun c => c.toLower = c) ['.'] _ (by decide)
      intro part hpart c hc
      obtain ⟨n, hn, rfl⟩ := List.mem_map.mp hpart
      rw [List.mem_singleton.mp hc]
      exact hdigit n (lowDigits_lt (by decide) _ _ n hn)
    exact (List.map_congr_left hall).trans (List.map_id _)

theorem decimals_of_read {labels : List Text} {numbers : List Nat}
    (h : List.Forall₂ (fun label n => readOctetLabel label = some n) labels numbers)
    (hplus : ∀ label ∈ labels, '+' ∉ label) : labels = numbers.map ofNat := by
  induction h with
  | nil => rfl
  | cons hlabel _ ih =>
    rw [List.forall_mem_cons] at hplus
    obtain ⟨-, rfl | ⟨number, hnumber, -⟩⟩ := readOctetLabel_eq_some.mp hlabel
    · rw [ih hplus.2, List.map_cons]
    · exact absurd (hnumber.signed ▸ List.mem_cons_self) hplus.1

theorem reverseName_of_read {name : Text} (hlower : toAsciiLowercase name = name) {address : IpAddr}
    (h : addressOfLower name = some address) : name = reverseName address ∨ SignedName name := by
  unfold addressOfLower at h
  split at h
  next rest hstrip =>
    have hname := stripSuffix_eq_some.mp hstrip
    obtain ⟨ip, labels, rfl, hrest, hread⟩ := ipv4Of_eq_some.mp h
    have hlabel := (Fallible.exists_of_forall₂ hread).1
    rw [hrest] at hname
    by_cases hplus : '+' ∈ name
    · refine .inr ⟨hplus, labels, hname, hread.length_eq, ?_⟩
      intro label hmem
      obtain ⟨n, -, hn⟩ := hlabel label hmem
      obtain ⟨hsmall, hn | ⟨number, hnumber, -⟩⟩ := readOctetLabel_eq_some.mp hn
      · exact .inl ⟨n, hsmall, hn⟩
      · exact .inr ⟨number, hnumber⟩
    · left
      have hlabels := decimals_of_read hread fun label hmem hlabelPlus =>
        hplus (hname ▸ List.mem_append_left _ (mem_intercalate hmem hlabelPlus))
      rw [hname, hlabels, reverseName_v4]
  next hnone =>
    obtain ⟨rest, hstrip, hread⟩ := Option.bind_eq_some_iff.mp h
    have hname := stripSuffix_eq_some.mp hstrip
    have hrest : toAsciiLowercase rest = rest := by
      rw [hname, toAsciiLowercase_append] at hlower
      exact (List.append_inj hlower (List.length_map _)).1
    obtain ⟨ip, rfl, hlabels⟩ := (ipv6Of_eq_some hrest).mp hread
    left
    rw [hname, hlabels, reverseName_v6]

theorem read_of_signed {name : Text} (h : SignedName name) : ∃ address, addressOfLower name = some address := by
  obtain ⟨-, labels, hname, hlength, hlabels⟩ := h
  have hread : ∀ label ∈ labels, ∃ n, readOctetLabel label = some n := by
    intro label hlabel
    rcases hlabels label hlabel with ⟨n, hsmall, rfl⟩ | ⟨number, hnumber⟩
    · exact ⟨n, readOctetLabel_eq_some.mpr ⟨hsmall, .inl rfl⟩⟩
    · exact ⟨readDigits number, readOctetLabel_eq_some.mpr ⟨hnumber.small, .inr ⟨number, hnumber, rfl⟩⟩⟩
  obtain ⟨numbers, hnumbers⟩ := Fallible.forall₂_of_exists hread
  have hsmall : ∀ n ∈ numbers, n < 256 := by
    intro n hn
    obtain ⟨label, -, hlabel⟩ := (Fallible.exists_of_forall₂ hnumbers).2 n hn
    exact (readOctetLabel_eq_some.mp hlabel).1
  have hfour : numbers.length = 4 := hnumbers.length_eq.symm.trans hlength
  have hdigits := lowDigits_toNat (by decide) hsmall (show 256 ^ numbers.length = 2 ^ 32 by rw [hfour]; decide)
  rw [hfour] at hdigits
  refine ⟨.v4 (BitVec.ofNat 32 (Nat.ofDigits 256 numbers)), ?_⟩
  simp only [addressOfLower, stripSuffix_eq_some.mpr hname]
  exact ipv4Of_eq_some.mpr ⟨_, labels, rfl, rfl, by rw [hdigits]; exact hnumbers⟩

/-- Reverse names are read back in every spelling, and what is read is one unless a byte has a
sign. -/
theorem address_of_inverse_iff (name : Text) :
    (∀ address, toAsciiLowercase (trimEndMatches '.' name) = reverseName address → addressOf name = some address) ∧
      ((∀ address, addressOf name = some address → toAsciiLowercase (trimEndMatches '.' name) = reverseName address) ↔
        ¬SignedName (toAsciiLowercase (trimEndMatches '.' name))) := by
  constructor
  · intro address h
    rw [addressOf, h]
    exact addressOfLower_reverseName address
  · constructor
    · intro h hsigned
      obtain ⟨address, hread⟩ := read_of_signed hsigned
      have hplus := hsigned.1
      rw [h address hread] at hplus
      exact no_plus_reverseName address hplus
    · intro hplain address hread
      exact (reverseName_of_read (toAsciiLowercase_idem _) hread).resolve_right hplain

/-- A byte with a sign is taken for the byte. -/
theorem address_of_inverse_fails :
    addressOf "+1.0.0.10.in-addr.arpa" = some (.v4 0x0a000001) ∧
      "+1.0.0.10.in-addr.arpa".toList ≠ reverseName (.v4 0x0a000001) := by
  refine ⟨by decide, by decide⟩

theorem address_of_inverse_upper_case : addressOf "1.0.0.10.IN-ADDR.ARPA." = some (.v4 0x0a000001) :=
  (address_of_inverse_iff "1.0.0.10.IN-ADDR.ARPA.").1 (.v4 0x0a000001) (by decide)

end DaygleDns.Authoritative
