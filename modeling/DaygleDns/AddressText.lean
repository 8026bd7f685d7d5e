import DaygleDns.AddressFacts

/-! The spellings of addresses, which are read back. -/
namespace DaygleDns

/-- The four bytes of an IPv4 address. -/
def Ipv4Addr.octets (ip : Ipv4Addr) : List Nat := [3, 2, 1, 0].map fun i => ip.toNat / 256 ^ i % 256

namespace Text

/-- `str::parse::<u8>`: an optional plus sign, then digits, in range. -/
def readU8 (s : Text) : Option Nat :=
  let digits := (stripPrefix ['+'] s).getD s
  if !digits.isEmpty && digits.all Char.isDigit && readDigits digits < 256 then some (readDigits digits) else none

/-- `str::parse::<IpAddr>`. -/
def readIpAddr (s : Text) : Option IpAddr :=
  match parseIpv4 s with
  | some ip => some (.v4 ip)
  | none => (parseIpv6 s).map .v6

def hexText (n : Nat) : Text := Nat.toDigits 16 n

/-! Numbers. -/

theorem readU8_ofNat {n : Nat} (h : n < 256) : readU8 (ofNat n) = some n := by
  have hplus : stripPrefix ['+'] (ofNat n) = none := by
    unfold stripPrefix
    rw [if_neg]
    intro hlead
    obtain ⟨rest, hrest⟩ := List.isPrefixOf_iff_prefix.mp hlead
    have hdigit : Char.isDigit '+' = true := by
      apply @isDigit_ofNat n
      rw [← hrest]
      exact List.mem_cons_self
    exact absurd hdigit (by decide)
  have hall : (ofNat n).all Char.isDigit = true := List.all_eq_true.mpr fun _ => isDigit_ofNat
  unfold readU8
  simp [hplus, hall, ofNat_ne_nil, readDigits_ofNat, h]

set_option maxRecDepth 20000 in
theorem parseOctet_ofNat : ∀ n < 256, parseOctet (ofNat n) = some n := by decide

theorem hexDigit_digitChar : ∀ n < 16, isHexDigit n.digitChar = true ∧ hexDigitValue n.digitChar = n := by decide

theorem isHexDigit_hexText {n : Nat} {c : Char} (h : c ∈ hexText n) : isHexDigit c = true := by
  induction n using Nat.strong_induction_on with
  | _ n ih =>
    rw [hexText, Nat.toDigits_eq_if (by decide)] at h
    split at h
    next hlt =>
      rw [List.mem_singleton] at h
      exact h ▸ (hexDigit_digitChar n hlt).1
    next hle =>
      rw [List.mem_append, List.mem_singleton] at h
      cases h with
      | inl hmem => exact ih (n / 16) (by omega) hmem
      | inr hlast => exact hlast ▸ (hexDigit_digitChar (n % 16) (by omega)).1

theorem readHex_hexText (n : Nat) : readHex (hexText n) = n := by
  induction n using Nat.strong_induction_on with
  | _ n ih =>
    rw [hexText, Nat.toDigits_eq_if (by decide)]
    split
    next hlt => simp [readHex, (hexDigit_digitChar n hlt).2]
    next hle =>
      have hrest := ih (n / 16) (by omega)
      rw [hexText, readHex] at hrest
      rw [readHex, List.foldl_append, hrest]
      simp only [List.foldl_cons, List.foldl_nil, (hexDigit_digitChar (n % 16) (by omega)).2]
      omega

theorem hexText_ne_nil (n : Nat) : hexText n ≠ [] := Nat.toDigits_ne_nil

theorem parseGroup_hexText {n : Nat} (h : n < 65536) : parseGroup (hexText n) = some n := by
  have hlength : (hexText n).length ≤ 4 := (Nat.length_toDigits_le_iff (by decide) (by decide)).mpr h
  have hpos : 1 ≤ (hexText n).length := List.length_pos_of_ne_nil (hexText_ne_nil n)
  have hall : (hexText n).all isHexDigit = true := List.all_eq_true.mpr fun _ => isHexDigit_hexText
  simp [parseGroup, hlength, hpos, hall, readHex_hexText]

theorem not_mem_ofNat {c : Char} (hc : c.isDigit = false) (n : Nat) : c ∉ ofNat n := by
  intro h
  rw [isDigit_ofNat h] at hc
  cases hc

theorem not_mem_hexText {c : Char} (hc : isHexDigit c = false) (n : Nat) : c ∉ hexText n := by
  intro h
  rw [isHexDigit_hexText h] at hc
  cases hc

/-! IPv4. -/

theorem octets_lt (ip : Ipv4Addr) : ∀ octet ∈ ip.octets, octet < 256 := by
  intro octet hoctet
  obtain ⟨i, -, rfl⟩ := List.mem_map.mp hoctet
  exact Nat.mod_lt _ (by decide)

theorem splitOn_octets (separator : Char) (hseparator : separator.isDigit = false) {numbers : List Nat}
    (hne : numbers ≠ []) : ([separator].intercalate (numbers.map ofNat)).splitOn separator = numbers.map ofNat := by
  apply List.splitOn_intercalate
  · intro part hpart
    obtain ⟨n, -, rfl⟩ := List.mem_map.mp hpart
    exact not_mem_ofNat hseparator n
  · simpa using hne

theorem mapM_parseOctet {numbers : List Nat} (h : ∀ n ∈ numbers, n < 256) :
    (numbers.map ofNat).mapM parseOctet = some numbers := by
  induction numbers with
  | nil => rfl
  | cons n rest ih =>
    rw [List.forall_mem_cons] at h
    simp [List.mapM_cons, parseOctet_ofNat n h.1, ih h.2]

theorem parseIpv4_dotted (ip : Ipv4Addr) : parseIpv4 ((['.'] : Text).intercalate (ip.octets.map ofNat)) = some ip := by
  have hsplit := splitOn_octets '.' (by decide) (show ip.octets ≠ [] by simp [Ipv4Addr.octets])
  unfold parseIpv4
  rw [hsplit, mapM_parseOctet (octets_lt ip)]
  simp only [Ipv4Addr.octets, List.map_cons, List.map_nil, Option.some.injEq]
  apply BitVec.eq_of_toNat_eq
  have := ip.isLt
  rw [BitVec.toNat_ofNat]
  omega

theorem parseIpv4_of_no_dot {s : Text} (h : '.' ∉ s) : parseIpv4 s = none := by
  unfold parseIpv4
  rw [List.splitOn_eq_singleton h]
  cases hoctet : parseOctet s <;> simp [List.mapM_cons, hoctet]

/-! IPv6. -/

theorem segments_lt (ip : Ipv6Addr) : ∀ group ∈ ip.segments, group < 65536 := by
  intro group hgroup
  obtain ⟨i, -, rfl⟩ := List.mem_map.mp hgroup
  exact Nat.mod_lt _ (by decide)

/-- A group behind those before it. -/
theorem group_step (n i : Nat) : 65536 * (n / 65536 ^ (i + 1)) + n / 65536 ^ i % 65536 = n / 65536 ^ i := by
  rw [pow_succ, ← Nat.div_div_eq_div_mul]
  exact Nat.div_add_mod _ _

theorem ofSegments (ip : Ipv6Addr) : BitVec.ofNat 128 (ip.segments.foldl (fun n group => 65536 * n + group) 0) = ip := by
  have hlt : ip.toNat < 65536 ^ 8 := ip.isLt
  have hfold : ip.segments.foldl (fun n group => 65536 * n + group) 0 = ip.toNat / 65536 ^ 0 := by
    change 65536 * (65536 * (65536 * (65536 * (65536 * (65536 * (65536 * (65536 * 0 + _) + _) + _) + _) + _) + _) + _) + _ = _
    have htop := group_step ip.toNat 7
    rw [Nat.div_eq_of_lt hlt] at htop
    rw [htop, group_step, group_step, group_step, group_step, group_step, group_step, group_step]
  rw [hfold, pow_zero, Nat.div_one]
  rw [BitVec.ofNat_toNat, BitVec.setWidth_eq]

/-- No two colons stand together in the text, and none at its end. -/
def Spaced : Text → Prop
  | [] => True
  | [c] => c ≠ ':'
  | c :: d :: rest => ¬(c = ':' ∧ d = ':') ∧ Spaced (d :: rest)

theorem splitOnce_spaced {s : Text} (h : Spaced s) (rest : Text) :
    splitOnce [':', ':'] (s ++ ':' :: ':' :: rest) = some (s, rest) := by
  fun_induction Spaced s with
  | case1 => simp [splitOnce]
  | case2 c => simp [splitOnce, List.isPrefixOf, Ne.symm h]
  | case3 c d more ih =>
    have hlead : ([':', ':'] : Text).isPrefixOf (c :: (d :: more ++ ':' :: ':' :: rest)) = false := by
      simp only [List.cons_append, List.isPrefixOf, Bool.and_eq_false_iff, beq_eq_false_iff_ne]
      grind
    rw [List.cons_append, splitOnce, hlead, ih h.2]
    rfl

theorem splitOnce_of_spaced {s : Text} (h : Spaced s) : splitOnce [':', ':'] s = none := by
  fun_induction Spaced s with
  | case1 => rfl
  | case2 c => simp [splitOnce, List.isPrefixOf]
  | case3 c d more ih =>
    have hlead : ([':', ':'] : Text).isPrefixOf (c :: d :: more) = false := by
      simp only [List.isPrefixOf, Bool.and_eq_false_iff, beq_eq_false_iff_ne]
      grind
    rw [splitOnce, hlead, ih h.2]
    rfl

theorem spaced_append {part s : Text} (hne : part ≠ []) (hcolon : ':' ∉ part) (h : Spaced s) (hs : s ≠ [])
    (hhead : s.head? ≠ some ':') : Spaced (part ++ ':' :: s) := by
  induction part with
  | nil => exact absurd rfl hne
  | cons c rest ih =>
    rw [List.mem_cons, not_or] at hcolon
    cases rest with
    | nil =>
      obtain ⟨d, more, rfl⟩ := List.exists_cons_of_ne_nil hs
      simp only [List.head?_cons, ne_eq, Option.some.injEq] at hhead
      exact ⟨fun both => hcolon.1 both.1.symm, fun both => hhead both.2, h⟩
    | cons d more => exact ⟨fun both => hcolon.1 both.1.symm, ih (by simp) hcolon.2⟩

theorem spaced_of_no_colon {s : Text} (h : ':' ∉ s) : Spaced s := by
  fun_induction Spaced s with
  | case1 => trivial
  | case2 c => simpa [eq_comm] using h
  | case3 c d more ih =>
    rw [List.mem_cons, not_or] at h
    exact ⟨fun both => h.1 both.1.symm, ih h.2⟩

theorem colonHex_cons (group next : Nat) (rest : List Nat) :
    colonHex (group :: next :: rest) = hexText group ++ ':' :: colonHex (next :: rest) := by
  simp only [colonHex, List.map_cons, List.intercalate_cons_cons, List.append_assoc]
  rfl

theorem colonHex_singleton (group : Nat) : colonHex [group] = hexText group := by
  simp [colonHex, hexText]

theorem head_colonHex (group : Nat) (rest : List Nat) :
    ∃ c more, colonHex (group :: rest) = c :: more ∧ isHexDigit c = true := by
  obtain ⟨c, more, hc⟩ := List.exists_cons_of_ne_nil (hexText_ne_nil group)
  have hhex : isHexDigit c = true := @isHexDigit_hexText group c (by rw [hc]; exact List.mem_cons_self)
  cases rest with
  | nil => exact ⟨c, more, by rw [colonHex_singleton, hc], hhex⟩
  | cons next rest => exact ⟨c, more ++ ':' :: colonHex (next :: rest), by rw [colonHex_cons, hc]; rfl, hhex⟩

theorem spaced_colonHex (groups : List Nat) : Spaced (colonHex groups) := by
  induction groups with
  | nil => trivial
  | cons group rest ih =>
    have hcolon : ':' ∉ hexText group := not_mem_hexText (by decide) group
    cases rest with
    | nil =>
      rw [colonHex_singleton]
      exact spaced_of_no_colon hcolon
    | cons next rest =>
      obtain ⟨c, more, hc, hhex⟩ := head_colonHex next rest
      rw [colonHex_cons]
      apply spaced_append (hexText_ne_nil group) hcolon ih
      · rw [hc]
        exact List.cons_ne_nil _ _
      · rw [hc, List.head?_cons, ne_eq, Option.some.injEq]
        rintro rfl
        exact absurd hhex (by decide)

theorem parseGroups_hexText (ends : Bool) {groups : List Nat} (h : ∀ group ∈ groups, group < 65536) :
    parseGroups ends (groups.map hexText) = some groups := by
  induction groups with
  | nil => rfl
  | cons group rest ih =>
    rw [List.forall_mem_cons] at h
    cases rest with
    | nil => simp [parseGroups, parseGroup_hexText h.1]
    | cons next rest =>
      rw [List.map_cons, parseGroups_cons ends _ (by simp), parseGroup_hexText h.1, ih h.2]
      rfl

theorem groupsOf_colonHex (ends : Bool) {groups : List Nat} (h : ∀ group ∈ groups, group < 65536) :
    groupsOf ends (colonHex groups) = some groups := by
  cases groups with
  | nil => rfl
  | cons group rest =>
    obtain ⟨c, more, hc, -⟩ := head_colonHex group rest
    have hsplit : (colonHex (group :: rest)).splitOn ':' = (group :: rest).map hexText := by
      apply List.splitOn_intercalate
      · intro part hpart
        obtain ⟨n, -, rfl⟩ := List.mem_map.mp hpart
        exact not_mem_hexText (by decide) n
      · simp
    unfold groupsOf
    rw [if_neg (by simp [hc]), hsplit, parseGroups_hexText ends h]

/-- An address is read from its eight groups. -/
theorem parseIpv6_groups (ip : Ipv6Addr) : parseIpv6 (colonHex ip.segments) = some ip := by
  unfold parseIpv6
  rw [splitOnce_of_spaced (spaced_colonHex _)]
  simp only [groupsOf_colonHex true (segments_lt ip), Option.bind_eq_bind, Option.bind_some]
  rw [if_pos (by simp [Ipv6Addr.segments]), ofSegments]

/-- An address is read from its groups where two colons stand for some that are zero. -/
theorem parseIpv6_zeros {ip : Ipv6Addr} {head tail : List Nat} {zeros : Nat}
    (h : ip.segments = head ++ List.replicate (zeros + 1) 0 ++ tail) :
    parseIpv6 (colonHex head ++ ':' :: ':' :: colonHex tail) = some ip := by
  have hlt := segments_lt ip
  have hlength : head.length + (zeros + 1) + tail.length = 8 := by
    have := congrArg List.length h
    simpa [Ipv6Addr.segments, Nat.add_assoc] using this.symm
  rw [h] at hlt
  have hhead : ∀ group ∈ head, group < 65536 := fun group hgroup => hlt group (by simp [hgroup])
  have htail : ∀ group ∈ tail, group < 65536 := fun group hgroup => hlt group (by simp [hgroup])
  have hzeros : 8 - head.length - tail.length = zeros + 1 := by omega
  unfold parseIpv6
  rw [splitOnce_spaced (spaced_colonHex head)]
  simp only [groupsOf_colonHex false hhead, groupsOf_colonHex true htail, Option.bind_eq_bind, Option.bind_some]
  rw [if_pos (by omega), hzeros, ← h]
  rw [if_pos (by simp [Ipv6Addr.segments]), ofSegments]

end Text

end DaygleDns
