import DaygleDns.Addresses
import DaygleDns.TextFacts

/-! Addresses as text: what characters they are made of, and that their case does not matter. -/
namespace DaygleDns.Text

/-! Separators. -/

/-- A character that no letter becomes in lower case. -/
theorem toLower_eq_of_low {c d : Char} (hd : d.toNat < 65) : c.toLower = d ↔ c = d := by
  rcases toLower_cases c with h | ⟨hlow, hhigh, hlower⟩
  · rw [h]
  · constructor
    · intro hc
      rw [hc] at hlower
      omega
    · intro hc
      rw [hc] at hlow
      omega

theorem splitOn_lower {d : Char} (hd : d.toNat < 65) (s : Text) :
    (toAsciiLowercase s).splitOn d = (s.splitOn d).map toAsciiLowercase := by
  rw [List.splitOn_eq_splitOnP, List.splitOn_eq_splitOnP]
  induction s with
  | nil => rfl
  | cons c s ih =>
    rw [show toAsciiLowercase (c :: s) = c.toLower :: toAsciiLowercase s from rfl,
      List.splitOnP_cons_eq_if_modifyHead, List.splitOnP_cons_eq_if_modifyHead, ih]
    have hsame : (c.toLower == d) = (c == d) := by
      rw [Bool.eq_iff_iff, beq_iff_eq, beq_iff_eq]
      exact toLower_eq_of_low hd
    rw [hsame]
    cases c == d with
    | true => rfl
    | false =>
      simp only [Bool.false_eq_true, if_false]
      cases s.splitOnP (· == d) <;> rfl

/-- A text of two parts around a pattern without letters. -/
theorem splitOnce_lower {pattern : Text} (hpattern : ∀ d ∈ pattern, d.toNat < 65) (s : Text) :
    splitOnce pattern (toAsciiLowercase s) =
      (splitOnce pattern s).map fun parts => (toAsciiLowercase parts.1, toAsciiLowercase parts.2) := by
  have hlead : ∀ (p s : Text), (∀ d ∈ p, d.toNat < 65) → p.isPrefixOf (toAsciiLowercase s) = p.isPrefixOf s := by
    intro p
    induction p with
    | nil => intros; rfl
    | cons d p ih =>
      intro s hp
      cases s with
      | nil => rfl
      | cons c s =>
        have hsame : (d == c.toLower) = (d == c) := by
          rw [Bool.eq_iff_iff, beq_iff_eq, beq_iff_eq, eq_comm, toLower_eq_of_low (hp d List.mem_cons_self), eq_comm]
        rw [show toAsciiLowercase (c :: s) = c.toLower :: toAsciiLowercase s from rfl, List.isPrefixOf_cons_cons,
          List.isPrefixOf_cons_cons, hsame, ih s fun d hd => hp d (List.mem_cons_of_mem _ hd)]
  induction s with
  | nil =>
    unfold toAsciiLowercase splitOnce
    cases pattern.isEmpty <;> rfl
  | cons c s ih =>
    have hcons := hlead pattern (c :: s) hpattern
    rw [show toAsciiLowercase (c :: s) = c.toLower :: toAsciiLowercase s from rfl] at hcons ⊢
    rw [splitOnce, splitOnce, hcons, ih]
    cases pattern.isPrefixOf (c :: s) with
    | true => simp [toAsciiLowercase]
    | false =>
      simp only [Bool.false_eq_true, if_false]
      cases splitOnce pattern s <;> rfl

/-! Digits. -/

theorem isDigit_toLower (c : Char) : c.toLower.isDigit = c.isDigit := by
  rcases toLower_cases c with h | ⟨hlow, hhigh, hlower⟩
  · rw [h]
  · rw [Bool.eq_iff_iff]
    constructor
    · intro hdigit
      have := isDigit_bounds hdigit
      omega
    · intro hdigit
      have := isDigit_bounds hdigit
      omega

theorem toLower_of_isDigit {c : Char} (h : c.isDigit = true) : c.toLower = c := by
  rcases toLower_cases c with hsame | ⟨hlow, hhigh, hlower⟩
  · exact hsame
  · have := isDigit_bounds h
    omega

theorem all_isDigit_lower (s : Text) : (toAsciiLowercase s).all Char.isDigit = s.all Char.isDigit := by
  rw [toAsciiLowercase, List.all_map]
  exact congrArg s.all (funext isDigit_toLower)

/-- Digits have no case. -/
theorem lower_of_digits {s : Text} (h : s.all Char.isDigit = true) : toAsciiLowercase s = s := by
  rw [toAsciiLowercase]
  conv_rhs => rw [← List.map_id s]
  apply List.map_congr_left
  exact fun c hc => toLower_of_isDigit (List.all_eq_true.mp h c hc)

theorem char_le_iff {a b : Char} : a ≤ b ↔ a.toNat ≤ b.toNat := UInt32.le_iff_toNat_le

theorem isDigit_iff (c : Char) : c.isDigit = true ↔ 48 ≤ c.toNat ∧ c.toNat ≤ 57 := by
  simp only [Char.isDigit, ge_iff_le, Bool.and_eq_true, decide_eq_true_eq, UInt32.le_iff_toNat_le]
  rfl

theorem isHexDigit_iff (c : Char) :
    isHexDigit c = true ↔ (48 ≤ c.toNat ∧ c.toNat ≤ 57) ∨ (97 ≤ c.toNat ∧ c.toNat ≤ 102) ∨
      (65 ≤ c.toNat ∧ c.toNat ≤ 70) := by
  unfold isHexDigit
  rw [Bool.or_eq_true, Bool.or_eq_true, isDigit_iff, Bool.and_eq_true, Bool.and_eq_true]
  simp only [decide_eq_true_eq, char_le_iff, or_assoc]
  rfl

theorem isHexDigit_toLower (c : Char) : isHexDigit c.toLower = isHexDigit c := by
  rw [Bool.eq_iff_iff, isHexDigit_iff, isHexDigit_iff]
  rcases toLower_cases c with h | ⟨hlow, hhigh, hlower⟩
  · rw [h]
  · omega

theorem hexDigitValue_toLower {c : Char} (h : isHexDigit c = true) : hexDigitValue c.toLower = hexDigitValue c := by
  rcases toLower_cases c with hsame | ⟨hlow, hhigh, hlower⟩
  · rw [hsame]
  · have hbounds := (isHexDigit_iff c).mp h
    have hdigit : ¬ c.isDigit = true := by
      rw [isDigit_iff]
      omega
    have hdigit' : ¬ c.toLower.isDigit = true := by
      rw [isDigit_toLower]
      exact hdigit
    have hsmall : ¬ 'a' ≤ c := by
      rw [char_le_iff, show 'a'.toNat = 97 from rfl]
      omega
    have hsmall' : 'a' ≤ c.toLower := by
      rw [char_le_iff, show 'a'.toNat = 97 from rfl]
      omega
    unfold hexDigitValue
    rw [if_neg hdigit, if_neg hdigit', if_neg hsmall, if_pos hsmall', hlower, show 'a'.toNat = 97 from rfl,
      show 'A'.toNat = 65 from rfl]
    omega

/-! The parsers. -/

theorem parseOctet_lower (s : Text) : parseOctet (toAsciiLowercase s) = parseOctet s := by
  cases h : s.all Char.isDigit with
  | true => rw [lower_of_digits h]
  | false =>
    unfold parseOctet
    rw [all_isDigit_lower, h]
    simp

theorem parseGroup_lower (s : Text) : parseGroup (toAsciiLowercase s) = parseGroup s := by
  have hall : (toAsciiLowercase s).all isHexDigit = s.all isHexDigit := by
    rw [toAsciiLowercase, List.all_map]
    exact congrArg s.all (funext isHexDigit_toLower)
  have hlength : (toAsciiLowercase s).length = s.length := List.length_map Char.toLower
  unfold parseGroup
  rw [hall, hlength]
  cases h : s.all isHexDigit with
  | false => simp
  | true =>
    have hvalue : readHex (toAsciiLowercase s) = readHex s := by
      unfold readHex toAsciiLowercase
      rw [List.foldl_map]
      apply List.foldl_ext
      intro n c hc
      rw [hexDigitValue_toLower (List.all_eq_true.mp h c hc)]
    rw [hvalue]

theorem mapM_lower {α : Type} {parse : Text → Option α} (h : ∀ s, parse (toAsciiLowercase s) = parse s)
    (parts : List Text) : (parts.map toAsciiLowercase).mapM parse = parts.mapM parse := by
  rw [List.mapM_map]
  exact congrArg (fun f => parts.mapM f) (funext h)

theorem parseIpv4_lower (s : Text) : parseIpv4 (toAsciiLowercase s) = parseIpv4 s := by
  unfold parseIpv4
  rw [splitOn_lower (by decide), mapM_lower parseOctet_lower]

theorem parseGroups_cons (ends : Bool) (group : Text) {rest : List Text} (h : rest ≠ []) :
    parseGroups ends (group :: rest) =
      (parseGroup group).bind fun n => (parseGroups ends rest).bind fun ns => some (n :: ns) := by
  cases rest with
  | nil => exact absurd rfl h
  | cons next rest => rfl

theorem parseGroups_lower (ends : Bool) (parts : List Text) :
    parseGroups ends (parts.map toAsciiLowercase) = parseGroups ends parts := by
  induction parts with
  | nil => rfl
  | cons part rest ih =>
    cases rest with
    | nil =>
      simp only [List.map_cons, List.map_nil, parseGroups, parseGroup_lower, parseIpv4_lower]
    | cons next rest =>
      have hmap : (next :: rest).map toAsciiLowercase ≠ [] := by simp
      rw [List.map_cons, parseGroups_cons ends _ hmap, parseGroup_lower, ih, parseGroups_cons ends part (List.cons_ne_nil next rest)]

theorem groupsOf_lower (ends : Bool) (part : Text) : groupsOf ends (toAsciiLowercase part) = groupsOf ends part := by
  unfold groupsOf
  rw [splitOn_lower (by decide), parseGroups_lower, toAsciiLowercase, List.isEmpty_map]

theorem parseIpv6_lower (s : Text) : parseIpv6 (toAsciiLowercase s) = parseIpv6 s := by
  unfold parseIpv6
  rw [splitOnce_lower (by decide)]
  cases splitOnce [':', ':'] s with
  | none => simp only [Option.map_none, groupsOf_lower]
  | some parts => simp only [Option.map_some, groupsOf_lower]

/-! The characters. -/

theorem mem_splitOn {s : Text} {c d : Char} (hc : c ∈ s) (hne : c ≠ d) : ∃ part ∈ s.splitOn d, c ∈ part := by
  rw [List.splitOn_eq_splitOnP]
  induction s with
  | nil => cases hc
  | cons a s ih =>
    rw [List.splitOnP_cons_eq_if_modifyHead]
    cases hsep : a == d with
    | true =>
      simp only [if_true]
      have hmem : c ∈ s := by
        apply (List.mem_cons.mp hc).resolve_left
        intro hca
        exact hne (hca.trans (beq_iff_eq.mp hsep))
      obtain ⟨part, hpart, hin⟩ := ih hmem
      exact ⟨part, List.mem_cons_of_mem _ hpart, hin⟩
    | false =>
      simp only [Bool.false_eq_true, if_false]
      cases hparts : s.splitOnP (· == d) with
      | nil => exact absurd hparts (List.splitOnP_ne_nil _ _)
      | cons first rest =>
        rw [hparts] at ih
        rw [List.modifyHead_cons]
        cases List.mem_cons.mp hc with
        | inl hca => exact ⟨a :: first, List.mem_cons_self, hca ▸ List.mem_cons_self⟩
        | inr hmem =>
          obtain ⟨part, hpart, hin⟩ := ih hmem
          cases List.mem_cons.mp hpart with
          | inl hfirst => exact ⟨a :: first, List.mem_cons_self, List.mem_cons_of_mem _ (hfirst ▸ hin)⟩
          | inr hrest => exact ⟨part, List.mem_cons_of_mem _ hrest, hin⟩

theorem splitOnce_eq_some {pattern s head tail : Text} (h : splitOnce pattern s = some (head, tail)) :
    s = head ++ (pattern ++ tail) := by
  induction s generalizing head with
  | nil =>
    unfold splitOnce at h
    split at h
    next hempty =>
      cases h
      rw [List.isEmpty_iff.mp hempty]
      rfl
    next => cases h
  | cons c s ih =>
    unfold splitOnce at h
    split at h
    next hlead =>
      cases h
      obtain ⟨rest, hrest⟩ := List.isPrefixOf_iff_prefix.mp hlead
      rw [← hrest, List.drop_left, List.nil_append]
    next =>
      obtain ⟨parts, hparts, heq⟩ := Option.map_eq_some_iff.mp h
      cases heq
      rw [ih hparts]
      rfl

theorem splitOnce_char {c : Char} {head : Text} (h : c ∉ head) (tail : Text) :
    splitOnce [c] (head ++ c :: tail) = some (head, tail) := by
  induction head with
  | nil => simp [splitOnce, List.isPrefixOf]
  | cons d rest ih =>
    rw [List.mem_cons, not_or] at h
    rw [List.cons_append, splitOnce, ih h.2]
    simp [List.isPrefixOf, h.1]

theorem splitOnce_of_not_mem {c : Char} {s : Text} (h : c ∉ s) : splitOnce [c] s = none := by
  induction s with
  | nil => rfl
  | cons d rest ih =>
    rw [List.mem_cons, not_or] at h
    rw [splitOnce, ih h.2]
    simp [List.isPrefixOf, h.1]

theorem splitOnce_cases (c : Char) (s : Text) :
    c ∉ s ∧ splitOnce [c] s = none ∨
      ∃ head tail, s = head ++ c :: tail ∧ c ∉ head ∧ splitOnce [c] s = some (head, tail) := by
  by_cases h : c ∈ s
  · obtain ⟨head, tail, rfl, hhead⟩ := List.eq_append_cons_of_mem h
    exact .inr ⟨head, tail, rfl, hhead, splitOnce_char hhead tail⟩
  · exact .inl ⟨h, splitOnce_of_not_mem h⟩

theorem mapM_isSome {α : Type} {parse : Text → Option α} {parts : List Text} (h : (parts.mapM parse).isSome = true) :
    ∀ part ∈ parts, (parse part).isSome = true := by
  induction parts with
  | nil => intro part hpart; cases hpart
  | cons first rest ih =>
    rw [List.mapM_cons] at h
    cases hfirst : parse first with
    | none =>
      rw [hfirst] at h
      cases h
    | some a =>
      cases hrest : rest.mapM parse with
      | none =>
        rw [hfirst, hrest] at h
        cases h
      | some as =>
        intro part hpart
        cases List.mem_cons.mp hpart with
        | inl heq => rw [heq, hfirst]; rfl
        | inr hmem => exact ih (by rw [hrest]; rfl) part hmem

/-- What an address without a network length is written with. -/
def isAddressChar (c : Char) : Bool := isHexDigit c || c == '.' || c == ':'

theorem isHexDigit_of_isDigit {c : Char} (h : c.isDigit = true) : isHexDigit c = true := by
  unfold isHexDigit
  rw [h]
  rfl

theorem isAddressChar_of_isHexDigit {c : Char} (h : isHexDigit c = true) : isAddressChar c = true := by
  unfold isAddressChar
  rw [h]
  rfl

theorem isDigit_or_dot_of_parseIpv4 {s : Text} (h : (parseIpv4 s).isSome = true) : ∀ c ∈ s, c.isDigit = true ∨ c = '.' := by
  intro c hc
  by_cases hdot : c = '.'
  · exact .inr hdot
  · obtain ⟨part, hpart, hin⟩ := mem_splitOn hc hdot
    have hparts : ((s.splitOn '.').mapM parseOctet).isSome = true := by
      unfold parseIpv4 at h
      split at h
      next hoctets => rw [hoctets]; rfl
      next => cases h
    have hoctet := mapM_isSome hparts part hpart
    unfold parseOctet at hoctet
    split at hoctet
    next hdigits =>
      simp only [Bool.and_eq_true] at hdigits
      exact .inl (List.all_eq_true.mp hdigits.1.1.2 c hin)
    next => cases hoctet

theorem chars_of_parseIpv4 {s : Text} (h : (parseIpv4 s).isSome = true) : ∀ c ∈ s, isAddressChar c = true := by
  intro c hc
  cases isDigit_or_dot_of_parseIpv4 h c hc with
  | inl hdigit => exact isAddressChar_of_isHexDigit (isHexDigit_of_isDigit hdigit)
  | inr hdot =>
    rw [hdot]
    rfl

theorem no_colon_of_parseIpv4 {s : Text} (h : (parseIpv4 s).isSome = true) : ':' ∉ s := by
  intro hc
  cases isDigit_or_dot_of_parseIpv4 h ':' hc with
  | inl hdigit => exact absurd hdigit (by decide)
  | inr hdot => exact absurd hdot (by decide)

theorem chars_of_parseGroup {s : Text} (h : (parseGroup s).isSome = true) : ∀ c ∈ s, isAddressChar c = true := by
  intro c hc
  unfold parseGroup at h
  split at h
  next hdigits =>
    rw [Bool.and_eq_true] at hdigits
    exact isAddressChar_of_isHexDigit (List.all_eq_true.mp hdigits.2 c hc)
  next => cases h

theorem chars_of_parseGroups {ends : Bool} {parts : List Text} (h : (parseGroups ends parts).isSome = true) :
    ∀ part ∈ parts, ∀ c ∈ part, isAddressChar c = true := by
  induction parts with
  | nil => intro part hpart; cases hpart
  | cons first rest ih =>
    by_cases hrest : rest = []
    · subst hrest
      intro part hpart
      rw [List.mem_singleton.mp hpart]
      cases hgroup : parseGroup first with
      | some n => exact chars_of_parseGroup (by rw [hgroup]; rfl)
      | none =>
        cases ends with
        | false => simp [parseGroups, hgroup] at h
        | true =>
          cases hv4 : parseIpv4 first with
          | none => simp [parseGroups, hgroup, hv4] at h
          | some v4 => exact chars_of_parseIpv4 (by rw [hv4]; rfl)
    · rw [parseGroups_cons ends first hrest] at h
      cases hgroup : parseGroup first with
      | none =>
        rw [hgroup] at h
        cases h
      | some n =>
        cases hgroups : parseGroups ends rest with
        | none =>
          rw [hgroup, hgroups] at h
          cases h
        | some ns =>
          intro part hpart
          cases List.mem_cons.mp hpart with
          | inl heq => rw [heq]; exact chars_of_parseGroup (by rw [hgroup]; rfl)
          | inr hmem => exact ih (by rw [hgroups]; rfl) part hmem

theorem chars_of_groupsOf {ends : Bool} {part : Text} (h : (groupsOf ends part).isSome = true) :
    ∀ c ∈ part, isAddressChar c = true := by
  intro c hc
  unfold groupsOf at h
  split at h
  next hempty =>
    rw [List.isEmpty_iff.mp hempty] at hc
    cases hc
  next =>
    by_cases hcolon : c = ':'
    · rw [hcolon]
      rfl
    · obtain ⟨piece, hpiece, hin⟩ := mem_splitOn hc hcolon
      exact chars_of_parseGroups h piece hpiece c hin

theorem chars_of_parseIpv6 {s : Text} (h : (parseIpv6 s).isSome = true) : ∀ c ∈ s, isAddressChar c = true := by
  unfold parseIpv6 at h
  cases hsplit : splitOnce [':', ':'] s with
  | none =>
    rw [hsplit] at h
    dsimp only at h
    cases hgroups : groupsOf true s with
    | none =>
      rw [hgroups] at h
      cases h
    | some groups => exact chars_of_groupsOf (by rw [hgroups]; rfl)
  | some parts =>
    rw [hsplit] at h
    dsimp only at h
    cases hhead : groupsOf false parts.1 with
    | none =>
      rw [hhead] at h
      cases h
    | some head =>
      cases htail : groupsOf true parts.2 with
      | none =>
        rw [hhead, htail] at h
        cases h
      | some tail =>
        intro c hc
        rw [splitOnce_eq_some hsplit] at hc
        rcases List.mem_append.mp hc with hc | hc
        · exact chars_of_groupsOf (by rw [hhead]; rfl) c hc
        · rcases List.mem_append.mp hc with hc | hc
          · have hcolon : c = ':' := by simpa using hc
            rw [hcolon]
            rfl
          · exact chars_of_groupsOf (by rw [htail]; rfl) c hc

theorem length_splitOn (s : Text) (d : Char) : (s.splitOn d).length = s.count d + 1 := by
  rw [List.splitOn_eq_splitOnP]
  induction s with
  | nil => rfl
  | cons c rest ih =>
    rw [List.splitOnP_cons_eq_if_modifyHead, List.count_cons]
    split
    · rw [List.length_cons, ih]
    · rw [List.length_modifyHead, ih]

theorem length_le_of_parseGroups {ends : Bool} {parts : List Text} {groups : List Nat}
    (h : parseGroups ends parts = some groups) : groups.length ≤ parts.length + 1 := by
  induction parts generalizing groups with
  | nil =>
    cases h
    exact Nat.zero_le _
  | cons first rest ih =>
    by_cases hrest : rest = []
    · subst hrest
      rw [parseGroups] at h
      split at h
      next =>
        cases h
        simp
      next =>
        cases h
        simp
      next => cases h
    · rw [parseGroups_cons ends first hrest] at h
      cases hgroup : parseGroup first with
      | none =>
        rw [hgroup] at h
        cases h
      | some n =>
        cases hgroups : parseGroups ends rest with
        | none =>
          rw [hgroup, hgroups] at h
          cases h
        | some ns =>
          rw [hgroup, hgroups] at h
          cases h
          exact Nat.succ_le_succ (ih hgroups)

/-- An address without `::` has a colon between any two groups. -/
theorem two_colons_of_parseIpv6 {s : Text} (h : (parseIpv6 s).isSome = true) : 2 ≤ s.count ':' := by
  cases hsplit : splitOnce [':', ':'] s with
  | some parts =>
    rw [splitOnce_eq_some hsplit, List.count_append, List.count_append]
    have hpair : ([':', ':'] : Text).count ':' = 2 := by decide
    omega
  | none =>
    unfold parseIpv6 at h
    rw [hsplit] at h
    dsimp only at h
    cases hgroups : groupsOf true s with
    | none =>
      rw [hgroups] at h
      cases h
    | some groups =>
      have height : groups.length = 8 := by
        by_contra hother
        simp [hgroups, hother] at h
      unfold groupsOf at hgroups
      split at hgroups
      next =>
        cases hgroups
        cases height
      next =>
        have hle := length_le_of_parseGroups hgroups
        rw [length_splitOn] at hle
        omega

end DaygleDns.Text
