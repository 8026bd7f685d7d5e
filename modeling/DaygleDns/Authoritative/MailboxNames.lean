import DaygleDns.Addresses
import DaygleDns.Authoritative.Accounts
import DaygleDns.CanonicalNames
import DaygleDns.Quoting
import DaygleDns.TextFacts
import DaygleDns.Utf8
import DaygleDns.AddressFacts
import DaygleDns.Numerals
import Mathlib.Data.List.Chain

/-! Contact mailboxes, as people write them and as the name that an SOA record holds. -/
namespace DaygleDns.Authoritative

open Text Policy

/-- `local.replace('\\', "\\\\").replace('.', "\\.")` -/
def escapeLocal (user : Text) : Text := replace ['.'] ['\\', '.'] (replace ['\\'] ['\\', '\\'] user)

/-- The name before it is checked and lowered: an email address with its `@` made a dot, or a name
with the root's dot. -/
def spelledRname (input : Text) : Except Text Text :=
  match splitOnce ['@'] input with
  | some (user, domain) =>
      let domain := trimEndMatches '.' domain
      if user.isEmpty || domain.isEmpty || List.contains domain '@' || domain.head? == some '.' then
        .error (quoted input ++ " is not an email address".toList)
      else .ok (escapeLocal user ++ '.' :: domain ++ ['.'])
  | none => .ok (if input.getLast? == some '.' then input else input ++ ['.'])

def mailboxToRname (input : Text) : Except Text Text :=
  let input := trim input
  if input.isEmpty then .ok []
  else if (input.any fun c => isWhitespace c || isControl c) || 254 < utf8Len input then
    .error (quoted input ++ " is not a mailbox".toList)
  else do
    let rname ← spelledRname input
    if rname.head? == some '.' || contains ['.', '.'] rname then .error (quoted input ++ " is not a mailbox".toList)
    else .ok (toAsciiLowercase rname)

/-- The loop over the characters; `user` is what it has of the first label. -/
def emailFrom : Text → Text → Option Text
  | _, [] => none
  | _, ['\\'] => none
  | user, '\\' :: d :: rest => emailFrom (user ++ [d]) rest
  | user, c :: rest =>
      if c = '.' then
        if List.contains rest '.' && !user.isEmpty then some (user ++ '@' :: rest) else none
      else emailFrom (user ++ [c]) rest

def rnameToEmail (rname : Text) : Option Text := emailFrom [] (trimEndMatches '.' (trim rname))

/-! What name a text stands for. -/

def isCode (d e f : Char) : Bool := d.isDigit && e.isDigit && f.isDigit

/-- The labels between the dots; a backslash is before a character that stands for itself, or before
the three digits of a byte. -/
def readLabels : Text → Option WireName
  | [] => some [[]]
  | '\\' :: d :: e :: f :: rest =>
      if isCode d e f then
        if readDigits [d, e, f] < 256 then
          (readLabels rest).map (List.modifyHead ([UInt8.ofNat (readDigits [d, e, f])] ++ ·))
        else none
      else (readLabels (e :: f :: rest)).map (List.modifyHead (Utf8.encode [d] ++ ·))
  | '\\' :: d :: rest => (readLabels rest).map (List.modifyHead (Utf8.encode [d] ++ ·))
  | ['\\'] => none
  | c :: rest =>
      if c = '.' then (readLabels rest).map ([] :: ·)
      else (readLabels rest).map (List.modifyHead (Utf8.encode [c] ++ ·))

/-- The name in lower case, with or without the dot of the root. -/
def nameOf (s : Text) : Option WireName :=
  (readLabels s).map fun labels => labels.toLowercase.rdropWhile List.isEmpty

/-- Digits of a byte follow the backslash. -/
def codeAt (d : Char) : Text → Bool
  | e :: f :: _ => isCode d e f
  | _ => false

/-- The first label has a byte by its number. -/
def codesFirst : Text → Bool
  | [] => false
  | ['\\'] => false
  | '\\' :: d :: rest => codeAt d rest || codesFirst rest
  | c :: rest => if c = '.' then false else codesFirst rest

/-! Mailboxes keep their names: through the form of SOA records, and names through that of
mailboxes. -/

/-! The first label of a name, as the loop over it reads it. -/

/-- What is read of the text of a label. -/
inductive Unescapes : Text → Text → Prop
  | nil : Unescapes [] []
  | plain {c : Char} {raw user : Text} : c ≠ '\\' → c ≠ '.' → Unescapes raw user → Unescapes (c :: raw) (c :: user)
  | escaped {d : Char} {raw user : Text} : Unescapes raw user → Unescapes ('\\' :: d :: raw) (d :: user)

theorem exists_of_emailFrom {acc s email : Text} (h : emailFrom acc s = some email) :
    ∃ raw user domain, s = raw ++ '.' :: domain ∧ Unescapes raw user ∧ '.' ∈ domain ∧ acc ++ user ≠ [] ∧
      email = acc ++ user ++ '@' :: domain := by
  fun_induction emailFrom acc s with
  | case1 => cases h
  | case2 => cases h
  | case3 acc d rest ih =>
    obtain ⟨raw, user, domain, hs, hraw, hdomain, hne, hemail⟩ := ih h
    refine ⟨'\\' :: d :: raw, d :: user, domain, ?_, .escaped hraw, hdomain, ?_, ?_⟩
    · rw [hs]
      rfl
    · simp
    · simp [hemail]
  | case4 acc rest hgood _ _ =>
    rw [Bool.and_eq_true, List.contains_iff_mem] at hgood
    refine ⟨[], [], rest, rfl, .nil, hgood.1, ?_, ?_⟩
    · simpa using hgood.2
    · rw [List.append_nil]
      exact (Option.some.inj h).symm
  | case5 => cases h
  | case6 acc c rest hback hback' hdot ih =>
    obtain ⟨raw, user, domain, hs, hraw, hdomain, hne, hemail⟩ := ih h
    have hplain : c ≠ '\\' := by
      intro hc
      cases rest with
      | nil => exact hback hc rfl
      | cons d rest => exact hback' d rest hc rfl
    refine ⟨c :: raw, c :: user, domain, ?_, .plain hplain hdot hraw, hdomain, ?_, ?_⟩
    · rw [hs]
      rfl
    · simp
    · simp [hemail]

theorem emailFrom_plain {c : Char} (hback : c ≠ '\\') (hdot : c ≠ '.') (acc rest : Text) :
    emailFrom acc (c :: rest) = emailFrom (acc ++ [c]) rest := by
  rw [emailFrom, if_neg hdot]
  · exact fun h => absurd h hback
  · exact fun _ _ h => absurd h hback

theorem emailFrom_label {raw user : Text} (h : Unescapes raw user) {domain : Text} (hdomain : '.' ∈ domain) (acc : Text)
    (hne : acc ++ user ≠ []) : emailFrom acc (raw ++ '.' :: domain) = some (acc ++ user ++ '@' :: domain) := by
  induction h generalizing acc with
  | nil =>
    rw [List.append_nil] at hne ⊢
    rw [List.nil_append, emailFrom, if_pos rfl, if_pos]
    · simpa [hdomain] using hne
    · simp
    · simp
  | plain hback hdot _ ih =>
    rw [List.cons_append, emailFrom_plain hback hdot, ih]
    · simp
    · simp
  | escaped _ ih =>
    rw [List.cons_append, List.cons_append, emailFrom, ih]
    · simp
    · simp

/-- A character that is no letter is the lower case of itself only. -/
theorem toLower_eq_backslash {c : Char} : c.toLower = '\\' ↔ c = '\\' := by
  cases toLower_cases c with
  | inl h => rw [h]
  | inr h =>
    have hcode : ('\\' : Char).toNat = 92 := rfl
    constructor
    · intro hc
      rw [hc] at h
      omega
    · rintro rfl
      omega

theorem Unescapes.lower {raw user : Text} (h : Unescapes raw user) :
    Unescapes (toAsciiLowercase raw) (toAsciiLowercase user) := by
  induction h with
  | nil => exact .nil
  | plain hback hdot _ ih =>
    exact .plain (fun h => hback (toLower_eq_backslash.mp h)) (fun h => hdot (toLower_eq_dot.mp h)) ih
  | escaped _ ih => exact .escaped ih

theorem escapeLocal_eq (user : Text) :
    escapeLocal user = user.flatMap fun c => if c = '\\' ∨ c = '.' then ['\\', c] else [c] := by
  rw [escapeLocal, replace_singleton, replace_singleton, List.flatMap_assoc]
  apply congrArg (List.flatMap · user)
  funext c
  by_cases hback : c = '\\'
  · subst hback
    rfl
  · by_cases hdot : c = '.'
    · subst hdot
      rfl
    · rw [if_neg hback, List.flatMap_singleton, if_neg hdot, if_neg (not_or.mpr ⟨hback, hdot⟩)]

theorem unescapes_escapeLocal (user : Text) : Unescapes (escapeLocal user) user := by
  rw [escapeLocal_eq]
  induction user with
  | nil => exact .nil
  | cons c rest ih =>
    rw [List.flatMap_cons]
    split
    next => exact .escaped ih
    next hplain => exact .plain (fun h => hplain (.inl h)) (fun h => hplain (.inr h)) ih

/-! What is accepted. -/

/-- Characters of a mailbox, and no more than fit. -/
structure Compact (input : Text) : Prop where
  chars : ∀ c ∈ input, isWhitespace c = false ∧ isControl c = false
  fits : (Utf8.encode input).length ≤ 254

theorem Compact.solid {input : Text} (h : Compact input) : Solid input := fun c hc => (h.chars c hc).1

theorem utf8Len_eq (s : Text) : utf8Len s = (Utf8.encode s).length := by
  rw [utf8Len, Utf8.encode, List.length_flatMap]
  simp

/-- No two dots in a row. -/
def NoDots (s : Text) : Prop := s.IsChain fun c d => c ≠ '.' ∨ d ≠ '.'

theorem contains_cons (pattern : Text) (c : Char) (rest : Text) :
    contains pattern (c :: rest) = (pattern.isPrefixOf (c :: rest) || contains pattern rest) := by
  rfl

theorem contains_dots (s : Text) : contains ['.', '.'] s = false ↔ NoDots s := by
  induction s with
  | nil => exact iff_of_true rfl .nil
  | cons c rest ih =>
    rw [contains_cons, Bool.or_eq_false_iff, ih]
    unfold NoDots
    rw [List.isChain_cons]
    apply and_congr_left'
    cases rest with
    | nil => simp [List.isPrefixOf]
    | cons d rest =>
      by_cases hc : c = '.'
      · by_cases hd : d = '.'
        · simp [List.isPrefixOf, hc, hd]
        · simp [List.isPrefixOf, hd, Ne.symm hd]
      · simp [List.isPrefixOf, hc, Ne.symm hc]

theorem mailboxToRname_eq_ok {input rname : Text} (hne : trim input ≠ []) :
    mailboxToRname input = .ok rname ↔ Compact (trim input) ∧
      ∃ spelled, spelledRname (trim input) = .ok spelled ∧ (spelled.head? ≠ some '.' ∧ NoDots spelled) ∧
        toAsciiLowercase spelled = rname := by
  have hcompact : ((trim input).any (fun c => isWhitespace c || isControl c) || decide (254 < utf8Len (trim input))) = true ↔
      ¬ Compact (trim input) := by
    rw [← not_iff_not, not_not, Bool.or_eq_true, decide_eq_true_iff, not_or, Bool.not_eq_true, List.any_eq_false,
      utf8Len_eq, Nat.not_lt]
    simp only [Bool.or_eq_true, not_or, Bool.not_eq_true]
    exact ⟨fun h => ⟨h.1, h.2⟩, fun h => ⟨h.1, h.2⟩⟩
  have hdots (spelled : Text) : (spelled.head? == some '.' || contains ['.', '.'] spelled) = true ↔
      ¬ (spelled.head? ≠ some '.' ∧ NoDots spelled) := by
    rw [← contains_dots, Bool.or_eq_true, beq_iff_eq, not_and_or, not_not, Bool.not_eq_false]
  simp only [mailboxToRname, List.isEmpty_iff, if_neg hne, hcompact, hdots, Fallible.guard_eq_ok,
    Fallible.bind_eq_ok, not_not, Except.ok.injEq]

/-- The two parts of an email address. -/
structure AddressParts (user domain : Text) : Prop where
  named : user ≠ []
  hosted : domain ≠ []
  single : '@' ∉ domain
  start : domain.head? ≠ some '.'

theorem spelledRname_address {user domain spelled : Text} (h : '@' ∉ user) :
    spelledRname (user ++ '@' :: domain) = .ok spelled ↔ AddressParts user (trimEndMatches '.' domain) ∧
      escapeLocal user ++ '.' :: trimEndMatches '.' domain ++ ['.'] = spelled := by
  have hparts : (user.isEmpty || (trimEndMatches '.' domain).isEmpty || List.contains (trimEndMatches '.' domain) '@' ||
      (trimEndMatches '.' domain).head? == some '.') = true ↔ ¬ AddressParts user (trimEndMatches '.' domain) := by
    rw [← not_iff_not, not_not, Bool.not_eq_true]
    simp only [Bool.or_eq_false_iff, List.isEmpty_eq_false_iff, List.contains_eq_mem, decide_eq_false_iff_not,
      beq_eq_false_iff_ne]
    exact ⟨fun h => ⟨h.1.1.1, h.1.1.2, h.1.2, h.2⟩, fun h => ⟨⟨⟨h.1, h.2⟩, h.3⟩, h.4⟩⟩
  simp only [spelledRname, splitOnce_char h, hparts, Fallible.guard_eq_ok, not_not, Except.ok.injEq]

theorem spelledRname_name {input : Text} (h : '@' ∉ input) :
    spelledRname input = .ok (if input.getLast? == some '.' then input else input ++ ['.']) := by
  rw [spelledRname, splitOnce_of_not_mem h]

/-- No character of a label but backslashes is new. -/
theorem mem_escapeLocal {user : Text} {c : Char} (h : c ∈ escapeLocal user) : c ∈ user ∨ c = '\\' := by
  rw [escapeLocal_eq, List.mem_flatMap] at h
  obtain ⟨d, hd, hc⟩ := h
  split at hc
  next =>
    rw [List.mem_cons, List.mem_singleton] at hc
    cases hc with
    | inl hback => exact .inr hback
    | inr hsame => exact .inl (hsame ▸ hd)
  next => exact .inl (List.mem_singleton.mp hc ▸ hd)

theorem Solid.lower {s : Text} (h : Solid s) : Solid (toAsciiLowercase s) := by
  intro c hc
  obtain ⟨d, hd, rfl⟩ := List.mem_map.mp hc
  rw [isWhitespace_toLower]
  exact h d hd

theorem trimEndMatches_dot {s : Text} (h : s.getLast? ≠ some '.') : trimEndMatches '.' (s ++ ['.']) = s := by
  rw [trimEndMatches_concat, trimEndMatches_of_last h]

theorem getLast?_cons_dot {raw domain : Text} (hdot : '.' ∈ domain) (hlast : domain.getLast? ≠ some '.') :
    (raw ++ '.' :: domain).getLast? ≠ some '.' := by
  cases domain with
  | nil => cases hdot
  | cons c rest => simpa using hlast

theorem solid_label {user domain : Text} (huser : Solid user) (hdomain : Solid domain) :
    Solid (escapeLocal user ++ '.' :: domain) := by
  have hlabel : Solid (escapeLocal user) := by
    intro c hc
    cases mem_escapeLocal hc with
    | inl h => exact huser c h
    | inr h =>
      rw [h]
      decide
  have hend : Solid ['.'] := by decide
  exact hlabel.append (hend.append hdomain)

/-- The reader of names after the dots of the end are dropped, of a text in lower case. -/
theorem rnameToEmail_lower {s : Text} (h : Solid s) (hlast : s.getLast? ≠ some '.') :
    rnameToEmail (toAsciiLowercase (s ++ ['.'])) = emailFrom [] (toAsciiLowercase s) := by
  have hsolid : Solid (s ++ ['.']) := h.append (by decide)
  rw [rnameToEmail, trim_lower, hsolid.trim, trimEndMatches, rdropWhile_lower isDot_toLower]
  exact congrArg (fun t => emailFrom [] (toAsciiLowercase t)) (trimEndMatches_dot hlast)

/-- An address comes back from its name, without the dots at its end and in lower case. -/
theorem rnameToEmail_address {input user domain rname : Text} (hinput : trim input = user ++ '@' :: domain)
    (huser : '@' ∉ user) (hok : mailboxToRname input = .ok rname) (hdot : '.' ∈ trimEndMatches '.' domain) :
    rnameToEmail rname = some (toAsciiLowercase (trimEndMatches '.' (trim input))) := by
  have hne : trim input ≠ [] := by simp [hinput]
  obtain ⟨hcompact, spelled, hspelled, -, hrname⟩ := (mailboxToRname_eq_ok hne).mp hok
  rw [hinput] at hspelled hcompact ⊢
  obtain ⟨hparts, rfl⟩ := (spelledRname_address huser).mp hspelled
  have hsolid := hcompact.solid
  have huserSolid : Solid user := fun c hc => hsolid c (List.mem_append_left _ hc)
  have hdomain : Solid (trimEndMatches '.' domain) := by
    intro c hc
    have hmem : c ∈ domain := (List.rdropWhile_prefix _ domain).subset hc
    exact hsolid c (List.mem_append_right _ (List.mem_cons_of_mem _ hmem))
  have hlabel := solid_label huserSolid hdomain
  have hlower : toAsciiLowercase (escapeLocal user ++ '.' :: trimEndMatches '.' domain) =
      toAsciiLowercase (escapeLocal user) ++ '.' :: toAsciiLowercase (trimEndMatches '.' domain) := List.map_append
  have hlowerDot : '.' ∈ toAsciiLowercase (trimEndMatches '.' domain) := List.mem_map.mpr ⟨'.', hdot, rfl⟩
  have hkept : trimEndMatches '.' (user ++ '@' :: domain) = user ++ '@' :: trimEndMatches '.' domain := by
    rw [List.append_cons, trimEndMatches_append_of_ne _ hparts.hosted, List.append_assoc, List.singleton_append]
  rw [← hrname, rnameToEmail_lower hlabel (getLast?_cons_dot hdot (getLast?_trimEndMatches '.' domain)), hlower, hkept,
    emailFrom_label (unescapes_escapeLocal user).lower hlowerDot]
  · simp [toAsciiLowercase]
  · simpa [toAsciiLowercase] using hparts.named

/-! The name that a text stands for. -/

theorem readLabels_cons {c : Char} (hback : c ≠ '\\') (rest : Text) :
    readLabels (c :: rest) = if c = '.' then (readLabels rest).map ([] :: ·)
      else (readLabels rest).map (List.modifyHead (Utf8.encode [c] ++ ·)) := by
  rw [readLabels]
  all_goals simp [hback]

theorem readLabels_dot (rest : Text) : readLabels ('.' :: rest) = (readLabels rest).map ([] :: ·) := by
  rw [readLabels_cons (by decide), if_pos rfl]

theorem readLabels_plain {c : Char} (hback : c ≠ '\\') (hdot : c ≠ '.') (rest : Text) :
    readLabels (c :: rest) = (readLabels rest).map (List.modifyHead (Utf8.encode [c] ++ ·)) := by
  rw [readLabels_cons hback, if_neg hdot]

theorem readLabels_quoted {d : Char} {rest : Text} (h : codeAt d rest = false) :
    readLabels ('\\' :: d :: rest) = (readLabels rest).map (List.modifyHead (Utf8.encode [d] ++ ·)) := by
  match rest with
  | [] => simp [readLabels]
  | [e] =>
    rw [readLabels]
    all_goals simp
  | e :: f :: rest =>
    rw [codeAt] at h
    rw [readLabels, h, if_neg (by decide)]

theorem readLabels_code {d e f : Char} (h : isCode d e f = true) (rest : Text) :
    readLabels ('\\' :: d :: e :: f :: rest) =
      if readDigits [d, e, f] < 256 then
        (readLabels rest).map (List.modifyHead ([UInt8.ofNat (readDigits [d, e, f])] ++ ·))
      else none := by
  rw [readLabels, if_pos h]

theorem codeAt_label (d : Char) (raw t : Text) : codeAt d (raw ++ '.' :: t) = codeAt d raw := by
  match raw with
  | [] => cases t <;> simp [codeAt, isCode]
  | [e] => simp [codeAt, isCode]
  | e :: f :: rest => rfl

theorem exists_code {d : Char} {rest : Text} (h : codeAt d rest = true) :
    ∃ e f tail, rest = e :: f :: tail ∧ isCode d e f = true := by
  match rest with
  | [] => cases h
  | [e] => cases h
  | e :: f :: tail => exact ⟨e, f, tail, rfl, h⟩

theorem encode_cons (c : Char) (s : Text) : Utf8.encode (c :: s) = Utf8.encode [c] ++ Utf8.encode s :=
  Utf8.encode_append [c] s

theorem length_encode_cons (c : Char) (s : Text) :
    (Utf8.encode (c :: s)).length = c.utf8Size + (Utf8.encode s).length := by
  rw [← utf8Len_eq, ← utf8Len_eq, utf8Len, List.map_cons, List.sum_cons, utf8Len]

theorem length_encode_char (c : Char) : 1 ≤ (Utf8.encode [c]).length := by
  rw [← utf8Len_eq, utf8Len, List.map_singleton, List.sum_singleton]
  exact c.utf8Size_pos

/-- The text of a label, what the loop reads of it, the bytes that it stands for, and how many of
them are given by their numbers. -/
inductive ReadsAs : Text → Text → Framing.Bytes → Nat → Prop
  | nil : ReadsAs [] [] [] 0
  | plain {c : Char} {raw user : Text} {bytes : Framing.Bytes} {n : Nat} : c ≠ '\\' → c ≠ '.' →
      ReadsAs raw user bytes n →
      ReadsAs (c :: raw) (c :: user) (Utf8.encode [c] ++ bytes) n
  | quoted {d : Char} {raw user : Text} {bytes : Framing.Bytes} {n : Nat} : codeAt d raw = false → ReadsAs raw user bytes n →
      ReadsAs ('\\' :: d :: raw) (d :: user) (Utf8.encode [d] ++ bytes) n
  | code {d e f : Char} {raw user : Text} {bytes : Framing.Bytes} {n : Nat} : isCode d e f = true →
      readDigits [d, e, f] < 256 → ReadsAs raw user bytes n →
      ReadsAs ('\\' :: d :: e :: f :: raw) (d :: e :: f :: user) ([UInt8.ofNat (readDigits [d, e, f])] ++ bytes) (n + 1)

namespace ReadsAs

variable {raw user : Text} {bytes : Framing.Bytes} {n : Nat}

theorem readLabels (h : ReadsAs raw user bytes n) (t : Text) :
    readLabels (raw ++ '.' :: t) = (Authoritative.readLabels t).map (bytes :: ·) := by
  induction h with
  | nil => exact readLabels_dot t
  | plain hback hdot _ ih =>
    rw [List.cons_append, readLabels_plain hback hdot, ih, Option.map_map]
    rfl
  | quoted hcode _ ih =>
    rw [List.cons_append, List.cons_append, readLabels_quoted (by rwa [codeAt_label]), ih, Option.map_map]
    rfl
  | code hcode hbyte _ ih =>
    rw [List.cons_append, List.cons_append, List.cons_append, List.cons_append, readLabels_code hcode, if_pos hbyte, ih,
      Option.map_map]
    rfl

theorem codesFirst_iff (h : ReadsAs raw user bytes n) (t : Text) : codesFirst (raw ++ '.' :: t) = false ↔ n = 0 := by
  induction h with
  | nil => exact iff_of_true (by rw [List.nil_append, codesFirst, if_pos rfl] <;> simp) rfl
  | plain hback hdot _ ih =>
    rw [← ih, List.cons_append, codesFirst, if_neg hdot]
    all_goals simp [hback]
  | quoted hcode _ ih =>
    rw [← ih, List.cons_append, List.cons_append, codesFirst, codeAt_label, hcode, Bool.false_or]
  | code hcode _ _ _ =>
    rw [List.cons_append, List.cons_append, List.cons_append, List.cons_append, codesFirst, codeAt, hcode, Bool.true_or]
    exact iff_of_false (by decide) (Nat.succ_ne_zero _)

/-- A byte by its number is read as the digits of the number. -/
theorem length_eq (h : ReadsAs raw user bytes n) : (Utf8.encode user).length = bytes.length + 2 * n := by
  induction h with
  | nil => rfl
  | @plain c raw user bytes n _ _ _ ih =>
    rw [encode_cons, List.length_append, List.length_append, ih]
    omega
  | @quoted d raw user bytes n _ _ ih =>
    rw [encode_cons, List.length_append, List.length_append, ih]
    omega
  | @code d e f raw user bytes n hcode _ _ ih =>
    have hdigits : (Utf8.encode [d, e, f]).length = 3 := by
      rw [isCode, Bool.and_eq_true, Bool.and_eq_true] at hcode
      rw [← utf8Len_eq, utf8Len_of_digits]
      · rfl
      · simp [hcode]
    have hsplit : d :: e :: f :: user = [d, e, f] ++ user := rfl
    rw [hsplit, Utf8.encode_append, List.length_append, List.length_append, ih, hdigits, List.length_singleton]
    omega

theorem encode_eq (h : ReadsAs raw user bytes 0) : bytes = Utf8.encode user := by
  generalize hn : 0 = n at h
  induction h with
  | nil => rfl
  | plain _ _ _ ih =>
    rw [ih hn]
    exact (encode_cons _ _).symm
  | quoted _ _ ih =>
    rw [ih hn]
    exact (encode_cons _ _).symm
  | code _ _ _ _ => cases hn

theorem bytes_ne_nil (h : ReadsAs raw user bytes n) (hne : user ≠ []) : bytes ≠ [] := by
  cases h with
  | nil => exact absurd rfl hne
  | plain _ _ _ => exact List.append_ne_nil_of_left_ne_nil (List.ne_nil_of_length_pos (length_encode_char _)) _
  | quoted _ _ => exact List.append_ne_nil_of_left_ne_nil (List.ne_nil_of_length_pos (length_encode_char _)) _
  | code _ _ _ => exact List.cons_ne_nil _ _

end ReadsAs

/-- The loop reads digits after a backslash as they are. -/
theorem Unescapes.digits {d e f : Char} {tail user : Text} (h : Unescapes (e :: f :: tail) user)
    (hdigits : isCode d e f = true) : ∃ rest, Unescapes tail rest ∧ user = e :: f :: rest := by
  rw [isCode, Bool.and_eq_true, Bool.and_eq_true] at hdigits
  cases h with
  | plain _ _ h =>
    cases h with
    | plain _ _ h => exact ⟨_, h, rfl⟩
    | escaped _ => exact absurd hdigits.2 (by decide)
  | escaped _ => exact absurd hdigits.1.2 (by decide)

/-- The text of a label that can be read at all. -/
theorem exists_reads {raw user : Text} (h : Unescapes raw user) {t : Text} {labels : WireName}
    (hread : readLabels (raw ++ '.' :: t) = some labels) : ∃ bytes n, ReadsAs raw user bytes n := by
  induction hlength : raw.length using Nat.strong_induction_on generalizing raw user labels with
  | _ length ih =>
    subst hlength
    cases h with
    | nil => exact ⟨[], 0, .nil⟩
    | plain hback hdot hrest =>
      rw [List.cons_append, readLabels_plain hback hdot] at hread
      obtain ⟨rest, hread, -⟩ := Option.map_eq_some_iff.mp hread
      obtain ⟨bytes, n, hreads⟩ := ih _ (Nat.lt_succ_self _) hrest hread rfl
      exact ⟨_, n, .plain hback hdot hreads⟩
    | @escaped d raw user hrest =>
      cases hcode : codeAt d raw with
      | false =>
        rw [List.cons_append, List.cons_append, readLabels_quoted (by rwa [codeAt_label])] at hread
        obtain ⟨rest, hread, -⟩ := Option.map_eq_some_iff.mp hread
        obtain ⟨bytes, n, hreads⟩ := ih _ (by simp) hrest hread rfl
        exact ⟨_, n, .quoted hcode hreads⟩
      | true =>
        obtain ⟨e, f, tail, rfl, hdigits⟩ := exists_code hcode
        obtain ⟨user, htail, rfl⟩ := hrest.digits hdigits
        rw [List.cons_append, List.cons_append, List.cons_append, List.cons_append, readLabels_code hdigits] at hread
        split at hread
        next hbyte =>
          obtain ⟨rest, hread, -⟩ := Option.map_eq_some_iff.mp hread
          have hshort : tail.length < ('\\' :: d :: e :: f :: tail).length := by
            simp only [List.length_cons]
            omega
          obtain ⟨bytes, n, hreads⟩ := ih _ hshort htail hread rfl
          exact ⟨_, n + 1, .code hdigits hbyte hreads⟩
        next => cases hread

theorem codeAt_of_not_digit {d : Char} (h : d.isDigit = false) (rest : Text) : codeAt d rest = false := by
  match rest with
  | [] => rfl
  | [e] => rfl
  | e :: f :: tail => rw [codeAt, isCode, h, Bool.false_and, Bool.false_and]

/-- An escaped label stands for itself. -/
theorem reads_escapeLocal (user : Text) : ReadsAs (escapeLocal user) user (Utf8.encode user) 0 := by
  rw [escapeLocal_eq]
  induction user with
  | nil => exact .nil
  | cons c rest ih =>
    rw [List.flatMap_cons, encode_cons]
    split
    next hescaped =>
      apply ReadsAs.quoted _ ih
      apply codeAt_of_not_digit
      cases hescaped with
      | inl h => rw [h]; decide
      | inr h => rw [h]; decide
    next hplain => exact .plain (fun h => hplain (.inl h)) (fun h => hplain (.inr h)) ih

theorem map_lowerByte_encode (c : Char) :
    (Utf8.encode [c.toLower]).map lowerByte = (Utf8.encode [c]).map lowerByte := by
  cases toLower_cases c with
  | inl h => rw [h]
  | inr h =>
    obtain ⟨hlow, hhigh, -⟩ := h
    have hletter : ∀ n < 91, 65 ≤ n → (Utf8.encode [(Char.ofNat n).toLower]).map lowerByte =
        (Utf8.encode [Char.ofNat n]).map lowerByte := by decide
    have hc := hletter c.toNat (by omega) hlow
    rwa [Char.ofNat_toNat] at hc

theorem toLowercase_modifyHead (bytes : Framing.Bytes) (labels : WireName) :
    WireName.toLowercase (labels.modifyHead (bytes ++ ·)) =
      (WireName.toLowercase labels).modifyHead (bytes.map lowerByte ++ ·) := by
  cases labels <;> simp [WireName.toLowercase]

theorem map_toLowercase_push {bytes others : Framing.Bytes} (h : bytes.map lowerByte = others.map lowerByte)
    {first second : Option WireName} (hrest : first.map WireName.toLowercase = second.map WireName.toLowercase) :
    (first.map (List.modifyHead (bytes ++ ·))).map WireName.toLowercase =
      (second.map (List.modifyHead (others ++ ·))).map WireName.toLowercase := by
  have hpush (bytes : Framing.Bytes) : WireName.toLowercase ∘ List.modifyHead (bytes ++ ·) =
      List.modifyHead (bytes.map lowerByte ++ ·) ∘ WireName.toLowercase := funext (toLowercase_modifyHead bytes)
  rw [Option.map_map, Option.map_map, hpush, hpush, h, ← Option.map_map, ← Option.map_map, hrest]

theorem codeAt_lower (d : Char) (rest : Text) : codeAt d.toLower (toAsciiLowercase rest) = codeAt d rest := by
  match rest with
  | [] => rfl
  | [e] => rfl
  | e :: f :: tail => simp [toAsciiLowercase, codeAt, isCode, isDigit_toLower]

/-- The texts of names, by what stands at their start. -/
@[elab_as_elim]
theorem text_induction {motive : Text → Prop} (nil : motive []) (back : motive ['\\'])
    (dot : ∀ rest, motive rest → motive ('.' :: rest))
    (plain : ∀ c rest, c ≠ '\\' → c ≠ '.' → motive rest → motive (c :: rest))
    (quoted : ∀ d rest, codeAt d rest = false → motive rest → motive ('\\' :: d :: rest))
    (code : ∀ d e f rest, isCode d e f = true → motive rest → motive ('\\' :: d :: e :: f :: rest)) (s : Text) :
    motive s := by
  induction hlength : s.length using Nat.strong_induction_on generalizing s with
  | _ length ih =>
    subst hlength
    cases s with
    | nil => exact nil
    | cons c rest =>
      by_cases hback : c = '\\'
      · subst hback
        cases rest with
        | nil => exact back
        | cons d rest =>
          cases hcode : codeAt d rest with
          | false => exact quoted d rest hcode (ih _ (by simp) rest rfl)
          | true =>
            obtain ⟨e, f, tail, rfl, hdigits⟩ := exists_code hcode
            have hshort : tail.length < ('\\' :: d :: e :: f :: tail).length := by
              simp only [List.length_cons]
              omega
            exact code d e f tail hdigits (ih _ hshort tail rfl)
      · have hrest := ih _ (Nat.lt_succ_self _) rest rfl
        by_cases hdot : c = '.'
        · exact hdot ▸ dot rest hrest
        · exact plain c rest hback hdot hrest

theorem toLower_of_isCode {d e f : Char} (h : isCode d e f = true) : d.toLower = d ∧ e.toLower = e ∧ f.toLower = f := by
  rw [isCode, Bool.and_eq_true, Bool.and_eq_true] at h
  exact ⟨toLower_of_isDigit h.1.1, toLower_of_isDigit h.1.2, toLower_of_isDigit h.2⟩

/-- The case of a text is only that of its name. -/
theorem toLowercase_readLabels (s : Text) :
    (readLabels (toAsciiLowercase s)).map WireName.toLowercase = (readLabels s).map WireName.toLowercase := by
  induction s using text_induction with
  | nil => rfl
  | back => rfl
  | dot rest ih =>
    have hlower : toAsciiLowercase ('.' :: rest) = '.' :: toAsciiLowercase rest := rfl
    rw [hlower, readLabels_dot, readLabels_dot, Option.map_map, Option.map_map]
    have hpush : WireName.toLowercase ∘ ([] :: ·) = ([] :: ·) ∘ WireName.toLowercase := rfl
    rw [hpush, ← Option.map_map, ← Option.map_map, ih]
  | plain c rest hback hdot ih =>
    have hlower : toAsciiLowercase (c :: rest) = c.toLower :: toAsciiLowercase rest := rfl
    have hback' : c.toLower ≠ '\\' := fun h => hback (toLower_eq_backslash.mp h)
    have hdot' : c.toLower ≠ '.' := fun h => hdot (toLower_eq_dot.mp h)
    rw [hlower, readLabels_plain hback' hdot', readLabels_plain hback hdot]
    exact map_toLowercase_push (map_lowerByte_encode c) ih
  | quoted d rest hcode ih =>
    have hlower : toAsciiLowercase ('\\' :: d :: rest) = '\\' :: d.toLower :: toAsciiLowercase rest := rfl
    rw [hlower, readLabels_quoted (by rwa [codeAt_lower]), readLabels_quoted hcode]
    exact map_toLowercase_push (map_lowerByte_encode d) ih
  | code d e f rest hcode ih =>
    obtain ⟨hd, he, hf⟩ := toLower_of_isCode hcode
    have hlower : toAsciiLowercase ('\\' :: d :: e :: f :: rest) = '\\' :: d :: e :: f :: toAsciiLowercase rest := by
      simp [toAsciiLowercase, hd, he, hf]
    rw [hlower, readLabels_code hcode, readLabels_code hcode]
    split
    · exact map_toLowercase_push rfl ih
    · rfl

theorem readLabels_ne_nil {s : Text} {labels : WireName} (h : readLabels s = some labels) : labels ≠ [] := by
  have hpush (bytes : Framing.Bytes) {others : WireName} (hne : others ≠ []) : others.modifyHead (bytes ++ ·) ≠ [] := by
    simpa using hne
  induction s using text_induction generalizing labels with
  | nil =>
    cases h
    simp
  | back => cases h
  | dot rest ih =>
    rw [readLabels_dot] at h
    obtain ⟨others, -, rfl⟩ := Option.map_eq_some_iff.mp h
    simp
  | plain c rest hback hdot ih =>
    rw [readLabels_plain hback hdot] at h
    obtain ⟨others, hothers, rfl⟩ := Option.map_eq_some_iff.mp h
    exact hpush _ (ih hothers)
  | quoted d rest hcode ih =>
    rw [readLabels_quoted hcode] at h
    obtain ⟨others, hothers, rfl⟩ := Option.map_eq_some_iff.mp h
    exact hpush _ (ih hothers)
  | code d e f rest hcode ih =>
    rw [readLabels_code hcode] at h
    split at h
    next =>
      obtain ⟨others, hothers, rfl⟩ := Option.map_eq_some_iff.mp h
      exact hpush _ (ih hothers)
    next => cases h

theorem modifyHead_root {labels : WireName} (h : labels ≠ []) (f : Framing.Bytes → Framing.Bytes) :
    (labels ++ [[]]).modifyHead f = labels.modifyHead f ++ [[]] := by
  cases labels with
  | nil => exact absurd rfl h
  | cons label rest => rfl

/-- The dot of the root adds an empty label. -/
theorem readLabels_root {s : Text} {labels : WireName} (h : readLabels s = some labels) :
    readLabels (s ++ ['.']) = some (labels ++ [[]]) := by
  induction s using text_induction generalizing labels with
  | nil =>
    cases h
    rfl
  | back => cases h
  | dot rest ih =>
    rw [readLabels_dot] at h
    obtain ⟨others, hothers, rfl⟩ := Option.map_eq_some_iff.mp h
    rw [List.cons_append, readLabels_dot, ih hothers]
    rfl
  | plain c rest hback hdot ih =>
    rw [readLabels_plain hback hdot] at h
    obtain ⟨others, hothers, rfl⟩ := Option.map_eq_some_iff.mp h
    rw [List.cons_append, readLabels_plain hback hdot, ih hothers, Option.map_some,
      modifyHead_root (readLabels_ne_nil hothers)]
  | quoted d rest hcode ih =>
    rw [readLabels_quoted hcode] at h
    obtain ⟨others, hothers, rfl⟩ := Option.map_eq_some_iff.mp h
    rw [List.cons_append, List.cons_append, readLabels_quoted (by rwa [codeAt_label]), ih hothers, Option.map_some,
      modifyHead_root (readLabels_ne_nil hothers)]
  | code d e f rest hcode ih =>
    rw [readLabels_code hcode] at h
    split at h
    next hbyte =>
      obtain ⟨others, hothers, rfl⟩ := Option.map_eq_some_iff.mp h
      rw [List.cons_append, List.cons_append, List.cons_append, List.cons_append, readLabels_code hcode, if_pos hbyte,
        ih hothers, Option.map_some, modifyHead_root (readLabels_ne_nil hothers)]
    next => cases h

theorem nameOf_lower (s : Text) : nameOf (toAsciiLowercase s) = nameOf s := by
  have hname (s : Text) : nameOf s = ((readLabels s).map WireName.toLowercase).map (List.rdropWhile List.isEmpty) := by
    rw [Option.map_map]
    rfl
  rw [hname, hname, toLowercase_readLabels]

/-- The dot of the root is no part of the name. -/
theorem nameOf_root {s : Text} {name : WireName} (h : nameOf s = some name) : nameOf (s ++ ['.']) = some name := by
  obtain ⟨labels, hlabels, rfl⟩ := Option.map_eq_some_iff.mp h
  rw [nameOf, readLabels_root hlabels, Option.map_some, WireName.toLowercase, List.map_append, List.map_singleton]
  exact congrArg some (List.rdropWhile_concat_pos _ _ _ rfl)

theorem rdropWhile_label {label : Framing.Bytes} (h : label ≠ []) (labels : WireName) :
    (label :: labels).rdropWhile List.isEmpty = label :: labels.rdropWhile List.isEmpty := by
  induction labels using List.reverseRecOn with
  | nil => simp [List.rdropWhile, h]
  | append_singleton labels last ih =>
    rw [← List.cons_append, List.rdropWhile_concat, List.rdropWhile_concat, ih]
    split <;> rfl

/-- Two names that differ in their first labels only. -/
theorem nameOf_first {label other : Framing.Bytes} (hlabel : label ≠ []) (hother : other ≠ []) (labels : WireName) :
    (WireName.toLowercase (label :: labels)).rdropWhile List.isEmpty =
      (WireName.toLowercase (other :: labels)).rdropWhile List.isEmpty ↔ label.map lowerByte = other.map lowerByte := by
  have hmap {bytes : Framing.Bytes} (h : bytes ≠ []) : bytes.map lowerByte ≠ [] := by simpa using h
  rw [WireName.toLowercase, WireName.toLowercase, List.map_cons, List.map_cons, rdropWhile_label (hmap hlabel),
    rdropWhile_label (hmap hother), List.cons.injEq, and_iff_left rfl]

/-! Names by way of mailboxes. -/

namespace Unescapes

variable {raw user : Text}

theorem subset (h : Unescapes raw user) : ∀ c ∈ user, c ∈ raw := by
  induction h with
  | nil => exact fun c hc => hc
  | plain _ _ _ ih =>
    intro c hc
    rw [List.mem_cons] at hc ⊢
    exact hc.imp_right (ih c)
  | escaped _ ih =>
    intro c hc
    rw [List.mem_cons] at hc
    rw [List.mem_cons, List.mem_cons]
    exact .inr (hc.imp_right (ih c))

theorem length_le (h : Unescapes raw user) : (Utf8.encode user).length ≤ (Utf8.encode raw).length := by
  induction h with
  | nil => exact Nat.le_refl _
  | plain _ _ _ ih =>
    rw [length_encode_cons, length_encode_cons]
    omega
  | escaped _ ih =>
    rw [length_encode_cons, length_encode_cons, length_encode_cons]
    omega

/-- What is escaped last is read last. -/
theorem getLast?_eq (h : Unescapes raw user) : user.getLast? = raw.getLast? := by
  induction h with
  | nil => rfl
  | plain _ _ _ ih => rw [List.getLast?_cons, List.getLast?_cons, ih]
  | escaped _ ih => rw [List.getLast?_cons, List.getLast?_cons, List.getLast?_cons, ih, Option.getD_some]

end Unescapes

theorem head?_escapeLocal {user : Text} (h : user ≠ []) (t : Text) : (escapeLocal user ++ t).head? ≠ some '.' := by
  cases user with
  | nil => exact absurd rfl h
  | cons c rest =>
    rw [escapeLocal_eq, List.flatMap_cons]
    split
    next => simp
    next hplain => simpa using fun hdot => hplain (.inr hdot)

/-- An escaped label brings no two dots together. -/
theorem noDots_escapeLocal {user t : Text} (hlast : user.getLast? ≠ some '.') (ht : NoDots ('.' :: t)) :
    NoDots (escapeLocal user ++ '.' :: t) := by
  induction user with
  | nil => exact ht
  | cons c rest ih =>
    have hrest : NoDots (escapeLocal rest ++ '.' :: t) := by
      apply ih
      intro hdot
      rw [List.getLast?_cons, hdot] at hlast
      exact hlast rfl
    have hnext : c = '.' → (escapeLocal rest ++ '.' :: t).head? ≠ some '.' := by
      intro hc
      apply head?_escapeLocal
      rintro rfl
      exact hlast (by simp [hc])
    have hkept : NoDots (c :: (escapeLocal rest ++ '.' :: t)) := by
      apply List.isChain_cons.mpr
      refine ⟨?_, hrest⟩
      intro d hd
      by_cases hc : c = '.'
      · apply Or.inr
        rintro rfl
        exact hnext hc hd
      · exact .inl hc
    have hsplit : escapeLocal (c :: rest) = (if c = '\\' ∨ c = '.' then ['\\', c] else [c]) ++ escapeLocal rest := by
      rw [escapeLocal_eq, escapeLocal_eq, List.flatMap_cons]
    rw [hsplit, List.append_assoc]
    split
    · exact List.isChain_cons.mpr ⟨fun d _ => .inl (by decide), hkept⟩
    · exact hkept

/-- A name that is accepted ends with one dot at most. -/
theorem name_ends {t : Text} (h : NoDots (if t.getLast? == some '.' then t else t ++ ['.'])) :
    (t = trimEndMatches '.' t ∨ t = trimEndMatches '.' t ++ ['.']) ∧ NoDots (trimEndMatches '.' t ++ ['.']) := by
  by_cases hdot : t.getLast? = some '.'
  · obtain ⟨front, rfl⟩ := List.getLast?_eq_some_iff.mp hdot
    have hfront : front.getLast? ≠ some '.' := by
      intro hlast
      rw [if_pos (by simp)] at h
      have hpair := (List.isChain_append.mp h).2.2 '.' hlast '.' rfl
      simp at hpair
    rw [if_pos (by simp)] at h
    rw [trimEndMatches_dot hfront]
    exact ⟨.inr rfl, h⟩
  · rw [if_neg (by simpa using hdot)] at h
    rw [trimEndMatches_of_last hdot]
    exact ⟨.inl rfl, h⟩

/-- The address that an accepted name is shown as is accepted. -/
theorem mailboxToRname_label {raw user domain : Text} (h : Unescapes raw user) (hne : user ≠ [])
    (hcompact : Compact (raw ++ '.' :: domain)) (hat : '@' ∉ raw ++ '.' :: domain) (hdomain : '.' ∈ domain)
    (hdots : NoDots (raw ++ '.' :: domain ++ ['.'])) :
    mailboxToRname (user ++ '@' :: domain) =
      .ok (toAsciiLowercase (escapeLocal user ++ '.' :: domain ++ ['.'])) := by
  have hchars : ∀ c ∈ user ++ '@' :: domain, isWhitespace c = false ∧ isControl c = false := by
    intro c hc
    rw [List.mem_append, List.mem_cons] at hc
    rcases hc with huser | rfl | hc
    · exact hcompact.chars c (List.mem_append_left _ (h.subset c huser))
    · decide
    · exact hcompact.chars c (List.mem_append_right _ (List.mem_cons_of_mem _ hc))
  have hsolid : Solid (user ++ '@' :: domain) := fun c hc => (hchars c hc).1
  have hfits : (Utf8.encode (user ++ '@' :: domain)).length ≤ 254 := by
    have hraw := hcompact.fits
    have hle := h.length_le
    rw [Utf8.encode_append, List.length_append, length_encode_cons] at hraw ⊢
    have hsize : ('@' : Char).utf8Size = ('.' : Char).utf8Size := by decide
    omega
  rw [List.append_assoc, List.cons_append] at hdots
  have ⟨_, htail, hbefore⟩ := List.isChain_append.mp hdots
  have ⟨hafter, hend⟩ := List.isChain_cons.mp htail
  have ⟨_, _, hclose⟩ := List.isChain_append.mp hend
  have huserLast : user.getLast? ≠ some '.' := by
    intro hlast
    rw [h.getLast?_eq] at hlast
    have hpair := hbefore '.' hlast '.' rfl
    simp at hpair
  have hlast : domain.getLast? ≠ some '.' := by
    intro hlast
    have hpair := hclose '.' hlast '.' rfl
    simp at hpair
  have hparts : AddressParts user (trimEndMatches '.' domain) := by
    rw [trimEndMatches_of_last hlast]
    refine ⟨hne, List.ne_nil_of_mem hdomain, ?_, ?_⟩
    · exact fun hmem => hat (List.mem_append_right _ (List.mem_cons_of_mem _ hmem))
    · intro hstart
      have hpair := hafter '.' (by rw [List.head?_append, hstart]; rfl)
      simp at hpair
  have huser : '@' ∉ user := fun hmem => hat (List.mem_append_left _ (h.subset '@' hmem))
  have htrim : trim (user ++ '@' :: domain) = user ++ '@' :: domain := hsolid.trim
  have hspelled := (spelledRname_address huser).mpr ⟨hparts, rfl⟩
  rw [trimEndMatches_of_last hlast] at hspelled
  apply (mailboxToRname_eq_ok (by simp [htrim])).mpr
  rw [htrim]
  refine ⟨⟨hchars, hfits⟩, _, hspelled, ⟨?_, ?_⟩, rfl⟩
  · rw [List.append_assoc]
    exact head?_escapeLocal hne _
  · rw [List.append_assoc, List.cons_append]
    exact noDots_escapeLocal huserLast htail

/-- A label's bytes are those that the loop reads unless one is given by its number. -/
theorem ReadsAs.lower_eq_iff {raw user : Text} {bytes : Framing.Bytes} {n : Nat} (h : ReadsAs raw user bytes n) :
    (Utf8.encode user).map lowerByte = bytes.map lowerByte ↔ n = 0 := by
  constructor
  · intro hsame
    have hlength := congrArg List.length hsame
    rw [List.length_map, List.length_map, h.length_eq] at hlength
    omega
  · rintro rfl
    rw [h.encode_eq]

/-- A name comes back from the address it is shown as, unless a byte of its first label is given by
its number. -/
theorem rnameToEmail_name {input rname email : Text} {name : WireName} (hat : '@' ∉ input)
    (hok : mailboxToRname input = .ok rname) (hemail : rnameToEmail input = some email)
    (hname : nameOf (trim input) = some name) :
    (∃ back, mailboxToRname email = .ok back ∧ nameOf back = some name) ↔ codesFirst (trim input) = false := by
  have hne : trim input ≠ [] := by
    intro hnil
    rw [rnameToEmail, hnil] at hemail
    cases hemail
  obtain ⟨hcompact, spelled, hspelled, ⟨-, hdots⟩, -⟩ := (mailboxToRname_eq_ok hne).mp hok
  rw [spelledRname_name (fun h => hat (trim_subset input h)), Except.ok.injEq] at hspelled
  rw [← hspelled] at hdots
  obtain ⟨hends, hdots⟩ := name_ends hdots
  obtain ⟨raw, user, domain, hs, hraw, hdomain, huser, rfl⟩ := exists_of_emailFrom hemail
  rw [List.nil_append] at huser
  have hlead : trimEndMatches '.' (trim input) <+: trim input := List.rdropWhile_prefix _ _
  have hcompact' : Compact (raw ++ '.' :: domain) := by
    obtain ⟨rest, hrest⟩ := hlead
    rw [hs] at hrest
    refine ⟨fun c hc => hcompact.chars c (hrest ▸ List.mem_append_left _ hc), ?_⟩
    have hfits := hcompact.fits
    rw [← hrest, Utf8.encode_append, List.length_append] at hfits
    omega
  have hat' : '@' ∉ raw ++ '.' :: domain := fun h => hat (trim_subset input (hlead.subset (hs ▸ h)))
  have hback := mailboxToRname_label hraw huser hcompact' hat' hdomain (hs ▸ hdots)
  have hrooted : nameOf (raw ++ '.' :: (domain ++ ['.'])) = some name := by
    rw [← List.cons_append, ← List.append_assoc, ← hs]
    cases hends with
    | inl h => exact nameOf_root (h ▸ hname)
    | inr h => exact h ▸ hname
  obtain ⟨labels, hlabels, hnamed⟩ := Option.map_eq_some_iff.mp hrooted
  obtain ⟨bytes, n, hreads⟩ := exists_reads hraw hlabels
  rw [hreads.readLabels] at hlabels
  obtain ⟨others, hothers, rfl⟩ := Option.map_eq_some_iff.mp hlabels
  have hcodes : codesFirst (trim input) = false ↔ n = 0 := by
    cases hends with
    | inl h => rw [h, hs, hreads.codesFirst_iff]
    | inr h => rw [h, hs, List.append_assoc, List.cons_append, hreads.codesFirst_iff]
  have hnameBack : nameOf (toAsciiLowercase (escapeLocal user ++ '.' :: domain ++ ['.'])) =
      some ((WireName.toLowercase (Utf8.encode user :: others)).rdropWhile List.isEmpty) := by
    rw [nameOf_lower, nameOf, List.append_assoc, List.cons_append, (reads_escapeLocal user).readLabels, hothers]
    rfl
  have huserBytes : Utf8.encode user ≠ [] := (reads_escapeLocal user).bytes_ne_nil huser
  rw [hcodes, ← hreads.lower_eq_iff, ← nameOf_first huserBytes (hreads.bytes_ne_nil huser) others, hnamed]
  constructor
  · rintro ⟨back, hok, hsame⟩
    cases hback.symm.trans hok
    exact Option.some.inj (hnameBack.symm.trans hsame)
  · intro hsame
    exact ⟨_, hback, hsame ▸ hnameBack⟩

/-- Addresses come back from their names. Names come back from the addresses that they are shown
as exactly where no byte of the first label is given by its number. -/
theorem mailboxes_come_back (input : Text) :
    (∀ user domain rname : Text, trim input = user ++ '@' :: domain → '@' ∉ user →
      mailboxToRname input = .ok rname → '.' ∈ trimEndMatches '.' domain →
        rnameToEmail rname = some (toAsciiLowercase (trimEndMatches '.' (trim input)))) ∧
    ∀ (rname email : Text) (name : WireName), '@' ∉ input → mailboxToRname input = .ok rname →
      rnameToEmail input = some email → nameOf (trim input) = some name →
        ((∃ back, mailboxToRname email = .ok back ∧ nameOf back = some name) ↔ codesFirst (trim input) = false) :=
  ⟨fun _ _ _ hinput huser hok hdot => rnameToEmail_address hinput huser hok hdot,
    fun _ _ _ hat hok hemail hname => rnameToEmail_name hat hok hemail hname⟩

/-- An address with dots, and a name with an escaped one. -/
theorem mailboxes_come_back_both :
    rnameToEmail "jane\\.doe.example.com.".toList = some "jane.doe@example.com".toList ∧
      ∃ back, mailboxToRname "jane.doe@example.com".toList = .ok back ∧
        nameOf back = nameOf "jane\\.doe.example.com".toList := by
  constructor
  · exact (mailboxes_come_back " Jane.Doe@Example.com.".toList).1 "Jane.Doe".toList "Example.com.".toList
      "jane\\.doe.example.com.".toList (by decide) (by decide) (by decide) (by decide)
  · exact ((mailboxes_come_back "jane\\.doe.example.com".toList).2 "jane\\.doe.example.com.".toList
      "jane.doe@example.com".toList _ (by decide) (by decide) (by decide)
      (by decide)).mpr (by decide)

/-- The dot that `\046` stands for is lost. -/
theorem mailboxes_come_back_fails :
    '@' ∉ "\\046b.example.com.".toList ∧
      mailboxToRname "\\046b.example.com.".toList = .ok "\\046b.example.com.".toList ∧
      rnameToEmail "\\046b.example.com.".toList = some "046b@example.com".toList ∧
      nameOf (trim "\\046b.example.com.".toList) ≠ none ∧
      ∀ back, mailboxToRname "046b@example.com".toList = .ok back →
        nameOf back ≠ nameOf (trim "\\046b.example.com.".toList) := by
  refine ⟨by decide, by decide, by decide, by decide, ?_⟩
  intro back hback
  have hsame : mailboxToRname "046b@example.com".toList = .ok "046b.example.com.".toList := by decide
  cases hsame.symm.trans hback
  decide

end DaygleDns.Authoritative
