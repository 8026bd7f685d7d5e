import DaygleDns.CanonicalNames
import DaygleDns.DottedText
import DaygleDns.Framing

/-! Names with their labels, and the texts that the labels are printed as. -/
namespace DaygleDns.Recursive

open DottedText Framing Text

/-- A label on the wire. -/
structure Label where
  bytes : Bytes
  nonempty : bytes ≠ []
  length_le : bytes.length ≤ 63
deriving DecidableEq, Repr

/-- Without regard to ASCII case. -/
def Label.lower (label : Label) : Bytes := label.bytes.map lowerByte

/-- Names with their labels. `read` is the label that a text between two dots is of. -/
structure LabelledNames (N : Type) where
  labels : N → List Label
  toText : N → Text
  display : Label → Text
  read : Text → Option Label

/-- The labels are printed between dots, with a dot at the end where the name is fully qualified. Special
bytes are escaped with a backslash; a printed label is read back also in lower case; and what is behind a
dot in it, which is escaped, is of fewer bytes. -/
structure LabelledNames.Lawful {N : Type} (names : LabelledNames N) : Prop where
  toText : ∀ name, names.toText name = joined ((names.labels name).map names.display) ∨
    names.toText name = joined ((names.labels name).map names.display) ++ ['.']
  nonempty : ∀ label, names.display label ≠ []
  whole : ∀ label, Whole (names.display label)
  solid : ∀ label, Solid (names.display label)
  read : ∀ label, ∃ found, names.read (toAsciiLowercase (names.display label)) = some found ∧ found.lower = label.lower
  behindDot : ∀ label front rest, names.display label = front ++ '.' :: rest →
    ∀ found ∈ names.read (toAsciiLowercase rest), found.bytes.length < label.bytes.length

/-! Labels without Unicode. -/

def isSafeAscii (first : Bool) (byte : UInt8) : Bool :=
  (48 ≤ byte && byte ≤ 57) || (65 ≤ byte && byte ≤ 90) || (97 ≤ byte && byte ≤ 122) || byte == 95 ||
    (byte == 45 && !first) || (byte == 42 && first)

def octalDigits (byte : UInt8) : Text := [byte.toNat / 64, byte.toNat / 8 % 8, byte.toNat % 8].map Nat.digitChar

def displayByte (first : Bool) (byte : UInt8) : Text :=
  if isSafeAscii first byte then [Char.ofNat byte.toNat]
  else if 32 < byte ∧ byte < 127 then ['\\', Char.ofNat byte.toNat]
  else '\\' :: octalDigits byte

def displayBytes : Bool → Bytes → Text
  | _, [] => []
  | first, byte :: rest => displayByte first byte ++ displayBytes false rest

/-- Three octal digits behind a backslash are of a byte, and so is any other character there. -/
def unescape : Text → Option Bytes
  | [] => some []
  | c :: rest =>
      if c = '\\' then
        match rest with
        | [] => none
        | a :: rest =>
            if a.isDigit then
              match rest with
              | b :: d :: rest =>
                  (unescape rest).map (UInt8.ofNat (64 * digitValue a + 8 * digitValue b + digitValue d) :: ·)
              | _ => none
            else (unescape rest).map (UInt8.ofNat a.toNat :: ·)
      else if c.toNat < 128 then (unescape rest).map (UInt8.ofNat c.toNat :: ·)
      else none

def readLabel (s : Text) : Option Label :=
  (unescape s).bind fun bytes => if h : bytes ≠ [] ∧ bytes.length ≤ 63 then some ⟨bytes, h.1, h.2⟩ else none

/-- Fully qualified names. -/
def escapedNames : LabelledNames (List Label) where
  labels := fun labels => labels
  toText := fun labels => joined (labels.map fun label => displayBytes true label.bytes) ++ ['.']
  display := fun label => displayBytes true label.bytes
  read := readLabel

theorem forall_byte {p : UInt8 → Prop} (h : ∀ n < 256, p (UInt8.ofNat n)) (byte : UInt8) : p byte := by
  have hbyte := h byte.toNat byte.toNat_lt
  rwa [UInt8.ofNat_toNat] at hbyte

/-- What a printed byte looks like, and what is read of it in lower case. -/
theorem displayByte_text (first : Bool) : ∀ byte, displayByte first byte ≠ [] ∧ Whole (displayByte first byte) ∧
    Solid (displayByte first byte) ∧ '.' ∉ (displayByte first byte).dropLast ∧
    (isSafeAscii first byte = true → (Char.ofNat byte.toNat).toLower ≠ '\\' ∧
      (Char.ofNat byte.toNat).toLower.toNat < 128 ∧ UInt8.ofNat (Char.ofNat byte.toNat).toLower.toNat = lowerByte byte) ∧
    (isSafeAscii first byte = false → 32 < byte ∧ byte < 127 → (Char.ofNat byte.toNat).toLower.isDigit = false ∧
      UInt8.ofNat (Char.ofNat byte.toNat).toLower.toNat = lowerByte byte) := by
  apply forall_byte
  cases first <;> decide +kernel

theorem octalDigits_text : ∀ byte, ¬(32 < byte ∧ byte < 127) → ∃ a b d, octalDigits byte = [a, b, d] ∧
    a.isDigit = true ∧ a.toLower = a ∧ b.toLower = b ∧ d.toLower = d ∧
      UInt8.ofNat (64 * digitValue a + 8 * digitValue b + digitValue d) = lowerByte byte := by
  intro byte hbyte
  refine ⟨_, _, _, rfl, ?_⟩
  revert byte
  apply forall_byte
  decide +kernel

theorem unescape_displayByte (first : Bool) (byte : UInt8) (rest : Text) :
    unescape (toAsciiLowercase (displayByte first byte) ++ rest) = (unescape rest).map (lowerByte byte :: ·) := by
  unfold displayByte
  split
  next hsafe =>
    have ⟨hslash, hascii, hbyte⟩ := (displayByte_text first byte).2.2.2.2.1 hsafe
    change unescape ((Char.ofNat byte.toNat).toLower :: rest) = _
    rw [unescape.eq_def]
    dsimp only
    rw [if_neg hslash, if_pos hascii, hbyte]
  next hsafe =>
  split
  next hprintable =>
    have ⟨hdigit, hbyte⟩ := (displayByte_text first byte).2.2.2.2.2 (by simpa using hsafe) hprintable
    change unescape ('\\' :: (Char.ofNat byte.toNat).toLower :: rest) = _
    rw [unescape.eq_def]
    dsimp only
    rw [if_pos rfl, if_neg (by simp [hdigit]), hbyte]
  next hprintable =>
    obtain ⟨a, b, d, hdigits, hdigit, ha, hb, hd, hbyte⟩ := octalDigits_text byte hprintable
    rw [hdigits]
    change unescape ('\\' :: a.toLower :: b.toLower :: d.toLower :: rest) = _
    rw [ha, hb, hd, unescape.eq_def]
    dsimp only
    rw [if_pos rfl, if_pos hdigit, hbyte]

theorem unescape_displayBytes (first : Bool) (bytes : Bytes) :
    unescape (toAsciiLowercase (displayBytes first bytes)) = some (bytes.map lowerByte) := by
  induction bytes generalizing first with
  | nil => rfl
  | cons byte rest ih =>
    rw [displayBytes, toAsciiLowercase_append, unescape_displayByte, ih]
    rfl

theorem whole_displayBytes (first : Bool) (bytes : Bytes) : Whole (displayBytes first bytes) := by
  induction bytes generalizing first with
  | nil => exact ⟨rfl, rfl⟩
  | cons byte rest ih =>
    have ⟨hdots, hleaves⟩ := (displayByte_text first byte).2.1
    unfold Whole
    rw [displayBytes, undotted_append, leaves_append, hdots, hleaves]
    exact ih false

theorem solid_displayBytes (first : Bool) (bytes : Bytes) : Solid (displayBytes first bytes) := by
  induction bytes generalizing first with
  | nil => exact nofun
  | cons byte rest ih => exact (displayByte_text first byte).2.2.1.append (ih false)

theorem displayBytes_behindDot {first : Bool} {bytes : Bytes} {front rest : Text}
    (h : displayBytes first bytes = front ++ '.' :: rest) :
    ∃ later : Bytes, later.length < bytes.length ∧ rest = displayBytes false later := by
  induction bytes generalizing first front with
  | nil =>
    rw [displayBytes] at h
    cases front <;> cases h
  | cons byte bytes ih =>
    rw [displayBytes] at h
    have hlater {front : Text} (hrest : displayBytes false bytes = front ++ '.' :: rest) :
        ∃ later : Bytes, later.length < (byte :: bytes).length ∧ rest = displayBytes false later := by
      have ⟨later, hlength, hsame⟩ := ih hrest
      exact ⟨later, Nat.lt_succ_of_lt hlength, hsame⟩
    cases List.append_eq_append_iff.mp h with
    | inl hlong =>
      obtain ⟨between, _, hrest⟩ := hlong
      exact hlater hrest
    | inr hshort =>
      obtain ⟨between, hbyte, hrest⟩ := hshort
      cases between with
      | nil => exact @hlater [] hrest.symm
      | cons c between =>
        have hdot : '.' = c := (List.cons.inj hrest).1
        have hbehind : rest = between ++ displayBytes false bytes := (List.cons.inj hrest).2
        cases between with
        | nil => exact ⟨bytes, Nat.lt_succ_self _, hbehind⟩
        | cons d between =>
          apply absurd _ (displayByte_text first byte).2.2.2.1
          rw [hbyte, ← hdot, List.dropLast_append_of_ne_nil (List.cons_ne_nil _ _)]
          exact List.mem_append_right _ List.mem_cons_self

theorem bytes_of_readLabel {s : Text} {label : Label} (h : readLabel s = some label) : unescape s = some label.bytes := by
  obtain ⟨bytes, hbytes, hlabel⟩ := Option.bind_eq_some_iff.mp h
  split at hlabel
  · cases hlabel
    exact hbytes
  · cases hlabel

theorem lowerByte_lowerByte (byte : UInt8) : lowerByte (lowerByte byte) = lowerByte byte := by
  unfold lowerByte
  by_cases h : 65 ≤ byte ∧ byte ≤ 90
  · rw [if_pos h, if_neg (by grind)]
  · rw [if_neg h, if_neg h]

theorem escapedNames_lawful : escapedNames.Lawful where
  toText := fun labels => .inr rfl
  nonempty := by
    intro label hnil
    cases hbytes : label.bytes with
    | nil => exact label.nonempty hbytes
    | cons byte rest =>
      change displayBytes true label.bytes = [] at hnil
      rw [hbytes, displayBytes, List.append_eq_nil_iff] at hnil
      exact (displayByte_text true byte).1 hnil.1
  whole := fun label => whole_displayBytes true label.bytes
  solid := fun label => solid_displayBytes true label.bytes
  read := by
    intro label
    have hbytes := unescape_displayBytes true label.bytes
    have hvalid : label.bytes.map lowerByte ≠ [] ∧ (label.bytes.map lowerByte).length ≤ 63 :=
      ⟨by simpa using label.nonempty, by simpa using label.length_le⟩
    refine ⟨⟨_, hvalid.1, hvalid.2⟩, ?_, ?_⟩
    · change readLabel (toAsciiLowercase (displayBytes true label.bytes)) = _
      rw [readLabel, hbytes, Option.bind_some, dif_pos hvalid]
    · rw [Label.lower, Label.lower, List.map_map]
      exact List.map_congr_left fun byte _ => lowerByte_lowerByte byte
  behindDot := by
    intro label front rest hsplit found hfound
    obtain ⟨later, hlength, rfl⟩ := displayBytes_behindDot hsplit
    have hbytes := (unescape_displayBytes false later).symm.trans (bytes_of_readLabel hfound)
    rw [← Option.some.inj hbytes, List.length_map]
    exact hlength

end DaygleDns.Recursive
