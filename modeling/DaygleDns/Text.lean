import Mathlib.Algebra.Ring.Nat
import Mathlib.Data.Char
import Mathlib.Data.List.DropRight
import Mathlib.Data.List.Lex
import Mathlib.Order.Lattice

/-! Text as a list of characters, with the string functions of the Rust
standard library that the program calls. Case changes are the ASCII ones. -/
namespace DaygleDns

abbrev Text := List Char

instance : Coe String Text := ⟨String.toList⟩

instance : LawfulBEq Text := inferInstance

-- A property of the members of a list is decided along the list, not over all characters.
instance (priority := 2000) decidableForallMem {α : Type} (holds : α → Prop) [DecidablePred holds] (items : List α) :
    Decidable (∀ item ∈ items, holds item) :=
  List.decidableBAll holds items

namespace Text

/-- The Unicode `White_Space` property, as `char::is_whitespace` reads it. -/
def isWhitespace (c : Char) : Bool :=
  (9 ≤ c.toNat && c.toNat ≤ 13) || c.toNat == 0x20 || c.toNat == 0x85 || c.toNat == 0xA0 ||
    c.toNat == 0x1680 || (0x2000 ≤ c.toNat && c.toNat ≤ 0x200A) || c.toNat == 0x2028 ||
    c.toNat == 0x2029 || c.toNat == 0x202F || c.toNat == 0x205F || c.toNat == 0x3000

def trimStart (s : Text) : Text := s.dropWhile isWhitespace

def trimEnd (s : Text) : Text := s.rdropWhile isWhitespace

def trim (s : Text) : Text := trimEnd (trimStart s)

def trimStartMatches (c : Char) (s : Text) : Text := s.dropWhile (· == c)

def trimEndMatches (c : Char) (s : Text) : Text := s.rdropWhile (· == c)

def toAsciiLowercase (s : Text) : Text := s.map Char.toLower

def toAsciiUppercase (s : Text) : Text := s.map Char.toUpper

def eqIgnoreAsciiCase (a b : Text) : Bool := toAsciiLowercase a == toAsciiLowercase b

def endsWith (suffix s : Text) : Bool := suffix.isSuffixOf s

def stripPrefix (lead s : Text) : Option Text :=
  if lead.isPrefixOf s then some (s.drop lead.length) else none

def stripSuffix (tail s : Text) : Option Text :=
  if tail.isSuffixOf s then some (s.take (s.length - tail.length)) else none

/-- `split_once(char::is_whitespace)`: what stands before and after the first
whitespace character. -/
def splitOnceWhitespace : Text → Option (Text × Text)
  | [] => none
  | c :: rest =>
      if isWhitespace c then some ([], rest)
      else (splitOnceWhitespace rest).map fun parts => (c :: parts.1, parts.2)

/-- `split_inclusive` on line feeds: every piece but perhaps the last ends in one. -/
def splitInclusive : Text → List Text
  | [] => []
  | c :: rest =>
      if c == '\n' then [c] :: splitInclusive rest
      else match splitInclusive rest with
        | [] => [[c]]
        | line :: more => (c :: line) :: more

/-- A line without its ending, which is a line feed or both characters of a
carriage return and line feed. -/
def stripLineEnd (line : Text) : Text :=
  match stripSuffix ['\n'] line with
  | none => line
  | some line => (stripSuffix ['\r'] line).getD line

def lines (s : Text) : List Text := (splitInclusive s).map stripLineEnd

/-- `str::replace`, on the text still to be read. -/
def replaceFrom (pattern replacement : Text) : Nat → Text → Text
  | 0, s => s
  | _ + 1, [] => []
  | fuel + 1, c :: rest =>
      if pattern.isPrefixOf (c :: rest) then
        replacement ++ replaceFrom pattern replacement fuel ((c :: rest).drop pattern.length)
      else c :: replaceFrom pattern replacement fuel rest

/-- Each step of the scan takes at least one character of a non-empty pattern's
text, so the length of the text is enough fuel. -/
def replace (pattern replacement s : Text) : Text :=
  replaceFrom pattern replacement s.length s

def contains (pattern s : Text) : Bool := s.tails.any pattern.isPrefixOf

/-- The length in bytes of the UTF-8 form. -/
def utf8Len (s : Text) : Nat := (s.map fun c => c.utf8Size).sum

def ofNat (n : Nat) : Text := Nat.toDigits 10 n

def digitValue (c : Char) : Nat := c.toNat - '0'.toNat

def readDigits (s : Text) : Nat := s.foldl (fun n c => 10 * n + digitValue c) 0

/-- `str::parse::<u32>`: an optional plus sign, then digits, in range. -/
def parseU32 (s : Text) : Option UInt32 :=
  let digits := (stripPrefix ['+'] s).getD s
  if !digits.isEmpty && digits.all Char.isDigit && readDigits digits < 2 ^ 32 then
    some (UInt32.ofNat (readDigits digits))
  else none

end Text

end DaygleDns
