import DaygleDns.Authoritative.Model

/-! Domain names as the store compares and checks them. -/
namespace DaygleDns.Authoritative

open Text

/-- One label of `validate_name`, in the order of its checks. -/
def validateLabel (name label : Text) : Except DaygleError Unit :=
  if label.isEmpty then
    .error (.invalidRecord ("name '" ++ name ++ "' has an empty label"))
  else if 63 < utf8Len label then
    .error (.invalidRecord ("label '" ++ label ++ "' exceeds 63 bytes"))
  else if label.head? == some '-' || label.getLast? == some '-' ||
      label.any (fun c => !(c.isAlphanum || c == '-' || c == '_')) then
    .error (.invalidRecord ("invalid label '" ++ label ++ "' in '" ++ name ++ "'"))
  else .ok ()

def validateName (name : Text) (allowRelative : Bool) : Except DaygleError Unit := do
  let trimmed := trimEndMatches '.' (trim name)
  if trimmed.isEmpty then
    throw (.invalidRecord "empty name")
  (trimmed.splitOn '.').forM (validateLabel name)
  if !allowRelative && '.' ∉ trimmed then
    throw (.invalidRecord ("name '" ++ name ++ "' is not fully qualified"))

/-- The leftmost label may also be the wildcard `*`. -/
def validateOwnerName (name : Text) : Except DaygleError Unit :=
  let trimmed := trim name
  if trimmed.any isWhitespace then
    .error (.invalidRecord ("name '" ++ trimmed ++ "' contains a space"))
  else match stripPrefix ['*', '.'] trimmed with
    | some rest => validateName rest false
    | none => validateName trimmed false

def normalizeFqdn (name : Text) : Text :=
  toAsciiLowercase (trimEndMatches '.' (trim name))

/-- Resolve `@`, bare relative names and trailing dots against the zone name. -/
def qualifyName (owner zoneName : Text) : Text :=
  let owner := trim owner
  let zone := trimEndMatches '.' (trim zoneName)
  let resolved :=
    if owner == ['@'] || owner.isEmpty || eqIgnoreAsciiCase owner zone then zone
    else match stripSuffix ['.'] owner with
      | some stripped => stripped
      | none => if endsWith ('.' :: zone) owner then owner else owner ++ '.' :: zone
  toAsciiLowercase resolved

/-- `lower_name` of the update handler. -/
def lowerName (s : Text) : Text := toAsciiLowercase (trimEndMatches '.' s)

def nameInZone (name zoneName : Text) : Bool :=
  name == zoneName || endsWith ('.' :: zoneName) name

end DaygleDns.Authoritative
