import DaygleDns.Framing
import DaygleDns.Text

/-! Text in UTF-8. -/
namespace DaygleDns.Utf8

open Framing

def encode (text : Text) : Bytes := text.flatMap String.utf8EncodeChar

/-- `str::from_utf8` -/
def decode (bytes : Bytes) : Option Text := bytes.toByteArray.utf8Decode?.map Array.toList

theorem toByteArray_encode (text : Text) : (encode text).toByteArray = text.utf8Encode := rfl

/-- What is decoded is what was encoded, and nothing else decodes. -/
theorem decode_eq_some {bytes : Bytes} {text : Text} : decode bytes = some text ↔ bytes = encode text := by
  constructor
  · intro h
    have ⟨chars, hdecode, hchars⟩ := Option.map_eq_some_iff.mp h
    have hsome : bytes.toByteArray.utf8Decode?.isSome = true := by rw [hdecode]; rfl
    have hencode := @ByteArray.utf8Encode_get_utf8Decode? bytes.toByteArray hsome
    have hget : bytes.toByteArray.utf8Decode?.get hsome = chars := Option.get_of_eq_some hsome hdecode
    rw [hget, hchars, ← toByteArray_encode] at hencode
    simpa using congrArg (fun bytes : ByteArray => bytes.data.toList) hencode.symm
  · intro h
    rw [h, decode, toByteArray_encode, List.utf8Decode?_utf8Encode]
    rfl

theorem encode_injective {first second : Text} (h : encode first = encode second) : first = second := by
  have hfirst := decode_eq_some.mpr h
  rw [decode_eq_some.mpr rfl] at hfirst
  exact Option.some.inj hfirst

theorem encode_append (first second : Text) : encode (first ++ second) = encode first ++ encode second :=
  List.flatMap_append

end DaygleDns.Utf8
