import Mathlib.Data.List.Basic
import Mathlib.Tactic.Ring

/-! Messages in a byte stream, each behind its length in two bytes. -/
namespace DaygleDns.Framing

abbrev Bytes := List UInt8

/-- `to_be_bytes` of a number in so many bytes; what is above them is cut off. -/
def toBeBytes : Nat → Nat → Bytes
  | 0, _ => []
  | length + 1, n => UInt8.ofNat (n / 256 ^ length) :: toBeBytes length n

def be16 (n : Nat) : Bytes := toBeBytes 2 n

def ofBe16 (high low : UInt8) : Nat := 256 * high.toNat + low.toNat

def frame (body : Bytes) : Bytes := be16 body.length ++ body

/-- `read_exact`: the bytes read and what is left of the stream. -/
def readExact (n : Nat) (stream : Bytes) : Option (Bytes × Bytes) :=
  if n ≤ stream.length then some (stream.take n, stream.drop n) else none

/-- The length of the next message, and what is left behind it. -/
def readLength : Bytes → Option (Nat × Bytes)
  | high :: low :: rest => some (ofBe16 high low, rest)
  | _ => none

@[simp] theorem readExact_append (body rest : Bytes) :
    readExact body.length (body ++ rest) = some (body, rest) := by
  simp [readExact]

@[simp] theorem readLength_frame {body : Bytes} (h : body.length < 65536) (rest : Bytes) :
    readLength (frame body ++ rest) = some (body.length, body ++ rest) := by
  have hlength : ofBe16 (UInt8.ofNat (body.length / 256 ^ 1)) (UInt8.ofNat (body.length / 256 ^ 0)) =
      body.length := by
    simp only [ofBe16, UInt8.toNat_ofNat']
    omega
  simp only [frame, be16, toBeBytes, List.cons_append, List.nil_append, readLength, hlength]

def ofBeBytes (bytes : Bytes) : Nat := bytes.foldl (fun n byte => 256 * n + byte.toNat) 0

@[simp] theorem length_toBeBytes (length n : Nat) : (toBeBytes length n).length = length := by
  induction length with
  | zero => rfl
  | succ length ih => simp [toBeBytes, ih]

theorem foldl_toBeBytes (length n start : Nat) :
    (toBeBytes length n).foldl (fun n byte => 256 * n + byte.toNat) start =
      256 ^ length * start + n % 256 ^ length := by
  induction length generalizing start with
  | zero => simp [toBeBytes, Nat.mod_one]
  | succ length ih =>
    rw [toBeBytes, List.foldl_cons, ih, UInt8.toNat_ofNat']
    have hsplit : n % 256 ^ (length + 1) =
        n % 256 ^ length + 256 ^ length * (n / 256 ^ length % 256) := by
      rw [pow_succ, Nat.mod_mul]
    rw [hsplit, pow_succ]
    ring_nf

@[simp] theorem ofBeBytes_toBeBytes (length n : Nat) :
    ofBeBytes (toBeBytes length n) = n % 256 ^ length := by
  unfold ofBeBytes
  rw [foldl_toBeBytes, Nat.mul_zero, Nat.zero_add]

theorem toBeBytes_injective {length a b : Nat} (ha : a < 256 ^ length) (hb : b < 256 ^ length)
    (h : toBeBytes length a = toBeBytes length b) : a = b := by
  have hread := congrArg ofBeBytes h
  rwa [ofBeBytes_toBeBytes, ofBeBytes_toBeBytes, Nat.mod_eq_of_lt ha, Nat.mod_eq_of_lt hb] at hread

end DaygleDns.Framing
