import DaygleDns.Framing
import Mathlib.Data.List.Lex
import Mathlib.Order.Basic

/-! Names as their labels, from the first to the last, and their canonical order. -/
namespace DaygleDns

open Framing

def lowerByte (byte : UInt8) : UInt8 := if 65 ≤ byte ∧ byte ≤ 90 then byte + 32 else byte

abbrev WireName := List Bytes

namespace WireName

def toLowercase (name : WireName) : WireName := name.map fun label => label.map lowerByte

/-- The labels from the last to the first, each by its bytes. Names in lower case are in canonical order as
their keys are. -/
def canonicalKey (name : WireName) : List (List Nat) := (name.map fun label => label.map UInt8.toNat).reverse

theorem canonicalKey_snoc (front : WireName) (label : Bytes) :
    canonicalKey (front ++ [label]) = label.map UInt8.toNat :: canonicalKey front := by
  simp [canonicalKey]

theorem canonicalKey_injective : Function.Injective canonicalKey := by
  have hbytes : Function.Injective fun label : Bytes => label.map UInt8.toNat :=
    List.map_injective_iff.mpr fun _ _ => UInt8.toNat_inj.mp
  exact List.reverse_injective.comp (List.map_injective_iff.mpr hbytes)

theorem canonicalKey_nil_le (name : WireName) : canonicalKey [] ≤ canonicalKey name :=
  not_lt.mp (List.not_lt_nil _)

theorem canonicalKey_pos {name : WireName} (h : name ≠ []) : canonicalKey [] < canonicalKey name := by
  apply lt_of_le_of_ne (canonicalKey_nil_le name)
  intro hsame
  exact h (canonicalKey_injective hsame).symm

/-- A name comes before the names below it. -/
theorem canonicalKey_le_below (front : WireName) (label : Bytes) :
    canonicalKey [label] ≤ canonicalKey (front ++ [label]) := by
  rw [canonicalKey_snoc]
  exact List.cons_le_cons _ (canonicalKey_nil_le front)

/-- The names below a label come before the next label. -/
theorem canonicalKey_below_lt (front : WireName) {label next : Bytes} (h : canonicalKey [label] < canonicalKey [next]) :
    canonicalKey (front ++ [label]) < canonicalKey [next] := by
  have hsingle (label : Bytes) : canonicalKey [label] = [label.map UInt8.toNat] := rfl
  rw [hsingle, hsingle, List.cons_lt_cons_iff] at h
  rw [hsingle, canonicalKey_snoc, List.cons_lt_cons_iff]
  have hlabel : label.map UInt8.toNat < next.map UInt8.toNat := by
    rcases h with h | h
    · exact h
    · exact absurd h.2 (lt_irrefl _)
  exact .inl hlabel

end WireName

end DaygleDns
