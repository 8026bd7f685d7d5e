import DaygleDns.Dhcp.V6Facts
import Mathlib.Data.Nat.ModEq

/-! The search for a free DHCPv6 address, in the arithmetic of the code: 128 bits, where
a sum that does not fit is a panic. -/
namespace DaygleDns.Dhcp.V6

open Text

/-- `u128::checked_sub` -/
def checkedSub (a b : Nat) : Option Nat := if b ≤ a then some (a - b) else none

/-- `u128::saturating_add` -/
def saturatingAdd (a b : Nat) : Nat := min (a + b) (2 ^ 128 - 1)

/-- `+` on `u128`; nothing where it overflows. -/
def plainAdd (a b : Nat) : Option Nat := if a + b < 2 ^ 128 then some (a + b) else none

/-- `%` on `u128`; nothing where it divides by zero. -/
def remainder (a b : Nat) : Option Nat := if b = 0 then none else some (a % b)

/-- The address that is tried after `i` others. -/
def probe (start size base i : Nat) : Option Ipv6Addr := do
  let address ← plainAdd start (← remainder (← plainAdd base i) size)
  return BitVec.ofNat 128 address

/-- The addresses that the scan of a range tries; nothing where it panics. -/
def scan (start last : Nat) (id : Text) : Option (List Ipv6Addr) :=
  match checkedSub last start with
  | none => some []
  | some width => do
      let size := saturatingAdd width 1
      let base ← remainder (spread id) size
      (List.range (min size PROBES)).mapM (probe start size base)

variable {ctx : Context} {leases : Leases} {duid id : Text} {first : Bool} {asked : List Ipv6Addr}
  {start last : Ipv6Addr} {size base i j : Nat}

theorem spread_lt (id : Text) : spread id < 2 ^ 64 := UInt64.toNat_lt _

theorem mapM_some_of_forall {α β : Type} {step : α → Option β} {f : α → β} {items : List α}
    (h : ∀ item ∈ items, step item = some (f item)) : items.mapM step = some (items.map f) := by
  induction items with
  | nil => rfl
  | cons item items ih =>
    rw [List.mapM_cons, h item List.mem_cons_self, ih fun other hother => h other (List.mem_cons_of_mem _ hother)]
    rfl

/-- No sum overflows: the hash has 64 bits, and the remainder stays below the size. -/
theorem probe_eq (hsize : 0 < size) (hfits : start.toNat + size ≤ 2 ^ 128) (hbase : base < 2 ^ 64) (hi : i < PROBES) :
    probe start.toNat size base i = some (BitVec.ofNat 128 (start.toNat + (base + i) % size)) := by
  have hoffset : (base + i) % size < size := Nat.mod_lt _ hsize
  have hsum : base + i < 2 ^ 128 := by
    unfold PROBES at hi
    omega
  have haddress : start.toNat + (base + i) % size < 2 ^ 128 := by omega
  have hfirst : plainAdd base i = some (base + i) := if_pos hsum
  have hsecond : remainder (base + i) size = some ((base + i) % size) := if_neg hsize.ne'
  have hthird : plainAdd start.toNat ((base + i) % size) = some (start.toNat + (base + i) % size) := if_pos haddress
  simp [probe, hfirst, hsecond, hthird]

theorem scan_eq (hrange : ctx.scope.range = some (start, last)) :
    scan start.toNat last.toNat id = some (probed ctx.scope id) := by
  unfold scan probed
  rw [hrange]
  by_cases hempty : last.toNat < start.toNat
  · have hsub : checkedSub last.toNat start.toNat = none := if_neg (by omega)
    simp [hsub, hempty]
  · have hsub : checkedSub last.toNat start.toNat = some (last.toNat - start.toNat) := if_pos (by omega)
    have hlast := last.isLt
    simp only [hsub, if_neg hempty, saturatingAdd]
    have hsize : 0 < min (last.toNat - start.toNat + 1) (2 ^ 128 - 1) := by omega
    have hrem : remainder (spread id) (min (last.toNat - start.toNat + 1) (2 ^ 128 - 1)) =
        some (spread id % min (last.toNat - start.toNat + 1) (2 ^ 128 - 1)) := if_neg hsize.ne'
    rw [hrem]
    apply mapM_some_of_forall
    intro i hi
    have hlow := spread_lt id
    have hbase := Nat.mod_le (spread id) (min (last.toNat - start.toNat + 1) (2 ^ 128 - 1))
    have hbelow := List.mem_range.mp hi
    exact probe_eq hsize (by omega) (by omega) (by omega)

/-- The walk stays in the range. -/
theorem probed_in_range {ip : Ipv6Addr} (hrange : ctx.scope.range = some (start, last)) (h : ip ∈ probed ctx.scope id) :
    start.toNat ≤ ip.toNat ∧ ip.toNat ≤ last.toNat := by
  unfold probed at h
  rw [hrange] at h
  simp only at h
  split at h
  · cases h
  next hempty =>
    obtain ⟨i, hi, rfl⟩ := List.mem_map.mp h
    have hlast := last.isLt
    have hoffset := Nat.mod_lt (spread id % min (last.toNat - start.toNat + 1) (2 ^ 128 - 1) + i)
      (show 0 < min (last.toNat - start.toNat + 1) (2 ^ 128 - 1) by omega)
    rw [BitVec.toNat_ofNat, Nat.mod_eq_of_lt (by omega)]
    omega

/-- Steps below the size of the ring lead to different places. -/
theorem ring_injective (hi : i < size) (hj : j < size) (h : (base + i) % size = (base + j) % size) : i = j := by
  have hmod : i ≡ j [MOD size] := Nat.ModEq.add_left_cancel' base h
  rwa [Nat.ModEq, Nat.mod_eq_of_lt hi, Nat.mod_eq_of_lt hj] at hmod

theorem probed_nodup (scope : Dhcp6Scope) (id : Text) : (probed scope id).Nodup := by
  unfold probed
  split
  · exact List.nodup_nil
  next start last _ =>
    split
    · exact List.nodup_nil
    next hempty =>
      have hlast := last.isLt
      have hfits : start.toNat + min (last.toNat - start.toNat + 1) (2 ^ 128 - 1) ≤ 2 ^ 128 := by omega
      have hsize : 0 < min (last.toNat - start.toNat + 1) (2 ^ 128 - 1) := by omega
      generalize min (last.toNat - start.toNat + 1) (2 ^ 128 - 1) = size at hfits hsize ⊢
      simp only
      apply List.Nodup.map_on _ List.nodup_range
      intro i hi j hj hsame
      have hi := List.mem_range.mp hi
      have hj := List.mem_range.mp hj
      have hfirst : (spread id % size + i) % size < size := Nat.mod_lt _ hsize
      have hsecond : (spread id % size + j) % size < size := Nat.mod_lt _ hsize
      have hlow : start.toNat + (spread id % size + i) % size < 2 ^ 128 := by omega
      have hhigh : start.toNat + (spread id % size + j) % size < 2 ^ 128 := by omega
      have hsame := congrArg BitVec.toNat hsame
      rw [BitVec.toNat_ofNat, BitVec.toNat_ofNat, Nat.mod_eq_of_lt hlow, Nat.mod_eq_of_lt hhigh] at hsame
      exact ring_injective (by omega) (by omega) (Nat.add_left_cancel hsame)

/-- A walk of as many steps as the ring is long comes to every place. -/
theorem exists_step (base : Nat) (hsize : 0 < size) (hj : j < size) : ∃ i < size, (base + i) % size = j := by
  refine ⟨(j + (size - base % size)) % size, Nat.mod_lt _ hsize, ?_⟩
  have hbase := Nat.mod_lt base hsize
  rw [Nat.add_mod, Nat.mod_mod, ← Nat.add_mod, ← Nat.mod_add_mod]
  have hsum : base % size + (j + (size - base % size)) = j + size := by omega
  rw [hsum, Nat.add_mod_right, Nat.mod_eq_of_lt hj]

/-- A range of no more addresses than are tried is tried whole. -/
theorem mem_probed (id : Text) {ip : Ipv6Addr} (hrange : ctx.scope.range = some (start, last))
    (hsmall : last.toNat - start.toNat + 1 ≤ PROBES) (hstart : start.toNat ≤ ip.toNat) (hlast : ip.toNat ≤ last.toNat) :
    ip ∈ probed ctx.scope id := by
  unfold probed
  rw [hrange]
  have hbits := ip.isLt
  simp only [if_neg (show ¬ last.toNat < start.toNat by omega)]
  have hsize : min (last.toNat - start.toNat + 1) (2 ^ 128 - 1) = last.toNat - start.toNat + 1 := by
    unfold PROBES at hsmall
    omega
  rw [hsize, Nat.min_eq_left hsmall]
  obtain ⟨i, hi, hoffset⟩ := exists_step (spread id % (last.toNat - start.toNat + 1))
    (show 0 < last.toNat - start.toNat + 1 by omega) (show ip.toNat - start.toNat < _ by omega)
  refine List.mem_map.mpr ⟨i, List.mem_range.mpr hi, ?_⟩
  rw [hoffset]
  apply BitVec.eq_of_toNat_eq
  rw [BitVec.toNat_ofNat, Nat.mod_eq_of_lt (by omega)]
  omega

/-- The search for an address for one association. -/
structure Searches (ctx : Context) (leases : Leases) (duid id : Text) (first : Bool) (asked : List Ipv6Addr) : Prop where
  /-- No step of the scan overflows, underflows or divides by zero. -/
  total : ∀ start last, ctx.scope.range = some (start, last) →
    scan start.toNat last.toNat id = some (probed ctx.scope id)
  usable : ∀ ip, choose ctx leases duid id first asked = some ip → usable ctx leases ip duid id
  distinct : (probed ctx.scope id).Nodup
  inRange : ∀ ip ∈ probed ctx.scope id, ∃ start last, ctx.scope.range = some (start, last) ∧
    start.toNat ≤ ip.toNat ∧ ip.toNat ≤ last.toNat
  complete : ∀ start last, ctx.scope.range = some (start, last) → last.toNat - start.toNat + 1 ≤ PROBES →
    ∀ ip, start.toNat ≤ ip.toNat → ip.toNat ≤ last.toNat → V6.usable ctx leases ip duid id →
      (choose ctx leases duid id first asked).isSome

theorem choose_searches (ctx : Context) (leases : Leases) (duid id : Text) (first : Bool) (asked : List Ipv6Addr) :
    Searches ctx leases duid id first asked where
  total start last hrange := scan_eq hrange
  usable ip h := usable_of_choose h
  distinct := probed_nodup ctx.scope id
  inRange ip h := by
    cases hrange : ctx.scope.range with
    | none =>
      unfold probed at h
      rw [hrange] at h
      cases h
    | some range => exact ⟨range.1, range.2, rfl, probed_in_range hrange h⟩
  complete start last hrange hsmall ip hstart hlast husable := by
    have hmem := mem_probed id hrange hsmall hstart hlast
    have hfound : ((probed ctx.scope id).find? fun ip => V6.usable ctx leases ip duid id).isSome :=
      List.find?_isSome.mpr ⟨ip, hmem, husable⟩
    simp [choose, hfound]

end DaygleDns.Dhcp.V6
