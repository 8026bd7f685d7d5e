import DaygleDns.Fallible
import DaygleDns.TextFacts
import Mathlib.Data.Nat.Digits.Lemmas
import Mathlib.Tactic.IntervalCases

/-! Numbers that are spelled in one way only: decimals without leading zeros, and the digits
of a number of known length. -/
namespace DaygleDns.Text

theorem digit_cases {c : Char} (h : c.isDigit = true) : c ∈ "0123456789".toList := by
  have hbounds := isDigit_bounds h
  have hchar : c = Char.ofNat c.toNat := (Char.ofNat_toNat c).symm
  generalize c.toNat = n at hbounds hchar
  obtain ⟨hlow, hhigh⟩ := hbounds
  rw [hchar]
  interval_cases n <;> decide

theorem digitValue_lt {c : Char} (h : c.isDigit = true) : digitValue c < 10 ∧ (digitValue c).digitChar = c := by
  have hall : ∀ c ∈ "0123456789".toList, digitValue c < 10 ∧ (digitValue c).digitChar = c := by decide
  exact hall c (digit_cases h)

theorem digitValue_pos {c : Char} (h : c.isDigit = true) (hne : c ≠ '0') : 0 < digitValue c := by
  have hall : ∀ c ∈ "0123456789".toList, c ≠ '0' → 0 < digitValue c := by decide
  exact hall c (digit_cases h) hne

theorem length_le_utf8Len (s : Text) : s.length ≤ utf8Len s := by
  induction s with
  | nil => exact Nat.le_refl 0
  | cons c s ih =>
    have hpos := Char.utf8Size_pos c
    simp only [utf8Len, List.map_cons, List.sum_cons, List.length_cons] at ih ⊢
    omega

theorem utf8Len_of_digits {s : Text} (h : ∀ c ∈ s, c.isDigit = true) : utf8Len s = s.length := by
  have hall : ∀ c ∈ "0123456789".toList, c.utf8Size = 1 := by decide
  induction s with
  | nil => rfl
  | cons c s ih =>
    have hrest := ih fun d hd => h d (List.mem_cons_of_mem c hd)
    have hc := hall c (digit_cases (h c List.mem_cons_self))
    simp only [utf8Len, List.map_cons, List.sum_cons, List.length_cons] at hrest ⊢
    omega

theorem readDigits_concat (s : Text) (c : Char) : readDigits (s ++ [c]) = 10 * readDigits s + digitValue c := by
  rw [readDigits, List.foldl_append]
  rfl

theorem readDigits_pos {c : Char} (rest : Text) (hc : 0 < digitValue c) : 0 < readDigits (c :: rest) := by
  induction rest using List.reverseRecOn with
  | nil => simpa [readDigits] using hc
  | append_singleton rest d ih =>
    rw [← List.cons_append, readDigits_concat]
    omega

/-- Digits without a leading zero are the decimal of their value. -/
theorem ofNat_readDigits {s : Text} (hne : s ≠ []) (hdigits : ∀ c ∈ s, c.isDigit = true)
    (hlead : 1 < s.length → s.head? ≠ some '0') : ofNat (readDigits s) = s := by
  induction s using List.reverseRecOn with
  | nil => exact absurd rfl hne
  | append_singleton front c ih =>
    obtain ⟨hlt, hchar⟩ := digitValue_lt (hdigits c (by simp))
    rw [readDigits_concat, ofNat, Nat.toDigits_eq_if (by decide)]
    cases front with
    | nil => rw [if_pos (by simpa [readDigits] using hlt)]; simp [readDigits, hchar]
    | cons first rest =>
      have hfirst : first ≠ '0' := by
        intro h
        exact hlead (by simp) (by simp [h])
      have hpos := readDigits_pos rest (digitValue_pos (hdigits first (by simp)) hfirst)
      have hfront := ih (List.cons_ne_nil first rest) (fun d hd => hdigits d (List.mem_append_left _ hd))
        (fun _ => by simpa using hfirst)
      rw [if_neg (by omega), show (10 * readDigits (first :: rest) + digitValue c) / 10 = readDigits (first :: rest) by omega,
        show (10 * readDigits (first :: rest) + digitValue c) % 10 = digitValue c by omega, hchar]
      exact congrArg (· ++ [c]) hfront

theorem head_ofNat {n : Nat} (hpos : 0 < n) : (ofNat n).head? ≠ some '0' := by
  induction n using Nat.strong_induction_on with
  | _ n ih =>
    rw [ofNat, Nat.toDigits_eq_if (by decide)]
    split
    next hlt =>
      have hdigits : ∀ d < 10, 0 < d → d.digitChar ≠ '0' := by decide
      simpa using hdigits n hlt hpos
    next hle =>
      rw [List.head?_append_of_ne_nil _ (show Nat.toDigits 10 (n / 10) ≠ [] from ofNat_ne_nil (n / 10))]
      exact ih (n / 10) (by omega) (by omega)

theorem long_ofNat {n : Nat} (h : 1 < (ofNat n).length) : (ofNat n).head? ≠ some '0' := by
  apply head_ofNat
  apply Nat.pos_of_ne_zero
  rintro rfl
  exact absurd h (by decide)

/-- The lowest digits of a number, the lowest first. -/
def lowDigits (base count n : Nat) : List Nat := (List.range count).map fun i => n / base ^ i % base

theorem lowDigits_lt {base : Nat} (hbase : 0 < base) (count n : Nat) : ∀ d ∈ lowDigits base count n, d < base := by
  intro d hd
  obtain ⟨i, -, rfl⟩ := List.mem_map.mp hd
  exact Nat.mod_lt _ hbase

theorem lowDigits_succ (base count n : Nat) : lowDigits base (count + 1) n = n % base :: lowDigits base count (n / base) := by
  unfold lowDigits
  rw [List.range_succ_eq_map, List.map_cons, List.map_map, pow_zero, Nat.div_one]
  apply congrArg (n % base :: ·)
  apply List.map_congr_left
  intro i _
  rw [Function.comp_apply, pow_succ', Nat.div_div_eq_div_mul]

theorem ofDigits_lowDigits (base count n : Nat) : Nat.ofDigits base (lowDigits base count n) = n % base ^ count := by
  induction count generalizing n with
  | zero => simp [lowDigits, Nat.mod_one]
  | succ count ih =>
    rw [lowDigits_succ, Nat.ofDigits_cons, ih, pow_succ', Nat.mod_mul]

theorem lowDigits_ofDigits {base : Nat} (hbase : 1 < base) {digits : List Nat} (h : ∀ d ∈ digits, d < base) :
    lowDigits base digits.length (Nat.ofDigits base digits) = digits := by
  have hlength : (lowDigits base digits.length (Nat.ofDigits base digits)).length = digits.length := by simp [lowDigits]
  apply Nat.ofDigits_inj_of_len_eq hbase hlength _ h
  · rw [ofDigits_lowDigits, Nat.mod_eq_of_lt (Nat.ofDigits_lt_base_pow_length hbase h)]
  · exact lowDigits_lt (by omega) _ _

theorem lowDigits_toNat {base w : Nat} (hbase : 1 < base) {digits : List Nat} (h : ∀ d ∈ digits, d < base)
    (hw : base ^ digits.length = 2 ^ w) :
    lowDigits base digits.length (BitVec.ofNat w (Nat.ofDigits base digits)).toNat = digits := by
  have hlt := Nat.ofDigits_lt_base_pow_length hbase h
  rw [hw] at hlt
  rw [BitVec.toNat_ofNat, Nat.mod_eq_of_lt hlt, lowDigits_ofDigits hbase h]

theorem ofNat_lowDigits {base count w : Nat} (hw : base ^ count = 2 ^ w) (bits : BitVec w) :
    BitVec.ofNat w (Nat.ofDigits base (lowDigits base count bits.toNat)) = bits := by
  apply BitVec.eq_of_toNat_eq
  rw [BitVec.toNat_ofNat, ofDigits_lowDigits, hw, Nat.mod_mod, Nat.mod_eq_of_lt bits.isLt]

theorem foldl_reverse_eq_ofDigits (base : Nat) (digits : List Nat) :
    digits.reverse.foldl (fun value n => base * value + n) 0 = Nat.ofDigits base digits := by
  rw [List.foldl_reverse]
  induction digits with
  | nil => rfl
  | cons d digits ih => rw [List.foldr_cons, ih, Nat.ofDigits_cons, Nat.add_comm]

end DaygleDns.Text

namespace DaygleDns.Fallible

theorem exists_of_forall₂ {α β : Type} {R : α → β → Prop} {as : List α} {bs : List β} (h : List.Forall₂ R as bs) :
    (∀ a ∈ as, ∃ b ∈ bs, R a b) ∧ ∀ b ∈ bs, ∃ a ∈ as, R a b := by
  induction h with
  | nil => simp
  | cons hab _ ih =>
    simp only [List.forall_mem_cons, List.exists_mem_cons_iff]
    exact ⟨⟨.inl hab, fun a ha => .inr (ih.1 a ha)⟩, .inl hab, fun b hb => .inr (ih.2 b hb)⟩

theorem forall₂_of_exists {α β : Type} {R : α → β → Prop} {as : List α} (h : ∀ a ∈ as, ∃ b, R a b) :
    ∃ bs, List.Forall₂ R as bs := by
  induction as with
  | nil => exact ⟨[], .nil⟩
  | cons a as ih =>
    rw [List.forall_mem_cons] at h
    obtain ⟨b, hb⟩ := h.1
    obtain ⟨bs, hbs⟩ := ih h.2
    exact ⟨b :: bs, .cons hb hbs⟩

theorem mapM_eq_some {α β : Type} {step : α → Option β} {items : List α} {results : List β} :
    items.mapM step = some results ↔ List.Forall₂ (fun a b => step a = some b) items results := by
  induction items generalizing results with
  | nil =>
    rw [List.mapM_nil, List.forall₂_nil_left_iff]
    exact ⟨fun h => (Option.some.inj h).symm, fun h => by rw [h]; rfl⟩
  | cons a items ih =>
    rw [List.mapM_cons, List.forall₂_cons_left_iff]
    constructor
    · intro h
      obtain ⟨b, hb, h⟩ := Option.bind_eq_some_iff.mp h
      obtain ⟨rest, hrest, h⟩ := Option.bind_eq_some_iff.mp h
      cases h
      exact ⟨b, rest, hb, ih.mp hrest, rfl⟩
    · rintro ⟨b, rest, hb, hrest, rfl⟩
      rw [hb, ih.mpr hrest]
      rfl

end DaygleDns.Fallible
