import DaygleDns.Framing
import DaygleDns.Text
import Mathlib.Data.List.Infix

/-! Readers of bytes. A reader reads a value from its bytes when it takes just
these, whatever follows, and fails where they are cut short. -/
namespace DaygleDns.Reading

open Framing

abbrev Reader := StateT Bytes (Except Text)

variable {α β : Type}

structure Reads (reader : Reader α) (bytes : Bytes) (a : α) : Prop where
  whole : ∀ rest, reader (bytes ++ rest) = .ok (a, rest)
  cut : ∀ part, part <+: bytes → part ≠ bytes → ∃ e, reader part = .error e

theorem reads_pure (a : α) : Reads (pure a) [] a := by
  refine ⟨fun rest => rfl, fun part hlead hne => absurd (List.prefix_nil.mp hlead) hne⟩

/-- A prefix of two pieces ends in the first or in the second. -/
theorem prefix_append {part first second : Bytes} (h : part <+: first ++ second) :
    part <+: first ∨ ∃ later, part = first ++ later ∧ later <+: second := by
  rcases Nat.le_total part.length first.length with hle | hle
  · exact .inl (List.prefix_of_prefix_length_le h (List.prefix_append first second) hle)
  · obtain ⟨later, rfl⟩ := List.prefix_of_prefix_length_le (List.prefix_append first second) h hle
    exact .inr ⟨later, rfl, (List.prefix_append_right_inj first).mp h⟩

theorem reads_bind {reader : Reader α} {next : α → Reader β} {first second : Bytes} {a : α} {b : β}
    (h : Reads reader first a) (h' : Reads (next a) second b) : Reads (reader >>= next) (first ++ second) b := by
  have hrun (bytes : Bytes) :
      (reader >>= next) bytes =
        match reader bytes with
        | .ok (a, rest) => next a rest
        | .error e => .error e := by
    simp only [bind, StateT.bind, Except.bind]
    cases reader bytes <;> rfl
  constructor
  · intro rest
    rw [hrun, List.append_assoc, h.whole]
    exact h'.whole rest
  · intro part hlead hne
    rw [hrun]
    rcases prefix_append hlead with hfirst | ⟨later, rfl, hlater⟩
    · by_cases hwhole : part = first
      · subst hwhole
        have hread := h.whole []
        rw [List.append_nil] at hread
        rw [hread]
        apply h'.cut [] List.nil_prefix
        rintro rfl
        exact hne (List.append_nil part).symm
      · obtain ⟨e, herror⟩ := h.cut part hfirst hwhole
        rw [herror]
        exact ⟨e, rfl⟩
    · rw [h.whole]
      exact h'.cut later hlater fun hsame => hne (by rw [hsame])

/-- A reader that needs no more bytes. -/
theorem reads_bind_last {reader : Reader α} {next : α → Reader β} {bytes : Bytes} {a : α} {b : β}
    (h : Reads reader bytes a) (h' : Reads (next a) [] b) : Reads (reader >>= next) bytes b := by
  have hboth := reads_bind h h'
  rwa [List.append_nil] at hboth

theorem reads_map {reader : Reader α} {bytes : Bytes} {a : α} (f : α → β) (h : Reads reader bytes a) :
    Reads (f <$> reader) bytes (f a) := by
  have hpure : Reads (reader >>= fun a => pure (f a)) (bytes ++ []) (f a) := reads_bind h (reads_pure (f a))
  rw [List.append_nil, bind_pure_comp] at hpure
  exact hpure

/-- What one reader and then another have read. -/
theorem bind_eq_ok {reader : Reader α} {next : α → Reader β} {bytes rest : Bytes} {b : β} :
    (reader >>= next) bytes = .ok (b, rest) ↔
      ∃ a between, reader bytes = .ok (a, between) ∧ next a between = .ok (b, rest) := by
  simp only [bind, StateT.bind, Except.bind]
  cases reader bytes with
  | error e => simp
  | ok read =>
    constructor
    · exact fun h => ⟨read.1, read.2, rfl, h⟩
    · intro ⟨a, between, hread, h⟩
      cases hread
      exact h

def fail (e : Text) : Reader α := fun _ => .error e

/-- `read_slice`: so many bytes, or an error with this text. -/
def slice (short : Text) (n : Nat) : Reader Bytes := fun bytes =>
  if n ≤ bytes.length then .ok (bytes.take n, bytes.drop n) else .error short

theorem reads_slice (short : Text) (bytes : Bytes) : Reads (slice short bytes.length) bytes bytes := by
  constructor
  · intro rest
    simp [slice]
  · intro part hlead hne
    have hlength : part.length < bytes.length := by
      refine lt_of_le_of_ne hlead.length_le fun hsame => hne (hlead.eq_of_length hsame)
    exact ⟨short, if_neg (by omega)⟩

theorem slice_eq_ok {short : Text} {n : Nat} {bytes part rest : Bytes} :
    slice short n bytes = .ok (part, rest) ↔ part.length = n ∧ bytes = part ++ rest := by
  unfold slice
  split
  next hle =>
    constructor
    · intro h
      cases h
      exact ⟨List.length_take_of_le hle, (List.take_append_drop n bytes).symm⟩
    · intro ⟨hlength, hbytes⟩
      rw [hbytes, List.take_left' hlength, List.drop_left' hlength]
  next hlt =>
    constructor
    · exact nofun
    · intro ⟨hlength, hbytes⟩
      rw [hbytes, List.length_append] at hlt
      omega

/-- A number in so many bytes, the first of them the highest. -/
def be (short : Text) (length : Nat) : Reader Nat := ofBeBytes <$> slice short length

theorem reads_be (short : Text) {length n : Nat} (h : n < 256 ^ length) :
    Reads (be short length) (toBeBytes length n) n := by
  have hbytes := reads_map ofBeBytes (reads_slice short (toBeBytes length n))
  rw [length_toBeBytes, ofBeBytes_toBeBytes, Nat.mod_eq_of_lt h] at hbytes
  exact hbytes

/-- One value after the other. -/
def readMany (reader : Reader α) : Nat → Reader (List α)
  | 0 => pure []
  | n + 1 => do
      let a ← reader
      let rest ← readMany reader n
      return a :: rest

theorem reads_many {reader : Reader α} {encode : β → Bytes} {decoded : β → α} (items : List β)
    (h : ∀ item ∈ items, Reads reader (encode item) (decoded item)) :
    Reads (readMany reader items.length) (items.flatMap encode) (items.map decoded) := by
  induction items with
  | nil => exact reads_pure []
  | cons item rest ih =>
    have hrest := ih fun other hother => h other (List.mem_cons_of_mem _ hother)
    exact reads_bind (h item List.mem_cons_self) (reads_map (decoded item :: ·) hrest)

/-- Every value that the reader reads is good. -/
structure Yields (reader : Reader α) (good : α → Prop) : Prop where
  value : ∀ bytes a rest, reader bytes = .ok (a, rest) → good a

theorem yields_any (reader : Reader α) : Yields reader fun _ => True := ⟨fun _ _ _ _ => trivial⟩

theorem yields_pure {good : α → Prop} {a : α} (h : good a) : Yields (pure a) good := by
  constructor
  intro bytes b rest hread
  cases hread
  exact h

theorem yields_bind {reader : Reader α} {next : α → Reader β} {first : α → Prop} {good : β → Prop}
    (h : Yields reader first) (hnext : ∀ a, first a → Yields (next a) good) : Yields (reader >>= next) good := by
  constructor
  intro bytes b rest hread
  have ⟨a, between, hfirst, hsecond⟩ := bind_eq_ok.mp hread
  exact (hnext a (h.value _ _ _ hfirst)).value _ _ _ hsecond

theorem yields_many {reader : Reader α} {good : α → Prop} (h : Yields reader good) (n : Nat) :
    Yields (readMany reader n) fun items => items.length = n ∧ ∀ item ∈ items, good item := by
  induction n with
  | zero => exact yields_pure ⟨rfl, by simp⟩
  | succ n ih =>
    apply yields_bind h
    intro a ha
    apply yields_bind ih
    intro items hitems
    apply yields_pure
    exact ⟨by simp [hitems.1], by simpa [ha] using hitems.2⟩

end DaygleDns.Reading
