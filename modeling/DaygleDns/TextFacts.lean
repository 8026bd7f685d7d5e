import DaygleDns.Text

/-! Words and blanks: how trimming, splitting at whitespace and splitting into
lines go over the parts that a text is put together from. -/
namespace DaygleDns.Text

/-- Whitespace only. -/
def Blank (s : Text) : Prop := ∀ c ∈ s, isWhitespace c = true

/-- No whitespace. -/
def Solid (s : Text) : Prop := ∀ c ∈ s, isWhitespace c = false

instance (s : Text) : Decidable (Blank s) := inferInstanceAs (Decidable (∀ c ∈ s, _))

instance (s : Text) : Decidable (Solid s) := inferInstanceAs (Decidable (∀ c ∈ s, _))

/-- The text begins with something else than whitespace. -/
def Flush (s : Text) : Prop := ∃ c rest, s = c :: rest ∧ isWhitespace c = false

theorem blank_nil : Blank [] := fun _ h => absurd h List.not_mem_nil

theorem Blank.append {a b : Text} (ha : Blank a) (hb : Blank b) : Blank (a ++ b) := by
  intro c hc
  exact (List.mem_append.mp hc).elim (ha c) (hb c)

theorem Solid.append {a b : Text} (ha : Solid a) (hb : Solid b) : Solid (a ++ b) := by
  intro c hc
  exact (List.mem_append.mp hc).elim (ha c) (hb c)

theorem Solid.flush {s : Text} (h : Solid s) (hne : s ≠ []) : Flush s := by
  cases s with
  | nil => exact absurd rfl hne
  | cons c rest => exact ⟨c, rest, rfl, h c List.mem_cons_self⟩

theorem Flush.initial {a s : Text} (h : Flush s) (ha : a <+: s) (hne : a ≠ []) : Flush a := by
  obtain ⟨b, rfl⟩ := ha
  obtain ⟨c, rest, hs, hc⟩ := h
  cases a with
  | nil => exact absurd rfl hne
  | cons d a =>
    rw [List.cons_append] at hs
    cases hs
    exact ⟨c, a, rfl, hc⟩

theorem Flush.append {a : Text} (h : Flush a) (b : Text) : Flush (a ++ b) := by
  obtain ⟨c, rest, rfl, hc⟩ := h
  exact ⟨c, rest ++ b, rfl, hc⟩

/-! Trimming. -/

theorem trimStart_of_flush {s : Text} (h : Flush s) : trimStart s = s := by
  obtain ⟨c, rest, rfl, hc⟩ := h
  simp [trimStart, hc]

theorem trimStart_blank_append {a : Text} (h : Blank a) (b : Text) :
    trimStart (a ++ b) = trimStart b :=
  List.dropWhile_append_of_pos h

/-- What is left of a text that is trimmed at its start. -/
theorem trimStart_cases (s : Text) :
    (Blank s ∧ trimStart s = []) ∨ ∃ a, Blank a ∧ s = a ++ trimStart s ∧ Flush (trimStart s) := by
  induction s with
  | nil => exact .inl ⟨blank_nil, rfl⟩
  | cons c rest ih =>
    cases hc : isWhitespace c with
    | false =>
      have hflush : Flush (c :: rest) := ⟨c, rest, rfl, hc⟩
      right
      rw [trimStart_of_flush hflush]
      exact ⟨[], blank_nil, rfl, hflush⟩
    | true =>
      have hcons : trimStart (c :: rest) = trimStart rest := by simp [trimStart, hc]
      rw [hcons]
      rcases ih with ⟨hblank, hnil⟩ | ⟨a, hblank, hrest, hflush⟩
      · left
        refine ⟨?_, hnil⟩
        intro d hd
        exact (List.mem_cons.mp hd).elim (fun h => h ▸ hc) (hblank d)
      · right
        refine ⟨c :: a, ?_, congrArg (c :: ·) hrest, hflush⟩
        intro d hd
        exact (List.mem_cons.mp hd).elim (fun h => h ▸ hc) (hblank d)

@[simp] theorem trimEnd_nil : trimEnd [] = [] := rfl

@[simp] theorem trimEnd_trimEnd (s : Text) : trimEnd (trimEnd s) = trimEnd s :=
  List.rdropWhile_idempotent isWhitespace s

theorem trimEnd_concat (s : Text) (c : Char) :
    trimEnd (s ++ [c]) = if isWhitespace c then trimEnd s else s ++ [c] :=
  List.rdropWhile_concat isWhitespace s c

theorem rdropWhile_append (p : Char → Bool) (a b : Text) :
    (a ++ b).rdropWhile p = if b.rdropWhile p = [] then a.rdropWhile p else a ++ b.rdropWhile p := by
  induction b using List.reverseRecOn with
  | nil => simp
  | append_singleton b c ih =>
    rw [← List.append_assoc, List.rdropWhile_concat, List.rdropWhile_concat]
    cases hc : p c with
    | true => simpa using ih
    | false => simp

theorem trimEnd_append (a b : Text) :
    trimEnd (a ++ b) = if trimEnd b = [] then trimEnd a else a ++ trimEnd b :=
  rdropWhile_append isWhitespace a b

theorem trimEndMatches_append_of_ne {c : Char} {b : Text} (a : Text)
    (h : trimEndMatches c b ≠ []) : trimEndMatches c (a ++ b) = a ++ trimEndMatches c b := by
  unfold trimEndMatches at h ⊢
  rw [rdropWhile_append, if_neg h]

theorem trimEndMatches_concat (c : Char) (s : Text) :
    trimEndMatches c (s ++ [c]) = trimEndMatches c s :=
  List.rdropWhile_concat_pos _ s c (beq_self_eq_true c)

theorem trimEndMatches_of_last {c : Char} {s : Text} (h : s.getLast? ≠ some c) :
    trimEndMatches c s = s := by
  apply List.rdropWhile_eq_self_iff.mpr
  intro hne hlast
  apply h
  rw [List.getLast?_eq_some_getLast hne, beq_iff_eq.mp hlast]

theorem getLast?_trimEndMatches (c : Char) (s : Text) : (trimEndMatches c s).getLast? ≠ some c := by
  intro h
  have hne : trimEndMatches c s ≠ [] := by
    intro hnil
    rw [hnil] at h
    cases h
  apply List.rdropWhile_last_not _ _ hne
  rw [List.getLast?_eq_some_getLast hne] at h
  exact beq_iff_eq.mpr (Option.some.inj h)

theorem trimEnd_eq_nil {s : Text} : trimEnd s = [] ↔ Blank s := List.rdropWhile_eq_nil_iff

theorem trimEnd_append_blank (a : Text) {b : Text} (h : Blank b) :
    trimEnd (a ++ b) = trimEnd a := by
  rw [trimEnd_append, if_pos (trimEnd_eq_nil.mpr h)]

theorem trimEnd_append_of_ne {b : Text} (a : Text) (h : trimEnd b ≠ []) :
    trimEnd (a ++ b) = a ++ trimEnd b := by
  rw [trimEnd_append, if_neg h]

theorem Solid.trimEnd {s : Text} (h : Solid s) : trimEnd s = s := by
  apply List.rdropWhile_eq_self_iff.mpr
  intro hne
  simp [h _ (List.getLast_mem hne)]

theorem trimEnd_leads (s : Text) : trimEnd s <+: s := List.rdropWhile_prefix isWhitespace s

theorem trimEnd_subset (s : Text) : trimEnd s ⊆ s := (trimEnd_leads s).subset

theorem trimStart_subset (s : Text) : trimStart s ⊆ s :=
  (List.dropWhile_suffix isWhitespace).subset

theorem trim_subset (s : Text) : trim s ⊆ s := fun _ h => trimStart_subset s (trimEnd_subset _ h)

theorem length_trim_le (s : Text) : (trim s).length ≤ s.length :=
  (trimEnd_leads (trimStart s)).length_le.trans (List.dropWhile_suffix isWhitespace).length_le

theorem not_blank_of_flush {s : Text} (h : Flush s) : ¬ Blank s := by
  intro hblank
  obtain ⟨c, rest, rfl, hc⟩ := h
  rw [hblank c List.mem_cons_self] at hc
  cases hc

theorem Flush.trimEnd {s : Text} (h : Flush s) : Flush (trimEnd s) := by
  obtain ⟨c, rest, rfl, hc⟩ := h
  have hword : Solid [c] := fun d hd => List.mem_singleton.mp hd ▸ hc
  change Flush (Text.trimEnd ([c] ++ rest))
  rw [trimEnd_append]
  split
  · rw [hword.trimEnd]
    exact hword.flush (List.cons_ne_nil _ _)
  · exact (hword.flush (List.cons_ne_nil _ _)).append _

theorem trim_trimEnd (s : Text) : trim (trimEnd s) = trim s := by
  unfold trim
  rcases trimStart_cases s with ⟨hblank, hnil⟩ | ⟨a, hblank, hs, hflush⟩
  · rw [trimEnd_eq_nil.mpr hblank, hnil]
    rfl
  · have hne : trimEnd (trimStart s) ≠ [] :=
      fun h => not_blank_of_flush hflush (trimEnd_eq_nil.mp h)
    have hend : trimEnd s = a ++ trimEnd (trimStart s) := by
      rw [← trimEnd_append_of_ne a hne, ← hs]
    rw [hend, trimStart_blank_append hblank, trimStart_of_flush hflush.trimEnd, trimEnd_trimEnd]

@[simp] theorem trim_trim (s : Text) : trim (trim s) = trim s := by
  rcases trimStart_cases s with ⟨_, hnil⟩ | ⟨_, _, _, hflush⟩
  · unfold trim
    rw [hnil]
    rfl
  · have htrim : trim s = trimEnd (trimStart s) := rfl
    rw [htrim, trim_trimEnd]
    unfold trim
    rw [trimStart_of_flush hflush]

theorem trim_eq_nil {s : Text} : trim s = [] ↔ Blank s := by
  unfold trim
  rw [trimEnd_eq_nil]
  rcases trimStart_cases s with ⟨hblank, hnil⟩ | ⟨a, hblank, hs, hflush⟩
  · rw [hnil]
    exact ⟨fun _ => hblank, fun _ => blank_nil⟩
  · constructor
    · exact fun h => absurd h (not_blank_of_flush hflush)
    · intro h
      exact fun c hc => h c (trimStart_subset s hc)

theorem Solid.trim {s : Text} (h : Solid s) : trim s = s := by
  cases s with
  | nil => rfl
  | cons c rest =>
    unfold Text.trim
    rw [trimStart_of_flush (h.flush (List.cons_ne_nil _ _)), h.trimEnd]

theorem trim_nil_or_flush (s : Text) : trim s = [] ∨ Flush (trim s) := by
  unfold trim
  rcases trimStart_cases s with ⟨_, hnil⟩ | ⟨_, _, _, hflush⟩
  · rw [hnil]
    exact .inl rfl
  · exact .inr hflush.trimEnd

theorem trim_of_flush {s : Text} (h : Flush s) : trim s = trimEnd s := by
  unfold trim
  rw [trimStart_of_flush h]

/-- A character that is not whitespace stays. -/
theorem mem_trim {s : Text} {c : Char} (hc : isWhitespace c = false) : c ∈ trim s ↔ c ∈ s := by
  refine ⟨fun h => trim_subset s h, fun h => ?_⟩
  have hstart : c ∈ trimStart s := by
    rw [← List.takeWhile_append_dropWhile (p := isWhitespace) (l := s), List.mem_append] at h
    apply h.resolve_left
    intro htaken
    rw [List.mem_takeWhile_imp htaken] at hc
    cases hc
  rw [← List.rdropWhile_append_rtakeWhile (p := isWhitespace) (l := trimStart s),
    List.mem_append] at hstart
  apply hstart.resolve_right
  intro htaken
  rw [List.mem_rtakeWhile_imp htaken] at hc
  cases hc

/-- The number of characters that are not whitespace. -/
def inked (s : Text) : Nat := s.countP fun c => !isWhitespace c

@[simp] theorem inked_append (a b : Text) : inked (a ++ b) = inked a + inked b :=
  List.countP_append

theorem Blank.inked {s : Text} (h : Blank s) : inked s = 0 := by
  apply List.countP_eq_zero.mpr
  intro c hc
  simp [h c hc]

theorem Flush.inked_pos {s : Text} (h : Flush s) : 0 < inked s := by
  obtain ⟨c, rest, rfl, hc⟩ := h
  apply List.countP_pos_iff.mpr
  exact ⟨c, List.mem_cons_self, by simp [hc]⟩

@[simp] theorem inked_trimEnd (s : Text) : inked (trimEnd s) = inked s := by
  induction s using List.reverseRecOn with
  | nil => rfl
  | append_singleton s c ih =>
    rw [trimEnd_concat]
    cases hc : isWhitespace c with
    | false => simp
    | true =>
      have hblank : Blank [c] := fun d hd => List.mem_singleton.mp hd ▸ hc
      simp [ih, hblank.inked]

@[simp] theorem inked_trim (s : Text) : inked (trim s) = inked s := by
  unfold trim
  rw [inked_trimEnd]
  rcases trimStart_cases s with ⟨hblank, hnil⟩ | ⟨a, hblank, hs, _⟩
  · rw [hnil, hblank.inked]
    rfl
  · conv => rhs; rw [hs, inked_append, hblank.inked, Nat.zero_add]

/-! Splitting. -/

theorem splitOnceWhitespace_word {word : Text} (h : Solid word) {c : Char}
    (hc : isWhitespace c = true) (rest : Text) :
    splitOnceWhitespace (word ++ c :: rest) = some (word, rest) := by
  induction word with
  | nil => simp [splitOnceWhitespace, hc]
  | cons d word ih =>
    have hd := h d List.mem_cons_self
    have hword : Solid word := fun e he => h e (List.mem_cons_of_mem _ he)
    simp [splitOnceWhitespace, hd, ih hword]

theorem splitOnceWhitespace_solid {word : Text} (h : Solid word) :
    splitOnceWhitespace word = none := by
  induction word with
  | nil => rfl
  | cons d word ih =>
    have hd := h d List.mem_cons_self
    have hword : Solid word := fun e he => h e (List.mem_cons_of_mem _ he)
    simp [splitOnceWhitespace, hd, ih hword]

theorem splitOnceWhitespace_eq_some {s first rest : Text}
    (h : splitOnceWhitespace s = some (first, rest)) :
    ∃ c, isWhitespace c = true ∧ s = first ++ c :: rest := by
  induction s generalizing first rest with
  | nil => cases h
  | cons d s ih =>
    rw [splitOnceWhitespace] at h
    cases hd : isWhitespace d with
    | true =>
      rw [hd, if_pos rfl] at h
      cases h
      exact ⟨d, hd, rfl⟩
    | false =>
      rw [hd, if_neg Bool.false_ne_true] at h
      obtain ⟨⟨before, after⟩, hsplit, heq⟩ := Option.map_eq_some_iff.mp h
      cases heq
      obtain ⟨c, hc, hs⟩ := ih hsplit
      exact ⟨c, hc, congrArg (d :: ·) hs⟩

/-! Lines. -/

theorem splitInclusive_line {a : Text} (h : '\n' ∉ a) (rest : Text) :
    splitInclusive (a ++ '\n' :: rest) = (a ++ ['\n']) :: splitInclusive rest := by
  induction a with
  | nil => simp [splitInclusive]
  | cons c a ih =>
    have hc : c ≠ '\n' := fun hc => h (hc ▸ List.mem_cons_self)
    have ha : '\n' ∉ a := fun ha => h (List.mem_cons_of_mem _ ha)
    simp [splitInclusive, hc, ih ha]

/-- A line without the carriage return at its end. -/
def chomp (line : Text) : Text := (stripSuffix ['\r'] line).getD line

theorem stripSuffix_append (a tail : Text) : stripSuffix tail (a ++ tail) = some a := by
  simp [stripSuffix]

theorem lines_line {a : Text} (h : '\n' ∉ a) (rest : Text) :
    lines (a ++ '\n' :: rest) = chomp a :: lines rest := by
  unfold lines
  rw [splitInclusive_line h, List.map_cons]
  unfold stripLineEnd
  rw [stripSuffix_append]
  rfl

theorem chomp_cases (line : Text) : chomp line = line ∨ line = chomp line ++ ['\r'] := by
  unfold chomp stripSuffix
  split
  next hsuffix =>
    right
    obtain ⟨a, rfl⟩ := List.isSuffixOf_iff_suffix.mp hsuffix
    simp
  next => exact .inl rfl

theorem stripPrefix_eq_some {lead s rest : Text} :
    stripPrefix lead s = some rest ↔ s = lead ++ rest := by
  unfold stripPrefix
  split
  next h =>
    obtain ⟨tail, rfl⟩ := List.isPrefixOf_iff_prefix.mp h
    simp
  next h =>
    constructor
    · exact nofun
    · intro hs
      exact absurd (List.isPrefixOf_iff_prefix.mpr ⟨rest, hs.symm⟩) h

theorem stripSuffix_eq_some {tail s lead : Text} : stripSuffix tail s = some lead ↔ s = lead ++ tail := by
  constructor
  · intro h
    unfold stripSuffix at h
    split at h
    next hsuffix =>
      obtain ⟨front, rfl⟩ := List.isSuffixOf_iff_suffix.mp hsuffix
      simp only [List.length_append, Nat.add_sub_cancel, List.take_left', Option.some.injEq] at h
      rw [← h]
    next => cases h
  · rintro rfl
    exact stripSuffix_append lead tail

theorem splitInclusive_ends {s line : Text} (h : line ∈ splitInclusive s) :
    ∃ a, '\n' ∉ a ∧ (line = a ∨ line = a ++ ['\n']) := by
  induction s generalizing line with
  | nil => cases h
  | cons c s ih =>
    rw [splitInclusive] at h
    split at h
    next hc =>
      rcases List.mem_cons.mp h with rfl | h
      · refine ⟨[], List.not_mem_nil, .inr ?_⟩
        rw [beq_iff_eq.mp hc]
        rfl
      · exact ih h
    next hc =>
      have hne : '\n' ≠ c := fun heq => hc (beq_iff_eq.mpr heq.symm)
      cases hrest : splitInclusive s with
      | nil =>
        rw [hrest] at h
        refine ⟨[c], ?_, .inl (List.mem_singleton.mp h)⟩
        simpa using hne
      | cons first more =>
        rw [hrest] at h ih
        rcases List.mem_cons.mp h with rfl | h
        · obtain ⟨a, ha, hfirst⟩ := ih List.mem_cons_self
          refine ⟨c :: a, ?_, ?_⟩
          · simp [hne, ha]
          · exact hfirst.imp (congrArg (c :: ·)) (congrArg (c :: ·))
        · exact ih (List.mem_cons_of_mem _ h)

/-- No line holds a line feed. -/
theorem not_mem_lines {s line : Text} (h : line ∈ lines s) : '\n' ∉ line := by
  obtain ⟨piece, hpiece, rfl⟩ := List.mem_map.mp h
  obtain ⟨a, ha, hends⟩ := splitInclusive_ends hpiece
  have hchomp : '\n' ∉ chomp a := by
    rcases chomp_cases a with hsame | hsame
    · rwa [hsame]
    · intro hmem
      apply ha
      rw [hsame]
      exact List.mem_append_left _ hmem
  unfold stripLineEnd
  rcases hends with rfl | rfl
  · have hnone : stripSuffix ['\n'] piece = none := by
      unfold stripSuffix
      split
      next hsuffix =>
        obtain ⟨b, rfl⟩ := List.isSuffixOf_iff_suffix.mp hsuffix
        simp at ha
      next => rfl
    rwa [hnone]
  · rw [stripSuffix_append]
    exact hchomp

/-! Case. -/

/-- Only the letters from `A` to `Z` change, and become ones from `a` to `z`. -/
theorem toLower_cases (c : Char) : c.toLower = c ∨
    65 ≤ c.toNat ∧ c.toNat ≤ 90 ∧ c.toLower.toNat = c.toNat + 32 := by
  unfold Char.toLower
  split
  next h =>
    right
    simp only [ge_iff_le, UInt32.le_iff_toNat_le] at h
    refine ⟨h.1, h.2, ?_⟩
    change (c.val + 32).toNat = c.val.toNat + 32
    have hhigh : c.val.toNat ≤ 90 := h.2
    rw [UInt32.toNat_add, Nat.mod_eq_of_lt]
    · rfl
    · change c.val.toNat + 32 < 2 ^ 32
      omega
  next => exact .inl rfl

theorem toLower_toLower (c : Char) : c.toLower.toLower = c.toLower := by
  rcases toLower_cases c with h | ⟨hlow, hhigh, hlower⟩
  · rw [h, h]
  · rcases toLower_cases c.toLower with h | ⟨_, hhigh', _⟩
    · exact h
    · omega

theorem isWhitespace_toLower (c : Char) : isWhitespace c.toLower = isWhitespace c := by
  rcases toLower_cases c with h | ⟨hlow, hhigh, hlower⟩
  · rw [h]
  · unfold isWhitespace
    rw [hlower, Bool.eq_iff_iff]
    simp only [Bool.or_eq_true, Bool.and_eq_true, decide_eq_true_eq, beq_iff_eq]
    omega

theorem Flush.toAsciiLowercase {s : Text} (h : Flush s) : Flush (toAsciiLowercase s) := by
  obtain ⟨c, rest, rfl, hc⟩ := h
  exact ⟨c.toLower, rest.map Char.toLower, rfl, by rw [isWhitespace_toLower, hc]⟩

theorem toLower_eq_dot {c : Char} : c.toLower = '.' ↔ c = '.' := by
  rcases toLower_cases c with h | ⟨hlow, hhigh, hlower⟩
  · rw [h]
  · constructor
    · intro hdot
      rw [hdot] at hlower
      simp only [show ('.' : Char).toNat = 46 from rfl] at hlower
      omega
    · rintro rfl
      simp at hlow

theorem dropWhile_lower {p : Char → Bool} (h : ∀ c : Char, p c.toLower = p c) (s : Text) :
    (toAsciiLowercase s).dropWhile p = toAsciiLowercase (s.dropWhile p) := by
  have hsame : p ∘ Char.toLower = p := funext h
  rw [toAsciiLowercase, List.dropWhile_map, hsame]
  rfl

theorem rdropWhile_lower {p : Char → Bool} (h : ∀ c : Char, p c.toLower = p c) (s : Text) :
    (toAsciiLowercase s).rdropWhile p = toAsciiLowercase (s.rdropWhile p) := by
  have hreverse := dropWhile_lower h s.reverse
  simp only [toAsciiLowercase, List.map_reverse] at hreverse
  simp only [List.rdropWhile, toAsciiLowercase, hreverse, List.map_reverse]

theorem trim_lower (s : Text) : trim (toAsciiLowercase s) = toAsciiLowercase (trim s) := by
  rw [trim, trimStart, dropWhile_lower isWhitespace_toLower, trimEnd, rdropWhile_lower isWhitespace_toLower]
  rfl

theorem isDot_toLower (c : Char) : (c.toLower == '.') = (c == '.') := by
  rw [Bool.eq_iff_iff, beq_iff_eq, beq_iff_eq]
  exact toLower_eq_dot

theorem getLast?_toAsciiLowercase (s : Text) : (toAsciiLowercase s).getLast? = some '.' ↔ s.getLast? = some '.' := by
  rw [toAsciiLowercase, List.getLast?_map]
  cases s.getLast? with
  | none => simp
  | some c => simp [toLower_eq_dot]

@[simp] theorem toAsciiLowercase_append (a b : Text) :
    toAsciiLowercase (a ++ b) = toAsciiLowercase a ++ toAsciiLowercase b := List.map_append

@[simp] theorem toAsciiLowercase_idem (s : Text) :
    toAsciiLowercase (toAsciiLowercase s) = toAsciiLowercase s := by
  unfold toAsciiLowercase
  rw [List.map_map]
  exact List.map_congr_left fun c _ => toLower_toLower c

/-- Only the letters from `a` to `z` change, and become ones from `A` to `Z`. -/
theorem toUpper_cases (c : Char) : c.toUpper = c ∨ 97 ≤ c.toNat ∧ c.toNat ≤ 122 ∧ c.toUpper.toNat = c.toNat - 32 := by
  unfold Char.toUpper
  split
  next h =>
    right
    simp only [UInt32.le_iff_toNat_le] at h
    refine ⟨h.1, h.2, ?_⟩
    have hlow : 97 ≤ c.val.toNat := h.1
    change (c.val + ('A'.val - 'a'.val)).toNat = c.val.toNat - 32
    rw [UInt32.toNat_add]
    change (c.val.toNat + 4294967264) % 2 ^ 32 = c.val.toNat - 32
    have hhigh : c.val.toNat ≤ 122 := h.2
    omega
  next => exact .inl rfl

theorem toLower_toUpper (c : Char) : c.toUpper.toLower = c.toLower := by
  rcases toUpper_cases c with h | ⟨_, hhigh, _⟩
  · rw [h]
  · have hletters : ∀ n < 123, (Char.ofNat n).toUpper.toLower = (Char.ofNat n).toLower := by decide
    have hc := hletters c.toNat (by omega)
    rwa [Char.ofNat_toNat] at hc

theorem isWhitespace_toUpper (c : Char) : isWhitespace c.toUpper = isWhitespace c := by
  rcases toUpper_cases c with h | ⟨hlow, hhigh, hupper⟩
  · rw [h]
  · unfold isWhitespace
    rw [hupper, Bool.eq_iff_iff]
    simp only [Bool.or_eq_true, Bool.and_eq_true, decide_eq_true_eq, beq_iff_eq]
    omega

theorem toAsciiLowercase_toAsciiUppercase (s : Text) : toAsciiLowercase (toAsciiUppercase s) = toAsciiLowercase s := by
  unfold toAsciiLowercase toAsciiUppercase
  rw [List.map_map]
  exact List.map_congr_left fun c _ => toLower_toUpper c

theorem trim_upper (s : Text) : trim (toAsciiUppercase s) = toAsciiUppercase (trim s) := by
  have hsame : isWhitespace ∘ Char.toUpper = isWhitespace := funext isWhitespace_toUpper
  simp only [trim, trimStart, trimEnd, toAsciiUppercase, List.rdropWhile, List.dropWhile_map, ← List.map_reverse, hsame]

/-! Numbers. -/

theorem readDigits_ofNat (n : Nat) : readDigits (ofNat n) = n :=
  Nat.ofDigitChars_ten_toDigits

theorem isDigit_ofNat {n : Nat} {c : Char} (h : c ∈ ofNat n) : c.isDigit = true :=
  Nat.isDigit_of_mem_toDigits (by decide) (by decide) h

theorem ofNat_ne_nil (n : Nat) : ofNat n ≠ [] := Nat.toDigits_ne_nil

theorem isDigit_bounds {c : Char} (h : c.isDigit = true) : 48 ≤ c.toNat ∧ c.toNat ≤ 57 := by
  simp only [Char.isDigit, ge_iff_le, Bool.and_eq_true, decide_eq_true_eq, UInt32.le_iff_toNat_le] at h
  exact h

theorem toUpper_of_isDigit {c : Char} (h : c.isDigit = true) : c.toUpper = c := by
  have hbounds := isDigit_bounds h
  apply (toUpper_cases c).resolve_right
  omega

theorem isWhitespace_of_isDigit {c : Char} (h : c.isDigit = true) : isWhitespace c = false := by
  have hbounds := isDigit_bounds h
  unfold isWhitespace
  simp
  omega

theorem solid_ofNat (n : Nat) : Solid (ofNat n) := fun _ h =>
  isWhitespace_of_isDigit (isDigit_ofNat h)

theorem parseU32_ofNat (n : UInt32) : parseU32 (ofNat n.toNat) = some n := by
  have hplus : stripPrefix ['+'] (ofNat n.toNat) = none := by
    unfold stripPrefix
    rw [if_neg]
    intro hlead
    obtain ⟨rest, hrest⟩ := List.isPrefixOf_iff_prefix.mp hlead
    have hdigit : Char.isDigit '+' = true := by
      apply isDigit_ofNat (n := n.toNat)
      rw [← hrest]
      exact List.mem_cons_self
    exact absurd hdigit (by decide)
  have hall : (ofNat n.toNat).all Char.isDigit = true := List.all_eq_true.mpr fun _ => isDigit_ofNat
  unfold parseU32
  simp [hplus, hall, ofNat_ne_nil, readDigits_ofNat, n.toNat_lt]

end DaygleDns.Text
