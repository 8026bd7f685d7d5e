import DaygleDns.TextFacts

/-! Texts of labels that stand between dots, where a backslash escapes the character behind it. -/
namespace DaygleDns.DottedText

open Text

/-- Whether the next character is escaped. -/
def escapes (escaped : Bool) (c : Char) : Bool := !escaped && c == '\\'

def leaves (escaped : Bool) (s : Text) : Bool := s.foldl escapes escaped

/-- Every dot is escaped. -/
def undotted : Bool → Text → Bool
  | _, [] => true
  | escaped, c :: rest => (escaped || c != '.') && undotted (escapes escaped c) rest

/-- The text of one label. -/
def Whole (s : Text) : Prop := undotted false s = true ∧ leaves false s = false

instance (s : Text) : Decidable (Whole s) := inferInstanceAs (Decidable (_ ∧ _))

def joined : List Text → Text
  | [] => []
  | [part] => part
  | part :: rest => part ++ '.' :: joined rest

def partsFrom : Bool → Text → List Text
  | _, [] => [[]]
  | escaped, c :: rest =>
      if !escaped && c == '.' then [] :: partsFrom false rest
      else (partsFrom (escapes escaped c) rest).modifyHead (c :: ·)

/-- The texts between the dots that are not escaped. -/
def parts (s : Text) : List Text := partsFrom false s

/-- A backslash at the end has lost the dot that it escapes. -/
def closed (s : Text) : Text := if leaves false s then s ++ ['.'] else s

@[simp] theorem leaves_nil (escaped : Bool) : leaves escaped [] = escaped := rfl

@[simp] theorem leaves_cons (escaped : Bool) (c : Char) (rest : Text) :
    leaves escaped (c :: rest) = leaves (escapes escaped c) rest := rfl

theorem leaves_append (escaped : Bool) (a b : Text) : leaves escaped (a ++ b) = leaves (leaves escaped a) b :=
  List.foldl_append

theorem undotted_append (escaped : Bool) (a b : Text) :
    undotted escaped (a ++ b) = (undotted escaped a && undotted (leaves escaped a) b) := by
  induction a generalizing escaped with
  | nil => rfl
  | cons c rest ih => rw [List.cons_append, undotted, undotted, ih, leaves_cons, Bool.and_assoc]

theorem escapes_toLower (escaped : Bool) (c : Char) : escapes escaped c.toLower = escapes escaped c := by
  have hsame : (c.toLower == '\\') = (c == '\\') := by
    rw [Bool.eq_iff_iff, beq_iff_eq, beq_iff_eq]
    cases toLower_cases c with
    | inl h => rw [h]
    | inr h =>
      obtain ⟨hlow, hhigh, hlower⟩ := h
      constructor
      · intro hslash
        rw [hslash] at hlower
        simp only [show ('\\' : Char).toNat = 92 from rfl] at hlower
        omega
      · rintro rfl
        simp at hhigh
  rw [escapes, hsame, escapes]

theorem leaves_lower (escaped : Bool) (s : Text) : leaves escaped (toAsciiLowercase s) = leaves escaped s := by
  induction s generalizing escaped with
  | nil => rfl
  | cons c rest ih =>
    change leaves (escapes escaped c.toLower) (toAsciiLowercase rest) = _
    rw [escapes_toLower, ih, leaves_cons]

theorem undotted_lower (escaped : Bool) (s : Text) : undotted escaped (toAsciiLowercase s) = undotted escaped s := by
  induction s generalizing escaped with
  | nil => rfl
  | cons c rest ih =>
    change undotted escaped (c.toLower :: toAsciiLowercase rest) = _
    rw [undotted, undotted, escapes_toLower, ih, bne, bne, isDot_toLower]

theorem Whole.lower {s : Text} (h : Whole s) : Whole (toAsciiLowercase s) := by
  unfold Whole
  rw [undotted_lower, leaves_lower]
  exact h

/-- A dot in the text of a label is behind a backslash. -/
theorem Whole.split {front rest : Text} (h : Whole (front ++ '.' :: rest)) : leaves false front = true ∧ Whole rest := by
  have ⟨hdots, hleaves⟩ := h
  rw [undotted_append, undotted, Bool.and_eq_true, Bool.and_eq_true, Bool.or_eq_true] at hdots
  rw [leaves_append, leaves_cons] at hleaves
  have hopen : leaves false front = true := hdots.2.1.resolve_right (by decide)
  rw [hopen] at hdots hleaves
  exact ⟨hopen, hdots.2.2, hleaves⟩

theorem Whole.head?_ne {s : Text} (h : Whole s) : s.head? ≠ some '.' := by
  intro hhead
  cases s with
  | nil => cases hhead
  | cons c rest =>
    cases hhead
    have hdots := h.1
    rw [undotted, Bool.and_eq_true] at hdots
    exact absurd hdots.1 (by decide)

theorem last_of_leaves {s : Text} (h : leaves false s = true) : s.getLast? = some '\\' := by
  induction s using List.reverseRecOn with
  | nil => cases h
  | append_singleton front c =>
    rw [leaves_append, leaves_cons, leaves_nil, escapes, Bool.and_eq_true, beq_iff_eq] at h
    rw [List.getLast?_concat, h.2]

theorem partsFrom_whole {escaped : Bool} {s : Text} (h : undotted escaped s = true) : partsFrom escaped s = [s] := by
  induction s generalizing escaped with
  | nil => rfl
  | cons c rest ih =>
    rw [undotted, Bool.and_eq_true] at h
    rw [partsFrom, ih h.2, if_neg]
    · rfl
    · cases escaped <;> simp_all

theorem partsFrom_append {escaped : Bool} {s : Text} (h : undotted escaped s = true) (hleaves : leaves escaped s = false)
    (rest : Text) : partsFrom escaped (s ++ '.' :: rest) = s :: partsFrom false rest := by
  induction s generalizing escaped with
  | nil =>
    rw [leaves_nil] at hleaves
    rw [hleaves]
    rfl
  | cons c s ih =>
    rw [undotted, Bool.and_eq_true] at h
    rw [List.cons_append, partsFrom, ih h.2 hleaves, if_neg]
    · rfl
    · cases escaped <;> simp_all

theorem joined_cons (part : Text) {rest : List Text} (h : rest ≠ []) : joined (part :: rest) = part ++ '.' :: joined rest := by
  cases rest with
  | nil => exact absurd rfl h
  | cons next rest => rfl

theorem joined_append {before after : List Text} (hbefore : before ≠ []) (hafter : after ≠ []) :
    joined (before ++ after) = joined before ++ '.' :: joined after := by
  induction before with
  | nil => exact absurd rfl hbefore
  | cons part rest ih =>
    cases rest with
    | nil => exact joined_cons part hafter
    | cons next rest =>
      rw [List.cons_append, joined_cons part (by simp), ih (by simp), joined_cons part (by simp), List.append_assoc]
      rfl

theorem parts_joined {texts : List Text} (hne : texts ≠ []) (h : ∀ text ∈ texts, Whole text) :
    parts (joined texts) = texts := by
  induction texts with
  | nil => exact absurd rfl hne
  | cons part rest ih =>
    have ⟨hdots, hleaves⟩ := h part List.mem_cons_self
    cases rest with
    | nil => exact partsFrom_whole hdots
    | cons next rest =>
      have hrest := ih (by simp) fun text htext => h text (List.mem_cons_of_mem _ htext)
      rw [joined_cons part (by simp), parts, partsFrom_append hdots hleaves]
      exact congrArg (part :: ·) hrest

theorem leaves_joined {texts : List Text} (h : ∀ text ∈ texts, Whole text) : leaves false (joined texts) = false := by
  induction texts with
  | nil => rfl
  | cons part rest ih =>
    have hpart := (h part List.mem_cons_self).2
    cases rest with
    | nil => exact hpart
    | cons next rest =>
      rw [joined_cons part (by simp), leaves_append, hpart]
      exact ih fun text htext => h text (List.mem_cons_of_mem _ htext)

theorem lower_joined (texts : List Text) : toAsciiLowercase (joined texts) = joined (texts.map toAsciiLowercase) := by
  match texts with
  | [] => rfl
  | [part] => rfl
  | part :: next :: rest =>
    rw [joined_cons part (by simp), toAsciiLowercase_append, List.map_cons,
      joined_cons (toAsciiLowercase part) (by simp), ← lower_joined (next :: rest)]
    rfl

theorem head?_joined {texts : List Text} (h : ∀ text ∈ texts, Whole text) (hne : [] ∉ texts) :
    (joined texts).head? ≠ some '.' := by
  match texts with
  | [] => exact nofun
  | [part] => exact (h part List.mem_cons_self).head?_ne
  | part :: next :: rest =>
    have hpart : part ≠ [] := fun hnil => hne (hnil ▸ List.mem_cons_self)
    rw [joined_cons part (by simp), List.head?_append_of_ne_nil _ hpart]
    exact (h part List.mem_cons_self).head?_ne

theorem solid_joined {texts : List Text} (h : ∀ text ∈ texts, Solid text) : Solid (joined texts) := by
  match texts with
  | [] => exact nofun
  | [part] => exact h part List.mem_cons_self
  | part :: next :: rest =>
    have hrest : Solid (joined (next :: rest)) := solid_joined fun text htext => h text (List.mem_cons_of_mem _ htext)
    rw [joined_cons part (by simp)]
    exact (h part List.mem_cons_self).append (List.forall_mem_cons.mpr ⟨by decide, hrest⟩)

theorem joined_eq_nil {texts : List Text} (h : joined texts = []) : texts = [] ∨ texts = [[]] := by
  match texts with
  | [] => exact .inl rfl
  | [part] => exact .inr (congrArg (fun text => [text]) h)
  | part :: next :: rest =>
    rw [joined_cons part (by simp), List.append_eq_nil_iff] at h
    cases h.2

/-- A dot stands between two labels, or is escaped in one of them. -/
theorem split_joined {texts : List Text} (h : ∀ text ∈ texts, Whole text) {front rest : Text}
    (hsplit : joined texts = front ++ '.' :: rest) :
    (∃ before after, texts = before ++ after ∧ before ≠ [] ∧ after ≠ [] ∧ rest = joined after) ∨
      ∃ before head tail after, texts = before ++ (head ++ '.' :: tail) :: after ∧ Whole tail ∧
        rest = joined (tail :: after) ∧ leaves false front = true := by
  induction texts generalizing front with
  | nil =>
    rw [joined] at hsplit
    cases front <;> cases hsplit
  | cons part texts ih =>
    have hpart := h part List.mem_cons_self
    have hlater : ∀ text ∈ texts, Whole text := fun text htext => h text (List.mem_cons_of_mem _ htext)
    cases texts with
    | nil =>
      change part = _ at hsplit
      rw [hsplit] at hpart
      have ⟨hopen, hwhole⟩ := hpart.split
      exact .inr ⟨[], front, rest, [], by rw [hsplit]; rfl, hwhole, rfl, hopen⟩
    | cons next texts =>
      rw [joined_cons part (by simp)] at hsplit
      cases List.append_eq_append_iff.mp hsplit with
      | inl hlong =>
        obtain ⟨between, hfront, hrest⟩ := hlong
        cases between with
        | nil =>
          cases hrest
          exact .inl ⟨[part], next :: texts, rfl, by simp, by simp, rfl⟩
        | cons c between =>
          have hnext : joined (next :: texts) = between ++ '.' :: rest := (List.cons.inj hrest).2
          have hdot : '.' = c := (List.cons.inj hrest).1
          cases ih hlater hnext with
          | inl hboundary =>
            obtain ⟨before, after, htexts, _, hafter, hrest⟩ := hboundary
            exact .inl ⟨part :: before, after, by rw [htexts]; rfl, by simp, hafter, hrest⟩
          | inr hinside =>
            obtain ⟨before, head, tail, after, htexts, hwhole, hrest, hopen⟩ := hinside
            refine .inr ⟨part :: before, head, tail, after, by rw [htexts]; rfl, hwhole, hrest, ?_⟩
            rw [hfront, leaves_append, hpart.2, ← hdot]
            exact hopen
      | inr hshort =>
        obtain ⟨between, hpartText, hrest⟩ := hshort
        cases between with
        | nil =>
          cases hrest
          exact .inl ⟨[part], next :: texts, rfl, by simp, by simp, rfl⟩
        | cons c between =>
          cases hrest
          rw [hpartText] at hpart
          have ⟨hopen, hwhole⟩ := hpart.split
          exact .inr ⟨[], front, between, next :: texts, by rw [hpartText]; rfl, hwhole, rfl, hopen⟩

/-- Without the dots at its end, a text has lost no more than the dot that its last label ends in. -/
theorem closed_trimEndMatches {texts : List Text} (h : ∀ text ∈ texts, Whole text) (hlast : [] ∉ texts.getLast?) :
    closed (trimEndMatches '.' (joined texts)) = joined texts := by
  by_cases hdot : (joined texts).getLast? = some '.'
  · obtain ⟨front, hfront⟩ := List.getLast?_eq_some_iff.mp hdot
    have hopen : leaves false front = true := by
      cases split_joined h hfront with
      | inl hboundary =>
        obtain ⟨before, after, htexts, _, hafter, hrest⟩ := hboundary
        cases joined_eq_nil hrest.symm with
        | inl hnil => exact absurd hnil hafter
        | inr hnil =>
          rw [htexts, hnil] at hlast
          simp at hlast
      | inr hinside =>
        obtain ⟨before, head, tail, after, _, _, _, hopen⟩ := hinside
        exact hopen
    have hslash := last_of_leaves hopen
    rw [hfront, trimEndMatches_concat, trimEndMatches_of_last (by rw [hslash]; decide), closed, if_pos hopen]
  · rw [trimEndMatches_of_last hdot, closed, if_neg]
    simp [leaves_joined h]

end DaygleDns.DottedText
