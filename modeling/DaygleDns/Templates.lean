import DaygleDns.TextFacts

/-! Texts with a placeholder: what a replacement of the placeholder keeps, whatever is put in
its place. -/
namespace DaygleDns.Text

/-- A character of its own, or a place for the value. -/
abbrev Piece := Option Char

def piecesFrom (pattern : Text) : Nat → Text → List Piece
  | 0, s => s.map some
  | _ + 1, [] => []
  | fuel + 1, c :: rest =>
      if pattern.isPrefixOf (c :: rest) then none :: piecesFrom pattern fuel ((c :: rest).drop pattern.length)
      else some c :: piecesFrom pattern fuel rest

/-- The text around the occurrences of a pattern. -/
def pieces (pattern s : Text) : List Piece := piecesFrom pattern s.length s

def Piece.text (value : Text) : Piece → Text
  | none => value
  | some c => [c]

def fill (value : Text) (template : List Piece) : Text := template.flatMap (Piece.text value)

@[simp] theorem fill_nil (value : Text) : fill value [] = [] := rfl

@[simp] theorem fill_cons (value : Text) (piece : Piece) (template : List Piece) :
    fill value (piece :: template) = piece.text value ++ fill value template := rfl

@[simp] theorem fill_append (value : Text) (a b : List Piece) : fill value (a ++ b) = fill value a ++ fill value b :=
  List.flatMap_append

theorem fill_own (value s : Text) : fill value (s.map some) = s := by
  induction s with
  | nil => rfl
  | cons c s ih => exact congrArg (c :: ·) ih

theorem replaceFrom_eq_fill (pattern value : Text) (fuel : Nat) (s : Text) :
    replaceFrom pattern value fuel s = fill value (piecesFrom pattern fuel s) := by
  induction fuel generalizing s with
  | zero => exact (fill_own value s).symm
  | succ fuel ih =>
    cases s with
    | nil => rfl
    | cons c rest =>
      rw [replaceFrom, piecesFrom]
      split
      next => rw [fill_cons, ih]; rfl
      next => rw [fill_cons, ih]; rfl

theorem replace_eq_fill (pattern value s : Text) : replace pattern value s = fill value (pieces pattern s) :=
  replaceFrom_eq_fill pattern value s.length s

theorem piece_text_ne_nil {value : Text} (h : value ≠ []) (piece : Piece) : piece.text value ≠ [] := by
  cases piece with
  | none => exact h
  | some c => exact List.cons_ne_nil c []

theorem fill_eq_nil {value : Text} (h : value ≠ []) {template : List Piece} : fill value template = [] ↔ template = [] := by
  cases template with
  | nil => simp
  | cons piece template => simp [piece_text_ne_nil h piece]

theorem mem_fill {value : Text} {c : Char} (hc : c ∉ value) {template : List Piece} :
    c ∈ fill value template ↔ some c ∈ template := by
  induction template with
  | nil => simp
  | cons piece template ih =>
    rw [fill_cons, List.mem_append, ih, List.mem_cons]
    cases piece with
    | none => simp [Piece.text, hc]
    | some d => simp [Piece.text]

theorem forall_mem_fill {value : Text} {p : Char → Prop} (h : ∀ c ∈ value, p c) {template : List Piece} :
    (∀ c ∈ fill value template, p c) ↔ ∀ c, some c ∈ template → p c := by
  induction template with
  | nil => simp
  | cons piece template ih =>
    rw [fill_cons, List.forall_mem_append, ih]
    cases piece with
    | none => simp only [Piece.text, List.mem_cons, reduceCtorEq, false_or]; tauto
    | some d => simp [Piece.text]

/-! What stands at the ends. -/

theorem head?_fill {value : Text} {d : Char} (hne : value ≠ []) (hd : value.head? ≠ some d) (template : List Piece) :
    (fill value template).head? = some d ↔ template.head? = some (some d) := by
  cases template with
  | nil => simp
  | cons piece template =>
    rw [fill_cons, List.head?_append_of_ne_nil _ (piece_text_ne_nil hne piece), List.head?_cons]
    cases piece with
    | none => simp [Piece.text, hd]
    | some c => simp [Piece.text]

theorem getLast?_fill {value : Text} {d : Char} (hne : value ≠ []) (hd : value.getLast? ≠ some d) (template : List Piece) :
    (fill value template).getLast? = some d ↔ template.getLast? = some (some d) := by
  induction template using List.reverseRecOn with
  | nil => simp
  | append_singleton template piece _ =>
    have hlast : fill value [piece] ≠ [] := by
      rw [Ne, fill_eq_nil hne]
      exact List.cons_ne_nil piece []
    rw [fill_append, List.getLast?_append_of_ne_nil _ hlast, List.getLast?_concat, fill_cons, fill_nil, List.append_nil]
    cases piece with
    | none => simp [Piece.text, hd]
    | some c => simp [Piece.text]

theorem dropWhile_fill {value : Text} {p : Char → Bool} {c : Char} {rest : Text} (hvalue : value = c :: rest)
    (hc : p c = false) (template : List Piece) :
    (fill value template).dropWhile p = fill value (template.dropWhile (·.any p)) := by
  induction template with
  | nil => rfl
  | cons piece template ih =>
    rw [fill_cons, List.dropWhile_cons]
    cases piece with
    | none => simp [Piece.text, hvalue, hc]
    | some d =>
      cases hd : p d with
      | true => simpa [Piece.text, hd] using ih
      | false => simp [Piece.text, hd]

theorem rdropWhile_fill {value : Text} {p : Char → Bool} {c : Char} {front : Text} (hvalue : value = front ++ [c])
    (hc : p c = false) (template : List Piece) :
    (fill value template).rdropWhile p = fill value (template.rdropWhile (·.any p)) := by
  induction template using List.reverseRecOn with
  | nil => rfl
  | append_singleton template piece ih =>
    rw [fill_append, rdropWhile_append, List.rdropWhile_concat]
    cases piece with
    | none =>
      have hkept : value.rdropWhile p = value := by rw [hvalue, List.rdropWhile_concat_neg _ _ _ (by simp [hc])]
      have hne : value ≠ [] := by simp [hvalue]
      simp [Piece.text, hkept, hne]
    | some d =>
      cases hd : p d with
      | true => simpa [Piece.text, List.rdropWhile_singleton, hd] using ih
      | false => simp [Piece.text, List.rdropWhile_singleton, hd]

/-! Labels. -/

theorem splitOn_append {d : Char} {a : Text} (h : d ∉ a) (s : Text) :
    (a ++ s).splitOn d = (s.splitOn d).modifyHead (a ++ ·) := by
  induction a with
  | nil => cases hs : s.splitOn d <;> simp [hs]
  | cons c a ih =>
    rw [List.mem_cons, not_or] at h
    have hc : (c == d) = false := beq_false_of_ne (Ne.symm h.1)
    rw [List.splitOn_eq_splitOnP] at ih ⊢
    rw [List.cons_append, List.splitOnP_cons_eq_if_modifyHead, hc, if_neg (by decide), ih h.2, List.splitOn_eq_splitOnP]
    cases s.splitOnP (· == d) <;> rfl

theorem splitOn_fill {value : Text} {d : Char} (h : d ∉ value) (template : List Piece) :
    (fill value template).splitOn d = (template.splitOn (some d)).map (fill value) := by
  induction template with
  | nil => rfl
  | cons piece template ih =>
    rw [fill_cons, @List.splitOn_eq_splitOnP _ _ (some d) (piece :: template), List.splitOnP_cons_eq_if_modifyHead,
      ← List.splitOn_eq_splitOnP]
    cases piece with
    | none =>
      have hother : (none == some d) = false := rfl
      rw [Piece.text, splitOn_append h, ih, hother, if_neg (by decide)]
      cases template.splitOn (some d) <;> rfl
    | some c =>
      have hsame : (some c == some d) = (c == d) := rfl
      rw [Piece.text, hsame]
      by_cases hc : c = d
      · subst hc
        rw [List.singleton_append, List.splitOn_eq_splitOnP, List.splitOnP_cons_eq_if_modifyHead, beq_self_eq_true, if_pos rfl,
          if_pos rfl, ← List.splitOn_eq_splitOnP, ih]
        rfl
      · rw [splitOn_append (by simpa using Ne.symm hc), ih, beq_false_of_ne hc, if_neg (by decide)]
        cases template.splitOn (some d) <;> rfl

/-- How long a part is, for a value of that length. -/
def filledLen (length : Nat) (template : List Piece) : Nat :=
  (template.map fun piece => piece.elim length Char.utf8Size).sum

theorem utf8Len_append (a b : Text) : utf8Len (a ++ b) = utf8Len a + utf8Len b := by
  simp [utf8Len]

theorem utf8Len_fill (value : Text) (template : List Piece) :
    utf8Len (fill value template) = filledLen (utf8Len value) template := by
  induction template with
  | nil => rfl
  | cons piece template ih =>
    rw [fill_cons, utf8Len_append, ih, filledLen, filledLen, List.map_cons, List.sum_cons]
    cases piece <;> rfl

end DaygleDns.Text
