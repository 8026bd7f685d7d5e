import DaygleDns.Text

/-! Character strings between quotes, with backslashes before what stands for itself. -/
namespace DaygleDns.Text

def isPrintable (c : Char) : Bool := ' ' ≤ c && c ≤ '~'

/-- How a character string may be spelled between quotes. A digit after a backslash
would begin the code of a character. -/
inductive Escaped : Text → Text → Prop
  | nil : Escaped [] []
  | plain {c : Char} {spelled s : Text} : isPrintable c = true → c ≠ '"' → c ≠ '\\' → Escaped spelled s →
      Escaped (c :: spelled) (c :: s)
  | escaped {c : Char} {spelled s : Text} : isPrintable c = true → c.isDigit = false → Escaped spelled s →
      Escaped ('\\' :: c :: spelled) (c :: s)

def doubleQuoted (spelled : Text) : Text := '"' :: spelled ++ ['"']

/-- Quoted strings with a blank between them. -/
def quotedStrings (spelled : List Text) : Text := ([' '] : Text).intercalate (spelled.map doubleQuoted)

def escapeChar (c : Char) : Text := if c = '\\' then ['\\', '\\'] else if c = '"' then ['\\', '"'] else [c]

theorem replaceFrom_singleton (pattern : Char) (replacement : Text) {fuel : Nat} {s : Text} (h : s.length ≤ fuel) :
    replaceFrom [pattern] replacement fuel s = s.flatMap fun c => if c = pattern then replacement else [c] := by
  induction fuel generalizing s with
  | zero =>
    rw [List.length_eq_zero_iff.mp (Nat.le_zero.mp h)]
    rfl
  | succ fuel ih =>
    cases s with
    | nil => rfl
    | cons c rest =>
      have hrest : rest.length ≤ fuel := Nat.le_of_succ_le_succ h
      rw [replaceFrom, List.flatMap_cons]
      by_cases hc : c = pattern
      · subst hc
        have hstarts : ([c] : Text).isPrefixOf (c :: rest) = true := by simp
        rw [hstarts, if_pos rfl, if_pos rfl, List.length_singleton, List.drop_one, List.tail_cons, ih hrest]
      · have hstarts : ([pattern] : Text).isPrefixOf (c :: rest) = false := by
          rw [List.isPrefixOf, beq_false_of_ne (Ne.symm hc), Bool.false_and]
        rw [hstarts, if_neg (by decide), if_neg hc, ih hrest]
        rfl

/-- `str::replace` of one character. -/
theorem replace_singleton (pattern : Char) (replacement s : Text) :
    replace [pattern] replacement s = s.flatMap fun c => if c = pattern then replacement else [c] :=
  replaceFrom_singleton pattern replacement (Nat.le_refl _)

theorem replace_backslashes_quotes (s : Text) :
    replace ['"'] ['\\', '"'] (replace ['\\'] ['\\', '\\'] s) = s.flatMap escapeChar := by
  rw [replace_singleton, replace_singleton, List.flatMap_assoc]
  apply congrArg (List.flatMap · s)
  funext c
  unfold escapeChar
  by_cases hc : c = '\\'
  · rw [if_pos hc, if_pos hc]
    rfl
  · rw [if_neg hc, if_neg hc, List.flatMap_singleton]

theorem escaped_flatMap {s : Text} (h : ∀ c ∈ s, isPrintable c = true) : Escaped (s.flatMap escapeChar) s := by
  induction s with
  | nil => exact .nil
  | cons c rest ih =>
    have hc := h c List.mem_cons_self
    have hrest := ih fun d hd => h d (List.mem_cons_of_mem c hd)
    rw [List.flatMap_cons, escapeChar]
    by_cases hback : c = '\\'
    · subst hback
      exact .escaped hc (by decide) hrest
    · rw [if_neg hback]
      by_cases hquote : c = '"'
      · subst hquote
        exact .escaped hc (by decide) hrest
      · rw [if_neg hquote]
        exact .plain hc hquote hback hrest

/-- A reader of quoted strings; it is inside the string that is open. -/
def readQuotedFrom : Option Text → Text → Option (List Text)
  | none, [] => some []
  | some _, [] => none
  | none, c :: rest =>
      if c = '"' then readQuotedFrom (some []) rest
      else if c = ' ' then readQuotedFrom none rest
      else none
  | some s, '\\' :: c :: rest => if c.isDigit then none else readQuotedFrom (some (s ++ [c])) rest
  | some s, c :: rest =>
      if c = '"' then (readQuotedFrom none rest).map (s :: ·)
      else if c = '\\' then none
      else readQuotedFrom (some (s ++ [c])) rest

theorem readQuotedFrom_escaped {spelled s : Text} (h : Escaped spelled s) (read rest : Text) :
    readQuotedFrom (some read) (spelled ++ '"' :: rest) = (readQuotedFrom none rest).map ((read ++ s) :: ·) := by
  induction h generalizing read with
  | nil => simp [readQuotedFrom]
  | plain _ hquote hback _ ih =>
    rw [List.cons_append, readQuotedFrom, if_neg hquote, if_neg hback, ih, List.append_assoc, List.singleton_append]
    intro d tail hd
    exact absurd hd hback
  | escaped _ hdigit _ ih =>
    rw [List.cons_append, List.cons_append, readQuotedFrom, hdigit, if_neg (by decide), ih, List.append_assoc,
      List.singleton_append]

theorem readQuotedFrom_quoted {spelled s : Text} (h : Escaped spelled s) (rest : Text) :
    readQuotedFrom none (doubleQuoted spelled ++ rest) = (readQuotedFrom none rest).map (s :: ·) := by
  rw [doubleQuoted, List.append_assoc, List.cons_append, readQuotedFrom, if_pos rfl, List.singleton_append,
    readQuotedFrom_escaped h, List.nil_append]

theorem readQuotedFrom_quotedStrings {items : List (Text × Text)} (h : ∀ item ∈ items, Escaped item.1 item.2) :
    readQuotedFrom none (quotedStrings (items.map Prod.fst)) = some (items.map Prod.snd) := by
  induction items with
  | nil => rfl
  | cons item items ih =>
    have hitem := h item List.mem_cons_self
    have hitems := ih fun other hother => h other (List.mem_cons_of_mem item hother)
    cases items with
    | nil =>
      have hquoted := readQuotedFrom_quoted hitem []
      rw [List.append_nil] at hquoted
      simpa [quotedStrings, List.intercalate, readQuotedFrom] using hquoted
    | cons next items =>
      have hsplit : quotedStrings ((item :: next :: items).map Prod.fst) =
          doubleQuoted item.1 ++ ' ' :: quotedStrings ((next :: items).map Prod.fst) := by
        simp [quotedStrings, List.intercalate]
      rw [hsplit, readQuotedFrom_quoted hitem, readQuotedFrom, if_neg (by decide), if_pos rfl, hitems]
      rfl

end DaygleDns.Text
