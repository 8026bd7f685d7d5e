import Mathlib.Data.List.Destutter
import Mathlib.Data.List.Sort

/-! Lists in a canonical form, sorted by a key and with one item for each key,
and streams of items that each say where they end. -/
namespace DaygleDns.Canonical

variable {α β κ : Type} [LinearOrder κ]

/-- A stable sort: items of one key stay in their order. -/
def sortBy (key : α → κ) (items : List α) : List α :=
  items.insertionSort fun first second => key first ≤ key second

/-- The first item of each run of one key. -/
def dedupBy (key : α → κ) (items : List α) : List α :=
  items.destutter fun first second => key first ≠ key second

def canonical (key : α → κ) (items : List α) : List α := dedupBy key (sortBy key items)

/-- The item is the first of its key. -/
def First (key : α → κ) (items : List α) (a : α) : Prop :=
  items.find? (fun item => key item = key a) = some a

variable {key : α → κ}

theorem First.mem {items : List α} {a : α} (h : First key items a) : a ∈ items :=
  List.mem_of_find?_eq_some h

theorem first_cons (items : List α) (a : α) : First key (a :: items) a := by
  simp [First]

/-- Where items of one key are the same item, each is the first. -/
theorem first_of_unique {items : List α} {a : α} (ha : a ∈ items)
    (h : ∀ b ∈ items, key b = key a → b = a) : First key items a := by
  unfold First
  cases hfound : items.find? fun item => key item = key a with
  | none =>
    have := List.find?_eq_none.mp hfound a ha
    simp at this
  | some b =>
    have hhit := List.find?_some hfound
    rw [h b (List.mem_of_find?_eq_some hfound) (of_decide_eq_true hhit)]

/-- Two first items of one key are the same. -/
theorem First.unique {items : List α} {a b : α} (ha : First key items a) (hb : First key items b)
    (h : key a = key b) : a = b := by
  unfold First at ha hb
  rw [h, hb] at ha
  exact (Option.some.inj ha).symm

theorem filter_orderedInsert (a : α) (items : List α) (k : κ) :
    (items.orderedInsert (fun first second => key first ≤ key second) a).filter
        (fun item => key item = k) =
      (a :: items).filter fun item => key item = k := by
  induction items with
  | nil => rfl
  | cons b items ih =>
    rw [List.orderedInsert_cons]
    split
    · rfl
    next hlater =>
      rw [List.filter_cons, ih]
      by_cases hb : key b = k
      · have ha : key a ≠ k := fun ha => hlater (le_of_eq (ha.trans hb.symm))
        simp [ha, hb]
      · simp [List.filter_cons, hb]

theorem filter_sortBy (items : List α) (k : κ) :
    (sortBy key items).filter (fun item => key item = k) = items.filter fun item => key item = k := by
  unfold sortBy
  induction items with
  | nil => rfl
  | cons a items ih =>
    rw [List.insertionSort_cons, filter_orderedInsert, List.filter_cons, ih, List.filter_cons]

theorem find_sortBy (items : List α) (k : κ) :
    (sortBy key items).find? (fun item => key item = k) = items.find? fun item => key item = k := by
  rw [← List.head?_filter, filter_sortBy, List.head?_filter]

theorem sortBy_sorted (items : List α) :
    (sortBy key items).Pairwise fun first second => key first ≤ key second := by
  have htotal : Std.Total fun first second : α => key first ≤ key second :=
    ⟨fun first second => le_total (key first) (key second)⟩
  have htrans : IsTrans α fun first second => key first ≤ key second :=
    ⟨fun _ _ _ => le_trans⟩
  exact List.pairwise_insertionSort _ items

/-- Of a sorted list the first item of each key is left. -/
theorem mem_dedupBy {items : List α}
    (hsorted : items.Pairwise fun first second => key first ≤ key second) (a : α) :
    a ∈ dedupBy key items ↔ First key items a := by
  unfold dedupBy First
  cases items with
  | nil => simp
  | cons b items =>
    rw [List.destutter_cons']
    induction items generalizing b with
    | nil =>
      by_cases h : key b = key a
      · simp [h, eq_comm]
      · have hne : a ≠ b := fun hab => h (hab ▸ rfl)
        simp [h, hne]
    | cons c items ih =>
      rcases List.pairwise_cons.mp hsorted with ⟨hfirst, hrest⟩
      rw [List.destutter'_cons]
      split
      next hnew =>
        rw [List.mem_cons, ih c hrest, List.find?_cons (a := b)]
        by_cases hb : key b = key a
        · have hnone : (c :: items).find? (fun item => decide (key item = key a)) ≠ some a := by
            intro hfound
            have hmem := List.mem_of_find?_eq_some hfound
            have hlt : key b < key c := lt_of_le_of_ne (hfirst c List.mem_cons_self) hnew
            have hle : key c ≤ key a := by
              rcases List.mem_cons.mp hmem with rfl | hmem
              · exact le_refl _
              · exact (List.pairwise_cons.mp hrest).1 a hmem
            exact absurd hb (ne_of_lt (lt_of_lt_of_le hlt hle))
          have hhit : decide (key b = key a) = true := decide_eq_true hb
          rw [hhit]
          simp only [hnone, or_false, Option.some.injEq]
          exact eq_comm
        · have hne : a ≠ b := fun hab => hb (hab ▸ rfl)
          simp [hb, hne]
      next hsame =>
        have hsame : key b = key c := not_not.mp hsame
        have hskip : (b :: items).Pairwise fun first second => key first ≤ key second :=
          List.pairwise_cons.mpr
            ⟨fun item hitem => hfirst item (List.mem_cons_of_mem _ hitem),
              (List.pairwise_cons.mp hrest).2⟩
        rw [ih b hskip, List.find?_cons, List.find?_cons (a := b), List.find?_cons (a := c), hsame]
        by_cases hc : key c = key a <;> simp [hc]

theorem mem_canonical (items : List α) (a : α) :
    a ∈ canonical key items ↔ First key items a := by
  unfold canonical
  rw [mem_dedupBy (sortBy_sorted items)]
  unfold First
  rw [find_sortBy]

theorem pairwise_lt_of_isChain {items : List α}
    (hsorted : items.Pairwise fun first second => key first ≤ key second)
    (hchain : items.IsChain fun first second => key first ≠ key second) :
    items.Pairwise fun first second => key first < key second := by
  induction items with
  | nil => exact List.Pairwise.nil
  | cons a items ih =>
    rcases List.pairwise_cons.mp hsorted with ⟨hfirst, hrest⟩
    cases items with
    | nil => exact List.pairwise_singleton _ a
    | cons b items =>
      rcases List.isChain_cons_cons.mp hchain with ⟨hne, hchain⟩
      have hlt : key a < key b := lt_of_le_of_ne (hfirst b List.mem_cons_self) hne
      refine List.pairwise_cons.mpr ⟨?_, ih hrest hchain⟩
      intro c hc
      rcases List.mem_cons.mp hc with rfl | hc
      · exact hlt
      · exact lt_of_lt_of_le hlt ((List.pairwise_cons.mp hrest).1 c hc)

theorem canonical_strict (items : List α) :
    (canonical key items).Pairwise fun first second => key first < key second :=
  pairwise_lt_of_isChain ((sortBy_sorted items).sublist (List.destutter_sublist _ _))
    (List.isChain_destutter _ _)

theorem canonical_subset (items : List α) : canonical key items ⊆ items := by
  intro a ha
  exact ((mem_canonical items a).mp ha).mem

/-- A list in strict order is known by its members. -/
theorem eq_of_mem_iff {first second : List α}
    (hfirst : first.Pairwise fun a b => key a < key b)
    (hsecond : second.Pairwise fun a b => key a < key b) (h : ∀ a, a ∈ first ↔ a ∈ second) :
    first = second := by
  have hnodup : ∀ {items : List α}, items.Pairwise (fun a b => key a < key b) → items.Nodup :=
    fun hitems => hitems.imp fun hlt heq => absurd (heq ▸ hlt) (lt_irrefl _)
  apply List.Perm.eq_of_pairwise _ hfirst hsecond
    ((List.perm_ext_iff_of_nodup (hnodup hfirst) (hnodup hsecond)).mpr h)
  intro a b _ _ hab hba
  exact absurd (hab.trans hba) (lt_irrefl _)

theorem mem_map_canonical {γ : Type} {key' : γ → κ} {view : α → γ} (hview : ∀ a, key' (view a) = key a)
    (items : List α) (c : γ) :
    c ∈ (canonical key items).map view ↔ c ∈ canonical key' (items.map view) := by
  have hfind : (items.map view).find? (fun other => key' other = key' c) =
      (items.find? fun a => key a = key' c).map view := by
    rw [List.find?_map]
    simp only [Function.comp_def, hview]
  rw [mem_canonical, First, hfind, List.mem_map]
  constructor
  · rintro ⟨a, ha, rfl⟩
    have hfirst : items.find? (fun item => key item = key a) = some a := (mem_canonical items a).mp ha
    rw [hview, hfirst]
    rfl
  · intro h
    rcases Option.map_eq_some_iff.mp h with ⟨a, ha, rfl⟩
    refine ⟨a, (mem_canonical items a).mpr ?_, rfl⟩
    unfold First
    rw [← hview]
    exact ha

/-- A view that shows the key may be taken before or after. -/
theorem map_canonical {γ : Type} {key' : γ → κ} {view : α → γ} (hview : ∀ a, key' (view a) = key a)
    (items : List α) : (canonical key items).map view = canonical key' (items.map view) := by
  apply eq_of_mem_iff _ (canonical_strict _) (mem_map_canonical hview items)
  rw [List.pairwise_map]
  simp only [hview]
  exact canonical_strict items

/-! Streams of items. -/

/-- The writings of an item end where the item says, and there is no empty one. -/
structure Delimits (writes : α → List β → Prop) : Prop where
  apart : ∀ a b x y s t, writes a x → writes b y → x ++ s = y ++ t → a = b ∧ s = t
  nonempty : ∀ a x, writes a x → x ≠ []

theorem Delimits.flatten_injective {writes : α → List β → Prop} (h : Delimits writes)
    {first second : List α} {xs ys : List (List β)} (hfirst : List.Forall₂ writes first xs)
    (hsecond : List.Forall₂ writes second ys) (hsame : xs.flatten = ys.flatten) :
    first = second := by
  induction hfirst generalizing second ys with
  | nil =>
    cases hsecond with
    | nil => rfl
    | cons hb _ =>
      have hempty := List.append_eq_nil_iff.mp (List.flatten_cons ▸ hsame).symm
      exact absurd hempty.1 (h.nonempty _ _ hb)
  | cons ha hrest ih =>
    cases hsecond with
    | nil =>
      have hempty := List.append_eq_nil_iff.mp (List.flatten_cons ▸ hsame)
      exact absurd hempty.1 (h.nonempty _ _ ha)
    | cons hb hother =>
      rw [List.flatten_cons, List.flatten_cons] at hsame
      rcases h.apart _ _ _ _ _ _ ha hb hsame with ⟨rfl, htail⟩
      rw [ih hother htail]

end DaygleDns.Canonical
