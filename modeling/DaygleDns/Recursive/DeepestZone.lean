import DaygleDns.LastMax
import DaygleDns.Recursive.Routing

/-! The zone that a name is resolved at: the deepest of those it is in. -/
namespace DaygleDns.Recursive

open LastMax Text

variable {N R : Type}

/-- A name without a dot at its end is in a zone; the zone without a name is the root. -/
def inZone (qname zone : Text) : Bool := zone.isEmpty || isLabelAlignedSuffix qname zone

/-- None of the zones that the name is in is deeper than this one. -/
structure Deepest (zones : List (ConditionalResolver R)) (qname : Text) (zone : ConditionalResolver R) : Prop where
  mem : zone ∈ zones
  inside : inZone qname zone.zone = true
  le : ∀ other ∈ zones, inZone qname other.zone = true → utf8Len other.zone ≤ utf8Len zone.zone

theorem suffix_of_inZone {qname zone : Text} (h : inZone qname zone = true) : zone <:+ qname := by
  simp only [inZone, isLabelAlignedSuffix, endsWith, Bool.or_eq_true, List.isEmpty_iff, decide_eq_true_eq,
    List.isSuffixOf_iff_suffix] at h
  obtain rfl | rfl | hsuffix := h
  · exact List.nil_suffix
  · exact List.suffix_refl _
  · exact (List.suffix_cons '.' zone).trans hsuffix

theorem utf8Len_append (first second : Text) : utf8Len (first ++ second) = utf8Len first + utf8Len second := by
  simp [utf8Len]

theorem eq_nil_of_utf8Len {s : Text} (h : utf8Len s = 0) : s = [] := by
  cases s with
  | nil => rfl
  | cons c rest =>
    have := Char.utf8Size_pos c
    simp only [utf8Len, List.map_cons, List.sum_cons] at h
    omega

/-- The end of a text is told by its length in bytes. -/
theorem suffix_unique {first second s : Text} (hfirst : first <:+ s) (hsecond : second <:+ s)
    (h : utf8Len first = utf8Len second) : first = second := by
  wlog hle : first.length ≤ second.length generalizing first second
  · exact (this hsecond hfirst h.symm (by omega)).symm
  · obtain ⟨lead, rfl⟩ := List.suffix_of_suffix_length_le hfirst hsecond hle
    rw [utf8Len_append] at h
    have hlead : lead = [] := eq_nil_of_utf8Len (by omega)
    simp [hlead]

theorem Deepest.zone_unique {zones : List (ConditionalResolver R)} {qname : Text} {first second : ConditionalResolver R}
    (hfirst : Deepest zones qname first) (hsecond : Deepest zones qname second) : first.zone = second.zone := by
  apply suffix_unique (suffix_of_inZone hfirst.inside) (suffix_of_inZone hsecond.inside)
  exact Nat.le_antisymm (hsecond.le first hfirst.mem hfirst.inside) (hfirst.le second hsecond.mem hsecond.inside)

theorem matchConditionalZonesByName_eq (zones : List Text) (name : Text) :
    matchConditionalZonesByName zones name =
      (lastMaxBy (fun zone : Text × Nat => utf8Len zone.1)
        (zones.zipIdx.filter fun zone => inZone (normalizeZone name) zone.1)).map Prod.snd := by
  unfold matchConditionalZonesByName lastMaxBy
  apply congrArg (Option.map Prod.snd)
  congr 1
  ext best zone
  cases best <;> rfl

theorem mem_matching {zones : List (ConditionalResolver R)} {qname zone : Text} {i : Nat} :
    (zone, i) ∈ (zones.map ConditionalResolver.zone).zipIdx.filter (fun zone => inZone qname zone.1) ↔
      ∃ item, zones[i]? = some item ∧ item.zone = zone ∧ inZone qname zone = true := by
  rw [List.mem_filter, List.mk_mem_zipIdx_iff_getElem?, List.getElem?_map]
  simp only [Option.map_eq_some_iff]
  grind

theorem deepest_of_match {zones : List (ConditionalResolver R)} {name : Text} {zone : ConditionalResolver R}
    (h : matchConditionalZones zones name = some zone) : Deepest zones (normalizeZone name) zone := by
  rw [matchConditionalZones, matchConditionalZonesByName_eq] at h
  obtain ⟨i, hi, hzone⟩ := Option.bind_eq_some_iff.mp h
  obtain ⟨⟨text, j⟩, hlast, rfl⟩ := Option.map_eq_some_iff.mp hi
  have hgreatest := greatest_of_lastMaxBy hlast
  obtain ⟨item, hitem, htext, hinside⟩ := mem_matching.mp hgreatest.mem
  obtain rfl : item = zone := Option.some.inj (hitem.symm.trans hzone)
  subst htext
  refine ⟨List.mem_of_getElem? hitem, hinside, fun other hother hin => ?_⟩
  obtain ⟨k, hk⟩ := List.getElem?_of_mem hother
  exact hgreatest.le (other.zone, k) (mem_matching.mpr ⟨other, hk, rfl, hin⟩)

theorem outside_of_match {zones : List (ConditionalResolver R)} {name : Text}
    (h : matchConditionalZones zones name = none) :
    ∀ zone ∈ zones, inZone (normalizeZone name) zone.zone = false := by
  intro zone hzone
  by_contra hin
  rw [Bool.not_eq_false] at hin
  obtain ⟨k, hk⟩ := List.getElem?_of_mem hzone
  have hmem := mem_matching.mpr ⟨zone, hk, rfl, hin⟩
  rw [matchConditionalZones, matchConditionalZonesByName_eq] at h
  obtain ⟨-, hlast⟩ | ⟨⟨text, j⟩, hlast, hgreatest⟩ :=
    lastMaxBy_spec (fun zone : Text × Nat => utf8Len zone.1)
      ((zones.map ConditionalResolver.zone).zipIdx.filter fun zone => inZone (normalizeZone name) zone.1)
  · rw [lastMaxBy_eq_none.mp hlast] at hmem
    cases hmem
  · obtain ⟨item, hitem, -, -⟩ := mem_matching.mp hgreatest.mem
    simp [hlast, hitem] at h

/-- `zone_resolver` with the zone in the place of its resolver. -/
def pickedZone (conditional stubs : List (ConditionalResolver R)) (name : Text) :
    Option (ConditionalResolver R × RouteKind) :=
  match (matchConditionalZones conditional name, matchConditionalZones stubs name) with
  | (none, none) => none
  | (none, some stub) => some (stub, .stub)
  | (some zone, none) => some (zone, .conditional)
  | (some zone, some stub) =>
      if utf8Len zone.zone < utf8Len stub.zone then some (stub, .stub) else some (zone, .conditional)

theorem zoneResolver_eq (conditional stubs : List (ConditionalResolver R)) (name : Text) :
    zoneResolver conditional stubs name =
      (pickedZone conditional stubs name).map fun picked => (picked.1.resolver, picked.2) := by
  unfold zoneResolver pickedZone
  cases matchConditionalZones conditional name with
  | none => cases matchConditionalZones stubs name <;> rfl
  | some zone =>
    cases matchConditionalZones stubs name with
    | none => rfl
    | some stub =>
      dsimp only
      split <;> rfl

/-- Where the zone is from; a stub zone is longer than any conditional zone that the name is in. -/
def PickedFrom (conditional stubs : List (ConditionalResolver R)) (qname : Text) (zone : ConditionalResolver R)
    (kind : RouteKind) : Prop :=
  kind = .conditional ∧ zone ∈ conditional ∨
    kind = .stub ∧ zone ∈ stubs ∧
      ∀ other ∈ conditional, inZone qname other.zone = true → utf8Len other.zone < utf8Len zone.zone

theorem deepest_append {conditional stubs : List (ConditionalResolver R)} {qname : Text} {zone : ConditionalResolver R}
    (hmem : zone ∈ conditional ++ stubs) (hinside : inZone qname zone.zone = true)
    (hconditional : ∀ other ∈ conditional, inZone qname other.zone = true → utf8Len other.zone ≤ utf8Len zone.zone)
    (hstubs : ∀ other ∈ stubs, inZone qname other.zone = true → utf8Len other.zone ≤ utf8Len zone.zone) :
    Deepest (conditional ++ stubs) qname zone := by
  refine ⟨hmem, hinside, fun other hother => ?_⟩
  cases List.mem_append.mp hother with
  | inl h => exact hconditional other h
  | inr h => exact hstubs other h

/-- The zone that is picked is the deepest one, and names in no zone have none. -/
theorem pickedZone_spec (conditional stubs : List (ConditionalResolver R)) (name : Text) :
    (pickedZone conditional stubs name = none ∧
      ∀ zone ∈ conditional ++ stubs, inZone (normalizeZone name) zone.zone = false) ∨
    ∃ zone kind, pickedZone conditional stubs name = some (zone, kind) ∧
      Deepest (conditional ++ stubs) (normalizeZone name) zone ∧
      PickedFrom conditional stubs (normalizeZone name) zone kind := by
  cases hconditional : matchConditionalZones conditional name with
  | none =>
    have houtside := outside_of_match hconditional
    have hno : ∀ other ∈ conditional, ¬inZone (normalizeZone name) other.zone = true := by
      intro other hother
      rw [houtside other hother]
      exact Bool.false_ne_true
    cases hstub : matchConditionalZones stubs name with
    | none =>
      refine .inl ⟨by simp [pickedZone, hconditional, hstub], fun zone hzone => ?_⟩
      cases List.mem_append.mp hzone with
      | inl hmem => exact houtside zone hmem
      | inr hmem => exact outside_of_match hstub zone hmem
    | some stub =>
      have hdeepest := deepest_of_match hstub
      refine .inr ⟨stub, .stub, by simp [pickedZone, hconditional, hstub], ?_, ?_⟩
      · exact deepest_append (List.mem_append_right _ hdeepest.mem) hdeepest.inside
          (fun other hother hin => absurd hin (hno other hother)) hdeepest.le
      · exact .inr ⟨rfl, hdeepest.mem, fun other hother hin => absurd hin (hno other hother)⟩
  | some zone =>
    have hzone := deepest_of_match hconditional
    cases hstub : matchConditionalZones stubs name with
    | none =>
      have houtside := outside_of_match hstub
      refine .inr ⟨zone, .conditional, by simp [pickedZone, hconditional, hstub], ?_, .inl ⟨rfl, hzone.mem⟩⟩
      apply deepest_append (List.mem_append_left _ hzone.mem) hzone.inside hzone.le
      intro other hother hin
      rw [houtside other hother] at hin
      cases hin
    | some stub =>
      have hdeepest := deepest_of_match hstub
      by_cases hlt : utf8Len zone.zone < utf8Len stub.zone
      · refine .inr ⟨stub, .stub, by simp [pickedZone, hconditional, hstub, hlt], ?_, ?_⟩
        · exact deepest_append (List.mem_append_right _ hdeepest.mem) hdeepest.inside
            (fun other hother hin => (hzone.le other hother hin).trans hlt.le) hdeepest.le
        · exact .inr ⟨rfl, hdeepest.mem, fun other hother hin => (hzone.le other hother hin).trans_lt hlt⟩
      · refine .inr ⟨zone, .conditional, by simp [pickedZone, hconditional, hstub, hlt], ?_, .inl ⟨rfl, hzone.mem⟩⟩
        exact deepest_append (List.mem_append_left _ hzone.mem) hzone.inside hzone.le
          fun other hother hin => (hdeepest.le other hother hin).trans (by omega)

/-- The resolver of a name is that of the deepest zone, and names in no zone have none. -/
theorem zoneResolver_spec (conditional stubs : List (ConditionalResolver R)) (name : Text) :
    (zoneResolver conditional stubs name = none ∧
      ∀ zone ∈ conditional ++ stubs, inZone (normalizeZone name) zone.zone = false) ∨
    ∃ zone kind, zoneResolver conditional stubs name = some (zone.resolver, kind) ∧
      Deepest (conditional ++ stubs) (normalizeZone name) zone := by
  rw [zoneResolver_eq]
  cases pickedZone_spec conditional stubs name with
  | inl h =>
    obtain ⟨hnone, houtside⟩ := h
    exact .inl ⟨by rw [hnone]; rfl, houtside⟩
  | inr h =>
    obtain ⟨zone, kind, hsome, hdeepest, _⟩ := h
    exact .inr ⟨zone, kind, by rw [hsome]; rfl, hdeepest⟩

end DaygleDns.Recursive
