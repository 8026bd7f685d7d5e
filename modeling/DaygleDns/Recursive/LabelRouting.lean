import DaygleDns.Recursive.DeepestZone
import DaygleDns.Recursive.LabelledNames

/-! Zones by their labels: where the zone of a name, which is found in the printed name, is the one
whose labels the name ends in. -/
namespace DaygleDns.Recursive

open DottedText Framing Text

namespace LabelledNames

variable {N R : Type} (names : LabelledNames N)

def lowered (labels : List Label) : List Text := labels.map fun label => toAsciiLowercase (names.display label)

/-- The normalized text of a name with these labels. -/
def printed (labels : List Label) : Text := trimEndMatches '.' (joined (names.lowered labels))

/-- The labels of a normalized zone. -/
def zoneLabels (zone : Text) : Option (List Label) :=
  if zone.isEmpty then some [] else (parts (closed zone)).mapM names.read

/-- How many labels a zone has that the name is in by its labels. -/
def depth (name : N) (zone : Text) : Option Nat :=
  (names.zoneLabels zone).bind fun labels =>
    if (labels.map Label.lower).isSuffixOf ((names.labels name).map Label.lower) then some labels.length else none

/-- The zone is the longest by labels, a stub zone has more labels or bytes than every conditional zone
of the name, and there is one unless the name is in no zone. -/
def FollowsLabels (conditional stubs : List (ConditionalResolver R)) (name : N) :
    Option (ConditionalResolver R × RouteKind) → Prop
  | none => ∀ zone ∈ conditional ++ stubs, names.depth name zone.zone = none
  | some (zone, kind) =>
      ∃ n, names.depth name zone.zone = some n ∧
        (∀ other ∈ conditional ++ stubs, ∀ m ∈ names.depth name other.zone, m ≤ n) ∧
        (kind = .conditional ∧ zone ∈ conditional ∨
          kind = .stub ∧ zone ∈ stubs ∧ ∀ other ∈ conditional, ∀ m ∈ names.depth name other.zone,
            m < n ∨ utf8Len other.zone < utf8Len zone.zone)

/-- The zone is spelled as the last labels of the name are printed. -/
def SpelledAs (name : N) (zone : Text) (n : Nat) : Prop :=
  ∃ labels, labels <:+ names.labels name ∧ labels.length = n ∧ zone = names.printed labels

/-- The longest zone that the printed name ends in begins at one of its labels; and a zone of the name
that it does not end in, being spelled otherwise, is no longer than one that is spelled as the name is
printed. -/
structure ZonesSpelled (conditional stubs : List (ConditionalResolver R)) (name : N) : Prop where
  deepest : ∀ zone, Deepest (conditional ++ stubs) (normalizeZone (names.toText name)) zone →
    ∃ n, names.SpelledAs name zone.zone n
  stub : ∀ zone ∈ stubs, inZone (normalizeZone (names.toText name)) zone.zone = false →
    ∀ n ∈ names.depth name zone.zone, ∃ other ∈ conditional ++ stubs, ∃ m, names.SpelledAs name other.zone m ∧ n ≤ m
  conditional : ∀ zone ∈ conditional, inZone (normalizeZone (names.toText name)) zone.zone = false →
    ∀ n ∈ names.depth name zone.zone,
      (∃ other ∈ conditional, ∃ m, names.SpelledAs name other.zone m ∧ n ≤ m) ∨
        ∃ other ∈ stubs, ∃ m, names.SpelledAs name other.zone m ∧ n ≤ m ∧
          (n < m ∨ utf8Len zone.zone < utf8Len other.zone)

variable {names}

namespace Lawful

variable (lawful : names.Lawful)
include lawful

theorem whole_lowered (labels : List Label) : ∀ text ∈ names.lowered labels, Whole text := by
  intro text htext
  obtain ⟨label, _, rfl⟩ := List.mem_map.mp htext
  exact (lawful.whole label).lower

theorem nil_notMem_lowered (labels : List Label) : [] ∉ names.lowered labels := by
  intro h
  obtain ⟨label, _, hnil⟩ := List.mem_map.mp h
  exact lawful.nonempty label (List.map_eq_nil_iff.mp hnil)

theorem head?_lowered (labels : List Label) : (joined (names.lowered labels)).head? ≠ some '.' :=
  head?_joined (lawful.whole_lowered labels) (lawful.nil_notMem_lowered labels)

theorem joined_lowered_ne_nil {labels : List Label} (h : labels ≠ []) : joined (names.lowered labels) ≠ [] := by
  intro hnil
  cases joined_eq_nil hnil with
  | inl hempty => exact h (List.map_eq_nil_iff.mp hempty)
  | inr hempty =>
    apply lawful.nil_notMem_lowered labels
    rw [hempty]
    exact List.mem_cons_self

theorem printed_ne_nil {labels : List Label} (h : labels ≠ []) : names.printed labels ≠ [] := by
  intro hnil
  have hdots := List.rdropWhile_eq_nil_iff.mp hnil
  have hhead := lawful.head?_lowered labels
  have hne := lawful.joined_lowered_ne_nil h
  cases htext : joined (names.lowered labels) with
  | nil => exact hne htext
  | cons c rest =>
    rw [htext] at hdots hhead
    have hdot := beq_iff_eq.mp (hdots c List.mem_cons_self)
    exact hhead (congrArg some hdot)

theorem printed_append {before labels : List Label} (hbefore : before ≠ []) (hlabels : labels ≠ []) :
    names.printed (before ++ labels) = joined (names.lowered before) ++ '.' :: names.printed labels := by
  have hjoined : joined (names.lowered (before ++ labels)) =
      (joined (names.lowered before) ++ ['.']) ++ joined (names.lowered labels) := by
    rw [lowered, List.map_append, joined_append (by simpa using hbefore) (by simpa using hlabels), List.append_assoc]
    rfl
  rw [printed, hjoined, trimEndMatches_append_of_ne _ (lawful.printed_ne_nil hlabels), List.append_assoc]
  rfl

theorem closed_printed (labels : List Label) : closed (names.printed labels) = joined (names.lowered labels) := by
  apply closed_trimEndMatches (lawful.whole_lowered labels)
  intro hlast
  exact lawful.nil_notMem_lowered labels (List.mem_of_getLast? hlast)

theorem normalizeZone_toText (name : N) : normalizeZone (names.toText name) = names.printed (names.labels name) := by
  have hsolid : Solid (joined ((names.labels name).map names.display)) := by
    apply solid_joined
    intro text htext
    obtain ⟨label, _, rfl⟩ := List.mem_map.mp htext
    exact lawful.solid label
  have hlower : toAsciiLowercase (joined ((names.labels name).map names.display)) =
      joined (names.lowered (names.labels name)) := by
    rw [lower_joined, List.map_map]
    rfl
  have hhead : (joined ((names.labels name).map names.display)).head? ≠ some '.' := by
    intro hdot
    apply lawful.head?_lowered (names.labels name)
    rw [← hlower, toAsciiLowercase, List.head?_map, hdot]
    rfl
  have htext : trimEndMatches '.' (trimStartMatches '.' (trim (names.toText name))) =
      trimEndMatches '.' (joined ((names.labels name).map names.display)) := by
    have hstart : trimStartMatches '.' (joined ((names.labels name).map names.display)) =
        joined ((names.labels name).map names.display) := by
      cases htext : joined ((names.labels name).map names.display) with
      | nil => rfl
      | cons c rest =>
        rw [htext] at hhead
        apply List.dropWhile_cons_of_neg
        intro hdot
        exact hhead (congrArg some (beq_iff_eq.mp hdot))
    cases lawful.toText name with
    | inl h => rw [h, hsolid.trim, hstart]
    | inr h =>
      have hdot : Solid (joined ((names.labels name).map names.display) ++ ['.']) := hsolid.append (by decide)
      rw [h, hdot.trim]
      cases htext : joined ((names.labels name).map names.display) with
      | nil => rfl
      | cons c rest =>
        rw [htext] at hstart
        have hkept : trimStartMatches '.' (c :: rest ++ ['.']) = c :: rest ++ ['.'] := by
          apply List.dropWhile_cons_of_neg
          intro hdot
          rw [htext] at hhead
          exact hhead (congrArg some (beq_iff_eq.mp hdot))
        rw [hkept, trimEndMatches_concat]
  rw [normalizeZone, htext, printed, ← hlower]
  exact (rdropWhile_lower isDot_toLower _).symm

theorem mapM_read_lowered (labels : List Label) :
    ∃ found, (names.lowered labels).mapM names.read = some found ∧ found.map Label.lower = labels.map Label.lower := by
  induction labels with
  | nil => exact ⟨[], rfl, rfl⟩
  | cons label rest ih =>
    obtain ⟨first, hfirst, hlower⟩ := lawful.read label
    obtain ⟨found, hfound, hrest⟩ := ih
    refine ⟨first :: found, ?_, by rw [List.map_cons, List.map_cons, hlower, hrest]⟩
    rw [lowered, List.map_cons, List.mapM_cons, hfirst]
    change (names.lowered rest).mapM names.read >>= _ = _
    rw [hfound]
    rfl

theorem zoneLabels_printed (labels : List Label) :
    ∃ found, names.zoneLabels (names.printed labels) = some found ∧ found.map Label.lower = labels.map Label.lower := by
  cases labels with
  | nil => exact ⟨[], rfl, rfl⟩
  | cons label rest =>
    have hne : (names.printed (label :: rest)).isEmpty = false := by
      simpa using lawful.printed_ne_nil (List.cons_ne_nil label rest)
    obtain ⟨found, hfound, hlower⟩ := lawful.mapM_read_lowered (label :: rest)
    refine ⟨found, ?_, hlower⟩
    rw [zoneLabels, hne, lawful.closed_printed, parts_joined (by simp [lowered]) (lawful.whole_lowered _)]
    exact hfound

theorem depth_of_spelledAs {name : N} {zone : Text} {n : Nat} (h : names.SpelledAs name zone n) :
    names.depth name zone = some n := by
  obtain ⟨labels, hsuffix, hlength, rfl⟩ := h
  obtain ⟨found, hfound, hlower⟩ := lawful.zoneLabels_printed labels
  rw [depth, hfound, Option.bind_some, hlower, if_pos]
  · rw [← hlength, ← List.length_map Label.lower, hlower, List.length_map]
  · exact List.isSuffixOf_iff_suffix.mpr (hsuffix.map Label.lower)

theorem inZone_of_spelledAs {name : N} {zone : Text} {n : Nat} (h : names.SpelledAs name zone n) :
    inZone (normalizeZone (names.toText name)) zone = true := by
  obtain ⟨labels, ⟨before, hbefore⟩, _, rfl⟩ := h
  rw [lawful.normalizeZone_toText, ← hbefore]
  by_cases hlabels : labels = []
  · rw [hlabels]
    rfl
  · rw [inZone, isLabelAlignedSuffix, Bool.or_eq_true, Bool.or_eq_true]
    right
    by_cases hnil : before = []
    · rw [hnil]
      exact .inl (decide_eq_true rfl)
    · rw [lawful.printed_append hnil hlabels]
      exact .inr (List.isSuffixOf_iff_suffix.mpr ⟨_, rfl⟩)

/-- Of two zones that are spelled as the name is printed, the one with more labels is longer. -/
theorem utf8Len_lt_of_spelledAs {name : N} {first second : Text} {m n : Nat} (hfirst : names.SpelledAs name first m)
    (hsecond : names.SpelledAs name second n) (h : m < n) : utf8Len first < utf8Len second := by
  obtain ⟨few, hfew, hm, rfl⟩ := hfirst
  obtain ⟨many, hmany, hn, rfl⟩ := hsecond
  obtain ⟨before, rfl⟩ := List.suffix_of_suffix_length_le hfew hmany (by omega)
  rw [List.length_append] at hn
  have hbefore : before ≠ [] := by
    intro hnil
    rw [hnil, List.length_nil] at hn
    omega
  by_cases hnil : few = []
  · subst hnil
    have hne : names.printed (before ++ []) ≠ [] := lawful.printed_ne_nil (by simpa using hbefore)
    exact Nat.pos_of_ne_zero (mt eq_nil_of_utf8Len hne)
  · rw [lawful.printed_append hbefore hnil, utf8Len_append]
    have hdot : utf8Len ('.' :: names.printed few) = 1 + utf8Len (names.printed few) := rfl
    omega

omit lawful in
theorem utf8Len_le_of_spelledAs {name : N} {first second : Text} {n : Nat} (hfirst : names.SpelledAs name first n)
    (hsecond : names.SpelledAs name second n) : utf8Len first ≤ utf8Len second := by
  obtain ⟨labels, hlabels, hlength, rfl⟩ := hfirst
  obtain ⟨others, hothers, rfl, rfl⟩ := hsecond
  have hsame : labels = others := (List.suffix_of_suffix_length_le hlabels hothers hlength.le).eq_of_length hlength
  rw [hsame]

theorem le_of_utf8Len_le {name : N} {first second : Text} {m n : Nat} (hfirst : names.SpelledAs name first m)
    (hsecond : names.SpelledAs name second n) (h : utf8Len first ≤ utf8Len second) : m ≤ n := by
  by_contra hlt
  have := lawful.utf8Len_lt_of_spelledAs hsecond hfirst (by omega)
  omega

/-- What is behind a dot inside of a label is not a zone of the name by its labels. -/
theorem depth_behindDot {name : N} {before after : List Label} {label : Label} {head tail : Text}
    (hlabels : names.labels name = before ++ label :: after)
    (hlabel : toAsciiLowercase (names.display label) = head ++ '.' :: tail) {zone : Text} (hne : zone ≠ [])
    (hparts : parts (closed zone) = tail :: names.lowered after) : names.depth name zone = none := by
  obtain ⟨front, behind, hdisplay, _, hbehind⟩ := List.map_eq_append_iff.mp hlabel
  obtain ⟨c, rest, hsplit, hdot, htail⟩ := List.map_eq_cons_iff.mp hbehind
  have hc : c = '.' := toLower_eq_dot.mp hdot
  rw [hsplit, hc] at hdisplay
  obtain ⟨found, hfound, hlower⟩ := lawful.mapM_read_lowered after
  rw [depth, zoneLabels, if_neg (by simpa using hne), hparts, List.mapM_cons]
  cases hread : names.read tail with
  | none => rfl
  | some first =>
    have hshort := lawful.behindDot label front rest hdisplay first (by rw [toAsciiLowercase, htail]; exact hread)
    rw [hfound]
    change (if _ then _ else _) = _
    rw [if_neg]
    intro hsuffix
    have hsame : (first :: found).map Label.lower = (label :: after).map Label.lower := by
      rw [List.isSuffixOf_iff_suffix, hlabels, List.map_append] at hsuffix
      have hlength : ((first :: found).map Label.lower).length = ((label :: after).map Label.lower).length := by
        rw [List.map_cons, hlower, List.map_cons, List.length_cons, List.length_cons]
      have hle := List.suffix_of_suffix_length_le hsuffix (List.suffix_append _ _) hlength.le
      exact hle.eq_of_length hlength
    have hbytes : first.lower = label.lower := (List.cons.inj hsame).1
    have hlength := congrArg List.length hbytes
    rw [Label.lower, Label.lower, List.length_map, List.length_map] at hlength
    omega

/-- A zone that the printed name ends in is one of its zones by their labels only where it begins at a label. -/
theorem spelledAs_of_inZone {name : N} {zone : Text} {n : Nat}
    (hinside : inZone (normalizeZone (names.toText name)) zone = true) (hdepth : names.depth name zone = some n) :
    names.SpelledAs name zone n := by
  have hspelled : ∃ labels, labels <:+ names.labels name ∧ zone = names.printed labels := by
    rw [lawful.normalizeZone_toText, inZone, isLabelAlignedSuffix, Bool.or_eq_true, Bool.or_eq_true,
      List.isEmpty_iff, decide_eq_true_eq] at hinside
    by_cases hnil : zone = []
    · exact ⟨[], List.nil_suffix, hnil⟩
    cases hinside.resolve_left hnil with
    | inl hwhole => exact ⟨names.labels name, List.suffix_rfl, hwhole.symm⟩
    | inr hsuffix =>
      obtain ⟨front, hfront⟩ := List.isSuffixOf_iff_suffix.mp hsuffix
      obtain ⟨dots, hdots⟩ := List.rdropWhile_prefix (· == '.') (joined (names.lowered (names.labels name)))
      change names.printed (names.labels name) ++ dots = _ at hdots
      rw [← hfront, List.append_assoc, List.cons_append] at hdots
      -- Without the dots at its end, what is behind the dot is the zone.
      have hlast : zone.getLast? ≠ some '.' := by
        have := getLast?_trimEndMatches '.' (joined (names.lowered (names.labels name)))
        change (names.printed (names.labels name)).getLast? ≠ _ at this
        rwa [← hfront, List.getLast?_append_of_ne_nil _ (List.cons_ne_nil _ _), List.getLast?_cons_of_ne_nil hnil] at this
      have htrim : trimEndMatches '.' (zone ++ dots) = zone := by
        have hwhole : trimEndMatches '.' (joined (names.lowered (names.labels name))) = front ++ '.' :: zone := hfront.symm
        have hkeeps : trimEndMatches '.' (zone ++ dots) ≠ [] := by
          intro hgone
          obtain ⟨c, hc⟩ := Option.isSome_iff_exists.mp (List.getLast?_isSome.mpr hnil)
          have hdot := List.rdropWhile_eq_nil_iff.mp hgone c (List.mem_append_left _ (List.mem_of_getLast? hc))
          exact hlast (by rw [hc, beq_iff_eq.mp hdot])
        rw [← hdots, show front ++ '.' :: (zone ++ dots) = (front ++ ['.']) ++ (zone ++ dots) by simp,
          trimEndMatches_append_of_ne _ hkeeps] at hwhole
        rw [show front ++ '.' :: zone = (front ++ ['.']) ++ zone by simp] at hwhole
        exact List.append_cancel_left hwhole
      cases split_joined (lawful.whole_lowered _) hdots.symm with
      | inl hboundary =>
        obtain ⟨before, after, htexts, _, _, hrest⟩ := hboundary
        obtain ⟨first, labels, hlabels, _, rfl⟩ := List.map_eq_append_iff.mp htexts
        refine ⟨labels, ⟨first, hlabels.symm⟩, ?_⟩
        rw [← htrim, hrest]
        rfl
      | inr hinside =>
        obtain ⟨before, head, tail, after, htexts, hwhole, hrest, _⟩ := hinside
        obtain ⟨first, later, hlabels, _, hlater⟩ := List.map_eq_append_iff.mp htexts
        obtain ⟨label, labels, hcons, hlabel, rfl⟩ := List.map_eq_cons_iff.mp hlater
        rw [hcons] at hlabels
        have hwholes : ∀ text ∈ tail :: names.lowered labels, Whole text :=
          List.forall_mem_cons.mpr ⟨hwhole, lawful.whole_lowered labels⟩
        have hclosed : closed zone = joined (tail :: names.lowered labels) := by
          rw [hrest] at htrim
          rw [← htrim]
          apply closed_trimEndMatches hwholes
          intro hempty
          cases labels with
          | nil =>
            have htail : tail = [] := Option.some.inj hempty
            rw [htail] at htrim
            exact hnil htrim.symm
          | cons label labels =>
            rw [List.getLast?_cons_of_ne_nil (by simp [lowered])] at hempty
            exact lawful.nil_notMem_lowered _ (List.mem_of_getLast? hempty)
        have hnone := lawful.depth_behindDot hlabels hlabel hnil
          (by rw [hclosed]; exact parts_joined (List.cons_ne_nil _ _) hwholes)
        rw [hnone] at hdepth
        cases hdepth
  obtain ⟨labels, hsuffix, rfl⟩ := hspelled
  have hlength := lawful.depth_of_spelledAs ⟨labels, hsuffix, rfl, rfl⟩
  rw [hdepth] at hlength
  exact ⟨labels, hsuffix, (Option.some.inj hlength).symm, rfl⟩

/-- Where the picked zone follows the labels, the zones are spelled so that it can be. -/
theorem zonesSpelled_of_follows {conditional stubs : List (ConditionalResolver R)} {name : N}
    (h : names.FollowsLabels conditional stubs name (pickedZone conditional stubs (names.toText name))) :
    names.ZonesSpelled conditional stubs name := by
  cases pickedZone_spec conditional stubs (names.toText name) with
  | inl hnone =>
    obtain ⟨hpicked, houtside⟩ := hnone
    rw [hpicked] at h
    refine ⟨fun zone hzone => ?_, fun zone hzone _ n hn => ?_, fun zone hzone _ n hn => ?_⟩
    · have hin := hzone.inside
      rw [houtside zone hzone.mem] at hin
      cases hin
    · rw [h zone (List.mem_append_right _ hzone)] at hn
      cases hn
    · rw [h zone (List.mem_append_left _ hzone)] at hn
      cases hn
  | inr hsome =>
    obtain ⟨picked, kind, hpicked, hdeepest, _⟩ := hsome
    rw [hpicked] at h
    obtain ⟨m, hdepth, hlongest, hfrom⟩ := h
    have hspelled := lawful.spelledAs_of_inZone hdeepest.inside hdepth
    refine ⟨fun zone hzone => ?_, fun zone hzone _ n hn => ?_, fun zone hzone _ n hn => ?_⟩
    · rw [hzone.zone_unique hdeepest]
      exact ⟨m, hspelled⟩
    · exact ⟨picked, hdeepest.mem, m, hspelled, hlongest zone (List.mem_append_right _ hzone) n hn⟩
    · have hle := hlongest zone (List.mem_append_left _ hzone) n hn
      cases hfrom with
      | inl hconditional => exact .inl ⟨picked, hconditional.2, m, hspelled, hle⟩
      | inr hstub => exact .inr ⟨picked, hstub.2.1, m, hspelled, hle, hstub.2.2 zone hzone n hn⟩

theorem follows_of_zonesSpelled {conditional stubs : List (ConditionalResolver R)} {name : N}
    (h : names.ZonesSpelled conditional stubs name) :
    names.FollowsLabels conditional stubs name (pickedZone conditional stubs (names.toText name)) := by
  cases pickedZone_spec conditional stubs (names.toText name) with
  | inl hnone =>
    obtain ⟨hpicked, houtside⟩ := hnone
    rw [hpicked]
    have hspelled (other : ConditionalResolver R) (hother : other ∈ conditional ++ stubs) (m : Nat) :
        ¬names.SpelledAs name other.zone m := by
      intro hm
      have hin := lawful.inZone_of_spelledAs hm
      rw [houtside other hother] at hin
      cases hin
    intro zone hzone
    rw [Option.eq_none_iff_forall_ne_some]
    intro n hn
    cases List.mem_append.mp hzone with
    | inl hmem =>
      cases h.conditional zone hmem (houtside zone hzone) n hn with
      | inl hother =>
        obtain ⟨other, hother, m, hm, _⟩ := hother
        exact hspelled other (List.mem_append_left _ hother) m hm
      | inr hother =>
        obtain ⟨other, hother, m, hm, _⟩ := hother
        exact hspelled other (List.mem_append_right _ hother) m hm
    | inr hmem =>
      obtain ⟨other, hother, m, hm, _⟩ := h.stub zone hmem (houtside zone hzone) n hn
      exact hspelled other hother m hm
  | inr hsome =>
    obtain ⟨picked, kind, hpicked, hdeepest, hfrom⟩ := hsome
    rw [hpicked]
    obtain ⟨m, hspelled⟩ := h.deepest picked hdeepest
    have hprinted {other : ConditionalResolver R} (hother : other ∈ conditional ++ stubs) {n : Nat}
        (hn : names.SpelledAs name other.zone n) : n ≤ m :=
      lawful.le_of_utf8Len_le hn hspelled (hdeepest.le other hother (lawful.inZone_of_spelledAs hn))
    refine ⟨m, lawful.depth_of_spelledAs hspelled, fun other hother n hn => ?_, ?_⟩
    · cases hin : inZone (normalizeZone (names.toText name)) other.zone with
      | true => exact hprinted hother (lawful.spelledAs_of_inZone hin hn)
      | false =>
        cases List.mem_append.mp hother with
        | inl hmem =>
          cases h.conditional other hmem hin n hn with
          | inl hlonger =>
            obtain ⟨longer, hlonger, k, hk, hle⟩ := hlonger
            exact hle.trans (hprinted (List.mem_append_left _ hlonger) hk)
          | inr hlonger =>
            obtain ⟨longer, hlonger, k, hk, hle, _⟩ := hlonger
            exact hle.trans (hprinted (List.mem_append_right _ hlonger) hk)
        | inr hmem =>
          obtain ⟨longer, hlonger, k, hk, hle⟩ := h.stub other hmem hin n hn
          exact hle.trans (hprinted hlonger hk)
    · cases hfrom with
      | inl hconditional => exact .inl hconditional
      | inr hstub =>
        refine .inr ⟨hstub.1, hstub.2.1, fun other hother n hn => ?_⟩
        cases hin : inZone (normalizeZone (names.toText name)) other.zone with
        | true => exact .inr (hstub.2.2 other hother hin)
        | false =>
          cases h.conditional other hother hin n hn with
          | inl hlonger =>
            -- A conditional zone that is printed has fewer bytes than the stub zone, and so fewer labels.
            obtain ⟨longer, hlonger, k, hk, hle⟩ := hlonger
            have hbytes := hstub.2.2 longer hlonger (lawful.inZone_of_spelledAs hk)
            have hlt : k ≠ m := by
              rintro rfl
              have := utf8Len_le_of_spelledAs hspelled hk
              omega
            have := hprinted (List.mem_append_left _ hlonger) hk
            exact .inl (by omega)
          | inr hlonger =>
            obtain ⟨longer, hlonger, k, hk, hle, hmore⟩ := hlonger
            have hk' := hprinted (List.mem_append_right _ hlonger) hk
            have hbytes := hdeepest.le longer (List.mem_append_right _ hlonger) (lawful.inZone_of_spelledAs hk)
            omega

end Lawful

theorem zone_routing_follows_labels (lawful : names.Lawful) (conditional stubs : List (ConditionalResolver R)) (name : N) :
    zoneResolver conditional stubs (names.toText name) =
        (pickedZone conditional stubs (names.toText name)).map (fun picked => (picked.1.resolver, picked.2)) ∧
      (names.FollowsLabels conditional stubs name (pickedZone conditional stubs (names.toText name)) ↔
        names.ZonesSpelled conditional stubs name) :=
  ⟨zoneResolver_eq conditional stubs (names.toText name), lawful.zonesSpelled_of_follows, lawful.follows_of_zonesSpelled⟩

def wwwCorp : List Label := ["www", "corp"].filterMap fun label => readLabel label.toList

theorem zone_routing_follows_labels_stub :
    escapedNames.ZonesSpelled [⟨"corp".toList, 0⟩] [⟨"www.corp".toList, 1⟩] wwwCorp := by
  have hpicked : pickedZone [⟨"corp".toList, 0⟩] [⟨"www.corp".toList, 1⟩] (escapedNames.toText wwwCorp) =
      some (⟨"www.corp".toList, 1⟩, .stub) := by decide +kernel
  apply (zone_routing_follows_labels escapedNames_lawful _ _ _).2.mp
  rw [hpicked]
  exact ⟨2, by decide +kernel, by decide +kernel, .inr ⟨rfl, List.mem_cons_self, by decide +kernel⟩⟩

/-- The first label has a dot in it. -/
def dottedHost : List Label := ["a\\.b", "corp"].filterMap fun label => readLabel label.toList

theorem zone_routing_follows_labels_fails :
    (escapedNames.labels dottedHost).map Label.bytes = [[97, 46, 98], [99, 111, 114, 112]] ∧
      zoneResolver [⟨"b.corp".toList, 0⟩] [] (escapedNames.toText dottedHost) = some (0, .conditional) ∧
      escapedNames.depth dottedHost "b.corp".toList = none ∧
      ¬∀ (N R : Type) (names : LabelledNames N), names.Lawful →
        ∀ (conditional stubs : List (ConditionalResolver R)) (name : N),
          names.FollowsLabels conditional stubs name (pickedZone conditional stubs (names.toText name)) := by
  have hdepth : escapedNames.depth dottedHost "b.corp".toList = none := by decide +kernel
  refine ⟨by decide +kernel, by decide +kernel, hdepth, fun h => ?_⟩
  have hfollows := h (List Label) Nat escapedNames escapedNames_lawful [⟨"b.corp".toList, 0⟩] [] dottedHost
  have hpicked : pickedZone [⟨"b.corp".toList, 0⟩] [] (escapedNames.toText dottedHost) =
      some (⟨"b.corp".toList, 0⟩, .conditional) := by decide +kernel
  rw [hpicked] at hfollows
  obtain ⟨n, hn, _⟩ := hfollows
  rw [hdepth] at hn
  cases hn

end LabelledNames

end DaygleDns.Recursive
