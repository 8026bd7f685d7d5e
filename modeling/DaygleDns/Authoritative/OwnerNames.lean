import DaygleDns.AddressFacts
import DaygleDns.Authoritative.NameFacts
import DaygleDns.Authoritative.ZoneFile

/-! Owner names: how the store resolves them, in which case they are spelled, and how the
reader of zone files resolves them before the store does. -/
namespace DaygleDns.Authoritative

open Text

/-- The zone's name as it is put behind owners. -/
def bareZone (zone : Text) : Text := trimEndMatches '.' (trim zone)

/-- The owner is taken to be relative. -/
def Appended (owner zone : Text) : Prop :=
  trim owner ≠ ['@'] ∧ trim owner ≠ [] ∧ toAsciiLowercase (trim owner) ≠ normalizeFqdn zone ∧
    (trim owner).getLast? ≠ some '.' ∧ endsWith ('.' :: bareZone zone) (trim owner) = false

instance (owner zone : Text) : Decidable (Appended owner zone) := inferInstanceAs (Decidable (_ ∧ _))

/-- The name of an owner that the zone's name is not put behind, from its spelling in lower case. -/
def keptName (lower zone : Text) : Text :=
  if lower = ['@'] ∨ lower = [] ∨ lower = normalizeFqdn zone then normalizeFqdn zone
  else if lower.getLast? = some '.' then lower.dropLast
  else lower

theorem lower_eq_at {s : Text} : toAsciiLowercase s = ['@'] ↔ s = ['@'] := by
  constructor
  · intro h
    obtain ⟨c, hs, hc⟩ := List.map_eq_singleton_iff.mp h
    rw [hs, (toLower_eq_of_low (by decide)).mp hc]
  · rintro rfl
    rfl

theorem lower_eq_nil {s : Text} : toAsciiLowercase s = [] ↔ s = [] := List.map_eq_nil_iff

theorem getLast?_lower {s : Text} : (toAsciiLowercase s).getLast? = some '.' ↔ s.getLast? = some '.' := by
  rw [toAsciiLowercase, List.getLast?_map, Option.map_eq_some_iff]
  constructor
  · rintro ⟨c, hlast, hc⟩
    rw [hlast, toLower_eq_dot.mp hc]
  · intro hlast
    exact ⟨'.', hlast, rfl⟩

theorem stripSuffix_dot (s : Text) :
    stripSuffix ['.'] s = if s.getLast? = some '.' then some s.dropLast else none := by
  split
  next hlast =>
    obtain ⟨lead, rfl⟩ := List.getLast?_eq_some_iff.mp hlast
    rw [stripSuffix_append, List.dropLast_concat]
  next hlast =>
    unfold stripSuffix
    rw [if_neg]
    intro hsuffix
    obtain ⟨lead, rfl⟩ := List.isSuffixOf_iff_suffix.mp hsuffix
    exact hlast List.getLast?_concat

theorem qualifyName_eq (owner zone : Text) :
    qualifyName owner zone =
      if Appended owner zone then toAsciiLowercase (trim owner) ++ '.' :: normalizeFqdn zone
      else keptName (toAsciiLowercase (trim owner)) zone := by
  have hzone : toAsciiLowercase (bareZone zone) = normalizeFqdn zone := rfl
  simp only [qualifyName, keptName, lower_eq_at, lower_eq_nil, getLast?_lower, stripSuffix_dot, Appended]
  change toAsciiLowercase (if trim owner == ['@'] || (trim owner).isEmpty || eqIgnoreAsciiCase (trim owner) (bareZone zone)
    then bareZone zone else _) = _
  by_cases hapex : trim owner = ['@'] ∨ trim owner = [] ∨ toAsciiLowercase (trim owner) = normalizeFqdn zone
  · have hcond : (trim owner == ['@'] || (trim owner).isEmpty || eqIgnoreAsciiCase (trim owner) (bareZone zone)) = true := by
      simpa [eqIgnoreAsciiCase, hzone, or_assoc] using hapex
    rw [if_pos hcond, if_neg (by tauto), if_pos hapex, hzone]
  · have hcond : (trim owner == ['@'] || (trim owner).isEmpty || eqIgnoreAsciiCase (trim owner) (bareZone zone)) = false := by
      simpa [eqIgnoreAsciiCase, hzone, and_assoc] using hapex
    rw [hcond, if_neg (by decide), if_neg hapex]
    by_cases hlast : (trim owner).getLast? = some '.'
    · have happended : ¬Appended owner zone := by
        rintro ⟨-, -, -, hother, -⟩
        exact hother hlast
      rw [if_pos hlast, if_pos hlast]
      refine Eq.trans ?_ (if_neg happended).symm
      exact List.map_dropLast
    · rw [if_neg hlast, if_neg hlast]
      change toAsciiLowercase (if endsWith ('.' :: bareZone zone) (trim owner) = true then trim owner
        else trim owner ++ '.' :: bareZone zone) = _
      cases hsuffix : endsWith ('.' :: bareZone zone) (trim owner) with
      | true => rw [if_pos rfl, if_neg (by simp)]
      | false =>
        rw [if_neg (by decide), if_pos (by tauto), toAsciiLowercase_append, ← hzone]
        rfl

/-- Spellings of one owner are resolved alike when both or neither are taken to be relative. -/
theorem qualifyName_spelling {owner variant : Text} (zone : Text) (h : toAsciiLowercase variant = toAsciiLowercase owner) :
    qualifyName variant zone = qualifyName owner zone ↔ (Appended variant zone ↔ Appended owner zone) := by
  have htrim : toAsciiLowercase (trim variant) = toAsciiLowercase (trim owner) := by
    rw [← trim_lower, h, trim_lower]
  have hkept {a b : Text} (hsame : toAsciiLowercase (trim a) = toAsciiLowercase (trim b)) (happended : Appended a zone)
      (hother : ¬Appended b zone) : keptName (toAsciiLowercase (trim b)) zone = toAsciiLowercase (trim a) := by
    obtain ⟨hat, hnil, hzone, hlast, -⟩ := happended
    rw [← hsame, keptName, if_neg (by rw [lower_eq_at, lower_eq_nil]; tauto), if_neg (by rwa [getLast?_lower])]
  have hlonger {a rest : Text} {c : Char} : a ++ c :: rest ≠ a := by
    intro hsame
    have hlength := congrArg List.length hsame
    simp at hlength
  rw [qualifyName_eq, qualifyName_eq]
  by_cases hvariant : Appended variant zone
  · by_cases howner : Appended owner zone
    · simp only [hvariant, howner, if_true, htrim]
    · rw [if_pos hvariant, if_neg howner, hkept htrim hvariant howner]
      exact iff_of_false hlonger (by tauto)
  · by_cases howner : Appended owner zone
    · rw [if_neg hvariant, if_pos howner, hkept htrim.symm howner hvariant]
      exact iff_of_false hlonger.symm (by tauto)
    · simp only [hvariant, howner, if_false, htrim]

/-! Owners of zone files. -/

/-- The store gives the owner as it stands in a file the name that it gives the owner itself:
it is the apex, a full name inside the zone with one dot behind it, or a relative name that
does not spell the zone. -/
def ResolvedAlike (owner zone : Text) : Prop :=
  owner = ['@'] ∨
    (∃ name, owner = name ++ ['.'] ∧ name ≠ [] ∧ name.getLast? ≠ some '.' ∧
      (toAsciiLowercase name = normalizeFqdn zone ∨ endsWith ('.' :: bareZone zone) (toAsciiLowercase name) = true)) ∨
    (owner.getLast? ≠ some '.' ∧ toAsciiLowercase owner ≠ normalizeFqdn zone ∧
      (bareZone zone = normalizeFqdn zone ∨ endsWith ('.' :: normalizeFqdn zone) owner = true))

theorem solid_lower {s : Text} (h : Solid s) : Solid (toAsciiLowercase s) := by
  intro c hc
  obtain ⟨d, hd, rfl⟩ := List.mem_map.mp hc
  rw [isWhitespace_toLower, h d hd]

theorem solid_bareZone {zone : Text} (h : Solid zone) : Solid (bareZone zone) := by
  intro c hc
  have htrim := (trimEndMatches_leads '.' (trim zone)).subset hc
  rw [h.trim] at htrim
  exact h c htrim

theorem endsWith_append (tail lead : Text) : endsWith tail (lead ++ tail) = true :=
  List.isSuffixOf_iff_suffix.mpr (List.suffix_append lead tail)

theorem endsWith_iff {tail s : Text} : endsWith tail s = true ↔ ∃ lead, s = lead ++ tail := by
  rw [endsWith, List.isSuffixOf_iff_suffix]
  exact exists_congr fun lead => eq_comm

theorem endsWith_same_length {a b lead : Text} (h : a.length = b.length) :
    endsWith ('.' :: a) (lead ++ '.' :: b) = true ↔ a = b := by
  rw [endsWith_iff]
  constructor
  · intro hends
    obtain ⟨other, hother⟩ := hends
    have htail := (List.append_inj' hother (by simp [h])).2
    exact (List.cons.inj htail).2.symm
  · rintro rfl
    exact ⟨lead, rfl⟩

theorem append_ne_self {a rest : Text} {c : Char} : a ++ c :: rest ≠ a := by
  intro hsame
  have hlength := congrArg List.length hsame
  simp at hlength

theorem append_ne_tail {lead tail : Text} {c : Char} : lead ++ c :: tail ≠ tail := by
  intro hsame
  have hlength := congrArg List.length hsame
  simp only [List.length_append, List.length_cons] at hlength
  omega

theorem length_bareZone (zone : Text) : (bareZone zone).length = (normalizeFqdn zone).length :=
  (List.length_map _).symm

theorem resolveOwner_absolute (name origin : Text) :
    resolveOwner (name ++ ['.']) origin = .ok (toAsciiLowercase (trimEndMatches '.' name)) := by
  have hat : name ++ ['.'] ≠ ['@'] := by
    intro h
    have hlast := congrArg List.getLast? h
    simp at hlast
  rw [resolveOwner, if_neg hat, if_pos (by simp), if_pos List.getLast?_concat, trimEndMatches_concat]

theorem resolveOwner_relative {owner origin : Text} (hne : origin ≠ []) (hat : owner ≠ ['@'])
    (hlast : owner.getLast? ≠ some '.') :
    resolveOwner owner origin =
      .ok (if endsWith ('.' :: origin) owner = true then toAsciiLowercase owner else owner ++ '.' :: origin) := by
  have horigin : origin.isEmpty = false := by simpa using hne
  rw [resolveOwner, if_neg hat, if_neg hlast, horigin]
  by_cases hdot : '.' ∈ owner
  · rw [if_pos hdot]
    cases endsWith ('.' :: origin) owner <;> rfl
  · have hends : endsWith ('.' :: origin) owner = false := by
      rw [Bool.eq_false_iff]
      intro hends
      obtain ⟨lead, rfl⟩ := endsWith_iff.mp hends
      exact hdot (by simp)
    rw [if_neg hdot, hends]
    rfl

theorem length_qualifyName_le (zone : Text) {s : Text} (hs : Solid s) :
    (qualifyName s zone).length ≤ s.length + 1 + (normalizeFqdn zone).length := by
  rw [qualifyName_eq, hs.trim]
  unfold keptName
  have hlower : (toAsciiLowercase s).length = s.length := List.length_map _
  split
  next => simp [hlower]; omega
  next =>
    split
    next => omega
    next =>
      split
      next => rw [List.length_dropLast]; omega
      next => omega

theorem qualifyName_absolute (zone : Text) {name : Text} (hs : Solid name) :
    qualifyName (name ++ ['.']) zone = toAsciiLowercase name := by
  have hsolid : Solid (name ++ ['.']) := hs.append (by decide)
  have hlast : (toAsciiLowercase (name ++ ['.'])).getLast? = some '.' := getLast?_lower.mpr List.getLast?_concat
  have hother : ¬(toAsciiLowercase (name ++ ['.']) = ['@'] ∨ toAsciiLowercase (name ++ ['.']) = [] ∨
      toAsciiLowercase (name ++ ['.']) = normalizeFqdn zone) := by
    rintro (h | h | h)
    · rw [h] at hlast
      cases hlast
    · rw [h] at hlast
      cases hlast
    · rw [h] at hlast
      exact getLast?_normalizeFqdn zone hlast
  rw [qualifyName_eq, hsolid.trim, if_neg (fun h => h.2.2.2.1 (by rw [hsolid.trim]; exact List.getLast?_concat)), keptName,
    if_neg hother, if_pos hlast, toAsciiLowercase_append]
  exact List.dropLast_concat

/-- The name of the owner itself, once it is in lower case. -/
theorem qualifyName_lower_eq_iff (zone : Text) {name : Text} (hs : Solid name) (hnil : name ≠ []) (hlast : name.getLast? ≠ some '.') :
    qualifyName (toAsciiLowercase name) zone = toAsciiLowercase name ↔
      toAsciiLowercase name = normalizeFqdn zone ∨ endsWith ('.' :: bareZone zone) (toAsciiLowercase name) = true := by
  have hsolid := solid_lower hs
  have hlower : (toAsciiLowercase name).getLast? ≠ some '.' := by rwa [Ne, getLast?_lower]
  rw [qualifyName_eq, hsolid.trim, toAsciiLowercase_idem]
  by_cases hzone : toAsciiLowercase name = normalizeFqdn zone
  · have happended : ¬Appended (toAsciiLowercase name) zone := fun h => h.2.2.1 (by rw [hsolid.trim, toAsciiLowercase_idem, hzone])
    rw [if_neg happended, keptName, if_pos (.inr (.inr hzone))]
    exact iff_of_true hzone.symm (.inl hzone)
  · by_cases hat : name = ['@']
    · subst hat
      have happended : ¬Appended (toAsciiLowercase ['@']) zone := fun h => h.1 rfl
      rw [if_neg happended, keptName, if_pos (.inl rfl)]
      apply iff_of_false (Ne.symm hzone)
      rintro (h | h)
      · exact hzone h
      · obtain ⟨lead, hlead⟩ := endsWith_iff.mp h
        have hdot : '.' ∈ toAsciiLowercase ['@'] := by rw [hlead]; simp
        exact absurd hdot (by decide)
    · cases hends : endsWith ('.' :: bareZone zone) (toAsciiLowercase name) with
      | true =>
        have happended : ¬Appended (toAsciiLowercase name) zone := by
          intro h
          have hfalse := h.2.2.2.2
          rw [hsolid.trim, hends] at hfalse
          cases hfalse
        rw [if_neg happended, keptName, if_neg (by rw [lower_eq_at, lower_eq_nil]; tauto), if_neg hlower]
        exact iff_of_true rfl (.inr rfl)
      | false =>
        have happended : Appended (toAsciiLowercase name) zone := by
          unfold Appended
          rw [hsolid.trim, toAsciiLowercase_idem, Ne, lower_eq_at, Ne, lower_eq_nil]
          exact ⟨hat, hnil, hzone, hlower, hends⟩
        rw [if_pos happended]
        exact iff_of_false append_ne_self (by simp [hzone])

variable {zone : Text}

section Nonempty

variable (hne : normalizeFqdn zone ≠ [])
include hne

theorem getLast?_append_zone (lead : Text) : (lead ++ '.' :: normalizeFqdn zone).getLast? ≠ some '.' := by
  have hlast := getLast?_normalizeFqdn zone
  obtain ⟨c, rest, hcase⟩ := List.exists_cons_of_ne_nil hne
  rw [hcase] at hlast ⊢
  simpa using hlast

/-- A resolved name neither is empty nor ends in a dot, but for dots behind the owner. -/
theorem qualifyName_ends {s : Text} (hs : Solid s) (hlast : s.getLast? ≠ some '.') :
    qualifyName s zone ≠ [] ∧ (qualifyName s zone).getLast? ≠ some '.' := by
  rw [qualifyName_eq, hs.trim]
  split
  next => exact ⟨by simp, getLast?_append_zone hne _⟩
  next =>
    unfold keptName
    split
    next => exact ⟨hne, getLast?_normalizeFqdn zone⟩
    next hkept =>
      have hlower : (toAsciiLowercase s).getLast? ≠ some '.' := by rwa [Ne, getLast?_lower]
      rw [if_neg hlower]
      exact ⟨fun hnil => hkept (.inr (.inl hnil)), hlower⟩

theorem absolute_alike_iff {name : Text} (hs : Solid name) :
    qualifyName (toAsciiLowercase (trimEndMatches '.' name)) zone = qualifyName (name ++ ['.']) zone ↔
      name ≠ [] ∧ name.getLast? ≠ some '.' ∧
        (toAsciiLowercase name = normalizeFqdn zone ∨ endsWith ('.' :: bareZone zone) (toAsciiLowercase name) = true) := by
  have hcore : Solid (toAsciiLowercase (trimEndMatches '.' name)) :=
    solid_lower fun c hc => hs c ((trimEndMatches_leads '.' name).subset hc)
  have hends := qualifyName_ends hne hcore (by rw [Ne, getLast?_lower]; exact getLast?_trimEndMatches '.' name)
  rw [qualifyName_absolute zone hs]
  by_cases hnil : name = []
  · subst hnil
    exact iff_of_false hends.1 (by simp)
  · by_cases hlast : name.getLast? = some '.'
    · apply iff_of_false _ (fun h => h.2.1 hlast)
      intro hsame
      apply hends.2
      rw [hsame, getLast?_lower, hlast]
    · rw [trimEndMatches_of_last hlast, qualifyName_lower_eq_iff zone hs hnil hlast]
      tauto

end Nonempty

theorem lower_append_zone (owner : Text) :
    toAsciiLowercase (owner ++ '.' :: normalizeFqdn zone) = toAsciiLowercase owner ++ '.' :: normalizeFqdn zone := by
  rw [toAsciiLowercase_append]
  exact congrArg (fun tail => toAsciiLowercase owner ++ '.' :: tail) (toAsciiLowercase_idem _)

theorem append_zone_kept (lead : Text) :
    ¬(lead ++ '.' :: normalizeFqdn zone = ['@'] ∨ lead ++ '.' :: normalizeFqdn zone = [] ∨
      lead ++ '.' :: normalizeFqdn zone = normalizeFqdn zone) := by
  have hdot : '.' ∈ lead ++ '.' :: normalizeFqdn zone := by simp
  rintro (h | h | h)
  · rw [h] at hdot
    exact absurd hdot (by decide)
  · rw [h] at hdot
    cases hdot
  · exact append_ne_tail h

/-- The reader keeps an owner inside the zone; the store sees it inside in both spellings or in none. -/
theorem inside_alike {owner : Text} (hs : Solid owner) (hinside : endsWith ('.' :: normalizeFqdn zone) owner = true) :
    toAsciiLowercase owner ≠ normalizeFqdn zone ∧
      qualifyName (toAsciiLowercase owner) zone = qualifyName owner zone := by
  obtain ⟨lead, hlead⟩ := endsWith_iff.mp hinside
  have hsplit : toAsciiLowercase owner = toAsciiLowercase lead ++ '.' :: normalizeFqdn zone := by
    rw [hlead, lower_append_zone]
  have hends : endsWith ('.' :: bareZone zone) (toAsciiLowercase owner) = endsWith ('.' :: bareZone zone) owner := by
    rw [Bool.eq_iff_iff, hsplit, hlead, endsWith_same_length (length_bareZone zone),
      endsWith_same_length (length_bareZone zone)]
  constructor
  · rw [hsplit]
    exact append_ne_tail
  · apply (qualifyName_spelling zone (toAsciiLowercase_idem owner)).mpr
    simp only [Appended, hs.trim, (solid_lower hs).trim, hends, toAsciiLowercase_idem, ne_eq, lower_eq_at, lower_eq_nil,
      getLast?_lower]

section Nonempty

variable (hne : normalizeFqdn zone ≠ [])
include hne

/-- Where the zone is in lower case, what the reader makes of a relative owner stays as it is. -/
theorem appended_alike_iff {owner : Text} (hs : Solid owner) (hwhole : Solid (owner ++ '.' :: normalizeFqdn zone))
    (hat : owner ≠ ['@']) (hnil : owner ≠ []) (hlast : owner.getLast? ≠ some '.')
    (hinside : endsWith ('.' :: normalizeFqdn zone) owner = false) (hcase : bareZone zone = normalizeFqdn zone) :
    qualifyName (owner ++ '.' :: normalizeFqdn zone) zone = qualifyName owner zone ↔
      toAsciiLowercase owner ≠ normalizeFqdn zone := by
  have hwholeKept : ¬Appended (owner ++ '.' :: normalizeFqdn zone) zone := by
    intro h
    have hfalse := h.2.2.2.2
    rw [hwhole.trim, hcase, endsWith_append] at hfalse
    cases hfalse
  rw [qualifyName_eq, if_neg hwholeKept, hwhole.trim, lower_append_zone, keptName, if_neg (append_zone_kept _),
    if_neg (getLast?_append_zone hne _), qualifyName_eq, hs.trim]
  by_cases hzone : toAsciiLowercase owner = normalizeFqdn zone
  · have hownerKept : ¬Appended owner zone := fun h => h.2.2.1 (by rw [hs.trim, hzone])
    rw [if_neg hownerKept, keptName, if_pos (.inr (.inr hzone)), hzone]
    exact iff_of_false append_ne_self (fun h => h rfl)
  · have hownerAppended : Appended owner zone := by
      unfold Appended
      rw [hs.trim, hcase]
      exact ⟨hat, hnil, hzone, hlast, hinside⟩
    rw [if_pos hownerAppended]
    exact iff_of_true rfl hzone

/-- Where it is not, the zone's name is put behind the owner twice. -/
theorem appended_twice {owner : Text} (hs : Solid owner) (hwhole : Solid (owner ++ '.' :: normalizeFqdn zone))
    (hcase : bareZone zone ≠ normalizeFqdn zone) :
    qualifyName (owner ++ '.' :: normalizeFqdn zone) zone ≠ qualifyName owner zone := by
  have hkept := @append_zone_kept zone (toAsciiLowercase owner)
  have hwholeAppended : Appended (owner ++ '.' :: normalizeFqdn zone) zone := by
    unfold Appended
    rw [hwhole.trim, lower_append_zone]
    refine ⟨fun h => hkept (.inl (by rw [← lower_append_zone, h]; rfl)), by simp, fun h => hkept (.inr (.inr h)),
      getLast?_append_zone hne _, ?_⟩
    rw [Bool.eq_false_iff, Ne, endsWith_same_length (length_bareZone zone)]
    exact hcase
  intro hsame
  have hlength := congrArg List.length hsame
  have hbound := length_qualifyName_le zone hs
  rw [qualifyName_eq, if_pos hwholeAppended, hwhole.trim, lower_append_zone] at hlength
  simp only [List.length_append, List.length_cons, toAsciiLowercase, List.length_map] at hlength
  omega

theorem relative_alike_iff {owner : Text} (hs : Solid owner) (hsolid : Solid zone) (hat : owner ≠ ['@']) (hnil : owner ≠ [])
    (hlast : owner.getLast? ≠ some '.') :
    qualifyName (if endsWith ('.' :: normalizeFqdn zone) owner = true then toAsciiLowercase owner
        else owner ++ '.' :: normalizeFqdn zone) zone = qualifyName owner zone ↔
      toAsciiLowercase owner ≠ normalizeFqdn zone ∧
        (bareZone zone = normalizeFqdn zone ∨ endsWith ('.' :: normalizeFqdn zone) owner = true) := by
  have hwhole : Solid (owner ++ '.' :: normalizeFqdn zone) :=
    hs.append (List.forall_mem_cons.mpr ⟨by decide, solid_lower (solid_bareZone hsolid)⟩)
  cases hinside : endsWith ('.' :: normalizeFqdn zone) owner with
  | true =>
    obtain ⟨hlonger, hsame⟩ := inside_alike hs hinside
    rw [if_pos rfl]
    exact iff_of_true hsame ⟨hlonger, .inr rfl⟩
  | false =>
    rw [if_neg (by decide)]
    by_cases hcase : bareZone zone = normalizeFqdn zone
    · rw [appended_alike_iff hne hs hwhole hat hnil hlast hinside hcase]
      simp [hcase]
    · apply iff_of_false (appended_twice hne hs hwhole hcase)
      simp [hcase]

end Nonempty

theorem splitOnceWhitespace_name {owner : Text} (hs : Solid owner) {blank : Char} (hblank : isWhitespace blank = true)
    (rest : Text) : splitOnceWhitespace (owner ++ blank :: rest) = some (owner, rest) := by
  induction owner with
  | nil => simp [splitOnceWhitespace, hblank]
  | cons c owner ih =>
    have hc := hs c List.mem_cons_self
    rw [List.cons_append, splitOnceWhitespace, hc, if_neg (by decide), ih fun d hd => hs d (List.mem_cons_of_mem c hd)]
    rfl

theorem splitOwner_owner {owner : Text} (hs : Solid owner) (hnil : owner ≠ []) {blank : Char}
    (hblank : isWhitespace blank = true) (rest origin lastOwner : Text) :
    splitOwner (owner ++ blank :: rest) origin lastOwner =
      (resolveOwner owner origin).map fun name => (name, trimStart rest) := by
  have hhead : (owner ++ blank :: rest).head?.any isWhitespace = false := by
    obtain ⟨c, tail, rfl, hc⟩ := hs.flush hnil
    simp [hc]
  rw [splitOwner, hhead, if_neg (by decide), splitOnceWhitespace_name hs hblank]
  simp only [hs.trim]

/-- The name under which an import stores what the reader makes of the owner. -/
def importedName (line zone lastOwner : Text) : Except DaygleError Text :=
  (splitOwner line (normalizeFqdn zone) lastOwner).map fun parts => qualifyName parts.1 zone

theorem imported_alike_iff {owner zone : Text} (hs : Solid owner) (hnil : owner ≠ []) (hsolid : Solid zone)
    (hne : normalizeFqdn zone ≠ []) {blank : Char} (hblank : isWhitespace blank = true) (rest lastOwner : Text) :
    importedName (owner ++ blank :: rest) zone lastOwner = .ok (qualifyName owner zone) ↔ ResolvedAlike owner zone := by
  have hname : importedName (owner ++ blank :: rest) zone lastOwner =
      (resolveOwner owner (normalizeFqdn zone)).map fun name => qualifyName name zone := by
    rw [importedName, splitOwner_owner hs hnil hblank]
    cases resolveOwner owner (normalizeFqdn zone) <;> rfl
  rw [hname]
  by_cases hat : owner = ['@']
  · subst hat
    have horigin : (normalizeFqdn zone).isEmpty = false := by simpa using hne
    have hapex : Solid (normalizeFqdn zone) := solid_lower (solid_bareZone hsolid)
    have hkept : ¬Appended (normalizeFqdn zone) zone := fun h => h.2.2.1 (by rw [hapex.trim]; exact toAsciiLowercase_idem _)
    have hqualified : qualifyName (normalizeFqdn zone) zone = qualifyName ['@'] zone := by
      rw [qualifyName_eq, if_neg hkept, hapex.trim, keptName, if_pos (.inr (.inr (toAsciiLowercase_idem _))),
        qualifyName_eq, if_neg (fun h => h.1 rfl)]
      rfl
    rw [resolveOwner, if_pos rfl, horigin]
    exact iff_of_true (congrArg Except.ok hqualified) (.inl rfl)
  · by_cases hlast : owner.getLast? = some '.'
    · obtain ⟨name, rfl⟩ := List.getLast?_eq_some_iff.mp hlast
      have hcore : Solid name := fun c hc => hs c (List.mem_append_left _ hc)
      rw [resolveOwner_absolute]
      change Except.ok _ = Except.ok _ ↔ _
      rw [Except.ok.injEq, absolute_alike_iff hne hcore]
      constructor
      · intro h
        exact .inr (.inl ⟨name, rfl, h⟩)
      · rintro (h | ⟨other, hother, h⟩ | h)
        · exact absurd h hat
        · rw [(List.append_inj' hother rfl).1]
          exact h
        · exact absurd hlast h.1
    · rw [resolveOwner_relative hne hat hlast]
      change Except.ok _ = Except.ok _ ↔ _
      rw [Except.ok.injEq, relative_alike_iff hne hs hsolid hat hnil hlast]
      constructor
      · intro h
        exact .inr (.inr ⟨hlast, h⟩)
      · rintro (h | ⟨name, rfl, -⟩ | h)
        · exact absurd h hat
        · exact absurd List.getLast?_concat hlast
        · exact h.2

/-- Two spellings of an owner are stored alike exactly when both or neither are taken to be
relative, and a zone file's owner is stored as the owner itself is exactly in three shapes. -/
theorem owners_resolved_iff (owner variant zone : Text) :
    (toAsciiLowercase variant = toAsciiLowercase owner →
        (qualifyName variant zone = qualifyName owner zone ↔ (Appended variant zone ↔ Appended owner zone))) ∧
      ∀ (blank : Char) (rest lastOwner : Text), Solid owner → owner ≠ [] → Solid zone →
        normalizeFqdn zone ≠ [] → isWhitespace blank = true →
          (importedName (owner ++ blank :: rest) zone lastOwner = .ok (qualifyName owner zone) ↔ ResolvedAlike owner zone) := by
  constructor
  · intro h
    exact qualifyName_spelling zone h
  · intro blank rest lastOwner hs hnil hsolid hne hblank
    exact imported_alike_iff hs hnil hsolid hne hblank rest lastOwner

/-- A host in capitals is stored under its zone twice; the zone's own name in a file is, too,
and a name outside the zone is put inside it. -/
theorem owners_resolved_fails :
    qualifyName "www.Example.COM" "example.com" = "www.example.com.example.com".toList ∧
      qualifyName "www.example.com" "example.com" = "www.example.com".toList ∧
      importedName "example.com A 192.0.2.1".toList "example.com" [] = .ok "example.com.example.com".toList ∧
      qualifyName "example.com" "example.com" = "example.com".toList ∧
      importedName "ns.example.net. A 192.0.2.1".toList "example.com" [] = .ok "ns.example.net.example.com".toList ∧
      qualifyName "ns.example.net." "example.com" = "ns.example.net".toList := by
  refine ⟨by decide, by decide, by decide, by decide, by decide, by decide⟩

theorem owners_resolved_www :
    qualifyName "WWW" "example.com" = qualifyName "www" "example.com" ∧
      importedName ("WWW".toList ++ ' ' :: "A 192.0.2.1".toList) "example.com" [] = .ok (qualifyName "WWW" "example.com") :=
  ⟨((owners_resolved_iff "www" "WWW" "example.com").1 (by decide)).mpr (by decide),
    ((owners_resolved_iff "WWW" "WWW" "example.com").2 ' ' "A 192.0.2.1" [] (by decide) (by decide) (by decide) (by decide)
      (by decide)).mpr (.inr (.inr ⟨by decide, by decide, by decide⟩))⟩

end DaygleDns.Authoritative
