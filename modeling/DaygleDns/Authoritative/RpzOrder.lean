import DaygleDns.Authoritative.Rpz
import Mathlib.Data.List.Basic
import Mathlib.Tactic.Common

/-! The order in which response policy zones decide. -/
namespace DaygleDns.Authoritative

/-! One pass after another over a list, against a single walk. -/

section Passes

variable {α β : Type} (first second : α → Option β)

/-- Two passes find what one walk finds exactly when nothing that the second
would find stands before what the first finds. -/
theorem findSome_twice_eq_iff (hapart : ∀ a b c, first a = some c → second b ≠ some c) (items : List α) :
    (items.findSome? first).or (items.findSome? second) =
        items.findSome? (fun a => (first a).or (second a)) ↔
      ∀ before a after, items = before ++ a :: after → first a ≠ none →
        (∀ b ∈ before, first b = none) → ∀ b ∈ before, second b = none := by
  induction items with
  | nil => simp
  | cons a items ih =>
    simp only [List.findSome?_cons]
    cases hfirst : first a with
    | some c =>
      simp only [Option.some_or, true_iff]
      intro before b after hsplit _ hnone other hother
      cases before with
      | nil => simp at hother
      | cons head before =>
        cases (List.cons.inj hsplit).1
        rw [hnone a List.mem_cons_self] at hfirst
        cases hfirst
    | none =>
      have hrest : (∀ before b after, a :: items = before ++ b :: after → first b ≠ none →
          (∀ other ∈ before, first other = none) → ∀ other ∈ before, second other = none) ↔
          ∀ before b after, items = before ++ b :: after → first b ≠ none →
            (∀ other ∈ before, first other = none) →
              second a = none ∧ ∀ other ∈ before, second other = none := by
        constructor
        · intro h before b after hsplit hb hnone
          have hall := h (a :: before) b after (by rw [hsplit]; rfl) hb
            (List.forall_mem_cons.mpr ⟨hfirst, hnone⟩)
          exact List.forall_mem_cons.mp hall
        · intro h before b after hsplit hb hnone
          cases before with
          | nil =>
            cases (List.cons.inj hsplit).1
            exact absurd hfirst hb
          | cons head before =>
            rcases List.cons.inj hsplit with ⟨rfl, htail⟩
            exact List.forall_mem_cons.mpr
              (h before b after htail hb fun other hother => hnone other (List.mem_cons_of_mem _ hother))
      rw [hrest]
      cases hsecond : second a with
      | none =>
        simp only [Option.or_none, true_and]
        exact ih
      | some d =>
        simp only [Option.none_or, reduceCtorEq, false_and, imp_false]
        cases hfound : items.findSome? first with
        | none =>
          simp only [Option.none_or, true_iff]
          intro before b after hsplit hb _
          rw [List.findSome?_eq_none_iff] at hfound
          apply hb
          apply hfound
          rw [hsplit]
          exact List.mem_append_right _ List.mem_cons_self
        | some c =>
          rcases List.findSome?_eq_some_iff.mp hfound with ⟨before, b, after, hsplit, hb, hnone⟩
          have hne : c ≠ d := fun hsame => hapart b a d (hsame ▸ hb) hsecond
          simp only [Option.some_or, Option.some.injEq, hne, false_iff]
          intro h
          exact h before b after hsplit (by simp [hb]) hnone

end Passes

/-! Which trigger a lookup finds. -/

/-- A network of this length contains the address. -/
def PrefixTable.Contains {w : Nat} (table : PrefixTable w) (ip : BitVec w) (len : Nat)
    (action : RpzAction) : Prop :=
  ∃ nets, (len, nets) ∈ table.groups ∧ nets.lookup (ip &&& prefixMask w len) = some action

theorem PrefixTable.find_eq_none_iff {w : Nat} (table : PrefixTable w) (ip : BitVec w) :
    table.find ip = none ↔ ∀ len action, ¬ table.Contains ip len action := by
  unfold PrefixTable.find PrefixTable.Contains
  rw [List.findSome?_eq_none_iff]
  constructor
  · rintro h len action ⟨nets, hnets, hfound⟩
    have := h (len, nets) hnets
    simp [hfound] at this
  · rintro h ⟨len, nets⟩ hnets
    cases hfound : nets.lookup (ip &&& prefixMask w len) with
    | none => simp [hfound]
    | some action => exact absurd ⟨nets, hnets, hfound⟩ (h len action)

/-- The longest prefix wins. -/
theorem PrefixTable.find_longest {w : Nat} (table : PrefixTable w) (ip : BitVec w) {len : Nat}
    {action : RpzAction} (h : table.find ip = some (len, action)) :
    table.Contains ip len action ∧ ∀ other action', table.Contains ip other action' → other ≤ len := by
  rcases List.findSome?_eq_some_iff.mp h with ⟨before, ⟨found, nets⟩, after, hsplit, hfound, hnone⟩
  rcases Option.map_eq_some_iff.mp hfound with ⟨_, haction, hpair⟩
  cases hpair
  refine ⟨⟨nets, hsplit ▸ List.mem_append_right _ List.mem_cons_self, haction⟩, ?_⟩
  rintro other action' ⟨nets', hnets', hcontains⟩
  rw [hsplit] at hnets'
  rcases List.mem_append.mp hnets' with hbefore | hafter
  · have := hnone _ hbefore
    simp [hcontains] at this
  · have hsorted := table.sorted
    rw [hsplit] at hsorted
    have hlater := (List.pairwise_cons.mp (List.pairwise_append.mp hsorted).2.1).1
    rcases List.mem_cons.mp hafter with hsame | hafter
    · cases hsame
      exact Nat.le_refl _
    · exact Nat.le_of_lt (hlater _ hafter)

/-! The single ordered walk that the module documents. -/

def ActiveZone.trigger (zone : ActiveZone) (client : IpAddr) (qname : Text) (names : List Text)
    (ips : List IpAddr) (ns : Option NameServers) : Option (RpzTrigger × RpzAction) :=
  (zone.queryTrigger client qname).or (zone.answerTrigger names ips ns)

/-- The first zone that has a matching trigger and is not log-only decides. -/
def RpzSet.walk (set : RpzSet) (client : IpAddr) (qname : Text) (names : List Text)
    (ips : List IpAddr) (ns : Option NameServers) : Option RpzHit :=
  set.zones.findSome? fun zone =>
    (zone.trigger client qname names ips ns).bind fun (trigger, action) => zone.hit trigger action

theorem ActiveZone.hit_eq_none_iff (zone : ActiveZone) (trigger : RpzTrigger) (action : RpzAction) :
    zone.hit trigger action = none ↔ zone.policy = .disabled := by
  unfold ActiveZone.hit ActiveZone.apply
  cases zone.policy with
  | cname => cases zone.cnameTarget <;> simp
  | _ => simp

theorem RpzSet.walk_eq_some {set : RpzSet} {client : IpAddr} {qname : Text} {names : List Text}
    {ips : List IpAddr} {ns : Option NameServers} {hit : RpzHit}
    (h : set.walk client qname names ips ns = some hit) :
    ∃ before zone after trigger action, set.zones = before ++ zone :: after ∧
      zone.trigger client qname names ips ns = some (trigger, action) ∧
      zone.hit trigger action = some hit ∧
      ∀ other ∈ before, other.policy = .disabled ∨ other.trigger client qname names ips ns = none := by
  rcases List.findSome?_eq_some_iff.mp h with ⟨before, zone, after, hsplit, hfound, hnone⟩
  rcases Option.bind_eq_some_iff.mp hfound with ⟨⟨trigger, action⟩, htrigger, hhit⟩
  refine ⟨before, zone, after, trigger, action, hsplit, htrigger, hhit, ?_⟩
  intro other hother
  have hpassed := hnone other hother
  cases hmatch : other.trigger client qname names ips ns with
  | none => exact .inr rfl
  | some found =>
    left
    rw [hmatch] at hpassed
    exact (other.hit_eq_none_iff found.1 found.2).mp hpassed

/-- The zone is not log-only and has a trigger that matches the query. -/
def ActiveZone.ActsOnQuery (zone : ActiveZone) (client : IpAddr) (qname : Text) : Prop :=
  zone.policy ≠ .disabled ∧ zone.queryTrigger client qname ≠ none

def ActiveZone.ActsOnAnswer (zone : ActiveZone) (names : List Text) (ips : List IpAddr)
    (ns : Option NameServers) : Prop :=
  zone.policy ≠ .disabled ∧ zone.answerTrigger names ips ns ≠ none

/-- No zone that acts on the answer stands before the first that acts on the
query. -/
def RpzSet.QueryFirst (set : RpzSet) (client : IpAddr) (qname : Text) (names : List Text)
    (ips : List IpAddr) (ns : Option NameServers) : Prop :=
  ∀ before zone after, set.zones = before ++ zone :: after → zone.ActsOnQuery client qname →
    (∀ other ∈ before, ¬ other.ActsOnQuery client qname) →
      ∀ other ∈ before, ¬ other.ActsOnAnswer names ips ns

theorem ActiveZone.bind_hit_ne_none_iff (zone : ActiveZone) (found : Option (RpzTrigger × RpzAction)) :
    (found.bind fun (trigger, action) => zone.hit trigger action) ≠ none ↔
      zone.policy ≠ .disabled ∧ found ≠ none := by
  cases found with
  | none => simp
  | some found =>
    rw [Option.bind_some, ne_eq, zone.hit_eq_none_iff]
    simp

/-- A trigger of the query, by its kind. -/
def RpzTrigger.ofQuery : RpzTrigger → Bool
  | .clientIp .. | .qname .. => true
  | _ => false

theorem queryTrigger_ofQuery {zone : ActiveZone} {client : IpAddr} {qname : Text}
    {found : RpzTrigger × RpzAction} (h : zone.queryTrigger client qname = some found) :
    found.1.ofQuery = true := by
  unfold ActiveZone.queryTrigger at h
  rcases Option.or_eq_some_iff.mp h with h | ⟨_, h⟩ <;>
    rcases Option.map_eq_some_iff.mp h with ⟨_, _, rfl⟩ <;> rfl

theorem answerTrigger_ofQuery {zone : ActiveZone} {names : List Text} {ips : List IpAddr}
    {ns : Option NameServers} {found : RpzTrigger × RpzAction}
    (h : zone.answerTrigger names ips ns = some found) : found.1.ofQuery = false := by
  have hfind : ∀ {α : Type} {items : List α} {view : α → Option (RpzTrigger × RpzAction)},
      items.findSome? view = some found → (∀ a, view a = some found → found.1.ofQuery = false) →
        found.1.ofQuery = false := by
    intro α items view hfound hview
    rcases List.findSome?_eq_some_iff.mp hfound with ⟨_, a, _, _, ha, _⟩
    exact hview a ha
  unfold ActiveZone.answerTrigger ActiveZone.nsTrigger at h
  rcases Option.or_eq_some_iff.mp h with h | ⟨_, h⟩
  · rcases Option.or_eq_some_iff.mp h with h | ⟨_, h⟩ <;> apply hfind h <;> intro _ ha <;>
      rcases Option.map_eq_some_iff.mp ha with ⟨_, _, rfl⟩ <;> rfl
  · rcases Option.bind_eq_some_iff.mp h with ⟨servers, _, h⟩
    rcases Option.or_eq_some_iff.mp h with h | ⟨_, h⟩ <;> apply hfind h <;> intro _ ha <;>
      rcases Option.map_eq_some_iff.mp ha with ⟨_, _, rfl⟩ <;> rfl

theorem ActiveZone.hit_trigger {zone : ActiveZone} {trigger : RpzTrigger} {action : RpzAction}
    {hit : RpzHit} (h : zone.hit trigger action = some hit) : hit.trigger = trigger := by
  rcases Option.map_eq_some_iff.mp h with ⟨_, _, rfl⟩
  rfl

/-- The two checks act as the single walk exactly when no zone that acts on the
answer comes before the first that acts on the query. -/
theorem check_eq_walk_iff (set : RpzSet) (client : IpAddr) (qname : Text) (names : List Text)
    (ips : List IpAddr) (ns : Option NameServers) :
    set.check client qname names ips ns = set.walk client qname names ips ns ↔
      set.QueryFirst client qname names ips ns := by
  let onQuery : ActiveZone → Option RpzHit := fun zone =>
    (zone.queryTrigger client qname).bind fun found => zone.hit found.1 found.2
  let onAnswer : ActiveZone → Option RpzHit := fun zone =>
    (zone.answerTrigger names ips ns).bind fun found => zone.hit found.1 found.2
  have hapart : ∀ a b hit, onQuery a = some hit → onAnswer b ≠ some hit := by
    intro a b hit hquery hanswer
    rcases Option.bind_eq_some_iff.mp hquery with ⟨first, hfirst, hhit⟩
    rcases Option.bind_eq_some_iff.mp hanswer with ⟨second, hsecond, hhit'⟩
    have hsame : first.1 = second.1 :=
      (ActiveZone.hit_trigger hhit).symm.trans (ActiveZone.hit_trigger hhit')
    have hkind := queryTrigger_ofQuery hfirst
    rw [hsame, answerTrigger_ofQuery hsecond] at hkind
    cases hkind
  have hcheck : set.check client qname names ips ns =
      (set.zones.findSome? onQuery).or (set.zones.findSome? onAnswer) := by
    have hquery : set.checkQuery client qname = set.zones.findSome? onQuery := rfl
    have hanswer : set.checkAnswer names ips ns = set.zones.findSome? onAnswer := rfl
    unfold RpzSet.check
    rw [hquery, hanswer]
    cases set.zones.findSome? onQuery <;> rfl
  have hwalk : set.walk client qname names ips ns =
      set.zones.findSome? fun zone => (onQuery zone).or (onAnswer zone) := by
    unfold RpzSet.walk
    congr 1
    funext zone
    unfold ActiveZone.trigger
    change _ = (Option.bind _ _).or (Option.bind _ _)
    cases hquery : zone.queryTrigger client qname with
    | none => rfl
    | some found =>
      rcases found with ⟨trigger, action⟩
      rw [Option.some_or, Option.bind_some]
      dsimp only
      by_cases hpolicy : zone.policy = .disabled
      · have hnone : ∀ trigger action, zone.hit trigger action = none :=
          fun trigger action => (zone.hit_eq_none_iff trigger action).mpr hpolicy
        rw [hnone]
        cases zone.answerTrigger names ips ns with
        | none => rfl
        | some other => exact (hnone other.1 other.2).symm
      · cases hhit : zone.hit trigger action with
        | none => exact absurd ((zone.hit_eq_none_iff _ _).mp hhit) hpolicy
        | some hit => rfl
  rw [hcheck, hwalk, findSome_twice_eq_iff onQuery onAnswer hapart]
  unfold RpzSet.QueryFirst ActiveZone.ActsOnQuery ActiveZone.ActsOnAnswer
  simp only [← ActiveZone.bind_hit_ne_none_iff, not_not]
  rfl

def CompiledZone.none : CompiledZone := ⟨[], [], .none, .none, [], [], .none⟩

/-- Denies answers in 192.0.2.0/24. -/
def answerZone : ActiveZone where
  name := "answers.rpz"
  policy := .given
  cnameTarget := none
  data := { CompiledZone.none with
    responseIp := ⟨⟨[(24, [(0xc0000200, .nxDomain)])], List.pairwise_singleton _ _⟩, IpTriggers.none.v6⟩ }

/-- Exempts one name. -/
def exemptZone : ActiveZone where
  name := "exempt.rpz"
  policy := .given
  cnameTarget := none
  data := { CompiledZone.none with exact := [("bad.example", .passthru)] }

def orderedSet : RpzSet := ⟨[answerZone, exemptZone]⟩

/-- The second zone's exemption by name beats the first zone's rule for the
answer. -/
theorem check_eq_walk_fails :
    orderedSet.check (.v4 0x7f000001) "bad.example" [] [.v4 0xc0000201] none =
        some ⟨"exempt.rpz", .qname "bad.example", .passthru⟩ ∧
      orderedSet.walk (.v4 0x7f000001) "bad.example" [] [.v4 0xc0000201] none =
        some ⟨"answers.rpz", .answerIp (.v4 0xc0000201) 24, .nxDomain⟩ ∧
      orderedSet.check (.v4 0x7f000001) "bad.example" [] [.v4 0xc0000201] none ≠
        orderedSet.walk (.v4 0x7f000001) "bad.example" [] [.v4 0xc0000201] none := by
  refine ⟨?_, ?_, ?_⟩ <;> decide

end DaygleDns.Authoritative
