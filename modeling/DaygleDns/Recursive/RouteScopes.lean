import DaygleDns.Recursive.Lookups
import DaygleDns.Recursive.Routing
import DaygleDns.Recursive.CachePersist
import DaygleDns.Runs
import DaygleDns.TextFacts

/-! Which routes the state came from that lookups are answered with, over lookups,
prefetches, flushes and restarts with other client policies. -/
namespace DaygleDns.Recursive

open CacheAssistant Runs Text

variable {N D R : Type}

/-- What stays the same in a run; the client policies do not. -/
structure Site (N D R : Type) where
  names : HickoryNames N
  /-- `Name::default` -/
  root : N
  config : PrefetchConfig
  default : DefaultBackend R
  conditional : List (ConditionalResolver R)
  stubs : List (ConditionalResolver R)
  reload : Reload N D
  scopes : ∀ entry, (reload.apply entry).key.scope = entry.key.scope

namespace Site

def inner (site : Site N D R) (policies : List (ClientPolicy R)) : Inner R :=
  .build site.default policies site.conditional site.stubs

def nameOf (site : Site N D R) (text : Text) : N :=
  match site.names.fromUtf8 text with
  | .ok name => name
  | .error _ => site.root

end Site

/-- Where a part of the assistant's state came from: the route that was asked, and
the route of the client for whose lookup of the name it was asked. -/
structure Origin (R : Type) where
  name : Text
  client : Route R
  asked : Route R
deriving DecidableEq, Repr

/-- The resolver over time, with the origins of the answers and the failures under
each key, and the refreshes that are under way. -/
structure Served (N D R : Type) where
  assistant : CacheAssistant N D
  policies : List (ClientPolicy R)
  answers : CacheKey → Origin R
  failures : CacheKey → Origin R
  tasks : List (CacheKey × Origin R)

inductive ServedEvent (N D R : Type) where
  | lookup (asked answered : Nat) (orders : MapOrders N D) (client : Option IpAddr) (perClient : Bool)
      (view : LocalRootView) (name : N) (rtype : UInt16) (upstream : Upstream N D)
  | timedOut (now : Nat) (client : IpAddr) (view : LocalRootView) (name : N) (rtype : UInt16)
  | refreshed (now : Nat) (orders : MapOrders N D) (task : Nat) (view : LocalRootView) (found : Option (Lookup N D))
  | flushed (name : Text) (rtype : Option UInt16)
  | cleared
  | restart (persistAt writtenAt loadAt readAt : Nat) (written loaded : Shuffle (CacheKey × Snapshot N D))
      (policies : List (ClientPolicy R))

/-- What comes of a question over a route; two of them ask nobody. -/
def Route.outcome : Route R → Upstream N D → Upstream N D
  | .forward _, upstream | .recursive, upstream => upstream
  | .noSuchTld, _ => .failed (some 3) none
  | .noRecursor, _ => .failed (some SERV_FAIL) none

def Route.isForward : Route R → Bool
  | .forward _ => true
  | .recursive | .noSuchTld | .noRecursor => false

/-- How a client's lookup goes. -/
structure Routed (R : Type) where
  route : Route R
  key : CacheKey

namespace Served

def start (site : Site N D R) (policies : List (ClientPolicy R)) : Served N D R where
  assistant := .new site.config
  policies := policies
  answers := fun _ => ⟨[], .noRecursor, .noRecursor⟩
  failures := fun _ => ⟨[], .noRecursor, .noRecursor⟩
  tasks := []

/-- Clients that a policy refuses recursion never get to a lookup; the server's own
lookups have no client. -/
def refused (site : Site N D R) (state : Served N D R) (client : Option IpAddr) : Bool :=
  client.any (site.inner state.policies).refuses

def routed (site : Site N D R) (state : Served N D R) (client : Option IpAddr) (view : LocalRootView) (name : N)
    (rtype : UInt16) : Routed R :=
  let inner := site.inner state.policies
  let (route, _, scope) := inner.route site.names view name (client.bind inner.policyFor)
  ⟨route, (cacheKey site.names name rtype).scopedTo scope⟩

/-- The origins of the answers, once a question for the key was asked over `origin`. -/
def settleAnswers (state : Served N D R) (key : CacheKey) (origin : Origin R) : Upstream N D → CacheKey → Origin R
  | .answered _ => Function.update state.answers key origin
  | .failed (some _) _ =>
      if 0 < state.assistant.config.failureCacheTtl ∧ (state.assistant.get key).isNone then
        Function.update state.answers key origin
      else state.answers
  | .failed none _ | .broken => state.answers

def settleFailures (state : Served N D R) (key : CacheKey) (origin : Origin R) : Upstream N D → CacheKey → Origin R
  | .failed (some _) _ =>
      if 0 < state.assistant.config.failureCacheTtl then Function.update state.failures key origin else state.failures
  | .answered _ | .failed none _ | .broken => state.failures

def lookup (site : Site N D R) (asked answered : Nat) (orders : MapOrders N D) (client : Option IpAddr)
    (perClient : Bool) (view : LocalRootView) (name : N) (rtype : UInt16) (upstream : Upstream N D)
    (state : Served N D R) : Served N D R :=
  let routed := routed site state client view name rtype
  let origin : Origin R := ⟨site.names.toText name, routed.route, routed.route⟩
  let shared := !(perClient && routed.route.isForward)
  let upstream := routed.route.outcome upstream
  let assistant :=
    (lookupOwned orders asked answered shared site.nameOf state.assistant routed.key upstream).2
  let asks := shared && (replay orders asked shared state.assistant routed.key).isNone
  { assistant
    policies := state.policies
    answers := if asks then settleAnswers state routed.key origin upstream else state.answers
    failures := if asks then settleFailures state routed.key origin upstream else state.failures
    tasks :=
      if assistant.inFlight.contains routed.key && !state.assistant.inFlight.contains routed.key then
        (routed.key, origin) :: state.tasks
      else state.tasks }

def refreshed (site : Site N D R) (now : Nat) (orders : MapOrders N D) (task : CacheKey × Origin R)
    (view : LocalRootView) (found : Option (Lookup N D)) (state : Served N D R) : Served N D R :=
  let key := task.1
  let inner := site.inner state.policies
  let ended := { state with assistant := state.assistant.endPrefetch key }
  match (site.names.fromUtf8 key.name, found) with
  | (.error _, _) | (_, none) => ended
  | (.ok name, some lookup) =>
      let (route, _, _) := inner.route site.names view name (inner.policyForScope key.scope)
      match (route.outcome (.answered lookup) : Upstream N D) with
      | .answered lookup =>
          { state with
            assistant := (state.assistant.onSuccess orders now key lookup).2.endPrefetch key
            answers := Function.update state.answers key { task.2 with asked := route } }
      | .failed .. | .broken => ended

/-- What the next process reads of the snapshot under a key. -/
def reloaded (site : Site N D R) (persistAt writtenAt : Nat) (entry : CacheKey × Snapshot N D) : PersistedEntry N D :=
  site.reload.apply (exportEntry persistAt writtenAt entry.1 entry.2)

/-- The origins of what is restored, under the keys it is restored to. -/
def carried (site : Site N D R) (persistAt writtenAt loadAt readAt : Nat) (entries : List (CacheKey × Snapshot N D))
    (origins : CacheKey → Origin R) : CacheKey → Origin R :=
  entries.foldl
    (fun carried entry =>
      if (restoreEntry site.config loadAt readAt (reloaded site persistAt writtenAt entry)).isSome then
        Function.update carried (reloaded site persistAt writtenAt entry).key (origins entry.1)
      else carried)
    origins

def restart (site : Site N D R) (persistAt writtenAt loadAt readAt : Nat)
    (written loaded : Shuffle (CacheKey × Snapshot N D)) (policies : List (ClientPolicy R)) (state : Served N D R) :
    Served N D R where
  assistant :=
    ((CacheAssistant.new site.config).importPersisted loaded loadAt readAt
      ((state.assistant.exportPersisted written persistAt writtenAt).map site.reload.apply)).2
  policies := policies
  answers := carried site persistAt writtenAt loadAt readAt (written.shuffle state.assistant.snapshots.rows)
    state.answers
  failures := carried site persistAt writtenAt loadAt readAt (written.shuffle state.assistant.snapshots.rows)
    state.failures
  tasks := []

def step (site : Site N D R) (state : Served N D R) : ServedEvent N D R → Served N D R
  | .lookup asked answered orders client perClient view name rtype upstream =>
      if refused site state client then state
      else lookup site asked answered orders client perClient view name rtype upstream state
  | .timedOut .. => state
  | .refreshed now orders task view found =>
      match state.tasks[task]? with
      | none => state
      | some running =>
          refreshed site now orders running view found { state with tasks := state.tasks.eraseIdx task }
  | .flushed name rtype => { state with assistant := state.assistant.forget name rtype }
  | .cleared => { state with assistant := state.assistant.clear }
  | .restart persistAt writtenAt loadAt readAt written loaded policies =>
      restart site persistAt writtenAt loadAt readAt written loaded policies state

end Served

/-- State that was kept for the same name came over the route of this client, for a
client with the same route. Names are the same up to letter case and outer dots. -/
def SameRoute (origin : Origin R) (name : Text) (route : Route R) : Prop :=
  normalizeZone origin.name = normalizeZone name → origin.client = route ∧ origin.asked = route

/-- A reply from what was kept has the client's route: what is replayed, or else
what is settled on once the question has failed. -/
def ReplyAgrees (state : Served N D R) (routed : Routed R) (name : Text) :
    Option (Reply N D × CacheAssistant N D) → Reply N D → Prop
  | some (.failed .., _), _ => SameRoute (state.failures routed.key) name routed.route
  | some _, _ => SameRoute (state.answers routed.key) name routed.route
  | none, .stale _ => SameRoute (state.answers routed.key) name routed.route
  | none, _ => True

/-- Every reply from what was kept comes from the route of the client. -/
def RoutesAgree (site : Site N D R) (state : Served N D R) : ServedEvent N D R → Prop
  | .lookup asked answered orders client perClient view name rtype upstream =>
      let routed := Served.routed site state client view name rtype
      let shared := !(perClient && routed.route.isForward)
      Served.refused site state client = false →
        ReplyAgrees state routed (site.names.toText name) (replay orders asked shared state.assistant routed.key)
          (settle orders answered shared site.nameOf state.assistant routed.key (routed.route.outcome upstream)).1
  | .timedOut now client view name rtype =>
      let routed := Served.routed site state (some client) view name rtype
      Served.refused site state (some client) = false → (state.assistant.staleAnswer now routed.key).isSome →
        SameRoute (state.answers routed.key) (site.names.toText name) routed.route
  | _ => True

/-- The route that the answers under a scope come from, where there is one: `gone`
are the names that the local root zone denies, by their normalized text. -/
def leadsTo (site : Site N D R) (policies : List (ClientPolicy R)) (gone : Text → Bool) (name : Text) (scope : UInt16) :
    Option (Route R) :=
  match zoneResolver site.conditional site.stubs name with
  | some (resolver, _) => some (.forward resolver)
  | none =>
      if scope = SCOPE_DEFAULT then
        match site.default with
        | .recursive => some .recursive
        | .forward resolver => some (if gone (normalizeZone name) then .noSuchTld else .forward resolver)
      else if scope = SCOPE_RECURSOR then some .recursive
      else
        match policies[(scope - SCOPE_POLICY).toNat]? with
        | some ⟨_, .forward resolver⟩ => some (.forward resolver)
        | _ => none

/-- There is a scope for every policy. -/
def Scoped (policies : List (ClientPolicy R)) : Prop := policies.length ≤ 2 ^ 16 - 2

/-- The local root zone has always the same to say of the name, and does not deny it
to a client whose policy forwards in recursive mode. -/
def Settled (site : Site N D R) (gone : Text → Bool) (state : Served N D R) (client : Option IpAddr)
    (view : LocalRootView) (name : N) : Prop :=
  zoneResolver site.conditional site.stubs (site.names.toText name) = none →
    tldMissing site.names view name = gone (normalizeZone (site.names.toText name)) ∧
      (gone (normalizeZone (site.names.toText name)) = true → site.default = .recursive →
        ∀ i networks resolver, client.bind (site.inner state.policies).policyFor = some i →
          state.policies[i]? ≠ some ⟨networks, .forward resolver⟩)

/-- Nothing that is saved under the scope of a forwarding policy came from elsewhere
than that policy's servers after the restart. -/
def ScopesKept (state : Served N D R) (policies : List (ClientPolicy R)) : Prop :=
  ∀ entry ∈ state.assistant.snapshots.rows, entry.1.scope ≠ SCOPE_DEFAULT → entry.1.scope ≠ SCOPE_RECURSOR →
    ∀ networks resolver, policies[(entry.1.scope - SCOPE_POLICY).toNat]? = some ⟨networks, .forward resolver⟩ →
      ((state.answers entry.1).client = .forward resolver ∧ (state.answers entry.1).asked = .forward resolver) ∧
        (entry.2.failureUntil ≠ none →
          (state.failures entry.1).client = .forward resolver ∧ (state.failures entry.1).asked = .forward resolver)

def KeepsScopes (site : Site N D R) (gone : Text → Bool) (state : Served N D R) : ServedEvent N D R → Prop
  | .lookup _ _ _ client _ view name _ _ =>
      Served.refused site state client = false → Settled site gone state client view name
  | .timedOut _ client view name _ =>
      Served.refused site state (some client) = false → Settled site gone state (some client) view name
  | .refreshed _ _ task view _ =>
      ∀ running, state.tasks[task]? = some running → ∀ name, site.names.fromUtf8 running.1.name = .ok name →
        zoneResolver site.conditional site.stubs (site.names.toText name) = none →
          tldMissing site.names view name = gone (normalizeZone (site.names.toText name))
  | .flushed .. | .cleared => True
  | .restart _ _ _ _ _ _ policies => Scoped policies ∧ ScopesKept state policies

/-- A refresh under the scope takes this route. -/
def Refreshes (site : Site N D R) (policies : List (ClientPolicy R)) (gone : Text → Bool) (name : Text)
    (scope : UInt16) (route : Route R) : Prop :=
  ∀ view name', normalizeZone (site.names.toText name') = normalizeZone name →
    (zoneResolver site.conditional site.stubs (site.names.toText name') = none →
      tldMissing site.names view name' = gone (normalizeZone (site.names.toText name'))) →
    ((site.inner policies).route site.names view name' ((site.inner policies).policyForScope scope)).1 = route

theorem zoneResolver_congr (conditional stubs : List (ConditionalResolver R)) {first second : Text}
    (h : normalizeZone first = normalizeZone second) :
    zoneResolver conditional stubs first = zoneResolver conditional stubs second := by
  simp only [zoneResolver, matchConditionalZones, matchConditionalZonesByName, h]

theorem leadsTo_congr (site : Site N D R) (policies : List (ClientPolicy R)) (gone : Text → Bool) {first second : Text}
    (h : normalizeZone first = normalizeZone second) (scope : UInt16) :
    leadsTo site policies gone first scope = leadsTo site policies gone second scope := by
  simp only [leadsTo, zoneResolver_congr site.conditional site.stubs h, h]

/-- The scope of a policy tells its place. -/
theorem scope_policy {i : Nat} (h : i < 2 ^ 16 - 2) :
    SCOPE_POLICY + UInt16.ofNat i ≠ SCOPE_DEFAULT ∧ SCOPE_POLICY + UInt16.ofNat i ≠ SCOPE_RECURSOR ∧
      (SCOPE_POLICY + UInt16.ofNat i - SCOPE_POLICY).toNat = i := by
  have hnat : (SCOPE_POLICY + UInt16.ofNat i).toNat = 2 + i := by
    rw [UInt16.toNat_add, UInt16.toNat_ofNat']
    simp only [SCOPE_POLICY, UInt16.toNat_ofNat]
    omega
  refine ⟨?_, ?_, ?_⟩
  · intro h0
    rw [h0] at hnat
    simp only [SCOPE_DEFAULT, UInt16.toNat_ofNat] at hnat
    omega
  · intro h1
    rw [h1] at hnat
    simp only [SCOPE_RECURSOR, UInt16.toNat_ofNat] at hnat
    omega
  · rw [UInt16.toNat_sub_of_le]
    · rw [hnat]
      simp [SCOPE_POLICY]
    · rw [UInt16.le_iff_toNat_le, hnat]
      simp [SCOPE_POLICY]

section Route

variable (site : Site N D R) {policies : List (ClientPolicy R)} (gone : Text → Bool) (view : LocalRootView) {name : N}
  {policy : Option Nat}

theorem route_zone {resolver : R} {kind : RouteKind}
    (h : zoneResolver site.conditional site.stubs (site.names.toText name) = some (resolver, kind)) :
    (site.inner policies).route site.names view name policy = (.forward resolver, kind, SCOPE_DEFAULT) := by
  simp only [Inner.route, Site.inner, Inner.build, h]

section Outside

variable (hzone : zoneResolver site.conditional site.stubs (site.names.toText name) = none)

include hzone

theorem route_default (hpolicy : policy.bind (policies[·]?) = none) :
    (site.inner policies).route site.names view name policy =
      match site.default with
      | .recursive => (.recursive, .recursive, SCOPE_DEFAULT)
      | .forward resolver =>
          if tldMissing site.names view name then (.noSuchTld, .localRoot, SCOPE_DEFAULT)
          else (.forward resolver, .forwarding, SCOPE_DEFAULT) := by
  have hbound : (policy.bind fun i => policies[i]?.map fun p => (i, p)) = none := by
    cases policy with
    | none => rfl
    | some i =>
      rw [Option.bind_some] at hpolicy ⊢
      rw [hpolicy]
      rfl
  simp only [Inner.route, Site.inner, Inner.build, hzone, hbound]
  cases site.default with
  | recursive => simp [Inner.recursiveRoute]
  | forward => rfl

theorem route_forward {i : Nat} {networks : List Network} {resolver : R}
    (hpolicy : policies[i]? = some ⟨networks, .forward resolver⟩) :
    (site.inner policies).route site.names view name (some i) =
      if tldMissing site.names view name then (.noSuchTld, .localRoot, SCOPE_DEFAULT)
      else (.forward resolver, .clientPolicy, SCOPE_POLICY + UInt16.ofNat i) := by
  simp only [Inner.route, Site.inner, Inner.build, hzone, hpolicy, Option.bind_some, Option.map_some]

theorem route_recursive {i : Nat} {networks : List Network} (hpolicy : policies[i]? = some ⟨networks, .recursive⟩) :
    (site.inner policies).route site.names view name (some i) =
      (.recursive, .clientPolicy,
        match site.default with
        | .recursive => SCOPE_DEFAULT
        | .forward _ => SCOPE_RECURSOR) := by
  have hrecursor : (site.inner policies).recursor = true := by
    simp only [Site.inner, Inner.build, Bool.or_eq_true, List.any_eq_true]
    exact .inr ⟨⟨networks, .recursive⟩, List.mem_of_getElem? hpolicy, rfl⟩
  simp only [Inner.route, Inner.recursiveRoute, hrecursor]
  cases hdefault : site.default <;>
    simp only [Site.inner, Inner.build, hzone, hpolicy, Option.bind_some, Option.map_some, if_true, hdefault]

end Outside

/-- Refreshes under the default scope take the default route. -/
theorem refreshes_default {text : Text} {route : Route R}
    (h : leadsTo site policies gone text SCOPE_DEFAULT = some route) :
    Refreshes site policies gone text SCOPE_DEFAULT route := by
  intro view name' hsame hview
  have hpolicy : (site.inner policies).policyForScope SCOPE_DEFAULT = none := if_pos rfl
  rw [← leadsTo_congr site policies gone hsame] at h
  rw [hpolicy]
  unfold leadsTo at h
  cases hzone : zoneResolver site.conditional site.stubs (site.names.toText name') with
  | some zone =>
    rw [hzone] at h
    rw [route_zone site view hzone, ← Option.some.inj h]
  | none =>
    rw [hzone] at h
    rw [route_default site view hzone rfl]
    simp only [if_true] at h
    cases hdefault : site.default with
    | recursive =>
      rw [hdefault] at h
      exact Option.some.inj h
    | forward resolver =>
      rw [hdefault] at h
      simp only [Option.some.injEq] at h
      simp only [hview hzone, ← h]
      split <;> rfl

theorem policyForScope_recursor {i : Nat} {networks : List Network}
    (h : policies[i]? = some ⟨networks, .recursive⟩) :
    ∃ j, (site.inner policies).policyForScope SCOPE_RECURSOR = some j ∧
      ∃ networks, policies[j]? = some ⟨networks, .recursive⟩ := by
  have hscope : (site.inner policies).policyForScope SCOPE_RECURSOR =
      policies.findIdx? fun p => p.backend.isRecursive := rfl
  have hsome : (policies.findIdx? fun p => p.backend.isRecursive).isSome := by
    rw [List.findIdx?_isSome, List.any_eq_true]
    exact ⟨_, List.mem_of_getElem? h, rfl⟩
  obtain ⟨j, hj⟩ := Option.isSome_iff_exists.mp hsome
  refine ⟨j, hscope.trans hj, ?_⟩
  obtain ⟨hlt, hbackend, _⟩ := List.findIdx?_eq_some_iff_getElem.mp hj
  rw [List.getElem?_eq_getElem hlt]
  cases hp : policies[j] with
  | mk networks backend =>
    rw [hp] at hbackend
    cases backend with
    | recursive => exact ⟨networks, rfl⟩
    | forward => cases hbackend
    | refuse => cases hbackend

/-- What a lookup's scope tells of its route. -/
theorem route_scope (hscoped : Scoped policies)
    (hrefused : ∀ i networks, policy = some i → policies[i]? ≠ some ⟨networks, .refuse⟩)
    (hsettled : zoneResolver site.conditional site.stubs (site.names.toText name) = none →
      tldMissing site.names view name = gone (normalizeZone (site.names.toText name)) ∧
        (gone (normalizeZone (site.names.toText name)) = true → site.default = .recursive →
          ∀ i networks resolver, policy = some i → policies[i]? ≠ some ⟨networks, .forward resolver⟩)) :
    leadsTo site policies gone (site.names.toText name)
        ((site.inner policies).route site.names view name policy).2.2 =
      some ((site.inner policies).route site.names view name policy).1 ∧
    Refreshes site policies gone (site.names.toText name)
      ((site.inner policies).route site.names view name policy).2.2
      ((site.inner policies).route site.names view name policy).1 := by
  cases hzone : zoneResolver site.conditional site.stubs (site.names.toText name) with
  | some zone =>
    have hleads : leadsTo site policies gone (site.names.toText name) SCOPE_DEFAULT = some (.forward zone.1) := by
      simp only [leadsTo, hzone]
    rw [route_zone site view hzone]
    exact ⟨hleads, refreshes_default site gone hleads⟩
  | none =>
    obtain ⟨hgone, hnoForward⟩ := hsettled hzone
    have hdefault : leadsTo site policies gone (site.names.toText name) SCOPE_DEFAULT =
        match site.default with
        | .recursive => some .recursive
        | .forward resolver => some (if tldMissing site.names view name then .noSuchTld else .forward resolver) := by
      simp only [leadsTo, hzone, if_true, hgone]
    cases hpolicy : policy.bind (policies[·]?) with
    | none =>
      rw [route_default site view hzone hpolicy]
      cases hbackend : site.default with
      | recursive =>
        rw [hbackend] at hdefault
        exact ⟨hdefault, refreshes_default site gone hdefault⟩
      | forward resolver =>
        rw [hbackend] at hdefault
        cases hmissing : tldMissing site.names view name with
        | true =>
          simp only [hmissing, if_true] at hdefault ⊢
          exact ⟨hdefault, refreshes_default site gone hdefault⟩
        | false =>
          simp only [hmissing, Bool.false_eq_true, if_false] at hdefault ⊢
          exact ⟨hdefault, refreshes_default site gone hdefault⟩
    | some p =>
      obtain ⟨i, rfl, hi⟩ := Option.bind_eq_some_iff.mp hpolicy
      obtain ⟨networks, backend⟩ := p
      cases backend with
      | refuse => exact absurd hi (hrefused i networks rfl)
      | recursive =>
        rw [route_recursive site view hzone hi]
        cases hbackend : site.default with
        | recursive =>
          rw [hbackend] at hdefault
          exact ⟨hdefault, refreshes_default site gone hdefault⟩
        | forward resolver =>
          refine ⟨by simp [leadsTo, hzone, SCOPE_RECURSOR, SCOPE_DEFAULT], fun view' name' hsame _ => ?_⟩
          obtain ⟨j, hj, hfirst⟩ := policyForScope_recursor site hi
          rw [zoneResolver_congr _ _ hsame.symm] at hzone
          rw [hj]
          rw [route_recursive site view' hzone hfirst.choose_spec]
      | forward resolver =>
        rw [route_forward site view hzone hi]
        cases hmissing : tldMissing site.names view name with
        | true =>
          simp only [hmissing, if_true] at hdefault ⊢
          cases hbackend : site.default with
          | recursive => exact absurd hi (hnoForward (hgone ▸ hmissing) hbackend i networks resolver rfl)
          | forward other =>
            rw [hbackend] at hdefault
            exact ⟨hdefault, refreshes_default site gone hdefault⟩
        | false =>
          have hbound : i < 2 ^ 16 - 2 := (List.getElem?_eq_some_iff.mp hi).1.trans_le hscoped
          obtain ⟨hdefaultScope, hrecursorScope, hplace⟩ := scope_policy hbound
          simp only [Bool.false_eq_true, if_false]
          refine ⟨by simp only [leadsTo, hzone, hdefaultScope, hrecursorScope, if_false, hplace, hi],
            fun view' name' hsame hview => ?_⟩
          have hpolicyScope : (site.inner policies).policyForScope (SCOPE_POLICY + UInt16.ofNat i) = some i := by
            simp only [Inner.policyForScope, hdefaultScope, hrecursorScope, if_false, hplace]
          rw [zoneResolver_congr _ _ hsame.symm] at hzone
          have hthere : tldMissing site.names view' name' = false := by
            rw [hview hzone, hsame, ← hgone, hmissing]
          rw [hpolicyScope, route_forward site view' hzone hi, hthere]
          rfl

end Route

/-- An origin is the route that the scope of its key leads to, where it leads anywhere. -/
def Right (site : Site N D R) (policies : List (ClientPolicy R)) (gone : Text → Bool) (key : CacheKey)
    (origin : Origin R) : Prop :=
  ∀ route, leadsTo site policies gone origin.name key.scope = some route → origin.client = route ∧ origin.asked = route

/-- A refresh takes the route of the client for whose lookup it was started. -/
structure Running (site : Site N D R) (policies : List (ClientPolicy R)) (gone : Text → Bool)
    (task : CacheKey × Origin R) : Prop where
  name : ∃ name, site.names.toText name = task.2.name ∧ task.1.name = toAsciiLowercase task.2.name
  leads : leadsTo site policies gone task.2.name task.1.scope = some task.2.client
  refreshes : Refreshes site policies gone task.2.name task.1.scope task.2.client

structure RightOrigins (site : Site N D R) (gone : Text → Bool) (state : Served N D R) : Prop where
  places : Scoped state.policies
  answers : ∀ key s, state.assistant.get key = some s → Right site state.policies gone key (state.answers key)
  failures : ∀ key s, state.assistant.get key = some s → s.failureUntil ≠ none →
    Right site state.policies gone key (state.failures key)
  tasks : ∀ task ∈ state.tasks, Running site state.policies gone task

/-- A name that was printed and lowercased is read as the same name. -/
def ReadsLowercase (names : HickoryNames N) : Prop :=
  ∀ name name', names.fromUtf8 (toAsciiLowercase (names.toText name)) = .ok name' →
    toAsciiLowercase (names.toText name') = toAsciiLowercase (names.toText name)

section Keeps

variable {site : Site N D R} {gone : Text → Bool} {state : Served N D R} {client : Option IpAddr}
  {view : LocalRootView} {name : N} (rtype : UInt16)

/-- What a served lookup's route and key have to do with each other. -/
theorem routed_scope (hscoped : Scoped state.policies) (hserved : Served.refused site state client = false)
    (hsettled : Settled site gone state client view name) :
    leadsTo site state.policies gone (site.names.toText name)
        (Served.routed site state client view name rtype).key.scope =
      some (Served.routed site state client view name rtype).route ∧
    Refreshes site state.policies gone (site.names.toText name)
      (Served.routed site state client view name rtype).key.scope
      (Served.routed site state client view name rtype).route := by
  refine route_scope site gone view hscoped ?_ hsettled
  intro i networks hpolicy hrefuse
  cases client with
  | none => cases hpolicy
  | some client =>
    have hrefuses : (site.inner state.policies).refuses client = true := by
      simp only [Option.bind_some] at hpolicy
      simp only [Inner.refuses, hpolicy, Option.bind_some]
      rw [show (site.inner state.policies).policies[i]? = some ⟨networks, .refuse⟩ from hrefuse]
    simp only [Served.refused, Option.any_some, hrefuses] at hserved
    cases hserved

theorem right_routed (hscoped : Scoped state.policies) (hserved : Served.refused site state client = false)
    (hsettled : Settled site gone state client view name) :
    Right site state.policies gone (Served.routed site state client view name rtype).key
      ⟨site.names.toText name, (Served.routed site state client view name rtype).route,
        (Served.routed site state client view name rtype).route⟩ := by
  intro route hleads
  rw [(routed_scope rtype hscoped hserved hsettled).1] at hleads
  have hsame := Option.some.inj hleads
  exact ⟨hsame, hsame⟩

theorem sameRoute_of_right (hscoped : Scoped state.policies) (hserved : Served.refused site state client = false)
    (hsettled : Settled site gone state client view name) {origin : Origin R}
    (h : Right site state.policies gone (Served.routed site state client view name rtype).key origin) :
    SameRoute origin (site.names.toText name) (Served.routed site state client view name rtype).route := by
  intro hname
  apply h
  rw [leadsTo_congr site state.policies gone hname]
  exact (routed_scope rtype hscoped hserved hsettled).1

end Keeps

/-- The normalized text of a name does not depend on its letter case. -/
theorem normalizeZone_lower (s : Text) : normalizeZone (toAsciiLowercase s) = normalizeZone s := by
  rw [normalizeZone, trim_lower, trimStartMatches, dropWhile_lower isDot_toLower, trimEndMatches,
    rdropWhile_lower isDot_toLower, toAsciiLowercase_idem]
  rfl

/-- Replies from what was kept have the route of the client. -/
theorem routesAgree_of_right {site : Site N D R} {gone : Text → Bool} {state : Served N D R} (h : RightOrigins site gone state)
    (event : ServedEvent N D R) (hkeeps : KeepsScopes site gone state event) : RoutesAgree site state event := by
  cases event with
  | refreshed => trivial
  | flushed => trivial
  | cleared => trivial
  | restart => trivial
  | timedOut now client view name rtype =>
    intro hserved hstale
    obtain ⟨lookup, hlookup⟩ := Option.isSome_iff_exists.mp hstale
    obtain ⟨_, s, hget, _⟩ := staleAnswer_eq_some.mp hlookup
    exact sameRoute_of_right rtype h.places hserved (hkeeps hserved) (h.answers _ s hget)
  | lookup asked answered orders client perClient view name rtype upstream =>
    intro hserved
    have hsame {origin : Origin R}
        (hright : Right site state.policies gone (Served.routed site state client view name rtype).key origin) :=
      sameRoute_of_right rtype h.places hserved (hkeeps hserved) hright
    unfold ReplyAgrees
    split
    next code soa after hreplay =>
      obtain ⟨s, hget, hfailure⟩ := failure_of_replay hreplay
      exact hsame (h.failures _ s hget hfailure)
    next replayed hother hreplay =>
      obtain ⟨s, hget⟩ := Option.isSome_iff_exists.mp (kept_of_replay hreplay)
      exact hsame (h.answers _ s hget)
    next stale hreplay hstale =>
      obtain ⟨s, hget⟩ := Option.isSome_iff_exists.mp (kept_of_stale hstale)
      exact hsame (h.answers _ s hget)
    next => trivial

theorem settleAnswers_other {state : Served N D R} {key k : CacheKey} {origin : Origin R} {upstream : Upstream N D}
    (hk : k ≠ key) : state.settleAnswers key origin upstream k = state.answers k := by
  unfold Served.settleAnswers
  split
  · exact Function.update_of_ne hk _ _
  · split
    · exact Function.update_of_ne hk _ _
    · rfl
  · rfl
  · rfl

theorem settleFailures_other {state : Served N D R} {key k : CacheKey} {origin : Origin R} {upstream : Upstream N D}
    (hk : k ≠ key) : state.settleFailures key origin upstream k = state.failures k := by
  unfold Served.settleFailures
  split
  · split
    · exact Function.update_of_ne hk _ _
    · rfl
  · rfl
  · rfl
  · rfl

/-- After a restart the scopes lead where their entries came from. -/
theorem right_restarted {site : Site N D R} {before after : List (ClientPolicy R)} {gone : Text → Bool} {key : CacheKey}
    {origin : Origin R} (hright : Right site before gone key origin)
    (hkept : key.scope ≠ SCOPE_DEFAULT → key.scope ≠ SCOPE_RECURSOR → ∀ networks resolver,
      after[(key.scope - SCOPE_POLICY).toNat]? = some ⟨networks, .forward resolver⟩ →
        origin.client = .forward resolver ∧ origin.asked = .forward resolver) :
    Right site after gone key origin := by
  intro route hleads
  have hbefore := hright route
  unfold leadsTo at hleads hbefore
  split at hleads
  next hzone =>
    rw [hzone] at hbefore
    exact hbefore hleads
  next hzone =>
    rw [hzone] at hbefore
    by_cases hdefault : key.scope = SCOPE_DEFAULT
    · simp only [hdefault, if_true] at hleads hbefore
      exact hbefore hleads
    · by_cases hrecursor : key.scope = SCOPE_RECURSOR
      · rw [if_neg hdefault, if_pos hrecursor] at hleads hbefore
        exact hbefore hleads
      · rw [if_neg hdefault, if_neg hrecursor] at hleads
        split at hleads
        next networks resolver hpolicy =>
          rw [← Option.some.inj hleads]
          exact hkept hdefault hrecursor networks resolver hpolicy
        next => cases hleads

theorem right_of_scope {site : Site N D R} {policies : List (ClientPolicy R)} {gone : Text → Bool} {key other : CacheKey}
    {origin : Origin R} (hscope : other.scope = key.scope) (h : Right site policies gone key origin) :
    Right site policies gone other origin := by
  intro route hleads
  rw [hscope] at hleads
  exact h route hleads

/-- What holds of the restored entries and their origins, holds of the snapshots. -/
theorem good_carried {site : Site N D R} {persistAt writtenAt loadAt readAt : Nat}
    {loaded : Shuffle (CacheKey × Snapshot N D)} {entries : List (CacheKey × Snapshot N D)}
    (good : CacheKey → Snapshot N D → Origin R → Prop) (origins : CacheKey → Origin R)
    (hentries : ∀ entry ∈ entries, ∀ s,
      restoreEntry site.config loadAt readAt (Served.reloaded site persistAt writtenAt entry) = some s →
        good (Served.reloaded site persistAt writtenAt entry).key s (origins entry.1)) (k : CacheKey) (s : Snapshot N D)
    (hget : ((entries.map (Served.reloaded site persistAt writtenAt)).foldl (importEntry loaded loadAt readAt)
      (.new site.config)).get k = some s) :
    good k s (Served.carried site persistAt writtenAt loadAt readAt entries origins k) := by
  have hnew : ∀ k s, (CacheAssistant.new site.config : CacheAssistant N D).get k = some s → good k s (origins k) :=
    fun k s hnone => by cases hnone
  exact carried_importAll loaded loadAt readAt (Served.reloaded site persistAt writtenAt)
    (fun entry => origins entry.1) good entries rfl hnew hentries k s hget

theorem assistant_restart (site : Site N D R) (persistAt writtenAt loadAt readAt : Nat)
    (written loaded : Shuffle (CacheKey × Snapshot N D)) (policies : List (ClientPolicy R)) (state : Served N D R) :
    (Served.restart site persistAt writtenAt loadAt readAt written loaded policies state).assistant =
      ((written.shuffle state.assistant.snapshots.rows).map (Served.reloaded site persistAt writtenAt)).foldl
        (importEntry loaded loadAt readAt) (.new site.config) := by
  simp only [Served.restart, importPersisted, exportPersisted, List.map_map]
  rfl

section Steps

variable {site : Site N D R} {gone : Text → Bool} {state : Served N D R} (h : RightOrigins site gone state)

include h

/-- What is settled under the key of a question has its origin, or the old one. -/
theorem right_settle {key : CacheKey} {origin : Origin R} (hright : Right site state.policies gone key origin)
    (orders : MapOrders N D) (now : Nat) (upstream : Upstream N D) (s : Snapshot N D)
    (hget : (settle orders now true site.nameOf state.assistant key upstream).2.get key = some s) :
    Right site state.policies gone key (state.settleAnswers key origin upstream key) ∧
      (s.failureUntil ≠ none → Right site state.policies gone key (state.settleFailures key origin upstream key)) := by
  cases upstream with
  | answered lookup =>
    have hstored := (stored_recordAnswer orders now state.assistant key lookup).self
    simp only [settle, if_true, hstored, Option.some.injEq] at hget
    simp only [Served.settleAnswers, Function.update_self]
    exact ⟨hright, fun hfailure => absurd (by rw [← hget]; rfl) hfailure⟩
  | broken => exact ⟨h.answers key s hget, h.failures key s hget⟩
  | failed code soa =>
    cases code with
    | none =>
      have hsame : (settle orders now true site.nameOf state.assistant key (.failed none soa)).2 = state.assistant := by
        simp only [settle]
        split <;> rfl
      rw [hsame] at hget
      exact ⟨h.answers key s hget, h.failures key s hget⟩
    | some code =>
      simp only [settle, Bool.true_and, decide_eq_true_eq] at hget
      simp only [Served.settleAnswers, Served.settleFailures]
      by_cases hcached : 0 < state.assistant.config.failureCacheTtl
      · simp only [hcached, true_and, if_true, Function.update_self, hright, implies_true, and_true]
        cases hbefore : state.assistant.get key with
        | none => simpa using hright
        | some old => simpa using h.answers key old hbefore
      · simp only [hcached, false_and, if_false] at hget ⊢
        exact ⟨h.answers key s hget, h.failures key s hget⟩

/-- What a question for a key leaves under any key. -/
theorem right_asked {key : CacheKey} {origin : Origin R} (hright : Right site state.policies gone key origin)
    (orders : MapOrders N D) (asked answered : Nat) (shared : Bool) (upstream : Upstream N D) (k : CacheKey)
    (s : Snapshot N D)
    (hget : (lookupOwned orders asked answered shared site.nameOf state.assistant key upstream).2.get k = some s) :
    Right site state.policies gone k
        ((if shared && (replay orders asked shared state.assistant key).isNone then
          state.settleAnswers key origin upstream else state.answers) k) ∧
      (s.failureUntil ≠ none → Right site state.policies gone k
        ((if shared && (replay orders asked shared state.assistant key).isNone then
          state.settleFailures key origin upstream else state.failures) k)) := by
  by_cases hkey : k = key
  · subst hkey
    cases hreplay : replay orders asked shared state.assistant k with
    | some replayed =>
      obtain ⟨old, hold⟩ := Option.isSome_iff_exists.mp (kept_of_replay hreplay)
      simp only [lookupOwned, hreplay, Option.getD_some] at hget
      simp only [Option.isNone_some, Bool.and_false, Bool.false_eq_true, if_false]
      refine ⟨h.answers k old hold, fun hfailure => ?_⟩
      exact h.failures k s (failure_after_replay hreplay hget hfailure) hfailure
    | none =>
      simp only [lookupOwned, hreplay, Option.getD_none] at hget
      cases shared with
      | false =>
        rw [settle_unshared] at hget
        exact ⟨h.answers k s hget, h.failures k s hget⟩
      | true => exact right_settle h hright orders answered upstream s hget
  · have hbefore := get_lookupOwned_other orders asked answered shared site.nameOf state.assistant hkey _ s hget
    have hothers := And.intro (h.answers k s hbefore) (h.failures k s hbefore)
    split
    · rwa [settleAnswers_other hkey, settleFailures_other hkey]
    · exact hothers

theorem rightOrigins_lookup {client : Option IpAddr} {view : LocalRootView} {name : N}
    (hserved : Served.refused site state client = false) (hsettled : Settled site gone state client view name)
    (asked answered : Nat) (orders : MapOrders N D) (perClient : Bool) (rtype : UInt16) (upstream : Upstream N D) :
    RightOrigins site gone
      (Served.lookup site asked answered orders client perClient view name rtype upstream state) := by
  have hright := right_routed rtype h.places hserved hsettled
  obtain ⟨hleads, hrefreshes⟩ := routed_scope rtype h.places hserved hsettled
  have hkept := right_asked h hright orders asked answered
    (!(perClient && (Served.routed site state client view name rtype).route.isForward))
    ((Served.routed site state client view name rtype).route.outcome upstream)
  refine ⟨h.places, fun k s hget => (hkept k s hget).1, fun k s hget => (hkept k s hget).2, fun task htask => ?_⟩
  simp only [Served.lookup] at htask
  split at htask
  · rcases List.mem_cons.mp htask with hnew | hold
    · rw [hnew]
      exact ⟨⟨name, rfl, rfl⟩, hleads, hrefreshes⟩
    · exact h.tasks task hold
  · exact h.tasks task htask

/-- A refresh stores what it finds as the answer of the same route. -/
theorem rightOrigins_refreshed (hreads : ReadsLowercase site.names) {task : CacheKey × Origin R}
    (hrunning : Running site state.policies gone task) (now : Nat) (orders : MapOrders N D) (view : LocalRootView)
    (hview : ∀ name, site.names.fromUtf8 task.1.name = .ok name →
      zoneResolver site.conditional site.stubs (site.names.toText name) = none →
        tldMissing site.names view name = gone (normalizeZone (site.names.toText name)))
    (found : Option (Lookup N D)) :
    RightOrigins site gone (Served.refreshed site now orders task view found state) := by
  have hended : RightOrigins site gone { state with assistant := state.assistant.endPrefetch task.1 } :=
    ⟨h.places, h.answers, h.failures, h.tasks⟩
  unfold Served.refreshed
  simp only
  split
  next => exact hended
  next => exact hended
  next name lookup hname =>
    split
    next answered houtcome =>
      have hread := (Prod.mk.inj hname).1
      obtain ⟨first, hfirst, hkey⟩ := hrunning.name
      have hsame : normalizeZone (site.names.toText name) = normalizeZone task.2.name := by
        rw [← normalizeZone_lower, hreads first name (by rw [hfirst, ← hkey, hread]), normalizeZone_lower, hfirst]
      have hroute := hrunning.refreshes view name hsame (hview name hread)
      have hstored := stored_onSuccess orders now state.assistant task.1 answered
      refine ⟨h.places, fun k s hget => ?_, fun k s hget hfailure => ?_, h.tasks⟩
      · by_cases hk : k = task.1
        · subst hk
          simp only [Function.update_self]
          intro route hleads
          have hclient := Option.some.inj (hrunning.leads.symm.trans hleads)
          exact ⟨hclient, hroute.trans hclient⟩
        · simp only [Function.update_of_ne hk]
          exact h.answers k s (hstored.others k hk s hget)
      · by_cases hk : k = task.1
        · subst hk
          have hnew := hstored.self.symm.trans hget
          exact absurd (by rw [← Option.some.inj hnew]; rfl) hfailure
        · exact h.failures k s (hstored.others k hk s hget) hfailure
    next => exact hended
    next => exact hended

theorem rightOrigins_restart {policies : List (ClientPolicy R)} (hscoped : Scoped policies)
    (hkept : ScopesKept state policies) (persistAt writtenAt loadAt readAt : Nat)
    (written loaded : Shuffle (CacheKey × Snapshot N D)) :
    RightOrigins site gone (Served.restart site persistAt writtenAt loadAt readAt written loaded policies state) := by
  have hstored {entry : CacheKey × Snapshot N D} (hentry : entry ∈ written.shuffle state.assistant.snapshots.rows) :
      entry ∈ state.assistant.snapshots.rows ∧ state.assistant.get entry.1 = some entry.2 := by
    have hmem := (written.perm _).mem_iff.mp hentry
    refine ⟨hmem, ?_⟩
    simp only [CacheAssistant.get, OrderedTable.get_of_mem hmem, Option.map_some]
  have hscope (entry : CacheKey × Snapshot N D) :
      (Served.reloaded site persistAt writtenAt entry).key.scope = entry.1.scope := site.scopes _
  constructor
  · exact hscoped
  · intro k s hget
    rw [assistant_restart] at hget
    apply good_carried (fun key _ origin => Right site policies gone key origin) state.answers _ k s hget
    intro entry hentry s _
    obtain ⟨hmem, hfound⟩ := hstored hentry
    apply right_of_scope (hscope entry)
    exact right_restarted (h.answers entry.1 entry.2 hfound) fun hdefault hrecursor networks resolver hpolicy =>
      (hkept entry hmem hdefault hrecursor networks resolver hpolicy).1
  · intro k s hget
    rw [assistant_restart] at hget
    apply good_carried (fun key s origin => s.failureUntil ≠ none → Right site policies gone key origin) state.failures
      _ k s hget
    intro entry hentry s hrestored hfailure
    obtain ⟨hmem, hfound⟩ := hstored hentry
    have hsaved := failure_of_restored hrestored hfailure
    apply right_of_scope (hscope entry)
    exact right_restarted (h.failures entry.1 entry.2 hfound hsaved) fun hdefault hrecursor networks resolver hpolicy =>
      (hkept entry hmem hdefault hrecursor networks resolver hpolicy).2 hsaved
  · intro task htask
    cases htask

/-- Every event keeps the origins right. -/
theorem rightOrigins_step (hreads : ReadsLowercase site.names) (event : ServedEvent N D R)
    (hkeeps : KeepsScopes site gone state event) : RightOrigins site gone (Served.step site state event) := by
  cases event with
  | timedOut => exact h
  | cleared => exact ⟨h.places, fun k s hget => (by cases hget), fun k s hget => (by cases hget), h.tasks⟩
  | flushed name rtype =>
    exact ⟨h.places, fun k s hget => h.answers k s (get_forget state.assistant name rtype k s hget),
      fun k s hget => h.failures k s (get_forget state.assistant name rtype k s hget), h.tasks⟩
  | restart persistAt writtenAt loadAt readAt written loaded policies =>
    exact rightOrigins_restart h hkeeps.1 hkeeps.2 persistAt writtenAt loadAt readAt written loaded
  | refreshed now orders task view found =>
    simp only [Served.step]
    split
    next => exact h
    next running hrunning =>
      have hothers : RightOrigins site gone { state with tasks := state.tasks.eraseIdx task } :=
        ⟨h.places, h.answers, h.failures, fun other hother => h.tasks other (List.mem_of_mem_eraseIdx hother)⟩
      exact rightOrigins_refreshed hothers hreads (h.tasks running (List.mem_of_getElem? hrunning)) now orders view
        (hkeeps running hrunning) found
  | lookup asked answered orders client perClient view name rtype upstream =>
    simp only [Served.step]
    split
    next => exact h
    next hserved =>
      have hserved := eq_false_of_ne_true hserved
      exact rightOrigins_lookup h hserved (hkeeps hserved) asked answered orders perClient rtype upstream

end Steps

theorem rightOrigins_start (site : Site N D R) (gone : Text → Bool) {policies : List (ClientPolicy R)}
    (hscoped : Scoped policies) : RightOrigins site gone (.start site policies) where
  places := hscoped
  answers k s hget := by cases hget
  failures k s hget := by cases hget
  tasks task htask := absurd htask List.not_mem_nil

/-- In every run in which the scopes keep their meaning, each client is answered from
what its own route's servers said. -/
theorem answers_keep_route (site : Site N D R) (hreads : ReadsLowercase site.names) (gone : Text → Bool)
    (policies : List (ClientPolicy R)) (hscoped : Scoped policies) (events : List (ServedEvent N D R))
    (hkeeps : Each (Served.step site) (KeepsScopes site gone) (.start site policies) events) :
    Each (Served.step site) (RoutesAgree site) (.start site policies) events :=
  each_of_invariant (RightOrigins site gone)
    (fun _ event h hevent => rightOrigins_step h hreads event hevent)
    (fun _ event h hevent => routesAgree_of_right h event hevent) events (rightOrigins_start site gone hscoped) hkeeps

instance [DecidableEq R] (origin : Origin R) (name : Text) (route : Route R) : Decidable (SameRoute origin name route) :=
  inferInstanceAs (Decidable (normalizeZone origin.name = normalizeZone name →
    origin.client = route ∧ origin.asked = route))

instance [DecidableEq R] (state : Served N D R) (routed : Routed R) (name : Text) :
    ∀ replayed settled, Decidable (ReplyAgrees state routed name replayed settled)
  | some (.failed .., _), _ => inferInstanceAs (Decidable (SameRoute ..))
  | some (.answer _, _), _ | some (.stale _, _), _ | some (.broken, _), _ => inferInstanceAs (Decidable (SameRoute ..))
  | none, .stale _ => inferInstanceAs (Decidable (SameRoute ..))
  | none, .answer _ | none, .failed .. | none, .broken => inferInstanceAs (Decidable True)

instance [DecidableEq R] (site : Site N D R) (state : Served N D R) : ∀ event, Decidable (RoutesAgree site state event)
  | .lookup _ _ _ client _ _ _ _ _ =>
      inferInstanceAs (Decidable (Served.refused site state client = false → ReplyAgrees ..))
  | .timedOut _ client _ _ _ =>
      inferInstanceAs (Decidable (Served.refused site state (some client) = false → _ → SameRoute ..))
  | .refreshed .. | .flushed .. | .cleared | .restart .. => inferInstanceAs (Decidable True)

/-- A server that forwards, with one name to look up. -/
def office : Site WwwName Unit Text where
  names := wwwWire.toHickoryNames
  root := .qualified
  config := servesStale
  default := .forward "192.0.2.1"
  conditional := []
  stubs := []
  reload := wwwWire.reload
  scopes _ := rfl

/-- The children's network, whose upstream server filters. -/
def childrenPolicy : ClientPolicy Text := ⟨[.v4 ⟨0x0a000000, 24⟩], .forward "192.0.2.2"⟩

def guestPolicy : ClientPolicy Text := ⟨[.v4 ⟨0x0a000100, 24⟩], .forward "192.0.2.3"⟩

def lookedUp (at_ : Nat) (client : Ipv4Addr) : ServedEvent WwwName Unit Text :=
  .lookup (fromSecs at_) (fromSecs at_) .plain (some (.v4 client)) false (fun _ => none) .qualified 1
    (.answered ⟨⟨.qualified, 1⟩, [⟨(), 300⟩], fromSecs (at_ + 300)⟩)

/-- A restart in which the policies change places. -/
theorem answers_keep_route_fails :
    ¬ ∀ (policies : List (ClientPolicy Text)) (events : List (ServedEvent WwwName Unit Text)),
      Each (Served.step office) (RoutesAgree office) (.start office policies) events := by
  intro h
  have hthird := (h [childrenPolicy, guestPolicy]
    [lookedUp 10 0x0a000005,
      .restart (fromSecs 20) 1700000020 (fromSecs 30) 1700000030 .plain .plain [guestPolicy, childrenPolicy],
      lookedUp 40 0x0a000105]).2.2.1
  revert hthird
  decide

/-- Another client of the children's network is answered stale when its server fails. -/
theorem answers_keep_route_unchanged :
    Each (Served.step office) (RoutesAgree office) (.start office [childrenPolicy, guestPolicy])
      [lookedUp 10 0x0a000005,
        .lookup (fromSecs 400) (fromSecs 405) .plain (some (.v4 0x0a000006)) false (fun _ => none) .qualified 1
          (.failed none none)] := by
  have hreads : ReadsLowercase office.names := by
    intro name name' h
    cases name <;> cases h <;> rfl
  refine answers_keep_route office hreads (fun _ => false) [childrenPolicy, guestPolicy] (by simp [Scoped]) _ ?_
  exact ⟨fun _ _ => ⟨rfl, fun h => by cases h⟩, fun _ _ => ⟨rfl, fun h => by cases h⟩, trivial⟩

end DaygleDns.Recursive
