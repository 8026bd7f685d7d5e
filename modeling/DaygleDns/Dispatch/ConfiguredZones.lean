import DaygleDns.Dispatch.EmptyZones
import DaygleDns.Fallible

/-! Names inside a configured zone, which are resolved by that zone's servers unless an
empty zone covers them. -/
namespace DaygleDns.Dispatch.EmptyZone

open Recursive Text

variable {N S E : Type}

/-- The conditional zones and the enabled stub zones of a configuration. -/
def RecursiveSettings.configuredZones (settings : RecursiveSettings S) : List Text :=
  (settings.conditionalZones.map fun zone => normalizeZone zone.name) ++
    (settings.stubZones.filter StubZoneConfig.enabled).map fun stub => normalizeZone stub.name

/-- The zones that have a resolver. -/
def Resolver.zones (resolver : Resolver S) : List (ConditionalResolver (Forwarder S)) :=
  resolver.inner.conditional ++ resolver.inner.stubs

/-- An entry of `empty_zones` contains the name. -/
def Covers (qname entry : Text) : Prop := (emptyZoneCovering (some [entry]) qname).isSome

/-- The name is in the zone, and no empty zone that covers it is more specific. -/
structure Claims (emptyZones : Option (List Text)) (qname zone : Text) : Prop where
  inside : inZone qname zone = true
  specific : ∀ entries, emptyZones = some entries → ∀ entry ∈ entries, Covers qname entry →
    utf8Len (toAsciiLowercase (trimEndMatches '.' (trim entry))) ≤ utf8Len zone

/-- The servers of the zone, or of a more specific one that the name is also in, resolve it. -/
def ResolvedBy (resolver : Resolver S) (qname zone : Text) (handled : Handled S E) : Prop :=
  ∃ served ∈ resolver.zones, inZone qname served.zone = true ∧ utf8Len zone ≤ utf8Len served.zone ∧
    ∃ kind scope, handled = .lookup (.forward served.resolver) kind scope

/-- The name is read, and as it is shown it is in that zone or a more specific one
which has nameservers, and in no zone deeper than that. -/
def ShownIn (names : HickoryNames N) (resolver : Resolver S) (qname zone : Text) : Prop :=
  ∃ name, names.fromUtf8 qname = .ok name ∧
    ∃ served, Deepest resolver.zones (normalizeZone (names.toText name)) served ∧
      inZone qname served.zone = true ∧ utf8Len zone ≤ utf8Len served.zone

/-- Each zone's forwarder is its own. -/
def OwnForwarder (zone : ConditionalResolver (Forwarder S)) : Prop := ∃ servers, zone.resolver = .zone zone.zone servers

theorem own_buildConditional {servers : ServerNames S} {config : ConditionalZoneConfig}
    {zone : ConditionalResolver (Forwarder S)} (h : buildConditional servers config = .ok zone) : OwnForwarder zone := by
  unfold buildConditional at h
  cases hparsed : servers.parseUpstreams config.upstreams with
  | error e =>
    rw [hparsed] at h
    cases h
  | ok upstreams =>
    rw [hparsed] at h
    cases h
    exact ⟨upstreams, rfl⟩

theorem own_buildStub {servers : ServerNames S} {stub : StubZoneConfig} {zone : ConditionalResolver (Forwarder S)}
    (h : buildStub servers stub = some zone) : OwnForwarder zone := by
  simp only [buildStub] at h
  split at h
  · cases h
  · split at h
    · cases h
    · cases h
      exact ⟨_, rfl⟩

theorem own_build {servers : ServerNames S} {settings : RecursiveSettings S} {resolver : Resolver S}
    (h : build servers settings = .ok resolver) : ∀ zone ∈ resolver.zones, OwnForwarder zone := by
  obtain ⟨conditional, hconditional, hbuilt⟩ := Fallible.bind_eq_ok.mp h
  cases hbuilt
  intro zone hzone
  obtain hmem | hmem := List.mem_append.mp hzone
  · obtain ⟨config, -, hconfig⟩ := Fallible.exists_of_mapM hconditional zone hmem
    exact own_buildConditional hconfig
  · obtain ⟨stub, -, hstub⟩ := List.mem_filterMap.mp hmem
    exact own_buildStub hstub

/-- Names outside the zones go to no zone's servers. -/
theorem no_zone_of_build {servers : ServerNames S} {settings : RecursiveSettings S} {resolver : Resolver S}
    (h : build servers settings = .ok resolver) :
    (∀ name nss, resolver.inner.default ≠ .forward (.zone name nss)) ∧
      ∀ policy ∈ resolver.inner.policies, ∀ name nss, policy.backend ≠ .forward (.zone name nss) := by
  obtain ⟨conditional, -, hbuilt⟩ := Fallible.bind_eq_ok.mp h
  cases hbuilt
  constructor
  · intro name nss
    simp only [Inner.build]
    cases settings.default <;> simp [buildDefault]
  · intro policy hpolicy name nss
    obtain ⟨config, -, rfl⟩ := List.mem_map.mp hpolicy
    simp only [buildPolicy]
    cases config.backend <;> simp

section Routed

variable {names : HickoryNames N} {resolver : Resolver S}
  (hothers : (∀ name nss, resolver.inner.default ≠ .forward (.zone name nss)) ∧
    ∀ policy ∈ resolver.inner.policies, ∀ name nss, policy.backend ≠ .forward (.zone name nss))

include hothers in
/-- A name that goes to some zone's forwarder is in a zone. -/
theorem zone_of_route {view : LocalRootView} {name : N} {policy : Option Nat} {kind : RouteKind} {scope : UInt16}
    {zone : Text} {servers : List S}
    (h : resolver.inner.route names view name policy = (.forward (.zone zone servers), kind, scope)) :
    ∃ served, Deepest resolver.zones (normalizeZone (names.toText name)) served ∧
      served.resolver = .zone zone servers := by
  obtain ⟨hnone, -⟩ | ⟨served, kind, hsome, hdeepest⟩ :=
    zoneResolver_spec resolver.inner.conditional resolver.inner.stubs (names.toText name)
  · exfalso
    simp only [Inner.route, hnone, Inner.recursiveRoute] at h
    cases hpolicy : policy.bind fun i => resolver.inner.policies[i]?.map fun p => (i, p) with
    | none =>
      have hdefault := hothers.1 zone servers
      cases hbackend : resolver.inner.default <;> simp only [hpolicy, hbackend] at h hdefault <;> grind
    | some found =>
      obtain ⟨i, -, hi⟩ := Option.bind_eq_some_iff.mp hpolicy
      obtain ⟨p, hp, rfl⟩ := Option.map_eq_some_iff.mp hi
      have hforward := hothers.2 p (List.mem_of_getElem? hp) zone servers
      simp only [hpolicy] at h
      cases hbackend : p.backend <;> simp only [hbackend] at h hforward <;> grind
  · refine ⟨served, hdeepest, ?_⟩
    simp only [Inner.route, hsome] at h
    simp_all

theorem route_of_deepest (view : LocalRootView) {name : N} (policy : Option Nat)
    {served : ConditionalResolver (Forwarder S)}
    (h : Deepest resolver.zones (normalizeZone (names.toText name)) served) :
    ∃ other kind scope, Deepest resolver.zones (normalizeZone (names.toText name)) other ∧ other.zone = served.zone ∧
      resolver.inner.route names view name policy = (.forward other.resolver, kind, scope) := by
  obtain ⟨-, houtside⟩ | ⟨other, kind, hsome, hdeepest⟩ :=
    zoneResolver_spec resolver.inner.conditional resolver.inner.stubs (names.toText name)
  · have hin := h.inside
    rw [houtside served h.mem] at hin
    cases hin
  · exact ⟨other, kind, SCOPE_DEFAULT, hdeepest, hdeepest.zone_unique h, by simp only [Inner.route, hsome]⟩

end Routed

/-- What has been checked where a query comes to a lookup. -/
theorem lookup_of_handled {d : DnsDispatcher N S E} {q : Query} {route : Route (Forwarder S)} {kind : RouteKind}
    {scope : UInt16} (h : d.handleRequest q = .lookup route kind scope) :
    q.permit = true ∧ emptyZoneCovering d.emptyZones q.qname = none ∧
      ∃ resolver name, d.resolver = some resolver ∧ d.names.fromUtf8 q.qname = .ok name ∧
        resolver.inner.route d.names d.view name (resolver.inner.policyFor q.client) = (route, kind, scope) := by
  unfold DnsDispatcher.handleRequest at h
  split at h
  · cases h
  split at h
  · cases h
  split at h
  · next zone _ =>
    simp only [DnsDispatcher.serveEmptyZone] at h
    grind
  next hcovering =>
    split at h
    · cases h
    next resolver hresolver =>
      split at h
      · cases h
      split at h
      · cases h
      next hpermit =>
        unfold DnsDispatcher.lookupForClient at h
        split at h
        · cases h
        next name hname =>
          cases h
          exact ⟨by simpa using hpermit, hcovering, resolver, name, hresolver, hname, rfl⟩

/-- Names inside a configured zone are resolved there exactly when there is capacity for a
lookup, no empty zone covers the name, and it is shown in that zone. -/
theorem resolved_where_configured (d : DnsDispatcher N S E) (servers : ServerNames S) (settings : RecursiveSettings S)
    (resolver : Resolver S) (q : Query) (hbuilt : build servers settings = .ok resolver)
    (hresolver : d.resolver = some resolver) (hearlier : d.answerEarlier q = none) (hhosts : d.hosts q.qname = false)
    (hallowed : resolver.allowsClientWithListener d.onLink q.client q.listenerAllowed = true) :
    (∀ zone ∈ settings.configuredZones, Claims d.emptyZones q.qname zone →
        ResolvedBy resolver q.qname zone (d.handleRequest q)) ↔
      ∀ zone ∈ settings.configuredZones, Claims d.emptyZones q.qname zone →
        q.permit = true ∧ emptyZoneCovering d.emptyZones q.qname = none ∧ ShownIn d.names resolver q.qname zone := by
  have hown := own_build hbuilt
  apply forall₃_congr
  intro zone _ _
  constructor
  · rintro ⟨served, hserved, hin, hle, kind, scope, hhandled⟩
    obtain ⟨hpermit, hcovering, other, name, hother, hname, hroute⟩ := lookup_of_handled hhandled
    obtain rfl : resolver = other := Option.some.inj (hresolver.symm.trans hother)
    obtain ⟨nss, hservedResolver⟩ := hown served hserved
    rw [hservedResolver] at hroute
    obtain ⟨deepest, hdeepest, hdeepestResolver⟩ := zone_of_route (no_zone_of_build hbuilt) hroute
    obtain ⟨deepestNss, howned⟩ := hown deepest hdeepest.mem
    have hzone : deepest.zone = served.zone := by
      rw [howned, Forwarder.zone.injEq] at hdeepestResolver
      exact hdeepestResolver.1
    exact ⟨hpermit, hcovering, name, hname, deepest, hdeepest, hzone ▸ hin, hzone ▸ hle⟩
  · rintro ⟨hpermit, hcovering, name, hname, served, hdeepest, hin, hle⟩
    obtain ⟨other, kind, scope, hother, hzone, hroute⟩ :=
      route_of_deepest d.view (resolver.inner.policyFor q.client) hdeepest
    refine ⟨other, hother.mem, hzone ▸ hin, hzone ▸ hle, kind, scope, ?_⟩
    simp only [DnsDispatcher.handleRequest, hearlier, hhosts, hcovering, hresolver, hallowed, hpermit,
      DnsDispatcher.lookupForClient, hname, hroute]
    simp

/-! A site with a stub zone for the reverse names of its 10.0.0.0/8. -/

def plainNames : HickoryNames Text where
  fromUtf8 := .ok
  toText := id
  qualify := id
  topLevel := fun _ => none

def plainServers : ServerNames Text where
  parseUpstreams := .ok
  parseStubNss := id

def officeSettings : RecursiveSettings Text where
  default := .recursive
  policies := []
  conditionalZones := []
  stubZones := [⟨"10.in-addr.arpa".toList, ["10.0.0.53".toList], true⟩]
  allowedClients := none
  privateNetworks := false

def officeZone : ConditionalResolver (Forwarder Text) :=
  ⟨"10.in-addr.arpa".toList, .zone "10.in-addr.arpa".toList ["10.0.0.53".toList]⟩

def officeResolver : Resolver Text := ⟨.build .recursive [] [] [officeZone], none, false⟩

def officeDispatcher (emptyZones : List Text) : DnsDispatcher Text Text Unit where
  names := plainNames
  isAsciiName := fun _ => true
  view := fun _ => none
  onLink := []
  answerEarlier := fun _ => none
  hosts := fun _ => false
  emptyZones := some emptyZones
  resolver := some officeResolver

/-- PTR of 10.0.0.5 -/
def officeQuery : Query := ⟨.v4 0x0a000007, "5.0.0.10.in-addr.arpa".toList, 12, false, true⟩

theorem resolved_where_configured_fails :
    build plainServers officeSettings = .ok officeResolver ∧
      (officeDispatcher ["168.192.in-addr.arpa".toList, "10.in-addr.arpa".toList]).handleRequest officeQuery =
        .emptyZone "10.in-addr.arpa".toList nxDomain [] (some .soa) ∧
      ¬∀ zone ∈ officeSettings.configuredZones,
        Claims (some ["168.192.in-addr.arpa".toList, "10.in-addr.arpa".toList]) officeQuery.qname zone →
          ResolvedBy officeResolver officeQuery.qname zone
            ((officeDispatcher ["168.192.in-addr.arpa".toList, "10.in-addr.arpa".toList]).handleRequest officeQuery) := by
  have hhandled : (officeDispatcher ["168.192.in-addr.arpa".toList, "10.in-addr.arpa".toList]).handleRequest officeQuery =
      .emptyZone "10.in-addr.arpa".toList nxDomain [] (some .soa) := by decide
  refine ⟨rfl, hhandled, fun h => ?_⟩
  have hclaims : Claims (some ["168.192.in-addr.arpa".toList, "10.in-addr.arpa".toList]) officeQuery.qname
      "10.in-addr.arpa".toList := by
    refine ⟨by decide, fun entries hentries => ?_⟩
    cases hentries
    simp only [Covers]
    decide
  obtain ⟨_, -, -, -, kind, scope, hlookup⟩ := h "10.in-addr.arpa".toList (by decide) hclaims
  rw [hhandled] at hlookup
  cases hlookup

theorem resolved_where_configured_office :
    ResolvedBy officeResolver officeQuery.qname "10.in-addr.arpa".toList
      ((officeDispatcher ["168.192.in-addr.arpa".toList]).handleRequest officeQuery) := by
  have hzones : officeSettings.configuredZones = ["10.in-addr.arpa".toList] := by decide
  have hclaims : Claims (some ["168.192.in-addr.arpa".toList]) officeQuery.qname "10.in-addr.arpa".toList := by
    refine ⟨by decide, fun entries hentries => ?_⟩
    cases hentries
    simp only [Covers]
    decide
  have hdeepest : Deepest officeResolver.zones officeQuery.qname officeZone := ⟨by decide, by decide, by decide⟩
  refine (resolved_where_configured (officeDispatcher ["168.192.in-addr.arpa".toList]) plainServers officeSettings
    officeResolver officeQuery rfl rfl rfl rfl (by decide)).mpr ?_ "10.in-addr.arpa".toList (by decide) hclaims
  intro zone hzone _
  rw [hzones, List.mem_singleton] at hzone
  subst hzone
  exact ⟨rfl, by decide, officeQuery.qname, rfl, officeZone, hdeepest, by decide, by decide⟩

end DaygleDns.Dispatch.EmptyZone
