import DaygleDns.Authoritative.Store
import DaygleDns.Dhcp.V4Facts
import DaygleDns.Dhcp.V6Facts
import DaygleDns.Runs

/-! The leases that have DNS records: which messages and operations of the table
leave them on their addresses. -/
namespace DaygleDns.Dhcp

open Text Authoritative Leases Runs

/-- The lease has no record in the store, so nothing is lost with it. -/
def Bare (store : ZoneStore) (l : DhcpLease) : Prop := ∀ id ∈ l.dnsRecords, store.getRecord id = none

/-- What a DHCPv4 message puts in the place of a lease loses no record: an offer
of an address that the client has not bound, and an `Ack` of another client's. -/
def KeepsV4 (store : ZoneStore) (ctx : V4.Context) (msg : V4.Message) (leases : Leases) : Prop :=
  (msg.msgType = some .discover →
    ∀ ip ∈ V4.choose ctx leases (V4.clientId msg) (V4.mac msg) (V4.requestedIp msg),
      V4.holds ctx leases ip (V4.clientId msg) = false → ∀ l ∈ leases.get (.v4 ip), Bare store l) ∧
  (msg.msgType = some .request →
    ∀ ip ∈ V4.acked ctx msg leases, ∀ l ∈ leases.get (.v4 ip), l.clientId ≠ V4.clientId msg → Bare store l)

/-- The same for one association of a DHCPv6 message. -/
def KeepsAssociation (store : ZoneStore) (ctx : V6.Context) (duid : Text) (binds : Bool) (leases : Leases)
    (input : Bool × V6.IANA) : Prop :=
  let id := V6.leaseClient duid input.2.id
  ∀ ip ∈ V6.choose ctx leases duid id input.1 (V6.iaAddresses input.2), ∀ l ∈ leases.get (.v6 ip),
    (if binds then l.clientId ≠ id else ¬(l.clientId = id ∧ l.state = .bound ∧ ctx.now < l.expires)) →
      Bare store l

def KeepsV6 (store : ZoneStore) (ctx : V6.Context) (msg : V6.Message) (leases : Leases) : Prop :=
  (∀ kind ∈ ([.release, .decline] : List V6.MessageType), msg.msgType ≠ kind) →
    ∀ duid ∈ V6.clientDuid msg,
      Each (fun leases input => (V6.assignOne ctx duid (V6.leaseName ctx msg duid) (V6.binding msg) leases
          input.1 input.2).2)
        (KeepsAssociation store ctx duid (V6.binding msg)) leases (V6.marked (V6.iaNas msg))

/-- A lease with a record in the store stays on its address, with its records. -/
def Carries (store : ZoneStore) (before after : Leases) : Prop :=
  ∀ a l, before.get a = some l → ¬Bare store l → l.state ≠ .offered →
    ∃ l', after.get a = some l' ∧ l'.dnsRecords = l.dnsRecords ∧ l'.state ≠ .offered

variable {store : ZoneStore} {leases : Leases}

theorem Carries.refl (store : ZoneStore) (leases : Leases) : Carries store leases leases :=
  fun _ l hget _ hstate => ⟨l, hget, rfl, hstate⟩

theorem Carries.trans {first second third : Leases} (h : Carries store first second)
    (h' : Carries store second third) : Carries store first third := by
  intro a l hget hbare hstate
  obtain ⟨l', hget', hrecords, hstate'⟩ := h a l hget hbare hstate
  have hbare' : ¬Bare store l' := by rwa [Bare, hrecords]
  obtain ⟨l'', hget'', hrecords', hstate''⟩ := h' a l' hget' hbare' hstate'
  exact ⟨l'', hget'', hrecords'.trans hrecords, hstate''⟩

theorem carries_put {l : DhcpLease}
    (h : ∀ old, leases.get l.address = some old → ¬Bare store old → old.state ≠ .offered →
      l.dnsRecords = old.dnsRecords ∧ l.state ≠ .offered) : Carries store leases (leases.put l) := by
  intro a old hget hbare hstate
  by_cases ha : l.address = a
  · obtain ⟨hrecords, hnot⟩ := h old (ha ▸ hget) hbare hstate
    exact ⟨l, (get_put leases l a).trans (if_pos ha), hrecords, hnot⟩
  · exact ⟨old, (get_put leases l a).trans ((if_neg ha).trans hget), rfl, hstate⟩

theorem carries_remove {address : IpAddr}
    (h : ∀ old, leases.get address = some old → Bare store old ∨ old.state = .offered) :
    Carries store leases (leases.remove address) := by
  intro a old hget hbare hstate
  by_cases ha : a = address
  · rcases h old (ha ▸ hget) with hnone | hoffered
    · exact absurd hnone hbare
    · exact absurd hoffered hstate
  · exact ⟨old, (get_remove leases address a).trans ((if_neg ha).trans hget), rfl, hstate⟩

/-- A change that keeps the records and makes no offer. -/
def Change.Settled (change : Change) : Prop :=
  ∀ l, (change.apply l).dnsRecords = l.dnsRecords ∧ (l.state ≠ .offered → (change.apply l).state ≠ .offered)

theorem Change.settled_renew (expires : Int) : (Change.renew expires).Settled := fun _ => ⟨rfl, id⟩

theorem Change.settled_release (now : Int) : (Change.release now).Settled := fun _ => ⟨rfl, fun _ => by simp [Change.release]⟩

theorem Change.settled_decline (now : Int) : (Change.decline now).Settled := fun _ => ⟨rfl, fun _ => by simp [Change.decline]⟩

theorem Change.settled_lapse : Change.lapse.Settled := fun _ => ⟨rfl, fun _ => by simp [Change.lapse]⟩

theorem carries_update {address : IpAddr} {change : Change} (h : change.Settled) :
    Carries store leases (leases.update address change) := by
  intro a old hget _ hstate
  by_cases ha : a = address
  · refine ⟨change.apply old, ?_, (h old).1, (h old).2 hstate⟩
    rw [get_update, if_pos ha, hget]
    rfl
  · exact ⟨old, (get_update leases address a change).trans ((if_neg ha).trans hget), rfl, hstate⟩

theorem carries_expire {now : Int} (h : ∀ l ∈ leases.all, afterExpiry now l = none → Bare store l) :
    Carries store leases (leases.expire now) := by
  intro a l hget hbare hstate
  rw [get_expire, hget, Option.bind_some]
  have hall : l ∈ leases.all := mem_all_iff.mpr (by rw [address_of_get hget, hget])
  cases hafter : afterExpiry now l with
  | none => exact absurd (h l hall hafter) hbare
  | some l' =>
    refine ⟨l', rfl, ?_⟩
    have hl' : l' = l ∨ l' = Change.lapse.apply l := by
      unfold afterExpiry lapsed at hafter
      grind
    rcases hl' with rfl | rfl
    · exact ⟨rfl, hstate⟩
    · exact ⟨(Change.settled_lapse l).1, (Change.settled_lapse l).2 hstate⟩

namespace V4

variable {ctx : Context} {msg : Message}

/-- An offer to a client is taken back. -/
theorem carries_removeOffer {id : Text} {old : DhcpLease} (hold : leases.ofClient ctx.scope.name id ctx.now = some old)
    (hoffered : old.state = .offered) : Carries store leases (leases.remove old.address) := by
  refine carries_remove fun other hother => .inr ?_
  have hsame : other = old := Option.some.inj (hother.symm.trans (ofClient_some hold).1)
  rw [hsame]
  exact hoffered

theorem carries_outcome {answer : Option Message} {after : Leases} (hout : Outcome ctx msg leases answer after)
    (h : KeepsV4 store ctx msg leases) : Carries store leases after := by
  cases hout with
  | silent => exact .refl store leases
  | @offered offer ip hop hkind hoffer hchosen =>
    have hdrop : Carries store leases (dropOlderOffer ctx leases (clientId msg) ip) := by
      unfold dropOlderOffer
      split
      next old hold =>
        split
        next hoffered => exact carries_removeOffer hold hoffered.2
        next => exact .refl store leases
      next => exact .refl store leases
    have hself : (dropOlderOffer ctx leases (clientId msg) ip).get (.v4 ip) = leases.get (.v4 ip) := by
      rcases get_dropOlderOffer ctx leases (clientId msg) ip (.v4 ip) with hsame | ⟨hne, _⟩
      · exact hsame
      · exact absurd rfl hne
    refine hdrop.trans ?_
    unfold afterOffer
    simp only
    split
    next => exact .refl store _
    next hholds =>
      refine carries_put fun old hget hbare _ => absurd ?_ hbare
      have hget : leases.get (.v4 ip) = some old := hself.symm.trans hget
      refine h.1 hkind ip hchosen ?_ old hget
      simpa only [holds, hself, Bool.not_eq_true] using hholds
  | otherServer =>
    unfold dropOffer
    split
    next old hold =>
      split
      next hoffered => exact carries_removeOffer hold hoffered
      next => exact .refl store leases
    next => exact .refl store leases
  | @acked ack ip hop hkind hack hacked =>
    unfold bind
    simp only
    split
    next => exact carries_update (Change.settled_renew _)
    next =>
      split
      next own hown =>
        refine carries_put fun old hget _ _ => ?_
        obtain ⟨hgetOwn, _⟩ := Option.filter_eq_some_iff.mp hown
        have hsame : own = old := Option.some.inj (hgetOwn.symm.trans hget)
        exact ⟨by rw [hsame], by simp [lease]⟩
      next hother =>
        refine carries_put fun old hget hbare _ => absurd ?_ hbare
        refine h.2 hkind ip hacked old hget fun hclient => ?_
        have hget : leases.get (.v4 ip) = some old := hget
        simp [hget, Option.filter, hclient] at hother
  | declined =>
    unfold updateOwn
    split
    · exact carries_update (Change.settled_decline _)
    · exact .refl store leases
  | released =>
    unfold updateOwn
    split
    · exact carries_update (Change.settled_release _)
    · exact .refl store leases

end V4

namespace V6

variable {ctx : Context} {duid name id : Text} {ip : Ipv6Addr} {binds : Bool}

theorem carries_bind (h : ∀ l, leases.get (.v6 ip) = some l → l.clientId ≠ id → Bare store l) :
    Carries store leases (bind ctx leases duid id name ip) := by
  unfold bind
  simp only
  split
  next own hown =>
    obtain ⟨hgetOwn, _⟩ := Option.filter_eq_some_iff.mp hown
    split
    next => exact carries_update (Change.settled_renew _)
    next =>
      refine carries_put fun old hget _ _ => ?_
      have hsame : own = old := Option.some.inj (hgetOwn.symm.trans hget)
      exact ⟨by rw [hsame], by simp [lease]⟩
  next hother =>
    refine carries_put fun old hget hbare _ => absurd ?_ hbare
    refine h old hget fun hclient => ?_
    have hget : leases.get (.v6 ip) = some old := hget
    simp [current, hget, Option.filter, hclient] at hother

theorem carries_advertise (h : ∀ l, leases.get (.v6 ip) = some l →
      ¬(l.clientId = id ∧ l.state = .bound ∧ ctx.now < l.expires) → Bare store l) :
    Carries store leases (advertise ctx leases duid id name ip) := by
  unfold advertise
  split
  next hfresh =>
    refine carries_put fun old hget hbare _ => absurd ?_ hbare
    have hget : leases.get (.v6 ip) = some old := hget
    refine h old hget fun ⟨hclient, hbound, hlive⟩ => ?_
    simp [current, hget, Option.filter, hclient, hbound] at hfresh
    omega
  next => exact .refl store leases

theorem carries_assignOne {first : Bool} {ia : IANA}
    (h : KeepsAssociation store ctx duid binds leases (first, ia)) :
    Carries store leases (assignOne ctx duid name binds leases first ia).2 := by
  cases hchosen : choose ctx leases duid (leaseClient duid ia.id) first (iaAddresses ia) with
  | none =>
    rw [assignOne_of_none hchosen]
    exact .refl store leases
  | some ip =>
    rw [assignOne_of_some hchosen]
    have hrelease : Carries store leases (releaseOlder ctx leases (leaseClient duid ia.id) ip) := by
      unfold releaseOlder
      split
      · split
        · exact carries_update (Change.settled_release _)
        · exact .refl store leases
      · exact .refl store leases
    have hself := get_releaseOlder_self ctx leases (leaseClient duid ia.id) ip
    refine hrelease.trans ?_
    have hbare := h ip hchosen
    unfold afterChoice
    cases binds with
    | true => exact carries_bind fun l hget hclient => hbare l (hself.symm.trans hget) hclient
    | false => exact carries_advertise fun l hget hother => hbare l (hself.symm.trans hget) hother

theorem carries_assignAll (inputs : List (Bool × IANA)) {leases : Leases}
    (h : Each (fun leases input => (assignOne ctx duid name binds leases input.1 input.2).2)
      (KeepsAssociation store ctx duid binds) leases inputs) :
    Carries store leases (assignAll ctx duid name binds leases inputs).2 := by
  induction inputs generalizing leases with
  | nil => exact .refl store leases
  | cons input rest ih =>
    obtain ⟨first, ia⟩ := input
    have hfirst : Carries store leases (assignOne ctx duid name binds leases first ia).2 :=
      carries_assignOne h.1
    exact hfirst.trans (ih h.2)

theorem carries_foldl {α : Type} {step : Leases → α → Leases}
    (hstep : ∀ leases a, Carries store leases (step leases a)) (items : List α) (leases : Leases) :
    Carries store leases (items.foldl step leases) := by
  induction items generalizing leases with
  | nil => exact .refl store leases
  | cons a items ih => exact (hstep leases a).trans (ih _)

theorem carries_updateOwn {change : Change} (h : change.Settled) (leases : Leases) (ia : IANA) :
    Carries store leases (updateOwn duid change leases ia) := by
  refine carries_foldl (fun leases ip => ?_) _ leases
  split
  · exact carries_update h
  · exact .refl store leases

theorem carries_outcome {msg : Message} {answer : Option Message} {after : Leases}
    (hout : Outcome ctx msg leases answer after) (h : KeepsV6 store ctx msg leases) :
    Carries store leases after := by
  cases hout with
  | silent => exact .refl store leases
  | @assigned id answer hid hduid _ _ hkind =>
    refine carries_assignAll _ (h ?_ (hex id) hduid)
    intro kind hmem
    rcases List.mem_cons.mp hmem with rfl | hmem
    · exact hkind.1
    · rw [List.mem_singleton.mp hmem]
      exact hkind.2
  | gaveBack _ _ hchange =>
    refine carries_foldl (carries_updateOwn ?_) _ leases
    rcases hchange with rfl | rfl
    · exact Change.settled_decline _
    · exact Change.settled_release _

end V6

end DaygleDns.Dhcp
