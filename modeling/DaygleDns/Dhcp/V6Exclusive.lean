import DaygleDns.Dhcp.LeaseFacts
import DaygleDns.Dhcp.V6Facts
import DaygleDns.Runs

/-! One stateful DHCPv6 scope over time: whether an address that a `Reply` granted
to an association goes to another one before its valid lifetime has ended. -/
namespace DaygleDns.Dhcp.V6

open Leases Runs Promise

structure Association where
  duid : List UInt8
  iaid : UInt32
deriving DecidableEq

def Association.key (a : Association) : Text := leaseClient (hex a.duid) a.iaid

theorem Association.key_injective : Function.Injective Association.key := by
  intro a b h
  obtain ⟨hduid, hiaid⟩ := leaseClient_injective h
  cases a
  cases b
  exact congr (congrArg _ hduid) hiaid

abbrev AddressPromise := Promise IpAddr Association

/-- The promise as the lease table names its holder. -/
def keyed (p : AddressPromise) : LeasePromise := ⟨⟨p.holder.key, p.ends, p.firm⟩, p.resource⟩

/-- The addresses that an association of an answer has with a valid lifetime. -/
def granted (ia : IANA) : List IAAddr := (iaAddrs ia).filter fun a => a.validLife ≠ 0

/-- The addresses that it has with zero lifetimes. -/
def dropped (ia : IANA) : List IAAddr := (iaAddrs ia).filter fun a => a.validLife = 0

/-- An association in a `Reply` ends what the client was told of it before, where
it grants another address or lists the address with zero lifetimes. -/
def voids (duid : List UInt8) (ia : IANA) (p : AddressPromise) : Bool :=
  p.holder = ⟨duid, ia.id⟩ &&
    ((granted ia).any (fun a => p.resource ≠ .v6 a.addr) || (dropped ia).any fun a => p.resource = .v6 a.addr)

/-- What the client was told when it got one association of an answer. An
`Advertise` tells it nothing that it could rely on. -/
def record (ctx : Context) (duid : List UInt8) (kind : MessageType) (promises : List AddressPromise) (ia : IANA) :
    List AddressPromise :=
  if kind = .reply then
    (promises.filter fun p => !voids duid ia p) ++ (granted ia).map fun a =>
      ⟨⟨⟨duid, ia.id⟩, ctx.now + a.validLife.toNat, true⟩, .v6 a.addr⟩
  else promises

/-- The client gives back or declines the addresses that its message lists. -/
def givesBack (duid : List UInt8) (msg : Message) (p : AddressPromise) : Bool :=
  (iaNas msg).any fun ia => p.holder = ⟨duid, ia.id⟩ && (iaAddresses ia).any fun ip => p.resource = .v6 ip

structure Office where
  leases : Leases
  promises : List AddressPromise
  clock : Int

inductive Event where
  | message (now : Int) (msg : Message)
  | expire (now : Int)
  | delete (address : IpAddr)

def Context.at (server : Context) (now : Int) : Context := { server with now := now }

/-- The bytes of the client's DUID. -/
def duidOf (msg : Message) : List UInt8 := msg.clientIdOption.getD []

/-- What is still promised after a message and its answer. -/
def promisesAfter (ctx : Context) (msg : Message) (answer : Option Message) (promises : List AddressPromise) :
    List AddressPromise :=
  match answer with
  | none => promises
  | some answer =>
      let promises :=
        if msg.msgType = .release ∨ msg.msgType = .decline then
          promises.filter fun p => !givesBack (duidOf msg) msg p
        else promises
      run (record ctx (duidOf msg) answer.msgType) promises (iaNas answer)

def step (server : Context) (office : Office) : Event → Office
  | .message now msg =>
      let result := handle (server.at now) msg office.leases
      { leases := result.2
        promises := promisesAfter (server.at now) msg result.1 office.promises
        clock := now }
  | .expire now => { office with leases := office.leases.expire now, clock := now }
  | .delete address =>
      { office with
        leases := office.leases.remove address
        promises := office.promises.filter fun p => p.resource ≠ address }

def InOrder (office : Office) : Event → Prop
  | .message now _ => office.clock ≤ now
  | .expire now => office.clock ≤ now
  | .delete _ => True

/-- No other association was promised the addresses of this one. -/
def NoConflict (ctx : Context) (duid : List UInt8) (promises : List AddressPromise) (ia : IANA) : Prop :=
  ∀ a ∈ granted ia, ∀ p ∈ promises, p.resource = .v6 a.addr → p.holder ≠ ⟨duid, ia.id⟩ → p.ends ≤ ctx.now

/-- Two associations of one message have no address in common. -/
def Distinct (first second : IANA) : Prop :=
  first.id ≠ second.id → ∀ a ∈ granted first, ∀ b ∈ granted second, a.addr ≠ b.addr

/-- The associations of every answer, in their order, conflict with no promise
and with none of each other. -/
def Proper (server : Context) (office : Office) : Event → Prop
  | .message now msg =>
      ∀ answer ∈ (handle (server.at now) msg office.leases).1,
        Each (record (server.at now) (duidOf msg) answer.msgType) (NoConflict (server.at now) (duidOf msg))
          office.promises (iaNas answer) ∧
        (iaNas answer).Pairwise Distinct
  | _ => True

/-- An association that is offered another address has not bound the one it would lose. -/
def KeepsBound (ctx : Context) (duid : Text) (leases : Leases) (input : Bool × IANA) : Prop :=
  ∀ l ∈ leases.ofClient ctx.scope.name (leaseClient duid input.2.id) ctx.now,
    ∀ ip ∈ choose ctx leases duid (leaseClient duid input.2.id) input.1 (iaAddresses input.2),
      l.address ≠ .v6 ip → l.state ≠ .bound

/-- The leases as one association after the other is answered. -/
def afterOne (ctx : Context) (duid name : Text) (binds : Bool) (leases : Leases) (input : Bool × IANA) : Leases :=
  (assignOne ctx duid name binds leases input.1 input.2).2

/-- No `Advertise` offers an association another address than one that it has bound. -/
def Gentle (server : Context) (office : Office) : Event → Prop
  | .message now msg =>
      msg.msgType = .solicit → binding msg = false → server.scope.stateless = false →
        ours server msg = none → ∀ duid ∈ clientDuid msg,
          Each (afterOne (server.at now) duid (leaseName (server.at now) msg duid) false)
            (KeepsBound (server.at now) duid) office.leases (marked (iaNas msg))
  | _ => True

variable {ctx : Context} {leases : Leases} {duid : List UInt8} {name : Text} {binds first : Bool} {ia : IANA}
  {p : AddressPromise} {ip : Ipv6Addr}

theorem iaAddrs_iaWith (ctx : Context) (iaid : UInt32) (address : Option Ipv6Addr) (asked : List Ipv6Addr) :
    iaAddrs (iaWith ctx iaid address asked) =
      (address.map fun addr => ⟨addr, ctx.scope.preferredSecs, ctx.scope.validSecs⟩).toList ++
        (asked.filter fun addr => some addr ≠ address).map fun addr => ⟨addr, 0, 0⟩ := by
  have hzero (addrs : List Ipv6Addr) : iaAddrs ⟨iaid, 0, 0, addrs.map fun addr => .iaAddr ⟨addr, 0, 0⟩⟩ =
      addrs.map fun addr => ⟨addr, 0, 0⟩ := by
    simp [iaAddrs, List.filterMap_map]
  unfold iaAddrs iaWith
  cases address with
  | none =>
    simp only [List.filterMap_cons]
    exact hzero _
  | some addr =>
    simp only [List.filterMap_cons]
    exact congrArg (List.cons _) (hzero _)

/-- Only the chosen address has a valid lifetime, if the scope has one to give. -/
theorem granted_iaWith (ctx : Context) (iaid : UInt32) (address : Option Ipv6Addr) (asked : List Ipv6Addr) :
    granted (iaWith ctx iaid address asked) =
      if ctx.scope.validSecs = 0 then []
      else (address.map fun addr => ⟨addr, ctx.scope.preferredSecs, ctx.scope.validSecs⟩).toList := by
  unfold granted
  rw [iaAddrs_iaWith, List.filter_append]
  have hzero (addrs : List Ipv6Addr) :
      (addrs.map fun addr => (⟨addr, 0, 0⟩ : IAAddr)).filter (fun a => a.validLife ≠ 0) = [] := by
    simp
  rw [hzero, List.append_nil]
  cases address with
  | none => simp
  | some addr => by_cases hvalid : ctx.scope.validSecs = 0 <;> simp [hvalid]

theorem granted_of_none (asked : List Ipv6Addr) (iaid : UInt32) : granted (iaWith ctx iaid none asked) = [] := by
  rw [granted_iaWith]
  split <;> rfl

theorem mem_granted_some {asked : List Ipv6Addr} {iaid : UInt32} {a : IAAddr} :
    a ∈ granted (iaWith ctx iaid (some ip) asked) ↔
      ctx.scope.validSecs ≠ 0 ∧ a = ⟨ip, ctx.scope.preferredSecs, ctx.scope.validSecs⟩ := by
  rw [granted_iaWith]
  split <;> simp [*]

/-- Another address in an answer voids the promises of its association. -/
theorem voids_of_ne {asked : List Ipv6Addr} {iaid : UInt32} (hvalid : ctx.scope.validSecs ≠ 0)
    (howner : p.holder = ⟨duid, iaid⟩) (hresource : p.resource ≠ .v6 ip) :
    voids duid (iaWith ctx iaid (some ip) asked) p = true := by
  have hgranted : (⟨ip, ctx.scope.preferredSecs, ctx.scope.validSecs⟩ : IAAddr) ∈
      granted (iaWith ctx iaid (some ip) asked) := mem_granted_some.mpr ⟨hvalid, rfl⟩
  have hother : (granted (iaWith ctx iaid (some ip) asked)).any (fun a => p.resource ≠ .v6 a.addr) :=
    List.any_eq_true.mpr ⟨_, hgranted, by simpa using hresource⟩
  have hid : (iaWith ctx iaid (some ip) asked).id = iaid := rfl
  simp only [voids, howner, hid, hother, decide_true, Bool.true_or, Bool.and_self]

/-- A promise that the table keeps, made by this scope. -/
structure Sound (ctx : Context) (leases : Leases) (p : AddressPromise) : Prop where
  backed : Backed leases.book ctx.now (keyed p)
  term : p.ends ≤ ctx.now + ctx.scope.validSecs.toNat
  firm : p.firm

theorem Sound.lease (h : Sound ctx leases p) (hlive : ctx.now < p.ends) :
    ∃ l, leases.get p.resource = some l ∧ l.clientId = p.holder.key ∧ p.ends ≤ l.expires ∧ l.state = .bound := by
  obtain ⟨l, hget, hholder, hends, _, hbound⟩ := lease_of_backed h.backed hlive
  exact ⟨l, hget, hholder, hends, hbound h.firm⟩

theorem Sound.holder_eq (h : Sound ctx leases p) (hlive : ctx.now < p.ends) {a : Association}
    (hfree : leases.freeFor p.resource a.key ctx.now) : p.holder = a :=
  Association.key_injective (h.backed.holder_eq hlive (free_of_freeFor hfree))

/-- A promise that outlasts the answer to an association. -/
theorem sound_afterChoice (h : Sound ctx leases p)
    (husable : usable ctx leases ip (hex duid) (leaseClient (hex duid) ia.id))
    (holder : ctx.now < p.ends → p.holder = ⟨duid, ia.id⟩ → p.resource ≠ .v6 ip → ∀ l,
      leases.ofClient ctx.scope.name (leaseClient (hex duid) ia.id) ctx.now = some l → l.address = p.resource →
        l.state ≠ .bound) :
    Sound ctx (afterChoice ctx (hex duid) name binds leases (leaseClient (hex duid) ia.id) ip) p := by
  refine ⟨fun hlive => ?_, h.term, h.firm⟩
  have hlive : ctx.now < p.ends := hlive
  obtain ⟨old, hgetOld, hholder, hends, hbound⟩ := h.lease hlive
  by_cases hresource : p.resource = .v6 ip
  · obtain ⟨l, hget, hl⟩ := get_afterChoice_self ctx (hex duid) name binds leases (leaseClient (hex duid) ia.id) ip
    have hfree := (usable_iff.mp husable).2
    have howner : p.holder = ⟨duid, ia.id⟩ := h.holder_eq hlive (hresource ▸ hfree)
    have hkept : p.ends ≤ l.expires ∧ l.state = .bound := by
      cases binds with
      | true =>
        obtain ⟨hstate, hexpires⟩ := hl.bound rfl
        have := h.term
        exact ⟨by omega, hstate⟩
      | false =>
        have hsame := hl.kept rfl old (hresource ▸ hgetOld) (hholder.trans (by rw [howner]; rfl)) hbound (by omega)
        rw [hsame]
        exact ⟨hends, hbound⟩
    refine backed_of_lease h.backed ?_ (hresource ▸ hget) hl.state (fun _ => hkept.1) (fun _ _ => hkept.2) hlive
    rw [hl.client]
    exact hresource ▸ hfree
  · refine backed_congr h.backed ?_ hlive
    rw [keyed, get_afterChoice_of_ne ctx (hex duid) name binds leases _ hresource]
    rcases get_releaseOlder ctx leases (leaseClient (hex duid) ia.id) ip p.resource with hsame | ⟨_, l, hl, haddress⟩
    · exact hsame
    · obtain ⟨hget, _, hclient, _⟩ := ofClient_some hl
      have hsame : old = l := Option.some.inj (hgetOld.symm.trans (haddress ▸ hget))
      subst hsame
      have howner : p.holder = ⟨duid, ia.id⟩ :=
        Association.key_injective (hholder.symm.trans hclient)
      exact absurd hbound (holder hlive howner hresource old hl haddress)

theorem assignOne_noConflict {promises : List AddressPromise} (h : ∀ p ∈ promises, Sound ctx leases p) :
    NoConflict ctx duid promises (assignOne ctx (hex duid) name binds leases first ia).1 := by
  cases hchosen : choose ctx leases (hex duid) (leaseClient (hex duid) ia.id) first (iaAddresses ia) with
  | none =>
    rw [assignOne_of_none hchosen]
    intro a ha
    simp [granted_of_none] at ha
  | some ip =>
    rw [assignOne_of_some hchosen]
    intro a ha p hp hresource hholder
    obtain ⟨_, rfl⟩ := mem_granted_some.mp ha
    by_contra hlive
    apply hholder
    refine (h p hp).holder_eq (by omega) ?_
    rw [hresource]
    exact (usable_iff.mp (usable_of_choose hchosen)).2

variable (name) in
theorem assignOne_sound {promises : List AddressPromise} (h : ∀ p ∈ promises, Sound ctx leases p)
    (hkeeps : binds = false → KeepsBound ctx (hex duid) leases (first, ia)) :
    ∀ p ∈ record ctx duid (answerKind binds) promises (assignOne ctx (hex duid) name binds leases first ia).1,
      Sound ctx (assignOne ctx (hex duid) name binds leases first ia).2 p := by
  intro p hp
  cases hchosen : choose ctx leases (hex duid) (leaseClient (hex duid) ia.id) first (iaAddresses ia) with
  | none =>
    rw [assignOne_of_none hchosen] at hp ⊢
    simp only [record, granted_of_none, List.map_nil, List.append_nil] at hp
    split at hp
    · exact h p (List.mem_of_mem_filter hp)
    · exact h p hp
  | some ip =>
    have husable := usable_of_choose hchosen
    rw [assignOne_of_some hchosen] at hp ⊢
    simp only at hp ⊢
    cases binds with
    | false =>
      refine sound_afterChoice (h p hp) husable ?_
      intro _ _ hresource l hl haddress
      exact hkeeps rfl l hl ip hchosen (haddress ▸ hresource)
    | true =>
      rcases List.mem_append.mp hp with hp | hp
      · obtain ⟨hmem, hvoid⟩ := List.mem_filter.mp hp
        refine sound_afterChoice (h p hmem) husable ?_
        intro hlive howner hresource
        have hvalid : ctx.scope.validSecs ≠ 0 := by
          intro hzero
          have := (h p hmem).term
          simp only [hzero, UInt32.toNat_zero] at this
          omega
        simp [voids_of_ne hvalid howner hresource] at hvoid
      · obtain ⟨a, ha, rfl⟩ := List.mem_map.mp hp
        obtain ⟨_, rfl⟩ := mem_granted_some.mp ha
        obtain ⟨l, hget, hl⟩ := get_afterChoice_self ctx (hex duid) (if first then name else []) true leases
          (leaseClient (hex duid) ia.id) ip
        obtain ⟨hstate, hexpires⟩ := hl.bound rfl
        refine ⟨fun _ => ⟨l.hold, book_eq_some.mpr ⟨l, hget, hl.state, rfl⟩, hl.client, ?_, ?_⟩, ?_, rfl⟩
        · simp [keyed, DhcpLease.hold, hexpires]
        · simp [DhcpLease.hold, hstate]
        · exact Int.le_refl _

theorem assignAll_proper (inputs : List (Bool × IANA)) {leases : Leases} {promises : List AddressPromise}
    (h : ∀ p ∈ promises, Sound ctx leases p)
    (hkeeps : binds = false →
      Each (afterOne ctx (hex duid) name false) (KeepsBound ctx (hex duid)) leases inputs) :
    Each (record ctx duid (answerKind binds)) (NoConflict ctx duid) promises
        (assignAll ctx (hex duid) name binds leases inputs).1 ∧
      ∀ p ∈ run (record ctx duid (answerKind binds)) promises
        (assignAll ctx (hex duid) name binds leases inputs).1,
          Sound ctx (assignAll ctx (hex duid) name binds leases inputs).2 p := by
  induction inputs generalizing leases promises with
  | nil => exact ⟨trivial, h⟩
  | cons input rest ih =>
    obtain ⟨first, ia⟩ := input
    have hsound := assignOne_sound name h fun hbinds => (hkeeps hbinds).1
    have hrest := ih hsound fun hbinds => by
      subst hbinds
      exact (hkeeps rfl).2
    have hconflict : NoConflict ctx duid promises (assignOne ctx (hex duid) name binds leases first ia).1 :=
      assignOne_noConflict h
    exact ⟨⟨hconflict, hrest.1⟩, hrest.2⟩

/-- An address that an association was given in this message. -/
structure Taken (ctx : Context) (duid : Text) (leases : Leases) (id : Text) (ip : Ipv6Addr) : Prop where
  permitted : Permitted ctx ip duid
  held : ∃ l, leases.get (.v6 ip) = some l ∧ l.clientId = id ∧ (l.state = .offered ∨ l.state = .bound) ∧
    ctx.now < l.expires

variable {hexDuid id : Text}

theorem Taken.usable (h : Taken ctx hexDuid leases id ip) : usable ctx leases ip hexDuid id := by
  obtain ⟨l, hget, hclient, hstate, _⟩ := h.held
  refine usable_iff.mpr ⟨h.permitted, freeFor_iff.mpr fun other hother => .inl ?_⟩
  have hsame : l = other := Option.some.inj (hget.symm.trans hother)
  subst hsame
  refine ⟨hclient, fun hdeclined => ?_⟩
  simp [hdeclined] at hstate

theorem Taken.not_free (h : Taken ctx hexDuid leases id ip) {other : Text} (hother : other ≠ id) :
    leases.freeFor (.v6 ip) other ctx.now = false := by
  obtain ⟨l, hget, hclient, hstate, hlive⟩ := h.held
  by_contra hfree
  rcases freeFor_iff.mp (by simpa using hfree) l hget with ⟨howner, _⟩ | hended | hreleased
  · exact hother (howner.symm.trans hclient)
  · omega
  · simp [hreleased] at hstate

theorem taken_new {l : DhcpLease} (husable : V6.usable ctx leases ip hexDuid id)
    (hget : (afterChoice ctx hexDuid name binds leases id ip).get (.v6 ip) = some l)
    (hl : Chosen ctx binds leases id ip l) (hvalid : ctx.scope.validSecs ≠ 0) :
    Taken ctx hexDuid (afterChoice ctx hexDuid name binds leases id ip) id ip := by
  refine ⟨(usable_iff.mp husable).1, l, hget, hl.client, hl.state, ?_⟩
  cases binds with
  | true =>
    have hpos : ctx.scope.validSecs.toNat ≠ 0 := fun hzero => hvalid (UInt32.toNat_inj.mp hzero)
    have := (hl.bound rfl).2
    omega
  | false => exact hl.live rfl

/-- What an association was given stays its own while the later ones are answered. -/
theorem taken_afterOne (h : Taken ctx hexDuid leases id ip) (hvalid : ctx.scope.validSecs ≠ 0) (ia : IANA) :
    Taken ctx hexDuid (assignOne ctx hexDuid name binds leases false ia).2 id ip := by
  cases hchosen : choose ctx leases hexDuid (leaseClient hexDuid ia.id) false (iaAddresses ia) with
  | none =>
    rw [assignOne_of_none hchosen]
    exact h
  | some other =>
    rw [assignOne_of_some hchosen]
    have husable := usable_of_choose hchosen
    by_cases hip : ip = other
    · subst hip
      have howner : leaseClient hexDuid ia.id = id := by
        by_contra hne
        have hfree := (usable_iff.mp husable).2
        simp [h.not_free hne] at hfree
      obtain ⟨l, hget, hl⟩ := get_afterChoice_self ctx hexDuid [] binds leases (leaseClient hexDuid ia.id) ip
      rw [howner] at husable hget hl ⊢
      exact taken_new husable hget hl hvalid
    · obtain ⟨l, hget, hclient, hstate, hlive⟩ := h.held
      refine ⟨h.permitted, l, ?_, hclient, hstate, hlive⟩
      have hne : IpAddr.v6 ip ≠ .v6 other := fun heq => hip (IpAddr.v6.inj heq)
      simp only [get_afterChoice_of_ne ctx _ _ binds leases _ hne]
      rcases get_releaseOlder ctx leases (leaseClient hexDuid ia.id) other (.v6 ip) with hsame | ⟨_, old, hold, haddress⟩
      · exact hsame.trans hget
      · -- The older lease would be the address itself, which is usable and so chosen again.
        obtain ⟨hgetOld, _, hclientOld, _⟩ := ofClient_some hold
        have hsame : l = old := Option.some.inj (hget.symm.trans (haddress ▸ hgetOld))
        subst hsame
        have hagain := choose_of_leased (iaAddresses ia) hold haddress
          (by rw [← hclientOld, hclient]; exact h.usable)
        exact absurd (Option.some.inj (hagain.symm.trans hchosen)) hip

theorem taken_conflicts (hvalid : ctx.scope.validSecs ≠ 0) (inputs : List (Bool × IANA)) {leases : Leases}
    (hlater : ∀ input ∈ inputs, input.1 = false) (h : Taken ctx hexDuid leases id ip) :
    ∀ ia ∈ (assignAll ctx hexDuid name binds leases inputs).1, leaseClient hexDuid ia.id ≠ id →
      ∀ a ∈ granted ia, a.addr ≠ ip := by
  induction inputs generalizing leases with
  | nil =>
    intro ia hia
    cases hia
  | cons input rest ih =>
    obtain ⟨first, ia⟩ := input
    have hfirst : first = false := hlater (first, ia) List.mem_cons_self
    subst hfirst
    intro answer hanswer hother
    rcases List.mem_cons.mp hanswer with rfl | hanswer
    · cases hchosen : choose ctx leases hexDuid (leaseClient hexDuid ia.id) false (iaAddresses ia) with
      | none =>
        intro a ha
        simp [granted_of_none] at ha
      | some chosen =>
        have hother : leaseClient hexDuid ia.id ≠ id := hother
        intro a ha heq
        obtain ⟨_, rfl⟩ := mem_granted_some.mp ha
        have hfree := (usable_iff.mp (usable_of_choose hchosen)).2
        rw [show chosen = ip from heq, h.not_free hother] at hfree
        exact Bool.false_ne_true hfree
    · exact ih (fun input hinput => hlater input (List.mem_cons_of_mem _ hinput)) (taken_afterOne h hvalid ia)
        answer hanswer hother

theorem leaseClient_ne {a b : UInt32} (h : a ≠ b) : leaseClient hexDuid a ≠ leaseClient hexDuid b := by
  intro heq
  have hrest := List.append_cancel_left heq
  exact h (hexIaid_injective (List.cons.inj hrest).2)

theorem assignAll_distinct (inputs : List (Bool × IANA)) {leases : Leases}
    (hlater : ∀ input ∈ inputs.tail, input.1 = false) :
    (assignAll ctx hexDuid name binds leases inputs).1.Pairwise Distinct := by
  induction inputs generalizing leases with
  | nil => exact List.Pairwise.nil
  | cons input rest ih =>
    obtain ⟨first, ia⟩ := input
    refine List.pairwise_cons.mpr ⟨?_, ih fun input hinput => hlater input (List.mem_of_mem_tail hinput)⟩
    intro other hother hne a ha b hb heq
    cases hchosen : choose ctx leases hexDuid (leaseClient hexDuid ia.id) first (iaAddresses ia) with
    | none => simp [hchosen, granted_of_none] at ha
    | some ip =>
      simp only [hchosen] at ha hother
      obtain ⟨hvalid, rfl⟩ := mem_granted_some.mp ha
      obtain ⟨l, hget, hl⟩ := get_afterChoice_self ctx hexDuid (if first then name else []) binds leases
        (leaseClient hexDuid ia.id) ip
      have htaken := taken_new (usable_of_choose hchosen) hget hl hvalid
      exact taken_conflicts hvalid rest hlater htaken other hother (leaseClient_ne (Ne.symm hne)) b hb heq.symm

theorem marked_tail (ias : List IANA) : ∀ input ∈ (marked ias).tail, input.1 = false := by
  cases ias with
  | nil => simp [marked]
  | cons ia rest => simp [marked]

theorem foldl_updateOwn_keeps (ias : List IANA) {change : Change} {leases : Leases} (h : Sound ctx leases p)
    (hkept : ∀ ia ∈ ias, p.holder = ⟨duid, ia.id⟩ → ∀ ip ∈ iaAddresses ia, p.resource ≠ .v6 ip) :
    Sound ctx (ias.foldl (updateOwn (hex duid) change) leases) p := by
  induction ias generalizing leases with
  | nil => exact h
  | cons ia rest ih =>
    refine ih ⟨?_, h.term, h.firm⟩ fun other hother => hkept other (List.mem_cons_of_mem _ hother)
    refine backed_of_own (leaseClient (hex duid) ia.id) h.backed ?_
    rcases get_updateOwn (hex duid) change ia leases p.resource with hsame | ⟨hlisted, l, hget, hclient⟩
    · exact .inl hsame
    · refine .inr ⟨l, hget, hclient, fun howner => ?_⟩
      have howner : p.holder = ⟨duid, ia.id⟩ := Association.key_injective howner
      obtain ⟨ip, hip, hresource⟩ := List.any_eq_true.mp hlisted
      exact absurd (of_decide_eq_true hresource) (hkept ia List.mem_cons_self howner ip hip)

theorem sound_gaveBack {msg : Message} {change : Change} (h : Sound ctx leases p)
    (hkept : givesBack duid msg p = false) :
    Sound ctx ((iaNas msg).foldl (updateOwn (hex duid) change) leases) p := by
  refine foldl_updateOwn_keeps (iaNas msg) h fun ia hia howner ip hip hresource => ?_
  have hnone := List.any_eq_false.mp hkept ia hia
  apply hnone
  simp only [howner, decide_true, Bool.true_and, List.any_eq_true, decide_eq_true_eq]
  exact ⟨ip, hip, hresource⟩

theorem duidOf_eq {msg : Message} {id : List UInt8} (h : msg.clientIdOption = some id) : duidOf msg = id := by
  simp [duidOf, h]

/-- What a message leaves of the table backs what it leaves of the promises, and
its answer conflicts with none of them. -/
theorem outcome_proper {msg : Message} {answer : Option Message} {after : Leases}
    {promises : List AddressPromise} (hout : Outcome ctx msg leases answer after)
    (hgentle : msg.msgType = .solicit → binding msg = false → ctx.scope.stateless = false →
      ours ctx msg = none → ∀ duid ∈ clientDuid msg,
        Each (afterOne ctx duid (leaseName ctx msg duid) false) (KeepsBound ctx duid) leases (marked (iaNas msg)))
    (h : ∀ p ∈ promises, Sound ctx leases p) :
    (∀ a ∈ answer,
      Each (record ctx (duidOf msg) a.msgType) (NoConflict ctx (duidOf msg)) promises (iaNas a) ∧
        (iaNas a).Pairwise Distinct) ∧
      ∀ p ∈ promisesAfter ctx msg answer promises, Sound ctx after p := by
  cases hout with
  | silent hanswer hkind =>
    refine ⟨fun a ha => ?_, ?_⟩
    · rw [hanswer a ha]
      exact ⟨trivial, List.Pairwise.nil⟩
    · intro p hp
      cases answer with
      | none => exact h p hp
      | some a =>
        rcases hkind with ⟨hrelease, hdecline⟩ | hnone
        · simp only [promisesAfter, hanswer a rfl, hrelease, hdecline, or_self, if_false, run_nil] at hp
          exact h p hp
        · cases hnone
  | @assigned id a hid hduid hstate hserver hkind htype hanswers =>
    have hkeeps : binding msg = false → Each (afterOne ctx (hex id) (leaseName ctx msg (hex id)) false)
        (KeepsBound ctx (hex id)) leases (marked (iaNas msg)) := by
      intro hbinds
      obtain ⟨hsolicit, hours⟩ := hserver hbinds
      exact hgentle hsolicit hbinds hstate hours (hex id) hduid
    obtain ⟨hconflicts, hsound⟩ := assignAll_proper (marked (iaNas msg)) h hkeeps
    refine ⟨fun a' ha' => ?_, ?_⟩
    · cases ha'
      rw [hanswers, htype, duidOf_eq hid]
      exact ⟨hconflicts, assignAll_distinct _ (marked_tail _)⟩
    · simp only [promisesAfter, hkind.1, hkind.2, or_self, if_false, hanswers, htype, duidOf_eq hid]
      exact hsound
  | @gaveBack id a change hid hkind _ hanswer =>
    refine ⟨fun a' ha' => ?_, ?_⟩
    · cases ha'
      rw [hanswer]
      exact ⟨trivial, List.Pairwise.nil⟩
    · simp only [promisesAfter, hkind, if_true, hanswer, run_nil, duidOf_eq hid]
      intro p hp
      obtain ⟨hmem, hkept⟩ := List.mem_filter.mp hp
      exact sound_gaveBack (h p hmem) (by simpa using hkept)

/-- The table keeps every promise. -/
def Covered (server : Context) (office : Office) : Prop :=
  ∀ p ∈ office.promises, Sound (server.at office.clock) office.leases p

theorem Sound.later {server : Context} {clock now : Int} (h : Sound (server.at clock) leases p)
    (htime : clock ≤ now) : Sound (server.at now) leases p := by
  have hterm := h.term
  refine ⟨h.backed.later htime, ?_, h.firm⟩
  simp only [Context.at] at hterm ⊢
  omega

theorem covered_step (server : Context) (office : Office) (event : Event) (h : Covered server office)
    (hevent : InOrder office event ∧ Gentle server office event) :
    Covered server (step server office event) := by
  obtain ⟨hclock, hgentle⟩ := hevent
  cases event with
  | message now msg =>
    exact (outcome_proper (handle_outcome (server.at now) msg office.leases) hgentle
      fun p hp => (h p hp).later hclock).2
  | expire now =>
    intro p hp
    have hnow := (h p hp).later hclock
    exact ⟨backed_expire hnow.backed, hnow.term, hnow.firm⟩
  | delete address =>
    intro p hp
    obtain ⟨hmem, hother⟩ := List.mem_filter.mp hp
    have hp := h p hmem
    have hne : p.resource ≠ address := by simpa using hother
    exact ⟨backed_congr hp.backed ((get_remove _ _ _).trans (if_neg hne)), hp.term, hp.firm⟩

theorem proper_of_covered (server : Context) (office : Office) (event : Event) (h : Covered server office)
    (hevent : InOrder office event ∧ Gentle server office event) : Proper server office event := by
  obtain ⟨hclock, hgentle⟩ := hevent
  cases event with
  | message now msg =>
    exact (outcome_proper (handle_outcome (server.at now) msg office.leases) hgentle
      fun p hp => (h p hp).later hclock).1
  | expire => trivial
  | delete => trivial

instance (office : Office) : ∀ event, Decidable (InOrder office event)
  | .message now _ => inferInstanceAs (Decidable (office.clock ≤ now))
  | .expire now => inferInstanceAs (Decidable (office.clock ≤ now))
  | .delete _ => inferInstanceAs (Decidable True)

instance (ctx : Context) (duid : List UInt8) (promises : List AddressPromise) (ia : IANA) :
    Decidable (NoConflict ctx duid promises ia) :=
  inferInstanceAs (Decidable (∀ a ∈ granted ia, ∀ p ∈ promises,
    p.resource = .v6 a.addr → p.holder ≠ ⟨duid, ia.id⟩ → p.ends ≤ ctx.now))

instance (first second : IANA) : Decidable (Distinct first second) :=
  inferInstanceAs (Decidable (first.id ≠ second.id → ∀ a ∈ granted first, ∀ b ∈ granted second, a.addr ≠ b.addr))

instance (server : Context) (office : Office) : ∀ event, Decidable (Proper server office event)
  | .message now msg =>
      inferInstanceAs (Decidable (∀ answer ∈ (handle (server.at now) msg office.leases).1,
        Each (record (server.at now) (duidOf msg) answer.msgType) (NoConflict (server.at now) (duidOf msg))
          office.promises (iaNas answer) ∧
        (iaNas answer).Pairwise Distinct))
  | .expire _ => inferInstanceAs (Decidable True)
  | .delete _ => inferInstanceAs (Decidable True)

-- The instance for bit vectors would go through all the addresses.
instance (ctx : Context) (duid : Text) (leases : Leases) (input : Bool × IANA) :
    Decidable (KeepsBound ctx duid leases input) :=
  @Option.decidableForallMem _ _ (fun _ => @Option.decidableForallMem _ _ (fun _ => inferInstance) _) _

instance (server : Context) (office : Office) : ∀ event, Decidable (Gentle server office event)
  | .message now msg =>
      inferInstanceAs (Decidable (msg.msgType = .solicit → binding msg = false → server.scope.stateless = false →
        ours server msg = none → ∀ duid ∈ clientDuid msg,
          Each (afterOne (server.at now) duid (leaseName (server.at now) msg duid) false)
            (KeepsBound (server.at now) duid) office.leases (marked (iaNas msg))))
  | .expire _ => inferInstanceAs (Decidable True)
  | .delete _ => inferInstanceAs (Decidable True)

theorem associations_exclusive (server : Context) (leases : Leases) (clock : Int) (events : List Event)
    (htime : Each (step server) InOrder ⟨leases, [], clock⟩ events)
    (hgentle : Each (step server) (Gentle server) ⟨leases, [], clock⟩ events) :
    Each (step server) (Proper server) ⟨leases, [], clock⟩ events :=
  each_of_invariant (Covered server) (covered_step server) (proper_of_covered server) events
    (fun _ hp => by cases hp) (each_and htime hgentle)

/-- One address to hand out, and another one reserved for a client. -/
def lan : Context where
  scope :=
    { name := "lan6", rangeStart := "fd00:1::1000", rangeEnd := "fd00:1::1000", dnsServers := [],
      domainSearch := [], preferredSecs := 3600, validSecs := 7200,
      reservations := [{ client := "0001", address := "fd00:1::50", hostname := "" }] }
  net := ⟨0xfd000001000000000000000000000000#128, 64⟩
  serverDuid := [0, 4]
  dnsDefault := none
  now := 0
  fromAscii := some

/-- The reserved address, which a device in the way was found to use. -/
def declinedLease : DhcpLease :=
  lease (.v6 0xfd000001000000000000000000000050#128) "lan6" "declined" "0001" "" .declined 10

def clientMessage (kind : MessageType) (duid : List UInt8) (server : Option (List UInt8)) : Message where
  msgType := kind
  xid := 7
  opts := .clientId duid :: (server.map DhcpOption.serverId).toList ++ [.iana ⟨1, 0, 0, []⟩]

/-- An address that was bound is lost when its association is offered the
reserved one again, whether or not the client takes the offer. -/
theorem associations_exclusive_fails :
    ¬ ∀ (server : Context) (leases : Leases) (clock : Int) (events : List Event),
      Each (step server) InOrder ⟨leases, [], clock⟩ events →
        Each (step server) (Proper server) ⟨leases, [], clock⟩ events := by
  intro h
  have hproper := h lan (.new [declinedLease]) 0
    [.message 0 (clientMessage .request [0, 1] (some [0, 4])), .message 20 (clientMessage .solicit [0, 1] none),
      .message 30 (clientMessage .solicit [0, 2] none)] (by decide)
  revert hproper
  decide

theorem associations_exclusive_bound :
    Each (step lan) (Proper lan) ⟨.new [], [], 0⟩
      [.message 0 (clientMessage .request [0, 2] (some [0, 4])), .message 20 (clientMessage .solicit [0, 2] none),
        .message 30 (clientMessage .solicit [0, 3] none)] :=
  associations_exclusive lan (.new []) 0 _ (by decide) (by decide)

end DaygleDns.Dhcp.V6
