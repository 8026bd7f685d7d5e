import DaygleDns.Dhcp.LeaseFacts
import DaygleDns.Dhcp.V4Facts
import DaygleDns.Runs

/-! One DHCPv4 scope over time: whether an address that was offered or leased to
a client is handed out to another one before that time has ended. -/
namespace DaygleDns.Dhcp.V4

open Text Leases Runs Promise

/-- What the server told the client: every reply that names an address is an
`Offer`, in answer to a `Discover`, or an `Ack`, in answer to a `Request`. -/
def granted (ctx : Context) (msg : Message) (answer : Option Message) : Option LeasePromise :=
  match answer with
  | none => none
  | some m =>
      if m.yiaddr = 0 then none
      else match msg.msgType with
        | some .discover => some ⟨⟨clientId msg, ctx.now + OFFER_SECS, false⟩, .v4 m.yiaddr⟩
        | some .request => some ⟨⟨clientId msg, ctx.now + ctx.scope.leaseSecs.toNat, true⟩, .v4 m.yiaddr⟩
        | _ => none

/-- Whether a message ends a promise: its holder releases or declines the
address, takes another server's offer or is offered another address. -/
def voids (ctx : Context) (msg : Message) (answer : Option Message) (p : LeasePromise) : Bool :=
  msg.opcode = .bootRequest && p.holder = clientId msg &&
    match msg.msgType with
    | some .release => p.resource = .v4 msg.ciaddr
    | some .decline => (requestedIp msg).any fun ip => p.resource = .v4 ip
    | some .request => !p.firm && (serverId msg).any fun sid => sid != ctx.serverIp
    | some .discover => !p.firm && answer.any fun offer => p.resource ≠ .v4 offer.yiaddr
    | _ => false

/-- The lease table, and what clients were told that still counts. -/
structure Office where
  leases : Leases
  promises : List LeasePromise
  clock : Int

inductive Event where
  | message (now : Int) (msg : Message)
  | expire (now : Int)
  | delete (address : IpAddr)

def Context.at (server : Context) (now : Int) : Context := { server with now := now }

def step (server : Context) (office : Office) : Event → Office
  | .message now msg =>
      let ctx := server.at now
      let result := handle ctx msg office.leases
      { leases := result.2
        promises := (office.promises.filter fun p => !voids ctx msg result.1 p) ++
          (granted ctx msg result.1).toList
        clock := now }
  | .expire now => { office with leases := office.leases.expire now, clock := now }
  | .delete address =>
      { office with
        leases := office.leases.remove address
        promises := office.promises.filter fun p => p.resource ≠ address }

/-- The clock does not go back. -/
def InOrder (office : Office) : Event → Prop
  | .message now _ => office.clock ≤ now
  | .expire now => office.clock ≤ now
  | .delete _ => True

/-- Nobody else was promised the address that a message is answered with. -/
def Exclusive (server : Context) (office : Office) : Event → Prop
  | .message now msg =>
      ∀ g ∈ granted (server.at now) msg (handle (server.at now) msg office.leases).1,
        ∀ p ∈ office.promises, p.resource = g.resource → p.holder ≠ g.holder → p.ends ≤ now
  | _ => True

/-- No message is answered with an address that its client may not have. -/
def OnlyPermitted (server : Context) (office : Office) : Event → Prop
  | .message now msg =>
      ∀ g ∈ granted (server.at now) msg (handle (server.at now) msg office.leases).1,
        ∃ ip, g.resource = .v4 ip ∧ Permitted (server.at now) ip (mac msg)
  | _ => True

def Proper (server : Context) (office : Office) (event : Event) : Prop :=
  Exclusive server office event ∧ OnlyPermitted server office event

/-- An address is offered again only where its lease lasts as long as an offer,
and no `Ack` gives an address for a shorter time than its client has it already. -/
def Extends (ctx : Context) (msg : Message) (leases : Leases) : Prop :=
  (msg.msgType = some .discover →
    ∀ ip ∈ choose ctx leases (clientId msg) (mac msg) (requestedIp msg),
      holds ctx leases ip (clientId msg) → ∀ l ∈ leases.get (.v4 ip), ctx.now + OFFER_SECS ≤ l.expires) ∧
  (msg.msgType = some .request →
    ∀ ip ∈ acked ctx msg leases, ∀ l ∈ leases.get (.v4 ip), l.clientId = clientId msg →
      OFFER_SECS ≤ ctx.scope.leaseSecs.toNat ∨ l.expires ≤ ctx.now + ctx.scope.leaseSecs.toNat)

def Lasting (server : Context) (office : Office) : Event → Prop
  | .message now msg => Extends (server.at now) msg office.leases
  | _ => True

/-- How long from now a promise can last. -/
def term (ctx : Context) (p : LeasePromise) : Int :=
  if p.firm then ctx.scope.leaseSecs.toNat else OFFER_SECS

variable {ctx : Context} {msg : Message} {leases after : Leases} {answer : Option Message}
  {p g : LeasePromise} {ip : Ipv4Addr}

theorem granted_of_offer {offer : Message} (hkind : msg.msgType = some .discover) (hoffer : offer.yiaddr = ip)
    (hip : ip ≠ 0) : granted ctx msg (some offer) =
      some ⟨⟨clientId msg, ctx.now + OFFER_SECS, false⟩, .v4 ip⟩ := by
  simp only [granted, hoffer, if_neg hip, hkind]

theorem granted_of_ack {ack : Message} (hkind : msg.msgType = some .request) (hack : ack.yiaddr = ip)
    (hip : ip ≠ 0) : granted ctx msg (some ack) =
      some ⟨⟨clientId msg, ctx.now + ctx.scope.leaseSecs.toNat, true⟩, .v4 ip⟩ := by
  simp only [granted, hack, if_neg hip, hkind]

theorem granted_of_silent (h : ∀ m, answer = some m → m.yiaddr = 0) : granted ctx msg answer = none := by
  cases answer with
  | none => rfl
  | some m => simp [granted, h m rfl]

theorem usable_of_acked (h : acked ctx msg leases = some ip) :
    usable ctx leases ip (clientId msg) (mac msg) := by
  unfold acked at h
  split at h
  · cases h
  · exact (Option.filter_eq_some_iff.mp h).2

theorem granted_usable (hout : Outcome ctx msg leases answer after) (hg : granted ctx msg answer = some g) :
    ∃ ip, g.resource = .v4 ip ∧ g.holder = clientId msg ∧
      usable ctx leases ip (clientId msg) (mac msg) := by
  cases hout with
  | silent hanswer => simp [granted_of_silent hanswer] at hg
  | @offered offer ip hop hkind hoffer hchosen =>
    have husable := usable_of_choose hchosen
    have hip := (usable_iff.mp husable).1.ne_zero
    rw [granted_of_offer hkind hoffer hip] at hg
    cases hg
    exact ⟨ip, rfl, rfl, husable⟩
  | otherServer => simp [granted] at hg
  | @acked ack ip hop hkind hack hacked =>
    have husable := usable_of_acked hacked
    have hip := (usable_iff.mp husable).1.ne_zero
    rw [granted_of_ack hkind hack hip] at hg
    cases hg
    exact ⟨ip, rfl, rfl, husable⟩
  | declined => simp [granted] at hg
  | released => simp [granted] at hg

theorem not_voided_discover {offer : Message} (hop : msg.opcode = .bootRequest)
    (hkind : msg.msgType = some .discover) (hoffer : offer.yiaddr = ip)
    (h : voids ctx msg (some offer) p = false) (hholder : p.holder = clientId msg)
    (hother : p.resource ≠ .v4 ip) : p.firm := by
  simpa [voids, hop, hkind, hholder, hoffer, hother] using h

theorem not_voided_request (hop : msg.opcode = .bootRequest) (hkind : msg.msgType = some .request)
    (hserver : (serverId msg).any fun sid => sid != ctx.serverIp) (h : voids ctx msg answer p = false)
    (hholder : p.holder = clientId msg) : p.firm := by
  simpa [voids, hop, hkind, hholder, hserver] using h

/-- The lease that an offer leaves on its address. -/
theorem get_afterOffer_self (ctx : Context) (msg : Message) (leases : Leases) (ip : Ipv4Addr) :
    (afterOffer ctx msg leases ip).get (.v4 ip) =
      if holds ctx leases ip (clientId msg) then leases.get (.v4 ip)
      else some (lease (.v4 ip) ctx.scope.name (clientId msg) (mac msg) (hostname msg) .offered
        (ctx.now + OFFER_SECS)) := by
  have hdrop : (dropOlderOffer ctx leases (clientId msg) ip).get (.v4 ip) = leases.get (.v4 ip) := by
    rcases get_dropOlderOffer ctx leases (clientId msg) ip (.v4 ip) with h | ⟨h, _⟩
    · exact h
    · exact absurd rfl h
  have hholds : holds ctx (dropOlderOffer ctx leases (clientId msg) ip) ip (clientId msg) =
      holds ctx leases ip (clientId msg) := by
    simp only [holds, hdrop]
  unfold afterOffer
  simp only [hholds]
  split
  · exact hdrop
  · exact (get_put _ _ _).trans (if_pos rfl)

theorem get_afterOffer_of_ne (ctx : Context) (msg : Message) (leases : Leases) {address : IpAddr}
    (h : address ≠ .v4 ip) : (afterOffer ctx msg leases ip).get address =
      (dropOlderOffer ctx leases (clientId msg) ip).get address := by
  unfold afterOffer
  simp only
  split
  · rfl
  · exact (get_put _ _ _).trans (if_neg (Ne.symm h))

/-- A promise that lasts stays backed by the table that its resource's message leaves. -/
theorem backed_outcome (hout : Outcome ctx msg leases answer after) (hextends : Extends ctx msg leases)
    (h : Backed leases.book ctx.now p) (hterm : p.ends ≤ ctx.now + term ctx p)
    (hvoid : voids ctx msg answer p = false) : Backed after.book ctx.now p := by
  cases hout with
  | silent => exact h
  | @offered offer ip hop hkind hoffer hchosen =>
    by_cases haddress : p.resource = .v4 ip
    · have hself := get_afterOffer_self ctx msg leases ip
      by_cases hholds : holds ctx leases ip (clientId msg)
      · rw [if_pos hholds] at hself
        exact backed_congr h (by rw [haddress, hself])
      · rw [if_neg hholds] at hself
        have husable := (usable_iff.mp (usable_of_choose hchosen)).2
        have hfirm : ctx.now < p.ends → p.firm = false := by
          intro hlive
          by_contra hp
          obtain ⟨l, hget, hholder, hends, _, hbound⟩ := lease_of_backed h hlive
          have howner := h.holder_eq hlive (haddress ▸ free_of_freeFor husable)
          apply hholds
          rw [haddress] at hget
          simp only [holds, hget, Option.any_some, decide_eq_true_eq]
          exact ⟨hbound (by simpa using hp), hholder.trans howner, by omega⟩
        refine backed_of_lease h (haddress ▸ husable) (haddress ▸ hself) (.inl rfl) ?_ ?_
        · intro hlive
          simpa [term, hfirm hlive, lease] using hterm
        · intro hlive hp
          simp [hfirm hlive] at hp
    · refine backed_of_own (clientId msg) h ?_
      rw [get_afterOffer_of_ne ctx msg leases haddress]
      rcases get_dropOlderOffer ctx leases (clientId msg) ip p.resource with hsame | ⟨_, _, l, hget, hclient, hstate⟩
      · exact .inl hsame
      · refine .inr ⟨l, hget, hclient, fun hholder => ⟨?_, by simp [hstate]⟩⟩
        exact not_voided_discover hop hkind hoffer hvoid hholder haddress
  | otherServer hop hkind hserver =>
    refine backed_of_own (clientId msg) h ?_
    rcases get_dropOffer ctx leases (clientId msg) p.resource with hsame | ⟨_, l, hget, hclient, hstate⟩
    · exact .inl hsame
    · refine .inr ⟨l, hget, hclient, fun hholder => ⟨?_, by simp [hstate]⟩⟩
      exact not_voided_request hop hkind hserver hvoid hholder
  | @acked ack ip hop hkind hack hacked =>
    by_cases haddress : p.resource = .v4 ip
    · obtain ⟨l, hget, hclient, hstate, hexpires⟩ := get_bind_self ctx msg leases ip
      have husable := (usable_iff.mp (usable_of_acked hacked)).2
      refine backed_of_lease h ?_ (haddress ▸ hget) (.inr hstate) ?_ (fun _ _ => hstate)
      · rw [haddress, hclient]
        exact husable
      · intro hlive
        obtain ⟨old, hold, hholder, hends, _⟩ := lease_of_backed h hlive
        have howner := h.holder_eq hlive (haddress ▸ free_of_freeFor husable)
        have hlong : OFFER_SECS ≤ ctx.scope.leaseSecs.toNat ∨
            old.expires ≤ ctx.now + ctx.scope.leaseSecs.toNat :=
          hextends.2 hkind ip hacked old (haddress ▸ hold) (hholder.trans howner)
        unfold term at hterm
        split at hterm <;> omega
    · exact backed_congr h (get_bind_of_ne ctx msg leases haddress)
  | @declined ip hop hkind hip =>
    refine backed_of_own (clientId msg) h ?_
    rcases get_updateOwn leases ip (clientId msg) (.decline ctx.now) p.resource with hsame | ⟨haddress, l, hget, hclient⟩
    · exact .inl hsame
    · refine .inr ⟨l, hget, hclient, fun hholder => ?_⟩
      simp [voids, hop, hkind, hholder, hip, haddress] at hvoid
  | released hop hkind =>
    refine backed_of_own (clientId msg) h ?_
    rcases get_updateOwn leases msg.ciaddr (clientId msg) (.release ctx.now) p.resource with hsame | ⟨haddress, l, hget, hclient⟩
    · exact .inl hsame
    · refine .inr ⟨l, hget, hclient, fun hholder => ?_⟩
      simp [voids, hop, hkind, hholder, haddress] at hvoid

/-- The table backs what a message is answered with. -/
theorem backed_granted (hout : Outcome ctx msg leases answer after) (hextends : Extends ctx msg leases)
    (hg : granted ctx msg answer = some g) : Backed after.book ctx.now g := by
  cases hout with
  | silent hanswer => simp [granted_of_silent hanswer] at hg
  | @offered offer ip hop hkind hoffer hchosen =>
    have hip := (usable_iff.mp (usable_of_choose hchosen)).1.ne_zero
    rw [granted_of_offer hkind hoffer hip] at hg
    cases hg
    have hself := get_afterOffer_self ctx msg leases ip
    intro _
    by_cases hholds : holds ctx leases ip (clientId msg)
    · rw [if_pos hholds] at hself
      obtain ⟨l, hget⟩ : ∃ l, leases.get (.v4 ip) = some l := by
        cases hget : leases.get (.v4 ip) with
        | none => simp [holds, hget] at hholds
        | some l => exact ⟨l, rfl⟩
      have hl : l.state = .bound ∧ l.clientId = clientId msg ∧ ctx.now < l.expires := by
        simpa [holds, hget] using hholds
      have hlong : ctx.now + OFFER_SECS ≤ l.expires := hextends.1 hkind ip hchosen hholds l hget
      exact ⟨l.hold, book_eq_some.mpr ⟨l, hself.trans hget, .inr hl.1, rfl⟩, hl.2.1, hlong, by simp⟩
    · rw [if_neg hholds] at hself
      exact ⟨_, book_eq_some.mpr ⟨_, hself, .inl rfl, rfl⟩, rfl, Int.le_refl _, by simp⟩
  | otherServer => simp [granted] at hg
  | @acked ack ip hop hkind hack hacked =>
    have hip := (usable_iff.mp (usable_of_acked hacked)).1.ne_zero
    rw [granted_of_ack hkind hack hip] at hg
    cases hg
    obtain ⟨l, hget, hclient, hstate, hexpires⟩ := get_bind_self ctx msg leases ip
    intro _
    exact ⟨l.hold, book_eq_some.mpr ⟨l, hget, .inr hstate, rfl⟩, hclient, by simp [DhcpLease.hold, hexpires],
      by simp [DhcpLease.hold, hstate]⟩
  | declined => simp [granted] at hg
  | released => simp [granted] at hg

theorem term_granted (hg : granted ctx msg answer = some g) : g.ends ≤ ctx.now + term ctx g := by
  unfold granted at hg
  split at hg
  · cases hg
  · split at hg
    · cases hg
    · split at hg
      · cases hg
        simp [term]
      · cases hg
        simp [term]
      · cases hg

/-- The table backs every promise, and none lasts longer than it could when it was made. -/
def Covered (server : Context) (office : Office) : Prop :=
  ∀ p ∈ office.promises, Backed office.leases.book office.clock p ∧ p.ends ≤ office.clock + term server p

theorem covered_step (server : Context) (office : Office) (event : Event) (h : Covered server office)
    (hevent : InOrder office event ∧ Lasting server office event) :
    Covered server (step server office event) := by
  obtain ⟨hclock, hlasting⟩ := hevent
  cases event with
  | message now msg =>
    have hout := handle_outcome (server.at now) msg office.leases
    intro p hp
    rcases List.mem_append.mp hp with hp | hp
    · obtain ⟨hmem, hvoid⟩ := List.mem_filter.mp hp
      obtain ⟨hbacked, hterm⟩ := h p hmem
      have hnow : p.ends ≤ now + term server p := by
        have : office.clock ≤ now := hclock
        omega
      exact ⟨backed_outcome hout hlasting (hbacked.later hclock) hnow (by simpa using hvoid), hnow⟩
    · have hg := Option.mem_toList.mp hp
      exact ⟨backed_granted hout hlasting hg, term_granted hg⟩
  | expire now =>
    intro p hp
    obtain ⟨hbacked, hterm⟩ := h p hp
    refine ⟨backed_expire (hbacked.later hclock), ?_⟩
    have : office.clock ≤ now := hclock
    simp only [step]
    omega
  | delete address =>
    intro p hp
    obtain ⟨hmem, hother⟩ := List.mem_filter.mp hp
    obtain ⟨hbacked, hterm⟩ := h p hmem
    refine ⟨backed_congr hbacked ?_, hterm⟩
    exact (get_remove _ _ _).trans (if_neg (by simpa using hother))

theorem proper_of_covered (server : Context) (office : Office) (event : Event) (h : Covered server office)
    (hclock : InOrder office event) : Proper server office event := by
  cases event with
  | message now msg =>
    have hout := handle_outcome (server.at now) msg office.leases
    constructor
    · intro g hg p hp hresource hholder
      obtain ⟨ip, hip, hclient, husable⟩ := granted_usable hout hg
      by_contra hlive
      apply hholder
      rw [hclient]
      refine ((h p hp).1.later hclock).holder_eq (by omega) ?_
      rw [hresource, hip]
      exact free_of_freeFor (usable_iff.mp husable).2
    · intro g hg
      obtain ⟨ip, hip, _, husable⟩ := granted_usable hout hg
      exact ⟨ip, hip, (usable_iff.mp husable).1⟩
  | expire => exact ⟨trivial, trivial⟩
  | delete => exact ⟨trivial, trivial⟩

instance (office : Office) : ∀ event, Decidable (InOrder office event)
  | .message now _ => inferInstanceAs (Decidable (office.clock ≤ now))
  | .expire now => inferInstanceAs (Decidable (office.clock ≤ now))
  | .delete _ => inferInstanceAs (Decidable True)

instance (server : Context) (office : Office) : ∀ event, Decidable (Exclusive server office event)
  | .message now msg =>
      inferInstanceAs (Decidable (∀ g ∈ granted (server.at now) msg (handle (server.at now) msg office.leases).1,
        ∀ p ∈ office.promises, p.resource = g.resource → p.holder ≠ g.holder → p.ends ≤ now))
  | .expire _ => inferInstanceAs (Decidable True)
  | .delete _ => inferInstanceAs (Decidable True)

-- The instance for bit vectors would go through all the addresses.
instance (ctx : Context) (msg : Message) (leases : Leases) : Decidable (Extends ctx msg leases) :=
  @instDecidableAnd _ _ (@instDecidableForall _ _ _ (Option.decidableForallMem _))
    (@instDecidableForall _ _ _ (Option.decidableForallMem _))

instance (server : Context) (office : Office) : ∀ event, Decidable (Lasting server office event)
  | .message now msg => inferInstanceAs (Decidable (Extends (server.at now) msg office.leases))
  | .expire _ => inferInstanceAs (Decidable True)
  | .delete _ => inferInstanceAs (Decidable True)

theorem addresses_exclusive (server : Context) (leases : Leases) (clock : Int) (events : List Event)
    (htime : Each (step server) InOrder ⟨leases, [], clock⟩ events)
    (hlasting : Each (step server) (Lasting server) ⟨leases, [], clock⟩ events) :
    Each (step server) (Proper server) ⟨leases, [], clock⟩ events :=
  each_of_invariant (Covered server) (covered_step server)
    (fun office event h hevent => proper_of_covered server office event h hevent.1) events
    (fun _ hp => by cases hp) (each_and htime hlasting)

def lan : Context where
  scope :=
    { name := "lan", rangeStart := "10.0.0.2", rangeEnd := "10.0.0.3", router := "", dnsServers := [],
      domainName := "", ntpServers := [], leaseSecs := 3600, reservations := [], options := [] }
  net := ⟨0x0A000000#32, 24⟩
  serverIp := 0x0A000001#32
  now := 0
  fromAscii := some

/-- A message of the client whose hardware address ends in `device`. -/
def clientMessage (kind : MessageType) (device : UInt8) (opts : List DhcpOption) : Message where
  opcode := .bootRequest
  htype := 1
  xid := 7
  flags := 0
  ciaddr := 0
  yiaddr := 0
  siaddr := 0
  giaddr := 0
  chaddr := [2, 0, 0, 0, 0, device]
  opts := .messageType kind :: opts

def takesFirstAddress (device : UInt8) : Message :=
  clientMessage .request device [.requestedIpAddress 0x0A000002#32]

/-- An address offered again ten seconds before its lease ends goes to another
client one second after that. -/
theorem addresses_exclusive_fails :
    ¬ ∀ (server : Context) (leases : Leases) (clock : Int) (events : List Event),
      Each (step server) InOrder ⟨leases, [], clock⟩ events →
        Each (step server) (Proper server) ⟨leases, [], clock⟩ events := by
  intro h
  have hproper := h lan (.new []) 0
    [.message 0 (takesFirstAddress 1), .message 3590 (clientMessage .discover 1 []),
      .message 3601 (clientMessage .discover 2 [])] (by decide)
  have hexclusive := each_mono (fun _ _ => And.left) _ _ hproper
  revert hexclusive
  decide

theorem addresses_exclusive_renewed :
    Each (step lan) (Proper lan) ⟨.new [], [], 0⟩
      [.message 0 (takesFirstAddress 1), .message 1800 (clientMessage .discover 1 []),
        .message 3601 (clientMessage .discover 2 [])] :=
  addresses_exclusive lan (.new []) 0 _ (by decide) (by decide)

end DaygleDns.Dhcp.V4
