import DaygleDns.Dhcp.LeaseFacts
import DaygleDns.Dhcp.V4

/-! Which addresses DHCPv4 hands out, and what each kind of message does to the table. -/
namespace DaygleDns.Dhcp.V4

open Text Leases

variable {ctx : Context} {msg : Message} {leases : Leases} {ip : Ipv4Addr} {id hw : Text}

theorem foldl_insert_yiaddr (opts : List DhcpOption) (msg : Message) :
    (opts.foldl Message.insert msg).yiaddr = msg.yiaddr := by
  induction opts generalizing msg with
  | nil => rfl
  | cons o opts ih =>
    rw [List.foldl_cons, ih]
    rfl

@[simp] theorem yiaddr_addOptions (ctx : Context) (msg : Message) (leaseSecs : Option UInt32) :
    (addOptions ctx msg leaseSecs).yiaddr = msg.yiaddr :=
  foldl_insert_yiaddr _ msg

@[simp] theorem yiaddr_reply (ctx : Context) (request : Message) (kind : MessageType) (yiaddr : Ipv4Addr) :
    (reply ctx request kind yiaddr).yiaddr = yiaddr := rfl

/-- What is handed out to nobody else, and to nobody at all. -/
structure Permitted (ctx : Context) (ip : Ipv4Addr) (hw : Text) : Prop where
  inNet : ctx.net.contains ip
  network : ip ≠ ctx.net.network
  broadcast : ip ≠ ctx.net.broadcast
  server : ip ≠ ctx.serverIp
  router : parseIpv4 (trim ctx.scope.router) ≠ some ip
  range : inRange ctx.scope ip ∨ (reservation ctx.scope hw).map Prod.fst = some ip
  reserved : ∀ r ∈ ctx.scope.reservations, parseIpv4 (trim r.address) = some ip →
    normalizeMac r.client = some hw

theorem usable_iff : usable ctx leases ip id hw ↔
    Permitted ctx ip hw ∧ leases.freeFor (.v4 ip) id ctx.now := by
  have hhere : reservedHere ctx.scope ip hw ↔ (reservation ctx.scope hw).map Prod.fst = some ip := by
    unfold reservedHere
    cases reservation ctx.scope hw <;> simp
  have hother : reservedForOther ctx.scope ip hw = false ↔ ∀ r ∈ ctx.scope.reservations,
      parseIpv4 (trim r.address) = some ip → normalizeMac r.client = some hw := by
    simp [reservedForOther]
  simp only [usable, Bool.and_eq_true, Bool.or_eq_true, bne_iff_ne, ne_eq, Bool.not_eq_true',
    hother, hhere]
  constructor
  · rintro ⟨⟨⟨⟨⟨⟨⟨hnet, hnetwork⟩, hbroadcast⟩, hserver⟩, hfree⟩, hrange⟩, hrouter⟩, hreserved⟩
    exact ⟨⟨hnet, hnetwork, hbroadcast, hserver, hrouter, hrange, hreserved⟩, hfree⟩
  · rintro ⟨h, hfree⟩
    exact ⟨⟨⟨⟨⟨⟨⟨h.inNet, h.network⟩, h.broadcast⟩, h.server⟩, hfree⟩, h.range⟩, h.router⟩, h.reserved⟩

/-- The unspecified address is in a network only as its first address. -/
theorem Permitted.ne_zero (h : Permitted ctx ip hw) : ip ≠ 0 := by
  intro hzero
  have hnet := h.inNet
  simp only [IpNet.contains, hzero, Bool.and_eq_true, decide_eq_true_eq] at hnet
  apply h.network
  apply BitVec.eq_of_toNat_eq
  have := hnet.1
  simp only [hzero, BitVec.ofNat_eq_ofNat, BitVec.toNat_ofNat, Nat.zero_mod] at this ⊢
  omega

theorem usable_of_choose {requested : Option Ipv4Addr} (h : choose ctx leases id hw requested = some ip) :
    usable ctx leases ip id hw := by
  unfold choose at h
  simp only [Option.or_eq_some_iff, Option.filter_eq_some_iff, Option.bind_eq_some_iff] at h
  rcases h with ⟨_, h⟩ | ⟨_, ⟨_, h⟩ | ⟨_, ⟨_, h⟩ | ⟨_, range, _, h⟩⟩⟩
  · exact h
  · exact h
  · exact h
  · have hfound := List.find?_some h
    exact hfound

/-- An older offer may go, but nothing on the address that is chosen. -/
theorem get_dropOlderOffer (ctx : Context) (leases : Leases) (id : Text) (ip : Ipv4Addr) (address : IpAddr) :
    (dropOlderOffer ctx leases id ip).get address = leases.get address ∨
      address ≠ .v4 ip ∧ (dropOlderOffer ctx leases id ip).get address = none ∧
        ∃ l, leases.get address = some l ∧ l.clientId = id ∧ l.state = .offered := by
  unfold dropOlderOffer
  cases hold : leases.ofClient ctx.scope.name id ctx.now with
  | none => exact .inl rfl
  | some old =>
    obtain ⟨hget, _, hclient, _⟩ := ofClient_some hold
    by_cases hdrop : old.address ≠ .v4 ip ∧ old.state = .offered
    · simp only [if_pos hdrop, get_remove]
      by_cases haddress : address = old.address
      · subst haddress
        exact .inr ⟨hdrop.1, by simp, old, hget, hclient, hdrop.2⟩
      · exact .inl (if_neg haddress)
    · exact .inl (by simp only [if_neg hdrop])

theorem get_dropOffer (ctx : Context) (leases : Leases) (id : Text) (address : IpAddr) :
    (dropOffer ctx leases id).get address = leases.get address ∨
      (dropOffer ctx leases id).get address = none ∧
        ∃ l, leases.get address = some l ∧ l.clientId = id ∧ l.state = .offered := by
  unfold dropOffer
  cases hold : leases.ofClient ctx.scope.name id ctx.now with
  | none => exact .inl rfl
  | some old =>
    obtain ⟨hget, _, hclient, _⟩ := ofClient_some hold
    by_cases hdrop : old.state = .offered
    · simp only [if_pos hdrop, get_remove]
      by_cases haddress : address = old.address
      · subst haddress
        exact .inr ⟨by simp, old, hget, hclient, hdrop⟩
      · exact .inl (if_neg haddress)
    · exact .inl (by simp only [if_neg hdrop])

theorem get_bind_of_ne (ctx : Context) (msg : Message) (leases : Leases) {address : IpAddr}
    (h : address ≠ .v4 ip) : (bind ctx msg leases ip).get address = leases.get address := by
  unfold bind
  simp only
  split
  · rw [get_update, if_neg h]
  · split <;> exact (get_put _ _ _).trans (if_neg (Ne.symm h))

/-- The lease that an `Ack` grants. -/
theorem get_bind_self (ctx : Context) (msg : Message) (leases : Leases) (ip : Ipv4Addr) :
    ∃ l, (bind ctx msg leases ip).get (.v4 ip) = some l ∧ l.clientId = clientId msg ∧
      l.state = .bound ∧ l.expires = ctx.now + ctx.scope.leaseSecs.toNat := by
  unfold bind
  simp only
  split
  next hrenewal =>
    cases hget : leases.get (.v4 ip) with
    | none => simp [hget] at hrenewal
    | some l =>
      simp only [hget, Option.any_some, decide_eq_true_eq] at hrenewal
      refine ⟨(Change.renew (ctx.now + ctx.scope.leaseSecs.toNat)).apply l, ?_, hrenewal.1, hrenewal.2.1, rfl⟩
      rw [get_update, if_pos rfl, hget]
      rfl
  next =>
    split
    · exact ⟨_, (get_put _ _ _).trans (if_pos rfl), rfl, rfl, rfl⟩
    · exact ⟨_, (get_put _ _ _).trans (if_pos rfl), rfl, rfl, rfl⟩

/-- The address that a `Request` is granted. -/
def acked (ctx : Context) (msg : Message) (leases : Leases) : Option Ipv4Addr :=
  if (serverId msg).any fun sid => sid != ctx.serverIp then none
  else (wantedIp msg).filter fun ip => usable ctx leases ip (clientId msg) (mac msg)

theorem get_updateOwn (leases : Leases) (ip : Ipv4Addr) (id : Text) (change : Change) (address : IpAddr) :
    (updateOwn leases ip id change).get address = leases.get address ∨
      address = .v4 ip ∧ ∃ l, leases.get address = some l ∧ l.clientId = id := by
  unfold updateOwn
  split
  next hown =>
    rw [get_update]
    by_cases haddress : address = .v4 ip
    · subst haddress
      cases hget : leases.get (.v4 ip) with
      | none => simp [hget] at hown
      | some l => exact .inr ⟨rfl, l, rfl, by simpa [hget] using hown⟩
    · exact .inl (if_neg haddress)
  next => exact .inl rfl

/-- The leases after an offer of `ip`. -/
def afterOffer (ctx : Context) (msg : Message) (leases : Leases) (ip : Ipv4Addr) : Leases :=
  let leases := dropOlderOffer ctx leases (clientId msg) ip
  if holds ctx leases ip (clientId msg) then leases
  else leases.put (lease (.v4 ip) ctx.scope.name (clientId msg) (mac msg) (hostname msg) .offered
    (ctx.now + OFFER_SECS))

/-- What a message can do, by its kind. -/
inductive Outcome (ctx : Context) (msg : Message) (leases : Leases) : Option Message → Leases → Prop where
  | silent {answer : Option Message} (hanswer : ∀ m, answer = some m → m.yiaddr = 0) :
      Outcome ctx msg leases answer leases
  | offered {offer : Message} {ip : Ipv4Addr} (hop : msg.opcode = .bootRequest)
      (hkind : msg.msgType = some .discover) (hoffer : offer.yiaddr = ip)
      (hchosen : choose ctx leases (clientId msg) (mac msg) (requestedIp msg) = some ip) :
      Outcome ctx msg leases (some offer) (afterOffer ctx msg leases ip)
  | otherServer (hop : msg.opcode = .bootRequest) (hkind : msg.msgType = some .request)
      (hserver : (serverId msg).any fun sid => sid != ctx.serverIp) :
      Outcome ctx msg leases none (dropOffer ctx leases (clientId msg))
  | acked {ack : Message} {ip : Ipv4Addr} (hop : msg.opcode = .bootRequest)
      (hkind : msg.msgType = some .request) (hack : ack.yiaddr = ip) (hacked : acked ctx msg leases = some ip) :
      Outcome ctx msg leases (some ack) (bind ctx msg leases ip)
  | declined {ip : Ipv4Addr} (hop : msg.opcode = .bootRequest) (hkind : msg.msgType = some .decline)
      (hip : requestedIp msg = some ip) :
      Outcome ctx msg leases none (updateOwn leases ip (clientId msg) (.decline ctx.now))
  | released (hop : msg.opcode = .bootRequest) (hkind : msg.msgType = some .release) :
      Outcome ctx msg leases none (updateOwn leases msg.ciaddr (clientId msg) (.release ctx.now))

theorem discover_outcome (hop : msg.opcode = .bootRequest) (hkind : msg.msgType = some .discover) :
    Outcome ctx msg leases (discover ctx msg leases).1 (discover ctx msg leases).2 := by
  unfold discover
  cases hchosen : choose ctx leases (clientId msg) (mac msg) (requestedIp msg) with
  | none =>
    simp only [hchosen]
    exact .silent (by simp)
  | some ip =>
    simp only [hchosen]
    exact .offered hop hkind (by simp) hchosen

theorem request_outcome (hop : msg.opcode = .bootRequest) (hkind : msg.msgType = some .request) :
    Outcome ctx msg leases (request ctx msg leases).1 (request ctx msg leases).2 := by
  unfold request
  by_cases hserver : (serverId msg).any fun sid => sid != ctx.serverIp
  · simp only [hserver, if_true]
    exact .otherServer hop hkind hserver
  · simp only [if_neg hserver]
    cases hwanted : wantedIp msg with
    | none => exact .silent (by simp)
    | some ip =>
      by_cases husable : usable ctx leases ip (clientId msg) (mac msg)
      · have hacked : acked ctx msg leases = some ip := by
          unfold acked
          rw [if_neg hserver, hwanted]
          simp [husable]
        simp only [husable, Bool.not_true, Bool.false_eq_true, if_false]
        exact .acked hop hkind (by simp) hacked
      · simp only [husable, Bool.not_false, if_true]
        exact .silent (by simp)

theorem handle_outcome (ctx : Context) (msg : Message) (leases : Leases) :
    Outcome ctx msg leases (handle ctx msg leases).1 (handle ctx msg leases).2 := by
  unfold handle
  by_cases hop : msg.opcode = .bootRequest
  · simp only [hop, ne_eq, not_true_eq_false, if_false]
    cases hkind : msg.msgType with
    | none => exact .silent (by simp)
    | some kind =>
      cases kind with
      | discover => exact discover_outcome hop hkind
      | request => exact request_outcome hop hkind
      | decline =>
        simp only [decline]
        cases hip : requestedIp msg with
        | none => exact .silent (by simp)
        | some ip => exact .declined hop hkind hip
      | release => exact .released hop hkind
      | inform => exact .silent (by simp)
      | offer => exact .silent (by simp)
      | ack => exact .silent (by simp)
      | nak => exact .silent (by simp)
      | other code => exact .silent (by simp)
  · simp only [hop, ne_eq, not_false_eq_true, if_true]
    exact .silent (by simp)

end DaygleDns.Dhcp.V4
