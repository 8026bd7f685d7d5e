import DaygleDns.Dhcp.LeaseFacts
import DaygleDns.Dhcp.V6
import DaygleDns.Numerals

/-! Which addresses DHCPv6 hands out, and what one association does to the table. -/
namespace DaygleDns.Dhcp

open Text

theorem hexDigit_injective {a b : Nat} (ha : a < 16) (hb : b < 16) (h : hexDigit a = hexDigit b) : a = b := by
  have hall : ∀ a b : Fin 16, hexDigit a = hexDigit b → a = b := by decide
  exact congrArg Fin.val (hall ⟨a, ha⟩ ⟨b, hb⟩ h)

theorem hex_injective {first second : List UInt8} (h : hex first = hex second) : first = second := by
  induction first generalizing second with
  | nil =>
    cases second with
    | nil => rfl
    | cons => simp [hex] at h
  | cons b rest ih =>
    cases second with
    | nil => simp [hex] at h
    | cons c others =>
      have hb := b.toNat_lt
      have hc := c.toNat_lt
      simp only [hex, List.flatMap_cons, List.cons_append, List.nil_append, List.cons.injEq] at h
      have hhigh := hexDigit_injective (by omega) (by omega) h.1
      have hlow := hexDigit_injective (by omega) (by omega) h.2.1
      have hbc : b = c := UInt8.toNat_inj.mp (by omega)
      rw [hbc, ih h.2.2]

namespace V6

open Leases

theorem hexIaid_injective {a b : UInt32} (h : hexIaid a = hexIaid b) : a = b := by
  have hread (iaid : UInt32) : Nat.ofDigits 16 (lowDigits 16 8 iaid.toNat) = iaid.toNat := by
    rw [ofDigits_lowDigits]
    exact Nat.mod_eq_of_lt iaid.toNat_lt
  have hdigits : lowDigits 16 8 a.toNat = lowDigits 16 8 b.toNat := by
    apply List.map_congr_left
    intro i hi
    have hplace : i ∈ [7, 6, 5, 4, 3, 2, 1, 0] := by
      rw [List.mem_range] at hi
      simp only [List.mem_cons, List.not_mem_nil, or_false]
      omega
    have hdigit := List.map_inj_left.mp h i hplace
    exact hexDigit_injective (Nat.mod_lt _ (by decide)) (Nat.mod_lt _ (by decide)) hdigit
  apply UInt32.toNat_inj.mp
  rw [← hread a, ← hread b, hdigits]

/-- Different associations have different lease keys. -/
theorem leaseClient_injective {duid other : List UInt8} {iaid otherIaid : UInt32}
    (h : leaseClient (hex duid) iaid = leaseClient (hex other) otherIaid) :
    duid = other ∧ iaid = otherIaid := by
  obtain ⟨hduid, hrest⟩ := List.append_inj' h (by simp [hexIaid])
  exact ⟨hex_injective hduid, hexIaid_injective (List.cons.inj hrest).2⟩

variable {ctx : Context} {leases : Leases} {ip : Ipv6Addr} {duid id name : Text} {first binds : Bool}

/-- What is handed out to nobody else, and to nobody at all. -/
structure Permitted (ctx : Context) (ip : Ipv6Addr) (duid : Text) : Prop where
  inNet : ctx.net.contains ip
  server : ctx.dnsDefault ≠ some ip
  range : inRange ctx.scope ip ∨ reservedHere ctx.scope ip duid
  reserved : reservedForOther ctx.scope ip duid = false

theorem usable_iff : usable ctx leases ip duid id ↔
    Permitted ctx ip duid ∧ leases.freeFor (.v6 ip) id ctx.now := by
  simp only [usable, Bool.and_eq_true, Bool.or_eq_true, bne_iff_ne, ne_eq, Bool.not_eq_true']
  constructor
  · rintro ⟨⟨⟨⟨hnet, hserver⟩, hfree⟩, hrange⟩, hreserved⟩
    exact ⟨⟨hnet, fun h => hserver h.symm, hrange, hreserved⟩, hfree⟩
  · rintro ⟨h, hfree⟩
    exact ⟨⟨⟨⟨h.inNet, fun hs => h.server hs.symm⟩, hfree⟩, h.range⟩, h.reserved⟩

theorem usable_of_choose {asked : List Ipv6Addr} (h : choose ctx leases duid id first asked = some ip) :
    usable ctx leases ip duid id := by
  unfold choose at h
  simp only [Option.or_eq_some_iff, Option.filter_eq_some_iff] at h
  rcases h with ⟨_, h⟩ | ⟨_, ⟨_, h⟩ | ⟨_, h | ⟨_, h⟩⟩⟩
  · exact h
  · exact h
  · have hfound := List.find?_some h
    exact hfound
  · have hfound := List.find?_some h
    exact hfound

/-- Every association but the first keeps the address of its lease. -/
theorem choose_of_leased (asked : List Ipv6Addr) {l : DhcpLease}
    (hlease : leases.ofClient ctx.scope.name id ctx.now = some l) (haddress : l.address = .v6 ip)
    (husable : usable ctx leases ip duid id) : choose ctx leases duid id false asked = some ip := by
  simp [choose, leased, hlease, haddress, husable]

/-- The release of an older lease leaves the chosen address alone. -/
theorem get_releaseOlder (ctx : Context) (leases : Leases) (id : Text) (ip : Ipv6Addr) (address : IpAddr) :
    (releaseOlder ctx leases id ip).get address = leases.get address ∨
      address ≠ .v6 ip ∧ ∃ l, leases.ofClient ctx.scope.name id ctx.now = some l ∧ l.address = address := by
  unfold releaseOlder
  cases hold : leases.ofClient ctx.scope.name id ctx.now with
  | none => exact .inl rfl
  | some old =>
    simp only [Option.map_some]
    split
    next hne =>
      rw [get_update]
      by_cases haddress : address = old.address
      · exact .inr ⟨haddress ▸ hne, old, rfl, haddress.symm⟩
      · exact .inl (if_neg haddress)
    next => exact .inl rfl

theorem get_releaseOlder_self (ctx : Context) (leases : Leases) (id : Text) (ip : Ipv6Addr) :
    (releaseOlder ctx leases id ip).get (.v6 ip) = leases.get (.v6 ip) := by
  rcases get_releaseOlder ctx leases id ip (.v6 ip) with h | ⟨h, _⟩
  · exact h
  · exact absurd rfl h

theorem get_bind_of_ne (ctx : Context) (leases : Leases) (duid id name : Text) {address : IpAddr}
    (h : address ≠ .v6 ip) : (bind ctx leases duid id name ip).get address = leases.get address := by
  unfold bind
  simp only
  split
  · split
    · rw [get_update, if_neg h]
    · exact (get_put _ _ _).trans (if_neg (Ne.symm h))
  · exact (get_put _ _ _).trans (if_neg (Ne.symm h))

theorem get_bind_self (ctx : Context) (leases : Leases) (duid id name : Text) (ip : Ipv6Addr) :
    ∃ l, (bind ctx leases duid id name ip).get (.v6 ip) = some l ∧ l.clientId = id ∧ l.state = .bound ∧
      l.expires = ctx.now + ctx.scope.validSecs.toNat := by
  unfold bind
  simp only
  split
  next l hcurrent =>
    obtain ⟨hget, hclient⟩ := Option.filter_eq_some_iff.mp hcurrent
    split
    next hrenewal =>
      refine ⟨(Change.renew (ctx.now + ctx.scope.validSecs.toNat)).apply l, ?_, of_decide_eq_true hclient,
        hrenewal.1, rfl⟩
      rw [get_update, if_pos rfl, hget]
      rfl
    next => exact ⟨_, (get_put _ _ _).trans (if_pos rfl), rfl, rfl, rfl⟩
  next => exact ⟨_, (get_put _ _ _).trans (if_pos rfl), rfl, rfl, rfl⟩

theorem get_advertise_of_ne (ctx : Context) (leases : Leases) (duid id name : Text) {address : IpAddr}
    (h : address ≠ .v6 ip) : (advertise ctx leases duid id name ip).get address = leases.get address := by
  unfold advertise
  split
  · exact (get_put _ _ _).trans (if_neg (Ne.symm h))
  · rfl

/-- An advertised address is the association's, for as long as it was or for the time of an offer. -/
theorem get_advertise_self (ctx : Context) (leases : Leases) (duid id name : Text) (ip : Ipv6Addr) :
    ∃ l, (advertise ctx leases duid id name ip).get (.v6 ip) = some l ∧ l.clientId = id ∧
      (l.state = .offered ∨ l.state = .bound) ∧ ctx.now < l.expires ∧
        (leases.get (.v6 ip) = some l ∨
          ∀ old, leases.get (.v6 ip) = some old → old.clientId = id → old.state ≠ .bound ∨ old.expires ≤ ctx.now) := by
  unfold advertise
  split
  next hfresh =>
    refine ⟨_, (get_put _ _ _).trans (if_pos rfl), rfl, .inl rfl, ?_, .inr ?_⟩
    · simp only [lease, OFFER_SECS]
      omega
    intro old hget hclient
    simpa [current, hget, hclient, Option.filter] using hfresh
  next hheld =>
    cases hcurrent : current leases ip id with
    | none => simp [hcurrent] at hheld
    | some l =>
      obtain ⟨hget, hclient⟩ := Option.filter_eq_some_iff.mp hcurrent
      simp only [hcurrent, Option.all_some, decide_eq_true_eq, not_or, not_not] at hheld
      exact ⟨l, hget, of_decide_eq_true hclient, .inr hheld.1, by omega, .inl hget⟩

/-- The leases after an association was given `ip`. -/
def afterChoice (ctx : Context) (duid name : Text) (binds : Bool) (leases : Leases) (id : Text)
    (ip : Ipv6Addr) : Leases :=
  let leases := releaseOlder ctx leases id ip
  if binds then bind ctx leases duid id name ip else advertise ctx leases duid id name ip

theorem assignOne_of_none {ia : IANA}
    (h : choose ctx leases duid (leaseClient duid ia.id) first (iaAddresses ia) = none) :
    assignOne ctx duid name binds leases first ia = (iaWith ctx ia.id none (iaAddresses ia), leases) := by
  simp only [assignOne, h]

theorem assignOne_of_some {ia : IANA}
    (h : choose ctx leases duid (leaseClient duid ia.id) first (iaAddresses ia) = some ip) :
    assignOne ctx duid name binds leases first ia =
      (iaWith ctx ia.id (some ip) (iaAddresses ia),
        afterChoice ctx duid (if first then name else []) binds leases (leaseClient duid ia.id) ip) := by
  simp only [assignOne, h, afterChoice]

theorem get_afterChoice_of_ne (ctx : Context) (duid name : Text) (binds : Bool) (leases : Leases) (id : Text)
    {address : IpAddr} (h : address ≠ .v6 ip) :
    (afterChoice ctx duid name binds leases id ip).get address = (releaseOlder ctx leases id ip).get address := by
  unfold afterChoice
  simp only
  split
  · exact get_bind_of_ne ctx _ duid id name h
  · exact get_advertise_of_ne ctx _ duid id name h

/-- The lease on the address that was chosen. -/
structure Chosen (ctx : Context) (binds : Bool) (leases : Leases) (id : Text) (ip : Ipv6Addr)
    (l : DhcpLease) : Prop where
  client : l.clientId = id
  state : l.state = .offered ∨ l.state = .bound
  bound : binds → l.state = .bound ∧ l.expires = ctx.now + ctx.scope.validSecs.toNat
  live : binds = false → ctx.now < l.expires
  kept : binds = false → ∀ old, leases.get (.v6 ip) = some old → old.clientId = id → old.state = .bound →
    ctx.now < old.expires → l = old

theorem get_afterChoice_self (ctx : Context) (duid name : Text) (binds : Bool) (leases : Leases) (id : Text)
    (ip : Ipv6Addr) : ∃ l, (afterChoice ctx duid name binds leases id ip).get (.v6 ip) = some l ∧
      Chosen ctx binds leases id ip l := by
  unfold afterChoice
  have hself := get_releaseOlder_self ctx leases id ip
  cases binds with
  | true =>
    obtain ⟨l, hget, hclient, hstate, hexpires⟩ := get_bind_self ctx (releaseOlder ctx leases id ip) duid id name ip
    exact ⟨l, hget, ⟨hclient, .inr hstate, fun _ => ⟨hstate, hexpires⟩, by simp, by simp⟩⟩
  | false =>
    obtain ⟨l, hget, hclient, hstate, hlive, hold⟩ :=
      get_advertise_self ctx (releaseOlder ctx leases id ip) duid id name ip
    refine ⟨l, hget, ⟨hclient, hstate, by simp, fun _ => hlive, fun _ old hgetOld howner hbound hends => ?_⟩⟩
    rw [hself] at hold
    rcases hold with hsame | hnot
    · exact Option.some.inj (hsame.symm.trans hgetOld)
    · rcases hnot old hgetOld howner with hne | hended
      · exact absurd hbound hne
      · omega

theorem iaNas_foldl_insert (answers : List IANA) (msg : Message) :
    iaNas ((answers.map DhcpOption.iana).foldl Message.insert msg) = iaNas msg ++ answers := by
  induction answers generalizing msg with
  | nil => simp
  | cons ia rest ih =>
    rw [List.map_cons, List.foldl_cons, ih]
    simp [iaNas, Message.insert]

theorem msgType_foldl_insert (opts : List DhcpOption) (msg : Message) :
    (opts.foldl Message.insert msg).msgType = msg.msgType := by
  induction opts generalizing msg with
  | nil => rfl
  | cons o opts ih => exact ih (msg.insert o)

@[simp] theorem iaNas_reply (ctx : Context) (request : Message) (kind : MessageType) :
    iaNas (reply ctx request kind) = [] := by
  unfold iaNas reply
  simp only [List.filterMap_append, List.append_eq_nil_iff]
  refine ⟨⟨⟨?_, rfl⟩, ?_⟩, ?_⟩
  · cases request.clientIdOption <;> rfl
  · split
    · split <;> rfl
    · rfl
  · split <;> rfl

/-- Whether a message that is answered with addresses binds them. -/
def binding (msg : Message) : Bool := msg.msgType ≠ .solicit || msg.opts.contains .rapidCommit

/-- The kind of an answer with addresses. -/
def answerKind (binds : Bool) : MessageType := if binds then .reply else .advertise

/-- What a message can do, by its kind. -/
inductive Outcome (ctx : Context) (msg : Message) (leases : Leases) : Option Message → Leases → Prop where
  | silent {answer : Option Message} (hanswer : ∀ m, answer = some m → iaNas m = [])
      (hkind : msg.msgType ≠ .release ∧ msg.msgType ≠ .decline ∨ answer = none) :
      Outcome ctx msg leases answer leases
  | assigned {id : List UInt8} {answer : Message} (hid : msg.clientIdOption = some id)
      (hduid : clientDuid msg = some (hex id)) (hstate : ctx.scope.stateless = false)
      (hserver : binding msg = false → msg.msgType = .solicit ∧ ours ctx msg = none)
      (hkind : msg.msgType ≠ .release ∧ msg.msgType ≠ .decline)
      (htype : answer.msgType = answerKind (binding msg))
      (hanswers : iaNas answer = (assignAll ctx (hex id) (leaseName ctx msg (hex id)) (binding msg) leases
        (marked (iaNas msg))).1) :
      Outcome ctx msg leases (some answer) (assignAll ctx (hex id) (leaseName ctx msg (hex id)) (binding msg) leases
        (marked (iaNas msg))).2
  | gaveBack {id : List UInt8} {answer : Message} {change : Change} (hid : msg.clientIdOption = some id)
      (hkind : msg.msgType = .release ∨ msg.msgType = .decline)
      (hchange : change = .decline ctx.now ∨ change = .release ctx.now) (hanswer : iaNas answer = []) :
      Outcome ctx msg leases (some answer) ((iaNas msg).foldl (updateOwn (hex id) change) leases)

theorem clientDuid_some {msg : Message} {duid : Text} (h : clientDuid msg = some duid) :
    ∃ id, msg.clientIdOption = some id ∧ duid = hex id := by
  unfold clientDuid at h
  split at h
  next id hid =>
    split at h
    · exact ⟨id, hid, (Option.some.inj h).symm⟩
    · cases h
  next => cases h

theorem assign_facts (ctx : Context) (msg : Message) (leases : Leases) (duid : Text) (binds : Bool)
    {answer : Message} (hanswer : iaNas answer = []) :
    iaNas (assign ctx msg leases duid binds answer).1 =
        (assignAll ctx duid (leaseName ctx msg duid) binds leases (marked (iaNas msg))).1 ∧
      (assign ctx msg leases duid binds answer).1.msgType = answer.msgType ∧
      (assign ctx msg leases duid binds answer).2 =
        (assignAll ctx duid (leaseName ctx msg duid) binds leases (marked (iaNas msg))).2 := by
  refine ⟨?_, msgType_foldl_insert _ _, rfl⟩
  exact (iaNas_foldl_insert _ _).trans (by rw [hanswer, List.nil_append])

theorem solicit_outcome {msg : Message} (hkind : msg.msgType = .solicit) :
    Outcome ctx msg leases (solicit ctx msg leases).1 (solicit ctx msg leases).2 := by
  have hnot : msg.msgType ≠ .release ∧ msg.msgType ≠ .decline := by simp [hkind]
  unfold solicit
  cases hduid : clientDuid msg with
  | none => exact .silent (by simp) (.inl hnot)
  | some duid =>
    obtain ⟨id, hid, rfl⟩ := clientDuid_some hduid
    simp only
    split
    next => exact .silent (by simp) (.inl hnot)
    next hserved =>
      simp only [Bool.or_eq_true, not_or, Bool.not_eq_true, Option.isSome_eq_false_iff,
        Option.isNone_iff_eq_none] at hserved
      have hbinds : binding msg = msg.opts.contains .rapidCommit := by simp [binding, hkind]
      rw [← hbinds]
      have hempty : iaNas (if binding msg then (reply ctx msg (if binding msg then .reply else .advertise)).insert
          .rapidCommit else reply ctx msg (if binding msg then .reply else .advertise)) = [] := by
        split
        · have hreply := iaNas_reply ctx msg .reply
          simpa [iaNas, Message.insert] using hreply
        · simp
      obtain ⟨hanswers, htype, hleases⟩ := assign_facts ctx msg leases (hex id) (binding msg) hempty
      rw [hleases]
      refine .assigned hid hduid hserved.1.1 (fun _ => ⟨hkind, hserved.1.2⟩) hnot ?_ hanswers
      rw [htype]
      unfold answerKind
      split <;> rfl

theorem request_outcome {msg : Message} (hkind : msg.msgType = .request ∨ msg.msgType = .renew ∨ msg.msgType = .rebind) :
    Outcome ctx msg leases (request ctx msg leases).1 (request ctx msg leases).2 := by
  have hnot : msg.msgType ≠ .release ∧ msg.msgType ≠ .decline := by
    rcases hkind with h | h | h <;> simp [h]
  have hbinds : binding msg = true := by
    rcases hkind with h | h | h <;> simp [binding, h]
  unfold request
  cases hduid : clientDuid msg with
  | none => exact .silent (by simp) (.inl hnot)
  | some duid =>
    obtain ⟨id, hid, rfl⟩ := clientDuid_some hduid
    simp only
    split
    next => exact .silent (by simp) (.inl hnot)
    next =>
      split
      next => exact .silent (by simp) (.inl hnot)
      next hstate =>
        rw [← hbinds]
        obtain ⟨hanswers, htype, hleases⟩ :=
          assign_facts ctx msg leases (hex id) (binding msg) (iaNas_reply ctx msg .reply)
        rw [hleases]
        refine .assigned hid hduid (by simpa using hstate) (fun hnone => ?_) hnot ?_ hanswers
        · simp [hbinds] at hnone
        · rw [htype, hbinds]
          rfl

theorem release_outcome {msg : Message} (hkind : msg.msgType = .release ∨ msg.msgType = .decline) :
    Outcome ctx msg leases (release ctx msg leases).1 (release ctx msg leases).2 := by
  unfold release
  cases hduid : clientDuid msg with
  | none => exact .silent (by simp) (.inr rfl)
  | some duid =>
    obtain ⟨id, hid, rfl⟩ := clientDuid_some hduid
    simp only
    split
    next => exact .silent (by simp) (.inr rfl)
    next =>
      have hreply := iaNas_reply ctx msg .reply
      refine .gaveBack hid hkind ?_ (by simpa [iaNas, Message.insert] using hreply)
      split
      · exact .inl rfl
      · exact .inr rfl

theorem confirm_silent {msg answer : Message} (h : confirm ctx msg = some answer) : iaNas answer = [] := by
  unfold confirm at h
  simp only at h
  split at h
  · cases h
  · cases h
    have hreply := iaNas_reply ctx msg .reply
    split <;> simpa [iaNas, Message.insert] using hreply

theorem handle_outcome (ctx : Context) (msg : Message) (leases : Leases) :
    Outcome ctx msg leases (handle ctx msg leases).1 (handle ctx msg leases).2 := by
  unfold handle
  cases hkind : msg.msgType with
  | solicit => exact solicit_outcome hkind
  | request => exact request_outcome (.inl hkind)
  | renew => exact request_outcome (.inr (.inl hkind))
  | rebind => exact request_outcome (.inr (.inr hkind))
  | release => exact release_outcome (.inl hkind)
  | decline => exact release_outcome (.inr hkind)
  | confirm => exact .silent (fun m hm => confirm_silent hm) (.inl (by simp [hkind]))
  | informationRequest =>
    refine .silent (fun m hm => ?_) (.inl (by simp [hkind]))
    simp only at hm
    split at hm
    · cases hm
    · cases hm
      exact iaNas_reply ctx msg .reply
  | advertise => exact .silent (by simp) (.inl (by simp [hkind]))
  | reply => exact .silent (by simp) (.inl (by simp [hkind]))
  | other code => exact .silent (by simp) (.inl (by simp [hkind]))

/-- Of the leases that a message gives back only those change that are its associations' own. -/
theorem get_updateOwn (duid : Text) (change : Change) (ia : IANA) (leases : Leases) (address : IpAddr) :
    (updateOwn duid change leases ia).get address = leases.get address ∨
      ((iaAddresses ia).any fun ip => address = .v6 ip) ∧
        ∃ l, leases.get address = some l ∧ l.clientId = leaseClient duid ia.id := by
  unfold updateOwn
  induction iaAddresses ia generalizing leases with
  | nil => exact .inl rfl
  | cons ip rest ih =>
    rw [List.foldl_cons]
    have hrest := ih (if (leases.get (.v6 ip)).any fun l => l.clientId = leaseClient duid ia.id then
      leases.update (.v6 ip) change else leases)
    by_cases haddress : address = .v6 ip
    · subst haddress
      by_cases hown : (leases.get (.v6 ip)).any fun l => l.clientId = leaseClient duid ia.id
      · cases hget : leases.get (.v6 ip) with
        | none => simp [hget] at hown
        | some l => exact .inr ⟨by simp, l, rfl, by simpa [hget] using hown⟩
      · rw [if_neg hown] at hrest ⊢
        exact hrest.imp_right fun ⟨hany, hl⟩ => ⟨by simp, hl⟩
    · have hsame : (if (leases.get (.v6 ip)).any fun l => l.clientId = leaseClient duid ia.id then
          leases.update (.v6 ip) change else leases).get address = leases.get address := by
        split
        · rw [get_update, if_neg haddress]
        · rfl
      rw [hsame] at hrest
      exact hrest.imp_right fun ⟨hany, hl⟩ => ⟨by simp only [List.any_cons, hany, Bool.or_true], hl⟩

end V6

end DaygleDns.Dhcp
