import DaygleDns.Dhcp.V4Exclusive

/-! How many live leases one DHCPv4 client has in a scope. -/
namespace DaygleDns.Dhcp.V4

open Text Leases Runs

/-- A lease or offer that `of_client` may find. -/
structure Live (scope clientId : Text) (now : Int) (l : DhcpLease) : Prop where
  scope : l.scope = scope
  client : l.clientId = clientId
  state : l.state = .offered ∨ l.state = .bound
  time : now < l.expires

instance (scope clientId : Text) (now : Int) (l : DhcpLease) : Decidable (Live scope clientId now l) :=
  decidable_of_iff (l.scope = scope ∧ l.clientId = clientId ∧ (l.state = .offered ∨ l.state = .bound) ∧ now < l.expires)
    ⟨fun h => ⟨h.1, h.2.1, h.2.2.1, h.2.2.2⟩, fun h => ⟨h.scope, h.client, h.state, h.time⟩⟩

/-- From now on each client has one live lease or offer in the scope at most. -/
def OneLease (server : Context) (office : Office) : Prop :=
  ∀ now, office.clock ≤ now → ∀ clientId, ∀ l ∈ office.leases.all, ∀ other ∈ office.leases.all,
    Live server.scope.name clientId now l → Live server.scope.name clientId now other → l = other

/-- An offer of another address than the one the client has follows an offer, not a lease,
and a lease is bound only on the address that the client has, if it has one. -/
def KeepsOne (server : Context) (office : Office) : Event → Prop
  | .message now msg =>
      ∀ l ∈ office.leases.all, Live server.scope.name (clientId msg) now l → msg.opcode = .bootRequest →
        (msg.msgType = some .discover →
          ∀ ip ∈ choose (server.at now) office.leases (clientId msg) (mac msg) (requestedIp msg),
            l.address ≠ .v4 ip → l.state = .offered) ∧
        (msg.msgType = some .request → 0 < server.scope.leaseSecs.toNat →
          ∀ ip ∈ acked (server.at now) msg office.leases, l.address = .v4 ip)
  | _ => True

/-- Every lease of the table is of the scope. -/
def OfScope (server : Context) (office : Office) : Prop :=
  ∀ l ∈ office.leases.all, l.scope = server.scope.name

variable {server ctx : Context} {office : Office} {msg : Message} {leases : Leases} {l other : DhcpLease}
  {scope id : Text} {now later : Int} {ip : Ipv4Addr}

theorem Live.earlier (h : Live scope id later l) (hle : now ≤ later) : Live scope id now l :=
  ⟨h.scope, h.client, h.state, lt_of_le_of_lt hle h.time⟩

/-- The clock alone makes no lease live. -/
theorem oneLease_iff : OneLease server office ↔
    ∀ clientId address other l l', office.leases.get address = some l → office.leases.get other = some l' →
      Live server.scope.name clientId office.clock l → Live server.scope.name clientId office.clock l' →
        address = other := by
  constructor
  · intro h clientId address other l l' hget hget' hlive hlive'
    have hsame := h office.clock le_rfl clientId l (mem_all_iff.mpr ?_) l' (mem_all_iff.mpr ?_) hlive hlive'
    · rw [← address_of_get hget, ← address_of_get hget', hsame]
    · rw [address_of_get hget, hget]
    · rw [address_of_get hget', hget']
  · intro h now hnow clientId l hl other hother hlive hlive'
    have hsame := h clientId _ _ _ _ (mem_all_iff.mp hl) (mem_all_iff.mp hother) (hlive.earlier hnow) (hlive'.earlier hnow)
    have hget := mem_all_iff.mp hl
    rw [hsame, mem_all_iff.mp hother] at hget
    exact (Option.some.inj hget).symm

/-- A live lease after an offer of `ip` is the new one, or it was live before. -/
theorem live_afterOffer {address : IpAddr} (hget : (afterOffer ctx msg leases ip).get address = some l)
    (hne : address ≠ .v4 ip) : leases.get address = some l := by
  unfold afterOffer at hget
  have hdrop : (dropOlderOffer ctx leases (clientId msg) ip).get address = some l := by
    simp only at hget
    split at hget
    · exact hget
    · exact ((get_put _ _ _).trans (if_neg (Ne.symm hne))).symm.trans hget
  rcases get_dropOlderOffer ctx leases (clientId msg) ip address with h | ⟨_, h, _⟩
  · rw [← h, hdrop]
  · rw [h] at hdrop
    cases hdrop

/-- After an offer the client has a live lease or offer on that address. -/
theorem live_of_offered (ctx : Context) (msg : Message) (ip : Ipv4Addr) {leases : Leases}
    (hscope : ∀ l, leases.get (.v4 ip) = some l → l.scope = ctx.scope.name) :
    ∃ l, (afterOffer ctx msg leases ip).get (.v4 ip) = some l ∧ Live ctx.scope.name (clientId msg) ctx.now l := by
  unfold afterOffer
  simp only
  split
  next hholds =>
    unfold holds at hholds
    cases hget : (dropOlderOffer ctx leases (clientId msg) ip).get (.v4 ip) with
    | none => simp [hget] at hholds
    | some l =>
      simp only [hget, Option.any_some, decide_eq_true_eq] at hholds
      refine ⟨l, rfl, hscope l ?_, hholds.2.1, .inr hholds.1, hholds.2.2⟩
      rcases get_dropOlderOffer ctx leases (clientId msg) ip (.v4 ip) with h | ⟨hne, _⟩
      · rw [← h, hget]
      · exact absurd rfl hne
  next =>
    refine ⟨_, (get_put _ _ _).trans (if_pos rfl), rfl, rfl, .inl rfl, ?_⟩
    simp only [lease, OFFER_SECS]
    omega

theorem client_afterOffer (hget : (afterOffer ctx msg leases ip).get (.v4 ip) = some l) : l.clientId = clientId msg := by
  unfold afterOffer at hget
  simp only at hget
  split at hget
  next hholds =>
    unfold holds at hholds
    rw [hget] at hholds
    simp only [Option.any_some, decide_eq_true_eq] at hholds
    exact hholds.2.1
  next =>
    rw [← Option.some.inj (((get_put _ _ _).trans (if_pos rfl)).symm.trans hget)]
    rfl

/-- The offer that the client had on another address is dropped. -/
theorem gone_of_offered {address : IpAddr} (h : OneLease server office) (hclock : office.clock ≤ now)
    (hget : office.leases.get address = some l) (hlive : Live server.scope.name (clientId msg) now l)
    (hoffered : l.state = .offered) (hne : address ≠ .v4 ip) :
    (afterOffer (server.at now) msg office.leases ip).get address = none := by
  have hmem : l ∈ office.leases.all := mem_all_iff.mpr (by rw [address_of_get hget, hget])
  have hfound : office.leases.ofClient server.scope.name (clientId msg) now = some l := by
    cases hold : office.leases.ofClient server.scope.name (clientId msg) now with
    | none =>
      unfold ofClient at hold
      have hnone := List.find?_eq_none.mp hold l hmem
      simp only [decide_eq_true_eq] at hnone
      exact absurd ⟨hlive.scope, hlive.client, hlive.state, hlive.time⟩ hnone
    | some old =>
      obtain ⟨hold', hscope, hclient, hstate, htime⟩ := ofClient_some hold
      rw [h now hclock (clientId msg) old (mem_all_iff.mpr hold') l hmem ⟨hscope, hclient, hstate, htime⟩ hlive]
  have hdrop : dropOlderOffer (server.at now) office.leases (clientId msg) ip = office.leases.remove address := by
    have hfound' : office.leases.ofClient (server.at now).scope.name (clientId msg) (server.at now).now = some l := hfound
    simp only [dropOlderOffer, hfound', address_of_get hget]
    exact if_pos ⟨hne, hoffered⟩
  unfold afterOffer
  simp only [hdrop]
  split
  · rw [get_remove, if_pos rfl]
  · exact ((get_put _ _ _).trans (if_neg (Ne.symm hne))).trans (by rw [get_remove, if_pos rfl])

/-- What is bound and not on the chosen address stays. -/
theorem get_afterOffer_of_bound {address : IpAddr} (hget : leases.get address = some l) (hbound : l.state ≠ .offered)
    (hne : address ≠ .v4 ip) : (afterOffer ctx msg leases ip).get address = some l := by
  have hdrop : (dropOlderOffer ctx leases (clientId msg) ip).get address = some l := by
    rcases get_dropOlderOffer ctx leases (clientId msg) ip address with h | ⟨_, _, old, hold, _, hoffered⟩
    · rw [h, hget]
    · rw [hget] at hold
      cases hold
      exact absurd hoffered hbound
  unfold afterOffer
  simp only
  split
  · exact hdrop
  · exact ((get_put _ _ _).trans (if_neg (Ne.symm hne))).trans hdrop

theorem live_updateOwn {change : Change} {address : IpAddr} (hdead : ∀ l, ¬ Live scope id now (change.apply l))
    (hget : (updateOwn leases ip (clientId msg) change).get address = some l) (hlive : Live scope id now l) :
    leases.get address = some l := by
  unfold updateOwn at hget
  split at hget
  · rw [get_update] at hget
    split at hget
    · obtain ⟨before, _, rfl⟩ := Option.map_eq_some_iff.mp hget
      exact absurd hlive (hdead before)
    · exact hget
  · exact hget

theorem live_dropOffer {address : IpAddr} (hget : (dropOffer ctx leases id).get address = some l) :
    leases.get address = some l := by
  rcases get_dropOffer ctx leases id address with h | ⟨h, _⟩
  · rw [← h, hget]
  · rw [h] at hget
    cases hget

theorem live_expire {address : IpAddr} (hget : (leases.expire now).get address = some l) (hlive : Live scope id now l) :
    leases.get address = some l := by
  rw [get_expire, Option.bind_eq_some_iff] at hget
  obtain ⟨before, hbefore, hafter⟩ := hget
  unfold afterExpiry at hafter
  have hkept : before = l := by
    split at hafter
    next => cases hafter
    next kept hkept =>
      have hsame : kept = l := by
        split at hafter
        · cases hafter
        · exact Option.some.inj hafter
      split at hkept
      · unfold lapsed at hkept
        split at hkept
        · cases hkept
          rw [← hsame] at hlive
          rcases hlive.state with h | h <;> cases h
        · cases hkept
      · exact (Option.some.inj hkept).trans hsame
  rw [hbefore, hkept]

/-- Nothing becomes live. -/
theorem oneLease_of_shrunk {after : Office} (h : OneLease server office) (hclock : office.clock ≤ after.clock)
    (hold : ∀ clientId address l, after.leases.get address = some l →
      Live server.scope.name clientId after.clock l → office.leases.get address = some l) : OneLease server after := by
  apply oneLease_iff.mpr
  intro clientId address other l l' hget hget' hlive hlive'
  exact oneLease_iff.mp h clientId address other l l' (hold _ _ _ hget hlive) (hold _ _ _ hget' hlive')
    (hlive.earlier hclock) (hlive'.earlier hclock)

/-- One address becomes live for a client, who has no other one then. -/
theorem oneLease_of_granted (id : Text) (granted : IpAddr) {after : Office} (h : OneLease server office)
    (hclock : office.clock ≤ after.clock)
    (hold : ∀ clientId address l, address ≠ granted → after.leases.get address = some l →
      Live server.scope.name clientId after.clock l → office.leases.get address = some l)
    (hgranted : ∀ clientId l, after.leases.get granted = some l → Live server.scope.name clientId after.clock l →
      clientId = id)
    (hsole : ∀ address l, address ≠ granted → after.leases.get address = some l →
      ¬ Live server.scope.name id after.clock l) : OneLease server after := by
  apply oneLease_iff.mpr
  intro clientId address other l l' hget hget' hlive hlive'
  by_cases hfirst : address = granted
  · rw [hfirst] at hget
    have hclient := hgranted clientId l hget hlive
    rw [hclient] at hlive'
    by_contra hne
    exact hsole other l' (fun heq => hne (hfirst.trans heq.symm)) hget' hlive'
  · by_cases hsecond : other = granted
    · rw [hsecond] at hget'
      have hclient := hgranted clientId l' hget' hlive'
      rw [hclient] at hlive
      exact absurd hlive (hsole address l hfirst hget)
    · exact oneLease_iff.mp h clientId address other l l' (hold _ _ _ hfirst hget hlive)
        (hold _ _ _ hsecond hget' hlive') (hlive.earlier hclock) (hlive'.earlier hclock)

/-! Every lease stays in the scope. -/

theorem scope_put {new : DhcpLease} {address : IpAddr} (hscope : ∀ address l, leases.get address = some l → l.scope = scope)
    (hnew : new.scope = scope) (hget : (leases.put new).get address = some l) : l.scope = scope := by
  rw [get_put] at hget
  split at hget
  · rw [← Option.some.inj hget, hnew]
  · exact hscope _ _ hget

theorem scope_update {change : Change} {changed address : IpAddr} (hkeeps : ∀ l, (change.apply l).scope = l.scope)
    (hscope : ∀ address l, leases.get address = some l → l.scope = scope)
    (hget : (leases.update changed change).get address = some l) : l.scope = scope := by
  rw [get_update] at hget
  split at hget
  · obtain ⟨before, hbefore, rfl⟩ := Option.map_eq_some_iff.mp hget
    rw [hkeeps, hscope _ _ hbefore]
  · exact hscope _ _ hget

theorem scope_bind {address : IpAddr} (hscope : ∀ address l, leases.get address = some l → l.scope = ctx.scope.name)
    (hget : (bind ctx msg leases ip).get address = some l) : l.scope = ctx.scope.name := by
  unfold bind at hget
  simp only at hget
  split at hget
  · exact scope_update (fun _ => rfl) hscope hget
  · split at hget
    · exact scope_put hscope rfl hget
    · exact scope_put hscope rfl hget

theorem scope_handle (ctx : Context) {address : IpAddr} (hscope : ∀ address l, leases.get address = some l → l.scope = ctx.scope.name)
    (hget : (handle ctx msg leases).2.get address = some l) : l.scope = ctx.scope.name := by
  have hout := handle_outcome ctx msg leases
  revert hout hget
  generalize (handle ctx msg leases).1 = answer
  generalize (handle ctx msg leases).2 = after
  intro hget hout
  cases hout with
  | silent => exact hscope _ _ hget
  | @offered _ ip =>
    by_cases hne : address = .v4 ip
    · obtain ⟨offer, hoffer, hlive⟩ := live_of_offered ctx msg ip fun l hl => hscope _ l hl
      rw [hne, hoffer] at hget
      cases hget
      exact hlive.scope
    · exact hscope _ _ (live_afterOffer hget hne)
  | otherServer => exact hscope _ _ (live_dropOffer hget)
  | acked => exact scope_bind hscope hget
  | declined =>
    unfold updateOwn at hget
    split at hget
    · exact scope_update (fun _ => rfl) hscope hget
    · exact hscope _ _ hget
  | released =>
    unfold updateOwn at hget
    split at hget
    · exact scope_update (fun _ => rfl) hscope hget
    · exact hscope _ _ hget

theorem scope_afterExpiry {before : DhcpLease} (h : afterExpiry now before = some l) : l.scope = before.scope := by
  unfold afterExpiry at h
  split at h
  next => cases h
  next kept hkept =>
    have hsame : kept = l := by
      split at h
      · cases h
      · exact Option.some.inj h
    rw [← hsame]
    split at hkept
    · unfold lapsed at hkept
      split at hkept
      · cases hkept
        rfl
      · cases hkept
    · rw [Option.some.inj hkept]

theorem ofScope_step (server : Context) (office : Office) (event : Event) (h : OfScope server office) :
    OfScope server (step server office event) := by
  have hscope : ∀ address l, office.leases.get address = some l → l.scope = server.scope.name := fun address l hget =>
    h l (mem_all_iff.mpr (by rw [address_of_get hget, hget]))
  intro l hl
  have hget := mem_all_iff.mp hl
  cases event with
  | message now msg => exact scope_handle (server.at now) hscope hget
  | expire now =>
    change (office.leases.expire now).get l.address = some l at hget
    rw [get_expire, Option.bind_eq_some_iff] at hget
    obtain ⟨before, hbefore, hafter⟩ := hget
    rw [scope_afterExpiry hafter, hscope _ _ hbefore]
  | delete address =>
    change (office.leases.remove address).get l.address = some l at hget
    rw [get_remove] at hget
    split at hget
    · cases hget
    · exact hscope _ _ hget

/-! What each kind of message leaves. -/

theorem leases_of_discover (ctx : Context) (leases : Leases) (hop : msg.opcode = .bootRequest) (hkind : msg.msgType = some .discover) :
    (handle ctx msg leases).2 = (choose ctx leases (clientId msg) (mac msg) (requestedIp msg)).elim leases
      (afterOffer ctx msg leases) := by
  simp only [handle, hop, hkind, ne_eq, not_true_eq_false, if_false, discover]
  cases choose ctx leases (clientId msg) (mac msg) (requestedIp msg) <;> rfl

theorem leases_of_acked (hop : msg.opcode = .bootRequest) (hkind : msg.msgType = some .request)
    (hacked : acked ctx msg leases = some ip) : (handle ctx msg leases).2 = bind ctx msg leases ip := by
  unfold acked at hacked
  split at hacked
  · cases hacked
  next hserver =>
    obtain ⟨hwanted, husable⟩ := Option.filter_eq_some_iff.mp hacked
    simp only [handle, hop, hkind, ne_eq, not_true_eq_false, if_false, request, if_neg hserver, hwanted, husable,
      Bool.not_true, Bool.false_eq_true]

/-- Only an offer or a granted request makes a lease live. -/
theorem shrinks_otherwise (hdiscover : msg.opcode = .bootRequest → msg.msgType = some .discover →
      choose ctx leases (clientId msg) (mac msg) (requestedIp msg) = none)
    (hrequest : msg.opcode = .bootRequest → msg.msgType = some .request → acked ctx msg leases = none)
    {address : IpAddr} (hget : (handle ctx msg leases).2.get address = some l) (hlive : Live scope id now l) :
    leases.get address = some l := by
  have hout := handle_outcome ctx msg leases
  revert hout hget
  generalize (handle ctx msg leases).1 = answer
  generalize (handle ctx msg leases).2 = after
  intro hget hout
  cases hout with
  | silent => exact hget
  | offered hop hkind _ hchosen =>
    rw [hdiscover hop hkind] at hchosen
    cases hchosen
  | otherServer => exact live_dropOffer hget
  | acked hop hkind _ hacked =>
    rw [hrequest hop hkind] at hacked
    cases hacked
  | declined =>
    refine live_updateOwn (fun l hdead => ?_) hget hlive
    rcases hdead.state with h | h <;> cases h
  | released =>
    refine live_updateOwn (fun l hdead => ?_) hget hlive
    rcases hdead.state with h | h <;> cases h

/-! The step. -/

section Message

variable (hscope : OfScope server office) (h : OneLease server office) (hclock : office.clock ≤ now)
  (hop : msg.opcode = .bootRequest)

include hscope h hclock hop

theorem oneLease_discover_iff (hkind : msg.msgType = some .discover) :
    OneLease server (step server office (.message now msg)) ↔ KeepsOne server office (.message now msg) := by
  have hafter := leases_of_discover (server.at now) office.leases hop hkind
  cases hchosen : choose (server.at now) office.leases (clientId msg) (mac msg) (requestedIp msg) with
  | none =>
    rw [hchosen] at hafter
    constructor
    · intro _ l _ _ _
      refine ⟨fun _ ip hip => ?_, fun hother => ?_⟩
      · rw [hchosen] at hip
        cases hip
      · rw [hkind] at hother
        cases hother
    · intro _
      refine oneLease_of_shrunk h hclock fun clientId address l hget _ => ?_
      simp only [step, hafter] at hget
      exact hget
  | some ip =>
    rw [hchosen] at hafter
    constructor
    · intro hone l hl hlive _
      refine ⟨fun _ other hother hne => ?_, fun hother => ?_⟩
      · rw [hchosen] at hother
        cases hother
        by_contra hbound
        -- the lease stays beside the offer
        have hoffer := live_of_offered (server.at now) msg ip
          fun other hget => hscope other (mem_all_iff.mpr (by rw [address_of_get hget, hget]))
        obtain ⟨offer, hget, hlive'⟩ := hoffer
        apply hne
        refine oneLease_iff.mp hone (clientId msg) _ _ _ _ ?_ ?_ hlive hlive'
        · simp only [step, hafter]
          exact get_afterOffer_of_bound (mem_all_iff.mp hl) hbound hne
        · simp only [step, hafter]
          exact hget
      · rw [hkind] at hother
        cases hother
    · intro hkeeps
      have hstep : (step server office (.message now msg)).leases = afterOffer (server.at now) msg office.leases ip := by
        simp only [step, hafter]
        rfl
      refine oneLease_of_granted (clientId msg) (.v4 ip) h hclock ?_ ?_ ?_
      · intro client address l hne hget _
        rw [hstep] at hget
        exact live_afterOffer hget hne
      · intro client l hget hlive
        rw [hstep] at hget
        exact hlive.client.symm.trans (client_afterOffer hget)
      · intro address l hne hget hlive
        rw [hstep] at hget
        have hbefore := live_afterOffer hget hne
        have hmem : l ∈ office.leases.all := mem_all_iff.mpr (by rw [address_of_get hbefore, hbefore])
        have haddress : l.address ≠ .v4 ip := by rwa [address_of_get hbefore]
        have hoffered := (hkeeps l hmem hlive hop).1 hkind ip (by rw [hchosen]; rfl) haddress
        rw [gone_of_offered h hclock hbefore hlive hoffered hne] at hget
        cases hget

theorem oneLease_request_iff (hkind : msg.msgType = some .request) :
    OneLease server (step server office (.message now msg)) ↔ KeepsOne server office (.message now msg) := by
  have hnone : ∀ other, msg.msgType = some other → other = .request := fun other hother =>
    Option.some.inj (hother.symm.trans hkind)
  cases hacked : acked (server.at now) msg office.leases with
  | none =>
    constructor
    · intro _ l _ _ _
      refine ⟨fun hother => (nomatch hnone _ hother), fun _ _ ip hip => ?_⟩
      rw [hacked] at hip
      cases hip
    · intro _
      refine oneLease_of_shrunk h hclock fun clientId address l hget hlive => ?_
      exact shrinks_otherwise (fun _ hother => (nomatch hnone _ hother)) (fun _ _ => hacked) hget hlive
  | some ip =>
    have hstep : (step server office (.message now msg)).leases = bind (server.at now) msg office.leases ip :=
      leases_of_acked hop hkind hacked
    obtain ⟨bound, hbound, hclient, hstate, hexpires⟩ := get_bind_self (server.at now) msg office.leases ip
    constructor
    · intro hone l hl hlive _
      refine ⟨fun hother => (nomatch hnone _ hother), fun _ hsecs other hother => ?_⟩
      rw [hacked] at hother
      cases hother
      by_contra hne
      have hmem : bound ∈ (step server office (.message now msg)).leases.all :=
        mem_all_iff.mpr (by rw [address_of_get hbound, hstep, hbound])
      have hscope' := ofScope_step server office (.message now msg) hscope bound hmem
      have htime : now < bound.expires := by
        rw [hexpires]
        change now < now + (server.scope.leaseSecs.toNat : Int)
        omega
      apply hne
      refine oneLease_iff.mp hone (clientId msg) _ _ _ _ ?_ ?_ hlive ⟨hscope', hclient, .inr hstate, htime⟩
      · rw [hstep, get_bind_of_ne _ _ _ hne]
        exact mem_all_iff.mp hl
      · rw [hstep]
        exact hbound
    · intro hkeeps
      have hold : ∀ address l, address ≠ .v4 ip →
          (step server office (.message now msg)).leases.get address = some l → office.leases.get address = some l := by
        intro address l hne hget
        rwa [hstep, get_bind_of_ne _ _ _ hne] at hget
      by_cases hsecs : 0 < server.scope.leaseSecs.toNat
      · refine oneLease_of_granted (clientId msg) (.v4 ip) h hclock
          (fun _ address l hne hget _ => hold address l hne hget) ?_ ?_
        · intro client l hget hlive
          rw [hstep, hbound] at hget
          cases hget
          exact hlive.client.symm.trans hclient
        · intro address l hne hget hlive
          have hbefore := hold address l hne hget
          have hmem : l ∈ office.leases.all := mem_all_iff.mpr (by rw [address_of_get hbefore, hbefore])
          have haddress := (hkeeps l hmem hlive hop).2 hkind hsecs ip (by rw [hacked]; rfl)
          exact hne ((address_of_get hbefore).symm.trans haddress)
      · refine oneLease_of_shrunk h hclock fun client address l hget hlive => ?_
        by_cases hne : address = .v4 ip
        · -- a lease of no length is not live
          rw [hne, hstep, hbound] at hget
          cases hget
          have htime : now < bound.expires := hlive.time
          rw [hexpires] at htime
          change now < now + (server.scope.leaseSecs.toNat : Int) at htime
          omega
        · exact hold address l hne hget

end Message

theorem oneLease_step_iff (server : Context) (office : Office) (event : Event) (hscope : OfScope server office)
    (h : OneLease server office) (hclock : InOrder office event) :
    OneLease server (step server office event) ↔ KeepsOne server office event := by
  cases event with
  | message now msg =>
    by_cases hop : msg.opcode = .bootRequest
    · by_cases hdiscover : msg.msgType = some .discover
      · exact oneLease_discover_iff hscope h hclock hop hdiscover
      · by_cases hrequest : msg.msgType = some .request
        · exact oneLease_request_iff hscope h hclock hop hrequest
        · constructor
          · intro _ l _ _ _
            exact ⟨fun hkind => absurd hkind hdiscover, fun hkind => absurd hkind hrequest⟩
          · intro _
            refine oneLease_of_shrunk h hclock fun client address l hget hlive => ?_
            exact shrinks_otherwise (fun _ hkind => absurd hkind hdiscover) (fun _ hkind => absurd hkind hrequest) hget hlive
    · constructor
      · intro _ l _ _ hboot
        exact absurd hboot hop
      · intro _
        refine oneLease_of_shrunk h hclock fun client address l hget hlive => ?_
        exact shrinks_otherwise (fun hboot => absurd hboot hop) (fun hboot => absurd hboot hop) hget hlive
  | expire now =>
    refine iff_of_true (oneLease_of_shrunk h hclock fun client address l hget hlive => ?_) trivial
    exact live_expire hget hlive
  | delete address =>
    refine iff_of_true (oneLease_of_shrunk h le_rfl fun client other l hget hlive => ?_) trivial
    change (office.leases.remove address).get other = some l at hget
    rw [get_remove] at hget
    split at hget
    · cases hget
    · exact hget

theorem one_lease_per_client (server : Context) (clock : Int) (events : List Event)
    (htime : Each (step server) InOrder ⟨.new [], [], clock⟩ events) :
    Always (step server) (OneLease server) ⟨.new [], [], clock⟩ events ↔
      Each (step server) (KeepsOne server) ⟨.new [], [], clock⟩ events := by
  refine always_iff_each_of_allowed (OfScope server) (OneLease server) InOrder (KeepsOne server)
    (fun office event h _ => ofScope_step server office event h) (oneLease_step_iff server) events ?_ ?_ htime
  · intro l hl
    cases hl
  · intro now _ client l hl
    cases hl

def takesSecondAddress (device : UInt8) : Message :=
  clientMessage .request device [.requestedIpAddress 0x0A000003#32]

/-- A client that asks for one address after the other gets both. -/
theorem one_lease_per_client_fails :
    ¬ ∀ (server : Context) (clock : Int) (events : List Event), Each (step server) InOrder ⟨.new [], [], clock⟩ events →
      Always (step server) (OneLease server) ⟨.new [], [], clock⟩ events := by
  intro h
  obtain ⟨_, _, hlast⟩ := h lan 0 [.message 0 (takesFirstAddress 1), .message 1 (takesSecondAddress 1)] (by decide)
  have htwo : ∃ l ∈ (run (step lan) ⟨.new [], [], 0⟩
        [.message 0 (takesFirstAddress 1), .message 1 (takesSecondAddress 1)]).leases.all,
      ∃ other ∈ (run (step lan) ⟨.new [], [], 0⟩
        [.message 0 (takesFirstAddress 1), .message 1 (takesSecondAddress 1)]).leases.all,
      Live "lan" (clientId (takesFirstAddress 1)) 1 l ∧ Live "lan" (clientId (takesFirstAddress 1)) 1 other ∧
        l ≠ other := by decide
  obtain ⟨l, hl, other, hother, hlive, hlive', hne⟩ := htwo
  exact hne (hlast 1 le_rfl (clientId (takesFirstAddress 1)) l hl other hother hlive hlive')

/-- An offer, its lease and a renewal. -/
theorem one_lease_per_client_renewed :
    Always (step lan) (OneLease lan) ⟨.new [], [], 0⟩
        [.message 0 (clientMessage .discover 1 []), .message 1 (takesFirstAddress 1),
          .message 1800 (takesFirstAddress 1), .expire 9000] ↔
      Each (step lan) (KeepsOne lan) ⟨.new [], [], 0⟩
        [.message 0 (clientMessage .discover 1 []), .message 1 (takesFirstAddress 1),
          .message 1800 (takesFirstAddress 1), .expire 9000] :=
  one_lease_per_client lan 0 _ (by decide)

end DaygleDns.Dhcp.V4
