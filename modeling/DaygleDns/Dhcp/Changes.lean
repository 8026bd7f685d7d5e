import DaygleDns.Dhcp.V4Facts
import DaygleDns.Dhcp.V6Facts

/-! No lease changes unnoticed: every operation of the table, and so every
message, records the addresses whose leases it changes. -/
namespace DaygleDns.Dhcp

open Leases

/-- The changes that were recorded stay so, and new ones are recorded. -/
structure Recorded (before after : Leases) : Prop where
  grows : ∀ a ∈ before.changed.rows, a ∈ after.changed.rows
  noted : ∀ a, after.get a ≠ before.get a → a ∈ after.changed.rows

variable {leases : Leases}

theorem Recorded.refl (leases : Leases) : Recorded leases leases :=
  ⟨fun _ h => h, fun _ h => absurd rfl h⟩

theorem Recorded.trans {first second third : Leases} (h : Recorded first second)
    (h' : Recorded second third) : Recorded first third := by
  refine ⟨fun a ha => h'.grows a (h.grows a ha), fun a ha => ?_⟩
  by_cases hsame : third.get a = second.get a
  · exact h'.grows a (h.noted a (hsame ▸ ha))
  · exact h'.noted a hsame

theorem Recorded.of_changed {before after : Leases} (address : IpAddr)
    (hchanged : after.changed = before.changed.put address)
    (hget : ∀ a, a ≠ address → after.get a = before.get a) : Recorded before after := by
  constructor
  · intro a ha
    rw [hchanged]
    exact OrderedTable.mem_put.mpr (.inr ha)
  · intro a ha
    rw [hchanged]
    by_contra hother
    apply ha
    apply hget
    intro haddress
    exact hother (OrderedTable.mem_put.mpr (.inl haddress))

theorem recorded_put (leases : Leases) (l : DhcpLease) : Recorded leases (leases.put l) :=
  .of_changed l.address rfl fun a ha => (get_put leases l a).trans (if_neg (Ne.symm ha))

theorem recorded_update (leases : Leases) (address : IpAddr) (change : Change) :
    Recorded leases (leases.update address change) := by
  by_cases hsome : (leases.get address).isSome
  · refine .of_changed address ?_ fun a ha => ?_
    · simp only [update, if_pos hsome]
    · rw [get_update, if_neg ha]
  · simp only [update, if_neg hsome]
    exact .refl leases

theorem recorded_remove (leases : Leases) (address : IpAddr) : Recorded leases (leases.remove address) := by
  by_cases hsome : (leases.get address).isSome
  · refine .of_changed address ?_ fun a ha => ?_
    · simp only [remove, if_pos hsome]
    · rw [get_remove, if_neg ha]
  · simp only [remove, if_neg hsome]
    exact .refl leases

theorem recorded_foldl {α : Type} {step : Leases → α → Leases} (hstep : ∀ leases a, Recorded leases (step leases a))
    (items : List α) (leases : Leases) : Recorded leases (items.foldl step leases) := by
  induction items generalizing leases with
  | nil => exact .refl leases
  | cons a items ih => exact (hstep leases a).trans (ih _)

theorem recorded_expireAt (leases : Leases) (address : IpAddr) : Recorded leases (leases.expireAt address) := by
  unfold expireAt
  split
  · exact recorded_update leases address .lapse
  · exact recorded_remove leases address

theorem recorded_expire (leases : Leases) (now : Int) : Recorded leases (leases.expire now) :=
  (recorded_foldl recorded_expireAt _ leases).trans (recorded_foldl recorded_remove _ _)

namespace V4

theorem recorded_dropOlderOffer (ctx : Context) (leases : Leases) (id : Text) (ip : Ipv4Addr) :
    Recorded leases (dropOlderOffer ctx leases id ip) := by
  unfold dropOlderOffer
  split
  · split
    · exact recorded_remove leases _
    · exact .refl leases
  · exact .refl leases

theorem recorded_bind (ctx : Context) (msg : Message) (leases : Leases) (ip : Ipv4Addr) :
    Recorded leases (bind ctx msg leases ip) := by
  unfold bind
  simp only
  split
  · exact recorded_update leases _ _
  · split <;> exact recorded_put leases _

theorem recorded_updateOwn (leases : Leases) (ip : Ipv4Addr) (id : Text) (change : Change) :
    Recorded leases (updateOwn leases ip id change) := by
  unfold updateOwn
  split
  · exact recorded_update leases _ change
  · exact .refl leases

theorem recorded_outcome {ctx : Context} {msg : Message} {answer : Option Message} {after : Leases}
    (hout : Outcome ctx msg leases answer after) : Recorded leases after := by
  cases hout with
  | silent => exact .refl leases
  | @offered offer ip =>
    refine (recorded_dropOlderOffer ctx leases (clientId msg) ip).trans ?_
    unfold afterOffer
    simp only
    split
    · exact .refl _
    · exact recorded_put _ _
  | otherServer =>
    unfold dropOffer
    split
    · split
      · exact recorded_remove leases _
      · exact .refl leases
    · exact .refl leases
  | acked => exact recorded_bind ctx msg leases _
  | declined => exact recorded_updateOwn leases _ _ _
  | released => exact recorded_updateOwn leases _ _ _

theorem recorded_handle (ctx : Context) (msg : Message) (leases : Leases) :
    Recorded leases (handle ctx msg leases).2 :=
  recorded_outcome (handle_outcome ctx msg leases)

end V4

namespace V6

theorem recorded_afterChoice (ctx : Context) (duid name : Text) (binds : Bool) (leases : Leases) (id : Text)
    (ip : Ipv6Addr) : Recorded leases (afterChoice ctx duid name binds leases id ip) := by
  have hrelease : Recorded leases (releaseOlder ctx leases id ip) := by
    unfold releaseOlder
    split
    · split
      · exact recorded_update leases _ _
      · exact .refl leases
    · exact .refl leases
  refine hrelease.trans ?_
  unfold afterChoice
  simp only
  split
  · unfold bind
    simp only
    split
    · split
      · exact recorded_update _ _ _
      · exact recorded_put _ _
    · exact recorded_put _ _
  · unfold advertise
    split
    · exact recorded_put _ _
    · exact .refl _

theorem recorded_assignOne (ctx : Context) (duid name : Text) (binds : Bool) (leases : Leases) (first : Bool)
    (ia : IANA) : Recorded leases (assignOne ctx duid name binds leases first ia).2 := by
  cases hchosen : choose ctx leases duid (leaseClient duid ia.id) first (iaAddresses ia) with
  | none =>
    rw [assignOne_of_none hchosen]
    exact .refl leases
  | some ip =>
    rw [assignOne_of_some hchosen]
    exact recorded_afterChoice ctx duid _ binds leases _ ip

theorem recorded_assignAll (ctx : Context) (duid name : Text) (binds : Bool) (inputs : List (Bool × IANA))
    (leases : Leases) : Recorded leases (assignAll ctx duid name binds leases inputs).2 := by
  induction inputs generalizing leases with
  | nil => exact .refl leases
  | cons input rest ih =>
    obtain ⟨first, ia⟩ := input
    have hfirst : Recorded leases (assignOne ctx duid name binds leases first ia).2 :=
      recorded_assignOne ctx duid name binds leases first ia
    exact hfirst.trans (ih _)

theorem recorded_updateOwn (duid : Text) (change : Change) (leases : Leases) (ia : IANA) :
    Recorded leases (updateOwn duid change leases ia) := by
  refine recorded_foldl (fun leases ip => ?_) _ leases
  split
  · exact recorded_update leases _ change
  · exact .refl leases

theorem recorded_outcome {ctx : Context} {msg : Message} {answer : Option Message} {after : Leases}
    (hout : Outcome ctx msg leases answer after) : Recorded leases after := by
  cases hout with
  | silent => exact .refl leases
  | assigned => exact recorded_assignAll ctx _ _ _ _ leases
  | gaveBack => exact recorded_foldl (recorded_updateOwn _ _) _ leases

theorem recorded_handle (ctx : Context) (msg : Message) (leases : Leases) :
    Recorded leases (handle ctx msg leases).2 :=
  recorded_outcome (handle_outcome ctx msg leases)

end V6

end DaygleDns.Dhcp
