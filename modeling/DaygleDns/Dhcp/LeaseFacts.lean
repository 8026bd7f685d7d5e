import DaygleDns.Dhcp.Leases
import DaygleDns.Promises

/-! What each operation of the lease table does to the lease on one address. -/
namespace DaygleDns.Dhcp

namespace Leases

theorem address_of_get {leases : Leases} {address : IpAddr} {l : DhcpLease}
    (h : leases.get address = some l) : l.address = address :=
  OrderedTable.key_of_get h

theorem mem_all_iff {leases : Leases} {l : DhcpLease} : l ∈ leases.all ↔ leases.get l.address = some l :=
  OrderedTable.mem_rows_iff

theorem mem_map_address_iff {leases : Leases} {address : IpAddr} (p : DhcpLease → Bool) :
    address ∈ (leases.all.filter p).map DhcpLease.address ↔ (leases.get address).any p := by
  rw [Option.any_eq_true_iff_get]
  simp only [List.mem_map, List.mem_filter, mem_all_iff]
  constructor
  · rintro ⟨l, ⟨hget, hp⟩, rfl⟩
    simp [hget, hp]
  · rintro ⟨hsome, hp⟩
    obtain ⟨l, hget⟩ := Option.isSome_iff_exists.mp hsome
    have haddress := address_of_get hget
    refine ⟨l, ⟨by rw [haddress, hget], ?_⟩, haddress⟩
    simpa [hget] using hp

theorem nodup_map_address (leases : Leases) (p : DhcpLease → Bool) :
    ((leases.all.filter p).map DhcpLease.address).Nodup :=
  leases.byAddress.nodup_keys.sublist (List.filter_sublist.map _)

theorem get_put (leases : Leases) (l : DhcpLease) (address : IpAddr) :
    (leases.put l).get address = if l.address = address then some l else leases.get address :=
  OrderedTable.get_put leases.byAddress l address

theorem get_restore (leases : Leases) (l : DhcpLease) (address : IpAddr) :
    (leases.restore l).get address = if l.address = address then some l else leases.get address :=
  OrderedTable.get_put leases.byAddress l address

theorem get_update (leases : Leases) (changed address : IpAddr) (change : Change) :
    (leases.update changed change).get address =
      if address = changed then (leases.get address).map change.apply else leases.get address := by
  unfold update
  split
  next => exact OrderedTable.get_modify leases.byAddress changed address change.apply change.address
  next hnone =>
    split
    next h =>
      subst h
      simp only [Bool.not_eq_true, Option.isSome_eq_false_iff, Option.isNone_iff_eq_none] at hnone
      simp [hnone]
    next => rfl

theorem get_remove (leases : Leases) (gone address : IpAddr) :
    (leases.remove gone).get address = if address = gone then none else leases.get address := by
  unfold remove
  split
  next => exact OrderedTable.get_erase leases.byAddress gone address
  next hnone =>
    split
    next h =>
      subst h
      simpa using hnone
    next => rfl

@[simp] theorem get_touchAll (leases : Leases) : leases.touchAll.get = leases.get := rfl

@[simp] theorem get_forgetChange (leases : Leases) (address : IpAddr) :
    (leases.forgetChange address).get = leases.get := rfl

/-- What the first pass of `expire` makes of a lease whose time has ended. -/
def lapsed (l : DhcpLease) : Option DhcpLease :=
  if l.state = .bound then some (Change.lapse.apply l) else none

/-- What a sweep at `now` leaves of a lease. -/
def afterExpiry (now : Int) (l : DhcpLease) : Option DhcpLease :=
  match if l.expires ≤ now ∧ l.state ≠ .released then lapsed l else some l with
  | none => none
  | some l => if l.state = .released ∧ l.expires + 86400 ≤ now then none else some l

theorem get_expireAt (leases : Leases) (expired address : IpAddr) :
    (leases.expireAt expired).get address =
      if address = expired then (leases.get address).bind lapsed else leases.get address := by
  unfold expireAt
  by_cases haddress : address = expired
  · subst haddress
    cases hget : leases.get address with
    | none => simp [get_remove]
    | some l => by_cases hbound : l.state = .bound <;> simp [hbound, get_update, get_remove, hget, lapsed]
  · split <;> simp [get_update, get_remove, haddress]

theorem get_foldl_expireAt {expired : List IpAddr} (hnodup : expired.Nodup) (leases : Leases)
    (address : IpAddr) :
    (expired.foldl expireAt leases).get address =
      if address ∈ expired then (leases.get address).bind lapsed else leases.get address := by
  induction expired generalizing leases with
  | nil => simp
  | cons first rest ih =>
    obtain ⟨hfirst, hrest⟩ := List.nodup_cons.mp hnodup
    rw [List.foldl_cons, ih hrest, get_expireAt]
    by_cases h : address = first
    · simp [h, hfirst]
    · simp [h]

theorem get_foldl_remove (gone : List IpAddr) (leases : Leases) (address : IpAddr) :
    (gone.foldl remove leases).get address = if address ∈ gone then none else leases.get address := by
  induction gone generalizing leases with
  | nil => simp
  | cons first rest ih =>
    rw [List.foldl_cons, ih, get_remove]
    by_cases h : address = first <;> simp [h]

theorem get_expire (leases : Leases) (now : Int) (address : IpAddr) :
    (leases.expire now).get address = (leases.get address).bind (afterExpiry now) := by
  unfold expire
  simp only [get_foldl_remove, mem_map_address_iff, get_foldl_expireAt (nodup_map_address leases _)]
  cases hget : leases.get address with
  | none => simp
  | some l =>
    simp only [Option.any_some, Option.bind_some, afterExpiry, decide_eq_true_eq]
    split
    next => cases hlapsed : lapsed l <;> simp
    next => simp

/-- A lease whose time has not ended is not touched. -/
theorem get_expire_of_live {leases : Leases} {address : IpAddr} {l : DhcpLease} {now : Int}
    (hget : leases.get address = some l) (hlive : now < l.expires) :
    (leases.expire now).get address = some l := by
  simp only [get_expire, hget, Option.bind_some, afterExpiry]
  rw [if_neg (by omega)]
  simp only
  rw [if_neg (by omega)]

theorem freeFor_iff {leases : Leases} {address : IpAddr} {clientId : Text} {now : Int} :
    leases.freeFor address clientId now ↔
      ∀ l, leases.get address = some l →
        (l.clientId = clientId ∧ l.state ≠ .declined) ∨ l.expires ≤ now ∨ l.state = .released := by
  unfold freeFor
  cases leases.get address with
  | none => simp
  | some l => by_cases h : l.clientId = clientId ∧ l.state ≠ .declined <;> simp [h]

theorem ofClient_some {leases : Leases} {scope clientId : Text} {now : Int} {l : DhcpLease}
    (h : leases.ofClient scope clientId now = some l) :
    leases.get l.address = some l ∧ l.scope = scope ∧ l.clientId = clientId ∧
      (l.state = .offered ∨ l.state = .bound) ∧ now < l.expires := by
  have hmem := List.mem_of_find?_eq_some h
  have hlease := List.find?_some h
  exact ⟨mem_all_iff.mp hmem, of_decide_eq_true hlease⟩

end Leases

/-! The lease table as a book of holds: what offers and bound leases promise. -/

abbrev LeasePromise := Promise IpAddr Text

def DhcpLease.hold (l : DhcpLease) : Hold Text := ⟨l.clientId, l.expires, l.state = .bound⟩

/-- Declined and released leases hold nothing for a client. -/
def Leases.book (leases : Leases) (address : IpAddr) : Option (Hold Text) :=
  ((leases.get address).filter fun l => l.state = .offered ∨ l.state = .bound).map DhcpLease.hold

namespace Leases

theorem book_eq_some {leases : Leases} {address : IpAddr} {hold : Hold Text} :
    leases.book address = some hold ↔
      ∃ l, leases.get address = some l ∧ (l.state = .offered ∨ l.state = .bound) ∧ l.hold = hold := by
  simp [book, Option.map_eq_some_iff, Option.filter_eq_some_iff, and_assoc]

theorem book_congr {first second : Leases} {address : IpAddr} (h : first.get address = second.get address) :
    first.book address = second.book address := by
  simp only [book, h]

/-- An address that the table has free for a client is nobody else's in the book. -/
theorem free_of_freeFor {leases : Leases} {address : IpAddr} {clientId : Text} {now : Int}
    (h : leases.freeFor address clientId now) : Promise.Free leases.book now address clientId := by
  intro hold hbook hlive
  obtain ⟨l, hget, hstate, rfl⟩ := book_eq_some.mp hbook
  rcases freeFor_iff.mp h l hget with ⟨hclient, _⟩ | hended | hreleased
  · exact hclient
  · simp only [DhcpLease.hold] at hlive
    omega
  · simp [hreleased] at hstate

end Leases

open Leases Promise

variable {leases after : Leases} {now : Int} {p : LeasePromise}

theorem backed_congr (h : Backed leases.book now p)
    (hget : after.get p.resource = leases.get p.resource) : Backed after.book now p :=
  h.of_eq fun _ => book_congr hget

/-- The lease behind a promise whose time has not ended. -/
theorem lease_of_backed (h : Backed leases.book now p) (hlive : now < p.ends) :
    ∃ l, leases.get p.resource = some l ∧ l.clientId = p.holder ∧ p.ends ≤ l.expires ∧
      (l.state = .offered ∨ l.state = .bound) ∧ (p.firm → l.state = .bound) := by
  obtain ⟨hold, hbook, hholder, hends, hfirm⟩ := h hlive
  obtain ⟨l, hget, hstate, rfl⟩ := book_eq_some.mp hbook
  exact ⟨l, hget, hholder, hends, hstate, fun hp => by simpa [DhcpLease.hold] using hfirm hp⟩

theorem backed_expire (h : Backed leases.book now p) : Backed (leases.expire now).book now p := by
  apply h.of_eq
  intro hlive
  obtain ⟨l, hget, _, hends, _⟩ := lease_of_backed h hlive
  apply book_congr
  rw [get_expire_of_live hget (by omega), hget]

/-- Where a lease goes, the promise was another client's or a firm one. -/
theorem backed_of_own (clientId : Text) (h : Backed leases.book now p)
    (hget : after.get p.resource = leases.get p.resource ∨
      ∃ l, leases.get p.resource = some l ∧ l.clientId = clientId ∧
        (p.holder = clientId → p.firm ∧ l.state ≠ .bound)) : Backed after.book now p := by
  apply h.of_eq
  intro hlive
  apply book_congr
  rcases hget with hsame | ⟨l, hl, hclient, hfirm⟩
  · exact hsame
  · obtain ⟨old, hold, hholder, _, _, hbound⟩ := lease_of_backed h hlive
    have hsame : old = l := Option.some.inj (hold.symm.trans hl)
    subst hsame
    obtain ⟨hp, hnot⟩ := hfirm (hholder.symm.trans hclient)
    exact absurd (hbound hp) hnot

/-- A lease of the client's own takes the place of what the address was lent for. -/
theorem backed_of_lease {l : DhcpLease} (h : Backed leases.book now p)
    (hfree : leases.freeFor p.resource l.clientId now) (hget : after.get p.resource = some l)
    (hstate : l.state = .offered ∨ l.state = .bound) (hends : now < p.ends → p.ends ≤ l.expires)
    (hfirm : now < p.ends → p.firm → l.state = .bound) : Backed after.book now p := by
  refine Backed.of_hold l.hold (fun _ => book_eq_some.mpr ⟨l, hget, hstate, rfl⟩) ?_ hends ?_
  · intro hlive
    exact (h.holder_eq hlive (free_of_freeFor hfree)).symm
  · intro hlive hp
    simpa [DhcpLease.hold] using hfirm hlive hp

end DaygleDns.Dhcp
