import DaygleDns.Text
import Mathlib.Data.List.Basic
import Mathlib.Tactic.Common

/-! The order of the records of an answer: along the chain of CNAMEs from the query name. Names
of type `N` are compared as Hickory compares them, without their case. -/
namespace DaygleDns.Dispatch

inductive ChainData (N D : Type) where
  | cname (target : N)
  | other (data : D)
deriving DecidableEq, Repr

structure ChainRecord (N D : Type) where
  name : N
  data : ChainData N D
deriving DecidableEq, Repr

variable {N D : Type} [BEq N]

def ChainRecord.target (record : ChainRecord N D) : Option N :=
  match record.data with
  | .cname target => some target
  | .other _ => none

/-- The loop over the owners; `ordered` are the records behind it. -/
def followChain : Nat → N → List (ChainRecord N D) → List (ChainRecord N D) → List (ChainRecord N D)
  | 0, _, rest, ordered => ordered ++ rest
  | steps + 1, owner, rest, ordered =>
      let (here, others) := rest.partition fun record => record.name == owner
      match here.findSome? ChainRecord.target with
      | some target => followChain steps target others (ordered ++ here)
      | none => ordered ++ here ++ others

/-- The records of the query name first, then those of the target of its CNAME, and so on;
anything else keeps its place at the end. -/
def orderCnameChain (qname : N) (records : List (ChainRecord N D)) : List (ChainRecord N D) :=
  followChain (records.length + 1) qname records []

def ownedBy (owner : N) (records : List (ChainRecord N D)) : List (ChainRecord N D) :=
  records.filter fun record => record.name == owner

/-- The target of an owner's first CNAME. -/
def nextOwner (records : List (ChainRecord N D)) (owner : N) : Option N :=
  (ownedBy owner records).findSome? ChainRecord.target

/-- The owners from `owner` on, each the target of the first CNAME of the one before, until there
is none or it has been seen. -/
inductive Chain (records : List (ChainRecord N D)) : List N → N → List N → Prop
  | ends {seen : List N} {owner : N} : nextOwner records owner = none → Chain records seen owner [owner]
  | repeats {seen : List N} {owner target : N} : nextOwner records owner = some target →
      (owner :: seen).any (· == target) = true → Chain records seen owner [owner]
  | leads {seen : List N} {owner target : N} {later : List N} : nextOwner records owner = some target →
      (owner :: seen).any (· == target) = false → Chain records (owner :: seen) target later →
      Chain records seen owner (owner :: later)

/-- Which of the owners a record has; behind all of them, the records of others. -/
def placeIn (owners : List N) (record : ChainRecord N D) : Nat := owners.findIdx (record.name == ·)

/-- The records of owners that have not been seen. -/
def unseen (seen : List N) (records : List (ChainRecord N D)) : List (ChainRecord N D) :=
  records.filter fun record => !seen.any (record.name == ·)

theorem followChain_succ (steps : Nat) (owner : N) (rest ordered : List (ChainRecord N D)) :
    followChain (steps + 1) owner rest ordered =
      match (ownedBy owner rest).findSome? ChainRecord.target with
      | some target => followChain steps target (unseen [owner] rest) (ordered ++ ownedBy owner rest)
      | none => ordered ++ ownedBy owner rest ++ unseen [owner] rest := by
  simp only [followChain, List.partition_eq_filter_filter, ownedBy, unseen, List.any_cons, List.any_nil, Bool.or_false]
  rfl

theorem perm_split (owner : N) (rest : List (ChainRecord N D)) : (ownedBy owner rest ++ unseen [owner] rest).Perm rest := by
  simp only [unseen, List.any_cons, List.any_nil, Bool.or_false]
  exact List.filter_append_perm _ rest

theorem followChain_perm (steps : Nat) (owner : N) (rest ordered : List (ChainRecord N D)) :
    (followChain steps owner rest ordered).Perm (ordered ++ rest) := by
  induction steps generalizing owner rest ordered with
  | zero => rfl
  | succ steps ih =>
    have hsplit : (ordered ++ ownedBy owner rest ++ unseen [owner] rest).Perm (ordered ++ rest) := by
      rw [List.append_assoc]
      exact (perm_split owner rest).append_left ordered
    rw [followChain_succ]
    split
    · exact (ih _ _ _).trans hsplit
    · exact hsplit

section Compared

variable [EquivBEq N]

theorem any_eq_of_beq {first second : N} (h : (first == second) = true) (seen : List N) :
    seen.any (first == ·) = seen.any (second == ·) := by
  apply congrArg (seen.any ·)
  funext name
  exact BEq.congr_left h

theorem any_comm (name : N) (seen : List N) : seen.any (name == ·) = seen.any (· == name) := by
  apply congrArg (seen.any ·)
  funext other
  exact BEq.comm

/-- An owner's records are either all taken or all left. -/
theorem ownedBy_split (owner other : N) (rest : List (ChainRecord N D)) :
    ownedBy other (ownedBy owner rest) ++ ownedBy other (unseen [owner] rest) = ownedBy other rest := by
  simp only [ownedBy, unseen, List.any_cons, List.any_nil, Bool.or_false, List.filter_filter]
  cases hsame : owner == other with
  | true =>
    have hnone : rest.filter (fun record => record.name == other && !(record.name == owner)) = [] := by
      apply List.filter_eq_nil_iff.mpr
      intro record _
      rw [BEq.congr_right hsame]
      cases record.name == other <;> decide
    have hall (record : ChainRecord N D) : (record.name == other && record.name == owner) = (record.name == other) := by
      rw [BEq.congr_right hsame, Bool.and_self]
    simp only [hnone, hall, List.append_nil]
  | false =>
    have hapart (record : ChainRecord N D) (h : (record.name == other) = true) : (record.name == owner) = false := by
      rw [BEq.congr_left h, BEq.comm, hsame]
    have hnone : rest.filter (fun record => record.name == other && record.name == owner) = [] := by
      apply List.filter_eq_nil_iff.mpr
      intro record _ htaken
      rw [Bool.and_eq_true] at htaken
      rw [hapart record htaken.1] at htaken
      exact Bool.false_ne_true htaken.2
    have hall (record : ChainRecord N D) : (record.name == other && !(record.name == owner)) = (record.name == other) := by
      cases hother : record.name == other with
      | false => rfl
      | true => rw [hapart record hother]; rfl
    simp only [hnone, hall, List.nil_append]

omit [EquivBEq N] in
theorem ownedBy_append (owner : N) (first second : List (ChainRecord N D)) :
    ownedBy owner (first ++ second) = ownedBy owner first ++ ownedBy owner second := List.filter_append ..

theorem ownedBy_followChain (other : N) (steps : Nat) (owner : N) (rest ordered : List (ChainRecord N D)) :
    ownedBy other (followChain steps owner rest ordered) = ownedBy other ordered ++ ownedBy other rest := by
  induction steps generalizing owner rest ordered with
  | zero => exact ownedBy_append ..
  | succ steps ih =>
    rw [followChain_succ]
    split
    · rw [ih, ownedBy_append, List.append_assoc, ownedBy_split]
    · rw [ownedBy_append, ownedBy_append, List.append_assoc, ownedBy_split]

/-! The records that are left when the chain has come to an owner. -/

omit [EquivBEq N] in
theorem unseen_cons (owner : N) (seen : List N) (records : List (ChainRecord N D)) :
    unseen [owner] (unseen seen records) = unseen (owner :: seen) records := by
  simp only [unseen, List.filter_filter, List.any_cons, List.any_nil, Bool.or_false, Bool.not_or]

theorem ownedBy_unseen {seen : List N} {owner : N} (h : seen.any (· == owner) = false) (records : List (ChainRecord N D)) :
    ownedBy owner (unseen seen records) = ownedBy owner records := by
  rw [ownedBy, ownedBy, unseen, List.filter_filter]
  apply List.filter_congr
  intro record _
  cases hsame : record.name == owner with
  | false => rfl
  | true => rw [any_eq_of_beq hsame, any_comm, h]; rfl

theorem ownedBy_unseen_nil {seen : List N} {owner : N} (h : seen.any (· == owner) = true) (records : List (ChainRecord N D)) :
    ownedBy owner (unseen seen records) = [] := by
  rw [ownedBy, unseen, List.filter_filter]
  apply List.filter_eq_nil_iff.mpr
  intro record _
  cases hsame : record.name == owner with
  | false => simp
  | true => simp [any_eq_of_beq hsame, any_comm, h]

omit [EquivBEq N] in
/-- An owner with a CNAME has a record that is taken. -/
theorem length_unseen_lt {rest : List (ChainRecord N D)} {owner target : N}
    (h : (ownedBy owner rest).findSome? ChainRecord.target = some target) :
    (unseen [owner] rest).length < rest.length := by
  have hlength := (perm_split owner rest).length_eq
  rw [List.length_append] at hlength
  have htaken : ownedBy owner rest ≠ [] := by
    intro hnil
    rw [hnil] at h
    cases h
  have hpos := List.length_pos_iff.mpr htaken
  omega

/-- What the loop makes of the records once it has come to an owner. -/
theorem followChain_eq {records : List (ChainRecord N D)} {seen owners : List N} {owner : N}
    (hchain : Chain records seen owner owners) (hnew : seen.any (· == owner) = false) {steps : Nat}
    (hsteps : (unseen seen records).length < steps) (ordered : List (ChainRecord N D)) :
    followChain steps owner (unseen seen records) ordered =
      ordered ++ owners.flatMap (ownedBy · records) ++ unseen (owners.reverse ++ seen) records := by
  induction hchain generalizing steps ordered with
  | @ends seen owner hnext =>
    obtain ⟨steps, rfl⟩ := Nat.exists_eq_succ_of_ne_zero (Nat.ne_zero_of_lt hsteps)
    rw [followChain_succ, ownedBy_unseen hnew, unseen_cons]
    rw [nextOwner] at hnext
    simp [hnext]
  | @repeats seen owner target hnext hseen =>
    obtain ⟨steps, rfl⟩ := Nat.exists_eq_succ_of_ne_zero (Nat.ne_zero_of_lt hsteps)
    have hstop : followChain steps target (unseen (owner :: seen) records) (ordered ++ ownedBy owner records) =
        ordered ++ ownedBy owner records ++ unseen (owner :: seen) records := by
      cases steps with
      | zero => rfl
      | succ steps =>
        have hnone := ownedBy_unseen_nil hseen records
        have hall : unseen [target] (unseen (owner :: seen) records) = unseen (owner :: seen) records := by
          have hperm := perm_split target (unseen (owner :: seen) records)
          rw [hnone, List.nil_append] at hperm
          exact List.filter_sublist.eq_of_length hperm.length_eq
        rw [followChain_succ, hnone, hall]
        simp
    rw [followChain_succ, ownedBy_unseen hnew, unseen_cons]
    rw [nextOwner] at hnext
    simp [hnext, hstop]
  | @leads seen owner target later hnext hother hlater ih =>
    obtain ⟨steps, rfl⟩ := Nat.exists_eq_succ_of_ne_zero (Nat.ne_zero_of_lt hsteps)
    rw [nextOwner] at hnext
    have hless : (unseen (owner :: seen) records).length < (unseen seen records).length := by
      rw [← unseen_cons]
      exact length_unseen_lt (by rw [ownedBy_unseen hnew]; exact hnext)
    rw [followChain_succ, ownedBy_unseen hnew, unseen_cons]
    simp only [hnext]
    rw [ih hother (by omega)]
    simp only [List.flatMap_cons, List.reverse_cons, List.append_assoc, List.singleton_append]

/-- The chain can be followed to its end. -/
theorem exists_chain (records : List (ChainRecord N D)) (seen : List N) (owner : N) (hnew : seen.any (· == owner) = false) :
    ∃ owners, Chain records seen owner owners := by
  cases hnext : nextOwner records owner with
  | none => exact ⟨_, .ends hnext⟩
  | some target =>
    cases hseen : (owner :: seen).any (· == target) with
    | true => exact ⟨_, .repeats hnext hseen⟩
    | false =>
      have hless : (unseen (owner :: seen) records).length < (unseen seen records).length := by
        rw [← unseen_cons]
        exact length_unseen_lt (by rw [ownedBy_unseen hnew]; exact hnext)
      obtain ⟨later, hlater⟩ := exists_chain records (owner :: seen) target hseen
      exact ⟨_, .leads hnext hseen hlater⟩
termination_by (unseen seen records).length

/-! The places of the records. -/

omit [EquivBEq N] in
theorem apart_of_chain {records : List (ChainRecord N D)} {seen owners : List N} {owner : N}
    (hchain : Chain records seen owner owners) (hnew : seen.any (· == owner) = false) :
    owners.Pairwise (fun first second => (first == second) = false) ∧
      ∀ later ∈ owners, seen.any (· == later) = false := by
  induction hchain with
  | ends => exact ⟨List.pairwise_singleton _ _, by simpa using hnew⟩
  | repeats => exact ⟨List.pairwise_singleton _ _, by simpa using hnew⟩
  | leads _ hother _ ih =>
    obtain ⟨hpairs, hunseen⟩ := ih hother
    simp only [List.any_cons, Bool.or_eq_false_iff] at hunseen
    exact ⟨List.pairwise_cons.mpr ⟨fun later hlater => (hunseen later hlater).1, hpairs⟩,
      List.forall_mem_cons.mpr ⟨hnew, fun later hlater => (hunseen later hlater).2⟩⟩

/-- One group of records behind the other, and the others behind them, are in the order of their owners. -/
theorem pairwise_placeIn (records others : List (ChainRecord N D)) {owners : List N}
    (hapart : owners.Pairwise fun first second => (first == second) = false)
    (hothers : ∀ record ∈ others, owners.any (record.name == ·) = false) :
    (owners.flatMap (ownedBy · records) ++ others).Pairwise fun first second => placeIn owners first ≤ placeIn owners second := by
  induction owners with
  | nil => exact List.pairwise_of_forall fun _ _ => Nat.le_refl _
  | cons owner owners ih =>
    obtain ⟨howner, hapart⟩ := List.pairwise_cons.mp hapart
    have hothers' : ∀ record ∈ others, (record.name == owner) = false ∧ owners.any (record.name == ·) = false := by
      intro record hrecord
      have hnone := hothers record hrecord
      rwa [List.any_cons, Bool.or_eq_false_iff] at hnone
    have hlater : ∀ record ∈ owners.flatMap (ownedBy · records) ++ others, (record.name == owner) = false := by
      intro record hrecord
      rcases List.mem_append.mp hrecord with hgroup | hother
      · obtain ⟨later, hmem, hgroup⟩ := List.mem_flatMap.mp hgroup
        have hsame := (List.mem_filter.mp hgroup).2
        rw [BEq.congr_left hsame, BEq.comm]
        exact howner later hmem
      · exact (hothers' record hother).1
    rw [List.flatMap_cons, List.append_assoc, List.pairwise_append]
    refine ⟨?_, ?_, ?_⟩
    · apply List.pairwise_of_forall_mem_list
      intro first hfirst second _
      rw [placeIn, List.findIdx_cons, (List.mem_filter.mp hfirst).2]
      exact Nat.zero_le _
    · apply List.Pairwise.imp_of_mem _ (ih hapart fun record hrecord => (hothers' record hrecord).2)
      intro first second hfirst hsecond hle
      rw [placeIn, placeIn, List.findIdx_cons, List.findIdx_cons, hlater first hfirst, hlater second hsecond]
      exact Nat.succ_le_succ hle
    · intro first hfirst second _
      rw [placeIn, List.findIdx_cons, (List.mem_filter.mp hfirst).2]
      exact Nat.zero_le _

/-- Every record of the answer is returned once, those of one owner in the order in which they
came, and the owners in the order in which the chain of CNAMEs leads to them. -/
theorem answers_in_chain_order (qname : N) (records : List (ChainRecord N D)) :
    (orderCnameChain qname records).Perm records ∧
    (∀ owner, ownedBy owner (orderCnameChain qname records) = ownedBy owner records) ∧
    (∃ owners, Chain records [] qname owners) ∧
    ∀ owners, Chain records [] qname owners →
      (orderCnameChain qname records).Pairwise fun first second => placeIn owners first ≤ placeIn owners second := by
  refine ⟨followChain_perm _ qname records [], fun owner => ?_, exists_chain records [] qname rfl, ?_⟩
  · exact ownedBy_followChain owner _ qname records []
  · intro owners hchain
    have hall : unseen [] records = records := by simp [unseen]
    have hsteps : (unseen [] records).length < records.length + 1 := by
      rw [hall]
      exact Nat.lt_succ_self _
    have hordered := followChain_eq hchain rfl hsteps []
    rw [hall] at hordered
    rw [orderCnameChain, hordered, List.nil_append, List.append_nil]
    apply pairwise_placeIn records _ (apart_of_chain hchain rfl).1
    intro record hrecord
    have hnone := (List.mem_filter.mp hrecord).2
    simpa using hnone

end Compared

def scatteredName : Text := "www.example."

/-- The address comes before the CNAMEs that lead to it, and the last CNAME leads back. -/
def scatteredChain : List (ChainRecord Text Nat) :=
  [⟨"cdn.example.", .other 1⟩, ⟨"alias.example.", .cname "cdn.example."⟩, ⟨"www.example.", .cname "alias.example."⟩,
    ⟨"cdn.example.", .cname "www.example."⟩]

theorem answers_in_chain_order_scattered :
    (orderCnameChain scatteredName scatteredChain).Perm scatteredChain ∧
      orderCnameChain scatteredName scatteredChain =
        [⟨"www.example.", .cname "alias.example."⟩, ⟨"alias.example.", .cname "cdn.example."⟩, ⟨"cdn.example.", .other 1⟩,
          ⟨"cdn.example.", .cname "www.example."⟩] :=
  ⟨(answers_in_chain_order scatteredName scatteredChain).1, by decide⟩

end DaygleDns.Dispatch
