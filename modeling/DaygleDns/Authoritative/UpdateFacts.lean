import DaygleDns.Authoritative.StoreFacts
import DaygleDns.Authoritative.Update

/-! What the records of an update section ask for, and what an accepted update
message has gone through. -/
namespace DaygleDns.Authoritative

open Text Fallible

/-! What a record of the update section asks for. -/

inductive Change where
  | add (input : RecordInput)
  | delete (del : DeleteSpec)
  | soa (soa : SoaUpdate)

def classChange (zoneName name : Text) (record : UpdateRecord) : Except ResponseCode Change :=
  let rtype := record.data.recordType
  match record.dnsClass with
  | .IN =>
      if rtype = .any ∨ rtype = .zero then .error .formErr
      else if rtype = .soa ∧ name = zoneName then
        match record.data with
        | .soa soa _ => .ok (.soa soa.update)
        | _ => .error .formErr
      else .ok (.add
        { name := name ++ ['.'], rtype := rtype.text, content := rdataToContent record.data,
          ttl := record.ttl, priority := 0, disabled := false })
  | .ANY | .NONE =>
      if rtype = .any then .ok (.delete { name })
      else if record.data.isUpdate0 then .ok (.delete { name, rtype := some rtype.text })
      else .ok (.delete
        { name, rtype := some rtype.text, content := some (rdataToContent record.data) })
  | .other => .error .refused

def changeOf (zoneName : Text) (record : UpdateRecord) : Except ResponseCode Change := do
  let name := lowerName record.name
  require (nameInZone name zoneName) .notZone
  classChange zoneName name record

def Change.addTo (serial : UInt32) (plan : DynamicUpdate) : Change → DynamicUpdate
  | .add input => { plan with adds := plan.adds ++ [input] }
  | .delete del => { plan with deletes := plan.deletes ++ [del] }
  | .soa wanted =>
      if serialNewer wanted.serial serial then { plan with soa := some wanted } else plan

theorem buildUpdate_eq (zone : Zone) (name : Text) (record : UpdateRecord) (plan : DynamicUpdate) :
    buildUpdate zone name record plan =
      (classChange zone.name name record).map fun change => change.addTo zone.serial plan := by
  unfold buildUpdate classChange
  cases record.dnsClass with
  | IN =>
    dsimp only
    split
    · rfl
    · split
      · cases record.data with
        | soa soa text =>
          dsimp only [Except.map, Change.addTo, SoaData.update]
          split <;> rfl
        | update0 rtype text => rfl
        | other rtype text => rfl
      · rfl
  | ANY =>
    dsimp only
    split
    · rfl
    · split <;> rfl
  | NONE =>
    dsimp only
    split
    · rfl
    · split <;> rfl
  | other => rfl

theorem planRecord_eq (zone : Zone) (plan : DynamicUpdate) (record : UpdateRecord) :
    planRecord zone plan record =
      (changeOf zone.name record).map fun change => change.addTo zone.serial plan := by
  unfold planRecord changeOf
  dsimp only
  rw [buildUpdate_eq]
  cases require (nameInZone (lowerName record.name) zone.name) .notZone <;> rfl

def changesOf (zoneName : Text) (updates : List UpdateRecord) : List Change :=
  updates.filterMap fun record => (changeOf zoneName record).toOption

/-- Every record asks for something this server does. -/
def Understood (zoneName : Text) (updates : List UpdateRecord) : Prop :=
  ∀ record ∈ updates, ∃ change, changeOf zoneName record = .ok change

theorem foldlM_planRecord {zone : Zone} {updates : List UpdateRecord} {plan after : DynamicUpdate}
    (h : updates.foldlM (planRecord zone) plan = .ok after) :
    Understood zone.name updates ∧
      after = (changesOf zone.name updates).foldl (Change.addTo zone.serial) plan := by
  induction updates generalizing plan with
  | nil =>
    cases h
    exact ⟨by simp [Understood], rfl⟩
  | cons record updates ih =>
    rw [List.foldlM_cons, bind_eq_ok] at h
    rcases h with ⟨middle, hfirst, hrest⟩
    rw [planRecord_eq] at hfirst
    cases hchange : changeOf zone.name record with
    | error code =>
      rw [hchange] at hfirst
      exact absurd hfirst error_ne_ok
    | ok change =>
      rw [hchange] at hfirst
      cases hfirst
      rcases ih hrest with ⟨hok, hafter⟩
      refine ⟨?_, ?_⟩
      · intro other hother
        rcases List.mem_cons.mp hother with rfl | hother
        · exact ⟨change, hchange⟩
        · exact hok other hother
      · simp only [changesOf, List.filterMap_cons, hchange, Except.toOption, List.foldl_cons]
        exact hafter

/-! What an accepted message went through. -/

/-- A computation that never fails with the code for success. -/
def Declines {α : Type} (x : Except ResponseCode α) : Prop := x ≠ .error .noError

theorem Declines.bind {α β : Type} {x : Except ResponseCode α} {f : α → Except ResponseCode β}
    (hx : Declines x) (hf : ∀ a, Declines (f a)) : Declines (x >>= f) := by
  cases x with
  | ok a => exact hf a
  | error code =>
    intro h
    apply hx
    simpa using h

theorem declines_ok {α : Type} (a : α) : Declines (.ok a : Except ResponseCode α) := by
  simp [Declines]

theorem declines_error {α : Type} {code : ResponseCode} (h : code ≠ .noError) :
    Declines (.error code : Except ResponseCode α) := by
  simpa [Declines] using h

theorem declines_require (holds : Bool) {code : ResponseCode} (h : code ≠ .noError) :
    Declines (require holds code) := by
  cases holds
  · exact declines_error h
  · exact declines_ok ()

theorem declines_mapError {α : Type} (x : Except DaygleError α) :
    Declines (x.mapError fun _ => ResponseCode.servFail) := by
  cases x <;> simp [Declines, Except.mapError]

theorem declines_forM {α : Type} (as : List α) {f : α → Except ResponseCode Unit}
    (h : ∀ a, Declines (f a)) : Declines (as.forM f) := by
  induction as with
  | nil => exact declines_ok ()
  | cons a as ih => exact (h a).bind fun _ => ih

theorem declines_foldlM {α σ : Type} (as : List α) {f : σ → α → Except ResponseCode σ}
    (h : ∀ state a, Declines (f state a)) (state : σ) : Declines (as.foldlM f state) := by
  induction as generalizing state with
  | nil => exact declines_ok state
  | cons a as ih =>
    rw [List.foldlM_cons]
    exact (h state a).bind ih

theorem declines_requestedZone (server : UpdateServer) (msg : UpdateMessage) :
    Declines (requestedZone server msg) := by
  unfold requestedZone
  cases msg.zone with
  | none => exact declines_error (by decide)
  | some query =>
    simp only [throw_eq, pure_eq, error_bind]
    split
    · exact declines_error (by decide)
    split
    · exact declines_error (by decide)
    split
    · exact declines_error (by decide)
    split
    · split
      · exact declines_error (by decide)
      · exact declines_ok _
    · split
      · split
        · exact declines_ok _
        · exact declines_error (by decide)
      · exact declines_error (by decide)
      · exact declines_error (by decide)

theorem declines_primaryZone (faults : Faults) (store : ZoneStore) (zoneName : Text) :
    Declines (primaryZone faults store zoneName) := by
  unfold primaryZone
  apply (declines_mapError _).bind
  intro found
  cases found with
  | none => exact declines_error (by decide)
  | some zone =>
    simp only [throw_eq, pure_eq, error_bind]
    split
    · exact declines_error (by decide)
    · apply (declines_mapError _).bind
      intro secondary
      split
      · exact declines_error (by decide)
      · exact declines_ok _

theorem declines_checkPrerequisite (zone : Zone) (records : List Record) (prereq : UpdateRecord)
    (name : Text) : Declines (checkPrerequisite zone records prereq name) := by
  unfold checkPrerequisite
  cases prereq.dnsClass with
  | other => exact declines_error (by decide)
  | _ =>
    dsimp only
    split <;> exact declines_require _ (by decide)

theorem declines_classChange (zoneName name : Text) (record : UpdateRecord) :
    Declines (classChange zoneName name record) := by
  unfold classChange
  cases record.dnsClass with
  | IN =>
    dsimp only
    split
    · exact declines_error (by decide)
    · split
      · split
        · exact declines_ok _
        · exact declines_error (by decide)
      · exact declines_ok _
  | other => exact declines_error (by decide)
  | _ =>
    dsimp only
    split
    · exact declines_ok _
    · split <;> exact declines_ok _

theorem declines_planRecord (zone : Zone) (plan : DynamicUpdate) (record : UpdateRecord) :
    Declines (planRecord zone plan record) := by
  rw [planRecord_eq]
  have hchange : Declines (changeOf zone.name record) :=
    (declines_require _ (by decide)).bind fun _ => declines_classChange _ _ _
  cases h : changeOf zone.name record with
  | ok change => exact declines_ok _
  | error code =>
    rw [h] at hchange
    intro hbad
    cases hbad
    exact hchange rfl

theorem declines_admitUpdate (server : UpdateServer) (faults : Faults) (store : ZoneStore)
    (msg : UpdateMessage) : Declines (admitUpdate server faults store msg) := by
  unfold admitUpdate
  apply (declines_requestedZone server msg).bind
  intro zoneName
  apply (declines_primaryZone faults store zoneName).bind
  intro zone
  apply (declines_mapError _).bind
  intro records
  apply Declines.bind
  · apply declines_forM
    intro prereq
    exact (declines_require _ (by decide)).bind fun _ => declines_checkPrerequisite _ _ _ _
  intro _
  apply (declines_foldlM _ (declines_planRecord zone) _).bind
  intro plan
  split
  · exact declines_error (by decide)
  · exact declines_ok _

/-- The zone an update message is about. -/
def updatedZone (store : ZoneStore) (msg : UpdateMessage) : Option Zone :=
  msg.zone.bind fun query => store.findZoneByName (lowerName query.name)

theorem requestedZone_eq_ok {server : UpdateServer} {msg : UpdateMessage} {zoneName : Text}
    (h : requestedZone server msg = .ok zoneName) :
    msg.zone.map (fun query => lowerName query.name) = some zoneName := by
  unfold requestedZone at h
  cases hzone : msg.zone with
  | none =>
    rw [hzone] at h
    exact absurd h error_ne_ok
  | some query =>
    rw [hzone] at h
    simp only [throw_eq, pure_eq, error_bind, guard_eq_ok] at h
    rcases h with ⟨_, _, _, h⟩
    have hname : lowerName query.name = zoneName := by
      split at h
      · exact Except.ok.inj (guard_eq_ok.mp h).2
      · split at h
        · split at h
          · exact Except.ok.inj h
          · exact absurd h error_ne_ok
        · exact absurd h error_ne_ok
        · exact absurd h error_ne_ok
    rw [← hname]
    rfl

theorem call_eq_ok {α : Type} {faults : Faults} {call : StoreCall} {result : Except DaygleError α}
    {a : α} (h : faults.call call result = .ok a) : result = .ok a := by
  unfold Faults.call at h
  split at h
  · exact absurd h error_ne_ok
  · exact h

theorem primaryZone_eq_ok {faults : Faults} {store : ZoneStore} {zoneName : Text} {zone : Zone}
    (h : primaryZone faults store zoneName = .ok zone) :
    store.findZoneByName zoneName = some zone := by
  unfold primaryZone at h
  rcases bind_eq_ok.mp h with ⟨found, hfound, h⟩
  have hcall := Except.ok.inj (call_eq_ok (mapError_eq_ok.mp hfound))
  cases found with
  | none => exact absurd h error_ne_ok
  | some found =>
    simp only [throw_eq, pure_eq, error_bind, guard_eq_ok] at h
    rcases bind_eq_ok.mp h.2 with ⟨secondary, _, h⟩
    rw [hcall, Except.ok.inj (guard_eq_ok.mp h).2]

theorem admitUpdate_eq_ok {server : UpdateServer} {faults : Faults} {store : ZoneStore}
    {msg : UpdateMessage} {zone : Zone} {plan : DynamicUpdate}
    (h : admitUpdate server faults store msg = .ok (zone, plan)) :
    updatedZone store msg = some zone ∧ buildPlan zone msg.updates = .ok plan ∧
      wouldRemoveLastApexNs zone (store.listRecords zone.id) plan = false := by
  unfold admitUpdate at h
  rcases bind_eq_ok.mp h with ⟨zoneName, hname, h⟩
  rcases bind_eq_ok.mp h with ⟨found, hfound, h⟩
  rcases bind_eq_ok.mp h with ⟨records, hrecords, h⟩
  rcases bind_eq_ok.mp h with ⟨_, _, h⟩
  rcases bind_eq_ok.mp h with ⟨built, hbuilt, h⟩
  simp only [throw_eq, pure_eq, error_bind, guard_eq_ok] at h
  rcases h with ⟨hguard, h⟩
  cases h
  have hrows := Except.ok.inj (call_eq_ok (mapError_eq_ok.mp hrecords))
  refine ⟨?_, hbuilt, ?_⟩
  · have hquery := requestedZone_eq_ok hname
    unfold updatedZone
    cases hzone : msg.zone with
    | none => simp [hzone] at hquery
    | some query =>
      rw [hzone] at hquery
      have hsame : lowerName query.name = zoneName := Option.some.inj hquery
      rw [Option.bind_some, hsame]
      exact primaryZone_eq_ok hfound
  · rw [hrows]
    simpa using hguard

/-- An accepted message that asks for a change has had its plan applied. -/
theorem handleUpdate_accepted {hickory : Hickory} {server : UpdateServer} {faults : Faults}
    {store after : ZoneStore} {msg : UpdateMessage} {now : Time}
    (h : handleUpdate hickory server faults store msg now = (.noError, after)) :
    ∃ zone plan, admitUpdate server faults store msg = .ok (zone, plan) ∧
      ((plan.isEmpty = true ∧ after = store) ∨
        (plan.isEmpty = false ∧ applyDynamicUpdates hickory store zone.id plan now = .ok after)) := by
  unfold handleUpdate at h
  cases hplanned : admitUpdate server faults store msg with
  | error code =>
    rw [hplanned] at h
    have hcode : code = .noError := congrArg Prod.fst h
    exact absurd (hcode ▸ hplanned) (declines_admitUpdate server faults store msg)
  | ok admitted =>
    rcases admitted with ⟨zone, plan⟩
    rw [hplanned] at h
    refine ⟨zone, plan, rfl, ?_⟩
    cases hempty : plan.isEmpty with
    | true =>
      simp only [hempty, if_true] at h
      exact .inl ⟨rfl, (congrArg Prod.snd h).symm⟩
    | false =>
      simp only [hempty, Bool.false_eq_true, if_false] at h
      right
      cases hcall : faults.call .applyDynamicUpdates
          (applyDynamicUpdates hickory store zone.id plan now) with
      | error e =>
        rw [hcall] at h
        cases e <;> simp at h
      | ok applied =>
        rw [hcall] at h
        cases hreload : faults.call .reload (.ok ()) with
        | error e => simp [hreload] at h
        | ok _ =>
          simp only [hreload, Prod.mk.injEq, true_and] at h
          rw [← h]
          exact ⟨rfl, call_eq_ok hcall⟩

end DaygleDns.Authoritative
