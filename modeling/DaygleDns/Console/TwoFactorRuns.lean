import DaygleDns.Console.TwoFactor
import DaygleDns.Runs

/-! Two-factor login under every order of the steps: which runs let nobody in on a code that is
not in force, and turn it on with no secret but a confirmed one. -/
namespace DaygleDns.Console

open Text Authoritative Runs

/-- The code is one of the secret that was in force. -/
def Accepted.own (entry : Accepted) : Bool :=
  match entry.code with
  | .timed secret _ => entry.inForce == some secret
  | .recovery _ => entry.inForce.isSome

namespace TwoFactorStore

/-- The codes that were let in while their secret was in force, the latest first. -/
def ownCodes (store : TwoFactorStore) : List Code := (store.accepted.filter Accepted.own).map Accepted.code

def secret (store : TwoFactorStore) : Option Secret := store.row.bind TwoFactor.secret

/-- Each code lets at most one login in while its secret is in force, no login is let in with
another code, and a secret in force is one that was confirmed when it was turned on. -/
structure Sound (store : TwoFactorStore) : Prop where
  once : store.ownCodes.Nodup
  own : ∀ entry ∈ store.accepted, entry.own = true
  confirmed : store.secret.isSome → store.verified = store.secret

/-- A call about to go on works on the secret it has checked a code of. -/
def Meets (store : TwoFactorStore) : TwoFactorCall → Prop
  | .loginStep secret step => ∀ row ∈ store.row, row.lastStep < step → row.secret = some secret
  | .loginRecovery hash => ∀ row ∈ store.row, hash ∈ row.recoveryHashes → row.secret.isSome
  | .enableWrite pending _ => ∀ row ∈ store.row, row.pendingSecret.isSome → row.pendingSecret = some pending
  | _ => True

/-- A row beside the codes that were let in: what is generated is new to it, and what was used is
behind it. -/
structure Fits (row : TwoFactor) (nextSecret : Secret) (nextHash : RecoveryHash) (codes : List Code) : Prop where
  secretOld : ∀ secret, row.secret = some secret → secret < nextSecret
  pendingOld : ∀ secret, row.pendingSecret = some secret → secret < nextSecret
  apart : ∀ secret, row.secret = some secret → row.pendingSecret ≠ some secret
  hashesOld : ∀ hash ∈ row.recoveryHashes, hash < nextHash
  notPending : ∀ secret step, .timed secret step ∈ codes → row.pendingSecret ≠ some secret
  behind : ∀ secret step, .timed secret step ∈ codes → row.secret = some secret → step ≤ row.lastStep
  usedUp : ∀ hash, .recovery hash ∈ codes → hash ∉ row.recoveryHashes

/-- What holds of the store in any run. -/
structure Orderly (store : TwoFactorStore) : Prop where
  once : store.ownCodes.Nodup
  timedOld : ∀ secret step, .timed secret step ∈ store.ownCodes → secret < store.nextSecret
  recoveryOld : ∀ hash, .recovery hash ∈ store.ownCodes → hash < store.nextHash
  fits : ∀ row, store.row = some row → Fits row store.nextSecret store.nextHash store.ownCodes

variable {store next : TwoFactorStore}

theorem mem_newHashes {hash : RecoveryHash} (h : hash ∈ store.newHashes) :
    store.nextHash ≤ hash ∧ hash < store.nextHash + recoveryCodes := by
  obtain ⟨i, hi, hhash⟩ := List.mem_map.mp h
  have hlt := List.mem_range.mp hi
  have hsum : store.nextHash + i = hash := hhash
  rw [← hsum]
  exact ⟨Nat.le_add_right _ _, Nat.add_lt_add_left hlt _⟩

theorem Orderly.setPending (h : store.Orderly) : store.setPending.Orderly where
  once := h.once
  timedOld := fun secret step hcode => Nat.lt_succ_of_lt (h.timedOld secret step hcode)
  recoveryOld := h.recoveryOld
  fits := by
    intro row hrow
    have hfresh : ∀ secret step, .timed secret step ∈ store.ownCodes → some store.nextSecret ≠ some secret := by
      intro secret step hcode hsame
      have hlt := h.timedOld secret step hcode
      cases hsame
      exact lt_irrefl _ hlt
    cases hold : store.row with
    | none =>
      simp only [TwoFactorStore.setPending, hold, Option.some.injEq] at hrow
      subst hrow
      exact {
        secretOld := fun secret hsecret => by cases hsecret
        pendingOld := fun secret hsecret => by
          cases hsecret
          exact Nat.lt_succ_self _
        apart := fun secret hsecret => by cases hsecret
        hashesOld := fun hash hhash => by cases hhash
        notPending := hfresh
        behind := fun secret step _ hsecret => by cases hsecret
        usedUp := fun hash _ hhash => by cases hhash }
    | some old =>
      have hfits := h.fits old hold
      simp only [TwoFactorStore.setPending, hold, Option.some.injEq] at hrow
      subst hrow
      exact {
        secretOld := fun secret hsecret => Nat.lt_succ_of_lt (hfits.secretOld secret hsecret)
        pendingOld := fun secret hsecret => by
          cases hsecret
          exact Nat.lt_succ_self _
        apart := fun secret hsecret hsame => by
          have hlt := hfits.secretOld secret hsecret
          cases hsame
          exact lt_irrefl _ hlt
        hashesOld := hfits.hashesOld
        notPending := hfresh
        behind := hfits.behind
        usedUp := hfits.usedUp }

theorem Orderly.enable {verified : Secret} {step : Nat} (h : store.Orderly) (henable : store.enable verified step = some next) :
    next.Orderly := by
  unfold TwoFactorStore.enable at henable
  cases hold : store.row with
  | none => simp [hold] at henable
  | some old =>
    have hfits := h.fits old hold
    cases hpending : old.pendingSecret with
    | none => simp [hold, hpending] at henable
    | some pending =>
      simp only [hold, hpending, Option.some.injEq] at henable
      subst henable
      refine ⟨h.once, h.timedOld, fun hash hcode => Nat.lt_add_right _ (h.recoveryOld hash hcode), fun row hrow => ?_⟩
      cases hrow
      exact {
        secretOld := fun secret hsecret => hfits.pendingOld secret (by rw [hpending, ← hsecret])
        pendingOld := fun secret hsecret => by cases hsecret
        apart := fun secret _ hsame => by cases hsame
        hashesOld := fun hash hhash => (mem_newHashes hhash).2
        notPending := fun secret step _ hsame => by cases hsame
        behind := fun secret step hcode hsecret => by
          have hnot := hfits.notPending secret step hcode
          rw [hpending] at hnot
          exact absurd hsecret hnot
        usedUp := fun hash hcode hhash =>
          absurd (h.recoveryOld hash hcode) (not_lt.mpr (mem_newHashes hhash).1) }

theorem Orderly.disable (h : store.Orderly) : store.disable.Orderly :=
  ⟨h.once, h.timedOld, h.recoveryOld, fun row hrow => by cases hrow⟩

theorem Orderly.setRecovery (h : store.Orderly) : store.setRecovery.Orderly := by
  refine ⟨h.once, h.timedOld, fun hash hcode => Nat.lt_add_right _ (h.recoveryOld hash hcode), fun row hrow => ?_⟩
  obtain ⟨old, hold, hnew⟩ := Option.map_eq_some_iff.mp hrow
  have hfits := h.fits old hold
  rw [← hnew]
  exact {
    secretOld := hfits.secretOld
    pendingOld := hfits.pendingOld
    apart := hfits.apart
    hashesOld := fun hash hhash => (mem_newHashes hhash).2
    notPending := hfits.notPending
    behind := hfits.behind
    usedUp := fun hash hcode hhash =>
      absurd (h.recoveryOld hash hcode) (not_lt.mpr (mem_newHashes hhash).1) }

/-- One more login is let in, with a code that is new where it is one of the secret in force. -/
theorem Orderly.accept {row : TwoFactor} {code : Code} {inForce : Option Secret} (h : store.Orderly)
    (hfits : Fits row store.nextSecret store.nextHash store.ownCodes)
    (hown : (⟨code, inForce⟩ : Accepted).own = true → code ∉ store.ownCodes ∧
      (∀ secret step, code = .timed secret step → secret < store.nextSecret) ∧
      (∀ hash, code = .recovery hash → hash < store.nextHash) ∧
      Fits row store.nextSecret store.nextHash (code :: store.ownCodes)) :
    ({ store with row := some row, accepted := ⟨code, inForce⟩ :: store.accepted } : TwoFactorStore).Orderly := by
  cases hentry : (⟨code, inForce⟩ : Accepted).own with
  | false =>
    have hcodes : ({ store with row := some row, accepted := ⟨code, inForce⟩ :: store.accepted } : TwoFactorStore).ownCodes =
        store.ownCodes := by simp [ownCodes, hentry]
    constructor
    · rw [hcodes]
      exact h.once
    · rw [hcodes]
      exact h.timedOld
    · rw [hcodes]
      exact h.recoveryOld
    · intro other hother
      cases hother
      rw [hcodes]
      exact hfits
  | true =>
    obtain ⟨hnew, htimed, hrecovery, hfits⟩ := hown hentry
    have hcodes : ({ store with row := some row, accepted := ⟨code, inForce⟩ :: store.accepted } : TwoFactorStore).ownCodes =
        code :: store.ownCodes := by simp [ownCodes, hentry]
    constructor
    · rw [hcodes]
      exact List.nodup_cons.mpr ⟨hnew, h.once⟩
    · rw [hcodes]
      intro secret step hcode
      cases List.mem_cons.mp hcode with
      | inl hsame => exact htimed secret step hsame.symm
      | inr hold => exact h.timedOld secret step hold
    · rw [hcodes]
      intro hash hcode
      cases List.mem_cons.mp hcode with
      | inl hsame => exact hrecovery hash hsame.symm
      | inr hold => exact h.recoveryOld hash hold
    · intro other hother
      cases hother
      rw [hcodes]
      exact hfits

theorem Orderly.useStep {secret : Secret} {step : Nat} (h : store.Orderly) (huse : store.useStep secret step = some next) :
    next.Orderly := by
  unfold TwoFactorStore.useStep at huse
  cases hold : store.row with
  | none => simp [hold] at huse
  | some old =>
    have hfits := h.fits old hold
    simp only [hold] at huse
    split at huse
    · rename_i hlater
      cases huse
      have hlast : Fits { old with lastStep := step } store.nextSecret store.nextHash store.ownCodes :=
        { hfits with behind := fun other step' hcode hsecret => (hfits.behind other step' hcode hsecret).trans hlater.le }
      apply h.accept hlast
      intro hown
      have hsecret : old.secret = some secret := by simpa [Accepted.own] using hown
      refine ⟨fun hcode => ?_, fun other step' hcode => ?_, fun hash hcode => ?_, ?_⟩
      · exact absurd (hfits.behind secret step hcode hsecret) (not_le.mpr hlater)
      · cases hcode
        exact hfits.secretOld secret hsecret
      · cases hcode
      · exact { hlast with
          notPending := fun other step' hcode => by
            cases List.mem_cons.mp hcode with
            | inl hsame =>
              cases hsame
              exact hfits.apart secret hsecret
            | inr hcode => exact hfits.notPending other step' hcode
          behind := fun other step' hcode hother => by
            cases List.mem_cons.mp hcode with
            | inl hsame =>
              cases hsame
              exact le_refl _
            | inr hcode => exact hlast.behind other step' hcode hother
          usedUp := fun hash hcode => by
            cases List.mem_cons.mp hcode with
            | inl hsame => cases hsame
            | inr hcode => exact hfits.usedUp hash hcode }
    · cases huse

theorem Orderly.useRecoveryCode {hash : RecoveryHash} (h : store.Orderly) (huse : store.useRecoveryCode hash = some next) :
    next.Orderly := by
  unfold TwoFactorStore.useRecoveryCode at huse
  cases hold : store.row with
  | none => simp [hold] at huse
  | some old =>
    have hfits := h.fits old hold
    simp only [hold] at huse
    split at huse
    · rename_i hmem
      cases huse
      have hrest : Fits { old with recoveryHashes := old.recoveryHashes.filter (· != hash) } store.nextSecret store.nextHash
          store.ownCodes :=
        { hfits with
          hashesOld := fun other hother => hfits.hashesOld other (List.mem_of_mem_filter hother)
          usedUp := fun other hcode hother => hfits.usedUp other hcode (List.mem_of_mem_filter hother) }
      apply h.accept hrest
      intro _
      refine ⟨fun hcode => hfits.usedUp hash hcode hmem, fun secret step hcode => ?_, fun other hcode => ?_, ?_⟩
      · cases hcode
      · cases hcode
        exact hfits.hashesOld hash hmem
      · exact { hrest with
          notPending := fun secret step hcode => by
            cases List.mem_cons.mp hcode with
            | inl hsame => cases hsame
            | inr hcode => exact hfits.notPending secret step hcode
          behind := fun secret step hcode hsecret => by
            cases List.mem_cons.mp hcode with
            | inl hsame => cases hsame
            | inr hcode => exact hfits.behind secret step hcode hsecret
          usedUp := fun other hcode hother => by
            cases List.mem_cons.mp hcode with
            | inl hsame =>
              cases hsame
              simpa using (List.mem_filter.mp hother).2
            | inr hcode => exact hrest.usedUp other hcode hother }
    · cases huse

theorem Orderly.act (totp : Totp) (h : store.Orderly) (call : TwoFactorCall) (fault : Option DaygleError) (refuses : Bool) (now : Nat) :
    (store.act totp call fault refuses now).1.Orderly := by
  cases fault with
  | some e => cases call <;> exact h
  | none =>
    cases call with
    | setupWrite => exact h.setPending
    | enableWrite pending step =>
      simp only [TwoFactorStore.act]
      cases henable : store.enable pending step with
      | none => exact h
      | some next => exact h.enable henable
    | disableWrite => exact h.disable
    | recoveryWrite => exact h.setRecovery
    | loginStep secret step =>
      simp only [TwoFactorStore.act]
      cases huse : store.useStep secret step with
      | none => exact h
      | some next => exact h.useStep huse
    | loginRecovery hash =>
      simp only [TwoFactorStore.act]
      cases huse : store.useRecoveryCode hash with
      | none => exact h
      | some next => exact h.useRecoveryCode huse
    | _ => exact h

theorem sound_enable {verified : Secret} {step : Nat} (h : store.Sound) (henable : store.enable verified step = some next) :
    next.Sound ↔ store.Meets (.enableWrite verified step) := by
  unfold enable at henable
  cases hold : store.row with
  | none => simp [hold] at henable
  | some old =>
    cases hpending : old.pendingSecret with
    | none => simp [hold, hpending] at henable
    | some pending =>
      simp only [hold, hpending, Option.some.injEq] at henable
      subst henable
      have hmeets : store.Meets (.enableWrite verified step) ↔ pending = verified := by
        simp [Meets, hold, hpending]
      rw [hmeets]
      constructor
      · intro hnext
        have hsame := hnext.confirmed rfl
        exact (Option.some.inj hsame).symm
      · intro hsame
        exact ⟨h.once, h.own, fun _ => by rw [← hsame]; rfl⟩

theorem sound_setPending (h : store.Sound) : store.setPending.Sound := by
  refine ⟨h.once, h.own, ?_⟩
  have hsecret : store.setPending.secret = store.secret := by
    unfold secret setPending
    cases store.row <;> rfl
  rw [hsecret]
  exact h.confirmed

theorem sound_setRecovery (h : store.Sound) : store.setRecovery.Sound := by
  refine ⟨h.once, h.own, ?_⟩
  have hsecret : store.setRecovery.secret = store.secret := by
    unfold secret setRecovery
    cases store.row <;> rfl
  rw [hsecret]
  exact h.confirmed

theorem sound_disable (h : store.Sound) : store.disable.Sound := ⟨h.once, h.own, fun hsome => absurd hsome Bool.false_ne_true⟩

/-- A login is let in rightly exactly when its code is one of the secret in force. -/
theorem sound_accept {row : TwoFactor} {entry : Accepted} (h : store.Sound) (hsecret : row.secret = store.secret)
    (hnext : next = { store with row := some row, accepted := entry :: store.accepted }) (horderly : next.Orderly) :
    next.Sound ↔ entry.own = true := by
  subst hnext
  constructor
  · intro hsound
    exact hsound.own entry List.mem_cons_self
  · intro hown
    refine ⟨horderly.once, List.forall_mem_cons.mpr ⟨hown, h.own⟩, ?_⟩
    have hconfirmed := h.confirmed
    rw [← hsecret] at hconfirmed
    exact hconfirmed

theorem sound_useStep {secret : Secret} {step : Nat} (h : store.Sound) (horderly : store.Orderly)
    (huse : store.useStep secret step = some next) : next.Sound ↔ store.Meets (.loginStep secret step) := by
  have hnext := horderly.useStep huse
  unfold useStep at huse
  cases hold : store.row with
  | none => simp [hold] at huse
  | some old =>
    simp only [hold] at huse
    split at huse
    · rename_i hlater
      cases huse
      rw [sound_accept h (by simp [TwoFactorStore.secret, hold]) rfl hnext]
      simp [Meets, hold, hlater, Accepted.own]
    · cases huse

theorem sound_useRecoveryCode {hash : RecoveryHash} (h : store.Sound) (horderly : store.Orderly)
    (huse : store.useRecoveryCode hash = some next) : next.Sound ↔ store.Meets (.loginRecovery hash) := by
  have hnext := horderly.useRecoveryCode huse
  unfold useRecoveryCode at huse
  cases hold : store.row with
  | none => simp [hold] at huse
  | some old =>
    simp only [hold] at huse
    split at huse
    · rename_i hmem
      cases huse
      rw [sound_accept h (by simp [secret, hold]) rfl hnext]
      simp [Meets, hold, hmem, Accepted.own]
    · cases huse

/-- A write that finds nothing to do was no danger. -/
theorem meets_of_enable_none {verified : Secret} {step : Nat} (h : store.enable verified step = none) :
    store.Meets (.enableWrite verified step) := by
  intro row hrow hsome
  rw [Option.mem_def] at hrow
  obtain ⟨pending, hpending⟩ := Option.isSome_iff_exists.mp hsome
  simp [enable, hrow, hpending] at h

theorem meets_of_useStep_none {secret : Secret} {step : Nat} (h : store.useStep secret step = none) :
    store.Meets (.loginStep secret step) := by
  intro row hrow hlater
  rw [Option.mem_def] at hrow
  simp [useStep, hrow, hlater] at h

theorem meets_of_useRecoveryCode_none {hash : RecoveryHash} (h : store.useRecoveryCode hash = none) :
    store.Meets (.loginRecovery hash) := by
  intro row hrow hmem
  rw [Option.mem_def] at hrow
  simp [useRecoveryCode, hrow, hmem] at h

theorem sound_act (totp : Totp) (h : store.Sound) (horderly : store.Orderly) (call : TwoFactorCall) (fault : Option DaygleError)
    (refuses : Bool) (now : Nat) :
    (store.act totp call fault refuses now).1.Sound ↔ fault.isSome = true ∨ store.Meets call := by
  cases fault with
  | some e =>
    refine iff_of_true ?_ (.inl rfl)
    cases call <;> exact h
  | none =>
    have hor : ((none : Option DaygleError).isSome = true ∨ store.Meets call) ↔ store.Meets call := by simp
    rw [hor]
    cases call with
    | setupWrite => exact iff_of_true (sound_setPending h) trivial
    | enableWrite pending step =>
      simp only [act]
      cases henable : store.enable pending step with
      | none => exact iff_of_true h (meets_of_enable_none henable)
      | some next => exact sound_enable h henable
    | disableWrite => exact iff_of_true (sound_disable h) trivial
    | recoveryWrite => exact iff_of_true (sound_setRecovery h) trivial
    | loginStep secret step =>
      simp only [act]
      cases huse : store.useStep secret step with
      | none => exact iff_of_true h (meets_of_useStep_none huse)
      | some next => exact sound_useStep h horderly huse
    | loginRecovery hash =>
      simp only [act]
      cases huse : store.useRecoveryCode hash with
      | none => exact iff_of_true h (meets_of_useRecoveryCode_none huse)
      | some next => exact sound_useRecoveryCode h horderly huse
    | _ => exact iff_of_true h trivial

end TwoFactorStore

namespace TwoFactorDesk

/-- The step, if the database carries it out, works on the secret its call has checked. -/
def Meets (desk : TwoFactorDesk) : TwoFactorInput → Prop
  | .step i fault _ _ => ∀ call ∈ desk.calls[i]?, fault.isSome = true ∨ desk.store.Meets call
  | _ => True

theorem orderly_step (totp : Totp) {desk : TwoFactorDesk} (h : desk.store.Orderly) (input : TwoFactorInput) :
    (desk.step totp input).store.Orderly := by
  cases input with
  | step i fault refuses now =>
    simp only [step]
    cases desk.calls[i]? with
    | none => exact h
    | some call => exact h.act totp call fault refuses now
  | _ => exact h

theorem sound_step (totp : Totp) {desk : TwoFactorDesk} (horderly : desk.store.Orderly) (h : desk.store.Sound)
    (input : TwoFactorInput) : (desk.step totp input).store.Sound ↔ desk.Meets input := by
  cases input with
  | step i fault refuses now =>
    simp only [step, Meets]
    cases desk.calls[i]? with
    | none => exact iff_of_true h (by simp)
    | some call =>
      rw [TwoFactorStore.sound_act totp h horderly call fault refuses now]
      simp
  | _ => exact iff_of_true h trivial

/-- For every run of the requests and the logins of an account. -/
theorem two_factor_iff (totp : Totp) (inputs : List TwoFactorInput) :
    Always (step totp) (fun desk => desk.store.Sound) new inputs ↔ Each (step totp) Meets new inputs := by
  have horderly : new.store.Orderly := by
    constructor <;> simp [new, TwoFactorStore.ownCodes]
  have hsound : new.store.Sound := by
    constructor <;> simp [new, TwoFactorStore.ownCodes, TwoFactorStore.secret]
  exact always_iff_each (fun desk => desk.store.Orderly) _ _ (fun desk input h => orderly_step totp h input)
    (fun desk input h hsound => sound_step totp h hsound input) inputs horderly hsound

/-- Six digits for the first secrets and steps. -/
def sixDigits : Totp := ⟨fun secret step => ofNat (100000 + 1000 * secret + step), List.length⟩

/-- The steps of a call at the step `at_` of the clock. -/
def steps (call count at_ : Nat) : List TwoFactorInput := List.replicate count (.step call none false (stepSecs * at_))

/-- The secret 0 is set up and turned on at the step 10. -/
def turnedOn : List TwoFactorInput := .setup :: steps 0 2 10 ++ .enable "100010".toList :: steps 1 3 10

/-- A second setup comes between the check of the code and the write, and its secret is in force
though no code of it was ever seen; a login checks a code of the step 11 before two-factor login
is turned off and set up anew, and is let in with it although no secret is in force. -/
theorem two_factor_fails :
    ¬Always (step sixDigits) (fun desk => desk.store.Sound) new
        (.setup :: steps 0 2 10 ++ .enable "100010".toList :: steps 1 2 10 ++ .setup :: steps 2 2 10 ++ steps 1 1 10) ∧
      ¬Always (step sixDigits) (fun desk => desk.store.Sound) new
        (turnedOn ++ .login "100011".toList :: steps 2 1 11 ++ .disable :: steps 3 2 11 ++ .setup :: steps 4 2 11 ++
          steps 2 1 11) := by
  constructor
  · intro h
    have hlast := (always_iff_prefixes _ _ _).mp h _ (List.prefix_refl _)
    exact absurd (hlast.confirmed (by decide)) (by decide)
  · intro h
    have hlast := (always_iff_prefixes _ _ _).mp h _ (List.prefix_refl _)
    exact absurd (hlast.own ⟨.timed 0 11, none⟩ (by decide)) (by decide)

end TwoFactorDesk

end DaygleDns.Console
