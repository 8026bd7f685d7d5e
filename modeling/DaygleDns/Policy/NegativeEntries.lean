import DaygleDns.Policy.SafeBrowsing
import DaygleDns.Runs

/-! What the negative cache of Safe Browsing answers, over every order of the checks, the server's
responses and the resets. -/
namespace DaygleDns.Policy

open Framing Runs Text

theorem cachedThreat_eq_none {full : FullCache} {hashes : List Bytes} {now : Nat} (h : cachedThreat full hashes now = none)
    {hash : Bytes} (hhash : hash ∈ hashes) {threat : Text × Nat} (hthreat : full.lookup hash = some threat) :
    threat.2 ≤ now := by
  have hnone := List.findSome?_eq_none_iff.mp h hash hhash
  rw [hthreat, Option.map_eq_none_iff, Option.filter_eq_none_iff] at hnone
  have hold := hnone threat rfl
  simp only [decide_eq_true_eq] at hold
  omega

theorem matchingPrefixes_nil (hashes : List Bytes) : matchingPrefixes [] hashes = [] := by
  simp [matchingPrefixes, List.flatMap_eq_nil_iff.mpr]

/-- The last threat with the hash counts. -/
theorem lookup_foldl_recordThreat (full : FullCache) (threats : List Threat) (now : Nat) (hash : Bytes) :
    (threats.foldl (recordThreat now) full).lookup hash =
      match threats.reverse.find? fun threat => hash = threat.hash with
      | some threat => some (threat.type, now + threat.ttl)
      | none => full.lookup hash := by
  induction threats using List.reverseRecOn with
  | nil => rfl
  | append_singleton threats threat ih =>
    rw [List.foldl_append, List.reverse_append, List.reverse_singleton, List.singleton_append, List.find?_cons]
    change AList.lookup hash (AList.insert threat.hash _ _) = _
    rw [KeyedMap.lookup_insert]
    by_cases hsame : hash = threat.hash
    · simp [hsame]
    · simp only [hsame, if_false, decide_false]
      exact ih

theorem lookup_recordThreats {full : FullCache} {threats : List Threat} {now expiry : Nat} {hash : Bytes} {old : Text × Nat}
    (hold : full.lookup hash = some old) (hexpiry : now < expiry) (hkept : expiry ≤ old.2)
    (hlast : ∀ threat ∈ threats.reverse.find? fun threat => hash = threat.hash, expiry ≤ now + threat.ttl) :
    ∃ threat, (recordThreats full threats now).lookup hash = some threat ∧ expiry ≤ threat.2 := by
  have hswept : (if cacheCap ≤ full.size then full.retain fun _ entry => now < entry.2 else full).lookup hash = some old := by
    split
    · rw [KeyedMap.lookup_retain, hold]
      apply Option.filter_some_pos
      simp only [decide_eq_true_eq]
      omega
    · exact hold
  unfold recordThreats
  dsimp only
  rw [lookup_foldl_recordThreat, hswept]
  cases hfind : threats.reverse.find? fun threat => decide (hash = threat.hash) with
  | none => exact ⟨old, rfl, hkept⟩
  | some threat => exact ⟨_, rfl, hlast threat hfind⟩

theorem lookup_foldl_insert {negative : KeyedMap Bytes NegativeEntry} {prefixes : List Bytes} {entry found : NegativeEntry}
    {start : Bytes} (h : (prefixes.foldl (fun negative start => negative.insert start entry) negative).lookup start = some found) :
    found = entry ∨ negative.lookup start = some found := by
  induction prefixes generalizing negative with
  | nil => exact .inr h
  | cons first prefixes ih =>
    cases ih h with
    | inl hnew => exact .inl hnew
    | inr hrest =>
      rw [KeyedMap.lookup_insert] at hrest
      split at hrest
      · exact .inl (Option.some.inj hrest).symm
      · exact .inr hrest

theorem lookup_recordPrefixes {negative : KeyedMap Bytes NegativeEntry} {prefixes : List Bytes} {now : Nat}
    {entry found : NegativeEntry} {start : Bytes}
    (h : (recordPrefixes negative prefixes now entry).lookup start = some found) :
    found = entry ∨ negative.lookup start = some found := by
  unfold recordPrefixes at h
  dsimp only at h
  cases lookup_foldl_insert h with
  | inl hnew => exact .inl hnew
  | inr hold =>
    split at hold
    · rw [KeyedMap.lookup_retain] at hold
      exact .inr (Option.filter_eq_some_iff.mp hold).1
    · exact .inr hold

/-- Between the cache of full hashes and the negative one. -/
def CheckStage.isLooking : CheckStage → Bool
  | .passed => true
  | .matched _ => true
  | _ => false

/-- What the index gave a check that has not yet come to the negative cache. -/
def CheckStage.prefixes : CheckStage → List Bytes
  | .matched prefixes => prefixes
  | _ => []

/-- When the response was there. -/
def CheckStage.answeredAt : CheckStage → Option Nat
  | .answered _ _ now => some now
  | .recorded _ _ now _ => some now
  | _ => none

namespace SafeBrowsing

variable (codecs : SafeBrowsingCodecs) (service : SafeBrowsing)

/-- Every threat of the response that an unexpired negative entry has listed lasts as long as the entry. -/
def KeepsThreats : CheckStage → Prop
  | .answered _ response now =>
      ∀ item ∈ service.negative.entries, service.clock < item.2.expiry → ∀ hash ∈ item.2.listed,
        ∀ threat ∈ (codecs.threats response).reverse.find? fun threat => hash = threat.hash,
          item.2.expiry ≤ now + threat.ttl
  | _ => True

/-- Where the prefixes go to the negative cache, every threat of the response is cached at least as long,
and is none of the hashes of a check between the two caches. -/
def CoversThreats : CheckStage → Prop
  | .recorded _ response now found =>
      found = none → service.clock < now + codecs.negativeTtl response → ∀ threat ∈ codecs.threats response,
        (service.full.lookup threat.hash).any (fun cached => now + codecs.negativeTtl response ≤ cached.2) = true ∧
          ∀ item ∈ service.checks.entries, item.2.stage.isLooking = true → threat.hash ∉ item.2.hashes
  | _ => True

def Covers : SafeBrowsingEvent → Prop
  | .record id => ∀ check ∈ service.checks.lookup id, service.KeepsThreats codecs check.stage
  | .settle id => ∀ check ∈ service.checks.lookup id, service.CoversThreats codecs check.stage
  | _ => True

/-- Where the negative cache is why a check returns `None`, no unexpired entry it came upon is of a response
that listed one of its hashes. -/
def SoundNone : SafeBrowsingEvent → Prop
  | .readNegative id =>
      service.returns (.readNegative id) = some none → ∀ check ∈ service.checks.lookup id,
        ∀ start ∈ check.stage.prefixes, ∀ entry ∈ service.negative.lookup start, service.clock < entry.expiry →
          ∀ hash ∈ check.hashes, hash ∉ entry.listed
  | _ => True

/-- No unexpired negative entry is of a response that listed one of the hashes. -/
def Unlisted (hashes : List Bytes) : Prop :=
  ∀ start entry, service.negative.lookup start = some entry → service.clock < entry.expiry →
    ∀ hash ∈ hashes, hash ∉ entry.listed

/-- What an unexpired negative entry has listed is cached as a threat at least as long. -/
def Backed : Prop :=
  ∀ start entry, service.negative.lookup start = some entry → service.clock < entry.expiry → ∀ hash ∈ entry.listed,
    ∃ threat, service.full.lookup hash = some threat ∧ entry.expiry ≤ threat.2

/-- While `reset` has cleared the full hashes and not the negative entries, the index is empty, so that a
check comes to the negative entries with no prefix. -/
structure Consistent : Prop where
  instants : ∀ id check, service.checks.lookup id = some check →
    check.now ≤ service.clock ∧ ∀ now ∈ check.stage.answeredAt, now ≤ service.clock
  index : service.reset ≠ .idle → service.index = []
  backed : service.reset ≠ .fullCleared → service.Backed
  looking : ∀ id check, service.checks.lookup id = some check → check.stage.isLooking = true →
    service.Unlisted check.hashes ∨ service.reset = .fullCleared ∧ check.stage.prefixes = []

theorem consistent_new : new.Consistent where
  instants := fun id check h => by cases h
  index := fun h => rfl
  backed := fun _ start entry h => by cases h
  looking := fun id check h => by cases h

variable {codecs service}

theorem Consistent.track (h : service.Consistent) (id : Nat) (check : RunningCheck)
    (hnow : check.now ≤ service.clock ∧ ∀ now ∈ check.stage.answeredAt, now ≤ service.clock)
    (hlooking : check.stage.isLooking = true →
      service.Unlisted check.hashes ∨ service.reset = .fullCleared ∧ check.stage.prefixes = []) :
    (service.track id check).Consistent where
  instants := by
    intro other found hfound
    rw [SafeBrowsing.track, KeyedMap.lookup_insert] at hfound
    split at hfound
    · cases hfound
      exact hnow
    · exact h.instants other found hfound
  index := h.index
  backed := h.backed
  looking := by
    intro other found hfound
    rw [SafeBrowsing.track, KeyedMap.lookup_insert] at hfound
    split at hfound
    · cases hfound
      exact hlooking
    · exact h.looking other found hfound

theorem lookup_of_lookup_erase {checks : KeyedMap Nat RunningCheck} {id other : Nat} {check : RunningCheck}
    (h : (checks.erase id).lookup other = some check) : checks.lookup other = some check := by
  by_cases hsame : other = id
  · rw [hsame, AList.lookup_erase] at h
    cases h
  · rwa [AList.lookup_erase_ne hsame] at h

theorem Consistent.finish (h : service.Consistent) (id : Nat) : (service.finish id).Consistent where
  instants := fun other check hcheck => h.instants other check (lookup_of_lookup_erase hcheck)
  index := h.index
  backed := h.backed
  looking := fun other check hcheck => h.looking other check (lookup_of_lookup_erase hcheck)

theorem Consistent.tick (h : service.Consistent) (elapsed : Nat) : (service.step codecs (.tick elapsed)).Consistent where
  instants := by
    intro id check hcheck
    have ⟨hnow, hanswered⟩ := h.instants id check hcheck
    change _ ≤ service.clock + elapsed ∧ ∀ now ∈ _, now ≤ service.clock + elapsed
    refine ⟨by omega, fun now hat => ?_⟩
    have := hanswered now hat
    omega
  index := h.index
  backed := by
    intro hreset start entry hentry hlive
    have hbefore : service.clock < entry.expiry := Nat.lt_of_le_of_lt (Nat.le_add_right _ elapsed) hlive
    exact h.backed hreset start entry hentry hbefore
  looking := by
    intro id check hcheck hlooking
    cases h.looking id check hcheck hlooking with
    | inl hunlisted =>
      left
      intro start entry hentry hlive
      have hbefore : service.clock < entry.expiry := Nat.lt_of_le_of_lt (Nat.le_add_right _ elapsed) hlive
      exact hunlisted start entry hentry hbefore
    | inr hcleared => exact .inr hcleared

theorem Consistent.arrive (h : service.Consistent) (id : Nat) (qname key : Text) :
    (service.step codecs (.arrive id qname key)).Consistent := by
  rw [step]
  split
  · exact h
  split
  · exact ⟨h.instants, h.index, h.backed, h.looking⟩
  · have hrunning : { service with running := true }.Consistent := ⟨h.instants, h.index, h.backed, h.looking⟩
    exact hrunning.track id _ ⟨Nat.le_refl _, nofun⟩ nofun

theorem Consistent.readFull (h : service.Consistent) (id : Nat) : (service.step codecs (.readFull id)).Consistent := by
  rw [step]
  split
  next hashes now hcheck =>
    split
    · exact h.finish id
    next hmiss =>
      have ⟨hnow, _⟩ := h.instants id _ hcheck
      refine h.track id ⟨hashes, now, .passed⟩ ⟨hnow, nofun⟩ fun _ => ?_
      by_cases hreset : service.reset = .fullCleared
      · exact .inr ⟨hreset, rfl⟩
      · left
        intro start entry hentry hlive hash hhash hlisted
        have ⟨threat, hthreat, hlong⟩ := h.backed hreset start entry hentry hlive hash hlisted
        have hold := cachedThreat_eq_none (Option.not_isSome_iff_eq_none.mp hmiss) hhash hthreat
        have hclock : now ≤ service.clock := hnow
        omega
  next => exact h

theorem Consistent.readIndex (h : service.Consistent) (id : Nat) : (service.step codecs (.readIndex id)).Consistent := by
  rw [step]
  split
  next hashes now hcheck =>
    refine h.track id ⟨hashes, now, _⟩ ⟨(h.instants id _ hcheck).1, nofun⟩ fun _ => ?_
    cases h.looking id _ hcheck rfl with
    | inl hunlisted => exact .inl hunlisted
    | inr hcleared =>
      have hempty : service.index = [] := h.index (by simp [hcleared.1])
      refine .inr ⟨hcleared.1, ?_⟩
      change matchingPrefixes service.index hashes = []
      rw [hempty, matchingPrefixes_nil]
  next => exact h

theorem Consistent.readNegative (h : service.Consistent) (id : Nat) :
    (service.step codecs (.readNegative id)).Consistent := by
  rw [step]
  split
  next hashes now prefixes hcheck =>
    dsimp only
    split
    · exact h.finish id
    · exact h.track id ⟨hashes, now, _⟩ ⟨(h.instants id _ hcheck).1, nofun⟩ nofun
  next => exact h

theorem Consistent.fail (h : service.Consistent) (id : Nat) : (service.step codecs (.fail id)).Consistent := by
  rw [step]
  split
  · exact h.finish id
  · exact h

theorem Consistent.respond (h : service.Consistent) (id : Nat) (response : HashResponse) :
    (service.step codecs (.respond id response)).Consistent := by
  rw [step]
  split
  next hashes now prefixes hcheck =>
    refine h.track id ⟨hashes, now, _⟩ ⟨(h.instants id _ hcheck).1, fun answered hat => ?_⟩ nofun
    cases hat
    exact Nat.le_refl _
  next => exact h

theorem Consistent.record (h : service.Consistent) (id : Nat) (hcovers : service.Covers codecs (.record id)) :
    (service.step codecs (.record id)).Consistent := by
  rw [step]
  split
  next hashes started prefixes response now hcheck =>
    have ⟨hstarted, hanswered⟩ := h.instants id _ hcheck
    have hnow : now ≤ service.clock := hanswered now rfl
    have hthreats : { service with full := recordThreats service.full (codecs.threats response) now }.Consistent := by
      refine ⟨h.instants, h.index, fun hreset start entry hentry hlive hash hlisted => ?_, h.looking⟩
      have ⟨threat, hthreat, hlong⟩ := h.backed hreset start entry hentry hlive hash hlisted
      have hclock : service.clock < entry.expiry := hlive
      apply lookup_recordThreats hthreat (by omega) hlong
      intro later hlater
      exact hcovers _ hcheck ⟨start, entry⟩ (AList.mem_lookup_iff.mp hentry) hlive hash hlisted later hlater
    refine hthreats.track id ⟨hashes, started, _⟩ ⟨hstarted, fun answered hat => ?_⟩ nofun
    cases hat
    exact hnow
  next => exact h

theorem Consistent.settle (h : service.Consistent) (id : Nat) (hcovers : service.Covers codecs (.settle id)) :
    (service.step codecs (.settle id)).Consistent := by
  rw [step]
  split
  next hashes started prefixes response now found hcheck =>
    dsimp only
    split
    next hwrites =>
      have hnone : found = none := by
        rw [Bool.and_eq_true, Option.isNone_iff_eq_none] at hwrites
        exact hwrites.1
      refine ⟨fun other check hother => h.instants other check (lookup_of_lookup_erase hother), h.index, ?_, ?_⟩
      · intro hreset start entry hentry hlive hash hlisted
        cases lookup_recordPrefixes hentry with
        | inl hnew =>
          rw [hnew] at hlive hlisted ⊢
          have ⟨threat, hthreat, hsame⟩ := List.mem_map.mp hlisted
          have hcached := (hcovers _ hcheck hnone hlive threat hthreat).1
          rw [Option.any_eq_true] at hcached
          have ⟨cached, hlookup, hlong⟩ := hcached
          rw [hsame] at hlookup
          exact ⟨cached, hlookup, of_decide_eq_true hlong⟩
        | inr hold => exact h.backed hreset start entry hold hlive hash hlisted
      · intro other check hother hlooking
        have hbefore := lookup_of_lookup_erase hother
        cases h.looking other check hbefore hlooking with
        | inr hcleared => exact .inr hcleared
        | inl hunlisted =>
          left
          intro start entry hentry hlive hash hhash hlisted
          cases lookup_recordPrefixes hentry with
          | inl hnew =>
            rw [hnew] at hlive hlisted
            have ⟨threat, hthreat, hsame⟩ := List.mem_map.mp hlisted
            have hfree := (hcovers _ hcheck hnone hlive threat hthreat).2 ⟨other, check⟩ (AList.mem_lookup_iff.mp hbefore) hlooking
            rw [hsame] at hfree
            exact hfree hhash
          | inr hold => exact hunlisted start entry hold hlive hash hhash hlisted
    next => exact h.finish id
  next => exact h

theorem Consistent.update (h : service.Consistent) (index : List (Nat × List Bytes)) :
    (service.step codecs (.update index)).Consistent := by
  rw [step]
  split
  next hidle =>
    rw [Bool.and_eq_true, beq_iff_eq] at hidle
    exact ⟨h.instants, fun hreset => absurd hidle.2 hreset, h.backed, h.looking⟩
  next => exact h

theorem Consistent.resetDatabase (h : service.Consistent) : (service.step codecs .resetDatabase).Consistent := by
  rw [step]
  split
  next hidle =>
    rw [Bool.and_eq_true, beq_iff_eq] at hidle
    refine ⟨h.instants, fun _ => rfl, fun _ => h.backed (by simp [hidle.2]), fun id check hcheck hlooking => ?_⟩
    cases h.looking id check hcheck hlooking with
    | inl hunlisted => exact .inl hunlisted
    | inr hcleared => cases hidle.2.symm.trans hcleared.1
  next => exact h

theorem Consistent.resetFull (h : service.Consistent) : (service.step codecs .resetFull).Consistent := by
  rw [step]
  split
  next hcleared =>
    refine ⟨h.instants, fun _ => h.index (by simp [hcleared]), fun hreset => absurd rfl hreset, ?_⟩
    intro id check hcheck hlooking
    cases h.looking id check hcheck hlooking with
    | inl hunlisted => exact .inl hunlisted
    | inr hfull => cases hcleared.symm.trans hfull.1
  next => exact h

theorem Consistent.resetNegative (h : service.Consistent) : (service.step codecs .resetNegative).Consistent := by
  rw [step]
  split
  · refine ⟨h.instants, fun hreset => absurd rfl hreset, ?_, ?_⟩
    · intro _ start entry hentry
      cases hentry
    · intro id check _ _
      left
      intro start entry hentry
      cases hentry
  · exact h

theorem Consistent.step (h : service.Consistent) (event : SafeBrowsingEvent) (hcovers : service.Covers codecs event) :
    (service.step codecs event).Consistent := by
  cases event with
  | tick elapsed => exact h.tick elapsed
  | arrive id qname key => exact h.arrive id qname key
  | readFull id => exact h.readFull id
  | readIndex id => exact h.readIndex id
  | readNegative id => exact h.readNegative id
  | fail id => exact h.fail id
  | respond id response => exact h.respond id response
  | record id => exact h.record id hcovers
  | settle id => exact h.settle id hcovers
  | update index => exact h.update index
  | resetDatabase => exact h.resetDatabase
  | resetFull => exact h.resetFull
  | resetNegative => exact h.resetNegative

theorem Consistent.soundNone (h : service.Consistent) : ∀ event, service.SoundNone event := by
  intro event
  cases event with
  | readNegative id =>
    intro _ check hcheck start hstart entry hentry hlive hash hhash
    have hlooking : check.stage.isLooking = true := by
      cases hstage : check.stage with
      | «matched» prefixes => rfl
      | _ => simp [hstage, CheckStage.prefixes] at hstart
    cases h.looking id check hcheck hlooking with
    | inl hunlisted => exact hunlisted start entry hentry hlive hash hhash
    | inr hcleared => simp [hcleared.2] at hstart
  | _ => trivial

theorem negative_cache_sound (codecs : SafeBrowsingCodecs) (events : List SafeBrowsingEvent)
    (hcovers : Each (step codecs) (Covers codecs) new events) : Each (step codecs) SoundNone new events :=
  each_of_invariant Consistent (fun _ event h hevent => h.step event hevent) (fun _ event h _ => h.soundNone event)
    events consistent_new hcovers

instance : ∀ stage, Decidable (service.KeepsThreats codecs stage)
  | .answered _ response now =>
      inferInstanceAs (Decidable (∀ item ∈ service.negative.entries, service.clock < item.2.expiry →
        ∀ hash ∈ item.2.listed, ∀ threat ∈ (codecs.threats response).reverse.find? fun threat => hash = threat.hash,
          item.2.expiry ≤ now + threat.ttl))
  | .started => .isTrue trivial
  | .passed => .isTrue trivial
  | .matched _ => .isTrue trivial
  | .asking _ => .isTrue trivial
  | .recorded .. => .isTrue trivial

instance : ∀ stage, Decidable (service.CoversThreats codecs stage)
  | .recorded _ response now found =>
      inferInstanceAs (Decidable (found = none → service.clock < now + codecs.negativeTtl response →
        ∀ threat ∈ codecs.threats response, _))
  | .started => .isTrue trivial
  | .passed => .isTrue trivial
  | .matched _ => .isTrue trivial
  | .asking _ => .isTrue trivial
  | .answered .. => .isTrue trivial

instance (codecs : SafeBrowsingCodecs) (service : SafeBrowsing) : ∀ event, Decidable (service.Covers codecs event)
  | .record id =>
      inferInstanceAs (Decidable (∀ check ∈ service.checks.lookup id, service.KeepsThreats codecs check.stage))
  | .settle id =>
      inferInstanceAs (Decidable (∀ check ∈ service.checks.lookup id, service.CoversThreats codecs check.stage))
  | .tick _ => .isTrue trivial
  | .arrive .. => .isTrue trivial
  | .readFull _ => .isTrue trivial
  | .readIndex _ => .isTrue trivial
  | .readNegative _ => .isTrue trivial
  | .fail _ => .isTrue trivial
  | .respond .. => .isTrue trivial
  | .update _ => .isTrue trivial
  | .resetDatabase => .isTrue trivial
  | .resetFull => .isTrue trivial
  | .resetNegative => .isTrue trivial

end SafeBrowsing

/-! Two hosts whose hashes begin with the same four bytes. -/

def askedHash : Bytes :=
  [56, 251, 230, 154, 188, 79, 195, 15, 117, 49, 45, 199, 2, 102, 45, 140, 166, 136, 63, 176, 16, 67, 153, 182, 101, 129, 30,
    255, 193, 123, 142, 82]

def listedHash : Bytes :=
  [56, 251, 230, 154, 121, 14, 254, 25, 22, 184, 195, 248, 45, 69, 182, 64, 142, 117, 135, 241, 196, 138, 126, 192, 175, 153,
    26, 10, 121, 83, 109, 66]

/-- The real functions, on the texts of the run. -/
def sharedPrefixCodecs : SafeBrowsingCodecs where
  sha256 := fun text => if text = "a19382.test/".toList then askedHash else listedHash
  decode := fun _ => some listedHash
  seconds := fun text => some (readDigits text * 1000000000)

/-- A check of the one host is answered with the hash of the other, which is then checked. -/
def sharedPrefix (cacheDuration : String) : List SafeBrowsingEvent :=
  [.arrive 0 "a19382.test".toList "key".toList, .readFull 0, .readIndex 0, .readNegative 0,
    .update [(4, [askedHash.take 4])],
    .arrive 1 "a19382.test".toList "key".toList, .readFull 1, .readIndex 1, .readNegative 1,
    .respond 1 ⟨[⟨some "OPvmmnkO/hkWuMP4LUW2QI51h/HEin7Ar5kaCnlTbUI=".toList, some "MALWARE".toList,
      some cacheDuration.toList⟩], some "300s".toList⟩,
    .record 1, .settle 1, .tick 100000000000,
    .arrive 2 "a32047.test".toList "key".toList, .readFull 2, .readIndex 2, .readNegative 2]

namespace SafeBrowsing

theorem negative_cache_sound_lasting :
    Each (step sharedPrefixCodecs) SoundNone new (sharedPrefix "300s") ∧
      (run (step sharedPrefixCodecs) new ((sharedPrefix "300s").take 14)).returns (.readFull 2) =
        some (some "MALWARE".toList) :=
  ⟨negative_cache_sound sharedPrefixCodecs (sharedPrefix "300s") (by decide), by decide⟩

/-- The threat is cached for a minute, and the prefix for five as known to match none. -/
theorem negative_cache_sound_fails :
    (run (step sharedPrefixCodecs) new ((sharedPrefix "60s").take 16)).returns (.readNegative 2) = some none ∧
      ¬∀ (codecs : SafeBrowsingCodecs) (events : List SafeBrowsingEvent), Each (step codecs) SoundNone new events := by
  have hreturns : (run (step sharedPrefixCodecs) new ((sharedPrefix "60s").take 16)).returns (.readNegative 2) = some none := by
    decide
  refine ⟨hreturns, fun h => ?_⟩
  have heach := h sharedPrefixCodecs ((sharedPrefix "60s").take 16 ++ [.readNegative 2])
  have hlast := (each_append heach).1
  rw [SoundNone] at hlast
  revert hlast
  decide

end SafeBrowsing

end DaygleDns.Policy
