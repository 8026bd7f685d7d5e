import DaygleDns.Policy.LookupCache
import DaygleDns.Runs

/-! The cache of lookups over every order of the calls and the lookups: how many keys it holds, and what
the calls return. -/
namespace DaygleDns.Policy

open Runs

variable {K V : Type} [DecidableEq K]

namespace LookupCache

variable (cache : LookupCache K V) (key : K) (now : Nat)

theorem find_eq_joins {channel : Nat} (h : cache.find key now = .joins channel) :
    cache.entries.lookup key = some (.pending channel) := by
  unfold find at h
  split at h
  · split at h <;> cases h
  next running hentry =>
    cases h
    exact hentry
  · cases h

theorem lookup_evict {other : K} {entry : CacheEntry V} (h : (cache.evict now).lookup other = some entry) :
    cache.entries.lookup other = some entry := by
  unfold evict at h
  dsimp only at h
  split at h
  · split at h
    · cases h
    · rw [KeyedMap.lookup_retain] at h
      exact (Option.filter_eq_some_iff.mp h).1
  · exact h

/-- What is not dropped at capacity. -/
theorem lookup_evict_of_kept {other : K} {entry : CacheEntry V} (hentry : cache.entries.lookup other = some entry)
    (hkept : cache.entries.size < cache.cap ∨
      (cache.entries.retain fun _ entry => entry.fresh now).size < cache.cap ∧ entry.fresh now = true) :
    (cache.evict now).lookup other = some entry := by
  unfold evict
  dsimp only
  split
  next hfull =>
    obtain hroom | ⟨hroom, hfresh⟩ := hkept
    · omega
    · rw [if_neg (Nat.not_le_of_lt hroom), KeyedMap.lookup_retain, hentry]
      exact Option.filter_some_pos hfresh
  next => exact hentry

omit [DecidableEq K] in
theorem size_evict_lt (hcap : 1 ≤ cache.cap) : (cache.evict now).size < cache.cap := by
  unfold evict
  dsimp only
  split
  · split
    · exact hcap
    · omega
  · omega

theorem size_start_le (hcap : 1 ≤ cache.cap) (channel : Nat) : (cache.start key now channel).entries.size ≤ cache.cap := by
  have hsize := KeyedMap.size_insert_le (cache.evict now) key (CacheEntry.pending channel : CacheEntry V)
  have hroom := cache.size_evict_lt now hcap
  change KeyedMap.size _ ≤ _ at hsize ⊢
  exact Nat.le_trans hsize hroom

/-- A result needs its key in the cache, or room. -/
theorem size_record_le_iff (value : V) (expiry : Nat) (hsize : cache.entries.size ≤ cache.cap) :
    (cache.record key value expiry).entries.size ≤ cache.cap ↔
      (cache.entries.lookup key).isSome ∨ cache.entries.size < cache.cap := by
  change KeyedMap.size (AList.insert key _ cache.entries) ≤ _ ↔ _
  cases hkey : cache.entries.lookup key with
  | some entry =>
    rw [KeyedMap.size_insert_of_mem (by rw [hkey]; rfl)]
    simp [hsize]
  | none =>
    rw [KeyedMap.size_insert_of_not_mem hkey]
    simp only [Option.isSome_none, Bool.false_eq_true, false_or]
    omega

theorem size_reread_le (channel : Nat) (finished : Bool) :
    (cache.reread key channel finished).1.entries.size ≤ cache.entries.size := by
  unfold reread
  dsimp only
  split
  · exact (List.kerase_sublist key cache.entries.entries).length_le
  · exact Nat.le_refl _

end LookupCache

namespace LookupService

/-- The lookup of the call is over, or about to be: its result has been recorded. -/
def isDone (service : LookupService K V) (channel : Nat) : Bool :=
  (service.lookups.lookup channel).any fun lookup => lookup.2 != .running

/-- Every lookup ends with a result. -/
def Completes (service : LookupService K V) : LookupEvent K V → Prop
  | .close channel => ∀ lookup ∈ service.lookups.lookup channel, lookup.2 ≠ .running
  | _ => True

/-- A result finds its key in the cache, or room. -/
def Fits (service : LookupService K V) : LookupEvent K V → Prop
  | .record channel _ _ => ∀ lookup ∈ service.lookups.lookup channel, lookup.2 = .running →
      (service.cache.entries.lookup lookup.1).isSome ∨ service.cache.entries.size < service.cache.cap
  | _ => True

/-- A lookup that starts drops no result, nor takes the place of one, that a call still has to read. -/
def Spares (service : LookupService K V) : LookupEvent K V → Prop
  | .get _ key now => service.cache.find key now = .starts →
      ∀ entry ∈ service.calls.entries, entry.2.timedOut = false → service.isDone entry.2.channel = true →
        entry.2.key ≠ key ∧
          (service.cache.entries.size < service.cache.cap ∨
            (service.cache.entries.retain fun _ entry => entry.fresh now).size < service.cache.cap ∧
              (service.cache.entries.lookup entry.2.key).all (·.fresh now) = true)
  | _ => True

/-- `None` is returned only where the lookup was still running when the wait was over. -/
def NoneWhenLate (service : LookupService K V) (event : LookupEvent K V) : Prop :=
  service.returns event = some none →
    ∃ call waiting, event = .reread call ∧ service.calls.lookup call = some waiting ∧ waiting.timedOut = true

def WithinCap (service : LookupService K V) : Prop := service.cache.entries.size ≤ service.cache.cap

/-- What the events keep: a placeholder is of a running lookup for its key, and a call whose lookup is
over finds a result. -/
structure Kept (service : LookupService K V) : Prop where
  placeholder : ∀ key channel, service.cache.entries.lookup key = some (.pending channel) →
    service.lookups.lookup channel = some (key, .running)
  channels : ∀ channel, service.nextChannel ≤ channel → service.lookups.lookup channel = none
  waits : ∀ call waiting, service.calls.lookup call = some waiting →
    ∃ state, service.lookups.lookup waiting.channel = some (waiting.key, state) ∧
      (state ≠ .running → waiting.timedOut = false →
        ∃ value expiry, service.cache.entries.lookup waiting.key = some (.known value expiry))

theorem kept_new (cap : Nat) : (new cap : LookupService K V).Kept where
  placeholder := fun key channel hkey => by cases hkey
  channels := fun channel _ => rfl
  waits := fun call waiting hcall => by cases hcall

variable {service : LookupService K V}

theorem Kept.get (h : service.Kept) (call : Nat) (key : K) (now : Nat) (hspares : service.Spares (.get call key now)) :
    (service.step (.get call key now)).Kept := by
  rw [step]
  split
  · exact h
  split
  next => exact h
  next channel hfind =>
    have hrunning := h.placeholder key channel (service.cache.find_eq_joins key now hfind)
    refine ⟨h.placeholder, h.channels, ?_⟩
    intro other waiting hother
    rw [KeyedMap.lookup_insert] at hother
    split at hother
    · cases hother
      exact ⟨.running, hrunning, fun hdone => absurd rfl hdone⟩
    · exact h.waits other waiting hother
  next hfind =>
    have hnew : service.lookups.lookup service.nextChannel = none := h.channels _ (Nat.le_refl _)
    refine ⟨?_, ?_, ?_⟩
    · intro other channel hother
      change AList.lookup other (AList.insert key _ (service.cache.evict now)) = _ at hother
      rw [KeyedMap.lookup_insert] at hother
      rw [KeyedMap.lookup_insert]
      split at hother
      next hsame =>
        cases hother
        rw [if_pos rfl, hsame]
      next =>
        have hrunning := h.placeholder other channel (service.cache.lookup_evict now hother)
        rw [if_neg, hrunning]
        intro hsame
        rw [hsame, hnew] at hrunning
        cases hrunning
    · intro channel hchannel
      have hlater : service.nextChannel + 1 ≤ channel := hchannel
      rw [KeyedMap.lookup_insert, if_neg (by omega)]
      exact h.channels channel (by omega)
    · intro other waiting hother
      rw [KeyedMap.lookup_insert] at hother
      split at hother
      · cases hother
        exact ⟨.running, by rw [KeyedMap.lookup_insert, if_pos rfl], fun hdone => absurd rfl hdone⟩
      · have ⟨state, hlookup, hvalue⟩ := h.waits other waiting hother
        have hold : waiting.channel ≠ service.nextChannel := by
          intro hsame
          rw [hsame, hnew] at hlookup
          cases hlookup
        refine ⟨state, by rw [KeyedMap.lookup_insert, if_neg hold, hlookup], ?_⟩
        intro hdone htime
        have ⟨value, expiry, hentry⟩ := hvalue hdone htime
        have hisDone : service.isDone waiting.channel = true := by simp [isDone, hlookup, hdone]
        have ⟨hkey, hkept⟩ := hspares hfind ⟨other, waiting⟩ (AList.mem_lookup_iff.mp hother) htime hisDone
        refine ⟨value, expiry, ?_⟩
        change AList.lookup waiting.key (AList.insert key _ (service.cache.evict now)) = _
        rw [KeyedMap.lookup_insert, if_neg hkey]
        apply service.cache.lookup_evict_of_kept now hentry
        rw [hentry] at hkept
        exact hkept

/-- The channel of a lookup is none of those to come. -/
theorem Kept.channels_insert (h : service.Kept) {channel : Nat} {found : K × LookupState}
    (hlookup : service.lookups.lookup channel = some found) (entry : K × LookupState) :
    ∀ other, service.nextChannel ≤ other → AList.lookup other (service.lookups.insert channel entry) = none := by
  intro other hother
  rw [KeyedMap.lookup_insert, if_neg]
  · exact h.channels other hother
  · intro hsame
    rw [← hsame, h.channels other hother] at hlookup
    cases hlookup

theorem Kept.record (h : service.Kept) (channel : Nat) (value : V) (expiry : Nat) :
    (service.step (.record channel value expiry)).Kept := by
  rw [step]
  split
  next key hlookup =>
    -- The lookup of the call that has this channel is for the same key.
    have hlookups : ∀ other key' state, service.lookups.lookup other = some (key', state) →
        ∃ state', AList.lookup other (service.lookups.insert channel (key, LookupState.recorded)) = some (key', state') ∧
          (state' ≠ .running → state ≠ .running ∨ key' = key) := by
      intro other key' state hother
      rw [KeyedMap.lookup_insert]
      by_cases hsame : other = channel
      · rw [hsame, hlookup] at hother
        cases hother
        exact ⟨.recorded, if_pos hsame, fun _ => .inr rfl⟩
      · exact ⟨state, (if_neg hsame).trans hother, .inl⟩
    refine ⟨?_, ?_, ?_⟩
    · intro other running hother
      change AList.lookup other (AList.insert key _ service.cache.entries) = _ at hother
      rw [KeyedMap.lookup_insert] at hother
      split at hother
      · cases hother
      next hkey =>
        have hrunning := h.placeholder other running hother
        rw [KeyedMap.lookup_insert, if_neg, hrunning]
        intro hsame
        rw [hsame, hlookup] at hrunning
        cases hrunning
        exact hkey rfl
    · exact h.channels_insert hlookup _
    · intro call waiting hcall
      have ⟨state, hstate, hvalue⟩ := h.waits call waiting hcall
      have ⟨state', hstate', hdone'⟩ := hlookups _ _ _ hstate
      refine ⟨state', hstate', ?_⟩
      intro hdone htime
      change ∃ value' expiry', AList.lookup waiting.key (AList.insert key _ service.cache.entries) = _
      rw [KeyedMap.lookup_insert]
      by_cases hkey : waiting.key = key
      · exact ⟨value, expiry, if_pos hkey⟩
      · rw [if_neg hkey]
        exact hvalue ((hdone' hdone).resolve_right hkey) htime
  next => exact h

theorem Kept.close (h : service.Kept) (channel : Nat) (hcompletes : service.Completes (.close channel)) :
    (service.step (.close channel)).Kept := by
  rw [step]
  split
  next key state hlookup =>
    have hended : state ≠ .running := hcompletes _ hlookup
    refine ⟨?_, ?_, ?_⟩
    · intro other running hother
      have hrunning := h.placeholder other running hother
      rw [KeyedMap.lookup_insert, if_neg, hrunning]
      intro hsame
      rw [hsame, hlookup] at hrunning
      cases hrunning
      exact hended rfl
    · exact h.channels_insert hlookup _
    · intro call waiting hcall
      have ⟨state', hstate', hvalue⟩ := h.waits call waiting hcall
      rw [KeyedMap.lookup_insert]
      by_cases hsame : waiting.channel = channel
      · rw [hsame, hlookup] at hstate'
        cases hstate'
        exact ⟨.closed, if_pos hsame, fun _ => hvalue hended⟩
      · exact ⟨state', (if_neg hsame).trans hstate', hvalue⟩
  next => exact h

theorem Kept.timeOut (h : service.Kept) (call : Nat) : (service.step (.timeOut call)).Kept := by
  rw [step]
  split
  next waiting hcall =>
    split
    · exact h
    · refine ⟨h.placeholder, h.channels, ?_⟩
      intro other called hother
      rw [KeyedMap.lookup_insert] at hother
      split at hother
      · cases hother
        have ⟨state, hstate, _⟩ := h.waits call waiting hcall
        exact ⟨state, hstate, fun _ htime => nomatch htime⟩
      · exact h.waits other called hother
  next => exact h

/-- A call that goes on finds no placeholder of its own lookup. -/
theorem Kept.no_placeholder (h : service.Kept) {call : Nat} {waiting : WaitingCall K}
    (hcall : service.calls.lookup call = some waiting) (hresumes : service.resumes waiting = true) :
    (!waiting.timedOut && (service.cache.entries.lookup waiting.key).any (·.isPending waiting.channel)) = false := by
  cases htime : waiting.timedOut with
  | true => rfl
  | false =>
    have ⟨state, hstate, hvalue⟩ := h.waits call waiting hcall
    have hclosed : state = .closed := by simpa [resumes, isClosed, htime, hstate] using hresumes
    have ⟨value, expiry, hentry⟩ := hvalue (by simp [hclosed]) htime
    rw [hentry]
    rfl

theorem Kept.reread (h : service.Kept) (call : Nat) : (service.step (.reread call)).Kept := by
  rw [step]
  split
  next waiting hcall =>
    split
    next hresumes =>
      have hentries : (service.cache.reread waiting.key waiting.channel (!waiting.timedOut)).1 = service.cache := by
        simp only [LookupCache.reread, h.no_placeholder hcall hresumes]
        rfl
      rw [hentries]
      refine ⟨h.placeholder, h.channels, ?_⟩
      intro other called hother
      by_cases hsame : other = call
      · rw [hsame, AList.lookup_erase] at hother
        cases hother
      · rw [AList.lookup_erase_ne hsame] at hother
        exact h.waits other called hother
    · exact h
  next => exact h

theorem Kept.step (h : service.Kept) (event : LookupEvent K V)
    (hmeets : service.Completes event ∧ service.Spares event) : (service.step event).Kept := by
  cases event with
  | get call key now => exact h.get call key now hmeets.2
  | record channel value expiry => exact h.record channel value expiry
  | close channel => exact h.close channel hmeets.1
  | timeOut call => exact h.timeOut call
  | reread call => exact h.reread call

/-- A call whose lookup is over returns its result. -/
theorem Kept.noneWhenLate (h : service.Kept) (event : LookupEvent K V) : service.NoneWhenLate event := by
  intro hreturns
  cases event with
  | get call key now =>
    rw [returns] at hreturns
    split at hreturns
    · cases hreturns
    split at hreturns <;> cases hreturns
  | reread call =>
    rw [returns] at hreturns
    split at hreturns
    next waiting hcall =>
      split at hreturns
      next hresumes =>
        refine ⟨call, waiting, rfl, hcall, ?_⟩
        cases htime : waiting.timedOut with
        | true => rfl
        | false =>
          have ⟨state, hstate, hvalue⟩ := h.waits call waiting hcall
          have hclosed : state = .closed := by simpa [resumes, isClosed, htime, hstate] using hresumes
          have ⟨value, expiry, hentry⟩ := hvalue (by simp [hclosed]) htime
          simp only [LookupCache.reread, h.no_placeholder hcall hresumes] at hreturns
          simp [hentry, CacheEntry.value] at hreturns
      · cases hreturns
    · cases hreturns
  | record channel value expiry => cases hreturns
  | close channel => cases hreturns
  | timeOut call => cases hreturns

/-! How many keys there are. -/

theorem cap_step (service : LookupService K V) (event : LookupEvent K V) : (service.step event).cache.cap = service.cache.cap := by
  cases event with
  | get call key now =>
    rw [step]
    split
    · rfl
    split <;> rfl
  | record channel value expiry => rw [step]; split <;> rfl
  | close channel => rw [step]; split <;> rfl
  | timeOut call =>
    rw [step]
    split
    · split <;> rfl
    · rfl
  | reread call =>
    rw [step]
    split
    · split <;> rfl
    · rfl

theorem withinCap_step_iff (hcap : 1 ≤ service.cache.cap) (h : service.WithinCap) (event : LookupEvent K V) :
    (service.step event).WithinCap ↔ service.Fits event := by
  cases event with
  | get call key now =>
    rw [step]
    refine iff_of_true ?_ trivial
    split
    · exact h
    split
    · exact h
    · exact h
    · exact service.cache.size_start_le key now hcap service.nextChannel
  | record channel value expiry =>
    rw [step]
    split
    next key hlookup =>
      have hsize := service.cache.size_record_le_iff key value expiry h
      simp only [Fits, hlookup, Option.mem_def, Option.some.injEq, forall_eq', true_imp_iff]
      exact hsize
    next hlookup =>
      refine iff_of_true h ?_
      intro lookup hmem hrunning
      apply absurd _ (hlookup lookup.1)
      rw [← hrunning]
      exact hmem
  | close channel =>
    rw [step]
    refine iff_of_true ?_ trivial
    split
    · exact h
    · exact h
  | timeOut call =>
    rw [step]
    refine iff_of_true ?_ trivial
    split
    · split
      · exact h
      · exact h
    · exact h
  | reread call =>
    rw [step]
    refine iff_of_true ?_ trivial
    split
    · split
      · exact Nat.le_trans (service.cache.size_reread_le _ _ _) h
      · exact h
    · exact h

/-- The cache holds at most as many keys as it may exactly where each result finds its key in it or room;
and where every lookup ends with a result, and no result is dropped before it is read, a call returns
nothing only when its lookup was running after the wait. -/
theorem lookup_cache_contract (cap : Nat) (hcap : 1 ≤ cap) (events : List (LookupEvent K V))
    (hcompletes : Each step Completes (new cap) events) :
    (Always step WithinCap (new cap : LookupService K V) events ↔ Each step Fits (new cap) events) ∧
      (Each step Spares (new cap) events → Each step NoneWhenLate (new cap) events) := by
  constructor
  · apply always_iff_each (fun service => 1 ≤ service.cache.cap) WithinCap Fits
    · intro service event h
      rw [cap_step]
      exact h
    · exact fun service event h hwithin => withinCap_step_iff h hwithin event
    · exact hcap
    · exact Nat.zero_le cap
  · intro hspares
    exact each_of_invariant Kept (fun service event h => h.step event) (fun service event h _ => h.noneWhenLate event)
      events (kept_new cap) (each_and hcompletes hspares)

instance (service : LookupService K V) : ∀ event, Decidable (service.Completes event)
  | .close channel => inferInstanceAs (Decidable (∀ lookup ∈ service.lookups.lookup channel, _))
  | .get .. => .isTrue trivial
  | .record .. => .isTrue trivial
  | .timeOut _ => .isTrue trivial
  | .reread _ => .isTrue trivial

instance (service : LookupService K V) : ∀ event, Decidable (service.Fits event)
  | .record channel _ _ => inferInstanceAs (Decidable (∀ lookup ∈ service.lookups.lookup channel, _))
  | .get .. => .isTrue trivial
  | .close _ => .isTrue trivial
  | .timeOut _ => .isTrue trivial
  | .reread _ => .isTrue trivial

instance [DecidableEq V] (service : LookupService K V) : ∀ event, Decidable (service.Spares event)
  | .record .. => .isTrue trivial
  | .get _ key now => inferInstanceAs (Decidable (service.cache.find key now = .starts → ∀ entry ∈ service.calls.entries, _))
  | .close _ => .isTrue trivial
  | .timeOut _ => .isTrue trivial
  | .reread _ => .isTrue trivial

/-- Two calls share a lookup, and a third one takes its place in a cache for one key. -/
def servedLookups : List (LookupEvent Nat Nat) :=
  [.get 0 1 0, .get 1 1 1, .record 0 7 60, .close 0, .reread 0, .reread 1, .get 2 2 3, .timeOut 2, .reread 2, .record 1 8 60]

theorem lookup_cache_contract_served :
    Always step WithinCap (new 1) servedLookups ∧ Each step NoneWhenLate (new 1) servedLookups :=
  have h := lookup_cache_contract 1 (by decide) servedLookups (by decide)
  ⟨h.1.mpr (by decide), h.2 (by decide)⟩

/-- A lookup whose placeholder was dropped at capacity records its result. -/
def overfull : List (LookupEvent Nat Nat) := [.get 0 1 0, .get 1 2 0, .record 0 7 60, .record 1 8 60]

/-- A result is dropped at capacity before the call that waited for it goes on. -/
def droppedResult : List (LookupEvent Nat Nat) := [.get 0 1 0, .record 0 7 60, .close 0, .get 1 2 1]

theorem lookup_cache_contract_fails :
    (Each step Completes (new 1) overfull ∧ (run step (new 1 : LookupService Nat Nat) overfull).cache.entries.size = 2) ∧
      (Each step Completes (new 1) droppedResult ∧
        (run step (new 1 : LookupService Nat Nat) droppedResult).returns (.reread 0) = some none ∧
        ((run step (new 1 : LookupService Nat Nat) droppedResult).calls.lookup 0).map WaitingCall.timedOut = some false) ∧
      ¬∀ (cap : Nat) (events : List (LookupEvent Nat Nat)), 1 ≤ cap → Each step Completes (new cap) events →
        Always step WithinCap (new cap) events ∧ Each step NoneWhenLate (new cap) events := by
  have hsize : (run step (new 1 : LookupService Nat Nat) overfull).cache.entries.size = 2 := by decide
  refine ⟨⟨by decide, hsize⟩, ⟨by decide, by decide, by decide⟩, ?_⟩
  intro h
  have hwithin := (always_iff_prefixes _ _ _).mp (h 1 overfull (by decide) (by decide)).1 overfull List.prefix_rfl
  change (run step (new 1 : LookupService Nat Nat) overfull).cache.entries.size ≤ 1 at hwithin
  rw [hsize] at hwithin
  exact absurd hwithin (by decide)

end LookupService

end DaygleDns.Policy
