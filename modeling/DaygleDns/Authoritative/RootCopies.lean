import DaygleDns.Authoritative.RootZone
import DaygleDns.Fallible
import DaygleDns.Runs

/-! A copy of the root zone that is offered was verified, and a source confirmed it within its
expiry, where no source answers with an older serial. -/
namespace DaygleDns.Authoritative.Root

open Text Framing Reading Settings.Runtime Runs

variable {R : Type} {wire : Wire R}

/-! The cache file. -/

theorem readMany_wires (hwire : wire.Lawful) {records : List R} {wires : List Bytes}
    (h : List.Forall₂ (fun record bytes => wire.emit record = .ok bytes) records wires) (n : Nat)
    (hn : n ≤ records.length) : ∃ left, readMany wire.read n wires.flatten = .ok (records.take n, left) := by
  induction h generalizing n with
  | nil =>
    rw [Nat.le_zero.mp hn]
    exact ⟨[], rfl⟩
  | @cons record bytes records wires hemit _ ih =>
    cases n with
    | zero => exact ⟨_, rfl⟩
    | succ n =>
      obtain ⟨left, hleft⟩ := ih n (Nat.le_of_succ_le_succ hn)
      refine ⟨left, ?_⟩
      have hread := (hwire.reads_emit record bytes hemit).whole wires.flatten
      simp only [List.flatten_cons, readMany, bind, StateT.bind, Except.bind, hread, hleft]
      rfl

/-- A file that was written gives the time and the records, as far as their number is kept. -/
theorem decode_encode (hwire : wire.Lawful) {zone : RootZone R} {bytes : Bytes} (h : zone.encode wire = .ok bytes) :
    RootZone.decode wire bytes = .ok (zone.checkedAt, zone.records.take (zone.records.length % 2 ^ 32)) := by
  unfold RootZone.encode at h
  rw [Fallible.bind_eq_ok] at h
  obtain ⟨wires, hwires, hbytes⟩ := h
  rw [Fallible.mapM_eq_ok] at hwires
  have hbytes := Except.ok.inj hbytes
  have htime : ofBeBytes (toBeBytes 8 zone.checkedAt.toNat) = zone.checkedAt.toNat := by
    rw [ofBeBytes_toBeBytes]
    exact Nat.mod_eq_of_lt zone.checkedAt.toNat_lt
  have hcount : ofBeBytes (toBeBytes 4 zone.records.length) = zone.records.length % 2 ^ 32 := ofBeBytes_toBeBytes ..
  obtain ⟨left, hread⟩ := readMany_wires hwire hwires (zone.records.length % 2 ^ 32) (Nat.mod_le ..)
  have hfirst : bytes.take CACHE_MAGIC.length = CACHE_MAGIC := by
    rw [← hbytes, List.append_assoc, List.append_assoc]
    exact List.take_left
  have hsecond : (bytes.drop CACHE_MAGIC.length).take 8 = toBeBytes 8 zone.checkedAt.toNat := by
    rw [← hbytes, List.append_assoc, List.append_assoc, List.drop_left]
    exact List.take_left' (length_toBeBytes ..)
  have hthird : (bytes.drop (CACHE_MAGIC.length + 8)).take 4 = toBeBytes 4 zone.records.length := by
    rw [← hbytes, List.append_assoc, List.append_assoc, ← List.drop_drop, List.drop_left,
      List.drop_left' (length_toBeBytes ..)]
    exact List.take_left' (length_toBeBytes ..)
  have hrest : bytes.drop (CACHE_MAGIC.length + 12) = wires.flatten := by
    rw [← hbytes]
    apply List.drop_left'
    simp
  have hlength : ¬ bytes.length < CACHE_MAGIC.length + 12 := by
    rw [← hbytes]
    simp only [List.length_append, length_toBeBytes]
    omega
  simp only [RootZone.decode, hfirst, hsecond, hthird, hrest, hlength, ne_eq, not_true_eq_false, or_self, if_false,
    htime, hcount, hread, UInt64.ofNat_toNat]

/-! What a step keeps. -/

def Confirmation.source : Confirmation R → Text
  | .transfer source _ _ => source
  | .sameSerial source _ _ => source

def Confirmation.time : Confirmation R → UInt64
  | .transfer _ _ time => time
  | .sameSerial _ _ time => time

/-- The source sent the zone, or has its serial. -/
def Confirmation.Confirms (zone : RootZone R) : Confirmation R → Prop
  | .transfer _ records _ => zone.records <+: records
  | .sameSerial _ serial _ => serial = zone.serial

/-- The zone was built from records that passed the verification. -/
def Verified (wire : Wire R) (zone : RootZone R) : Prop :=
  ∃ records anchor now, wire.verifyZone records anchor now = .ok () ∧
    RootZone.build wire records zone.checkedAt = .ok zone

/-- The last check of the zone is one of the confirmations. -/
def Known (confirmations : List (Confirmation R)) (zone : RootZone R) : Prop :=
  ∃ c ∈ confirmations, c.Confirms zone ∧ c.time = zone.checkedAt

/-- The zone was verified, and a configured source confirmed it less than its expiry ago. -/
def Backed (wire : Wire R) (w : LocalRoot R) (zone : RootZone R) : Prop :=
  Verified wire zone ∧ ∃ c ∈ w.confirmations, c.source ∈ w.configured ∧ c.Confirms zone ∧
    w.clock.toNat < c.time.toNat + zone.expire.toNat

/-- No source answers with a serial that is neither the copy's own nor a newer one. -/
def Forward (w : LocalRoot R) : Event R → Prop
  | .soaAnswer answer _ =>
      ∀ source rest zone serial, w.phase = .asking source rest zone → answer = .ok (some serial) →
        serial = zone.serial ∨ serialNewer serial zone.serial = true
  | _ => True

def PhaseSound (wire : Wire R) (w : LocalRoot R) : Phase R → Prop
  | .idle => True
  | .asking source rest zone =>
      Verified wire zone ∧ Known w.confirmations zone ∧ ∀ s ∈ source :: rest, s ∈ w.configured
  | .transferring source rest => ∀ s ∈ source :: rest, s ∈ w.configured

/-- What runs keep of the copies: in memory, under way, and in the file. -/
structure Sound (wire : Wire R) (w : LocalRoot R) : Prop where
  zone : ∀ zone, w.zone = some zone → Verified wire zone ∧ Known w.confirmations zone
  phase : PhaseSound wire w w.phase
  cache : ∀ bytes, w.cache = some bytes →
    ∃ zone, zone.encode wire = .ok bytes ∧ Verified wire zone ∧ Known w.confirmations zone
  settings : ∀ source ∈ effectiveSources wire w.settings, source ∈ w.configured
  confirmed : ∀ c ∈ w.confirmations, c.source ∈ w.configured

theorem Known.mono {confirmations more : List (Confirmation R)} {zone : RootZone R} (h : Known confirmations zone)
    (hmore : ∀ c ∈ confirmations, c ∈ more) : Known more zone := by
  obtain ⟨c, hc, hconfirms⟩ := h
  exact ⟨c, hmore c hc, hconfirms⟩

/-- The time is only carried along. -/
theorem build_checkedAt {records : List R} {zone : RootZone R} {time : UInt64}
    (h : RootZone.build wire records time = .ok zone) (later : UInt64) :
    RootZone.build wire records later = .ok { zone with checkedAt := later } := by
  unfold RootZone.build at h ⊢
  cases hsoa : (withoutRepeat wire records).findSome? wire.rootSoa with
  | none => simp only [hsoa] at h; cases h
  | some soa =>
    simp only [hsoa] at h ⊢
    cases h
    rfl

theorem build_time {records : List R} {zone : RootZone R} {time : UInt64}
    (h : RootZone.build wire records time = .ok zone) : zone.checkedAt = time := by
  have hsame := h.symm.trans (build_checkedAt h time)
  exact congrArg RootZone.checkedAt (Except.ok.inj hsame)

theorem withoutRepeat_leads (records : List R) : withoutRepeat wire records <+: records := by
  unfold withoutRepeat
  split
  · split
    · exact List.dropLast_prefix records
    · exact List.prefix_rfl
  · exact List.prefix_rfl

/-- What is built has records of the list, and the numbers of their first SOA. -/
theorem build_spec {records : List R} {zone : RootZone R} {time : UInt64}
    (h : RootZone.build wire records time = .ok zone) :
    zone.records <+: records ∧ ∃ soa, zone.records.findSome? wire.rootSoa = some soa ∧ zone.serial = soa.serial := by
  unfold RootZone.build at h
  cases hsoa : (withoutRepeat wire records).findSome? wire.rootSoa with
  | none => simp only [hsoa] at h; cases h
  | some soa =>
    simp only [hsoa] at h
    cases h
    exact ⟨withoutRepeat_leads records, soa, hsoa, rfl⟩

theorem findSome?_of_lead {part whole : List R} {soa : Soa} (hlead : part <+: whole)
    (h : part.findSome? wire.rootSoa = some soa) : whole.findSome? wire.rootSoa = some soa := by
  obtain ⟨rest, rfl⟩ := hlead
  rw [List.findSome?_append, h]
  rfl

section Steps

variable {w : LocalRoot R}

theorem Sound.withPhase (h : Sound wire w) {phase : Phase R} (hphase : PhaseSound wire w phase) :
    Sound wire { w with phase := phase } := ⟨h.zone, hphase, h.cache, h.settings, h.confirmed⟩

theorem sound_nextSource (h : Sound wire w) {sources : List Text} (hsources : ∀ s ∈ sources, s ∈ w.configured) :
    Sound wire (w.nextSource wire sources) := by
  induction sources with
  | nil => exact h.withPhase trivial
  | cons source rest ih =>
    unfold LocalRoot.nextSource
    split
    · exact ih fun s hs => hsources s (List.mem_cons_of_mem source hs)
    · split
      next zone hzone =>
        obtain ⟨hverified, hknown⟩ := h.zone zone hzone
        have hphase : PhaseSound wire w (.asking source rest zone) := ⟨hverified, hknown, hsources⟩
        exact h.withPhase hphase
      next =>
        have hphase : PhaseSound wire w (.transferring source rest) := hsources
        exact h.withPhase hphase

/-- A file that was saved, or left as it was. -/
theorem cache_writeCache (h : Sound wire w) {zone : RootZone R} (hverified : Verified wire zone)
    {confirmations : List (Confirmation R)} (hknown : Known confirmations zone)
    (hmore : ∀ c ∈ w.confirmations, c ∈ confirmations) (saves : Bool) {bytes : Bytes}
    (hbytes : LocalRoot.writeCache wire saves zone w.cache = some bytes) :
    ∃ zone, zone.encode wire = .ok bytes ∧ Verified wire zone ∧ Known confirmations zone := by
  have hkept : w.cache = some bytes →
      ∃ zone, zone.encode wire = .ok bytes ∧ Verified wire zone ∧ Known confirmations zone := by
    intro hcache
    obtain ⟨old, hencode, hold, holdKnown⟩ := h.cache bytes hcache
    exact ⟨old, hencode, hold, holdKnown.mono hmore⟩
  unfold LocalRoot.writeCache at hbytes
  cases hencode : zone.encode wire with
  | error e =>
    rw [hencode] at hbytes
    exact hkept hbytes
  | ok written =>
    rw [hencode] at hbytes
    cases saves with
    | false => exact hkept hbytes
    | true =>
      cases hbytes
      exact ⟨zone, hencode, hverified, hknown⟩

theorem sound_stillCurrent (h : Sound wire w) {source : Text} {rest : List Text} {zone : RootZone R}
    (hphase : w.phase = .asking source rest zone) (saves : Bool) :
    Sound wire (w.stillCurrent wire source zone.serial saves zone) := by
  have hasked := h.phase
  rw [hphase] at hasked
  obtain ⟨⟨records, anchor, now, hverify, hbuild⟩, -, hsources⟩ := hasked
  have hverified : Verified wire { zone with checkedAt := w.clock } :=
    ⟨records, anchor, now, hverify, build_checkedAt hbuild w.clock⟩
  have hknown : Known (.sameSerial source zone.serial w.clock :: w.confirmations) { zone with checkedAt := w.clock } :=
    ⟨_, List.mem_cons_self, rfl, rfl⟩
  have hmore : ∀ c ∈ w.confirmations, c ∈ .sameSerial source zone.serial w.clock :: w.confirmations :=
    fun c hc => List.mem_cons_of_mem _ hc
  unfold LocalRoot.stillCurrent
  rw [if_pos rfl]
  refine ⟨?_, trivial, ?_, h.settings, ?_⟩
  · intro current hcurrent
    cases hzone : w.zone with
    | none => rw [hzone] at hcurrent; cases hcurrent
    | some before =>
      rw [hzone] at hcurrent
      cases hcurrent
      exact ⟨hverified, hknown⟩
  · intro bytes hbytes
    exact cache_writeCache h hverified hknown hmore saves hbytes
  · intro c hc
    cases List.mem_cons.mp hc with
    | inl hsame =>
      rw [hsame]
      exact hsources source List.mem_cons_self
    | inr hold => exact h.confirmed c hold

theorem sound_transferred (h : Sound wire w) {source : Text} {rest : List Text}
    (hphase : w.phase = .transferring source rest) (records : List R) (saves : Bool) :
    Sound wire (w.transferred wire source rest records saves) := by
  have hsources := h.phase
  rw [hphase] at hsources
  have hnext := sound_nextSource h fun s hs => hsources s (List.mem_cons_of_mem source hs)
  unfold LocalRoot.transferred
  split
  next zone hverify hbuild =>
    have htime := build_time hbuild
    have hverified : Verified wire zone := ⟨records, _, _, hverify, by rw [htime]; exact hbuild⟩
    have hknown : Known (.transfer source records w.clock :: w.confirmations) zone :=
      ⟨_, List.mem_cons_self, (build_spec hbuild).1, htime.symm⟩
    refine ⟨?_, trivial, ?_, h.settings, ?_⟩
    · intro current hcurrent
      cases hcurrent
      exact ⟨hverified, hknown⟩
    · intro bytes hbytes
      exact cache_writeCache h hverified hknown (fun c hc => List.mem_cons_of_mem _ hc) saves hbytes
    · intro c hc
      cases List.mem_cons.mp hc with
      | inl hsame =>
        rw [hsame]
        exact hsources source List.mem_cons_self
      | inr hold => exact h.confirmed c hold
  next => exact hnext

/-- A copy that is read back is the one that was written, as far as its records go. -/
theorem sound_loaded (hwire : wire.Lawful) (h : Sound wire w) {bytes : Bytes} (hcache : w.cache = some bytes) :
    Sound wire (w.loaded wire bytes) := by
  obtain ⟨written, hencode, hwritten, hknown⟩ := h.cache bytes hcache
  unfold LocalRoot.loaded
  rw [decode_encode hwire hencode]
  simp only
  split
  next zone hverify hbuild =>
    split
    next =>
      have htime := build_time hbuild
      obtain ⟨hlead, soa, hsoa, hserial⟩ := build_spec hbuild
      have hlead := hlead.trans (List.take_prefix _ written.records)
      refine ⟨?_, h.phase, h.cache, h.settings, h.confirmed⟩
      intro current hcurrent
      cases hcurrent
      refine ⟨⟨_, _, _, hverify, by rw [htime]; exact hbuild⟩, ?_⟩
      obtain ⟨c, hc, hconfirms, hctime⟩ := hknown
      refine ⟨c, hc, ?_, hctime.trans htime.symm⟩
      cases c with
      | transfer source records time => exact hlead.trans hconfirms
      | sameSerial source serial time =>
        obtain ⟨_, _, _, _, hwrittenBuild⟩ := hwritten
        obtain ⟨-, first, hfirst, hfirstSerial⟩ := build_spec hwrittenBuild
        have hsame := hfirst.symm.trans (findSome?_of_lead hlead hsoa)
        change serial = zone.serial
        rw [hserial, ← Option.some.inj hsame, ← hfirstSerial]
        exact hconfirms
    next => exact h
  next => exact h

/-- New settings add their sources. -/
theorem PhaseSound.mono {phase : Phase R} {after : LocalRoot R} (h : PhaseSound wire w phase)
    (hconfirmations : after.confirmations = w.confirmations) (hmore : ∀ s ∈ w.configured, s ∈ after.configured) :
    PhaseSound wire after phase := by
  cases phase with
  | idle => trivial
  | asking source rest zone =>
    obtain ⟨hverified, hknown, hsources⟩ := h
    exact ⟨hverified, hconfirmations ▸ hknown, fun s hs => hmore s (hsources s hs)⟩
  | transferring source rest => exact fun s hs => hmore s (h s hs)

/-- New settings, which may drop the copy, the file and the refresh under way. -/
theorem sound_settings (h : Sound wire w) (settings : LocalRootSettings) {zone : Option (RootZone R)}
    (hzone : zone = w.zone ∨ zone = none) {cache : Option Bytes} (hcache : cache = w.cache ∨ cache = none)
    {phase : Phase R} (hphase : phase = w.phase ∨ phase = .idle) :
    Sound wire { w with
      settings := settings, zone := zone, cache := cache, phase := phase
      configured := effectiveSources wire settings ++ w.configured } := by
  constructor
  · intro current hcurrent
    cases hzone with
    | inl hsame => exact h.zone current (hsame.symm.trans hcurrent)
    | inr hdropped => rw [hdropped] at hcurrent; cases hcurrent
  · cases hphase with
    | inl hsame =>
      change PhaseSound wire _ phase
      rw [hsame]
      exact h.phase.mono rfl fun s hs => List.mem_append_right _ hs
    | inr hidle =>
      change PhaseSound wire _ phase
      rw [hidle]
      trivial
  · intro bytes hbytes
    cases hcache with
    | inl hsame => exact h.cache bytes (hsame.symm.trans hbytes)
    | inr hdropped => rw [hdropped] at hbytes; cases hbytes
  · exact fun s hs => List.mem_append_left _ hs
  · exact fun c hc => List.mem_append_right _ (h.confirmed c hc)

theorem sound_step (hwire : wire.Lawful) (h : Sound wire w) (e : Event R) (hforward : Forward w e) :
    Sound wire (w.step wire e) := by
  cases e with
  | tick now =>
    simp only [LocalRoot.step]
    split
    · exact ⟨h.zone, h.phase, h.cache, h.settings, h.confirmed⟩
    · exact h
  | setSettings settings removes =>
    simp only [LocalRoot.step]
    split
    · exact h
    · split
      · exact sound_settings h settings (.inl rfl) (.inl rfl) (.inl rfl)
      · apply sound_settings h settings (.inr rfl) _ (.inl rfl)
        cases removes with
        | true => exact .inr rfl
        | false => exact .inl rfl
  | restart settings => exact sound_settings h settings (.inr rfl) (.inl rfl) (.inr rfl)
  | loadCache reads =>
    simp only [LocalRoot.step]
    split
    next bytes _ _ hcache =>
      split
      · exact sound_loaded hwire h hcache
      · exact h
    next => exact h
  | startRefresh =>
    simp only [LocalRoot.step]
    split
    · exact sound_nextSource h h.settings
    · exact h
  | soaAnswer answer saves =>
    simp only [LocalRoot.step]
    cases hphase : w.phase with
    | idle => exact h
    | transferring source rest => exact h
    | asking source rest zone =>
      have hasked := h.phase
      rw [hphase] at hasked
      have htransfer : PhaseSound wire w (.transferring source rest) := hasked.2.2
      cases answer with
      | error e => exact sound_nextSource h fun s hs => hasked.2.2 s (List.mem_cons_of_mem source hs)
      | ok serial =>
        cases serial with
        | none => exact h.withPhase htransfer
        | some serial =>
          simp only
          split
          · exact h.withPhase htransfer
          next hnewer =>
            cases hforward source rest zone serial hphase rfl with
            | inl hsame =>
              rw [hsame]
              exact sound_stillCurrent h hphase saves
            | inr hlater => exact absurd hlater hnewer
  | axfrAnswer answer saves =>
    simp only [LocalRoot.step]
    cases hphase : w.phase with
    | idle => exact h
    | asking source rest zone => exact h
    | transferring source rest =>
      have hsources := h.phase
      rw [hphase] at hsources
      cases answer with
      | error e => exact sound_nextSource h fun s hs => hsources s (List.mem_cons_of_mem source hs)
      | ok records => exact sound_transferred h hphase records saves

/-- The sum wraps around at most to an earlier time. -/
theorem lt_of_isCurrent {zone : RootZone R} {now : UInt64} (h : zone.isCurrent now = true) :
    now.toNat < zone.checkedAt.toNat + zone.expire.toNat := by
  have hlt := UInt64.lt_iff_toNat_lt.mp (of_decide_eq_true h)
  unfold RootZone.expiresAt at hlt
  rw [UInt64.toNat_add, UInt32.toNat_toUInt64] at hlt
  exact lt_of_lt_of_le hlt (Nat.mod_le ..)

/-- What is offered is backed. -/
theorem Sound.backed (h : Sound wire w) {zone : RootZone R} (hoffered : w.currentZone = some zone) :
    Backed wire w zone := by
  unfold LocalRoot.currentZone at hoffered
  split at hoffered
  · rw [Option.filter_eq_some_iff] at hoffered
    obtain ⟨hverified, c, hc, hconfirms, htime⟩ := h.zone zone hoffered.1
    refine ⟨hverified, c, hc, h.confirmed c hc, hconfirms, ?_⟩
    rw [htime]
    exact lt_of_isCurrent hoffered.2
  · cases hoffered

end Steps

/-- Where no source answers with an older serial, every copy that is offered was verified, and a
configured source confirmed it less than its expiry ago. -/
theorem copies_confirmed (hwire : wire.Lawful) (settings : LocalRootSettings) (clock : UInt64) (events : List (Event R))
    (hforward : Each (LocalRoot.step wire) Forward (LocalRoot.first wire settings clock) events) :
    Always (LocalRoot.step wire) (fun w => ∀ zone, w.currentZone = some zone → Backed wire w zone)
      (LocalRoot.first wire settings clock) events := by
  have hstart : Sound wire (LocalRoot.first wire settings clock) := by
    refine ⟨?_, trivial, ?_, fun s hs => hs, ?_⟩
    · intro zone hzone
      cases hzone
    · intro bytes hbytes
      cases hbytes
    · intro c hc
      cases hc
  have hsound := always_of_invariant (Sound wire) (fun _ e h => sound_step hwire h e) events hstart hforward
  apply always_mono _ hsound
  intro w h zone hoffered
  exact h.backed hoffered

/-! A root whose records are serials, each good for a hundred seconds. -/

def serialWire : Wire UInt32 where
  rootSoa := fun serial => some ⟨serial, 30, 10, 100⟩
  same := fun first second => first == second
  emit := fun serial => .ok (toBeBytes 4 serial.toNat)
  read := UInt32.ofNat <$> be "unexpected end of input".toList 4
  masterAddr := fun source => (parseIpv4 source).map .v4
  verifyZone := fun _ _ _ => .ok ()

theorem serialWire_lawful : serialWire.Lawful := by
  constructor
  intro serial bytes hemit
  cases hemit
  have hread := reads_map UInt32.ofNat (reads_be "unexpected end of input".toList (show serial.toNat < 256 ^ 4 from serial.toNat_lt))
  rw [UInt32.ofNat_toNat] at hread
  exact hread

def rootSettings : LocalRootSettings := ⟨true, ["192.0.2.1".toList, "192.0.2.2".toList], none, .both⟩

/-- The zone with the serial 10, transferred at 1000 and asked about at 1090. -/
def askedAgain : List (Event UInt32) := [.startRefresh, .axfrAnswer (.ok [10]) true, .tick 1090, .startRefresh]

/-- An answer with the serial 9 lets the copy live on. -/
theorem older_serial_extends : ¬ ∀ (settings : LocalRootSettings) (clock : UInt64) (events : List (Event UInt32)),
    Always (LocalRoot.step serialWire) (fun w => ∀ zone, w.currentZone = some zone → Backed serialWire w zone)
      (LocalRoot.first serialWire settings clock) events := by
  intro h
  have hrun := h rootSettings 1000 (askedAgain ++ [.soaAnswer (.ok (some 9)) true, .tick 1150])
  obtain ⟨-, c, hc, -, -, htime⟩ :=
    (always_iff_prefixes _ _ _).mp hrun _ List.prefix_rfl ⟨10, 30, 10, 100, 1090, [10]⟩ (by decide)
  have hmem : c ∈ [Confirmation.transfer "192.0.2.1".toList [(10 : UInt32)] 1000] := hc
  rw [List.mem_singleton.mp hmem] at htime
  revert htime
  decide

/-- The same serial confirms it, also through a restart. -/
theorem same_serial_confirms :
    Always (LocalRoot.step serialWire) (fun w => ∀ zone, w.currentZone = some zone → Backed serialWire w zone)
      (LocalRoot.first serialWire rootSettings 1000)
      (askedAgain ++ [.soaAnswer (.ok (some 10)) true, .restart rootSettings, .tick 1150, .loadCache true]) := by
  apply copies_confirmed serialWire_lawful
  refine ⟨trivial, trivial, trivial, trivial, ?_, trivial, trivial, trivial, trivial⟩
  intro source rest zone serial hphase hanswer
  cases hphase
  cases hanswer
  exact .inl rfl

end DaygleDns.Authoritative.Root
