import DaygleDns.Authoritative.SharedCodec

/-! The chain of MACs over the messages of a response: each signed message covers the bytes of
the unsigned ones before it, behind the MAC of the signed message before those. -/
namespace DaygleDns.Authoritative

open Text Framing Fallible

/-- Whether a message is read as one with a signature. -/
def MessageCodec.isSigned (codec : MessageCodec) (raw : Bytes) : Bool :=
  ((codec.fromVec raw).toOption.bind Message.signature).isSome

namespace ResponseVerifier

/-- Check messages in order, each at its own clock reading. -/
def verifyAll (codec : MessageCodec) (verifier : ResponseVerifier) (received : List (Bytes × UInt64)) :
    Except Text ResponseVerifier :=
  received.foldlM (fun verifier message => verifier.verify codec message.1 message.2) verifier

/-- Each message and then the end of the response is accepted. -/
def Accepts (codec : MessageCodec) (key : TsigKey) (requestMac : Bytes) (received : List (Bytes × UInt64)) : Prop :=
  ∃ verifier, (start key requestMac).verifyAll codec received = .ok verifier ∧ verifier.finish = .ok ()

instance decidableAccepts (codec : MessageCodec) (key : TsigKey) (requestMac : Bytes) (received : List (Bytes × UInt64)) :
    Decidable (Accepts codec key requestMac received) :=
  decidable_of_iff (((start key requestMac).verifyAll codec received).toOption.any
    fun verifier => decide (verifier.finish = .ok ())) (by
    unfold Accepts
    cases (start key requestMac).verifyAll codec received with
    | ok verifier => simp [Except.toOption]
    | error message => simp [Except.toOption])

variable {codec : MessageCodec} {verifier after : ResponseVerifier} {raw : Bytes} {now : UInt64}

theorem verifyUnsigned_eq_ok : verifier.verifyUnsigned raw = .ok after ↔
    verifier.first = false ∧ verifier.unsignedCount + 1 ≤ 99 ∧
      after = { verifier with
        unsigned := verifier.unsigned ++ raw
        unsignedCount := verifier.unsignedCount + 1 } := by
  unfold verifyUnsigned
  rw [guard_eq_ok, guard_eq_ok, Bool.not_eq_true, Nat.not_le, Nat.lt_succ_iff, Except.ok.injEq, eq_comm (a := after)]

theorem verifySigned_eq_ok : verifier.verifySigned codec raw now = .ok after ↔
    ∃ body signature, codec.signedBitmessageToBuf raw verifier.first = .ok (body, signature) ∧
      signature.name = verifier.key.name ∧ signature.data.error = none ∧
      codec.verifyMac verifier.key.algorithm verifier.key.secret
        (be16 verifier.previousMac.length ++ verifier.previousMac ++ verifier.unsigned ++ body) signature.data.mac = true ∧
      absDiff now signature.data.time ≤ signature.data.fudge.toUInt64 ∧
      after = { verifier with previousMac := signature.data.mac, first := false, unsigned := [], unsignedCount := 0 } := by
  unfold verifySigned
  rw [bind_eq_ok, Prod.exists]
  apply exists_congr
  intro body
  apply exists_congr
  intro signature
  rw [mapError_eq_ok]
  apply and_congr_right
  intro _
  dsimp only
  rw [throw_bind_eq_ok, not_not]
  apply and_congr_right
  intro _
  cases signature.data.error with
  | some error => exact ⟨fun h => absurd h error_ne_ok, fun h => absurd h.1 (Option.some_ne_none _)⟩
  | none =>
    rw [throw_bind_eq_ok, throw_bind_eq_ok, Bool.not_eq_true', Bool.not_eq_false, UInt64.not_lt, pure_eq, Except.ok.injEq,
      eq_comm (a := after)]
    simp only [true_and]

theorem verify_of_unsigned (h : codec.isSigned raw = false) (hverify : verifier.verify codec raw now = .ok after) :
    (∃ message, codec.fromVec raw = .ok message) ∧ verifier.verifyUnsigned raw = .ok after := by
  unfold verify at hverify
  unfold MessageCodec.isSigned at h
  cases hmessage : codec.fromVec raw with
  | error message =>
    rw [hmessage] at hverify
    cases hverify
  | ok message =>
    rw [hmessage] at hverify h
    have hnone : message.signature = none := Option.not_isSome_iff_eq_none.mp (Bool.eq_false_iff.mp h)
    refine ⟨⟨message, rfl⟩, ?_⟩
    simpa [Except.mapError, hnone] using hverify

theorem verify_of_signed (h : codec.isSigned raw = true) :
    verifier.verify codec raw now = verifier.verifySigned codec raw now := by
  unfold verify
  unfold MessageCodec.isSigned at h
  cases hmessage : codec.fromVec raw with
  | error message =>
    rw [hmessage] at h
    cases h
  | ok message =>
    rw [hmessage] at h
    obtain ⟨signature, hsome⟩ := Option.isSome_iff_exists.mp h
    have hsome : message.signature = some signature := hsome
    simp [Except.mapError, hsome]

theorem finish_eq_ok : verifier.finish = .ok () ↔ verifier.first = false ∧ verifier.unsignedCount = 0 := by
  unfold finish
  rw [guard_eq_ok]
  simp

end ResponseVerifier

/-- A signed message with the unsigned ones before it that its signature covers. -/
structure Segment where
  previousMac : Bytes
  unsigned : List Bytes
  signed : Bytes
  body : Bytes
  signature : TsigRecord

namespace Segment

def messages (segment : Segment) : List Bytes := segment.unsigned ++ [segment.signed]

/-- The bytes of its messages that the signature covers. -/
def covered (segment : Segment) : Bytes := segment.unsigned.flatten ++ segment.body

/-- What the MAC of the segment is computed over. -/
def macInput (segment : Segment) : Bytes := frame segment.previousMac ++ segment.covered

/-- What the verifier makes sure of for a segment. -/
structure Authentic (codec : MessageCodec) (key : TsigKey) (first : Bool) (segment : Segment) : Prop where
  unsigned : ∀ raw ∈ segment.unsigned, codec.isSigned raw = false
  few : segment.unsigned.length ≤ 99
  alone : first = true → segment.unsigned = []
  signed : codec.isSigned segment.signed = true
  reads : codec.signedBitmessageToBuf segment.signed first = .ok (segment.body, segment.signature)
  name : segment.signature.name = key.name
  verifies : codec.verifyMac key.algorithm key.secret segment.macInput segment.signature.data.mac = true

end Segment

/-- Authentic segments, each behind the MAC of the one before. -/
def Chained (codec : MessageCodec) (key : TsigKey) : Bool → Bytes → List Segment → Prop
  | _, _, [] => True
  | first, previousMac, segment :: rest =>
      segment.previousMac = previousMac ∧ segment.Authentic codec key first ∧
        Chained codec key false segment.signature.data.mac rest

/-- The signature of a message and what it covers of the message. -/
def MessageCodec.signedPart (codec : MessageCodec) (first : Bool) (raw : Bytes) : Option (Bytes × TsigRecord) :=
  if codec.isSigned raw then (codec.signedBitmessageToBuf raw first).toOption else none

/-- The segments of the messages that follow the `unsigned` ones. -/
def segmentsFrom (codec : MessageCodec) (first : Bool) (previousMac : Bytes) (unsigned : List Bytes) :
    List Bytes → List Segment
  | [] => []
  | raw :: rest =>
      match codec.signedPart first raw with
      | none => segmentsFrom codec first previousMac (unsigned ++ [raw]) rest
      | some (body, signature) =>
          ⟨previousMac, unsigned, raw, body, signature⟩ :: segmentsFrom codec false signature.data.mac [] rest

def segments (codec : MessageCodec) (requestMac : Bytes) (messages : List Bytes) : List Segment :=
  segmentsFrom codec true requestMac [] messages

def macInputs (codec : MessageCodec) (requestMac : Bytes) (messages : List Bytes) : List Bytes :=
  (segments codec requestMac messages).map Segment.macInput

/-- What a response is whose messages and end are accepted. -/
structure Authenticated (codec : MessageCodec) (key : TsigKey) (requestMac : Bytes) (messages : List Bytes) : Prop where
  firstSigned : messages.head?.any codec.isSigned = true
  lastSigned : messages.getLast?.any codec.isSigned = true
  fewUnsigned : ∀ before unsigned later, messages = before ++ unsigned ++ later →
    (∀ raw ∈ unsigned, codec.isSigned raw = false) → unsigned.length ≤ 99
  inSegments : (segments codec requestMac messages).flatMap Segment.messages = messages
  chained : Chained codec key true requestMac (segments codec requestMac messages)

/-- A response signed message by message: the first in the context of the request, the later
ones from the MAC before them. -/
def signStream (codec : MessageCodec) (key : TsigKey) (requestMac : Bytes) :
    Option Bytes → List (Message × UInt64) → Except Text (List Bytes)
  | _, [] => pure []
  | previousMac, (message, time) :: rest => do
      let body ← codec.toVec message
      let signature ← chunkSignature codec key ⟨message.metadata.id, time, key, requestMac⟩ previousMac body
        message.metadata.id time
      let wire ← codec.toVec { message with signature := some signature }
      let later ← signStream codec key requestMac (some signature.data.mac) rest
      pure (wire :: later)

section Accepted

variable {codec : MessageCodec} {key : TsigKey} {verifier after : ResponseVerifier} {raw : Bytes} {now : UInt64}
  {requestMac : Bytes} {pending : List Bytes} {received : List (Bytes × UInt64)}

/-- The verifier has these messages yet to be covered. -/
structure Awaits (codec : MessageCodec) (verifier : ResponseVerifier) (pending : List Bytes) : Prop where
  bytes : verifier.unsigned = pending.flatten
  count : verifier.unsignedCount = pending.length
  few : pending.length ≤ 99
  unsigned : ∀ raw ∈ pending, codec.isSigned raw = false
  alone : verifier.first = true → pending = []

theorem awaits_unsigned (h : Awaits codec verifier pending) (hraw : codec.isSigned raw = false)
    (hverify : verifier.verify codec raw now = .ok after) :
    Awaits codec after (pending ++ [raw]) ∧ after.first = verifier.first ∧ after.previousMac = verifier.previousMac ∧
      after.key = verifier.key := by
  obtain ⟨hfirst, hfew, rfl⟩ := ResponseVerifier.verifyUnsigned_eq_ok.mp (ResponseVerifier.verify_of_unsigned hraw hverify).2
  refine ⟨⟨?_, ?_, ?_, ?_, ?_⟩, rfl, rfl, rfl⟩
  · simp [h.bytes]
  · simp [h.count]
  · rw [List.length_append, ← h.count]
    exact hfew
  · intro other hother
    rcases List.mem_append.mp hother with hmem | hmem
    · exact h.unsigned other hmem
    · rwa [List.mem_singleton.mp hmem]
  · intro htrue
    exact absurd (hfirst.symm.trans htrue) Bool.false_ne_true

theorem awaits_signed (h : Awaits codec verifier pending) (hraw : codec.isSigned raw = true)
    (hverify : verifier.verify codec raw now = .ok after) :
    ∃ body signature, codec.signedPart verifier.first raw = some (body, signature) ∧
      (Segment.mk verifier.previousMac pending raw body signature).Authentic codec verifier.key verifier.first ∧
      Awaits codec after [] ∧ after.first = false ∧ after.previousMac = signature.data.mac ∧ after.key = verifier.key := by
  rw [ResponseVerifier.verify_of_signed hraw, ResponseVerifier.verifySigned_eq_ok] at hverify
  obtain ⟨body, signature, hreads, hname, _, hmac, _, rfl⟩ := hverify
  have hverifies : codec.verifyMac verifier.key.algorithm verifier.key.secret
      (Segment.mk verifier.previousMac pending raw body signature).macInput signature.data.mac = true := by
    unfold Segment.macInput Segment.covered frame
    rw [← List.append_assoc, ← h.bytes]
    exact hmac
  refine ⟨body, signature, ?_, ⟨h.unsigned, h.few, h.alone, hraw, hreads, hname, hverifies⟩,
    ⟨rfl, rfl, Nat.zero_le _, by simp, fun _ => rfl⟩, rfl, rfl, rfl⟩
  unfold MessageCodec.signedPart
  rw [if_pos hraw, hreads]
  rfl

theorem verifyAll_cons {entry : Bytes × UInt64} {rest : List (Bytes × UInt64)} :
    verifier.verifyAll codec (entry :: rest) = .ok after ↔
      ∃ middle, verifier.verify codec entry.1 entry.2 = .ok middle ∧ middle.verifyAll codec rest = .ok after := by
  unfold ResponseVerifier.verifyAll
  rw [List.foldlM_cons, bind_eq_ok]

theorem verifyAll_append {first second : List (Bytes × UInt64)} :
    verifier.verifyAll codec (first ++ second) = .ok after ↔
      ∃ middle, verifier.verifyAll codec first = .ok middle ∧ middle.verifyAll codec second = .ok after := by
  unfold ResponseVerifier.verifyAll
  rw [List.foldlM_append, bind_eq_ok]

theorem signedPart_of_unsigned {first : Bool} (h : codec.isSigned raw = false) : codec.signedPart first raw = none := by
  unfold MessageCodec.signedPart
  rw [h]
  rfl

/-- The messages of a run fall into chained segments, if it ends with none uncovered. -/
theorem chained_of_verifyAll (h : Awaits codec verifier pending) (hrun : verifier.verifyAll codec received = .ok after)
    (hfinish : after.finish = .ok ()) :
    (segmentsFrom codec verifier.first verifier.previousMac pending (received.map Prod.fst)).flatMap Segment.messages =
        pending ++ received.map Prod.fst ∧
      Chained codec verifier.key verifier.first verifier.previousMac
        (segmentsFrom codec verifier.first verifier.previousMac pending (received.map Prod.fst)) := by
  induction received generalizing verifier pending with
  | nil =>
    cases hrun
    have hnone := (ResponseVerifier.finish_eq_ok.mp hfinish).2
    rw [h.count, List.length_eq_zero_iff] at hnone
    rw [hnone]
    exact ⟨rfl, trivial⟩
  | cons entry rest ih =>
    obtain ⟨middle, hverify, hrest⟩ := verifyAll_cons.mp hrun
    rw [List.map_cons, segmentsFrom]
    cases hsigned : codec.isSigned entry.1 with
    | false =>
      obtain ⟨hawaits, hfirst, hmac, hkey⟩ := awaits_unsigned h hsigned hverify
      have hboth := ih hawaits hrest
      rw [hfirst, hmac, hkey, List.append_assoc] at hboth
      rw [signedPart_of_unsigned hsigned]
      exact hboth
    | true =>
      obtain ⟨body, signature, hpart, hauthentic, hawaits, hfirst, hmac, hkey⟩ := awaits_signed h hsigned hverify
      have hboth := ih hawaits hrest
      rw [hfirst, hmac, hkey, List.nil_append] at hboth
      rw [hpart]
      refine ⟨?_, rfl, hauthentic, hboth.2⟩
      simp only [List.flatMap_cons, hboth.1]
      simp [Segment.messages]

theorem first_signed (hrun : (ResponseVerifier.start key requestMac).verifyAll codec received = .ok after)
    (hfinish : after.finish = .ok ()) : (received.map Prod.fst).head?.any codec.isSigned = true := by
  cases received with
  | nil =>
    cases hrun
    exact absurd (ResponseVerifier.finish_eq_ok.mp hfinish).1.symm Bool.false_ne_true
  | cons entry rest =>
    obtain ⟨middle, hverify, _⟩ := verifyAll_cons.mp hrun
    cases hsigned : codec.isSigned entry.1 with
    | true => exact hsigned
    | false =>
      have hunsigned := ResponseVerifier.verifyUnsigned_eq_ok.mp (ResponseVerifier.verify_of_unsigned hsigned hverify).2
      exact absurd hunsigned.1.symm Bool.false_ne_true

theorem last_signed (hrun : (ResponseVerifier.start key requestMac).verifyAll codec received = .ok after)
    (hfinish : after.finish = .ok ()) : (received.map Prod.fst).getLast?.any codec.isSigned = true := by
  rcases List.eq_nil_or_concat' received with rfl | ⟨front, entry, rfl⟩
  · cases hrun
    exact absurd (ResponseVerifier.finish_eq_ok.mp hfinish).1.symm Bool.false_ne_true
  · obtain ⟨middle, _, hlast⟩ := verifyAll_append.mp hrun
    obtain ⟨final, hverify, hend⟩ := verifyAll_cons.mp hlast
    cases hend
    rw [List.map_append, List.map_singleton, List.getLast?_concat]
    cases hsigned : codec.isSigned entry.1 with
    | true => exact hsigned
    | false =>
      obtain ⟨_, _, rfl⟩ :=
        ResponseVerifier.verifyUnsigned_eq_ok.mp (ResponseVerifier.verify_of_unsigned hsigned hverify).2
      have hnone := (ResponseVerifier.finish_eq_ok.mp hfinish).2
      exact absurd hnone (Nat.succ_ne_zero _)

theorem awaits_verifyAll (h : Awaits codec verifier pending) (hrun : verifier.verifyAll codec received = .ok after) :
    ∃ pending, Awaits codec after pending := by
  induction received generalizing verifier pending with
  | nil =>
    cases hrun
    exact ⟨pending, h⟩
  | cons entry rest ih =>
    obtain ⟨middle, hverify, hrest⟩ := verifyAll_cons.mp hrun
    cases hsigned : codec.isSigned entry.1 with
    | false => exact ih (awaits_unsigned h hsigned hverify).1 hrest
    | true =>
      obtain ⟨_, _, _, _, hawaits, _⟩ := awaits_signed h hsigned hverify
      exact ih hawaits hrest

/-- Unsigned messages are awaited until the next signed one. -/
theorem awaits_run (h : Awaits codec verifier pending) (hunsigned : ∀ entry ∈ received, codec.isSigned entry.1 = false)
    (hrun : verifier.verifyAll codec received = .ok after) : Awaits codec after (pending ++ received.map Prod.fst) := by
  induction received generalizing verifier pending with
  | nil =>
    cases hrun
    simpa using h
  | cons entry rest ih =>
    obtain ⟨middle, hverify, hrest⟩ := verifyAll_cons.mp hrun
    have hawaits := (awaits_unsigned h (hunsigned entry List.mem_cons_self) hverify).1
    have hlater := ih hawaits (fun other hother => hunsigned other (List.mem_cons_of_mem _ hother)) hrest
    rwa [List.append_assoc] at hlater

theorem awaits_start (codec : MessageCodec) (key : TsigKey) (requestMac : Bytes) :
    Awaits codec (ResponseVerifier.start key requestMac) [] :=
  ⟨rfl, rfl, Nat.zero_le _, by simp, fun _ => rfl⟩

theorem authenticated_of_accepts (h : ResponseVerifier.Accepts codec key requestMac received) :
    Authenticated codec key requestMac (received.map Prod.fst) := by
  obtain ⟨after, hrun, hfinish⟩ := h
  have hchained := chained_of_verifyAll (awaits_start codec key requestMac) hrun hfinish
  refine ⟨first_signed hrun hfinish, last_signed hrun hfinish, ?_, hchained.1, hchained.2⟩
  intro before unsigned later hsplit hunsigned
  obtain ⟨front, last, rfl, hfront, _⟩ := List.map_eq_append_iff.mp hsplit
  obtain ⟨first, second, rfl, _, rfl⟩ := List.map_eq_append_iff.mp hfront
  obtain ⟨middle, hmiddle, _⟩ := verifyAll_append.mp hrun
  obtain ⟨_, hfirst, hsecond⟩ := verifyAll_append.mp hmiddle
  obtain ⟨pending, hawaits⟩ := awaits_verifyAll (awaits_start codec key requestMac) hfirst
  have hfew := (awaits_run hawaits (fun entry hentry => hunsigned _ (List.mem_map_of_mem hentry)) hsecond).few
  rw [List.length_append] at hfew
  omega

end Accepted

end DaygleDns.Authoritative
