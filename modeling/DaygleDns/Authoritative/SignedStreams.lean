import DaygleDns.Authoritative.ResponseChain
import DaygleDns.Authoritative.Transfer
import DaygleDns.Authoritative.TsigBindings
import Mathlib.Data.List.Flatten

/-! What the MACs of a response fix of its messages, and that a response as it is signed is
accepted. -/
namespace DaygleDns.Authoritative

open Text Framing Fallible

section Compared

variable {codec : MessageCodec} {key : TsigKey} {requestMac previousMac previousMac' : Bytes} {first first' : Bool}
  {messages : List Bytes} {chain chain' : List Segment}

namespace Segment

/-- A segment without the messages before the signed one. -/
def bare (segment : Segment) : Segment := { segment with unsigned := [] }

theorem length_macInput (segment : Segment) :
    segment.macInput.length = segment.bare.macInput.length + segment.unsigned.flatten.length := by
  unfold macInput covered bare
  simp only [List.length_append, List.flatten_nil, List.length_nil]
  omega

end Segment

theorem mem_chained (h : Chained codec key first previousMac chain) :
    ∀ segment ∈ chain, ∃ first, segment.Authentic codec key first := by
  induction chain generalizing first previousMac with
  | nil => simp
  | cons segment rest ih =>
    intro other hother
    rcases List.mem_cons.mp hother with rfl | hmem
    · exact ⟨first, h.2.1⟩
    · exact ih h.2.2 other hmem

theorem filter_unsigned {segment : Segment} (h : segment.Authentic codec key first) :
    (segment.messages.filter fun raw => !codec.isSigned raw) = segment.unsigned := by
  have hkept : (segment.unsigned.filter fun raw => !codec.isSigned raw) = segment.unsigned := by
    apply List.filter_eq_self.mpr
    intro raw hraw
    rw [h.unsigned raw hraw]
    rfl
  simp [Segment.messages, hkept, h.signed]

theorem filter_signed {segment : Segment} (h : segment.Authentic codec key first) :
    segment.messages.filter codec.isSigned = [segment.signed] := by
  have hnone : segment.unsigned.filter codec.isSigned = [] := by
    apply List.filter_eq_nil_iff.mpr
    intro raw hraw
    rw [h.unsigned raw hraw]
    exact Bool.false_ne_true
  simp [Segment.messages, hnone, h.signed]

theorem unsigned_of_chained (h : Chained codec key first previousMac chain) :
    ((chain.flatMap Segment.messages).filter fun raw => !codec.isSigned raw) = chain.flatMap Segment.unsigned := by
  rw [List.filter_flatMap]
  apply List.flatMap_congr
  intro segment hsegment
  obtain ⟨_, hauthentic⟩ := mem_chained h segment hsegment
  exact filter_unsigned hauthentic

theorem signed_of_chained (h : Chained codec key first previousMac chain) :
    (chain.flatMap Segment.messages).filter codec.isSigned = chain.map Segment.signed := by
  rw [List.filter_flatMap, List.map_eq_flatMap]
  apply List.flatMap_congr
  intro segment hsegment
  obtain ⟨_, hauthentic⟩ := mem_chained h segment hsegment
  exact filter_signed hauthentic

/-- Without its unsigned messages a segment is the same, whichever those are. -/
theorem bare_segmentsFrom (codec : MessageCodec) (first : Bool) (previousMac : Bytes) (pending pending' messages : List Bytes) :
    (segmentsFrom codec first previousMac pending messages).map Segment.bare =
      (segmentsFrom codec first previousMac pending' (messages.filter codec.isSigned)).map Segment.bare := by
  induction messages generalizing first previousMac pending pending' with
  | nil => rfl
  | cons raw rest ih =>
    cases hsigned : codec.isSigned raw with
    | false =>
      rw [List.filter_cons_of_neg (by rw [hsigned]; exact Bool.false_ne_true), segmentsFrom,
        signedPart_of_unsigned hsigned]
      exact ih first previousMac _ pending'
    | true =>
      rw [List.filter_cons_of_pos hsigned, segmentsFrom, segmentsFrom]
      cases codec.signedPart first raw with
      | none => exact ih first previousMac _ _
      | some part =>
        rw [List.map_cons, List.map_cons, ih false part.2.data.mac [] []]
        rfl

theorem length_macInputs (chain : List Segment) :
    (chain.map Segment.macInput).flatten.length =
      ((chain.map Segment.bare).map Segment.macInput).flatten.length + (chain.flatMap Segment.unsigned).flatten.length := by
  induction chain with
  | nil => rfl
  | cons segment rest ih =>
    simp only [List.map_cons, List.flatten_cons, List.length_append, List.flatMap_cons, List.flatten_append,
      segment.length_macInput, ih]
    omega

theorem signed_messages (h : Authenticated codec key requestMac messages) :
    messages.filter codec.isSigned = (segments codec requestMac messages).map Segment.signed := by
  have hsigned := signed_of_chained h.chained
  rwa [h.inSegments] at hsigned

theorem unsigned_messages (h : Authenticated codec key requestMac messages) :
    (messages.filter fun raw => !codec.isSigned raw) = (segments codec requestMac messages).flatMap Segment.unsigned := by
  have hunsigned := unsigned_of_chained h.chained
  rwa [h.inSegments] at hunsigned

/-- With the same signed messages and MAC inputs there are as many unsigned bytes. -/
theorem unsigned_bytes_eq {messages' : List Bytes} (h : Authenticated codec key requestMac messages)
    (h' : Authenticated codec key requestMac messages')
    (hsigned : messages.filter codec.isSigned = messages'.filter codec.isSigned)
    (hsame : macInputs codec requestMac messages = macInputs codec requestMac messages') :
    (messages.filter fun raw => !codec.isSigned raw).flatten.length =
      (messages'.filter fun raw => !codec.isSigned raw).flatten.length := by
  have hbare : (segments codec requestMac messages).map Segment.bare =
      (segments codec requestMac messages').map Segment.bare := by
    unfold segments
    rw [bare_segmentsFrom codec true requestMac [] [] messages, bare_segmentsFrom codec true requestMac [] [] messages',
      hsigned]
  have hbytes := length_macInputs (segments codec requestMac messages)
  have hbytes' := length_macInputs (segments codec requestMac messages')
  unfold macInputs at hsame
  rw [hsame, hbare] at hbytes
  rw [unsigned_messages h, unsigned_messages h']
  omega

theorem eq_of_flatten_length {few all : List Bytes} (hsub : few.Sublist all) (hne : ∀ raw ∈ all, raw ≠ [])
    (h : few.flatten.length = all.flatten.length) : few = all := by
  induction hsub with
  | slnil => rfl
  | cons raw hrest ih =>
    have hle := hrest.flatten.length_le
    have hpos := List.length_pos_iff.mpr (hne raw List.mem_cons_self)
    rw [List.flatten_cons, List.length_append] at h
    omega
  | cons_cons raw _ ih =>
    simp only [List.flatten_cons, List.length_append, Nat.add_left_cancel_iff] at h
    rw [ih (fun other hother => hne other (List.mem_cons_of_mem _ hother)) h]

/-- A response cannot have messages more and the same MAC inputs. -/
theorem eq_of_sublist {messages' : List Bytes} (h : Authenticated codec key requestMac messages)
    (h' : Authenticated codec key requestMac messages') (hsub : messages.Sublist messages')
    (hne : ∀ raw ∈ messages', raw ≠ [])
    (hsame : macInputs codec requestMac messages = macInputs codec requestMac messages') : messages = messages' := by
  have hsigned : messages.filter codec.isSigned = messages'.filter codec.isSigned := by
    have hlength := congrArg List.length hsame
    unfold macInputs at hlength
    rw [List.length_map, List.length_map] at hlength
    apply (hsub.filter _).eq_of_length
    rw [signed_messages h, signed_messages h', List.length_map, List.length_map, hlength]
  have hunsigned : (messages.filter fun raw => !codec.isSigned raw) = messages'.filter fun raw => !codec.isSigned raw :=
    eq_of_flatten_length (hsub.filter _) (fun raw hraw => hne raw (List.mem_of_mem_filter hraw))
      (unsigned_bytes_eq h h' hsigned hsame)
  apply hsub.eq_of_length
  rw [List.length_eq_length_filter_add codec.isSigned, hsigned, hunsigned, ← List.length_eq_length_filter_add]

theorem frame_append_injective {a b rest rest' : Bytes} (ha : a.length < 65536) (hb : b.length < 65536)
    (h : frame a ++ rest = frame b ++ rest') : a = b ∧ rest = rest' := by
  have hread := congrArg readLength h
  rw [readLength_frame ha, readLength_frame hb, Option.some.injEq, Prod.mk.injEq] at hread
  exact List.append_inj hread.2 hread.1

/-- The MAC inputs of two responses to a request are the same only if their segments cover the
same bytes behind the same MACs. -/
theorem macInputs_eq_iff {tsigFields : Text → Tsig → Bytes} (hcodec : codec.Lawful tsigFields)
    (h : Chained codec key first previousMac chain) (h' : Chained codec key first' previousMac' chain')
    (hmacs : previousMac = previousMac' ∨ previousMac.length < 65536 ∧ previousMac'.length < 65536) :
    chain.map Segment.macInput = chain'.map Segment.macInput ↔
      chain.map (fun segment => (segment.previousMac, segment.covered)) =
        chain'.map fun segment => (segment.previousMac, segment.covered) := by
  induction chain generalizing first first' previousMac previousMac' chain' with
  | nil => cases chain' <;> simp
  | cons segment rest ih =>
    cases chain' with
    | nil => simp
    | cons segment' rest' =>
      obtain ⟨hprevious, hauthentic, hrest⟩ := h
      obtain ⟨hprevious', hauthentic', hrest'⟩ := h'
      have hlater := ih hrest hrest' (.inr ⟨hcodec.macSize hauthentic.reads, hcodec.macSize hauthentic'.reads⟩)
      simp only [List.map_cons, List.cons.injEq, Prod.mk.injEq, hlater]
      apply and_congr_left
      intro _
      constructor
      · intro hinput
        unfold Segment.macInput at hinput
        rw [hprevious, hprevious'] at hinput ⊢
        rcases hmacs with rfl | ⟨hsize, hsize'⟩
        · exact ⟨rfl, List.append_cancel_left hinput⟩
        · exact frame_append_injective hsize hsize' hinput
      · rintro ⟨hmac, hcovered⟩
        unfold Segment.macInput
        rw [hmac, hcovered]

end Compared

section Signed

variable {codec : MessageCodec} {tsigFields : Text → Tsig → Bytes} {key : TsigKey} {requestMac : Bytes}
  {verifier : ResponseVerifier}

/-- The verifier is where the signer is: before the first message or behind the last MAC. -/
structure InStep (key : TsigKey) (requestMac : Bytes) (previousMac : Option Bytes) (verifier : ResponseVerifier) : Prop where
  key : verifier.key = key
  first : verifier.first = previousMac.isNone
  previousMac : verifier.previousMac = previousMac.getD requestMac
  unsigned : verifier.unsigned = []
  unsignedCount : verifier.unsignedCount = 0

variable {previousMac : Option Bytes} {message : Message} {time now : UInt64} {body raw : Bytes} {signature : TsigRecord}

theorem chunkSignature_shape (hcodec : codec.Lawful tsigFields)
    (h : chunkSignature codec key ⟨message.metadata.id, time, key, requestMac⟩ previousMac body message.metadata.id time =
      .ok signature) :
    signature = ⟨key.name, ⟨key.algorithm, time, key.fudge, signature.data.mac, message.metadata.id, none, []⟩⟩ ∧
      codec.macData key.algorithm key.secret (frame (previousMac.getD requestMac) ++
        (body ++ if previousMac.isNone then tsigFields signature.name signature.data
          else be48 signature.data.time ++ be16 signature.data.fudge.toNat)) = .ok signature.data.mac := by
  cases previousMac with
  | none =>
    obtain ⟨mac, hrecord, hmac⟩ := hcodec.signsInContext h
    rw [hrecord] at hmac ⊢
    refine ⟨rfl, ?_⟩
    unfold frame
    simpa [List.append_assoc] using hmac
  | some previous =>
    unfold chunkSignature signSubsequent at h
    obtain ⟨mac, hmac, hrecord⟩ := bind_eq_ok.mp h
    rw [mapError_eq_ok] at hmac
    cases hrecord
    refine ⟨rfl, ?_⟩
    unfold subsequentTbs at hmac
    unfold frame
    simpa [List.append_assoc] using hmac

/-- A message as it is signed is accepted next, within the time that its signature allows. -/
theorem verify_signed (hcodec : codec.Lawful tsigFields) (h : InStep key requestMac previousMac verifier)
    (hunsigned : message.signature = none) (hbody : codec.toVec message = .ok body)
    (hsign : chunkSignature codec key ⟨message.metadata.id, time, key, requestMac⟩ previousMac body message.metadata.id time =
      .ok signature)
    (hraw : codec.toVec { message with signature := some signature } = .ok raw)
    (hnow : ResponseVerifier.absDiff now time ≤ key.fudge.toUInt64) :
    ∃ after, verifier.verify codec raw now = .ok after ∧ InStep key requestMac (some signature.data.mac) after := by
  obtain ⟨hshape, hmac⟩ := chunkSignature_shape hcodec hsign
  have hsigned : codec.isSigned raw = true := by
    unfold MessageCodec.isSigned
    rw [hcodec.reads hraw]
    rfl
  have hid : message.metadata.id = signature.data.originalId := by rw [hshape]
  have hreads := hcodec.covers verifier.first hunsigned hid hbody hraw
  refine ⟨{ verifier with previousMac := signature.data.mac, first := false, unsigned := [], unsignedCount := 0 }, ?_,
    ⟨h.key, rfl, rfl, rfl, rfl⟩⟩
  rw [ResponseVerifier.verify_of_signed hsigned, ResponseVerifier.verifySigned_eq_ok]
  refine ⟨_, _, hreads, ?_, ?_, ?_, ?_, rfl⟩
  · rw [hshape, h.key]
  · rw [hshape]
  · have hverifies := hcodec.macVerifies hmac
    rw [h.key, h.previousMac, h.unsigned, h.first, List.append_nil]
    exact hverifies
  · rw [hshape]
    exact hnow

theorem verifyAll_signStream (hcodec : codec.Lawful tsigFields) (entries : List (Message × UInt64))
    (hunsigned : ∀ entry ∈ entries, entry.1.signature = none) {wires : List Bytes} {readings : List UInt64}
    (hreadings : List.Forall₂ (fun entry now => ResponseVerifier.absDiff now entry.2 ≤ key.fudge.toUInt64) entries readings)
    {previousMac : Option Bytes} (h : InStep key requestMac previousMac verifier)
    (hsign : signStream codec key requestMac previousMac entries = .ok wires) :
    ∃ after mac, verifier.verifyAll codec (wires.zip readings) = .ok after ∧ InStep key requestMac mac after ∧
      (previousMac.isSome = true ∨ entries ≠ [] → mac.isSome = true) := by
  induction hreadings generalizing previousMac verifier wires with
  | nil =>
    cases hsign
    exact ⟨verifier, previousMac, rfl, h, fun hsome => hsome.resolve_right (not_not.mpr rfl)⟩
  | cons hnow hrest ih =>
    unfold signStream at hsign
    obtain ⟨body, hbody, hsign⟩ := bind_eq_ok.mp hsign
    obtain ⟨signature, hsignature, hsign⟩ := bind_eq_ok.mp hsign
    obtain ⟨wire, hwire, hsign⟩ := bind_eq_ok.mp hsign
    obtain ⟨later, hlater, hsign⟩ := bind_eq_ok.mp hsign
    cases hsign
    obtain ⟨middle, hverify, hmiddle⟩ := verify_signed hcodec h (hunsigned _ List.mem_cons_self) hbody hsignature hwire hnow
    obtain ⟨after, mac, hrun, hafter, hlast⟩ :=
      ih (fun entry hentry => hunsigned entry (List.mem_cons_of_mem _ hentry)) hmiddle hlater
    exact ⟨after, mac, verifyAll_cons.mpr ⟨middle, hverify, hrun⟩, hafter, fun _ => hlast (.inl rfl)⟩

theorem accepts_signStream (hcodec : codec.Lawful tsigFields) (entries : List (Message × UInt64)) (hne : entries ≠ [])
    (hunsigned : ∀ entry ∈ entries, entry.1.signature = none) {wires : List Bytes} {readings : List UInt64}
    (hreadings : List.Forall₂ (fun entry now => ResponseVerifier.absDiff now entry.2 ≤ key.fudge.toUInt64) entries readings)
    (hsign : signStream codec key requestMac none entries = .ok wires) :
    ResponseVerifier.Accepts codec key requestMac (wires.zip readings) := by
  have hstart : InStep key requestMac none (ResponseVerifier.start key requestMac) := ⟨rfl, rfl, rfl, rfl, rfl⟩
  obtain ⟨after, mac, hrun, hafter, hlast⟩ := verifyAll_signStream hcodec entries hunsigned hreadings hstart hsign
  refine ⟨after, hrun, ResponseVerifier.finish_eq_ok.mpr ⟨?_, hafter.unsignedCount⟩⟩
  rw [hafter.first, Option.isNone_eq_false_iff]
  exact hlast (.inr hne)

end Signed

theorem decodes_of_accepts {codec : MessageCodec} {key : TsigKey} {requestMac raw : Bytes} {received : List (Bytes × UInt64)}
    (h : ResponseVerifier.Accepts codec key requestMac received) (hraw : raw ∈ received.map Prod.fst) :
    ∃ message, codec.fromVec raw = .ok message := by
  obtain ⟨after, hrun, _⟩ := h
  obtain ⟨entry, hentry, rfl⟩ := List.mem_map.mp hraw
  obtain ⟨front, rest, rfl⟩ := List.append_of_mem hentry
  obtain ⟨middle, _, hrest⟩ := verifyAll_append.mp hrun
  obtain ⟨_, hverify, _⟩ := verifyAll_cons.mp hrest
  cases hmessage : codec.fromVec entry.1 with
  | ok message => exact ⟨message, rfl⟩
  | error message =>
    unfold ResponseVerifier.verify at hverify
    rw [hmessage] at hverify
    cases hverify

/-- A response is accepted only in segments that each end with a signed message, the last one
with the response: no messages are put in or left out without a change of the MAC inputs, and
others take their place only where the segments cover the same bytes. A response as it is signed
is accepted within the time that its signatures allow. -/
theorem responses_chained (codec : MessageCodec) (tsigFields : Text → Tsig → Bytes) (hcodec : codec.Lawful tsigFields)
    (key : TsigKey) (requestMac : Bytes) :
    (∀ received, ResponseVerifier.Accepts codec key requestMac received →
      Authenticated codec key requestMac (received.map Prod.fst)) ∧
    (∀ received received', ResponseVerifier.Accepts codec key requestMac received →
      ResponseVerifier.Accepts codec key requestMac received' →
        ((received.map Prod.fst).Sublist (received'.map Prod.fst) → received.map Prod.fst ≠ received'.map Prod.fst →
          macInputs codec requestMac (received.map Prod.fst) ≠ macInputs codec requestMac (received'.map Prod.fst)) ∧
        (macInputs codec requestMac (received.map Prod.fst) = macInputs codec requestMac (received'.map Prod.fst) ↔
          (segments codec requestMac (received.map Prod.fst)).map (fun segment => (segment.previousMac, segment.covered)) =
            (segments codec requestMac (received'.map Prod.fst)).map fun segment =>
              (segment.previousMac, segment.covered))) ∧
    (∀ (entries : List (Message × UInt64)) (wires : List Bytes) (readings : List UInt64), entries ≠ [] →
      (∀ entry ∈ entries, entry.1.signature = none) → signStream codec key requestMac none entries = .ok wires →
      List.Forall₂ (fun entry now => ResponseVerifier.absDiff now entry.2 ≤ key.fudge.toUInt64) entries readings →
        ResponseVerifier.Accepts codec key requestMac (wires.zip readings)) := by
  refine ⟨fun received h => authenticated_of_accepts h, ?_, ?_⟩
  · intro received received' h h'
    have hauthenticated := authenticated_of_accepts h
    have hauthenticated' := authenticated_of_accepts h'
    refine ⟨?_, macInputs_eq_iff hcodec hauthenticated.chained hauthenticated'.chained (.inl rfl)⟩
    intro hsub hdiffer hsame
    apply hdiffer
    apply eq_of_sublist hauthenticated hauthenticated' hsub _ hsame
    intro raw hraw hnil
    obtain ⟨message, hmessage⟩ := decodes_of_accepts h' hraw
    rw [hnil] at hmessage
    exact absurd (hcodec.header hmessage) (by decide)
  · intro entries wires readings hne hunsigned hsign hreadings
    exact accepts_signStream hcodec entries hne hunsigned hreadings hsign

/-! A transfer of a zone with one address, which comes unsigned. -/

def TsigRecord.wire (record : TsigRecord) : Bytes :=
  let rdata := wireName record.data.algorithm.name ++ be48 record.data.time ++ be16 record.data.fudge.toNat ++
    be16 record.data.mac.length ++ record.data.mac ++ be16 record.data.originalId.toNat ++
    be16 (record.data.error.getD 0).toNat ++ be16 record.data.other.length ++ record.data.other
  wireName record.name ++ be16 250 ++ be16 255 ++ toBeBytes 4 0 ++ be16 rdata.length ++ rdata

def chainTime : UInt64 := 1700000000

def chainRequestMac : Bytes := toBeBytes 32 0x561a9658a4cab5dacb6d52d80df4b4f3d435aa3ac9c78a064aec740099712fa0

def chainFirstMac : Bytes := toBeBytes 32 0xa0553307a3943a33c460a8d0602a61d81cde9395577fadcf4dacf8da5f771608

def chainLastMac : Bytes := toBeBytes 32 0x27510cb11f3f4209a8f70a13a1b39bf89c5888765d283edd0a2e52a285c1fdbe

def axfrReply (answer : MessageRecord) : Message := replyTo (buildQuery "example.com." "AXFR") [answer]

def axfrSoaBytes : Bytes := exampleHeader 0x8400 1 0 ++ exampleQuestion 252 ++ exampleSoaBytes 1

def axfrAddressBytes : Bytes := exampleHeader 0x8400 1 0 ++ exampleQuestion 252 ++ exampleAddressBytes (be16 0xc00c)

def chainSignature (mac : Bytes) : TsigRecord := ⟨TsigKey.foo.name, ⟨.hmacSha256, chainTime, 300, mac, 0, none, []⟩⟩

/-- The signed message counts its signature in the header. -/
def axfrSignedBytes (mac : Bytes) : Bytes :=
  be16 0 ++ be16 0x8400 ++ be16 1 ++ be16 1 ++ be16 0 ++ be16 1 ++ exampleQuestion 252 ++ exampleSoaBytes 1 ++
    (chainSignature mac).wire

/-- The MACs of the two signed messages; the last one covers three copies of the address. -/
def chainMac (data : Bytes) : Bytes :=
  if data = frame chainRequestMac ++ axfrSoaBytes ++ tsigVariables TsigKey.foo.name (chainSignature []).data then chainFirstMac
  else if data = frame chainFirstMac ++ axfrAddressBytes ++ axfrAddressBytes ++ axfrAddressBytes ++ axfrSoaBytes ++
      be48 chainTime ++ be16 300 then chainLastMac
  else []

/-- What follows a message in its bytes is not read. -/
def chainMessages : List (Message × Bytes) :=
  [(axfrReply (exampleSoa 1), axfrSoaBytes), (axfrReply (exampleAddress "example.com."), axfrAddressBytes),
    (axfrReply (exampleAddress "example.com."), axfrAddressBytes ++ axfrAddressBytes),
    ({ axfrReply (exampleSoa 1) with signature := some (chainSignature chainFirstMac) }, axfrSignedBytes chainFirstMac),
    ({ axfrReply (exampleSoa 1) with signature := some (chainSignature chainLastMac) }, axfrSignedBytes chainLastMac)]

def chainCodec : MessageCodec := .ofMac [] chainMessages fun _ _ => chainMac

theorem chainCodec_lawful : chainCodec.Lawful tsigVariables :=
  MessageCodec.ofMac_lawful
    { reads := by decide
      header := by decide
      macSize := by decide }

def chainReply (first second : Bytes) : List (Bytes × UInt64) :=
  [axfrSignedBytes chainFirstMac, first, second, axfrSignedBytes chainLastMac].map fun raw => (raw, chainTime)

/-- What the theorem says of the reply, and of its first message alone at the end of its time. -/
theorem responses_chained_reply :
    Authenticated chainCodec TsigKey.foo chainRequestMac
        ((chainReply axfrAddressBytes (axfrAddressBytes ++ axfrAddressBytes)).map Prod.fst) ∧
      ResponseVerifier.Accepts chainCodec TsigKey.foo chainRequestMac
        ([axfrSignedBytes chainFirstMac].zip [chainTime + 300]) := by
  have h := responses_chained chainCodec tsigVariables chainCodec_lawful TsigKey.foo chainRequestMac
  apply And.intro
  · exact h.1 _ (by decide +kernel)
  · apply h.2.2 [(axfrReply (exampleSoa 1), chainTime)]
    · exact List.cons_ne_nil _ _
    · simp [axfrReply, replyTo]
    · decide +kernel
    · exact .cons (by decide) .nil

/-- Two unsigned messages, the second of them the first one twice, can change places; and a
message is not accepted a second after its time. -/
theorem responses_not_chained :
    (¬ ∀ (codec : MessageCodec) (tsigFields : Text → Tsig → Bytes), codec.Lawful tsigFields →
      ∀ (key : TsigKey) (requestMac : Bytes) (received received' : List (Bytes × UInt64)),
        ResponseVerifier.Accepts codec key requestMac received → ResponseVerifier.Accepts codec key requestMac received' →
        (received.map Prod.fst).Perm (received'.map Prod.fst) → received.map Prod.fst ≠ received'.map Prod.fst →
          macInputs codec requestMac (received.map Prod.fst) ≠ macInputs codec requestMac (received'.map Prod.fst)) ∧
    (¬ ∀ (codec : MessageCodec) (tsigFields : Text → Tsig → Bytes), codec.Lawful tsigFields →
      ∀ (key : TsigKey) (requestMac : Bytes) (entries : List (Message × UInt64)) (wires : List Bytes) (readings : List UInt64),
        entries ≠ [] → (∀ entry ∈ entries, entry.1.signature = none) →
        signStream codec key requestMac none entries = .ok wires → entries.length = readings.length →
          ResponseVerifier.Accepts codec key requestMac (wires.zip readings)) := by
  apply And.intro
  · intro h
    apply h chainCodec tsigVariables chainCodec_lawful TsigKey.foo chainRequestMac
      (chainReply axfrAddressBytes (axfrAddressBytes ++ axfrAddressBytes))
      (chainReply (axfrAddressBytes ++ axfrAddressBytes) axfrAddressBytes)
    · decide +kernel
    · decide +kernel
    · exact .cons _ (.swap _ _ _)
    · decide +kernel
    · decide +kernel
  · intro h
    have haccepts := h chainCodec tsigVariables chainCodec_lawful TsigKey.foo chainRequestMac
      [(axfrReply (exampleSoa 1), chainTime)] [axfrSignedBytes chainFirstMac] [chainTime + 301] (List.cons_ne_nil _ _)
      (by simp [axfrReply, replyTo]) (by decide +kernel) rfl
    revert haccepts
    decide +kernel

end DaygleDns.Authoritative
