import DaygleDns.Authoritative.Transfer

/-! What the transfer client has read when it is done with an exchange. -/
namespace DaygleDns.Authoritative

open Text Fallible Framing

/-- The stream begins with these messages, and `rest` is left behind them. -/
def Frames (codec : MessageCodec) : Bytes → List Message → Bytes → Prop
  | stream, [], rest => stream = rest
  | stream, message :: messages, rest => ∃ raw middle,
      readMessage codec stream = .ok (raw, message, middle) ∧ Frames codec middle messages rest

/-- The messages up to the first one that is terminal, which is the last. -/
def StopsAt (loneSoaEnds : Bool) : Option UInt32 → Nat → List Message → Prop
  | _, _, [] => False
  | start, before, message :: messages =>
      let start := startSerial start message.answers
      match messages with
      | [] => isTerminal loneSoaEnds start before message.answers = true
      | messages => isTerminal loneSoaEnds start before message.answers = false ∧
          StopsAt loneSoaEnds start (before + message.answers.length) messages

theorem readReply_eq_ok {codec : MessageCodec} {clock : Nat → UInt64} {master : Master}
    {loneSoaEnds terminal : Bool} {exchange after : Exchange}
    (h : readReply codec clock master loneSoaEnds exchange = .ok (after, terminal)) :
    ∃ raw message, readMessage codec exchange.unread = .ok (raw, message, after.unread) ∧
      after.allAnswers = exchange.allAnswers ++ message.answers ∧
      after.startSoaSerial = startSerial exchange.startSoaSerial message.answers ∧
      isTerminal loneSoaEnds (startSerial exchange.startSoaSerial message.answers)
        exchange.allAnswers.length message.answers = terminal := by
  unfold readReply at h
  rcases bind_eq_ok.mp h with ⟨⟨raw, message, unread⟩, hread, h⟩
  rcases bind_eq_ok.mp h with ⟨verifier, _, h⟩
  rcases bind_eq_ok.mp h with ⟨_, _, h⟩
  cases h
  exact ⟨raw, message, hread, rfl, rfl, rfl⟩

theorem readReplies_eq_ok {codec : MessageCodec} {clock : Nat → UInt64} {master : Master}
    {loneSoaEnds : Bool} {limit : Nat} {exchange after : Exchange}
    (h : readReplies codec clock master loneSoaEnds limit exchange = .ok after) :
    ∃ messages, Frames codec exchange.unread messages after.unread ∧
      after.allAnswers = exchange.allAnswers ++ messages.flatMap Message.answers ∧
      StopsAt loneSoaEnds exchange.startSoaSerial exchange.allAnswers.length messages := by
  induction limit generalizing exchange with
  | zero => cases h
  | succ limit ih =>
    unfold readReplies at h
    rcases bind_eq_ok.mp h with ⟨⟨middle, terminal⟩, hreply, h⟩
    rcases readReply_eq_ok hreply with ⟨raw, message, hread, hanswers, hstart, hterminal⟩
    cases terminal with
    | true =>
      cases h
      refine ⟨[message], ⟨raw, _, hread, rfl⟩, ?_, hterminal⟩
      rw [hanswers, List.flatMap_cons, List.flatMap_nil, List.append_nil]
    | false =>
      rcases ih h with ⟨messages, hframes, hlater, hstops⟩
      refine ⟨message :: messages, ⟨raw, _, hread, hframes⟩, ?_, ?_⟩
      · rw [hlater, hanswers, List.flatMap_cons, List.append_assoc]
      · rw [hstart, hanswers, List.length_append] at hstops
        cases messages with
        | nil => exact absurd hstops id
        | cons next messages => exact ⟨hterminal, hstops⟩

/-- An exchange that succeeds has read messages up to the first terminal one,
and its answers are theirs. -/
theorem exchangeOf_eq_ok {client : XfrClient} {master : Master} {query : Message} {limit : Nat}
    {loneSoaEnds : Bool} {exchange : Exchange}
    (h : exchangeOf client master query limit loneSoaEnds = .ok exchange) :
    ∃ wire verifier stream messages, encodeRequest client query = .ok (wire, verifier) ∧
      master.answer (frame wire) = .ok stream ∧
      Frames client.codec stream messages exchange.unread ∧
      exchange.allAnswers = messages.flatMap Message.answers ∧ StopsAt loneSoaEnds none 0 messages := by
  unfold exchangeOf at h
  cases hconnect : master.connect with
  | some e =>
    rw [hconnect] at h
    cases h
  | none =>
    rw [hconnect] at h
    rcases bind_eq_ok.mp h with ⟨⟨wire, verifier⟩, hencode, h⟩
    rcases bind_eq_ok.mp h with ⟨stream, hstream, h⟩
    rcases bind_eq_ok.mp h with ⟨last, hloop, h⟩
    rcases bind_eq_ok.mp h with ⟨_, _, h⟩
    cases h
    rcases readReplies_eq_ok hloop with ⟨messages, hframes, hanswers, hstops⟩
    exact ⟨wire, verifier, stream, messages, hencode, hstream, hframes, hanswers, hstops⟩

theorem startSerial_some (serial : UInt32) (answers : List MessageRecord) :
    startSerial (some serial) answers = some serial := rfl

/-- A record with SOA data is of type SOA. -/
theorem isSoa_of_soaSerial {record : MessageRecord} {serial : UInt32}
    (h : record.soaSerial = some serial) : isSoa record = true := by
  unfold MessageRecord.soaSerial at h
  unfold isSoa MessageRecord.recordType
  cases hdata : record.data with
  | soa soa text => rfl
  | update0 rtype text =>
    rw [hdata] at h
    cases h
  | other rtype text =>
    rw [hdata] at h
    cases h

theorem startSerial_cons {record : MessageRecord} {serial : UInt32}
    (h : record.soaSerial = some serial) (answers : List MessageRecord) :
    startSerial none (record :: answers) = some serial := by
  unfold startSerial
  rw [List.find?_cons_of_pos (isSoa_of_soaSerial h)]
  exact h

theorem isTerminal_iff {loneSoaEnds : Bool} {serial : UInt32} {before : Nat}
    {answers : List MessageRecord} {last : MessageRecord} (hlast : answers.getLast? = some last) :
    isTerminal loneSoaEnds (some serial) before answers = true ↔
      last.soaSerial = some serial ∧ (1 < before + answers.length ∨ loneSoaEnds = true) := by
  cases hserial : last.soaSerial with
  | none => simp [isTerminal, hlast, hserial]
  | some other =>
    have hsoa := isSoa_of_soaSerial hserial
    simp [isTerminal, hlast, hserial, hsoa]

/-- With the opening serial known: the last message that has answers ends in an
SOA of that serial, and if an empty message follows it ends in something else. -/
theorem StopsAt.closes {loneSoaEnds : Bool} {serial : UInt32} {before : Nat}
    {messages : List Message} (h : StopsAt loneSoaEnds (some serial) before messages)
    {final : Message} (hfinal : messages.getLast? = some final)
    {last : MessageRecord} (hlast : (messages.flatMap Message.answers).getLast? = some last)
    (hmore : 1 < before + (messages.flatMap Message.answers).length) :
    final.answers ≠ [] ↔ last.soaSerial = some serial := by
  induction messages generalizing before with
  | nil => cases hfinal
  | cons message messages ih =>
    cases messages with
    | nil =>
      rw [List.getLast?_singleton] at hfinal
      cases hfinal
      rw [List.flatMap_cons, List.flatMap_nil, List.append_nil] at hlast hmore
      change isTerminal loneSoaEnds (some serial) before final.answers = true at h
      constructor
      · intro _
        exact ((isTerminal_iff hlast).mp h).1
      · intro _ hempty
        rw [hempty] at hlast
        cases hlast
    | cons next messages =>
      rw [List.getLast?_cons_cons] at hfinal
      rcases h with ⟨hgoes, hrest⟩
      rw [List.flatMap_cons, List.length_append] at hmore
      rw [List.flatMap_cons, List.getLast?_append] at hlast
      cases hlater : ((next :: messages).flatMap Message.answers).getLast? with
      | some record =>
        rw [hlater, Option.some_or] at hlast
        apply ih hrest hfinal (hlater.trans hlast)
        omega
      | none =>
        -- only empty messages follow, of which the first one is the last
        rw [hlater, Option.none_or] at hlast
        have hnone := List.getLast?_eq_none_iff.mp hlater
        have hempty : final.answers = [] := by
          have hmem := List.mem_of_getLast? hfinal
          exact List.flatMap_eq_nil_iff.mp hnone final hmem
        rw [hnone, List.length_nil, Nat.add_zero] at hmore
        constructor
        · exact fun hsome => absurd hempty hsome
        · intro hserial
          rw [startSerial_some, (isTerminal_iff hlast).mpr ⟨hserial, .inl hmore⟩] at hgoes
          cases hgoes

/-- The transfer opens and closes with an SOA of one serial and has no other. -/
def Complete (records : List MessageRecord) : Prop :=
  ∃ opening middle closing serial, records = opening :: (middle ++ [closing]) ∧
    opening.soaSerial = some serial ∧ closing.soaSerial = some serial ∧
    ∀ record ∈ middle, isSoa record = false

/-- The first record carries SOA data, one more record is an SOA, and the
exchange does not end in an empty message. -/
structure OpensAndCloses (messages : List Message) : Prop where
  opening : ∃ opening serial, (messages.flatMap Message.answers).head? = some opening ∧
    opening.soaSerial = some serial
  twice : ((messages.flatMap Message.answers).filter isSoa).length = 2
  closing : ∃ final, messages.getLast? = some final ∧ final.answers ≠ []

/-- The opening serial is known from the first message on. -/
theorem StopsAt.known {loneSoaEnds : Bool} {messages : List Message} {opening : MessageRecord}
    {serial : UInt32} (h : StopsAt loneSoaEnds none 0 messages)
    (hhead : (messages.flatMap Message.answers).head? = some opening)
    (hserial : opening.soaSerial = some serial) : StopsAt loneSoaEnds (some serial) 0 messages := by
  cases messages with
  | nil => exact absurd h id
  | cons message messages =>
    cases hanswers : message.answers with
    | nil =>
      cases messages with
      | nil =>
        rw [List.flatMap_cons, hanswers] at hhead
        cases hhead
      | cons next messages =>
        rcases h with ⟨hgoes, _⟩
        rw [hanswers] at hgoes
        cases hgoes
    | cons record answers =>
      have hrecord : record = opening := by
        rw [List.flatMap_cons, hanswers] at hhead
        exact Option.some.inj hhead
      have hstart : startSerial none message.answers = startSerial (some serial) message.answers := by
        rw [hanswers, hrecord, startSerial_cons hserial, startSerial_some]
      unfold StopsAt at h ⊢
      rw [hstart] at h
      exact h

theorem complete_iff {loneSoaEnds : Bool} {messages : List Message}
    (h : StopsAt loneSoaEnds none 0 messages) :
    Complete (messages.flatMap Message.answers) ↔ OpensAndCloses messages := by
  have hfinal : ∃ final, messages.getLast? = some final := by
    cases messages with
    | nil => exact absurd h id
    | cons message messages => exact ⟨_, List.getLast?_eq_some_getLast (List.cons_ne_nil _ _)⟩
  rcases hfinal with ⟨final, hfinal⟩
  constructor
  · intro hcomplete
    rcases hcomplete with ⟨opening, middle, closing, serial, hrecords, hopening, hclosing, hmiddle⟩
    have hhead : (messages.flatMap Message.answers).head? = some opening := by rw [hrecords]; rfl
    have hlast : (messages.flatMap Message.answers).getLast? = some closing := by
      rw [hrecords, ← List.cons_append, List.getLast?_concat]
    have hmore : 1 < 0 + (messages.flatMap Message.answers).length := by
      rw [hrecords, List.length_cons, List.length_append]
      simp
    refine ⟨⟨opening, serial, hhead, hopening⟩, ?_, final, hfinal, ?_⟩
    · have hnone : middle.filter isSoa = [] := by
        apply List.filter_eq_nil_iff.mpr
        intro record hrecord
        rw [hmiddle record hrecord]
        exact Bool.false_ne_true
      rw [hrecords, List.filter_cons_of_pos (isSoa_of_soaSerial hopening), List.filter_append, hnone,
        List.nil_append, List.filter_cons_of_pos (isSoa_of_soaSerial hclosing)]
      rfl
    · exact ((h.known hhead hopening).closes hfinal hlast hmore).mpr hclosing
  · intro hends
    rcases hends.opening with ⟨opening, serial, hhead, hopening⟩
    have htwice := hends.twice
    have hfilled : final.answers ≠ [] := by
      rcases hends.closing with ⟨other, hother, hanswers⟩
      rw [hfinal] at hother
      rw [Option.some.inj hother]
      exact hanswers
    cases hrecords : messages.flatMap Message.answers with
    | nil =>
      rw [hrecords] at hhead
      cases hhead
    | cons first rest =>
      rw [hrecords] at hhead htwice
      cases hhead
      rw [List.filter_cons_of_pos (isSoa_of_soaSerial hopening), List.length_cons] at htwice
      -- the rest has one SOA; it is the last record, as the exchange ends on it
      have hrest : rest ≠ [] := by
        intro hempty
        rw [hempty] at htwice
        simp at htwice
      have hlast : (messages.flatMap Message.answers).getLast? = some (rest.getLast hrest) := by
        rw [hrecords, List.getLast?_cons, List.getLast?_eq_some_getLast hrest]
        rfl
      have hmore : 1 < 0 + (messages.flatMap Message.answers).length := by
        have hpos := List.length_pos_of_ne_nil hrest
        rw [hrecords, List.length_cons]
        omega
      have hhead : (messages.flatMap Message.answers).head? = some opening := by rw [hrecords]; rfl
      have hclosing := ((h.known hhead hopening).closes hfinal hlast hmore).mp hfilled
      refine ⟨opening, rest.dropLast, rest.getLast hrest, serial, ?_, hopening, hclosing, ?_⟩
      · rw [List.dropLast_append_getLast hrest]
      · rw [← List.dropLast_append_getLast hrest, List.filter_append,
          List.filter_cons_of_pos (isSoa_of_soaSerial hclosing), List.length_append] at htwice
        intro record hrecord
        have hnone : rest.dropLast.filter isSoa = [] := by
          apply List.eq_nil_of_length_eq_zero
          simp only [List.filter_nil, List.length_cons, List.length_nil] at htwice
          omega
        exact Bool.eq_false_iff.mpr (List.filter_eq_nil_iff.mp hnone record hrecord)

end DaygleDns.Authoritative
