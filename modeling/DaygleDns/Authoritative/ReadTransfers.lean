import DaygleDns.Authoritative.ServedTransfers

/-! A zone transfer as it is read: the messages up to the terminal one, which for a transfer of a
zone is its last message, or the first one where the opening SOA by itself ends the exchange. -/
namespace DaygleDns.Authoritative

open Text Framing Fallible

section Reader

variable {codec : MessageCodec} {tsigFields : Text → Tsig → Bytes} {master : Master} {clock : Nat → UInt64}
  {loneSoaEnds : Bool}

theorem readMessage_frame {message : Message} {raw : Bytes} (hread : codec.fromVec raw = .ok message)
    (hlength : raw.length < 65536) (rest : Bytes) : readMessage codec (frame raw ++ rest) = .ok (raw, message, rest) := by
  unfold readMessage
  rw [readLength_frame hlength]
  simp only [ok_bind, readExact_append, hread, Except.mapError, pure_eq]

/-- The next message is read off the stream. -/
theorem readReply_of_reads (hcodec : codec.Lawful tsigFields) {message : Message} {messages : List Message} {raw : Bytes}
    {wires : List Bytes} {rest : Bytes} {exchange : Exchange} (hraw : codec.toVec message = .ok raw)
    (hunread : exchange.unread = (raw :: wires).flatMap frame ++ rest)
    (hreads : Reads codec master clock exchange.verifier exchange.messages (message :: messages)) :
    ∃ verifier, readReply codec clock master loneSoaEnds exchange =
        .ok (⟨wires.flatMap frame ++ rest, verifier, exchange.allAnswers ++ message.answers,
          startSerial exchange.startSoaSerial message.answers, exchange.messages + 1⟩,
          isTerminal loneSoaEnds (startSerial exchange.startSoaSerial message.answers) exchange.allAnswers.length
            message.answers) ∧
      (∀ last ∈ verifier, last.finish = .ok ()) ∧ Reads codec master clock verifier (exchange.messages + 1) messages := by
  obtain ⟨raw', verifier, hraw', hlength, hverify, hfinish, hcheck, hrest⟩ := hreads
  rw [hraw] at hraw'
  cases hraw'
  rw [List.flatMap_cons, List.append_assoc] at hunread
  have hread := readMessage_frame (hcodec.reads hraw) hlength (wires.flatMap frame ++ rest)
  rw [← hunread] at hread
  refine ⟨verifier, ?_, hfinish, hrest⟩
  unfold readReply
  simp only [hread, ok_bind, hverify, hcheck, pure_eq]

/-- Messages up to the terminal one are read off the stream, and what follows them stays. -/
theorem readReplies_of_reads (hcodec : codec.Lawful tsigFields) {messages : List Message} {wires : List Bytes} {rest : Bytes}
    {limit : Nat} {exchange : Exchange} (hwires : List.Forall₂ (fun message raw => codec.toVec message = .ok raw) messages wires)
    (hunread : exchange.unread = wires.flatMap frame ++ rest)
    (hreads : Reads codec master clock exchange.verifier exchange.messages messages)
    (hstops : StopsAt loneSoaEnds exchange.startSoaSerial exchange.allAnswers.length messages)
    (hlimit : messages.length ≤ limit) :
    ∃ after, readReplies codec clock master loneSoaEnds limit exchange = .ok after ∧ after.unread = rest ∧
      after.allAnswers = exchange.allAnswers ++ messages.flatMap Message.answers ∧
      after.messages = exchange.messages + messages.length ∧ finishReplies master after = .ok () := by
  induction hwires generalizing exchange limit with
  | nil => exact absurd hstops id
  | cons hraw hlater ih =>
    rename_i message raw messages wires
    obtain ⟨limit, rfl⟩ : ∃ less, limit = less + 1 := ⟨limit - 1, by rw [List.length_cons] at hlimit; omega⟩
    obtain ⟨verifier, hreply, hfinish, hrest⟩ := readReply_of_reads hcodec hraw hunread hreads
    rw [readReplies, hreply, ok_bind]
    cases messages with
    | nil =>
      cases hlater
      have hterminal : isTerminal loneSoaEnds (startSerial exchange.startSoaSerial message.answers)
          exchange.allAnswers.length message.answers = true := hstops
      dsimp only
      rw [hterminal, if_pos rfl]
      refine ⟨_, rfl, rfl, by simp, rfl, ?_⟩
      unfold finishReplies
      cases verifier with
      | none => rfl
      | some last =>
        dsimp only
        rw [hfinish last rfl]
        rfl
    | cons next messages =>
      obtain ⟨hgoes, hstops⟩ := hstops
      dsimp only
      rw [hgoes, if_neg Bool.false_ne_true]
      obtain ⟨after, hafter, hunread', hanswers, hcount, hends⟩ := @ih limit
        ⟨wires.flatMap frame ++ rest, verifier, exchange.allAnswers ++ message.answers,
          startSerial exchange.startSoaSerial message.answers, exchange.messages + 1⟩ rfl hrest
        (by rw [List.length_append]; exact hstops) (by rw [List.length_cons] at hlimit; omega)
      refine ⟨after, hafter, hunread', hanswers.trans ?_, hcount.trans ?_, hends⟩
      · simp [List.append_assoc]
      · simp only [List.length_cons]
        omega

/-- More messages than the limit are not read. -/
theorem readReplies_exceeded (hcodec : codec.Lawful tsigFields) {messages : List Message} {wires : List Bytes} {rest : Bytes}
    {limit : Nat} {exchange : Exchange} (hwires : List.Forall₂ (fun message raw => codec.toVec message = .ok raw) messages wires)
    (hunread : exchange.unread = wires.flatMap frame ++ rest)
    (hreads : Reads codec master clock exchange.verifier exchange.messages messages)
    (hstops : StopsAt loneSoaEnds exchange.startSoaSerial exchange.allAnswers.length messages)
    (hlimit : limit < messages.length) : ∃ e, readReplies codec clock master loneSoaEnds limit exchange = .error e := by
  induction hwires generalizing exchange limit with
  | nil => exact absurd hlimit (Nat.not_lt_zero _)
  | cons hraw hlater ih =>
    rename_i message raw messages wires
    cases limit with
    | zero => exact ⟨_, rfl⟩
    | succ limit =>
      obtain ⟨verifier, hreply, hrest⟩ := readReply_of_reads hcodec hraw hunread hreads
      rw [readReplies, hreply, ok_bind]
      cases messages with
      | nil =>
        rw [List.length_cons, List.length_nil] at hlimit
        omega
      | cons next messages =>
        obtain ⟨hgoes, hstops⟩ := hstops
        dsimp only
        rw [hgoes, if_neg Bool.false_ne_true]
        apply ih
        · rfl
        · exact hrest.2
        · rw [List.length_append]
          exact hstops
        · rw [List.length_cons] at hlimit
          omega

end Reader

section Stops

variable {soa : MessageRecord} {records : List MessageRecord} {serial : UInt32} {loneSoaEnds : Bool}

theorem split_closing {front back : List MessageRecord} (h : front ++ back = records ++ [soa]) (hne : back ≠ []) :
    ∃ middle, records = front ++ middle ∧ back = middle ++ [soa] := by
  rcases List.eq_nil_or_concat' back with rfl | ⟨middle, last, rfl⟩
  · exact absurd rfl hne
  · rw [← List.append_assoc] at h
    obtain ⟨hfront, hlast⟩ := List.append_inj' h rfl
    cases hlast
    exact ⟨middle, hfront.symm, rfl⟩

theorem flatMap_answers_ne_nil {message : Message} {rest : List Message}
    (h : ∀ other ∈ message :: rest, other.answers ≠ []) : (message :: rest).flatMap Message.answers ≠ [] := by
  intro hnil
  rw [List.flatMap_cons] at hnil
  exact h message List.mem_cons_self (List.append_eq_nil_iff.mp hnil).1

/-- Behind the opening SOA the messages of a transfer are read up to the last. -/
theorem stopsAt_later (hsoa : soa.soaSerial = some serial) (messages : List Message) {before : Nat} (hbefore : 0 < before)
    (hrecords : ∀ record ∈ records, isSoa record = false) (hne : messages ≠ [])
    (hfilled : ∀ message ∈ messages, message.answers ≠ [])
    (hanswers : messages.flatMap Message.answers = records ++ [soa]) : StopsAt loneSoaEnds (some serial) before messages := by
  induction messages generalizing before records with
  | nil => exact absurd rfl hne
  | cons message rest ih =>
    cases rest with
    | nil =>
      rw [List.flatMap_cons, List.flatMap_nil, List.append_nil] at hanswers
      change isTerminal loneSoaEnds (some serial) before message.answers = true
      have hlast : message.answers.getLast? = some soa := by rw [hanswers, List.getLast?_concat]
      apply (isTerminal_iff hlast).mpr
      refine ⟨hsoa, .inl ?_⟩
      rw [hanswers, List.length_append, List.length_singleton]
      omega
    | cons next rest =>
      -- what follows is not empty, so the closing SOA is there
      have hfilled' := fun other hother => hfilled other (List.mem_cons_of_mem message hother)
      obtain ⟨front, hrecords', htail⟩ := split_closing hanswers (flatMap_answers_ne_nil hfilled')
      have hmiddle : ∀ record ∈ message.answers ++ front, isSoa record = false := by
        intro record hrecord
        apply hrecords
        rwa [hrecords']
      obtain ⟨last, hlast⟩ : ∃ last, message.answers.getLast? = some last :=
        ⟨_, List.getLast?_eq_some_getLast (hfilled message List.mem_cons_self)⟩
      apply And.intro
      · apply Bool.eq_false_iff.mpr
        intro hterminal
        have hserial := ((isTerminal_iff hlast).mp hterminal).1
        have hother := hmiddle last (List.mem_append_left _ (List.mem_of_getLast? hlast))
        exact Bool.false_ne_true (hother.symm.trans (isSoa_of_soaSerial hserial))
      · exact ih (by omega) (fun record hrecord => hmiddle record (List.mem_append_right _ hrecord))
          (List.cons_ne_nil _ _) hfilled' htail

/-- A transfer is read up to its last message, or to the first one if that ends it by itself. -/
theorem stopsAt_transfer (hsoa : soa.soaSerial = some serial) (hrecords : ∀ record ∈ records, isSoa record = false)
    {first : Message} {rest : List Message} (hfilled : ∀ message ∈ first :: rest, message.answers ≠ [])
    (hanswers : (first :: rest).flatMap Message.answers = soa :: records ++ [soa])
    (halone : first.answers = [soa] → loneSoaEnds = false) : StopsAt loneSoaEnds none 0 (first :: rest) := by
  obtain ⟨head, tail, hfirst⟩ := List.exists_cons_of_ne_nil (hfilled first List.mem_cons_self)
  rw [List.flatMap_cons, hfirst, List.cons_append, List.cons_append] at hanswers
  obtain ⟨rfl, hanswers⟩ := List.cons.inj hanswers
  have hstart : startSerial none first.answers = some serial := by rw [hfirst, startSerial_cons hsoa]
  cases rest with
  | nil =>
    rw [List.flatMap_nil, List.append_nil] at hanswers
    change isTerminal loneSoaEnds (startSerial none first.answers) 0 first.answers = true
    have hlast : first.answers.getLast? = some head := by
      rw [hfirst, hanswers, ← List.cons_append, List.getLast?_concat]
    rw [hstart, isTerminal_iff hlast]
    refine ⟨hsoa, .inl ?_⟩
    rw [hfirst, hanswers]
    simp
  | cons next rest =>
    have hfilled' := fun other hother => hfilled other (List.mem_cons_of_mem first hother)
    obtain ⟨front, hrecords', htail⟩ := split_closing hanswers (flatMap_answers_ne_nil hfilled')
    have hmiddle : ∀ record ∈ tail ++ front, isSoa record = false := by
      intro record hrecord
      apply hrecords
      rwa [hrecords']
    apply And.intro
    · rw [hstart]
      apply Bool.eq_false_iff.mpr
      intro hterminal
      rcases List.eq_nil_or_concat' tail with rfl | ⟨others, last, rfl⟩
      · -- the opening SOA is by itself
        have hlast : first.answers.getLast? = some head := by rw [hfirst, List.getLast?_singleton]
        rw [isTerminal_iff hlast, hfirst, halone hfirst] at hterminal
        simp at hterminal
      · have hlast : first.answers.getLast? = some last := by
          rw [hfirst, ← List.cons_append, List.getLast?_concat]
        have hserial := ((isTerminal_iff hlast).mp hterminal).1
        have hother := hmiddle last (by simp)
        exact Bool.false_ne_true (hother.symm.trans (isSoa_of_soaSerial hserial))
    · rw [hstart]
      apply stopsAt_later hsoa _ _ _ (List.cons_ne_nil _ _) hfilled' htail
      · rw [hfirst, List.length_cons]
        omega
      · exact fun record hrecord => hmiddle record (List.mem_append_right _ hrecord)

end Stops

end DaygleDns.Authoritative
