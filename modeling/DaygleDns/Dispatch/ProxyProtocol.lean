import DaygleDns.Policy.Groups
import DaygleDns.Reading
import DaygleDns.Utf8
import DaygleDns.TextFacts

/-! The PROXY protocol: the header that a load balancer puts before a connection's bytes, with the
address of its client. -/
namespace DaygleDns.Dispatch

open Framing Reading Text

structure SocketAddr where
  ip : IpAddr
  port : UInt16
deriving DecidableEq, Repr

def v2Signature : Bytes := Utf8.encode "\r\n\r\n\x00\r\nQUIT\n".toList

/-- The longest line of version 1, with its ending. -/
def v1Max : Nat := 107

def crlf : Bytes := [13, 10]

def proxyWord : Bytes := Utf8.encode "PROXY".toList

/-- `read_exact` at the end of the stream. -/
def earlyEof : Text := "early eof".toList

/-- `read_u8` there. -/
def unexpectedEof : Text := "unexpected end of file".toList

/-- `str::parse::<u16>`: an optional plus sign, then digits, in range. -/
def parseU16 (s : Text) : Option UInt16 :=
  let digits := (stripPrefix ['+'] s).getD s
  if !digits.isEmpty && digits.all Char.isDigit && readDigits digits < 2 ^ 16 then
    some (UInt16.ofNat (readDigits digits))
  else none

def parseV1 (line : Text) : Except Text (Option SocketAddr) :=
  let bad : Except Text (Option SocketAddr) := .error ("bad PROXY v1 header \x27".toList ++ line ++ "\x27".toList)
  match line.splitOn ' ' with
  | proxy :: kind :: parts =>
      if proxy ≠ "PROXY".toList then bad
      else if kind = "UNKNOWN".toList then .ok none
      else if kind = "TCP4".toList ∨ kind = "TCP6".toList then
        match parts with
        | src :: dst :: port :: _ =>
            match Policy.parseIpAddr src, Policy.parseIpAddr dst, parseU16 port with
            | some src, some _, some port => .ok (some ⟨src, port⟩)
            | _, _, _ => bad
        | _ => bad
      else bad
  | _ => bad

/-- `command` and `family` are the low four bits of the first byte and the whole second one. -/
def parseV2 (command family : Nat) (body : Bytes) : Except Text (Option SocketAddr) :=
  let short : Text := "short PROXY v2 address block".toList
  if command = 0 then .ok none
  else if command ≠ 1 then .error "unknown PROXY v2 command".toList
  else match family / 16 with
    | 1 =>
        if body.length < 12 then .error short
        else .ok (some ⟨.v4 (BitVec.ofNat 32 (ofBeBytes (body.take 4))),
          UInt16.ofNat (ofBeBytes ((body.drop 8).take 2))⟩)
    | 2 =>
        if body.length < 36 then .error short
        else .ok (some ⟨.v6 (BitVec.ofNat 128 (ofBeBytes (body.take 16))),
          UInt16.ofNat (ofBeBytes ((body.drop 32).take 2))⟩)
    | _ => .ok none

/-- A line to its ending, on from what is read of it. -/
def readV1Line (line : Bytes) : Reader Bytes
  | [] => .error unexpectedEof
  | byte :: rest =>
      let line := line ++ [byte]
      if crlf.isSuffixOf line then .ok (line, rest)
      else if v1Max ≤ line.length then .error "PROXY v1 header too long".toList
      else readV1Line line rest

def giveOf {α : Type} : Except Text α → Reader α
  | .ok a => pure a
  | .error e => fail e

def readV1 : Reader (Option SocketAddr) := do
  let line ← readV1Line proxyWord
  match Utf8.decode (line.take (line.length - 2)) with
  | none => fail "PROXY v1 header is not text".toList
  | some text => giveOf (parseV1 text)

def readV2 : Reader (Option SocketAddr) := do
  let head ← slice earlyEof 4
  match head with
  | [version, family, high, low] =>
      if version.toNat / 16 ≠ 2 then fail "unsupported PROXY version".toList
      else do
        let body ← slice earlyEof (ofBe16 high low)
        giveOf (parseV2 (version.toNat % 16) family.toNat body)
  -- Four bytes were read.
  | _ => fail earlyEof

def readHeader : Reader (Option SocketAddr) := do
  let start ← slice earlyEof 5
  if start = proxyWord then readV1
  else do
    let more ← slice earlyEof 7
    if start ++ more ≠ v2Signature then fail "no PROXY header from a trusted proxy".toList
    else readV2

/-! Headers of the PROXY protocol: which bytes are read as one. -/

/-- No line ends within the bytes. -/
def Unbroken (body : Bytes) : Prop := ¬crlf <:+: body

/-! Version 1. -/

/-- Nothing stands behind the first ending. -/
theorem unbroken_end {lead more body : Bytes} (h : lead ++ crlf ++ more = body ++ crlf) (hbody : Unbroken body) :
    more = [] := by
  cases more using List.reverseRecOn with
  | nil => rfl
  | append_singleton front last =>
    have hends : (lead ++ crlf ++ front) ++ [last] = (body ++ [13]) ++ [10] := by simpa [crlf] using h
    have hfront := (List.append_inj' hends rfl).1
    cases front using List.reverseRecOn with
    | nil =>
      have hlast : (lead ++ [13]) ++ [10] = body ++ [13] := by simpa [crlf] using hfront
      cases (List.append_inj' hlast rfl).2
    | append_singleton front last =>
      have hinner : (lead ++ crlf ++ front) ++ [last] = body ++ [13] := by simpa using hfront
      exact absurd ⟨lead, front, (List.append_inj' hinner rfl).1⟩ hbody

/-- A line is read to the first ending, which is part of it. -/
theorem readV1Line_eq_ok {line stream full rest : Bytes} (hline : Unbroken line) (hshort : line.length < v1Max) :
    readV1Line line stream = .ok (full, rest) ↔
      ∃ more body, more ≠ [] ∧ stream = more ++ rest ∧ full = line ++ more ∧ full = body ++ crlf ∧ Unbroken body ∧
        full.length ≤ v1Max := by
  induction stream generalizing line with
  | nil =>
    constructor
    · exact nofun
    · intro ⟨more, _, hmore, hstream, _⟩
      exact absurd (List.append_eq_nil_iff.mp hstream.symm).1 hmore
  | cons byte stream ih =>
    rw [readV1Line]
    split
    next hends =>
      have ⟨lead, hlead⟩ := List.isSuffixOf_iff_suffix.mp hends
      constructor
      · intro h
        cases h
        have hlast : (lead ++ [13]) ++ [10] = line ++ [byte] := by simpa [crlf] using hlead
        have hbody : Unbroken lead := by
          intro hin
          apply hline
          rw [← (List.append_inj' hlast rfl).1]
          exact hin.trans (List.infix_append' [] lead [13])
        exact ⟨[byte], lead, List.cons_ne_nil _ _, rfl, rfl, hlead.symm, hbody, by simpa using Nat.succ_le_of_lt hshort⟩
      · intro ⟨more, body, hmore, hstream, hfull, hends, hbody, _⟩
        cases more with
        | nil => exact absurd rfl hmore
        | cons first more =>
          cases hstream
          have hwhole : lead ++ crlf ++ more = body ++ crlf := by rw [hlead, ← hends, hfull]; simp
          rw [hfull, unbroken_end hwhole hbody]
          rfl
    next hopen =>
      have hopen : ¬crlf <:+ line ++ [byte] := fun hends => hopen (List.isSuffixOf_iff_suffix.mpr hends)
      have hnext : Unbroken (line ++ [byte]) := by
        intro hin
        cases List.infix_concat_iff.mp hin with
        | inl hends => exact hopen hends
        | inr hin => exact hline hin
      -- A line that ends goes on behind this byte.
      have hbehind : ∀ more body, line ++ byte :: more = body ++ crlf → more ≠ [] := by
        intro more body hends hnil
        rw [hnil] at hends
        exact hopen ⟨body, hends.symm⟩
      split
      next hlong =>
        constructor
        · exact nofun
        · intro ⟨more, body, hmore, hstream, hfull, hends, _, hmax⟩
          cases more with
          | nil => exact absurd rfl hmore
          | cons first more =>
            cases hstream
            apply absurd _ (hbehind more body (hfull ▸ hends))
            apply List.eq_nil_of_length_eq_zero
            simp only [hfull, List.length_append, List.length_cons, List.length_nil] at hlong hmax
            omega
      next hroom =>
        rw [ih hnext (Nat.lt_of_not_le hroom)]
        constructor
        · intro ⟨more, body, _, hstream, hfull, hrest⟩
          exact ⟨byte :: more, body, List.cons_ne_nil _ _, by rw [hstream]; rfl, by rw [hfull]; simp, hrest⟩
        · intro ⟨more, body, hmore, hstream, hfull, hends, hrest⟩
          cases more with
          | nil => exact absurd rfl hmore
          | cons first more =>
            cases hstream
            exact ⟨more, body, hbehind more body (hfull ▸ hends), rfl, by rw [hfull]; simp, hends, hrest⟩

theorem giveOf_eq_ok {α : Type} {given : Except Text α} {bytes rest : Bytes} {a : α} :
    giveOf given bytes = .ok (a, rest) ↔ given = .ok a ∧ bytes = rest := by
  cases given with
  | ok b =>
    constructor
    · intro h
      cases h
      exact ⟨rfl, rfl⟩
    · intro ⟨ha, hrest⟩
      cases ha
      rw [hrest]
      rfl
  | error e =>
    constructor
    · exact nofun
    · exact fun h => nomatch h.1

/-- What the line reads as. -/
theorem parseV1_eq_ok {line : Text} {source : Option SocketAddr} : parseV1 line = .ok source ↔
    ∃ kind parts, line.splitOn ' ' = "PROXY".toList :: kind :: parts ∧
      ((kind = "UNKNOWN".toList ∧ source = none) ∨
        (kind = "TCP4".toList ∨ kind = "TCP6".toList) ∧ ∃ a b p more src dst port, parts = a :: b :: p :: more ∧
          Policy.parseIpAddr a = some src ∧ Policy.parseIpAddr b = some dst ∧ parseU16 p = some port ∧
            source = some ⟨src, port⟩) := by
  unfold parseV1
  dsimp only
  split
  next proxy kind parts hfields =>
    by_cases hproxy : proxy = "PROXY".toList
    · rw [hproxy] at hfields
      rw [if_neg (not_not.mpr hproxy), hfields]
      by_cases hunknown : kind = "UNKNOWN".toList
      · rw [if_pos hunknown]
        constructor
        · intro h
          cases h
          exact ⟨kind, parts, rfl, .inl ⟨hunknown, rfl⟩⟩
        · intro ⟨other, _, hsame, hread⟩
          cases hsame
          rw [hunknown] at hread
          obtain ⟨_, hnone⟩ | ⟨hkind, _⟩ := hread
          · rw [hnone]
          · exact absurd hkind (by decide)
      · rw [if_neg hunknown]
        split
        next hkind =>
          constructor
          · intro h
            split at h
            next a b p more =>
              split at h
              next src dst port hsrc hdst hport =>
                cases h
                exact ⟨kind, _, rfl, .inr ⟨hkind, a, b, p, more, src, dst, port, rfl, hsrc, hdst, hport, rfl⟩⟩
              next => cases h
            next => cases h
          · intro ⟨other, _, hsame, hread⟩
            cases hsame
            obtain ⟨hno, _⟩ | ⟨_, a, b, p, more, src, dst, port, hparts, hsrc, hdst, hport, hsource⟩ := hread
            · exact absurd hno hunknown
            · rw [hparts, hsource]
              simp only [hsrc, hdst, hport]
        next hkind =>
          constructor
          · exact nofun
          · intro ⟨other, _, hsame, hread⟩
            cases hsame
            obtain ⟨hno, _⟩ | ⟨hno, _⟩ := hread
            · exact absurd hno hunknown
            · exact absurd hno hkind
    · rw [if_pos hproxy]
      constructor
      · exact nofun
      · intro ⟨_, _, hsame, _⟩
        rw [hfields] at hsame
        cases hsame
        exact absurd rfl hproxy
  next hfields =>
    constructor
    · exact nofun
    · intro ⟨kind, parts, hsame, _⟩
      exact absurd hsame (hfields _ _ _)

/-- The words of a line are what stands between its single blanks. -/
theorem line_of_fields {line proxy : Text} {rest : List Text} (h : line.splitOn ' ' = proxy :: rest) : proxy <+: line := by
  have hline := @List.intercalate_splitOn _ line _ _ ' '
  rw [h] at hline
  rw [← hline]
  cases rest with
  | nil => simp [List.intercalate_singleton]
  | cons next rest => simp [List.intercalate_cons_cons]

theorem unbroken_proxy : Unbroken proxyWord := by
  unfold Unbroken
  decide

/-- The lines that are read, and what of them is read. -/
theorem readV1_eq_ok {stream rest : Bytes} {source : Option SocketAddr} : readV1 stream = .ok (source, rest) ↔
    ∃ text more, Utf8.encode text ++ crlf = proxyWord ++ more ∧ stream = more ++ rest ∧ Unbroken (Utf8.encode text) ∧
      (Utf8.encode text ++ crlf).length ≤ v1Max ∧ parseV1 text = .ok source := by
  have htake : ∀ body : Bytes, (body ++ crlf).take ((body ++ crlf).length - 2) = body := by
    intro body
    simp [crlf]
  rw [readV1, bind_eq_ok]
  constructor
  · intro ⟨full, between, hline, hread⟩
    have ⟨more, body, _, hstream, hfull, hends, hbody, hmax⟩ := (readV1Line_eq_ok unbroken_proxy (by decide)).mp hline
    rw [hends, htake] at hread
    cases hdecode : Utf8.decode body with
    | none =>
      rw [hdecode] at hread
      cases hread
    | some text =>
      rw [hdecode] at hread
      have ⟨hparse, hrest⟩ := giveOf_eq_ok.mp hread
      have htext := Utf8.decode_eq_some.mp hdecode
      rw [hends, htext] at hfull hmax
      rw [htext] at hbody
      exact ⟨text, more, hfull, hrest ▸ hstream, hbody, hmax, hparse⟩
  · intro ⟨text, more, hline, hstream, hbody, hmax, hparse⟩
    have hmore : more ≠ [] := by
      intro hnil
      rw [hnil, List.append_nil] at hline
      have hlast := congrArg List.getLast? hline
      rw [show (Utf8.encode text ++ crlf).getLast? = some 10 by simp [crlf]] at hlast
      exact absurd hlast (by decide)
    refine ⟨_, rest, (readV1Line_eq_ok unbroken_proxy (by decide)).mpr
      ⟨more, _, hmore, hstream, hline, rfl, hbody, hmax⟩, ?_⟩
    rw [htake, Utf8.decode_eq_some.mpr rfl]
    exact giveOf_eq_ok.mpr ⟨hparse, rfl⟩

/-! Version 2. -/

def v2Header (version family : UInt8) (block : Bytes) : Bytes :=
  v2Signature ++ [version, family] ++ be16 block.length ++ block

theorem ofBe16_be16 {n : Nat} (h : n < 65536) : ∃ high low, be16 n = [high, low] ∧ ofBe16 high low = n := by
  refine ⟨_, _, rfl, ?_⟩
  simp only [ofBe16, UInt8.toNat_ofNat']
  omega

theorem be16_ofBe16 (high low : UInt8) : be16 (ofBe16 high low) = [high, low] := by
  have hhigh := high.toNat_lt
  have hlow := low.toNat_lt
  simp only [be16, toBeBytes, ofBe16, List.cons.injEq, and_true, ← UInt8.toNat_inj, UInt8.toNat_ofNat']
  omega

theorem readV2_eq_ok {stream rest : Bytes} {source : Option SocketAddr} : readV2 stream = .ok (source, rest) ↔
    ∃ version family block, version.toNat / 16 = 2 ∧ block.length < 65536 ∧
      parseV2 (version.toNat % 16) family.toNat block = .ok source ∧
        v2Signature ++ stream = v2Header version family block ++ rest := by
  rw [readV2, bind_eq_ok]
  constructor
  · intro ⟨head, between, hhead, hread⟩
    have ⟨hfour, hstream⟩ := slice_eq_ok.mp hhead
    split at hread
    next version family high low =>
      split at hread
      · cases hread
      next hversion =>
        have ⟨block, after, hblock, hparse⟩ := bind_eq_ok.mp hread
        have ⟨hlength, hbetween⟩ := slice_eq_ok.mp hblock
        have ⟨hparse, hrest⟩ := giveOf_eq_ok.mp hparse
        have hbound : ofBe16 high low < 65536 := by
          have hhigh := high.toNat_lt
          have hlow := low.toNat_lt
          unfold ofBe16
          omega
        refine ⟨version, family, block, not_not.mp hversion, hlength ▸ hbound, hparse, ?_⟩
        rw [hstream, hbetween, hrest, v2Header, hlength, be16_ofBe16]
        simp
    · cases hread
  · intro ⟨version, family, block, hversion, hbound, hparse, hstream⟩
    have ⟨high, low, hlength, hread⟩ := ofBe16_be16 hbound
    have hstream : stream = [version, family, high, low] ++ (block ++ rest) := by
      rw [v2Header, hlength] at hstream
      apply @List.append_cancel_left _ v2Signature
      rw [hstream]
      simp
    refine ⟨_, _, slice_eq_ok.mpr ⟨rfl, hstream⟩, ?_⟩
    dsimp only
    rw [if_neg (not_not.mpr hversion), bind_eq_ok]
    exact ⟨block, rest, slice_eq_ok.mpr ⟨hread.symm, rfl⟩, giveOf_eq_ok.mpr ⟨hparse, rfl⟩⟩

/-- The streams that are read, and what of them is read. -/
theorem readHeader_eq_ok {stream rest : Bytes} {source : Option SocketAddr} : readHeader stream = .ok (source, rest) ↔
    (∃ text, stream = Utf8.encode text ++ crlf ++ rest ∧ Unbroken (Utf8.encode text) ∧
      (Utf8.encode text ++ crlf).length ≤ v1Max ∧ parseV1 text = .ok source) ∨
    ∃ version family block, version.toNat / 16 = 2 ∧ block.length < 65536 ∧
      parseV2 (version.toNat % 16) family.toNat block = .ok source ∧
        stream = v2Header version family block ++ rest := by
  rw [readHeader, bind_eq_ok]
  constructor
  · intro ⟨start, between, hstart, hread⟩
    have ⟨hfive, hstream⟩ := slice_eq_ok.mp hstart
    split at hread
    next hproxy =>
      have ⟨text, more, hline, hmore, hbody, hmax, hparse⟩ := readV1_eq_ok.mp hread
      left
      refine ⟨text, ?_, hbody, hmax, hparse⟩
      rw [hline, hstream, hproxy, hmore]
      simp
    next hproxy =>
      have ⟨more, after, hmore, hread⟩ := bind_eq_ok.mp hread
      have ⟨hseven, hbetween⟩ := slice_eq_ok.mp hmore
      split at hread
      · cases hread
      next hsignature =>
        have ⟨version, family, block, hversion, hbound, hparse, hafter⟩ := readV2_eq_ok.mp hread
        right
        refine ⟨version, family, block, hversion, hbound, hparse, ?_⟩
        rw [← hafter, ← not_not.mp hsignature, hstream, hbetween]
        simp
  · intro h
    cases h with
    | inl hline =>
      have ⟨text, hstream, hbody, hmax, hparse⟩ := hline
      have ⟨kind, parts, hfields, _⟩ := parseV1_eq_ok.mp hparse
      have ⟨tail, htail⟩ := line_of_fields hfields
      have hwhole : Utf8.encode text ++ crlf = proxyWord ++ (Utf8.encode tail ++ crlf) := by
        rw [← htail, Utf8.encode_append]
        simp [proxyWord]
      refine ⟨proxyWord, Utf8.encode tail ++ crlf ++ rest, slice_eq_ok.mpr ⟨rfl, ?_⟩, ?_⟩
      · rw [hstream, hwhole]
        simp
      · rw [if_pos rfl]
        exact readV1_eq_ok.mpr ⟨text, _, hwhole, rfl, hbody, hmax, hparse⟩
    | inr hbinary =>
      have ⟨version, family, block, hversion, hbound, hparse, hstream⟩ := hbinary
      have hsignature : v2Signature.take 5 ++ v2Signature.drop 5 = v2Signature := List.take_append_drop 5 v2Signature
      have htail : ∃ tail, v2Header version family block ++ rest = v2Signature ++ tail :=
        ⟨_, by rw [v2Header]; simp only [List.append_assoc]; rfl⟩
      have ⟨tail, htail⟩ := htail
      refine ⟨v2Signature.take 5, v2Signature.drop 5 ++ tail, slice_eq_ok.mpr ⟨rfl, ?_⟩, ?_⟩
      · rw [hstream, htail, ← List.append_assoc, hsignature]
      · rw [if_neg (by decide), bind_eq_ok]
        refine ⟨v2Signature.drop 5, tail, slice_eq_ok.mpr ⟨rfl, rfl⟩, ?_⟩
        rw [hsignature, if_neg (not_not.mpr rfl)]
        exact readV2_eq_ok.mpr ⟨version, family, block, hversion, hbound, hparse, htail.symm⟩

/-! Headers. -/

/-- A port in decimal. -/
def IsPort (s : Text) (port : UInt16) : Prop := s = ofNat port.toNat

/-- The addresses are of the family that is named. -/
def OfFamily (kind : Text) (src dst : IpAddr) : Prop :=
  (kind = "TCP4".toList ∧ src.isIpv4 = true ∧ dst.isIpv4 = true) ∨
    (kind = "TCP6".toList ∧ src.isIpv4 = false ∧ dst.isIpv4 = false)

def unknownWords : Bytes := Utf8.encode "PROXY UNKNOWN".toList

/-- The bytes of a line with its ending. -/
structure LineOf (body header : Bytes) : Prop where
  ends : header = body ++ crlf
  unbroken : Unbroken body
  short : header.length ≤ v1Max

inductive Header : Bytes → Option SocketAddr → Prop
  | tcp (text kind a b p q : Text) (src dst : IpAddr) (port other : UInt16) (header : Bytes)
      (hline : LineOf (Utf8.encode text) header) (hfields : text.splitOn ' ' = ["PROXY".toList, kind, a, b, p, q])
      (hsrc : Policy.parseIpAddr a = some src) (hdst : Policy.parseIpAddr b = some dst) (hfamily : OfFamily kind src dst)
      (hport : IsPort p port) (hother : IsPort q other) : Header header (some ⟨src, port⟩)
  | unknown (rest header : Bytes) (hrest : rest = [] ∨ rest.head? = some 32) (hline : LineOf (unknownWords ++ rest) header) :
      Header header none
  | loc (version family : UInt8) (block : Bytes) (hversion : version = 0x20) (hlength : block.length < 65536) :
      Header (v2Header version family block) none
  | inet (version family : UInt8) (src dst port other tlvs : Bytes) (hversion : version = 0x21)
      (hfamily : family.toNat / 16 = 1) (hsrc : src.length = 4) (hdst : dst.length = 4) (hport : port.length = 2)
      (hother : other.length = 2) (hlength : (src ++ dst ++ port ++ other ++ tlvs).length < 65536) :
      Header (v2Header version family (src ++ dst ++ port ++ other ++ tlvs))
        (some ⟨.v4 (BitVec.ofNat 32 (ofBeBytes src)), UInt16.ofNat (ofBeBytes port)⟩)
  | inet6 (version family : UInt8) (src dst port other tlvs : Bytes) (hversion : version = 0x21)
      (hfamily : family.toNat / 16 = 2) (hsrc : src.length = 16) (hdst : dst.length = 16) (hport : port.length = 2)
      (hother : other.length = 2) (hlength : (src ++ dst ++ port ++ other ++ tlvs).length < 65536) :
      Header (v2Header version family (src ++ dst ++ port ++ other ++ tlvs))
        (some ⟨.v6 (BitVec.ofNat 128 (ofBeBytes src)), UInt16.ofNat (ofBeBytes port)⟩)
  | unspecified (version family : UInt8) (block : Bytes) (hversion : version = 0x21) (hinet : family.toNat / 16 ≠ 1)
      (hinet6 : family.toNat / 16 ≠ 2) (hlength : block.length < 65536) : Header (v2Header version family block) none

/-- An `UNKNOWN` line with a rest that is no text. -/
def NoText (header : Bytes) : Prop :=
  ∃ rest, header = unknownWords ++ rest ++ crlf ∧ Utf8.decode (unknownWords ++ rest) = none

/-- A line with two addresses and a port that is no header: an address of the other family, a port
that is not written in decimal, or no other port, or more behind it. -/
def Slack (header : Bytes) : Prop :=
  ∃ (text kind a b p : Text) (more : List Text) (src dst : IpAddr) (port : UInt16),
    header = Utf8.encode text ++ crlf ∧ text.splitOn ' ' = "PROXY".toList :: kind :: a :: b :: p :: more ∧
      (kind = "TCP4".toList ∨ kind = "TCP6".toList) ∧ Policy.parseIpAddr a = some src ∧ Policy.parseIpAddr b = some dst ∧
        parseU16 p = some port ∧
          ¬(OfFamily kind src dst ∧ IsPort p port ∧ ∃ q other, more = [q] ∧ IsPort q other)

theorem parseU16_port (port : UInt16) : parseU16 (ofNat port.toNat) = some port := by
  have hplus : stripPrefix ['+'] (ofNat port.toNat) = none := by
    cases hstrip : stripPrefix ['+'] (ofNat port.toNat) with
    | none => rfl
    | some rest =>
      have hmem : '+' ∈ ofNat port.toNat := by
        rw [stripPrefix_eq_some.mp hstrip]
        exact List.mem_cons_self
      exact absurd (isDigit_ofNat hmem) (by decide)
  have hall : (ofNat port.toNat).all Char.isDigit = true := List.all_eq_true.mpr fun _ => isDigit_ofNat
  unfold parseU16
  simp [hplus, hall, ofNat_ne_nil, readDigits_ofNat, port.toNat_lt]

theorem splitOn_after (lead rest : Text) : (lead ++ ' ' :: rest).splitOn ' ' = lead.splitOn ' ' ++ rest.splitOn ' ' := by
  rw [List.splitOn_eq_splitOnP, List.splitOn_eq_splitOnP, List.splitOn_eq_splitOnP]
  exact @List.splitOnP_append_cons _ (· == ' ') lead rest ' ' rfl

/-- Text whose bytes begin as others do begins with their text. -/
theorem prefix_of_encode {lead text : Text} {rest : Bytes} (h : Utf8.encode text = Utf8.encode lead ++ rest) :
    lead <+: text := by
  apply List.isPrefix_of_utf8Encode_append_eq_utf8Encode rest.toByteArray
  rw [← Utf8.toByteArray_encode, ← Utf8.toByteArray_encode, h, List.toByteArray_append]

theorem unknown_fields {text : Text} {rest : Bytes} (h : Utf8.encode text = unknownWords ++ rest)
    (hrest : rest = [] ∨ rest.head? = some 32) : ∃ parts, text.splitOn ' ' = "PROXY".toList :: "UNKNOWN".toList :: parts := by
  cases hrest with
  | inl hnil =>
    rw [hnil, List.append_nil] at h
    rw [Utf8.encode_injective h]
    exact ⟨[], by decide⟩
  | inr hblank =>
    have ⟨tail, htail⟩ : ∃ tail, rest = 32 :: tail := by
      cases rest with
      | nil => cases hblank
      | cons first tail => exact ⟨tail, by rw [Option.some.inj hblank]⟩
    have hlead : Utf8.encode text = Utf8.encode "PROXY UNKNOWN ".toList ++ tail := by
      rw [h, htail, unknownWords, show "PROXY UNKNOWN ".toList = "PROXY UNKNOWN".toList ++ [' '] by decide,
        Utf8.encode_append, List.append_assoc]
      rfl
    have ⟨more, hmore⟩ := prefix_of_encode hlead
    have htext : text = "PROXY UNKNOWN".toList ++ ' ' :: more := by
      rw [← hmore]
      rfl
    exact ⟨more.splitOn ' ', by rw [htext, splitOn_after]; rfl⟩

/-- Two fields at the start of a line, with what follows them. -/
theorem text_of_fields {text : Text} {first second : Text} {parts : List Text}
    (h : text.splitOn ' ' = first :: second :: parts) :
    ∃ rest, text = first ++ ' ' :: second ++ rest ∧ (rest = [] ∨ rest.head? = some ' ') := by
  have hline := @List.intercalate_splitOn _ text _ _ ' '
  rw [h] at hline
  rw [← hline]
  cases parts with
  | nil => exact ⟨[], by simp [List.intercalate_cons_cons, List.intercalate_singleton], .inl rfl⟩
  | cons third parts =>
    exact ⟨' ' :: [' '].intercalate (third :: parts), by simp [List.intercalate_cons_cons], .inr rfl⟩

theorem OfFamily.kind {kind : Text} {src dst : IpAddr} (h : OfFamily kind src dst) :
    kind = "TCP4".toList ∨ kind = "TCP6".toList := h.imp And.left And.left

theorem not_noText_v2 (version family : UInt8) (block : Bytes) : ¬NoText (v2Header version family block) := by
  intro ⟨rest, hheader, _⟩
  have hhead : (some 13 : Option UInt8) = some 80 := congrArg List.head? hheader
  exact absurd hhead (by decide)

/-- A header of version 2 is read as its command and block are. -/
theorem readHeader_v2 {version family : UInt8} {block : Bytes} {source : Option SocketAddr}
    (hversion : version.toNat / 16 = 2) (hlength : block.length < 65536)
    (hparse : parseV2 (version.toNat % 16) family.toNat block = .ok source) (payload : Bytes) :
    readHeader (v2Header version family block ++ payload) = .ok (source, payload) ↔
      ¬NoText (v2Header version family block) :=
  iff_of_true (readHeader_eq_ok.mpr (.inr ⟨version, family, block, hversion, hlength, hparse, rfl⟩))
    (not_noText_v2 version family block)

/-- What the code takes of a header is its source address, unless it is no text. -/
theorem readHeader_header {header payload : Bytes} {source : Option SocketAddr} (h : Header header source) :
    readHeader (header ++ payload) = .ok (source, payload) ↔ ¬NoText header := by
  cases h with
  | tcp text kind a b p q src dst port other header hline hfields hsrc hdst hfamily hport hother =>
    apply iff_of_true
    · refine readHeader_eq_ok.mpr (.inl ⟨text, by rw [hline.ends], hline.unbroken, hline.ends ▸ hline.short, ?_⟩)
      have hread : parseU16 p = some port := by rw [hport, parseU16_port]
      exact parseV1_eq_ok.mpr ⟨kind, _, hfields, .inr ⟨hfamily.kind, a, b, p, [q], src, dst, port, rfl, hsrc, hdst, hread, rfl⟩⟩
    · intro ⟨rest, hheader, hdecode⟩
      rw [hline.ends] at hheader
      rw [← List.append_cancel_right hheader, Utf8.decode_eq_some.mpr rfl] at hdecode
      cases hdecode
  | unknown rest header hrest hline =>
    constructor
    · intro hread ⟨other, hheader, hdecode⟩
      cases readHeader_eq_ok.mp hread with
      | inl hline =>
        have ⟨text, hstream, _⟩ := hline
        have hsame := List.append_cancel_right (hheader.symm.trans (List.append_cancel_right hstream))
        rw [hsame, Utf8.decode_eq_some.mpr rfl] at hdecode
        cases hdecode
      | inr hbinary =>
        have ⟨version, family, block, _, _, _, hstream⟩ := hbinary
        exact not_noText_v2 version family block ⟨other, List.append_cancel_right hstream ▸ hheader, hdecode⟩
    · intro htext
      cases hdecode : Utf8.decode (unknownWords ++ rest) with
      | none => exact absurd ⟨rest, hline.ends, hdecode⟩ htext
      | some text =>
        have hbytes := Utf8.decode_eq_some.mp hdecode
        have ⟨parts, hfields⟩ := unknown_fields hbytes.symm hrest
        refine readHeader_eq_ok.mpr (.inl ⟨text, by rw [hline.ends, hbytes], hbytes ▸ hline.unbroken, ?_, ?_⟩)
        · rw [← hbytes, ← hline.ends]
          exact hline.short
        · exact parseV1_eq_ok.mpr ⟨_, parts, hfields, .inl ⟨rfl, rfl⟩⟩
  | loc version family block hversion hlength =>
    exact readHeader_v2 (by rw [hversion]; rfl) hlength (by rw [hversion]; rfl) payload
  | inet version family src dst port other tlvs hversion hfamily hsrc hdst hport hother hlength =>
    refine readHeader_v2 (by rw [hversion]; rfl) hlength ?_ payload
    have hlong : ¬(src ++ dst ++ port ++ other ++ tlvs).length < 12 := by simp only [List.length_append]; omega
    have hsource : (src ++ dst ++ port ++ other ++ tlvs).take 4 = src := by
      simp only [List.append_assoc]
      exact List.take_left' hsrc
    have hbytes : ((src ++ dst ++ port ++ other ++ tlvs).drop 8).take 2 = port := by
      rw [List.append_assoc (src ++ dst ++ port), List.append_assoc (src ++ dst),
        List.drop_left' (by rw [List.length_append, hsrc, hdst])]
      exact List.take_left' hport
    rw [hversion]
    simp only [parseV2, hfamily, if_neg hlong, hsource, hbytes]
    rfl
  | inet6 version family src dst port other tlvs hversion hfamily hsrc hdst hport hother hlength =>
    refine readHeader_v2 (by rw [hversion]; rfl) hlength ?_ payload
    have hlong : ¬(src ++ dst ++ port ++ other ++ tlvs).length < 36 := by simp only [List.length_append]; omega
    have hsource : (src ++ dst ++ port ++ other ++ tlvs).take 16 = src := by
      simp only [List.append_assoc]
      exact List.take_left' hsrc
    have hbytes : ((src ++ dst ++ port ++ other ++ tlvs).drop 32).take 2 = port := by
      rw [List.append_assoc (src ++ dst ++ port), List.append_assoc (src ++ dst),
        List.drop_left' (by rw [List.length_append, hsrc, hdst])]
      exact List.take_left' hport
    rw [hversion]
    simp only [parseV2, hfamily, if_neg hlong, hsource, hbytes]
    rfl
  | unspecified version family block hversion hinet hinet6 hlength =>
    refine readHeader_v2 (by rw [hversion]; rfl) hlength ?_ payload
    rw [hversion]
    unfold parseV2
    split
    next hlocal => rfl
    split
    next hother => exact absurd rfl hother
    split
    next hfamily => exact absurd hfamily hinet
    next hfamily => exact absurd hfamily hinet6
    next => rfl

/-- The parts of a block: two addresses, two ports and what follows. -/
theorem block_parts (width : Nat) {block : Bytes} (h : 2 * width + 4 ≤ block.length) :
    ∃ src dst port other tlvs, block = src ++ dst ++ port ++ other ++ tlvs ∧ src.length = width ∧ dst.length = width ∧
      port.length = 2 ∧ other.length = 2 ∧ src = block.take width ∧ port = (block.drop (2 * width)).take 2 := by
  have hdrop : ∀ n count, (block.drop n).take count ++ block.drop (n + count) = block.drop n := by
    intro n count
    rw [← List.drop_drop, List.take_append_drop]
  refine ⟨block.take width, (block.drop width).take width, (block.drop (2 * width)).take 2,
    (block.drop (2 * width + 2)).take 2, block.drop (2 * width + 4), ?_, ?_, ?_, ?_, ?_, rfl, rfl⟩
  · simp only [List.append_assoc]
    rw [hdrop (2 * width + 2) 2, hdrop (2 * width) 2, Nat.two_mul, hdrop width width, List.take_append_drop]
  all_goals simp only [List.length_take, List.length_drop]; omega

/-- What is read is a header, or a line that lacks something of one. -/
theorem header_of_read {stream rest : Bytes} {source : Option SocketAddr} (h : readHeader stream = .ok (source, rest)) :
    ∃ header, stream = header ++ rest ∧ (Slack header ∨ Header header source) := by
  cases readHeader_eq_ok.mp h with
  | inl hline =>
    have ⟨text, hstream, hbody, hmax, hparse⟩ := hline
    refine ⟨_, hstream, ?_⟩
    have ⟨kind, parts, hfields, hread⟩ := parseV1_eq_ok.mp hparse
    obtain ⟨hkind, hsource⟩ | ⟨hkind, a, b, p, more, src, dst, port, hparts, hsrc, hdst, hport, hsource⟩ := hread
    · right
      rw [hkind] at hfields
      have ⟨tail, htext, htail⟩ := text_of_fields hfields
      have hbytes : Utf8.encode text = unknownWords ++ Utf8.encode tail := by
        rw [htext, Utf8.encode_append]
        rfl
      rw [hsource]
      refine .unknown (Utf8.encode tail) _ ?_ ⟨by rw [hbytes], hbytes ▸ hbody, hmax⟩
      cases tail with
      | nil => exact .inl rfl
      | cons c tail =>
        have hblank : c = ' ' := by simpa using htail
        exact .inr (by rw [hblank]; rfl)
    · rw [hparts] at hfields
      by_cases hstrict : OfFamily kind src dst ∧ IsPort p port ∧ ∃ q other, more = [q] ∧ IsPort q other
      · right
        have ⟨hfamily, hp, q, other, hmore, hq⟩ := hstrict
        rw [hsource]
        rw [hmore] at hfields
        exact .tcp text kind a b p q src dst port other _ ⟨rfl, hbody, hmax⟩ hfields hsrc hdst hfamily hp hq
      · left
        exact ⟨text, kind, a, b, p, more, src, dst, port, rfl, hfields, hkind, hsrc, hdst, hport, hstrict⟩
  | inr hbinary =>
    have ⟨version, family, block, hversion, hlength, hparse, hstream⟩ := hbinary
    refine ⟨_, hstream, .inr ?_⟩
    have hcommand : ∀ n < 16, version.toNat % 16 = n → version = UInt8.ofNat (32 + n) := by
      intro n hn hmod
      apply UInt8.toNat_inj.mp
      rw [UInt8.toNat_ofNat']
      omega
    unfold parseV2 at hparse
    dsimp only at hparse
    split at hparse
    next hlocal =>
      cases hparse
      exact .loc version family block (hcommand 0 (by decide) hlocal) hlength
    split at hparse
    · cases hparse
    next hproxy =>
      have hversion : version = 0x21 := hcommand 1 (by decide) (not_not.mp hproxy)
      split at hparse
      next hfamily =>
        split at hparse
        · cases hparse
        next hlong =>
          cases hparse
          have ⟨src, dst, port, other, tlvs, hblock, hsrc, hdst, hport, hother, hsource, hbytes⟩ :=
            block_parts 4 (Nat.le_of_not_lt hlong)
          have hheader := Header.inet version family src dst port other tlvs hversion hfamily hsrc hdst hport hother
            (hblock ▸ hlength)
          rw [← hblock, hsource, hbytes] at hheader
          exact hheader
      next hfamily =>
        split at hparse
        · cases hparse
        next hlong =>
          cases hparse
          have ⟨src, dst, port, other, tlvs, hblock, hsrc, hdst, hport, hother, hsource, hbytes⟩ :=
            block_parts 16 (Nat.le_of_not_lt hlong)
          have hheader := Header.inet6 version family src dst port other tlvs hversion hfamily hsrc hdst hport hother
            (hblock ▸ hlength)
          rw [← hblock, hsource, hbytes] at hheader
          exact hheader
      next hinet hinet6 =>
        cases hparse
        exact .unspecified version family block hversion hinet hinet6 hlength

/-- Such a line is no header. -/
theorem Slack.not_header {header : Bytes} (h : Slack header) (source : Option SocketAddr) : ¬Header header source := by
  have ⟨text, kind, a, b, p, more, src, dst, port, hheader, hfields, hkind, hsrc, hdst, hport, hstrict⟩ := h
  have hbinary : ∀ version family block, header ≠ v2Header version family block := by
    intro version family block hsame
    have ⟨tail, htail⟩ := line_of_fields hfields
    rw [hheader, ← htail, Utf8.encode_append] at hsame
    have hhead : (some 80 : Option UInt8) = some 13 := congrArg List.head? hsame
    exact absurd hhead (by decide)
  intro hsource
  cases hsource with
  | tcp text' kind' a' b' p' q src' dst' port' other _ hline hfields' hsrc' hdst' hfamily hport' hother =>
    have htext := Utf8.encode_injective (List.append_cancel_right (hheader.symm.trans hline.ends))
    rw [htext, hfields'] at hfields
    cases hfields
    cases hsrc.symm.trans hsrc'
    cases hdst.symm.trans hdst'
    rw [hport', parseU16_port] at hport
    cases hport
    exact hstrict ⟨hfamily, hport', q, other, rfl, hother⟩
  | unknown rest _ hrest hline =>
    have hbytes := List.append_cancel_right (hheader.symm.trans hline.ends)
    have ⟨parts, hunknown⟩ := unknown_fields hbytes hrest
    rw [hfields] at hunknown
    cases hunknown
    exact absurd hkind (by decide)
  | loc version family block => exact hbinary _ _ _ rfl
  | inet version family src dst port other tlvs => exact hbinary _ _ _ rfl
  | inet6 version family src dst port other tlvs => exact hbinary _ _ _ rfl
  | unspecified version family block => exact hbinary _ _ _ rfl

/-- An `UNKNOWN` line with a byte that is no text. -/
def unknownLine : Bytes := unknownWords ++ [32, 255] ++ crlf

/-- Addresses of the other family, and no second port. -/
def slackText : Text := "PROXY TCP4 2001:db8::1 2001:db8::2 4711".toList

end DaygleDns.Dispatch
