import StyleCompanion.Proofs.Json.Truncated
import StyleCompanion.Proofs.Rpc.RoundTrip

/-
  Streams that leave their track.

  Behind a header without a length the framer looks for the
  next header at once, so that the body of the frame it drops
  stands in front of the header that follows.  If the header
  still gives its length there, then nothing else is lost.  If
  it does not, then the body behind it runs into the header
  after it, and so on to the end of the stream.

  Main declarations:
    * `Derails`
    * `Framer.messages_derailed`
    * `Framer.messages_landed`
    * `Framer.resynchronizes_iff`
-/

namespace StyleCompanion

namespace Rpc

----
-- Ends of header blocks
----

/-
  Bytes without an end of a header block may stand in front of
  a header that begins with a letter.
-/
theorem FirstEnd.append_header
    {front header : List UInt8}
    (hFront : ¬ headerEnd <:+: front)
    {b : UInt8}
    (hLetter : b ∉ headerEnd)
    (hHeader : 13 ∉ b :: header)
    (rest : List UInt8) :
    FirstEnd (front ++ b :: header) rest := by
  induction front with
  | nil => exact FirstEnd.of_notMem hHeader rest
  | cons a front ih =>
      refine (ih ?_).cons ?_
      · exact fun h => hFront (h.trans
          (List.suffix_cons a front).isInfix)
      -- an end at the front would reach the letter or not
      intro hBegin
      have hLetterIn :
          (a :: front) ++ [b] <+:
            a :: (front ++ b :: header ++ headerEnd ++ rest) :=
        ⟨header ++ headerEnd ++ rest, by simp⟩
      rcases List.prefix_or_prefix_of_prefix hBegin hLetterIn
        with hInside | hOutside
      · rcases List.prefix_concat_iff.mp hInside with
          hWhole | hEarlier
        · apply hLetter
          rw [hWhole]
          simp
        · exact hFront hEarlier.isInfix
      · exact hLetter (hOutside.subset (by simp))

/- Bytes without an end of a header block are kept. -/
theorem splitHeader_of_no_end
    {front : List UInt8}
    (h : ¬ headerEnd <:+: front) :
    splitHeader front = none := by
  cases hSplit : splitHeader front with
  | none => rfl
  | some p =>
      have hBytes := ((splitHeader_eq_some_iff _ _ _).mp
        hSplit).1
      exact absurd ⟨p.1, p.2, hBytes.symm⟩ h

----
-- Lines without a length
----

/- A line is cut at its first colon. -/
theorem splitColon_eq_some
    {line name value : List Char}
    (h : splitColon line = some (name, value)) :
    line = name ++ ':' :: value ∧ ':' ∉ name := by
  induction line generalizing name with
  | nil => simp [splitColon] at h
  | cons c rest ih =>
      rw [splitColon] at h
      split at h
      next hColon =>
        cases h
        simp [hColon]
      next hColon =>
        rcases Option.map_eq_some_iff.mp h with ⟨p, hRest, hP⟩
        cases hP
        simp [(ih hRest).2, ← (ih hRest).1, Ne.symm hColon]

/- A line without a colon is not cut. -/
theorem splitColon_of_notMem
    {line : List Char}
    (h : ':' ∉ line) :
    splitColon line = none := by
  cases hSplit : splitColon line with
  | none => rfl
  | some p =>
      rw [(splitColon_eq_some hSplit).1] at h
      simp at h

/- The length of a header block, line by line. -/
theorem contentLength_eq_bind
    (header : List UInt8) :
    contentLength header =
      ((splitLines (Utf8.asciiOnly header)).findSome?
        lengthField).bind readLength := by
  rw [contentLength]
  cases (splitLines (Utf8.asciiOnly header)).findSome?
      lengthField with
  | none => rfl
  | some value => rfl

/- A header block of one line. -/
theorem contentLength_line
    {header : List UInt8}
    (h : 13 ∉ header) :
    contentLength header =
      (lengthField (Utf8.asciiOnly header)).bind
        readLength := by
  have hLine : '\r' ∉ Utf8.asciiOnly header := fun hBreak =>
    h (Utf8.mem_of_mem_asciiOnly hBreak)
  rw [contentLength_eq_bind, splitLines_of_notMem hLine,
    List.findSome?_singleton]

/- A line with a brace gives no length, wherever it stands. -/
theorem lengthField_brace
    {line : List Char}
    (h : '}' ∈ line) :
    (lengthField line).bind readLength = none := by
  rw [lengthField]
  split
  next => rfl
  next name value hSplit =>
    rw [(splitColon_eq_some hSplit).1, List.mem_append,
      List.mem_cons] at h
    have hBlank : Text.isBlank '}' = false := by decide
    split
    next hName =>
      rcases h with hFront | hColon | hBack
      · -- the name would have the brace
        have hMem := List.mem_map_of_mem
          (f := Text.lowerChar)
          (Text.mem_stripWith hBlank hFront)
        rw [Text.trimChars] at hName
        rw [hName] at hMem
        exact absurd hMem (by decide)
      · cases hColon
      · have hValue := Text.mem_stripWith hBlank hBack
        have hRead :
            Text.readInteger
              (String.ofList (Text.trimChars value)) = none :=
          Text.readInteger_eq_none (c := '}') (by decide)
            (by rw [String.toList_ofList]; exact hValue)
        rw [Option.bind_some, readLength, hRead]
    next => rfl

/- A name of a length has as many characters. -/
theorem length_of_lengthField
    {name value field : List Char}
    (hName : ':' ∉ name)
    (h : lengthField (name ++ ':' :: value) = some field) :
    lengthName.length ≤ name.length := by
  rw [lengthField, splitColon_append hName] at h
  dsimp only at h
  split at h
  next hSame =>
    rw [← hSame, List.length_map]
    exact Text.length_stripWith_le _ _
  next => cases h

----
-- Bytes that derail
----

/-
  Bytes in front of a header behind which the header is not
  recognised, whatever length it gives.
-/
structure Derails
    (front : List UInt8) : Prop where
  noEnd : ¬ headerEnd <:+: front
  noLength : ∀ n,
    contentLength (front ++ Utf8.encode (lengthLine n)) = none

/- A written header begins with a letter. -/
theorem encode_lengthLine_eq_cons
    (n : Nat) :
    ∃ header, Utf8.encode (lengthLine n) = 67 :: header :=
  ⟨_, rfl⟩

/- Bytes without an end may stand in front of a header. -/
theorem FirstEnd.append_lengthLine
    {front : List UInt8}
    (h : ¬ headerEnd <:+: front)
    (n : Nat)
    (rest : List UInt8) :
    FirstEnd (front ++ Utf8.encode (lengthLine n)) rest := by
  rcases encode_lengthLine_eq_cons n with ⟨header, hHeader⟩
  have hBreak := notMem_encode_lengthLine n
  rw [hHeader] at hBreak ⊢
  exact FirstEnd.append_header h (by decide) hBreak rest

/- An end of a header block has two line breaks. -/
theorem no_end_of_count
    {front : List UInt8}
    (h : front.count 13 ≤ 1) :
    ¬ headerEnd <:+: front := by
  intro hInfix
  have hCount := hInfix.sublist.count_le 13
  have hTwo : headerEnd.count 13 = 2 := by decide
  omega

namespace Derails

variable {front : List UInt8}

/- A brace on the line of the header. -/
theorem of_brace
    (hLine : 13 ∉ front)
    (hBrace : 125 ∈ front) :
    Derails front where
  noEnd :=
    no_end_of_count
      (by rw [List.count_eq_zero.mpr hLine]; decide)
  noLength := by
    intro n
    have hOne :
        13 ∉ front ++ Utf8.encode (lengthLine n) := by
      rw [List.mem_append, not_or]
      exact ⟨hLine, notMem_encode_lengthLine n⟩
    rw [contentLength_line hOne]
    apply lengthField_brace
    rw [Utf8.asciiOnly_append, List.mem_append]
    exact Or.inl (Utf8.mem_asciiOnly (by decide) hBrace)

/- A brace on the line of the header, behind another line. -/
theorem line_break
    (hLine : 13 ∉ front)
    (hBrace : 125 ∈ front)
    {line : List UInt8}
    (hBefore : line = [] ∨ line = [10]) :
    Derails (line ++ 13 :: 10 :: front) where
  noEnd := by
    apply no_end_of_count
    rcases hBefore with rfl | rfl <;>
      simp [List.count_eq_zero.mpr hLine]
  noLength := by
    intro n
    have hRest := (of_brace hLine hBrace).noLength n
    rw [contentLength_eq_bind] at hRest ⊢
    rw [← hRest]
    rcases hBefore with rfl | rfl
    · rfl
    · rfl

end Derails

----
-- Written messages
----

/- The header of a written message. -/
def messageHeader
    (fs : Table String Json) : List UInt8 :=
  Utf8.encode (lengthLine (messageBody fs).length)

/- Messages that are written one after the other. -/
def stream
    (ps : List (Table String Json)) : List UInt8 :=
  ps.flatMap fun p => encode (.obj p)

/- The length that a header gives behind other bytes. -/
def lengthBehind
    (front : List UInt8)
    (p : Table String Json) : Option Nat :=
  contentLength (front ++ messageHeader p)

theorem encode_obj_eq
    (p : Table String Json) :
    encode (.obj p) =
      messageHeader p ++ headerEnd ++ messageBody p :=
  (bytes_messageSegment p).symm

theorem stream_cons
    (p : Table String Json)
    (ps : List (Table String Json)) :
    stream (p :: ps) =
      messageHeader p ++ headerEnd ++ messageBody p ++
        stream ps := by
  rw [stream, List.flatMap_cons, encode_obj_eq]
  rfl

/- The body of a message is one line that ends with a brace. -/
theorem messageBody_line
    {p : Table String Json}
    (h : (Json.obj p).Plain) :
    13 ∉ messageBody p ∧
      ∃ bs, messageBody p = bs ++ [125] := by
  constructor
  · intro hBreak
    have hChar := Utf8.mem_of_mem_encode (by decide) hBreak
    have hPrinted := List.all_eq_true.mp h.printed _ hChar
    cases hPrinted
  · rcases Json.compact_obj_eq_concat p with ⟨cs, hText⟩
    refine ⟨Utf8.encode cs, ?_⟩
    rw [messageBody, hText, Utf8.encode_append]
    rfl

/- What is left of the body of a message derails. -/
theorem derails_of_suffix
    {p : Table String Json}
    (h : (Json.obj p).Plain)
    {bs : List UInt8}
    (hSome : bs ≠ [])
    (hSuffix : bs <:+ messageBody p) :
    Derails bs := by
  rcases messageBody_line h with ⟨hLine, body, hBody⟩
  apply Derails.of_brace
  · exact fun hBreak => hLine (hSuffix.subset hBreak)
  · rw [hBody, List.suffix_concat_iff] at hSuffix
    rcases hSuffix with hNone | ⟨left, rfl, -⟩
    · exact absurd hNone hSome
    · simp

/- The whole body of a message derails. -/
theorem derails_messageBody
    {p : Table String Json}
    (h : (Json.obj p).Plain) :
    Derails (messageBody p) := by
  apply derails_of_suffix h _ List.suffix_rfl
  rcases (messageBody_line h).2 with ⟨body, hBody⟩
  rw [hBody]
  simp

/- So does the body behind what is left of the empty line. -/
theorem derails_drop
    {p : Table String Json}
    (h : (Json.obj p).Plain)
    {k : Nat}
    (hLow : 0 < k)
    (hHigh : k < headerEnd.length + (messageBody p).length) :
    Derails ((headerEnd ++ messageBody p).drop k) := by
  rcases messageBody_line h with ⟨hLine, body, hBody⟩
  have hBrace : 125 ∈ messageBody p := by
    rw [hBody]
    simp
  rcases Nat.lt_or_ge k headerEnd.length with hEmpty | hInside
  · have hFour : headerEnd.length = 4 := rfl
    rcases (by omega : k = 1 ∨ k = 2 ∨ k = 3) with
      rfl | rfl | rfl
    · exact Derails.line_break hLine hBrace (Or.inr rfl)
    · exact Derails.line_break hLine hBrace (Or.inl rfl)
    · apply Derails.of_brace
      · exact List.not_mem_cons_of_ne_of_not_mem
          (by decide) hLine
      · exact List.mem_cons_of_mem _ hBrace
  · rw [List.drop_append, List.drop_eq_nil_of_le hInside,
      List.nil_append]
    apply derails_of_suffix h _ (List.drop_suffix _ _)
    rw [Ne, List.drop_eq_nil_iff]
    omega

/-
  A name of the right size and its value, cut in front, give
  no length.
-/
theorem lengthField_drop
    {name value : List Char}
    (hSize : name.length = lengthName.length)
    (hName : ':' ∉ name)
    (hValue : ':' ∉ value)
    {k : Nat}
    (h : 0 < k) :
    lengthField ((name ++ ':' :: value).drop k) = none := by
  rw [List.drop_append]
  rcases Nat.lt_or_ge name.length k with hBehind | hInside
  · -- no colon is left
    rcases Nat.exists_eq_add_of_lt hBehind with ⟨j, rfl⟩
    rw [List.drop_eq_nil_of_le (by omega), List.nil_append,
      Nat.add_assoc, Nat.add_sub_cancel_left,
      List.drop_succ_cons, lengthField, splitColon_of_notMem]
    exact fun hColon => hValue (List.mem_of_mem_drop hColon)
  · -- the colon is left, and a name that is too short
    rw [Nat.sub_eq_zero_of_le hInside, List.drop_zero]
    have hNone : ':' ∉ name.drop k := fun hColon =>
      hName (List.mem_of_mem_drop hColon)
    cases hField :
        lengthField (name.drop k ++ ':' :: value) with
    | none => rfl
    | some field =>
        have hLong := length_of_lengthField hNone hField
        have hShort : 0 < lengthName.length := by decide
        rw [List.length_drop] at hLong
        omega

/- A written line that is cut in front gives no length. -/
theorem lengthField_drop_lengthLine
    (n : Nat)
    {k : Nat}
    (h : 0 < k) :
    lengthField ((lengthLine n).drop k) = none := by
  have hLine :
      lengthLine n =
        "Content-Length".toList ++
          ':' :: ' ' :: Nat.toDigits 10 n :=
    rfl
  have hSize :
      "Content-Length".toList.length = lengthName.length := by
    decide
  have hName : ':' ∉ "Content-Length".toList := by decide
  have hValue : ':' ∉ ' ' :: Nat.toDigits 10 n := by
    intro hColon
    rcases List.mem_cons.mp hColon with hBlank | hDigit
    · cases hBlank
    · exact absurd (Text.isDigit_of_mem_toDigits hDigit)
        (by decide)
  rw [hLine]
  exact lengthField_drop hSize hName hValue h

/- A header that is cut in front gives no length. -/
theorem contentLength_drop
    (n : Nat)
    {k : Nat}
    (h : 0 < k) :
    contentLength ((Utf8.encode (lengthLine n)).drop k) =
      none := by
  have hAscii : ∀ c ∈ lengthLine n, c.toNat < 0x80 :=
    fun c hc => (mem_lengthLine hc).1
  have hLeft :
      ∀ c ∈ (lengthLine n).drop k, c.toNat < 0x80 :=
    fun c hc => hAscii c (List.mem_of_mem_drop hc)
  have hBytes :
      (Utf8.encode (lengthLine n)).drop k =
        Utf8.encode ((lengthLine n).drop k) := by
    rw [Utf8.encode_of_ascii hAscii,
      Utf8.encode_of_ascii hLeft, List.map_drop]
  have hBreak :
      13 ∉ (Utf8.encode (lengthLine n)).drop k := fun hMem =>
    notMem_encode_lengthLine n (List.mem_of_mem_drop hMem)
  rw [contentLength_line hBreak, hBytes,
    Utf8.asciiOnly_encode hLeft,
    lengthField_drop_lengthLine n h]
  rfl

/- The body of a message that breaks off is no object. -/
theorem bodyObject?_take
    {p : Table String Json}
    (h : (Json.obj p).Plain)
    {k : Nat}
    (hk : k < (messageBody p).length) :
    bodyObject? ((messageBody p).take k) = none := by
  rw [bodyObject?]
  cases hFront : Utf8.decode ((messageBody p).take k) with
  | error e => rfl
  | ok front =>
      have hWhole :
          Utf8.decode
              ((messageBody p).take k ++
                (messageBody p).drop k) =
            .ok (Json.obj p).compact := by
        rw [List.take_append_drop]
        exact Utf8.decode_encode _
      rcases Utf8.decode_append hFront hWhole with
        ⟨back, hBack, hText⟩
      have hBreaks :
          Json.BreaksOff front (Json.obj p).compact := by
        refine ⟨back, ?_, hText.symm⟩
        rintro rfl
        have hNone := Utf8.eq_nil_of_decode_eq_nil hBack
        rw [List.drop_eq_nil_iff] at hNone
        omega
      rcases Json.read_breaksOff h hBreaks with ⟨e, hRead⟩
      simp [Except.toOption, hRead]

/- The body of a message and a letter behind it is none. -/
theorem bodyObject?_followed
    {p : Table String Json}
    (h : (Json.obj p).Plain)
    (after : List UInt8) :
    bodyObject? (messageBody p ++ 67 :: after) = none := by
  rw [bodyObject?]
  cases hWhole :
      Utf8.decode (messageBody p ++ 67 :: after) with
  | error e => rfl
  | ok whole =>
      have hFront :
          Utf8.decode (messageBody p) =
            .ok (Json.obj p).compact :=
        Utf8.decode_encode _
      rcases Utf8.decode_append hFront hWhole with
        ⟨back, hBack, rfl⟩
      have hLetter : Utf8.decode [67] = .ok ['C'] := rfl
      rcases Utf8.decode_append hLetter hBack with
        ⟨rest, -, rfl⟩
      have hEnds : Json.EndsNumber ['C'] := by
        rintro d ⟨⟩
        decide
      rcases Json.read_followed h hEnds (by decide) rest with
        ⟨e, hRead⟩
      simp [Except.toOption, hRead]

----
-- Draining a stream that has left its track
----

namespace Framer

/- The messages of a stream in front of which bytes stand. -/
def delivered
    (bytes : List UInt8) : List (Table String Json) :=
  messages (⟨bytes, none⟩ : Framer).drain.2

/- The messages of a segment are those in front. -/
theorem delivered_segment
    (s : Segment)
    (rest : List UInt8) :
    delivered (s.bytes ++ rest) =
      s.object?.toList ++ delivered rest := by
  rw [delivered, drain_segment, ← List.singleton_append,
    messages_append, Segment.messages_delivery]
  rfl

/- Without an end of a header block there is no message. -/
theorem delivered_of_no_end
    {bytes : List UInt8}
    (h : ¬ headerEnd <:+: bytes) :
    delivered bytes = [] := by
  have hStep : (⟨bytes, none⟩ : Framer).advance = none := by
    simp only [advance, splitHeader_of_no_end h]
  rw [delivered, drain_settled hStep]
  rfl

section Behind

variable
  {front : List UInt8}
  (hFront : ¬ headerEnd <:+: front)
  {p : Table String Json}
  {qs : List (Table String Json)}

include hFront

/-
  The first header gives no length, and its body is in front
  of the next header.
-/
theorem delivered_of_no_length
    (h : lengthBehind front p = none) :
    delivered (front ++ stream (p :: qs)) =
      delivered (messageBody p ++ stream qs) := by
  let s : Segment :=
    .malformed (front ++ messageHeader p) h
      (.append_lengthLine hFront _ _)
  have hBytes :
      front ++ stream (p :: qs) =
        s.bytes ++ (messageBody p ++ stream qs) := by
    simp [s, Segment.bytes, stream_cons]
  rw [hBytes, delivered_segment]
  rfl

/-
  The first header gives a length, and as many bytes behind it
  are taken for a body.
-/
theorem delivered_of_length
    {body rest : List UInt8}
    (hRest : messageBody p ++ stream qs = body ++ rest)
    (h : lengthBehind front p = some body.length) :
    delivered (front ++ stream (p :: qs)) =
      (bodyObject? body).toList ++ delivered rest := by
  let s : Segment :=
    .frame (front ++ messageHeader p) body h
      (.append_lengthLine hFront _ _)
  have hBytes :
      front ++ stream (p :: qs) = s.bytes ++ rest := by
    simp [s, Segment.bytes, stream_cons, hRest]
  rw [hBytes, delivered_segment]
  rfl

/- The framer waits for a body that is longer than the rest. -/
theorem delivered_of_endless
    {k : Nat}
    (h : lengthBehind front p = some k)
    (hLong : (messageBody p ++ stream qs).length < k) :
    delivered (front ++ stream (p :: qs)) = [] := by
  have hSplit :
      splitHeader (front ++ stream (p :: qs)) =
        some (front ++ messageHeader p,
          messageBody p ++ stream qs) :=
    (splitHeader_eq_some_iff _ _ _).mpr
      ⟨by simp [stream_cons], .append_lengthLine hFront _ _⟩
  have hHeader :
      (⟨front ++ stream (p :: qs), none⟩ : Framer).advance =
        some (⟨messageBody p ++ stream qs, some k⟩, []) := by
    rw [lengthBehind] at h
    simp only [advance, hSplit, h]
  have hWaits :
      (⟨messageBody p ++ stream qs, some k⟩ :
        Framer).advance = none := by
    simp only [advance, if_pos hLong]
  rw [delivered, drain_step hHeader, drain_settled hWaits]
  rfl

end Behind

/-
  Behind bytes that derail no message arrives: the body of
  each is in front of the next header, and derails too.
-/
theorem messages_derailed
    {ps : List (Table String Json)}
    (hPlain : ∀ p ∈ ps, (Json.obj p).Plain)
    {front : List UInt8}
    (h : Derails front) :
    delivered (front ++ stream ps) = [] := by
  induction ps generalizing front with
  | nil =>
      rw [stream, List.flatMap_nil, List.append_nil]
      exact delivered_of_no_end h.noEnd
  | cons p ps ih =>
      rw [delivered_of_no_length h.noEnd (h.noLength _)]
      apply ih
      · exact fun q hq => hPlain q (List.mem_cons_of_mem p hq)
      · exact derails_messageBody
          (hPlain p List.mem_cons_self)

/- A stream that is read from its beginning arrives. -/
theorem delivered_stream
    {ps : List (Table String Json)}
    (hPlain : ∀ p ∈ ps, (Json.obj p).Plain) :
    delivered (stream ps) = ps :=
  (feed_new_encode hPlain).1

/-
  Inside a message the track is lost: what is left of its
  header gives no length, and what is left of its empty line
  and of its body derails.
-/
theorem messages_inside
    {p : Table String Json}
    {ps : List (Table String Json)}
    (hPlain : ∀ q ∈ p :: ps, (Json.obj q).Plain)
    {k : Nat}
    (hLow : 0 < k)
    (hHigh : k < (encode (.obj p)).length) :
    delivered ((encode (.obj p)).drop k ++ stream ps) = [] := by
  have hHead := hPlain p (by simp)
  have hTail : ∀ q ∈ ps, (Json.obj q).Plain :=
    fun q hq => hPlain q (by simp [hq])
  rw [encode_obj_eq, List.append_assoc] at hHigh ⊢
  rw [List.length_append, List.length_append] at hHigh
  rw [List.drop_append]
  rcases Nat.lt_or_ge (messageHeader p).length k with
    hBehind | hHeader
  · rw [List.drop_eq_nil_of_le (by omega), List.nil_append]
    exact messages_derailed hTail
      (derails_drop hHead (by omega) (by omega))
  · let s : Segment :=
      .malformed ((messageHeader p).drop k)
        (contentLength_drop _ hLow)
        (.of_notMem (fun hMem =>
          notMem_encode_lengthLine _
            (List.mem_of_mem_drop hMem)) _)
    have hBytes :
        (messageHeader p).drop k ++
            (headerEnd ++ messageBody p).drop
              (k - (messageHeader p).length) ++ stream ps =
          s.bytes ++ (messageBody p ++ stream ps) := by
      simp [s, Segment.bytes, Nat.sub_eq_zero_of_le hHeader]
    rw [hBytes, delivered_segment,
      messages_derailed hTail (derails_messageBody hHead)]
    rfl

/-
  Reading that begins behind the beginning of a stream of
  messages gives fewer messages.
-/
theorem messages_landed
    {ps : List (Table String Json)}
    (hPlain : ∀ p ∈ ps, (Json.obj p).Plain)
    {k : Nat}
    (hLow : 0 < k)
    (hHigh : k ≤ (stream ps).length) :
    (delivered ((stream ps).drop k)).length < ps.length := by
  induction ps generalizing k with
  | nil =>
      rw [stream, List.flatMap_nil, List.length_nil] at hHigh
      omega
  | cons p ps ih =>
      have hTail : ∀ q ∈ ps, (Json.obj q).Plain :=
        fun q hq => hPlain q (by simp [hq])
      have hStream :
          stream (p :: ps) = encode (.obj p) ++ stream ps :=
        List.flatMap_cons
      rw [hStream, List.length_append] at hHigh
      rw [hStream, List.drop_append, List.length_cons]
      rcases Nat.lt_or_ge k (encode (.obj p)).length with
        hInside | hBehind
      · rw [Nat.sub_eq_zero_of_le (by omega), List.drop_zero,
          messages_inside hPlain hLow hInside]
        simp
      rw [List.drop_eq_nil_of_le hBehind, List.nil_append]
      rcases Nat.eq_zero_or_pos
          (k - (encode (.obj p)).length) with hStart | hLater
      · rw [hStart, List.drop_zero, delivered_stream hTail]
        omega
      · have hFewer := ih hTail hLater (by omega)
        omega

----
-- Behind a header without a length
----

section Malformed

variable
  {body : List UInt8}
  (hBody : ¬ headerEnd <:+: body)
  {p : Table String Json}
  {qs : List (Table String Json)}
  (hPlain : ∀ q ∈ p :: qs, (Json.obj q).Plain)

include hBody hPlain

/- The first header gives no length: all messages are lost. -/
theorem delivered_of_unrecognised
    (h : lengthBehind body p = none) :
    delivered (body ++ stream (p :: qs)) = [] := by
  rw [delivered_of_no_length hBody h]
  apply messages_derailed
  · exact fun q hq => hPlain q (List.mem_cons_of_mem p hq)
  · exact derails_messageBody (hPlain p List.mem_cons_self)

/- The first header gives its length: no message is lost. -/
theorem delivered_of_own_length
    (h : lengthBehind body p = some (messageBody p).length) :
    delivered (body ++ stream (p :: qs)) = p :: qs := by
  have hObject : bodyObject? (messageBody p) = some p :=
    object?_messageSegment (hPlain p (by simp))
  rw [delivered_of_length hBody rfl h, hObject,
    delivered_stream fun q hq => hPlain q (by simp [hq])]
  rfl

/- A shorter length: the rest of the body derails. -/
theorem delivered_of_shorter
    {k : Nat}
    (h : lengthBehind body p = some k)
    (hShort : k < (messageBody p).length) :
    delivered (body ++ stream (p :: qs)) = [] := by
  have hHead := hPlain p (by simp)
  have hRest :
      messageBody p ++ stream qs =
        (messageBody p).take k ++
          ((messageBody p).drop k ++ stream qs) := by
    rw [← List.append_assoc, List.take_append_drop]
  have hLeft : Derails ((messageBody p).drop k) := by
    apply derails_of_suffix hHead _ (List.drop_suffix _ _)
    rw [Ne, List.drop_eq_nil_iff]
    omega
  rw [delivered_of_length hBody hRest
      (by rw [h, List.length_take_of_le (by omega)]),
    bodyObject?_take hHead hShort,
    messages_derailed (fun q hq => hPlain q (by simp [hq]))
      hLeft]
  rfl

/- A longer length: the next header spoils the body. -/
theorem delivered_of_longer
    {k : Nat}
    (h : lengthBehind body p = some k)
    (hLong : (messageBody p).length < k)
    (hEnough : k ≤ (messageBody p ++ stream qs).length) :
    (delivered (body ++ stream (p :: qs))).length <
      qs.length := by
  have hHead := hPlain p (by simp)
  have hTail : ∀ q ∈ qs, (Json.obj q).Plain :=
    fun q hq => hPlain q (by simp [hq])
  rw [List.length_append] at hEnough
  rcases Nat.exists_eq_add_of_lt hLong with ⟨j, rfl⟩
  have hRest :
      messageBody p ++ stream qs =
        (messageBody p ++ (stream qs).take (j + 1)) ++
          (stream qs).drop (j + 1) := by
    rw [List.append_assoc, List.take_append_drop]
  have hNone :
      bodyObject?
        (messageBody p ++ (stream qs).take (j + 1)) = none := by
    cases qs with
    | nil =>
        rw [stream, List.flatMap_nil, List.length_nil]
          at hEnough
        omega
    | cons q qs =>
        rcases encode_lengthLine_eq_cons
            (messageBody q).length with ⟨header, hHeader⟩
        rw [stream_cons, messageHeader, hHeader]
        exact bodyObject?_followed hHead _
  rw [delivered_of_length hBody hRest ?_, hNone]
  · exact messages_landed hTail (by omega) (by omega)
  · rw [h, List.length_append,
      List.length_take_of_le (by omega), Nat.add_assoc]

/- Without its own length the messages are not complete. -/
theorem delivered_incomplete
    (h : lengthBehind body p ≠ some (messageBody p).length) :
    delivered (body ++ stream (p :: qs)) = [] ∨
      (delivered (body ++ stream (p :: qs))).length <
        qs.length := by
  cases hBehind : lengthBehind body p with
  | none =>
      left
      exact delivered_of_unrecognised hBody hPlain hBehind
  | some k =>
      have hOther : k ≠ (messageBody p).length := by
        rintro rfl
        exact h hBehind
      rcases Nat.lt_or_gt_of_ne hOther with hShort | hLong
      · left
        exact delivered_of_shorter hBody hPlain hBehind hShort
      rcases Nat.lt_or_ge
          (messageBody p ++ stream qs).length k with
        hEndless | hEnough
      · left
        exact delivered_of_endless hBody hBehind hEndless
      · right
        exact delivered_of_longer hBody hPlain hBehind hLong
          hEnough

end Malformed

/- A header block without a length is taken off alone. -/
theorem messages_feed_malformed
    {header : List UInt8}
    (hLength : contentLength header = none)
    (hFirst : FirstEnd header [])
    (rest : List UInt8) :
    messages
        (Framer.new.feed (header ++ headerEnd ++ rest)).2 =
      delivered rest :=
  delivered_segment (.malformed header hLength hFirst) rest

/-
  A header block without a length, the body behind it, and
  messages behind that.  All messages behind the first arrive
  in the end if and only if the header of the first still
  gives the length of its body when it is read together with
  the body of the frame that is dropped.  The first message
  arrives then too.  If the header gives no length there, then
  no message arrives, however many follow.
-/
theorem resynchronizes_iff
    (header body : List UInt8)
    (hLength : contentLength header = none)
    (hFirst : FirstEnd header [])
    (hBody : ¬ headerEnd <:+: body)
    (p : Table String Json)
    (qs : List (Table String Json))
    (hPlain : ∀ q ∈ p :: qs, (Json.obj q).Plain) :
    let arrived := messages
      (Framer.new.feed
        (header ++ headerEnd ++
          (body ++ stream (p :: qs)))).2
    (qs <:+ arrived ↔
        qs = [] ∨
          lengthBehind body p =
            some (messageBody p).length) ∧
      (lengthBehind body p = some (messageBody p).length →
        arrived = p :: qs) ∧
      (lengthBehind body p = none → arrived = []) := by
  intro arrived
  have hArrived :
      arrived = delivered (body ++ stream (p :: qs)) :=
    messages_feed_malformed hLength hFirst _
  have hOwn :
      lengthBehind body p = some (messageBody p).length →
        arrived = p :: qs := by
    intro hSame
    rw [hArrived, delivered_of_own_length hBody hPlain hSame]
  refine ⟨⟨?_, ?_⟩, hOwn, ?_⟩
  · intro hSuffix
    by_cases hSame :
        lengthBehind body p = some (messageBody p).length
    · exact Or.inr hSame
    rw [hArrived] at hSuffix
    rcases delivered_incomplete hBody hPlain hSame with
      hLost | hFewer
    · rw [hLost] at hSuffix
      exact Or.inl (List.suffix_nil.mp hSuffix)
    · have hAll := hSuffix.length_le
      omega
  · rintro (rfl | hSame)
    · exact List.nil_suffix
    · rw [hOwn hSame]
      exact List.suffix_cons p qs
  · intro hMissing
    rw [hArrived]
    exact delivered_of_unrecognised hBody hPlain hMissing

/- Two short messages. -/
def twoMessages : List (Table String Json) :=
  [[("a", .int 1)], [("b", .int 2)]]

theorem plain_twoMessages :
    ∀ q ∈ twoMessages, (Json.obj q).Plain := by
  refine List.forall_mem_cons.mpr ⟨?_, ?_⟩
  · refine .obj _ (by decide) ?_
    exact List.forall_mem_singleton.mpr (.int _ (by decide))
  · refine List.forall_mem_singleton.mpr ?_
    refine .obj _ (by decide) ?_
    exact List.forall_mem_singleton.mpr (.int _ (by decide))

/- A body that ends with its line does no harm. -/
theorem resynchronizes_behind_line :
    messages
        (Framer.new.feed
          (Utf8.ofString "Content-Length: abc" ++ headerEnd ++
            (Utf8.ofString "\x7b\"x\":1\x7d\r\n" ++
              stream twoMessages))).2 = twoMessages :=
  (resynchronizes_iff _ _ (by decide)
    (.of_notMem (by decide) _) (no_end_of_count (by decide))
    _ _ plain_twoMessages).2.1 (by decide)

/-
  Without the line break both messages are lost, and not only
  the first of them.
-/
theorem derails_behind_object :
    contentLength (Utf8.ofString "Content-Length: abc") =
        none ∧
      FirstEnd (Utf8.ofString "Content-Length: abc") [] ∧
      ¬ headerEnd <:+: Utf8.ofString "\x7b\"x\":1\x7d" ∧
      ¬ twoMessages.tail <:+
        messages
          (Framer.new.feed
            (Utf8.ofString "Content-Length: abc" ++
              headerEnd ++
              (Utf8.ofString "\x7b\"x\":1\x7d" ++
                stream twoMessages))).2 := by
  have hLength :
      contentLength (Utf8.ofString "Content-Length: abc") =
        none := by
    decide
  have hFirst :
      FirstEnd (Utf8.ofString "Content-Length: abc") [] :=
    .of_notMem (by decide) _
  have hDerails :
      Derails (Utf8.ofString "\x7b\"x\":1\x7d") :=
    .of_brace (by decide) (by decide)
  refine ⟨hLength, hFirst, hDerails.noEnd, ?_⟩
  rw [messages_feed_malformed hLength hFirst,
    messages_derailed plain_twoMessages hDerails]
  intro hSuffix
  cases List.suffix_nil.mp hSuffix

end Framer

end Rpc

end StyleCompanion
