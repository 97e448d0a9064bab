import StyleCompanion.Proofs.Json.RoundTrip
import StyleCompanion.Proofs.Rpc.Segments
import StyleCompanion.Proofs.Text.Utf8

/-
  Messages that are written arrive.

  A written message is a segment of a stream: its header gives
  the number of bytes of its body, no end of a header block
  stands before the one behind the header, and the body is
  read back as the message.

  Main declarations:
    * `contentLength_header`
    * `messageSegment`
    * `Framer.feedEach_encode`
-/

namespace StyleCompanion

namespace Rpc

----
-- Headers
----

/- A text without a line break is one line. -/
theorem splitLines_of_notMem
    {cs : List Char}
    (h : '\r' ∉ cs) :
    splitLines cs = [cs] := by
  induction cs with
  | nil => rfl
  | cons c cs ih =>
      rw [List.mem_cons, not_or] at h
      rw [splitLines, ih h.2]
      intro rest hBreak
      exact absurd hBreak.symm h.1

/- A line is cut at the colon behind a name without one. -/
theorem splitColon_append
    {name : List Char}
    (h : ':' ∉ name)
    (value : List Char) :
    splitColon (name ++ ':' :: value) = some (name, value) := by
  induction name with
  | nil => rfl
  | cons c name ih =>
      rw [List.mem_cons, not_or] at h
      rw [List.cons_append, splitColon,
        if_neg (Ne.symm h.1), ih h.2]
      rfl

/- The line that gives a length, as it is written. -/
def lengthLine
    (n : Nat) : List Char :=
  "Content-Length: ".toList ++ Nat.toDigits 10 n

/- The value of a written line is the digits of the length. -/
theorem lengthField_lengthLine
    (n : Nat) :
    lengthField (lengthLine n) = some (Nat.toDigits 10 n) := by
  have hLine :
      lengthLine n =
        "Content-Length".toList ++
          ':' :: ' ' :: Nat.toDigits 10 n :=
    rfl
  have hName :
      (Text.trimChars "Content-Length".toList).map
        Text.lowerChar = lengthName := by
    decide
  have hValue :
      Text.trimChars (' ' :: Nat.toDigits 10 n) =
        Nat.toDigits 10 n := by
    rw [Text.trimChars, Text.stripWith_cons (by decide)]
    apply Text.stripWith_eq_self
    intro c hc
    exact Text.isBlank_of_isDigit
      (Text.isDigit_of_mem_toDigits hc)
  rw [hLine, lengthField, splitColon_append (by decide)]
  simp only [hName, hValue, ↓reduceIte]

/- A written line is ASCII and has no line break. -/
theorem mem_lengthLine
    {n : Nat}
    {c : Char}
    (h : c ∈ lengthLine n) :
    c.toNat < 0x80 ∧ c ≠ '\r' := by
  rcases List.mem_append.mp h with hName | hDigit
  · have hAll :
        "Content-Length: ".toList.all
          (fun d => decide (d.toNat < 0x80 ∧ d ≠ '\r')) =
            true := rfl
    exact of_decide_eq_true
      (List.all_eq_true.mp hAll c hName)
  · have hDigit := Text.isDigit_of_mem_toDigits hDigit
    have hRange := Text.toNat_of_isDigit hDigit
    refine ⟨by omega, ?_⟩
    rintro rfl
    simp at hDigit

/- A written header gives the length it was written for. -/
theorem contentLength_header
    (n : Nat) :
    contentLength (Utf8.encode (lengthLine n)) = some n := by
  have hAscii :
      Utf8.asciiOnly (Utf8.encode (lengthLine n)) =
        lengthLine n :=
    Utf8.asciiOnly_encode fun c hc => (mem_lengthLine hc).1
  have hLines :
      splitLines (lengthLine n) = [lengthLine n] :=
    splitLines_of_notMem fun hc => (mem_lengthLine hc).2 rfl
  have hRead :
      readLength (Nat.toDigits 10 n) = some n := by
    rw [readLength, Text.readInteger_toDigits]
  rw [contentLength, hAscii, hLines, List.findSome?_cons,
    lengthField_lengthLine]
  exact hRead

/- A written header has no byte that begins an end. -/
theorem notMem_encode_lengthLine
    (n : Nat) :
    13 ∉ Utf8.encode (lengthLine n) := by
  intro hMem
  rcases List.mem_flatMap.mp hMem with ⟨c, hc, hByte⟩
  rcases mem_lengthLine hc with ⟨hAscii, hBreak⟩
  rw [Utf8.encodeChar, if_pos hAscii,
    List.mem_singleton] at hByte
  have hNumber : c.toNat = 13 := by
    have hSame := congrArg UInt8.toNat hByte
    rw [Utf8.toNat_ofNat_of_lt (by omega)] at hSame
    exact hSame.symm
  apply hBreak
  rw [← Char.ofNat_toNat c, hNumber]

----
-- Messages
----

/- The body of a written message. -/
def messageBody
    (fs : Table String Json) : List UInt8 :=
  Utf8.encode (Json.obj fs).compact

/- A written message is a segment of a stream. -/
def messageSegment
    (fs : Table String Json) : Segment :=
  .frame (Utf8.encode (lengthLine (messageBody fs).length))
    (messageBody fs)
    (contentLength_header (messageBody fs).length)
    (FirstEnd.of_notMem (notMem_encode_lengthLine _) _)

/- A written message is its header, an empty line, its body. -/
theorem encode_eq
    (x : Json) :
    encode x =
      Utf8.encode
          (lengthLine (Utf8.encode x.compact).length) ++
        headerEnd ++ Utf8.encode x.compact := by
  have hEnd :
      Utf8.encode ['\r', '\n', '\r', '\n'] = headerEnd := by
    decide
  rw [← hEnd, ← Utf8.encode_append, ← Utf8.encode_append]
  rfl

/- The bytes of the segment are the bytes of the message. -/
theorem bytes_messageSegment
    (fs : Table String Json) :
    (messageSegment fs).bytes = encode (.obj fs) :=
  (encode_eq (.obj fs)).symm

/- The segment of a plain message brings the message. -/
theorem object?_messageSegment
    {fs : Table String Json}
    (h : (Json.obj fs).Plain) :
    (messageSegment fs).object? = some fs := by
  have hText :
      Utf8.decode (messageBody fs) =
        .ok (Json.obj fs).compact :=
    Utf8.decode_encode _
  have hValue := Json.read_compact h
  change bodyObject? (messageBody fs) = some fs
  rw [bodyObject?, hText]
  simp [Except.toOption, hValue, Json.fields?]

/- The objects of plain messages are the messages. -/
theorem filterMap_messageSegment
    {ps : List (Table String Json)}
    (h : ∀ p ∈ ps, (Json.obj p).Plain) :
    (ps.map messageSegment).filterMap Segment.object? =
      ps := by
  induction ps with
  | nil => rfl
  | cons p ps ih =>
      have hHead := object?_messageSegment (h p (by simp))
      have hTail := ih fun q hq => h q (by simp [hq])
      rw [List.map_cons, List.filterMap_cons, hHead, hTail]

namespace Framer

/- Plain messages that are written are read in one go. -/
theorem feed_new_encode
    {ps : List (Table String Json)}
    (h : ∀ p ∈ ps, (Json.obj p).Plain) :
    messages
        (Framer.new.feed
          (ps.flatMap fun p => encode (.obj p))).2 = ps ∧
      (Framer.new.feed
        (ps.flatMap fun p => encode (.obj p))).1 = .new := by
  have hBytes :
      (ps.flatMap fun p => encode (.obj p)) =
        (ps.map messageSegment).flatMap Segment.bytes := by
    rw [List.flatMap_map]
    congr 1
    funext p
    exact (bytes_messageSegment p).symm
  rw [hBytes, feed_new_segments]
  refine ⟨?_, rfl⟩
  rw [Segment.messages_map_delivery,
    filterMap_messageSegment h]

/-
  Plain messages that are written one after the other, however
  their bytes are cut into pieces, arrive as they are and in
  order, and nothing of them is left over.
-/
theorem feedEach_encode
    (ps : List (Table String Json))
    (hPlain : ∀ p ∈ ps, (Json.obj p).Plain)
    (chunks : List (List UInt8))
    (hChunks :
      chunks.flatten = ps.flatMap fun p => encode (.obj p)) :
    (Framer.new.feedEach chunks).2.flatten = ps ∧
      (Framer.new.feedEach chunks).1.pendingBytes = 0 ∧
      (Framer.new.feedEach chunks).1.bodyLength = none := by
  have hBytes :
      chunks.flatten =
        (ps.map messageSegment).flatMap Segment.bytes := by
    rw [hChunks, List.flatMap_map]
    congr 1
    funext p
    exact (bytes_messageSegment p).symm
  have hWhole := feed_new_segments (ps.map messageSegment)
  have hEach := feedEach_eq Reached.new chunks
  rw [hBytes, hWhole] at hEach
  refine ⟨?_, ?_, ?_⟩
  · rw [hEach.1, Segment.messages_map_delivery,
      filterMap_messageSegment hPlain]
  · rw [hEach.2]
    rfl
  · rw [hEach.2]
    rfl

/- Two messages that arrive byte by byte. -/
theorem feedEach_encode_bytewise :
    (Framer.new.feedEach
      ((encode (.obj
          [("text", .str "héllo \"\n😀"),
            ("list", .arr [.int (-7), .null, .obj []])]) ++
        encode (.obj [])).map fun b => [b])).2.flatten =
      [[("text", .str "héllo \"\n😀"),
          ("list", .arr [.int (-7), .null, .obj []])],
        []] := by
  refine (feedEach_encode _ ?_ _ ?_).1
  · refine List.forall_mem_cons.mpr ⟨?_, ?_⟩
    · refine .obj _ (by decide) ?_
      refine List.forall_mem_cons.mpr ⟨.str _, ?_⟩
      refine List.forall_mem_singleton.mpr ?_
      refine .arr _ (List.forall_mem_cons.mpr ?_)
      refine ⟨.int _ (by decide), ?_⟩
      refine List.forall_mem_cons.mpr ⟨.null, ?_⟩
      refine List.forall_mem_singleton.mpr ?_
      exact .obj _ (by decide) (by simp)
    · refine List.forall_mem_singleton.mpr ?_
      exact .obj _ (by decide) (by simp)
  · rw [← List.flatMap_def, List.flatMap_singleton']
    simp

end Framer

end Rpc

end StyleCompanion
