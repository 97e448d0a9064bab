import StyleCompanion.Proofs.Rpc.Chunking

/-
  Faults stay inside their frames.

  A stream is made of segments: header blocks without a
  length, and header blocks with a length and as many bytes
  behind them.  The framer takes a segment off the front of
  the stream and goes on at the next one, whatever the
  segment holds.

  Main declarations:
    * `bodyObject?`
    * `Segment`
    * `Framer.drain_segment`
    * `Framer.drain_segments`
    * `Framer.feed_segments`
-/

namespace StyleCompanion

namespace Rpc

----
-- Bodies
----

/- The object that bytes stand for, as UTF-8 and then JSON. -/
def bodyObject?
    (body : List UInt8) : Option (Table String Json) :=
  (Utf8.decode body).toOption.bind fun cs =>
    (Json.read cs).toOption.bind Json.fields?

/- A body is delivered if and only if it is an object. -/
theorem messages_readBody
    (body : List UInt8) :
    messages [readBody body] = (bodyObject? body).toList := by
  rw [readBody, bodyObject?]
  cases Utf8.decode body with
  | error e => rfl
  | ok cs =>
      cases hRead : Json.read cs with
      | error e => simp [hRead, messages, Except.toOption]
      | ok x =>
          cases x <;>
            simp [hRead, messages, Except.toOption,
              Json.fields?]

----
-- Segments
----

/-
  A part of a stream that ends where the next part can begin:
  a header block that gives no length, or one that gives the
  number of bytes behind it.
-/
inductive Segment where
  | malformed
      (header : List UInt8)
      (hLength : contentLength header = none)
      (hFirst : FirstEnd header [])
  | frame
      (header body : List UInt8)
      (hLength : contentLength header = some body.length)
      (hFirst : FirstEnd header body)

namespace Segment

/- The bytes of a segment. -/
def bytes : Segment → List UInt8
  | .malformed header _ _ => header ++ headerEnd
  | .frame header body _ _ => header ++ headerEnd ++ body

/- The object that a segment brings, if it does. -/
def object? : Segment → Option (Table String Json)
  | .malformed _ _ _ => none
  | .frame _ body _ _ => bodyObject? body

/- What the framer makes of a segment. -/
def delivery : Segment → Delivery
  | .malformed header _ _ =>
      .dropped (.malformedHeader header)
  | .frame _ body _ _ => readBody body

/- A segment is delivered if and only if it is an object. -/
theorem messages_delivery
    (s : Segment) :
    messages [s.delivery] = s.object?.toList := by
  cases s with
  | malformed header hLength hFirst => rfl
  | frame header body hLength hFirst =>
      exact messages_readBody body

/- The messages of segments are their objects, in order. -/
theorem messages_map_delivery
    (segments : List Segment) :
    messages (segments.map delivery) =
      segments.filterMap object? := by
  induction segments with
  | nil => rfl
  | cons s rest ih =>
      have hHead := messages_delivery s
      rw [List.map_cons, List.filterMap_cons,
        ← List.singleton_append, Framer.messages_append,
        hHead, ih]
      cases s.object? <;> rfl

end Segment

----
-- Taking segments off a stream
----

namespace Framer

/-
  A segment in front of a stream is taken off whole, and the
  framer then looks for a header where the segment ends.
-/
theorem drain_segment
    (s : Segment)
    (rest : List UInt8) :
    (⟨s.bytes ++ rest, none⟩ : Framer).drain =
      ((⟨rest, none⟩ : Framer).drain.1,
        s.delivery :: (⟨rest, none⟩ : Framer).drain.2) := by
  cases s with
  | malformed header hLength hFirst =>
      have hSplit :
          splitHeader (header ++ headerEnd ++ rest) =
            some (header, rest) :=
        (splitHeader_eq_some_iff _ _ _).mpr
          ⟨rfl, hFirst.append rest⟩
      have hStep :
          (⟨header ++ headerEnd ++ rest, none⟩ :
              Framer).advance =
            some (⟨rest, none⟩,
              [.dropped (.malformedHeader header)]) := by
        simp only [advance, hSplit, hLength]
      exact drain_step hStep
  | frame header body hLength hFirst =>
      have hSplit :
          splitHeader
              (header ++ headerEnd ++ body ++ rest) =
            some (header, body ++ rest) :=
        (splitHeader_eq_some_iff _ _ _).mpr
          ⟨by simp, hFirst.append rest⟩
      have hHeader :
          (⟨header ++ headerEnd ++ body ++ rest, none⟩ :
              Framer).advance =
            some (⟨body ++ rest, some body.length⟩, []) := by
        simp only [advance, hSplit, hLength]
      have hBody :
          (⟨body ++ rest, some body.length⟩ :
              Framer).advance =
            some (⟨rest, none⟩, [readBody body]) := by
        simp [advance]
      exact (drain_step hHeader).trans (drain_step hBody)

/- Segments in front of a stream are taken off in order. -/
theorem drain_segments
    (segments : List Segment)
    (rest : List UInt8) :
    (⟨segments.flatMap Segment.bytes ++ rest, none⟩ :
        Framer).drain =
      ((⟨rest, none⟩ : Framer).drain.1,
        segments.map Segment.delivery ++
          (⟨rest, none⟩ : Framer).drain.2) := by
  induction segments with
  | nil => rfl
  | cons s segments ih =>
      rw [List.flatMap_cons, List.append_assoc,
        drain_segment, ih]
      rfl

/- A new framer takes a stream of segments off to its end. -/
theorem feed_new_segments
    (segments : List Segment) :
    Framer.new.feed (segments.flatMap Segment.bytes) =
      (.new, segments.map Segment.delivery) := by
  have hDrain := drain_segments segments []
  have hNew : (⟨[], none⟩ : Framer).drain = (.new, []) := rfl
  simp only [List.append_nil, hNew] at hDrain
  exact hDrain

end Framer

end Rpc

end StyleCompanion
