import StyleCompanion.Rpc.Framer

/-
  The framer does not see where a stream is cut.

  The first end of a header block stays the first one when
  more bytes arrive, so a step that is possible now is the
  same step later.  Draining before and after the arrival
  is therefore draining once, and feeding a stream in pieces
  is feeding it whole.

  Main declarations:
    * `FirstEnd`
    * `splitHeader_eq_some_iff`
    * `Framer.advance_receive`
    * `Framer.drain_receive`
    * `Framer.feed_append`
    * `Framer.feedEach`
    * `Framer.Reached.feed_byte`
    * `Framer.feedEach_flatten`
-/

namespace StyleCompanion

namespace Rpc

----
-- The first end of a header block
----

/-
  No end of a header block stands before the one right behind
  the header.
-/
def FirstEnd
    (header rest : List UInt8) : Prop :=
  ∀ before after,
    header ++ headerEnd ++ rest =
        before ++ headerEnd ++ after →
      header.length ≤ before.length

namespace FirstEnd

/- Nothing stands before an empty header. -/
theorem nil
    (rest : List UInt8) :
    FirstEnd [] rest := by
  intro before after _
  exact Nat.zero_le _

/- Bytes in front of the header can be left out. -/
theorem tail
    {b : UInt8}
    {header rest : List UInt8}
    (h : FirstEnd (b :: header) rest) :
    FirstEnd header rest := by
  intro before after hSplit
  have hLonger := h (b :: before) after (by simp_all)
  simpa using hLonger

/- A further byte in front may not begin an end. -/
theorem cons
    {b : UInt8}
    {header rest : List UInt8}
    (hFirst : FirstEnd header rest)
    (hBegin :
      ¬ headerEnd <+: b :: (header ++ headerEnd ++ rest)) :
    FirstEnd (b :: header) rest := by
  intro before after hSplit
  cases before with
  | nil =>
      exact absurd ⟨after, by simpa using hSplit.symm⟩ hBegin
  | cons c before =>
      have hRest :
          header ++ headerEnd ++ rest =
            before ++ headerEnd ++ after := by
        simp_all
      simpa using hFirst before after hRest

/- Where no end can begin, the end behind is the first. -/
theorem of_notMem
    {header : List UInt8}
    (h : 13 ∉ header)
    (rest : List UInt8) :
    FirstEnd header rest := by
  induction header with
  | nil => exact nil rest
  | cons b header ih =>
      rw [List.mem_cons, not_or] at h
      apply (ih h.2).cons
      intro hPrefix
      exact h.1 (List.cons_prefix_cons.mp hPrefix).1

/-
  Bytes that arrive later bring no earlier end: one that
  begins inside the header is over before they begin.
-/
theorem append
    {header rest : List UInt8}
    (h : FirstEnd header rest)
    (more : List UInt8) :
    FirstEnd header (rest ++ more) := by
  intro before after hSplit
  apply Nat.le_of_not_lt
  intro hEarly
  have hWhole :
      before ++ headerEnd <+:
        header ++ headerEnd ++ rest ++ more :=
    ⟨after, by simpa using hSplit.symm⟩
  have hLength :
      (before ++ headerEnd).length ≤
        (header ++ headerEnd ++ rest).length := by
    simp only [List.length_append]
    omega
  rcases List.prefix_of_prefix_length_le hWhole
      (List.prefix_append _ more) hLength with
    ⟨left, hLeft⟩
  exact absurd (h before left hLeft.symm)
    (Nat.not_le_of_lt hEarly)

end FirstEnd

/-
  Cutting off a header finds the first end, and finds it
  wherever there is one.
-/
theorem splitHeader_eq_some_iff
    (bs header rest : List UInt8) :
    splitHeader bs = some (header, rest) ↔
      bs = header ++ headerEnd ++ rest ∧
        FirstEnd header rest := by
  induction bs generalizing header rest with
  | nil => simp [splitHeader, headerEnd]
  | cons b tail ih =>
      rw [splitHeader]
      split
      · next hPrefix =>
          rcases List.isPrefixOf_iff_prefix.mp hPrefix with
            ⟨left, hLeft⟩
          constructor
          · intro h
            simp only [Option.some.injEq,
              Prod.mk.injEq] at h
            rcases h with ⟨rfl, rfl⟩
            refine ⟨?_, FirstEnd.nil _⟩
            rw [← hLeft]
            simp
          · rintro ⟨hBytes, hFirst⟩
            have hHeader : header = [] := by
              apply List.eq_nil_of_length_eq_zero
              have hShort := hFirst [] left
                (by rw [← hBytes, ← hLeft]; simp)
              simpa using hShort
            subst hHeader
            simp [hBytes]
      · next hPrefix =>
          rw [List.isPrefixOf_iff_prefix] at hPrefix
          constructor
          · intro h
            rcases Option.map_eq_some_iff.mp h with
              ⟨⟨first, after⟩, hTail, hEq⟩
            simp only [Prod.mk.injEq] at hEq
            rcases hEq with ⟨rfl, rfl⟩
            rcases (ih first after).mp hTail with
              ⟨rfl, hFirst⟩
            exact ⟨by simp, hFirst.cons hPrefix⟩
          · rintro ⟨hBytes, hFirst⟩
            cases header with
            | nil =>
                exact absurd
                  ⟨rest, by simpa using hBytes.symm⟩ hPrefix
            | cons c header =>
                simp only [List.cons_append,
                  List.cons.injEq] at hBytes
                rcases hBytes with ⟨rfl, rfl⟩
                rw [(ih header rest).mpr
                  ⟨rfl, hFirst.tail⟩]
                rfl

/- A header that was found stays found. -/
theorem splitHeader_append
    {bs header rest : List UInt8}
    (h : splitHeader bs = some (header, rest))
    (more : List UInt8) :
    splitHeader (bs ++ more) =
      some (header, rest ++ more) := by
  rcases (splitHeader_eq_some_iff bs header rest).mp h with
    ⟨rfl, hFirst⟩
  exact (splitHeader_eq_some_iff _ _ _).mpr
    ⟨by simp, hFirst.append more⟩

namespace Framer

/- Bytes arrive and wait. -/
def receive
    (f : Framer)
    (bs : List UInt8) : Framer :=
  { f with buffer := f.buffer ++ bs }

/- A step that is possible stays possible as it is. -/
theorem advance_receive
    {f g : Framer}
    {ds : List Delivery}
    (h : f.advance = some (g, ds))
    (bs : List UInt8) :
    (f.receive bs).advance = some (g.receive bs, ds) := by
  rcases f with ⟨buffer, bodyLength⟩
  cases bodyLength with
  | none =>
      cases hSplit : splitHeader buffer with
      | none => simp [advance, hSplit] at h
      | some p =>
          rcases p with ⟨header, rest⟩
          have hMore := splitHeader_append hSplit bs
          cases hLength : contentLength header <;>
            simp_all [advance, receive] <;>
            simp [← h.1]
  | some n =>
      simp only [advance, Option.ite_none_left_eq_some,
        Nat.not_lt, Option.some.injEq, Prod.mk.injEq] at h
      rcases h with ⟨hEnough, rfl, rfl⟩
      have hStill : ¬ (buffer ++ bs).length < n := by
        rw [List.length_append]
        omega
      simp only [advance, receive, hStill, ↓reduceIte]
      rw [List.drop_append_of_le_length hEnough,
        List.take_append_of_le_length hEnough]

/-
  What holds when no step is possible, and of a framer when it
  holds after its next step, holds of every framer.
-/
theorem drainInduction
    {motive : Framer → Prop}
    (settled : ∀ f, f.advance = none → motive f)
    (step :
      ∀ f g ds, f.advance = some (g, ds) →
        motive g → motive f)
    (f : Framer) : motive f := by
  generalize hSize : f.measure = size
  induction size using Nat.strongRecOn generalizing f with
  | ind size ih =>
      cases hStep : f.advance with
      | none => exact settled f hStep
      | some p =>
          rcases p with ⟨g, ds⟩
          have hLess := advance_measure hStep
          exact step f g ds hStep
            (ih g.measure (hSize ▸ hLess) g rfl)

/- Nothing is taken off where no step is possible. -/
theorem drain_settled
    {f : Framer}
    (h : f.advance = none) :
    f.drain = (f, []) := by
  rw [drain_eq, h]

/- A step is the first part of draining. -/
theorem drain_step
    {f g : Framer}
    {ds : List Delivery}
    (h : f.advance = some (g, ds)) :
    f.drain = (g.drain.1, ds ++ g.drain.2) := by
  rw [drain_eq, h]

/- After draining no step is possible. -/
theorem advance_drain
    (f : Framer) :
    f.drain.1.advance = none := by
  induction f using drainInduction with
  | settled f h =>
      rw [drain_settled h]
      exact h
  | step f g ds h ih =>
      rw [drain_step h]
      exact ih

/-
  Draining after bytes have arrived is draining before they
  arrive and once more after.
-/
theorem drain_receive
    (f : Framer)
    (bs : List UInt8) :
    (f.receive bs).drain =
      ((f.drain.1.receive bs).drain.1,
        f.drain.2 ++ (f.drain.1.receive bs).drain.2) := by
  induction f using drainInduction with
  | settled f h =>
      rw [drain_settled h]
      simp
  | step f g ds h ih =>
      rw [drain_step h, drain_step (advance_receive h bs), ih]
      simp

----
-- Feeding in pieces
----

/- Feeding two pieces is feeding the first, then the second. -/
theorem feed_append
    (f : Framer)
    (a b : List UInt8) :
    f.feed (a ++ b) =
      (((f.feed a).1.feed b).1,
        (f.feed a).2 ++ ((f.feed a).1.feed b).2) := by
  have hArrive :
      f.receive (a ++ b) = (f.receive a).receive b := by
    simp [receive]
  calc
    f.feed (a ++ b) = ((f.receive a).receive b).drain := by
      rw [← hArrive]
      rfl
    _ = _ := drain_receive (f.receive a) b

/- Feed pieces in order; gives the messages of each. -/
def feedEach
    (f : Framer)
    (chunks : List (List UInt8)) :
    Framer × List (List (Table String Json)) :=
  match chunks with
  | [] => (f, [])
  | chunk :: rest =>
      let r := f.feed chunk
      let q := feedEach r.1 rest
      (q.1, messages r.2 :: q.2)

/-
  The framers there are: a new one, as after a reset, and one
  that was fed.
-/
inductive Reached : Framer → Prop where
  | new : Reached .new
  | feed {f : Framer} (h : Reached f) (bs : List UInt8) :
      Reached (f.feed bs).1

/- A framer in use has nothing left to take off. -/
theorem Reached.advance_eq_none
    {f : Framer}
    (h : f.Reached) :
    f.advance = none := by
  cases h with
  | new => rfl
  | feed h bs => exact advance_drain _

/- The messages of deliveries, in two parts. -/
theorem messages_append
    (ds es : List Delivery) :
    messages (ds ++ es) = messages ds ++ messages es :=
  List.filterMap_append

/-
  Feeding a first piece and then the others is feeding them
  joined, from any state.
-/
theorem feedEach_cons
    (f : Framer)
    (chunk : List UInt8)
    (chunks : List (List UInt8)) :
    (f.feedEach (chunk :: chunks)).2.flatten =
        messages (f.feed (chunk :: chunks).flatten).2 ∧
      (f.feedEach (chunk :: chunks)).1 =
        (f.feed (chunk :: chunks).flatten).1 := by
  induction chunks generalizing f chunk with
  | nil => simp [feedEach]
  | cons next rest ih =>
      rcases ih (f.feed chunk).1 next with ⟨hMessages, hState⟩
      rw [List.flatten_cons, feed_append, feedEach]
      constructor
      · rw [messages_append, ← hMessages]
        simp
      · exact hState

/- Feeding no piece to a framer in use is feeding nothing. -/
theorem Reached.feed_nil
    {f : Framer}
    (h : f.Reached) :
    f.feed [] = (f, []) := by
  simpa [Framer.feed] using drain_settled h.advance_eq_none

/-
  Feeding pieces to a framer in use is feeding them joined,
  also when there are none.
-/
theorem feedEach_eq
    {f : Framer}
    (h : f.Reached)
    (chunks : List (List UInt8)) :
    (f.feedEach chunks).2.flatten =
        messages (f.feed chunks.flatten).2 ∧
      (f.feedEach chunks).1 = (f.feed chunks.flatten).1 := by
  cases chunks with
  | nil => simp [feedEach, h.feed_nil, messages]
  | cons chunk rest => exact feedEach_cons f chunk rest

/-
  However a stream is cut into pieces, the framer gives the
  messages of the whole stream and ends in the same state.
  Only feeding no piece at all differs from feeding an empty
  stream, and only for a framer with something left to take
  off, which no framer in use has.
-/
theorem feedEach_flatten
    (f : Framer)
    (chunks : List (List UInt8))
    (hStart : f.Reached ∨ chunks ≠ []) :
    (f.feedEach chunks).2.flatten =
        messages (f.feed chunks.flatten).2 ∧
      (f.feedEach chunks).1 = (f.feed chunks.flatten).1 := by
  rcases hStart with hReached | hChunks
  · exact feedEach_eq hReached chunks
  · rcases List.exists_cons_of_ne_nil hChunks with
      ⟨chunk, rest, rfl⟩
    exact feedEach_cons f chunk rest

/-
  A stream cut inside the end of its header block and inside
  its body.
-/
theorem feedEach_flatten_cut_frame :
    Framer.new.Reached ∧
      (Framer.new.feedEach
        [Utf8.ofString "Content-Length: 2\r",
          Utf8.ofString "\n\r\n\x7b",
          Utf8.ofString "\x7dCon"]).2 = [[], [], [[]]] ∧
      (Framer.new.feedEach
        [Utf8.ofString "Content-Length: 2\r",
          Utf8.ofString "\n\r\n\x7b",
          Utf8.ofString "\x7dCon"]).1 =
        (Framer.new.feed
          (Utf8.ofString
            "Content-Length: 2\r\n\r\n\x7b\x7dCon")).1 :=
  ⟨.new, rfl, (feedEach_flatten _ _ (.inl .new)).2⟩

end Framer

end Rpc

end StyleCompanion
