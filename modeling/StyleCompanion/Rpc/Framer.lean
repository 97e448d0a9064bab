import StyleCompanion.Rpc.Frame

/-
  Cutting a byte stream into messages.

  The framer keeps the bytes that do not make up a frame yet,
  and, once a header has been read, the length of the body it
  waits for.  A header without a length is dropped, and the
  search for the next header goes on right behind it.

  Key definitions include:
    * `Framer`
    * `Framer.advance`
    * `Framer.drain`
    * `Framer.feed`
    * `messages`

  Draining everything is justified by:
    * `Framer.advance_measure`
    * `Framer.drain_eq`
-/

namespace StyleCompanion

namespace Rpc

/- The bytes not used yet and the body that is expected. -/
structure Framer where
  buffer : List UInt8
  bodyLength : Option Nat
  deriving DecidableEq, Repr

namespace Framer

/- A framer before any byte. -/
def new : Framer := ⟨[], none⟩

/- The number of bytes that wait. -/
def pendingBytes
    (f : Framer) : Nat :=
  f.buffer.length

/-
  Take one header or one body off the front of the buffer, or
  nothing when neither is complete.
-/
def advance
    (f : Framer) : Option (Framer × List Delivery) :=
  match f.bodyLength with
  | none =>
      match splitHeader f.buffer with
      | none => none
      | some (header, rest) =>
          match contentLength header with
          | none =>
              some (⟨rest, none⟩,
                [.dropped (.malformedHeader header)])
          | some n => some (⟨rest, some n⟩, [])
  | some n =>
      if f.buffer.length < n then none
      else
        some (⟨f.buffer.drop n, none⟩,
          [readBody (f.buffer.take n)])

/-
  What is left to do.  A header takes bytes off the buffer; a
  body may be empty but ends the waiting for it.
-/
def measure
    (f : Framer) : Nat :=
  2 * f.buffer.length + (if f.bodyLength.isSome then 1 else 0)

/- Cutting off a header leaves fewer bytes. -/
theorem splitHeader_length
    {bs header rest : List UInt8}
    (h : splitHeader bs = some (header, rest)) :
    rest.length + 4 ≤ bs.length := by
  induction bs generalizing header rest with
  | nil => simp [splitHeader] at h
  | cons b tail ih =>
      rw [splitHeader] at h
      split at h
      · next hPrefix =>
          have hLen :=
            (List.isPrefixOf_iff_prefix.mp hPrefix).length_le
          simp [headerEnd] at h hLen
          obtain ⟨-, rfl⟩ := h
          simp
          omega
      · cases hTail : splitHeader tail with
        | none => simp [hTail] at h
        | some p =>
            simp [hTail] at h
            have hRest := ih hTail
            rw [h.2] at hRest
            simp
            omega

/- Every step leaves less to do. -/
theorem advance_measure
    {f g : Framer}
    {ds : List Delivery}
    (h : f.advance = some (g, ds)) :
    g.measure < f.measure := by
  obtain ⟨buffer, bodyLength⟩ := f
  cases bodyLength with
  | none =>
      cases hSplit : splitHeader buffer with
      | none => simp [advance, hSplit] at h
      | some p =>
          obtain ⟨header, rest⟩ := p
          have hLen := splitHeader_length hSplit
          cases hLength : contentLength header with
          | none =>
              simp [advance, hSplit, hLength] at h
              obtain ⟨rfl, -⟩ := h
              simp [measure]
              omega
          | some n =>
              simp [advance, hSplit, hLength] at h
              obtain ⟨rfl, -⟩ := h
              simp [measure]
              omega
  | some n =>
      simp [advance] at h
      obtain ⟨-, rfl, -⟩ := h
      have hDrop : (buffer.drop n).length ≤ buffer.length := by
        rw [List.length_drop]
        exact Nat.sub_le _ _
      simp only [measure, Option.isSome_some,
        Option.isSome_none, ↓reduceIte, Bool.false_eq_true]
      omega

/- Take off what is complete, in at most some steps. -/
def drainWithin
    (fuel : Nat)
    (f : Framer) : Framer × List Delivery :=
  match fuel with
  | 0 => (f, [])
  | n + 1 =>
      match f.advance with
      | none => (f, [])
      | some (g, ds) =>
          let r := drainWithin n g
          (r.1, ds ++ r.2)

/-
  Take off all that is complete.  There are never more steps
  than there is to do.
-/
def drain
    (f : Framer) : Framer × List Delivery :=
  drainWithin (f.measure + 1) f

/- Steps beyond the measure change nothing. -/
theorem drainWithin_eq
    (m n : Nat)
    (f : Framer)
    (hm : f.measure < m)
    (hn : f.measure < n) :
    drainWithin m f = drainWithin n f := by
  induction m generalizing n f with
  | zero => omega
  | succ m ih =>
      cases n with
      | zero => omega
      | succ n =>
          unfold drainWithin
          cases hStep : f.advance with
          | none => rfl
          | some p =>
              obtain ⟨g, ds⟩ := p
              have hLess := advance_measure hStep
              dsimp only
              rw [ih n g (by omega) (by omega)]

/- Draining takes one step and drains what is left. -/
theorem drain_eq
    (f : Framer) :
    f.drain =
      match f.advance with
      | none => (f, [])
      | some (g, ds) => (g.drain.1, ds ++ g.drain.2) := by
  rw [drain, drainWithin]
  cases hStep : f.advance with
  | none => rfl
  | some p =>
      obtain ⟨g, ds⟩ := p
      have hLess := advance_measure hStep
      simp only [drain]
      rw [drainWithin_eq f.measure (g.measure + 1) g
        (by omega) (by omega)]

/- Append bytes and take off all that is complete. -/
def feed
    (f : Framer)
    (bs : List UInt8) : Framer × List Delivery :=
  drain { f with buffer := f.buffer ++ bs }

end Framer

/- The messages among deliveries. -/
def messages
    (ds : List Delivery) : List (Table String Json) :=
  ds.filterMap fun
    | .message fs => some fs
    | .dropped _ => none

/- The faults among deliveries. -/
def faults
    (ds : List Delivery) : List FrameFault :=
  ds.filterMap fun
    | .message _ => none
    | .dropped f => some f

end Rpc

end StyleCompanion
