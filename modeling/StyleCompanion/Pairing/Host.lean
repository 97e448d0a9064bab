import StyleCompanion.Overlay.Engine
import StyleCompanion.Pairing.Registry

/-
  What the pairing needs of the editor that holds documents.

  An editor has two regions.  It can be asked what is open,
  active and visible, and told to open, reveal, refresh and
  close documents.  Opening is answered later.  What a command
  sets off at once is told in its result, and the editor gets
  the last word on each such event after the pairing has
  handled it.

  Key definitions include:
    * `Region`
    * `HostEvent`
    * `Removal`
    * `Refresh`
    * `Host`
-/

namespace StyleCompanion

namespace Pairing

/- The two regions of an editor. -/
inductive Region where
  | primary
  | secondary
  deriving DecidableEq, Repr

namespace Region

/- The name of a region. -/
def name : Region → String
  | .primary => "PRIMARY"
  | .secondary => "SECONDARY"

end Region

/- What an editor reports. -/
inductive HostEvent where
  | activated (uri : String) (region : Region)
  | edited (uri : String)
  | closed (uri : String)
  deriving DecidableEq, Repr

/-
  What closing a document sets off: another document may
  become the active one, and the closing may be reported.
-/
structure Removal (H : Type) where
  host : H
  activated : Option (String × Region)
  reported : Bool

/-
  What refreshing a document sets off: its text may change and
  the change be reported, or the document cannot be read.
-/
inductive Refresh (H : Type) where
  | done (host : H) (edited : Bool)
  | failed (host : H) (failure : Failure)

/- An editor. -/
class Host (H : Type) where
  documentsIn : H → Region → List String
  activeIn : H → Region → Option String
  isOpen : H → String → Bool
  isVisible : H → String → Bool
  lineCount : H → String → Option Int
  log : H → LogRecord → H
  decorate : H → Overlay.Effect → H
  requestOpen : H → PendingOpen → H
  reveal : H → String → Region → H
  refresh : H → String → Refresh H
  close : H → String → Removal H
  settled : H → Overlay.Engine → HostEvent → H

end Pairing

end StyleCompanion
