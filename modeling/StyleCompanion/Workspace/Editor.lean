import StyleCompanion.Json.Display
import StyleCompanion.Text.Blank
import StyleCompanion.Text.Path

/-
  Editors.

  An editor has a text, a position at which typing inserts, a
  font and the selections that decorate its lines.  It also
  remembers whether the overlay was rendered on its text as it
  now stands.

  Key definitions include:
    * `Font`
    * `Font.resolveFamily`
    * `Color`
    * `Selection`
    * `Editor`
    * `Editor.lineCount`
    * `Editor.insert`
    * `Editor.setText`
    * `Editor.markOverlaid`
-/

namespace StyleCompanion

namespace Workspace

----
-- Fonts
----

/- A font family in a size. -/
structure Font where
  family : String
  size : Int
  deriving DecidableEq, Repr

namespace Font

/- The families to fall back on, best first. -/
def fallbacks : List String :=
  ["Cascadia Code", "Consolas", "JetBrains Mono",
    "Fira Code", "Courier New", "Monospace"]

/-
  The family to use: the wanted one if it is installed, else
  the best installed fallback, else the wanted one after all.
-/
def resolveFamily
    (installed : List String)
    (wanted : String) : String :=
  let name := Text.trim wanted
  if !name.isEmpty && installed.contains name then name
  else
    match fallbacks.find? installed.contains with
    | some family => family
    | none => if name.isEmpty then "Monospace" else name

end Font

----
-- Selections
----

/- A colour by name, with its opacity. -/
structure Color where
  name : String
  alpha : Int
  deriving DecidableEq, Repr

/- How a selection shows its line. -/
inductive Look where
  | tinted (color : Color)
  | struck
  | slanted
  deriving DecidableEq, Repr

/-
  A decorated line: its number and the text that is selected
  in it.  A tinted line is coloured over its full width and
  selects no text.
-/
structure Selection where
  line : Nat
  text : String
  look : Look
  deriving DecidableEq, Repr

----
-- Editors
----

/-
  An editor.  It is overlaid from a render of the overlay
  until the next change of its text.
-/
structure Editor where
  text : String
  position : Nat
  font : Font
  selections : List Selection
  overlaid : Bool
  deriving DecidableEq, Repr

namespace Editor

/- An editor with a text. -/
def new
    (text : String)
    (font : Font) : Editor :=
  { text := text
    position := 0
    font := font
    selections := []
    overlaid := false }

/- The blocks of a text: the parts between newlines. -/
def blocks
    (e : Editor) : List (List Char) :=
  Path.splitOnChar '\n' e.text.toList

/-
  The number of lines of text.  A newline at the end does not
  start another line.
-/
def lineCount
    (e : Editor) : Nat :=
  let bs := e.blocks
  if 1 < bs.length ∧ bs.getLast? = some [] then bs.length - 1
  else bs.length

/- Replace the text. -/
def setText
    (e : Editor)
    (text : String) : Editor :=
  { e with text := text, position := 0, overlaid := false }

/- Insert a text at the position and move behind it. -/
def insert
    (e : Editor)
    (typed : String) : Editor :=
  let cs := e.text.toList
  { e with
    text :=
      String.ofList
        (cs.take e.position ++ typed.toList ++
          cs.drop e.position)
    position := e.position + typed.length
    overlaid := false }

/- Add selections. -/
def addSelections
    (e : Editor)
    (ss : List Selection) : Editor :=
  { e with selections := e.selections ++ ss }

/- The overlay was rendered on the text. -/
def markOverlaid
    (e : Editor) : Editor :=
  { e with overlaid := true }

/- Remove all selections. -/
def clearSelections
    (e : Editor) : Editor :=
  { e with selections := [] }

/-
  The number of decorations on the screen: the selections and
  the line of the cursor.
-/
def decorationCount
    (e : Editor) : Nat :=
  e.selections.length + 1

/- The nearest block to a line number. -/
def nearestBlock
    (e : Editor)
    (line : Int) : Nat :=
  (max 0 (min line (e.blocks.length - 1))).toNat

end Editor

end Workspace

end StyleCompanion
