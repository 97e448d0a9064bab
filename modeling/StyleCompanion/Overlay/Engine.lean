import StyleCompanion.Overlay.Palette
import StyleCompanion.Overlay.Slot
import StyleCompanion.Overlay.Span

/-
  The overlay that shows owners on companion views.

  Rendering always clears a view and then paints it: the
  palette slots in increasing order, the overwritten lines
  last.  The engine remembers the model and the colours of
  every view it has rendered.  It does not touch a view
  itself: each operation gives the effects that are to be
  carried out, in order.

  Key definitions include:
    * `Effect`
    * `Engine`
    * `Engine.render`
    * `Engine.clear`
    * `Engine.setPaletteSize`
    * `Engine.legend`
    * `Engine.describeLine`
-/

namespace StyleCompanion

namespace Overlay

open Attribution

----
-- Types
----

/- One row of a legend: a slot and its source. -/
abbrev LegendRow := Nat × SourceFile

/- What the engine wants done. -/
inductive Effect where
  | log (record : LogRecord)
  | clear (view : String)
  | paint (view slot : String) (spans : List LineSpan)
  | rendered (view : String) (legend : List LegendRow)
  deriving DecidableEq

/- What the engine remembers of a rendered view. -/
structure View where
  model : Model
  assignment : ColorAssignment
  deriving DecidableEq

/- The palette size and the rendered views. -/
structure Engine where
  paletteSize : Nat
  views : Table String View
  deriving DecidableEq

/- What a render painted, and the lines it had to skip. -/
structure RenderResult where
  view : String
  painted : List (String × List LineSpan)
  skipped : List Int
  deriving DecidableEq

----
-- What a render paints
----

/- Whether a line exists in a view. -/
def inView
    (count n : Int) : Bool :=
  decide (0 ≤ n) && decide (n < count)

/- The owned lines of a model with their slots. -/
def ownedLines
    (m : Model)
    (a : ColorAssignment) : List (Nat × Int) :=
  m.lines.filterMap fun r =>
    match r.ownerId with
    | none => none
    | some owner =>
        (a.slotFor owner).map fun slot => (slot, r.lineNumber)

/- The lines of the overwritten declarations. -/
def overwrittenLines
    (m : Model) : List Int :=
  m.overwrittenDeclarations.filterMap (·.sourceLine)

/- The slots that have a line in the view, in order. -/
def paintedSlots
    (owned : List (Nat × Int)) : List Int :=
  sortedSet (owned.map fun p => (p.1 : Int))

/- The lines of one slot. -/
def linesOfSlot
    (owned : List (Nat × Int))
    (slot : Int) : List Int :=
  (owned.filter fun p => decide ((p.1 : Int) = slot)).map
    (·.2)

/- What is painted for the owners. -/
def ownerPaint
    (owned : List (Nat × Int)) :
    List (String × List LineSpan) :=
  (paintedSlots owned).map fun slot =>
    (ownerSlotId slot, mergeSpans (linesOfSlot owned slot))

/- What is painted for overwritten lines. -/
def overwrittenPaint
    (lines : List Int) : List (String × List LineSpan) :=
  if lines.isEmpty then []
  else [(overwrittenSlot, mergeSpans lines)]

/- What a render of a model paints on a view of some lines. -/
def paintFor
    (m : Model)
    (a : ColorAssignment)
    (count : Int) : List (String × List LineSpan) :=
  ownerPaint
      ((ownedLines m a).filter fun p => inView count p.2) ++
    overwrittenPaint
      ((overwrittenLines m).filter (inView count))

/- The lines that a view of some lines does not have. -/
def skippedFor
    (m : Model)
    (a : ColorAssignment)
    (count : Int) : List Int :=
  sortedSet
    (((ownedLines m a).map (·.2) ++ overwrittenLines m).filter
      fun n => !inView count n)

/- The record that model and view differ in length. -/
def lengthLog
    (view : String)
    (m : Model)
    (count : Int) : List LogRecord :=
  if m.isCurrentFor count then []
  else
    [.warning
      ("Attribution model for " ++ view ++ " covers " ++
        toString m.lineCount ++ " lines but the view has " ++
        toString count)]

/- The record that lines were skipped. -/
def skippedLog
    (view : String)
    (skipped : List Int) : List LogRecord :=
  if skipped.isEmpty then []
  else
    [.warning
      ("Skipped " ++ toString skipped.length ++
        " out-of-range lines while rendering " ++ view)]

/- The legend of a rendered view. -/
def View.legend
    (v : View) : List LegendRow :=
  v.assignment.slots.filterMap fun p =>
    (v.model.source? (some p.1)).map fun s => (p.2, s)

----
-- Operations
----

namespace Engine

/- An engine without views. -/
def new
    (paletteSize : Nat) : Engine :=
  ⟨paletteSize, []⟩

/- Whether a view has a render. -/
def hasRender
    (e : Engine)
    (view : String) : Bool :=
  Table.contains e.views view

/- The model of a rendered view. -/
def modelFor
    (e : Engine)
    (view : String) : Option Model :=
  (Table.get? e.views view).map (·.model)

/- The colours of a rendered view. -/
def assignmentFor
    (e : Engine)
    (view : String) : Option ColorAssignment :=
  (Table.get? e.views view).map (·.assignment)

/- Forget a view. -/
def forget
    (e : Engine)
    (view : String) : Engine :=
  { e with views := Table.erase e.views view }

/- Render a model on a view with a number of lines. -/
def renderLines
    (e : Engine)
    (view : String)
    (m : Model)
    (count : Int) :
    Engine × List Effect × RenderResult :=
  let a := ColorAssignment.assign m e.paletteSize
  let v : View := ⟨m, a⟩
  let painted := paintFor m a count
  let skipped := skippedFor m a count
  let records :=
    lengthLog view m count ++ a.log ++ skippedLog view skipped
  let effects :=
    records.map Effect.log ++
      Effect.clear view ::
        painted.map (fun p => Effect.paint view p.1 p.2) ++
      [Effect.rendered view v.legend]
  ({ e with views := Table.insert e.views view v },
    effects, ⟨view, painted, skipped⟩)

/-
  Render a model on a view.  A view that does not exist is
  forgotten instead.
-/
def render
    (e : Engine)
    (view : String)
    (m : Model)
    (count : Option Int) :
    Engine × List Effect × Option RenderResult :=
  match count with
  | none =>
      (e.forget view,
        [.log (.debug
          ("No view for " ++ view ++
            "; overlay not rendered"))],
        none)
  | some n =>
      let r := e.renderLines view m n
      (r.1, r.2.1, some r.2.2)

/- Clear a view and forget it. -/
def clear
    (e : Engine)
    (view : String)
    (count : Option Int) :
    Engine × List Effect :=
  (e.forget view,
    match count with
    | none => []
    | some _ => [.clear view])

/- Render views again, one after the other. -/
def renderAll
    (e : Engine)
    (counts : String → Option Int)
    (views : List (String × View)) :
    Engine × List Effect :=
  match views with
  | [] => (e, [])
  | (view, v) :: rest =>
      let r := e.render view v.model (counts view)
      let s := renderAll r.1 counts rest
      (s.1, r.2.1 ++ s.2)

/-
  Change the size of the palette.  A different size renders
  every view again.
-/
def setPaletteSize
    (e : Engine)
    (counts : String → Option Int)
    (size : Nat) : Engine × List Effect :=
  if size = e.paletteSize then (e, [])
  else
    renderAll { e with paletteSize := size } counts e.views

/- The legend of a view; without a render it is empty. -/
def legend
    (e : Engine)
    (view : String) : List LegendRow :=
  match Table.get? e.views view with
  | none => []
  | some v => v.legend

/- A source in a description. -/
def describeSource
    (s : SourceFile) : String :=
  if s.absolutePath.isEmpty then s.displayName
  else s.displayName ++ " (" ++ s.absolutePath ++ ")"

/- An overwritten declaration in a description. -/
def describeDeclaration
    (m : Model)
    (d : Declaration) : String :=
  let origin :=
    match m.source? d.ownerId with
    | some s => " from " ++ s.displayName
    | none => ""
  d.propertyName ++ ": " ++ d.value ++ origin ++
    " is overwritten by a later source"

/- What is known about a line of a model. -/
def describeModelLine
    (m : Model)
    (n : Int) : String :=
  let owner :=
    ((m.source? (m.ownerForLine n)).map describeSource).toList
  let overwritten :=
    ((m.declarationsOnLine n).filter (·.isOverwritten)).map
      (describeDeclaration m)
  "\n".intercalate (owner ++ overwritten)

/- What is known about a line of a view. -/
def describeLine
    (e : Engine)
    (view : String)
    (n : Int) : String :=
  match e.modelFor view with
  | none => ""
  | some m => describeModelLine m n

/-
  What is known about a line given as any value.  The value
  is only read when the view has a render.
-/
def describeValue
    (e : Engine)
    (view : String)
    (line : Json) : Outcome String :=
  match e.modelFor view with
  | none => .ok ""
  | some m =>
      match line.integer with
      | .ok n => .ok (describeModelLine m n)
      | .error err => .error err

end Engine

end Overlay

end StyleCompanion
