import StyleCompanion.Overlay.Engine

/-
  The overlay over a board of views.

  A board knows how many lines each of its views has, and
  keeps what the overlay wanted done.  Views come, go and
  change their length at any time.

  Key definitions include:
    * `Board`
    * `Board.Event`
    * `Board.step`
    * `Board.run`
-/

namespace StyleCompanion

namespace Overlay

open Attribution

/- The overlay, its views and what it wanted done. -/
structure Board where
  engine : Engine
  counts : Table String Int
  effects : List Effect
  deriving DecidableEq

namespace Board

/- A board without views. -/
def new
    (paletteSize : Nat) : Board :=
  ⟨.new paletteSize, [], []⟩

/- What can happen to a board. -/
inductive Event where
  | setCount (view : String) (count : Option Int)
  | render (view : String) (model : Model)
  | clear (view : String)
  | forget (view : String)
  | setPaletteSize (size : Json)

/- The number of lines of a view, if it is there. -/
def count
    (b : Board)
    (view : String) : Option Int :=
  Table.get? b.counts view

/- Set the number of lines of a view, or remove the view. -/
def setCount
    (b : Board)
    (view : String)
    (count : Option Int) : Board :=
  { b with
    counts :=
      match count with
      | some n => Table.insert b.counts view n
      | none => Table.erase b.counts view }

/- The board after an operation of the engine. -/
def after
    (b : Board)
    (e : Engine)
    (effects : List Effect) : Board :=
  { b with engine := e, effects := b.effects ++ effects }

/- The board after an event, and what a render painted. -/
def step
    (b : Board)
    (event : Event) : Board × Outcome (Option RenderResult) :=
  match event with
  | .setCount view count => (b.setCount view count, .ok none)
  | .render view m =>
      let r := b.engine.render view m (b.count view)
      (b.after r.1 r.2.1, .ok r.2.2)
  | .clear view =>
      let r := b.engine.clear view (b.count view)
      (b.after r.1 r.2, .ok none)
  | .forget view => (b.after (b.engine.forget view) [], .ok none)
  | .setPaletteSize size =>
      match readPaletteSize size with
      | .error e => (b, .error e)
      | .ok n =>
          let r := b.engine.setPaletteSize b.count n
          (b.after r.1 r.2, .ok none)

/- The board after events in order. -/
def run
    (b : Board)
    (events : List Event) : Board :=
  events.foldl (fun b e => (b.step e).1) b

end Board

end Overlay

end StyleCompanion
