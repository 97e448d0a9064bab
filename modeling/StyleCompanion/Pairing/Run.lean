import StyleCompanion.Pairing.Desk

/-
  Whole runs of the pairing over a desk.

  An event is a request, the completion of an opening, or
  anything that happens to the documents on the desk.

  Key definitions include:
    * `Session.Event`
    * `Session.step`
    * `Session.run`
-/

namespace StyleCompanion

namespace Pairing

namespace Session

/- What can happen to the pairing and its desk. -/
inductive Event where
  | place (uri : String) (region : Region) (active : Bool)
  | takeOut (uri : String)
  | close (uri : String)
  | prepareReload (uri : String) (count : Int)
  | setCount (uri : String) (count : Option Int)
  | complete (index : Nat) (ok : Bool) (lines : Option Int)
  | showCompanion (uri : String) (model : Attribution.Model)
      (primary : Option String)
  | documentOpened
  | activeViewChanged (uri : String)
  | documentClosed (uri : String)
  | companionEdited (uri : String)
  | primaryClosed (uri : String)
  | companionClosed (uri : String)
  | reconcile
  | teardown
  | setPaletteSize (size : Nat)

/- Change the desk. -/
def onDesk
    (s : Session Desk)
    (f : Desk → Desk) : Session Desk :=
  { s with host := f s.host }

/- The pairing after an event. -/
def step
    (s : Session Desk)
    (event : Event) : Session Desk :=
  match event with
  | .place uri region active =>
      s.onDesk (·.add uri region active)
  | .takeOut uri => s.onDesk (·.takeOut uri)
  | .close uri => s.close uri
  | .prepareReload uri count =>
      s.onDesk (·.prepareReload uri count)
  | .setCount uri count => s.onDesk (·.setCount uri count)
  | .complete index ok lines => (s.complete index ok lines).1
  | .showCompanion uri m primary =>
      (s.showCompanion uri m primary).1
  | .documentOpened => s.documentOpened
  | .activeViewChanged uri => s.activeViewChanged uri
  | .documentClosed uri => s.documentClosed uri
  | .companionEdited uri => s.companionEdited uri
  | .primaryClosed uri => s.primaryClosed uri
  | .companionClosed uri => s.companionClosed uri
  | .reconcile => s.reconcile
  | .teardown => s.teardown
  | .setPaletteSize size => s.setPaletteSize size

/- The pairing after events in order. -/
def run
    (s : Session Desk)
    (events : List Event) : Session Desk :=
  events.foldl step s

end Session

end Pairing

end StyleCompanion
