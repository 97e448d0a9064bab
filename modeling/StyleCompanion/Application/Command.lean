import StyleCompanion.Application.Start

/-
  Whole runs of the application.

  A command is anything that the user, the disk, the backend
  or the event loop does to a running application.

  Key definitions include:
    * `Application.Command`
    * `Application.Answer`
    * `Application.perform`
    * `Application.run`
-/

namespace StyleCompanion

open Pairing

namespace Application

----
-- Commands
----

/- What can be done to the application. -/
inductive Command where
  | writeFile (path : String) (bytes : List UInt8)
  | removeFile (path : String)
  | pump
  | client (event : Client.Event)
  | openDocument (uri : String) (region : Region)
      (preserveFocus : Bool)
  | reveal (uri : String) (region : Option Region)
      (preserveFocus : Bool)
  | reload (uri : String)
  | close (uri : String)
  | closeAll
  | setGuard (guard : Desktop.Guard)
  | setDescriber (describer : Desktop.Describer)
  | focus (uri : String)
  | type (uri typed : String)
  | hover (uri : String) (line : Int) (tooltip : Bool)
  | switchTab (region : Region) (index : Nat)
  | closeTab (region : Region) (index : Nat)
  | requestReport (uri : String) (region : Region)
      (preserveFocus : Bool)
  | layOutSurface (palette lineAlpha style : Json)
  | setEnabled (enabled : Bool)
  | paint (uri slot : String) (spans : List Overlay.LineSpan)
  | clearSelections (uri : String)
  | reverseSelections (uri : String)
  | showCompanion (params : Json)
  | shutdown
  | openPaths (paths : List String)
  | showLegend (rows : List Desktop.LegendItem)
  | emitLegend (uri : String)
      (rows : List Desktop.LegendItem)

/- What a command gives back. -/
inductive Answer where
  | done
  | truth (b : Bool)
  | number (n : Nat)
  | notOpen
  deriving DecidableEq, Repr

----
-- Answers
----

/- A command that gives nothing back. -/
def quiet
    (a : Application) : Application × Outcome Answer :=
  (a, .ok .done)

/- A command that says yes or no. -/
def saying
    (r : Application × Bool) : Application × Outcome Answer :=
  (r.1, .ok (.truth r.2))

/- A command that fails or says yes or no. -/
def deciding
    (r : Application × Outcome Bool) :
    Application × Outcome Answer :=
  (r.1, r.2.map .truth)

/- A command that fails or gives nothing back. -/
def risking
    (r : Application × Outcome Unit) :
    Application × Outcome Answer :=
  (r.1, r.2.map fun _ => .done)

/- A command on an open document. -/
def onOpen
    (a : Application)
    (uri : String)
    (f : Application → Application × Outcome Answer) :
    Application × Outcome Answer :=
  if a.workspace.isOpen uri then f a else (a, .ok .notOpen)

/- A command for a part that may be missing. -/
def needing
    (a : Application)
    (present : Bool)
    (f : Application → Application × Outcome Answer) :
    Application × Outcome Answer :=
  if present then f a else (a, .error .missingObject)

/- The answer of the client as an answer. -/
def ofClient
    (r : Application × Outcome Client.Answer) :
    Application × Outcome Answer :=
  (r.1, r.2.map fun
    | .done => .done
    | .number n => .number n)

----
-- Decorations
----

/- Change the selections of an editor. -/
def onSelections
    (a : Application)
    (uri : String)
    (f : List Workspace.Selection → List Workspace.Selection) :
    Application :=
  a.withWorkspace
    (a.workspace.onEditor uri fun e =>
      { e with selections := f e.selections })

/-
  Lay out another surface for painting by hand; gives the size
  of its palette.
-/
def layOutSurface
    (a : Application)
    (palette lineAlpha style : Json) :
    Application × Outcome Answer :=
  match Workspace.Surface.build palette lineAlpha style with
  | .error e => (a, .error e)
  | .ok s =>
      (a.onDesktop fun d => { d with laidOut := some s },
        .ok (.number s.paletteSize))

/- Do something with the surface for painting by hand. -/
def byHand
    (a : Application)
    (f : Desktop → Workspace.Surface → Desktop) :
    Application × Outcome Answer :=
  match a.host.handSurface with
  | .error e => (a, .error e)
  | .ok s => quiet (a.onDesktop fun d => f d s)

/- Do something with the rows of a legend that can be read. -/
def withLegend
    (a : Application)
    (rows : List Desktop.LegendItem)
    (f : Desktop → Desktop) : Application × Outcome Answer :=
  a.needing a.host.hasWindow fun a =>
    match Desktop.readLegend rows with
    | .error e => (a, .error e)
    | .ok read =>
        quiet (a.onDesktop fun d => f (d.showLegend read))

/- What the overlay says of a line. -/
def describeLine
    (a : Application)
    (uri : String)
    (line : Json) : Outcome String :=
  if a.host.attached then a.engine.describeValue uri line
  else .error .missingObject

----
-- Runs
----

/- The application after a command, and the answer. -/
def perform
    (a : Application)
    (command : Command) : Application × Outcome Answer :=
  match command with
  | .writeFile path bytes =>
      quiet (a.onDesktop fun d =>
        { d with disk := d.disk.write path bytes })
  | .removeFile path =>
      quiet (a.onDesktop fun d =>
        { d with disk := d.disk.remove path })
  | .pump => ofClient (answered a.pump)
  | .client event => ofClient (a.clientEvent event)
  | .openDocument uri region preserveFocus =>
      deciding (a.openDocument uri region preserveFocus)
  | .reveal uri region preserveFocus =>
      saying (a.reveal uri region preserveFocus)
  | .reload uri => deciding (a.reload uri)
  | .close uri => saying (a.closeDocument uri)
  | .closeAll => quiet a.closeAll
  | .setGuard guard =>
      quiet (a.onDesktop fun d => { d with guard := guard })
  | .setDescriber describer =>
      quiet (a.onDesktop fun d =>
        { d with describer := describer })
  | .focus uri => a.onOpen uri fun a => quiet (a.focus uri)
  | .type uri typed =>
      a.onOpen uri fun a => quiet (a.type uri typed)
  | .hover uri line tooltip =>
      a.onOpen uri fun a =>
        if tooltip then saying (a.hover uri line)
        else saying (a, false)
  | .switchTab region index =>
      quiet (a.switchTab region index)
  | .closeTab region index => quiet (a.closeTab region index)
  | .requestReport uri region preserveFocus =>
      quiet (a.requestReport uri region preserveFocus)
  | .layOutSurface palette lineAlpha style =>
      a.layOutSurface palette lineAlpha style
  | .setEnabled enabled =>
      a.byHand fun d s =>
        d.setHandSurface { s with enabled := enabled }
  | .paint uri slot spans =>
      a.byHand fun d s => d.paintOn s uri slot spans
  | .clearSelections uri =>
      a.byHand fun d _ => d.decorate (.clear uri)
  | .reverseSelections uri =>
      a.needing (a.workspace.isOpen uri) fun a =>
        quiet (a.onSelections uri List.reverse)
  | .showCompanion params =>
      a.needing a.host.attached fun a =>
        risking (a.handleShow params)
  | .shutdown =>
      a.needing a.host.attached fun a => quiet a.shutdown
  | .openPaths paths =>
      a.needing a.host.hasWindow fun a =>
        risking (a.openPaths paths)
  | .showLegend rows => a.withLegend rows id
  | .emitLegend uri rows =>
      a.withLegend rows (·.note (.legend uri rows))

/- The application after commands in order. -/
def run
    (a : Application)
    (commands : List Command) : Application :=
  commands.foldl (fun a c => (a.perform c).1) a

end Application

end StyleCompanion
