import StyleCompanion.Client.Run
import StyleCompanion.Disk
import StyleCompanion.Pairing.Session
import StyleCompanion.Workspace.Surface

/-
  The desktop: all that the application works on.

  A desktop joins the disk, the workspace, the surface of the
  overlay, the client of the backend and the openings that
  wait for their turn.  It writes down in its journal what can
  be seen and heard of it.

  The pairing follows the workspace of a desktop only after it
  was attached.  A desktop without it is a plain editor.

  Painting by hand happens on the surface of the overlay until
  another one is laid out.  The overlay and the legend keep
  their own surface.

  Key definitions include:
    * `Guard`
    * `Describer`
    * `Task`
    * `LegendItem`
    * `Notice`
    * `Desktop`
    * `Desktop.handSurface`
    * `Desktop.absorb`
    * `Desktop.readLegend`
    * `Desktop.emitLegend`
    * `Desktop.reread`
    * `Desktop.close`
-/

namespace StyleCompanion

open Pairing

namespace Desktop

----
-- Types
----

/-
  What decides where documents are placed: nothing, a rule on
  the uri and the wanted region, or the pairing.
-/
inductive Guard where
  | none
  | rule (place : String → Region → Region)
  | pairing

/- The rule that places all documents in one region. -/
def Guard.fixed
    (region : Region) : Guard :=
  .rule fun _ _ => region

/- What describes lines under the pointer. -/
inductive Describer where
  | none
  | numbered (text : String)
  | overlay
  deriving DecidableEq, Repr

/-
  An opening that waits for its turn: one of the pairing, or
  one whose end is only reported.
-/
inductive Task where
  | companion (pending : PendingOpen)
  | report (uri : String) (region : Region)
      (preserveFocus : Bool)
  deriving DecidableEq, Repr

/-
  A row of a legend that someone hands in.  Any value may
  stand for the palette index, and the source may be missing.
-/
structure LegendItem where
  slot : Json
  source : Option Attribution.SourceFile

/- What can be seen and heard of a desktop. -/
inductive Notice where
  | opened (uri : String) (region : Region)
  | closed (uri : String)
  | activated (uri : String) (region : Region)
  | edited (uri : String)
  | workspaceStatus (text : String)
  | completed (uri : String) (ok : Bool)
  | legend (uri : String) (rows : List LegendItem)
  | controllerStatus (text : String)
  | statusBar (text : String) (duration : Nat)
  | tooltip (text : String)
  | client (effect : ClientEffect)
  | log (record : LogRecord)

end Desktop

open Desktop (Guard Describer Task LegendItem Notice)

/- The desktop. -/
structure Desktop where
  disk : Disk
  processId : Nat
  serverPath : Option String
  fonts : List String
  fontFamily : String
  fontSize : Int
  workspace : Workspace
  guard : Guard
  describer : Describer
  surface : Workspace.Surface
  laidOut : Option Workspace.Surface
  attached : Bool
  client : Option Client
  tasks : List Task
  legend : Option String
  journal : List Notice

namespace Desktop

/- A plain editor without documents. -/
def new
    (disk : Disk)
    (fonts : List String) : Desktop :=
  { disk := disk
    processId := 0
    serverPath := none
    fonts := fonts
    fontFamily := ""
    fontSize := 10
    workspace := .empty
    guard := .none
    describer := .none
    surface := .default
    laidOut := none
    attached := false
    client := none
    tasks := []
    legend := none
    journal := [] }

----
-- The journal
----

/- Write a notice down. -/
def note
    (d : Desktop)
    (n : Notice) : Desktop :=
  { d with journal := d.journal ++ [n] }

/- Log a record. -/
def log
    (d : Desktop)
    (r : LogRecord) : Desktop :=
  d.note (.log r)

/- Log records in order. -/
def logAll
    (d : Desktop)
    (rs : List LogRecord) : Desktop :=
  rs.foldl log d

/- Forget what was written down. -/
def forgetJournal
    (d : Desktop) : Desktop :=
  { d with journal := [] }

/- Whether there is a window around the workspace. -/
def hasWindow
    (d : Desktop) : Bool :=
  d.legend.isSome

/- How long a passing message stays, in milliseconds. -/
def passing : Nat := 2500

/- Show a message in the window. -/
def showMessage
    (d : Desktop)
    (text : String)
    (duration : Nat) : Desktop :=
  if d.hasWindow then d.note (.statusBar text duration) else d

/- The workspace tells its status. -/
def workspaceStatus
    (d : Desktop)
    (text : String) : Desktop :=
  (d.showMessage text passing).note (.workspaceStatus text)

/- The controller tells its status. -/
def controllerStatus
    (d : Desktop)
    (text : String) : Desktop :=
  (d.showMessage text passing).note (.controllerStatus text)

----
-- The legend
----

/- A character in marked-up text. -/
def escapeChar : Char → String
  | '&' => "&amp;"
  | '<' => "&lt;"
  | '>' => "&gt;"
  | '"' => "&quot;"
  | '\'' => "&#x27;"
  | c => c.toString

/- A text in marked-up text. -/
def escape
    (text : String) : String :=
  String.join (text.toList.map escapeChar)

/- A row of the legend as marked-up text. -/
def legendEntry
    (s : Workspace.Surface)
    (row : Int × Attribution.SourceFile) : String :=
  let swatch :=
    match s.colorFor (Overlay.ownerSlotId row.1) with
    | some color => color.name
    | none => "#888888"
  "<span style=\"color:" ++ swatch ++ "\">&#9632;</span> " ++
    escape row.2.displayName

/- The legend as marked-up text. -/
def legendText
    (s : Workspace.Surface)
    (rows : List (Int × Attribution.SourceFile)) : String :=
  "&nbsp;&nbsp;".intercalate (rows.map (legendEntry s))

/- Show a legend in the window. -/
def showLegend
    (d : Desktop)
    (rows : List (Int × Attribution.SourceFile)) : Desktop :=
  { d with
    legend := d.legend.map fun _ => legendText d.surface rows }

/- Tell that a view has a legend. -/
def emitLegend
    (d : Desktop)
    (uri : String)
    (rows : List Overlay.LegendRow) : Desktop :=
  (d.showLegend (rows.map fun r => ((r.1 : Int), r.2))).note
    (.legend uri (rows.map fun r => ⟨.int r.1, some r.2⟩))

/- Read a row of a legend, the index before the source. -/
def readLegendItem
    (item : LegendItem) :
    Outcome (Int × Attribution.SourceFile) := do
  let index ← item.slot.integer
  match item.source with
  | none => .error .missingObject
  | some source => return (index, source)

/- Read the rows of a legend until one fails. -/
def readLegend
    (items : List LegendItem) :
    Outcome (List (Int × Attribution.SourceFile)) :=
  items.mapM readLegendItem

----
-- The client
----

/- Pass on an effect of the client. -/
def relay
    (d : Desktop)
    (e : ClientEffect) : Desktop :=
  match e with
  | .log r => d.log r
  | .signal (.status text) =>
      (if d.attached then d.controllerStatus text else d).note
        (.client e)
  | e => d.note (.client e)

/- Take a client over with all it has done. -/
def absorb
    (d : Desktop)
    (c : Client) : Desktop :=
  c.journal.foldl relay
    { d with client := some { c with journal := [] } }

/- Let the client do something, if there is one. -/
def onClient
    (d : Desktop)
    (f : Client → Client) : Desktop :=
  match d.client with
  | none => d
  | some c => d.absorb (f c)

/- The surroundings of the client. -/
def environment
    (d : Desktop) : Environment :=
  { serverPath := d.serverPath
    processId := d.processId
    isDirectory := d.disk.isDirectory }

/- Tell the client that a document was closed. -/
def announceClosed
    (d : Desktop)
    (uri : String) : Desktop :=
  if d.attached then d.onClient (·.didClose uri) else d

----
-- Painting by hand
----

/-
  The surface for painting by hand: the one laid out last,
  else that of the overlay.  A plain editor has none at first.
-/
def handSurface
    (d : Desktop) : Outcome Workspace.Surface :=
  match d.laidOut with
  | some s => .ok s
  | none =>
      if d.attached then .ok d.surface
      else .error .missingObject

/- Change the surface for painting by hand. -/
def setHandSurface
    (d : Desktop)
    (s : Workspace.Surface) : Desktop :=
  if d.laidOut.isSome then { d with laidOut := some s }
  else { d with surface := s }

/- Paint a slot on a document with a surface. -/
def paintOn
    (d : Desktop)
    (s : Workspace.Surface)
    (uri slot : String)
    (spans : List Overlay.LineSpan) : Desktop :=
  let r := s.paint d.workspace uri slot spans
  ({ d with workspace := r.1 }).logAll r.2

----
-- The editor of the pairing
----

/- Carry out what the overlay wants done. -/
def decorate
    (d : Desktop)
    (e : Overlay.Effect) : Desktop :=
  match e with
  | .log r => d.log r
  | .clear uri =>
      { d with
        workspace :=
          d.workspace.onEditor uri (·.clearSelections) }
  | .paint uri slot spans =>
      d.paintOn d.surface uri slot spans
  | .rendered uri rows =>
      ({ d with
        workspace :=
          d.workspace.onEditor uri (·.markOverlaid) }
        ).emitLegend uri rows

/- The log record of a document that lies elsewhere. -/
def placeLog
    (d : Desktop)
    (uri : String)
    (wanted : Option Region) : List LogRecord :=
  match d.workspace.regionOf uri, wanted with
  | some region, some other =>
      if region = other then []
      else
        [.debug
          (uri ++ " lives in " ++ region.name ++ ", not " ++
            other.name)]
  | _, _ => []

/- Show a document where it is, without the keyboard. -/
def reveal
    (d : Desktop)
    (uri : String)
    (wanted : Option Region) : Desktop :=
  ({ d with workspace := d.workspace.bringForward uri }).logAll
    (d.placeLog uri wanted)

/-
  Read an open document again.  Says whether its text changed.
-/
def reread
    (d : Desktop)
    (uri : String) : Refresh Desktop :=
  match d.workspace.editor? uri with
  | none => .done d false
  | some e =>
      let path := pathOfUri uri
      match d.disk.readText path with
      | .undecodable cause => .failed d (.undecodable cause)
      | .fault cause =>
          .done
            (d.log
              (.warning
                ("Could not reload " ++ path ++ ": " ++
                  cause.message)))
            false
      | .text content =>
          if content = e.text then .done d false
          else
            .done
              { d with
                workspace :=
                  d.workspace.onEditor uri
                    (·.setText content) }
              true

/- Tell the end of an event. -/
def settle
    (d : Desktop)
    (engine : Overlay.Engine)
    (e : HostEvent) : Desktop :=
  match e with
  | .activated uri region =>
      (if d.attached && engine.hasRender uri then
        d.emitLegend uri (engine.legend uri)
      else d).note (.activated uri region)
  | .edited uri => d.note (.edited uri)
  | .closed uri => (d.announceClosed uri).note (.closed uri)

/-
  Close an open document.  An attached desktop leaves it to
  the pairing to go on.
-/
def close
    (d : Desktop)
    (uri : String) : Removal Desktop :=
  if !d.workspace.isOpen uri then ⟨d, none, false⟩
  else
    let r := d.workspace.remove uri
    let d₁ := { d with workspace := r.1 }
    if d₁.attached then ⟨d₁, r.2, true⟩
    else
      let d₂ :=
        match r.2 with
        | none => d₁
        | some (other, region) =>
            d₁.note (.activated other region)
      ⟨d₂.note (.closed uri), none, false⟩

instance : Host Desktop where
  documentsIn d region := d.workspace.documentsIn region
  activeIn d region := d.workspace.shownIn region
  isOpen d uri := d.workspace.isOpen uri
  isVisible d uri := d.workspace.isVisible uri
  lineCount d uri :=
    (d.workspace.editor? uri).map fun e => (e.lineCount : Int)
  log := log
  decorate := decorate
  requestOpen d p :=
    { d with tasks := d.tasks ++ [.companion p] }
  reveal d uri region := d.reveal uri (some region)
  refresh := reread
  close := close
  settled := settle

end Desktop

end StyleCompanion
