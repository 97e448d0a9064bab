import StyleCompanion.Pairing.Host
import StyleCompanion.Workspace.Editor
import StyleCompanion.Workspace.Tabs

/-
  The workspace: documents in two regions of tabs.

  Every open document has an editor and lies in the tabs of
  one region.  The active document is the one that was worked
  on last.  The editor with the keyboard is remembered apart,
  since documents also become active by being opened.

  Key definitions include:
    * `Document`
    * `Workspace`
    * `Workspace.add`
    * `Workspace.markActive`
    * `Workspace.focus`
    * `Workspace.remove`
    * `Workspace.switchTo`
-/

namespace StyleCompanion

open Pairing (Region)

namespace Workspace

/- An open document. -/
structure Document where
  region : Region
  editor : Editor
  deriving DecidableEq, Repr

end Workspace

open Workspace (Document Editor Tabs)

/- The open documents and their tabs. -/
structure Workspace where
  documents : Table String Document
  primary : Tabs
  secondary : Tabs
  keyboard : Option String
  active : Option String
  deriving DecidableEq, Repr

namespace Workspace

/- A workspace without documents. -/
def empty : Workspace :=
  { documents := []
    primary := .empty
    secondary := .empty
    keyboard := none
    active := none }

----
-- Queries
----

/- The tabs of a region. -/
def tabs
    (w : Workspace)
    (region : Region) : Tabs :=
  match region with
  | .primary => w.primary
  | .secondary => w.secondary

/- Whether a document is open. -/
def isOpen
    (w : Workspace)
    (uri : String) : Bool :=
  Table.contains w.documents uri

/- The region of an open document. -/
def regionOf
    (w : Workspace)
    (uri : String) : Option Region :=
  (Table.get? w.documents uri).map (·.region)

/- The editor of an open document. -/
def editor?
    (w : Workspace)
    (uri : String) : Option Editor :=
  (Table.get? w.documents uri).map (·.editor)

/- The documents of a region in the order of their tabs. -/
def documentsIn
    (w : Workspace)
    (region : Region) : List String :=
  (w.tabs region).pages

/- The document that a region shows. -/
def shownIn
    (w : Workspace)
    (region : Region) : Option String :=
  (w.tabs region).current

/- Whether a document is shown by its region. -/
def isVisible
    (w : Workspace)
    (uri : String) : Bool :=
  match w.regionOf uri with
  | none => false
  | some region => w.shownIn region == some uri

----
-- Changes
----

/- Put tabs in the place of a region's tabs. -/
def setTabs
    (w : Workspace)
    (region : Region)
    (t : Tabs) : Workspace :=
  match region with
  | .primary => { w with primary := t }
  | .secondary => { w with secondary := t }

/- Change the editor of an open document. -/
def onEditor
    (w : Workspace)
    (uri : String)
    (f : Editor → Editor) : Workspace :=
  match Table.get? w.documents uri with
  | none => w
  | some d =>
      { w with
        documents :=
          Table.insert w.documents uri
            { d with editor := f d.editor } }

/- Show a document in its region. -/
def bringForward
    (w : Workspace)
    (uri : String) : Workspace :=
  match w.regionOf uri with
  | none => w
  | some region =>
      w.setTabs region ((w.tabs region).bringForward uri)

/- Add a document to a region. -/
def add
    (w : Workspace)
    (uri : String)
    (region : Region)
    (e : Editor) : Workspace :=
  { w.setTabs region ((w.tabs region).add uri) with
    documents := Table.insert w.documents uri ⟨region, e⟩ }

----
-- The active document
----

/-
  Make an open document the active one.  Gives its region if
  it was not active before.
-/
def markActive
    (w : Workspace)
    (uri : String) : Workspace × Option (String × Region) :=
  match w.regionOf uri with
  | none => (w, none)
  | some region =>
      if w.active = some uri then (w, none)
      else ({ w with active := some uri }, some (uri, region))

/- Give the keyboard to an open document. -/
def focus
    (w : Workspace)
    (uri : String) : Workspace × Option (String × Region) :=
  if w.keyboard = some uri then (w, none)
  else ({ w with keyboard := some uri }).markActive uri

/-
  The current page of a region was set anew.  It becomes the
  active document if it has the keyboard.
-/
def pageChanged
    (w : Workspace)
    (region : Region) : Workspace × Option (String × Region) :=
  match w.shownIn region with
  | none => (w, none)
  | some uri =>
      if w.keyboard = some uri then w.markActive uri
      else (w, none)

/- Go to the page at an index of a region. -/
def switchTo
    (w : Workspace)
    (region : Region)
    (index : Nat) : Workspace × Option (String × Region) :=
  let r := (w.tabs region).switchTo index
  let w₁ := w.setTabs region r.1
  if r.2 then w₁.pageChanged region else (w₁, none)

/- Without the keyboard for a document. -/
def dropKeyboard
    (w : Workspace)
    (uri : String) : Workspace :=
  if w.keyboard = some uri then { w with keyboard := none }
  else w

/- Without an active document, if it is the given one. -/
def dropActive
    (w : Workspace)
    (uri : String) : Workspace :=
  if w.active = some uri then { w with active := none } else w

/-
  Remove an open document.  Gives the document that becomes
  active thereby.
-/
def remove
    (w : Workspace)
    (uri : String) : Workspace × Option (String × Region) :=
  match w.regionOf uri with
  | none => (w, none)
  | some region =>
      let r := (w.tabs region).remove uri
      let w₁ :=
        ({ w with documents := Table.erase w.documents uri }
          ).setTabs region r.1
      let w₂ := w₁.dropKeyboard uri
      let q :=
        if r.2 then w₂.pageChanged region else (w₂, none)
      (q.1.dropActive uri, q.2)

end Workspace

end StyleCompanion
