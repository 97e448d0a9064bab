import StyleCompanion.Application.Desktop

/-
  Documents in the application.

  Every command on a document first changes the workspace and
  then tells those who follow it: the pairing, then the client
  of the backend, then the journal.

  Key definitions include:
    * `Application`
    * `Application.openDocument`
    * `Application.reveal`
    * `Application.reload`
    * `Application.closeDocument`
    * `Application.type`
    * `Application.focus`
    * `Application.hover`
-/

namespace StyleCompanion

open Pairing

/- The pairing over a desktop. -/
abbrev Application :=
  Session Desktop

namespace Application

----
-- Small steps
----

/- Change the desktop. -/
def onDesktop
    (a : Application)
    (f : Desktop → Desktop) : Application :=
  { a with host := f a.host }

/- Put a workspace in the place of the workspace. -/
def withWorkspace
    (a : Application)
    (w : Workspace) : Application :=
  a.onDesktop fun d => { d with workspace := w }

/- The workspace. -/
def workspace
    (a : Application) : Workspace :=
  a.host.workspace

/- Tell that another document became active. -/
def announceActive
    (a : Application)
    (activated : Option (String × Region)) : Application :=
  match activated with
  | none => a
  | some (uri, region) =>
      if a.host.attached then a.noticeActivated activated
      else a.settle (.activated uri region)

/- Take over a workspace in which a document became active. -/
def activate
    (a : Application)
    (r : Workspace × Option (String × Region)) : Application :=
  (a.withWorkspace r.1).announceActive r.2

----
-- Texts
----

/- Tell the client about a changed text that it follows. -/
def announceChange
    (a : Application)
    (uri : String) : Application :=
  match a.host.client, a.workspace.editor? uri with
  | some c, some e =>
      if c.isTracking uri then
        a.onDesktop (·.onClient fun c =>
          (c.didChange uri e.text).1)
      else a
  | _, _ => a

/- Tell that the text of a document changed. -/
def textChanged
    (a : Application)
    (uri : String) : Application :=
  let a₁ :=
    if !a.host.attached then a
    else if (a.registry.pairForCompanion uri).isSome then
      a.companionEdited uri
    else a.announceChange uri
  a₁.settle (.edited uri)

/- Type a text into an open document. -/
def type
    (a : Application)
    (uri typed : String) : Application :=
  (a.withWorkspace
    (a.workspace.onEditor uri (·.insert typed))).textChanged uri

/- Read a document again; says whether its text changed. -/
def reload
    (a : Application)
    (uri : String) : Application × Outcome Bool :=
  match a.host.reread uri with
  | .failed d e => ({ a with host := d }, .error e)
  | .done d changed =>
      let a₁ := { a with host := d }
      (if changed then a₁.textChanged uri else a₁, .ok changed)

----
-- Opening and showing
----

/- Show an open document, with or without the keyboard. -/
def present
    (a : Application)
    (uri : String)
    (preserveFocus : Bool) : Application :=
  let w := a.workspace.bringForward uri
  if preserveFocus then a.withWorkspace w
  else a.activate (w.markActive uri)

/- Show a document if it is open; says whether it is. -/
def reveal
    (a : Application)
    (uri : String)
    (wanted : Option Region)
    (preserveFocus : Bool) : Application × Bool :=
  if !a.workspace.isOpen uri then (a, false)
  else
    let a₁ := a.onDesktop fun d => d.logAll (d.placeLog uri wanted)
    (a₁.present uri preserveFocus, true)

/- Where a document that is to be opened goes. -/
def target
    (a : Application)
    (uri : String)
    (region : Region) : Region :=
  match a.host.guard with
  | .none => region
  | .rule place => place uri region
  | .pairing => a.placementFor uri region

/- The log record of a document that goes elsewhere. -/
def redirectLog
    (uri : String)
    (region target : Region) : List LogRecord :=
  if target = region then []
  else
    [.debug
      ("Redirected " ++ uri ++ " from " ++ region.name ++
        " to " ++ target.name)]

/- The font of new editors. -/
def editorFont
    (d : Desktop) : Workspace.Font :=
  ⟨Workspace.Font.resolveFamily d.fonts d.fontFamily,
    d.fontSize⟩

/- The endings of uris of marked-up documents. -/
def markupSuffixes : List String :=
  [".html", ".htm", ".xhtml"]

/- Whether a document is marked up. -/
def isMarkup
    (uri : String) : Bool :=
  markupSuffixes.any fun s =>
    s.toList.isSuffixOf (Text.lower uri).toList

/- Tell the client about a new primary that is marked up. -/
def announceOpened
    (a : Application)
    (uri : String)
    (region : Region) : Application :=
  match a.workspace.editor? uri with
  | none => a
  | some e =>
      if region = .primary ∧ isMarkup uri then
        a.onDesktop (·.onClient fun c =>
          (c.didOpen uri "html" e.text).1)
      else a

/- Tell that a document was opened. -/
def opened
    (a : Application)
    (uri : String)
    (region : Region) : Application :=
  let a₁ :=
    if a.host.attached then
      announceOpened a.documentOpened uri region
    else a
  a₁.onDesktop (·.note (.opened uri region))

/- Put a text that was read into a new editor. -/
def openText
    (a : Application)
    (uri : String)
    (region : Region)
    (preserveFocus : Bool)
    (content : String) : Application :=
  let e := Workspace.Editor.new content (editorFont a.host)
  let a₁ := a.withWorkspace (a.workspace.add uri region e)
  (a₁.present uri preserveFocus).opened uri region

/- Open a document that is not open. -/
def openNew
    (a : Application)
    (uri : String)
    (region : Region)
    (preserveFocus : Bool) : Application × Outcome Bool :=
  let path := pathOfUri uri
  match a.host.disk.readText path with
  | .undecodable cause => (a, .error (.undecodable cause))
  | .fault cause =>
      (a.onDesktop fun d =>
        (d.log
          (.warning
            ("Could not read " ++ path ++ ": " ++
              cause.message))).workspaceStatus
          ("Could not open " ++ path),
        .ok false)
  | .text content =>
      (a.openText uri region preserveFocus content, .ok true)

/-
  Open a document, or show it where it is; says whether it is
  open afterwards.
-/
def openDocument
    (a : Application)
    (uri : String)
    (region : Region)
    (preserveFocus : Bool) : Application × Outcome Bool :=
  let place := a.target uri region
  let a₁ := a.onDesktop (·.logAll (redirectLog uri region place))
  if a₁.workspace.isOpen uri then
    (a₁.present uri preserveFocus, .ok true)
  else a₁.openNew uri place preserveFocus

----
-- Closing
----

/- Close a document; says whether it was open. -/
def closeDocument
    (a : Application)
    (uri : String) : Application × Bool :=
  (a.close uri, a.workspace.isOpen uri)

/- Close all documents in the order of their opening. -/
def closeAll
    (a : Application) : Application :=
  (Table.keys a.workspace.documents).foldl Session.close a

/- Ask for the end of the document at an index of a region. -/
def closeTab
    (a : Application)
    (region : Region)
    (index : Nat) : Application :=
  match (a.workspace.documentsIn region)[index]? with
  | none => a
  | some uri => a.close uri

----
-- The user
----

/- Give the keyboard to an open document. -/
def focus
    (a : Application)
    (uri : String) : Application :=
  a.activate (a.workspace.focus uri)

/- Go to the page at an index of a region. -/
def switchTab
    (a : Application)
    (region : Region)
    (index : Nat) : Application :=
  a.activate (a.workspace.switchTo region index)

/- What is said about a line of a document. -/
def describe
    (a : Application)
    (uri : String)
    (line : Nat) : Option String :=
  match a.host.describer with
  | .none => none
  | .numbered text =>
      some
        (if text.isEmpty then "" else text ++ toString line)
  | .overlay => some (a.engine.describeLine uri line)

/- Rest the pointer on a line; says whether that is known. -/
def hover
    (a : Application)
    (uri : String)
    (line : Int) : Application × Bool :=
  match a.workspace.editor? uri with
  | none => (a, false)
  | some e =>
      match a.describe uri (e.nearestBlock line) with
      | none => (a, false)
      | some text => (a.onDesktop (·.note (.tooltip text)), true)

end Application

end StyleCompanion
