import StyleCompanion.Client.Basic

/-
  Documents that the backend follows.

  A document is opened at version one; every change raises its
  version by one.

  Key definitions include:
    * `Client.didOpen`
    * `Client.didChange`
    * `Client.didClose`
    * `Client.isTracking`
-/

namespace StyleCompanion

namespace Client

/- Whether the backend follows a document. -/
def isTracking
    (c : Client)
    (uri : String) : Bool :=
  Table.contains c.versions uri

/- The parameters of a change. -/
def changeParams
    (uri : String)
    (version : Nat)
    (text : String) : Json :=
  .obj
    [("textDocument", .obj
      [("uri", .str uri), ("version", .int version)]),
      ("contentChanges", .arr
        [.obj [("text", .str text)]])]

/- Report a change; gives the new version, or zero. -/
def didChange
    (c : Client)
    (uri text : String) : Client × Nat :=
  match Table.get? c.versions uri with
  | none => (c, 0)
  | some v =>
      let c₁ :=
        { c with
          versions := Table.insert c.versions uri (v + 1) }
      (c₁.notify "textDocument/didChange"
        (changeParams uri (v + 1) text), v + 1)

/- The parameters of an opening. -/
def openParams
    (uri language text : String) : Json :=
  .obj
    [("textDocument", .obj
      [("uri", .str uri),
        ("languageId",
          .str (if language.isEmpty then "html" else language)),
        ("version", .int 1),
        ("text", .str text)])]

/-
  Report an opening; gives the version, or zero without a uri.
  A document that is followed already counts as changed.
-/
def didOpen
    (c : Client)
    (uri language text : String) : Client × Nat :=
  if uri.isEmpty then (c, 0)
  else if c.isTracking uri then c.didChange uri text
  else
    let c₁ :=
      { c with versions := Table.insert c.versions uri 1 }
    (c₁.notify "textDocument/didOpen"
      (openParams uri language text), 1)

/- Report a closing. -/
def didClose
    (c : Client)
    (uri : String) : Client :=
  if c.isTracking uri then
    ({ c with versions := Table.erase c.versions uri }).notify
      "textDocument/didClose"
      (.obj [("textDocument", .obj [("uri", .str uri)])])
  else c

end Client

end StyleCompanion
