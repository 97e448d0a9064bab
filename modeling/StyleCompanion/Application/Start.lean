import StyleCompanion.Application.Backend
import StyleCompanion.Startup

/-
  Setting the application up.

  A plain editor needs a font only.  The pairing is attached
  to it with the options of the settings.  A window shows the
  legend and messages around the workspace.

  Key definitions include:
    * `Application.plain`
    * `Application.attach`
    * `Application.inWindow`
    * `Application.openPaths`
    * `Application.start`
-/

namespace StyleCompanion

open Pairing

namespace Application

/- The name of the application and of its window. -/
def name : String := "csslens"

/- The style in which the application is drawn. -/
def style : String := "Fusion"

/- A plain editor over a desktop. -/
def plain
    (d : Desktop)
    (fontSize fontFamily : Json) : Outcome Application := do
  let size ← fontSize.integer
  let d₁ :=
    { d with
      fontSize := max 1 size
      fontFamily := fontFamily.textOrEmpty }
  return .new d₁.surface.paletteSize d₁

/- The surface that settings ask for. -/
def surfaceOf
    (s : SettingsStore) : Outcome Workspace.Surface := do
  let palette ← s.palette
  let alpha ← (s.get "overlay.line_alpha" (.int 56)).integer
  let style :=
    s.get "overlay.overwritten_style" (.str "strikethrough")
  let surface ←
    Workspace.Surface.build (.arr palette) (.int alpha)
      (.str style.text)
  return {
    surface with
    enabled :=
      (s.get "overlay.enabled" (.bool true)).isTruthy }

/- A client that leaves companions to the application. -/
def listening
    (c : Client) : Client :=
  c.register Attribution.showMethod .application

/- Attach the pairing to a plain editor. -/
def attach
    (a : Application)
    (s : SettingsStore)
    (client : Option Client) : Outcome Application := do
  let surface ← surfaceOf s
  let d :=
    { a.host with
      surface := surface
      guard := .pairing
      describer := .overlay
      attached := true
      client := client.map listening }
  return .new surface.paletteSize d

/- How long a complaint about the settings stays. -/
def complaintDuration : Nat := 6000

/- What a new window says. -/
def greeting
    (s : SettingsStore) : String × Nat :=
  match s.lastError with
  | some e => (e.message, complaintDuration)
  | none => ("Ready", 0)

/- The application in a window. -/
def inWindow
    (d : Desktop)
    (s : SettingsStore)
    (client : Option Client) : Outcome Application := do
  let size ← (s.get "editor.font_size" (.int 10)).integer
  let family := (s.get "editor.font_family" (.str "")).textOrEmpty
  let a ← plain d (.int size) (.str family)
  let b ← a.attach s client
  let text := greeting s
  return b.onDesktop fun d =>
    ({ d with legend := some "" }).showMessage text.1 text.2

/- Open the files among paths as primaries, until one fails. -/
def openPaths
    (a : Application)
    (paths : List String) : Application × Outcome Unit :=
  match paths with
  | [] => (a, .ok ())
  | path :: rest =>
      if !a.host.disk.isFile path then openPaths a rest
      else
        let uri := uriOfFile a.host.disk.current path
        match a.openDocument uri .primary false with
        | (a₁, .ok _) => openPaths a₁ rest
        | (a₁, .error e) => (a₁, .error e)

/- Launch the backend as the settings say. -/
def startBackend
    (a : Application)
    (s : SettingsStore) : Application :=
  let cwd := a.host.disk.current
  (a.clientEvent (.start (s.launch cwd))).1

/-
  Start the application: a window, the documents of the
  command line and, unless it is not wanted, the backend with
  a fresh client.
-/
def start
    (d : Desktop)
    (homes : Homes)
    (s : SettingsStore)
    (args : Arguments)
    (fresh : Client) : Outcome Application := do
  let client := if args.noServer then none else some fresh
  let a ← inWindow d s client
  let paths ← args.paths.mapM (Path.withHome homes)
  match a.openPaths paths with
  | (_, .error e) => .error e
  | (b, .ok _) => .ok (b.startBackend s)

end Application

end StyleCompanion
