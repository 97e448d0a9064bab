import StyleCompanion.Application.Command

/-
  The command line.

  It reads the surroundings and the files that are named,
  starts the application and prints what a window would say.

  Key definitions include:
    * `main`
-/

namespace StyleCompanion

namespace Main

/- What is found at a path. -/
def find
    (path : String) : IO FileState := do
  try
    let bytes ← IO.FS.readBinFile path
    return .file bytes.toList
  catch
    | .noFileOrDirectory .. => return .missing
    | _ => return .directory

/- The files among paths. -/
def readFiles
    (paths : List String) :
    IO (Table String (List UInt8)) := do
  let mut files : Table String (List UInt8) := []
  for path in paths do
    match ← find path with
    | .file bytes => files := Table.insert files path bytes
    | _ => pure ()
  return files

/- The homes that the surroundings know. -/
def readHomes : IO Homes := do
  let own := (← IO.getEnv "HOME").getD "/"
  match ← find "/etc/passwd" with
  | .file bytes =>
      match Utf8.decode bytes with
      | .ok cs => return .ofAccounts own (String.ofList cs)
      | .error _ => return ⟨own, []⟩
  | _ => return ⟨own, []⟩

/- What a notice says to someone without a window. -/
def lineOf : Desktop.Notice → Option String
  | .opened uri region =>
      some ("opened " ++ uri ++ " in " ++ region.name)
  | .statusBar text _ => some text
  | .workspaceStatus text => some text
  | .log r => some (r.level.name ++ " " ++ r.text)
  | _ => none

/- Print what was seen and heard, or the failure. -/
def report
    (outcome : Outcome Application) : IO UInt32 := do
  match outcome with
  | .error e =>
      IO.eprintln e.message
      return 1
  | .ok a =>
      for line in a.host.journal.filterMap lineOf do
        IO.println line
      return 0

/- Start with the settings at a path. -/
def startWith
    (homes : Homes)
    (path : String)
    (arguments : Arguments) : IO UInt32 := do
  let loaded :=
    (SettingsStore.new path Settings.appDefaults).load
      (← find path)
  match loaded.2 with
  | .error e => report (.error e)
  | .ok _ =>
      let files ← readFiles
        (arguments.paths.filterMap (Path.expandHome homes))
      let current := (← IO.currentDir).toString
      let desktop :=
        { Desktop.new ⟨files, current⟩ [] with
          serverPath := ← IO.getEnv "SERVER_PATH" }
      report
        (Application.start desktop homes loaded.1 arguments
          (Client.new "no backend process"))

end Main

end StyleCompanion

open StyleCompanion in
/- Start the application on the documents that are named. -/
def main
    (args : List String) : IO UInt32 := do
  let homes ← Main.readHomes
  let named ← IO.getEnv "CSSLENS_SETTINGS"
  match defaultSettingsPath homes named with
  | .error e => Main.report (.error e)
  | .ok path =>
      Main.startWith homes path (Arguments.ofList args)
