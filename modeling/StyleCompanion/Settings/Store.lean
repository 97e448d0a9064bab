import StyleCompanion.Json.Reader
import StyleCompanion.Json.Writer
import StyleCompanion.Settings.Schema

/-
  The store of the settings in a file.

  A file that cannot be used never stops the application: the
  store remembers why and goes on with the defaults.

  Key definitions include:
    * `FileState`
    * `LoadError`
    * `SettingsStore`
    * `SettingsStore.load`
    * `SettingsStore.save`
    * `SettingsStore.get`
    * `SettingsStore.set`
    * `defaultSettingsPath`
-/

namespace StyleCompanion

----
-- Files
----

/-
  What is found at a path.  A path is blocked when one of the
  directories it needs is a file.
-/
inductive FileState where
  | missing
  | blocked
  | directory
  | file (bytes : List UInt8)
  deriving DecidableEq, Repr

namespace FileState

/- Whether a path lies below a directory. -/
def liesBelow
    (path directory : String) : Bool :=
  (directory.toList ++ ['/']).isPrefixOf path.toList

/-
  What is found at a path, given all directories and files
  that were made.
-/
def among
    (directories : List String)
    (files : Table String (List UInt8))
    (path : String) : FileState :=
  match Table.get? files path with
  | some bytes => .file bytes
  | none =>
      if directories.any (fun p => p == path) ||
          (directories ++ Table.keys files).any
            (fun p => liesBelow p path) then
        .directory
      else if (Table.keys files).any (liesBelow path) then
        .blocked
      else .missing

end FileState

/- Why a settings file could not be used. -/
inductive LoadError where
  | directory (path : String)
  | undecodable (path : String) (cause : Utf8.DecodeError)
  | malformed (path : String) (cause : ReadError)
      (text : List Char)
  | notAnObject (path kind : String)

namespace LoadError

/- The beginning of the messages on reading. -/
def unreadable
    (path cause : String) : String :=
  "Could not read settings file '" ++ path ++ "': " ++ cause

/- The wording of an error. -/
def message : LoadError → String
  | .directory path =>
      unreadable path
        ("[Errno 21] Is a directory: " ++ Text.quoted path)
  | .undecodable path cause => unreadable path cause.message
  | .malformed path cause text =>
      unreadable path (cause.describe text)
  | .notAnObject path kind =>
      "Settings root in '" ++ path ++
        "' must be a JSON object, found " ++ kind ++ "."

end LoadError

/- Read the object in the text of a settings file. -/
def readSettingsText
    (path : String)
    (text : List Char) : Except LoadError Tree :=
  match Json.read text with
  | .error e => .error (.malformed path e text)
  | .ok (.obj fs) => .ok fs
  | .ok x => .error (.notAnObject path x.kindName)

/- Read what a settings file holds. -/
def readSettings
    (path : String)
    (found : FileState) : Except LoadError Tree :=
  match found with
  | .missing => .ok []
  | .blocked => .ok []
  | .directory => .error (.directory path)
  | .file bytes =>
      match Utf8.decode bytes with
      | .error e => .error (.undecodable path e)
      | .ok text => readSettingsText path text

/- The path of the settings file, unless another is named. -/
def defaultSettingsPath
    (homes : Homes)
    (named : Option String) : Outcome String :=
  let path := Text.trim (named.getD "")
  if path.isEmpty then
    .ok (Path.normalize (homes.own ++ "/.csslens/settings.json"))
  else Path.withHome homes path

----
-- The store
----

/- Settings with their defaults and their file. -/
structure SettingsStore where
  path : String
  defaults : Tree
  data : Tree
  dirty : Bool
  lastError : Option LoadError

namespace SettingsStore

/- A store that has not been loaded. -/
def new
    (path : String)
    (defaults : Tree) : SettingsStore :=
  { path := Path.normalize path
    defaults := defaults
    data := defaults
    dirty := false
    lastError := none }

/- Take over what was read from the file. -/
def adopt
    (s : SettingsStore)
    (read : Except LoadError Tree) : SettingsStore :=
  match read with
  | .ok fs =>
      { s with
        data := Tree.mergeDefaults fs s.defaults
        lastError := none }
  | .error e =>
      { s with
        data := Tree.mergeDefaults [] s.defaults
        lastError := some e }

/-
  Load the settings from what is found at the path.  When a
  rule fails, the settings stay as far as the rules came.
-/
def load
    (s : SettingsStore)
    (found : FileState) : SettingsStore × Outcome Tree :=
  let s₁ := s.adopt (readSettings s.path found)
  let r := Settings.normalize s₁.defaults s₁.data
  let s₂ := { s₁ with data := r.1 }
  match r.2 with
  | .ok changed => ({ s₂ with dirty := changed }, .ok r.1)
  | .error e => (s₂, .error e)

/- The text of the settings in a file. -/
def savedText
    (s : SettingsStore) : String :=
  Json.savedText (.obj s.data)

/-
  Save the settings at the path.  Gives what is found there
  afterwards.
-/
def save
    (s : SettingsStore)
    (found : FileState) :
    SettingsStore × FileState × Outcome Unit :=
  match found with
  | .directory => (s, found, .error (.notSaved s.path))
  | .blocked => (s, found, .error (.notSaved s.path))
  | _ =>
      ({ s with dirty := false, lastError := none },
        .file (Utf8.ofString s.savedText), .ok ())

/- The value of a key, or a default. -/
def get
    (s : SettingsStore)
    (key : String)
    (default : Json) : Json :=
  Tree.get (.obj s.data) key default

/- Set a key; says whether that changed its value. -/
def set
    (s : SettingsStore)
    (key : String)
    (value : Json) : SettingsStore × Outcome Bool :=
  if (s.get key .null).same value then (s, .ok false)
  else
    match Tree.set s.data key value with
    | .error e => (s, .error e)
    | .ok data =>
        ({ s with data := data, dirty := true }, .ok true)

/- The palette of the overlay. -/
def palette
    (s : SettingsStore) : Outcome (List Json) :=
  Settings.listed (s.get "overlay.palette" .null)

/- The level of the log. -/
def logLevel
    (s : SettingsStore) : String :=
  (s.get "log.level" .null).text

end SettingsStore

end StyleCompanion
