import StyleCompanion.Client.Lifecycle
import StyleCompanion.Settings.Store

/-
  How the application starts.

  The command line names documents and may ask for no backend.
  The settings name the level of the log and the backend.

  Key definitions include:
    * `Arguments`
    * `Arguments.ofList`
    * `LoggingLevel`
    * `loggingLevel`
    * `loggingFormat`
    * `SettingsStore.launch`
-/

namespace StyleCompanion

----
-- Command line
----

/- What the command line asks for. -/
structure Arguments where
  paths : List String
  noServer : Bool
  deriving DecidableEq, Repr

namespace Arguments

/- The argument that asks for no backend. -/
def noServerFlag : String := "--no-server"

/- Tell documents from the flag. -/
def ofList
    (args : List String) : Arguments :=
  { paths := args.filter fun a => a != noServerFlag
    noServer := args.contains noServerFlag }

end Arguments

----
-- Logging
----

/-
  What a name stands for when the level of the log is set.
  Every level has a number.  The name of the basic format
  stands for a text.
-/
inductive LoggingLevel where
  | number (n : Nat)
  | text (s : String)
  deriving DecidableEq, Repr

/- The names that the log knows and what they stand for. -/
def loggingNames : Table String LoggingLevel :=
  [("CRITICAL", .number 50), ("FATAL", .number 50),
    ("ERROR", .number 40), ("WARNING", .number 30),
    ("WARN", .number 30), ("INFO", .number 20),
    ("DEBUG", .number 10), ("NOTSET", .number 0),
    ("BASIC_FORMAT",
      .text "%(levelname)s:%(name)s:%(message)s")]

/- What a name in any case stands for; else the level `INFO`. -/
def loggingLevel
    (name : String) : LoggingLevel :=
  (Table.get? loggingNames (Text.upper name)).getD (.number 20)

/- The form of a line of the log. -/
def loggingFormat : String :=
  "%(asctime)s %(levelname)-7s %(name)s: %(message)s"

----
-- The backend
----

namespace SettingsStore

/- How the settings want the backend launched. -/
def launch
    (s : SettingsStore)
    (cwd : String) : Launch :=
  { program := s.get "server.program" (.str "")
    args :=
      match s.get "server.args" (.arr []) with
      | .arr xs => xs
      | _ => []
    cwd := cwd
    env :=
      match s.get "server.env" (.obj []) with
      | .obj fs => fs
      | _ => []
    trace := .str (s.get "server.trace" (.str "off")).text }

end SettingsStore

end StyleCompanion
