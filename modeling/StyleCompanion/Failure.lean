import StyleCompanion.Attribution.Error
import StyleCompanion.Text.Path
import StyleCompanion.Text.Utf8

/-
  The failures that reach whoever called an operation.

  Key definitions include:
    * `Failure`
    * `Failure.message`
    * `Failure.ofDecodeError`
    * `Outcome`
    * `Path.withHome`
-/

namespace StyleCompanion

/- Why an operation failed. -/
inductive Failure where
  | refused (cause : Attribution.PayloadError)
  | integer (cause : IntegerError)
  | paletteSize (found : Json)
  | emptyKey
  | notAKey (kind : String)
  | notAList (kind : String)
  | missingObject
  | undecodable (cause : Utf8.DecodeError)
  | notSaved (path : String)
  | unknownHome (path : String)
  | reported (text : String)

namespace Failure

/- The wording of a failure. -/
def message : Failure → String
  | .refused cause => cause.message
  | .integer cause => cause.message
  | .paletteSize found =>
      "palette_size must be positive, got " ++ found.display
  | .emptyKey => "Key cannot be empty."
  | .notAKey kind => "a value of kind " ++ kind ++
      " cannot be looked up"
  | .notAList kind => "a value of kind " ++ kind ++
      " has no items"
  | .missingObject => "what is asked for is not there"
  | .undecodable cause => cause.message
  | .notSaved path =>
      "Could not write settings file '" ++ path ++ "'"
  | .unknownHome _ => "Could not determine home directory."
  | .reported text => text

/- A failed decoding as a failure. -/
def ofDecodeError : Attribution.DecodeError → Failure
  | .refused cause => .refused cause
  | .infinite => .integer .infinite

end Failure

/- An operation gives a value or a failure. -/
abbrev Outcome (α : Type) :=
  Except Failure α

namespace Path

/- Expand the home in front of a path, or fail. -/
def withHome
    (homes : Homes)
    (path : String) : Outcome String :=
  match expandHome homes path with
  | some expanded => .ok expanded
  | none => .error (.unknownHome path)

end Path

namespace Json

/- Read a value as a whole number, or fail. -/
def integer
    (x : Json) : Outcome Int :=
  match x.toInteger with
  | .ok n => .ok n
  | .error e => .error (.integer e)

/-
  The whole number that a value equals, for a look-up by id.
  A value that cannot be a key fails.
-/
def wholeKey
    (x : Json) : Outcome (Option Int) :=
  match x with
  | .arr _ => .error (.notAKey x.kindName)
  | .obj _ => .error (.notAKey x.kindName)
  | .bool b => .ok (some (if b then 1 else 0))
  | .int n => .ok (some n)
  | .float (.finite s u) =>
      if u % Binary64.one = 0 then
        .ok (some (Binary64.wholePart s u))
      else .ok none
  | _ => .ok none

end Json

end StyleCompanion
