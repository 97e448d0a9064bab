import StyleCompanion.Json.Display
import StyleCompanion.Json.Integer

/-
  What can be wrong with an attribution payload.

  Each cause has its own constructor, and the wording of all
  of them stands in one place.  A number that is too large to
  be a whole number at all, an infinity, is not reported as a
  bad payload: it is an error of its own.

  Key definitions include:
    * `PayloadError`
    * `PayloadError.message`
    * `DecodeError`
-/

namespace StyleCompanion

namespace Attribution

/- The method of the request that shows a companion. -/
def showMethod : String :=
  "bhc/ShowDocumentRequest"

/- The four kinds of entries of a payload. -/
inductive EntryKind where
  | source
  | declaration
  | rule
  | line
  deriving DecidableEq, Repr

namespace EntryKind

/- The name of a kind of entry. -/
def label : EntryKind → String
  | .source => "Source"
  | .declaration => "Declaration"
  | .rule => "Rule"
  | .line => "Line"

end EntryKind

/- A field with a number or a truth value. -/
inductive Field where
  | sourceId
  | declarationOwner (name : String)
  | declarationLine (name : String)
  | declarationOverwritten (name : String)
  | ruleOwner (selector : String)
  | lineNumber
  | lineOwner (index : Nat)
  deriving DecidableEq, Repr

namespace Field

/- The name of a field in messages. -/
def label : Field → String
  | .sourceId => "Source id"
  | .declarationOwner name =>
      "Declaration '" ++ name ++ "' owner"
  | .declarationLine name =>
      "Declaration '" ++ name ++ "' line"
  | .declarationOverwritten name =>
      "Declaration '" ++ name ++ "' overwritten flag"
  | .ruleOwner selector => "Rule '" ++ selector ++ "' owner"
  | .lineNumber => "Line number"
  | .lineOwner index => "Line " ++ toString index ++ " owner"

end Field

/- Why a payload is refused. -/
inductive PayloadError where
  | notAnObject (kind : String)
  | notAList (name : String) (kind : String)
  | entryNotAnObject (entry : EntryKind) (kind : String)
  | truthValueAsInteger (field : Field)
  | notAnInteger (field : Field) (found : Json)
  | notATruthValue (field : Field) (found : Json)
  | sourceWithoutId
  | declarationWithoutName
  | valuesNotAList (name : String)
  | declarationsNotAList (selector : String)
  | duplicateSource (id : Int) (first second : String)
  | unregisteredOwner (id : Int)
  | paramsNotAnObject
  | missingUri
  | missingFile (uri : String)
  | reported (text : String)

namespace PayloadError

/- The wording of a refusal. -/
def message : PayloadError → String
  | .notAnObject kind =>
      "Attribution payload must be an object, found " ++ kind
  | .notAList name kind =>
      "'" ++ name ++ "' must be a list, found " ++ kind
  | .entryNotAnObject entry kind =>
      entry.label ++ " entry must be an object, found " ++
        kind
  | .truthValueAsInteger field =>
      field.label ++ " must be an integer, found bool"
  | .notAnInteger field found =>
      field.label ++ " must be an integer, found " ++
        found.display
  | .notATruthValue field found =>
      field.label ++ " must be a boolean, found " ++
        found.display
  | .sourceWithoutId => "Source entry is missing 'id'"
  | .declarationWithoutName =>
      "Declaration entry is missing a property name"
  | .valuesNotAList name =>
      "Declaration '" ++ name ++ "' values must be a list"
  | .declarationsNotAList selector =>
      "Rule '" ++ selector ++ "' declarations must be a list"
  | .duplicateSource id first second =>
      "Duplicate source id " ++ toString id ++ ": " ++
        Text.quoted first ++ " / " ++ Text.quoted second
  | .unregisteredOwner id =>
      "Owner id " ++ toString id ++
        " is not a registered source"
  | .paramsNotAnObject =>
      showMethod ++ " params must be an object"
  | .missingUri =>
      showMethod ++ " is missing the companion uri"
  | .missingFile uri =>
      showMethod ++ " for " ++ uri ++ " carries no 'file'"
  | .reported text => text

end PayloadError

/- Why decoding fails: a refusal, or an infinite number. -/
inductive DecodeError where
  | refused (cause : PayloadError)
  | infinite

namespace DecodeError

/- The wording of a failed decoding. -/
def message : DecodeError → String
  | .refused cause => cause.message
  | .infinite => IntegerError.message .infinite

end DecodeError

end Attribution

end StyleCompanion
