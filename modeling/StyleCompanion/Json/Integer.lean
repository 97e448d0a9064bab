import StyleCompanion.Json.Basic
import StyleCompanion.Text.Digits
import StyleCompanion.Text.Quoted

/-
  Values read as whole numbers.

  Truth values count as zero and one, doubles lose their
  fraction, and texts are read as written integers.

  Key definitions include:
    * `IntegerError`
    * `IntegerError.message`
    * `Json.toInteger`
-/

namespace StyleCompanion

/- Why a value is no whole number. -/
inductive IntegerError where
  | notNumeric (kind : String)
  | badText (s : String)
  | notANumber
  | infinite
  deriving DecidableEq, Repr

namespace IntegerError

/- The wording of the error. -/
def message : IntegerError → String
  | .notNumeric kind =>
      "int() argument must be a string, a bytes-like " ++
        "object or a real number, not '" ++ kind ++ "'"
  | .badText s =>
      "invalid literal for int() with base 10: " ++
        Text.quoted s
  | .notANumber => "cannot convert float NaN to integer"
  | .infinite => "cannot convert float infinity to integer"

end IntegerError

namespace Json

/- Read a value as a whole number. -/
def toInteger : Json → Except IntegerError Int
  | .bool b => .ok (if b then 1 else 0)
  | .int n => .ok n
  | .float (.finite s u) => .ok (Binary64.wholePart s u)
  | .float (.infinite _) => .error .infinite
  | .float .nan => .error .notANumber
  | .str s =>
      match Text.readInteger s with
      | some n => .ok n
      | none => .error (.badText s)
  | x => .error (.notNumeric x.kindName)

end Json

end StyleCompanion
