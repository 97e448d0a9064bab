import StyleCompanion.Json.Basic
import StyleCompanion.Number.Shortest
import StyleCompanion.Text.Quoted

/-
  Values as they are shown in messages.

  Texts inside a value are quoted; a text by itself is shown
  as it is.

  Key definitions include:
    * `Json.display`
    * `Json.text`
-/

namespace StyleCompanion

namespace Json

mutual

/- A value with every text in it quoted. -/
def display : Json → String
  | .null => "None"
  | .bool true => "True"
  | .bool false => "False"
  | .int n => toString n
  | .float x => x.text
  | .str s => Text.quoted s
  | .arr xs => "[" ++ ", ".intercalate (displayItems xs) ++ "]"
  | .obj fs =>
      "\x7b" ++ ", ".intercalate (displayFields fs) ++ "\x7d"

/- The items of a list, shown. -/
def displayItems : List Json → List String
  | [] => []
  | x :: xs => display x :: displayItems xs

/- The fields of an object, shown. -/
def displayFields : List (String × Json) → List String
  | [] => []
  | (k, x) :: rest =>
      (Text.quoted k ++ ": " ++ display x) ::
        displayFields rest

end

/- A value as text: a text is itself, the rest is shown. -/
def text : Json → String
  | .str s => s
  | x => x.display

/- The text of a value, empty when the value is not truthy. -/
def textOrEmpty
    (x : Json) : String :=
  if x.isTruthy then x.text else ""

end Json

end StyleCompanion
