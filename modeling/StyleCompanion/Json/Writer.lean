import StyleCompanion.Json.Basic
import StyleCompanion.Number.Shortest
import StyleCompanion.Text.Quoted

/-
  JSON text.

  The compact layout has no blanks and leaves every character
  outside ASCII as it is.  The saved layout puts every item
  on a line of its own, two blanks deeper than the value that
  holds it, sorts fields by name and writes ASCII only.

  Key definitions include:
    * `Json.compact`
    * `Json.saved`
-/

namespace StyleCompanion

namespace Json

----
-- Atoms
----

/- An escape by a four-digit number. -/
def unicodeEscape
    (n : Nat) : List Char :=
  '\\' :: 'u' :: Text.hexDigits 4 n

/- The short escapes. -/
def shortEscape
    (c : Char) : Option (List Char) :=
  if c = '"' then some ['\\', '"']
  else if c = '\\' then some ['\\', '\\']
  else if c = '\n' then some ['\\', 'n']
  else if c = '\r' then some ['\\', 'r']
  else if c = '\t' then some ['\\', 't']
  else if c.toNat = 0x0C then some ['\\', 'f']
  else if c.toNat = 0x08 then some ['\\', 'b']
  else none

/- One character of a text in the compact layout. -/
def compactChar
    (c : Char) : List Char :=
  match shortEscape c with
  | some cs => cs
  | none =>
      if c.toNat < 0x20 then unicodeEscape c.toNat else [c]

/- One character of a text in the saved layout. -/
def savedChar
    (c : Char) : List Char :=
  match shortEscape c with
  | some cs => cs
  | none =>
      let n := c.toNat
      if 0x20 ≤ n ∧ n ≤ 0x7E then [c]
      else if n < 0x10000 then unicodeEscape n
      else
        unicodeEscape (0xD800 + (n - 0x10000) / 0x400) ++
          unicodeEscape (0xDC00 + (n - 0x10000) % 0x400)

/- A text between double quotes. -/
def quoteWith
    (char : Char → List Char)
    (s : String) : List Char :=
  '"' :: s.toList.flatMap char ++ ['"']

/- The digits of a whole number with its sign. -/
def integerChars
    (n : Int) : List Char :=
  if n < 0 then '-' :: Nat.toDigits 10 n.natAbs
  else Nat.toDigits 10 n.natAbs

/- A double; the special values have names of their own. -/
def floatChars : Binary64 → List Char
  | .nan => ['N', 'a', 'N']
  | .infinite false => "Infinity".toList
  | .infinite true => "-Infinity".toList
  | x => x.text.toList

----
-- Compact layout
----

mutual

/- The compact layout of a value. -/
def compact : Json → List Char
  | .null => ['n', 'u', 'l', 'l']
  | .bool true => ['t', 'r', 'u', 'e']
  | .bool false => ['f', 'a', 'l', 's', 'e']
  | .int n => integerChars n
  | .float x => floatChars x
  | .str s => quoteWith compactChar s
  | .arr [] => ['[', ']']
  | .arr (x :: xs) => '[' :: compact x ++ compactItems xs
  | .obj [] => ['{', '}']
  | .obj ((k, x) :: fs) =>
      '{' :: quoteWith compactChar k ++
        ':' :: compact x ++ compactFields fs

/- The items after the first, and the closing bracket. -/
def compactItems : List Json → List Char
  | [] => [']']
  | x :: xs => ',' :: compact x ++ compactItems xs

/- The fields after the first, and the closing brace. -/
def compactFields : List (String × Json) → List Char
  | [] => ['}']
  | (k, x) :: fs =>
      ',' :: quoteWith compactChar k ++
        ':' :: compact x ++ compactFields fs

end

/- The compact layout as a string. -/
def compactText
    (x : Json) : String :=
  String.ofList (compact x)

----
-- Saved layout
----

/- A line break and the blanks of a depth. -/
def lineBreak
    (depth : Nat) : List Char :=
  '\n' :: List.replicate (2 * depth) ' '

/- Put parts on lines of their own between brackets. -/
def layBlock
    (opening closing : Char)
    (depth : Nat)
    (parts : List (List Char)) : List Char :=
  match parts with
  | [] => [opening, closing]
  | part :: rest =>
      opening :: lineBreak (depth + 1) ++ part ++
        rest.flatMap
          (fun p => ',' :: lineBreak (depth + 1) ++ p) ++
        lineBreak depth ++ [closing]

/- Sort named parts by name. -/
def sortByName
    (parts : List (String × List Char)) :
    List (String × List Char) :=
  parts.mergeSort fun a b => decide (a.1 ≤ b.1)

mutual

/- The saved layout of a value at a depth. -/
def saved
    (depth : Nat) : Json → List Char
  | .null => ['n', 'u', 'l', 'l']
  | .bool true => ['t', 'r', 'u', 'e']
  | .bool false => ['f', 'a', 'l', 's', 'e']
  | .int n => integerChars n
  | .float x => floatChars x
  | .str s => quoteWith savedChar s
  | .arr xs => layBlock '[' ']' depth (savedItems depth xs)
  | .obj fs =>
      layBlock '{' '}' depth
        ((sortByName (savedFields depth fs)).map
          fun p =>
            quoteWith savedChar p.1 ++ ':' :: ' ' :: p.2)

/- The items of a list at the next depth. -/
def savedItems
    (depth : Nat) : List Json → List (List Char)
  | [] => []
  | x :: xs => saved (depth + 1) x :: savedItems depth xs

/- The values of the fields at the next depth, named. -/
def savedFields
    (depth : Nat) :
    List (String × Json) → List (String × List Char)
  | [] => []
  | (k, x) :: fs =>
      (k, saved (depth + 1) x) :: savedFields depth fs

end

/- The saved layout as a string. -/
def savedText
    (x : Json) : String :=
  String.ofList (saved 0 x)

end Json

end StyleCompanion
