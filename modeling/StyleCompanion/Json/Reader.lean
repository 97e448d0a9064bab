import StyleCompanion.Json.Basic

/-
  Reading JSON text.

  Besides standard JSON the reader takes `NaN`, `Infinity` and
  `-Infinity`.  Of fields with one name the last value counts,
  at the place of the first.  A number with neither point nor
  exponent is a whole number.  An escaped surrogate without
  its partner names no character and is read as U+FFFD.

  Errors say what was expected and how many characters were
  left unread, which gives their line and column.

  Key definitions include:
    * `ReadError`
    * `ReadError.describe`
    * `Json.readValue`
    * `Json.read`
-/

namespace StyleCompanion

----
-- Errors
----

/- What is wrong with a text. -/
inductive ReadFault where
  | value
  | extraData
  | fieldName
  | colon
  | comma
  | unterminated
  | controlCharacter
  | escape
  | unicodeEscape
  | byteOrderMark
  deriving DecidableEq, Repr

namespace ReadFault

/- The wording of a fault. -/
def message : ReadFault → String
  | .value => "Expecting value"
  | .extraData => "Extra data"
  | .fieldName =>
      "Expecting property name enclosed in double quotes"
  | .colon => "Expecting ':' delimiter"
  | .comma => "Expecting ',' delimiter"
  | .unterminated => "Unterminated string starting at"
  | .controlCharacter => "Invalid control character at"
  | .escape => "Invalid \\escape"
  | .unicodeEscape => "Invalid \\uXXXX escape"
  | .byteOrderMark =>
      "Unexpected UTF-8 BOM (decode using utf-8-sig)"

end ReadFault

/- A fault with the number of characters from it to the end. -/
structure ReadError where
  fault : ReadFault
  remaining : Nat
  deriving DecidableEq, Repr

namespace ReadError

/- The characters of the last line. -/
def lastLine
    (cs : List Char) : List Char :=
  (cs.reverse.takeWhile (· != '\n')).reverse

/- The error in a text, with line, column and position. -/
def describe
    (e : ReadError)
    (doc : List Char) : String :=
  let pos := doc.length - e.remaining
  let before := doc.take pos
  let line := before.count '\n' + 1
  let column := (lastLine before).length + 1
  e.fault.message ++ ": line " ++ toString line ++
    " column " ++ toString column ++
    " (char " ++ toString pos ++ ")"

end ReadError

namespace Json

----
-- Blanks and texts
----

/- Whether a character may stand between tokens. -/
def isSpace
    (c : Char) : Bool :=
  c == ' ' || c == '\t' || c == '\n' || c == '\r'

/- Skip the blanks in front. -/
def skipSpace
    (cs : List Char) : List Char :=
  cs.dropWhile isSpace

/- The character of a one-letter escape. -/
def letterEscape
    (c : Char) : Option Char :=
  if c = '"' || c = '\\' || c = '/' then some c
  else if c = 'b' then some (Char.ofNat 0x08)
  else if c = 'f' then some (Char.ofNat 0x0C)
  else if c = 'n' then some '\n'
  else if c = 'r' then some '\r'
  else if c = 't' then some '\t'
  else none

/- The value of a hexadecimal digit. -/
def hexValue
    (c : Char) : Option Nat :=
  if decide ('0' ≤ c) && decide (c ≤ '9') then
    some (c.toNat - 48)
  else if decide ('a' ≤ c) && decide (c ≤ 'f') then
    some (c.toNat - 87)
  else if decide ('A' ≤ c) && decide (c ≤ 'F') then
    some (c.toNat - 55)
  else none

/- The value of four hexadecimal digits. -/
def hexFour
    (a b c d : Char) : Option Nat :=
  match hexValue a, hexValue b, hexValue c, hexValue d with
  | some w, some x, some y, some z =>
      some (((w * 16 + x) * 16 + y) * 16 + z)
  | _, _, _, _ => none

/- Whether a number is the first half of a pair. -/
def isHighSurrogate
    (n : Nat) : Bool :=
  decide (0xD800 ≤ n) && decide (n ≤ 0xDBFF)

/- Whether a number is the second half of a pair. -/
def isLowSurrogate
    (n : Nat) : Bool :=
  decide (0xDC00 ≤ n) && decide (n ≤ 0xDFFF)

/- The character of a number; half a pair is none. -/
def unitChar
    (n : Nat) : Char :=
  if isHighSurrogate n || isLowSurrogate n then
    Char.ofNat 0xFFFD
  else Char.ofNat n

/- The character of a pair. -/
def pairChar
    (high low : Nat) : Char :=
  Char.ofNat
    (0x10000 + (high - 0xD800) * 0x400 + (low - 0xDC00))

/- Put a character in front of what is read after it. -/
def consChar
    (c : Char)
    (r : Except ReadError (List Char × List Char)) :
    Except ReadError (List Char × List Char) :=
  match r with
  | .ok (cs, rest) => .ok (c :: cs, rest)
  | .error e => .error e

/-
  The character of a numbered escape, from the four digits
  after its letter on, with the number of characters up to the
  next one.  The digits need a character after them, and so do
  the digits of the second half of a pair.
-/
def numberedEscape
    (cs : List Char) :
    Except ReadError (Char × Nat) :=
  match cs with
  | a :: b :: c :: d :: e :: rest =>
      match hexFour a b c d with
      | none => .error ⟨.unicodeEscape, cs.length + 1⟩
      | some n =>
          if isHighSurrogate n then
            match e :: rest with
            | '\\' :: 'u' :: a₂ :: b₂ :: c₂ :: d₂ :: _ :: _ =>
                match hexFour a₂ b₂ c₂ d₂ with
                | none => .error ⟨.unicodeEscape, rest.length⟩
                | some m =>
                    if isLowSurrogate m then
                      .ok (pairChar n m, 11)
                    else .ok (unitChar n, 5)
            | _ => .ok (unitChar n, 5)
          else .ok (unitChar n, 5)
  | _ => .error ⟨.unicodeEscape, cs.length + 1⟩

/-
  The character of an escape, from the character after the
  backslash on, with the number of characters it takes.
-/
def readEscape
    (opening : Nat)
    (cs : List Char) :
    Except ReadError (Char × Nat) :=
  match cs with
  | [] => .error ⟨.unterminated, opening⟩
  | 'u' :: rest => numberedEscape rest
  | c :: rest =>
      match letterEscape c with
      | some x => .ok (x, 1)
      | none => .error ⟨.escape, rest.length + 2⟩

/-
  Read a text after its opening quote, which stands a given
  number of characters before the end, skipping the characters
  of an escape that was read already.
-/
def readTextAfter
    (opening skip : Nat)
    (cs : List Char) :
    Except ReadError (List Char × List Char) :=
  match cs, skip with
  | [], _ => .error ⟨.unterminated, opening⟩
  | _ :: rest, k + 1 => readTextAfter opening k rest
  | c :: rest, 0 =>
      if c = '"' then .ok ([], rest)
      else if c = '\\' then
        match readEscape opening rest with
        | .ok (x, used) =>
            consChar x (readTextAfter opening used rest)
        | .error e => .error e
      else if c.toNat < 0x20 then
        .error ⟨.controlCharacter, rest.length + 1⟩
      else consChar c (readTextAfter opening 0 rest)

/- Read a text after its opening quote. -/
def readText
    (cs : List Char) :
    Except ReadError (List Char × List Char) :=
  readTextAfter (cs.length + 1) 0 cs

----
-- Numbers
----

/- The whole number of ASCII digits. -/
def digitsValue
    (ds : List Char) : Nat :=
  Nat.ofDigitChars 10 ds 0

/- A fraction: a point and at least one digit. -/
def readFraction
    (cs : List Char) : List Char × List Char :=
  match cs with
  | '.' :: rest =>
      let ds := rest.takeWhile Char.isDigit
      if ds.isEmpty then ([], cs)
      else (ds, rest.dropWhile Char.isDigit)
  | _ => ([], cs)

/- The digits of an exponent after its sign. -/
def exponentDigits
    (negative : Bool)
    (cs : List Char) : Option (Int × List Char) :=
  let ds := cs.takeWhile Char.isDigit
  if ds.isEmpty then none
  else
    let n : Int := (digitsValue ds : Nat)
    some (if negative then -n else n,
      cs.dropWhile Char.isDigit)

/- An exponent: a mark, maybe a sign, at least one digit. -/
def readExponent
    (cs : List Char) : Option (Int × List Char) :=
  match cs with
  | c :: rest =>
      if c = 'e' || c = 'E' then
        match rest with
        | '-' :: ds => exponentDigits true ds
        | '+' :: ds => exponentDigits false ds
        | ds => exponentDigits false ds
      else none
  | [] => none

/- The digits in front of a number: no zero leads others. -/
def readWhole
    (cs : List Char) : Option (List Char × List Char) :=
  match cs with
  | '0' :: rest => some (['0'], rest)
  | c :: rest =>
      if c.isDigit then
        some (c :: rest.takeWhile Char.isDigit,
          rest.dropWhile Char.isDigit)
      else none
  | [] => none

/- A number without its sign. -/
def readUnsigned
    (negative : Bool)
    (cs : List Char) : Option (Json × List Char) :=
  match readWhole cs with
  | none => none
  | some (whole, rest) =>
      let (fraction, rest₁) := readFraction rest
      let digits := digitsValue (whole ++ fraction)
      let shift : Int := -(fraction.length : Int)
      match readExponent rest₁ with
      | some (e, rest₂) =>
          some (.float
            (Binary64.ofDecimal negative digits (shift + e)),
            rest₂)
      | none =>
          if fraction.isEmpty then
            let n : Int := (digits : Nat)
            some (.int (if negative then -n else n), rest₁)
          else
            some (.float
              (Binary64.ofDecimal negative digits shift),
              rest₁)

/- A number. -/
def readNumber
    (cs : List Char) : Option (Json × List Char) :=
  match cs with
  | '-' :: rest => readUnsigned true rest
  | rest => readUnsigned false rest

/- The rest of a text after a word. -/
def afterWord
    (word cs : List Char) : Option (List Char) :=
  if word.isPrefixOf cs then some (cs.drop word.length)
  else none

/- The named values. -/
def namedValues : List (List Char × Json) :=
  [("null".toList, .null),
    ("true".toList, .bool true),
    ("false".toList, .bool false),
    ("NaN".toList, .float .nan),
    ("Infinity".toList, .float (.infinite false)),
    ("-Infinity".toList, .float (.infinite true))]

/- A named value. -/
def readNamed
    (cs : List Char) : Option (Json × List Char) :=
  namedValues.findSome? fun p =>
    (afterWord p.1 cs).map fun rest => (p.2, rest)

/- A value that is neither text, list nor object. -/
def readAtom
    (cs : List Char) :
    Except ReadError (Json × List Char) :=
  match readNamed cs with
  | some r => .ok r
  | none =>
      match readNumber cs with
      | some r => .ok r
      | none => .error ⟨.value, cs.length⟩

----
-- Values
----

mutual

/-
  Read a value.  Every step into a value, an item or a field
  uses up one unit of fuel, and a text never has more of these
  than characters.
-/
def readValue
    (fuel : Nat)
    (cs : List Char) :
    Except ReadError (Json × List Char) :=
  match fuel with
  | 0 => .error ⟨.value, cs.length⟩
  | n + 1 =>
      match cs with
      | '"' :: rest =>
          match readText rest with
          | .ok (s, after) => .ok (.str (String.ofList s), after)
          | .error e => .error e
      | '[' :: rest =>
          match skipSpace rest with
          | ']' :: after => .ok (.arr [], after)
          | inner =>
              match readItems n inner with
              | .ok (xs, after) => .ok (.arr xs, after)
              | .error e => .error e
      | '{' :: rest =>
          match skipSpace rest with
          | '}' :: after => .ok (.obj [], after)
          | inner =>
              match readFields n [] inner with
              | .ok (fs, after) => .ok (.obj fs, after)
              | .error e => .error e
      | _ => readAtom cs

/- Read the items of a list up to its closing bracket. -/
def readItems
    (fuel : Nat)
    (cs : List Char) :
    Except ReadError (List Json × List Char) :=
  match fuel with
  | 0 => .error ⟨.value, cs.length⟩
  | n + 1 =>
      match readValue n cs with
      | .error e => .error e
      | .ok (x, after) =>
          match skipSpace after with
          | ']' :: rest => .ok ([x], rest)
          | ',' :: rest =>
              match readItems n (skipSpace rest) with
              | .ok (xs, last) => .ok (x :: xs, last)
              | .error e => .error e
          | other => .error ⟨.comma, other.length⟩

/-
  Read the fields of an object up to its closing brace, after
  the fields read so far.
-/
def readFields
    (fuel : Nat)
    (acc : Table String Json)
    (cs : List Char) :
    Except ReadError (Table String Json × List Char) :=
  match fuel with
  | 0 => .error ⟨.fieldName, cs.length⟩
  | n + 1 =>
      match cs with
      | '"' :: rest =>
          match readText rest with
          | .error e => .error e
          | .ok (name, after) =>
              match skipSpace after with
              | ':' :: rest₁ =>
                  match readValue n (skipSpace rest₁) with
                  | .error e => .error e
                  | .ok (x, after₁) =>
                      let acc₁ :=
                        Table.insert acc (String.ofList name) x
                      match skipSpace after₁ with
                      | '}' :: rest₂ => .ok (acc₁, rest₂)
                      | ',' :: rest₂ =>
                          readFields n acc₁ (skipSpace rest₂)
                      | other => .error ⟨.comma, other.length⟩
              | other => .error ⟨.colon, other.length⟩
      | other => .error ⟨.fieldName, other.length⟩

end

/- Read a text that holds one value and nothing else. -/
def read
    (cs : List Char) : Except ReadError Json :=
  if cs.head? = some (Char.ofNat 0xFEFF) then
    .error ⟨.byteOrderMark, cs.length⟩
  else
    match readValue (2 * cs.length + 2) (skipSpace cs) with
    | .error e => .error e
    | .ok (x, after) =>
        match skipSpace after with
        | [] => .ok x
        | rest => .error ⟨.extraData, rest.length⟩

end Json

end StyleCompanion
