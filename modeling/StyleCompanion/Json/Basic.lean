import StyleCompanion.Number.Binary64
import StyleCompanion.Table

/-
  JSON values.

  Whole numbers of any size and doubles are different kinds
  of value, and the fields of an object keep their order.

  Key definitions include:
    * `Json`
    * `Json.kindName`
    * `Json.isTruthy`
    * `Json.field?`
    * `Json.pick`
    * `Json.agrees`
    * `Json.same`
-/

namespace StyleCompanion

/- A JSON value. -/
inductive Json where
  | null
  | bool (b : Bool)
  | int (n : Int)
  | float (x : Binary64)
  | str (s : String)
  | arr (items : List Json)
  | obj (fields : List (String × Json))
  deriving Inhabited

namespace Json

/- The name of a value's kind, as it is reported. -/
def kindName : Json → String
  | .null => "NoneType"
  | .bool _ => "bool"
  | .int _ => "int"
  | .float _ => "float"
  | .str _ => "str"
  | .arr _ => "list"
  | .obj _ => "dict"

/- Whether a value is present and neither zero nor empty. -/
def isTruthy : Json → Bool
  | .null => false
  | .bool b => b
  | .int n => decide (n ≠ 0)
  | .float x => !x.isZero
  | .str s => !s.isEmpty
  | .arr xs => !xs.isEmpty
  | .obj fs => !fs.isEmpty

/- The second value when the first is not truthy. -/
def orElse
    (x y : Json) : Json :=
  if x.isTruthy then x else y

/- The fields of an object. -/
def fields? : Json → Option (Table String Json)
  | .obj fs => some fs
  | _ => none

/- The value of a field of an object. -/
def field?
    (x : Json)
    (name : String) : Option Json :=
  match x with
  | .obj fs => Table.get? fs name
  | _ => none

/-
  The value under the first of several names that is present,
  or null.  A present null hides the names after it.
-/
def pick
    (fs : Table String Json)
    (names : List String) : Json :=
  match names with
  | [] => .null
  | name :: rest =>
      match Table.get? fs name with
      | some v => v
      | none => pick fs rest

----
-- Equality of values
----

/- A number, whole or double. -/
inductive Numeral where
  | whole (n : Int)
  | double (x : Binary64)

namespace Numeral

/- Whether two numbers are the same number. -/
def same : Numeral → Numeral → Bool
  | .whole m, .whole n => decide (m = n)
  | .whole m, .double y => y.isInt m
  | .double x, .whole n => x.isInt n
  | .double x, .double y => x.sameNumber y

end Numeral

/- The number that a value counts as; truth values do too. -/
def numeral? : Json → Option Numeral
  | .bool b => some (.whole (if b then 1 else 0))
  | .int n => some (.whole n)
  | .float x => some (.double x)
  | _ => none

/- Whether both values count as the same number. -/
def sameNumeral
    (x y : Json) : Bool :=
  match x.numeral?, y.numeral? with
  | some m, some n => m.same n
  | _, _ => false

mutual

/-
  Whether two values agree as parts of a larger value.
  Numbers agree across kinds, a NaN agrees with a NaN, and the
  order of fields does not count.
-/
def agrees : Json → Json → Bool
  | .null, y =>
      match y with
      | .null => true
      | _ => false
  | .str s, y =>
      match y with
      | .str t => decide (s = t)
      | _ => false
  | .arr xs, y =>
      match y with
      | .arr ys => agreeItems xs ys
      | _ => false
  | .obj fs, y =>
      match y with
      | .obj gs =>
          decide (fs.length = gs.length) && agreeFields fs gs
      | _ => false
  | .float .nan, y =>
      match y with
      | .float .nan => true
      | _ => false
  | .bool b, y => sameNumeral (.bool b) y
  | .int n, y => sameNumeral (.int n) y
  | .float x, y => sameNumeral (.float x) y

/- Whether two lists agree item by item. -/
def agreeItems : List Json → List Json → Bool
  | [], [] => true
  | x :: xs, y :: ys => agrees x y && agreeItems xs ys
  | _, _ => false

/- Whether every field agrees with the field of its name. -/
def agreeFields :
    List (String × Json) → List (String × Json) → Bool
  | [], _ => true
  | (k, x) :: rest, gs =>
      (match Table.get? gs k with
        | some y => agrees x y
        | none => false) &&
        agreeFields rest gs

end

/-
  Whether two values are equal.  By itself a NaN is not even
  equal to a NaN.
-/
def same
    (x y : Json) : Bool :=
  match x with
  | .float .nan => false
  | _ => agrees x y

/-
  Whether a value can be a key, and so be looked up: lists and
  objects cannot.
-/
def isKey : Json → Bool
  | .arr _ => false
  | .obj _ => false
  | _ => true

end Json

end StyleCompanion
