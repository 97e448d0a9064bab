import StyleCompanion.Failure
import StyleCompanion.Text.Path

/-
  Trees of settings.

  Settings are nested objects.  A key written with dots names
  a path through them.  Reading a path that does not exist
  gives a default.  Writing a path makes the objects on the
  way, in place of anything there that is not an object.

  Key definitions include:
    * `Tree`
    * `Tree.keyPath`
    * `Tree.lookup`
    * `Tree.assign`
    * `Tree.mergeDefaults`
-/

namespace StyleCompanion

/- Settings by name. -/
abbrev Tree :=
  Table String Json

namespace Tree

----
-- Paths
----

/- The path of a key; the empty key has the empty path. -/
def keyPath
    (key : String) : List String :=
  if key.isEmpty then []
  else (Path.splitOnChar '.' key.toList).map String.ofList

/- The value at a path. -/
def lookup
    (x : Json)
    (path : List String) : Option Json :=
  match path with
  | [] => some x
  | part :: rest =>
      match x.field? part with
      | none => none
      | some y => lookup y rest

/- The fields under a name, if an object stands there. -/
def childAt
    (t : Tree)
    (part : String) : Tree :=
  match Table.get? t part with
  | some (.obj fs) => fs
  | _ => []

/- Put a value at a path.  The empty path changes nothing. -/
def assign
    (t : Tree)
    (path : List String)
    (value : Json) : Tree :=
  match path with
  | [] => t
  | [leaf] => Table.insert t leaf value
  | part :: rest =>
      Table.insert t part
        (.obj (assign (childAt t part) rest value))

----
-- Keys with dots
----

/- The value of a key, or a default. -/
def get
    (x : Json)
    (key : String)
    (default : Json) : Json :=
  (lookup x (keyPath key)).getD default

/- Set the value of a key.  The empty key is refused. -/
def set
    (t : Tree)
    (key : String)
    (value : Json) : Outcome Tree :=
  if key.isEmpty then .error .emptyKey
  else .ok (assign t (keyPath key) value)

----
-- Defaults
----

mutual

/- Fill a value up: only objects take from an object. -/
def mergeValue : Json → Json → Json
  | .obj ds, x =>
      match x with
      | .obj fs => .obj (mergeFields ds fs)
      | x => x
  | _, x => x

/- Fill fields up with defaults, one after the other. -/
def mergeFields : List (String × Json) → Tree → Tree
  | [], t => t
  | (k, d) :: rest, t =>
      match Table.get? t k with
      | none => mergeFields rest (Table.insert t k d)
      | some x =>
          mergeFields rest (Table.insert t k (mergeValue d x))

end

/-
  Fill in what settings lack from defaults.  What is there
  wins.
-/
def mergeDefaults
    (data defaults : Tree) : Tree :=
  mergeFields defaults data

end Tree

end StyleCompanion
