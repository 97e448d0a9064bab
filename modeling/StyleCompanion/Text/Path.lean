import StyleCompanion.Table

/-
  Paths of files and directories.

  A relative path may begin with a tilde, which stands for a
  home, or with a tilde and a name, which stands for the home
  of that user.

  Key definitions include:
    * `splitOnChar`
    * `basename`
    * `absolute`
    * `normalize`
    * `Homes`
    * `Homes.ofAccounts`
    * `expandHome`
-/

namespace StyleCompanion

namespace Path

/- The parts of a text between the occurrences of a character. -/
def splitOnChar
    (sep : Char)
    (cs : List Char) : List (List Char) :=
  match cs with
  | [] => [[]]
  | c :: rest =>
      if c = sep then [] :: splitOnChar sep rest
      else
        match splitOnChar sep rest with
        | [] => [[c]]
        | part :: more => (c :: part) :: more

/- The parts of a path between slashes. -/
def parts
    (path : String) : List (List Char) :=
  splitOnChar '/' path.toList

/- The part of a path after its last slash. -/
def basename
    (path : String) : String :=
  String.ofList ((parts path).getLast?.getD [])

/- The parts that say something: not empty and not a dot. -/
def namedParts
    (path : String) : List (List Char) :=
  (parts path).filter fun p => p != [] && p != ['.']

/-
  The slashes in front: two stay two, any other number is one.
-/
def rootOf
    (path : String) : List Char :=
  match path.toList with
  | '/' :: '/' :: '/' :: _ => ['/']
  | '/' :: '/' :: _ => ['/', '/']
  | '/' :: _ => ['/']
  | _ => []

/- Join parts by slashes behind a root. -/
def join
    (root : List Char)
    (ps : List (List Char)) : String :=
  String.ofList (root ++ ['/'].intercalate ps)

/- Whether a path starts at the root. -/
def isAbsolute
    (path : String) : Bool :=
  !(rootOf path).isEmpty

/- Go up one part for each pair of dots. -/
def resolveDots
    (ps : List (List Char)) : List (List Char) :=
  ps.foldl
    (fun acc p => if p = ['.', '.'] then acc.dropLast
      else acc ++ [p]) []

/- The absolute path of a path seen from a directory. -/
def absolute
    (directory path : String) : String :=
  let full :=
    if isAbsolute path then path
    else directory ++ "/" ++ path
  join (rootOf full) (resolveDots (namedParts full))

/- A path without needless slashes and dots. -/
def normalize
    (path : String) : String :=
  let root := rootOf path
  let ps := namedParts path
  if root.isEmpty && ps.isEmpty then "."
  else join root ps

end Path

----
-- Homes
----

/- The home of the user, and those of users by name. -/
structure Homes where
  own : String
  named : Table String String
  deriving DecidableEq, Repr

namespace Homes

/- The home that a name after a tilde stands for. -/
def find?
    (homes : Homes)
    (name : String) : Option String :=
  if name.isEmpty then some homes.own
  else Table.get? homes.named name

/-
  The user and the home of an account: the first and the sixth
  of its fields between colons.
-/
def ofAccount
    (line : List Char) : Option (String × String) :=
  match Path.splitOnChar ':' line with
  | name :: _ :: _ :: _ :: _ :: home :: _ =>
      some (String.ofList name, String.ofList home)
  | _ => none

/- The homes in a list of accounts, one on each line. -/
def ofAccounts
    (own accounts : String) : Homes :=
  { own := own
    named :=
      (Path.splitOnChar '\n' accounts.toList).filterMap
        ofAccount }

end Homes

namespace Path

/-
  A normalized path with a leading tilde as the home it stands
  for.  There is none if nobody has that home.
-/
def expandHome
    (homes : Homes)
    (path : String) : Option String :=
  match namedParts path with
  | ('~' :: name) :: rest =>
      if isAbsolute path then some (normalize path)
      else
        (homes.find? (String.ofList name)).map fun home =>
          normalize (home ++ "/" ++ join [] rest)
  | _ => some (normalize path)

end Path

end StyleCompanion
