import StyleCompanion.Failure
import StyleCompanion.Text.Path
import StyleCompanion.Text.Quoted

/-
  Files as the application sees them.

  A disk is a table of files by absolute path.  A directory
  exists when a file lies below it; the current directory
  exists always.

  Key definitions include:
    * `Disk`
    * `DiskFault`
    * `Disk.readText`
    * `Disk.isFile`
    * `Disk.isDirectory`
    * `pathOfUri`
    * `uriOfFile`
    * `tabLabel`
-/

namespace StyleCompanion

/- Files by path, and the current directory. -/
structure Disk where
  files : Table String (List UInt8)
  current : String

/- Why a file could not be opened. -/
inductive DiskFault where
  | missing (path : String)
  | directory (path : String)
  deriving DecidableEq, Repr

namespace DiskFault

/- The wording of a fault. -/
def message : DiskFault → String
  | .missing path =>
      "[Errno 2] No such file or directory: " ++
        Text.quoted path
  | .directory path =>
      "[Errno 21] Is a directory: " ++ Text.quoted path

end DiskFault

/- What reading a text file comes to. -/
inductive ReadText where
  | text (content : String)
  | fault (cause : DiskFault)
  | undecodable (cause : Utf8.DecodeError)

namespace Disk

/- Whether a path names a file. -/
def isFile
    (d : Disk)
    (path : String) : Bool :=
  Table.contains d.files path

/- A path without the slashes at its end. -/
def withoutTrailingSlashes
    (path : String) : List Char :=
  Text.dropEndWhile (fun c => c == '/') path.toList

/- Whether a path names a directory. -/
def isDirectory
    (d : Disk)
    (path : String) : Bool :=
  let dir := withoutTrailingSlashes path
  dir.isEmpty || dir == d.current.toList ||
    (Table.keys d.files).any fun name =>
      (dir ++ ['/']).isPrefixOf name.toList

/- Line ends of any kind as newlines. -/
def unifyNewlines
    (cs : List Char) : List Char :=
  match cs with
  | [] => []
  | '\r' :: '\n' :: rest => '\n' :: unifyNewlines rest
  | '\r' :: rest => '\n' :: unifyNewlines rest
  | c :: rest => c :: unifyNewlines rest

/- Read a text file. -/
def readText
    (d : Disk)
    (path : String) : ReadText :=
  match Table.get? d.files path with
  | some bytes =>
      match Utf8.decode bytes with
      | .ok cs => .text (String.ofList (unifyNewlines cs))
      | .error e => .undecodable e
  | none =>
      if !path.isEmpty && d.isDirectory path then
        .fault (.directory path)
      else .fault (.missing path)

/- Put a file on the disk. -/
def write
    (d : Disk)
    (path : String)
    (bytes : List UInt8) : Disk :=
  { d with files := Table.insert d.files path bytes }

/- Take a file off the disk. -/
def remove
    (d : Disk)
    (path : String) : Disk :=
  { d with files := Table.erase d.files path }

end Disk

----
-- Uris of files
----

/- The path of a uri; a uri of no file is its own path. -/
def pathOfUri
    (uri : String) : String :=
  match uri.toList with
  | 'f' :: 'i' :: 'l' :: 'e' :: ':' :: '/' :: '/' :: rest =>
      String.ofList rest
  | _ => uri

/- The name of a document on its tab. -/
def tabLabel
    (uri : String) : String :=
  let name := Path.basename (pathOfUri uri)
  if name.isEmpty then uri else name

/- The uri of a path seen from a directory. -/
def uriOfFile
    (directory path : String) : String :=
  "file://" ++ Path.absolute directory path

end StyleCompanion
