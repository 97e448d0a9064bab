import StyleCompanion.Json.Reader
import StyleCompanion.Json.Writer
import StyleCompanion.Text.Digits
import StyleCompanion.Text.Letters
import StyleCompanion.Text.Utf8

/-
  Messages on a byte stream.

  A frame is a header block, an empty line, and a body of as
  many bytes as the header says.  The body is the UTF-8 text
  of a JSON object.

  Key definitions include:
    * `headerEnd`
    * `splitHeader`
    * `contentLength`
    * `readBody`
    * `encodeChars`
    * `encode`
-/

namespace StyleCompanion

namespace Rpc

----
-- Headers
----

/- The bytes that end a header block: two line breaks. -/
def headerEnd : List UInt8 := [13, 10, 13, 10]

/-
  Cut bytes at the first end of a header block, into what
  stands before it and what stands after it.
-/
def splitHeader
    (bs : List UInt8) :
    Option (List UInt8 × List UInt8) :=
  match bs with
  | [] => none
  | b :: rest =>
      if headerEnd.isPrefixOf (b :: rest) then
        some ([], (b :: rest).drop headerEnd.length)
      else
        (splitHeader rest).map fun p => (b :: p.1, p.2)

/- Cut text at every line break of two characters. -/
def splitLines
    (cs : List Char) : List (List Char) :=
  match cs with
  | [] => [[]]
  | '\r' :: '\n' :: rest => [] :: splitLines rest
  | c :: rest =>
      match splitLines rest with
      | [] => [[c]]
      | line :: more => (c :: line) :: more

/- Cut a line at its first colon. -/
def splitColon
    (cs : List Char) : Option (List Char × List Char) :=
  match cs with
  | [] => none
  | c :: rest =>
      if c = ':' then some ([], rest)
      else (splitColon rest).map fun p => (c :: p.1, p.2)

/- The name of the field with the length, in lower case. -/
def lengthName : List Char :=
  "content-length".toList

/- The value of a line, if it is the line with the length. -/
def lengthField
    (line : List Char) : Option (List Char) :=
  match splitColon line with
  | none => none
  | some (name, value) =>
      if (Text.trimChars name).map Text.lowerChar = lengthName
      then some (Text.trimChars value)
      else none

/- Read a length, which is not negative. -/
def readLength
    (cs : List Char) : Option Nat :=
  match Text.readInteger (String.ofList cs) with
  | some (.ofNat n) => some n
  | _ => none

/-
  The length that a header block gives.  The first line with
  a length decides, and bytes outside ASCII do not count.
-/
def contentLength
    (header : List UInt8) : Option Nat :=
  match (splitLines (Utf8.asciiOnly header)).findSome?
      lengthField with
  | some value => readLength value
  | none => none

----
-- Bodies
----

/- Why a frame is dropped. -/
inductive FrameFault where
  | malformedHeader (header : List UInt8)
  | undecodable (reason : String)
  | notAnObject (kind : String)
  deriving DecidableEq, Repr

namespace FrameFault

/- The wording of a fault, with a gap for the detail. -/
def template : FrameFault → String
  | .malformedHeader _ =>
      "Dropping frame with malformed header: %r"
  | .undecodable _ => "Dropping undecodable frame: %s"
  | .notAnObject _ => "Dropping non-object frame of type %s"

/- The wording of a fault. -/
def message : FrameFault → String
  | .malformedHeader header =>
      "Dropping frame with malformed header: " ++
        Text.quotedBytes (header.take 80)
  | .undecodable reason =>
      "Dropping undecodable frame: " ++ reason
  | .notAnObject kind =>
      "Dropping non-object frame of type " ++ kind

end FrameFault

/- What a frame brings: a message, or a fault. -/
inductive Delivery where
  | message (fields : Table String Json)
  | dropped (fault : FrameFault)

/- Read the body of a frame. -/
def readBody
    (body : List UInt8) : Delivery :=
  match Utf8.decode body with
  | .error e => .dropped (.undecodable e.message)
  | .ok cs =>
      match Json.read cs with
      | .error e => .dropped (.undecodable (e.describe cs))
      | .ok (.obj fs) => .message fs
      | .ok x => .dropped (.notAnObject x.kindName)

----
-- Writing frames
----

/- The header of a body of some bytes. -/
def headerChars
    (length : Nat) : List Char :=
  "Content-Length: ".toList ++ Nat.toDigits 10 length ++
    ['\r', '\n', '\r', '\n']

/- A frame as text. -/
def encodeChars
    (x : Json) : List Char :=
  let body := x.compact
  headerChars (Utf8.encode body).length ++ body

/- A frame as a string. -/
def encodeText
    (x : Json) : String :=
  String.ofList (encodeChars x)

/- A frame as bytes. -/
def encode
    (x : Json) : List UInt8 :=
  Utf8.encode (encodeChars x)

end Rpc

end StyleCompanion
