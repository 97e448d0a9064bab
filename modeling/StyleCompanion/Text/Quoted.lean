import StyleCompanion.Text.Printable

/-
  Quoted text.

  A text is shown between single quotes, or between double
  quotes when it holds a single quote and no double quote.
  The backslash and the quote in use are escaped, tab, line
  feed and carriage return have short escapes, and every
  character that is not printable is written by its number.

  Key definitions include:
    * `hexDigits`
    * `quoted`
    * `quotedBytes`
-/

namespace StyleCompanion

namespace Text

/- The lower-case hexadecimal digits of a number, padded. -/
def hexDigits
    (width n : Nat) : List Char :=
  let ds := Nat.toDigits 16 n
  List.replicate (width - ds.length) '0' ++ ds

/- The escape of a character by its number. -/
def numericEscape
    (c : Char) : List Char :=
  let n := c.toNat
  if n < 0x100 then '\\' :: 'x' :: hexDigits 2 n
  else if n < 0x10000 then '\\' :: 'u' :: hexDigits 4 n
  else '\\' :: 'U' :: hexDigits 8 n

/- The quote around a text. -/
def quoteFor
    (cs : List Char) : Char :=
  if cs.contains '\'' && !cs.contains '"' then '"'
  else '\''

/- One character inside quotes. -/
def quotedChar
    (quote c : Char) : List Char :=
  if c = quote || c = '\\' then ['\\', c]
  else if c = '\t' then ['\\', 't']
  else if c = '\n' then ['\\', 'n']
  else if c = '\r' then ['\\', 'r']
  else if isPrintable c then [c]
  else numericEscape c

/- A text between its quotes. -/
def quoted
    (s : String) : String :=
  let cs := s.toList
  let q := quoteFor cs
  String.ofList (q :: cs.flatMap (quotedChar q) ++ [q])

/- One byte inside quotes; only ASCII is shown as itself. -/
def quotedByte
    (quote : Char)
    (b : UInt8) : List Char :=
  let c := Char.ofNat b.toNat
  if b.toNat < 0x80 then quotedChar quote c
  else '\\' :: 'x' :: hexDigits 2 b.toNat

/- A byte string between its quotes, marked by a `b`. -/
def quotedBytes
    (bs : List UInt8) : String :=
  let q := quoteFor (bs.map fun b => Char.ofNat b.toNat)
  String.ofList
    ('b' :: q :: bs.flatMap (quotedByte q) ++ [q])

end Text

end StyleCompanion
