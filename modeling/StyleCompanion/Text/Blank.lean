/-
  Blank characters and trimming.

  The blanks are the Unicode white space characters together
  with the four information separators U+001C to U+001F.  The
  zero-width space and the byte order mark are not among them.

  Key definitions include:
    * `isBlank`
    * `trimChars`
    * `trim`
-/

namespace StyleCompanion

namespace Text

/- Whether a character counts as white space. -/
def isBlank
    (c : Char) : Bool :=
  let n := c.toNat
  (decide (0x09 ≤ n) && decide (n ≤ 0x0D)) ||
    (decide (0x1C ≤ n) && decide (n ≤ 0x20)) ||
    n == 0x85 || n == 0xA0 || n == 0x1680 ||
    (decide (0x2000 ≤ n) && decide (n ≤ 0x200A)) ||
    n == 0x2028 || n == 0x2029 || n == 0x202F ||
    n == 0x205F || n == 0x3000

/- Drop the longest suffix of characters with a property. -/
def dropEndWhile
    (p : Char → Bool)
    (cs : List Char) : List Char :=
  (cs.reverse.dropWhile p).reverse

/- Drop the characters with a property at both ends. -/
def stripWith
    (p : Char → Bool)
    (cs : List Char) : List Char :=
  dropEndWhile p (cs.dropWhile p)

/- Drop the blanks at both ends. -/
def trimChars
    (cs : List Char) : List Char :=
  stripWith isBlank cs

/- Drop the blanks at both ends of a text. -/
def trim
    (s : String) : String :=
  String.ofList (trimChars s.toList)

end Text

end StyleCompanion
