/-
  Letter case, as far as it decides a comparison with an
  ASCII word.

  A few characters outside ASCII have ASCII letters as their
  other case, so they take part in such a comparison: the
  Kelvin sign is a capital `k`, and the dotless `i`, the long
  `s` and the ligatures have plain capitals.  Every other
  character outside ASCII stays outside ASCII in both cases
  and is left as it is.

  Key definitions include:
    * `lowerChar`
    * `lower`
    * `upperChar`
    * `upper`
-/

namespace StyleCompanion

namespace Text

/- The lower case of a character. -/
def lowerChar
    (c : Char) : Char :=
  if decide ('A' ≤ c) && decide (c ≤ 'Z') then
    Char.ofNat (c.toNat + 32)
  else if c.toNat = 0x212A then 'k'
  else c

/- A text in lower case. -/
def lower
    (s : String) : String :=
  String.ofList (s.toList.map lowerChar)

/- The upper case of a character, which may be longer. -/
def upperChar
    (c : Char) : List Char :=
  if decide ('a' ≤ c) && decide (c ≤ 'z') then
    [Char.ofNat (c.toNat - 32)]
  else
    match c.toNat with
    | 0xDF => ['S', 'S']
    | 0x131 => ['I']
    | 0x17F => ['S']
    | 0xFB00 => ['F', 'F']
    | 0xFB01 => ['F', 'I']
    | 0xFB02 => ['F', 'L']
    | 0xFB03 => ['F', 'F', 'I']
    | 0xFB04 => ['F', 'F', 'L']
    | 0xFB05 => ['S', 'T']
    | 0xFB06 => ['S', 'T']
    | _ => [c]

/- A text in upper case. -/
def upper
    (s : String) : String :=
  String.ofList (s.toList.flatMap upperChar)

end Text

end StyleCompanion
