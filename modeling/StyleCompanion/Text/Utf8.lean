/-
  The UTF-8 form of text.

  Bytes are scanned into pieces, each a character or a faulty
  run of bytes.  Reading strictly refuses at the first faulty
  run; reading leniently puts U+FFFD in its place.  A faulty
  run is the longest beginning of a well-formed sequence that
  the bytes offer, and at least one byte.

  Key definitions include:
    * `encode`
    * `Piece`
    * `scan`
    * `decode`
    * `decodeLossy`
    * `DecodeError.message`
-/

namespace StyleCompanion

namespace Utf8

----
-- Encoding
----

/- The bytes of one character. -/
def encodeChar
    (c : Char) : List UInt8 :=
  let n := c.toNat
  if n < 0x80 then
    [UInt8.ofNat n]
  else if n < 0x800 then
    [UInt8.ofNat (0xC0 + n / 64),
      UInt8.ofNat (0x80 + n % 64)]
  else if n < 0x10000 then
    [UInt8.ofNat (0xE0 + n / 4096),
      UInt8.ofNat (0x80 + n / 64 % 64),
      UInt8.ofNat (0x80 + n % 64)]
  else
    [UInt8.ofNat (0xF0 + n / 262144),
      UInt8.ofNat (0x80 + n / 4096 % 64),
      UInt8.ofNat (0x80 + n / 64 % 64),
      UInt8.ofNat (0x80 + n % 64)]

/- The bytes of a text. -/
def encode
    (cs : List Char) : List UInt8 :=
  cs.flatMap encodeChar

/- The bytes of a string. -/
def ofString
    (s : String) : List UInt8 :=
  encode s.toList

----
-- Scanning
----

/- Why a run of bytes is no character. -/
inductive Fault where
  | badStart
  | badContinuation
  | endOfData
  deriving DecidableEq, Repr

/- A character or a faulty run, with its number of bytes. -/
inductive Piece where
  | char (c : Char) (size : Nat)
  | faulty (fault : Fault) (size : Nat)
  deriving DecidableEq, Repr

namespace Piece

/- The number of bytes of a piece. -/
def size : Piece → Nat
  | .char _ n => n
  | .faulty _ n => n

end Piece

/- Whether a byte lies in an inclusive range. -/
def within
    (lo hi : Nat)
    (b : UInt8) : Bool :=
  decide (lo ≤ b.toNat) && decide (b.toNat ≤ hi)

/- Whether a byte continues a character. -/
def isContinuation
    (b : UInt8) : Bool :=
  within 0x80 0xBF b

/- The range of the second byte after a given first byte. -/
def secondRange
    (lead : Nat) : Nat × Nat :=
  if lead = 0xE0 then (0xA0, 0xBF)
  else if lead = 0xED then (0x80, 0x9F)
  else if lead = 0xF0 then (0x90, 0xBF)
  else if lead = 0xF4 then (0x80, 0x8F)
  else (0x80, 0xBF)

/- Whether a byte may stand second after a given first byte. -/
def isSecond
    (lead : Nat)
    (b : UInt8) : Bool :=
  within (secondRange lead).1 (secondRange lead).2 b

/- The six payload bits of a continuation byte. -/
def payload
    (b : UInt8) : Nat :=
  b.toNat - 0x80

/- The piece in front of a two-byte lead. -/
def frontTwo
    (lead : Nat)
    (rest : List UInt8) : Piece :=
  match rest with
  | [] => .faulty .endOfData 1
  | b₁ :: _ =>
      if isSecond lead b₁ then
        .char
          (Char.ofNat ((lead - 0xC0) * 64 + payload b₁)) 2
      else .faulty .badContinuation 1

/- The piece in front of a three-byte lead. -/
def frontThree
    (lead : Nat)
    (rest : List UInt8) : Piece :=
  match rest with
  | [] => .faulty .endOfData 1
  | b₁ :: rest₁ =>
      if isSecond lead b₁ then
        match rest₁ with
        | [] => .faulty .endOfData 2
        | b₂ :: _ =>
            if isContinuation b₂ then
              .char
                (Char.ofNat
                  ((lead - 0xE0) * 4096 +
                    payload b₁ * 64 + payload b₂)) 3
            else .faulty .badContinuation 2
      else .faulty .badContinuation 1

/- The piece in front of a four-byte lead. -/
def frontFour
    (lead : Nat)
    (rest : List UInt8) : Piece :=
  match rest with
  | [] => .faulty .endOfData 1
  | b₁ :: rest₁ =>
      if isSecond lead b₁ then
        match rest₁ with
        | [] => .faulty .endOfData 2
        | b₂ :: rest₂ =>
            if isContinuation b₂ then
              match rest₂ with
              | [] => .faulty .endOfData 3
              | b₃ :: _ =>
                  if isContinuation b₃ then
                    .char
                      (Char.ofNat
                        ((lead - 0xF0) * 262144 +
                          payload b₁ * 4096 +
                          payload b₂ * 64 + payload b₃)) 4
                  else .faulty .badContinuation 3
            else .faulty .badContinuation 2
      else .faulty .badContinuation 1

/- The piece that starts with a byte. -/
def front
    (b : UInt8)
    (rest : List UInt8) : Piece :=
  let n := b.toNat
  if n < 0x80 then .char (Char.ofNat n) 1
  else if n < 0xC2 then .faulty .badStart 1
  else if n < 0xE0 then frontTwo n rest
  else if n < 0xF0 then frontThree n rest
  else if n < 0xF5 then frontFour n rest
  else .faulty .badStart 1

/-
  Cut bytes into pieces, after skipping bytes that belong to
  the piece before.
-/
def scanAfter
    (skip : Nat)
    (bs : List UInt8) : List Piece :=
  match bs, skip with
  | [], _ => []
  | _ :: rest, k + 1 => scanAfter k rest
  | b :: rest, 0 =>
      let p := front b rest
      p :: scanAfter (p.size - 1) rest

/- Cut bytes into pieces. -/
def scan
    (bs : List UInt8) : List Piece :=
  scanAfter 0 bs

----
-- Decoding
----

/- A faulty run at a byte position. -/
structure DecodeError where
  start : Nat
  size : Nat
  lead : UInt8
  fault : Fault
  deriving DecidableEq, Repr

namespace Fault

/- The wording of a fault. -/
def reason : Fault → String
  | .badStart => "invalid start byte"
  | .badContinuation => "invalid continuation byte"
  | .endOfData => "unexpected end of data"

end Fault

namespace DecodeError

/- The two-digit hexadecimal form of a byte. -/
def hexByte
    (b : UInt8) : String :=
  String.ofList
    [Nat.digitChar (b.toNat / 16),
      Nat.digitChar (b.toNat % 16)]

/- The wording of a decoding error. -/
def message
    (e : DecodeError) : String :=
  let place :=
    if e.size = 1 then
      "byte 0x" ++ hexByte e.lead ++
        " in position " ++ toString e.start
    else
      "bytes in position " ++ toString e.start ++ "-" ++
        toString (e.start + e.size - 1)
  "'utf-8' codec can't decode " ++ place ++ ": " ++
    e.fault.reason

end DecodeError

/- Read pieces as text, counting bytes from a position. -/
def readPieces
    (bs : List UInt8)
    (start : Nat)
    (ps : List Piece) :
    Except DecodeError (List Char) :=
  match ps with
  | [] => .ok []
  | .char c n :: rest =>
      match readPieces bs (start + n) rest with
      | .ok cs => .ok (c :: cs)
      | .error e => .error e
  | .faulty f n :: _ =>
      .error ⟨start, n, bs.getD start 0, f⟩

/- Read bytes as text, refusing the first faulty run. -/
def decode
    (bs : List UInt8) :
    Except DecodeError (List Char) :=
  readPieces bs 0 (scan bs)

/- Read bytes as text, replacing every faulty run. -/
def decodeLossy
    (bs : List UInt8) : List Char :=
  (scan bs).map fun
    | .char c _ => c
    | .faulty _ _ => Char.ofNat 0xFFFD

/- Read bytes as ASCII text, leaving out all other bytes. -/
def asciiOnly
    (bs : List UInt8) : List Char :=
  (bs.filter fun b => decide (b.toNat < 0x80)).map
    fun b => Char.ofNat b.toNat

end Utf8

end StyleCompanion
