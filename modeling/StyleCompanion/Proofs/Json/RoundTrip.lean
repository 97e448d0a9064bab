import StyleCompanion.Json.Reader
import StyleCompanion.Json.Writer
import StyleCompanion.Proofs.Table
import StyleCompanion.Proofs.Text.Digits
import Mathlib.Tactic.SplitIfs

/-
  Compact JSON text is read back as the value it was written
  for.

  Values without doubles, in which no object has two fields
  of one name, are read back exactly.  Every part of a value
  is read back in front of any text that cannot be taken for
  more of it, with at least as much fuel as it has
  characters.

  Main declarations:
    * `Json.readText_quoted`
    * `Json.readAtom_integerChars`
    * `Json.Plain`
    * `Json.ReadsBack`
    * `Json.Plain.readsBack`
    * `Json.read_compact`
-/

namespace StyleCompanion

namespace Json

----
-- Escapes
----

/- A hexadecimal digit has its value. -/
theorem hexValue_digitChar
    {d : Nat}
    (h : d < 16) :
    hexValue d.digitChar = some d := by
  have hAll :
      ∀ d < 16, hexValue (Nat.digitChar d) = some d := by
    decide
  exact hAll d h

/- Four padded hexadecimal digits, one by one. -/
theorem hexDigits_four
    {n : Nat}
    (h : n < 0x10000) :
    Text.hexDigits 4 n =
      [(n / 4096).digitChar, (n / 256 % 16).digitChar,
        (n / 16 % 16).digitChar, (n % 16).digitChar] := by
  have hStep :
      ∀ m, Nat.toDigits 16 m =
        if m < 16 then [m.digitChar]
        else Nat.toDigits 16 (m / 16) ++
          [(m % 16).digitChar] := by
    intro m
    exact Nat.toDigits_eq_if (by decide)
  have h₁ : n / 16 / 16 = n / 256 := by omega
  have h₂ : n / 256 / 16 = n / 4096 := by omega
  by_cases hOne : n < 16
  · have hZeros :
        n / 4096 = 0 ∧ n / 256 % 16 = 0 ∧
          n / 16 % 16 = 0 ∧ n % 16 = n := by
      omega
    simp [Text.hexDigits, hStep n, hOne, hZeros]
  by_cases hTwo : n < 256
  · have hZeros :
        n / 4096 = 0 ∧ n / 256 % 16 = 0 ∧
          n / 16 % 16 = n / 16 := by
      omega
    have hSmall : n / 16 < 16 := by omega
    simp [Text.hexDigits, hStep n, hOne, hStep (n / 16),
      hSmall, hZeros]
  by_cases hThree : n < 4096
  · have hZeros :
        n / 4096 = 0 ∧ n / 256 % 16 = n / 256 := by
      omega
    have hLarge : ¬ n / 16 < 16 := by omega
    have hSmall : n / 256 < 16 := by omega
    simp [Text.hexDigits, hStep n, hOne, hStep (n / 16),
      hLarge, h₁, hStep (n / 256), hSmall, hZeros]
  · have hLarge : ¬ n / 16 < 16 := by omega
    have hLarger : ¬ n / 256 < 16 := by omega
    have hSmall : n / 4096 < 16 := by omega
    simp [Text.hexDigits, hStep n, hOne, hStep (n / 16),
      hLarge, h₁, hStep (n / 256), hLarger, h₂,
      hStep (n / 4096), hSmall]

/- Four padded hexadecimal digits have their value. -/
theorem hexFour_digits
    {n : Nat}
    (h : n < 0x10000) :
    hexFour (n / 4096).digitChar (n / 256 % 16).digitChar
        (n / 16 % 16).digitChar (n % 16).digitChar =
      some n := by
  rw [hexFour, hexValue_digitChar (by omega),
    hexValue_digitChar (by omega),
    hexValue_digitChar (by omega),
    hexValue_digitChar (by omega)]
  dsimp only
  congr 1
  omega

/- An escape by number of a character is that character. -/
theorem readTextAfter_unicodeEscape
    {n : Nat}
    (hSize : n < 0x10000)
    (hHigh : isHighSurrogate n = false)
    (hLow : isLowSurrogate n = false)
    (opening : Nat)
    {rest : List Char}
    (hRest : rest ≠ []) :
    readTextAfter opening 0 (unicodeEscape n ++ rest) =
      consChar (Char.ofNat n)
        (readTextAfter opening 0 rest) := by
  rcases List.exists_cons_of_ne_nil hRest with ⟨e, rest, rfl⟩
  have hEscape :
      readEscape opening
          ('u' :: (Text.hexDigits 4 n ++ e :: rest)) =
        .ok (Char.ofNat n, 5) := by
    rw [hexDigits_four hSize]
    simp [readEscape, numberedEscape, hexFour_digits hSize,
      hHigh, hLow, unitChar]
  have hSkip :
      readTextAfter opening 5
          ('u' :: (Text.hexDigits 4 n ++ e :: rest)) =
        readTextAfter opening 0 (e :: rest) := by
    rw [hexDigits_four hSize]
    rfl
  rw [unicodeEscape, List.cons_append, List.cons_append,
    readTextAfter, if_neg (by decide), if_pos rfl, hEscape]
  dsimp only
  rw [hSkip]

/- A short escape of a character is that character. -/
theorem readTextAfter_letter
    {letter c : Char}
    (hEscape : letterEscape letter = some c)
    (opening : Nat)
    (rest : List Char) :
    readTextAfter opening 0 ('\\' :: letter :: rest) =
      consChar c (readTextAfter opening 0 rest) := by
  have hNotU : letter ≠ 'u' := by
    rintro rfl
    simp [letterEscape] at hEscape
  have hRead :
      readEscape opening (letter :: rest) = .ok (c, 1) := by
    simp [readEscape, hEscape]
  rw [readTextAfter, if_neg (by decide), if_pos rfl, hRead]
  rfl

/- A character without an escape is read as itself. -/
theorem readTextAfter_plain
    {c : Char}
    (hQuote : c ≠ '"')
    (hSlash : c ≠ '\\')
    (hPrintable : ¬ c.toNat < 0x20)
    (opening : Nat)
    (rest : List Char) :
    readTextAfter opening 0 (c :: rest) =
      consChar c (readTextAfter opening 0 rest) := by
  rw [readTextAfter, if_neg hQuote, if_neg hSlash,
    if_neg hPrintable]

/- A short escape is a letter that stands for the character. -/
theorem letterEscape_of_shortEscape
    {c : Char}
    {cs : List Char}
    (h : shortEscape c = some cs) :
    ∃ letter, cs = ['\\', letter] ∧
      letterEscape letter = some c := by
  have hNumber : ∀ n, c.toNat = n → c = Char.ofNat n := by
    intro n hn
    rw [← hn, Char.ofNat_toNat]
  unfold shortEscape at h
  split_ifs at h with h₁ h₂ h₃ h₄ h₅ h₆ h₇ <;>
    simp only [Option.some.injEq] at h <;>
    subst h
  · exact ⟨'"', rfl, by rw [h₁]; rfl⟩
  · exact ⟨'\\', rfl, by rw [h₂]; rfl⟩
  · exact ⟨'n', rfl, by rw [h₃]; rfl⟩
  · exact ⟨'r', rfl, by rw [h₄]; rfl⟩
  · exact ⟨'t', rfl, by rw [h₅]; rfl⟩
  · exact ⟨'f', rfl, by rw [hNumber _ h₆]; rfl⟩
  · exact ⟨'b', rfl, by rw [hNumber _ h₇]; rfl⟩

/- Quote and backslash have short escapes. -/
theorem ne_of_shortEscape_eq_none
    {c : Char}
    (h : shortEscape c = none) :
    c ≠ '"' ∧ c ≠ '\\' := by
  constructor
  · rintro rfl
    simp [shortEscape] at h
  · rintro rfl
    simp [shortEscape] at h

/- A character of the compact layout is read back. -/
theorem readTextAfter_compactChar
    (c : Char)
    (opening : Nat)
    {rest : List Char}
    (hRest : rest ≠ []) :
    readTextAfter opening 0 (compactChar c ++ rest) =
      consChar c (readTextAfter opening 0 rest) := by
  rw [compactChar]
  cases hShort : shortEscape c with
  | some cs =>
      rcases letterEscape_of_shortEscape hShort with
        ⟨letter, rfl, hEscape⟩
      exact readTextAfter_letter hEscape opening rest
  | none =>
      dsimp only
      by_cases hControl : c.toNat < 0x20
      · have hHigh : isHighSurrogate c.toNat = false := by
          simp [isHighSurrogate]
          omega
        have hLow : isLowSurrogate c.toNat = false := by
          simp [isLowSurrogate]
          omega
        rw [if_pos hControl,
          readTextAfter_unicodeEscape (by omega) hHigh hLow
            opening hRest,
          Char.ofNat_toNat]
      · rcases ne_of_shortEscape_eq_none hShort with
          ⟨hQuote, hSlash⟩
        rw [if_neg hControl]
        exact readTextAfter_plain hQuote hSlash hControl
          opening rest

/-
  A text between quotes is read back when every character of
  it is, whatever layout its characters have.
-/
theorem readText_quoted
    {char : Char → List Char}
    (hChar :
      ∀ c opening rest, rest ≠ [] →
        readTextAfter opening 0 (char c ++ rest) =
          consChar c (readTextAfter opening 0 rest))
    (cs rest : List Char) :
    readText (cs.flatMap char ++ '"' :: rest) =
      .ok (cs, rest) := by
  rw [readText]
  generalize
    (cs.flatMap char ++ '"' :: rest).length + 1 = opening
  induction cs with
  | nil => rfl
  | cons c cs ih =>
      rw [List.flatMap_cons, List.append_assoc,
        hChar c opening _ (by simp), ih]
      rfl

----
-- Numbers
----

/- What follows cannot be taken for more of a number. -/
def EndsNumber
    (rest : List Char) : Prop :=
  ∀ c ∈ rest.head?,
    c.isDigit = false ∧ c ≠ '.' ∧ c ≠ 'e' ∧ c ≠ 'E'

/- No zero leads the digits of a number but zero. -/
theorem toDigits_eq_cons
    {n : Nat}
    (h : n ≠ 0) :
    ∃ c ds, Nat.toDigits 10 n = c :: ds ∧ c ≠ '0' := by
  induction n using Nat.strongRecOn with
  | ind n ih =>
      by_cases hSmall : n < 10
      · refine ⟨n.digitChar, [], ?_, ?_⟩
        · exact Nat.toDigits_of_lt_base hSmall
        · simpa using h
      · rcases ih (n / 10) (by omega) (by omega) with
          ⟨c, ds, hDigits, hLead⟩
        refine ⟨c, ds ++ [(n % 10).digitChar], ?_, hLead⟩
        rw [Nat.toDigits_of_base_le (by decide) (by omega),
          hDigits]
        rfl

/- No digit is taken from what ends a number. -/
theorem takeWhile_isDigit
    {rest : List Char}
    (h : EndsNumber rest) :
    rest.takeWhile Char.isDigit = [] ∧
      rest.dropWhile Char.isDigit = rest := by
  cases rest with
  | nil => exact ⟨rfl, rfl⟩
  | cons c rest =>
      have hDigit : c.isDigit = false := (h c (by simp)).1
      simp [hDigit]

/- The digits of a number are read up to their end. -/
theorem readWhole_toDigits
    (n : Nat)
    {rest : List Char}
    (h : EndsNumber rest) :
    readWhole (Nat.toDigits 10 n ++ rest) =
      some (Nat.toDigits 10 n, rest) := by
  by_cases hZero : n = 0
  · subst hZero
    rfl
  · rcases toDigits_eq_cons hZero with ⟨c, ds, hDigits, hLead⟩
    have hAll : ∀ d ∈ c :: ds, d.isDigit = true := by
      intro d hd
      exact Text.isDigit_of_mem_toDigits (hDigits ▸ hd)
    have hHead : c.isDigit = true := hAll c (by simp)
    have hTail : ∀ d ∈ ds, d.isDigit = true := by
      intro d hd
      exact hAll d (by simp [hd])
    rcases takeWhile_isDigit h with ⟨hTake, hDrop⟩
    simp [hDigits, readWhole, hHead,
      List.takeWhile_append_of_pos hTail,
      List.dropWhile_append_of_pos hTail, hTake, hDrop]

/- What ends a number is no fraction. -/
theorem readFraction_eq
    {rest : List Char}
    (h : EndsNumber rest) :
    readFraction rest = ([], rest) := by
  cases rest with
  | nil => rfl
  | cons c rest =>
      have hPoint : c ≠ '.' := (h c (by simp)).2.1
      simp [readFraction, hPoint]

/- What ends a number is no exponent. -/
theorem readExponent_eq
    {rest : List Char}
    (h : EndsNumber rest) :
    readExponent rest = none := by
  cases rest with
  | nil => rfl
  | cons c rest =>
      rcases h c (by simp) with ⟨-, -, hLower, hUpper⟩
      simp [readExponent, hLower, hUpper]

/- The digits of a number are read as that number. -/
theorem readUnsigned_toDigits
    (negative : Bool)
    (n : Nat)
    {rest : List Char}
    (h : EndsNumber rest) :
    readUnsigned negative (Nat.toDigits 10 n ++ rest) =
      some (.int (if negative then -(n : Int) else n),
        rest) := by
  have hValue : digitsValue (Nat.toDigits 10 n) = n :=
    Nat.ofDigitChars_ten_toDigits
  simp [readUnsigned, readWhole_toDigits n h,
    readFraction_eq h, readExponent_eq h, hValue]

/- A digit begins no named value. -/
theorem readNamed_digit
    {c : Char}
    (h : c.isDigit = true)
    (rest : List Char) :
    readNamed (c :: rest) = none ∧
      readNamed ('-' :: c :: rest) = none := by
  have hNot : ∀ d, d.isDigit = false → d ≠ c := by
    rintro d hd rfl
    simp [hd] at h
  have hN := hNot 'n' rfl
  have hT := hNot 't' rfl
  have hF := hNot 'f' rfl
  have hCapital := hNot 'N' rfl
  have hI := hNot 'I' rfl
  have hMinus := hNot '-' rfl
  constructor <;>
    simp [readNamed, namedValues, afterWord, hN, hT, hF,
      hCapital, hI, hMinus]

/- The text of a whole number begins with sign or digit. -/
theorem integerChars_eq_cons
    (n : Int) :
    ∃ c cs, integerChars n = c :: cs ∧
      (c = '-' ∨ c.isDigit = true) := by
  by_cases hNegative : n < 0
  · exact ⟨'-', Nat.toDigits 10 n.natAbs,
      by rw [integerChars, if_pos hNegative], .inl rfl⟩
  · rcases List.exists_cons_of_ne_nil
        (Nat.toDigits_ne_nil (n := n.natAbs) (b := 10)) with
      ⟨c, ds, hDigits⟩
    refine ⟨c, ds, ?_, .inr ?_⟩
    · rw [integerChars, if_neg hNegative, hDigits]
    · exact Text.isDigit_of_mem_toDigits (n := n.natAbs)
        (by simp [hDigits])

/- The text of a whole number is read back. -/
theorem readAtom_integerChars
    (n : Int)
    {rest : List Char}
    (h : EndsNumber rest) :
    readAtom (integerChars n ++ rest) = .ok (.int n, rest) := by
  rcases List.exists_cons_of_ne_nil
      (Nat.toDigits_ne_nil (n := n.natAbs) (b := 10)) with
    ⟨c, ds, hDigits⟩
  have hHead : c.isDigit = true :=
    Text.isDigit_of_mem_toDigits (n := n.natAbs) (by simp [hDigits])
  have hNamed := readNamed_digit hHead (ds ++ rest)
  by_cases hNegative : n < 0
  · have hRead := readUnsigned_toDigits true n.natAbs h
    have hValue : -(n.natAbs : Int) = n := by omega
    rw [integerChars, if_pos hNegative]
    rw [hDigits, List.cons_append] at hRead
    rw [hDigits, List.cons_append, List.cons_append,
      readAtom, hNamed.2]
    rw [if_pos rfl, hValue] at hRead
    simp only [readNumber, hRead]
  · have hRead := readUnsigned_toDigits false n.natAbs h
    have hValue : (n.natAbs : Int) = n := by omega
    have hSign : c ≠ '-' := by
      rintro rfl
      simp at hHead
    have hNumber :
        readNumber (c :: (ds ++ rest)) =
          readUnsigned false (c :: (ds ++ rest)) := by
      unfold readNumber
      split
      · simp_all
      · rfl
    rw [integerChars, if_neg hNegative]
    rw [hDigits, List.cons_append] at hRead ⊢
    rw [if_neg Bool.false_ne_true, hValue] at hRead
    rw [readAtom, hNamed.1, hNumber, hRead]

----
-- Values
----

/-
  Values that JSON text can hold exactly: no doubles, whole
  numbers of a size that can be read, and no object with two
  fields of one name.
-/
inductive Plain : Json → Prop where
  | null : Plain .null
  | bool (b : Bool) : Plain (.bool b)
  | int
      (n : Int)
      (hSize : (Nat.toDigits 10 n.natAbs).length ≤ 4300) :
      Plain (.int n)
  | str (s : String) : Plain (.str s)
  | arr
      (items : List Json)
      (hItems : ∀ x ∈ items, Plain x) :
      Plain (.arr items)
  | obj
      (fields : Table String Json)
      (hNames : (Table.keys fields).Nodup)
      (hFields : ∀ f ∈ fields, Plain f.2) :
      Plain (.obj fields)

/-
  The compact text of a value is read back in front of
  anything that ends a number.
-/
def ReadsBack
    (x : Json) : Prop :=
  ∀ fuel rest,
    x.compact.length ≤ fuel → EndsNumber rest →
      readValue fuel (x.compact ++ rest) = .ok (x, rest)

/- Whether a character can be the first of a value. -/
def BeginsValue
    (c : Char) : Prop :=
  isSpace c = false ∧ c ≠ ']' ∧ c ≠ Char.ofNat 0xFEFF

instance
    (c : Char) :
    Decidable (BeginsValue c) := by
  unfold BeginsValue
  infer_instance

/- Digits begin values. -/
theorem beginsValue_of_isDigit
    {c : Char}
    (h : c.isDigit = true) :
    BeginsValue c := by
  have hNot : ∀ d, d.isDigit = false → c ≠ d := by
    rintro d hd rfl
    simp [hd] at h
  refine ⟨?_, hNot ']' rfl, hNot _ rfl⟩
  simp [isSpace, hNot ' ' rfl, hNot '\t' rfl, hNot '\n' rfl,
    hNot '\r' rfl]

/- Every value but a double begins as a value does. -/
theorem Plain.compact_eq_cons
    {x : Json}
    (h : Plain x) :
    ∃ c cs, x.compact = c :: cs ∧ BeginsValue c := by
  cases h with
  | null => exact ⟨_, _, rfl, by decide⟩
  | bool b => cases b <;> exact ⟨_, _, rfl, by decide⟩
  | int n hSize =>
      rcases integerChars_eq_cons n with ⟨c, cs, hText, hHead⟩
      refine ⟨c, cs, by rw [compact, hText], ?_⟩
      rcases hHead with rfl | hDigit
      · decide
      · exact beginsValue_of_isDigit hDigit
  | str s => exact ⟨_, _, rfl, by decide⟩
  | arr items hItems =>
      cases items <;> exact ⟨_, _, rfl, by decide⟩
  | obj fields hNames hFields =>
      cases fields <;> exact ⟨_, _, rfl, by decide⟩

/- No blank stands in front of a value. -/
theorem skipSpace_cons
    {c : Char}
    (h : BeginsValue c)
    (cs : List Char) :
    skipSpace (c :: cs) = c :: cs := by
  simp [skipSpace, h.1]

/- No blank stands in front of the text of a value. -/
theorem Plain.skipSpace_compact
    {x : Json}
    (h : Plain x)
    (rest : List Char) :
    skipSpace (x.compact ++ rest) = x.compact ++ rest := by
  rcases h.compact_eq_cons with ⟨c, cs, hText, hBegins⟩
  rw [hText]
  exact skipSpace_cons hBegins _

/- A comma or a closing bracket ends a number. -/
theorem endsNumber_compactItems
    (xs : List Json)
    (rest : List Char) :
    EndsNumber (compactItems xs ++ rest) := by
  cases xs <;> simp [EndsNumber, compactItems]

/- A comma or a closing brace ends a number. -/
theorem endsNumber_compactFields
    (fs : Table String Json)
    (rest : List Char) :
    EndsNumber (compactFields fs ++ rest) := by
  cases fs <;> simp [EndsNumber, compactFields]

/- A quoted text is read back if its characters are. -/
theorem readText_quoteWith
    {char : Char → List Char}
    (hChar :
      ∀ c opening rest, rest ≠ [] →
        readTextAfter opening 0 (char c ++ rest) =
          consChar c (readTextAfter opening 0 rest))
    (s : String)
    (rest : List Char) :
    ∃ body,
      quoteWith char s = '"' :: body ∧
        readText (body ++ rest) = .ok (s.toList, rest) := by
  refine ⟨s.toList.flatMap char ++ ['"'], rfl, ?_⟩
  rw [List.append_assoc, List.singleton_append]
  exact readText_quoted hChar s.toList rest

/- A text in the compact layout is read back. -/
theorem readText_compact
    (s : String)
    (rest : List Char) :
    ∃ body,
      quoteWith compactChar s = '"' :: body ∧
        readText (body ++ rest) = .ok (s.toList, rest) :=
  readText_quoteWith
    (fun c opening _ => readTextAfter_compactChar c opening)
    s rest

/- Items that are read back are read back as a list. -/
theorem readItems_compact
    (x : Json)
    (xs : List Json)
    (hItems : ∀ y ∈ x :: xs, Plain y ∧ ReadsBack y)
    (fuel : Nat)
    (rest : List Char)
    (hFuel :
      x.compact.length + (compactItems xs).length ≤ fuel) :
    readItems fuel
        (x.compact ++ (compactItems xs ++ rest)) =
      .ok (x :: xs, rest) := by
  induction xs generalizing x fuel with
  | nil =>
      cases fuel with
      | zero => simp [compactItems] at hFuel
      | succ fuel =>
          have hValue := (hItems x (by simp)).2 fuel
            (compactItems [] ++ rest)
            (by simp [compactItems] at hFuel; omega)
            (endsNumber_compactItems [] rest)
          rw [readItems, hValue]
          simp [compactItems, skipSpace, isSpace]
  | cons y ys ih =>
      cases fuel with
      | zero => simp [compactItems] at hFuel
      | succ fuel =>
          simp only [compactItems, List.cons_append,
            List.length_cons, List.length_append] at hFuel
          have hValue := (hItems x (by simp)).2 fuel
            (compactItems (y :: ys) ++ rest) (by omega)
            (endsNumber_compactItems (y :: ys) rest)
          have hRest := ih y
            (fun z hz => hItems z (List.mem_cons_of_mem x hz))
            fuel (by omega)
          have hBlank :=
            (hItems y (by simp)).1.skipSpace_compact
              (compactItems ys ++ rest)
          have hComma :
              compactItems (y :: ys) ++ rest =
                ',' :: (y.compact ++
                  (compactItems ys ++ rest)) := by
            simp [compactItems]
          rw [readItems, hValue, hComma]
          have hSkip :
              ∀ cs, skipSpace (',' :: cs) = ',' :: cs := by
            intro cs
            rfl
          simp only [hSkip, hBlank, hRest]

/- Read on after a field. -/
def readFieldsAfter
    (fuel : Nat)
    (acc : Table String Json)
    (after : List Char) :
    Except ReadError (Table String Json × List Char) :=
  match skipSpace after with
  | '}' :: rest => .ok (acc, rest)
  | ',' :: rest => readFields fuel acc (skipSpace rest)
  | other => .error ⟨.comma, other.length⟩

/- One field in front of what follows it is read back. -/
theorem readFields_field
    {k : String}
    {x : Json}
    {acc : Table String Json}
    (hPlain : Plain x)
    (hReads : ReadsBack x)
    (hName : k ∉ Table.keys acc)
    {fuel : Nat}
    (hFuel : x.compact.length ≤ fuel)
    {after : List Char}
    (hAfter : EndsNumber after) :
    readFields (fuel + 1) acc
        (quoteWith compactChar k ++
          ':' :: (x.compact ++ after)) =
      readFieldsAfter fuel (acc ++ [(k, x)]) after := by
  rcases readText_compact k (':' :: (x.compact ++ after)) with
    ⟨body, hQuoted, hText⟩
  have hColon :
      ∀ cs, skipSpace (':' :: cs) = ':' :: cs :=
    fun cs => rfl
  have hValue := hReads fuel after hFuel hAfter
  have hInsert := Table.insert_of_notMem_keys hName x
  rw [hQuoted, List.cons_append, readFields, hText]
  simp only [hColon, hPlain.skipSpace_compact, hValue,
    String.ofList_toList, hInsert]
  rfl

/-
  Fields that are read back are read back as an object, behind
  the fields read before them, if no name comes twice.
-/
theorem readFields_compact
    (k : String)
    (x : Json)
    (fs acc : Table String Json)
    (hFields : ∀ f ∈ (k, x) :: fs, Plain f.2 ∧ ReadsBack f.2)
    (hNames : (Table.keys (acc ++ (k, x) :: fs)).Nodup)
    (fuel : Nat)
    (rest : List Char)
    (hFuel :
      x.compact.length + (compactFields fs).length ≤ fuel) :
    readFields fuel acc
        (quoteWith compactChar k ++
          ':' :: (x.compact ++ (compactFields fs ++ rest))) =
      .ok (acc ++ (k, x) :: fs, rest) := by
  have hHead : Plain x ∧ ReadsBack x :=
    hFields (k, x) (by simp)
  rcases hHead with ⟨hPlain, hReads⟩
  have hName := Table.notMem_keys_of_nodup hNames
  induction fs generalizing k x acc fuel with
  | nil =>
      cases fuel with
      | zero => simp [compactFields] at hFuel
      | succ fuel =>
          have hEnough : x.compact.length ≤ fuel := by
            simp [compactFields] at hFuel
            omega
          rw [readFields_field hPlain hReads hName hEnough
            (endsNumber_compactFields [] rest)]
          rfl
  | cons f fs ih =>
      rcases f with ⟨l, y⟩
      cases fuel with
      | zero => simp [compactFields] at hFuel
      | succ fuel =>
          simp only [compactFields, List.cons_append,
            List.length_cons, List.length_append] at hFuel
          have hNext : Plain y ∧ ReadsBack y :=
            hFields (l, y) (by simp)
          rcases hNext with ⟨hNextPlain, hNextReads⟩
          have hNextNames :
              (Table.keys
                ((acc ++ [(k, x)]) ++ (l, y) :: fs)).Nodup := by
            simpa using hNames
          have hRest := ih l y (acc ++ [(k, x)])
            (fun f hf => hFields f (List.mem_cons_of_mem _ hf))
            hNextNames fuel (by omega) hNextPlain hNextReads
            (Table.notMem_keys_of_nodup hNextNames)
          have hComma :
              compactFields ((l, y) :: fs) ++ rest =
                ',' :: (quoteWith compactChar l ++
                  ':' :: (y.compact ++
                    (compactFields fs ++ rest))) := by
            simp [compactFields]
          have hSkip :
              ∀ cs, skipSpace (',' :: cs) = ',' :: cs :=
            fun cs => rfl
          have hQuote :
              ∀ cs, skipSpace (quoteWith compactChar l ++ cs) =
                quoteWith compactChar l ++ cs :=
            fun cs => rfl
          rw [readFields_field hPlain hReads hName (by omega)
            (endsNumber_compactFields _ rest), hComma]
          simp only [readFieldsAfter, hSkip, hQuote, hRest]
          simp

/- A named value or a number is read as an atom. -/
theorem readValue_atom
    {c : Char}
    (hQuote : c ≠ '"')
    (hList : c ≠ '[')
    (hObject : c ≠ '{')
    (fuel : Nat)
    (cs : List Char) :
    readValue (fuel + 1) (c :: cs) = readAtom (c :: cs) := by
  rw [readValue]
  · rintro rest ⟨rfl, rfl⟩
    exact hQuote rfl
  · rintro rest ⟨rfl, rfl⟩
    exact hList rfl
  · rintro rest ⟨rfl, rfl⟩
    exact hObject rfl

/-
  Every plain value is read back.  The cases follow the ways
  in which a value is plain; the items of a list and the
  fields of an object are read back by induction.
-/
theorem Plain.readsBack
    {x : Json}
    (h : Plain x) :
    ReadsBack x := by
  induction h with
  | null =>
      intro fuel rest hFuel hRest
      cases fuel with
      | zero => simp [compact] at hFuel
      | succ fuel => rfl
  | bool b =>
      intro fuel rest hFuel hRest
      cases fuel with
      | zero => cases b <;> simp [compact] at hFuel
      | succ fuel => cases b <;> rfl
  | int n hSize =>
      intro fuel rest hFuel hRest
      have hRead := readAtom_integerChars n hRest
      rcases integerChars_eq_cons n with ⟨c, cs, hText, hHead⟩
      have hOther : ∀ d, d ≠ '-' → d.isDigit = false → c ≠ d := by
        rintro d hMinus hDigit rfl
        rcases hHead with hHead | hHead
        · exact hMinus hHead
        · simp [hDigit] at hHead
      cases fuel with
      | zero => simp [compact, hText] at hFuel
      | succ fuel =>
          rw [hText, List.cons_append] at hRead
          rw [compact, hText, List.cons_append,
            readValue_atom (hOther '"' (by decide) rfl)
              (hOther '[' (by decide) rfl)
              (hOther '{' (by decide) rfl),
            hRead]
  | str s =>
      intro fuel rest hFuel hRest
      rcases readText_compact s rest with
        ⟨body, hQuoted, hText⟩
      cases fuel with
      | zero => simp [compact, hQuoted] at hFuel
      | succ fuel =>
          rw [compact, hQuoted, List.cons_append, readValue,
            hText]
          simp
  | arr items hItems ih =>
      intro fuel rest hFuel hRest
      cases items with
      | nil =>
          cases fuel with
          | zero => simp [compact] at hFuel
          | succ fuel => rfl
      | cons x xs =>
          cases fuel with
          | zero => simp [compact] at hFuel
          | succ fuel =>
              have hRead := readItems_compact x xs
                (fun y hy => ⟨hItems y hy, ih y hy⟩) fuel rest
                (by simpa [compact] using hFuel)
              rcases (hItems x (by simp)).compact_eq_cons with
                ⟨c, cs, hText, hBegins⟩
              rw [hText, List.cons_append] at hRead
              simp [compact, hText, readValue,
                skipSpace_cons hBegins, hBegins.2.1, hRead]
  | obj fields hNames hFields ih =>
      intro fuel rest hFuel hRest
      cases fields with
      | nil =>
          cases fuel with
          | zero => simp [compact] at hFuel
          | succ fuel => rfl
      | cons f fs =>
          rcases f with ⟨k, x⟩
          cases fuel with
          | zero => simp [compact] at hFuel
          | succ fuel =>
              have hRead := readFields_compact k x fs []
                (fun f hf => ⟨hFields f hf, ih f hf⟩) hNames
                fuel rest
                (by simp [compact] at hFuel; omega)
              have hText :
                  (Json.obj ((k, x) :: fs)).compact ++ rest =
                    '{' :: (quoteWith compactChar k ++
                      ':' :: (x.compact ++
                        (compactFields fs ++ rest))) := by
                simp [compact]
              have hSkip :
                  ∀ cs, skipSpace ('"' :: cs) = '"' :: cs :=
                fun cs => rfl
              rcases readText_compact k rest with
                ⟨body, hQuoted, -⟩
              rw [hText, hQuoted, List.cons_append]
              rw [hQuoted, List.cons_append] at hRead
              simp [readValue, hSkip, hRead]

/- Compact text is read back as the value it stands for. -/
theorem read_compact
    {x : Json}
    (h : Plain x) :
    read x.compact = .ok x := by
  rcases h.compact_eq_cons with ⟨c, cs, hText, hBegins⟩
  have hValue := h.readsBack (2 * x.compact.length + 2) []
    (by omega) (by simp [EndsNumber])
  have hBlank := h.skipSpace_compact []
  have hMark : x.compact.head? ≠ some (Char.ofNat 0xFEFF) := by
    rw [hText]
    simpa using hBegins.2.2
  rw [List.append_nil] at hValue hBlank
  rw [read, if_neg hMark, hBlank, hValue]
  rfl

end Json

end StyleCompanion
