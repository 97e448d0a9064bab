import Mathlib.Data.List.TakeWhile
import StyleCompanion.Proofs.Json.RoundTrip

/-
  Compact JSON text that breaks off cannot be read.

  Reading a value goes on to its last character, so that no
  beginning of the text of a list or an object is a value.  A
  beginning of the text of a number may be one, but whatever
  holds the number is then missing its end.  Nothing but
  blanks may follow a value either.  Compact text has no line
  break in it.

  Main declarations:
    * `Json.BreaksOff`
    * `Json.readText_breaksOff`
    * `Json.CutShort`
    * `Json.Plain.cutShort`
    * `Json.Plain.printed`
    * `Json.read_breaksOff`
    * `Json.read_followed`
-/

namespace StyleCompanion

namespace Json

----
-- Texts that break off
----

/- A text is the beginning of another that goes on. -/
def BreaksOff
    (front whole : List Char) : Prop :=
  ∃ back, back ≠ [] ∧ front ++ back = whole

namespace BreaksOff

variable {front whole : List Char}

theorem length_lt
    (h : BreaksOff front whole) :
    front.length < whole.length := by
  rcases h with ⟨back, hBack, rfl⟩
  have hLength := List.length_pos_of_ne_nil hBack
  rw [List.length_append]
  omega

/- Nothing breaks off before the first character. -/
theorem cons
    {c : Char}
    (h : BreaksOff front (c :: whole)) :
    front = [] ∨
      ∃ rest, front = c :: rest ∧ BreaksOff rest whole := by
  rcases h with ⟨back, hBack, hWhole⟩
  cases front with
  | nil => exact Or.inl rfl
  | cons d rest =>
      rw [List.cons_append, List.cons.injEq] at hWhole
      rcases hWhole with ⟨rfl, hWhole⟩
      exact Or.inr ⟨rest, rfl, back, hBack, hWhole⟩

/- Of two parts the first breaks off, or the second does. -/
theorem append
    {first second : List Char}
    (h : BreaksOff front (first ++ second)) :
    BreaksOff front first ∨
      ∃ rest, front = first ++ rest ∧
        BreaksOff rest second := by
  rcases h with ⟨back, hBack, hWhole⟩
  rcases List.append_eq_append_iff.mp hWhole with
    ⟨left, hFirst, hRest⟩ | ⟨rest, hFront, hSecond⟩
  · by_cases hLeft : left = []
    · subst hLeft
      rw [List.append_nil] at hFirst
      refine Or.inr ⟨[], ?_, back, hBack, ?_⟩
      · rw [hFirst, List.append_nil]
      · exact hRest
    · exact Or.inl ⟨left, hLeft, hFirst.symm⟩
  · exact Or.inr ⟨rest, hFront, back, hBack, hSecond.symm⟩

theorem not_nil :
    ¬ BreaksOff front [] := by
  intro h
  exact absurd h.length_lt (Nat.not_lt_zero _)

theorem singleton
    {c : Char}
    (h : BreaksOff front [c]) :
    front = [] := by
  rcases h.cons with hNil | ⟨rest, -, hRest⟩
  · exact hNil
  · exact absurd hRest not_nil

end BreaksOff

/- Nothing can be read. -/
def Fails
    {α : Type}
    (r : Except ReadError α) : Prop :=
  ∃ e, r = .error e

----
-- Quoted texts
----

/- A text that fails behind a character fails with it. -/
theorem Fails.consChar
    {r : Except ReadError (List Char × List Char)}
    (h : Fails r)
    (c : Char) :
    Fails (consChar c r) := by
  rcases h with ⟨e, rfl⟩
  exact ⟨e, rfl⟩

/- A numbered escape needs a character behind its digits. -/
theorem numberedEscape_short
    {cs : List Char}
    (h : cs.length ≤ 4) :
    Fails (numberedEscape cs) := by
  unfold numberedEscape
  split
  · simp only [List.length_cons] at h
    omega
  · exact ⟨_, rfl⟩

/-
  Behind one character of a text, or a part of what is written
  for it, the closing quote is missing.
-/
theorem readTextAfter_of_prefix
    {c : Char}
    {front : List Char}
    (h : front <+: compactChar c)
    (opening : Nat) :
    Fails (readTextAfter opening 0 front) := by
  have hEnd : Fails (readTextAfter opening 0 []) := ⟨_, rfl⟩
  unfold compactChar at h
  cases front with
  | nil => exact hEnd
  | cons d front =>
      split at h
      next cs hShort =>
        rcases letterEscape_of_shortEscape hShort with
          ⟨letter, rfl, hEscape⟩
        rw [List.cons_prefix_cons] at h
        rcases h with ⟨rfl, hLetter⟩
        cases front with
        | nil => exact ⟨_, rfl⟩
        | cons e front =>
            rw [List.cons_prefix_cons, List.prefix_nil]
              at hLetter
            rcases hLetter with ⟨rfl, rfl⟩
            rw [readTextAfter_letter hEscape]
            exact hEnd.consChar c
      next hShort =>
        split at h
        next hControl =>
          have hSize : c.toNat < 0x10000 := by omega
          rw [unicodeEscape, hexDigits_four hSize,
            List.cons_prefix_cons] at h
          rcases h with ⟨rfl, hDigits⟩
          cases front with
          | nil => exact ⟨_, rfl⟩
          | cons e front =>
              rw [List.cons_prefix_cons] at hDigits
              rcases hDigits with ⟨rfl, hDigits⟩
              rcases numberedEscape_short
                  hDigits.length_le with
                ⟨e, hEscape⟩
              change readEscape opening ('u' :: front) = _
                at hEscape
              rw [readTextAfter, if_neg (by decide),
                if_pos rfl, hEscape]
              exact ⟨e, rfl⟩
        next hControl =>
          rcases ne_of_shortEscape_eq_none hShort with
            ⟨hQuote, hSlash⟩
          rw [List.cons_prefix_cons, List.prefix_nil] at h
          rcases h with ⟨rfl, rfl⟩
          rw [readTextAfter_plain hQuote hSlash hControl]
          exact hEnd.consChar d

/- A text whose closing quote is missing cannot be read. -/
theorem readTextAfter_breaksOff
    {cs front : List Char}
    (h : BreaksOff front (cs.flatMap compactChar ++ ['"']))
    (opening : Nat) :
    Fails (readTextAfter opening 0 front) := by
  induction cs generalizing front with
  | nil =>
      rw [h.singleton]
      exact ⟨_, rfl⟩
  | cons c cs ih =>
      rw [List.flatMap_cons, List.append_assoc] at h
      rcases h.append with
        ⟨back, -, hChar⟩ | ⟨rest, rfl, hRest⟩
      · exact readTextAfter_of_prefix ⟨back, hChar⟩ opening
      · by_cases hNil : rest = []
        · rw [hNil, List.append_nil]
          exact readTextAfter_of_prefix (List.prefix_refl _)
            opening
        · rw [readTextAfter_compactChar c opening hNil]
          exact (ih hRest).consChar c

theorem readText_breaksOff
    {s : String}
    {body front : List Char}
    (hBody : quoteWith compactChar s = '"' :: body)
    (h : BreaksOff front body) :
    Fails (readText front) := by
  have hText : body = s.toList.flatMap compactChar ++ ['"'] :=
    (List.cons.inj hBody).2.symm
  rw [hText] at h
  exact readTextAfter_breaksOff h _

----
-- Values in front of others
----

/-
  A value whose text breaks off cannot be read, unless it is a
  whole number.  Then nothing is left behind what is read.
-/
def CutShort
    (x : Json) : Prop :=
  ∀ front fuel,
    BreaksOff front x.compact →
      2 * front.length + 2 ≤ fuel →
        Fails (readValue fuel front) ∨
          (∃ n, x = .int n) ∧
            ∃ y, readValue fuel front = .ok (y, [])

/- No blank is skipped in front of a value. -/
theorem Plain.skipSpace_breaksOff
    {x : Json}
    (h : Plain x)
    {front after : List Char}
    (hFront : BreaksOff front (x.compact ++ after)) :
    skipSpace front = front := by
  rcases h.compact_eq_cons with ⟨c, cs, hText, hBegins⟩
  rw [hText, List.cons_append] at hFront
  rcases hFront.cons with rfl | ⟨rest, rfl, -⟩
  · rfl
  · exact skipSpace_cons hBegins rest

/- What begins with a comma or a bracket ends a number. -/
theorem endsNumber_of_breaksOff
    {c : Char}
    {rest after : List Char}
    (hEnds : EndsNumber [c])
    (h : BreaksOff rest (c :: after)) :
    EndsNumber rest := by
  rcases h.cons with rfl | ⟨left, rfl, -⟩
  · intro d hd
    cases hd
  · exact hEnds

/-
  A value in front of something that breaks off: it cannot be
  read, or nothing is left behind what is read, or the value
  is read.
-/
theorem readValue_breaksOff
    {x : Json}
    (hPlain : Plain x)
    (hCut : CutShort x)
    {c : Char}
    (hEnds : EndsNumber [c])
    {front after : List Char}
    (hFront : BreaksOff front (x.compact ++ c :: after))
    {fuel : Nat}
    (hFuel : 2 * front.length + 2 ≤ fuel) :
    Fails (readValue fuel front) ∨
      (∃ y, readValue fuel front = .ok (y, [])) ∨
      ∃ rest,
        front.length = x.compact.length + rest.length + 1 ∧
          readValue fuel front = .ok (x, c :: rest) ∧
          BreaksOff rest after := by
  rcases hFront.append with hBreaks | ⟨left, rfl, hLeft⟩
  · rcases hCut front fuel hBreaks hFuel with
      hFails | ⟨-, hRead⟩
    · exact Or.inl hFails
    · exact Or.inr (Or.inl hRead)
  · have hRead := hPlain.readsBack fuel left
      (by rw [List.length_append] at hFuel; omega)
      (endsNumber_of_breaksOff hEnds hLeft)
    rcases hLeft.cons with rfl | ⟨rest, rfl, hRest⟩
    · exact Or.inr (Or.inl ⟨x, hRead⟩)
    · refine Or.inr (Or.inr ⟨rest, ?_, hRead, hRest⟩)
      rw [List.length_append, List.length_cons]
      omega

/-
  An item that breaks off, or what follows it does.  The item
  is read in the latter case.
-/
theorem readItems_item_breaksOff
    {x : Json}
    (h : Plain x ∧ CutShort x)
    {c : Char}
    (hEnds : EndsNumber [c])
    {front after : List Char}
    (hFront : BreaksOff front (x.compact ++ c :: after))
    {fuel : Nat}
    (hFuel : 2 * front.length + 2 ≤ fuel) :
    Fails (readItems (fuel + 1) front) ∨
      ∃ rest,
        rest.length + 1 ≤ front.length ∧
          readValue fuel front = .ok (x, c :: rest) ∧
          BreaksOff rest after := by
  rcases readValue_breaksOff h.1 h.2 hEnds hFront hFuel with
    ⟨e, hRead⟩ | ⟨y, hRead⟩ | ⟨rest, hLength, hRead, hRest⟩
  · rw [readItems, hRead]
    exact Or.inl ⟨e, rfl⟩
  · rw [readItems, hRead]
    exact Or.inl ⟨_, rfl⟩
  · exact Or.inr ⟨rest, by omega, hRead, hRest⟩

/- Items whose closing bracket is missing. -/
theorem readItems_breaksOff
    {x : Json}
    {xs : List Json}
    (hItems : ∀ y ∈ x :: xs, Plain y ∧ CutShort y)
    {front : List Char}
    (hFront : BreaksOff front (x.compact ++ compactItems xs))
    {fuel : Nat}
    (hFuel : 2 * front.length + 3 ≤ fuel) :
    Fails (readItems fuel front) := by
  rcases Nat.exists_eq_add_one.mpr
      (by omega : 0 < fuel) with
    ⟨fuel, rfl⟩
  have hItem := hItems x List.mem_cons_self
  induction xs generalizing x front fuel with
  | nil =>
      have hEnds : EndsNumber [']'] := by simp [EndsNumber]
      rcases readItems_item_breaksOff hItem hEnds hFront
          (by omega : 2 * front.length + 2 ≤ fuel) with
        hFails | ⟨rest, -, -, hRest⟩
      · exact hFails
      · exact absurd hRest BreaksOff.not_nil
  | cons z zs ih =>
      have hEnds : EndsNumber [','] := by simp [EndsNumber]
      rcases readItems_item_breaksOff hItem hEnds hFront
          (by omega : 2 * front.length + 2 ≤ fuel) with
        hFails | ⟨rest, hLength, hRead, hRest⟩
      · exact hFails
      · have hLater :
            ∀ y ∈ z :: zs, Plain y ∧ CutShort y :=
          fun y hy => hItems y (List.mem_cons_of_mem x hy)
        have hNext := hLater z List.mem_cons_self
        have hSkip := hNext.1.skipSpace_breaksOff hRest
        have hComma : skipSpace (',' :: rest) = ',' :: rest :=
          rfl
        rcases Nat.exists_eq_add_one.mpr
            (by omega : 0 < fuel) with
          ⟨less, rfl⟩
        rcases ih hLater hRest less (by omega) hNext with
          ⟨e, hFails⟩
        rw [readItems, hRead]
        simp only [hComma, hSkip, hFails]
        exact ⟨e, rfl⟩

/-
  A field whose value or what follows it breaks off.  The rest
  of the fields is read with the field already among them.
-/
theorem readFields_field_breaksOff
    {k : String}
    {x : Json}
    (hPlain : Plain x)
    (hCut : CutShort x)
    {c : Char}
    (hEnds : EndsNumber [c])
    {front after : List Char}
    (hFront :
      BreaksOff front
        (quoteWith compactChar k ++
          ':' :: (x.compact ++ c :: after)))
    {fuel : Nat}
    (hFuel : 2 * front.length + 2 ≤ fuel)
    (acc : Table String Json) :
    Fails (readFields (fuel + 1) acc front) ∨
      ∃ rest,
        rest.length + 2 ≤ front.length ∧
          readFields (fuel + 1) acc front =
            readFieldsAfter fuel (Table.insert acc k x)
              (c :: rest) ∧
          BreaksOff rest after := by
  let body := k.toList.flatMap compactChar ++ ['"']
  have hQuoted : quoteWith compactChar k = '"' :: body := rfl
  have hText : ∀ rest,
      readText (body ++ rest) = .ok (k.toList, rest) := by
    intro rest
    rw [List.append_assoc, List.singleton_append]
    exact readText_quoted
      (fun c opening _ => readTextAfter_compactChar c opening)
      k.toList rest
  rw [hQuoted, List.cons_append] at hFront
  rcases hFront.cons with rfl | ⟨named, rfl, hNamed⟩
  · exact Or.inl ⟨_, rfl⟩
  rw [readFields]
  rcases hNamed.append with hName | ⟨colon, rfl, hColon⟩
  · rcases readText_breaksOff hQuoted hName with ⟨e, hRead⟩
    rw [hRead]
    exact Or.inl ⟨e, rfl⟩
  rw [hText]
  rcases hColon.cons with rfl | ⟨value, rfl, hValue⟩
  · exact Or.inl ⟨_, rfl⟩
  have hSkip := hPlain.skipSpace_breaksOff hValue
  have hNext : skipSpace (':' :: value) = ':' :: value := rfl
  simp only [List.length_cons, List.length_append] at hFuel
  simp only [hNext, hSkip, String.ofList_toList]
  rcases readValue_breaksOff hPlain hCut hEnds hValue
      (by omega : 2 * value.length + 2 ≤ fuel) with
    ⟨e, hRead⟩ | ⟨y, hRead⟩ | ⟨rest, hLength, hRead, hRest⟩
  · rw [hRead]
    exact Or.inl ⟨e, rfl⟩
  · rw [hRead]
    exact Or.inl ⟨_, rfl⟩
  · rw [hRead]
    refine Or.inr ⟨rest, ?_, rfl, hRest⟩
    simp only [List.length_cons, List.length_append]
    omega

/- Fields whose closing brace is missing. -/
theorem readFields_breaksOff
    {k : String}
    {x : Json}
    {fs : Table String Json}
    (hFields : ∀ f ∈ (k, x) :: fs, Plain f.2 ∧ CutShort f.2)
    {front : List Char}
    (hFront :
      BreaksOff front
        (quoteWith compactChar k ++
          ':' :: (x.compact ++ compactFields fs)))
    {fuel : Nat}
    (hFuel : 2 * front.length + 3 ≤ fuel)
    (acc : Table String Json) :
    Fails (readFields fuel acc front) := by
  induction fs generalizing k x front fuel acc with
  | nil =>
      rcases hFields (k, x) List.mem_cons_self with
        ⟨hPlain, hCut⟩
      rcases Nat.exists_eq_add_one.mpr
          (by omega : 0 < fuel) with
        ⟨fuel, rfl⟩
      have hEnds : EndsNumber ['}'] := by simp [EndsNumber]
      rcases readFields_field_breaksOff hPlain hCut hEnds
          hFront (by omega : 2 * front.length + 2 ≤ fuel)
          acc with
        hFails | ⟨rest, -, -, hRest⟩
      · exact hFails
      · exact absurd hRest BreaksOff.not_nil
  | cons f fs ih =>
      rcases f with ⟨l, y⟩
      rcases hFields (k, x) List.mem_cons_self with
        ⟨hPlain, hCut⟩
      rcases Nat.exists_eq_add_one.mpr
          (by omega : 0 < fuel) with
        ⟨fuel, rfl⟩
      have hEnds : EndsNumber [','] := by simp [EndsNumber]
      have hComma :
          compactFields ((l, y) :: fs) =
            ',' :: (quoteWith compactChar l ++
              ':' :: (y.compact ++ compactFields fs)) := by
        simp [compactFields]
      rw [hComma] at hFront
      rcases readFields_field_breaksOff hPlain hCut hEnds
          hFront (by omega : 2 * front.length + 2 ≤ fuel)
          acc with
        hFails | ⟨rest, hLength, hRead, hRest⟩
      · exact hFails
      · have hLater :
            ∀ f ∈ (l, y) :: fs, Plain f.2 ∧ CutShort f.2 :=
          fun f hf => hFields f (List.mem_cons_of_mem _ hf)
        have hSkip : skipSpace rest = rest := by
          rcases hRest.cons with rfl | ⟨left, rfl, -⟩
          · rfl
          · rfl
        have hNext : skipSpace (',' :: rest) = ',' :: rest :=
          rfl
        rw [hRead]
        simp only [readFieldsAfter, hNext, hSkip]
        exact ih hLater hRest
          (by omega : 2 * rest.length + 3 ≤ fuel) _

----
-- Atoms
----

/- No beginning of a name is a value. -/
theorem readAtom_name_breaksOff
    {front word : List Char}
    (hWord :
      word ∈ ["null".toList, "true".toList, "false".toList])
    (h : BreaksOff front word) :
    Fails (readAtom front) := by
  have hNone :
      ∀ word ∈
          ["null".toList, "true".toList, "false".toList],
        ∀ k < word.length,
          (readAtom (word.take k)).isOk = false := by
    decide
  have hRead := hNone word hWord front.length h.length_lt
  rcases h with ⟨back, -, rfl⟩
  rw [List.take_left] at hRead
  cases hResult : readAtom front with
  | error e => exact ⟨e, rfl⟩
  | ok r =>
      rw [hResult] at hRead
      cases hRead

/-
  The digits of a number can break off after any of them, and
  no zero leads them then.
-/
theorem readUnsigned_breaksOff
    {n : Nat}
    {c : Char}
    {front : List Char}
    (h : BreaksOff (c :: front) (Nat.toDigits 10 n))
    (negative : Bool) :
    c.isDigit = true ∧
      ∃ y, readUnsigned negative (c :: front) =
        some (y, []) := by
  have hMore : n ≠ 0 := by
    rintro rfl
    have hLength := h.length_lt
    simp at hLength
  rcases toDigits_eq_cons hMore with ⟨d, ds, hDigits, hLead⟩
  have hAll : ∀ e ∈ c :: front, e.isDigit = true := by
    intro e he
    rcases h with ⟨back, -, hWhole⟩
    apply Text.isDigit_of_mem_toDigits (n := n)
    rw [← hWhole]
    exact List.mem_append_left _ he
  have hHead : c.isDigit = true := hAll c List.mem_cons_self
  have hTail : ∀ e ∈ front, e.isDigit = true :=
    fun e he => hAll e (List.mem_cons_of_mem c he)
  have hFirst : c = d := by
    rcases h with ⟨back, -, hWhole⟩
    rw [hDigits] at hWhole
    exact (List.cons.inj hWhole).1
  have hTake : front.takeWhile Char.isDigit = front :=
    List.takeWhile_eq_self_iff.mpr hTail
  have hDrop : front.dropWhile Char.isDigit = [] :=
    List.dropWhile_eq_nil_iff.mpr hTail
  have hWhole :
      readWhole (c :: front) = some (c :: front, []) := by
    rw [hFirst] at hHead ⊢
    simp [readWhole, hHead, hTake, hDrop]
  refine ⟨hHead, ?_⟩
  simp [readUnsigned, hWhole, readFraction, readExponent]

theorem readAtom_integer_breaksOff
    {n : Int}
    {front : List Char}
    (h : BreaksOff front (integerChars n)) :
    Fails (readAtom front) ∨
      ∃ y, readAtom front = .ok (y, []) := by
  cases front with
  | nil => exact Or.inl ⟨_, rfl⟩
  | cons c front =>
      by_cases hNegative : n < 0
      · rw [integerChars, if_pos hNegative] at h
        rcases h.cons with hNil | ⟨rest, hRest, hDigits⟩
        · cases hNil
        · cases hRest
          cases front with
          | nil => exact Or.inl ⟨_, rfl⟩
          | cons d front =>
              rcases readUnsigned_breaksOff hDigits true with
                ⟨hDigit, y, hRead⟩
              refine Or.inr ⟨y, ?_⟩
              rw [readAtom, (readNamed_digit hDigit front).2]
              simp only [readNumber, hRead]
      · rw [integerChars, if_neg hNegative] at h
        rcases readUnsigned_breaksOff h false with
          ⟨hDigit, y, hRead⟩
        have hSign : c ≠ '-' := by
          rintro rfl
          simp at hDigit
        refine Or.inr ⟨y, ?_⟩
        rw [readAtom, (readNamed_digit hDigit front).1]
        simp [readNumber, hSign, hRead]

----
-- All values
----

theorem readValue_nil
    (fuel : Nat) :
    Fails (readValue fuel []) := by
  cases fuel with
  | zero => exact ⟨_, rfl⟩
  | succ fuel => exact ⟨_, rfl⟩

/- A name or a number that breaks off is read as an atom. -/
theorem readValue_atom_breaksOff
    {c : Char}
    {front rest : List Char}
    (hBegins : c ≠ '"' ∧ c ≠ '[' ∧ c ≠ '{')
    (h : BreaksOff front (c :: rest))
    {fuel : Nat}
    (hFuel : 0 < fuel) :
    readValue fuel front = readAtom front := by
  rcases Nat.exists_eq_add_one.mpr hFuel with ⟨fuel, rfl⟩
  rcases h.cons with rfl | ⟨left, rfl, -⟩
  · rfl
  · exact readValue_atom hBegins.1 hBegins.2.1 hBegins.2.2
      fuel left

/- A list fails if its items do. -/
theorem fails_list
    {inner : List Char}
    {fuel : Nat}
    (hSkip : skipSpace inner = inner)
    (hOpen : inner.head? ≠ some ']')
    (h : Fails (readItems fuel inner)) :
    Fails (readValue (fuel + 1) ('[' :: inner)) := by
  rcases h with ⟨e, hRead⟩
  rw [readValue, hSkip]
  split
  next after => exact absurd rfl hOpen
  next =>
    rw [hRead]
    exact ⟨e, rfl⟩

/- An object fails if its fields do. -/
theorem fails_object
    {inner : List Char}
    {fuel : Nat}
    (hSkip : skipSpace inner = inner)
    (hOpen : inner.head? ≠ some '}')
    (h : Fails (readFields fuel [] inner)) :
    Fails (readValue (fuel + 1) ('{' :: inner)) := by
  rcases h with ⟨e, hRead⟩
  rw [readValue, hSkip]
  split
  next after => exact absurd rfl hOpen
  next =>
    rw [hRead]
    exact ⟨e, rfl⟩

/- A list that breaks off. -/
theorem cutShort_arr
    {items : List Json}
    (hItems : ∀ y ∈ items, Plain y ∧ CutShort y)
    {front : List Char}
    (hFront : BreaksOff front (Json.arr items).compact)
    {fuel : Nat}
    (hFuel : 2 * front.length + 2 ≤ fuel) :
    Fails (readValue fuel front) := by
  rcases Nat.exists_eq_add_one.mpr
      (by omega : 0 < fuel) with
    ⟨fuel, rfl⟩
  cases items with
  | nil =>
      rcases hFront.cons with rfl | ⟨inner, rfl, hInner⟩
      · exact readValue_nil _
      · rw [hInner.singleton] at hFuel ⊢
        apply fails_list rfl (by simp)
        rcases Nat.exists_eq_add_one.mpr
            (by simp at hFuel; omega : 0 < fuel) with
          ⟨fuel, rfl⟩
        rcases readValue_nil fuel with ⟨e, hRead⟩
        rw [readItems, hRead]
        exact ⟨e, rfl⟩
  | cons y ys =>
      rw [compact, List.cons_append] at hFront
      rcases hFront.cons with rfl | ⟨inner, rfl, hInner⟩
      · exact readValue_nil _
      · have hPlain := (hItems y List.mem_cons_self).1
        rw [List.length_cons] at hFuel
        apply fails_list (hPlain.skipSpace_breaksOff hInner)
        · rcases hPlain.compact_eq_cons with
            ⟨c, cs, hText, hBegins⟩
          rw [hText, List.cons_append] at hInner
          rcases hInner.cons with rfl | ⟨left, rfl, -⟩
          · simp
          · simpa using hBegins.2.1
        · exact readItems_breaksOff hItems hInner (by omega)

/- An object that breaks off. -/
theorem cutShort_obj
    {fields : Table String Json}
    (hFields : ∀ f ∈ fields, Plain f.2 ∧ CutShort f.2)
    {front : List Char}
    (hFront : BreaksOff front (Json.obj fields).compact)
    {fuel : Nat}
    (hFuel : 2 * front.length + 2 ≤ fuel) :
    Fails (readValue fuel front) := by
  rcases Nat.exists_eq_add_one.mpr
      (by omega : 0 < fuel) with
    ⟨fuel, rfl⟩
  cases fields with
  | nil =>
      rcases hFront.cons with rfl | ⟨inner, rfl, hInner⟩
      · exact readValue_nil _
      · rw [hInner.singleton] at hFuel ⊢
        apply fails_object rfl (by simp)
        rcases Nat.exists_eq_add_one.mpr
            (by simp at hFuel; omega : 0 < fuel) with
          ⟨fuel, rfl⟩
        exact ⟨_, rfl⟩
  | cons f fs =>
      rcases f with ⟨k, x⟩
      have hText :
          (Json.obj ((k, x) :: fs)).compact =
            '{' :: (quoteWith compactChar k ++
              ':' :: (x.compact ++ compactFields fs)) := by
        simp [compact]
      rw [hText] at hFront
      rcases hFront.cons with rfl | ⟨inner, rfl, hInner⟩
      · exact readValue_nil _
      · rw [List.length_cons] at hFuel
        have hRead :=
          readFields_breaksOff hFields hInner
            (by omega : 2 * inner.length + 3 ≤ fuel) []
        rcases hInner.cons with rfl | ⟨left, rfl, -⟩
        · exact fails_object rfl (by simp) hRead
        · exact fails_object rfl (by simp) hRead

/-
  The text of a value that breaks off.  The items of a list
  and the fields of an object break off by induction.
-/
theorem Plain.cutShort
    {x : Json}
    (h : Plain x) :
    CutShort x := by
  induction h with
  | null =>
      intro front fuel hFront hFuel
      rw [readValue_atom_breaksOff (by decide) hFront
        (by omega)]
      exact Or.inl
        (readAtom_name_breaksOff (by decide) hFront)
  | bool b =>
      intro front fuel hFront hFuel
      cases b with
      | true =>
          rw [readValue_atom_breaksOff (by decide) hFront
            (by omega)]
          exact Or.inl
            (readAtom_name_breaksOff (by decide) hFront)
      | false =>
          rw [readValue_atom_breaksOff (by decide) hFront
            (by omega)]
          exact Or.inl
            (readAtom_name_breaksOff (by decide) hFront)
  | int n hSize =>
      intro front fuel hFront hFuel
      rcases integerChars_eq_cons n with ⟨c, cs, hText, hHead⟩
      have hBegins : c ≠ '"' ∧ c ≠ '[' ∧ c ≠ '{' := by
        refine ⟨?_, ?_, ?_⟩ <;>
          · rintro rfl
            simp at hHead
      have hAtom := readAtom_integer_breaksOff hFront
      rw [compact, hText] at hFront
      rw [readValue_atom_breaksOff hBegins hFront (by omega)]
      rcases hAtom with hFails | hRead
      · exact Or.inl hFails
      · exact Or.inr ⟨⟨n, rfl⟩, hRead⟩
  | str s =>
      intro front fuel hFront hFuel
      rcases Nat.exists_eq_add_one.mpr
          (by omega : 0 < fuel) with
        ⟨fuel, rfl⟩
      rcases readText_compact s [] with ⟨body, hQuoted, -⟩
      rw [compact, hQuoted] at hFront
      rcases hFront.cons with rfl | ⟨text, rfl, hText⟩
      · exact Or.inl (readValue_nil _)
      · rcases readText_breaksOff hQuoted hText with
          ⟨e, hRead⟩
        rw [readValue, hRead]
        exact Or.inl ⟨e, rfl⟩
  | arr items hItems ih =>
      intro front fuel hFront hFuel
      exact Or.inl (cutShort_arr
        (fun y hy => ⟨hItems y hy, ih y hy⟩) hFront hFuel)
  | obj fields hNames hFields ih =>
      intro front fuel hFront hFuel
      exact Or.inl (cutShort_obj
        (fun f hf => ⟨hFields f hf, ih f hf⟩) hFront hFuel)

----
-- Characters of compact text
----

/- Whether a character is no control character. -/
def isPrinted
    (c : Char) : Bool :=
  decide (0x20 ≤ c.toNat)

/- Short escapes are printed. -/
theorem printed_of_shortEscape
    {c : Char}
    {cs : List Char}
    (h : shortEscape c = some cs) :
    cs.all isPrinted = true := by
  unfold shortEscape at h
  repeat' split at h
  all_goals cases h
  all_goals rfl

/- Every character of a text is printed in its layout. -/
theorem printed_compactChar
    (c : Char) :
    (compactChar c).all isPrinted = true := by
  have hEscapes :
      ∀ n < 0x20, (unicodeEscape n).all isPrinted = true := by
    decide +kernel
  rw [compactChar]
  split
  next cs hShort => exact printed_of_shortEscape hShort
  next =>
    split
    next hControl => exact hEscapes _ hControl
    next hPrinted =>
      rw [List.all_cons, List.all_nil, Bool.and_true]
      exact decide_eq_true (Nat.le_of_not_lt hPrinted)

/- A text between quotes is printed. -/
theorem printed_quoted
    (s : String) :
    (quoteWith compactChar s).all isPrinted = true := by
  have hQuote : isPrinted '"' = true := rfl
  have hText :
      (s.toList.flatMap compactChar).all isPrinted = true := by
    rw [List.all_flatMap, List.all_eq_true]
    exact fun c _ => printed_compactChar c
  rw [quoteWith, List.cons_append, List.all_cons,
    List.all_append, hQuote, hText]
  rfl

/- Digits are printed. -/
theorem printed_toDigits
    (n : Nat) :
    (Nat.toDigits 10 n).all isPrinted = true := by
  refine List.all_eq_true.mpr fun d hd => ?_
  have hRange := Text.toNat_of_isDigit
    (Text.isDigit_of_mem_toDigits hd)
  exact decide_eq_true (by omega)

/- The items of a list are printed if each of them is. -/
theorem printed_compactItems
    {items : List Json}
    (h : ∀ y ∈ items, y.compact.all isPrinted = true) :
    (compactItems items).all isPrinted = true := by
  induction items with
  | nil => rfl
  | cons y ys ih =>
      have hComma : isPrinted ',' = true := rfl
      have hRest := ih fun z hz =>
        h z (List.mem_cons_of_mem _ hz)
      rw [compactItems, List.cons_append, List.all_cons,
        List.all_append, hComma, h y List.mem_cons_self,
        hRest]
      rfl

/- The fields of an object are printed if their values are. -/
theorem printed_compactFields
    {fields : Table String Json}
    (h : ∀ f ∈ fields, f.2.compact.all isPrinted = true) :
    (compactFields fields).all isPrinted = true := by
  induction fields with
  | nil => rfl
  | cons f fs ih =>
      rcases f with ⟨k, x⟩
      have hComma : isPrinted ',' = true := rfl
      have hColon : isPrinted ':' = true := rfl
      have hValue := h (k, x) List.mem_cons_self
      have hRest := ih fun g hg =>
        h g (List.mem_cons_of_mem _ hg)
      rw [compactFields, List.cons_append, List.cons_append,
        List.all_cons, List.all_append, List.all_append,
        List.all_cons, hComma, printed_quoted, hColon, hValue,
        hRest]
      rfl

/- Compact text is printed on one line. -/
theorem Plain.printed
    {x : Json}
    (h : Plain x) :
    x.compact.all isPrinted = true := by
  induction h with
  | null => rfl
  | bool b => cases b <;> rfl
  | int n hSize =>
      have hMinus : isPrinted '-' = true := rfl
      rw [compact, integerChars]
      split
      · rw [List.all_cons, hMinus, printed_toDigits]
        rfl
      · exact printed_toDigits _
  | str s => exact printed_quoted s
  | arr items hItems ih =>
      cases items with
      | nil => rfl
      | cons y ys => exact printed_compactItems ih
  | obj fields hNames hFields ih =>
      cases fields with
      | nil => rfl
      | cons f fs => exact printed_compactFields ih

/- The text of an object ends with its brace. -/
theorem compact_obj_eq_concat
    (fields : Table String Json) :
    ∃ cs, (Json.obj fields).compact = cs ++ ['}'] := by
  have hFields :
      ∀ fs, ∃ cs, compactFields fs = cs ++ ['}'] := by
    intro fs
    induction fs with
    | nil => exact ⟨[], rfl⟩
    | cons f fs ih =>
        rcases ih with ⟨cs, hCs⟩
        rcases f with ⟨k, x⟩
        rw [compactFields, hCs, ← List.append_assoc]
        exact ⟨_, rfl⟩
  cases fields with
  | nil => exact ⟨['{'], rfl⟩
  | cons f fs =>
      rcases hFields fs with ⟨cs, hCs⟩
      rcases f with ⟨k, x⟩
      rw [compact, hCs, ← List.append_assoc]
      exact ⟨_, rfl⟩

----
-- Whole texts
----

/- No beginning of the text of an object can be read. -/
theorem read_breaksOff
    {fields : Table String Json}
    (h : Plain (.obj fields))
    {front : List Char}
    (hFront : BreaksOff front (Json.obj fields).compact) :
    Fails (read front) := by
  unfold read
  split
  next => exact ⟨_, rfl⟩
  next =>
    have hWhole := hFront
    rw [← List.append_nil (Json.obj fields).compact] at hWhole
    rw [h.skipSpace_breaksOff hWhole]
    rcases h.cutShort front (2 * front.length + 2) hFront
        (by omega) with
      ⟨e, hRead⟩ | ⟨⟨n, hEq⟩, -⟩
    · rw [hRead]
      exact ⟨e, rfl⟩
    · cases hEq

/- Nothing but blanks may follow the text of a value. -/
theorem read_followed
    {x : Json}
    (h : Plain x)
    {c : Char}
    (hEnds : EndsNumber [c])
    (hSpace : isSpace c = false)
    (after : List Char) :
    Fails (read (x.compact ++ c :: after)) := by
  have hValue :=
    h.readsBack (2 * (x.compact ++ c :: after).length + 2)
      (c :: after)
      (by rw [List.length_append]; omega) hEnds
  have hRest : skipSpace (c :: after) = c :: after :=
    List.dropWhile_cons_of_neg (by rw [hSpace]; simp)
  unfold read
  split
  next => exact ⟨_, rfl⟩
  next =>
    rw [h.skipSpace_compact, hValue]
    simp only [hRest]
    exact ⟨_, rfl⟩

end Json

end StyleCompanion
