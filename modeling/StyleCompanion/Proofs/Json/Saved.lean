import StyleCompanion.Proofs.Json.Ordered
import StyleCompanion.Proofs.Json.RoundTrip
import StyleCompanion.Proofs.Text.Utf8

/-
  Saved text is read back.

  The saved layout of a value without doubles is read as the
  value with its fields sorted.  Characters beyond the first
  65536 are saved as two escapes, which are read as one.  The
  items of a block stand on lines of their own, and the blanks
  between them are skipped.

  Main declarations:
    * `Json.readText_saved`
    * `Json.WrittenAs`
    * `Json.WrittenAs.items`
    * `Json.WrittenAs.fields`
    * `Json.writtenAs_saved`
    * `Json.read_saved`
-/

namespace StyleCompanion

namespace Json

----
-- Texts
----

/- Two escapes that are the halves of a pair are one. -/
theorem readTextAfter_pair
    {high low : Nat}
    (hHigh : isHighSurrogate high = true)
    (hLow : isLowSurrogate low = true)
    (opening : Nat)
    {rest : List Char}
    (hRest : rest ≠ []) :
    readTextAfter opening 0
        (unicodeEscape high ++ (unicodeEscape low ++ rest)) =
      consChar (pairChar high low)
        (readTextAfter opening 0 rest) := by
  rcases List.exists_cons_of_ne_nil hRest with ⟨e, rest, rfl⟩
  have hHighSize : high < 0x10000 := by
    simp only [isHighSurrogate, Bool.and_eq_true,
      decide_eq_true_eq] at hHigh
    omega
  have hLowSize : low < 0x10000 := by
    simp only [isLowSurrogate, Bool.and_eq_true,
      decide_eq_true_eq] at hLow
    omega
  have hEscape :
      readEscape opening
          ('u' :: (Text.hexDigits 4 high ++
            (unicodeEscape low ++ e :: rest))) =
        .ok (pairChar high low, 11) := by
    rw [unicodeEscape, hexDigits_four hHighSize,
      hexDigits_four hLowSize]
    simp [readEscape, numberedEscape, hexFour_digits hHighSize,
      hexFour_digits hLowSize, hHigh, hLow]
  have hSkip :
      readTextAfter opening 11
          ('u' :: (Text.hexDigits 4 high ++
            (unicodeEscape low ++ e :: rest))) =
        readTextAfter opening 0 (e :: rest) := by
    rw [unicodeEscape, hexDigits_four hHighSize,
      hexDigits_four hLowSize]
    rfl
  have hOpen :
      unicodeEscape high ++ (unicodeEscape low ++ e :: rest) =
        '\\' :: 'u' :: (Text.hexDigits 4 high ++
          (unicodeEscape low ++ e :: rest)) :=
    rfl
  rw [hOpen, readTextAfter, if_neg (by decide), if_pos rfl,
    hEscape]
  dsimp only
  rw [hSkip]

/- A character of the saved layout is read back. -/
theorem readTextAfter_savedChar
    (c : Char)
    (opening : Nat)
    (rest : List Char)
    (hRest : rest ≠ []) :
    readTextAfter opening 0 (savedChar c ++ rest) =
      consChar c (readTextAfter opening 0 rest) := by
  have hValid := Utf8.toNat_valid c
  rw [savedChar]
  cases hShort : shortEscape c with
  | some cs =>
      rcases letterEscape_of_shortEscape hShort with
        ⟨letter, rfl, hEscape⟩
      exact readTextAfter_letter hEscape opening rest
  | none =>
      dsimp only
      split
      next hPrintable =>
        rcases ne_of_shortEscape_eq_none hShort with
          ⟨hQuote, hSlash⟩
        exact readTextAfter_plain hQuote hSlash (by omega)
          opening rest
      next hEscaped =>
        split
        next hUnit =>
          have hHigh : isHighSurrogate c.toNat = false := by
            simp [isHighSurrogate]
            omega
          have hLow : isLowSurrogate c.toNat = false := by
            simp [isLowSurrogate]
            omega
          rw [readTextAfter_unicodeEscape hUnit hHigh hLow
              opening hRest,
            Char.ofNat_toNat]
        next hPair =>
          have hHigh :
              isHighSurrogate
                (0xD800 + (c.toNat - 0x10000) / 0x400) =
                true := by
            simp [isHighSurrogate]
            omega
          have hLow :
              isLowSurrogate
                (0xDC00 + (c.toNat - 0x10000) % 0x400) =
                true := by
            simp [isLowSurrogate]
            omega
          have hChar :
              pairChar (0xD800 + (c.toNat - 0x10000) / 0x400)
                (0xDC00 + (c.toNat - 0x10000) % 0x400) = c := by
            have hNumber :
                0x10000 +
                    (0xD800 + (c.toNat - 0x10000) / 0x400 -
                      0xD800) * 0x400 +
                    (0xDC00 + (c.toNat - 0x10000) % 0x400 -
                      0xDC00) =
                  c.toNat := by
              omega
            rw [pairChar, hNumber, Char.ofNat_toNat]
          rw [List.append_assoc,
            readTextAfter_pair hHigh hLow opening hRest, hChar]

/- A text in the saved layout is read back. -/
theorem readText_saved
    (s : String)
    (rest : List Char) :
    ∃ body,
      quoteWith savedChar s = '"' :: body ∧
        readText (body ++ rest) = .ok (s.toList, rest) :=
  readText_quoteWith readTextAfter_savedChar s rest

----
-- Blocks
----

/- A text that is read as a value. -/
structure WrittenAs
    (cs : List Char)
    (x : Json) : Prop where
  begins : ∃ c ds, cs = c :: ds ∧ BeginsValue c
  reads :
    ∀ fuel rest,
      cs.length ≤ fuel → EndsNumber rest →
        readValue fuel (cs ++ rest) = .ok (x, rest)

/- What stands in a block after its first part. -/
def blockRest
    (closing : Char)
    (depth : Nat)
    (parts : List (List Char)) : List Char :=
  match parts with
  | [] => lineBreak depth ++ [closing]
  | part :: rest =>
      ',' :: (lineBreak (depth + 1) ++
        (part ++ blockRest closing depth rest))

theorem blockRest_eq
    (closing : Char)
    (depth : Nat)
    (parts : List (List Char)) :
    parts.flatMap (fun p => ',' :: lineBreak (depth + 1) ++ p) ++
        (lineBreak depth ++ [closing]) =
      blockRest closing depth parts := by
  induction parts with
  | nil => rfl
  | cons part rest ih =>
      rw [List.flatMap_cons, List.append_assoc, ih, blockRest,
        List.cons_append, List.cons_append, List.append_assoc]

theorem layBlock_cons
    (opening closing : Char)
    (depth : Nat)
    (part : List Char)
    (parts : List (List Char)) :
    layBlock opening closing depth (part :: parts) =
      opening :: (lineBreak (depth + 1) ++
        (part ++ blockRest closing depth parts)) := by
  rw [layBlock, ← blockRest_eq]
  simp only [List.cons_append, List.append_assoc]

/- Line breaks are skipped. -/
theorem skipSpace_lineBreak
    (depth : Nat)
    (cs : List Char) :
    skipSpace (lineBreak depth ++ cs) = skipSpace cs := by
  have hBlanks :
      ∀ n, skipSpace (List.replicate n ' ' ++ cs) =
        skipSpace cs := by
    intro n
    induction n with
    | zero => rfl
    | succ n ih =>
        rw [List.replicate_succ, List.cons_append, skipSpace,
          List.dropWhile_cons_of_pos (by decide)]
        exact ih
  rw [lineBreak, List.cons_append, skipSpace,
    List.dropWhile_cons_of_pos (by decide)]
  exact hBlanks (2 * depth)

/- A comma or a line break ends a number. -/
theorem endsNumber_blockRest
    (closing : Char)
    (depth : Nat)
    (parts : List (List Char))
    (rest : List Char) :
    EndsNumber (blockRest closing depth parts ++ rest) := by
  cases parts <;> simp [EndsNumber, blockRest, lineBreak]

/- No blank stands in front of a written value. -/
theorem WrittenAs.skipSpace
    {cs : List Char}
    {x : Json}
    (h : WrittenAs cs x)
    (rest : List Char) :
    Json.skipSpace (cs ++ rest) = cs ++ rest := by
  rcases h.begins with ⟨c, ds, rfl, hBegins⟩
  exact skipSpace_cons hBegins _

----
-- Lists
----

/- Items that are written in a block are read one by one. -/
theorem readItems_block
    (depth : Nat)
    (p : List Char × Json)
    (ps : List (List Char × Json))
    (h : ∀ q ∈ p :: ps, WrittenAs q.1 q.2)
    (fuel : Nat)
    (rest : List Char)
    (hFuel :
      p.1.length +
          (blockRest ']' depth (ps.map (·.1))).length ≤
        fuel) :
    readItems fuel
        (p.1 ++ (blockRest ']' depth (ps.map (·.1)) ++ rest)) =
      .ok (p.2 :: ps.map (·.2), rest) := by
  induction ps generalizing p fuel with
  | nil =>
      cases fuel with
      | zero => simp [blockRest, lineBreak] at hFuel
      | succ fuel =>
          have hValue :=
            (h p List.mem_cons_self).reads fuel
              (blockRest ']' depth [] ++ rest)
              (by simp [blockRest, lineBreak] at hFuel; omega)
              (endsNumber_blockRest ']' depth [] rest)
          have hClosing :
              skipSpace (blockRest ']' depth [] ++ rest) =
                ']' :: rest := by
            rw [blockRest, List.append_assoc,
              skipSpace_lineBreak]
            rfl
          rw [List.map_nil, readItems, hValue]
          simp only [hClosing]
          rfl
  | cons q qs ih =>
      cases fuel with
      | zero => simp [blockRest] at hFuel
      | succ fuel =>
          simp only [List.map_cons, blockRest, List.length_cons,
            List.length_append] at hFuel
          have hValue :=
            (h p List.mem_cons_self).reads fuel
              (blockRest ']' depth ((q :: qs).map (·.1)) ++ rest)
              (by omega)
              (endsNumber_blockRest ']' depth _ rest)
          have hRest := ih q
            (fun r hr => h r (List.mem_cons_of_mem p hr)) fuel
            (by omega)
          have hComma :
              blockRest ']' depth ((q :: qs).map (·.1)) ++
                  rest =
                ',' :: (lineBreak (depth + 1) ++
                  (q.1 ++ (blockRest ']' depth (qs.map (·.1)) ++
                    rest))) := by
            simp [blockRest]
          have hSkip :
              ∀ cs, skipSpace (',' :: cs) = ',' :: cs :=
            fun _ => rfl
          have hBlank :=
            (h q (List.mem_cons_of_mem p
              List.mem_cons_self)).skipSpace
              (blockRest ']' depth (qs.map (·.1)) ++ rest)
          rw [readItems, hValue, hComma]
          simp only [hSkip, skipSpace_lineBreak, hBlank, hRest]
          rfl

/- A block of written items is a written list. -/
theorem WrittenAs.items
    (depth : Nat)
    {ps : List (List Char × Json)}
    (h : ∀ p ∈ ps, WrittenAs p.1 p.2) :
    WrittenAs (layBlock '[' ']' depth (ps.map (·.1)))
      (.arr (ps.map (·.2))) := by
  cases ps with
  | nil =>
      refine ⟨⟨_, _, rfl, by decide⟩, ?_⟩
      intro fuel rest hFuel _
      cases fuel with
      | zero => simp [layBlock] at hFuel
      | succ fuel => rfl
  | cons p ps =>
      rw [List.map_cons, layBlock_cons]
      refine ⟨⟨_, _, rfl, by decide⟩, ?_⟩
      intro fuel rest hFuel _
      cases fuel with
      | zero => simp at hFuel
      | succ fuel =>
          simp only [List.length_cons, List.length_append]
            at hFuel
          have hRead := readItems_block depth p ps h fuel rest
            (by omega)
          have hFirst := h p List.mem_cons_self
          have hBlank := hFirst.skipSpace
            (blockRest ']' depth (ps.map (·.1)) ++ rest)
          rcases hFirst.begins with ⟨c, ds, hText, hBegins⟩
          rw [hText, List.cons_append] at hRead hBlank
          rw [List.cons_append, List.append_assoc,
            List.append_assoc, hText, List.cons_append, readValue,
            skipSpace_lineBreak, hBlank]
          simp [hBegins.2.1, hRead]

----
-- Objects
----

/- A name with a text and the value it is read as. -/
structure WrittenField where
  name : String
  text : List Char
  value : Json

namespace WrittenField

/- The text of a field. -/
def line
    (f : WrittenField) : List Char :=
  quoteWith savedChar f.name ++ ':' :: ' ' :: f.text

/- The field that is read. -/
def field
    (f : WrittenField) : String × Json :=
  (f.name, f.value)

end WrittenField

theorem WrittenField.length_text_lt
    (f : WrittenField) :
    f.text.length < f.line.length := by
  rw [line, List.length_append, List.length_cons,
    List.length_cons]
  omega

/- One field in front of what follows it is read back. -/
theorem readFields_line
    {f : WrittenField}
    {acc : Table String Json}
    (hWritten : WrittenAs f.text f.value)
    (hName : f.name ∉ Table.keys acc)
    {fuel : Nat}
    (hFuel : f.text.length ≤ fuel)
    {after : List Char}
    (hAfter : EndsNumber after) :
    readFields (fuel + 1) acc (f.line ++ after) =
      readFieldsAfter fuel (acc ++ [f.field]) after := by
  have hLine :
      f.line ++ after =
        quoteWith savedChar f.name ++
          ':' :: ' ' :: (f.text ++ after) := by
    simp [WrittenField.line]
  rcases readText_saved f.name
      (':' :: ' ' :: (f.text ++ after)) with
    ⟨body, hQuoted, hText⟩
  have hColon :
      ∀ cs, skipSpace (':' :: cs) = ':' :: cs :=
    fun _ => rfl
  have hBlank :
      skipSpace (' ' :: (f.text ++ after)) = f.text ++ after :=
    hWritten.skipSpace after
  have hValue := hWritten.reads fuel after hFuel hAfter
  have hInsert := Table.insert_of_notMem_keys hName f.value
  rw [hLine, hQuoted, List.cons_append, readFields, hText]
  simp only [hColon, hBlank, hValue, String.ofList_toList,
    hInsert]
  rfl

/-
  Fields that are written in a block are read one by one,
  behind the fields read before them, if no name comes twice.
-/
theorem readFields_block
    (depth : Nat)
    (f : WrittenField)
    (fs : List WrittenField)
    (acc : Table String Json)
    (h : ∀ g ∈ f :: fs, WrittenAs g.text g.value)
    (hNames :
      (Table.keys (acc ++ (f :: fs).map (·.field))).Nodup)
    (fuel : Nat)
    (rest : List Char)
    (hFuel :
      f.line.length +
          (blockRest '}' depth (fs.map (·.line))).length ≤
        fuel) :
    readFields fuel acc
        (f.line ++
          (blockRest '}' depth (fs.map (·.line)) ++ rest)) =
      .ok (acc ++ (f :: fs).map (·.field), rest) := by
  have hFirst := h f List.mem_cons_self
  have hName : f.name ∉ Table.keys acc :=
    Table.notMem_keys_of_nodup hNames
  have hLength := f.length_text_lt
  induction fs generalizing f acc fuel with
  | nil =>
      cases fuel with
      | zero => omega
      | succ fuel =>
          have hClosing :
              skipSpace (blockRest '}' depth [] ++ rest) =
                '}' :: rest := by
            rw [blockRest, List.append_assoc,
              skipSpace_lineBreak]
            rfl
          rw [List.map_nil,
            readFields_line hFirst hName (by omega)
              (endsNumber_blockRest '}' depth [] rest),
            readFieldsAfter, hClosing]
          rfl
  | cons g gs ih =>
      cases fuel with
      | zero => omega
      | succ fuel =>
          simp only [List.map_cons, blockRest, List.length_cons,
            List.length_append] at hFuel
          have hNext := h g
            (List.mem_cons_of_mem f List.mem_cons_self)
          have hNextNames :
              (Table.keys
                ((acc ++ [f.field]) ++
                  (g :: gs).map (·.field))).Nodup := by
            rw [List.append_assoc]
            exact hNames
          have hRest := ih g (acc ++ [f.field])
            (fun e he => h e (List.mem_cons_of_mem f he))
            hNextNames fuel (by omega) hNext
            (Table.notMem_keys_of_nodup hNextNames)
            g.length_text_lt
          have hComma :
              blockRest '}' depth ((g :: gs).map (·.line)) ++
                  rest =
                ',' :: (lineBreak (depth + 1) ++
                  (g.line ++
                    (blockRest '}' depth (gs.map (·.line)) ++
                      rest))) := by
            simp [blockRest]
          have hSkip :
              ∀ cs, skipSpace (',' :: cs) = ',' :: cs :=
            fun _ => rfl
          have hQuote :
              ∀ cs, skipSpace (g.line ++ cs) = g.line ++ cs :=
            fun _ => rfl
          rw [readFields_line hFirst hName (by omega)
            (endsNumber_blockRest '}' depth _ rest), hComma]
          simp only [readFieldsAfter, hSkip, skipSpace_lineBreak,
            hQuote, hRest, List.append_assoc]
          rfl

/- A block of written fields is a written object. -/
theorem WrittenAs.fields
    (depth : Nat)
    {fs : List WrittenField}
    (h : ∀ f ∈ fs, WrittenAs f.text f.value)
    (hNames : (Table.keys (fs.map (·.field))).Nodup) :
    WrittenAs (layBlock '{' '}' depth (fs.map (·.line)))
      (.obj (fs.map (·.field))) := by
  cases fs with
  | nil =>
      refine ⟨⟨_, _, rfl, by decide⟩, ?_⟩
      intro fuel rest hFuel _
      cases fuel with
      | zero => simp [layBlock] at hFuel
      | succ fuel => rfl
  | cons f fs =>
      rw [List.map_cons, layBlock_cons]
      refine ⟨⟨_, _, rfl, by decide⟩, ?_⟩
      intro fuel rest hFuel _
      cases fuel with
      | zero => simp at hFuel
      | succ fuel =>
          simp only [List.length_cons, List.length_append]
            at hFuel
          have hRead := readFields_block depth f fs [] h hNames
            fuel rest (by omega)
          have hOpen :
              ∃ tail,
                f.line ++
                    (blockRest '}' depth (fs.map (·.line)) ++
                      rest) =
                  '"' :: tail :=
            ⟨_, rfl⟩
          rcases hOpen with ⟨tail, hTail⟩
          have hSkip : Json.skipSpace ('"' :: tail) = '"' :: tail :=
            rfl
          rw [hTail] at hRead
          rw [List.cons_append, List.append_assoc,
            List.append_assoc, hTail, readValue,
            skipSpace_lineBreak, hSkip]
          simp [hRead]

----
-- Values
----

theorem savedItems_eq
    (depth : Nat)
    (xs : List Json) :
    savedItems depth xs = xs.map (saved (depth + 1)) := by
  induction xs with
  | nil => rfl
  | cons x xs ih => rw [savedItems, ih, List.map_cons]

theorem savedFields_eq
    (depth : Nat)
    (fs : Table String Json) :
    savedFields depth fs =
      fs.map fun f => (f.1, saved (depth + 1) f.2) := by
  induction fs with
  | nil => rfl
  | cons f fs ih =>
      rcases f with ⟨k, x⟩
      rw [savedFields, ih, List.map_cons]

/- Fields are sorted by name whatever their values are. -/
theorem sortByName_savedFields
    (depth : Nat)
    (fs : Table String Json) :
    sortByName (savedFields depth fs) =
      (sortFields fs).map
        fun f => (f.1, saved (depth + 1) f.2) := by
  rw [savedFields_eq, sortByName, sortFields,
    List.map_mergeSort]
  intro f _ g _
  rfl

/- A field with its saved text and its sorted value. -/
def writtenField
    (depth : Nat)
    (f : String × Json) : WrittenField where
  name := f.1
  text := saved (depth + 1) f.2
  value := ordered f.2

theorem saved_arr
    (depth : Nat)
    (xs : List Json) :
    saved depth (.arr xs) =
      layBlock '[' ']' depth
        ((xs.map fun x =>
          (saved (depth + 1) x, ordered x)).map (·.1)) := by
  rw [saved, savedItems_eq, List.map_map]
  rfl

theorem saved_obj
    (depth : Nat)
    (fs : Table String Json) :
    saved depth (.obj fs) =
      layBlock '{' '}' depth
        (((sortFields fs).map (writtenField depth)).map
          (·.line)) := by
  rw [saved, sortByName_savedFields, List.map_map,
    List.map_map]
  rfl

/- Numbers are written as they are read. -/
theorem writtenAs_integerChars
    (n : Int) :
    WrittenAs (integerChars n) (.int n) := by
  rcases integerChars_eq_cons n with ⟨c, cs, hText, hHead⟩
  have hOther : ∀ d, d ≠ '-' → d.isDigit = false → c ≠ d := by
    rintro d hMinus hDigit rfl
    rcases hHead with hHead | hHead
    · exact hMinus hHead
    · rw [hDigit] at hHead
      cases hHead
  constructor
  · refine ⟨c, cs, hText, ?_⟩
    rcases hHead with rfl | hDigit
    · decide
    · exact beginsValue_of_isDigit hDigit
  · intro fuel rest hFuel hRest
    have hRead := readAtom_integerChars n hRest
    cases fuel with
    | zero => simp [hText] at hFuel
    | succ fuel =>
        rw [hText, List.cons_append] at hRead ⊢
        rw [readValue_atom (hOther '"' (by decide) rfl)
            (hOther '[' (by decide) rfl)
            (hOther '{' (by decide) rfl),
          hRead]

/- Texts are written as they are read. -/
theorem writtenAs_text
    (s : String) :
    WrittenAs (quoteWith savedChar s) (.str s) := by
  refine ⟨⟨_, _, rfl, by decide⟩, ?_⟩
  intro fuel rest hFuel _
  rcases readText_saved s rest with ⟨body, hQuoted, hText⟩
  cases fuel with
  | zero => simp [hQuoted] at hFuel
  | succ fuel =>
      rw [hQuoted, List.cons_append, readValue, hText]
      simp

/-
  The saved layout is read as the value with sorted fields,
  by induction on the parts of the value.
-/
theorem writtenAs_saved
    {x : Json}
    (hDistinct : Distinct x)
    (hFree : DoubleFree x)
    (depth : Nat) :
    WrittenAs (saved depth x) (ordered x) := by
  have hBoth := hDistinct.and hFree
  clear hDistinct hFree
  induction hBoth generalizing depth with
  | @intro x hHere hParts ih =>
      rcases hHere with ⟨hNames, hNumber⟩
      cases x with
      | null =>
          refine ⟨⟨_, _, rfl, by decide⟩, ?_⟩
          intro fuel rest hFuel _
          cases fuel with
          | zero => cases hFuel
          | succ fuel => rfl
      | bool b =>
          cases b <;> refine ⟨⟨_, _, rfl, by decide⟩, ?_⟩ <;>
            intro fuel rest hFuel _ <;>
            cases fuel with
            | zero => cases hFuel
            | succ fuel => rfl
      | int n => exact writtenAs_integerChars n
      | float y => exact hNumber.elim
      | str s => exact writtenAs_text s
      | arr xs =>
          have hItems :
              ∀ p ∈ xs.map fun x =>
                  (saved (depth + 1) x, ordered x),
                WrittenAs p.1 p.2 := by
            intro p hp
            rcases List.mem_map.mp hp with ⟨x, hx, rfl⟩
            exact ih x hx (depth + 1)
          have hValues :
              (xs.map fun x =>
                  (saved (depth + 1) x, ordered x)).map (·.2) =
                xs.map ordered := by
            rw [List.map_map]
            rfl
          rw [saved_arr, ordered_arr, ← hValues]
          exact WrittenAs.items depth hItems
      | obj fs =>
          have hPerm := sortFields_perm fs
          have hFields :
              ∀ f ∈ (sortFields fs).map (writtenField depth),
                WrittenAs f.text f.value := by
            intro f hf
            rcases List.mem_map.mp hf with ⟨g, hg, rfl⟩
            exact ih g.2
              (List.mem_map_of_mem (hPerm.mem_iff.mp hg))
              (depth + 1)
          have hKeys :
              (Table.keys
                (((sortFields fs).map
                  (writtenField depth)).map
                    (·.field))).Nodup := by
            have hSorted : (Table.keys (sortFields fs)).Nodup :=
              (hPerm.map _).nodup_iff.mpr hNames
            rw [Table.keys, List.map_map, List.map_map]
            exact hSorted
          have hValues :
              ((sortFields fs).map (writtenField depth)).map
                  (·.field) =
                (sortFields fs).map
                  fun f => (f.1, ordered f.2) := by
            rw [List.map_map]
            rfl
          rw [saved_obj, ordered_obj, ← hValues]
          exact WrittenAs.fields depth hFields hKeys

/- Saved text is read as the value with sorted fields. -/
theorem read_saved
    {x : Json}
    (hDistinct : Distinct x)
    (hFree : DoubleFree x) :
    read (saved 0 x) = .ok (ordered x) := by
  have hWritten := writtenAs_saved hDistinct hFree 0
  have hBlank := hWritten.skipSpace []
  have hValue := hWritten.reads (2 * (saved 0 x).length + 2) []
    (by omega) (by simp [EndsNumber])
  have hMark :
      (saved 0 x).head? ≠ some (Char.ofNat 0xFEFF) := by
    rcases hWritten.begins with ⟨c, cs, hText, hBegins⟩
    rw [hText]
    simpa using hBegins.2.2
  rw [List.append_nil] at hValue hBlank
  rw [read, if_neg hMark, hBlank, hValue]
  rfl

end Json

end StyleCompanion
