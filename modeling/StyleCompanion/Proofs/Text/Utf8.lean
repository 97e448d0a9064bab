import StyleCompanion.Text.Utf8
import Mathlib.Tactic.SplitIfs

/-
  The UTF-8 form of a text is read back as the text.

  The bytes of a character in front of other bytes are
  scanned as that character, so a written text is scanned
  character by character and nothing in it is faulty.  Bytes
  behind those of a text do not change how these are read.

  Main declarations:
    * `front_encodeChar`
    * `scan_encode`
    * `decode_encode`
    * `asciiOnly_encode`
    * `decode_append`
-/

namespace StyleCompanion

namespace Utf8

----
-- Bytes
----

/- A number below 256 survives as a byte. -/
theorem toNat_ofNat_of_lt
    {n : Nat}
    (h : n < 256) :
    (UInt8.ofNat n).toNat = n := by
  simpa using Nat.mod_eq_of_lt h

/- Whether a small number lies in a range, as a byte. -/
theorem within_ofNat
    {lo hi n : Nat}
    (h : n < 256) :
    within lo hi (UInt8.ofNat n) =
      (decide (lo ≤ n) && decide (n ≤ hi)) := by
  rw [within, toNat_ofNat_of_lt h]

/- The payload of a continuation byte that was written. -/
theorem payload_ofNat
    {n : Nat}
    (h : n < 64) :
    payload (UInt8.ofNat (0x80 + n)) = n := by
  have hByte : 0x80 + n < 256 := by omega
  have hNumber := toNat_ofNat_of_lt hByte
  unfold payload
  omega

/- A written continuation byte continues a character. -/
theorem isContinuation_ofNat
    {n : Nat}
    (h : n < 64) :
    isContinuation (UInt8.ofNat (0x80 + n)) = true := by
  rw [isContinuation, within_ofNat (by omega)]
  simp
  omega

/- The number of a character is no surrogate. -/
theorem toNat_valid
    (c : Char) :
    c.toNat < 0xD800 ∨
      0xDFFF < c.toNat ∧ c.toNat < 0x110000 :=
  c.valid

----
-- One character
----

/- The two bytes of a character are that character. -/
theorem frontTwo_encoded
    {n : Nat}
    (hLow : 0x80 ≤ n)
    (hHigh : n < 0x800)
    (rest : List UInt8) :
    frontTwo (0xC0 + n / 64)
        (UInt8.ofNat (0x80 + n % 64) :: rest) =
      .char (Char.ofNat n) 2 := by
  have hSecond :
      isSecond (0xC0 + n / 64)
        (UInt8.ofNat (0x80 + n % 64)) = true := by
    rw [isSecond, within_ofNat (by omega), secondRange]
    have hLead : n / 64 < 32 := by omega
    split_ifs <;> simp <;> omega
  rw [frontTwo, if_pos hSecond, payload_ofNat (by omega)]
  congr 2
  omega

/- The three bytes of a character are that character. -/
theorem frontThree_encoded
    {n : Nat}
    (hLow : 0x800 ≤ n)
    (hHigh : n < 0x10000)
    (hValid : n < 0xD800 ∨ 0xDFFF < n)
    (rest : List UInt8) :
    frontThree (0xE0 + n / 4096)
        (UInt8.ofNat (0x80 + n / 64 % 64) ::
          UInt8.ofNat (0x80 + n % 64) :: rest) =
      .char (Char.ofNat n) 3 := by
  have hSecond :
      isSecond (0xE0 + n / 4096)
        (UInt8.ofNat (0x80 + n / 64 % 64)) = true := by
    rw [isSecond, within_ofNat (by omega), secondRange]
    split_ifs <;> simp <;> omega
  rw [frontThree, if_pos hSecond]
  rw [if_pos (isContinuation_ofNat (by omega)),
    payload_ofNat (by omega), payload_ofNat (by omega)]
  congr 2
  omega

/- The four bytes of a character are that character. -/
theorem frontFour_encoded
    {n : Nat}
    (hLow : 0x10000 ≤ n)
    (hHigh : n < 0x110000)
    (rest : List UInt8) :
    frontFour (0xF0 + n / 262144)
        (UInt8.ofNat (0x80 + n / 4096 % 64) ::
          UInt8.ofNat (0x80 + n / 64 % 64) ::
          UInt8.ofNat (0x80 + n % 64) :: rest) =
      .char (Char.ofNat n) 4 := by
  have hSecond :
      isSecond (0xF0 + n / 262144)
        (UInt8.ofNat (0x80 + n / 4096 % 64)) = true := by
    rw [isSecond, within_ofNat (by omega), secondRange]
    split_ifs <;> simp <;> omega
  rw [frontFour, if_pos hSecond]
  rw [if_pos (isContinuation_ofNat (by omega))]
  rw [if_pos (isContinuation_ofNat (by omega)),
    payload_ofNat (by omega), payload_ofNat (by omega),
    payload_ofNat (by omega)]
  congr 2
  omega

/- The bytes of a character in front are that character. -/
theorem front_encodeChar
    (c : Char)
    (rest : List UInt8) :
    ∃ b bs,
      encodeChar c = b :: bs ∧
        front b (bs ++ rest) = .char c (bs.length + 1) := by
  have hValid := toNat_valid c
  by_cases h₁ : c.toNat < 0x80
  · refine ⟨_, _, by rw [encodeChar, if_pos h₁], ?_⟩
    rw [front, toNat_ofNat_of_lt (by omega), if_pos h₁,
      Char.ofNat_toNat]
    rfl
  by_cases h₂ : c.toNat < 0x800
  · refine ⟨_, _,
      by rw [encodeChar, if_neg h₁, if_pos h₂], ?_⟩
    rw [front, toNat_ofNat_of_lt (by omega),
      if_neg (by omega), if_neg (by omega),
      if_pos (by omega)]
    rw [List.singleton_append,
      frontTwo_encoded (by omega) h₂, Char.ofNat_toNat]
    rfl
  by_cases h₃ : c.toNat < 0x10000
  · refine ⟨_, _,
      by rw [encodeChar, if_neg h₁, if_neg h₂, if_pos h₃],
      ?_⟩
    rw [front, toNat_ofNat_of_lt (by omega),
      if_neg (by omega), if_neg (by omega),
      if_neg (by omega), if_pos (by omega)]
    rw [List.cons_append, List.singleton_append,
      frontThree_encoded (by omega) h₃ (by omega),
      Char.ofNat_toNat]
    rfl
  · refine ⟨_, _,
      by rw [encodeChar, if_neg h₁, if_neg h₂, if_neg h₃],
      ?_⟩
    rw [front, toNat_ofNat_of_lt (by omega),
      if_neg (by omega), if_neg (by omega),
      if_neg (by omega), if_neg (by omega),
      if_pos (by omega)]
    rw [List.cons_append, List.cons_append,
      List.singleton_append,
      frontFour_encoded (by omega) (by omega),
      Char.ofNat_toNat]
    rfl

----
-- Texts
----

/- Skipped bytes are gone. -/
theorem scanAfter_append
    (bs rest : List UInt8) :
    scanAfter bs.length (bs ++ rest) = scanAfter 0 rest := by
  induction bs with
  | nil => rfl
  | cons b bs ih =>
      rw [List.length_cons, List.cons_append, scanAfter]
      exact ih

/- A written text is scanned character by character. -/
theorem scan_encode
    (cs : List Char) :
    scan (encode cs) =
      cs.map fun c => .char c (encodeChar c).length := by
  rw [scan]
  induction cs with
  | nil => rfl
  | cons c cs ih =>
      rcases front_encodeChar c (encode cs) with
        ⟨b, bs, hBytes, hFront⟩
      have hCons :
          encode (c :: cs) = b :: (bs ++ encode cs) := by
        rw [encode, List.flatMap_cons, hBytes]
        rfl
      rw [hCons, scanAfter, hFront, List.map_cons, hBytes]
      simp only [Piece.size, Nat.add_sub_cancel,
        List.length_cons]
      rw [scanAfter_append, ih]

/- Pieces without a fault are read as their characters. -/
theorem readPieces_chars
    (bs : List UInt8)
    (start : Nat)
    (size : Char → Nat)
    (cs : List Char) :
    readPieces bs start
        (cs.map fun c => .char c (size c)) =
      .ok cs := by
  induction cs generalizing start with
  | nil => rfl
  | cons c cs ih => rw [List.map_cons, readPieces, ih]

/- A written text is read back. -/
theorem decode_encode
    (cs : List Char) :
    decode (encode cs) = .ok cs := by
  rw [decode, scan_encode, readPieces_chars]

/- A text in two parts is written part by part. -/
theorem encode_append
    (cs ds : List Char) :
    encode (cs ++ ds) = encode cs ++ encode ds :=
  List.flatMap_append

/- A written ASCII text is read back byte by byte. -/
theorem asciiOnly_encode
    {cs : List Char}
    (h : ∀ c ∈ cs, c.toNat < 0x80) :
    asciiOnly (encode cs) = cs := by
  induction cs with
  | nil => rfl
  | cons c cs ih =>
      have hHead : c.toNat < 0x80 := h c (by simp)
      have hTail : asciiOnly (encode cs) = cs :=
        ih fun d hd => h d (by simp [hd])
      have hByte :
          (UInt8.ofNat c.toNat).toNat = c.toNat :=
        toNat_ofNat_of_lt (by omega)
      have hCons :
          encode (c :: cs) =
            UInt8.ofNat c.toNat :: encode cs := by
        rw [encode, List.flatMap_cons, encodeChar,
          if_pos hHead]
        rfl
      rw [asciiOnly] at hTail
      rw [hCons, asciiOnly, List.filter_cons_of_pos
        (by rw [hByte]; exact decide_eq_true hHead),
        List.map_cons, hByte, Char.ofNat_toNat, hTail]

/- The ASCII text of bytes in two parts. -/
theorem asciiOnly_append
    (as bs : List UInt8) :
    asciiOnly (as ++ bs) = asciiOnly as ++ asciiOnly bs := by
  simp only [asciiOnly, List.filter_append, List.map_append]

/- An ASCII byte among others is in their ASCII text. -/
theorem mem_asciiOnly
    {b : UInt8}
    {bs : List UInt8}
    (hAscii : b.toNat < 0x80)
    (h : b ∈ bs) :
    Char.ofNat b.toNat ∈ asciiOnly bs := by
  refine List.mem_map.mpr ⟨b, ?_, rfl⟩
  exact List.mem_filter.mpr ⟨h, decide_eq_true hAscii⟩

/- A character of the ASCII text is a byte. -/
theorem mem_of_mem_asciiOnly
    {c : Char}
    {bs : List UInt8}
    (h : c ∈ asciiOnly bs) :
    UInt8.ofNat c.toNat ∈ bs := by
  rcases List.mem_map.mp h with ⟨b, hb, rfl⟩
  rcases List.mem_filter.mp hb with ⟨hMem, hAscii⟩
  have hNumber : (Char.ofNat b.toNat).toNat = b.toNat := by
    have hSmall := of_decide_eq_true hAscii
    rw [Char.ofNat, dif_pos (Or.inl (by omega))]
    rfl
  rw [hNumber, UInt8.ofNat_toNat]
  exact hMem

/- ASCII text is written as one byte for each character. -/
theorem encode_of_ascii
    {cs : List Char}
    (h : ∀ c ∈ cs, c.toNat < 0x80) :
    encode cs = cs.map fun c => UInt8.ofNat c.toNat := by
  induction cs with
  | nil => rfl
  | cons c cs ih =>
      have hHead : c.toNat < 0x80 := h c (by simp)
      have hTail := ih fun d hd => h d (by simp [hd])
      rw [encode] at hTail
      rw [encode, List.flatMap_cons, encodeChar,
        if_pos hHead, hTail]
      rfl

/- The bytes of a character beyond ASCII are beyond ASCII. -/
theorem toNat_of_mem_encodeChar
    {b : UInt8}
    {c : Char}
    (h : b ∈ encodeChar c) :
    b.toNat = c.toNat ∨ 0x80 ≤ b.toNat := by
  have hValid := toNat_valid c
  have hByte :
      ∃ n < 256, b = UInt8.ofNat n ∧
        (n = c.toNat ∨ 0x80 ≤ n) := by
    unfold encodeChar at h
    dsimp only at h
    split_ifs at h <;> simp only [List.mem_cons,
      List.not_mem_nil, or_false] at h
    · exact ⟨_, by omega, h, Or.inl rfl⟩
    · rcases h with h | h <;>
        exact ⟨_, by omega, h, Or.inr (by omega)⟩
    · rcases h with h | h | h <;>
        exact ⟨_, by omega, h, Or.inr (by omega)⟩
    · rcases h with h | h | h | h <;>
        exact ⟨_, by omega, h, Or.inr (by omega)⟩
  rcases hByte with ⟨n, hSmall, rfl, hNumber⟩
  rw [toNat_ofNat_of_lt hSmall]
  exact hNumber

/- An ASCII byte of a written text is a character of it. -/
theorem mem_of_mem_encode
    {b : UInt8}
    (hAscii : b.toNat < 0x80)
    {cs : List Char}
    (h : b ∈ encode cs) :
    Char.ofNat b.toNat ∈ cs := by
  rcases List.mem_flatMap.mp h with ⟨c, hc, hByte⟩
  rcases toNat_of_mem_encodeChar hByte with hSame | hBeyond
  · rw [hSame, Char.ofNat_toNat]
    exact hc
  · omega

----
-- Parts of a text
----

/- The character of a piece, if it has no fault. -/
def Piece.char? : Piece → Option Char
  | .char c _ => some c
  | .faulty _ _ => none

/- Pieces are read if and only if none of them has a fault. -/
theorem readPieces_eq_ok_iff
    (bs : List UInt8)
    (start : Nat)
    (ps : List Piece)
    (cs : List Char) :
    readPieces bs start ps = .ok cs ↔
      ps.map Piece.char? = cs.map some := by
  induction ps generalizing start cs with
  | nil => cases cs <;> simp [readPieces]
  | cons p ps ih =>
      cases p with
      | faulty f n =>
          cases cs <;> simp [readPieces, Piece.char?]
      | char c n =>
          have hCons :
              readPieces bs start (.char c n :: ps) = .ok cs ↔
                ∃ ds, readPieces bs (start + n) ps = .ok ds ∧
                  cs = c :: ds := by
            rw [readPieces]
            cases readPieces bs (start + n) ps with
            | error e => simp
            | ok ds => simp [eq_comm]
          rw [hCons]
          simp only [ih]
          cases cs with
          | nil => simp
          | cons d ds =>
              rw [List.map_cons, List.map_cons,
                List.cons.injEq, Piece.char?,
                Option.some.injEq]
              constructor
              · rintro ⟨es, hEs, hCs⟩
                cases hCs
                exact ⟨rfl, hEs⟩
              · rintro ⟨rfl, hDs⟩
                exact ⟨ds, hDs, rfl⟩

/- The second byte of a character is there. -/
theorem frontTwo_append
    {lead : Nat}
    {rest : List UInt8}
    {c : Char}
    {n : Nat}
    (h : frontTwo lead rest = .char c n)
    (more : List UInt8) :
    frontTwo lead (rest ++ more) = .char c n ∧
      n ≤ rest.length + 1 := by
  cases rest with
  | nil => simp [frontTwo] at h
  | cons b₁ rest =>
      refine ⟨h, ?_⟩
      rw [frontTwo] at h
      split_ifs at h
      rw [Piece.char.injEq] at h
      rw [List.length_cons]
      omega

/- The second and the third byte of a character are there. -/
theorem frontThree_append
    {lead : Nat}
    {rest : List UInt8}
    {c : Char}
    {n : Nat}
    (h : frontThree lead rest = .char c n)
    (more : List UInt8) :
    frontThree lead (rest ++ more) = .char c n ∧
      n ≤ rest.length + 1 := by
  rcases rest with _ | ⟨b₁, _ | ⟨b₂, rest⟩⟩
  · simp [frontThree] at h
  · rw [frontThree] at h
    split_ifs at h
  · refine ⟨h, ?_⟩
    rw [frontThree] at h
    split_ifs at h
    rw [Piece.char.injEq] at h
    simp only [List.length_cons]
    omega

/- All four bytes of a character are there. -/
theorem frontFour_append
    {lead : Nat}
    {rest : List UInt8}
    {c : Char}
    {n : Nat}
    (h : frontFour lead rest = .char c n)
    (more : List UInt8) :
    frontFour lead (rest ++ more) = .char c n ∧
      n ≤ rest.length + 1 := by
  rcases rest with _ | ⟨b₁, _ | ⟨b₂, _ | ⟨b₃, rest⟩⟩⟩
  · simp [frontFour] at h
  · rw [frontFour] at h
    split_ifs at h
  · rw [frontFour] at h
    split_ifs at h
  · refine ⟨h, ?_⟩
    rw [frontFour] at h
    split_ifs at h
    rw [Piece.char.injEq] at h
    simp only [List.length_cons]
    omega

/-
  A character in front stays the same if bytes are put behind
  the others, since all its bytes are there.
-/
theorem front_append
    {b : UInt8}
    {rest : List UInt8}
    {c : Char}
    {n : Nat}
    (h : front b rest = .char c n)
    (more : List UInt8) :
    front b (rest ++ more) = .char c n ∧
      n ≤ rest.length + 1 := by
  unfold front at h ⊢
  dsimp only at h ⊢
  split_ifs at h ⊢
  · refine ⟨h, ?_⟩
    rw [Piece.char.injEq] at h
    omega
  · exact frontTwo_append h more
  · exact frontThree_append h more
  · exact frontFour_append h more

/- Bytes without a fault are scanned as if they stood alone. -/
theorem scanAfter_append_of_chars
    {skip : Nat}
    {bs : List UInt8}
    (hSkip : skip ≤ bs.length)
    {cs : List Char}
    (h : (scanAfter skip bs).map Piece.char? = cs.map some)
    (more : List UInt8) :
    scanAfter skip (bs ++ more) =
      scanAfter skip bs ++ scanAfter 0 more := by
  induction bs generalizing skip cs with
  | nil =>
      rw [List.length_nil, Nat.le_zero] at hSkip
      subst hSkip
      rfl
  | cons b bs ih =>
      cases skip with
      | succ k =>
          rw [List.cons_append, scanAfter, scanAfter]
          rw [scanAfter] at h
          exact ih (by simpa using hSkip) h
      | zero =>
          rw [scanAfter] at h
          cases cs with
          | nil => simp at h
          | cons c cs =>
              rw [List.map_cons, List.map_cons,
                List.cons.injEq] at h
              rcases h with ⟨hPiece, hRest⟩
              cases hFront : front b bs with
              | faulty f n => simp [hFront, Piece.char?] at hPiece
              | char d n =>
                  rcases front_append hFront more with
                    ⟨hMore, hSize⟩
                  rw [hFront] at hRest
                  rw [List.cons_append, scanAfter, scanAfter,
                    hMore, hFront]
                  simp only [Piece.size] at hRest ⊢
                  rw [ih (by omega) hRest]
                  rfl

/- Bytes that are read in two parts are read as a whole. -/
theorem decode_append
    {as bs : List UInt8}
    {front whole : List Char}
    (hFront : decode as = .ok front)
    (hWhole : decode (as ++ bs) = .ok whole) :
    ∃ back, decode bs = .ok back ∧ whole = front ++ back := by
  have hChars := (readPieces_eq_ok_iff _ _ _ _).mp hFront
  have hScan :
      scan (as ++ bs) = scan as ++ scan bs :=
    scanAfter_append_of_chars (Nat.zero_le _) hChars bs
  rw [decode, readPieces_eq_ok_iff, hScan, List.map_append,
    hChars] at hWhole
  rcases List.map_eq_append_iff.mp hWhole.symm with
    ⟨start, back, rfl, hStart, hBack⟩
  refine ⟨back,
    (readPieces_eq_ok_iff _ _ _ _).mpr hBack.symm, ?_⟩
  rw [(List.map_inj_right fun _ _ => Option.some.inj).mp
    hStart]

/- Only no bytes are read as no text. -/
theorem eq_nil_of_decode_eq_nil
    {bs : List UInt8}
    (h : decode bs = .ok []) :
    bs = [] := by
  have hPieces := (readPieces_eq_ok_iff _ _ _ _).mp h
  cases bs with
  | nil => rfl
  | cons b bs => simp [scan, scanAfter] at hPieces

end Utf8

end StyleCompanion
