import StyleCompanion.Proofs.Settings.Loading

/-
  Settings that conform to the schema.

  Whatever a load gives conforms to the schema, except that a
  colour of the palette may have one newline after it.  That
  is so exactly if the palette of the file has such a text.
  Settings that conform are left as they are by the rules.

  Main declarations:
    * `Settings.IsColor`
    * `Settings.isHexColor_iff`
    * `Settings.Conforms`
    * `Settings.conforms_normalize`
    * `Settings.normalize_of_conforms`
    * `SettingsStore.load_conforms`
-/

namespace StyleCompanion

namespace Settings

----
-- Colours
----

/- The hexadecimal digits. -/
def hexDigits : List Char :=
  "0123456789abcdefABCDEF".toList

/-
  A text is a colour: a hash sign, six or eight hexadecimal
  digits and nothing else.
-/
def IsColor
    (text : String) : Prop :=
  ∃ digits : List Char,
    text.toList = '#' :: digits ∧
      (digits.length = 6 ∨ digits.length = 8) ∧
      ∀ c ∈ digits, c ∈ hexDigits

/- A colour with a newline after it. -/
def IsStray
    (text : String) : Prop :=
  ∃ color, IsColor color ∧ text = color ++ "\n"

theorem isHexDigit_iff
    (c : Char) :
    isHexDigit c = true ↔ c ∈ hexDigits := by
  constructor
  · intro h
    have hSmall : c.toNat < 128 := by
      simp only [isHexDigit, Char.isDigit, Bool.or_eq_true,
        Bool.and_eq_true, decide_eq_true_eq, Char.le_def,
        UInt32.le_iff_toNat_le] at h
      have hVal : c.val.toNat = c.toNat := rfl
      have hNine : '9'.val.toNat = 57 := rfl
      have hLower : 'f'.val.toNat = 102 := rfl
      have hUpper : 'F'.val.toNat = 70 := rfl
      omega
    have hAscii :
        (List.range 128).all (fun n =>
          !isHexDigit (Char.ofNat n) ||
            hexDigits.contains (Char.ofNat n)) = true := by
      decide +kernel
    have hHere := List.all_eq_true.mp hAscii c.toNat
      (List.mem_range.mpr hSmall)
    rw [Char.ofNat_toNat, h, Bool.not_true, Bool.false_or]
      at hHere
    exact List.contains_iff_mem.mp hHere
  · have hAll : hexDigits.all isHexDigit = true := by
      decide +kernel
    exact List.all_eq_true.mp hAll c

theorem isHexBody_iff
    (cs : List Char) :
    isHexBody cs = true ↔
      (cs.length = 6 ∨ cs.length = 8) ∧
        ∀ c ∈ cs, c ∈ hexDigits := by
  simp only [isHexBody, Bool.and_eq_true, Bool.or_eq_true,
    decide_eq_true_eq, List.all_eq_true, isHexDigit_iff]

theorem isHexColor_of_toList
    {text : String}
    {cs : List Char}
    (h : text.toList = '#' :: cs) :
    isHexColor text =
      (isHexBody cs ||
        (cs.getLast? == some '\n' && isHexBody cs.dropLast)) := by
  rw [isHexColor, h]
  rfl

/- Colours are accepted, and so are stray ones. -/
theorem isHexColor_iff
    (text : String) :
    isHexColor text = true ↔ IsColor text ∨ IsStray text := by
  constructor
  · intro h
    rw [isHexColor] at h
    split at h
    next cs hList =>
      rw [Bool.or_eq_true, Bool.and_eq_true, beq_iff_eq] at h
      rcases h with hBody | ⟨hLast, hBody⟩
      · exact Or.inl ⟨cs, hList, (isHexBody_iff cs).mp hBody⟩
      · refine Or.inr ⟨String.ofList ('#' :: cs.dropLast),
          ⟨cs.dropLast, String.toList_ofList,
            (isHexBody_iff _).mp hBody⟩, ?_⟩
        have hSplit : cs = cs.dropLast ++ ['\n'] :=
          (List.dropLast_append_getLast? '\n' hLast).symm
        apply String.toList_inj.mp
        rw [String.toList_append, String.toList_ofList, hList]
        exact congrArg ('#' :: ·) hSplit
    next => cases h
  · rintro (⟨cs, hList, hBody⟩ | ⟨color, ⟨cs, hList, hBody⟩, rfl⟩)
    · have hHex := (isHexBody_iff cs).mpr hBody
      rw [isHexColor_of_toList hList, hHex, Bool.true_or]
    · have hHex := (isHexBody_iff cs).mpr hBody
      have hStray :
          (color ++ "\n").toList = '#' :: (cs ++ ['\n']) := by
        rw [String.toList_append, hList]
        rfl
      rw [isHexColor_of_toList hStray, List.getLast?_concat,
        List.dropLast_concat, hHex, beq_self_eq_true,
        Bool.and_true, Bool.or_true]

/- A stray colour is no colour: a newline is no digit. -/
theorem not_isColor_of_isStray
    {text : String}
    (h : IsStray text) :
    ¬ IsColor text := by
  rcases h with ⟨color, ⟨ds, hList, -, -⟩, rfl⟩
  rintro ⟨digits, hDigits, -, hHex⟩
  rw [String.toList_append, hList] at hDigits
  have hNewline : '\n' ∈ digits := by
    have hTail := (List.cons.inj hDigits).2
    rw [← hTail]
    exact List.mem_append_right ds List.mem_cons_self
  exact absurd (hHex '\n' hNewline) (by decide)

----
-- The schema
----

/- Settings with values as the application asks for them. -/
structure Conforms
    (Color : String → Prop)
    (t : Tree) : Prop where
  palette : IsPalette Color (valueAt t "overlay.palette")
  lineAlpha : IsWithin 0 255 (valueAt t "overlay.line_alpha")
  enabled : ∃ b, valueAt t "overlay.enabled" = .bool b
  overwrittenStyle :
    IsOneOf overwrittenStyles
      (valueAt t "overlay.overwritten_style")
  fontSize : IsWithin 6 72 (valueAt t "editor.font_size")
  fontFamily : IsTrimmed (valueAt t "editor.font_family")
  logLevel : IsOneOf logLevels (valueAt t "log.level")
  serverArgs : ∃ xs, valueAt t "server.args" = .arr xs
  serverEnv : ∃ fs, valueAt t "server.env" = .obj fs

/- Only the palette is about colours. -/
theorem Conforms.of_palette
    {Color Other : String → Prop}
    {t : Tree}
    (h : Conforms Color t)
    (hPalette : IsPalette Other (valueAt t "overlay.palette")) :
    Conforms Other t :=
  { h with palette := hPalette }

variable {r : Rule}
variable {Fatal Good : Json → Prop}
variable {data t : Tree}
variable {changed : Bool}

/- The value that a rule leaves at its key. -/
theorem valueAt_of_normalize
    (hMem : r ∈ rules)
    (hRun : normalize appDefaults data = (t, .ok changed)) :
    ∃ w,
      r.wanted appDefaults data = .ok w ∧
        valueAt t r.key = w.getD (valueAt data r.key) := by
  have hOk : (runRules rules appDefaults data).2 =
      .ok changed := congrArg Prod.snd hRun
  have hTree : (runRules rules appDefaults data).1 = t :=
    congrArg Prod.fst hRun
  rcases wanted_of_runRules_ok rulesApart_rules hOk r hMem
    with ⟨w, hWanted⟩
  have hLookup := lookup_runRules_of_mem rulesApart_rules
    hMem hOk hWanted
  refine ⟨w, hWanted, ?_⟩
  rw [hTree] at hLookup
  rw [valueAt, Tree.get, ← Rule.path, hLookup, Option.getD_or]
  rfl

/- What a rule enforces holds of the value it leaves. -/
theorem good_of_normalize
    (hMem : r ∈ rules)
    (hEnforces :
      r.Enforces (valueAt appDefaults r.key) Fatal Good)
    (hRun : normalize appDefaults data = (t, .ok changed)) :
    Good (valueAt t r.key) := by
  rcases valueAt_of_normalize hMem hRun with
    ⟨w, hWanted, hValue⟩
  rw [hValue]
  exact (hEnforces.good hWanted).1

/- The rules bring all settings into the form of the schema. -/
theorem conforms_normalize
    (hRun : normalize appDefaults data = (t, .ok changed)) :
    Conforms (fun c => isHexColor c = true) t := by
  have hMem := forall_rules_iff.mp fun q (hq : q ∈ rules) => hq
  rcases hMem with
    ⟨hPalette, hAlpha, hEnabled, hSize, hFamily, hStyle,
      hLevel, hArgs, hEnv⟩
  exact
    { palette := good_of_normalize hPalette enforces_palette hRun
      lineAlpha :=
        good_of_normalize hAlpha enforces_lineAlpha hRun
      enabled :=
        good_of_normalize hEnabled enforces_enabled hRun
      overwrittenStyle :=
        good_of_normalize hStyle enforces_overwrittenStyle hRun
      fontSize := good_of_normalize hSize enforces_fontSize hRun
      fontFamily :=
        good_of_normalize hFamily enforces_fontFamily hRun
      logLevel := good_of_normalize hLevel enforces_logLevel hRun
      serverArgs :=
        good_of_normalize hArgs enforces_serverArgs hRun
      serverEnv := good_of_normalize hEnv enforces_serverEnv hRun }

/- Settings that conform are left as they are. -/
theorem normalize_of_conforms
    (h : Conforms (fun c => isHexColor c = true) data) :
    normalize appDefaults data = (data, .ok false) :=
  runRules_of_idle (forall_rules_iff.mpr
    ⟨enforces_palette.idle _ h.palette,
      enforces_lineAlpha.idle _ h.lineAlpha,
      enforces_enabled.idle _ h.enabled,
      enforces_fontSize.idle _ h.fontSize,
      enforces_fontFamily.idle _ h.fontFamily,
      enforces_overwrittenStyle.idle _ h.overwrittenStyle,
      enforces_logLevel.idle _ h.logLevel,
      enforces_serverArgs.idle _ h.serverArgs,
      enforces_serverEnv.idle _ h.serverEnv⟩)

----
-- Stray colours
----

/- A list with a stray colour among the texts of its items. -/
def HoldsStray
    (x : Json) : Prop :=
  ∃ xs, x = .arr xs ∧ ∃ y ∈ xs, IsStray y.text

/- The last character of a stray colour. -/
theorem getLast?_of_isStray
    {text : String}
    (h : IsStray text) :
    text.toList.getLast? = some '\n' := by
  rcases h with ⟨color, -, rfl⟩
  rw [String.toList_append]
  exact List.getLast?_concat

theorem isColor_defaultPalette :
    ∀ c ∈ Overlay.defaultPalette, IsColor c := by
  have hHex : ∀ c ∈ Overlay.defaultPalette,
      isHexColor c = true ∧
        c.toList.getLast? ≠ some '\n' := by
    decide
  intro c hc
  rcases (isHexColor_iff c).mp (hHex c hc).1 with
    hColor | hStray
  · exact hColor
  · exact absurd (getLast?_of_isStray hStray) (hHex c hc).2

/- A palette is left with colours unless it has a stray one. -/
theorem isColor_paletteTexts_iff
    (x : Json) :
    (∀ c ∈ paletteTexts x, IsColor c) ↔ ¬ HoldsStray x := by
  constructor
  · rintro hColors ⟨xs, rfl, y, hy, hStray⟩
    have hMem : y.text ∈ colorTexts (.arr xs) :=
      List.mem_filter.mpr ⟨List.mem_map_of_mem hy,
        (isHexColor_iff _).mpr (Or.inr hStray)⟩
    have hSome : ¬ (colorTexts (.arr xs)).isEmpty = true :=
      fun hEmpty =>
        List.ne_nil_of_mem hMem (List.isEmpty_iff.mp hEmpty)
    rw [paletteTexts, if_neg hSome] at hColors
    exact not_isColor_of_isStray hStray (hColors _ hMem)
  · intro hNone c hc
    rw [paletteTexts] at hc
    split at hc
    next => exact isColor_defaultPalette c hc
    next =>
      cases x with
      | arr xs =>
          rcases List.mem_filter.mp hc with ⟨hText, hHex⟩
          rcases List.mem_map.mp hText with ⟨y, hy, rfl⟩
          rcases (isHexColor_iff _).mp hHex with
            hColor | hStray
          · exact hColor
          · exact absurd ⟨xs, rfl, y, hy, hStray⟩ hNone
      | _ => cases hc

/- The palette that the rules leave. -/
theorem palette_of_normalize
    (hRun : normalize appDefaults data = (t, .ok changed)) :
    valueAt t "overlay.palette" =
      .arr ((paletteTexts
        (valueAt data "overlay.palette")).map .str) := by
  rcases valueAt_of_normalize (r := paletteRule)
      List.mem_cons_self hRun with
    ⟨w, hWanted, hValue⟩
  have hFix := paletteRule_fix (valueAt data paletteRule.key)
  have hw := Except.ok.inj (hWanted.symm.trans hFix)
  rw [hw, getD_unlessSame_of_rigid (Json.rigid_texts _)]
    at hValue
  exact hValue

/- The palette has colours only unless it had a stray one. -/
theorem isPalette_of_normalize_iff
    (hRun : normalize appDefaults data = (t, .ok changed)) :
    IsPalette IsColor (valueAt t "overlay.palette") ↔
      ¬ HoldsStray (valueAt data "overlay.palette") := by
  rw [palette_of_normalize hRun, ← isColor_paletteTexts_iff]
  have hSome := (colors_of_paletteTexts
    (valueAt data "overlay.palette")).1
  constructor
  · rintro ⟨colors, hEq, -, hColors⟩
    have hTexts := List.map_injective_iff.mpr
      (fun a b (h : Json.str a = .str b) => Json.str.inj h)
      (Json.arr.inj hEq)
    rw [hTexts]
    exact hColors
  · intro hColors
    exact ⟨_, rfl, hSome, hColors⟩

/- Defaults neither bring a stray colour nor hide one. -/
theorem holdsStray_mergeDefaults_iff
    (fs : Tree) :
    HoldsStray
        (valueAt (Tree.mergeDefaults fs appDefaults)
          "overlay.palette") ↔
      HoldsStray (valueAt fs "overlay.palette") := by
  have hDefault :
      Tree.lookup (.obj appDefaults)
          (Tree.keyPath "overlay.palette") =
        some (.arr (Overlay.defaultPalette.map .str)) := by
    rfl
  rcases Tree.lookup_mergeDefaults_of_leaf
      distinct_appDefaults hDefault rfl fs with
    hValue | ⟨hNone, hTaken⟩
  · rw [valueAt, Tree.get, hValue]
    rfl
  · rw [valueAt, Tree.get, hTaken, valueAt, Tree.get, hNone]
    refine iff_of_false ?_ ?_
    · rintro ⟨xs, hEq, y, hy, hStray⟩
      rw [← Json.arr.inj hEq] at hy
      rcases List.mem_map.mp hy with ⟨c, hc, rfl⟩
      exact not_isColor_of_isStray hStray
        (isColor_defaultPalette c hc)
    · rintro ⟨xs, hEq, -⟩
      cases hEq

end Settings

----
-- Loaded settings
----

namespace SettingsStore

open Settings

/-
  Settings that a load gives conform to the schema up to stray
  colours, and in all if the file has no stray colour in its
  palette.
-/
theorem load_conforms
    (s : SettingsStore)
    (hDefaults : s.defaults = appDefaults)
    (found : FileState)
    (data : Tree)
    (h : (s.load found).2 = .ok data) :
    let palette :=
      valueAt (fileSettings s.path found) "overlay.palette"
    Conforms (fun c => IsColor c ∨ IsStray c) data ∧
      (Conforms IsColor data ↔ ¬ HoldsStray palette) := by
  intro palette
  rcases normalize_of_load h with ⟨changed, hRun⟩
  rw [hDefaults] at hRun
  have hConforms := conforms_normalize hRun
  have hStray := holdsStray_mergeDefaults_iff
    (fileSettings s.path found)
  have hPalette := isPalette_of_normalize_iff hRun
  rw [hStray] at hPalette
  constructor
  · rcases hConforms.palette with
      ⟨colors, hEq, hSome, hColors⟩
    exact hConforms.of_palette ⟨colors, hEq, hSome,
      fun c hc => (isHexColor_iff c).mp (hColors c hc)⟩
  · rw [← hPalette]
    exact ⟨fun hExact => hExact.palette,
      fun hExact => hConforms.of_palette hExact⟩

/- A settings file with a stray colour in its palette. -/
def strayFile : FileState :=
  .file (Utf8.ofString
    ("\x7b\"overlay\": " ++
      "\x7b\"palette\": [\"#aabbcc\\n\", 5]\x7d\x7d"))

/- The stray colour of the file is a colour after a load. -/
theorem strayFile_keeps_newline :
    let data := ((new "settings.json" appDefaults).load
      strayFile).1.data
    (valueAt data "overlay.palette").same
        (.arr [.str "#aabbcc\n"]) = true ∧
      ¬ IsColor "#aabbcc\n" := by
  refine ⟨by decide +kernel, ?_⟩
  rintro ⟨digits, hList, hLength, -⟩
  have hCount : 8 = digits.length + 1 :=
    congrArg List.length hList
  omega

/- What a load makes of the file, and why it keeps the text. -/
theorem strayFile_conforms :
    let s := new "settings.json" appDefaults
    let data := (s.load strayFile).1.data
    s.defaults = appDefaults ∧
      (s.load strayFile).2 = .ok data ∧
      Conforms (fun c => IsColor c ∨ IsStray c) data ∧
      HoldsStray
        (valueAt (fileSettings s.path strayFile)
          "overlay.palette") := by
  intro s data
  have hRuns :
      ((s.load strayFile).2.isOk &&
        (Json.arr (["#aabbcc\n"].map .str)).same
          (valueAt data "overlay.palette")) = true := by
    decide +kernel
  rw [Bool.and_eq_true, Json.rigid_texts] at hRuns
  rcases hRuns with ⟨hIsOk, hValue⟩
  have hOk : (s.load strayFile).2 = .ok data :=
    load_of_isOk hIsOk
  rcases load_conforms s rfl strayFile data hOk with
    ⟨hConforms, hExact⟩
  refine ⟨rfl, hOk, hConforms, ?_⟩
  by_contra hNone
  rcases (hExact.mpr hNone).palette with
    ⟨colors, hEq, -, hColors⟩
  rw [hEq] at hValue
  have hMem : Json.str "#aabbcc\n" ∈ colors.map .str := by
    rw [Json.arr.inj hValue]
    exact List.mem_cons_self
  rcases List.mem_map.mp hMem with ⟨c, hc, hText⟩
  rcases hColors c hc with ⟨digits, hList, hLength, -⟩
  rw [Json.str.inj hText] at hList
  have hCount : 8 = digits.length + 1 :=
    congrArg List.length hList
  omega

end SettingsStore

end StyleCompanion
