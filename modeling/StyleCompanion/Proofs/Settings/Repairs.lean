import StyleCompanion.Proofs.Number.Whole
import StyleCompanion.Proofs.Settings.Rules
import StyleCompanion.Proofs.Text.Blank

/-
  What each rule repairs.

  A rule enforces a property: what it leaves or puts has the
  property, and it leaves what has it.  Only an infinite
  double makes a rule fail, and only the rules on numbers.

  Main declarations:
    * `Settings.Rule.Enforces`
    * `Settings.IsPalette`
    * `Settings.IsWithin`
    * `Settings.enforces_palette`
    * `Settings.enforces_lineAlpha`
    * `Settings.enforces_fontSize`
    * `Settings.enforces_fontFamily`
    * `Settings.enforces_chosen`
-/

namespace StyleCompanion

----
-- Equal values
----

namespace Json

/- A value that is equal to nothing but itself. -/
def Rigid
    (x : Json) : Prop :=
  ∀ y, x.same y = true ↔ y = x

theorem rigid_str
    (s : String) :
    Rigid (.str s) := by
  intro y
  cases y with
  | str t => simp [same, agrees, eq_comm]
  | _ => simp [same, agrees]

/- Lists of texts agree text by text. -/
theorem agreeItems_texts_iff
    (texts : List String)
    (ys : List Json) :
    agreeItems (texts.map .str) ys = true ↔
      ys = texts.map .str := by
  induction texts generalizing ys with
  | nil => cases ys <;> simp [agreeItems]
  | cons s texts ih =>
      cases ys with
      | nil => simp [agreeItems]
      | cons y ys =>
          have hHead := rigid_str s y
          rw [same] at hHead
          · rw [List.map_cons, agreeItems, Bool.and_eq_true,
              hHead, ih, List.cons.injEq]
          · intro h
            cases h

theorem rigid_texts
    (texts : List String) :
    Rigid (.arr (texts.map .str)) := by
  intro y
  cases y with
  | arr ys => simp [same, agrees, agreeItems_texts_iff]
  | _ => simp [same, agrees]

/- Whole numbers are equal to the values of their number. -/
theorem same_int
    (n : Int)
    (y : Json) :
    (Json.int n).same y = (Json.int n).sameNumeral y := by
  rw [same, agrees]
  intro h
  cases h

/- What equals a whole number is read as that number. -/
theorem toInteger_of_sameNumeral
    {n : Int}
    {x : Json}
    (h : (Json.int n).sameNumeral x = true) :
    x.toInteger = .ok n := by
  cases x with
  | bool b =>
      simp only [sameNumeral, numeral?, Numeral.same,
        decide_eq_true_eq] at h
      rw [h]
      rfl
  | int m =>
      simp only [sameNumeral, numeral?, Numeral.same,
        decide_eq_true_eq] at h
      rw [h]
      rfl
  | float y =>
      cases y with
      | finite negative units =>
          have hInt : (Binary64.finite negative units).isInt n =
              true := h
          rw [Binary64.isInt_finite_iff] at hInt
          exact congrArg Except.ok hInt.2
      | infinite negative => cases h
      | nan => cases h
  | _ => cases h

end Json

namespace Settings

/- A value that stays, or else becomes the new one. -/
theorem getD_unlessSame_of_rigid
    {new : Json}
    (h : new.Rigid)
    (x : Json) :
    (unlessSame new x).getD x = new := by
  rw [unlessSame]
  split
  next hSame => exact (h x).mp hSame
  next => rfl

theorem unlessSame_self
    {new : Json}
    (h : new.Rigid) :
    unlessSame new new = none :=
  if_pos ((h new).mpr rfl)

theorem mem_unlessSame
    {new x v : Json}
    (h : v ∈ unlessSame new x) :
    v = new := by
  rw [unlessSame] at h
  split at h
  next => cases h
  next => exact (Option.some.inj h).symm

----
-- What a rule enforces
----

/-
  With a default a rule enforces a property: it repairs every
  value that is not fatal, and leaves values that are good.
-/
structure Rule.Enforces
    (r : Rule)
    (default : Json)
    (Fatal Good : Json → Prop) : Prop where
  fails :
    ∀ x, Fatal x → r.fix default x = .error (.integer .infinite)
  repairs :
    ∀ x, ¬ Fatal x →
      ∃ w, r.fix default x = .ok w ∧ Good (w.getD x) ∧
        ∀ v ∈ w, v.Tidy
  idle :
    ∀ x, Good x → r.fix default x = .ok none

/- Nothing is fatal to most rules. -/
def Never
    (_ : Json) : Prop :=
  False

/- An infinite double. -/
def IsInfinite
    (x : Json) : Prop :=
  ∃ negative, x = .float (.infinite negative)

variable {r : Rule}
variable {d x v : Json}
variable {Fatal Good : Json → Prop}

/- A rule that succeeds leaves something good. -/
theorem Rule.Enforces.good
    {w : Option Json}
    (h : r.Enforces d Fatal Good)
    (hFix : r.fix d x = .ok w) :
    Good (w.getD x) ∧ ∀ v ∈ w, v.Tidy := by
  have hFine : ¬ Fatal x := by
    intro hFatal
    rw [h.fails x hFatal] at hFix
    cases hFix
  rcases h.repairs x hFine with ⟨u, hu, hGood⟩
  have hSame : u = w := Except.ok.inj (hu.symm.trans hFix)
  rw [← hSame]
  exact hGood

/- A rule that never fails, by what it wants of each value. -/
theorem Rule.Enforces.of_total
    {f : Json → Option Json}
    (hFix : ∀ x, r.fix d x = .ok (f x))
    (hGood : ∀ x, Good ((f x).getD x))
    (hTidy : ∀ x, ∀ v ∈ f x, v.Tidy)
    (hIdle : ∀ x, Good x → f x = none) :
    r.Enforces d Never Good where
  fails _ hNever := hNever.elim
  repairs x _ := ⟨f x, hFix x, hGood x, hTidy x⟩
  idle x hx := (hFix x).trans (congrArg Except.ok (hIdle x hx))

/- A rule that never fails, by what it makes of each value. -/
theorem Rule.Enforces.of_rigid
    {f : Json → Json}
    (hFix : ∀ x, r.fix d x = .ok (unlessSame (f x) x))
    (hRigid : ∀ x, (f x).Rigid)
    (hTidy : ∀ x, (f x).Tidy)
    (hGood : ∀ x, Good (f x))
    (hIdle : ∀ x, Good x → f x = x) :
    r.Enforces d Never Good := by
  refine .of_total hFix ?_ ?_ ?_
  · intro x
    rw [getD_unlessSame_of_rigid (hRigid x)]
    exact hGood x
  · intro x v hv
    rw [mem_unlessSame hv]
    exact hTidy x
  · intro x hx
    have hSelf := unlessSame_self (hRigid x)
    rw [hIdle x hx] at hSelf ⊢
    exact hSelf

----
-- The palette
----

/- A list of texts, at least one, that all are colours. -/
def IsPalette
    (IsColor : String → Prop)
    (x : Json) : Prop :=
  ∃ colors : List String,
    x = .arr (colors.map .str) ∧ colors ≠ [] ∧
      ∀ c ∈ colors, IsColor c

/- The texts of the items of a list that are colours. -/
def colorTexts : Json → List String
  | .arr xs => (xs.map Json.text).filter isHexColor
  | _ => []

/- The colours that a palette is left with. -/
def paletteTexts
    (x : Json) : List String :=
  if (colorTexts x).isEmpty then Overlay.defaultPalette
  else colorTexts x

theorem hexColors_eq
    (x : Json) :
    hexColors x = (colorTexts x).map .str := by
  cases x with
  | arr xs =>
      rw [hexColors, colorTexts, ← List.filterMap_eq_filter,
        List.map_filterMap]
      congr 1
      funext s
      cases hColor : isHexColor s <;>
        simp [Option.guard, hColor]
  | _ => rfl

theorem paletteRule_fix
    (x : Json) :
    paletteRule.fix (valueAt appDefaults paletteRule.key) x =
      .ok (unlessSame
        (.arr ((paletteTexts x).map .str)) x) := by
  have hDefault :
      valueAt appDefaults paletteRule.key =
        .arr (Overlay.defaultPalette.map .str) := by
    rfl
  rw [hDefault, paletteRule]
  dsimp only
  rw [hexColors_eq, List.isEmpty_map, paletteTexts]
  split <;> rfl

theorem colors_of_paletteTexts
    (x : Json) :
    paletteTexts x ≠ [] ∧
      ∀ c ∈ paletteTexts x, isHexColor c = true := by
  rw [paletteTexts]
  split
  next hEmpty => exact ⟨by decide, by decide⟩
  next hSome =>
    refine ⟨fun hNil => hSome (List.isEmpty_iff.mpr hNil), ?_⟩
    intro c hc
    cases x with
    | arr xs => exact (List.mem_filter.mp hc).2
    | _ => cases hc

/- A palette of colours is left with all of them. -/
theorem paletteTexts_of_colors
    {colors : List String}
    (hSome : colors ≠ [])
    (hColors : ∀ c ∈ colors, isHexColor c = true) :
    paletteTexts (.arr (colors.map .str)) = colors := by
  have hTexts : colorTexts (.arr (colors.map .str)) = colors := by
    rw [colorTexts, List.map_map]
    exact (congrArg _ (List.map_id colors)).trans
      (List.filter_eq_self.mpr hColors)
  rw [paletteTexts, hTexts, if_neg]
  exact fun hEmpty => hSome (List.isEmpty_iff.mp hEmpty)

/- A palette has colours only, and at least one. -/
theorem enforces_palette :
    paletteRule.Enforces
      (valueAt appDefaults paletteRule.key) Never
      (IsPalette fun c => isHexColor c = true) := by
  refine .of_rigid paletteRule_fix ?_ ?_ ?_ ?_
  · exact fun x => Json.rigid_texts (paletteTexts x)
  · exact fun x => Json.tidy_texts (paletteTexts x)
  · exact fun x =>
      ⟨paletteTexts x, rfl, colors_of_paletteTexts x⟩
  · rintro x ⟨colors, rfl, hSome, hColors⟩
    rw [paletteTexts_of_colors hSome hColors]

----
-- Numbers
----

/- A value that counts as a whole number within limits. -/
def IsWithin
    (low high : Int)
    (x : Json) : Prop :=
  ∃ n : Int,
    (Json.int n).sameNumeral x = true ∧ low ≤ n ∧ n ≤ high

theorem clamp_bounds
    {low high : Int}
    (h : low ≤ high)
    (n : Int) :
    low ≤ clamp low high n ∧ clamp low high n ≤ high := by
  rw [clamp]
  omega

theorem clamp_of_bounds
    {low high n : Int}
    (hLow : low ≤ n)
    (hHigh : n ≤ high) :
    clamp low high n = n := by
  rw [clamp]
  omega

/- Only infinite doubles are refused as infinite. -/
theorem toInteger_infinite_iff
    (x : Json) :
    x.toInteger = .error .infinite ↔ IsInfinite x := by
  constructor
  · intro h
    cases x with
    | float y =>
        cases y with
        | infinite negative => exact ⟨negative, rfl⟩
        | finite _ _ => cases h
        | nan => cases h
    | str s =>
        rw [Json.toInteger] at h
        split at h <;> cases h
    | _ => cases h
  · rintro ⟨negative, rfl⟩
    rfl

theorem integerOr_of_infinite
    {x : Json}
    (h : IsInfinite x)
    (otherwise : Outcome Int)
    (f : Int → Int) :
    integerOr x otherwise f = .error (.integer .infinite) := by
  rw [integerOr, (toInteger_infinite_iff x).mpr h]

theorem integerOr_of_ok
    {x : Json}
    {n : Int}
    (h : x.toInteger = .ok n)
    (otherwise : Outcome Int)
    (f : Int → Int) :
    integerOr x otherwise f = .ok (f n) := by
  rw [integerOr, h]

/- A number within limits comes out of every other value. -/
theorem integerOr_bounds
    {x : Json}
    {low high usual : Int}
    (h : ¬ IsInfinite x)
    (hLow : low ≤ usual)
    (hHigh : usual ≤ high) :
    ∃ n,
      integerOr x (.ok usual) (clamp low high) = .ok n ∧
        low ≤ n ∧ n ≤ high := by
  rw [integerOr]
  split
  next m hInt =>
    exact ⟨_, rfl, clamp_bounds (Int.le_trans hLow hHigh) m⟩
  next hInt => exact absurd ((toInteger_infinite_iff x).mp hInt) h
  next => exact ⟨usual, rfl, hLow, hHigh⟩

/- What stands there after a number was put or found there. -/
theorem isWithin_getD_unlessSame
    {low high n : Int}
    (hLow : low ≤ n)
    (hHigh : n ≤ high)
    (x : Json) :
    IsWithin low high ((unlessSame (.int n) x).getD x) := by
  rw [unlessSame]
  split
  next hSame =>
    rw [Json.same_int] at hSame
    exact ⟨n, hSame, hLow, hHigh⟩
  next => exact ⟨n, decide_eq_true rfl, hLow, hHigh⟩

theorem tidy_of_mem_unlessSame_int
    {n : Int}
    (h : v ∈ unlessSame (.int n) x) :
    v.Tidy := by
  rw [mem_unlessSame h]
  exact Json.tidy_int n

/- A number that is equal to a value is not put there. -/
theorem unlessSame_int_of_sameNumeral
    {n : Int}
    (h : (Json.int n).sameNumeral x = true) :
    unlessSame (.int n) x = none := by
  rw [unlessSame, Json.same_int, h]
  rfl

/- The opacity of painted lines is a byte. -/
theorem enforces_lineAlpha :
    lineAlphaRule.Enforces
      (valueAt appDefaults lineAlphaRule.key) IsInfinite
      (IsWithin 0 255) := by
  have hFix :
      ∀ x, lineAlphaRule.fix
          (valueAt appDefaults lineAlphaRule.key) x =
        (integerOr x (.ok 56) (clamp 0 255) >>= fun n =>
          .ok (unlessSame (.int n) x)) :=
    fun _ => rfl
  refine ⟨?_, ?_, ?_⟩
  · intro x hx
    rw [hFix, integerOr_of_infinite hx]
    rfl
  · intro x hx
    rcases integerOr_bounds hx (by decide : (0 : Int) ≤ 56)
        (by decide : (56 : Int) ≤ 255) with
      ⟨n, hn, hLow, hHigh⟩
    rw [hFix, hn]
    exact ⟨_, rfl, isWithin_getD_unlessSame hLow hHigh x,
      fun v hv => tidy_of_mem_unlessSame_int hv⟩
  · rintro x ⟨n, hSame, hLow, hHigh⟩
    have hInt := Json.toInteger_of_sameNumeral hSame
    rw [hFix, integerOr_of_ok hInt, clamp_of_bounds hLow hHigh]
    exact congrArg Except.ok (unlessSame_int_of_sameNumeral hSame)

/- A font size is a number within limits, not a truth. -/
theorem enforces_fontSize :
    fontSizeRule.Enforces
      (valueAt appDefaults fontSizeRule.key) IsInfinite
      (IsWithin minFontSize maxFontSize) := by
  have hTruth :
      ∀ b, fontSizeRule.fix
          (valueAt appDefaults fontSizeRule.key) (.bool b) =
        .ok (unlessSame (.int 10) (.bool b)) :=
    fun _ => rfl
  have hFix :
      ∀ x, (∀ b, x ≠ .bool b) →
        fontSizeRule.fix
            (valueAt appDefaults fontSizeRule.key) x =
          (integerOr x (.ok 10)
              (clamp minFontSize maxFontSize) >>= fun n =>
            .ok (unlessSame (.int n) x)) := by
    intro x hx
    cases x with
    | bool b => exact absurd rfl (hx b)
    | _ => rfl
  have hLeast : minFontSize ≤ 10 := by decide
  have hMost : 10 ≤ maxFontSize := by decide
  refine ⟨?_, ?_, ?_⟩
  · intro x hx
    have hNumber : ∀ b, x ≠ .bool b := by
      rintro b rfl
      rcases hx with ⟨negative, hEq⟩
      cases hEq
    rw [hFix x hNumber, integerOr_of_infinite hx]
    rfl
  · intro x hx
    by_cases hNumber : ∀ b, x ≠ .bool b
    · rcases integerOr_bounds hx hLeast hMost with
        ⟨n, hn, hLow, hHigh⟩
      rw [hFix x hNumber, hn]
      exact ⟨_, rfl, isWithin_getD_unlessSame hLow hHigh x,
        fun v hv => tidy_of_mem_unlessSame_int hv⟩
    · rw [not_forall] at hNumber
      rcases hNumber with ⟨b, hb⟩
      rw [not_not] at hb
      subst hb
      exact ⟨_, hTruth b,
        isWithin_getD_unlessSame hLeast hMost _,
        fun v hv => tidy_of_mem_unlessSame_int hv⟩
  · rintro x ⟨n, hSame, hLow, hHigh⟩
    have hInt := Json.toInteger_of_sameNumeral hSame
    -- The numbers of truth values are too small.
    have hNumber : ∀ b, x ≠ .bool b := by
      rintro b rfl
      have hBit : (if b then 1 else 0 : Int) = n :=
        Except.ok.inj hInt
      have hSmall : n ≤ 1 := by
        rw [← hBit]
        cases b <;> decide
      exact absurd (Int.le_trans hLow hSmall) (by decide)
    rw [hFix x hNumber, integerOr_of_ok hInt,
      clamp_of_bounds hLow hHigh]
    exact congrArg Except.ok (unlessSame_int_of_sameNumeral hSame)

----
-- Texts
----

/- A text without blanks around it. -/
def IsTrimmed
    (x : Json) : Prop :=
  ∃ s, x = .str s ∧ Text.Trimmed s

/- A text among a few. -/
def IsOneOf
    (allowed : List String)
    (x : Json) : Prop :=
  ∃ s ∈ allowed, x = .str s

theorem textOrEmpty_str
    (s : String) :
    (Json.str s).textOrEmpty = s := by
  rw [Json.textOrEmpty]
  split
  next => rfl
  next hEmpty =>
    simp only [Json.isTruthy, Bool.not_eq_true',
      Bool.not_eq_false, String.isEmpty_iff] at hEmpty
    exact hEmpty.symm

/- A font family is a text without blanks around it. -/
theorem enforces_fontFamily :
    fontFamilyRule.Enforces
      (valueAt appDefaults fontFamilyRule.key) Never
      IsTrimmed := by
  have hOther :
      ∀ x, (∀ s, x ≠ .str s) →
        fontFamilyRule.fix
            (valueAt appDefaults fontFamilyRule.key) x =
          .ok (some (.str "")) := by
    intro x hx
    cases x with
    | str s => exact absurd rfl (hx s)
    | _ => rfl
  refine ⟨fun _ hNever => hNever.elim, ?_, ?_⟩
  · intro x _
    by_cases hText : ∀ s, x ≠ .str s
    · refine ⟨_, hOther x hText, ⟨"", rfl, Text.trimmed_empty⟩,
        ?_⟩
      intro v hv
      rw [← Option.some.inj hv]
      exact Json.tidy_str ""
    · rw [not_forall] at hText
      rcases hText with ⟨s, hs⟩
      rw [not_not] at hs
      subst hs
      refine ⟨unlessSame (.str (Text.trim s)) (.str s), rfl,
        ?_, ?_⟩
      · rw [getD_unlessSame_of_rigid (Json.rigid_str _)]
        exact ⟨_, rfl, Text.trimmed_trim s⟩
      · intro v hv
        rw [mem_unlessSame hv]
        exact Json.tidy_str _
  · rintro x ⟨s, rfl, hTrimmed⟩
    change Except.ok (unlessSame (.str (Text.trim s)) (.str s)) =
      _
    rw [Text.trim_of_trimmed hTrimmed,
      unlessSame_self (Json.rigid_str s)]

/- A choice among texts is one of them. -/
theorem exists_chosen_eq
    {allowed : List String}
    {usual : String}
    (h : usual ∈ allowed)
    (text : String) :
    ∃ s ∈ allowed, chosen allowed text (.str usual) = .str s := by
  rw [chosen]
  split
  next hAllowed => exact ⟨text, hAllowed, rfl⟩
  next => exact ⟨usual, h, rfl⟩

/-
  A rule that chooses among texts, by the form in which it
  compares them.  The texts it allows have that form.
-/
theorem enforces_chosen
    {allowed : List String}
    {usual : String}
    {f : String → String}
    (hFix :
      ∀ x, r.fix d x =
        .ok (unlessSame
          (chosen allowed (f x.textOrEmpty) (.str usual)) x))
    (hUsual : usual ∈ allowed)
    (hForm : ∀ s ∈ allowed, f s = s) :
    r.Enforces d Never (IsOneOf allowed) := by
  have hChosen :=
    fun x : Json => exists_chosen_eq hUsual (f x.textOrEmpty)
  refine .of_rigid hFix ?_ ?_ ?_ ?_
  · intro x
    rcases hChosen x with ⟨s, -, hs⟩
    rw [hs]
    exact Json.rigid_str s
  · intro x
    rcases hChosen x with ⟨s, -, hs⟩
    rw [hs]
    exact Json.tidy_str s
  · exact hChosen
  · rintro x ⟨s, hs, rfl⟩
    rw [textOrEmpty_str, hForm s hs, chosen, if_pos hs]

/- The style of overwritten lines. -/
theorem enforces_overwrittenStyle :
    overwrittenStyleRule.Enforces
      (valueAt appDefaults overwrittenStyleRule.key) Never
      (IsOneOf overwrittenStyles) :=
  enforces_chosen (f := fun s => Text.lower (Text.trim s))
    (fun _ => rfl) (by decide) (by decide)

/- The level of the log. -/
theorem enforces_logLevel :
    logLevelRule.Enforces
      (valueAt appDefaults logLevelRule.key) Never
      (IsOneOf logLevels) :=
  enforces_chosen (f := fun s => Text.upper (Text.trim s))
    (fun _ => rfl) (by decide) (by decide)

----
-- Kinds
----

/- A rule that asks for a kind of value and puts one of it. -/
theorem enforces_kind
    {Kind : Json → Prop}
    (hKeep : ∀ x, Kind x → r.fix d x = .ok none)
    (hPut : ∀ x, ¬ Kind x → r.fix d x = .ok (some v))
    (hKind : Kind v)
    (hTidy : v.Tidy) :
    r.Enforces d Never Kind := by
  refine ⟨fun _ hNever => hNever.elim, ?_, hKeep⟩
  intro x _
  by_cases hx : Kind x
  · refine ⟨none, hKeep x hx, hx, ?_⟩
    intro w hw
    cases hw
  · refine ⟨some v, hPut x hx, hKind, ?_⟩
    intro w hw
    rw [← Option.some.inj hw]
    exact hTidy

/- The overlay is on or off. -/
theorem enforces_enabled :
    enabledRule.Enforces
      (valueAt appDefaults enabledRule.key) Never
      (fun x => ∃ b, x = .bool b) := by
  refine enforces_kind (v := .bool true) ?_ ?_ ⟨true, rfl⟩
    (Json.tidy_bool true)
  · rintro x ⟨b, rfl⟩
    rfl
  · intro x hx
    cases x with
    | bool b => exact absurd ⟨b, rfl⟩ hx
    | _ => rfl

/- The arguments of the backend are a list. -/
theorem enforces_serverArgs :
    serverArgsRule.Enforces
      (valueAt appDefaults serverArgsRule.key) Never
      (fun x => ∃ xs, x = .arr xs) := by
  refine enforces_kind (v := .arr []) ?_ ?_ ⟨[], rfl⟩
    (Json.tidy_texts [])
  · rintro x ⟨xs, rfl⟩
    rfl
  · intro x hx
    cases x with
    | arr xs => exact absurd ⟨xs, rfl⟩ hx
    | _ => rfl

/- The environment of the backend is an object. -/
theorem enforces_serverEnv :
    serverEnvRule.Enforces
      (valueAt appDefaults serverEnvRule.key) Never
      (fun x => ∃ fs, x = .obj fs) := by
  refine enforces_kind (v := .obj []) ?_ ?_ ⟨[], rfl⟩
    (Json.tidy_obj_iff.mpr
      ⟨List.nodup_nil, List.forall_mem_nil _⟩)
  · rintro x ⟨fs, rfl⟩
    rfl
  · intro x hx
    cases x with
    | obj fs => exact absurd ⟨fs, rfl⟩ hx
    | _ => rfl

end Settings

end StyleCompanion
