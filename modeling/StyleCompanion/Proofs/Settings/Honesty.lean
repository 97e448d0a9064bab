import StyleCompanion.Proofs.Settings.Reloading

/-
  What the rules say about their own run.

  A run of the rules of the schema says that it changed the
  settings exactly if it did, whatever the order of fields.  A
  rule that puts a value finds something there that is not
  good, and puts something that is, so the two cannot be the
  same value.  All paths that no rule watches, or watches a
  part of, keep what they had, and a second run finds nothing
  to do.

  Main declarations:
    * `Json.Alike`
    * `Json.OrderFree`
    * `Settings.changed_iff_wanted`
    * `Settings.exists_enforces_orderFree`
    * `Settings.not_alike_of_wanted`
    * `Settings.normalize_honest_and_idempotent`
-/

namespace StyleCompanion

----
-- Equality up to the order of fields
----

namespace Json

/-
  Two values are the same but for the order of fields.  Kinds
  of numbers are told apart, and so are truth values.
-/
def Alike
    (x y : Json) : Prop :=
  x.ordered = y.ordered

/- A property of values to which the order of fields is nothing. -/
def OrderFree
    (P : Json → Prop) : Prop :=
  ∀ x y, Alike x y → P x → P y

/- A value without fields or items. -/
def IsScalar : Json → Prop
  | .arr _ => False
  | .obj _ => False
  | _ => True

/- There is no order in a scalar. -/
theorem eq_of_alike_scalar
    {x y : Json}
    (hScalar : x.IsScalar)
    (h : Alike x y) :
    x = y := by
  unfold Alike at h
  cases x with
  | arr xs => exact hScalar.elim
  | obj fs => exact hScalar.elim
  | _ =>
      cases y with
      | arr ys => cases h
      | obj gs => cases h
      | _ => exact h

/- Nor is there one in a list of texts. -/
theorem eq_of_alike_texts
    {texts : List String}
    {y : Json}
    (h : Alike (.arr (texts.map .str)) y) :
    .arr (texts.map .str) = y := by
  unfold Alike at h
  rw [Settings.ordered_texts] at h
  cases y with
  | arr ys =>
      rw [ordered_arr, arr.injEq] at h
      rw [arr.injEq, h]
      refine (List.map_congr_left fun y hy => ?_).trans
        (List.map_id ys)
      have hText : y.ordered ∈ texts.map Json.str := by
        rw [h]
        exact List.mem_map_of_mem hy
      rcases List.mem_map.mp hText with ⟨s, -, hs⟩
      have hAlike : Alike (.str s) y := hs
      have hScalar : IsScalar (.str s) := trivial
      rw [← eq_of_alike_scalar hScalar hAlike]
      rfl
  | _ => cases h

theorem orderFree_of_scalar
    {P : Json → Prop}
    (h : ∀ x, P x → x.IsScalar) :
    OrderFree P := by
  intro x y hAlike hx
  rw [← eq_of_alike_scalar (h x hx) hAlike]
  exact hx

/- Lists are alike to lists alone. -/
theorem orderFree_list :
    OrderFree fun x => ∃ xs, x = .arr xs := by
  rintro x y hAlike ⟨xs, rfl⟩
  cases y with
  | arr ys => exact ⟨ys, rfl⟩
  | _ => cases hAlike

/- Objects are alike to objects alone. -/
theorem orderFree_object :
    OrderFree fun x => ∃ fs, x = .obj fs := by
  rintro x y hAlike ⟨fs, rfl⟩
  cases y with
  | obj gs => exact ⟨gs, rfl⟩
  | _ => cases hAlike

end Json

namespace Settings

open Json

variable {rs : List Rule}
variable {q : Rule}
variable {defaults data t : Tree}
variable {changed : Bool}
variable {v : Json}

----
-- What the answer of a run means
----

/- A run says that it changed something if a rule put a value. -/
theorem changed_iff_wanted
    (hApart : RulesApart rs)
    (h : (runRules rs defaults data).2 = .ok changed) :
    changed = true ↔
      ∃ q ∈ rs, ∃ v, q.wanted defaults data = .ok (some v) := by
  induction rs generalizing data changed with
  | nil =>
      cases h
      simp
  | cons r rest ih =>
      rcases runRules_cons_ok h with
        ⟨w, later, hFirst, hLater, rfl⟩
      -- The other rules want what they wanted before.
      have hRest := ih hApart.tail hLater
      have hSame :
          (∃ q ∈ rest, ∃ v,
              q.wanted defaults (r.settle data w) =
                .ok (some v)) ↔
            ∃ q ∈ rest, ∃ v,
              q.wanted defaults data = .ok (some v) :=
        exists_congr fun q => and_congr_right fun hq => by
          rw [wanted_settle_of_apart (hApart.head q hq)]
      have hHere :
          w.isSome = true ↔
            ∃ v, r.wanted defaults data = .ok (some v) := by
        rw [hFirst, Option.isSome_iff_exists]
        simp only [Except.ok.injEq]
      rw [Bool.or_eq_true, hRest, hSame, hHere]
      simp only [List.mem_cons, exists_eq_or_imp]

/- A run that says it changed nothing has left everything. -/
theorem eq_of_unchanged
    (hRun : normalize appDefaults data = (t, .ok false)) :
    t = data := by
  have hOk : (runRules rules appDefaults data).2 = .ok false :=
    congrArg Prod.snd hRun
  have hNone := (changed_iff_wanted rulesApart_rules hOk).not.mp
    Bool.false_ne_true
  have hIdle :
      ∀ q ∈ rules, q.wanted appDefaults data = .ok none := by
    intro q hq
    rcases wanted_of_runRules_ok rulesApart_rules hOk q hq with
      ⟨w, hw⟩
    cases w with
    | none => exact hw
    | some v => exact absurd ⟨q, hq, v, hw⟩ hNone
  have hSame := hRun.symm.trans (runRules_of_idle hIdle)
  exact congrArg Prod.fst hSame

----
-- What a rule puts
----

/-
  Every rule of the schema enforces something to which the
  order of fields is nothing.
-/
theorem exists_enforces_orderFree :
    ∀ q ∈ rules, ∃ Fatal Good,
      q.Enforces (valueAt appDefaults q.key) Fatal Good ∧
        OrderFree Good := by
  have hWithin :
      ∀ low high, OrderFree (IsWithin low high) := by
    intro low high
    refine orderFree_of_scalar ?_
    rintro x ⟨n, hSame, -⟩
    cases x with
    | arr xs => cases hSame
    | obj fs => cases hSame
    | _ => trivial
  have hPalette :
      OrderFree (IsPalette fun c => isHexColor c = true) := by
    rintro x y hAlike ⟨colors, rfl, hColors⟩
    exact ⟨colors, (eq_of_alike_texts hAlike).symm, hColors⟩
  have hTruth : OrderFree fun x => ∃ b, x = .bool b := by
    refine orderFree_of_scalar ?_
    rintro x ⟨b, rfl⟩
    trivial
  have hTrimmed : OrderFree IsTrimmed := by
    refine orderFree_of_scalar ?_
    rintro x ⟨s, rfl, -⟩
    trivial
  have hOneOf :
      ∀ allowed, OrderFree (IsOneOf allowed) := by
    intro allowed
    refine orderFree_of_scalar ?_
    rintro x ⟨s, -, rfl⟩
    trivial
  exact forall_rules_iff.mpr
    ⟨⟨_, _, enforces_palette, hPalette⟩,
    ⟨_, _, enforces_lineAlpha, hWithin 0 255⟩,
    ⟨_, _, enforces_enabled, hTruth⟩,
    ⟨_, _, enforces_fontSize, hWithin _ _⟩,
    ⟨_, _, enforces_fontFamily, hTrimmed⟩,
    ⟨_, _, enforces_overwrittenStyle, hOneOf _⟩,
    ⟨_, _, enforces_logLevel, hOneOf _⟩,
    ⟨_, _, enforces_serverArgs, orderFree_list⟩,
    ⟨_, _, enforces_serverEnv, orderFree_object⟩⟩

/- A rule never puts what it finds, in whatever order. -/
theorem not_alike_valueAt_of_wanted
    (hq : q ∈ rules)
    (hWanted : q.wanted appDefaults data = .ok (some v)) :
    ¬ Alike v (valueAt data q.key) := by
  rcases exists_enforces_orderFree q hq with
    ⟨Fatal, Good, hEnforces, hOrder⟩
  intro hAlike
  have hGood : Good (valueAt data q.key) :=
    hOrder _ _ hAlike (hEnforces.good hWanted).1
  have hIdle : q.wanted appDefaults data = .ok none :=
    hEnforces.idle _ hGood
  rw [hIdle] at hWanted
  cases hWanted

/- Settings in which a rule has put a value are others. -/
theorem not_alike_of_wanted
    (hNames : Distinct (.obj data))
    (hRun : normalize appDefaults data = (t, .ok changed))
    (hq : q ∈ rules)
    (hWanted : q.wanted appDefaults data = .ok (some v)) :
    ¬ Alike (.obj t) (.obj data) := by
  have hOk : (runRules rules appDefaults data).2 =
      .ok changed := congrArg Prod.snd hRun
  have hTree : (runRules rules appDefaults data).1 = t :=
    congrArg Prod.fst hRun
  have hPut := lookup_runRules_of_mem rulesApart_rules hq hOk
    hWanted
  rw [hTree, Option.some_or] at hPut
  have hStays := throughout_normalize fieldStable_namesDiffer
    (fun _ h => h.1) hNames
  rw [hRun] at hStays
  intro hAlike
  -- Both sides have a value at the path, and the two are alike.
  have hPaths := congrArg (Tree.lookup · q.path) hAlike
  rw [Tree.lookup_ordered hStays, Tree.lookup_ordered hNames,
    hPut, Option.map_some] at hPaths
  rcases Option.map_eq_some_iff.mp hPaths.symm with
    ⟨x, hFound, hSame⟩
  have hValue : valueAt data q.key = x :=
    congrArg (·.getD .null) hFound
  refine not_alike_valueAt_of_wanted hq hWanted ?_
  rw [hValue]
  exact hSame.symm

----
-- Normalization
----

/-
  The rules say that they changed the settings exactly if the
  settings are others afterwards, and otherwise leave all as
  it is.  No key changes that is apart from the keys of the
  rules.  A second run has nothing to change.
-/
theorem normalize_honest_and_idempotent
    (hNames : Distinct (.obj data))
    (hRun : normalize appDefaults data = (t, .ok changed)) :
    (changed = true ↔ ¬ Alike (.obj t) (.obj data)) ∧
      (changed = false → t = data) ∧
      (∀ key default,
        (∀ r ∈ rules,
          Tree.Apart (Tree.keyPath r.key)
            (Tree.keyPath key)) →
        Tree.get (.obj t) key default =
          Tree.get (.obj data) key default) ∧
      normalize appDefaults t = (t, .ok false) := by
  have hKept : changed = false → t = data := by
    rintro rfl
    exact eq_of_unchanged hRun
  refine ⟨⟨?_, ?_⟩, hKept, ?_, ?_⟩
  · intro hChanged
    have hOk : (runRules rules appDefaults data).2 =
        .ok changed := congrArg Prod.snd hRun
    rcases (changed_iff_wanted rulesApart_rules hOk).mp hChanged
      with ⟨q, hq, v, hWanted⟩
    exact not_alike_of_wanted hNames hRun hq hWanted
  · intro hOther
    by_contra hFalse
    rw [Bool.not_eq_true] at hFalse
    rw [hKept hFalse] at hOther
    exact hOther rfl
  · intro key default hApart
    have hTree : (runRules rules appDefaults data).1 = t :=
      congrArg Prod.fst hRun
    have hLookup :
        Tree.lookup (.obj t) (Tree.keyPath key) =
          Tree.lookup (.obj data) (Tree.keyPath key) := by
      rw [← hTree]
      exact lookup_runRules_of_apart hApart
    rw [Tree.get, hLookup, Tree.get]
  · exact normalize_of_conforms (conforms_normalize hRun)

/- Settings filled up with the defaults have distinct names. -/
theorem distinct_mergeDefaults
    (h : Distinct (.obj data)) :
    Distinct (.obj (Tree.mergeDefaults data appDefaults)) := by
  rw [Tree.mergeDefaults, ← Tree.mergeValue_obj]
  exact Tree.throughout_mergeValue fieldStable_namesDiffer
    distinct_appDefaults h

/-
  Settings with a number for a section, a truth value for a
  number, and a key that the schema does not know.
-/
def mixedUp : Tree :=
  [("overlay", .int 5),
    ("editor", .obj
      [("theme", .str "dark"), ("font_size", .bool true)])]

/- The same settings, filled up with the defaults. -/
def mixedUpMerged : Tree :=
  Tree.mergeDefaults mixedUp appDefaults

/- The rules repair them, say so, and keep the unknown key. -/
theorem mixedUp_repaired :
    Distinct (.obj mixedUpMerged) ∧
      ∃ t,
        normalize appDefaults mixedUpMerged = (t, .ok true) ∧
          ¬ Alike (.obj t) (.obj mixedUpMerged) ∧
          Tree.get (.obj t) "editor.theme" .null =
            .str "dark" ∧
          normalize appDefaults t = (t, .ok false) := by
  have hTidy : Tidy (.obj mixedUp) := by
    simp only [mixedUp, tidy_obj_iff, List.forall_mem_cons,
      List.not_mem_nil, false_imp_iff, forall_const, and_true,
      tidy_str, tidy_int, tidy_bool]
    decide
  have hNames : Distinct (.obj mixedUpMerged) :=
    distinct_mergeDefaults (hTidy.imp fun _ h => h.1)
  have hRun :
      normalize appDefaults mixedUpMerged =
        ((normalize appDefaults mixedUpMerged).1, .ok true) := by
    rfl
  rcases normalize_honest_and_idempotent hNames hRun with
    ⟨hChanged, -, hOthers, hAgain⟩
  refine ⟨hNames, _, hRun, hChanged.mp rfl, ?_, hAgain⟩
  have hApart :
      ∀ path ∈ rules.map Rule.path,
        Tree.Apart path (Tree.keyPath "editor.theme") := by
    rw [paths_rules]
    decide
  exact hOthers "editor.theme" .null fun r hr =>
    hApart r.path (List.mem_map_of_mem hr)

end Settings

end StyleCompanion
