import Mathlib.Data.List.Infix
import StyleCompanion.Proofs.Settings.Paths

/-
  Filling settings up with defaults, path by path.

  What settings have wins, whatever it is, and an explicit null
  counts as something.  Where both sides have an object, the
  two are merged.  Where settings have nothing, it depends on
  how far they lead: a path that breaks off in an object goes
  on in the defaults, and a path that ends at anything else is
  closed, so defaults behind it stay hidden.  Filling up twice
  is the same as filling up once.

  Main declarations:
    * `Tree.FoundUpTo`
    * `Tree.exists_foundUpTo`
    * `Tree.FoundUpTo.lookup_mergeValue_of_object`
    * `Tree.FoundUpTo.lookup_mergeValue_of_plain`
    * `Tree.exists_of_lookup_mergeValue`
    * `Tree.mergeValue_mergeValue`
    * `Tree.mergeDefaults_pathwise`
-/

namespace StyleCompanion

namespace Tree

variable {d x y : Json}
variable {path found : List String}

----
-- How far a path leads
----

/- The longest beginning of a path at which something is. -/
structure FoundUpTo
    (x : Json)
    (path found : List String) : Prop where
  along : found <+: path
  there : lookup x found ≠ none
  longest :
    ∀ other, other <+: path → lookup x other ≠ none →
      other <+: found

/- Every path leads somewhere, if only to its start. -/
theorem exists_foundUpTo
    (x : Json)
    (path : List String) :
    ∃ found, FoundUpTo x path found := by
  induction path using List.reverseRecOn with
  | nil =>
      exact ⟨[], List.prefix_rfl, Option.some_ne_none x,
        fun _ hAlong _ => hAlong⟩
  | append_singleton path part ih =>
      by_cases hWhole : lookup x (path ++ [part]) = none
      · rcases ih with ⟨found, hAlong, hThere, hLongest⟩
        refine ⟨found, hAlong.trans (List.prefix_append _ _),
          hThere, ?_⟩
        intro other hOther hFound
        rcases List.prefix_concat_iff.mp hOther with
          rfl | hShorter
        · exact absurd hWhole hFound
        · exact hLongest other hShorter hFound
      · exact ⟨path ++ [part], List.prefix_rfl, hWhole,
          fun _ hAlong _ => hAlong⟩

namespace FoundUpTo

/- A path that is not found goes on after its last object. -/
theorem exists_rest
    (h : FoundUpTo x path found)
    (hNone : lookup x path = none) :
    ∃ part rest, path = found ++ part :: rest := by
  rcases h.along with ⟨tail, rfl⟩
  cases tail with
  | nil =>
      rw [List.append_nil] at hNone
      exact absurd hNone h.there
  | cons part rest => exact ⟨part, rest, rfl⟩

/- The object in which a path breaks off lacks its next part. -/
theorem get?_eq_none
    {fs : Tree}
    {part : String}
    {rest : List String}
    (h : FoundUpTo x (found ++ part :: rest) found)
    (hObject : lookup x found = some (.obj fs)) :
    Table.get? fs part = none := by
  by_contra hSome
  have hStep :
      lookup x (found ++ [part]) = Table.get? fs part := by
    rw [lookup_append, hObject, Option.bind_some,
      lookup_obj_cons]
    cases Table.get? fs part <;> rfl
  have hAlong : found ++ [part] <+: found ++ part :: rest :=
    (List.prefix_append_right_inj found).mpr
      (List.prefix_append [part] rest)
  have hShort := (h.longest _ hAlong (hStep ▸ hSome)).length_le
  rw [List.length_append, List.length_singleton] at hShort
  omega

/- A path that breaks off in an object is up to the default. -/
theorem lookup_mergeValue_of_object
    {fs : Tree}
    (hDistinct : d.Distinct)
    (h : FoundUpTo x path found)
    (hNone : lookup x path = none)
    (hObject : lookup x found = some (.obj fs)) :
    lookup (mergeValue d x) path = lookup d path := by
  rcases h.exists_rest hNone with ⟨part, rest, rfl⟩
  have hLacks := h.get?_eq_none hObject
  have hEnd : lookup (.obj fs) (part :: rest) = none := by
    rw [lookup_obj_cons, hLacks, Option.bind_none]
  rw [lookup_append, lookup_append,
    lookup_mergeValue_of_some hDistinct hObject]
  cases hDefault : lookup d found with
  | none => exact hEnd
  | some e =>
      rw [filled, Option.bind_some, Option.bind_some]
      rcases e.fields?_eq_none_or with hFields | ⟨ds, rfl⟩
      · rw [mergeValue_of_fields?_eq_none (Or.inl hFields),
          hEnd, lookup_cons_of_fields?_eq_none hFields]
      · have hBelow := throughout_of_lookup hDistinct hDefault
        have hNames := (Json.distinct_obj_iff.mp hBelow).1
        rw [mergeValue_obj, lookup_obj_cons, lookup_obj_cons,
          get?_mergeFields hNames, hLacks, filled]

/- A path that ends at anything else is closed. -/
theorem lookup_mergeValue_of_plain
    (hDistinct : d.Distinct)
    (h : FoundUpTo x path found)
    (hNone : lookup x path = none)
    (hPlain : lookup x found = some y)
    (hFields : y.fields? = none) :
    lookup (mergeValue d x) path = none := by
  rcases h.exists_rest hNone with ⟨part, rest, rfl⟩
  have hKept :
      filled (lookup d found) (some y) = some y := by
    cases lookup d found with
    | none => rfl
    | some e =>
        rw [filled,
          mergeValue_of_fields?_eq_none (Or.inr hFields)]
  rw [lookup_append, lookup_mergeValue_of_some hDistinct hPlain,
    hKept]
  exact lookup_cons_of_fields?_eq_none hFields part rest

end FoundUpTo

/- What is not an object on both sides is left alone. -/
theorem lookup_mergeValue_of_not_both
    (hDistinct : d.Distinct)
    (h : lookup x path = some y)
    (hNotBoth :
      ¬ ∃ fs ds, y = .obj fs ∧
        lookup d path = some (.obj ds)) :
    lookup (mergeValue d x) path = some y := by
  rw [lookup_mergeValue_of_some hDistinct h]
  cases hDefault : lookup d path with
  | none => rfl
  | some e =>
      have hKept : mergeValue e y = y := by
        apply mergeValue_of_fields?_eq_none
        rcases e.fields?_eq_none_or with he | ⟨ds, rfl⟩
        · exact Or.inl he
        rcases y.fields?_eq_none_or with hy | ⟨fs, rfl⟩
        · exact Or.inr hy
        · exact absurd ⟨fs, ds, rfl, hDefault⟩ hNotBoth
      rw [filled, hKept]

/- Only an object lets a path go on into the default. -/
theorem exists_of_lookup_mergeValue
    (hDistinct : d.Distinct)
    (hThere : lookup (mergeValue d x) path ≠ none)
    (hNone : lookup x path = none) :
    lookup d path ≠ none ∧
      ∃ found fs, FoundUpTo x path found ∧
        lookup x found = some (.obj fs) := by
  rcases exists_foundUpTo x path with ⟨found, hFound⟩
  rcases Option.ne_none_iff_exists'.mp hFound.there with
    ⟨y, hy⟩
  rcases y.fields?_eq_none_or with hFields | ⟨fs, rfl⟩
  · exact absurd (hFound.lookup_mergeValue_of_plain hDistinct
      hNone hy hFields) hThere
  · rw [hFound.lookup_mergeValue_of_object hDistinct hNone hy]
      at hThere
    exact ⟨hThere, found, fs, hFound, hy⟩

/- What was there is still there. -/
theorem lookup_mergeValue_ne_none
    (hDistinct : d.Distinct)
    (h : lookup x path ≠ none) :
    lookup (mergeValue d x) path ≠ none := by
  rcases Option.ne_none_iff_exists'.mp h with ⟨y, hy⟩
  rw [lookup_mergeValue_of_some hDistinct hy]
  cases lookup d path <;> exact Option.some_ne_none _

----
-- Filling up again
----

/-
  A value that was filled up lacks nothing.  A field that comes
  from the default is the default itself, and of the others the
  same holds one level further down.
-/
theorem mergeValue_mergeValue
    (hDistinct : d.Distinct)
    (x : Json) :
    mergeValue d (mergeValue d x) = mergeValue d x := by
  induction hDistinct generalizing x with
  | @intro d hNames hParts ih =>
      rcases d.fields?_eq_none_or with hFields | ⟨ds, rfl⟩
      · exact mergeValue_of_fields?_eq_none (Or.inl hFields)
      rcases x.fields?_eq_none_or with hFields | ⟨fs, rfl⟩
      · have hSame :=
          mergeValue_of_fields?_eq_none (d := .obj ds)
            (Or.inr hFields)
        rw [hSame, hSame]
      rw [mergeValue_obj, mergeValue_obj, mergeFields_eq_self]
      rintro ⟨k, e⟩ hMem
      have hPart : Table.get? ds k = some e :=
        Table.get?_of_mem hNames hMem
      have hValue : e ∈ (Json.obj ds).parts :=
        List.mem_map_of_mem hMem
      rw [get?_mergeFields hNames, hPart]
      cases hField : Table.get? fs k with
      | none =>
          refine ⟨e, rfl, mergeValue_eq_self ?_ fun _ h => h⟩
          exact hParts e hValue
      | some z => exact ⟨mergeValue e z, rfl, ih e hValue z⟩

----
-- Defaults
----

/-
  Merged settings have at every path what the settings have
  there, or the merger of both sides if both have an object.
  At a path that breaks off in an object of the settings they
  have what the defaults have.  They have no other paths, and
  all paths of the settings.  To merge again changes nothing.
-/
theorem mergeDefaults_pathwise
    (data defaults : Tree)
    (hNames : Json.Distinct (.obj defaults)) :
    (∀ path x,
      lookup (.obj data) path = some x →
      (¬ ∃ fs ds, x = .obj fs ∧
        lookup (.obj defaults) path = some (.obj ds)) →
      lookup (.obj (mergeDefaults data defaults)) path =
        some x) ∧
    (∀ path fs ds,
      lookup (.obj data) path = some (.obj fs) →
      lookup (.obj defaults) path = some (.obj ds) →
      lookup (.obj (mergeDefaults data defaults)) path =
        some (.obj (mergeDefaults fs ds))) ∧
    (∀ path found fs,
      lookup (.obj data) path = none →
      FoundUpTo (.obj data) path found →
      lookup (.obj data) found = some (.obj fs) →
      lookup (.obj (mergeDefaults data defaults)) path =
        lookup (.obj defaults) path) ∧
    (∀ path,
      lookup (.obj (mergeDefaults data defaults)) path ≠ none →
      lookup (.obj data) path = none →
      lookup (.obj defaults) path ≠ none ∧
        ∃ found fs, FoundUpTo (.obj data) path found ∧
          lookup (.obj data) found = some (.obj fs)) ∧
    (∀ path,
      lookup (.obj data) path ≠ none →
      lookup (.obj (mergeDefaults data defaults)) path ≠
        none) ∧
    mergeDefaults (mergeDefaults data defaults) defaults =
      mergeDefaults data defaults := by
  have hMerged :
      Json.obj (mergeDefaults data defaults) =
        mergeValue (.obj defaults) (.obj data) :=
    (mergeValue_obj defaults data).symm
  rw [hMerged]
  refine ⟨?_, ?_, ?_, ?_, ?_, ?_⟩
  · intro path x hData hNotBoth
    exact lookup_mergeValue_of_not_both hNames hData hNotBoth
  · intro path fs ds hData hDefault
    rw [lookup_mergeValue_of_some hNames hData, hDefault,
      filled, mergeValue_obj]
    rfl
  · intro path found fs hNone hFound hObject
    exact hFound.lookup_mergeValue_of_object hNames hNone
      hObject
  · intro path hThere hNone
    exact exists_of_lookup_mergeValue hNames hThere hNone
  · intro path hThere
    exact lookup_mergeValue_ne_none hNames hThere
  · have hAgain := mergeValue_mergeValue hNames (.obj data)
    rw [mergeValue_obj, mergeValue_obj] at hAgain
    exact Json.obj.inj hAgain

/- Defaults for a theme and a font, and for an overlay. -/
def sampleDefaults : Tree :=
  [("overlay", .obj [("enabled", .bool true)]),
    ("editor", .obj
      [("theme", .str "light"),
        ("font", .obj [("size", .int 10)])])]

/- Settings with a null theme and a number as overlay. -/
def sampleSettings : Tree :=
  [("overlay", .int 5), ("editor", .obj [("theme", .null)])]

theorem distinct_sampleDefaults :
    Json.Distinct (.obj sampleDefaults) := by
  have hTidy : Json.Tidy (.obj sampleDefaults) := by
    simp only [sampleDefaults, Json.tidy_obj_iff,
      List.forall_mem_cons, List.not_mem_nil, false_imp_iff,
      forall_const, and_true, Json.tidy_str, Json.tidy_int,
      Json.tidy_bool]
    decide
  exact hTidy.imp fun _ h => h.1

/-
  The theme stays null, the size of the font is filled in,
  and the number hides what the overlay could have had.
-/
theorem sampleSettings_merged :
    Json.Distinct (.obj sampleDefaults) ∧
      lookup (.obj (mergeDefaults sampleSettings
        sampleDefaults)) ["editor", "theme"] = some .null ∧
      lookup (.obj (mergeDefaults sampleSettings
        sampleDefaults)) ["editor", "font", "size"] =
          some (.int 10) ∧
      lookup (.obj (mergeDefaults sampleSettings
        sampleDefaults)) ["overlay", "enabled"] = none := by
  rcases mergeDefaults_pathwise sampleSettings sampleDefaults
      distinct_sampleDefaults with
    ⟨hKept, -, hFilled, hNoOthers, -, -⟩
  refine ⟨distinct_sampleDefaults, ?_, ?_, ?_⟩
  · refine hKept ["editor", "theme"] .null rfl ?_
    rintro ⟨fs, ds, hNull, -⟩
    cases hNull
  · have hFound :
        FoundUpTo (.obj sampleSettings)
          ["editor", "font", "size"] ["editor"] := by
      refine ⟨by decide, Option.some_ne_none _, ?_⟩
      intro other hAlong hThere
      rw [← List.mem_inits] at hAlong
      simp only [List.inits, List.map_cons, List.map_nil,
        List.mem_cons, List.not_mem_nil, or_false] at hAlong
      rcases hAlong with rfl | rfl | rfl | rfl
      · exact List.nil_prefix
      · exact List.prefix_rfl
      · exact absurd rfl hThere
      · exact absurd rfl hThere
    exact hFilled _ _ _ rfl hFound rfl
  · by_contra hThere
    rcases hNoOthers _ hThere rfl with
      ⟨-, found, fs, hFound, hObject⟩
    have hNumber := hFound.longest ["overlay"] (by decide)
      (Option.some_ne_none _)
    rcases hNumber with ⟨tail, rfl⟩
    cases tail with
    | nil => cases hObject
    | cons part rest => cases hObject

end Tree

end StyleCompanion
