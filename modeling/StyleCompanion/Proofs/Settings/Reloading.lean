import StyleCompanion.Proofs.Json.Saved
import StyleCompanion.Proofs.Settings.Conformity

/-
  Saving settings and loading them again.

  Settings that were loaded and saved are loaded without error
  and without a change by the rules.  They are the settings
  that were saved, with sorted fields, exactly if the file they
  came from has objects for the backend and its environment.
  Otherwise the rules have put an object there that lacks some
  defaults, and the second load fills them in.

  Main declarations:
    * `Tree.sorted`
    * `Settings.BackendIntact`
    * `Settings.conforms_reloaded`
    * `Settings.mergeDefaults_sorted`
    * `SettingsStore.throughout_load`
    * `SettingsStore.exists_load_again`
    * `SettingsStore.reload_saved_iff`
-/

namespace StyleCompanion

----
-- Sorted settings
----

namespace Tree

/- Settings with sorted fields. -/
def sorted
    (t : Tree) : Tree :=
  (Json.sortFields t).map fun f => (f.1, f.2.ordered)

theorem ordered_obj_eq
    (t : Tree) :
    (Json.obj t).ordered = .obj (sorted t) :=
  Json.ordered_obj t

/- Sorting fields changes no path. -/
theorem lookup_ordered
    {x : Json}
    (h : x.Distinct)
    (path : List String) :
    lookup x.ordered path = (lookup x path).map Json.ordered := by
  induction path generalizing x with
  | nil => rfl
  | cons part rest ih =>
      rcases x.fields?_eq_none_or with hFields | ⟨fs, rfl⟩
      · have hOrdered : x.ordered.fields? = none := by
          cases x with
          | obj fs => cases hFields
          | _ => rfl
        rw [lookup_cons_of_fields?_eq_none hFields,
          lookup_cons_of_fields?_eq_none hOrdered]
        rfl
      · have hNames := (Json.distinct_obj_iff.mp h).1
        rw [Json.ordered_obj, lookup_obj_cons, lookup_obj_cons,
          Json.get?_ordered hNames]
        cases hField : Table.get? fs part with
        | none => rfl
        | some y => exact ih (h.get? hField)

/- Equal values have the same paths. -/
theorem lookup_ne_none_of_agrees
    {x y : Json}
    {path : List String}
    (h : x.agrees y = true)
    (hFound : lookup x path ≠ none) :
    lookup y path ≠ none := by
  induction path generalizing x y with
  | nil => exact Option.some_ne_none y
  | cons part rest ih =>
      rcases Option.ne_none_iff_exists'.mp hFound with ⟨u, hu⟩
      rcases exists_of_lookup_cons hu with
        ⟨fs, z, rfl, hField, hRest⟩
      cases y with
      | obj gs =>
          rw [Json.agrees, Bool.and_eq_true,
            Json.agreeFields_iff] at h
          rcases h.2 (part, z) (Table.mem_of_get? hField) with
            ⟨w, hw, hAgrees⟩
          rw [lookup_obj_cons, hw]
          refine ih hAgrees ?_
          rw [hRest]
          exact Option.some_ne_none u
      | _ => cases h

end Tree

namespace Settings

variable {data : Tree}
variable {changed : Bool}

theorem valueAt_sorted
    (h : Json.Distinct (.obj data))
    (key : String) :
    valueAt (Tree.sorted data) key =
      (valueAt data key).ordered := by
  rw [valueAt, Tree.get, ← Tree.ordered_obj_eq,
    Tree.lookup_ordered h, valueAt, Tree.get]
  cases Tree.lookup (.obj data) (Tree.keyPath key) with
  | none => rfl
  | some x => rfl

----
-- Conformity of what is loaded again
----

/-
  A plain value that settings have is there after sorting and
  filling up with the defaults.
-/
theorem good_reloaded
    {key : String}
    {d : Json}
    {P : Json → Prop}
    (hDistinct : Json.Distinct (.obj data))
    (hDefault :
      Tree.lookup (.obj appDefaults) (Tree.keyPath key) = some d)
    (hLeaf : d.fields? = none)
    (hNull : ¬ P .null)
    (hOrdered : ∀ x, P x → P x.ordered)
    (h : P (valueAt data key)) :
    P
      (valueAt
        (Tree.mergeDefaults (Tree.sorted data) appDefaults)
        key) := by
  have hSorted := hOrdered _ h
  rw [← valueAt_sorted hDistinct] at hSorted
  rcases Tree.lookup_mergeDefaults_of_leaf
      distinct_appDefaults hDefault hLeaf
      (Tree.sorted data) with
    hSame | ⟨hNone, -⟩
  · rw [valueAt, Tree.get, hSame]
    exact hSorted
  · rw [valueAt, Tree.get, hNone] at hSorted
    exact absurd hSorted hNull

theorem ordered_of_isWithin
    {low high : Int}
    {x : Json}
    (h : IsWithin low high x) :
    x.ordered = x := by
  rcases h with ⟨n, hSame, -⟩
  cases x with
  | arr xs => cases hSame
  | obj fs => cases hSame
  | _ => rfl

theorem ordered_texts
    (texts : List String) :
    (Json.arr (texts.map .str)).ordered =
      .arr (texts.map .str) := by
  rw [Json.ordered_arr, List.map_map]
  rfl

/- The environment is an object in sorted settings too. -/
theorem lookup_env_sorted
    (hDistinct : Json.Distinct (.obj data))
    (h : ∃ fs, valueAt data "server.env" = .obj fs) :
    ∃ fs,
      Tree.lookup (.obj (Tree.sorted data))
          (Tree.keyPath "server.env") =
        some (.obj fs) := by
  rcases h with ⟨fs, hValue⟩
  have hSorted := valueAt_sorted hDistinct "server.env"
  rw [hValue, Tree.ordered_obj_eq] at hSorted
  refine ⟨Tree.sorted fs, ?_⟩
  cases hFound : Tree.lookup (.obj (Tree.sorted data))
      (Tree.keyPath "server.env") with
  | none =>
      rw [valueAt, Tree.get, hFound] at hSorted
      cases hSorted
  | some x =>
      rw [valueAt, Tree.get, hFound] at hSorted
      exact congrArg some hSorted

/- The environment stays an object when it is filled up. -/
theorem serverEnv_reloaded
    (hDistinct : Json.Distinct (.obj data))
    (h : ∃ fs, valueAt data "server.env" = .obj fs) :
    ∃ fs,
      valueAt
          (Tree.mergeDefaults (Tree.sorted data) appDefaults)
          "server.env" =
        .obj fs := by
  rcases lookup_env_sorted hDistinct h with ⟨fs, hLookup⟩
  have hDefault :
      Tree.lookup (.obj appDefaults)
          (Tree.keyPath "server.env") =
        some (.obj [("RUST_LOG", .str "debug")]) := by
    rfl
  refine ⟨Tree.mergeFields [("RUST_LOG", .str "debug")] fs, ?_⟩
  rw [valueAt, Tree.get, Tree.mergeDefaults,
    ← Tree.mergeValue_obj,
    Tree.lookup_mergeValue_of_some distinct_appDefaults hLookup,
    hDefault, Tree.filled, Tree.mergeValue_obj]
  rfl

/- What is loaded again conforms as what was saved did. -/
theorem conforms_reloaded
    {Color : String → Prop}
    (hDistinct : Json.Distinct (.obj data))
    (h : Conforms Color data) :
    Conforms Color
      (Tree.mergeDefaults (Tree.sorted data) appDefaults) where
  palette := by
    refine good_reloaded hDistinct rfl rfl ?_ ?_ h.palette
    · rintro ⟨colors, hEq, -⟩
      cases hEq
    · rintro x ⟨colors, rfl, hColors⟩
      exact ⟨colors, ordered_texts colors, hColors⟩
  lineAlpha := by
    refine good_reloaded hDistinct rfl rfl ?_ ?_ h.lineAlpha
    · rintro ⟨n, hSame, -⟩
      cases hSame
    · intro x hx
      rw [ordered_of_isWithin hx]
      exact hx
  enabled := by
    refine good_reloaded
      (P := fun x => ∃ b, x = .bool b) hDistinct rfl rfl
      ?_ ?_ h.enabled
    · rintro ⟨b, hEq⟩
      cases hEq
    · rintro x ⟨b, rfl⟩
      exact ⟨b, rfl⟩
  overwrittenStyle := by
    refine good_reloaded hDistinct rfl rfl ?_ ?_
      h.overwrittenStyle
    · rintro ⟨s, -, hEq⟩
      cases hEq
    · rintro x ⟨s, hs, rfl⟩
      exact ⟨s, hs, rfl⟩
  fontSize := by
    refine good_reloaded hDistinct rfl rfl ?_ ?_ h.fontSize
    · rintro ⟨n, hSame, -⟩
      cases hSame
    · intro x hx
      rw [ordered_of_isWithin hx]
      exact hx
  fontFamily := by
    refine good_reloaded hDistinct rfl rfl ?_ ?_ h.fontFamily
    · rintro ⟨s, hEq, -⟩
      cases hEq
    · rintro x ⟨s, rfl, hs⟩
      exact ⟨s, rfl, hs⟩
  logLevel := by
    refine good_reloaded hDistinct rfl rfl ?_ ?_ h.logLevel
    · rintro ⟨s, -, hEq⟩
      cases hEq
    · rintro x ⟨s, hs, rfl⟩
      exact ⟨s, hs, rfl⟩
  serverArgs := by
    refine good_reloaded
      (P := fun x => ∃ xs, x = .arr xs) hDistinct rfl rfl
      ?_ ?_ h.serverArgs
    · rintro ⟨xs, hEq⟩
      cases hEq
    · rintro x ⟨xs, rfl⟩
      exact ⟨_, Json.ordered_arr xs⟩
  serverEnv := serverEnv_reloaded hDistinct h.serverEnv

----
-- The backend
----

/-
  The settings of the backend are an object, if there are any,
  and so is the environment in them.
-/
def BackendIntact
    (t : Tree) : Prop :=
  ∀ x, Table.get? t "server" = some x →
    ∃ fs, x = .obj fs ∧
      ∀ y, Table.get? fs "env" = some y → ∃ gs, y = .obj gs

/- A backend with an object for its environment is intact. -/
theorem intact_of_lookup
    {t fs : Tree}
    (h :
      Tree.lookup (.obj t) ["server", "env"] =
        some (.obj fs)) :
    BackendIntact t := by
  rw [Tree.lookup_obj_cons] at h
  rcases Option.bind_eq_some_iff.mp h with ⟨x, hx, hEnv⟩
  rcases Tree.exists_of_lookup_cons hEnv with
    ⟨gs, y, rfl, hy, hEq⟩
  intro z hz
  rw [hx] at hz
  cases hz
  refine ⟨gs, rfl, fun w hw => ?_⟩
  rw [hy] at hw
  cases hw
  exact ⟨fs, Option.some.inj hEq⟩

theorem intact_of_isSome
    {t : Tree}
    (h :
      ((Tree.lookup (.obj t) ["server", "env"]).bind
        Json.fields?).isSome = true) :
    BackendIntact t := by
  rcases Option.isSome_iff_exists.mp h with ⟨fs, hFields⟩
  rcases Option.bind_eq_some_iff.mp hFields with ⟨x, hFound, hx⟩
  rcases x.fields?_eq_none_or with hNone | ⟨gs, rfl⟩
  · rw [hNone] at hx
    cases hx
  · exact intact_of_lookup hFound

/- The default paths of the backend that no rule watches. -/
def backendPaths : List (List String) :=
  [["server", "program"], ["server", "trace"],
    ["server", "env", "RUST_LOG"]]

theorem passable_of_intact
    {t : Tree}
    (h : BackendIntact t) :
    ∀ path ∈ backendPaths, Tree.Passable (.obj t) path := by
  have hShort :
      ∀ part, Tree.Passable (.obj t) ["server", part] := by
    intro part
    refine ⟨t, rfl, fun x hx => ?_⟩
    rcases h x hx with ⟨fs, rfl, -⟩
    exact ⟨fs, rfl, fun _ _ => trivial⟩
  have hLong :
      Tree.Passable (.obj t) ["server", "env", "RUST_LOG"] := by
    refine ⟨t, rfl, fun x hx => ?_⟩
    rcases h x hx with ⟨fs, rfl, hEnv⟩
    refine ⟨fs, rfl, fun y hy => ?_⟩
    rcases hEnv y hy with ⟨gs, rfl⟩
    exact ⟨gs, rfl, fun _ _ => trivial⟩
  simp only [backendPaths, List.forall_mem_cons,
    List.not_mem_nil, false_imp_iff, implies_true, and_true]
  exact ⟨hShort "program", hShort "trace", hLong⟩

/- The defaults bring those paths where they can. -/
theorem backendPaths_of_intact
    {t : Tree}
    (h : BackendIntact t) :
    ∀ path ∈ backendPaths,
      Tree.lookup (.obj (Tree.mergeDefaults t appDefaults))
        path ≠ none := by
  have hDefault :
      ∀ path ∈ backendPaths,
        Tree.lookup (.obj appDefaults) path ≠ none := by
    simp only [backendPaths, List.forall_mem_cons,
      List.not_mem_nil, false_imp_iff, implies_true, and_true]
    exact ⟨Option.some_ne_none _, Option.some_ne_none _,
      Option.some_ne_none _⟩
  intro path hPath
  exact Tree.lookup_mergeDefaults_ne_none distinct_appDefaults
    (hDefault path hPath) (passable_of_intact h path hPath)

/- No rule changes the program or the trace of the backend. -/
theorem lookup_backend_normalize
    {part : String}
    (hPart : part = "program" ∨ part = "trace") :
    Tree.lookup (.obj (normalize appDefaults data).1)
        ["server", part] =
      Tree.lookup (.obj data) ["server", part] := by
  have hApart :
      ∀ path ∈ rules.map Rule.path,
        Tree.Apart path ["server", part] := by
    rw [paths_rules]
    rcases hPart with rfl | rfl
    · decide
    · decide
  exact lookup_runRules_of_apart fun q hq =>
    hApart q.path (List.mem_map_of_mem hq)

/- The environment of the backend after the rules have run. -/
theorem lookup_env_normalize
    {t : Tree}
    {w : Option Json}
    (hRun : normalize appDefaults data = (t, .ok changed))
    (hWanted : serverEnvRule.wanted appDefaults data = .ok w) :
    Tree.lookup (.obj t) ["server", "env"] =
      w.or (Tree.lookup (.obj data) ["server", "env"]) := by
  have hMem : serverEnvRule ∈ rules := by simp [rules]
  have hPath : serverEnvRule.path = ["server", "env"] := by
    decide
  have hOk : (runRules rules appDefaults data).2 =
      .ok changed := congrArg Prod.snd hRun
  have hTree : (runRules rules appDefaults data).1 = t :=
    congrArg Prod.fst hRun
  have hLookup := lookup_runRules_of_mem rulesApart_rules
    hMem hOk hWanted
  rw [hTree, hPath] at hLookup
  exact hLookup

/- An environment that is an object stays. -/
theorem lookup_env_of_obj
    {t fs : Tree}
    (hRun : normalize appDefaults data = (t, .ok changed))
    (h :
      Tree.lookup (.obj data) ["server", "env"] =
        some (.obj fs)) :
    Tree.lookup (.obj t) ["server", "env"] =
      some (.obj fs) := by
  have hValue : valueAt data serverEnvRule.key = .obj fs :=
    congrArg (·.getD .null) h
  have hWanted :
      serverEnvRule.wanted appDefaults data = .ok none := by
    rw [Rule.wanted, hValue]
    rfl
  rw [lookup_env_normalize hRun hWanted, h]
  rfl

/- Any other environment becomes an empty object. -/
theorem lookup_env_of_other
    {t : Tree}
    {y : Json}
    (hRun : normalize appDefaults data = (t, .ok changed))
    (h : Tree.lookup (.obj data) ["server", "env"] = some y)
    (hFields : y.fields? = none) :
    Tree.lookup (.obj t) ["server", "env"] =
      some (.obj []) := by
  have hValue : valueAt data serverEnvRule.key = y :=
    congrArg (·.getD .null) h
  have hWanted :
      serverEnvRule.wanted appDefaults data =
        .ok (some (.obj [])) := by
    rw [Rule.wanted, hValue]
    cases y with
    | obj fs => cases hFields
    | _ => rfl
  rw [lookup_env_normalize hRun hWanted]
  rfl

variable {t fs : Tree}

/- Settings from an intact backend have all its paths. -/
theorem backendPaths_normalize
    (hIntact : BackendIntact fs)
    (hRun :
      normalize appDefaults
          (Tree.mergeDefaults fs appDefaults) =
        (t, .ok changed)) :
    ∀ path ∈ backendPaths,
      Tree.lookup (.obj t) path ≠ none := by
  have hMerged := backendPaths_of_intact hIntact
  have hTree :
      (normalize appDefaults
        (Tree.mergeDefaults fs appDefaults)).1 = t :=
    congrArg Prod.fst hRun
  simp only [backendPaths, List.forall_mem_cons,
    List.not_mem_nil, false_imp_iff, implies_true, and_true]
    at hMerged ⊢
  rcases hMerged with ⟨hProgram, hTrace, hLog⟩
  refine ⟨?_, ?_, ?_⟩
  · rw [← hTree, lookup_backend_normalize (Or.inl rfl)]
    exact hProgram
  · rw [← hTree, lookup_backend_normalize (Or.inr rfl)]
    exact hTrace
  · -- The environment has the path, so it is an object.
    rcases Option.ne_none_iff_exists'.mp hLog with ⟨x, hx⟩
    have hSplit := hx
    rw [show ["server", "env", "RUST_LOG"] =
        ["server", "env"] ++ ["RUST_LOG"] from rfl,
      Tree.lookup_append] at hSplit
    rcases Option.bind_eq_some_iff.mp hSplit with
      ⟨y, hEnv, hVariable⟩
    rcases Tree.exists_of_lookup_cons hVariable with
      ⟨gs, z, rfl, -, -⟩
    rw [show ["server", "env", "RUST_LOG"] =
        ["server", "env"] ++ ["RUST_LOG"] from rfl,
      Tree.lookup_append, lookup_env_of_obj hRun hEnv,
      Option.bind_some, hVariable]
    exact Option.some_ne_none x

/- Settings from any other backend lack one of its paths. -/
theorem lacks_backendPath
    (hBroken : ¬ BackendIntact fs)
    (hRun :
      normalize appDefaults
          (Tree.mergeDefaults fs appDefaults) =
        (t, .ok changed)) :
    ∃ path ∈ backendPaths, Tree.lookup (.obj t) path = none := by
  have hTree :
      (normalize appDefaults
        (Tree.mergeDefaults fs appDefaults)).1 = t :=
    congrArg Prod.fst hRun
  rw [BackendIntact] at hBroken
  simp only [not_forall] at hBroken
  rcases hBroken with ⟨x, hServer, hBad⟩
  have hFound : Tree.lookup (.obj fs) ["server"] = some x := by
    rw [Tree.lookup_obj_cons, hServer]
    rfl
  rcases x.fields?_eq_none_or with hPlain | ⟨gs, rfl⟩
  · refine ⟨["server", "program"], by decide, ?_⟩
    have hMerged := Tree.lookup_mergeDefaults_of_plain
      distinct_appDefaults hFound hPlain
    rw [← hTree, lookup_backend_normalize (Or.inl rfl),
      show ["server", "program"] = ["server"] ++ ["program"]
        from rfl,
      Tree.lookup_append, hMerged, Option.bind_some]
    exact Tree.lookup_cons_of_fields?_eq_none hPlain _ _
  · refine ⟨["server", "env", "RUST_LOG"], by decide, ?_⟩
    have hEnv :
        ∃ y, Table.get? gs "env" = some y ∧
          y.fields? = none := by
      by_contra hNone
      refine hBad ⟨gs, rfl, fun y hy => ?_⟩
      rcases y.fields?_eq_none_or with hPlain | hObject
      · exact absurd ⟨y, hy, hPlain⟩ hNone
      · exact hObject
    rcases hEnv with ⟨y, hy, hPlain⟩
    have hInside :
        Tree.lookup (.obj fs) ["server", "env"] = some y := by
      rw [Tree.lookup_obj_cons, hServer, Option.bind_some,
        Tree.lookup_obj_cons, hy]
      rfl
    have hMerged := Tree.lookup_mergeDefaults_of_plain
      distinct_appDefaults hInside hPlain
    rw [show ["server", "env", "RUST_LOG"] =
        ["server", "env"] ++ ["RUST_LOG"] from rfl,
      Tree.lookup_append,
      lookup_env_of_other hRun hMerged hPlain]
    rfl

----
-- Nothing lacks
----

theorem lookup_ne_none_of_valueAt
    {key : String}
    (h : valueAt data key ≠ .null) :
    Tree.lookup (.obj data) (Tree.keyPath key) ≠ none := by
  intro hNone
  rw [valueAt, Tree.get, hNone] at h
  exact h rfl

/- Settings that conform have a value at every rule's path. -/
theorem Conforms.lookup_path
    {Color : String → Prop}
    (h : Conforms Color data) :
    ∀ q ∈ rules, Tree.lookup (.obj data) q.path ≠ none := by
  have hNumber :
      ∀ {low high : Int}, ¬ IsWithin low high .null := by
    rintro low high ⟨n, hSame, -⟩
    cases hSame
  have hChoice :
      ∀ {allowed : List String}, ¬ IsOneOf allowed .null := by
    rintro allowed ⟨s, -, hEq⟩
    cases hEq
  refine forall_rules_iff.mpr
    ⟨?_, ?_, ?_, ?_, ?_, ?_, ?_, ?_, ?_⟩ <;>
    refine lookup_ne_none_of_valueAt fun hNull => ?_
  · rcases hNull ▸ h.palette with ⟨colors, hEq, -⟩
    cases hEq
  · exact hNumber (hNull ▸ h.lineAlpha)
  · rcases hNull ▸ h.enabled with ⟨b, hEq⟩
    cases hEq
  · exact hNumber (hNull ▸ h.fontSize)
  · rcases hNull ▸ h.fontFamily with ⟨s, hEq, -⟩
    cases hEq
  · exact hChoice (hNull ▸ h.overwrittenStyle)
  · exact hChoice (hNull ▸ h.logLevel)
  · rcases hNull ▸ h.serverArgs with ⟨xs, hEq⟩
    cases hEq
  · rcases hNull ▸ h.serverEnv with ⟨gs, hEq⟩
    cases hEq

/- Every default lies on a rule's path or on the backend's. -/
theorem paths_appDefaults :
    ∀ path ∈ Tree.paths (.obj appDefaults),
      ∃ whole ∈ rules.map Rule.path ++ backendPaths,
        path <+: whole := by
  rw [paths_rules]
  decide

/- Settings with all paths of the backend lack nothing. -/
theorem mergeDefaults_sorted
    {Color : String → Prop}
    (hDistinct : Json.Distinct (.obj data))
    (hConforms : Conforms Color data)
    (hBackend :
      ∀ path ∈ backendPaths,
        Tree.lookup (.obj data) path ≠ none) :
    Tree.mergeDefaults (Tree.sorted data) appDefaults =
      Tree.sorted data := by
  have hAll :
      ∀ path ∈ rules.map Rule.path ++ backendPaths,
        Tree.lookup (.obj data) path ≠ none := by
    intro path hPath
    rcases List.mem_append.mp hPath with hRule | hOther
    · rcases List.mem_map.mp hRule with ⟨q, hq, rfl⟩
      exact hConforms.lookup_path q hq
    · exact hBackend path hOther
  apply Json.obj.inj
  rw [Tree.mergeDefaults, ← Tree.mergeValue_obj]
  refine Tree.mergeValue_eq_self distinct_appDefaults ?_
  intro path hPath
  rcases paths_appDefaults path
      (Tree.mem_paths_of_lookup hPath) with
    ⟨whole, hWhole, hPrefix⟩
  refine Tree.lookup_ne_none_of_prefix hPrefix ?_
  rw [← Tree.ordered_obj_eq, Tree.lookup_ordered hDistinct]
  intro hNone
  exact hAll whole hWhole (Option.map_eq_none_iff.mp hNone)

/- A default of the backend is there once it was filled in. -/
theorem backendPaths_reloaded
    {Color : String → Prop}
    (hDistinct : Json.Distinct (.obj data))
    (hConforms : Conforms Color data) :
    ∀ path ∈ backendPaths,
      Tree.lookup
          (.obj (Tree.mergeDefaults (Tree.sorted data)
            appDefaults)) path ≠
        none := by
  rcases lookup_env_sorted hDistinct hConforms.serverEnv with
    ⟨gs, hEnv⟩
  exact backendPaths_of_intact (intact_of_lookup hEnv)

/- Settings that lacked such a default are not the same then. -/
theorem reloaded_not_same
    {Color : String → Prop}
    {path : List String}
    (hDistinct : Json.Distinct (.obj data))
    (hConforms : Conforms Color data)
    (hPath : path ∈ backendPaths)
    (hNone : Tree.lookup (.obj data) path = none) :
    (Json.obj
      (Tree.mergeDefaults (Tree.sorted data)
        appDefaults)).same (.obj data) = false := by
  refine Bool.eq_false_iff.mpr fun hSame => ?_
  exact Tree.lookup_ne_none_of_agrees hSame
    (backendPaths_reloaded hDistinct hConforms path hPath) hNone

end Settings

----
-- The store
----

/- No two fields of a file have one name. -/
theorem distinct_fileSettings
    (path : String)
    (found : FileState) :
    Json.Distinct (.obj (fileSettings path found)) := by
  have hEmpty := Json.fieldStable_namesDiffer.throughout_empty
  cases hRead : readSettings path found with
  | error e =>
      rw [fileSettings, hRead]
      exact hEmpty
  | ok fs =>
      rw [fileSettings, hRead]
      cases found with
      | missing =>
          cases hRead
          exact hEmpty
      | blocked =>
          cases hRead
          exact hEmpty
      | directory => cases hRead
      | file bytes =>
          rw [readSettings] at hRead
          split at hRead
          next => cases hRead
          next text hText =>
            rw [readSettingsText] at hRead
            split at hRead
            next => cases hRead
            next gs hValue =>
              cases hRead
              exact Json.distinct_read hValue
            next => cases hRead

/- Saved settings are read with their fields sorted. -/
theorem readSettings_saved
    (path : String)
    {data : Tree}
    (hDistinct : Json.Distinct (.obj data))
    (hFree : Json.DoubleFree (.obj data)) :
    readSettings path
        (.file (Utf8.ofString (Json.savedText (.obj data)))) =
      .ok (Tree.sorted data) := by
  have hRead := Json.read_saved hDistinct hFree
  rw [Tree.ordered_obj_eq] at hRead
  rw [readSettings, Utf8.ofString, Utf8.decode_encode,
    Json.savedText, String.toList_ofList]
  dsimp only
  rw [readSettingsText, hRead]

namespace SettingsStore

open Settings

variable {s : SettingsStore}
variable {found : FileState}
variable {data : Tree}

/- What a file and all that is tidy have is kept in a load. -/
theorem throughout_load
    {P : Json → Prop}
    (hP : Json.FieldStable P)
    (hTidy : ∀ x, Json.NamesDiffer x ∧ Json.NotDouble x → P x)
    (hDefaults : s.defaults = appDefaults)
    (h : (s.load found).2 = .ok data)
    (hFile :
      Json.Throughout P (.obj (fileSettings s.path found))) :
    Json.Throughout P (.obj data) := by
  rcases normalize_of_load h with ⟨changed, hRun⟩
  rw [hDefaults] at hRun
  have hMerged := Tree.throughout_mergeValue hP
    (tidy_appDefaults.imp hTidy) hFile
  rw [Tree.mergeValue_obj] at hMerged
  have hNormalized := throughout_normalize hP hTidy hMerged
  rw [← Tree.mergeDefaults, hRun] at hNormalized
  exact hNormalized

theorem distinct_load
    (hDefaults : s.defaults = appDefaults)
    (h : (s.load found).2 = .ok data) :
    Json.Distinct (.obj data) :=
  throughout_load Json.fieldStable_namesDiffer (fun _ k => k.1)
    hDefaults h (distinct_fileSettings s.path found)

/- A file without doubles gives settings without. -/
theorem doubleFree_load
    (hDefaults : s.defaults = appDefaults)
    (h : (s.load found).2 = .ok data)
    (hFile :
      Json.DoubleFree (.obj (fileSettings s.path found))) :
    Json.DoubleFree (.obj data) :=
  throughout_load Json.fieldStable_notDouble (fun _ k => k.2)
    hDefaults h hFile

/- A file that can be read leaves no error. -/
theorem load_lastError
    {fs : Tree}
    (h : readSettings s.path found = .ok fs) :
    (s.load found).1.lastError = none := by
  rw [load, h]
  dsimp only
  split <;> rfl

/- What a load of saved settings gives. -/
theorem load_saved
    (hDefaults : s.defaults = appDefaults)
    (hConforms :
      Conforms (fun c => isHexColor c = true) data)
    (hDistinct : Json.Distinct (.obj data))
    (hFree : Json.DoubleFree (.obj data)) :
    let file :=
      FileState.file
        (Utf8.ofString (Json.savedText (.obj data)))
    let filled :=
      Tree.mergeDefaults (Tree.sorted data) appDefaults
    (s.load file).1.data = filled ∧
      (s.load file).1.dirty = false ∧
      (s.load file).1.lastError = none ∧
      (s.load file).2 = .ok filled := by
  intro file filled
  have hRead := readSettings_saved s.path hDistinct hFree
  have hFile : fileSettings s.path file = Tree.sorted data := by
    rw [fileSettings, hRead]
  have hRun := normalize_of_conforms
    (conforms_reloaded hDistinct hConforms)
  rw [← hFile, ← hDefaults] at hRun
  rcases load_of_ok hRun with ⟨hData, hDirty, hOutcome⟩
  rw [hFile, hDefaults] at hData hOutcome
  exact ⟨hData, hDirty, load_lastError hRead, hOutcome⟩

variable {path : String}
variable {bytes : List UInt8}
variable {loaded : SettingsStore}

/- Loaded settings are the settings of the store. -/
theorem data_of_load
    (h : s.load found = (loaded, .ok data)) :
    loaded.data = data := by
  have hOutcome : (s.load found).2 = .ok data :=
    congrArg Prod.snd h
  rcases normalize_of_load hOutcome with ⟨changed, hRun⟩
  have hData := (load_of_ok hRun).1
  rw [h] at hData
  exact hData

/- What was loaded can be saved and is loaded filled up. -/
theorem exists_load_again
    (hLoad :
      (new path appDefaults).load (.file bytes) =
        (loaded, .ok data))
    (hFree : Json.DoubleFree (.obj data)) :
    ∃ kept written again,
      loaded.save (.file bytes) = (kept, .file written, .ok ()) ∧
        (new path appDefaults).load (.file written) =
          (again, .ok again.data) ∧
        again.dirty = false ∧
        again.lastError = none ∧
        again.data =
          Tree.mergeDefaults (Tree.sorted data) appDefaults := by
  have hOutcome := congrArg Prod.snd hLoad
  rcases normalize_of_load hOutcome with ⟨changed, hRun⟩
  rcases load_saved (s := new path appDefaults) rfl
      (conforms_normalize hRun) (distinct_load rfl hOutcome)
      hFree with
    ⟨hData, hDirty, hError, hAgain⟩
  have hText :
      loaded.savedText = Json.savedText (.obj data) := by
    rw [savedText, data_of_load hLoad]
  rw [← hText] at hData hDirty hError hAgain
  rw [← hData] at hAgain
  refine ⟨_, Utf8.ofString loaded.savedText, _, rfl, ?_, hDirty,
    hError, hData⟩
  rw [← hAgain]

/- A load with an outcome gives a store. -/
theorem load_eq_of_isOk
    (s : SettingsStore)
    (found : FileState)
    (h : (s.load found).2.isOk = true) :
    s.load found =
      ((s.load found).1, .ok (s.load found).1.data) := by
  rw [← load_of_isOk h]

/- Settings without a default of the backend do change. -/
theorem exists_load_changed
    {lacking : List String}
    (hLoad :
      (new path appDefaults).load (.file bytes) =
        (loaded, .ok data))
    (hFree : Json.DoubleFree (.obj data))
    (hMem : lacking ∈ backendPaths)
    (hNone : (Tree.lookup (.obj data) lacking).isNone = true) :
    ∃ kept written again,
      loaded.save (.file bytes) = (kept, .file written, .ok ()) ∧
        (new path appDefaults).load (.file written) =
          (again, .ok again.data) ∧
        (Json.obj again.data).same (.obj data) = false := by
  have hOutcome := congrArg Prod.snd hLoad
  rcases normalize_of_load hOutcome with ⟨changed, hRun⟩
  rcases exists_load_again hLoad hFree with
    ⟨kept, written, again, hSave, hAgain, -, -, hData⟩
  refine ⟨kept, written, again, hSave, hAgain, ?_⟩
  rw [hData]
  exact reloaded_not_same (distinct_load rfl hOutcome)
    (conforms_normalize hRun) hMem
    (Option.isNone_iff_eq_none.mp hNone)

/-
  Settings that a load gave are saved and loaded again without
  error and without a change by the rules.  They are equal to
  those that were saved exactly if the backend in the file was
  intact, and then they differ in the order of fields only.
-/
theorem reload_saved_iff
    (path : String)
    (bytes : List UInt8)
    (loaded : SettingsStore)
    (data : Tree)
    (hLoad :
      (new path appDefaults).load (.file bytes) =
        (loaded, .ok data))
    (hFree : Json.DoubleFree (.obj data)) :
    let file :=
      fileSettings (new path appDefaults).path (.file bytes)
    ∃ kept written again,
      loaded.save (.file bytes) = (kept, .file written, .ok ()) ∧
        (new path appDefaults).load (.file written) =
          (again, .ok again.data) ∧
        again.dirty = false ∧
        again.lastError = none ∧
        ((Json.obj again.data).same (.obj data) = true ↔
          BackendIntact file) ∧
        (BackendIntact file →
          Json.obj again.data = (Json.obj data).ordered) := by
  intro file
  have hOutcome := congrArg Prod.snd hLoad
  rcases normalize_of_load hOutcome with ⟨changed, hRun⟩
  have hDistinct := distinct_load rfl hOutcome
  have hConforms := conforms_normalize hRun
  rcases exists_load_again hLoad hFree with
    ⟨kept, written, again, hSave, hAgain, hDirty, hError, hData⟩
  have hSorted :
      BackendIntact file →
        Json.obj again.data = (Json.obj data).ordered := by
    intro hIntact
    have hBackend := backendPaths_normalize hIntact hRun
    rw [hData, mergeDefaults_sorted hDistinct hConforms hBackend,
      Tree.ordered_obj_eq]
  refine ⟨kept, written, again, hSave, hAgain, hDirty, hError,
    ⟨?_, ?_⟩, hSorted⟩
  · intro hSame
    by_contra hBroken
    rcases lacks_backendPath hBroken hRun with
      ⟨lacking, hMem, hNone⟩
    rw [hData, reloaded_not_same hDistinct hConforms hMem hNone]
      at hSame
    cases hSame
  · intro hIntact
    have hSame := Json.agrees_ordered hDistinct
    rw [hSorted hIntact]
    rw [Tree.ordered_obj_eq] at hSame ⊢
    exact hSame

/- A settings file with a number for the backend. -/
def brokenBackend : List UInt8 :=
  Utf8.ofString "\x7b\"server\": 5\x7d"

/- What is saved from the file is loaded as something else. -/
theorem brokenBackend_changes :
    ∃ loaded data kept written again,
      (new "settings.json" appDefaults).load
          (.file brokenBackend) =
        (loaded, .ok data) ∧
      Json.DoubleFree (.obj data) ∧
      loaded.save (.file brokenBackend) =
        (kept, .file written, .ok ()) ∧
      (new "settings.json" appDefaults).load (.file written) =
        (again, .ok again.data) ∧
      (Json.obj again.data).same (.obj data) = false := by
  have hLoad := load_eq_of_isOk (new "settings.json" appDefaults)
    (.file brokenBackend) (by decide +kernel)
  have hFree :
      Json.DoubleFree
        (.obj ((new "settings.json" appDefaults).load
          (.file brokenBackend)).1.data) := by
    decide +kernel
  have hMem : ["server", "program"] ∈ backendPaths := by
    decide
  rcases exists_load_changed hLoad hFree hMem
      (by decide +kernel) with
    ⟨kept, written, again, hSave, hAgain, hOther⟩
  exact ⟨_, _, kept, written, again, hLoad, hFree, hSave, hAgain,
    hOther⟩

/- A settings file with settings of its own. -/
def ownSettings : List UInt8 :=
  Utf8.ofString
    ("\x7b\"window\": [null, -7], " ++
      "\"server\": \x7b\"env\": \x7b\"A\": \"\\u00e9\"\x7d\x7d\x7d")

/- What is saved from that file is loaded as it was. -/
theorem ownSettings_reload :
    ∃ loaded data kept written again,
      (new "settings.json" appDefaults).load
          (.file ownSettings) =
        (loaded, .ok data) ∧
      Json.DoubleFree (.obj data) ∧
      BackendIntact
        (fileSettings (new "settings.json" appDefaults).path
          (.file ownSettings)) ∧
      loaded.save (.file ownSettings) =
        (kept, .file written, .ok ()) ∧
      (new "settings.json" appDefaults).load (.file written) =
        (again, .ok again.data) ∧
      again.dirty = false ∧
      again.lastError = none ∧
      (Json.obj again.data).same (.obj data) = true := by
  have hOk :
      ((new "settings.json" appDefaults).load
        (.file ownSettings)).2.isOk = true := by
    decide +kernel
  have hFile :
      Json.DoubleFree
        (.obj (fileSettings (new "settings.json" appDefaults).path
          (.file ownSettings))) := by
    decide +kernel
  have hLoad := load_eq_of_isOk _ _ hOk
  have hFree := doubleFree_load rfl (load_of_isOk hOk) hFile
  have hIntact :
      BackendIntact
        (fileSettings (new "settings.json" appDefaults).path
          (.file ownSettings)) :=
    intact_of_isSome (by decide +kernel)
  rcases reload_saved_iff "settings.json" ownSettings _ _ hLoad
      hFree with
    ⟨kept, written, again, hSave, hAgain, hDirty, hError, hSame,
      -⟩
  exact ⟨_, _, kept, written, again, hLoad, hFree, hIntact, hSave,
    hAgain, hDirty, hError, hSame.mpr hIntact⟩

end SettingsStore

end StyleCompanion
