import StyleCompanion.Proofs.Json.Parts
import StyleCompanion.Settings.Tree

/-
  Paths through trees of settings.

  What is put at a path is found there, and what is found at
  paths that lead elsewhere stays.  A value that settings have
  wins over its default, and only an object takes more fields
  from its default.

  Main declarations:
    * `Tree.Apart`
    * `Tree.lookup_assign_self`
    * `Tree.lookup_assign_of_apart`
    * `Tree.get?_mergeFields`
    * `Tree.lookup_mergeValue_of_some`
    * `Tree.lookup_mergeValue_of_none`
    * `Tree.lookup_mergeValue_of_passable`
    * `Tree.mergeValue_eq_self`
-/

namespace StyleCompanion

namespace Json

/- A value has no fields, or else it is an object. -/
theorem fields?_eq_none_or
    (x : Json) :
    x.fields? = none ∨ ∃ fs, x = .obj fs := by
  cases x with
  | obj fs => exact Or.inr ⟨fs, rfl⟩
  | _ => exact Or.inl rfl

end Json

namespace Tree

----
-- Look-up
----

/- A path goes through the field that it names first. -/
theorem lookup_obj_cons
    (t : Tree)
    (part : String)
    (rest : List String) :
    lookup (.obj t) (part :: rest) =
      (Table.get? t part).bind fun y => lookup y rest := by
  rw [lookup, Json.field?]
  cases Table.get? t part <;> rfl

/- Only objects have paths through them. -/
theorem lookup_cons_of_fields?_eq_none
    {x : Json}
    (h : x.fields? = none)
    (part : String)
    (rest : List String) :
    lookup x (part :: rest) = none := by
  cases x with
  | obj fs => cases h
  | _ => rfl

/- Whatever is found on a path goes through an object. -/
theorem exists_of_lookup_cons
    {x y : Json}
    {part : String}
    {rest : List String}
    (h : lookup x (part :: rest) = some y) :
    ∃ fs z,
      x = .obj fs ∧ Table.get? fs part = some z ∧
        lookup z rest = some y := by
  rcases x.fields?_eq_none_or with hFields | ⟨fs, rfl⟩
  · rw [lookup_cons_of_fields?_eq_none hFields] at h
    cases h
  · rw [lookup_obj_cons] at h
    rcases Option.bind_eq_some_iff.mp h with
      ⟨z, hField, hRest⟩
    exact ⟨fs, z, rfl, hField, hRest⟩

/- What holds throughout a value holds at each of its paths. -/
theorem throughout_of_lookup
    {P : Json → Prop}
    {x y : Json}
    {path : List String}
    (hx : Json.Throughout P x)
    (h : lookup x path = some y) :
    Json.Throughout P y := by
  induction path generalizing x with
  | nil =>
      cases h
      exact hx
  | cons part rest ih =>
      rcases exists_of_lookup_cons h with
        ⟨fs, z, rfl, hField, hRest⟩
      exact ih (hx.get? hField) hRest

/- A path in two parts is followed part by part. -/
theorem lookup_append
    (x : Json)
    (path rest : List String) :
    lookup x (path ++ rest) =
      (lookup x path).bind fun y => lookup y rest := by
  induction path generalizing x with
  | nil => rfl
  | cons part path ih =>
      rcases x.fields?_eq_none_or with hFields | ⟨fs, rfl⟩
      · rw [List.cons_append,
          lookup_cons_of_fields?_eq_none hFields,
          lookup_cons_of_fields?_eq_none hFields]
        rfl
      · rw [List.cons_append, lookup_obj_cons, lookup_obj_cons,
          Option.bind_assoc]
        congr 1
        funext y
        exact ih y

/- What lies on the way to something is there too. -/
theorem lookup_ne_none_of_prefix
    {x : Json}
    {path whole : List String}
    (hPrefix : path <+: whole)
    (h : lookup x whole ≠ none) :
    lookup x path ≠ none := by
  rcases hPrefix with ⟨rest, rfl⟩
  intro hNone
  rw [lookup_append, hNone] at h
  exact h rfl

/- What is no object counts as an empty one below it. -/
theorem lookup_childAt
    (t : Tree)
    (part next : String)
    (rest : List String) :
    lookup (.obj (childAt t part)) (next :: rest) =
      lookup (.obj t) (part :: next :: rest) := by
  rw [lookup_obj_cons t]
  unfold childAt
  split
  next fs hField =>
    rw [hField]
    rfl
  next hOther =>
    rw [lookup_obj_cons, Table.get?_nil]
    cases hField : Table.get? t part with
    | none => rfl
    | some x =>
        rcases x.fields?_eq_none_or with hFields | ⟨fs, rfl⟩
        · exact
            (lookup_cons_of_fields?_eq_none hFields _ _).symm
        · exact absurd hField (hOther fs)

mutual

/- The paths of a value. -/
def paths : Json → List (List String)
  | .obj fs => [] :: fieldPaths fs
  | _ => [[]]

/- The paths that begin with fields. -/
def fieldPaths : List (String × Json) → List (List String)
  | [] => []
  | (k, x) :: fs => (paths x).map (k :: ·) ++ fieldPaths fs

end

theorem cons_mem_fieldPaths
    {fs : Tree}
    {k : String}
    {x : Json}
    {path : List String}
    (hField : (k, x) ∈ fs)
    (hPath : path ∈ paths x) :
    k :: path ∈ fieldPaths fs := by
  induction fs with
  | nil => cases hField
  | cons f fs ih =>
      rcases f with ⟨l, y⟩
      rw [fieldPaths, List.mem_append]
      rcases List.mem_cons.mp hField with hEq | hRest
      · cases hEq
        exact Or.inl (List.mem_map_of_mem hPath)
      · exact Or.inr (ih hRest)

/- Whatever is found is found at one of the paths. -/
theorem mem_paths_of_lookup
    {x : Json}
    {path : List String}
    (h : lookup x path ≠ none) :
    path ∈ paths x := by
  induction path generalizing x with
  | nil => cases x <;> exact List.mem_cons_self
  | cons part rest ih =>
      rcases Option.ne_none_iff_exists'.mp h with ⟨y, hy⟩
      rcases exists_of_lookup_cons hy with
        ⟨fs, z, rfl, hField, hRest⟩
      have hFound : lookup z rest ≠ none := by
        rw [hRest]
        exact Option.some_ne_none y
      rw [paths]
      exact List.mem_cons_of_mem _
        (cons_mem_fieldPaths (Table.mem_of_get? hField)
          (ih hFound))

----
-- Assignment
----

/- Neither of two paths leads along the other. -/
def Apart
    (path other : List String) : Prop :=
  ¬ path <+: other ∧ ¬ other <+: path

instance
    (path other : List String) :
    Decidable (Apart path other) :=
  inferInstanceAs (Decidable (_ ∧ _))

theorem Apart.symm
    {path other : List String}
    (h : Apart path other) :
    Apart other path :=
  ⟨h.2, h.1⟩

/- Behind the same first part two paths are still apart. -/
theorem Apart.tail
    {part : String}
    {path other : List String}
    (h : Apart (part :: path) (part :: other)) :
    Apart path other :=
  ⟨fun hAlong => h.1 (List.cons_prefix_cons.mpr ⟨rfl, hAlong⟩),
    fun hAlong => h.2 (List.cons_prefix_cons.mpr ⟨rfl, hAlong⟩)⟩

variable {path other : List String}
variable {P : Json → Prop}

/- What is put at a path is found there. -/
theorem lookup_assign_self
    (t : Tree)
    (h : path ≠ [])
    (v : Json) :
    lookup (.obj (assign t path v)) path = some v := by
  induction path generalizing t with
  | nil => exact absurd rfl h
  | cons part rest ih =>
      cases rest with
      | nil =>
          rw [assign, lookup_obj_cons, Table.get?_insert,
            if_pos rfl]
          rfl
      | cons next rest =>
          rw [assign, lookup_obj_cons, Table.get?_insert,
            if_pos rfl]
          · exact ih (childAt t part) (List.cons_ne_nil _ _)
          · exact List.cons_ne_nil _ _

/- What is found at another path stays. -/
theorem lookup_assign_of_apart
    (t : Tree)
    (h : Apart path other)
    (v : Json) :
    lookup (.obj (assign t path v)) other =
      lookup (.obj t) other := by
  induction path generalizing t other with
  | nil => exact absurd (List.nil_prefix) h.1
  | cons part rest ih =>
      cases other with
      | nil => exact absurd (List.nil_prefix) h.2
      | cons first others =>
          -- Only under the first part can the two paths meet.
          by_cases hEq : part = first
          · subst hEq
            have hTail := h.tail
            cases rest with
            | nil => exact absurd (List.nil_prefix) hTail.1
            | cons next rest =>
                cases others with
                | nil =>
                    exact absurd (List.nil_prefix) hTail.2
                | cons second others =>
                    have hBelow := ih (childAt t part) hTail
                    rw [assign, lookup_obj_cons,
                      Table.get?_insert, if_pos rfl]
                    · exact hBelow.trans
                        (lookup_childAt t part second others)
                    · exact List.cons_ne_nil _ _
          · rw [lookup_obj_cons, lookup_obj_cons t]
            cases rest with
            | nil =>
                rw [assign, Table.get?_insert, if_neg hEq]
            | cons next rest =>
                rw [assign, Table.get?_insert, if_neg hEq]
                exact List.cons_ne_nil _ _

/- Fields of one name do not appear by an assignment. -/
theorem throughout_assign
    {t : Tree}
    {v : Json}
    (hP : Json.FieldStable P)
    (h : Json.Throughout P (.obj t))
    (hv : Json.Throughout P v) :
    Json.Throughout P (.obj (assign t path v)) := by
  induction path generalizing t with
  | nil => exact h
  | cons part rest ih =>
      cases rest with
      | nil =>
          rw [assign]
          exact hP.throughout_insert h part hv
      | cons next rest =>
          have hChild :
              Json.Throughout P (.obj (childAt t part)) := by
            unfold childAt
            split
            next fs hField => exact h.get? hField
            next => exact hP.throughout_empty
          rw [assign]
          · exact hP.throughout_insert h part (ih hChild)
          · exact List.cons_ne_nil _ _

----
-- Defaults
----

/- What a field holds once its default was filled in. -/
def filled : Option Json → Option Json → Option Json
  | d, none => d
  | none, some x => some x
  | some d, some x => some (mergeValue d x)

/- Only objects take anything from a default. -/
theorem mergeValue_of_fields?_eq_none
    {d x : Json}
    (h : d.fields? = none ∨ x.fields? = none) :
    mergeValue d x = x := by
  cases d with
  | obj ds =>
      rcases h with hDefault | hValue
      · cases hDefault
      · cases x with
        | obj fs => cases hValue
        | _ => rfl
  | _ => rfl

theorem mergeValue_obj
    (ds fs : Tree) :
    mergeValue (.obj ds) (.obj fs) =
      .obj (mergeFields ds fs) := by
  rw [mergeValue]

/- Every field is filled up by itself. -/
theorem get?_mergeFields
    {ds : Tree}
    (hNames : (Table.keys ds).Nodup)
    (t : Tree)
    (k : String) :
    Table.get? (mergeFields ds t) k =
      filled (Table.get? ds k) (Table.get? t k) := by
  induction ds generalizing t with
  | nil =>
      rw [mergeFields, Table.get?_nil]
      cases Table.get? t k <;> rfl
  | cons f rest ih =>
      rcases f with ⟨l, d⟩
      rw [Table.keys_cons, List.nodup_cons] at hNames
      rw [mergeFields]
      by_cases hEq : l = k
      · subst hEq
        have hOnce : Table.get? rest l = none :=
          Table.get?_eq_none_iff.mpr hNames.1
        cases hField : Table.get? t l with
        | none =>
            rw [ih hNames.2, hOnce, Table.get?_insert,
              if_pos rfl, Table.get?, if_pos rfl]
            rfl
        | some x =>
            rw [ih hNames.2, hOnce, Table.get?_insert,
              if_pos rfl, Table.get?, if_pos rfl]
            rfl
      · cases hField : Table.get? t l with
        | none =>
            rw [ih hNames.2, Table.get?_insert, if_neg hEq,
              Table.get?, if_neg hEq]
        | some x =>
            rw [ih hNames.2, Table.get?_insert, if_neg hEq,
              Table.get?, if_neg hEq]

/- A value that is there is filled up at its place. -/
theorem lookup_mergeValue_of_some
    {d x y : Json}
    (hDistinct : d.Distinct)
    (h : lookup x path = some y) :
    lookup (mergeValue d x) path =
      filled (lookup d path) (some y) := by
  induction path generalizing d x with
  | nil =>
      cases h
      rfl
  | cons part rest ih =>
      rcases exists_of_lookup_cons h with
        ⟨fs, z, rfl, hField, hRest⟩
      rcases d.fields?_eq_none_or with hFields | ⟨ds, rfl⟩
      · rw [mergeValue_of_fields?_eq_none (Or.inl hFields),
          lookup_cons_of_fields?_eq_none hFields, h]
        rfl
      · have hNames := (Json.distinct_obj_iff.mp hDistinct).1
        rw [mergeValue_obj, lookup_obj_cons,
          get?_mergeFields hNames, hField, lookup_obj_cons]
        cases hDefault : Table.get? ds part with
        | none =>
            rw [Option.bind_none]
            exact hRest
        | some e => exact ih (hDistinct.get? hDefault) hRest

/- A plain value wins over every default. -/
theorem lookup_mergeDefaults_of_plain
    {ds t : Tree}
    {x : Json}
    (hDistinct : Json.Distinct (.obj ds))
    (h : lookup (.obj t) path = some x)
    (hPlain : x.fields? = none) :
    lookup (.obj (mergeDefaults t ds)) path = some x := by
  rw [mergeDefaults, ← mergeValue_obj,
    lookup_mergeValue_of_some hDistinct h]
  cases lookup (.obj ds) path with
  | none => rfl
  | some d =>
      rw [filled, mergeValue_of_fields?_eq_none (Or.inr hPlain)]

/- What was not there comes from the default, if at all. -/
theorem lookup_mergeValue_of_none
    {d x : Json}
    (hDistinct : d.Distinct)
    (h : lookup x path = none) :
    lookup (mergeValue d x) path = none ∨
      lookup (mergeValue d x) path = lookup d path := by
  induction path generalizing d x with
  | nil => cases h
  | cons part rest ih =>
      rcases d.fields?_eq_none_or with hFields | ⟨ds, rfl⟩
      · rw [mergeValue_of_fields?_eq_none (Or.inl hFields)]
        exact Or.inl h
      rcases x.fields?_eq_none_or with hFields | ⟨fs, rfl⟩
      · rw [mergeValue_of_fields?_eq_none (Or.inr hFields)]
        exact Or.inl h
      have hNames := (Json.distinct_obj_iff.mp hDistinct).1
      rw [mergeValue_obj, lookup_obj_cons,
        get?_mergeFields hNames, lookup_obj_cons]
      rw [lookup_obj_cons] at h
      cases hField : Table.get? fs part with
      | none => exact Or.inr rfl
      | some z =>
          rw [hField, Option.bind_some] at h
          cases hDefault : Table.get? ds part with
          | none => exact Or.inl h
          | some e => exact ih (hDistinct.get? hDefault) h

/-
  Where the default has a plain value, settings keep theirs or
  take that value.
-/
theorem lookup_mergeDefaults_of_leaf
    {ds : Tree}
    {d : Json}
    (hDistinct : Json.Distinct (.obj ds))
    (hDefault : lookup (.obj ds) path = some d)
    (hLeaf : d.fields? = none)
    (t : Tree) :
    lookup (.obj (mergeDefaults t ds)) path =
        lookup (.obj t) path ∨
      lookup (.obj t) path = none ∧
        lookup (.obj (mergeDefaults t ds)) path = some d := by
  rw [mergeDefaults, ← mergeValue_obj]
  cases hValue : lookup (.obj t) path with
  | none =>
      have hMerged := lookup_mergeValue_of_none hDistinct hValue
      rw [hDefault] at hMerged
      exact hMerged.imp_right fun h => ⟨rfl, h⟩
  | some y =>
      have hKeep :=
        mergeValue_of_fields?_eq_none (x := y) (Or.inl hLeaf)
      rw [lookup_mergeValue_of_some hDistinct hValue, hDefault,
        filled, hKeep]
      exact Or.inl rfl

/- Nothing but objects stands on the way to a path. -/
def Passable
    (x : Json) : List String → Prop
  | [] => True
  | part :: rest =>
      ∃ fs, x = .obj fs ∧
        ∀ y, Table.get? fs part = some y → Passable y rest

/- A default that can be reached is taken. -/
theorem lookup_mergeValue_of_passable
    {d x e : Json}
    (hDistinct : d.Distinct)
    (hDefault : lookup d path = some e)
    (hPassable : Passable x path)
    (h : lookup x path = none) :
    lookup (mergeValue d x) path = some e := by
  induction path generalizing d x with
  | nil => cases h
  | cons part rest ih =>
      rcases hPassable with ⟨fs, rfl, hBelow⟩
      rcases exists_of_lookup_cons hDefault with
        ⟨ds, c, rfl, hPart, hRest⟩
      have hNames := (Json.distinct_obj_iff.mp hDistinct).1
      rw [mergeValue_obj, lookup_obj_cons,
        get?_mergeFields hNames, hPart]
      rw [lookup_obj_cons] at h
      cases hField : Table.get? fs part with
      | none => exact hRest
      | some z =>
          rw [hField, Option.bind_some] at h
          exact ih (hDistinct.get? hPart) hRest
            (hBelow z hField) h

/- So all that defaults have in reach is there. -/
theorem lookup_mergeDefaults_ne_none
    {ds t : Tree}
    (hDistinct : Json.Distinct (.obj ds))
    (hDefault : lookup (.obj ds) path ≠ none)
    (hPassable : Passable (.obj t) path) :
    lookup (.obj (mergeDefaults t ds)) path ≠ none := by
  rcases Option.ne_none_iff_exists'.mp hDefault with ⟨e, he⟩
  rw [mergeDefaults, ← mergeValue_obj]
  cases hValue : lookup (.obj t) path with
  | none =>
      rw [lookup_mergeValue_of_passable hDistinct he hPassable
        hValue]
      exact Option.some_ne_none e
  | some y =>
      rw [lookup_mergeValue_of_some hDistinct hValue, he, filled]
      exact Option.some_ne_none _

/- Fields that lack nothing stay as they are. -/
theorem mergeFields_eq_self
    {ds t : Tree}
    (h : ∀ f ∈ ds, ∃ x,
      Table.get? t f.1 = some x ∧ mergeValue f.2 x = x) :
    mergeFields ds t = t := by
  induction ds with
  | nil => rw [mergeFields]
  | cons f rest ih =>
      rcases f with ⟨k, d⟩
      rcases h (k, d) List.mem_cons_self with
        ⟨x, hField, hValue⟩
      rw [mergeFields, hField]
      dsimp only
      rw [hValue, Table.insert_of_get? hField]
      exact ih fun g hg => h g (List.mem_cons_of_mem _ hg)

/- A value with all paths of the default stays as it is. -/
theorem mergeValue_eq_self
    {d x : Json}
    (hDistinct : d.Distinct)
    (h : ∀ path, lookup d path ≠ none → lookup x path ≠ none) :
    mergeValue d x = x := by
  induction hDistinct generalizing x with
  | @intro d hNames hParts ih =>
      rcases d.fields?_eq_none_or with hFields | ⟨ds, rfl⟩
      · exact mergeValue_of_fields?_eq_none (Or.inl hFields)
      rcases x.fields?_eq_none_or with hFields | ⟨fs, rfl⟩
      · exact mergeValue_of_fields?_eq_none (Or.inr hFields)
      rw [mergeValue_obj, mergeFields_eq_self]
      rintro ⟨k, e⟩ hMem
      have hPart : Table.get? ds k = some e :=
        Table.get?_of_mem hNames hMem
      have hBelow :
          ∀ path, lookup e path ≠ none →
            lookup (.obj fs) (k :: path) ≠ none := by
        intro path hPath
        refine h (k :: path) ?_
        rw [lookup_obj_cons, hPart]
        exact hPath
      have hHere := hBelow [] (Option.some_ne_none e)
      rw [lookup_obj_cons] at hHere
      cases hField : Table.get? fs k with
      | none =>
          rw [hField] at hHere
          exact absurd rfl hHere
      | some y =>
          refine ⟨y, rfl, ?_⟩
          refine ih e (List.mem_map_of_mem hMem) ?_
          intro path hPath
          have hFound := hBelow path hPath
          rw [lookup_obj_cons, hField] at hFound
          exact hFound

theorem throughout_mergeFields
    {ds t : Tree}
    (hP : Json.FieldStable P)
    (hDefaults : ∀ f ∈ ds, Json.Throughout P f.2)
    (hValues :
      ∀ f ∈ ds, ∀ x, Json.Throughout P x →
        Json.Throughout P (mergeValue f.2 x))
    (ht : Json.Throughout P (.obj t)) :
    Json.Throughout P (.obj (mergeFields ds t)) := by
  induction ds generalizing t with
  | nil =>
      rw [mergeFields]
      exact ht
  | cons f rest ih =>
      rcases f with ⟨k, d⟩
      have hRest : ∀ g ∈ rest, Json.Throughout P g.2 :=
        fun g hg => hDefaults g (List.mem_cons_of_mem _ hg)
      have hRestValues :
          ∀ g ∈ rest, ∀ x, Json.Throughout P x →
            Json.Throughout P (mergeValue g.2 x) :=
        fun g hg => hValues g (List.mem_cons_of_mem _ hg)
      rw [mergeFields]
      split
      next hField =>
        have hDefault := hDefaults (k, d) List.mem_cons_self
        exact ih hRest hRestValues
          (hP.throughout_insert ht k hDefault)
      next x hField =>
        have hValue :=
          hValues (k, d) List.mem_cons_self x (ht.get? hField)
        exact ih hRest hRestValues
          (hP.throughout_insert ht k hValue)

/- What a value and its defaults have is kept in filling up. -/
theorem throughout_mergeValue
    {d x : Json}
    (hP : Json.FieldStable P)
    (hd : Json.Throughout P d)
    (hx : Json.Throughout P x) :
    Json.Throughout P (mergeValue d x) := by
  induction hd generalizing x with
  | @intro d hHere hParts ih =>
      rcases d.fields?_eq_none_or with hFields | ⟨ds, rfl⟩
      · rw [mergeValue_of_fields?_eq_none (Or.inl hFields)]
        exact hx
      rcases x.fields?_eq_none_or with hFields | ⟨fs, rfl⟩
      · rw [mergeValue_of_fields?_eq_none (Or.inr hFields)]
        exact hx
      have hMem : ∀ f ∈ ds, f.2 ∈ (Json.obj ds).parts :=
        fun f hf => List.mem_map_of_mem hf
      rw [mergeValue_obj]
      exact throughout_mergeFields hP
        (fun f hf => hParts f.2 (hMem f hf))
        (fun f hf y hy => ih f.2 (hMem f hf) hy) hx

end Tree

end StyleCompanion
