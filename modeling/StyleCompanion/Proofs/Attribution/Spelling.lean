import Mathlib.Data.List.Forall2
import Mathlib.Data.List.Pairwise
import StyleCompanion.Proofs.Attribution.Grammar
import StyleCompanion.Proofs.Table

/-
  The names of fields.

  A field may go by several names.  As long as an entry has no
  field under two of them, it does not matter which one it has:
  payloads that differ in the names of fields, and in the order
  of fields, are decoded to the same model, or refused for the
  same reason.

  Main declarations:
    * `FieldSpec`
    * `EntrySpec`
    * `Respelled`
    * `payloadSpec`
    * `RespelledFields.same_pick`
    * `ofPayload_eq_of_respelled`
-/

namespace StyleCompanion

namespace Json

/- What is picked is a field under one of the names, or null. -/
theorem pick_cases
    (fs : Table String Json)
    (names : List String) :
    (∃ f ∈ fs, f.1 ∈ names ∧ pick fs names = f.2) ∨
      (∀ f ∈ fs, f.1 ∉ names) ∧ pick fs names = .null := by
  induction names with
  | nil => exact Or.inr ⟨fun _ _ => List.not_mem_nil, rfl⟩
  | cons name rest ih =>
      cases hField : Table.get? fs name with
      | some x =>
          refine Or.inl ⟨(name, x), Table.mem_of_get? hField,
            List.mem_cons_self, ?_⟩
          rw [pick, hField]
      | none =>
          rw [pick, hField]
          rcases ih with ⟨f, hf, hName, hPick⟩ | ⟨hNone, hPick⟩
          · exact Or.inl
              ⟨f, hf, List.mem_cons_of_mem name hName, hPick⟩
          · refine Or.inr ⟨fun f hf hName => ?_, hPick⟩
            rcases List.mem_cons.mp hName with hEq | hRest
            · have hAbsent := Table.get?_eq_none_iff.mp hField
              rw [← hEq] at hAbsent
              exact hAbsent (List.mem_map_of_mem hf)
            · exact hNone f hf hRest

end Json

namespace Attribution

----
-- Fields and their names
----

/-
  A field that an entry may have: the names that it goes by,
  and which of its values mean the same.
-/
structure FieldSpec where
  names : List String
  Same : Json → Json → Prop
  refl : ∀ x, Same x x

/- The fields that an entry may have.  No two share a name. -/
structure EntrySpec where
  fields : List FieldSpec
  apart :
    fields.Pairwise fun a b => ∀ n ∈ a.names, n ∉ b.names

variable {spec : EntrySpec}
variable {fs gs hs : Table String Json}

/- No field of an entry is there under two names. -/
def SpeltOnce
    (spec : EntrySpec)
    (fs : Table String Json) : Prop :=
  fs.Pairwise fun f g =>
    ∀ a ∈ spec.fields, f.1 ∈ a.names → g.1 ∉ a.names

instance
    (spec : EntrySpec)
    (fs : Table String Json) :
    Decidable (SpeltOnce spec fs) :=
  inferInstanceAs (Decidable (List.Pairwise _ _))

/-
  A field stays as it is, or comes under another of its names
  with a value that means the same.
-/
inductive Renamed
    (spec : EntrySpec) :
    String × Json → String × Json → Prop where
  | kept
      (f : String × Json) :
      Renamed spec f f
  | renamed
      {a : FieldSpec}
      {old new : String}
      {x y : Json}
      (hField : a ∈ spec.fields)
      (hOld : old ∈ a.names)
      (hNew : new ∈ a.names)
      (hSame : a.Same x y) :
      Renamed spec (old, x) (new, y)

/-
  Fields of which none is there under two names, and the same
  fields under other names of theirs, in any order.
-/
structure RespelledFields
    (spec : EntrySpec)
    (fs hs : Table String Json) : Prop where
  once : SpeltOnce spec fs
  renamed :
    ∃ gs, List.Forall₂ (Renamed spec) fs gs ∧ gs.Perm hs

/- An entry stays as it is, or its fields are respelled. -/
inductive Respelled
    (spec : EntrySpec) : Json → Json → Prop where
  | same
      (x : Json) :
      Respelled spec x x
  | entry
      {fs hs : Table String Json}
      (hFields : RespelledFields spec fs hs) :
      Respelled spec (.obj fs) (.obj hs)

/- A value stays as it is, or is a list of entries. -/
inductive RespelledItems
    (spec : EntrySpec) : Json → Json → Prop where
  | same
      (x : Json) :
      RespelledItems spec x x
  | items
      {xs ys : List Json}
      (hItems : List.Forall₂ (Respelled spec) xs ys) :
      RespelledItems spec (.arr xs) (.arr ys)

/- A field with a value that is read as a whole. -/
def FieldSpec.plain
    (names : List String) : FieldSpec :=
  ⟨names, Eq, fun _ => rfl⟩

/- A field with a list of entries. -/
def FieldSpec.listing
    (names : List String)
    (spec : EntrySpec) : FieldSpec :=
  ⟨names, RespelledItems spec, .same⟩

----
-- The entries of a payload
----

/- The fields of a source. -/
def sourceSpec : EntrySpec where
  fields :=
    [.plain ["id"], .plain displayNameNames, .plain pathNames]
  apart := by decide

/- The fields of a declaration. -/
def declarationSpec : EntrySpec where
  fields :=
    [.plain propertyNames, .plain ["values"], .plain ["value"],
      .plain ownerNames, .plain sourceLineNames,
      .plain overwrittenNames]
  apart := by decide

/- The fields of a rule. -/
def ruleSpec : EntrySpec where
  fields :=
    [.plain selectorNames,
      .listing declarationsNames declarationSpec,
      .plain ownerNames]
  apart := by decide

/- The fields of a line. -/
def lineSpec : EntrySpec where
  fields := [.plain lineNumberNames, .plain ownerNames]
  apart := by decide

/- The fields of a payload. -/
def payloadSpec : EntrySpec where
  fields :=
    [.listing sourcesNames sourceSpec,
      .listing rulesNames ruleSpec,
      .listing linesNames lineSpec]
  apart := by decide

----
-- What is picked
----

/- A name belongs to one field. -/
theorem EntrySpec.eq_of_mem
    {a b : FieldSpec}
    {n : String}
    (ha : a ∈ spec.fields)
    (hb : b ∈ spec.fields)
    (hna : n ∈ a.names)
    (hnb : n ∈ b.names) :
    a = b := by
  have hSymm : Std.Symm fun a b : FieldSpec =>
      ∀ n ∈ a.names, n ∉ b.names :=
    ⟨fun _ _ h n hn hna => h n hna hn⟩
  by_contra hNe
  exact spec.apart.forall ha hb hNe n hna hnb

/- Being spelt apart is the same from both sides. -/
theorem symm_speltApart
    (spec : EntrySpec) :
    Std.Symm fun f g : String × Json =>
      ∀ a ∈ spec.fields, f.1 ∈ a.names → g.1 ∉ a.names :=
  ⟨fun _ _ h a ha hga hfa => h a ha hfa hga⟩

/- A field that is spelt once is there once. -/
theorem SpeltOnce.eq_of_mem
    {a : FieldSpec}
    {f g : String × Json}
    (h : SpeltOnce spec fs)
    (ha : a ∈ spec.fields)
    (hf : f ∈ fs)
    (hg : g ∈ fs)
    (hfa : f.1 ∈ a.names)
    (hga : g.1 ∈ a.names) :
    f = g := by
  have hSymm := symm_speltApart spec
  by_contra hNe
  exact h.forall hf hg hNe a ha hfa hga

/- Renaming keeps the field that a name belongs to. -/
theorem Renamed.mem_names_iff
    {a : FieldSpec}
    {f g : String × Json}
    (h : Renamed spec f g)
    (ha : a ∈ spec.fields) :
    f.1 ∈ a.names ↔ g.1 ∈ a.names := by
  cases h with
  | kept => rfl
  | renamed hField hOld hNew _ =>
      constructor
      · intro hName
        rw [spec.eq_of_mem ha hField hName hOld]
        exact hNew
      · intro hName
        rw [spec.eq_of_mem ha hField hName hNew]
        exact hOld

theorem Renamed.same
    {a : FieldSpec}
    {f g : String × Json}
    (h : Renamed spec f g)
    (ha : a ∈ spec.fields)
    (hName : f.1 ∈ a.names) :
    a.Same f.2 g.2 := by
  cases h with
  | kept => exact a.refl f.2
  | renamed hField hOld _ hSame =>
      rw [spec.eq_of_mem ha hField hName hOld]
      exact hSame

/- Every field of one side has its counterpart on the other. -/
theorem exists_of_mem_forall₂
    {α β : Type}
    {R : α → β → Prop}
    {xs : List α}
    {ys : List β}
    {x : α}
    (h : List.Forall₂ R xs ys)
    (hx : x ∈ xs) :
    ∃ y ∈ ys, R x y := by
  induction h with
  | nil => cases hx
  | @cons a b xs ys hHead _ ih =>
      rcases List.mem_cons.mp hx with rfl | hRest
      · exact ⟨b, List.mem_cons_self, hHead⟩
      · rcases ih hRest with ⟨y, hy, hRel⟩
        exact ⟨y, List.mem_cons_of_mem b hy, hRel⟩

/- Renamed fields are spelt once if the fields were. -/
theorem SpeltOnce.renamed
    (h : SpeltOnce spec fs)
    (hFields : List.Forall₂ (Renamed spec) fs gs) :
    SpeltOnce spec gs := by
  induction hFields with
  | nil => exact .nil
  | @cons f g fs gs hHead hTail ih =>
      rcases List.pairwise_cons.mp h with ⟨hFirst, hRest⟩
      refine List.pairwise_cons.mpr ⟨?_, ih hRest⟩
      intro k hk a ha hga hka
      rcases exists_of_mem_forall₂ hTail.flip hk with
        ⟨l, hl, hRenamed⟩
      exact hFirst l hl a ha
        ((hHead.mem_names_iff ha).mpr hga)
        ((Renamed.mem_names_iff hRenamed ha).mpr hka)

namespace RespelledFields

/-
  Under all the names of a field, values that mean the same
  are picked from fields and from the respelled fields.
-/
theorem same_pick
    {a : FieldSpec}
    (h : RespelledFields spec fs hs)
    (ha : a ∈ spec.fields) :
    a.Same (Json.pick fs a.names) (Json.pick hs a.names) := by
  rcases h with ⟨hOnce, gs, hFields, hOrder⟩
  have hSymm := symm_speltApart spec
  have hStill : SpeltOnce spec hs :=
    (hOrder.pairwise_iff (hSymm.symm _ _)).mp
      (hOnce.renamed hFields)
  rcases Json.pick_cases fs a.names with
    ⟨f, hf, hName, hPick⟩ | ⟨hNone, hPick⟩
  · rcases exists_of_mem_forall₂ hFields hf with
      ⟨g, hg, hRenamed⟩
    have hMem := hOrder.mem_iff.mp hg
    have hNew := (hRenamed.mem_names_iff ha).mp hName
    rcases Json.pick_cases hs a.names with
      ⟨k, hk, hkName, hPicked⟩ | ⟨hNone, -⟩
    · rw [hPick, hPicked,
        hStill.eq_of_mem ha hk hMem hkName hNew]
      exact hRenamed.same ha hName
    · exact absurd hNew (hNone g hMem)
  · rcases Json.pick_cases hs a.names with
      ⟨k, hk, hkName, -⟩ | ⟨-, hPicked⟩
    · rcases exists_of_mem_forall₂ hFields.flip
          (hOrder.mem_iff.mpr hk) with ⟨f, hf, hRenamed⟩
      exact absurd
        ((Renamed.mem_names_iff hRenamed ha).mpr hkName)
        (hNone f hf)
    · rw [hPick, hPicked]
      exact a.refl .null

theorem pick_eq
    (h : RespelledFields spec fs hs)
    (names : List String)
    (hField : .plain names ∈ spec.fields) :
    Json.pick fs names = Json.pick hs names :=
  h.same_pick hField

theorem pick_items
    (h : RespelledFields spec fs hs)
    (names : List String)
    (item : EntrySpec)
    (hField : .listing names item ∈ spec.fields) :
    RespelledItems item (Json.pick fs names)
      (Json.pick hs names) :=
  h.same_pick hField

theorem trimmedField_eq
    (h : RespelledFields spec fs hs)
    (names : List String)
    (hField : .plain names ∈ spec.fields) :
    trimmedField fs names = trimmedField hs names := by
  rw [trimmedField, h.pick_eq names hField, trimmedField]

theorem ownerField_eq
    (h : RespelledFields spec fs hs)
    (hField : .plain ownerNames ∈ spec.fields)
    (field : Field) :
    ownerField field fs = ownerField field hs := by
  rw [ownerField, h.pick_eq ownerNames hField, ownerField]

end RespelledFields

----
-- Lists of entries
----

/- Two decodings fail alike, or give respelled entries. -/
inductive SameItems
    (spec : EntrySpec) :
    Decoded (List Json) → Decoded (List Json) → Prop where
  | failed
      (e : DecodeError) :
      SameItems spec (.error e) (.error e)
  | items
      {xs ys : List Json}
      (hItems : List.Forall₂ (Respelled spec) xs ys) :
      SameItems spec (.ok xs) (.ok ys)

theorem SameItems.of_ok
    (xs : List Json) :
    SameItems spec (.ok xs) (.ok xs) :=
  .items (List.forall₂_same.mpr fun x _ => .same x)

/- What is done with respelled entries decides the outcome. -/
theorem SameItems.bind_eq
    {β : Type}
    {r q : Decoded (List Json)}
    {f g : List Json → Decoded β}
    (h : SameItems spec r q)
    (hNext :
      ∀ xs ys, List.Forall₂ (Respelled spec) xs ys →
        f xs = g ys) :
    r >>= f = q >>= g := by
  cases h with
  | failed e => rfl
  | items hItems => exact hNext _ _ hItems

theorem listField_sameItems
    {names : List String}
    (h :
      RespelledItems spec (Json.pick fs names)
        (Json.pick hs names)) :
    SameItems spec (listField fs names)
      (listField hs names) := by
  unfold listField
  generalize Json.pick fs names = x at h
  generalize Json.pick hs names = y at h
  cases h with
  | same =>
      cases x with
      | null => exact .of_ok []
      | arr xs => exact .of_ok xs
      | _ => exact .failed _
  | items hItems => exact .items hItems

theorem declarationItems_sameItems
    (selector : String)
    (h :
      RespelledItems spec (Json.pick fs declarationsNames)
        (Json.pick hs declarationsNames)) :
    SameItems spec (declarationItems selector fs)
      (declarationItems selector hs) := by
  unfold declarationItems
  generalize Json.pick fs declarationsNames = x at h
  generalize Json.pick hs declarationsNames = y at h
  cases h with
  | same =>
      dsimp only
      split
      next =>
        cases x with
        | arr xs => exact .of_ok xs
        | _ => exact .failed _
      next => exact .of_ok []
  | @items xs ys hItems =>
      -- Both lists are empty, or none is.
      cases hItems with
      | nil => exact .of_ok []
      | cons hHead hTail => exact .items (.cons hHead hTail)

/- Entries that are decoded alike give the same list. -/
theorem decodeEach_respelled
    {α : Type}
    {f : Nat → Json → Decoded α}
    {xs ys : List Json}
    (hEntry : ∀ i x y, Respelled spec x y → f i x = f i y)
    (hItems : List.Forall₂ (Respelled spec) xs ys)
    (index : Nat) :
    decodeEach f index xs = decodeEach f index ys := by
  induction hItems generalizing index with
  | nil => rfl
  | cons hHead _ ih =>
      rw [decodeEach, decodeEach, hEntry index _ _ hHead,
        ih (index + 1)]

----
-- Entries
----

variable {x y : Json}
variable {xs ys : List Json}

theorem decodeSource_respelled
    (h : Respelled sourceSpec x y) :
    decodeSource x = decodeSource y := by
  cases h with
  | same => rfl
  | entry hFields =>
      have hId := hFields.pick_eq ["id"] (by simp [sourceSpec])
      have hName := hFields.trimmedField_eq displayNameNames
        (by simp [sourceSpec])
      have hPath := hFields.pick_eq pathNames
        (by simp [sourceSpec])
      unfold decodeSource entryFields
      dsimp only [bind, Except.bind]
      rw [hId, hName, hPath]

theorem decodeSources_respelled
    (h : List.Forall₂ (Respelled sourceSpec) xs ys)
    (r : SourceRegistry) :
    decodeSources r xs = decodeSources r ys := by
  induction h generalizing r with
  | nil => rfl
  | cons hHead _ ih =>
      rw [decodeSources, decodeSources,
        decodeSource_respelled hHead]
      simp only [ih]

theorem decodeDeclaration_respelled
    (h : Respelled declarationSpec x y) :
    decodeDeclaration x = decodeDeclaration y := by
  cases h with
  | same => rfl
  | @entry fs hs hFields =>
      have hName := hFields.trimmedField_eq propertyNames
        (by simp [declarationSpec])
      have hValues :
          ∀ name, decodeValues name fs = decodeValues name hs := by
        intro name
        have hMany := hFields.pick_eq ["values"]
          (by simp [declarationSpec])
        have hOne := hFields.pick_eq ["value"]
          (by simp [declarationSpec])
        rw [decodeValues, hMany, hOne, decodeValues]
      have hOwner := hFields.ownerField_eq
        (by simp [declarationSpec])
      have hLine := hFields.pick_eq sourceLineNames
        (by simp [declarationSpec])
      have hFlag := hFields.pick_eq overwrittenNames
        (by simp [declarationSpec])
      unfold decodeDeclaration entryFields
      dsimp only [bind, Except.bind]
      rw [hName, hValues, hOwner, hLine, hFlag]

theorem decodeRule_respelled
    (h : Respelled ruleSpec x y) :
    decodeRule x = decodeRule y := by
  cases h with
  | same => rfl
  | @entry fs hs hFields =>
      have hSelector := hFields.trimmedField_eq selectorNames
        (by simp [ruleSpec])
      have hOwner := hFields.ownerField_eq (by simp [ruleSpec])
      have hItems := hFields.pick_items declarationsNames
        declarationSpec (by simp [ruleSpec])
      change
        (declarationItems (trimmedField fs selectorNames) fs >>=
            fun items => _) =
          (declarationItems (trimmedField hs selectorNames) hs >>=
            fun items => _)
      rw [hSelector]
      refine (declarationItems_sameItems _ hItems).bind_eq ?_
      intro xs ys hEntries
      rw [hOwner, decodeDeclarations_eq 0,
        decodeDeclarations_eq 0,
        decodeEach_respelled
          (fun _ _ _ => decodeDeclaration_respelled) hEntries]

theorem decodeLine_respelled
    (index : Nat)
    (h : Respelled lineSpec x y) :
    decodeLine index x = decodeLine index y := by
  cases h with
  | same => rfl
  | entry hFields =>
      have hNumber := hFields.pick_eq lineNumberNames
        (by simp [lineSpec])
      have hOwner := hFields.ownerField_eq (by simp [lineSpec])
      unfold decodeLine entryFields
      dsimp only [bind, Except.bind]
      rw [hNumber, hOwner]

----
-- Payloads
----

/-
  Payloads that differ in the names of their fields alone give
  the same model, or fail for the same reason with the same
  message.
-/
theorem ofPayload_eq_of_respelled
    {p q : Json}
    (h : Respelled payloadSpec p q) :
    Model.ofPayload p = Model.ofPayload q := by
  cases h with
  | same => rfl
  | @entry fs hs hFields =>
      have hSources := hFields.pick_items sourcesNames sourceSpec
        (by simp [payloadSpec])
      have hRules := hFields.pick_items rulesNames ruleSpec
        (by simp [payloadSpec])
      have hLines := hFields.pick_items linesNames lineSpec
        (by simp [payloadSpec])
      change ofPayloadFields fs = ofPayloadFields hs
      unfold ofPayloadFields
      refine (listField_sameItems hSources).bind_eq ?_
      intro xs ys hItems
      rw [decodeSources_respelled hItems]
      refine bind_congr fun sources => ?_
      refine (listField_sameItems hRules).bind_eq ?_
      intro xs ys hItems
      rw [decodeRules_eq 0, decodeRules_eq 0,
        decodeEach_respelled
          (fun _ _ _ => decodeRule_respelled) hItems]
      refine bind_congr fun rules => ?_
      refine (listField_sameItems hLines).bind_eq ?_
      intro xs ys hItems
      rw [decodeLines_eq, decodeLines_eq,
        decodeEach_respelled
          (fun i _ _ => decodeLine_respelled i) hItems]

/- A value may come under every name of its field. -/
theorem Renamed.of_names
    {old new : String}
    (h : ∃ a ∈ spec.fields, old ∈ a.names ∧ new ∈ a.names)
    (x : Json) :
    Renamed spec (old, x) (new, x) := by
  rcases h with ⟨a, ha, hOld, hNew⟩
  exact .renamed ha hOld hNew (a.refl x)

/- A payload with the first names of all fields. -/
def plainlySpelt : Json :=
  .obj
    [("sources", .arr
        [.obj
          [("id", .int 1), ("displayName", .str "base.css"),
            ("absolutePath", .str "/css/base.css")]]),
      ("rules", .arr
        [.obj
          [("ownerId", .int 1), ("selector", .str "p"),
            ("declarations", .arr
              [.obj
                [("propertyName", .str "color"),
                  ("value", .str "red"),
                  ("sourceLine", .int 0),
                  ("overwritten", .bool true)]])]]),
      ("lines", .arr
        [.obj [("lineNumber", .int 0), ("ownerId", .int 1)]])]

/- The same payload with other names, in another order. -/
def otherwiseSpelt : Json :=
  .obj
    [("styles", .arr
        [.obj
          [("source", .int 1), ("tag", .str "p"),
            ("attributes", .arr
              [.obj
                [("name", .str "color"),
                  ("value", .str "red"),
                  ("line", .int 0),
                  ("is_overwritten", .bool true)]])]]),
      ("imported_sheets", .arr
        [.obj
          [("id", .int 1), ("file_name", .str "base.css"),
            ("absolute_path", .str "/css/base.css")]]),
      ("lines", .arr
        [.obj [("line", .int 0), ("owner_id", .int 1)]])]

/- Both are decoded, and to the same model. -/
theorem otherwiseSpelt_decodes_alike :
    Respelled payloadSpec plainlySpelt otherwiseSpelt ∧
      (Model.ofPayload plainlySpelt).isOk = true ∧
      Model.ofPayload plainlySpelt =
        Model.ofPayload otherwiseSpelt := by
  have hSpelt :
      Respelled payloadSpec plainlySpelt otherwiseSpelt := by
    refine .entry ⟨by decide, _, .cons ?_ (.cons ?_ (.cons ?_ .nil)),
      List.Perm.swap _ _ _⟩
    · refine .renamed (a := .listing sourcesNames sourceSpec)
        (by simp [payloadSpec]) (by decide) (by decide) ?_
      refine .items (.cons (.entry ⟨by decide, _, ?_, .rfl⟩) .nil)
      exact .cons (.kept _) (.cons (.of_names (by decide) _)
        (.cons (.of_names (by decide) _) .nil))
    · refine .renamed (a := .listing rulesNames ruleSpec)
        (by simp [payloadSpec]) (by decide) (by decide) ?_
      refine .items (.cons (.entry ⟨by decide, _, ?_, .rfl⟩) .nil)
      refine .cons (.of_names (by decide) _)
        (.cons (.of_names (by decide) _) (.cons ?_ .nil))
      refine .renamed
        (a := .listing declarationsNames declarationSpec)
        (by simp [ruleSpec]) (by decide) (by decide) ?_
      refine .items (.cons (.entry ⟨by decide, _, ?_, .rfl⟩) .nil)
      exact .cons (.of_names (by decide) _) (.cons (.kept _)
        (.cons (.of_names (by decide) _)
          (.cons (.of_names (by decide) _) .nil)))
    · refine .renamed (a := .listing linesNames lineSpec)
        (by simp [payloadSpec]) (by decide) (by decide) ?_
      refine .items (.cons (.entry ⟨by decide, _, ?_, .rfl⟩) .nil)
      exact .cons (.of_names (by decide) _)
        (.cons (.of_names (by decide) _) .nil)
  exact ⟨hSpelt, by rfl, ofPayload_eq_of_respelled hSpelt⟩

end Attribution

end StyleCompanion
