import StyleCompanion.Proofs.Attribution.Acceptance

/-
  The owners in a model.

  A rule, a declaration or a line may have an owner.  A model
  that was decoded has a source for every owner, and no sources
  but those of its payload.  The style blocks are the
  exception: they are a source when they own something and no
  source of the payload took their id.  A model is refused if
  one of its owners is no source.

  Main declarations:
    * `HasOwner`
    * `ClosedOver`
    * `exists_parts_of_ofPayloadFields`
    * `mem_sources_withInlineSource`
    * `owners_of_models_are_registered`
-/

namespace StyleCompanion

namespace Attribution

variable {rules : List Rule}
variable {lines : List LineRecord}
variable {m : Model}
variable {fs : Table String Json}

----
-- Owners
----

/- A rule, a declaration or a line has an owner. -/
inductive HasOwner
    (rules : List Rule)
    (lines : List LineRecord)
    (id : Int) : Prop where
  | rule
      {r : Rule}
      (hRule : r ∈ rules)
      (hOwner : r.ownerId = some id) : HasOwner rules lines id
  | declaration
      {r : Rule}
      {d : Declaration}
      (hRule : r ∈ rules)
      (hDeclaration : d ∈ r.declarations)
      (hOwner : d.ownerId = some id) : HasOwner rules lines id
  | line
      {l : LineRecord}
      (hLine : l ∈ lines)
      (hOwner : l.ownerId = some id) : HasOwner rules lines id

/- The style blocks need a source of their own. -/
structure NeedsInline
    (fs : Table String Json)
    (m : Model) : Prop where
  free : ∀ s ∈ describedSources fs, s.id ≠ inlineSourceId
  used : HasOwner m.rules m.lines inlineSourceId

/-
  The owners of a model are those of its payload, each of them
  is a source, and the sources are those of the payload with
  the style blocks if need be.
-/
structure ClosedOver
    (fs : Table String Json)
    (m : Model) : Prop where
  owners : ∀ id, HasOwner m.rules m.lines id ↔ UsesOwner fs id
  resolved :
    ∀ id, HasOwner m.rules m.lines id →
      ∃ s ∈ m.sources.sources,
        s.id = id ∧ m.source? (some id) = some s
  sources :
    ∀ s, s ∈ m.sources.sources ↔
      s ∈ describedSources fs ∨
        s = inlineSource ∧ NeedsInline fs m
  ids :
    ∀ id, id ∈ m.sources.ids ↔
      (∃ s ∈ describedSources fs, s.id = id) ∨
        id = inlineSourceId ∧ NeedsInline fs m

theorem hasOwner_iff
    {id : Int} :
    HasOwner rules lines id ↔
      id ∈ Model.referencedOwners rules lines := by
  simp only [Model.referencedOwners, Rule.declarationOwners,
    List.mem_append, List.mem_flatMap, Option.mem_toList,
    List.mem_filterMap]
  constructor
  · intro h
    cases h with
    | rule hRule hOwner => exact .inl ⟨_, hRule, .inl hOwner⟩
    | declaration hRule hDeclaration hOwner =>
        exact .inl ⟨_, hRule, .inr ⟨_, hDeclaration, hOwner⟩⟩
    | line hLine hOwner => exact .inr ⟨_, hLine, hOwner⟩
  · rintro (⟨r, hRule, hOwner | ⟨d, hDeclaration, hOwner⟩⟩ |
      ⟨l, hLine, hOwner⟩)
    · exact .rule hRule hOwner
    · exact .declaration hRule hDeclaration hOwner
    · exact .line hLine hOwner

----
-- Sources
----

namespace SourceRegistry

variable {r : SourceRegistry}

theorem mem_ids_iff
    {id : Int} :
    id ∈ r.ids ↔ r.contains id = true := by
  rw [contains_iff]
  exact List.mem_map

/- An id that is taken is looked up to its source. -/
theorem exists_source_of_contains
    {id : Int}
    (h : r.contains id = true) :
    ∃ s ∈ r.sources, s.id = id ∧ r.source? (some id) = some s := by
  rcases Option.isSome_iff_exists.mp h with ⟨s, hs⟩
  have hFound :
      r.sources.find? (fun s => decide (s.id = id)) = some s := hs
  have hId := List.find?_some hFound
  exact ⟨s, List.mem_of_find?_eq_some hFound,
    of_decide_eq_true hId, hs⟩

end SourceRegistry

/-
  The style blocks are registered if they own something and
  their id is free.
-/
theorem mem_sources_withInlineSource
    {r all : SourceRegistry}
    (h : withInlineSource r rules lines = .ok all)
    (s : SourceFile) :
    s ∈ all.sources ↔
      s ∈ r.sources ∨
        s = inlineSource ∧
          (∀ t ∈ r.sources, t.id ≠ inlineSourceId) ∧
          HasOwner rules lines inlineSourceId := by
  have hFree :
      (∀ t ∈ r.sources, t.id ≠ inlineSourceId) ↔
        r.contains inlineSourceId = false := by
    rw [Bool.eq_false_iff, ne_eq, SourceRegistry.contains_iff]
    simp only [not_exists, not_and, ne_eq]
  rw [hFree, hasOwner_iff, ← referencesOwner_iff]
  unfold withInlineSource at h
  split at h
  next hNeeded =>
    rw [Bool.and_eq_true, Bool.not_eq_true'] at hNeeded
    rw [SourceRegistry.mem_insertSorted
      (SourceRegistry.add_ok_iff.mp h), or_comm]
    exact or_congr_right (and_iff_left hNeeded).symm
  next hKept =>
    cases h
    rw [Bool.and_eq_true, Bool.not_eq_true'] at hKept
    exact (or_iff_left fun hNeeded => hKept hNeeded.2).symm

----
-- Decoded models
----

/- A decoded model holds the decoded entries. -/
theorem exists_parts_of_ofPayloadFields
    (h : ofPayloadFields fs = .ok m) :
    ∃ r,
      decodeSources .empty (Json.pick fs sourcesNames).items =
        .ok r ∧
      decodeRules (Json.pick fs rulesNames).items =
        .ok m.rules ∧
      decodeLines 0 (Json.pick fs linesNames).items =
        .ok m.lines ∧
      withInlineSource r m.rules m.lines = .ok m.sources ∧
      Model.build m.sources m.rules m.lines = .ok m := by
  rcases ofPayloadFields_eq_ok_iff.mp h with
    ⟨-, -, -, r, rules, lines, hr, hRules, hLines, hRest⟩
  rcases bind_eq_ok_iff.mp hRest with ⟨all, hAll, hBuild⟩
  rw [orRefuse_ok_iff] at hAll hBuild
  cases Model.eq_of_build hBuild
  exact ⟨r, hr, hRules, hLines, hAll, hBuild⟩

theorem closedOver_of_ofPayloadFields
    (h : ofPayloadFields fs = .ok m) :
    ClosedOver fs m := by
  rcases exists_parts_of_ofPayloadFields h with
    ⟨r, hr, hRules, hLines, hAll, hBuild⟩
  have hSources :
      ∀ s, s ∈ m.sources.sources ↔
        s ∈ describedSources fs ∨
          s = inlineSource ∧ NeedsInline fs m := by
    intro s
    rw [mem_sources_withInlineSource hAll]
    simp only [(registered_sources hr).2]
    exact or_congr_right (and_congr_right fun _ =>
      ⟨fun h => ⟨h.1, h.2⟩, fun h => ⟨h.free, h.used⟩⟩)
  refine ⟨fun id => ?_, fun id hOwner => ?_, hSources, fun id => ?_⟩
  · exact hasOwner_iff.trans
      (mem_referencedOwners_iff hRules hLines id)
  · exact SourceRegistry.exists_source_of_contains
      (Model.build_ok_iff.mp ⟨m, hBuild⟩ id
        (hasOwner_iff.mp hOwner))
  · rw [SourceRegistry.mem_ids_iff, SourceRegistry.contains_iff]
    simp only [hSources, or_and_right, exists_or, and_assoc,
      exists_eq_left]
    exact or_congr_right
      ⟨fun h => ⟨h.2.symm, h.1⟩, fun h => ⟨h.2, h.1.symm⟩⟩

----
-- Refused models
----

/- A model is refused for an owner that is no source. -/
theorem Model.eq_unregisteredOwner_of_build
    {sources : SourceRegistry}
    {e : PayloadError}
    (h : Model.build sources rules lines = .error e) :
    ∃ id, e = .unregisteredOwner id ∧
      HasOwner rules lines id ∧ id ∉ sources.ids := by
  unfold Model.build at h
  split at h
  next id hFind =>
    cases h
    refine ⟨id, rfl,
      hasOwner_iff.mpr (List.mem_of_find?_eq_some hFind), ?_⟩
    have hUnknown := List.find?_some hFind
    rw [Bool.not_eq_true'] at hUnknown
    rw [SourceRegistry.mem_ids_iff, hUnknown]
    exact Bool.false_ne_true
  next => cases h

theorem Model.build_error_iff
    {sources : SourceRegistry} :
    (∃ e, Model.build sources rules lines = .error e) ↔
      ∃ id, HasOwner rules lines id ∧ id ∉ sources.ids := by
  constructor
  · rintro ⟨e, h⟩
    rcases eq_unregisteredOwner_of_build h with ⟨id, -, hUnknown⟩
    exact ⟨id, hUnknown⟩
  · rintro ⟨id, hOwner, hUnknown⟩
    cases hBuild : Model.build sources rules lines with
    | error e => exact ⟨e, rfl⟩
    | ok m =>
        have hKnown := build_ok_iff.mp ⟨m, hBuild⟩ id
          (hasOwner_iff.mp hOwner)
        exact absurd (SourceRegistry.mem_ids_iff.mpr hKnown)
          hUnknown

/-
  Decoded models are closed over their payload, and models are
  refused for owners that are no sources, and only for these.
-/
theorem owners_of_models_are_registered :
    (∀ payload m, Model.ofPayload payload = .ok m →
      payload.IsObject fun fs => ClosedOver fs m) ∧
    ∀ sources rules lines,
      ((∃ e, Model.build sources rules lines = .error e) ↔
        ∃ id, HasOwner rules lines id ∧ id ∉ sources.ids) ∧
      ∀ e, Model.build sources rules lines = .error e →
        ∃ id, e = .unregisteredOwner id ∧
          HasOwner rules lines id ∧ id ∉ sources.ids := by
  refine ⟨fun payload m h => ?_, fun sources rules lines =>
    ⟨Model.build_error_iff, fun e =>
      Model.eq_unregisteredOwner_of_build⟩⟩
  cases payload with
  | obj fs => exact closedOver_of_ofPayloadFields h
  | _ => cases h

/- A payload with a declaration that is owned by a style block. -/
def partlyInline : Json :=
  .obj
    [("sources", .arr
        [.obj
          [("id", .int 3),
            ("absolutePath", .str "/css/base.css")]]),
      ("rules", .arr
        [.obj
          [("selector", .str "p"),
            ("declarations", .arr
              [.obj
                [("name", .str "color"), ("value", .str "red"),
                  ("ownerId", .int 0)]])]]),
      ("lines", .arr
        [.obj [("lineNumber", .int 0), ("ownerId", .int 3)]])]

/-
  It is decoded with a source for the style blocks.  With no
  sources at all its rules and lines are refused.
-/
theorem partlyInline_closed :
    ∃ m, Model.ofPayload partlyInline = .ok m ∧
      m.sources.ids = [0, 3] ∧
      partlyInline.IsObject (fun fs => ClosedOver fs m) ∧
      ∃ e, Model.build .empty m.rules m.lines = .error e := by
  rcases hModel : Model.ofPayload partlyInline with e | m
  · cases hModel
  · have hIds : m.sources.ids = [0, 3] := by
      cases hModel
      rfl
    have hClosed :=
      owners_of_models_are_registered.1 partlyInline m hModel
    refine ⟨m, rfl, hIds, hClosed, ?_⟩
    refine (owners_of_models_are_registered.2 _ _ _).1.mpr
      ⟨3, ?_, List.not_mem_nil⟩
    cases hModel
    exact .line List.mem_cons_self rfl

end Attribution

end StyleCompanion
