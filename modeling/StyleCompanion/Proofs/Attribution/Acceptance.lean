import StyleCompanion.Proofs.Attribution.Grammar
import StyleCompanion.Proofs.Attribution.Models
import StyleCompanion.Proofs.Attribution.Sources

/-
  The payloads that are decoded.

  The shape of a payload is told without its decoder: which
  lists it has and what their entries hold, that its sources
  are told apart by their ids, and that every owner in use is
  one of them.  The id of the style blocks needs no source.
  The decoder gives a model for exactly these payloads.

  Main declarations:
    * `sourceOf?`
    * `UsesOwner`
    * `PayloadFields`
    * `decodeEach_exists`
    * `mem_referencedOwners_iff`
    * `assemble_ok_iff`
    * `decodes_exactly_its_grammar`
-/

namespace StyleCompanion

----
-- The shape of a payload
----

namespace Json

/-
  The whole number that a value reads as.  Null and truth
  values are none.
-/
def whole? : Json → Option Int
  | .null => none
  | .bool _ => none
  | x => x.toInteger.toOption

end Json

namespace Attribution

/- The source that an entry with an id describes. -/
def sourceOf? : Json → Option SourceFile
  | .obj fs =>
      let path := (Json.pick fs pathNames).textOrEmpty
      let given := trimmedField fs displayNameNames
      (Json.pick fs ["id"]).whole?.map fun n =>
        ⟨n, sourceName n given path, path⟩
  | _ => none

/- The sources that the fields of a payload describe. -/
def describedSources
    (fs : Table String Json) : List SourceFile :=
  (Json.pick fs sourcesNames).items.filterMap sourceOf?

/- An entry with an owner. -/
def NamesOwner
    (x : Json)
    (id : Int) : Prop :=
  x.IsObject fun fs =>
    (Json.pick fs ownerNames).whole? = some id

/- A rule with a declaration. -/
def HasDeclaration
    (x y : Json) : Prop :=
  x.IsObject fun fs =>
    y ∈ (Json.pick fs declarationsNames).items

/- A rule, a declaration or a line of a payload has an owner. -/
inductive UsesOwner
    (fs : Table String Json)
    (id : Int) : Prop where
  | rule
      {x : Json}
      (hRule : x ∈ (Json.pick fs rulesNames).items)
      (hOwner : NamesOwner x id) : UsesOwner fs id
  | declaration
      {x y : Json}
      (hRule : x ∈ (Json.pick fs rulesNames).items)
      (hDeclaration : HasDeclaration x y)
      (hOwner : NamesOwner y id) : UsesOwner fs id
  | line
      {x : Json}
      (hLine : x ∈ (Json.pick fs linesNames).items)
      (hOwner : NamesOwner x id) : UsesOwner fs id

theorem bind_eq_ok_iff
    {α β : Type}
    {r : Decoded α}
    {f : α → Decoded β}
    {b : β} :
    r >>= f = .ok b ↔ ∃ a, r = .ok a ∧ f a = .ok b := by
  cases r with
  | ok a =>
      refine ⟨fun h => ⟨a, rfl, h⟩, ?_⟩
      rintro ⟨c, hc, h⟩
      cases hc
      exact h
  | error e =>
      exact ⟨fun h => (nomatch h), fun ⟨_, h, _⟩ => (nomatch h)⟩

theorem entryFields_ok_iff
    {entry : EntryKind}
    {x : Json}
    {fs : Table String Json} :
    entryFields entry x = .ok fs ↔ x = .obj fs := by
  cases x <;> simp [entryFields, refuse]

theorem listField_ok_iff
    {fs : Table String Json}
    {names : List String}
    {xs : List Json} :
    listField fs names = .ok xs ↔
      (Json.pick fs names).isListing = true ∧
        xs = (Json.pick fs names).items := by
  unfold listField
  cases Json.pick fs names <;>
    simp [Json.isListing, Json.items, refuse, eq_comm]

/- A number that is read is the whole number of its value. -/
theorem eq_whole?_of_optionalInt
    {field : Field}
    {x : Json}
    {n : Option Int}
    (h : optionalInt field x = .ok n) :
    n = x.whole? := by
  cases x with
  | null => exact (Except.ok.inj h).symm
  | bool b => cases h
  | _ =>
      unfold optionalInt at h
      unfold Json.whole?
      dsimp only at h ⊢
      split at h
      next k hk =>
        rw [hk]
        exact (Except.ok.inj h).symm
      next => cases h
      next => cases h

theorem ownerField_eq_iff
    {field : Field}
    {fs : Table String Json}
    {owner : Option Int}
    (h : ownerField field fs = .ok owner)
    (id : Int) :
    owner = some id ↔ NamesOwner (.obj fs) id := by
  rw [eq_whole?_of_optionalInt h]
  rfl

theorem decodeSource_eq
    {x : Json}
    {s : SourceFile}
    (h : decodeSource x = .ok s) :
    sourceOf? x = some s := by
  rcases bind_eq_ok_iff.mp h with ⟨fs, hfs, hRest⟩
  rcases bind_eq_ok_iff.mp hRest with ⟨n, hn, hSource⟩
  cases entryFields_ok_iff.mp hfs
  unfold sourceOf?
  dsimp only
  rw [← eq_whole?_of_optionalInt hn]
  cases n with
  | none => cases hSource
  | some k => exact congrArg some (Except.ok.inj hSource)

theorem decodeLine_owner
    {index : Nat}
    {x : Json}
    {l : LineRecord}
    (h : decodeLine index x = .ok l)
    (id : Int) :
    l.ownerId = some id ↔ NamesOwner x id := by
  rcases bind_eq_ok_iff.mp h with ⟨fs, hfs, hRest⟩
  rcases bind_eq_ok_iff.mp hRest with ⟨number, -, hRest⟩
  rcases bind_eq_ok_iff.mp hRest with ⟨owner, hOwner, hLine⟩
  cases entryFields_ok_iff.mp hfs
  cases hLine
  exact ownerField_eq_iff hOwner id

theorem decodeDeclaration_owner
    {x : Json}
    {d : Declaration}
    (h : decodeDeclaration x = .ok d)
    (id : Int) :
    d.ownerId = some id ↔ NamesOwner x id := by
  rcases bind_eq_ok_iff.mp h with ⟨fs, hfs, hRest⟩
  cases entryFields_ok_iff.mp hfs
  dsimp only at hRest
  split at hRest
  next => cases hRest
  next =>
    rcases bind_eq_ok_iff.mp hRest with ⟨values, -, hRest⟩
    rcases bind_eq_ok_iff.mp hRest with ⟨owner, hOwner, hRest⟩
    rcases bind_eq_ok_iff.mp hRest with ⟨line, -, hRest⟩
    rcases bind_eq_ok_iff.mp hRest with ⟨flag, -, hDecl⟩
    cases hDecl
    exact ownerField_eq_iff hOwner id

/-
  What is told of an item and of its decoding alike is told of
  the decoded items if it is told of the items.
-/
theorem decodeEach_exists
    {α : Type}
    {f : Nat → Json → Decoded α}
    {P : α → Prop}
    {Q : Json → Prop}
    (hItem : ∀ index x a, f index x = .ok a → (P a ↔ Q x))
    {index : Nat}
    {xs : List Json}
    {as : List α}
    (h : decodeEach f index xs = .ok as) :
    (∃ a ∈ as, P a) ↔ ∃ x ∈ xs, Q x := by
  induction xs generalizing index as with
  | nil =>
      cases h
      simp
  | cons x xs ih =>
      rcases bind_eq_ok_iff.mp h with ⟨a, ha, hRest⟩
      rcases bind_eq_ok_iff.mp hRest with ⟨bs, hbs, hAll⟩
      cases hAll
      simp only [List.mem_cons, or_and_right, exists_or,
        exists_eq_left]
      rw [ih hbs, hItem index x a ha]

/- The owners of a decoded rule are those of its entries. -/
theorem decodeRule_owner
    {x : Json}
    {r : Rule}
    (h : decodeRule x = .ok r)
    (id : Int) :
    (r.ownerId = some id ∨ id ∈ r.declarationOwners) ↔
      NamesOwner x id ∨
        ∃ y, HasDeclaration x y ∧ NamesOwner y id := by
  rcases bind_eq_ok_iff.mp h with ⟨fs, hfs, hRest⟩
  rcases bind_eq_ok_iff.mp hRest with ⟨items, hItems, hRest⟩
  rcases bind_eq_ok_iff.mp hRest with ⟨owner, hOwner, hRest⟩
  rcases bind_eq_ok_iff.mp hRest with ⟨ds, hds, hRule⟩
  cases entryFields_ok_iff.mp hfs
  cases hRule
  rw [decodeDeclarations_eq 0] at hds
  have hOwners := decodeEach_exists
    (P := fun d : Declaration => d.ownerId = some id)
    (Q := fun y => NamesOwner y id)
    (fun _ _ _ hd => decodeDeclaration_owner hd id) hds
  rw [declarationItems_items hItems] at hOwners
  refine or_congr (ownerField_eq_iff hOwner id) ?_
  unfold Rule.declarationOwners
  rw [List.mem_filterMap]
  exact hOwners

/- The owners in a model are those in use in its payload. -/
theorem mem_referencedOwners_iff
    {fs : Table String Json}
    {rules : List Rule}
    {lines : List LineRecord}
    (hRules : decodeRules (Json.pick fs rulesNames).items =
      .ok rules)
    (hLines : decodeLines 0 (Json.pick fs linesNames).items =
      .ok lines)
    (id : Int) :
    id ∈ Model.referencedOwners rules lines ↔
      UsesOwner fs id := by
  rw [decodeRules_eq 0] at hRules
  rw [decodeLines_eq] at hLines
  have hInRules := decodeEach_exists
    (P := fun r : Rule =>
      r.ownerId = some id ∨ id ∈ r.declarationOwners)
    (Q := fun x => NamesOwner x id ∨
      ∃ y, HasDeclaration x y ∧ NamesOwner y id)
    (fun _ _ _ hr => decodeRule_owner hr id) hRules
  have hInLines := decodeEach_exists
    (P := fun l : LineRecord => l.ownerId = some id)
    (Q := fun x => NamesOwner x id)
    (fun _ _ _ hl => decodeLine_owner hl id) hLines
  unfold Model.referencedOwners
  simp only [List.mem_append, List.mem_flatMap,
    Option.mem_toList, List.mem_filterMap]
  rw [hInRules, hInLines]
  constructor
  · rintro (⟨x, hx, hOwner | ⟨y, hy, hOwner⟩⟩ | ⟨x, hx, hOwner⟩)
    · exact .rule hx hOwner
    · exact .declaration hx hy hOwner
    · exact .line hx hOwner
  · intro h
    cases h with
    | rule hx hOwner => exact .inl ⟨_, hx, .inl hOwner⟩
    | declaration hx hy hOwner =>
        exact .inl ⟨_, hx, .inr ⟨_, hy, hOwner⟩⟩
    | line hx hOwner => exact .inr ⟨_, hx, hOwner⟩

/- Sources are decoded first and can then be registered. -/
theorem decodeSources_ok_iff
    {r p : SourceRegistry}
    {xs : List Json}
    (index : Nat) :
    decodeSources r xs = .ok p ↔
      ∃ ss, decodeEach (fun _ => decodeSource) index xs = .ok ss ∧
        r.addAll ss = .ok p := by
  induction xs generalizing r index with
  | nil => simp [decodeSources, decodeEach, SourceRegistry.addAll]
  | cons x xs ih =>
      rw [decodeSources_cons_ok_iff]
      constructor
      · rintro ⟨s, q, hs, hq, hp⟩
        rcases (ih (index + 1)).mp hp with ⟨ss, hss, hAll⟩
        refine ⟨s :: ss, ?_, SourceRegistry.addAll_cons_ok_iff.mpr
          ⟨q, hq, hAll⟩⟩
        exact bind_eq_ok_iff.mpr ⟨s, hs,
          bind_eq_ok_iff.mpr ⟨ss, hss, rfl⟩⟩
      · rintro ⟨ts, hts, hAll⟩
        rcases bind_eq_ok_iff.mp hts with ⟨s, hs, hRest⟩
        rcases bind_eq_ok_iff.mp hRest with ⟨ss, hss, hSame⟩
        cases hSame
        rcases SourceRegistry.addAll_cons_ok_iff.mp hAll with
          ⟨q, hq, hp⟩
        exact ⟨s, q, hs, hq, (ih (index + 1)).mpr ⟨ss, hss, hp⟩⟩

----
-- Owners
----

theorem referencesOwner_iff
    {owner : Int}
    {rules : List Rule}
    {lines : List LineRecord} :
    referencesOwner owner rules lines = true ↔
      owner ∈ Model.referencedOwners rules lines := by
  simp only [referencesOwner, Model.referencedOwners,
    Rule.declarationOwners, Bool.or_eq_true, List.any_eq_true,
    beq_iff_eq, List.mem_append, List.mem_flatMap,
    Option.mem_toList, List.mem_filterMap]
  exact or_comm

theorem orRefuse_ok_iff
    {α : Type}
    {r : Except PayloadError α}
    {a : α} :
    orRefuse r = .ok a ↔ r = .ok a := by
  cases r <;> simp [orRefuse, refuse]

/- A payload is decoded step by step. -/
theorem ofPayloadFields_eq_ok_iff
    {fs : Table String Json}
    {m : Model} :
    ofPayloadFields fs = .ok m ↔
      (Json.pick fs sourcesNames).isListing = true ∧
      (Json.pick fs rulesNames).isListing = true ∧
      (Json.pick fs linesNames).isListing = true ∧
      ∃ r rules lines,
        decodeSources .empty (Json.pick fs sourcesNames).items =
          .ok r ∧
        decodeRules (Json.pick fs rulesNames).items =
          .ok rules ∧
        decodeLines 0 (Json.pick fs linesNames).items =
          .ok lines ∧
        (do
          let all ← orRefuse (withInlineSource r rules lines)
          orRefuse (Model.build all rules lines)) = .ok m := by
  unfold ofPayloadFields
  simp only [bind_eq_ok_iff, listField_ok_iff]
  constructor
  · rintro ⟨_, ⟨hSources, rfl⟩, r, hr, _, ⟨hRules, rfl⟩, rules,
      hrs, _, ⟨hLines, rfl⟩, lines, hls, all, hAll, hm⟩
    exact ⟨hSources, hRules, hLines, r, rules, lines, hr, hrs, hls,
      all, hAll, hm⟩
  · rintro ⟨hSources, hRules, hLines, r, rules, lines, hr, hrs, hls,
      all, hAll, hm⟩
    exact ⟨_, ⟨hSources, rfl⟩, r, hr, _, ⟨hRules, rfl⟩, rules,
      hrs, _, ⟨hLines, rfl⟩, lines, hls, all, hAll, hm⟩

theorem mem_describedSources_iff
    {fs : Table String Json}
    {ss : List SourceFile}
    (h : decodeEach (fun _ => decodeSource) 0
      (Json.pick fs sourcesNames).items = .ok ss)
    (s : SourceFile) :
    s ∈ ss ↔ s ∈ describedSources fs := by
  have hItem : ∀ (index : Nat) x a, decodeSource x = .ok a →
      (a = s ↔ sourceOf? x = some s) := by
    intro index x a ha
    rw [decodeSource_eq ha, Option.some.injEq]
  have hEach := decodeEach_exists hItem h
  rw [describedSources, List.mem_filterMap, ← hEach]
  simp

/- The registry of a payload is ordered and holds its sources. -/
theorem registered_sources
    {fs : Table String Json}
    {r : SourceRegistry}
    (h : decodeSources .empty (Json.pick fs sourcesNames).items =
      .ok r) :
    SourceRegistry.Ordered r.sources ∧
      ∀ s, s ∈ r.sources ↔ s ∈ describedSources fs := by
  rcases (decodeSources_ok_iff 0).mp h with ⟨ss, hss, hAll⟩
  refine ⟨SourceRegistry.ordered_addAll .nil hAll, fun s => ?_⟩
  rw [SourceRegistry.mem_sources_addAll hAll,
    ← mem_describedSources_iff hss]
  exact or_iff_right List.not_mem_nil

end Attribution

end StyleCompanion
