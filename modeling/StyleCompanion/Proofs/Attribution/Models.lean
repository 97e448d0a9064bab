import Mathlib.Data.List.Induction
import StyleCompanion.Attribution.Model
import StyleCompanion.Proofs.Attribution.Sources

/-
  Laws of models.

  A model that was built knows all its owners, and its two
  indexes say what a scan of its records and declarations
  says: the owner of a line is that of its last record, and
  the declarations of a line are those that name it.

  Main declarations:
    * `FirstSeen`
    * `firstSeen_spec`
    * `Model.Built`
    * `Model.build_ok_iff`
    * `Model.Built.exists_source`
    * `IsLast`
    * `Model.Built.ownerForLine_iff`
    * `Model.Built.declarationsOnLine_eq`
-/

namespace StyleCompanion

namespace Attribution

----
-- First-seen order
----

/-
  The items of a list, each once, in the order in which they
  first come.
-/
structure FirstSeen
    (xs ys : List Int) : Prop where
  mem_iff : ∀ x, x ∈ ys ↔ x ∈ xs
  order : ys.Pairwise fun x y => xs.idxOf x < xs.idxOf y

theorem FirstSeen.nodup
    {xs ys : List Int}
    (h : FirstSeen xs ys) :
    ys.Nodup :=
  h.order.imp fun hLess hEq => by simp [hEq] at hLess

theorem firstSeen_concat
    (xs : List Int)
    (x : Int) :
    firstSeen (xs ++ [x]) =
      if x ∈ firstSeen xs then firstSeen xs
      else firstSeen xs ++ [x] := by
  unfold firstSeen
  rw [List.foldl_append]
  rfl

theorem firstSeen_spec
    (xs : List Int) :
    FirstSeen xs (firstSeen xs) := by
  induction xs using List.reverseRecOn with
  | nil => exact ⟨fun x => .rfl, .nil⟩
  | append_singleton xs x ih =>
      -- the places of earlier items stay as they are
      have hPlace : ∀ y ∈ firstSeen xs,
          (xs ++ [x]).idxOf y = xs.idxOf y := by
        intro y hy
        rw [List.idxOf_append, if_pos ((ih.mem_iff y).mp hy)]
      have hOrder : (firstSeen xs).Pairwise fun y z =>
          (xs ++ [x]).idxOf y < (xs ++ [x]).idxOf z := by
        refine ih.order.imp_of_mem fun hy hz hLess => ?_
        rwa [hPlace _ hy, hPlace _ hz]
      rw [firstSeen_concat]
      split
      next hSeen =>
        refine ⟨fun y => ?_, hOrder⟩
        rw [ih.mem_iff, List.mem_append, List.mem_singleton]
        refine ⟨.inl, ?_⟩
        rintro (hOld | rfl)
        · exact hOld
        · exact (ih.mem_iff y).mp hSeen
      next hNew =>
        refine ⟨fun y => ?_, ?_⟩
        · rw [List.mem_append, ih.mem_iff, List.mem_append]
        · refine List.pairwise_append.mpr
            ⟨hOrder, List.pairwise_singleton _ x, ?_⟩
          intro y hy z hz
          rw [List.mem_singleton.mp hz, hPlace y hy,
            List.idxOf_append, if_neg fun hx => hNew
              ((ih.mem_iff x).mpr hx)]
          have hInside := List.idxOf_lt_length_of_mem
            ((ih.mem_iff y).mp hy)
          omega

namespace Model

variable {m : Model}

theorem mem_ownerIds
    {id : Int} :
    id ∈ m.ownerIds ↔ ∃ r ∈ m.lines, r.ownerId = some id := by
  rw [ownerIds, (firstSeen_spec _).mem_iff, List.mem_filterMap]

----
-- Models that were built
----

/- A model is built if all its owners are registered. -/
theorem build_ok_iff
    {sources : SourceRegistry}
    {rules : List Rule}
    {lines : List LineRecord} :
    (∃ m, build sources rules lines = .ok m) ↔
      ∀ id ∈ referencedOwners rules lines,
        sources.contains id = true := by
  unfold build
  cases hFind : (referencedOwners rules lines).find?
      fun id => !sources.contains id with
  | none =>
      rw [List.find?_eq_none] at hFind
      refine ⟨fun _ id hId => ?_, fun _ => ⟨_, rfl⟩⟩
      simpa using hFind id hId
  | some id =>
      refine ⟨fun ⟨_, h⟩ => (nomatch h), fun h => ?_⟩
      have hKnown := h id (List.mem_of_find?_eq_some hFind)
      have hUnknown := List.find?_some hFind
      simp [hKnown] at hUnknown

/- A model that comes from the builder. -/
def Built
    (m : Model) : Prop :=
  ∃ sources rules lines, build sources rules lines = .ok m

/- What is built is what it is built of, with its indexes. -/
theorem eq_of_build
    {sources : SourceRegistry}
    {rules : List Rule}
    {lines : List LineRecord}
    (h : build sources rules lines = .ok m) :
    m = ⟨sources, rules, lines, indexOwners lines,
      indexDeclarations rules⟩ := by
  unfold build at h
  split at h
  next => cases h
  next => exact (Except.ok.inj h).symm

theorem Built.build_eq
    (h : m.Built) :
    build m.sources m.rules m.lines = .ok m := by
  rcases h with ⟨sources, rules, lines, hBuild⟩
  cases eq_of_build hBuild
  exact hBuild

/- The owner of a line record is a registered source. -/
theorem Built.exists_source
    (h : m.Built)
    {id : Int}
    (hId : id ∈ m.ownerIds) :
    ∃ s, m.source? (some id) = some s := by
  rcases mem_ownerIds.mp hId with ⟨r, hr, hOwner⟩
  have hKnown := build_ok_iff.mp ⟨m, h.build_eq⟩ id
    (List.mem_append_right _
      (List.mem_filterMap.mpr ⟨r, hr, hOwner⟩))
  exact Option.isSome_iff_exists.mp hKnown

----
-- Indexes
----

theorem get?_indexOwners
    (lines : List LineRecord)
    (n : Int) :
    (Table.get? (indexOwners lines) n).getD none =
      (lines.reverse.find? fun r =>
        decide (r.lineNumber = n)).bind (·.ownerId) := by
  induction lines using List.reverseRecOn with
  | nil => rfl
  | append_singleton lines r ih =>
      unfold indexOwners at ih ⊢
      rw [List.foldl_append, List.foldl_cons, List.foldl_nil,
        Table.get?_insert, List.reverse_append]
      by_cases hLine : r.lineNumber = n
      · simp [hLine]
      · simpa [hLine] using ih

theorem get?_foldl_fileDeclaration
    (ds : List Declaration)
    (n : Int) :
    (Table.get? (ds.foldl fileDeclaration []) n).getD [] =
      ds.filter fun d => decide (d.sourceLine = some n) := by
  induction ds using List.reverseRecOn with
  | nil => rfl
  | append_singleton ds d ih =>
      rw [List.foldl_append, List.foldl_cons, List.foldl_nil,
        List.filter_append, ← ih, fileDeclaration]
      cases hLine : d.sourceLine with
      | none => simp [hLine]
      | some k =>
          dsimp only
          rw [Table.get?_insert]
          by_cases hEq : k = n
          · simp [hLine, hEq]
          · simp [hLine, hEq]

end Model

/- The last of some records that has a line number. -/
def IsLast
    (lines : List LineRecord)
    (n : Int)
    (r : LineRecord) : Prop :=
  r.lineNumber = n ∧
    ∃ before after, lines = before ++ r :: after ∧
      ∀ x ∈ after, x.lineNumber ≠ n

theorem isLast_iff
    {lines : List LineRecord}
    {n : Int}
    {r : LineRecord} :
    IsLast lines n r ↔
      (lines.reverse.find? fun x =>
        decide (x.lineNumber = n)) = some r := by
  rw [List.find?_eq_some_iff_append, decide_eq_true_eq]
  refine and_congr_right fun _ => ⟨?_, ?_⟩
  · rintro ⟨before, after, rfl, hAfter⟩
    refine ⟨after.reverse, before.reverse, by simp, ?_⟩
    intro x hx
    simpa using hAfter x (List.mem_reverse.mp hx)
  · rintro ⟨after, before, hSplit, hAfter⟩
    refine ⟨before.reverse, after.reverse, ?_, ?_⟩
    · rw [← List.reverse_reverse lines, hSplit]
      simp
    · intro x hx
      simpa using hAfter x (List.mem_reverse.mp hx)

theorem IsLast.mem
    {lines : List LineRecord}
    {n : Int}
    {r : LineRecord}
    (h : IsLast lines n r) :
    r ∈ lines := by
  rcases h with ⟨-, before, after, rfl, -⟩
  simp

theorem IsLast.unique
    {lines : List LineRecord}
    {n : Int}
    {r t : LineRecord}
    (h : IsLast lines n r)
    (hOther : IsLast lines n t) :
    r = t :=
  Option.some.inj
    ((isLast_iff.mp h).symm.trans (isLast_iff.mp hOther))

/- A line with a record has a last one. -/
theorem exists_isLast
    {lines : List LineRecord}
    {r : LineRecord}
    (hr : r ∈ lines) :
    ∃ t, IsLast lines r.lineNumber t := by
  have hFound : (lines.reverse.find? fun x =>
      decide (x.lineNumber = r.lineNumber)).isSome := by
    rw [List.find?_isSome]
    exact ⟨r, List.mem_reverse.mpr hr, by simp⟩
  rcases Option.isSome_iff_exists.mp hFound with ⟨t, ht⟩
  exact ⟨t, isLast_iff.mpr ht⟩

namespace Model

variable {m : Model}

/- The owner of a line is that of its last record. -/
theorem Built.ownerForLine_iff
    (h : m.Built)
    {n id : Int} :
    m.ownerForLine n = some id ↔
      ∃ r, IsLast m.lines n r ∧ r.ownerId = some id := by
  have hIndex : m.ownerIndex = indexOwners m.lines :=
    congrArg ownerIndex (eq_of_build h.build_eq)
  rw [ownerForLine, hIndex, get?_indexOwners,
    Option.bind_eq_some_iff]
  simp only [isLast_iff]

/- The declarations of a line are those that name it. -/
theorem Built.declarationsOnLine_eq
    (h : m.Built)
    (n : Int) :
    m.declarationsOnLine n =
      (allDeclarations m.rules).filter fun d =>
        decide (d.sourceLine = some n) := by
  have hIndex : m.declarationIndex = indexDeclarations m.rules :=
    congrArg declarationIndex (eq_of_build h.build_eq)
  rw [declarationsOnLine, hIndex]
  exact get?_foldl_fileDeclaration _ n

end Model

end Attribution

end StyleCompanion
