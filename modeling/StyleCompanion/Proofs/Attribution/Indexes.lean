import StyleCompanion.Proofs.Attribution.Models

/-
  The line indexes of a model against plain scans.

  The builder files owners and declarations by line while it
  goes through the records and the rules.  Asking an index
  gives what a scan for the line would give, also where lines
  are negative, come in any order or come more than once.  Line
  by line, every declaration with a line is found again as
  often as the rules have it.

  Main declarations:
    * `Model.ownerByScan`
    * `Model.declarationsByScan`
    * `Model.count_flatMap_byLine`
    * `Model.indexes_agree_with_scans`
-/

namespace StyleCompanion

namespace Attribution

namespace Model

----
-- Scans
----

/-
  The owner of the last record of a line, if there is such a
  record and it has an owner.
-/
def ownerByScan
    (lines : List LineRecord)
    (n : Int) : Option Int :=
  (lines.filter fun r => r.lineNumber = n).getLast?.bind
    (·.ownerId)

/- The declarations of a line, rule by rule. -/
def declarationsByScan
    (rules : List Rule)
    (n : Int) : List Declaration :=
  rules.flatMap fun rule =>
    rule.declarations.filter fun d => d.sourceLine = some n

variable {m : Model}

theorem Built.ownerForLine_eq_scan
    (h : m.Built)
    (n : Int) :
    m.ownerForLine n = ownerByScan m.lines n := by
  have hIndex : m.ownerIndex = indexOwners m.lines :=
    congrArg ownerIndex (eq_of_build h.build_eq)
  -- the first from behind is the last of those that match
  have hLast :
      (m.lines.reverse.find? fun r => r.lineNumber = n) =
        (m.lines.filter fun r => r.lineNumber = n).getLast? := by
    rw [← List.head?_filter, List.filter_reverse,
      List.head?_reverse]
  rw [ownerForLine, hIndex, get?_indexOwners, hLast, ownerByScan]

theorem Built.declarationsOnLine_eq_scan
    (h : m.Built)
    (n : Int) :
    m.declarationsOnLine n = declarationsByScan m.rules n := by
  rw [h.declarationsOnLine_eq, allDeclarations,
    List.filter_flatMap]
  rfl

----
-- All lines together
----

/-
  Lines without repetition, one after the other: a declaration
  is found as often as it occurs if its line is among them,
  and else not at all.
-/
theorem count_flatMap_byLine
    (ds : List Declaration)
    {ns : List Int}
    (hNodup : ns.Nodup)
    (d : Declaration) :
    (ns.flatMap fun n =>
        ds.filter fun x => x.sourceLine = some n).count d =
      if ∃ n ∈ ns, d.sourceLine = some n then ds.count d
      else 0 := by
  induction ns with
  | nil => simp
  | cons n ns ih =>
      rw [List.nodup_cons] at hNodup
      rw [List.flatMap_cons, List.count_append, ih hNodup.2]
      by_cases hLine : d.sourceLine = some n
      · have hOnce : ¬ ∃ k ∈ ns, d.sourceLine = some k := by
          rintro ⟨k, hk, hSame⟩
          rw [hLine] at hSame
          cases hSame
          exact hNodup.1 hk
        rw [List.count_filter (by simpa using hLine),
          if_neg hOnce, if_pos ⟨n, by simp, hLine⟩, Nat.add_zero]
      · have hAbsent :
            (ds.filter fun x =>
              x.sourceLine = some n).count d = 0 := by
          rw [List.count_eq_zero, List.mem_filter]
          exact fun hd => hLine (by simpa using hd.2)
        simp [hAbsent, hLine]

/- Every declaration with a line is on its line. -/
theorem Built.perm_flatMap_declarationsOnLine
    (h : m.Built)
    {ns : List Int}
    (hNodup : ns.Nodup)
    (hAll : ∀ d ∈ allDeclarations m.rules,
      ∀ n, d.sourceLine = some n → n ∈ ns) :
    (ns.flatMap m.declarationsOnLine).Perm
      ((allDeclarations m.rules).filter
        (·.sourceLine.isSome)) := by
  rw [funext h.declarationsOnLine_eq, List.perm_iff_count]
  intro d
  rw [count_flatMap_byLine _ hNodup]
  cases hLine : d.sourceLine with
  | none =>
      rw [if_neg (by simp), eq_comm, List.count_eq_zero,
        List.mem_filter]
      simp [hLine]
  | some n =>
      rw [List.count_filter (by rw [hLine]; rfl)]
      split
      next => rfl
      next hOutside =>
        -- a line that was left out has no declarations
        rw [eq_comm, List.count_eq_zero]
        exact fun hd =>
          hOutside ⟨n, hAll d hd n hLine, rfl⟩

/-
  The indexes of a model say what scans of its records and
  rules say.  Over any lines that leave no declaration out,
  they give every declaration with a line exactly as often as
  it occurs in the rules.
-/
theorem indexes_agree_with_scans
    (m : Model)
    (hBuilt : m.Built) :
    (∀ n, m.ownerForLine n = ownerByScan m.lines n) ∧
      (∀ n, m.declarationsOnLine n =
        declarationsByScan m.rules n) ∧
      ∀ ns : List Int, ns.Nodup →
        (∀ d ∈ allDeclarations m.rules,
          ∀ n, d.sourceLine = some n → n ∈ ns) →
        (ns.flatMap m.declarationsOnLine).Perm
          ((allDeclarations m.rules).filter
            (·.sourceLine.isSome)) :=
  ⟨hBuilt.ownerForLine_eq_scan,
    hBuilt.declarationsOnLine_eq_scan,
    fun _ hNodup hAll =>
      hBuilt.perm_flatMap_declarationsOnLine hNodup hAll⟩

/- A declaration on a line. -/
def onLine
    (n : Option Int) : Declaration :=
  ⟨none, "color", [], n, none⟩

/-
  Records and declarations with lines that are negative, out
  of order and repeated.
-/
def scattered : Model :=
  let lines : List LineRecord :=
    [⟨3, some 1⟩, ⟨-2, none⟩, ⟨3, some 2⟩, ⟨-2, some 1⟩, ⟨5, some 1⟩,
      ⟨5, none⟩]
  let rules : List Rule :=
    [⟨none, "p", [onLine (some 3), onLine none, onLine (some (-2))]⟩,
      ⟨none, "q", [onLine (some 3)]⟩]
  ⟨⟨[⟨1, "", ""⟩, ⟨2, "", ""⟩]⟩, rules, lines, indexOwners lines,
    indexDeclarations rules⟩

theorem scattered_indexes_agree :
    scattered.Built ∧
      [3, -2, 5, 0].map scattered.ownerForLine =
        [some 2, some 1, none, none] ∧
      scattered.declarationsOnLine 3 =
        [onLine (some 3), onLine (some 3)] ∧
      ([3, -2].flatMap scattered.declarationsOnLine).count
        (onLine (some 3)) = 2 := by
  have hBuilt : scattered.Built :=
    ⟨scattered.sources, scattered.rules, scattered.lines, rfl⟩
  have hAgree := indexes_agree_with_scans scattered hBuilt
  refine ⟨hBuilt, ?_, ?_, ?_⟩
  · rw [funext hAgree.1]
    decide
  · rw [hAgree.2.1]
    decide
  · rw [(hAgree.2.2 [3, -2] (by decide) (by decide)).count_eq]
    decide

end Model

end Attribution

end StyleCompanion
