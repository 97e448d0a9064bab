import StyleCompanion.Proofs.Settings.Paths
import StyleCompanion.Settings.Schema

/-
  Runs of rules.

  Rules whose paths are apart do not get in each other's way:
  each decides from the value that its path had before the
  run.  So a run fails exactly if one of its rules does, what
  is found at a path afterwards is what its rule put there,
  and all other paths keep what they had.

  Main declarations:
    * `Settings.RulesApart`
    * `Settings.forall_rules_iff`
    * `Settings.rulesApart_rules`
    * `Settings.lookup_runRules_of_apart`
    * `Settings.lookup_runRules_of_mem`
    * `Settings.wanted_of_runRules_ok`
    * `Settings.wanted_of_runRules_error`
    * `Settings.runRules_of_idle`
    * `Settings.throughout_runRules`
-/

namespace StyleCompanion

namespace Settings

----
-- The paths of rules
----

/- The path that a rule watches. -/
def Rule.path
    (r : Rule) : List String :=
  Tree.keyPath r.key

/- The paths of rules are apart, and none is empty. -/
structure RulesApart
    (rs : List Rule) : Prop where
  apart : rs.Pairwise fun r q => Tree.Apart r.path q.path
  path_ne_nil : ∀ r ∈ rs, r.path ≠ []

/- A property of all rules of the schema, rule by rule. -/
theorem forall_rules_iff
    {P : Rule → Prop} :
    (∀ r ∈ rules, P r) ↔
      P paletteRule ∧ P lineAlphaRule ∧ P enabledRule ∧
        P fontSizeRule ∧ P fontFamilyRule ∧
        P overwrittenStyleRule ∧ P logLevelRule ∧
        P serverArgsRule ∧ P serverEnvRule := by
  simp only [rules, List.forall_mem_cons, List.not_mem_nil,
    false_imp_iff, implies_true, and_true]

/- The paths that the schema is about. -/
theorem paths_rules :
    rules.map Rule.path =
      [["overlay", "palette"], ["overlay", "line_alpha"],
        ["overlay", "enabled"], ["editor", "font_size"],
        ["editor", "font_family"],
        ["overlay", "overwritten_style"], ["log", "level"],
        ["server", "args"], ["server", "env"]] := by
  decide

/- No rule of the schema watches a part of another's value. -/
theorem rulesApart_rules : RulesApart rules := by
  constructor
  · rw [← List.pairwise_map, paths_rules]
    decide
  · intro r hr
    have hPath := List.mem_map_of_mem (f := Rule.path) hr
    rw [paths_rules] at hPath
    intro hNil
    rw [hNil] at hPath
    revert hPath
    decide

variable {rs : List Rule}
variable {r : Rule}
variable {defaults data : Tree}
variable {path : List String}
variable {P : Json → Prop}

theorem RulesApart.tail
    (h : RulesApart (r :: rs)) :
    RulesApart rs :=
  ⟨(List.pairwise_cons.mp h.apart).2,
    fun q hq => h.path_ne_nil q (List.mem_cons_of_mem r hq)⟩

theorem RulesApart.head
    (h : RulesApart (r :: rs)) :
    ∀ q ∈ rs, Tree.Apart r.path q.path :=
  (List.pairwise_cons.mp h.apart).1

----
-- One rule
----

/- The settings once a rule got what it wanted, if anything. -/
def Rule.settle
    (r : Rule)
    (data : Tree) : Option Json → Tree
  | none => data
  | some v => r.put data v

/- What is found at other paths stays. -/
theorem lookup_settle_of_apart
    (h : Tree.Apart r.path path)
    (w : Option Json) :
    Tree.lookup (.obj (r.settle data w)) path =
      Tree.lookup (.obj data) path := by
  cases w with
  | none => rfl
  | some v => exact Tree.lookup_assign_of_apart data h v

/- At its own path stands what a rule wanted there. -/
theorem lookup_settle_self
    (h : r.path ≠ [])
    (w : Option Json) :
    Tree.lookup (.obj (r.settle data w)) r.path =
      w.or (Tree.lookup (.obj data) r.path) := by
  cases w with
  | none => rfl
  | some v => exact Tree.lookup_assign_self data h v

/- What one rule puts is nothing to the others. -/
theorem wanted_settle_of_apart
    {q : Rule}
    (h : Tree.Apart r.path q.path)
    (w : Option Json) :
    q.wanted defaults (r.settle data w) =
      q.wanted defaults data := by
  have hValue :
      valueAt (r.settle data w) q.key = valueAt data q.key :=
    congrArg (·.getD .null) (lookup_settle_of_apart h w)
  rw [Rule.wanted, Rule.wanted, hValue]

/- What the settings and a wanted value have is kept. -/
theorem throughout_settle
    {w : Option Json}
    (hP : Json.FieldStable P)
    (hData : Json.Throughout P (.obj data))
    (hWanted : ∀ v ∈ w, Json.Throughout P v) :
    Json.Throughout P (.obj (r.settle data w)) := by
  cases w with
  | none => exact hData
  | some v =>
      exact Tree.throughout_assign hP hData (hWanted v rfl)

----
-- The first rule of a run
----

/- A rule that fails ends the run. -/
theorem runRules_cons_of_error
    {e : Failure}
    (h : r.wanted defaults data = .error e) :
    runRules (r :: rs) defaults data = (data, .error e) := by
  rw [runRules, h]

/- Otherwise the run goes on from what the rule made. -/
theorem runRules_cons_of_ok
    {w : Option Json}
    (h : r.wanted defaults data = .ok w) :
    runRules (r :: rs) defaults data =
      ((runRules rs defaults (r.settle data w)).1,
        (runRules rs defaults (r.settle data w)).2.map
          fun changed => w.isSome || changed) := by
  rw [runRules, h]
  cases w with
  | some v => rfl
  | none => exact Prod.ext rfl (congrFun Except.map_id _).symm

/- A run that succeeds has a first rule that does. -/
theorem runRules_cons_ok
    {changed : Bool}
    (h : (runRules (r :: rs) defaults data).2 = .ok changed) :
    ∃ w later,
      r.wanted defaults data = .ok w ∧
        (runRules rs defaults (r.settle data w)).2 =
          .ok later ∧
        changed = (w.isSome || later) := by
  cases hWanted : r.wanted defaults data with
  | error e =>
      rw [runRules_cons_of_error hWanted] at h
      cases h
  | ok w =>
      rw [runRules_cons_of_ok hWanted] at h
      cases hLater :
          (runRules rs defaults (r.settle data w)).2 with
      | error e =>
          rw [hLater] at h
          cases h
      | ok later =>
          rw [hLater] at h
          cases h
          exact ⟨w, later, rfl, hLater, rfl⟩

----
-- Paths after a run
----

/- A run changes nothing at the paths of no rule. -/
theorem lookup_runRules_of_apart
    (h : ∀ q ∈ rs, Tree.Apart q.path path) :
    Tree.lookup (.obj (runRules rs defaults data).1) path =
      Tree.lookup (.obj data) path := by
  induction rs generalizing data with
  | nil => rfl
  | cons q rest ih =>
      cases hWanted : q.wanted defaults data with
      | error e => rw [runRules_cons_of_error hWanted]
      | ok w =>
          have hRest : ∀ p ∈ rest, Tree.Apart p.path path :=
            fun p hp => h p (List.mem_cons_of_mem q hp)
          rw [runRules_cons_of_ok hWanted, ih hRest,
            lookup_settle_of_apart (h q List.mem_cons_self)]

/-
  After a run the path of a rule has what the rule wanted
  there, or else what it had.
-/
theorem lookup_runRules_of_mem
    {w : Option Json}
    {changed : Bool}
    (hApart : RulesApart rs)
    (hMem : r ∈ rs)
    (hOk : (runRules rs defaults data).2 = .ok changed)
    (hWanted : r.wanted defaults data = .ok w) :
    Tree.lookup (.obj (runRules rs defaults data).1) r.path =
      w.or (Tree.lookup (.obj data) r.path) := by
  induction rs generalizing data changed with
  | nil => cases hMem
  | cons q rest ih =>
      rcases runRules_cons_ok hOk with
        ⟨u, later, hFirst, hLater, -⟩
      rw [runRules_cons_of_ok hFirst]
      rcases List.mem_cons.mp hMem with rfl | hRest
      · -- The rules after this one leave its path alone.
        have hSame : u = w :=
          Except.ok.inj (hFirst.symm.trans hWanted)
        subst hSame
        rw [lookup_runRules_of_apart fun p hp =>
          (hApart.head p hp).symm]
        exact lookup_settle_self
          (hApart.path_ne_nil r List.mem_cons_self) u
      · have hRule := hApart.head r hRest
        rw [ih hApart.tail hRest hLater
            ((wanted_settle_of_apart hRule u).trans hWanted),
          lookup_settle_of_apart hRule]

----
-- Failure
----

/- Every rule of a run that succeeds has succeeded. -/
theorem wanted_of_runRules_ok
    {changed : Bool}
    (hApart : RulesApart rs)
    (h : (runRules rs defaults data).2 = .ok changed) :
    ∀ q ∈ rs, ∃ w, q.wanted defaults data = .ok w := by
  induction rs generalizing data changed with
  | nil =>
      intro q hq
      cases hq
  | cons q rest ih =>
      rcases runRules_cons_ok h with
        ⟨u, later, hFirst, hLater, -⟩
      intro p hp
      rcases List.mem_cons.mp hp with rfl | hRest
      · exact ⟨u, hFirst⟩
      · rcases ih hApart.tail hLater p hRest with ⟨w, hw⟩
        rw [wanted_settle_of_apart (hApart.head p hRest)] at hw
        exact ⟨w, hw⟩

/- Rules that want nothing leave everything as it is. -/
theorem runRules_of_idle
    (h : ∀ q ∈ rs, q.wanted defaults data = .ok none) :
    runRules rs defaults data = (data, .ok false) := by
  induction rs with
  | nil => rfl
  | cons q rest ih =>
      rw [runRules, h q List.mem_cons_self]
      exact ih fun p hp => h p (List.mem_cons_of_mem q hp)

/- What the settings and all wanted values have is kept. -/
theorem throughout_runRules
    (hP : Json.FieldStable P)
    (hApart : RulesApart rs)
    (hData : Json.Throughout P (.obj data))
    (hWanted :
      ∀ q ∈ rs, ∀ v, q.wanted defaults data = .ok (some v) →
        Json.Throughout P v) :
    Json.Throughout P (.obj (runRules rs defaults data).1) := by
  induction rs generalizing data with
  | nil => exact hData
  | cons q rest ih =>
      cases hFirst : q.wanted defaults data with
      | error e =>
          rw [runRules_cons_of_error hFirst]
          exact hData
      | ok w =>
          rw [runRules_cons_of_ok hFirst]
          have hSettled :
              Json.Throughout P (.obj (q.settle data w)) := by
            refine throughout_settle hP hData fun v hv => ?_
            rw [Option.mem_def.mp hv] at hFirst
            exact hWanted q List.mem_cons_self v hFirst
          refine ih hApart.tail hSettled fun p hp v hv => ?_
          rw [wanted_settle_of_apart (hApart.head p hp)] at hv
          exact hWanted p (List.mem_cons_of_mem q hp) v hv

end Settings

end StyleCompanion
