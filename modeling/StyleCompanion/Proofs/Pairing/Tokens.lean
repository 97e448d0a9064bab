import StyleCompanion.Proofs.Pairing.Registry

/-
  Openings and their tokens over the life of a registry.

  A ledger is a registry with all the openings that it has
  ever given out.  Any of them may be handed back at any time,
  also one that was given up long ago.  Since no token is
  given out twice, an opening that was begun and has not ended
  is told from all others, and once it has ended it stays so.

  Main declarations:
    * `PairRegistry.Operation`
    * `PairRegistry.Ledger`
    * `PairRegistry.Ledger.Orderly`
    * `PairRegistry.Ledger.Ends`
    * `PairRegistry.Ledger.awaits_run_iff`
    * `PairRegistry.Ledger.token_discipline`
-/

namespace StyleCompanion

namespace Pairing

namespace PairRegistry

----
-- Single openings
----

variable {r : PairRegistry} {q : PendingOpen}

/- An opening is handed back with success if it is awaited. -/
theorem finishOpen_snd_iff :
    (r.finishOpen q).2 = true ↔ r.Awaits q := by
  by_cases hAwaits : r.Awaits q
  · simp [finishOpen_eq hAwaits, hAwaits]
  · simp [finishOpen_eq_self hAwaits, hAwaits]

theorem pendingFor_cancelOpen
    (r : PairRegistry)
    (p v : String) :
    (r.cancelOpen p).1.pendingFor v =
      if p = v then none else r.pendingFor v :=
  Table.get?_erase r.pending p v

/- A primary keeps its opening while others begin. -/
theorem pendingFor_beginOpen
    {v : String}
    (h : r.pendingFor v = some q)
    (p c : String) :
    (r.beginOpen p c).1.pendingFor v = some q := by
  cases hPending : r.pendingFor p with
  | some other =>
      rw [beginOpen_eq_self hPending]
      exact h
  | none =>
      have hNe : p ≠ v := by
        intro hEq
        rw [hEq, h] at hPending
        cases hPending
      rw [beginOpen_eq hPending]
      exact (Table.get?_insert r.pending p v _).trans
        ((if_neg hNe).trans h)

theorem beginOpen_eq_none_iff
    (r : PairRegistry)
    (p c : String) :
    (r.beginOpen p c).2 = none ↔
      (r.pendingFor p).isSome = true := by
  cases hPending : r.pendingFor p with
  | some other => simp [beginOpen_eq_self hPending]
  | none => simp [beginOpen_eq hPending]

----
-- Ledgers
----

/-
  What can be done to a registry.  An opening is handed back
  by its place among all that were given out.
-/
inductive Operation where
  | register (primary companion : String)
  | remove (primary : String)
  | beginOpen (primary companion : String)
  | finishOpen (index : Nat)
  | cancelOpen (primary : String)
  | clear
  deriving DecidableEq, Repr

/- A registry and the openings that it has given out. -/
structure Ledger where
  registry : PairRegistry
  issued : List PendingOpen
  deriving DecidableEq, Repr

namespace Ledger

/- A ledger with nothing in it. -/
def new : Ledger := ⟨.new, []⟩

/- The ledger after an operation. -/
def step
    (l : Ledger)
    (op : Operation) : Ledger :=
  match op with
  | .register p c =>
      { l with registry := l.registry.register p c }
  | .remove p => { l with registry := l.registry.remove p }
  | .beginOpen p c =>
      let r := l.registry.beginOpen p c
      ⟨r.1, l.issued ++ r.2.toList⟩
  | .finishOpen i =>
      match l.issued[i]? with
      | none => l
      | some q =>
          { l with registry := (l.registry.finishOpen q).1 }
  | .cancelOpen p =>
      { l with registry := (l.registry.cancelOpen p).1 }
  | .clear => { l with registry := l.registry.clear }

/- The ledger after operations in order. -/
def run
    (l : Ledger)
    (ops : List Operation) : Ledger :=
  ops.foldl step l

/-
  An operation ends an opening: its primary gives it up, all
  is forgotten, or it is handed back with success.
-/
def Ends
    (l : Ledger)
    (q : PendingOpen)
    (op : Operation) : Prop :=
  match op with
  | .cancelOpen p => p = q.primary
  | .clear => True
  | .finishOpen i =>
      l.issued[i]? = some q ∧
        (l.registry.finishOpen q).2 = true
  | _ => False

variable {l : Ledger}

/- What was given out is never forgotten. -/
theorem mem_issued_step
    (hq : q ∈ l.issued)
    (op : Operation) :
    q ∈ (l.step op).issued := by
  cases op with
  | beginOpen p c => exact List.mem_append_left _ hq
  | finishOpen i =>
      unfold step
      dsimp only
      split <;> exact hq
  | register p c => exact hq
  | remove p => exact hq
  | cancelOpen p => exact hq
  | clear => exact hq

theorem mem_issued_run
    (hq : q ∈ l.issued)
    (ops : List Operation) :
    q ∈ (l.run ops).issued := by
  induction ops generalizing l with
  | nil => exact hq
  | cons op ops ih => exact ih (mem_issued_step hq op)

----
-- Order in the ledger
----

/-
  Tokens go up in the order in which openings were given out,
  and every opening under way is one of those.
-/
structure Orderly
    (l : Ledger) : Prop where
  filed : l.registry.Filed
  increasing : (l.issued.map (·.token)).Pairwise (· < ·)
  past : ∀ q ∈ l.issued, q.token < l.registry.nextToken
  known : ∀ q ∈ l.registry.pendingList, q ∈ l.issued

theorem orderly_new : Orderly .new where
  filed := filed_new
  increasing := .nil
  past := by
    intro q hq
    cases hq
  known := by
    intro q hq
    cases hq

namespace Orderly

theorem nodup_tokens
    (h : l.Orderly) :
    (l.issued.map (·.token)).Nodup :=
  h.increasing.imp fun hLt => Nat.ne_of_lt hLt

/- What is waited for is the opening itself. -/
theorem awaits_iff
    (h : l.Orderly)
    (hq : q ∈ l.issued) :
    l.registry.Awaits q ↔
      l.registry.pendingFor q.primary = some q := by
  constructor
  · intro hAwaits
    rcases Option.map_eq_some_iff.mp hAwaits with
      ⟨p, hp, hToken⟩
    have hIssued :=
      h.known p (mem_pendingList_of_pendingFor hp)
    rw [hp, List.inj_on_of_nodup_map h.nodup_tokens hIssued hq
      hToken]
  · intro hPending
    rw [Awaits, hPending]
    rfl

/- Losing pairs and openings keeps the order. -/
theorem lose
    (h : l.Orderly)
    {r : PairRegistry}
    (hLost : l.registry.Loses r) :
    Orderly { l with registry := r } where
  filed := hLost.filed h.filed
  increasing := h.increasing
  past := by
    intro q hq
    rw [hLost.nextToken]
    exact h.past q hq
  known := by
    intro q hq
    exact h.known q (hLost.mem_pendingList hq)

theorem register
    (h : l.Orderly)
    (p c : String) :
    Orderly { l with registry := l.registry.register p c } :=
  ⟨h.filed.register p c, h.increasing, h.past, h.known⟩

/- A new opening has a token above all others. -/
theorem beginOpen
    (h : l.Orderly)
    (p c : String) :
    (l.step (.beginOpen p c)).Orderly := by
  have hFiled := h.filed.beginOpen p c
  have hKnown :
      ∀ q ∈ (l.registry.beginOpen p c).1.pendingList,
        q ∈ l.issued ∨ q = ⟨p, c, l.registry.nextToken⟩ := by
    intro q hq
    exact (h.filed.mem_pendingList_beginOpen hq).imp_left
      (h.known q)
  cases hPending : l.registry.pendingFor p with
  | some q =>
      simpa [step, beginOpen_eq_self hPending] using h
  | none =>
      simp only [step, beginOpen_eq hPending] at hFiled hKnown ⊢
      refine ⟨hFiled, ?_, ?_, ?_⟩
      · rw [Option.toList_some, List.map_append,
          List.pairwise_append]
        refine ⟨h.increasing, List.pairwise_singleton _ _, ?_⟩
        intro a ha b hb
        rcases List.mem_map.mp ha with ⟨q, hq, rfl⟩
        cases List.mem_singleton.mp hb
        exact h.past q hq
      · intro q hq
        rcases List.mem_append.mp hq with hOld | hNew
        · exact Nat.lt_succ_of_lt (h.past q hOld)
        · cases List.mem_singleton.mp hNew
          exact Nat.lt_succ_self _
      · intro q hq
        rcases hKnown q hq with hOld | hNew
        · exact List.mem_append_left _ hOld
        · rw [hNew]
          exact List.mem_append_right _ List.mem_cons_self

theorem step
    (h : l.Orderly)
    (op : Operation) :
    (l.step op).Orderly := by
  cases op with
  | register p c => exact h.register p c
  | remove p => exact h.lose (loses_remove _ p)
  | beginOpen p c => exact h.beginOpen p c
  | finishOpen i =>
      unfold Ledger.step
      dsimp only
      split
      · exact h
      · exact h.lose (loses_finishOpen _ _)
  | cancelOpen p => exact h.lose (loses_cancelOpen _ p)
  | clear => exact h.lose (loses_clear _)

theorem run
    (h : l.Orderly)
    (ops : List Operation) :
    (l.run ops).Orderly := by
  induction ops generalizing l with
  | nil => exact h
  | cons op ops ih => exact ih (h.step op)

----
-- The life of an opening
----

/- An opening under way goes on unless it is ended. -/
theorem awaits_step_iff
    (h : l.Orderly)
    (hq : q ∈ l.issued)
    (hAwaits : l.registry.Awaits q)
    (op : Operation) :
    (l.step op).registry.Awaits q ↔ ¬ l.Ends q op := by
  have hPending := (h.awaits_iff hq).mp hAwaits
  rw [(h.step op).awaits_iff (mem_issued_step hq op)]
  cases op with
  | register p c =>
      exact iff_of_true hPending (fun hEnds => hEnds)
  | remove p =>
      exact iff_of_true hPending (fun hEnds => hEnds)
  | beginOpen p c =>
      exact iff_of_true (pendingFor_beginOpen hPending p c)
        (fun hEnds => hEnds)
  | cancelOpen p =>
      simp [Ledger.step, Ends, pendingFor_cancelOpen, hPending]
  | clear => simp [Ledger.step, Ends, clear, pendingFor]
  | finishOpen i =>
      simp only [Ledger.step, Ends]
      cases hIndex : l.issued[i]? with
      | none => simpa using hPending
      | some p =>
          have hp : p ∈ l.issued := List.mem_of_getElem? hIndex
          by_cases hEq : p = q
          · subst hEq
            simp [finishOpen_eq hAwaits, pendingFor,
              Table.get?_erase_self]
          · -- Another opening with the same primary is not
            -- waited for, so it takes nothing away.
            simp only [Option.some.injEq, hEq, false_and,
              not_false_iff, iff_true]
            by_cases hOther : l.registry.Awaits p
            · have hNe : p.primary ≠ q.primary := by
                intro hSame
                have hFound := (h.awaits_iff hp).mp hOther
                rw [hSame, hPending] at hFound
                exact hEq (Option.some.inj hFound).symm
              rw [finishOpen_eq hOther]
              exact (pendingFor_cancelOpen _ _ _).trans
                ((if_neg hNe).trans hPending)
            · rw [finishOpen_eq_self hOther]
              exact hPending

/- An opening that has ended is never waited for again. -/
theorem not_awaits_step
    (h : l.Orderly)
    (hq : q ∈ l.issued)
    (hEnded : ¬ l.registry.Awaits q)
    (op : Operation) :
    ¬ (l.step op).registry.Awaits q := by
  have hNone : q ∉ l.registry.pendingList := by
    intro hMem
    exact hEnded
      ((h.awaits_iff hq).mpr (h.filed.pendingFor hMem))
  rw [(h.step op).awaits_iff (mem_issued_step hq op)]
  intro hFound
  have hMem := mem_pendingList_of_pendingFor hFound
  cases op with
  | register p c => exact hNone hMem
  | remove p => exact hNone hMem
  | cancelOpen p =>
      exact hNone ((loses_cancelOpen _ p).mem_pendingList hMem)
  | clear => exact hNone ((loses_clear _).mem_pendingList hMem)
  | finishOpen i =>
      simp only [Ledger.step] at hMem
      split at hMem
      · exact hNone hMem
      · exact hNone
          ((loses_finishOpen _ _).mem_pendingList hMem)
  | beginOpen p c =>
      rcases h.filed.mem_pendingList_beginOpen hMem with
        hOld | hNew
      · exact hNone hOld
      · -- The token of a new opening was never given out.
        have hPast := h.past q hq
        rw [hNew] at hPast
        exact Nat.lt_irrefl _ hPast

theorem not_awaits_run
    (h : l.Orderly)
    (hq : q ∈ l.issued)
    (hEnded : ¬ l.registry.Awaits q)
    (ops : List Operation) :
    ¬ (l.run ops).registry.Awaits q := by
  induction ops generalizing l with
  | nil => exact hEnded
  | cons op ops ih =>
      exact ih (h.step op) (mem_issued_step hq op)
        (h.not_awaits_step hq hEnded op)

/-
  An opening under way is still so after operations if none of
  them ended it.
-/
theorem awaits_run_iff
    (h : l.Orderly)
    (hq : q ∈ l.issued)
    (hAwaits : l.registry.Awaits q)
    (ops : List Operation) :
    (l.run ops).registry.Awaits q ↔
      ∀ k op, ops[k]? = some op →
        ¬ (l.run (ops.take k)).Ends q op := by
  induction ops generalizing l with
  | nil => simpa [Ledger.run] using hAwaits
  | cons first rest ih =>
      have hNext := h.step first
      have hIssued := mem_issued_step hq first
      have hFirst := h.awaits_step_iff hq hAwaits first
      constructor
      · intro hLast k op hOp
        have hSurvives : (l.step first).registry.Awaits q := by
          by_contra hEnded
          exact hNext.not_awaits_run hIssued hEnded rest hLast
        cases k with
        | zero =>
            cases hOp
            exact hFirst.mp hSurvives
        | succ k =>
            exact (ih hNext hIssued hSurvives).mp hLast k op hOp
      · intro hNone
        have hSurvives := hFirst.mpr (hNone 0 first rfl)
        apply (ih hNext hIssued hSurvives).mpr
        intro k op hOp
        exact hNone (k + 1) op hOp

end Orderly

/- An opening that begins is waited for. -/
theorem awaits_begun
    {p c : String}
    (hBegun : (l.registry.beginOpen p c).2 = some q) :
    q.primary = p ∧ q ∈ (l.step (.beginOpen p c)).issued ∧
      (l.step (.beginOpen p c)).registry.Awaits q := by
  cases hPending : l.registry.pendingFor p with
  | some other =>
      rw [beginOpen_eq_self hPending] at hBegun
      cases hBegun
  | none =>
      rw [beginOpen_eq hPending] at hBegun
      cases hBegun
      refine ⟨rfl, ?_, ?_⟩
      · simp [step, beginOpen_eq hPending]
      · simp [step, beginOpen_eq hPending, Awaits, pendingFor,
          Table.get?_insert]

/-
  Whatever was done to a registry, its records are filed under
  their primaries, all tokens differ, and a primary is refused
  an opening exactly while it has one.  An opening that is
  given out can be handed back with success until it is given
  up, forgotten or was handed back so before; then it leaves
  and nothing else changes.
-/
theorem token_discipline
    (ops : List Operation) :
    let l := Ledger.new.run ops
    l.registry.Filed ∧
      (l.issued.map (·.token)).Nodup ∧
      (∀ p c,
        (l.registry.beginOpen p c).2 = none ↔
          (l.registry.pendingFor p).isSome = true) ∧
      ∀ p c q, (l.registry.beginOpen p c).2 = some q →
        ∀ later,
          let begun := l.step (.beginOpen p c)
          let r := (begun.run later).registry
          ((r.finishOpen q).2 = true ↔
            ∀ k op, later[k]? = some op →
              ¬ (begun.run (later.take k)).Ends q op) ∧
          ((r.finishOpen q).2 = false →
            (r.finishOpen q).1 = r) ∧
          ((r.finishOpen q).2 = true →
            r.pendingFor p = some q ∧
              (r.finishOpen q).1 =
                { r with pending := Table.erase r.pending p }) := by
  have hOrderly := orderly_new.run ops
  intro l
  refine ⟨hOrderly.filed, hOrderly.nodup_tokens,
    l.registry.beginOpen_eq_none_iff, ?_⟩
  intro p c q hBegun later begun r
  rcases awaits_begun hBegun with ⟨hPrimary, hIssued, hAwaits⟩
  have hNext := hOrderly.step (.beginOpen p c)
  refine ⟨?_, ?_, ?_⟩
  · rw [finishOpen_snd_iff]
    exact hNext.awaits_run_iff hIssued hAwaits later
  · intro hFailed
    rw [finishOpen_eq_self]
    intro hStill
    rw [finishOpen_snd_iff.mpr hStill] at hFailed
    cases hFailed
  · intro hDone
    have hStill := finishOpen_snd_iff.mp hDone
    have hPending :=
      ((hNext.run later).awaits_iff
        (mem_issued_run hIssued later)).mp hStill
    rw [hPrimary] at hPending
    rw [finishOpen_eq hStill, hPrimary]
    exact ⟨hPending, rfl⟩

/-
  A page asks twice for the same stylesheet and gives up the
  first time.  The first opening is outdated, though it is for
  the same documents; the second one is not.
-/
theorem token_discipline_reopened :
    let page := "file:///index.html"
    let sheet := "file:///a.css"
    let l := Ledger.new.run
      [.beginOpen page sheet, .cancelOpen page,
        .beginOpen page sheet]
    (l.registry.finishOpen ⟨page, sheet, 1⟩).2 = false ∧
      (l.registry.finishOpen ⟨page, sheet, 2⟩).2 = true := by
  intro page sheet l
  constructor
  · have hFirst :=
      ((token_discipline []).2.2.2 page sheet
        ⟨page, sheet, 1⟩ rfl
        [.cancelOpen page, .beginOpen page sheet]).1
    rw [← Bool.not_eq_true]
    intro hDone
    exact hFirst.mp hDone 0 _ rfl rfl
  · have hSecond :=
      ((token_discipline
        [.beginOpen page sheet, .cancelOpen page]).2.2.2
          page sheet ⟨page, sheet, 2⟩ rfl []).1
    apply hSecond.mpr
    intro k op hOp
    cases hOp

end Ledger

end PairRegistry

end Pairing

end StyleCompanion
