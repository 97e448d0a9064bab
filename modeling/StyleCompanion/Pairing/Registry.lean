import StyleCompanion.Table

/-
  Pairs of documents, and openings that are under way.

  A pair joins a primary document with its companion.  There
  is at most one pair and at most one opening under way for a
  primary.  Every opening has a token of its own, and no token
  is ever given out twice, so a late completion is told from
  the one that is waited for.

  Key definitions include:
    * `DocumentPair`
    * `PendingOpen`
    * `PairRegistry`
    * `PairRegistry.register`
    * `PairRegistry.beginOpen`
    * `PairRegistry.finishOpen`
    * `PairRegistry.cancelOpen`
-/

namespace StyleCompanion

namespace Pairing

/- A primary document and its companion. -/
structure DocumentPair where
  primary : String
  companion : String
  deriving DecidableEq, Repr

/- An opening of a companion that is under way. -/
structure PendingOpen where
  primary : String
  companion : String
  token : Nat
  deriving DecidableEq, Repr

/- The pairs and the openings, filed by primary. -/
structure PairRegistry where
  pairs : Table String DocumentPair
  pending : Table String PendingOpen
  nextToken : Nat
  deriving DecidableEq, Repr

namespace PairRegistry

/- A registry without pairs. -/
def new : PairRegistry := ⟨[], [], 1⟩

----
-- Pairs
----

/- The pairs in the order of their primaries. -/
def pairList
    (r : PairRegistry) : List DocumentPair :=
  Table.values r.pairs

/- The pair of a primary. -/
def pairForPrimary
    (r : PairRegistry)
    (primary : String) : Option DocumentPair :=
  Table.get? r.pairs primary

/- The first pair with a companion. -/
def pairForCompanion
    (r : PairRegistry)
    (companion : String) : Option DocumentPair :=
  r.pairList.find? fun p => decide (p.companion = companion)

/- Register a pair in place of the primary's pair before. -/
def register
    (r : PairRegistry)
    (primary companion : String) : PairRegistry :=
  { r with
    pairs :=
      Table.insert r.pairs primary ⟨primary, companion⟩ }

/- Remove the pair of a primary. -/
def remove
    (r : PairRegistry)
    (primary : String) : PairRegistry :=
  { r with pairs := Table.erase r.pairs primary }

/-
  Whether a document is the companion of a pair or of an
  opening under way.
-/
def isCompanion
    (r : PairRegistry)
    (uri : String) : Bool :=
  (r.pairForCompanion uri).isSome ||
    (Table.values r.pending).any
      fun p => decide (p.companion = uri)

----
-- Openings under way
----

/- The openings in the order in which they began. -/
def pendingList
    (r : PairRegistry) : List PendingOpen :=
  Table.values r.pending

/- The opening that is under way for a primary. -/
def pendingFor
    (r : PairRegistry)
    (primary : String) : Option PendingOpen :=
  Table.get? r.pending primary

/- Begin an opening, unless the primary has one. -/
def beginOpen
    (r : PairRegistry)
    (primary companion : String) :
    PairRegistry × Option PendingOpen :=
  if Table.contains r.pending primary then (r, none)
  else
    let p : PendingOpen := ⟨primary, companion, r.nextToken⟩
    ({ r with
        pending := Table.insert r.pending primary p
        nextToken := r.nextToken + 1 },
      some p)

/-
  End an opening; says whether it was still the one under way
  for its primary.
-/
def finishOpen
    (r : PairRegistry)
    (p : PendingOpen) : PairRegistry × Bool :=
  match r.pendingFor p.primary with
  | none => (r, false)
  | some q =>
      if q.token = p.token then
        ({ r with
            pending := Table.erase r.pending p.primary },
          true)
      else (r, false)

/- Give up the opening of a primary. -/
def cancelOpen
    (r : PairRegistry)
    (primary : String) :
    PairRegistry × Option PendingOpen :=
  ({ r with pending := Table.erase r.pending primary },
    r.pendingFor primary)

/- Forget all pairs and openings, but no token. -/
def clear
    (r : PairRegistry) : PairRegistry :=
  { r with pairs := [], pending := [] }

/- The number of pairs. -/
def size
    (r : PairRegistry) : Nat :=
  r.pairs.length

end PairRegistry

end Pairing

end StyleCompanion
