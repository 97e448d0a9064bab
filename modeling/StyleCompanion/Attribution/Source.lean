import StyleCompanion.Attribution.Error

/-
  The source files that contribute to a merged stylesheet.

  A registry holds at most one source per id.  It is kept in
  increasing order of ids, so registries with the same sources
  are equal however they were filled.

  Key definitions include:
    * `SourceFile`
    * `SourceRegistry`
    * `SourceRegistry.add`
    * `SourceRegistry.offer`
    * `SourceRegistry.ofList`
    * `SourceRegistry.get?`
    * `inlineSource`
-/

namespace StyleCompanion

namespace Attribution

/- One contributing file. -/
structure SourceFile where
  id : Int
  displayName : String
  absolutePath : String
  deriving DecidableEq, Repr

/- The id of declarations from style blocks in the markup. -/
def inlineSourceId : Int := 0

/- The source that stands for all style blocks. -/
def inlineSource : SourceFile :=
  ⟨inlineSourceId, "inline <style>", ""⟩

/- Sources in increasing order of ids. -/
structure SourceRegistry where
  sources : List SourceFile
  deriving DecidableEq, Repr

namespace SourceRegistry

/- The registry without sources. -/
def empty : SourceRegistry := ⟨[]⟩

/- Put a source at its place in an increasing list. -/
def insertSorted
    (s : SourceFile)
    (xs : List SourceFile) :
    Except PayloadError (List SourceFile) :=
  match xs with
  | [] => .ok [s]
  | x :: rest =>
      if s.id < x.id then .ok (s :: x :: rest)
      else if s.id = x.id then
        if x = s then .ok (x :: rest)
        else
          .error
            (.duplicateSource s.id x.displayName s.displayName)
      else
        match insertSorted s rest with
        | .ok ys => .ok (x :: ys)
        | .error e => .error e

/-
  Add a source.  The same source may be added again; another
  source under a taken id is refused.
-/
def add
    (r : SourceRegistry)
    (s : SourceFile) :
    Except PayloadError SourceRegistry :=
  match insertSorted s r.sources with
  | .ok xs => .ok ⟨xs⟩
  | .error e => .error e

/-
  Offer a source to a registry that stays in use: the registry
  afterwards, and why the source was refused, if it was.
-/
def offer
    (r : SourceRegistry)
    (s : SourceFile) :
    SourceRegistry × Option PayloadError :=
  match add r s with
  | .ok r₁ => (r₁, none)
  | .error e => (r, some e)

/- Add sources one after the other. -/
def addAll
    (r : SourceRegistry)
    (ss : List SourceFile) :
    Except PayloadError SourceRegistry :=
  match ss with
  | [] => .ok r
  | s :: rest =>
      match add r s with
      | .ok r₁ => addAll r₁ rest
      | .error e => .error e

/- The registry of some sources. -/
def ofList
    (ss : List SourceFile) :
    Except PayloadError SourceRegistry :=
  addAll empty ss

/- The source with an id. -/
def get?
    (r : SourceRegistry)
    (id : Int) : Option SourceFile :=
  r.sources.find? fun s => decide (s.id = id)

/- The source of an owner, if there is an owner. -/
def source?
    (r : SourceRegistry)
    (owner : Option Int) : Option SourceFile :=
  match owner with
  | some id => r.get? id
  | none => none

/- Whether an id is taken. -/
def contains
    (r : SourceRegistry)
    (id : Int) : Bool :=
  (r.get? id).isSome

/- The number of sources. -/
def size
    (r : SourceRegistry) : Nat :=
  r.sources.length

/- The ids in increasing order. -/
def ids
    (r : SourceRegistry) : List Int :=
  r.sources.map (·.id)

end SourceRegistry

end Attribution

end StyleCompanion
