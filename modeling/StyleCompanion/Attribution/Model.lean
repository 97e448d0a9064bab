import StyleCompanion.Attribution.Source
import StyleCompanion.Table

/-
  The attribution model of a merged stylesheet.

  A model is a snapshot: the contributing sources, the rules
  with their declarations, and for each line its owner.  It
  is only built when every owner it mentions is a registered
  source.  The builder indexes the owners and the declarations
  by line.

  Key definitions include:
    * `Declaration`
    * `Rule`
    * `LineRecord`
    * `Model`
    * `Model.build`
    * `Model.ownerForLine`
    * `Model.declarationsOnLine`
    * `Model.ownerIds`
-/

namespace StyleCompanion

namespace Attribution

----
-- Declarations, rules and lines
----

/- One declaration of a rule. -/
structure Declaration where
  ownerId : Option Int
  propertyName : String
  values : List String
  sourceLine : Option Int
  overwritten : Option Bool
  deriving DecidableEq, Repr

namespace Declaration

/- The value that applies: the last one. -/
def value
    (d : Declaration) : String :=
  d.values.getLast?.getD ""

/- Whether a later source is known to overwrite it. -/
def isOverwritten
    (d : Declaration) : Bool :=
  d.overwritten == some true

end Declaration

/- A rule with its declarations. -/
structure Rule where
  ownerId : Option Int
  selector : String
  declarations : List Declaration
  deriving DecidableEq, Repr

/- Keep the first occurrence of each item. -/
def firstSeen
    (xs : List Int) : List Int :=
  xs.foldl
    (fun seen x => if x ∈ seen then seen else seen ++ [x]) []

namespace Rule

/- The owners of the declarations. -/
def declarationOwners
    (r : Rule) : List Int :=
  r.declarations.filterMap (·.ownerId)

/-
  The owner of the rule, or else the only owner among its
  declarations.
-/
def effectiveOwner
    (r : Rule) : Option Int :=
  match r.ownerId with
  | some id => some id
  | none =>
      match firstSeen r.declarationOwners with
      | [id] => some id
      | _ => none

/- Whether the rule has no single owner. -/
def isMixed
    (r : Rule) : Bool :=
  r.ownerId.isNone && r.effectiveOwner.isNone

end Rule

/- The owner of one line. -/
structure LineRecord where
  lineNumber : Int
  ownerId : Option Int
  deriving DecidableEq, Repr

----
-- Models
----

/- A snapshot of a merged stylesheet. -/
structure Model where
  sources : SourceRegistry
  rules : List Rule
  lines : List LineRecord
  ownerIndex : Table Int (Option Int)
  declarationIndex : Table Int (List Declaration)
  deriving DecidableEq, Repr

namespace Model

/- All declarations in rule and declaration order. -/
def allDeclarations
    (rules : List Rule) : List Declaration :=
  rules.flatMap (·.declarations)

/- The owners that rules and lines mention, in order. -/
def referencedOwners
    (rules : List Rule)
    (lines : List LineRecord) : List Int :=
  rules.flatMap
      (fun r => r.ownerId.toList ++ r.declarationOwners) ++
    lines.filterMap (·.ownerId)

/- Owners by line; a later record of a line wins. -/
def indexOwners
    (lines : List LineRecord) :
    Table Int (Option Int) :=
  lines.foldl
    (fun t r => Table.insert t r.lineNumber r.ownerId) []

/- File a declaration under its line, if it has one. -/
def fileDeclaration
    (t : Table Int (List Declaration))
    (d : Declaration) :
    Table Int (List Declaration) :=
  match d.sourceLine with
  | none => t
  | some n =>
      Table.insert t n ((Table.get? t n).getD [] ++ [d])

/- Declarations by line, in rule and declaration order. -/
def indexDeclarations
    (rules : List Rule) :
    Table Int (List Declaration) :=
  (allDeclarations rules).foldl fileDeclaration []

/- Build a model whose owners are all registered. -/
def build
    (sources : SourceRegistry)
    (rules : List Rule)
    (lines : List LineRecord) :
    Except PayloadError Model :=
  match (referencedOwners rules lines).find?
      fun id => !sources.contains id with
  | some id => .error (.unregisteredOwner id)
  | none =>
      .ok
        { sources := sources
          rules := rules
          lines := lines
          ownerIndex := indexOwners lines
          declarationIndex := indexDeclarations rules }

/- The number of line records. -/
def lineCount
    (m : Model) : Nat :=
  m.lines.length

/- The source of an owner. -/
def source?
    (m : Model)
    (owner : Option Int) : Option SourceFile :=
  m.sources.source? owner

/- The distinct line owners in first-seen order. -/
def ownerIds
    (m : Model) : List Int :=
  firstSeen (m.lines.filterMap (·.ownerId))

/- The owner of a line. -/
def ownerForLine
    (m : Model)
    (n : Int) : Option Int :=
  (Table.get? m.ownerIndex n).getD none

/- The declarations of a line. -/
def declarationsOnLine
    (m : Model)
    (n : Int) : List Declaration :=
  (Table.get? m.declarationIndex n).getD []

/- The declarations known to be overwritten. -/
def overwrittenDeclarations
    (m : Model) : List Declaration :=
  (allDeclarations m.rules).filter (·.isOverwritten)

/- Whether the model has a record for each line of a view. -/
def isCurrentFor
    (m : Model)
    (count : Int) : Bool :=
  decide ((m.lineCount : Int) = count)

end Model

end Attribution

end StyleCompanion
