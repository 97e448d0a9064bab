import StyleCompanion.Attribution.Model
import StyleCompanion.Text.Blank

/-
  Decoding of attribution payloads.

  A payload is an object with lists of sources, rules and
  lines.  Most fields have several accepted names; the first
  one that is present counts, even when its value is null.
  Sources are decoded and registered first, then the rules,
  then the lines, so the earliest fault in that order is the
  one reported.

  Key definitions include:
    * `decodeSource`
    * `decodeDeclaration`
    * `decodeRule`
    * `decodeLine`
    * `Model.ofPayload`
    * `ShowRequest.ofParams`
-/

namespace StyleCompanion

namespace Attribution

----
-- Accepted names
----

/- The names of the list of sources. -/
def sourcesNames : List String :=
  ["sources", "imported_sheets"]

/- The names of the list of rules. -/
def rulesNames : List String :=
  ["rules", "styles"]

/- The name of the list of lines. -/
def linesNames : List String :=
  ["lines"]

/- The names of an owner field. -/
def ownerNames : List String :=
  ["ownerId", "owner_id", "source"]

/- The names of a source's display name. -/
def displayNameNames : List String :=
  ["displayName", "display_name", "file_name"]

/- The names of a source's path. -/
def pathNames : List String :=
  ["absolutePath", "absolute_path"]

/- The names of a rule's selector. -/
def selectorNames : List String :=
  ["selector", "tag"]

/- The names of a rule's declarations. -/
def declarationsNames : List String :=
  ["declarations", "attributes"]

/- The names of a declaration's property. -/
def propertyNames : List String :=
  ["propertyName", "property_name", "name"]

/- The names of a declaration's line. -/
def sourceLineNames : List String :=
  ["sourceLine", "source_line", "line"]

/- The names of a declaration's overwritten flag. -/
def overwrittenNames : List String :=
  ["overwritten", "isOverwritten", "is_overwritten"]

/- The names of a line's number. -/
def lineNumberNames : List String :=
  ["lineNumber", "line_number", "line"]

----
-- Fields
----

/- Decoding either gives a value or says why not. -/
abbrev Decoded (α : Type) :=
  Except DecodeError α

/- Refuse a payload. -/
def refuse
    {α : Type}
    (cause : PayloadError) : Decoded α :=
  .error (.refused cause)

/- A list under the first present name; null is no list. -/
def listField
    (fs : Table String Json)
    (names : List String) : Decoded (List Json) :=
  match Json.pick fs names with
  | .null => .ok []
  | .arr xs => .ok xs
  | x => refuse (.notAList (names.headD "") x.kindName)

/- The fields of an entry, which has to be an object. -/
def entryFields
    (entry : EntryKind)
    (x : Json) : Decoded (Table String Json) :=
  match x with
  | .obj fs => .ok fs
  | _ => refuse (.entryNotAnObject entry x.kindName)

/- A whole number, or nothing for null. -/
def optionalInt
    (field : Field)
    (x : Json) : Decoded (Option Int) :=
  match x with
  | .null => .ok none
  | .bool _ => refuse (.truthValueAsInteger field)
  | _ =>
      match x.toInteger with
      | .ok n => .ok (some n)
      | .error .infinite => .error .infinite
      | .error _ => refuse (.notAnInteger field x)

/- A truth value, or nothing for null. -/
def optionalBool
    (field : Field)
    (x : Json) : Decoded (Option Bool) :=
  match x with
  | .null => .ok none
  | .bool b => .ok (some b)
  | _ => refuse (.notATruthValue field x)

/- The trimmed text of a field. -/
def trimmedField
    (fs : Table String Json)
    (names : List String) : String :=
  Text.trim (Json.pick fs names).textOrEmpty

/- The owner of an entry. -/
def ownerField
    (field : Field)
    (fs : Table String Json) : Decoded (Option Int) :=
  optionalInt field (Json.pick fs ownerNames)

----
-- Sources
----

/- The part of a path after its last separator. -/
def lastSegment
    (path : String) : String :=
  String.ofList
    ((path.toList.reverse.takeWhile
      fun c => c != '/' && c != '\\').reverse)

/-
  The display name of a source: the given name, or else the
  last segment of the path, or else a name made of the id.
-/
def sourceName
    (id : Int)
    (given path : String) : String :=
  let name :=
    if given.isEmpty && !path.isEmpty then lastSegment path
    else given
  if name.isEmpty then "source " ++ toString id else name

/- Decode one source. -/
def decodeSource
    (x : Json) : Decoded SourceFile := do
  let fs ← entryFields .source x
  let id ← optionalInt .sourceId (Json.pick fs ["id"])
  match id with
  | none => refuse .sourceWithoutId
  | some n =>
      let path := (Json.pick fs pathNames).textOrEmpty
      let given := trimmedField fs displayNameNames
      return ⟨n, sourceName n given path, path⟩

/- Decode and register sources one after the other. -/
def decodeSources
    (r : SourceRegistry)
    (xs : List Json) : Decoded SourceRegistry :=
  match xs with
  | [] => .ok r
  | x :: rest =>
      match decodeSource x with
      | .error e => .error e
      | .ok s =>
          match r.add s with
          | .error e => refuse e
          | .ok r₁ => decodeSources r₁ rest

----
-- Rules and declarations
----

/-
  The values of a declaration: a list of values, or else a
  single value.
-/
def decodeValues
    (name : String)
    (fs : Table String Json) : Decoded (List String) :=
  match Json.pick fs ["values"] with
  | .null =>
      match Json.pick fs ["value"] with
      | .null => .ok []
      | x => .ok [x.text]
  | .arr xs => .ok (xs.map Json.text)
  | _ => refuse (.valuesNotAList name)

/- Decode one declaration. -/
def decodeDeclaration
    (x : Json) : Decoded Declaration := do
  let fs ← entryFields .declaration x
  let name := trimmedField fs propertyNames
  if name.isEmpty then
    refuse .declarationWithoutName
  else
    let values ← decodeValues name fs
    let owner ← ownerField (.declarationOwner name) fs
    let line ← optionalInt (.declarationLine name)
      (Json.pick fs sourceLineNames)
    let overwritten ←
      optionalBool (.declarationOverwritten name)
        (Json.pick fs overwrittenNames)
    return ⟨owner, name, values, line, overwritten⟩

/- Decode declarations in order. -/
def decodeDeclarations
    (xs : List Json) : Decoded (List Declaration) :=
  match xs with
  | [] => .ok []
  | x :: rest =>
      match decodeDeclaration x with
      | .error e => .error e
      | .ok d =>
          match decodeDeclarations rest with
          | .error e => .error e
          | .ok ds => .ok (d :: ds)

/- The declarations of a rule; nothing counts as none. -/
def declarationItems
    (selector : String)
    (fs : Table String Json) : Decoded (List Json) :=
  let x := Json.pick fs declarationsNames
  if x.isTruthy then
    match x with
    | .arr xs => .ok xs
    | _ => refuse (.declarationsNotAList selector)
  else .ok []

/- Decode one rule. -/
def decodeRule
    (x : Json) : Decoded Rule := do
  let fs ← entryFields .rule x
  let selector := trimmedField fs selectorNames
  let items ← declarationItems selector fs
  let owner ← ownerField (.ruleOwner selector) fs
  let declarations ← decodeDeclarations items
  return ⟨owner, selector, declarations⟩

/- Decode rules in order. -/
def decodeRules
    (xs : List Json) : Decoded (List Rule) :=
  match xs with
  | [] => .ok []
  | x :: rest =>
      match decodeRule x with
      | .error e => .error e
      | .ok r =>
          match decodeRules rest with
          | .error e => .error e
          | .ok rs => .ok (r :: rs)

----
-- Lines
----

/- Decode one line; its place is its number by default. -/
def decodeLine
    (index : Nat)
    (x : Json) : Decoded LineRecord := do
  let fs ← entryFields .line x
  let number ← optionalInt .lineNumber
    (Json.pick fs lineNumberNames)
  let owner ← ownerField (.lineOwner index) fs
  return ⟨number.getD (index : Int), owner⟩

/- Decode lines in order, counting from a place. -/
def decodeLines
    (index : Nat)
    (xs : List Json) : Decoded (List LineRecord) :=
  match xs with
  | [] => .ok []
  | x :: rest =>
      match decodeLine index x with
      | .error e => .error e
      | .ok l =>
          match decodeLines (index + 1) rest with
          | .error e => .error e
          | .ok ls => .ok (l :: ls)

----
-- Payloads
----

/- Whether a rule, a declaration or a line has an owner. -/
def referencesOwner
    (owner : Int)
    (rules : List Rule)
    (lines : List LineRecord) : Bool :=
  lines.any (fun l => l.ownerId == some owner) ||
    rules.any fun r =>
      r.ownerId == some owner ||
        r.declarations.any fun d => d.ownerId == some owner

/-
  Register the style blocks of the markup when they own
  something and no source took their id.
-/
def withInlineSource
    (r : SourceRegistry)
    (rules : List Rule)
    (lines : List LineRecord) :
    Except PayloadError SourceRegistry :=
  if !r.contains inlineSourceId &&
      referencesOwner inlineSourceId rules lines then
    r.add inlineSource
  else .ok r

/- Turn a refusal into a failed decoding. -/
def orRefuse
    {α : Type}
    (r : Except PayloadError α) : Decoded α :=
  match r with
  | .ok a => .ok a
  | .error e => refuse e

/- Decode the fields of a payload. -/
def ofPayloadFields
    (fs : Table String Json) : Decoded Model := do
  let sourceItems ← listField fs sourcesNames
  let sources ← decodeSources .empty sourceItems
  let ruleItems ← listField fs rulesNames
  let rules ← decodeRules ruleItems
  let lineItems ← listField fs linesNames
  let lines ← decodeLines 0 lineItems
  let all ← orRefuse (withInlineSource sources rules lines)
  orRefuse (Model.build all rules lines)

/- Decode a payload. -/
def Model.ofPayload
    (payload : Json) : Decoded Model :=
  match payload with
  | .obj fs => ofPayloadFields fs
  | _ => refuse (.notAnObject payload.kindName)

----
-- Requests
----

/- A request to show a companion with its model. -/
structure ShowRequest where
  companionUri : String
  model : Model

namespace ShowRequest

/- The uri of a companion, under one of two names. -/
def uriOf
    (fs : Table String Json) : String :=
  Text.trim
    ((Json.pick fs ["companionUri"]).orElse
      (Json.pick fs ["uri"])).textOrEmpty

/- Decode the parameters of a request. -/
def ofParams
    (params : Json) : Decoded ShowRequest :=
  match params with
  | .obj fs =>
      let uri := uriOf fs
      if uri.isEmpty then refuse .missingUri
      else
        match Json.pick fs ["file"] with
        | .null => refuse (.missingFile uri)
        | file =>
            match Model.ofPayload file with
            | .ok m => .ok ⟨uri, m⟩
            | .error e => .error e
  | _ => refuse .paramsNotAnObject

end ShowRequest

end Attribution

end StyleCompanion
