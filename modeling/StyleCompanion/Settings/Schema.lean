import StyleCompanion.Overlay.Palette
import StyleCompanion.Settings.Tree
import StyleCompanion.Text.Letters

/-
  The settings of the application and their rules.

  Each rule watches one path.  It leaves a value that is fine
  and replaces any other by a value derived from it or from
  the defaults.  The rules run in a fixed order; the first
  that fails ends the run and keeps what was changed before.

  Key definitions include:
    * `appDefaults`
    * `isHexColor`
    * `Rule`
    * `rules`
    * `normalize`
-/

namespace StyleCompanion

namespace Settings

----
-- Defaults and limits
----

/- The settings of an application that has none. -/
def appDefaults : Tree :=
  [("server", .obj
      [("program", .str ""),
        ("args", .arr []),
        ("env", .obj [("RUST_LOG", .str "debug")]),
        ("trace", .str "off")]),
    ("overlay", .obj
      [("enabled", .bool true),
        ("palette", .arr (Overlay.defaultPalette.map .str)),
        ("line_alpha", .int 56),
        ("overwritten_style", .str "strikethrough")]),
    ("editor", .obj
      [("font_size", .int 10),
        ("font_family", .str "")]),
    ("log", .obj [("level", .str "INFO")])]

/- The ways to show overwritten lines. -/
def overwrittenStyles : List String :=
  ["strikethrough", "italic"]

/- The levels that the log can be set to. -/
def logLevels : List String :=
  ["DEBUG", "INFO", "WARNING", "ERROR", "CRITICAL"]

/- The smallest font size. -/
def minFontSize : Int := 6

/- The largest font size. -/
def maxFontSize : Int := 72

----
-- Values
----

/- Whether a character is a hexadecimal digit. -/
def isHexDigit
    (c : Char) : Bool :=
  c.isDigit ||
    (decide ('a' ≤ c) && decide (c ≤ 'f')) ||
    (decide ('A' ≤ c) && decide (c ≤ 'F'))

/- Six or eight hexadecimal digits. -/
def isHexBody
    (cs : List Char) : Bool :=
  (decide (cs.length = 6) || decide (cs.length = 8)) &&
    cs.all isHexDigit

/-
  Whether a text is a colour: a hash sign and six or eight
  hexadecimal digits.  One newline may follow.
-/
def isHexColor
    (text : String) : Bool :=
  match text.toList with
  | '#' :: cs =>
      isHexBody cs ||
        (cs.getLast? == some '\n' && isHexBody cs.dropLast)
  | _ => false

/- The nearest number within limits. -/
def clamp
    (low high n : Int) : Int :=
  max low (min high n)

/- The items of a value that can be gone through. -/
def listed
    (x : Json) : Outcome (List Json) :=
  match x with
  | .arr xs => .ok xs
  | .str s => .ok (s.toList.map fun c => .str c.toString)
  | .obj fs => .ok (fs.map fun f => .str f.1)
  | x => .error (.notAList x.kindName)

/- A new value, unless it equals the one that is there. -/
def unlessSame
    (new current : Json) : Option Json :=
  if new.same current then none else some new

----
-- Rules
----

/-
  A rule: from a default and the value at its path, the value
  to put there, if any.
-/
structure Rule where
  key : String
  fix : Json → Json → Outcome (Option Json)

/- The colours of a palette that are colours. -/
def hexColors
    (palette : Json) : List Json :=
  match palette with
  | .arr xs =>
      (xs.map Json.text).filterMap fun s =>
        if isHexColor s then some (.str s) else none
  | _ => []

/- A palette has colours only, and at least one. -/
def paletteRule : Rule where
  key := "overlay.palette"
  fix default x := do
    let colors := hexColors x
    let clean ←
      if colors.isEmpty then listed default else .ok colors
    return unlessSame (.arr clean) x

/- The whole number of a value, if it is one. -/
def integerOr
    (x : Json)
    (otherwise : Outcome Int)
    (f : Int → Int) : Outcome Int :=
  match x.toInteger with
  | .ok n => .ok (f n)
  | .error .infinite => .error (.integer .infinite)
  | .error _ => otherwise

/- The opacity of painted lines is a byte. -/
def lineAlphaRule : Rule where
  key := "overlay.line_alpha"
  fix default x := do
    let n ← integerOr x default.integer (clamp 0 255)
    return unlessSame (.int n) x

/- The overlay is on or off. -/
def enabledRule : Rule where
  key := "overlay.enabled"
  fix default x :=
    match x with
    | .bool _ => .ok none
    | _ => .ok (some (.bool default.isTruthy))

/- A font size is a number within limits, not a truth. -/
def fontSizeRule : Rule where
  key := "editor.font_size"
  fix default x := do
    let usual ← default.integer
    let n ←
      match x with
      | .bool _ => .ok usual
      | _ =>
          integerOr x (.ok usual)
            (clamp minFontSize maxFontSize)
    return unlessSame (.int n) x

/- A font family is a text without blanks around it. -/
def fontFamilyRule : Rule where
  key := "editor.font_family"
  fix _ x :=
    match x with
    | .str s => .ok (unlessSame (.str (Text.trim s)) x)
    | _ => .ok (some (.str ""))

/- A text among a few, else the default. -/
def chosen
    (allowed : List String)
    (text : String)
    (default : Json) : Json :=
  if text ∈ allowed then .str text else .str default.text

/- The style of overwritten lines. -/
def overwrittenStyleRule : Rule where
  key := "overlay.overwritten_style"
  fix default x :=
    let text := Text.lower (Text.trim x.textOrEmpty)
    .ok (unlessSame (chosen overwrittenStyles text default) x)

/- The level of the log. -/
def logLevelRule : Rule where
  key := "log.level"
  fix default x :=
    let text := Text.upper (Text.trim x.textOrEmpty)
    .ok (unlessSame (chosen logLevels text default) x)

/- The arguments of the backend are a list. -/
def serverArgsRule : Rule where
  key := "server.args"
  fix _ x :=
    match x with
    | .arr _ => .ok none
    | _ => .ok (some (.arr []))

/- The environment of the backend is an object. -/
def serverEnvRule : Rule where
  key := "server.env"
  fix _ x :=
    match x with
    | .obj _ => .ok none
    | _ => .ok (some (.obj []))

/- All rules in their order. -/
def rules : List Rule :=
  [paletteRule, lineAlphaRule, enabledRule, fontSizeRule,
    fontFamilyRule, overwrittenStyleRule, logLevelRule,
    serverArgsRule, serverEnvRule]

----
-- Normalization
----

/- The value that settings have under a key, or null. -/
def valueAt
    (t : Tree)
    (key : String) : Json :=
  Tree.get (.obj t) key .null

/- What a rule wants to put at its path. -/
def Rule.wanted
    (r : Rule)
    (defaults data : Tree) : Outcome (Option Json) :=
  r.fix (valueAt defaults r.key) (valueAt data r.key)

/- Put a value at the path of a rule. -/
def Rule.put
    (r : Rule)
    (data : Tree)
    (value : Json) : Tree :=
  Tree.assign data (Tree.keyPath r.key) value

/-
  Run rules in order.  Gives the settings, and whether a rule
  changed them or the failure that ended the run.
-/
def runRules
    (rs : List Rule)
    (defaults data : Tree) : Tree × Outcome Bool :=
  match rs with
  | [] => (data, .ok false)
  | r :: rest =>
      match r.wanted defaults data with
      | .error e => (data, .error e)
      | .ok none => runRules rest defaults data
      | .ok (some v) =>
          let q := runRules rest defaults (r.put data v)
          (q.1, q.2.map fun _ => true)

/- Bring settings into the form of the schema. -/
def normalize
    (defaults data : Tree) : Tree × Outcome Bool :=
  runRules rules defaults data

end Settings

end StyleCompanion
