import DocDrift.Command.Basic
import DocDrift.Proofs.Config.Layers

namespace DocDrift.Command

/-! # The configuration of a run

The defaults, the entries of a configuration file and the command line are laid one over the other.
Each field has its value from the topmost layer that gives it one.
-/

open Config (Field Value)

namespace Change

def field : Change → Field
  | flag name _ => .flag name
  | style _ => .style
  | strategy _ => .strategy

def value : Change → Value
  | flag _ value => .bool value
  | style choice => .string choice.label.toList
  | strategy choice => .string choice.label.toList

/-- The change as a value under the key of its field. -/
def entry (change : Change) : Text × Value := (change.field.key.toList, change.value)

theorem key_entry (change : Change) (field : Field) :
    Config.normalizeKey change.entry.1 = field.key.toList ↔ change.field = field := by
  rw [entry, Config.normalizeKey_key, Config.Field.key_inj]

theorem apply_value (config : Config) (change : Change) (field : Field) :
    (change.apply config).value .bool field =
      if change.field = field then change.value else config.value .bool field := by
  match change with
  | flag name given =>
      match field with
      | .flag own =>
          simp only [apply, Config.Settings.value, Config.Settings.get_set, Change.field, Change.value,
            Field.flag.injEq, eq_comm]
          split <;> rfl
      | .style | .strategy => cases name <;> rfl
  | style _ =>
      match field with
      | .flag _ | .style | .strategy => rfl
  | strategy _ =>
      match field with
      | .flag _ | .style | .strategy => rfl

end Change

theorem foldl_apply (config : Config) (changes : List Change) (field : Field) :
    (changes.foldl Change.apply config).value .bool field =
      (Config.given (changes.map Change.entry) field).getD (config.value .bool field) := by
  induction changes generalizing config with
  | nil => rfl
  | cons change rest ih =>
      rw [List.foldl_cons, ih, Change.apply_value, List.map_cons, Config.given_cons_getD]
      simp only [Change.key_entry]
      rfl

/-- The value that the command line forces on a field, if it does. -/
def Arguments.forced (arguments : Arguments) : Field → Option Value
  | .flag .breakOnEmptyLine => if arguments.breakOnEmptyLine then some (.bool true) else none
  | .flag .succeedIfNoDocstring => if arguments.forbidNoDocstring then some (.bool false) else none
  | .flag .succeedIfNoArgsSection => if arguments.forbidNoArgsSection then some (.bool false) else none
  | .flag .succeedIfDocstringUntyped => if arguments.forbidUntyped then some (.bool false) else none
  | .flag .skipVariadicParams => if arguments.allowVariadics then some (.bool false) else none
  | .style => arguments.style.map fun style => .string style.label.toList
  | .strategy => arguments.strategy.map fun strategy => .string strategy.label.toList

theorem given_single (change : Change) (field : Field) :
    Config.given [change.entry] field = if change.field = field then some change.value else none := by
  rw [Config.given_cons]
  simp only [change.key_entry]
  rfl

theorem given_if (asked : Bool) (change : Change) (field : Field) :
    Config.given ((if asked then [change] else []).map Change.entry) field =
      if change.field = field then if asked then some change.value else none else none := by
  cases asked with
  | true => exact given_single change field
  | false => exact (ite_self none).symm

theorem given_map {α : Type} (choice : Option α) (change : α → Change) (own field : Field)
    (fields : ∀ a, (change a).field = own) :
    Config.given ((choice.map change).toList.map Change.entry) field =
      if own = field then choice.map fun a => (change a).value else none := by
  cases choice with
  | none => exact (ite_self none).symm
  | some a =>
      rw [← fields a]
      exact given_single (change a) field

theorem given_changes (arguments : Arguments) (field : Field) :
    Config.given (arguments.changes.map Change.entry) field = arguments.forced field := by
  simp only [Arguments.changes, List.map_append, Config.given_append, given_if,
    given_map arguments.strategy .strategy .strategy field fun _ => rfl,
    given_map arguments.style .style .style field fun _ => rfl]
  -- One change at most is made to each field, so the order of the changes does not matter.
  match field with
  | .flag flag => cases flag <;> simp [Arguments.forced, Change.field, Change.value]
  | .style | .strategy => simp [Arguments.forced, Change.field, Change.value]

/-- The changes of a command line are those that their keys and values make. -/
theorem withChanges_changes (arguments : Arguments) (base : Config) :
    Config.withChanges (base.map .bool) (arguments.changes.map Change.entry) =
      .ok ((arguments.changes.foldl Change.apply base).map .bool) := by
  have known : ∀ change ∈ arguments.changes.map Change.entry, ∃ field : Field, change.1 = field.key.toList := by
    rw [List.forall_mem_map]
    exact fun change _ => ⟨change.field, rfl⟩
  have style : ∀ value ∈ Config.given (arguments.changes.map Change.entry) .style,
      Config.IsLabel Docstring.Style.label value := by
    rw [given_changes]
    exact Config.isLabel_map arguments.style
  have strategy : ∀ value ∈ Config.given (arguments.changes.map Change.entry) .strategy,
      Config.IsLabel Strategy.label value := by
    rw [given_changes]
    exact Config.isLabel_map arguments.strategy
  obtain ⟨after, changed, values⟩ := @Config.withChanges_known _ (base.map .bool) known style strategy
  have same : after = (arguments.changes.foldl Change.apply base).map .bool := by
    refine Config.Settings.ext_value Function.injective_id fun field => ?_
    rw [values, Config.Settings.map_value, Config.Settings.map_value, foldl_apply]
  rw [changed, same]

variable {tree : FileTree} {arguments : Arguments} {source : Option Path} {config base : Config}

/-- The entries that a run has for its configuration, and the file that they come from: the table of
settings in the file that is named or in the usual one, and none if there is no such file. -/
inductive Supplies (tree : FileTree) (arguments : Arguments) : Option Path → List (Text × Value) → Prop where
  | nothing (unnamed : arguments.config = none) (absent : tree.isFile usualConfigPath = false) :
      Supplies tree arguments none []
  | file {path : Path} {bytes : List UInt8} {text : Text} {document entries : List (Text × Value)}
      (chosen : path = arguments.config.getD usualConfigPath) (present : tree.isFile path = true)
      (read : tree.bytes path = .ok bytes) (decoded : Utf8.decode bytes = .ok text)
      (parsed : Toml.parse text = some document) (table : Config.settingsTable path document = .ok entries) :
      Supplies tree arguments (some path) entries

theorem configPath_eq_ok_iff :
    configPath tree arguments = .ok source ↔
      (source = none ∧ arguments.config = none ∧ tree.isFile usualConfigPath = false) ∨
      (source = some (arguments.config.getD usualConfigPath) ∧
        tree.isFile (arguments.config.getD usualConfigPath) = true) := by
  unfold configPath
  cases arguments.config with
  | some path => cases present : tree.isFile path <;> simp [present, eq_comm (a := source)]
  | none => cases present : tree.isFile usualConfigPath <;> simp [present, eq_comm (a := source)]

theorem mapError_eq_ok_iff {ε ε' α : Type} {made : Except ε α} {wrap : ε → ε'} {a : α} :
    made.mapError wrap = .ok a ↔ made = .ok a := by
  constructor
  · intro same
    cases made with
    | error error => contradiction
    | ok other =>
        cases same
        rfl
  · rintro rfl
    rfl

theorem ofDocument_eq_ok_iff {path : Path} {text : Text} :
    Config.ofDocument path text = .ok base ↔ ∃ document entries, Toml.parse text = some document ∧
      Config.settingsTable path document = .ok entries ∧ Config.ofMapping entries = .ok base := by
  unfold Config.ofDocument
  cases Toml.parse text with
  | none => simp
  | some document =>
      cases table : Config.settingsTable path document with
      | error error => simp [table]
      | ok entries => simp [table, mapError_eq_ok_iff]

theorem ofFile_eq_ok_iff {path : Path} :
    Config.ofFile tree path = .ok base ↔ ∃ bytes text document entries, tree.bytes path = .ok bytes ∧
      Utf8.decode bytes = .ok text ∧ Toml.parse text = some document ∧
      Config.settingsTable path document = .ok entries ∧ Config.ofMapping entries = .ok base := by
  unfold Config.ofFile
  cases tree.bytes path with
  | error error => simp [bind, Except.bind]
  | ok bytes =>
      cases decoded : Utf8.decode bytes with
      | error error => simp [bind, Except.bind, decoded]
      | ok text => simp [bind, Except.bind, decoded, ofDocument_eq_ok_iff]

/-- A run has a configuration exactly if its entries make one, and then the changes of the command line
are made to that one. -/
theorem loadConfig_eq_ok_iff :
    loadConfig tree arguments = .ok (config, source) ↔ ∃ entries base, Supplies tree arguments source entries ∧
      Config.ofMapping entries = .ok base ∧ config = arguments.changes.foldl Change.apply base := by
  unfold loadConfig
  constructor
  · intro loaded
    cases place : configPath tree arguments with
    | error error =>
        rw [place] at loaded
        contradiction
    | ok origin =>
        rw [place] at loaded
        rcases configPath_eq_ok_iff.mp place with ⟨rfl, unnamed, absent⟩ | ⟨rfl, present⟩
        · cases loaded
          exact ⟨[], .default, .nothing unnamed absent, rfl, rfl⟩
        · simp only [bind, Except.bind] at loaded
          cases filed : Config.ofFile tree (arguments.config.getD usualConfigPath) with
          | error error =>
              rw [filed] at loaded
              contradiction
          | ok base =>
              rw [filed] at loaded
              cases loaded
              obtain ⟨bytes, text, document, entries, read, decoded, parsed, table, made⟩ := ofFile_eq_ok_iff.mp filed
              exact ⟨entries, base, .file rfl present read decoded parsed table, made, rfl⟩
  · rintro ⟨entries, base, supplies, made, rfl⟩
    cases supplies with
    | nothing unnamed absent =>
        rw [configPath_eq_ok_iff.mpr (.inl ⟨rfl, unnamed, absent⟩)]
        cases made
        rfl
    | @file path bytes text document entries chosen present read decoded parsed table =>
        have place : configPath tree arguments = .ok (some path) :=
          configPath_eq_ok_iff.mpr (.inr ⟨congrArg some chosen, chosen ▸ present⟩)
        have filed := ofFile_eq_ok_iff.mpr ⟨bytes, text, document, entries, read, decoded, parsed, table, made⟩
        simp only [place, filed, bind, Except.bind]

/-- Entries make a configuration exactly if each of them fits and the last ones for the style and the
strategy are labels; then each field has the last value given to it, or its default.  Otherwise the first
entry that does not fit is the reason, or, if there is none, the style or the strategy.  The command line
forces its own values on the fields that it names, and on no other field. -/
theorem loadConfig_layers (entries : List (Text × Value)) (tree : FileTree) (arguments : Arguments) :
    ((∃ config, Config.ofMapping entries = .ok config) ↔ Config.Admits entries) ∧
      (∀ config, Config.ofMapping entries = .ok config → ∀ field,
        config.value .bool field = (Config.given entries field).getD (Config.default.value .bool field)) ∧
      (∀ error, Config.ofMapping entries = .error error ↔ Config.Refuses entries error) ∧
      (∀ config source, loadConfig tree arguments = .ok (config, source) ↔
        ∃ supplied base, Supplies tree arguments source supplied ∧ Config.ofMapping supplied = .ok base ∧
          ∀ field, config.value .bool field = (arguments.forced field).getD (base.value .bool field)) ∧
      ∀ base : Config, Config.withChanges (base.map .bool) (arguments.changes.map Change.entry) =
        .ok ((arguments.changes.foldl Change.apply base).map .bool) := by
  refine ⟨⟨?_, ?_⟩, ?_, fun error => Config.ofMapping_eq_error_iff, ?_, withChanges_changes arguments⟩
  · rintro ⟨config, made⟩
    exact (Config.ofMapping_eq_ok_iff.mp made).1
  · intro admits
    obtain ⟨config, made, _⟩ := admits.ofMapping
    exact ⟨config, made⟩
  · intro config made
    exact (Config.ofMapping_eq_ok_iff.mp made).2
  · intro config source
    rw [loadConfig_eq_ok_iff]
    have layered (base : Config) : config = arguments.changes.foldl Change.apply base ↔
        ∀ field, config.value .bool field = (arguments.forced field).getD (base.value .bool field) := by
      simp only [← given_changes, ← foldl_apply]
      constructor
      · intro same field
        rw [same]
      · exact Config.Settings.ext_value fun _ _ => Value.bool.inj
    simp only [layered]

/-- A file that gives a flag under two spellings, below a command line that forces two other fields. -/
theorem loadConfig_layers_spellings :
    let file := "[tool.staledocs]\nskip-variadic-params = true\nskip_variadic_params = false\nstrategy = 'lexer'\n".toUTF8.toList
    let tree : FileTree := ⟨.folder [("pyproject.toml".toList, .file file)], []⟩
    let arguments : Arguments := { style := some (.fixed .numpy), forbidUntyped := true }
    let entries : List (Text × Value) := [("skip-variadic-params".toList, .bool true),
      ("skip_variadic_params".toList, .bool false), ("strategy".toList, .string "lexer".toList)]
    let base : Config := { Config.default with skipVariadicParams := false, strategy := .lexer }
    let config : Config := { base with style := .fixed .numpy, succeedIfDocstringUntyped := false }
    (Config.ofMapping entries = .ok base ∧ Config.Admits entries ∧
      base.value .bool (.flag .skipVariadicParams) = .bool false) ∧
      loadConfig tree arguments = .ok (config, some usualConfigPath) ∧
      ∃ supplied below, Supplies tree arguments (some usualConfigPath) supplied ∧
        Config.ofMapping supplied = .ok below ∧
        ∀ field, config.value .bool field = (arguments.forced field).getD (below.value .bool field) := by
  intro file tree arguments entries base config
  have made : Config.ofMapping entries = .ok base := rfl
  have result : (loadConfig tree arguments).toOption = some (config, some usualConfigPath) := by decide +kernel
  have loaded : loadConfig tree arguments = .ok (config, some usualConfigPath) := by
    cases loads : loadConfig tree arguments with
    | error error => simp [loads, Except.toOption] at result
    | ok pair => simpa [loads, Except.toOption] using result
  obtain ⟨admits, values, _, layers, _⟩ := loadConfig_layers entries tree arguments
  exact ⟨⟨made, admits.mp ⟨base, made⟩, values base made _⟩, loaded, (layers _ _).mp loaded⟩

end DocDrift.Command
