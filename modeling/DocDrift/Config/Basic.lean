import DocDrift.Config.Value
import DocDrift.Docstring.Style
import DocDrift.Files.Path

/-!
The configuration of a run: five flags, the docstring style and the extraction strategy.
-/

namespace DocDrift

/-- How signatures are extracted: from a syntax tree, or by a forward scan. -/
inductive Strategy where
  | tree
  | lexer
  deriving DecidableEq, Repr

namespace Strategy

def all : List Strategy := [tree, lexer]

def label : Strategy → String
  | tree => "tree"
  | lexer => "lexer"

def ofLabel? (label : String) : Option Strategy := all.find? (·.label == label)

end Strategy

namespace Config

inductive Flag where
  /-- The section of a docstring ends at its first blank line. -/
  | breakOnEmptyLine
  /-- A function without a docstring is compliant. -/
  | succeedIfNoDocstring
  /-- A docstring without a parameter section is compliant. -/
  | succeedIfNoArgsSection
  /-- A type that only one side gives is compliant. -/
  | succeedIfDocstringUntyped
  /-- Variadic parameters are left out on both sides. -/
  | skipVariadicParams
  deriving DecidableEq, Repr

inductive Field where
  | flag (flag : Flag)
  | style
  | strategy
  deriving DecidableEq, Repr

namespace Field

def all : List Field :=
  [.flag .breakOnEmptyLine, .flag .succeedIfNoDocstring, .flag .succeedIfNoArgsSection,
   .flag .succeedIfDocstringUntyped, .flag .skipVariadicParams, .style, .strategy]

def key : Field → String
  | flag .breakOnEmptyLine => "break_on_empty_line"
  | flag .succeedIfNoDocstring => "succeed_if_no_docstring"
  | flag .succeedIfNoArgsSection => "succeed_if_no_args_section"
  | flag .succeedIfDocstringUntyped => "succeed_if_docstring_untyped"
  | flag .skipVariadicParams => "skip_variadic_params"
  | style => "docstring_style"
  | strategy => "strategy"

def ofKey? (key : Text) : Option Field := all.find? fun field => field.key.toList == key

end Field

/-- A value for every field, where flags have values of type `φ`. -/
structure Settings (φ : Type) where
  breakOnEmptyLine : φ
  succeedIfNoDocstring : φ
  succeedIfNoArgsSection : φ
  succeedIfDocstringUntyped : φ
  skipVariadicParams : φ
  style : Docstring.Style
  strategy : Strategy
  deriving DecidableEq, Repr

namespace Settings

variable {φ ψ : Type}

def get (settings : Settings φ) : Flag → φ
  | .breakOnEmptyLine => settings.breakOnEmptyLine
  | .succeedIfNoDocstring => settings.succeedIfNoDocstring
  | .succeedIfNoArgsSection => settings.succeedIfNoArgsSection
  | .succeedIfDocstringUntyped => settings.succeedIfDocstringUntyped
  | .skipVariadicParams => settings.skipVariadicParams

def set (settings : Settings φ) (value : φ) : Flag → Settings φ
  | .breakOnEmptyLine => { settings with breakOnEmptyLine := value }
  | .succeedIfNoDocstring => { settings with succeedIfNoDocstring := value }
  | .succeedIfNoArgsSection => { settings with succeedIfNoArgsSection := value }
  | .succeedIfDocstringUntyped => { settings with succeedIfDocstringUntyped := value }
  | .skipVariadicParams => { settings with skipVariadicParams := value }

def map (f : φ → ψ) (settings : Settings φ) : Settings ψ :=
  ⟨f settings.breakOnEmptyLine, f settings.succeedIfNoDocstring, f settings.succeedIfNoArgsSection,
   f settings.succeedIfDocstringUntyped, f settings.skipVariadicParams, settings.style,
   settings.strategy⟩

end Settings

inductive ConfigError where
  | unknownKey (key : Text)
  | unknownKeys (keys : List Text)
  | flagNotBoolean (key : Text)
  | unknownStyle (value : Value)
  | unknownStrategy (value : Value)
  | invalidDocument (path : Path)
  | sectionNotATable (path : Path)
  | fileMissing (path : Path)
  | tooFewWorkers
  deriving Repr

namespace ConfigError

/-- The name of the configuration table below `tool`. -/
def tableName : Text := "staledocs".toList

def message : ConfigError → String
  | unknownKey key => "Unknown configuration key: " ++ Text.quoted key
  | unknownKeys keys =>
    "Unknown configuration keys: " ++ ", ".intercalate (keys.map String.ofList)
  | flagNotBoolean key => "Configuration key " ++ Text.quoted key ++ " must be a boolean"
  | unknownStyle value => value.render ++ " is not a valid DocstringStyle"
  | unknownStrategy value => value.render ++ " is not a valid ExtractionStrategy"
  | invalidDocument path => "Invalid TOML in " ++ path.toString
  | sectionNotATable path =>
    "[tool." ++ String.ofList tableName ++ "] in " ++ path.toString ++ " must be a table"
  | fileMissing path => "Config file not found: " ++ path.toString
  | tooFewWorkers => "max_workers must be at least 1"

end ConfigError

end Config

abbrev Config := Config.Settings Bool

namespace Config

def default : Config where
  breakOnEmptyLine := false
  succeedIfNoDocstring := true
  succeedIfNoArgsSection := true
  succeedIfDocstringUntyped := true
  skipVariadicParams := true
  style := .auto
  strategy := .tree

/-- A number of workers is absent or positive. -/
def checkWorkers (workers : Option Int) : Except ConfigError (Option Int) :=
  match workers with
  | some count => if count < 1 then .error .tooFewWorkers else .ok workers
  | none => .ok none

/-- The name that the threads of workers begin with. -/
def workerLabel : String := "staledocs"

end Config
end DocDrift
