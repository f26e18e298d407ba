import DocDrift.Command.Arguments
import DocDrift.Config.File
import DocDrift.Run.Basic
import DocDrift.Syntax.Parser

/-!
The command: loads the configuration, checks the paths and ends with an exit code.
-/

namespace DocDrift.Command

/-- A change that the command line makes to one field of a configuration. -/
inductive Change where
  | flag (flag : Config.Flag) (value : Bool)
  | style (style : Docstring.Style)
  | strategy (strategy : Strategy)
  deriving DecidableEq, Repr

def Change.apply (config : Config) : Change → Config
  | .flag name value => config.set value name
  | .style choice => { config with style := choice }
  | .strategy choice => { config with strategy := choice }

def Arguments.changes (arguments : Arguments) : List Change :=
  (arguments.strategy.map Change.strategy).toList ++ (arguments.style.map Change.style).toList ++
    (if arguments.breakOnEmptyLine then [.flag .breakOnEmptyLine true] else []) ++
    (if arguments.forbidNoDocstring then [.flag .succeedIfNoDocstring false] else []) ++
    (if arguments.forbidNoArgsSection then [.flag .succeedIfNoArgsSection false] else []) ++
    (if arguments.forbidUntyped then [.flag .succeedIfDocstringUntyped false] else []) ++
    (if arguments.allowVariadics then [.flag .skipVariadicParams false] else [])

/-- The configuration file that is read if it is there and no other is named. -/
def usualConfigPath : Path := ⟨[], ["pyproject.toml".toList]⟩

/-- The configuration file of a run, if it has one. A file that is named must be there. -/
def configPath (tree : FileTree) (arguments : Arguments) :
    Except Config.LoadError (Option Path) :=
  match arguments.config with
  | some path =>
    if tree.isFile path then .ok (some path) else .error (.refused (.fileMissing path))
  | none => .ok (if tree.isFile usualConfigPath then some usualConfigPath else none)

/-- The configuration of a run, and where it comes from: the defaults, a file over them, and the
command line over both. -/
def loadConfig (tree : FileTree) (arguments : Arguments) :
    Except Config.LoadError (Config × Option Path) := do
  let path ← configPath tree arguments
  let config ← match path with
    | some path => Config.ofFile tree path
    | none => .ok .default
  .ok (arguments.changes.foldl Change.apply config, path)

/-- Why a run ends without an exit code of its own. -/
inductive Abort where
  | toolNotATable
  | unreadableConfig (error : ReadError)
  | interrupted (interruption : Run.Interruption)
  deriving Repr

/-- How a run ends: its exit code, what it reports as an error of usage, and its log. -/
structure Ending where
  code : Nat
  complaint : Option String := none
  log : List Log.Record := []
  deriving DecidableEq, Repr

def success : Nat := 0
def failure : Nat := 1
def usageError : Nat := 2

def name : String := "staledocs"

/-- What the command answers when asked for its version. -/
def versionLine : String := name ++ " 0.1.0"

def complain (log : List Log.Record) (message : String) : Ending :=
  ⟨usageError, some (name ++ ": error: " ++ message), log⟩

def Arguments.level (arguments : Arguments) : Log.Level :=
  if arguments.verbose then .debug else if arguments.quiet then .critical else .info

def describe (report : Report) : String :=
  toString report.results.length ++ " files, " ++ toString report.functionCount ++ " functions, " ++
    toString report.errorCount ++ " errors"

section Run

variable [Cst.Parser]

def checkPaths (tree : FileTree) (arguments : Arguments) (config : Config)
    (log : List Log.Record) : Except Abort Ending :=
  match arguments.paths.find? fun path => !tree.pathExists path with
  | some path => .ok (complain log ("no such file or directory: " ++ path.toString))
  | none =>
    match Run.checkPaths config tree arguments.glob arguments.paths with
    | .error interruption => .error (.interrupted interruption)
    | .ok finished =>
      .ok ⟨if finished.report.success then success else failure, none,
        log ++ finished.log ++ [⟨.debug, describe finished.report⟩]⟩

/-- Runs the command. The log holds every record, whatever its level. -/
def execute (tree : FileTree) (arguments : Arguments) : Except Abort Ending :=
  match loadConfig tree arguments with
  | .error (.refused error) => .ok (complain [] error.message)
  | .error (.unreadable error) => .error (.unreadableConfig error)
  | .error .toolNotATable => .error .toolNotATable
  | .ok (config, path) =>
    let source := match path with
      | some path => path.toString
      | none => "defaults"
    let log := [⟨.debug, "configuration from " ++ source⟩]
    match Config.checkWorkers arguments.jobs with
    | .error error => .ok (complain log error.message)
    | .ok _ => checkPaths tree arguments config log

/-- Runs the command and keeps the records that the arguments ask for. -/
def run (tree : FileTree) (arguments : Arguments) : Except Abort Ending :=
  (execute tree arguments).map fun ending =>
    { ending with log := Log.atLeast arguments.level ending.log }

end Run

end DocDrift.Command
