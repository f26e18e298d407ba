import DocDrift.Check.Source
import DocDrift.Files.Discovery
import DocDrift.Run.Report

/-!
Checking the files that given paths stand for. Files are independent of each other; their results
stand in the order of the files.
-/

namespace DocDrift.Run

inductive Interruption where
  /-- A directory is to be searched for a pattern that is none. -/
  | badPattern (error : Glob.PatternError)
  /-- A fault of a file was not caught. -/
  | uncaught
  deriving DecidableEq, Repr

/-- A position of a syntax tree lies outside its source. -/
@[match_pattern] abbrev Interruption.lineOutOfRange : Interruption := .uncaught

def unreadable (path : Path) (error : ReadError) : Check.Outcome :=
  let name := path.toString
  ⟨some (.error ("Cannot read " ++ name ++ ": " ++ error.message) (some path) (some (.read error))
      "check_file" name none),
   [⟨.error, name ++ ": cannot read file: " ++ error.message⟩]⟩

structure Finished where
  report : Report
  log : List Log.Record
  deriving DecidableEq, Repr

section Files

variable [Cst.Parser]

def checkFile (config : Config) (tree : FileTree) (path : Path) : Check.Outcome :=
  match tree.readText path with
  | .ok source => Check.checkSource config (some path) source
  | .error error => unreadable path error

def checkFiles (config : Config) (tree : FileTree) (files : List Path) :
    Except Interruption Finished :=
  let outcomes := files.map (checkFile config tree)
  match outcomes.mapM (·.result) with
  | none => .error .uncaught
  | some results =>
    .ok ⟨.ofResults results,
      ⟨.debug, "checking " ++ toString files.length ++ " files"⟩ :: outcomes.flatMap (·.log)⟩

def checkPaths (config : Config) (tree : FileTree) (pattern : Text) (paths : List Path) :
    Except Interruption Finished :=
  match Discovery.discover tree pattern paths with
  | .error error => .error (.badPattern error)
  | .ok files => checkFiles config tree files

end Files

end DocDrift.Run
