import DocDrift.Comparison
import DocDrift.Config.Basic
import DocDrift.Docstring.Section
import DocDrift.Log
import DocDrift.Result

/-!
Checking: the rules on one signature, and the result and log of all signatures of a file.
-/

namespace DocDrift.Check

/-- What the rules find about a signature and its docstring. -/
inductive Finding where
  | agreement
  | noDocstring
  | noSection
  | mismatch (problem : Problem) (declared documented : List Parameter)
  deriving DecidableEq, Repr

namespace Finding

def message : Finding → String
  | agreement => ""
  | noDocstring => "docstring missing"
  | noSection => "args section missing"
  | mismatch problem declared documented => Comparison.describe problem declared documented

def isCompliant (config : Config) : Finding → Bool
  | agreement => true
  | noDocstring => config.succeedIfNoDocstring
  | noSection => config.succeedIfNoArgsSection
  | mismatch .. => false

end Finding

/-- The rules, in order: there must be a docstring, it must have a parameter section, and the
section must match the signature. -/
def find (config : Config) (signature : Signature) : Finding :=
  match signature.docstring with
  | none => .noDocstring
  | some docstring =>
    let options := ⟨config.breakOnEmptyLine, config.skipVariadicParams⟩
    match Docstring.parse config.style options docstring with
    | none => .noSection
    | some documented =>
      match Comparison.compare config.succeedIfDocstringUntyped signature.params documented with
      | none => .agreement
      | some problem => .mismatch problem signature.params documented

def checkSignature (config : Config) (path : Option Path) (signature : Signature) : Verdict :=
  let finding := find config signature
  { compliant := finding.isCompliant config
    message := finding.message
    path := path
    functionName := signature.name
    line := signature.line }

def failureRecords (verdicts : List Verdict) : List Log.Record :=
  (verdicts.filter (!·.compliant)).map fun verdict =>
    ⟨.error, verdict.location ++ ": " ++ verdict.message⟩

/-- How a file is named in a message: by its path, or by a stand-in. -/
def nameOr (standIn : String) (path : Option Path) : String :=
  match path with
  | some path => path.toString
  | none => standIn

/-- A cause with its file and line in front, where they are known. -/
def describe (source : Text) (path : Option Path) (cause : Cause) : String :=
  let line := cause.offset?.map fun offset => toString ((LineIndex.ofText source).lineOf offset)
  match (path.map Path.toString).toList ++ line.toList with
  | [] => cause.message
  | places => ":".intercalate places ++ ": " ++ cause.message

/-- The outcome of checking a source: a result unless a fault was not caught, and what was logged. -/
structure Outcome where
  result : Option Result
  log : List Log.Record
  deriving DecidableEq, Repr

def summarize (path : Option Path) (verdicts : List Verdict) : Outcome :=
  let failed := verdicts.countP (!·.compliant)
  let total := toString verdicts.length
  let message :=
    if failed = 0 then "All " ++ total ++ " functions are compliant"
    else toString failed ++ " of " ++ total ++ " functions have stale docstrings"
  ⟨some (.summary (failed == 0) message path (some verdicts)),
   [⟨.debug, nameOr "<source>" path ++ " checked " ++ total ++ " functions, " ++
      toString failed ++ " non-compliant"⟩]⟩

def fail (path : Option Path) (verdicts : List Verdict) (cause : Cause) (lead : String) : Result :=
  .error (lead ++ nameOr "source" path ++ ": " ++ cause.message) path (some cause) "check_source"
    (nameOr "<source>" path) (some verdicts)

/-- Checks every signature of an extraction, in order. The verdicts reached before a fault are kept.
`early` is logged before the first verdict and `late` once the source is scanned to its end. -/
def checkExtraction (config : Config) (path : Option Path) (source : Text) (early late : List Log.Record)
    (extraction : Extraction) : Outcome :=
  let verdicts := extraction.signatures.map (checkSignature config path)
  let log := early ++ failureRecords verdicts
  match extraction.fault with
  | none =>
    let outcome := summarize path verdicts
    { outcome with log := log ++ late ++ outcome.log }
  | some (.scan error) =>
    let cause := .scan error.message error.offset?
    ⟨some (fail path verdicts cause "Cannot scan "),
     log ++ [⟨.error, "scan error: " ++ describe source path cause⟩]⟩
  | some (.invariant text) =>
    let cause := .invariant text
    ⟨some (fail path verdicts cause "Internal error while checking "),
     log ++ [⟨.critical, "internal error: " ++ describe source path cause⟩]⟩
  | some .uncaught => ⟨none, log⟩

end DocDrift.Check
