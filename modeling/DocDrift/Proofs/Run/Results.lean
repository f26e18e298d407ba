import DocDrift.Proofs.Signature.Steps
import DocDrift.Proofs.Strategy.Walk
import DocDrift.Proofs.Text.LineEnds
import DocDrift.Run.Basic

namespace DocDrift

/-! # Every file has a result

A file is read with its line ends unified, so positions in its text count the lines of the line index
and no position lies outside it.  Checking a file therefore comes to a result.  Any result is a success
exactly if the file was scanned to its end and no function in it is stale.
-/

theorem FileTree.readText_eq_ok {tree : FileTree} {path : Path} {source : Text} :
    tree.readText path = .ok source ↔ ∃ bytes text, tree.bytes path = .ok bytes ∧
      Utf8.decode bytes = .ok text ∧ Text.unifyLineEnds text = source := by
  unfold readText
  cases tree.bytes path with
  | error error => simp [bind, Except.bind]
  | ok bytes =>
      cases decoded : Utf8.decode bytes with
      | error error => simp [bind, Except.bind, decoded]
      | ok text => simp [bind, Except.bind, decoded]

theorem FileTree.readText_clean {tree : FileTree} {path : Path} {source : Text}
    (read : tree.readText path = .ok source) : '\r' ∉ source := by
  obtain ⟨bytes, text, _, _, rfl⟩ := readText_eq_ok.mp read
  exact text.unifyLineEnds_clean

section Extraction

variable [Cst.Parser]

/-- A scan leaves no fault uncaught, and neither does a walk over the trees of a parser that keeps to its
documentation. -/
theorem Strategy.extract_caught {strategy : Strategy}
    (documented : strategy = .tree → Cst.Parser.FailsOnSyntax ∧ Cst.Parser.CountsLines) (skip : Bool)
    {source : Text} (clean : '\r' ∉ source) : (strategy.extract skip source).fault ≠ some .uncaught := by
  cases strategy with
  | tree => exact Walk.extract_caught skip clean (documented rfl).1 (documented rfl).2
  | lexer =>
      intro fault
      rcases Reader.run_fault ⟨source, skip⟩ .outside (Token.scan source) with none | ⟨error, scan⟩
      · exact absurd (none.symm.trans fault) (by simp)
      · exact absurd (scan.symm.trans fault) (by simp)

end Extraction

/-- A result that is a success exactly if its file was checked to the end and no function is stale. -/
def Result.IsExact (result : Result) : Prop :=
  result.success = true ↔ result.isError = false ∧ result.staleCount = 0

namespace Check

/-- What the verdicts on a source come to, once it is known where the scan stopped. -/
def settle (path : Option Path) (verdicts : List Verdict) : Option Fault → Option Result
  | none => (summarize path verdicts).result
  | some (.scan error) => some (fail path verdicts (.scan error.message error.offset?) "Cannot scan ")
  | some (.invariant text) => some (fail path verdicts (.invariant text) "Internal error while checking ")
  | some .uncaught => none

theorem checkExtraction_result (config : Config) (path : Option Path) (source : Text)
    (early late : List Log.Record) (extraction : Extraction) :
    (checkExtraction config path source early late extraction).result =
      settle path (extraction.signatures.map (checkSignature config path)) extraction.fault := by
  unfold checkExtraction
  cases extraction.fault with
  | none => rfl
  | some fault => cases fault <;> rfl

/-- The strategies differ in what is logged, not in how a result is settled. -/
theorem checkSource_result [Cst.Parser] (config : Config) (path : Option Path) (source : Text) :
    let extraction := config.strategy.extract config.skipVariadicParams source
    (checkSource config path source).result =
      settle path (extraction.signatures.map (checkSignature config path)) extraction.fault := by
  intro extraction
  unfold checkSource
  split
  · exact checkExtraction_result config path source _ _ extraction
  · exact checkExtraction_result config path source _ _ extraction

theorem settle_exact (path : Option Path) (verdicts : List Verdict) {fault : Option Fault} {result : Result}
    (settled : settle path verdicts fault = some result) : result.IsExact := by
  match fault with
  | none =>
      cases settled
      simp [Result.IsExact, Result.success, Result.isError, Result.staleCount, Result.verdicts, Result.data]
  | some (.scan error) =>
      cases settled
      simp [fail, Result.IsExact, Result.success, Result.isError]
  | some (.invariant text) =>
      cases settled
      simp [fail, Result.IsExact, Result.success, Result.isError]
  | some .uncaught => contradiction

theorem settle_exists (path : Option Path) (verdicts : List Verdict) {fault : Option Fault}
    (caught : fault ≠ some .uncaught) : ∃ result, settle path verdicts fault = some result := by
  match fault with
  | none => exact ⟨_, rfl⟩
  | some (.scan error) => exact ⟨_, rfl⟩
  | some (.invariant text) => exact ⟨_, rfl⟩
  | some .uncaught => exact absurd rfl caught

end Check

namespace Run

variable [Cst.Parser] {config : Config} {tree : FileTree} {path : Path} {result : Result}

theorem checkFile_exact (checked : (checkFile config tree path).result = some result) : result.IsExact := by
  unfold checkFile at checked
  cases read : tree.readText path with
  | ok source =>
      rw [read] at checked
      simp only [Check.checkSource_result] at checked
      exact Check.settle_exact (some path) _ checked
  | error error =>
      rw [read] at checked
      cases checked
      simp [Result.IsExact, Result.success, Result.isError]

/-- Checking a file comes to a result, whatever its bytes are. -/
theorem checkFile_exists (documented : config.strategy = .tree → Cst.Parser.FailsOnSyntax ∧ Cst.Parser.CountsLines)
    (tree : FileTree) (path : Path) : ∃ result, (checkFile config tree path).result = some result := by
  unfold checkFile
  cases read : tree.readText path with
  | ok source =>
      simp only [Check.checkSource_result]
      exact Check.settle_exists (some path) _
        (Strategy.extract_caught documented config.skipVariadicParams (FileTree.readText_clean read))
  | error error => exact ⟨_, rfl⟩

end Run
end DocDrift
