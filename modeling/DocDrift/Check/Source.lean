import DocDrift.Check.Basic
import DocDrift.Signature.Strategy

/-!
Checking every function of a source text.
-/

namespace DocDrift.Check

/-- The record of how many functions a strategy found, once it has reached the end of a source. -/
def foundRecord (strategy : Strategy) (extraction : Extraction) : List Log.Record :=
  match extraction.fault with
  | none =>
    [⟨.debug, strategy.label ++ " strategy found " ++ toString extraction.signatures.length ++
      " functions"⟩]
  | some _ => []

/-- Checks a source text. A tree is complete before its first function is checked, while a forward
scan reaches the end of the source after its last one; the log shows this order. -/
def checkSource [Cst.Parser] (config : Config) (path : Option Path) (source : Text) : Outcome :=
  let extraction := config.strategy.extract config.skipVariadicParams source
  let record := foundRecord config.strategy extraction
  match config.strategy with
  | .tree => checkExtraction config path source record [] extraction
  | .lexer => checkExtraction config path source [] record extraction

end DocDrift.Check
