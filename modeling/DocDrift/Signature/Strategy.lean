import DocDrift.Config.Basic
import DocDrift.Signature.Reader
import DocDrift.Signature.Walk

/-!
The two strategies of extraction behind one function.
-/

namespace DocDrift

def Strategy.extract [Cst.Parser] (strategy : Strategy) (skipVariadics : Bool) (source : Text) : Extraction :=
  match strategy with
  | .tree => Walk.extract skipVariadics source
  | .lexer => Reading.extract ⟨source, skipVariadics⟩

end DocDrift
