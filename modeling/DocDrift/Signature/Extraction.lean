import DocDrift.Signature.Basic
import DocDrift.Signature.ScanError

/-!
What extraction makes of a source text: the signatures found in order, and the fault that ended it
early, if one did.
-/

namespace DocDrift

inductive Fault where
  | scan (error : ScanError)
  /-- A condition that the library relies on does not hold. -/
  | invariant (text : String)
  /-- Anything else, which checking does not catch. -/
  | uncaught
  deriving DecidableEq, Repr

/-- A position lies on a line that the line index does not have. -/
@[match_pattern] abbrev Fault.lineOutOfRange : Fault := .uncaught

structure Extraction where
  signatures : List Signature
  fault : Option Fault
  deriving DecidableEq, Repr

namespace Extraction

def failed (fault : Fault) : Extraction := ⟨[], some fault⟩

/-- The extraction that also finds `signature`, if given, before everything else. -/
def found (signature : Option Signature) (later : Extraction) : Extraction :=
  { later with signatures := signature.toList ++ later.signatures }

end Extraction
end DocDrift
