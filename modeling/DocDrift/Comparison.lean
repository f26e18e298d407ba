import DocDrift.Signature.Basic
import DocDrift.Text.Quoted

/-!
Comparing the parameters that a function declares with those that its docstring documents.
-/

namespace DocDrift

inductive Problem where
  | counts (declared documented : Nat)
  /-- The names at a position, counted from 1, differ. -/
  | names (position : Nat) (declared documented : Text)
  | types (name : Text) (declared documented : Option Text)
  deriving DecidableEq, Repr

namespace Problem

/-- A type in a diagnostic: quoted, or `None` where there is none. -/
def showType : Option Text → String
  | some type => Text.quoted type
  | none => "None"

def message : Problem → String
  | counts declared documented =>
    toString declared ++ " parameters in signature, " ++ toString documented ++ " documented"
  | names position declared documented =>
    "parameter " ++ toString position ++ " is " ++ Text.quoted declared ++ " but " ++
      Text.quoted documented ++ " is documented"
  | types name declared documented =>
    "parameter " ++ Text.quoted name ++ " has type " ++ showType declared ++
      " but is documented as " ++ showType documented

end Problem

namespace Comparison

/-- Whether two types agree: they are equal, or, when leniency is asked for, one is missing. -/
def typesAgree (lenient : Bool) (declared documented : Option Text) : Bool :=
  declared == documented || (lenient && (declared.isNone || documented.isNone))

/-- The first disagreement of two lists, paired position by position from `position` on. -/
def firstProblem (lenient : Bool) (position : Nat) : List Parameter → List Parameter → Option Problem
  | declared :: moreDeclared, documented :: moreDocumented =>
    if declared.name ≠ documented.name then
      some (.names position declared.name documented.name)
    else if typesAgree lenient declared.type documented.type then
      firstProblem lenient (position + 1) moreDeclared moreDocumented
    else some (.types declared.name declared.type documented.type)
  | _, _ => none

/-- The first disagreement. The numbers of parameters are compared before any pair, so that a
surplus entry at the end is never hidden. -/
def compare (lenient : Bool) (declared documented : List Parameter) : Option Problem :=
  if declared.length ≠ documented.length then some (.counts declared.length documented.length)
  else firstProblem lenient 1 declared documented

def describe (problem : Problem) (declared documented : List Parameter) : String :=
  "docstring does not match signature (" ++ problem.message ++ "); signature " ++
    String.ofList (Parameter.renderAll declared) ++ ", docstring " ++
    String.ofList (Parameter.renderAll documented)

end Comparison
end DocDrift
