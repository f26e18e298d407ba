import DocDrift.Source.LineIndex
import DocDrift.Source.Span

/-!
Parameters, as code declares them or a docstring documents them, and the signatures of functions.
-/

namespace DocDrift

/-- A parameter by name, with a type if one is given. A variadic name keeps its stars. -/
structure Parameter where
  name : Text
  type : Option Text := none
  deriving DecidableEq, Repr

namespace Parameter

def isVariadicName (name : Text) : Bool := name.head? == some '*'

def isVariadic (parameter : Parameter) : Bool := isVariadicName parameter.name

/-- The names of the object or class that a method receives. -/
def receivers : List Text := [['s', 'e', 'l', 'f'], ['c', 'l', 's']]

/-- The bare marks that stand in a parameter list and name no parameter. -/
def marks : List Text := [['*'], ['/']]

/-- Whether a name belongs in a signature. Receivers and marks never do, variadic names only when
they are not skipped. -/
def isKept (skipVariadics : Bool) (name : Text) : Bool :=
  !receivers.contains name && !marks.contains name && !(skipVariadics && isVariadicName name)

/-- The parameter as `name` or `name: type`. -/
def render (parameter : Parameter) : Text :=
  match parameter.type with
  | some type => parameter.name ++ [':', ' '] ++ type
  | none => parameter.name

/-- A parameter list as `(a: int, b)`. -/
def renderAll (parameters : List Parameter) : Text :=
  '(' :: Text.join [',', ' '] (parameters.map render) ++ [')']

end Parameter

/-- One function's parameters and the places of its name and docstring in the source text. -/
structure Signature where
  source : Text
  nameSpan : Span
  line : Int
  params : List Parameter
  docstringSpan : Option Span
  deriving DecidableEq, Repr

namespace Signature

def name (signature : Signature) : Text := signature.nameSpan.resolve signature.source

def docstring (signature : Signature) : Option Text :=
  signature.docstringSpan.map (·.resolve signature.source)

end Signature
end DocDrift
