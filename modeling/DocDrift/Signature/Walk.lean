import DocDrift.Docstring.Literal
import DocDrift.Signature.Cst
import DocDrift.Signature.Extraction

/-!
Extraction from a syntax tree: every function definition of the tree, at any depth, gives a
signature. Positions in the tree count lines as the parser does, while spans come from the line index,
which knows line feeds only. A parameter with a default value contributes only its name.
-/

namespace DocDrift.Walk

open Cst

variable {Id : Type}

/-- The parameters in the order of their declaration, each with the stars before its name. -/
def iterParams (params : Parameters Id) : List (Text × Param Id) :=
  let plain := fun (param : Param Id) => (([] : Text), param)
  let starred := match params.starArg with
    | .param param => [(['*'], param)]
    | _ => []
  params.posonlyParams.map plain ++ params.params.map plain ++ starred ++
    params.kwonlyParams.map plain ++ (params.starKwarg.map fun param => (['*', '*'], param)).toList

def rangeOf (positions : Positions Id) (node : Node Id) : Except Fault CodeRange :=
  match positions node with
  | some range => .ok range
  | none => .error (.invariant ("no position recorded for " ++ node.kind ++ " node"))

def toSpan (index : LineIndex) (range : CodeRange) : Except Fault Span :=
  match range.start.offset? index, range.stop.offset? index with
  | some start, some stop => .ok ⟨start, stop⟩
  | _, _ => .error .lineOutOfRange

def spanOf (positions : Positions Id) (index : LineIndex) (node : Node Id) : Except Fault Span :=
  (rangeOf positions node).bind (toSpan index)

/-- The type of a parameter as written in the source. A default value hides it. -/
def readType (source : Text) (positions : Positions Id) (index : LineIndex) (param : Param Id) :
    Except Fault (Option Text) :=
  match param.hasDefault, param.type with
  | false, some node => (spanOf positions index node).map fun span => some (span.resolve source)
  | _, _ => .ok none

def readParameters (skipVariadics : Bool) (source : Text) (positions : Positions Id)
    (index : LineIndex) : List (Text × Param Id) → Except Fault (List Parameter)
  | [] => .ok []
  | (stars, param) :: rest =>
    let name := stars ++ param.name.value
    if Parameter.isKept skipVariadics name then do
      let type ← readType source positions index param
      let later ← readParameters skipVariadics source positions index rest
      .ok (⟨name, type⟩ :: later)
    else readParameters skipVariadics source positions index rest

/-- The node at which the text of a function's body begins. -/
def firstStatement (definition : FunctionDef Id) : Except Fault (Node Id) :=
  match definition.body with
  | [] =>
    .error (.invariant ("function " ++ Text.quoted definition.name.value ++ " has an empty body"))
  | statement :: _ => .ok statement.opening

/-- The signature of a function definition. Its docstring must open the first statement of the body
and lie inside the definition. -/
def signature (skipVariadics : Bool) (source : Text) (positions : Positions Id)
    (definition : FunctionDef Id) : Except Fault Signature := do
  let index := LineIndex.ofText source
  let params ← readParameters skipVariadics source positions index (iterParams definition.params)
  let whole ← spanOf positions index definition.node
  let first ← firstStatement definition
  let block ← spanOf positions index first
  let range ← rangeOf positions definition.name.node
  let nameSpan ← toSpan index range
  .ok
    { source := source
      nameSpan := nameSpan
      line := range.start.line
      params := params
      docstringSpan := Docstring.locate source block.start (some whole.stop) }

section Visit

variable (skipVariadics : Bool) (source : Text) (positions : Positions Id)

mutual

/-- Visits the nodes of a tree, an outer one before those inside it. Only function definitions give a
signature, and the first one that gives none ends the visit. -/
def visit : Cst.Tree Id → Except Fault (List Signature)
  | .code _ => .ok []
  | .node parts => visitAll parts
  | .function definition _ _ _ body => do
    let signature ← signature skipVariadics source positions definition
    let inner ← visitAll body
    .ok (signature :: inner)

def visitAll : List (Cst.Tree Id) → Except Fault (List Signature)
  | [] => .ok []
  | tree :: rest => do
    let first ← visit tree
    let later ← visitAll rest
    .ok (first ++ later)

end

end Visit

/-- The signatures of all function definitions of a program. If the source is no program, or one
definition gives no signature, there are none. -/
def extract [Parser] (skipVariadics : Bool) (source : Text) : Extraction :=
  match Parser.parse source with
  | .error (.syntaxError report) => .failed (.scan (.unparsable report))
  | .error .other => .failed .uncaught
  | .ok module =>
    match visit skipVariadics source module.positions module.tree with
    | .ok signatures => ⟨signatures, none⟩
    | .error fault => .failed fault

end DocDrift.Walk
