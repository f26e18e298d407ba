import DocDrift.Signature.Cst
import DocDrift.Syntax.Number
import DocDrift.Syntax.Tree

/-!
Function definitions in a syntax tree: what is declared, and which nodes of the tree hold it.
-/

namespace DocDrift.Syntax

/-- The offsets at which the text of a node starts and stops. -/
structure Extent where
  start : Nat
  stop : Nat
  deriving DecidableEq, Repr

abbrev Node := Cst.Node Extent

namespace Tree

/-- An expression without the parentheses around the whole of it. -/
def core : Tree → Tree
  | node .parens [_, inner, _] => core inner
  | tree => tree

def numberKind (text : Text) : String :=
  let lower := text.map Char.toLower
  if ["0x", "0o", "0b"].any fun base => base.toList.isPrefixOf lower then "Integer"
  else if Number.isImaginary text then "Imaginary"
  else if lower.contains '.' || lower.contains 'e' then "Float"
  else "Integer"

/-- The kind of an expression whose parentheses are taken off. -/
def expressionKind : Tree → String
  | leaf token =>
    match token.kind with
    | .number => numberKind token.text
    | .string => "SimpleString"
    | .operator => "Ellipsis"
    | _ => "Name"
  | node form children =>
    match form with
    | .conditional => "IfExp"
    | .lambda => "Lambda"
    | .boolean => "BooleanOperation"
    | .comparison => "Comparison"
    | .unary => "UnaryOperation"
    | .binary => "BinaryOperation"
    | .await => "Await"
    | .yield => "Yield"
    | .named => "NamedExpr"
    | .starred => "StarredElement"
    | .primary =>
      match children.getLast? with
      | some (node .attribute _) => "Attribute"
      | some (node .call _) => "Call"
      | _ => "Subscript"
    | .brackets => if children.any (·.hasForm .comprehension) then "ListComp" else "List"
    | .braces =>
      match children.drop 1 with
      | node .comprehension items :: _ =>
        if items.any (·.hasForm .pair) then "DictComp" else "SetComp"
      | node .pair _ :: _ => "Dict"
      | node .keyword _ :: _ => "Dict"
      | leaf _ :: [] => "Dict"
      | _ => "Set"
    | .comprehension => "GeneratorExp"
    | .strings => "ConcatenatedString"
    | .fields =>
      match children.head? with
      | some (leaf token) =>
        if token.text.contains 't' || token.text.contains 'T' then "TemplatedString"
        else "FormattedString"
      | _ => "FormattedString"
    | _ => "Tuple"

/-- The node from the first of some tokens to the last. Without tokens it is empty, at `place`. -/
def spanning (kind : String) (place : Nat) (tokens : List Token) : Node where
  kind := kind
  id := ⟨(tokens.head?.map (·.start)).getD place, (tokens.getLast?.map (·.stop)).getD place⟩

/-- The node of an expression. The parentheses around the whole of it do not count; between empty
parentheses it is where they close. -/
def expressionNode (tree : Tree) : Node :=
  match tree.core with
  | node .parens children =>
    let close := (leavesOf children).getLast?.map (·.start)
    spanning "Tuple" (close.getD 0) []
  | inner => spanning inner.expressionKind 0 inner.leaves

/-- A statement with its nodes. Decorators do not count. -/
def statement : Tree → Cst.Statement Extent
  | node .line (first :: rest) =>
    let small := fun (tree : Tree) => spanning "SmallStatement" 0 tree.leaves
    .line (spanning "SimpleStatementLine" 0 (leavesOf (first :: rest))) (small first)
      ((rest.filter (·.hasForm .small)).map small)
  | node _ children =>
    .other (spanning "CompoundStatement" 0 (leavesOf (children.filter (!·.hasForm .decorator))))
  | leaf token => .other (spanning "Statement" 0 [token])

/-- The tokens that carry a statement's text: not the layout, and no semicolons. -/
def textTokens (trees : List Tree) : List Token :=
  (leavesOf trees).filter fun token => !token.isLayout && !token.isWord [';']

def nameOf (token : Token) : Cst.Name Extent := ⟨spanning "Name" 0 [token], token.text⟩

/-- A declared parameter, from its name and the parts of its node after that. -/
def paramOf (name : Token) (parts : List Tree) : Cst.Param Extent where
  name := nameOf name
  type := parts.findSome? fun
    | node .typing [_, type] => some type.expressionNode
    | _ => none
  hasDefault := parts.any (·.hasForm .default)

/-- The parameters with one more item of their list. A slash tells that those before it are given by
position only, and a star that those behind it are given by keyword only. -/
def declare (params : Cst.Parameters Extent) : Tree → Cst.Parameters Extent
  | leaf token =>
    if token.isWord ['/'] then { params with posonlyParams := params.params, params := [] }
    else if token.isWord ['*'] then { params with starArg := .bare }
    else params
  | node _ (leaf stars :: leaf name :: parts) =>
    let param := paramOf name parts
    if stars.isWord ['*'] then { params with starArg := .param param }
    else { params with starKwarg := some param }
  | node _ (leaf name :: parts) =>
    let param := paramOf name parts
    match params.starArg with
    | .missing => { params with params := params.params ++ [param] }
    | _ => { params with kwonlyParams := params.kwonlyParams ++ [param] }
  | node _ _ => params

/-- The definition that the parts of a function node make. -/
def functionDefinition? (parts : List Tree) : Option (Cst.FunctionDef Extent) :=
  match (parts.filterMap fun
    | leaf token => some token
    | node _ _ => none).find? (·.isName) with
  | none => none
  | some name =>
    let items := (parts.filter (·.hasForm .parameters)).flatMap children
    let body := (parts.filter (·.hasForm .block)).flatMap children
    some
      { node := spanning "FunctionDef" 0 (textTokens parts)
        name := nameOf name
        params := items.foldl declare {}
        body := (body.filter fun t => t.hasForm .line || t.hasForm .compound).map statement }

end Tree
end DocDrift.Syntax
