import DocDrift.Signature.ScanError
import DocDrift.Source.Position

/-!
Concrete syntax trees as a parser gives them. The parser is a library, so it is a parameter: all that
is known of it is what the walk over its trees asks for.
-/

namespace DocDrift.Cst

/-- A node by the name of its class and by what tells it from all other nodes of its tree. -/
structure Node (Id : Type) where
  kind : String
  id : Id
  deriving DecidableEq, Repr

structure Name (Id : Type) where
  node : Node Id
  value : Text
  deriving DecidableEq, Repr

structure Param (Id : Type) where
  name : Name Id
  type : Option (Node Id)
  hasDefault : Bool
  deriving DecidableEq, Repr

/-- What stands at the star of a parameter list. -/
inductive StarArg (Id : Type) where
  | missing
  /-- A star that names no parameter. -/
  | bare
  | param (param : Param Id)
  deriving DecidableEq, Repr

structure Parameters (Id : Type) where
  posonlyParams : List (Param Id) := []
  params : List (Param Id) := []
  starArg : StarArg Id := .missing
  kwonlyParams : List (Param Id) := []
  starKwarg : Option (Param Id) := none
  deriving DecidableEq, Repr

inductive Statement (Id : Type) where
  /-- Small statements on one line, of which there is at least one. -/
  | line (node first : Node Id) (more : List (Node Id))
  | other (node : Node Id)
  deriving DecidableEq, Repr

/-- The node at which the text of a statement begins. -/
def Statement.opening {Id : Type} : Statement Id → Node Id
  | line _ first _ => first
  | other node => node

structure FunctionDef (Id : Type) where
  node : Node Id
  name : Name Id
  params : Parameters Id
  body : List (Statement Id)
  deriving DecidableEq, Repr

/-- A tree, in which function definitions are told from everything else. -/
inductive Tree (Id : Type) where
  | code (text : Text)
  | node (parts : List (Tree Id))
  /-- A function definition: the text before its keywords, where decorators are, the keywords, the
  name, the text from there to the body, and the body. -/
  | function (definition : FunctionDef Id) (before keywords header : Text) (body : List (Tree Id))
  deriving Repr

namespace Tree

variable {Id : Type}

mutual

/-- The text that the tree was parsed from. -/
def source : Tree Id → Text
  | code text => text
  | node parts => sourceOf parts
  | function definition before keywords header body =>
    before ++ (keywords ++ (definition.name.value ++ (header ++ sourceOf body)))

def sourceOf : List (Tree Id) → Text
  | [] => []
  | tree :: rest => tree.source ++ sourceOf rest

end

mutual

/-- The function definitions of a tree, an outer one before those inside it. -/
def definitions : Tree Id → List (FunctionDef Id)
  | code _ => []
  | node parts => definitionsOf parts
  | function definition _ _ _ body => definition :: definitionsOf body

def definitionsOf : List (Tree Id) → List (FunctionDef Id)
  | [] => []
  | tree :: rest => tree.definitions ++ definitionsOf rest

end

end Tree

/-- From the position of a node's first character to the position behind its last one. -/
structure CodeRange where
  start : Position
  stop : Position
  deriving DecidableEq, Repr

/-- The recorded positions of the nodes of a tree. -/
abbrev Positions (Id : Type) := Node Id → Option CodeRange

structure Module (Id : Type) where
  tree : Tree Id
  positions : Positions Id

inductive Failure where
  /-- The source is no program. -/
  | syntaxError (report : Option SyntaxReport)
  | other
  deriving DecidableEq, Repr

/-- A library that parses programs. -/
class Parser where
  Id : Type
  parse : Text → Except Failure (Module Id)

end DocDrift.Cst
