import DocDrift.Syntax.Token

/-!
Syntax trees. The leaves of a tree are tokens; in order they are the tokens that the tree was parsed
from, so every fact about places in the source is a fact about tokens.
-/

namespace DocDrift.Syntax

/-- The forms of inner nodes that something asks about. -/
inductive Form where
  /-- One or more small statements on a line. -/
  | line
  /-- A statement that does not contain other statements. -/
  | small
  /-- A statement with a block of statements, and the decorators before it. -/
  | compound
  | decorator
  | function
  | parameters
  | parameter
  /-- A colon and a type. -/
  | typing
  | default
  | block
  | conditional
  | lambda
  | boolean
  | comparison
  | unary
  | binary
  | await
  | yield
  | named
  | starred
  /-- An atom followed by attributes, calls and subscripts. -/
  | primary
  | attribute
  | call
  | subscript
  | slice
  | parens
  | brackets
  | braces
  | tuple
  /-- An element and the clauses that generate it. -/
  | comprehension
  | pair
  | keyword
  | strings
  /-- A string literal with replacement fields. -/
  | fields
  deriving DecidableEq, Repr

inductive Tree where
  | leaf (token : Token)
  | node (form : Form) (children : List Tree)
  deriving Repr

namespace Tree

mutual

def leaves : Tree → List Token
  | leaf token => [token]
  | node _ children => leavesOf children

def leavesOf : List Tree → List Token
  | [] => []
  | tree :: rest => tree.leaves ++ leavesOf rest

end

def hasForm (form : Form) : Tree → Bool
  | leaf _ => false
  | node f _ => f == form

def isWord (word : Text) : Tree → Bool
  | leaf token => token.isWord word
  | node _ _ => false

def children : Tree → List Tree
  | leaf _ => []
  | node _ children => children

end Tree
end DocDrift.Syntax
