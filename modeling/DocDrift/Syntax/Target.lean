import DocDrift.Syntax.Tree

/-!
Which expressions may be assigned to. The grammar parses an expression first and then asks whether
it is a target.
-/

namespace DocDrift.Syntax.Tree

/-- The punctuation between and around the parts of a target. -/
def isTargetMark (tree : Tree) : Bool :=
  ["(", ")", "[", "]", ",", "*"].any fun mark => tree.isWord mark.toList

/-- Whether an atom with its trailers names a place: it ends in an attribute or a subscript. -/
def isPlace (children : List Tree) : Bool :=
  match children.getLast? with
  | some tree => tree.hasForm .attribute || tree.hasForm .subscript
  | none => false

mutual

/-- Whether an expression is a target: a name, a place, or targets in brackets or side by side.
`starred` allows a star before a target. -/
def isTarget (starred : Bool) : Tree → Bool
  | leaf token => token.isName
  | node .primary children => isPlace children
  | node .parens children => areTargets starred children
  | node .brackets children => areTargets starred children
  | node .tuple children => areTargets starred children
  | node .starred children => starred && areTargets starred children
  | node _ _ => false

/-- Whether every tree but the punctuation is a target. -/
def areTargets (starred : Bool) : List Tree → Bool
  | [] => true
  | tree :: rest => (tree.isTargetMark || isTarget starred tree) && areTargets starred rest

end

/-- Whether an expression is a name or a place. -/
def isPlain : Tree → Bool
  | leaf token => token.isName
  | node .primary children => isPlace children
  | _ => false

mutual

/-- Whether an expression is a name or a place, possibly in parentheses. -/
def isSingle : Tree → Bool
  | leaf token => token.isName
  | node .primary children => isPlace children
  | node .parens children => isSingleInside children
  | _ => false

def isSingleInside : List Tree → Bool
  | [] => false
  | tree :: rest => isSingle tree || (tree.isTargetMark && isSingleInside rest)

end

/-- Whether the left sides of a chain of assignments are targets. The chain alternates sides and
equals signs; its last side is the value. -/
def chainIsValid : List Tree → Bool
  | target :: _ :: rest => isTarget true target && chainIsValid rest
  | _ => true

/-- Whether the trees of an expression statement are a valid assignment, or no assignment at all. -/
def isValidAssignment (trees : List Tree) : Bool :=
  match trees with
  | target :: mark :: _ =>
    if mark.isWord [':'] then isPlain target
    else if mark.isWord ['='] then chainIsValid trees
    else isSingle target
  | _ => true

/-- Whether the items between braces are all entries of a table or all elements of a set. -/
def areAlike (items : List Tree) : Bool :=
  let isEntry := fun (tree : Tree) => tree.hasForm .pair || tree.hasForm .keyword
  let isMark := fun (tree : Tree) => tree.isWord [',']
  items.all (fun tree => isMark tree || isEntry tree) ||
    items.all (fun tree => isMark tree || !isEntry tree)

end DocDrift.Syntax.Tree
