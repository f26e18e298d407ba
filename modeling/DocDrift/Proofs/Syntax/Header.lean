import DocDrift.Syntax.Function

namespace DocDrift.Syntax

/-! # Function headers

A function node lists its parts one after the other, and a header names them.
-/

namespace Tree

/-- The forms that a type or a default value never has. -/
def isFunctionForm : Form → Bool
  | .function | .parameters | .block => true
  | _ => false

/-- Trees among which there is no function, parameter list or block. -/
def AreFree (trees : List Tree) : Prop :=
  ∀ tree ∈ trees, ∀ form, isFunctionForm form = true → tree.hasForm form = false

theorem AreFree.append {left right : List Tree} (first : AreFree left) (second : AreFree right) :
    AreFree (left ++ right) :=
  List.forall_mem_append.mpr ⟨first, second⟩

theorem areFree_leaf (token : Token) : AreFree [leaf token] :=
  List.forall_mem_singleton.mpr fun _ _ => rfl

theorem areFree_node {form : Form} (other : isFunctionForm form = false) (children : List Tree) :
    AreFree [node form children] := by
  refine List.forall_mem_singleton.mpr fun part function => ?_
  simp only [hasForm, beq_eq_false_iff_ne]
  rintro rfl
  simp [other] at function

theorem AreFree.filter {trees : List Tree} (free : AreFree trees) {form : Form}
    (part : isFunctionForm form = true) : trees.filter (·.hasForm form) = [] :=
  List.filter_eq_nil_iff.mpr fun tree member => by simp [free tree member form part]

/-- A statement whose text is not empty.  The text of a line begins with that of its first small
statement, and decorators are no part of a statement's text. -/
inductive Opens : Tree → Prop where
  | line {first : Tree} {more : List Tree} (filled : first.leaves ≠ []) :
      Opens (node .line (first :: more))
  | compound {children : List Tree}
      (filled : leavesOf (children.filter (!·.hasForm .decorator)) ≠ []) :
      Opens (node .compound children)

/-- The trees of a block: layout, and then a statement. -/
def IsBlock (body : List Tree) : Prop :=
  ∃ (layout : List Token) (statement : Tree) (rest : List Tree),
    body = layout.map leaf ++ statement :: rest ∧ Opens statement

end Tree

structure Header where
  modifier : Option Token
  define : Token
  name : Token
  typeParams : List Tree
  opening : Token
  items : List Tree
  closing : Token
  returns : List Tree
  colon : Token
  body : List Tree

namespace Header

/-- The parts from the name to the colon. -/
def inner (header : Header) : List Tree :=
  .leaf header.name :: (header.typeParams ++ .leaf header.opening ::
    .node .parameters header.items :: .leaf header.closing :: (header.returns ++ [.leaf header.colon]))

/-- The parts in front of the block. -/
def front (header : Header) : List Tree :=
  header.modifier.toList.map .leaf ++ .leaf header.define :: header.inner

def parts (header : Header) : List Tree := header.front ++ [.node .block header.body]

structure IsFormed (header : Header) : Prop where
  modifier : ∀ token ∈ header.modifier, token.isWord ['a', 's', 'y', 'n', 'c'] = true
  define : header.define.isWord ['d', 'e', 'f'] = true
  name : header.name.isName = true
  typeParams : Tree.AreFree header.typeParams
  returns : Tree.AreFree header.returns
  colon : header.colon.isWord [':'] = true
  body : Tree.IsBlock header.body

end Header

/-- A tree whose function nodes are made of the parts of headers. -/
inductive Tree.Proper : Tree → Prop where
  | leaf {token : Token} : Proper (leaf token)
  | node {form : Form} {children : List Tree} (plain : form ≠ .function)
      (proper : ∀ child ∈ children, Proper child) : Proper (node form children)
  | function {header : Header} (formed : header.IsFormed)
      (proper : ∀ tree ∈ header.body, Proper tree) : Proper (node .function header.parts)

end DocDrift.Syntax
