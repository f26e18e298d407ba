import DocDrift.Syntax.Function
import DocDrift.Syntax.Grammar

/-!
The parser of the program. The tree that the grammar builds becomes a concrete tree whose nodes are
told apart by their extents, and positions are those of the offsets where a node starts and stops.
-/

namespace DocDrift

namespace Syntax.Tree

mutual

/-- Where a tree stops whose text starts at `offset`. -/
def stopFrom (offset : Nat) : Tree → Nat
  | leaf token => token.stop
  | node _ children => stopsFrom offset children

def stopsFrom (offset : Nat) : List Tree → Nat
  | [] => offset
  | tree :: rest => stopsFrom (tree.stopFrom offset) rest

end

/-- The text of a source from one offset to another. -/
def between (source : Text) (start stop : Nat) : Text := (source.take stop).drop start

section Concrete

variable (source : Text)

mutual

/-- The concrete tree whose text starts at `offset`. The gap before a token belongs to the token. -/
def concrete (offset : Nat) : Tree → Cst.Tree Extent
  | leaf token => .code (between source offset token.stop)
  | node form parts =>
    match if form = .function then functionDefinition? parts else none with
    | some definition =>
      let whole := definition.node.id
      let name := definition.name.node.id
      let inner := stopsFrom offset (parts.takeWhile (!·.hasForm .block))
      .function definition (between source offset whole.start) (between source whole.start name.start)
        (between source name.stop inner) (concreteBlock inner parts)
    | none => .node (concretes offset parts)

def concretes (offset : Nat) : List Tree → List (Cst.Tree Extent)
  | [] => []
  | tree :: rest => concrete offset tree :: concretes (tree.stopFrom offset) rest

/-- The concrete trees of the block among the parts of a function, which starts at `offset`. -/
def concreteBlock (offset : Nat) : List Tree → List (Cst.Tree Extent)
  | [] => []
  | node .block children :: _ => concretes offset children
  | _ :: rest => concreteBlock offset rest

end

end Concrete

end Syntax.Tree

namespace Walk

open Syntax

/-- The positions of nodes by the offsets where they start and stop. -/
def locateIn (text : Text) : Cst.Positions Extent :=
  fun node => some ⟨.ofOffset text node.id.start, .ofOffset text node.id.stop⟩

def locateNothing : Cst.Positions Extent := fun _ => none

/-- The source without the byte order mark at its front, which positions do not count. -/
def withoutMark (source : Text) : Text := Text.dropFront ['\ufeff'] source

/-- The definition that the first statement of a program is, if it is one. -/
def firstDefinition? (source : Text) : Option (Cst.FunctionDef Extent) :=
  match Syntax.parse (withoutMark source) with
  | some (.node .compound parts :: _) =>
    parts.findSome? fun
      | .node .function inner => Tree.functionDefinition? inner
      | _ => none
  | _ => none

end Walk

instance Syntax.parser : Cst.Parser where
  Id := Extent
  parse source :=
    let text := Walk.withoutMark source
    match Syntax.parse text with
    | none => .error (.syntaxError none)
    | some trees =>
      let rest := text.drop (Tree.stopsFrom 0 trees)
      .ok ⟨.node [.node (Tree.concretes text 0 trees), .code rest], Walk.locateIn text⟩

end DocDrift
