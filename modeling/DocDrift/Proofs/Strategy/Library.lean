import DocDrift.Signature.Walk
import DocDrift.Text.Lines

namespace DocDrift

/-! # What is known of a parser

A parser is a library.  The walk over its trees is proved for every parser; what a result needs of the
library is one of the assumptions below, each of which its documentation states.
-/

/-- The number of lines of a text, in which a line feed, a carriage return and the pair of both each end
a line. -/
def Text.lineCount (text : Text) : Nat := 1 + (unifyLineEnds text).count '\n'

namespace Cst

variable {Id : Type}

/-- The nodes of a definition whose positions the walk may ask for. -/
def FunctionDef.nodes (definition : FunctionDef Id) : List (Node Id) :=
  definition.node :: definition.name.node ::
    ((Walk.iterParams definition.params).filterMap (·.2.type) ++ definition.body.map (·.opening))

/-- Every recorded position is on a line of the source. -/
def Module.CountsLines (module : Module Id) (source : Text) : Prop :=
  ∀ node range, module.positions node = some range → ∀ position ∈ [range.start, range.stop],
    1 ≤ position.line ∧ position.line ≤ Text.lineCount source

/-- The nodes of the definitions have positions. -/
def Module.IsLocated (module : Module Id) : Prop :=
  ∀ definition ∈ module.tree.definitions, ∀ node ∈ definition.nodes, (module.positions node).isSome

namespace Parser

variable [Parser]

/-- Parsing fails with syntax errors only. -/
def FailsOnSyntax : Prop :=
  ∀ source failure, Parser.parse source = .error failure → ∃ report, failure = .syntaxError report

/-- Positions count lines from 1, and a line ends at a line feed, a carriage return or the pair. -/
def CountsLines : Prop :=
  ∀ source module, Parser.parse source = .ok module → module.CountsLines source

/-- Parsing records a position for every node. -/
def LocatesNodes : Prop := ∀ source module, Parser.parse source = .ok module → module.IsLocated

end Parser

/-- A function definition of a tree, and the offsets at which its keywords, its name and its body start
and its text stops. -/
structure Placed (Id : Type) where
  definition : FunctionDef Id
  start : Nat
  name : Nat
  body : Nat
  stop : Nat

namespace Tree

mutual

/-- The function definitions of a tree whose text starts at `offset`, an outer one before those inside
it. -/
def placed (offset : Nat) : Tree Id → List (Placed Id)
  | code _ => []
  | node parts => placedOf offset parts
  | function definition before keywords header body =>
      let start := offset + before.length
      let name := start + keywords.length
      let inner := name + definition.name.value.length + header.length
      ⟨definition, start, name, inner, inner + (sourceOf body).length⟩ :: placedOf inner body

def placedOf (offset : Nat) : List (Tree Id) → List (Placed Id)
  | [] => []
  | tree :: rest => tree.placed offset ++ placedOf (offset + tree.source.length) rest

end

end Tree

/-- The range of a node whose text is that of the source from `start` to `stop`. -/
def CodeRange.between (source : Text) (start stop : Nat) : CodeRange :=
  ⟨.ofOffset source start, .ofOffset source stop⟩

/-- The recorded positions of a definition are where its parts stand.  The definition starts at its
keywords, behind all decorators; it and the first statement of its body stop before the text of the body
does, which has layout at its end. -/
structure Placed.IsRecorded (source : Text) (positions : Positions Id) (placed : Placed Id) : Prop where
  named : placed.definition.name.value ≠ []
  name : positions placed.definition.name.node =
    some (.between source placed.name (placed.name + placed.definition.name.value.length))
  extent : ∃ stop, placed.body ≤ stop ∧ stop ≤ placed.stop ∧
    positions placed.definition.node = some (.between source placed.start stop)
  body : ∃ statement more start stop, placed.definition.body = statement :: more ∧
    placed.body ≤ start ∧ start ≤ stop ∧ stop ≤ placed.stop ∧
    positions statement.opening = some (.between source start stop)
  types : ∀ node ∈ (Walk.iterParams placed.definition.params).filterMap (·.2.type),
    ∃ start stop, start ≤ stop ∧ stop ≤ placed.stop ∧
      positions node = some (.between source start stop)

/-- The tree gives its source back, and the recorded positions are those of the source. -/
structure Module.IsPlaced (module : Module Id) (source : Text) : Prop where
  regenerates : module.tree.source = source
  recorded : ∀ placed ∈ module.tree.placed 0, placed.IsRecorded source module.positions

end Cst
end DocDrift
