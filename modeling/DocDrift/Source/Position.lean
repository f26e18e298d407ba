import DocDrift.Source.LineIndex

/-!
Positions in a source text by line and column, where a line feed, a carriage return and the pair of
both each end a line.
-/

namespace DocDrift

/-- A line, counted from 1, and a column, counted from 0. -/
structure Position where
  line : Nat
  column : Nat
  deriving DecidableEq, Repr

namespace Position

/-- Where the text stands that follows `text`, when `text` stands at `position`. -/
def advance (position : Position) : Text → Position
  | [] => position
  | '\r' :: '\n' :: rest => advance ⟨position.line + 1, 0⟩ rest
  | c :: rest =>
    if c = '\n' || c = '\r' then advance ⟨position.line + 1, 0⟩ rest
    else advance ⟨position.line, position.column + 1⟩ rest

def ofOffset (source : Text) (offset : Nat) : Position := advance ⟨1, 0⟩ (source.take offset)

/-- The offset that the line index gives to a position, if it has that line. -/
def offset? (position : Position) (index : LineIndex) : Option Int :=
  index.offsetOf? position.line position.column

end Position
end DocDrift
