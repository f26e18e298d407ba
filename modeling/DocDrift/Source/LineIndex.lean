import DocDrift.Text.Basic

/-!
The line index of a source text, which converts between offsets and lines numbered from 1. Only a
line feed ends a line here.
-/

namespace DocDrift

/-- The offsets at which the lines of a text start, in increasing order. -/
structure LineIndex where
  starts : List Nat
  deriving DecidableEq, Repr

namespace LineIndex

/-- The starts of the lines after the first one, for a text that stands at `offset`. -/
def startsAfter (offset : Nat) : Text → List Nat
  | [] => []
  | c :: rest =>
    if c = '\n' then (offset + 1) :: startsAfter (offset + 1) rest
    else startsAfter (offset + 1) rest

def ofText (source : Text) : LineIndex := ⟨0 :: startsAfter 0 source⟩

/-- The number of the line that holds an offset: how many lines start at or before it. -/
def lineOf (index : LineIndex) (offset : Int) : Nat :=
  index.starts.countP fun start : Nat => (start : Int) ≤ offset

/-- The start of a line. Line 0 and the lines below it count from the last line backwards; a line
that is out of reach either way has no start. -/
def startOf? (index : LineIndex) (line : Int) : Option Nat :=
  let i := line - 1
  if 0 ≤ i then index.starts[i.toNat]?
  else if 0 ≤ i + index.starts.length then index.starts[(i + index.starts.length).toNat]?
  else none

/-- The offset of a column, counted from 0, on a line. -/
def offsetOf? (index : LineIndex) (line column : Int) : Option Int :=
  (index.startOf? line).map (· + column)

end LineIndex
end DocDrift
