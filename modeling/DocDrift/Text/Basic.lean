/-!
Texts as sequences of code points, and the searches and cuts that the rest of the library makes in
them. Every offset, column and length of the library counts positions of such a sequence.
-/

namespace DocDrift

/-- A text is the sequence of its code points. -/
abbrev Text := List Char

namespace Text

/-- A signed bound counts from the start of the text, or from its end when it is negative. A bound
beyond either end stands at that end. -/
def bound (length : Nat) (i : Int) : Nat :=
  if 0 ≤ i then min i.toNat length else (i + length).toNat

/-- The part of a text between two signed bounds; empty when they cross. -/
def slice (text : Text) (start stop : Int) : Text :=
  (text.take (bound text.length stop)).drop (bound text.length start)

/-- The offset of the first occurrence of `needle`. -/
def find (needle : Text) : Text → Option Nat
  | [] => if needle.isEmpty then some 0 else none
  | c :: rest =>
    if needle.isPrefixOf (c :: rest) then some 0 else (find needle rest).map (· + 1)

/-- What stands before and after the first occurrence of `needle`. -/
def cut (needle text : Text) : Option (Text × Text) :=
  (find needle text).map fun i => (text.take i, text.drop (i + needle.length))

/-- Without `piece` at the front, if it stands there. -/
def dropFront (piece text : Text) : Text :=
  if piece.isPrefixOf text then text.drop piece.length else text

/-- Without `piece` at the back, if it stands there. -/
def dropBack (piece text : Text) : Text :=
  if piece.isSuffixOf text then text.take (text.length - piece.length) else text

/-- The texts in order, with `separator` between neighbours. -/
def join (separator : Text) : List Text → Text
  | [] => []
  | [t] => t
  | t :: more => t ++ separator ++ join separator more

/-- Cuts at every occurrence of one character; the pieces are one more than the occurrences. -/
def splitAt (mark : Char) : Text → List Text
  | [] => [[]]
  | c :: rest =>
    if c = mark then [] :: splitAt mark rest
    else match splitAt mark rest with
      | [] => [[c]]
      | piece :: more => (c :: piece) :: more

/-- Lexicographic order by code point. -/
def less : Text → Text → Bool
  | _, [] => false
  | [], _ :: _ => true
  | a :: s, b :: t => a.toNat < b.toNat || (a == b && less s t)

end Text
end DocDrift
