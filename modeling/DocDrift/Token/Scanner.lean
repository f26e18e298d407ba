import DocDrift.Token.Literal

/-!
The scanner cuts every source text into pieces. At each point the first form that fits wins: blanks
or a comment, a string literal, one of the two-character operators `==` and `:=`, a punctuation
character, a word, a lone quote.
-/

namespace DocDrift.Token

/-- The characters that end a word wherever they stand. -/
def isDelimiter (c : Char) : Bool :=
  Text.isBlank c || (Kind.ofChar? c).isSome || c = '#' || Literal.isQuote c

/-- The operator characters to which a following equals sign stays attached. -/
def isOperatorChar (c : Char) : Bool :=
  c = '=' || c = '!' || c = '<' || c = '>' || c = '+' || c = '-' || c = '*' || c = '/' ||
    c = '%' || c = '&' || c = '|' || c = '^' || c = '@'

/-- The rest of a word whose character so far is `previous`. An equals sign belongs to the word
exactly when an operator character stands right before it. -/
def splitWord (previous : Char) : Text → Text × Text
  | [] => ([], [])
  | c :: rest =>
    if !isDelimiter c || (c = '=' && isOperatorChar previous) then
      let (word, after) := splitWord c rest
      (c :: word, after)
    else ([], c :: rest)

/-- The first piece of a text that starts with `c`, and what follows it. -/
def splitPiece (c : Char) (rest : Text) : Piece × Text :=
  if Text.isBlank c then
    (.gap (c :: rest.takeWhile Text.isBlank), rest.dropWhile Text.isBlank)
  else if c = '#' then
    (.gap (c :: rest.takeWhile (· ≠ '\n')), rest.dropWhile (· ≠ '\n'))
  else match Literal.split (c :: rest) with
    | some (literal, after) => (.token (.ofWord literal) literal, after)
    | none =>
      if (c = '=' || c = ':') && rest.head? = some '=' then (.token .text [c, '='], rest.drop 1)
      else match Kind.ofChar? c with
        | some kind => (.token kind [c], rest)
        | none =>
          if Literal.isQuote c then (.token .text [c], rest)
          else
            let (word, after) := splitWord c rest
            (.token (.ofWord (c :: word)) (c :: word), after)

/-- At most `count` pieces of a text. Each piece has a character, so as many as the text has
characters are all of them. -/
def piecesUpTo : Nat → Text → List Piece
  | 0, _ => []
  | _, [] => []
  | count + 1, c :: rest =>
    let (piece, after) := splitPiece c rest
    piece :: piecesUpTo count after

/-- The pieces of a text; in order they make up the text. -/
def pieces (source : Text) : List Piece := piecesUpTo source.length source

def scan (source : Text) : List Token := Piece.place 0 (pieces source)

end DocDrift.Token
