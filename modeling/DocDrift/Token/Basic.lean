import DocDrift.Text.Blank

/-!
The minimal tokens of a function header: the word `def`, brackets, comma, colon, equals sign, and a
catch-all for every other text. Between tokens stand gaps of blanks and comments.
-/

namespace DocDrift

inductive Bracket where
  | round
  | square
  | curly
  deriving DecidableEq, Repr

namespace Token

inductive Kind where
  | define
  | opening (bracket : Bracket)
  | closing (bracket : Bracket)
  | comma
  | colon
  | equals
  | text
  deriving DecidableEq, Repr

namespace Kind

def ofChar? : Char → Option Kind
  | '(' => some (.opening .round)
  | ')' => some (.closing .round)
  | '[' => some (.opening .square)
  | ']' => some (.closing .square)
  | '\x7b' => some (.opening .curly)
  | '\x7d' => some (.closing .curly)
  | ',' => some .comma
  | ':' => some .colon
  | '=' => some .equals
  | _ => none

/-- The kind of a token that is no punctuation. -/
def ofWord (word : Text) : Kind := if word = ['d', 'e', 'f'] then .define else .text

/-- How a kind is shown: punctuation by its character. -/
def label : Kind → String
  | define => "def"
  | opening .round => "("
  | closing .round => ")"
  | opening .square => "["
  | closing .square => "]"
  | opening .curly => "\x7b"
  | closing .curly => "\x7d"
  | comma => ","
  | colon => ":"
  | equals => "="
  | text => "text"

end Kind
end Token

/-- A token with the offset of its first character. -/
structure Token where
  kind : Token.Kind
  start : Nat
  text : Text
  deriving DecidableEq, Repr

/-- The offset one past the token's last character. -/
def Token.stop (token : Token) : Nat := token.start + token.text.length

/-- A stretch of a source text: a token, or the blanks and comments between tokens. -/
inductive Piece where
  | gap (text : Text)
  | token (kind : Token.Kind) (text : Text)
  deriving DecidableEq, Repr

namespace Piece

def text : Piece → Text
  | gap text => text
  | token _ text => text

/-- The tokens of consecutive pieces, the first of which stands at `offset`. -/
def place (offset : Nat) : List Piece → List Token
  | [] => []
  | gap text :: rest => place (offset + text.length) rest
  | token kind text :: rest => ⟨kind, offset, text⟩ :: place (offset + text.length) rest

end Piece
end DocDrift
