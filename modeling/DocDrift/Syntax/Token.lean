import DocDrift.Text.Basic

/-!
The tokens of a program for its grammar. Besides the texts that a token covers, the layout of lines
shows as tokens: the end of a logical line, and the steps of indentation.
-/

namespace DocDrift.Syntax

inductive Kind where
  | gap
  | name
  | number
  /-- A string literal without replacement fields. -/
  | string
  /-- The opening quotes of a string literal with replacement fields. -/
  | fieldsOpen
  /-- Literal text between replacement fields. -/
  | fieldsText
  /-- The closing quotes of a string literal with replacement fields. -/
  | fieldsClose
  | operator
  | lineEnd
  | indent
  | dedent
  | sourceEnd
  deriving DecidableEq, Repr

/-- A stretch of a source text with its kind; the steps of indentation cover no text. -/
structure Lexeme where
  kind : Kind
  text : Text
  deriving DecidableEq, Repr

/-- A lexeme that the grammar sees, with the offset of its first character. -/
structure Token where
  kind : Kind
  text : Text
  start : Nat
  deriving DecidableEq, Repr

namespace Token

def stop (token : Token) : Nat := token.start + token.text.length

def isWord (token : Token) (word : Text) : Bool :=
  (token.kind == .operator || token.kind == .name) && token.text == word

/-- Whether a token stands for the layout of lines. -/
def isLayout (token : Token) : Bool :=
  match token.kind with
  | .lineEnd | .indent | .dedent | .sourceEnd => true
  | _ => false

end Token

/-- The tokens of consecutive lexemes, the first of which stands at `offset`. -/
def place (offset : Nat) : List Lexeme → List Token
  | [] => []
  | lexeme :: rest =>
    let later := place (offset + lexeme.text.length) rest
    if lexeme.kind = .gap then later else ⟨lexeme.kind, lexeme.text, offset⟩ :: later

/-- The reserved words, none of which is a name. -/
def reservedWords : List Text :=
  ["False", "None", "True", "and", "as", "assert", "async", "await", "break", "class", "continue",
   "def", "del", "elif", "else", "except", "finally", "for", "from", "global", "if", "import", "in",
   "is", "lambda", "nonlocal", "not", "or", "pass", "raise", "return", "try", "while", "with",
   "yield"].map String.toList

def Token.isName (token : Token) : Bool :=
  token.kind == .name && !reservedWords.contains token.text

end DocDrift.Syntax
