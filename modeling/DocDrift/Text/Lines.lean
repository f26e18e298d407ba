import DocDrift.Text.Basic

/-!
Cutting a text into lines at every kind of line boundary, and reading a file's text with one kind of
line end.
-/

namespace DocDrift.Text

/-- The characters that end a line on their own. The unit separator U+001F is not one of them. -/
def isLineBreak (c : Char) : Bool :=
  c = '\n' || c = '\r' || c = '\x0b' || c = '\x0c' || c = '\x1c' || c = '\x1d' || c = '\x1e' ||
    c = '\x85' || c = '\u2028' || c = '\u2029'

/-- The lines of a text without their ends. A carriage return followed by a line feed ends one line,
and a break at the very end does not open another one. -/
def lines : Text → List Text
  | [] => []
  | '\r' :: '\n' :: rest => [] :: lines rest
  | c :: rest =>
    if isLineBreak c then [] :: lines rest
    else match lines rest with
      | [] => [[c]]
      | line :: more => (c :: line) :: more

/-- Every line end (`\r\n`, `\r` or `\n`) becomes a single `\n`. -/
def unifyLineEnds : Text → Text
  | [] => []
  | '\r' :: '\n' :: rest => '\n' :: unifyLineEnds rest
  | c :: rest => (if c = '\r' then '\n' else c) :: unifyLineEnds rest

end DocDrift.Text
