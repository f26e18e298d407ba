import DocDrift.Token.Basic

/-!
String literals at the front of a text. Each reader splits the text into the literal and what
follows it, or fails when no literal of its form stands there.
-/

namespace DocDrift.Token.Literal

/-- The letters of which up to two may stand before the opening quote. -/
def isPrefixLetter (c : Char) : Bool :=
  c = 'r' || c = 'R' || c = 'b' || c = 'B' || c = 'u' || c = 'U' || c = 'f' || c = 'F'

def isQuote (c : Char) : Bool := c = '\x22' || c = '\x27'

theorem eq_of_isQuote {c : Char} (quoted : isQuote c = true) : c = '\x22' ∨ c = '\x27' := by
  simpa [isQuote] using quoted

/-- Splits off the letters before the quote, at most two of them. -/
def splitPrefix : Text → Text × Text
  | a :: b :: rest =>
    if isPrefixLetter a then
      if isPrefixLetter b then ([a, b], rest) else ([a], b :: rest)
    else ([], a :: b :: rest)
  | [a] => if isPrefixLetter a then ([a], []) else ([], [a])
  | [] => ([], [])

/-- The rest of a triple-quoted literal after its opening quotes, up to the first closing quotes
that no backslash escapes. A literal that is never closed runs to the end of the text, but a
backslash as the very last character leaves no literal at all. -/
def closeTriple (quote : Char) : Text → Option (Text × Text)
  | [] => some ([], [])
  | '\\' :: [] => none
  | '\\' :: c :: rest => (closeTriple quote rest).map fun (body, after) => ('\\' :: c :: body, after)
  | c :: rest =>
    if [quote, quote, quote].isPrefixOf (c :: rest) then
      some ([quote, quote, quote], rest.drop 2)
    else (closeTriple quote rest).map fun (body, after) => (c :: body, after)

/-- The rest of a single-quoted literal after its opening quote, up to the first closing quote that
no backslash escapes. The literal ends on its own line: a line feed, escaped or not, leaves no
literal. -/
def closeSingle (quote : Char) : Text → Option (Text × Text)
  | [] => none
  | '\\' :: [] => none
  | '\\' :: c :: rest =>
    if c = '\n' then none
    else (closeSingle quote rest).map fun (body, after) => ('\\' :: c :: body, after)
  | c :: rest =>
    if c = quote then some ([c], rest)
    else if c = '\n' then none
    else (closeSingle quote rest).map fun (body, after) => (c :: body, after)

/-- A literal without its prefix letters. Three quotes open a triple-quoted literal; where that one
fails, the first two of them are an empty literal. -/
def splitQuoted : Text → Option (Text × Text)
  | [] => none
  | quote :: rest =>
    if isQuote quote then
      let single := (closeSingle quote rest).map fun (body, after) => (quote :: body, after)
      if [quote, quote].isPrefixOf rest then
        match closeTriple quote (rest.drop 2) with
        | some (body, after) => some (quote :: quote :: quote :: body, after)
        | none => single
      else single
    else none

def split (text : Text) : Option (Text × Text) :=
  let (letters, quoted) := splitPrefix text
  (splitQuoted quoted).map fun (body, after) => (letters ++ body, after)

end DocDrift.Token.Literal
