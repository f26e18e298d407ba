import DocDrift.Syntax.Number
import DocDrift.Syntax.Token
import DocDrift.Text.Identifier

/-!
The scanner cuts a source text into lexemes for the grammar. It keeps the open steps of indentation,
the number of open brackets, and the string literals whose replacement fields it is inside of. In
order, the texts of the lexemes make up the source; there are none if the source has a character or
a literal that no lexeme covers.
-/

namespace DocDrift.Syntax

/-- A string literal with replacement fields that is still open. -/
structure OpenString where
  quote : Char
  triple : Bool
  raw : Bool
  /-- The brackets open in its fields, those of the fields themselves included. -/
  brackets : Nat := 0
  /-- The fields whose format is being read. -/
  formats : Nat := 0
  deriving DecidableEq, Repr

namespace OpenString

/-- Inside an expression of a field, rather than in literal text or in a format. -/
def inExpression (literal : OpenString) : Bool := literal.formats < literal.brackets

def inFormat (literal : OpenString) : Bool := !literal.inExpression && 0 < literal.formats

def enter (literal : OpenString) : OpenString := { literal with brackets := literal.brackets + 1 }

def leave (literal : OpenString) : OpenString :=
  { literal with
    brackets := literal.brackets - 1
    formats := if literal.inFormat then literal.formats - 1 else literal.formats }

def closingQuotes (literal : OpenString) : Text :=
  if literal.triple then [literal.quote, literal.quote, literal.quote] else [literal.quote]

end OpenString

/-- The state of the scanner between two lexemes. -/
structure Scanner where
  /-- The open steps of indentation, innermost first: the width with tab stops of eight columns and
  with tab stops of one. -/
  indents : List (Nat × Nat) := []
  depth : Nat := 0
  /-- The open string literals with replacement fields, innermost first. -/
  strings : List OpenString := []
  /-- At the start of a physical line outside all brackets. -/
  lineStart : Bool := true
  deriving DecidableEq, Repr

namespace Scanner

def isSpace (c : Char) : Bool := c = ' ' || c = '\t' || c = '\x0c'

def isNewline (c : Char) : Bool := c = '\n' || c = '\r'

def splitNewline : Text → Option (Text × Text)
  | '\r' :: '\n' :: rest => some (['\r', '\n'], rest)
  | '\n' :: rest => some (['\n'], rest)
  | '\r' :: rest => some (['\r'], rest)
  | _ => none

/-- The width of leading blanks with tab stops of eight columns and of one column. A form feed
starts over. -/
def width (blanks : Text) : Nat × Nat :=
  blanks.foldl (fun (wide, narrow) c =>
    if c = '\t' then ((wide / 8 + 1) * 8, narrow + 1)
    else if c = '\x0c' then (0, 0)
    else (wide + 1, narrow + 1)) (0, 0)

/-- The steps of indentation left open by a line of the given width, and how many it closes. -/
def closeIndents (wide : Nat) : List (Nat × Nat) → List (Nat × Nat) × Nat
  | [] => ([], 0)
  | step :: outer =>
    if wide < step.1 then
      let (kept, closed) := closeIndents wide outer
      (kept, closed + 1)
    else (step :: outer, 0)

/-- The layout lexemes of a line with the given blanks in front, and the steps of indentation then
open. The line must continue an open step or start a deeper one, under both tab widths. -/
def indent (indents : List (Nat × Nat)) (blanks : Text) :
    Option (List Lexeme × List (Nat × Nat)) :=
  let (wide, narrow) := width blanks
  let current := indents.headD (0, 0)
  if wide > current.1 then
    if narrow > current.2 then some ([⟨.indent, []⟩], (wide, narrow) :: indents) else none
  else
    let (kept, closed) := closeIndents wide indents
    if kept.headD (0, 0) = (wide, narrow) then some (List.replicate closed ⟨.dedent, []⟩, kept)
    else none

/-- The rest of a string literal after its opening quotes, up to the closing quotes. A backslash
escapes the character after it, a line end of two characters as a whole. Only a literal in triple
quotes may go on after a line end that is not escaped. -/
def closeString (quote : Char) (triple : Bool) : Text → Option (Text × Text)
  | [] => none
  | '\\' :: '\r' :: '\n' :: rest =>
    (closeString quote triple rest).map fun (body, after) => ('\\' :: '\r' :: '\n' :: body, after)
  | '\\' :: c :: rest =>
    (closeString quote triple rest).map fun (body, after) => ('\\' :: c :: body, after)
  | c :: rest =>
    if triple && [quote, quote, quote].isPrefixOf (c :: rest) then
      some ([quote, quote, quote], rest.drop 2)
    else if !triple && c = quote then some ([c], rest)
    else if !triple && isNewline c then none
    else (closeString quote triple rest).map fun (body, after) => (c :: body, after)

/-- Splits off literal text of a string with replacement fields: up to its closing quotes or a single
brace. Outside formats a doubled brace is literal text, and so are the braces of a named character
(`named` says that one is open). -/
def splitFieldText (literal : OpenString) (named : Bool) : Text → Option (Text × Text)
  | [] => none
  | c :: rest =>
    let plain := fun (_ : Unit) =>
      (splitFieldText literal named rest).map fun (body, after) => (c :: body, after)
    if literal.closingQuotes.isPrefixOf (c :: rest) then some ([], c :: rest)
    else if !literal.triple && isNewline c then none
    else if c = '\\' && !literal.raw then
      match rest with
      | 'N' :: '\x7b' :: more =>
        if literal.inFormat then plain ()
        else (splitFieldText literal true more).map fun (body, after) =>
          ('\\' :: 'N' :: '\x7b' :: body, after)
      | d :: more =>
        if d = '\x7b' || d = '\x7d' then plain ()
        else (splitFieldText literal named more).map fun (body, after) => ('\\' :: d :: body, after)
      | [] => none
    else if c = '\x7b' then
      match rest with
      | '\x7b' :: more =>
        if literal.inFormat then some ([], c :: rest)
        else (splitFieldText literal named more).map fun (body, after) =>
          ('\x7b' :: '\x7b' :: body, after)
      | _ => some ([], c :: rest)
    else if c = '\x7d' then
      if named then (splitFieldText literal false rest).map fun (body, after) => (c :: body, after)
      else match rest with
        | '\x7d' :: more =>
          if literal.inFormat then some ([], c :: rest)
          else (splitFieldText literal named more).map fun (body, after) =>
            ('\x7d' :: '\x7d' :: body, after)
        | _ => some ([], c :: rest)
    else plain ()

/-- The letters, in lower case, that may stand before the quotes of a literal without fields. -/
def plainPrefixes : List Text :=
  ["", "r", "u", "b", "br", "rb"].map String.toList

/-- The letters, in lower case, that announce a literal with fields. -/
def fieldPrefixes : List Text := ["f", "fr", "rf", "t", "tr", "rt"].map String.toList

/-- The operators, longer ones first. -/
def operators : List Text :=
  ["**=", "//=", ">>=", "<<=", "...", "==", "!=", "<=", ">=", "->", "+=", "-=", "*=", "/=", "%=",
   "&=", "|=", "^=", "@=", ":=", "**", "//", "<<", ">>", "<>", "(", ")", "[", "]", "\x7b", "\x7d",
   ":", ",", ";", "+", "-", "*", "/", "|", "&", "<", ">", "=", ".", "%", "~", "^", "@",
   "!"].map String.toList

/-- One step of the scanner: lexemes, the rest of the text, and the state there. -/
abbrev Step := List Lexeme × Text × Scanner

/-- The string literal that follows the letters `letters`, which are read already. -/
def stepString (scanner : Scanner) (letters : Text) (text : Text) : Option Step :=
  match text with
  | [] => none
  | quote :: rest =>
    let triple := [quote, quote].isPrefixOf rest
    let opening := if triple then [quote, quote, quote] else [quote]
    let body := if triple then rest.drop 2 else rest
    let lower := letters.map Char.toLower
    if fieldPrefixes.contains lower then
      let literal : OpenString := { quote, triple, raw := lower.contains 'r' }
      some ([⟨.fieldsOpen, letters ++ opening⟩], body,
        { scanner with strings := literal :: scanner.strings })
    else
      (closeString quote triple body).map fun (closed, after) =>
        ([⟨.string, letters ++ opening ++ closed⟩], after, scanner)

def isQuote (c : Char) : Bool := c = '\x22' || c = '\x27'

/-- A name, or a string literal with letters in front. -/
def stepName (scanner : Scanner) (text : Text) : Option Step :=
  let name := text.takeWhile Text.isIdentifierPart
  let rest := text.dropWhile Text.isIdentifierPart
  let lower := name.map Char.toLower
  if (rest.head?.map isQuote).getD false &&
      (plainPrefixes.contains lower || fieldPrefixes.contains lower) then
    scanner.stepString name rest
  else some ([⟨.name, name⟩], rest, scanner)

/-- The state after an operator: brackets open and close, in the innermost open string too, and a
colon directly inside a field starts its format. -/
def afterOperator (scanner : Scanner) (operator : Text) : Scanner :=
  let onString := fun (f : OpenString → OpenString) => match scanner.strings with
    | literal :: outer => f literal :: outer
    | [] => []
  if operator = ['('] || operator = ['['] || operator = ['\x7b'] then
    { scanner with depth := scanner.depth + 1, strings := onString .enter }
  else if operator = [')'] || operator = [']'] || operator = ['\x7d'] then
    { scanner with depth := scanner.depth - 1, strings := onString .leave }
  else scanner

def startsFormat (scanner : Scanner) : Bool :=
  match scanner.strings with
  | literal :: _ => literal.brackets == literal.formats + 1
  | [] => false

def stepOperator (scanner : Scanner) (text : Text) : Option Step :=
  if text.head? == some ':' && scanner.startsFormat then
    let strings := match scanner.strings with
      | literal :: outer => { literal with formats := literal.formats + 1 } :: outer
      | [] => []
    some ([⟨.operator, [':']⟩], text.drop 1, { scanner with strings })
  else
    (operators.find? (·.isPrefixOf text)).map fun operator =>
      ([⟨.operator, operator⟩], text.drop operator.length, scanner.afterOperator operator)

/-- A step in the literal text or a format of the innermost open string. -/
def stepField (scanner : Scanner) (literal : OpenString) (outer : List OpenString) (text : Text) :
    Option Step :=
  match splitFieldText literal false text with
  | none => none
  | some (c :: body, rest) => some ([⟨.fieldsText, c :: body⟩], rest, scanner)
  | some ([], rest) =>
    let quotes := literal.closingQuotes
    if quotes.isPrefixOf rest then
      some ([⟨.fieldsClose, quotes⟩], rest.drop quotes.length, { scanner with strings := outer })
    else match rest with
      | '\x7d' :: _ => if literal.brackets = 0 then none else scanner.stepOperator rest
      | _ => scanner.stepOperator rest

/-- The start of a line outside brackets. A line of blanks and a comment is a gap; on any other one
the steps of indentation follow the blanks. -/
def stepLineStart (scanner : Scanner) (text : Text) : Option Step :=
  let blanks := text.takeWhile isSpace
  let rest := text.dropWhile isSpace
  let comment := if rest.head? == some '#' then rest.takeWhile (!isNewline ·) else []
  let after := rest.drop comment.length
  match splitNewline after with
  | some (newline, next) => some ([⟨.gap, blanks ++ comment ++ newline⟩], next, scanner)
  | none =>
    if after = [] then some ([⟨.gap, blanks ++ comment⟩], [], scanner)
    else
      (indent scanner.indents blanks).map fun (layout, indents) =>
        (⟨.gap, blanks⟩ :: layout, rest, { scanner with indents, lineStart := false })

/-- A step anywhere else. -/
def stepInLine (scanner : Scanner) (text : Text) : Option Step :=
  match text with
  | [] => none
  | c :: rest =>
    if isSpace c then
      some ([⟨.gap, c :: rest.takeWhile isSpace⟩], rest.dropWhile isSpace, scanner)
    else if c = '#' then
      some ([⟨.gap, c :: rest.takeWhile (!isNewline ·)⟩], rest.dropWhile (!isNewline ·), scanner)
    else if c = '\\' then
      match splitNewline rest with
      | some (newline, next) => if next = [] then none else some ([⟨.gap, c :: newline⟩], next, scanner)
      | none => none
    else match splitNewline text with
      | some (newline, next) =>
        if scanner.depth = 0 then
          some ([⟨.lineEnd, newline⟩], next, { scanner with lineStart := true })
        else some ([⟨.gap, newline⟩], next, scanner)
      | none =>
        if Text.isIdentifierStart c then scanner.stepName text
        else if c.isDigit || (c = '.' && (rest.head?.map Char.isDigit).getD false) then
          (Number.split text).map fun (number, after) => ([⟨.number, number⟩], after, scanner)
        else if isQuote c then scanner.stepString [] text
        else scanner.stepOperator text

/-- One step on a text that is not empty. -/
def step (scanner : Scanner) (text : Text) : Option Step :=
  match scanner.strings with
  | literal :: outer =>
    if literal.inExpression then scanner.stepInLine text
    else scanner.stepField literal outer text
  | [] => if scanner.lineStart then scanner.stepLineStart text else scanner.stepInLine text

/-- The lexemes at the end of the source, where no bracket and no string may be open. -/
def finish (scanner : Scanner) : Option (List Lexeme) :=
  if scanner.depth = 0 && scanner.strings = [] then
    some ((if scanner.lineStart then [] else [⟨.lineEnd, []⟩]) ++
      List.replicate scanner.indents.length ⟨.dedent, []⟩ ++ [⟨.sourceEnd, []⟩])
  else none

/-- At most `count` steps, which must reach the end of the source. -/
def runUpTo : Nat → Scanner → Text → Option (List Lexeme)
  | 0, _, _ => none
  | _, scanner, [] => scanner.finish
  | count + 1, scanner, c :: rest =>
    match scanner.step (c :: rest) with
    | none => none
    | some (lexemes, after, next) => (runUpTo count next after).map (lexemes ++ ·)

end Scanner

/-- The lexemes of a source. A step takes a character or leaves the start of a line, so twice as
many steps as there are characters are enough. -/
def scan (source : Text) : Option (List Lexeme) :=
  Scanner.runUpTo (2 * source.length + 2) {} source

end DocDrift.Syntax
