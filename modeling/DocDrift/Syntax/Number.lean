import DocDrift.Text.Basic

/-!
Number literals at the front of a text. Digits may be grouped by single underscores.
-/

namespace DocDrift.Syntax.Number

/-- Splits off digits, each of which may have one underscore before it. -/
def splitGrouped (isDigit : Char → Bool) : Text → Text × Text
  | '_' :: d :: rest =>
    if isDigit d then
      let (digits, after) := splitGrouped isDigit rest
      ('_' :: d :: digits, after)
    else ([], '_' :: d :: rest)
  | d :: rest =>
    if isDigit d then
      let (digits, after) := splitGrouped isDigit rest
      (d :: digits, after)
    else ([], d :: rest)
  | [] => ([], [])

/-- Splits off digits that begin with a digit. -/
def splitDigits (isDigit : Char → Bool) (text : Text) : Text × Text :=
  if (text.head?.map isDigit).getD false then splitGrouped isDigit text else ([], text)

def isHexDigit (c : Char) : Bool :=
  c.isDigit || ('a' ≤ c && c ≤ 'f') || ('A' ≤ c && c ≤ 'F')

/-- The digits of the base that a letter after a leading zero announces. -/
def baseDigits? : Char → Option (Char → Bool)
  | 'x' | 'X' => some isHexDigit
  | 'o' | 'O' => some fun c => '0' ≤ c && c ≤ '7'
  | 'b' | 'B' => some fun c => c = '0' || c = '1'
  | _ => none

/-- Splits off an exponent, which needs a digit. -/
def splitExponent (text : Text) : Text × Text :=
  match text with
  | e :: rest =>
    if e = 'e' || e = 'E' then
      let (sign, unsigned) := match rest with
        | s :: more => if s = '+' || s = '-' then ([s], more) else ([], rest)
        | [] => ([], [])
      match splitDigits Char.isDigit unsigned with
      | ([], _) => ([], text)
      | (digits, after) => (e :: sign ++ digits, after)
    else ([], text)
  | [] => ([], [])

def splitImaginary (text : Text) : Text × Text :=
  match text with
  | j :: rest => if j = 'j' || j = 'J' then ([j], rest) else ([], text)
  | [] => ([], [])

def splitFraction (text : Text) : Text × Text :=
  match text with
  | '.' :: rest =>
    let (digits, after) := splitDigits Char.isDigit rest
    ('.' :: digits, after)
  | _ => ([], text)

/-- A decimal number. Without a fraction, an exponent or an imaginary mark, a number that starts
with zero is zero. -/
def splitDecimal (text : Text) : Option (Text × Text) :=
  let (whole, rest) := splitDigits Char.isDigit text
  let (fraction, rest) := splitFraction rest
  let (exponent, rest) := splitExponent rest
  let (imaginary, rest) := splitImaginary rest
  let tail := fraction ++ exponent ++ imaginary
  if tail = [] && whole.head? == some '0' && !whole.all (fun c => c = '0' || c = '_') then none
  else some (whole ++ tail, rest)

/-- A number literal. The text must start with a digit, or with a point and a digit. -/
def split (text : Text) : Option (Text × Text) :=
  match text with
  | '0' :: base :: rest =>
    match baseDigits? base with
    | some isDigit =>
      match splitGrouped isDigit rest with
      | ([], _) => none
      | (digits, after) => some ('0' :: base :: digits, after)
    | none => splitDecimal text
  | _ => splitDecimal text

/-- Whether a number literal is imaginary. -/
def isImaginary (text : Text) : Bool := text.getLast?.any fun c => c = 'j' || c = 'J'

end DocDrift.Syntax.Number
