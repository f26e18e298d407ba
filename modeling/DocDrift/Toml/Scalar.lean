import DocDrift.Config.Value
import DocDrift.Toml.Moment

/-!
The values of configuration documents that hold no other values: strings, numbers, and the rest.
Each reader splits a text into a value and what follows it.
-/

namespace DocDrift.Toml

open Config (Value)

def isSpace (c : Char) : Bool := c = ' ' || c = '\t'

def isSpaceOrNewline (c : Char) : Bool := isSpace c || c = '\n'

/-- The control characters that no string or comment may hold as they are. -/
def isControl (c : Char) : Bool := (c.toNat < 0x20 && c ≠ '\t') || c.toNat = 0x7f

def quote : Char := '\x22'

def apostrophe : Char := '\x27'

def hexValue? (digits : Text) : Option Nat :=
  digits.foldlM (fun n c =>
    if c.isDigit then some (16 * n + (c.toNat - '0'.toNat))
    else if 'a' ≤ c && c ≤ 'f' then some (16 * n + (c.toNat - 'a'.toNat + 10))
    else if 'A' ≤ c && c ≤ 'F' then some (16 * n + (c.toNat - 'A'.toNat + 10))
    else none) 0

/-- A character given by its code point in a fixed number of hexadecimal digits. -/
def splitCodePoint (width : Nat) (text : Text) : Option (Char × Text) :=
  let digits := text.take width
  if digits.length = width then
    match hexValue? digits with
    | some n =>
      if n < 0xd800 || (0xdfff < n && n < 0x110000) then some (Char.ofNat n, text.drop width)
      else none
    | none => none
  else none

/-- What an escape after a backslash stands for. In a string of several lines, a backslash at the end
of a line stands for nothing and takes all blanks up to the next text with it. -/
def splitEscape (multiline : Bool) (text : Text) : Option (Text × Text) :=
  match text with
  | [] => none
  | c :: rest =>
    if multiline && isSpaceOrNewline c then
      match text.dropWhile isSpace with
      | [] => some ([], [])
      | '\n' :: more => some ([], more.dropWhile isSpaceOrNewline)
      | _ => none
    else match c with
      | 'b' => some (['\x08'], rest)
      | 't' => some (['\t'], rest)
      | 'n' => some (['\n'], rest)
      | 'f' => some (['\x0c'], rest)
      | 'r' => some (['\r'], rest)
      | '\x22' => some ([quote], rest)
      | '\\' => some (['\\'], rest)
      | 'u' => (splitCodePoint 4 rest).map fun (d, more) => ([d], more)
      | 'U' => (splitCodePoint 8 rest).map fun (d, more) => ([d], more)
      | _ => none

/-- The rest of a string with escapes, after its opening quotes. The fuel is the length of the
text. -/
def closeBasic (multiline : Bool) : Nat → Text → Option (Text × Text)
  | 0, _ => none
  | _, [] => none
  | fuel + 1, c :: rest =>
    if c = quote && !multiline then some ([], rest)
    else if [quote, quote, quote].isPrefixOf (c :: rest) then some ([], rest.drop 2)
    else if c = '\\' then
      match splitEscape multiline rest with
      | none => none
      | some (meaning, after) =>
        (closeBasic multiline fuel after).map fun (body, final) => (meaning ++ body, final)
    else if isControl c && !(multiline && c = '\n') then none
    else (closeBasic multiline fuel rest).map fun (body, final) => (c :: body, final)

/-- The rest of a string without escapes, after its opening quotes. -/
def closeLiteral (closing : Text) (multiline : Bool) (text : Text) : Option (Text × Text) :=
  match Text.cut closing text with
  | none => none
  | some (body, after) =>
    if body.any fun c => isControl c && !(multiline && c = '\n') then none else some (body, after)

/-- Up to two quotes right after the closing quotes of a string of several lines belong to it. -/
def extraQuotes (mark : Char) (body after : Text) : Text × Text :=
  let extra := (after.take 2).takeWhile (· == mark)
  (body ++ extra, after.drop extra.length)

/-- A string on one line. -/
def splitLineString (text : Text) : Option (Text × Text) :=
  match text with
  | '\x22' :: rest => closeBasic false text.length rest
  | '\x27' :: rest => closeLiteral [apostrophe] false rest
  | _ => none

/-- A string of any form. A line end right after three opening quotes does not count. -/
def splitString (text : Text) : Option (Text × Text) :=
  let body := fun (rest : Text) => match rest with
    | '\n' :: more => more
    | _ => rest
  if [quote, quote, quote].isPrefixOf text then
    (closeBasic true text.length (body (text.drop 3))).map fun (s, after) =>
      extraQuotes quote s after
  else if [apostrophe, apostrophe, apostrophe].isPrefixOf text then
    (closeLiteral [apostrophe, apostrophe, apostrophe] true (body (text.drop 3))).map
      fun (s, after) => extraQuotes apostrophe s after
  else splitLineString text

/-- Digits, with single underscores between them; the text must start with a digit. -/
def splitDigits (isDigit : Char → Bool) : Text → Option (Text × Text)
  | [] => none
  | c :: '_' :: rest =>
    if isDigit c then
      match splitDigits isDigit rest with
      | some (digits, after) => some (c :: digits, after)
      | none => some ([c], '_' :: rest)
    else none
  | c :: rest =>
    if isDigit c then
      match splitDigits isDigit rest with
      | some (digits, after) => some (c :: digits, after)
      | none => some ([c], rest)
    else none

def decimalValue (digits : Text) : Nat :=
  digits.foldl (fun n c => 10 * n + (c.toNat - '0'.toNat)) 0

/-- An integer in base 16, 8 or 2. -/
def splitBased (text : Text) : Option (Value × Text) :=
  let based := fun (base : Nat) (isDigit : Char → Bool) (rest : Text) => do
    let (digits, after) ← splitDigits isDigit rest
    let value ← digits.foldlM (fun n c => (hexValue? [c]).map (base * n + ·)) 0
    some (Value.int value, after)
  match text with
  | '0' :: 'x' :: rest => based 16 (fun c => (hexValue? [c]).isSome) rest
  | '0' :: 'o' :: rest => based 8 (fun c => '0' ≤ c && c ≤ '7') rest
  | '0' :: 'b' :: rest => based 2 (fun c => c = '0' || c = '1') rest
  | _ => none

def splitSign (text : Text) : Bool × Text :=
  match text with
  | '-' :: rest => (true, rest)
  | '+' :: rest => (false, rest)
  | _ => (false, text)

/-- A decimal integer or a number with a fraction or an exponent. A leading zero stands alone. -/
def splitDecimal (text : Text) : Option (Value × Text) :=
  let (negative, unsigned) := splitSign text
  let whole := match unsigned with
    | '0' :: rest => some (['0'], rest)
    | _ => splitDigits Char.isDigit unsigned
  match whole with
  | none => none
  | some (digits, rest) =>
    let (fraction, rest) := match rest with
      | '.' :: more =>
        match splitDigits Char.isDigit more with
        | some (places, after) => (some places, after)
        | none => (none, rest)
      | _ => (none, rest)
    let (exponent, rest) := match rest with
      | e :: more =>
        if e = 'e' || e = 'E' then
          let (minus, size) := splitSign more
          match splitDigits Char.isDigit size with
          | some (power, after) =>
            (some (if minus then -(decimalValue power : Int) else decimalValue power), after)
          | none => (none, rest)
        else (none, rest)
      | [] => (none, rest)
    if fraction.isNone && exponent.isNone then
      let n : Int := decimalValue digits
      some (.int (if negative then -n else n), rest)
    else
      let places := fraction.getD []
      some (.float (.finite negative (decimalValue (digits ++ places))
        (exponent.getD 0 - places.length)), rest)

/-- A special number: infinite or undefined. -/
def splitSpecial (text : Text) : Option (Value × Text) :=
  let (negative, unsigned) := splitSign text
  if "inf".toList.isPrefixOf unsigned then some (.float (.infinite negative), unsigned.drop 3)
  else if "nan".toList.isPrefixOf unsigned then some (.float .undefined, unsigned.drop 3)
  else none

/-- A value that holds no other values. Dates and times are tried before numbers. -/
def splitScalar (text : Text) : Option (Value × Text) :=
  match text with
  | [] => none
  | c :: _ =>
    if c = quote || c = apostrophe then
      (splitString text).map fun (s, after) => (.string s, after)
    else if "true".toList.isPrefixOf text then some (.bool true, text.drop 4)
    else if "false".toList.isPrefixOf text then some (.bool false, text.drop 5)
    else match splitDate text with
      | some (some shown, after) => some (.moment shown, after)
      | some (none, _) => none
      | none =>
        match splitTime text with
        | some (shown, after) => some (.moment shown, after)
        | none => ((splitBased text).or (splitDecimal text)).or (splitSpecial text)

end DocDrift.Toml
