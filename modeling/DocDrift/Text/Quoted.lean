import DocDrift.Text.Printable

/-!
Quoted texts, as diagnostics show them. A text stands between apostrophes, or between double quotes
when it holds an apostrophe and no double quote. The quote in use, the backslash and every
unprintable character are escaped.
-/

namespace DocDrift.Text

/-- A number in lower-case hexadecimal, padded with zeros to a width. -/
def hexadecimal (width n : Nat) : String :=
  let digits := Nat.toDigits 16 n
  String.ofList (List.replicate (width - digits.length) '0' ++ digits)

def quoteFor (text : Text) : Char :=
  if text.contains '\'' && !text.contains '"' then '"' else '\''

def escapeChar (quote c : Char) : String :=
  if c = quote || c = '\\' then "\\" ++ c.toString
  else if c = '\n' then "\\n"
  else if c = '\r' then "\\r"
  else if c = '\t' then "\\t"
  else if isPrintable c then c.toString
  else if c.toNat < 0x100 then "\\x" ++ hexadecimal 2 c.toNat
  else if c.toNat < 0x10000 then "\\u" ++ hexadecimal 4 c.toNat
  else "\\U" ++ hexadecimal 8 c.toNat

def quoted (text : Text) : String :=
  let quote := quoteFor text
  quote.toString ++ String.join (text.map (escapeChar quote)) ++ quote.toString

end DocDrift.Text
