import DocDrift.Text.Blank
import DocDrift.Text.Identifier

/-!
Integers as users write them: an optional sign and decimal digits of any script, with single
underscores between digits and blanks around the whole.
-/

namespace DocDrift.Number

/-- The blanks that may stand around an integer: all but the four field separators. -/
def isMargin (c : Char) : Bool := Text.isBlank c && !(0x1c ≤ c.toNat && c.toNat ≤ 0x1f)

/-- The digits of a text that starts with a digit and has single underscores between digits only. -/
def digitValues : Text → Option (List Nat)
  | [] => none
  | [c] => (Text.decimalValue? c).map ([·])
  | c :: '_' :: rest => do
    let digit ← Text.decimalValue? c
    let more ← digitValues rest
    return digit :: more
  | c :: rest => do
    let digit ← Text.decimalValue? c
    let more ← digitValues rest
    return digit :: more

def maxDigits : Nat := 4300

def parseNatural (text : Text) : Option Nat := do
  let digits ← digitValues text
  if digits.length ≤ maxDigits then return digits.foldl (fun n digit => 10 * n + digit) 0 else none

def parseInteger (text : Text) : Option Int :=
  match ((text.dropWhile isMargin).reverse.dropWhile isMargin).reverse with
  | '-' :: digits => (parseNatural digits).map fun n => -(n : Int)
  | '+' :: digits => (parseNatural digits).map fun n => (n : Int)
  | digits => (parseNatural digits).map fun n => (n : Int)

end DocDrift.Number
