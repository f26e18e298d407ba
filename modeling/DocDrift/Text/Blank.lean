import DocDrift.Text.Basic

/-!
Blank characters and trimming. Besides the space, the blank characters are the line and field
separators of the control ranges and the spaces of the general punctuation block; zero-width
characters are not blank.
-/

namespace DocDrift.Text

/-- The blank characters, as closed ranges of code points. -/
def blankRanges : List (Nat × Nat) :=
  [(0x09, 0x0d), (0x1c, 0x20), (0x85, 0x85), (0xa0, 0xa0), (0x1680, 0x1680), (0x2000, 0x200a),
   (0x2028, 0x2029), (0x202f, 0x202f), (0x205f, 0x205f), (0x3000, 0x3000)]

def inRanges (ranges : List (Nat × Nat)) (n : Nat) : Bool :=
  ranges.any fun r => r.1 ≤ n && n ≤ r.2

def isBlank (c : Char) : Bool := inRanges blankRanges c.toNat

/-- Without the blank characters at the front. -/
def trimFront (text : Text) : Text := text.dropWhile isBlank

/-- Without the blank characters at the back. -/
def trimBack (text : Text) : Text := (text.reverse.dropWhile isBlank).reverse

/-- Without the blank characters at both ends. -/
def trim (text : Text) : Text := trimBack (trimFront text)

/-- The number of blank characters at the front. -/
def indentation (line : Text) : Nat := line.length - (trimFront line).length

end DocDrift.Text
