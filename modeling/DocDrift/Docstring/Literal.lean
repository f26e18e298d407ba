import DocDrift.Source.Span

/-!
Locating a triple-quoted literal at the start of a block of source text.
-/

namespace DocDrift.Docstring

/-- The delimiters of a docstring, in the order in which they are tried. -/
def delimiters : List Text := [['\x22', '\x22', '\x22'], ['\x27', '\x27', '\x27']]

/-- The docstring that begins exactly at `start`, with its delimiters, inside the window that ends
at `stop` or at the end of the source. There is none if no delimiter opens the window or the opening
one is not closed inside it. Bounds are signed, as in `Text.slice`; the closing delimiter is looked
for from `start + 3` on. -/
def locate (source : Text) (start : Int) (stop : Option Int) : Option Span :=
  let limit := stop.getD source.length
  match delimiters.find? fun delimiter => delimiter.isPrefixOf (source.slice start limit) with
  | none => none
  | some delimiter =>
    (Text.find delimiter (source.slice (start + 3) limit)).map fun i =>
      ⟨start, (Text.bound source.length (start + 3) + i + 3 : Nat)⟩

def extract (block : Text) : Option Text := (locate block 0 none).map (·.resolve block)

end DocDrift.Docstring
