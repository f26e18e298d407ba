import DocDrift.Text.Basic

/-!
Spans: half-open ranges of code points of a source text. Text is held as spans and resolved only
where it is compared or shown.
-/

namespace DocDrift

/-- The range from `start` up to and excluding `stop`. Bounds are signed, as in `Text.slice`. -/
structure Span where
  start : Int
  stop : Int
  deriving DecidableEq, Repr, Inhabited

namespace Span

def resolve (span : Span) (source : Text) : Text := source.slice span.start span.stop

/-- The same range, `distance` code points further on. -/
def shift (span : Span) (distance : Int) : Span := ⟨span.start + distance, span.stop + distance⟩

end Span
end DocDrift
