/-!
The conventions for the section of a docstring that documents parameters.
-/

namespace DocDrift.Docstring

inductive Convention where
  | google
  | numpy
  deriving DecidableEq, Repr

/-- The convention that a run expects, or either of the two. -/
inductive Style where
  | fixed (convention : Convention)
  | auto
  deriving DecidableEq, Repr

namespace Convention

def label : Convention → String
  | google => "google"
  | numpy => "numpy"

end Convention

namespace Style

def all : List Style := [.fixed .google, .fixed .numpy, .auto]

def label : Style → String
  | fixed convention => convention.label
  | auto => "auto"

def ofLabel? (label : String) : Option Style := all.find? (·.label == label)

end Style
end DocDrift.Docstring
