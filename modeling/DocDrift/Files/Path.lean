import DocDrift.Text.Basic

/-!
Paths of files and directories, by their components. Two spellings that differ in repeated slashes,
single dots or a trailing slash are one path; double dots stay as they are written.
-/

namespace DocDrift

structure Path where
  /-- The leading slashes that count: none, one, or exactly two. -/
  root : Text
  parts : List Text
  deriving DecidableEq, Repr

namespace Path

/-- Three or more leading slashes count as one. -/
def rootOf (text : Text) : Text :=
  match (text.takeWhile (· == '/')).length with
  | 0 => []
  | 2 => ['/', '/']
  | _ => ['/']

def ofText (text : Text) : Path :=
  ⟨rootOf text, (Text.splitAt '/' text).filter fun part => part ≠ [] && part ≠ ['.']⟩

/-- The path as shown; the path without components is `.`. -/
def render (path : Path) : Text :=
  if path.root = [] && path.parts = [] then ['.']
  else path.root ++ Text.join ['/'] path.parts

def toString (path : Path) : String := String.ofList path.render

/-- The components in the order in which paths are compared: the root, if any, comes first. -/
def key (path : Path) : List Text := if path.root = [] then path.parts else path.root :: path.parts

def keyLess : List Text → List Text → Bool
  | _, [] => false
  | [], _ :: _ => true
  | a :: s, b :: t => Text.less a b || (a == b && keyLess s t)

/-- The order of paths, component by component. Between a relative and an absolute path with the
same components, the relative one comes first. -/
def less (a b : Path) : Bool :=
  keyLess a.key b.key || (a.key == b.key && a.root.isEmpty && !b.root.isEmpty)

def append (path : Path) (parts : List Text) : Path := ⟨path.root, path.parts ++ parts⟩

end Path
end DocDrift
