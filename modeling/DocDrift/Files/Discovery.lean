import DocDrift.Files.Glob

/-!
The files that given paths stand for: a directory stands for the files in it that a pattern selects,
and any other path for itself. They are listed once each, in the order of paths.
-/

namespace DocDrift.Discovery

/-- Puts a path into an increasing list, unless it is there. -/
def insert (path : Path) : List Path → List Path
  | [] => [path]
  | first :: rest =>
    if path.less first then path :: first :: rest
    else if first.less path then first :: insert path rest
    else first :: rest

/-- The paths of a list, each of them once, in increasing order. -/
def sorted (paths : List Path) : List Path := paths.foldr insert []

/-- The files that one path stands for. The pattern is read only for a directory. -/
def expand (tree : FileTree) (pattern : Text) (path : Path) :
    Except Glob.PatternError (List Path) :=
  if tree.isFolder path then
    (Glob.parse pattern).map fun components =>
      (Glob.select tree components path).filter tree.isFile
  else .ok [path]

def discover (tree : FileTree) (pattern : Text) (paths : List Path) :
    Except Glob.PatternError (List Path) :=
  (paths.mapM (expand tree pattern)).map fun found => sorted found.flatten

/-- The pattern that selects sources at any depth. -/
def defaultPattern : Text := "**/*.py".toList

end DocDrift.Discovery
