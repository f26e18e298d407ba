import DocDrift.Result
import DocDrift.Files.Utf8
import DocDrift.Text.Lines

/-!
The files that a run sees: directories of files and directories below a root, one of them the
working directory.
-/

namespace DocDrift

inductive FileNode where
  | file (bytes : List UInt8)
  | folder (entries : List (Text × FileNode))
  deriving Repr, Inhabited

namespace FileNode

def isFolder : FileNode → Bool
  | folder _ => true
  | file _ => false

def entries : FileNode → List (Text × FileNode)
  | folder entries => entries
  | file _ => []

def lookup (entries : List (Text × FileNode)) (name : Text) : Option FileNode :=
  (entries.find? fun entry => entry.1 == name).map (·.2)

/-- The entries with a node under a name, in place of an earlier one. -/
def replace (entries : List (Text × FileNode)) (name : Text) (node : FileNode) :
    List (Text × FileNode) :=
  match entries with
  | [] => [(name, node)]
  | entry :: rest => if entry.1 == name then (name, node) :: rest else entry :: replace rest name node

/-- Puts a node below some entries, with the directories above it. An existing directory keeps its
entries. -/
def insert (node : FileNode) : List Text → List (Text × FileNode) → List (Text × FileNode)
  | [], entries => entries
  | [name], entries =>
    match node, lookup entries name with
    | folder [], some (folder inner) => replace entries name (folder inner)
    | _, _ => replace entries name node
  | name :: rest, entries =>
    let inner := ((lookup entries name).map (·.entries)).getD []
    replace entries name (folder (insert node rest inner))

end FileNode

/-- The files below a root directory, and the names that lead from it to the working directory. -/
structure FileTree where
  root : FileNode
  workingFolder : List Text := []
  deriving Repr, Inhabited

namespace FileTree

inductive Target where
  | found (node : FileNode)
  | missing
  /-- A component before the last one is a file. -/
  | belowFile
  deriving Repr

/-- Follows components from a node, whose parents are given innermost first. The parent of the root
is the root itself. -/
def follow (parents : List FileNode) (node : FileNode) : List Text → Target
  | [] => .found node
  | part :: rest =>
    match node with
    | .file _ => .belowFile
    | .folder entries =>
      if part = ['.', '.'] then
        match parents with
        | parent :: outer => follow outer parent rest
        | [] => follow [] node rest
      else match FileNode.lookup entries part with
        | some inner => follow (node :: parents) inner rest
        | none => .missing

/-- Follows a path: from the root if it is absolute, else from the working directory. -/
def find (tree : FileTree) (path : Path) : Target :=
  follow [] tree.root (if path.root = [] then tree.workingFolder ++ path.parts else path.parts)

def node? (tree : FileTree) (path : Path) : Option FileNode :=
  match tree.find path with
  | .found node => some node
  | _ => none

def pathExists (tree : FileTree) (path : Path) : Bool := (tree.node? path).isSome

def isFolder (tree : FileTree) (path : Path) : Bool := (tree.node? path).any (·.isFolder)

def isFile (tree : FileTree) (path : Path) : Bool := (tree.node? path).any (!·.isFolder)

def bytes (tree : FileTree) (path : Path) : Except ReadError (List UInt8) :=
  match tree.find path with
  | .found (.file bytes) => .ok bytes
  | .found (.folder _) => .error (.isADirectory path)
  | .missing => .error (.notFound path)
  | .belowFile => .error (.notADirectory path)

/-- The text of a file, with its line ends unified. -/
def readText (tree : FileTree) (path : Path) : Except ReadError Text := do
  let bytes ← tree.bytes path
  let text ← Utf8.decode bytes
  .ok (Text.unifyLineEnds text)

end FileTree
end DocDrift
