import DocDrift.Files.Tree

/-!
Patterns for files below a directory. A pattern is read like a path, component by component. A
component of two stars stands for any number of directories; in every other one a star stands for
any text, a question mark for any character, and brackets for one character of a set.
-/

namespace DocDrift.Glob

/-- One step of a component that holds wildcards. -/
inductive Atom where
  | char (c : Char)
  | anyChar
  | anyText
  /-- One character inside the ranges, or outside all of them. -/
  | set (negated : Bool) (ranges : List (Char × Char))
  deriving DecidableEq, Repr

/-- The ranges of a set. A dash between two characters makes a range, which is empty if they stand in
the wrong order. -/
def rangesOf : Text → List (Char × Char)
  | a :: '-' :: b :: rest => if a.toNat ≤ b.toNat then (a, b) :: rangesOf rest else rangesOf rest
  | a :: rest => (a, a) :: rangesOf rest
  | [] => []

def setOf : Text → Atom
  | '!' :: ranges => .set true (rangesOf ranges)
  | ranges => .set false (rangesOf ranges)

/-- Splits a set at its closing bracket. A closing bracket right after the opening one, or after the
mark that negates the set, belongs to the set. -/
def splitSet (text : Text) : Option (Text × Text) :=
  let lead := match text with
    | '!' :: ']' :: _ => 2
    | '!' :: _ => 1
    | ']' :: _ => 1
    | _ => 0
  match (text.drop lead).dropWhile (· ≠ ']') with
  | _ :: after => some (text.take (text.length - after.length - 1), after)
  | [] => none

/-- The atoms of a component. An opening bracket without a closing one stands for itself. The fuel is
the length of the text. -/
def atoms : Nat → Text → List Atom
  | 0, _ => []
  | _, [] => []
  | fuel + 1, c :: rest =>
    if c = '*' then .anyText :: atoms fuel rest
    else if c = '?' then .anyChar :: atoms fuel rest
    else if c = '[' then
      match splitSet rest with
      | some (inner, after) => setOf inner :: atoms fuel after
      | none => .char c :: atoms fuel rest
    else .char c :: atoms fuel rest

def inSet (c : Char) (ranges : List (Char × Char)) : Bool :=
  ranges.any fun r => r.1.toNat ≤ c.toNat && c.toNat ≤ r.2.toNat

/-- What is left of a name after any text at its front. -/
def suffixes : Text → List Text
  | [] => [[]]
  | c :: rest => (c :: rest) :: suffixes rest

def fits (c : Char) : Atom → Bool
  | .char d => c == d
  | .set negated ranges => inSet c ranges != negated
  | _ => true

def matchAtoms : List Atom → Text → Bool
  | [], name => name.isEmpty
  | .anyText :: rest, name => (suffixes name).any (matchAtoms rest)
  | atom :: rest, c :: name => fits c atom && matchAtoms rest name
  | _ :: _, [] => false

inductive Component where
  /-- Any number of directories. -/
  | anyFolders
  | wildcard (atoms : List Atom)
  | exactly (name : Text)
  /-- The end of a pattern that ends in a slash: a directory itself. -/
  | itself
  deriving DecidableEq, Repr

inductive PatternError where
  | emptyPattern
  | starsInComponent
  | absolutePattern
  /-- The pattern names the directory itself. -/
  | noComponent
  /-- The pattern names the directory itself, with a slash at the end. -/
  | onlySlash
  deriving DecidableEq, Repr

def PatternError.message : PatternError → String
  | emptyPattern => "Unacceptable pattern: ''"
  | starsInComponent => "Invalid pattern: '**' can only be an entire path component"
  | absolutePattern => "Non-relative patterns are unsupported"
  | noComponent => "Pattern without a component"
  | onlySlash => "Pattern without a component before its slash"

def component (part : Text) : Except PatternError Component :=
  if part = ['*', '*'] then .ok .anyFolders
  else if (Text.find ['*', '*'] part).isSome then .error .starsInComponent
  else if part.any fun c => c = '*' || c = '?' || c = '[' then
    .ok (.wildcard (atoms part.length part))
  else .ok (.exactly part)

def parse (pattern : Text) : Except PatternError (List Component) := do
  if pattern.isEmpty then .error .emptyPattern
  else
    let path := Path.ofText pattern
    let slash := pattern.getLast? = some '/'
    if path.root ≠ [] then .error .absolutePattern
    else if path.parts = [] then .error (if slash then .onlySlash else .noComponent)
    else
      let components ← path.parts.mapM component
      .ok (components ++ if slash then [.itself] else [])

mutual

/-- The components of a directory and of the directories below it, from its own. -/
def foldersUnder : FileNode → List (List Text)
  | .file _ => []
  | .folder entries => [] :: foldersIn entries

def foldersIn : List (Text × FileNode) → List (List Text)
  | [] => []
  | (name, node) :: rest => (foldersUnder node).map (name :: ·) ++ foldersIn rest

end

/-- The paths at or below a path that components match. Whatever has other components below it must
be a directory. -/
def select (tree : FileTree) : List Component → Path → List Path
  | [], path => [path]
  | .itself :: _, path => [path]
  | .exactly name :: rest, path =>
    let inner := path.append [name]
    if (if rest.isEmpty then tree.pathExists inner else tree.isFolder inner) then
      select tree rest inner
    else []
  | .wildcard atoms :: rest, path =>
    ((tree.node? path).map (·.entries)).getD [] |>.flatMap fun (name, node) =>
      if matchAtoms atoms name && (rest.isEmpty || node.isFolder) then
        select tree rest (path.append [name])
      else []
  | .anyFolders :: rest, path =>
    ((tree.node? path).map foldersUnder).getD [] |>.flatMap fun parts =>
      select tree rest (path.append parts)

end DocDrift.Glob
