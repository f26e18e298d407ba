import DocDrift.Command.Basic

/-!
The command line program: reads the files that its arguments name, runs the command on them, and
writes its log and its complaint to the standard error stream.
-/

namespace DocDrift.Main

/-- Reads a file, or a directory with all that is below it; nothing if there is neither. -/
partial def readNode (path : String) : IO (Option FileNode) := do
  try
    let entries ← (← IO.FS.realPath path).readDir
    let mut inner := #[]
    for entry in entries do
      if let some node ← readNode entry.path.toString then
        inner := inner.push (entry.fileName.toList, node)
    return some (.folder inner.toList)
  catch _ =>
    try
      return some (.file (← IO.FS.readBinFile path).toList)
    catch _ => return none

/-- The components of an absolute path without double dots, each of which takes back the component
before it. -/
def resolve (parts : List Text) : List Text :=
  (parts.foldl (fun done part => if part = ['.', '.'] then done.drop 1 else part :: done)
    []).reverse

/-- The files that arguments name, and the configuration file. -/
def readTree (arguments : Command.Arguments) : IO FileTree := do
  let working := (Path.ofText (← IO.currentDir).toString.toList).parts
  let mut top := FileNode.insert (.folder []) working []
  for path in (arguments.config.getD Command.usualConfigPath) :: arguments.paths do
    if let some node ← readNode path.toString then
      let parts := resolve (if path.root = [] then working ++ path.parts else path.parts)
      top := if parts.isEmpty then node.entries else FileNode.insert node parts top
  return ⟨.folder top, working⟩

def describe : Command.Abort → String
  | .toolNotATable => "the entry tool of the configuration file is not a table"
  | .unreadableConfig error => error.message
  | .interrupted (.badPattern error) => error.message
  | .interrupted .uncaught => "checking a file ended without a result"

def usageLine : String := "usage: " ++ Command.name ++ " [options] [paths ...]"

/-- Runs the command on the arguments of the program. -/
def start (args : List String) : IO UInt32 := do
  match Command.Arguments.parse (args.map String.toList) with
  | .error .usage =>
    IO.eprintln usageLine
    return UInt32.ofNat Command.usageError
  | .error .help =>
    IO.println usageLine
    return UInt32.ofNat Command.success
  | .error .version =>
    IO.println Command.versionLine
    return UInt32.ofNat Command.success
  | .ok arguments =>
    match Command.run (← readTree arguments) arguments with
    | .ok ending =>
      for record in ending.log do
        IO.eprintln record.message
      for complaint in ending.complaint do
        IO.eprintln complaint
      return UInt32.ofNat ending.code
    | .error abort =>
      IO.eprintln (describe abort)
      return UInt32.ofNat Command.failure

end DocDrift.Main

def main (args : List String) : IO UInt32 := DocDrift.Main.start args
