import DocDrift.Command.Word
import DocDrift.Config.Basic
import DocDrift.Files.Discovery
import DocDrift.Number.Integer

/-!
The arguments of a run, read from the words of a command line in order. The operands that stand
together first are the paths to check; operands after a later option are too many.
-/

namespace DocDrift.Command

structure Arguments where
  paths : List Path := [⟨[], []⟩]
  glob : Text := Discovery.defaultPattern
  strategy : Option Strategy := none
  style : Option Docstring.Style := none
  breakOnEmptyLine : Bool := false
  forbidNoDocstring : Bool := false
  forbidNoArgsSection : Bool := false
  forbidUntyped : Bool := false
  allowVariadics : Bool := false
  config : Option Path := none
  jobs : Option Int := none
  verbose : Bool := false
  quiet : Bool := false
  deriving DecidableEq, Repr

inductive Stop where
  | usage
  | help
  | version
  deriving DecidableEq, Repr

namespace Arguments

/-- Turns on a switch. A run cannot be both verbose and quiet. -/
def turnOn (arguments : Arguments) : Switch → Except Stop Arguments
  | .help => .error .help
  | .version => .error .version
  | .breakOnEmptyLine => .ok { arguments with breakOnEmptyLine := true }
  | .forbidNoDocstring => .ok { arguments with forbidNoDocstring := true }
  | .forbidNoArgsSection => .ok { arguments with forbidNoArgsSection := true }
  | .forbidUntyped => .ok { arguments with forbidUntyped := true }
  | .allowVariadics => .ok { arguments with allowVariadics := true }
  | .verbose => if arguments.quiet then .error .usage else .ok { arguments with verbose := true }
  | .quiet => if arguments.verbose then .error .usage else .ok { arguments with quiet := true }

/-- Gives a setting its value; a later one replaces an earlier one. -/
def give (arguments : Arguments) (text : Text) : Setting → Except Stop Arguments
  | .glob => .ok { arguments with glob := text }
  | .config => .ok { arguments with config := some (Path.ofText text) }
  | .strategy =>
    match Strategy.ofLabel? (String.ofList text) with
    | some strategy => .ok { arguments with strategy := some strategy }
    | none => .error .usage
  | .style =>
    match Docstring.Style.ofLabel? (String.ofList text) with
    | some style => .ok { arguments with style := some style }
    | none => .error .usage
  | .jobs =>
    match Number.parseInteger text with
    | some count => .ok { arguments with jobs := some count }
    | none => .error .usage

end Arguments

inductive Phase where
  | before
  | within
  | after
  deriving DecidableEq, Repr

structure Reading where
  arguments : Arguments := {}
  operands : List Text := []
  phase : Phase := .before
  /-- Whether a word had no place. -/
  excess : Bool := false
  deriving DecidableEq, Repr

namespace Reading

/-- An operand belongs to the paths if it stands in their row. -/
def operand (reading : Reading) (text : Text) : Reading :=
  match reading.phase with
  | .after => { reading with excess := true }
  | _ => { reading with operands := reading.operands ++ [text], phase := .within }

/-- The separator begins or continues the row of operands. -/
def separator (reading : Reading) : Reading :=
  match reading.phase with
  | .after => { reading with excess := true }
  | _ => { reading with phase := .within }

/-- An option ends the row of operands. -/
def closeOperands (reading : Reading) : Reading :=
  match reading.phase with
  | .within => { reading with phase := .after }
  | _ => reading

def turnOn (reading : Reading) (switches : List Switch) : Except Stop Reading :=
  (switches.foldlM Arguments.turnOn reading.arguments).map fun arguments =>
    { reading.closeOperands with arguments := arguments }

def give (reading : Reading) (setting : Setting) (text : Text) : Except Stop Reading :=
  (reading.arguments.give text setting).map fun arguments => { reading with arguments := arguments }

def read (reading : Reading) : List Word → Except Stop Reading
  | [] => .ok reading
  | .operand text :: rest => read (reading.operand text) rest
  | .separator :: rest => read reading.separator rest
  | .refused :: _ => .error .usage
  | .options switches .nothing :: rest =>
    match reading.turnOn switches with
    | .ok next => read next rest
    | .error stop => .error stop
  | .options switches .unknown :: rest =>
    match reading.turnOn switches with
    | .ok next => read { next with excess := true } rest
    | .error stop => .error stop
  | .options switches (.value setting text) :: rest =>
    match reading.turnOn switches >>= fun next => next.give setting text with
    | .ok next => read next rest
    | .error stop => .error stop
  | .options switches (.next setting) :: .operand text :: rest =>
    match reading.turnOn switches >>= fun next => next.give setting text with
    | .ok next => read next rest
    | .error stop => .error stop
  | .options _ (.next _) :: _ => .error .usage

/-- The arguments of a command line that is read to its end. -/
def finish (reading : Reading) : Except Stop Arguments :=
  if reading.excess then .error .usage
  else if reading.operands.isEmpty then .ok reading.arguments
  else .ok { reading.arguments with paths := reading.operands.map Path.ofText }

end Reading

def Arguments.parse (line : List Text) : Except Stop Arguments :=
  match Word.read line with
  | none => .error .usage
  | some words => Reading.read {} words >>= Reading.finish

end DocDrift.Command
