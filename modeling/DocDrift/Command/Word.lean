import DocDrift.Text.Identifier

/-!
The words of a command line. A word is an operand, the separator after which every word is an
operand, or it asks for options. Long options may be shortened as long as one option fits, and take
a value after an equals sign; the letters of short options may be joined, and the last of them takes
what follows as its value.
-/

namespace DocDrift.Command

/-- An option without a value. -/
inductive Switch where
  | help
  | breakOnEmptyLine
  | forbidNoDocstring
  | forbidNoArgsSection
  | forbidUntyped
  | allowVariadics
  | verbose
  | quiet
  | version
  deriving DecidableEq, Repr

/-- An option that needs a value. -/
inductive Setting where
  | glob
  | strategy
  | style
  | config
  | jobs
  deriving DecidableEq, Repr

/-- What a name of an option stands for. -/
inductive Meaning where
  | switch (switch : Switch)
  | setting (setting : Setting)
  deriving DecidableEq, Repr

/-- The names of the options that begin with two dashes. -/
def longNames : List (Text × Meaning) :=
  [("--help".toList, .switch .help), ("--glob".toList, .setting .glob),
   ("--strategy".toList, .setting .strategy), ("--docstring-style".toList, .setting .style),
   ("--break-on-empty-line".toList, .switch .breakOnEmptyLine),
   ("--forbid-no-docstring".toList, .switch .forbidNoDocstring),
   ("--forbid-no-args-in-docstring".toList, .switch .forbidNoArgsSection),
   ("--forbid-untyped-docstrings".toList, .switch .forbidUntyped),
   ("--allow-variadics".toList, .switch .allowVariadics), ("--config".toList, .setting .config),
   ("--jobs".toList, .setting .jobs), ("--verbose".toList, .switch .verbose),
   ("--quiet".toList, .switch .quiet), ("--version".toList, .switch .version)]

def ofLetter? : Char → Option Meaning
  | 'h' => some (.switch .help)
  | 'j' => some (.setting .jobs)
  | 'v' => some (.switch .verbose)
  | 'q' => some (.switch .quiet)
  | _ => none

/-- How the options of a word end. -/
inductive Last where
  | nothing
  /-- An option that nobody knows. -/
  | unknown
  /-- An option with the value that the word gives it. -/
  | value (setting : Setting) (text : Text)
  /-- An option whose value is the next word. -/
  | next (setting : Setting)
  deriving DecidableEq, Repr

inductive Word where
  | operand (text : Text)
  | separator
  | options (switches : List Switch) (last : Last)
  /-- A value for an option that takes none. -/
  | refused
  deriving DecidableEq, Repr

namespace Word

/-- The options that the letters after a dash stand for, where `switches` are read already. An
equals sign gives a value to the option before it. -/
def ofLetters (switches : List Switch) : Text → Word
  | [] => .options switches .nothing
  | letter :: rest =>
    if letter = '-' then .refused
    else match ofLetter? letter, rest with
      | none, _ => .options switches .unknown
      | some (.switch _), '=' :: _ => .refused
      | some (.switch switch), _ => ofLetters (switches ++ [switch]) rest
      | some (.setting setting), [] => .options switches (.next setting)
      | some (.setting setting), '=' :: value => .options switches (.value setting value)
      | some (.setting setting), value => .options switches (.value setting value)

def ofName (meaning : Meaning) (value : Option Text) : Word :=
  match meaning, value with
  | .switch switch, none => .options [switch] .nothing
  | .switch _, some _ => .refused
  | .setting setting, none => .options [] (.next setting)
  | .setting setting, some text => .options [] (.value setting text)

/-- The options that a name fits: the one that has the name, or else those whose names it begins. -/
def candidates (name : Text) : List Meaning :=
  match longNames.find? fun entry => entry.1 == name with
  | some entry => [entry.2]
  | none => (longNames.filter fun entry => name.isPrefixOf entry.1).map (·.2)

def splitName (text : Text) : Text × Option Text :=
  match text.span (· ≠ '=') with
  | (name, _ :: value) => (name, some value)
  | (name, []) => (name, none)

def isDecimal (c : Char) : Bool := (Text.decimalValue? c).isSome

/-- Whether a text is a negative number: a dash and digits, perhaps with a point that digits follow.
A line feed at the end does not count. -/
def isNegativeNumber (text : Text) : Bool :=
  match Text.dropBack ['\n'] text with
  | '-' :: number =>
    match number.dropWhile isDecimal with
    | [] => !number.isEmpty
    | '.' :: fraction => !fraction.isEmpty && fraction.all isDecimal
    | _ => false
  | _ => false

/-- A word that begins with a dash and names no option. -/
def ofUnknown (text : Text) : Word :=
  if isNegativeNumber text || text.contains ' ' then .operand text else .options [] .unknown

/-- Reads a word; none if its name fits several options. -/
def ofText? (text : Text) : Option Word :=
  match text with
  | '-' :: '-' :: _ =>
    let (name, value) := splitName text
    match candidates name with
    | [] => some (ofUnknown text)
    | [meaning] => some (ofName meaning value)
    | _ => none
  | '-' :: letter :: rest =>
    match ofLetter? letter with
    | some _ => some (ofLetters [] (letter :: rest))
    | none => some (ofUnknown text)
  | _ => some (.operand text)

/-- Reads the words of a command line; none if one of them fits several options. -/
def read : List Text → Option (List Word)
  | [] => some []
  | text :: rest =>
    if text = ['-', '-'] then some (.separator :: rest.map .operand)
    else match ofText? text, read rest with
      | some word, some words => some (word :: words)
      | _, _ => none

end Word
end DocDrift.Command
