import DocDrift.Docstring.Style
import DocDrift.Signature.Basic
import DocDrift.Text.Blank
import DocDrift.Text.Lines

/-!
The section of a docstring that documents parameters. Reading is line by line: the lines at exactly
the indentation of the first entry are the entries, and deeper lines continue the entry above them.
-/

namespace DocDrift.Docstring

namespace Convention

def header : Convention → Text
  | google => "Args:\n".toList
  | numpy => "Parameters\n".toList

def terminators : Convention → List Text
  | google => ["Yields:\n".toList, "Returns:\n".toList, "Raises:\n".toList]
  | numpy => ["Returns\n".toList]

/-- The lines at the front of the section that hold no entry, such as an underline. -/
def leadingLines : Convention → Nat
  | google => 0
  | numpy => 1

end Convention

/-- The offset of the first occurrence of any of the needles, or the length of the text. -/
def firstOf (needles : List Text) (text : Text) : Nat :=
  (needles.filterMap (Text.find · text)).foldl min text.length

/-- The text before its first blank line: a line feed, blanks, and another line feed. -/
def beforeBlankLine : Text → Text
  | [] => []
  | c :: rest =>
    if c = '\n' && (rest.dropWhile fun d => d != '\n' && Text.isBlank d).head? == some '\n' then []
    else c :: beforeBlankLine rest

/-- Whether a line starts an entry: it has more than the indentation, and exactly that much of it. -/
def isEntry (indentation : Nat) (line : Text) : Bool :=
  indentation < line.length && Text.indentation line == indentation

/-- The suffix that marks a documented parameter as optional. -/
def optionalMark : Text := ", optional".toList

/-- Reads `name (type): description`. A line without a colon is no parameter; without a space before
the colon there is no type. -/
def googleEntry (line : Text) : Option Parameter :=
  (Text.cut [':'] line).map fun (argument, _) =>
    let argument := Text.trim argument
    match Text.cut [' '] argument with
    | none => ⟨argument, none⟩
    | some (name, type) =>
      let type := Text.dropBack [')'] (Text.dropFront ['('] (Text.trim type))
      ⟨name, some (Text.dropBack optionalMark type)⟩

/-- Reads `name : type`. A line of nothing but quotes closes the docstring and is no parameter. -/
def numpyEntry (line : Text) : Option Parameter :=
  let quotes := fun c => c == '\x27' || c == '\x22'
  if (Text.trim line).all quotes then none
  else match Text.cut [':'] line with
    | some (name, type) => some ⟨Text.trim name, some (Text.trim type)⟩
    | none => some ⟨Text.trim line, none⟩

def Convention.entry : Convention → Text → Option Parameter
  | google => googleEntry
  | numpy => numpyEntry

structure SectionOptions where
  breakOnBlankLine : Bool
  skipVariadics : Bool
  deriving DecidableEq, Repr

/-- The lines of the text after a section header, up to the end of the section. -/
def sectionLines (convention : Convention) (options : SectionOptions) (text : Text) : List Text :=
  let body := text.take (firstOf convention.terminators text)
  Text.lines (if options.breakOnBlankLine then beforeBlankLine body else body)

/-- The parameters that some lines document. The first line sets the indentation of entries. -/
def entriesOf (convention : Convention) (options : SectionOptions) (lines : List Text) :
    List Parameter :=
  let documented := (lines.filter (isEntry (Text.indentation (lines.headD [])))).filterMap
    convention.entry
  documented.filter fun parameter => !(options.skipVariadics && parameter.isVariadic)

/-- The parameters that a docstring documents under one convention, if it has a section of it with
at least one line. -/
def parseSection (convention : Convention) (options : SectionOptions) (docstring : Text) :
    Option (List Parameter) :=
  match Text.cut convention.header docstring with
  | none => none
  | some (_, text) =>
    match (sectionLines convention options text).drop convention.leadingLines with
    | [] => none
    | lines => some (entriesOf convention options lines)

/-- The parameters that a docstring documents. Under the automatic style the Google reading wins
where there is one. -/
def parse (style : Style) (options : SectionOptions) (docstring : Text) :
    Option (List Parameter) :=
  match style with
  | .fixed convention => parseSection convention options docstring
  | .auto =>
    (parseSection .google options docstring).or (parseSection .numpy options docstring)

def detect (options : SectionOptions) (docstring : Text) : Option Convention :=
  [Convention.google, .numpy].find? fun convention =>
    (parseSection convention options docstring).isSome

end DocDrift.Docstring
