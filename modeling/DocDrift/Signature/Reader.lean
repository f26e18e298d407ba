import DocDrift.Docstring.Literal
import DocDrift.Signature.Extraction
import DocDrift.Token.Scanner

/-!
Extraction by a forward scan. The reader never builds a tree: it steps through the tokens of a
source text once, and its state says what it knows of the function header that it stands in. A
signature is found as soon as the reader knows whether the function body opens with a docstring.
Parameters keep their annotation even when they have a default value.
-/

namespace DocDrift

/-- How many brackets of each kind are open. -/
structure Depth where
  round : Nat := 0
  square : Nat := 0
  curly : Nat := 0
  deriving DecidableEq, Repr

namespace Depth

def isFlat (depth : Depth) : Bool := depth.round == 0 && depth.square == 0 && depth.curly == 0

def enter (depth : Depth) : Bracket → Depth
  | .round => { depth with round := depth.round + 1 }
  | .square => { depth with square := depth.square + 1 }
  | .curly => { depth with curly := depth.curly + 1 }

/-- Leaves one bracket, unless none of its kind is open. -/
def leave? (depth : Depth) : Bracket → Option Depth
  | .round => if depth.round = 0 then none else some { depth with round := depth.round - 1 }
  | .square => if depth.square = 0 then none else some { depth with square := depth.square - 1 }
  | .curly => if depth.curly = 0 then none else some { depth with curly := depth.curly - 1 }

end Depth

structure Heading where
  define : Token
  name : Token
  deriving DecidableEq, Repr

/-- The two parts of a parameter entry that may nest brackets. -/
inductive EntryPart where
  | type
  | value
  deriving DecidableEq, Repr

/-- The state of the reader between two tokens. -/
inductive Reader where
  /-- Outside every header. -/
  | outside
  /-- After the word that defines a function, before its name. -/
  | defining (define : Token)
  /-- After the name, before the parameter list. -/
  | unopened (heading : Heading)
  /-- Before a parameter entry, or the end of the list. -/
  | entries (heading : Heading) (params : List Parameter)
  /-- After the name of an entry. -/
  | named (heading : Heading) (params : List Parameter) (name : Text)
  /-- Inside an entry's annotation or default value, the text of which begins at `start`. -/
  | inside (heading : Heading) (params : List Parameter) (name : Text) (type : Option Text)
      (part : EntryPart) (start : Nat) (depth : Depth)
  /-- After the parameter list, before the colon that ends the header. -/
  | closing (heading : Heading) (params : List Parameter) (depth : Int)
  /-- After the header, before the body. -/
  | body (heading : Heading) (params : List Parameter)
  deriving DecidableEq, Repr

structure Reading where
  source : Text
  skipVariadics : Bool
  deriving DecidableEq, Repr

namespace Reading

def keep (reading : Reading) (params : List Parameter) (name : Text) (type : Option Text) :
    List Parameter :=
  if Parameter.isKept reading.skipVariadics name then params ++ [⟨name, type⟩] else params

/-- The text between an entry's separator and the token that ends the part, without the blanks
around it. -/
def textBetween (reading : Reading) (start stop : Nat) : Text :=
  Text.trim (reading.source.slice start stop)

def signature (reading : Reading) (heading : Heading) (params : List Parameter)
    (docstring : Option Span) : Signature where
  source := reading.source
  nameSpan := ⟨heading.name.start, heading.name.stop⟩
  line := (LineIndex.ofText reading.source).lineOf heading.define.start
  params := params
  docstringSpan := docstring

def opensDocstring (token : Token) : Bool :=
  Docstring.delimiters.any fun delimiter => delimiter.isPrefixOf token.text

end Reading

namespace Reader

/-- The state after a token inside an annotation or default value. A comma outside all brackets ends
the entry, an equals sign there ends an annotation, and the round bracket that closes the list ends
both; every other closing bracket needs an open one of its kind. -/
def stepInside (reading : Reading) (heading : Heading) (params : List Parameter) (name : Text)
    (type : Option Text) (part : EntryPart) (start : Nat) (depth : Depth) (token : Token) :
    Except ScanError Reader :=
  let read := match part with
    | .type => some (reading.textBetween start token.start)
    | .value => type
  let stay := fun depth => .ok (.inside heading params name type part start depth)
  match token.kind with
  | .opening bracket => stay (depth.enter bracket)
  | .closing bracket =>
    match depth.leave? bracket with
    | some inner => stay inner
    | none =>
      if bracket = .round && depth.isFlat then .ok (.closing heading (reading.keep params name read) 0)
      else .error (.unbalancedBrackets token.start)
  | .comma =>
    if depth.isFlat then .ok (.entries heading (reading.keep params name read)) else stay depth
  | .equals =>
    if depth.isFlat && part = .type then
      .ok (.inside heading params name read .value token.stop ⟨0, 0, 0⟩)
    else stay depth
  | _ => stay depth

/-- The state after one more token, and the signature that the token completes, if it does. -/
def step (reading : Reading) (reader : Reader) (token : Token) :
    Except ScanError (Reader × Option Signature) :=
  match reader with
  | outside => .ok (if token.kind = .define then defining token else outside, none)
  | defining define =>
    if token.kind = .text then .ok (unopened ⟨define, token⟩, none)
    else .error (.nameExpected token.text token.start)
  | unopened heading =>
    .ok (if token.kind = .opening .round then entries heading [] else unopened heading, none)
  | entries heading params =>
    match token.kind with
    | .closing .round => .ok (closing heading params 0, none)
    | .text => .ok (named heading params token.text, none)
    | _ => .error (.unexpectedInList token.text token.start)
  | named heading params name =>
    match token.kind with
    | .colon => .ok (inside heading params name none .type token.stop ⟨0, 0, 0⟩, none)
    | .equals => .ok (inside heading params name none .value token.stop ⟨0, 0, 0⟩, none)
    | .comma => .ok (entries heading (reading.keep params name none), none)
    | .closing .round => .ok (closing heading (reading.keep params name none) 0, none)
    | _ => .error (.separatorExpected name token.start)
  | inside heading params name type part start depth =>
    (stepInside reading heading params name type part start depth token).map (·, none)
  | closing heading params depth =>
    match token.kind with
    | .opening _ => .ok (closing heading params (depth + 1), none)
    | .closing _ => .ok (closing heading params (depth - 1), none)
    | .colon => .ok (if depth = 0 then body heading params else closing heading params depth, none)
    | _ => .ok (closing heading params depth, none)
  | body heading params =>
    match token.kind with
    | .text =>
      if Reading.opensDocstring token then
        match Docstring.locate reading.source token.start none with
        | some span => .ok (outside, some (reading.signature heading params (some span)))
        | none => .error (.unterminatedDocstring token.start)
      else .ok (outside, some (reading.signature heading params none))
    | .define => .ok (defining token, some (reading.signature heading params none))
    | _ => .ok (body heading params, none)

/-- Why a source of the given length must not end in a state, if it must not. -/
def ended (length : Nat) : Reader → Option ScanError
  | outside => none
  | defining _ => some (.sourceEnded "after 'def'" length)
  | unopened _ => some (.sourceEnded "before the parameter list" length)
  | entries _ _ => some (.sourceEnded "inside a parameter list" length)
  | named _ _ _ => some (.sourceEnded "inside a parameter list" length)
  | inside _ _ _ _ _ _ _ => some (.unclosedList length)
  | closing _ _ _ => some (.sourceEnded "before the end of the function header" length)
  | body _ _ => some (.sourceEnded "before the function body" length)

/-- Steps through the tokens from a state on. -/
def run (reading : Reading) (reader : Reader) : List Token → Extraction
  | [] => ⟨[], (reader.ended reading.source.length).map .scan⟩
  | token :: rest =>
    match reader.step reading token with
    | .ok (after, signature) => .found signature (run reading after rest)
    | .error error => .failed (.scan error)

end Reader

/-- The signatures that a forward scan finds in a source text. -/
def Reading.extract (reading : Reading) : Extraction :=
  Reader.run reading .outside (Token.scan reading.source)

end DocDrift
