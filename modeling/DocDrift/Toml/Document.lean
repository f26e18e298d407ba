import DocDrift.Toml.Scalar

/-!
Configuration documents: tables of values under dotted keys. A table may be declared once, a value
may be given once, and a table or array written inline can not be changed afterwards.
-/

namespace DocDrift.Toml

open Config (Value)

abbrev Key := List Text

abbrev Entries := List (Text × Value)

def isBareKeyChar (c : Char) : Bool := c.isAlphanum || c = '-' || c = '_'

/-- One part of a key: bare, or quoted on one line. -/
def splitKeyPart (text : Text) : Option (Text × Text) :=
  match text with
  | [] => none
  | c :: _ =>
    if isBareKeyChar c then some (text.takeWhile isBareKeyChar, text.dropWhile isBareKeyChar)
    else splitLineString text

/-- A key: parts with points between them. The blanks around parts do not count. The fuel is the
length of the text. -/
def splitKey : Nat → Text → Option (Key × Text)
  | 0, _ => none
  | fuel + 1, text =>
    match splitKeyPart text with
    | none => none
    | some (part, rest) =>
      match rest.dropWhile isSpace with
      | '.' :: more =>
        (splitKey fuel (more.dropWhile isSpace)).map fun (key, after) => (part :: key, after)
      | after => some ([part], after)

/-- What follows a comment at the front of a text, if there is one. A comment holds no control
characters. -/
def skipComment (text : Text) : Option Text :=
  match text with
  | '#' :: rest =>
    if (rest.takeWhile (· ≠ '\n')).any isControl then none else some (rest.dropWhile (· ≠ '\n'))
  | _ => some text

/-- What follows the blanks, line ends and comments inside an array. The fuel is the length of the
text. -/
def skipBetween : Nat → Text → Option Text
  | 0, text => some text
  | fuel + 1, text =>
    match text.dropWhile isSpaceOrNewline with
    | '#' :: rest => skipComment ('#' :: rest) >>= skipBetween fuel
    | after => some after

/-- Changes the table under a key, which is made if it is missing. An array stands for its last
table if `throughArrays` allows it. -/
def updateTable (throughArrays : Bool) (change : Entries → Option Entries) :
    Key → Entries → Option Entries
  | [], entries => change entries
  | part :: rest, entries =>
    match Value.lookup entries part with
    | none =>
      (updateTable throughArrays change rest []).map fun inner => entries ++ [(part, .table inner)]
    | some (.table inner) =>
      (updateTable throughArrays change rest inner).map fun changed =>
        Value.assign entries part (.table changed)
    | some (.list items) =>
      match throughArrays, items.getLast? with
      | true, some (.table inner) =>
        (updateTable throughArrays change rest inner).map fun changed =>
          Value.assign entries part (.list (items.dropLast ++ [.table changed]))
      | _, _ => none
    | some _ => none

/-- Gives a key of a table its value, once. -/
def putNew (stem : Text) (value : Value) (entries : Entries) : Option Entries :=
  if (Value.lookup entries stem).isSome then none else some (entries ++ [(stem, value)])

/-- A key before its last part, and the last part. -/
def splitStem (key : Key) : Key × Text := (key.dropLast, key.getLast?.getD [])

def isInline : Value → Bool
  | .list _ => true
  | .table _ => true
  | _ => false

/-- Whether a key lies at or below one of some keys. -/
def isBelow (keys : List Key) (key : Key) : Bool := keys.any (·.isPrefixOf key)

mutual

/-- A value at the front of a text. The fuel bounds the depth of the recursion by the length of the
text. -/
def splitValue : Nat → Text → Option (Value × Text)
  | 0, _ => none
  | fuel + 1, text =>
    match text with
    | '[' :: rest =>
      match skipBetween rest.length rest with
      | none => none
      | some (']' :: after) => some (.list [], after)
      | some items => (splitItems fuel items).map fun (values, after) => (.list values, after)
    | '\x7b' :: rest =>
      match rest.dropWhile isSpace with
      | '\x7d' :: after => some (.table [], after)
      | pairs => (splitPairs fuel [] [] pairs).map fun (entries, after) => (.table entries, after)
    | _ => splitScalar text

/-- The items of an array up to its closing bracket. A comma may follow the last one. -/
def splitItems : Nat → Text → Option (List Value × Text)
  | 0, _ => none
  | fuel + 1, text => do
    let (value, rest) ← splitValue fuel text
    let rest ← skipBetween rest.length rest
    match rest with
    | ']' :: after => some ([value], after)
    | ',' :: more =>
      let more ← skipBetween more.length more
      match more with
      | ']' :: after => some ([value], after)
      | _ => (splitItems fuel more).map fun (values, after) => (value :: values, after)
    | _ => none

/-- The pairs of an inline table up to its closing brace, laid over `entries`. The keys of arrays and
tables written inline are `sealed`. -/
def splitPairs : Nat → Entries → List Key → Text → Option (Entries × Text)
  | 0, _, _, _ => none
  | fuel + 1, entries, sealedKeys, text => do
    let (key, rest) ← splitKey text.length text
    let rest ← splitMark '=' rest
    let (value, rest) ← splitValue fuel (rest.dropWhile isSpace)
    if isBelow sealedKeys key then none
    else
      let (parent, stem) := splitStem key
      let entries ← updateTable false (putNew stem value) parent entries
      match rest.dropWhile isSpace with
      | '\x7d' :: after => some (entries, after)
      | ',' :: more =>
        splitPairs fuel entries (if isInline value then key :: sealedKeys else sealedKeys)
          (more.dropWhile isSpace)
      | _ => none

end

/-- A document as far as it is read. -/
structure Draft where
  entries : Entries := []
  /-- The table to which the next pairs belong. -/
  header : Key := []
  /-- The tables that can not be declared again. -/
  declared : List Key := []
  /-- The tables that dotted keys made since the last header, declared from the next header on. -/
  pending : List Key := []
  /-- The keys of arrays and tables written inline. -/
  sealedKeys : List Key := []

namespace Draft

def declareTable (draft : Draft) (key : Key) : Option Draft :=
  if draft.declared.contains key || isBelow draft.sealedKeys key then none
  else
    (updateTable true some key draft.entries).map fun entries =>
      { draft with entries, header := key, declared := key :: draft.declared }

/-- Adds an empty table to the array under a key. What was declared below the key was declared of an
earlier table of the array. -/
def appendTable (draft : Draft) (key : Key) : Option Draft :=
  if isBelow draft.sealedKeys key then none
  else
    let (parent, stem) := splitStem key
    let add := fun (entries : Entries) => match Value.lookup entries stem with
      | none => some (entries ++ [(stem, .list [.table []])])
      | some (.list items) => some (Value.assign entries stem (.list (items ++ [.table []])))
      | some _ => none
    let outside := fun (other : Key) => !key.isPrefixOf other
    (updateTable true add parent draft.entries).map fun entries =>
      { draft with
        entries
        header := key
        declared := key :: draft.declared.filter outside
        sealedKeys := draft.sealedKeys.filter outside }

/-- Gives a dotted key of the current table its value. -/
def putPair (draft : Draft) (key : Key) (value : Value) : Option Draft :=
  let (parent, stem) := splitStem key
  let opened := (List.range parent.length).map fun i => draft.header ++ parent.take (i + 1)
  if opened.any draft.declared.contains then none
  else if isBelow draft.sealedKeys (draft.header ++ parent) then none
  else
    (updateTable true (putNew stem value) (draft.header ++ parent) draft.entries).map fun entries =>
      { draft with
        entries
        pending := opened ++ draft.pending
        sealedKeys :=
          if isInline value then (draft.header ++ key) :: draft.sealedKeys else draft.sealedKeys }

/-- From a header on, the tables that dotted keys made count as declared. -/
def settle (draft : Draft) : Draft :=
  { draft with declared := draft.pending ++ draft.declared, pending := [] }

/-- One statement at the front of a text: a header or a pair. -/
def statement (draft : Draft) (text : Text) : Option (Draft × Text) :=
  match text with
  | '[' :: '[' :: rest => do
    let (key, rest) ← splitKey rest.length (rest.dropWhile isSpace)
    let draft ← draft.settle.appendTable key
    let after ← splitMark ']' rest >>= splitMark ']'
    some (draft, after)
  | '[' :: rest => do
    let (key, rest) ← splitKey rest.length (rest.dropWhile isSpace)
    let draft ← draft.settle.declareTable key
    let after ← splitMark ']' rest
    some (draft, after)
  | _ => do
    let (key, rest) ← splitKey text.length text
    let rest ← splitMark '=' rest
    let (value, after) ← splitValue (2 * text.length) (rest.dropWhile isSpace)
    let draft ← draft.putPair key value
    some (draft, after)

/-- Reads the statements of a text, one a line. The fuel is the length of the text. -/
def read (draft : Draft) : Nat → Text → Option Draft
  | 0, _ => some draft
  | fuel + 1, text =>
    match text.dropWhile isSpace with
    | [] => some draft
    | '\n' :: rest => read draft fuel rest
    | line => do
      let (draft, rest) ← if line.head? == some '#' then some (draft, line)
        else draft.statement line
      let rest ← skipComment (rest.dropWhile isSpace)
      match rest with
      | [] => some draft
      | '\n' :: more => read draft fuel more
      | _ => none

end Draft

/-- Each pair of carriage return and line feed as a line feed. -/
def unifyPairs : Text → Text
  | [] => []
  | '\r' :: '\n' :: rest => '\n' :: unifyPairs rest
  | c :: rest => c :: unifyPairs rest

/-- The top table of a document, if it is well-formed. -/
def parse (text : Text) : Option Entries :=
  let text := unifyPairs text
  (Draft.read {} (text.length + 1) text).map (·.entries)

end DocDrift.Toml
