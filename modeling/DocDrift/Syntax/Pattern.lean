import DocDrift.Syntax.Tree

/-!
Parsing by patterns. A pattern says which tokens it takes from the front of the input and which trees
it builds of them; alternatives are ordered, and the first one that matches wins. Patterns may call
named rules, so a grammar is a map from rule names to patterns.
-/

namespace DocDrift.Syntax

inductive Pattern (rule : Type) where
  /-- Matches without taking a token. -/
  | empty
  | token (accepts : Token → Bool)
  | call (name : rule)
  | seq (first second : Pattern rule)
  /-- The second pattern is tried where the first one fails. -/
  | alt (first second : Pattern rule)
  /-- As often as the pattern matches, and not less than never. -/
  | many (item : Pattern rule)
  /-- Takes nothing, and matches where the pattern does not. -/
  | absent (item : Pattern rule)
  /-- Puts what the pattern builds under one node. -/
  | build (form : Form) (item : Pattern rule)
  /-- What `first` builds, put under one node with what `more` builds if that follows. -/
  | extend (form : Form) (first more : Pattern rule)
  /-- Matches only if the trees that the pattern builds pass a test. -/
  | check (test : List Tree → Bool) (item : Pattern rule)

namespace Pattern

variable {rule : Type}

/-- The trees that a pattern builds from the front of the input, and the rest of the input. The fuel
bounds the depth of the recursion; a pattern that runs out of it does not match. -/
def parse (grammar : rule → Pattern rule) :
    Nat → Pattern rule → List Token → Option (List Tree × List Token)
  | 0, _, _ => none
  | fuel + 1, pattern, input =>
    match pattern with
    | empty => some ([], input)
    | token accepts =>
      match input with
      | first :: rest => if accepts first then some ([.leaf first], rest) else none
      | [] => none
    | call name => parse grammar fuel (grammar name) input
    | seq first second =>
      match parse grammar fuel first input with
      | none => none
      | some (trees, rest) =>
        match parse grammar fuel second rest with
        | none => none
        | some (more, rest) => some (trees ++ more, rest)
    | alt first second =>
      match parse grammar fuel first input with
      | some result => some result
      | none => parse grammar fuel second input
    | many item =>
      match parse grammar fuel item input with
      | none => some ([], input)
      | some (trees, rest) =>
        match parse grammar fuel (many item) rest with
        | none => none
        | some (more, rest) => some (trees ++ more, rest)
    | absent item =>
      match parse grammar fuel item input with
      | some _ => none
      | none => some ([], input)
    | build form item =>
      match parse grammar fuel item input with
      | none => none
      | some (trees, rest) => some ([.node form trees], rest)
    | extend form first more =>
      match parse grammar fuel first input with
      | none => none
      | some (trees, rest) =>
        match parse grammar fuel more rest with
        | none => some (trees, rest)
        | some (further, rest) => some ([.node form (trees ++ further)], rest)
    | check test item =>
      match parse grammar fuel item input with
      | none => none
      | some (trees, rest) => if test trees then some (trees, rest) else none

def all : List (Pattern rule) → Pattern rule
  | [] => empty
  | [item] => item
  | item :: rest => seq item (all rest)

def any : List (Pattern rule) → Pattern rule
  | [] => token fun _ => false
  | [item] => item
  | item :: rest => alt item (any rest)

/-- The pattern, or nothing where it does not match. -/
def opt (item : Pattern rule) : Pattern rule := alt item empty

/-- One or more. -/
def some1 (item : Pattern rule) : Pattern rule := seq item (many item)

/-- Takes nothing, and matches where the pattern does. -/
def ahead (item : Pattern rule) : Pattern rule := absent (absent item)

def word (text : String) : Pattern rule :=
  let characters := text.toList
  token fun t => t.isWord characters

def oneOf (texts : List String) : Pattern rule :=
  let words := texts.map String.toList
  token fun t => words.any t.isWord

def kind (kind : Kind) : Pattern rule := token fun t => t.kind == kind

/-- Items with a separator between neighbours. -/
def separated (item separator : Pattern rule) : Pattern rule :=
  seq item (many (seq separator item))

/-- Items with a separator between neighbours, and possibly one more at the end. -/
def separatedOpen (item separator : Pattern rule) : Pattern rule :=
  seq (separated item separator) (opt separator)

end Pattern
end DocDrift.Syntax
