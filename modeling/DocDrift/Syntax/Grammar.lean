import DocDrift.Syntax.Pattern
import DocDrift.Syntax.Scanner
import DocDrift.Syntax.Target

/-!
The grammar of programs. Wherever alternatives begin alike, their common beginning is parsed once and
what follows decides between them, so that parsing does not repeat work on nested input.
-/

namespace DocDrift.Syntax

inductive Rule where
  -- Statements
  | file | statement | simpleLine | small | compound | definition | function | classDefinition
  | block | ifStatement | whileStatement | forStatement | withStatement | withItem | tryStatement
  | matchStatement | caseBlock | elseBlock
  -- Small statements
  | expressionStatement | assigned | importStatement | fromStatement | dottedName | importNames
  | typeAlias | typeParameters | typeParameter
  -- Parameters
  | parameters | lambdaParameters
  -- Case patterns
  | casePatterns | casePattern | literalPattern | closedPattern | starPattern | listPattern
  | argumentPatterns | mappingEntries
  -- Expressions
  | expression | disjunction | conjunction | inversion | comparison | bitOr | bitXor | bitAnd | shift
  | sum | product | factor | power | primary | trailer | atom | parens | brackets | braces | braceItem
  | strings | stringPart | replacement | lambda | yieldExpression | starExpression | starExpressions
  | namedExpression | starNamed | starNamedList | generators | targets | arguments | keywords | slice
  deriving DecidableEq, Repr

namespace Grammar

open Pattern

abbrev P := Pattern Rule

def name : P := token Token.isName

def comma : P := word ","

def lineEnd : P := kind .lineEnd

def nameList : P := separated name comma

def realNumber : P := token fun t => t.kind == .number && !Number.isImaginary t.text

def imaginaryNumber : P := token fun t => t.kind == .number && Number.isImaginary t.text

/-- A name that a case pattern binds. The underscore is a pattern of its own. -/
def boundName : P := seq (absent (word "_")) name

/-- A left-associative level of binary operators. -/
def level (form : Form) (operand : Rule) (operators : List String) : P :=
  extend form (call operand) (some1 (seq (oneOf operators) (call operand)))

/-- A target of an assignment, still to be tested. -/
def target : P := alt (build .starred (seq (word "*") (call .bitOr))) (call .bitOr)

/-- An annotation after a colon, if one follows. -/
def typing (type : Rule) : P := opt (build .typing (seq (word ":") (call type)))

/-- A parameter list up to and excluding `stop`: parameters without a default value, then with one,
then those after a star. A slash may follow any parameter before the star, once. -/
def parameterList (stop : String) (type starType : P) : P :=
  let ending := alt comma (ahead (word stop))
  let value := build .default (seq (word "=") (call .expression))
  let parameter := fun (start tail : P) => seq (build .parameter (all [start, name, tail])) ending
  let plain := parameter empty type
  let defaulted := parameter empty (seq type value)
  let either := parameter empty (seq type (opt value))
  let slash := seq (word "/") ending
  let lastRest := parameter (word "**") type
  let rest := any
    [all [parameter (word "*") starType, many either, opt lastRest],
     all [word "*", comma, some1 either, opt lastRest],
     lastRest]
  let afterDefaulted := all [some1 defaulted, opt (seq slash (many defaulted)), opt rest]
  any
    [seq (some1 plain)
       (any [all [slash, many plain, many defaulted, opt rest], afterDefaulted, opt rest]),
     afterDefaulted,
     rest]

def conditionBlock : P := all [call .namedExpression, word ":", call .block]

def plainBlock : P := seq (word ":") (call .block)

/-- The alternatives after the block of a try statement. -/
def handlers : P :=
  let binding := opt (seq (word "as") name)
  let handler := all [word "except", opt (seq (call .expression) binding), plainBlock]
  let groupHandler := all [word "except", word "*", call .expression, binding, plainBlock]
  let cleanup := seq (word "finally") plainBlock
  any [all [some1 groupHandler, opt (call .elseBlock), opt cleanup],
       all [some1 handler, opt (call .elseBlock), opt cleanup],
       cleanup]

def rules : Rule → P
  -- Statements
  | .file => seq (many (call .statement)) (kind .sourceEnd)
  | .statement => alt (build .compound (call .compound)) (call .simpleLine)
  | .simpleLine => build .line (seq (separatedOpen (call .small) (word ";")) lineEnd)
  | .small => build .small <| any
      [seq (word "return") (opt (call .starExpressions)),
       call .importStatement,
       call .fromStatement,
       seq (word "raise")
         (opt (seq (call .expression) (opt (seq (word "from") (call .expression))))),
       word "pass",
       seq (word "del") (check (·.all (Tree.isTarget false)) (call .targets)),
       call .yieldExpression,
       all [word "assert", call .expression, opt (seq comma (call .expression))],
       word "break",
       word "continue",
       seq (word "global") nameList,
       seq (word "nonlocal") nameList,
       call .typeAlias,
       call .expressionStatement]
  | .compound => any
      [call .definition,
       call .ifStatement,
       call .withStatement,
       call .forStatement,
       call .tryStatement,
       call .whileStatement,
       call .matchStatement]
  | .definition => seq
      (many (build .decorator (all [word "@", call .namedExpression, lineEnd])))
      (alt (call .function) (call .classDefinition))
  | .function => build .function <| all
      [opt (word "async"), word "def", name, opt (call .typeParameters), word "(",
       build .parameters (opt (call .parameters)), word ")",
       opt (seq (word "->") (call .expression)), word ":", call .block]
  | .classDefinition => all
      [word "class", name, opt (call .typeParameters),
       opt (all [word "(", opt (call .arguments), word ")"]), plainBlock]
  | .block => build .block <| alt
      (all [lineEnd, kind .indent, some1 (call .statement), kind .dedent])
      (call .simpleLine)
  | .elseBlock => seq (word "else") plainBlock
  | .ifStatement => all
      [word "if", conditionBlock, many (seq (word "elif") conditionBlock), opt (call .elseBlock)]
  | .whileStatement => all [word "while", conditionBlock, opt (call .elseBlock)]
  | .forStatement => all
      [opt (word "async"), word "for", check (·.all (Tree.isTarget true)) (call .targets),
       word "in", call .starExpressions, plainBlock, opt (call .elseBlock)]
  | .withStatement => all
      [opt (word "async"), word "with",
       alt (all [word "(", separatedOpen (call .withItem) comma, word ")", ahead (word ":")])
         (separated (call .withItem) comma),
       plainBlock]
  | .withItem => seq (call .expression)
      (opt (seq (word "as") (check (·.all (Tree.isTarget true)) target)))
  | .tryStatement => all [word "try", plainBlock, handlers]
  | .matchStatement => all
      [word "match",
       alt (build .tuple (all [build .starred (seq (word "*") (call .bitOr)), comma,
             opt (call .starNamedList)]))
         (extend .tuple (call .namedExpression) (seq comma (opt (call .starNamedList)))),
       word ":", lineEnd, kind .indent, some1 (call .caseBlock), kind .dedent]
  | .caseBlock => all
      [word "case", call .casePatterns, opt (seq (word "if") (call .namedExpression)), plainBlock]
  -- Small statements
  | .expressionStatement => check Tree.isValidAssignment <| seq (call .starExpressions) <| any
      [all [word ":", call .expression, opt (seq (word "=") (call .assigned))],
       seq (oneOf ["+=", "-=", "*=", "@=", "/=", "%=", "&=", "|=", "^=", "<<=", ">>=", "**=", "//="])
         (call .assigned),
       many (seq (word "=") (call .assigned))]
  | .assigned => alt (call .yieldExpression) (call .starExpressions)
  | .importStatement => seq (word "import")
      (separated (seq (call .dottedName) (opt (seq (word "as") name))) comma)
  | .fromStatement =>
      let dots := oneOf [".", "..."]
      all [word "from", alt (seq (many dots) (call .dottedName)) (some1 dots), word "import",
           any [all [word "(", call .importNames, opt comma, word ")"],
                seq (call .importNames) (absent comma),
                word "*"]]
  | .importNames => separated (seq name (opt (seq (word "as") name))) comma
  | .dottedName => separated name (word ".")
  | .typeAlias => all
      [word "type", name, opt (call .typeParameters), word "=", call .expression]
  | .typeParameters => all [word "[", separatedOpen (call .typeParameter) comma, word "]"]
  | .typeParameter => any
      [all [name, opt (seq (word ":") (call .expression)),
            opt (seq (word "=") (call .expression))],
       all [word "*", name, opt (seq (word "=") (call .starExpression))],
       all [word "**", name, opt (seq (word "=") (call .expression))]]
  -- Parameters
  | .parameters => parameterList ")" (typing .expression) (typing .starExpression)
  | .lambdaParameters => parameterList ":" empty empty
  -- Case patterns
  | .casePatterns => alt
      (all [call .starPattern, comma, opt (call .listPattern)])
      (seq (call .casePattern) (opt (seq comma (opt (call .listPattern)))))
  | .casePattern => seq (separated (call .closedPattern) (word "|"))
      (opt (seq (word "as") boundName))
  | .starPattern => seq (word "*") name
  | .listPattern => separatedOpen (alt (call .starPattern) (call .casePattern)) comma
  | .literalPattern => any
      [all [opt (word "-"), kind .number, absent (oneOf ["+", "-"])],
       all [opt (word "-"), realNumber, oneOf ["+", "-"], imaginaryNumber],
       call .strings,
       oneOf ["None", "True", "False"]]
  | .closedPattern => any
      [call .literalPattern,
       word "_",
       seq (call .dottedName) (opt (all [word "(", opt (call .argumentPatterns), word ")"])),
       all [word "(", opt (call .casePatterns), word ")"],
       all [word "[", opt (call .listPattern), word "]"],
       all [word "\x7b", opt (call .mappingEntries), word "\x7d"]]
  | .argumentPatterns =>
      let keyword := all [name, word "=", call .casePattern]
      let positional := seq (absent (seq name (word "="))) (call .casePattern)
      seq
        (alt (seq (separated positional comma) (opt (seq comma (separated keyword comma))))
          (separated keyword comma))
        (opt comma)
  | .mappingEntries =>
      let key := alt (call .literalPattern) (all [name, word ".", call .dottedName])
      let entries := separated (all [key, word ":", call .casePattern]) comma
      let rest := all [word "**", boundName, opt comma]
      alt rest (seq entries (opt (seq comma (opt rest))))
  -- Expressions
  | .expression => alt (call .lambda) <| extend .conditional (call .disjunction) <| all
      [word "if", call .disjunction, word "else", call .expression]
  | .disjunction => level .boolean .conjunction ["or"]
  | .conjunction => level .boolean .inversion ["and"]
  | .inversion => alt (build .unary (seq (word "not") (call .inversion))) (call .comparison)
  | .comparison =>
      let operator := any [oneOf ["==", "!=", "<=", "<", ">=", ">", "in"],
        seq (word "not") (word "in"), seq (word "is") (opt (word "not"))]
      extend .comparison (call .bitOr) (some1 (seq operator (call .bitOr)))
  | .bitOr => level .binary .bitXor ["|"]
  | .bitXor => level .binary .bitAnd ["^"]
  | .bitAnd => level .binary .shift ["&"]
  | .shift => level .binary .sum ["<<", ">>"]
  | .sum => level .binary .product ["+", "-"]
  | .product => level .binary .factor ["*", "/", "//", "%", "@"]
  | .factor => alt (build .unary (seq (oneOf ["+", "-", "~"]) (call .factor))) (call .power)
  | .power => extend .binary
      (alt (build .await (seq (word "await") (call .primary))) (call .primary))
      (seq (word "**") (call .factor))
  | .primary => extend .primary (call .atom) (some1 (call .trailer))
  | .trailer => any
      [build .attribute (seq (word ".") name),
       build .call (all [word "(", opt (call .arguments), word ")"]),
       build .subscript (all [word "[", separatedOpen (call .slice) comma, word "]"])]
  | .atom => any
      [name, oneOf ["True", "False", "None", "..."], kind .number, call .strings, call .parens,
       call .brackets, call .braces]
  | .parens => build .parens <| all
      [word "(",
       opt (any
         [call .yieldExpression,
          build .tuple (all [build .starred (seq (word "*") (call .bitOr)), comma,
            opt (call .starNamedList)]),
          extend .tuple
            (extend .comprehension (call .namedExpression) (seq (call .generators) (absent comma)))
            (seq comma (opt (call .starNamedList)))]),
       word ")"]
  | .brackets => build .brackets <| all
      [word "[",
       opt (all
         [alt (build .starred (seq (word "*") (call .bitOr)))
            (extend .comprehension (call .namedExpression) (seq (call .generators) (absent comma))),
          many (seq comma (call .starNamed)), opt comma]),
       word "]"]
  | .braces => build .braces <| all
      [word "\x7b",
       opt (check Tree.areAlike (all
         [any
            [build .keyword (seq (word "**") (call .bitOr)),
             build .starred (seq (word "*") (call .bitOr)),
             extend .comprehension (call .braceItem) (seq (call .generators) (absent comma))],
          many (seq comma (call .braceItem)), opt comma])),
       word "\x7d"]
  | .braceItem => any
      [build .keyword (seq (word "**") (call .bitOr)),
       build .starred (seq (word "*") (call .bitOr)),
       build .named (all [name, word ":=", call .expression]),
       extend .pair (call .expression) (seq (word ":") (call .expression))]
  | .strings => extend .strings (call .stringPart) (some1 (call .stringPart))
  | .stringPart => alt (kind .string) <| build .fields <| all
      [kind .fieldsOpen, many (alt (kind .fieldsText) (call .replacement)), kind .fieldsClose]
  | .replacement => all
      [word "\x7b",
       alt (call .yieldExpression)
         (extend .comprehension (call .starExpressions) (call .generators)),
       opt (word "="),
       opt (seq (word "!") (oneOf ["r", "s", "a"])),
       opt (seq (word ":") (many (alt (kind .fieldsText) (call .replacement)))),
       word "\x7d"]
  | .lambda => build .lambda <| all
      [word "lambda", opt (call .lambdaParameters), word ":", call .expression]
  | .yieldExpression => build .yield <| seq (word "yield") <| alt
      (seq (word "from") (call .expression))
      (opt (call .starExpressions))
  | .starExpression => alt (build .starred (seq (word "*") (call .bitOr))) (call .expression)
  | .starExpressions => extend .tuple (call .starExpression) <| alt
      (seq (some1 (seq comma (call .starExpression))) (opt comma))
      comma
  | .namedExpression => alt
      (build .named (all [name, word ":=", call .expression]))
      (seq (call .expression) (absent (word ":=")))
  | .starNamed => alt (build .starred (seq (word "*") (call .bitOr))) (call .namedExpression)
  | .starNamedList => separatedOpen (call .starNamed) comma
  | .generators => some1 <| all
      [opt (word "async"), word "for", check (·.all (Tree.isTarget true)) (call .targets),
       word "in", call .disjunction, many (seq (word "if") (call .disjunction))]
  | .targets => extend .tuple target (alt (seq (some1 (seq comma target)) (opt comma)) comma)
  | .arguments =>
      let first := alt (build .starred (seq (word "*") (call .expression)))
        (extend .comprehension (seq (call .namedExpression) (absent (word "=")))
          (seq (call .generators) (ahead (word ")"))))
      let positional := alt (build .starred (seq (word "*") (call .expression)))
        (seq (call .namedExpression) (absent (word "=")))
      alt
        (all [first, many (seq comma positional), opt (seq comma (call .keywords)), opt comma])
        (seq (call .keywords) (opt comma))
  | .keywords =>
      let named := build .keyword (all [name, word "=", call .expression])
      let starred := build .starred (seq (word "*") (call .expression))
      let doubleStarred := build .keyword (seq (word "**") (call .expression))
      alt
        (seq (separated (alt named starred) comma)
          (opt (seq comma (separated (alt named doubleStarred) comma))))
        (separated (alt named doubleStarred) comma)
  | .slice =>
      let tail := all [word ":", opt (call .expression),
        opt (seq (word ":") (opt (call .expression)))]
      any
        [build .starred (seq (word "*") (call .bitOr)),
         build .named (all [name, word ":=", call .expression]),
         build .slice tail,
         extend .slice (call .expression) tail]

/-- The trees of the statements of a program, if its tokens are one. The depth of the recursion is
at most proportional to the number of tokens, since every cycle of rules takes a token. -/
def parseTokens (tokens : List Token) : Option (List Tree) :=
  match Pattern.parse rules (1000 * (tokens.length + 1)) (.call .file) tokens with
  | some (trees, []) => some trees
  | _ => none

end Grammar

/-- The trees of the statements of a source text, if it is a program. -/
def parse (source : Text) : Option (List Tree) :=
  match scan source with
  | none => none
  | some lexemes => Grammar.parseTokens (place 0 lexemes)

end DocDrift.Syntax
