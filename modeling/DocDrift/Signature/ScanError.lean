import DocDrift.Text.Quoted

/-!
The ways in which scanning one source text can fail, and their wording.
-/

namespace DocDrift

/-- Where a parser gave up on a source, and why. -/
structure SyntaxReport where
  line : Int
  column : Int
  message : String
  deriving DecidableEq, Repr

inductive ScanError where
  /-- The source, `length` characters long, ends where `context` says more must follow. -/
  | sourceEnded (context : String) (length : Nat)
  | nameExpected (found : Text) (offset : Nat)
  | unexpectedInList (found : Text) (offset : Nat)
  | separatorExpected (name : Text) (offset : Nat)
  | unbalancedBrackets (offset : Nat)
  /-- The source, `length` characters long, ends inside an annotation or a default value. -/
  | unclosedList (length : Nat)
  | unterminatedDocstring (offset : Nat)
  /-- The source is no well-formed program, for a reason that the parser may report. -/
  | unparsable (report : Option SyntaxReport)
  deriving DecidableEq, Repr

/-- The report as it stands in a message. -/
def SyntaxReport.text (report : SyntaxReport) : String :=
  " at line " ++ toString report.line ++ ", column " ++ toString report.column ++ ": " ++
    report.message

namespace ScanError

def message : ScanError → String
  | sourceEnded context _ => "reached end of source " ++ context
  | nameExpected found _ => "expected a function name, found " ++ Text.quoted found
  | unexpectedInList found _ => "unexpected " ++ Text.quoted found ++ " in parameter list"
  | separatorExpected name _ => "expected ',', ':', '=' or ')' after parameter " ++ Text.quoted name
  | unbalancedBrackets _ => "unbalanced brackets in parameter list"
  | unclosedList _ => "reached end of source without enclosers"
  | unterminatedDocstring _ => "unterminated docstring"
  | unparsable report => "cannot parse source" ++ (report.map SyntaxReport.text).getD ""

def offset? : ScanError → Option Nat
  | sourceEnded _ length => some length
  | nameExpected _ offset => some offset
  | unexpectedInList _ offset => some offset
  | separatorExpected _ offset => some offset
  | unbalancedBrackets offset => some offset
  | unclosedList length => some length
  | unterminatedDocstring offset => some offset
  | unparsable _ => none

end ScanError
end DocDrift
